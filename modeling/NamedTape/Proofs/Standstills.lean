import NamedTape.Proofs.Checkpoints
import NamedTape.Proofs.Failings
import NamedTape.Proofs.MergedExecutions
import NamedTape.Proofs.Tracks

/-!
# Where walks come to a standstill

A walk without hooks keeps its log in track with its stack. When it fails, that is known of the
innermost frame: the failure is placed at the latest step, or at the check point that comes next, or
nowhere, unless it has been brought along by the device or the cancel callback with a place of its
own (`meets_move_tracked`).
-/

namespace NamedTape

open NamedTape.Action (Meets leaving)

theorem Raised.span_of_plain (e : Raised) (h : e.Plain) : e.span = none := by
  cases e with
  | fault f => exact h.1
  | foreign failure => rfl
  | interrupt => rfl

/-- The failure has no place, or it is one of those that are brought along. -/
def Raised.Loose (brings : Raised → Prop) (e : Raised) : Prop := e.span = none ∨ brings e

theorem Raised.Loose.cases {brings : Raised → Prop} {e : Raised} (h : e.Loose brings) :
    e.span = none ∨ ∃ g span, e = .fault g ∧ g.span = some span ∧ brings (.fault g) := by
  cases e with
  | foreign failure => exact .inl rfl
  | interrupt => exact .inl rfl
  | fault g =>
    cases placed : g.span with
    | none => exact .inl placed
    | some span =>
      refine .inr ⟨g, span, rfl, placed, h.resolve_left fun unplaced => ?_⟩
      cases placed.symm.trans unplaced

namespace Session

variable {σ : Type} {dialect : Dialect} {brings : Raised → Prop}

/-- The device has a place for its failures only if it brings them along, and the log knows no
frames but those that have had their numbers. -/
structure Tidy (brings : Raised → Prop) (s : Session σ) : Prop where
  device : s.store.device.Fails (·.Loose brings)
  known : ∀ p ∈ s.log.recent, p.1 < s.nextFrame

/-- Nothing but the program and the cancel callback acts in the session, and the callback has a
place for its failures only if it brings them along, too. -/
structure Lone (brings : Raised → Prop) (s : Session σ) : Prop extends Tidy brings s where
  hooks : s.hooks = {}
  cancel : ∀ answers, s.cancel = some answers → ∀ k e, answers k = .error e → e.Loose brings

theorem Lone.of_same {s t : Session σ} (h : s.Lone brings) (same : SameSettings s t)
    (tidy : t.Tidy brings) : t.Lone brings :=
  ⟨tidy, same.hooks.trans h.hooks, same.cancel ▸ h.cancel⟩

/-- The log of the session tracks its stack. -/
def Tracked (dialect : Dialect) (s : Session σ) : Prop :=
  Tracks dialect s.source.toList s.log s.nextFrame s.stack

/-- The innermost frame has taken the latest step of all, at the span. -/
def Busy (span : Span) (s : Session σ) : Prop :=
  ∃ frame below entry, s.stack = frame :: below ∧ s.log.lastOf frame.id = some entry ∧
    s.log.last = some entry ∧ entry.span = some span

/-- If the walk waits at a span, the latest step was taken there. -/
def Waits (mode : Mode) (s : Session σ) : Prop := ∀ span, mode = .waiting span → s.Busy span

theorem waits_walking (s : Session σ) : s.Waits .walking := fun _ h => nomatch h

/-- How a walk stands that has failed. -/
inductive Stuck (dialect : Dialect) (brings : Raised → Prop) (t : Session σ) : Raised → Prop
  /-- The failure is that of the instruction of the latest step. -/
  | working {e : Raised} {span : Span} (busy : t.Busy span) (loose : e.Loose brings) :
    Stuck dialect brings t (e.within span)
  /-- The failure came between two steps. -/
  | idle {e : Raised} (newest : Newest t.source.toList t.log t.stack) (loose : e.Loose brings) :
    Stuck dialect brings t e
  /-- The run was called off before an instruction of the innermost frame. -/
  | before {frame : Frame} {below : List Frame} {i : Instruction} (stack : t.stack = frame :: below)
    (placed : frame.Placed dialect t.source.toList)
    (logged : Frame.Logged t.log { frame with rest := i :: frame.rest }) :
    Stuck dialect brings t (.fault { cause := .cancelled, span := some i.span })
  /-- The run was called off at the end of the body of the innermost loop. -/
  | again {frame : Frame} {below : List Frame} {span : Span} (stack : t.stack = frame :: below)
    (placed : frame.Placed dialect t.source.toList) (logged : frame.Logged t.log)
    (spent : frame.rest = []) (loop : frame.loop = some span) :
    Stuck dialect brings t (.fault { cause := .cancelled, span := some span })

theorem Stuck.heeding {t : Session σ} {e : Raised} (h : Stuck dialect brings t e)
    (cancel : Option (Nat → Except Raised Bool)) (checks : Nat) :
    Stuck dialect brings (t.heeding cancel checks) e := by
  cases h with
  | working busy loose => exact .working busy loose
  | idle newest loose => exact .idle newest loose
  | before stack placed logged =>
    exact .before (t := t.heeding cancel checks) stack placed logged
  | again stack placed logged spent loop =>
    exact .again (t := t.heeding cancel checks) stack placed logged spent loop

/-! ## Quiet moves -/

section moves

variable {s : Session σ} {frame : Frame} {below : List Frame} {i : Instruction}
  {rest : List Instruction} (tracked : s.Tracked dialect) (hs : s.stack = frame :: below)
include tracked hs

theorem Tracked.nests : Nests dialect s.source.toList s.log s.nextFrame (frame :: below) := by
  rw [← hs]
  exact Tracks.nests tracked

theorem Tracked.took (hr : frame.rest = i :: rest) (view : Option String) :
    (s.took frame.id i rest view).Tracked dialect := by
  unfold Tracked at tracked
  rw [hs] at tracked
  rw [Session.took, setRest_eq hs]
  exact tracked.take hr view

omit tracked in
theorem busy_took (i : Instruction) (rest : List Instruction) (view : Option String) :
    (s.took frame.id i rest view).Busy i.span := by
  rw [Session.took, setRest_eq hs]
  exact ⟨_, _, _, rfl, Log.lastOf_record_self _ _ _ _, rfl, rfl⟩

theorem Tracked.entered {body : List Instruction} {span : Span}
    (hr : frame.rest = .loop body span :: rest) (view : Option String) :
    ((s.took frame.id (.loop body span) rest view).push (some span) body).Tracked dialect := by
  have took := tracked.took hs hr view
  obtain ⟨latest, before, -⟩ := (tracked.nests hs).logged
  obtain ⟨done, body_eq⟩ := before.split
  have member : Instruction.loop body span ∈ frame.body := by simp [body_eq, hr]
  unfold Tracked at took
  rw [Session.took, setRest_eq hs] at took ⊢
  exact took.enter member (Log.lastOf_record_self _ _ _ _) rfl rfl

theorem Tracked.repeats (hr : frame.rest = []) : (s.setRest frame.body).Tracked dialect := by
  unfold Tracked at tracked
  rw [hs] at tracked
  rw [setRest_eq hs]
  exact Tracks.repeats tracked hr

theorem Tracked.leave {span : Span} (hl : frame.loop = some span) : s.pop.Tracked dialect := by
  unfold Tracked at tracked
  rw [hs] at tracked
  rw [pop_eq hs]
  exact Tracks.leave tracked hl

theorem Tracked.newest_setRest (rest : List Instruction) :
    Newest (s.setRest rest).source.toList (s.setRest rest).log (s.setRest rest).stack := by
  unfold Tracked at tracked
  rw [hs] at tracked
  rw [setRest_eq hs]
  exact tracked.newest.renew rest

end moves

/-- What a quiet move leaves behind: a session in track, or one that is stuck. -/
def Lands (dialect : Dialect) (brings : Raised → Prop) :
    EStateM.Result Raised (Session σ) Mode → Prop
  | .ok mode t => t.Tidy brings ∧ t.Tracked dialect ∧ t.Waits mode
  | .error e t => t.Tidy brings ∧ Stuck dialect brings t e

theorem Tracked.tidy {s : Session σ} (h : s.Tracked dialect)
    (device : s.store.device.Fails (·.Loose brings)) : s.Tidy brings :=
  ⟨device, h.known⟩

theorem Tidy.setRest {s : Session σ} (h : s.Tidy brings) (rest : List Instruction) :
    (s.setRest rest).Tidy brings := by
  unfold Session.setRest
  split <;> exact ⟨h.device, h.known⟩

theorem lands_worked {act : Action (Store σ) Store.Progress}
    (fails : Store.Fails (·.Loose brings) act) {store : Store σ}
    (device : store.device.Fails (·.Loose brings)) {span : Span} {t : Session σ}
    (tracked : t.Tracked dialect) (busy : t.Busy span) :
    Lands dialect brings (worked span t (act store)) := by
  have performed := fails store device
  cases ha : act store with
  | error e store =>
    rw [ha] at performed
    exact ⟨tracked.tidy (s := t.withStore store) performed.1,
      .working (t := t.withStore store) busy performed.2⟩
  | ok progress store =>
    rw [ha] at performed
    have tidy := tracked.tidy (s := t.withStore store) performed
    cases progress with
    | done => exact ⟨tidy, tracked, waits_walking _⟩
    | waiting => exact ⟨tidy, tracked, fun span' h => Mode.waiting.inj h ▸ busy⟩

/-- **Quiet moves keep the log in track with the stack.** -/
theorem Strides.lands {s : Session σ} {mode : Mode} {r : EStateM.Result Raised (Session σ) Mode}
    (h : Strides s mode r) (tidy : s.Tidy brings) (tracked : s.Tracked dialect)
    (waits : s.Waits mode) : Lands dialect brings r := by
  have plain : ∀ e : Raised, e.Plain → e.Loose brings := fun e h => .inl (e.span_of_plain h)
  have sameDevice : ∀ {t : Session σ}, t.Tracked dialect → t.store = s.store → t.Tidy brings :=
    fun tracked' store => tracked'.tidy (store ▸ tidy.device)
  cases h with
  | ended => exact ⟨tidy, tracked, waits⟩
  | spent _ => exact ⟨tidy, tracked, fun _ h => nomatch h⟩
  | unseen stack _ seen =>
    exact ⟨tidy.setRest _, .idle (tracked.newest_setRest stack _)
      ((Store.observe_fails plain _).error tidy.device seen).2⟩
  | works stack upcoming =>
    exact lands_worked (Store.perform_fails plain _ _) tidy.device (tracked.took stack upcoming _)
      (busy_took stack _ _ _)
  | @passes _ _ _ _ _ view stack upcoming =>
    have took := tracked.took stack upcoming view
    exact ⟨sameDevice took (s.setRest_store _), took, waits_walking _⟩
  | @enters _ _ _ _ _ view stack upcoming =>
    have entered := tracked.entered stack upcoming view
    exact ⟨sameDevice entered (s.setRest_store _), entered, waits_walking _⟩
  | @strays _ _ _ _ _ view _ stack upcoming cell =>
    have took := tracked.took stack upcoming view
    exact ⟨sameDevice took (s.setRest_store _), .idle took.newest
      ((Store.cell_fails plain).error tidy.device cell).2⟩
  | repeats stack spent _ =>
    exact ⟨tidy.setRest _, tracked.repeats stack spent, waits_walking _⟩
  | leaves stack _ loop =>
    have left := tracked.leave stack loop
    exact ⟨sameDevice left s.pop_store, left, waits_walking _⟩
  | straysBack _ _ cell =>
    exact ⟨tidy, .idle tracked.newest ((Store.cell_fails plain).error tidy.device cell).2⟩
  | asks span =>
    exact lands_worked (Store.perform_fails plain _ _) tidy.device tracked (waits span rfl)

/-! ## Moves that may be called off -/

/-- A move that is refused at a check point is stuck there. -/
theorem stuck_of_refused {s t : Session σ} {mode : Mode} {span : Span} {e : Raised}
    (heeds : Heeds s mode span t) {heard : Session σ} (refuses : Refuses heard mode span e)
    (lone : heard.Lone brings) (tracked : s.Tracked dialect) (waits : s.Waits mode) :
    Stuck dialect brings t e := by
  cases refuses with
  | calledOff _ _ =>
    cases heeds with
    | @taking frame below i rest stack upcoming =>
      have nests := tracked.nests stack
      have whole : { frame with rest := i :: rest } = frame := by rw [← upcoming]
      have logged := whole.symm ▸ nests.logged
      have top : (s.setRest rest).stack = { frame with rest } :: below := setRest_stack stack rest
      rw [setRest_eq stack] at top ⊢
      exact .before top nests.placed logged
    | again stack spent loop =>
      have nests := tracked.nests stack
      exact .again stack nests.placed nests.logged spent loop
    | asking _ => exact .working (e := .fault { cause := .cancelled }) (waits span rfl) (.inl rfl)
  | @failed answers failure callback answer =>
    have loose := lone.cancel answers callback _ failure answer
    cases heeds with
    | taking stack _ => exact .idle (tracked.newest_setRest stack _) loose
    | again _ _ _ => exact .idle tracked.newest loose
    | asking _ => exact .working (waits span rfl) loose

theorem Heeds.tidy {s t : Session σ} {mode : Mode} {span : Span} (h : Heeds s mode span t)
    (tidy : s.Tidy brings) : t.Tidy brings := by
  cases h with
  | taking _ _ => exact tidy.setRest _
  | again _ _ _ => exact tidy
  | asking _ => exact tidy

/-- A move that somebody may call off is one that nobody listens to, or it is refused at a check
point. -/
theorem move_heard {s : Session σ} {answers : Nat → Except Raised Bool}
    (hc : s.cancel = some answers) (mode : Mode) :
    (∃ checks, move mode s =
      leaving (heeding (some answers) checks) (move mode (s.heeding none s.checks))) ∨
    ∃ span t e, Heeds (s.heeding none s.checks) mode span t ∧ Refuses s mode span e ∧
      move mode s = .error e (t.heeding (some answers) (s.checks + 1)) := by
  cases ha : asksAt? mode s with
  | none =>
    have alone : asksAt? mode (s.heeding none s.checks) = none := by cases mode <;> exact ha
    have deaf := (move_unasked alone).deaf s.cancel s.checks
    exact .inl ⟨s.checks, hc ▸ deaf⟩
  | some span =>
    obtain ⟨-, spared⟩ | ⟨t, e, refused⟩ := move_asked hc ha
    · exact .inl ⟨_, spared⟩
    · exact .inr ⟨span, t, e, refused⟩

/-- **Walks keep the log in track with the stack, until they are stuck.** -/
theorem meets_move_tracked (mode : Mode) :
    Meets (fun s : Session σ => s.Lone brings ∧ s.Tracked dialect ∧ s.Waits mode) (move mode)
      (fun mode t => t.Lone brings ∧ t.Tracked dialect ∧ t.Waits mode)
      fun e t => t.Lone brings ∧ Stuck dialect brings t e := by
  rintro s ⟨lone, tracked, waits⟩
  have same := move_keeps s mode s (.refl s)
  cases hc : s.cancel with
  | none =>
    have lands := (Quiet.strides ⟨lone.hooks, hc⟩ mode).lands lone.toTidy tracked waits
    cases hm : move mode s with
    | error e t =>
      rw [hm] at lands same
      exact ⟨lone.of_same same lands.1, lands.2⟩
    | ok mode' t =>
      rw [hm] at lands same
      exact ⟨lone.of_same same lands.1, lands.2⟩
  | some answers =>
    have quiet : (s.heeding none s.checks).Quiet := ⟨lone.hooks, rfl⟩
    have tidy : (s.heeding none s.checks).Tidy brings := ⟨lone.device, lone.known⟩
    have lands := (quiet.strides mode).lands tidy tracked waits
    obtain ⟨checks, heard⟩ | ⟨span, t, e, heeds, refuses, refused⟩ := move_heard hc mode
    · rw [heard] at same ⊢
      cases hm : move mode (s.heeding none s.checks) with
      | error e t =>
        rw [hm] at lands same
        exact ⟨lone.of_same same ⟨lands.1.device, lands.1.known⟩, lands.2.heeding _ _⟩
      | ok mode' t =>
        rw [hm] at lands same
        exact ⟨lone.of_same same ⟨lands.1.device, lands.1.known⟩, lands.2⟩
    · rw [refused] at same ⊢
      have still := heeds.tidy tidy
      exact ⟨lone.of_same same ⟨still.device, still.known⟩,
        (stuck_of_refused heeds refuses lone tracked waits).heeding _ _⟩

end Session

end NamedTape
