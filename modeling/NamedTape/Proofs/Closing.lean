import NamedTape.Proofs.Attribution
import NamedTape.Proofs.Turns
import NamedTape.Session.Report

/-!
# Closing events

A run that ends has been closed by one event, whatever its device, its hooks and its cancel callback
do: by the end of the program if the walk has come to its end, and by an error if something has
failed before (`closed_once`). Unless it is interrupted, nothing but a fault leaves it, with one
exception: what has no text cannot be made a fault, and slips out (`Slips`).
-/

namespace NamedTape

/-- Whether the happening is an event that closes runs. -/
def Happening.closes {σ : Type} : Happening σ → Bool
  | .told (.failed _) | .told .ended => true
  | _ => false

namespace Session

open NamedTape.Action (Agree Keeps Meets Parallel)

variable {σ τ : Type} {hooks : StoreHooks σ} {s t u : Session (Chronicled σ)}
  {told told' : List (Happening σ)} {program : Program} {aliases : Option AliasTable}

/-! ## Runs that are not closed yet -/

/-- None of the happenings closes a run. -/
def Open (told : List (Happening σ)) : Prop := ∀ x ∈ told, x.closes = false

theorem Open.append (h : Open told) (h' : Open told') : Open (told ++ told') :=
  List.forall_mem_append.mpr ⟨h, h'⟩

theorem Open.of_within (h : Open told') (hp : told <+: told') : Open told :=
  fun x hx => h x (hp.subset hx)

theorem open_onset (step : Int) (i : Instruction) : Open (hooks.onset step i) := by
  refine Open.append (fun x hx => ?_) fun x hx => ?_
  · obtain ⟨rule, -, rfl⟩ := List.mem_map.mp hx
    rfl
  · cases List.mem_singleton.mp hx
    rfl

theorem open_after (i : Instruction) : Open (σ := σ) [.told (.after i)] := by
  intro x hx
  cases List.mem_singleton.mp hx
  rfl

/-- From the first session to the second, happenings were written down that do not close a run. -/
def Goes (s t : Session (Chronicled σ)) : Prop :=
  ∃ told, Open told ∧ t.chronicle = s.chronicle ++ told

theorem Goes.refl (s : Session (Chronicled σ)) : Goes s s :=
  ⟨[], fun _ hx => absurd hx List.not_mem_nil, (List.append_nil _).symm⟩

theorem Goes.trans (h : Goes s t) (h' : Goes t u) : Goes s u := by
  obtain ⟨told, ho, ht⟩ := h
  obtain ⟨told', ho', hu⟩ := h'
  exact ⟨told ++ told', ho.append ho', by rw [hu, ht, List.append_assoc]⟩

theorem Hears.goes (h : Hears told s t) (ho : Open told) : Goes s t := ⟨told, ho, h.chronicle⟩

theorem Hears.silent (h : Hears [] s t) : Goes s t :=
  h.goes fun _ hx => absurd hx List.not_mem_nil

theorem goes_setRest (s : Session (Chronicled σ)) (rest : List Instruction) :
    Goes s (s.setRest rest) := by
  refine ⟨[], fun _ hx => absurd hx List.not_mem_nil, ?_⟩
  rw [chronicle, setRest_store, List.append_nil, chronicle]

theorem goes_pop (s : Session (Chronicled σ)) : Goes s s.pop := by
  refine ⟨[], fun _ hx => absurd hx List.not_mem_nil, ?_⟩
  rw [chronicle, pop_store, List.append_nil, chronicle]

theorem Takes.goes {frame : Nat} {i : Instruction} {mode : Mode}
    (h : Takes hooks frame i s mode t) : Goes s t := by
  cases h with
  | waits _ h => exact ⟨_, open_onset _ _, h.chronicle⟩
  | done h => exact ⟨_, (open_onset _ _).append (open_after i), h.chronicle⟩
  | enters _ h => exact ⟨_, (open_onset _ _).append (open_after i), h.chronicle⟩

theorem Fails.goes {frame : Nat} {i : Instruction} (h : Fails hooks frame i s t) : Goes s t := by
  cases h with
  | unrecorded h => exact h.silent
  | faulted h => exact ⟨_, open_onset _ _, h.chronicle⟩
  | disturbed _ within chronicle =>
    exact ⟨_, ((open_onset _ _).append (open_after i)).of_within within, chronicle⟩

/-- The session that a move leaves, however it ends. -/
theorem Turn.goes {mode mode' : Mode} (h : Turn hooks s mode (.ok mode' t)) : Goes s t := by
  cases h with
  | ended => exact .refl s
  | spent _ => exact .refl s
  | takes _ _ h => exact (goes_setRest s _).trans h.goes
  | repeats _ _ _ h => exact (goes_setRest s _).trans h.silent
  | leaves _ _ _ h => exact (goes_pop s).trans h.silent
  | receives h => exact h.goes (open_after _)
  | waits h => exact h.silent

theorem Turn.goes_error {mode : Mode} {e : Raised} (h : Turn hooks s mode (.error e t)) :
    Goes s t := by
  cases h with
  | fails _ _ h => exact (goes_setRest s _).trans h.goes
  | balks h => exact h.silent
  | starves h => exact h.silent
  | disturbed _ chronicle => exact ⟨_, open_after _, chronicle⟩

/-- The session goes on from `s`, and its hooks keep a chronicle. -/
def Going (hooks : StoreHooks σ) (s t : Session (Chronicled σ)) : Prop :=
  t.hooks = hooks.chronicled ∧ Goes s t

theorem move_going (mode : Mode) : Keeps (Going hooks s) (move mode) := by
  rintro t ⟨own, goes⟩
  have turned := turn own mode
  have same := move_keeps t mode
  cases hm : move mode t with
  | ok mode' u =>
    rw [hm] at turned
    exact ⟨(same.ok (.refl t) hm).hooks.trans own, goes.trans turned.goes⟩
  | error e u =>
    rw [hm] at turned
    exact ⟨(same.error (.refl t) hm).hooks.trans own, goes.trans turned.goes_error⟩

theorem prepare_going (program : Program) : Keeps (Going hooks s) (prepare program) := by
  rintro t ⟨own, goes⟩
  have started : Open (σ := σ) [.told (.started program)] := by
    intro x hx
    cases List.mem_singleton.mp hx
    rfl
  have prepared := prepares own program
  cases hp : prepare program t with
  | ok a u =>
    rw [hp] at prepared
    cases prepared with
    | opened _ tells => exact ⟨tells.hooks.trans own, goes.trans (tells.goes started)⟩
  | error e u =>
    rw [hp] at prepared
    cases prepared with
    | unopened _ same => exact ⟨same.hooks.trans own, goes.trans same.silent⟩
    | disturbed _ tells => exact ⟨tells.hooks.trans own, goes.trans (tells.goes started)⟩

/-- No closing event comes before the attempt at a run is over. -/
theorem attempt_going (n : Nat) (program : Program) :
    Keeps (Going hooks s) (attempt n program) :=
  (prepare_going program).bind fun _ => meets_walkFor move_going n .walking

/-! ## How runs close -/

/-- A run that ends, and not by an interrupt, has been closed. -/
theorem closed_of_executes {s : Session τ} {r : EStateM.Result Raised (Session τ) Unit}
    (h : Executes program aliases s r) (hi : ∀ t, r ≠ .error .interrupt t) :
    ∃ n, (∃ u, attempt n program (s.begin program aliases) = .ok .finished u ∧
        closeEnded u = ending r) ∨
      ∃ raised u, attempt n program (s.begin program aliases) = .error raised u ∧
        raised ≠ .interrupt ∧ closeFailed raised u = ending r := by
  obtain ⟨n, hn⟩ := h
  have closed : conclude (attempt n program (s.begin program aliases)) = ending r := hn
  refine ⟨n, ?_⟩
  cases ha : attempt n program (s.begin program aliases) with
  | ok mode u =>
    rw [ha] at closed
    cases mode with
    | walking => cases r <;> cases closed
    | waiting span => cases r <;> cases closed
    | finished => exact .inl ⟨u, rfl, closed⟩
  | error raised u =>
    rw [ha] at closed
    have proper : raised ≠ .interrupt := by
      rintro rfl
      cases r with
      | ok a t => cases closed
      | error e t =>
        cases closed
        exact hi u rfl
    rw [conclude_failed proper] at closed
    exact .inr ⟨raised, u, rfl, proper, closed⟩

theorem closes_of_executes {s : Session τ} {r : EStateM.Result Raised (Session τ) Unit}
    (h : Executes program aliases s r) (hi : ∀ t, r ≠ .error .interrupt t) :
    ∃ closing u, Closes program aliases s closing u := by
  obtain ⟨n, ⟨u, ha, -⟩ | ⟨raised, u, ha, proper, -⟩⟩ := closed_of_executes h hi
  · exact ⟨_, u, .ended ha⟩
  · exact ⟨_, u, .failed ha proper⟩

/-- A run that is watched ends after one closing event. -/
theorem closes_watched (own : s.hooks = hooks.chronicled)
    {r : EStateM.Result Raised (Session (Chronicled σ)) Unit}
    (h : Executes program aliases s r) (hi : ∀ t, r ≠ .error .interrupt t) :
    ∃ before closing u,
      (left r).chronicle = s.chronicle ++ before ++ [.told closing] ∧ Open before ∧
      Closes program aliases s closing u := by
  have going := fun n => attempt_going n program (s.begin program aliases) ⟨own, .refl _⟩
  rcases closed_of_executes h hi with ⟨n, ⟨u, ha, closed⟩ | ⟨raised, u, ha, proper, closed⟩⟩
  · have attempted := going n
    rw [ha] at attempted
    obtain ⟨own', before, ho, hc⟩ := attempted
    have told := closeEnded_hears own' u (.refl u)
    rw [closed] at told
    refine ⟨before, .ended, u, ?_, ho, .ended ha⟩
    cases r with
    | ok a t =>
      obtain ⟨-, v, hv, rfl⟩ := told
      show v.pop.chronicle = _
      rw [chronicle, pop_store, ← chronicle, hv.chronicle, hc]
      rfl
    | error e t =>
      show t.chronicle = _
      rw [told.1.chronicle, hc]
      rfl
  · have attempted := going n
    rw [ha] at attempted
    obtain ⟨own', before, ho, hc⟩ := attempted
    have told := closeFailed_hears own' raised u (.refl u)
    rw [closed] at told
    cases r with
    | ok a t => exact told.elim
    | error e t =>
      refine ⟨before, .failed raised, u, ?_, ho, .failed ha proper⟩
      show t.chronicle = _
      rw [told.1.chronicle, hc]
      rfl

/-! ## What leaves a run -/

/-- How a foreign failure leaves a run that has come to its closing event: the failure that is
announced has no text, or the one that a handler of the event fails with has none. It is what asking
for the text fails with. -/
inductive Slips : Notice → Session τ → Foreign → Session τ → Prop
  | told {failure other : Foreign} {u t : Session τ}
    (h : announce (.failed (.foreign failure)) u = .ok () t) (mute : failure.text = .error other) :
    Slips (.failed (.foreign failure)) u other t
  | untold {closing : Notice} {failure other : Foreign} {u : Session τ} {store : Store τ}
    (h : u.hooks.emit (· closing) closing.event u.store = .error (.foreign failure) store)
    (mute : failure.text = .error other) : Slips closing u other { u with store }

theorem announce_eq_foreign_iff {notice : Notice} {other : Foreign} {u t : Session τ} :
    announce notice u = .error (.foreign other) t ↔
      ∃ failure store, u.hooks.emit (· notice) notice.event u.store =
        .error (.foreign failure) store ∧ failure.text = .error other ∧ t = { u with store } := by
  have told : announce notice u = Action.restating
      (fun s => Raised.blame fun failure =>
        { cause := .hookFailed notice.event failure, span := s.lastSpan })
      (onStore (u.hooks.emit (· notice) notice.event)) u := rfl
  rw [told]
  cases he : u.hooks.emit (· notice) notice.event u.store with
  | ok a store =>
    rw [Action.restating_of_ok (onStore_of_ok he)]
    simp
  | error e store =>
    rw [Action.restating_of_error (onStore_of_error he)]
    cases e with
    | fault f => simp [Raised.blame]
    | interrupt => simp [Raised.blame]
    | foreign failure =>
      simp only [Raised.blame, EStateM.Result.error.injEq, Raised.quoting_eq_foreign_iff,
        Raised.foreign.injEq]
      constructor
      · rintro ⟨mute, rfl⟩
        exact ⟨failure, store, ⟨rfl, rfl⟩, mute, rfl⟩
      · rintro ⟨_, _, ⟨rfl, rfl⟩, mute, rfl⟩
        exact ⟨mute, rfl⟩

/-- What a run does that has come to its closing event. -/
def close : Notice → Action (Session τ) Mode
  | .failed raised => closeFailed raised
  | _ => closeEnded

theorem closeEnded_ends (u : Session τ) : ∃ r, closeEnded u = ending r := by
  cases told : announce .ended u with
  | ok a t => exact ⟨.ok () t.pop, Action.bind_of_ok told _⟩
  | error e t => exact ⟨.error e t, Action.bind_of_error told _⟩

theorem closeFailed_ends (raised : Raised) (u : Session τ) :
    ∃ r, closeFailed raised u = ending r := by
  cases told : announce (.failed raised) u with
  | ok a t => exact ⟨.error (report t raised) t, Action.bind_of_ok told _⟩
  | error e t => exact ⟨.error e t, Action.bind_of_error told _⟩

/-- Once its closing event has come, a run ends. -/
theorem Closes.close_eq {s u : Session τ} {closing : Notice}
    {r : EStateM.Result Raised (Session τ) Unit} (h : Closes program aliases s closing u)
    (hr : Executes program aliases s r) : close closing u = ending r := by
  have closed : ∃ n r', executeFor n program aliases s = close closing u ∧
      close closing u = ending r' := by
    cases h with
    | @ended n u ha =>
      obtain ⟨r', closed⟩ := closeEnded_ends u
      exact ⟨n, r', congrArg conclude ha, closed⟩
    | @failed n raised u ha proper =>
      obtain ⟨r', closed⟩ := closeFailed_ends raised u
      exact ⟨n, r', (congrArg conclude ha).trans (conclude_failed proper u), closed⟩
  obtain ⟨n, r', run, closed⟩ := closed
  rw [closed, hr.unique ⟨n, run.trans closed⟩]

/-- **What is foreign slips out of a run only for want of a text.** -/
theorem Closes.slips_iff {s u t : Session τ} {closing : Notice} {failure : Foreign}
    {r : EStateM.Result Raised (Session τ) Unit} (h : Closes program aliases s closing u)
    (hr : Executes program aliases s r) :
    r = .error (.foreign failure) t ↔ Slips closing u failure t := by
  have closed := h.close_eq hr
  constructor
  · rintro rfl
    cases h with
    | ended ha =>
      rcases Action.eq_error_of_bind closed with he | ⟨_, v, -, hv⟩
      · obtain ⟨_, _, emitted, mute, rfl⟩ := announce_eq_foreign_iff.mp he
        exact .untold emitted mute
      · cases hv
    | @failed n raised u ha proper =>
      rcases Action.eq_error_of_bind closed with he | ⟨_, v, hv, reported⟩
      · obtain ⟨_, _, emitted, mute, rfl⟩ := announce_eq_foreign_iff.mp he
        exact .untold emitted mute
      · injection reported with reported state
        subst state
        cases raised with
        | interrupt => exact absurd rfl proper
        | fault f => cases reported
        | foreign f => exact .told hv (Raised.quoting_eq_foreign_iff.mp reported)
  · intro slips
    have fails : close closing u = ending (.error (.foreign failure) t) := by
      cases slips with
      | told told mute =>
        refine (Action.bind_of_ok told _).trans ?_
        show EStateM.Result.error (report t (.foreign _)) t = _
        rw [report, Raised.quoting_of_text mute]
        rfl
      | untold he mute =>
        have announced := announce_eq_foreign_iff.mpr ⟨_, _, he, mute, rfl⟩
        cases h with
        | ended _ => exact Action.bind_of_error announced _
        | failed _ _ => exact Action.bind_of_error announced _
    exact ending_injective (closed.symm.trans fails)

/-- There is a report on a run that ends, unless something foreign slips out of it. -/
theorem Closes.reported_iff {s u : Session τ} {closing : Notice}
    {r : EStateM.Result Raised (Session τ) Unit} (h : Closes program aliases s closing u)
    (hr : Executes program aliases s r) (hi : ∀ t, r ≠ .error .interrupt t) :
    (∃ report, Report.of? (ending r) = some report) ↔ ¬ ∃ failure t, Slips closing u failure t := by
  simp only [← h.slips_iff hr]
  match r with
  | .ok () t => simp [ending, Report.of?]
  | .error (.fault f) t => simp [ending, Report.of?]
  | .error (.foreign failure) t => simp [ending, Report.of?]
  | .error .interrupt t => exact absurd rfl (hi t)

/-- Whatever is around the session has a text for its failures. -/
abbrev Voiced (s : Session τ) : Prop := s.Surrounded Raised.Voiced

theorem treats_voiced : Treats (σ := τ) Raised.Voiced fun e _ => e.Voiced where
  plain e h := by
    cases e with
    | foreign failure => exact h
    | fault f => trivial
    | interrupt => trivial
  outside _ h := h
  within {e _} _ h := by
    cases e with
    | foreign failure => exact h
    | fault f => trivial
    | interrupt => trivial
  hook _ _ h := (Raised.quoting_of_voiced h _).symm ▸ trivial
  rule _ _ h := (Raised.quoting_of_voiced h _).symm ▸ trivial
  cancelled _ _ := trivial

/-- There is a report on every run that ends, and not by an interrupt, among what has texts. -/
theorem Voiced.reported {s : Session τ} (hs : s.Voiced)
    {r : EStateM.Result Raised (Session τ) Unit} (h : Executes program aliases s r)
    (hi : ∀ t, r ≠ .error .interrupt t) : ∃ report, Report.of? (ending r) = some report := by
  obtain ⟨closing, u, closes⟩ := closes_of_executes h hi
  obtain ⟨surrounded, voiced⟩ := closes.surrounded treats_voiced hs
  refine (closes.reported_iff h hi).mpr ?_
  rintro ⟨failure, t, slips⟩
  cases slips with
  | told _ mute => exact Foreign.not_voiced_of_text mute (voiced _ rfl)
  | untold he mute =>
    have handlers : Store.Fails Raised.Voiced (u.hooks.emit (· closing) closing.event) :=
      forM_fails fun r hr => surrounded.handlers r (List.mem_filter.mp hr).1 closing
    exact Foreign.not_voiced_of_text mute (handlers.error surrounded.device he).2

/-! ## Runs with and without a chronicle -/

section twins

variable {Q : σ → τ → Prop} {hooks : StoreHooks σ} {hooks' : StoreHooks τ}
  (h : Store.HooksAlike Q hooks hooks') {s : Session σ} {t : Session τ}
  (twins : Twins Q hooks hooks' s t)
include h twins

/-- Twins run a program to the same end. -/
theorem Executes.twin {r : EStateM.Result Raised (Session σ) Unit}
    (hr : Executes program aliases s r) :
    ∃ r', Executes program aliases t r' ∧ Agree (Twins Q hooks hooks') r r' := by
  obtain ⟨n, hn⟩ := hr
  have agree := executeFor_twins h n program aliases _ _ twins
  rw [hn] at agree
  generalize ht : executeFor n program aliases t = result at agree
  cases r with
  | ok a u =>
    cases agree with
    | ok same => exact ⟨.ok a _, ⟨n, ht⟩, .ok same⟩
  | error e u =>
    cases agree with
    | error same => exact ⟨.error e _, ⟨n, ht⟩, .error same⟩

/-- Twins close their runs with the same event. -/
theorem Closes.twin {closing : Notice} {u : Session τ} (hc : Closes program aliases t closing u) :
    ∃ v, Closes program aliases s closing v := by
  have attempts := fun n => (prepare_twins h program).bind
    (fun _ => walkFor_twins h n .walking) _ _ (twins.begin program aliases)
  cases hc with
  | @ended n u ha =>
    have agree : Agree _ (attempt n program _) (attempt n program _) := attempts n
    rw [ha] at agree
    generalize hv : attempt n program (s.begin program aliases) = result at agree
    cases agree with
    | @ok _ v _ _ => exact ⟨v, .ended hv⟩
  | @failed n raised u ha proper =>
    have agree : Agree _ (attempt n program _) (attempt n program _) := attempts n
    rw [ha] at agree
    generalize hv : attempt n program (s.begin program aliases) = result at agree
    cases agree with
    | @error _ v _ _ => exact ⟨v, .failed hv proper⟩

end twins

/-- **One closing event.** Let a run end, whatever its device, its hooks and its cancel callback
do, and not by an interrupt. The same run with a chronicle, which comes to the same, has one closing
event in it, the last of all that happens: the end of the program if the attempt at it has come to
its end, and else the failure that has cut it short. There is a report on the run, unless at that
event a failure slips out for want of a text; there always is one if what surrounds the run has
texts for its failures. -/
theorem closed_once {s : Session σ} {r : EStateM.Result Raised (Session σ) Unit}
    (h : Executes program aliases s r) (hi : ∀ t, r ≠ .error .interrupt t) :
    (∃ r', Executes program aliases s.watched r' ∧ Agree (Watches s.hooks) r r' ∧
      ∃ before closing u, (left r').chronicle = before ++ [.told closing] ∧
        Open before ∧ Closes program aliases s closing u ∧
        ((∃ report, Report.of? (ending r) = some report) ↔
          ¬ ∃ failure t, Slips closing u failure t) ∧
        ∀ failure t, r = .error (.foreign failure) t ↔ Slips closing u failure t) ∧
      (s.Voiced → ∃ report, Report.of? (ending r) = some report) := by
  have alike := s.hooks.chronicled_alike
  obtain ⟨r', hr', agree⟩ := h.twin alike s.watches_watched
  have hi' : ∀ t, r' ≠ .error .interrupt t := by
    rintro t rfl
    cases agree with
    | error _ => exact hi _ rfl
  obtain ⟨before, closing, u, told, ho, closes⟩ := closes_watched (s := s.watched) rfl hr' hi'
  obtain ⟨v, closes⟩ := closes.twin alike s.watches_watched
  exact ⟨⟨r', hr', agree, before, closing, v, told, ho, closes, closes.reported_iff h hi,
    fun failure t => closes.slips_iff h⟩, fun voiced => voiced.reported h hi⟩

theorem voiced_sulking : sulking.Voiced where
  device := by
    refine ⟨fun k e h => ?_, fun k e h => by cases h⟩
    have exhausted : sulking.store.device.readings k = .fails (.of .inputExhausted) := by
      simp [sulking, cornered, Device.ofReadings]
    cases exhausted.symm.trans h
    trivial
  handlers r hr notice := by
    cases List.mem_singleton.mp hr
    exact .throw fun _ h => ⟨h, _, rfl⟩
  rules r hr := absurd hr List.not_mem_nil
  cancel answers h := by cases h

theorem closed_once_sulking : ∃ f t r' before closing u,
    Executes increment none sulking (.error (.fault f) t) ∧
      Executes increment none sulking.watched r' ∧
      (left r').chronicle = before ++ [.told closing] ∧ Open before ∧
      Closes increment none sulking closing u ∧ (¬ ∃ failure t, Slips closing u failure t) ∧
      sulking.Voiced := by
  have shown : faults (fun _ _ => true) (executeFor 2 increment none sulking) = true := by
    decide +kernel
  obtain ⟨f, t, executes, -⟩ := executes_of_faults shown
  obtain ⟨⟨r', watched, -, before, closing, u, told, ho, closes, reported, -⟩, always⟩ :=
    closed_once executes (fun _ => nofun)
  exact ⟨f, t, r', before, closing, u, executes, watched, told, ho, closes,
    reported.mp (always voiced_sulking), voiced_sulking⟩

/-- A session whose device fails with what has no text. -/
def mumbling : Session Unit :=
  { cornered with store := { cornered.store with
      device := .ofReadings .memory [.fails (.foreign (.mute "ValueError" .tooManyDigits))] } }

/-- A program that asks for a byte. -/
def request : Program where
  instructions := [.leaf .input ⟨0, 1⟩]

/-- Whether a run within a bound is cut short by something foreign. -/
def escapes : EStateM.Result Raised (Session τ) Mode → Bool
  | .error (.foreign _) _ => true
  | _ => false

theorem executes_of_escapes {s : Session τ} {n : Nat}
    (h : escapes (executeFor n program aliases s) = true) :
    ∃ failure t, Executes program aliases s (.error (.foreign failure) t) := by
  cases hr : executeFor n program aliases s with
  | ok mode t =>
    rw [hr] at h
    cases h
  | error e t =>
    rw [hr] at h
    cases e with
    | foreign failure => exact ⟨failure, t, n, hr⟩
    | fault f => cases h
    | interrupt => cases h

/-- There is no report on a run whose device fails with what has no text. -/
theorem unreported_mumbling : ¬ ∀ (s : Session Unit) (program : Program)
    (aliases : Option AliasTable) (r : EStateM.Result Raised (Session Unit) Unit),
    Executes program aliases s r → (∀ t, r ≠ .error .interrupt t) →
      ∃ report, Report.of? (ending r) = some report := by
  intro reported
  have shown : escapes (executeFor 2 request none mumbling) = true := by decide +kernel
  obtain ⟨failure, t, executes⟩ := executes_of_escapes shown
  obtain ⟨report, none⟩ := reported _ _ _ _ executes fun _ => nofun
  cases none

end Session

end NamedTape
