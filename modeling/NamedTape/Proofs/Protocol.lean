import NamedTape.Proofs.Closing
import NamedTape.Proofs.Trails

/-!
# The protocol of hooks

What a run calls its hooks for, if they never fail (`event_protocol`): the start of the program;
then for each instruction that is taken the rules that fire at its step, that it comes next and that
it is over; and one closing event, if it ends. The instructions come in the order of a trail of the
program. A run whose hooks act on nothing but their host comes to the same without them; it need not
if they act on the device.
-/

namespace NamedTape

/-! ## Hooks that act on nothing but the host -/

/-- The action returns, and leaves all but the host as it was. -/
def Store.Discreet {σ : Type} (act : Action (Store σ) Unit) : Prop :=
  ∀ s, ∃ host, act s = .ok () (s.hosting host)

/-- No handler and no rule fails or acts on anything but the host. -/
structure Hooks.Discreet {σ : Type} (hooks : StoreHooks σ) : Prop where
  handlers : ∀ r ∈ hooks.handlers, ∀ notice, Store.Discreet (r.handler notice)
  rules : ∀ rule ∈ hooks.rules, ∀ tick, Store.Discreet (rule.handler tick)

namespace Store

open NamedTape.Action (Agree Parallel)

variable {σ τ : Type}

end Store

theorem Hooks.Discreet.return {σ : Type} {hooks : StoreHooks σ} (h : hooks.Discreet) :
    hooks.Return where
  handlers r hr notice s :=
    let ⟨_, hs⟩ := h.handlers r hr notice s
    ⟨_, hs⟩
  rules rule hr tick s :=
    let ⟨_, hs⟩ := h.rules rule hr tick s
    ⟨_, hs⟩

/-! ## Stories -/

namespace Hooks

variable {σ : Type} (hooks : StoreHooks σ)

/-- What is told of instructions that have been carried out, if the first of them is recorded as the
step. -/
def story : Int → List Instruction → List (Happening σ)
  | _, [] => []
  | step, i :: rest => hooks.onset step i ++ [.told (.after i)] ++ story (step + 1) rest

/-- What is told of an instruction that has not been carried out, if there is one. -/
def begun (step : Int) (pending : Option Instruction) : List (Happening σ) :=
  pending.elim [] (hooks.onset step)

theorem story_append (step : Int) (steps steps' : List Instruction) :
    hooks.story step (steps ++ steps') =
      hooks.story step steps ++ hooks.story (step + steps.length) steps' := by
  induction steps generalizing step with
  | nil => simp [story]
  | cons i rest ih =>
    have later : step + 1 + (rest.length : Int) = step + ((i :: rest).length : Nat) := by
      rw [List.length_cons]
      omega
    rw [List.cons_append, story, ih, later, story, List.append_assoc _ (hooks.story _ rest)]

end Hooks

/-- Whether an instruction is told of that comes next. -/
def Happening.begins {σ : Type} : Happening σ → Bool
  | .told (.before _) => true
  | _ => false

section begins

variable {σ : Type} (hooks : StoreHooks σ)

theorem countP_onset (step : Int) (i : Instruction) :
    (hooks.onset step i).countP Happening.begins = 1 := by
  have fired : (hooks.dues step i).countP Happening.begins = 0 := by
    refine List.countP_eq_zero.mpr fun x hx => ?_
    obtain ⟨rule, -, rfl⟩ := List.mem_map.mp hx
    exact Bool.false_ne_true
  rw [Hooks.onset, List.countP_append, fired]
  rfl

theorem countP_story (step : Int) (steps : List Instruction) :
    (hooks.story step steps).countP Happening.begins = steps.length := by
  induction steps generalizing step with
  | nil => rfl
  | cons i rest ih =>
    rw [Hooks.story, List.countP_append, List.countP_append, countP_onset, ih, List.length_cons]
    show 1 + 0 + rest.length = _
    omega

theorem countP_begun (step : Int) (pending : Option Instruction) :
    (hooks.begun step pending).countP Happening.begins = pending.toList.length := by
  cases pending with
  | none => rfl
  | some i => exact countP_onset hooks step i

end begins

namespace Session

open NamedTape.Action (Agree Keeps Meets Parallel)

variable {σ τ : Type} {hooks : StoreHooks σ} {s t u v : Session (Chronicled σ)}
  {program : Program} {aliases : Option AliasTable}

/-! ## Walks that tell a story -/

/-- Chronicle and log say that instructions have been carried out from the first session to the
second, and perhaps that one more has been begun. -/
structure Recounts (hooks : StoreHooks σ) (done : List Instruction) (pending : Option Instruction)
    (s t : Session (Chronicled σ)) : Prop where
  chronicle : t.chronicle = s.chronicle ++
    (hooks.story s.log.next done ++ hooks.begun (s.log.next + done.length) pending)
  log : Log.Adds (done ++ pending.toList) s.log t.log

/-- From the first session to the second, instructions have been carried out, and perhaps one more
has been begun. -/
structure Tells (hooks : StoreHooks σ) (done : List Instruction) (pending : Option Instruction)
    (s t : Session (Chronicled σ)) : Prop extends Recounts hooks done pending s t where
  stack : Pays (done ++ pending.toList) s.stack t.stack

theorem Recounts.same {done : List Instruction} {pending : Option Instruction}
    (h : Recounts hooks done pending s t) (chronicle : u.chronicle = t.chronicle)
    (log : u.log = t.log) : Recounts hooks done pending s u :=
  ⟨chronicle.trans h.chronicle, log ▸ h.log⟩

theorem Tells.refl (s : Session (Chronicled σ)) : Tells hooks [] none s s :=
  ⟨⟨(List.append_nil _).symm, .refl _⟩, .refl _⟩

theorem Tells.trans {done done' : List Instruction} {pending : Option Instruction}
    (h : Tells hooks done none s t) (h' : Tells hooks done' pending t u) :
    Tells hooks (done ++ done') pending s u := by
  obtain ⟨⟨chronicle, log⟩, stack⟩ := h
  simp only [Option.toList_none, List.append_nil] at log stack
  refine ⟨⟨?_, ?_⟩, ?_⟩
  · have next : s.log.next + (done.length : Int) + done'.length =
        s.log.next + ((done ++ done').length : Nat) := by
      rw [List.length_append]
      omega
    rw [h'.chronicle, chronicle, log.next, next, Hooks.story_append]
    simp only [Hooks.begun, Option.elim_none, List.append_nil, List.append_assoc]
  · rw [List.append_assoc]
    exact log.trans h'.log
  · rw [List.append_assoc]
    exact stack.trans h'.stack

/-- What is heard while nothing is recorded belongs to the instruction that has been begun. -/
theorem Tells.silent {done : List Instruction} {pending : Option Instruction}
    (h : Tells hooks done pending s t) (silent : Hears [] t u) : Tells hooks done pending s u :=
  ⟨h.toRecounts.same (silent.chronicle.trans (List.append_nil _)) silent.log,
    silent.stack ▸ h.stack⟩

/-- An instruction that has been begun is over once its handlers are told so. -/
theorem Tells.carried {done : List Instruction} {i : Instruction}
    (h : Tells hooks done (some i) s t) (after : Hears [.told (.after i)] t u) :
    Tells hooks (done ++ [i]) none s u := by
  refine ⟨⟨?_, ?_⟩, ?_⟩
  · rw [after.chronicle, h.chronicle, Hooks.story_append]
    simp [Hooks.story, Hooks.begun]
  · rw [Option.toList_none, List.append_nil, after.log]
    exact h.log
  · rw [Option.toList_none, List.append_nil, after.stack]
    exact h.stack

section taking

variable {frame : Frame} {below : List Frame} {i : Instruction} {rest : List Instruction}
  (stack : s.stack = frame :: below) (upcoming : frame.rest = i :: rest)
include stack upcoming

theorem tells_begun {view : Option String}
    (h : Hears (hooks.onset s.log.next i) ((s.setRest rest).noted frame.id i view) t) :
    Tells hooks [] (some i) s t where
  chronicle := by
    rw [h.chronicle]
    simp [chronicle, Hooks.story, Hooks.begun]
  log := by
    rw [h.log]
    exact adds_took s frame.id i rest view
  stack := by
    rw [h.stack, noted_stack, setRest_stack stack, stack]
    exact pays_take upcoming

theorem tells_over {view : Option String}
    (h : Hears (hooks.onset s.log.next i ++ [.told (.after i)])
      ((s.setRest rest).noted frame.id i view) t) : Tells hooks [i] none s t where
  chronicle := by
    rw [h.chronicle]
    simp [chronicle, Hooks.story, Hooks.begun]
  log := by
    rw [h.log]
    exact adds_took s frame.id i rest view
  stack := by
    rw [h.stack, noted_stack, setRest_stack stack, stack]
    exact pays_take upcoming

theorem tells_entered {body : List Instruction} {span : Span} {view : Option String}
    (loop : i = .loop body span) (h : Hears (hooks.onset s.log.next i ++ [.told (.after i)])
      (((s.setRest rest).noted frame.id i view).push (some span) body) t) :
    Tells hooks [i] none s t where
  chronicle := by
    rw [h.chronicle]
    simp [chronicle, Hooks.story, Hooks.begun]
  log := by
    rw [h.log]
    exact adds_took s frame.id i rest view
  stack := by
    rw [h.stack, push, noted_stack, setRest_stack stack, stack, loop]
    exact pays_enter (loop ▸ upcoming)

end taking

section returning

variable {frame : Frame} {below : List Frame} (stack : s.stack = frame :: below)
  (spent : frame.rest = []) (loop : frame.loop.isSome)
include stack spent loop

theorem tells_repeated (h : Hears [] (s.setRest frame.body) t) : Tells hooks [] none s t where
  chronicle := by
    rw [h.chronicle]
    simp [chronicle, Hooks.story, Hooks.begun]
  log := by
    rw [h.log, setRest_log]
    exact .refl _
  stack := by
    rw [h.stack, setRest_stack stack, stack]
    exact pays_repeat spent loop

theorem tells_left (h : Hears [] s.pop t) : Tells hooks [] none s t where
  chronicle := by
    rw [h.chronicle]
    simp [chronicle, Hooks.story, Hooks.begun]
  log := by
    rw [h.log, pop_log stack]
    exact .forget _ _
  stack := by
    rw [h.stack, pop_stack stack, stack]
    exact pays_leave spent loop

end returning

/-- The instruction that has been begun where a walk stands. -/
def Mode.pending : Mode → Option Instruction
  | .waiting span => some (.leaf .input span)
  | .walking | .finished => none

/-- Where a walk stands that tells a story: between two instructions, or at the end, where nothing
is left to do, or at an input instruction that has been begun. -/
def Stage (hooks : StoreHooks σ) (s : Session (Chronicled σ)) :
    Mode → Session (Chronicled σ) → Prop
  | .walking, t => ∃ done, Tells hooks done none s t
  | .finished, t => ∃ done, Tells hooks done none s t ∧
    ((∃ later, Owes s.stack later) → Owes t.stack [])
  | .waiting span, t => ∃ done, Tells hooks done (some (.leaf .input span)) s t

theorem Stage.tells {mode : Mode} (h : Stage hooks s mode t) :
    ∃ done, Tells hooks done mode.pending s t := by
  cases mode with
  | walking => exact h
  | waiting span => exact h
  | finished =>
    obtain ⟨done, told, -⟩ := h
    exact ⟨done, told⟩

/-- Where a walk has stopped that was to tell a story. -/
def Halts (hooks : StoreHooks σ) (s t : Session (Chronicled σ)) : Prop :=
  ∃ done pending, Recounts hooks done pending s t ∧
    ((∃ later, Owes s.stack later) → ∃ later, Owes s.stack (done ++ pending.toList ++ later))

theorem Tells.halts {done : List Instruction} {pending : Option Instruction}
    (h : Tells hooks done pending s t) : Halts hooks s t := by
  refine ⟨done, pending, h.toRecounts, fun open' => ?_⟩
  obtain ⟨later, owed⟩ := h.stack.onward open'
  exact ⟨later, h.stack.owed owed⟩

section story

variable {mode mode' : Mode} {e : Raised}

theorem Stage.takes {frame : Frame} {below : List Frame} {i : Instruction}
    {rest : List Instruction} (h : Stage hooks s .walking t) (stack : t.stack = frame :: below)
    (upcoming : frame.rest = i :: rest)
    (taken : Takes hooks frame.id i (t.setRest rest) mode u) : Stage hooks s mode u := by
  obtain ⟨done, told⟩ := h
  have next : (t.setRest rest).log.next = t.log.next := congrArg (·.next) (t.setRest_log rest)
  cases taken with
  | waits hi h =>
    subst hi
    exact ⟨_, told.trans (tells_begun stack upcoming (next ▸ h))⟩
  | done h => exact ⟨_, told.trans (tells_over stack upcoming (next ▸ h))⟩
  | enters hi h => exact ⟨_, told.trans (tells_entered stack upcoming hi (next ▸ h))⟩

theorem Stage.turn (h : Stage hooks s mode t) (turned : Turn hooks t mode (.ok mode' u)) :
    Stage hooks s mode' u := by
  cases turned with
  | ended => exact h
  | spent idle =>
    obtain ⟨done, told⟩ := h
    refine ⟨done, told, fun open' => ?_⟩
    have owed := told.stack.onward open'
    cases stack : t.stack with
    | nil =>
      rw [stack] at owed
      obtain ⟨_, none⟩ := owed
      cases none
    | cons frame below =>
      rw [stack] at owed
      obtain ⟨spent, program⟩ := idle frame below stack
      exact owes_nil owed spent program
  | takes stack upcoming taken => exact h.takes stack upcoming taken
  | repeats stack spent loop again =>
    obtain ⟨done, told⟩ := h
    exact ⟨_, told.trans (tells_repeated stack spent loop again)⟩
  | leaves stack spent loop left =>
    obtain ⟨done, told⟩ := h
    exact ⟨_, told.trans (tells_left stack spent loop left)⟩
  | receives after =>
    obtain ⟨done, told⟩ := h
    exact ⟨_, told.carried after⟩
  | waits silent =>
    obtain ⟨done, told⟩ := h
    exact ⟨done, told.silent silent⟩

variable (returns : hooks.Return)
include returns

theorem Stage.fails {frame : Frame} {below : List Frame} {i : Instruction}
    {rest : List Instruction} (h : Stage hooks s .walking t) (stack : t.stack = frame :: below)
    (upcoming : frame.rest = i :: rest) (failed : Fails hooks frame.id i (t.setRest rest) u) :
    Halts hooks s u := by
  obtain ⟨done, told⟩ := h
  have next : (t.setRest rest).log.next = t.log.next := congrArg (·.next) (t.setRest_log rest)
  cases failed with
  | disturbed fails _ _ => exact absurd returns fails
  | faulted h => exact (told.trans (tells_begun stack upcoming (next ▸ h))).halts
  | unrecorded h =>
    -- The instruction is off the stack, but it has not been taken.
    obtain ⟨_, _, told, way⟩ := told.halts
    refine ⟨_, _, told.same ?_ ?_, way⟩
    · rw [h.chronicle, List.append_nil, chronicle, setRest_store, chronicle]
    · rw [h.log, setRest_log]

theorem Stage.turn_error (h : Stage hooks s mode t) (turned : Turn hooks t mode (.error e u)) :
    Halts hooks s u := by
  cases turned with
  | fails stack upcoming failed => exact h.fails returns stack upcoming failed
  | balks silent =>
    obtain ⟨done, told⟩ := h
    exact (told.silent silent).halts
  | starves silent =>
    obtain ⟨done, told⟩ := h
    exact (told.silent silent).halts
  | disturbed fails _ => exact absurd returns fails

/-- A walk tells a story. -/
theorem walkFor_tells (n : Nat) (mode : Mode) :
    Meets (fun t => t.hooks = hooks.chronicled ∧ Stage hooks s mode t) (walkFor n mode)
      (fun mode t => t.hooks = hooks.chronicled ∧ Stage hooks s mode t)
      fun _ t => t.hooks = hooks.chronicled ∧ Halts hooks s t := by
  refine meets_walkFor (P := fun mode t => t.hooks = hooks.chronicled ∧ Stage hooks s mode t)
    (fun mode => ?_) n mode
  rintro t ⟨own, stage⟩
  have turned := turn own mode
  have same := move_keeps t mode
  cases hm : move mode t with
  | ok mode' u =>
    rw [hm] at turned
    exact ⟨(same.ok (.refl t) hm).hooks.trans own, stage.turn turned⟩
  | error e u =>
    rw [hm] at turned
    exact ⟨(same.error (.refl t) hm).hooks.trans own, stage.turn_error returns turned⟩

end story

/-! ## Runs that obey the protocol -/

/-- What a run tells that has started with the log: nothing but its failure if an alias gets no
cell; or else its start and its story so far, and at last its end or the failure of which the
instruction that has been begun, if there is one, is the place. -/
inductive Obeys (hooks : StoreHooks σ) (program : Program) (log : Log Nat) :
    Store.Outcome τ → EStateM.Result Raised (Session τ) Mode → List (Happening σ) → Prop
  | unopened {e : Raised} {store : Store τ} {t : Session τ} (same : t.log = log) :
    Obeys hooks program log (.error e store) (.error (report t e) t) [.told (.failed e)]
  | underway {store : Store τ} {mode : Mode} {done later : List Instruction} {t : Session τ}
    (unfinished : mode ≠ .finished)
    (trail : Trail program.instructions (done ++ mode.pending.toList ++ later))
    (adds : Log.Adds (done ++ mode.pending.toList) log t.log) :
    Obeys hooks program log (.ok () store) (.ok mode t)
      (.told (.started program) :: (hooks.story log.next done ++
        hooks.begun (log.next + done.length) mode.pending))
  | ended {store : Store τ} {done : List Instruction} {t : Session τ}
    (trail : Trail program.instructions done) (adds : Log.Adds done log t.log) :
    Obeys hooks program log (.ok () store) (.ok .finished t)
      (.told (.started program) :: (hooks.story log.next done ++ [.told .ended]))
  | failed {store : Store τ} {done later : List Instruction} {pending : Option Instruction}
    {raised : Raised} {t : Session τ}
    (trail : Trail program.instructions (done ++ pending.toList ++ later))
    (adds : Log.Adds (done ++ pending.toList) log t.log) :
    Obeys hooks program log (.ok () store) (.error (report t raised) t)
      (.told (.started program) :: (hooks.story log.next done ++
        (hooks.begun (log.next + done.length) pending ++ [.told (.failed raised)])))

/-- As many instructions are told of that come next as steps are recorded. -/
theorem Obeys.countP {log : Log Nat} {opened : Store.Outcome τ}
    {r : EStateM.Result Raised (Session τ) Mode} {told : List (Happening σ)}
    (h : Obeys hooks program log opened r told) :
    (standing r).log.next = log.next + (told.countP Happening.begins : Nat) := by
  have started : ∀ told : List (Happening σ),
      List.countP Happening.begins (.told (.started program) :: told) =
        told.countP Happening.begins := fun _ => List.countP_cons_of_neg (by simp [Happening.begins])
  cases h with
  | unopened same =>
    show _ = log.next + 0
    rw [standing, same, Int.add_zero]
  | underway _ trail adds =>
    rw [started, List.countP_append, countP_story, countP_begun, ← List.length_append]
    exact adds.next
  | ended trail adds =>
    rw [started, List.countP_append, countP_story]
    exact adds.next
  | @failed _ done _ pending raised _ trail adds =>
    rw [started, List.countP_append, List.countP_append, countP_story, countP_begun,
      ← Nat.add_assoc, ← List.length_append]
    exact adds.next

section watched

variable (returns : hooks.Return) {n : Nat} {e : Raised}

/-- A program that has started, before its first instruction. -/
structure Started (hooks : StoreHooks σ) (program : Program) (aliases : Option AliasTable)
    (s u : Session (Chronicled σ)) : Prop where
  hooks : u.hooks = hooks.chronicled
  opened : ∃ store, opening program aliases s = .ok () store
  chronicle : u.chronicle = [.told (.started program)]
  log : u.log = s.log
  stack : u.stack = [{ id := s.nextFrame, body := program.instructions }]

theorem started_of_prepare (own : s.hooks = hooks.chronicled) (blank : s.chronicle = [])
    {a : Unit} (h : prepare program (s.begin program aliases) = .ok a u) :
    Started hooks program aliases s u := by
  have prepared := prepares (s := s.begin program aliases) own program
  rw [h] at prepared
  cases prepared with
  | opened ho tells =>
    refine ⟨tells.hooks.trans own, ⟨_, ho⟩, ?_, tells.log, tells.stack⟩
    rw [tells.chronicle]
    exact congrArg (· ++ _) blank

theorem Started.owes (h : Started hooks program aliases s u) {steps : List Instruction} :
    Owes u.stack steps ↔ Trail program.instructions steps := by
  rw [h.stack]
  exact owes_program

/-- A run that is underway has told its story so far. -/
theorem Started.obeys_underway (h : Started hooks program aliases s v) {mode : Mode}
    (unfinished : mode ≠ .finished) (stage : Stage hooks v mode u) :
    Obeys hooks program s.log (opening program aliases s) (.ok mode u) u.chronicle := by
  obtain ⟨done, tells⟩ := stage.tells
  obtain ⟨later, owed⟩ := tells.stack.onward ((exists_trail _).imp fun _ => h.owes.mpr)
  obtain ⟨store, ho⟩ := h.opened
  rw [ho, tells.chronicle, h.chronicle, h.log]
  exact .underway unfinished (h.owes.mp (tells.stack.owed owed)) (h.log ▸ tells.log)

include returns

theorem closes_failed (e : Raised) (own : u.hooks = hooks.chronicled) :
    ∃ t, closeFailed e u = .error (report t e) t ∧ Hears [.told (.failed e)] u t := by
  have told := closeFailed_hears own e u (.refl u)
  cases hc : closeFailed e u with
  | ok mode t =>
    rw [hc] at told
    exact told.elim
  | error e' t =>
    rw [hc] at told
    exact ⟨t, by rw [told.2 returns], told.1⟩

theorem closes_ended (own : u.hooks = hooks.chronicled) :
    ∃ t, closeEnded u = .ok .finished t.pop ∧ Hears [.told .ended] u t := by
  have told := closeEnded_hears own u (.refl u)
  cases hc : closeEnded u with
  | ok mode t =>
    rw [hc] at told
    obtain ⟨rfl, v, hv, rfl⟩ := told
    exact ⟨v, rfl, hv⟩
  | error e t =>
    rw [hc] at told
    exact absurd returns told.2

/-- A run that fails has failed before its start, or with an instruction, or between two. -/
theorem obeys_failed (own : s.hooks = hooks.chronicled) (blank : s.chronicle = [])
    (ha : attempt n program (s.begin program aliases) = .error e u) :
    Obeys hooks program s.log (opening program aliases s) (closeFailed e u)
      (standing (closeFailed e u)).chronicle := by
  rcases Action.eq_error_of_bind ha with hp | ⟨_, v, hp, hw⟩
  · have prepared := prepares (s := s.begin program aliases) own program
    rw [hp] at prepared
    cases prepared with
    | disturbed fails _ => exact absurd returns fails
    | @unopened _ store ho same =>
      obtain ⟨t, closed, told⟩ := closes_failed returns e (same.hooks.trans own)
      have ho : opening program aliases s = .error e store := ho
      have chronicle : t.chronicle = [.told (.failed e)] := by
        rw [told.chronicle, same.chronicle, List.append_nil]
        exact congrArg (· ++ _) blank
      rw [ho, closed, standing, chronicle]
      exact .unopened (told.log.trans same.log)
  · have started := started_of_prepare own blank hp
    have told := walkFor_tells (s := v) returns n .walking v ⟨started.hooks, [], .refl v⟩
    rw [hw] at told
    obtain ⟨own', done, pending, recounts, way⟩ := told
    obtain ⟨later, owed⟩ := way ((exists_trail _).imp fun _ => started.owes.mpr)
    obtain ⟨t, closed, failed⟩ := closes_failed returns e own'
    obtain ⟨store, ho⟩ := started.opened
    rw [ho, closed, standing, failed.chronicle, recounts.chronicle, started.chronicle,
      started.log, List.append_assoc, List.append_assoc]
    exact .failed (started.owes.mp owed) (failed.log ▸ started.log ▸ recounts.log)

/-- A run that comes to its end has told the whole story. -/
theorem Started.obeys_ended (h : Started hooks program aliases s v)
    (own : u.hooks = hooks.chronicled) (stage : Stage hooks v .finished u) :
    Obeys hooks program s.log (opening program aliases s) (closeEnded u)
      (standing (closeEnded u)).chronicle := by
  obtain ⟨done, tells, spent⟩ := stage
  have owed := tells.stack.owed (spent ((exists_trail _).imp fun _ => h.owes.mpr))
  simp only [Option.toList_none, List.append_nil] at owed
  obtain ⟨t, closed, ended⟩ := closes_ended returns own
  obtain ⟨store, ho⟩ := h.opened
  have chronicle : t.pop.chronicle =
      .told (.started program) :: (hooks.story s.log.next done ++ [.told .ended]) := by
    rw [Session.chronicle, pop_store, ← Session.chronicle, ended.chronicle, tells.chronicle,
      h.chronicle, h.log]
    simp [Hooks.begun]
  have adds : Log.Adds done s.log t.pop.log := by
    have before := tells.log
    rw [Option.toList_none, List.append_nil, h.log, ← ended.log] at before
    have popped := before.trans (adds_pop t)
    rwa [List.append_nil] at popped
  rw [ho, closed, standing, chronicle]
  exact .ended (h.owes.mp owed) adds

/-- A watched run whose hooks never fail obeys the protocol, however far it gets. -/
theorem obeys_watched (own : s.hooks = hooks.chronicled) (blank : s.chronicle = [])
    (hi : ∀ t, executeFor n program aliases s ≠ .error .interrupt t) :
    Obeys hooks program s.log (opening program aliases s) (executeFor n program aliases s)
      (standing (executeFor n program aliases s)).chronicle := by
  have run : executeFor n program aliases s =
      conclude (attempt n program (s.begin program aliases)) := rfl
  rw [run] at hi ⊢
  cases ha : attempt n program (s.begin program aliases) with
  | error e u =>
    rw [ha] at hi
    have proper : e ≠ .interrupt := by
      rintro rfl
      exact hi u rfl
    rw [conclude_failed proper]
    exact obeys_failed returns own blank ha
  | ok mode u =>
    obtain ⟨_, v, hp, hw⟩ := Action.eq_ok_of_bind ha
    have started := started_of_prepare own blank hp
    have told := walkFor_tells (s := v) returns n .walking v ⟨started.hooks, [], .refl v⟩
    rw [hw] at told
    cases mode with
    | finished => exact started.obeys_ended returns told.1 told.2
    | walking => exact started.obeys_underway nofun told.2
    | waiting span => exact started.obeys_underway nofun told.2

end watched

/-! ## Runs with and without hooks -/

/-- Twins obey the same protocol. -/
theorem Obeys.twin {ρ : Type} {Q : τ → ρ → Prop} {hooks₁ : StoreHooks τ} {hooks₂ : StoreHooks ρ}
    {log : Log Nat} {opened : Store.Outcome τ} {opened' : Store.Outcome ρ}
    {r : EStateM.Result Raised (Session τ) Mode} {r' : EStateM.Result Raised (Session ρ) Mode}
    {told : List (Happening σ)} (h : Obeys hooks program log opened' r' told)
    (ho : Agree (Store.Alike Q) opened opened') (hr : Agree (Twins Q hooks₁ hooks₂) r r') :
    Obeys hooks program log opened r told := by
  have same : ∀ {t u}, Twins Q hooks₁ hooks₂ t u →
      u.log = t.log ∧ ∀ e, report u e = report t e := by
    rintro t _ ⟨-, -⟩
    exact ⟨rfl, fun e => by cases e <;> rfl⟩
  cases h with
  | unopened blank =>
    cases ho with
    | error _ =>
      cases hr with
      | error twins =>
        obtain ⟨log, report⟩ := same twins
        rw [report]
        exact .unopened (log ▸ blank)
  | underway unfinished trail adds =>
    cases ho with
    | ok _ =>
      cases hr with
      | ok twins => exact .underway unfinished trail ((same twins).1 ▸ adds)
  | ended trail adds =>
    cases ho with
    | ok _ =>
      cases hr with
      | ok twins => exact .ended trail ((same twins).1 ▸ adds)
  | failed trail adds =>
    cases ho with
    | ok _ =>
      cases hr with
      | error twins =>
        obtain ⟨log, report⟩ := same twins
        rw [report]
        exact .failed trail (log ▸ adds)

end Session

end NamedTape
