import NamedTape.Proofs.Candor
import NamedTape.Proofs.MergedExecutions

/-!
# What escaping faults are attributed to

The log of a session outlives its runs, and a fault can leave a run in two ways: it is reported
after the handlers of the closing event have returned, or it comes from one of these handlers. Only
in the first way does it get a step, and this is the latest in the log, whichever run has recorded
it (`fault_attribution`). So a fault is attributed to its own run unless the run has recorded no
step after others have, or has recorded steps and is closed by a handler that fails.
-/

namespace NamedTape

/-- The index of the latest of the steps, if the first of them has the index `next`. -/
def Log.latest (next : Int) (steps : List Instruction) : Option Int :=
  (deeds next steps).getLast?.map (·.1)

theorem Log.latest_eq_none {next : Int} {steps : List Instruction} :
    latest next steps = none ↔ steps = [] := by
  cases steps with
  | nil => exact iff_of_true rfl rfl
  | cons i rest => simp [latest, deeds, List.getLast?_cons]

theorem Log.latest_append (next : Int) (steps steps' : List Instruction) :
    latest next (steps ++ steps') =
      (latest (next + steps.length) steps').or (latest next steps) := by
  rw [latest, deeds_append, List.getLast?_append]
  cases h : (deeds (next + steps.length) steps').getLast? <;> simp [latest, h]

/-- Steps that are added change the latest one, unless there are none. -/
theorem Log.latest_append_iff {next : Int} {steps steps' : List Instruction} :
    latest next (steps ++ steps') = latest (next + steps.length) steps' ↔
      steps' ≠ [] ∨ steps = [] := by
  rw [latest_append]
  cases h : latest (next + steps.length) steps' with
  | some step =>
    have some' : steps' ≠ [] := fun none => by cases h.symm.trans (latest_eq_none.mpr none)
    exact iff_of_true rfl (.inl some')
  | none =>
    rw [Option.none_or, latest_eq_none, latest_eq_none.mp h]
    simp

/-- The step that a failure comes with that is announced. -/
def Notice.step : Notice → Option Int
  | failed (.fault f) => f.step
  | _ => none

namespace Session

open NamedTape.Action (Keeps Meets)

variable {σ : Type} {s t u : Session σ} {program : Program} {aliases : Option AliasTable}

/-! ## Growing logs -/

/-- The log of the second session is that of the first and some more steps. -/
def Grown (s t : Session σ) : Prop := ∃ steps, Log.Adds steps s.log t.log

theorem grown_of_log (h : t.log = s.log) : Grown s t := ⟨[], h ▸ .refl s.log⟩

theorem Grown.trans (h : Grown s t) (h' : Grown t u) : Grown s u :=
  let ⟨_, adds⟩ := h
  let ⟨_, adds'⟩ := h'
  ⟨_, adds.trans adds'⟩

theorem adds_pop (s : Session σ) : Log.Adds [] s.log s.pop.log := by
  unfold pop
  split
  · exact .refl _
  · exact .forget _ _

theorem grown_pop (s : Session σ) : Grown s s.pop := ⟨[], adds_pop s⟩

theorem indifferent_grown (s : Session σ) : Indifferent (Grown s) where
  store _ ht := ht
  checks _ ht := ht
  record _ i view _ ht := ht.trans ⟨[i], .record _ _ i view⟩

theorem maintains_grown (s : Session σ) :
    Maintains (Grown s) (fun _ => True) fun _ => Grown s where
  announce := (indifferent_grown s).announce
  checkCancelled := (indifferent_grown s).checkCancelled
  takeStep := (indifferent_grown s).takeStep
  cell := (indifferent_grown s).onStore _
  receive := (indifferent_grown s).onStore _
  perform _ _ := (indifferent_grown s).onStore _
  within _ ht := ht
  frame _ _ := ⟨trivial, trivial⟩
  cons _ := ⟨trivial, trivial⟩
  body _ := trivial
  setRest {t rest} ht _ := ht.trans (grown_of_log (t.setRest_log rest))
  push _ ht _ := ht
  pop {t} ht := ht.trans (grown_pop t)

theorem announce_log (u : Session σ) (notice : Notice) :
    Keeps (fun t : Session σ => t.log = u.log) (announce notice) :=
  Aloof.announce ⟨fun _ ht => ht, fun _ ht => ht⟩ notice

/-! ## How runs close -/

/-- The part of a run that comes before its closing event. -/
def attempt (fuel : Nat) (program : Program) : Action (Session σ) Mode := do
  prepare program
  walkFor fuel .walking

theorem attempt_grown (s : Session σ) (n : Nat) (program : Program) :
    Keeps (Grown s) (attempt n program) :=
  ((indifferent_grown s).aloof.prepare program).bind fun _ => (maintains_grown s).walkFor n .walking

theorem Treats.attempt {E : Raised → Prop} {F : Raised → Session σ → Prop} (h : Treats E F)
    (n : Nat) (program : Program) : Passes E F (attempt n program) :=
  Meets.bind (h.prepare program) fun _ => h.maintains.walkFor n .walking

/-- The run comes to its closing event in the session `u`. -/
inductive Closes (program : Program) (aliases : Option AliasTable) (s : Session σ) :
    Notice → Session σ → Prop
  | ended {n : Nat} {u : Session σ}
    (h : attempt n program (s.begin program aliases) = .ok .finished u) :
    Closes program aliases s .ended u
  | failed {n : Nat} {raised : Raised} {u : Session σ}
    (h : attempt n program (s.begin program aliases) = .error raised u) (hi : raised ≠ .interrupt) :
    Closes program aliases s (.failed raised) u

/-- The handlers of the closing event have all returned. -/
def Told (closing : Notice) (u : Session σ) : Prop := ∃ t, announce closing u = .ok () t

/-- How a fault leaves a run that has come to its closing event: it is reported once the handlers
have been told, or it comes from them. -/
inductive Escapes : Notice → Session σ → Fault → Session σ → Prop
  | told {raised : Raised} {u t : Session σ} {f : Fault}
    (h : announce (.failed raised) u = .ok () t) (hf : report t raised = .fault f) :
    Escapes (.failed raised) u f t
  | untold {closing : Notice} {u t : Session σ} {f : Fault}
    (h : announce closing u = .error (.fault f) t) : Escapes closing u f t

/-- A fault that ends an execution has escaped from its closing event. -/
theorem escapes_of_executes {f : Fault} (h : Executes program aliases s (.error (.fault f) t)) :
    ∃ closing u, Closes program aliases s closing u ∧ Escapes closing u f t := by
  obtain ⟨n, hn⟩ := h
  have closed : conclude (attempt n program (s.begin program aliases)) = .error (.fault f) t := hn
  cases ha : attempt n program (s.begin program aliases) with
  | ok mode u =>
    rw [ha] at closed
    cases mode with
    | walking => cases closed
    | waiting span => cases closed
    | finished =>
      refine ⟨.ended, u, .ended ha, .untold ?_⟩
      rcases Action.eq_error_of_bind closed with h | ⟨_, v, -, h⟩
      · exact h
      · cases h
  | error raised u =>
    rw [ha] at closed
    have proper : raised ≠ .interrupt := by
      rintro rfl
      cases closed
    rw [conclude_failed proper] at closed
    refine ⟨.failed raised, u, .failed ha proper, ?_⟩
    rcases Action.eq_error_of_bind closed with h | ⟨_, v, h, reported⟩
    · exact .untold h
    · injection reported with e state
      subst state
      exact .told h e

theorem Closes.grown {closing : Notice} (h : Closes program aliases s closing u) : Grown s u := by
  have begun : Grown s (s.begin program aliases) := grown_of_log rfl
  cases h with
  | ended h => exact (attempt_grown s _ program).ok begun h
  | failed h _ => exact (attempt_grown s _ program).error begun h

/-- At its closing event a session is surrounded as it was, and a failure that is announced is what
the session makes of failures of that kind. -/
theorem Closes.surrounded {closing : Notice} (h : Closes program aliases s closing u)
    {E : Raised → Prop} {F : Raised → Session σ → Prop} (treats : Treats E F)
    (hs : s.Surrounded E) :
    u.Surrounded E ∧ ∀ raised, closing = .failed raised → F raised u := by
  have begun : (s.begin program aliases).Surrounded E :=
    ⟨hs.device, hs.handlers, hs.rules, hs.cancel⟩
  cases h with
  | ended h =>
    refine ⟨(treats.attempt _ program).ok begun h, fun raised hc => ?_⟩
    cases hc
  | failed h _ =>
    obtain ⟨surrounded, treated⟩ := (treats.attempt _ program).error begun h
    refine ⟨surrounded, ?_⟩
    rintro _ ⟨⟩
    exact treated

theorem Escapes.log {closing : Notice} {f : Fault} (h : Escapes closing u f t) :
    t.log = u.log := by
  cases h with
  | told h _ => exact (announce_log u _).ok rfl h
  | untold h => exact (announce_log u _).error rfl h

/-- A fault gets a step if the handlers of the closing event have returned: that which the failure
has come with, and else that of the latest step. -/
theorem Escapes.step {closing : Notice} {f : Fault} (h : Escapes closing u f t)
    (told : Told closing u) : f.step = (closing.step <|> t.log.last.map (·.step)) := by
  cases h with
  | @told raised _ _ _ _ hf =>
    cases raised with
    | interrupt => cases hf
    | fault g =>
      cases hf
      rfl
    | foreign failure =>
      obtain ⟨-, rfl⟩ := Raised.quoting_eq_fault_iff.mp hf
      rfl
  | untold h =>
    obtain ⟨v, hv⟩ := told
    cases hv.symm.trans h

theorem step_of_faithful {closing : Notice}
    (h : ∀ raised, closing = .failed raised → Faithful raised u) : closing.step = none := by
  cases closing with
  | failed raised =>
    cases raised with
    | fault g => exact (h _ rfl g rfl).1
    | foreign failure => rfl
    | interrupt => rfl
  | started program => rfl
  | before i => rfl
  | after i => rfl
  | ended => rfl

/-- In a candid session the fault comes without a step if the handlers have not returned. -/
theorem Escapes.step_untold {closing : Notice} {f : Fault} (h : Escapes closing u f t)
    (candid : u.Candid) (untold : ¬ Told closing u) : f.step = none := by
  cases h with
  | told h _ => exact absurd ⟨t, h⟩ untold
  | untold h => exact (((treats_candid.announce closing).error candid h).2 f rfl).1

/-- In a candid session the fault is at the latest step if the session has placed it by its log. -/
theorem Escapes.span {closing : Notice} {f : Fault} (h : Escapes closing u f t)
    (candid : u.Candid) (faithful : ∀ raised, closing = .failed raised → Faithful raised u)
    (placed : f.cause.FromLog) {span : Span} (last : t.lastSpan = some span) :
    f.span = some span := by
  have same : t.lastSpan = u.lastSpan := by rw [lastSpan, h.log, lastSpan]
  cases h with
  | @told raised _ _ _ _ hf =>
    cases raised with
    | interrupt => cases hf
    | fault g =>
      cases hf
      exact (faithful _ rfl g rfl).2 placed span (same ▸ last)
    | foreign failure =>
      obtain ⟨-, rfl⟩ := Raised.quoting_eq_fault_iff.mp hf
      exact last
  | untold h => exact ((treats_candid.announce closing).error candid h).2 f rfl |>.2 placed span last

/-! ## Runs one after another -/

/-- A session in which runs have followed one another since `first`. Between two of them anything
may have been changed but the log. -/
inductive Follows (first : Session σ) : Session σ → Prop
  | start {s : Session σ} (log : s.log = first.log) : Follows first s
  | next {s u : Session σ} {program : Program} {aliases : Option AliasTable}
    {r : EStateM.Result Raised (Session σ) Unit} (earlier : Follows first s)
    (run : Executes program aliases s r) (log : u.log = (left r).log) : Follows first u

/-- Closing a run leaves its log, but for what it keeps of the program's own frame. -/
theorem conclude_grown {act : Action (Session σ) Mode} (h : Keeps (Grown s) act) :
    Keeps (Grown s) fun u => conclude (act u) := by
  have announced := (indifferent_grown s).announce
  have ends : Keeps (Grown s) closeEnded := by
    have popped : Keeps (Grown s) (modify pop) := .modify fun t ht => ht.trans (grown_pop t)
    exact (announced _).bind fun _ => popped.bind fun _ => .pure fun _ ht => ht
  have fails : ∀ raised, Keeps (Grown s) (closeFailed raised) :=
    fun raised => (announced _).bind fun _ => .get fun _ ht => .throw fun _ hv => hv ▸ ht
  intro u hu
  have attempted := h u hu
  dsimp only
  cases ha : act u with
  | ok mode v =>
    rw [ha] at attempted
    cases mode with
    | walking => exact attempted
    | waiting span => exact attempted
    | finished => exact ends v attempted
  | error raised v =>
    rw [ha] at attempted
    by_cases hr : raised = .interrupt
    · subst hr
      exact attempted
    · rw [conclude_failed hr]
      exact fails raised v attempted

theorem executes_grown {r : EStateM.Result Raised (Session σ) Unit}
    (h : Executes program aliases s r) : Grown s (left r) := by
  obtain ⟨n, hn⟩ := h
  have begun : Grown s (s.begin program aliases) := grown_of_log rfl
  have closed := conclude_grown (attempt_grown s n program) _ begun
  have run : conclude (attempt n program (s.begin program aliases)) = ending r := hn
  dsimp only at closed
  rw [run] at closed
  cases r with
  | ok a t => exact closed
  | error e t => exact closed

theorem Follows.grown {first : Session σ} (h : Follows first s) : Grown first s := by
  induction h with
  | start log => exact grown_of_log log
  | next _ run log ih => exact (ih.trans (executes_grown run)).trans (grown_of_log log)

/-- The latest step and its span in a log that was without steps at first. -/
theorem latest_of_adds {first : Session σ} {steps : List Instruction}
    (fresh : first.log.last = none) (h : Log.Adds steps first.log t.log) :
    t.log.last.map (·.step) = Log.latest first.log.next steps ∧
      ∀ i, steps.getLast? = some i → t.lastSpan = some i.span := by
  have last := h.last
  rw [fresh, Option.map_none, Option.or_none] at last
  constructor
  · rw [Log.latest, ← last, Option.map_map]
    rfl
  · intro i hi
    rw [lastSpan_of_adds h, hi]
    rfl

/-- **Attribution.** Let runs follow one another since the log had no steps, and let one of them end
with a fault, `earlier` being the steps of the runs before it, and `here` its own. If the handlers
of its closing event return, the fault gets the step that the failure has come with, or else the
latest of all steps. In candid surroundings failures come without steps, a fault that the handlers
raise gets none, and a fault that is placed by the log is placed at the latest of all steps; so the
fault has the latest of the steps `here` if and only if the handlers return and there is a step
`here`, or none before, or they do not return and there is none `here`. -/
theorem fault_attribution {first : Session σ} {f : Fault} (fresh : first.log.last = none)
    (hf : Follows first s) (h : Executes program aliases s (.error (.fault f) t)) :
    ∃ earlier here closing u, Log.Adds earlier first.log s.log ∧ Log.Adds here s.log t.log ∧
      Closes program aliases s closing u ∧
      (Told closing u →
        f.step = (closing.step <|> Log.latest first.log.next (earlier ++ here))) ∧
      (s.Candid →
        closing.step = none ∧ (¬ Told closing u → f.step = none) ∧
        (f.cause.FromLog →
          ∀ i, (earlier ++ here).getLast? = some i → f.span = some i.span) ∧
        (f.step = Log.latest s.log.next here ↔
          Told closing u ∧ (here ≠ [] ∨ earlier = []) ∨ ¬ Told closing u ∧ here = [])) := by
  obtain ⟨closing, u, closes, escapes⟩ := escapes_of_executes h
  obtain ⟨earlier, before⟩ := hf.grown
  obtain ⟨here, during⟩ := closes.grown
  rw [← escapes.log] at during
  obtain ⟨step, span⟩ := latest_of_adds fresh (before.trans during)
  refine ⟨earlier, here, closing, u, before, during, closes, fun told => ?_, fun hs => ?_⟩
  · rw [escapes.step told, step]
  · obtain ⟨candid, faithful⟩ := closes.surrounded treats_candid hs
    have unstepped := step_of_faithful faithful
    have untold := escapes.step_untold candid
    refine ⟨unstepped, untold, fun placed i hi => escapes.span candid faithful placed (span i hi),
      ?_⟩
    by_cases told : Told closing u
    · have total : f.step = Log.latest first.log.next (earlier ++ here) := by
        rw [escapes.step told, unstepped, step]
        rfl
      rw [total, before.next, Log.latest_append_iff]
      simp [told]
    · rw [untold told, eq_comm, Log.latest_eq_none]
      simp [told]

/-- A session whose runs are closed by a handler that fails. -/
def sulking : Session Unit :=
  { cornered with hooks := {
      handlers := [{
        event := .programEnd
        handler := fun _ => throw (.foreign (.host "ValueError" "boom")) }] } }

/-- A program of one step. -/
def increment : Program where
  instructions := [.leaf (.counted .add 1) ⟨0, 1⟩]

/-- A program without steps that knows more aliases than there are cells. -/
def crowded : Program where
  instructions := []
  aliasNames := ["a", "b", "c", "d"]

theorem candid_sulking : sulking.Candid where
  device := by
    refine ⟨fun k e h => ?_, fun k e h => by cases h⟩
    have exhausted : sulking.store.device.readings k = .fails (.of .inputExhausted) := by
      simp [sulking, cornered, Device.ofReadings]
    cases exhausted.symm.trans h
    exact ⟨rfl, id⟩
  handlers r hr notice := by
    cases List.mem_singleton.mp hr
    exact .throw fun _ h => ⟨h, trivial⟩
  rules r hr := absurd hr List.not_mem_nil
  cancel answers h := by cases h

theorem executes_of_faults {check : Fault → Session σ → Bool} {n : Nat}
    (h : faults check (executeFor n program aliases s) = true) :
    ∃ f t, Executes program aliases s (.error (.fault f) t) ∧ check f t = true := by
  obtain ⟨f, t, hr, passes⟩ := eq_error_of_faults h
  exact ⟨f, t, ⟨n, hr⟩, passes⟩

theorem fault_attribution_sulking :
    sulking.log.last = none ∧ Follows sulking sulking ∧ sulking.Candid ∧
      ∃ f t earlier here closing u, Executes increment none sulking (.error (.fault f) t) ∧
        Log.Adds earlier sulking.log sulking.log ∧ Log.Adds here sulking.log t.log ∧
        Closes increment none sulking closing u ∧ closing.step = none ∧
        (f.step = Log.latest sulking.log.next here ↔
          Told closing u ∧ (here ≠ [] ∨ earlier = []) ∨ ¬ Told closing u ∧ here = []) := by
  have follows : Follows sulking sulking := .start rfl
  have shown : faults (fun _ _ => true) (executeFor 2 increment none sulking) = true := by
    decide +kernel
  obtain ⟨f, t, executes, -⟩ := executes_of_faults shown
  obtain ⟨earlier, here, closing, u, before, during, closes, -, attributed⟩ :=
    fault_attribution rfl follows executes
  obtain ⟨step, -, -, exactly⟩ := attributed candid_sulking
  exact ⟨rfl, follows, candid_sulking, f, t, earlier, here, closing, u, executes, before, during,
    closes, step, exactly⟩

/-- A fault that a handler of the closing event raises has no step, although its run has recorded
one; and a fault of a run that has recorded none can have the step of an earlier run. -/
theorem attribution_fails :
    (∃ f t, Executes increment none sulking (.error (.fault f) t) ∧
      t.log.next = sulking.log.next + 1 ∧ f.step = none) ∧
    ∃ s f t, Follows cornered s ∧ Executes crowded none s (.error (.fault f) t) ∧
      t.log.next = s.log.next ∧ f.step = some 0 := by
  constructor
  · have shown : faults (fun f t => decide (t.log.next = sulking.log.next + 1 ∧ f.step = none))
        (executeFor 2 increment none sulking) = true := by decide +kernel
    obtain ⟨f, t, executes, check⟩ := executes_of_faults shown
    exact ⟨f, t, executes, of_decide_eq_true check⟩
  · have shown : (finished? (executeFor 2 increment none cornered)).any (fun s =>
        faults (fun f t => decide (t.log.next = s.log.next ∧ f.step = some 0))
          (executeFor 0 crowded none s)) = true := by decide +kernel
    obtain ⟨s, first, second⟩ := (Option.any_eq_true _ _).mp shown
    obtain ⟨f, t, executes, check⟩ := executes_of_faults second
    have follows : Follows cornered s :=
      .next (.start rfl) ⟨2, eq_ending_of_finished? first⟩ rfl
    exact ⟨s, f, t, follows, executes, of_decide_eq_true check⟩

end Session

end NamedTape
