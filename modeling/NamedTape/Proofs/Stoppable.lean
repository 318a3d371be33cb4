import NamedTape.Proofs.Checkpoints
import NamedTape.Proofs.Executions

/-!
# Runs can be called off

A run whose cancel callback answers yes at some point comes to an end (`stoppable`), whatever the
program, the hooks and the device do. A move that asks puts at most one frame on the stack, and a
move that does not ask takes one off or is the last, so that the frames on the stack and twice the
questions that are still to be asked bound the moves that are still to be made.
-/

namespace NamedTape

namespace Session

open NamedTape.Action (Keeps Meets)

variable {σ α : Type}

/-! ## The height of the stack -/

/-- The stack has at most so many frames. -/
def Low (height : Nat) (s : Session σ) : Prop := s.stack.length ≤ height

section low

variable {height : Nat}

theorem indifferent_low (height : Nat) : Indifferent (Low (σ := σ) height) where
  store _ hs := hs
  checks _ hs := hs
  record _ _ _ _ hs := hs

/-- An action that leaves the stack alone, and may fail anyhow. -/
theorem stays_of_keeps {act : Action (Session σ) α} (h : Keeps (Low height) act) :
    Meets (Low height) act (fun _ => Low height) fun _ _ => True :=
  h.mono_error fun _ _ _ => trivial

theorem stays_proceed (i : Instruction) (progress : Store.Progress) :
    Meets (Low (σ := σ) height) (proceed i progress) (fun _ => Low height) fun _ _ => True := by
  cases progress with
  | done =>
    exact (stays_of_keeps ((indifferent_low height).announce _)).bind fun _ => .pure fun _ hs => hs
  | waiting => exact .pure fun _ hs => hs

theorem stays_onStore (act : Action (Store σ) α) :
    Meets (Low height) (onStore act) (fun _ => Low height) fun _ _ => True :=
  stays_of_keeps ((indifferent_low height).onStore act)

theorem low_setRest {s : Session σ} (h : Low height s) (rest : List Instruction) :
    Low height (s.setRest rest) := by
  cases hs : s.stack with
  | nil => simpa only [Low, setRest, hs] using h
  | cons frame below => simpa only [Low, setRest_stack hs, hs, List.length_cons] using h

theorem pop_stack_tail (s : Session σ) : s.pop.stack = s.stack.tail := by
  cases hs : s.stack with
  | nil => simp only [pop, hs, List.tail_nil]
  | cons frame below => simp only [pop_stack hs, List.tail_cons]

theorem low_pop {s : Session σ} (h : Low height s) : Low height s.pop := by
  unfold Low at h ⊢
  rw [pop_stack_tail, List.length_tail]
  omega

/-- A contract that allows for one more frame. -/
theorem rises_of_stays {act : Action (Session σ) α}
    (h : Meets (Low height) act (fun _ => Low height) fun _ _ => True) :
    Meets (Low height) act (fun _ => Low (height + 1)) fun _ _ => True :=
  h.mono (fun _ hs => hs) (fun _ _ hs => Nat.le_succ_of_le hs) fun _ _ h => h

theorem rises_take (frame : Nat) (i : Instruction) :
    Meets (Low (σ := σ) height) (take frame i) (fun _ => Low (height + 1)) fun _ _ => True := by
  have low := indifferent_low (σ := σ) height
  refine (stays_of_keeps (low.checkCancelled _)).bind fun _ =>
    (stays_of_keeps (low.takeStep frame i)).bind fun _ =>
    (stays_of_keeps (low.announce _)).bind fun _ => ?_
  cases i with
  | leaf operation span =>
    refine .get fun s hs => ?_
    have carried : Meets (Low (σ := σ) height)
        (carryOut span (onStore (Store.perform s.options.preallocate operation)))
        (fun _ => Low height) fun _ _ => True := .restating (stays_onStore (σ := σ) _)
    have done := carried.bind fun progress => stays_proceed (.leaf operation span) progress
    exact (rises_of_stays done).mono (fun _ ht => ht ▸ hs) (fun _ _ ht => ht) fun _ _ h => h
  | loop body span =>
    refine (stays_onStore _).bind fun n => ?_
    cases n with
    | zero => exact rises_of_stays (stays_proceed (.loop body span) .done)
    | succ n =>
      have entered : Meets (Low (σ := σ) height) (modify (push (some span) body))
          (fun _ => Low (height + 1)) fun _ _ => True :=
        .modify fun s hs => Nat.succ_le_succ hs
      exact entered.bind fun _ => stays_proceed (.loop body span) .done

theorem stays_comeRound (span : Span) (body : List Instruction) :
    Meets (Low (σ := σ) height) (comeRound span body) (fun _ => Low height) fun _ _ => True := by
  refine (stays_onStore _).bind fun n => ?_
  cases n with
  | zero =>
    have left : Meets (Low (σ := σ) height) (modify pop) (fun _ => Low height) fun _ _ => True :=
      .modify fun s hs => low_pop hs
    exact left.bind fun _ => .pure fun _ hs => hs
  | succ n =>
    have again : Meets (Low (σ := σ) height) (modify (setRest body)) (fun _ => Low height)
        fun _ _ => True := .modify fun s hs => low_setRest hs body
    exact (stays_of_keeps ((indifferent_low height).checkCancelled span)).bind
      fun _ => again.bind fun _ => .pure fun _ hs => hs

theorem stays_askAgain (span : Span) :
    Meets (Low (σ := σ) height) (askAgain span) (fun _ => Low height) fun _ _ => True := by
  have asked := (stays_of_keeps ((indifferent_low (σ := σ) height).checkCancelled span)).bind
    fun _ => stays_onStore Store.receive
  exact (Meets.restating asked).bind fun progress => stays_proceed _ progress

/-- **A move puts at most one frame on the stack.** -/
theorem rises_move (mode : Mode) :
    Meets (Low (σ := σ) height) (move mode) (fun _ => Low (height + 1)) fun _ _ => True := by
  cases mode with
  | finished => exact .pure fun _ hs => Nat.le_succ_of_le hs
  | waiting span => exact rises_of_stays (stays_askAgain span)
  | walking =>
    refine .get fun s hs => Meets.mono (P := Low height) ?_ (fun _ ht => ht ▸ hs)
      (fun _ _ ht => ht) fun _ _ h => h
    cases s.stack with
    | nil => exact .pure fun _ ht => Nat.le_succ_of_le ht
    | cons frame below =>
      dsimp only
      split
      · next i rest _ =>
        exact (Meets.modify fun t ht => low_setRest ht rest).bind fun _ => rises_take frame.id i
      · exact rises_of_stays (stays_comeRound _ _)
      · exact .pure fun _ ht => Nat.le_succ_of_le ht

end low

/-! ## The moves that are left -/

section bounded

variable {answers : Nat → Except Raised Bool} {s t : Session σ} {mode mode' : Mode} {span : Span}

/-- A move that asks is stopped by the answer, or has asked once and put at most one frame on the
stack. -/
theorem asked_cases (hc : s.cancel = some answers) (ha : asksAt? mode s = some span) :
    (∃ e t, move mode s = .error e t) ∨
    (answers s.checks = .ok false ∧ ∃ mode' t, move mode s = .ok mode' t ∧
      t.cancel = some answers ∧ t.checks = s.checks + 1 ∧
      t.stack.length ≤ s.stack.length + 1) := by
  obtain ⟨answer, spared⟩ | ⟨u, e, -, -, refused⟩ := move_asked hc ha
  · cases hm : move mode (s.heeding none s.checks) with
    | error e t =>
      rw [hm] at spared
      exact .inl ⟨e, _, spared⟩
    | ok mode' t =>
      rw [hm] at spared
      exact .inr ⟨answer, mode', _, spared, rfl, rfl, (rises_move mode).ok (Nat.le_refl _) spared⟩
  · exact .inl ⟨e, _, refused⟩

/-- A walk that will be called off makes no more moves than there are frames on its stack, and twice
as many as questions are still to be asked. -/
theorem ends_within {last n : Nat} (hc : s.cancel = some answers) (hl : answers last = .ok true)
    (hle : s.checks ≤ last) (hn : s.stack.length + 2 * (last - s.checks) < n) :
    ∃ r, walkFor n mode s = ending r := by
  induction n generalizing mode s with
  | zero => exact absurd hn (Nat.not_lt_zero _)
  | succ n ih =>
    rw [walkFor_succ]
    cases ha : asksAt? mode s with
    | some span =>
      obtain ⟨e, t, hm⟩ | ⟨answer, mode', t, hm, cancel, checks, height⟩ := asked_cases hc ha
      · exact ⟨.error e t, Action.bind_of_error hm _⟩
      · rw [Action.bind_of_ok hm]
        have before : s.checks ≠ last := by
          rintro rfl
          cases hl.symm.trans answer
        exact ih cancel (by omega) (by omega)
    | none =>
      obtain hm | ⟨e, hm⟩ | ⟨frame, below, stack, -, hm⟩ := (move_unasked ha).cases
      · rw [Action.bind_of_ok hm]
        exact ⟨.ok () s, walkFor_finished n s⟩
      · exact ⟨.error e s, Action.bind_of_error hm _⟩
      · rw [Action.bind_of_ok hm]
        have cancel := (pop_same s (.refl s)).cancel.trans hc
        have checks : s.pop.checks = s.checks := by simp only [pop, stack]
        have height : s.stack.length = s.pop.stack.length + 1 := by
          rw [pop_stack stack, stack, List.length_cons]
        exact ih cancel (checks ▸ hle) (by omega)

/-- How many frames on a stack belong to loops. -/
def openLoops (stack : List Frame) : Nat := stack.countP (·.loop.isSome)

theorem openLoops_cons {frame : Frame} (loop : frame.loop.isSome) (below : List Frame) :
    openLoops (frame :: below) = openLoops below + 1 :=
  List.countP_cons_of_pos (p := fun frame : Frame => frame.loop.isSome) loop

/-- Moves that ask nothing take the frames of loops off the stack, one each. -/
theorem walkFor_between {n : Nat} (hc : s.cancel = some answers)
    (hw : walkFor n mode s = .ok mode' t) (hm : mode' ≠ .finished) :
    s.checks ≤ t.checks ∧
      (t.checks = s.checks → n ≤ openLoops s.stack ∧ t.stack = s.stack.drop n) := by
  induction n generalizing mode s with
  | zero => cases mode <;> cases hw <;> exact ⟨Nat.le_refl _, fun _ => ⟨Nat.zero_le _, rfl⟩⟩
  | succ n ih =>
    rw [walkFor_succ] at hw
    obtain ⟨mode'', u, hu, hw⟩ := Action.eq_ok_of_bind hw
    cases ha : asksAt? mode s with
    | some span =>
      obtain ⟨e, v, hv⟩ | ⟨-, _, v, hv, cancel, checks, -⟩ := asked_cases hc ha
      · cases hu.symm.trans hv
      · cases hu.symm.trans hv
        obtain ⟨more, -⟩ := ih cancel hw
        exact ⟨by omega, fun same => by omega⟩
    | none =>
      obtain hv | ⟨e, hv⟩ | ⟨frame, below, stack, loop, hv⟩ := (move_unasked ha).cases
      · cases hu.symm.trans hv
        cases (walkFor_finished n s).symm.trans hw
        exact absurd rfl hm
      · cases hu.symm.trans hv
      · cases hu.symm.trans hv
        have cancel := (pop_same s (.refl s)).cancel.trans hc
        have checks : s.pop.checks = s.checks := by simp only [pop, stack]
        obtain ⟨more, popped⟩ := ih cancel hw
        refine ⟨checks ▸ more, fun same => ?_⟩
        obtain ⟨few, left⟩ := popped (same.trans checks.symm)
        rw [pop_stack stack] at few left
        rw [stack, openLoops_cons loop]
        exact ⟨Nat.succ_le_succ few, left⟩

end bounded

/-! ## Executions -/

/-- However a run is closed that has ended, it has ended. -/
theorem conclude_ends (r : EStateM.Result Raised (Session σ) Unit) :
    ∃ r', conclude (ending r) = ending r' := by
  cases r with
  | ok a t =>
    cases ha : announce .ended t with
    | ok _ u => exact ⟨.ok () u.pop, Action.bind_of_ok ha _⟩
    | error e u => exact ⟨.error e u, Action.bind_of_error ha _⟩
  | error e t =>
    by_cases he : e = .interrupt
    · subst he
      exact ⟨.error .interrupt t, rfl⟩
    · rw [ending, conclude_failed he]
      cases ha : announce (.failed e) t with
      | ok _ u => exact ⟨.error (report u e) u, Action.bind_of_ok ha _⟩
      | error e' u => exact ⟨.error e' u, Action.bind_of_error ha _⟩

/-- **Runs can be called off.** If the callback answers yes to question `k`, counted from zero, the
run ends within twice that many moves and two; and moves between which nothing is asked are no more
than the loops that are open, whose frames they take off the stack. -/
theorem stoppable {s : Session σ} {answers : Nat → Except Raised Bool} {k : Nat}
    (hc : s.cancel = some answers) (hk : answers (s.checks + k) = .ok true) (program : Program)
    (aliases : Option AliasTable) :
    (∃ r, executeFor (2 * (k + 1)) program aliases s = ending r) ∧
    ∀ n mode (u : Session σ) mode' t, u.cancel = some answers → walkFor n mode u = .ok mode' t →
      mode' ≠ .finished → t.checks = u.checks →
      n ≤ openLoops u.stack ∧ t.stack = u.stack.drop n := by
  refine ⟨?_, fun n mode u mode' t hu hw hm same => (walkFor_between hu hw hm).2 same⟩
  unfold executeFor
  cases hp : prepare program (s.begin program aliases) with
  | error e t =>
    rw [Action.bind_of_error hp]
    exact conclude_ends (.error e t)
  | ok a t =>
    rw [Action.bind_of_ok hp]
    obtain ⟨cancel, checks⟩ := (prepare_deaf program).settings hp
    have low : Low 1 t := ((indifferent_low 1).aloof.prepare program).ok (Nat.le_refl _) hp
    have height : t.stack.length + 2 * (s.checks + k - t.checks) < 2 * (k + 1) := by
      have := show t.checks = s.checks from checks
      unfold Low at low
      omega
    have before : t.checks ≤ s.checks + k := by
      rw [checks]
      exact Nat.le_add_right _ _
    obtain ⟨r, hr⟩ : ∃ r, walkFor (2 * (k + 1)) .walking t = ending r :=
      ends_within (cancel.trans hc) hk before height
    rw [hr]
    exact conclude_ends r

/-- A session whose device never has a byte, and whose callback answers yes to the sixth
question. -/
def patient : Session Unit where
  store :=
    { tape := .confined 1 .wrap .refuse
      aliases := {}
      device := { sink := .stream, readings := fun _ => .notYet }
      host := () }
  cancel := some (yesAt 5)

theorem stoppable_patient :
    patient.cancel = some (yesAt 5) ∧
      (∃ r, executeFor 12 { instructions := [.leaf .input ⟨0, 1⟩] } none patient = ending r) ∧
      ∀ n mode (u : Session Unit) mode' t, u.cancel = some (yesAt 5) →
        walkFor n mode u = .ok mode' t → mode' ≠ .finished → t.checks = u.checks →
        n ≤ openLoops u.stack ∧ t.stack = u.stack.drop n :=
  ⟨rfl, stoppable (k := 5) (s := patient) rfl (yesAt_self 5)
    { instructions := [.leaf .input ⟨0, 1⟩] } none⟩

end Session

end NamedTape
