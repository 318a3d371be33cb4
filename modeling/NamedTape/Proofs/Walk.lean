import NamedTape.Proofs.Settings

/-!
# Moves of an undisturbed walk

A session without hooks and without a cancel callback is left alone: each of its moves is
determined by the innermost frame and the store. One lemma per kind of move says what the move does
to the session as a whole.
-/

namespace NamedTape

namespace Session

open Store (observe Performs Outcome)

variable {σ : Type}

/-- Nothing but the program acts in the session: it has no hooks, and nobody calls its runs off. -/
structure Quiet (s : Session σ) : Prop where
  hooks : s.hooks = {}
  cancel : s.cancel = none

/-! ## Changes to one part of a session -/

/-- The session with another store. -/
def withStore (store : Store σ) (s : Session σ) : Session σ := { s with store }

/-- The session with one more step on record. -/
def noted (frame : Nat) (i : Instruction) (view : Option String) (s : Session σ) : Session σ :=
  { s with log := (s.log.record (some frame) i.rule (some i.span) view).2 }

section parts

variable (s : Session σ) (store : Store σ) (frame : Nat) (i : Instruction) (view : Option String)
  (loop : Option Span) (body : List Instruction)

@[simp] theorem withStore_store : (s.withStore store).store = store := rfl
@[simp] theorem withStore_log : (s.withStore store).log = s.log := rfl
@[simp] theorem withStore_stack : (s.withStore store).stack = s.stack := rfl
@[simp] theorem withStore_options : (s.withStore store).options = s.options := rfl
@[simp] theorem noted_store : (s.noted frame i view).store = s.store := rfl
@[simp] theorem noted_stack : (s.noted frame i view).stack = s.stack := rfl
@[simp] theorem noted_options : (s.noted frame i view).options = s.options := rfl
@[simp] theorem push_store : (s.push loop body).store = s.store := rfl
@[simp] theorem push_log : (s.push loop body).log = s.log := rfl
@[simp] theorem push_options : (s.push loop body).options = s.options := rfl

@[simp] theorem setRest_store (rest : List Instruction) : (s.setRest rest).store = s.store := by
  unfold setRest
  split <;> rfl

@[simp] theorem setRest_log (rest : List Instruction) : (s.setRest rest).log = s.log := by
  unfold setRest
  split <;> rfl

@[simp] theorem setRest_options (rest : List Instruction) :
    (s.setRest rest).options = s.options := by
  unfold setRest
  split <;> rfl

@[simp] theorem pop_store : s.pop.store = s.store := by
  unfold pop
  split <;> rfl

@[simp] theorem pop_options : s.pop.options = s.options := by
  unfold pop
  split <;> rfl

end parts

section innermost

variable {s : Session σ} {frame : Frame} {below : List Frame} (hs : s.stack = frame :: below)
include hs

theorem setRest_eq (rest : List Instruction) :
    s.setRest rest = { s with stack := { frame with rest } :: below } := by
  simp only [setRest, hs]

theorem pop_eq : s.pop = { s with stack := below, log := s.log.forget frame.id } := by
  simp only [pop, hs]

theorem setRest_stack (rest : List Instruction) :
    (s.setRest rest).stack = { frame with rest } :: below := by
  rw [setRest_eq hs]

theorem pop_stack : s.pop.stack = below := by
  rw [pop_eq hs]

theorem pop_log : s.pop.log = s.log.forget frame.id := by
  rw [pop_eq hs]

end innermost

section quiet

variable {s : Session σ} (h : s.Quiet)
include h

theorem quiet_withStore (store : Store σ) : (s.withStore store).Quiet := ⟨h.hooks, h.cancel⟩

theorem quiet_noted (frame : Nat) (i : Instruction) (view : Option String) :
    (s.noted frame i view).Quiet :=
  ⟨h.hooks, h.cancel⟩

theorem quiet_push (loop : Option Span) (body : List Instruction) : (s.push loop body).Quiet :=
  ⟨h.hooks, h.cancel⟩

theorem quiet_setRest (rest : List Instruction) : (s.setRest rest).Quiet := by
  unfold setRest
  split
  · exact h
  · exact ⟨h.hooks, h.cancel⟩

theorem quiet_pop : s.pop.Quiet := by
  unfold pop
  split
  · exact h
  · exact ⟨h.hooks, h.cancel⟩

end quiet

/-! ## What is around an instruction -/

theorem announce_eq {s : Session σ} (h : s.hooks = {}) (notice : Notice) :
    announce notice s = .ok () s := by
  simp only [announce, Action.get_bind, h]
  rfl

theorem applyRules_eq {s : Session σ} (h : s.hooks = {}) (tick : Tick) :
    applyRules tick s = .ok () s := by
  simp only [applyRules, Action.get_bind, h]
  rfl

theorem Quiet.checkCancelled {s : Session σ} (h : s.Quiet) (span : Span) :
    checkCancelled span s = .ok () s := by
  simp only [Session.checkCancelled, h.cancel]

theorem Quiet.takeStep_of_ok {s : Session σ} (h : s.Quiet) (frame : Nat) (i : Instruction)
    {view : Option String} (seen : observe s.log.verbose s.store = .ok view s.store) :
    takeStep frame i s = .ok () (s.noted frame i view) := by
  rw [takeStep_eq, Action.bind_of_ok (onStore_of_ok seen)]
  exact applyRules_eq (quiet_noted h frame i view).hooks _

theorem takeStep_of_error {s : Session σ} (frame : Nat) (i : Instruction) {e : Raised}
    (seen : observe s.log.verbose s.store = .error e s.store) :
    takeStep frame i s = .error e s := by
  rw [takeStep_eq, Action.bind_of_error (onStore_of_error seen)]

/-! ## Taking an instruction -/

/-- A quiet session takes an instruction: the step is recorded, and then it is carried out. -/
theorem Quiet.take_of_ok {s : Session σ} (h : s.Quiet) (frame : Nat) (i : Instruction)
    {view : Option String} (seen : observe s.log.verbose s.store = .ok view s.store) :
    take frame i s = (match i with
      | .leaf operation span => carryOut span (onStore
          (Store.perform s.options.preallocate operation)) >>= proceed i
      | .loop body span => do
        if (← cell) ≠ 0 then modify (push (some span) body)
        proceed i .done : Action (Session σ) Mode) (s.noted frame i view) := by
  have hq := quiet_noted h frame i view
  unfold take
  rw [Action.bind_of_ok (h.checkCancelled _), Action.bind_of_ok (h.takeStep_of_ok frame i seen),
    Action.bind_of_ok (announce_eq hq.hooks _)]
  cases i with
  | leaf operation span => rfl
  | loop body span => rfl

theorem Quiet.take_of_error {s : Session σ} (h : s.Quiet) (frame : Nat) (i : Instruction)
    {e : Raised} (seen : observe s.log.verbose s.store = .error e s.store) :
    take frame i s = .error e s := by
  unfold take
  rw [Action.bind_of_ok (h.checkCancelled _), Action.bind_of_error (takeStep_of_error frame i seen)]

theorem cell_of_ok {s : Session σ} {n : Nat} (h : Store.cell s.store = .ok n s.store) :
    cell s = .ok n s :=
  onStore_of_ok h

theorem cell_of_error {s : Session σ} {e : Raised}
    (h : Store.cell s.store = .error e s.store) : cell s = .error e s :=
  onStore_of_error h

theorem Quiet.proceed_done {s : Session σ} (h : s.Quiet) (i : Instruction) :
    proceed i .done s = .ok .walking s :=
  Action.bind_of_ok (announce_eq h.hooks _) _

theorem carryOut_of_ok {act : Action (Session σ) Store.Progress} {s t : Session σ}
    {progress : Store.Progress} (span : Span) (h : act s = .ok progress t) :
    carryOut span act s = .ok progress t :=
  Action.restating_of_ok h _

theorem carryOut_of_error {act : Action (Session σ) Store.Progress} {s t : Session σ} {e : Raised}
    (span : Span) (h : act s = .error e t) : carryOut span act s = .error (e.within span) t :=
  Action.restating_of_error h _

/-- What carrying out an operation comes to in a quiet session: the walk goes on, or waits for a
byte, or stops with a failure at the span. -/
theorem Quiet.carryOut_proceed {s : Session σ} (h : s.Quiet) (operation : Operation)
    (span : Span) :
    (carryOut span (onStore (Store.perform s.options.preallocate operation)) >>=
      proceed (.leaf operation span)) s =
      match Store.perform s.options.preallocate operation s.store with
      | .ok .done store => .ok .walking (s.withStore store)
      | .ok .waiting store => .ok (.waiting span) (s.withStore store)
      | .error e store => .error (e.within span) (s.withStore store) := by
  cases hp : Store.perform s.options.preallocate operation s.store with
  | ok progress store =>
    rw [Action.bind_of_ok (carryOut_of_ok span (onStore_of_ok hp))]
    cases progress with
    | done => exact (quiet_withStore h store).proceed_done _
    | waiting => rfl
  | error e store =>
    exact Action.bind_of_error (carryOut_of_error span (onStore_of_error hp)) _

/-! ## The moves -/

theorem move_cons {s : Session σ} {frame : Frame} {below : List Frame} {i : Instruction}
    {rest : List Instruction} (hs : s.stack = frame :: below) (hr : frame.rest = i :: rest) :
    move .walking s = take frame.id i (s.setRest rest) := by
  simp only [move, Action.get_bind, hs, hr]
  rfl

theorem move_nil {s : Session σ} {frame : Frame} {below : List Frame}
    (hs : s.stack = frame :: below) (hr : frame.rest = []) :
    move .walking s = match frame.loop with
      | some span => comeRound span frame.body s
      | none => .ok .finished s := by
  simp only [move, Action.get_bind, hs, hr]
  cases frame.loop <;> rfl

theorem move_empty {s : Session σ} (hs : s.stack = []) :
    move .walking s = .ok .finished s := by
  simp only [move, Action.get_bind, hs]
  rfl

section taking

variable {s : Session σ} (h : s.Quiet) {frame : Frame} {below : List Frame} {i : Instruction}
  {rest : List Instruction} {view : Option String} (hs : s.stack = frame :: below)
include h hs

theorem Quiet.move_unseen (hr : frame.rest = i :: rest) {e : Raised}
    (seen : observe s.log.verbose s.store = .error e s.store) :
    move .walking s = .error e (s.setRest rest) := by
  rw [move_cons hs hr]
  exact (quiet_setRest h rest).take_of_error frame.id i (by simpa using seen)

theorem Quiet.move_leaf {operation : Operation} {span : Span}
    (hr : frame.rest = .leaf operation span :: rest)
    (seen : observe s.log.verbose s.store = .ok view s.store) :
    move .walking s =
      let t := (s.setRest rest).noted frame.id (.leaf operation span) view
      match Store.perform s.options.preallocate operation s.store with
      | .ok .done store => .ok .walking (t.withStore store)
      | .ok .waiting store => .ok (.waiting span) (t.withStore store)
      | .error e store => .error (e.within span) (t.withStore store) := by
  rw [move_cons hs hr, (quiet_setRest h rest).take_of_ok frame.id _ (by simpa using seen)]
  have quiet := quiet_noted (quiet_setRest h rest) frame.id (.leaf operation span) view
  simpa using quiet.carryOut_proceed operation span

theorem Quiet.move_loop {body : List Instruction} {span : Span}
    (hr : frame.rest = .loop body span :: rest)
    (seen : observe s.log.verbose s.store = .ok view s.store) :
    move .walking s =
      let t := (s.setRest rest).noted frame.id (.loop body span) view
      match Store.cell s.store with
      | .ok 0 _ => .ok .walking t
      | .ok (_ + 1) _ => .ok .walking (t.push (some span) body)
      | .error e _ => .error e t := by
  have hq := quiet_noted (quiet_setRest h rest) frame.id (.loop body span) view
  rw [move_cons hs hr, (quiet_setRest h rest).take_of_ok frame.id _ (by simpa using seen)]
  cases hc : Store.cell s.store with
  | error e t =>
    cases Store.cell_error hc
    exact Action.bind_of_error (cell_of_error (by simpa using hc)) _
  | ok n t =>
    cases Store.cell_ok hc
    refine (Action.bind_of_ok (cell_of_ok (by simpa using hc)) _).trans ?_
    cases n with
    | zero => exact hq.proceed_done _
    | succ n => exact (quiet_push hq (some span) body).proceed_done _

end taking

section returning

variable {s : Session σ} (h : s.Quiet)
include h

theorem Quiet.move_round {frame : Frame} {below : List Frame} {span : Span}
    (hs : s.stack = frame :: below) (hr : frame.rest = []) (hl : frame.loop = some span) :
    move .walking s =
      match Store.cell s.store with
      | .ok 0 _ => .ok .walking s.pop
      | .ok (_ + 1) _ => .ok .walking (s.setRest frame.body)
      | .error e _ => .error e s := by
  rw [move_nil hs hr, hl]
  cases hc : Store.cell s.store with
  | error e t =>
    cases Store.cell_error hc
    exact Action.bind_of_error (cell_of_error hc) _
  | ok n t =>
    cases Store.cell_ok hc
    refine (Action.bind_of_ok (cell_of_ok hc) _).trans ?_
    cases n with
    | zero => rfl
    | succ n => exact Action.bind_of_ok (h.checkCancelled span) _

/-- The waiting walk asks again, which is what the input operation does. -/
theorem Quiet.move_waiting (preallocated : Bool) (span : Span) :
    move (.waiting span) s =
      match Store.perform preallocated .input s.store with
      | .ok .done store => .ok .walking (s.withStore store)
      | .ok .waiting store => .ok (.waiting span) (s.withStore store)
      | .error e store => .error (e.within span) (s.withStore store) := by
  have ask : (do Session.checkCancelled span; onStore Store.receive :
      Action (Session σ) Store.Progress) s = onStore Store.receive s :=
    Action.bind_of_ok (h.checkCancelled span) _
  have receive : Store.perform preallocated .input s.store = Store.receive s.store := rfl
  rw [receive]
  show askAgain span s = _
  unfold askAgain
  cases hp : Store.receive s.store with
  | ok progress store =>
    rw [Action.bind_of_ok (carryOut_of_ok span (ask.trans (onStore_of_ok hp)))]
    cases progress with
    | done => exact (quiet_withStore h store).proceed_done _
    | waiting => rfl
  | error e store =>
    exact Action.bind_of_error (carryOut_of_error span (ask.trans (onStore_of_error hp))) _

end returning

end Session

end NamedTape
