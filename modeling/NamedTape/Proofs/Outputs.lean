import NamedTape.Proofs.Arrival
import NamedTape.Proofs.Atomicity
import NamedTape.Proofs.Strides

/-!
# What walks write

As far as the store and the log go, a quiet move works on the operation of one leaf, or asks for the
byte that is waited for, or does nothing to the store (`Moved`). The output after some moves is
therefore what the output instructions among them have written (`Quiet.output_walkFor`), and nothing
of it is taken back.
-/

namespace NamedTape

namespace Session

open Store (observe)

variable {σ : Type}

/-! ## What a move does -/

/-- What a quiet move does, as far as the store and the log go. -/
inductive Moved (s : Session σ) : Mode → EStateM.Result Raised (Session σ) Mode → Prop
  | ended : Moved s .finished (.ok .finished s)
  | spent (upcoming : s.upcoming? = none) : Moved s .walking (.ok .finished s)
  /-- The tape cannot be shown. -/
  | unseen {e : Raised} {t : Session σ} (seen : observe s.log.verbose s.store = .error e s.store)
    (store : t.store = s.store) : Moved s .walking (.error e t)
  | leaf {operation : Operation} {span : Span} {t : Session σ}
    (upcoming : s.upcoming? = some (.leaf operation span)) (options : t.options = s.options)
    (log : Log.Adds [.leaf operation span] s.log t.log) :
    Moved s .walking (worked span t (Store.perform s.options.preallocate operation s.store))
  /-- A loop is entered, passed over, repeated or left. -/
  | turns {t : Session σ} (upcoming : ∀ operation span, s.upcoming? ≠ some (.leaf operation span))
    (store : t.store = s.store) : Moved s .walking (.ok .walking t)
  /-- The pointer addresses no cell. -/
  | strays {e : Raised} {t : Session σ} (cell : Store.cell s.store = .error e s.store)
    (store : t.store = s.store) : Moved s .walking (.error e t)
  | asks (span : Span) : Moved s (.waiting span)
    (worked span s (Store.perform s.options.preallocate .input s.store))

theorem Strides.moved {s : Session σ} {mode : Mode} {r : EStateM.Result Raised (Session σ) Mode}
    (h : Strides s mode r) : Moved s mode r := by
  cases h with
  | ended => exact .ended
  | spent upcoming => exact .spent upcoming
  | unseen _ _ seen => exact .unseen seen (s.setRest_store _)
  | works stack upcoming =>
    exact .leaf (upcoming?_eq stack upcoming) (s.setRest_options _) (adds_took s _ _ _ _)
  | passes stack upcoming =>
    exact .turns (by simp [upcoming?_eq stack upcoming]) (s.setRest_store _)
  | enters stack upcoming =>
    exact .turns (by simp [upcoming?_eq stack upcoming]) (s.setRest_store _)
  | strays _ _ cell => exact .strays cell (s.setRest_store _)
  | repeats stack spent _ =>
    exact .turns (by simp [upcoming?_eq_none stack spent]) (s.setRest_store _)
  | leaves stack spent _ =>
    exact .turns (by simp [upcoming?_eq_none stack spent]) s.pop_store
  | straysBack _ _ cell => exact .strays cell rfl
  | asks span => exact .asks span

theorem Quiet.moved {s : Session σ} (h : s.Quiet) (mode : Mode) : Moved s mode (move mode s) :=
  (h.strides mode).moved

/-! ## What a walk writes -/

/-- What the next move writes if it succeeds. -/
def writes (mode : Mode) (s : Session σ) : List UInt8 :=
  match mode, s.upcoming? with
  | .walking, some (.leaf operation _) => s.store.sends operation
  | _, _ => []

/-- What the output instructions write that so many moves of a walk complete. -/
def written : Nat → Mode → Session σ → List UInt8
  | 0, _, _ => []
  | n + 1, mode, s =>
    match move mode s with
    | .ok mode' t => writes mode s ++ written n mode' t
    | .error _ _ => []

/-- The result of a move that writes the bytes, unless it fails. -/
def Puts (s : Session σ) (bytes : List UInt8) : EStateM.Result Raised (Session σ) Mode → Prop
  | .ok _ t => t.store.device.output.toList = s.store.device.output.toList ++ bytes
  | .error _ t => t.store.device.output = s.store.device.output

theorem puts_same {s t : Session σ} (h : t.store = s.store) (mode : Mode) :
    Puts s [] (.ok mode t) := by
  show t.store.device.output.toList = _
  rw [h, List.append_nil]

theorem writes_of_no_leaf {s : Session σ} (h : ∀ operation span,
    s.upcoming? ≠ some (.leaf operation span)) (mode : Mode) : writes mode s = [] := by
  unfold writes
  split
  · next hu => exact absurd hu (h _ _)
  · rfl

theorem writes_leaf {s : Session σ} {operation : Operation} {span : Span}
    (h : s.upcoming? = some (.leaf operation span)) :
    writes .walking s = s.store.sends operation := by
  simp only [writes, h]

theorem puts_worked (s t : Session σ) (preallocated : Bool) (operation : Operation) (span : Span) :
    Puts s (s.store.sends operation)
      (worked span t (Store.perform preallocated operation s.store)) := by
  have settles := Store.perform_settles preallocated operation s.store s.store.untouched_refl
  cases hp : Store.perform preallocated operation s.store with
  | error e store =>
    rw [hp] at settles
    exact settles.output
  | ok progress store =>
    rw [hp] at settles
    cases progress with
    | done => exact settles
    | waiting =>
      cases perform_waiting hp
      show store.device.output.toList = _ ++ []
      rw [List.append_nil, settles.output]

/-- A move writes what the output instruction writes that it completes, if it completes one. -/
theorem Moved.puts {s : Session σ} {mode : Mode} {r : EStateM.Result Raised (Session σ) Mode}
    (h : Moved s mode r) : Puts s (writes mode s) r := by
  cases h with
  | ended => exact puts_same rfl .finished
  | spent upcoming =>
    rw [writes_of_no_leaf (by simp [upcoming])]
    exact puts_same rfl .finished
  | unseen _ store => exact congrArg (·.device.output) store
  | leaf upcoming _ _ =>
    rw [writes_leaf upcoming]
    exact puts_worked s _ _ _ _
  | turns upcoming store =>
    rw [writes_of_no_leaf upcoming]
    exact puts_same store .walking
  | strays _ store => exact congrArg (·.device.output) store
  | asks span => exact puts_worked s s _ .input span

/-- **What a walk writes.** -/
theorem Quiet.output_walkFor {s : Session σ} (h : s.Quiet) (n : Nat) (mode : Mode) :
    ((walkFor n mode).final s).store.device.output.toList =
      s.store.device.output.toList ++ written n mode s := by
  induction n generalizing mode s with
  | zero => cases mode <;> exact (List.append_nil _).symm
  | succ n ih =>
    have puts := (h.moved mode).puts
    unfold Action.final written
    rw [walkFor_succ]
    cases hm : move mode s with
    | error e t =>
      rw [hm] at puts
      rw [Action.bind_of_error hm, List.append_nil]
      exact congrArg Array.toList puts
    | ok mode' t =>
      rw [hm] at puts
      have same := (move_keeps s mode).ok (.refl s) hm
      have later := ih (⟨same.hooks.trans h.hooks, same.cancel.trans h.cancel⟩ : t.Quiet) mode'
      unfold Action.final at later
      rw [Action.bind_of_ok hm, later, show t.store.device.output.toList = _ from puts,
        List.append_assoc]

end Session

end NamedTape
