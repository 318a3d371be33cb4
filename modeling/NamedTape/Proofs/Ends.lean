import NamedTape.Proofs.Walk

/-!
# How walks end

A walk of bounded length goes on where a shorter one has left off. `Ends` follows a walk move by
move until it has come to its end or to a failure; a walk that ends does so within some bound, and
one that ends within some bound ends.
-/

namespace NamedTape

namespace Session

variable {σ : Type}

/-- The walk ends, at its end or with a failure, and leaves a session behind. -/
inductive Ends : Mode → Session σ → EStateM.Result Raised (Session σ) Unit → Prop
  | finished (s : Session σ) : Ends .finished s (.ok () s)
  | stops {mode : Mode} {s t : Session σ} {e : Raised} (h : move mode s = .error e t) :
    Ends mode s (.error e t)
  | moves {mode mode' : Mode} {s t : Session σ} {r : EStateM.Result Raised (Session σ) Unit}
    (h : move mode s = .ok mode' t) (rest : Ends mode' t r) : Ends mode s r

/-- What a walk within a bound comes to if it ends so. -/
def ending : EStateM.Result Raised (Session σ) Unit → EStateM.Result Raised (Session σ) Mode
  | .ok _ t => .ok .finished t
  | .error e t => .error e t

theorem ending_injective {r r' : EStateM.Result Raised (Session σ) Unit}
    (h : ending r = ending r') : r = r' := by
  cases r <;> cases r' <;> cases h <;> rfl

/-- A walk within a bound ends, or is on its way. -/
theorem ending_or (r : EStateM.Result Raised (Session σ) Mode) :
    (∃ result, r = ending result) ∨ ∃ mode t, mode ≠ .finished ∧ r = .ok mode t := by
  cases r with
  | error e t => exact .inl ⟨.error e t, rfl⟩
  | ok mode t =>
    cases mode with
    | finished => exact .inl ⟨.ok () t, rfl⟩
    | walking => exact .inr ⟨.walking, t, nofun, rfl⟩
    | waiting span => exact .inr ⟨.waiting span, t, nofun, rfl⟩

/-- The session that a walk within a bound has left behind at its end. -/
def finished? : EStateM.Result Raised (Session σ) Mode → Option (Session σ)
  | .ok .finished t => some t
  | _ => none

theorem eq_ending_of_finished? {r : EStateM.Result Raised (Session σ) Mode} {t : Session σ}
    (h : finished? r = some t) : r = ending (.ok () t) := by
  unfold finished? at h
  split at h <;> cases h
  rfl

/-- Whether a walk within a bound ends with a fault that passes the check. -/
def faults (check : Fault → Session σ → Bool) : EStateM.Result Raised (Session σ) Mode → Bool
  | .error (.fault f) t => check f t
  | _ => false

theorem eq_error_of_faults {check : Fault → Session σ → Bool}
    {r : EStateM.Result Raised (Session σ) Mode} (h : faults check r = true) :
    ∃ f t, r = .error (.fault f) t ∧ check f t = true := by
  match r with
  | .error (.fault f) t => exact ⟨f, t, rfl, h⟩
  | .error (.foreign _) _ | .error .interrupt _ | .ok _ _ => cases h

/-- The outcome of a walk that ends. -/
def outcome : EStateM.Result Raised (Session σ) Unit → Store.Outcome σ
  | .ok a t => .ok a t.store
  | .error e t => .error e t.store

/-- The session that a walk leaves when it ends. -/
def left : EStateM.Result Raised (Session σ) Unit → Session σ
  | .ok _ t | .error _ t => t

/-- The session in which a walk stands, or in which it has failed. -/
def standing : EStateM.Result Raised (Session σ) Mode → Session σ
  | .ok _ t | .error _ t => t

theorem standing_ending (r : EStateM.Result Raised (Session σ) Unit) :
    standing (ending r) = left r := by
  cases r <;> rfl

theorem Ends.walkFor {mode : Mode} {s : Session σ} {r : EStateM.Result Raised (Session σ) Unit}
    (h : Ends mode s r) : ∃ n, walkFor n mode s = ending r := by
  induction h with
  | finished s => exact ⟨0, walkFor_finished 0 s⟩
  | stops h => exact ⟨1, (walkFor_succ 0 _ _).trans (Action.bind_of_error h _)⟩
  | moves h _ ih =>
    obtain ⟨n, hn⟩ := ih
    exact ⟨n + 1, ((walkFor_succ n _ _).trans (Action.bind_of_ok h _)).trans hn⟩

theorem Ends.of_walkFor {n : Nat} {mode : Mode} {s : Session σ}
    {r : EStateM.Result Raised (Session σ) Unit} (h : Session.walkFor n mode s = ending r) :
    Ends mode s r := by
  induction n generalizing mode s with
  | zero =>
    cases mode with
    | finished =>
      rw [walkFor_finished] at h
      cases r with
      | ok a t => cases h; exact .finished s
      | error e t => cases h
    | walking => cases r <;> cases h
    | waiting span => cases r <;> cases h
  | succ n ih =>
    rw [walkFor_succ] at h
    cases hm : move mode s with
    | ok mode' t => exact .moves hm (ih ((Action.bind_of_ok hm _).symm.trans h))
    | error e t =>
      have he := (Action.bind_of_error hm _).symm.trans h
      cases r with
      | ok a t' => cases he
      | error e' t' => cases he; exact .stops hm

/-- A walk goes on where a shorter one has left off. -/
theorem walkFor_add (m n : Nat) (mode : Mode) (s : Session σ) :
    Session.walkFor (m + n) mode s = (Session.walkFor m mode >>= Session.walkFor n) s := by
  induction m generalizing mode s with
  | zero =>
    rw [Nat.zero_add]
    cases mode with
    | finished => exact (Action.bind_of_ok (walkFor_finished 0 s) _).symm
    | walking => rfl
    | waiting span => rfl
  | succ m ih =>
    have split : m + 1 + n = m + n + 1 := by omega
    rw [split, walkFor_succ]
    cases hm : move mode s with
    | ok mode' t =>
      have longer : Session.walkFor (m + 1) mode s = Session.walkFor m mode' t :=
        (walkFor_succ m mode s).trans (Action.bind_of_ok hm _)
      rw [Action.bind_of_ok hm, ih]
      simp only [bind, EStateM.bind, longer]
    | error e t =>
      have stopped : Session.walkFor (m + 1) mode s = .error e t :=
        (walkFor_succ m mode s).trans (Action.bind_of_error hm _)
      rw [Action.bind_of_error hm, Action.bind_of_error stopped]

theorem Ends.same_settings {mode : Mode} {s : Session σ}
    {r : EStateM.Result Raised (Session σ) Unit} (h : Ends mode s r) :
    SameSettings s (left r) := by
  induction h with
  | finished s => exact .refl s
  | stops h => exact (move_keeps _ _).error (.refl _) h
  | moves h _ ih => exact ((move_keeps _ _).ok (.refl _) h).trans ih

end Session

end NamedTape
