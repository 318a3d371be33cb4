import NamedTape.Proofs.Action

/-!
# Structured semantics

What a program does to a store, told by its structure and without a stack.

* A list runs its instructions in order. A loop looks at the current cell before each pass, and
  runs its whole body as long as the cell is not zero.
* The first failure ends everything. A failing operation is attributed to its instruction.
* `Runs` also tells which instructions are taken, in order: a loop is taken once each time the run
  comes to it, however many passes follow. A verbose run looks at the tape before each of them.
* What a run that goes on forever does is not told: there is no derivation for it.
-/

namespace NamedTape

namespace Store

variable {σ : Type}

/-- How a run ends: at its end, or with a failure; and with which store. -/
abbrev Outcome (σ : Type) := EStateM.Result Raised (Store σ) Unit

/-- The value of the current cell. -/
def cell : Action (Store σ) Nat := onTape Tape.value

/-- What a verbose run sees before it takes an instruction. -/
def observe (verbose : Bool) : Action (Store σ) (Option String) :=
  if verbose then some <$> onTape Tape.snapshot else pure none

/-- An operation carried out to its end: one that has to wait is tried again. -/
inductive Performs (preallocated : Bool) (operation : Operation) : Store σ → Outcome σ → Prop
  | done {s t : Store σ} (h : perform preallocated operation s = .ok .done t) :
    Performs preallocated operation s (.ok () t)
  | fails {s t : Store σ} {e : Raised} (h : perform preallocated operation s = .error e t) :
    Performs preallocated operation s (.error e t)
  | again {s t : Store σ} {r : Outcome σ} (h : perform preallocated operation s = .ok .waiting t)
    (rest : Performs preallocated operation t r) : Performs preallocated operation s r

/-- What there is to run: a list of instructions, or the passes of a loop with the body. -/
inductive Task
  | list (program : List Instruction)
  | passes (body : List Instruction)

/-- From the store, the task takes the steps and ends with the outcome. -/
inductive Runs (verbose preallocated : Bool) :
    Task → Store σ → List Instruction → Outcome σ → Prop
  | nil {s : Store σ} : Runs verbose preallocated (.list []) s [] (.ok () s)
  /-- The tape cannot be shown. -/
  | unseen {i : Instruction} {rest : List Instruction} {s t : Store σ} {e : Raised}
    (h : observe verbose s = .error e t) :
    Runs verbose preallocated (.list (i :: rest)) s [] (.error e t)
  | leaf {operation : Operation} {span : Span} {rest steps : List Instruction}
    {view : Option String} {s t : Store σ} {r : Outcome σ} (seen : observe verbose s = .ok view s)
    (first : Performs preallocated operation s (.ok () t))
    (next : Runs verbose preallocated (.list rest) t steps r) :
    Runs verbose preallocated (.list (.leaf operation span :: rest)) s
      (.leaf operation span :: steps) r
  | leafFails {operation : Operation} {span : Span} {rest : List Instruction}
    {view : Option String} {s t : Store σ} {e : Raised} (seen : observe verbose s = .ok view s)
    (first : Performs preallocated operation s (.error e t)) :
    Runs verbose preallocated (.list (.leaf operation span :: rest)) s
      [.leaf operation span] (.error (e.within span) t)
  | loop {body : List Instruction} {span : Span} {rest steps steps' : List Instruction}
    {view : Option String} {s t : Store σ} {r : Outcome σ} (seen : observe verbose s = .ok view s)
    (first : Runs verbose preallocated (.passes body) s steps (.ok () t))
    (next : Runs verbose preallocated (.list rest) t steps' r) :
    Runs verbose preallocated (.list (.loop body span :: rest)) s
      (.loop body span :: (steps ++ steps')) r
  | loopFails {body : List Instruction} {span : Span} {rest steps : List Instruction}
    {view : Option String} {s t : Store σ} {e : Raised} (seen : observe verbose s = .ok view s)
    (first : Runs verbose preallocated (.passes body) s steps (.error e t)) :
    Runs verbose preallocated (.list (.loop body span :: rest)) s
      (.loop body span :: steps) (.error e t)
  | leaves {body : List Instruction} {s : Store σ} (h : cell s = .ok 0 s) :
    Runs verbose preallocated (.passes body) s [] (.ok () s)
  | pass {body steps steps' : List Instruction} {n : Nat} {s t : Store σ} {r : Outcome σ}
    (h : cell s = .ok n s) (hn : n ≠ 0)
    (first : Runs verbose preallocated (.list body) s steps (.ok () t))
    (next : Runs verbose preallocated (.passes body) t steps' r) :
    Runs verbose preallocated (.passes body) s (steps ++ steps') r
  | passFails {body steps : List Instruction} {n : Nat} {s t : Store σ} {e : Raised}
    (h : cell s = .ok n s) (hn : n ≠ 0)
    (first : Runs verbose preallocated (.list body) s steps (.error e t)) :
    Runs verbose preallocated (.passes body) s steps (.error e t)
  /-- The pointer addresses no cell. -/
  | wild {body : List Instruction} {s t : Store σ} {e : Raised} (h : cell s = .error e t) :
    Runs verbose preallocated (.passes body) s [] (.error e t)

/-! ## One after another -/

/-- What a piece of program may do: from a store, the steps it takes and its outcome. -/
abbrev Behavior (σ : Type) := Store σ → List Instruction → Outcome σ → Prop

/-- One behavior and then another, unless the first one fails. -/
inductive Then (first next : Behavior σ) : Behavior σ
  | fails {s t : Store σ} {steps : List Instruction} {e : Raised}
    (h : first s steps (.error e t)) : Then first next s steps (.error e t)
  | goes {s t : Store σ} {steps steps' : List Instruction} {r : Outcome σ}
    (h : first s steps (.ok () t)) (h' : next t steps' r) : Then first next s (steps ++ steps') r

/-! ## Looking changes nothing -/

theorem cell_eq (s : Store σ) :
    cell s = match s.tape.slot? with
      | some i => .ok (s.tape.cellAt i).toNat s
      | none => .error s.tape.wild s := by
  unfold cell onTape Tape.value
  cases s.tape.slot? <;> rfl

theorem cell_ok {s t : Store σ} {n : Nat} (h : cell s = .ok n t) : t = s := by
  rw [cell_eq] at h
  split at h <;> cases h
  rfl

theorem cell_error {s t : Store σ} {e : Raised} (h : cell s = .error e t) : t = s := by
  rw [cell_eq] at h
  split at h <;> cases h
  rfl

theorem snapshot_cases (t : Tape) :
    (∃ text, Tape.snapshot t = .ok text t) ∨ ∃ e, Tape.snapshot t = .error e t := by
  unfold Tape.snapshot
  split
  · exact .inr ⟨_, rfl⟩
  · split
    · exact .inl ⟨_, rfl⟩
    · exact .inr ⟨_, rfl⟩

theorem observe_cases (verbose : Bool) (s : Store σ) :
    (∃ view, observe verbose s = .ok view s) ∨ ∃ e, observe verbose s = .error e s := by
  cases verbose with
  | false => exact .inl ⟨none, rfl⟩
  | true =>
    rcases snapshot_cases s.tape with ⟨text, h⟩ | ⟨e, h⟩
    · exact .inl ⟨some text, Action.map_of_ok (onTape_of_ok h) some⟩
    · exact .inr ⟨e, Action.map_of_error (onTape_of_error h) some⟩

theorem observe_error {verbose : Bool} {s t : Store σ} {e : Raised}
    (h : observe verbose s = .error e t) : t = s := by
  rcases observe_cases verbose s with ⟨view, h'⟩ | ⟨e', h'⟩
  · cases h'.symm.trans h
  · cases h'.symm.trans h
    rfl

/-! ## A store has one run -/

theorem Performs.unique {preallocated : Bool} {operation : Operation} {s : Store σ}
    {r r' : Outcome σ} (h : Performs preallocated operation s r)
    (h' : Performs preallocated operation s r') : r = r' := by
  induction h with
  | done h =>
    cases h' with
    | done h' => cases h.symm.trans h'; rfl
    | fails h' => cases h.symm.trans h'
    | again h' _ => cases h.symm.trans h'
  | fails h =>
    cases h' with
    | done h' => cases h.symm.trans h'
    | fails h' => cases h.symm.trans h'; rfl
    | again h' _ => cases h.symm.trans h'
  | again h rest ih =>
    cases h' with
    | done h' => cases h.symm.trans h'
    | fails h' => cases h.symm.trans h'
    | again h' rest' => cases h.symm.trans h'; exact ih rest'

theorem Runs.unique {verbose preallocated : Bool} {task : Task} {s : Store σ}
    {steps steps' : List Instruction} {r r' : Outcome σ}
    (h : Runs verbose preallocated task s steps r)
    (h' : Runs verbose preallocated task s steps' r') : steps = steps' ∧ r = r' := by
  induction h generalizing steps' r' with
  | nil => cases h'; exact ⟨rfl, rfl⟩
  | unseen h =>
    cases h' with
    | unseen h' => cases h.symm.trans h'; exact ⟨rfl, rfl⟩
    | leaf seen' _ _ => cases h.symm.trans seen'
    | leafFails seen' _ => cases h.symm.trans seen'
    | loop seen' _ _ => cases h.symm.trans seen'
    | loopFails seen' _ => cases h.symm.trans seen'
  | leaf seen first next ih =>
    cases h' with
    | unseen h' => cases seen.symm.trans h'
    | leaf _ first' next' =>
      cases first.unique first'
      obtain ⟨rfl, rfl⟩ := ih next'
      exact ⟨rfl, rfl⟩
    | leafFails _ first' => cases first.unique first'
  | leafFails seen first =>
    cases h' with
    | unseen h' => cases seen.symm.trans h'
    | leaf _ first' _ => cases first.unique first'
    | leafFails _ first' => cases first.unique first'; exact ⟨rfl, rfl⟩
  | loop seen first next ih ih' =>
    cases h' with
    | unseen h' => cases seen.symm.trans h'
    | loop _ first' next' =>
      obtain ⟨rfl, hr⟩ := ih first'
      cases hr
      obtain ⟨rfl, rfl⟩ := ih' next'
      exact ⟨rfl, rfl⟩
    | loopFails _ first' => cases (ih first').2
  | loopFails seen first ih =>
    cases h' with
    | unseen h' => cases seen.symm.trans h'
    | loop _ first' _ => cases (ih first').2
    | loopFails _ first' =>
      obtain ⟨rfl, hr⟩ := ih first'
      cases hr
      exact ⟨rfl, rfl⟩
  | leaves h =>
    cases h' with
    | leaves _ => exact ⟨rfl, rfl⟩
    | pass h' hn _ _ => cases h.symm.trans h'; exact absurd rfl hn
    | passFails h' hn _ => cases h.symm.trans h'; exact absurd rfl hn
    | wild h' => cases h.symm.trans h'
  | pass h hn first next ih ih' =>
    cases h' with
    | leaves h' => cases h.symm.trans h'; exact absurd rfl hn
    | pass _ _ first' next' =>
      obtain ⟨rfl, hr⟩ := ih first'
      cases hr
      obtain ⟨rfl, rfl⟩ := ih' next'
      exact ⟨rfl, rfl⟩
    | passFails _ _ first' => cases (ih first').2
    | wild h' => cases h.symm.trans h'
  | passFails h hn first ih =>
    cases h' with
    | leaves h' => cases h.symm.trans h'; exact absurd rfl hn
    | pass _ _ first' _ => cases (ih first').2
    | passFails _ _ first' => exact ih first'
    | wild h' => cases h.symm.trans h'
  | wild h =>
    cases h' with
    | leaves h' => cases h.symm.trans h'
    | pass h' _ _ _ => cases h.symm.trans h'
    | passFails h' _ _ => cases h.symm.trans h'
    | wild h' => cases h.symm.trans h'; exact ⟨rfl, rfl⟩

end Store

end NamedTape
