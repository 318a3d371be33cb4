import NamedTape.Hooks

/-!
# Rounds

A round of calls: each handler finds what those before it have left, and the first that fails is
the last one called. To emit an event is such a round over its handlers (`emit_inTurn`), and a step
is one over the rules that fire at it (`afterStep_inTurn`).

Which handlers are called is told by a list that is kept beside the state, where no handler sees it
(`noting`).
-/

namespace NamedTape.Hooks

variable {ε σ α H R : Type}

/-- What calling one handler after another comes to, and the ones that are called. -/
inductive Round (call : α → EStateM ε σ Unit) :
    List α → σ → List α → EStateM.Result ε σ Unit → Prop
  | over {s : σ} : Round call [] s [] (.ok () s)
  | returns {x : α} {xs called : List α} {s t : σ} {r : EStateM.Result ε σ Unit}
    (h : call x s = .ok () t) (rest : Round call xs t called r) :
    Round call (x :: xs) s (x :: called) r
  /-- The handlers that are left are not called. -/
  | fails {x : α} {xs : List α} {e : ε} {s t : σ} (h : call x s = .error e t) :
    Round call (x :: xs) s [x] (.error e t)

/-- The call, with a note of it behind those of earlier calls. -/
def noting (call : α → EStateM ε σ Unit) (x : α) : EStateM ε (σ × List α) Unit := fun s =>
  match call x s.1 with
  | .ok () t => .ok () (t, s.2 ++ [x])
  | .error e t => .error e (t, s.2 ++ [x])

/-- The result with the notes beside the state. -/
def withNotes (notes : List α) : EStateM.Result ε σ Unit → EStateM.Result ε (σ × List α) Unit
  | .ok () t => .ok () (t, notes)
  | .error e t => .error e (t, notes)

/-- The action makes a round of calls and nothing else, whatever the calls do. -/
def InTurn (xs : List α)
    (act : ∀ {ε σ : Type}, (α → EStateM ε σ Unit) → EStateM ε σ Unit) : Prop :=
  ∀ (ε σ : Type) (call : α → EStateM ε σ Unit) (s : σ), ∃ called,
    Round call xs s called (act call s) ∧
      act (noting call) (s, []) = withNotes called (act call s)

/-- Calling in turn what `get` takes from each of a list is a round. -/
theorem forM_round {β : Type} (call : α → EStateM ε σ Unit) (get : β → α) (xs : List β) (s : σ)
    (notes : List α) :
    ∃ called, Round call (xs.map get) s called (xs.forM (call <| get ·) s) ∧
      xs.forM (noting call <| get ·) (s, notes) =
        withNotes (notes ++ called) (xs.forM (call <| get ·) s) := by
  induction xs generalizing s notes with
  | nil =>
    refine ⟨[], .over, ?_⟩
    rw [List.append_nil]
    rfl
  | cons x xs ih =>
    have first : ∀ {τ : Type} (act : α → EStateM ε τ Unit) (u : τ),
        (x :: xs).forM (act <| get ·) u = (act (get x) >>= fun _ => xs.forM (act <| get ·)) u :=
      fun _ _ => rfl
    simp only [first, bind, EStateM.bind, noting]
    cases hx : call (get x) s with
    | ok _ t =>
      obtain ⟨called, round, noted⟩ := ih t (notes ++ [get x])
      rw [List.append_assoc] at noted
      exact ⟨get x :: called, .returns hx round, noted⟩
    | error e t => exact ⟨[get x], .fails hx, rfl⟩

theorem emit_inTurn (hooks : Hooks H R) (event : Event) :
    InTurn ((hooks.registrations event).map (·.handler)) fun call => hooks.emit call event :=
  fun _ _ call s => forM_round call (·.handler) (hooks.registrations event) s []

theorem afterStep_inTurn (hooks : Hooks H R) (step : Int) :
    InTurn ((hooks.due step).map (·.handler)) fun call => hooks.afterStep call step :=
  fun _ _ call s => forM_round call (·.handler) (hooks.due step) s []

end NamedTape.Hooks
