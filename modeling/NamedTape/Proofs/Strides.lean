import NamedTape.Proofs.Walk

/-!
# What quiet moves do

A quiet move works on the operation of one leaf, or asks for the byte that is waited for, or brings
the stack of frames to the next instruction. `Strides` says in each case what the session has become
as a whole.
-/

namespace NamedTape

namespace Session

open Store (observe)

variable {σ : Type}

/-- The instruction that comes next in the innermost frame. -/
def upcoming? (s : Session σ) : Option Instruction := s.stack.head?.bind (·.rest.head?)

theorem upcoming?_eq {s : Session σ} {frame : Frame} {below : List Frame} {i : Instruction}
    {rest : List Instruction} (hs : s.stack = frame :: below) (hr : frame.rest = i :: rest) :
    s.upcoming? = some i := by
  rw [upcoming?, hs, List.head?_cons, Option.bind_some, hr, List.head?_cons]

theorem upcoming?_eq_none {s : Session σ} {frame : Frame} {below : List Frame}
    (hs : s.stack = frame :: below) (hr : frame.rest = []) : s.upcoming? = none := by
  rw [upcoming?, hs, List.head?_cons, Option.bind_some, hr, List.head?_nil]

/-- What working on an operation comes to: the walk goes on, waits at the span, or stops there. -/
def worked (span : Span) (t : Session σ) :
    EStateM.Result Raised (Store σ) Store.Progress → EStateM.Result Raised (Session σ) Mode
  | .ok .done store => .ok .walking (t.withStore store)
  | .ok .waiting store => .ok (.waiting span) (t.withStore store)
  | .error e store => .error (e.within span) (t.withStore store)

section worked

variable {span : Span} {t u : Session σ} {r : EStateM.Result Raised (Store σ) Store.Progress}

theorem error_of_worked {e : Raised} (h : worked span t r = .error e u) :
    ∃ raised store, r = .error raised store ∧ e = raised.within span ∧ u = t.withStore store := by
  cases r with
  | ok progress store => cases progress <;> cases h
  | error raised store =>
    cases h
    exact ⟨raised, store, rfl, rfl, rfl⟩

theorem waiting_of_worked {span' : Span} (h : worked span t r = .ok (.waiting span') u) :
    span' = span ∧ ∃ store, r = .ok .waiting store ∧ u = t.withStore store := by
  cases r with
  | error raised store => cases h
  | ok progress store =>
    cases progress with
    | done => cases h
    | waiting =>
      cases h
      exact ⟨rfl, store, rfl, rfl⟩

end worked

/-- The session once the innermost frame, with the number, has taken `i`. -/
def took (frame : Nat) (i : Instruction) (rest : List Instruction) (view : Option String)
    (s : Session σ) : Session σ :=
  (s.setRest rest).noted frame i view

/-- What a quiet move does. -/
inductive Strides (s : Session σ) : Mode → EStateM.Result Raised (Session σ) Mode → Prop
  | ended : Strides s .finished (.ok .finished s)
  | spent (upcoming : s.upcoming? = none) : Strides s .walking (.ok .finished s)
  /-- The tape cannot be shown. -/
  | unseen {frame : Frame} {below : List Frame} {i : Instruction} {rest : List Instruction}
    {e : Raised} (stack : s.stack = frame :: below) (upcoming : frame.rest = i :: rest)
    (seen : observe s.log.verbose s.store = .error e s.store) :
    Strides s .walking (.error e (s.setRest rest))
  | works {frame : Frame} {below : List Frame} {operation : Operation} {span : Span}
    {rest : List Instruction} {view : Option String} (stack : s.stack = frame :: below)
    (upcoming : frame.rest = .leaf operation span :: rest) :
    Strides s .walking (worked span (s.took frame.id (.leaf operation span) rest view)
      (Store.perform s.options.preallocate operation s.store))
  | passes {frame : Frame} {below : List Frame} {body : List Instruction} {span : Span}
    {rest : List Instruction} {view : Option String} (stack : s.stack = frame :: below)
    (upcoming : frame.rest = .loop body span :: rest) :
    Strides s .walking (.ok .walking (s.took frame.id (.loop body span) rest view))
  | enters {frame : Frame} {below : List Frame} {body : List Instruction} {span : Span}
    {rest : List Instruction} {view : Option String} (stack : s.stack = frame :: below)
    (upcoming : frame.rest = .loop body span :: rest) :
    Strides s .walking
      (.ok .walking ((s.took frame.id (.loop body span) rest view).push (some span) body))
  /-- The pointer addresses no cell where a loop begins. -/
  | strays {frame : Frame} {below : List Frame} {body : List Instruction} {span : Span}
    {rest : List Instruction} {view : Option String} {e : Raised} (stack : s.stack = frame :: below)
    (upcoming : frame.rest = .loop body span :: rest)
    (cell : Store.cell s.store = .error e s.store) :
    Strides s .walking (.error e (s.took frame.id (.loop body span) rest view))
  | repeats {frame : Frame} {below : List Frame} {span : Span} (stack : s.stack = frame :: below)
    (spent : frame.rest = []) (loop : frame.loop = some span) :
    Strides s .walking (.ok .walking (s.setRest frame.body))
  | leaves {frame : Frame} {below : List Frame} {span : Span} (stack : s.stack = frame :: below)
    (spent : frame.rest = []) (loop : frame.loop = some span) :
    Strides s .walking (.ok .walking s.pop)
  /-- The pointer addresses no cell where a loop ends. -/
  | straysBack {frame : Frame} {below : List Frame} {e : Raised} (stack : s.stack = frame :: below)
    (spent : frame.rest = []) (cell : Store.cell s.store = .error e s.store) :
    Strides s .walking (.error e s)
  | asks (span : Span) : Strides s (.waiting span)
    (worked span s (Store.perform s.options.preallocate .input s.store))

section strides

variable {s : Session σ} (h : s.Quiet)
include h

theorem Quiet.strides_taking {frame : Frame} {below : List Frame} (hs : s.stack = frame :: below)
    {i : Instruction} {rest : List Instruction} (hr : frame.rest = i :: rest) :
    Strides s .walking (move .walking s) := by
  obtain ⟨e, seen⟩ | ⟨view, seen⟩ := (Store.observe_cases s.log.verbose s.store).symm
  · rw [h.move_unseen hs hr seen]
    exact .unseen hs hr seen
  cases i with
  | leaf operation span =>
    have carried : move .walking s =
        worked span (s.took frame.id (.leaf operation span) rest view)
          (Store.perform s.options.preallocate operation s.store) := by
      rw [h.move_leaf hs hr seen]
      rfl
    rw [carried]
    exact .works hs hr
  | loop body span =>
    rw [h.move_loop hs hr seen]
    cases hc : Store.cell s.store with
    | error e store =>
      cases Store.cell_error hc
      exact .strays hs hr hc
    | ok n store =>
      cases n with
      | zero => exact .passes hs hr
      | succ n => exact .enters hs hr

theorem Quiet.strides_returning {frame : Frame} {below : List Frame}
    (hs : s.stack = frame :: below) (hr : frame.rest = []) :
    Strides s .walking (move .walking s) := by
  cases hl : frame.loop with
  | none =>
    rw [move_nil hs hr, hl]
    exact .spent (upcoming?_eq_none hs hr)
  | some span =>
    rw [h.move_round hs hr hl]
    cases hc : Store.cell s.store with
    | error e store =>
      cases Store.cell_error hc
      exact .straysBack hs hr hc
    | ok n store =>
      cases n with
      | zero => exact .leaves hs hr hl
      | succ n => exact .repeats hs hr hl

/-- **What quiet moves do.** -/
theorem Quiet.strides (mode : Mode) : Strides s mode (move mode s) := by
  cases mode with
  | finished => exact .ended
  | waiting span =>
    have asked : move (.waiting span) s =
        worked span s (Store.perform s.options.preallocate .input s.store) := by
      rw [h.move_waiting s.options.preallocate span]
      rfl
    rw [asked]
    exact .asks span
  | walking =>
    cases hs : s.stack with
    | nil =>
      rw [move_empty hs]
      exact .spent (by simp [upcoming?, hs])
    | cons frame below =>
      cases hr : frame.rest with
      | nil => exact h.strides_returning hs hr
      | cons i rest => exact h.strides_taking hs hr

end strides

end Session

end NamedTape
