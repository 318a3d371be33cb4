import NamedTape.Proofs.Ledger
import NamedTape.Proofs.Tracks

/-!
# How the frames of a run are nested

Every frame but the first carries out the body of a loop: of that which the frame below it has taken
last, in the latest of its steps, before any step of the frame itself (`Frame.Nested`). What the
innermost frame has taken last is likewise told by the latest of its steps (`Frame.Stands`). Of this
only the list of the entries is used that have been recorded, whatever the log has kept of them.
-/

namespace NamedTape

variable {program : List Instruction} {entries : List (Entry Nat)} {entry : Entry Nat}

namespace Frame

/-- The latest of the frame's steps, if it has taken any, is that of the instruction it has taken
last. -/
def Stands (entries : List (Entry Nat)) (frame : Frame) : Prop :=
  ∃ latest, frame.Took latest ∧ (entriesOf frame.id entries).getLast?.map
    (fun entry => (entry.rule, entry.span)) = latest.map fun i => (i.rule, some i.span)

/-- The frame carries out the loop that the outer frame has taken last. That is the latest step of
the outer frame, and it came before all steps of the frame. -/
def Nested (entries : List (Entry Nat)) (frame outer : Frame) : Prop :=
  ∃ done span entry, frame.loop = some span ∧
    outer.body = done ++ .loop frame.body span :: outer.rest ∧
    (entriesOf outer.id entries).getLast? = some entry ∧ entry.rule = "Loop" ∧
    entry.span = some span ∧ ∀ later ∈ entriesOf frame.id entries, entry.step < later.step

variable {frame outer : Frame}

theorem stands_start (id : Nat) (loop : Option Span) (body : List Instruction)
    (h : entriesOf id entries = []) : Stands entries { id, loop, body } :=
  ⟨none, .nothing rfl, by simp only [h, List.getLast?_nil, Option.map_none]⟩

theorem Stands.step {i : Instruction} {rest : List Instruction} (h : frame.Stands entries)
    (upcoming : frame.rest = i :: rest) (own : entry.frame = some frame.id)
    (rule : entry.rule = i.rule) (span : entry.span = some i.span) :
    Stands (entries ++ [entry]) { frame with rest } := by
  obtain ⟨_, took, -⟩ := h
  refine ⟨some i, took.next upcoming, ?_⟩
  simp only [entriesOf_append_own own, List.getLast?_concat, Option.map_some, rule, span]

theorem Stands.again (h : frame.Stands entries) (spent : frame.rest = []) :
    Stands entries { frame with rest := frame.body } := by
  obtain ⟨latest, took, same⟩ := h
  exact ⟨latest, took.again spent, same⟩

/-- A frame stands at the loop that it has taken last when the frame of that loop is left. -/
theorem Nested.stands (h : frame.Nested entries outer) : outer.Stands entries := by
  obtain ⟨done, span, entry, -, body, last, rule, place, -⟩ := h
  refine ⟨some (.loop frame.body span), .here body, ?_⟩
  simp only [last, Option.map_some, rule, place, Instruction.rule, Instruction.span]

theorem Nested.congr {entries' : List (Entry Nat)} (h : frame.Nested entries outer)
    (same : entriesOf outer.id entries' = entriesOf outer.id entries)
    (later : ∀ e ∈ entriesOf frame.id entries', e ∈ entriesOf frame.id entries ∨
      ∀ old ∈ entries, old.step < e.step) : frame.Nested entries' outer := by
  obtain ⟨done, span, entry, loop, body, last, rule, place, before⟩ := h
  refine ⟨done, span, entry, loop, body, same ▸ last, rule, place, fun e he => ?_⟩
  have recorded : entry ∈ entries := (mem_entriesOf.mp (List.mem_of_getLast? last)).1
  exact (later e he).elim (before e) fun all => all entry recorded

/-- The frame of a loop that has just been taken. -/
theorem Stands.nested {id : Nat} {body rest : List Instruction} {span : Span}
    (h : frame.Stands entries) (upcoming : frame.rest = .loop body span :: rest)
    (own : entry.frame = some frame.id) (rule : entry.rule = "Loop")
    (place : entry.span = some span) (fresh : entriesOf id (entries ++ [entry]) = []) :
    Nested (entries ++ [entry]) { id, loop := some span, body } { frame with rest } := by
  obtain ⟨latest, took, -⟩ := h
  obtain ⟨done, whole⟩ := took.split
  have last : (entriesOf frame.id (entries ++ [entry])).getLast? = some entry := by
    rw [entriesOf_append_own own, List.getLast?_concat]
  refine ⟨done, span, entry, rfl, upcoming ▸ whole, last, rule, place, ?_⟩
  rw [fresh]
  exact List.forall_mem_nil _

end Frame

/-- The frames of a stack, the innermost first: each is nested in the one below it, and the last of
them is that of the program, with the number `origin`. -/
inductive Nesting (program : List Instruction) (origin : Nat) (entries : List (Entry Nat)) :
    List Frame → Prop
  | outermost {frame : Frame} (number : frame.id = origin) (loop : frame.loop = none)
    (body : frame.body = program) : Nesting program origin entries [frame]
  | inner {frame outer : Frame} {below : List Frame} (nested : frame.Nested entries outer)
    (nests : Nesting program origin entries (outer :: below)) :
    Nesting program origin entries (frame :: outer :: below)

namespace Nesting

variable {origin : Nat} {frame : Frame} {below : List Frame}

/-- Steps of other frames do not matter. -/
theorem congr {entries' : List (Entry Nat)} {stack : List Frame}
    (h : Nesting program origin entries stack)
    (same : ∀ frame ∈ stack, entriesOf frame.id entries' = entriesOf frame.id entries) :
    Nesting program origin entries' stack := by
  induction h with
  | outermost number loop body => exact .outermost number loop body
  | @inner frame outer below nested nests ih =>
    have outerSame := same outer (List.mem_cons_of_mem _ List.mem_cons_self)
    refine .inner (nested.congr outerSame fun e he => ?_)
      (ih fun frame hframe => same frame (List.mem_cons_of_mem _ hframe))
    rw [same frame List.mem_cons_self] at he
    exact .inl he

/-- The innermost frame goes on. -/
theorem resume (h : Nesting program origin entries (frame :: below)) (rest : List Instruction) :
    Nesting program origin entries ({ frame with rest } :: below) := by
  cases h with
  | outermost number loop body => exact .outermost number loop body
  | inner nested nests => exact .inner nested nests

/-- The innermost frame takes a step, which is the latest of all. -/
theorem step (h : Nesting program origin entries (frame :: below))
    (own : entry.frame = some frame.id) (others : ∀ outer ∈ below, outer.id ≠ frame.id)
    (latest : ∀ e ∈ entries, e.step < entry.step) :
    Nesting program origin (entries ++ [entry]) (frame :: below) := by
  have same : ∀ outer ∈ below,
      entriesOf outer.id (entries ++ [entry]) = entriesOf outer.id entries := by
    intro outer houter
    refine entriesOf_append_other fun other => others outer houter ?_
    exact Option.some.inj (other.symm.trans own)
  cases h with
  | outermost number loop body => exact .outermost number loop body
  | @inner _ outer below nested nests =>
    refine .inner (nested.congr (same outer List.mem_cons_self) fun e he => ?_) (nests.congr same)
    rw [entriesOf_append_own own, List.mem_append, List.mem_singleton] at he
    refine he.imp_right ?_
    rintro rfl
    exact latest

/-- A frame is left that carries out a loop. -/
theorem leave (h : Nesting program origin entries (frame :: below)) (loop : frame.loop.isSome) :
    Nesting program origin entries below ∧ ∀ outer ∈ below.head?, outer.Stands entries := by
  cases h with
  | outermost _ none _ => cases (congrArg Option.isSome none).symm.trans loop
  | inner nested nests =>
    refine ⟨nests, fun outer houter => ?_⟩
    cases Option.mem_some_iff.mp houter
    exact nested.stands

/-- Only the frame of the program has no loop. -/
theorem alone (h : Nesting program origin entries (frame :: below)) (loop : frame.loop = none) :
    below = [] := by
  cases h with
  | outermost _ _ _ => rfl
  | inner nested _ =>
    obtain ⟨_, _, _, loop', -⟩ := nested
    cases loop.symm.trans loop'

theorem outermost_getLast? {stack : List Frame} (h : Nesting program origin entries stack) :
    ∃ frame, stack.getLast? = some frame ∧ frame.id = origin ∧ frame.loop = none ∧
      frame.body = program := by
  induction h with
  | @outermost frame number loop body => exact ⟨frame, rfl, number, loop, body⟩
  | @inner frame outer below _ _ ih =>
    obtain ⟨last, hlast, program⟩ := ih
    exact ⟨last, List.getLast?_cons_cons.trans hlast, program⟩

end Nesting

end NamedTape
