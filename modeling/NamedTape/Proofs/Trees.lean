import Mathlib.Logic.Function.Basic
import NamedTape.Proofs.Headings

/-!
# Trees tell programs

The tree of a program has a line for each instruction, with a margin that is as wide as the
instruction lies deep. If no alias has a newline in its name, the lines can be told from the text,
and the outline of the program from the lines, so that no other program has that tree
(`tree_tells_program`).

What is shown has numbers in it, and a machine may not be able to write a number, nor a margin.
Wherever something is shown, it is the text of the program or its descriptions.
-/

namespace NamedTape

/-- An alias that the operation goes to has no newline in its name. -/
def Operation.OneLine : Operation → Prop
  | .goto name => '\n' ∉ name.toList
  | _ => True

/-- The lines of a text; the empty text has none. -/
def linesOf (text : String) : List (List Char) := if text = "" then [] else rows text.toList

namespace Instruction

/-! ## Lines -/

/-- The line for an instruction in a tree that starts at a depth. -/
def line (start : Nat) (p : Nat × Instruction) : List Char :=
  List.replicate (2 * (start + p.1)) ' ' ++ p.2.entry

theorem toList_treeLine (start depth : Nat) (i : Instruction) :
    (treeLine start depth i).toList = line start (depth, i) := by
  have plain : ∀ s : String, toString s = s := fun _ => rfl
  have width : (2 * ((start : Int) + depth)).toNat = 2 * (start + depth) := by omega
  simp [treeLine, line, entry, numeral, Int.toString_eq_repr, plain, width]

/-- The blanks at the beginning of a line are its margin. -/
theorem takeWhile_line (start : Nat) (p : Nat × Instruction) :
    (line start p).takeWhile (· = ' ') = List.replicate (2 * (start + p.1)) ' ' ∧
    (line start p).dropWhile (· = ' ') = p.2.entry := by
  obtain ⟨c, rest, entry, hc⟩ := p.2.exists_entry_eq_cons
  have blank : ∀ a ∈ List.replicate (2 * (start + p.1)) ' ', decide (a = ' ') = true := by
    intro a ha
    simp [List.eq_of_mem_replicate ha]
  rw [line, List.takeWhile_append_of_pos blank, List.dropWhile_append_of_pos blank, entry]
  simp [hc]

/-- A line tells the depth of the instruction, and all of it but what is inside. -/
theorem line_inj {start : Nat} {p q : Nat × Instruction} (h : line start p = line start q) :
    (p.1, p.2.shell) = (q.1, q.2.shell) := by
  obtain ⟨margin, entry⟩ := takeWhile_line start p
  obtain ⟨margin', entry'⟩ := takeWhile_line start q
  rw [h] at margin entry
  have width := congrArg List.length (margin.symm.trans margin')
  rw [List.length_replicate, List.length_replicate] at width
  have depth : p.1 = q.1 := by omega
  rw [depth, entry_inj (entry.symm.trans entry')]

theorem line_ne_nil (start : Nat) (p : Nat × Instruction) : line start p ≠ [] := by
  obtain ⟨c, rest, entry, -⟩ := p.2.exists_entry_eq_cons
  simp [line, entry]

theorem newline_not_mem_line {start : Nat} {p : Nat × Instruction}
    (h : ∀ name span, p.2 = leaf (.goto name) span → '\n' ∉ name.toList) :
    '\n' ∉ line start p := by
  simp [line, newline_not_mem_entry h]

/-! ## Trees -/

section trees

variable {program other : List Instruction} {start : Nat}

/-- The lines of the tree are those of the instructions. -/
theorem linesOf_tree (plain : EachLeaf Operation.OneLine program) (start : Nat) :
    linesOf (tree start program) = (walk program).map (line start) := by
  by_cases hempty : program = []
  · subst hempty
    rfl
  have nonempty : (walk program).map (line start) ≠ [] := by simpa using walk_ne_nil hempty
  have oneLine : ∀ row ∈ (walk program).map (line start), '\n' ∉ row := by
    intro row hrow
    obtain ⟨p, hp, rfl⟩ := List.mem_map.mp hrow
    exact newline_not_mem_line fun name span heq => plain.of_mem_walkListAt hp heq
  have split : rows (tree start program).toList = (walk program).map (line start) := by
    have joined : tree start program =
        "\n".intercalate ((walk program).map fun p => treeLine start p.1 p.2) := rfl
    have same : String.toList ∘ (fun p : Nat × Instruction => treeLine start p.1 p.2) =
        line start :=
      funext fun p => toList_treeLine start p.1 p.2
    rw [joined, String.toList_intercalate, List.map_map, same]
    exact List.splitOn_intercalate '\n' oneLine nonempty
  rw [linesOf, if_neg, split]
  intro htree
  have blank : [] ∈ (walk program).map (line start) := by
    rw [← split, htree]
    decide
  obtain ⟨p, -, hp⟩ := List.mem_map.mp blank
  exact line_ne_nil start p hp

/-- At one depth, no two programs have one tree. -/
theorem tree_inj (plain : EachLeaf Operation.OneLine program)
    (plain' : EachLeaf Operation.OneLine other) (h : tree start program = tree start other) :
    program = other := by
  have lines : (walk program).map (line start) = (walk other).map (line start) := by
    rw [← linesOf_tree plain, h, linesOf_tree plain']
  -- lines are not outlines, but an outline can be had from each of them
  have told : (fun p : Nat × Instruction => (p.1, p.2.shell)).FactorsThrough (line start) :=
    fun _ _ h => line_inj h
  obtain ⟨read, hread⟩ := (Function.factorsThrough_iff _).mp told
  have outlines := congrArg (List.map read) lines
  rw [List.map_map, List.map_map, ← hread] at outlines
  exact outline_inj outlines

/-! ## What a machine can show -/

variable {limits : Limits} {text : String}

/-- All numbers of that kind in the program can be written. -/
def CanWrite (limits : Limits) (numbers : Instruction → List Int) (program : List Instruction) :
    Prop :=
  ∀ p ∈ walk program, ∀ n ∈ numbers p.2, limits.canWrite n = true

/-- There is room for the margin of every line of the tree. -/
def HasMargins (limits : Limits) (start : Int) (program : List Instruction) : Prop :=
  ∀ p ∈ walk program, hasMargin limits (start + p.1) = true

theorem explainWithin_ok_iff {described : List (Span × String)} :
    explainWithin limits program = .ok described ↔
      CanWrite limits counts program ∧ described = explain program := by
  have explained : explainWithin limits program =
      if (walk program).all (·.2.counts.all limits.canWrite) then .ok (explain program)
      else .error .tooManyDigits := rfl
  have writable : (walk program).all (·.2.counts.all limits.canWrite) = true ↔
      CanWrite limits counts program := by simp [CanWrite]
  rw [← writable, explained]
  split
  next h => simp [h, eq_comm]
  next h => simp [h]

theorem treeLineWithin_ok_iff {start : Int} {depth : Nat} {i : Instruction} {row : String} :
    treeLineWithin limits start depth i = .ok row ↔
      (hasMargin limits (start + depth) = true ∧ ∀ n ∈ i.numbers, limits.canWrite n = true) ∧
        row = treeLine start depth i := by
  unfold treeLineWithin
  by_cases margin : hasMargin limits (start + depth) = true
  · by_cases writable : i.numbers.all limits.canWrite = true
    · have all := List.all_eq_true.mp writable
      rw [if_neg (by simp [margin]), if_pos writable]
      exact ⟨fun h => ⟨⟨margin, all⟩, (Except.ok.inj h).symm⟩, fun h => h.2 ▸ rfl⟩
    · simp [margin, writable, mt List.all_eq_true.mpr writable]
  · simp [margin]

/-- Lines that are made in turn are all made, or none is to be had. -/
theorem mapM_ok_iff {ι α ε : Type} {f : ι → Except ε α} {P : ι → Prop} {g : ι → α}
    (h : ∀ x a, f x = .ok a ↔ P x ∧ a = g x) (xs : List ι) (made : List α) :
    xs.mapM f = .ok made ↔ (∀ x ∈ xs, P x) ∧ made = xs.map g := by
  induction xs generalizing made with
  | nil => simp [pure, Except.pure, eq_comm]
  | cons x xs ih =>
    rw [List.mapM_cons]
    cases hx : f x with
    | error e =>
      have fails : ¬ P x := fun hp => by cases hx.symm.trans ((h x _).mpr ⟨hp, rfl⟩)
      simp [bind, Except.bind, fails]
    | ok a =>
      obtain ⟨hp, rfl⟩ := (h x a).mp hx
      cases hxs : xs.mapM f with
      | error e =>
        have fails : ¬ ∀ y ∈ xs, P y := fun hp => by cases hxs.symm.trans ((ih _).mpr ⟨hp, rfl⟩)
        simp [bind, Except.bind, fails]
      | ok rest =>
        obtain ⟨later, rfl⟩ := (ih rest).mp hxs
        have all : ∀ y ∈ x :: xs, P y := List.forall_mem_cons.mpr ⟨hp, later⟩
        simp only [bind, Except.bind, pure, Except.pure, Except.ok.injEq, List.map_cons]
        exact ⟨fun h => ⟨all, h.symm⟩, fun h => h.2.symm⟩

theorem treeWithin_ok_iff {start : Int} :
    treeWithin limits start program = .ok text ↔
      HasMargins limits start program ∧ CanWrite limits numbers program ∧
        text = tree start program := by
  have lines := fun rows => mapM_ok_iff (f := fun p => treeLineWithin limits start p.1 p.2)
    (fun p row => treeLineWithin_ok_iff) (walk program) rows
  have both : (∀ p ∈ walk program, hasMargin limits (start + p.1) = true ∧
      ∀ n ∈ p.2.numbers, limits.canWrite n = true) ↔
      HasMargins limits start program ∧ CanWrite limits numbers program := forall₂_and
  rw [← and_assoc, ← both, treeWithin]
  constructor
  · intro h
    cases hrows : (walk program).mapM fun p => treeLineWithin limits start p.1 p.2 with
    | error e =>
      rw [hrows] at h
      cases h
    | ok rows =>
      rw [hrows] at h
      obtain ⟨all, rfl⟩ := (lines rows).mp hrows
      cases h
      exact ⟨all, rfl⟩
  · rintro ⟨all, rfl⟩
    rw [(lines _).mpr ⟨all, rfl⟩]
    rfl

theorem hasMargins_of_room (h : limits.room = none) {start : Int} :
    HasMargins limits start program := by
  intro p _
  simp [hasMargin, h]

/-- A machine without limits shows everything. -/
theorem canWrite_unlimited (numbers : Instruction → List Int) (program : List Instruction) :
    CanWrite {} numbers program :=
  fun _ _ _ _ => rfl

/-! ## Descriptions -/

theorem describe_eq (i : Instruction) :
    i.describe = if i.rule ∈ ["Loop", "Instruction"] then none else some i.heading := by
  rcases i with ⟨⟨_ | _ | _ | _, count⟩ | _ | _ | name | _, span⟩ | ⟨body, span⟩ <;>
    simp [describe, describeOperation, rule, heading]

/-- All instructions but loops and those that mean nothing are described, in order. -/
theorem explain_eq (program : List Instruction) :
    explain program = ((walk program).filter fun p => p.2.rule ∉ ["Loop", "Instruction"]).map
      fun p => (p.2.span, p.2.heading) := by
  rw [explain, ← List.filterMap_eq_filter, List.map_filterMap]
  refine congrArg (List.filterMap · (walk program)) (funext fun (depth, i) => ?_)
  by_cases bare : i.rule ∈ ["Loop", "Instruction"]
  · simp [describe_eq, Option.guard, bare]
  · simp [describe_eq, Option.guard, bare]

/-- **Trees tell programs.** The walk, which can be had from a stack, is in the order of the text.
If no alias has a newline in its name, a tree that is shown has a line for each instruction on the
walk, two blanks for each level, and no other such program has that tree at that depth. The
descriptions that are shown are those of all instructions but loops and blanks. They are shown if
and only if every count can be written; and a tree needs every offset, length and count, which is
all that it needs where there is room for any margin. -/
theorem tree_tells_program (limits : Limits) (d : Nat) (program : List Instruction)
    (plain : EachLeaf Operation.OneLine program) :
    strolled [program] = walk program ∧
    (∀ text, treeWithin limits d program = .ok text →
      linesOf text = (walk program).map (fun p =>
        List.replicate (2 * (d + p.1)) ' ' ++ p.2.entry) ∧
      (∀ p ∈ walk program, p.2.entry.head? ≠ some ' ') ∧
      ∀ other, EachLeaf Operation.OneLine other → treeWithin limits d other = .ok text →
        other = program) ∧
    (∀ described, explainWithin limits program = .ok described →
      described = ((walk program).filter fun p => p.2.rule ∉ ["Loop", "Instruction"]).map
        fun p => (p.2.span, p.2.heading)) ∧
    ((∃ described, explainWithin limits program = .ok described) ↔
      CanWrite limits counts program) ∧
    ((∃ text, treeWithin limits d program = .ok text) → CanWrite limits numbers program) ∧
    (limits.room = none → CanWrite limits numbers program →
      ∃ text, treeWithin limits d program = .ok text) ∧
    (limits = {} → (∃ text, treeWithin limits d program = .ok text) ∧
      ∃ described, explainWithin limits program = .ok described) := by
  have shown : limits.room = none → CanWrite limits numbers program →
      ∃ text, treeWithin limits d program = .ok text := fun room writable =>
    ⟨_, treeWithin_ok_iff.mpr ⟨hasMargins_of_room room, writable, rfl⟩⟩
  refine ⟨strolled_eq_walk program, fun text htext => ?_, fun described h => ?_, ?_, ?_, shown,
    ?_⟩
  · obtain ⟨-, -, rfl⟩ := treeWithin_ok_iff.mp htext
    refine ⟨linesOf_tree plain d, fun p _ => ?_, fun other plain' h => ?_⟩
    · obtain ⟨c, rest, entry, hc⟩ := p.2.exists_entry_eq_cons
      simp [entry, hc]
    · exact tree_inj plain' plain (treeWithin_ok_iff.mp h).2.2.symm
  · rw [(explainWithin_ok_iff.mp h).2, explain_eq]
  · simp only [explainWithin_ok_iff, exists_and_left, exists_eq, and_true]
  · rintro ⟨text, h⟩
    exact (treeWithin_ok_iff.mp h).2.1
  · rintro rfl
    exact ⟨shown rfl (canWrite_unlimited _ _),
      _, explainWithin_ok_iff.mpr ⟨canWrite_unlimited _ _, rfl⟩⟩

/-- An empty loop in a loop, another one after both, and an alias that ends like a span. -/
theorem tree_tells_program_empties :
    EachLeaf Operation.OneLine [.loop [.loop [] ⟨1, 2⟩] ⟨0, 4⟩, .loop [] ⟨4, 2⟩,
      .leaf (.goto "a @1+1") ⟨6, 8⟩, .leaf .blank ⟨-1, 0⟩] ∧
    treeWithin .standard 1 [.loop [.loop [] ⟨1, 2⟩] ⟨0, 4⟩, .loop [] ⟨4, 2⟩,
      .leaf (.goto "a @1+1") ⟨6, 8⟩, .leaf .blank ⟨-1, 0⟩] =
      .ok "  Loop @0+4\n    Loop @1+2\n  Loop @4+2\n  Go to alias a @1+1 @6+8\n  None @-1+0" ∧
    ∀ other, EachLeaf Operation.OneLine other →
      treeWithin .standard 1 other =
        .ok "  Loop @0+4\n    Loop @1+2\n  Loop @4+2\n  Go to alias a @1+1 @6+8\n  None @-1+0" →
      other = [.loop [.loop [] ⟨1, 2⟩] ⟨0, 4⟩, .loop [] ⟨4, 2⟩,
        .leaf (.goto "a @1+1") ⟨6, 8⟩, .leaf .blank ⟨-1, 0⟩] := by
  have plain : EachLeaf Operation.OneLine [.loop [.loop [] ⟨1, 2⟩] ⟨0, 4⟩, .loop [] ⟨4, 2⟩,
      .leaf (.goto "a @1+1") ⟨6, 8⟩, .leaf .blank ⟨-1, 0⟩] :=
    .cons (.loop _ (.loop _ .nil)) <| .cons (.loop _ .nil) <|
      .cons (.leaf _ (show '\n' ∉ "a @1+1".toList by decide)) (.leaf _ trivial)
  have text : treeWithin .standard 1 [.loop [.loop [] ⟨1, 2⟩] ⟨0, 4⟩, .loop [] ⟨4, 2⟩,
      .leaf (.goto "a @1+1") ⟨6, 8⟩, .leaf .blank ⟨-1, 0⟩] =
      .ok "  Loop @0+4\n    Loop @1+2\n  Loop @4+2\n  Go to alias a @1+1 @6+8\n  None @-1+0" := by
    decide +kernel
  exact ⟨plain, text, (tree_tells_program .standard 1 _ plain).2.1 _ text |>.2.2⟩

/-- A count of 4301 digits cannot be shown. -/
theorem tree_beyond_limits :
    EachLeaf Operation.OneLine [.leaf (.counted .add (Int.pow 10 4300)) ⟨0, 2⟩] ∧
    treeWithin .standard 0 [.leaf (.counted .add (Int.pow 10 4300)) ⟨0, 2⟩] =
      .error .tooManyDigits ∧
    explainWithin .standard [.leaf (.counted .add (Int.pow 10 4300)) ⟨0, 2⟩] =
      .error .tooManyDigits := by
  refine ⟨.leaf _ trivial, ?_, ?_⟩
  · decide +kernel
  · decide +kernel

end trees

end Instruction

end NamedTape
