import NamedTape.Instruction.Listing
import NamedTape.Proofs.Throughout

/-!
# The outline of a program

The outline of a program has an entry for each instruction in the order of the text: how many loops
there are around it, and the instruction without what is inside it.

* The order can be had without recursion, from a stack of the lists that have been begun, the
  innermost first (`strolled_eq_walk`). What is left of them is there to be gone on with when a body
  ends.
* The outline tells the program (`outline_inj`). An entry that is not deeper than a loop ends the
  body of it, so that where the bodies end can be seen from the depths, empty bodies and ends of
  several at once included.
-/

namespace NamedTape

namespace Instruction

/-! ## Walking with a stack -/

/-- The instructions in lists that have been begun, the innermost first. An instruction has as many
loops around it as there are lists further out. -/
def strolled : List (List Instruction) → List (Nat × Instruction)
  | [] => []
  | [] :: outer => strolled outer
  | (leaf operation span :: rest) :: outer =>
    (outer.length, leaf operation span) :: strolled (rest :: outer)
  | (loop body span :: rest) :: outer =>
    (outer.length, loop body span) :: strolled (body :: rest :: outer)

/-- The innermost list is walked to its end before the others are gone on with. -/
theorem strolled_cons (l : List Instruction) (outer : List (List Instruction)) :
    strolled (l :: outer) = walkListAt outer.length l ++ strolled outer := by
  match l with
  | [] => rw [strolled, walkListAt, List.nil_append]
  | leaf operation span :: rest =>
    rw [strolled, strolled_cons rest outer, walkListAt_leaf, List.cons_append]
  | loop body span :: rest =>
    rw [strolled, strolled_cons body (rest :: outer), strolled_cons rest outer, walkListAt_loop,
      List.cons_append, List.append_assoc, List.length_cons]

theorem strolled_eq_walk (program : List Instruction) : strolled [program] = walk program := by
  rw [strolled_cons, strolled, List.append_nil]
  rfl

theorem walkListAt_cons (depth : Nat) (i : Instruction) (rest : List Instruction) :
    walkListAt depth (i :: rest) =
      (depth, i) :: (walkListAt (depth + 1) i.body ++ walkListAt depth rest) := by
  cases i with
  | leaf operation span => rw [walkListAt_leaf, body, walkListAt, List.nil_append]
  | loop body span => exact walkListAt_loop ..

theorem walk_ne_nil {program : List Instruction} (h : program ≠ []) : walk program ≠ [] := by
  obtain ⟨i, rest, rfl⟩ := List.exists_cons_of_ne_nil h
  rw [walk, walkListAt_cons]
  exact List.cons_ne_nil _ _

/-- What is on the walk is in the list, or on the walk of a body in it. -/
theorem mem_walkListAt {l : List Instruction} {depth : Nat} {p : Nat × Instruction} :
    p ∈ walkListAt depth l ↔ ∃ i ∈ l, p = (depth, i) ∨ p ∈ walkListAt (depth + 1) i.body := by
  induction l with
  | nil => simp [walkListAt]
  | cons i rest ih => simp [walkListAt_cons, ih, or_assoc]

/-- What holds of the operation of each leaf holds of each leaf on the walk. -/
theorem EachLeaf.of_mem_walkListAt {P : Operation → Prop} {l : List Instruction} {depth : Nat}
    {p : Nat × Instruction} (h : EachLeaf P l) (hp : p ∈ walkListAt depth l)
    {operation : Operation} {span : Span} (heq : p.2 = .leaf operation span) : P operation := by
  induction h generalizing depth with
  | intro here _ ih =>
    obtain ⟨i, hi, rfl | hp⟩ := mem_walkListAt.mp hp
    · exact here operation span (heq ▸ hi)
    · cases i with
      | leaf operation' span' =>
        rw [body, walkListAt] at hp
        exact absurd hp List.not_mem_nil
      | loop body span' => exact ih body span' hi hp

/-! ## Outlines -/

/-- The instruction without what is inside it. -/
def shell : Instruction → Instruction
  | leaf operation span => leaf operation span
  | loop _ span => loop [] span

/-- The depths and shells of the instructions in a list and inside them. -/
def outline (depth : Nat) (l : List Instruction) : List (Nat × Instruction) :=
  (walkListAt depth l).map fun p => (p.1, p.2.shell)

theorem outline_cons (depth : Nat) (i : Instruction) (rest : List Instruction) :
    outline depth (i :: rest) =
      (depth, i.shell) :: (outline (depth + 1) i.body ++ outline depth rest) := by
  simp only [outline, walkListAt_cons, List.map_cons, List.map_append]

/-- The entries that come next are not as deep as that. -/
def Outside (depth : Nat) (entries : List (Nat × Instruction)) : Prop :=
  ∀ entry ∈ entries.head?, entry.1 < depth

section outside

variable {depth : Nat} {entries : List (Nat × Instruction)}

theorem outside_nil : Outside depth [] := nofun

theorem Outside.not_cons {i : Instruction} : ¬ Outside depth ((depth, i) :: entries) :=
  fun h => Nat.lt_irrefl _ (h _ rfl)

/-- What follows a body is outside of it: the rest of the list around it, and what follows that. -/
theorem Outside.after (h : Outside depth entries) (l : List Instruction) :
    Outside (depth + 1) (outline depth l ++ entries) := by
  intro entry hentry
  cases l with
  | nil => exact Nat.lt_succ_of_lt (h entry hentry)
  | cons i rest =>
    rw [outline_cons, List.cons_append, List.head?_cons] at hentry
    cases hentry
    exact Nat.lt_succ_self depth

end outside

theorem eq_of_shell_eq {i j : Instruction} (hs : i.shell = j.shell) (hb : i.body = j.body) :
    i = j := by
  cases i <;> cases j <;> cases hs <;> cases hb <;> rfl

theorem sizeOf_body_lt (i : Instruction) (rest : List Instruction) :
    sizeOf i.body < sizeOf (i :: rest) := by
  cases i with
  | leaf operation span => simp [Instruction.body]; omega
  | loop body span => simp [Instruction.body]; omega

/-- A list can be told from entries that begin with its outline, up to where these go outside. -/
theorem outline_append_inj {depth : Nat} {l m : List Instruction}
    {after after' : List (Nat × Instruction)} (outside : Outside depth after)
    (outside' : Outside depth after') (h : outline depth l ++ after = outline depth m ++ after') :
    l = m ∧ after = after' := by
  match l, m with
  | [], [] => exact ⟨rfl, h⟩
  | [], j :: below =>
    rw [outline_cons] at h
    subst h
    exact absurd outside Outside.not_cons
  | i :: rest, [] =>
    rw [outline_cons] at h
    subst h
    exact absurd outside' Outside.not_cons
  | i :: rest, j :: below =>
    rw [outline_cons, outline_cons, List.cons_append, List.cons_append, List.append_assoc,
      List.append_assoc] at h
    obtain ⟨entry, inner⟩ := List.cons.inj h
    -- the bodies come first, each with the rest of its list behind it
    have := sizeOf_body_lt i rest
    obtain ⟨bodies, outer⟩ :=
      outline_append_inj (outside.after rest) (outside'.after below) inner
    obtain ⟨rfl, follows⟩ := outline_append_inj outside outside' outer
    have same := eq_of_shell_eq (Prod.mk.inj entry).2 bodies
    exact ⟨by rw [same], follows⟩
termination_by sizeOf l

/-- **Outlines tell programs.** -/
theorem outline_inj {depth : Nat} {l m : List Instruction}
    (h : outline depth l = outline depth m) : l = m := by
  have same : outline depth l ++ [] = outline depth m ++ [] := by rw [h]
  exact (outline_append_inj outside_nil outside_nil same).1

end Instruction

end NamedTape
