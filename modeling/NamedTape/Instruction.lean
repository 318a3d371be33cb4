import NamedTape.Span

/-!
# Instructions

A program is a list of instructions, and the body of a loop is one again.

* A leaf carries an operation; a loop repeats its body while the current cell is not zero.
* Counted operations repeat a step on the current cell or of the pointer. What is read from text
  counts one; merging sums the counts, and programs made otherwise may hold any integer.
-/

namespace NamedTape

/-- The operations that carry a count. -/
inductive Counted
  | add
  | subtract
  | left
  | right
deriving DecidableEq, Repr

/-- What a leaf does. -/
inductive Operation
  /-- Changes the current cell, or moves the pointer, by the count. -/
  | counted (kind : Counted) (count : Int)
  /-- Reads a byte into the current cell. -/
  | input
  /-- Writes the current cell. -/
  | output
  /-- Moves the pointer to the cell of an alias. -/
  | goto (name : String)
  /-- Means nothing: it can be listed, and running it is a fault. -/
  | blank
deriving DecidableEq, Repr

/-- An instruction, with the stretch of text it comes from. -/
inductive Instruction
  | leaf (operation : Operation) (span : Span)
  | loop (body : List Instruction) (span : Span)
deriving Repr, Inhabited

namespace Instruction

/-- The stretch of text that the instruction comes from. -/
def span : Instruction → Span
  | leaf _ span | loop _ span => span

/-- The body of a loop; a leaf has none. -/
def body : Instruction → List Instruction
  | leaf .. => []
  | loop body _ => body

/-- The name of the rule that carries the instruction out. -/
def rule : Instruction → String
  | leaf (.counted .add _) _ => "Add"
  | leaf (.counted .subtract _) _ => "Subtract"
  | leaf (.counted .left _) _ => "MoveLeft"
  | leaf (.counted .right _) _ => "MoveRight"
  | leaf .input _ => "Input"
  | leaf .output _ => "Output"
  | leaf (.goto _) _ => "Goto"
  | leaf .blank _ => "Instruction"
  | loop .. => "Loop"

mutual

/-- Whether two instructions are equal. -/
def decEq : (i j : Instruction) → Decidable (i = j)
  | leaf o s, leaf p t =>
    decidable_of_iff (o = p ∧ s = t) (by simp)
  | loop b s, loop c t =>
    match decEqList b c with
    | isTrue h => decidable_of_iff (s = t) (by simp [h])
    | isFalse h => isFalse (by simp [h])
  | leaf .., loop .. => isFalse (by simp)
  | loop .., leaf .. => isFalse (by simp)

/-- Whether two lists of instructions are equal. -/
def decEqList : (l m : List Instruction) → Decidable (l = m)
  | [], [] => isTrue rfl
  | i :: l, j :: m =>
    match decEq i j with
    | isTrue h =>
      match decEqList l m with
      | isTrue h' => isTrue (by simp [h, h'])
      | isFalse h' => isFalse (by simp [h'])
    | isFalse h => isFalse (by simp [h])
  | [], _ :: _ => isFalse (by simp)
  | _ :: _, [] => isFalse (by simp)

end

instance : DecidableEq Instruction := decEq

mutual

/-- How many loops the instruction nests. -/
def depth : Instruction → Nat
  | leaf .. => 0
  | loop body _ => depthList body + 1

/-- How many loops a list of instructions nests. -/
def depthList : List Instruction → Nat
  | [] => 0
  | i :: rest => max i.depth (depthList rest)

end

end Instruction

end NamedTape
