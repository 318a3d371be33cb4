import NamedTape.Instruction
import NamedTape.Limits

/-!
# Listings

The instructions of a program in the order of its text, each with the number of loops around it,
and what is printed from that order: descriptions, and an indented tree. Both show numbers, which
a machine with limits may not be able to write.
-/

namespace NamedTape.Instruction

mutual

/-- The instruction and all inside it, in order, with the loops around each. -/
def walkAt (depth : Nat) : Instruction → List (Nat × Instruction)
  | leaf operation span => [(depth, leaf operation span)]
  | loop body span => (depth, loop body span) :: walkListAt (depth + 1) body

/-- The instructions of a list and all inside them, in order, with the loops around each. -/
def walkListAt (depth : Nat) : List Instruction → List (Nat × Instruction)
  | [] => []
  | i :: rest => i.walkAt depth ++ walkListAt depth rest

end

theorem walkListAt_leaf (depth : Nat) (operation : Operation) (span : Span)
    (rest : List Instruction) :
    walkListAt depth (leaf operation span :: rest) =
      (depth, leaf operation span) :: walkListAt depth rest := by
  rw [walkListAt, walkAt, List.singleton_append]

theorem walkListAt_loop (depth : Nat) (body : List Instruction) (span : Span)
    (rest : List Instruction) :
    walkListAt depth (loop body span :: rest) =
      (depth, loop body span) :: (walkListAt (depth + 1) body ++ walkListAt depth rest) := by
  rw [walkListAt, walkAt, List.cons_append]

/-- All instructions of a program in the order of its text, with the loops around each. -/
def walk (program : List Instruction) : List (Nat × Instruction) := walkListAt 0 program

/-- What an operation does, in words; a blank does nothing to speak of. -/
def describeOperation : Operation → Option String
  | .counted .add count => some s!"Add {count}"
  | .counted .subtract count => some s!"Subtract {count}"
  | .counted .left count => some s!"Move left {count} spaces"
  | .counted .right count => some s!"Move right {count} spaces"
  | .input => some "Take input"
  | .output => some "Write output"
  | .goto name => some ("Go to alias " ++ name)
  | .blank => none

/-- What an instruction does, in words; a loop is described by its body. -/
def describe : Instruction → Option String
  | leaf operation _ => describeOperation operation
  | loop .. => none

/-- The described instructions of a program in order. -/
def explain (program : List Instruction) : List (Span × String) :=
  (walk program).filterMap fun (_, i) => i.describe.map (i.span, ·)

/-- The headline of an instruction in the tree. -/
def heading : Instruction → String
  | leaf operation _ => (describeOperation operation).getD "None"
  | loop .. => "Loop"

/-- The line of an instruction in a tree that starts at the given depth. -/
def treeLine (start : Int) (depth : Nat) (i : Instruction) : String :=
  String.ofList (List.replicate (2 * (start + depth)).toNat ' ') ++ i.heading ++
    s!" @{i.span.offset}+{i.span.length}"

/-- The program as a tree: a line per instruction, two blanks a level. -/
def tree (start : Int) (program : List Instruction) : String :=
  "\n".intercalate ((walk program).map fun (depth, i) => treeLine start depth i)

/-- The numbers that the description of an instruction shows. -/
def counts : Instruction → List Int
  | leaf (.counted _ count) _ => [count]
  | _ => []

/-- The described instructions of a program in order, if a machine can write them. -/
def explainWithin (limits : Limits) (program : List Instruction) :
    Except Foreign (List (Span × String)) :=
  if (walk program).all fun (_, i) => i.counts.all limits.canWrite then .ok (explain program)
  else .error .tooManyDigits

/-- The numbers in the entry of an instruction. -/
def numbers (i : Instruction) : List Int := i.span.offset :: i.span.length :: i.counts

/-- Whether a machine can write the margin of a line at the given depth. -/
def hasMargin (limits : Limits) (depth : Int) : Bool :=
  limits.room.isNone || WordFit.of depth = .signed && limits.hasRoom (2 * depth).toNat

/-- The line of an instruction, if a machine can write it. The margin is made first. -/
def treeLineWithin (limits : Limits) (start : Int) (depth : Nat) (i : Instruction) :
    Except Foreign String :=
  if !hasMargin limits (start + depth) then .error (.noMargin (start + depth))
  else if i.numbers.all limits.canWrite then .ok (treeLine start depth i)
  else .error .tooManyDigits

/-- The program as a tree, if a machine can write its lines, which are made in order. -/
def treeWithin (limits : Limits) (start : Int) (program : List Instruction) :
    Except Foreign String :=
  "\n".intercalate <$> (walk program).mapM fun (depth, i) => treeLineWithin limits start depth i

end NamedTape.Instruction
