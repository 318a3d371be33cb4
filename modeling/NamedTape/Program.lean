import NamedTape.Instruction.Merging

/-!
# Programs

A program with the names of its aliases, and the text it comes from.
-/

namespace NamedTape

/-- A program: its instructions, the aliases it names in the order of their first use, and the text
and the file it comes from. -/
structure Program where
  instructions : List Instruction
  aliasNames : List String := []
  source : String := ""
  filename : String := "<string>"
deriving DecidableEq, Repr

/-- The program with its runs merged. -/
def Program.merged (program : Program) : Program :=
  { program with instructions := Instruction.merge program.instructions }

end NamedTape
