import NamedTape.Fault
import NamedTape.Program

/-!
# Reading programs

A text is read character by character into a draft; a finished draft is a program.

* `+ - < > , .` are operations, `[` and `]` enclose loops, and a name in braces is an alias. Blanks
  separate all of these, if the dialect skips them.
* The name of an alias runs to the next closing brace and may hold any other character.
* The first character that cannot stand where it stands is a fault, and so is the end of the text
  inside an alias or a loop.
-/

namespace NamedTape

/-- What a text may contain beside operations and loops. -/
structure Dialect where
  aliases : Bool := true
  skipBlanks : Bool := true
deriving DecidableEq, Repr

/-- The blanks that a dialect may skip. -/
def isBlank (c : Char) : Bool :=
  c == ' ' || c == '\t' || c == '\r' || c == '\n'

/-- The operation that a character stands for. -/
def operation? (c : Char) : Option Operation :=
  match c with
  | '+' => some (.counted .add 1)
  | '-' => some (.counted .subtract 1)
  | '<' => some (.counted .left 1)
  | '>' => some (.counted .right 1)
  | ',' => some .input
  | '.' => some .output
  | _ => none

/-- A loop that is not closed yet: where it opens, and what stands before it in its list, the
latest first. -/
structure OpenLoop where
  start : Nat
  before : List Instruction

/-- An alias that is not closed yet: where it opens, and its name so far, the latest first. -/
structure OpenAlias where
  start : Nat
  name : List Char

/-- What has been read of a program. -/
structure Draft where
  /-- How many characters have been read. -/
  offset : Nat := 0
  /-- The alias that is being read. -/
  openAlias : Option OpenAlias := none
  /-- The open loops, the innermost first. -/
  openLoops : List OpenLoop := []
  /-- The instructions of the innermost open loop so far, the latest first. -/
  current : List Instruction := []
  /-- The aliases named so far, in the order of their first use. -/
  aliasNames : List String := []

namespace Draft

/-- A fault at the character at the offset. -/
def faultAt (offset : Nat) (cause : Cause) : Fault := { cause, span := some ⟨offset, 1⟩ }

/-- The draft after one more character. -/
def advance (draft : Draft) : Draft := { draft with offset := draft.offset + 1 }

/-- The draft with one more instruction. -/
def push (draft : Draft) (i : Instruction) : Draft :=
  { draft with current := i :: draft.current }

/-- Opens a loop at the character that is being read. -/
def openLoop (draft : Draft) : Draft :=
  { draft with openLoops := ⟨draft.offset, draft.current⟩ :: draft.openLoops, current := [] }

/-- Closes the innermost loop at the character that is being read. -/
def closeLoop (draft : Draft) : Except Fault Draft :=
  match draft.openLoops with
  | [] => .error (faultAt draft.offset (.unrecognized ']' .unopened))
  | loop :: outer =>
    let span := ⟨loop.start, draft.offset + 1 - loop.start⟩
    .ok { draft with
      openLoops := outer
      current := .loop draft.current.reverse span :: loop.before }

/-- Closes the alias at the character that is being read. -/
def closeAlias (draft : Draft) (opened : OpenAlias) : Draft :=
  let name := String.ofList opened.name.reverse
  let span := ⟨opened.start, draft.offset + 1 - opened.start⟩
  let names := draft.aliasNames
  { draft with
    openAlias := none
    current := .leaf (.goto name) span :: draft.current
    aliasNames := if names.contains name then names else names ++ [name] }

/-- Reads a character of an alias. -/
def feedAlias (draft : Draft) (opened : OpenAlias) (c : Char) : Draft :=
  if c = '}' then draft.closeAlias opened
  else { draft with openAlias := some { opened with name := c :: opened.name } }

/-- Reads a character outside aliases. -/
def feedPlain (dialect : Dialect) (draft : Draft) (c : Char) : Except Fault Draft :=
  if c = '[' then .ok draft.openLoop
  else if c = ']' then draft.closeLoop
  else if dialect.skipBlanks && isBlank c then .ok draft
  else match operation? c with
    | some operation => .ok (draft.push (.leaf operation ⟨draft.offset, 1⟩))
    | none =>
      if c = '{' then
        if dialect.aliases then .ok { draft with openAlias := some ⟨draft.offset, []⟩ }
        else .error (faultAt draft.offset (.unrecognized c .aliasesDisabled))
      else .error (faultAt draft.offset (.unrecognized c .meaningless))

/-- Reads the next character. -/
def feed (dialect : Dialect) (draft : Draft) (c : Char) : Except Fault Draft :=
  match draft.openAlias with
  | some opened => .ok (draft.feedAlias opened c).advance
  | none => (draft.feedPlain dialect c).map advance

/-- The instructions and alias names of a draft at the end of its text. -/
def finish (draft : Draft) : Except Fault (List Instruction × List String) :=
  match draft.openAlias, draft.openLoops with
  | some opened, _ => .error (faultAt opened.start .unterminatedAlias)
  | none, loop :: _ => .error (faultAt loop.start .unbalancedLoop)
  | none, [] => .ok (draft.current.reverse, draft.aliasNames)

end Draft

/-- The program that a text writes. -/
def Program.read (dialect : Dialect) (source filename : String) : Except Fault Program := do
  let draft ← source.toList.foldlM (Draft.feed dialect) {}
  let (instructions, aliasNames) ← draft.finish
  return { instructions, aliasNames, source, filename }

end NamedTape
