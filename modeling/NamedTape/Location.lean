import NamedTape.Span

/-!
# Locations

A place in a text as people name it: file, line, column, and the line itself.

* Only the newline character ends a line; carriage returns at the end of a line are not shown.
* Lines and columns count from one, columns in characters.
-/

namespace NamedTape

/-- A line and column of a file, with the text of that line. -/
structure Location where
  file : String
  line : Nat
  column : Nat
  statement : String
deriving DecidableEq, Repr

/-- The text without the carriage returns at its end. -/
def dropTrailingReturns (line : List Char) : List Char :=
  (line.reverse.dropWhile (· == '\r')).reverse

/-- An offset brought into the range `0 … length`. -/
def clampOffset (offset : Int) (length : Nat) : Nat :=
  min offset.toNat length

/-- Where in the text the span begins; an offset off the text counts as the nearest one on it. -/
def Location.ofText (text : List Char) (span : Span) (file : String) : Location :=
  let offset := clampOffset span.offset text.length
  let before := text.take offset
  let lineHead := (before.reverse.takeWhile (· != '\n')).reverse
  let lineTail := (text.drop offset).takeWhile (· != '\n')
  { file := file
    line := before.count '\n' + 1
    column := lineHead.length + 1
    statement := String.ofList (dropTrailingReturns (lineHead ++ lineTail)) }

/-- Where in the source the span begins. -/
def Location.ofSpan (source : String) (span : Span) (file : String) : Location :=
  .ofText source.toList span file

end NamedTape
