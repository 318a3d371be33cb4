import NamedTape.Fault
import NamedTape.Location

/-!
# Diagnostics

A message with the place it is about: a headline with file, line and column, the line, and carets
under the part of the line that is meant.
-/

namespace NamedTape

/-- The line of a location, with carets under the part of the span that lies on it. There is at
least one caret, and nothing at all for an empty line. -/
def excerpt (location : Location) (span : Span) : List String :=
  if location.statement = "" then []
  else
    let indent := location.column - 1
    let available : Int := location.statement.length - indent
    let width := (max 1 (min span.length available)).toNat
    ["    " ++ location.statement,
      String.ofList (List.replicate (4 + indent) ' ' ++ List.replicate width '^')]

/-- The file, line and column of a location, as a headline gives them. -/
def Location.headline (location : Location) : String :=
  s!"  File \"{location.file}\", line {location.line}, col {location.column}"

/-- A message of some kind about a stretch of a source text, if it is known. -/
structure Diagnostic where
  kind : String := "BFEMError"
  message : String
  span : Option Span
  source : String
  filename : String := "<string>"
deriving DecidableEq, Repr

namespace Diagnostic

/-- What is to be said about a fault in a source text. -/
def ofFault (fault : Fault) (source filename : String) : Diagnostic :=
  { kind := fault.cause.label
    message := fault.cause.message
    span := fault.span
    source
    filename }

/-- The text of a diagnostic. -/
def render (d : Diagnostic) : String :=
  let place := match d.span with
    | none => []
    | some span =>
      let location := Location.ofSpan d.source span d.filename
      location.headline :: excerpt location span
  "\n".intercalate (place ++ [d.kind ++ ": " ++ d.message])

end Diagnostic

end NamedTape
