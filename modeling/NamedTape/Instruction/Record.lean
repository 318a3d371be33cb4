import NamedTape.Instruction
import NamedTape.Json

/-!
# Records

An instruction as a JSON object: its rule, its span, and then its count, its name or the records
of its body.
-/

namespace NamedTape.Instruction

/-- A span as a pair of numbers. -/
def spanJson (span : Span) : Json := .arr [.int span.offset, .int span.length]

/-- The fields that the record of an operation has beside rule and span. -/
def operandFields : Operation → List (String × Json)
  | .counted _ count => [("count", .int count)]
  | .goto name => [("name", .str name)]
  | .input | .output | .blank => []

mutual

/-- The record of an instruction. -/
def record : Instruction → Json
  | leaf operation span =>
    .obj ([("op", .str (leaf operation span).rule), ("span", spanJson span)] ++
      operandFields operation)
  | loop body span =>
    .obj [("op", .str "Loop"), ("span", spanJson span), ("body", .arr (recordList body))]

/-- The records of a list of instructions. -/
def recordList : List Instruction → List Json
  | [] => []
  | i :: rest => i.record :: recordList rest

end

end NamedTape.Instruction
