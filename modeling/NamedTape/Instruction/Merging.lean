import NamedTape.Instruction

/-!
# Merging

Neighbours with the same counted operation become one instruction.

* A run is a maximal stretch of neighbours with the same counted operation: it becomes one
  instruction with the sum of the counts, whose span covers those of the first and the last.
* Everything else stays in place and separates runs; loop bodies are merged on their own.
-/

namespace NamedTape.Instruction

/-- A run that is being gathered. -/
structure Run where
  kind : Counted
  count : Int
  span : Span
  /-- The span of the latest instruction, from the second one on. -/
  last : Option Span

namespace Run

/-- The run of one instruction. -/
def start (kind : Counted) (count : Int) (span : Span) : Run := ⟨kind, count, span, none⟩

/-- The run with one more instruction. -/
def extend (run : Run) (count : Int) (span : Span) : Run :=
  { run with count := run.count + count, last := some span }

/-- The one instruction that stands for the run. -/
def merged (run : Run) : Instruction :=
  .leaf (.counted run.kind run.count) (run.last.elim run.span run.span.cover)

end Run

/-- The instruction of the run that is being gathered, if there is one. -/
def closeRun (run : Option Run) : List Instruction :=
  (run.map Run.merged).toList

mutual

/-- The instruction with its body merged. -/
def mergeBody : Instruction → Instruction
  | leaf operation span => leaf operation span
  | loop body span => loop (mergeAfter none body) span

/-- Merges what follows the run. -/
def mergeAfter (run : Option Run) : List Instruction → List Instruction
  | [] => closeRun run
  | leaf (.counted kind count) span :: rest =>
    match run with
    | none => mergeAfter (some (.start kind count span)) rest
    | some r =>
      if r.kind = kind then mergeAfter (some (r.extend count span)) rest
      else r.merged :: mergeAfter (some (.start kind count span)) rest
  | i :: rest => closeRun run ++ i.mergeBody :: mergeAfter none rest

end

/-- The program with every run merged, at every depth. -/
def merge (program : List Instruction) : List Instruction := mergeAfter none program

end NamedTape.Instruction
