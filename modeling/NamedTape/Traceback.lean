import NamedTape.Diagnostic
import NamedTape.Instruction.Record
import NamedTape.Session

/-!
# Tracebacks

Where a session stood when a fault ended its run: the frames on its stack, the outermost first,
each with its latest step, and the fault itself; as text and as a JSON document.
-/

namespace NamedTape

/-- A line of a traceback: a frame with its latest step. -/
structure TraceLine where
  name : String
  location : Option Location
  span : Option Span
  entry : Option (Entry Nat)

namespace Session

variable {σ : Type}

/-- Where a span begins in the source of the session. -/
def locate (s : Session σ) (span : Span) : Location := .ofSpan s.source span s.filename

/-- The name of a frame in a traceback: a loop is told by its place. -/
def lineName (s : Session σ) (frame : Frame) : String :=
  match frame.loop with
  | none => frame.name
  | some span =>
    let location := s.locate span
    s!"loop@{location.line}:{location.column}"

/-- The line of a frame: it stands at its latest step, or else at its loop. -/
def traceLine (s : Session σ) (frame : Frame) : TraceLine :=
  let entry := s.log.lastOf frame.id
  let span := match entry with
    | some entry => entry.span
    | none => frame.loop
  { name := s.lineName frame, location := span.map s.locate, span, entry }

/-- The lines of a traceback, the outermost first. -/
def traceLines (s : Session σ) : List TraceLine := s.stack.reverse.map s.traceLine

/-- The text of a line of a traceback; `pointed` is the part of the source to show. -/
def traceText (s : Session σ) (verbose : Bool) (pointed : Option Span) (line : TraceLine) :
    List String :=
  let place := match line.location with
    | none => ["  <unknown location> in " ++ line.name]
    | some location =>
      (location.headline ++ ", in " ++ line.name) ::
        (pointed.elim [] fun span => excerpt (s.locate span) span)
  let step := match line.entry with
    | none => []
    | some entry =>
      s!"    State log index: {entry.step}  State id: {entry.state}" ::
        (match verbose, entry.snapshot with
          | true, some snapshot => ["    Tape snapshot: " ++ snapshot]
          | _, _ => [])
  place ++ step

/-- The text of the lines: the innermost one shows the part of the source that the fault is
attributed to, if it is known. -/
def traceTexts (s : Session σ) (verbose : Bool) (fault : Fault) : List TraceLine → List String
  | [] => []
  | [line] => s.traceText verbose (fault.span <|> line.span) line
  | line :: rest => s.traceText verbose line.span line ++ s.traceTexts verbose fault rest

/-- The bindings of the session's aliases in one line, if there are any. -/
def bindingsText (s : Session σ) : List String :=
  match s.store.aliases.bindings with
  | [] => []
  | bindings =>
    ["Aliases: " ++ ", ".intercalate (bindings.map fun (name, address) => s!"{name}={address}")]

/-- The traceback of a fault as text. -/
def traceback (s : Session σ) (verbose : Bool) (fault : Fault) : String :=
  "\n".intercalate (["Traceback (most recent call last):"] ++
    s.traceTexts verbose fault s.traceLines ++
    (if verbose then s.bindingsText else []) ++
    [fault.cause.label ++ ": " ++ fault.cause.message])

/-- The fields of a line of a traceback; `index` is its number. -/
def traceFields (index : Nat) (line : TraceLine) : Json :=
  let place := match line.location with
    | none => []
    | some location =>
      [("source_location", Json.obj [("file", .str location.file), ("line", .int location.line),
        ("column", .int location.column), ("statement", .str location.statement)])]
  let step := match line.entry with
    | none => []
    | some entry =>
      [("state_id", Json.str entry.state), ("step_index", .int entry.step),
        ("rule", .str entry.rule)] ++
        (entry.snapshot.elim [] fun snapshot => [("tape_snapshot", .str snapshot)])
  .obj ([("frame_index", .int index), ("name", .str line.name)] ++ place ++ step)

/-- The traceback of a fault as a JSON document. -/
def tracebackJson (s : Session σ) (fault : Fault) : Json :=
  .obj [
    ("error", .obj [
      ("type", .str fault.cause.label),
      ("message", .str fault.cause.message),
      ("span", fault.span.elim .null Instruction.spanJson),
      ("failing_step_index", fault.step.elim .null .int)]),
    ("traceback", .arr (s.traceLines.mapIdx traceFields)),
    ("aliases", .obj (s.store.aliases.bindings.map fun (name, address) => (name, .int address)))]

end Session

end NamedTape
