import NamedTape.CommandLine.Invocation
import NamedTape.Instruction.Listing
import NamedTape.Session.Execution
import NamedTape.Text.Newlines
import NamedTape.Traceback

/-!
# Outcomes

What an invocation comes to: what it prints and writes, and how it ends.

* The status is 0 for success, 1 for a fault of the program or of a file, 3 for an internal fault
  and 130 for a run that was called off.
* A setting whose option has no value is found out once the source is read, and so is a tape that
  there is no room for.
* A source file is UTF-8 text whose line ends are unified. Text given directly is taken as it is.
* What a program writes is printed as it comes, also before a fault.
-/

namespace NamedTape.CommandLine

/-- Why a file cannot be read or written: the system's number for it, and its words. -/
structure FileError where
  number : Nat
  text : String
deriving DecidableEq, Repr

/-- The text that explains an error with the file at the path. -/
def FileError.message (error : FileError) (path : String) : String :=
  s!"[Errno {error.number}] {error.text}: " ++ quoted path.toList

/-- What a file system answers: the bytes of a file, and whether a file can be written. -/
structure Files where
  read : String → Except FileError ByteArray
  write : String → Option FileError

/-- How an invocation ends. -/
inductive Ending
  | status (code : Nat)
  /-- The source file is no UTF-8 text. -/
  | undecodable
  /-- A failure that nothing deals with. -/
  | escaped (failure : Foreign)
deriving DecidableEq, Repr

/-- What an invocation comes to. -/
structure Outcome where
  ending : Ending
  stdout : Array UInt8 := #[]
  stderr : String := ""
  /-- The file that is written, with its new text. -/
  written : Option (String × String) := none
deriving DecidableEq, Repr

namespace Outcome

/-- Success with a text to print. -/
def printed (text : String) : Outcome :=
  { ending := .status 0, stdout := (text ++ "\n").toUTF8.data }

/-- The end of an invocation at a complaint. -/
def complained (code : Nat) (complaint : String) (stdout : Array UInt8 := #[]) : Outcome :=
  { ending := .status code, stdout, stderr := complaint ++ "\n" }

/-- The end of an invocation at a file that cannot be written. -/
def unwritten (path : String) (error : FileError) : Outcome :=
  .complained 1 ("Failed to write " ++ path ++ ": " ++ error.message path)

/-- The end of an invocation at a path that is no path. -/
def badPath : Outcome := { ending := .escaped (.host "ValueError" "embedded null byte") }

end Outcome

/-- Whether a path has a character that no path can have. -/
def hasNull (path : String) : Bool := path.contains '\x00'

/-- The status for a fault. -/
def statusOf (fault : Fault) : Nat :=
  match fault.cause.family with
  | .internal => 3
  | .cancelled => 130
  | .general | .parse | .runtime => 1

/-- The most loops that may be nested in one another for JSON output. -/
def maxNesting : Nat := 490

namespace Invocation

/-- The source that is asked for, and the name of its file. -/
def source (inv : Invocation) (files : Files) : Except Outcome (String × String) :=
  if inv.literal then .ok (inv.program, "<string>")
  else if hasNull inv.program then .error .badPath
  else match files.read inv.program with
    | .error e =>
      .error (.complained 1 ("Failed to read " ++ inv.program ++ ": " ++ e.message inv.program))
    | .ok bytes =>
      match String.fromUTF8? bytes with
      | none => .error { ending := .undecodable }
      | some text => .ok (String.ofList (unifyNewlines text.toList), inv.program)

/-- The size and the rules of the tape that is asked for, or why there can be no such tape. -/
def tapeForm (inv : Invocation) : Except Foreign (Nat × CellRule × EdgeRule) :=
  match inv.edgeRule, inv.cellRule, inv.tapeSize with
  | none, _, _ => .error (.host "ValueError" "[] is not a valid TapePolicy")
  | _, none, _ => .error (.host "ValueError" "[] is not a valid CellPolicy")
  | _, _, none =>
    .error (.host "TypeError" "'<=' not supported between instances of 'list' and 'int'")
  | some edgeRule, some cellRule, some size =>
    if Limits.standard.hasRoom size then .ok (size, cellRule, edgeRule) else .error (.noRoom size)

/-- The session in which a source is run on a tape. -/
def session (inv : Invocation) (tape : Tape) (device : Device) (source filename : String) :
    Session Unit :=
  { options := inv.options
    source
    filename
    store := {
      tape
      aliases := {}
      device
      host := () }
    log := { verbose := inv.verbose } }

/-- The end of an invocation at a text that is no program: a diagnostic. -/
def misread (source filename : String) (fault : Fault) : Outcome :=
  .complained (statusOf fault) (Diagnostic.ofFault fault source filename).render

/-- The end of an invocation at a fault: a diagnostic for a text that is no program, and else a
traceback. -/
def faulted (inv : Invocation) (s : Session Unit) (fault : Fault) : Outcome :=
  if fault.cause.family = .parse then misread s.source s.filename fault
  else
    let json := if inv.jsonTraceback then "\n" ++ (s.tracebackJson fault).render else ""
    .complained (statusOf fault) (s.traceback inv.verbose fault ++ json) s.store.device.output

/-- Prints the text, or writes it to the file that is asked for. -/
def deliver (inv : Invocation) (files : Files) (text : String) : Outcome :=
  match inv.output with
  | none | some "" => .printed text
  | some path =>
    if hasNull path then .badPath
    else match files.write path with
      | some e => .unwritten path e
      | none => { ending := .status 0, written := some (path, text ++ "\n") }

/-- Compiles a program. -/
def compile (inv : Invocation) (files : Files) (program : List Instruction) : Outcome :=
  if inv.tree then inv.deliver files (Instruction.tree 0 program)
  else if maxNesting < Instruction.depthList program then
    .complained 1 "Loops are nested too deeply for JSON output; use --tree instead"
  else inv.deliver files (Json.arr (Instruction.recordList program)).render

/-- The line of a description in the explanation of a text. -/
def explanation (text : List Char) (filename : String) (span : Span) (description : String) :
    String :=
  let location := Location.ofText text span filename
  s!"  {location.line}:{location.column}  " ++ padRight 12 (quoted (span.slice text)) ++ " " ++
    description

/-- Explains the program that a source writes. -/
def explain (source filename : String) (program : List Instruction) : Outcome :=
  let text := source.toList
  .printed ("\n".intercalate (("Info sheet for " ++ filename) ::
    (Instruction.explain program).map fun (span, description) =>
      explanation text filename span description))

/-- What a run comes to, if it has ended. -/
def ran (inv : Invocation) : EStateM.Result Raised (Session Unit) Session.Mode → Option Outcome
  | .ok .finished s => some { ending := .status 0, stdout := s.store.device.output }
  | .ok _ _ => none
  | .error (.fault fault) s => some (inv.faulted s fault)
  | .error .interrupt s =>
    some (.complained 130 "\nExecutionCancelled: interrupted" s.store.device.output)
  | .error (.foreign failure) s =>
    some { ending := .escaped failure, stdout := s.store.device.output }

/-- What an invocation comes to on a source; running is left out. -/
def examine (inv : Invocation) (files : Files) (source filename : String) : Outcome :=
  match inv.options.read source filename with
  | .error fault => misread source filename fault
  | .ok program =>
    if inv.command = .compile then inv.compile files program.instructions
    else explain source filename program.instructions

/-- What an invocation comes to, if a run ends within the given number of moves. -/
def perform (inv : Invocation) (fuel : Nat) (files : Files) (device : Device) : Option Outcome :=
  match inv.source files with
  | .error outcome => some outcome
  | .ok (source, filename) =>
    match inv.tapeForm with
    | .error failure => some { ending := .escaped failure }
    | .ok (size, cellRule, edgeRule) =>
      if inv.command = .run then
        let tape := Tape.confined size cellRule edgeRule
        inv.ran ((inv.session tape device source filename).runFor fuel)
      else some (inv.examine files source filename)

end Invocation

end NamedTape.CommandLine
