import NamedTape.CommandLine.Outcome

/-!
# The program

The command line of the library: files, standard streams, and the loop that keeps a run going. A
run that waits for a byte is given the next one of standard input.
-/

namespace NamedTape.CommandLine

/-- The system's number in an error, which may stand there with a minus sign. -/
def systemNumber (code : UInt32) : Nat :=
  if code < 0x80000000 then code.toNat else (0 - code).toNat

/-- The system's number and words for what keeps a file from being used. -/
def fileError : IO.Error → FileError
  | .noFileOrDirectory .. => ⟨2, "No such file or directory"⟩
  | .permissionDenied .. => ⟨13, "Permission denied"⟩
  | .inappropriateType _ code _ =>
    if systemNumber code = 20 then ⟨20, "Not a directory"⟩ else ⟨21, "Is a directory"⟩
  | .invalidArgument _ code _ =>
    if systemNumber code = 36 then ⟨36, "File name too long"⟩ else ⟨22, "Invalid argument"⟩
  | _ => ⟨5, "Input/output error"⟩

/-- Prints the part of a program's output that is not printed yet. -/
def printFrom (printed : Nat) (output : Array UInt8) : IO Unit := do
  if printed < output.size then
    let stdout ← IO.getStdout
    stdout.write ⟨output.extract printed output.size⟩
    stdout.flush

/-- Prints an outcome, part of whose output is printed already, and gives its exit status. -/
def Outcome.present (outcome : Outcome) (printed : Nat) : IO UInt32 := do
  printFrom printed outcome.stdout
  IO.eprint outcome.stderr
  match outcome.ending with
  | .status code => return .ofNat code
  | .undecodable =>
    IO.eprintln "the source file is not UTF-8 text"
    return 1
  | .escaped failure =>
    IO.eprintln failure.message
    return 1

/-- Presents an outcome once its file is written. -/
def Outcome.settle (outcome : Outcome) : IO UInt32 := do
  match outcome.written with
  | none => outcome.present 0
  | some (path, text) =>
    match ← (IO.FS.writeFile path text).toBaseIO with
    | .ok () => outcome.present 0
    | .error e => (Outcome.unwritten path (fileError e)).present 0

/-- The next reading of standard input. -/
def nextReading : IO Reading := do
  let bytes ← (← IO.getStdin).read 1
  return match bytes[0]? with
    | some byte => .byte byte.toNat
    | none => .fails (.of .inputExhausted)

/-- Keeps a run going to its end. -/
partial def drive (inv : Invocation) (printed : Nat) (mode : Session.Mode) (s : Session Unit) :
    IO UInt32 := do
  let result := Session.resumeFor 1024 mode s
  match inv.ran result, result with
  | some outcome, _ => outcome.present printed
  | none, .ok mode s =>
    printFrom printed s.store.device.output
    let device := s.store.device
    if mode = .walking then
      drive inv device.output.size mode s
    else
      let reading ← nextReading
      let supplied := { device with
        readings := fun n => if n = device.reads then reading else .notYet }
      drive inv device.output.size mode { s with store.device := supplied }
  | none, .error .. => return 1

/-- Runs a program from its start. -/
def runSession (inv : Invocation) (s : Session Unit) : IO UInt32 := do
  match Session.runFor 0 s with
  | .ok mode s => drive inv 0 mode s
  | failed => ((inv.ran failed).getD { ending := .status 1 }).present 0

/-- Carries out an invocation. -/
def invoke (inv : Invocation) : IO UInt32 := do
  let bytes ←
    if inv.literal || hasNull inv.program then pure (.ok .empty)
    else Except.mapError fileError <$> (IO.FS.readBinFile inv.program).toBaseIO
  let files : Files := { read := fun _ => bytes, write := fun _ => none }
  match inv.source files with
  | .error outcome => outcome.present 0
  | .ok (source, filename) =>
    match inv.tapeForm with
    | .error failure => Outcome.present { ending := .escaped failure } 0
    | .ok (size, cellRule, edgeRule) =>
      if inv.command = .run then
        let device := { Device.ofReadings .stream [] with readings := fun _ => .notYet }
        runSession inv (inv.session (.confined size cellRule edgeRule) device source filename)
      else (inv.examine files source filename).settle

end NamedTape.CommandLine

open NamedTape.CommandLine in
/-- The command line. -/
def main (arguments : List String) : IO UInt32 := do
  match readArguments arguments with
  | .error .help =>
    IO.println "usage: bfem [-h] \x7brun,compile,explain\x7d ..."
    return 0
  | .error (.usage command error) =>
    IO.eprintln (usageMessage command error)
    return 2
  | .ok inv => invoke inv
