import NamedTape.CommandLine.Word
import NamedTape.Session

/-!
# Invocations

What a command line asks the program to do.

* The first plain word is the command; the words after it are the command's own.
* The first plain word of a command is the program. Compiling takes the plain word right after it
  as the file for the output. Plain words beyond these are not recognized.
* An option given twice counts the last time. Words that are not recognized are complained about
  last of all.
-/

namespace NamedTape.CommandLine

/-- What the program can do with a source. -/
inductive Command
  | run
  | compile
  | explain
deriving DecidableEq, Repr

namespace Command

/-- The word for a command. -/
def name : Command → String
  | run => "run"
  | compile => "compile"
  | explain => "explain"

/-- All commands. -/
def all : List Command := [run, compile, explain]

/-- The command of the given name. -/
def ofName? (name : String) : Option Command := all.find? (·.name == name)

end Command

/-- What an option means. -/
inductive Setting
  | help
  | literal
  | disableAliases
  | disableMerging
  | disableAllocation
  | keepBlanks
  | edgeRule
  | cellRule
  | tapeSize
  | verbose
  | jsonTraceback
  | tree
deriving DecidableEq, Repr

/-- The option that asks for help. -/
def helpSwitch : Switch Setting := { names := ["-h", "--help"], meaning := .help }

/-- The options of a command. -/
def switches (command : Command) : List (Switch Setting) :=
  [ helpSwitch,
    { names := ["-source", "--source"], meaning := .literal },
    { names := ["--disable-aliases"], meaning := .disableAliases },
    { names := ["--disable-optimise"], meaning := .disableMerging },
    { names := ["--disable-alloc"], meaning := .disableAllocation },
    { names := ["--keep-whitespace"], meaning := .keepBlanks },
    { names := ["--tape-mode"], meaning := .edgeRule, takesValue := true },
    { names := ["--cell-mode"], meaning := .cellRule, takesValue := true },
    { names := ["--tape-size"], meaning := .tapeSize, takesValue := true },
    { names := ["-verbose", "--verbose"], meaning := .verbose },
    { names := ["--traceback-json"], meaning := .jsonTraceback } ] ++
  if command = .compile then [{ names := ["-t", "--tree"], meaning := .tree }] else []

/-- What a command line asks for. -/
structure Invocation where
  command : Command
  /-- The path of the source, or the source itself. -/
  program : String := ""
  /-- Whether `program` is the source itself. -/
  literal : Bool := false
  options : Options := {}
  /-- The rule for cells; none if its option has no value. -/
  cellRule : Option CellRule := some .wrap
  /-- The rule for the edges of the tape; none if its option has no value. -/
  edgeRule : Option EdgeRule := some .wrap
  /-- The size of the tape; none if its option has no value. -/
  tapeSize : Option Nat := some Tape.defaultSize
  verbose : Bool := false
  jsonTraceback : Bool := false
  /-- The file for the output of compiling. -/
  output : Option String := none
  tree : Bool := false
deriving DecidableEq, Repr

/-- Why a command line asks for no invocation. -/
inductive Stop
  | help
  /-- The words of the command, or of the program if there is none, are at fault. -/
  | usage (command : Option Command) (error : UsageError)
deriving DecidableEq, Repr

/-- The complaint about a command line. -/
def usageMessage (command : Option Command) (error : UsageError) : String :=
  "bfem" ++ command.elim "" (" " ++ ·.name) ++ ": error: " ++ error.message

namespace Invocation

/-- The size of a tape that the text says. -/
def sizeOf (title text : String) : Except UsageError Nat :=
  match readInteger? text.toList with
  | none => .error (.notANumber title text)
  | some n => if n ≤ 0 then .error (.notPositive title n) else .ok n.toNat

/-- What the name stands for, which must be one of the choices. -/
def chosen {α : Type} (title : String) (choices : List String) (ofName? : String → Option α)
    (name : String) : Except UsageError α :=
  match ofName? name with
  | some a => .ok a
  | none => .error (.notAChoice title name choices)

/-- Applies an option other than the one for help. -/
def set (inv : Invocation) (switch : Switch Setting) (value : Option String) :
    Except UsageError Invocation :=
  match switch.meaning with
  | .help => .ok inv
  | .literal => .ok { inv with literal := true }
  | .disableAliases => .ok { inv with options.dialect.aliases := false }
  | .disableMerging => .ok { inv with options.merge := false }
  | .disableAllocation => .ok { inv with options.preallocate := false }
  | .keepBlanks => .ok { inv with options.dialect.skipBlanks := false }
  | .edgeRule => do
    let rule ← value.mapM
      (chosen switch.title ["circular", "append", "fail"] EdgeRule.ofName?)
    return { inv with edgeRule := rule }
  | .cellRule => do
    let rule ← value.mapM
      (chosen switch.title ["circular", "clamp", "fail"] CellRule.ofName?)
    return { inv with cellRule := rule }
  | .tapeSize => do
    return { inv with tapeSize := ← value.mapM (sizeOf switch.title) }
  | .verbose => .ok { inv with verbose := true }
  | .jsonTraceback => .ok { inv with jsonTraceback := true }
  | .tree => .ok { inv with tree := true }

end Invocation

/-- Which plain words have been found, as far as it matters for the next one. -/
inductive Stage
  | start
  /-- The program is the last word, or the separator after it is. -/
  | afterProgram
  /-- The output is the last word, or the separator after it is. -/
  | afterOutput
  /-- Any plain word is one too many. -/
  | closed
deriving DecidableEq, Repr

/-- What has been read of the words of a command. -/
structure Reader where
  invocation : Invocation
  stage : Stage := .start
  unrecognized : List String := []

namespace Reader

/-- Puts a word aside as not recognized. -/
def reject (r : Reader) (text : String) : Reader :=
  { r with unrecognized := r.unrecognized ++ [text] }

/-- No output can follow once an option has come after the program. -/
def endGroup (r : Reader) : Reader :=
  { r with stage := if r.stage = .start then .start else .closed }

/-- Reads a plain word. Two dashes, where a separator has gone before, name no output. -/
def readPlain (r : Reader) (text : String) : Reader :=
  match r.stage with
  | .start => { r with invocation.program := text, stage := .afterProgram }
  | .afterProgram =>
    if r.invocation.command = .compile then
      { r with
        invocation.output := if text = "--" then none else some text
        stage := .afterOutput }
    else { r.reject text with stage := .closed }
  | .afterOutput | .closed => { r.reject text with stage := .closed }

/-- Reads an item. -/
def step (r : Reader) : Item Setting → Except Stop Reader
  | .plain text => .ok (r.readPlain text)
  | .separator => .ok (if r.stage = .closed then r.reject "--" else r)
  | .unknown text => .ok (r.endGroup.reject text)
  | .bad error => .error (.usage r.invocation.command error)
  | .option switch value =>
    if switch.meaning = .help then .error .help
    else match r.invocation.set switch value with
      | .ok invocation => .ok { r.endGroup with invocation }
      | .error error => .error (.usage r.invocation.command error)

end Reader

/-- Reads the words of a command: what it asks for, and the words that are not recognized. -/
def readCommand (command : Command) (words : List String) :
    Except Stop (Invocation × List String) := do
  let table := switches command
  let classified ← (classifyAll table words).mapError (.usage command)
  let r ← (itemsOf table classified).foldlM Reader.step { invocation := { command } }
  if r.stage = .start then .error (.usage command (.missing "program"))
  return (r.invocation, r.unrecognized)

/-- Reads the words of a command line up to the command, and then the command with all words after
it. Asking for help is the only option before a command. -/
def readBefore (unrecognized : List String) :
    List (String × Word Setting) → Except Stop (Invocation × List String)
  | [] => .error (.usage none (.missing "command"))
  | (text, .unknown _) :: rest => readBefore (unrecognized ++ [text]) rest
  | (_, .option switch name joined) :: _ =>
    match (Word.option switch name joined).items [helpSwitch] with
    | ([.bad error], _) => .error (.usage none error)
    | _ => .error .help
  | (text, word) :: rest =>
    match word, rest with
    | .separator, [] => .error (.usage none (.missing "command"))
    | _, _ =>
      match Command.ofName? text with
      | none => .error (.usage none (.notAChoice "command" text (Command.all.map (·.name))))
      | some command => do
        let (invocation, more) ← readCommand command (rest.map (·.1))
        return (invocation, unrecognized ++ more)

/-- What a command line asks for. -/
def readArguments (words : List String) : Except Stop Invocation := do
  let classified ← (classifyAll [helpSwitch] words).mapError (.usage none)
  let (invocation, unrecognized) ← readBefore [] (words.zip classified)
  if unrecognized.isEmpty then return invocation
  else throw (.usage none (.unrecognized unrecognized))

end NamedTape.CommandLine
