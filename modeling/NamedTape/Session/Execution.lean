import NamedTape.Session.Walk

/-!
# Execution

A program is run from its start to its closing event.

* Everything an earlier program left on the tape, in the bindings and on the stack is cleared
  first; the log, the device and the numbers of frames go on.
* A run is closed by one event: the end of the program, or an error. A failure that is announced
  gets the latest step as its step; a foreign one becomes an internal fault at that step, if it has
  a text.
* A failure of the handlers of the closing event takes the place of what they were told.
* An interrupt ends a run without an event.
-/

namespace NamedTape.Session

variable {σ : Type}

/-- The session as a program finds it: its own frame on the stack, a blank tape, no bindings. -/
def begin (program : Program) (aliases : Option AliasTable) (s : Session σ) : Session σ :=
  let table := aliases.getD (.ofNames program.aliasNames)
  push none program.instructions { s with
    program := some program
    source := program.source
    filename := program.filename
    stack := []
    store := { s.store with
      tape := s.store.tape.clear.realign
      aliases := table.clear } }

/-- What comes before the first instruction: cells for the aliases, and the starting event. -/
def prepare (program : Program) : Action (Session σ) Unit := do
  if (← get).options.preallocate then onStore (Store.onAliases AliasTable.assignAll)
  announce (.started program)

/-- What a failure leaves the run as, once it has been announced. -/
def report (s : Session σ) : Raised → Raised
  | .fault f => .fault { f with step := f.step <|> s.log.last.map (·.step) }
  | .foreign failure =>
    .quoting failure
      { cause := .unexpected failure, span := s.lastSpan, step := s.log.last.map (·.step) }
  | .interrupt => .interrupt

/-- Closes a run that has come to its end, by the walk or by a failure. -/
def conclude : EStateM.Result Raised (Session σ) Mode → EStateM.Result Raised (Session σ) Mode
  | .ok .finished s =>
    (do announce .ended; modify pop; return Mode.finished : Action (Session σ) Mode) s
  | .ok mode s => .ok mode s
  | .error .interrupt s => .error .interrupt s
  | .error failure s =>
    (do announce (.failed failure); throw (report (← get) failure) :
      Action (Session σ) Mode) s

/-- Goes on with a run for at most the given number of moves. -/
def resumeFor (fuel : Nat) (mode : Mode) : Action (Session σ) Mode := fun s =>
  conclude (walkFor fuel mode s)

/-- Runs a program, with a table for its aliases or a new one, for at most the given number of
moves. -/
def executeFor (fuel : Nat) (program : Program) (aliases : Option AliasTable) :
    Action (Session σ) Mode := fun s =>
  conclude ((do prepare program; walkFor fuel .walking : Action (Session σ) Mode)
    (begin program aliases s))

/-- The program that the session's source writes. -/
def read (s : Session σ) : Except Fault Program := s.options.read s.source s.filename

/-- Runs the program that the session's source writes, for at most the given number of moves. -/
def runFor (fuel : Nat) : Action (Session σ) Mode := fun s =>
  match s.read with
  | .ok program => executeFor fuel program none s
  | .error fault => .error (.fault fault) s

end NamedTape.Session
