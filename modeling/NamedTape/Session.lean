import NamedTape.Hooks
import NamedTape.Log
import NamedTape.Program.Draft
import NamedTape.Store

/-!
# Sessions

The state in which programs run one after another, and what its parts are told and asked.

* A frame is a list of instructions that is being carried out: the program's own, or a loop's body.
  Each frame has a number of its own, which is never used again.
* Handlers and step rules act on the store. A cancel callback is asked again and again whether to
  call the run off; its answers are a sequence, which may be any.
-/

namespace NamedTape

/-- How programs are read and run. -/
structure Options where
  dialect : Dialect := {}
  /-- Whether runs of counted operations are merged. -/
  merge : Bool := true
  /-- Whether all aliases are given cells before a program starts. -/
  preallocate : Bool := true
deriving DecidableEq, Repr

/-- The program that a text writes. -/
def Options.read (options : Options) (source filename : String) : Except Fault Program := do
  let program ← Program.read options.dialect source filename
  return if options.merge then program.merged else program

/-- What a handler is told. -/
inductive Notice
  | started (program : Program)
  | before (i : Instruction)
  | after (i : Instruction)
  | failed (failure : Raised)
  | ended

/-- The event at which a handler is told so. -/
def Notice.event : Notice → Event
  | started _ => .programStart
  | before _ => .beforeInstruction
  | after _ => .afterInstruction
  | failed _ => .onError
  | ended => .programEnd

/-- What a step rule is told. -/
structure Tick where
  step : Int
  rule : String
  span : Span
deriving DecidableEq, Repr

/-- Handlers and step rules that act on a store. -/
abbrev StoreHooks (σ : Type) :=
  Hooks (Notice → Action (Store σ) Unit) (Tick → Action (Store σ) Unit)

/-- A list of instructions that is being carried out. -/
structure Frame where
  id : Nat
  /-- The span of the loop whose body this is; the program's own frame has none. -/
  loop : Option Span := none
  body : List Instruction
  /-- What is left of the body in the current pass. -/
  rest : List Instruction := body
deriving DecidableEq, Repr

namespace Frame

/-- How many instructions of the body the current pass has taken. -/
def index (frame : Frame) : Nat := frame.body.length - frame.rest.length

/-- The name of the frame. -/
def name (frame : Frame) : String := if frame.loop.isSome then "loop" else "<top-level>"

/-- The identifier of a frame in text. -/
def tag (id : Nat) : String := "f_" ++ zeroPadded 4 id

end Frame

/-- The state in which programs run one after another. -/
structure Session (σ : Type) where
  options : Options := {}
  source : String := ""
  filename : String := "<string>"
  /-- The latest program to be run. -/
  program : Option Program := none
  store : Store σ
  hooks : StoreHooks σ := {}
  /-- The answers of the cancel callback, counted from zero, if there is one. -/
  cancel : Option (Nat → Except Raised Bool) := none
  /-- How often the cancel callback has been asked. -/
  checks : Nat := 0
  log : Log Nat := {}
  /-- The frames that are being carried out, the innermost first. -/
  stack : List Frame := []
  /-- The number of the next frame. -/
  nextFrame : Nat := 0

namespace Session

variable {σ α : Type}

/-- Acts on the store. -/
def onStore (act : Action (Store σ) α) : Action (Session σ) α := fun s =>
  match act s.store with
  | .ok a store => .ok a { s with store }
  | .error e store => .error e { s with store }

/-- The value of the current cell. -/
def cell : Action (Session σ) Nat := onStore (Store.onTape Tape.value)

/-- The span of the latest step. -/
def lastSpan (s : Session σ) : Option Span := s.log.last.bind (·.span)

/-- Calls the handlers of an event. What makes one fail is the hook's fault, at the latest step. -/
def announce (notice : Notice) : Action (Session σ) Unit := do
  let hooks := (← get).hooks
  Action.restating
    (fun s => .blame fun failure =>
      { cause := .hookFailed notice.event failure, span := s.lastSpan })
    (onStore (hooks.emit (· notice) notice.event))

/-- Calls the rules that fire at a step. What makes one fail is the rule's fault, at the step. -/
def applyRules (tick : Tick) : Action (Session σ) Unit := do
  let hooks := (← get).hooks
  Action.restating
    (fun _ => .blame fun failure => { cause := .stepRuleFailed failure, span := some tick.span })
    (onStore (hooks.afterStep (· tick) tick.step))

/-- Asks the cancel callback, if there is one, whether to call the run off at the span. -/
def checkCancelled (span : Span) : Action (Session σ) Unit := fun s =>
  match s.cancel with
  | none => .ok () s
  | some answers =>
    let asked := { s with checks := s.checks + 1 }
    match answers s.checks with
    | .ok false => .ok () asked
    | .ok true => .error (.fault { cause := .cancelled, span := some span }) asked
    | .error failure => .error failure asked

/-- Records a step of the frame. -/
def record (frame : Nat) (i : Instruction) (snapshot : Option String) :
    Action (Session σ) Tick := fun s =>
  let (entry, log) := s.log.record (some frame) i.rule (some i.span) snapshot
  .ok ⟨entry.step, i.rule, i.span⟩ { s with log }

/-- Records the step that carries out `i` in the frame, and calls the rules that fire at it. -/
def takeStep (frame : Nat) (i : Instruction) : Action (Session σ) Unit := do
  let snapshot ←
    if (← get).log.verbose then some <$> onStore (Store.onTape Tape.snapshot) else pure none
  applyRules (← record frame i snapshot)

/-- Puts a new frame on top of the stack. -/
def push (loop : Option Span) (body : List Instruction) (s : Session σ) : Session σ :=
  { s with stack := { id := s.nextFrame, loop, body } :: s.stack, nextFrame := s.nextFrame + 1 }

/-- Takes the innermost frame off the stack and forgets its steps. -/
def pop (s : Session σ) : Session σ :=
  match s.stack with
  | [] => s
  | frame :: below => { s with stack := below, log := s.log.forget frame.id }

/-- Replaces what is left of the innermost frame. -/
def setRest (rest : List Instruction) (s : Session σ) : Session σ :=
  match s.stack with
  | [] => s
  | frame :: below => { s with stack := { frame with rest } :: below }

end Session

end NamedTape
