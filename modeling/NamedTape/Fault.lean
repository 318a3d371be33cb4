import NamedTape.Hooks.Event
import NamedTape.Span
import NamedTape.Text.ByteSize
import NamedTape.Text.IntegerLiteral
import NamedTape.Text.Quoted

/-!
# Faults

What can cut reading or running a program short.

* A `Fault` belongs to the language: it has a cause, and the stretch of text and the step of the
  run that it is attributed to, as far as these are known.
* A `Foreign` failure comes from beneath or outside: a pointer that addresses nothing, a limit of
  the machine, a device, a handler. A run turns it into a fault, whose text quotes its own. One from
  outside need not have a text; asking it for one then fails in turn.
* An interrupt stops everything and is nobody's fault.
-/

namespace NamedTape

/-- What keeps the bytes that a program writes. -/
inductive Sink
  | memory
  | stream
deriving DecidableEq, Repr

/-- How a number fits into the words of a machine, which have 64 bits. -/
inductive WordFit
  /-- It is a signed word. -/
  | signed
  /-- It is a word, but only without a sign. -/
  | unsigned
  | tooLarge
deriving DecidableEq, Repr

/-- How a number fits into a word. -/
def WordFit.of (n : Int) : WordFit :=
  if -Int.pow 2 63 ≤ n ∧ n < Int.pow 2 63 then .signed
  else if 0 ≤ n ∧ n < Int.pow 2 64 then .unsigned
  else .tooLarge

/-- A failure that the language does not know. -/
inductive Foreign
  /-- The pointer stands outside the tape, where no cell can be addressed. -/
  | wildPointer (pointer : Int) (size : Nat)
  /-- There is no room for so many new cells. -/
  | noRoom (cells : Nat)
  /-- There is no room for the margin of a line at this depth. -/
  | noMargin (depth : Int)
  /-- A number has more digits than can be written. -/
  | tooManyDigits
  /-- A value that is no byte was to be written. -/
  | notAByte (sink : Sink)
  /-- A device or a handler failed with a message of its own, under a name of its own. -/
  | host (kind message : String)
  /-- A device or a handler failed with something that has a name but no message: asking for one
  fails with another failure. -/
  | mute (kind : String) (failure : Foreign)
deriving DecidableEq, Repr

namespace Foreign

/-- The message of a foreign failure, or what stands for it if there is none. -/
def message : Foreign → String
  | wildPointer pointer size =>
    match WordFit.of pointer with
    | .signed => s!"index {pointer} is out of bounds for axis 0 with size {size}"
    | .unsigned => "Python int too large to convert to C long"
    | .tooLarge =>
      "only integers, slices (`:`), ellipsis (`...`), numpy.newaxis (`None`) and integer or " ++
        "boolean arrays are valid indices"
  | noRoom cells =>
    match WordFit.of cells with
    | .signed =>
      "Unable to allocate " ++ byteSize cells ++
        s!" for an array with shape ({cells},) and data type uint8"
    | .unsigned | .tooLarge => "Maximum allowed dimension exceeded"
  | noMargin depth =>
    match WordFit.of depth with
    | .signed => if Int.pow 2 62 ≤ depth then "repeated string is too long" else ""
    | .unsigned | .tooLarge => "cannot fit 'int' into an index-sized integer"
  | tooManyDigits =>
    s!"Exceeds the limit ({maxDigits} digits) for integer string conversion; " ++
      "use sys.set_int_max_str_digits() to increase the limit"
  | notAByte .memory => "byte must be in range(0, 256)"
  | notAByte .stream => "bytes must be in range(0, 256)"
  | host _ message => message
  | mute .. => "<exception str() failed>"

/-- The message, or what asking for it fails with. -/
def text : Foreign → Except Foreign String
  | mute _ failure => .error failure
  | failure => .ok failure.message

end Foreign

/-- Why a character cannot stand where it stands. -/
inductive Objection
  /-- It means nothing. -/
  | meaningless
  /-- It closes a loop where none is open. -/
  | unopened
  /-- It opens an alias where aliases are turned off. -/
  | aliasesDisabled
deriving DecidableEq, Repr

/-- The explanation after the name of the character. -/
def Objection.note : Objection → String
  | meaningless => ""
  | unopened => ": no matching '['"
  | aliasesDisabled => ": aliases are disabled"

/-- The families of faults. -/
inductive Family
  | general
  | parse
  | runtime
  | internal
  | cancelled
deriving DecidableEq, Repr

/-- Why a fault arose. -/
inductive Cause
  /-- A character that cannot stand where it stands. -/
  | unrecognized (char : Char) (objection : Objection)
  /-- A loop was opened and not closed. -/
  | unbalancedLoop
  /-- An alias was opened and not closed. -/
  | unterminatedAlias
  /-- A value was to be stored that no cell can hold. -/
  | valueOutOfRange (address : Int) (current : Nat) (value : Int)
  /-- Adding to a cell that must not overflow took its value out of range. -/
  | cellOverflow (address : Int) (current : Nat) (delta : Int)
  /-- An address that is not on the tape. -/
  | addressOutOfRange (address : Int) (size : Nat) (pointer : Int)
  /-- A move past the first cell. -/
  | belowTape (count pointer : Int)
  /-- A move past the last cell, whose address is `limit`. -/
  | aboveTape (limit count pointer : Int)
  /-- No cell is left for the alias. -/
  | noFreeCell (name : String)
  /-- The input has ended. -/
  | inputExhausted
  /-- A handler failed. -/
  | hookFailed (event : Event) (failure : Foreign)
  /-- A step rule failed. -/
  | stepRuleFailed (failure : Foreign)
  /-- The address belongs to another alias. -/
  | addressTaken (address : Int) (owner : String)
  /-- The alias has another address. -/
  | aliasBound (name : String) (address : Int)
  /-- An alias without an address, though all were to have one. -/
  | unresolvedAlias (name : String)
  /-- An instruction that means nothing. -/
  | unknownInstruction
  /-- A foreign failure ended the run. -/
  | unexpected (failure : Foreign)
  /-- The run was called off. -/
  | cancelled
  /-- A device or a handler reported a fault of its own. -/
  | reported (family : Family) (message : String)
deriving DecidableEq, Repr

namespace Cause

/-- The family that a fault of this cause belongs to. -/
def family : Cause → Family
  | unrecognized .. | unbalancedLoop | unterminatedAlias => .parse
  | valueOutOfRange .. | cellOverflow .. | addressOutOfRange .. | belowTape .. | aboveTape ..
  | noFreeCell .. | inputExhausted | hookFailed .. | stepRuleFailed .. => .runtime
  | addressTaken .. | aliasBound .. | unresolvedAlias .. | unknownInstruction
  | unexpected .. => .internal
  | cancelled => .cancelled
  | reported family _ => family

/-- The heading under which a fault of this cause is reported. -/
def label : Cause → String
  | unrecognized .. => "UnrecognizedTokenError"
  | unbalancedLoop => "UnbalancedLoopError"
  | unterminatedAlias => "UnterminatedAliasError"
  | valueOutOfRange .. | cellOverflow .. => "CellRangeError"
  | addressOutOfRange .. | belowTape .. | aboveTape .. => "PointerRangeError"
  | noFreeCell .. => "AliasAllocationError"
  | inputExhausted => "InputExhaustedError"
  | unresolvedAlias .. => "AliasResolutionInvariantViolation"
  | cause =>
    match cause.family with
    | .general => "BFEMError"
    | .parse => "BFEMParseError"
    | .runtime => "BFEMRuntimeError"
    | .internal => "BFEMInternalError"
    | .cancelled => "ExecutionCancelled"

/-- The text that explains the cause. -/
def message : Cause → String
  | unrecognized char objection => "Unrecognised character " ++ quoted [char] ++ objection.note
  | unbalancedLoop => "Unmatched '[': reached end of input before finding ']'"
  | unterminatedAlias => "Unterminated alias: reached end of input before finding '\x7d'"
  | valueOutOfRange address _ value => s!"Value {value} does not fit in cell {address}"
  | cellOverflow address current delta =>
    if 0 < delta then
      s!"Cell {address} (value {current}) would go above 255 if {delta} were added"
    else
      s!"Cell {address} (value {current}) would go below 0 if {-delta} were subtracted"
  | addressOutOfRange address size _ => s!"Address {address} is outside the tape (size {size})"
  | belowTape count pointer =>
    s!"Tape pointer would be below 0 if moved left {count} spaces from {pointer}"
  | aboveTape limit count pointer =>
    s!"Tape pointer would be above {limit} if moved right {count} spaces from {pointer}"
  | noFreeCell name => "No free cell left to allocate alias " ++ name
  | inputExhausted => "Input requested but the input stream is exhausted"
  | hookFailed event failure => "Hook '" ++ event.name ++ "' failed: " ++ failure.message
  | stepRuleFailed failure => "Step rule failed: " ++ failure.message
  | addressTaken address owner => s!"Address {address} is already bound to alias {owner}"
  | aliasBound name address => s!"Alias {name} is already bound to address {address}"
  | unresolvedAlias name =>
    "Alias " ++ name ++ " was not found and pre-alloc was not disabled. " ++
      "This may indicate an error in the parser or allocator"
  | unknownInstruction => "Unknown instruction Instruction"
  | unexpected failure => "Internal interpreter error: " ++ failure.message
  | cancelled => "Execution cancelled"
  | reported _ message => message

/-- The numbers that the text of a cause shows, as far as they come from outside. -/
def numbers : Cause → List Int
  | valueOutOfRange address _ value => [value, address]
  | cellOverflow address _ delta => [address, delta]
  | addressOutOfRange address _ _ => [address]
  | belowTape count pointer | aboveTape _ count pointer => [count, pointer]
  | addressTaken address _ | aliasBound _ address => [address]
  | _ => []

end Cause

/-- A fault: its cause, and the text and the step it is attributed to. -/
structure Fault where
  cause : Cause
  span : Option Span := none
  step : Option Int := none
deriving DecidableEq, Repr

/-- The fault with the span, unless it has one already. -/
def Fault.within (span : Span) (fault : Fault) : Fault :=
  { fault with span := fault.span <|> some span }

/-- What cuts an action short. -/
inductive Raised
  | fault (fault : Fault)
  | foreign (failure : Foreign)
  | interrupt
deriving DecidableEq, Repr

namespace Raised

/-- A fault of the cause, attributed to nothing yet. -/
def of (cause : Cause) : Raised := .fault { cause }

/-- Attributes a fault to the span, unless it has one already. -/
def within (span : Span) : Raised → Raised
  | .fault f => .fault (f.within span)
  | other => other

/-- The fault, whose text quotes that of the failure. If there is none, what asking for it fails
with is raised instead. -/
def quoting (failure : Foreign) (fault : Fault) : Raised :=
  match failure.text with
  | .ok _ => .fault fault
  | .error other => .foreign other

/-- Makes a foreign failure a fault. -/
def blame (toFault : Foreign → Fault) : Raised → Raised
  | .foreign failure => quoting failure (toFault failure)
  | other => other

end Raised

/-- An action on a `σ` that can be cut short; what it changed until then stays changed. -/
abbrev Action (σ α : Type) := EStateM Raised σ α

/-- The action, with what cuts it short restated in view of the state it leaves behind. -/
def Action.restating {σ α : Type} (restate : σ → Raised → Raised) (act : Action σ α) :
    Action σ α := fun s =>
  match act s with
  | .ok a s => .ok a s
  | .error e s => .error (restate s e) s

end NamedTape
