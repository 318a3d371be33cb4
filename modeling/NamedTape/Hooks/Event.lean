/-!
# Events

The five points of a run at which handlers can be called.
-/

namespace NamedTape

/-- A point of a run at which handlers are called. -/
inductive Event
  | programStart
  | beforeInstruction
  | afterInstruction
  | onError
  | programEnd
deriving DecidableEq, Repr

namespace Event

/-- The name by which handlers ask for the event. -/
def name : Event → String
  | programStart => "program_start"
  | beforeInstruction => "before_instruction"
  | afterInstruction => "after_instruction"
  | onError => "on_error"
  | programEnd => "program_end"

/-- The events in the order of a run. -/
def all : List Event :=
  [programStart, beforeInstruction, afterInstruction, onError, programEnd]

/-- The event of the given name. -/
def ofName? (name : String) : Option Event :=
  all.find? (·.name == name)

end Event

end NamedTape
