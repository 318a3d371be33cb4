import NamedTape.AliasTable
import NamedTape.Device
import NamedTape.Instruction

/-!
# Stores

All that the operations of a program work on: tape, aliases and device, and beside them whatever
the surroundings of a run keep for their handlers.

* An operation that fails leaves the tape and the aliases as they were.
* An input operation may have to wait for its byte; every other operation is done at once.
-/

namespace NamedTape

/-- What a program works on; `host` belongs to the handlers. -/
structure Store (σ : Type) where
  tape : Tape
  aliases : AliasTable
  device : Device
  host : σ

namespace Store

variable {σ α : Type}

/-- Acts on the tape. -/
def onTape (act : Action Tape α) : Action (Store σ) α := fun s =>
  match act s.tape with
  | .ok a tape => .ok a { s with tape }
  | .error e tape => .error e { s with tape }

/-- Acts on the alias table, in view of the tape. -/
def onAliases (act : Tape → Action AliasTable α) : Action (Store σ) α := fun s =>
  match act s.tape s.aliases with
  | .ok a aliases => .ok a { s with aliases }
  | .error e aliases => .error e { s with aliases }

/-- Acts on the device. -/
def onDevice (act : Action Device α) : Action (Store σ) α := fun s =>
  match act s.device with
  | .ok a device => .ok a { s with device }
  | .error e device => .error e { s with device }

/-- How far an operation has got. -/
inductive Progress
  | done
  /-- The byte that is to be read is not there yet. -/
  | waiting
deriving DecidableEq, Repr

/-- Asks the device for a byte, and puts it into the current cell if it is there. -/
def receive : Action (Store σ) Progress := do
  match ← onDevice Device.read with
  | some value => do
    onTape (Tape.setValue value)
    return .done
  | none => return .waiting

/-- Moves the pointer left; aliases move up with the cells of a tape that grows at the front. -/
def moveLeft (count : Int) : Action (Store σ) Unit := fun s =>
  let origin := s.tape.origin
  match onTape (Tape.moveLeft count) s with
  | .ok _ s => .ok () { s with aliases := s.aliases.shift (s.tape.origin - origin) }
  | .error e s => .error e s

/-- Moves the pointer to the cell of an alias. An alias without a cell is given one, unless all
were to have theirs from the start. -/
def goto (preallocated : Bool) (name : String) : Action (Store σ) Unit := do
  let address ← onAliases fun tape => fun t =>
    match t.resolve? name with
    | some address => .ok address t
    | none =>
      if preallocated then .error (.of (.unresolvedAlias name)) t
      else AliasTable.assign tape name t
  onTape (Tape.moveTo address)

/-- Carries out an operation. -/
def perform (preallocated : Bool) : Operation → Action (Store σ) Progress
  | .counted .add count => do onTape (Tape.add count); return .done
  | .counted .subtract count => do onTape (Tape.subtract count); return .done
  | .counted .left count => do moveLeft count; return .done
  | .counted .right count => do onTape (Tape.moveRight count); return .done
  | .input => receive
  | .output => do onDevice (Device.write (← onTape Tape.value)); return .done
  | .goto name => do goto preallocated name; return .done
  | .blank => throw (.of .unknownInstruction)

end Store

end NamedTape
