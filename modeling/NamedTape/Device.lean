import NamedTape.Fault

/-!
# Devices

Where the bytes that a program reads come from and where those that it writes go.

* A device answers the reads of its life by a sequence, which may be any: bytes, the answer that
  no byte is there yet, failures. It may also refuse any of the writes.
* What it is asked is counted, and what is written is kept.
-/

namespace NamedTape

/-- The answer to a read. -/
inductive Reading
  /-- A value, which need not be a byte. -/
  | byte (value : Int)
  /-- No byte is there yet. -/
  | notYet
  | fails (failure : Raised)

/-- A device with the history of its use. -/
structure Device where
  sink : Sink
  /-- The answer to each read, counted from zero. -/
  readings : Nat → Reading
  /-- The failure of each write, counted from zero, if it is to fail. -/
  refusals : Nat → Option Raised := fun _ => none
  reads : Nat := 0
  writes : Nat := 0
  output : Array UInt8 := #[]

namespace Device

/-- A device that gives the readings in turn and then has no more input. -/
def ofReadings (sink : Sink) (readings : List Reading) : Device :=
  let script := readings.toArray
  { sink, readings := fun n => script.getD n (.fails (.of .inputExhausted)) }

/-- Asks for a byte; there is none if it is not there yet. -/
def read : Action Device (Option Int) := fun d =>
  let asked := { d with reads := d.reads + 1 }
  match d.readings d.reads with
  | .byte value => .ok (some value) asked
  | .notYet => .ok none asked
  | .fails failure => .error failure asked

/-- Writes a value, which must be a byte. -/
def write (value : Int) : Action Device Unit := fun d =>
  let asked := { d with writes := d.writes + 1 }
  match d.refusals d.writes with
  | some failure => .error failure asked
  | none =>
    if 0 ≤ value ∧ value ≤ 255 then
      .ok () { asked with output := asked.output.push (.ofNat value.toNat) }
    else .error (.foreign (.notAByte d.sink)) asked

end Device

end NamedTape
