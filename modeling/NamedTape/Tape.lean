import NamedTape.Limits

/-!
# The tape

Byte cells in a row, and a pointer to the current one.

* `CellRule` says what becomes of a value that leaves `0 … 255`, `EdgeRule` what becomes of a
  pointer that leaves the tape.
* A tape that grows at the front moves all its cells up; `origin` counts by how much.
* A tape stays within the limits of the machine that carries it.
* A move tests only the edge it heads for, so a negative count can leave the pointer beyond the
  other one. A pointer before the first cell, by at most the size of the tape, addresses the tape
  from its end; any other pointer off the tape addresses no cell.
* An action that fails leaves the tape as it was.
-/

namespace NamedTape

/-- What becomes of a value that leaves the range of a cell. -/
inductive CellRule
  /-- It is taken modulo 256. -/
  | wrap
  /-- It stops at the limit that it passes. -/
  | clamp
  /-- The change is refused. -/
  | refuse
deriving DecidableEq, Repr

/-- What becomes of a pointer that leaves the tape. -/
inductive EdgeRule
  /-- It comes in again at the other end. -/
  | wrap
  /-- The tape grows to meet it. -/
  | grow
  /-- The move is refused. -/
  | refuse
deriving DecidableEq, Repr

/-- The rule of the given name. -/
def CellRule.ofName? : String → Option CellRule
  | "circular" => some wrap
  | "clamp" => some clamp
  | "fail" => some refuse
  | _ => none

/-- The rule of the given name. -/
def EdgeRule.ofName? : String → Option EdgeRule
  | "circular" => some wrap
  | "append" => some grow
  | "fail" => some refuse
  | _ => none

/-- Cells, a pointer, and the rules for both. -/
structure Tape where
  cells : Array UInt8
  pointer : Int := 0
  /-- How many cells have been added before the first one since the tape was cleared. -/
  origin : Nat := 0
  cellRule : CellRule := .wrap
  edgeRule : EdgeRule := .wrap
  /-- The limits of the machine. -/
  limits : Limits := {}
deriving DecidableEq, Repr

namespace Tape

/-- The size that a tape has if none is given. -/
def defaultSize : Nat := 30000

/-- A blank tape on a machine without limits. -/
def blank (size : Nat) (cellRule : CellRule) (edgeRule : EdgeRule) : Tape :=
  { cells := Array.replicate size 0, cellRule, edgeRule }

/-- A blank tape under the standard limits. -/
def confined (size : Nat) (cellRule : CellRule) (edgeRule : EdgeRule) : Tape :=
  { blank size cellRule edgeRule with limits := .standard }

/-- Why a tape cannot be made. -/
inductive Misfit
  | size (size : Int)
  | noRoom (size : Nat)
  | cellRule (name : String)
  | edgeRule (name : String)
deriving DecidableEq, Repr

/-- The text that explains a misfit. -/
def Misfit.message : Misfit → String
  | size n => s!"Tape size must be positive, got {n}"
  | noRoom n => (Foreign.noRoom n).message
  | cellRule name => quoted name.toList ++ " is not a valid CellPolicy"
  | edgeRule name => quoted name.toList ++ " is not a valid TapePolicy"

/-- A blank tape of the size under the standard limits, with rules given by name. -/
def make (size : Int) (cellRule edgeRule : String) : Except Misfit Tape :=
  if size ≤ 0 then .error (.size size)
  else if !Limits.standard.hasRoom size.toNat then .error (.noRoom size.toNat)
  else match CellRule.ofName? cellRule, EdgeRule.ofName? edgeRule with
    | none, _ => .error (.cellRule cellRule)
    | _, none => .error (.edgeRule edgeRule)
    | some c, some e => .ok (confined size.toNat c e)

/-- The number of cells. -/
def size (t : Tape) : Nat := t.cells.size

/-- Whether there is room for so many more cells. -/
def hasRoom (t : Tape) (more : Nat) : Bool := t.limits.hasRoom (t.size + more)

/-- The failure to grow by so many cells. -/
def full (more : Nat) : Raised := .foreign (.noRoom more)

/-- The cell at an address, which reads zero off the tape. -/
def cellAt (t : Tape) (address : Nat) : UInt8 := t.cells.getD address 0

/-- The address of the current cell, if the pointer addresses one. -/
def slot? (t : Tape) : Option Nat :=
  if 0 ≤ t.pointer then
    if t.pointer < t.size then some t.pointer.toNat else none
  else if -t.size ≤ t.pointer then some (t.pointer + t.size).toNat
  else none

/-- Blanks all cells. -/
def clear (t : Tape) : Tape := { t with cells := Array.replicate t.size 0, origin := 0 }

/-- Moves the pointer to the first cell. -/
def realign (t : Tape) : Tape := { t with pointer := 0 }

/-- The failure of an access through a pointer that addresses no cell. -/
def wild (t : Tape) : Raised := .foreign (.wildPointer t.pointer t.size)

/-- The fault of an access to an address off the tape. -/
def strayed (t : Tape) (address : Int) : Raised :=
  t.limits.raise (.addressOutOfRange address t.size t.pointer)

/-- The value of the current cell. -/
def value : Action Tape Nat := fun t =>
  match t.slot? with
  | some i => .ok (t.cellAt i).toNat t
  | none => .error t.wild t

/-- The value of the cell at an address. -/
def valueAt (address : Int) : Action Tape Nat := fun t =>
  if 0 ≤ address ∧ address < t.size then .ok (t.cellAt address.toNat).toNat t
  else .error (t.strayed address) t

/-- Sets the cell at an address, which must be on the tape, to a value, which must be a byte. -/
def setValueAt (address value : Int) : Action Tape Unit := fun t =>
  if 0 ≤ address ∧ address < t.size then
    if 0 ≤ value ∧ value ≤ 255 then
      .ok () { t with cells := t.cells.setIfInBounds address.toNat (.ofNat value.toNat) }
    else
      .error (t.limits.raise (.valueOutOfRange address (t.cellAt address.toNat).toNat value)) t
  else .error (t.strayed address) t

/-- Sets the current cell; the pointer must be the address of a cell. -/
def setValue (value : Int) : Action Tape Unit := fun t => setValueAt t.pointer value t

/-- Moves the pointer to an address on the tape. -/
def moveTo (address : Int) : Action Tape Unit := fun t =>
  if 0 ≤ address ∧ address < t.size then .ok () { t with pointer := address }
  else .error (t.strayed address) t

/-- What a cell holds after its value was to become `target`, if its rule allows it. -/
def CellRule.settle? (rule : CellRule) (target : Int) : Option UInt8 :=
  if 0 ≤ target ∧ target ≤ 255 then some (.ofNat target.toNat)
  else match rule with
    | .wrap => some (.ofNat (target % 256).toNat)
    | .clamp => some (if 255 < target then 255 else 0)
    | .refuse => none

/-- Changes the current cell by `delta`. -/
def shift (delta : Int) : Action Tape Unit := fun t =>
  match t.slot? with
  | none => .error t.wild t
  | some i =>
    let current := (t.cellAt i).toNat
    match CellRule.settle? t.cellRule (current + delta) with
    | some cell => .ok () { t with cells := t.cells.setIfInBounds i cell }
    | none => .error (t.limits.raise (.cellOverflow t.pointer current delta)) t

/-- Adds to the current cell. -/
def add (count : Int) : Action Tape Unit := shift count

/-- Subtracts from the current cell. -/
def subtract (count : Int) : Action Tape Unit := shift (-count)

/-- Moves the pointer towards the first cell. -/
def moveLeft (count : Int) : Action Tape Unit := fun t =>
  let target := t.pointer - count
  if 0 ≤ target then .ok () { t with pointer := target }
  else match t.edgeRule with
    | .wrap => .ok () { t with pointer := target % t.size }
    | .grow =>
      let crossed := (-target).toNat
      if t.hasRoom crossed then
        .ok () { t with
          cells := Array.replicate crossed 0 ++ t.cells
          origin := t.origin + crossed
          pointer := 0 }
      else .error (full crossed) t
    | .refuse => .error (t.limits.raise (.belowTape count t.pointer)) t

/-- Moves the pointer towards the last cell. -/
def moveRight (count : Int) : Action Tape Unit := fun t =>
  let target := t.pointer + count
  if target < t.size then .ok () { t with pointer := target }
  else match t.edgeRule with
    | .wrap => .ok () { t with pointer := target % t.size }
    | .grow =>
      let missing := (target - t.size + 1).toNat
      if t.hasRoom missing then
        .ok () { t with cells := t.cells ++ Array.replicate missing 0, pointer := target }
      else .error (full missing) t
    | .refuse => .error (t.limits.raise (.aboveTape (t.size - 1) count t.pointer)) t

/-- The tape in a few words. -/
def snapshot : Action Tape String := fun t =>
  if !t.limits.canWrite t.pointer then .error (.foreign .tooManyDigits) t
  else match t.slot? with
  | some i => .ok s!"ptr={t.pointer} val={(t.cellAt i).toNat} size={t.size}" t
  | none => .error t.wild t

end Tape

end NamedTape
