import NamedTape.Fault

/-!
# Limits

What a machine cannot do that a language may ask of it: hold any number of cells, and write numbers
of any length.

* A field without a value is no limit; a machine without limits does all that is asked.
* A fault whose text would show a number that cannot be written is raised as a foreign failure
  instead.
-/

namespace NamedTape

/-- The limits of a machine. -/
structure Limits where
  /-- The most cells of a tape, or characters of a margin, that there is room for. -/
  room : Option Nat := none
  /-- The most digits of a number that can be written. -/
  digits : Option Nat := none
deriving DecidableEq, Repr

namespace Limits

/-- The limits under which programs are run from the command line. -/
def standard : Limits := { room := some (Nat.pow 2 35 - 1), digits := some maxDigits }

/-- Whether there is room for so many. -/
def hasRoom (limits : Limits) (n : Nat) : Bool := limits.room.all (n ≤ ·)

/-- Whether a number can be written. -/
def canWrite (limits : Limits) (n : Int) : Bool := limits.digits.all (n.natAbs < Nat.pow 10 ·)

/-- What is raised for a cause. -/
def raise (limits : Limits) (cause : Cause) : Raised :=
  if cause.numbers.all limits.canWrite then .of cause else .foreign .tooManyDigits

end Limits

end NamedTape
