import NamedTape.Span
import NamedTape.Text.Padded

/-!
# The step log

Every step that a program takes gets an index and an entry.

* The latest entry of all, and the latest of each frame that is not forgotten, are kept; a verbose
  log keeps every entry.
* Frames are told apart by identifiers of any type.
-/

namespace NamedTape

variable {ι : Type}

/-- What is known of a step. -/
structure Entry (ι : Type) where
  step : Int
  frame : Option ι
  rule : String
  span : Option Span
  snapshot : Option String
deriving Repr

/-- The name of the state that a step starts from. -/
def Entry.state (entry : Entry ι) : String := "s_" ++ zeroPadded 6 entry.step

/-- A log of steps. -/
structure Log (ι : Type) where
  verbose : Bool := false
  next : Int := 0
  last : Option (Entry ι) := none
  /-- The latest entry of each frame. -/
  recent : List (ι × Entry ι) := []
  /-- All entries, the latest first, if the log is verbose. -/
  history : List (Entry ι) := []
deriving Repr

namespace Log

variable [BEq ι]

/-- Drops what is kept of a frame. -/
def forget (log : Log ι) (frame : ι) : Log ι :=
  { log with recent := log.recent.filter (·.1 != frame) }

/-- The latest entry of a frame. -/
def lastOf (log : Log ι) (frame : ι) : Option (Entry ι) :=
  (log.recent.find? (·.1 == frame)).map (·.2)

/-- Records the next step: its entry, and the log with it. -/
def record (log : Log ι) (frame : Option ι) (rule : String) (span : Option Span)
    (snapshot : Option String) : Entry ι × Log ι :=
  let entry : Entry ι := { step := log.next, frame, rule, span, snapshot }
  (entry, { log with
    next := log.next + 1
    last := some entry
    recent := match frame with
      | some frame => (frame, entry) :: (log.forget frame).recent
      | none => log.recent
    history := if log.verbose then entry :: log.history else log.history })

/-- All entries of a verbose log in order. -/
def entries (log : Log ι) : List (Entry ι) := log.history.reverse

end Log

end NamedTape
