import NamedTape.Session.Execution

/-!
# Reports

What is reported of a run that has ended: the fault that ended it, if one did.
-/

namespace NamedTape

/-- The report on a run. -/
structure Report where
  /-- The fault that ended the run; there is none if it came to its end. -/
  fault : Option Fault := none
deriving DecidableEq, Repr

namespace Report

/-- Whether the run came to its end. -/
def ok (report : Report) : Bool := report.fault.isNone

/-- The span that the fault is attributed to. -/
def span (report : Report) : Option Span := report.fault.bind (·.span)

/-- The report on a run, once it has ended. There is none if anything but a fault cut it short. -/
def of? {σ : Type} : EStateM.Result Raised (Session σ) Session.Mode → Option Report
  | .ok .finished _ => some {}
  | .error (.fault fault) _ => some { fault }
  | _ => none

end Report

end NamedTape
