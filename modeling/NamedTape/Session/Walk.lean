import NamedTape.Session

/-!
# The walk

A program is carried out in small moves over the stack of frames, each of which ends.

* A move takes the next instruction of the innermost frame, or comes back to the end of a loop's
  body, or asks once more for a byte that was not there.
* A loop that is entered becomes a frame. At the end of its body the current cell is looked at
  again: if it is zero the frame is dropped, and else the body starts anew.
* The cancel callback is asked before every instruction, before every further pass of a loop, and
  before every further request for a byte.
* The walk ends with the body of the program's own frame, which stays on the stack.
-/

namespace NamedTape.Session

variable {σ : Type}

/-- Where a walk stands between two moves. -/
inductive Mode
  | walking
  /-- The input instruction at the span waits for its byte. -/
  | waiting (span : Span)
  | finished
deriving DecidableEq, Repr

/-- Works on the instruction at the span, which a fault is attributed to. -/
def carryOut (span : Span) (act : Action (Session σ) Store.Progress) :
    Action (Session σ) Store.Progress :=
  Action.restating (fun _ => .within span) act

/-- Goes on after an instruction: it is over if it is done. -/
def proceed (i : Instruction) : Store.Progress → Action (Session σ) Mode
  | .done => do
    announce (.after i)
    return .walking
  | .waiting => return .waiting i.span

/-- Takes an instruction of the innermost frame, whose number is `frame`. -/
def take (frame : Nat) (i : Instruction) : Action (Session σ) Mode := do
  checkCancelled i.span
  takeStep frame i
  announce (.before i)
  match i with
  | .leaf operation span =>
    let preallocated := (← get).options.preallocate
    proceed i (← carryOut span (onStore (Store.perform preallocated operation)))
  | .loop body span =>
    if (← cell) ≠ 0 then modify (push (some span) body)
    proceed i .done

/-- Comes to the end of a loop's body. -/
def comeRound (span : Span) (body : List Instruction) : Action (Session σ) Mode := do
  if (← cell) ≠ 0 then
    checkCancelled span
    modify (setRest body)
  else
    modify pop
  return .walking

/-- Asks again for the byte of the input instruction at the span. -/
def askAgain (span : Span) : Action (Session σ) Mode := do
  let progress ← carryOut span do
    checkCancelled span
    onStore Store.receive
  proceed (.leaf .input span) progress

/-- A move of the walk. -/
def move : Mode → Action (Session σ) Mode
  | .finished => return .finished
  | .waiting span => askAgain span
  | .walking => do
    match (← get).stack with
    | [] => return .finished
    | frame :: _ =>
      match frame.rest, frame.loop with
      | i :: rest, _ => do
        modify (setRest rest)
        take frame.id i
      | [], some span => comeRound span frame.body
      | [], none => return .finished

/-- At most the given number of moves. -/
def walkFor : Nat → Mode → Action (Session σ) Mode
  | _, .finished => return .finished
  | 0, mode => return mode
  | fuel + 1, mode => do walkFor fuel (← move mode)

end NamedTape.Session
