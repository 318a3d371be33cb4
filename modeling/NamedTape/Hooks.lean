import NamedTape.Hooks.Event

/-!
# Hooks

Handlers registered for events, and rules that fire at regular steps.

* The handlers of an event are called by descending priority, those of equal priority in the order
  of their registration. The first one that fails keeps the rest from being called.
* A rule with period `n` fires at the steps whose index `n` divides. Rules keep the order of their
  registration.
-/

namespace NamedTape

/-- A handler registered for an event. -/
structure Registration (H : Type) where
  event : Event
  priority : Int := 0
  owner : String := ""
  handler : H

/-- A rule that fires at every `period`-th step. -/
structure StepRule (R : Type) where
  period : Int
  owner : String := ""
  name : String := ""
  handler : R
  period_pos : 0 < period

/-- What has been registered: handlers by descending priority, and rules in order. -/
structure Hooks (H R : Type) where
  handlers : List (Registration H) := []
  rules : List (StepRule R) := []

/-- Why a registration is turned down. -/
inductive Refusal
  | unknownEvent (name : String)
  | period
deriving DecidableEq, Repr

/-- The text that explains a refusal. -/
def Refusal.message : Refusal → String
  | unknownEvent name => "Unknown event '" ++ name ++ "'"
  | period => "every_n_steps must be >= 1"

namespace Hooks

variable {H R : Type}

/-- Puts a registration after those of the same or a higher priority. -/
def insert (new : Registration H) : List (Registration H) → List (Registration H)
  | [] => [new]
  | old :: rest =>
    if new.priority ≤ old.priority then old :: insert new rest else new :: old :: rest

/-- Registers a handler for the event of the given name. -/
def register (hooks : Hooks H R) (event : String) (priority : Int) (owner : String)
    (handler : H) : Except Refusal (Hooks H R) :=
  match Event.ofName? event with
  | some event => .ok { hooks with
      handlers := insert { event, priority, owner, handler } hooks.handlers }
  | none => .error (.unknownEvent event)

/-- Registers a step rule. -/
def addRule (hooks : Hooks H R) (period : Int) (owner name : String) (handler : R) :
    Except Refusal (Hooks H R) :=
  if h : 0 < period then
    .ok { hooks with rules := hooks.rules ++ [⟨period, owner, name, handler, h⟩] }
  else .error .period

/-- The registrations for an event, in the order in which they are called. -/
def registrations (hooks : Hooks H R) (event : Event) : List (Registration H) :=
  hooks.handlers.filter (·.event == event)

/-- The rules that fire at a step. -/
def due (hooks : Hooks H R) (step : Int) : List (StepRule R) :=
  hooks.rules.filter (step % ·.period == 0)

theorem due_eq (hooks : Hooks H R) (step : Int) :
    hooks.due step = hooks.rules.filter fun rule => rule.period ∣ step := by
  refine List.filter_congr fun rule _ => ?_
  rw [Bool.eq_iff_iff, beq_iff_eq, decide_eq_true_eq, Int.dvd_iff_emod_eq_zero]

/-- Calls the handlers of an event. -/
def emit {m : Type → Type} [Monad m] (hooks : Hooks H R) (call : H → m Unit) (event : Event) :
    m Unit :=
  (hooks.registrations event).forM (call ·.handler)

/-- Calls the rules that fire at a step. -/
def afterStep {m : Type → Type} [Monad m] (hooks : Hooks H R) (call : R → m Unit) (step : Int) :
    m Unit :=
  (hooks.due step).forM (call ·.handler)

end Hooks

end NamedTape
