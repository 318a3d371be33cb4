import NamedTape.Hooks

/-!
# Calls on hooks

The ways to ask for a registration as data, so that a list of them is a history.

* A handler need not be given at once. Without it nothing is registered: the answer is a decorator,
  which makes of a handler the call that registers it.
* A rule that is given no name takes the name of its handler, if that has one.
* A call that fails leaves the hooks as they were.
-/

namespace NamedTape.Hooks

/-- A way to ask for a registration. -/
inductive Call (H R : Type)
  | onEvent (event : String) (handler : Option H) (priority : Int := 0) (owner : String := "")
  | addRule (name : String) (period : Int) (handler : R) (owner : String := "")
  /-- Asks for a rule that may take the name of its handler. -/
  | everySteps (period : Int) (handler : Option R) (name : String := "")

/-- What a call gives back. -/
inductive Answer (H R : Type)
  | nothing
  /-- The handler that has been registered for an event. -/
  | handler (handler : H)
  /-- The handler of the rule that has been registered. -/
  | rule (handler : R)
  | handlerDecorator (decorate : H → Call H R)
  | ruleDecorator (decorate : R → Call H R)

/-- Why a call fails. -/
inductive Failure
  | refused (refusal : Refusal)
  /-- A rule without a name, whose handler has none. -/
  | nameless (objection : String)
deriving DecidableEq, Repr

/-- The text that explains a failure. -/
def Failure.message : Failure → String
  | refused refusal => refusal.message
  | nameless objection => objection

variable {H R : Type}

/-- Makes the change, unless it is refused. -/
def change (act : Hooks H R → Except Refusal (Hooks H R)) : EStateM Failure (Hooks H R) Unit :=
  fun hooks =>
    match act hooks with
    | .ok changed => .ok () changed
    | .error refusal => .error (.refused refusal) hooks

/-- The name of a rule: the one that is given, or else the handler's own. -/
def ruleName (ownName : R → Except String String) (name : String) (handler : R) :
    Except Failure String :=
  if name = "" then (ownName handler).mapError .nameless else .ok name

/-- Carries out a call. What the handlers of rules are called is known: a name of their own, or why
they have none. -/
def Call.perform (ownName : R → Except String String) :
    Call H R → EStateM Failure (Hooks H R) (Answer H R)
  | onEvent event (some handler) priority owner => do
    change (·.register event priority owner handler)
    return .handler handler
  | onEvent event none priority owner =>
    match Event.ofName? event with
    | some _ => return .handlerDecorator fun handler => onEvent event (some handler) priority owner
    | none => throw (.refused (.unknownEvent event))
  | addRule name period handler owner => do
    change (·.addRule period owner name handler)
    return .nothing
  | everySteps period (some handler) name =>
    match ruleName ownName name handler with
    | .ok name => do
      change (·.addRule period "" name handler)
      return .rule handler
    | .error failure => throw failure
  | everySteps period none name =>
    return .ruleDecorator fun handler => everySteps period (some handler) name

end NamedTape.Hooks
