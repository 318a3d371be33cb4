import NamedTape.Hooks.Call
import NamedTape.Proofs.Ranking
import NamedTape.Proofs.Rounds

/-!
# Histories of registrations

Whatever has been asked for, and in whatever order, handlers are called by descending priority and,
where it is equal, in the order of their registration (`handlers_called_by_priority`).

* What a call registers can be read off the call alone: no handler or rule that is there already
  decides whether another is let in. So the registrations of a history are those of its calls.
* Calls that fail leave no trace, and neither do those for decorators.
-/

namespace NamedTape

theorem Event.ofName?_eq_some_iff {name : String} {event : Event} :
    ofName? name = some event ↔ name = event.name := by
  constructor
  · intro h
    have found := List.find?_some (p := (Event.name · == name)) h
    exact (beq_iff_eq.mp found).symm
  · rintro rfl
    cases event <;> decide

namespace Hooks

variable {H R : Type} {ownName : R → Except String String} {call : Call H R} {hooks : Hooks H R}

/-! ## What a call registers -/

/-- The rule with these parts, if its period is one. -/
def ruleOf? (period : Int) (owner name : String) (handler : R) : Option (StepRule R) :=
  if h : 0 < period then some ⟨period, owner, name, handler, h⟩ else none

namespace Call

/-- The registration for an event that a call makes, if it makes one. -/
def registration? : Call H R → Option (Registration H)
  | onEvent name (some handler) priority owner =>
    (Event.ofName? name).map fun event => { event, priority, owner, handler }
  | _ => none

/-- The rule that a call registers, if it registers one. -/
def rule? (ownName : R → Except String String) : Call H R → Option (StepRule R)
  | addRule name period handler owner => ruleOf? period owner name handler
  | everySteps period (some handler) name =>
    (ruleName ownName name handler).toOption.bind (ruleOf? period "" · handler)
  | _ => none

/-- The hooks with what the call registers. -/
def added (ownName : R → Except String String) (call : Call H R) (hooks : Hooks H R) :
    Hooks H R where
  handlers := call.registration?.elim hooks.handlers (insert · hooks.handlers)
  rules := hooks.rules ++ (call.rule? ownName).toList

/-- The call is for handlers of the event. -/
def names (event : Event) : Call H R → Bool
  | onEvent name .. => name == event.name
  | _ => false

theorem names_of_registration? {new : Registration H} (h : call.registration? = some new) :
    call.names new.event = true := by
  cases call with
  | onEvent name handler priority owner =>
    cases handler with
    | none => cases h
    | some handler =>
      obtain ⟨event, known, rfl⟩ := Option.map_eq_some_iff.mp h
      exact beq_iff_eq.mpr (Event.ofName?_eq_some_iff.mp known)
  | addRule name period handler owner => cases h
  | everySteps period handler name => cases h

end Call

/-! ## What a call does -/

namespace Call

/-- A call adds what it registers, unless it fails. Then it registers nothing and changes
nothing. -/
def Does (ownName : R → Except String String) (call : Call H R) (hooks : Hooks H R) :
    EStateM.Result Failure (Hooks H R) (Answer H R) → Prop
  | .ok _ changed => changed = call.added ownName hooks
  | .error _ changed => changed = hooks ∧ call.registration? = none ∧ call.rule? ownName = none

theorem added_of_idle (registers : call.registration? = none) (rules : call.rule? ownName = none) :
    call.added ownName hooks = hooks := by
  rw [added, registers, rules, Option.toList_none, List.append_nil]
  rfl

theorem does_nothing (registers : call.registration? = none) (rules : call.rule? ownName = none)
    (answer : Answer H R) : call.Does ownName hooks (.ok answer hooks) :=
  (added_of_idle registers rules).symm

section change

variable {act : Hooks H R → Except Refusal (Hooks H R)}

theorem does_of_ok (h : act hooks = .ok (call.added ownName hooks)) (answer : Answer H R) :
    call.Does ownName hooks
      ((do change act; return answer : EStateM Failure (Hooks H R) (Answer H R)) hooks) := by
  simp only [bind, EStateM.bind, change, h]
  rfl

theorem does_of_error (refusal : Refusal) (h : act hooks = .error refusal)
    (registers : call.registration? = none) (rules : call.rule? ownName = none)
    (answer : Answer H R) : call.Does ownName hooks
      ((do change act; return answer : EStateM Failure (Hooks H R) (Answer H R)) hooks) := by
  simp only [bind, EStateM.bind, change, h]
  exact ⟨rfl, registers, rules⟩

end change

theorem does_register (name : String) (handler : H) (priority : Int) (owner : String) :
    (onEvent name (some handler) priority owner : Call H R).Does ownName hooks
      ((onEvent name (some handler) priority owner).perform ownName hooks) := by
  cases known : Event.ofName? name with
  | some event =>
    refine does_of_ok ?_ _
    simp [register, added, registration?, rule?, known]
  | none =>
    refine does_of_error (.unknownEvent name) ?_ ?_ rfl _
    · rw [register, known]
    · rw [registration?, known]
      rfl

theorem does_addRule {period : Int} {owner name : String} {handler : R}
    (registers : call.registration? = none)
    (rules : call.rule? ownName = ruleOf? period owner name handler) (answer : Answer H R) :
    call.Does ownName hooks ((do
      change (·.addRule period owner name handler)
      return answer : EStateM Failure (Hooks H R) (Answer H R)) hooks) := by
  unfold ruleOf? at rules
  split at rules
  · next positive =>
    refine does_of_ok ?_ _
    rw [Hooks.addRule, dif_pos positive, added, registers, rules]
    rfl
  · next nonpositive =>
    refine does_of_error .period ?_ registers rules _
    rw [Hooks.addRule, dif_neg nonpositive]

theorem perform_does (ownName : R → Except String String) (call : Call H R) (hooks : Hooks H R) :
    call.Does ownName hooks (call.perform ownName hooks) := by
  cases call with
  | onEvent name handler priority owner =>
    cases handler with
    | some handler => exact does_register name handler priority owner
    | none =>
      cases known : Event.ofName? name with
      | some event =>
        simp only [perform, known]
        exact does_nothing rfl rfl _
      | none =>
        simp only [perform, known]
        exact ⟨rfl, rfl, rfl⟩
  | addRule name period handler owner => exact does_addRule rfl rfl _
  | everySteps period handler name =>
    cases handler with
    | some handler =>
      cases named : ruleName ownName name handler with
      | ok title =>
        simp only [perform, named]
        exact does_addRule rfl (by rw [rule?, named]; rfl) _
      | error failure =>
        simp only [perform, named]
        exact ⟨rfl, rfl, by rw [rule?, named]; rfl⟩
    | none => exact does_nothing rfl rfl _

/-- The hooks after the call, which may fail. -/
def after (ownName : R → Except String String) (call : Call H R) (hooks : Hooks H R) :
    Hooks H R :=
  match call.perform ownName hooks with
  | .ok _ changed | .error _ changed => changed

theorem after_eq (ownName : R → Except String String) (call : Call H R) (hooks : Hooks H R) :
    call.after ownName hooks = call.added ownName hooks := by
  have does := call.perform_does ownName hooks
  unfold after
  cases h : call.perform ownName hooks with
  | ok answer changed => exact (h ▸ does : call.Does ownName hooks (.ok answer changed))
  | error failure changed =>
    obtain ⟨rfl, registers, rules⟩ : call.Does ownName hooks (.error failure changed) := h ▸ does
    exact (added_of_idle registers rules).symm

end Call

/-! ## Any number of calls -/

/-- The hooks after the calls. One that fails is passed over. -/
def afterCalls (ownName : R → Except String String) (hooks : Hooks H R)
    (calls : List (Call H R)) : Hooks H R :=
  calls.foldl (fun hooks call => call.after ownName hooks) hooks

/-- The handlers after the calls are ranked if they have been before. -/
theorem Ranks.afterCalls {asked : List (Registration H)} (h : Ranks asked hooks.handlers)
    (ownName : R → Except String String) (calls : List (Call H R)) :
    Ranks (asked ++ calls.filterMap Call.registration?)
      (hooks.afterCalls ownName calls).handlers := by
  induction calls generalizing asked hooks with
  | nil => rwa [List.filterMap_nil, List.append_nil]
  | cons call rest ih =>
    rw [Hooks.afterCalls, List.foldl_cons, call.after_eq, List.filterMap_cons]
    cases registers : call.registration? with
    | none =>
      refine ih ?_
      rwa [Call.added, registers]
    | some new =>
      rw [List.append_cons]
      refine ih ?_
      rw [Call.added, registers]
      exact h.insert new

theorem rules_afterCalls (ownName : R → Except String String) (hooks : Hooks H R)
    (calls : List (Call H R)) : (hooks.afterCalls ownName calls).rules =
      hooks.rules ++ calls.filterMap (Call.rule? ownName) := by
  induction calls generalizing hooks with
  | nil => rw [List.filterMap_nil, List.append_nil]; rfl
  | cons call rest ih =>
    rw [afterCalls, List.foldl_cons, call.after_eq, List.filterMap_cons]
    refine (ih _).trans ?_
    rw [Call.added, List.append_assoc]
    cases call.rule? ownName <;> rfl

/-- The registrations for an event are made by the calls that name it. -/
theorem registered_of_names (event : Event) (calls : List (Call H R)) :
    ((calls.filter (·.names event)).filterMap Call.registration?).filter (·.event == event) =
      (calls.filterMap Call.registration?).filter (·.event == event) := by
  rw [List.filterMap_filter, List.filter_filterMap, List.filter_filterMap]
  refine congrArg (calls.filterMap ·) (funext fun call => ?_)
  cases registers : call.registration? with
  | none => split <;> rfl
  | some new =>
    by_cases own : new.event = event
    · rw [if_pos (own ▸ Call.names_of_registration? registers)]
    · have dropped : (some new).filter (·.event == event) = none := by
        simp [own]
      rw [dropped]
      split
      · exact dropped
      · rfl

/-- **Handlers are called by priority.** After any calls on new hooks, the handlers of an event are
those that have been registered for it, by descending priority and, where it is equal, in the order
of their registration; the rules that fire at a step are those whose period divides it, in the order
of theirs. To emit the event, or to take the step, is to call these in turn up to the first that
fails. A call adds what it registers, unless it fails: then it registers nothing and changes nothing.
All the calls that are not for an event can be left out without a change to its handlers, and to
register one more handler is to put it at the end and to sort the handlers of its event anew. -/
theorem handlers_called_by_priority (ownName : R → Except String String)
    (calls : List (Call H R)) :
    let hooks := ({} : Hooks H R).afterCalls ownName calls
    (∀ event,
      Ranks ((calls.filterMap Call.registration?).filter (·.event == event))
        (hooks.registrations event) ∧
      InTurn ((hooks.registrations event).map (·.handler)) fun call => hooks.emit call event) ∧
    (∀ step,
      hooks.due step =
        (calls.filterMap (Call.rule? ownName)).filter (fun rule => rule.period ∣ step) ∧
      InTurn ((hooks.due step).map (·.handler)) fun call => hooks.afterStep call step) ∧
    (∀ (call : Call H R) now, call.Does ownName now (call.perform ownName now)) ∧
    (∀ event, (({} : Hooks H R).afterCalls ownName
      (calls.filter (·.names event))).registrations event = hooks.registrations event) ∧
    ∀ new, (insert new hooks.handlers).filter (·.event == new.event) =
      resorted (hooks.registrations new.event ++ [new]) := by
  intro hooks
  have none : Ranks [] ({} : Hooks H R).handlers := ⟨.refl _, .nil, fun _ => rfl⟩
  have ranked : Ranks (calls.filterMap Call.registration?) hooks.handlers :=
    none.afterCalls ownName calls
  refine ⟨fun event => ⟨ranked.filter _, hooks.emit_inTurn event⟩,
    fun step => ⟨?_, hooks.afterStep_inTurn step⟩, Call.perform_does ownName, fun event => ?_,
    fun new => ?_⟩
  · rw [due_eq, rules_afterCalls]
    rfl
  · have own := (none.afterCalls ownName (calls.filter (·.names event))).filter (·.event == event)
    rw [List.nil_append, registered_of_names] at own
    exact own.unique (ranked.filter _)
  · have own : Ranks _ (hooks.registrations new.event) := ranked.filter (·.event == new.event)
    have placed := (ranked.insert new).filter (·.event == new.event)
    rw [List.filter_append, List.filter_cons_of_pos (by simp), List.filter_nil] at placed
    exact (placed.unique (own.insert new)).trans (own.insert_eq_resorted new)

/-- Handlers for two events, of equal and of different priorities, and rules, among calls that are
refused and calls for decorators. -/
def mixed : List (Call String String) :=
  [.onEvent "on_error" (some "low") (-1), .everySteps 3 none, .onEvent "program_end" (some "end") 7,
    .onEvent "on_error" (some "first"), .onEvent "no_such_event" (some "lost") 9,
    .everySteps 3 (some "third"), .onEvent "on_error" none 5, .onEvent "on_error" (some "high") 5,
    .addRule "even" 2 "second", .everySteps 0 (some "never"), .onEvent "on_error" (some "last")]

/-- A handler that counts its calls, unless it is the last to be registered. Then it fails. -/
def counts (handler : String) : EStateM String Nat Unit :=
  if handler = "last" then throw "off" else modify (· + 1)

theorem handlers_called_by_priority_mixed :
    ∃ hooks, ({} : Hooks String String).afterCalls .ok mixed = hooks ∧
      Ranks ((mixed.filterMap Call.registration?).filter (·.event == .onError))
        (hooks.registrations .onError) ∧
      InTurn ["high", "first", "last", "low"] (fun call => hooks.emit call .onError) ∧
      hooks.emit (noting counts) .onError (0, []) =
        .error "off" (2, ["high", "first", "last"]) ∧
      InTurn ["third", "second"] (fun call => hooks.afterStep call 6) ∧
      (Call.onEvent "on_error" none 5).perform .ok hooks =
        .ok (.handlerDecorator fun handler => .onEvent "on_error" (some handler) 5) hooks ∧
      ∃ e, (Call.everySteps 0 (some "never")).perform .ok hooks = .error e hooks := by
  obtain ⟨events, steps, does, -⟩ := handlers_called_by_priority .ok mixed
  obtain ⟨ranks, emits⟩ := events .onError
  have fires := (steps 6).2
  have refused : ∃ e changed, (Call.everySteps 0 (some "never")).perform .ok
      (({} : Hooks String String).afterCalls .ok mixed) = .error e changed := ⟨_, _, rfl⟩
  obtain ⟨e, changed, he⟩ := refused
  obtain ⟨rfl, -⟩ : Call.Does _ _ _ (.error e changed) := he ▸ does (.everySteps 0 (some "never")) _
  exact ⟨_, rfl, ranks, emits, rfl, fires, rfl, e, he⟩

end Hooks

end NamedTape
