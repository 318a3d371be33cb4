import NamedTape.Proofs.Arrival
import NamedTape.Proofs.Twins

/-!
# Chronicles

A chronicle is the record of all that a run calls its hooks for: the events that handlers are told
of, and the rules that fire. It is kept beside the host by hooks that write down every call before
it is made (`Hooks.chronicled`), and keeping it disturbs nothing (`executeFor_watched`).
-/

namespace NamedTape

/-- What the hooks of a run are called for. -/
inductive Happening (σ : Type)
  /-- The handlers of an event are told so. -/
  | told (notice : Notice)
  /-- A rule fires at a step. -/
  | fired (rule : StepRule (Tick → Action (Store σ) Unit)) (tick : Tick)

/-- A host with a chronicle beside it. -/
abbrev Chronicled (σ : Type) := σ × List (Happening σ)

namespace Store

open NamedTape.Action (Agree Keeps Meets Parallel)

variable {σ α : Type}

/-- Writes down a happening. -/
def note (happening : Happening σ) : Action (Store (Chronicled σ)) Unit :=
  modify fun s => s.hosting (s.host.1, s.host.2 ++ [happening])

/-- Does what the action does to a store without a chronicle. -/
def beside (act : Action (Store σ) α) : Action (Store (Chronicled σ)) α := fun s =>
  match act (s.hosting s.host.1) with
  | .ok a t => .ok a (t.hosting (t.host, s.host.2))
  | .error e t => .error e (t.hosting (t.host, s.host.2))

/-- The second host is the first with a chronicle. -/
abbrev Kept (host : σ) (host' : Chronicled σ) : Prop := host'.1 = host

theorem beside_alike (act : Action (Store σ) α) :
    Parallel (Alike Kept) act (beside act) := by
  rintro s _ @⟨⟨host, chronicle⟩, kept⟩
  obtain rfl : host = s.host := kept
  show Agree _ (act s) (match act s with | .ok a t => _ | .error e t => _)
  cases act s with
  | ok a t => exact .ok (.mk rfl)
  | error e t => exact .error (.mk rfl)

theorem note_alike (happening : Happening σ) {act : Action (Store σ) α}
    {act' : Action (Store (Chronicled σ)) α} (h : Parallel (Alike Kept) act act') :
    Parallel (Alike Kept) act (note happening >>= fun _ => act') := by
  rintro s _ ⟨kept⟩
  exact h s _ (.mk kept)

/-- An action that does the same whatever the host does not change the host. -/
theorem keeps_host {host : σ} {act : Action (Store σ) α}
    (h : Parallel (Alike fun _ host' => host' = host) act act) :
    Keeps (fun s : Store σ => s.host = host) act := by
  rintro s rfl
  have same := h s s (.mk (s := s) rfl)
  generalize act s = r at same
  cases same with
  | ok alike => exact alike.host
  | error alike => exact alike.host

end Store
/-! ## Hooks that write down what they are called for -/

/-- The handler that writes down an event. -/
def Registration.recorder {σ : Type} (event : Event) :
    Registration (Notice → Action (Store (Chronicled σ)) Unit) where
  event
  handler notice := Store.note (.told notice)

/-- The registration with its handler beside a chronicle. -/
def Registration.beside {σ : Type} (r : Registration (Notice → Action (Store σ) Unit)) :
    Registration (Notice → Action (Store (Chronicled σ)) Unit) where
  event := r.event
  priority := r.priority
  owner := r.owner
  handler notice := Store.beside (r.handler notice)

/-- The rule beside a chronicle, in which it is written down whenever it fires. -/
def StepRule.recorded {σ : Type} (rule : StepRule (Tick → Action (Store σ) Unit)) :
    StepRule (Tick → Action (Store (Chronicled σ)) Unit) where
  period := rule.period
  owner := rule.owner
  name := rule.name
  handler tick := do
    Store.note (.fired rule tick)
    Store.beside (rule.handler tick)
  period_pos := rule.period_pos

/-- The action never fails. -/
def Action.Returns {σ : Type} (act : Action σ Unit) : Prop := ∀ s, ∃ t, act s = .ok () t

namespace Hooks

open NamedTape.Action (Meets Parallel)
open Store (Alike Kept HooksAlike)

variable {σ : Type} (hooks : StoreHooks σ)

/-- The hooks beside a chronicle, in which every event is written down before any of its handlers
is called, and every rule before it is. -/
def chronicled : StoreHooks (Chronicled σ) where
  handlers := Event.all.map .recorder ++ hooks.handlers.map .beside
  rules := hooks.rules.map .recorded

/-- No handler and no rule ever fails. -/
structure Return : Prop where
  handlers : ∀ r ∈ hooks.handlers, ∀ notice, (r.handler notice).Returns
  rules : ∀ rule ∈ hooks.rules, ∀ tick, (rule.handler tick).Returns

theorem registrations_chronicled (event : Event) :
    hooks.chronicled.registrations event =
      .recorder event :: (hooks.registrations event).map .beside := by
  have recorders : (Event.all.map (Registration.recorder (σ := σ))).filter (·.event == event) =
      [.recorder event] := by cases event <;> rfl
  simp only [registrations, chronicled, List.filter_append, recorders, List.filter_map]
  rfl

theorem due_chronicled (step : Int) :
    hooks.chronicled.due step = (hooks.due step).map .recorded := by
  simp only [due, chronicled, List.filter_map]
  rfl

theorem emit_chronicled (notice : Notice) :
    hooks.chronicled.emit (· notice) notice.event = (do
      Store.note (.told notice)
      ((hooks.registrations notice.event).map Registration.beside).forM (·.handler notice)) := by
  rw [emit, registrations_chronicled]
  rfl

/-- Writing down disturbs nothing. -/
theorem chronicled_alike : HooksAlike Kept hooks hooks.chronicled where
  emit notice := by
    rw [emit_chronicled]
    exact Store.note_alike _ (.forM _ fun r _ => Store.beside_alike _)
  afterStep tick := by
    rw [afterStep, afterStep, due_chronicled]
    exact .forM _ fun rule _ => Store.note_alike _ (Store.beside_alike _)

variable {hooks} {told : List (Happening σ)}

theorem beside_chronicle {act : Action (Store σ) Unit} :
    Meets (·.host.2 = told) (Store.beside act) (fun _ t => t.host.2 = told)
      fun _ t => t.host.2 = told ∧ ¬ act.Returns := by
  rintro s rfl
  unfold Store.beside
  cases ha : act (s.hosting s.host.1) with
  | ok a t => rfl
  | error e t =>
    refine ⟨rfl, fun returns => ?_⟩
    obtain ⟨u, hu⟩ := returns (s.hosting s.host.1)
    cases ha.symm.trans hu

theorem note_chronicle (happening : Happening σ) {E : Raised → Store (Chronicled σ) → Prop} :
    Meets (·.host.2 = told) (Store.note happening)
      (fun _ t => t.host.2 = told ++ [happening]) E :=
  .modify fun _ hs => congrArg (· ++ [happening]) hs

/-- An event is in the chronicle once, whether its handlers fail or not. -/
theorem emit_tells (notice : Notice) :
    Meets (·.host.2 = told) (hooks.chronicled.emit (· notice) notice.event)
      (fun _ t => t.host.2 = told ++ [.told notice])
      fun _ t => t.host.2 = told ++ [.told notice] ∧ ¬ hooks.Return := by
  rw [emit_chronicled]
  refine (note_chronicle _).bind fun _ => ?_
  have among : ∀ r ∈ hooks.registrations notice.event, r ∈ hooks.handlers :=
    fun r hr => (List.mem_filter.mp hr).1
  generalize hooks.registrations notice.event = registrations at among
  induction registrations with
  | nil => exact .pure fun _ hs => hs
  | cons r rest ih =>
    refine (beside_chronicle.mono_error ?_).bind fun _ =>
      ih fun r' hr' => among r' (List.mem_cons_of_mem r hr')
    exact fun _ _ ⟨ht, fails⟩ =>
      ⟨ht, fun returns => fails (returns.handlers r (among r List.mem_cons_self) notice)⟩

/-- The rules that fire at a step are in the chronicle in turn, up to the first that fails. -/
theorem afterStep_tells (tick : Tick) :
    Meets (·.host.2 = told) (hooks.chronicled.afterStep (· tick) tick.step)
      (fun _ t => t.host.2 = told ++ (hooks.due tick.step).map (.fired · tick))
      fun _ t => (∃ some, some <+: (hooks.due tick.step).map (.fired · tick) ∧
        t.host.2 = told ++ some) ∧ ¬ hooks.Return := by
  rw [afterStep, due_chronicled]
  have among : ∀ rule ∈ hooks.due tick.step, rule ∈ hooks.rules :=
    fun rule hr => (List.mem_filter.mp hr).1
  generalize hooks.due tick.step = rules at among
  induction rules generalizing told with
  | nil => exact .pure fun _ hs => hs.trans (List.append_nil _).symm
  | cons rule rest ih =>
    have later := @ih (told ++ [.fired rule tick])
      fun rule' hr' => among rule' (List.mem_cons_of_mem rule hr')
    refine ((note_chronicle _).bind fun _ => beside_chronicle.mono_error ?_).bind fun _ =>
      later.mono (fun _ hs => hs) ?_ ?_
    · rintro e t ⟨ht, fails⟩
      exact ⟨⟨[.fired rule tick], List.prefix_append _ _, ht⟩,
        fun returns => fails (returns.rules rule (among rule List.mem_cons_self) tick)⟩
    · rintro _ t ht
      simpa using ht
    · rintro e t ⟨⟨some, hsome, ht⟩, fails⟩
      exact ⟨⟨.fired rule tick :: some, (List.prefix_cons_inj _).mpr hsome, by simpa using ht⟩,
        fails⟩

end Hooks

/-! ## Sessions with a chronicle -/

namespace Session

open NamedTape.Action (Agree Parallel)
open Store (Kept)

variable {σ : Type}

/-- The session with an empty chronicle beside its host, and hooks that keep it. -/
def watched (s : Session σ) : Session (Chronicled σ) :=
  s.among (s.store.hosting (s.store.host, [])) s.hooks.chronicled

/-- What has been written down. -/
def chronicle (s : Session (Chronicled σ)) : List (Happening σ) := s.store.host.2

/-- The second session is the first with a chronicle that its hooks keep. -/
abbrev Watches (hooks : StoreHooks σ) : Session σ → Session (Chronicled σ) → Prop :=
  Twins Kept hooks hooks.chronicled

theorem watches_watched (s : Session σ) : Watches s.hooks s s.watched := .mk rfl (.mk rfl)

end Session

end NamedTape
