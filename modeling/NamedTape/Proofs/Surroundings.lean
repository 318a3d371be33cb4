import NamedTape.Proofs.Checkpoints
import NamedTape.Proofs.Failings

/-!
# The surroundings of a session

A session cannot know what its device, its hooks and its cancel callback fail with. If all that they
fail with is of some kind (`Session.Surrounded`), and a session makes of it what it should
(`Treats`), then so is what cuts a walk short (`Treats.maintains`).

The surroundings stay as they are throughout: a handler or a rule may do anything to the store but
exchange its device for one of another kind.
-/

namespace NamedTape

open NamedTape.Action (Meets)
open Store (Fails)

namespace Session

variable {σ α : Type} {E : Raised → Prop} {F : Raised → Session σ → Prop}

/-- Whatever is around the session fails with failures of the kind. A handler or a rule may do
anything else to the store. -/
structure Surrounded (E : Raised → Prop) (s : Session σ) : Prop where
  device : s.store.device.Fails E
  handlers : ∀ r ∈ s.hooks.handlers, ∀ notice, Fails E (r.handler notice)
  rules : ∀ r ∈ s.hooks.rules, ∀ tick, Fails E (r.handler tick)
  cancel : ∀ answers, s.cancel = some answers → ∀ k e, answers k = .error e → E e

/-- Out of failures of the first kind a session makes those of the second. -/
structure Treats (E : Raised → Prop) (F : Raised → Session σ → Prop) : Prop where
  plain : ∀ e : Raised, e.Plain → E e
  outside : ∀ {e} s, E e → F e s
  within : ∀ {e s} span, F e s → F (e.within span) s
  hook : ∀ {failure} event s, E (.foreign failure) →
    F (.quoting failure { cause := .hookFailed event failure, span := s.lastSpan }) s
  rule : ∀ {failure} span s, E (.foreign failure) →
    F (.quoting failure { cause := .stepRuleFailed failure, span := some span }) s
  cancelled : ∀ span s, F (.fault { cause := .cancelled, span := some span }) s

/-- The part leaves the surroundings of a session as they are, and is cut short by failures of the
second kind. -/
def Passes (E : Raised → Prop) (F : Raised → Session σ → Prop) (act : Action (Session σ) α) :
    Prop :=
  Meets (Surrounded E) act (fun _ => Surrounded E) fun e s => Surrounded E s ∧ F e s

theorem onStore_surrounded {act : Action (Store σ) α} (h : Fails E act) :
    Passes E (fun e _ => E e) (onStore act) := by
  refine meets_onStore
    (fun s a store hs ha => ⟨h.ok hs.device ha, hs.handlers, hs.rules, hs.cancel⟩)
    fun s e store hs ha => ?_
  obtain ⟨device, fails⟩ := h.error hs.device ha
  exact ⟨⟨device, hs.handlers, hs.rules, hs.cancel⟩, fails⟩

theorem blame_passes {act : Action (Store σ) Unit} {toFault : Session σ → Foreign → Fault}
    (h : Fails E act) (outside : ∀ {e} s, E e → F e s)
    (blamed : ∀ {failure} s, E (.foreign failure) → F (.quoting failure (toFault s failure)) s) :
    Passes E F (Action.restating (fun s => .blame (toFault s)) (onStore act)) := by
  refine .restating ((onStore_surrounded h).mono_error ?_)
  rintro e s ⟨surrounded, fails⟩
  refine ⟨surrounded, ?_⟩
  cases e with
  | fault f => exact outside s fails
  | foreign failure => exact blamed s fails
  | interrupt => exact outside s fails

theorem forM_fails {H : Type} {call : H → Action (Store σ) Unit} {l : List H}
    (h : ∀ r ∈ l, Fails E (call r)) : Fails E (l.forM call) := by
  induction l with
  | nil => exact .pure fun _ hs => hs
  | cons r rest ih =>
    obtain ⟨first, rest⟩ := List.forall_mem_cons.mp h
    exact Meets.bind first fun _ => ih rest

section treats

variable (h : Treats E F)
include h

theorem Treats.onStore {act : Action (Store σ) α} (ha : Fails E act) :
    Passes E F (onStore act) :=
  (onStore_surrounded ha).mono_error fun _ s he => ⟨he.1, h.outside s he.2⟩

theorem Treats.announce (notice : Notice) : Passes E F (announce notice) := by
  refine .get fun s hs => ?_
  have handlers : Fails E (s.hooks.emit (· notice) notice.event) :=
    forM_fails fun r hr => hs.handlers r (List.mem_filter.mp hr).1 notice
  exact Meets.mono (blame_passes handlers h.outside fun t => h.hook notice.event t)
    (fun _ ht => ht ▸ hs) (fun _ _ ht => ht) fun _ _ he => he

theorem Treats.applyRules (tick : Tick) : Passes E F (applyRules tick) := by
  refine .get fun s hs => ?_
  have rules : Fails E (s.hooks.afterStep (· tick) tick.step) :=
    forM_fails fun r hr => hs.rules r (List.mem_filter.mp hr).1 tick
  exact Meets.mono (blame_passes rules h.outside fun t => h.rule tick.span t)
    (fun _ ht => ht ▸ hs) (fun _ _ ht => ht) fun _ _ he => he

theorem Treats.checkCancelled (span : Span) : Passes E F (checkCancelled span) := by
  intro s hs
  have asked : Surrounded E { s with checks := s.checks + 1 } :=
    ⟨hs.device, hs.handlers, hs.rules, hs.cancel⟩
  cases hr : Session.checkCancelled span s with
  | ok a t =>
    unfold Session.checkCancelled at hr
    split at hr
    · cases hr
      exact hs
    · dsimp only at hr
      split at hr <;> cases hr
      exact asked
  | error e t =>
    unfold Session.checkCancelled at hr
    split at hr
    · cases hr
    · next answers hc =>
      dsimp only at hr
      split at hr <;> cases hr
      · exact ⟨asked, h.cancelled span _⟩
      · next ha => exact ⟨asked, h.outside _ (hs.cancel answers hc _ _ ha)⟩

theorem Treats.takeStep (frame : Nat) (i : Instruction) : Passes E F (takeStep frame i) := by
  have recorded : ∀ view, Passes E F (record frame i view) := fun _ s hs =>
    ⟨hs.device, hs.handlers, hs.rules, hs.cancel⟩
  intro s hs
  rw [takeStep_eq]
  exact (h.onStore (Store.observe_fails h.plain _)).bind (fun view =>
    (recorded view).bind fun tick => h.applyRules tick) s hs

/-- **What surrounds a walk decides what cuts it short.** -/
theorem Treats.maintains :
    Maintains (Surrounded E) (fun _ => True) fun e s => Surrounded E s ∧ F e s where
  announce := h.announce
  checkCancelled := h.checkCancelled
  takeStep := h.takeStep
  cell := h.onStore (Store.cell_fails h.plain)
  receive := h.onStore (Store.receive_fails h.plain)
  perform _ _ := h.onStore (Store.perform_fails h.plain _ _)
  within span he := ⟨he.1, h.within span he.2⟩
  frame _ _ := ⟨trivial, trivial⟩
  cons _ := ⟨trivial, trivial⟩
  body _ := trivial
  setRest {s rest} hs _ := by
    have same := setRest_same s (.refl s) rest
    exact ⟨s.setRest_store rest ▸ hs.device, same.hooks ▸ hs.handlers, same.hooks ▸ hs.rules,
      same.cancel ▸ hs.cancel⟩
  push _ hs _ := ⟨hs.device, hs.handlers, hs.rules, hs.cancel⟩
  pop {s} hs := by
    have same := pop_same s (.refl s)
    exact ⟨s.pop_store ▸ hs.device, same.hooks ▸ hs.handlers, same.hooks ▸ hs.rules,
      same.cancel ▸ hs.cancel⟩

theorem Treats.prepare (program : Program) : Passes E F (prepare program) := by
  refine .get fun s hs => Meets.mono (P := Surrounded E) ?_ (fun _ ht => ht ▸ hs)
    (fun _ _ ht => ht) fun _ _ he => he
  cases s.options.preallocate with
  | false => exact h.announce _
  | true =>
    exact Meets.bind (h.onStore (Store.assignAll_fails h.plain)) fun _ => h.announce _

end treats

end Session

end NamedTape
