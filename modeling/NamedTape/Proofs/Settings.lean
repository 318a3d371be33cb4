import NamedTape.Proofs.Moves
import NamedTape.Proofs.Semantics

/-!
# Settings

A walk changes neither the options nor the hooks nor the cancel callback of its session, and it
leaves the log as verbose as it is, whatever handlers, rules and callbacks do. The parts of a move
that work on a session keep all that does not depend on its store, its log and its count of checks
(`Indifferent`).
-/

namespace NamedTape

namespace Session

open NamedTape.Action (Keeps Meets)
open Store (observe)

variable {σ α : Type}

/-- The second session has the settings of the first. -/
structure SameSettings (s t : Session σ) : Prop where
  options : t.options = s.options
  hooks : t.hooks = s.hooks
  cancel : t.cancel = s.cancel
  verbose : t.log.verbose = s.log.verbose

theorem SameSettings.refl (s : Session σ) : SameSettings s s := ⟨rfl, rfl, rfl, rfl⟩

theorem SameSettings.trans {s t u : Session σ} (h : SameSettings s t) (h' : SameSettings t u) :
    SameSettings s u :=
  ⟨h'.options.trans h.options, h'.hooks.trans h.hooks, h'.cancel.trans h.cancel,
   h'.verbose.trans h.verbose⟩

/-- Asking the cancel callback counts, whatever its answer, and does nothing else. -/
theorem checkCancelled_cases (span : Span) (s : Session σ) :
    ∃ checks, checkCancelled span s = .ok () { s with checks } ∨
      ∃ e, checkCancelled span s = .error e { s with checks } := by
  unfold checkCancelled
  split
  · exact ⟨s.checks, .inl rfl⟩
  · refine ⟨s.checks + 1, ?_⟩
    dsimp only
    split
    · exact .inl rfl
    · exact .inr ⟨_, rfl⟩
    · exact .inr ⟨_, rfl⟩

theorem takeStep_eq (frame : Nat) (i : Instruction) (t : Session σ) :
    takeStep frame i t = (onStore (observe t.log.verbose) >>= fun view =>
      record frame i view >>= applyRules) t := by
  have h : takeStep frame i t = ((if t.log.verbose then
      some <$> onStore (Store.onTape Tape.snapshot) else pure none) >>= fun view =>
      record frame i view >>= applyRules : Action (Session σ) Unit) t := by
    unfold takeStep
    rw [Action.get_bind]
    cases t.log.verbose <;> rfl
  rw [h]
  cases t.log.verbose with
  | false => rfl
  | true =>
    simp only [if_true, bind, EStateM.bind, observe, Functor.map, EStateM.map, onStore,
      Store.onTape]
    cases Tape.snapshot t.store.tape <;> rfl

/-- What `P` says of a session depends neither on its store nor on how often it has asked the cancel
callback. -/
structure Aloof (P : Session σ → Prop) : Prop where
  store : ∀ {s} store, P s → P { s with store }
  checks : ∀ {s} checks, P s → P { s with checks }

section aloof

variable {P : Session σ → Prop} (h : Aloof P)
include h

theorem Aloof.onStore (act : Action (Store σ) α) : Keeps P (onStore act) :=
  meets_onStore (fun _ _ store hs _ => h.store store hs) fun _ _ store hs _ => h.store store hs

theorem Aloof.announce (notice : Notice) : Keeps P (announce notice) :=
  .get fun _ ht => .restating ((h.onStore _).mono (fun _ hs => hs ▸ ht) (fun _ _ hs => hs)
    fun _ _ hs => hs)

theorem Aloof.applyRules (tick : Tick) : Keeps P (applyRules tick) :=
  .get fun _ ht => .restating ((h.onStore _).mono (fun _ hs => hs ▸ ht) (fun _ _ hs => hs)
    fun _ _ hs => hs)

theorem Aloof.checkCancelled (span : Span) : Keeps P (checkCancelled span) := by
  intro s hs
  obtain ⟨checks, asked | ⟨e, asked⟩⟩ := checkCancelled_cases span s
  · rw [asked]
    exact h.checks checks hs
  · rw [asked]
    exact h.checks checks hs

end aloof

/-- What `P` says of a session depends neither on its store nor on its log nor on how often it has
asked the cancel callback. -/
structure Indifferent (P : Session σ → Prop) : Prop where
  store : ∀ {s} store, P s → P { s with store }
  checks : ∀ {s} checks, P s → P { s with checks }
  record : ∀ frame i view, Keeps P (record frame i view)

section indifferent

variable {P : Session σ → Prop} (h : Indifferent P)
include h

theorem Indifferent.aloof : Aloof P := ⟨h.store, h.checks⟩

theorem Indifferent.onStore (act : Action (Store σ) α) : Keeps P (onStore act) :=
  h.aloof.onStore act

theorem Indifferent.announce (notice : Notice) : Keeps P (announce notice) :=
  h.aloof.announce notice

theorem Indifferent.applyRules (tick : Tick) : Keeps P (applyRules tick) := h.aloof.applyRules tick

theorem Indifferent.checkCancelled (span : Span) : Keeps P (checkCancelled span) :=
  h.aloof.checkCancelled span

theorem Indifferent.takeStep (frame : Nat) (i : Instruction) : Keeps P (takeStep frame i) := by
  intro s hs
  rw [takeStep_eq]
  exact (h.onStore (observe s.log.verbose)).bind (fun view =>
    (h.record frame i view).bind fun tick => h.applyRules tick) s hs

end indifferent

variable (s : Session σ)

theorem indifferent_same : Indifferent (SameSettings s) where
  store _ ht := ⟨ht.options, ht.hooks, ht.cancel, ht.verbose⟩
  checks _ ht := ⟨ht.options, ht.hooks, ht.cancel, ht.verbose⟩
  record _ _ _ _ ht := ⟨ht.options, ht.hooks, ht.cancel, ht.verbose⟩

theorem setRest_same {t : Session σ} (h : SameSettings s t) (rest : List Instruction) :
    SameSettings s (t.setRest rest) := by
  unfold setRest
  split
  · exact h
  · exact ⟨h.options, h.hooks, h.cancel, h.verbose⟩

theorem pop_same {t : Session σ} (h : SameSettings s t) : SameSettings s t.pop := by
  unfold pop
  split
  · exact h
  · exact ⟨h.options, h.hooks, h.cancel, h.verbose⟩

theorem maintains_same : Maintains (SameSettings s) (fun _ => True) fun _ => SameSettings s where
  announce := (indifferent_same s).announce
  checkCancelled := (indifferent_same s).checkCancelled
  takeStep := (indifferent_same s).takeStep
  cell := (indifferent_same s).onStore _
  receive := (indifferent_same s).onStore _
  perform _ _ := (indifferent_same s).onStore _
  within _ ht := ht
  frame _ _ := ⟨trivial, trivial⟩
  cons _ := ⟨trivial, trivial⟩
  body _ := trivial
  setRest ht _ := setRest_same s ht _
  push _ ht _ := ⟨ht.options, ht.hooks, ht.cancel, ht.verbose⟩
  pop := pop_same s

theorem move_keeps (mode : Mode) : Keeps (SameSettings s) (move mode) :=
  (maintains_same s).move mode

end Session

end NamedTape
