import NamedTape.Proofs.Surroundings

/-!
# Failures that claim no place in the log

A session places some of the faults it makes at the latest step of its log: those that stand for a
failing handler, and for a foreign failure that ended a run. Tape, aliases and operations make no
such faults, and give none a step. If the surroundings are as candid (`Session.Candid`), whatever
cuts a walk short is placed truthfully (`Faithful`): it has no step yet, and if it is placed by the
log, it is placed at the latest step (`treats_candid`).
-/

namespace NamedTape

/-- The failure has no step, and is not one that a session places by its log. -/
def Raised.Candid : Raised → Prop
  | .fault f => f.step = none ∧ ¬ f.cause.FromLog
  | .foreign _ | .interrupt => True

theorem Raised.candid_of_plain (e : Raised) (h : e.Plain) : e.Candid := by
  cases e with
  | fault f => exact h.2
  | foreign failure => trivial
  | interrupt => trivial

namespace Session

variable {σ : Type}

/-- Nothing around the session claims a place in its log: not the device, the handlers, the rules or
the cancel callback. -/
abbrev Candid (s : Session σ) : Prop := s.Surrounded Raised.Candid

/-- The failure has no step yet, and if it is placed by the log, it is placed at the latest step. -/
def Faithful (e : Raised) (s : Session σ) : Prop :=
  ∀ f, e = .fault f → f.step = none ∧
    (f.cause.FromLog → ∀ span, s.lastSpan = some span → f.span = some span)

theorem faithful_of_candid {e : Raised} (h : e.Candid) (s : Session σ) : Faithful e s := by
  rintro f rfl
  exact ⟨h.1, fun placed => absurd placed h.2⟩

theorem Faithful.within {e : Raised} {s : Session σ} (h : Faithful e s) (span : Span) :
    Faithful (e.within span) s := by
  intro g hg
  cases e with
  | foreign failure => cases hg
  | interrupt => cases hg
  | fault f =>
    cases hg
    refine ⟨(h f rfl).1, fun placed last hlast => ?_⟩
    show (f.span <|> some span) = some last
    rw [(h f rfl).2 placed last hlast]
    rfl

/-- What quotes a failure is placed truthfully if the fault is. -/
theorem Faithful.quoting {fault : Fault} {s : Session σ} (h : Faithful (.fault fault) s)
    (failure : Foreign) : Faithful (.quoting failure fault) s := by
  obtain same | ⟨other, foreign⟩ := Raised.quoting_cases failure fault
  · exact same ▸ h
  · rw [foreign]
    exact nofun

/-- **Candid failures are placed truthfully.** -/
theorem treats_candid : Treats (σ := σ) Raised.Candid Faithful where
  plain := Raised.candid_of_plain
  outside s h := faithful_of_candid h s
  within span h := h.within span
  hook event s _ := by
    refine Faithful.quoting ?_ _
    rintro _ ⟨⟩
    exact ⟨rfl, fun _ _ hspan => hspan⟩
  rule span s _ := by
    refine Faithful.quoting ?_ _
    rintro _ ⟨⟩
    exact ⟨rfl, False.elim⟩
  cancelled span s := by
    rintro _ ⟨⟩
    exact ⟨rfl, False.elim⟩

end Session

end NamedTape
