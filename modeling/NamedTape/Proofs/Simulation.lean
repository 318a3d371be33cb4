import NamedTape.Proofs.Semantics
import NamedTape.Proofs.Throughout

/-!
# Simulation

How two pieces of program compare, told once for all ways of comparing them.

* A `Similarity` relates the stores that two runs start from or complete with, and the ways in which
  they fail. What was done before both failures must not matter to it.
* `S.Simulates first second`: whatever the first piece comes to, the second comes to something like
  it. A piece that ends is compared, and one that goes on forever is not; the flipped similarity
  gives the other direction.
* Sequences and loops simulate each other if their parts do.
-/

namespace NamedTape

namespace Store

variable {σ : Type}

/-- A way of comparing two runs. -/
structure Similarity (σ : Type) where
  stores : Store σ → Store σ → Prop
  /-- Of two failing runs: the steps, the failure and the store of each. -/
  failures : List Instruction → Raised → Store σ → List Instruction → Raised → Store σ → Prop
  prepend : ∀ {steps steps' : List Instruction} {e e' : Raised} {t t' : Store σ}
    (before before' : List Instruction), failures steps e t steps' e' t' →
      failures (before ++ steps) e t (before' ++ steps') e' t'

namespace Similarity

variable {S : Similarity σ}

/-- The runs compared the other way round. -/
def flip (S : Similarity σ) : Similarity σ where
  stores s s' := S.stores s' s
  failures steps e t steps' e' t' := S.failures steps' e' t' steps e t
  prepend before before' h := S.prepend before' before h

/-- Two runs that have ended are alike. -/
inductive Alike (S : Similarity σ) :
    List Instruction → Outcome σ → List Instruction → Outcome σ → Prop
  | completed {steps steps' : List Instruction} {t t' : Store σ} (h : S.stores t t') :
    Alike S steps (.ok () t) steps' (.ok () t')
  | failed {steps steps' : List Instruction} {e e' : Raised} {t t' : Store σ}
    (h : S.failures steps e t steps' e' t') : Alike S steps (.error e t) steps' (.error e' t')

/-- Whatever the first behavior comes to, the second comes to something alike. -/
def Simulates (S : Similarity σ) (first second : Behavior σ) : Prop :=
  ∀ s s' steps r, S.stores s s' → first s steps r →
    ∃ steps' r', second s' steps' r' ∧ S.Alike steps r steps' r'

theorem Alike.prepend {steps steps' : List Instruction} {r r' : Outcome σ}
    (h : S.Alike steps r steps' r') (before before' : List Instruction) :
    S.Alike (before ++ steps) r (before' ++ steps') r' := by
  cases h with
  | completed h => exact .completed h
  | failed h => exact .failed (S.prepend before before' h)

theorem Alike.flip {steps steps' : List Instruction} {r r' : Outcome σ}
    (h : S.Alike steps r steps' r') : S.flip.Alike steps' r' steps r := by
  cases h with
  | completed h => exact .completed h
  | failed h => exact .failed h

/-! ## Sequences -/

theorem simulates_then {first first' next next' : Behavior σ} (h : S.Simulates first first')
    (hn : S.Simulates next next') : S.Simulates (Then first next) (Then first' next') := by
  rintro s s' _ _ hs (⟨hf⟩ | ⟨hf, hr⟩)
  · obtain ⟨steps', r', hf', halike⟩ := h _ _ _ _ hs hf
    cases halike with
    | failed hfail => exact ⟨steps', _, .fails hf', .failed hfail⟩
  · obtain ⟨steps', r', hf', halike⟩ := h _ _ _ _ hs hf
    cases halike with
    | completed ht =>
      obtain ⟨steps'', r'', hr', halike⟩ := hn _ _ _ _ ht hr
      exact ⟨steps' ++ steps'', r'', .goes hf' hr', halike.prepend _ _⟩

end Similarity

/-- Running a list of instructions is running its first part and then the rest of it. -/
theorem runs_append (verbose preallocated : Bool) (l m : List Instruction) :
    Runs (σ := σ) verbose preallocated (.list (l ++ m)) =
      Then (Runs verbose preallocated (.list l)) (Runs verbose preallocated (.list m)) := by
  funext s steps r
  refine propext ⟨fun h => ?_, fun h => ?_⟩
  · induction l generalizing s steps with
    | nil => exact .goes Runs.nil h
    | cons i rest ih =>
      cases h with
      | unseen h => exact .fails (.unseen h)
      | leaf seen first next =>
        cases ih _ _ next with
        | fails h => exact .fails (.leaf seen first h)
        | goes h h' =>
          rw [← List.cons_append]
          exact .goes (.leaf seen first h) h'
      | leafFails seen first => exact .fails (.leafFails seen first)
      | loop seen first next =>
        cases ih _ _ next with
        | fails h => exact .fails (.loop seen first h)
        | goes h h' =>
          rw [← List.append_assoc, ← List.cons_append]
          exact .goes (.loop seen first h) h'
      | loopFails seen first => exact .fails (.loopFails seen first)
  · induction l generalizing s steps with
    | nil =>
      cases h with
      | fails h => cases h
      | goes h h' => cases h; exact h'
    | cons i rest ih =>
      cases h with
      | fails h =>
        cases h with
        | unseen h => exact .unseen h
        | leaf seen first next => exact .leaf seen first (ih _ _ (.fails next))
        | leafFails seen first => exact .leafFails seen first
        | loop seen first next => exact .loop seen first (ih _ _ (.fails next))
        | loopFails seen first => exact .loopFails seen first
      | goes h h' =>
        cases h with
        | leaf seen first next => exact .leaf seen first (ih _ _ (.goes next h'))
        | loop seen first next =>
          rw [List.cons_append, List.cons_append, List.append_assoc]
          exact .loop seen first (ih _ _ (.goes next h'))

namespace Similarity

variable {S : Similarity σ} {verbose preallocated : Bool}

theorem simulates_append {l l' m m' : List Instruction}
    (h : S.Simulates (Runs verbose preallocated (.list l)) (Runs verbose preallocated (.list l')))
    (hm : S.Simulates (Runs verbose preallocated (.list m))
      (Runs verbose preallocated (.list m'))) :
    S.Simulates (Runs verbose preallocated (.list (l ++ m)))
      (Runs verbose preallocated (.list (l' ++ m'))) := by
  rw [runs_append, runs_append]
  exact simulates_then h hm

theorem simulates_nil : S.Simulates (Runs verbose preallocated (.list []))
    (Runs verbose preallocated (.list [])) := by
  intro s s' steps r hs h
  cases h
  exact ⟨[], _, .nil, .completed hs⟩

/-! ## Loops -/

/-- Similar stores can be looked at, and have the same value in the current cell. -/
structure Looks (S : Similarity σ) (verbose : Bool) : Prop where
  cell : ∀ s s', S.stores s s' → ∃ n, Store.cell s = .ok n s ∧ Store.cell s' = .ok n s'
  seen : ∀ s s', S.stores s s' → ∃ view view', observe verbose s = .ok view s ∧
    observe verbose s' = .ok view' s'

theorem Looks.flip (hl : S.Looks verbose) : S.flip.Looks verbose where
  cell s s' h := by
    obtain ⟨n, hc, hc'⟩ := hl.cell s' s h
    exact ⟨n, hc', hc⟩
  seen s s' h := by
    obtain ⟨view, view', hv, hv'⟩ := hl.seen s' s h
    exact ⟨view', view, hv', hv⟩

theorem simulates_passes (hl : S.Looks verbose) {body body' : List Instruction}
    (h : S.Simulates (Runs verbose preallocated (.list body))
      (Runs verbose preallocated (.list body'))) :
    S.Simulates (Runs verbose preallocated (.passes body))
      (Runs verbose preallocated (.passes body')) := by
  intro s s' steps r hs hr
  generalize ht : Task.passes body = task at hr
  induction hr generalizing s' with
  | leaves hc =>
    obtain ⟨n, hc', hcell⟩ := hl.cell _ _ hs
    cases hc.symm.trans hc'
    exact ⟨[], _, .leaves hcell, .completed hs⟩
  | pass hc hn first next _ ih =>
    cases ht
    obtain ⟨n, hc', hcell⟩ := hl.cell _ _ hs
    cases hc.symm.trans hc'
    obtain ⟨steps', r', hfirst, halike⟩ := h _ _ _ _ hs first
    cases halike with
    | completed hs' =>
      obtain ⟨steps'', r'', hnext, halike⟩ := ih _ hs' rfl
      exact ⟨_, _, .pass hcell hn hfirst hnext, halike.prepend _ _⟩
  | passFails hc hn first _ =>
    cases ht
    obtain ⟨n, hc', hcell⟩ := hl.cell _ _ hs
    cases hc.symm.trans hc'
    obtain ⟨steps', r', hfirst, halike⟩ := h _ _ _ _ hs first
    cases halike with
    | failed hfail => exact ⟨_, _, .passFails hcell hn hfirst, .failed hfail⟩
  | wild hc =>
    obtain ⟨n, hc', -⟩ := hl.cell _ _ hs
    cases hc.symm.trans hc'
  | nil => cases ht
  | unseen _ => cases ht
  | leaf _ _ _ _ => cases ht
  | leafFails _ _ => cases ht
  | loop _ _ _ _ _ => cases ht
  | loopFails _ _ _ => cases ht

theorem simulates_loop (hl : S.Looks verbose) {body body' : List Instruction} (span span' : Span)
    (h : S.Simulates (Runs verbose preallocated (.list body))
      (Runs verbose preallocated (.list body'))) :
    S.Simulates (Runs verbose preallocated (.list [.loop body span]))
      (Runs verbose preallocated (.list [.loop body' span'])) := by
  intro s s' steps r hs hr
  obtain ⟨view, view', hv, hv'⟩ := hl.seen _ _ hs
  cases hr with
  | unseen hu => cases hu.symm.trans hv
  | loop seen first next =>
    obtain ⟨steps', r', hfirst, halike⟩ := simulates_passes hl h _ _ _ _ hs first
    cases next
    cases halike with
    | completed hs' => exact ⟨_, _, .loop hv' hfirst .nil, .completed hs'⟩
  | loopFails seen first =>
    obtain ⟨steps', r', hfirst, halike⟩ := simulates_passes hl h _ _ _ _ hs first
    cases halike with
    | failed hfail =>
      exact ⟨_, _, .loopFails hv' hfirst,
        .failed (S.prepend [.loop body span] [.loop body' span'] hfail)⟩

/-- A program simulates itself if its leaves do. -/
theorem simulates_self (hl : S.Looks verbose) {P : Operation → Prop}
    (hleaf : ∀ operation span, P operation →
      S.Simulates (Runs verbose preallocated (.list [.leaf operation span]))
        (Runs verbose preallocated (.list [.leaf operation span])))
    {program : List Instruction} (hp : Instruction.EachLeaf P program) :
    S.Simulates (Runs verbose preallocated (.list program))
      (Runs verbose preallocated (.list program)) := by
  induction hp with
  | @intro program here inside ih =>
    -- The bodies inside belong to the whole program, so the inner induction is on a part of it.
    suffices part : ∀ l, (∀ i ∈ l, i ∈ program) →
        S.Simulates (Runs verbose preallocated (.list l)) (Runs verbose preallocated (.list l)) from
      part program fun _ h => h
    intro l hsub
    induction l with
    | nil => exact simulates_nil
    | cons i rest ihrest =>
      have hi := hsub i List.mem_cons_self
      have first : S.Simulates (Runs verbose preallocated (.list [i]))
          (Runs verbose preallocated (.list [i])) := by
        cases i with
        | leaf operation span => exact hleaf operation span (here operation span hi)
        | loop body span => exact simulates_loop hl span span (ih body span hi)
      exact simulates_append first (ihrest fun j hj => hsub j (List.mem_cons_of_mem i hj))

/-! ## Chains -/

/-- Comparisons can be chained. -/
structure Transitive (S : Similarity σ) : Prop where
  middle : ∀ s s'', S.stores s s'' → ∃ s', S.stores s s' ∧ S.stores s' s''
  stores : ∀ s s' s'', S.stores s s' → S.stores s' s'' → S.stores s s''
  failures : ∀ {steps steps' steps'' : List Instruction} {e e' e'' : Raised} {t t' t'' : Store σ},
    S.failures steps e t steps' e' t' → S.failures steps' e' t' steps'' e'' t'' →
      S.failures steps e t steps'' e'' t''

theorem Transitive.flip (ht : S.Transitive) : S.flip.Transitive where
  middle s s'' h := by
    obtain ⟨s', h', h''⟩ := ht.middle s'' s h
    exact ⟨s', h'', h'⟩
  stores s s' s'' h h' := ht.stores s'' s' s h' h
  failures h h' := ht.failures h' h

theorem simulates_trans (ht : S.Transitive) {first second third : Behavior σ}
    (h : S.Simulates first second) (h' : S.Simulates second third) :
    S.Simulates first third := by
  intro s s'' steps r hs hr
  obtain ⟨s', hs', hs''⟩ := ht.middle s s'' hs
  obtain ⟨steps', r', hr', halike⟩ := h _ _ _ _ hs' hr
  obtain ⟨steps'', r'', hr'', halike'⟩ := h' _ _ _ _ hs'' hr'
  refine ⟨steps'', r'', hr'', ?_⟩
  cases halike with
  | completed hst =>
    cases halike' with
    | completed hst' => exact .completed (ht.stores _ _ _ hst hst')
  | failed hfail =>
    cases halike' with
    | failed hfail' => exact .failed (ht.failures hfail hfail')

/-! ## Both directions -/

/-- Each of the behaviors simulates the other. -/
structure Bisimulates (S : Similarity σ) (first second : Behavior σ) : Prop where
  forth : S.Simulates first second
  back : S.flip.Simulates second first

theorem Bisimulates.trans (ht : S.Transitive) {first second third : Behavior σ}
    (h : S.Bisimulates first second) (h' : S.Bisimulates second third) :
    S.Bisimulates first third :=
  ⟨simulates_trans ht h.forth h'.forth, simulates_trans ht.flip h'.back h.back⟩

theorem Bisimulates.append {l l' m m' : List Instruction}
    (h : S.Bisimulates (Runs verbose preallocated (.list l)) (Runs verbose preallocated (.list l')))
    (hm : S.Bisimulates (Runs verbose preallocated (.list m))
      (Runs verbose preallocated (.list m'))) :
    S.Bisimulates (Runs verbose preallocated (.list (l ++ m)))
      (Runs verbose preallocated (.list (l' ++ m'))) :=
  ⟨simulates_append h.forth hm.forth, simulates_append h.back hm.back⟩

theorem Bisimulates.loop (hl : S.Looks verbose) {body body' : List Instruction} (span : Span)
    (h : S.Bisimulates (Runs verbose preallocated (.list body))
      (Runs verbose preallocated (.list body'))) :
    S.Bisimulates (Runs verbose preallocated (.list [.loop body span]))
      (Runs verbose preallocated (.list [.loop body' span])) :=
  ⟨simulates_loop hl span span h.forth, simulates_loop hl.flip span span h.back⟩

theorem Bisimulates.self (hl : S.Looks verbose) {P : Operation → Prop}
    (hleaf : ∀ operation span, P operation →
      S.Bisimulates (Runs verbose preallocated (.list [.leaf operation span]))
        (Runs verbose preallocated (.list [.leaf operation span])))
    {program : List Instruction} (hp : Instruction.EachLeaf P program) :
    S.Bisimulates (Runs verbose preallocated (.list program))
      (Runs verbose preallocated (.list program)) :=
  ⟨simulates_self hl (fun operation span h => (hleaf operation span h).forth) hp,
   simulates_self hl.flip (fun operation span h => (hleaf operation span h).back) hp⟩

/-- Where only equal stores are alike, a behavior simulates itself if its runs are like
themselves. -/
theorem bisimulates_of_alike (heq : ∀ s s', S.stores s s' → s' = s) {behavior : Behavior σ}
    (h : ∀ s steps r, S.stores s s → behavior s steps r → S.Alike steps r steps r) :
    S.Bisimulates behavior behavior := by
  constructor
  · intro s s' steps r hs hr
    cases heq s s' hs
    exact ⟨steps, r, hr, h s steps r hs hr⟩
  · intro s s' steps r hs hr
    cases heq s' s hs
    exact ⟨steps, r, hr, (h s steps r hs hr).flip⟩

/-- Where both tasks have a run, it is enough to compare these. -/
theorem bisimulates_of_runs {task task' : Task}
    (h : ∀ s s', S.stores s s' → ∃ steps r steps' r',
      Runs verbose preallocated task s steps r ∧ Runs verbose preallocated task' s' steps' r' ∧
        S.Alike steps r steps' r') :
    S.Bisimulates (Runs verbose preallocated task) (Runs verbose preallocated task') := by
  constructor
  · intro s s' steps r hs hr
    obtain ⟨steps₁, r₁, steps', r', h₁, h', halike⟩ := h s s' hs
    obtain ⟨rfl, rfl⟩ := hr.unique h₁
    exact ⟨steps', r', h', halike⟩
  · intro s s' steps r hs hr
    obtain ⟨steps₁, r₁, steps', r', h₁, h', halike⟩ := h s' s hs
    obtain ⟨rfl, rfl⟩ := hr.unique h'
    exact ⟨steps₁, r₁, h₁, halike.flip⟩

end Similarity

end Store

end NamedTape
