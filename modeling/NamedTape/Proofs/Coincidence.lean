import NamedTape.Proofs.Lockstep
import NamedTape.Proofs.MergedExecutions

/-!
# Executions that coincide

Two quiet sessions whose programs run in lockstep either both go on forever, or come to ends that
correspond, unless an operation fails in a way after which nothing is compared
(`Abreast.coincide`). Failures are compared as they are reported, but for the numbers of their
steps, which go on from one execution of a session to the next.
-/

namespace NamedTape

namespace Raised

/-- A failure as it is reported, but for its step. -/
def untimed : Raised → Raised
  | .fault f => .fault { f with step := none }
  | other => other

theorem heading_untimed (e : Raised) : e.untimed.heading = e.heading ∧ e.untimed.span = e.span := by
  cases e <;> exact ⟨rfl, rfl⟩

end Raised

namespace Session

open NamedTape.Action (Tally)
open Instruction (Mirrors)
open Store (Breaks Lockstep Pairing Runs)

variable {σ τ : Type} {program program' : Program} {aliases aliases' : Option AliasTable}
  {s t : Session σ} {s' t' : Session τ}

/-! ## Reports -/

theorem untimed_report (t : Session σ) (e : Raised) :
    (report t e).untimed = e.attributed t.lastSpan := by
  cases e with
  | fault f => rfl
  | interrupt => rfl
  | foreign failure =>
    obtain voiced | ⟨other, mute⟩ := failure.voiced_or
    · rw [report, Raised.attributed, Raised.quoting_of_voiced voiced,
        Raised.quoting_of_voiced voiced]
      rfl
    · rw [report, Raised.attributed, Raised.quoting_of_text mute, Raised.quoting_of_text mute]
      rfl

/-- A run that fails before its first step fails as the tape is looked at. -/
theorem observe_of_runs_nil {verbose preallocated : Bool} {l : List Instruction}
    {store store' : Store σ} {e : Raised}
    (h : Runs verbose preallocated (.list l) store [] (.error e store')) :
    Store.observe verbose store = .error e store' := by
  cases h with
  | unseen h => exact h

/-! ## Openings -/

/-- Programs open alike on tapes that correspond, if their aliases do. -/
theorem opening_tally {P : Pairing} {f : String → String} (hn : P.Names f)
    (ht : P.tapes s.store.tape.clear.realign s'.store.tape.clear.realign)
    (hd : P.devices s.store.device s'.store.device)
    (hp : s'.options.preallocate = s.options.preallocate)
    (names : s.options.preallocate = true →
      (aliases'.getD (.ofNames program'.aliasNames)).names =
        (aliases.getD (.ofNames program.aliasNames)).names.map f) :
    Tally P.Pairs P.failures (opening program aliases s) (opening program' aliases' s') := by
  have hs : P.Pairs (s.begin program aliases).store (s'.begin program' aliases').store := by
    refine ⟨ht, ?_, hd⟩
    rw [hn.aliases]
    exact AliasTable.renames_clear f _ _
  unfold opening
  rw [hp]
  cases hpre : s.options.preallocate with
  | false => exact .ok hs
  | true =>
    refine hs.onAliases ?_
    rw [hn.aliases]
    exact AliasTable.assignAll_tally hn.injective (Store.cells_of_tapes ht)
      (AliasTable.renames_clear f _ _) (names hpre) hn.noFreeCell

/-! ## Executions that are compared -/

/-- The ends of two executions correspond. -/
inductive Concur (P : Pairing) :
    EStateM.Result Raised (Session σ) Unit → EStateM.Result Raised (Session τ) Unit → Prop
  | completed {t : Session σ} {t' : Session τ} (store : P.Pairs t.store t'.store) :
    Concur P (.ok () t) (.ok () t')
  | failed {e e' : Raised} {t : Session σ} {t' : Session τ} (store : P.Pairs t.store t'.store)
    (failure : P.failures e.untimed e'.untimed) : Concur P (.error e t) (.error e' t')

/-- Two executions go on forever, or both come to an end, and then to ends that correspond. -/
structure Coincide (P : Pairing) (program : Program) (aliases : Option AliasTable) (s : Session σ)
    (program' : Program) (aliases' : Option AliasTable) (s' : Session τ) : Prop where
  diverges : Diverges program aliases s ↔ Diverges program' aliases' s'
  ends : ∀ r r', Executes program aliases s r → Executes program' aliases' s' r' → Concur P r r'

/-- The execution comes to its end by such a failure of the operation that it took last. -/
def BreaksOff (breaks : Operation → Raised → Prop) (program : Program)
    (aliases : Option AliasTable) (s : Session σ) : Prop :=
  ∃ store steps r, opening program aliases s = .ok () store ∧
    Runs s.log.verbose s.options.preallocate (.list program.instructions) store steps r ∧
    Breaks breaks steps r

/-- The session fails before the first step. -/
def FailsEarly (program : Program) (aliases : Option AliasTable) (s : Session σ) (e : Raised) :
    Prop :=
  (∃ store, opening program aliases s = .error e store) ∨
    ∃ store, opening program aliases s = .ok () store ∧
      Store.observe s.log.verbose store = .error e store

/-- Two sessions are about to execute programs in lockstep. -/
structure Abreast (L : Lockstep) (program : Program) (aliases : Option AliasTable)
    (s : Session σ) (program' : Program) (aliases' : Option AliasTable) (s' : Session τ) :
    Prop where
  quiet : s.Quiet
  quiet' : s'.Quiet
  verbose : s'.log.verbose = s.log.verbose
  preallocate : s'.options.preallocate = s.options.preallocate
  mirrors : Mirrors L.leaves program.instructions program'.instructions
  marches : L.Marches σ τ s.options.preallocate
  opening : Tally L.Pairs L.failures (opening program aliases s) (opening program' aliases' s')
  /-- A failure before the first step does not depend on earlier steps. -/
  early : ∀ e, FailsEarly program' aliases' s' e →
    e.attributed s'.lastSpan = e.attributed s.lastSpan

section abreast

variable {L : Lockstep}

/-- Both sessions fail before the programs are started. -/
theorem Abreast.coincide_unopened (h : Abreast L program aliases s program' aliases' s')
    {e e' : Raised} {store : Store σ} {store' : Store τ}
    (ho : Session.opening program aliases s = .error e store)
    (ho' : Session.opening program' aliases' s' = .error e' store') (hs : L.Pairs store store')
    (he : L.failures e e') : Coincide L.toPairing program aliases s program' aliases' s' := by
  have first : ∀ r, Executes program aliases s r ↔
      concluded (.error e ((s.begin program aliases).withStore store)) = r := by
    intro r
    rw [executes_iff h.quiet.hooks, ho]
  have second : ∀ r, Executes program' aliases' s' r ↔
      concluded (.error e' ((s'.begin program' aliases').withStore store')) = r := by
    intro r
    rw [executes_iff h.quiet'.hooks, ho']
  refine ⟨?_, fun r r' hr hr' => ?_⟩
  · rw [diverges_iff, diverges_iff]
    exact not_congr (iff_of_true ⟨_, (first _).mpr rfl⟩ ⟨_, (second _).mpr rfl⟩)
  · obtain rfl := (first r).mp hr
    obtain rfl := (second r').mp hr'
    refine .failed hs ?_
    rw [untimed_report, untimed_report]
    have early := h.early e' (.inl ⟨_, ho'⟩)
    exact early.symm ▸ L.attributed s.lastSpan he

/-- The failures of two runs that correspond are reported in ways that correspond. -/
theorem Abreast.failures_report (h : Abreast L program aliases s program' aliases' s')
    {store' : Store τ} {steps steps' : List Instruction} {e e' : Raised}
    (ho' : Session.opening program' aliases' s' = .ok () store')
    (hr' : Runs s'.log.verbose s'.options.preallocate (.list program'.instructions) store' steps'
      (.error e' t'.store))
    (hadd : Log.Adds steps s.log t.log) (hadd' : Log.Adds steps' s'.log t'.log)
    (mirrors : Mirrors L.leaves steps steps') (he : L.failures e e') :
    L.failures (report t e).untimed (report t' e').untimed := by
  rw [untimed_report, untimed_report, lastSpan_of_adds hadd, lastSpan_of_adds hadd',
    ← List.getLast?_map, ← List.getLast?_map, mirrors.spans]
  cases hl : (steps.map (·.span)).getLast? with
  | some span => exact L.attributed (some span) he
  | none =>
    -- No step has been taken, so both runs fail as the tape is looked at.
    rw [List.getLast?_eq_none_iff, List.map_eq_nil_iff] at hl
    subst hl
    cases mirrors
    have unseen := observe_of_runs_nil hr'
    have early := h.early e' (.inr ⟨store', ho', Store.observe_error unseen ▸ unseen⟩)
    exact early.symm ▸ L.attributed s.lastSpan he

theorem Abreast.follows (h : Abreast L program aliases s program' aliases' s') {store : Store σ}
    {store' : Store τ} (hs : L.Pairs store store') {steps : List Instruction}
    {r : Store.Outcome σ}
    (hr : Runs s.log.verbose s.options.preallocate (.list program.instructions) store steps r) :
    L.Answers steps r (Runs s'.log.verbose s'.options.preallocate (.list program'.instructions)
      store') := by
  rw [h.verbose, h.preallocate]
  exact h.marches.follows (.list h.mirrors) hs hr

theorem Abreast.followed (h : Abreast L program aliases s program' aliases' s') {store : Store σ}
    {store' : Store τ} (hs : L.Pairs store store') {steps : List Instruction}
    {r : Store.Outcome τ}
    (hr : Runs s'.log.verbose s'.options.preallocate (.list program'.instructions) store' steps
      r) :
    L.flip.Answers steps r (Runs s.log.verbose s.options.preallocate
      (.list program.instructions) store) := by
  rw [h.verbose, h.preallocate] at hr
  exact h.marches.flip.follows (.list h.mirrors.flip) (Pairing.pairs_flip.mpr hs) hr

section opened

variable {store : Store σ} {store' : Store τ}
  (h : Abreast L program aliases s program' aliases' s') (hs : L.Pairs store store')
  (ho : Session.opening program aliases s = .ok () store)
  (ho' : Session.opening program' aliases' s' = .ok () store')
  (hb : ¬ BreaksOff L.breaks program aliases s)
  (hb' : ¬ BreaksOff L.breaks' program' aliases' s')
include h hs ho ho' hb hb'

/-- An execution that ends is answered by one that ends alike. -/
theorem Abreast.answers {r : EStateM.Result Raised (Session σ) Unit}
    (hr : Executes program aliases s r) :
    ∃ r', Executes program' aliases' s' r' ∧ Concur L.toPairing r r' := by
  obtain ⟨steps, result, hruns, hadd, rfl⟩ := h.quiet.runs_of_executes ho hr
  cases h.follows hs hruns with
  | broken broken => exact absurd ⟨store, steps, _, ho, hruns, broken⟩ hb
  | breaks hruns' broken => exact absurd ⟨store', _, _, ho', hruns', broken⟩ hb'
  | @alike steps' r' hruns' mirrors tally =>
    obtain ⟨_, hr', -⟩ := h.quiet'.executes_of_runs ho' hruns'
    obtain ⟨steps'', result', hruns'', hadd', hresult⟩ := h.quiet'.runs_of_executes ho' hr'
    obtain ⟨rfl, rfl⟩ := hruns'.unique hruns''
    refine ⟨_, hr', hresult ▸ ?_⟩
    cases result with
    | ok a t =>
      cases result' with
      | ok a' t' =>
        cases tally with
        | ok pairs => exact .completed (by rwa [pop_store, pop_store])
      | error e' t' => cases tally
    | error e t =>
      cases result' with
      | ok a' t' => cases tally
      | error e' t' =>
        cases tally with
        | error pairs he =>
          exact .failed pairs (h.failures_report ho' hruns' hadd hadd' mirrors he)

theorem Abreast.executes_of_executes {r' : EStateM.Result Raised (Session τ) Unit}
    (hr' : Executes program' aliases' s' r') : ∃ r, Executes program aliases s r := by
  obtain ⟨steps', result', hruns', -, -⟩ := h.quiet'.runs_of_executes ho' hr'
  cases h.followed hs hruns' with
  | broken broken => exact absurd ⟨store', steps', _, ho', hruns', broken⟩ hb'
  | breaks hruns broken => exact absurd ⟨store, _, _, ho, hruns, broken⟩ hb
  | alike hruns _ _ =>
    obtain ⟨_, hr, -⟩ := h.quiet.executes_of_runs ho hruns
    exact ⟨_, hr⟩

end opened

/-- **Executions in lockstep.** Unless one of them breaks off, two executions whose programs run in
lockstep coincide. -/
theorem Abreast.coincide (h : Abreast L program aliases s program' aliases' s')
    (hb : ¬ BreaksOff L.breaks program aliases s)
    (hb' : ¬ BreaksOff L.breaks' program' aliases' s') :
    Coincide L.toPairing program aliases s program' aliases' s' := by
  have opened := h.opening
  cases ho : Session.opening program aliases s with
  | error e store =>
    rw [ho] at opened
    obtain ⟨e', store', ho', hs, he⟩ := opened.of_error
    exact h.coincide_unopened ho ho' hs he
  | ok a store =>
    rw [ho] at opened
    obtain ⟨store', ho', hs⟩ := opened.of_ok
    constructor
    · rw [diverges_iff, diverges_iff]
      refine not_congr ⟨fun ⟨r, hr⟩ => ?_, fun ⟨r', hr'⟩ => ?_⟩
      · obtain ⟨r', hr', -⟩ := h.answers hs ho ho' hb hb' hr
        exact ⟨r', hr'⟩
      · exact h.executes_of_executes hs ho ho' hb hb' hr'
    · intro r r' hr hr'
      obtain ⟨r'', hr'', concur⟩ := h.answers hs ho ho' hb hb' hr
      cases hr'.unique hr''
      exact concur

theorem Abreast.coincide_along {P : Pairing} {leaves : Operation → Operation → Prop}
    (h : Abreast (P.along leaves) program aliases s program' aliases' s') :
    Coincide P program aliases s program' aliases' s' := by
  refine h.coincide ?_ ?_
  · rintro ⟨_, _, _, -, -, ⟨_, _, _, ⟨⟩⟩⟩
  · rintro ⟨_, _, _, -, -, ⟨_, _, _, ⟨⟩⟩⟩

end abreast

end Session

end NamedTape
