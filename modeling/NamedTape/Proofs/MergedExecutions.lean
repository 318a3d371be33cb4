import NamedTape.Proofs.Executions
import NamedTape.Proofs.Refinement
import NamedTape.Proofs.Written

/-!
# Executing merged programs

Merging the runs of a program changes nothing that an execution shows, and all that it can change in
a failure is told exactly (`merged_executes_alike`).
-/

namespace NamedTape

namespace Store

variable {σ : Type} {limits : Limits} {verbose preallocated : Bool}

/-! ## Counts that cannot be written -/

theorem heading_raise_overlong {cause : Cause} {n : Int} (hn : n ∈ cause.numbers)
    (hw : limits.canWrite n = false) : (limits.raise cause).heading = Raised.internal := by
  have hall : ¬ cause.numbers.all limits.canWrite = true := fun h =>
    Bool.eq_false_iff.mp hw (List.all_eq_true.mp h n hn)
  rw [Limits.raise, if_neg hall]
  rfl

theorem heading_shift_overlong {t t' : Tape} (h : t.Sound limits) {delta : Int} {e : Raised}
    (hw : limits.canWrite delta = false) (he : Tape.shift delta t = .error e t') :
    e.heading = Raised.internal := by
  rw [h.shift_eq] at he
  split at he <;> cases he
  exact heading_raise_overlong (by simp [Cause.numbers]) hw

theorem heading_moveLeft_overlong {t t' : Tape} (h : t.Sound limits) {count : Int} {e : Raised}
    (hw : limits.canWrite count = false) (he : Tape.moveLeft count t = .error e t') :
    e.heading = Raised.internal := by
  rw [Tape.moveLeft_def, h.limits_eq] at he
  split at he
  · cases he
  split at he
  · cases he
  · split at he <;> cases he
    rfl
  · cases he
    exact heading_raise_overlong List.mem_cons_self hw

theorem heading_moveRight_overlong {t t' : Tape} (h : t.Sound limits) {count : Int} {e : Raised}
    (hw : limits.canWrite count = false) (he : Tape.moveRight count t = .error e t') :
    e.heading = Raised.internal := by
  rw [Tape.moveRight_def, h.limits_eq] at he
  split at he
  · cases he
  split at he
  · cases he
  · split at he <;> cases he
    rfl
  · cases he
    exact heading_raise_overlong List.mem_cons_self hw

/-- A counted operation with a count that cannot be written does not leave a range when it fails. -/
theorem heading_turn_overlong {s t : Store σ} (h : s.Sound limits) {kind : Counted} {count : Int}
    {e : Raised} (hw : limits.canWrite count = false) (he : turn kind count s = .error e t) :
    e.heading = Raised.internal := by
  have onTape_error : ∀ act : Action Tape Unit, onTape act s = .error e t →
      ∃ tape, act s.tape = .error e tape := by
    intro act ha
    unfold onTape at ha
    split at ha <;> cases ha
    next tape hact => exact ⟨tape, hact⟩
  cases kind with
  | add =>
    obtain ⟨tape, hact⟩ := onTape_error _ he
    exact heading_shift_overlong h.tape hw hact
  | subtract =>
    obtain ⟨tape, hact⟩ := onTape_error _ he
    refine heading_shift_overlong h.tape ?_ hact
    rwa [Limits.canWrite, Int.natAbs_neg]
  | left =>
    rw [turn, moveLeft] at he
    split at he <;> cases he
    next hmove =>
      obtain ⟨tape, hact⟩ := onTape_error _ hmove
      exact heading_moveLeft_overlong h.tape hw hact
  | right =>
    obtain ⟨tape, hact⟩ := onTape_error _ he
    exact heading_moveRight_overlong h.tape hw hact

theorem Performs.turn_error {kind : Counted} {count : Int} {s t : Store σ} {e : Raised}
    (h : Performs preallocated (.counted kind count) s (.error e t)) :
    turn kind count s = .error e t := by
  cases h with
  | fails h =>
    rw [perform_counted] at h
    rcases Action.eq_error_of_bind h with h | ⟨a, u, -, h⟩
    · exact h
    · cases h
  | again h _ =>
    rw [perform_counted] at h
    obtain ⟨a, u, -, h⟩ := Action.eq_ok_of_bind h
    cases h

/-- The instructions of a task. -/
def Task.instructions : Task → List Instruction
  | .list program => program
  | .passes body => body

/-- What a run has done that ends in a sound way: if it completed, the store is sound; if it failed,
it has taken a step, and has not left a range by a count that cannot be written. -/
def EndsSound (limits : Limits) (steps : List Instruction) : Outcome σ → Prop
  | .ok _ t => t.Sound limits
  | .error e _ => steps ≠ [] ∧ (Overlong limits steps → e.heading = Raised.internal)

theorem EndsSound.prepend {steps : List Instruction} {r : Outcome σ}
    (h : EndsSound limits steps r) (before : List Instruction) :
    EndsSound limits (before ++ steps) r := by
  cases r with
  | ok a t => exact h
  | error e t =>
    refine ⟨List.append_ne_nil_of_right_ne_nil before h.1, ?_⟩
    rw [overlong_append h.1]
    exact h.2

/-- From a sound store every run ends in a sound way. -/
theorem Runs.endsSound (hl : limits.Legible) {task : Task} {s : Store σ}
    {steps : List Instruction} {r : Outcome σ} (h : Runs verbose preallocated task s steps r)
    (hs : s.Sound limits) (hp : Instruction.EachLeaf Operation.Nonneg task.instructions) :
    EndsSound limits steps r := by
  induction h with
  | nil => exact hs
  | unseen h =>
    obtain ⟨view, seen⟩ := hs.observe_ok hl verbose
    cases h.symm.trans seen
  | leaf _ first _ ih => exact (ih (first.sound hp.of_leaf hs rfl) hp.tail).prepend [_]
  | leafFails _ first =>
    refine ⟨List.cons_ne_nil _ _, ?_⟩
    rintro ⟨kind, count, span, hlast, hw⟩
    cases hlast
    rw [heading_within]
    exact heading_turn_overlong hs hw first.turn_error
  | loop _ _ _ ih ih' => exact (ih' (ih hs hp.of_loop) hp.tail).prepend (_ :: _)
  | loopFails _ _ ih => exact (ih hs hp.of_loop).prepend [_]
  | leaves _ => exact hs
  | pass _ _ _ _ ih ih' => exact (ih' (ih hs hp) hp).prepend _
  | passFails _ _ _ ih => exact ih hs hp
  | wild h => cases h.symm.trans hs.cell_ok

end Store

namespace Raised

/-- The stretch of text that a failure is attributed to. -/
def span : Raised → Option Span
  | .fault f => f.span
  | _ => none

theorem not_outOfRange_of_internal {e : Raised} (h : e.heading = internal) : ¬ e.OutOfRange := by
  rw [OutOfRange, h]
  decide

end Raised

namespace Session

open Store (Runs)

variable {σ : Type}

/-! ## Openings and reports -/

theorem opening_sound {program : Program} {aliases : Option AliasTable} {s : Session σ}
    {store : Store σ} (hv : s.store.tape.Viable) (ho : opening program aliases s = .ok () store) :
    store.Sound s.store.tape.limits := by
  have begun : (s.begin program aliases).store.Sound s.store.tape.limits :=
    ⟨hv.sound_realign, AliasTable.fits_clear _ _⟩
  unfold opening at ho
  split at ho
  · exact (Store.onAliases_keeps AliasTable.assignAll_keeps).ok begun ho
  · cases ho
    exact begun

theorem heading_report (t : Session σ) (e : Raised) : (report t e).heading = e.heading := by
  cases e with
  | fault f => rfl
  | interrupt => rfl
  | foreign failure =>
    obtain h | ⟨other, h⟩ := Raised.quoting_cases failure
      { cause := .unexpected failure, span := t.lastSpan, step := t.log.last.map (·.step) }
    · rw [report, h]
      rfl
    · rw [report, h]
      rfl

/-- A failure that is reported after some steps is attributed to its place after them. -/
theorem span_report {s t : Session σ} {steps : List Instruction} (h : Log.Adds steps s.log t.log)
    (hne : steps ≠ []) (e : Raised) : (report t e).span = e.place steps := by
  cases e with
  | fault f => rfl
  | interrupt => rfl
  | foreign failure =>
    obtain ⟨text, voiced⟩ | ⟨other, mute⟩ := failure.voiced_or
    · rw [report, Raised.quoting_of_voiced ⟨text, voiced⟩, Raised.place, voiced]
      show t.lastSpan = steps.getLast?.map (·.span)
      rw [lastSpan_of_adds h, List.getLast?_eq_some_getLast hne]
      rfl
    · rw [report, Raised.quoting_of_text mute, Raised.place, mute]
      rfl

/-! ## Plain and merged executions -/

/-- The execution of the program ends at a counted operation with a count that cannot be written. -/
def StopsOverlong (program : Program) (aliases : Option AliasTable) (s : Session σ) : Prop :=
  ∃ store steps r, opening program aliases s = .ok () store ∧
    Runs s.log.verbose s.options.preallocate (.list program.instructions) store steps r ∧
    Store.Overlong s.store.tape.limits steps

/-- How a plain and a merged execution compare that both end. They show the same to the world
outside, and complete with the same store; two that fail do so under the same heading, unless the
plain one leaves a range where the merged one has a count that cannot be written. -/
inductive EndsAlike (overlong parsed : Prop) :
    EStateM.Result Raised (Session σ) Unit → EStateM.Result Raised (Session σ) Unit → Prop
  | completed {t t' : Session σ} (store : t'.store = t.store) :
    EndsAlike overlong parsed (.ok () t) (.ok () t')
  | failed {e e' : Raised} {t t' : Session σ} (device : t'.store.device = t.store.device)
    (heading : e'.heading = e.heading ↔ ¬ (e.OutOfRange ∧ overlong))
    (internal : e'.heading ≠ e.heading → e'.heading = Raised.internal)
    (place : parsed → Encloses e'.span e.span) :
    EndsAlike overlong parsed (.error e t) (.error e' t')

section merged

variable {s : Session σ} {program : Program} {aliases : Option AliasTable} {parsed : Prop}

/-- Runs of a plain and of a merged program that compare well end alike once they are closed. -/
theorem endsAlike_of_alike {limits : Limits} {steps steps' : List Instruction}
    {result result' : EStateM.Result Raised (Session σ) Unit} {overlong : Prop}
    (hadd : Log.Adds steps s.log (left result).log)
    (hadd' : Log.Adds steps' s.log (left result').log)
    (h : (Store.merging limits parsed).Alike steps (outcome result) steps' (outcome result'))
    (hsound : Store.EndsSound limits steps' (outcome result'))
    (ho : overlong ↔ Store.Overlong limits steps') :
    EndsAlike overlong parsed (concluded result) (concluded result') := by
  cases result with
  | ok a t =>
    cases result' with
    | error e' t' => cases h
    | ok a' t' =>
      cases h with
      | completed h => exact .completed (by rw [pop_store, pop_store, h.1])
  | error e t =>
    cases result' with
    | ok a' t' => cases h
    | error e' t' =>
      cases h with
      | failed h =>
        refine .failed h.device ?_ ?_ fun hplaced => ?_
        · rw [Raised.OutOfRange, heading_report, heading_report]
          constructor
          · rintro same ⟨range, long⟩
            have internal := hsound.2 (ho.mp long)
            exact Raised.not_outOfRange_of_internal (same.symm.trans internal) range
          · intro kept
            rcases h.heading with same | ⟨range, -, long⟩
            · exact same.symm
            · exact absurd ⟨range, ho.mpr long⟩ kept
        · rw [heading_report, heading_report]
          intro differs
          rcases h.heading with same | ⟨-, internal, -⟩
          · exact absurd same.symm differs
          · exact internal
        · have place := span_report hadd h.taken e
          have place' := span_report hadd' h.taken' e'
          exact place ▸ place' ▸ h.place hplaced

theorem stopsOverlong_iff {store : Store σ} {steps : List Instruction} {r : Store.Outcome σ}
    (ho : opening program aliases s = .ok () store)
    (hr : Runs s.log.verbose s.options.preallocate (.list program.instructions) store steps r) :
    StopsOverlong program aliases s ↔ Store.Overlong s.store.tape.limits steps := by
  constructor
  · rintro ⟨store', steps', r', ho', hr', long⟩
    cases ho.symm.trans ho'
    obtain ⟨rfl, -⟩ := hr.unique hr'
    exact long
  · exact fun long => ⟨store, steps, r, ho, hr, long⟩

/-- Programs that cannot be prepared end alike. -/
theorem endsAlike_unopened {e : Raised} {store : Store σ}
    {r r' : EStateM.Result Raised (Session σ) Unit} (hq : s.Quiet)
    (ho : opening program aliases s = .error e store) (hr : Executes program aliases s r)
    (hr' : Executes program.merged aliases s r') :
    EndsAlike (StopsOverlong program.merged aliases s) parsed r r' := by
  have ho' : opening program.merged aliases s = .error e store := ho
  rw [executes_iff hq.hooks, ho] at hr
  rw [executes_iff hq.hooks, ho'] at hr'
  subst hr hr'
  refine .failed rfl ⟨fun _ h => ?_, fun _ => ?_⟩ (fun h => absurd ?_ h) fun _ => ?_
  · obtain ⟨-, store', _, _, ho'', -⟩ := h
    cases ho'.symm.trans ho''
  · rw [heading_report, heading_report]
  · rw [heading_report, heading_report]
  · exact encloses_refl (report ((s.begin program aliases).withStore store) e).span

section opened

variable {store : Store σ} (hq : s.Quiet) (hs : store.Sound s.store.tape.limits)
  (hl : s.store.tape.limits.Legible) (ho : opening program aliases s = .ok () store)
  (hp : Instruction.EachLeaf Operation.Nonneg program.instructions)
include hq hs hl ho hp

theorem exists_executes_merged_iff :
    (∃ r, Executes program aliases s r) ↔ ∃ r, Executes program.merged aliases s r := by
  have fuses : Instruction.Fuses False program.instructions program.merged.instructions :=
    Instruction.fuses_merge False.elim
  have ho' : opening program.merged aliases s = .ok () store := ho
  constructor
  · rintro ⟨r, hr⟩
    obtain ⟨steps, result, hruns, -, -⟩ := hq.runs_of_executes ho hr
    obtain ⟨steps', r', hruns', -⟩ :=
      (Store.bisimulates_of_fuses hl fuses hp).forth _ _ _ _ ⟨rfl, hs⟩ hruns
    obtain ⟨result', hr', -⟩ := hq.executes_of_runs ho' hruns'
    exact ⟨_, hr'⟩
  · rintro ⟨r, hr⟩
    obtain ⟨steps, result, hruns, -, -⟩ := hq.runs_of_executes ho' hr
    obtain ⟨steps', r', hruns', -⟩ :=
      (Store.bisimulates_of_fuses hl fuses hp).back _ _ _ _ ⟨rfl, hs⟩ hruns
    obtain ⟨result', hr', -⟩ := hq.executes_of_runs ho hruns'
    exact ⟨_, hr'⟩

theorem executes_merged_alike (hplaced : parsed → Instruction.Throughout Instruction.InOrder
      program.instructions) {r r' : EStateM.Result Raised (Session σ) Unit}
    (hr : Executes program aliases s r) (hr' : Executes program.merged aliases s r') :
    EndsAlike (StopsOverlong program.merged aliases s) parsed r r' := by
  have fuses : Instruction.Fuses parsed program.instructions program.merged.instructions :=
    Instruction.fuses_merge hplaced
  have ho' : opening program.merged aliases s = .ok () store := ho
  obtain ⟨steps, result, hruns, hadd, rfl⟩ := hq.runs_of_executes ho hr
  obtain ⟨steps', result', hruns', hadd', rfl⟩ := hq.runs_of_executes ho' hr'
  obtain ⟨steps'', r'', hruns'', alike⟩ :=
    (Store.bisimulates_of_fuses hl fuses hp).forth _ _ _ _ ⟨rfl, hs⟩ hruns
  obtain ⟨rfl, rfl⟩ := hruns'.unique hruns''
  have nonneg := fuses.eachLeaf (fun _ _ _ => Int.add_nonneg) hp
  exact endsAlike_of_alike hadd hadd' alike (hruns'.endsSound hl hs nonneg)
    (stopsOverlong_iff ho' hruns')

end opened

/-- **Merging preserves what programs do.** A program and the merged program both go on forever, or
both come to an end, and then to one that is alike. -/
theorem merged_executes_alike (hq : s.Quiet) (hv : s.store.tape.Viable)
    (hp : Instruction.EachLeaf Operation.Nonneg program.instructions) :
    (Diverges program aliases s ↔ Diverges program.merged aliases s) ∧
    ∀ r r', Executes program aliases s r → Executes program.merged aliases s r' →
      EndsAlike (StopsOverlong program.merged aliases s)
        (∃ dialect source filename, Program.read dialect source filename = .ok program) r r' := by
  rw [diverges_iff, diverges_iff]
  cases ho : opening program aliases s with
  | ok a store =>
    have hs := opening_sound hv ho
    refine ⟨not_congr (exists_executes_merged_iff hq hs hv.legible ho hp), fun r r' hr hr' => ?_⟩
    refine executes_merged_alike hq hs hv.legible ho hp ?_ hr hr'
    rintro ⟨dialect, source, filename, h⟩
    exact inOrder_of_read h
  | error e store =>
    have unopened : ∀ p, opening p aliases s = .error e store → ∃ r, Executes p aliases s r := by
      intro p hp
      refine ⟨concluded (.error e ((s.begin p aliases).withStore store)), ?_⟩
      rw [executes_iff hq.hooks, hp]
    have both := iff_of_true (unopened program ho) (unopened program.merged ho)
    exact ⟨not_congr both, fun r r' hr hr' => endsAlike_unopened hq ho hr hr'⟩

end merged

/-- A session that has not run anything yet, on a tape of three cells that cannot be left. -/
def cornered : Session Unit where
  store :=
    { tape := .confined 3 .wrap .refuse
      aliases := {}
      device := .ofReadings .memory []
      host := () }

theorem quiet_cornered : cornered.Quiet := ⟨rfl, rfl⟩

theorem viable_cornered : cornered.store.tape.Viable :=
  ⟨by decide, by decide, Limits.legible_standard⟩

/-- Moves to the right by both counts. -/
def rightward (m n : Int) : Program where
  instructions :=
    [.leaf (.counted .right m) ⟨0, 1⟩, .leaf (.counted .right n) ⟨1, 1⟩]

theorem nonneg_rightward {m n : Int} (hm : 0 ≤ m) (hn : 0 ≤ n) :
    Instruction.EachLeaf Operation.Nonneg (rightward m n).instructions :=
  .cons (.leaf _ hm) (.leaf _ hn)

/-- The heading of the failure that ends an execution. -/
def verdict : EStateM.Result Raised (Session σ) Mode → Option String
  | .error e _ => e.heading
  | .ok _ _ => none

theorem executes_of_verdict (program : Program) (label : String) (n : Nat)
    (h : verdict (executeFor n program none cornered) = some label) :
    ∃ e t, Executes program none cornered (.error e t) ∧ e.heading = some label := by
  cases hr : executeFor n program none cornered with
  | ok mode t =>
    rw [hr] at h
    cases h
  | error e t =>
    rw [hr] at h
    exact ⟨e, t, ⟨n, hr⟩, h⟩

theorem merged_executes_rightward :
    cornered.Quiet ∧ cornered.store.tape.Viable ∧
      Instruction.EachLeaf Operation.Nonneg (rightward 2 1).instructions ∧
      ∃ e t e' t', Executes (rightward 2 1) none cornered (.error e t) ∧
        Executes (rightward 2 1).merged none cornered (.error e' t') ∧
        EndsAlike (StopsOverlong (rightward 2 1).merged none cornered)
          (∃ dialect source filename, Program.read dialect source filename = .ok (rightward 2 1))
          (.error e t) (.error e' t') := by
  have nonneg : Instruction.EachLeaf Operation.Nonneg (rightward 2 1).instructions :=
    nonneg_rightward (by decide) (by decide)
  obtain ⟨e, t, h, -⟩ :=
    executes_of_verdict (rightward 2 1) "PointerRangeError" 3 (by decide +kernel)
  obtain ⟨e', t', h', -⟩ :=
    executes_of_verdict (rightward 2 1).merged "PointerRangeError" 3 (by decide +kernel)
  have alike := (merged_executes_alike quiet_cornered viable_cornered nonneg).2 _ _ h h'
  exact ⟨quiet_cornered, viable_cornered, nonneg, e, t, e', t', h, h', alike⟩

/-- A merged count can be too long for the text of the failure that the plain program ends with. -/
theorem merged_heading_differs :
    cornered.Quiet ∧ cornered.store.tape.Viable ∧
      Instruction.EachLeaf Operation.Nonneg (rightward (Int.pow 10 4300 - 1) 1).instructions ∧
      ∃ e t e' t', Executes (rightward (Int.pow 10 4300 - 1) 1) none cornered (.error e t) ∧
        Executes (rightward (Int.pow 10 4300 - 1) 1).merged none cornered (.error e' t') ∧
        e.heading = some "PointerRangeError" ∧ e'.heading = some "BFEMInternalError" := by
  have nonneg := nonneg_rightward (m := Int.pow 10 4300 - 1) (n := 1) (by decide +kernel)
    (by decide)
  obtain ⟨e, t, h, he⟩ := executes_of_verdict (rightward (Int.pow 10 4300 - 1) 1)
    "PointerRangeError" 3 (by decide +kernel)
  obtain ⟨e', t', h', he'⟩ := executes_of_verdict (rightward (Int.pow 10 4300 - 1) 1).merged
    "BFEMInternalError" 3 (by decide +kernel)
  exact ⟨quiet_cornered, viable_cornered, nonneg, e, t, e', t', h, h', he, he'⟩

end Session

end NamedTape
