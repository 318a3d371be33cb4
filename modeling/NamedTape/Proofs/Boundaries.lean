import NamedTape.Proofs.Attribution
import NamedTape.Proofs.Coincidence

/-!
# Boundaries

What becomes of a value that leaves its cell, and of a pointer that leaves the tape, is a matter of
rules. Where nothing ever leaves, the rules do not matter: an execution under the rules that refuse
coincides with that under any others, unless it ends with a counted operation that is refused
(`coincide_ruled_or_oversteps`).

* A refusal is a fault of the range of a cell or of the pointer. It becomes an internal fault if the
  count has more digits than can be written, since the text of the fault would show it.
-/

namespace NamedTape

open NamedTape.Action (Tally)

/-- The failure of a counted operation that is refused, if it has the count. -/
def Raised.Refusal (limits : Limits) (count : Int) (e : Raised) : Prop :=
  e.OutOfRange ∨ e = .foreign .tooManyDigits ∧ limits.canWrite count = false

theorem Raised.refusal_raise {limits : Limits} {count : Int} {cause : Cause}
    (range : (Raised.of cause).OutOfRange)
    (hn : cause.numbers.all limits.canWrite = limits.canWrite count) :
    Refusal limits count (limits.raise cause) := by
  unfold Limits.raise
  rw [hn]
  cases hw : limits.canWrite count with
  | true => exact .inl range
  | false => exact .inr ⟨rfl, hw⟩

namespace Tape

variable {limits : Limits} {cellRule : CellRule} {edgeRule : EdgeRule} {t t' : Tape}

/-- What a rule that refuses lets pass is what every rule makes of it. -/
theorem settle?_of_refuse {target : Int} {cell : UInt8}
    (h : CellRule.settle? .refuse target = some cell) (rule : CellRule) :
    CellRule.settle? rule target = some cell := by
  rw [settle?_refuse] at h
  unfold CellRule.settle?
  split at h
  · next hin => rwa [if_pos hin]
  · cases h

theorem Sound.ruled (h : t.Sound limits) (cellRule : CellRule) (edgeRule : EdgeRule) :
    (t.ruled cellRule edgeRule).Sound limits :=
  ⟨h.limits_eq, h.room, h.pointer_nonneg, h.pointer_lt⟩

/-- The first tape refuses whatever leaves its cells or its edges; the second one is the same under
the rules. -/
structure Relaxes (limits : Limits) (cellRule : CellRule) (edgeRule : EdgeRule) (t t' : Tape) :
    Prop where
  cells : t.cellRule = .refuse
  edges : t.edgeRule = .refuse
  sound : t.Sound limits
  ruled : t' = t.ruled cellRule edgeRule

/-- The action is refused. -/
def Refuses (limits : Limits) (count : Int) (act : Action Tape Unit) (t : Tape) : Prop :=
  ∃ e, act t = .error e t ∧ Raised.Refusal limits count e

section relaxes

variable (h : Relaxes limits cellRule edgeRule t t')
include h

theorem Relaxes.pointing {pointer : Int} (hp : 0 ≤ pointer) (hlt : pointer < t.size) :
    Relaxes limits cellRule edgeRule (t.pointing pointer) (t'.pointing pointer) :=
  ⟨h.cells, h.edges, h.sound.pointing hp hlt, congrArg (·.pointing pointer) h.ruled⟩

theorem Relaxes.storing (cell : UInt8) :
    Relaxes limits cellRule edgeRule (t.storing cell) (t'.storing cell) :=
  ⟨h.cells, h.edges, h.sound.storing cell, congrArg (·.storing cell) h.ruled⟩

variable (hl : limits.Legible) {count : Int}
include hl

theorem Relaxes.shift {delta : Int} (hd : delta.natAbs = count.natAbs) :
    Refuses limits count (shift delta) t ∨
      Tally (Relaxes limits cellRule edgeRule) Eq (shift delta t) (shift delta t') := by
  obtain rfl := h.ruled
  have write := h.sound.canWrite_pointer hl
  have digits : limits.canWrite delta = limits.canWrite count := by
    rw [Limits.canWrite, hd, Limits.canWrite]
  rw [Refuses, h.sound.shift_eq, (h.sound.ruled cellRule edgeRule).shift_eq, h.cells, ruled_cellAt,
    ruled_pointer]
  cases hs : CellRule.settle? .refuse ((t.cellAt t.pointer.toNat).toNat + delta) with
  | none =>
    refine .inl ⟨_, rfl, Raised.refusal_raise (.inl rfl) ?_⟩
    simp [Cause.numbers, write, digits]
  | some cell =>
    have settled := settle?_of_refuse hs (t.ruled cellRule edgeRule).cellRule
    refine .inr ?_
    rw [settled]
    exact .ok (h.storing cell)

variable (hc : 0 ≤ count)
include hc

theorem Relaxes.moveLeft : Refuses limits count (moveLeft count) t ∨
    Tally (Relaxes limits cellRule edgeRule) Eq (moveLeft count t) (moveLeft count t') := by
  obtain rfl := h.ruled
  have write := h.sound.canWrite_pointer hl
  have hlt := h.sound.pointer_lt
  rw [Refuses, moveLeft_def, moveLeft_def, h.edges, h.sound.limits_eq]
  by_cases hin : 0 ≤ t.pointer - count
  · rw [if_pos hin, if_pos (show 0 ≤ (t.ruled cellRule edgeRule).pointer - count from hin)]
    exact .inr (.ok (h.pointing hin (by omega)))
  · rw [if_neg hin]
    refine .inl ⟨_, rfl, Raised.refusal_raise (.inr rfl) ?_⟩
    simp [Cause.numbers, write]

theorem Relaxes.moveRight : Refuses limits count (moveRight count) t ∨
    Tally (Relaxes limits cellRule edgeRule) Eq (moveRight count t) (moveRight count t') := by
  obtain rfl := h.ruled
  have write := h.sound.canWrite_pointer hl
  have hnonneg := h.sound.pointer_nonneg
  rw [Refuses, moveRight_def, moveRight_def, h.edges, h.sound.limits_eq]
  by_cases hin : t.pointer + count < t.size
  · rw [if_pos hin, if_pos (show (t.ruled cellRule edgeRule).pointer + count <
      (t.ruled cellRule edgeRule).size from hin)]
    exact .inr (.ok (h.pointing (by omega) hin))
  · rw [if_neg hin]
    refine .inl ⟨_, rfl, Raised.refusal_raise (.inr rfl) ?_⟩
    simp [Cause.numbers, write]

/-- A counted operation is refused, or does the same under other rules. -/
theorem Relaxes.turn (kind : Counted) : Refuses limits count (turn kind count) t ∨
    Tally (Relaxes limits cellRule edgeRule) Eq (turn kind count t) (turn kind count t') := by
  cases kind with
  | add => exact h.shift hl rfl
  | subtract => exact h.shift hl (Int.natAbs_neg count)
  | left => exact h.moveLeft hl hc
  | right => exact h.moveRight hl hc

end relaxes

end Tape

namespace Store

open NamedTape.Action (tallies_eq)
open AliasTable (Renames)
open Lockstep (leads_of_performs leads_of_tallies)
open Tape (Refuses Relaxes)

variable {σ : Type} {limits : Limits} {cellRule : CellRule} {edgeRule : EdgeRule}

/-- Stores that are equal but for the rules of their tapes, of which those of the first one
refuse. -/
def relaxing (limits : Limits) (cellRule : CellRule) (edgeRule : EdgeRule) : Pairing where
  __ := Pairing.level Eq
  tapes := Relaxes limits cellRule edgeRule
  ruled h := ⟨cellRule, edgeRule, h.ruled⟩
  changed cells pointer size nonneg lt h := by
    obtain rfl := h.ruled
    refine ⟨h.cells, h.edges, ⟨h.sound.limits_eq, ?_, nonneg, ?_⟩, rfl⟩
    · show limits.hasRoom cells.size = true
      rw [size]
      exact h.sound.room
    · show pointer < cells.size
      rwa [size]

theorem names_relaxing : (relaxing limits cellRule edgeRule).Names id :=
  ⟨Function.injective_id, rfl, fun _ => rfl, fun _ => rfl⟩

/-- A counted operation is refused. -/
def Overstepping (limits : Limits) (operation : Operation) (e : Raised) : Prop :=
  ∃ kind count, operation = .counted kind count ∧ Raised.Refusal limits count e

/-- A program compared with itself under other rules, up to a counted operation that is refused. -/
def underRules (limits : Limits) (cellRule : CellRule) (edgeRule : EdgeRule) : Lockstep where
  toPairing := relaxing limits cellRule edgeRule
  leaves operation operation' := operation.Nonneg ∧ operation = operation'
  breaks := Overstepping limits
  breaks' _ _ := False

/-- A counted operation comes to what its turn is. -/
theorem performs_turn (preallocated : Bool) (kind : Counted) (count : Int) (s : Store σ) :
    Performs preallocated (.counted kind count) s (turn kind count s) := by
  cases h : turn kind count s with
  | ok a t => exact .of_turn_ok h
  | error e t => exact .of_turn_error h

theorem broken_of_refuses {kind : Counted} {count : Int} {s : Store σ}
    (h : Refuses limits count (Tape.turn kind count) s.tape) :
    Broken (Overstepping limits) (.counted kind count) (turn kind count s) := by
  obtain ⟨e, refused, refusal⟩ := h
  refine ⟨e, s, ?_, kind, count, rfl, refusal⟩
  cases kind with
  | add => exact onTape_of_error refused
  | subtract => exact onTape_of_error refused
  | left =>
    have moved : onTape (Tape.moveLeft count) s = .error e s := onTape_of_error refused
    rw [turn, moveLeft, moved]
  | right => exact onTape_of_error refused

section marches

variable (hl : limits.Legible) (preallocated : Bool)
include hl

theorem counted_leads (kind : Counted) {count : Int} (hc : 0 ≤ count) :
    (underRules limits cellRule edgeRule).Leads σ σ preallocated (.counted kind count)
      (.counted kind count) := by
  refine leads_of_performs fun s s' hs => ?_
  refine ⟨_, _, performs_turn _ kind count s, performs_turn _ kind count s', ?_⟩
  rcases hs.tape.turn hl hc kind with refused | tally
  · exact .inl (broken_of_refuses refused)
  · exact .inr (hs.turn names_relaxing tally)

/-- Under other rules every operation does the same, unless it is a counted one that is refused. -/
theorem underRules_marches :
    (underRules limits cellRule edgeRule).Marches σ σ preallocated := by
  rintro operation _ ⟨nonneg, rfl⟩
  cases operation with
  | counted kind count => exact counted_leads hl preallocated kind nonneg
  | input => exact leads_of_tallies (input_tallies _ (tallies_eq (fun _ => rfl) _))
  | output => exact leads_of_tallies (output_tallies _ fun _ => tallies_eq (fun _ => rfl) _)
  | goto name => exact leads_of_tallies (goto_tallies _ names_relaxing name)
  | blank => exact leads_of_tallies (blank_tallies _)

end marches

end Store

namespace Session

open Store (Overstepping underRules relaxing)

variable {σ : Type} {program : Program} {aliases : Option AliasTable} {s : Session σ}

/-- The session with other rules for its tape. -/
def ruled (cellRule : CellRule) (edgeRule : EdgeRule) (s : Session σ) : Session σ :=
  s.withStore { s.store with tape := s.store.tape.ruled cellRule edgeRule }

/-- The execution ends with a counted operation that is refused: with a fault of the range of a cell
or of the pointer, or with an internal fault if the count has too many digits for its text. -/
def Oversteps (program : Program) (aliases : Option AliasTable) (s : Session σ) : Prop :=
  ∃ e t before kind count span, Executes program aliases s (.error e t) ∧
    Log.Adds (before ++ [.leaf (.counted kind count) span]) s.log t.log ∧
    (e.OutOfRange ∨
      e.heading = Raised.internal ∧ s.store.tape.limits.canWrite count = false)

theorem oversteps_of_breaksOff (hq : s.Quiet)
    (h : BreaksOff (Overstepping s.store.tape.limits) program aliases s) :
    Oversteps program aliases s := by
  obtain ⟨store, steps, r, ho, hr, hb⟩ := h
  obtain ⟨before, span, store', kind, count, rfl, refusal⟩ := hb
  obtain ⟨_, hx, -⟩ := hq.executes_of_runs ho hr
  obtain ⟨steps', result, hr', hadd, hresult⟩ := hq.runs_of_executes ho hx
  obtain ⟨rfl, hout⟩ := hr.unique hr'
  cases result with
  | ok a t => cases hout
  | error e t =>
    cases hout
    refine ⟨_, t, before, kind, count, span, hresult ▸ hx, hadd, ?_⟩
    rw [Raised.OutOfRange, heading_report, Store.heading_within]
    rcases refusal with range | ⟨rfl, digits⟩
    · exact .inl range
    · exact .inr ⟨rfl, digits⟩

/-- **Rules matter at the boundaries only.** Where the rules refuse, an execution coincides with
that under any other rules, unless it ends with a counted operation that is refused. -/
theorem coincide_ruled_or_oversteps (hq : s.Quiet) (hv : s.store.tape.Viable)
    (hc : s.store.tape.cellRule = .refuse) (he : s.store.tape.edgeRule = .refuse)
    (hp : Instruction.EachLeaf Operation.Nonneg program.instructions) (cellRule : CellRule)
    (edgeRule : EdgeRule) :
    Coincide (relaxing s.store.tape.limits cellRule edgeRule) program aliases s program aliases
        (s.ruled cellRule edgeRule) ∨
      Oversteps program aliases s := by
  have abreast : Abreast (underRules s.store.tape.limits cellRule edgeRule) program aliases s
      program aliases (s.ruled cellRule edgeRule) := {
    quiet := hq
    quiet' := quiet_withStore hq _
    verbose := rfl
    preallocate := rfl
    mirrors := Instruction.mirrors_of_eachLeaf (fun _ h => ⟨h, rfl⟩) _ hp
    marches := Store.underRules_marches hv.legible _
    opening := opening_tally Store.names_relaxing ⟨hc, he, hv.sound_realign, rfl⟩ rfl rfl
      fun _ => (List.map_id _).symm
    early := fun _ _ => rfl }
  -- Only the first execution can break off: under the other rules every failure is compared.
  by_cases hb : BreaksOff (Overstepping s.store.tape.limits) program aliases s
  · exact .inr (oversteps_of_breaksOff hq hb)
  · refine .inl (abreast.coincide hb ?_)
    rintro ⟨_, _, _, _, _, _, _, _, ⟨⟩⟩

/-- A session on a tape of three cells that refuses whatever leaves a cell or the tape. -/
def walled : Session Unit := cornered.ruled .refuse .refuse

theorem quiet_walled : walled.Quiet := ⟨rfl, rfl⟩

theorem viable_walled : walled.store.tape.Viable :=
  ⟨by decide, by decide, Limits.legible_standard⟩

theorem coincide_ruled_walled :
    walled.Quiet ∧ walled.store.tape.Viable ∧ walled.store.tape.cellRule = .refuse ∧
      walled.store.tape.edgeRule = .refuse ∧
      Instruction.EachLeaf Operation.Nonneg (rightward 1 1).instructions ∧
      ∃ t t', Executes (rightward 1 1) none walled (.ok () t) ∧
        Executes (rightward 1 1) none (walled.ruled .clamp .grow) (.ok () t') ∧
        t'.store.tape = t.store.tape.ruled .clamp .grow := by
  have nonneg : Instruction.EachLeaf Operation.Nonneg (rightward 1 1).instructions :=
    nonneg_rightward (by decide) (by decide)
  have shown : (finished? (executeFor 3 (rightward 1 1) none walled)).isSome = true := by
    decide +kernel
  have shown' : (finished? (executeFor 3 (rightward 1 1) none (walled.ruled .clamp .grow))).isSome =
      true := by decide +kernel
  obtain ⟨t, executes⟩ := executes_of_finished? shown
  obtain ⟨t', executes'⟩ := executes_of_finished? shown'
  refine ⟨quiet_walled, viable_walled, rfl, rfl, nonneg, t, t', executes, executes', ?_⟩
  rcases coincide_ruled_or_oversteps quiet_walled viable_walled rfl rfl nonneg .clamp .grow with
    coincide | ⟨e, u, _, _, _, _, failed, -⟩
  · cases coincide.ends _ _ executes executes' with
    | completed store => exact store.tape.ruled
  · cases executes.unique failed

/-- A refusal whose text cannot be written is no fault of a range: the execution does not end with
one, and yet it does not coincide with that under other rules. -/
theorem overlong_refusal_walled :
    walled.Quiet ∧ walled.store.tape.Viable ∧ walled.store.tape.cellRule = .refuse ∧
      walled.store.tape.edgeRule = .refuse ∧
      Instruction.EachLeaf Operation.Nonneg (rightward (Int.pow 10 4300) 0).instructions ∧
      (∃ e t, Executes (rightward (Int.pow 10 4300) 0) none walled (.error e t) ∧
        ¬ e.OutOfRange) ∧
      ¬ Coincide (relaxing .standard .wrap .wrap) (rightward (Int.pow 10 4300) 0) none walled
        (rightward (Int.pow 10 4300) 0) none (walled.ruled .wrap .wrap) := by
  have nonneg := nonneg_rightward (m := Int.pow 10 4300) (n := 0) (by decide +kernel) (by decide)
  have refused : faults (fun f _ => f.cause.label == "BFEMInternalError")
      (executeFor 2 (rightward (Int.pow 10 4300) 0) none walled) = true := by decide +kernel
  have passed : (finished? (executeFor 3 (rightward (Int.pow 10 4300) 0) none
      (walled.ruled .wrap .wrap))).isSome = true := by decide +kernel
  obtain ⟨f, t, failed, label⟩ := executes_of_faults refused
  obtain ⟨t', completed⟩ := executes_of_finished? passed
  refine ⟨quiet_walled, viable_walled, rfl, rfl, nonneg, ⟨.fault f, t, failed, ?_⟩, ?_⟩
  · exact Raised.not_outOfRange_of_internal (congrArg some (eq_of_beq label))
  · intro coincide
    cases coincide.ends _ _ failed completed

end Session

end NamedTape
