import NamedTape.Proofs.Soundness
import NamedTape.Proofs.Voices

/-!
# What operations fail with

Tape and aliases raise nothing but plain failures: faults that are not attributed to a span or a
step yet, and foreign failures with a text (`Raised.Plain`). What the device raises comes from
outside. An operation therefore fails as any predicate has it that holds of all plain failures, if
the device does (`perform_fails`).
-/

namespace NamedTape

open NamedTape.Action (Meets)

/-- Whether a session places faults of the cause at the latest step of its log. -/
def Cause.FromLog : Cause → Prop
  | .hookFailed .. | .unexpected .. => True
  | _ => False

/-- The failure has neither a span nor a step, and is not one that a session places by its log. A
foreign one has a text. -/
def Raised.Plain : Raised → Prop
  | .fault f => f.span = none ∧ f.step = none ∧ ¬ f.cause.FromLog
  | .foreign failure => failure.Voiced
  | .interrupt => False

theorem Limits.raise_plain (limits : Limits) {cause : Cause} (h : ¬ cause.FromLog) :
    (limits.raise cause).Plain := by
  unfold Limits.raise
  split
  · exact ⟨rfl, rfl, h⟩
  · exact ⟨_, rfl⟩

/-! ## Tape and aliases -/

namespace Tape

variable {t t' : Tape} {e : Raised}

theorem shift_plain {delta : Int} (h : shift delta t = .error e t') : e.Plain := by
  unfold shift at h
  split at h
  · cases h
    exact ⟨_, rfl⟩
  · dsimp only at h
    split at h <;> cases h
    exact t.limits.raise_plain id

theorem setValue_plain {value : Int} (h : setValue value t = .error e t') : e.Plain := by
  unfold setValue setValueAt at h
  split at h
  · split at h <;> cases h
    exact t.limits.raise_plain id
  · cases h
    exact t.limits.raise_plain id

theorem moveTo_plain {address : Int} (h : moveTo address t = .error e t') : e.Plain := by
  unfold moveTo at h
  split at h <;> cases h
  exact t.limits.raise_plain id

theorem moveLeft_plain {count : Int} (h : moveLeft count t = .error e t') : e.Plain := by
  unfold moveLeft at h
  dsimp only at h
  split at h
  · cases h
  · split at h
    · cases h
    · split at h <;> cases h
      exact ⟨_, rfl⟩
    · cases h
      exact t.limits.raise_plain id

theorem moveRight_plain {count : Int} (h : moveRight count t = .error e t') : e.Plain := by
  unfold moveRight at h
  dsimp only at h
  split at h
  · cases h
  · split at h
    · cases h
    · split at h <;> cases h
      exact ⟨_, rfl⟩
    · cases h
      exact t.limits.raise_plain id

end Tape

theorem AliasTable.assign_plain {tape : Tape} {name : String} {t t' : AliasTable} {e : Raised}
    (h : assign tape name t = .error e t') : e.Plain := by
  unfold assign at h
  split at h
  · cases h
  · split at h <;> cases h
    exact ⟨rfl, rfl, id⟩

theorem AliasTable.assignEach_plain {tape : Tape} {names : List String} {t t' : AliasTable}
    {e : Raised} (h : assignEach tape names t = .error e t') : e.Plain := by
  induction names generalizing t with
  | nil => cases h
  | cons name rest ih =>
    rcases Action.eq_error_of_bind h with first | ⟨_, u, -, later⟩
    · cases ha : assign tape name t with
      | ok a u => cases (Action.map_of_ok ha _).symm.trans first
      | error e' u =>
        cases (Action.map_of_error ha _).symm.trans first
        exact assign_plain ha
    · exact ih later

/-! ## Stores -/

/-- Both the answers of the device and its refusals fail so. -/
structure Device.Fails (E : Raised → Prop) (d : Device) : Prop where
  readings : ∀ k e, d.readings k = .fails e → E e
  refusals : ∀ k e, d.refusals k = some e → E e

namespace Store

variable {σ α : Type} {E : Raised → Prop}

/-- The action leaves a device that fails so as it is, and fails so itself. -/
def Fails (E : Raised → Prop) (act : Action (Store σ) α) : Prop :=
  Meets (fun s => s.device.Fails E) act (fun _ s => s.device.Fails E)
    fun e s => s.device.Fails E ∧ E e

theorem read_fails : Fails (σ := σ) E (onDevice Device.read) := by
  intro s hs
  unfold onDevice Device.read
  have asked : Device.Fails E { s.device with reads := s.device.reads + 1 } :=
    ⟨hs.readings, hs.refusals⟩
  cases hr : s.device.readings s.device.reads with
  | byte value => exact asked
  | notYet => exact asked
  | fails failure => exact ⟨asked, hs.readings _ _ hr⟩

section plain

variable (plain : ∀ e : Raised, e.Plain → E e)
include plain

theorem onTape_fails {act : Action Tape α} (h : ∀ t e t', act t = .error e t' → e.Plain) :
    Fails (σ := σ) E (onTape act) :=
  meets_onTape (fun _ _ _ hs _ => hs) fun _ _ _ hs ha => ⟨hs, plain _ (h _ _ _ ha)⟩

theorem onAliases_fails {act : Tape → Action AliasTable α}
    (h : ∀ tape t e t', act tape t = .error e t' → e.Plain) :
    Fails (σ := σ) E (onAliases act) :=
  meets_onAliases (fun _ _ _ hs _ => hs) fun _ _ _ hs ha => ⟨hs, plain _ (h _ _ _ _ ha)⟩

theorem moveLeft_fails (count : Int) : Fails (σ := σ) E (moveLeft count) :=
  meets_moveLeft (fun _ _ hs _ => hs) fun _ _ hs ha => ⟨hs, plain _ (Tape.moveLeft_plain ha)⟩

theorem write_fails (value : Int) : Fails (σ := σ) E (onDevice (Device.write value)) := by
  intro s hs
  unfold onDevice Device.write
  have asked : Device.Fails E { s.device with writes := s.device.writes + 1 } :=
    ⟨hs.readings, hs.refusals⟩
  cases hr : s.device.refusals s.device.writes with
  | some failure => exact ⟨asked, hs.refusals _ _ hr⟩
  | none =>
    dsimp only
    by_cases byte : 0 ≤ value ∧ value ≤ 255
    · rw [if_pos byte]
      exact ⟨hs.readings, hs.refusals⟩
    · rw [if_neg byte]
      exact ⟨asked, plain _ ⟨_, rfl⟩⟩

theorem cell_fails : Fails (σ := σ) E cell := by
  intro s hs
  rw [cell_eq]
  cases s.tape.slot? with
  | some i => exact hs
  | none => exact ⟨hs, plain _ ⟨_, rfl⟩⟩

theorem observe_fails (verbose : Bool) : Fails (σ := σ) E (observe verbose) := by
  cases verbose with
  | false => exact .pure fun _ hs => hs
  | true =>
    refine .map (onTape_fails plain fun t e t' h => ?_)
    unfold Tape.snapshot at h
    split at h
    · cases h
      exact ⟨_, rfl⟩
    · split at h <;> cases h
      exact ⟨_, rfl⟩

theorem assignAll_fails : Fails (σ := σ) E (onAliases AliasTable.assignAll) :=
  onAliases_fails plain fun _ _ _ _ h => AliasTable.assignEach_plain h

theorem goto_fails (preallocated : Bool) (name : String) :
    Fails (σ := σ) E (goto preallocated name) := by
  refine Meets.bind (onAliases_fails plain fun tape t e t' h => ?_) fun address =>
    onTape_fails plain fun _ _ _ => Tape.moveTo_plain
  split at h
  · cases h
  · split at h
    · cases h
      exact ⟨rfl, rfl, id⟩
    · exact AliasTable.assign_plain h

theorem receive_fails : Fails (σ := σ) E receive := by
  refine Meets.bind read_fails fun reading => ?_
  cases reading with
  | none => exact .pure fun _ h => h
  | some value =>
    exact (onTape_fails plain fun _ _ _ => Tape.setValue_plain).bind fun _ => .pure fun _ h => h

/-- **Operations fail as their device does, or plainly.** -/
theorem perform_fails (preallocated : Bool) (operation : Operation) :
    Fails (σ := σ) E (perform preallocated operation) := by
  cases operation with
  | counted kind count =>
    cases kind with
    | add =>
      exact (onTape_fails plain fun _ _ _ => Tape.shift_plain).bind fun _ => .pure fun _ h => h
    | subtract =>
      exact (onTape_fails plain fun _ _ _ => Tape.shift_plain).bind fun _ => .pure fun _ h => h
    | left => exact (moveLeft_fails plain count).bind fun _ => .pure fun _ h => h
    | right =>
      exact (onTape_fails plain fun _ _ _ => Tape.moveRight_plain).bind fun _ => .pure fun _ h => h
  | input => exact receive_fails plain
  | output =>
    exact (cell_fails plain).bind fun value =>
      (write_fails plain value).bind fun _ => .pure fun _ h => h
  | goto name => exact (goto_fails plain preallocated name).bind fun _ => .pure fun _ h => h
  | blank => exact .throw fun _ h => ⟨h, plain _ ⟨rfl, rfl, id⟩⟩

end plain

end Store

end NamedTape
