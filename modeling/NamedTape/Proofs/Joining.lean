import NamedTape.Proofs.Soundness
import NamedTape.Proofs.Voices

/-!
# Joining counted operations

A counted operation that is carried out twice does what it does once with the sum of the counts:
the cells saturate or wrap, the tape grows, and the aliases move by as much. If it fails, it fails
in both cases.

* The failures belong to the same class, unless the sum is too long to be written: then the joined
  operation fails for its text, where the single ones leave the range of the cell or the tape.
-/

namespace NamedTape

namespace Raised

/-- The heading under which a run reports what cut it short, if it does. A foreign failure has that
of the fault which it is made. -/
def heading : Raised → Option String
  | .fault f => some f.cause.label
  | .foreign failure => some (Cause.unexpected failure).label
  | .interrupt => none

/-- The heading of failures that a run takes for its own. -/
def internal : Option String := some "BFEMInternalError"

/-- A cell or the pointer was to leave its range. -/
def OutOfRange (e : Raised) : Prop :=
  e.heading = some "CellRangeError" ∨ e.heading = some "PointerRangeError"

/-- A failure that is not attributed to a stretch of text yet, but can be. -/
def Unplaced : Raised → Prop
  | .fault f => f.span = none
  | .foreign failure => failure.Voiced
  | .interrupt => False

/-- How the failure of one of two operations compares with that of the joined one, which has the
count. -/
structure Joins (limits : Limits) (count : Int) (e e' : Raised) : Prop where
  unplaced : e.Unplaced
  unplaced' : e'.Unplaced
  heading : e.heading = e'.heading ∨
    e.OutOfRange ∧ e' = .foreign .tooManyDigits ∧ limits.canWrite count = false

theorem joins_foreign {limits : Limits} {count : Int} {failure failure' : Foreign}
    (h : failure.Voiced) (h' : failure'.Voiced) :
    Joins limits count (.foreign failure) (.foreign failure') :=
  ⟨h, h', .inl rfl⟩

theorem joins_raise {limits : Limits} {count : Int} {cause cause' : Cause}
    (label : cause.label = cause'.label) (range : (Raised.of cause).OutOfRange)
    (fewer : cause'.numbers.all limits.canWrite → cause.numbers.all limits.canWrite)
    (more : limits.canWrite count → cause'.numbers.all limits.canWrite) :
    Joins limits count (limits.raise cause) (limits.raise cause') := by
  unfold Limits.raise
  by_cases hc' : cause'.numbers.all limits.canWrite
  · rw [if_pos (fewer hc'), if_pos hc']
    exact ⟨rfl, rfl, .inl (congrArg some label)⟩
  · rw [if_neg hc']
    have hcount : limits.canWrite count = false := Bool.eq_false_iff.mpr fun h => hc' (more h)
    by_cases hc : cause.numbers.all limits.canWrite
    · rw [if_pos hc]
      exact ⟨rfl, ⟨_, rfl⟩, .inr ⟨range, rfl, hcount⟩⟩
    · rw [if_neg hc]
      exact joins_foreign ⟨_, rfl⟩ ⟨_, rfl⟩

end Raised

namespace Tape

/-! ## Cells -/

theorem settle?_wrap (target : Int) :
    CellRule.settle? .wrap target = some (.ofNat (target % 256).toNat) := by
  unfold CellRule.settle?
  split
  · rw [Int.emod_eq_of_lt (by omega) (by omega)]
  · rfl

theorem settle?_clamp (target : Int) :
    CellRule.settle? .clamp target = some (.ofNat (max 0 (min 255 target)).toNat) := by
  unfold CellRule.settle?
  split
  · have : max 0 (min 255 target) = target := by omega
    rw [this]
  · dsimp only
    split
    · have : max 0 (min 255 target) = 255 := by omega
      rw [this]
      rfl
    · have : max 0 (min 255 target) = 0 := by omega
      rw [this]
      rfl

theorem settle?_refuse (target : Int) :
    CellRule.settle? .refuse target =
      if 0 ≤ target ∧ target ≤ 255 then some (.ofNat target.toNat) else none := rfl

/-- Changes of a cell in one direction add up. -/
theorem settle?_settle? (rule : CellRule) (current : Int) {first second : Int}
    (hc : 0 ≤ current ∧ current ≤ 255)
    (hs : 0 ≤ first ∧ 0 ≤ second ∨ first ≤ 0 ∧ second ≤ 0) :
    CellRule.settle? rule (current + (first + second)) =
      (CellRule.settle? rule (current + first)).bind fun cell =>
        CellRule.settle? rule (cell.toNat + second) := by
  cases rule with
  | wrap =>
    have hcell : ((UInt8.ofNat ((current + first) % 256).toNat).toNat : Int) =
        (current + first) % 256 := by
      rw [UInt8.toNat_ofNat']
      omega
    rw [settle?_wrap, settle?_wrap, Option.bind_some, settle?_wrap, hcell, Int.emod_add_emod,
      Int.add_assoc]
  | clamp =>
    have hcell : ((UInt8.ofNat (max 0 (min 255 (current + first))).toNat).toNat : Int) =
        max 0 (min 255 (current + first)) := by
      rw [UInt8.toNat_ofNat']
      omega
    rw [settle?_clamp, settle?_clamp, Option.bind_some, settle?_clamp, hcell]
    have hsum : max 0 (min 255 (current + (first + second))) =
        max 0 (min 255 (max 0 (min 255 (current + first)) + second)) := by omega
    rw [hsum]
  | refuse =>
    rw [settle?_refuse, settle?_refuse]
    by_cases hin : 0 ≤ current + first ∧ current + first ≤ 255
    · have hcell : ((UInt8.ofNat (current + first).toNat).toNat : Int) = current + first := by
        rw [UInt8.toNat_ofNat']
        omega
      rw [if_pos hin, Option.bind_some, hcell, settle?_refuse, Int.add_assoc]
    · rw [if_neg hin, if_neg (by omega)]
      rfl

/-! ## Tapes -/

/-- One operation with the count does what two do that are carried out after each other. -/
def Joined {τ : Type} (limits : Limits) (count : Int) :
    EStateM.Result Raised τ Unit → EStateM.Result Raised τ Unit → Prop
  | .ok _ t, .ok _ t' => t' = t
  | .error e _, .error e' _ => Raised.Joins limits count e e'
  | _, _ => False

variable {limits : Limits} {t : Tape}

theorem joins_cellOverflow (h : limits.canWrite t.pointer = true) {current current' : Nat}
    {delta delta' : Int} (hd : delta.natAbs ≤ delta'.natAbs) :
    Raised.Joins limits delta' (limits.raise (.cellOverflow t.pointer current delta))
      (limits.raise (.cellOverflow t.pointer current' delta')) := by
  refine Raised.joins_raise rfl (.inl rfl) (fun hw => ?_) fun hw => ?_
  · simp only [Cause.numbers, List.all_cons, List.all_nil, Bool.and_true, h, Bool.true_and] at hw ⊢
    exact Limits.canWrite_mono hd hw
  · simp only [Cause.numbers, List.all_cons, List.all_nil, Bool.and_true, h, hw]

/-- Two changes of a cell in one direction are one. -/
theorem Sound.shift_shift (h : t.Sound limits) (hl : limits.Legible) {first second : Int}
    (hs : 0 ≤ first ∧ 0 ≤ second ∨ first ≤ 0 ∧ second ≤ 0) :
    Joined limits (first + second) ((shift first >>= fun _ => shift second) t)
      (shift (first + second) t) := by
  have write := h.canWrite_pointer hl
  have hcell := (t.cellAt t.pointer.toNat).toNat_lt
  have sum := settle?_settle? t.cellRule (t.cellAt t.pointer.toNat).toNat (by omega) hs
  have whole := h.shift_eq (first + second)
  have part := h.shift_eq first
  cases hf : CellRule.settle? t.cellRule ((t.cellAt t.pointer.toNat).toNat + first) with
  | none =>
    rw [hf] at part sum
    rw [sum, Option.bind_none] at whole
    rw [Action.bind_of_error part, whole]
    exact joins_cellOverflow write (by omega)
  | some cell =>
    rw [hf] at part sum
    rw [Action.bind_of_ok part, (h.storing cell).shift_eq, storing_pointer, h.cellAt_storing, whole,
      sum, Option.bind_some, storing_cellRule]
    cases CellRule.settle? t.cellRule (cell.toNat + second) with
    | none => exact joins_cellOverflow write (by omega)
    | some cell' => exact (storing_storing t cell cell').symm

/-- Failures of moves are joined whichever end of the tape is in the way. -/
theorem joins_moved {cause cause' : Cause} {pointer pointer' count count' : Int}
    (label : cause.label = cause'.label) (range : (Raised.of cause).OutOfRange)
    (hn : cause.numbers = [count, pointer]) (hn' : cause'.numbers = [count', pointer'])
    (hp : limits.canWrite pointer = true) (hp' : limits.canWrite pointer' = true)
    (hc : count.natAbs ≤ count'.natAbs) :
    Raised.Joins limits count' (limits.raise cause) (limits.raise cause') := by
  refine Raised.joins_raise label range (fun hw => ?_) fun hw => ?_
  · rw [hn'] at hw
    rw [hn]
    simp only [List.all_cons, List.all_nil, Bool.and_true, hp, hp'] at hw ⊢
    exact Limits.canWrite_mono hc hw
  · rw [hn']
    simp only [List.all_cons, List.all_nil, Bool.and_true, hp', hw]

/-- Two moves to the right are one. -/
theorem Sound.moveRight_moveRight (h : t.Sound limits) (hl : limits.Legible) {first second : Int}
    (hf : 0 ≤ first) (hs : 0 ≤ second) :
    Joined limits (first + second) ((moveRight first >>= fun _ => moveRight second) t)
      (moveRight (first + second) t) := by
  have hnonneg := h.pointer_nonneg
  have whole := h.moveRight_eq (Int.add_nonneg hf hs)
  have part := h.moveRight_eq hf
  have keeps : ∀ t', moveRight first t = .ok () t' → t'.Sound limits :=
    fun _ => (moveRight_keeps hf).ok h
  have hsum : t.pointer + first + second = t.pointer + (first + second) := by omega
  rw [whole]
  cases hr : t.edgeRule with
  | wrap =>
    rw [hr] at part
    rw [Action.bind_of_ok part, (keeps _ part).moveRight_eq hs, pointing_edgeRule, hr]
    show t.pointing _ = t.pointing _
    rw [pointing_pointer, pointing_size, Int.emod_add_emod, hsum]
  | grow =>
    rw [hr] at part
    dsimp only at part ⊢
    by_cases hroom : limits.hasRoom (t.size + ((t.pointer + first + 1).toNat - t.size))
    · rw [if_pos hroom] at part
      have hmissing : (t.pointer + first + 1).toNat - t.size +
          ((t.pointer + (first + second) + 1).toNat -
            (t.size + ((t.pointer + first + 1).toNat - t.size))) =
          (t.pointer + (first + second) + 1).toNat - t.size := by omega
      rw [Action.bind_of_ok part, (keeps _ part).moveRight_eq hs, grownRight_edgeRule, hr]
      dsimp only
      rw [grownRight_pointer, grownRight_size, hsum, Nat.add_assoc, hmissing]
      by_cases hroom' :
          limits.hasRoom (t.size + ((t.pointer + (first + second) + 1).toNat - t.size))
      · rw [if_pos hroom', if_pos hroom', grownRight_grownRight, hmissing]
        rfl
      · rw [if_neg hroom', if_neg hroom']
        exact Raised.joins_foreign ⟨_, rfl⟩ ⟨_, rfl⟩
    · -- Where the first part finds no room, neither does the whole, which needs no less.
      rw [if_neg hroom] at part
      have hroom' : ¬ limits.hasRoom
          (t.size + ((t.pointer + (first + second) + 1).toNat - t.size)) = true :=
        fun hw => hroom (Limits.hasRoom_mono (by omega) hw)
      rw [Action.bind_of_error part, if_neg hroom']
      exact Raised.joins_foreign ⟨_, rfl⟩ ⟨_, rfl⟩
  | refuse =>
    rw [hr] at part
    dsimp only at part ⊢
    have write := h.canWrite_pointer hl
    by_cases hin : t.pointer + first < t.size
    · rw [if_pos hin] at part
      have write' := (keeps _ part).canWrite_pointer hl
      rw [Action.bind_of_ok part, (keeps _ part).moveRight_eq hs, pointing_edgeRule, hr]
      dsimp only
      rw [pointing_pointer, pointing_size, hsum, pointing_pointing]
      by_cases hin' : t.pointer + (first + second) < t.size
      · rw [if_pos hin', if_pos hin']
        rfl
      · rw [if_neg hin', if_neg hin']
        exact joins_moved rfl (.inr rfl) rfl rfl write' write (by omega)
    · rw [if_neg hin] at part
      rw [Action.bind_of_error part, if_neg (by omega)]
      exact joins_moved rfl (.inr rfl) rfl rfl write write (by omega)

/-- Two moves to the left are one. -/
theorem Sound.moveLeft_moveLeft (h : t.Sound limits) (hl : limits.Legible) {first second : Int}
    (hf : 0 ≤ first) (hs : 0 ≤ second) :
    Joined limits (first + second) ((moveLeft first >>= fun _ => moveLeft second) t)
      (moveLeft (first + second) t) := by
  have hnonneg := h.pointer_nonneg
  have whole := h.moveLeft_eq (Int.add_nonneg hf hs)
  have part := h.moveLeft_eq hf
  have keeps : ∀ t', moveLeft first t = .ok () t' → t'.Sound limits :=
    fun _ => (moveLeft_keeps hf).ok h
  have hsum : t.pointer - first - second = t.pointer - (first + second) := by omega
  rw [whole]
  cases hr : t.edgeRule with
  | wrap =>
    rw [hr] at part
    rw [Action.bind_of_ok part, (keeps _ part).moveLeft_eq hs, pointing_edgeRule, hr]
    show t.pointing _ = t.pointing _
    rw [pointing_pointer, pointing_size, Int.emod_sub_emod, hsum]
  | grow =>
    rw [hr] at part
    dsimp only at part ⊢
    by_cases hroom : limits.hasRoom (t.size + (first - t.pointer).toNat)
    · rw [if_pos hroom] at part
      have hcrossed : (first - t.pointer).toNat + (second - max 0 (t.pointer - first)).toNat =
          (first + second - t.pointer).toNat := by omega
      have hmax : max 0 (max 0 (t.pointer - first) - second) =
          max 0 (t.pointer - (first + second)) := by omega
      rw [Action.bind_of_ok part, (keeps _ part).moveLeft_eq hs, grownLeft_edgeRule, hr]
      dsimp only
      rw [grownLeft_pointer, grownLeft_size, Nat.add_assoc, hcrossed, hmax]
      by_cases hroom' : limits.hasRoom (t.size + (first + second - t.pointer).toNat)
      · rw [if_pos hroom', if_pos hroom', grownLeft_grownLeft, hcrossed]
        rfl
      · rw [if_neg hroom', if_neg hroom']
        exact Raised.joins_foreign ⟨_, rfl⟩ ⟨_, rfl⟩
    · rw [if_neg hroom] at part
      have hroom' : ¬ limits.hasRoom (t.size + (first + second - t.pointer).toNat) = true :=
        fun hw => hroom (Limits.hasRoom_mono (by omega) hw)
      rw [Action.bind_of_error part, if_neg hroom']
      exact Raised.joins_foreign ⟨_, rfl⟩ ⟨_, rfl⟩
  | refuse =>
    rw [hr] at part
    dsimp only at part ⊢
    have write := h.canWrite_pointer hl
    by_cases hin : first ≤ t.pointer
    · rw [if_pos hin] at part
      have write' := (keeps _ part).canWrite_pointer hl
      rw [Action.bind_of_ok part, (keeps _ part).moveLeft_eq hs, pointing_edgeRule, hr]
      dsimp only
      rw [pointing_pointer, hsum, pointing_pointing]
      by_cases hin' : first + second ≤ t.pointer
      · rw [if_pos hin', if_pos (by omega)]
        rfl
      · rw [if_neg hin', if_neg (by omega)]
        exact joins_moved rfl (.inr rfl) rfl rfl write' write (by omega)
    · rw [if_neg hin] at part
      rw [Action.bind_of_error part, if_neg (by omega)]
      exact joins_moved rfl (.inr rfl) rfl rfl write write (by omega)

end Tape

namespace Store

open Tape (Joined)

variable {σ : Type} {limits : Limits} {count : Int}

theorem joined_onTape {first second whole : Action Tape Unit} {s : Store σ}
    (h : Joined limits count ((first >>= fun _ => second) s.tape) (whole s.tape)) :
    Joined limits count ((onTape first >>= fun _ => onTape second) s) (onTape whole s) := by
  have both : (onTape first >>= fun _ => onTape second) s =
      onTape (first >>= fun _ => second) s := by
    cases hf : first s.tape with
    | ok a tape =>
      rw [Action.bind_of_ok (onTape_of_ok hf), onTape, onTape, Action.bind_of_ok hf]
    | error e tape =>
      rw [Action.bind_of_error (onTape_of_error hf), onTape, Action.bind_of_error hf]
  rw [both, onTape, onTape]
  generalize (first >>= fun _ => second) s.tape = r at h
  generalize whole s.tape = r' at h
  cases r with
  | ok a tape =>
    cases r' with
    | ok a' tape' =>
      cases h
      rfl
    | error e' tape' => exact h
  | error e tape =>
    cases r' with
    | ok a' tape' => exact h
    | error e' tape' => exact h

/-- Carries out a counted operation. -/
def turn : Counted → Int → Action (Store σ) Unit
  | .add, count => onTape (Tape.add count)
  | .subtract, count => onTape (Tape.subtract count)
  | .left, count => moveLeft count
  | .right, count => onTape (Tape.moveRight count)

theorem perform_counted (preallocated : Bool) (kind : Counted) (count : Int) :
    perform (σ := σ) preallocated (.counted kind count) =
      (turn kind count >>= fun _ => pure .done) := by
  cases kind <;> rfl

theorem shift_shift (t : AliasTable) (first second : Int) :
    (t.shift first).shift second = t.shift (first + second) := by
  simp only [AliasTable.shift, List.map_map, AliasTable.mk.injEq, true_and]
  refine List.map_congr_left fun b _ => ?_
  simp only [Function.comp_apply, Int.add_assoc]

theorem Sound.moveLeft_moveLeft {s : Store σ} (h : s.Sound limits) (hl : limits.Legible)
    {first second : Int} (hf : 0 ≤ first) (hs : 0 ≤ second) :
    Joined limits (first + second) ((moveLeft first >>= fun _ => moveLeft second) s)
      (moveLeft (first + second) s) := by
  have joined := h.tape.moveLeft_moveLeft hl hf hs
  cases part : Tape.moveLeft first s.tape with
  | error e tape =>
    rw [Action.bind_of_error part] at joined
    have hpart : moveLeft first s = .error e { s with tape } := by
      rw [moveLeft, onTape_of_error part]
    rw [Action.bind_of_error hpart, moveLeft, onTape]
    cases whole : Tape.moveLeft (first + second) s.tape with
    | ok a tape' =>
      rw [whole] at joined
      exact joined
    | error e' tape' =>
      rw [whole] at joined
      exact joined
  | ok a tape =>
    rw [Action.bind_of_ok part] at joined
    have hpart : moveLeft first s = .ok ()
        { s with tape, aliases := s.aliases.shift (tape.origin - s.tape.origin) } := by
      rw [moveLeft, onTape_of_ok part]
    rw [Action.bind_of_ok hpart, moveLeft, moveLeft, onTape, onTape]
    generalize Tape.moveLeft (first + second) s.tape = r' at joined
    generalize Tape.moveLeft second tape = r at joined
    cases r with
    | ok b tape' =>
      cases r' with
      | ok b' tape'' =>
        cases joined
        -- The aliases follow the origin, so the two shifts add up to that of the whole move.
        have hsum : (tape.origin : Int) - s.tape.origin + (tape'.origin - tape.origin) =
            tape'.origin - s.tape.origin := by omega
        show Store.mk _ _ _ _ = Store.mk _ _ _ _
        dsimp only
        rw [shift_shift, hsum]
      | error e' tape'' => exact joined
    | error e tape' =>
      cases r' with
      | ok b' tape'' => exact joined
      | error e' tape'' => exact joined

theorem joined_neg {τ : Type} {r r' : EStateM.Result Raised τ Unit}
    (h : Joined limits (-count) r r') : Joined limits count r r' := by
  cases r with
  | ok a t => cases r' <;> exact h
  | error e t =>
    cases r' with
    | ok a' t' => exact h
    | error e' t' =>
      refine ⟨h.unplaced, h.unplaced', h.heading.imp_right fun ⟨range, long, write⟩ => ?_⟩
      exact ⟨range, long, by rwa [Limits.canWrite, Int.natAbs_neg] at write⟩

/-- A counted operation carried out twice is one with the sum of the counts. -/
theorem Sound.turn_turn {s : Store σ} (h : s.Sound limits) (hl : limits.Legible) (kind : Counted)
    {first second : Int} (hf : 0 ≤ first) (hs : 0 ≤ second) :
    Joined limits (first + second) ((turn kind first >>= fun _ => turn kind second) s)
      (turn kind (first + second) s) := by
  cases kind with
  | add => exact joined_onTape (h.tape.shift_shift hl (.inl ⟨hf, hs⟩))
  | subtract =>
    refine joined_neg (joined_onTape ?_)
    have joined : Joined limits (-first + -second)
        ((Tape.shift (-first) >>= fun _ => Tape.shift (-second)) s.tape)
        (Tape.shift (-first + -second) s.tape) :=
      h.tape.shift_shift hl (.inr ⟨by omega, by omega⟩)
    have hsum : -first + -second = -(first + second) := by omega
    rwa [hsum] at joined
  | left => exact h.moveLeft_moveLeft hl hf hs
  | right => exact joined_onTape (h.tape.moveRight_moveRight hl hf hs)

/-- Counted operations do not touch the device. -/
theorem turn_device (kind : Counted) (count : Int) (s : Store σ) :
    match turn kind count s with
    | .ok _ t => t.device = s.device
    | .error _ t => t.device = s.device := by
  cases kind with
  | add => rw [turn, onTape]; cases Tape.add count s.tape <;> rfl
  | subtract => rw [turn, onTape]; cases Tape.subtract count s.tape <;> rfl
  | left => rw [turn, moveLeft, onTape]; cases Tape.moveLeft count s.tape <;> rfl
  | right => rw [turn, onTape]; cases Tape.moveRight count s.tape <;> rfl

end Store

end NamedTape
