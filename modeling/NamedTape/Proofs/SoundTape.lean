import NamedTape.Proofs.Action

/-!
# Sound tapes

A tape is sound if its pointer addresses a cell and its machine has room for it. What an operation
does to a sound tape is told by one equation for each.

* An operation that fails leaves the tape as it was, and one whose count is not negative keeps a
  sound tape sound.
* On a machine that can write the size of every tape it has room for, a sound tape can be shown.
-/

namespace NamedTape

namespace Limits

/-- The machine can write the number of the cells of any tape that it has room for. -/
def Legible (limits : Limits) : Prop :=
  ∀ n : Nat, limits.hasRoom n = true → limits.canWrite n = true

theorem legible_standard : Legible .standard := by
  intro n hn
  have hroom : n ≤ Nat.pow 2 35 - 1 := by simpa [hasRoom, standard] using hn
  have hpow : Nat.pow 2 35 - 1 < Nat.pow 10 11 := by decide
  have grows : ∀ a b : Nat, a ≤ b → Nat.pow 10 a ≤ Nat.pow 10 b :=
    fun _ _ => Nat.pow_le_pow_right (by decide)
  have hdigits := grows 11 maxDigits (by decide)
  simp only [canWrite, standard, Option.all_some, Int.natAbs_natCast, decide_eq_true_eq]
  omega

variable {limits : Limits}

theorem hasRoom_mono {m n : Nat} (hmn : m ≤ n) (h : limits.hasRoom n = true) :
    limits.hasRoom m = true := by
  revert h
  unfold hasRoom
  cases limits.room with
  | none => exact id
  | some room =>
    simp only [Option.all_some, decide_eq_true_eq]
    omega

theorem canWrite_mono {m n : Int} (hmn : m.natAbs ≤ n.natAbs) (h : limits.canWrite n = true) :
    limits.canWrite m = true := by
  revert h
  unfold canWrite
  cases limits.digits with
  | none => exact id
  | some digits =>
    simp only [Option.all_some, decide_eq_true_eq]
    omega

end Limits

namespace Tape

open NamedTape.Action (FailsInPlace Keeps)

/-- The tape has a current cell and does not exceed the limits. -/
structure Sound (limits : Limits) (t : Tape) : Prop where
  limits_eq : t.limits = limits
  room : limits.hasRoom t.size = true
  pointer_nonneg : 0 ≤ t.pointer
  pointer_lt : t.pointer < t.size

variable {limits : Limits} {t : Tape}

theorem Sound.size_pos (h : t.Sound limits) : 0 < t.size := by
  have := h.pointer_nonneg
  have := h.pointer_lt
  omega

theorem Sound.slot (h : t.Sound limits) : t.slot? = some t.pointer.toNat := by
  rw [slot?, if_pos h.pointer_nonneg, if_pos h.pointer_lt]

theorem Sound.canWrite_pointer (h : t.Sound limits) (hl : limits.Legible) :
    limits.canWrite t.pointer = true := by
  have hnonneg := h.pointer_nonneg
  have hlt := h.pointer_lt
  exact Limits.canWrite_mono (by omega) (hl _ h.room)

/-! ## Changes of a tape -/

section changes

variable (t : Tape)

/-- The tape with its pointer somewhere else. -/
def pointing (pointer : Int) : Tape := { t with pointer }

/-- The tape with another value in its current cell. -/
def storing (cell : UInt8) : Tape :=
  { t with cells := t.cells.setIfInBounds t.pointer.toNat cell }

/-- The tape with so many more cells at the end. -/
def grownRight (missing : Nat) (pointer : Int) : Tape :=
  { t with cells := t.cells ++ Array.replicate missing 0, pointer }

/-- The tape with so many more cells at the front. -/
def grownLeft (crossed : Nat) (pointer : Int) : Tape :=
  { t with
    cells := Array.replicate crossed 0 ++ t.cells
    origin := t.origin + crossed
    pointer }

variable (pointer : Int) (cell : UInt8) (missing crossed : Nat)

@[simp] theorem pointing_pointer : (t.pointing pointer).pointer = pointer := rfl
@[simp] theorem pointing_size : (t.pointing pointer).size = t.size := rfl
@[simp] theorem pointing_edgeRule : (t.pointing pointer).edgeRule = t.edgeRule := rfl
@[simp] theorem pointing_origin : (t.pointing pointer).origin = t.origin := rfl

@[simp] theorem storing_pointer : (t.storing cell).pointer = t.pointer := rfl
@[simp] theorem storing_cellRule : (t.storing cell).cellRule = t.cellRule := rfl
@[simp] theorem storing_size : (t.storing cell).size = t.size := Array.size_setIfInBounds

@[simp] theorem grownRight_pointer : (t.grownRight missing pointer).pointer = pointer := rfl
@[simp] theorem grownRight_edgeRule : (t.grownRight missing pointer).edgeRule = t.edgeRule := rfl
@[simp] theorem grownRight_size : (t.grownRight missing pointer).size = t.size + missing := by
  simp only [grownRight, size, Array.size_append, Array.size_replicate]

@[simp] theorem grownLeft_pointer : (t.grownLeft crossed pointer).pointer = pointer := rfl
@[simp] theorem grownLeft_edgeRule : (t.grownLeft crossed pointer).edgeRule = t.edgeRule := rfl
@[simp] theorem grownLeft_origin :
    (t.grownLeft crossed pointer).origin = t.origin + crossed := rfl
@[simp] theorem grownLeft_size : (t.grownLeft crossed pointer).size = t.size + crossed := by
  simp only [grownLeft, size, Array.size_append, Array.size_replicate]
  omega

theorem pointing_pointing (pointer' : Int) :
    (t.pointing pointer).pointing pointer' = t.pointing pointer' := rfl

theorem storing_storing (cell' : UInt8) : (t.storing cell).storing cell' = t.storing cell' := by
  simp only [storing, Array.setIfInBounds_setIfInBounds]

theorem grownRight_grownRight (missing' : Nat) (pointer' : Int) :
    (t.grownRight missing pointer).grownRight missing' pointer' =
      t.grownRight (missing + missing') pointer' := by
  simp only [grownRight, Array.append_assoc, Array.replicate_append_replicate]

theorem grownLeft_grownLeft (crossed' : Nat) (pointer' : Int) :
    (t.grownLeft crossed pointer).grownLeft crossed' pointer' =
      t.grownLeft (crossed + crossed') pointer' := by
  simp only [grownLeft, ← Array.append_assoc, Array.replicate_append_replicate, Nat.add_assoc,
    Nat.add_comm crossed']

theorem grownRight_zero : t.grownRight 0 pointer = t.pointing pointer := by
  rw [grownRight, Array.replicate_zero, Array.append_empty, pointing]

theorem grownLeft_zero : t.grownLeft 0 pointer = t.pointing pointer := by
  rw [grownLeft, Array.replicate_zero, Array.empty_append, Nat.add_zero, pointing]

theorem moveRight_def (count : Int) :
    moveRight count t =
      if t.pointer + count < t.size then .ok () (t.pointing (t.pointer + count))
      else match t.edgeRule with
        | .wrap => .ok () (t.pointing ((t.pointer + count) % t.size))
        | .grow =>
          if t.hasRoom (t.pointer + count - t.size + 1).toNat then
            .ok () (t.grownRight (t.pointer + count - t.size + 1).toNat (t.pointer + count))
          else .error (full (t.pointer + count - t.size + 1).toNat) t
        | .refuse => .error (t.limits.raise (.aboveTape (t.size - 1) count t.pointer)) t :=
  rfl

theorem moveLeft_def (count : Int) :
    moveLeft count t =
      if 0 ≤ t.pointer - count then .ok () (t.pointing (t.pointer - count))
      else match t.edgeRule with
        | .wrap => .ok () (t.pointing ((t.pointer - count) % t.size))
        | .grow =>
          if t.hasRoom (-(t.pointer - count)).toNat then
            .ok () (t.grownLeft (-(t.pointer - count)).toNat 0)
          else .error (full (-(t.pointer - count)).toNat) t
        | .refuse => .error (t.limits.raise (.belowTape count t.pointer)) t :=
  rfl

variable {t pointer}

/-- A pointer that wraps goes to the remainder, also where it would have stayed on the tape. -/
theorem moveRight_wrap {count : Int} (hedge : t.edgeRule = .wrap) (h : 0 ≤ t.pointer + count) :
    moveRight count t = .ok () (t.pointing ((t.pointer + count) % t.size)) := by
  rw [moveRight_def, hedge]
  split
  · next hin => rw [Int.emod_eq_of_lt h hin]
  · rfl

theorem moveLeft_wrap {count : Int} (hedge : t.edgeRule = .wrap) (h : t.pointer - count < t.size) :
    moveLeft count t = .ok () (t.pointing ((t.pointer - count) % t.size)) := by
  rw [moveLeft_def, hedge]
  split
  · next hin => rw [Int.emod_eq_of_lt hin h]
  · rfl

/-- A value that is stored changes one cell. -/
theorem cellAt_storing (hnonneg : 0 ≤ t.pointer) (hlt : t.pointer < t.size) (address : Nat) :
    (t.storing cell).cellAt address =
      if address = t.pointer.toNat then cell else t.cellAt address := by
  have hin : t.pointer.toNat < t.cells.size := by
    rw [size] at hlt
    omega
  simp only [cellAt, Tape.storing, Array.getD_eq_getD_getElem?, Array.getElem?_setIfInBounds, hin,
    if_true, eq_comm (a := address)]
  split <;> rfl

theorem Sound.pointing (h : t.Sound limits) (hp : 0 ≤ pointer) (hlt : pointer < t.size) :
    (t.pointing pointer).Sound limits :=
  ⟨h.limits_eq, h.room, hp, hlt⟩

theorem Sound.stored (h : t.Sound limits) (i : Nat) :
    ({ t with cells := t.cells.setIfInBounds i cell } : Tape).Sound limits := by
  have size : ({ t with cells := t.cells.setIfInBounds i cell } : Tape).size = t.size :=
    Array.size_setIfInBounds
  exact ⟨h.limits_eq, size ▸ h.room, h.pointer_nonneg, size ▸ h.pointer_lt⟩

theorem Sound.storing (h : t.Sound limits) : (t.storing cell).Sound limits :=
  h.stored cell t.pointer.toNat

theorem Sound.grownRight (h : t.Sound limits) (hp : 0 ≤ pointer) (hlt : pointer < t.size + missing)
    (hroom : limits.hasRoom (t.size + missing) = true) :
    (t.grownRight missing pointer).Sound limits := by
  refine ⟨h.limits_eq, ?_, hp, ?_⟩
  · rw [grownRight_size]
    exact hroom
  · rw [grownRight_size, grownRight_pointer]
    omega

theorem Sound.grownLeft (h : t.Sound limits) (hp : 0 ≤ pointer) (hlt : pointer < t.size)
    (hroom : limits.hasRoom (t.size + crossed) = true) :
    (t.grownLeft crossed pointer).Sound limits := by
  refine ⟨h.limits_eq, ?_, hp, ?_⟩
  · rw [grownLeft_size]
    exact hroom
  · rw [grownLeft_size, grownLeft_pointer]
    omega

theorem Sound.cellAt_storing (h : t.Sound limits) :
    (t.storing cell).cellAt t.pointer.toNat = cell := by
  rw [Tape.cellAt_storing cell h.pointer_nonneg h.pointer_lt, if_pos rfl]

end changes

/-! ## What the operations do -/

theorem Sound.value_eq (h : t.Sound limits) :
    value t = .ok (t.cellAt t.pointer.toNat).toNat t := by
  rw [value, h.slot]

theorem Sound.snapshot_ok (h : t.Sound limits) (hl : limits.Legible) :
    ∃ text, snapshot t = .ok text t := by
  rw [snapshot, h.limits_eq, h.canWrite_pointer hl, h.slot]
  exact ⟨_, rfl⟩

theorem Sound.shift_eq (h : t.Sound limits) (delta : Int) :
    shift delta t =
      match CellRule.settle? t.cellRule ((t.cellAt t.pointer.toNat).toNat + delta) with
      | some cell => .ok () (t.storing cell)
      | none => .error (limits.raise
          (.cellOverflow t.pointer (t.cellAt t.pointer.toNat).toNat delta)) t := by
  obtain rfl := h.limits_eq
  unfold shift
  rw [h.slot]
  rfl

theorem Sound.setValue_eq (h : t.Sound limits) (value : Int) :
    setValue value t =
      if 0 ≤ value ∧ value ≤ 255 then .ok () (t.storing (.ofNat value.toNat))
      else .error (limits.raise
        (.valueOutOfRange t.pointer (t.cellAt t.pointer.toNat).toNat value)) t := by
  obtain rfl := h.limits_eq
  rw [setValue, setValueAt, if_pos ⟨h.pointer_nonneg, h.pointer_lt⟩]
  rfl

theorem Sound.moveRight_eq (h : t.Sound limits) {count : Int} (hc : 0 ≤ count) :
    moveRight count t =
      match t.edgeRule with
      | .wrap => .ok () (t.pointing ((t.pointer + count) % t.size))
      | .grow =>
        if limits.hasRoom (t.size + ((t.pointer + count + 1).toNat - t.size)) then
          .ok () (t.grownRight ((t.pointer + count + 1).toNat - t.size) (t.pointer + count))
        else .error (full ((t.pointer + count + 1).toNat - t.size)) t
      | .refuse =>
        if t.pointer + count < t.size then .ok () (t.pointing (t.pointer + count))
        else .error (limits.raise (.aboveTape (t.size - 1) count t.pointer)) t := by
  have hnonneg := h.pointer_nonneg
  cases hedge : t.edgeRule with
  | wrap => exact moveRight_wrap hedge (by omega)
  | grow =>
    rw [moveRight_def, hedge, hasRoom, h.limits_eq]
    dsimp only
    by_cases hin : t.pointer + count < t.size
    · have hmissing : (t.pointer + count + 1).toNat - t.size = 0 := by omega
      rw [if_pos hin, hmissing, Nat.add_zero, if_pos h.room, grownRight_zero]
    · have hmissing : (t.pointer + count - t.size + 1).toNat =
          (t.pointer + count + 1).toNat - t.size := by omega
      rw [if_neg hin, hmissing]
  | refuse => rw [moveRight_def, hedge, h.limits_eq]

theorem Sound.moveLeft_eq (h : t.Sound limits) {count : Int} (hc : 0 ≤ count) :
    moveLeft count t =
      match t.edgeRule with
      | .wrap => .ok () (t.pointing ((t.pointer - count) % t.size))
      | .grow =>
        if limits.hasRoom (t.size + (count - t.pointer).toNat) then
          .ok () (t.grownLeft (count - t.pointer).toNat (max 0 (t.pointer - count)))
        else .error (full (count - t.pointer).toNat) t
      | .refuse =>
        if count ≤ t.pointer then .ok () (t.pointing (t.pointer - count))
        else .error (limits.raise (.belowTape count t.pointer)) t := by
  have hlt := h.pointer_lt
  cases hedge : t.edgeRule with
  | wrap => exact moveLeft_wrap hedge (by omega)
  | grow =>
    rw [moveLeft_def, hedge, hasRoom, h.limits_eq]
    dsimp only
    by_cases hin : 0 ≤ t.pointer - count
    · have hcrossed : (count - t.pointer).toNat = 0 := by omega
      have hmax : max 0 (t.pointer - count) = t.pointer - count := by omega
      rw [if_pos hin, hcrossed, hmax, Nat.add_zero, if_pos h.room, grownLeft_zero]
    · have hcrossed : -(t.pointer - count) = count - t.pointer := by omega
      have hmax : max 0 (t.pointer - count) = 0 := by omega
      rw [if_neg hin, hcrossed, hmax]
  | refuse =>
    have hin : 0 ≤ t.pointer - count ↔ count ≤ t.pointer := by omega
    simp only [moveLeft_def, hedge, h.limits_eq, hin]

/-! ## What the operations keep -/

theorem failsInPlace_value : FailsInPlace value := by
  intro t e t' h
  unfold value at h
  split at h <;> cases h
  rfl

theorem failsInPlace_shift (delta : Int) : FailsInPlace (shift delta) := by
  intro t e t' h
  unfold shift at h
  split at h
  · cases h
    rfl
  · dsimp only at h
    split at h <;> cases h
    rfl

theorem failsInPlace_valueAt (address : Int) : FailsInPlace (valueAt address) := by
  intro t e t' h
  unfold valueAt at h
  split at h <;> cases h
  rfl

theorem failsInPlace_setValueAt (address value : Int) :
    FailsInPlace (setValueAt address value) := by
  intro t e t' h
  unfold setValueAt at h
  split at h
  · split at h <;> cases h
    rfl
  · cases h
    rfl

theorem failsInPlace_setValue (value : Int) : FailsInPlace (setValue value) :=
  fun t => failsInPlace_setValueAt t.pointer value t

theorem failsInPlace_snapshot : FailsInPlace snapshot := by
  intro t e t' h
  unfold snapshot at h
  split at h
  · cases h
    rfl
  · split at h <;> cases h
    rfl

theorem failsInPlace_moveTo (address : Int) : FailsInPlace (moveTo address) := by
  intro t e t' h
  unfold moveTo at h
  split at h <;> cases h
  rfl

theorem failsInPlace_moveLeft (count : Int) : FailsInPlace (moveLeft count) := by
  intro t e t' h
  unfold moveLeft at h
  dsimp only at h
  split at h
  · cases h
  · split at h
    · cases h
    · split at h <;> cases h
      rfl
    · cases h
      rfl

theorem failsInPlace_moveRight (count : Int) : FailsInPlace (moveRight count) := by
  intro t e t' h
  unfold moveRight at h
  dsimp only at h
  split at h
  · cases h
  · split at h
    · cases h
    · split at h <;> cases h
      rfl
    · cases h
      rfl

theorem shift_keeps (delta : Int) : Keeps (Sound limits) (shift delta) := by
  refine .of_failsInPlace (failsInPlace_shift delta) fun t h a t' heq => ?_
  rw [h.shift_eq] at heq
  split at heq <;> cases heq
  exact h.storing _

theorem setValueAt_keeps (address value : Int) :
    Keeps (Sound limits) (setValueAt address value) := by
  refine .of_failsInPlace (failsInPlace_setValueAt address value) fun t h a t' heq => ?_
  unfold setValueAt at heq
  split at heq
  · split at heq <;> cases heq
    exact h.stored _ _
  · cases heq

theorem setValue_keeps (value : Int) : Keeps (Sound limits) (setValue value) :=
  fun t => setValueAt_keeps t.pointer value t

theorem moveTo_keeps (address : Int) : Keeps (Sound limits) (moveTo address) := by
  refine .of_failsInPlace (failsInPlace_moveTo address) fun t h a t' heq => ?_
  unfold moveTo at heq
  split at heq <;> cases heq
  next hin => exact h.pointing hin.1 hin.2

theorem moveRight_keeps {count : Int} (hc : 0 ≤ count) :
    Keeps (Sound limits) (moveRight count) := by
  refine .of_failsInPlace (failsInPlace_moveRight count) fun t h a t' heq => ?_
  have hpos := h.size_pos
  have hnonneg := h.pointer_nonneg
  rw [h.moveRight_eq hc] at heq
  split at heq
  · cases heq
    exact h.pointing (Int.emod_nonneg _ (by omega)) (Int.emod_lt_of_pos _ (by omega))
  · split at heq <;> cases heq
    next hroom => exact h.grownRight _ (by omega) (by omega) hroom
  · split at heq <;> cases heq
    next hin => exact h.pointing (by omega) hin

theorem moveLeft_keeps {count : Int} (hc : 0 ≤ count) :
    Keeps (Sound limits) (moveLeft count) := by
  refine .of_failsInPlace (failsInPlace_moveLeft count) fun t h a t' heq => ?_
  have hpos := h.size_pos
  have hlt := h.pointer_lt
  rw [h.moveLeft_eq hc] at heq
  split at heq
  · cases heq
    exact h.pointing (Int.emod_nonneg _ (by omega)) (Int.emod_lt_of_pos _ (by omega))
  · split at heq <;> cases heq
    next hroom => exact h.grownLeft _ (by omega) (by omega) hroom
  · split at heq <;> cases heq
    next hin => exact h.pointing (by omega) (by omega)

/-! ## What operations leave -/

section leaves

variable {t t' : Tape} {a : Unit}

/-- A shift stores a value in a cell. -/
theorem stored_of_shift {delta : Int} (h : shift delta t = .ok a t') :
    ∃ i cell, t' = { t with cells := t.cells.setIfInBounds i cell } := by
  unfold shift at h
  split at h
  · cases h
  · dsimp only at h
    split at h <;> cases h
    exact ⟨_, _, rfl⟩

theorem stored_of_setValueAt {address value : Int} (h : setValueAt address value t = .ok a t') :
    ∃ i cell, t' = { t with cells := t.cells.setIfInBounds i cell } := by
  unfold setValueAt at h
  split at h
  · split at h <;> cases h
    exact ⟨_, _, rfl⟩
  · cases h

theorem stored_of_setValue {value : Int} (h : setValue value t = .ok a t') :
    ∃ i cell, t' = { t with cells := t.cells.setIfInBounds i cell } :=
  stored_of_setValueAt h

theorem pointing_of_moveTo {address : Int} (h : moveTo address t = .ok a t') :
    t' = t.pointing address := by
  unfold moveTo at h
  split at h <;> cases h
  rfl

/-- A move to the right changes the pointer, and adds cells at most if the tape grows. -/
theorem moved_of_moveRight {count : Int} (h : moveRight count t = .ok a t') :
    (∃ pointer, t' = t.pointing pointer) ∨
      t.edgeRule = .grow ∧ ∃ missing pointer, t' = t.grownRight missing pointer := by
  rw [moveRight_def] at h
  split at h
  · cases h
    exact .inl ⟨_, rfl⟩
  · split at h
    · cases h
      exact .inl ⟨_, rfl⟩
    · next grows =>
      split at h <;> cases h
      exact .inr ⟨grows, _, _, rfl⟩
    · cases h

theorem moved_of_moveLeft {count : Int} (h : moveLeft count t = .ok a t') :
    (∃ pointer, t' = t.pointing pointer) ∨
      t.edgeRule = .grow ∧ ∃ crossed pointer, t' = t.grownLeft crossed pointer := by
  rw [moveLeft_def] at h
  split at h
  · cases h
    exact .inl ⟨_, rfl⟩
  · split at h
    · cases h
      exact .inl ⟨_, rfl⟩
    · next grows =>
      split at h <;> cases h
      exact .inr ⟨grows, _, _, rfl⟩
    · cases h

/-! ### Sizes -/

theorem size_of_shift {delta : Int} (h : shift delta t = .ok a t') : t'.size = t.size := by
  obtain ⟨i, cell, rfl⟩ := stored_of_shift h
  exact Array.size_setIfInBounds

theorem size_of_setValueAt {address value : Int} (h : setValueAt address value t = .ok a t') :
    t'.size = t.size := by
  obtain ⟨i, cell, rfl⟩ := stored_of_setValueAt h
  exact Array.size_setIfInBounds

theorem size_of_setValue {value : Int} (h : setValue value t = .ok a t') : t'.size = t.size :=
  size_of_setValueAt h

theorem size_of_moveTo {address : Int} (h : moveTo address t = .ok a t') : t'.size = t.size := by
  rw [pointing_of_moveTo h, pointing_size]

theorem size_of_moveRight {count : Int} (h : moveRight count t = .ok a t') :
    t.size ≤ t'.size := by
  rcases moved_of_moveRight h with ⟨pointer, rfl⟩ | ⟨-, missing, pointer, rfl⟩
  · exact Nat.le_refl _
  · rw [grownRight_size]
    omega

/-- A move to the left adds as many cells as it moves the others up. -/
theorem size_of_moveLeft {count : Int} (h : moveLeft count t = .ok a t') :
    t.origin ≤ t'.origin ∧ t'.size = t.size + (t'.origin - t.origin) := by
  rcases moved_of_moveLeft h with ⟨pointer, rfl⟩ | ⟨-, crossed, pointer, rfl⟩
  · rw [pointing_size, pointing_origin]
    omega
  · rw [grownLeft_size, grownLeft_origin]
    omega

end leaves

/-! ## Tapes before a run -/

theorem sound_clear {t : Tape} (hsize : 0 < t.size) (hroom : t.limits.hasRoom t.size = true) :
    t.clear.realign.Sound t.limits := by
  have size : t.clear.realign.size = t.size := Array.size_replicate
  refine ⟨rfl, size ▸ hroom, Int.le_refl 0, ?_⟩
  show (0 : Int) < t.clear.realign.size
  omega

/-- The tape has a cell and does not exceed the limits of its machine, and the machine can write the
size of any tape it has room for. -/
structure Viable (t : Tape) : Prop where
  size_pos : 0 < t.size
  room : t.limits.hasRoom t.size = true
  legible : t.limits.Legible

theorem Viable.sound_realign {t : Tape} (h : t.Viable) : t.clear.realign.Sound t.limits :=
  sound_clear h.size_pos h.room

/-- What can be made is a blank tape with cells that there is room for. -/
theorem eq_of_make {size : Int} {cellRule edgeRule : String} {t : Tape}
    (h : make size cellRule edgeRule = .ok t) :
    0 < size.toNat ∧ Limits.standard.hasRoom size.toNat = true ∧
      ∃ cells edges, t = confined size.toNat cells edges := by
  unfold make at h
  split at h
  · cases h
  next hpos =>
    split at h
    · cases h
    next hroom =>
      split at h
      · cases h
      · cases h
      · next cells edges _ _ =>
        cases h
        exact ⟨by omega, by simpa using hroom, cells, edges, rfl⟩

/-- Every tape that can be made is viable. -/
theorem viable_of_make {size : Int} {cellRule edgeRule : String} {t : Tape}
    (h : make size cellRule edgeRule = .ok t) : t.Viable := by
  obtain ⟨hpos, hroom, cells, edges, rfl⟩ := eq_of_make h
  have hsize : (confined size.toNat cells edges).size = size.toNat := Array.size_replicate
  refine ⟨hsize.symm ▸ hpos, ?_, Limits.legible_standard⟩
  rw [hsize]
  exact hroom

end Tape

end NamedTape
