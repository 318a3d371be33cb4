import NamedTape.Proofs.Joining
import NamedTape.Tape.Call

/-!
# Histories of a tape

A tape that has been made keeps its shape whatever is called on it, as long as no count is negative
(`calls_keep_shape`).

* It has a cell at least and never fewer than before, its pointer addresses one of them, and no call
  reaches beyond them. What is stored is stored whole, so that all cells hold bytes.
* A call that fails leaves the tape as it was. This needs nothing of the tape or of the call: the
  counts may be negative, and the pointer may have left the tape.
-/

namespace NamedTape

/-- An access through a pointer that addresses no cell. -/
def Raised.Wild (e : Raised) : Prop :=
  ∃ pointer size, e = .foreign (.wildPointer pointer size)

theorem Limits.not_wild_raise (limits : Limits) (cause : Cause) :
    ¬ (limits.raise cause).Wild := by
  rintro ⟨pointer, size, h⟩
  unfold Limits.raise at h
  split at h <;> cases h

/-- The number that a rule makes of a value, if it allows it. -/
def CellRule.fit : CellRule → Int → Int
  | .wrap, target => target % 256
  | .clamp, target => max 0 (min 255 target)
  | .refuse, target => target

namespace Tape

open NamedTape.Action (FailsInPlace Keeps Meets)

variable {limits : Limits} {t : Tape} {call : Call}

/-- A tape as it is made: blank, with the pointer at the first of its cells. It has one at least,
and no more than the machine has room for. -/
inductive Made : Tape → Prop
  | intro {size : Nat} (cellRule : CellRule) (edgeRule : EdgeRule) (limits : Limits)
    (size_pos : 0 < size) (room : limits.hasRoom size = true) :
    Made { blank size cellRule edgeRule with limits }

theorem made_of_make {size : Int} {cellRule edgeRule : String}
    (h : make size cellRule edgeRule = .ok t) : t.Made := by
  obtain ⟨hpos, hroom, cells, edges, rfl⟩ := eq_of_make h
  exact .intro cells edges .standard hpos hroom

theorem Made.sound (h : t.Made) : t.Sound t.limits := by
  obtain @⟨size, cellRule, edgeRule, limits, hpos, hroom⟩ := h
  have hsize : ({ blank size cellRule edgeRule with limits } : Tape).size = size :=
    Array.size_replicate
  refine ⟨rfl, ?_, Int.le_refl 0, ?_⟩
  · rw [hsize]
    exact hroom
  · rw [hsize]
    exact Int.natCast_pos.mpr hpos

/-! ## What single calls do -/

/-- The count of the call, if it has one, is not negative. -/
def Call.Nonneg : Call → Prop
  | add n | subtract n | moveLeft n | moveRight n => 0 ≤ n
  | _ => True

instance : DecidablePred Call.Nonneg
  | .add n | .subtract n | .moveLeft n | .moveRight n => inferInstanceAs (Decidable (0 ≤ n))
  | .size | .value | .setValue _ | .valueAt _ | .setValueAt .. | .moveTo _ | .clear | .realign
  | .snapshot => inferInstanceAs (Decidable True)

/-- A call that fails changes nothing. -/
theorem failsInPlace_perform (call : Call) : FailsInPlace call.perform := by
  cases call with
  | size => exact fun _ _ _ h => nomatch h
  | value => exact failsInPlace_value.map _
  | setValue v => exact (failsInPlace_setValue v).map _
  | valueAt a => exact (failsInPlace_valueAt a).map _
  | setValueAt a v => exact (failsInPlace_setValueAt a v).map _
  | moveTo a => exact (failsInPlace_moveTo a).map _
  | add n => exact (failsInPlace_shift n).map _
  | subtract n => exact (failsInPlace_shift (-n)).map _
  | moveLeft n => exact (failsInPlace_moveLeft n).map _
  | moveRight n => exact (failsInPlace_moveRight n).map _
  | clear => exact fun _ _ _ h => nomatch h
  | realign => exact fun _ _ _ h => nomatch h
  | snapshot => exact failsInPlace_snapshot.map _

/-- The tape is sound and has so many cells at least. -/
structure Holds (limits : Limits) (least : Nat) (t : Tape) : Prop where
  sound : t.Sound limits
  size : least ≤ t.size

/-- The action leaves a sound tape sound and takes no cells from it, and it does not fail for a
pointer that addresses none. -/
structure Behaves {α : Type} (limits : Limits) (act : Action Tape α) : Prop where
  inPlace : FailsInPlace act
  ok : ∀ {t a u}, t.Sound limits → act t = .ok a u → u.Sound limits ∧ t.size ≤ u.size
  error : ∀ {t e u}, t.Sound limits → act t = .error e u → ¬ e.Wild

theorem Behaves.meets {α β : Type} {act : Action Tape α} (h : Behaves limits act) (f : α → β)
    (least : Nat) : Meets (Holds limits least) (f <$> act) (fun _ => Holds limits least)
      fun e t => Holds limits least t ∧ ¬ e.Wild := by
  refine .map fun t ht => ?_
  cases ha : act t with
  | ok a u =>
    obtain ⟨sound, size⟩ := h.ok ht.sound ha
    exact ⟨sound, Nat.le_trans ht.size size⟩
  | error e u =>
    cases h.inPlace t e u ha
    exact ⟨ht, h.error ht.sound ha⟩

theorem behaves_value : Behaves limits value where
  inPlace := failsInPlace_value
  ok ht ha := by
    cases ht.value_eq.symm.trans ha
    exact ⟨ht, Nat.le_refl _⟩
  error ht ha := by cases ht.value_eq.symm.trans ha

theorem behaves_valueAt (address : Int) : Behaves limits (valueAt address) where
  inPlace := failsInPlace_valueAt address
  ok ht ha := by
    unfold valueAt at ha
    split at ha <;> cases ha
    exact ⟨ht, Nat.le_refl _⟩
  error _ ha := by
    unfold valueAt at ha
    split at ha <;> cases ha
    exact Limits.not_wild_raise _ _

theorem behaves_setValueAt (address value : Int) : Behaves limits (setValueAt address value) where
  inPlace := failsInPlace_setValueAt address value
  ok ht ha := ⟨(setValueAt_keeps address value).ok ht ha, Nat.le_of_eq (size_of_setValueAt ha).symm⟩
  error _ ha := by
    unfold setValueAt at ha
    split at ha
    · split at ha <;> cases ha
      exact Limits.not_wild_raise _ _
    · cases ha
      exact Limits.not_wild_raise _ _

theorem behaves_setValue (value : Int) : Behaves limits (setValue value) where
  inPlace := failsInPlace_setValue value
  ok := (behaves_setValueAt _ value).ok
  error := (behaves_setValueAt _ value).error

theorem behaves_moveTo (address : Int) : Behaves limits (moveTo address) where
  inPlace := failsInPlace_moveTo address
  ok ht ha := ⟨(moveTo_keeps address).ok ht ha, Nat.le_of_eq (size_of_moveTo ha).symm⟩
  error _ ha := by
    unfold moveTo at ha
    split at ha <;> cases ha
    exact Limits.not_wild_raise _ _

theorem behaves_shift (delta : Int) : Behaves limits (shift delta) where
  inPlace := failsInPlace_shift delta
  ok ht ha := ⟨(shift_keeps delta).ok ht ha, Nat.le_of_eq (size_of_shift ha).symm⟩
  error ht ha := by
    rw [ht.shift_eq] at ha
    split at ha <;> cases ha
    exact Limits.not_wild_raise _ _

theorem behaves_moveLeft {count : Int} (hc : 0 ≤ count) : Behaves limits (moveLeft count) where
  inPlace := failsInPlace_moveLeft count
  ok ht ha := by
    obtain ⟨-, size⟩ := size_of_moveLeft ha
    exact ⟨(moveLeft_keeps hc).ok ht ha, by omega⟩
  error ht ha := by
    rw [ht.moveLeft_eq hc] at ha
    split at ha
    · cases ha
    · split at ha <;> cases ha
      rintro ⟨pointer, size, h⟩
      cases h
    · split at ha <;> cases ha
      exact Limits.not_wild_raise _ _

theorem behaves_moveRight {count : Int} (hc : 0 ≤ count) : Behaves limits (moveRight count) where
  inPlace := failsInPlace_moveRight count
  ok ht ha := ⟨(moveRight_keeps hc).ok ht ha, size_of_moveRight ha⟩
  error ht ha := by
    rw [ht.moveRight_eq hc] at ha
    split at ha
    · cases ha
    · split at ha <;> cases ha
      rintro ⟨pointer, size, h⟩
      cases h
    · split at ha <;> cases ha
      exact Limits.not_wild_raise _ _

theorem behaves_snapshot : Behaves limits snapshot where
  inPlace := failsInPlace_snapshot
  ok ht ha := by
    unfold snapshot at ha
    rw [ht.slot] at ha
    split at ha <;> cases ha
    exact ⟨ht, Nat.le_refl _⟩
  error ht ha := by
    unfold snapshot at ha
    rw [ht.slot] at ha
    split at ha <;> cases ha
    rintro ⟨pointer, size, h⟩
    cases h

/-- What one call keeps. -/
theorem perform_holds (h : call.Nonneg) (least : Nat) :
    Meets (Holds limits least) call.perform (fun _ => Holds limits least)
      fun e t => Holds limits least t ∧ ¬ e.Wild := by
  cases call with
  | size => exact fun _ ht => ht
  | value => exact behaves_value.meets _ least
  | setValue v => exact (behaves_setValue v).meets _ least
  | valueAt a => exact (behaves_valueAt a).meets _ least
  | setValueAt a v => exact (behaves_setValueAt a v).meets _ least
  | moveTo a => exact (behaves_moveTo a).meets _ least
  | add n => exact (behaves_shift n).meets _ least
  | subtract n => exact (behaves_shift (-n)).meets _ least
  | moveLeft n => exact (behaves_moveLeft h).meets _ least
  | moveRight n => exact (behaves_moveRight h).meets _ least
  | clear =>
    intro t ht
    have size : t.clear.size = t.size := Array.size_replicate
    refine ⟨⟨ht.sound.limits_eq, size ▸ ht.sound.room, ht.sound.pointer_nonneg, ?_⟩, size ▸ ht.size⟩
    rw [size]
    exact ht.sound.pointer_lt
  | realign =>
    intro t ht
    exact ⟨ht.sound.pointing (Int.le_refl 0) (Int.natCast_pos.mpr ht.sound.size_pos), ht.size⟩
  | snapshot => exact behaves_snapshot.meets _ least

/-! ## What is stored -/

theorem toNat_of_settle? {rule : CellRule} {target : Int} {cell : UInt8}
    (h : CellRule.settle? rule target = some cell) : (cell.toNat : Int) = rule.fit target := by
  cases rule with
  | wrap =>
    rw [settle?_wrap] at h
    cases h
    rw [UInt8.toNat_ofNat', CellRule.fit]
    omega
  | clamp =>
    rw [settle?_clamp] at h
    cases h
    rw [UInt8.toNat_ofNat', CellRule.fit]
    omega
  | refuse =>
    rw [settle?_refuse] at h
    split at h <;> cases h
    rw [UInt8.toNat_ofNat', CellRule.fit]
    omega

/-- What is stored is stored whole: the cell holds the very number that was to be stored, or that
its rule makes of it. -/
structure StoresWhole (t : Tape) : Prop where
  setValueAt : ∀ {address value u}, setValueAt address value t = .ok () u →
    ((u.cellAt address.toNat).toNat : Int) = value
  shift : ∀ {delta u}, shift delta t = .ok () u →
    ((u.cellAt t.pointer.toNat).toNat : Int) =
      t.cellRule.fit ((t.cellAt t.pointer.toNat).toNat + delta)

theorem Sound.storesWhole (h : t.Sound limits) : t.StoresWhole where
  setValueAt {address value u} hu := by
    unfold Tape.setValueAt at hu
    split at hu
    · next hin =>
      split at hu <;> cases hu
      next hbyte =>
        have on : address.toNat < t.cells.size := by
          rw [size] at hin
          omega
        rw [cellAt, Array.getD_eq_getD_getElem?, Array.getElem?_setIfInBounds_self_of_lt on,
          Option.getD_some, UInt8.toNat_ofNat']
        omega
    · cases hu
  shift {delta u} hu := by
    rw [h.shift_eq] at hu
    split at hu <;> cases hu
    next settled => rw [h.cellAt_storing, toNat_of_settle? settled]

/-! ## Any number of calls -/

/-- The tape after the calls. One that fails is passed over. -/
def afterCalls (t : Tape) (calls : List Call) : Tape :=
  calls.foldl (fun t call => call.perform.final t) t

theorem Holds.final {least : Nat} (ht : Holds limits least t) (h : call.Nonneg) :
    Holds limits least (call.perform.final t) :=
  ((perform_holds h least).mono_error fun _ _ he => he.1).final ht

theorem Holds.afterCalls {least : Nat} (ht : Holds limits least t) {calls : List Call}
    (h : ∀ call ∈ calls, call.Nonneg) : Holds limits least (t.afterCalls calls) := by
  induction calls generalizing t with
  | nil => exact ht
  | cons call rest ih =>
    rw [Tape.afterCalls, List.foldl_cons]
    exact ih (ht.final (h call List.mem_cons_self)) fun later hm =>
      h later (List.mem_cons_of_mem call hm)

/-- The tape has a cell, all of its cells hold bytes, and its pointer addresses one of them. -/
structure InShape (t : Tape) : Prop where
  size : 1 ≤ t.size
  cells : ∀ cell ∈ t.cells, cell.toNat ≤ 255
  pointer : 0 ≤ t.pointer ∧ t.pointer < t.size
  current : t.slot? = some t.pointer.toNat
  origin : 0 ≤ (t.origin : Int)

theorem Sound.inShape (h : t.Sound limits) : t.InShape where
  size := h.size_pos
  cells cell _ := Nat.le_of_lt_succ cell.toNat_lt
  pointer := ⟨h.pointer_nonneg, h.pointer_lt⟩
  current := h.slot
  origin := Int.natCast_nonneg t.origin

/-- **A tape keeps its shape.** After any calls whose counts are not negative on a tape as it is
made, it is in shape and stores whole what is stored. One more such call leaves it so, with no fewer
cells, and does not fail for a pointer that addresses no cell. A call that fails leaves the tape as
it was, whatever the tape and the call. -/
theorem calls_keep_shape {start : Tape} (made : start.Made) {calls : List Call}
    (nonneg : ∀ call ∈ calls, call.Nonneg) :
    let t := start.afterCalls calls
    (t.InShape ∧ t.StoresWhole) ∧
    (∀ call : Call, call.Nonneg →
      (call.perform.final t).InShape ∧ t.size ≤ (call.perform.final t).size ∧
        ∀ e u, call.perform t = .error e u → ¬ e.Wild) ∧
    ∀ (t : Tape) (call : Call) e u, call.perform t = .error e u → u = t := by
  intro t
  have sound : t.Sound start.limits :=
    (Holds.afterCalls ⟨made.sound, Nat.le_refl _⟩ nonneg).sound
  refine ⟨⟨sound.inShape, sound.storesWhole⟩, fun call h => ?_, fun t call =>
    failsInPlace_perform call t⟩
  have now : Holds start.limits t.size t := ⟨sound, Nat.le_refl _⟩
  have later := now.final h
  exact ⟨later.sound.inShape, later.size,
    fun e u he => ((perform_holds h t.size).error now he).2⟩

/-- Three cells beyond the first and four beyond the second, with two addresses that are off the
tape and a change that is refused. -/
def wandering : List Call :=
  [.moveLeft 3, .add 5, .moveRight 9, .setValueAt (-1) 7, .moveTo 100, .subtract 1]

theorem calls_keep_shape_wandering :
    (confined 2 .refuse .grow).Made ∧ (∀ call ∈ wandering, call.Nonneg) ∧
    ∃ t, (confined 2 .refuse .grow).afterCalls wandering = t ∧ t.InShape ∧
      t.pointer = 9 ∧ t.origin = 3 ∧ t.size = 10 ∧ t.cellAt 0 = 5 ∧
      (∃ e, (Call.subtract 1).perform t = .error e t ∧ ¬ e.Wild) ∧
      -- A negative count leaves the tape, and the pointer then addresses nothing.
      ∃ e, Call.value.perform (t.pointing 29) = .error e (t.pointing 29) ∧
        (Call.moveLeft (-20)).perform t = .ok .nothing (t.pointing 29) := by
  have made : (confined 2 .refuse .grow).Made := @made_of_make _ 2 "fail" "append" rfl
  have nonneg : ∀ call ∈ wandering, call.Nonneg := by decide
  obtain ⟨⟨shape, -⟩, step, fails⟩ := calls_keep_shape made nonneg
  have refused : ∃ e u, (Call.subtract 1).perform
      ((confined 2 .refuse .grow).afterCalls wandering) = .error e u := ⟨_, _, rfl⟩
  obtain ⟨e, u, he⟩ := refused
  have tame := (step (.subtract 1) (by decide)).2.2 e u he
  rw [fails _ _ e u he] at he
  exact ⟨made, nonneg, _, rfl, shape, by decide, by decide, by decide, by decide, ⟨e, he, tame⟩,
    _, rfl, rfl⟩

end Tape

end NamedTape
