import NamedTape.Proofs.SoundTape

/-!
# Places

The place of a cell is its address less the number of cells that were added before the first one. A
cell keeps its place when the tape grows, at whichever end, so that a tape can be read as a row of
cells without ends in which the places off the tape hold zero.
-/

namespace NamedTape.Tape

variable {limits : Limits} (t : Tape)

/-- The cell at a place, which reads zero off the tape. -/
def atPlace (place : Int) : UInt8 :=
  if 0 ≤ place + t.origin then t.cellAt (place + t.origin).toNat else 0

/-- The place of the current cell. -/
def place : Int := t.pointer - t.origin

theorem cellAt_of_size_le {address : Nat} (h : t.size ≤ address) : t.cellAt address = 0 := by
  rw [cellAt, Array.getD_eq_getD_getElem?, Array.getElem?_eq_none h, Option.getD_none]

/-- An address and the place it stands for hold the same cell. -/
theorem atPlace_of_address (address : Nat) :
    t.atPlace (address - t.origin) = t.cellAt address := by
  have sum : (address : Int) - t.origin + t.origin = address := by omega
  rw [atPlace, sum, if_pos (by omega), Int.toNat_natCast]

theorem atPlace_off {place : Int} (h : place + t.origin < 0 ∨ t.size ≤ place + t.origin) :
    t.atPlace place = 0 := by
  unfold atPlace
  split
  · exact t.cellAt_of_size_le (by omega)
  · rfl

theorem cellAt_clear (address : Nat) : t.clear.realign.cellAt address = 0 := by
  simp only [cellAt, clear, realign, Array.getD_eq_getD_getElem?, Array.getElem?_replicate]
  split <;> rfl

theorem atPlace_clear (place : Int) : t.clear.realign.atPlace place = 0 := by
  unfold atPlace
  split
  · exact t.cellAt_clear _
  · rfl

/-! ## Changes of a tape -/

section changes

variable (pointer place : Int) (missing crossed : Nat)

theorem atPlace_pointing : (t.pointing pointer).atPlace place = t.atPlace place := rfl

theorem atPlace_grownRight : (t.grownRight missing pointer).atPlace place = t.atPlace place := by
  have same : ∀ address, (t.grownRight missing pointer).cellAt address = t.cellAt address := by
    intro address
    simp only [cellAt, grownRight, Array.getD_eq_getD_getElem?, Array.getElem?_append,
      Array.getElem?_replicate]
    split
    · rfl
    · rw [Array.getElem?_eq_none (by omega)]
      split <;> rfl
  have origin : (t.grownRight missing pointer).origin = t.origin := rfl
  rw [atPlace, atPlace, same, origin]

theorem cellAt_grownLeft (address : Nat) :
    (t.grownLeft crossed pointer).cellAt address =
      if address < crossed then 0 else t.cellAt (address - crossed) := by
  simp only [cellAt, grownLeft, Array.getD_eq_getD_getElem?, Array.getElem?_append,
    Array.getElem?_replicate, Array.size_replicate]
  split <;> rfl

theorem atPlace_grownLeft : (t.grownLeft crossed pointer).atPlace place = t.atPlace place := by
  rw [atPlace, atPlace, grownLeft_origin, cellAt_grownLeft]
  by_cases hon : 0 ≤ place + t.origin
  · -- The place was on the tape before, or beyond its end: its address has moved up.
    have address : (place + (t.origin + crossed : Nat)).toNat - crossed =
        (place + t.origin).toNat := by omega
    rw [if_pos hon, if_pos (by omega), if_neg (by omega), address]
  · -- The place is new, or still before the first cell.
    rw [if_neg hon]
    by_cases hnew : 0 ≤ place + (t.origin + crossed : Nat)
    · rw [if_pos hnew, if_pos (by omega)]
    · rw [if_neg hnew]

end changes

section sound

variable {t} (h : t.Sound limits)
include h

theorem Sound.atPlace_place : t.atPlace t.place = t.cellAt t.pointer.toNat := by
  have hnonneg := h.pointer_nonneg
  have address : t.place = (t.pointer.toNat : Int) - t.origin := by
    rw [place]
    omega
  rw [address, atPlace_of_address]

/-- A value that is stored changes one place. -/
theorem Sound.atPlace_storing (cell : UInt8) (place : Int) :
    (t.storing cell).atPlace place = if place = t.place then cell else t.atPlace place := by
  have hnonneg := h.pointer_nonneg
  have origin : (t.storing cell).origin = t.origin := rfl
  have address : (place + t.origin).toNat = t.pointer.toNat ∧ 0 ≤ place + t.origin ↔
      place = t.place := by
    rw [Tape.place]
    omega
  rw [atPlace, atPlace, origin, Tape.cellAt_storing cell hnonneg h.pointer_lt]
  grind

end sound

end NamedTape.Tape
