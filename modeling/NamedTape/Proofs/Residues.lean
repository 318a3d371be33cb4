import NamedTape.Proofs.Joining
import NamedTape.Proofs.Strip
import Mathlib.Data.Int.ModEq

/-!
# Tapes that wrap

A tape whose rules both wrap counts with remainders (`wraps_to_remainders`).

* The position is how far the turns have gone to the right. The pointer is its remainder modulo the
  size of the tape.
* A cell is the remainder, modulo 256, of what the turns add that are made where the position is
  congruent to its address.
* No turn fails, whatever its count, and the tape keeps its size.
-/

namespace NamedTape

namespace Turn

/-- The sum of the counts of the turns of a kind. -/
def total (kind : Counted) (turns : List Turn) : Nat :=
  ((turns.filter (·.kind = kind)).map (·.count)).sum

/-- How far the turns go to the right. -/
def travel (turns : List Turn) : Int := (total .right turns : Int) - total .left turns

/-- How much the turns add. -/
def gain (turns : List Turn) : Int := (total .add turns : Int) - total .subtract turns

/-- Of the turns from a position on, those that are made where the position is congruent to the
address. -/
def madeAt (size address : Nat) (position : Int) : List Turn → List Turn
  | [] => []
  | turn :: rest =>
    if position ≡ address [ZMOD size] then
      turn :: madeAt size address (position + travel [turn]) rest
    else madeAt size address (position + travel [turn]) rest

theorem total_cons (kind : Counted) (turn : Turn) (rest : List Turn) :
    total kind (turn :: rest) = total kind [turn] + total kind rest := by
  simp only [total, List.filter_cons]
  split <;> simp

theorem travel_cons (turn : Turn) (rest : List Turn) :
    travel (turn :: rest) = travel [turn] + travel rest := by
  simp only [travel, total_cons _ turn rest]
  omega

theorem gain_cons (turn : Turn) (rest : List Turn) :
    gain (turn :: rest) = gain [turn] + gain rest := by
  simp only [gain, total_cons _ turn rest]
  omega

/-- What a turn adds to the cell at the address, if it is made at the position. -/
theorem gain_madeAt_cons (size address : Nat) (position : Int) (turn : Turn) (rest : List Turn) :
    gain (madeAt size address position (turn :: rest)) =
      (if position ≡ address [ZMOD size] then gain [turn] else 0) +
        gain (madeAt size address (position + travel [turn]) rest) := by
  rw [madeAt]
  split
  · exact gain_cons turn _
  · exact (Int.zero_add _).symm

end Turn

namespace Tape

variable {size : Nat} {position : Int} {balance : Nat → Int} {t : Tape}

/-! ## One turn -/

/-- A cell that wraps takes the remainder of any sum. -/
theorem shift_wrap (hcell : t.cellRule = .wrap) (hnonneg : 0 ≤ t.pointer) (hlt : t.pointer < t.size)
    (delta : Int) :
    shift delta t = .ok ()
      (t.storing (.ofNat (((t.cellAt t.pointer.toNat).toNat + delta) % 256).toNat)) := by
  have hslot : t.slot? = some t.pointer.toNat := by
    rw [slot?, if_pos hnonneg, if_pos hlt]
  unfold shift
  rw [hslot]
  dsimp only
  rw [hcell, settle?_wrap, ← hcell]
  rfl

/-- The tape has so many cells and rules that wrap. Its pointer is the remainder of the position,
and its cells are the remainders of the balances. -/
structure Reduces (size : Nat) (position : Int) (balance : Nat → Int) (t : Tape) : Prop where
  cellRule : t.cellRule = .wrap
  edgeRule : t.edgeRule = .wrap
  size_eq : t.size = size
  pointer : t.pointer = position % size
  cells : ∀ address < size, ((t.cellAt address).toNat : Int) = balance address % 256

theorem reduces_clear (hcell : t.cellRule = .wrap) (hedge : t.edgeRule = .wrap) :
    Reduces t.size 0 (fun _ => 0) t.clear.realign where
  cellRule := hcell
  edgeRule := hedge
  size_eq := Array.size_replicate
  pointer := rfl
  cells address _ := by rw [cellAt_clear]; rfl

theorem Reduces.pointer_mem (h : Reduces size position balance t) (hsize : 0 < size) :
    0 ≤ t.pointer ∧ t.pointer < t.size := by
  rw [h.pointer, h.size_eq]
  exact ⟨Int.emod_nonneg _ (by omega), Int.emod_lt_of_pos _ (by omega)⟩

/-- The current cell is the one whose address is congruent to the position. -/
theorem Reduces.current_iff (h : Reduces size position balance t) (hsize : 0 < size)
    {address : Nat} (ha : address < size) :
    address = t.pointer.toNat ↔ position ≡ address [ZMOD size] := by
  obtain ⟨hnonneg, -⟩ := h.pointer_mem hsize
  have hself : (address : Int) % size = address := Int.emod_eq_of_lt (by omega) (by omega)
  rw [Int.ModEq, hself, ← h.pointer]
  omega

/-- A change of the current cell is a change of the balance of one address. -/
theorem Reduces.shift (h : Reduces size position balance t) (hsize : 0 < size) (delta : Int) :
    ∃ u, Tape.shift delta t = .ok () u ∧
      Reduces size position
        (fun address => balance address + if position ≡ address [ZMOD size] then delta else 0)
        u := by
  obtain ⟨hnonneg, hlt⟩ := h.pointer_mem hsize
  refine ⟨_, shift_wrap h.cellRule hnonneg hlt delta, h.cellRule, h.edgeRule, ?_, h.pointer, ?_⟩
  · rw [storing_size, h.size_eq]
  · intro address ha
    have before := h.cells address ha
    have current := h.current_iff hsize ha
    rw [cellAt_storing _ hnonneg hlt]
    by_cases hat : address = t.pointer.toNat
    · rw [if_pos hat, if_pos (current.mp hat), ← hat, UInt8.toNat_ofNat']
      omega
    · rw [if_neg hat, if_neg (mt current.mpr hat), before, Int.add_zero]

/-- A move of the pointer is a move of the position. -/
theorem Reduces.pointing (h : Reduces size position balance t) {target : Int} (distance : Int)
    (htarget : target = (t.pointer + distance) % t.size) :
    Reduces size (position + distance) balance (t.pointing target) where
  cellRule := h.cellRule
  edgeRule := h.edgeRule
  size_eq := h.size_eq
  pointer := by
    rw [pointing_pointer, htarget, h.pointer, h.size_eq, Int.emod_add_emod]
  cells := h.cells

/-- A turn does not fail. It moves the position, or changes the balance of the addresses that the
position is congruent to. -/
theorem Reduces.turn (h : Reduces size position balance t) (hsize : 0 < size) (turn : Turn) :
    ∃ u, turn.onTape t = .ok () u ∧
      Reduces size (position + Turn.travel [turn])
        (fun address => balance address +
          if position ≡ address [ZMOD size] then Turn.gain [turn] else 0) u := by
  obtain ⟨hnonneg, hlt⟩ := h.pointer_mem hsize
  obtain ⟨kind, count⟩ := turn
  cases kind with
  | add => simpa [Turn.travel, Turn.gain, Turn.total, Turn.onTape, add] using h.shift hsize count
  | subtract =>
    simpa [Turn.travel, Turn.gain, Turn.total, Turn.onTape, subtract] using h.shift hsize (-count)
  | left =>
    have target : (t.pointer - count) % t.size = (t.pointer + -count) % t.size := by
      rw [Int.sub_eq_add_neg]
    refine ⟨_, moveLeft_wrap h.edgeRule (by omega), ?_⟩
    simpa [Turn.travel, Turn.gain, Turn.total] using h.pointing (-count) target
  | right =>
    refine ⟨_, moveRight_wrap h.edgeRule (by omega), ?_⟩
    simpa [Turn.travel, Turn.gain, Turn.total] using h.pointing count rfl

/-! ## Any number of turns -/

/-- Any turns can be made one after another. -/
theorem Reduces.forM (h : Reduces size position balance t) (hsize : 0 < size)
    (turns : List Turn) :
    ∃ u, turns.forM Turn.onTape t = .ok () u ∧
      Reduces size (position + Turn.travel turns)
        (fun address => balance address + Turn.gain (Turn.madeAt size address position turns))
        u := by
  induction turns generalizing t position balance with
  | nil => exact ⟨t, rfl, by simpa [Turn.travel, Turn.gain, Turn.total, Turn.madeAt] using h⟩
  | cons turn rest ih =>
    obtain ⟨u, hturn, hu⟩ := h.turn hsize turn
    obtain ⟨v, hrest, hv⟩ := ih hu
    refine ⟨v, ?_, ?_⟩
    · exact (Action.bind_of_ok hturn _).trans hrest
    · simpa only [Turn.travel_cons turn rest, Turn.gain_madeAt_cons, Int.add_assoc] using hv

/-- **A tape that wraps counts with remainders.** Any turns on such a tape, once it is blank, can be
made one after another.

* They leave the size as it was, and the pointer at the remainder of how far they go to the right.
* A cell then holds the remainder of what has been added to it less what has been subtracted, by
  those of the turns that were made where the position was congruent to its address. -/
theorem wraps_to_remainders (hcell : t.cellRule = .wrap) (hedge : t.edgeRule = .wrap)
    (hsize : 0 < t.size) (turns : List Turn) :
    ∃ u, turns.forM Turn.onTape t.clear.realign = .ok () u ∧ u.size = t.size ∧
      u.pointer = ((Turn.total .right turns : Int) - Turn.total .left turns) % t.size ∧
      ∀ address < t.size, ((u.cellAt address).toNat : Int) =
        ((Turn.total .add (Turn.madeAt t.size address 0 turns) : Int) -
          Turn.total .subtract (Turn.madeAt t.size address 0 turns)) % 256 := by
  obtain ⟨u, hturns, hu⟩ := (reduces_clear hcell hedge).forM hsize turns
  refine ⟨u, hturns, hu.size_eq, ?_, fun address ha => ?_⟩
  · rw [hu.pointer, Int.zero_add, Turn.travel]
  · rw [hu.cells address ha, Int.zero_add, Turn.gain]

/-- On three cells: more than a cell holds, two rounds and a step to the left, one less than zero,
all the way back, and a count that no word of a machine holds. -/
def rounds : List Turn :=
  [⟨.add, 300⟩, ⟨.left, 7⟩, ⟨.subtract, 1⟩, ⟨.right, 10⟩, ⟨.add, 100000000000000000001⟩]

theorem wraps_to_remainders_rounds :
    (confined 3 .wrap .wrap).cellRule = .wrap ∧ (confined 3 .wrap .wrap).edgeRule = .wrap ∧
    0 < (confined 3 .wrap .wrap).size ∧
    ∃ u, rounds.forM Turn.onTape (confined 3 .wrap .wrap).clear.realign = .ok () u ∧
      u.size = 3 ∧ u.pointer = 0 ∧ u.cellAt 0 = 45 ∧ u.cellAt 1 = 0 ∧ u.cellAt 2 = 255 := by
  have hsize : 0 < (confined 3 .wrap .wrap).size := by decide
  obtain ⟨u, hturns, size, pointer, cells⟩ := wraps_to_remainders rfl rfl hsize rounds
  have first := cells 0 (by decide)
  have second := cells 1 (by decide)
  have third := cells 2 (by decide)
  refine ⟨rfl, rfl, hsize, u, hturns, size, pointer.trans (by decide), ?_, ?_, ?_⟩
  · exact UInt8.toNat_inj.mp (by rw [← Int.natCast_inj, first]; decide)
  · exact UInt8.toNat_inj.mp (by rw [← Int.natCast_inj, second]; decide)
  · exact UInt8.toNat_inj.mp (by rw [← Int.natCast_inj, third]; decide)

end Tape

end NamedTape
