import NamedTape.Instruction
import NamedTape.Proofs.Places

/-!
# Tapes without ends

A tape that grows is a piece of a tape without ends (`grows_as_strip`).

* A `Strip` has a cell for every integer, and a position, of which it remembers how far it has been
  to either side. A `Turn` is a change of the current cell or a move, with a count.
* The tape is the piece from the least position on that is long enough for the cells it started with
  and for the greatest position; it reads as the strip does, and off the tape the strip holds zero.
* A change fails where it fails on the strip. A move never fails, unless the machine has no room for
  the piece that it needs; then it is as if the move had not been made.
-/

namespace NamedTape

/-- A tape without ends, and how far its pointer has been. -/
structure Strip where
  cells : Int → UInt8 := fun _ => 0
  position : Int := 0
  /-- The least position so far. -/
  least : Int := 0
  /-- The greatest position so far. -/
  greatest : Int := 0

namespace Strip

/-- The strip with another value in its current cell. -/
def storing (s : Strip) (cell : UInt8) : Strip :=
  { s with cells := fun place => if place = s.position then cell else s.cells place }

/-- The strip with its pointer so much farther to the right. -/
def moved (s : Strip) (distance : Int) : Strip :=
  { s with
    position := s.position + distance
    least := min s.least (s.position + distance)
    greatest := max s.greatest (s.position + distance) }

/-- How many cells there are from the least position on to the greatest, and to the last of those
that the strip started with, if it did so with `start` of them. -/
def extent (start : Nat) (s : Strip) : Nat :=
  (-s.least).toNat + max start (1 + s.greatest).toNat

/-- Changes the current cell by `delta`, if the rule allows it. -/
def shift? (rule : CellRule) (delta : Int) (s : Strip) : Option Strip :=
  (Tape.CellRule.settle? rule ((s.cells s.position).toNat + delta)).map s.storing

/-- Moves the pointer, if there is room for the cells from then on. -/
def move? (limits : Limits) (start : Nat) (distance : Int) (s : Strip) : Option Strip :=
  if limits.hasRoom ((s.moved distance).extent start) then some (s.moved distance) else none

end Strip

/-- A change of the current cell or a move, by a count. -/
structure Turn where
  kind : Counted
  count : Nat
deriving DecidableEq, Repr

namespace Turn

/-- Carries out a turn on a tape. -/
def onTape (turn : Turn) : Action Tape Unit :=
  match turn.kind with
  | .add => Tape.add turn.count
  | .subtract => Tape.subtract turn.count
  | .left => Tape.moveLeft turn.count
  | .right => Tape.moveRight turn.count

/-- Carries out a turn on a strip, of which the cells have the rule. The strip started with `start`
cells on a machine with the limits. -/
def onStrip? (limits : Limits) (start : Nat) (rule : CellRule) (turn : Turn) (s : Strip) :
    Option Strip :=
  match turn.kind with
  | .add => s.shift? rule turn.count
  | .subtract => s.shift? rule (-turn.count)
  | .left => s.move? limits start (-turn.count)
  | .right => s.move? limits start turn.count

end Turn

/-- The tape after the turns. One that fails is passed over. -/
def Tape.afterTurns (t : Tape) (turns : List Turn) : Tape :=
  turns.foldl (fun t turn => turn.onTape.final t) t

/-- The strip after the turns. One that fails is passed over. -/
def Strip.afterTurns (limits : Limits) (start : Nat) (rule : CellRule) (s : Strip)
    (turns : List Turn) : Strip :=
  turns.foldl (fun s turn => (turn.onStrip? limits start rule s).getD s) s

/-- The tape is a piece of the strip, from the least position on. -/
structure Strip.Covers (start : Nat) (t : Tape) (s : Strip) : Prop where
  pointer : t.pointer = s.position + t.origin
  origin : (t.origin : Int) = max 0 (-s.least)
  size : (t.size : Int) = t.origin + max (start : Int) (1 + s.greatest)
  cells : ∀ address : Nat, address < t.size → t.cellAt address = s.cells (address - t.origin)
  blank : ∀ place : Int, place + t.origin < 0 ∨ t.size ≤ place + t.origin → s.cells place = 0

namespace Strip

variable {limits : Limits} {start : Nat} {rule : CellRule} {t : Tape} {s : Strip}

/-! ## One turn -/

/-- The tape is the piece of the strip that is needed by now, on a machine with the limits. -/
structure Follows (limits : Limits) (start : Nat) (rule : CellRule) (t : Tape) (s : Strip) :
    Prop where
  sound : t.Sound limits
  edgeRule : t.edgeRule = .grow
  cellRule : t.cellRule = rule
  place : s.position = t.place
  cells : ∀ place, s.cells place = t.atPlace place
  origin : (t.origin : Int) = -s.least
  size : t.size = s.extent start
  least : s.least ≤ s.position ∧ s.least ≤ 0
  greatest : s.position ≤ s.greatest ∧ 0 ≤ s.greatest

theorem Follows.covers (h : Follows limits start rule t s) : Covers start t s := by
  have horigin := h.origin
  have hsize := h.size
  have hgreatest := h.greatest
  rw [extent] at hsize
  refine ⟨?_, by omega, by omega, fun address _ => ?_, fun place hoff => ?_⟩
  · rw [h.place, Tape.place]
    omega
  · rw [h.cells, t.atPlace_of_address]
  · rw [h.cells, t.atPlace_off hoff]

theorem follows_clear (hroom : t.limits.hasRoom t.size = true) (hgrow : t.edgeRule = .grow)
    (hsize : 0 < t.size) :
    Follows t.limits t.size t.cellRule t.clear.realign {} := by
  have size : t.clear.realign.size = t.size := Array.size_replicate
  refine ⟨Tape.sound_clear hsize hroom, hgrow, rfl, rfl, ?_, rfl, ?_, by decide, by decide⟩
  · intro place
    exact (t.atPlace_clear place).symm
  · rw [size, extent]
    dsimp only
    omega

/-- A change of the current cell takes tape and strip along, or fails on both. -/
theorem Follows.shift (h : Follows limits start rule t s) (delta : Int) :
    match s.shift? rule delta with
    | some s' => ∃ t', Tape.shift delta t = .ok () t' ∧ Follows limits start rule t' s'
    | none => ∃ e, Tape.shift delta t = .error e t := by
  have current : s.cells s.position = t.cellAt t.pointer.toNat := by
    rw [h.cells, h.place, h.sound.atPlace_place]
  rw [shift?, h.sound.shift_eq, h.cellRule, current]
  cases Tape.CellRule.settle? rule ((t.cellAt t.pointer.toNat).toNat + delta) with
  | none => exact ⟨_, rfl⟩
  | some cell =>
    refine ⟨_, rfl, h.sound.storing cell, h.edgeRule, h.cellRule, h.place, ?_, h.origin, ?_,
      h.least, h.greatest⟩
    · intro place
      rw [h.sound.atPlace_storing, ← h.place, ← h.cells]
      rfl
    · rw [Tape.storing_size]
      exact h.size

/-- A move to the right takes tape and strip along, if there is room. -/
theorem Follows.moveRight (h : Follows limits start rule t s) (count : Nat) :
    match s.move? limits start count with
    | some s' => ∃ t', Tape.moveRight count t = .ok () t' ∧ Follows limits start rule t' s'
    | none => ∃ e, Tape.moveRight count t = .error e t := by
  have hplace := h.place
  have horigin := h.origin
  have hsize := h.size
  have hleast := h.least
  have hgreatest := h.greatest
  have hpointer := h.sound.pointer_nonneg
  rw [Tape.place] at hplace
  have least_eq : min s.least (s.position + count) = s.least := by omega
  have extent_eq : (s.moved count).extent start =
      t.size + ((t.pointer + count + 1).toNat - t.size) := by
    rw [hsize]
    simp only [extent, moved, least_eq]
    omega
  rw [move?, h.sound.moveRight_eq (by omega), h.edgeRule, extent_eq]
  dsimp only
  by_cases hroom : limits.hasRoom (t.size + ((t.pointer + count + 1).toNat - t.size)) = true
  · rw [if_pos hroom, if_pos hroom]
    refine ⟨_, rfl, h.sound.grownRight _ (by omega) (by omega) hroom, h.edgeRule, h.cellRule, ?_,
      ?_, ?_, ?_, ?_, ?_⟩
    · simp only [moved, Tape.place, Tape.grownRight]
      omega
    · intro place
      rw [t.atPlace_grownRight]
      exact h.cells place
    · simp only [moved, Tape.grownRight]
      omega
    · rw [Tape.grownRight_size]
      exact extent_eq.symm
    · simp only [moved]
      omega
    · simp only [moved]
      omega
  · rw [if_neg hroom, if_neg hroom]
    exact ⟨_, rfl⟩

/-- A move to the left takes tape and strip along, if there is room. -/
theorem Follows.moveLeft (h : Follows limits start rule t s) (count : Nat) :
    match s.move? limits start (-count) with
    | some s' => ∃ t', Tape.moveLeft count t = .ok () t' ∧ Follows limits start rule t' s'
    | none => ∃ e, Tape.moveLeft count t = .error e t := by
  have hplace := h.place
  have horigin := h.origin
  have hsize := h.size
  have hleast := h.least
  have hgreatest := h.greatest
  have hpointer := h.sound.pointer_nonneg
  have hlt := h.sound.pointer_lt
  rw [Tape.place] at hplace
  have greatest_eq : max s.greatest (s.position + -count) = s.greatest := by omega
  have extent_eq : (s.moved (-count)).extent start =
      t.size + ((count : Int) - t.pointer).toNat := by
    rw [hsize]
    simp only [extent, moved, greatest_eq]
    omega
  rw [move?, h.sound.moveLeft_eq (by omega), h.edgeRule, extent_eq]
  dsimp only
  by_cases hroom : limits.hasRoom (t.size + ((count : Int) - t.pointer).toNat) = true
  · rw [if_pos hroom, if_pos hroom]
    refine ⟨_, rfl, h.sound.grownLeft _ (by omega) (by omega) hroom, h.edgeRule, h.cellRule, ?_,
      ?_, ?_, ?_, ?_, ?_⟩
    · simp only [moved, Tape.place, Tape.grownLeft]
      omega
    · intro place
      rw [t.atPlace_grownLeft]
      exact h.cells place
    · simp only [moved, Tape.grownLeft]
      omega
    · rw [Tape.grownLeft_size]
      exact extent_eq.symm
    · simp only [moved]
      omega
    · simp only [moved]
      omega
  · rw [if_neg hroom, if_neg hroom]
    exact ⟨_, rfl⟩

/-- A turn takes tape and strip along, or fails on both and leaves the tape as it was. -/
theorem Follows.turn (h : Follows limits start rule t s) (turn : Turn) :
    match turn.onStrip? limits start rule s with
    | some s' => ∃ t', turn.onTape t = .ok () t' ∧ Follows limits start rule t' s'
    | none => ∃ e, turn.onTape t = .error e t := by
  obtain ⟨kind, count⟩ := turn
  cases kind with
  | add => exact h.shift count
  | subtract => exact h.shift (-count)
  | left => exact h.moveLeft count
  | right => exact h.moveRight count

/-- A turn fails on the tape just if it fails on the strip. -/
theorem Follows.turn_fails_iff (h : Follows limits start rule t s) (turn : Turn) :
    (∃ e u, turn.onTape t = .error e u) ↔ turn.onStrip? limits start rule s = none := by
  have step := h.turn turn
  cases hs : turn.onStrip? limits start rule s with
  | some s' =>
    rw [hs] at step
    obtain ⟨t', ht, -⟩ := step
    simp [ht]
  | none =>
    rw [hs] at step
    obtain ⟨e, ht⟩ := step
    simp [ht]

/-- A turn that fails leaves the tape as it was. -/
theorem Follows.eq_of_turn_error (h : Follows limits start rule t s) {turn : Turn} {e : Raised}
    {u : Tape} (he : turn.onTape t = .error e u) : u = t := by
  have step := h.turn turn
  rw [(h.turn_fails_iff turn).mp ⟨e, u, he⟩] at step
  obtain ⟨e', ht⟩ := step
  cases ht.symm.trans he
  rfl

/-! ## Any number of turns -/

/-- Whatever turns are made, the tape is the piece of the strip that is needed by then. -/
theorem Follows.afterTurns (h : Follows limits start rule t s) (turns : List Turn) :
    Follows limits start rule (t.afterTurns turns) (s.afterTurns limits start rule turns) := by
  induction turns generalizing t s with
  | nil => exact h
  | cons turn rest ih =>
    have step := h.turn turn
    rw [Tape.afterTurns, Strip.afterTurns, List.foldl_cons, List.foldl_cons]
    cases hs : turn.onStrip? limits start rule s with
    | some s' =>
      rw [hs] at step
      obtain ⟨t', ht, follows⟩ := step
      rw [Action.final_of_ok ht]
      exact ih follows
    | none =>
      rw [hs] at step
      obtain ⟨e, ht⟩ := step
      rw [Action.final_of_error ht]
      exact ih h

end Strip

namespace Tape

/-- **A tape that grows is a tape without ends.** After any turns on a blank tape,

* it is a piece of the strip on which the same turns have been made;
* a turn that comes next fails just if it fails on the strip, and then changes nothing;
* on a machine without limits, a turn that is a move does not fail. -/
theorem grows_as_strip {t : Tape} (hgrow : t.edgeRule = .grow) (hsize : 0 < t.size)
    (hroom : t.limits.hasRoom t.size = true) (turns : List Turn) :
    let t' := t.clear.realign.afterTurns turns
    let s' := Strip.afterTurns t.limits t.size t.cellRule {} turns
    Strip.Covers t.size t' s' ∧
    (∀ turn : Turn, (∃ e u, turn.onTape t' = .error e u) ↔
      turn.onStrip? t.limits t.size t.cellRule s' = none) ∧
    (∀ turn : Turn, ∀ e u, turn.onTape t' = .error e u → u = t') ∧
    (t.limits = {} → ∀ count : Nat,
      (∃ u, moveLeft count t' = .ok () u) ∧ ∃ u, moveRight count t' = .ok () u) := by
  intro t' s'
  have follows : Strip.Follows t.limits t.size t.cellRule t' s' :=
    (Strip.follows_clear hroom hgrow hsize).afterTurns turns
  refine ⟨follows.covers, follows.turn_fails_iff, fun turn e u he => follows.eq_of_turn_error he,
    fun unlimited count => ?_⟩
  have room : ∀ distance, s'.move? t.limits t.size distance = some (s'.moved distance) := by
    intro distance
    rw [Strip.move?, unlimited]
    rfl
  have left := follows.moveLeft count
  have right := follows.moveRight count
  rw [room] at left right
  obtain ⟨u, hu, -⟩ := left
  obtain ⟨v, hv, -⟩ := right
  exact ⟨⟨u, hu⟩, v, hv⟩

/-- Three cells beyond the first, four beyond the second, and one less than zero at the end. -/
def crossings : List Turn := [⟨.left, 3⟩, ⟨.add, 5⟩, ⟨.right, 9⟩, ⟨.subtract, 1⟩]

theorem grows_as_strip_crossings :
    (confined 2 .refuse .grow).edgeRule = .grow ∧ 0 < (confined 2 .refuse .grow).size ∧
    (confined 2 .refuse .grow).limits.hasRoom (confined 2 .refuse .grow).size = true ∧
    (∃ t, (confined 2 .refuse .grow).clear.realign.afterTurns crossings = t ∧
      Strip.Covers 2 t (Strip.afterTurns .standard 2 .refuse {} crossings) ∧
      t.pointer = 9 ∧ t.origin = 3 ∧ t.size = 10 ∧ t.cellAt 0 = 5 ∧
      ∃ e, Turn.onTape ⟨.subtract, 1⟩ t = .error e t) := by
  have room : (confined 2 .refuse .grow).limits.hasRoom (confined 2 .refuse .grow).size = true := by
    decide
  obtain ⟨covers, fails, keeps, -⟩ :=
    grows_as_strip (t := confined 2 .refuse .grow) rfl (by decide) room crossings
  obtain ⟨e, u, he⟩ := (fails ⟨.subtract, 1⟩).mpr rfl
  rw [keeps _ e u he] at he
  exact ⟨rfl, by decide, room, _, rfl, covers, by decide, by decide, by decide, by decide, e, he⟩

/-- A move can ask for more cells than a machine has room for. -/
theorem moveRight_without_room :
    (confined 1 .wrap .grow).edgeRule = .grow ∧ 0 < (confined 1 .wrap .grow).size ∧
    ∃ e, moveRight 100000000000000000000 (confined 1 .wrap .grow).clear.realign =
      .error e (confined 1 .wrap .grow).clear.realign :=
  ⟨rfl, by decide, full 100000000000000000000, rfl⟩

end Tape

end NamedTape
