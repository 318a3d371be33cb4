import NamedTape.Proofs.Anchors
import NamedTape.Proofs.Points
import NamedTape.Proofs.Written

/-!
# Names stay with their cells

From the point of a run at which a name is bound, it stays bound to the same cell: its address keeps
its distance from the origin of the tape, however the tape grows (`names_stay`). The bindings give
different cells of the tape to different names throughout.
-/

namespace NamedTape

open Instruction (EachLeaf)

namespace Store

variable {σ : Type}

theorem anchors_refl (s : Store σ) : s.Anchors s := s.calm_refl.anchors

section chain

variable {f : Nat → Store σ} (h : ∀ n, (f n).Anchors (f (n + 1)))
include h

theorem placeOf?_chain {name : String} {place : Int} {n : Nat}
    (hn : (f n).placeOf? name = some place) (k : Nat) : (f (n + k)).placeOf? name = some place := by
  induction k with
  | zero => exact hn
  | succ k ih => exact (h (n + k)).names name place ih

/-- A cell holds what it held for as long as it is not the current one. -/
theorem atPlace_chain {place : Int} {n k : Nat}
    (haway : ∀ j, j < k → place ≠ (f (n + j)).tape.place) :
    (f (n + k)).tape.atPlace place = (f n).tape.atPlace place := by
  induction k with
  | zero => rfl
  | succ k ih =>
    have last := (h (n + k)).cells place (haway k (Nat.lt_succ_self k))
    rw [← Nat.add_assoc, last]
    exact ih fun j hj => haway j (Nat.lt_succ_of_lt hj)

end chain

end Store

namespace Session

variable {σ : Type} {s : Session σ} {program : Program}

section sound

variable (aliases : Option AliasTable) (hooks : s.hooks = {}) (hsize : 0 < s.store.tape.size)
  (hroom : s.store.tape.limits.hasRoom s.store.tape.size = true)
include hooks hsize hroom

theorem storeAt_zero_sound : (storeAt program aliases s 0).Sound s.store.tape.limits := by
  have begun : (s.begin program aliases).store.Sound s.store.tape.limits :=
    ⟨Tape.sound_clear hsize hroom, AliasTable.fits_clear _ _⟩
  have assigned : Action.Keeps (Store.Sound (σ := σ) s.store.tape.limits)
      (if s.options.preallocate then Store.onAliases AliasTable.assignAll else pure ()) := by
    split
    · exact Store.onAliases_keeps AliasTable.assignAll_keeps
    · exact .pure fun _ h => h
  rw [storeAt_eq aliases hooks]
  cases ho : opening program aliases s with
  | ok a store =>
    unfold opening at ho
    exact assigned.ok begun ho
  | error e store =>
    unfold opening at ho
    exact assigned.error begun ho

theorem storeAt_sound (hp : EachLeaf Operation.Nonneg program.instructions) (n : Nat) :
    (storeAt program aliases s n).Sound s.store.tape.limits :=
  storeAt_keeps aliases hooks hp trivial (storeAt_zero_sound aliases hooks hsize hroom)
    (fun _ ho => Store.perform_keeps _ ho) n

theorem storeAt_anchors (hp : EachLeaf Operation.Nonneg program.instructions) (n : Nat) :
    (storeAt program aliases s n).Anchors (storeAt program aliases s (n + 1)) := by
  rcases storeAt_succ aliases hooks hp trivial n with same | ⟨operation, -, worked⟩
  · rw [same]
    exact Store.anchors_refl _
  · rw [worked]
    exact Store.perform_anchors (storeAt_sound aliases hooks hsize hroom hp n).tape _ operation

end sound

theorem nonneg_of_read {options : Options} {source filename : String}
    (h : options.read source filename = .ok program) :
    EachLeaf Operation.Nonneg program.instructions := by
  refine (proper_of_read h).mono ?_
  rintro operation ⟨known, -⟩
  cases operation with
  | counted kind count => exact known
  | input | output | goto | blank => trivial

/-- **Names stay with their cells.** Whatever program a text writes, whether its runs are merged or
not, at any point of its run in a session without hooks:

* every name that is bound has an address on the tape, and no other name has it;
* at every later point the name is bound as far from the origin, and a goto of it goes there;
* the cell there holds what it held, unless it was the current one at a point in between. -/
theorem names_stay (hooks : s.hooks = {}) (hsize : 0 < s.store.tape.size)
    (hroom : s.store.tape.limits.hasRoom s.store.tape.size = true) {options : Options}
    {source filename : String} (hr : options.read source filename = .ok program)
    (aliases : Option AliasTable) (n k : Nat) {name : String} {address : Int}
    (hname : (storeAt program aliases s n).aliases.resolve? name = some address) :
    let before := storeAt program aliases s n
    let after := storeAt program aliases s (n + k)
    (0 ≤ address ∧ address < before.tape.size) ∧
    (∀ other, before.aliases.resolve? other = some address → other = name) ∧
    ∃ later, after.aliases.resolve? name = some later ∧
      later - after.tape.origin = address - before.tape.origin ∧
      (∀ preallocated, Store.perform preallocated (.goto name) after =
        .ok .done { after with tape := after.tape.pointing later }) ∧
      ((∀ j, j < k → (storeAt program aliases s (n + j)).aliases.resolve? name ≠
          some (storeAt program aliases s (n + j)).tape.pointer) →
        after.tape.cellAt later.toNat = before.tape.cellAt address.toNat) := by
  intro before after
  have hp := nonneg_of_read hr
  have sound := storeAt_sound aliases hooks hsize hroom hp
  have chain := storeAt_anchors aliases hooks hsize hroom hp
  have bound : before.placeOf? name = some (address - before.tape.origin) := by
    rw [Store.placeOf?, hname]
    rfl
  obtain ⟨later, hlater, distance⟩ := Option.map_eq_some_iff.mp (Store.placeOf?_chain chain bound k)
  have within := (sound n).aliases.resolve? hname
  have within' := (sound (n + k)).aliases.resolve? hlater
  refine ⟨within, fun other ho => (sound n).aliases.resolve?_inj ho hname, later, hlater, distance,
    Store.goto_bound (sound (n + k)) hlater, fun haway => ?_⟩
  have away : ∀ j, j < k →
      address - before.tape.origin ≠ (storeAt program aliases s (n + j)).tape.place := by
    intro j hj hplace
    apply haway j hj
    obtain ⟨between, hb, distance'⟩ :=
      Option.map_eq_some_iff.mp (Store.placeOf?_chain chain bound j)
    rw [hb, Option.some.injEq]
    rw [Tape.place] at hplace
    omega
  have hb : before.tape.atPlace (address - before.tape.origin) =
      before.tape.cellAt address.toNat := by
    rw [← Tape.atPlace_of_address, Int.toNat_of_nonneg within.1]
  have ha : after.tape.atPlace (later - after.tape.origin) = after.tape.cellAt later.toNat := by
    rw [← Tape.atPlace_of_address, Int.toNat_of_nonneg within'.1]
  rw [← ha, ← hb, distance]
  exact Store.atPlace_chain chain away

/-- About to run a program on a tape of two cells that grows. -/
def homing : Session Unit where
  store :=
    { tape := .confined 2 .wrap .grow
      aliases := {}
      device := .ofReadings .stream []
      host := () }

theorem names_stay_homing :
    homing.hooks = {} ∧ 0 < homing.store.tape.size ∧
    homing.store.tape.limits.hasRoom homing.store.tape.size = true ∧
    ∃ program, ({ merge := false } : Options).read "{a}+<<<<{a}." "<string>" = .ok program ∧
      (storeAt program none homing 3).aliases.resolve? "a" = some 1 ∧
      (storeAt program none homing 6).tape.origin = 3 ∧
      (storeAt program none homing 6).aliases.resolve? "a" = some 4 ∧
      (storeAt program none homing 6).tape.cellAt 4 =
        (storeAt program none homing 3).tape.cellAt 1 := by
  have hroom : homing.store.tape.limits.hasRoom homing.store.tape.size = true := by decide
  obtain ⟨program, hread, hname, away, before, after⟩ : ∃ program,
      ({ merge := false } : Options).read "{a}+<<<<{a}." "<string>" = .ok program ∧
      (storeAt program none homing 3).aliases.resolve? "a" = some 1 ∧
      (∀ j, j < 3 → (storeAt program none homing (3 + j)).aliases.resolve? "a" ≠
        some (storeAt program none homing (3 + j)).tape.pointer) ∧
      (storeAt program none homing 3).tape.origin = 0 ∧
      (storeAt program none homing 6).tape.origin = 3 :=
    ⟨_, rfl, by decide +kernel, by decide +kernel, by decide +kernel, by decide +kernel⟩
  obtain ⟨-, -, later, hlater, distance, -, same⟩ :=
    names_stay rfl (by decide) hroom hread none 3 3 hname
  rw [before, after] at distance
  have address : later = 4 := by omega
  subst address
  exact ⟨rfl, by decide, hroom, program, hread, hname, after, hlater, same away⟩

end Session

end NamedTape
