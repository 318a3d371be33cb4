import Mathlib.Data.List.Nodup
import NamedTape.Proofs.Places
import NamedTape.Proofs.Soundness

/-!
# Anchors

What no operation changes (`Store.perform_anchors`): a name that is bound stays bound to the same
place, however many cells are added before it or after it, and every place but that of the current
cell holds what it held.
-/

namespace NamedTape

namespace AliasTable

variable {size : Nat} {t : AliasTable} {name : String} {address : Int}

/-- A name that has an address keeps it when another one is given its own. -/
theorem resolve?_assign {tape : Tape} {other : String} (h : t.resolve? name = some address) :
    ((assign tape other).final t).resolve? name = some address := by
  obtain ⟨_, -, ha⟩ | ⟨free, -, -, -, ha⟩ | ⟨-, ha⟩ := assign_cases tape other t
  · rw [Action.final_of_ok ha]
    exact h
  · rw [Action.final_of_ok ha]
    rw [resolve?_insert, h]
    rfl
  · rw [Action.final_of_error ha]
    exact h

/-- Two names do not share an address. -/
theorem Fits.resolve?_inj (h : t.Fits size) {other : String} (hn : t.resolve? name = some address)
    (ho : t.resolve? other = some address) : name = other :=
  congrArg Prod.fst
    (List.inj_on_of_nodup_map h.addresses (mem_of_resolve? hn) (mem_of_resolve? ho) rfl)

end AliasTable

namespace Tape

/-- The second tape differs from the first only in the cell that was current. -/
def Spares (t t' : Tape) : Prop := ∀ place, place ≠ t.place → t'.atPlace place = t.atPlace place

variable {limits : Limits} {t t' : Tape}

theorem spares_refl (t : Tape) : t.Spares t := fun _ _ => rfl

theorem Sound.spares_storing (h : t.Sound limits) (cell : UInt8) : t.Spares (t.storing cell) := by
  intro place hplace
  rw [h.atPlace_storing, if_neg hplace]

theorem Sound.spares_shift (h : t.Sound limits) {delta : Int} (hs : shift delta t = .ok () t') :
    t'.origin = t.origin ∧ t.Spares t' := by
  rw [h.shift_eq] at hs
  split at hs <;> cases hs
  exact ⟨rfl, h.spares_storing _⟩

theorem Sound.spares_setValue (h : t.Sound limits) {value : Int}
    (hs : setValue value t = .ok () t') : t'.origin = t.origin ∧ t.Spares t' := by
  rw [h.setValue_eq] at hs
  split at hs <;> cases hs
  exact ⟨rfl, h.spares_storing _⟩

theorem spares_moveTo {address : Int} (hs : moveTo address t = .ok () t') :
    t'.origin = t.origin ∧ t.Spares t' := by
  obtain rfl := pointing_of_moveTo hs
  exact ⟨rfl, fun place _ => t.atPlace_pointing _ place⟩

theorem spares_moveRight {count : Int} (hs : moveRight count t = .ok () t') :
    t'.origin = t.origin ∧ t.Spares t' := by
  rcases moved_of_moveRight hs with ⟨pointer, rfl⟩ | ⟨-, missing, pointer, rfl⟩
  · exact ⟨rfl, fun place _ => t.atPlace_pointing _ place⟩
  · exact ⟨rfl, fun place _ => t.atPlace_grownRight _ place _⟩

theorem spares_moveLeft {count : Int} (hs : moveLeft count t = .ok () t') : t.Spares t' := by
  rcases moved_of_moveLeft hs with ⟨pointer, rfl⟩ | ⟨-, crossed, pointer, rfl⟩
  · exact fun place _ => t.atPlace_pointing _ place
  · exact fun place _ => t.atPlace_grownLeft _ place _

end Tape

namespace Store

open NamedTape.Action (FailsInPlace Meets)

variable {σ : Type} {limits : Limits}

/-- The place of the cell that a name is bound to. -/
def placeOf? (s : Store σ) (name : String) : Option Int :=
  (s.aliases.resolve? name).map (· - s.tape.origin)

/-- Names and cells are in the second store where they were in the first, and but for the cell that
was current the cells hold what they held. -/
structure Anchors (s t : Store σ) : Prop where
  names : ∀ name place, s.placeOf? name = some place → t.placeOf? name = some place
  cells : s.tape.Spares t.tape

/-- Nothing has happened to the tape yet, and no name has lost its address. -/
structure Calm (s t : Store σ) : Prop where
  tape : t.tape = s.tape
  names : ∀ name address, s.aliases.resolve? name = some address →
    t.aliases.resolve? name = some address

theorem calm_refl (s : Store σ) : s.Calm s := ⟨rfl, fun _ _ h => h⟩

variable {s t : Store σ}

theorem Calm.anchors (h : s.Calm t) : s.Anchors t := by
  refine ⟨fun name place hp => ?_, ?_⟩
  · obtain ⟨address, ha, rfl⟩ := Option.map_eq_some_iff.mp hp
    rw [placeOf?, h.names name address ha, h.tape]
    rfl
  · rw [h.tape]
    exact s.tape.spares_refl

/-- A change of the tape that leaves the origin alone leaves the names alone. -/
theorem Calm.onTape {act : Action Tape Unit} (hf : FailsInPlace act)
    (h : ∀ tape, act s.tape = .ok () tape →
      tape.origin = s.tape.origin ∧ s.tape.Spares tape) :
    Meets s.Calm (Store.onTape act) (fun _ => s.Anchors) fun _ => s.Anchors := by
  refine meets_onTape (fun t _ tape calm ha => ?_) fun t e tape calm ha => ?_
  · obtain ⟨origin, spares⟩ := h tape (calm.tape ▸ ha)
    refine ⟨fun name place hp => ?_, spares⟩
    obtain ⟨address, hname, rfl⟩ := Option.map_eq_some_iff.mp hp
    show (t.aliases.resolve? name).map (· - (tape.origin : Int)) = _
    rw [calm.names name address hname, origin]
    rfl
  · cases hf _ e tape ha
    exact calm.anchors

theorem Calm.onDevice {α : Type} (act : Action Device α) :
    Meets s.Calm (Store.onDevice act) (fun _ => s.Calm) fun _ => s.Calm :=
  meets_onDevice (fun _ _ _ calm _ => ⟨calm.tape, calm.names⟩)
    fun _ _ _ calm _ => ⟨calm.tape, calm.names⟩

/-- The names move up with the cells of a tape that grows at the front. -/
theorem Calm.moveLeft (count : Int) :
    Meets s.Calm (Store.moveLeft count) (fun _ => s.Anchors) fun _ => s.Anchors := by
  refine meets_moveLeft (fun t tape calm ha => ?_) fun t e calm _ => calm.anchors
  refine ⟨fun name place hp => ?_, Tape.spares_moveLeft (calm.tape ▸ ha)⟩
  obtain ⟨address, hname, rfl⟩ := Option.map_eq_some_iff.mp hp
  show ((t.aliases.shift (tape.origin - t.tape.origin)).resolve? name).map
    (· - (tape.origin : Int)) = _
  rw [AliasTable.resolve?_shift, calm.names name address hname, calm.tape, Option.map_some,
    Option.map_some, Option.some.injEq]
  omega

/-- The address of a name, which is given one if all names were not to have theirs before. -/
def seek (preallocated : Bool) (name : String) (tape : Tape) : Action AliasTable Int := fun t =>
  match t.resolve? name with
  | some address => .ok address t
  | none =>
    if preallocated then .error (.of (.unresolvedAlias name)) t
    else AliasTable.assign tape name t

theorem goto_eq (preallocated : Bool) (name : String) :
    Store.goto (σ := σ) preallocated name =
      onAliases (seek preallocated name) >>= fun address => onTape (Tape.moveTo address) := rfl

theorem Calm.seek (preallocated : Bool) (name : String) :
    Meets s.Calm (onAliases (Store.seek preallocated name)) (fun _ => s.Calm) fun _ => s.Calm := by
  intro t calm
  have kept : ∀ other address, s.aliases.resolve? other = some address →
      ((Store.seek preallocated name t.tape).final t.aliases).resolve? other = some address := by
    intro other address ho
    have bound := calm.names other address ho
    unfold Action.final Store.seek
    cases t.aliases.resolve? name with
    | some _ => exact bound
    | none =>
      cases preallocated with
      | true => exact bound
      | false => exact AliasTable.resolve?_assign bound
  unfold onAliases
  cases ha : Store.seek preallocated name t.tape t.aliases with
  | ok address aliases => exact ⟨calm.tape, Action.final_of_ok ha ▸ kept⟩
  | error e aliases => exact ⟨calm.tape, Action.final_of_error ha ▸ kept⟩

theorem Calm.goto (preallocated : Bool) (name : String) :
    Meets s.Calm (Store.goto preallocated name) (fun _ => s.Anchors) fun _ => s.Anchors := by
  rw [goto_eq]
  refine Meets.bind ((Calm.seek preallocated name).mono_error fun _ _ h => h.anchors)
    fun address => ?_
  exact Calm.onTape (Tape.failsInPlace_moveTo address) fun tape ht => Tape.spares_moveTo ht

theorem Calm.receive (h : s.tape.Sound limits) :
    Meets s.Calm Store.receive (fun _ => s.Anchors) fun _ => s.Anchors := by
  refine Meets.bind ((Calm.onDevice Device.read).mono_error fun _ _ h => h.anchors)
    fun reading => ?_
  cases reading with
  | none => exact .pure fun _ h => h.anchors
  | some value =>
    exact (Calm.onTape (Tape.failsInPlace_setValue value) fun tape ht => h.spares_setValue ht).bind
      fun _ => .pure fun _ h => h

/-- **What no operation changes.** -/
theorem perform_anchors (h : s.tape.Sound limits) (preallocated : Bool) (operation : Operation) :
    s.Anchors ((perform preallocated operation).final s) := by
  refine Meets.final (P := s.Calm) ?_ s.calm_refl
  cases operation with
  | counted kind count =>
    cases kind with
    | add =>
      exact (Calm.onTape (Tape.failsInPlace_shift count) fun tape ht => h.spares_shift ht).bind
        fun _ => .pure fun _ h => h
    | subtract =>
      exact (Calm.onTape (Tape.failsInPlace_shift (-count)) fun tape ht => h.spares_shift ht).bind
        fun _ => .pure fun _ h => h
    | left => exact (Calm.moveLeft count).bind fun _ => .pure fun _ h => h
    | right =>
      exact (Calm.onTape (Tape.failsInPlace_moveRight count)
        fun tape ht => Tape.spares_moveRight ht).bind fun _ => .pure fun _ h => h
  | input => exact Calm.receive h
  | output =>
    have looked : Meets s.Calm (Store.onTape Tape.value) (fun _ => s.Calm) fun _ => s.Calm := by
      intro t calm
      cases ha : Tape.value t.tape with
      | ok a tape =>
        rw [onTape_of_ok ha]
        unfold Tape.value at ha
        split at ha <;> cases ha
        exact calm
      | error e tape =>
        rw [onTape_of_error ha]
        cases Tape.failsInPlace_value _ e tape ha
        exact calm
    have written : Meets s.Calm (perform preallocated .output) (fun _ => s.Calm) fun _ => s.Calm :=
      looked.bind fun value => (Calm.onDevice (Device.write value)).bind
        fun _ => .pure fun _ h => h
    exact written.mono (fun _ h => h) (fun _ _ h => h.anchors) fun _ _ h => h.anchors
  | goto name => exact (Calm.goto preallocated name).bind fun _ => .pure fun _ h => h
  | blank => exact .throw fun _ h => h.anchors

/-- A name that is bound is gone to where it is bound. -/
theorem goto_bound {name : String} {address : Int} (h : s.Sound limits)
    (hname : s.aliases.resolve? name = some address) (preallocated : Bool) :
    perform preallocated (.goto name) s =
      .ok .done { s with tape := s.tape.pointing address } := by
  have sought : onAliases (seek preallocated name) s = .ok address s := by
    simp only [onAliases, seek, hname]
  have moved : Store.goto preallocated name s =
      .ok () { s with tape := s.tape.pointing address } := by
    rw [goto_eq, Action.bind_of_ok sought]
    exact onTape_of_ok (if_pos (h.aliases.resolve? hname))
  exact Action.bind_of_ok moved _

end Store

end NamedTape
