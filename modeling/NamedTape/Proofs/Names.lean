import NamedTape.Proofs.Anchors

/-!
# Names

Tables that have the same bindings but for the names. A table tells names apart and does nothing
else with them, and it uses the names that it knows only to give them addresses. So all that is
done to such tables leaves them alike (`Renames`).
-/

namespace NamedTape

namespace AliasTable

open NamedTape.Action (Tallies Tally)

/-- The second table has the bindings of the first one in their order, under the names that `f`
gives them. -/
def Renames (f : String → String) (a a' : AliasTable) : Prop :=
  a'.bindings = a.bindings.map fun b => (f b.1, b.2)

variable {f : String → String} {F : Raised → Raised → Prop} {a a' : AliasTable}
  {tape tape' : Tape}

theorem renames_clear (f : String → String) (a a' : AliasTable) : Renames f a.clear a'.clear := rfl

theorem Renames.shift (h : Renames f a a') (offset : Int) :
    Renames f (a.shift offset) (a'.shift offset) := by
  rw [Renames, AliasTable.shift, h, AliasTable.shift, List.map_map, List.map_map]
  rfl

theorem Renames.insert (h : Renames f a a') (name : String) (address : Int) :
    Renames f (a.insert name address) (a'.insert (f name) address) := by
  rw [Renames, AliasTable.insert, h, AliasTable.insert, List.map_append]
  rfl

theorem Renames.nameAt? (h : Renames f a a') (address : Int) :
    (a'.nameAt? address).isNone = (a.nameAt? address).isNone := by
  rw [AliasTable.nameAt?, h, List.find?_map, AliasTable.nameAt?, Option.isNone_map,
    Option.isNone_map, Option.isNone_map]
  rfl

theorem Renames.resolve? (h : Renames f a a') (hf : Function.Injective f) (name : String) :
    a'.resolve? (f name) = a.resolve? name := by
  have told : (fun b : String × Int => b.1 == f name) ∘ (fun b : String × Int => (f b.1, b.2)) =
      fun b : String × Int => b.1 == name := by
    funext b
    simp only [Function.comp_apply, beq_eq_beq]
    exact hf.eq_iff
  rw [AliasTable.resolve?, h, List.find?_map, told, Option.map_map]
  rfl

/-- The same cell is free, if the tapes hold the same. -/
theorem Renames.freeBelow? (h : Renames f a a') (ht : tape'.cells = tape.cells) (limit : Nat) :
    a'.freeBelow? tape' limit = a.freeBelow? tape limit := by
  induction limit with
  | zero => rfl
  | succ address ih =>
    have cell : tape'.cellAt address = tape.cellAt address := by
      rw [Tape.cellAt, ht, Tape.cellAt]
    rw [AliasTable.freeBelow?, AliasTable.freeBelow?, ih, cell, h.nameAt?]

section assign

variable (hf : Function.Injective f) (ht : tape'.cells = tape.cells)
include hf ht

theorem assign_tallies {name : String}
    (hF : F (.of (.noFreeCell name)) (.of (.noFreeCell (f name)))) :
    Tallies (Renames f) F (assign tape name) (assign tape' (f name)) := by
  intro a a' h
  have size : tape'.size = tape.size := congrArg Array.size ht
  unfold assign
  rw [h.resolve? hf, h.freeBelow? ht, size]
  cases a.resolve? name with
  | some address => exact .ok h
  | none =>
    cases a.freeBelow? tape tape.size with
    | some free => exact .ok (h.insert name free)
    | none => exact .error h hF

theorem assignEach_tallies (names : List String)
    (hF : ∀ name, F (.of (.noFreeCell name)) (.of (.noFreeCell (f name)))) :
    Tallies (Renames f) F (assignEach tape names) (assignEach tape' (names.map f)) := by
  induction names with
  | nil => exact .pure ()
  | cons name rest ih =>
    have first : Tallies (Renames f) F (discard (assign tape name))
        (discard (assign tape' (f name))) := (assign_tallies hf ht (hF name)).map _
    exact first.bind fun _ => ih

theorem assignAll_tally (h : Renames f a a') (hn : a'.names = a.names.map f)
    (hF : ∀ name, F (.of (.noFreeCell name)) (.of (.noFreeCell (f name)))) :
    Tally (Renames f) F (assignAll tape a) (assignAll tape' a') := by
  unfold assignAll
  rw [hn]
  exact assignEach_tallies hf ht a.names hF a a' h

end assign

end AliasTable

open AliasTable (Renames) in
/-- The address of a name is sought in the same way under another name. -/
theorem Store.seek_tallies {f : String → String} (hf : Function.Injective f)
    {F : Raised → Raised → Prop} {tape tape' : Tape} (ht : tape'.cells = tape.cells)
    (preallocated : Bool) {name : String}
    (hF : F (.of (.noFreeCell name)) (.of (.noFreeCell (f name))))
    (hF' : F (.of (.unresolvedAlias name)) (.of (.unresolvedAlias (f name)))) :
    Action.Tallies (Renames f) F (Store.seek preallocated name tape)
      (Store.seek preallocated (f name) tape') := by
  intro a a' h
  unfold Store.seek
  rw [h.resolve? hf]
  cases a.resolve? name with
  | some address => exact .ok h
  | none =>
    cases preallocated with
    | true => exact .error h hF'
    | false => exact AliasTable.assign_tallies hf ht hF a a' h

end NamedTape
