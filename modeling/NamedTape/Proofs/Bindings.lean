import Mathlib.Data.List.Nodup
import NamedTape.Proofs.Action

/-!
# Bindings

`Fits size table`: the bindings give different cells of a tape of the size to different names.
Nothing that a program does to its aliases takes this away.
-/

namespace NamedTape

namespace AliasTable

open NamedTape.Action (Keeps)

variable {size : Nat} {t : AliasTable} {name : String} {address : Int}

theorem not_mem_names (h : t.resolve? name = none) : name ∉ t.bindings.map (·.1) := by
  intro hm
  obtain ⟨b, hb, rfl⟩ := List.mem_map.mp hm
  simp only [resolve?, Option.map_eq_none_iff, List.find?_eq_none] at h
  exact h b hb (by simp)

theorem not_mem_addresses (h : t.nameAt? address = none) : address ∉ t.bindings.map (·.2) := by
  intro hm
  obtain ⟨b, hb, rfl⟩ := List.mem_map.mp hm
  simp only [nameAt?, Option.map_eq_none_iff, List.find?_eq_none] at h
  exact h b hb (by simp)

theorem mem_of_resolve? (h : t.resolve? name = some address) : (name, address) ∈ t.bindings := by
  unfold resolve? at h
  obtain ⟨b, hb, rfl⟩ := Option.map_eq_some_iff.mp h
  have hname : b.1 = name := by simpa using List.find?_some hb
  exact hname ▸ List.mem_of_find?_eq_some hb

theorem mem_of_nameAt? (h : t.nameAt? address = some name) : (name, address) ∈ t.bindings := by
  unfold nameAt? at h
  obtain ⟨b, hb, rfl⟩ := Option.map_eq_some_iff.mp h
  have haddress : b.2 = address := by simpa using List.find?_some hb
  exact haddress ▸ List.mem_of_find?_eq_some hb

/-- A name is added to distinct names unless it is among them. -/
theorem nodup_noted {names : List String} (h : names.Nodup) (name : String) :
    (if names.contains name then names else names ++ [name]).Nodup := by
  split
  · exact h
  · next hc =>
    refine List.nodup_append.mpr ⟨h, List.nodup_singleton name, ?_⟩
    rintro other ho _ hm rfl
    exact hc (List.contains_iff_mem.mpr (List.mem_singleton.mp hm ▸ ho))

theorem nodup_distinct (names : List String) : (distinct names).Nodup := by
  have noted : ∀ {seen : List String}, seen.Nodup → (names.foldl
      (fun seen name => if seen.contains name then seen else seen ++ [name]) seen).Nodup := by
    induction names with
    | nil => exact id
    | cons name rest ih => exact fun h => ih (nodup_noted h name)
  exact noted List.nodup_nil

/-- No name and no address occurs twice among the bindings. -/
structure OneToOne (t : AliasTable) : Prop where
  names : (t.bindings.map (·.1)).Nodup
  addresses : (t.bindings.map (·.2)).Nodup

theorem oneToOne_clear (t : AliasTable) : t.clear.OneToOne := ⟨.nil, .nil⟩

theorem names_shift (t : AliasTable) (offset : Int) :
    (t.shift offset).bindings.map (·.1) = t.bindings.map (·.1) := by
  rw [AliasTable.shift, List.map_map]
  rfl

theorem OneToOne.shift (h : t.OneToOne) (offset : Int) : (t.shift offset).OneToOne := by
  refine ⟨t.names_shift offset ▸ h.names, ?_⟩
  have hmap : (t.shift offset).bindings.map (·.2) = (t.bindings.map (·.2)).map (· + offset) := by
    simp only [AliasTable.shift, List.map_map]
    rfl
  rw [hmap]
  exact List.Pairwise.map (· + offset) (fun a b hab heq => hab (by omega)) h.addresses

theorem OneToOne.insert (h : t.OneToOne) (hn : t.resolve? name = none)
    (ha : t.nameAt? address = none) : (t.insert name address).OneToOne := by
  constructor
  · rw [AliasTable.insert, List.map_append]
    refine List.nodup_append.mpr ⟨h.names, by simp, fun a hm b hb heq => ?_⟩
    cases List.mem_singleton.mp hb
    cases heq
    exact not_mem_names hn hm
  · rw [AliasTable.insert, List.map_append]
    refine List.nodup_append.mpr ⟨h.addresses, by simp, fun a hm b hb heq => ?_⟩
    cases List.mem_singleton.mp hb
    cases heq
    exact not_mem_addresses ha hm

/-- The bindings give different cells of a tape of the size to different names. -/
structure Fits (size : Nat) (t : AliasTable) : Prop where
  within : ∀ b ∈ t.bindings, 0 ≤ b.2 ∧ b.2 < size
  names : (t.bindings.map (·.1)).Nodup
  addresses : (t.bindings.map (·.2)).Nodup

theorem Fits.oneToOne (h : t.Fits size) : t.OneToOne := ⟨h.names, h.addresses⟩

theorem fits_clear (size : Nat) (t : AliasTable) : t.clear.Fits size :=
  ⟨fun _ h => absurd h List.not_mem_nil, .nil, .nil⟩

theorem Fits.mono (h : t.Fits size) {size' : Nat} (hle : size ≤ size') : t.Fits size' :=
  ⟨fun b hb => ⟨(h.within b hb).1, by have := (h.within b hb).2; omega⟩, h.names, h.addresses⟩

theorem Fits.shift (h : t.Fits size) (offset : Nat) : (t.shift offset).Fits (size + offset) := by
  have shifted := h.oneToOne.shift offset
  refine ⟨fun b hb => ?_, shifted.names, shifted.addresses⟩
  obtain ⟨⟨n, a⟩, ha, rfl⟩ := List.mem_map.mp hb
  have := h.within _ ha
  dsimp only at this ⊢
  omega

theorem Fits.insert (h : t.Fits size) (hn : t.resolve? name = none)
    (ha : t.nameAt? address = none) (hw : 0 ≤ address ∧ address < size) :
    (t.insert name address).Fits size := by
  have inserted := h.oneToOne.insert hn ha
  refine ⟨fun b hb => ?_, inserted.names, inserted.addresses⟩
  rcases List.mem_append.mp hb with hb | hb
  · exact h.within b hb
  · cases List.mem_singleton.mp hb
    exact hw

/-! ## Bound names -/

theorem resolve?_insert (t : AliasTable) (name other : String) (address : Int) :
    (t.insert name address).resolve? other =
      (t.resolve? other).or (if name = other then some address else none) := by
  rw [resolve?, insert, List.find?_append, Option.map_or, resolve?]
  refine congrArg _ ?_
  by_cases h : name = other <;> simp [h]

theorem nameAt?_insert (t : AliasTable) (name : String) (address other : Int) :
    (t.insert name address).nameAt? other =
      (t.nameAt? other).or (if address = other then some name else none) := by
  rw [nameAt?, insert, List.find?_append, Option.map_or, nameAt?]
  refine congrArg _ ?_
  by_cases h : address = other <;> simp [h]

theorem contains_insert (t : AliasTable) (name other : String) (address : Int) :
    (t.insert name address).contains other = (t.contains other || other == name) := by
  rw [contains, resolve?_insert, contains]
  by_cases h : other = name
  · simp [h]
  · simp [h, Ne.symm h]

/-- The table has an address for the name. -/
def Binds (t : AliasTable) (name : String) : Prop := name ∈ t.bindings.map (·.1)

theorem Binds.resolve? (h : t.Binds name) : ∃ address, t.resolve? name = some address := by
  cases hr : t.resolve? name with
  | some address => exact ⟨address, rfl⟩
  | none => exact absurd h (not_mem_names hr)

theorem binds_of_resolve? (h : t.resolve? name = some address) : t.Binds name :=
  List.mem_map.mpr ⟨_, mem_of_resolve? h, rfl⟩

theorem binds_insert {other : String} :
    (t.insert name address).Binds other ↔ t.Binds other ∨ other = name := by
  rw [Binds, insert, List.map_append, List.mem_append]
  exact or_congr_right List.mem_singleton

theorem resolve?_shift (t : AliasTable) (offset : Int) (name : String) :
    (t.shift offset).resolve? name = (t.resolve? name).map (· + offset) := by
  rw [resolve?, resolve?, shift, List.find?_map, Option.map_map, Option.map_map]
  rfl

theorem binds_shift {offset : Int} : (t.shift offset).Binds name ↔ t.Binds name := by
  rw [Binds, names_shift]
  exact Iff.rfl

theorem Fits.resolve? (h : t.Fits size) (hr : t.resolve? name = some address) :
    0 ≤ address ∧ address < size :=
  h.within _ (mem_of_resolve? hr)

/-! ## Giving addresses -/

/-- An address that is free is on the tape, holds zero, and belongs to no name. -/
theorem freeBelow?_some {tape : Tape} {limit free : Nat} (h : t.freeBelow? tape limit = some free) :
    free < limit ∧ tape.cellAt free = 0 ∧ t.nameAt? free = none := by
  induction limit with
  | zero => cases h
  | succ limit ih =>
    rw [freeBelow?] at h
    split at h
    · next hfree =>
      cases h
      rw [Bool.and_eq_true, beq_iff_eq, Option.isNone_iff_eq_none] at hfree
      exact ⟨by omega, hfree⟩
    · obtain ⟨hlt, hfree⟩ := ih h
      exact ⟨by omega, hfree⟩

/-- What giving an address to a name comes to. -/
theorem assign_cases (tape : Tape) (name : String) (t : AliasTable) :
    (∃ address, t.resolve? name = some address ∧ assign tape name t = .ok address t) ∨
    (∃ free : Nat, t.resolve? name = none ∧ free < tape.size ∧ t.nameAt? free = none ∧
      assign tape name t = .ok (free : Int) (t.insert name free)) ∨
    (t.resolve? name = none ∧ assign tape name t = .error (.of (.noFreeCell name)) t) := by
  unfold assign
  cases hr : t.resolve? name with
  | some address => exact .inl ⟨address, rfl, rfl⟩
  | none =>
    cases hf : t.freeBelow? tape tape.size with
    | none => exact .inr (.inr ⟨rfl, rfl⟩)
    | some free =>
      obtain ⟨hlt, -, hname⟩ := freeBelow?_some hf
      exact .inr (.inl ⟨free, rfl, hlt, hname, rfl⟩)

theorem assign_keeps (tape : Tape) (name : String) :
    Keeps (Fits tape.size) (assign tape name) := by
  intro t h
  obtain ⟨address, -, ha⟩ | ⟨free, hn, hlt, hfree, ha⟩ | ⟨-, ha⟩ := assign_cases tape name t
  · rw [ha]
    exact h
  · rw [ha]
    exact h.insert hn hfree ⟨by omega, by omega⟩
  · rw [ha]
    exact h

/-- A name that is given an address has one from then on, and so has every name that had one. -/
theorem assign_binds {tape : Tape} {t' : AliasTable} (h : assign tape name t = .ok address t') :
    t'.Binds name ∧ ∀ other, t.Binds other → t'.Binds other := by
  obtain ⟨_, hr, ha⟩ | ⟨free, -, -, -, ha⟩ | ⟨-, ha⟩ := assign_cases tape name t
  · cases h.symm.trans ha
    exact ⟨binds_of_resolve? hr, fun _ hb => hb⟩
  · cases h.symm.trans ha
    exact ⟨binds_insert.mpr (.inr rfl), fun _ hb => binds_insert.mpr (.inl hb)⟩
  · cases h.symm.trans ha

theorem assignEach_keeps (tape : Tape) (names : List String) :
    Keeps (Fits tape.size) (assignEach tape names) := by
  induction names with
  | nil => exact .pure fun _ h => h
  | cons name rest ih =>
    have first : Keeps (Fits tape.size) (discard (assign tape name)) :=
      Action.Meets.map (R := fun _ => Fits tape.size) (assign_keeps tape name)
    exact first.bind fun _ => ih

/-- Giving addresses to the names binds them all, unless a free cell is missing for one. -/
theorem assignEach_cases (tape : Tape) (names : List String) (t : AliasTable) :
    (∃ t', assignEach tape names t = .ok () t' ∧ (∀ name ∈ names, t'.Binds name) ∧
      ∀ other, t.Binds other → t'.Binds other) ∨
    ∃ name t', assignEach tape names t = .error (.of (.noFreeCell name)) t' := by
  induction names generalizing t with
  | nil => exact .inl ⟨t, rfl, fun _ h => absurd h List.not_mem_nil, fun _ h => h⟩
  | cons name rest ih =>
    rw [assignEach]
    cases ha : assign tape name t with
    | error e t' =>
      have hd : discard (assign tape name) t = .error e t' := Action.map_of_error ha _
      rw [Action.bind_of_error hd]
      obtain ⟨_, -, h⟩ | ⟨_, -, -, -, h⟩ | ⟨-, h⟩ := assign_cases tape name t
      · cases ha.symm.trans h
      · cases ha.symm.trans h
      · cases ha.symm.trans h
        exact .inr ⟨name, t, rfl⟩
    | ok a t' =>
      have hd : discard (assign tape name) t = .ok ⟨⟩ t' := Action.map_of_ok ha _
      obtain ⟨hname, hkept⟩ := assign_binds ha
      rw [Action.bind_of_ok hd]
      obtain ⟨t'', h, hrest, hkept'⟩ | ⟨missing, t'', h⟩ := ih t'
      · refine .inl ⟨t'', h, ?_, fun other ho => hkept' other (hkept other ho)⟩
        exact List.forall_mem_cons.mpr ⟨hkept' name hname, hrest⟩
      · exact .inr ⟨missing, t'', h⟩

theorem assignAll_keeps (tape : Tape) : Keeps (Fits tape.size) (assignAll tape) :=
  fun t h => assignEach_keeps tape t.names t h

end AliasTable

end NamedTape
