import NamedTape.Proofs.TwoWay

/-!
# Histories of an alias table

Whatever is called on a table that knows some names, its bindings stay one-to-one
(`calls_keep_one_to_one`). Kept as two maps that are written separately, they stay mirror images.
-/

namespace NamedTape

namespace AliasTable

open NamedTape.Action (Tally)

variable {t u : AliasTable}

/-- The names that have addresses, in the order in which they were given them. -/
def order (t : AliasTable) : List String := t.bindings.map (·.1)

theorem contains_iff {name : String} : t.contains name = true ↔ name ∈ t.order := by
  rw [contains, Option.isSome_iff_exists]
  constructor
  · rintro ⟨address, h⟩
    exact binds_of_resolve? h
  · exact Binds.resolve?

/-- The bindings go in both directions, and they are those of known names. -/
structure Consistent (t : AliasTable) : Prop where
  inverse : ∀ name address, t.resolve? name = some address ↔ t.nameAt? address = some name
  apart : ∀ name other address, t.resolve? name = some address →
    t.resolve? other = some address → name = other
  size : t.size = (t.names.filter t.contains).length
  distinct : t.names.Nodup
  known : ∀ name, t.contains name = true → name ∈ t.names

theorem Regular.mem_names (h : t.Regular) {name : String} (hn : t.contains name = true) :
    name ∈ t.names := by
  obtain ⟨b, hb, rfl⟩ := List.mem_map.mp (contains_iff.mp hn)
  exact h.known b hb

theorem Regular.consistent (h : t.Regular) : t.Consistent where
  inverse name address := h.resolve?_iff.trans h.nameAt?_iff.symm
  apart name other address hn ho := congrArg Prod.fst <|
    List.inj_on_of_nodup_map h.addresses (mem_of_resolve? hn) (mem_of_resolve? ho) rfl
  size := by
    have same : t.order.Perm (t.names.filter t.contains) := by
      refine (List.perm_ext_iff_of_nodup h.names (h.distinct.filter _)).mpr fun name => ?_
      rw [List.mem_filter, contains_iff]
      exact ⟨fun hn => ⟨h.mem_names (contains_iff.mpr hn), hn⟩, And.right⟩
    rw [← same.length_eq, order, List.length_map]
    rfl
  distinct := h.distinct
  known _ hn := h.mem_names hn

/-! ## The order of binding -/

/-- The names that stay bound stay in order. -/
def KeepsOrder (t u : AliasTable) : Prop :=
  u.order.filter t.contains = t.order.filter u.contains

theorem Grows.order (h : t.Grows u) : ∃ new, u.order = t.order ++ new := by
  induction h with
  | refl => exact ⟨[], (List.append_nil _).symm⟩
  | @insert u name address _ _ _ ih =>
    obtain ⟨new, hnew⟩ := ih
    refine ⟨new ++ [name], ?_⟩
    rw [← List.append_assoc, ← hnew, AliasTable.order, AliasTable.insert, List.map_append]
    rfl

theorem Grows.keepsOrder (h : t.Grows u) (hu : u.Regular) : t.KeepsOrder u := by
  obtain ⟨new, hnew⟩ := h.order
  have apart : List.Disjoint t.order new := List.disjoint_of_nodup_append (hnew ▸ hu.names)
  have old : t.order.filter t.contains = t.order :=
    List.filter_eq_self.mpr fun name hn => contains_iff.mpr hn
  have kept : t.order.filter u.contains = t.order :=
    List.filter_eq_self.mpr fun name hn =>
      contains_iff.mpr (hnew ▸ List.mem_append_left new hn)
  have added : new.filter t.contains = [] :=
    List.filter_eq_nil_iff.mpr fun name hn hc => apart (contains_iff.mp hc) hn
  rw [KeepsOrder, hnew, List.filter_append, old, added, kept, List.append_nil]

theorem keepsOrder_shift (t : AliasTable) (offset : Int) : t.KeepsOrder (t.shift offset) := by
  have same : (t.shift offset).order = t.order := t.names_shift offset
  rw [KeepsOrder, same]
  refine List.filter_congr fun name hn => ?_
  rw [contains_iff.mpr hn, contains_iff.mpr (same ▸ hn)]

theorem keepsOrder_clear (t : AliasTable) : t.KeepsOrder t.clear := by
  refine (List.filter_eq_nil_iff.mpr fun name _ hc => ?_).symm
  cases hc

theorem Regular.keepsOrder (h : t.Regular) (tape : Tape) (call : Call) :
    t.KeepsOrder ((call.perform tape).final t) := by
  obtain grown | ⟨offset, -, hs⟩ | hc := perform_cases tape call t
  · exact grown.keepsOrder (h.perform tape call)
  · rw [hs]
    exact t.keepsOrder_shift offset
  · rw [hc]
    exact t.keepsOrder_clear

/-! ## Calls that fail -/

/-- A call for one name that fails changes nothing. -/
theorem eq_of_perform_error {tape : Tape} {call : Call} (single : call ≠ .assignAll) {e : Raised}
    (h : call.perform tape t = .error e u) : u = t := by
  cases call with
  | bind name address => exact (failsInPlace_bind name address).map _ t e u h
  | assign name => exact (failsInPlace_assign tape name).map _ t e u h
  | assignAll => exact absurd rfl single
  | _ => cases h

/-- Binding fails for an address that another name has, and for a name that has another address. -/
theorem Regular.bind_error_iff (h : t.Regular) (name : String) (address : Int) :
    (∃ e u, bind name address t = .error e u) ↔
      (∃ owner, t.nameAt? address = some owner ∧ owner ≠ name) ∨
      ∃ previous, t.resolve? name = some previous ∧ previous ≠ address := by
  obtain ⟨ha, hb⟩ | ⟨ha, hn, hb⟩ | ⟨owner, ha, ho, hb⟩ | ⟨previous, ha, hn, hb⟩ :=
    bind_cases name address t
  · have hn := h.resolve?_iff.mpr (h.nameAt?_iff.mp ha)
    simp [hb, ha, hn]
  · simp [hb, ha, hn]
  · exact ⟨fun _ => .inl ⟨owner, ha, ho⟩, fun _ => ⟨_, _, hb⟩⟩
  · exact ⟨fun _ => .inr ⟨previous, hn, h.ne_of_free ha hn⟩, fun _ => ⟨_, _, hb⟩⟩

/-! ## Any number of calls -/

/-- The table after the calls, each in view of a tape. -/
def afterCalls (t : AliasTable) (calls : List (Tape × Call)) : AliasTable :=
  calls.foldl (fun t c => (c.2.perform c.1).final t) t

end AliasTable

/-- The two maps after the calls, each in view of a tape. -/
def TwoWay.afterCalls (d : TwoWay) (calls : List (Tape × AliasTable.Call)) : TwoWay :=
  calls.foldl (fun d c => (TwoWay.perform c.1 c.2).final d) d

namespace AliasTable

open NamedTape.Action (Tally)

variable {t : AliasTable}

theorem Regular.afterCalls (h : t.Regular) (calls : List (Tape × Call)) :
    (t.afterCalls calls).Regular ∧ t.mirror.afterCalls calls = (t.afterCalls calls).mirror := by
  induction calls generalizing t with
  | nil => exact ⟨h, rfl⟩
  | cons c rest ih =>
    have step : (TwoWay.perform c.1 c.2).final t.mirror = ((c.2.perform c.1).final t).mirror :=
      (tallies_perform c.1 c.2 t _ ⟨h, rfl⟩).final.2
    rw [TwoWay.afterCalls, List.foldl_cons, step]
    exact ih (h.perform c.1 c.2)

/-- **An alias table stays one-to-one.** After any calls on a table that knows some names, its
bindings go in both directions and belong to known names, and two maps that have been given the same
calls mirror them. One more call leaves them so, gives the same on the maps, and keeps the names
that stay bound in order; unless it is for all names, it changes nothing if it fails. A name is
refused an address just if one of them has another partner, and a shift moves the address of every
name. -/
theorem calls_keep_one_to_one (names : List String) (calls : List (Tape × Call)) :
    let t := (ofNames names).afterCalls calls
    (t.Consistent ∧ (ofNames names).mirror.afterCalls calls = t.mirror) ∧
    (∀ (tape : Tape) (call : Call), ((call.perform tape).final t).Consistent ∧
      t.KeepsOrder ((call.perform tape).final t) ∧
      Tally (fun u d => d = u.mirror) (· = ·) (call.perform tape t)
        (TwoWay.perform tape call t.mirror) ∧
      (call ≠ .assignAll → ∀ e u, call.perform tape t = .error e u → u = t)) ∧
    (∀ name address, (∃ e u, bind name address t = .error e u) ↔
      (∃ owner, t.nameAt? address = some owner ∧ owner ≠ name) ∨
      ∃ previous, t.resolve? name = some previous ∧ previous ≠ address) ∧
    ∀ offset name, (t.shift offset).resolve? name = (t.resolve? name).map (· + offset) := by
  intro t
  obtain ⟨regular, mirrors⟩ : t.Regular ∧ _ := (regular_ofNames names).afterCalls calls
  refine ⟨⟨regular.consistent, mirrors⟩, fun tape call => ⟨?_, ?_, ?_, ?_⟩,
    regular.bind_error_iff, t.resolve?_shift⟩
  · exact (regular.perform tape call).consistent
  · exact regular.keepsOrder tape call
  · exact (tallies_perform tape call t _ ⟨regular, rfl⟩).mono (fun _ _ h => h.2) fun _ _ h => h
  · exact fun single _ _ => eq_of_perform_error single

/-- The empty name at the first address and another below it, both moved further down. -/
def lowered : List (Tape × Call) :=
  [(.blank 2 .wrap .wrap, .bind "" 0), (.blank 2 .wrap .wrap, .bind "c" (-3)),
    (.blank 2 .wrap .wrap, .shift (-2))]

/-- A name is refused the address that the empty name has been moved to, and nothing changes. -/
theorem calls_keep_one_to_one_lowered :
    ∃ t, (ofNames ["b", "b", ""]).afterCalls lowered = t ∧ t.Consistent ∧
      t.names = ["b", "", "c"] ∧ t.bindings = [("", -2), ("c", -5)] ∧
      Call.bind "b" (-2) ≠ .assignAll ∧
      ∃ e, (Call.bind "b" (-2)).perform (.blank 2 .wrap .wrap) t = .error e t := by
  obtain ⟨⟨consistent, -⟩, step, -⟩ := calls_keep_one_to_one ["b", "b", ""] lowered
  have refused : ∃ e u, (Call.bind "b" (-2)).perform (.blank 2 .wrap .wrap)
      ((ofNames ["b", "b", ""]).afterCalls lowered) = .error e u := ⟨_, _, rfl⟩
  obtain ⟨e, u, he⟩ := refused
  have same := (step _ _).2.2.2 (by decide) e u he
  exact ⟨_, rfl, consistent, by decide, by decide, by decide, e, same ▸ he⟩

end AliasTable

end NamedTape
