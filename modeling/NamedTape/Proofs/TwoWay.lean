import NamedTape.AliasTable.Call
import NamedTape.Proofs.Bindings

/-!
# Tables kept in two directions

An alias table can be kept as two maps, one from names to addresses and one from addresses to names.

* A table only grows by new bindings (`Grows`), unless it is shifted or cleared (`perform_cases`).
  So its names and its addresses stay distinct (`regular_perform`).
* The two maps of `TwoWay` are written separately, and a shift builds the one from the other. They
  stay mirror images, and every call gives what it gives on the table (`tallies_perform`).
-/

namespace NamedTape

namespace AliasTable

open NamedTape.Action (FailsInPlace Keeps Tallies)

variable {t u : AliasTable} {name : String} {address : Int}

theorem OneToOne.resolve?_iff (h : t.OneToOne) :
    t.resolve? name = some address ↔ (name, address) ∈ t.bindings := by
  refine ⟨mem_of_resolve?, fun hm => ?_⟩
  obtain ⟨other, ho⟩ := Binds.resolve? (List.mem_map_of_mem (f := (·.1)) hm)
  cases List.inj_on_of_nodup_map h.names (mem_of_resolve? ho) hm rfl
  exact ho

theorem OneToOne.nameAt?_iff (h : t.OneToOne) :
    t.nameAt? address = some name ↔ (name, address) ∈ t.bindings := by
  refine ⟨mem_of_nameAt?, fun hm => ?_⟩
  cases hn : t.nameAt? address with
  | none => exact absurd (List.mem_map_of_mem (f := (·.2)) hm) (not_mem_addresses hn)
  | some other =>
    cases List.inj_on_of_nodup_map h.addresses (mem_of_nameAt? hn) hm rfl
    rfl

/-- The address of a name is not one that no name has. -/
theorem OneToOne.ne_of_free (h : t.OneToOne) {previous : Int} (ha : t.nameAt? address = none)
    (hn : t.resolve? name = some previous) : previous ≠ address := by
  rintro rfl
  have owned := h.nameAt?_iff.mpr (h.resolve?_iff.mp hn)
  cases ha.symm.trans owned

/-- Names and addresses are distinct, and the bound names are known. -/
structure Regular (t : AliasTable) : Prop extends t.OneToOne where
  distinct : t.names.Nodup
  known : ∀ b ∈ t.bindings, b.1 ∈ t.names

theorem regular_ofNames (names : List String) : (ofNames names).Regular :=
  ⟨⟨.nil, .nil⟩, nodup_distinct names, nofun⟩

theorem Regular.insert (h : t.Regular) (hn : t.resolve? name = none)
    (ha : t.nameAt? address = none) : (t.insert name address).Regular := by
  have kept : ∀ other ∈ t.names, other ∈ (t.insert name address).names := by
    intro other ho
    rw [AliasTable.insert]
    split
    · exact ho
    · exact List.mem_append_left _ ho
  refine ⟨h.toOneToOne.insert hn ha, nodup_noted h.distinct name, ?_⟩
  · refine List.forall_mem_append.mpr ⟨fun b hb => kept _ (h.known b hb), ?_⟩
    refine List.forall_mem_singleton.mpr ?_
    rw [AliasTable.insert]
    split
    · next hc => exact List.contains_iff_mem.mp hc
    · exact List.mem_append_right _ List.mem_cons_self

/-! ## What calls do to a table -/

/-- The second table has bindings beyond those of the first, of new names to new addresses. -/
inductive Grows (t : AliasTable) : AliasTable → Prop
  | refl : Grows t t
  | insert {u : AliasTable} {name : String} {address : Int} (h : Grows t u)
    (hn : u.resolve? name = none) (ha : u.nameAt? address = none) :
    Grows t (u.insert name address)

theorem Grows.regular (h : t.Grows u) (ht : t.Regular) : u.Regular := by
  induction h with
  | refl => exact ht
  | insert _ hn ha ih => exact ih.insert hn ha

/-- What binding a name to an address comes to. -/
theorem bind_cases (name : String) (address : Int) (t : AliasTable) :
    (t.nameAt? address = some name ∧ bind name address t = .ok () t) ∨
    (t.nameAt? address = none ∧ t.resolve? name = none ∧
      bind name address t = .ok () (t.insert name address)) ∨
    (∃ owner, t.nameAt? address = some owner ∧ owner ≠ name ∧
      bind name address t = .error (.of (.addressTaken address owner)) t) ∨
    ∃ previous, t.nameAt? address = none ∧ t.resolve? name = some previous ∧
      bind name address t = .error (.of (.aliasBound name previous)) t := by
  unfold bind
  cases ha : t.nameAt? address with
  | some owner =>
    by_cases ho : owner = name
    · subst ho
      exact .inl ⟨rfl, if_pos rfl⟩
    · exact .inr (.inr (.inl ⟨owner, rfl, ho, if_neg ho⟩))
  | none =>
    cases hn : t.resolve? name with
    | none => exact .inr (.inl ⟨rfl, rfl, rfl⟩)
    | some previous => exact .inr (.inr (.inr ⟨previous, rfl, rfl, rfl⟩))

theorem failsInPlace_bind (name : String) (address : Int) : FailsInPlace (bind name address) := by
  intro t e u he
  obtain ⟨-, h⟩ | ⟨-, -, h⟩ | ⟨_, -, -, h⟩ | ⟨_, -, -, h⟩ := bind_cases name address t
  all_goals cases h.symm.trans he
  all_goals rfl

theorem failsInPlace_assign (tape : Tape) (name : String) : FailsInPlace (assign tape name) := by
  intro t e u he
  obtain ⟨_, -, h⟩ | ⟨_, -, -, -, h⟩ | ⟨-, h⟩ := assign_cases tape name t
  all_goals cases h.symm.trans he
  rfl

theorem grows_bind (t : AliasTable) (name : String) (address : Int) :
    Keeps t.Grows (bind name address) := by
  intro u h
  obtain ⟨-, hb⟩ | ⟨ha, hn, hb⟩ | ⟨_, -, -, hb⟩ | ⟨_, -, -, hb⟩ := bind_cases name address u
  · rw [hb]
    exact h
  · rw [hb]
    exact h.insert hn ha
  · rw [hb]
    exact h
  · rw [hb]
    exact h

theorem grows_assign (t : AliasTable) (tape : Tape) (name : String) :
    Keeps t.Grows (assign tape name) := by
  intro u h
  obtain ⟨_, -, ha⟩ | ⟨free, hn, -, hfree, ha⟩ | ⟨-, ha⟩ := assign_cases tape name u
  · rw [ha]
    exact h
  · rw [ha]
    exact h.insert hn hfree
  · rw [ha]
    exact h

theorem grows_assignEach (t : AliasTable) (tape : Tape) (names : List String) :
    Keeps t.Grows (assignEach tape names) := by
  induction names with
  | nil => exact .pure fun _ h => h
  | cons name rest ih =>
    have first : Keeps t.Grows (discard (assign tape name)) :=
      Action.Meets.map (R := fun _ => t.Grows) (grows_assign t tape name)
    exact first.bind fun _ => ih

/-- What a call leaves: a table that has grown, or has been shifted or cleared. -/
theorem perform_cases (tape : Tape) (call : Call) (t : AliasTable) :
    t.Grows ((call.perform tape).final t) ∨
    (∃ offset, call = .shift offset ∧ (call.perform tape).final t = t.shift offset) ∨
    (call.perform tape).final t = t.clear := by
  have grown : ∀ {α : Type} {act : Action AliasTable α} (f : α → Answer), Keeps t.Grows act →
      t.Grows ((f <$> act).final t) := fun f h =>
    (Action.Meets.map (f := f) (R := fun _ => t.Grows) h).final .refl
  cases call with
  | bind name address => exact .inl (grown _ (grows_bind t name address))
  | assign name => exact .inl (grown _ (grows_assign t tape name))
  | assignAll => exact .inl (grown _ fun u h => grows_assignEach t tape u.names u h)
  | shift offset => exact .inr (.inl ⟨offset, rfl, rfl⟩)
  | clear => exact .inr (.inr rfl)
  | resolve name => exact .inl .refl
  | nameAt address => exact .inl .refl
  | size => exact .inl .refl
  | contains name => exact .inl .refl

theorem Regular.shift (h : t.Regular) (offset : Int) : (t.shift offset).Regular := by
  refine ⟨h.toOneToOne.shift offset, h.distinct, fun b hb => ?_⟩
  obtain ⟨plain, hp, rfl⟩ := List.mem_map.mp hb
  exact h.known plain hp

theorem Regular.clear (h : t.Regular) : t.clear.Regular :=
  ⟨oneToOne_clear t, h.distinct, nofun⟩

/-- Every call leaves a regular table regular. -/
theorem Regular.perform (h : t.Regular) (tape : Tape) (call : Call) :
    ((call.perform tape).final t).Regular := by
  obtain grown | ⟨offset, -, hs⟩ | hc := perform_cases tape call t
  · exact grown.regular h
  · rw [hs]
    exact h.shift offset
  · rw [hc]
    exact h.clear

end AliasTable

/-! ## Two maps -/

/-- A table with its bindings in two directions. A key occurs once in either list. -/
structure TwoWay where
  names : List String
  byName : List (String × Int)
  byAddress : List (Int × String)

namespace TwoWay

section maps

variable {α β : Type} [DecidableEq α]

/-- The value under a key. -/
def get? (key : α) (entries : List (α × β)) : Option β :=
  (entries.find? (·.1 == key)).map (·.2)

/-- The entries with the value under the key, in its place if there is one already. -/
def put (key : α) (value : β) (entries : List (α × β)) : List (α × β) :=
  if (get? key entries).isSome then entries.map fun e => if e.1 = key then (key, value) else e
  else entries ++ [(key, value)]

variable {key : α} {value : β} {entries : List (α × β)}

theorem put_new (h : get? key entries = none) :
    put key value entries = entries ++ [(key, value)] := by
  rw [put, h]
  rfl

theorem mem_of_get? (h : get? key entries = some value) : (key, value) ∈ entries := by
  obtain ⟨e, he, rfl⟩ := Option.map_eq_some_iff.mp h
  have hkey : e.1 = key := by simpa using List.find?_some he
  exact hkey ▸ List.mem_of_find?_eq_some he

/-- Writing what is there already changes nothing. -/
theorem put_same (hn : (entries.map (·.1)).Nodup) (h : get? key entries = some value) :
    put key value entries = entries := by
  rw [put, h, Option.isSome_some, if_pos rfl]
  refine (List.map_congr_left fun e he => ?_).trans (List.map_id entries)
  split
  · next hkey => exact List.inj_on_of_nodup_map hn (mem_of_get? h) he hkey.symm
  · rfl

theorem get?_eq_none (h : key ∉ entries.map (·.1)) : get? key entries = none := by
  rw [get?, Option.map_eq_none_iff, List.find?_eq_none]
  intro e he hkey
  exact h (List.mem_map.mpr ⟨e, he, by simpa using hkey⟩)

end maps

/-- Binds a name in both directions, unless the address belongs to another name or the name to
another address. -/
def bind (name : String) (address : Int) : Action TwoWay Unit := fun d =>
  match (get? address d.byAddress).filter (· ≠ name) with
  | some owner => .error (.of (.addressTaken address owner)) d
  | none =>
    match (get? name d.byName).filter (· ≠ address) with
    | some previous => .error (.of (.aliasBound name previous)) d
    | none =>
      .ok () { names := if d.names.contains name then d.names else d.names ++ [name]
               byName := put name address d.byName
               byAddress := put address name d.byAddress }

/-- The highest address below `limit` whose cell holds zero and which no name has. -/
def freeBelow? (d : TwoWay) (tape : Tape) : (limit : Nat) → Option Nat
  | 0 => none
  | address + 1 =>
    if tape.cellAt address == 0 && (get? (address : Int) d.byAddress).isNone then some address
    else d.freeBelow? tape address

/-- The address of a name, which is bound to the highest free cell if it has none yet. -/
def assign (tape : Tape) (name : String) : Action TwoWay Int := fun d =>
  match get? name d.byName with
  | some address => .ok address d
  | none =>
    match d.freeBelow? tape tape.size with
    | some address => ((fun _ => (address : Int)) <$> bind name address) d
    | none => .error (.of (.noFreeCell name)) d

/-- Gives an address to each of the names in turn. -/
def assignEach (tape : Tape) : List String → Action TwoWay Unit
  | [] => pure ()
  | name :: rest => do
    discard (assign tape name)
    assignEach tape rest

/-- The map with the entries in the other direction, written one after another. -/
def reversed (entries : List (String × Int)) : List (Int × String) :=
  entries.foldl (fun map e => put e.2 e.1 map) []

/-- Moves all addresses in the map of the names, and makes the other map anew from it. -/
def shift (offset : Int) (d : TwoWay) : TwoWay :=
  if offset = 0 then d
  else
    let byName := d.byName.map fun (name, address) => (name, address + offset)
    { d with byName, byAddress := reversed byName }

/-- Carries out a call; names are given cells of the tape. -/
def perform (tape : Tape) : AliasTable.Call → Action TwoWay AliasTable.Answer
  | .bind n a => (fun _ => .nothing) <$> bind n a
  | .resolve n => fun d => .ok ((get? n d.byName).elim .nothing .number) d
  | .nameAt a => fun d => .ok ((get? a d.byAddress).elim .nothing .text) d
  | .assign n => .number <$> assign tape n
  | .assignAll => (fun _ => .nothing) <$> fun d => assignEach tape d.names d
  | .shift k => fun d => .ok .nothing (d.shift k)
  | .clear => fun d => .ok .nothing { d with byName := [], byAddress := [] }
  | .size => fun d => .ok (.number d.byName.length) d
  | .contains n => fun d => .ok (.truth (get? n d.byName).isSome) d

end TwoWay

/-! ## The mirror image -/

namespace AliasTable

open NamedTape.Action (Tallies)

/-- The table with its bindings in both directions. -/
def mirror (t : AliasTable) : TwoWay := ⟨t.names, t.bindings, t.bindings.map Prod.swap⟩

/-- The table is regular, and this is its mirror image. -/
def Mirrors (t : AliasTable) (d : TwoWay) : Prop := t.Regular ∧ d = t.mirror

variable {t : AliasTable} {name : String} {address : Int}

theorem get?_byName (t : AliasTable) (name : String) :
    TwoWay.get? name t.mirror.byName = t.resolve? name := rfl

theorem get?_byAddress (t : AliasTable) (address : Int) :
    TwoWay.get? address t.mirror.byAddress = t.nameAt? address := by
  rw [TwoWay.get?, mirror, List.find?_map, Option.map_map, nameAt?]
  rfl

theorem keys_byAddress (t : AliasTable) :
    t.mirror.byAddress.map (·.1) = t.bindings.map (·.2) := by
  rw [mirror, List.map_map]
  rfl

theorem mirror_insert (t : AliasTable) (name : String) (address : Int) :
    (t.insert name address).mirror =
      ⟨if t.names.contains name then t.names else t.names ++ [name],
        t.mirror.byName ++ [(name, address)], t.mirror.byAddress ++ [(address, name)]⟩ := by
  rw [mirror, insert, List.map_append]
  rfl

/-- Binding a name writes both maps alike. -/
theorem tallies_bind (name : String) (address : Int) :
    Tallies Mirrors (· = ·) (bind name address) (TwoWay.bind name address) := by
  rintro t _ ⟨ht, rfl⟩
  have byName := t.get?_byName name
  have byAddress := t.get?_byAddress address
  unfold TwoWay.bind
  rw [byName, byAddress]
  obtain ⟨ha, hb⟩ | ⟨ha, hn, hb⟩ | ⟨owner, ha, ho, hb⟩ | ⟨previous, ha, hn, hb⟩ :=
    bind_cases name address t
  · have hm := ht.nameAt?_iff.mp ha
    have hn := ht.resolve?_iff.mpr hm
    have known : t.mirror.names.contains name = true := List.contains_iff_mem.mpr (ht.known _ hm)
    have sameNames : TwoWay.put name address t.mirror.byName = t.mirror.byName :=
      TwoWay.put_same ht.names (byName.trans hn)
    have sameAddresses : TwoWay.put address name t.mirror.byAddress = t.mirror.byAddress :=
      TwoWay.put_same (t.keys_byAddress ▸ ht.addresses) (byAddress.trans ha)
    rw [hb, ha, hn, Option.filter_some_neg (by simp), Option.filter_some_neg (by simp), sameNames,
      sameAddresses, if_pos known]
    exact .ok ⟨ht, rfl⟩
  · rw [hb, ha, hn, TwoWay.put_new (byName.trans hn), TwoWay.put_new (byAddress.trans ha)]
    exact .ok ⟨ht.insert hn ha, (t.mirror_insert name address).symm⟩
  · rw [hb, ha, Option.filter_some_pos (by simpa using ho)]
    exact .error ⟨ht, rfl⟩ rfl
  · have elsewhere := ht.ne_of_free ha hn
    rw [hb, ha, hn, Option.filter_none, Option.filter_some_pos (by simpa using elsewhere)]
    exact .error ⟨ht, rfl⟩ rfl

theorem freeBelow?_mirror (t : AliasTable) (tape : Tape) (limit : Nat) :
    t.mirror.freeBelow? tape limit = t.freeBelow? tape limit := by
  induction limit with
  | zero => rfl
  | succ limit ih => rw [TwoWay.freeBelow?, freeBelow?, get?_byAddress, ih]

theorem tallies_assign (tape : Tape) (name : String) :
    Tallies Mirrors (· = ·) (assign tape name) (TwoWay.assign tape name) := by
  rintro t _ ⟨ht, rfl⟩
  unfold assign TwoWay.assign
  rw [get?_byName, freeBelow?_mirror]
  cases hn : t.resolve? name with
  | some address => exact .ok ⟨ht, rfl⟩
  | none =>
    cases hf : t.freeBelow? tape tape.size with
    | none => exact .error ⟨ht, rfl⟩ rfl
    | some free =>
      obtain ⟨-, -, ha⟩ := freeBelow?_some hf
      have bound : bind name free t = .ok () (t.insert name free) := by
        unfold bind
        rw [ha, hn]
      obtain ⟨d, hd, hmirror⟩ := (tallies_bind name free).ok ⟨ht, rfl⟩ bound
      dsimp only
      rw [Action.map_of_ok hd]
      exact .ok hmirror

theorem tallies_assignEach (tape : Tape) (names : List String) :
    Tallies Mirrors (· = ·) (assignEach tape names) (TwoWay.assignEach tape names) := by
  induction names with
  | nil => exact .pure ()
  | cons name rest ih => exact ((tallies_assign tape name).map _).bind fun _ => ih

/-- Writing new keys one after another puts them behind what is there. -/
theorem foldl_put (entries : List (String × Int)) {map : List (Int × String)}
    (h : (map.map (·.1) ++ entries.map (·.2)).Nodup) :
    entries.foldl (fun map e => TwoWay.put e.2 e.1 map) map = map ++ entries.map Prod.swap := by
  induction entries generalizing map with
  | nil => exact (List.append_nil map).symm
  | cons e rest ih =>
    rw [List.map_cons] at h
    have new : TwoWay.get? e.2 map = none := TwoWay.get?_eq_none fun hm =>
      List.disjoint_of_nodup_append h hm List.mem_cons_self
    rw [List.foldl_cons, TwoWay.put_new new, ih, List.map_cons, List.append_assoc]
    · rfl
    · rw [List.map_append, List.append_assoc]
      exact h

theorem mirror_shift (h : t.Regular) (offset : Int) :
    t.mirror.shift offset = (t.shift offset).mirror := by
  unfold TwoWay.shift
  split
  · next hzero =>
    have same : t.shift 0 = t := by simp [AliasTable.shift]
    rw [hzero, same]
  · have written : TwoWay.reversed (t.shift offset).bindings = (t.shift offset).mirror.byAddress :=
      foldl_put _ (h.shift offset).addresses
    exact congrArg (TwoWay.mk t.names (t.shift offset).bindings) written

/-- **Every call gives the same in either form**, and leaves mirror images. -/
theorem tallies_perform (tape : Tape) (call : Call) :
    Tallies Mirrors (· = ·) (call.perform tape) (TwoWay.perform tape call) := by
  cases call with
  | bind name address => exact (tallies_bind name address).map _
  | assign name => exact (tallies_assign tape name).map _
  | assignAll =>
    have all : Tallies Mirrors (· = ·) (assignAll tape)
        fun d => TwoWay.assignEach tape d.names d := by
      rintro t _ ⟨ht, rfl⟩
      exact tallies_assignEach tape t.names t _ ⟨ht, rfl⟩
    exact all.map _
  | shift offset =>
    rintro t _ ⟨ht, rfl⟩
    exact .ok ⟨ht.shift offset, mirror_shift ht offset⟩
  | clear =>
    rintro t _ ⟨ht, rfl⟩
    exact .ok ⟨ht.clear, rfl⟩
  | resolve name =>
    rintro t _ ⟨ht, rfl⟩
    exact .ok ⟨ht, rfl⟩
  | nameAt address =>
    rintro t _ ⟨ht, rfl⟩
    have same := t.get?_byAddress address
    simp only [Call.perform, TwoWay.perform, same]
    exact .ok ⟨ht, rfl⟩
  | size =>
    rintro t _ ⟨ht, rfl⟩
    exact .ok ⟨ht, rfl⟩
  | contains name =>
    rintro t _ ⟨ht, rfl⟩
    exact .ok ⟨ht, rfl⟩

end AliasTable

end NamedTape
