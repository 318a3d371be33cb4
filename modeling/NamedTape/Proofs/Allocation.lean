import NamedTape.Proofs.History
import NamedTape.Proofs.Protocol
import NamedTape.Proofs.Reading

/-!
# Allocation

Names without an address are given the highest free cells in turn, and the first for which there is
none left is reported (`AliasTable.assignEach_eq`). On the blank tape that a program finds, these
are the cells from the end, so a run is not opened just if there are more names than cells
(`Session.allocation_takes_highest`).
-/

namespace NamedTape

namespace AliasTable

variable {t : AliasTable} {tape : Tape} {name : String} {address : Int}

/-- The addresses whose cells hold zero and which no name has, the highest first. -/
def free (t : AliasTable) (tape : Tape) : List Nat :=
  (List.range tape.size).reverse.filter fun address =>
    tape.cellAt address == 0 && (t.nameAt? address).isNone

/-- Those of the names that have no address, each where it comes first. -/
def unboundAmong (t : AliasTable) (names : List String) : List String :=
  (names.filter fun name => !t.contains name).eraseDups

/-- The known names that have no address. -/
def unbound (t : AliasTable) : List String := t.unboundAmong t.names

/-- The table with the addresses for the names, as far as there are any. -/
def giving (t : AliasTable) (names : List String) (addresses : List Nat) : AliasTable :=
  let given := names.zip (addresses.map fun address : Nat => (address : Int))
  { t with bindings := t.bindings ++ given }

/-- The table with the free addresses for the names that have none. -/
def assigned (t : AliasTable) (tape : Tape) : AliasTable := t.giving t.unbound (t.free tape)

theorem mem_free {a : Nat} :
    a ∈ t.free tape ↔ a < tape.size ∧ tape.cellAt a = 0 ∧ t.nameAt? a = none := by
  rw [free, List.mem_filter, List.mem_reverse, List.mem_range, Bool.and_eq_true, beq_iff_eq,
    Option.isNone_iff_eq_none]

/-- Free addresses are listed from the highest to the lowest. -/
theorem pairwise_free (t : AliasTable) (tape : Tape) : (t.free tape).Pairwise (· > ·) :=
  (List.pairwise_reverse.mpr List.pairwise_lt_range).filter _

theorem freeBelow?_eq (t : AliasTable) (tape : Tape) (limit : Nat) :
    t.freeBelow? tape limit = ((List.range limit).reverse.filter fun address =>
      tape.cellAt address == 0 && (t.nameAt? address).isNone).head? := by
  induction limit with
  | zero => rfl
  | succ limit ih =>
    rw [freeBelow?, List.range_succ, List.reverse_append, List.reverse_singleton,
      List.singleton_append, List.filter_cons]
    split
    · rfl
    · exact ih

/-- A name without an address is given the first of the free ones. -/
theorem assign_eq (tape : Tape) (name : String) (t : AliasTable) :
    assign tape name t =
      match t.resolve? name with
      | some address => .ok address t
      | none =>
        match (t.free tape).head? with
        | some address => .ok address (t.insert name address)
        | none => .error (.of (.noFreeCell name)) t := by
  rw [assign, freeBelow?_eq]
  rfl

/-- The highest free address is taken, and the others stay free. -/
theorem free_insert {a : Nat} {rest : List Nat} (h : t.free tape = a :: rest) (name : String) :
    (t.insert name a).free tape = rest := by
  have others : (t.insert name a).free tape = (t.free tape).filter (· ≠ a) := by
    rw [free, free, List.filter_filter]
    refine List.filter_congr fun b _ => ?_
    rw [nameAt?_insert]
    by_cases hb : b = a
    · simp [hb]
    · have apart : (a : Int) ≠ b := fun h => hb (Int.ofNat.inj h).symm
      simp [hb, apart]
  have below : ∀ b ∈ rest, a > b := (List.pairwise_cons.mp (h ▸ t.pairwise_free tape)).1
  rw [others, h, List.filter_cons_of_neg (by simp)]
  exact List.filter_eq_self.mpr fun b hb => decide_eq_true (Nat.ne_of_lt (below b hb))

theorem unboundAmong_cons_bound (h : t.contains name = true) (names : List String) :
    t.unboundAmong (name :: names) = t.unboundAmong names := by
  rw [unboundAmong, List.filter_cons, h]
  rfl

theorem unboundAmong_cons (h : t.contains name = false) (names : List String) (address : Int) :
    t.unboundAmong (name :: names) =
      name :: (t.insert name address).unboundAmong names := by
  rw [unboundAmong, List.filter_cons, h, Bool.not_false, if_pos rfl, List.eraseDups_cons,
    List.filter_filter, unboundAmong]
  refine congrArg (fun later => name :: List.eraseDups later) (List.filter_congr fun other _ => ?_)
  rw [contains_insert, Bool.not_or, Bool.and_comm]

/-- What giving addresses to names comes to. -/
theorem assignEach_eq (tape : Tape) (names : List String) (t : AliasTable)
    (known : ∀ name ∈ names, name ∈ t.names) :
    assignEach tape names t =
      match (t.unboundAmong names)[(t.free tape).length]? with
      | none => .ok () (t.giving (t.unboundAmong names) (t.free tape))
      | some name =>
        .error (.of (.noFreeCell name)) (t.giving (t.unboundAmong names) (t.free tape)) := by
  induction names generalizing t with
  | nil =>
    have none : t.unboundAmong [] = [] := rfl
    rw [none, List.getElem?_nil, giving, List.zip_nil_left, List.append_nil]
    rfl
  | cons name rest ih =>
    obtain ⟨hname, hrest⟩ := List.forall_mem_cons.mp known
    have first := assign_eq tape name t
    rw [assignEach]
    cases hr : t.resolve? name with
    | some address =>
      have bound : t.contains name = true := by rw [contains, hr]; rfl
      rw [hr] at first
      have given : discard (assign tape name) t = .ok ⟨⟩ t := Action.map_of_ok first _
      rw [Action.bind_of_ok given, unboundAmong_cons_bound bound]
      exact ih t hrest
    | none =>
      have missing : t.contains name = false := by rw [contains, hr]; rfl
      rw [hr] at first
      cases hf : t.free tape with
      | nil =>
        rw [hf] at first
        have failed : discard (assign tape name) t = .error _ t := Action.map_of_error first _
        rw [Action.bind_of_error failed, unboundAmong_cons missing rest 0, giving]
        simp
      | cons a more =>
        rw [hf] at first
        have given : discard (assign tape name) t = .ok ⟨⟩ (t.insert name a) :=
          Action.map_of_ok first _
        have names : (t.insert name a).names = t.names :=
          if_pos (List.contains_iff_mem.mpr hname)
        have later : ∀ us,
            (t.insert name a).giving us more = t.giving (name :: us) (a :: more) := by
          intro us
          rw [giving, giving, names]
          exact congrArg (AliasTable.mk t.names) (List.append_assoc ..)
        rw [Action.bind_of_ok given, unboundAmong_cons missing rest a, List.length_cons,
          List.getElem?_cons_succ, ih _ (names.symm ▸ hrest), free_insert hf, later]

theorem assignAll_eq (tape : Tape) (t : AliasTable) :
    assignAll tape t =
      match t.unbound[(t.free tape).length]? with
      | none => .ok () (t.assigned tape)
      | some name => .error (.of (.noFreeCell name)) (t.assigned tape) :=
  assignEach_eq tape t.names t fun _ h => h

/-! ## Who gets which address -/

theorem nodup_unbound (t : AliasTable) : t.unbound.Nodup := by
  rw [unbound, unboundAmong, ← distinct_eq_eraseDups]
  exact nodup_distinct _

theorem resolve?_of_mem_unbound (h : name ∈ t.unbound) : t.resolve? name = none := by
  have missing := (List.mem_filter.mp (List.mem_eraseDups.mp h)).2
  rw [Bool.not_eq_true', contains, Option.isSome_eq_false_iff] at missing
  exact Option.isNone_iff_eq_none.mp missing

theorem find?_zip {names : List String} {addresses : List Int} (distinct : names.Nodup) {i : Nat}
    (hn : names[i]? = some name) (ha : addresses[i]? = some address) :
    (names.zip addresses).find? (·.1 == name) = some (name, address) := by
  induction names generalizing addresses i with
  | nil => cases hn
  | cons other rest ih =>
    cases addresses with
    | nil => cases ha
    | cons first more =>
      rw [List.zip_cons_cons, List.find?_cons]
      cases i with
      | zero =>
        cases hn
        cases ha
        rw [beq_self_eq_true]
      | succ i =>
        have apart : other ≠ name := by
          rintro rfl
          exact (List.nodup_cons.mp distinct).1 (List.mem_of_getElem? hn)
        rw [beq_eq_false_iff_ne.mpr apart]
        exact ih distinct.of_cons hn ha

theorem resolve?_giving (t : AliasTable) (names : List String) (addresses : List Nat)
    (name : String) :
    (t.giving names addresses).resolve? name = (t.resolve? name).or
      (((names.zip (addresses.map fun address : Nat => (address : Int))).find? (·.1 == name)).map
        (·.2)) := by
  rw [resolve?, giving, List.find?_append, Option.map_or, resolve?]

/-- The names without an address are given the free ones in turn. -/
theorem resolve?_assigned {i a : Nat} (hn : t.unbound[i]? = some name)
    (ha : (t.free tape)[i]? = some a) : (t.assigned tape).resolve? name = some (a : Int) := by
  have address : ((t.free tape).map fun address : Nat => (address : Int))[i]? = some (a : Int) := by
    rw [List.getElem?_map, ha]
    rfl
  rw [assigned, resolve?_giving, resolve?_of_mem_unbound (List.mem_of_getElem? hn),
    find?_zip t.nodup_unbound hn address]
  rfl

theorem resolve?_assigned_of_bound (h : t.resolve? name = some address) :
    (t.assigned tape).resolve? name = some address := by
  rw [assigned, resolve?_giving, h]
  rfl

/-! ## Blank tapes -/

theorem unbound_clear (t : AliasTable) : t.clear.unbound = t.names.eraseDups :=
  congrArg List.eraseDups (List.filter_eq_self.mpr fun _ _ => rfl)

theorem free_clear (t : AliasTable) (tape : Tape) :
    t.clear.free tape.clear.realign = (List.range tape.size).reverse := by
  have size : tape.clear.realign.size = tape.size := Array.size_replicate
  rw [free, size]
  refine List.filter_eq_self.mpr fun address _ => ?_
  rw [tape.cellAt_clear]
  rfl

end AliasTable

namespace Store

variable {σ : Type}

/-- Every name without an address is given one: they get the highest free addresses in turn, until
none is left. All else stays as it is. -/
structure AllocatesHighest (s : Store σ) : Prop where
  free : ∀ a, a ∈ s.aliases.free s.tape ↔
    a < s.tape.size ∧ s.tape.cellAt a = 0 ∧ s.aliases.nameAt? a = none
  highest : (s.aliases.free s.tape).Pairwise (· > ·)
  all : onAliases AliasTable.assignAll s =
    match s.aliases.unbound[(s.aliases.free s.tape).length]? with
    | none => .ok () { s with aliases := s.aliases.assigned s.tape }
    | some name =>
      .error (.of (.noFreeCell name)) { s with aliases := s.aliases.assigned s.tape }
  each : ∀ (i : Nat) name (a : Nat), s.aliases.unbound[i]? = some name →
    (s.aliases.free s.tape)[i]? = some a →
      (s.aliases.assigned s.tape).resolve? name = some (a : Int)
  kept : ∀ name address, s.aliases.resolve? name = some address →
    (s.aliases.assigned s.tape).resolve? name = some address
  one : ∀ name, onAliases (AliasTable.assign · name) s =
    match s.aliases.resolve? name with
    | some address => .ok address s
    | none =>
      match (s.aliases.free s.tape).head? with
      | some address => .ok address { s with aliases := s.aliases.insert name address }
      | none => .error (.of (.noFreeCell name)) s

theorem allocatesHighest (s : Store σ) : s.AllocatesHighest where
  free a := AliasTable.mem_free
  highest := s.aliases.pairwise_free s.tape
  all := by
    rw [onAliases, AliasTable.assignAll_eq]
    cases s.aliases.unbound[(s.aliases.free s.tape).length]? with
    | none => rfl
    | some name => rfl
  each i name a := AliasTable.resolve?_assigned
  kept name address := AliasTable.resolve?_assigned_of_bound
  one name := by
    rw [onAliases, AliasTable.assign_eq]
    cases s.aliases.resolve? name with
    | some address => rfl
    | none =>
      cases (s.aliases.free s.tape).head? with
      | some address => rfl
      | none => rfl

end Store

namespace Session

variable {σ : Type} {program : Program} {aliases : Option AliasTable} {s : Session σ}

/-- The program that is given addresses for its names finds them in this store. -/
def allocated (program : Program) (aliases : Option AliasTable) (s : Session σ) : Store σ :=
  let store := (s.begin program aliases).store
  { store with aliases := store.aliases.assigned store.tape }

/-- The names of the program, each where it comes first. -/
def firstNames (program : Program) (aliases : Option AliasTable) : List String :=
  (knownNames program aliases).eraseDups

theorem unbound_begin (program : Program) (aliases : Option AliasTable) (s : Session σ) :
    (s.begin program aliases).store.aliases.unbound = firstNames program aliases :=
  AliasTable.unbound_clear _

theorem free_begin (program : Program) (aliases : Option AliasTable) (s : Session σ) :
    (s.begin program aliases).store.aliases.free (s.begin program aliases).store.tape =
      (List.range s.store.tape.size).reverse :=
  AliasTable.free_clear _ _

/-- A run is opened unless there are more names than cells. -/
theorem opening_eq (hp : s.options.preallocate = true) :
    opening program aliases s =
      match (firstNames program aliases)[s.store.tape.size]? with
      | none => .ok () (allocated program aliases s)
      | some name => .error (.of (.noFreeCell name)) (allocated program aliases s) := by
  have given := (s.begin program aliases).store.allocatesHighest.all
  rw [unbound_begin, free_begin, List.length_reverse, List.length_range] at given
  rw [opening, hp, if_pos rfl]
  exact given

/-- The names are bound to the cells from the end. -/
theorem resolve?_allocated {i : Nat} {name : String}
    (hn : (firstNames program aliases)[i]? = some name) (hi : i < s.store.tape.size) :
    (allocated program aliases s).aliases.resolve? name =
      some ((s.store.tape.size : Int) - 1 - i) := by
  have cell : (List.range s.store.tape.size).reverse[i]? = some (s.store.tape.size - 1 - i) := by
    rw [List.getElem?_reverse (by rwa [List.length_range]), List.length_range,
      List.getElem?_range (by omega)]
  have given := (s.begin program aliases).store.allocatesHighest.each i name _
    ((congrArg (·[i]?) (unbound_begin program aliases s)).trans hn)
    ((congrArg (·[i]?) (free_begin program aliases s)).trans cell)
  refine given.trans (congrArg some ?_)
  omega

/-- The run reports that the name gets no cell, and nothing comes before: no step is recorded, the
device is left alone, and the failure is all that hooks would have been called for. -/
def FailsUnopened (program : Program) (aliases : Option AliasTable) (s : Session σ)
    (name : String) : Prop :=
  ∃ f t, Executes program aliases s (.error (.fault f) t) ∧ f.cause = .noFreeCell name ∧
    t.log = s.log ∧ t.store.device = s.store.device ∧
    ∃ r, Executes program aliases s.watched r ∧
      (left r).chronicle = [.told (.failed (.of (.noFreeCell name)))]

section told

variable {hooks : StoreHooks σ} {log : Log Nat} {store : Store (Chronicled σ)}
  {r : EStateM.Result Raised (Session (Chronicled σ)) Mode} {told : List (Happening σ)}

/-- Of a run that has been opened the start is told first. -/
theorem Obeys.told_started (h : Obeys hooks program log (.ok () store) r told) :
    ∃ later, told = .told (.started program) :: later := by
  cases h with
  | underway => exact ⟨_, rfl⟩
  | ended => exact ⟨_, rfl⟩
  | failed => exact ⟨_, rfl⟩

/-- Of a run that cannot be opened nothing but the failure is told. -/
theorem Obeys.told_failed {e : Raised} (h : Obeys hooks program log (.error e store) r told) :
    told = [.told (.failed e)] := by
  cases h
  rfl

end told

section unhooked

variable (hooks : s.hooks = {}) (hp : s.options.preallocate = true)
include hooks hp

/-- What is told of a run that ends with a fault depends on whether the names have cells. -/
theorem told_of_fault {f : Fault} {t : Session σ}
    (h : Executes program aliases s (.error (.fault f) t)) :
    ∃ r, Executes program aliases s.watched r ∧
      match (firstNames program aliases)[s.store.tape.size]? with
      | none => ∃ later, (left r).chronicle = .told (.started program) :: later
      | some name => (left r).chronicle = [.told (.failed (.of (.noFreeCell name)))] := by
  obtain ⟨r, ⟨n, watched⟩, agree⟩ := h.twin s.hooks.chronicled_alike s.watches_watched
  have proper : ∀ u, executeFor n program aliases s.watched ≠ .error .interrupt u := by
    intro u hu
    rw [watched] at hu
    cases agree
    cases hu
  have returns : s.hooks.Return := by
    rw [hooks]
    exact ⟨nofun, nofun⟩
  have obeys := obeys_watched returns rfl rfl proper
  rw [watched, standing_ending] at obeys
  have opened := @opening_eq _ program aliases s.watched hp
  have size : s.watched.store.tape.size = s.store.tape.size := rfl
  refine ⟨r, ⟨n, watched⟩, ?_⟩
  cases hn : (firstNames program aliases)[s.store.tape.size]? with
  | none =>
    rw [size, hn] at opened
    exact (opened ▸ obeys).told_started
  | some name =>
    rw [size, hn] at opened
    exact (opened ▸ obeys).told_failed

theorem failsUnopened {name : String}
    (h : (firstNames program aliases)[s.store.tape.size]? = some name) :
    FailsUnopened program aliases s name := by
  have executes : Executes program aliases s (concluded (.error (.of (.noFreeCell name))
      ((s.begin program aliases).withStore (allocated program aliases s)))) := by
    rw [executes_iff hooks, opening_eq hp, h]
  obtain ⟨r, watched, told⟩ := told_of_fault hooks hp executes
  rw [h] at told
  exact ⟨_, _, executes, rfl, rfl, rfl, r, watched, told⟩

theorem eq_of_failsUnopened {name : String} (h : FailsUnopened program aliases s name) :
    (firstNames program aliases)[s.store.tape.size]? = some name := by
  obtain ⟨f, t, executes, -, -, -, r, watched, told⟩ := h
  obtain ⟨r', watched', told'⟩ := told_of_fault hooks hp executes
  rw [watched'.unique watched, told] at told'
  cases hn : (firstNames program aliases)[s.store.tape.size]? with
  | none =>
    rw [hn] at told'
    obtain ⟨_, hl⟩ := told'
    cases hl
  | some other =>
    rw [hn] at told'
    cases told'
    rfl

end unhooked

/-- **Names get the highest free cells in turn.** Whatever the tape and the table, the names without
an address get the highest free ones in order, and the first that is left without one is reported.
So a program without hooks whose aliases get their cells from the start finds its names at the cells
from the end, if there are enough; else the run fails before anything has happened, for the first
name that is one too many. -/
theorem allocation_takes_highest (hooks : s.hooks = {}) (hp : s.options.preallocate = true)
    (program : Program) (aliases : Option AliasTable) :
    (∀ store : Store σ, store.AllocatesHighest) ∧
    ((firstNames program aliases).length ≤ s.store.tape.size →
      ∃ t, executeFor 0 program aliases s = .ok .walking t ∧
        t.store.tape = s.store.tape.clear.realign ∧
        ∀ (i : Nat) name, (firstNames program aliases)[i]? = some name →
          t.store.aliases.resolve? name = some ((s.store.tape.size : Int) - 1 - i)) ∧
    ∀ name, FailsUnopened program aliases s name ↔
      (firstNames program aliases)[s.store.tape.size]? = some name := by
  refine ⟨Store.allocatesHighest, fun few => ?_, fun name =>
    ⟨eq_of_failsUnopened hooks hp, failsUnopened hooks hp⟩⟩
  have ho := @opening_eq _ program aliases s hp
  rw [List.getElem?_eq_none few] at ho
  refine ⟨(s.begin program aliases).withStore (allocated program aliases s), ?_, rfl,
    fun i name hn => ?_⟩
  · rw [executeFor_eq hooks, ho]
    rfl
  · have hi := (List.getElem?_eq_some_iff.mp hn).1
    exact resolve?_allocated hn (Nat.lt_of_lt_of_le hi few)

/-- A program that names aliases in this order. -/
def naming (names : List String) : Program where
  instructions := names.map fun name => .leaf (.goto name) ⟨0, 0⟩
  aliasNames := names

/-- On three cells there is none for a fourth name. Without it the others are bound from the end. -/
theorem allocation_takes_highest_cornered :
    cornered.hooks = {} ∧ cornered.options.preallocate = true ∧
      FailsUnopened (naming ["a", "b", "a", "c", "d"]) none cornered "d" ∧
      ∃ t, executeFor 0 (naming ["a", "b", "a", "c"]) none cornered = .ok .walking t ∧
        t.store.aliases.resolve? "a" = some 2 ∧ t.store.aliases.resolve? "c" = some 0 := by
  have names : firstNames (naming ["a", "b", "a", "c"]) none = ["a", "b", "c"] := by decide
  obtain ⟨-, -, fails⟩ :=
    allocation_takes_highest (s := cornered) rfl rfl (naming ["a", "b", "a", "c", "d"]) none
  obtain ⟨-, opens, -⟩ :=
    allocation_takes_highest (s := cornered) rfl rfl (naming ["a", "b", "a", "c"]) none
  obtain ⟨t, ht, -, bound⟩ := opens (by decide)
  exact ⟨rfl, rfl, (fails "d").mpr (by decide), t, ht, bound 0 "a" (by rw [names]; rfl),
    bound 2 "c" (by rw [names]; rfl)⟩

end Session

end NamedTape
