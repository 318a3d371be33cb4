import NamedTape.Proofs.Blocks
import NamedTape.Proofs.Soundness

/-!
# Merging from a worklist

Loops can be merged without recursion into their bodies. The lists that are made have numbers, a
loop in a list names its body by number, and what is yet to be read lies on a stack, each body with
the number of the list that it fills.

* Reading a body appends its blocks to the list it fills, each joined. For a loop among them there
  is a new list, still empty, and its body goes on the stack (`Agenda.place`).
* So lists stand in other lists before they are filled. What a list holds and what is still owed to
  it make up what it is meant to hold (`Agenda.Foretells`), and every entry keeps this
  (`Agenda.Foretold.place`). Once nothing is owed the first list is the merged program
  (`worklist_merges_blocks`).
-/

namespace NamedTape

namespace Instruction

variable {i : Instruction} {l body : List Instruction}

/-! ## Reading a list from left to right -/

/-- The list with every block joined, read from left to right: what has the counted operation of
the first instruction is taken with it. -/
def scan : List Instruction → List Instruction
  | [] => []
  | i :: rest =>
    match i.counted? with
    | none => i :: scan rest
    | some kind =>
      joined (i :: rest.takeWhile (·.counted? = some kind)) ++
        scan (rest.dropWhile (·.counted? = some kind))
termination_by l => l.length
decreasing_by
  · exact Nat.lt_succ_self _
  · exact Nat.lt_succ_of_le ((List.dropWhile_sublist _).length_le)

theorem separates_of_counted? (h : i.counted? = none) : i.Separates := by
  rcases separates_or i with hi | ⟨kind, n, span, rfl⟩
  · exact hi
  · cases h

theorem scan_eq_condense (l : List Instruction) : scan l = condense l := by
  induction l using scan.induct with
  | case1 => rw [scan, condense_nil]
  | case2 i rest h ih =>
    rw [scan, h, ih]
    exact (condense_separates (separates_of_counted? h) [] rest).symm
  | case3 i rest kind h ih =>
    rw [scan, h]
    have counted : ∀ j ∈ i :: rest.takeWhile (·.counted? = some kind), j.counted? = some kind :=
      List.forall_mem_cons.mpr ⟨h, fun j hj =>
        of_decide_eq_true (List.all_eq_true.mp List.all_takeWhile j hj)⟩
    have apart : ∀ j ∈ (i :: rest.takeWhile (·.counted? = some kind)).getLast?,
        ∀ k ∈ (rest.dropWhile (·.counted? = some kind)).head?, joins j k = false := by
      intro j hj k hk
      refine Apart.joins_eq_false fun kind' first second => ?_
      have same := counted j (List.mem_of_getLast? hj)
      have differs := List.head?_dropWhile_not (·.counted? = some kind) rest
      rw [Option.mem_def.mp hk] at differs
      exact of_decide_eq_false differs (second.trans (first.symm.trans same))
    dsimp only
    rw [ih, ← condense_block (List.cons_ne_nil _ _) (chain_of_counted counted),
      ← condense_append apart, List.cons_append, List.takeWhile_append_dropWhile]

/-! ## The worklist -/

mutual

/-- How many loops the instruction is made of, itself included. -/
def loopsOne : Instruction → Nat
  | leaf .. => 0
  | loop body _ => loops body + 1

/-- How many loops there are in the list, at any depth. -/
def loops : List Instruction → Nat
  | [] => 0
  | i :: rest => i.loopsOne + loops rest

end

theorem loops_eq_sum (l : List Instruction) : loops l = (l.map loopsOne).sum := by
  induction l with
  | nil => rw [loops, List.map_nil, List.sum_nil]
  | cons i rest ih => rw [loops, ih, List.map_cons, List.sum_cons]

theorem loops_scan (l : List Instruction) : loops (scan l) = loops l := by
  have none : ∀ i : Instruction, i.counted? ≠ none → i.loopsOne = 0 := by
    rintro (_ | _) h
    · rw [loopsOne]
    · exact absurd rfl h
  rw [scan_eq_condense, loops_eq_sum, sum_condense none, loops_eq_sum]

/-- An entry of a list that is being made. -/
inductive Entry
  | leaf (operation : Operation) (span : Span)
  /-- A loop whose body is the list with the number. -/
  | loop (number : Nat) (span : Span)

/-- The instruction that the entry is, given what the lists hold. -/
def Entry.read (contents : Nat → List Instruction) : Entry → Instruction
  | leaf operation span => .leaf operation span
  | loop number span => .loop (contents number) span

/-- The lists that have been made so far, and what is yet to be read. -/
structure Agenda where
  lists : List (List Entry)
  /-- Each body with the number of the list that it fills, the latest first. -/
  pending : List (List Instruction × Nat)

namespace Agenda

/-- The first list is to be filled from the program. -/
def start (program : List Instruction) : Agenda := ⟨[[]], [(program, 0)]⟩

/-- Puts an entry at the end of a list. -/
def append (target : Nat) (a : Agenda) (entry : Entry) : Agenda :=
  { a with lists := a.lists.modify target (· ++ [entry]) }

/-- Puts a body off, to fill a list of its own. -/
def defer (a : Agenda) (body : List Instruction) : Agenda :=
  ⟨a.lists ++ [[]], (body, a.lists.length) :: a.pending⟩

/-- Puts an instruction at the end of a list, without the body if it is a loop. -/
def place (target : Nat) (a : Agenda) : Instruction → Agenda
  | .leaf operation span => a.append target (.leaf operation span)
  | .loop body span => (a.defer body).append target (.loop a.lists.length span)

/-- Reads a body into a list. -/
def fill (a : Agenda) (body : List Instruction) (target : Nat) : Agenda :=
  (scan body).foldl (place target) a

/-- How many bodies are going to be read. -/
def work (a : Agenda) : Nat := (a.pending.map fun p => loops p.1 + 1).sum

theorem work_place (target : Nat) (a : Agenda) (i : Instruction) :
    (a.place target i).work = i.loopsOne + a.work := by
  cases i with
  | leaf operation span => rw [loopsOne, Nat.zero_add]; rfl
  | loop body span => rw [loopsOne]; rfl

theorem work_foldl_place (target : Nat) (a : Agenda) (l : List Instruction) :
    (l.foldl (place target) a).work = loops l + a.work := by
  induction l generalizing a with
  | nil => rw [loops, Nat.zero_add, List.foldl_nil]
  | cons i rest ih => rw [List.foldl_cons, ih, work_place, loops]; omega

theorem work_fill (a : Agenda) (body : List Instruction) (target : Nat) :
    (a.fill body target).work = loops body + a.work := by
  rw [fill, work_foldl_place, loops_scan]

/-- The lists, when all that is pending has been read, the latest first. -/
def run : Agenda → List (List Entry)
  | ⟨lists, []⟩ => lists
  | ⟨lists, (body, target) :: pending⟩ => run (fill ⟨lists, pending⟩ body target)
termination_by a => a.work
decreasing_by
  rw [work_fill, work, work, List.map_cons, List.sum_cons]
  exact Nat.lt_of_lt_of_eq (Nat.lt_add_one _) (Nat.add_right_comm ..)

/-- What the list with the number holds, with the bodies of loops read down to a depth. -/
def contents (lists : List (List Entry)) : Nat → Nat → List Instruction
  | 0, _ => []
  | depth + 1, number => (lists.getD number []).map (Entry.read (contents lists depth))

/-- The program merged from a worklist. -/
def merged (program : List Instruction) : List Instruction :=
  contents (start program).run (start program).run.length 0

/-! ## What the lists are meant to hold -/

/-- What the pending bodies are going to add to the list with the number. -/
def owed (pending : List (List Instruction × Nat)) (number : Nat) : List Instruction :=
  pending.flatMap fun p => if number = p.2 then condensed p.1 else []

/-- What the lists hold, what the list `target` is about to be given, and what is owed to the lists
make up what they are meant to hold. -/
structure Foretells (meant : Nat → List Instruction) (target : Nat) (next : List Instruction)
    (a : Agenda) : Prop where
  /-- Nothing is lost, and the order is kept. -/
  whole : ∀ number entries, a.lists[number]? = some entries →
    entries.map (Entry.read meant) ++ ((if number = target then next else []) ++
      owed a.pending number) = meant number
  /-- The body of a loop is a list made later. -/
  forward : ∀ number entries, a.lists[number]? = some entries →
    ∀ later span, .loop later span ∈ entries → number < later ∧ later < a.lists.length
  target_lt : target < a.lists.length
  pending_lt : ∀ p ∈ a.pending, p.2 < a.lists.length

variable {meant : Nat → List Instruction} {target : Nat} {next : List Instruction} {a : Agenda}

/-- The only list is empty, and it has the number zero. -/
theorem of_getElem?_single {number : Nat} {entries : List Entry}
    (h : ([[]] : List (List Entry))[number]? = some entries) : number = 0 ∧ entries = [] := by
  rw [List.getElem?_singleton] at h
  split at h
  · next hzero => exact ⟨hzero, (Option.some.inj h).symm⟩
  · cases h

theorem lt_of_getElem? {entries : List Entry} {number : Nat} (h : a.lists[number]? = some entries) :
    number < a.lists.length :=
  (List.getElem?_eq_some_iff.mp h).1

/-- An entry that is appended is behind what its list held, and other lists hold what they held. -/
theorem entries_of_append {entry : Entry} {number : Nat} {entries : List Entry}
    (h : (a.append target entry).lists[number]? = some entries) :
    ∃ before, a.lists[number]? = some before ∧
      entries = if target = number then before ++ [entry] else before := by
  obtain ⟨before, hb, rfl⟩ := Option.map_eq_some_iff.mp (List.getElem?_modify .. ▸ h)
  exact ⟨before, hb, rfl⟩

/-- The list of a body that is put off is the last one, and empty. -/
theorem entries_of_defer {body : List Instruction} {number : Nat} {entries : List Entry}
    (h : (a.defer body).lists[number]? = some entries) :
    a.lists[number]? = some entries ∨ number = a.lists.length ∧ entries = [] := by
  rw [Agenda.defer, List.getElem?_append] at h
  split at h
  · exact .inl h
  · obtain ⟨hzero, rfl⟩ := of_getElem?_single h
    exact .inr ⟨by omega, rfl⟩

/-- An entry that reads as what is to come next takes its place. -/
theorem Foretells.append {entry : Entry} (h : a.Foretells meant target (entry.read meant :: next))
    (forward : ∀ later span, entry = .loop later span → target < later ∧ later < a.lists.length) :
    (a.append target entry).Foretells meant target next := by
  have length : (a.append target entry).lists.length = a.lists.length := List.length_modify ..
  refine ⟨fun number entries hn => ?_, fun number entries hn later span hm => ?_,
    length ▸ h.target_lt, length ▸ h.pending_lt⟩
  · obtain ⟨before, hb, rfl⟩ := entries_of_append hn
    rw [← h.whole number before hb]
    by_cases ht : target = number
    · subst ht
      simp only [if_true, List.map_append, List.map_singleton, List.append_assoc,
        List.cons_append]
      rfl
    · rw [if_neg ht, if_neg (Ne.symm ht), if_neg (Ne.symm ht)]
      rfl
  · obtain ⟨before, hb, rfl⟩ := entries_of_append hn
    rw [length]
    split at hm
    · next ht =>
      rcases List.mem_append.mp hm with hm | hm
      · exact h.forward number before hb later span hm
      · exact ht ▸ forward later span (List.mem_singleton.mp hm).symm
    · exact h.forward number before hb later span hm

/-- The meaning of the lists, with one more list that is meant to hold a program. -/
def extended (meant : Nat → List Instruction) (number : Nat) (program : List Instruction) :
    Nat → List Instruction :=
  fun k => if k = number then program else meant k

theorem owed_cons (body : List Instruction) (target : Nat) (pending : List (List Instruction × Nat))
    (number : Nat) :
    owed ((body, target) :: pending) number =
      (if number = target then condensed body else []) ++ owed pending number :=
  List.flatMap_cons

theorem owed_of_lt {pending : List (List Instruction × Nat)} {number : Nat}
    (h : ∀ p ∈ pending, p.2 < number) : owed pending number = [] :=
  List.flatMap_eq_nil_iff.mpr fun p hp => if_neg (Nat.ne_of_gt (h p hp))

/-- Where lists refer to known lists only, a new list does not change what they read as. -/
theorem map_read_extended {entries : List Entry} {number : Nat}
    (h : ∀ later span, .loop later span ∈ entries → later < number)
    (meant : Nat → List Instruction) (program : List Instruction) :
    entries.map (Entry.read (extended meant number program)) = entries.map (Entry.read meant) := by
  refine List.map_congr_left fun entry he => ?_
  cases entry with
  | leaf operation span => rfl
  | loop later span =>
    rw [Entry.read, Entry.read, extended, if_neg (Nat.ne_of_lt (h later span he))]

/-- A body that is put off is owed to its list, which is meant to hold what it is merged to. -/
theorem Foretells.defer (h : a.Foretells meant target next) (body : List Instruction) :
    (a.defer body).Foretells (extended meant a.lists.length (condensed body)) target next := by
  have length : (a.defer body).lists.length = a.lists.length + 1 := List.length_append
  refine ⟨fun number entries hn => ?_, fun number entries hn later span hm => ?_, ?_, ?_⟩
  · have owes : owed (a.defer body).pending number =
        (if number = a.lists.length then condensed body else []) ++ owed a.pending number :=
      owed_cons body a.lists.length a.pending number
    rw [owes, extended]
    rcases entries_of_defer hn with hn | ⟨rfl, rfl⟩
    · rw [if_neg (Nat.ne_of_lt (lt_of_getElem? hn)), if_neg (Nat.ne_of_lt (lt_of_getElem? hn)),
        map_read_extended fun later span hm => (h.forward number entries hn later span hm).2]
      exact h.whole number entries hn
    · rw [if_pos rfl, if_pos rfl, if_neg (Nat.ne_of_gt h.target_lt), owed_of_lt h.pending_lt,
        List.append_nil]
      rfl
  · rcases entries_of_defer hn with hn | ⟨-, rfl⟩
    · obtain ⟨behind, known⟩ := h.forward number entries hn later span hm
      exact ⟨behind, length ▸ Nat.lt_succ_of_lt known⟩
    · cases hm
  · exact length ▸ Nat.lt_succ_of_lt h.target_lt
  · rw [length]
    refine List.forall_mem_cons.mpr ⟨Nat.lt_succ_self _, fun p hp => ?_⟩
    exact Nat.lt_succ_of_lt (h.pending_lt p hp)

/-- What the first list is meant to hold is the program, for some meaning of the others. -/
def Foretold (program : List Instruction) (target : Nat) (next : List Instruction) (a : Agenda) :
    Prop :=
  ∃ meant, meant 0 = program ∧ a.Foretells meant target next

variable {program : List Instruction}

/-- Every entry keeps what the first list is meant to hold. -/
theorem Foretold.place {i : Instruction}
    (h : a.Foretold program target (i.condensedOne :: next)) :
    (a.place target i).Foretold program target next := by
  obtain ⟨meant, first, h⟩ := h
  cases i with
  | leaf operation span =>
    rw [condensedOne] at h
    exact ⟨meant, first, Foretells.append h nofun⟩
  | loop body span =>
    have later := h.defer body
    have zero : 0 ≠ a.lists.length := Nat.ne_of_lt (Nat.zero_lt_of_lt h.target_lt)
    refine ⟨extended meant a.lists.length (condensed body), (if_neg zero).trans first, ?_⟩
    show ((a.defer body).append target (.loop a.lists.length span)).Foretells _ target next
    refine Foretells.append ?_ ?_
    · rw [Entry.read, extended, if_pos rfl]
      rwa [condensedOne] at later
    · intro number span' he
      cases he
      exact ⟨h.target_lt, by rw [Agenda.defer, List.length_append]; exact Nat.lt_succ_self _⟩

theorem Foretold.foldl_place (h : a.Foretold program target (l.map condensedOne)) :
    (l.foldl (Agenda.place target) a).Foretold program target [] := by
  induction l generalizing a with
  | nil => exact h
  | cons i rest ih => exact ih h.place

/-- A body is read into the list to which it is owed. -/
theorem Foretold.fill {lists : List (List Entry)} {body : List Instruction} {other : Nat}
    {pending : List (List Instruction × Nat)}
    (h : Foretold program other [] ⟨lists, (body, target) :: pending⟩) :
    (Agenda.fill ⟨lists, pending⟩ body target).Foretold program target [] := by
  obtain ⟨meant, first, h⟩ := h
  refine Foretold.foldl_place ⟨meant, first, ?_⟩
  refine ⟨fun number entries hn => ?_, h.forward, h.pending_lt _ List.mem_cons_self,
    fun p hp => h.pending_lt p (List.mem_cons_of_mem _ hp)⟩
  have whole := h.whole number entries hn
  rwa [ite_self, List.nil_append, owed_cons, condensed_eq_map, ← scan_eq_condense] at whole

/-- When nothing is pending, every list holds what it is meant to. -/
theorem Foretold.run (h : a.Foretold program target []) :
    Foretold program 0 [] ⟨a.run, []⟩ := by
  induction a using Agenda.run.induct generalizing target with
  | case1 lists =>
    obtain ⟨meant, first, h⟩ := h
    rw [Agenda.run]
    refine ⟨meant, first, fun number entries hn => ?_, h.forward,
      Nat.zero_lt_of_lt h.target_lt, h.pending_lt⟩
    have whole := h.whole number entries hn
    rwa [ite_self] at whole ⊢
  | case2 lists body target' pending ih =>
    rw [Agenda.run]
    exact ih h.fill

theorem Foretells.contents {lists : List (List Entry)} (h : Foretells meant target [] ⟨lists, []⟩)
    {depth number : Nat} (hn : number < lists.length) (hd : lists.length ≤ number + depth) :
    contents lists depth number = meant number := by
  induction depth generalizing number with
  | zero => omega
  | succ depth ih =>
    have entries := List.getElem?_eq_getElem hn
    have whole := h.whole number lists[number] entries
    rw [ite_self, List.nil_append, owed, List.flatMap_nil, List.append_nil] at whole
    rw [Agenda.contents, List.getD_eq_getElem?_getD, entries, Option.getD_some, ← whole]
    refine List.map_congr_left fun entry he => ?_
    cases entry with
    | leaf operation span => rfl
    | loop later span =>
      obtain ⟨behind, known⟩ := h.forward number lists[number] entries later span he
      rw [Entry.read, Entry.read, ih known (by omega)]

theorem foretold_start (program : List Instruction) :
    (start program).Foretold (condensed program) 0 [] := by
  refine ⟨fun _ => condensed program, rfl, fun number entries hn => ?_,
    fun number entries hn later span hm => ?_, Nat.one_pos,
    List.forall_mem_singleton.mpr Nat.one_pos⟩
  · obtain ⟨rfl, rfl⟩ := of_getElem?_single hn
    exact List.append_nil _
  · obtain ⟨-, rfl⟩ := of_getElem?_single hn
    cases hm

theorem merged_eq_condensed (program : List Instruction) : merged program = condensed program := by
  obtain ⟨meant, first, h⟩ := (foretold_start program).run
  exact (h.contents h.target_lt (Nat.le_add_left _ _)).trans first

end Agenda

/-! ## What merging keeps -/

mutual

/-- The instruction one unit at a time, without its places in the text. -/
def unrolledOne : Instruction → List Instruction
  | leaf (.counted kind n) _ => List.replicate n.toNat (leaf (.counted kind 1) ⟨0, 0⟩)
  | leaf operation _ => [leaf operation ⟨0, 0⟩]
  | loop body _ => [loop (unrolled body) ⟨0, 0⟩]

/-- The instructions one unit at a time, without their places in the text. -/
def unrolled : List Instruction → List Instruction
  | [] => []
  | i :: rest => i.unrolledOne ++ unrolled rest

end

theorem unrolled_append (l m : List Instruction) :
    unrolled (l ++ m) = unrolled l ++ unrolled m := by
  induction l with
  | nil => rw [unrolled, List.nil_append, List.nil_append]
  | cons i rest ih => rw [List.cons_append, unrolled, unrolled, ih, List.append_assoc]

variable {placed : Prop} {m : List Instruction}

/-- Joined neighbours make up as many units as they did before. -/
theorem Fuses.unrolled_eq (h : Fuses placed l m) (hl : EachLeaf Operation.Nonneg l) :
    unrolled l = unrolled m := by
  induction h with
  | refl l => rfl
  | trans first _ ih ih' =>
    exact (ih hl).trans (ih' (first.eachLeaf (fun _ _ _ => Int.add_nonneg) hl))
  | append _ _ ih ih' =>
    rw [unrolled_append, unrolled_append, ih (hl.of_subset fun _ => List.mem_append_left _),
      ih' (hl.of_subset fun _ => List.mem_append_right _)]
  | loop span _ ih => simp only [unrolled, unrolledOne, ih hl.of_loop]
  | join kind m n _ =>
    have first : 0 ≤ m := hl.of_leaf
    have second : 0 ≤ n := hl.tail.of_leaf
    simp only [unrolled, unrolledOne, List.append_nil, List.replicate_append_replicate,
      Int.toNat_add first second]

/-- Joining neighbours does not touch the names. -/
theorem Fuses.gotos_eq (h : Fuses placed l m) : gotos l = gotos m := by
  induction h with
  | refl l => rfl
  | trans _ _ ih ih' => exact ih.trans ih'
  | append _ _ ih ih' => rw [gotos_append, gotos_append, ih, ih']
  | loop span _ ih => simp only [gotos, gotosOne, ih]
  | join kind m n _ => simp only [gotos, gotosOne, List.append_nil]

/-- **A worklist merges the blocks at every depth.** It makes the program that merging makes, which
is the program with every block joined, in every body. If no count is negative, the units are the
same as before, and in the same places; the names are in any case. -/
theorem worklist_merges_blocks (program : List Instruction) :
    Agenda.merged program = merge program ∧ merge program = condensed program ∧
      (EachLeaf Operation.Nonneg program → unrolled (merge program) = unrolled program) ∧
      gotos (merge program) = gotos program := by
  have fuses : Fuses False program (merge program) := fuses_merge False.elim
  refine ⟨?_, merge_eq_condensed program, fun h => (fuses.unrolled_eq h).symm, fuses.gotos_eq.symm⟩
  rw [Agenda.merged_eq_condensed, merge_eq_condensed]

/-- Two steps to the right, and a loop in which a name parts three units of one kind. -/
def parted : List Instruction :=
  [.leaf (.counted .right 1) ⟨0, 1⟩, .leaf (.counted .right 1) ⟨1, 1⟩,
    .loop [.leaf (.counted .add 1) ⟨3, 1⟩, .leaf (.counted .add 1) ⟨4, 1⟩,
      .leaf (.goto "x") ⟨5, 3⟩, .leaf (.counted .add 1) ⟨8, 1⟩] ⟨2, 8⟩]

theorem worklist_merges_blocks_parted :
    EachLeaf Operation.Nonneg parted ∧
    Agenda.merged parted = [.leaf (.counted .right 2) ⟨0, 2⟩,
      .loop [.leaf (.counted .add 2) ⟨3, 2⟩, .leaf (.goto "x") ⟨5, 3⟩,
        .leaf (.counted .add 1) ⟨8, 1⟩] ⟨2, 8⟩] ∧
    unrolled (merge parted) = unrolled parted ∧ gotos (merge parted) = ["x"] := by
  have once : ∀ kind, (Operation.counted kind 1).Nonneg := fun _ => Int.one_nonneg
  have nonneg : EachLeaf Operation.Nonneg parted :=
    .cons (.leaf _ (once _)) <| .cons (.leaf _ (once _)) <| .loop _ <|
      .cons (.leaf _ (once _)) <| .cons (.leaf _ (once _)) <| .cons (.leaf _ trivial) <|
      .leaf _ (once _)
  obtain ⟨same, -, units, names⟩ := worklist_merges_blocks parted
  exact ⟨nonneg, same.trans (by decide +kernel), units nonneg, names.trans (by decide +kernel)⟩

end Instruction

end NamedTape
