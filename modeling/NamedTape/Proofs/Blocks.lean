import Mathlib.Algebra.Ring.Int.Defs
import Mathlib.Algebra.Ring.Nat
import Mathlib.Data.List.SplitBy
import NamedTape.Proofs.Grammar
import NamedTape.Proofs.NormalForm

/-!
# Blocks

A block is a maximal stretch of neighbours with the same counted operation. Merging puts one
instruction in the place of each block, in the program and in the body of every loop
(`merge_eq_condensed`).

* A block of one stays as it is. A longer one becomes an instruction with the sum of the counts,
  whose span covers those of the first and the last.
* What is not counted, and all that lies inside loops, passes through `condense` untouched
  (`condense_map`, `sum_condense`).
-/

namespace NamedTape

namespace Instruction

/-- Whether the instructions have the same counted operation. -/
def joins (i j : Instruction) : Bool :=
  i.counted?.any fun kind => j.counted? = some kind

/-- The count of a counted instruction. -/
def count : Instruction → Int
  | leaf (.counted _ n) _ => n
  | _ => 0

/-- What stands for a block of neighbours with the same counted operation. -/
def joined : List Instruction → List Instruction
  | leaf (.counted kind n) span :: i :: rest =>
    [leaf (.counted kind (n + ((i :: rest).map count).sum))
      (span.cover ((i :: rest).getLast (List.cons_ne_nil i rest)).span)]
  | block => block

/-- The list with every block joined. The bodies of loops stay as they are. -/
def condense (l : List Instruction) : List Instruction := (l.splitBy joins).flatMap joined

mutual

/-- The instruction with every block joined in its body, at every depth. -/
def condensedOne : Instruction → Instruction
  | leaf operation span => leaf operation span
  | loop body span => loop (condense (condensedEach body)) span

/-- The instructions, each with every block joined in its body, at every depth. -/
def condensedEach : List Instruction → List Instruction
  | [] => []
  | i :: rest => i.condensedOne :: condensedEach rest

end

/-- The program with every block joined, at every depth. -/
def condensed (program : List Instruction) : List Instruction := condense (condensedEach program)

variable {i j : Instruction} {l m block : List Instruction} {kind : Counted}

theorem joins_iff : joins i j = true ↔ ∃ kind, i.counted? = some kind ∧ j.counted? = some kind := by
  simp only [joins, Option.any_eq_true, decide_eq_true_eq]

theorem Apart.joins_eq_false (h : Apart i j) : joins i j = false := by
  refine Bool.eq_false_iff.mpr fun hj => ?_
  obtain ⟨kind, hi, hj⟩ := joins_iff.mp hj
  exact h kind hi hj

theorem condense_nil : condense [] = [] := rfl

theorem condense_append (h : ∀ i ∈ l.getLast?, ∀ j ∈ m.head?, joins i j = false) :
    condense (l ++ m) = condense l ++ condense m := by
  rw [condense, List.splitBy_append h, List.flatMap_append]
  rfl

/-- A list without gaps between its blocks is one block. -/
theorem condense_block (hn : block ≠ []) (h : block.IsChain fun i j => joins i j) :
    condense block = joined block := by
  rw [condense, List.splitBy_of_isChain hn h, List.flatMap_singleton]

theorem condense_separates (h : i.Separates) (l m : List Instruction) :
    condense (l ++ i :: m) = condense l ++ i :: condense m := by
  have before : ∀ j ∈ l.getLast?, ∀ k ∈ (i :: m).head?, joins j k = false := by
    intro j _ k hk
    cases hk
    exact (h.apart_right j).joins_eq_false
  have behind : ∀ j ∈ [i].getLast?, ∀ k ∈ m.head?, joins j k = false := by
    intro j hj k _
    obtain rfl : i = j := Option.some.inj hj
    exact (h.apart_left k).joins_eq_false
  have alone : condense [i] = [i] := by
    rcases i with ⟨operation, span⟩ | ⟨body, span⟩
    · cases operation <;> rfl
    · rfl
  rw [condense_append before, ← List.singleton_append, condense_append behind, alone]
  rfl

/-- Instructions with the same counted operation are one block. -/
theorem chain_of_counted (h : ∀ i ∈ block, i.counted? = some kind) :
    block.IsChain fun i j => joins i j := by
  have pairwise : block.Pairwise fun i j => joins i j :=
    List.pairwise_of_forall_mem_list fun i hi j hj => joins_iff.mpr ⟨kind, h i hi, h j hj⟩
  exact pairwise.isChain

/-! ## Merging joins blocks -/

/-- The run has gathered the instructions. -/
inductive Gathers : Option Run → List Instruction → Prop
  | nothing : Gathers none []
  | block {run : Run} {n : Int} {rest : List Instruction}
    (same : ∀ i ∈ rest, i.counted? = some run.kind) (sum : run.count = n + (rest.map count).sum)
    (last : run.last = rest.getLast?.map span) :
    Gathers (some run) (leaf (.counted run.kind n) run.span :: rest)

theorem gathers_start (kind : Counted) (n : Int) (span : Span) :
    Gathers (some (.start kind n span)) [leaf (.counted kind n) span] :=
  @Gathers.block (.start kind n span) n [] nofun (Int.add_zero n).symm rfl

theorem Gathers.extend {run : Run} (h : Gathers (some run) block) (n : Int) (span : Span) :
    Gathers (some (run.extend n span)) (block ++ [leaf (.counted run.kind n) span]) := by
  cases h with
  | block same sum last =>
    rw [List.cons_append]
    refine @Gathers.block (run.extend n span) _ _ ?_ ?_ ?_
    · exact List.forall_mem_append.mpr ⟨same, List.forall_mem_singleton.mpr rfl⟩
    · rw [List.map_append, List.sum_append, ← Int.add_assoc, ← sum]
      exact congrArg (run.count + ·) (Int.add_zero n).symm
    · rw [List.getLast?_concat]
      rfl

theorem Gathers.counted {run : Run} (h : Gathers (some run) block) :
    ∀ i ∈ block, i.counted? = some run.kind := by
  cases h with
  | block same _ _ => exact List.forall_mem_cons.mpr ⟨rfl, same⟩

/-- What a run has gathered is a block, and the run stands for it. -/
theorem Gathers.condense {run : Option Run} (h : Gathers run block) :
    condense block = closeRun run := by
  cases h with
  | nothing => rfl
  | @block run n rest same sum last =>
    have chain := chain_of_counted (Gathers.block same sum last).counted
    rw [condense_block (List.cons_ne_nil _ _) chain, closeRun, Option.map_some, Option.toList_some,
      Run.merged, sum, last]
    cases rest with
    | nil => rw [List.map_nil, List.sum_nil, Int.add_zero]; rfl
    | cons i rest => rw [joined, List.getLast?_eq_some_getLast (List.cons_ne_nil i rest)]; rfl

/-- A block ends where a counted operation of another kind follows. -/
theorem Gathers.restart {run : Run} (h : Gathers (some run) block) (hk : run.kind ≠ kind) (n : Int)
    (span : Span) (rest : List Instruction) :
    Instruction.condense (block ++ leaf (.counted kind n) span :: rest) =
      run.merged :: Instruction.condense (leaf (.counted kind n) span :: rest) := by
  have apart : ∀ i ∈ block.getLast?, ∀ j ∈ (leaf (.counted kind n) span :: rest).head?,
      joins i j = false := by
    intro i hi j hj
    obtain rfl := Option.some.inj hj
    refine Apart.joins_eq_false fun kind' first second => hk ?_
    have same := h.counted i (List.mem_of_getLast? hi)
    exact (Option.some.inj (same.symm.trans first)).trans (Option.some.inj second).symm
  rw [condense_append apart, h.condense]
  rfl

mutual

theorem mergeBody_eq (i : Instruction) : i.mergeBody = i.condensedOne := by
  cases i with
  | leaf operation span => rw [mergeBody_leaf, condensedOne]
  | loop body span => rw [mergeBody_loop, condensedOne, merge, mergeAfter_eq .nothing body]; rfl

/-- What is merged after a run is what the run has gathered and what follows, with every block
joined. -/
theorem mergeAfter_eq {run : Option Run} {block : List Instruction} (h : Gathers run block)
    (program : List Instruction) :
    mergeAfter run program = condense (block ++ condensedEach program) := by
  cases program with
  | nil => rw [mergeAfter_nil, condensedEach, List.append_nil, h.condense]
  | cons i rest =>
    rcases separates_or i with hi | ⟨kind, n, span, rfl⟩
    · have separated : i.condensedOne.Separates := mergeBody_eq i ▸ hi.mergeBody
      rw [mergeAfter_separates hi, condensedEach, condense_separates separated, h.condense,
        mergeBody_eq i, mergeAfter_eq .nothing rest, List.nil_append]
    · rw [condensedEach, condensedOne]
      have begin := mergeAfter_eq (gathers_start kind n span) rest
      cases run with
      | none =>
        cases h
        rw [mergeAfter_start, begin]
        rfl
      | some run =>
        by_cases hk : run.kind = kind
        · subst hk
          rw [mergeAfter_extend, mergeAfter_eq (h.extend n span) rest, List.append_assoc]
          rfl
        · rw [mergeAfter_restart hk, begin, h.restart hk]
          rfl

end

/-- Merging joins every block, at every depth. -/
theorem merge_eq_condensed (program : List Instruction) : merge program = condensed program :=
  mergeAfter_eq .nothing program

/-! ## What joining blocks leaves alone -/

theorem chain_cases (hn : block ≠ []) (h : block.IsChain fun i j => joins i j) :
    (∃ i, block = [i]) ∨ ∀ i ∈ block, i.counted? ≠ none := by
  induction h with
  | nil => exact absurd rfl hn
  | singleton i => exact .inl ⟨i, rfl⟩
  | @cons_cons i j rest hij _ ih =>
    obtain ⟨kind, hi, hj⟩ := joins_iff.mp hij
    refine .inr (List.forall_mem_cons.mpr ⟨by rw [hi]; exact nofun, ?_⟩)
    rcases ih (List.cons_ne_nil j rest) with ⟨k, hk⟩ | counted
    · rw [hk]
      obtain rfl : j = k := (List.cons.inj hk).1
      exact List.forall_mem_singleton.mpr (by rw [hj]; exact nofun)
    · exact counted

/-- A block is one instruction, or all its instructions are counted. -/
theorem block_cases (h : block ∈ l.splitBy joins) :
    (∃ i, block = [i]) ∨ ∀ i ∈ block, i.counted? ≠ none :=
  chain_cases (List.ne_nil_of_mem_splitBy h) (List.isChain_of_mem_splitBy h)

theorem joined_singleton (i : Instruction) : joined [i] = [i] := by
  rcases i with ⟨operation, span⟩ | ⟨body, span⟩
  · cases operation <;> rfl
  · rfl

/-- Counted instructions are joined to counted ones. -/
theorem counted_joined (h : ∀ i ∈ block, i.counted? ≠ none) :
    ∀ i ∈ joined block, i.counted? ≠ none := by
  unfold joined
  split
  · exact List.forall_mem_singleton.mpr nofun
  · exact h

/-- The blocks of a list whose instructions are changed are those of the list, changed. -/
theorem splitBy_map {g : Instruction → Instruction} (hg : ∀ i, (g i).counted? = i.counted?)
    (l : List Instruction) : (l.map g).splitBy joins = (l.splitBy joins).map (List.map g) := by
  have same : ∀ i j, joins (g i) (g j) = joins i j := fun i j => by rw [joins, joins, hg, hg]
  refine List.splitBy_eq_iff.mpr ⟨?_, ?_, ?_, ?_⟩
  · rw [← List.map_flatten, List.flatten_splitBy]
  · simp
  · intro block hblock
    obtain ⟨plain, hplain, rfl⟩ := List.mem_map.mp hblock
    refine List.isChain_map_of_isChain g ?_ (List.isChain_of_mem_splitBy hplain)
    exact fun i j h => (same i j).trans h
  · refine List.isChain_map_of_isChain (List.map g) ?_ (List.isChain_getLast_head_splitBy joins l)
    rintro block next ⟨hb, hn, h⟩
    refine ⟨mt List.map_eq_nil_iff.mp hb, mt List.map_eq_nil_iff.mp hn, ?_⟩
    rw [List.getLast_map, List.head_map, same, h]

/-- Joining blocks commutes with every change to what is not counted. -/
theorem condense_map {g : Instruction → Instruction} (hg : ∀ i, (g i).counted? = i.counted?)
    (fixed : ∀ i, i.counted? ≠ none → g i = i) (l : List Instruction) :
    condense (l.map g) = (condense l).map g := by
  rw [condense, splitBy_map hg, List.flatMap_map, condense, List.map_flatMap]
  refine List.flatMap_congr fun block hblock => ?_
  have keeps : ∀ {m : List Instruction}, (∀ i ∈ m, i.counted? ≠ none) → m.map g = m :=
    fun hm => (List.map_congr_left fun i hi => fixed i (hm i hi)).trans (List.map_id _)
  rcases block_cases hblock with ⟨i, rfl⟩ | counted
  · rw [List.map_singleton, joined_singleton, joined_singleton, List.map_singleton]
  · rw [keeps counted, keeps (counted_joined counted)]

theorem condensedEach_eq_map (l : List Instruction) : condensedEach l = l.map condensedOne := by
  induction l with
  | nil => rw [condensedEach, List.map_nil]
  | cons i rest ih => rw [condensedEach, ih, List.map_cons]

/-- Blocks can be joined before the bodies of loops are. -/
theorem condensed_eq_map (body : List Instruction) :
    condensed body = (condense body).map condensedOne := by
  have counted : ∀ i : Instruction, i.condensedOne.counted? = i.counted? := by
    rintro (_ | _)
    · rw [condensedOne]
    · rw [condensedOne]; rfl
  have fixed : ∀ i : Instruction, i.counted? ≠ none → i.condensedOne = i := by
    rintro (_ | _) h
    · rw [condensedOne]
    · exact absurd rfl h
  rw [condensed, condensedEach_eq_map, condense_map counted fixed]

/-- Joining blocks keeps every sum to which what is counted adds nothing. -/
theorem sum_condense {f : Instruction → Nat} (hf : ∀ i, i.counted? ≠ none → f i = 0)
    (l : List Instruction) : ((condense l).map f).sum = (l.map f).sum := by
  have zero : ∀ {m : List Instruction}, (∀ i ∈ m, i.counted? ≠ none) → (m.map f).sum = 0 :=
    fun hm => List.sum_eq_zero_iff_forall_eq_nat.mpr <|
      List.forall_mem_map.mpr fun i hi => hf i (hm i hi)
  have each : ∀ block ∈ l.splitBy joins, ((joined block).map f).sum = (block.map f).sum := by
    intro block hblock
    rcases block_cases hblock with ⟨i, rfl⟩ | counted
    · rw [joined_singleton]
    · rw [zero counted, zero (counted_joined counted)]
  calc ((condense l).map f).sum
      = ((l.splitBy joins).map fun block => ((joined block).map f).sum).sum := by
        rw [condense, List.map_flatMap, List.flatMap_def, List.sum_flatten, List.map_map]
        rfl
    _ = ((l.splitBy joins).map fun block => (block.map f).sum).sum := by
        rw [List.map_congr_left each]
    _ = (l.map f).sum := by
        conv_rhs => rw [← List.flatten_splitBy joins l, List.map_flatten, List.sum_flatten]
        rw [List.map_map]
        rfl

end Instruction

end NamedTape
