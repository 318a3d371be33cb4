import NamedTape.Proofs.Reading
import NamedTape.Proofs.Soundness
import NamedTape.Proofs.Tilings

/-!
# Programs that texts write

What is certain of a program that comes from a text: its instructions lie in order, none of its
counts is negative, none exceeds the length of the text, and the program knows all aliases that it
names. Only the order is lost when runs are merged.
-/

namespace NamedTape

/-- How many single operations a counted one stands for; every other one needs no counting. -/
def Operation.effort : Operation → Nat
  | .counted _ count => count.natAbs
  | _ => 0

/-- The operation means something, its count is not negative, and its name is among the names. -/
def Operation.Known (names : List String) : Operation → Prop
  | .counted _ count => 0 ≤ count
  | .input | .output => True
  | .goto name => name ∈ names
  | .blank => False

/-- The operation is known, and its count does not exceed the bound. -/
structure Operation.Proper (names : List String) (most : Nat) (operation : Operation) : Prop where
  known : operation.Known names
  effort : operation.effort ≤ most

theorem Operation.Readable.effort_le {dialect : Dialect} {operation : Operation}
    (h : operation.Readable dialect) : operation.effort ≤ 1 := by
  cases operation with
  | counted kind count =>
    cases (show count = 1 from h)
    exact Nat.le_refl 1
  | input | output | goto | blank => exact Nat.zero_le 1

namespace Instruction

mutual

/-- How many single operations the counts in the instruction stand for. -/
def effortOne : Instruction → Nat
  | leaf operation _ => operation.effort
  | loop body _ => effort body

/-- How many single operations the counts in the instructions stand for. -/
def effort : List Instruction → Nat
  | [] => 0
  | i :: rest => i.effortOne + effort rest

end

variable {l : List Instruction} {i : Instruction}

theorem effort_append (l m : List Instruction) : effort (l ++ m) = effort l + effort m := by
  induction l with
  | nil => rw [effort, List.nil_append, Nat.zero_add]
  | cons i rest ih => rw [List.cons_append, effort, effort, ih, Nat.add_assoc]

theorem effortOne_le (h : i ∈ l) : i.effortOne ≤ effort l := by
  induction l with
  | nil => cases h
  | cons j rest ih =>
    rw [effort]
    rcases List.mem_cons.mp h with rfl | h
    · exact Nat.le_add_right _ _
    · exact Nat.le_trans (ih h) (Nat.le_add_left _ _)

theorem gotosOne_subset (h : i ∈ l) : ∀ name ∈ i.gotosOne, name ∈ gotos l := by
  induction l with
  | nil => cases h
  | cons j rest ih =>
    intro name hname
    rw [gotos]
    rcases List.mem_cons.mp h with rfl | h
    · exact List.mem_append_left _ hname
    · exact List.mem_append_right _ (ih h name hname)

theorem eachLeaf_effort {most : Nat} (h : effort l ≤ most) :
    EachLeaf (fun operation => operation.effort ≤ most) l := by
  refine throughout_of_closed (Q := fun l => effort l ≤ most) ?_ ?_ l h
  · intro l hl operation span hm
    have := effortOne_le hm
    rw [effortOne] at this
    omega
  · intro l body span hl hm
    have := effortOne_le hm
    rw [effortOne] at this
    omega

theorem eachLeaf_gotos {names : List String} (h : ∀ name ∈ gotos l, name ∈ names) :
    EachLeaf (fun operation => ∀ name, operation = .goto name → name ∈ names) l := by
  refine throughout_of_closed (Q := fun l => ∀ name ∈ gotos l, name ∈ names) ?_ ?_ l h
  · rintro l hl _ span hm name rfl
    refine hl name (gotosOne_subset hm name ?_)
    rw [gotosOne]
    exact List.mem_singleton_self name
  · intro l body span hl hm name hname
    refine hl name (gotosOne_subset hm name ?_)
    rwa [gotosOne]

/-- Fusing needs no more operations. -/
theorem Fuses.effort_le {placed : Prop} {l m : List Instruction} (h : Fuses placed l m) :
    effort m ≤ effort l := by
  induction h with
  | refl l => exact Nat.le_refl _
  | trans _ _ ih ih' => exact Nat.le_trans ih' ih
  | append _ _ ih ih' =>
    rw [effort_append, effort_append]
    exact Nat.add_le_add ih ih'
  | loop span _ ih => simpa only [effort, effortOne, Nat.add_zero] using ih
  | join kind m n _ =>
    simp only [effort, effortOne, Operation.effort, Nat.add_zero]
    exact Int.natAbs_add_le m n

end Instruction

open Instruction (EachLeaf InOrder Throughout effort gotos)

/-- A text has a character for every operation that it writes. -/
theorem Dialect.Writes.effort_le {dialect : Dialect} {offset : Nat} {text : List Char}
    {l : List Instruction} (h : dialect.Writes offset text l) : effort l ≤ text.length := by
  induction h with
  | nil => exact Nat.le_refl 0
  | operation h _ ih =>
    have one := (Instruction.readable_of_operation? h dialect).effort_le
    rw [effort, Instruction.effortOne, List.length_cons]
    omega
  | blank _ _ ih => exact Nat.le_succ_of_le ih
  | @named offset name text l _ _ _ ih =>
    have none : (Operation.goto (String.ofList name)).effort = 0 := rfl
    rw [effort, Instruction.effortOne, none, List.length_cons, List.length_append,
      List.length_cons]
    omega
  | loop _ _ ihb ih =>
    rw [effort, Instruction.effortOne, List.length_cons, List.length_append, List.length_cons]
    omega

section read

variable {dialect : Dialect} {source filename : String} {program : Program}

theorem tiles_of_read (h : Program.read dialect source filename = .ok program) :
    Tiles dialect source.toList 0 source.length program.instructions := by
  have whole : source.toList.drop 0 = source.toList ++ [] := (List.append_nil _).symm
  have tiles := (Program.read_ok_iff.mp h).1.tiles whole
  rwa [Nat.zero_add, String.length_toList] at tiles

theorem inOrder_of_read (h : Program.read dialect source filename = .ok program) :
    Throughout InOrder program.instructions :=
  (tiles_of_read h).placed.1

theorem known_of_read (h : Program.read dialect source filename = .ok program) :
    EachLeaf (Operation.Known program.aliasNames) program.instructions := by
  obtain ⟨written, hnames, -, -⟩ := Program.read_ok_iff.mp h
  have named : EachLeaf (fun operation => ∀ name, operation = .goto name →
      name ∈ program.aliasNames) program.instructions := by
    refine Instruction.eachLeaf_gotos fun name hname => ?_
    rw [hnames, distinct_eq_eraseDups]
    exact List.mem_eraseDups.mpr hname
  refine (written.readable.and named).mono ?_
  rintro operation ⟨readable, named⟩
  cases operation with
  | counted kind count =>
    cases (show count = 1 from readable)
    exact Int.one_nonneg
  | input | output => trivial
  | goto name => exact named name rfl
  | blank => exact readable

theorem Options.exists_of_read {options : Options}
    (h : options.read source filename = .ok program) :
    ∃ plain, Program.read options.dialect source filename = .ok plain ∧
      program = if options.merge then plain.merged else plain := by
  unfold Options.read at h
  cases hread : Program.read options.dialect source filename with
  | error fault =>
    rw [hread] at h
    cases h
  | ok plain =>
    rw [hread] at h
    exact ⟨plain, rfl, (Except.ok.inj h).symm⟩

/-- What is read, with its runs merged or not, is proper. -/
theorem proper_of_read {options : Options} (h : options.read source filename = .ok program) :
    EachLeaf (Operation.Proper program.aliasNames source.length) program.instructions := by
  obtain ⟨plain, hplain, hmerge⟩ := Options.exists_of_read h
  have known := known_of_read hplain
  have effort := (Program.read_ok_iff.mp hplain).1.effort_le
  rw [String.length_toList] at effort
  have fuses : Instruction.Fuses False plain.instructions plain.merged.instructions :=
    Instruction.fuses_merge False.elim
  have parts : ∀ l : List Instruction, EachLeaf (Operation.Known plain.aliasNames) l →
      Instruction.effort l ≤ source.length →
        EachLeaf (Operation.Proper plain.aliasNames source.length) l := fun l hknown heffort =>
    (hknown.and (Instruction.eachLeaf_effort heffort)).mono fun _ h => ⟨h.1, h.2⟩
  cases hm : options.merge with
  | false =>
    rw [hm] at hmerge
    subst hmerge
    exact parts _ known effort
  | true =>
    rw [hm] at hmerge
    subst hmerge
    refine parts _ (fuses.eachLeaf (fun _ _ _ => Int.add_nonneg) known) ?_
    exact Nat.le_trans fuses.effort_le effort

end read

/-! ## Texts that write nothing -/

theorem Draft.family_of_foldlM {dialect : Dialect} {text : List Char} {draft : Draft}
    {fault : Fault} (h : text.foldlM (Draft.feed dialect) draft = .error fault) :
    fault.cause.family = .parse := by
  obtain ⟨_, _, _, _, _, _, hfeed⟩ := Draft.foldlM_error h
  obtain ⟨_, rfl⟩ := Draft.feed_error hfeed
  rfl

theorem Draft.family_of_finish {draft : Draft} {fault : Fault}
    (h : draft.finish = .error fault) : fault.cause.family = .parse := by
  unfold Draft.finish at h
  split at h <;> cases h <;> rfl

/-- A text that is turned down is so for a fault of its own. -/
theorem family_of_read {options : Options} {source filename : String} {fault : Fault}
    (h : options.read source filename = .error fault) : fault.cause.family = .parse := by
  unfold Options.read Program.read at h
  cases hd : source.toList.foldlM (Draft.feed options.dialect) {} with
  | error fault' =>
    rw [hd] at h
    cases h
    exact Draft.family_of_foldlM hd
  | ok draft =>
    rw [hd] at h
    cases hf : draft.finish with
    | error fault' =>
      simp only [bind, Except.bind, hf] at h
      cases h
      exact Draft.family_of_finish hf
    | ok read =>
      simp only [bind, Except.bind, hf] at h
      cases h

end NamedTape
