import NamedTape.AliasTable
import NamedTape.Program.Draft
import NamedTape.Proofs.Fusion

/-!
# The grammar

* `Dialect.Derives`: a program is any number of items. An item is an operation, a program in
  brackets, a name in braces if the dialect has aliases, or a blank if the dialect skips blanks.
* `Dialect.Writes` gives each text of the grammar, from an offset on, its instructions with their
  places in the text.
* `printed` writes instructions down again, and `Dialect.squeezed` is a text without the blanks that
  are skipped: a text that writes a program is the printed program but for these blanks.
-/

namespace NamedTape

namespace Dialect

/-- A text that is one item. -/
inductive Item (dialect : Dialect) : List Char → Prop
  | operation {c : Char} (h : c ∈ ['+', '-', '<', '>', ',', '.']) : Item dialect [c]
  | loop {items : List (List Char)} (h : ∀ item ∈ items, Item dialect item) :
    Item dialect ('[' :: (items.flatten ++ [']']))
  | named {name : List Char} (h : dialect.aliases = true) (hn : '}' ∉ name) :
    Item dialect ('{' :: (name ++ ['}']))
  | blank {c : Char} (h : dialect.skipBlanks = true) (hc : c ∈ [' ', '\t', '\r', '\n']) :
    Item dialect [c]

/-- A text that is a program. -/
def Derives (dialect : Dialect) (text : List Char) : Prop :=
  ∃ items : List (List Char), (∀ item ∈ items, dialect.Item item) ∧ text = items.flatten

/-- From the offset on, the text writes the instructions. -/
inductive Writes (dialect : Dialect) : Nat → List Char → List Instruction → Prop
  | nil {offset : Nat} : Writes dialect offset [] []
  | operation {offset : Nat} {c : Char} {operation : Operation} {text : List Char}
    {l : List Instruction} (h : operation? c = some operation)
    (rest : Writes dialect (offset + 1) text l) :
    Writes dialect offset (c :: text) (.leaf operation ⟨offset, 1⟩ :: l)
  | blank {offset : Nat} {c : Char} {text : List Char} {l : List Instruction}
    (h : (dialect.skipBlanks && isBlank c) = true) (rest : Writes dialect (offset + 1) text l) :
    Writes dialect offset (c :: text) l
  | named {offset : Nat} {name text : List Char} {l : List Instruction}
    (h : dialect.aliases = true) (hn : '}' ∉ name)
    (rest : Writes dialect (offset + (name.length + 2)) text l) :
    Writes dialect offset ('{' :: (name ++ '}' :: text))
      (.leaf (.goto (String.ofList name)) ⟨offset, (name.length + 2 : Nat)⟩ :: l)
  | loop {offset : Nat} {inner text : List Char} {body l : List Instruction}
    (first : Writes dialect (offset + 1) inner body)
    (rest : Writes dialect (offset + (inner.length + 2)) text l) :
    Writes dialect offset ('[' :: (inner ++ ']' :: text))
      (.loop body ⟨offset, (inner.length + 2 : Nat)⟩ :: l)

variable {dialect : Dialect} {offset : Nat} {text : List Char} {l : List Instruction}

theorem Writes.append (h : dialect.Writes offset text l) {more : List Char}
    {m : List Instruction} (hm : dialect.Writes (offset + text.length) more m) :
    dialect.Writes offset (text ++ more) (l ++ m) := by
  induction h with
  | nil => exact hm
  | operation h _ ih =>
    rw [List.length_cons, ← Nat.add_assoc, Nat.add_right_comm] at hm
    exact .operation h (ih hm)
  | blank h _ ih =>
    rw [List.length_cons, ← Nat.add_assoc, Nat.add_right_comm] at hm
    exact .blank h (ih hm)
  | @named offset name text l h hn _ ih =>
    have hlen : offset + ('{' :: (name ++ '}' :: text)).length =
        offset + (name.length + 2) + text.length := by
      simp only [List.length_cons, List.length_append]
      omega
    rw [hlen] at hm
    rw [List.cons_append, List.append_assoc, List.cons_append]
    exact .named h hn (ih hm)
  | @loop offset inner text body l first _ _ ih =>
    have hlen : offset + ('[' :: (inner ++ ']' :: text)).length =
        offset + (inner.length + 2) + text.length := by
      simp only [List.length_cons, List.length_append]
      omega
    rw [hlen] at hm
    rw [List.cons_append, List.append_assoc, List.cons_append]
    exact .loop first (ih hm)

/-! ## Items and instructions -/

theorem operation?_isSome {c : Char} :
    c ∈ ['+', '-', '<', '>', ',', '.'] ↔ ∃ operation, operation? c = some operation := by
  constructor
  · intro h
    simp only [List.mem_cons, List.not_mem_nil, or_false] at h
    rcases h with rfl | rfl | rfl | rfl | rfl | rfl <;> exact ⟨_, rfl⟩
  · rintro ⟨operation, h⟩
    unfold operation? at h
    split at h <;> first | decide | cases h

theorem isBlank_iff {c : Char} : isBlank c = true ↔ c ∈ [' ', '\t', '\r', '\n'] := by
  simp [isBlank, or_assoc]

theorem writes_flatten {items : List (List Char)}
    (h : ∀ item ∈ items, ∀ offset, ∃ l, dialect.Writes offset item l) (offset : Nat) :
    ∃ l, dialect.Writes offset items.flatten l := by
  induction items generalizing offset with
  | nil => exact ⟨[], .nil⟩
  | cons item items ih =>
    obtain ⟨l, hl⟩ := h item List.mem_cons_self offset
    obtain ⟨m, hm⟩ := ih (fun i hi => h i (List.mem_cons_of_mem item hi)) (offset + item.length)
    exact ⟨l ++ m, hl.append hm⟩

theorem Item.writes {item : List Char} (h : dialect.Item item) :
    ∀ offset, ∃ l, dialect.Writes offset item l := by
  induction h with
  | operation h =>
    intro offset
    obtain ⟨operation, ho⟩ := operation?_isSome.mp h
    exact ⟨_, .operation ho .nil⟩
  | blank h hc => exact fun offset => ⟨[], .blank (by rw [h, isBlank_iff.mpr hc]; rfl) .nil⟩
  | named h hn => exact fun offset => ⟨_, .named h hn .nil⟩
  | loop _ ih =>
    intro offset
    obtain ⟨body, hbody⟩ := writes_flatten ih (offset + 1)
    exact ⟨_, .loop hbody .nil⟩

theorem Derives.nil : dialect.Derives [] := ⟨[], fun _ h => absurd h List.not_mem_nil, rfl⟩

theorem Derives.cons {item : List Char} (h : dialect.Item item) (ht : dialect.Derives text) :
    dialect.Derives (item ++ text) := by
  obtain ⟨items, hi, rfl⟩ := ht
  exact ⟨item :: items, List.forall_mem_cons.mpr ⟨h, hi⟩, rfl⟩

theorem Writes.derives (h : dialect.Writes offset text l) : dialect.Derives text := by
  induction h with
  | nil => exact .nil
  | operation h _ ih => exact .cons (.operation (operation?_isSome.mpr ⟨_, h⟩)) ih
  | blank h _ ih =>
    rw [Bool.and_eq_true] at h
    exact .cons (.blank h.1 (isBlank_iff.mp h.2)) ih
  | @named _ name text _ h hn _ ih =>
    have split : '{' :: (name ++ '}' :: text) = ('{' :: (name ++ ['}'])) ++ text := by simp
    rw [split]
    exact .cons (.named h hn) ih
  | @loop _ inner text _ _ _ _ ihb ih =>
    have split : '[' :: (inner ++ ']' :: text) = ('[' :: (inner ++ [']'])) ++ text := by simp
    obtain ⟨items, hi, rfl⟩ := ihb
    rw [split]
    exact .cons (.loop hi) ih

/-- The texts of the grammar are those that write instructions. -/
theorem derives_iff (offset : Nat) :
    dialect.Derives text ↔ ∃ l, dialect.Writes offset text l := by
  refine ⟨?_, fun ⟨l, h⟩ => h.derives⟩
  rintro ⟨items, hi, rfl⟩
  exact writes_flatten (fun item h => (hi item h).writes) offset

end Dialect

/-! ## Printing -/

/-- An operation that can be read from text: a counted one counts one, and the name of an alias does
not hold the character that ends it, if there are aliases at all. -/
def Operation.Readable (dialect : Dialect) : Operation → Prop
  | .counted _ count => count = 1
  | .input | .output => True
  | .goto name => dialect.aliases = true ∧ '}' ∉ name.toList
  | .blank => False

namespace Instruction

mutual

/-- The text that writes the instruction. A counted one is written once, whatever its count. -/
def printedOne : Instruction → List Char
  | leaf (.counted .add _) _ => ['+']
  | leaf (.counted .subtract _) _ => ['-']
  | leaf (.counted .left _) _ => ['<']
  | leaf (.counted .right _) _ => ['>']
  | leaf .input _ => [',']
  | leaf .output _ => ['.']
  | leaf (.goto name) _ => '{' :: (name.toList ++ ['}'])
  | leaf .blank _ => []
  | loop body _ => '[' :: (printed body ++ [']'])

/-- The text that writes the instructions. -/
def printed : List Instruction → List Char
  | [] => []
  | i :: rest => i.printedOne ++ printed rest

end

mutual

/-- The names of the aliases in the order of the text. -/
def gotosOne : Instruction → List String
  | leaf (.goto name) _ => [name]
  | leaf _ _ => []
  | loop body _ => gotos body

/-- The names of the aliases in the order of the text, repetitions included. -/
def gotos : List Instruction → List String
  | [] => []
  | i :: rest => i.gotosOne ++ gotos rest

end

mutual

/-- The instruction without its places in the text. -/
def bareOne : Instruction → Instruction
  | leaf operation _ => leaf operation ⟨0, 0⟩
  | loop body _ => loop (bare body) ⟨0, 0⟩

/-- The instructions without their places in the text. -/
def bare : List Instruction → List Instruction
  | [] => []
  | i :: rest => i.bareOne :: bare rest

end

theorem bare_append (l m : List Instruction) : bare (l ++ m) = bare l ++ bare m := by
  induction l with
  | nil => rw [bare, List.nil_append, List.nil_append]
  | cons i rest ih => rw [List.cons_append, bare, bare, ih, List.cons_append]

theorem gotos_append (l m : List Instruction) : gotos (l ++ m) = gotos l ++ gotos m := by
  induction l with
  | nil => rw [gotos, List.nil_append, List.nil_append]
  | cons i rest ih => rw [List.cons_append, gotos, gotos, ih, List.append_assoc]

theorem printed_of_operation? {c : Char} {operation : Operation} (h : operation? c = some operation)
    (span : Span) : (leaf operation span).printedOne = [c] := by
  unfold operation? at h
  split at h <;> cases h <;> rfl

theorem readable_of_operation? {c : Char} {operation : Operation}
    (h : operation? c = some operation) (dialect : Dialect) : operation.Readable dialect := by
  unfold operation? at h
  split at h <;> cases h <;> trivial

end Instruction

namespace Dialect

open Instruction (EachLeaf InOrder Throughout bare bareOne gotos gotosOne printed printedOne)

variable {dialect : Dialect} {offset : Nat} {text : List Char} {l : List Instruction}

/-- The text without the blanks that are skipped. Inside an alias none are. -/
def squeezed (dialect : Dialect) : (inAlias : Bool) → List Char → List Char
  | _, [] => []
  | true, c :: rest => c :: dialect.squeezed (c != '}') rest
  | false, c :: rest =>
    if dialect.skipBlanks && isBlank c then dialect.squeezed false rest
    else c :: dialect.squeezed (c == '{') rest

theorem squeezed_alias {name : List Char} (hn : '}' ∉ name) (more : List Char) :
    dialect.squeezed true (name ++ '}' :: more) = name ++ '}' :: dialect.squeezed false more := by
  induction name with
  | nil => rfl
  | cons c name ih =>
    obtain ⟨hc, hn⟩ := not_or.mp fun h => hn (List.mem_cons.mpr h)
    have inside : (c != '}') = true := bne_iff_ne.mpr (Ne.symm hc)
    rw [List.cons_append, squeezed, inside, ih hn, List.cons_append]

theorem squeezed_plain {c : Char} (hb : isBlank c = false) (hc : c ≠ '{') (more : List Char) :
    dialect.squeezed false (c :: more) = c :: dialect.squeezed false more := by
  have outside : (c == '{') = false := beq_eq_false_iff_ne.mpr hc
  rw [squeezed, hb, Bool.and_false, outside]
  rfl

theorem plain_of_operation? {c : Char} {operation : Operation}
    (h : operation? c = some operation) : isBlank c = false ∧ c ≠ '{' := by
  unfold operation? at h
  split at h <;> first | exact ⟨rfl, by decide⟩ | cases h

/-- A text is what it writes, but for the blanks that are skipped. -/
theorem Writes.squeezed_append (h : dialect.Writes offset text l) (more : List Char) :
    dialect.squeezed false (text ++ more) = printed l ++ dialect.squeezed false more := by
  induction h generalizing more with
  | nil => rfl
  | operation h _ ih =>
    obtain ⟨hb, hc⟩ := plain_of_operation? h
    rw [List.cons_append, squeezed_plain hb hc, ih, printed, Instruction.printed_of_operation? h]
    rfl
  | blank h _ ih => rw [List.cons_append, squeezed, if_pos h, ih]
  | named _ hn _ ih =>
    have opening : ∀ rest,
        dialect.squeezed false ('{' :: rest) = '{' :: dialect.squeezed true rest :=
      fun rest => by simp [squeezed, isBlank]
    rw [List.cons_append, List.append_assoc, List.cons_append, opening, squeezed_alias hn, ih]
    simp [printed, printedOne, String.toList_ofList]
  | loop _ _ ihb ih =>
    rw [List.cons_append, List.append_assoc, List.cons_append,
      squeezed_plain (by rfl) (by decide), ihb, squeezed_plain (by rfl) (by decide), ih]
    simp [printed, printedOne]

/-- What is written can be read. -/
theorem Writes.readable (h : dialect.Writes offset text l) :
    EachLeaf (Operation.Readable dialect) l := by
  induction h with
  | nil => exact .nil
  | operation h _ ih =>
    exact .cons (.leaf _ (Instruction.readable_of_operation? h dialect)) ih
  | blank _ _ ih => exact ih
  | named h hn _ ih => exact .cons (.leaf _ ⟨h, by rwa [String.toList_ofList]⟩) ih
  | loop _ _ ihb ih => exact .cons (.loop _ ihb) ih

theorem exists_operation? {operation : Operation} (h : operation.Readable dialect)
    (hg : ∀ name, operation ≠ .goto name) (span : Span) :
    ∃ c, operation? c = some operation ∧ (Instruction.leaf operation span).printedOne = [c] := by
  cases operation with
  | counted kind count =>
    cases (show count = 1 from h)
    cases kind <;> exact ⟨_, rfl, rfl⟩
  | input => exact ⟨',', rfl, rfl⟩
  | output => exact ⟨'.', rfl, rfl⟩
  | goto name => exact absurd rfl (hg name)
  | blank => exact h.elim

/-- What can be read is written by its print, with places of its own. -/
theorem writes_printed (h : EachLeaf (Operation.Readable dialect) l) :
    ∀ offset, ∃ m, dialect.Writes offset (printed l) m ∧ bare m = bare l := by
  induction h with
  | @intro program here inside ih =>
    suffices part : ∀ l, (∀ i ∈ l, i ∈ program) → ∀ offset, ∃ m,
        dialect.Writes offset (printed l) m ∧ bare m = bare l from part program fun _ h => h
    intro l
    induction l with
    | nil => exact fun _ offset => ⟨[], .nil, rfl⟩
    | cons i rest ihrest =>
      intro hsub offset
      have hi := hsub i List.mem_cons_self
      have one : ∃ m, dialect.Writes offset i.printedOne m ∧ bare m = bare [i] := by
        cases i with
        | leaf operation span =>
          have readable := here operation span hi
          by_cases hg : ∃ name, operation = .goto name
          · obtain ⟨name, rfl⟩ := hg
            refine ⟨_, .named readable.1 readable.2 .nil, ?_⟩
            rw [String.ofList_toList, bare, bare, bareOne, bare, bare, bareOne]
          · obtain ⟨c, hc, hp⟩ := exists_operation? readable (fun name h => hg ⟨name, h⟩) span
            rw [hp]
            exact ⟨_, .operation hc .nil, rfl⟩
        | loop body span =>
          obtain ⟨m, hm, hb⟩ := ih body span hi (offset + 1)
          refine ⟨_, .loop hm .nil, ?_⟩
          rw [bare, bareOne, hb, bare, bare, bareOne, bare]
      obtain ⟨m, hm, hb⟩ := one
      obtain ⟨m', hm', hb'⟩ := ihrest (fun j hj => hsub j (List.mem_cons_of_mem i hj))
        (offset + i.printedOne.length)
      refine ⟨m ++ m', by rw [printed]; exact hm.append hm', ?_⟩
      rw [Instruction.bare_append, hb, hb', ← Instruction.bare_append, List.singleton_append]

end Dialect

end NamedTape
