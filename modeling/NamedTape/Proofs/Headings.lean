import NamedTape.Proofs.Coordinates
import NamedTape.Proofs.Outline

/-!
# Headings and entries

The entry of an instruction is its line in a tree without the margin: its heading and the span.

* A heading opens with words that tell the kind of the instruction, as none of them begins with
  others. The count or the alias is the rest (`detail`).
* An alias may have blanks and signs in it and look like a span. The numbers of the span stand
  behind the last signs, as no numeral has a sign of that kind in it (`append_cons_inj`).
* So the entry tells all of an instruction but what is inside it (`entry_inj`), and it begins with a
  character that is not blank, so that the margin can be told from it.
-/

namespace NamedTape

namespace Instruction

/-! ## Numerals -/

/-- The characters of an integer. -/
def numeral (n : Int) : List Char := n.repr.toList

theorem numeral_eq (n : Int) :
    numeral n = if 0 ≤ n then Nat.toDigits 10 n.toNat else '-' :: Nat.toDigits 10 (-n).toNat := by
  rw [numeral, Int.repr_eq_if]
  split
  · rw [Nat.toList_repr]
  · rw [String.toList_append, Nat.toList_repr]
    rfl

theorem isDigit_of_mem {n : Nat} {c : Char} (h : c ∈ Nat.toDigits 10 n) : c.isDigit = true :=
  Nat.isDigit_of_mem_toDigits (by decide) (by decide) h

theorem digits_inj {m n : Nat} (h : Nat.toDigits 10 m = Nat.toDigits 10 n) : m = n := by
  have same := congrArg (Nat.ofDigitChars 10 · 0) h
  rwa [Nat.ofDigitChars_ten_toDigits, Nat.ofDigitChars_ten_toDigits] at same

theorem minus_not_mem_digits (n : Nat) : '-' ∉ Nat.toDigits 10 n :=
  fun h => absurd (isDigit_of_mem h) (by decide)

@[simp] theorem numeral_inj {m n : Int} : numeral m = numeral n ↔ m = n := by
  refine ⟨fun h => ?_, congrArg numeral⟩
  rw [numeral_eq, numeral_eq] at h
  split at h <;> split at h
  · have := digits_inj h
    omega
  · exact absurd (h ▸ List.mem_cons_self) (minus_not_mem_digits m.toNat)
  · exact absurd (h ▸ List.mem_cons_self) (minus_not_mem_digits n.toNat)
  · have := digits_inj (List.cons.inj h).2
    omega

theorem of_mem_numeral {n : Int} {c : Char} (h : c ∈ numeral n) : c = '-' ∨ c.isDigit = true := by
  rw [numeral_eq] at h
  split at h
  · exact .inr (isDigit_of_mem h)
  · exact (List.mem_cons.mp h).imp id isDigit_of_mem

theorem not_mem_numeral {c : Char} (hc : ¬ (c = '-' ∨ c.isDigit = true)) (n : Int) :
    c ∉ numeral n :=
  fun h => hc (of_mem_numeral h)

/-! ## Headings -/

/-- The names of the rules. -/
def rules : List String :=
  ["Add", "Subtract", "MoveLeft", "MoveRight", "Input", "Output", "Goto", "Instruction", "Loop"]

theorem rule_mem (i : Instruction) : i.rule ∈ rules := by
  rcases i with ⟨⟨_ | _ | _ | _, count⟩ | _ | _ | name | _, span⟩ | ⟨body, span⟩ <;>
    simp [rule, rules]

/-- The words that the headings of the instructions with the rule open with. -/
def opening : String → String
  | "Add" => "Add "
  | "Subtract" => "Subtract "
  | "MoveLeft" => "Move left "
  | "MoveRight" => "Move right "
  | "Input" => "Take input"
  | "Output" => "Write output"
  | "Goto" => "Go to alias "
  | "Instruction" => "None"
  | rule => rule

/-- None of the openings begins with another. -/
theorem opening_prefixFree :
    ∀ r ∈ rules, ∀ r' ∈ rules, (opening r).toList <+: (opening r').toList → r = r' := by
  decide +kernel

/-- Every opening begins with a character that is not blank, and has no newline in it. -/
theorem opening_plain :
    ∀ r ∈ rules, (opening r).toList.head?.any (· ≠ ' ') = true ∧ '\n' ∉ (opening r).toList := by
  decide +kernel

/-- What the heading says besides. -/
def detail : Instruction → List Char
  | leaf (.counted .left count) _ | leaf (.counted .right count) _ =>
    numeral count ++ " spaces".toList
  | leaf (.counted _ count) _ => numeral count
  | leaf (.goto name) _ => name.toList
  | _ => []

theorem heading_eq (i : Instruction) :
    i.heading.toList = (opening i.rule).toList ++ i.detail := by
  have plain : ∀ s : String, toString s = s := fun _ => rfl
  rcases i with ⟨⟨_ | _ | _ | _, count⟩ | _ | _ | name | _, span⟩ | ⟨body, span⟩ <;>
    simp [heading, describeOperation, opening, rule, detail, numeral, Int.toString_eq_repr, plain]

theorem shell_eq_of_detail {i j : Instruction} (hr : i.rule = j.rule) (hd : i.detail = j.detail)
    (hs : i.span = j.span) : i.shell = j.shell := by
  rcases i with ⟨⟨_ | _ | _ | _, _⟩ | _ | _ | _ | _, _⟩ | ⟨_, _⟩ <;>
    rcases j with ⟨⟨_ | _ | _ | _, _⟩ | _ | _ | _ | _, _⟩ | ⟨_, _⟩ <;>
    simp_all [rule, detail, shell, span, String.toList_inj]

/-- The heading and the span tell all of an instruction but what is inside it. -/
theorem heading_inj {i j : Instruction} (h : i.heading.toList = j.heading.toList)
    (hs : i.span = j.span) : i.shell = j.shell := by
  rw [heading_eq, heading_eq] at h
  -- of two openings in front of one text, one begins with the other
  have hr : i.rule = j.rule := by
    rcases List.prefix_or_prefix_of_prefix (List.prefix_append _ i.detail)
      (h ▸ List.prefix_append _ j.detail) with begins | begins
    · exact opening_prefixFree _ i.rule_mem _ j.rule_mem begins
    · exact (opening_prefixFree _ j.rule_mem _ i.rule_mem begins).symm
  rw [hr, List.append_right_inj] at h
  exact shell_eq_of_detail hr h hs

/-! ## Entries -/

/-- What stands in the tree for an instruction, behind the margin. -/
def entry (i : Instruction) : List Char :=
  i.heading.toList ++ [' '] ++ '@' :: numeral i.span.offset ++ '+' :: numeral i.span.length

section last

variable {α : Type} {c : α} {front front' back back' : List α}

theorem eq_nil_of_cons_eq_append {more : List α} (hc : c ∉ back)
    (h : c :: back = more ++ c :: back') : more = [] := by
  cases more with
  | nil => rfl
  | cons d more =>
    have tail := (List.cons.inj h).2
    exact absurd (tail ▸ List.mem_append_right more List.mem_cons_self) hc

/-- The last occurrence of a character splits a list in one way. -/
theorem append_cons_inj (hc : c ∉ back) (hc' : c ∉ back')
    (h : front ++ c :: back = front' ++ c :: back') : front = front' ∧ back = back' := by
  rcases List.append_eq_append_iff.mp h with ⟨more, rfl, hmore⟩ | ⟨more, rfl, hmore⟩
  · cases eq_nil_of_cons_eq_append hc hmore
    exact ⟨(List.append_nil _).symm, (List.cons.inj hmore).2⟩
  · cases eq_nil_of_cons_eq_append hc' hmore
    exact ⟨List.append_nil _, (List.cons.inj hmore).2.symm⟩

end last

/-- **Entries tell instructions**, but for what is inside them. -/
theorem entry_inj {i j : Instruction} (h : i.entry = j.entry) : i.shell = j.shell := by
  -- an alias may have these signs in it, but what stands behind their last occurrence is a numeral
  obtain ⟨front, length⟩ := append_cons_inj (not_mem_numeral (by decide) _)
    (not_mem_numeral (by decide) _) h
  obtain ⟨heading, offset⟩ := append_cons_inj (not_mem_numeral (by decide) _)
    (not_mem_numeral (by decide) _) front
  rw [numeral_inj] at length offset
  have span : i.span = j.span := by
    calc i.span = ⟨i.span.offset, i.span.length⟩ := rfl
      _ = j.span := by rw [offset, length]
  exact heading_inj (List.append_cancel_right heading) span

theorem entry_eq (i : Instruction) :
    i.entry = (opening i.rule).toList ++
      (i.detail ++ ' ' :: '@' :: (numeral i.span.offset ++ '+' :: numeral i.span.length)) := by
  simp [entry, heading_eq]

/-- The entry begins right after the margin. -/
theorem exists_entry_eq_cons (i : Instruction) : ∃ c rest, i.entry = c :: rest ∧ c ≠ ' ' := by
  have first := (opening_plain _ i.rule_mem).1
  rw [entry_eq]
  cases h : (opening i.rule).toList with
  | nil => simp [h] at first
  | cons c rest => exact ⟨c, _, List.cons_append .., by simpa [h] using first⟩

/-- If an alias is named on one line, the entry is one line. -/
theorem newline_not_mem_entry {i : Instruction}
    (h : ∀ name span, i = leaf (.goto name) span → '\n' ∉ name.toList) : '\n' ∉ i.entry := by
  have detail : '\n' ∉ i.detail := by
    rcases i with ⟨⟨_ | _ | _ | _, count⟩ | _ | _ | name | _, span⟩ | ⟨body, span⟩
    case leaf.goto => exact h name span rfl
    all_goals simp [Instruction.detail, not_mem_numeral]
  rw [entry_eq]
  simp [(opening_plain _ i.rule_mem).2, detail, not_mem_numeral]

end Instruction

end NamedTape
