import NamedTape.Location

/-!
# Lines of a text

An offset on a text lies in one of its lines, or just past its end (`LiesIn`). A location gives the
number of that line, the column of the offset in it, and the line without the carriage returns at
its end (`Location.ofText_lies`).
-/

namespace NamedTape

/-- The offset lies so many characters into the line; before the line, if anything, stands a
newline, and so it does behind it. -/
structure LiesIn (text : List Char) (offset : Nat) (before line after : List Char)
    (column : Nat) : Prop where
  whole : text = before ++ line ++ after
  begins : before = [] ∨ before.getLast? = some '\n'
  plain : '\n' ∉ line
  ends : after = [] ∨ after.head? = some '\n'
  offset_eq : offset = before.length + column
  within : column ≤ line.length

section lines

variable {text : List Char} {offset : Nat} {before row after : List Char} {column : Nat}

/-- The character at the offset is one of the line, or the newline behind it. -/
theorem LiesIn.char (h : LiesIn text offset before row after column) {c : Char}
    (hc : text[offset]? = some c) :
    row[column]? = some c ∨ column = row.length ∧ c = '\n' := by
  rw [h.whole, h.offset_eq, List.append_assoc, List.getElem?_append_right (Nat.le_add_right _ _),
    Nat.add_sub_cancel_left] at hc
  by_cases hlt : column < row.length
  · rw [List.getElem?_append_left hlt] at hc
    exact .inl hc
  · have hcolumn : column = row.length := Nat.le_antisymm h.within (Nat.le_of_not_lt hlt)
    rw [hcolumn, List.getElem?_append_right (Nat.le_refl _), Nat.sub_self,
      ← List.head?_eq_getElem?] at hc
    rcases h.ends with none | newline
    · rw [none] at hc
      cases hc
    · exact .inr ⟨hcolumn, Option.some.inj (hc.symm.trans newline)⟩

/-- The part of a text that ends with its last newline, and the last line. -/
theorem split_last_line (text : List Char) :
    ∃ before, text = before ++ (text.reverse.takeWhile (· != '\n')).reverse ∧
      (before = [] ∨ before.getLast? = some '\n') := by
  refine ⟨(text.reverse.dropWhile (· != '\n')).reverse, ?_, ?_⟩
  · rw [← List.reverse_append, List.takeWhile_append_dropWhile, List.reverse_reverse]
  · rw [List.getLast?_reverse]
    cases hd : text.reverse.dropWhile (· != '\n') with
    | nil => exact .inl rfl
    | cons c rest =>
      have stops : (c != '\n') = false := by
        have head := List.head?_dropWhile_not (· != '\n') text.reverse
        rw [hd] at head
        simpa using head
      exact .inr (congrArg some (bne_eq_false_iff_eq.mp stops))

theorem not_mem_takeWhile_newline (text : List Char) : '\n' ∉ text.takeWhile (· != '\n') := by
  intro h
  have := List.all_eq_true.mp List.all_takeWhile _ h
  simp at this

/-- What stands behind the first line of a text. -/
theorem dropWhile_newline (text : List Char) :
    text.dropWhile (· != '\n') = [] ∨ (text.dropWhile (· != '\n')).head? = some '\n' := by
  cases hd : text.dropWhile (· != '\n') with
  | nil => exact .inl rfl
  | cons c rest =>
    have head := List.head?_dropWhile_not (· != '\n') text
    rw [hd] at head
    have : c = '\n' := by simpa using head
    exact .inr (congrArg some this)

end lines

/-- **Locations.** A location is about the line in which the offset lies. -/
theorem Location.ofText_lies (text : List Char) (span : Span) (file : String) :
    ∃ before line after column,
      LiesIn text (clampOffset span.offset text.length) before line after column ∧
      ofText text span file =
        { file
          line := before.count '\n' + 1
          column := column + 1
          statement := String.ofList (dropTrailingReturns line) } := by
  unfold ofText
  generalize hoffset : clampOffset span.offset text.length = offset
  have bound : offset ≤ text.length := by
    rw [← hoffset]
    exact Nat.min_le_right _ _
  obtain ⟨before, split, begins⟩ := split_last_line (text.take offset)
  generalize hhead : ((text.take offset).reverse.takeWhile (· != '\n')).reverse = head at split
  have plain : '\n' ∉ head := by
    rw [← hhead, List.mem_reverse]
    exact not_mem_takeWhile_newline _
  have tail := List.takeWhile_append_dropWhile (p := (· != '\n')) (l := text.drop offset)
  refine ⟨before, head ++ (text.drop offset).takeWhile (· != '\n'),
    (text.drop offset).dropWhile (· != '\n'), head.length, ⟨?_, begins, ?_, dropWhile_newline _,
    ?_, ?_⟩, ?_⟩
  · rw [← List.append_assoc, ← split, List.append_assoc, tail, List.take_append_drop]
  · rw [List.mem_append]
    exact not_or.mpr ⟨plain, not_mem_takeWhile_newline _⟩
  · have length := congrArg List.length split
    rw [List.length_append, List.length_take] at length
    omega
  · rw [List.length_append]
    omega
  · have newlines := congrArg (List.count '\n') split
    rw [List.count_append, List.count_eq_zero.mpr plain, Nat.add_zero] at newlines
    dsimp only
    rw [hhead, newlines]

/-- What is left of a line once the carriage returns at its end are gone. -/
theorem dropTrailingReturns_spec (line : List Char) :
    (∃ returns, line = dropTrailingReturns line ++ List.replicate returns '\r') ∧
      (dropTrailingReturns line).getLast? ≠ some '\r' := by
  unfold dropTrailingReturns
  constructor
  · have returns : line.reverse.takeWhile (· == '\r') =
        List.replicate (line.reverse.takeWhile (· == '\r')).length '\r' := by
      refine List.eq_replicate_iff.mpr ⟨rfl, fun c hc => ?_⟩
      exact eq_of_beq (List.all_eq_true.mp List.all_takeWhile c hc)
    refine ⟨(line.reverse.takeWhile (· == '\r')).length, ?_⟩
    rw [← List.reverse_replicate, ← returns, ← List.reverse_append, List.takeWhile_append_dropWhile,
      List.reverse_reverse]
  · rw [List.getLast?_reverse]
    intro h
    have head := List.head?_dropWhile_not (· == '\r') line.reverse
    rw [h] at head
    simp at head

end NamedTape
