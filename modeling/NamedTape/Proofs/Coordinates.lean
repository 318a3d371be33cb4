import Mathlib.Algebra.Ring.Nat
import NamedTape.Proofs.Lines

/-!
# Lines and columns as coordinates

The rows of a text are its pieces between newlines. A line and a column in it are a place if there
is such a row, and the column is one of its characters or just past its end.

* Offsets on a text and places are the same thing twice, in the same order: a location gives the
  place of an offset, and `offsetAt` the offset of a place (`Location.coordinates`).
* A place in an earlier row has a smaller offset (`IsPlace.offsetAt_lt`), so that no other place has
  the offset of a place.
-/

namespace NamedTape

/-! ## Rows -/

/-- The pieces of a text between its newlines. -/
def rows (text : List Char) : List (List Char) := text.splitOn '\n'

/-- How many characters there are in the rows, each with the newline behind it. -/
def extent (rows : List (List Char)) : Nat := (rows.map (·.length + 1)).sum

theorem rows_cons (c : Char) (text : List Char) :
    rows (c :: text) = if c = '\n' then [] :: rows text else (rows text).modifyHead (c :: ·) := by
  simp only [rows, List.splitOn_eq_splitOnP, List.splitOnP_cons_eq_if_modifyHead, beq_iff_eq]

theorem rows_ne_nil (text : List Char) : rows text ≠ [] := List.splitOn_ne_nil _ _

theorem rows_plain {text : List Char} (h : '\n' ∉ text) : rows text = [text] := by
  rw [rows, List.splitOn_eq_splitOnP]
  refine List.splitOnP_eq_singleton fun c hc => ?_
  simpa using ne_of_mem_of_not_mem hc h

theorem rows_append (text more : List Char) :
    rows (text ++ '\n' :: more) = rows text ++ rows more := by
  simp only [rows, List.splitOn_eq_splitOnP]
  exact List.splitOnP_append_cons text more (beq_self_eq_true _)

/-- There is one row more than there are newlines. -/
theorem length_rows (text : List Char) : (rows text).length = text.count '\n' + 1 := by
  induction text with
  | nil => rfl
  | cons c rest ih =>
    rw [rows_cons, List.count_cons]
    split <;> simp [*]

theorem extent_eq (rows : List (List Char)) :
    extent rows = (rows.map List.length).sum + rows.length := by
  induction rows with
  | nil => rfl
  | cons row below ih =>
    simp only [extent, List.map_cons, List.sum_cons, List.length_cons] at ih ⊢
    omega

theorem extent_modifyHead {rows : List (List Char)} (h : rows ≠ []) (c : Char) :
    extent (rows.modifyHead (c :: ·)) = extent rows + 1 := by
  obtain ⟨row, below, rfl⟩ := List.exists_cons_of_ne_nil h
  simp only [extent, List.modifyHead_cons, List.map_cons, List.sum_cons, List.length_cons]
  omega

/-- The rows have the characters of the text, and a newline behind the last of them. -/
theorem extent_rows (text : List Char) : extent (rows text) = text.length + 1 := by
  induction text with
  | nil => rfl
  | cons c rest ih =>
    rw [rows_cons, List.length_cons, ← ih]
    split
    · simp only [extent, List.map_cons, List.sum_cons, List.length_nil]
      omega
    · exact extent_modifyHead (rows_ne_nil rest) c

theorem extent_take_succ {rows : List (List Char)} {number : Nat} {row : List Char}
    (h : rows[number]? = some row) :
    extent (rows.take (number + 1)) = extent (rows.take number) + (row.length + 1) := by
  simp [extent, List.take_add_one, h]

theorem extent_take_mono (rows : List (List Char)) {m n : Nat} (h : m ≤ n) :
    extent (rows.take m) ≤ extent (rows.take n) := by
  obtain ⟨more, rfl⟩ := Nat.exists_eq_add_of_le h
  simp only [extent, List.take_add, List.map_append, List.sum_append]
  omega

/-! ## Places -/

/-- The line is that of a row, and the column one of its characters or just past its end. -/
structure IsPlace (rows : List (List Char)) (line column : Nat) : Prop where
  line_pos : 1 ≤ line
  column_pos : 1 ≤ column
  row : ∃ row, rows[line - 1]? = some row ∧ column ≤ row.length + 1

/-- The offset of a place: past the rows before its own, and past what is before it in its own. -/
def offsetAt (rows : List (List Char)) (line column : Nat) : Nat :=
  extent (rows.take (line - 1)) + (column - 1)

section places

variable {rows : List (List Char)} {line column line' column' : Nat}

/-- A place lies before the end of its row, with the newline behind it. -/
theorem IsPlace.offsetAt_lt_extent (h : IsPlace rows line column) :
    offsetAt rows line column < extent (rows.take line) := by
  have hline := h.line_pos
  have hcolumn := h.column_pos
  obtain ⟨row, hrow, hle⟩ := h.row
  have taken := extent_take_succ hrow
  rw [Nat.sub_add_cancel hline] at taken
  rw [offsetAt, taken]
  omega

/-- A place in an earlier row has a smaller offset. -/
theorem IsPlace.offsetAt_lt (h : IsPlace rows line column) (hlt : line < line') (column' : Nat) :
    offsetAt rows line column < offsetAt rows line' column' := by
  have before := extent_take_mono rows (Nat.le_sub_one_of_lt hlt)
  have within := h.offsetAt_lt_extent
  rw [offsetAt] at within ⊢
  rw [offsetAt]
  omega

/-- Places are in the order of their offsets. -/
theorem IsPlace.lex_of_offsetAt_lt (h' : IsPlace rows line' column')
    (hlt : offsetAt rows line column < offsetAt rows line' column') :
    line < line' ∨ line = line' ∧ column < column' := by
  rcases Nat.lt_trichotomy line line' with earlier | rfl | later
  · exact .inl earlier
  · rw [offsetAt, offsetAt] at hlt
    exact .inr ⟨rfl, by omega⟩
  · have := h'.offsetAt_lt later column
    omega

/-- A place has an offset of its own. -/
theorem IsPlace.eq_of_offsetAt_eq (h : IsPlace rows line column) (h' : IsPlace rows line' column')
    (heq : offsetAt rows line column = offsetAt rows line' column') :
    line = line' ∧ column = column' := by
  have hcolumn := h.column_pos
  have hcolumn' := h'.column_pos
  rcases Nat.lt_trichotomy line line' with earlier | rfl | later
  · have := h.offsetAt_lt earlier column'
    omega
  · rw [offsetAt, offsetAt] at heq
    omega
  · have := h'.offsetAt_lt later column
    omega

theorem IsPlace.offsetAt_le {text : List Char} (h : IsPlace (NamedTape.rows text) line column) :
    offsetAt (NamedTape.rows text) line column ≤ text.length := by
  have within := h.offsetAt_lt_extent
  have whole := extent_take_mono (NamedTape.rows text)
    (Nat.le_max_left line (NamedTape.rows text).length)
  rw [List.take_of_length_le (Nat.le_max_right ..), extent_rows] at whole
  omega

end places

/-! ## Locations -/

/-- The line in which an offset lies is a row of the text. The newlines before it are as many as the
rows before it, and these take up all that is before it. -/
theorem LiesIn.rows_eq {text before line after : List Char} {offset column : Nat}
    (h : LiesIn text offset before line after column) :
    ∃ above below, rows text = above ++ line :: below ∧ above.length = before.count '\n' ∧
      extent above = before.length := by
  have own : ∃ below, rows (line ++ after) = line :: below := by
    rcases h.ends with rfl | newline
    · exact ⟨[], by rw [List.append_nil, rows_plain h.plain]⟩
    · obtain ⟨rest, rfl⟩ := List.head?_eq_some_iff.mp newline
      exact ⟨rows rest, by rw [rows_append, rows_plain h.plain, List.singleton_append]⟩
  obtain ⟨below, hbelow⟩ := own
  rw [h.whole, List.append_assoc]
  rcases h.begins with rfl | newline
  · exact ⟨[], below, hbelow, rfl, rfl⟩
  · obtain ⟨first, rfl⟩ := List.getLast?_eq_some_iff.mp newline
    refine ⟨rows first, below, ?_, ?_, ?_⟩
    · rw [List.append_assoc, List.singleton_append, rows_append, hbelow]
    · rw [length_rows, List.count_append, List.count_singleton_self]
    · rw [extent_rows, List.length_append, List.length_singleton]

/-- What a location says of the offset of a span: its place, and the row without the carriage
returns at its end. -/
theorem Location.ofText_place (text : List Char) (span : Span) (file : String) :
    IsPlace (rows text) (ofText text span file).line (ofText text span file).column ∧
    offsetAt (rows text) (ofText text span file).line (ofText text span file).column =
      clampOffset span.offset text.length ∧
    ∃ row, (rows text)[(ofText text span file).line - 1]? = some row ∧
      (ofText text span file).statement = String.ofList (dropTrailingReturns row) := by
  obtain ⟨before, line, after, column, lies, location⟩ := ofText_lies text span file
  obtain ⟨above, below, hrows, hlength, hextent⟩ := lies.rows_eq
  have row : (rows text)[before.count '\n' + 1 - 1]? = some line := by
    rw [hrows, Nat.add_sub_cancel, ← hlength, List.getElem?_append_right (Nat.le_refl _),
      Nat.sub_self, List.getElem?_cons_zero]
  have taken : (rows text).take (before.count '\n' + 1 - 1) = above := by
    rw [hrows, Nat.add_sub_cancel, ← hlength, List.take_left]
  rw [location]
  refine ⟨⟨Nat.le_add_left .., Nat.le_add_left .., line, row, Nat.add_le_add_right lies.within 1⟩,
    ?_, line, row, rfl⟩
  rw [offsetAt, taken, hextent, lies.offset_eq, Nat.add_sub_cancel]

/-- **Line and column are coordinates of an offset.** Of a span, the offset brought onto the text:

* The line counts the newlines before it. It is shown as the row of that number, less the carriage
  returns at its end; and the column is one of that row or just past it.
* The offset is the number of the characters in the rows before, one newline for each of these rows,
  and the columns before.

So a later offset has a later line, or the same line and a later column; and every place is that of
one offset on the text, and of no other. -/
theorem Location.coordinates (source file : String) :
    let text := source.toList
    let located (span : Span) := Location.ofSpan source span file
    let offset (span : Span) := clampOffset span.offset text.length
    (∀ span,
      (located span).line = (text.take (offset span)).count '\n' + 1 ∧
      (∃ row, (rows text)[(located span).line - 1]? = some row ∧
        (∃ returns, row = (located span).statement.toList ++ List.replicate returns '\r') ∧
        (located span).statement.toList.getLast? ≠ some '\r' ∧
        1 ≤ (located span).column ∧ (located span).column ≤ row.length + 1) ∧
      offset span = (((rows text).take ((located span).line - 1)).map List.length).sum +
        ((located span).line - 1) + ((located span).column - 1)) ∧
    (∀ s t : Span, offset s < offset t →
      (located s).line < (located t).line ∨
        (located s).line = (located t).line ∧ (located s).column < (located t).column) ∧
    ∀ line column, IsPlace (rows text) line column → ∃ n ≤ text.length,
      ∀ span, offset span = n ↔ (located span).line = line ∧ (located span).column = column := by
  intro text located offset
  refine ⟨fun span => ?_, fun s t hlt => ?_, fun line column place => ?_⟩
  · obtain ⟨place, hoffset, row, hrow, statement⟩ := ofText_place text span file
    obtain ⟨returns, last⟩ := dropTrailingReturns_spec row
    have shown : (located span).statement.toList = dropTrailingReturns row :=
      (congrArg String.toList statement).trans String.toList_ofList
    have hle := Nat.le_of_lt (List.getElem?_eq_some_iff.mp hrow).1
    refine ⟨rfl, ⟨row, hrow, shown ▸ returns, shown ▸ last, place.column_pos, ?_⟩, ?_⟩
    · obtain ⟨row', hrow', bound⟩ := place.row
      cases hrow.symm.trans hrow'
      exact bound
    · rw [offsetAt, extent_eq, List.length_take_of_le hle] at hoffset
      exact hoffset.symm
  · obtain ⟨-, first, -⟩ := ofText_place text s file
    obtain ⟨place, second, -⟩ := ofText_place text t file
    exact place.lex_of_offsetAt_lt
      (Nat.lt_of_lt_of_eq (Nat.lt_of_le_of_lt (Nat.le_of_eq first) hlt) second.symm)
  · refine ⟨offsetAt (rows text) line column, place.offsetAt_le, fun span => ?_⟩
    obtain ⟨own, hoffset, -⟩ := ofText_place text span file
    constructor
    · intro heq
      exact own.eq_of_offsetAt_eq place (hoffset.trans heq)
    · rintro ⟨rfl, rfl⟩
      exact hoffset.symm

/-- A line that ends in a carriage return, an empty one, and one without an end. -/
def lineEnds : String := "ab\r\n\nc"

theorem Location.coordinates_lineEnds :
    -- The newline of the first line comes before what is past the end of the text.
    clampOffset 3 lineEnds.toList.length < clampOffset 99 lineEnds.toList.length ∧
    ((ofSpan lineEnds ⟨3, 1⟩ "f").line < (ofSpan lineEnds ⟨99, 0⟩ "f").line ∨
      (ofSpan lineEnds ⟨3, 1⟩ "f").line = (ofSpan lineEnds ⟨99, 0⟩ "f").line ∧
        (ofSpan lineEnds ⟨3, 1⟩ "f").column < (ofSpan lineEnds ⟨99, 0⟩ "f").column) ∧
    IsPlace (rows lineEnds.toList) 1 4 ∧
    (∃ n ≤ lineEnds.toList.length, ∀ span : Span,
      clampOffset span.offset lineEnds.toList.length = n ↔
        (ofSpan lineEnds span "f").line = 1 ∧ (ofSpan lineEnds span "f").column = 4) ∧
    ofSpan lineEnds ⟨3, 1⟩ "f" = ⟨"f", 1, 4, "ab"⟩ ∧
    ofSpan lineEnds ⟨99, 0⟩ "f" = ⟨"f", 3, 2, "c"⟩ := by
  obtain ⟨-, order, onto⟩ := coordinates lineEnds "f"
  have earlier : clampOffset 3 lineEnds.toList.length < clampOffset 99 lineEnds.toList.length := by
    decide
  have place : IsPlace (rows lineEnds.toList) 1 4 :=
    ⟨by decide, by decide, ['a', 'b', '\r'], by decide, by decide⟩
  exact ⟨earlier, order ⟨3, 1⟩ ⟨99, 0⟩ earlier, place, onto 1 4 place, by decide, by decide⟩

end NamedTape
