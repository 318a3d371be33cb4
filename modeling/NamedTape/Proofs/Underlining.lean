import NamedTape.Diagnostic
import NamedTape.Proofs.Lines
import NamedTape.Proofs.Rejections

/-!
# What a diagnostic underlines

A text that cannot be read has a diagnostic with the line and the column of one character. If that
line shows anything, it stands below, and below it one caret: under the character, or beyond the end
of what is shown if the character is the newline of the line or a carriage return that is left out
(`diagnostic_underlines`).
-/

namespace NamedTape

/-! ## The character at fault -/

/-- What cannot be read is turned down at one of its characters. -/
theorem Program.char_of_read_error {dialect : Dialect} {source name : String} {fault : Fault}
    (h : Program.read dialect source name = .error fault) :
    ∃ (offset : Nat) (c : Char), source.toList[offset]? = some c ∧
      fault.span = some ⟨offset, 1⟩ := by
  unfold Program.read at h
  cases hd : source.toList.foldlM (Draft.feed dialect) {} with
  | error fault' =>
    rw [hd] at h
    cases h
    obtain ⟨before, c, after, draft, split, hbefore, hc⟩ := Draft.foldlM_error hd
    obtain ⟨objection, rfl⟩ := Draft.feed_error hc
    refine ⟨draft.offset, c, ?_, rfl⟩
    rw [(Draft.holds_nil.foldlM hbefore).1, split]
    simp
  | ok draft =>
    rw [hd] at h
    change (draft.finish >>= _) = Except.error fault at h
    cases hf : draft.finish with
    | ok read =>
      rw [hf] at h
      cases h
    | error fault' =>
      rw [hf] at h
      cases h
      obtain ⟨offset, bound, span, -⟩ := (Draft.holds_nil.foldlM hd).rejects_finish hf
      exact ⟨offset, _, List.getElem?_eq_getElem bound, span⟩

/-! ## The caret -/

/-- Where the caret in a column stands: under the character, which is shown, or beyond the end of
what is shown, for a carriage return that is left out or for the newline behind the line. -/
inductive Points (shown : List Char) (returns column : Nat) (c : Char) : Prop
  | under (here : shown[column]? = some c)
  | omitted (beyond : shown.length ≤ column) (line : column < shown.length + returns)
    (char : c = '\r')
  | behind (beyond : column = shown.length + returns) (char : c = '\n')

theorem LiesIn.points {text before shown after : List Char} {offset returns column : Nat}
    (h : LiesIn text offset before (shown ++ List.replicate returns '\r') after column) {c : Char}
    (hc : text[offset]? = some c) : Points shown returns column c := by
  rcases h.char hc with inLine | ⟨column, newline⟩
  · by_cases hlt : column < shown.length
    · rw [List.getElem?_append_left hlt] at inLine
      exact .under inLine
    · have beyond : shown.length ≤ column := Nat.le_of_not_lt hlt
      rw [List.getElem?_append_right beyond, List.getElem?_replicate] at inLine
      split at inLine
      · exact .omitted beyond (by omega) (Option.some.inj inLine).symm
      · cases inLine
  · rw [List.length_append, List.length_replicate] at column
    exact .behind column newline

/-- The rows that show a line with one caret in the column; there are none for an empty line. -/
def caretRows (shown : List Char) (column : Nat) : List String :=
  if shown = [] then []
  else ["    " ++ String.ofList shown,
    String.ofList (List.replicate (4 + column) ' ' ++ ['^'])]

theorem excerpt_one (location : Location) (offset : Int) (shown : List Char) (column : Nat)
    (statement : location.statement = String.ofList shown) (hc : location.column = column + 1) :
    excerpt location ⟨offset, 1⟩ = caretRows shown column := by
  unfold excerpt caretRows
  have width (available : Int) : (max 1 (min 1 available)).toNat = 1 := by omega
  have empty : String.ofList shown = "" ↔ shown = [] := by
    rw [← String.toList_inj, String.toList_ofList]
    rfl
  rw [statement, hc]
  simp only [empty, width, Nat.add_sub_cancel]
  rfl

/-- The diagnostic of the fault has a headline with the line and the column of the character at the
offset, the rows that show the line without the carriage returns at its end, with one caret in that
column, and the message. The caret is under the character, if it is shown. -/
structure Underlines (fault : Fault) (source filename : String) (offset : Nat) (c : Char)
    (before shown after : List Char) (returns column : Nat) : Prop where
  char : source.toList[offset]? = some c
  span : fault.span = some ⟨offset, 1⟩
  line : LiesIn source.toList offset before (shown ++ List.replicate returns '\r') after column
  stripped : shown.getLast? ≠ some '\r'
  text : (Diagnostic.ofFault fault source filename).render = "\n".intercalate
    (Location.headline ⟨filename, before.count '\n' + 1, column + 1, String.ofList shown⟩ ::
      caretRows shown column ++ [fault.cause.label ++ ": " ++ fault.cause.message])
  caret : Points shown returns column c

/-- **A diagnostic underlines the character at fault.** A text that is turned down is so at one
character, which the diagnostic underlines. -/
theorem diagnostic_underlines {dialect : Dialect} {source name : String} {fault : Fault}
    (h : Program.read dialect source name = .error fault) (filename : String) :
    ∃ offset c before shown after returns column,
      Underlines fault source filename offset c before shown after returns column := by
  obtain ⟨offset, c, hc, span⟩ := Program.char_of_read_error h
  obtain ⟨before, line, after, column, lies, location⟩ :=
    Location.ofText_lies source.toList ⟨offset, 1⟩ filename
  obtain ⟨⟨returns, split⟩, last⟩ := dropTrailingReturns_spec line
  have bound : offset < source.toList.length := (List.getElem?_eq_some_iff.mp hc).1
  have clamped : clampOffset (offset : Int) source.toList.length = offset := by
    unfold clampOffset
    omega
  rw [clamped, split] at lies
  have rows := excerpt_one
    ⟨filename, before.count '\n' + 1, column + 1, String.ofList (dropTrailingReturns line)⟩ offset
    (dropTrailingReturns line) column rfl rfl
  refine ⟨offset, c, before, dropTrailingReturns line, after, returns, column, hc, span, lies, last,
    ?_, lies.points hc⟩
  unfold Diagnostic.render Diagnostic.ofFault
  simp only [span, Location.ofSpan, location, rows]

/-- A letter behind a tab, in a line that ends with carriage returns; and where blanks are not
skipped, one of these carriage returns, and a newline. -/
theorem diagnostic_underlines_blanks :
    (Program.read {} "+\n\t [x\r\r\n]" "a" =
        .error ⟨.unrecognized 'x' .meaningless, some ⟨5, 1⟩, none⟩ ∧
      ∃ before shown after returns column,
        Underlines ⟨.unrecognized 'x' .meaningless, some ⟨5, 1⟩, none⟩ "+\n\t [x\r\r\n]" "b" 5 'x'
          before shown after returns column) ∧
    (Program.read ⟨true, false⟩ "+\r\r\n]" "a" =
        .error ⟨.unrecognized '\r' .meaningless, some ⟨1, 1⟩, none⟩ ∧
      ∃ before shown after returns column,
        Underlines ⟨.unrecognized '\r' .meaningless, some ⟨1, 1⟩, none⟩ "+\r\r\n]" "b" 1 '\r'
          before shown after returns column) ∧
    (Program.read ⟨true, false⟩ "+\n]" "a" =
        .error ⟨.unrecognized '\n' .meaningless, some ⟨1, 1⟩, none⟩ ∧
      ∃ before shown after returns column,
        Underlines ⟨.unrecognized '\n' .meaningless, some ⟨1, 1⟩, none⟩ "+\n]" "b" 1 '\n'
          before shown after returns column) := by
  have place {offset n : Nat} (h : (some ⟨n, 1⟩ : Option Span) = some ⟨offset, 1⟩) :
      offset = n :=
    Int.ofNat.inj (congrArg Span.offset (Option.some.inj h)).symm
  have letter : Program.read {} "+\n\t [x\r\r\n]" "a" =
      .error ⟨.unrecognized 'x' .meaningless, some ⟨5, 1⟩, none⟩ := rfl
  have returned : Program.read ⟨true, false⟩ "+\r\r\n]" "a" =
      .error ⟨.unrecognized '\r' .meaningless, some ⟨1, 1⟩, none⟩ := rfl
  have ended : Program.read ⟨true, false⟩ "+\n]" "a" =
      .error ⟨.unrecognized '\n' .meaningless, some ⟨1, 1⟩, none⟩ := rfl
  obtain ⟨first, _, _, _, _, _, _, shown⟩ := diagnostic_underlines letter "b"
  obtain ⟨second, _, _, _, _, _, _, omitted⟩ := diagnostic_underlines returned "b"
  obtain ⟨third, _, _, _, _, _, _, behind⟩ := diagnostic_underlines ended "b"
  cases place (n := 5) shown.span
  cases place (n := 1) omitted.span
  cases place (n := 1) behind.span
  cases Option.some.inj (show some 'x' = some _ from shown.char)
  cases Option.some.inj (show some '\r' = some _ from omitted.char)
  cases Option.some.inj (show some '\n' = some _ from behind.char)
  exact ⟨⟨letter, _, _, _, _, _, shown⟩, ⟨returned, _, _, _, _, _, omitted⟩,
    ⟨ended, _, _, _, _, _, behind⟩⟩

/-- The caret of a carriage return that is left out stands beyond the end of the line. -/
example : (Diagnostic.ofFault ⟨.unrecognized '\r' .meaningless, some ⟨2, 1⟩, none⟩ "+-\r\r\n"
    "p.bf").render =
      "  File \"p.bf\", line 1, col 3\n    +-\n      ^\n" ++
        "UnrecognizedTokenError: Unrecognised character '\\r'" := by
  decide +kernel

end NamedTape
