import NamedTape.Instruction.Listing
import NamedTape.Proofs.Written

/-!
# The spans of programs

The spans of a program that was read say where its text shows it, before its runs are merged and
after (`read_spans_faithful`). This is read off the tiles of the text, one kind of tile after the
other.
-/

namespace NamedTape

/-- The span is a stretch of the text, and not an empty one. -/
def Span.Within (text : List Char) (span : Span) : Prop :=
  0 ≤ span.offset ∧ 0 < span.length ∧ span.stop ≤ text.length

theorem Span.within_between {text : List Char} {start stop : Nat} (hlt : start < stop)
    (h : stop ≤ text.length) : (Span.between start stop).Within text := by
  refine ⟨Int.natCast_nonneg start, ?_, ?_⟩
  · simp only [Span.between]
    omega
  · rw [Span.between_stop]
    exact Int.ofNat_le.mpr h

namespace Instruction

/-- The text shows the instruction where its span says: a leaf as its operation is written, a loop
from bracket to bracket with its body between them. -/
def ShownIn (dialect : Dialect) (text : List Char) : Instruction → Prop
  | leaf operation span => operation.Shown dialect (span.slice text)
  | loop body span =>
    (∃ inner, span.slice text = '[' :: (inner ++ [']'])) ∧
      ∀ i ∈ body, span.offset < i.span.offset ∧ i.span.stop < span.stop

/-- The character at the offset belongs to the instruction itself: of a leaf all do, of a loop its
brackets. -/
def Occupies (offset : Nat) : Instruction → Prop
  | leaf _ span => span.offset ≤ offset ∧ offset < span.stop
  | loop _ span => (offset : Int) = span.offset ∨ (offset : Int) + 1 = span.stop

end Instruction

open Instruction (InOrder Throughout walk walkListAt walkListAt_leaf walkListAt_loop)

/-- The spans of a program say where the text shows it. -/
structure SpansFaithful (dialect : Dialect) (text : List Char) (program : List Instruction) :
    Prop where
  /-- Neighbours in a list follow each other in the text, at any depth. -/
  ordered : Throughout InOrder program
  within : ∀ depth i, (depth, i) ∈ walk program → i.span.Within text
  shown : ∀ depth i, (depth, i) ∈ walk program → i.ShownIn dialect text
  /-- What belongs to no instruction is skipped. -/
  rest : ∀ offset c, text[offset]? = some c →
    (∃ depth i, (depth, i) ∈ walk program ∧ i.Occupies offset) ∨ dialect.Skips c

namespace Tiles

variable {dialect : Dialect} {text : List Char} {start stop : Nat} {l : List Instruction}

theorem slice_loop {first last : Nat} (hlt : first < last) (opens : text[first]? = some '[')
    (closes : text[last]? = some ']') :
    ∃ inner, (Span.between first (last + 1)).slice text = '[' :: (inner ++ [']']) := by
  refine ⟨(Span.between (first + 1) last).slice text, ?_⟩
  rw [Span.slice_append (Nat.le_add_right first 1) (by omega), Span.slice_one opens,
    Span.slice_append hlt (Nat.le_add_right last 1), Span.slice_one closes]
  rfl

/-- Each tile lies within the text, which shows it there. -/
theorem faithful (h : Tiles dialect text start stop l) (depth : Nat) :
    ∀ p ∈ walkListAt depth l, p.2.span.Within text ∧ p.2.ShownIn dialect text := by
  induction h generalizing depth with
  | nil gap => exact fun p hp => absurd hp List.not_mem_nil
  | @leaf _ first past _ operation l gap forward within shown rest ih =>
    intro p hp
    rw [walkListAt_leaf, List.mem_cons] at hp
    rcases hp with rfl | hp
    · exact ⟨Span.within_between forward within, shown⟩
    · exact ih depth p hp
  | @loop _ first last _ body l gap opens inside closes rest ihb ih =>
    intro p hp
    have bound := (List.getElem?_eq_some_iff.mp closes).1
    have hlt := inside.forward
    rw [walkListAt_loop, List.mem_cons, List.mem_append] at hp
    rcases hp with rfl | hp | hp
    · refine ⟨Span.within_between (by omega) (by omega), slice_loop hlt opens closes,
        fun i hi => ?_⟩
      have := inside.placed.2 i hi
      simp only [Span.between_offset, Span.between_stop]
      omega
    · exact ihb (depth + 1) p hp
    · exact ih depth p hp

/-- Each character that is tiled belongs to a tile or is skipped. -/
theorem covers (h : Tiles dialect text start stop l) (depth : Nat) {k : Nat} {c : Char}
    (hstart : start ≤ k) (hstop : k < stop) (hc : text[k]? = some c) :
    (∃ p ∈ walkListAt depth l, p.2.Occupies k) ∨ dialect.Skips c := by
  induction h generalizing depth with
  | nil gap => exact .inr (gap.skips k c hstart hstop hc)
  | @leaf _ first past _ operation l gap forward within shown rest ih =>
    rw [walkListAt_leaf]
    by_cases hfirst : k < first
    · exact .inr (gap.skips k c hstart hfirst hc)
    by_cases hpast : k < past
    · refine .inl ⟨_, List.mem_cons_self, ?_⟩
      simp only [Instruction.Occupies, Span.between_offset, Span.between_stop]
      omega
    · rcases ih depth (Nat.le_of_not_lt hpast) hstop with ⟨p, hp, ho⟩ | skips
      · exact .inl ⟨p, List.mem_cons_of_mem _ hp, ho⟩
      · exact .inr skips
  | @loop _ first last _ body l gap opens inside closes rest ihb ih =>
    rw [walkListAt_loop]
    by_cases hfirst : k < first
    · exact .inr (gap.skips k c hstart hfirst hc)
    by_cases hbracket : k = first ∨ k = last
    · refine .inl ⟨_, List.mem_cons_self, ?_⟩
      simp only [Instruction.Occupies, Span.between_offset, Span.between_stop]
      omega
    by_cases hlast : k < last
    · rcases ihb (depth + 1) (by omega) hlast with ⟨p, hp, ho⟩ | skips
      · exact .inl ⟨p, List.mem_cons_of_mem _ (List.mem_append_left _ hp), ho⟩
      · exact .inr skips
    · rcases ih depth (by omega) hstop with ⟨p, hp, ho⟩ | skips
      · exact .inl ⟨p, List.mem_cons_of_mem _ (List.mem_append_right _ hp), ho⟩
      · exact .inr skips

theorem spansFaithful (h : Tiles dialect text 0 text.length l) :
    SpansFaithful dialect text l where
  ordered := h.placed.1
  within _ _ hi := (h.faithful 0 _ hi).1
  shown _ _ hi := (h.faithful 0 _ hi).2
  rest k c hc := by
    have bound := (List.getElem?_eq_some_iff.mp hc).1
    rcases h.covers 0 (Nat.zero_le k) bound hc with ⟨⟨depth, i⟩, hi, ho⟩ | skips
    · exact .inl ⟨depth, i, hi, ho⟩
    · exact .inr skips

end Tiles

/-- **Spans are faithful.** The spans of a program that was read say where its text shows it, and so
do those of the program with its runs merged. -/
theorem read_spans_faithful {dialect : Dialect} {source filename : String} {program : Program}
    (h : Program.read dialect source filename = .ok program) :
    SpansFaithful dialect source.toList program.instructions ∧
      SpansFaithful dialect source.toList program.merged.instructions := by
  have tiles := tiles_of_read h
  rw [← String.length_toList] at tiles
  exact ⟨tiles.spansFaithful, tiles.merge.spansFaithful⟩

/-- A program with blanks inside its runs, the second of them in a loop behind an alias. -/
def spacedRuns : Program where
  instructions :=
    [.leaf (.counted .add 1) ⟨0, 1⟩, .leaf (.counted .add 1) ⟨2, 1⟩,
      .loop [.leaf (.goto "a b") ⟨5, 5⟩, .leaf (.counted .right 1) ⟨11, 1⟩,
        .leaf (.counted .right 1) ⟨14, 1⟩] ⟨3, 14⟩]
  aliasNames := ["a b"]
  source := "+ +[ {a b} >  > ]"

theorem read_spans_faithful_spacedRuns :
    Program.read {} "+ +[ {a b} >  > ]" "<string>" = .ok spacedRuns ∧
      spacedRuns.merged.instructions = [.leaf (.counted .add 2) ⟨0, 3⟩,
        .loop [.leaf (.goto "a b") ⟨5, 5⟩, .leaf (.counted .right 2) ⟨11, 4⟩] ⟨3, 14⟩] ∧
      SpansFaithful {} "+ +[ {a b} >  > ]".toList spacedRuns.instructions ∧
      SpansFaithful {} "+ +[ {a b} >  > ]".toList spacedRuns.merged.instructions := by
  have read : Program.read {} "+ +[ {a b} >  > ]" "<string>" = .ok spacedRuns := rfl
  obtain ⟨plain, merged⟩ := read_spans_faithful read
  exact ⟨read, by decide, plain, merged⟩

end NamedTape
