/-!
# Spans

A span is a stretch of source text, given by its offset and its length in characters. Both are
integers: a program that was not read from text may carry any numbers.
-/

namespace NamedTape

/-- A stretch of text: `length` characters from `offset` on. -/
structure Span where
  offset : Int
  length : Int
deriving DecidableEq, Repr, Inhabited

namespace Span

/-- The offset just past the span. -/
def stop (s : Span) : Int := s.offset + s.length

/-- The least span that contains both. -/
def cover (s t : Span) : Span :=
  let start := min s.offset t.offset
  ⟨start, max s.stop t.stop - start⟩

/-- The characters of a text in the span. -/
def slice (span : Span) (text : List Char) : List Char :=
  (text.drop span.offset.toNat).take span.length.toNat

theorem cover_offset (s t : Span) : (s.cover t).offset = min s.offset t.offset := rfl

theorem cover_stop (s t : Span) : (s.cover t).stop = max s.stop t.stop := by
  simp only [cover, stop]; omega

end Span

end NamedTape
