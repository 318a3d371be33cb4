import NamedTape.Proofs.Coordinates
import NamedTape.Proofs.Tilings

/-!
# Locations tell offsets apart

Two offsets on a text that are shown at the same line and column are the same
(`Location.offset_eq`). The instructions that tile a text begin one after another, and a loop begins
before its body does, so no two of them are shown at the same place.
-/

namespace NamedTape

/-! ## Lines and columns -/

/-- The offset lies on the text, or just past its end. -/
def Span.On (text : List Char) (span : Span) : Prop :=
  0 ≤ span.offset ∧ span.offset ≤ text.length

namespace Location

theorem clampOffset_of_on {text : List Char} {span : Span} (h : span.On text) :
    (clampOffset span.offset text.length : Int) = span.offset := by
  obtain ⟨_, _⟩ := h
  unfold clampOffset
  omega

/-- **Line and column tell where in the text a span begins.** -/
theorem offset_eq {text : List Char} {s t : Span} (hs : s.On text) (ht : t.On text)
    {file : String} (line : (ofText text s file).line = (ofText text t file).line)
    (column : (ofText text s file).column = (ofText text t file).column) :
    s.offset = t.offset := by
  obtain ⟨-, first, -⟩ := ofText_place text s file
  obtain ⟨-, second, -⟩ := ofText_place text t file
  rw [line, column, second] at first
  rw [← clampOffset_of_on hs, ← clampOffset_of_on ht, first]

end Location

/-! ## Where instructions begin -/

variable {dialect : Dialect} {text : List Char} {start stop : Nat} {l : List Instruction}

/-- The instructions begin one after another on the text, none of them before the start. -/
structure Ascends (text : List Char) (start : Nat) (l : List Instruction) : Prop where
  order : (l.map (·.span.offset)).Pairwise (· < ·)
  on : ∀ i ∈ l, (start : Int) ≤ i.span.offset ∧ i.span.offset < text.length

theorem Ascends.cons {i : Instruction} {first past : Nat} (begins : i.span.offset = first)
    (after : start ≤ first) (past_first : first < past) (within : first < text.length)
    (h : Ascends text past l) : Ascends text start (i :: l) := by
  refine ⟨List.pairwise_cons.mpr ⟨?_, h.order⟩, List.forall_mem_cons.mpr ⟨?_, ?_⟩⟩
  · rintro offset hoffset
    obtain ⟨j, hj, rfl⟩ := List.mem_map.mp hoffset
    have := h.on j hj
    show i.span.offset < j.span.offset
    omega
  · omega
  · intro j hj
    have := h.on j hj
    omega

/-- Instructions that tile a text begin one after another. -/
theorem Tiles.ascends (h : Tiles dialect text start stop l) : Ascends text start l := by
  induction h with
  | nil gap => exact ⟨.nil, fun _ h => absurd h List.not_mem_nil⟩
  | leaf gap forward within _ rest ih =>
    exact ih.cons rfl gap.forward forward (Nat.lt_of_lt_of_le forward within)
  | loop gap opens inside closes rest ihb ih =>
    have hinside := inside.forward
    obtain ⟨hfirst, -⟩ := List.getElem?_eq_some_iff.mp opens
    exact ih.cons rfl gap.forward (by omega) hfirst

/-- The body of a loop tiles what comes after the place where the loop begins. -/
theorem Tiles.inside (h : Tiles dialect text start stop l) {body : List Instruction} {span : Span}
    (hm : .loop body span ∈ l) :
    ∃ first last : Nat, span.offset = first ∧ first < text.length ∧
      Tiles dialect text (first + 1) last body := by
  induction h with
  | nil gap => cases hm
  | leaf gap forward within shown rest ih =>
    obtain heq | hm := List.mem_cons.mp hm
    · cases heq
    · exact ih hm
  | loop gap opens inside closes rest ihb ih =>
    obtain heq | hm := List.mem_cons.mp hm
    · cases heq
      obtain ⟨hfirst, -⟩ := List.getElem?_eq_some_iff.mp opens
      exact ⟨_, _, rfl, hfirst, inside⟩
    · exact ih hm

end NamedTape
