import NamedTape.Proofs.Reading
import NamedTape.Proofs.Tokens

/-!
# Rejections

A text that is turned down is so at the place where it stops being the beginning of a program
(`read_rejects`).

* A text is viable if it can be continued to a program. It is so just if a draft gets through it
  (`viable_iff_fed`): open aliases and loops can always be closed.
* So a character that cannot stand where it stands is the first after which nothing is viable, and
  the end of the text turns down only what is viable.
-/

namespace NamedTape

open Instruction (gotos)

/-- Some continuation of the text is read as a program. -/
def Dialect.Viable (dialect : Dialect) (text : List Char) : Prop :=
  ∃ more filename program,
    Program.read dialect (String.ofList (text ++ more)) filename = .ok program

theorem Dialect.viable_iff {dialect : Dialect} {text : List Char} :
    dialect.Viable text ↔ ∃ more, dialect.Derives (text ++ more) := by
  constructor
  · rintro ⟨more, filename, program, h⟩
    have written := (Program.read_ok_iff.mp h).1
    rw [String.toList_ofList] at written
    exact ⟨more, written.derives⟩
  · rintro ⟨more, h⟩
    obtain ⟨l, written⟩ := (derives_iff 0).mp h
    refine ⟨more, "", ⟨l, AliasTable.distinct (gotos l), String.ofList (text ++ more), ""⟩, ?_⟩
    exact Program.read_ok_iff.mpr ⟨by rwa [String.toList_ofList], rfl, rfl, rfl⟩

namespace Draft

open Dialect (viable_iff)

variable {dialect : Dialect} {text : List Char}

/-! ## What is open can be closed -/

theorem Pending.derives {loops : List OpenLoop} {current : List Instruction}
    (h : Pending dialect loops current text) :
    dialect.Derives (text ++ List.replicate loops.length ']') := by
  induction loops generalizing current text with
  | nil =>
    rw [List.length_nil, List.replicate_zero, List.append_nil]
    exact Dialect.Writes.derives h
  | cons loop outer ih =>
    have closed := ih h.close
    rwa [List.append_assoc, List.singleton_append, ← List.replicate_succ] at closed

theorem Pending.viable {loops : List OpenLoop} {current : List Instruction}
    (h : Pending dialect loops current text) : dialect.Viable text :=
  viable_iff.mpr ⟨_, h.derives⟩

theorem Holds.viable {draft : Draft} (h : Holds dialect draft text) : dialect.Viable text := by
  cases ho : draft.openAlias with
  | none =>
    have pending := h.2
    rw [ho] at pending
    exact pending.viable
  | some opened =>
    -- Once the name is closed, nothing but loops is open.
    have closed : Holds dialect (draft.feedAlias opened '}').advance (text ++ ['}']) :=
      h.feedAlias ho
    rw [Draft.feedAlias, if_pos rfl] at closed
    obtain ⟨more, hmore⟩ := viable_iff.mp (Pending.viable closed.2)
    rw [List.append_assoc] at hmore
    exact viable_iff.mpr ⟨_, hmore⟩

/-- A text is viable just if a draft gets through it. -/
theorem viable_iff_fed :
    dialect.Viable text ↔ ∃ draft, text.foldlM (feed dialect) {} = .ok draft := by
  constructor
  · intro h
    obtain ⟨more, derives⟩ := viable_iff.mp h
    obtain ⟨l, written⟩ := (Dialect.derives_iff 0).mp derives
    have whole : Gains dialect {} (text ++ more) l := gains_of_writes written rfl rfl
    cases part : text.foldlM (feed dialect) {} with
    | ok draft => exact ⟨draft, rfl⟩
    | error fault =>
      rw [Gains, List.foldlM_append, part] at whole
      cases whole
  · rintro ⟨draft, h⟩
    exact (holds_nil.foldlM h).viable

/-! ## The tokens that a draft has read -/

theorem Pending.splits {loops : List OpenLoop} {current : List Instruction}
    (h : Pending dialect loops current text) : ∃ tokens, dialect.Tokens text tokens := by
  induction loops generalizing current text with
  | nil =>
    obtain ⟨tokens, ht, -⟩ := Dialect.Writes.splits h
    exact ⟨tokens, ht⟩
  | cons loop outer ih =>
    obtain ⟨before, inner, rfl, -, hinner, hbefore⟩ := h
    obtain ⟨tokens, ht⟩ := ih hbefore
    obtain ⟨body, hbody, -⟩ := hinner.splits
    exact ⟨_, ht.append (.cons (.plain (by decide)) hbody)⟩

/-- The innermost open loop begins at the last bracket that is not matched. -/
theorem Pending.lastOpen {loop : OpenLoop} {outer : List OpenLoop} {current : List Instruction}
    (h : Pending dialect (loop :: outer) current text) : dialect.LastOpen text loop.start := by
  obtain ⟨before, inner, rfl, hstart, hinner, hbefore⟩ := h
  obtain ⟨first, hfirst⟩ := hbefore.splits
  obtain ⟨after, hafter, balanced⟩ := hinner.splits
  have whole : dialect.Tokens (before ++ '[' :: inner) (first ++ ['['] :: after) :=
    hfirst.append (.cons (.plain (by decide)) hafter)
  refine ⟨first, after, fun tokens => ⟨fun h => h.unique whole, fun h => h ▸ whole⟩, ?_,
    balanced.not_matched, fun inner rest h => (h ▸ balanced).matched⟩
  rw [hfirst.whole, hstart]

end Draft

/-! ## The place of a rejection -/

/-- The text is rightly turned down at the offset for the cause. -/
def Dialect.Rejects (dialect : Dialect) (text : List Char) (offset : Nat) : Cause → Prop
  | .unrecognized c _ =>
    text[offset]? = some c ∧ dialect.Viable (text.take offset) ∧
      ¬ dialect.Viable (text.take (offset + 1))
  | .unterminatedAlias =>
    dialect.aliases = true ∧ (∃ tokens, dialect.Tokens (text.take offset) tokens) ∧
      dialect.Viable (text.take offset) ∧ text[offset]? = some '{' ∧
      '}' ∉ text.drop (offset + 1)
  | .unbalancedLoop => dialect.Viable text ∧ dialect.LastOpen text offset
  | _ => False

theorem Draft.Holds.rejects_finish {dialect : Dialect} {draft : Draft} {text : List Char}
    {fault : Fault} (h : Holds dialect draft text) (hf : draft.finish = .error fault) :
    ∃ offset, offset < text.length ∧ fault.span = some ⟨offset, 1⟩ ∧
      dialect.Rejects text offset fault.cause := by
  have viable := h.viable
  obtain ⟨-, h⟩ := h
  cases ho : draft.openAlias with
  | some opened =>
    rw [finish, ho] at hf
    cases hf
    rw [ho] at h
    obtain ⟨before, rfl, hstart, halias, hn, hbefore⟩ := h
    refine ⟨opened.start, by simp [hstart], rfl, ?_⟩
    rw [hstart]
    refine ⟨halias, ?_, ?_, by simp, by simpa using hn⟩
    · rw [List.take_left]
      exact hbefore.splits
    · rw [List.take_left]
      exact hbefore.viable
  | none =>
    rw [ho] at h
    cases hl : draft.openLoops with
    | nil =>
      rw [finish, ho, hl] at hf
      cases hf
    | cons loop outer =>
      rw [finish, ho, hl] at hf
      cases hf
      rw [hl] at h
      refine ⟨loop.start, ?_, rfl, viable, h.lastOpen⟩
      obtain ⟨before, inner, rfl, hstart, -, -⟩ := h
      simp [hstart]

/-- **A text is turned down where it stops being a program.** The fault is at one character. Either
no program begins with the text through that character, though some do with the text before it; or
the text ends within the alias that begins there; or it ends within loops, of which the innermost
begins there. Where no program begins with the text, it is the first. -/
theorem read_rejects {dialect : Dialect} {source filename : String} {fault : Fault}
    (h : Program.read dialect source filename = .error fault) :
    (∃ offset, offset < source.length ∧ fault.span = some ⟨offset, 1⟩ ∧
      dialect.Rejects source.toList offset fault.cause) ∧
    (¬ dialect.Viable source.toList → ∃ c objection, fault.cause = .unrecognized c objection) := by
  unfold Program.read at h
  rw [← String.length_toList]
  cases hd : source.toList.foldlM (Draft.feed dialect) {} with
  | error fault' =>
    rw [hd] at h
    cases h
    obtain ⟨before, c, after, draft, split, hbefore, hc⟩ := Draft.foldlM_error hd
    have holds := Draft.holds_nil.foldlM hbefore
    obtain ⟨objection, rfl⟩ := Draft.feed_error hc
    refine ⟨⟨draft.offset, ?_, rfl, ?_, ?_, ?_⟩, fun _ => ⟨c, objection, rfl⟩⟩
    all_goals rw [holds.1, split, List.nil_append]
    · simp
    · simp
    · rw [List.take_left]
      exact holds.viable
    · rw [← List.singleton_append, ← List.append_assoc, List.take_left' (by simp),
        Draft.viable_iff_fed]
      rintro ⟨draft', through⟩
      rw [List.foldlM_append, hbefore] at through
      change (draft.feed dialect c >>= _) = _ at through
      rw [hc] at through
      cases through
  | ok draft =>
    rw [hd] at h
    change (draft.finish >>= _) = Except.error fault at h
    cases hf : draft.finish with
    | ok read =>
      rw [hf] at h
      cases h
    | error fault' =>
      rw [hf] at h
      cases h
      have holds := Draft.holds_nil.foldlM hd
      exact ⟨holds.rejects_finish hf, fun hn => absurd holds.viable hn⟩

/-- A loop is left open around one that is closed and behind another whose only closing bracket is
a name; a name is left open in a loop; and a loop is closed that was never opened. -/
theorem read_rejects_brackets :
    (Program.read {} "[{]}[+ [-]" "<string>" = .error ⟨.unbalancedLoop, some ⟨4, 1⟩, none⟩ ∧
      Dialect.LastOpen {} "[{]}[+ [-]".toList 4) ∧
    (Program.read {} "[.\x7ba]" "<string>" = .error ⟨.unterminatedAlias, some ⟨2, 1⟩, none⟩ ∧
      Dialect.Viable {} "[.".toList) ∧
    Program.read {} "[{]}]]-" "<string>" =
        .error ⟨.unrecognized ']' .unopened, some ⟨5, 1⟩, none⟩ ∧
      Dialect.Viable {} "[{]}]".toList ∧ ¬ Dialect.Viable {} "[{]}]]".toList := by
  have place {offset n : Nat} (h : (some ⟨n, 1⟩ : Option Span) = some ⟨offset, 1⟩) :
      offset = n :=
    Int.ofNat.inj (congrArg Span.offset (Option.some.inj h)).symm
  have unclosed : Program.read {} "[{]}[+ [-]" "<string>" =
      .error ⟨.unbalancedLoop, some ⟨4, 1⟩, none⟩ := rfl
  have unended : Program.read {} "[.\x7ba]" "<string>" =
      .error ⟨.unterminatedAlias, some ⟨2, 1⟩, none⟩ := rfl
  have unopened : Program.read {} "[{]}]]-" "<string>" =
      .error ⟨.unrecognized ']' .unopened, some ⟨5, 1⟩, none⟩ := rfl
  obtain ⟨⟨first, -, hfirst, -, last⟩, -⟩ := read_rejects unclosed
  obtain ⟨⟨second, -, hsecond, -, -, begun, -⟩, -⟩ := read_rejects unended
  obtain ⟨⟨third, -, hthird, -, before, after⟩, -⟩ := read_rejects unopened
  cases place (n := 4) hfirst
  cases place (n := 2) hsecond
  cases place (n := 5) hthird
  exact ⟨⟨unclosed, last⟩, ⟨unended, begun⟩, unopened, before, after⟩

end NamedTape
