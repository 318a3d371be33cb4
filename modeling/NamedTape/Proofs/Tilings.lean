import NamedTape.Proofs.Grammar

/-!
# Tilings

The instructions of a program tile the stretch of text that they are read from
(`Dialect.Writes.tiles`): each lies where the text shows it, a loop with the tiles of its body
between its brackets, and only blanks that are skipped lie between them.

Joining two neighbours with the same counted operation keeps the tiling (`Tiles.join`), and so does
merging (`Tiles.merge`).
-/

namespace NamedTape

namespace Span

/-- The span from the first offset up to the other. -/
def between (start stop : Nat) : Span := ⟨start, stop - start⟩

variable {text : List Char} {start mid stop : Nat}

@[simp] theorem between_offset (start stop : Nat) : (between start stop).offset = start := rfl

@[simp] theorem between_stop (start stop : Nat) : (between start stop).stop = stop := by
  simp only [between, Span.stop]
  omega

theorem between_add (start length : Nat) : between start (start + length) = ⟨start, length⟩ := by
  simp only [between, Span.mk.injEq, true_and]
  omega

theorem cover_between {a b c d : Nat} (hab : a ≤ b) (hbc : b ≤ c) (hcd : c ≤ d) :
    (between a b).cover (between c d) = between a d := by
  simp only [cover, between, Span.stop, Span.mk.injEq]
  omega

/-- A cover is that of the first and the last. -/
theorem Precedes.cover_cover {s t u : Span} (h : s.Precedes t) (h' : t.Precedes u) :
    (s.cover t).cover u = s.cover u := by
  obtain ⟨_, _⟩ := h
  obtain ⟨_, _⟩ := h'
  rw [cover, cover_stop, cover_offset, cover, Span.mk.injEq]
  omega

/-! ## Slices -/

theorem slice_between :
    (between start stop).slice text = (text.drop start).take (stop - start) := by
  simp only [slice, between, Int.toNat_natCast, Int.toNat_sub]

theorem slice_append {a b c : Nat} (hab : a ≤ b) (hbc : b ≤ c) :
    (between a c).slice text = (between a b).slice text ++ (between b c).slice text := by
  have sum : c - a = (b - a) + (c - b) := by omega
  have skip : a + (b - a) = b := by omega
  rw [slice_between, slice_between, slice_between, sum, List.take_add, List.drop_drop, skip]

theorem slice_one {c : Char} (h : text[start]? = some c) :
    (between start (start + 1)).slice text = [c] := by
  rw [slice_between, Nat.add_sub_cancel_left, List.take_one, List.head?_drop, h, Option.toList]

theorem mem_slice {c : Char} (h : c ∈ (between start stop).slice text) :
    ∃ k, start ≤ k ∧ k < stop ∧ text[k]? = some c := by
  rw [slice_between] at h
  obtain ⟨k, hk⟩ := List.mem_iff_getElem?.mp h
  rw [List.getElem?_take] at hk
  split at hk
  · rw [List.getElem?_drop] at hk
    exact ⟨start + k, by omega, by omega, hk⟩
  · cases hk

end Span

/-- The character of a counted operation. -/
def Counted.sign : Counted → Char
  | .add => '+'
  | .subtract => '-'
  | .left => '<'
  | .right => '>'

/-- The character is a blank, and blanks are skipped. -/
def Dialect.Skips (dialect : Dialect) (c : Char) : Prop :=
  dialect.skipBlanks = true ∧ c ∈ [' ', '\t', '\r', '\n']

/-- What a text has to show where the operation lies. -/
def Operation.Shown (dialect : Dialect) : Operation → List Char → Prop
  | .counted kind count, shown =>
    shown.head? = some kind.sign ∧ shown.getLast? = some kind.sign ∧
      (shown.count kind.sign : Int) = count ∧ ∀ c ∈ shown, c = kind.sign ∨ dialect.Skips c
  | .input, shown => shown = [',']
  | .output, shown => shown = ['.']
  | .goto name, shown => shown = '{' :: (name.toList ++ ['}'])
  | .blank, _ => False

theorem Counted.not_skips_sign {dialect : Dialect} (kind : Counted) : ¬ dialect.Skips kind.sign :=
  fun h => by cases kind <;> exact absurd h.2 (by decide)

/-- What shows two counts, with blanks between, shows their sum. -/
theorem Operation.Shown.join {dialect : Dialect} {kind : Counted} {m n : Int}
    {first gap second : List Char} (h : (Operation.counted kind m).Shown dialect first)
    (hgap : ∀ c ∈ gap, dialect.Skips c) (h' : (Operation.counted kind n).Shown dialect second) :
    (Operation.counted kind (m + n)).Shown dialect (first ++ (gap ++ second)) := by
  obtain ⟨head, -, count, all⟩ := h
  obtain ⟨-, last, count', all'⟩ := h'
  have none : gap.count kind.sign = 0 :=
    List.count_eq_zero.mpr fun hm => kind.not_skips_sign (hgap _ hm)
  refine ⟨?_, ?_, ?_, fun c hc => ?_⟩
  · rw [List.head?_append, head, Option.some_or]
  · rw [List.getLast?_append, List.getLast?_append, last, Option.some_or, Option.some_or]
  · rw [List.count_append, List.count_append, none, Nat.zero_add]
    omega
  · rcases List.mem_append.mp hc with hc | hc
    · exact all c hc
    · rcases List.mem_append.mp hc with hc | hc
      · exact .inr (hgap c hc)
      · exact all' c hc

/-- Only blanks that are skipped lie from the start up to the stop. -/
structure Dialect.Gap (dialect : Dialect) (text : List Char) (start stop : Nat) : Prop where
  forward : start ≤ stop
  skips : ∀ k c, start ≤ k → k < stop → text[k]? = some c → dialect.Skips c

/-- The instructions tile the text from the start up to the stop. -/
inductive Tiles (dialect : Dialect) (text : List Char) : Nat → Nat → List Instruction → Prop
  | nil {start stop : Nat} (gap : dialect.Gap text start stop) : Tiles dialect text start stop []
  | leaf {start first past stop : Nat} {operation : Operation} {l : List Instruction}
    (gap : dialect.Gap text start first) (forward : first < past) (within : past ≤ text.length)
    (shown : operation.Shown dialect ((Span.between first past).slice text))
    (rest : Tiles dialect text past stop l) :
    Tiles dialect text start stop (.leaf operation (.between first past) :: l)
  | loop {start first last stop : Nat} {body l : List Instruction}
    (gap : dialect.Gap text start first) (opens : text[first]? = some '[')
    (inside : Tiles dialect text (first + 1) last body) (closes : text[last]? = some ']')
    (rest : Tiles dialect text (last + 1) stop l) :
    Tiles dialect text start stop (.loop body (.between first (last + 1)) :: l)

variable {dialect : Dialect} {text : List Char} {start mid stop : Nat} {l m : List Instruction}

namespace Dialect

theorem Gap.refl (start : Nat) : dialect.Gap text start start :=
  ⟨Nat.le_refl start, fun k _ h h' => by omega⟩

theorem Gap.trans (h : dialect.Gap text start mid) (h' : dialect.Gap text mid stop) :
    dialect.Gap text start stop := by
  refine ⟨Nat.le_trans h.forward h'.forward, fun k c hk hk' hc => ?_⟩
  by_cases hmid : k < mid
  · exact h.skips k c hk hmid hc
  · exact h'.skips k c (Nat.le_of_not_lt hmid) hk' hc

theorem Gap.one {c : Char} (hc : text[start]? = some c) (h : dialect.Skips c) :
    dialect.Gap text start (start + 1) := by
  refine ⟨Nat.le_succ start, fun k c' hk hk' hc' => ?_⟩
  cases (show k = start by omega)
  exact Option.some.inj (hc.symm.trans hc') ▸ h

end Dialect

namespace Tiles

theorem forward (h : Tiles dialect text start stop l) : start ≤ stop := by
  induction h with
  | nil gap => exact gap.forward
  | leaf gap forward _ _ _ ih =>
    have := gap.forward
    omega
  | loop gap _ _ _ _ ihb ih =>
    have := gap.forward
    omega

theorem after (gap : dialect.Gap text start mid) (h : Tiles dialect text mid stop l) :
    Tiles dialect text start stop l := by
  cases h with
  | nil gap' => exact .nil (gap.trans gap')
  | leaf gap' forward within shown rest => exact .leaf (gap.trans gap') forward within shown rest
  | loop gap' opens inside closes rest => exact .loop (gap.trans gap') opens inside closes rest

theorem append (h : Tiles dialect text start mid l) (h' : Tiles dialect text mid stop m) :
    Tiles dialect text start stop (l ++ m) := by
  induction h with
  | nil gap => exact h'.after gap
  | leaf gap forward within shown _ ih => exact .leaf gap forward within shown (ih h')
  | loop gap opens inside closes _ _ ih => exact .loop gap opens inside closes (ih h')

theorem split (h : Tiles dialect text start stop (l ++ m)) :
    ∃ mid, Tiles dialect text start mid l ∧ Tiles dialect text mid stop m := by
  induction l generalizing start with
  | nil => exact ⟨start, .nil (.refl start), h⟩
  | cons i l ih =>
    cases h with
    | leaf gap forward within shown rest =>
      obtain ⟨mid, first, second⟩ := ih rest
      exact ⟨mid, .leaf gap forward within shown first, second⟩
    | loop gap opens inside closes rest =>
      obtain ⟨mid, first, second⟩ := ih rest
      exact ⟨mid, .loop gap opens inside closes first, second⟩

/-- Neighbours that are joined still tile the text. -/
theorem join {kind : Counted} {m n : Int} {first second : Span}
    (h : Tiles dialect text start stop
      [.leaf (.counted kind m) first, .leaf (.counted kind n) second]) :
    Tiles dialect text start stop [.leaf (.counted kind (m + n)) (first.cover second)] := by
  cases h with
  | @leaf _ a b _ _ _ gap forward _ shown rest =>
    cases rest with
    | @leaf _ c d _ _ _ gap' forward' within shown' rest =>
      have between := gap'.forward
      rw [Span.cover_between (by omega) between (by omega)]
      refine .leaf gap (by omega) within ?_ rest
      rw [Span.slice_append (b := b) (by omega) (by omega),
        Span.slice_append between (Nat.le_of_lt forward')]
      refine shown.join (fun e he => ?_) shown'
      obtain ⟨k, hk, hk', he⟩ := Span.mem_slice he
      exact gap'.skips k e hk hk' he

end Tiles

/-! ## What is read tiles its text -/

theorem drop_add {a b : List Char} (h : text.drop start = a ++ b) :
    text.drop (start + a.length) = b := by
  rw [← List.drop_drop, h, List.drop_left]

theorem getElem?_of_drop {c : Char} {b : List Char} (h : text.drop start = c :: b) :
    text[start]? = some c := by
  rw [← List.head?_drop, h, List.head?_cons]

theorem slice_of_drop {a b : List Char} (h : text.drop start = a ++ b) :
    (Span.between start (start + a.length)).slice text = a := by
  rw [Span.slice_between, h, Nat.add_sub_cancel_left, List.take_left]

theorem within_of_drop {a b : List Char} (h : text.drop start = a ++ b) (ha : 0 < a.length) :
    start + a.length ≤ text.length := by
  have lengths := congrArg List.length h
  rw [List.length_drop, List.length_append] at lengths
  omega

theorem shown_of_operation? {c : Char} {operation : Operation} (h : operation? c = some operation) :
    operation.Shown dialect [c] := by
  unfold operation? at h
  have only : ∀ sign, ∀ c ∈ [sign], c = sign ∨ dialect.Skips c :=
    fun _ _ hc => .inl (List.mem_singleton.mp hc)
  split at h <;> cases h <;> first | rfl | exact ⟨rfl, rfl, rfl, only _⟩

/-- What a text writes tiles it, whatever comes before and after. -/
theorem Dialect.Writes.tiles {offset : Nat} {piece : List Char}
    (h : dialect.Writes offset piece l) {more : List Char} (hd : text.drop offset = piece ++ more) :
    Tiles dialect text offset (offset + piece.length) l := by
  induction h generalizing more with
  | nil => exact .nil (.refl _)
  | @operation offset c operation piece l h _ ih =>
    have first : text.drop offset = [c] ++ (piece ++ more) := hd
    have rest := ih (drop_add first)
    rw [Nat.add_right_comm, Nat.add_assoc, ← List.length_cons] at rest
    rw [← Int.natCast_one, ← Span.between_add]
    refine .leaf (.refl _) (Nat.lt_succ_self _) (within_of_drop first Nat.one_pos) ?_ rest
    rw [Span.slice_one (getElem?_of_drop hd)]
    exact shown_of_operation? h
  | @blank offset c piece l h _ ih =>
    have first : text.drop offset = [c] ++ (piece ++ more) := hd
    have rest := ih (drop_add first)
    rw [Nat.add_right_comm, Nat.add_assoc, ← List.length_cons] at rest
    rw [Bool.and_eq_true, Dialect.isBlank_iff] at h
    exact rest.after (.one (getElem?_of_drop hd) h)
  | @named offset name piece l h hn _ ih =>
    have first : text.drop offset = ('{' :: (name ++ ['}'])) ++ (piece ++ more) := by simpa using hd
    have length : ('{' :: (name ++ ['}'])).length = name.length + 2 := by simp
    have slice := slice_of_drop first
    have within := within_of_drop first (by simp)
    have rest := drop_add first
    rw [length] at slice within rest
    have stop : offset + (name.length + 2) + piece.length =
        offset + ('{' :: (name ++ '}' :: piece)).length := by
      simp only [List.length_cons, List.length_append]
      omega
    rw [← Span.between_add, ← stop]
    refine .leaf (.refl _) (by omega) within ?_ (ih rest)
    rw [slice, Operation.Shown, String.toList_ofList]
  | @loop offset inner piece body l _ _ ihb ih =>
    have first : text.drop offset = ['['] ++ (inner ++ (']' :: (piece ++ more))) := by
      simpa using hd
    have second := drop_add first
    have third : text.drop (offset + 1 + inner.length) = [']'] ++ (piece ++ more) := drop_add second
    have last : offset + (inner.length + 2) = offset + 1 + inner.length + 1 := by omega
    have stop : offset + 1 + inner.length + 1 + piece.length =
        offset + ('[' :: (inner ++ ']' :: piece)).length := by
      simp only [List.length_cons, List.length_append]
      omega
    rw [last] at ih
    rw [← Span.between_add, last, ← stop]
    exact .loop (.refl _) (getElem?_of_drop first) (ihb second) (getElem?_of_drop third)
      (ih (drop_add third))

/-! ## Places in the text -/

namespace Dialect

open Instruction (InOrder Throughout)

/-- The instructions lie in order, from the start on and not beyond the stop. -/
def Placed (start stop : Int) (l : List Instruction) : Prop :=
  Throughout InOrder l ∧ ∀ i ∈ l, start ≤ i.span.offset ∧ i.span.stop ≤ stop

theorem Placed.cons {start stop : Int} {i : Instruction} (hstart : start ≤ i.span.offset)
    (hforward : i.span.offset ≤ i.span.stop) (hstop : i.span.stop ≤ stop)
    (inside : ∀ body span, i = .loop body span → Throughout InOrder body)
    (h : Placed i.span.stop stop l) : Placed start stop (i :: l) := by
  obtain ⟨ordered, within⟩ := h
  refine ⟨Instruction.throughout_cons hforward (fun j hj => (within j hj).1) inside ordered, ?_⟩
  refine List.forall_mem_cons.mpr ⟨⟨hstart, hstop⟩, fun j hj => ?_⟩
  have := within j hj
  omega

end Dialect

open Instruction (InOrder Throughout)

/-- Tiles lie in order within the text that they tile. -/
theorem Tiles.placed (h : Tiles dialect text start stop l) : Dialect.Placed start stop l := by
  induction h with
  | nil gap =>
    exact ⟨⟨⟨fun _ h => absurd h List.not_mem_nil, .nil⟩, fun _ _ h => absurd h List.not_mem_nil⟩,
      fun _ h => absurd h List.not_mem_nil⟩
  | leaf gap forward _ _ rest ih =>
    have hgap := gap.forward
    have hrest := rest.forward
    refine .cons ?_ ?_ ?_ nofun (by rwa [Instruction.span, Span.between_stop])
    all_goals simp only [Instruction.span, Span.between_offset, Span.between_stop]
    all_goals omega
  | loop gap _ inside _ rest ihb ih =>
    have hgap := gap.forward
    have hinside := inside.forward
    have hrest := rest.forward
    refine .cons ?_ ?_ ?_ (fun body span hb => ?_) (by rwa [Instruction.span, Span.between_stop])
    case refine_4 =>
      cases hb
      exact ihb.1
    all_goals simp only [Instruction.span, Span.between_offset, Span.between_stop]
    all_goals omega

/-! ## Merging -/

/-- A run covers the same with what follows, whether it is taken as one or from its beginning. -/
theorem Instruction.Run.cover_merged {run : Instruction.Run} {span : Span}
    (ordered : run.span.Precedes run.latest) (behind : run.latest.Precedes span) :
    run.merged.span.cover span = run.span.cover span := by
  obtain ⟨kind, sum, first, last⟩ := run
  cases last with
  | none => rfl
  | some latest => exact ordered.cover_cover behind

theorem merges_tiles (dialect : Dialect) (text : List Char) :
    Instruction.Merges True fun l m =>
      ∀ start stop, Tiles dialect text start stop l → Tiles dialect text start stop m where
  refl _ _ _ h := h
  trans h h' start stop ht := h' start stop (h start stop ht)
  append h h' start stop ht := by
    obtain ⟨mid, first, second⟩ := ht.split
    exact (h start mid first).append (h' mid stop second)
  loop span h start stop ht := by
    cases ht with
    | loop gap opens inside closes rest => exact .loop gap opens (h _ _ inside) closes rest
  join run count span h start stop ht := by
    obtain ⟨ordered, behind⟩ := h trivial
    have joined : Tiles dialect text start stop
        [.leaf (.counted run.kind (run.count + count)) (run.merged.span.cover span)] := ht.join
    rwa [Instruction.Run.cover_merged ordered behind] at joined

/-- **Merging keeps the tiling.** -/
theorem Tiles.merge (h : Tiles dialect text start stop l) :
    Tiles dialect text start stop (Instruction.merge l) :=
  (merges_tiles dialect text).merge (fun _ => h.placed.1) start stop h

end NamedTape
