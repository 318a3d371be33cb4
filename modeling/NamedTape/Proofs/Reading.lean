import NamedTape.Proofs.Grammar

/-!
# Reading follows the grammar

Reading a text gives a program just if the text writes its instructions, with their places
(`Program.read_ok_iff`).

* What a text writes is what a draft gains by it (`Draft.gains_of_writes`).
* What a draft holds back, an alias that is open and the loops that are, accounts for the text so
  far (`Draft.Holds`), and every character keeps it so.
-/

namespace NamedTape

open Instruction (gotos gotosOne)

/-- The names with one more, unless it is among them. -/
def noteName (names : List String) (name : String) : List String :=
  if names.contains name then names else names ++ [name]

namespace Draft

variable {dialect : Dialect}

/-- The draft after a text that writes the instructions. -/
def gaining (draft : Draft) (text : List Char) (l : List Instruction) : Draft :=
  { draft with
    offset := draft.offset + text.length
    current := l.reverse ++ draft.current
    aliasNames := (gotos l).foldl noteName draft.aliasNames }

/-- The draft with so many characters behind it. -/
def skip (draft : Draft) (n : Nat) : Draft := { draft with offset := draft.offset + n }

/-- The draft inside an alias. -/
def naming (draft : Draft) (start : Nat) (name : List Char) : Draft :=
  { draft with openAlias := some ⟨start, name⟩ }

theorem feed_plain {draft draft' : Draft} {c : Char} (ho : draft.openAlias = none)
    (h : draft.feedPlain dialect c = .ok draft') :
    draft.feed dialect c = .ok draft'.advance := by
  rw [feed, ho]
  dsimp only
  rw [h]
  rfl

theorem foldlM_cons_of_ok {draft draft' : Draft} {c : Char} (h : draft.feed dialect c = .ok draft')
    (rest : List Char) :
    (c :: rest).foldlM (feed dialect) draft = rest.foldlM (feed dialect) draft' := by
  rw [List.foldlM_cons, h]
  rfl

theorem foldlM_append_of_ok {draft draft' : Draft} {text : List Char}
    (h : text.foldlM (feed dialect) draft = .ok draft') (more : List Char) :
    (text ++ more).foldlM (feed dialect) draft = more.foldlM (feed dialect) draft' := by
  rw [List.foldlM_append, h]
  rfl

/-! ## From the grammar to the draft -/

theorem feedPlain_operation {draft : Draft} {c : Char} {operation : Operation}
    (h : operation? c = some operation) :
    draft.feedPlain dialect c = .ok (draft.push (.leaf operation ⟨draft.offset, 1⟩)) := by
  obtain ⟨hb, hc⟩ := Dialect.plain_of_operation? h
  have hopen : c ≠ '[' := by
    rintro rfl
    cases h
  have hclose : c ≠ ']' := by
    rintro rfl
    cases h
  rw [feedPlain, if_neg hopen, if_neg hclose, hb, Bool.and_false, if_neg Bool.false_ne_true, h]

theorem feedPlain_blank {draft : Draft} {c : Char} (h : (dialect.skipBlanks && isBlank c) = true) :
    draft.feedPlain dialect c = .ok draft := by
  have hb : isBlank c = true := (Bool.and_eq_true _ _ ▸ h).2
  have hopen : c ≠ '[' := by
    rintro rfl
    cases hb
  have hclose : c ≠ ']' := by
    rintro rfl
    cases hb
  rw [feedPlain, if_neg hopen, if_neg hclose, if_pos h]

theorem feedPlain_brace {draft : Draft} (h : dialect.aliases = true) :
    draft.feedPlain dialect '{' = .ok (draft.naming draft.offset []) := by
  rw [feedPlain, if_neg (by decide), if_neg (by decide)]
  simp [isBlank, operation?, h, naming]

/-- The name of an alias is gathered up to the character that ends it. -/
theorem foldlM_name {name : List Char} (hn : '}' ∉ name) (draft : Draft) (start : Nat)
    (before : List Char) :
    name.foldlM (feed dialect) (draft.naming start before) =
      .ok ((draft.skip name.length).naming start (name.reverse ++ before)) := by
  induction name generalizing draft before with
  | nil => rfl
  | cons c name ih =>
    obtain ⟨hc, hn⟩ := not_or.mp fun h => hn (List.mem_cons.mpr h)
    have fed : feed dialect (draft.naming start before) c =
        .ok ((draft.skip 1).naming start (c :: before)) := by
      rw [feed, naming]
      dsimp only
      rw [feedAlias, if_neg (Ne.symm hc)]
      rfl
    rw [foldlM_cons_of_ok fed]
    refine (ih hn (draft.skip 1) (c :: before)).trans ?_
    simp only [skip, List.length_cons, List.reverse_cons, List.append_assoc, List.singleton_append,
      Nat.add_assoc, Nat.add_comm 1]

/-- The text takes the draft to where it has gained the instructions. -/
def Gains (dialect : Dialect) (draft : Draft) (text : List Char) (l : List Instruction) : Prop :=
  text.foldlM (feed dialect) draft = .ok (draft.gaining text l)

theorem Gains.append {draft : Draft} {text more : List Char} {l m : List Instruction}
    (h : Gains dialect draft text l) (h' : Gains dialect (draft.gaining text l) more m) :
    Gains dialect draft (text ++ more) (l ++ m) := by
  have sum : (draft.gaining text l).gaining more m = draft.gaining (text ++ more) (l ++ m) := by
    simp only [gaining, List.length_append, List.reverse_append, Instruction.gotos_append,
      List.foldl_append, List.append_assoc, Nat.add_assoc]
  rw [Gains, foldlM_append_of_ok h, ← sum]
  exact h'

theorem gains_operation {draft : Draft} (ho : draft.openAlias = none) {c : Char}
    {operation : Operation} (h : operation? c = some operation) :
    Gains dialect draft [c] [.leaf operation ⟨draft.offset, 1⟩] := by
  rw [Gains, foldlM_cons_of_ok (feed_plain ho (feedPlain_operation h))]
  unfold operation? at h
  split at h <;> cases h <;> rfl

theorem gains_blank {draft : Draft} (ho : draft.openAlias = none) {c : Char}
    (h : (dialect.skipBlanks && isBlank c) = true) : Gains dialect draft [c] [] := by
  rw [Gains, foldlM_cons_of_ok (feed_plain ho (feedPlain_blank h))]
  rfl

theorem gains_alias {draft : Draft} (ho : draft.openAlias = none) {name : List Char}
    (h : dialect.aliases = true) (hn : '}' ∉ name) :
    Gains dialect draft ('{' :: (name ++ ['}']))
      [.leaf (.goto (String.ofList name)) ⟨draft.offset, (name.length + 2 : Nat)⟩] := by
  have closes : feed dialect (((draft.skip 1).skip name.length).naming draft.offset
      (name.reverse ++ [])) '}' = .ok (draft.gaining ('{' :: (name ++ ['}']))
        [.leaf (.goto (String.ofList name)) ⟨draft.offset, (name.length + 2 : Nat)⟩]) := by
    have hlen : ('{' :: (name ++ ['}'])).length = name.length + 2 := by simp
    have hspan : ((draft.offset + 1 + name.length : Nat) : Int) + 1 - draft.offset =
        (name.length + 2 : Nat) := by omega
    rw [List.append_nil, feed, naming]
    simp only [feedAlias, if_true, closeAlias, advance, skip, gaining, List.reverse_reverse, hlen,
      ho, hspan, gotos, gotosOne, List.append_nil, List.foldl_cons, List.foldl_nil, noteName,
      List.reverse_cons, List.reverse_nil, List.nil_append, List.singleton_append]
    rw [Nat.add_assoc, Nat.add_assoc, Nat.add_comm 1]
  have named : name.foldlM (feed dialect) ((draft.skip 1).naming draft.offset []) = _ :=
    foldlM_name hn (draft.skip 1) draft.offset []
  rw [Gains, foldlM_cons_of_ok (feed_plain ho (feedPlain_brace h))]
  exact (foldlM_append_of_ok named ['}']).trans (foldlM_cons_of_ok closes [])

theorem gains_loop {draft : Draft} (ho : draft.openAlias = none) {inner : List Char}
    {body : List Instruction}
    (h : Gains dialect draft.openLoop.advance inner body) :
    Gains dialect draft ('[' :: (inner ++ [']']))
      [.loop body ⟨draft.offset, (inner.length + 2 : Nat)⟩] := by
  have closes : feed dialect (draft.openLoop.advance.gaining inner body) ']' =
      .ok (draft.gaining ('[' :: (inner ++ [']']))
        [.loop body ⟨draft.offset, (inner.length + 2 : Nat)⟩]) := by
    have hlen : ('[' :: (inner ++ [']'])).length = inner.length + 2 := by simp
    have hspan : ((draft.offset + 1 + inner.length : Nat) : Int) + 1 - draft.offset =
        (inner.length + 2 : Nat) := by omega
    have closed : feedPlain dialect (draft.openLoop.advance.gaining inner body) ']' =
        .ok { draft with
          offset := draft.offset + 1 + inner.length
          current := .loop body ⟨draft.offset, (inner.length + 2 : Nat)⟩ :: draft.current
          aliasNames := (gotos body).foldl noteName draft.aliasNames } := by
      rw [feedPlain, if_neg (by decide), if_pos rfl]
      simp only [closeLoop, gaining, openLoop, advance, hspan, List.append_nil,
        List.reverse_reverse]
    have hb : (draft.openLoop.advance.gaining inner body).openAlias = none := ho
    refine (feed_plain hb closed).trans ?_
    simp only [advance, gaining, hlen, gotos, gotosOne, List.append_nil, List.reverse_cons,
      List.reverse_nil, List.nil_append, List.singleton_append]
    rw [Nat.add_assoc, Nat.add_assoc, Nat.add_comm 1]
  have opens : draft.feedPlain dialect '[' = .ok draft.openLoop := if_pos rfl
  rw [Gains, foldlM_cons_of_ok (feed_plain ho opens)]
  exact (foldlM_append_of_ok h [']']).trans (foldlM_cons_of_ok closes [])

/-- What a text writes is what a draft gains by it. -/
theorem gains_of_writes {offset : Nat} {text : List Char} {l : List Instruction}
    (h : dialect.Writes offset text l) {draft : Draft} (ho : draft.openAlias = none)
    (hoff : draft.offset = offset) : Gains dialect draft text l := by
  induction h generalizing draft with
  | nil => rfl
  | operation h _ ih =>
    subst hoff
    exact (gains_operation ho h).append (ih ho rfl)
  | blank h _ ih =>
    subst hoff
    exact (gains_blank ho h).append (ih ho rfl)
  | @named offset name text l h hn _ ih =>
    subst hoff
    have split : '{' :: (name ++ '}' :: text) = ('{' :: (name ++ ['}'])) ++ text := by simp
    rw [split]
    exact (gains_alias ho h hn).append (ih ho (by simp [gaining]))
  | @loop offset inner text body l _ _ ihb ih =>
    subst hoff
    have split : '[' :: (inner ++ ']' :: text) = ('[' :: (inner ++ [']'])) ++ text := by simp
    rw [split]
    exact (gains_loop ho (ihb ho rfl)).append (ih ho (by simp [gaining]))

/-! ## From the draft to the grammar -/

/-- The open loops and the instructions after them account for the text. -/
def Pending (dialect : Dialect) : List OpenLoop → List Instruction → List Char → Prop
  | [], current, text => dialect.Writes 0 text current.reverse
  | loop :: outer, current, text =>
    ∃ before inner, text = before ++ '[' :: inner ∧ loop.start = before.length ∧
      dialect.Writes (before.length + 1) inner current.reverse ∧
      Pending dialect outer loop.before before

/-- The draft accounts for the text. -/
def Holds (dialect : Dialect) (draft : Draft) (text : List Char) : Prop :=
  draft.offset = text.length ∧
    match draft.openAlias with
    | none => Pending dialect draft.openLoops draft.current text
    | some opened =>
      ∃ before, text = before ++ '{' :: opened.name.reverse ∧ opened.start = before.length ∧
        dialect.aliases = true ∧ '}' ∉ opened.name ∧
        Pending dialect draft.openLoops draft.current before

theorem Pending.append {loops : List OpenLoop} {current l : List Instruction}
    {text more : List Char} (h : Pending dialect loops current text)
    (hm : dialect.Writes text.length more l) :
    Pending dialect loops (l.reverse ++ current) (text ++ more) := by
  cases loops with
  | nil =>
    rw [Pending, List.reverse_append, List.reverse_reverse]
    exact Dialect.Writes.append h (by rwa [Nat.zero_add])
  | cons loop outer =>
    obtain ⟨before, inner, rfl, hstart, hinner, hbefore⟩ := h
    refine ⟨before, inner ++ more, by simp, hstart, ?_, hbefore⟩
    rw [List.reverse_append, List.reverse_reverse]
    refine hinner.append ?_
    have hlen : (before ++ '[' :: inner).length = before.length + 1 + inner.length := by
      simp only [List.length_append, List.length_cons]
      omega
    rwa [hlen] at hm

theorem Pending.close {loop : OpenLoop} {outer : List OpenLoop} {current : List Instruction}
    {text : List Char} (h : Pending dialect (loop :: outer) current text) :
    Pending dialect outer
      (.loop current.reverse ⟨loop.start, text.length + 1 - loop.start⟩ :: loop.before)
      (text ++ [']']) := by
  obtain ⟨before, inner, rfl, hstart, hinner, hbefore⟩ := h
  have hspan : (⟨loop.start, ((before ++ '[' :: inner).length : Nat) + 1 - loop.start⟩ : Span) =
      ⟨before.length, (inner.length + 2 : Nat)⟩ := by
    simp only [hstart, List.length_append, List.length_cons, Span.mk.injEq, true_and]
    omega
  have written : dialect.Writes before.length ('[' :: (inner ++ [']']))
      [.loop current.reverse ⟨before.length, (inner.length + 2 : Nat)⟩] := .loop hinner .nil
  have closed := hbefore.append written
  rw [hspan]
  simpa using closed

theorem Holds.feedAlias {draft : Draft} {opened : OpenAlias} {text : List Char} {c : Char}
    (h : Holds dialect draft text) (ho : draft.openAlias = some opened) :
    Holds dialect (draft.feedAlias opened c).advance (text ++ [c]) := by
  obtain ⟨hoff, h⟩ := h
  rw [ho] at h
  obtain ⟨before, rfl, hstart, halias, hn, hbefore⟩ := h
  rw [List.length_append, List.length_cons, List.length_reverse] at hoff
  by_cases hc : c = '}'
  · subst hc
    have hspan : (⟨opened.start, (draft.offset : Int) + 1 - opened.start⟩ : Span) =
        ⟨before.length, (opened.name.reverse.length + 2 : Nat)⟩ := by
      simp only [hoff, hstart, List.length_reverse, Span.mk.injEq, true_and]
      omega
    have written : dialect.Writes before.length ('{' :: (opened.name.reverse ++ ['}']))
        [.leaf (.goto (String.ofList opened.name.reverse))
          ⟨before.length, (opened.name.reverse.length + 2 : Nat)⟩] :=
      .named halias (by rwa [List.mem_reverse]) .nil
    have closed := hbefore.append written
    rw [Draft.feedAlias, if_pos rfl]
    refine ⟨?_, ?_⟩
    · simp only [advance, closeAlias, hoff, List.length_append, List.length_cons,
        List.length_reverse, List.length_nil]
    · simp only [advance, closeAlias, hspan]
      simpa using closed
  · rw [Draft.feedAlias, if_neg hc]
    refine ⟨?_, before, ?_, hstart, halias, ?_, hbefore⟩
    · simp only [advance, hoff, List.length_append, List.length_cons, List.length_reverse,
        List.length_nil]
    · simp
    · rw [List.mem_cons, not_or]
      exact ⟨Ne.symm hc, hn⟩

theorem Holds.feedPlain {draft draft' : Draft} {text : List Char} {c : Char}
    (h : Holds dialect draft text) (ho : draft.openAlias = none)
    (hf : draft.feedPlain dialect c = .ok draft') : Holds dialect draft'.advance (text ++ [c]) := by
  obtain ⟨hoff, h⟩ := h
  rw [ho] at h
  have hlen : draft.offset + 1 = (text ++ [c]).length := by simp [hoff]
  unfold Draft.feedPlain at hf
  split at hf
  next hc =>
    subst hc
    cases hf
    refine ⟨hlen, ?_⟩
    simp only [advance, openLoop, ho]
    exact ⟨text, [], rfl, hoff, .nil, h⟩
  split at hf
  next hc =>
    subst hc
    unfold closeLoop at hf
    split at hf
    · cases hf
    · next loop outer hl =>
      cases hf
      rw [hl] at h
      refine ⟨hlen, ?_⟩
      simp only [advance, ho, hoff]
      exact h.close
  split at hf
  next hb =>
    cases hf
    refine ⟨hlen, ?_⟩
    simp only [advance, ho]
    exact h.append (.blank hb .nil)
  split at hf
  next operation hop =>
    cases hf
    refine ⟨hlen, ?_⟩
    simp only [advance, push, ho, hoff]
    exact h.append (.operation hop .nil)
  split at hf
  next hc =>
    subst hc
    split at hf
    · next halias =>
      cases hf
      exact ⟨hlen, text, rfl, hoff, halias, List.not_mem_nil, h⟩
    · cases hf
  cases hf

theorem Holds.feed {draft draft' : Draft} {text : List Char} {c : Char}
    (h : Holds dialect draft text) (hf : draft.feed dialect c = .ok draft') :
    Holds dialect draft' (text ++ [c]) := by
  unfold Draft.feed at hf
  split at hf
  · next opened ho =>
    cases hf
    exact h.feedAlias ho
  · next ho =>
    cases hp : draft.feedPlain dialect c with
    | error fault =>
      rw [hp] at hf
      cases hf
    | ok plain =>
      rw [hp] at hf
      cases hf
      exact h.feedPlain ho hp

/-- Reading on keeps the text accounted for. -/
theorem Holds.foldlM {draft draft' : Draft} {text more : List Char}
    (h : Holds dialect draft text) (hf : more.foldlM (Draft.feed dialect) draft = .ok draft') :
    Holds dialect draft' (text ++ more) := by
  induction more generalizing draft text with
  | nil =>
    cases hf
    rwa [List.append_nil]
  | cons c more ih =>
    cases hc : draft.feed dialect c with
    | error fault =>
      rw [List.foldlM_cons, hc] at hf
      cases hf
    | ok fed =>
      rw [foldlM_cons_of_ok hc] at hf
      rw [← List.singleton_append, ← List.append_assoc]
      exact ih (h.feed hc) hf

theorem holds_nil : Holds dialect {} [] := ⟨rfl, .nil⟩

/-! ## Where a draft fails -/

/-- A draft fails only at a character that cannot stand where it is read. -/
theorem feed_error {draft : Draft} {c : Char} {fault : Fault}
    (h : draft.feed dialect c = .error fault) :
    ∃ objection, fault = faultAt draft.offset (.unrecognized c objection) := by
  have plain : draft.feedPlain dialect c = .error fault := by
    unfold feed at h
    split at h
    · cases h
    · cases hp : draft.feedPlain dialect c with
      | ok draft' =>
        rw [hp] at h
        cases h
      | error fault' =>
        rw [hp] at h
        exact h
  unfold feedPlain at plain
  split at plain
  · cases plain
  split at plain
  next hc =>
    subst hc
    unfold closeLoop at plain
    split at plain <;> cases plain
    exact ⟨_, rfl⟩
  split at plain
  · cases plain
  split at plain
  · cases plain
  split at plain
  · split at plain <;> cases plain
    exact ⟨_, rfl⟩
  · cases plain
    exact ⟨_, rfl⟩

/-- Reading fails at some character, and up to it the text is read. -/
theorem foldlM_error {draft : Draft} {text : List Char} {fault : Fault}
    (h : text.foldlM (feed dialect) draft = .error fault) :
    ∃ before c after draft', text = before ++ c :: after ∧
      before.foldlM (feed dialect) draft = .ok draft' ∧
      draft'.feed dialect c = .error fault := by
  induction text generalizing draft with
  | nil => cases h
  | cons c rest ih =>
    cases hc : draft.feed dialect c with
    | error fault' =>
      rw [List.foldlM_cons, hc] at h
      cases h
      exact ⟨[], c, rest, draft, rfl, rfl, hc⟩
    | ok fed =>
      rw [foldlM_cons_of_ok hc] at h
      obtain ⟨before, c', after, draft', rfl, hb, hf⟩ := ih h
      exact ⟨c :: before, c', after, draft', rfl, by rwa [foldlM_cons_of_ok hc], hf⟩

end Draft

/-- **Reading follows the grammar.** A text is read as a program just if it writes the instructions
of the program, and then the aliases are those that these name, each where it comes first. -/
theorem Program.read_ok_iff {dialect : Dialect} {source filename : String} {program : Program} :
    Program.read dialect source filename = .ok program ↔
      dialect.Writes 0 source.toList program.instructions ∧
        program.aliasNames = AliasTable.distinct (gotos program.instructions) ∧
        program.source = source ∧ program.filename = filename := by
  have gains : ∀ l, dialect.Writes 0 source.toList l → Program.read dialect source filename =
      .ok { instructions := l, aliasNames := AliasTable.distinct (gotos l), source, filename } := by
    intro l h
    have read : Draft.Gains dialect {} source.toList l := Draft.gains_of_writes h rfl rfl
    rw [Program.read, read]
    show Except.ok _ = _
    simp only [Draft.gaining, List.append_nil, List.reverse_reverse]
    rfl
  constructor
  · intro h
    have written : dialect.Writes 0 source.toList program.instructions := by
      rw [Program.read] at h
      cases hd : source.toList.foldlM (Draft.feed dialect) {} with
      | error fault =>
        rw [hd] at h
        cases h
      | ok draft =>
        obtain ⟨-, holds⟩ := Draft.holds_nil.foldlM hd
        rw [hd] at h
        change (draft.finish >>= _) = Except.ok program at h
        unfold Draft.finish at h
        split at h
        · cases h
        · cases h
        · next ho hloops =>
          cases h
          rw [ho, hloops] at holds
          exact holds
    have same := Except.ok.inj ((gains _ written).symm.trans h)
    exact ⟨written, (congrArg Program.aliasNames same).symm, (congrArg Program.source same).symm,
      (congrArg Program.filename same).symm⟩
  · rintro ⟨written, hnames, rfl, rfl⟩
    rw [gains _ written, ← hnames]

/-! ## What reading and printing come to -/

theorem foldl_noteName (names seen : List String) :
    names.foldl noteName seen =
      seen ++ (names.filter fun name => !seen.contains name).eraseDups := by
  induction names generalizing seen with
  | nil => rw [List.foldl_nil, List.filter_nil, List.eraseDups_nil, List.append_nil]
  | cons name names ih =>
    rw [List.foldl_cons, ih, noteName]
    by_cases hs : seen.contains name = true
    · rw [if_pos hs, List.filter_cons, hs, Bool.not_true, if_neg Bool.false_ne_true]
    · have fresh : (!seen.contains name) = true := by rw [Bool.eq_false_iff.mpr hs]; rfl
      rw [if_neg hs, List.filter_cons, if_pos fresh, List.eraseDups_cons, List.filter_filter,
        List.append_assoc, List.singleton_append]
      refine congrArg (fun rest => seen ++ name :: List.eraseDups rest) ?_
      refine List.filter_congr fun other _ => ?_
      rw [List.contains_append, Bool.not_or, Bool.and_comm, List.contains_cons, List.contains_nil,
        Bool.or_false]

/-- The names of a list, each where it comes first. -/
theorem distinct_eq_eraseDups (names : List String) :
    AliasTable.distinct names = names.eraseDups := by
  refine (foldl_noteName names []).trans ?_
  rw [List.nil_append]
  exact congrArg List.eraseDups (List.filter_eq_self.mpr fun _ _ => rfl)

mutual

theorem gotosOne_bareOne (i : Instruction) : i.bareOne.gotosOne = i.gotosOne := by
  cases i with
  | leaf operation span => cases operation <;> rfl
  | loop body span => rw [Instruction.bareOne, gotosOne, gotosOne, gotos_bare body]

theorem gotos_bare (l : List Instruction) : gotos (Instruction.bare l) = gotos l := by
  cases l with
  | nil => rfl
  | cons i rest => rw [Instruction.bare, gotos, gotos, gotosOne_bareOne i, gotos_bare rest]

end

/-- **Reading accepts the grammar and loses nothing.** A text is read just if it derives from the
grammar, and the program printed is the text without the blanks that are skipped. Whatever can be
read is read again from its print, up to its places in the text, with each of its aliases listed
where it comes first. -/
theorem read_accepts_grammar (dialect : Dialect) :
    (∀ source filename, (∃ program, Program.read dialect source filename = .ok program) ↔
      dialect.Derives source.toList) ∧
    (∀ source filename program, Program.read dialect source filename = .ok program →
      Instruction.printed program.instructions = dialect.squeezed false source.toList) ∧
    ∀ l filename, Instruction.EachLeaf (Operation.Readable dialect) l →
      ∃ program, Program.read dialect (String.ofList (Instruction.printed l)) filename =
          .ok program ∧
        Instruction.bare program.instructions = Instruction.bare l ∧
        program.aliasNames = (gotos l).eraseDups := by
  refine ⟨fun source filename => ?_, fun source filename program h => ?_, fun l filename h => ?_⟩
  · rw [Dialect.derives_iff 0]
    constructor
    · rintro ⟨program, h⟩
      exact ⟨_, (Program.read_ok_iff.mp h).1⟩
    · rintro ⟨l, h⟩
      exact ⟨⟨l, AliasTable.distinct (gotos l), source, filename⟩,
        Program.read_ok_iff.mpr ⟨h, rfl, rfl, rfl⟩⟩
  · have written := (Program.read_ok_iff.mp h).1.squeezed_append []
    rw [List.append_nil, Dialect.squeezed, List.append_nil] at written
    exact written.symm
  · obtain ⟨m, hm, hb⟩ := Dialect.writes_printed h 0
    refine ⟨⟨m, AliasTable.distinct (gotos m), _, filename⟩,
      Program.read_ok_iff.mpr ⟨?_, rfl, rfl, rfl⟩, hb, ?_⟩
    · rwa [String.toList_ofList]
    · rw [distinct_eq_eraseDups, ← gotos_bare m, hb, gotos_bare l]

/-- A loop around an alias whose name holds a blank, brackets and operations. -/
def fencedAlias : List Instruction :=
  [.loop [.leaf (.goto "a [+") ⟨1, 6⟩, .leaf (.counted .add 1) ⟨9, 1⟩] ⟨0, 11⟩]

theorem read_accepts_fencedAlias :
    Instruction.EachLeaf (Operation.Readable {}) fencedAlias ∧
    (∃ program, Program.read {} "[{a [+} +]" "<string>" = .ok program ∧
      Instruction.printed program.instructions = "[{a [+}+]".toList) ∧
    ∃ program, Program.read {} (String.ofList (Instruction.printed fencedAlias)) "<string>" =
        .ok program ∧
      Instruction.bare program.instructions = Instruction.bare fencedAlias ∧
      program.aliasNames = ["a [+"] := by
  obtain ⟨accepts, loses, again⟩ := read_accepts_grammar {}
  have readable : Instruction.EachLeaf (Operation.Readable {}) fencedAlias :=
    .loop _ (.cons (.leaf _ ⟨rfl, by decide⟩) (.leaf _ rfl))
  obtain ⟨program, hread, hbare, hnames⟩ := again fencedAlias "<string>" readable
  have text : Dialect.Derives {} "[{a [+} +]".toList :=
    (accepts "[{a [+} +]" "<string>").mp ⟨_, rfl⟩
  obtain ⟨spaced, hspaced⟩ := (accepts "[{a [+} +]" "<string>").mpr text
  exact ⟨readable, ⟨spaced, hspaced, (loses _ _ _ hspaced).trans (by decide)⟩, program, hread,
    hbare, hnames.trans (by decide)⟩

end NamedTape
