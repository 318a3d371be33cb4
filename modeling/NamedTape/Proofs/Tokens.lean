import NamedTape.Proofs.Grammar

/-!
# Tokens

A token is an operation, a bracket, a blank that is skipped, or a name in braces. A text splits into
tokens in at most one way (`Tokens.unique`), and the brackets among those of a program are balanced
(`Writes.splits`). A bracket within a name is no token.
-/

namespace NamedTape

namespace Dialect

/-- A text that is one token. -/
inductive Token (dialect : Dialect) : List Char → Prop
  | plain {c : Char} (h : c ∈ ['+', '-', '<', '>', ',', '.', '[', ']']) : Token dialect [c]
  | blank {c : Char} (h : dialect.skipBlanks = true) (hc : c ∈ [' ', '\t', '\r', '\n']) :
    Token dialect [c]
  | named {name : List Char} (h : dialect.aliases = true) (hn : '}' ∉ name) :
    Token dialect ('{' :: (name ++ ['}']))

/-- The text splits into the tokens. -/
structure Tokens (dialect : Dialect) (text : List Char) (tokens : List (List Char)) : Prop where
  each : ∀ token ∈ tokens, dialect.Token token
  whole : tokens.flatten = text

variable {dialect : Dialect} {text more token : List Char} {tokens others : List (List Char)}

/-! ## One way to split -/

theorem Token.shape (h : dialect.Token token) :
    (∃ c, c ≠ '{' ∧ token = [c]) ∨ ∃ name, '}' ∉ name ∧ token = '{' :: (name ++ ['}']) := by
  cases h with
  | plain h =>
    refine .inl ⟨_, ?_, rfl⟩
    rintro rfl
    revert h
    decide
  | blank _ hc =>
    refine .inl ⟨_, ?_, rfl⟩
    rintro rfl
    revert hc
    decide
  | named _ hn => exact .inr ⟨_, hn, rfl⟩

theorem Token.ne_nil (h : dialect.Token token) : token ≠ [] := by
  rcases h.shape with ⟨c, -, rfl⟩ | ⟨name, -, rfl⟩ <;> exact List.cons_ne_nil _ _

/-- A name ends at the first brace that closes it. -/
theorem name_unique {name name' rest rest' : List Char} (hn : '}' ∉ name) (hn' : '}' ∉ name')
    (h : name ++ '}' :: rest = name' ++ '}' :: rest') : name = name' ∧ rest = rest' := by
  induction name generalizing name' with
  | nil =>
    cases name' with
    | nil => exact ⟨rfl, (List.cons.inj h).2⟩
    | cons c name' =>
      rw [List.nil_append, List.cons_append, List.cons.injEq] at h
      exact absurd (h.1 ▸ List.mem_cons_self) hn'
  | cons c name ih =>
    cases name' with
    | nil =>
      rw [List.nil_append, List.cons_append, List.cons.injEq] at h
      exact absurd (h.1 ▸ List.mem_cons_self) hn
    | cons c' name' =>
      rw [List.cons_append, List.cons_append, List.cons.injEq] at h
      obtain ⟨rfl, h⟩ := h
      obtain ⟨rfl, rfl⟩ := ih (fun hm => hn (List.mem_cons_of_mem c hm))
        (fun hm => hn' (List.mem_cons_of_mem c hm)) h
      exact ⟨rfl, rfl⟩

/-- No token is the beginning of another. -/
theorem Token.unique {token' rest rest' : List Char} (h : dialect.Token token)
    (h' : dialect.Token token') (heq : token ++ rest = token' ++ rest') :
    token = token' ∧ rest = rest' := by
  rcases h.shape with ⟨c, hc, rfl⟩ | ⟨name, hn, rfl⟩ <;>
    rcases h'.shape with ⟨c', hc', rfl⟩ | ⟨name', hn', rfl⟩
  · obtain ⟨rfl, rfl⟩ := List.cons.inj heq
    exact ⟨rfl, rfl⟩
  · exact absurd (List.cons.inj heq).1 hc
  · exact absurd (List.cons.inj heq).1.symm hc'
  · rw [List.cons_append, List.cons_append, List.append_assoc, List.append_assoc,
      List.cons.injEq] at heq
    obtain ⟨rfl, rfl⟩ := name_unique hn hn' heq.2
    exact ⟨rfl, rfl⟩

/-- A text splits into tokens in at most one way. -/
theorem Tokens.unique (h : dialect.Tokens text tokens) (h' : dialect.Tokens text others) :
    tokens = others := by
  obtain ⟨each, rfl⟩ := h
  obtain ⟨each', whole⟩ := h'
  induction tokens generalizing others with
  | nil =>
    cases others with
    | nil => rfl
    | cons token others =>
      have empty := (List.append_eq_nil_iff.mp whole).1
      exact absurd empty (each' token List.mem_cons_self).ne_nil
  | cons token tokens ih =>
    have first := each token List.mem_cons_self
    cases others with
    | nil => exact absurd (List.append_eq_nil_iff.mp whole.symm).1 first.ne_nil
    | cons token' others =>
      obtain ⟨rfl, rest⟩ := (each' token' List.mem_cons_self).unique first whole
      rw [ih (fun t ht => each t (List.mem_cons_of_mem _ ht))
        (fun t ht => each' t (List.mem_cons_of_mem _ ht)) rest]

/-! ## Brackets -/

/-- The bracket that opens before these tokens is matched: there are first tokens of theirs that
close one loop more than they open. -/
def Matched (after : List (List Char)) : Prop :=
  ∃ n, (after.take n).count ['['] < (after.take n).count [']']

/-- No bracket closes a loop that the tokens do not open, and they close each loop they open. -/
structure Balanced (tokens : List (List Char)) : Prop where
  opened : ∀ n, (tokens.take n).count [']'] ≤ (tokens.take n).count ['[']
  closed : tokens.count [']'] = tokens.count ['[']

/-- The last opening bracket that no closing one matches is at the offset. -/
def LastOpen (dialect : Dialect) (text : List Char) (offset : Nat) : Prop :=
  ∃ before after, (∀ tokens, dialect.Tokens text tokens ↔ tokens = before ++ ['['] :: after) ∧
    before.flatten.length = offset ∧ ¬ Matched after ∧
    ∀ inner rest, after = inner ++ ['['] :: rest → Matched rest

theorem Balanced.nil : Balanced [] := ⟨fun n => by rw [List.take_nil]; exact Nat.le_refl 0, rfl⟩

theorem Balanced.cons (hopen : token ≠ ['[']) (hclose : token ≠ [']']) (h : Balanced tokens) :
    Balanced (token :: tokens) := by
  constructor
  · intro n
    cases n with
    | zero => exact Nat.le_refl 0
    | succ n =>
      rw [List.take_succ_cons, List.count_cons_of_ne hopen, List.count_cons_of_ne hclose]
      exact h.opened n
  · rw [List.count_cons_of_ne hopen, List.count_cons_of_ne hclose]
    exact h.closed

theorem Balanced.append (h : Balanced tokens) (h' : Balanced others) :
    Balanced (tokens ++ others) := by
  constructor
  · intro n
    have first := h.opened n
    have second := h'.opened (n - tokens.length)
    rw [List.take_append, List.count_append, List.count_append]
    omega
  · rw [List.count_append, List.count_append, h.closed, h'.closed]

theorem Balanced.enclose (h : Balanced tokens) : Balanced (['['] :: (tokens ++ [[']']])) := by
  have opening : ([']'] : List Char) ≠ ['['] := by decide
  constructor
  · intro n
    cases n with
    | zero => exact Nat.le_refl 0
    | succ n =>
      have inside := h.opened n
      have last : ([[']']].take (n - tokens.length)).count [']'] ≤ 1 :=
        Nat.le_trans List.count_le_length (List.length_take_le' _ _)
      rw [List.take_succ_cons, List.count_cons_self, List.count_cons_of_ne opening.symm,
        List.take_append, List.count_append, List.count_append]
      omega
  · have whole := h.closed
    rw [List.count_cons_self, List.count_cons_of_ne opening.symm, List.count_append,
      List.count_append, List.count_singleton_self, List.count_cons_of_ne opening, List.count_nil]
    omega

theorem Balanced.not_matched (h : Balanced tokens) : ¬ Matched tokens :=
  fun ⟨n, hn⟩ => Nat.not_lt.mpr (h.opened n) hn

/-- Every bracket among balanced tokens is matched by one of them. -/
theorem Balanced.matched {inner rest : List (List Char)} (h : Balanced (inner ++ ['['] :: rest)) :
    Matched rest := by
  refine ⟨rest.length, ?_⟩
  have before := h.opened inner.length
  have whole := h.closed
  rw [List.take_left] at before
  rw [List.count_append, List.count_append, List.count_cons_self,
    List.count_cons_of_ne (by decide)] at whole
  rw [List.take_length]
  omega

/-! ## The tokens of a program -/

theorem Tokens.nil : dialect.Tokens [] [] := ⟨fun _ h => absurd h List.not_mem_nil, rfl⟩

theorem Tokens.append (h : dialect.Tokens text tokens) (h' : dialect.Tokens more others) :
    dialect.Tokens (text ++ more) (tokens ++ others) := by
  refine ⟨fun token ht => ?_, by rw [List.flatten_append, h.whole, h'.whole]⟩
  rcases List.mem_append.mp ht with ht | ht
  · exact h.each token ht
  · exact h'.each token ht

theorem Tokens.cons (ht : dialect.Token token) (h : dialect.Tokens text tokens) :
    dialect.Tokens (token ++ text) (token :: tokens) :=
  ⟨List.forall_mem_cons.mpr ⟨ht, h.each⟩, by rw [List.flatten_cons, h.whole]⟩

/-- A program splits into tokens, and their brackets are balanced. -/
theorem Writes.splits {offset : Nat} {l : List Instruction} (h : dialect.Writes offset text l) :
    ∃ tokens, dialect.Tokens text tokens ∧ Balanced tokens := by
  induction h with
  | nil => exact ⟨[], .nil, .nil⟩
  | @operation _ c _ _ _ h _ ih =>
    obtain ⟨tokens, ht, hb⟩ := ih
    have hc := operation?_isSome.mpr ⟨_, h⟩
    refine ⟨[c] :: tokens, .cons (.plain ?_) ht, .cons ?_ ?_ hb⟩
    · exact List.mem_append_left ['[', ']'] hc
    all_goals
      rintro ⟨rfl⟩
      cases h
  | @blank _ c _ _ h _ ih =>
    obtain ⟨tokens, ht, hb⟩ := ih
    rw [Bool.and_eq_true, isBlank_iff] at h
    refine ⟨[c] :: tokens, .cons (.blank h.1 h.2) ht, .cons ?_ ?_ hb⟩
    all_goals
      rintro ⟨rfl⟩
      exact absurd h.2 (by decide)
  | @named _ name text _ h hn _ ih =>
    obtain ⟨tokens, ht, hb⟩ := ih
    refine ⟨('{' :: (name ++ ['}'])) :: tokens, ?_, .cons (by simp) (by simp) hb⟩
    have split : '{' :: (name ++ '}' :: text) = ('{' :: (name ++ ['}'])) ++ text := by simp
    rw [split]
    exact .cons (.named h hn) ht
  | @loop _ inner text _ _ _ _ ihb ih =>
    obtain ⟨body, hbody, balanced⟩ := ihb
    obtain ⟨tokens, ht, hb⟩ := ih
    have split : '[' :: (inner ++ ']' :: text) = ['['] ++ (inner ++ ([']'] ++ text)) := by simp
    refine ⟨['['] :: (body ++ [']'] :: tokens), ?_, ?_⟩
    · rw [split]
      exact .cons (.plain (by decide)) (hbody.append (.cons (.plain (by decide)) ht))
    · simpa using balanced.enclose.append hb

end Dialect

end NamedTape
