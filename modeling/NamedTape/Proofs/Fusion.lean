import NamedTape.Proofs.Throughout

/-!
# Fusion

Merging a program is joining neighbours with the same counted operation, again and again and at any
depth. So a relation that allows each such step, and steps within programs, holds between a program
and the merged one (`Merges.merge`); the least one is `Fuses`. Where the instructions of each list
lie in the text one after another, the span of two that are joined contains the spans of both.
-/

namespace NamedTape

namespace Span

/-- The first span contains the second. -/
def Contains (s t : Span) : Prop := s.offset ≤ t.offset ∧ t.stop ≤ s.stop

/-- The second span begins and ends no earlier than the first. -/
def Precedes (s t : Span) : Prop := s.offset ≤ t.offset ∧ s.stop ≤ t.stop

variable {s t u : Span}

theorem contains_refl (s : Span) : s.Contains s := ⟨Int.le_refl _, Int.le_refl _⟩

theorem Contains.trans (h : s.Contains t) (h' : t.Contains u) : s.Contains u :=
  ⟨Int.le_trans h.1 h'.1, Int.le_trans h'.2 h.2⟩

theorem precedes_refl (s : Span) : s.Precedes s := ⟨Int.le_refl _, Int.le_refl _⟩

theorem Precedes.trans (h : s.Precedes t) (h' : t.Precedes u) : s.Precedes u :=
  ⟨Int.le_trans h.1 h'.1, Int.le_trans h.2 h'.2⟩

theorem contains_cover_left (s t : Span) : (s.cover t).Contains s :=
  ⟨Int.min_le_left _ _, cover_stop s t ▸ Int.le_max_left _ _⟩

theorem contains_cover_right (s t : Span) : (s.cover t).Contains t :=
  ⟨Int.min_le_right _ _, cover_stop s t ▸ Int.le_max_right _ _⟩

/-- A cover grows with a second part that moves on. -/
theorem Precedes.contains_cover (h : s.Precedes t) (h' : t.Precedes u) :
    (s.cover u).Contains (s.cover t) := by
  obtain ⟨_, _⟩ := h
  obtain ⟨_, _⟩ := h'
  rw [Contains, cover_stop, cover_stop, cover_offset, cover_offset]
  omega

end Span

namespace Instruction

/-- The instructions lie in the text one after another. -/
structure InOrder (program : List Instruction) : Prop where
  forward : ∀ i ∈ program, i.span.offset ≤ i.span.stop
  apart : program.Pairwise fun i j => i.span.stop ≤ j.span.offset

theorem InOrder.precedes {i j : Instruction} {rest : List Instruction}
    (h : InOrder (i :: rest)) (hj : j ∈ rest) : i.span.Precedes j.span := by
  have first := h.forward i List.mem_cons_self
  have second := h.forward j (List.mem_cons_of_mem i hj)
  have between := List.rel_of_pairwise_cons h.apart hj
  exact ⟨by omega, by omega⟩

theorem InOrder.tail {i : Instruction} {rest : List Instruction} (h : InOrder (i :: rest)) :
    InOrder rest :=
  ⟨fun j hj => h.forward j (List.mem_cons_of_mem i hj), h.apart.of_cons⟩

theorem throughout_tail {i : Instruction} {rest : List Instruction}
    (h : Throughout InOrder (i :: rest)) : Throughout InOrder rest :=
  ⟨h.here.tail, fun _ _ hm => h.inside (List.mem_cons_of_mem i hm)⟩

theorem throughout_cons {i : Instruction} {rest : List Instruction}
    (forward : i.span.offset ≤ i.span.stop) (apart : ∀ j ∈ rest, i.span.stop ≤ j.span.offset)
    (inside : ∀ body span, i = .loop body span → Throughout InOrder body)
    (h : Throughout InOrder rest) : Throughout InOrder (i :: rest) := by
  refine ⟨⟨?_, List.pairwise_cons.mpr ⟨apart, h.here.apart⟩⟩, fun body span hm => ?_⟩
  · exact List.forall_mem_cons.mpr ⟨forward, h.here.forward⟩
  · rcases List.mem_cons.mp hm with hi | hm
    · exact inside body span hi.symm
    · exact h.inside hm

/-- The second program comes from the first by joining neighbours. If `placed`, what is joined lies
within what it becomes. -/
inductive Fuses (placed : Prop) : List Instruction → List Instruction → Prop
  | refl (l : List Instruction) : Fuses placed l l
  | trans {l m n : List Instruction} (h : Fuses placed l m) (h' : Fuses placed m n) :
    Fuses placed l n
  | append {l l' m m' : List Instruction} (h : Fuses placed l l') (h' : Fuses placed m m') :
    Fuses placed (l ++ m) (l' ++ m')
  | loop {body body' : List Instruction} (span : Span) (h : Fuses placed body body') :
    Fuses placed [.loop body span] [.loop body' span]
  | join (kind : Counted) (m n : Int) {first second joined : Span}
    (h : placed → joined.Contains first ∧ joined.Contains second) :
    Fuses placed [.leaf (.counted kind m) first, .leaf (.counted kind n) second]
      [.leaf (.counted kind (m + n)) joined]

/-- What holds of a sum wherever it holds of its parts holds of all that a program is fused to. -/
theorem Fuses.eachLeaf {placed : Prop} {P : Operation → Prop}
    (hsum : ∀ kind m n, P (.counted kind m) → P (.counted kind n) → P (.counted kind (m + n)))
    {l m : List Instruction} (h : Fuses placed l m) (hl : EachLeaf P l) : EachLeaf P m := by
  induction h with
  | refl l => exact hl
  | trans _ _ ih ih' => exact ih' (ih hl)
  | append _ _ ih ih' =>
    exact (ih (hl.of_subset fun _ => List.mem_append_left _)).append
      (ih' (hl.of_subset fun _ => List.mem_append_right _))
  | loop span _ ih => exact .loop span (ih hl.of_loop)
  | join kind m n _ => exact .leaf _ (hsum kind m n hl.of_leaf hl.tail.of_leaf)

/-! ## Runs that are being gathered -/

/-- The span of the latest instruction of a run. -/
def Run.latest (run : Run) : Span := run.last.getD run.span

/-- The run lies in order, and everything that follows it lies behind its latest instruction. -/
structure Run.Leads (run : Run) (rest : List Instruction) : Prop where
  ordered : run.span.Precedes run.latest
  behind : ∀ i ∈ rest, run.latest.Precedes i.span

theorem Run.leads_start (kind : Counted) (count : Int) {span : Span} {rest : List Instruction}
    (h : InOrder (.leaf (.counted kind count) span :: rest)) :
    (Run.start kind count span).Leads rest :=
  ⟨Span.precedes_refl span, fun _ hj => h.precedes hj⟩

theorem Run.Leads.extend {run : Run} {kind : Counted} {count : Int} {span : Span}
    {rest : List Instruction} (h : run.Leads (.leaf (.counted kind count) span :: rest))
    (ho : InOrder (.leaf (.counted kind count) span :: rest)) :
    (run.extend count span).Leads rest :=
  ⟨h.ordered.trans (h.behind _ List.mem_cons_self), fun _ hj => ho.precedes hj⟩

/-- A run contains its beginning. -/
theorem Run.contains_merged {run : Run} {span : Span} (ordered : run.span.Precedes run.latest)
    (behind : run.latest.Precedes span) (count : Int) :
    (run.extend count span).merged.span.Contains run.merged.span := by
  obtain ⟨kind, sum, first, last⟩ := run
  cases last with
  | none => exact Span.contains_cover_left first span
  | some latest => exact ordered.contains_cover behind

/-! ## Merging is joining -/

/-- The relation holds wherever a run is joined with the instruction behind it, at any depth. If
`placed`, these lie in order. -/
structure Merges (placed : Prop) (R : List Instruction → List Instruction → Prop) : Prop where
  refl (l : List Instruction) : R l l
  trans {l m n : List Instruction} (h : R l m) (h' : R m n) : R l n
  append {l l' m m' : List Instruction} (h : R l l') (h' : R m m') : R (l ++ m) (l' ++ m')
  loop {body body' : List Instruction} (span : Span) (h : R body body') :
    R [.loop body span] [.loop body' span]
  join (run : Run) (count : Int) (span : Span)
    (h : placed → run.span.Precedes run.latest ∧ run.latest.Precedes span) :
    R [run.merged, .leaf (.counted run.kind count) span] [(run.extend count span).merged]

section merging

variable {placed : Prop} {R : List Instruction → List Instruction → Prop}

theorem Merges.cons (hR : Merges placed R) {i i' : Instruction} {l l' : List Instruction}
    (h : R [i] [i']) (h' : R l l') : R (i :: l) (i' :: l') :=
  hR.append h h'

mutual

theorem Merges.mergeBody (hR : Merges placed R) (i : Instruction)
    (h : placed → ∀ body span, i = .loop body span → Throughout InOrder body) :
    R [i] [i.mergeBody] := by
  cases i with
  | leaf operation span =>
    rw [mergeBody_leaf]
    exact hR.refl _
  | loop body span =>
    rw [mergeBody_loop]
    exact hR.loop span (hR.mergeAfter none body (fun hp => h hp body span rfl)
      fun _ _ hr => nomatch hr)

theorem Merges.mergeAfter (hR : Merges placed R) (run : Option Run) (program : List Instruction)
    (hp : placed → Throughout InOrder program)
    (hr : placed → ∀ r, run = some r → r.Leads program) :
    R (closeRun run ++ program) (Instruction.mergeAfter run program) := by
  cases program with
  | nil =>
    rw [mergeAfter_nil, List.append_nil]
    exact hR.refl _
  | cons i rest =>
    have hrest := fun h => throughout_tail (hp h)
    rcases separates_or i with hi | ⟨kind, count, span, rfl⟩
    · rw [mergeAfter_separates hi]
      refine hR.append (hR.refl _) (hR.cons (hR.mergeBody i fun h body span hb => ?_)
        (hR.mergeAfter none rest hrest fun _ _ hr => nomatch hr))
      subst hb
      exact (hp h).inside List.mem_cons_self
    · have begin := hR.mergeAfter (some (.start kind count span)) rest hrest fun h r hs =>
        Option.some.inj hs ▸ Run.leads_start kind count (hp h).here
      cases run with
      | none =>
        rw [mergeAfter_start]
        exact begin
      | some run =>
        by_cases hk : run.kind = kind
        · subst hk
          rw [mergeAfter_extend]
          have leads := fun h => hr h run rfl
          have joined := hR.join run count span fun h =>
            ⟨(leads h).ordered, (leads h).behind _ List.mem_cons_self⟩
          have longer : R ([run.merged, .leaf (.counted run.kind count) span] ++ rest)
              ([(run.extend count span).merged] ++ rest) :=
            hR.append joined (hR.refl rest)
          exact hR.trans longer <|
            hR.mergeAfter (some (run.extend count span)) rest hrest fun h r hs =>
              Option.some.inj hs ▸ (leads h).extend (hp h).here
        · rw [mergeAfter_restart hk]
          exact hR.cons (hR.refl _) begin

end

theorem Merges.merge (hR : Merges placed R) {program : List Instruction}
    (h : placed → Throughout InOrder program) : R program (merge program) :=
  hR.mergeAfter none program h fun _ _ hr => nomatch hr

end merging

theorem merges_fuses (placed : Prop) : Merges placed (Fuses placed) where
  refl := .refl
  trans := .trans
  append := .append
  loop := .loop
  join run count span h := .join run.kind run.count count fun hp =>
    ⟨Run.contains_merged (h hp).1 (h hp).2 count, Span.contains_cover_right run.span span⟩

/-- **Merging is joining neighbours.** -/
theorem fuses_merge {placed : Prop} {program : List Instruction}
    (h : placed → Throughout InOrder program) : Fuses placed program (merge program) :=
  (merges_fuses placed).merge h

end Instruction

end NamedTape
