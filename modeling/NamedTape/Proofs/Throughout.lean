import NamedTape.Instruction.Merging

/-!
# Throughout a program

What holds of a program and of the bodies of all the loops in it, however deep they lie.
-/

namespace NamedTape

namespace Instruction

/-- `P` holds of the list and of the body of every loop in it, at any depth. -/
inductive Throughout (P : List Instruction → Prop) : List Instruction → Prop
  | intro {program : List Instruction} (here : P program)
    (inside : ∀ body span, .loop body span ∈ program → Throughout P body) : Throughout P program

section throughout

variable {P : List Instruction → Prop} {program : List Instruction}

theorem Throughout.here (h : Throughout P program) : P program := by
  cases h with
  | intro here _ => exact here

theorem Throughout.inside (h : Throughout P program) {body : List Instruction} {span : Span}
    (hm : .loop body span ∈ program) : Throughout P body := by
  cases h with
  | intro _ inside => exact inside body span hm

/-- A property that passes to the bodies of loops, and that implies `P`, implies `P` throughout. -/
theorem throughout_of_closed {Q : List Instruction → Prop} (here : ∀ l, Q l → P l)
    (inside : ∀ l body span, Q l → .loop body span ∈ l → Q body) (l : List Instruction) (h : Q l) :
    Throughout P l :=
  ⟨here l h, fun body span hm =>
    throughout_of_closed here inside body (inside l body span h hm)⟩
termination_by sizeOf l
decreasing_by
  have hlt := List.sizeOf_lt_of_mem hm
  rw [Instruction.loop.sizeOf_spec] at hlt
  omega

end throughout

/-- `P` holds of the operation of every leaf in the list, at any depth. -/
abbrev EachLeaf (P : Operation → Prop) : List Instruction → Prop :=
  Throughout fun program => ∀ operation span, .leaf operation span ∈ program → P operation

section eachLeaf

variable {P : Operation → Prop} {i : Instruction} {l m : List Instruction}

theorem EachLeaf.mono {Q : Operation → Prop} (h : EachLeaf P l)
    (hPQ : ∀ operation, P operation → Q operation) : EachLeaf Q l := by
  induction h with
  | intro here _ ih => exact ⟨fun operation span hi => hPQ operation (here operation span hi), ih⟩

theorem EachLeaf.and {Q : Operation → Prop} (h : EachLeaf P l) (h' : EachLeaf Q l) :
    EachLeaf (fun operation => P operation ∧ Q operation) l := by
  induction h with
  | intro here _ ih =>
    exact ⟨fun operation span hi => ⟨here operation span hi, h'.here operation span hi⟩,
      fun body span hi => ih body span hi (h'.inside hi)⟩

theorem EachLeaf.of_subset (h : EachLeaf P m) (hlm : ∀ i ∈ l, i ∈ m) : EachLeaf P l :=
  ⟨fun operation span hi => h.here operation span (hlm _ hi),
   fun _ _ hi => h.inside (hlm _ hi)⟩

theorem EachLeaf.nil : EachLeaf P [] :=
  ⟨fun _ _ h => absurd h List.not_mem_nil, fun _ _ h => absurd h List.not_mem_nil⟩

theorem EachLeaf.head (h : EachLeaf P (i :: l)) : EachLeaf P [i] :=
  h.of_subset fun _ hi => List.mem_cons.mpr (.inl (List.mem_singleton.mp hi))

theorem EachLeaf.tail (h : EachLeaf P (i :: l)) : EachLeaf P l :=
  h.of_subset fun _ => List.mem_cons_of_mem i

theorem EachLeaf.append (hl : EachLeaf P l) (hm : EachLeaf P m) : EachLeaf P (l ++ m) := by
  refine ⟨fun operation span h => ?_, fun body span h => ?_⟩
  · rcases List.mem_append.mp h with h | h
    · exact hl.here operation span h
    · exact hm.here operation span h
  · rcases List.mem_append.mp h with h | h
    · exact hl.inside h
    · exact hm.inside h

theorem EachLeaf.cons (hi : EachLeaf P [i]) (hl : EachLeaf P l) : EachLeaf P (i :: l) :=
  hi.append hl

theorem EachLeaf.leaf {operation : Operation} (span : Span) (h : P operation) :
    EachLeaf P [.leaf operation span] := by
  refine ⟨fun operation' span' hi => ?_, fun body span' hi => ?_⟩
  · cases List.mem_singleton.mp hi
    exact h
  · cases List.mem_singleton.mp hi

theorem EachLeaf.loop {body : List Instruction} (span : Span) (h : EachLeaf P body) :
    EachLeaf P [.loop body span] := by
  refine ⟨fun operation span' hi => ?_, fun body' span' hi => ?_⟩
  · cases List.mem_singleton.mp hi
  · cases List.mem_singleton.mp hi
    exact h

theorem EachLeaf.of_leaf {operation : Operation} {span : Span}
    (h : EachLeaf P (.leaf operation span :: l)) : P operation :=
  h.here operation span List.mem_cons_self

theorem EachLeaf.of_loop {body : List Instruction} {span : Span}
    (h : EachLeaf P (.loop body span :: l)) : EachLeaf P body :=
  h.inside List.mem_cons_self

/-! ## Merging -/

theorem mergeBody_leaf (operation : Operation) (span : Span) :
    mergeBody (.leaf operation span) = .leaf operation span := by
  rw [mergeBody]

theorem mergeBody_loop (body : List Instruction) (span : Span) :
    mergeBody (.loop body span) = .loop (merge body) span := by
  rw [mergeBody, merge]

/-- Whether the instruction ends a run of any kind. -/
def Separates : Instruction → Prop
  | .leaf (.counted ..) _ => False
  | _ => True

theorem separates_or (i : Instruction) :
    i.Separates ∨ ∃ kind count span, i = .leaf (.counted kind count) span := by
  rcases i with ⟨operation, span⟩ | ⟨body, span⟩
  · cases operation with
    | counted kind count => exact .inr ⟨kind, count, span, rfl⟩
    | input => exact .inl trivial
    | output => exact .inl trivial
    | goto name => exact .inl trivial
    | blank => exact .inl trivial
  · exact .inl trivial

theorem mergeAfter_nil (run : Option Run) : mergeAfter run [] = closeRun run := by
  rw [mergeAfter]

theorem mergeAfter_start (kind : Counted) (count : Int) (span : Span) (rest : List Instruction) :
    mergeAfter none (.leaf (.counted kind count) span :: rest) =
      mergeAfter (some (.start kind count span)) rest := by
  rw [mergeAfter]

theorem mergeAfter_extend (run : Run) (count : Int) (span : Span) (rest : List Instruction) :
    mergeAfter (some run) (.leaf (.counted run.kind count) span :: rest) =
      mergeAfter (some (run.extend count span)) rest := by
  rw [mergeAfter, if_pos rfl]

theorem mergeAfter_restart {run : Run} {kind : Counted} (h : run.kind ≠ kind) (count : Int)
    (span : Span) (rest : List Instruction) :
    mergeAfter (some run) (.leaf (.counted kind count) span :: rest) =
      run.merged :: mergeAfter (some (.start kind count span)) rest := by
  rw [mergeAfter, if_neg h]

theorem mergeAfter_separates {i : Instruction} (h : i.Separates) (run : Option Run)
    (rest : List Instruction) :
    mergeAfter run (i :: rest) = closeRun run ++ i.mergeBody :: mergeAfter none rest := by
  rcases i with ⟨operation, span⟩ | ⟨body, span⟩
  · cases operation with
    | counted kind count => exact h.elim
    | input => rw [mergeAfter]; nofun
    | output => rw [mergeAfter]; nofun
    | goto name => rw [mergeAfter]; nofun
    | blank => rw [mergeAfter]; nofun
  · rw [mergeAfter]
    nofun

end eachLeaf

end Instruction

end NamedTape
