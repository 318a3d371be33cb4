import Mathlib.Data.List.Chain
import NamedTape.Proofs.Throughout

/-!
# The normal form of merging

Merging leaves no two neighbours with the same counted operation, in the program or in any body of a
loop, and it leaves alone every program that has none to begin with (`merge_normal_form`). So a
second merge changes nothing. Spans and counts may be any.
-/

namespace NamedTape

namespace Instruction

/-- The counted operation of the instruction, if it has one. -/
def counted? : Instruction → Option Counted
  | leaf (.counted kind _) _ => some kind
  | _ => none

/-- The instructions do not have the same counted operation. -/
def Apart (i j : Instruction) : Prop := ∀ kind, i.counted? = some kind → j.counted? ≠ some kind

/-- No two neighbours have the same counted operation, at any depth. -/
def Normal (program : List Instruction) : Prop := Throughout (List.IsChain Apart) program

theorem Separates.counted? {i : Instruction} (h : i.Separates) : i.counted? = none := by
  rcases i with ⟨operation, span⟩ | ⟨body, span⟩
  · cases operation with
    | counted kind count => exact h.elim
    | input => rfl
    | output => rfl
    | goto name => rfl
    | blank => rfl
  · rfl

theorem Separates.mergeBody {i : Instruction} (h : i.Separates) : i.mergeBody.Separates := by
  cases i with
  | leaf operation span =>
    rw [mergeBody_leaf]
    exact h
  | loop body span =>
    rw [mergeBody_loop]
    trivial

theorem Separates.apart_left {i : Instruction} (h : i.Separates) (j : Instruction) :
    Apart i j := by
  intro kind hi
  rw [h.counted?] at hi
  cases hi

theorem Separates.apart_right {j : Instruction} (h : j.Separates) (i : Instruction) :
    Apart i j := by
  intro kind _
  rw [h.counted?]
  exact nofun

/-! ## What merging leaves -/

/-- What is merged after a run begins with the run. -/
theorem mergeAfter_some_head (run : Run) (rest : List Instruction) :
    ∃ i later, mergeAfter (some run) rest = i :: later ∧ i.counted? = some run.kind := by
  induction rest generalizing run with
  | nil => exact ⟨run.merged, [], mergeAfter_nil _, rfl⟩
  | cons i rest ih =>
    rcases separates_or i with hi | ⟨kind, count, span, rfl⟩
    · exact ⟨run.merged, _, mergeAfter_separates hi _ _, rfl⟩
    · by_cases hk : run.kind = kind
      · subst hk
        rw [mergeAfter_extend]
        exact ih (run.extend count span)
      · exact ⟨run.merged, _, mergeAfter_restart hk _ _ _, rfl⟩

/-- A run stands apart from one of another kind that follows it. -/
theorem chain_restart {run next : Run} (hk : run.kind ≠ next.kind) {rest : List Instruction}
    (h : (mergeAfter (some next) rest).IsChain Apart) :
    (run.merged :: mergeAfter (some next) rest).IsChain Apart := by
  obtain ⟨i, later, hm, hi⟩ := mergeAfter_some_head next rest
  rw [hm] at h ⊢
  refine List.isChain_cons_cons.mpr ⟨?_, h⟩
  intro kind hrun hnext
  have first : run.kind = kind := Option.some.inj hrun
  have second : next.kind = kind := Option.some.inj (hi.symm.trans hnext)
  exact hk (first.trans second.symm)

/-- An instruction that separates runs may stand before any list, and after a run. -/
theorem chain_separated {i : Instruction} (hi : i.Separates) (run : Option Run)
    {rest : List Instruction} (h : rest.IsChain Apart) :
    (closeRun run ++ i :: rest).IsChain Apart := by
  have behind : (i :: rest).IsChain Apart := by
    cases rest with
    | nil => exact .singleton i
    | cons j rest => exact List.isChain_cons_cons.mpr ⟨hi.apart_left j, h⟩
  cases run with
  | none => exact behind
  | some run => exact List.isChain_cons_cons.mpr ⟨hi.apart_right run.merged, behind⟩

theorem chain_mergeAfter (run : Option Run) (program : List Instruction) :
    (mergeAfter run program).IsChain Apart := by
  induction program generalizing run with
  | nil =>
    rw [mergeAfter_nil]
    cases run with
    | none => exact .nil
    | some run => exact .singleton run.merged
  | cons i rest ih =>
    rcases separates_or i with hi | ⟨kind, count, span, rfl⟩
    · rw [mergeAfter_separates hi]
      exact chain_separated hi.mergeBody run (ih none)
    · cases run with
      | none =>
        rw [mergeAfter_start]
        exact ih _
      | some run =>
        by_cases hk : run.kind = kind
        · subst hk
          rw [mergeAfter_extend]
          exact ih _
        · rw [mergeAfter_restart hk]
          exact chain_restart hk (ih _)

theorem not_loop_mem_closeRun {run : Option Run} {body : List Instruction} {span : Span} :
    .loop body span ∉ closeRun run := by
  cases run with
  | none => exact List.not_mem_nil
  | some run =>
    intro h
    cases List.mem_singleton.mp h

/-- The loops of a merged list are those of the list, with their bodies merged. -/
theorem loop_mem_mergeAfter {run : Option Run} {program body : List Instruction} {span : Span}
    (h : .loop body span ∈ mergeAfter run program) :
    ∃ plain, .loop plain span ∈ program ∧ body = merge plain := by
  induction program generalizing run with
  | nil =>
    rw [mergeAfter_nil] at h
    exact absurd h not_loop_mem_closeRun
  | cons i rest ih =>
    have later : ∀ {run}, .loop body span ∈ mergeAfter run rest →
        ∃ plain, .loop plain span ∈ i :: rest ∧ body = merge plain := by
      intro run hm
      obtain ⟨plain, hp, hbody⟩ := ih hm
      exact ⟨plain, List.mem_cons_of_mem i hp, hbody⟩
    rcases separates_or i with hi | ⟨kind, count, spanᵢ, rfl⟩
    · rw [mergeAfter_separates hi] at h
      rcases List.mem_append.mp h with h | h
      · exact absurd h not_loop_mem_closeRun
      rcases List.mem_cons.mp h with h | h
      · cases i with
        | leaf operation spanᵢ =>
          rw [mergeBody_leaf] at h
          cases h
        | loop plain spanᵢ =>
          rw [mergeBody_loop] at h
          cases h
          exact ⟨plain, List.mem_cons_self, rfl⟩
      · exact later h
    · cases run with
      | none =>
        rw [mergeAfter_start] at h
        exact later h
      | some run =>
        by_cases hk : run.kind = kind
        · subst hk
          rw [mergeAfter_extend] at h
          exact later h
        · rw [mergeAfter_restart hk] at h
          rcases List.mem_cons.mp h with h | h
          · cases h
          · exact later h

theorem normal_merge (program : List Instruction) : Normal (merge program) := by
  apply throughout_of_closed (Q := fun l => ∃ plain, l = merge plain)
  · rintro _ ⟨plain, rfl⟩
    exact chain_mergeAfter none plain
  · rintro _ body span ⟨plain, rfl⟩ hm
    obtain ⟨inner, -, hbody⟩ := loop_mem_mergeAfter hm
    exact ⟨inner, hbody⟩
  · exact ⟨program, rfl⟩

/-! ## What merging leaves alone -/

/-- A counted instruction that stands apart from what follows is a run of its own. -/
theorem mergeAfter_alone (kind : Counted) (count : Int) (span : Span) {rest : List Instruction}
    (h : (leaf (.counted kind count) span :: rest).IsChain Apart) :
    mergeAfter (some (.start kind count span)) rest =
      leaf (.counted kind count) span :: mergeAfter none rest := by
  cases rest with
  | nil => rw [mergeAfter_nil, mergeAfter_nil]; rfl
  | cons j later =>
    rcases separates_or j with hj | ⟨kind', count', span', rfl⟩
    · rw [mergeAfter_separates hj, mergeAfter_separates hj]
      rfl
    · have apart := (List.isChain_cons_cons.mp h).1
      have hk : kind ≠ kind' := by
        rintro rfl
        exact apart kind rfl rfl
      rw [mergeAfter_restart hk, mergeAfter_start]
      rfl

/-- A list is left alone if no neighbours in it can be joined and the bodies of its loops are left
alone. -/
theorem mergeAfter_of_chain {program : List Instruction} (chain : program.IsChain Apart)
    (bodies : ∀ body span, .loop body span ∈ program → merge body = body) :
    mergeAfter none program = program := by
  induction program with
  | nil => exact mergeAfter_nil none
  | cons i rest ih =>
    have later : mergeAfter none rest = rest :=
      ih chain.tail fun body span hm => bodies body span (List.mem_cons_of_mem i hm)
    rcases separates_or i with hi | ⟨kind, count, span, rfl⟩
    · have same : i.mergeBody = i := by
        cases i with
        | leaf operation span => exact mergeBody_leaf operation span
        | loop body span => rw [mergeBody_loop, bodies body span List.mem_cons_self]
      rw [mergeAfter_separates hi, same, later]
      rfl
    · rw [mergeAfter_start, mergeAfter_alone kind count span chain, later]

theorem merge_of_normal {program : List Instruction} (h : Normal program) :
    merge program = program := by
  induction h with
  | intro here _ ih => exact mergeAfter_of_chain here ih

/-- **Merging brings every program into normal form.** The programs in normal form are those that
merging leaves as they are, so merging twice is merging once. -/
theorem merge_normal_form (program : List Instruction) :
    Normal (merge program) ∧ (Normal program ↔ merge program = program) ∧
      merge (merge program) = merge program := by
  refine ⟨normal_merge program, ⟨merge_of_normal, ?_⟩, merge_of_normal (normal_merge program)⟩
  intro same
  rw [← same]
  exact normal_merge program

/-- Counts that cancel out still make one run, and a body in which two loops stand side by side is
left alone. -/
example :
    merge [.loop [.leaf (.counted .add 2) ⟨1, 1⟩, .leaf (.counted .add (-2)) ⟨0, 1⟩,
      .loop [] ⟨2, 2⟩, .loop [] ⟨4, 2⟩] ⟨0, 7⟩] =
    [.loop [.leaf (.counted .add 0) ⟨0, 2⟩, .loop [] ⟨2, 2⟩, .loop [] ⟨4, 2⟩] ⟨0, 7⟩] := by
  decide +kernel

end Instruction

end NamedTape
