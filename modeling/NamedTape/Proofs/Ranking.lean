import NamedTape.Hooks

/-!
# Ranking

The order in which handlers are kept: by descending priority, those of equal priority in the order
of their registration.

* A list has just one such ranking (`Ranks.unique`), which a stable sort finds.
* A new registration takes its place in a ranking as the last one (`Ranks.insert`). Sorting all of
  them anew, from the end of the list and backwards, would not do anything else
  (`Ranks.insert_eq_resorted`).
* A part of a ranking is the ranking of that part (`Ranks.filter`).
-/

namespace NamedTape.Hooks

variable {H : Type}

/-! ## Stable sorts -/

/-- A stable sort leaves elements in order that may come in any. -/
theorem filter_mergeSort {α : Type} {le : α → α → Bool}
    (trans : ∀ a b c, le a b → le b c → le a c) (total : ∀ a b, le a b || le b a)
    {p : α → Bool} (tied : ∀ a b, p a → p b → le a b) (xs : List α) :
    (xs.mergeSort le).filter p = xs.filter p := by
  have sorted : (xs.filter p).Pairwise (fun a b => le a b) := by
    refine List.pairwise_of_forall_mem_list fun a ha b hb => ?_
    exact tied a b (List.mem_filter.mp ha).2 (List.mem_filter.mp hb).2
  have kept : (xs.filter p).Sublist ((xs.mergeSort le).filter p) := by
    have := (List.sublist_mergeSort trans total sorted List.filter_sublist).filter p
    rwa [List.filter_filter, funext fun a => Bool.and_self (p a)] at this
  have length := ((List.mergeSort_perm xs le).filter p).length_eq
  exact (kept.eq_of_length length.symm).symm

/-! ## The ranking of a list -/

/-- No registration has a lower priority than those after it. -/
abbrev Descends (xs : List (Registration H)) : Prop :=
  xs.Pairwise fun a b => b.priority ≤ a.priority

/-- The second list is the first by descending priority, with those of equal priority in order. -/
structure Ranks (asked ranked : List (Registration H)) : Prop where
  perm : ranked.Perm asked
  descends : Descends ranked
  ties : ∀ p, ranked.filter (·.priority == p) = asked.filter (·.priority == p)

theorem Descends.le_head {a r : Registration H} {xs : List (Registration H)}
    (h : Descends (a :: xs)) (hr : r ∈ a :: xs) : r.priority ≤ a.priority := by
  rcases List.mem_cons.mp hr with rfl | hr
  · exact Int.le_refl _
  · exact List.rel_of_pairwise_cons h hr

theorem mem_of_ties {xs ys : List (Registration H)}
    (ties : ∀ p, xs.filter (·.priority == p) = ys.filter (·.priority == p))
    {r : Registration H} (hr : r ∈ xs) : r ∈ ys := by
  have among : r ∈ xs.filter (·.priority == r.priority) :=
    List.mem_filter.mpr ⟨hr, beq_self_eq_true _⟩
  rw [ties] at among
  exact (List.mem_filter.mp among).1

/-- Lists by descending priority are equal if they agree on each priority. -/
theorem eq_of_ties {xs ys : List (Registration H)} (hx : Descends xs) (hy : Descends ys)
    (ties : ∀ p, xs.filter (·.priority == p) = ys.filter (·.priority == p)) : xs = ys := by
  induction xs generalizing ys with
  | nil =>
    refine (List.eq_nil_iff_forall_not_mem.mpr fun r hr => ?_).symm
    cases mem_of_ties (fun p => (ties p).symm) hr
  | cons a xs ih =>
    cases ys with
    | nil => cases mem_of_ties ties List.mem_cons_self
    | cons b ys =>
      have level : a.priority = b.priority := Int.le_antisymm
        (hy.le_head (mem_of_ties ties List.mem_cons_self))
        (hx.le_head (mem_of_ties (fun p => (ties p).symm) List.mem_cons_self))
      have heads := ties a.priority
      simp only [List.filter_cons, level, beq_self_eq_true, if_true, List.cons.injEq] at heads
      obtain ⟨rfl, -⟩ := heads
      refine congrArg (a :: ·) (ih hx.of_cons hy.of_cons fun p => ?_)
      have rest := ties p
      simp only [List.filter_cons] at rest
      split at rest
      · exact (List.cons.inj rest).2
      · exact rest

theorem Ranks.unique {asked xs ys : List (Registration H)} (hx : Ranks asked xs)
    (hy : Ranks asked ys) : xs = ys :=
  eq_of_ties hx.descends hy.descends fun p => (hx.ties p).trans (hy.ties p).symm

theorem Ranks.filter {asked ranked : List (Registration H)} (h : Ranks asked ranked)
    (keep : Registration H → Bool) : Ranks (asked.filter keep) (ranked.filter keep) where
  perm := h.perm.filter keep
  descends := h.descends.filter keep
  ties p := by
    have swap : ∀ xs : List (Registration H), (xs.filter keep).filter (·.priority == p) =
        (xs.filter (·.priority == p)).filter keep := by
      simp [List.filter_filter, Bool.and_comm]
    rw [swap, h.ties, swap]

/-! ## New registrations -/

theorem insert_perm (new : Registration H) (xs : List (Registration H)) :
    (insert new xs).Perm (new :: xs) := by
  induction xs with
  | nil => exact .refl _
  | cons old rest ih =>
    rw [insert]
    split
    · exact (ih.cons old).trans (.swap new old rest)
    · exact .refl _

theorem Descends.insert {xs : List (Registration H)} (h : Descends xs) (new : Registration H) :
    Descends (insert new xs) := by
  induction xs with
  | nil => exact List.pairwise_singleton _ _
  | cons old rest ih =>
    rw [Hooks.insert]
    split
    · next higher =>
      refine List.pairwise_cons.mpr ⟨fun r hr => ?_, ih h.of_cons⟩
      rcases List.mem_cons.mp ((insert_perm new rest).mem_iff.mp hr) with rfl | hr
      · exact higher
      · exact List.rel_of_pairwise_cons h hr
    · next lower =>
      refine List.pairwise_cons.mpr ⟨fun r hr => ?_, h⟩
      have := h.le_head hr
      omega

/-- A new registration comes after all those of its priority. -/
theorem filter_insert {xs : List (Registration H)} (h : Descends xs) (new : Registration H)
    (p : Int) :
    (insert new xs).filter (·.priority == p) = (xs ++ [new]).filter (·.priority == p) := by
  induction xs with
  | nil => rfl
  | cons old rest ih =>
    rw [insert]
    split
    · rw [List.cons_append, List.filter_cons, List.filter_cons, ih h.of_cons]
    · next lower =>
      -- The whole list ranks below the new one, so that only one of them can have the priority.
      rw [List.filter_append, List.filter_cons]
      by_cases hp : new.priority = p
      · have none : (old :: rest).filter (·.priority == p) = [] := by
          refine List.filter_eq_nil_iff.mpr fun r hr => ?_
          have := h.le_head hr
          simp only [beq_iff_eq]
          omega
        simp [hp, none]
      · simp [hp]

theorem Ranks.insert {asked ranked : List (Registration H)} (h : Ranks asked ranked)
    (new : Registration H) : Ranks (asked ++ [new]) (insert new ranked) where
  perm := (insert_perm new ranked).trans
    ((h.perm.cons new).trans (List.perm_append_singleton new asked).symm)
  descends := h.descends.insert new
  ties p := by
    rw [filter_insert h.descends, List.filter_append, h.ties, List.filter_append]

/-! ## Sorting anew -/

/-- The list sorted from its end by ascending priority, and read backwards. -/
def resorted (xs : List (Registration H)) : List (Registration H) :=
  (xs.reverse.mergeSort fun a b => a.priority ≤ b.priority).reverse

/-- Registrations of equal priority do not come out backwards. -/
theorem ranks_resorted (xs : List (Registration H)) : Ranks xs (resorted xs) := by
  have trans : ∀ a b c : Registration H, decide (a.priority ≤ b.priority) →
      decide (b.priority ≤ c.priority) → decide (a.priority ≤ c.priority) := by
    simp only [decide_eq_true_eq]
    omega
  have total : ∀ a b : Registration H,
      decide (a.priority ≤ b.priority) || decide (b.priority ≤ a.priority) := by
    simp only [Bool.or_eq_true, decide_eq_true_eq]
    omega
  have tied : ∀ p, ∀ a b : Registration H, a.priority == p → b.priority == p →
      decide (a.priority ≤ b.priority) := by
    simp only [beq_iff_eq, decide_eq_true_eq]
    omega
  refine ⟨?_, ?_, fun p => ?_⟩
  · exact (List.reverse_perm _).trans ((List.mergeSort_perm _ _).trans (List.reverse_perm xs))
  · have sorted := List.pairwise_mergeSort trans total xs.reverse
    simp only [decide_eq_true_eq] at sorted
    exact List.pairwise_reverse.mpr sorted
  · rw [resorted, List.filter_reverse, filter_mergeSort trans total (tied p), List.filter_reverse,
      List.reverse_reverse]

/-- A new registration takes the place that it gets if it is put at the end and all are sorted
anew. -/
theorem Ranks.insert_eq_resorted {asked ranked : List (Registration H)} (h : Ranks asked ranked)
    (new : Registration H) : Hooks.insert new ranked = resorted (ranked ++ [new]) := by
  have own : Ranks ranked ranked := ⟨.refl _, h.descends, fun _ => rfl⟩
  exact (own.insert new).unique (ranks_resorted _)

end NamedTape.Hooks
