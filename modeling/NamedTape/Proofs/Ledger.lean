import Mathlib.Data.List.Perm.Subperm
import NamedTape.Proofs.Log

/-!
# What a log keeps of its entries

A log records one entry after another (`Records`), and beside the count and, if it is verbose, all
of them, it keeps the latest entry of each frame until the frame is forgotten. Let a run have begun
when all frames had numbers below `origin`: while it forgets the frames it is done with, the log
keeps exactly the latest entries of those it still has, and what it kept before the run (`Ledger`).
-/

namespace NamedTape

/-- The entries of the steps that the frame has taken. -/
def entriesOf (frame : Nat) (entries : List (Entry Nat)) : List (Entry Nat) :=
  entries.filter (·.frame == some frame)

section entriesOf

variable {frame : Nat} {entries : List (Entry Nat)} {entry : Entry Nat}

theorem mem_entriesOf : entry ∈ entriesOf frame entries ↔
    entry ∈ entries ∧ entry.frame = some frame := by
  simp only [entriesOf, List.mem_filter, beq_iff_eq]

theorem entriesOf_append_own (h : entry.frame = some frame) :
    entriesOf frame (entries ++ [entry]) = entriesOf frame entries ++ [entry] := by
  simp only [entriesOf, List.filter_append, List.filter_cons, h, beq_self_eq_true, if_true,
    List.filter_nil]

theorem entriesOf_append_other (h : entry.frame ≠ some frame) :
    entriesOf frame (entries ++ [entry]) = entriesOf frame entries := by
  simp only [entriesOf, List.filter_append, List.filter_cons, beq_iff_eq, h, if_false,
    List.filter_nil, List.append_nil]

end entriesOf

namespace Log

/-- The entry that the second log has and the first has not, if it has recorded one step more. -/
def news (log log' : Log Nat) : List (Entry Nat) :=
  if log'.next = log.next then [] else log'.last.toList

section news

variable (log : Log Nat) (frame : Nat)

theorem news_self : log.news log = [] := by
  simp only [news, if_true]

theorem news_forget : log.news (log.forget frame) = [] := log.news_self

theorem news_record (rule : String) (span : Option Span) (view : Option String) :
    log.news (log.record (some frame) rule span view).2 =
      [(log.record (some frame) rule span view).1] := by
  have counted : (log.record (some frame) rule span view).2.next ≠ log.next := by
    simp only [record]
    omega
  simp only [news, counted, if_false]
  rfl

end news

/-- Since it was new the log has recorded just these entries, of frames with numbers below the
bound. -/
structure Records (entries : List (Entry Nat)) (bound : Nat) (log : Log Nat) : Prop where
  next : log.next = entries.length
  /-- Steps are numbered in turn. -/
  steps : ∀ (k : Nat) (e : Entry Nat), entries[k]? = some e → e.step = k
  verbose : log.verbose = true → log.entries = entries
  numbers : ∀ e ∈ entries, ∃ frame < bound, e.frame = some frame
  known : ∀ p ∈ log.recent, p.1 < bound
  /-- One entry is kept of a frame. -/
  distinct : (log.recent.map (·.1)).Nodup

section records

variable {entries : List (Entry Nat)} {bound bound' frame : Nat} {log : Log Nat}

theorem records_new (bound : Nat) (verbose : Bool) : Records [] bound { verbose } where
  next := rfl
  steps k e h := by cases h
  verbose _ := rfl
  numbers := List.forall_mem_nil _
  known := List.forall_mem_nil _
  distinct := List.nodup_nil

theorem Records.mono (h : Records entries bound log) (hle : bound ≤ bound') :
    Records entries bound' log where
  next := h.next
  steps := h.steps
  verbose := h.verbose
  numbers e he :=
    let ⟨frame, number, own⟩ := h.numbers e he
    ⟨frame, Nat.lt_of_lt_of_le number hle, own⟩
  known p hp := Nat.lt_of_lt_of_le (h.known p hp) hle
  distinct := h.distinct

theorem distinct_forget (h : (log.recent.map (·.1)).Nodup) (frame : Nat) :
    ((log.forget frame).recent.map (·.1)).Nodup :=
  h.sublist (List.filter_sublist.map _)

theorem Records.forget (h : Records entries bound log) (frame : Nat) :
    Records entries bound (log.forget frame) where
  next := h.next
  steps := h.steps
  verbose := h.verbose
  numbers := h.numbers
  known p hp := h.known p (List.mem_filter.mp hp).1
  distinct := distinct_forget h.distinct frame

theorem Records.record (h : Records entries bound log) (number : frame < bound) (rule : String)
    (span : Option Span) (view : Option String) :
    Records (entries ++ [(log.record (some frame) rule span view).1]) bound
      (log.record (some frame) rule span view).2 where
  next := by
    rw [List.length_append, List.length_singleton, Int.natCast_add, ← h.next]
    rfl
  steps k e he := by
    by_cases hk : k < entries.length
    · rw [List.getElem?_append_left hk] at he
      exact h.steps k e he
    · rw [List.getElem?_append_right (Nat.le_of_not_lt hk), List.getElem?_singleton] at he
      split at he
      · have whole : k = entries.length := by omega
        cases he
        rw [whole]
        exact h.next
      · cases he
  verbose hv := by
    have old := h.verbose hv
    have verbose : log.verbose = true := hv
    rw [← old]
    simp only [Log.entries, Log.record, verbose, if_true, List.reverse_cons]
  numbers e he := by
    rcases List.mem_append.mp he with old | new
    · exact h.numbers e old
    · cases List.mem_singleton.mp new
      exact ⟨frame, number, rfl⟩
  known := by
    refine List.forall_mem_cons.mpr ⟨number, fun p hp => ?_⟩
    exact h.known p (List.mem_filter.mp hp).1
  distinct := by
    refine List.nodup_cons.mpr ⟨fun mem => ?_, distinct_forget h.distinct frame⟩
    obtain ⟨p, hp, same⟩ := List.mem_map.mp mem
    exact (bne_iff_ne.mp (List.mem_filter.mp hp).2) same

theorem Records.step_lt (h : Records entries bound log) {e : Entry Nat} (he : e ∈ entries) :
    e.step < log.next := by
  obtain ⟨k, hk, rfl⟩ := List.mem_iff_getElem.mp he
  rw [h.steps k _ (List.getElem?_eq_getElem hk), h.next]
  exact Int.ofNat_lt.mpr hk

/-- A frame with a new number has taken no step. -/
theorem Records.fresh (h : Records entries bound log) :
    entriesOf bound entries = [] ∧ log.lastOf bound = none := by
  refine ⟨List.filter_eq_nil_iff.mpr fun e he own => ?_,
    lastOf_eq_none fun p hp => Nat.ne_of_lt (h.known p hp)⟩
  obtain ⟨frame, number, own'⟩ := h.numbers e he
  rw [own', beq_iff_eq, Option.some.injEq] at own
  omega

end records

end Log

/-- A run has begun when the log kept `before`, and all frames had numbers below `origin`. The log
has recorded the entries, and of the frames that the run has had it still keeps the latest entries
of those in `ids`, the innermost first. -/
structure Ledger (origin : Nat) (before : List (Nat × Entry Nat)) (entries : List (Entry Nat))
    (bound : Nat) (ids : List Nat) (log : Log Nat) : Prop extends log.Records entries bound where
  numbered : ∀ id ∈ ids, origin ≤ id ∧ id < bound
  descending : ids.Pairwise (· > ·)
  kept : ∀ id ∈ ids, log.lastOf id = (entriesOf id entries).getLast?
  forgotten : ∀ p ∈ log.recent, origin ≤ p.1 → p.1 ∈ ids
  earlier : log.recent.filter (·.1 < origin) = before

namespace Ledger

variable {origin bound id : Nat} {before : List (Nat × Entry Nat)} {entries : List (Entry Nat)}
  {ids : List Nat} {log : Log Nat}

/-- What is kept of earlier frames does not change with what is kept of later ones. -/
theorem filter_forget (log : Log Nat) (h : origin ≤ id) :
    (log.forget id).recent.filter (·.1 < origin) = log.recent.filter (·.1 < origin) := by
  rw [Log.forget, List.filter_filter]
  refine List.filter_congr fun p _ => ?_
  by_cases hp : p.1 < origin
  · have other : p.1 ≠ id := by omega
    simp only [hp, bne_iff_ne.mpr other, decide_true, Bool.and_self]
  · simp only [hp, decide_false, Bool.false_and]

/-- A run begins with a frame that has a new number. -/
theorem begin (h : log.Records entries origin) :
    Ledger origin log.recent entries (origin + 1) [origin] log where
  toRecords := h.mono (Nat.le_succ origin)
  numbered id hid := by
    cases List.mem_singleton.mp hid
    omega
  descending := List.pairwise_singleton _ _
  kept id hid := by
    cases List.mem_singleton.mp hid
    rw [h.fresh.1, h.fresh.2, List.getLast?_nil]
  forgotten p hp later := absurd (h.known p hp) (Nat.not_lt_of_le later)
  earlier := List.filter_eq_self.mpr fun p hp => decide_eq_true (h.known p hp)

/-- A new frame is entered. -/
theorem push (h : Ledger origin before entries bound ids log) (started : origin ≤ bound) :
    Ledger origin before entries (bound + 1) (bound :: ids) log where
  toRecords := h.toRecords.mono (Nat.le_succ bound)
  numbered := by
    refine List.forall_mem_cons.mpr ⟨⟨started, Nat.lt_succ_self bound⟩, fun id hid => ?_⟩
    have := h.numbered id hid
    omega
  descending := List.pairwise_cons.mpr ⟨fun id hid => (h.numbered id hid).2, h.descending⟩
  kept := by
    refine List.forall_mem_cons.mpr ⟨?_, h.kept⟩
    rw [h.fresh.1, h.fresh.2, List.getLast?_nil]
  forgotten p hp later := List.mem_cons_of_mem _ (h.forgotten p hp later)
  earlier := h.earlier

/-- The innermost frame takes a step. -/
theorem record (h : Ledger origin before entries bound (id :: ids) log) (rule : String)
    (span : Option Span) (view : Option String) :
    Ledger origin before (entries ++ [(log.record (some id) rule span view).1]) bound (id :: ids)
      (log.record (some id) rule span view).2 where
  toRecords := h.toRecords.record (h.numbered id List.mem_cons_self).2 rule span view
  numbered := h.numbered
  descending := h.descending
  kept other hother := by
    by_cases same : other = id
    · subst same
      rw [log.lastOf_record_self, entriesOf_append_own rfl, List.getLast?_concat]
    · rw [log.lastOf_record _ _ _ same, h.kept other hother, entriesOf_append_other]
      exact fun own => same (Option.some.inj own).symm
  forgotten := by
    refine List.forall_mem_cons.mpr ⟨fun _ => List.mem_cons_self, fun p hp later => ?_⟩
    exact h.forgotten p (List.mem_filter.mp hp).1 later
  earlier := by
    have started := (h.numbered id List.mem_cons_self).1
    have skipped : ¬ id < origin := Nat.not_lt_of_le started
    rw [← h.earlier, ← filter_forget log started]
    simp only [Log.record, List.filter_cons, skipped, decide_false, Bool.false_eq_true, if_false]

/-- The innermost frame is left. -/
theorem forget (h : Ledger origin before entries bound (id :: ids) log) :
    Ledger origin before entries bound ids (log.forget id) where
  toRecords := h.toRecords.forget id
  numbered other hother := h.numbered other (List.mem_cons_of_mem _ hother)
  descending := h.descending.of_cons
  kept other hother := by
    have lower := List.rel_of_pairwise_cons h.descending hother
    rw [log.lastOf_forget (Nat.ne_of_lt lower), h.kept other (List.mem_cons_of_mem _ hother)]
  forgotten p hp later := by
    obtain ⟨old, other⟩ := List.mem_filter.mp hp
    exact (List.mem_cons.mp (h.forgotten p old later)).resolve_left (bne_iff_ne.mp other)
  earlier := (filter_forget log (h.numbered id List.mem_cons_self).1).trans h.earlier

/-- Of the frames that the run has had, those have an entry that it still has and that have taken a
step. -/
theorem isSome_lastOf_iff (h : Ledger origin before entries bound ids log) (later : origin ≤ id) :
    (log.lastOf id).isSome ↔ id ∈ ids ∧ entriesOf id entries ≠ [] := by
  by_cases hid : id ∈ ids
  · rw [h.kept id hid, List.getLast?_isSome]
    exact (and_iff_right hid).symm
  · have gone : log.lastOf id = none :=
      Log.lastOf_eq_none fun p hp same => hid (same ▸ h.forgotten p hp (same ▸ later))
    rw [gone]
    exact iff_of_false nofun fun both => hid both.1

/-- If the frames that the run still has have no entry, the log keeps what it kept before. -/
theorem recent_eq_before (h : Ledger origin before entries bound ids log)
    (none : ∀ id ∈ ids, log.lastOf id = none) : log.recent = before := by
  rw [← h.earlier, eq_comm, List.filter_eq_self]
  refine fun p hp => decide_eq_true (Nat.lt_of_not_le fun later => ?_)
  have some := Log.isSome_lastOf hp
  rw [none p.1 (h.forgotten p hp later)] at some
  cases some

/-- If one of the frames that the run still has has an entry, the log keeps more than before. -/
theorem length_lt (h : Ledger origin before entries bound ids log) (later : origin ≤ id)
    (kept : (log.lastOf id).isSome) : before.length < log.recent.length := by
  rw [← h.earlier, List.length_filter_lt_length_iff_exists]
  unfold Log.lastOf at kept
  rw [Option.isSome_map, List.find?_isSome] at kept
  obtain ⟨p, hp, same⟩ := kept
  refine ⟨p, hp, fun old => ?_⟩
  have old := of_decide_eq_true old
  have same := eq_of_beq same
  omega

/-- The log keeps no more entries for the run than the run has frames. -/
theorem length_le (h : Ledger origin before entries bound ids log) :
    log.recent.length ≤ ids.length + before.length := by
  have distinct : ((log.recent.filter (origin ≤ ·.1)).map (·.1)).Nodup :=
    h.distinct.sublist (List.filter_sublist.map _)
  have own : (log.recent.filter (origin ≤ ·.1)).length ≤ ids.length := by
    rw [← List.length_map (·.1)]
    refine (distinct.subperm fun id hid => ?_).length_le
    obtain ⟨p, hp, rfl⟩ := List.mem_map.mp hid
    obtain ⟨mem, later⟩ := List.mem_filter.mp hp
    exact h.forgotten p mem (of_decide_eq_true later)
  have rest : log.recent.filter (fun p => !decide (origin ≤ p.1)) = before := by
    rw [← h.earlier]
    refine List.filter_congr fun p _ => ?_
    simp only [← decide_not, Nat.not_le]
  have parts := List.length_eq_length_filter_add (l := log.recent) fun p => decide (origin ≤ p.1)
  rw [rest] at parts
  omega

end Ledger

end NamedTape
