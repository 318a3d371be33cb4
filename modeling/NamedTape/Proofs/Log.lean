import NamedTape.Instruction
import NamedTape.Log

/-!
# What steps add to a log

`Adds steps log log'`: the log became `log'` by recording the steps in order. Their number and the
latest of them show in any log, and all of them in a verbose one. What is kept of a frame is touched
by the steps of that frame only.
-/

namespace NamedTape

variable {ι : Type}

/-- What an entry tells of its step: its index, its rule, its place in the text. -/
def Entry.deed (entry : Entry ι) : Int × String × Option Span :=
  (entry.step, entry.rule, entry.span)

namespace Log

/-- What the entries of the steps tell, if `next` is the index of the first of them. -/
def deeds : Int → List Instruction → List (Int × String × Option Span)
  | _, [] => []
  | next, i :: rest => (next, i.rule, some i.span) :: deeds (next + 1) rest

theorem deeds_append (next : Int) (steps steps' : List Instruction) :
    deeds next (steps ++ steps') = deeds next steps ++ deeds (next + steps.length) steps' := by
  induction steps generalizing next with
  | nil => simp [deeds]
  | cons i rest ih =>
    have hn : next + 1 + (rest.length : Int) = next + ((i :: rest).length : Nat) := by
      rw [List.length_cons]
      omega
    rw [List.cons_append, deeds, ih, hn, deeds, List.cons_append]

/-- The latest deed is at the place of the latest step. -/
theorem deeds_getLast? (next : Int) (steps : List Instruction) :
    (deeds next steps).getLast?.map (·.2.2) = steps.getLast?.map (some ·.span) := by
  induction steps generalizing next with
  | nil => rfl
  | cons i rest ih =>
    cases rest with
    | nil => rfl
    | cons j rest =>
      rw [List.getLast?_cons_cons, ← ih (next + 1), deeds, deeds, List.getLast?_cons_cons]

/-- The log has become `log'` by recording the steps. -/
structure Adds (steps : List Instruction) (log log' : Log ι) : Prop where
  verbose : log'.verbose = log.verbose
  next : log'.next = log.next + steps.length
  last : log'.last.map Entry.deed =
    (deeds log.next steps).getLast?.or (log.last.map Entry.deed)
  /-- A verbose log has one more entry for each step, and every other log has none. -/
  entries : ∃ new, log'.entries = log.entries ++ new ∧
    new.map Entry.deed = if log.verbose then deeds log.next steps else []

theorem Adds.refl (log : Log ι) : Adds [] log log :=
  ⟨rfl, by simp, by simp [deeds], [], by simp, by simp [deeds]⟩

theorem Adds.trans {steps steps' : List Instruction} {log log' log'' : Log ι}
    (h : Adds steps log log') (h' : Adds steps' log' log'') :
    Adds (steps ++ steps') log log'' := by
  obtain ⟨new, he, hd⟩ := h.entries
  obtain ⟨new', he', hd'⟩ := h'.entries
  refine ⟨h'.verbose.trans h.verbose, ?_, ?_, new ++ new', ?_, ?_⟩
  · rw [h'.next, h.next, List.length_append]
    omega
  · rw [h'.last, h.last, h.next, deeds_append, List.getLast?_append, Option.or_assoc]
  · rw [he', he, List.append_assoc]
  · rw [List.map_append, hd, hd', h.verbose, h.next, deeds_append]
    cases log.verbose <;> rfl

variable [BEq ι]

theorem Adds.forget (log : Log ι) (frame : ι) : Adds [] log (log.forget frame) := by
  obtain ⟨hv, hn, hl, he⟩ := Adds.refl log
  exact ⟨hv, hn, hl, he⟩

theorem Adds.record (log : Log ι) (frame : Option ι) (i : Instruction) (view : Option String) :
    Adds [i] log (log.record frame i.rule (some i.span) view).2 := by
  refine ⟨rfl, rfl, rfl, ?_⟩
  cases hv : log.verbose with
  | false => exact ⟨[], by simp [Log.entries, Log.record, hv], rfl⟩
  | true =>
    exact ⟨[(log.record frame i.rule (some i.span) view).1],
      by simp [Log.entries, Log.record, hv], rfl⟩

/-! ## The latest step of a frame -/

theorem lastOf_eq_none {log : Log ι} [LawfulBEq ι] {frame : ι} (h : ∀ p ∈ log.recent, p.1 ≠ frame) :
    log.lastOf frame = none := by
  rw [lastOf, Option.map_eq_none_iff, List.find?_eq_none]
  exact fun p hp => mt eq_of_beq (h p hp)

theorem isSome_lastOf {log : Log ι} [LawfulBEq ι] {p : ι × Entry ι} (h : p ∈ log.recent) :
    (log.lastOf p.1).isSome := by
  rw [lastOf, Option.isSome_map, List.find?_isSome]
  exact ⟨p, h, beq_self_eq_true p.1⟩

variable [LawfulBEq ι] (log : Log ι) {frame other : ι}

theorem lastOf_forget (h : other ≠ frame) : (log.forget frame).lastOf other = log.lastOf other := by
  have kept : ∀ p : ι × Entry ι, ((p.1 != frame) = true ∧ (p.1 == other) = true) ↔
      (p.1 == other) = true := fun p =>
    and_iff_right_of_imp fun same => bne_iff_ne.mpr (eq_of_beq same ▸ h)
  simp only [lastOf, forget, List.find?_filter, kept, Bool.decide_eq_true]

variable (rule : String) (span : Option Span) (view : Option String)

theorem lastOf_record_self : (log.record (some frame) rule span view).2.lastOf frame =
    some (log.record (some frame) rule span view).1 := by
  simp only [lastOf, record, List.find?_cons, beq_self_eq_true, Option.map_some]

theorem lastOf_record (h : other ≠ frame) :
    (log.record (some frame) rule span view).2.lastOf other = log.lastOf other := by
  have skipped : (frame == other) = false := beq_eq_false_iff_ne.mpr h.symm
  rw [← log.lastOf_forget h]
  simp only [lastOf, record, List.find?_cons, skipped]

end Log

end NamedTape
