import NamedTape.Proofs.Advances
import NamedTape.Proofs.Nesting

/-!
# The stack and the log in step

Between two moves of a run the stack and the log agree on which frame has come from which, and which
has taken which step last (`InStep`); every move keeps it so, whatever hooks, devices and cancel
callbacks do (`InStep.advance`). A move that fails still leaves a log that has recorded all steps,
and that keeps the entries of just those frames that are on the stack (`InStep.balk`).
-/

namespace NamedTape

namespace Session

variable {σ : Type} {s t u : Session σ} {program : Program} {origin : Nat}
  {before : List (Nat × Entry Nat)} {entries : List (Entry Nat)} {frame : Frame}
  {below : List Frame} {i : Instruction} {rest : List Instruction} {mode : Mode}

/-- The frames of the session and its log, in a run that has begun with the number `origin`. -/
def Booked (origin : Nat) (before : List (Nat × Entry Nat)) (entries : List (Entry Nat))
    (s : Session σ) : Prop :=
  Ledger origin before entries s.nextFrame (s.stack.map (·.id)) s.log

/-- The stack and the log of the session are in step, in a run of the program that has begun with
the number `origin`. The entries are all that have been recorded, `before` is what was kept at the
start of the run. -/
structure InStep (program : Program) (origin : Nat) (before : List (Nat × Entry Nat))
    (entries : List (Entry Nat)) (s : Session σ) : Prop where
  ledger : s.Booked origin before entries
  nesting : Nesting program.instructions origin entries s.stack
  stands : ∀ frame ∈ s.stack.head?, frame.Stands entries

/-- The entry that is recorded on the way from the first session to the second, if there is one. -/
def news (s t : Session σ) : List (Entry Nat) := s.log.news t.log

theorem Booked.unmoved (h : s.Booked origin before entries) (same : Unmoved s t) :
    t.Booked origin before entries := by
  unfold Booked
  rwa [same.stack, same.log, same.nextFrame]

theorem InStep.unmoved (h : s.InStep program origin before entries) (same : Unmoved s t) :
    t.InStep program origin before entries := by
  obtain ⟨ledger, nesting, stands⟩ := h
  exact ⟨ledger.unmoved same, same.stack ▸ nesting, same.stack ▸ stands⟩

theorem Unmoved.news (same : Unmoved t u) : s.news u = s.news t := by
  rw [Session.news, same.log, Session.news]

theorem Unmoved.no_news (same : Unmoved s t) : s.news t = [] := by
  rw [same.news]
  exact s.log.news_self

/-! ## Steps -/

section steps

variable (h : s.InStep program origin before entries) (stack : s.stack = frame :: below)
include h stack

theorem InStep.top : frame.Stands entries := h.stands frame (by simp [stack])

/-- The innermost frame takes an instruction. -/
theorem InStep.took (upcoming : frame.rest = i :: rest) (view : Option String) :
    (s.took frame.id i rest view).InStep program origin before
      (entries ++ s.news (s.took frame.id i rest view)) := by
  have top : Frame.Stands (entries ++ [(s.log.record (some frame.id) i.rule (some i.span) view).1])
      { frame with rest } := (h.top stack).step upcoming rfl rfl rfl
  have latest : ∀ e ∈ entries, e.step < s.log.next := fun e he => h.ledger.step_lt he
  obtain ⟨ledger, nesting, -⟩ := h
  unfold Booked at ledger
  rw [stack] at ledger nesting
  have others : ∀ outer ∈ below, outer.id ≠ frame.id := fun outer houter =>
    Nat.ne_of_lt (List.rel_of_pairwise_cons ledger.descending (List.mem_map_of_mem houter))
  rw [Session.took, setRest_eq stack, Session.news, noted, Log.news_record]
  refine ⟨ledger.record _ _ _, (nesting.resume rest).step rfl others latest, fun top' htop => ?_⟩
  cases Option.mem_some_iff.mp htop
  exact top

/-- The innermost frame takes a loop, whose body gets a frame of its own. -/
theorem InStep.entered {body : List Instruction} {span : Span}
    (upcoming : frame.rest = .loop body span :: rest) (view : Option String) :
    ((s.took frame.id (.loop body span) rest view).push (some span) body).InStep program origin
      before (entries ++ s.news (s.took frame.id (.loop body span) rest view)) := by
  have top := h.top stack
  obtain ⟨ledger, nesting, -⟩ := h.took stack upcoming view
  unfold Booked at ledger
  have started : origin ≤ s.nextFrame := by
    have numbered := ledger.numbered frame.id (by simp [Session.took, setRest_eq stack])
    rw [Session.took, setRest_eq stack] at numbered
    exact Nat.le_of_lt (Nat.lt_of_le_of_lt numbered.1 numbered.2)
  rw [Session.took, setRest_eq stack, Session.news, noted, Log.news_record] at ledger nesting ⊢
  have fresh := ledger.fresh.1
  refine ⟨ledger.push started, .inner (top.nested upcoming rfl rfl rfl fresh) nesting,
    fun top' htop => ?_⟩
  cases Option.mem_some_iff.mp htop
  exact Frame.stands_start _ _ _ fresh

theorem InStep.taken (upcoming : frame.rest = i :: rest)
    (ht : Taken frame.id i (s.setRest rest) t) :
    t.InStep program origin before (entries ++ s.news t) := by
  rcases ht with ⟨view, same⟩ | ⟨body, span, view, rfl, same⟩
  · rw [same.news]
    exact (h.took stack upcoming view).unmoved same
  · rw [same.news]
    exact (h.entered stack upcoming view).unmoved same

theorem InStep.repeats (spent : frame.rest = []) :
    (s.setRest frame.body).InStep program origin before entries := by
  have top := (h.top stack).again spent
  obtain ⟨ledger, nesting, -⟩ := h
  unfold Booked at ledger
  rw [stack] at ledger nesting
  rw [setRest_eq stack]
  refine ⟨ledger, nesting.resume frame.body, fun top' htop => ?_⟩
  cases Option.mem_some_iff.mp htop
  exact top

theorem InStep.leaves (loop : frame.loop.isSome) : s.pop.InStep program origin before entries := by
  obtain ⟨ledger, nesting, -⟩ := h
  unfold Booked at ledger
  rw [stack] at ledger nesting
  obtain ⟨nesting, stands⟩ := nesting.leave loop
  rw [pop_eq stack]
  exact ⟨ledger.forget, nesting, stands⟩

end steps

theorem news_setRest (s : Session σ) (rest : List Instruction) : s.news (s.setRest rest) = [] := by
  rw [news, setRest_log]
  exact s.log.news_self

theorem news_pop (s : Session σ) : s.news s.pop = [] := by
  unfold news pop
  split
  · exact s.log.news_self
  · exact s.log.news_forget _

/-- **Moves keep the stack and the log in step.** -/
theorem InStep.advance (h : s.InStep program origin before entries) (ha : Advances s mode t) :
    t.InStep program origin before (entries ++ s.news t) := by
  cases ha with
  | ends _ =>
    rw [(Unmoved.refl s).no_news, List.append_nil]
    exact h
  | stays _ same =>
    rw [same.no_news, List.append_nil]
    exact h.unmoved same
  | takes _ stack upcoming taken => exact h.taken stack upcoming taken
  | repeats stack spent same =>
    rw [same.news, news_setRest, List.append_nil]
    exact (h.repeats stack spent).unmoved same
  | leaves stack loop same =>
    rw [same.news, news_pop, List.append_nil]
    exact (h.leaves stack loop).unmoved same

/-- A move that fails leaves the log in order. -/
theorem InStep.balk (h : s.InStep program origin before entries) (hb : Balks s t) :
    t.Booked origin before (entries ++ s.news t) := by
  cases hb with
  | stays same =>
    rw [same.no_news, List.append_nil]
    exact h.ledger.unmoved same
  | takes stack upcoming taken => exact (h.taken stack upcoming taken).ledger
  | @readies frame below i rest stack upcoming same =>
    rw [same.news, news_setRest, List.append_nil]
    refine Booked.unmoved (s := s.setRest rest) ?_ same
    have ledger := h.ledger
    unfold Booked at ledger ⊢
    rw [stack] at ledger
    rw [setRest_eq stack]
    exact ledger

/-- When the walk ends, the frame of the program is alone on the stack. -/
theorem InStep.alone (h : s.InStep program origin before entries) (ha : Advances s .finished t) :
    ∃ frame, t.stack = [frame] := by
  have nesting := h.nesting
  cases ha with
  | ends last =>
    cases stack : s.stack with
    | nil =>
      rw [stack] at nesting
      cases nesting
    | cons frame below =>
      rw [stack] at nesting
      exact ⟨frame, by rw [nesting.alone (last frame (by simp [stack]))]⟩
  | stays going _ => exact absurd rfl going
  | takes going _ _ _ => exact absurd rfl going

/-! ## Numbers of frames -/

/-- A frame of the second session whose number had been given before is one that the first session
has, but for what is left of its body. -/
structure Inherits (s t : Session σ) : Prop where
  numbers : s.nextFrame ≤ t.nextFrame
  frames : ∀ frame ∈ t.stack, frame.id < s.nextFrame →
    ∃ old ∈ s.stack, old.id = frame.id ∧ old.loop = frame.loop ∧ old.body = frame.body

theorem Inherits.refl (s : Session σ) : Inherits s s where
  numbers := Nat.le_refl _
  frames frame hframe _ := ⟨frame, hframe, rfl, rfl, rfl⟩

theorem Inherits.trans (h : Inherits s t) (h' : Inherits t u) : Inherits s u where
  numbers := Nat.le_trans h.numbers h'.numbers
  frames frame hframe number := by
    obtain ⟨mid, hmid, id, loop, body⟩ :=
      h'.frames frame hframe (Nat.lt_of_lt_of_le number h.numbers)
    obtain ⟨old, hold, id', loop', body'⟩ := h.frames mid hmid (id ▸ number)
    exact ⟨old, hold, id'.trans id, loop'.trans loop, body'.trans body⟩

theorem Inherits.unmoved (h : Inherits s t) (same : Unmoved t u) : Inherits s u := by
  obtain ⟨numbers, frames⟩ := h
  exact ⟨same.nextFrame ▸ numbers, same.stack ▸ frames⟩

theorem inherits_setRest (s : Session σ) (rest : List Instruction) :
    Inherits s (s.setRest rest) := by
  cases stack : s.stack with
  | nil =>
    simp only [setRest, stack]
    exact .refl s
  | cons top below =>
    rw [setRest_eq stack]
    refine ⟨Nat.le_refl _, List.forall_mem_cons.mpr ⟨fun _ => ?_, fun frame hframe _ => ?_⟩⟩
    · exact ⟨top, by simp [stack], rfl, rfl, rfl⟩
    · exact ⟨frame, by simp [stack, hframe], rfl, rfl, rfl⟩

theorem inherits_pop (s : Session σ) : Inherits s s.pop := by
  cases stack : s.stack with
  | nil =>
    simp only [pop, stack]
    exact .refl s
  | cons top below =>
    rw [pop_eq stack]
    exact ⟨Nat.le_refl _, fun frame hframe _ => ⟨frame, by simp [stack, hframe], rfl, rfl, rfl⟩⟩

theorem inherits_push (s : Session σ) (loop : Option Span) (body : List Instruction) :
    Inherits s (s.push loop body) where
  numbers := Nat.le_succ _
  frames := by
    refine List.forall_mem_cons.mpr ⟨fun number => absurd number (Nat.lt_irrefl _), ?_⟩
    exact fun frame hframe _ => ⟨frame, hframe, rfl, rfl, rfl⟩

theorem inherits_taken {number : Nat} (h : Taken number i (s.setRest rest) t) : Inherits s t := by
  have begun := inherits_setRest s rest
  rcases h with ⟨view, same⟩ | ⟨body, span, view, -, same⟩
  · have noted : Inherits s ((s.setRest rest).noted number i view) := ⟨begun.numbers, begun.frames⟩
    exact noted.unmoved same
  · have noted : Inherits s ((s.setRest rest).noted number i view) := ⟨begun.numbers, begun.frames⟩
    exact (noted.trans (inherits_push _ _ _)).unmoved same

/-- **Moves do not use a number again.** -/
theorem Advances.inherits (h : Advances s mode t) : Inherits s t := by
  cases h with
  | ends _ => exact .refl s
  | stays _ same => exact (Inherits.refl s).unmoved same
  | takes _ _ _ taken => exact inherits_taken taken
  | repeats _ _ same => exact (inherits_setRest s _).unmoved same
  | leaves _ _ same => exact (inherits_pop s).unmoved same

theorem Balks.inherits (h : Balks s t) : Inherits s t := by
  cases h with
  | stays same => exact (Inherits.refl s).unmoved same
  | readies _ _ same => exact (inherits_setRest s _).unmoved same
  | takes _ _ taken => exact inherits_taken taken

end Session

end NamedTape
