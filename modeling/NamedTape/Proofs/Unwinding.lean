import NamedTape.Proofs.Arrival

/-!
# From the walk to the structure

What a stack of frames still has to do is the rest of its innermost frame, then the further passes
of that frame's loop, and then what is below (`Unwinds`). Each move of a quiet walk takes its part
off the front of that, so that a walk which ends has done all of it (`ends_remains`). The proof is
by induction on the walk, with the first move put back in each step.
-/

namespace NamedTape

namespace Session

open Store (Behavior Outcome Performs Runs Task Then observe)

variable {σ : Type} {verbose preallocated : Bool}

/-- What a stack of frames still has to do: the rest of the innermost frame, the further passes of
its loop, and then what is below. -/
def Unwinds (verbose preallocated : Bool) : List Frame → Behavior σ
  | [] => fun s steps r => steps = [] ∧ r = .ok () s
  | frame :: below =>
    if frame.loop.isSome then
      Then (Runs verbose preallocated (.list frame.rest))
        (Then (Runs verbose preallocated (.passes frame.body)) (Unwinds verbose preallocated below))
    else Runs verbose preallocated (.list frame.rest)

/-- What a walk still has to do. -/
def Remains (verbose preallocated : Bool) (stack : List Frame) : Mode → Behavior σ
  | .finished => fun s steps r => steps = [] ∧ r = .ok () s
  | .walking => Unwinds verbose preallocated stack
  | .waiting span => fun s steps r =>
    (∃ t, Performs preallocated .input s (.ok () t) ∧
      Unwinds verbose preallocated stack t steps r) ∨
    ∃ e t, Performs preallocated .input s (.error e t) ∧ steps = [] ∧ r = .error (e.within span) t

section unwinding

variable {frame : Frame} {below : List Frame} {rest body : List Instruction} {span : Span}
  {s t : Store σ} {steps steps' : List Instruction} {r : Outcome σ}

/-- Steps that can be put in front of what is left of a frame can be put in front of all that
remains. -/
theorem Unwinds.prepend
    (h : ∀ steps' r, Runs verbose preallocated (.list rest) t steps' r →
      Runs verbose preallocated (.list frame.rest) s (steps ++ steps') r)
    (hr : Unwinds verbose preallocated ({ frame with rest } :: below) t steps' r) :
    Unwinds verbose preallocated (frame :: below) s (steps ++ steps') r := by
  unfold Unwinds at hr ⊢
  split at hr
  · rename_i hl
    rw [if_pos hl]
    cases hr with
    | fails hr => exact .fails (h _ _ hr)
    | goes hr hr' =>
      rw [← List.append_assoc]
      exact .goes (h _ _ hr) hr'
  · rename_i hl
    rw [if_neg hl]
    exact h _ _ hr

theorem Unwinds.of_error {e : Raised}
    (h : Runs verbose preallocated (.list frame.rest) s steps (.error e t)) :
    Unwinds verbose preallocated (frame :: below) s steps (.error e t) := by
  unfold Unwinds
  split
  · exact .fails h
  · exact h

/-- The further passes of a loop start with one through its body, if the cell is not zero. -/
theorem then_pass {next : Behavior σ} {n : Nat}
    (hc : Store.cell s = .ok n s) (hn : n ≠ 0)
    (h : Then (Runs verbose preallocated (.list body))
      (Then (Runs verbose preallocated (.passes body)) next) s steps r) :
    Then (Runs verbose preallocated (.passes body)) next s steps r := by
  cases h with
  | fails h => exact .fails (.passFails hc hn h)
  | goes h h' =>
    cases h' with
    | fails h' => exact .fails (.pass hc hn h h')
    | goes h' h'' =>
      rw [← List.append_assoc]
      exact .goes (.pass hc hn h h') h''

theorem unwinds_loop (hl : frame.loop.isSome) :
    Unwinds verbose preallocated (frame :: below) s steps r ↔
      Then (Runs verbose preallocated (.list frame.rest))
        (Then (Runs verbose preallocated (.passes frame.body))
          (Unwinds verbose preallocated below)) s steps r := by
  rw [Unwinds, if_pos hl]

/-- At the end of a pass there are the further ones to make. -/
theorem Unwinds.round (hl : frame.loop.isSome) (hr : frame.rest = [])
    (h : Then (Runs verbose preallocated (.passes frame.body))
      (Unwinds verbose preallocated below) s steps r) :
    Unwinds verbose preallocated (frame :: below) s steps r := by
  rw [unwinds_loop hl, hr, ← List.nil_append steps]
  exact .goes .nil h

theorem Unwinds.leaf {operation : Operation} {view : Option String}
    (hr : frame.rest = .leaf operation span :: rest) (seen : observe verbose s = .ok view s)
    (first : Performs preallocated operation s (.ok () t))
    (next : Unwinds verbose preallocated ({ frame with rest } :: below) t steps r) :
    Unwinds verbose preallocated (frame :: below) s (.leaf operation span :: steps) r := by
  have front : ∀ steps' r, Runs verbose preallocated (.list rest) t steps' r →
      Runs verbose preallocated (.list frame.rest) s ([.leaf operation span] ++ steps') r := by
    intro steps' r run
    rw [hr]
    exact .leaf seen first run
  exact next.prepend front

theorem Unwinds.leafFails {operation : Operation} {view : Option String} {e : Raised}
    (hr : frame.rest = .leaf operation span :: rest) (seen : observe verbose s = .ok view s)
    (first : Performs preallocated operation s (.error e t)) :
    Unwinds verbose preallocated (frame :: below) s [.leaf operation span]
      (.error (e.within span) t) := by
  apply Unwinds.of_error
  rw [hr]
  exact .leafFails seen first

/-- A loop that has been taken has its passes before it, and then the rest of its frame. -/
theorem Unwinds.loop {view : Option String} (hr : frame.rest = .loop body span :: rest)
    (seen : observe verbose s = .ok view s)
    (h : Then (Runs verbose preallocated (.passes body))
      (Unwinds verbose preallocated ({ frame with rest } :: below)) s steps r) :
    Unwinds verbose preallocated (frame :: below) s (.loop body span :: steps) r := by
  cases h with
  | fails h =>
    apply Unwinds.of_error
    rw [hr]
    exact .loopFails seen h
  | @goes _ t steps' steps'' _ h h' =>
    have front : ∀ steps'' r, Runs verbose preallocated (.list rest) t steps'' r →
        Runs verbose preallocated (.list frame.rest) s
          ((.loop body span :: steps') ++ steps'') r := by
      intro steps'' r run
      rw [hr]
      exact .loop seen h run
    exact h'.prepend front

end unwinding

/-- What a move comes to is the start of a walk that ends with `r`. -/
def Starts (verbose preallocated : Bool) (r : EStateM.Result Raised (Session σ) Unit) :
    EStateM.Result Raised (Session σ) Mode → Prop
  | .error e t => r = .error e t
  | .ok mode t => ∃ steps, Remains verbose preallocated t.stack mode t.store steps (outcome r) ∧
    Log.Adds steps t.log (left r).log

section starting

variable {s : Session σ} {r : EStateM.Result Raised (Session σ) Unit}

theorem starts_take (hq : s.Quiet) {frame : Frame} {below : List Frame} {i : Instruction}
    {rest : List Instruction} (hs : s.stack = frame :: below) (hr : frame.rest = i :: rest)
    (h : Starts s.log.verbose s.options.preallocate r (move .walking s)) :
    ∃ steps, Unwinds s.log.verbose s.options.preallocate (frame :: below) s.store steps
      (outcome r) ∧ Log.Adds steps s.log (left r).log := by
  obtain ⟨e, seen⟩ | ⟨view, seen⟩ := (Store.observe_cases s.log.verbose s.store).symm
  · rw [hq.move_unseen hs hr seen] at h
    subst h
    refine ⟨[], ?_, ?_⟩
    · show Unwinds _ _ _ _ _ (.error e (s.setRest rest).store)
      apply Unwinds.of_error
      rw [hr, setRest_store]
      exact .unseen seen
    · show Log.Adds [] s.log (s.setRest rest).log
      rw [setRest_log]
      exact .refl _
  have hadds := adds_took s frame.id i rest view
  have hstack : ((s.setRest rest).noted frame.id i view).stack = { frame with rest } :: below :=
    setRest_stack hs rest
  cases i with
  | leaf operation span =>
    rw [hq.move_leaf hs hr seen] at h
    cases hp : Store.perform s.options.preallocate operation s.store with
    | error e t =>
      rw [hp] at h
      subst h
      exact ⟨_, Unwinds.leafFails hr seen (.fails hp), hadds⟩
    | ok progress t =>
      rw [hp] at h
      cases progress with
      | done =>
        obtain ⟨steps, hrem, hadd⟩ := h
        rw [withStore_stack, hstack] at hrem
        exact ⟨_, Unwinds.leaf hr seen (.done hp) hrem, hadds.trans hadd⟩
      | waiting =>
        obtain ⟨steps, hrem, hadd⟩ := h
        cases perform_waiting hp
        rw [withStore_stack, hstack] at hrem
        rcases hrem with ⟨u, hin, hrem⟩ | ⟨e, u, hin, rfl, hout⟩
        · exact ⟨_, Unwinds.leaf hr seen (.again hp hin) hrem, hadds.trans hadd⟩
        · rw [hout]
          exact ⟨_, Unwinds.leafFails hr seen (.again hp hin), hadds.trans hadd⟩
  | loop body span =>
    rw [hq.move_loop hs hr seen] at h
    cases hc : Store.cell s.store with
    | error e t =>
      cases Store.cell_error hc
      rw [hc] at h
      subst h
      refine ⟨_, Unwinds.loop hr seen (.fails (.wild ?_)), hadds⟩
      simpa using hc
    | ok n t =>
      cases Store.cell_ok hc
      rw [hc] at h
      cases n with
      | zero =>
        obtain ⟨steps, hrem, hadd⟩ := h
        rw [hstack, noted_store, setRest_store] at hrem
        exact ⟨_, Unwinds.loop hr seen (.goes (.leaves hc) hrem), hadds.trans hadd⟩
      | succ n =>
        obtain ⟨steps, hrem, hadd⟩ := h
        rw [push_store, noted_store, setRest_store] at hrem
        have hpush : (((s.setRest rest).noted frame.id (.loop body span) view).push (some span)
            body).stack = { loopFrame s span body with rest := body } :: { frame with rest } ::
              below := by
          simp [push, noted, setRest, hs, loopFrame]
        rw [hpush] at hrem
        have hthen := then_pass hc n.succ_ne_zero ((unwinds_loop rfl).1 hrem)
        exact ⟨_, Unwinds.loop hr seen hthen, hadds.trans hadd⟩

theorem starts_round (hq : s.Quiet) {frame : Frame} {below : List Frame}
    (hs : s.stack = frame :: below) (hr : frame.rest = [])
    (h : Starts s.log.verbose s.options.preallocate r (move .walking s)) :
    ∃ steps, Unwinds s.log.verbose s.options.preallocate (frame :: below) s.store steps
      (outcome r) ∧ Log.Adds steps s.log (left r).log := by
  cases hl : frame.loop with
  | none =>
    rw [move_nil hs hr, hl] at h
    obtain ⟨steps, ⟨rfl, hout⟩, hadd⟩ := h
    refine ⟨[], ?_, hadd⟩
    rw [Unwinds, hl, hout, hr]
    exact .nil
  | some span =>
    have hsome : frame.loop.isSome := by rw [hl]; rfl
    rw [hq.move_round hs hr hl] at h
    cases hc : Store.cell s.store with
    | error e t =>
      cases Store.cell_error hc
      rw [hc] at h
      subst h
      exact ⟨_, .round hsome hr (.fails (.wild hc)), .refl _⟩
    | ok n t =>
      cases Store.cell_ok hc
      rw [hc] at h
      cases n with
      | zero =>
        obtain ⟨steps, hrem, hadd⟩ := h
        rw [pop_stack hs, pop_store] at hrem
        rw [pop_log hs] at hadd
        exact ⟨_, .round hsome hr (.goes (.leaves hc) hrem), (Log.Adds.forget _ _).trans hadd⟩
      | succ n =>
        -- What is left is one more pass: the same frame with its body put back.
        obtain ⟨steps, hrem, hadd⟩ := h
        rw [setRest_stack hs, setRest_store] at hrem
        rw [setRest_log] at hadd
        have hloop : ({ frame with rest := frame.body } : Frame).loop.isSome := hsome
        have hthen := then_pass hc n.succ_ne_zero ((unwinds_loop hloop).1 hrem)
        exact ⟨_, .round hsome hr hthen, hadd⟩

theorem starts_waiting (hq : s.Quiet) (span : Span)
    (h : Starts s.log.verbose s.options.preallocate r (move (.waiting span) s)) :
    ∃ steps, Remains s.log.verbose s.options.preallocate s.stack (.waiting span) s.store steps
      (outcome r) ∧ Log.Adds steps s.log (left r).log := by
  rw [hq.move_waiting s.options.preallocate span] at h
  cases hp : Store.perform s.options.preallocate .input s.store with
  | error e t =>
    rw [hp] at h
    subst h
    exact ⟨[], .inr ⟨e, t, .fails hp, rfl, rfl⟩, .refl _⟩
  | ok progress t =>
    rw [hp] at h
    cases progress with
    | done =>
      obtain ⟨steps, hrem, hadd⟩ := h
      exact ⟨steps, .inl ⟨t, .done hp, hrem⟩, hadd⟩
    | waiting =>
      obtain ⟨steps, hrem, hadd⟩ := h
      rcases hrem with ⟨u, hin, hrem⟩ | ⟨e, u, hin, hsteps, hout⟩
      · exact ⟨steps, .inl ⟨u, .again hp hin, hrem⟩, hadd⟩
      · exact ⟨steps, .inr ⟨e, u, .again hp hin, hsteps, hout⟩, hadd⟩

/-- What is left to a walk shows in its first move. -/
theorem starts_remains (hq : s.Quiet) {mode : Mode}
    (h : Starts s.log.verbose s.options.preallocate r (move mode s)) :
    ∃ steps, Remains s.log.verbose s.options.preallocate s.stack mode s.store steps (outcome r) ∧
      Log.Adds steps s.log (left r).log := by
  cases mode with
  | finished => exact h
  | waiting span => exact starts_waiting hq span h
  | walking =>
    cases hs : s.stack with
    | nil =>
      simp only [move, Action.get_bind, hs] at h
      exact h
    | cons frame below =>
      cases hr : frame.rest with
      | nil => exact starts_round hq hs hr h
      | cons i rest => exact starts_take hq hs hr h

/-- What a walk that ends had still to do, it has done. -/
theorem ends_remains {mode : Mode} (h : Ends mode s r) (hq : s.Quiet) :
    ∃ steps, Remains s.log.verbose s.options.preallocate s.stack mode s.store steps (outcome r) ∧
      Log.Adds steps s.log (left r).log := by
  induction h with
  | finished s => exact ⟨[], ⟨rfl, rfl⟩, .refl _⟩
  | stops h =>
    refine starts_remains hq ?_
    rw [h]
    exact rfl
  | @moves mode mode' s t r h rest ih =>
    have same := (move_keeps s mode).ok (SameSettings.refl s) h
    have after := ih ⟨same.hooks.trans hq.hooks, same.cancel.trans hq.cancel⟩
    rw [same.verbose, same.options] at after
    refine starts_remains hq ?_
    rw [h]
    exact after

end starting

end Session

end NamedTape
