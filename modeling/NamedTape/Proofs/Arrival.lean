import NamedTape.Proofs.Ends
import NamedTape.Proofs.Log

/-!
# From the structure to the walk

A task that runs takes a quiet walk from the frame that holds the task to the end of that frame, or
to the failure of the run, and the log gets the steps of the run (`runs_arrives`). The proof is by
induction on the run. A loop that is entered is compared with the same loop at the end of a pass,
since both go on with the body from its start.
-/

namespace NamedTape

namespace Session

open Store (Outcome Performs Runs Task observe)

variable {σ : Type} {verbose preallocated : Bool}

/-- The walk leads from one session to another and records the steps. -/
structure Leads (s : Session σ) (steps : List Instruction) (t : Session σ) : Prop where
  quiet : t.Quiet
  options : t.options = s.options
  adds : Log.Adds steps s.log t.log
  ends : ∀ r, Ends .walking t r → Ends .walking s r

/-- The walk records the steps and comes to the stack with the store of the outcome, or fails. -/
def Arrives (s : Session σ) (steps : List Instruction) (stack : List Frame) : Outcome σ → Prop
  | .ok _ store => ∃ t, Leads s steps t ∧ t.stack = stack ∧ t.store = store
  | .error e store =>
    ∃ t, Ends .walking s (.error e t) ∧ Log.Adds steps s.log t.log ∧ t.store = store

theorem Leads.refl {s : Session σ} (h : s.Quiet) : Leads s [] s :=
  ⟨h, rfl, .refl _, fun _ hr => hr⟩

theorem Leads.trans {s t u : Session σ} {steps steps' : List Instruction}
    (h : Leads s steps t) (h' : Leads t steps' u) : Leads s (steps ++ steps') u :=
  ⟨h'.quiet, h'.options.trans h.options, h.adds.trans h'.adds, fun r hr => h.ends r (h'.ends r hr)⟩

theorem Leads.arrives {s t : Session σ} {steps steps' : List Instruction} {stack : List Frame}
    {r : Outcome σ} (h : Leads s steps t) (h' : Arrives t steps' stack r) :
    Arrives s (steps ++ steps') stack r := by
  cases r with
  | ok a store =>
    obtain ⟨u, hu, hstack, hstore⟩ := h'
    exact ⟨u, h.trans hu, hstack, hstore⟩
  | error e store =>
    obtain ⟨u, hu, hadds, hstore⟩ := h'
    exact ⟨u, h.ends _ hu, h.adds.trans hadds, hstore⟩

/-- The walk goes on from `u` with the store of the outcome, or fails at the span. -/
def Settles (mode : Mode) (s u : Session σ) (span : Span) : Outcome σ → Prop
  | .ok _ store => ∀ r, Ends .walking (u.withStore store) r → Ends mode s r
  | .error e store => Ends mode s (.error (e.within span) (u.withStore store))

theorem perform_waiting {operation : Operation} {s t : Store σ}
    (h : Store.perform preallocated operation s = .ok .waiting t) : operation = .input := by
  cases operation with
  | input => rfl
  | counted kind count =>
    cases kind <;>
    · obtain ⟨_, _, _, hd⟩ := Action.eq_ok_of_bind h
      cases hd
  | output =>
    obtain ⟨_, _, _, hw⟩ := Action.eq_ok_of_bind h
    obtain ⟨_, _, _, hd⟩ := Action.eq_ok_of_bind hw
    cases hd
  | goto name =>
    obtain ⟨_, _, _, hd⟩ := Action.eq_ok_of_bind h
    cases hd
  | blank => cases h

theorem settles_waiting {s : Session σ} {store : Store σ} {r : Outcome σ} (span : Span)
    (h : Performs preallocated .input store r) (hq : s.Quiet) (hs : s.store = store) :
    Settles (.waiting span) s s span r := by
  induction h generalizing s with
  | done h =>
    subst hs
    have hm := hq.move_waiting preallocated span
    rw [h] at hm
    exact fun r hr => .moves hm hr
  | fails h =>
    subst hs
    have hm := hq.move_waiting preallocated span
    rw [h] at hm
    exact .stops hm
  | @again s' t r h _ ih =>
    subst hs
    have hm := hq.move_waiting preallocated span
    rw [h] at hm
    have hr := ih (quiet_withStore hq t) rfl
    cases r with
    | ok a u => exact fun r' hr' => .moves hm (hr r' hr')
    | error e u => exact .moves hm hr

/-- A leaf that is carried out takes the walk past it, or stops it there. -/
theorem settles_leaf {s : Session σ} {frame : Frame} {below : List Frame} {operation : Operation}
    {span : Span} {rest : List Instruction} {view : Option String} {r : Outcome σ} (hq : s.Quiet)
    (hs : s.stack = frame :: below) (hr : frame.rest = .leaf operation span :: rest)
    (seen : observe s.log.verbose s.store = .ok view s.store)
    (h : Performs s.options.preallocate operation s.store r) :
    Settles .walking s ((s.setRest rest).noted frame.id (.leaf operation span) view) span r := by
  have hm := hq.move_leaf hs hr seen
  cases h with
  | done h =>
    rw [h] at hm
    exact fun r hr => .moves hm hr
  | fails h =>
    rw [h] at hm
    exact .stops hm
  | again h rest' =>
    rename_i t
    rw [h] at hm
    cases perform_waiting h
    have hq' := quiet_withStore (quiet_noted (quiet_setRest hq rest) frame.id
      (.leaf .input span) view) t
    have hw := settles_waiting span rest' hq' rfl
    cases r with
    | ok a u => exact fun r' hr' => .moves hm (hw r' hr')
    | error e u => exact .moves hm hw

/-- The innermost frame holds the task: what is left of it, or the passes that its loop has yet to
make. -/
def Holds (frame : Frame) : Task → Prop
  | .list program => frame.rest = program
  | .passes body => frame.rest = [] ∧ frame.body = body ∧ frame.loop.isSome

/-- The stack once the task of the innermost frame is over. -/
def stackAfter (frame : Frame) (below : List Frame) : Task → List Frame
  | .list _ => { frame with rest := [] } :: below
  | .passes _ => below

/-- The session stands with the store before the task, which its innermost frame holds. -/
structure Stands (verbose preallocated : Bool) (task : Task) (store : Store σ) (frame : Frame)
    (below : List Frame) (s : Session σ) : Prop where
  quiet : s.Quiet
  verbose : s.log.verbose = verbose
  preallocate : s.options.preallocate = preallocated
  store : s.store = store
  stack : s.stack = frame :: below
  holds : Holds frame task

theorem Stands.withStore {task : Task} {store : Store σ} {frame : Frame} {below : List Frame}
    {s : Session σ} (h : Stands verbose preallocated task store frame below s) (t : Store σ) :
    Stands verbose preallocated task t frame below (s.withStore t) :=
  ⟨quiet_withStore h.quiet t, h.verbose, h.preallocate, rfl, h.stack, h.holds⟩

/-- The session once the first instruction of the list is on record. -/
theorem Stands.took {s : Session σ} {store : Store σ} {frame : Frame} {below : List Frame}
    {i : Instruction} {rest : List Instruction}
    (h : Stands verbose preallocated (.list (i :: rest)) store frame below s)
    (view : Option String) :
    Stands verbose preallocated (.list rest) store { frame with rest } below
      ((s.setRest rest).noted frame.id i view) where
  quiet := quiet_noted (quiet_setRest h.quiet rest) _ _ _
  verbose := by simpa [noted, Log.record] using h.verbose
  preallocate := by simpa using h.preallocate
  store := by simpa using h.store
  stack := setRest_stack h.stack rest
  holds := rfl

theorem adds_took (s : Session σ) (frame : Nat) (i : Instruction) (rest : List Instruction)
    (view : Option String) :
    Log.Adds [i] s.log ((s.setRest rest).noted frame i view).log := by
  show Log.Adds [i] s.log ((s.setRest rest).log.record (some frame) i.rule (some i.span) view).2
  rw [setRest_log]
  exact .record s.log (some frame) i view

theorem Leads.stands {s t : Session σ} {steps : List Instruction} {task task' : Task}
    {store : Store σ} {frame frame' : Frame} {below below' : List Frame} (h : Leads s steps t)
    (hs : Stands verbose preallocated task store frame below s) (stack : t.stack = frame' :: below')
    (holds : Holds frame' task') :
    Stands verbose preallocated task' t.store frame' below' t :=
  ⟨h.quiet, h.adds.verbose.trans hs.verbose, h.options ▸ hs.preallocate, rfl, stack, holds⟩

section loops

variable {s : Session σ} {store : Store σ} {frame : Frame} {below : List Frame}
  {body rest : List Instruction} {span : Span}

/-- The frame of a loop that the session is about to enter, as if a pass had just ended. -/
def loopFrame (s : Session σ) (span : Span) (body : List Instruction) : Frame :=
  { id := s.nextFrame, loop := some span, body, rest := [] }

/-- The session of a loop that has just been taken, as if a pass of it had just ended. -/
def atLoop (s : Session σ) (frame : Frame) (span : Span) (body rest : List Instruction)
    (view : Option String) : Session σ :=
  (((s.setRest rest).noted frame.id (.loop body span) view).push (some span) body).setRest []

theorem Stands.atLoop
    (h : Stands verbose preallocated (.list (.loop body span :: rest)) store frame below s)
    (view : Option String) :
    Stands verbose preallocated (.passes body) store (s.loopFrame span body)
      ({ frame with rest } :: below) (s.atLoop frame span body rest view) where
  quiet := quiet_setRest (quiet_push (h.took view).quiet _ _) _
  verbose := by simpa [Session.atLoop] using (h.took view).verbose
  preallocate := by simpa [Session.atLoop] using (h.took view).preallocate
  store := by simpa [Session.atLoop] using (h.took view).store
  stack := by simp [Session.atLoop, setRest, push, noted, h.stack, loopFrame]
  holds := ⟨rfl, rfl, rfl⟩

/-- Entering a loop is like coming to the end of a pass: if the cell is not zero, the body is run
from its start. -/
theorem Stands.enters
    (h : Stands verbose preallocated (.list (.loop body span :: rest)) store frame below s)
    {view : Option String} (seen : observe verbose store = .ok view store) {n : Nat}
    (hc : Store.cell store = .ok n store) (hn : n ≠ 0)
    {r : EStateM.Result Raised (Session σ) Unit}
    (hr : Ends .walking (s.atLoop frame span body rest view) r) : Ends .walking s r := by
  obtain ⟨m, rfl⟩ := Nat.exists_eq_succ_of_ne_zero hn
  have hat := h.atLoop view
  have again := hat.quiet.move_round hat.stack rfl rfl
  obtain ⟨hq, rfl, rfl, rfl, hs, hf⟩ := h
  have enter := hq.move_loop hs hf seen
  rw [hat.store, hc] at again
  rw [hc] at enter
  have same : (s.atLoop frame span body rest view).setRest (s.loopFrame span body).body =
      ((s.setRest rest).noted frame.id (.loop body span) view).push (some span) body := by
    simp [Session.atLoop, setRest, push, loopFrame]
  cases hr with
  | stops h => cases again.symm.trans h
  | moves h rest =>
    cases again.symm.trans h
    exact .moves (enter.trans (congrArg _ same.symm)) rest

theorem Stands.again (h : Stands verbose preallocated (.passes body) store frame below s) :
    Stands verbose preallocated (.list body) store { frame with rest := body } below
      (s.setRest body) where
  quiet := quiet_setRest h.quiet body
  verbose := by simpa using h.verbose
  preallocate := by simpa using h.preallocate
  store := by simpa using h.store
  stack := setRest_stack h.stack body
  holds := rfl

theorem Stands.leads_again
    (h : Stands verbose preallocated (.passes body) store frame below s) {n : Nat}
    (hc : Store.cell store = .ok n store) (hn : n ≠ 0) : Leads s [] (s.setRest body) := by
  obtain ⟨m, rfl⟩ := Nat.exists_eq_succ_of_ne_zero hn
  obtain ⟨hq, rfl, rfl, rfl, hs, hr, rfl, hl⟩ := h
  obtain ⟨span, hl⟩ := Option.isSome_iff_exists.1 hl
  have round := hq.move_round hs hr hl
  rw [hc] at round
  refine ⟨quiet_setRest hq _, by simp, ?_, fun r hr => .moves round hr⟩
  rw [setRest_log]
  exact .refl _

end loops

theorem adds_atLoop {s t : Session σ} {frame : Frame} {span : Span}
    {body rest steps : List Instruction} {view : Option String}
    (h : Log.Adds steps (s.atLoop frame span body rest view).log t.log) :
    Log.Adds (.loop body span :: steps) s.log t.log := by
  rw [atLoop, setRest_log, push_log] at h
  exact (adds_took s frame.id (.loop body span) rest view).trans h

theorem runs_arrives {task : Task} {store : Store σ} {steps : List Instruction} {r : Outcome σ}
    (run : Runs verbose preallocated task store steps r) {s : Session σ} {frame : Frame}
    {below : List Frame} (h : Stands verbose preallocated task store frame below s) :
    Arrives s steps (stackAfter frame below task) r := by
  -- Each leaf leaves another session to the rest of the run, and each loop another frame on top.
  induction run generalizing s frame below with
  | nil =>
    refine ⟨s, .refl h.quiet, ?_, h.store⟩
    rw [h.stack, stackAfter, ← show frame.rest = [] from h.holds]
  | unseen seen =>
    obtain ⟨hq, rfl, rfl, rfl, hs, hf⟩ := h
    cases Store.observe_error seen
    refine ⟨_, .stops (hq.move_unseen hs hf seen), ?_, by simp⟩
    rw [setRest_log]
    exact .refl _
  | @leaf operation span rest _ view _ t r seen first next ih =>
    have took := (h.took view).withStore t
    have after := ih took
    obtain ⟨hq, rfl, rfl, rfl, hs, hf⟩ := h
    have go := settles_leaf hq hs hf seen first
    exact Leads.arrives ⟨took.quiet, by simp, adds_took s _ _ _ view, go⟩ after
  | @leafFails operation span rest view _ t e seen first =>
    obtain ⟨hq, rfl, rfl, rfl, hs, hf⟩ := h
    exact ⟨_, settles_leaf hq hs hf seen first, adds_took s _ _ _ view, rfl⟩
  | @loop body span rest steps steps' view _ t r seen first next ih ih' =>
    cases first with
    | leaves hc =>
      have took := h.took view
      have after := ih' took
      obtain ⟨hq, rfl, rfl, rfl, hs, hf⟩ := h
      have skip := hq.move_loop hs hf seen
      rw [hc] at skip
      exact Leads.arrives
        ⟨took.quiet, by simp, adds_took s _ _ _ view, fun r hr => .moves skip hr⟩ after
    | pass hc hn _ _ =>
      -- The passes set out from the end of a pass; entering the loop leads to the same sessions.
      have hat := h.atLoop view
      obtain ⟨u, lead, hstack, rfl⟩ := ih hat
      have after := ih' (lead.stands hat hstack rfl)
      have options : u.options = s.options := by
        rw [lead.options]
        simp [atLoop]
      exact Leads.arrives ⟨lead.quiet, options, adds_atLoop lead.adds,
        fun r hr => h.enters seen hc hn (lead.ends r hr)⟩ after
  | @loopFails body span rest steps view _ t e seen first ih =>
    obtain ⟨u, hu, hadds, hstore⟩ := ih (h.atLoop view)
    cases first with
    | pass hc hn _ _ => exact ⟨u, h.enters seen hc hn hu, adds_atLoop hadds, hstore⟩
    | passFails hc hn _ => exact ⟨u, h.enters seen hc hn hu, adds_atLoop hadds, hstore⟩
    | wild hc =>
      cases Store.cell_error hc
      obtain ⟨hq, rfl, rfl, rfl, hs, hf⟩ := h
      have skip := hq.move_loop hs hf seen
      rw [hc] at skip
      exact ⟨_, .stops skip, adds_took s _ _ _ view, by simp⟩
  | leaves hc =>
    obtain ⟨hq, rfl, rfl, rfl, hs, hr, hb, hl⟩ := h
    obtain ⟨span, hl⟩ := Option.isSome_iff_exists.1 hl
    have round := hq.move_round hs hr hl
    rw [hc] at round
    refine ⟨s.pop, ⟨quiet_pop hq, by simp, ?_, fun r hr => .moves round hr⟩, pop_stack hs, by simp⟩
    rw [pop_log hs]
    exact .forget _ _
  | @pass body steps steps' n _ t r hc hn first next ih ih' =>
    obtain ⟨u, lead, hstack, rfl⟩ := ih h.again
    have after := ih' (lead.stands h.again hstack ⟨rfl, h.holds.2⟩)
    exact ((h.leads_again hc hn).trans lead).arrives after
  | passFails hc hn first ih => exact (h.leads_again hc hn).arrives (ih h.again)
  | wild hc =>
    cases Store.cell_error hc
    obtain ⟨hq, rfl, rfl, rfl, hs, hr, hb, hl⟩ := h
    obtain ⟨span, hl⟩ := Option.isSome_iff_exists.1 hl
    have round := hq.move_round hs hr hl
    rw [hc] at round
    exact ⟨s, .stops round, .refl _, rfl⟩

end Session

end NamedTape
