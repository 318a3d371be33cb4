import NamedTape.Proofs.MergedExecutions
import NamedTape.Proofs.Outputs
import NamedTape.Proofs.Points

/-!
# Faults are atomic and located

A run that stops has stopped at an instruction (`fault_atomic`): the tape and the aliases are those
that the instruction started from, the output is what the output instructions before it wrote, and
the fault that is reported has the span of the instruction unless it came with one of its own. Only
a failure without a text is not reported.

A quiet walk of a program without negative counts over a sound tape (`Steady`) can stop at leaves
only, and for an input instruction that waited this is some moves after it was started.
-/

namespace NamedTape

/-- What a failure at a step is reported as: a fault at the span and the step, unless it has come
with its own. What cannot be quoted is not reported. -/
def Raised.located (span : Span) (step : Int) : Raised → Raised
  | .fault f => .fault { f with span := f.span <|> some span, step := f.step <|> some step }
  | .foreign failure => .quoting failure { cause := .unexpected failure, span, step }
  | .interrupt => .interrupt

namespace Session

open NamedTape.Action (Keeps)
open Instruction (EachLeaf)
open Store (Performs Untouched)

variable {σ α : Type} {limits : Limits}

/-- A quiet session with a sound store and no negative counts in what it carries out. -/
structure Steady (limits : Limits) (s : Session σ) : Prop where
  quiet : s.Quiet
  store : s.store.Sound limits
  frames : Carries (EachLeaf Operation.Nonneg) s.stack

theorem onStore_steady {act : Action (Store σ) α} (h : Keeps (Store.Sound limits) act) :
    Keeps (Steady limits) (onStore act) :=
  meets_onStore
    (fun _ _ store hs ha => ⟨quiet_withStore hs.quiet store, h.ok hs.store ha, hs.frames⟩)
    fun _ _ store hs ha => ⟨quiet_withStore hs.quiet store, h.error hs.store ha, hs.frames⟩

theorem takeStep_steady (frame : Nat) (i : Instruction) :
    Keeps (Steady (σ := σ) limits) (takeStep frame i) := by
  intro s hs
  obtain ⟨view, seen⟩ | ⟨e, seen⟩ := Store.observe_cases s.log.verbose s.store
  · rw [hs.quiet.takeStep_of_ok frame i seen]
    exact ⟨quiet_noted hs.quiet frame i view, hs.store, hs.frames⟩
  · rw [takeStep_of_error frame i seen]
    exact hs

theorem maintains_steady : Maintains (σ := σ) (Steady limits) (EachLeaf Operation.Nonneg)
    fun _ => Steady limits where
  announce := announce_unhooked fun _ h => h.quiet.hooks
  checkCancelled span s hs := by
    rw [hs.quiet.checkCancelled]
    exact hs
  takeStep := takeStep_steady
  cell := onStore_steady fun s hs => by
    rw [hs.cell_ok]
    exact hs
  receive := onStore_steady Store.receive_keeps
  perform _ hi := onStore_steady (Store.perform_keeps _ hi.of_leaf)
  within _ h := h
  frame h hstack := h.frames _ (hstack ▸ List.mem_cons_self)
  cons h := ⟨h.head, h.tail⟩
  body h := h.of_loop
  setRest {s rest} h hr :=
    ⟨quiet_setRest h.quiet rest, s.setRest_store rest ▸ h.store, carries_setRest h.frames hr⟩
  push loop h hb := ⟨quiet_push h.quiet loop _, h.store, carries_push h.frames hb loop⟩
  pop {s} h := ⟨quiet_pop h.quiet, s.pop_store ▸ h.store, carries_pop h.frames⟩

theorem Steady.move {s t : Session σ} {mode mode' : Mode} (h : Steady limits s)
    (hm : Session.move mode s = .ok mode' t) : Steady limits t :=
  (maintains_steady.move mode).ok h hm

/-! ## Where a walk stops -/

/-- After so many moves the walk stands before the operation at the span, in the session `u`, and
carrying out the operation fails. The step is recorded, and none after it. -/
structure StopsAt (mode : Mode) (s : Session σ) (n : Nat) (u : Session σ) (operation : Operation)
    (span : Span) (raised : Raised) (t : Session σ) : Prop where
  reached : walkFor n mode s = .ok .walking u
  upcoming : u.upcoming? = some (.leaf operation span)
  performs : Performs u.options.preallocate operation u.store (.error raised t.store)
  log : Log.Adds [.leaf operation span] u.log t.log

/-- Where a walk stops that fails: at a leaf that it comes to, or at the input that it waits for. -/
inductive Stops (mode : Mode) (s : Session σ) : Raised → Session σ → Prop
  | leaf {n : Nat} {u t : Session σ} {operation : Operation} {span : Span} {raised : Raised}
    (h : StopsAt mode s n u operation span raised t) : Stops mode s (raised.within span) t
  | asking {t : Session σ} {span : Span} {raised : Raised} (hm : mode = .waiting span)
    (performs : Performs s.options.preallocate .input s.store (.error raised t.store))
    (log : t.log = s.log) : Stops mode s (raised.within span) t

theorem StopsAt.after {mode mode' : Mode} {s s' u t : Session σ} {n : Nat} {operation : Operation}
    {span : Span} {raised : Raised} (hm : move mode s = .ok mode' s')
    (h : StopsAt mode' s' n u operation span raised t) :
    StopsAt mode s (n + 1) u operation span raised t := by
  refine ⟨?_, h.upcoming, h.performs, h.log⟩
  rw [walkFor_succ, Action.bind_of_ok hm]
  exact h.reached

/-- A move that fails stops at a leaf or at the input that it waits for: looking at a cell or at the
tape does not fail. -/
theorem Steady.stops_move {s t : Session σ} {mode : Mode} {e : Raised} (h : Steady limits s)
    (hl : limits.Legible) (hm : Session.move mode s = .error e t) : Stops mode s e t := by
  have moved := h.quiet.moved mode
  rw [hm] at moved
  generalize hr : (.error e t : EStateM.Result Raised (Session σ) Mode) = r at moved
  cases moved with
  | ended => cases hr
  | spent _ => cases hr
  | turns _ _ => cases hr
  | unseen seen _ =>
    obtain ⟨view, seen'⟩ := h.store.observe_ok hl s.log.verbose
    cases seen.symm.trans seen'
  | strays cell _ => cases cell.symm.trans h.store.cell_ok
  | @leaf operation span u upcoming options log =>
    obtain ⟨raised, store, hp, rfl, rfl⟩ := error_of_worked hr.symm
    exact .leaf (n := 0) ⟨rfl, upcoming, .fails hp, log⟩
  | asks span =>
    obtain ⟨raised, store, hp, rfl, rfl⟩ := error_of_worked hr.symm
    exact .asking rfl (.fails hp) rfl

/-- A walk that waits after a move stops where the walk stops that has made the move. -/
theorem Quiet.stops_waiting {s s' t : Session σ} {mode : Mode} {span : Span} {e : Raised}
    (h : s.Quiet) (hm : move mode s = .ok (.waiting span) s')
    (later : Stops (.waiting span) s' e t) : Stops mode s e t := by
  cases later with
  | leaf later => exact .leaf (later.after hm)
  | asking waits performs log =>
    cases waits
    have moved := h.moved mode
    rw [hm] at moved
    generalize hr : (.ok (.waiting span) s' : EStateM.Result Raised (Session σ) Mode) = r at moved
    cases moved with
    | ended => cases hr
    | spent _ => cases hr
    | turns _ _ => cases hr
    | unseen _ _ => cases hr
    | strays _ _ => cases hr
    | @leaf operation _ u upcoming options log' =>
      obtain ⟨rfl, store, hp, rfl⟩ := waiting_of_worked hr.symm
      cases perform_waiting hp
      rw [withStore_options, options, withStore_store] at performs
      exact .leaf (n := 0) ⟨rfl, upcoming, .again hp performs, log ▸ log'⟩
    | asks _ =>
      obtain ⟨rfl, store, hp, rfl⟩ := waiting_of_worked hr.symm
      exact .asking rfl (.again hp performs) log

/-- **Where walks stop.** -/
theorem Steady.stops {s t : Session σ} {mode : Mode} {e : Raised} {n : Nat} (h : Steady limits s)
    (hl : limits.Legible) (hw : walkFor n mode s = .error e t) : Stops mode s e t := by
  induction n generalizing mode s with
  | zero => cases mode <;> cases hw
  | succ n ih =>
    rw [walkFor_succ] at hw
    rcases Action.eq_error_of_bind hw with hm | ⟨mode', u, hm, hw⟩
    · exact h.stops_move hl hm
    · have later := ih (h.move hm) hw
      cases mode' with
      | finished => cases (walkFor_finished n u).symm.trans hw
      | waiting span => exact h.quiet.stops_waiting hm later
      | walking =>
        cases later with
        | leaf later => exact .leaf (later.after hm)
        | asking waits _ _ => cases waits

/-! ## What is reported -/

/-- A failure at a span is reported after its step, with both unless it has come with its own. -/
theorem report_within {u t : Session σ} {i : Instruction} (h : Log.Adds [i] u.log t.log)
    (raised : Raised) :
    report t (raised.within i.span) = raised.located i.span u.log.next := by
  have last : t.log.last.map Entry.deed = some (u.log.next, i.rule, some i.span) := h.last
  obtain ⟨entry, last, deed⟩ := Option.map_eq_some_iff.mp last
  obtain ⟨step, -, span⟩ : entry.step = u.log.next ∧ entry.rule = i.rule ∧
      entry.span = some i.span := by
    simpa only [Entry.deed, Prod.mk.injEq] using deed
  cases raised with
  | interrupt => rfl
  | fault f =>
    simp only [Raised.within, Fault.within, report, Raised.located, last, Option.map_some, step]
  | foreign failure =>
    simp only [Raised.within, report, Raised.located, lastSpan, last, Option.map_some, step,
      Option.bind_some, span]

theorem span_located {raised : Raised} (hv : raised.Voiced) (hi : raised ≠ .interrupt)
    (hs : raised.span = none) (span : Span) (step : Int) :
    (raised.located span step).span = some span := by
  cases raised with
  | interrupt => exact absurd rfl hi
  | foreign failure =>
    rw [Raised.located, Raised.quoting_of_voiced hv]
    rfl
  | fault f =>
    show (f.span <|> some span) = some span
    rw [show f.span = none from hs]
    rfl

theorem opening_device {program : Program} {aliases : Option AliasTable} {s : Session σ}
    {store : Store σ} (ho : opening program aliases s = .ok () store) :
    store.device = s.store.device := by
  unfold opening at ho
  split at ho
  · unfold Store.onAliases at ho
    split at ho <;> cases ho
    rfl
  · cases ho
    rfl

/-- A closed walk that fails has failed before it was closed. -/
theorem Quiet.eq_error_of_conclude {s t : Session σ} (h : s.Quiet) {n : Nat} {mode : Mode}
    {e : Raised} (hc : conclude (walkFor n mode s) = .error e t) :
    ∃ raised, walkFor n mode s = .error raised t ∧ e = report t raised := by
  have same := ((maintains_same s).walkFor n mode).final (.refl s)
  cases hw : walkFor n mode s with
  | ok mode' u =>
    rw [Action.final_of_ok hw] at same
    rw [hw] at hc
    cases mode' with
    | finished => cases (conclude_finished (same.hooks.trans h.hooks)).symm.trans hc
    | walking => cases hc
    | waiting span => cases hc
  | error raised u =>
    rw [Action.final_of_error hw] at same
    rw [hw, conclude_error (same.hooks.trans h.hooks)] at hc
    cases hc
    exact ⟨raised, rfl, rfl⟩

/-- The walk of a program without negative counts, from its opening store. -/
theorem steady_opening {s : Session σ} {program : Program} {aliases : Option AliasTable}
    {store : Store σ} (hq : s.Quiet) (hv : s.store.tape.Viable)
    (hp : EachLeaf Operation.Nonneg program.instructions)
    (ho : opening program aliases s = .ok () store) :
    Steady s.store.tape.limits ((s.begin program aliases).withStore store) := by
  refine ⟨quiet_withStore (quiet_begin hq program aliases) store, opening_sound hv ho, ?_⟩
  intro frame hm
  cases List.mem_singleton.mp hm
  exact ⟨hp, hp⟩

/-- A walk that has stopped makes no further moves. -/
theorem walkFor_stopped {mode : Mode} {s t : Session σ} {n : Nat} {e : Raised}
    (h : walkFor n mode s = .error e t) (k : Nat) : walkFor (n + k) mode s = .error e t := by
  rw [walkFor_add, Action.bind_of_error h]

/-- **Faults are atomic and located.** A run that fails, and had its aliases prepared, has stopped
at an instruction. Its store is the one that the instruction was started with, as far as tape,
aliases and output go; the output is what the instructions before it wrote; however long the run may
be, it goes no further. -/
theorem fault_atomic {s t : Session σ} {program : Program} {n : Nat} {e : Raised} (hq : s.Quiet)
    (hv : s.store.tape.Viable) (hp : EachLeaf Operation.Nonneg program.instructions)
    (aliases : Option AliasTable) (h : executeFor n program aliases s = .error e t) :
    match opening program aliases s with
    | .error raised store =>
      t = (s.begin program aliases).withStore store ∧ e = report t raised
    | .ok _ store =>
      ∃ m u operation span raised,
        StopsAt .walking ((s.begin program aliases).withStore store) m u operation span raised t ∧
        u.store.Untouched t.store ∧
        u.store.device.output.toList = s.store.device.output.toList ++
          written m .walking ((s.begin program aliases).withStore store) ∧
        (∀ k, executeFor (n + k) program aliases s = .error e t) ∧
        e = raised.located span u.log.next ∧
        (raised.Voiced → raised ≠ .interrupt → raised.span = none → e.span = some span) := by
  have executed := fun n => executeFor_eq hq.hooks n program aliases
  rw [executed] at h
  cases ho : opening program aliases s with
  | error raised store =>
    rw [ho] at h
    cases h
    exact ⟨rfl, rfl⟩
  | ok a store =>
    have steady := steady_opening hq hv hp ho
    rw [ho] at h
    obtain ⟨stopped, walked, rfl⟩ := steady.quiet.eq_error_of_conclude h
    cases steady.stops hv.legible walked with
    | asking waits _ _ => cases waits
    | @leaf m u _ operation span raised stop =>
      have output := steady.quiet.output_walkFor m .walking
      rw [Action.final_of_ok stop.reached, withStore_store, opening_device ho] at output
      have reported : report t (raised.within span) = raised.located span u.log.next :=
        report_within stop.log raised
      refine ⟨m, u, operation, span, raised, stop, stop.performs.untouched, output, fun k => ?_,
        reported, fun hv hi hs => ?_⟩
      · have closed : conclude (walkFor n .walking _) = _ := h
        rw [walked] at closed
        rw [executed, ho]
        exact (congrArg conclude (walkFor_stopped walked k)).trans closed
      · rw [reported]
        exact span_located hv hi hs span _

/-- Writes a one, and walks to the right until the tape ends. -/
def strider : Program where
  instructions :=
    [.leaf (.counted .add 1) ⟨0, 1⟩, .leaf .output ⟨1, 1⟩,
      .loop [.leaf (.counted .right 1) ⟨3, 1⟩, .leaf (.counted .subtract 1) ⟨4, 1⟩] ⟨2, 4⟩]

theorem nonneg_strider : EachLeaf Operation.Nonneg strider.instructions := by
  have once : ∀ kind, (Operation.counted kind 1).Nonneg := fun _ => Int.one_nonneg
  exact .cons (.leaf _ (once _)) (.cons (.leaf _ trivial)
    (.loop _ (.cons (.leaf _ (once _)) (.leaf _ (once _)))))

theorem fault_atomic_strider :
    cornered.Quiet ∧ cornered.store.tape.Viable ∧
      EachLeaf Operation.Nonneg strider.instructions ∧
      ∃ e t start m u operation span raised,
        executeFor 12 strider none cornered = .error e t ∧
        StopsAt .walking start m u operation span raised t ∧ u.store.Untouched t.store ∧
        written m .walking start = [1] ∧ e.span = some ⟨3, 1⟩ := by
  refine ⟨quiet_cornered, viable_cornered, nonneg_strider, ?_⟩
  have shown : (match executeFor 12 strider none cornered with
      | .error e t => decide (e.span = some ⟨3, 1⟩ ∧ t.store.device.output.toList = [1])
      | .ok _ _ => false) = true := by decide +kernel
  cases h : executeFor 12 strider none cornered with
  | ok mode t =>
    rw [h] at shown
    cases shown
  | error e t =>
    rw [h] at shown
    obtain ⟨span, bytes⟩ := of_decide_eq_true shown
    obtain ⟨m, u, operation, _, raised, stop, untouched, output, -⟩ :=
      fault_atomic quiet_cornered viable_cornered nonneg_strider none h
    refine ⟨e, t, _, m, u, operation, _, raised, rfl, stop, untouched, ?_, span⟩
    rw [← bytes, untouched.output, output]
    rfl

end Session

end NamedTape
