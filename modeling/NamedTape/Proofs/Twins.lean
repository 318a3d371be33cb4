import NamedTape.Proofs.Walk
import NamedTape.Session.Execution

/-!
# Twins

Two sessions that differ in nothing but their surroundings, the host and the hooks, do the same for
as long as their hooks do the same to what the sessions share (`executeFor_twins`). `Parallel` is
the contract of a pair of actions: from related states they come to the same result or the same
failure, in states that are related again.
-/

namespace NamedTape

namespace Action

variable {σ τ α β : Type} {R : σ → τ → Prop}

/-- The results agree, and their states are related. -/
inductive Agree (R : σ → τ → Prop) :
    EStateM.Result Raised σ α → EStateM.Result Raised τ α → Prop
  | ok {a : α} {s : σ} {t : τ} (h : R s t) : Agree R (.ok a s) (.ok a t)
  | error {e : Raised} {s : σ} {t : τ} (h : R s t) : Agree R (.error e s) (.error e t)

/-- From related states the actions come to results that agree. -/
def Parallel (R : σ → τ → Prop) (act : Action σ α) (act' : Action τ α) : Prop :=
  ∀ s t, R s t → Agree R (act s) (act' t)

variable {act : Action σ α} {act' : Action τ α}

theorem Parallel.bind {f : α → Action σ β} {f' : α → Action τ β} (h : Parallel R act act')
    (hf : ∀ a, Parallel R (f a) (f' a)) : Parallel R (act >>= f) (act' >>= f') := by
  intro s t hst
  have first := h s t hst
  generalize ha : act s = r at first
  generalize ha' : act' t = r' at first
  cases first with
  | ok hst =>
    rw [bind_of_ok ha, bind_of_ok ha']
    exact hf _ _ _ hst
  | error hst =>
    rw [bind_of_error ha, bind_of_error ha']
    exact .error hst

theorem Parallel.pure (a : α) : Parallel R (pure a) (pure a) := fun _ _ h => .ok h

theorem Parallel.throw (e : Raised) :
    Parallel R (throw e : Action σ α) (throw e) := fun _ _ h => .error h

theorem Parallel.get {f : σ → Action σ α} {f' : τ → Action τ α}
    (h : ∀ s t, R s t → Parallel R (f s) (f' t)) : Parallel R (get >>= f) (get >>= f') :=
  fun s t hst => h s t hst s t hst

theorem Parallel.modify {f : σ → σ} {f' : τ → τ} (h : ∀ s t, R s t → R (f s) (f' t)) :
    Parallel R (modify f) (modify f') := fun s t hst => .ok (h s t hst)

theorem Parallel.map (f : α → β) (h : Parallel R act act') :
    Parallel R (f <$> act) (f <$> act') := by
  intro s t hst
  have first := h s t hst
  generalize ha : act s = r at first
  generalize ha' : act' t = r' at first
  cases first with
  | ok hst =>
    rw [map_of_ok ha, map_of_ok ha']
    exact .ok hst
  | error hst =>
    rw [map_of_error ha, map_of_error ha']
    exact .error hst

theorem Parallel.restating {restate : σ → Raised → Raised} {restate' : τ → Raised → Raised}
    (h : Parallel R act act') (hr : ∀ s t, R s t → restate s = restate' t) :
    Parallel R (act.restating restate) (act'.restating restate') := by
  intro s t hst
  have first := h s t hst
  generalize ha : act s = r at first
  generalize ha' : act' t = r' at first
  cases first with
  | ok hst =>
    rw [restating_of_ok ha, restating_of_ok ha']
    exact .ok hst
  | error hst =>
    rw [restating_of_error ha, restating_of_error ha', hr _ _ hst]
    exact .error hst

/-- Traversals of two lists whose elements do the same in turn. -/
theorem Parallel.forM {ι κ : Type} {f : ι → Action σ Unit} {f' : κ → Action τ Unit} (g : ι → κ)
    {xs : List ι} (h : ∀ x ∈ xs, Parallel R (f x) (f' (g x))) :
    Parallel R (xs.forM f) ((xs.map g).forM f') := by
  induction xs with
  | nil => exact .pure ()
  | cons x xs ih =>
    exact (h x List.mem_cons_self).bind fun _ => ih fun y hy => h y (List.mem_cons_of_mem x hy)

end Action

/-! ## Stores -/

namespace Store

open NamedTape.Action (Parallel)

variable {σ τ α : Type}

/-- The store with another host. -/
def hosting (host : τ) (s : Store σ) : Store τ :=
  { tape := s.tape, aliases := s.aliases, device := s.device, host }

/-- The stores differ only in their hosts, which are related. -/
inductive Alike (Q : σ → τ → Prop) : Store σ → Store τ → Prop
  | mk {s : Store σ} {host : τ} (h : Q s.host host) : Alike Q s (s.hosting host)

variable {Q : σ → τ → Prop}

theorem Alike.host {s : Store σ} {t : Store τ} (h : Alike Q s t) : Q s.host t.host := by
  cases h with
  | mk h => exact h

theorem onTape_alike (act : Action Tape α) :
    Parallel (Alike Q) (onTape act) (onTape act) := by
  rintro s _ ⟨h⟩
  simp only [onTape, hosting]
  cases act s.tape with
  | ok a tape => exact .ok (.mk (s := { s with tape }) h)
  | error e tape => exact .error (.mk (s := { s with tape }) h)

theorem observe_alike (verbose : Bool) :
    Parallel (Alike Q) (observe verbose) (observe verbose) := by
  cases verbose with
  | false => exact .pure _
  | true => exact .map some (onTape_alike _)

theorem onAliases_alike (act : Tape → Action AliasTable α) :
    Parallel (Alike Q) (onAliases act) (onAliases act) := by
  rintro s _ ⟨h⟩
  simp only [onAliases, hosting]
  cases act s.tape s.aliases with
  | ok a aliases => exact .ok (.mk (s := { s with aliases }) h)
  | error e aliases => exact .error (.mk (s := { s with aliases }) h)

theorem assign_alike (preallocated : Bool) : Parallel (Alike Q)
    (if preallocated then onAliases AliasTable.assignAll else pure ())
    (if preallocated then onAliases AliasTable.assignAll else pure ()) := by
  cases preallocated with
  | false => exact .pure _
  | true => exact onAliases_alike _

theorem onDevice_alike (act : Action Device α) :
    Parallel (Alike Q) (onDevice act) (onDevice act) := by
  rintro s _ ⟨h⟩
  simp only [onDevice, hosting]
  cases act s.device with
  | ok a device => exact .ok (.mk (s := { s with device }) h)
  | error e device => exact .error (.mk (s := { s with device }) h)

theorem moveLeft_alike (count : Int) : Parallel (Alike Q) (moveLeft count) (moveLeft count) := by
  rintro s _ ⟨h⟩
  simp only [moveLeft, onTape, hosting]
  cases s.tape.moveLeft count with
  | ok a tape =>
    exact .ok (.mk (s := { s with
      tape, aliases := s.aliases.shift (tape.origin - s.tape.origin) }) h)
  | error e tape => exact .error (.mk (s := { s with tape }) h)

theorem goto_alike (preallocated : Bool) (name : String) :
    Parallel (Alike Q) (goto preallocated name) (goto preallocated name) :=
  (onAliases_alike _).bind fun _ => onTape_alike _

theorem receive_alike : Parallel (Alike Q) receive receive := by
  refine (onDevice_alike _).bind fun value => ?_
  cases value with
  | none => exact .pure _
  | some value => exact (onTape_alike _).bind fun _ => .pure _

theorem perform_alike (preallocated : Bool) (operation : Operation) :
    Parallel (Alike Q) (perform preallocated operation) (perform preallocated operation) := by
  cases operation with
  | counted kind count =>
    cases kind with
    | add => exact (onTape_alike _).bind fun _ => .pure _
    | subtract => exact (onTape_alike _).bind fun _ => .pure _
    | left => exact (moveLeft_alike count).bind fun _ => .pure _
    | right => exact (onTape_alike _).bind fun _ => .pure _
  | input => exact receive_alike
  | output => exact (onTape_alike _).bind fun _ => (onDevice_alike _).bind fun _ => .pure _
  | goto name => exact (goto_alike preallocated name).bind fun _ => .pure _
  | blank => exact .throw _

/-- The hooks do the same to stores that differ only in their hosts. -/
structure HooksAlike (Q : σ → τ → Prop) (hooks : StoreHooks σ) (hooks' : StoreHooks τ) : Prop where
  emit (notice : Notice) : Parallel (Alike Q)
    (hooks.emit (· notice) notice.event) (hooks'.emit (· notice) notice.event)
  afterStep (tick : Tick) : Parallel (Alike Q)
    (hooks.afterStep (· tick) tick.step) (hooks'.afterStep (· tick) tick.step)

end Store

/-! ## Sessions -/

namespace Session

open NamedTape.Action (Agree Parallel)
open Store (Alike HooksAlike)

variable {σ τ α : Type}

/-- The session with another store and other hooks. -/
def among (store : Store τ) (hooks : StoreHooks τ) (s : Session σ) : Session τ :=
  { options := s.options, source := s.source, filename := s.filename, program := s.program, store,
    hooks, cancel := s.cancel, checks := s.checks, log := s.log, stack := s.stack,
    nextFrame := s.nextFrame }

theorem among_options (store : Store τ) (hooks : StoreHooks τ) (s : Session σ) :
    (s.among store hooks).options = s.options := rfl

/-- The sessions differ only in their hooks, which are as given, and in their hosts, which are
related. -/
inductive Twins (Q : σ → τ → Prop) (hooks : StoreHooks σ) (hooks' : StoreHooks τ) :
    Session σ → Session τ → Prop
  | mk {s : Session σ} {store : Store τ} (own : s.hooks = hooks) (alike : Alike Q s.store store) :
    Twins Q hooks hooks' s (s.among store hooks')

variable {Q : σ → τ → Prop} {hooks : StoreHooks σ} {hooks' : StoreHooks τ}

theorem onStore_twins {act : Action (Store σ) α} {act' : Action (Store τ) α}
    (h : Parallel (Alike Q) act act') :
    Parallel (Twins Q hooks hooks') (onStore act) (onStore act') := by
  rintro s _ ⟨own, alike⟩
  have acted := h _ _ alike
  generalize ha : act s.store = r at acted
  generalize ha' : act' _ = r' at acted
  cases acted with
  | @ok a store _ alike =>
    rw [onStore_of_ok ha, onStore_of_ok ha']
    exact .ok (.mk (s := { s with store }) own alike)
  | @error e store _ alike =>
    rw [onStore_of_error ha, onStore_of_error ha']
    exact .error (.mk (s := { s with store }) own alike)

theorem cell_twins : Parallel (Twins Q hooks hooks') cell cell :=
  onStore_twins (Store.onTape_alike _)

theorem checkCancelled_twins (span : Span) :
    Parallel (Twins Q hooks hooks') (checkCancelled span) (checkCancelled span) := by
  rintro ⟨_, _, _, _, _, _, cancel, _, _, _, _⟩ _ ⟨own, alike⟩
  cases cancel with
  | none => exact .ok (.mk own alike)
  | some answers =>
    simp only [checkCancelled, among]
    split
    · exact .ok (.mk own alike)
    · exact .error (.mk own alike)
    · exact .error (.mk own alike)

theorem setRest_among (store : Store τ) (s : Session σ) (rest : List Instruction) :
    (s.among store hooks').setRest rest = (s.setRest rest).among store hooks' := by
  simp only [setRest, among]
  split <;> rfl

theorem pop_among (store : Store τ) (s : Session σ) :
    (s.among store hooks').pop = s.pop.among store hooks' := by
  simp only [pop, among]
  split <;> rfl

section changes

variable {s : Session σ} {t : Session τ} (h : Twins Q hooks hooks' s t)
include h

theorem Twins.setRest (rest : List Instruction) :
    Twins Q hooks hooks' (s.setRest rest) (t.setRest rest) := by
  obtain ⟨own, alike⟩ := h
  rw [setRest_among]
  exact .mk ((setRest_same s (.refl s) rest).hooks.trans own) ((s.setRest_store rest).symm ▸ alike)

theorem Twins.pop : Twins Q hooks hooks' s.pop t.pop := by
  obtain ⟨own, alike⟩ := h
  rw [pop_among]
  exact .mk ((pop_same s (.refl s)).hooks.trans own) (s.pop_store.symm ▸ alike)

theorem Twins.push (loop : Option Span) (body : List Instruction) :
    Twins Q hooks hooks' (s.push loop body) (t.push loop body) := by
  obtain ⟨own, alike⟩ := h
  exact .mk (s := s.push loop body) own alike

theorem Twins.begin (program : Program) (aliases : Option AliasTable) :
    Twins Q hooks hooks' (s.begin program aliases) (t.begin program aliases) := by
  obtain ⟨own, ⟨host⟩⟩ := h
  exact .mk (s := s.begin program aliases) own (.mk host)

end changes

theorem carryOut_twins {act : Action (Session σ) Store.Progress}
    {act' : Action (Session τ) Store.Progress} (span : Span)
    (h : Parallel (Twins Q hooks hooks') act act') :
    Parallel (Twins Q hooks hooks') (carryOut span act) (carryOut span act') :=
  h.restating fun _ _ _ => rfl

theorem comeRound_twins (span : Span) (body : List Instruction) :
    Parallel (Twins Q hooks hooks') (comeRound span body) (comeRound span body) := by
  have left : Parallel (Twins Q hooks hooks') (modify pop) (modify pop) :=
    .modify fun _ _ twins => twins.pop
  have again : Parallel (Twins Q hooks hooks') (modify (setRest body)) (modify (setRest body)) :=
    .modify fun _ _ twins => twins.setRest body
  refine cell_twins.bind fun n => ?_
  cases n with
  | zero => exact left.bind fun _ => .pure _
  | succ n => exact (checkCancelled_twins _).bind fun _ => again.bind fun _ => .pure _

section parallel

variable (h : HooksAlike Q hooks hooks')
include h

theorem announce_twins (notice : Notice) :
    Parallel (Twins Q hooks hooks') (announce notice) (announce notice) := by
  refine .get ?_
  rintro s _ ⟨own, -⟩
  refine .restating (onStore_twins (own.symm ▸ h.emit notice)) ?_
  rintro t _ ⟨-, -⟩
  rfl

theorem applyRules_twins (tick : Tick) :
    Parallel (Twins Q hooks hooks') (applyRules tick) (applyRules tick) := by
  refine .get ?_
  rintro s _ ⟨own, -⟩
  exact .restating (onStore_twins (own.symm ▸ h.afterStep tick)) fun _ _ _ => rfl

theorem takeStep_twins (frame : Nat) (i : Instruction) :
    Parallel (Twins Q hooks hooks') (takeStep frame i) (takeStep frame i) := by
  have recorded : ∀ view, Parallel (Twins Q hooks hooks') (record frame i view)
      (record frame i view) := by
    rintro view s _ ⟨own, alike⟩
    exact .ok (.mk (s := s.noted frame i view) own alike)
  rintro s _ ⟨own, alike⟩
  rw [takeStep_eq, takeStep_eq]
  exact ((onStore_twins (Store.observe_alike s.log.verbose)).bind fun view =>
    (recorded view).bind (applyRules_twins h)) _ _ (.mk own alike)

theorem proceed_twins (i : Instruction) (progress : Store.Progress) :
    Parallel (Twins Q hooks hooks') (proceed i progress) (proceed i progress) := by
  cases progress with
  | done => exact (announce_twins h _).bind fun _ => .pure _
  | waiting => exact .pure _

theorem take_twins (frame : Nat) (i : Instruction) :
    Parallel (Twins Q hooks hooks') (take frame i) (take frame i) := by
  refine (checkCancelled_twins _).bind fun _ => (takeStep_twins h frame i).bind fun _ =>
    (announce_twins h _).bind fun _ => ?_
  cases i with
  | leaf operation span =>
    refine .get ?_
    rintro s _ ⟨-, -⟩
    exact (carryOut_twins span (onStore_twins (Store.perform_alike _ operation))).bind
      fun progress => proceed_twins h (.leaf operation span) progress
  | loop body span =>
    refine cell_twins.bind fun n => ?_
    cases n with
    | zero => exact proceed_twins h (.loop body span) .done
    | succ n =>
      have entered : Parallel (Twins Q hooks hooks') (modify (push (some span) body))
          (modify (push (some span) body)) := .modify fun _ _ twins => twins.push _ _
      exact entered.bind fun _ => proceed_twins h (.loop body span) .done

theorem askAgain_twins (span : Span) :
    Parallel (Twins Q hooks hooks') (askAgain span) (askAgain span) := by
  refine (carryOut_twins span ?_).bind fun progress => proceed_twins h _ progress
  exact (checkCancelled_twins span).bind fun _ => onStore_twins Store.receive_alike

theorem move_twins (mode : Mode) : Parallel (Twins Q hooks hooks') (move mode) (move mode) := by
  cases mode with
  | finished => exact .pure _
  | waiting span => exact askAgain_twins h span
  | walking =>
    rintro s t twins
    have same : t.stack = s.stack := by
      obtain ⟨-, -⟩ := twins
      rfl
    cases stack : s.stack with
    | nil =>
      rw [move_empty stack, move_empty (same.trans stack)]
      exact .ok twins
    | cons frame below =>
      cases rest : frame.rest with
      | cons i later =>
        rw [move_cons stack rest, move_cons (same.trans stack) rest]
        exact take_twins h frame.id i _ _ (twins.setRest later)
      | nil =>
        rw [move_nil stack rest, move_nil (same.trans stack) rest]
        cases frame.loop with
        | none => exact .ok twins
        | some span => exact comeRound_twins span frame.body _ _ twins

theorem walkFor_twins (n : Nat) (mode : Mode) :
    Parallel (Twins Q hooks hooks') (walkFor n mode) (walkFor n mode) := by
  induction n generalizing mode with
  | zero => cases mode <;> exact .pure _
  | succ n ih =>
    intro s t hst
    rw [walkFor_succ, walkFor_succ]
    exact (move_twins h mode).bind (fun mode' => ih mode') s t hst

theorem prepare_twins (program : Program) :
    Parallel (Twins Q hooks hooks') (prepare program) (prepare program) := by
  refine .get ?_
  rintro s _ ⟨-, -⟩
  rw [among_options]
  cases s.options.preallocate with
  | false => exact announce_twins h _
  | true => exact (onStore_twins (Store.onAliases_alike _)).bind fun _ => announce_twins h _

theorem conclude_twins {r : EStateM.Result Raised (Session σ) Mode}
    {r' : EStateM.Result Raised (Session τ) Mode} (hr : Agree (Twins Q hooks hooks') r r') :
    Agree (Twins Q hooks hooks') (conclude r) (conclude r') := by
  have ended : Parallel (Twins Q hooks hooks')
      (do announce .ended; modify pop; return Mode.finished)
      (do announce .ended; modify pop; return Mode.finished) :=
    (announce_twins h _).bind fun _ =>
      Parallel.bind (.modify fun _ _ twins => twins.pop) fun _ => .pure _
  have failed : ∀ failure, Parallel (Twins Q hooks hooks')
      (do announce (.failed failure); throw (report (← get) failure) : Action _ Mode)
      (do announce (.failed failure); throw (report (← get) failure)) := by
    refine fun failure => (announce_twins h _).bind fun _ => .get ?_
    rintro s _ ⟨-, -⟩
    cases failure <;> exact .throw _
  cases hr with
  | @ok mode _ _ twins =>
    cases mode with
    | walking => exact .ok twins
    | waiting span => exact .ok twins
    | finished => exact ended _ _ twins
  | @error e _ _ twins =>
    cases e with
    | interrupt => exact .error twins
    | fault f => exact failed _ _ _ twins
    | foreign f => exact failed _ _ _ twins

/-- **Twins.** -/
theorem executeFor_twins (n : Nat) (program : Program) (aliases : Option AliasTable) :
    Parallel (Twins Q hooks hooks') (executeFor n program aliases)
      (executeFor n program aliases) := by
  intro s t twins
  exact conclude_twins h (((prepare_twins h program).bind fun _ =>
    walkFor_twins h n .walking) _ _ (twins.begin program aliases))

end parallel

end Session

end NamedTape
