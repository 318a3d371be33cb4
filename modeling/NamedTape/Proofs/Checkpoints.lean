import NamedTape.Proofs.Walk
import NamedTape.Session.Execution

/-!
# Check points

Nearly everything in a session is deaf to the cancel callback: it does the same whatever callback
there is, and however often it has been asked (`Deaf`). The exceptions are the moves that come to a
check point (`asksAt?`): they ask once, before they do anything to the store, and if the run is not
called off they go on like a move that nobody listens to (`asks_move`). A move that does not come to
a check point takes a frame off the stack, or ends the walk (`move_unasked`).
-/

namespace NamedTape

/-- The result with another state. -/
def Action.leaving {σ α : Type} (f : σ → σ) : EStateM.Result Raised σ α → EStateM.Result Raised σ α
  | .ok a s => .ok a (f s)
  | .error e s => .error e (f s)

namespace Session

open NamedTape.Action (Keeps Meets leaving)

variable {σ α β : Type}

/-- The session with another cancel callback, which has been asked so often. -/
def heeding (cancel : Option (Nat → Except Raised Bool)) (checks : Nat) (s : Session σ) :
    Session σ :=
  { s with cancel, checks }

theorem Aloof.prepare {P : Session σ → Prop} (h : Aloof P) (program : Program) :
    Keeps P (prepare program) := by
  refine .get fun s hs => Meets.mono (P := P) ?_ (fun _ ht => ht ▸ hs) (fun _ _ ht => ht)
    fun _ _ ht => ht
  cases s.options.preallocate with
  | false => exact h.announce _
  | true => exact (h.onStore _).bind fun _ => h.announce _

/-! ## Deaf actions -/

/-- The action does the same whatever callback there is, and however often it has been asked. -/
def Deaf (act : Action (Session σ) α) : Prop :=
  ∀ cancel checks s, act (s.heeding cancel checks) = leaving (heeding cancel checks) (act s)

section deaf

variable {act : Action (Session σ) α}

theorem Deaf.bind {f : α → Action (Session σ) β} (h : Deaf act) (hf : ∀ a, Deaf (f a)) :
    Deaf (act >>= f) := by
  intro cancel checks s
  have first := h cancel checks s
  cases ha : act s with
  | ok a t =>
    rw [ha] at first
    rw [Action.bind_of_ok ha, Action.bind_of_ok first]
    exact hf a cancel checks t
  | error e t =>
    rw [ha] at first
    rw [Action.bind_of_error ha, Action.bind_of_error first]
    rfl

theorem Deaf.pure (a : α) : Deaf (pure a : Action (Session σ) α) := fun _ _ _ => rfl

theorem Deaf.throw (e : Raised) : Deaf (throw e : Action (Session σ) α) := fun _ _ _ => rfl

/-- An action that looks at a part of the session that has nothing to do with the callback. -/
theorem Deaf.get {f : Session σ → Action (Session σ) α} (h : ∀ s, Deaf (f s))
    (hf : ∀ cancel checks s, f (s.heeding cancel checks) = f s) : Deaf (get >>= f) := by
  intro cancel checks s
  rw [Action.get_bind, Action.get_bind, hf]
  exact h s cancel checks s

theorem Deaf.modify {f : Session σ → Session σ}
    (h : ∀ cancel checks s, f (s.heeding cancel checks) = (f s).heeding cancel checks) :
    Deaf (modify f) := by
  intro cancel checks s
  show EStateM.Result.ok _ (f (s.heeding cancel checks)) = _
  rw [h]
  rfl

theorem Deaf.restating {restate : Session σ → Raised → Raised} (h : Deaf act)
    (hr : ∀ cancel checks s, restate (s.heeding cancel checks) = restate s) :
    Deaf (act.restating restate) := by
  intro cancel checks s
  have first := h cancel checks s
  cases ha : act s with
  | ok a t =>
    rw [ha] at first
    rw [Action.restating_of_ok ha, Action.restating_of_ok first]
    rfl
  | error e t =>
    rw [ha] at first
    rw [Action.restating_of_error ha, Action.restating_of_error first, hr]
    rfl

theorem onStore_deaf (act : Action (Store σ) α) : Deaf (onStore act) := by
  intro cancel checks s
  cases ha : act s.store with
  | ok a store =>
    rw [onStore_of_ok (s := s.heeding cancel checks) ha, onStore_of_ok ha]
    rfl
  | error e store =>
    rw [onStore_of_error (s := s.heeding cancel checks) ha, onStore_of_error ha]
    rfl

theorem announce_deaf (notice : Notice) : Deaf (announce (σ := σ) notice) :=
  .get (fun _ => .restating (onStore_deaf _) fun _ _ _ => rfl) fun _ _ _ => rfl

theorem applyRules_deaf (tick : Tick) : Deaf (applyRules (σ := σ) tick) :=
  .get (fun _ => .restating (onStore_deaf _) fun _ _ _ => rfl) fun _ _ _ => rfl

theorem takeStep_deaf (frame : Nat) (i : Instruction) : Deaf (takeStep (σ := σ) frame i) := by
  have recorded : ∀ view, Deaf (record (σ := σ) frame i view) := fun _ _ _ _ => rfl
  intro cancel checks s
  rw [takeStep_eq, takeStep_eq]
  exact ((onStore_deaf _).bind fun view => (recorded view).bind applyRules_deaf) cancel checks s

theorem proceed_deaf (i : Instruction) (progress : Store.Progress) :
    Deaf (proceed (σ := σ) i progress) := by
  cases progress with
  | done => exact (announce_deaf _).bind fun _ => .pure _
  | waiting => exact .pure _

theorem carryOut_deaf {act : Action (Session σ) Store.Progress} (span : Span) (h : Deaf act) :
    Deaf (carryOut span act) :=
  h.restating fun _ _ _ => rfl

/-- A deaf action neither asks the callback nor changes it. -/
theorem Deaf.settings {s t : Session σ} {a : α} (h : Deaf act) (ha : act s = .ok a t) :
    t.cancel = s.cancel ∧ t.checks = s.checks := by
  have same : act s = leaving (heeding s.cancel s.checks) (act s) := h s.cancel s.checks s
  rw [ha] at same
  injection same with _ state
  rw [state]
  exact ⟨rfl, rfl⟩

theorem prepare_deaf (program : Program) : Deaf (prepare (σ := σ) program) := by
  refine .get (fun s => ?_) fun _ _ _ => rfl
  cases s.options.preallocate with
  | false => exact announce_deaf _
  | true => exact (onStore_deaf _).bind fun _ => announce_deaf _

theorem heeding_setRest (cancel : Option (Nat → Except Raised Bool)) (checks : Nat)
    (s : Session σ) (rest : List Instruction) :
    (s.heeding cancel checks).setRest rest = (s.setRest rest).heeding cancel checks := by
  cases hs : s.stack <;> simp only [setRest, heeding, hs]

theorem heeding_pop (cancel : Option (Nat → Except Raised Bool)) (checks : Nat) (s : Session σ) :
    (s.heeding cancel checks).pop = s.pop.heeding cancel checks := by
  cases hs : s.stack <;> simp only [pop, heeding, hs]

end deaf

/-! ## Asking -/

/-- From the session, the action asks the callback once, at the span, when it has come to `t`, and
is deaf to it otherwise. What the callback fails with is restated. -/
structure Asks (span : Span) (restate : Raised → Raised) (act : Action (Session σ) α)
    (s t : Session σ) : Prop where
  spared {answers : Nat → Except Raised Bool} {checks : Nat} (quiet : s.cancel = none)
    (answer : answers checks = .ok false) :
    act (s.heeding (some answers) checks) = leaving (heeding (some answers) (checks + 1)) (act s)
  stopped {answers : Nat → Except Raised Bool} {checks : Nat} (answer : answers checks = .ok true) :
    act (s.heeding (some answers) checks) =
      .error (.fault { cause := .cancelled, span := some span })
        (t.heeding (some answers) (checks + 1))
  failed {answers : Nat → Except Raised Bool} {checks : Nat} {failure : Raised}
    (answer : answers checks = .error failure) :
    act (s.heeding (some answers) checks) =
      .error (restate failure) (t.heeding (some answers) (checks + 1))

section asks

variable {span : Span} {restate : Raised → Raised} {act : Action (Session σ) α} {s t : Session σ}

theorem asks_checkCancelled (span : Span) (s : Session σ) :
    Asks span id (checkCancelled span) s s where
  spared quiet answer := by
    simp only [checkCancelled, heeding, answer, quiet]
    rfl
  stopped answer := by simp only [checkCancelled, heeding, answer]
  failed answer := by simp only [checkCancelled, heeding, answer, id]

theorem Asks.bind {f : α → Action (Session σ) β} (h : Asks span restate act s t)
    (hf : ∀ a, Deaf (f a)) : Asks span restate (act >>= f) s t where
  spared {answers checks} quiet answer := by
    have first := h.spared quiet answer
    cases ha : act s with
    | ok a u =>
      rw [ha] at first
      rw [Action.bind_of_ok ha, Action.bind_of_ok first]
      exact hf a _ _ u
    | error e u =>
      rw [ha] at first
      rw [Action.bind_of_error ha, Action.bind_of_error first]
      rfl
  stopped answer := Action.bind_of_error (h.stopped answer) f
  failed answer := Action.bind_of_error (h.failed answer) f

/-- A failure while an instruction is worked on is attributed to it. -/
theorem Asks.carryOut {act : Action (Session σ) Store.Progress} (h : Asks span id act s t) :
    Asks span (·.within span) (carryOut span act) s t where
  spared {answers checks} quiet answer := by
    have first := h.spared quiet answer
    cases ha : act s with
    | ok a u =>
      rw [ha] at first
      rw [carryOut_of_ok span ha, carryOut_of_ok span first]
      rfl
    | error e u =>
      rw [ha] at first
      rw [carryOut_of_error span ha, carryOut_of_error span first]
      rfl
  stopped answer := carryOut_of_error span (h.stopped answer)
  failed answer := carryOut_of_error span (h.failed answer)

theorem asks_take (frame : Nat) (i : Instruction) (s : Session σ) :
    Asks i.span id (take frame i) s s := by
  refine (asks_checkCancelled i.span s).bind fun _ => (takeStep_deaf frame i).bind fun _ =>
    (announce_deaf _).bind fun _ => ?_
  cases i with
  | leaf operation span =>
    exact .get (fun s => (carryOut_deaf span (onStore_deaf _)).bind (proceed_deaf _))
      fun _ _ _ => rfl
  | loop body span =>
    refine (onStore_deaf _).bind fun n => ?_
    have entered : Deaf (modify (push (σ := σ) (some span) body)) := .modify fun _ _ _ => rfl
    cases n with
    | zero => exact proceed_deaf (.loop body span) .done
    | succ n => exact entered.bind fun _ => proceed_deaf (.loop body span) .done

theorem asks_askAgain (span : Span) (s : Session σ) :
    Asks span (·.within span) (askAgain span) s s :=
  ((asks_checkCancelled span s).bind fun _ => onStore_deaf _).carryOut.bind (proceed_deaf _)

end asks

/-! ## Check points -/

/-- The span at which the next move asks the callback, if it does: that of the instruction that
comes next, of the loop that is to be repeated, or of the input instruction that waits. -/
def asksAt? : Mode → Session σ → Option Span
  | .finished, _ => none
  | .waiting span, _ => some span
  | .walking, s =>
    match s.stack with
    | [] => none
    | frame :: _ =>
      match frame.rest, frame.loop with
      | i :: _, _ => some i.span
      | [], some span =>
        match Store.cell s.store with
        | .ok (_ + 1) _ => some span
        | _ => none
      | [], none => none

section moves

variable {s : Session σ} {mode : Mode} {span : Span}

/-- The second session has the store, the log and the hooks of the first. -/
structure SameSight (s t : Session σ) : Prop where
  store : t.store = s.store
  log : t.log = s.log
  hooks : t.hooks = s.hooks

theorem setRest_sameSight (s : Session σ) (rest : List Instruction) :
    SameSight s (s.setRest rest) :=
  ⟨s.setRest_store rest, s.setRest_log rest, (setRest_same s (.refl s) rest).hooks⟩

theorem asks_take_next {frame : Frame} {below : List Frame} {i : Instruction}
    {rest : List Instruction} (hs : s.stack = frame :: below) (hr : frame.rest = i :: rest) :
    Asks i.span id (move .walking) s (s.setRest rest) := by
  have taken := asks_take frame.id i (s.setRest rest)
  have heard : ∀ answers checks, move .walking (s.heeding (some answers) checks) =
      take frame.id i ((s.setRest rest).heeding (some answers) checks) := by
    intro answers checks
    rw [← heeding_setRest]
    exact move_cons (s := s.heeding (some answers) checks) hs hr
  refine ⟨fun quiet answer => ?_, fun answer => ?_, fun answer => ?_⟩
  · rw [heard, move_cons hs hr]
    exact taken.spared ((setRest_same s (.refl s) rest).cancel.trans quiet) answer
  · rw [heard]
    exact taken.stopped answer
  · rw [heard]
    exact taken.failed answer

theorem asks_repeat {frame : Frame} {below : List Frame} {n : Nat} (hs : s.stack = frame :: below)
    (hr : frame.rest = []) (hl : frame.loop = some span)
    (hc : Store.cell s.store = .ok (n + 1) s.store) : Asks span id (move .walking) s s := by
  have again : Deaf (modify (setRest (σ := σ) frame.body)) :=
    .modify fun _ _ _ => heeding_setRest _ _ _ _
  have asked := (asks_checkCancelled span s).bind fun _ => again.bind fun _ => .pure Mode.walking
  have rounds : ∀ t : Session σ, t.stack = s.stack → t.store = s.store → move .walking t =
      (checkCancelled span >>= fun _ => modify (setRest frame.body) >>= fun _ =>
        pure Mode.walking : Action (Session σ) Mode) t := by
    intro t stack store
    rw [move_nil (stack.trans hs) hr, hl]
    refine (Action.bind_of_ok (cell_of_ok (n := n + 1) ?_) _).trans rfl
    rw [store, hc]
  refine ⟨fun quiet answer => ?_, fun answer => ?_, fun answer => ?_⟩
  · rw [rounds (s.heeding (some _) _) rfl rfl, rounds s rfl rfl]
    exact asked.spared quiet answer
  · rw [rounds (s.heeding (some _) _) rfl rfl]
    exact asked.stopped answer
  · rw [rounds (s.heeding (some _) _) rfl rfl]
    exact asked.failed answer

/-- Where a move asks the callback: at which span, and in which session it is when it does. -/
inductive Heeds (s : Session σ) : Mode → Span → Session σ → Prop
  | taking {frame : Frame} {below : List Frame} {i : Instruction} {rest : List Instruction}
    (stack : s.stack = frame :: below) (upcoming : frame.rest = i :: rest) :
    Heeds s .walking i.span (s.setRest rest)
  | again {frame : Frame} {below : List Frame} {span : Span} (stack : s.stack = frame :: below)
    (spent : frame.rest = []) (loop : frame.loop = some span) : Heeds s .walking span s
  | asking (span : Span) : Heeds s (.waiting span) span s

theorem Heeds.sight {t : Session σ} (h : Heeds s mode span t) : SameSight s t := by
  cases h with
  | taking _ _ => exact setRest_sameSight s _
  | again _ _ _ => exact ⟨rfl, rfl, rfl⟩
  | asking _ => exact ⟨rfl, rfl, rfl⟩

/-- What a failure of the callback becomes: while an input instruction waits, it is attributed to
it. -/
def Mode.restate : Mode → Raised → Raised
  | .waiting span, e => e.within span
  | _, e => e

/-- **Check points.** -/
theorem asks_move (h : asksAt? mode s = some span) :
    ∃ t, Asks span mode.restate (move mode) s t ∧ Heeds s mode span t := by
  cases mode with
  | finished => cases h
  | waiting span' =>
    cases h
    exact ⟨s, asks_askAgain span s, .asking span⟩
  | walking =>
    simp only [asksAt?] at h
    cases hs : s.stack with
    | nil =>
      rw [hs] at h
      cases h
    | cons frame below =>
      rw [hs] at h
      cases hr : frame.rest with
      | cons i rest =>
        simp only [hr, Option.some.injEq] at h
        subst h
        exact ⟨s.setRest rest, asks_take_next hs hr, .taking hs hr⟩
      | nil =>
        cases hl : frame.loop with
        | none => simp only [hr, hl, reduceCtorEq] at h
        | some span' =>
          simp only [hr, hl] at h
          split at h
          · next n store hc =>
            cases h
            cases Store.cell_ok hc
            exact ⟨s, asks_repeat hs hr hl hc, .again hs hr hl⟩
          · cases h

/-- The callback, asked by a move at the span, calls the run off or fails. -/
inductive Refuses (s : Session σ) (mode : Mode) (span : Span) : Raised → Prop
  | calledOff {answers : Nat → Except Raised Bool} (callback : s.cancel = some answers)
    (answer : answers s.checks = .ok true) :
    Refuses s mode span (.fault { cause := .cancelled, span := some span })
  | failed {answers : Nat → Except Raised Bool} {failure : Raised}
    (callback : s.cancel = some answers) (answer : answers s.checks = .error failure) :
    Refuses s mode span (mode.restate failure)

/-- A move that comes to a check point is spared by the answer, and goes on like one that nobody
listens to, or it is refused there. -/
theorem move_asked {answers : Nat → Except Raised Bool} (hc : s.cancel = some answers)
    (ha : asksAt? mode s = some span) :
    (answers s.checks = .ok false ∧ move mode s =
      leaving (heeding (some answers) (s.checks + 1)) (move mode (s.heeding none s.checks))) ∨
    ∃ t e, Heeds (s.heeding none s.checks) mode span t ∧ Refuses s mode span e ∧
      move mode s = .error e (t.heeding (some answers) (s.checks + 1)) := by
  -- The session is one without a callback that has been given this one.
  have self : (s.heeding none s.checks).heeding (some answers) s.checks = s := by
    rw [← hc]
    rfl
  have alone : asksAt? mode (s.heeding none s.checks) = some span := by cases mode <;> exact ha
  obtain ⟨t, asks, heeds⟩ := asks_move alone
  cases answer : answers s.checks with
  | error failure => exact .inr ⟨t, _, heeds, .failed hc answer, self ▸ asks.failed answer⟩
  | ok stop =>
    cases stop with
    | true => exact .inr ⟨t, _, heeds, .calledOff hc answer, self ▸ asks.stopped answer⟩
    | false => exact .inl ⟨rfl, self ▸ asks.spared rfl answer⟩

/-- What a move comes to that does not ask: the walk ends, or fails where it is, or takes a loop's
frame off the stack. -/
inductive Idle (mode : Mode) (s : Session σ) : Prop
  | ends (h : ∀ cancel checks,
      move mode (s.heeding cancel checks) = .ok .finished (s.heeding cancel checks))
  | fails {e : Raised} (h : ∀ cancel checks,
      move mode (s.heeding cancel checks) = .error e (s.heeding cancel checks))
  | pops {frame : Frame} {below : List Frame} (stack : s.stack = frame :: below)
    (loop : frame.loop.isSome) (h : ∀ cancel checks,
      move mode (s.heeding cancel checks) = .ok .walking (s.pop.heeding cancel checks))

theorem idle_return {frame : Frame} {below : List Frame} (hs : s.stack = frame :: below)
    (hr : frame.rest = []) (hl : frame.loop = some span)
    (hc : ∀ n, Store.cell s.store ≠ .ok (n + 1) s.store) : Idle .walking s := by
  have rounds : ∀ cancel checks, move .walking (s.heeding cancel checks) =
      comeRound span frame.body (s.heeding cancel checks) := by
    intro cancel checks
    rw [move_nil (s := s.heeding cancel checks) hs hr, hl]
  cases hv : Store.cell s.store with
  | error e store =>
    cases Store.cell_error hv
    refine .fails (e := e) fun cancel checks => ?_
    rw [rounds]
    exact Action.bind_of_error (cell_of_error (s := s.heeding cancel checks) hv) _
  | ok n store =>
    cases Store.cell_ok hv
    cases n with
    | succ n => exact absurd hv (hc n)
    | zero =>
      refine .pops hs (hl ▸ rfl) fun cancel checks => ?_
      rw [rounds, ← heeding_pop]
      exact Action.bind_of_ok (cell_of_ok (s := s.heeding cancel checks) hv) _

/-- **Moves between check points.** -/
theorem move_unasked (h : asksAt? mode s = none) : Idle mode s := by
  cases mode with
  | finished => exact .ends fun _ _ => rfl
  | waiting span => cases h
  | walking =>
    simp only [asksAt?] at h
    cases hs : s.stack with
    | nil => exact .ends fun cancel checks => move_empty (s := s.heeding cancel checks) hs
    | cons frame below =>
      rw [hs] at h
      cases hr : frame.rest with
      | cons i rest => simp only [hr, reduceCtorEq] at h
      | nil =>
        cases hl : frame.loop with
        | none =>
          refine .ends fun cancel checks => ?_
          rw [move_nil (s := s.heeding cancel checks) hs hr, hl]
        | some span =>
          simp only [hr, hl] at h
          refine idle_return hs hr hl fun n hc => ?_
          simp only [hc, reduceCtorEq] at h

theorem Idle.cases (h : Idle mode s) :
    move mode s = .ok .finished s ∨ (∃ e, move mode s = .error e s) ∨
      ∃ frame below, s.stack = frame :: below ∧ frame.loop.isSome ∧
        move mode s = .ok .walking s.pop := by
  cases h with
  | ends h => exact .inl (h s.cancel s.checks)
  | fails h => exact .inr (.inl ⟨_, h s.cancel s.checks⟩)
  | pops stack loop h =>
    have popped := h s.cancel s.checks
    rw [← heeding_pop] at popped
    exact .inr (.inr ⟨_, _, stack, loop, popped⟩)

theorem Idle.deaf (h : Idle mode s) (cancel : Option (Nat → Except Raised Bool)) (checks : Nat) :
    move mode (s.heeding cancel checks) = leaving (heeding cancel checks) (move mode s) := by
  cases h with
  | ends h => exact (h cancel checks).trans (congrArg (leaving _) (h s.cancel s.checks)).symm
  | fails h => exact (h cancel checks).trans (congrArg (leaving _) (h s.cancel s.checks)).symm
  | pops _ _ h =>
    have popped := h s.cancel s.checks
    rw [← heeding_pop] at popped
    exact (h cancel checks).trans (congrArg (leaving _) popped).symm

end moves

/-! ## Callbacks -/

/-- A callback that answers yes to one question only. -/
def yesAt (k : Nat) : Nat → Except Raised Bool := fun n => .ok (n == k)

theorem yesAt_self (k : Nat) : yesAt k k = .ok true := by
  rw [yesAt, beq_self_eq_true]

theorem yesAt_of_lt {n k : Nat} (h : n < k) : yesAt k n = .ok false := by
  rw [yesAt, beq_eq_false_iff_ne.mpr (Nat.ne_of_lt h)]

end Session

end NamedTape
