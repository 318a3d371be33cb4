import NamedTape.Proofs.Checkpoints
import NamedTape.Proofs.MergedExecutions
import NamedTape.Proofs.Outputs
import NamedTape.Proofs.Points

/-!
# Runs that are called off

A run that is called off is the beginning of the run that is not (`called_off_at_checkpoint`). Up to
the check point at which the callback answers yes, the two runs make the same moves, and differ only
in how often the callback has been asked; at the check point the one stops with the store that the
other goes on with.
-/

namespace NamedTape

namespace Session

open NamedTape.Action (leaving)

variable {σ : Type}

/-! ## The check points of a run -/

/-- The check point at which the next move asks, if it does: its span, and the store. -/
def checkpoint (mode : Mode) (s : Session σ) : List (Span × Store σ) :=
  (asksAt? mode s).toList.map fun span => (span, s.store)

/-- The check points that so many moves of a walk come to, in order. -/
def checkpoints : Nat → Mode → Session σ → List (Span × Store σ)
  | 0, _, _ => []
  | n + 1, mode, s =>
    checkpoint mode s ++
      match move mode s with
      | .ok mode' t => checkpoints n mode' t
      | .error _ _ => []

/-- The check points that a run comes to within so many moves. -/
def checkpointsOf (program : Program) (aliases : Option AliasTable) (s : Session σ) (n : Nat) :
    List (Span × Store σ) :=
  match opening program aliases s with
  | .ok _ store => checkpoints n .walking ((s.begin program aliases).withStore store)
  | .error _ _ => []

theorem checkpoint_of_some {mode : Mode} {s : Session σ} {span : Span}
    (h : asksAt? mode s = some span) : checkpoint mode s = [(span, s.store)] := by
  rw [checkpoint, h]
  rfl

theorem checkpoint_of_none {mode : Mode} {s : Session σ} (h : asksAt? mode s = none) :
    checkpoint mode s = [] := by
  rw [checkpoint, h]
  rfl

/-- A longer walk comes to the same check points, and perhaps to more. -/
theorem checkpoints_mono {n m : Nat} (h : n ≤ m) (mode : Mode) (s : Session σ) :
    checkpoints n mode s <+: checkpoints m mode s := by
  induction n generalizing m mode s with
  | zero => exact List.nil_prefix
  | succ n ih =>
    obtain ⟨m, rfl⟩ := Nat.exists_eq_add_of_le' h
    have fewer : n ≤ m + n := Nat.le_add_left n m
    unfold checkpoints
    refine (List.prefix_append_right_inj _).mpr ?_
    cases move mode s with
    | ok mode' t => exact ih fewer mode' t
    | error e t => exact List.prefix_rfl

/-- What has been written before a check point stays written. -/
theorem checkpoint_output {s : Session σ} (h : s.Quiet) {n : Nat} {mode : Mode} {span : Span}
    {store : Store σ} (hm : (span, store) ∈ checkpoints n mode s) :
    store.device.output.toList <+:
      ((walkFor n mode).final s).store.device.output.toList := by
  induction n generalizing mode s with
  | zero => cases hm
  | succ n ih =>
    rcases List.mem_append.mp hm with here | later
    · obtain ⟨_, -, same⟩ := List.mem_map.mp here
      cases same
      rw [h.output_walkFor]
      exact List.prefix_append _ _
    · cases hv : move mode s with
      | error e t =>
        rw [hv] at later
        cases later
      | ok mode' t =>
        rw [hv] at later
        have same := (move_keeps s mode).ok (.refl s) hv
        have grows := ih ⟨same.hooks.trans h.hooks, same.cancel.trans h.cancel⟩ later
        unfold Action.final at grows ⊢
        rwa [walkFor_succ, Action.bind_of_ok hv]

/-! ## Walks with and without a callback -/

section walks

variable {answers : Nat → Except Raised Bool} {s : Session σ} {mode : Mode} {checks n : Nat}

/-- A move that is not called off does the same as one that nobody listens to. -/
theorem move_spared (hs : s.cancel = none)
    (spared : ∀ j < (checkpoint mode s).length, answers (checks + j) = .ok false) :
    move mode (s.heeding (some answers) checks) =
      leaving (heeding (some answers) (checks + (checkpoint mode s).length)) (move mode s) := by
  cases ha : asksAt? mode s with
  | some span =>
    rw [checkpoint_of_some ha] at spared ⊢
    obtain ⟨t, asks, -⟩ := asks_move ha
    exact asks.spared hs (spared 0 Nat.one_pos)
  | none =>
    rw [checkpoint_of_none ha]
    exact (move_unasked ha).deaf _ _

/-- A walk that is not called off does the same as one that nobody listens to. -/
theorem walkFor_spared (hs : s.cancel = none)
    (spared : ∀ j < (checkpoints n mode s).length, answers (checks + j) = .ok false) :
    walkFor n mode (s.heeding (some answers) checks) =
      leaving (heeding (some answers) (checks + (checkpoints n mode s).length))
        (walkFor n mode s) := by
  induction n generalizing mode s checks with
  | zero => cases mode <;> rfl
  | succ n ih =>
    unfold checkpoints at spared ⊢
    rw [List.length_append] at spared ⊢
    have first : move mode (s.heeding (some answers) checks) = _ :=
      move_spared hs fun j hj => spared j (Nat.lt_add_right _ hj)
    rw [walkFor_succ, walkFor_succ]
    cases hm : move mode s with
    | error e t =>
      rw [hm] at first
      rw [Action.bind_of_error hm, Action.bind_of_error first]
      rfl
    | ok mode' t =>
      rw [hm] at first spared
      have cancel := ((move_keeps s mode).ok (.refl s) hm).cancel.trans hs
      rw [Action.bind_of_ok hm, Action.bind_of_ok first, ih cancel, Nat.add_assoc]
      intro j hj
      rw [Nat.add_assoc]
      exact spared _ (Nat.add_lt_add_left hj _)

/-- A walk that is called off at a check point stops with the store of the check point. -/
theorem walkFor_called_off {k : Nat} {span : Span} {store : Store σ} (hs : s.cancel = none)
    (here : (checkpoints n mode s)[k]? = some (span, store))
    (spared : ∀ j < k, answers (checks + j) = .ok false) (stop : answers (checks + k) = .ok true) :
    ∃ t, walkFor n mode (s.heeding (some answers) checks) =
        .error (.fault { cause := .cancelled, span := some span }) t ∧
      t.store = store ∧ t.hooks = s.hooks := by
  induction n generalizing mode s checks k with
  | zero => cases here
  | succ n ih =>
    rw [walkFor_succ]
    unfold checkpoints at here
    rw [List.getElem?_append] at here
    split at here
    · next first =>
      -- The first move asks, and is answered with yes.
      cases ha : asksAt? mode s with
      | none =>
        rw [checkpoint_of_none ha] at first
        cases first
      | some span' =>
        rw [checkpoint_of_some ha] at first here
        cases Nat.lt_one_iff.mp first
        cases here
        obtain ⟨t, asks, heeds⟩ := asks_move ha
        have sight := heeds.sight
        exact ⟨_, Action.bind_of_error (asks.stopped stop) _, sight.store, sight.hooks⟩
    · next later =>
      -- The check point comes after the first move, and after the one that this may have come to.
      obtain ⟨k, rfl⟩ := Nat.exists_eq_add_of_le (Nat.not_lt.mp later)
      rw [Nat.add_sub_cancel_left] at here
      have first : move mode (s.heeding (some answers) checks) = _ :=
        move_spared hs fun j hj => spared j (Nat.lt_add_right k hj)
      cases hm : move mode s with
      | error e t =>
        rw [hm] at here
        cases here
      | ok mode' t =>
        rw [hm] at here first
        have same := (move_keeps s mode).ok (.refl s) hm
        rw [← Nat.add_assoc] at stop
        obtain ⟨u, stopped, store, hooks⟩ := ih (same.cancel.trans hs) here
          (fun j hj => Nat.add_assoc checks _ j ▸ spared _ (Nat.add_lt_add_left hj _)) stop
        exact ⟨u, (Action.bind_of_ok first _).trans stopped, store, hooks.trans same.hooks⟩

end walks

/-! ## Executions -/

theorem closeEnded_deaf : Deaf (closeEnded (σ := σ)) := by
  have left : Deaf (modify (pop (σ := σ))) := .modify heeding_pop
  exact (announce_deaf _).bind fun _ => left.bind fun _ => .pure _

theorem closeFailed_deaf (e : Raised) : Deaf (closeFailed (σ := σ) e) :=
  (announce_deaf _).bind fun _ => .get (fun _ => .throw _) fun _ _ _ => by cases e <;> rfl

/-- Closing a run is deaf to the callback. -/
theorem conclude_leaving (cancel : Option (Nat → Except Raised Bool)) (checks : Nat)
    (r : EStateM.Result Raised (Session σ) Mode) :
    conclude (leaving (heeding cancel checks) r) =
      leaving (heeding cancel checks) (conclude r) := by
  cases r with
  | ok mode t =>
    cases mode with
    | finished => exact closeEnded_deaf cancel checks t
    | walking => rfl
    | waiting span => rfl
  | error e t =>
    by_cases he : e = .interrupt
    · subst he
      rfl
    · rw [leaving, conclude_failed he, conclude_failed he]
      exact closeFailed_deaf e cancel checks t

section runs

variable {s : Session σ} (hq : s.Quiet) {answers : Nat → Except Raised Bool} {k : Nat}
  (spared : ∀ j < k, answers (s.checks + j) = .ok false)
  (program : Program) (aliases : Option AliasTable) (n : Nat)
include hq spared

/-- A run that comes to no check point at which it is called off does the same as one that nobody
listens to. -/
theorem executeFor_spared (few : (checkpointsOf program aliases s n).length ≤ k) :
    executeFor n program aliases (s.heeding (some answers) s.checks) =
      leaving (heeding (some answers) (s.checks + (checkpointsOf program aliases s n).length))
        (executeFor n program aliases s) := by
  have alone := executeFor_eq hq.hooks n program aliases
  have heard := executeFor_eq (s := s.heeding (some answers) s.checks) hq.hooks n program aliases
  have same : opening program aliases (s.heeding (some answers) s.checks) =
      opening program aliases s := rfl
  unfold checkpointsOf at few ⊢
  rw [alone, heard, same]
  cases ho : opening program aliases s with
  | error e store => cases e <;> rfl
  | ok a store =>
    rw [ho] at few
    have start := quiet_withStore (quiet_begin hq program aliases) store
    have walked := walkFor_spared start.cancel
      fun j hj => spared j (Nat.lt_of_lt_of_le hj few)
    exact (congrArg conclude walked).trans (conclude_leaving _ _ _)

/-- A run that is called off at a check point stops there. -/
theorem executeFor_called_off (stop : answers (s.checks + k) = .ok true) {span : Span}
    {store : Store σ} (here : (checkpointsOf program aliases s n)[k]? = some (span, store)) :
    ∃ step t, executeFor n program aliases (s.heeding (some answers) s.checks) =
        .error (.fault { cause := .cancelled, span := some span, step }) t ∧
      t.store = store := by
  have heard := executeFor_eq (s := s.heeding (some answers) s.checks) hq.hooks n program aliases
  have same : opening program aliases (s.heeding (some answers) s.checks) =
      opening program aliases s := rfl
  unfold checkpointsOf at here
  rw [heard, same]
  cases ho : opening program aliases s with
  | error e store =>
    rw [ho] at here
    cases here
  | ok a opened =>
    rw [ho] at here
    have start := quiet_withStore (quiet_begin hq program aliases) opened
    obtain ⟨t, stopped, store, hooks⟩ := walkFor_called_off start.cancel here spared stop
    have closed := conclude_error (hooks.trans start.hooks)
      (.fault { cause := .cancelled, span := some span })
    exact ⟨_, t, (congrArg conclude stopped).trans closed, store⟩

/-- **A run that is called off is the beginning of the run that is not.** The callback answers yes
to question `k`, counted from zero. As long as the run comes to no more check points than `k`, it
does the same as without the callback; once it has come to the one after these, it has stopped there
with a fault at the span of the check point, and with the store of the other run, which may write
more. -/
theorem called_off_at_checkpoint (stop : answers (s.checks + k) = .ok true) :
    ((checkpointsOf program aliases s n).length ≤ k →
      executeFor n program aliases (s.heeding (some answers) s.checks) =
        leaving (heeding (some answers) (s.checks + (checkpointsOf program aliases s n).length))
          (executeFor n program aliases s)) ∧
    ∀ span store, (checkpointsOf program aliases s n)[k]? = some (span, store) →
      (∃ step t, executeFor n program aliases (s.heeding (some answers) s.checks) =
          .error (.fault { cause := .cancelled, span := some span, step }) t ∧
        t.store = store) ∧
      ∀ m, n ≤ m →
        store.device.output.toList <+: (storeAt program aliases s m).device.output.toList := by
  refine ⟨executeFor_spared hq spared program aliases n, fun span store here =>
    ⟨executeFor_called_off hq spared program aliases n stop here, fun m hm => ?_⟩⟩
  have member := List.mem_of_getElem? here
  rw [storeAt_eq aliases hq.hooks]
  unfold checkpointsOf at member
  cases ho : opening program aliases s with
  | error e opened =>
    rw [ho] at member
    cases member
  | ok a opened =>
    rw [ho] at member
    have quiet := quiet_withStore (quiet_begin hq program aliases) opened
    exact checkpoint_output quiet ((checkpoints_mono hm _ _).subset member)

end runs

/-- Writes ones without end. -/
def beeper : Program where
  instructions := [.leaf (.counted .add 1) ⟨0, 1⟩, .loop [.leaf .output ⟨2, 1⟩] ⟨1, 3⟩]

/-- Its fourth check point is the end of the first pass through the loop. -/
theorem called_off_at_checkpoint_beeper :
    cornered.Quiet ∧ (∀ j < 3, yesAt 3 (0 + j) = .ok false) ∧ yesAt 3 (0 + 3) = .ok true ∧
      ∃ store step t, (checkpointsOf beeper none cornered 4)[3]? = some (⟨1, 3⟩, store) ∧
        executeFor 4 beeper none (cornered.heeding (some (yesAt 3)) 0) =
          .error (.fault { cause := .cancelled, span := some ⟨1, 3⟩, step }) t ∧
        t.store = store ∧ store.device.output.toList = [1] := by
  have spared : ∀ j < 3, yesAt 3 (0 + j) = .ok false := fun j hj =>
    yesAt_of_lt ((Nat.zero_add j).symm ▸ hj)
  have shown : (checkpointsOf beeper none cornered 4)[3]?.map
      (fun point => (point.1, point.2.device.output.toList)) = some (⟨1, 3⟩, [1]) := by
    decide +kernel
  obtain ⟨⟨span, store⟩, here, same⟩ := Option.map_eq_some_iff.mp shown
  obtain ⟨rfl, output⟩ := Prod.mk.inj same
  obtain ⟨⟨step, t, stopped, kept⟩, -⟩ :=
    (called_off_at_checkpoint quiet_cornered spared beeper none 4 (yesAt_self 3)).2 _ _ here
  exact ⟨quiet_cornered, spared, yesAt_self 3, store, step, t, here, stopped, kept, output⟩

end Session

end NamedTape
