import NamedTape.Proofs.Adequacy
import NamedTape.Session.Execution

/-!
# Executions

How the execution of a program ends, if it does. In a quiet session it does what the structured
semantics of the program does, from the store that the program finds (`Quiet.runs_of_executes`,
`Quiet.executes_of_runs`).
-/

namespace NamedTape

namespace Session

open Store (Runs)

variable {σ : Type}

/-- The latest step of a session that has taken some is the latest of them. -/
theorem lastSpan_of_adds {s t : Session σ} {steps : List Instruction}
    (h : Log.Adds steps s.log t.log) :
    t.lastSpan = (steps.getLast?.map (·.span)).or s.lastSpan := by
  have latest : ∀ s : Session σ, s.lastSpan = (s.log.last.map Entry.deed).bind (·.2.2) := by
    intro s
    rw [lastSpan, Option.bind_map]
    rfl
  have told := Log.deeds_getLast? s.log.next steps
  rw [latest t, h.last, latest s]
  cases hd : (Log.deeds s.log.next steps).getLast? with
  | none =>
    rw [hd, Option.map_none, eq_comm, Option.map_eq_none_iff] at told
    rw [told]
    rfl
  | some deed =>
    rw [hd] at told
    cases hl : steps.getLast? with
    | none => simp [hl] at told
    | some i =>
      rw [hl] at told
      exact Option.some.inj told

/-- Executing the program ends, at its end or with a failure, and leaves a session behind. -/
def Executes (program : Program) (aliases : Option AliasTable) (s : Session σ)
    (r : EStateM.Result Raised (Session σ) Unit) : Prop :=
  ∃ n, executeFor n program aliases s = ending r

/-- Executing the program never comes to an end. -/
def Diverges (program : Program) (aliases : Option AliasTable) (s : Session σ) : Prop :=
  ∀ n, ∃ mode t, mode ≠ .finished ∧ executeFor n program aliases s = .ok mode t

theorem diverges_iff (program : Program) (aliases : Option AliasTable) (s : Session σ) :
    Diverges program aliases s ↔ ¬ ∃ r, Executes program aliases s r := by
  constructor
  · rintro h ⟨r, n, hn⟩
    obtain ⟨mode, t, hmode, ht⟩ := h n
    cases r with
    | ok a u =>
      cases ht.symm.trans hn
      exact hmode rfl
    | error e u => cases ht.symm.trans hn
  · intro h n
    cases hn : executeFor n program aliases s with
    | ok mode t =>
      refine ⟨mode, t, ?_, rfl⟩
      rintro rfl
      exact h ⟨.ok () t, n, hn⟩
    | error e t => exact absurd ⟨.error e t, n, hn⟩ h

/-- An execution that has ended is not changed by a larger bound. -/
theorem executeFor_add {n : Nat} {program : Program} {aliases : Option AliasTable} {s : Session σ}
    {r : EStateM.Result Raised (Session σ) Unit} (h : executeFor n program aliases s = ending r)
    (more : Nat) : executeFor (n + more) program aliases s = ending r := by
  have closed : ∀ u, conclude (walkFor n .walking u) = ending r →
      conclude (walkFor (n + more) .walking u) = ending r := fun u hu => by
    rw [walkFor_add]
    cases hw : walkFor n .walking u with
    | error e t =>
      rw [Action.bind_of_error hw, ← hw]
      exact hu
    | ok mode t =>
      rw [hw] at hu
      rw [Action.bind_of_ok hw]
      cases mode with
      | finished => rwa [walkFor_finished]
      | walking => cases r <;> cases hu
      | waiting span => cases r <;> cases hu
  unfold executeFor at h ⊢
  cases hp : prepare program (s.begin program aliases) with
  | error e t =>
    rw [Action.bind_of_error hp] at h ⊢
    exact h
  | ok a t =>
    rw [Action.bind_of_ok hp] at h ⊢
    exact closed t h

/-- A run of the program that the source writes is its execution. -/
theorem runFor_of_read {s : Session σ} {program : Program} (h : s.read = .ok program) (n : Nat) :
    runFor n s = executeFor n program none s := by
  rw [runFor, h]

/-- An execution ends in one way at most. -/
theorem Executes.unique {program : Program} {aliases : Option AliasTable} {s : Session σ}
    {r r' : EStateM.Result Raised (Session σ) Unit} (h : Executes program aliases s r)
    (h' : Executes program aliases s r') : r = r' := by
  obtain ⟨n, hn⟩ := h
  obtain ⟨n', hn'⟩ := h'
  have longer := executeFor_add hn n'
  rw [Nat.add_comm, executeFor_add hn' n] at longer
  exact ending_injective longer.symm

theorem executes_of_finished? {program : Program} {aliases : Option AliasTable} {s : Session σ}
    {n : Nat} (h : (finished? (executeFor n program aliases s)).isSome = true) :
    ∃ t, Executes program aliases s (.ok () t) := by
  obtain ⟨t, ht⟩ := Option.isSome_iff_exists.mp h
  exact ⟨t, n, eq_ending_of_finished? ht⟩

/-- The store that a program finds at its first instruction, or the failure to prepare one. -/
def opening (program : Program) (aliases : Option AliasTable) (s : Session σ) : Store.Outcome σ :=
  (if s.options.preallocate then Store.onAliases AliasTable.assignAll else pure ())
    (s.begin program aliases).store

/-- How a run is closed that has come to its end. -/
def concluded :
    EStateM.Result Raised (Session σ) Unit → EStateM.Result Raised (Session σ) Unit
  | .ok _ t => .ok () t.pop
  | .error e t => .error (report t e) t

/-- How a run is closed whose walk has come to its end. -/
def closeEnded : Action (Session σ) Mode := do announce .ended; modify pop; return .finished

/-- How a run is closed that has failed. -/
def closeFailed (failure : Raised) : Action (Session σ) Mode := do
  announce (.failed failure)
  throw (report (← get) failure)

theorem conclude_failed {failure : Raised} (h : failure ≠ .interrupt) (s : Session σ) :
    conclude (.error failure s) = closeFailed failure s := by
  cases failure with
  | interrupt => exact absurd rfl h
  | fault f => rfl
  | foreign f => rfl

/-- The handlers of the starting event are called once the aliases have their cells. -/
theorem prepare_eq_announce (program : Program) (s : Session σ) :
    prepare program s =
      match (if s.options.preallocate then Store.onAliases AliasTable.assignAll else pure ())
        s.store with
      | .ok _ store => announce (.started program) (s.withStore store)
      | .error e store => .error e (s.withStore store) := by
  have ask : prepare program s =
      ((if s.options.preallocate then onStore (Store.onAliases AliasTable.assignAll)
        else pure ()) >>= fun _ => announce (.started program) : Action (Session σ) Unit) s := by
    simp only [prepare, Action.get_bind]
    cases s.options.preallocate <;> rfl
  rw [ask]
  cases s.options.preallocate with
  | false => rfl
  | true =>
    simp only [if_true]
    cases ha : Store.onAliases AliasTable.assignAll s.store with
    | ok a store => exact Action.bind_of_ok (onStore_of_ok ha) _
    | error e store => exact Action.bind_of_error (onStore_of_error ha) _

section unhooked

variable {s : Session σ} (h : s.hooks = {})
include h

theorem prepare_eq (program : Program) :
    prepare program s =
      match (if s.options.preallocate then Store.onAliases AliasTable.assignAll else pure ())
        s.store with
      | .ok _ store => .ok () (s.withStore store)
      | .error e store => .error e (s.withStore store) := by
  rw [prepare_eq_announce]
  cases (if s.options.preallocate then Store.onAliases AliasTable.assignAll else pure ())
    s.store with
  | ok a store => exact announce_eq (s := s.withStore store) h _
  | error e store => rfl

theorem conclude_finished : conclude (.ok .finished s) = .ok .finished s.pop := by
  show closeEnded s = _
  rw [closeEnded, Action.bind_of_ok (announce_eq h _)]
  rfl

theorem conclude_error (e : Raised) : conclude (.error e s) = .error (report s e) s := by
  by_cases he : e = .interrupt
  · subst he
    rfl
  · rw [conclude_failed he, closeFailed, Action.bind_of_ok (announce_eq h _)]
    rfl

/-- An execution is the walk from the opening store, if there is one, closed at its end. -/
theorem executeFor_eq (n : Nat) (program : Program) (aliases : Option AliasTable) :
    executeFor n program aliases s = match opening program aliases s with
      | .ok _ store => conclude (walkFor n .walking ((s.begin program aliases).withStore store))
      | .error e store =>
        .error (report ((s.begin program aliases).withStore store) e)
          ((s.begin program aliases).withStore store) := by
  have hooks : (s.begin program aliases).hooks = {} := h
  have prepared : prepare program (s.begin program aliases) =
      (match opening program aliases s with
      | .ok _ store => .ok () ((s.begin program aliases).withStore store)
      | .error e store => .error e ((s.begin program aliases).withStore store) :
        EStateM.Result Raised (Session σ) Unit) := prepare_eq hooks program
  cases ho : opening program aliases s with
  | ok a store =>
    rw [ho] at prepared
    rw [executeFor, Action.bind_of_ok prepared]
  | error e store =>
    rw [ho] at prepared
    rw [executeFor, Action.bind_of_error prepared]
    exact conclude_error (s := (s.begin program aliases).withStore store) h e

/-- A walk that ends, closed. -/
theorem conclude_ending {r : EStateM.Result Raised (Session σ) Unit} (hr : Ends .walking s r) :
    conclude (ending r) = ending (concluded r) := by
  have hooks : (left r).hooks = {} := hr.same_settings.hooks.trans h
  cases r with
  | ok a t => exact conclude_finished hooks
  | error e t => exact conclude_error hooks e

/-- What the execution of a program comes to. -/
theorem executes_iff {program : Program} {aliases : Option AliasTable}
    {r : EStateM.Result Raised (Session σ) Unit} :
    Executes program aliases s r ↔
      match opening program aliases s with
      | .ok _ store =>
        ∃ result, Ends .walking ((s.begin program aliases).withStore store) result ∧
          concluded result = r
      | .error e store =>
        concluded (.error e ((s.begin program aliases).withStore store)) = r := by
  have executed := fun n => executeFor_eq h n program aliases
  cases ho : opening program aliases s with
  | error e store =>
    have every : ∀ n, executeFor n program aliases s =
        ending (concluded (.error e ((s.begin program aliases).withStore store))) := fun n => by
      rw [executed, ho]
      rfl
    constructor
    · rintro ⟨n, hn⟩
      exact ending_injective ((every n).symm.trans hn)
    · rintro rfl
      exact ⟨0, every 0⟩
  | ok a store =>
    have hooks : ((s.begin program aliases).withStore store).hooks = {} := h
    have every : ∀ n, executeFor n program aliases s =
        conclude (walkFor n .walking ((s.begin program aliases).withStore store)) := fun n => by
      rw [executed, ho]
    constructor
    · rintro ⟨n, hn⟩
      rw [every n] at hn
      rcases ending_or (walkFor n .walking ((s.begin program aliases).withStore store)) with
        ⟨result, hw⟩ | ⟨mode, t, hmode, hw⟩
      · have hends := Ends.of_walkFor hw
        rw [hw, conclude_ending hooks hends] at hn
        exact ⟨result, hends, ending_injective hn⟩
      · rw [hw] at hn
        cases mode with
        | finished => exact absurd rfl hmode
        | walking => cases r <;> cases hn
        | waiting span => cases r <;> cases hn
    · rintro ⟨result, hends, rfl⟩
      obtain ⟨n, hn⟩ := hends.walkFor
      exact ⟨n, by rw [every n, hn, conclude_ending hooks hends]⟩

end unhooked

section quiet

variable {s : Session σ} (h : s.Quiet)
include h

theorem quiet_begin (program : Program) (aliases : Option AliasTable) :
    (s.begin program aliases).Quiet :=
  ⟨h.hooks, h.cancel⟩

/-- An execution that ends has run the program from its opening store. -/
theorem Quiet.runs_of_executes {program : Program} {aliases : Option AliasTable}
    {r : EStateM.Result Raised (Session σ) Unit} {store : Store σ}
    (ho : opening program aliases s = .ok () store) (hr : Executes program aliases s r) :
    ∃ steps result,
      Runs s.log.verbose s.options.preallocate (.list program.instructions) store steps
        (outcome result) ∧
      Log.Adds steps s.log (left result).log ∧ concluded result = r := by
  rw [executes_iff h.hooks, ho] at hr
  obtain ⟨result, hends, hconcluded⟩ := hr
  obtain ⟨steps, hruns, hadds⟩ :=
    ends_runs (quiet_withStore (quiet_begin h program aliases) store) rfl hends
  exact ⟨steps, result, hruns, hadds, hconcluded⟩

/-- A run of the program from its opening store is an execution that ends. -/
theorem Quiet.executes_of_runs {program : Program} {aliases : Option AliasTable}
    {store : Store σ} {steps : List Instruction} {out : Store.Outcome σ}
    (ho : opening program aliases s = .ok () store)
    (hruns : Runs s.log.verbose s.options.preallocate (.list program.instructions) store steps
      out) :
    ∃ result, Executes program aliases s (concluded result) ∧ outcome result = out := by
  obtain ⟨result, hends, hout, -⟩ :=
    runs_ends (quiet_withStore (quiet_begin h program aliases) store) rfl hruns
  refine ⟨result, ?_, hout⟩
  rw [executes_iff h.hooks, ho]
  exact ⟨result, hends, rfl⟩

end quiet

end Session

end NamedTape
