import NamedTape.Proofs.Executions
import NamedTape.Proofs.Throughout

/-!
# The points of a run

A run without hooks changes its store operation by operation (`storeAt_succ`): from one move to the
next the store stays as it is, or becomes what one operation of the program makes of it, whatever
the cancel callback and the device do. What every operation of the program keeps of a store is
therefore kept throughout the run (`storeAt_keeps`).
-/

namespace NamedTape

namespace Session

open NamedTape.Action (Keeps Meets)
open Instruction (EachLeaf)

variable {σ α : Type}

/-! ## What a move does to the store -/

/-- The operation is that of the instruction that comes next, or an input that is waited for. -/
def Offers (s : Session σ) (operation : Operation) : Prop :=
  operation = .input ∨ ∃ frame below span rest,
    s.stack = frame :: below ∧ frame.rest = .leaf operation span :: rest

/-- The second session has the store of the first and no hooks either. -/
structure Still (s t : Session σ) : Prop where
  hooks : t.hooks = {}
  options : t.options = s.options
  store : t.store = s.store

/-- The second session has the store of the first, or what an operation that the first offers makes
of it. -/
structure Worked (s t : Session σ) : Prop where
  hooks : t.hooks = {}
  store : t.store = s.store ∨ ∃ operation, s.Offers operation ∧
    t.store = (Store.perform s.options.preallocate operation).final s.store

variable {s t : Session σ}

theorem Still.worked (h : Still s t) : Worked s t := ⟨h.hooks, .inl h.store⟩

theorem announce_unhooked {P : Session σ → Prop} (h : ∀ t, P t → t.hooks = {}) (notice : Notice) :
    Keeps P (announce notice) := by
  intro t ht
  rw [announce_eq (h t ht)]
  exact ht

theorem checkCancelled_still (s : Session σ) (span : Span) :
    Keeps (Still s) (checkCancelled span) := by
  intro t ht
  obtain ⟨checks, h | ⟨e, h⟩⟩ := checkCancelled_cases span t
  · rw [h]
    exact ⟨ht.hooks, ht.options, ht.store⟩
  · rw [h]
    exact ⟨ht.hooks, ht.options, ht.store⟩

theorem takeStep_still (s : Session σ) (frame : Nat) (i : Instruction) :
    Keeps (Still s) (takeStep frame i) := by
  intro t ht
  rcases Store.observe_cases t.log.verbose t.store with ⟨view, seen⟩ | ⟨e, seen⟩
  · have stepped : takeStep frame i t = .ok () (t.noted frame i view) := by
      rw [takeStep_eq, Action.bind_of_ok (onStore_of_ok seen)]
      exact applyRules_eq (s := t.noted frame i view) ht.hooks _
    rw [stepped]
    exact ⟨ht.hooks, ht.options, ht.store⟩
  · rw [takeStep_of_error frame i seen]
    exact ht

theorem cell_still (s : Session σ) : Keeps (Still s) cell := by
  intro t ht
  cases hc : Store.cell t.store with
  | ok n store =>
    cases Store.cell_ok hc
    rw [cell_of_ok hc]
    exact ht
  | error e store =>
    cases Store.cell_error hc
    rw [cell_of_error hc]
    exact ht

theorem meets_worked {act : Action (Session σ) α} (h : Keeps (Still s) act) :
    Meets (Still s) act (fun _ => Still s) fun _ => Worked s :=
  h.mono_error fun _ _ h => h.worked

theorem proceed_worked (s : Session σ) (i : Instruction) (progress : Store.Progress) :
    Keeps (Worked s) (proceed i progress) := by
  cases progress with
  | done => exact (announce_unhooked (fun _ h => h.hooks) _).bind fun _ => .pure fun _ h => h
  | waiting => exact .pure fun _ h => h

theorem perform_worked {operation : Operation} (ho : s.Offers operation) :
    Meets (Still s) (onStore (Store.perform s.options.preallocate operation))
      (fun _ => Worked s) fun _ => Worked s := by
  intro t ht
  cases hp : Store.perform s.options.preallocate operation s.store with
  | ok progress store =>
    rw [onStore_of_ok (ht.store.symm ▸ hp)]
    exact ⟨ht.hooks, .inr ⟨operation, ho, (Action.final_of_ok hp).symm⟩⟩
  | error e store =>
    rw [onStore_of_error (ht.store.symm ▸ hp)]
    exact ⟨ht.hooks, .inr ⟨operation, ho, (Action.final_of_error hp).symm⟩⟩

theorem take_worked (frame : Nat) {i : Instruction}
    (hi : ∀ operation span, i = .leaf operation span → s.Offers operation) :
    Meets (Still s) (take frame i) (fun _ => Worked s) fun _ => Worked s := by
  refine (meets_worked (checkCancelled_still s _)).bind fun _ =>
    (meets_worked (takeStep_still s frame i)).bind fun _ =>
    (meets_worked (announce_unhooked (fun _ h => h.hooks) _)).bind fun _ => ?_
  cases i with
  | leaf operation span =>
    refine .get fun t ht => ?_
    have carried : Meets (Still s)
        (carryOut span (onStore (Store.perform s.options.preallocate operation)))
        (fun _ => Worked s) fun _ => Worked s := .restating (perform_worked (hi operation span rfl))
    have works := carried.bind fun progress => proceed_worked s (.leaf operation span) progress
    rw [ht.options]
    exact works.mono (fun _ h => h ▸ ht) (fun _ _ h => h) fun _ _ h => h
  | loop body span =>
    refine (meets_worked (cell_still s)).bind fun n => ?_
    have go := proceed_worked s (.loop body span) .done
    cases n with
    | zero => exact go.mono (fun _ h => h.worked) (fun _ _ h => h) fun _ _ h => h
    | succ n =>
      have entered : Meets (Still s) (modify (push (some span) body) : Action (Session σ) PUnit)
          (fun _ => Worked s) fun _ => Worked s := .modify fun t ht => ⟨ht.hooks, .inl ht.store⟩
      exact entered.bind fun _ => go

theorem comeRound_worked (span : Span) (body : List Instruction) :
    Meets (Still s) (comeRound span body) (fun _ => Worked s) fun _ => Worked s := by
  refine (meets_worked (cell_still s)).bind fun n => ?_
  cases n with
  | zero =>
    have left : Meets (Still s) (modify pop : Action (Session σ) PUnit) (fun _ => Worked s)
        fun _ => Worked s := by
      refine .modify fun t ht => ⟨?_, .inl (t.pop_store.trans ht.store)⟩
      exact (pop_same t (.refl t)).hooks.trans ht.hooks
    exact left.bind fun _ => .pure fun _ h => h
  | succ n =>
    have again : Meets (Still s) (modify (setRest body) : Action (Session σ) PUnit)
        (fun _ => Worked s) fun _ => Worked s := by
      refine .modify fun t ht => ⟨?_, .inl ((t.setRest_store body).trans ht.store)⟩
      exact (setRest_same t (.refl t) body).hooks.trans ht.hooks
    exact (meets_worked (checkCancelled_still s span)).bind fun _ => again.bind
      fun _ => .pure fun _ h => h

theorem askAgain_worked (span : Span) :
    Meets (Still s) (askAgain span) (fun _ => Worked s) fun _ => Worked s := by
  have received : Meets (Still s) (onStore Store.receive) (fun _ => Worked s) fun _ => Worked s :=
    perform_worked (.inl rfl)
  refine Meets.bind (Meets.restating ?_) fun progress => proceed_worked s _ progress
  exact (meets_worked (checkCancelled_still s span)).bind fun _ => received

/-- **A move works off at most one operation.** -/
theorem move_worked (hooks : s.hooks = {}) (mode : Mode) : Worked s ((move mode).final s) := by
  have still : Still s s := ⟨hooks, rfl, rfl⟩
  cases mode with
  | finished => exact still.worked
  | waiting span => exact (askAgain_worked span).final still
  | walking =>
    cases hs : s.stack with
    | nil =>
      have idle : move .walking s = .ok .finished s := by
        simp only [move, Action.get_bind, hs]
        rfl
      rw [Action.final_of_ok idle]
      exact still.worked
    | cons frame below =>
      cases hr : frame.rest with
      | nil =>
        have turned := move_nil hs hr
        unfold Action.final
        rw [turned]
        cases frame.loop with
        | none => exact still.worked
        | some span => exact (comeRound_worked span frame.body).final still
      | cons i rest =>
        have settled : Still s (s.setRest rest) :=
          ⟨(setRest_same s (.refl s) rest).hooks.trans hooks, s.setRest_options rest,
            s.setRest_store rest⟩
        have offered : ∀ operation span, i = .leaf operation span → s.Offers operation := by
          rintro operation span rfl
          exact .inr ⟨frame, below, span, rest, hs, hr⟩
        unfold Action.final
        rw [move_cons hs hr]
        exact (take_worked frame.id offered).final settled

/-! ## The programs on the stack -/

/-- Every frame on the stack is about a program in `Q`. -/
def Carries (Q : List Instruction → Prop) (stack : List Frame) : Prop :=
  ∀ frame ∈ stack, Q frame.body ∧ Q frame.rest

section carries

variable {Q : List Instruction → Prop}

theorem carries_push {body : List Instruction} (h : Carries Q s.stack) (hb : Q body)
    (loop : Option Span) : Carries Q (s.push loop body).stack :=
  List.forall_mem_cons.mpr ⟨⟨hb, hb⟩, h⟩

theorem carries_pop (h : Carries Q s.stack) : Carries Q s.pop.stack := by
  cases hs : s.stack with
  | nil => simpa only [pop, hs] using h
  | cons frame below =>
    rw [pop_stack hs]
    exact (List.forall_mem_cons.mp (hs ▸ h)).2

theorem carries_setRest {rest : List Instruction} (h : Carries Q s.stack) (hr : Q rest) :
    Carries Q (s.setRest rest).stack := by
  cases hs : s.stack with
  | nil => simpa only [setRest, hs] using h
  | cons frame below =>
    obtain ⟨first, below⟩ := List.forall_mem_cons.mp (hs ▸ h)
    rw [setRest_stack hs]
    exact List.forall_mem_cons.mpr ⟨⟨first.1, hr⟩, below⟩

variable (Q)

theorem indifferent_carries : Indifferent fun s : Session σ => Carries Q s.stack where
  store _ hs := hs
  checks _ hs := hs
  record _ _ _ _ hs := hs

variable {Q}

/-- A stack goes on carrying programs of a kind that is closed under tails and loop bodies. -/
theorem maintains_carries (hc : ∀ i rest, Q (i :: rest) → Q [i] ∧ Q rest)
    (hb : ∀ body span, Q [.loop body span] → Q body) :
    Maintains (σ := σ) (fun s => Carries Q s.stack) Q fun _ s => Carries Q s.stack where
  announce := (indifferent_carries Q).announce
  checkCancelled := (indifferent_carries Q).checkCancelled
  takeStep := (indifferent_carries Q).takeStep
  cell := (indifferent_carries Q).onStore _
  receive := (indifferent_carries Q).onStore _
  perform _ _ := (indifferent_carries Q).onStore _
  within _ h := h
  frame h hstack := h _ (hstack ▸ List.mem_cons_self)
  cons := hc _ _
  body := hb _ _
  setRest := carries_setRest
  push loop h hb := carries_push h hb loop
  pop := carries_pop

theorem maintains_eachLeaf (P : Operation → Prop) :
    Maintains (σ := σ) (fun s => Carries (EachLeaf P) s.stack) (EachLeaf P)
      fun _ s => Carries (EachLeaf P) s.stack :=
  maintains_carries (fun _ _ h => ⟨h.head, h.tail⟩) fun _ _ h => h.of_loop

end carries

/-! ## What a walk does to the store -/

variable {P : Operation → Prop}

/-- A session without hooks whose stack holds operations in `P` only. -/
structure Bare (P : Operation → Prop) (preallocated : Bool) (s : Session σ) : Prop where
  hooks : s.hooks = {}
  preallocate : s.options.preallocate = preallocated
  frames : Carries (EachLeaf P) s.stack

variable {preallocated : Bool}

theorem Bare.walkFor (h : Bare P preallocated s) (n : Nat) (mode : Mode) :
    Bare P preallocated ((walkFor n mode).final s) := by
  have same := ((maintains_same s).walkFor n mode).final (SameSettings.refl s)
  have carried := ((maintains_eachLeaf P).walkFor n mode).final h.frames
  exact ⟨same.hooks.trans h.hooks, (congrArg _ same.options).trans h.preallocate, carried⟩

/-- The operations that a session offers are those of its programs, and input. -/
theorem Bare.offers (h : Bare P preallocated s) (hi : P .input) {operation : Operation}
    (ho : s.Offers operation) : P operation := by
  obtain rfl | ⟨frame, below, span, rest, hstack, hrest⟩ := ho
  · exact hi
  · have leaves := (h.frames frame (hstack ▸ List.mem_cons_self)).2
    rw [hrest] at leaves
    exact leaves.of_leaf

/-- One more move of a walk works off at most one operation. -/
theorem Bare.walkFor_succ (h : Bare P preallocated s) (hi : P .input) (n : Nat) (mode : Mode) :
    let t := (Session.walkFor n mode).final s
    let u := (Session.walkFor (n + 1) mode).final s
    u.store = t.store ∨ ∃ operation, P operation ∧
      u.store = (Store.perform preallocated operation).final t.store := by
  intro t u
  have bare : Bare P preallocated t := h.walkFor n mode
  have more := walkFor_add n 1 mode s
  cases hn : Session.walkFor n mode s with
  | error e v =>
    have hu : u = t := by
      show (Session.walkFor (n + 1) mode).final s = (Session.walkFor n mode).final s
      rw [Action.final_of_error hn, Action.final_of_error (more.trans (Action.bind_of_error hn _))]
    exact .inl (congrArg _ hu)
  | ok mode' v =>
    have ht : t = v := Action.final_of_ok hn
    have hu : u = (move mode').final v := by
      show (Session.walkFor (n + 1) mode).final s = _
      unfold Action.final
      rw [more, Action.bind_of_ok hn, walkFor_one]
    rw [ht] at bare
    rw [hu, ht]
    refine (move_worked bare.hooks mode').store.imp_right ?_
    rintro ⟨operation, offered, hw⟩
    exact ⟨operation, bare.offers hi offered, bare.preallocate ▸ hw⟩

/-! ## Runs -/

/-- The store of a run after so many moves, or at its end if that comes before. -/
def storeAt (program : Program) (aliases : Option AliasTable) (s : Session σ) (n : Nat) : Store σ :=
  ((executeFor n program aliases).final s).store

section runs

variable {program : Program} (aliases : Option AliasTable) (hooks : s.hooks = {})
include hooks

/-- The store of a run is that of the walk from the opening store, if there is one. -/
theorem storeAt_eq (n : Nat) :
    storeAt program aliases s n = match opening program aliases s with
      | .ok _ store =>
        ((walkFor n .walking).final ((s.begin program aliases).withStore store)).store
      | .error _ store => store := by
  unfold storeAt Action.final
  rw [executeFor_eq hooks]
  cases ho : opening program aliases s with
  | error e store => rfl
  | ok a store =>
    have same := ((maintains_same _).walkFor n .walking).final
      (SameSettings.refl ((s.begin program aliases).withStore store))
    unfold Action.final at same
    dsimp only
    cases hw : walkFor n .walking ((s.begin program aliases).withStore store) with
    | error e t =>
      rw [hw] at same
      rw [conclude_error (same.hooks.trans hooks)]
    | ok mode t =>
      rw [hw] at same
      cases mode with
      | walking => rfl
      | waiting span => rfl
      | finished =>
        rw [conclude_finished (same.hooks.trans hooks)]
        exact t.pop_store

/-- **A run changes its store operation by operation.** -/
theorem storeAt_succ (hp : EachLeaf P program.instructions) (hi : P .input) (n : Nat) :
    storeAt program aliases s (n + 1) = storeAt program aliases s n ∨ ∃ operation, P operation ∧
      storeAt program aliases s (n + 1) =
        (Store.perform s.options.preallocate operation).final (storeAt program aliases s n) := by
  rw [storeAt_eq aliases hooks, storeAt_eq aliases hooks]
  cases ho : opening program aliases s with
  | error e store => exact .inl rfl
  | ok a store =>
    have bare : Bare P s.options.preallocate ((s.begin program aliases).withStore store) := by
      refine ⟨hooks, rfl, fun frame hm => ?_⟩
      cases List.mem_singleton.mp hm
      exact ⟨hp, hp⟩
    exact bare.walkFor_succ hi n .walking

/-- What every operation of the program keeps of a store, the run keeps. -/
theorem storeAt_keeps {I : Store σ → Prop} (hp : EachLeaf P program.instructions) (hi : P .input)
    (first : I (storeAt program aliases s 0))
    (next : ∀ operation, P operation → Keeps I (Store.perform s.options.preallocate operation))
    (n : Nat) : I (storeAt program aliases s n) := by
  induction n with
  | zero => exact first
  | succ n ih =>
    rcases storeAt_succ aliases hooks hp hi n with same | ⟨operation, ho, worked⟩
    · rw [same]
      exact ih
    · rw [worked]
      exact (next operation ho).final ih

end runs

end Session

end NamedTape
