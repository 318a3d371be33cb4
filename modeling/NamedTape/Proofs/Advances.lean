import NamedTape.Proofs.Attribution
import NamedTape.Proofs.Strides

/-!
# What a run does to its stack and its log

Handlers, rules, devices and cancel callbacks are called in the middle of a move, but they leave
alone the stack, the log and the numbers of frames (`Unmoved`). So whatever they do, a move that
succeeds does one of a few things to these three (`Advances`), and one that fails has come part of
the way (`Balks`). A run is its preparation, which leaves them as they are, and then such moves
(`attempt_succ`); when it is closed, only a run that completes takes its own frame off the stack
(`closes_of_ending`).
-/

namespace NamedTape

namespace Session

open NamedTape.Action (Keeps Meets)

variable {σ : Type} {s t u : Session σ} {frame : Nat} {i : Instruction} {mode : Mode}
  {program : Program} {aliases : Option AliasTable} {n : Nat}

/-- The second session has the stack, the log and the next frame number of the first. -/
structure Unmoved (s t : Session σ) : Prop where
  stack : t.stack = s.stack
  log : t.log = s.log
  nextFrame : t.nextFrame = s.nextFrame

theorem Unmoved.refl (s : Session σ) : Unmoved s s := ⟨rfl, rfl, rfl⟩

theorem Unmoved.push (h : Unmoved s t) (loop : Option Span) (body : List Instruction) :
    Unmoved (s.push loop body) (t.push loop body) where
  stack := by simp only [Session.push, h.stack, h.nextFrame]
  log := h.log
  nextFrame := congrArg (· + 1) h.nextFrame

theorem Unmoved.setRest (h : Unmoved s t) (rest : List Instruction) :
    Unmoved (s.setRest rest) (t.setRest rest) := by
  obtain ⟨stack, log, nextFrame⟩ := h
  unfold Session.setRest
  rw [stack]
  cases s.stack with
  | nil => exact ⟨stack, log, nextFrame⟩
  | cons frame below => exact ⟨rfl, log, nextFrame⟩

theorem Unmoved.pop (h : Unmoved s t) : Unmoved s.pop t.pop := by
  obtain ⟨stack, log, nextFrame⟩ := h
  unfold Session.pop
  rw [stack]
  cases s.stack with
  | nil => exact ⟨stack, log, nextFrame⟩
  | cons frame below => exact ⟨rfl, congrArg (·.forget frame.id) log, nextFrame⟩

theorem aloof_unmoved (s : Session σ) : Aloof (Unmoved s) where
  store _ h := ⟨h.stack, h.log, h.nextFrame⟩
  checks _ h := ⟨h.stack, h.log, h.nextFrame⟩

/-! ## Taking an instruction -/

/-- The step that takes the instruction is on record. -/
def Noted (frame : Nat) (i : Instruction) (s t : Session σ) : Prop :=
  ∃ view, Unmoved (s.noted frame i view) t

/-- The instruction is on record, and it is a loop whose body has got a frame. -/
def Entered (frame : Nat) (i : Instruction) (s t : Session σ) : Prop :=
  ∃ body span view, i = .loop body span ∧
    Unmoved ((s.noted frame i view).push (some span) body) t

/-- The instruction has been taken. -/
abbrev Taken (frame : Nat) (i : Instruction) (s t : Session σ) : Prop :=
  Noted frame i s t ∨ Entered frame i s t

theorem aloof_noted : Aloof (Noted frame i s) where
  store store := fun ⟨view, h⟩ => ⟨view, (aloof_unmoved _).store store h⟩
  checks checks := fun ⟨view, h⟩ => ⟨view, (aloof_unmoved _).checks checks h⟩

theorem aloof_entered : Aloof (Entered frame i s) where
  store store := fun ⟨body, span, view, loop, h⟩ =>
    ⟨body, span, view, loop, (aloof_unmoved _).store store h⟩
  checks checks := fun ⟨body, span, view, loop, h⟩ =>
    ⟨body, span, view, loop, (aloof_unmoved _).checks checks h⟩

theorem Aloof.proceed {P : Session σ → Prop} (h : Aloof P) (i : Instruction)
    (progress : Store.Progress) :
    Meets P (proceed i progress) (fun mode t => mode ≠ .finished ∧ P t) fun _ => P := by
  cases progress with
  | done => exact (h.announce _).bind fun _ => .pure fun _ ht => ⟨nofun, ht⟩
  | waiting => exact .pure fun _ ht => ⟨nofun, ht⟩

theorem takeStep_noted : Meets (Unmoved s) (takeStep frame i) (fun _ => Noted frame i s)
    fun _ t => Unmoved s t ∨ Noted frame i s t := by
  have recorded : ∀ view, Meets (Unmoved s) (record frame i view) (fun _ => Noted frame i s)
      fun _ t => Unmoved s t ∨ Noted frame i s t := by
    rintro view t ⟨stack, log, nextFrame⟩
    have log' : (t.noted frame i view).log = (s.noted frame i view).log := by
      simp only [noted, log]
    exact ⟨view, stack, log', nextFrame⟩
  have ruled : ∀ tick, Meets (Noted frame i s) (applyRules tick) (fun _ => Noted frame i s)
      fun _ t => Unmoved s t ∨ Noted frame i s t := fun tick =>
    (aloof_noted.applyRules tick).mono_error fun _ _ h => .inr h
  have seen : Meets (Unmoved s) (onStore (Store.observe s.log.verbose)) (fun _ => Unmoved s)
      fun _ t => Unmoved s t ∨ Noted frame i s t :=
    ((aloof_unmoved s).onStore _).mono_error fun _ _ h => .inl h
  intro t ht
  rw [takeStep_eq, ht.log]
  exact seen.bind (fun view => (recorded view).bind ruled) t ht

/-- The instruction is carried out once it is on record and its handlers have been told. -/
theorem carryOut_taken : Meets (Noted frame i s)
    (match i with
      | .leaf operation span => do
        let preallocated := (← get).options.preallocate
        proceed i (← carryOut span (onStore (Store.perform preallocated operation)))
      | .loop body span => do
        if (← cell) ≠ 0 then modify (push (some span) body)
        proceed i .done : Action (Session σ) Mode)
    (fun mode t => mode ≠ .finished ∧ Taken frame i s t) fun _ => Taken frame i s := by
  have noted : ∀ progress, Meets (Noted frame i s) (proceed i progress)
      (fun mode t => mode ≠ .finished ∧ Taken frame i s t) fun _ => Taken frame i s :=
    fun progress => (aloof_noted.proceed i progress).mono (fun _ h => h)
      (fun _ _ h => ⟨h.1, .inl h.2⟩) fun _ _ h => .inl h
  have entered : Meets (Entered frame i s) (proceed i .done)
      (fun mode t => mode ≠ .finished ∧ Taken frame i s t) fun _ => Taken frame i s :=
    (aloof_entered.proceed i .done).mono (fun _ h => h)
      (fun _ _ h => ⟨h.1, .inr h.2⟩) fun _ _ h => .inr h
  cases i with
  | leaf operation span =>
    refine .get fun u hu => ?_
    have carried : Keeps (Noted frame (.leaf operation span) s)
        (carryOut span (onStore (Store.perform u.options.preallocate operation))) :=
      .restating (aloof_noted.onStore _)
    have worked : Meets (· = u) (carryOut span (onStore (Store.perform u.options.preallocate
        operation))) (fun _ => Noted frame (.leaf operation span) s)
        fun _ => Taken frame (.leaf operation span) s :=
      carried.mono (fun _ same => same ▸ hu) (fun _ _ h => h) fun _ _ h => .inl h
    exact worked.bind noted
  | loop body span =>
    have looked : Meets (Noted frame (.loop body span) s) cell
        (fun _ => Noted frame (.loop body span) s) fun _ => Taken frame (.loop body span) s :=
      (aloof_noted.onStore _).mono_error fun _ _ h => .inl h
    refine looked.bind fun value => ?_
    cases value with
    | zero => exact noted .done
    | succ value =>
      have pushed : Meets (Noted frame (.loop body span) s) (modify (push (some span) body))
          (fun _ => Entered frame (.loop body span) s)
          fun _ => Taken frame (.loop body span) s :=
        .modify fun _ ⟨view, h⟩ => ⟨body, span, view, rfl, h.push _ _⟩
      exact pushed.bind fun _ => entered

/-- **Taking an instruction.** -/
theorem take_taken (frame : Nat) (i : Instruction) (s : Session σ) :
    Meets (Unmoved s) (take frame i) (fun mode t => mode ≠ .finished ∧ Taken frame i s t)
      fun _ t => Unmoved s t ∨ Taken frame i s t := by
  have asked : Meets (Unmoved s) (checkCancelled i.span) (fun _ => Unmoved s)
      fun _ t => Unmoved s t ∨ Taken frame i s t :=
    ((aloof_unmoved s).checkCancelled _).mono_error fun _ _ h => .inl h
  have stepped : Meets (Unmoved s) (takeStep frame i) (fun _ => Noted frame i s)
      fun _ t => Unmoved s t ∨ Taken frame i s t :=
    takeStep_noted.mono_error fun _ _ h => h.imp_right .inl
  have told : Meets (Noted frame i s) (announce (.before i)) (fun _ => Noted frame i s)
      fun _ t => Unmoved s t ∨ Taken frame i s t :=
    (aloof_noted.announce _).mono_error fun _ _ h => .inr (.inl h)
  exact asked.bind fun _ => stepped.bind fun _ => told.bind fun _ =>
    carryOut_taken.mono_error fun _ _ h => .inr h

/-! ## Moves -/

/-- What a move does to the stack and the log, and where the walk stands after it. -/
inductive Advances (s : Session σ) : Mode → Session σ → Prop
  | ends (last : ∀ frame ∈ s.stack.head?, frame.loop = none) : Advances s .finished s
  | stays {mode : Mode} {t : Session σ} (going : mode ≠ .finished) (h : Unmoved s t) :
    Advances s mode t
  | takes {frame : Frame} {below : List Frame} {i : Instruction} {rest : List Instruction}
    {mode : Mode} {t : Session σ} (going : mode ≠ .finished) (stack : s.stack = frame :: below)
    (upcoming : frame.rest = i :: rest) (h : Taken frame.id i (s.setRest rest) t) :
    Advances s mode t
  | repeats {frame : Frame} {below : List Frame} {t : Session σ} (stack : s.stack = frame :: below)
    (spent : frame.rest = []) (h : Unmoved (s.setRest frame.body) t) : Advances s .walking t
  | leaves {frame : Frame} {below : List Frame} {t : Session σ} (stack : s.stack = frame :: below)
    (loop : frame.loop.isSome) (h : Unmoved s.pop t) : Advances s .walking t

/-- What a move has done to the stack and the log that fails. -/
inductive Balks (s t : Session σ) : Prop
  | stays (h : Unmoved s t)
  /-- The instruction is not on record yet. -/
  | readies {frame : Frame} {below : List Frame} {i : Instruction} {rest : List Instruction}
    (stack : s.stack = frame :: below) (upcoming : frame.rest = i :: rest)
    (h : Unmoved (s.setRest rest) t)
  | takes {frame : Frame} {below : List Frame} {i : Instruction} {rest : List Instruction}
    (stack : s.stack = frame :: below) (upcoming : frame.rest = i :: rest)
    (h : Taken frame.id i (s.setRest rest) t)

theorem comeRound_advances {frame : Frame} {below : List Frame} {span : Span}
    (stack : s.stack = frame :: below) (spent : frame.rest = []) (loop : frame.loop = some span) :
    Meets (Unmoved s) (comeRound span frame.body) (Advances s) fun _ => Balks s := by
  have looked : Meets (Unmoved s) cell (fun _ => Unmoved s) fun _ => Balks s :=
    ((aloof_unmoved s).onStore _).mono_error fun _ _ h => .stays h
  refine looked.bind fun value => ?_
  cases value with
  | zero =>
    have left : Meets (Unmoved s) (modify Session.pop) (fun _ => Advances s .walking)
        fun _ => Balks s := .modify fun _ h => .leaves stack (loop ▸ rfl) h.pop
    exact left.bind fun _ => .pure fun _ h => h
  | succ value =>
    have asked : Meets (Unmoved s) (checkCancelled span) (fun _ => Unmoved s) fun _ => Balks s :=
      ((aloof_unmoved s).checkCancelled span).mono_error fun _ _ h => .stays h
    have again : Meets (Unmoved s) (modify (Session.setRest frame.body))
        (fun _ => Advances s .walking) fun _ => Balks s :=
      .modify fun _ h => .repeats stack spent (h.setRest _)
    exact asked.bind fun _ => again.bind fun _ => .pure fun _ h => h

theorem askAgain_advances (span : Span) (s : Session σ) :
    Meets (Unmoved s) (askAgain span) (Advances s) fun _ => Balks s := by
  have unmoved := aloof_unmoved s
  have asked : Keeps (Unmoved s) (carryOut span do checkCancelled span; onStore Store.receive) :=
    .restating ((unmoved.checkCancelled span).bind fun _ => unmoved.onStore _)
  exact (asked.bind fun progress => unmoved.proceed _ progress).mono (fun _ h => h)
    (fun _ _ h => .stays h.1 h.2) fun _ _ h => .stays h

/-- **What moves do to the stack and the log.** -/
theorem move_advances (going : mode ≠ .finished) (s : Session σ) :
    Meets (· = s) (move mode) (Advances s) fun _ => Balks s := by
  intro t same
  obtain rfl : s = t := Eq.symm same
  cases mode with
  | finished => exact absurd rfl going
  | waiting span => exact askAgain_advances span s s (.refl s)
  | walking =>
    cases stack : s.stack with
    | nil =>
      rw [move_empty stack]
      exact .ends fun frame h => by simp [stack] at h
    | cons frame below =>
      cases upcoming : frame.rest with
      | cons i rest =>
        have taken := take_taken frame.id i _ _ (.refl (s.setRest rest))
        rw [move_cons stack upcoming]
        cases ht : take frame.id i (s.setRest rest) with
        | ok mode t =>
          rw [ht] at taken
          exact .takes taken.1 stack upcoming taken.2
        | error e t =>
          rw [ht] at taken
          exact taken.elim (.readies stack upcoming) (.takes stack upcoming)
      | nil =>
        rw [move_nil stack upcoming]
        cases loop : frame.loop with
        | some span => exact comeRound_advances stack upcoming loop s (.refl s)
        | none =>
          refine .ends fun frame' h => ?_
          rw [stack, List.head?_cons, Option.mem_some_iff] at h
          exact h ▸ loop

/-! ## Runs -/

/-- The part of a run before its closing event is its preparation, and then one move after
another. -/
theorem attempt_succ (n : Nat) (program : Program) (s : Session σ) :
    attempt (n + 1) program s = (attempt n program >>= move) s := by
  have one : walkFor (σ := σ) 1 = move := funext fun mode => funext fun s => walkFor_one mode s
  unfold attempt
  cases hp : prepare program s with
  | error e t => simp only [bind, EStateM.bind, hp]
  | ok a t =>
    have more := walkFor_add n 1 .walking t
    rw [one] at more
    simp only [bind, EStateM.bind, hp] at more ⊢
    exact more

/-- Preparing a program leaves the stack and the log as they are. -/
theorem prepare_unmoved (program : Program) (s : Session σ) :
    Keeps (Unmoved s) (prepare program) :=
  (aloof_unmoved s).prepare program

/-- How a run ends within so many moves. -/
inductive Closed (program : Program) (aliases : Option AliasTable) (s : Session σ) (n : Nat) :
    EStateM.Result Raised (Session σ) Unit → Prop
  | completed {t u : Session σ}
    (h : attempt n program (s.begin program aliases) = .ok .finished t) (same : Unmoved t.pop u) :
    Closed program aliases s n (.ok () u)
  /-- A handler has failed that was told of the end. -/
  | disturbed {e : Raised} {t u : Session σ}
    (h : attempt n program (s.begin program aliases) = .ok .finished t) (same : Unmoved t u) :
    Closed program aliases s n (.error e u)
  | failed {raised e : Raised} {t u : Session σ}
    (h : attempt n program (s.begin program aliases) = .error raised t) (same : Unmoved t u) :
    Closed program aliases s n (.error e u)

theorem closeEnded_unmoved (s : Session σ) : Meets (Unmoved s) closeEnded
    (fun _ => Unmoved s.pop) fun _ => Unmoved s :=
  ((aloof_unmoved s).announce _).bind fun _ =>
    (Meets.modify (Q := fun _ => Unmoved s.pop) fun _ h => h.pop).bind fun _ => .pure fun _ h => h

theorem closeFailed_unmoved (raised : Raised) (s : Session σ) :
    Meets (Unmoved s) (closeFailed raised) (fun _ _ => False) fun _ => Unmoved s :=
  ((aloof_unmoved s).announce _).bind fun _ => .get fun _ h => .throw fun _ same => same ▸ h

theorem closed_of_ending {r : EStateM.Result Raised (Session σ) Unit}
    (h : executeFor n program aliases s = ending r) : Closed program aliases s n r := by
  have ended : conclude (attempt n program (s.begin program aliases)) = ending r := h
  cases ha : attempt n program (s.begin program aliases) with
  | ok mode t =>
    rw [ha] at ended
    cases mode with
    | walking => cases r <;> cases ended
    | waiting span => cases r <;> cases ended
    | finished =>
      have closing : closeEnded t = ending r := ended
      cases r with
      | ok a u => exact .completed ha ((closeEnded_unmoved t).ok (.refl t) closing)
      | error e u => exact .disturbed ha ((closeEnded_unmoved t).error (.refl t) closing)
  | error raised t =>
    rw [ha] at ended
    by_cases hr : raised = .interrupt
    · subst hr
      cases r with
      | ok a u => cases ended
      | error e u =>
        cases ended
        exact .failed ha (.refl t)
    · rw [conclude_failed hr] at ended
      have closing := closeFailed_unmoved raised t
      cases r with
      | ok a u => exact (closing.ok (.refl t) ended).elim
      | error e u => exact .failed ha (closing.error (.refl t) ended)

end Session

end NamedTape
