import NamedTape.Proofs.Chronicle
import NamedTape.Proofs.Executions

/-!
# Turns

What one move of a watched walk does to the stack, to the log and to the chronicle (`Turn`),
whatever its hooks and its cancel callback do. An instruction that is taken and recorded is told of
in order: the rules that fire at its step, that it comes next, and that it is over. Only hooks that
fail can cut this short before the instruction has been told of as the next.
-/

namespace NamedTape

/-- The rules that fire at the step of an instruction. -/
def Hooks.dues {σ : Type} (hooks : StoreHooks σ) (step : Int) (i : Instruction) :
    List (Happening σ) :=
  (hooks.due step).map (.fired · ⟨step, i.rule, i.span⟩)

/-- What is told before an instruction is carried out that is recorded as the step. -/
def Hooks.onset {σ : Type} (hooks : StoreHooks σ) (step : Int) (i : Instruction) :
    List (Happening σ) :=
  hooks.dues step i ++ [.told (.before i)]

namespace Session

open NamedTape.Action (Keeps Meets Parallel)
open Store (Alike observe)

variable {σ : Type} {hooks : StoreHooks σ} {s t u : Session (Chronicled σ)}
  {told told' : List (Happening σ)}

/-- From the first session to the second, the hooks have been called for what is told. Store and
checks may have changed, stack and log have not. -/
structure Hears (told : List (Happening σ)) (s t : Session (Chronicled σ)) : Prop where
  hooks : t.hooks = s.hooks
  log : t.log = s.log
  stack : t.stack = s.stack
  nextFrame : t.nextFrame = s.nextFrame
  chronicle : t.chronicle = s.chronicle ++ told

theorem Hears.refl (s : Session (Chronicled σ)) : Hears [] s s :=
  ⟨rfl, rfl, rfl, rfl, (List.append_nil _).symm⟩

theorem Hears.withStore (h : Hears told s t) {store : Store (Chronicled σ)}
    (hs : store.host.2 = t.chronicle ++ told') : Hears (told ++ told') s { t with store } :=
  ⟨h.hooks, h.log, h.stack, h.nextFrame, hs.trans (by rw [h.chronicle, List.append_assoc])⟩

theorem Hears.push (h : Hears told s t) (loop : Option Span) (body : List Instruction) :
    Hears told (s.push loop body) (t.push loop body) where
  hooks := h.hooks
  log := h.log
  stack := by simp only [Session.push, h.stack, h.nextFrame]
  nextFrame := congrArg (· + 1) h.nextFrame
  chronicle := h.chronicle

theorem Hears.setRest (h : Hears told s t) (rest : List Instruction) :
    Hears told (s.setRest rest) (t.setRest rest) := by
  obtain ⟨hooks, log, stack, nextFrame, chronicle⟩ := h
  unfold Session.setRest
  rw [stack]
  cases s.stack with
  | nil => exact ⟨hooks, log, stack, nextFrame, chronicle⟩
  | cons frame below => exact ⟨hooks, log, rfl, nextFrame, chronicle⟩

theorem Hears.pop (h : Hears told s t) : Hears told s.pop t.pop := by
  obtain ⟨hooks, log, stack, nextFrame, chronicle⟩ := h
  unfold Session.pop
  rw [stack]
  cases s.stack with
  | nil => exact ⟨hooks, log, stack, nextFrame, chronicle⟩
  | cons frame below => exact ⟨hooks, congrArg (·.forget frame.id) log, rfl, nextFrame, chronicle⟩

/-! ## The parts of a move -/

/-- Work on the store that does not depend on the host tells nothing. -/
theorem onStore_hears {α : Type} {act : Action (Store (Chronicled σ)) α}
    (h : ∀ host, Parallel (Alike fun _ host' => host' = host) act act) :
    Keeps (Hears told s) (onStore act) := by
  have silent : ∀ {t : Session (Chronicled σ)} {store : Store (Chronicled σ)}, Hears told s t →
      store.host = t.store.host → Hears told s { t with store } := fun {t store} ht hs => by
    have same : Hears (told ++ []) s { t with store } :=
      ht.withStore ((congrArg Prod.snd hs).trans (List.append_nil _).symm)
    rwa [List.append_nil] at same
  refine meets_onStore (fun t a store ht ha => silent ht ?_) fun t e store ht ha => silent ht ?_
  · exact (Store.keeps_host (h t.store.host)).ok rfl ha
  · exact (Store.keeps_host (h t.store.host)).error rfl ha

theorem cell_hears : Keeps (Hears told s) cell := onStore_hears fun _ => Store.onTape_alike _

theorem checkCancelled_hears (span : Span) : Keeps (Hears told s) (checkCancelled span) := by
  rintro t ⟨own, log, stack, nextFrame, chronicle⟩
  obtain ⟨checks, asked | ⟨e, asked⟩⟩ := checkCancelled_cases span t
  · rw [asked]
    exact ⟨own, log, stack, nextFrame, chronicle⟩
  · rw [asked]
    exact ⟨own, log, stack, nextFrame, chronicle⟩

section hooked

variable (own : s.hooks = hooks.chronicled)
include own

theorem announce_hears (notice : Notice) :
    Meets (Hears told s) (announce notice) (fun _ => Hears (told ++ [.told notice]) s)
      fun _ t => Hears (told ++ [.told notice]) s t ∧ ¬ hooks.Return := by
  refine .get fun t ht => .restating ?_
  rw [ht.hooks, own]
  have tells : Meets (·.host.2 = t.chronicle) (hooks.chronicled.emit (· notice) notice.event)
      _ _ := Hooks.emit_tells notice
  refine meets_onStore ?_ ?_
  · rintro _ _ store rfl he
    exact ht.withStore (tells.ok rfl he)
  · rintro _ e store rfl he
    obtain ⟨chronicle, fails⟩ := tells.error rfl he
    exact ⟨ht.withStore chronicle, fails⟩

theorem applyRules_hears (tick : Tick) :
    Meets (Hears told s) (applyRules tick)
      (fun _ => Hears (told ++ (hooks.due tick.step).map (.fired · tick)) s)
      fun _ t => (∃ some, some <+: (hooks.due tick.step).map (.fired · tick) ∧
        Hears (told ++ some) s t) ∧ ¬ hooks.Return := by
  refine .get fun t ht => .restating ?_
  rw [ht.hooks, own]
  have tells : Meets (·.host.2 = t.chronicle) (hooks.chronicled.afterStep (· tick) tick.step)
      _ _ := Hooks.afterStep_tells tick
  refine meets_onStore ?_ ?_
  · rintro _ _ store rfl he
    exact ht.withStore (tells.ok rfl he)
  · rintro _ e store rfl he
    obtain ⟨⟨some, hsome, chronicle⟩, fails⟩ := tells.error rfl he
    exact ⟨⟨some, hsome, ht.withStore chronicle⟩, fails⟩

end hooked

/-! ## Taking an instruction -/

/-- Where an instruction has stopped that was to be taken: before it was recorded, or when all had
been told that comes before it is carried out, or where the hooks have failed. -/
inductive Fails (hooks : StoreHooks σ) (frame : Nat) (i : Instruction)
    (s t : Session (Chronicled σ)) : Prop
  | unrecorded (h : Hears [] s t)
  | faulted {view : Option String}
    (h : Hears (hooks.onset s.log.next i) (s.noted frame i view) t)
  | disturbed {some : List (Happening σ)} (h : ¬ hooks.Return)
    (within : some <+: hooks.onset s.log.next i ++ [.told (.after i)])
    (chronicle : t.chronicle = s.chronicle ++ some)

/-- How an instruction has been taken: it waits for a byte, or it is over, or it is a loop whose
body comes next. -/
inductive Takes (hooks : StoreHooks σ) (frame : Nat) (i : Instruction)
    (s : Session (Chronicled σ)) : Mode → Session (Chronicled σ) → Prop
  | waits {span : Span} {view : Option String} {t : Session (Chronicled σ)}
    (hi : i = .leaf .input span)
    (h : Hears (hooks.onset s.log.next i) (s.noted frame i view) t) :
    Takes hooks frame i s (.waiting span) t
  | done {view : Option String} {t : Session (Chronicled σ)}
    (h : Hears (hooks.onset s.log.next i ++ [.told (.after i)]) (s.noted frame i view) t) :
    Takes hooks frame i s .walking t
  | enters {body : List Instruction} {span : Span} {view : Option String}
    {t : Session (Chronicled σ)} (hi : i = .loop body span)
    (h : Hears (hooks.onset s.log.next i ++ [.told (.after i)])
      ((s.noted frame i view).push (some span) body) t) :
    Takes hooks frame i s .walking t

/-- An instruction that is over once its last handlers have been called. -/
theorem announce_after_hears (s s' : Session (Chronicled σ)) {frame : Nat} {i : Instruction}
    (own : s'.hooks = hooks.chronicled)
    (same : s'.chronicle = s.chronicle) {Q : Mode → Session (Chronicled σ) → Prop}
    (hQ : ∀ t, Hears (hooks.onset s.log.next i ++ [.told (.after i)]) s' t → Q .walking t) :
    Meets (Hears (hooks.onset s.log.next i) s') (proceed i .done) Q
      fun _ => Fails hooks frame i s := by
  refine ((announce_hears own (.after i)).mono_error ?_).bind fun _ => .pure fun t ht => hQ t ht
  rintro _ t ⟨ht, fails⟩
  exact .disturbed fails List.prefix_rfl (ht.chronicle.trans (by rw [same]))

section taking

variable {frame : Nat} {i : Instruction} (own : s.hooks = hooks.chronicled)
include own

theorem takeStep_hears :
    Meets (Hears [] s) (takeStep frame i)
      (fun _ t => ∃ view, Hears (hooks.dues s.log.next i) (s.noted frame i view) t)
      fun _ => Fails hooks frame i s := by
  have recorded : ∀ view, Meets (Hears [] s) (record frame i view)
      (fun tick t => tick = ⟨s.log.next, i.rule, i.span⟩ ∧ Hears [] (s.noted frame i view) t)
      fun _ => Fails hooks frame i s := by
    rintro view t ⟨own, log, stack, nextFrame, chronicle⟩
    have log' : (t.noted frame i view).log = (s.noted frame i view).log := by
      simp only [noted, log]
    exact ⟨by rw [← log], own, log', stack, nextFrame, chronicle⟩
  intro t ht
  rw [takeStep_eq]
  refine (Meets.mono (onStore_hears fun _ => Store.observe_alike _) (fun _ hs => hs)
    (fun _ _ hs => hs) fun _ _ h => .unrecorded h).bind (fun view => (recorded view).bind
    fun tick => ?_) t ht
  rintro u ⟨rfl, hu⟩
  refine ((applyRules_hears (s := s.noted frame i view) own _).mono (fun _ hs => hs)
    (fun _ v hv => ⟨view, hv⟩) ?_) u hu
  rintro _ v ⟨⟨some, within, hv⟩, fails⟩
  exact .disturbed fails ((within.trans (List.prefix_append _ _)).trans (List.prefix_append _ _))
    hv.chronicle

/-- A leaf whose handlers have been told that it comes next. -/
theorem perform_hears {operation : Operation} {span : Span} {view : Option String} :
    Meets (Hears (hooks.onset s.log.next (.leaf operation span))
        (s.noted frame (.leaf operation span) view))
      (get >>= fun u => carryOut span (onStore (Store.perform u.options.preallocate operation)) >>=
        proceed (.leaf operation span))
      (Takes hooks frame (.leaf operation span) s)
      fun _ => Fails hooks frame (.leaf operation span) s := by
  refine .get fun u hu => ?_
  have performed : Keeps (Hears (hooks.onset s.log.next (.leaf operation span))
      (s.noted frame (.leaf operation span) view))
      (onStore (Store.perform u.options.preallocate operation)) :=
    onStore_hears fun _ => Store.perform_alike _ _
  intro v hv
  obtain rfl : v = u := hv
  have worked := performed v hu
  cases hp : Store.perform v.options.preallocate operation v.store with
  | error e store =>
    have failed := onStore_of_error hp
    rw [failed] at worked
    rw [Action.bind_of_error (carryOut_of_error span failed)]
    exact .faulted worked
  | ok progress store =>
    have acted := onStore_of_ok hp
    rw [acted] at worked
    rw [Action.bind_of_ok (carryOut_of_ok span acted)]
    cases progress with
    | done =>
      exact announce_after_hears s (s.noted _ _ view) own rfl (fun _ h => Takes.done h) _ worked
    | waiting =>
      cases perform_waiting hp
      exact .waits rfl worked

/-- A loop whose handlers have been told that it comes next. -/
theorem enter_hears {body : List Instruction} {span : Span} {view : Option String} :
    Meets (Hears (hooks.onset s.log.next (.loop body span)) (s.noted frame (.loop body span) view))
      (do
        if (← cell) ≠ 0 then modify (push (some span) body)
        proceed (.loop body span) .done)
      (Takes hooks frame (.loop body span) s) fun _ => Fails hooks frame (.loop body span) s := by
  refine (Meets.mono cell_hears (fun _ h => h) (fun _ _ h => h)
    fun _ _ h => .faulted h).bind fun n => ?_
  cases n with
  | zero => exact announce_after_hears s (s.noted _ _ view) own rfl fun _ h => .done h
  | succ n =>
    have entered : Meets (Hears (hooks.onset s.log.next (.loop body span))
        (s.noted frame (.loop body span) view)) (modify (push (some span) body))
        (fun _ => Hears (hooks.onset s.log.next (.loop body span))
          ((s.noted frame (.loop body span) view).push (some span) body))
        fun _ => Fails hooks frame (.loop body span) s := .modify fun u hu => hu.push _ _
    exact entered.bind fun _ => announce_after_hears s
      ((s.noted _ _ view).push (some span) body) own rfl fun _ h => .enters rfl h

variable (frame) (i) in
/-- **Taking an instruction.** -/
theorem take_hears : Meets (· = s) (take frame i) (Takes hooks frame i s)
    fun _ => Fails hooks frame i s := by
  have asked : Meets (· = s) (checkCancelled i.span) (fun _ => Hears [] s)
      fun _ => Fails hooks frame i s :=
    (checkCancelled_hears i.span).mono (fun _ hs => hs ▸ .refl s) (fun _ _ ht => ht)
      fun _ _ ht => .unrecorded ht
  refine asked.bind fun _ => ?_
  refine (takeStep_hears own).bind fun _ => ?_
  rintro t ⟨view, ht⟩
  have own' : (s.noted frame i view).hooks = hooks.chronicled := own
  refine (((announce_hears own' (.before i)).mono_error ?_).bind fun _ => ?_) t ht
  · rintro _ u ⟨hu, -⟩
    exact .faulted hu
  cases i with
  | leaf operation span => exact perform_hears own
  | loop body span => exact enter_hears own

end taking

/-! ## Moves -/

/-- What a move does, as far as the stack, the log and the chronicle go. -/
inductive Turn (hooks : StoreHooks σ) (s : Session (Chronicled σ)) :
    Mode → EStateM.Result Raised (Session (Chronicled σ)) Mode → Prop
  | ended : Turn hooks s .finished (.ok .finished s)
  | spent (h : ∀ frame below, s.stack = frame :: below → frame.rest = [] ∧ frame.loop = none) :
    Turn hooks s .walking (.ok .finished s)
  | takes {frame : Frame} {below : List Frame} {i : Instruction} {rest : List Instruction}
    {mode : Mode} {t : Session (Chronicled σ)} (stack : s.stack = frame :: below)
    (upcoming : frame.rest = i :: rest) (h : Takes hooks frame.id i (s.setRest rest) mode t) :
    Turn hooks s .walking (.ok mode t)
  | fails {frame : Frame} {below : List Frame} {i : Instruction} {rest : List Instruction}
    {e : Raised} {t : Session (Chronicled σ)} (stack : s.stack = frame :: below)
    (upcoming : frame.rest = i :: rest) (h : Fails hooks frame.id i (s.setRest rest) t) :
    Turn hooks s .walking (.error e t)
  | repeats {frame : Frame} {below : List Frame} {t : Session (Chronicled σ)}
    (stack : s.stack = frame :: below) (spent : frame.rest = []) (loop : frame.loop.isSome)
    (h : Hears [] (s.setRest frame.body) t) : Turn hooks s .walking (.ok .walking t)
  | leaves {frame : Frame} {below : List Frame} {t : Session (Chronicled σ)}
    (stack : s.stack = frame :: below) (spent : frame.rest = []) (loop : frame.loop.isSome)
    (h : Hears [] s.pop t) : Turn hooks s .walking (.ok .walking t)
  /-- The end of a loop's body is where the walk stops. -/
  | balks {e : Raised} {t : Session (Chronicled σ)} (h : Hears [] s t) :
    Turn hooks s .walking (.error e t)
  | receives {span : Span} {t : Session (Chronicled σ)}
    (h : Hears [.told (.after (.leaf .input span))] s t) :
    Turn hooks s (.waiting span) (.ok .walking t)
  | waits {span : Span} {t : Session (Chronicled σ)} (h : Hears [] s t) :
    Turn hooks s (.waiting span) (.ok (.waiting span) t)
  | starves {span : Span} {e : Raised} {t : Session (Chronicled σ)} (h : Hears [] s t) :
    Turn hooks s (.waiting span) (.error e t)
  | disturbed {span : Span} {e : Raised} {t : Session (Chronicled σ)} (h : ¬ hooks.Return)
    (chronicle : t.chronicle = s.chronicle ++ [.told (.after (.leaf .input span))]) :
    Turn hooks s (.waiting span) (.error e t)

section turning

variable (own : s.hooks = hooks.chronicled)

theorem turn_return {frame : Frame} {below : List Frame} (stack : s.stack = frame :: below)
    (spent : frame.rest = []) : Turn hooks s .walking (move .walking s) := by
  cases hl : frame.loop with
  | none =>
    rw [move_nil stack spent, hl]
    refine .spent fun frame' below' stack' => ?_
    cases stack.symm.trans stack'
    exact ⟨spent, hl⟩
  | some span =>
    have loop : frame.loop.isSome := hl ▸ rfl
    rw [move_nil stack spent, hl]
    show Turn hooks s .walking (comeRound span frame.body s)
    unfold comeRound
    cases hc : cell s with
    | error e t =>
      rw [Action.bind_of_error hc]
      exact .balks (cell_hears.error (.refl s) hc)
    | ok n t =>
      have ht : Hears [] s t := cell_hears.ok (.refl s) hc
      rw [Action.bind_of_ok hc]
      cases n with
      | zero => exact .leaves stack spent loop ht.pop
      | succ n =>
        show Turn hooks s .walking ((checkCancelled span >>= fun _ =>
          modify (setRest frame.body) >>= fun _ => pure Mode.walking : Action _ Mode) t)
        cases ha : checkCancelled span t with
        | error e u =>
          rw [Action.bind_of_error ha]
          exact .balks ((checkCancelled_hears span).error ht ha)
        | ok a u =>
          rw [Action.bind_of_ok ha]
          exact .repeats stack spent loop (((checkCancelled_hears span).ok ht ha).setRest _)

include own

theorem turn_take {frame : Frame} {below : List Frame} {i : Instruction}
    {rest : List Instruction} (stack : s.stack = frame :: below)
    (upcoming : frame.rest = i :: rest) : Turn hooks s .walking (move .walking s) := by
  have own' : (s.setRest rest).hooks = hooks.chronicled :=
    (setRest_same s (.refl s) rest).hooks.trans own
  have taken := take_hears frame.id i own' _ rfl
  rw [move_cons stack upcoming]
  cases ht : take frame.id i (s.setRest rest) with
  | ok mode t =>
    rw [ht] at taken
    exact .takes stack upcoming taken
  | error e t =>
    rw [ht] at taken
    exact .fails stack upcoming taken

theorem turn_ask (span : Span) : Turn hooks s (.waiting span) (move (.waiting span) s) := by
  have asked : Keeps (Hears [] s) (carryOut span do checkCancelled span; onStore Store.receive) :=
    .restating ((checkCancelled_hears span).bind fun _ =>
      onStore_hears fun _ => Store.receive_alike)
  show Turn hooks s (.waiting span) (askAgain span s)
  unfold askAgain
  cases ha : carryOut span (do checkCancelled span; onStore Store.receive) s with
  | error e t =>
    rw [Action.bind_of_error ha]
    exact .starves (asked.error (.refl s) ha)
  | ok progress t =>
    have ht := asked.ok (.refl s) ha
    rw [Action.bind_of_ok ha]
    cases progress with
    | waiting => exact .waits ht
    | done =>
      have announced : Meets (Hears [] s) (announce (.after (.leaf .input span)))
          (fun _ => Hears [.told (.after (.leaf .input span))] s) _ := announce_hears own _
      show Turn hooks s (.waiting span) ((announce (.after (.leaf .input span)) >>= fun _ =>
        pure Mode.walking : Action _ Mode) t)
      cases hb : announce (.after (.leaf .input span)) t with
      | ok a u =>
        rw [Action.bind_of_ok hb]
        exact .receives (announced.ok ht hb)
      | error e u =>
        rw [Action.bind_of_error hb]
        obtain ⟨hu, fails⟩ := announced.error ht hb
        exact .disturbed fails hu.chronicle

/-- **Turns.** -/
theorem turn (mode : Mode) : Turn hooks s mode (move mode s) := by
  cases mode with
  | finished => exact .ended
  | waiting span => exact turn_ask own span
  | walking =>
    cases stack : s.stack with
    | nil =>
      rw [move_empty stack]
      exact .spent fun frame below h => by cases stack.symm.trans h
    | cons frame below =>
      cases rest : frame.rest with
      | nil => exact turn_return stack rest
      | cons i later => exact turn_take own stack rest

end turning

/-! ## Starting and closing -/

/-- What preparing a program does: it fails without a word if an alias gets no cell, and else it
tells of the start. -/
inductive Prepares (hooks : StoreHooks σ) (program : Program) (s : Session (Chronicled σ)) :
    EStateM.Result Raised (Session (Chronicled σ)) Unit → Prop
  | unopened {e : Raised} {store : Store (Chronicled σ)}
    (h : (if s.options.preallocate then Store.onAliases AliasTable.assignAll else pure ())
      s.store = .error e store) (same : Hears [] s (s.withStore store)) :
    Prepares hooks program s (.error e (s.withStore store))
  | opened {store : Store (Chronicled σ)} {t : Session (Chronicled σ)}
    (h : (if s.options.preallocate then Store.onAliases AliasTable.assignAll else pure ())
      s.store = .ok () store) (tells : Hears [.told (.started program)] s t) :
    Prepares hooks program s (.ok () t)
  | disturbed {e : Raised} {t : Session (Chronicled σ)} (h : ¬ hooks.Return)
    (tells : Hears [.told (.started program)] s t) : Prepares hooks program s (.error e t)

section closing

variable (own : s.hooks = hooks.chronicled)
include own

theorem prepares (program : Program) : Prepares hooks program s (prepare program s) := by
  have first : Keeps (Hears [] s) (onStore (if s.options.preallocate then
      Store.onAliases AliasTable.assignAll else pure ())) :=
    onStore_hears fun _ => Store.assign_alike _
  rw [prepare_eq_announce]
  cases ha : (if s.options.preallocate then Store.onAliases AliasTable.assignAll else pure ())
      s.store with
  | error e store => exact .unopened ha (first.error (.refl s) (onStore_of_error ha))
  | ok a store =>
    have opened : Hears [] s (s.withStore store) := first.ok (.refl s) (onStore_of_ok ha)
    have announced := announce_hears own (.started program) _ opened
    dsimp only
    cases hb : announce (.started program) (s.withStore store) with
    | ok b t =>
      rw [hb] at announced
      exact .opened ha announced
    | error e t =>
      rw [hb] at announced
      exact .disturbed announced.2 announced.1

/-- A walk that has come to its end is closed by the end of the program. -/
theorem closeEnded_hears : Meets (Hears [] s) closeEnded
    (fun mode t => mode = .finished ∧ ∃ u, Hears [.told .ended] s u ∧ t = u.pop)
    fun _ t => Hears [.told .ended] s t ∧ ¬ hooks.Return := by
  refine (announce_hears own .ended).bind fun _ => ?_
  exact Meets.bind (Q := fun _ t => ∃ u, Hears [.told .ended] s u ∧ t = u.pop)
    (.modify fun t ht => ⟨t, ht, rfl⟩) fun _ => .pure fun _ ht => ⟨rfl, ht⟩

/-- A failure is announced, and then reported. -/
theorem closeFailed_hears (failure : Raised) : Meets (Hears [] s) (closeFailed failure)
    (fun _ _ => False) fun e t => Hears [.told (.failed failure)] s t ∧
      (hooks.Return → e = report t failure) := by
  refine ((announce_hears own (.failed failure)).mono_error
    fun _ _ ht => ⟨ht.1, fun returns => absurd returns ht.2⟩).bind fun _ => .get fun t ht => ?_
  refine .throw fun u same => ?_
  obtain rfl : u = t := same
  exact ⟨ht, fun _ => rfl⟩

end closing

end Session

end NamedTape
