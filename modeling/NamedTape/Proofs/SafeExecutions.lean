import NamedTape.Proofs.Executions
import NamedTape.Proofs.Safety

/-!
# Programs cannot break the machine

Whatever text a session without hooks is given to run, it never ends with a failure that it has to
take for its own, unless the text or the device asks for what is too much for the machine
(`runFor_never_internal`).

* `Secure`: the stack holds proper programs, and the store is safe. Every move keeps a session so.
* A program comes to its first instruction with a safe store: all its aliases have cells by then, if
  they are to have them from the start.
-/

namespace NamedTape

open NamedTape.Action (Keeps Meets)
open Instruction (EachLeaf)

namespace Session

variable {σ α : Type}

/-- If there is a cancel callback, it fails with ordinary faults only. -/
def CancelsOrdinarily (s : Session σ) : Prop :=
  ∀ answers, s.cancel = some answers → ∀ k e, answers k = .error e → e.Ordinary

/-- The session has proper programs on its stack and a safe store, and no hooks. -/
structure Secure (terms : Terms) (s : Session σ) : Prop where
  hooks : s.hooks = {}
  cancel : s.CancelsOrdinarily
  preallocate : s.options.preallocate = terms.preallocated
  store : terms.Safe s.store
  frames : ∀ frame ∈ s.stack,
    EachLeaf (Operation.Proper terms.names terms.most) frame.body ∧
      EachLeaf (Operation.Proper terms.names terms.most) frame.rest

/-- The action keeps a session secure, and has an excuse if it fails. -/
abbrev Secures (terms : Terms) (act : Action (Session σ) α) : Prop :=
  Meets (Secure terms) act (fun _ => Secure terms) fun e t =>
    Secure terms t ∧ terms.Excuses t.store.tape.size e

variable {terms : Terms}

/-! ## Parts of a move -/

theorem Secure.withStore {s : Session σ} (h : Secure terms s) {store : Store σ}
    (hs : terms.Safe store) : Secure terms { s with store } :=
  ⟨h.hooks, h.cancel, h.preallocate, hs, h.frames⟩

theorem Secure.noted {s : Session σ} (h : Secure terms s) (frame : Nat) (i : Instruction)
    (view : Option String) : Secure terms (s.noted frame i view) :=
  ⟨h.hooks, h.cancel, h.preallocate, h.store, h.frames⟩

theorem Secure.push {s : Session σ} (h : Secure terms s) {body : List Instruction}
    (hb : EachLeaf (Operation.Proper terms.names terms.most) body) (loop : Option Span) :
    Secure terms (s.push loop body) :=
  ⟨h.hooks, h.cancel, h.preallocate, h.store, List.forall_mem_cons.mpr ⟨⟨hb, hb⟩, h.frames⟩⟩

theorem Secure.pop {s : Session σ} (h : Secure terms s) : Secure terms s.pop := by
  unfold Session.pop
  split
  · exact h
  · next hs =>
    have frames := hs ▸ h.frames
    exact ⟨h.hooks, h.cancel, h.preallocate, h.store, (List.forall_mem_cons.mp frames).2⟩

theorem Secure.setRest {s : Session σ} (h : Secure terms s) {rest : List Instruction}
    (hr : EachLeaf (Operation.Proper terms.names terms.most) rest) :
    Secure terms (s.setRest rest) := by
  unfold Session.setRest
  split
  · exact h
  · next hs =>
    obtain ⟨first, below⟩ := List.forall_mem_cons.mp (hs ▸ h.frames)
    exact ⟨h.hooks, h.cancel, h.preallocate, h.store,
      List.forall_mem_cons.mpr ⟨⟨first.1, hr⟩, below⟩⟩

theorem onStore_secures {act : Action (Store σ) α} (h : terms.Admits act) :
    Secures terms (onStore act) := by
  refine meets_onStore (fun s a store hs ha => hs.withStore (h.ok hs.store ha))
    fun s e store hs ha => ?_
  obtain ⟨safe, excuse⟩ := h.error hs.store ha
  exact ⟨hs.withStore safe, excuse⟩

theorem announce_secures (notice : Notice) : Secures (σ := σ) terms (announce notice) := by
  intro s hs
  rw [announce_eq hs.hooks]
  exact hs

theorem checkCancelled_secures (span : Span) :
    Secures (σ := σ) terms (checkCancelled span) := by
  intro s hs
  simp only [checkCancelled]
  cases hc : s.cancel with
  | none => exact hs
  | some answers =>
    have asked : Secure terms { s with cancel := some answers, checks := s.checks + 1 } :=
      ⟨hs.hooks, hc ▸ hs.cancel, hs.preallocate, hs.store, hs.frames⟩
    cases ha : answers s.checks with
    | error failure =>
      simp only [ha]
      exact ⟨asked, .ordinary (hs.cancel answers hc s.checks failure ha)⟩
    | ok stop =>
      simp only [ha]
      cases stop with
      | false => exact asked
      | true => exact ⟨asked, .ordinary (.inr rfl)⟩

theorem takeStep_secures (hl : terms.limits.Legible) (frame : Nat) (i : Instruction) :
    Secures (σ := σ) terms (takeStep frame i) := by
  intro s hs
  obtain ⟨view, seen⟩ := hs.store.sound.observe_ok hl s.log.verbose
  rw [takeStep_eq, Action.bind_of_ok (onStore_of_ok seen)]
  have noted := hs.noted frame i view
  have stepped : (record frame i view >>= applyRules) s = .ok () (s.noted frame i view) :=
    applyRules_eq noted.hooks _
  exact stepped ▸ noted

/-- The parts of a move keep a session secure. -/
theorem maintains_secure (hl : terms.limits.Legible) (hd : terms.device.Tame) :
    Maintains (σ := σ) (Secure terms) (EachLeaf (Operation.Proper terms.names terms.most))
      (fun e t => Secure terms t ∧ terms.Excuses t.store.tape.size e) where
  announce := announce_secures
  checkCancelled := checkCancelled_secures
  takeStep := takeStep_secures hl
  cell := onStore_secures Terms.value_admits
  receive := onStore_secures (Terms.receive_admits hl hd)
  perform hs hi := hs.preallocate ▸ onStore_secures (Terms.perform_admits hl hd hi.of_leaf)
  within span h := ⟨h.1, h.2.within span⟩
  frame hs hstack := hs.frames _ (hstack ▸ List.mem_cons_self)
  cons h := ⟨h.head, h.tail⟩
  body h := h.of_loop
  setRest hs hr := hs.setRest hr
  push loop hs hb := hs.push hb loop
  pop hs := hs.pop

/-! ## Beginnings and ends -/

section begun

variable {s : Session σ} {program : Program} {most : Nat}

/-- What the failures of a run of the program from the session are measured by. -/
def outset (s : Session σ) (program : Program) (most : Nat) : Terms where
  limits := s.store.tape.limits
  most := most
  names := program.aliasNames
  preallocated := s.options.preallocate
  device := s.store.device

/-- A program finds a safe store at its first instruction, or there are not enough free cells for
its aliases. -/
theorem opening_safe (hv : s.store.tape.Viable) (program : Program) (most : Nat) :
    match opening program none s with
    | .ok _ store => (s.outset program most).Safe store
    | .error e store => e.Ordinary ∧ store.device = s.store.device := by
  have sound : ∀ aliases : AliasTable, aliases.Fits s.store.tape.clear.realign.size →
      ({ (s.begin program none).store with aliases } : Store σ).Sound s.store.tape.limits :=
    fun aliases h => ⟨hv.sound_realign, h⟩
  unfold opening
  cases hp : s.options.preallocate with
  | false =>
    exact ⟨sound _ (AliasTable.fits_clear _ _), fun h => absurd h (Bool.eq_false_iff.mp hp),
      Device.serves_refl _⟩
  | true =>
    have assigned : (s.begin program none).store.aliases.names =
      AliasTable.distinct program.aliasNames := rfl
    have fits := AliasTable.assignAll_keeps (s.begin program none).store.tape
      (s.begin program none).store.aliases (AliasTable.fits_clear _ _)
    rw [if_pos rfl]
    unfold Store.onAliases
    unfold AliasTable.assignAll at fits ⊢
    obtain ⟨t, ha, bound, -⟩ | ⟨name, t, ha⟩ := AliasTable.assignEach_cases
      (s.begin program none).store.tape (s.begin program none).store.aliases.names
      (s.begin program none).store.aliases
    · simp only [ha] at fits ⊢
      refine ⟨sound t fits, fun _ name hn => bound name ?_, Device.serves_refl _⟩
      rw [assigned, distinct_eq_eraseDups]
      exact List.mem_eraseDups.mpr hn
    · simp only [ha]
      exact ⟨.inl rfl, rfl⟩

theorem Secure.begin (hooks : s.hooks = {}) (cancel : s.CancelsOrdinarily)
    (hp : EachLeaf (Operation.Proper program.aliasNames most) program.instructions)
    {store : Store σ} (hs : (s.outset program most).Safe store) :
    Secure (s.outset program most) ((s.begin program none).withStore store) := by
  refine ⟨hooks, cancel, rfl, hs, fun frame hm => ?_⟩
  cases List.mem_singleton.mp hm
  exact ⟨hp, hp⟩

/-- The failure is a fault, and the session takes it for its own only if something was too much for
the machine. -/
def Excused (s : Session σ) (most size : Nat) (e : Raised) : Prop :=
  ∃ f, e = .fault f ∧ (f.cause.family = .internal → ∃ failure, f.cause = .unexpected failure ∧
    Exhausts s.store.tape.limits most s.store.device size failure)

theorem excused_of_ordinary {e : Raised} (h : e.Ordinary) (t : Session σ) (size : Nat) :
    Excused s most size (report t e) := by
  cases e with
  | fault f =>
    refine ⟨_, rfl, fun internal => ?_⟩
    rcases h with runtime | cancelled
    · cases runtime.symm.trans internal
    · cases cancelled.symm.trans internal
  | foreign failure => exact h.elim
  | interrupt => exact h.elim

theorem excused_of_excuses {size : Nat} {e : Raised}
    (h : (s.outset program most).Excuses size e) (t : Session σ) :
    Excused s most size (report t e) := by
  cases h with
  | ordinary h => exact excused_of_ordinary h t size
  | exhausted h => exact ⟨_, Raised.quoting_of_voiced h.voiced _, fun _ => ⟨_, rfl, h⟩⟩

/-- An execution of a proper program stays secure, and has an excuse if it fails. -/
theorem executeFor_secure (hooks : s.hooks = {}) (cancel : s.CancelsOrdinarily)
    (hd : s.store.device.Tame) (hv : s.store.tape.Viable)
    (hp : EachLeaf (Operation.Proper program.aliasNames most) program.instructions) (n : Nat) :
    match executeFor n program none s with
    | .ok _ t => Secure (s.outset program most) t
    | .error e t =>
      s.store.device.Serves t.store.device ∧ Excused s most t.store.tape.size e := by
  have opened := opening_safe hv program most
  rw [executeFor_eq hooks]
  cases ho : opening program none s with
  | error e store =>
    rw [ho] at opened
    refine ⟨?_, excused_of_ordinary opened.1 _ _⟩
    show s.store.device.Serves store.device
    rw [opened.2]
    exact Device.serves_refl _
  | ok a store =>
    rw [ho] at opened
    have begun := Secure.begin hooks cancel hp opened
    have walked := (maintains_secure hv.legible hd).walkFor n .walking _ begun
    dsimp only
    cases hw : walkFor n .walking ((s.begin program none).withStore store) with
    | error e t =>
      rw [hw] at walked
      obtain ⟨secure, excuse⟩ := walked
      rw [conclude_error secure.hooks]
      exact ⟨secure.store.device, excused_of_excuses excuse t⟩
    | ok mode t =>
      rw [hw] at walked
      cases mode with
      | finished =>
        rw [conclude_finished walked.hooks]
        exact walked.pop
      | walking => exact walked
      | waiting span => exact walked

end begun

/-- How a session stands while it runs what it was given as `s`: the pointer addresses a cell, the
bindings give different cells to different names, no write was refused, and a goto that comes next
can fail only if its alias is still to be given a cell. -/
structure Upright (s t : Session σ) : Prop where
  store : t.store.Sound s.store.tape.limits
  device : s.store.device.Serves t.store.device
  goto : ∀ frame below name span rest, t.stack = frame :: below →
    frame.rest = .leaf (.goto name) span :: rest →
    ∀ e u, Store.perform t.options.preallocate (.goto name) t.store = .error e u →
      e = .of (.noFreeCell name) ∧ t.options.preallocate = false

theorem Secure.upright {s t : Session σ} {program : Program} {most : Nat}
    (h : Secure (s.outset program most) t) : Upright s t where
  store := h.store.sound
  device := h.store.device
  goto := by
    intro frame below name span rest hstack hrest e u he
    have proper := (h.frames frame (hstack ▸ List.mem_cons_self)).2
    rw [hrest] at proper
    have goes := Terms.goto_meets (σ := σ) proper.of_leaf.known
    rw [h.preallocate] at he ⊢
    rcases Action.eq_error_of_bind he with he | ⟨a, v, -, he⟩
    · exact (goes.error h.store he).2
    · cases he

/-- A run of any text stays upright, and has an excuse if it fails. -/
theorem runFor_secure {s : Session σ} (hooks : s.hooks = {}) (cancel : s.CancelsOrdinarily)
    (hd : s.store.device.Tame) (hv : s.store.tape.Viable) (n : Nat) :
    match runFor n s with
    | .ok _ t => Upright s t
    | .error e t =>
      s.store.device.Serves t.store.device ∧ Excused s s.source.length t.store.tape.size e := by
  unfold runFor Session.read
  cases hr : s.options.read s.source s.filename with
  | error fault =>
    refine ⟨Device.serves_refl _, fault, rfl, fun internal => ?_⟩
    cases (family_of_read hr).symm.trans internal
  | ok program =>
    have executed := executeFor_secure hooks cancel hd hv (proper_of_read hr) n
    dsimp only
    cases he : executeFor n program none s with
    | error e t =>
      rw [he] at executed
      exact executed
    | ok mode t =>
      rw [he] at executed
      exact executed.upright

/-- **No text makes a session fail of its own.** Whatever the source of a session without hooks, and
whatever the options, the tape and the answers of a tame device:

* the session stands upright as long as the run goes on, and when it has ended;
* if the run fails, no write was refused, and the failure is not internal unless something was too
  much for the machine; on a machine without limits it never is. -/
theorem runFor_never_internal {s : Session σ} (hooks : s.hooks = {})
    (cancel : s.CancelsOrdinarily) (hd : s.store.device.Tame) (hv : s.store.tape.Viable)
    (n : Nat) :
    (∀ mode t, runFor n s = .ok mode t → Upright s t) ∧
    (∀ e t, runFor n s = .error e t → s.store.device.Serves t.store.device ∧
      Excused s s.source.length t.store.tape.size e) ∧
    (s.store.tape.limits = {} → ∀ e t, runFor n s = .error e t →
      ∃ f, e = .fault f ∧ f.cause.family ≠ .internal) := by
  have excused : ∀ e t, runFor n s = .error e t → s.store.device.Serves t.store.device ∧
      Excused s s.source.length t.store.tape.size e := fun e t h => by
    have run := runFor_secure hooks cancel hd hv n
    rwa [h] at run
  refine ⟨fun mode t h => ?_, excused, fun unlimited e t h => ?_⟩
  · have run := runFor_secure hooks cancel hd hv n
    rwa [h] at run
  · obtain ⟨-, f, hf, reason⟩ := excused e t h
    refine ⟨f, hf, fun internal => ?_⟩
    obtain ⟨failure, -, exhausts⟩ := reason internal
    exact not_exhausts_unlimited (unlimited ▸ exhausts)

/-- About to count down in one cell and up in another, which is written each time. -/
def labelled : Session Unit where
  source := "{a} ++ [- {b} +. {a}]"
  store :=
    { tape := .confined 4 .wrap .refuse
      aliases := {}
      device := .ofReadings .stream []
      host := () }

theorem runFor_labelled_never_internal :
    labelled.hooks = {} ∧ labelled.CancelsOrdinarily ∧ labelled.store.device.Tame ∧
      labelled.store.tape.Viable ∧
      ∃ t, runFor 30 labelled = .ok .finished t ∧ Upright labelled t := by
  have hooks : labelled.hooks = {} := rfl
  have cancel : labelled.CancelsOrdinarily := nofun
  have tame : labelled.store.device.Tame :=
    ⟨fun k e h => by cases h; exact .inl rfl, fun _ => rfl⟩
  have viable : labelled.store.tape.Viable := ⟨by decide, by decide, Limits.legible_standard⟩
  have ended : (finished? (runFor 30 labelled)).isSome = true := by decide +kernel
  obtain ⟨t, ht⟩ := Option.isSome_iff_exists.mp ended
  have hrun := eq_ending_of_finished? ht
  have upright := (runFor_never_internal hooks cancel tame viable 30).1 _ t hrun
  exact ⟨hooks, cancel, tame, viable, t, hrun, upright⟩

/-- About to be given a value that is too long for the text of its refusal. -/
def glutted : Session Unit :=
  { labelled with
    source := ","
    store := { labelled.store with
      device := .ofReadings .memory [.byte (Int.pow 10 4300)] } }

/-- A value that a tame device answers can end a run internally on a machine with limits. -/
theorem internal_glutted :
    glutted.hooks = {} ∧ glutted.CancelsOrdinarily ∧ glutted.store.device.Tame ∧
      glutted.store.tape.Viable ∧
      ∃ f t, runFor 2 glutted = .error (.fault f) t ∧ f.cause = .unexpected .tooManyDigits ∧
        f.cause.family = .internal := by
  have tame : glutted.store.device.Tame := by
    refine ⟨fun k e h => ?_, fun _ => rfl⟩
    cases k with
    | zero => cases h
    | succ k =>
      cases h
      exact .inl rfl
  have viable : glutted.store.tape.Viable := ⟨by decide, by decide, Limits.legible_standard⟩
  have shown : faults (fun f _ => decide (f.cause = .unexpected .tooManyDigits))
      (runFor 2 glutted) = true := by decide +kernel
  obtain ⟨f, t, hrun, cause⟩ := eq_error_of_faults shown
  have cause := of_decide_eq_true cause
  exact ⟨rfl, nofun, tame, viable, f, t, hrun, cause, cause ▸ rfl⟩

end Session

end NamedTape
