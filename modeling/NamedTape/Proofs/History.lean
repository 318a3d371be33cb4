import NamedTape.Proofs.Attribution
import NamedTape.Proofs.Coincidence
import NamedTape.Proofs.Points

/-!
# What a session forgets

An execution does not depend on what its session has run before. Two quiet sessions that log alike
and give the same answers to what the device is asked from now on, on tapes of one size with the
same rules, execute a program in the same way, whatever their cells and bindings hold, wherever their
pointers stand, and whatever is left in their logs and on their stacks (`history_is_forgotten`).

* A tape that does not grow keeps its size, and a table whose names all have their addresses from
  the start does not get to know more of them. So executing a program once more repeats its result.
-/

namespace NamedTape

open NamedTape.Action (FailsInPlace Keeps Meets Tallies Tally)

/-! ## Devices that have been used -/

/-- What a device has been used for: how often it has been asked, and what it has been given. -/
structure Device.Use where
  reads : Nat := 0
  writes : Nat := 0
  output : Array UInt8 := #[]

namespace Device

/-- The device after it has been used. -/
def after (d : Device) (use : Use) : Device :=
  { d with
    reads := d.reads + use.reads
    writes := d.writes + use.writes
    output := d.output ++ use.output }

/-- The device as one that has not been used yet, with the answers that are still to come. -/
def fresh (d : Device) : Device where
  sink := d.sink
  readings n := d.readings (d.reads + n)
  refusals n := d.refusals (d.writes + n)

variable {d d' : Device}

theorem after_nothing (d : Device) : d.after {} = d := by
  rw [after, Array.append_empty]
  rfl

theorem after_written (d : Device) (use : Use) (byte : UInt8) :
    { d.after use with
      writes := d.writes + use.writes + 1
      output := (d.output ++ use.output).push byte } =
    d.after { use with writes := use.writes + 1, output := use.output.push byte } := by
  simp only [after, Array.push_append, Nat.add_assoc]

/-- Both devices have been used for the same. -/
def UsedAlike (first second d d' : Device) : Prop :=
  ∃ use, d = first.after use ∧ d' = second.after use

section fresh

variable {first second : Device} (h : second.fresh = first.fresh)
include h

theorem read_usedAlike :
    Tallies (UsedAlike first second) Eq Device.read Device.read := by
  rintro _ _ ⟨use, rfl, rfl⟩
  have reading : (second.after use).readings (second.after use).reads =
      (first.after use).readings (first.after use).reads := congrFun (congrArg readings h) use.reads
  have asked : UsedAlike first second
      { first.after use with reads := first.reads + use.reads + 1 }
      { second.after use with reads := second.reads + use.reads + 1 } :=
    ⟨{ use with reads := use.reads + 1 }, rfl, rfl⟩
  unfold Device.read
  rw [reading]
  cases (first.after use).readings (first.after use).reads with
  | byte value => exact .ok asked
  | notYet => exact .ok asked
  | fails failure => exact .error asked rfl

theorem write_usedAlike (value : Int) :
    Tallies (UsedAlike first second) Eq (Device.write value) (Device.write value) := by
  rintro _ _ ⟨use, rfl, rfl⟩
  have refusal : (second.after use).refusals (second.after use).writes =
      (first.after use).refusals (first.after use).writes :=
    congrFun (congrArg refusals h) use.writes
  have sink : (second.after use).sink = (first.after use).sink :=
    show second.fresh.sink = first.fresh.sink from congrArg Device.sink h
  have asked : UsedAlike first second
      { first.after use with writes := first.writes + use.writes + 1 }
      { second.after use with writes := second.writes + use.writes + 1 } :=
    ⟨{ use with writes := use.writes + 1 }, rfl, rfl⟩
  unfold Device.write
  rw [refusal]
  cases (first.after use).refusals (first.after use).writes with
  | some failure => exact .error asked rfl
  | none =>
    dsimp only
    split
    · exact .ok ⟨_, first.after_written use _, second.after_written use _⟩
    · exact .error asked (by rw [sink])

end fresh

end Device

/-! ## Tapes and tables that are not changed in kind -/

/-- The second tape has the size, the rules and the limits of the first one. -/
structure Tape.SameMake (t t' : Tape) : Prop where
  size : t'.size = t.size
  cellRule : t'.cellRule = t.cellRule
  edgeRule : t'.edgeRule = t.edgeRule
  limits : t'.limits = t.limits

namespace Tape

variable {t t' : Tape}

theorem SameMake.trans {t'' : Tape} (h : t.SameMake t') (h' : t'.SameMake t'') :
    t.SameMake t'' :=
  ⟨h'.size.trans h.size, h'.cellRule.trans h.cellRule, h'.edgeRule.trans h.edgeRule,
    h'.limits.trans h.limits⟩

/-- What is left of a tape that is cleared is how it was made. -/
theorem SameMake.clear (h : t.SameMake t') : t'.clear.realign = t.clear.realign := by
  unfold Tape.clear Tape.realign
  rw [h.size, h.cellRule, h.edgeRule, h.limits]

theorem sameMake_clear (t : Tape) : t.SameMake t.clear.realign :=
  ⟨Array.size_replicate, rfl, rfl, rfl⟩

section keeps

variable (t₀ : Tape)

theorem sameMake_storing (t : Tape) (i : Nat) (cell : UInt8) :
    t.SameMake { t with cells := t.cells.setIfInBounds i cell } :=
  ⟨Array.size_setIfInBounds, rfl, rfl, rfl⟩

theorem sameMake_pointing (t : Tape) (pointer : Int) : t.SameMake (t.pointing pointer) :=
  ⟨rfl, rfl, rfl, rfl⟩

theorem shift_keepsMake (delta : Int) : Keeps t₀.SameMake (shift delta) := by
  refine .of_failsInPlace (failsInPlace_shift delta) fun t ht _ t' h => ?_
  obtain ⟨i, cell, rfl⟩ := stored_of_shift h
  exact ht.trans (t.sameMake_storing i cell)

theorem setValue_keepsMake (value : Int) : Keeps t₀.SameMake (setValue value) := by
  refine .of_failsInPlace (failsInPlace_setValue value) fun t ht _ t' h => ?_
  obtain ⟨i, cell, rfl⟩ := stored_of_setValue h
  exact ht.trans (t.sameMake_storing i cell)

theorem moveTo_keepsMake (address : Int) : Keeps t₀.SameMake (moveTo address) := by
  refine .of_failsInPlace (failsInPlace_moveTo address) fun t ht _ t' h => ?_
  rw [pointing_of_moveTo h]
  exact ht.trans (t.sameMake_pointing address)

variable {t₀} (hg : t₀.edgeRule ≠ .grow)
include hg

theorem moveLeft_keepsMake (count : Int) : Keeps t₀.SameMake (moveLeft count) := by
  refine .of_failsInPlace (failsInPlace_moveLeft count) fun t ht _ t' h => ?_
  rcases moved_of_moveLeft h with ⟨pointer, rfl⟩ | ⟨grows, -⟩
  · exact ht.trans (t.sameMake_pointing pointer)
  · exact absurd (ht.edgeRule.symm.trans grows) hg

theorem moveRight_keepsMake (count : Int) : Keeps t₀.SameMake (moveRight count) := by
  refine .of_failsInPlace (failsInPlace_moveRight count) fun t ht _ t' h => ?_
  rcases moved_of_moveRight h with ⟨pointer, rfl⟩ | ⟨grows, -⟩
  · exact ht.trans (t.sameMake_pointing pointer)
  · exact absurd (ht.edgeRule.symm.trans grows) hg

end keeps

end Tape

namespace AliasTable

variable {t : AliasTable} {name : String}

/-- A known name stays among the known ones when it is given an address, and no other joins
them. -/
theorem assign_names (tape : Tape) (h : name ∈ t.names) :
    ((assign tape name).final t).names = t.names := by
  obtain ⟨_, -, ha⟩ | ⟨free, -, -, -, ha⟩ | ⟨-, ha⟩ := assign_cases tape name t
  · rw [Action.final_of_ok ha]
  · rw [Action.final_of_ok ha, insert, if_pos (List.contains_iff_mem.mpr h)]
  · rw [Action.final_of_error ha]

theorem assignEach_names (tape : Tape) (names known : List String)
    (h : ∀ name ∈ names, name ∈ known) :
    Keeps (fun t => t.names = known) (assignEach tape names) := by
  induction names with
  | nil => exact .pure fun _ ht => ht
  | cons name rest ih =>
    have given : Keeps (fun t : AliasTable => t.names = known) (assign tape name) := by
      intro t ht
      have names := assign_names tape (ht ▸ h name List.mem_cons_self)
      cases ha : assign tape name t with
      | ok address t' => exact (Action.final_of_ok ha ▸ names).trans ht
      | error e t' => exact (Action.final_of_error ha ▸ names).trans ht
    have first : Keeps (fun t : AliasTable => t.names = known) (discard (assign tape name)) :=
      Meets.map (R := fun _ (t : AliasTable) => t.names = known) given
    exact first.bind fun _ => ih fun other ho => h other (List.mem_cons_of_mem name ho)

end AliasTable

namespace Store

variable {σ : Type}

/-- The tape is of the make; the known names are the given ones, if all had addresses from the
start. -/
structure Kind (tape : Tape) (preallocated : Bool) (names : List String) (s : Store σ) : Prop where
  tape : tape.SameMake s.tape
  names : preallocated = true → s.aliases.names = names

variable {tape : Tape} {preallocated : Bool} {names : List String}

theorem onTape_keepsKind {act : Action Tape Unit} (h : Keeps tape.SameMake act) :
    Keeps (Kind (σ := σ) tape preallocated names) (onTape act) :=
  meets_onTape (fun _ _ _ hs ha => ⟨h.ok hs.tape ha, hs.names⟩)
    fun _ _ _ hs ha => ⟨h.error hs.tape ha, hs.names⟩

theorem onDevice_keepsKind {α : Type} (act : Action Device α) :
    Keeps (Kind (σ := σ) tape preallocated names) (onDevice act) :=
  meets_onDevice (fun _ _ _ hs _ => ⟨hs.tape, hs.names⟩) fun _ _ _ hs _ => ⟨hs.tape, hs.names⟩

theorem seek_keepsKind (name : String) :
    Keeps (Kind (σ := σ) tape preallocated names) (onAliases (seek preallocated name)) := by
  have kept : ∀ s : Store σ, Kind tape preallocated names s → preallocated = true →
      ((seek preallocated name s.tape).final s.aliases).names = names := by
    intro s hs hp
    subst hp
    unfold Action.final seek
    cases s.aliases.resolve? name with
    | some _ => exact hs.names rfl
    | none => exact hs.names rfl
  exact meets_onAliases
    (fun s _ _ hs ha => ⟨hs.tape, fun hp => Action.final_of_ok ha ▸ kept s hs hp⟩)
    fun s _ _ hs ha => ⟨hs.tape, fun hp => Action.final_of_error ha ▸ kept s hs hp⟩

theorem value_keepsKind :
    Keeps (Kind (σ := σ) tape preallocated names) (onTape Tape.value) := by
  intro s hs
  have looked := cell_eq s
  unfold cell at looked
  rw [looked]
  cases s.tape.slot? with
  | some i => exact hs
  | none => exact hs

/-- Operations leave the make of a tape that does not grow, and add no known name if all have
addresses. -/
theorem perform_keepsKind (hg : tape.edgeRule ≠ .grow) (operation : Operation) :
    Keeps (Kind (σ := σ) tape preallocated names) (perform preallocated operation) := by
  have done : Keeps (Kind (σ := σ) tape preallocated names)
      (pure Progress.done : Action (Store σ) Progress) := .pure fun _ hs => hs
  cases operation with
  | counted kind count =>
    rw [perform_counted]
    refine .bind ?_ fun _ => done
    cases kind with
    | add => exact onTape_keepsKind (tape.shift_keepsMake count)
    | subtract => exact onTape_keepsKind (tape.shift_keepsMake (-count))
    | left =>
      have moved := Tape.moveLeft_keepsMake hg count
      exact meets_moveLeft (fun s t hs ha => ⟨moved.ok hs.tape ha, hs.names⟩) fun _ _ hs _ => hs
    | right => exact onTape_keepsKind (Tape.moveRight_keepsMake hg count)
  | input =>
    refine (onDevice_keepsKind Device.read).bind fun reading => ?_
    cases reading with
    | some value => exact (onTape_keepsKind (tape.setValue_keepsMake value)).bind fun _ => done
    | none => exact .pure fun _ hs => hs
  | output => exact value_keepsKind.bind fun _ => (onDevice_keepsKind _).bind fun _ => done
  | goto name =>
    have gone : Keeps (Kind (σ := σ) tape preallocated names) (Store.goto preallocated name) :=
      (seek_keepsKind name).bind fun address => onTape_keepsKind (tape.moveTo_keepsMake address)
    exact gone.bind fun _ => done
  | blank => exact .throw fun _ hs => hs

end Store

namespace Session

open Device (UsedAlike)
open Store (Kind)
open Store.Pairing (level)

variable {σ τ : Type} {program : Program} {aliases aliases' : Option AliasTable} {s : Session σ}
  {s' : Session τ}

/-! ## Openings -/

theorem tape_of_opening {store : Store σ} (ho : opening program aliases s = .ok () store) :
    store.tape = s.store.tape.clear.realign := by
  unfold opening at ho
  split at ho
  · unfold Store.onAliases at ho
    split at ho <;> cases ho
    rfl
  · cases ho
    rfl

/-- A program cannot be prepared only if a cell is missing for an alias. -/
theorem error_of_opening {e : Raised} {store : Store σ}
    (ho : opening program aliases s = .error e store) : ∃ name, e = .of (.noFreeCell name) := by
  unfold opening at ho
  split at ho
  · unfold Store.onAliases at ho
    split at ho <;> cases ho
    next assigned =>
      rcases AliasTable.assignEach_cases _ _ _ with ⟨_, h, -⟩ | ⟨name, _, h⟩
      · cases assigned.symm.trans h
      · cases assigned.symm.trans h
        exact ⟨name, rfl⟩
  · cases ho

/-- A tape that has been cleared can be shown. -/
theorem snapshot_clear {t : Tape} (h : 0 < t.size) :
    ∃ text, Tape.snapshot t.clear.realign = .ok text t.clear.realign := by
  have write : t.limits.canWrite 0 = true := by
    unfold Limits.canWrite
    cases t.limits.digits with
    | none => rfl
    | some digits => exact decide_eq_true (Nat.pow_pos (Nat.succ_pos 9))
  have slot : t.clear.realign.slot? = some 0 := by
    have size : t.clear.realign.size = t.size := Array.size_replicate
    unfold Tape.slot?
    rw [size, show t.clear.realign.pointer = 0 from rfl, if_pos (Int.le_refl 0),
      if_pos (Int.natCast_pos.mpr h)]
    rfl
  unfold Tape.snapshot
  rw [slot, show t.clear.realign.limits.canWrite t.clear.realign.pointer = true from write]
  exact ⟨_, rfl⟩

/-- What fails before the first step is a fault, which owes nothing to earlier steps. -/
theorem attributed_of_failsEarly (hs : 0 < s.store.tape.size) {e : Raised}
    (h : FailsEarly program aliases s e) (span span' : Option Span) :
    e.attributed span = e.attributed span' := by
  rcases h with ⟨store, ho⟩ | ⟨store, ho, unseen⟩
  · obtain ⟨name, rfl⟩ := error_of_opening ho
    rfl
  · -- The first look is at a tape that has just been cleared, which can be shown.
    exfalso
    obtain ⟨text, shown⟩ := snapshot_clear hs
    rw [← tape_of_opening ho] at shown
    unfold Store.observe at unseen
    cases hv : s.log.verbose with
    | false =>
      rw [hv] at unseen
      cases unseen
    | true =>
      rw [hv] at unseen
      cases (Action.map_of_ok (Store.onTape_of_ok shown) some).symm.trans unseen

/-! ## Sessions with a history -/

/-- The names that are known when the program is executed with the table, or with a new one. -/
def knownNames (program : Program) (aliases : Option AliasTable) : List String :=
  (aliases.getD (.ofNames program.aliasNames)).names

/-- The second session is set up as the first one for the program. All else may differ: cells,
pointer and origin, bindings, log and stack. -/
structure SetUpAlike (program : Program) (aliases : Option AliasTable) (s : Session σ)
    (aliases' : Option AliasTable) (s' : Session τ) : Prop where
  quiet : s'.Quiet
  verbose : s'.log.verbose = s.log.verbose
  preallocate : s'.options.preallocate = s.options.preallocate
  tape : s.store.tape.SameMake s'.store.tape
  names : s.options.preallocate = true → knownNames program aliases' = knownNames program aliases
  /-- What the device answers from now on. -/
  device : s'.store.device.fresh = s.store.device.fresh

theorem SetUpAlike.coincide (h : SetUpAlike program aliases s aliases' s') (hq : s.Quiet)
    (hs : 0 < s.store.tape.size) :
    Coincide (level (UsedAlike s.store.device s'.store.device)) program aliases s program aliases'
      s' := by
  have hs' : 0 < s'.store.tape.size := by
    rw [h.tape.size]
    exact hs
  have devices : UsedAlike s.store.device s'.store.device s.store.device s'.store.device :=
    ⟨{}, (Device.after_nothing _).symm, (Device.after_nothing _).symm⟩
  have abreast : Abreast ((level (UsedAlike s.store.device s'.store.device)).along Eq) program
      aliases s program aliases' s' := {
    quiet := hq
    quiet' := h.quiet
    verbose := h.verbose
    preallocate := h.preallocate
    mirrors := Instruction.mirrors_of_eachLeaf (fun _ _ => rfl) _ (Instruction.eachLeaf_true _)
    marches := Store.Pairing.level_marches
      (Store.Lockstep.leads_of_tallies (Store.input_tallies _ (Device.read_usedAlike h.device)))
      (Device.write_usedAlike h.device)
    opening := opening_tally (Store.Pairing.names_level _) h.tape.clear.symm devices h.preallocate
      fun hp => (h.names hp).trans (List.map_id _).symm
    early := fun _ early => attributed_of_failsEarly hs' early _ _ }
  exact abreast.coincide_along

/-! ## The same program once more -/

/-- An execution without hooks leaves the settings of its session. -/
theorem executeFor_settings (hooks : s.hooks = {}) (n : Nat) :
    SameSettings s ((executeFor n program aliases).final s) := by
  unfold Action.final
  rw [executeFor_eq hooks]
  cases ho : opening program aliases s with
  | error e store => exact ⟨rfl, rfl, rfl, rfl⟩
  | ok a store =>
    have same := ((maintains_same _).walkFor n .walking).final
      (SameSettings.refl ((s.begin program aliases).withStore store))
    have begun : SameSettings s ((s.begin program aliases).withStore store) := ⟨rfl, rfl, rfl, rfl⟩
    unfold Action.final at same
    dsimp only
    cases hw : walkFor n .walking ((s.begin program aliases).withStore store) with
    | error e t =>
      rw [hw] at same
      rw [conclude_error (same.hooks.trans hooks)]
      exact begun.trans same
    | ok mode t =>
      rw [hw] at same
      cases mode with
      | walking => exact begun.trans same
      | waiting span => exact begun.trans same
      | finished =>
        rw [conclude_finished (same.hooks.trans hooks)]
        exact pop_same s (begun.trans same)

/-- A program leaves a store of the kind that it found. -/
theorem storeAt_kind (hooks : s.hooks = {}) (hg : s.store.tape.edgeRule ≠ .grow) (n : Nat) :
    Kind s.store.tape s.options.preallocate (knownNames program aliases)
      (storeAt program aliases s n) := by
  refine storeAt_keeps aliases hooks (Instruction.eachLeaf_true _) trivial ?_
    (fun operation _ => Store.perform_keepsKind hg operation) n
  have begun : Kind s.store.tape s.options.preallocate (knownNames program aliases)
      (s.begin program aliases).store := ⟨s.store.tape.sameMake_clear, fun _ => rfl⟩
  have opened : Keeps (Kind s.store.tape s.options.preallocate (knownNames program aliases))
      (if s.options.preallocate then Store.onAliases AliasTable.assignAll else pure () :
        Action (Store σ) Unit) := by
    split
    · next hp =>
      have given : ∀ (tape : Tape) (t : AliasTable), t.names = knownNames program aliases →
          ((AliasTable.assignAll tape).final t).names = knownNames program aliases :=
        fun tape t ht => (AliasTable.assignEach_names tape t.names _ fun _ hn => ht ▸ hn).final ht
      exact Store.meets_onAliases
        (fun _ _ _ hs ha => ⟨hs.tape, fun hp => Action.final_of_ok ha ▸ given _ _ (hs.names hp)⟩)
        fun _ _ _ hs ha => ⟨hs.tape, fun hp => Action.final_of_error ha ▸ given _ _ (hs.names hp)⟩
    · exact .pure fun _ hs => hs
  rw [storeAt_eq aliases hooks]
  have first := opened _ begun
  cases ho : opening program aliases s with
  | error e store =>
    unfold opening at ho
    rw [ho] at first
    exact first
  | ok a store =>
    unfold opening at ho
    rw [ho] at first
    exact first

/-- **A session forgets what it has run.** Sessions that are set up alike execute a program alike,
whatever they have run before. So, on a tape that does not grow, does the session itself after it
has executed the program for any number of moves, if it gets the same input again. -/
theorem history_is_forgotten (hq : s.Quiet) (hs : 0 < s.store.tape.size) :
    (∀ (τ : Type) (aliases' : Option AliasTable) (s' : Session τ),
      SetUpAlike program aliases s aliases' s' →
        Coincide (level (UsedAlike s.store.device s'.store.device)) program aliases s program
          aliases' s') ∧
    (s.store.tape.edgeRule ≠ .grow → ∀ (n : Nat) (device : Device),
      device.fresh = s.store.device.fresh →
        let t := (executeFor n program aliases).final s
        Coincide (level (UsedAlike s.store.device device)) program aliases s program
          (aliases.map fun _ => t.store.aliases) (t.withStore { t.store with device })) := by
  refine ⟨fun τ aliases' s' h => h.coincide hq hs, fun hg n device hd => ?_⟩
  intro t
  have same : SameSettings s t := executeFor_settings hq.hooks n
  have kind : Kind s.store.tape s.options.preallocate (knownNames program aliases) t.store :=
    storeAt_kind hq.hooks hg n
  have again : SetUpAlike program aliases s (aliases.map fun _ => t.store.aliases)
      (t.withStore { t.store with device }) := {
    quiet := ⟨same.hooks.trans hq.hooks, same.cancel.trans hq.cancel⟩
    verbose := same.verbose
    preallocate := congrArg _ same.options
    tape := kind.tape
    names := fun hp => by
      cases aliases with
      | none => rfl
      | some table => exact kind.names hp
    device := hd }
  exact again.coincide hq hs

/-- The session with a tape of three cells after it has run other programs. -/
def worn : Session Unit where
  store :=
    { tape := { Tape.confined 3 .wrap .refuse with cells := #[7, 8, 9], pointer := 2, origin := 4 }
      aliases := { names := ["old"], bindings := [("old", 1)] }
      device := { Device.ofReadings .memory [.byte 3] with reads := 1, output := #[1] }
      host := () }
  log := { next := 12 }
  stack := [{ id := 5, body := [] }]
  nextFrame := 6

theorem setUpAlike_worn (program : Program) : SetUpAlike program none cornered none worn where
  quiet := ⟨rfl, rfl⟩
  verbose := rfl
  preallocate := rfl
  tape := ⟨by decide, rfl, rfl, rfl⟩
  names _ := rfl
  device := by
    have readings : (fun n => worn.store.device.readings (1 + n)) =
        cornered.store.device.readings := by
      funext n
      simp [worn, cornered, Device.ofReadings]
    show Device.mk .memory (fun n => worn.store.device.readings (1 + n)) _ 0 0 #[] =
      Device.mk .memory (fun n => cornered.store.device.readings (0 + n)) _ 0 0 #[]
    rw [readings]
    simp only [Nat.zero_add]
    rfl

theorem history_is_forgotten_worn :
    cornered.Quiet ∧ 0 < cornered.store.tape.size ∧
      SetUpAlike (rightward 2 1) none cornered none worn ∧
      cornered.store.tape.edgeRule ≠ .grow ∧
      (∃ e t e' t', Executes (rightward 2 1) none cornered (.error e t) ∧
        Executes (rightward 2 1) none worn (.error e' t') ∧ e.untimed = e'.untimed) ∧
      Coincide (level (UsedAlike cornered.store.device cornered.store.device)) (rightward 2 1) none
        cornered (rightward 2 1) none
        (((executeFor 3 (rightward 2 1) none).final cornered).withStore
          { ((executeFor 3 (rightward 2 1) none).final cornered).store with
            device := cornered.store.device }) := by
  have fails : ∀ s : Session Unit,
      faults (fun _ _ => true) (executeFor 3 (rightward 2 1) none s) = true →
      ∃ f t, Executes (rightward 2 1) none s (.error (.fault f) t) := by
    intro s shown
    obtain ⟨f, t, executes, -⟩ := executes_of_faults shown
    exact ⟨f, t, executes⟩
  obtain ⟨f, t, executes⟩ := fails cornered (by decide +kernel)
  obtain ⟨f', t', executes'⟩ := fails worn (by decide +kernel)
  have refuses : cornered.store.tape.edgeRule ≠ .grow := by decide
  have alike := setUpAlike_worn (rightward 2 1)
  obtain ⟨others, again⟩ := @history_is_forgotten Unit (rightward 2 1) none cornered
    quiet_cornered (by decide)
  refine ⟨quiet_cornered, by decide, alike, refuses,
    ⟨_, t, _, t', executes, executes', ?_⟩, again refuses 3 _ rfl⟩
  cases (others Unit none worn alike).ends _ _ executes executes' with
  | failed store failure => exact failure

end Session

end NamedTape
