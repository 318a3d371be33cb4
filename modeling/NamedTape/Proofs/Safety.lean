import NamedTape.Proofs.Soundness
import NamedTape.Proofs.Voices
import NamedTape.Proofs.Written

/-!
# Safe operations

What the operations of a proper program can come to on a sound store whose device is tame: they
keep the store safe, and if one fails it does so with an ordinary fault, or for want of what its
machine cannot do. A goto fails only if there is no free cell for its alias.
-/

namespace NamedTape

open NamedTape.Action (FailsInPlace Keeps Meets)

/-- A fault of the runtime, or one by which a run is called off. -/
def Raised.Ordinary : Raised → Prop
  | .fault f => f.cause.family = .runtime ∨ f.cause.family = .cancelled
  | .foreign _ | .interrupt => False

namespace Device

/-- The device takes every byte, and gives no answer but integers, that none is there yet, and
ordinary faults. -/
structure Tame (d : Device) : Prop where
  readings : ∀ k e, d.readings k = .fails e → e.Ordinary
  refusals : ∀ k, d.refusals k = none

/-- The second device is the first at a later time, and has taken every write in between. -/
structure Serves (d d' : Device) : Prop where
  readings : d'.readings = d.readings
  refusals : d'.refusals = d.refusals
  taken : d'.writes + d.output.size = d.writes + d'.output.size

theorem serves_refl (d : Device) : d.Serves d := ⟨rfl, rfl, rfl⟩

/-- A byte that is written is taken. -/
theorem Serves.write {d d' : Device} (h : d.Serves d') (hd : d.Tame) {value : Nat}
    (hv : value < 256) : ∃ d'', Device.write value d' = .ok () d'' ∧ d.Serves d'' := by
  have byte : (0 : Int) ≤ value ∧ (value : Int) ≤ 255 := by omega
  have accepts : d'.refusals d'.writes = none := h.refusals ▸ hd.refusals d'.writes
  have taken := h.taken
  simp only [Device.write, accepts, if_pos byte]
  refine ⟨_, rfl, h.readings, h.refusals, ?_⟩
  dsimp only
  rw [Array.size_push]
  omega

end Device

/-- What is too much for a machine with the limits, on a tape of the size: more cells than there is
room for, or a number with too many digits, be it a count not beyond `most` or an answer of the
device. -/
inductive Exhausts (limits : Limits) (most : Nat) (device : Device) (size : Nat) : Foreign → Prop
  | noRoom {cells : Nat} (h : limits.hasRoom (size + cells) = false) :
    Exhausts limits most device size (.noRoom cells)
  | tooManyDigits {n : Int} (hn : n.natAbs ≤ most ∨ ∃ k, device.readings k = .byte n)
    (h : limits.canWrite n = false) : Exhausts limits most device size .tooManyDigits

/-- Nothing is too much for a machine without limits. -/
theorem not_exhausts_unlimited {most size : Nat} {device : Device} {failure : Foreign} :
    ¬ Exhausts {} most device size failure := by
  rintro (h | ⟨-, h⟩) <;> cases h

theorem Exhausts.voiced {limits : Limits} {most size : Nat} {device : Device} {failure : Foreign}
    (h : Exhausts limits most device size failure) : failure.Voiced := by
  cases h with
  | noRoom h => exact ⟨_, rfl⟩
  | tooManyDigits hn h => exact ⟨_, rfl⟩

/-- What the failures of a run are measured by. -/
structure Terms where
  limits : Limits
  /-- No count exceeds it. -/
  most : Nat
  /-- All the names that are used. -/
  names : List String
  /-- Whether all names have been given cells from the start. -/
  preallocated : Bool
  /-- The device at the start. -/
  device : Device

namespace Terms

variable {σ α : Type} (terms : Terms)

/-- A store that nothing is wrong with. -/
structure Safe (s : Store σ) : Prop where
  sound : s.Sound terms.limits
  bound : terms.preallocated = true → ∀ name ∈ terms.names, s.aliases.Binds name
  device : terms.device.Serves s.device

/-- What may end a run that has a tape of the size: an ordinary fault, or what is too much for its
machine. -/
inductive Excuses (size : Nat) : Raised → Prop
  | ordinary {e : Raised} (h : e.Ordinary) : Excuses size e
  | exhausted {failure : Foreign}
    (h : Exhausts terms.limits terms.most terms.device size failure) :
    Excuses size (.foreign failure)

/-- The action keeps a store safe, and has an excuse if it fails. -/
abbrev Admits (act : Action (Store σ) α) : Prop :=
  Meets terms.Safe act (fun _ => terms.Safe) fun e t =>
    terms.Safe t ∧ terms.Excuses t.tape.size e

variable {terms} {size : Nat}

theorem Excuses.within {e : Raised} (h : terms.Excuses size e) (span : Span) :
    terms.Excuses size (e.within span) := by
  cases h with
  | ordinary h =>
    cases e with
    | fault f => exact .ordinary h
    | foreign failure => exact h.elim
    | interrupt => exact h.elim
  | exhausted h => exact .exhausted h

theorem excuses_raise {cause : Cause} (hc : cause.family = .runtime)
    (hn : ∀ n ∈ cause.numbers, terms.limits.canWrite n = true ∨
      n.natAbs ≤ terms.most ∨ ∃ k, terms.device.readings k = .byte n) :
    terms.Excuses size (terms.limits.raise cause) := by
  by_cases hall : cause.numbers.all terms.limits.canWrite = true
  · rw [Limits.raise, if_pos hall]
    exact .ordinary (.inl hc)
  · rw [Limits.raise, if_neg hall]
    obtain ⟨n, hmem, hw⟩ : ∃ n ∈ cause.numbers, ¬ terms.limits.canWrite n = true := by
      simpa [List.all_eq_true] using hall
    rcases hn n hmem with write | turns
    · exact absurd write hw
    · exact .exhausted (.tooManyDigits turns (by simpa using hw))

/-! ## Tapes -/

section tape

variable {t t' : Tape} {e : Raised} (hl : terms.limits.Legible) (h : t.Sound terms.limits)
include hl h

theorem excuses_shift {delta : Int} (hd : delta.natAbs ≤ terms.most)
    (he : Tape.shift delta t = .error e t') : terms.Excuses t.size e := by
  rw [h.shift_eq] at he
  split at he <;> cases he
  refine excuses_raise rfl fun n hn => ?_
  rcases List.mem_cons.mp hn with rfl | hn
  · exact .inl (h.canWrite_pointer hl)
  · cases List.mem_singleton.mp hn
    exact .inr (.inl hd)

theorem excuses_setValue {value : Int} {k : Nat} (hv : terms.device.readings k = .byte value)
    (he : Tape.setValue value t = .error e t') : terms.Excuses t.size e := by
  rw [h.setValue_eq] at he
  split at he <;> cases he
  refine excuses_raise rfl fun n hn => ?_
  rcases List.mem_cons.mp hn with rfl | hn
  · exact .inr (.inr ⟨k, hv⟩)
  · cases List.mem_singleton.mp hn
    exact .inl (h.canWrite_pointer hl)

theorem excuses_moved {cause : Cause} {count : Int} (hc : cause.family = .runtime)
    (hn : cause.numbers = [count, t.pointer]) (hm : count.natAbs ≤ terms.most) :
    terms.Excuses t.size (terms.limits.raise cause) := by
  refine excuses_raise hc fun n hmem => ?_
  rw [hn] at hmem
  rcases List.mem_cons.mp hmem with rfl | hmem
  · exact .inr (.inl hm)
  · cases List.mem_singleton.mp hmem
    exact .inl (h.canWrite_pointer hl)

theorem excuses_moveRight {count : Int} (hc : 0 ≤ count) (hm : count.natAbs ≤ terms.most)
    (he : Tape.moveRight count t = .error e t') : terms.Excuses t.size e := by
  rw [h.moveRight_eq hc] at he
  split at he
  · cases he
  · split at he <;> cases he
    next hroom => exact .exhausted (.noRoom (by simpa using hroom))
  · split at he <;> cases he
    exact excuses_moved hl h rfl rfl hm

theorem excuses_moveLeft {count : Int} (hc : 0 ≤ count) (hm : count.natAbs ≤ terms.most)
    (he : Tape.moveLeft count t = .error e t') : terms.Excuses t.size e := by
  rw [h.moveLeft_eq hc] at he
  split at he
  · cases he
  · split at he <;> cases he
    next hroom => exact .exhausted (.noRoom (by simpa using hroom))
  · split at he <;> cases he
    exact excuses_moved hl h rfl rfl hm

end tape

/-! ## Stores -/

theorem Safe.withTape {s : Store σ} (h : terms.Safe s) {tape : Tape}
    (hs : ({ s with tape } : Store σ).Sound terms.limits) : terms.Safe { s with tape } :=
  ⟨hs, h.bound, h.device⟩

theorem onTape_admits {act : Action Tape α} (hf : FailsInPlace act)
    (hk : Keeps (Store.Sound (σ := σ) terms.limits) (Store.onTape act))
    (he : ∀ t e t', t.Sound terms.limits → act t = .error e t' → terms.Excuses t.size e) :
    terms.Admits (σ := σ) (Store.onTape act) := by
  refine Store.meets_onTape
    (fun s a tape hs ha => hs.withTape (hk.ok hs.sound (Store.onTape_of_ok ha)))
    fun s e tape hs ha => ?_
  cases hf _ e tape ha
  exact ⟨hs, he _ e _ hs.sound.tape ha⟩

theorem moveLeft_admits (hl : terms.limits.Legible) {count : Int} (hc : 0 ≤ count)
    (hm : count.natAbs ≤ terms.most) : terms.Admits (σ := σ) (Store.moveLeft count) := by
  refine Store.meets_moveLeft (fun s tape hs ha => ⟨?_, ?_, hs.device⟩) fun s e hs ha =>
    ⟨hs, excuses_moveLeft hl hs.sound.tape hc hm ha⟩
  · exact (Store.moveLeft_keeps hc).ok hs.sound (Store.moveLeft_of_ok ha)
  · exact fun hp name hn => AliasTable.binds_shift.mpr (hs.bound hp name hn)

theorem shift_admits (hl : terms.limits.Legible) {delta : Int} (hd : delta.natAbs ≤ terms.most) :
    terms.Admits (σ := σ) (Store.onTape (Tape.shift delta)) :=
  onTape_admits (Tape.failsInPlace_shift delta) (Store.shift_keeps delta)
    fun _ _ _ h he => excuses_shift hl h hd he

theorem value_admits : terms.Admits (σ := σ) (Store.onTape Tape.value) := by
  intro s hs
  rw [hs.sound.cell_ok]
  exact hs

theorem receive_admits (hl : terms.limits.Legible) (hd : terms.device.Tame) :
    terms.Admits (σ := σ) Store.receive := by
  have asked : Meets terms.Safe (Store.onDevice (σ := σ) Device.read)
      (fun reading t => terms.Safe t ∧
        ∀ value, reading = some value → ∃ k, terms.device.readings k = .byte value)
      fun e t => terms.Safe t ∧ terms.Excuses t.tape.size e := by
    intro s hs
    have serves : terms.device.Serves { s.device with reads := s.device.reads + 1 } :=
      ⟨hs.device.readings, hs.device.refusals, hs.device.taken⟩
    have safe : terms.Safe { s with device := { s.device with reads := s.device.reads + 1 } } :=
      ⟨⟨hs.sound.tape, hs.sound.aliases⟩, hs.bound, serves⟩
    unfold Store.onDevice Device.read
    cases hr : s.device.readings s.device.reads with
    | byte value =>
      refine ⟨safe, fun value' h => ⟨s.device.reads, ?_⟩⟩
      cases h
      exact hs.device.readings ▸ hr
    | notYet => exact ⟨safe, nofun⟩
    | fails failure =>
      exact ⟨safe, .ordinary (hd.readings s.device.reads failure (hs.device.readings ▸ hr))⟩
  refine asked.bind fun reading => ?_
  cases reading with
  | none => exact .pure fun _ h => h.1
  | some value =>
    intro s hs
    obtain ⟨k, hk⟩ := hs.2 value rfl
    have stored : terms.Admits (σ := σ) (Store.onTape (Tape.setValue value)) :=
      onTape_admits (Tape.failsInPlace_setValue value)
        (Store.onTape_keeps (Tape.failsInPlace_setValue value) (Tape.setValue_keeps value)
          fun _ _ _ h => Nat.le_of_eq (Tape.size_of_setValue h).symm)
        fun _ _ _ h he => excuses_setValue hl h hk he
    have received : terms.Admits (σ := σ)
        (Store.onTape (Tape.setValue value) >>= fun _ => pure Store.Progress.done) :=
      stored.bind fun _ => .pure fun _ h => h
    exact received s hs.1

theorem output_admits (hd : terms.device.Tame) :
    terms.Admits (σ := σ) (Store.perform terms.preallocated .output) := by
  have read : Meets terms.Safe (Store.onTape (σ := σ) Tape.value)
      (fun value t => terms.Safe t ∧ value < 256)
      fun e t => terms.Safe t ∧ terms.Excuses t.tape.size e := by
    intro s hs
    rw [hs.sound.cell_ok]
    exact ⟨hs, UInt8.toNat_lt _⟩
  have written : ∀ value : Nat, Meets (fun t => terms.Safe t ∧ value < 256)
      (Store.onDevice (σ := σ) (Device.write value)) (fun _ => terms.Safe)
      fun e t => terms.Safe t ∧ terms.Excuses t.tape.size e := by
    rintro value s ⟨hs, byte⟩
    obtain ⟨device, hw, serves⟩ := hs.device.write hd byte
    rw [Store.onDevice_of_ok hw]
    exact ⟨⟨hs.sound.tape, hs.sound.aliases⟩, hs.bound, serves⟩
  exact read.bind fun value => (written value).bind fun _ => .pure fun _ h => h

/-- A goto fails only if its alias is to be given a cell and none is free. -/
theorem goto_meets {name : String} (hn : name ∈ terms.names) :
    Meets terms.Safe (Store.goto (σ := σ) terms.preallocated name) (fun _ => terms.Safe)
      fun e t => terms.Safe t ∧ e = .of (.noFreeCell name) ∧ terms.preallocated = false := by
  refine Meets.bind
    (Q := fun (address : Int) t => terms.Safe t ∧ 0 ≤ address ∧ address < t.tape.size)
    ?_ fun address => ?_
  · intro s hs
    unfold Store.onAliases
    dsimp only
    cases hr : s.aliases.resolve? name with
    | some address => exact ⟨hs, hs.sound.aliases.resolve? hr⟩
    | none =>
      cases hp : terms.preallocated with
      | true =>
        obtain ⟨address, ha⟩ := (hs.bound hp name hn).resolve?
        cases ha.symm.trans hr
      | false =>
        have fits := AliasTable.assign_keeps s.tape name s.aliases hs.sound.aliases
        obtain ⟨_, hr', -⟩ | ⟨free, -, hlt, -, ha⟩ | ⟨-, ha⟩ :=
          AliasTable.assign_cases s.tape name s.aliases
        · cases hr'.symm.trans hr
        · simp only [Bool.false_eq_true, if_false, ha] at fits ⊢
          have lazy : ¬ terms.preallocated = true := Bool.eq_false_iff.mp hp
          refine ⟨⟨⟨hs.sound.tape, fits⟩, fun h => absurd h lazy, hs.device⟩, by omega, ?_⟩
          show (free : Int) < s.tape.size
          omega
        · simp only [Bool.false_eq_true, if_false, ha]
          exact ⟨hs, trivial, trivial⟩
  · rintro s ⟨hs, hnonneg, hlt⟩
    have moved : Tape.moveTo address s.tape = .ok () (s.tape.pointing address) :=
      if_pos ⟨hnonneg, hlt⟩
    rw [Store.onTape_of_ok moved]
    exact hs.withTape ⟨hs.sound.tape.pointing hnonneg hlt, hs.sound.aliases⟩

/-- **Proper operations are safe.** -/
theorem perform_admits (hl : terms.limits.Legible) (hd : terms.device.Tame) {operation : Operation}
    (h : operation.Proper terms.names terms.most) :
    terms.Admits (σ := σ) (Store.perform terms.preallocated operation) := by
  obtain ⟨known, effort⟩ := h
  cases operation with
  | counted kind count =>
    cases kind with
    | add => exact (shift_admits hl effort).bind fun _ => .pure fun _ h => h
    | subtract =>
      have effort' : (-count).natAbs ≤ terms.most := by rwa [Int.natAbs_neg]
      exact (shift_admits hl effort').bind fun _ => .pure fun _ h => h
    | left => exact (moveLeft_admits hl known effort).bind fun _ => .pure fun _ h => h
    | right =>
      have moved : terms.Admits (σ := σ) (Store.onTape (Tape.moveRight count)) :=
        onTape_admits (Tape.failsInPlace_moveRight count)
          (Store.onTape_keeps (Tape.failsInPlace_moveRight count) (Tape.moveRight_keeps known)
            fun _ _ _ h => Tape.size_of_moveRight h)
          fun _ _ _ h he => excuses_moveRight hl h known effort he
      exact moved.bind fun _ => .pure fun _ h => h
  | input => exact receive_admits hl hd
  | output => exact output_admits hd
  | goto name =>
    refine Meets.bind ((goto_meets known).mono_error ?_)
      fun _ => .pure fun _ h => h
    rintro e t ⟨safe, rfl, -⟩
    exact ⟨safe, .ordinary (.inl rfl)⟩
  | blank => exact known.elim

end Terms

end NamedTape
