import NamedTape.Proofs.Bindings
import NamedTape.Proofs.Semantics
import NamedTape.Proofs.SoundTape

/-!
# Sound stores

A store is sound if its tape is and its bindings fit the tape. Every operation of a program keeps
it so, whatever its device answers, unless the operation has a negative count.
-/

namespace NamedTape

/-- A count, if the operation has one, is not negative. -/
def Operation.Nonneg : Operation → Prop
  | .counted _ count => 0 ≤ count
  | _ => True

namespace Store

open NamedTape.Action (FailsInPlace Keeps Meets)

variable {σ : Type} {limits : Limits}

/-- The tape is sound, and the bindings fit it. -/
structure Sound (limits : Limits) (s : Store σ) : Prop where
  tape : s.tape.Sound limits
  aliases : s.aliases.Fits s.tape.size

theorem Sound.cell_ok {s : Store σ} (h : s.Sound limits) :
    onTape Tape.value s = .ok (s.tape.cellAt s.tape.pointer.toNat).toNat s :=
  onTape_of_ok h.tape.value_eq

theorem Sound.observe_ok {s : Store σ} (h : s.Sound limits) (hl : limits.Legible)
    (verbose : Bool) : ∃ view, observe verbose s = .ok view s := by
  cases verbose with
  | false => exact ⟨none, rfl⟩
  | true =>
    obtain ⟨text, htext⟩ := h.tape.snapshot_ok hl
    exact ⟨some text, Action.map_of_ok (onTape_of_ok htext) some⟩

theorem onTape_keeps {α : Type} {act : Action Tape α} (hf : FailsInPlace act)
    (h : Keeps (Tape.Sound limits) act)
    (hsize : ∀ t a t', act t = .ok a t' → t.size ≤ t'.size) :
    Keeps (Sound (σ := σ) limits) (onTape act) := by
  refine meets_onTape
    (fun s a tape hs ha => ⟨h.ok hs.tape ha, hs.aliases.mono (hsize _ a tape ha)⟩)
    fun s e tape hs ha => ?_
  cases hf _ e tape ha
  exact hs

theorem onDevice_keeps {α : Type} (act : Action Device α) :
    Keeps (Sound (σ := σ) limits) (onDevice act) :=
  meets_onDevice (fun _ _ _ hs _ => ⟨hs.tape, hs.aliases⟩) fun _ _ _ hs _ => ⟨hs.tape, hs.aliases⟩

theorem moveLeft_of_ok {count : Int} {s : Store σ} {tape : Tape}
    (h : Tape.moveLeft count s.tape = .ok () tape) : moveLeft count s = .ok ()
      { s with tape, aliases := s.aliases.shift (tape.origin - s.tape.origin) } := by
  rw [moveLeft, onTape_of_ok h]

/-- A move to the left takes the names along with the cells, or fails in place. -/
theorem meets_moveLeft {P Q : Store σ → Prop} {E : Raised → Store σ → Prop} {count : Int}
    (ok : ∀ s tape, P s → Tape.moveLeft count s.tape = .ok () tape →
      Q { s with tape, aliases := s.aliases.shift (tape.origin - s.tape.origin) })
    (error : ∀ s e, P s → Tape.moveLeft count s.tape = .error e s.tape → E e s) :
    Meets P (moveLeft count) (fun _ => Q) E := by
  intro s hs
  cases ha : Tape.moveLeft count s.tape with
  | ok a tape =>
    rw [moveLeft_of_ok ha]
    exact ok s tape hs ha
  | error e tape =>
    rw [moveLeft, onTape_of_error ha]
    cases Tape.failsInPlace_moveLeft count _ e tape ha
    exact error s e hs ha

theorem moveLeft_keeps {count : Int} (hc : 0 ≤ count) :
    Keeps (Sound (σ := σ) limits) (moveLeft count) := by
  refine meets_moveLeft (fun s tape hs ha => ?_) fun _ _ hs _ => hs
  obtain ⟨horigin, hsize⟩ := Tape.size_of_moveLeft ha
  have hshift : (tape.origin : Int) - s.tape.origin = (tape.origin - s.tape.origin : Nat) := by
    omega
  refine ⟨(Tape.moveLeft_keeps hc).ok hs.tape ha, ?_⟩
  show (s.aliases.shift ((tape.origin : Int) - s.tape.origin)).Fits tape.size
  rw [hshift, hsize]
  exact hs.aliases.shift _

theorem onAliases_keeps {α : Type} {act : Tape → Action AliasTable α}
    (h : ∀ tape, Keeps (AliasTable.Fits tape.size) (act tape)) :
    Keeps (Sound (σ := σ) limits) (onAliases act) :=
  meets_onAliases (fun s _ _ hs ha => ⟨hs.tape, (h s.tape).ok hs.aliases ha⟩)
    fun s _ _ hs ha => ⟨hs.tape, (h s.tape).error hs.aliases ha⟩

theorem moveTo_keeps (address : Int) :
    Keeps (Sound (σ := σ) limits) (onTape (Tape.moveTo address)) :=
  onTape_keeps (Tape.failsInPlace_moveTo address) (Tape.moveTo_keeps address)
    fun _ _ _ h => Nat.le_of_eq (Tape.size_of_moveTo h).symm

theorem goto_keeps (preallocated : Bool) (name : String) :
    Keeps (Sound (σ := σ) limits) (goto preallocated name) := by
  refine (onAliases_keeps fun tape t h => ?_).bind fun address => moveTo_keeps address
  dsimp only
  cases hr : t.resolve? name with
  | some address => exact h
  | none =>
    cases preallocated with
    | true => exact h
    | false => exact AliasTable.assign_keeps tape name t h

theorem receive_keeps : Keeps (Sound (σ := σ) limits) receive := by
  refine (onDevice_keeps Device.read).bind fun reading => ?_
  cases reading with
  | none => exact .pure fun _ h => h
  | some value =>
    exact (onTape_keeps (Tape.failsInPlace_setValue value) (Tape.setValue_keeps value)
      fun _ _ _ h => Nat.le_of_eq (Tape.size_of_setValue h).symm).bind fun _ => .pure fun _ h => h

theorem shift_keeps (delta : Int) : Keeps (Sound (σ := σ) limits) (onTape (Tape.shift delta)) :=
  onTape_keeps (Tape.failsInPlace_shift delta) (Tape.shift_keeps delta)
    fun _ _ _ h => Nat.le_of_eq (Tape.size_of_shift h).symm

/-- Every operation whose count is not negative keeps a store sound. -/
theorem perform_keeps (preallocated : Bool) {operation : Operation} (h : operation.Nonneg) :
    Keeps (Sound (σ := σ) limits) (perform preallocated operation) := by
  cases operation with
  | counted kind count =>
    cases kind with
    | add => exact (shift_keeps count).bind fun _ => .pure fun _ h => h
    | subtract => exact (shift_keeps (-count)).bind fun _ => .pure fun _ h => h
    | left => exact (moveLeft_keeps h).bind fun _ => .pure fun _ h => h
    | right =>
      exact (onTape_keeps (Tape.failsInPlace_moveRight count) (Tape.moveRight_keeps h)
        fun _ _ _ h => Tape.size_of_moveRight h).bind fun _ => .pure fun _ h => h
  | input => exact receive_keeps
  | output =>
    refine (onTape_keeps Tape.failsInPlace_value (fun t ht => ?_) fun t a t' ht => ?_).bind
      fun value => (onDevice_keeps (Device.write value)).bind fun _ => .pure fun _ h => h
    · rw [ht.value_eq]
      exact ht
    · unfold Tape.value at ht
      split at ht <;> cases ht
      exact Nat.le_refl _
  | goto name => exact (goto_keeps preallocated name).bind fun _ => .pure fun _ h => h
  | blank => exact .throw fun _ h => h

end Store

end NamedTape
