import NamedTape.Proofs.Joining
import NamedTape.Proofs.Names

/-!
# Stores that correspond

A `Pairing` says which tapes, aliases, devices and failures of two stores correspond. Tapes that
correspond show the same to a loop and to a log, and operations do to such stores what corresponds.

* A counted operation does so on equal tapes (`counted_tallies`). Elsewhere it is enough to compare
  what it does to the tapes (`Pairing.Pairs.turn`).
* What a device answers is left to the pairing.
* Aliases may have different names, if different ones stay different (`Pairing.Names`).
-/

namespace NamedTape

namespace Tape

/-- The tape under other rules. -/
def ruled (cellRule : CellRule) (edgeRule : EdgeRule) (t : Tape) : Tape :=
  { t with cellRule, edgeRule }

section ruled

variable (cellRule : CellRule) (edgeRule : EdgeRule) (t : Tape)

@[simp] theorem ruled_slot? : (t.ruled cellRule edgeRule).slot? = t.slot? := rfl

@[simp] theorem ruled_size : (t.ruled cellRule edgeRule).size = t.size := rfl

@[simp] theorem ruled_cellAt : (t.ruled cellRule edgeRule).cellAt = t.cellAt := rfl

@[simp] theorem ruled_limits : (t.ruled cellRule edgeRule).limits = t.limits := rfl

@[simp] theorem ruled_pointer : (t.ruled cellRule edgeRule).pointer = t.pointer := rfl

@[simp] theorem ruled_strayed (address : Int) :
    (t.ruled cellRule edgeRule).strayed address = t.strayed address := rfl

end ruled

/-- What a counted operation does to the tape. -/
def turn : Counted → Int → Action Tape Unit
  | .add => add
  | .subtract => subtract
  | .left => moveLeft
  | .right => moveRight

end Tape

namespace Raised

/-- What a failure is reported as when the latest step was at the span, but for the step. -/
def attributed (span : Option Span) : Raised → Raised
  | .fault f => .fault { f with step := none }
  | .foreign failure => .quoting failure { cause := .unexpected failure, span }
  | .interrupt => .interrupt

end Raised

namespace Store

open NamedTape.Action (Tallies Tally tallies_eq)
open AliasTable (Renames)

variable {σ τ α : Type}

/-! ## Stores that correspond -/

/-- Which parts of stores correspond, and which failures. -/
structure Pairing where
  tapes : Tape → Tape → Prop
  aliases : AliasTable → AliasTable → Prop
  devices : Device → Device → Prop
  failures : Raised → Raised → Prop
  /-- Tapes that correspond differ in their rules at most. -/
  ruled : ∀ {t t'}, tapes t t' → ∃ cellRule edgeRule, t' = t.ruled cellRule edgeRule
  changed : ∀ {t t'} cells pointer, cells.size = t.size → 0 ≤ pointer → pointer < t.size →
    tapes t t' → tapes { t with cells, pointer } { t' with cells, pointer }
  same : ∀ e, failures e e
  within : ∀ {e e'} span, failures e e' → failures (e.within span) (e'.within span)
  attributed : ∀ {e e'} span, failures e e' → failures (e.attributed span) (e'.attributed span)

/-- The stores correspond part by part, whatever their hosts are. -/
structure Pairing.Pairs (P : Pairing) (s : Store σ) (s' : Store τ) : Prop where
  tape : P.tapes s.tape s'.tape
  aliases : P.aliases s.aliases s'.aliases
  device : P.devices s.device s'.device

/-- The pairing the other way round. -/
def Pairing.flip (P : Pairing) : Pairing where
  tapes t t' := P.tapes t' t
  aliases a a' := P.aliases a' a
  devices d d' := P.devices d' d
  failures e e' := P.failures e' e
  ruled h := by
    obtain ⟨cellRule, edgeRule, rfl⟩ := P.ruled h
    exact ⟨_, _, rfl⟩
  changed cells pointer size nonneg lt h := by
    obtain ⟨cellRule, edgeRule, rfl⟩ := P.ruled h
    exact P.changed cells pointer size nonneg lt h
  same := P.same
  within span h := P.within span h
  attributed span h := P.attributed span h

/-- Aliases of the second store have the names of the first one, changed by `f`. -/
structure Pairing.Names (P : Pairing) (f : String → String) : Prop where
  injective : Function.Injective f
  aliases : P.aliases = Renames f
  noFreeCell : ∀ name, P.failures (.of (.noFreeCell name)) (.of (.noFreeCell (f name)))
  unresolved : ∀ name, P.failures (.of (.unresolvedAlias name)) (.of (.unresolvedAlias (f name)))

theorem Pairing.pairs_flip {P : Pairing} {s : Store σ} {s' : Store τ} :
    P.flip.Pairs s' s ↔ P.Pairs s s' :=
  ⟨fun h => ⟨h.tape, h.aliases, h.device⟩, fun h => ⟨h.tape, h.aliases, h.device⟩⟩

section pairing

variable {P : Pairing}

theorem Pairing.Pairs.onTape {s : Store σ} {s' : Store τ} (hs : P.Pairs s s')
    {act act' : Action Tape α} (h : Tally P.tapes P.failures (act s.tape) (act' s'.tape)) :
    Tally P.Pairs P.failures (Store.onTape act s) (Store.onTape act' s') := by
  unfold Store.onTape
  generalize act s.tape = r at h
  generalize act' s'.tape = r' at h
  cases h with
  | ok ht => exact .ok ⟨ht, hs.aliases, hs.device⟩
  | error ht he => exact .error ⟨ht, hs.aliases, hs.device⟩ he

theorem onTape_tallies {act act' : Action Tape α} (h : Tallies P.tapes P.failures act act') :
    Tallies P.Pairs P.failures (onTape (σ := σ) act) (onTape (σ := τ) act') :=
  fun _ _ hs => hs.onTape (h _ _ hs.tape)

theorem Pairing.Pairs.onAliases {s : Store σ} {s' : Store τ} (hs : P.Pairs s s')
    {act act' : Tape → Action AliasTable α}
    (h : Tally P.aliases P.failures (act s.tape s.aliases) (act' s'.tape s'.aliases)) :
    Tally P.Pairs P.failures (Store.onAliases act s) (Store.onAliases act' s') := by
  unfold Store.onAliases
  generalize act s.tape s.aliases = r at h
  generalize act' s'.tape s'.aliases = r' at h
  cases h with
  | ok ha => exact .ok ⟨hs.tape, ha, hs.device⟩
  | error ha he => exact .error ⟨hs.tape, ha, hs.device⟩ he

theorem onAliases_tallies {act act' : Tape → Action AliasTable α}
    (h : ∀ t t', P.tapes t t' → Tallies P.aliases P.failures (act t) (act' t')) :
    Tallies P.Pairs P.failures (onAliases (σ := σ) act) (onAliases (σ := τ) act') :=
  fun _ _ hs => hs.onAliases (h _ _ hs.tape _ _ hs.aliases)

theorem onDevice_tallies {act act' : Action Device α}
    (h : Tallies P.devices P.failures act act') :
    Tallies P.Pairs P.failures (onDevice (σ := σ) act) (onDevice (σ := τ) act') := by
  intro s s' hs
  have acted := h _ _ hs.device
  unfold onDevice
  generalize act s.device = r at acted
  generalize act' s'.device = r' at acted
  cases acted with
  | ok hd => exact .ok ⟨hs.tape, hs.aliases, hd⟩
  | error hd he => exact .error ⟨hs.tape, hs.aliases, hd⟩ he

theorem cells_of_tapes {t t' : Tape} (h : P.tapes t t') : t'.cells = t.cells := by
  obtain ⟨cellRule, edgeRule, rfl⟩ := P.ruled h
  rfl

theorem origin_of_tapes {t t' : Tape} (h : P.tapes t t') : t'.origin = t.origin := by
  obtain ⟨cellRule, edgeRule, rfl⟩ := P.ruled h
  rfl

/-! ## What is looked at -/

theorem value_tallies : Tallies P.tapes P.failures Tape.value Tape.value := by
  intro t t' h
  obtain ⟨cellRule, edgeRule, rfl⟩ := P.ruled h
  unfold Tape.value
  rw [Tape.ruled_slot?]
  cases t.slot? with
  | some i => exact .ok h
  | none => exact .error h (P.same _)

theorem snapshot_tallies : Tallies P.tapes P.failures Tape.snapshot Tape.snapshot := by
  intro t t' h
  obtain ⟨cellRule, edgeRule, rfl⟩ := P.ruled h
  unfold Tape.snapshot
  rw [Tape.ruled_slot?, Tape.ruled_limits, Tape.ruled_pointer]
  split
  · exact .error h (P.same _)
  · cases t.slot? with
    | some i => exact .ok h
    | none => exact .error h (P.same _)

theorem cell_tallies : Tallies P.Pairs P.failures (cell (σ := σ)) (cell (σ := τ)) :=
  onTape_tallies value_tallies

theorem observe_tallies (verbose : Bool) :
    Tallies P.Pairs P.failures (observe (σ := σ) verbose) (observe (σ := τ) verbose) := by
  cases verbose with
  | false => exact .pure none
  | true => exact .bind (onTape_tallies snapshot_tallies) fun text => .pure (some text)

section looks

variable {s t : Store σ} {s' : Store τ} {verbose : Bool}

theorem Pairing.Pairs.cell_ok (h : P.Pairs s s') {n : Nat} (hc : cell s = .ok n t) :
    cell s' = .ok n s' := by
  obtain ⟨t', hc', -⟩ := cell_tallies.ok h hc
  rwa [Store.cell_ok hc'] at hc'

theorem Pairing.Pairs.cell_error (h : P.Pairs s s') {e : Raised} (hc : cell s = .error e t) :
    ∃ e', cell s' = .error e' s' ∧ P.failures e e' := by
  obtain ⟨e', t', hc', -, he⟩ := cell_tallies.error h hc
  rw [Store.cell_error hc'] at hc'
  exact ⟨e', hc', he⟩

theorem Pairing.Pairs.observe_ok (h : P.Pairs s s') {view : Option String}
    (hv : observe verbose s = .ok view t) : observe verbose s' = .ok view s' := by
  obtain ⟨t', hv', -⟩ := (observe_tallies verbose).ok h hv
  rcases observe_cases verbose s' with ⟨view', seen⟩ | ⟨e, unseen⟩
  · cases seen.symm.trans hv'
    exact seen
  · cases unseen.symm.trans hv'

theorem Pairing.Pairs.observe_error (h : P.Pairs s s') {e : Raised}
    (hv : observe verbose s = .error e t) :
    ∃ e', observe verbose s' = .error e' s' ∧ P.failures e e' := by
  obtain ⟨e', t', hv', -, he⟩ := (observe_tallies verbose).error h hv
  rw [Store.observe_error hv'] at hv'
  exact ⟨e', hv', he⟩

end looks

/-! ## Operations -/

theorem setValue_tallies (value : Int) :
    Tallies P.tapes P.failures (Tape.setValue value) (Tape.setValue value) := by
  intro t t' h
  obtain ⟨cellRule, edgeRule, rfl⟩ := P.ruled h
  unfold Tape.setValue Tape.setValueAt
  rw [Tape.ruled_pointer, Tape.ruled_size, Tape.ruled_cellAt, Tape.ruled_limits, Tape.ruled_strayed]
  by_cases hin : 0 ≤ t.pointer ∧ t.pointer < t.size
  · rw [if_pos hin, if_pos hin]
    split
    · exact .ok (P.changed _ t.pointer Array.size_setIfInBounds hin.1 hin.2 h)
    · exact .error h (P.same _)
  · rw [if_neg hin, if_neg hin]
    exact .error h (P.same _)

theorem moveTo_tallies (address : Int) :
    Tallies P.tapes P.failures (Tape.moveTo address) (Tape.moveTo address) := by
  intro t t' h
  obtain ⟨cellRule, edgeRule, rfl⟩ := P.ruled h
  unfold Tape.moveTo
  rw [Tape.ruled_size, Tape.ruled_strayed]
  split
  · next hin => exact .ok (P.changed t.cells address rfl hin.1 hin.2 h)
  · exact .error h (P.same _)

section counted

variable {s : Store σ} {s' : Store τ}

theorem Pairing.Pairs.moveLeft (hs : P.Pairs s s') {f : String → String} (hn : P.Names f)
    {count : Int}
    (h : Tally P.tapes P.failures (Tape.moveLeft count s.tape) (Tape.moveLeft count s'.tape)) :
    Tally P.Pairs P.failures (Store.moveLeft count s) (Store.moveLeft count s') := by
  have renames := hs.aliases
  rw [hn.aliases] at renames
  unfold Store.moveLeft Store.onTape
  rw [origin_of_tapes hs.tape]
  generalize Tape.moveLeft count s.tape = r at h
  generalize Tape.moveLeft count s'.tape = r' at h
  cases h with
  | ok ht =>
    refine .ok ⟨ht, ?_, hs.device⟩
    dsimp only
    rw [origin_of_tapes ht, hn.aliases]
    exact renames.shift _
  | error ht he => exact .error ⟨ht, hs.aliases, hs.device⟩ he

theorem Pairing.Pairs.turn (hs : P.Pairs s s') {f : String → String} (hn : P.Names f)
    {kind : Counted} {count : Int}
    (h : Tally P.tapes P.failures (Tape.turn kind count s.tape) (Tape.turn kind count s'.tape)) :
    Tally P.Pairs P.failures (Store.turn kind count s) (Store.turn kind count s') := by
  cases kind with
  | add => exact hs.onTape h
  | subtract => exact hs.onTape h
  | left => exact hs.moveLeft hn h
  | right => exact hs.onTape h

end counted

variable (preallocated : Bool)

/-- Counted operations do the same to equal tapes. -/
theorem counted_tallies (tapes : P.tapes = Eq) {f : String → String} (hn : P.Names f)
    (kind : Counted) (count : Int) :
    Tallies P.Pairs P.failures (perform (σ := σ) preallocated (.counted kind count))
      (perform (σ := τ) preallocated (.counted kind count)) := by
  rw [perform_counted, perform_counted]
  refine .bind (fun s s' hs => hs.turn hn ?_) fun _ => .pure Progress.done
  have ht := hs.tape
  rw [tapes] at ht ⊢
  exact tallies_eq P.same (Tape.turn kind count) _ _ ht

theorem input_tallies (read : Tallies P.devices P.failures Device.read Device.read) :
    Tallies P.Pairs P.failures (perform (σ := σ) preallocated .input)
      (perform (σ := τ) preallocated .input) := by
  refine Tallies.bind (onDevice_tallies read) fun reading => ?_
  cases reading with
  | some value => exact .bind (onTape_tallies (setValue_tallies value)) fun _ => .pure Progress.done
  | none => exact .pure Progress.waiting

theorem output_tallies
    (write : ∀ value, Tallies P.devices P.failures (Device.write value) (Device.write value)) :
    Tallies P.Pairs P.failures (perform (σ := σ) preallocated .output)
      (perform (σ := τ) preallocated .output) :=
  Tallies.bind (onTape_tallies value_tallies) fun _ =>
    .bind (onDevice_tallies (write _)) fun _ => .pure Progress.done

theorem goto_tallies {f : String → String} (hn : P.Names f) (name : String) :
    Tallies P.Pairs P.failures (perform (σ := σ) preallocated (.goto name))
      (perform (σ := τ) preallocated (.goto (f name))) := by
  have sought : ∀ t t', P.tapes t t' → Tallies P.aliases P.failures
      (Store.seek preallocated name t) (Store.seek preallocated (f name) t') := by
    intro t t' ht
    rw [hn.aliases]
    exact seek_tallies hn.injective (cells_of_tapes ht) preallocated (hn.noFreeCell name)
      (hn.unresolved name)
  exact Tallies.bind (.bind (onAliases_tallies sought) fun address =>
    onTape_tallies (moveTo_tallies address)) fun _ => .pure Progress.done

theorem blank_tallies :
    Tallies P.Pairs P.failures (perform (σ := σ) preallocated .blank)
      (perform (σ := τ) preallocated .blank) :=
  .throw (P.same _)

end pairing

/-! ## Equal tapes -/

/-- Stores with equal tapes and equal bindings, whose devices are related. -/
def Pairing.level (devices : Device → Device → Prop) : Pairing where
  tapes := Eq
  aliases := Renames id
  devices
  failures := Eq
  ruled h := ⟨_, _, h.symm⟩
  changed _ _ _ _ _ h := by rw [h]
  same _ := rfl
  within span h := congrArg (·.within span) h
  attributed span h := congrArg (·.attributed span) h

theorem Pairing.names_level (devices : Device → Device → Prop) : (level devices).Names id :=
  ⟨Function.injective_id, rfl, fun _ => rfl, fun _ => rfl⟩

end Store

end NamedTape
