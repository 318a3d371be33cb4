import Mathlib.Data.List.ReduceOption
import NamedTape.Proofs.Attribution
import NamedTape.Proofs.Coincidence

/-!
# Bytes that are late

An answer that no byte is there yet is invisible to a program. Two executions whose input buffers
have the same bytes, and hold any number of such answers between and after them, coincide
(`late_bytes_coincide`).

* An input waits until the next byte of the buffer is there and takes it, or fails at its end
  (`performs_input`). Every buffer is finite, so it does not wait forever.
* The numbers of reads differ by the difference in the answers that had to be waited for.
-/

namespace NamedTape

open NamedTape.Action (Tallies Tally)

namespace Device

/-! ## Buffers -/

/-- A device that answers with the entries in turn, of which some say that no byte is there yet, and
then has no more input. -/
def buffer (entries : List (Option Int)) : Device :=
  .ofReadings .memory (entries.map fun entry => entry.elim .notYet .byte)

/-- The device answers from a buffer with the entries. -/
structure Buffers (entries : List (Option Int)) (d : Device) : Prop where
  sink : d.sink = .memory
  readings : d.readings = (buffer entries).readings
  refusals : d.refusals = fun _ => none

/-- The bytes that are left of the entries. -/
def left (entries : List (Option Int)) (d : Device) : List Int :=
  (entries.drop d.reads).reduceOption

/-- How often the device has answered that no byte is there yet. -/
def waits (entries : List (Option Int)) (d : Device) : Nat := (entries.take d.reads).count none

/-- The device after one more read. -/
def asked (d : Device) : Device := { d with reads := d.reads + 1 }

variable {entries : List (Option Int)} {d : Device}

theorem buffers_buffer (entries : List (Option Int)) : (buffer entries).Buffers entries :=
  ⟨rfl, rfl, rfl⟩

theorem Buffers.asked (h : d.Buffers entries) : d.asked.Buffers entries :=
  ⟨h.sink, h.readings, h.refusals⟩

/-- A read answers with the next entry. -/
theorem Buffers.read_eq (h : d.Buffers entries) :
    Device.read d = match entries.drop d.reads with
      | [] => .error (.of .inputExhausted) d.asked
      | entry :: _ => .ok entry d.asked := by
  have reading : d.readings d.reads =
      ((entries[d.reads]?).map fun entry => entry.elim .notYet .byte).getD
        (.fails (.of .inputExhausted)) := by
    rw [h.readings, buffer, ofReadings]
    simp [Array.getD_eq_getD_getElem?]
  unfold Device.read
  rw [reading]
  cases hd : entries.drop d.reads with
  | nil =>
    rw [List.getElem?_eq_none (List.drop_eq_nil_iff.mp hd)]
    rfl
  | cons entry rest =>
    have next : entries[d.reads]? = some entry := by
      rw [← List.head?_drop, hd]
      rfl
    rw [next]
    cases entry <;> rfl

theorem left_asked :
    d.asked.left entries = ((entries.drop d.reads).drop 1).reduceOption := by
  rw [left, List.drop_drop]
  rfl

theorem waits_asked :
    d.asked.waits entries = d.waits entries + ((entries.drop d.reads).take 1).count none := by
  rw [waits, show d.asked.reads = d.reads + 1 from rfl, List.take_add, List.count_append, waits]

/-- From the first device to the second one an input has been served: the device has been asked
until the next byte came, or until the end of the buffer. -/
structure Feeds (entries : List (Option Int)) (d d' : Device) : Prop where
  buffers : d'.Buffers entries
  writes : d'.writes = d.writes
  output : d'.output = d.output
  left : d'.left entries = (d.left entries).tail
  reads : d'.reads + d.waits entries = d.reads + d'.waits entries + 1

/-- An entry that is a byte feeds an input, and so does the end of the buffer. -/
theorem feeds_asked (h : d.Buffers entries) (hd : ∀ rest, entries.drop d.reads ≠ none :: rest) :
    Feeds entries d d.asked := by
  have reads : d.asked.reads = d.reads + 1 := rfl
  refine ⟨h.asked, rfl, rfl, ?_, ?_⟩
  · rw [left_asked, left]
    rcases hr : entries.drop d.reads with _ | ⟨_ | value, rest⟩
    · rfl
    · exact absurd hr (hd rest)
    · rw [List.reduceOption_cons_of_some]
      rfl
  · rw [waits_asked, reads]
    rcases hr : entries.drop d.reads with _ | ⟨_ | value, rest⟩
    · simp
      omega
    · exact absurd hr (hd rest)
    · simp
      omega

/-- What an input is served with after a wait is what it is served with. -/
theorem Feeds.of_wait {rest : List (Option Int)} {d' : Device}
    (hd : entries.drop d.reads = none :: rest) (h : Feeds entries d.asked d') :
    Feeds entries d d' := by
  have left : d.asked.left entries = d.left entries := by
    rw [left_asked, Device.left, hd, List.reduceOption_cons_of_none]
    rfl
  have waits : d.asked.waits entries = d.waits entries + 1 := by
    rw [waits_asked, hd]
    rfl
  have reads : d.asked.reads = d.reads + 1 := rfl
  refine ⟨h.buffers, h.writes, h.output, left ▸ h.left, ?_⟩
  have := h.reads
  omega

/-- The devices have the same bytes left, and have been given the same to keep. They have been asked
equally often but for the answers that no byte is there yet. -/
structure Polled (entries entries' : List (Option Int)) (d d' : Device) : Prop where
  buffers : d.Buffers entries
  buffers' : d'.Buffers entries'
  writes : d'.writes = d.writes
  output : d'.output = d.output
  left : d'.left entries' = d.left entries
  reads : d'.reads + d.waits entries = d.reads + d'.waits entries'

variable {entries' : List (Option Int)} {d' : Device}

theorem Polled.feeds (h : Polled entries entries' d d') {u u' : Device}
    (hu : Feeds entries d u) (hu' : Feeds entries' d' u') : Polled entries entries' u u' := by
  refine ⟨hu.buffers, hu'.buffers, ?_, ?_, ?_, ?_⟩
  · rw [hu'.writes, h.writes, hu.writes]
  · rw [hu'.output, h.output, hu.output]
  · rw [hu'.left, h.left, hu.left]
  · have first := hu.reads
    have second := hu'.reads
    have before := h.reads
    omega

theorem write_polled (value : Int) :
    Tallies (Polled entries entries') Eq (Device.write value) (Device.write value) := by
  intro d d' h
  unfold Device.write
  rw [h.buffers.refusals, h.buffers'.refusals, h.buffers.sink, h.buffers'.sink, h.writes, h.output]
  dsimp only
  have first := h.buffers.readings
  have second := h.buffers'.readings
  split
  · exact .ok ⟨⟨rfl, first, rfl⟩, ⟨rfl, second, rfl⟩, rfl, rfl, h.left, h.reads⟩
  · exact .error ⟨⟨rfl, first, rfl⟩, ⟨rfl, second, rfl⟩, rfl, rfl, h.left, h.reads⟩ rfl

end Device

namespace Store

open Device (Buffers Polled Feeds)
open Lockstep (leads_of_performs)
open Pairing (level)

variable {σ τ : Type} {entries entries' : List (Option Int)}

/-- What an input comes to with the next byte, if there is one. -/
def served : Option Int → Store σ → Outcome σ
  | some value, s => onTape (Tape.setValue value) s
  | none, s => .error (.of .inputExhausted) s

theorem onDevice_read {s : Store σ} (h : s.device.Buffers entries) :
    onDevice Device.read s = match entries.drop s.device.reads with
      | [] => .error (.of .inputExhausted) { s with device := s.device.asked }
      | entry :: _ => .ok entry { s with device := s.device.asked } := by
  rw [onDevice, h.read_eq]
  cases entries.drop s.device.reads <;> rfl

/-- **An input takes the next byte.** It waits for the next byte that is left and takes it, or fails
if none is left. -/
theorem performs_input {s : Store σ} (h : s.device.Buffers entries) (preallocated : Bool) :
    ∃ device, Feeds entries s.device device ∧
      Performs preallocated .input s
        (served (s.device.left entries).head? { s with device }) := by
  -- By induction on what is left of the buffer: each wait uses up an entry.
  generalize hl : entries.drop s.device.reads = rest
  induction rest generalizing s with
  | nil =>
    have answered := onDevice_read h
    rw [hl] at answered
    have left : s.device.left entries = [] := by
      rw [Device.left, hl]
      rfl
    refine ⟨s.device.asked, Device.feeds_asked h (by rw [hl]; nofun), ?_⟩
    rw [left]
    exact .fails (Action.bind_of_error answered _)
  | cons entry rest ih =>
    have answered := onDevice_read h
    rw [hl] at answered
    cases entry with
    | none =>
      have later : entries.drop s.device.asked.reads = rest := by
        rw [show s.device.asked.reads = s.device.reads + 1 from rfl, ← List.drop_drop, hl]
        rfl
      have left : s.device.asked.left entries = s.device.left entries := by
        rw [Device.left_asked, Device.left, hl, List.reduceOption_cons_of_none]
        rfl
      obtain ⟨device, feeds, performs⟩ :=
        ih (s := { s with device := s.device.asked }) h.asked later
      rw [left] at performs
      exact ⟨device, feeds.of_wait hl, .again (Action.bind_of_ok answered _) performs⟩
    | some value =>
      have left : (s.device.left entries).head? = some value := by
        rw [Device.left, hl, List.reduceOption_cons_of_some]
        rfl
      refine ⟨s.device.asked, Device.feeds_asked h (by rw [hl]; nofun), ?_⟩
      rw [left, served]
      have received : perform preallocated .input s =
          (onTape (Tape.setValue value) >>= fun _ => pure Progress.done)
            { s with device := s.device.asked } := Action.bind_of_ok answered _
      cases hv : onTape (Tape.setValue value) { s with device := s.device.asked } with
      | ok a t => exact .done (received.trans (Action.bind_of_ok hv _))
      | error e t => exact .fails (received.trans (Action.bind_of_error hv _))

theorem served_tally {P : Pairing} {s : Store σ} {s' : Store τ} (hs : P.Pairs s s')
    (next : Option Int) : Tally P.Pairs P.failures (served next s) (served next s') := by
  cases next with
  | some value => exact hs.onTape (setValue_tallies value _ _ hs.tape)
  | none => exact .error hs (P.same _)

/-- An input is served alike on another buffer with the same bytes left. -/
theorem input_leads (preallocated : Bool) :
    ((level (Polled entries entries')).along Eq).Leads σ τ preallocated .input .input := by
  refine leads_of_performs fun s s' hs => ?_
  obtain ⟨device, feeds, performs⟩ := performs_input hs.device.buffers preallocated
  obtain ⟨device', feeds', performs'⟩ := performs_input hs.device.buffers' preallocated
  have left : (level (Polled entries entries')).Pairs { s with device }
      { s' with device := device' } :=
    ⟨hs.tape, hs.aliases, hs.device.feeds feeds feeds'⟩
  rw [hs.device.left] at performs'
  exact ⟨_, _, performs, performs', .inr (served_tally left _)⟩

end Store

namespace Session

open Device (Polled Feeds)
open Store (Performs served)
open Store.Pairing (level)

variable {σ : Type} {program : Program} {aliases : Option AliasTable} {s : Session σ}

/-- The session with a buffer of the entries for its input. -/
def withInput (entries : List (Option Int)) (s : Session σ) : Session σ :=
  s.withStore { s.store with device := .buffer entries }

/-- **Late bytes are invisible.** Executions coincide on buffers that hold the same bytes. Each
input of them takes the next byte that is left, or fails if none is left. -/
theorem late_bytes_coincide (hq : s.Quiet) {entries entries' : List (Option Int)}
    (h : entries'.reduceOption = entries.reduceOption) :
    Coincide (level (Polled entries entries')) program aliases (s.withInput entries) program aliases
        (s.withInput entries') ∧
      ∀ (preallocated : Bool) (store : Store σ), store.device.Buffers entries →
        ∃ device, Feeds entries store.device device ∧
          ∀ r, Performs preallocated .input store r ↔
            served (store.device.left entries).head? { store with device } = r := by
  have abreast : Abreast ((level (Polled entries entries')).along Eq) program aliases
      (s.withInput entries) program aliases (s.withInput entries') := {
    quiet := quiet_withStore hq _
    quiet' := quiet_withStore hq _
    verbose := rfl
    preallocate := rfl
    mirrors := Instruction.mirrors_of_eachLeaf (fun _ _ => rfl) _ (Instruction.eachLeaf_true _)
    marches := Store.Pairing.level_marches (Store.input_leads _) Device.write_polled
    opening := opening_tally (Store.Pairing.names_level _) rfl
      ⟨Device.buffers_buffer entries, Device.buffers_buffer entries', rfl, rfl, h, rfl⟩ rfl
      fun _ => (List.map_id _).symm
    early := fun _ _ => rfl }
  refine ⟨abreast.coincide_along, fun preallocated store hb => ?_⟩
  obtain ⟨device, feeds, performs⟩ := Store.performs_input hb preallocated
  refine ⟨device, feeds, fun r => ⟨performs.unique, ?_⟩⟩
  rintro rfl
  exact performs

/-- Reads a byte and writes it, and then wants another one. -/
def echo : Program where
  instructions := [.leaf .input ⟨0, 1⟩, .leaf .output ⟨1, 1⟩, .leaf .input ⟨2, 1⟩]

theorem late_bytes_coincide_echo :
    cornered.Quiet ∧ [none, some 65, none].reduceOption = [some (65 : Int)].reduceOption ∧
      ∃ e t e' t', Executes echo none (cornered.withInput [some 65]) (.error e t) ∧
        Executes echo none (cornered.withInput [none, some 65, none]) (.error e' t') ∧
        e.untimed = e'.untimed ∧ t'.store.device.output = t.store.device.output ∧
        t'.store.device.reads + t.store.device.waits [some 65] =
          t.store.device.reads + t'.store.device.waits [none, some 65, none] := by
  have shown : faults (fun _ _ => true) (executeFor 3 echo none (cornered.withInput [some 65])) =
      true := by decide +kernel
  have shown' : faults (fun _ _ => true)
      (executeFor 5 echo none (cornered.withInput [none, some 65, none])) = true := by
    decide +kernel
  obtain ⟨f, t, executes, -⟩ := executes_of_faults shown
  obtain ⟨f', t', executes', -⟩ := executes_of_faults shown'
  have same : [none, some 65, none].reduceOption = [some (65 : Int)].reduceOption := rfl
  have coincide := (@late_bytes_coincide Unit echo none cornered quiet_cornered _ _ same).1
  refine ⟨quiet_cornered, same, _, t, _, t', executes, executes', ?_⟩
  cases coincide.ends _ _ executes executes' with
  | failed store failure => exact ⟨failure, store.device.output, store.device.reads⟩

end Session

end NamedTape
