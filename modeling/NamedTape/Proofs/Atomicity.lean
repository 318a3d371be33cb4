import NamedTape.Proofs.Anchors

/-!
# Operations that fail

An operation that fails leaves tape, aliases and output as they were, whichever of its parts it is
that fails (`Store.perform_settles`). One that succeeds writes the current cell if it is the output
operation, and nothing else. One that has to wait has done nothing yet.
-/

namespace NamedTape

namespace Store

open NamedTape.Action (FailsInPlace Meets)

variable {σ α : Type} {s t : Store σ}

/-- The second store has the tape, the aliases and the output of the first. -/
structure Untouched (s t : Store σ) : Prop where
  tape : t.tape = s.tape
  aliases : t.aliases = s.aliases
  output : t.device.output = s.device.output

theorem untouched_refl (s : Store σ) : s.Untouched s := ⟨rfl, rfl, rfl⟩

theorem Untouched.trans {u : Store σ} (h : s.Untouched t) (h' : t.Untouched u) : s.Untouched u :=
  ⟨h'.tape.trans h.tape, h'.aliases.trans h.aliases, h'.output.trans h.output⟩

/-- The second store has the output of the first. -/
def Silent (s t : Store σ) : Prop := t.device.output = s.device.output

/-! ## Parts of operations -/

/-- A change of the tape that fails in place leaves no trace when it fails. -/
theorem onTape_silent {act : Action Tape α} (hf : FailsInPlace act) :
    Meets s.Untouched (onTape act) (fun _ => s.Silent) fun _ => s.Untouched := by
  refine meets_onTape (fun _ _ _ ht _ => ht.output) fun t e tape ht ha => ?_
  cases hf _ e tape ha
  exact ht

theorem moveLeft_silent (count : Int) :
    Meets s.Untouched (moveLeft count) (fun _ => s.Silent) fun _ => s.Untouched :=
  meets_moveLeft (fun _ _ ht _ => ht.output) fun _ _ ht _ => ht

theorem read_untouched :
    Meets s.Untouched (onDevice Device.read) (fun _ => s.Untouched) fun _ => s.Untouched := by
  intro t ht
  unfold onDevice Device.read
  cases t.device.readings t.device.reads with
  | byte value => exact ⟨ht.tape, ht.aliases, ht.output⟩
  | notYet => exact ⟨ht.tape, ht.aliases, ht.output⟩
  | fails failure => exact ⟨ht.tape, ht.aliases, ht.output⟩

/-- An alias is given its cell only if the pointer can be moved there. -/
theorem seek_silent (preallocated : Bool) (name : String) :
    Meets s.Untouched (onAliases (seek preallocated name))
      (fun address t => s.Silent t ∧
        (s.Untouched t ∨ 0 ≤ address ∧ address < t.tape.size))
      fun _ => s.Untouched := by
  intro t ht
  unfold onAliases seek
  cases hr : t.aliases.resolve? name with
  | some address => exact ⟨ht.output, .inl ht⟩
  | none =>
    cases preallocated with
    | true => exact ht
    | false =>
      obtain ⟨_, hr', -⟩ | ⟨free, -, hlt, -, ha⟩ | ⟨-, ha⟩ :=
        AliasTable.assign_cases t.tape name t.aliases
      · cases hr'.symm.trans hr
      · simp only [Bool.false_eq_true, if_false, ha]
        refine ⟨ht.output, .inr ⟨by omega, ?_⟩⟩
        show (free : Int) < t.tape.size
        omega
      · simp only [Bool.false_eq_true, if_false, ha]
        exact ht

theorem moveTo_silent (address : Int) :
    Meets (fun t => s.Silent t ∧ (s.Untouched t ∨ 0 ≤ address ∧ address < t.tape.size))
      (onTape (Tape.moveTo address)) (fun _ => s.Silent) fun _ => s.Untouched := by
  rintro t ⟨silent, untouched | within⟩
  · exact onTape_silent (Tape.failsInPlace_moveTo address) t untouched
  · rw [onTape_of_ok (show Tape.moveTo address t.tape = .ok () _ from if_pos within)]
    exact silent

theorem goto_silent (preallocated : Bool) (name : String) :
    Meets s.Untouched (goto preallocated name) (fun _ => s.Silent) fun _ => s.Untouched := by
  rw [goto_eq]
  exact (seek_silent preallocated name).bind moveTo_silent

/-! ## Operations -/

/-- What an operation writes that is carried out from the store. -/
def sends (s : Store σ) : Operation → List UInt8
  | .output => (s.tape.slot?.map s.tape.cellAt).toList
  | _ => []

/-- What an operation has made of the store: nothing as long as it waits, and in the end it has
written what it sends. -/
def Settled (s : Store σ) (operation : Operation) : Progress → Store σ → Prop
  | .done, t => t.device.output.toList = s.device.output.toList ++ s.sends operation
  | .waiting, t => s.Untouched t

theorem Silent.settled {operation : Operation} (h : s.Silent t) (hs : s.sends operation = []) :
    s.Settled operation .done t := by
  show t.device.output.toList = _
  rw [h, hs, List.append_nil]

/-- An action that writes nothing, if it is what a silent operation does. -/
theorem settles_of_silent {act : Action (Store σ) α} {operation : Operation}
    (h : Meets s.Untouched act (fun _ => s.Silent) fun _ => s.Untouched)
    (hs : s.sends operation = []) :
    Meets s.Untouched (act >>= fun _ => pure .done) (s.Settled operation) fun _ => s.Untouched :=
  h.bind fun _ => .pure fun _ ht => ht.settled hs

theorem receive_settles : Meets s.Untouched receive (s.Settled .input) fun _ => s.Untouched := by
  refine read_untouched.bind fun reading => ?_
  cases reading with
  | none => exact .pure fun _ h => h
  | some value => exact settles_of_silent (onTape_silent (Tape.failsInPlace_setValue value)) rfl

/-- The output operation writes the current cell. -/
theorem output_settles (preallocated : Bool) :
    Meets s.Untouched (perform preallocated .output) (s.Settled .output) fun _ => s.Untouched := by
  intro t ht
  have looked := cell_eq t
  unfold cell at looked
  cases hi : t.tape.slot? with
  | none =>
    rw [hi] at looked
    have stopped : perform preallocated .output t = .error t.tape.wild t :=
      Action.bind_of_error looked _
    rw [stopped]
    exact ht
  | some i =>
    rw [hi] at looked
    have sent : s.sends .output = [t.tape.cellAt i] := by
      rw [sends, ← ht.tape, hi]
      rfl
    have writes : perform preallocated .output t =
        (onDevice (Device.write ((t.tape.cellAt i).toNat : Int)) >>= fun _ => pure .done) t :=
      Action.bind_of_ok looked _
    have byte : (0 : Int) ≤ (t.tape.cellAt i).toNat ∧ ((t.tape.cellAt i).toNat : Int) ≤ 255 := by
      have := (t.tape.cellAt i).toNat_lt
      omega
    rw [writes]
    simp only [onDevice, Device.write, bind, EStateM.bind, if_pos byte]
    cases t.device.refusals t.device.writes with
    | some failure => exact ⟨ht.tape, ht.aliases, ht.output⟩
    | none =>
      show (t.device.output.push _).toList = _
      rw [Array.toList_push, ht.output, sent, Int.toNat_natCast, UInt8.ofNat_toNat]

/-- **Failures leave no trace.** -/
theorem perform_settles (preallocated : Bool) (operation : Operation) :
    Meets s.Untouched (perform preallocated operation) (s.Settled operation)
      fun _ => s.Untouched := by
  cases operation with
  | counted kind count =>
    cases kind with
    | add => exact settles_of_silent (onTape_silent (Tape.failsInPlace_shift count)) rfl
    | subtract => exact settles_of_silent (onTape_silent (Tape.failsInPlace_shift (-count))) rfl
    | left => exact settles_of_silent (moveLeft_silent count) rfl
    | right => exact settles_of_silent (onTape_silent (Tape.failsInPlace_moveRight count)) rfl
  | input => exact receive_settles
  | output => exact output_settles preallocated
  | goto name => exact settles_of_silent (goto_silent preallocated name) rfl
  | blank => exact .throw fun _ h => h

/-- However often an operation waits before it fails, it leaves no trace. -/
theorem Performs.untouched {preallocated : Bool} {operation : Operation} {s t : Store σ}
    {e : Raised} (h : Performs preallocated operation s (.error e t)) : s.Untouched t := by
  generalize hr : (.error e t : Outcome σ) = r at h
  induction h with
  | done _ => cases hr
  | fails h =>
    cases hr
    exact (perform_settles preallocated operation).error (untouched_refl _) h
  | again h _ ih =>
    exact ((perform_settles preallocated operation).ok (untouched_refl _) h).trans (ih hr)

end Store

end NamedTape
