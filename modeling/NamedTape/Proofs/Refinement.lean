import NamedTape.Proofs.Fusion
import NamedTape.Proofs.Joining
import NamedTape.Proofs.Simulation

/-!
# Merged programs behave as they did

The structured semantics of a program and of what merging makes of it, compared from sound stores:
both complete with the same store, or both fail with the same device, or neither ends
(`bisimulates_of_fuses`).

* A run and its merged counterpart that fail do so under the same heading. The one exception is a
  merged count that is too long to be written: where the plain run leaves the range of a cell or of
  the tape, the merged one then fails for want of a text.
* The merged failure lies where the plain one does, or around it, if the instructions lie in order.
-/

namespace NamedTape

/-- The stretch of text that a failure is attributed to after the steps. -/
def Raised.place (steps : List Instruction) : Raised → Option Span
  | .fault f => f.span
  | .foreign failure => failure.text.toOption.bind fun _ => steps.getLast?.map (·.span)
  | .interrupt => none

/-- The first stretch contains the second, or there is none of either. -/
def Encloses : Option Span → Option Span → Prop
  | some s, some t => s.Contains t
  | none, none => True
  | _, _ => False

theorem encloses_refl : (place : Option Span) → Encloses place place
  | some s => Span.contains_refl s
  | none => trivial

theorem Encloses.trans {s t u : Option Span} (h : Encloses s t) (h' : Encloses t u) :
    Encloses s u := by
  cases s <;> cases t <;> cases u
  case some.some.some => exact Span.Contains.trans h h'
  case none.none.none => trivial
  all_goals first | exact h.elim | exact h'.elim

namespace Store

variable {σ : Type} {limits : Limits}

/-- The latest of the steps has a count that cannot be written. -/
def Overlong (limits : Limits) (steps : List Instruction) : Prop :=
  ∃ kind count span, steps.getLast? = some (.leaf (.counted kind count) span) ∧
    limits.canWrite count = false

/-- What a plain and a merged run that fail have in common. -/
structure Failing (limits : Limits) (placed : Prop) (steps : List Instruction) (e : Raised)
    (t : Store σ) (steps' : List Instruction) (e' : Raised) (t' : Store σ) : Prop where
  taken : steps ≠ []
  taken' : steps' ≠ []
  device : t'.device = t.device
  overlong : Overlong limits steps → Overlong limits steps'
  heading : e.heading = e'.heading ∨
    e.OutOfRange ∧ e'.heading = Raised.internal ∧ Overlong limits steps'
  place : placed → Encloses (e'.place steps') (e.place steps)

theorem getLast?_append {steps : List Instruction} (h : steps ≠ []) (before : List Instruction) :
    (before ++ steps).getLast? = steps.getLast? := by
  rw [List.getLast?_append, List.getLast?_eq_some_getLast h, Option.some_or]

theorem overlong_append {steps : List Instruction} (h : steps ≠ []) (before : List Instruction) :
    Overlong limits (before ++ steps) ↔ Overlong limits steps := by
  simp only [Overlong, getLast?_append h]

theorem place_append {steps : List Instruction} (h : steps ≠ []) (before : List Instruction)
    (e : Raised) : e.place (before ++ steps) = e.place steps := by
  cases e with
  | fault f => rfl
  | foreign failure => rw [Raised.place, Raised.place, getLast?_append h]
  | interrupt => rfl

/-- The comparison of a plain with a merged run. -/
def merging (limits : Limits) (placed : Prop) : Similarity σ where
  stores s s' := s' = s ∧ s.Sound limits
  failures := Failing limits placed
  prepend before before' h :=
    { taken := List.append_ne_nil_of_right_ne_nil before h.taken
      taken' := List.append_ne_nil_of_right_ne_nil before' h.taken'
      device := h.device
      overlong := by
        rw [overlong_append h.taken, overlong_append h.taken']
        exact h.overlong
      heading := by
        rw [overlong_append h.taken']
        exact h.heading
      place := by
        rw [place_append h.taken, place_append h.taken']
        exact h.place }

variable {placed : Prop}

theorem Failing.trans {steps steps' steps'' : List Instruction} {e e' e'' : Raised}
    {t t' t'' : Store σ} (h : Failing limits placed steps e t steps' e' t')
    (h' : Failing limits placed steps' e' t' steps'' e'' t'') :
    Failing limits placed steps e t steps'' e'' t'' where
  taken := h.taken
  taken' := h'.taken'
  device := h'.device.trans h.device
  overlong := fun ho => h'.overlong (h.overlong ho)
  heading := by
    rcases h.heading with same | ⟨range, internal, long⟩
    · rcases h'.heading with same' | ⟨range', internal', long'⟩
      · exact .inl (same.trans same')
      · exact .inr ⟨by rwa [Raised.OutOfRange, same], internal', long'⟩
    · rcases h'.heading with same' | ⟨range', internal', long'⟩
      · exact .inr ⟨range, same'.symm.trans internal, h'.overlong long⟩
      · exact .inr ⟨range, internal', long'⟩
  place := fun hp => (h'.place hp).trans (h.place hp)

/-- A failure after a step, compared with itself. -/
theorem failing_refl {steps : List Instruction} (h : steps ≠ []) (e : Raised) (t : Store σ) :
    Failing limits placed steps e t steps e t :=
  ⟨h, h, rfl, id, .inl rfl, fun _ => encloses_refl _⟩

theorem merging_transitive : (merging (σ := σ) limits placed).Transitive where
  middle s _ h := ⟨s, ⟨rfl, h.2⟩, h⟩
  stores _ _ _ h h' := ⟨h'.1.trans h.1, h.2⟩
  failures h h' := h.trans h'

theorem merging_looks (hl : limits.Legible) (verbose : Bool) :
    (merging (σ := σ) limits placed).Looks verbose where
  cell := by
    rintro s _ ⟨rfl, h⟩
    exact ⟨_, h.cell_ok, h.cell_ok⟩
  seen := by
    rintro s _ ⟨rfl, h⟩
    obtain ⟨view, seen⟩ := h.observe_ok hl verbose
    exact ⟨view, view, seen, seen⟩

/-! ## Leaves -/

variable {verbose preallocated : Bool}

theorem Performs.sound {operation : Operation} (hop : operation.Nonneg) {s t : Store σ}
    {r : Outcome σ} (h : Performs preallocated operation s r) (hs : s.Sound limits)
    (hr : r = .ok () t) : t.Sound limits := by
  induction h with
  | done h =>
    cases hr
    exact (perform_keeps preallocated hop).ok hs h
  | fails h => cases hr
  | again h _ ih => exact ih ((perform_keeps preallocated hop).ok hs h) hr

theorem bisimulates_self (hl : limits.Legible) {program : List Instruction}
    (hp : Instruction.EachLeaf Operation.Nonneg program) :
    (merging (σ := σ) limits placed).Bisimulates (Runs verbose preallocated (.list program))
      (Runs verbose preallocated (.list program)) := by
  refine .self (merging_looks hl verbose) (fun operation span hop => ?_) hp
  refine Similarity.bisimulates_of_alike (fun s s' (h : s' = s ∧ _) => h.1)
    fun s steps r hs hr => ?_
  obtain ⟨view, seen⟩ := hs.2.observe_ok hl verbose
  cases hr with
  | unseen h => cases h.symm.trans seen
  | leaf _ first next =>
    cases next
    exact .completed ⟨rfl, first.sound hop hs.2 rfl⟩
  | leafFails _ first => exact .failed (failing_refl (List.cons_ne_nil _ _) _ _)

/-! ## Two neighbours -/

theorem Performs.of_turn_ok {kind : Counted} {count : Int} {s t : Store σ}
    (h : turn kind count s = .ok () t) :
    Performs preallocated (.counted kind count) s (.ok () t) := by
  refine .done ?_
  rw [perform_counted, Action.bind_of_ok h]
  rfl

theorem Performs.of_turn_error {kind : Counted} {count : Int} {s t : Store σ} {e : Raised}
    (h : turn kind count s = .error e t) :
    Performs preallocated (.counted kind count) s (.error e t) := by
  refine .fails ?_
  rw [perform_counted, Action.bind_of_error h]

theorem overlong_singleton {kind : Counted} {count : Int} {span : Span} :
    Overlong limits [.leaf (.counted kind count) span] ↔ limits.canWrite count = false := by
  refine ⟨?_, fun h => ⟨kind, count, span, rfl, h⟩⟩
  rintro ⟨kind', count', span', h, hw⟩
  cases h
  exact hw

theorem place_within {e : Raised} (h : e.Unplaced) (before : List Instruction)
    (operation : Operation) (span : Span) :
    (e.within span).place (before ++ [.leaf operation span]) = some span := by
  cases e with
  | fault f =>
    show (f.span <|> some span) = some span
    rw [show f.span = none from h]
    rfl
  | foreign failure =>
    obtain ⟨text, voiced⟩ : failure.Voiced := h
    rw [place_append (List.cons_ne_nil _ _)]
    show (failure.text.toOption.bind fun _ => some span) = some span
    rw [voiced]
    rfl
  | interrupt => exact h.elim

theorem heading_within (e : Raised) (span : Span) : (e.within span).heading = e.heading := by
  cases e <;> rfl

theorem turn_keeps (kind : Counted) {count : Int} (hc : 0 ≤ count) {s t : Store σ}
    (hs : s.Sound limits) (h : turn kind count s = .ok () t) : t.Sound limits := by
  have performs : Performs false (.counted kind count) s (.ok () t) := .of_turn_ok h
  have nonneg : (Operation.counted kind count).Nonneg := hc
  exact performs.sound nonneg hs rfl

theorem device_of_turn_ok {kind : Counted} {count : Int} {s t : Store σ}
    (h : turn kind count s = .ok () t) : t.device = s.device := by
  have := turn_device kind count s
  rwa [h] at this

theorem device_of_turn_error {kind : Counted} {count : Int} {s t : Store σ} {e : Raised}
    (h : turn kind count s = .error e t) : t.device = s.device := by
  have := turn_device kind count s
  rwa [h] at this

/-- Failures of one of two neighbours and of what they are joined to. -/
theorem failing_joined (before : List Instruction) {kind : Counted} {count whole : Int}
    (hw : count.natAbs ≤ whole.natAbs) {span joined : Span} (hp : placed → joined.Contains span)
    {e e' : Raised} {t t' : Store σ} (hd : t'.device = t.device)
    (h : Raised.Joins limits whole e e') :
    Failing limits placed (before ++ [.leaf (.counted kind count) span]) (e.within span) t
      [.leaf (.counted kind whole) joined] (e'.within joined) t' where
  taken := List.append_ne_nil_of_right_ne_nil before (List.cons_ne_nil _ _)
  taken' := List.cons_ne_nil _ _
  device := hd
  overlong := by
    rw [overlong_append (List.cons_ne_nil _ _), overlong_singleton, overlong_singleton]
    intro long
    refine Bool.eq_false_iff.mpr fun write => ?_
    exact Bool.eq_false_iff.mp long (Limits.canWrite_mono hw write)
  heading := by
    rw [overlong_singleton, Raised.OutOfRange, heading_within, heading_within]
    rcases h.heading with same | ⟨range, rfl, long⟩
    · exact .inl same
    · exact .inr ⟨range, rfl, long⟩
  place := by
    intro hplaced
    have place := place_within h.unplaced' [] (.counted kind whole) joined
    rw [List.nil_append] at place
    rw [place_within h.unplaced, place]
    exact hp hplaced

/-- Two neighbours do what they are joined to. -/
theorem bisimulates_join (hl : limits.Legible) (kind : Counted) {m n : Int} (hm : 0 ≤ m)
    (hn : 0 ≤ n) {first second joined : Span}
    (hp : placed → joined.Contains first ∧ joined.Contains second) :
    (merging (σ := σ) limits placed).Bisimulates
      (Runs verbose preallocated
        (.list [.leaf (.counted kind m) first, .leaf (.counted kind n) second]))
      (Runs verbose preallocated (.list [.leaf (.counted kind (m + n)) joined])) := by
  refine Similarity.bisimulates_of_runs ?_
  rintro _ s ⟨rfl, hs⟩
  obtain ⟨view, seen⟩ := hs.observe_ok hl verbose
  have joins := hs.turn_turn hl kind hm hn
  cases part : turn kind m s with
  | error e t =>
    rw [Action.bind_of_error part] at joins
    cases whole : turn kind (m + n) s with
    | ok a t' =>
      rw [whole] at joins
      exact joins.elim
    | error e' t' =>
      rw [whole] at joins
      have hd := (device_of_turn_error whole).trans (device_of_turn_error part).symm
      exact ⟨_, _, _, _, .leafFails seen (.of_turn_error part),
        .leafFails seen (.of_turn_error whole),
        .failed (failing_joined [] (by omega) (fun h => (hp h).1) hd joins)⟩
  | ok a t =>
    rw [Action.bind_of_ok part] at joins
    have ht := turn_keeps kind hm hs part
    obtain ⟨view', seen'⟩ := ht.observe_ok hl verbose
    cases whole : turn kind (m + n) s with
    | ok a' t' =>
      cases last : turn kind n t with
      | ok a'' t'' =>
        rw [whole, last] at joins
        cases joins
        exact ⟨_, _, _, _, .leaf seen (.of_turn_ok part) (.leaf seen' (.of_turn_ok last) .nil),
          .leaf seen (.of_turn_ok whole) .nil, .completed ⟨rfl, turn_keeps kind hn ht last⟩⟩
      | error e t'' =>
        rw [whole, last] at joins
        exact joins.elim
    | error e' t' =>
      cases last : turn kind n t with
      | ok a'' t'' =>
        rw [whole, last] at joins
        exact joins.elim
      | error e t'' =>
        rw [whole, last] at joins
        have hd := (device_of_turn_error whole).trans
          ((device_of_turn_error last).trans (device_of_turn_ok part)).symm
        exact ⟨_, _, _, _,
          .leaf seen (.of_turn_ok part) (.leafFails seen' (.of_turn_error last)),
          .leafFails seen (.of_turn_error whole),
          .failed (failing_joined [.leaf (.counted kind m) first] (by omega)
            (fun h => (hp h).2) hd joins)⟩

/-! ## Programs -/

/-- A program does what it is fused to. -/
theorem bisimulates_of_fuses (hl : limits.Legible) {program merged : List Instruction}
    (h : Instruction.Fuses placed program merged)
    (hp : Instruction.EachLeaf Operation.Nonneg program) :
    (merging (σ := σ) limits placed).Bisimulates (Runs verbose preallocated (.list program))
      (Runs verbose preallocated (.list merged)) := by
  induction h with
  | refl l => exact bisimulates_self hl hp
  | trans h _ ih ih' =>
    exact (ih hp).trans merging_transitive (ih' (h.eachLeaf (fun _ _ _ => Int.add_nonneg) hp))
  | append _ _ ih ih' =>
    exact (ih (hp.of_subset fun _ => List.mem_append_left _)).append
      (ih' (hp.of_subset fun _ => List.mem_append_right _))
  | loop span _ ih => exact (ih hp.of_loop).loop (merging_looks hl verbose) span
  | join kind m n hspans =>
    exact bisimulates_join hl kind hp.of_leaf hp.tail.of_leaf hspans

end Store

end NamedTape
