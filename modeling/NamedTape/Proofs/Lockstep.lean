import NamedTape.Proofs.Pairings
import NamedTape.Proofs.Simulation

/-!
# Runs in lockstep

Two programs of the same shape run on stores that correspond. If the operations in the same places
do what corresponds, so do the runs (`Lockstep.Marches.follows`).

* A `Lockstep` is a pairing of stores that also says which operations can be in the same place, and
  after which failures of an operation the two runs are not compared any more.
* Operations are compared by what they come to when they are carried out to their end: one may have
  to wait for a byte more often than the other.
-/

namespace NamedTape

/-! ## Programs of one shape -/

namespace Instruction

variable {leaves : Operation → Operation → Prop} {l l' m m' : List Instruction}

/-- The programs have the same shape and the same spans, and the operations in the same places are
related. -/
inductive Mirrors (leaves : Operation → Operation → Prop) :
    List Instruction → List Instruction → Prop
  | nil : Mirrors leaves [] []
  | leaf {operation operation' : Operation} {rest rest' : List Instruction} (span : Span)
    (h : leaves operation operation') (next : Mirrors leaves rest rest') :
    Mirrors leaves (.leaf operation span :: rest) (.leaf operation' span :: rest')
  | loop {body body' rest rest' : List Instruction} (span : Span)
    (inside : Mirrors leaves body body') (next : Mirrors leaves rest rest') :
    Mirrors leaves (.loop body span :: rest) (.loop body' span :: rest')

theorem mirrors_of_eachLeaf {P : Operation → Prop} (hP : ∀ operation, P operation →
    leaves operation operation) : (l : List Instruction) → EachLeaf P l → Mirrors leaves l l
  | [], _ => .nil
  | .leaf _ span :: rest, h => .leaf span (hP _ h.of_leaf) (mirrors_of_eachLeaf hP rest h.tail)
  | .loop body span :: rest, h =>
    .loop span (mirrors_of_eachLeaf hP body h.of_loop) (mirrors_of_eachLeaf hP rest h.tail)

theorem eachLeaf_true (l : List Instruction) : EachLeaf (fun _ => True) l :=
  throughout_of_closed (Q := fun _ => True) (fun _ _ _ _ _ => trivial) (fun _ _ _ _ _ => trivial) l
    trivial

theorem Mirrors.append (h : Mirrors leaves l l') (hm : Mirrors leaves m m') :
    Mirrors leaves (l ++ m) (l' ++ m') := by
  induction h with
  | nil => exact hm
  | leaf span h _ ih => exact .leaf span h ih
  | loop span inside _ _ ih => exact .loop span inside ih

theorem Mirrors.flip (h : Mirrors leaves l l') : Mirrors (fun o' o => leaves o o') l' l := by
  induction h with
  | nil => exact .nil
  | leaf span h _ ih => exact .leaf span h ih
  | loop span _ _ ih ih' => exact .loop span ih ih'

theorem Mirrors.spans (h : Mirrors leaves l l') : l'.map (·.span) = l.map (·.span) := by
  induction h with
  | nil => rfl
  | leaf span _ _ ih => exact congrArg (span :: ·) ih
  | loop span _ _ _ ih => exact congrArg (span :: ·) ih

end Instruction

namespace Store

open NamedTape.Action (Tallies Tally)
open Instruction (Mirrors)

variable {σ τ : Type}

/-! ## Operations that correspond -/

/-- How two programs are compared as they run. -/
structure Lockstep extends Pairing where
  /-- The operations that can be in the same place. -/
  leaves : Operation → Operation → Prop
  /-- The failures of an operation of the first program after which nothing is compared. -/
  breaks : Operation → Raised → Prop
  /-- Those of an operation of the second program. -/
  breaks' : Operation → Raised → Prop

/-- A comparison to the end. -/
def Pairing.along (P : Pairing) (leaves : Operation → Operation → Prop) : Lockstep where
  toPairing := P
  leaves
  breaks _ _ := False
  breaks' _ _ := False

/-- The operation has come to one of the failures. -/
def Broken (breaks : Operation → Raised → Prop) (operation : Operation) (r : Outcome σ) : Prop :=
  ∃ e t, r = .error e t ∧ breaks operation e

/-- The run has come to its end by such a failure of the operation that it took last. -/
inductive Breaks (breaks : Operation → Raised → Prop) : List Instruction → Outcome σ → Prop
  | intro (before : List Instruction) {operation : Operation} (span : Span) {e : Raised}
    (t : Store σ) (h : breaks operation e) :
    Breaks breaks (before ++ [.leaf operation span]) (.error (e.within span) t)

theorem Breaks.prepend {breaks : Operation → Raised → Prop} {steps : List Instruction}
    {r : Outcome σ} (h : Breaks breaks steps r) (before : List Instruction) :
    Breaks breaks (before ++ steps) r := by
  obtain ⟨between, span, t, h⟩ := h
  rw [← List.append_assoc]
  exact .intro _ span t h

namespace Lockstep

variable {L : Lockstep} {preallocated verbose : Bool}

/-- The comparison the other way round. -/
def flip (L : Lockstep) : Lockstep where
  toPairing := L.toPairing.flip
  leaves o o' := L.leaves o' o
  breaks := L.breaks'
  breaks' := L.breaks

/-- Whatever one of the two operations comes to, the other comes to something that corresponds, or
to a failure after which nothing is compared. -/
structure Leads (L : Lockstep) (σ τ : Type) (preallocated : Bool)
    (operation operation' : Operation) : Prop where
  forth : ∀ (s : Store σ) (s' : Store τ) r, L.Pairs s s' → Performs preallocated operation s r →
    Broken L.breaks operation r ∨ ∃ r', Performs preallocated operation' s' r' ∧
      (Broken L.breaks' operation' r' ∨ Tally L.Pairs L.failures r r')
  back : ∀ (s : Store σ) (s' : Store τ) r', L.Pairs s s' →
    Performs preallocated operation' s' r' →
    Broken L.breaks' operation' r' ∨ ∃ r, Performs preallocated operation s r ∧
      (Broken L.breaks operation r ∨ Tally L.Pairs L.failures r r')

theorem Leads.flip {operation operation' : Operation}
    (h : L.Leads σ τ preallocated operation operation') :
    L.flip.Leads τ σ preallocated operation' operation := by
  have turned : ∀ {r : Outcome σ} {r' : Outcome τ}, Tally L.Pairs L.failures r r' →
      Tally L.flip.Pairs L.flip.failures r' r := fun tally =>
    tally.flip.mono (fun _ _ => Pairing.pairs_flip.mpr) fun _ _ he => he
  constructor
  · intro s' s r' hs hp
    refine (h.back s s' r' (Pairing.pairs_flip.mp hs) hp).imp id ?_
    rintro ⟨r, hr, done⟩
    exact ⟨r, hr, done.imp id turned⟩
  · intro s' s r hs hp
    refine (h.forth s s' r (Pairing.pairs_flip.mp hs) hp).imp id ?_
    rintro ⟨r', hr, done⟩
    exact ⟨r', hr, done.imp id turned⟩

/-- Operations that always come to an end need to be compared only in how they do. -/
theorem leads_of_performs {operation operation' : Operation}
    (h : ∀ (s : Store σ) (s' : Store τ), L.Pairs s s' →
      ∃ r r', Performs preallocated operation s r ∧ Performs preallocated operation' s' r' ∧
        (Broken L.breaks operation r ∨ Tally L.Pairs L.failures r r')) :
    L.Leads σ τ preallocated operation operation' := by
  constructor
  · intro s s' r₁ hs hp
    obtain ⟨r, r', hr, hr', done⟩ := h s s' hs
    cases hp.unique hr
    exact done.imp id fun tally => ⟨r', hr', .inr tally⟩
  · intro s s' r₁ hs hp
    obtain ⟨r, r', hr, hr', done⟩ := h s s' hs
    cases hp.unique hr'
    exact .inr ⟨r, hr, done⟩

/-- An operation that is carried out step by step as another one comes to what the other one comes
to. -/
theorem performs_of_tallies {R : Store σ → Store τ → Prop} {F : Raised → Raised → Prop}
    {operation operation' : Operation}
    (h : Tallies R F (perform preallocated operation) (perform preallocated operation'))
    {s : Store σ} {s' : Store τ} (hs : R s s') {r : Outcome σ}
    (hp : Performs preallocated operation s r) :
    ∃ r', Performs preallocated operation' s' r' ∧ Tally R F r r' := by
  induction hp generalizing s' with
  | done hp =>
    obtain ⟨t', hp', ht⟩ := h.ok hs hp
    exact ⟨_, .done hp', .ok ht⟩
  | fails hp =>
    obtain ⟨e', t', hp', ht, he⟩ := h.error hs hp
    exact ⟨_, .fails hp', .error ht he⟩
  | again hp _ ih =>
    obtain ⟨t', hp', ht⟩ := h.ok hs hp
    obtain ⟨r', hr, tally⟩ := ih ht
    exact ⟨r', .again hp' hr, tally⟩

theorem leads_of_tallies {operation operation' : Operation}
    (h : Tallies L.Pairs L.failures (perform (σ := σ) preallocated operation)
      (perform (σ := τ) preallocated operation')) :
    L.Leads σ τ preallocated operation operation' := by
  constructor
  · intro s s' r hs hp
    obtain ⟨r', hr, tally⟩ := performs_of_tallies h hs hp
    exact .inr ⟨r', hr, .inr tally⟩
  · intro s s' r' hs hp
    obtain ⟨r, hr, tally⟩ := performs_of_tallies h.flip hs hp
    exact .inr ⟨r, hr, .inr tally.flip⟩

/-- All operations in the same places lead each other. -/
def Marches (L : Lockstep) (σ τ : Type) (preallocated : Bool) : Prop :=
  ∀ operation operation', L.leaves operation operation' →
    L.Leads σ τ preallocated operation operation'

theorem Marches.flip (h : L.Marches σ τ preallocated) : L.flip.Marches τ σ preallocated :=
  fun _ _ hl => (h _ _ hl).flip

/-! ## Runs that correspond -/

/-- What the second behavior has to set against the end of a run. -/
inductive Answers (L : Lockstep) (steps : List Instruction) (r : Outcome σ)
    (second : List Instruction → Outcome τ → Prop) : Prop
  /-- Nothing: the run is not compared. -/
  | broken (h : Breaks L.breaks steps r)
  /-- An end that is not compared. -/
  | breaks {steps' : List Instruction} {r' : Outcome τ} (h : second steps' r')
    (hb : Breaks L.breaks' steps' r')
  /-- An end that corresponds, after steps that correspond. -/
  | alike {steps' : List Instruction} {r' : Outcome τ} (h : second steps' r')
    (mirrors : Mirrors L.leaves steps steps') (tally : Tally L.Pairs L.failures r r')

section answers

variable {steps steps' before before' : List Instruction} {r : Outcome σ} {s t : Store σ}
  {s' : Store τ} {e : Raised} {first next : Behavior τ}
  {second whole : List Instruction → Outcome τ → Prop}

theorem Answers.prepend (h : L.Answers steps r second) (mirrors : Mirrors L.leaves before before')
    (hw : ∀ {steps' r'}, second steps' r' → whole (before' ++ steps') r') :
    L.Answers (before ++ steps) r whole := by
  cases h with
  | broken hb => exact .broken (hb.prepend before)
  | breaks h hb => exact .breaks (hw h) (hb.prepend before')
  | alike h inner tally => exact .alike (hw h) (mirrors.append inner) tally

theorem Answers.mono (h : L.Answers steps r second)
    (hw : ∀ {steps' r'}, second steps' r' → whole steps' r') : L.Answers steps r whole :=
  h.prepend .nil hw

/-- A first part that ends well, and then the rest. -/
theorem Answers.goes (h : L.Answers steps (.ok () t) (first s'))
    (hn : ∀ {t'}, L.Pairs t t' → L.Answers steps' r (next t')) :
    L.Answers (steps ++ steps') r (Then first next s') := by
  cases h with
  | broken hb => cases hb
  | breaks h hb =>
    obtain ⟨before, span, t', hb⟩ := hb
    exact .breaks (.fails h) (.intro before span t' hb)
  | alike h mirrors tally =>
    cases tally with
    | ok ht => exact (hn ht).prepend mirrors fun h' => .goes h h'

/-- A first part that fails. -/
theorem Answers.fails (h : L.Answers steps (.error e t) (first s')) :
    L.Answers steps (.error e t) (Then first next s') := by
  cases h with
  | broken hb => exact .broken hb
  | breaks h hb =>
    obtain ⟨before, span, t', hb⟩ := hb
    exact .breaks (.fails h) (.intro before span t' hb)
  | alike h mirrors tally =>
    cases tally with
    | error ht he => exact .alike (.fails h) mirrors (.error ht he)

/-! ### Runs of single instructions -/

theorem runs_cons (i : Instruction) (rest : List Instruction) :
    Runs (σ := σ) verbose preallocated (.list (i :: rest)) =
      Then (Runs verbose preallocated (.list [i])) (Runs verbose preallocated (.list rest)) :=
  runs_append verbose preallocated [i] rest

theorem runs_passes {body : List Instruction} {n : Nat} (hc : cell s = .ok n s) (hn : n ≠ 0)
    (h : Then (Runs verbose preallocated (.list body)) (Runs verbose preallocated (.passes body))
      s steps r) : Runs verbose preallocated (.passes body) s steps r := by
  cases h with
  | fails h => exact .passFails hc hn h
  | goes h h' => exact .pass hc hn h h'

/-- The outcome of an operation as that of the program that consists of it. -/
def placed (span : Span) : Outcome σ → Outcome σ
  | .ok a t => .ok a t
  | .error e t => .error (e.within span) t

theorem runs_leaf {operation : Operation} {span : Span} {view : Option String}
    (seen : observe verbose s = .ok view s) (h : Performs preallocated operation s r) :
    Runs verbose preallocated (.list [.leaf operation span]) s [.leaf operation span]
      (placed span r) := by
  cases r with
  | ok a t => exact .leaf seen h .nil
  | error e t => exact .leafFails seen h

theorem runs_loop {body : List Instruction} {span : Span} {view : Option String}
    (seen : observe verbose s = .ok view s)
    (h : Runs verbose preallocated (.passes body) s steps r) :
    Runs verbose preallocated (.list [.loop body span]) s (.loop body span :: steps) r := by
  cases r with
  | ok a t =>
    have run : Runs verbose preallocated (.list [.loop body span]) s
        (.loop body span :: (steps ++ [])) (.ok a t) := .loop seen h .nil
    rwa [List.append_nil] at run
  | error e t => exact .loopFails seen h

theorem breaks_of_broken {breaks : Operation → Raised → Prop} {operation : Operation}
    (h : Broken breaks operation r) (span : Span) :
    Breaks breaks [.leaf operation span] (placed span r) := by
  obtain ⟨e, t, rfl, he⟩ := h
  exact .intro [] span t he

theorem Leads.answers {operation operation' : Operation}
    (h : L.Leads σ τ preallocated operation operation') (hs : L.Pairs s s')
    {view : Option String} (seen : observe verbose s = .ok view s)
    (hp : Performs preallocated operation s r) (hl : L.leaves operation operation')
    (span : Span) :
    L.Answers [.leaf operation span] (placed span r)
      (Runs verbose preallocated (.list [.leaf operation' span]) s') := by
  have seen' := hs.observe_ok seen
  rcases h.forth s s' r hs hp with hb | ⟨r', hr, hb | tally⟩
  · exact .broken (breaks_of_broken hb span)
  · exact .breaks (runs_leaf seen' hr) (breaks_of_broken hb span)
  · refine .alike (runs_leaf seen' hr) (.leaf span hl .nil) ?_
    cases tally with
    | ok ht => exact .ok ht
    | error ht he => exact .error ht (L.within span he)

theorem Answers.loop {body body' : List Instruction} {span : Span} {view : Option String}
    (h : L.Answers steps r (Runs verbose preallocated (.passes body') s')) (hs : L.Pairs s s')
    (seen : observe verbose s = .ok view s) (hb : Mirrors L.leaves body body') :
    L.Answers (.loop body span :: steps) r
      (Runs verbose preallocated (.list [.loop body' span]) s') :=
  h.prepend (.loop span hb .nil) fun h => runs_loop (hs.observe_ok seen) h

end answers

/-- Tasks of the same shape, with operations in the same places that are related. -/
inductive Tasks (L : Lockstep) : Task → Task → Prop
  | list {l l' : List Instruction} (h : Mirrors L.leaves l l') : Tasks L (.list l) (.list l')
  | passes {b b' : List Instruction} (h : Mirrors L.leaves b b') : Tasks L (.passes b) (.passes b')

/-- **Runs in lockstep.** Where the operations in the same places lead each other, every run is
answered by the other program. -/
theorem Marches.follows (h : L.Marches σ τ preallocated) {task task' : Task} {s : Store σ}
    {s' : Store τ} {steps : List Instruction} {r : Outcome σ} (ht : L.Tasks task task')
    (hs : L.Pairs s s') (hr : Runs verbose preallocated task s steps r) :
    L.Answers steps r (Runs verbose preallocated task' s') := by
  -- By induction on the run. What follows its first part is answered from the stores that the first
  -- parts leave, which is why the second store varies.
  induction hr generalizing task' s' with
  | nil =>
    rcases ht with ⟨⟨⟩⟩
    exact .alike .nil .nil (.ok hs)
  | unseen unseen =>
    obtain ⟨e', unseen', he⟩ := hs.observe_error unseen
    cases observe_error unseen
    rcases ht with ⟨_ | ⟨span, hl, next⟩ | ⟨span, inside, next⟩⟩
    · exact .alike (.unseen unseen') .nil (.error hs he)
    · exact .alike (.unseen unseen') .nil (.error hs he)
  | leaf seen first _ ih =>
    rcases ht with ⟨_ | ⟨span, hl, next⟩⟩
    rw [runs_cons]
    exact ((h _ _ hl).answers hs seen first hl _).goes fun ht => ih (.list next) ht
  | leafFails seen first =>
    rcases ht with ⟨_ | ⟨span, hl, next⟩⟩
    rw [runs_cons]
    exact ((h _ _ hl).answers hs seen first hl _).fails
  | loop seen first _ ih ih' =>
    rcases ht with ⟨_ | _ | ⟨span, inside, next⟩⟩
    rw [runs_cons]
    exact ((ih (.passes inside) hs).loop hs seen inside).goes fun ht => ih' (.list next) ht
  | loopFails seen first ih =>
    rcases ht with ⟨_ | _ | ⟨span, inside, next⟩⟩
    rw [runs_cons]
    exact ((ih (.passes inside) hs).loop hs seen inside).fails
  | leaves hc =>
    rcases ht with _ | ⟨mirrors⟩
    exact .alike (.leaves (hs.cell_ok hc)) .nil (.ok hs)
  | pass hc hn first _ ih ih' =>
    rcases ht with _ | ⟨mirrors⟩
    have answers := (ih (.list mirrors) hs).goes fun ht => ih' (.passes mirrors) ht
    exact answers.mono fun run => runs_passes (hs.cell_ok hc) hn run
  | passFails hc hn first ih =>
    rcases ht with _ | ⟨mirrors⟩
    exact (ih (.list mirrors) hs).fails.mono fun run => runs_passes (hs.cell_ok hc) hn run
  | wild hc =>
    rcases ht with _ | ⟨mirrors⟩
    obtain ⟨e', hc', he⟩ := hs.cell_error hc
    cases Store.cell_error hc
    exact .alike (.wild hc') .nil (.error hs he)

end Lockstep

/-! ## Equal tapes -/

/-- On equal tapes it is left to compare what is done with the devices. -/
theorem Pairing.level_marches {devices : Device → Device → Prop} {preallocated : Bool}
    (input : ((level devices).along Eq).Leads σ τ preallocated .input .input)
    (write : ∀ value, Tallies devices Eq (Device.write value) (Device.write value)) :
    ((level devices).along Eq).Marches σ τ preallocated := by
  have names := names_level devices
  rintro operation _ rfl
  cases operation with
  | counted kind count =>
    exact Lockstep.leads_of_tallies (counted_tallies _ rfl names kind count)
  | input => exact input
  | output => exact Lockstep.leads_of_tallies (output_tallies _ write)
  | goto name => exact Lockstep.leads_of_tallies (goto_tallies _ names name)
  | blank => exact Lockstep.leads_of_tallies (blank_tallies _)

end Store

end NamedTape
