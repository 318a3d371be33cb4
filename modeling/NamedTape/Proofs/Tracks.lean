import NamedTape.Proofs.Locations
import NamedTape.Proofs.Log
import NamedTape.Proofs.Strides

/-!
# What the log knows of the stack

The log keeps the latest step of each frame. That is the step of the instruction the frame has taken
last, and if another frame is above it, this instruction is the loop whose body that frame carries
out (`Nests`). The latest step of all is the latest of the innermost frame, unless that frame has
not taken any yet, or a loop has just been left (`Newest`).
-/

namespace NamedTape

variable {dialect : Dialect} {text : List Char} {log log' : Log Nat}

namespace Frame

variable {frame : Frame} {i : Instruction} {rest : List Instruction} {span : Span}

/-! ## Frames in a text -/

/-- The instructions of the body tile a part of the text, after the place where the loop begins. -/
def Placed (dialect : Dialect) (text : List Char) (frame : Frame) : Prop :=
  ∃ start stop, Tiles dialect text start stop frame.body ∧
    ∀ span, frame.loop = some span → span.On text ∧ span.offset < start

theorem Placed.on (h : frame.Placed dialect text) (hi : i ∈ frame.body) : i.span.On text := by
  obtain ⟨start, stop, tiles, -⟩ := h
  have := tiles.ascends.on i hi
  exact ⟨by omega, by omega⟩

theorem Placed.loop_on (h : frame.Placed dialect text) (hl : frame.loop = some span) :
    span.On text := by
  obtain ⟨start, stop, -, loop⟩ := h
  exact (loop span hl).1

/-- A loop begins before the instructions of its body. -/
theorem Placed.loop_lt (h : frame.Placed dialect text) (hl : frame.loop = some span)
    (hi : i ∈ frame.body) : span.offset < i.span.offset := by
  obtain ⟨start, stop, tiles, loop⟩ := h
  have := (loop span hl).2
  have := tiles.ascends.on i hi
  omega

/-- An instruction begins before those that come after it. -/
theorem Placed.lt (h : frame.Placed dialect text) {done later : List Instruction}
    (hb : frame.body = done ++ i :: later) {j : Instruction} (hj : j ∈ later) :
    i.span.offset < j.span.offset := by
  obtain ⟨start, stop, tiles, -⟩ := h
  have order := tiles.ascends.order
  rw [hb, List.map_append, List.map_cons] at order
  have after := (List.pairwise_cons.mp (List.pairwise_append.mp order).2.1).1
  exact after _ (List.mem_map_of_mem hj)

/-- The frame of a loop is placed if the one is in whose body the loop stands. -/
theorem Placed.inside (h : frame.Placed dialect text) {body : List Instruction}
    (hm : .loop body span ∈ frame.body) (id : Nat) :
    ({ id, loop := some span, body } : Frame).Placed dialect text := by
  obtain ⟨start, stop, tiles, -⟩ := h
  obtain ⟨first, last, begins, within, inside⟩ := tiles.inside hm
  refine ⟨first + 1, last, inside, fun span' hspan => ?_⟩
  cases hspan
  exact ⟨⟨by omega, by omega⟩, by omega⟩

/-! ## The latest instruction -/

/-- The instruction of the body that the frame has taken last: none at the start of the first pass,
the last of all at the start of a further one, and else the one before the rest of the pass. -/
inductive Took (frame : Frame) : Option Instruction → Prop
  | nothing (start : frame.rest = frame.body) : Took frame none
  | here {done : List Instruction} {i : Instruction} (body : frame.body = done ++ i :: frame.rest) :
    Took frame (some i)
  | around {init : List Instruction} {i : Instruction} (start : frame.rest = frame.body)
    (body : frame.body = init ++ [i]) : Took frame (some i)

theorem Took.split {latest : Option Instruction} (h : frame.Took latest) :
    ∃ done, frame.body = done ++ frame.rest := by
  cases h with
  | nothing start => exact ⟨[], start.symm⟩
  | @here done i body => exact ⟨done ++ [i], by rw [body, List.append_assoc]; rfl⟩
  | around start _ => exact ⟨[], start.symm⟩

theorem Took.mem (h : frame.Took (some i)) : i ∈ frame.body := by
  cases h with
  | here body => simp [body]
  | around _ body => simp [body]

theorem Took.next {latest : Option Instruction} (h : frame.Took latest)
    (hr : frame.rest = i :: rest) : Took { frame with rest } (some i) := by
  obtain ⟨done, body⟩ := h.split
  exact .here (hr ▸ body)

theorem Took.again {latest : Option Instruction} (h : frame.Took latest) (hr : frame.rest = []) :
    Took { frame with rest := frame.body } latest := by
  cases h with
  | nothing start => exact .nothing rfl
  | here body => exact .around rfl (hr ▸ body)
  | around start body => exact .around rfl body

/-- The instruction that was taken last begins where the next one does only if it is the same, the
body has no other, and its next pass is about to start. -/
theorem Took.offset_eq_iff {j : Instruction} {later : List Instruction}
    (h : Took { frame with rest := i :: later } (some j)) (placed : frame.Placed dialect text) :
    j.span.offset = i.span.offset ↔ frame.body = [i] := by
  cases h with
  | @here done _ body =>
    have body : frame.body = done ++ j :: i :: later := body
    have lt := placed.lt body List.mem_cons_self
    refine iff_of_false (Int.ne_of_lt lt) fun only => ?_
    have length := congrArg List.length (body.symm.trans only)
    simp only [List.length_append, List.length_cons, List.length_nil] at length
    omega
  | @around init _ start body =>
    have start : i :: later = frame.body := start
    have body : frame.body = init ++ [j] := body
    cases init with
    | nil =>
      cases start.trans body
      exact iff_of_true rfl body
    | cons first init =>
      cases start.trans body
      have whole : frame.body = [] ++ i :: (init ++ [j]) := body
      have lt := placed.lt whole (List.mem_append_right init List.mem_cons_self)
      refine iff_of_false (Int.ne_of_gt lt) fun only => ?_
      cases init <;> cases body.symm.trans only

/-! ## Frames in the log -/

/-- The latest step of the frame, if it has one, is that of the instruction it has taken last. -/
def Logged (log : Log Nat) (frame : Frame) : Prop :=
  ∃ latest, frame.Took latest ∧
    (log.lastOf frame.id).map (·.span) = latest.map fun i => some i.span

/-- The latest step of the outer frame is the loop that the frame carries out. -/
def Inside (log : Log Nat) (frame outer : Frame) : Prop :=
  ∃ entry span, log.lastOf outer.id = some entry ∧ entry.span = some span ∧ frame.loop = some span

theorem Logged.of_some (h : frame.Logged log) {entry : Entry Nat}
    (hl : log.lastOf frame.id = some entry) :
    ∃ i, frame.Took (some i) ∧ entry.span = some i.span := by
  obtain ⟨latest, took, same⟩ := h
  rw [hl] at same
  cases latest with
  | none => cases same
  | some i => exact ⟨i, took, Option.some.inj same⟩

theorem Logged.of_none (h : frame.Logged log) (hl : log.lastOf frame.id = none) :
    frame.rest = frame.body := by
  obtain ⟨latest, took, same⟩ := h
  rw [hl] at same
  cases latest with
  | some i => cases same
  | none =>
    cases took with
    | nothing start => exact start

end Frame

/-! ## Stacks -/

/-- The frames of a stack, as the log knows them. Their numbers decrease from the innermost frame
on, and are less than the bound. -/
inductive Nests (dialect : Dialect) (text : List Char) (log : Log Nat) : Nat → List Frame → Prop
  | outermost {bound : Nat} {frame : Frame} (number : frame.id < bound)
    (placed : frame.Placed dialect text) (logged : frame.Logged log) (loop : frame.loop = none) :
    Nests dialect text log bound [frame]
  | inner {bound : Nat} {frame outer : Frame} {below : List Frame} (number : frame.id < bound)
    (placed : frame.Placed dialect text) (logged : frame.Logged log)
    (inside : frame.Inside log outer) (nests : Nests dialect text log frame.id (outer :: below)) :
    Nests dialect text log bound (frame :: outer :: below)

section nests

variable {bound : Nat} {frame outer : Frame} {below : List Frame}

theorem Nests.number (h : Nests dialect text log bound (frame :: below)) : frame.id < bound := by
  cases h with
  | outermost number _ _ _ => exact number
  | inner number _ _ _ _ => exact number

theorem Nests.placed (h : Nests dialect text log bound (frame :: below)) :
    frame.Placed dialect text := by
  cases h with
  | outermost _ placed _ _ => exact placed
  | inner _ placed _ _ _ => exact placed

theorem Nests.logged (h : Nests dialect text log bound (frame :: below)) : frame.Logged log := by
  cases h with
  | outermost _ _ logged _ => exact logged
  | inner _ _ logged _ _ => exact logged

theorem Nests.mono {bound' : Nat} (h : Nests dialect text log bound (frame :: below))
    (hle : bound ≤ bound') : Nests dialect text log bound' (frame :: below) := by
  cases h with
  | outermost number placed logged loop =>
    exact .outermost (Nat.lt_of_lt_of_le number hle) placed logged loop
  | inner number placed logged inside nests =>
    exact .inner (Nat.lt_of_lt_of_le number hle) placed logged inside nests

/-- What the log knows of frames with other numbers does not matter. -/
theorem Nests.congr {stack : List Frame} (h : Nests dialect text log bound stack)
    (same : ∀ id < bound, log'.lastOf id = log.lastOf id) :
    Nests dialect text log' bound stack := by
  induction h with
  | @outermost _ frame number placed logged loop =>
    refine .outermost number placed ?_ loop
    rwa [Frame.Logged, same _ number]
  | @inner _ frame outer _ number placed logged inside nests ih =>
    refine .inner number placed ?_ ?_ (ih fun id hid => same id (Nat.lt_trans hid number))
    · rwa [Frame.Logged, same _ number]
    · rwa [Frame.Inside, same _ (Nat.lt_trans nests.number number)]

/-- The innermost frame goes on. -/
theorem Nests.renew {rest : List Instruction} (h : Nests dialect text log bound (frame :: below))
    (logged : Frame.Logged log' { frame with rest })
    (same : ∀ id < frame.id, log'.lastOf id = log.lastOf id) :
    Nests dialect text log' bound ({ frame with rest } :: below) := by
  cases h with
  | outermost number placed _ loop => exact .outermost number placed logged loop
  | @inner _ _ outer _ number placed _ inside nests =>
    refine .inner number placed logged ?_ (nests.congr same)
    rw [Frame.Inside, same _ nests.number]
    exact inside

end nests

/-- Where the latest step of all stands to the innermost frame. -/
inductive Newest (text : List Char) (log : Log Nat) : List Frame → Prop
  /-- The program has not taken any step yet. -/
  | begun {frame : Frame} (fresh : log.lastOf frame.id = none) (loop : frame.loop = none) :
    Newest text log [frame]
  /-- The loop has just been entered. -/
  | entered {frame outer : Frame} {below : List Frame} (fresh : log.lastOf frame.id = none)
    (inside : frame.Inside log outer) (latest : log.last = log.lastOf outer.id) :
    Newest text log (frame :: outer :: below)
  | stepped {frame : Frame} {below : List Frame} {entry : Entry Nat}
    (own : log.lastOf frame.id = some entry) (latest : log.last = some entry) :
    Newest text log (frame :: below)
  /-- A loop has just been left, which begins before the latest step of all. -/
  | returned {frame : Frame} {below : List Frame} {entry last : Entry Nat} {span later : Span}
    (own : log.lastOf frame.id = some entry) (place : entry.span = some span) (on : span.On text)
    (latest : log.last = some last) (lastPlace : last.span = some later) (lastOn : later.On text)
    (lt : span.offset < later.offset) : Newest text log (frame :: below)

/-- The innermost frame may have another rest. -/
theorem Newest.renew {frame : Frame} {below : List Frame} (h : Newest text log (frame :: below))
    (rest : List Instruction) : Newest text log ({ frame with rest } :: below) := by
  cases h with
  | begun fresh loop => exact .begun fresh loop
  | entered fresh inside latest => exact .entered fresh inside latest
  | stepped own latest => exact .stepped own latest
  | returned own place on latest lastPlace lastOn lt =>
    exact .returned own place on latest lastPlace lastOn lt

/-- The log tracks the stack, and knows no frames but those with numbers below the bound. -/
structure Tracks (dialect : Dialect) (text : List Char) (log : Log Nat) (bound : Nat)
    (stack : List Frame) : Prop where
  nests : Nests dialect text log bound stack
  newest : Newest text log stack
  known : ∀ p ∈ log.recent, p.1 < bound

namespace Tracks

variable {bound : Nat} {frame : Frame} {below : List Frame} {i : Instruction}
  {rest : List Instruction}

/-- The innermost frame takes an instruction, and the step is recorded. -/
theorem take (h : Tracks dialect text log bound (frame :: below)) (hr : frame.rest = i :: rest)
    (view : Option String) :
    Tracks dialect text (log.record (some frame.id) i.rule (some i.span) view).2 bound
      ({ frame with rest } :: below) := by
  obtain ⟨latest, took, -⟩ := h.nests.logged
  have own : (log.record (some frame.id) i.rule (some i.span) view).2.lastOf frame.id = some _ :=
    log.lastOf_record_self _ _ _
  have logged : Frame.Logged _ { frame with rest } :=
    ⟨some i, took.next hr, congrArg (Option.map _) own⟩
  refine ⟨h.nests.renew logged ?_, .stepped own rfl, ?_⟩
  · exact fun id hid => log.lastOf_record _ _ _ (Nat.ne_of_lt hid)
  · refine List.forall_mem_cons.mpr ⟨h.nests.number, fun p hp => ?_⟩
    exact h.known p (List.mem_filter.mp hp).1

/-- The loop of the latest step is entered. -/
theorem enter (h : Tracks dialect text log bound (frame :: below)) {body : List Instruction}
    {span : Span} (hm : .loop body span ∈ frame.body) {entry : Entry Nat}
    (own : log.lastOf frame.id = some entry) (latest : log.last = some entry)
    (place : entry.span = some span) :
    Tracks dialect text log (bound + 1)
      ({ id := bound, loop := some span, body } :: frame :: below) := by
  have fresh : log.lastOf bound = none :=
    Log.lastOf_eq_none fun p hp => Nat.ne_of_lt (h.known p hp)
  have logged : Frame.Logged log { id := bound, loop := some span, body } :=
    ⟨none, .nothing rfl, congrArg (Option.map _) fresh⟩
  have inside : Frame.Inside log { id := bound, loop := some span, body } frame :=
    ⟨entry, span, own, place, rfl⟩
  refine ⟨.inner (Nat.lt_succ_self bound) (h.nests.placed.inside hm bound) logged inside h.nests,
    .entered fresh inside (latest.trans own.symm), fun p hp => Nat.lt_succ_of_lt (h.known p hp)⟩

/-- The body of the innermost frame starts anew. -/
theorem repeats (h : Tracks dialect text log bound (frame :: below)) (hr : frame.rest = []) :
    Tracks dialect text log bound ({ frame with rest := frame.body } :: below) := by
  obtain ⟨latest, took, same⟩ := h.nests.logged
  exact ⟨h.nests.renew ⟨latest, took.again hr, same⟩ fun _ _ => rfl, h.newest.renew _, h.known⟩

/-- The innermost frame is left, which carries out a loop. -/
theorem leave (h : Tracks dialect text log bound (frame :: below)) {span : Span}
    (hl : frame.loop = some span) :
    Tracks dialect text (log.forget frame.id) bound below := by
  obtain ⟨nests, newest, known⟩ := h
  cases nests with
  | outermost _ _ _ loop => cases hl.symm.trans loop
  | @inner _ _ outer below number placed logged inside nests =>
    have same : ∀ id < frame.id, (log.forget frame.id).lastOf id = log.lastOf id :=
      fun id hid => log.lastOf_forget (Nat.ne_of_lt hid)
    refine ⟨(nests.congr same).mono (Nat.le_of_lt number), ?_,
      fun p hp => known p (List.mem_filter.mp hp).1⟩
    obtain ⟨entry, span, own, place, loop⟩ := inside
    have kept := (same _ nests.number).trans own
    cases newest with
    | entered _ _ latest => exact .stepped kept (latest.trans own)
    | stepped step latest =>
      obtain ⟨i, took, stepPlace⟩ := logged.of_some step
      exact .returned kept place (placed.loop_on loop) latest stepPlace (placed.on took.mem)
        (placed.loop_lt loop took.mem)
    | returned step stepPlace _ latest lastPlace lastOn lt =>
      obtain ⟨i, took, same⟩ := logged.of_some step
      cases stepPlace.symm.trans same
      exact .returned kept place (placed.loop_on loop) latest lastPlace lastOn
        (Int.lt_trans (placed.loop_lt loop took.mem) lt)

end Tracks

end NamedTape
