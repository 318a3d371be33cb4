import NamedTape.Proofs.Attribution
import NamedTape.Proofs.SpansOfPrograms
import NamedTape.Proofs.Standstills
import NamedTape.Traceback

/-!
# The headline of the innermost frame

A traceback gives each frame a headline with a line and a column, and below it a part of the source.
In the innermost frame that part is the one the fault is attributed to, while the headline is where
the log has the frame. `headline_of_fault` says when the two are at the same place.
-/

namespace NamedTape

/-- The locations have the same line and the same column. -/
def Location.SamePlace (location other : Location) : Prop :=
  location.line = other.line ∧ location.column = other.column

theorem Location.samePlace_refl (location : Location) : location.SamePlace location := ⟨rfl, rfl⟩

/-- What a text writes, with its runs merged or not, tiles the text. -/
theorem Options.tiles_of_read {options : Options} {source filename : String} {program : Program}
    (h : options.read source filename = .ok program) :
    Tiles options.dialect source.toList 0 source.length program.instructions ∧
      program.source = source := by
  obtain ⟨plain, read, rfl⟩ := Options.exists_of_read h
  have tiles := NamedTape.tiles_of_read read
  obtain ⟨-, -, source, -⟩ := Program.read_ok_iff.mp read
  cases options.merge with
  | false => exact ⟨tiles, source⟩
  | true => exact ⟨tiles.merge, source⟩

namespace Session

variable {σ : Type} {dialect : Dialect} {brings : Raised → Prop} {t : Session σ} {frame : Frame}
  {f : Fault} {span : Span}

/-! ## The text of a traceback -/

theorem traceTexts_concat (t : Session σ) (verbose : Bool) (f : Fault) (outer : List TraceLine)
    (line : TraceLine) : ∃ above, t.traceTexts verbose f (outer ++ [line]) =
      above ++ t.traceText verbose (f.span <|> line.span) line := by
  induction outer with
  | nil => exact ⟨[], rfl⟩
  | cons first outer ih =>
    obtain ⟨above, rest⟩ := ih
    refine ⟨t.traceText verbose first.span first ++ above, ?_⟩
    rw [List.append_assoc, ← rest]
    cases outer <;> rfl

/-- The headline of a frame stands directly above the part of the source that is shown with it. -/
theorem traceText_located (t : Session σ) (verbose : Bool) {line : TraceLine} {location : Location}
    (located : line.location = some location) (span : Span) :
    ∃ step, t.traceText verbose (some span) line =
      (location.headline ++ ", in " ++ line.name) :: (excerpt (t.locate span) span ++ step) := by
  unfold traceText
  simp only [located, Option.elim_some, List.cons_append]
  exact ⟨_, rfl⟩

theorem traceTexts_innermost {below : List Frame} (hs : t.stack = frame :: below)
    (placed : f.span = some span) {location : Location}
    (located : (t.traceLine frame).location = some location) (verbose : Bool) :
    ∃ above step, t.traceTexts verbose f t.traceLines =
      above ++ (location.headline ++ ", in " ++ t.lineName frame) ::
        (excerpt (t.locate span) span ++ step) := by
  have lines : t.traceLines = below.reverse.map t.traceLine ++ [t.traceLine frame] := by
    simp only [traceLines, hs, List.reverse_cons, List.map_append, List.map_cons, List.map_nil]
  obtain ⟨above, texts⟩ :=
    t.traceTexts_concat verbose f (below.reverse.map t.traceLine) (t.traceLine frame)
  obtain ⟨step, text⟩ := t.traceText_located verbose located span
  rw [placed, Option.orElse_eq_orElse, Option.orElse_some, text] at texts
  exact ⟨above, step, (congrArg (t.traceTexts verbose f) lines).trans texts⟩

/-! ## Where the headline is -/

theorem location_of_some {entry : Entry Nat} (own : t.log.lastOf frame.id = some entry)
    (place : entry.span = some span) : (t.traceLine frame).location = some (t.locate span) := by
  simp only [traceLine, own, place, Option.map_some]

theorem location_of_none (fresh : t.log.lastOf frame.id = none) :
    (t.traceLine frame).location = frame.loop.map t.locate := by
  simp only [traceLine, fresh]

theorem samePlace_iff {other : Span} (on : span.On t.source.toList)
    (otherOn : other.On t.source.toList) :
    (t.locate span).SamePlace (t.locate other) ↔ span.offset = other.offset := by
  refine ⟨fun ⟨line, column⟩ => Location.offset_eq on otherOn line column, fun h => ?_⟩
  simp only [Location.SamePlace, locate, Location.ofSpan, Location.ofText, h, and_self]

/-- Where a fault leaves the innermost frame; the proposition says when the headline of the frame is
at the place of the fault. -/
inductive Headed (t : Session σ) (frame : Frame) (f : Fault) (span : Span) : Prop → Prop
  /-- The instruction of the latest step has failed: it always is. -/
  | working (busy : t.Busy span) : Headed t frame f span True
  /-- The run was called off before an instruction: it is if that is the only one of a loop's body,
  and has been taken before. -/
  | before {done : List Instruction} {i : Instruction} (cause : f.cause = .cancelled)
    (body : frame.body = done ++ i :: frame.rest) (place : i.span = span) :
    Headed t frame f span (frame.body = [i] ∧ (t.log.lastOf frame.id).isSome)
  /-- The run was called off before a further pass of a loop: it is if the body is empty. -/
  | again (cause : f.cause = .cancelled) (spent : frame.rest = []) (loop : frame.loop = some span) :
    Headed t frame f span (frame.body = [])
  /-- A foreign failure between two steps is reported at the latest one: it is unless that was taken
  in a loop that has been left since. -/
  | between {failure : Foreign} (cause : f.cause = .unexpected failure)
    (latest : t.lastSpan = some span) :
    Headed t frame f span (t.log.lastOf frame.id = none ∨ t.log.lastOf frame.id = t.log.last)

/-- The headline of the frame, if it has one, is at the place of the fault as `Headed` says. -/
def HeadlineOf (t : Session σ) (frame : Frame) (f : Fault) (span : Span) : Prop :=
  ∀ location, (t.traceLine frame).location = some location →
    ∃ agrees, Headed t frame f span agrees ∧ (location.SamePlace (t.locate span) ↔ agrees)

/-- A failure at work is reported at the latest step. -/
theorem span_of_working {e : Raised} (busy : t.Busy span) (unplaced : e.span = none)
    (hf : report t (e.within span) = .fault f) : f.span = some span := by
  obtain ⟨_, _, entry, -, -, latest, place⟩ := busy
  cases e with
  | interrupt => cases hf
  | foreign failure =>
    obtain ⟨-, rfl⟩ := Raised.quoting_eq_fault_iff.mp hf
    simp only [lastSpan, latest, Option.bind_some, place]
  | fault g =>
    cases hf
    show (g.span <|> some span) = some span
    rw [show g.span = none from unplaced]
    rfl

/-- A failure that is not placed is reported at a place only if it is foreign. -/
theorem cause_of_idle {e : Raised} (unplaced : e.span = none) (hf : report t e = .fault f)
    (placed : f.span = some span) :
    (∃ failure, f.cause = .unexpected failure) ∧ t.lastSpan = some span := by
  cases e with
  | interrupt => cases hf
  | foreign failure =>
    obtain ⟨-, rfl⟩ := Raised.quoting_eq_fault_iff.mp hf
    exact ⟨⟨failure, rfl⟩, placed⟩
  | fault g =>
    cases hf
    cases placed.symm.trans (show g.span = none from unplaced)

theorem headline_working {below : List Frame} {entry : Entry Nat}
    (hs : t.stack = frame :: below) (own : t.log.lastOf frame.id = some entry)
    (latest : t.log.last = some entry) (place : entry.span = some span) :
    HeadlineOf t frame f span := by
  intro location located
  cases (location_of_some own place).symm.trans located
  exact ⟨True, .working ⟨frame, below, entry, hs, own, latest, place⟩,
    iff_true_intro (Location.samePlace_refl _)⟩

theorem headline_before {i : Instruction} (cause : f.cause = .cancelled)
    (placed : frame.Placed dialect t.source.toList)
    (logged : Frame.Logged t.log { frame with rest := i :: frame.rest }) :
    HeadlineOf t frame f i.span := by
  intro location located
  have ⟨done, body⟩ : ∃ done, frame.body = done ++ i :: frame.rest := by
    obtain ⟨_, took, -⟩ := logged
    exact took.split
  have member : i ∈ frame.body := by simp [body]
  refine ⟨_, .before cause body rfl, ?_⟩
  cases hl : t.log.lastOf frame.id with
  | none =>
    -- The frame has not taken any step: the headline is at its loop.
    rw [location_of_none hl] at located
    obtain ⟨loop, hloop, rfl⟩ := Option.map_eq_some_iff.mp located
    rw [samePlace_iff (placed.loop_on hloop) (placed.on member)]
    refine iff_of_false (Int.ne_of_lt (placed.loop_lt hloop member)) fun ⟨_, taken⟩ => ?_
    cases taken
  | some entry =>
    obtain ⟨j, took, place⟩ := logged.of_some hl
    cases (location_of_some hl place).symm.trans located
    rw [samePlace_iff (placed.on took.mem) (placed.on member), took.offset_eq_iff placed]
    exact (and_iff_left rfl).symm

theorem headline_again (cause : f.cause = .cancelled)
    (placed : frame.Placed dialect t.source.toList) (logged : frame.Logged t.log)
    (spent : frame.rest = []) (loop : frame.loop = some span) : HeadlineOf t frame f span := by
  intro location located
  refine ⟨_, .again cause spent loop, ?_⟩
  cases hl : t.log.lastOf frame.id with
  | none =>
    rw [location_of_none hl, loop] at located
    cases located
    exact iff_of_true (Location.samePlace_refl _) ((logged.of_none hl).symm.trans spent)
  | some entry =>
    obtain ⟨j, took, place⟩ := logged.of_some hl
    cases (location_of_some hl place).symm.trans located
    rw [samePlace_iff (placed.on took.mem) (placed.loop_on loop)]
    refine iff_of_false (Int.ne_of_gt (placed.loop_lt loop took.mem)) fun empty => ?_
    exact List.ne_nil_of_mem took.mem empty

theorem headline_between {failure : Foreign} {stack : List Frame}
    (newest : Newest t.source.toList t.log (frame :: stack)) (cause : f.cause = .unexpected failure)
    (latest : t.lastSpan = some span) : HeadlineOf t frame f span := by
  intro location located
  refine ⟨_, .between cause latest, ?_⟩
  unfold lastSpan at latest
  cases newest with
  | begun fresh loop =>
    rw [location_of_none fresh, loop] at located
    cases located
  | entered fresh inside last =>
    obtain ⟨entry, loopSpan, own, place, loop⟩ := inside
    rw [location_of_none fresh, loop] at located
    rw [last, own, Option.bind_some, place] at latest
    cases located
    cases latest
    exact iff_of_true (Location.samePlace_refl _) (.inl fresh)
  | stepped own last =>
    rw [last, Option.bind_some] at latest
    cases (location_of_some own latest).symm.trans located
    exact iff_of_true (Location.samePlace_refl _) (.inr (own.trans last.symm))
  | returned own place on last lastPlace lastOn lt =>
    rw [last, Option.bind_some, lastPlace] at latest
    cases latest
    cases (location_of_some own place).symm.trans located
    rw [samePlace_iff on lastOn]
    refine iff_of_false (Int.ne_of_lt lt) ?_
    rintro (fresh | same)
    · cases own.symm.trans fresh
    · cases own.symm.trans (same.trans last)
      cases place.symm.trans lastPlace
      exact Int.lt_irrefl _ lt

/-- A fault with the place is one of those that are brought along. -/
def Brought (brings : Raised → Prop) (span : Span) : Prop :=
  ∃ g : Fault, brings (.fault g) ∧ g.span = some span

theorem headline_of_busy {e : Raised} {latest : Span} (busy : t.Busy latest)
    (loose : e.Loose brings) (hf : report t (e.within latest) = .fault f)
    (placed : f.span = some span) :
    ∃ frame below, t.stack = frame :: below ∧
      (Brought brings span ∨ HeadlineOf t frame f span) := by
  obtain unplaced | ⟨g, own, rfl, place, brought⟩ := loose.cases
  · cases placed.symm.trans (span_of_working busy unplaced hf)
    obtain ⟨frame, below, entry, stack, own, latest, place⟩ := busy
    exact ⟨frame, below, stack, .inr (headline_working stack own latest place)⟩
  · obtain ⟨frame, below, entry, stack, -⟩ := busy
    cases hf
    have kept : (g.within latest).span = g.span := by
      rw [Fault.within, place]
      rfl
    exact ⟨frame, below, stack, .inl ⟨g, brought, kept.symm.trans placed⟩⟩

theorem headline_of_newest {e : Raised} (newest : Newest t.source.toList t.log t.stack)
    (loose : e.Loose brings) (hf : report t e = .fault f) (placed : f.span = some span) :
    ∃ frame below, t.stack = frame :: below ∧
      (Brought brings span ∨ HeadlineOf t frame f span) := by
  cases stack : t.stack with
  | nil =>
    rw [stack] at newest
    cases newest
  | cons frame below =>
    rw [stack] at newest
    refine ⟨frame, below, rfl, ?_⟩
    obtain unplaced | ⟨g, own, rfl, place, brought⟩ := loose.cases
    · obtain ⟨⟨failure, cause⟩, latest⟩ := cause_of_idle unplaced hf placed
      exact .inr (headline_between newest cause latest)
    · cases hf
      exact .inl ⟨g, brought, placed⟩

/-- The headline of the innermost frame of a walk that is stuck. -/
theorem Stuck.headline {e : Raised} (h : Stuck dialect brings t e) (hf : report t e = .fault f)
    (placed : f.span = some span) :
    ∃ frame below, t.stack = frame :: below ∧
      (Brought brings span ∨ HeadlineOf t frame f span) := by
  cases h with
  | working busy loose => exact headline_of_busy busy loose hf placed
  | idle newest loose => exact headline_of_newest newest loose hf placed
  | @before frame below i stack placed' logged =>
    cases hf
    cases placed
    exact ⟨frame, below, stack, .inr (headline_before rfl placed' logged)⟩
  | @again frame below span' stack placed' logged spent loop =>
    cases hf
    cases placed
    exact ⟨frame, below, stack, .inr (headline_again rfl placed' logged spent loop)⟩

/-! ## Executions -/

section executions

variable {s : Session σ} {program : Program} {aliases : Option AliasTable} {options : Options}
  {source filename : String}

theorem tracked_begin (read : options.read source filename = .ok program) (tidy : s.Tidy brings)
    (aliases : Option AliasTable) (store : Store σ) :
    ((s.begin program aliases).withStore store).Tracked options.dialect := by
  obtain ⟨tiles, same⟩ := Options.tiles_of_read read
  have fresh : s.log.lastOf s.nextFrame = none :=
    Log.lastOf_eq_none fun p hp => Nat.ne_of_lt (tidy.known p hp)
  have nests : Nests options.dialect program.source.toList s.log (s.nextFrame + 1)
      [{ id := s.nextFrame, body := program.instructions }] :=
    .outermost (Nat.lt_succ_self _) ⟨0, source.length, same ▸ tiles, nofun⟩
      ⟨none, .nothing rfl, congrArg (Option.map _) fresh⟩ rfl
  exact ⟨nests, .begun fresh rfl, fun p hp => Nat.lt_succ_of_lt (tidy.known p hp)⟩

theorem opening_fails (lone : s.Lone brings) (program : Program) (aliases : Option AliasTable) :
    (∃ store, opening program aliases s = .ok () store ∧
      store.device.Fails (·.Loose brings)) ∨
    ∃ e store, opening program aliases s = .error e store ∧
      store.device.Fails (·.Loose brings) ∧ e.Loose brings := by
  have assigns : Store.Fails (σ := σ) (·.Loose brings)
      (if s.options.preallocate then Store.onAliases AliasTable.assignAll else pure ()) := by
    split
    · exact Store.assignAll_fails fun e h => .inl (e.span_of_plain h)
    · exact .pure fun _ h => h
  have opened := assigns (s.begin program aliases).store lone.device
  cases ho : opening program aliases s with
  | ok a store =>
    unfold opening at ho
    rw [ho] at opened
    exact .inl ⟨store, rfl, opened⟩
  | error e store =>
    unfold opening at ho
    rw [ho] at opened
    exact .inr ⟨e, store, rfl, opened⟩

theorem Lone.begin (lone : s.Lone brings) (program : Program) (aliases : Option AliasTable)
    {store : Store σ} (device : store.device.Fails (·.Loose brings)) :
    ((s.begin program aliases).withStore store).Lone brings :=
  ⟨⟨device, fun p hp => Nat.lt_succ_of_lt (lone.known p hp)⟩, lone.hooks, lone.cancel⟩

theorem Lone.pop (lone : s.Lone brings) : s.pop.Lone brings := by
  refine lone.of_same (pop_same s (.refl s)) ?_
  unfold Session.pop
  split
  · exact lone.toTidy
  · exact ⟨lone.device, fun p hp => lone.known p (List.mem_filter.mp hp).1⟩

/-- An execution that ends leaves the session fit for another. If it fails, its walk is stuck. -/
theorem Lone.executes (lone : s.Lone brings) (read : options.read source filename = .ok program)
    {r : EStateM.Result Raised (Session σ) Unit} (h : Executes program aliases s r) :
    (left r).Lone brings ∧ ∀ e t, r = .error e t →
      ∃ raised, Stuck options.dialect brings t raised ∧ e = report t raised := by
  rw [executes_iff lone.hooks] at h
  obtain ⟨store, ho, device⟩ | ⟨e, store, ho, device, loose⟩ :=
    opening_fails lone program aliases
  all_goals
    have begun := lone.begin program aliases device
    have tracked := tracked_begin read lone.toTidy aliases store
    rw [ho] at h
  · obtain ⟨result, ends, rfl⟩ := h
    obtain ⟨n, walk⟩ := ends.walkFor
    have walked := meets_walkFor meets_move_tracked n .walking _
      ⟨begun, tracked, waits_walking _⟩
    rw [walk] at walked
    cases result with
    | ok a t =>
      refine ⟨walked.1.pop, fun _ _ h => ?_⟩
      cases h
    | error e t =>
      refine ⟨walked.1, fun _ _ h => ?_⟩
      cases h
      exact ⟨e, walked.2, rfl⟩
  · subst h
    refine ⟨begun, fun _ _ h => ?_⟩
    cases h
    exact ⟨e, .idle tracked.newest loose, rfl⟩

/-- What the device and the cancel callback of the session may fail with. -/
def Outside (s : Session σ) (e : Raised) : Prop :=
  (∃ k, s.store.device.readings k = .fails e) ∨ (∃ k, s.store.device.refusals k = some e) ∨
    ∃ answers k, s.cancel = some answers ∧ answers k = .error e

theorem lone_outside (hooks : s.hooks = {}) (known : ∀ p ∈ s.log.recent, p.1 < s.nextFrame) :
    s.Lone s.Outside where
  device := ⟨fun k _ h => .inr (.inl ⟨k, h⟩), fun k _ h => .inr (.inr (.inl ⟨k, h⟩))⟩
  known := known
  hooks := hooks
  cancel answers hc k _ h := .inr (.inr (.inr ⟨answers, k, hc, h⟩))

/-- **Headlines and places of faults.** Whatever program a text writes, in a session without hooks
whose log knows no frames but those that have had their numbers, let the program fail with a fault
that is attributed to a part of the text. That part is shown directly below the headline of the
innermost frame, if this frame has one; and the headline is at the place of the fault exactly when
`Headed` says so, unless the device or the cancel callback has failed with a fault at that place. -/
theorem headline_of_fault (read : options.read source filename = .ok program)
    (hooks : s.hooks = {}) (known : ∀ p ∈ s.log.recent, p.1 < s.nextFrame)
    (h : Executes program aliases s (.error (.fault f) t)) (placed : f.span = some span) :
    ∃ frame below, t.stack = frame :: below ∧
      ∀ location, (t.traceLine frame).location = some location →
        (∀ verbose, ∃ above step, t.traceTexts verbose f t.traceLines =
          above ++ (location.headline ++ ", in " ++ t.lineName frame) ::
            (excerpt (t.locate span) span ++ step)) ∧
        (Brought s.Outside span ∨ ∃ agrees, Headed t frame f span agrees ∧
          (location.SamePlace (t.locate span) ↔ agrees)) := by
  obtain ⟨raised, stuck, reported⟩ := ((lone_outside hooks known).executes read h).2 _ _ rfl
  obtain ⟨frame, below, stack, headline⟩ := stuck.headline reported.symm placed
  exact ⟨frame, below, stack, fun location located =>
    ⟨traceTexts_innermost stack placed located, headline.imp_right fun h => h location located⟩⟩

end executions

/-- A session whose callback answers yes to the second question. -/
def recalled : Session Unit := { cornered with cancel := some (yesAt 1) }

/-- Adds in the first line, and moves on in the second. -/
def twoLines : Program where
  instructions := [.leaf (.counted .add 1) ⟨0, 1⟩, .leaf (.counted .right 1) ⟨2, 1⟩]
  source := "+\n>"

theorem headline_of_fault_twoLines :
    ({} : Options).read "+\n>" "<string>" = .ok twoLines ∧ recalled.hooks = {} ∧
      (∀ p ∈ recalled.log.recent, p.1 < recalled.nextFrame) ∧
      ∃ f t frame below location, Executes twoLines none recalled (.error (.fault f) t) ∧
        f.span = some ⟨2, 1⟩ ∧ t.stack = frame :: below ∧
        (t.traceLine frame).location = some location ∧
        (Brought recalled.Outside ⟨2, 1⟩ ∨ ∃ agrees, Headed t frame f ⟨2, 1⟩ agrees ∧
          (location.SamePlace (t.locate ⟨2, 1⟩) ↔ agrees)) := by
  have read : ({} : Options).read "+\n>" "<string>" = .ok twoLines := rfl
  have known : ∀ p ∈ recalled.log.recent, p.1 < recalled.nextFrame := nofun
  have shown : faults (fun f t => decide (f.span = some ⟨2, 1⟩) &&
      t.stack.head?.any fun frame => (t.traceLine frame).location.isSome)
      (executeFor 3 twoLines none recalled) = true := by decide +kernel
  obtain ⟨f, t, executes, check⟩ := executes_of_faults shown
  obtain ⟨placed, located⟩ := Bool.and_eq_true_iff.mp check
  have placed := of_decide_eq_true placed
  obtain ⟨frame, below, stack, headline⟩ := headline_of_fault read rfl known executes placed
  rw [stack] at located
  obtain ⟨location, hlocation⟩ := Option.isSome_iff_exists.mp located
  exact ⟨read, rfl, known, f, t, frame, below, location, executes, placed, stack, hlocation,
    (headline location hlocation).2⟩

/-- A run that is called off before its second step is at fault in the second line, and the headline
of its only frame is in the first. -/
theorem headline_differs :
    ∃ f t frame below location, Executes twoLines none recalled (.error (.fault f) t) ∧
      f.span = some ⟨2, 1⟩ ∧ t.stack = frame :: below ∧
      (t.traceLine frame).location = some location ∧
      location.line = 1 ∧ (t.locate ⟨2, 1⟩).line = 2 := by
  have shown : faults (fun f t => decide (f.span = some ⟨2, 1⟩ ∧ (t.locate ⟨2, 1⟩).line = 2) &&
      t.stack.head?.any fun frame => (t.traceLine frame).location.any fun location =>
        decide (location.line = 1))
      (executeFor 3 twoLines none recalled) = true := by decide +kernel
  obtain ⟨f, t, executes, check⟩ := executes_of_faults shown
  obtain ⟨place, headline⟩ := Bool.and_eq_true_iff.mp check
  obtain ⟨placed, second⟩ := of_decide_eq_true place
  obtain ⟨frame, stack, headline⟩ := (Option.any_eq_true _ _).mp headline
  obtain ⟨location, located, first⟩ := (Option.any_eq_true _ _).mp headline
  obtain ⟨below, stack⟩ := List.head?_eq_some_iff.mp stack
  exact ⟨f, t, frame, below, location, executes, placed, stack, located,
    of_decide_eq_true first, second⟩

end Session

end NamedTape
