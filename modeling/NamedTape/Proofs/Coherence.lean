import NamedTape.Proofs.InStep

/-!
# The call stack and the step log

Runs follow one another on a session (`Series`), and each adds to the log the entries of its steps,
of which the log itself keeps only some (`Run.recorded`). At every head of a run's walk loop the
stack and the log are coherent (`Coherent`): the log has numbered all steps in turn, it keeps the
latest step of just those frames of the run that are on the stack, and the latest step of a frame
with another above it is the loop that this one carries out.
-/

namespace NamedTape

namespace Session

variable {σ : Type}

/-- A run of a program on a session. -/
structure Run (σ : Type) where
  start : Session σ
  program : Program
  aliases : Option AliasTable := none
  /-- How many moves it makes at most. -/
  moves : Nat

namespace Run

variable (run : Run σ)

/-- What the run comes to within so many moves, its closing event apart. -/
def reach (k : Nat) : EStateM.Result Raised (Session σ) Mode :=
  attempt k run.program (run.start.begin run.program run.aliases)

/-- The entries that the run records within so many moves. -/
def recorded : Nat → List (Entry Nat)
  | 0 => []
  | k + 1 => recorded k ++ (standing (run.reach k)).news (standing (run.reach (k + 1)))

/-- All entries that the run records. -/
def entries : List (Entry Nat) := run.recorded run.moves

/-- What the run comes to, with its closing event. -/
def result : EStateM.Result Raised (Session σ) Mode :=
  executeFor run.moves run.program run.aliases run.start

/-- The run has ended so. -/
def Ends (r : EStateM.Result Raised (Session σ) Unit) : Prop := run.result = ending r

/-- The run has come to the end of its program. -/
def Completes : Prop := ∃ u, run.Ends (.ok () u)

/-- Whether the run ends within its moves. -/
def isOver : Bool :=
  match run.result with
  | .ok .finished _ | .error _ _ => true
  | _ => false

end Run

variable {s t u : Session σ} {program : Program} {origin k : Nat}
  {before : List (Nat × Entry Nat)} {entries : List (Entry Nat)}
  {r r' : EStateM.Result Raised (Session σ) Mode}

/-! ## One move more -/

/-- What one more move makes of what a walk has come to: nothing if it has ended. -/
inductive Proceeds : EStateM.Result Raised (Session σ) Mode →
    EStateM.Result Raised (Session σ) Mode → Prop
  | rests (r : EStateM.Result Raised (Session σ) Mode) : Proceeds r r
  | moves {mode mode' : Mode} {s t : Session σ} (h : Advances s mode' t) :
    Proceeds (.ok mode s) (.ok mode' t)
  | stops {mode : Mode} {e : Raised} {s t : Session σ} (h : Balks s t) :
    Proceeds (.ok mode s) (.error e t)

/-- The stack and the log are in step, unless the walk has failed: then the log is in order. -/
def Abides (program : Program) (origin : Nat) (before : List (Nat × Entry Nat))
    (entries : List (Entry Nat)) : EStateM.Result Raised (Session σ) Mode → Prop
  | .ok mode t => t.InStep program origin before entries ∧
    (mode = .finished → ∃ frame, t.stack = [frame])
  | .error _ t => t.Booked origin before entries

theorem Proceeds.inherits (h : Proceeds r r') : Inherits (standing r) (standing r') := by
  cases h with
  | rests r => exact .refl _
  | moves h => exact h.inherits
  | stops h => exact h.inherits

theorem Proceeds.abides (h : Proceeds r r') (abides : Abides program origin before entries r) :
    Abides program origin before (entries ++ (standing r).news (standing r')) r' := by
  cases h with
  | rests r =>
    rw [(Unmoved.refl _).no_news, List.append_nil]
    exact abides
  | moves h =>
    refine ⟨abides.1.advance h, ?_⟩
    rintro rfl
    exact abides.1.alone h
  | stops h => exact abides.1.balk h

theorem Abides.booked (h : Abides program origin before entries r) :
    (standing r).Booked origin before entries := by
  cases r with
  | ok mode t => exact h.1.ledger
  | error e t => exact h

theorem Booked.pop (h : t.Booked origin before entries) : t.pop.Booked origin before entries := by
  unfold Booked at h ⊢
  cases stack : t.stack with
  | nil => simpa only [Session.pop, stack] using h
  | cons frame below =>
    rw [stack] at h
    rw [pop_eq stack]
    exact h.forget

/-! ## Runs -/

namespace Run

variable {run : Run σ}

theorem proceeds (run : Run σ) (k : Nat) : Proceeds (run.reach k) (run.reach (k + 1)) := by
  have further : run.reach (k + 1) = _ := attempt_succ k run.program _
  cases hr : run.reach k with
  | error e s =>
    rw [further, Action.bind_of_error hr]
    exact .rests _
  | ok mode s =>
    rw [further, Action.bind_of_ok hr]
    by_cases going : mode = .finished
    · subst going
      exact .rests _
    · have advances := move_advances going s s rfl
      cases hm : move mode s with
      | ok mode' t =>
        rw [hm] at advances
        exact .moves advances
      | error e t =>
        rw [hm] at advances
        exact .stops advances

/-- A run has its frame on the stack when its walk begins. -/
theorem reach_zero (run : Run σ) :
    Unmoved (run.start.begin run.program run.aliases) (standing (run.reach 0)) ∧
      ∀ t, run.reach 0 ≠ .ok .finished t := by
  have prepared := prepare_unmoved run.program _ _ (.refl (run.start.begin run.program run.aliases))
  cases hp : prepare run.program (run.start.begin run.program run.aliases) with
  | ok a t =>
    have begun : run.reach 0 = .ok .walking t := by
      rw [reach, attempt, Action.bind_of_ok hp]
      rfl
    rw [hp] at prepared
    rw [begun]
    refine ⟨prepared, fun t' ended => ?_⟩
    injection ended with mode
    cases mode
  | error e t =>
    have begun : run.reach 0 = .error e t := by rw [reach, attempt, Action.bind_of_error hp]
    rw [hp] at prepared
    rw [begun]
    exact ⟨prepared, fun t' ended => by injection ended⟩

theorem inStep_begin (records : run.start.log.Records entries run.start.nextFrame) :
    (run.start.begin run.program run.aliases).InStep run.program run.start.nextFrame
      run.start.log.recent entries := by
  refine ⟨.begin records, .outermost rfl rfl rfl, fun frame hframe => ?_⟩
  cases Option.mem_some_iff.mp hframe
  exact Frame.stands_start _ _ _ records.fresh.1

/-- **Runs keep the stack and the log in step.** -/
theorem abides (records : run.start.log.Records entries run.start.nextFrame) (k : Nat) :
    Abides run.program run.start.nextFrame run.start.log.recent (entries ++ run.recorded k)
      (run.reach k) := by
  induction k with
  | zero =>
    obtain ⟨same, going⟩ := run.reach_zero
    have begun := (inStep_begin records).unmoved same
    rw [recorded, List.append_nil]
    cases hr : run.reach 0 with
    | ok mode t =>
      rw [hr] at begun
      refine ⟨begun, ?_⟩
      rintro rfl
      exact absurd hr (going t)
    | error e t =>
      rw [hr] at begun
      exact begun.ledger
  | succ k ih =>
    rw [recorded, ← List.append_assoc]
    exact (run.proceeds k).abides ih

/-- **Runs do not use a number again.** -/
theorem inherits (run : Run σ) {j : Nat} (h : j ≤ k) :
    Inherits (standing (run.reach j)) (standing (run.reach k)) := by
  induction h with
  | refl => exact .refl _
  | step _ ih => exact ih.trans (run.proceeds _).inherits

theorem nextFrame_le (run : Run σ) (k : Nat) :
    run.start.nextFrame ≤ (standing (run.reach k)).nextFrame := by
  have begun : run.start.nextFrame ≤ (run.start.begin run.program run.aliases).nextFrame :=
    Nat.le_succ _
  rw [← run.reach_zero.1.nextFrame] at begun
  exact Nat.le_trans begun (run.inherits (Nat.zero_le k)).numbers

theorem pop_nextFrame (s : Session σ) : s.pop.nextFrame = s.nextFrame := by
  unfold pop
  split <;> rfl

/-- A run that completes takes its own frame off the stack when it is closed. -/
theorem Ends.of_ok (ended : run.Ends (.ok () u)) :
    ∃ t, run.reach run.moves = .ok .finished t ∧ Unmoved t.pop u := by
  cases closed_of_ending ended with
  | @completed t _ h same => exact ⟨t, h, same⟩

/-- A run that fails leaves the stack and the log where its walk has left them. -/
theorem Ends.of_error {e : Raised} (ended : run.Ends (.error e u)) :
    Unmoved (standing (run.reach run.moves)) u := by
  cases closed_of_ending ended with
  | disturbed h same =>
    have reached : run.reach run.moves = _ := h
    rwa [reached]
  | failed h same =>
    have reached : run.reach run.moves = _ := h
    rwa [reached]

section ends

variable (records : run.start.log.Records entries run.start.nextFrame)
include records

/-- A run leaves a log that has recorded its entries, and keeps those of the frames that are still
on the stack. -/
theorem Ends.booked {r : EStateM.Result Raised (Session σ) Unit} (ended : run.Ends r) :
    (left r).Booked run.start.nextFrame run.start.log.recent (entries ++ run.entries) ∧
      (left r).nextFrame = (standing (run.reach run.moves)).nextFrame := by
  have booked := (run.abides records run.moves).booked
  cases r with
  | ok a u =>
    obtain ⟨t, reached, same⟩ := ended.of_ok
    rw [reached] at booked ⊢
    exact ⟨booked.pop.unmoved same, same.nextFrame.trans (pop_nextFrame t)⟩
  | error e u => exact ⟨booked.unmoved ended.of_error, ended.of_error.nextFrame⟩

/-- A run that completes leaves no frame on the stack. -/
theorem Ends.stack_eq_nil (ended : run.Ends (.ok () u)) : u.stack = [] := by
  have abides := run.abides records run.moves
  obtain ⟨t, reached, same⟩ := ended.of_ok
  rw [reached] at abides
  obtain ⟨frame, stack⟩ := abides.2 rfl
  rw [same.stack, pop_stack stack]

end ends

end Run

/-! ## Runs one after another -/

/-- The runs have followed one another since the log of the session was new. Between two of them
anything may have been changed but the log and the number of the next frame. -/
inductive Series : List (Run σ) → Session σ → Prop
  | new {s : Session σ} (log : s.log = { verbose := s.log.verbose }) : Series [] s
  | next {runs : List (Run σ)} {run : Run σ} {u : Session σ}
    {r : EStateM.Result Raised (Session σ) Unit} (earlier : Series runs run.start)
    (ended : run.Ends r) (log : u.log = (left r).log)
    (nextFrame : u.nextFrame = (left r).nextFrame) : Series (runs ++ [run]) u

variable {runs : List (Run σ)}

/-- One run more. -/
theorem Series.follow {run : Run σ} (h : Series runs run.start) (stopped : run.isOver = true) :
    Series (runs ++ [run]) (standing run.result) := by
  obtain ⟨r, ended⟩ | ⟨mode, t, going, onward⟩ := ending_or run.result
  · have last : standing run.result = left r := ended ▸ standing_ending r
    exact .next h ended (congrArg _ last) (congrArg _ last)
  · rw [Run.isOver, onward] at stopped
    cases mode with
    | finished => exact absurd rfl going
    | walking => cases stopped
    | waiting span => cases stopped

/-- **Logs of many runs.** -/
theorem Series.records (h : Series runs s) :
    s.log.Records (runs.flatMap Run.entries) s.nextFrame := by
  induction h with
  | @new s log =>
    rw [log]
    exact Log.records_new _ _
  | @next runs run u r _ ended log nextFrame ih =>
    have records := (ended.booked ih).1.toRecords
    rw [List.flatMap_append, List.flatMap_singleton, log, nextFrame]
    exact records

theorem Series.past {past : Run σ} (h : Series runs s) (hp : past ∈ runs) :
    (∃ earlier, Series earlier past.start) ∧
      (standing (past.reach past.moves)).nextFrame ≤ s.nextFrame := by
  induction h with
  | new _ => cases hp
  | @next runs run u r earlier ended log nextFrame ih =>
    have last : u.nextFrame = (standing (run.reach run.moves)).nextFrame :=
      nextFrame.trans (ended.booked earlier.records).2
    rcases List.mem_append.mp hp with old | new
    · obtain ⟨before, le⟩ := ih old
      refine ⟨before, Nat.le_trans le ?_⟩
      rw [last]
      exact run.nextFrame_le run.moves
    · cases List.mem_singleton.mp new
      exact ⟨⟨runs, earlier⟩, Nat.le_of_eq last.symm⟩

/-! ## Coherence -/

/-- A program that fails in the body of a loop, where there is no cell to the left. -/
def stumble : Program where
  instructions :=
    [.leaf (.counted .add 1) ⟨0, 1⟩, .loop [.leaf (.counted .left 1) ⟨2, 1⟩] ⟨1, 3⟩]

/-- A run of it that fails. -/
def stumbling : Run Unit where
  start := cornered
  program := stumble
  moves := 3

/-- Another run of it, on the session that the first has left. -/
def stumblingAgain : Run Unit where
  start := standing stumbling.result
  program := stumble
  moves := 3

theorem series_stumbling : Series [stumbling] stumblingAgain.start := by
  have first : Series [] stumbling.start := .new rfl
  have stopped : stumbling.isOver = true := by decide +kernel
  dsimp only [stumblingAgain]
  exact first.follow stopped

end Session

end NamedTape
