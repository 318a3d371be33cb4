import NamedTape.Proofs.Coherence

/-!
# What a log keeps of earlier runs

At the heads of a run the log keeps no more entries for the run than there are frames on the stack,
and all of them are of these frames. But a run that fails leaves its frames on the stack, and when
the next one clears the stack nobody forgets what the log has kept of them (`Run.Ends.kept_iff`). So
there are no other entries just as long as every earlier run has completed, or has failed before its
first step (`kept_at_heads`).
-/

namespace NamedTape

namespace Session

variable {σ : Type} {s t : Session σ} {program : Program} {origin k id : Nat}
  {before : List (Nat × Entry Nat)} {entries : List (Entry Nat)} {i : Instruction}
  {rest : List Instruction} {mode : Mode} {run : Run σ} {runs : List (Run σ)}
  {r r' : EStateM.Result Raised (Session σ) Mode}

/-! ## The frame of the program -/

theorem InStep.origin_mem (h : s.InStep program origin before entries) :
    origin ∈ s.stack.map (·.id) := by
  obtain ⟨frame, last, number, -⟩ := h.nesting.outermost_getLast?
  exact number ▸ List.mem_map_of_mem (List.mem_of_getLast? last)

/-- As long as no frame of the run has taken a step, the frame of the program is the innermost. -/
theorem InStep.top_eq_origin (h : s.InStep program origin before entries)
    (none : ∀ id ≥ origin, entriesOf id entries = []) :
    ∀ frame ∈ s.stack.head?, frame.id = origin := by
  intro top htop
  obtain ⟨ledger, nesting, -⟩ := h
  unfold Booked at ledger
  cases stack : s.stack with
  | nil =>
    rw [stack] at htop
    cases htop
  | cons frame below =>
    rw [stack] at htop nesting ledger
    cases Option.mem_some_iff.mp htop
    cases nesting with
    | outermost number _ _ => exact number
    | @inner _ outer _ nested _ =>
      obtain ⟨_, _, entry, _, _, last, -⟩ := nested
      have started := (ledger.numbered outer.id (by simp)).1
      rw [none outer.id started] at last
      cases last

theorem setRest_ids (s : Session σ) (rest : List Instruction) :
    (s.setRest rest).stack.map (·.id) = s.stack.map (·.id) := by
  cases stack : s.stack with
  | nil => simp only [setRest, stack]
  | cons frame below => rw [setRest_eq stack, List.map_cons, List.map_cons]

/-- A move that fails takes no frame off the stack. -/
theorem Balks.mem_ids (h : Balks s t) (hid : id ∈ s.stack.map (·.id)) :
    id ∈ t.stack.map (·.id) := by
  cases h with
  | stays same => rwa [same.stack]
  | readies _ _ same => rwa [same.stack, setRest_ids]
  | takes _ _ taken =>
    rcases taken with ⟨view, same⟩ | ⟨body, span, view, -, same⟩
    · rwa [same.stack, noted_stack, setRest_ids]
    · rw [same.stack]
      refine List.mem_cons_of_mem _ ?_
      rwa [noted_stack, setRest_ids]

/-! ## The first step of a run -/

theorem news_taken {number : Nat} (h : Taken number i (s.setRest rest) t) :
    ∀ e ∈ s.news t, e.frame = some number := by
  have recorded : ∀ view, t.log = ((s.setRest rest).noted number i view).log →
      ∀ e ∈ s.news t, e.frame = some number := by
    intro view log e he
    rw [news, log, noted, setRest_log, Log.news_record, List.mem_singleton] at he
    exact he ▸ rfl
  rcases h with ⟨view, same⟩ | ⟨body, span, view, -, same⟩
  · exact recorded view same.log
  · exact recorded view same.log

/-- What a move records is a step of the innermost frame. -/
theorem Proceeds.news (h : Proceeds r r') : ∀ e ∈ (standing r).news (standing r'),
    ∃ frame ∈ (standing r).stack.head?, e.frame = some frame.id := by
  have silent : ∀ {s t : Session σ} {P : Entry Nat → Prop}, s.news t = [] → ∀ e ∈ s.news t, P e :=
    fun none e he => by simp [none] at he
  have stepped : ∀ {s t : Session σ} {frame below i rest}, s.stack = frame :: below →
      Taken frame.id i (s.setRest rest) t →
      ∀ e ∈ s.news t, ∃ frame ∈ s.stack.head?, e.frame = some frame.id :=
    fun {s t frame below i rest} stack taken e he =>
      ⟨frame, by simp [stack], news_taken taken e he⟩
  cases h with
  | rests r => exact silent (Unmoved.refl _).no_news
  | moves h =>
    cases h with
    | ends _ => exact silent (Unmoved.refl _).no_news
    | stays _ same => exact silent same.no_news
    | takes _ stack _ taken => exact stepped stack taken
    | repeats _ _ same => exact silent (same.news.trans (news_setRest _ _))
    | leaves _ _ same => exact silent (same.news.trans (news_pop _))
  | stops h =>
    cases h with
    | stays same => exact silent same.no_news
    | readies _ _ same => exact silent (same.news.trans (news_setRest _ _))
    | takes stack _ taken => exact stepped stack taken

/-- The first step is one of the frame of the program. -/
theorem Proceeds.first (h : Proceeds r r') (abides : Abides program origin before entries r)
    (none : ∀ id ≥ origin, entriesOf id entries = []) :
    ∀ e ∈ (standing r).news (standing r'), e.frame = some origin := by
  intro e he
  obtain ⟨frame, top, own⟩ := h.news e he
  cases r with
  | ok mode s => rw [own, abides.1.top_eq_origin none frame top]
  | error e s =>
    cases h with
    | rests _ =>
      rw [(Unmoved.refl _).no_news] at he
      cases he

namespace Run

variable (records : run.start.log.Records entries run.start.nextFrame)
include records

theorem first_step (k : Nat) :
    ∀ e ∈ (run.recorded k).head?, e.frame = some run.start.nextFrame := by
  induction k with
  | zero => exact fun e he => by cases he
  | succ k ih =>
    intro e he
    rw [recorded] at he
    cases hk : run.recorded k with
    | cons first later =>
      rw [hk] at he ih
      exact ih e he
    | nil =>
      have abides := run.abides records k
      rw [hk, List.nil_append] at he
      rw [hk, List.append_nil] at abides
      exact (run.proceeds k).first abides (fun id later => (records.mono later).fresh.1) e
        (List.mem_of_mem_head? he)

/-- The frame of the program stays on the stack until the run is closed. -/
theorem origin_mem (k : Nat) :
    run.start.nextFrame ∈ (standing (run.reach k)).stack.map (·.id) := by
  induction k with
  | zero =>
    rw [run.reach_zero.1.stack]
    exact (inStep_begin records).origin_mem
  | succ k ih =>
    have abides := run.abides records (k + 1)
    have going := run.proceeds k
    cases hr : run.reach (k + 1) with
    | ok mode t =>
      rw [hr] at abides
      exact abides.1.origin_mem
    | error e t =>
      rw [hr] at going
      generalize run.reach k = before at going ih
      cases going with
      | rests _ => exact ih
      | stops balks => exact balks.mem_ids ih

/-- A run that records steps and fails leaves entries behind. -/
theorem Ends.length_lt {e : Raised} (ended : run.Ends (.error e t)) (steps : run.entries ≠ []) :
    run.start.log.recent.length < t.log.recent.length := by
  have booked := (ended.booked records).1
  have root : run.start.nextFrame ∈ t.stack.map (·.id) := by
    rw [ended.of_error.stack]
    exact run.origin_mem records run.moves
  obtain ⟨first, later, split⟩ := List.exists_cons_of_ne_nil steps
  have own : first.frame = some run.start.nextFrame := by
    refine run.first_step records run.moves first ?_
    show first ∈ run.entries.head?
    rw [split, List.head?_cons, Option.mem_some_iff]
  have taken : first ∈ entriesOf run.start.nextFrame (entries ++ run.entries) :=
    mem_entriesOf.mpr ⟨List.mem_append_right _ (split ▸ List.mem_cons_self), own⟩
  have kept := (Ledger.isSome_lastOf_iff booked (Nat.le_refl _)).mpr
    ⟨root, List.ne_nil_of_mem taken⟩
  exact Ledger.length_lt booked (Nat.le_refl _) kept

/-- A run that completes leaves the entries that it has found. -/
theorem Ends.recent_of_ok (ended : run.Ends (.ok () t)) :
    t.log.recent = run.start.log.recent := by
  refine Ledger.recent_eq_before (ended.booked records).1 fun id hid => ?_
  simp [left, ended.stack_eq_nil records] at hid

/-- So does a run that records nothing. -/
theorem Ends.recent_of_silent {r : EStateM.Result Raised (Session σ) Unit} (ended : run.Ends r)
    (silent : run.entries = []) : (left r).log.recent = run.start.log.recent := by
  have booked := (ended.booked records).1
  rw [silent, List.append_nil] at booked
  refine Ledger.recent_eq_before booked fun id hid => ?_
  rw [booked.kept id hid, (records.mono (booked.numbered id hid).1).fresh.1, List.getLast?_nil]

/-- A run leaves a log that keeps nothing if it has found it so, and completes or records
nothing. -/
theorem Ends.kept_iff {r : EStateM.Result Raised (Session σ) Unit} (ended : run.Ends r) :
    (left r).log.recent = [] ↔
      run.start.log.recent = [] ∧ (run.Completes ∨ run.entries = []) := by
  cases r with
  | ok a u =>
    have completes : run.Completes := ⟨u, ended⟩
    simp only [left, ended.recent_of_ok records, completes, true_or, and_true]
  | error e u =>
    have fails : ¬ run.Completes := by
      rintro ⟨_, completed⟩
      cases ending_injective (ended.symm.trans completed)
    by_cases silent : run.entries = []
    · simp only [ended.recent_of_silent records silent, silent, or_true, and_true]
    · have more := ended.length_lt records silent
      simp only [left, fails, silent, or_self, and_false, iff_false]
      exact List.ne_nil_of_length_pos (Nat.lt_of_le_of_lt (Nat.zero_le _) more)

end Run

/-- After many runs the log keeps nothing just in case each of them has completed or recorded
nothing. -/
theorem Series.recent_eq_nil_iff (h : Series runs s) :
    s.log.recent = [] ↔ ∀ run ∈ runs, run.Completes ∨ run.entries = [] := by
  induction h with
  | @new s log =>
    rw [log]
    exact iff_of_true rfl (List.forall_mem_nil _)
  | @next runs run u r earlier ended log _ ih =>
    rw [log, ended.kept_iff earlier.records, ih, List.forall_mem_append, List.forall_mem_singleton]

/-- **What is kept at the heads of a run.** Let runs have followed one another, and let a further
run be at a head of its walk loop. The entries that are kept of its frames are all of frames on the
stack, and so not more than these; the others are those that were kept when the run began. So all
entries are of frames on the stack if and only if none was kept then, and that is so if and only if
every earlier run has completed, or has failed before its first step. A run that completes leaves
what was kept when it began, and one that fails after its first step leaves more. -/
theorem kept_at_heads (earlier : Series runs run.start) :
    (∀ k mode t, run.reach k = .ok mode t →
      (∀ p ∈ t.log.recent, run.start.nextFrame ≤ p.1 → p.1 ∈ t.stack.map (·.id)) ∧
      t.log.recent.filter (·.1 < run.start.nextFrame) = run.start.log.recent ∧
      t.log.recent.length ≤ t.stack.length + run.start.log.recent.length ∧
      ((∀ p ∈ t.log.recent, p.1 ∈ t.stack.map (·.id)) ↔ run.start.log.recent = [])) ∧
    (run.start.log.recent = [] ↔ ∀ past ∈ runs, past.Completes ∨ past.entries = []) ∧
    (∀ u, run.Ends (.ok () u) → u.log.recent = run.start.log.recent) ∧
    ∀ e u, run.Ends (.error e u) → run.entries ≠ [] →
      run.start.log.recent.length < u.log.recent.length := by
  refine ⟨fun k mode t reached => ?_, earlier.recent_eq_nil_iff,
    fun u ended => ended.recent_of_ok earlier.records,
    fun e u ended steps => ended.length_lt earlier.records steps⟩
  have abides := run.abides earlier.records k
  rw [reached] at abides
  have ledger := abides.1.ledger
  refine ⟨ledger.forgotten, ledger.earlier, ?_, fun all => ?_, fun none p hp => ?_⟩
  · simpa only [List.length_map] using ledger.length_le
  · rw [← ledger.earlier]
    refine List.filter_eq_nil_iff.mpr fun p hp old => ?_
    have started := (ledger.numbered p.1 (all p hp)).1
    have old := of_decide_eq_true old
    omega
  · refine ledger.forgotten p hp (Nat.le_of_not_lt fun old => ?_)
    have left : p ∈ t.log.recent.filter (·.1 < run.start.nextFrame) :=
      List.mem_filter.mpr ⟨hp, decide_eq_true old⟩
    rw [ledger.earlier, none] at left
    cases left

theorem kept_at_heads_stumbling :
    Series [stumbling] stumblingAgain.start ∧
      ∃ mode t, stumblingAgain.reach 2 = .ok mode t ∧ t.log.recent.length = 3 ∧
        t.log.recent.length ≤ t.stack.length + stumblingAgain.start.log.recent.length ∧
        ((∀ p ∈ t.log.recent, p.1 ∈ t.stack.map (·.id)) ↔
          stumblingAgain.start.log.recent = []) := by
  have shown : (match stumblingAgain.reach 2 with
      | .ok _ t => t.log.recent.length
      | .error _ _ => 0) = 3 := by decide +kernel
  have earlier := series_stumbling
  cases reached : stumblingAgain.reach 2 with
  | error e t =>
    rw [reached] at shown
    cases shown
  | ok mode t =>
    rw [reached] at shown
    obtain ⟨-, -, bound, all⟩ := (kept_at_heads earlier).1 2 mode t reached
    exact ⟨earlier, mode, t, rfl, shown, bound, all⟩

/-- When a run begins after another has failed in a loop, two entries are kept of frames that are
gone, while there is one frame on the stack. -/
theorem kept_outnumber_frames :
    Series [stumbling] stumblingAgain.start ∧ stumblingAgain.start.log.verbose = false ∧
      ∃ mode t, stumblingAgain.reach 0 = .ok mode t ∧ t.stack.length < t.log.recent.length ∧
        ∃ p ∈ t.log.recent, p.1 ∉ t.stack.map (·.id) := by
  have shown : (match stumblingAgain.reach 0 with
      | .ok _ t => decide (t.stack.length < t.log.recent.length ∧
        ∃ p ∈ t.log.recent, p.1 ∉ t.stack.map (·.id))
      | .error _ _ => false) = true := by decide +kernel
  have quiet : stumblingAgain.start.log.verbose = false := by decide +kernel
  refine ⟨series_stumbling, quiet, ?_⟩
  cases reached : stumblingAgain.reach 0 with
  | error e t =>
    rw [reached] at shown
    cases shown
  | ok mode t =>
    rw [reached] at shown
    exact ⟨mode, t, rfl, of_decide_eq_true shown⟩

end Session

end NamedTape
