import NamedTape.Session

/-!
# Trails

A trail of a program is an order in which its instructions can be taken: one after another, and
after a loop a trail of its body for every pass. `Owes` says what a stack still has before it, and
`Pays` which instructions are taken on the way from one stack to another.
-/

namespace NamedTape

/-- The instructions are in an order in which the program can take them, from its start to its
end. -/
inductive Trail : List Instruction → List Instruction → Prop
  | nil : Trail [] []
  | leaf {operation : Operation} {span : Span} {rest steps : List Instruction}
    (next : Trail rest steps) :
    Trail (.leaf operation span :: rest) (.leaf operation span :: steps)
  /-- A loop is taken once, before all its passes. -/
  | loop {body rest steps : List Instruction} {span : Span} (passes : List (List Instruction))
    (each : ∀ pass ∈ passes, Trail body pass) (next : Trail rest steps) :
    Trail (.loop body span :: rest) (.loop body span :: (passes.flatten ++ steps))

/-- An instruction can be taken and be over with that. -/
theorem Trail.cons {rest steps : List Instruction} (i : Instruction) (h : Trail rest steps) :
    Trail (i :: rest) (i :: steps) := by
  cases i with
  | leaf operation span => exact .leaf h
  | loop body span => exact .loop [] (List.forall_mem_nil _) h

theorem exists_trail (program : List Instruction) : ∃ steps, Trail program steps := by
  induction program with
  | nil => exact ⟨[], .nil⟩
  | cons i rest ih =>
    obtain ⟨steps, h⟩ := ih
    exact ⟨i :: steps, h.cons i⟩

/-! ## What a stack has before it -/

/-- The instructions are an order in which the frames can be carried out to their end, the innermost
first: the rest of each frame, any number of further passes if it is a loop's, and then the frames
below it. -/
inductive Owes : List Frame → List Instruction → Prop
  | program {frame : Frame} {steps : List Instruction} (loop : frame.loop = none)
    (rest : Trail frame.rest steps) : Owes [frame] steps
  | body {frame : Frame} {below : List Frame} {later : List Instruction}
    (steps : List Instruction) (passes : List (List Instruction)) (loop : frame.loop.isSome)
    (rest : Trail frame.rest steps) (each : ∀ pass ∈ passes, Trail frame.body pass)
    (after : Owes below later) :
    Owes (frame :: below) (steps ++ (passes.flatten ++ later))

section owing

variable {frame : Frame} {below : List Frame} {rest later : List Instruction}

/-- A frame owes more if there is more of it left. -/
theorem Owes.prepend (new : List Instruction) (h : Owes ({ frame with rest } :: below) later)
    (hn : ∀ steps, Trail rest steps → Trail frame.rest (new ++ steps)) :
    Owes (frame :: below) (new ++ later) := by
  cases h with
  | program loop trail => exact .program loop (hn _ trail)
  | body steps passes loop trail each after =>
    rw [← List.append_assoc]
    exact .body (new ++ steps) passes loop (hn _ trail) each after

/-- An instruction that is over with its step. -/
theorem Owes.take {i : Instruction} (h : Owes ({ frame with rest } :: below) later)
    (upcoming : frame.rest = i :: rest) : Owes (frame :: below) (i :: later) :=
  h.prepend [i] fun _ trail => upcoming ▸ trail.cons i

/-- A loop that is entered. -/
theorem Owes.enter {id : Nat} {span : Span} {body : List Instruction}
    (h : Owes ({ id, loop := some span, body } :: { frame with rest } :: below) later)
    (upcoming : frame.rest = .loop body span :: rest) :
    Owes (frame :: below) (.loop body span :: later) := by
  cases h with
  | @body _ _ later steps passes _ first each after =>
    have entered : ∀ next, Trail rest next →
        Trail frame.rest ((.loop body span :: (steps :: passes).flatten) ++ next) :=
      fun next trail =>
        upcoming ▸ .loop (steps :: passes) (List.forall_mem_cons.mpr ⟨first, each⟩) trail
    have paid := after.prepend _ entered
    rwa [List.flatten_cons, List.cons_append, List.append_assoc] at paid

/-- A loop whose body starts anew. -/
theorem Owes.again (h : Owes ({ frame with rest := frame.body } :: below) later)
    (spent : frame.rest = []) (loop : frame.loop.isSome) : Owes (frame :: below) later := by
  cases h with
  | program none _ => cases (congrArg Option.isSome none).symm.trans loop
  | body steps passes _ first each after =>
    have all := List.forall_mem_cons.mpr ⟨first, each⟩
    rw [← List.append_assoc]
    exact .body [] (steps :: passes) loop (spent ▸ .nil) all after

/-- A loop that is left. -/
theorem Owes.leave (h : Owes below later) (spent : frame.rest = []) (loop : frame.loop.isSome) :
    Owes (frame :: below) later :=
  .body [] [] loop (spent ▸ .nil) (List.forall_mem_nil _) h

end owing

/-! ## From one stack to another -/

/-- On the way from the first stack to the second the instructions are taken. -/
structure Pays (steps : List Instruction) (stack stack' : List Frame) : Prop where
  owed {later : List Instruction} (h : Owes stack' later) : Owes stack (steps ++ later)
  /-- There still is a way to the end. -/
  onward (h : ∃ later, Owes stack later) : ∃ later, Owes stack' later

theorem Pays.refl (stack : List Frame) : Pays [] stack stack := ⟨id, id⟩

theorem Pays.trans {steps steps' : List Instruction} {stack stack' stack'' : List Frame}
    (h : Pays steps stack stack') (h' : Pays steps' stack' stack'') :
    Pays (steps ++ steps') stack stack'' where
  owed ho := by
    rw [List.append_assoc]
    exact h.owed (h'.owed ho)
  onward ho := h'.onward (h.onward ho)

section paying

variable {frame : Frame} {below : List Frame} {i : Instruction} {rest : List Instruction}

/-- A frame can be given any rest. -/
theorem Owes.reset (h : ∃ later, Owes (frame :: below) later) (rest : List Instruction) :
    ∃ later, Owes ({ frame with rest } :: below) later := by
  obtain ⟨_, h⟩ := h
  obtain ⟨steps, trail⟩ := exists_trail rest
  cases h with
  | program loop _ => exact ⟨_, .program loop trail⟩
  | body _ passes loop _ each after => exact ⟨_, .body steps passes loop trail each after⟩

theorem pays_take (upcoming : frame.rest = i :: rest) :
    Pays [i] (frame :: below) ({ frame with rest } :: below) :=
  ⟨fun h => h.take upcoming, fun h => Owes.reset h rest⟩

theorem pays_enter {id : Nat} {span : Span} {body : List Instruction}
    (upcoming : frame.rest = .loop body span :: rest) :
    Pays [.loop body span] (frame :: below)
      ({ id, loop := some span, body } :: { frame with rest } :: below) where
  owed h := h.enter upcoming
  onward h := by
    obtain ⟨steps, trail⟩ := exists_trail body
    obtain ⟨later, h⟩ := Owes.reset h rest
    exact ⟨_, .body steps [] rfl trail (List.forall_mem_nil _) h⟩

theorem pays_repeat (spent : frame.rest = []) (loop : frame.loop.isSome) :
    Pays [] (frame :: below) ({ frame with rest := frame.body } :: below) :=
  ⟨fun h => h.again spent loop, fun h => Owes.reset h frame.body⟩

theorem pays_leave (spent : frame.rest = []) (loop : frame.loop.isSome) :
    Pays [] (frame :: below) below where
  owed h := h.leave spent loop
  onward := by
    rintro ⟨_, h⟩
    cases h with
    | program none _ => cases (congrArg Option.isSome none).symm.trans loop
    | body _ _ _ _ _ after => exact ⟨_, after⟩

/-- A frame without a loop is the program's, and owes nothing once it is done. -/
theorem owes_nil (h : ∃ later, Owes (frame :: below) later) (spent : frame.rest = [])
    (program : frame.loop = none) : Owes (frame :: below) [] := by
  obtain ⟨_, h⟩ := h
  cases h with
  | program loop _ => exact .program loop (spent ▸ .nil)
  | body _ _ loop _ _ _ => cases (congrArg Option.isSome program).symm.trans loop

theorem owes_program {program steps : List Instruction} {id : Nat} :
    Owes [{ id, body := program }] steps ↔ Trail program steps := by
  constructor
  · intro h
    cases h with
    | program _ trail => exact trail
    | body _ _ loop _ _ _ => cases loop
  · exact fun trail => .program rfl trail

end paying

end NamedTape
