import NamedTape.Proofs.Action
import NamedTape.Session.Walk

/-!
# What moves keep

Every move of a walk is made of the same few parts. What all the parts keep of a session, and of the
programs on its stack, every move keeps, and so does every walk (`Maintains.walkFor`).
-/

namespace NamedTape

namespace Session

open NamedTape.Action (Meets)

variable {σ : Type}

theorem walkFor_finished (n : Nat) (s : Session σ) :
    walkFor n .finished s = .ok .finished s := by
  cases n <;> rfl

theorem walkFor_succ (n : Nat) (mode : Mode) (s : Session σ) :
    walkFor (n + 1) mode s = (move mode >>= walkFor n) s := by
  cases mode with
  | finished => exact (walkFor_finished n s).symm
  | walking => rfl
  | waiting span => rfl

theorem walkFor_one (mode : Mode) (s : Session σ) : walkFor 1 mode s = move mode s := by
  rw [walkFor_succ]
  cases hm : move mode s with
  | error e t => rw [Action.bind_of_error hm]
  | ok mode' t =>
    rw [Action.bind_of_ok hm]
    cases mode' <;> rfl

/-- What every move keeps, every walk keeps; it may depend on where the walk stands. -/
theorem meets_walkFor {P : Mode → Session σ → Prop} {E : Raised → Session σ → Prop}
    (h : ∀ mode, Meets (P mode) (move mode) P E) (n : Nat) (mode : Mode) :
    Meets (P mode) (walkFor n mode) P E := by
  induction n generalizing mode with
  | zero => cases mode <;> exact .pure fun _ hs => hs
  | succ n ih =>
    intro s hs
    rw [walkFor_succ]
    exact (h mode).bind (fun mode' => ih mode') s hs

/-- The parts of a move keep `P` of a session whose stack holds programs in `Q`, or fail with what
is in `E`. -/
structure Maintains (P : Session σ → Prop) (Q : List Instruction → Prop)
    (E : Raised → Session σ → Prop) : Prop where
  announce : ∀ notice, Meets P (announce notice) (fun _ => P) E
  checkCancelled : ∀ span, Meets P (checkCancelled span) (fun _ => P) E
  takeStep : ∀ frame i, Meets P (takeStep frame i) (fun _ => P) E
  cell : Meets P cell (fun _ => P) E
  receive : Meets P (onStore Store.receive) (fun _ => P) E
  perform : ∀ {s operation span}, P s → Q [.leaf operation span] →
    Meets P (onStore (Store.perform s.options.preallocate operation)) (fun _ => P) E
  within : ∀ {e s} span, E e s → E (e.within span) s
  frame : ∀ {s frame below}, P s → s.stack = frame :: below → Q frame.body ∧ Q frame.rest
  cons : ∀ {i rest}, Q (i :: rest) → Q [i] ∧ Q rest
  body : ∀ {body span}, Q [.loop body span] → Q body
  setRest : ∀ {s rest}, P s → Q rest → P (s.setRest rest)
  push : ∀ {s body} loop, P s → Q body → P (s.push loop body)
  pop : ∀ {s}, P s → P s.pop

variable {P : Session σ → Prop} {Q : List Instruction → Prop} {E : Raised → Session σ → Prop}
  (h : Maintains P Q E)
include h

theorem Maintains.proceed (i : Instruction) (progress : Store.Progress) :
    Meets P (proceed i progress) (fun _ => P) E := by
  cases progress with
  | done => exact (h.announce _).bind fun _ => .pure fun _ hs => hs
  | waiting => exact .pure fun _ hs => hs

theorem Maintains.carryOut {act : Action (Session σ) Store.Progress} (span : Span)
    (ha : Meets P act (fun _ => P) E) : Meets P (carryOut span act) (fun _ => P) E :=
  .restating (ha.mono_error fun _ _ he => h.within span he)

theorem Maintains.take (frame : Nat) {i : Instruction} (hi : Q [i]) :
    Meets P (take frame i) (fun _ => P) E := by
  refine (h.checkCancelled _).bind fun _ => (h.takeStep frame i).bind fun _ =>
    (h.announce _).bind fun _ => ?_
  cases i with
  | leaf operation span =>
    refine .get fun s hs => ?_
    have performed := (h.carryOut span (h.perform hs hi)).bind
      fun progress => h.proceed (.leaf operation span) progress
    exact performed.mono (fun _ ht => ht ▸ hs) (fun _ _ ht => ht) fun _ _ he => he
  | loop body span =>
    refine h.cell.bind fun n => ?_
    cases n with
    | zero => exact h.proceed (.loop body span) .done
    | succ n =>
      exact (Meets.modify fun s hs => h.push (some span) hs (h.body hi)).bind
        fun _ => h.proceed (.loop body span) .done

theorem Maintains.comeRound (span : Span) {body : List Instruction} (hb : Q body) :
    Meets P (comeRound span body) (fun _ => P) E := by
  refine h.cell.bind fun n => ?_
  cases n with
  | zero => exact (Meets.modify fun s hs => h.pop hs).bind fun _ => .pure fun _ hs => hs
  | succ n =>
    have again : Meets P (modify (Session.setRest body) : Action (Session σ) PUnit)
        (fun _ => P) E := .modify fun s hs => h.setRest hs hb
    exact (h.checkCancelled span).bind fun _ => again.bind fun _ => .pure fun _ hs => hs

theorem Maintains.askAgain (span : Span) : Meets P (askAgain span) (fun _ => P) E :=
  (h.carryOut span ((h.checkCancelled span).bind fun _ => h.receive)).bind
    fun progress => h.proceed _ progress

/-- What the parts of a move keep, every move keeps. -/
theorem Maintains.move (mode : Mode) : Meets P (move mode) (fun _ => P) E := by
  cases mode with
  | finished => exact .pure fun _ hs => hs
  | waiting span => exact h.askAgain span
  | walking =>
    refine .get fun s hs => ?_
    refine Meets.mono (P := P) ?_ (fun _ ht => ht ▸ hs) (fun _ _ ht => ht) fun _ _ he => he
    cases hstack : s.stack with
    | nil => exact .pure fun _ ht => ht
    | cons frame below =>
      obtain ⟨hbody, hrest⟩ := h.frame hs hstack
      dsimp only
      split
      · next i rest _ hi =>
        obtain ⟨first, later⟩ := h.cons (hi ▸ hrest)
        exact (Meets.modify fun t ht => h.setRest ht later).bind fun _ => h.take frame.id first
      · exact h.comeRound _ hbody
      · exact .pure fun _ ht => ht

/-- What the parts of a move keep, every walk keeps. -/
theorem Maintains.walkFor (n : Nat) (mode : Mode) :
    Meets P (walkFor n mode) (fun _ => P) E :=
  meets_walkFor h.move n mode

end Session

end NamedTape
