import NamedTape.Proofs.Unwinding

/-!
# The walk carries out the structured semantics

A quiet walk over the stack of frames ends with the outcome that the structured semantics gives to
the program, and with the steps of the run in the log (`walk_ends_iff_runs`).
-/

namespace NamedTape

namespace Session

open Store (Runs)

variable {σ : Type} {verbose preallocated : Bool}

section program

variable {s : Session σ} (hq : s.Quiet) {id : Nat} {program : List Instruction}
  (hs : s.stack = [{ id, body := program }])
include hq hs

theorem ends_runs {result : EStateM.Result Raised (Session σ) Unit}
    (h : Ends .walking s result) :
    ∃ steps, Runs s.log.verbose s.options.preallocate (.list program) s.store steps
      (outcome result) ∧ Log.Adds steps s.log (left result).log := by
  obtain ⟨steps, hrem, hadd⟩ := ends_remains h hq
  rw [hs] at hrem
  exact ⟨steps, hrem, hadd⟩

theorem runs_ends {steps : List Instruction} {r : Store.Outcome σ}
    (h : Runs s.log.verbose s.options.preallocate (.list program) s.store steps r) :
    ∃ result, Ends .walking s result ∧ outcome result = r ∧
      Log.Adds steps s.log (left result).log := by
  have stands : Stands s.log.verbose s.options.preallocate (.list program) s.store
      { id, body := program } [] s := ⟨hq, rfl, rfl, rfl, hs, rfl⟩
  have arrives := runs_arrives h stands
  cases r with
  | ok a store =>
    obtain ⟨t, lead, hstack, hstore⟩ := arrives
    have last := move_nil hstack rfl
    exact ⟨.ok () t, lead.ends _ (.moves last (.finished t)),
      congrArg (EStateM.Result.ok ()) hstore, lead.adds⟩
  | error e store =>
    obtain ⟨t, hends, hadd, hstore⟩ := arrives
    exact ⟨.error e t, hends, congrArg (EStateM.Result.error e) hstore, hadd⟩

/-- **The walk carries out the structured semantics.** A quiet walk over the frame of a program
alone ends with an outcome just if the program runs to that outcome, and the log then has the steps
of the run, in their order. -/
theorem walk_ends_iff_runs :
    (∀ r, (∃ n result, walkFor n .walking s = ending result ∧ outcome result = r) ↔
      ∃ steps, Runs s.log.verbose s.options.preallocate (.list program) s.store steps r) ∧
    ∀ n result steps r, walkFor n .walking s = ending result →
      Runs s.log.verbose s.options.preallocate (.list program) s.store steps r →
      Log.Adds steps s.log (left result).log := by
  refine ⟨fun r => ⟨?_, ?_⟩, ?_⟩
  · rintro ⟨n, result, h, rfl⟩
    obtain ⟨steps, hrun, -⟩ := ends_runs hq hs (.of_walkFor h)
    exact ⟨steps, hrun⟩
  · rintro ⟨steps, hrun⟩
    obtain ⟨result, hends, hout, -⟩ := runs_ends hq hs hrun
    obtain ⟨n, hn⟩ := hends.walkFor
    exact ⟨n, result, hn, hout⟩
  · intro n result steps r h hrun
    obtain ⟨steps', hrun', hadd⟩ := ends_runs hq hs (.of_walkFor h)
    obtain ⟨rfl, -⟩ := hrun.unique hrun'
    exact hadd

end program

/-- Puts two into the one cell, counts it down and writes what is left. -/
def countdown : List Instruction :=
  [.leaf (.counted .add 2) ⟨0, 2⟩,
   .loop [.leaf (.counted .subtract 1) ⟨3, 1⟩] ⟨2, 3⟩,
   .leaf .output ⟨5, 1⟩]

/-- About to count down. -/
def beforeCountdown : Session Unit where
  store :=
    { tape := .blank 1 .wrap .wrap
      aliases := {}
      device := .ofReadings .memory []
      host := () }
  stack := [{ id := 0, body := countdown }]

theorem walk_countdown_ends_iff_runs :
    beforeCountdown.Quiet ∧ beforeCountdown.stack = [{ id := 0, body := countdown }] ∧
      ∃ steps store, store.device.output = #[0] ∧
        Runs false true (.list countdown) beforeCountdown.store steps (.ok () store) := by
  have hq : beforeCountdown.Quiet := ⟨rfl, rfl⟩
  have walked : (finished? (walkFor 9 .walking beforeCountdown)).map (·.store.device.output) =
      some #[0] := by decide +kernel
  obtain ⟨t, ht, output⟩ := Option.map_eq_some_iff.mp walked
  obtain ⟨steps, hrun⟩ :=
    ((walk_ends_iff_runs hq rfl).1 _).1 ⟨9, .ok () t, eq_ending_of_finished? ht, rfl⟩
  exact ⟨hq, rfl, steps, t.store, output, hrun⟩

end Session

end NamedTape
