import NamedTape.Proofs.Attribution
import NamedTape.Proofs.Coincidence

/-!
# Other names

Names carry no meaning: a program whose aliases are called otherwise does what it did, as long as
different aliases keep different names (`renamed_coincide`). Its bindings are the same under the new
names, and a failure whose text shows a name shows the new one.
-/

namespace NamedTape

open NamedTape.Action (Tally)

/-! ## Programs and tables under other names -/

/-- The operation under other names. -/
def Operation.renamed (f : String → String) : Operation → Operation
  | .goto name => .goto (f name)
  | other => other

/-- The second operation is the first one under other names. -/
def Operation.Renamed (f : String → String) (operation operation' : Operation) : Prop :=
  operation' = operation.renamed f

namespace Instruction

mutual

/-- The instruction under other names. -/
def renamed (f : String → String) : Instruction → Instruction
  | leaf operation span => leaf (operation.renamed f) span
  | loop body span => loop (renamedEach f body) span

/-- The instructions under other names. -/
def renamedEach (f : String → String) : List Instruction → List Instruction
  | [] => []
  | i :: rest => i.renamed f :: renamedEach f rest

end

theorem mirrors_renamedEach (f : String → String) :
    (l : List Instruction) → Mirrors (Operation.Renamed f) l (renamedEach f l)
  | [] => by
    rw [renamedEach]
    exact .nil
  | .leaf operation span :: rest => by
    rw [renamedEach, renamed]
    exact .leaf span rfl (mirrors_renamedEach f rest)
  | .loop body span :: rest => by
    rw [renamedEach, renamed]
    exact .loop span (mirrors_renamedEach f body) (mirrors_renamedEach f rest)

end Instruction

/-- The program under other names. -/
def Program.renamed (f : String → String) (program : Program) : Program :=
  { program with
    instructions := Instruction.renamedEach f program.instructions
    aliasNames := program.aliasNames.map f }

namespace AliasTable

/-- The table under other names. -/
def renamed (f : String → String) (t : AliasTable) : AliasTable where
  names := t.names.map f
  bindings := t.bindings.map fun b => (f b.1, b.2)

variable {f : String → String} (hf : Function.Injective f)
include hf

/-- Names are repeated under other names where they were. -/
theorem distinct_map (names : List String) : distinct (names.map f) = (distinct names).map f := by
  suffices gathered : ∀ seen : List String,
      (names.map f).foldl (fun seen name => if seen.contains name then seen else seen ++ [name])
        (seen.map f) =
      (names.foldl (fun seen name => if seen.contains name then seen else seen ++ [name])
        seen).map f from gathered []
  induction names with
  | nil => exact fun seen => rfl
  | cons name rest ih =>
    intro seen
    have known : (seen.map f).contains (f name) = seen.contains name := by
      rw [Bool.eq_iff_iff, List.contains_iff_mem, List.contains_iff_mem,
        List.mem_map_of_injective hf]
    rw [List.map_cons, List.foldl_cons, List.foldl_cons, known, ← ih]
    split
    · rfl
    · rw [List.map_append]
      rfl

end AliasTable

/-! ## Failures under other names -/

/-- The cause under other names. -/
def Cause.renamed (f : String → String) : Cause → Cause
  | .noFreeCell name => .noFreeCell (f name)
  | .unresolvedAlias name => .unresolvedAlias (f name)
  | other => other

namespace Raised

/-- The failure under other names. -/
def renamed (f : String → String) : Raised → Raised
  | .fault told => .fault { told with cause := told.cause.renamed f }
  | other => other

variable (f : String → String) (e : Raised)

theorem within_renamed (span : Span) : (e.renamed f).within span = (e.within span).renamed f := by
  cases e <;> rfl

theorem attributed_renamed (span : Option Span) :
    (e.renamed f).attributed span = (e.attributed span).renamed f := by
  cases e with
  | fault told => rfl
  | interrupt => rfl
  | foreign failure =>
    obtain voiced | ⟨other, mute⟩ := failure.voiced_or
    · simp only [renamed, attributed, quoting_of_voiced voiced, Cause.renamed]
    · simp only [renamed, attributed, quoting_of_text mute]

/-- Names are not shown in the heading of a failure. -/
theorem heading_renamed : (e.renamed f).heading = e.heading ∧ (e.renamed f).span = e.span := by
  cases e with
  | fault told =>
    refine ⟨congrArg some ?_, rfl⟩
    cases told.cause <;> rfl
  | foreign failure => exact ⟨rfl, rfl⟩
  | interrupt => exact ⟨rfl, rfl⟩

end Raised

namespace Store

open NamedTape.Action (tallies_eq)
open AliasTable (Renames)
open Lockstep (leads_of_tallies)

variable {σ : Type} {f : String → String}

/-- Stores with equal tapes and devices, and the same bindings under other names. -/
def renamedBy (f : String → String) : Pairing where
  __ := Pairing.level Eq
  aliases := Renames f
  failures e e' := e' = e ∨ e' = e.renamed f
  same _ := .inl rfl
  within span h := by
    rcases h with rfl | rfl
    · exact .inl rfl
    · exact .inr (Raised.within_renamed f _ span)
  attributed span h := by
    rcases h with rfl | rfl
    · exact .inl rfl
    · exact .inr (Raised.attributed_renamed f _ span)

theorem names_renamedBy (hf : Function.Injective f) : (renamedBy f).Names f :=
  ⟨hf, rfl, fun _ => .inr rfl, fun _ => .inr rfl⟩

/-- Failures that correspond as they are reported are of one class, and at one place. -/
theorem heading_of_renamedBy {e e' : Raised}
    (h : (renamedBy f).failures e.untimed e'.untimed) :
    e'.heading = e.heading ∧ e'.span = e.span := by
  obtain ⟨heading, span⟩ := e.heading_untimed
  obtain ⟨heading', span'⟩ := e'.heading_untimed
  rw [← heading, ← heading', ← span, ← span']
  rcases h with same | renamed
  · exact same ▸ ⟨rfl, rfl⟩
  · exact renamed ▸ e.untimed.heading_renamed f

/-- Every operation does the same under another name. -/
theorem renamed_marches (hf : Function.Injective f) (preallocated : Bool) :
    ((renamedBy f).along (Operation.Renamed f)).Marches σ σ preallocated := by
  rintro operation _ rfl
  refine leads_of_tallies ?_
  have same : ∀ e, (renamedBy f).failures e e := (renamedBy f).same
  cases operation with
  | counted kind count => exact counted_tallies _ rfl (names_renamedBy hf) kind count
  | input => exact input_tallies _ (tallies_eq same _)
  | output => exact output_tallies _ fun _ => tallies_eq same _
  | goto name => exact goto_tallies _ (names_renamedBy hf) name
  | blank => exact blank_tallies _

end Store

namespace Session

open Store (renamedBy)

variable {σ : Type} {program : Program} {aliases : Option AliasTable} {s : Session σ}

/-- **Names carry no meaning.** Under other names, of which no two are equal, a program goes on
forever, completes or fails as it did, with the same tape and device and with its bindings under the
new names. If it fails, it does so under the same heading and at the same place. -/
theorem renamed_coincide (hq : s.Quiet) {f : String → String} (hf : Function.Injective f) :
    Coincide (renamedBy f) program aliases s (program.renamed f) (aliases.map (.renamed f)) s ∧
    ∀ e t e' t', Executes program aliases s (.error e t) →
      Executes (program.renamed f) (aliases.map (.renamed f)) s (.error e' t') →
      e'.heading = e.heading ∧ e'.span = e.span := by
  have abreast : Abreast ((renamedBy f).along (Operation.Renamed f)) program aliases s
      (program.renamed f) (aliases.map (.renamed f)) s := {
    quiet := hq
    quiet' := hq
    verbose := rfl
    preallocate := rfl
    mirrors := Instruction.mirrors_renamedEach f program.instructions
    marches := Store.renamed_marches hf _
    opening := opening_tally (Store.names_renamedBy hf) rfl rfl rfl fun _ => by
      cases aliases with
      | none => exact AliasTable.distinct_map hf program.aliasNames
      | some table => rfl
    early := fun _ _ => rfl }
  have coincide := abreast.coincide_along
  refine ⟨coincide, fun e t e' t' h h' => ?_⟩
  cases coincide.ends _ _ h h' with
  | failed store failure => exact Store.heading_of_renamedBy failure

/-- Goes to the cells of two aliases. -/
def errands : Program where
  instructions := [.leaf (.goto "a") ⟨0, 3⟩, .leaf (.goto "b") ⟨3, 3⟩]
  aliasNames := ["a", "b"]

theorem primed_injective : Function.Injective fun name : String => "'" ++ name := by
  intro name other h
  simpa using h

theorem renamed_coincide_errands :
    cornered.Quiet ∧ Function.Injective (fun name : String => "'" ++ name) ∧
      ∃ t t', Executes errands none cornered (.ok () t) ∧
        Executes (errands.renamed ("'" ++ ·)) none cornered (.ok () t') ∧
        t'.store.tape = t.store.tape ∧
        t'.store.aliases.bindings = t.store.aliases.bindings.map fun b => ("'" ++ b.1, b.2) := by
  have shown : (finished? (executeFor 3 errands none cornered)).isSome = true := by decide +kernel
  have shown' : (finished? (executeFor 3 (errands.renamed ("'" ++ ·)) none cornered)).isSome =
      true := by decide +kernel
  obtain ⟨t, executes⟩ := executes_of_finished? shown
  obtain ⟨t', executes'⟩ := executes_of_finished? shown'
  have coincide := @renamed_coincide Unit errands none cornered quiet_cornered _ primed_injective
  refine ⟨quiet_cornered, primed_injective, t, t', executes, executes', ?_⟩
  cases coincide.1.ends _ _ executes executes' with
  | completed store => exact ⟨store.tape.symm, store.aliases⟩

end Session

end NamedTape
