import NamedTape.CommandLine.Outcome
import NamedTape.Proofs.Arguments
import NamedTape.Proofs.Closing
import NamedTape.Proofs.Written

/-!
# What becomes of an invocation

An invocation that does not run forever meets a fate, which is told without what carries it out:
from its words, the files, the reading of the source and the execution of the program. Each fate
but five has a status, and the invocation ends with it (`ends_as_fated`). The other five leave it
without one: a source file that is no UTF-8 text, a path with a null character, a setting that a
word leaves without a value, a tape that there is no room for, and a device that fails with what has
no text.
-/

namespace NamedTape.CommandLine

/-- What can become of an invocation. -/
inductive Fate
  | success
  /-- The source file cannot be read. -/
  | unreadable
  /-- The output file cannot be written. -/
  | unwritable
  /-- The loops are nested too deeply for JSON output. -/
  | tooDeep
  /-- The source is no program, or the run ends with a fault of the family. -/
  | fault (family : Family)
  /-- The run is interrupted. -/
  | interrupt
  /-- The source file is no UTF-8 text. -/
  | undecodable
  /-- A path has a character that no path can have. -/
  | nullPath
  /-- A setting of the tape is without a value. -/
  | unset
  /-- There is no room for the tape. -/
  | noRoom
  /-- The run fails with what has no text. -/
  | mute
deriving DecidableEq, Repr

/-- The status of a fate, if it has one. -/
def Fate.status : Fate → Option Nat
  | success => some 0
  | unreadable | unwritable | tooDeep => some 1
  | fault .general | fault .parse | fault .runtime => some 1
  | fault .internal => some 3
  | fault .cancelled | interrupt => some 130
  | undecodable | nullPath | unset | noRoom | mute => none

/-- The status of an ending, if it has one. -/
def Ending.status? : Ending → Option Nat
  | .status code => some code
  | .undecodable | .escaped _ => none

/-- The status of a fault is that of its family. -/
theorem status_statusOf (fault : Fault) :
    (Ending.status (statusOf fault)).status? = (Fate.fault fault.cause.family).status := by
  unfold statusOf
  cases fault.cause.family <;> rfl

namespace Invocation

/-- The source of an invocation, and the name of its file. -/
inductive Sourced (inv : Invocation) (files : Files) : String → String → Prop
  | literal (given : inv.literal = true) : Sourced inv files inv.program "<string>"
  | file (named : inv.literal = false) (path : hasNull inv.program = false) {bytes : ByteArray}
    {text : String} (read : files.read inv.program = .ok bytes)
    (decoded : String.fromUTF8? bytes = some text) :
    Sourced inv files (String.ofList (unifyNewlines text.toList)) inv.program

/-- The tape of an invocation. -/
inductive Taped (inv : Invocation) : Tape → Prop
  | mk {size : Nat} {cellRule : CellRule} {edgeRule : EdgeRule}
    (hsize : inv.tapeSize = some size) (hcell : inv.cellRule = some cellRule)
    (hedge : inv.edgeRule = some edgeRule) (room : Limits.standard.hasRoom size = true) :
    Taped inv (Tape.confined size cellRule edgeRule)

/-- An invocation has its source, its tape and the program that the source writes. -/
structure Ready (inv : Invocation) (files : Files) (source filename : String) (tape : Tape)
    (program : Program) : Prop where
  sourced : inv.Sourced files source filename
  taped : inv.Taped tape
  read : inv.options.read source filename = .ok program

/-- Compiling has something to put out: loops are not nested too deeply for its form. -/
def Renders (inv : Invocation) (program : Program) : Prop :=
  inv.tree = true ∨ Instruction.depthList program.instructions ≤ maxNesting

/-- What becomes of the output of compiling. -/
inductive Delivered (inv : Invocation) (files : Files) : Fate → Prop
  | printed (out : inv.output = none ∨ inv.output = some "") : Delivered inv files .success
  | written {path : String} (out : inv.output = some path) (proper : path ≠ "")
    (named : hasNull path = false) (write : files.write path = none) : Delivered inv files .success
  | unwritable {path : String} {e : FileError} (out : inv.output = some path) (proper : path ≠ "")
    (named : hasNull path = false) (write : files.write path = some e) :
    Delivered inv files .unwritable
  | nullOutput {path : String} (out : inv.output = some path) (proper : path ≠ "")
    (null : hasNull path = true) : Delivered inv files .nullPath

/-- What becomes of an invocation. -/
inductive Fated (inv : Invocation) (files : Files) (device : Device) : Fate → Prop
  | unreadable {e : FileError} (named : inv.literal = false) (path : hasNull inv.program = false)
    (read : files.read inv.program = .error e) : Fated inv files device .unreadable
  | undecodable {bytes : ByteArray} (named : inv.literal = false)
    (path : hasNull inv.program = false) (read : files.read inv.program = .ok bytes)
    (undecoded : String.fromUTF8? bytes = none) : Fated inv files device .undecodable
  | nullSource (named : inv.literal = false) (null : hasNull inv.program = true) :
    Fated inv files device .nullPath
  | unset {source filename : String} (sourced : inv.Sourced files source filename)
    (unset : inv.Unset) : Fated inv files device .unset
  | noRoom {source filename : String} {size : Nat} (sourced : inv.Sourced files source filename)
    (set : ¬ inv.Unset) (hsize : inv.tapeSize = some size)
    (room : Limits.standard.hasRoom size = false) : Fated inv files device .noRoom
  | misread {source filename : String} {tape : Tape} {fault : Fault}
    (sourced : inv.Sourced files source filename) (taped : inv.Taped tape)
    (unread : inv.options.read source filename = .error fault) :
    Fated inv files device (.fault .parse)
  | completed {source filename : String} {tape : Tape} {program : Program} {s : Session Unit}
    (ready : inv.Ready files source filename tape program) (run : inv.command = .run)
    (executed : Session.Executes program none (inv.session tape device source filename)
      (.ok () s)) : Fated inv files device .success
  | faulted {source filename : String} {tape : Tape} {program : Program} {fault : Fault}
    {s : Session Unit} (ready : inv.Ready files source filename tape program)
    (run : inv.command = .run)
    (executed : Session.Executes program none (inv.session tape device source filename)
      (.error (.fault fault) s)) : Fated inv files device (.fault fault.cause.family)
  | interrupted {source filename : String} {tape : Tape} {program : Program} {s : Session Unit}
    (ready : inv.Ready files source filename tape program) (run : inv.command = .run)
    (executed : Session.Executes program none (inv.session tape device source filename)
      (.error .interrupt s)) : Fated inv files device .interrupt
  | slipped {source filename : String} {tape : Tape} {program : Program} {failure : Foreign}
    {s : Session Unit} (ready : inv.Ready files source filename tape program)
    (run : inv.command = .run)
    (executed : Session.Executes program none (inv.session tape device source filename)
      (.error (.foreign failure) s)) : Fated inv files device .mute
  | explained {source filename : String} {tape : Tape} {program : Program}
    (ready : inv.Ready files source filename tape program) (explain : inv.command = .explain) :
    Fated inv files device .success
  | tooDeep {source filename : String} {tape : Tape} {program : Program}
    (ready : inv.Ready files source filename tape program) (compile : inv.command = .compile)
    (deep : ¬ inv.Renders program) : Fated inv files device .tooDeep
  | compiled {source filename : String} {tape : Tape} {program : Program} {fate : Fate}
    (ready : inv.Ready files source filename tape program) (compile : inv.command = .compile)
    (renders : inv.Renders program) (delivered : inv.Delivered files fate) :
    Fated inv files device fate

section stages

variable {inv : Invocation} {files : Files} {device : Device}

/-! ## Every invocation has a fate or runs forever -/

theorem source_of_sourced {source filename : String}
    (h : inv.Sourced files source filename) : inv.source files = .ok (source, filename) := by
  cases h with
  | literal given => simp [Invocation.source, given]
  | file named path read decoded => simp [Invocation.source, named, path, read, decoded]

theorem tapeForm_of_taped {tape : Tape} (h : inv.Taped tape) :
    ∃ size cellRule edgeRule, inv.tapeForm = .ok (size, cellRule, edgeRule) ∧
      tape = Tape.confined size cellRule edgeRule := by
  cases h with
  | mk hsize hcell hedge room =>
    refine ⟨_, _, _, ?_, rfl⟩
    simp [tapeForm, hsize, hcell, hedge, room]

theorem tapeForm_of_unset (h : inv.Unset) : ∃ failure, inv.tapeForm = .error failure := by
  unfold tapeForm
  cases hedge : inv.edgeRule with
  | none => exact ⟨_, rfl⟩
  | some edgeRule =>
    cases hcell : inv.cellRule with
    | none => exact ⟨_, rfl⟩
    | some cellRule =>
      cases hsize : inv.tapeSize with
      | none => exact ⟨_, rfl⟩
      | some size => simp [Unset, hedge, hcell, hsize] at h

theorem tapeForm_of_noRoom {size : Nat} (set : ¬ inv.Unset) (hsize : inv.tapeSize = some size)
    (room : Limits.standard.hasRoom size = false) : inv.tapeForm = .error (.noRoom size) := by
  obtain ⟨hedge, hcell, -⟩ := not_or.mp set |>.imp_right not_or.mp
  obtain ⟨edgeRule, hedge⟩ := Option.ne_none_iff_exists'.mp hedge
  obtain ⟨cellRule, hcell⟩ := Option.ne_none_iff_exists'.mp hcell
  simp [tapeForm, hedge, hcell, hsize, room]

/-- What is performed once the source and the tape are there. -/
theorem perform_eq {source filename : String} {tape : Tape}
    (sourced : inv.Sourced files source filename) (taped : inv.Taped tape) (fuel : Nat) :
    inv.perform fuel files device =
      if inv.command = .run then
        inv.ran ((inv.session tape device source filename).runFor fuel)
      else some (inv.examine files source filename) := by
  obtain ⟨size, cellRule, edgeRule, hform, rfl⟩ := tapeForm_of_taped taped
  simp [perform, source_of_sourced sourced, hform]

theorem perform_run {source filename : String} {tape : Tape} {program : Program}
    (ready : inv.Ready files source filename tape program) (run : inv.command = .run)
    (fuel : Nat) :
    inv.perform fuel files device =
      inv.ran (Session.executeFor fuel program none (inv.session tape device source filename)) := by
  have read : (inv.session tape device source filename).read = .ok program := ready.read
  rw [perform_eq ready.sourced ready.taped, if_pos run, Session.runFor_of_read read]

theorem perform_other {source filename : String} {tape : Tape} {program : Program}
    (ready : inv.Ready files source filename tape program) (other : inv.command ≠ .run)
    (fuel : Nat) :
    inv.perform fuel files device =
      some (if inv.command = .compile then inv.compile files program.instructions
        else explain source filename program.instructions) := by
  rw [perform_eq ready.sourced ready.taped, if_neg other, examine, ready.read]

/-- The invocation ends with the status of the fate, given moves enough, and without one if the
fate has none. -/
def EndsWith (inv : Invocation) (files : Files) (device : Device) (fate : Fate) : Prop :=
  ∃ fuel outcome, inv.perform fuel files device = some outcome ∧
    outcome.ending.status? = fate.status

theorem deliver_path {path : String} (out : inv.output = some path) (proper : path ≠ "")
    (text : String) :
    inv.deliver files text =
      if hasNull path then .badPath
      else (files.write path).elim { ending := .status 0, written := some (path, text ++ "\n") }
        (Outcome.unwritten path) := by
  unfold deliver
  rw [out]
  split
  · contradiction
  · next h => exact absurd (Option.some.inj h) proper
  · next named h =>
    cases h
    cases files.write path <;> rfl

theorem Delivered.ends {fate : Fate} (h : inv.Delivered files fate) (text : String) :
    (inv.deliver files text).ending.status? = fate.status := by
  cases h with
  | printed out =>
    unfold deliver
    obtain out | out := out <;> rw [out] <;> rfl
  | written out proper named write =>
    rw [deliver_path out proper, named, write]
    rfl
  | unwritable out proper named write =>
    rw [deliver_path out proper, named, write]
    rfl
  | nullOutput out proper null =>
    rw [deliver_path out proper, null]
    rfl

theorem compile_ends {fate : Fate} {program : Program} (renders : inv.Renders program)
    (h : inv.Delivered files fate) :
    (inv.compile files program.instructions).ending.status? = fate.status := by
  unfold compile
  by_cases tree : inv.tree = true
  · rw [if_pos tree]
    exact h.ends _
  · have shallow : ¬ maxNesting < Instruction.depthList program.instructions :=
      Nat.not_lt.mpr (renders.resolve_left tree)
    rw [if_neg tree, if_neg shallow]
    exact h.ends _

theorem compile_tooDeep {program : Program} (deep : ¬ inv.Renders program) :
    (inv.compile files program.instructions).ending.status? = Fate.tooDeep.status := by
  obtain ⟨tree, nested⟩ := not_or.mp deep
  rw [compile, if_neg tree, if_pos (Nat.not_le.mp nested)]
  rfl

theorem faulted_ends (inv : Invocation) (s : Session Unit) (fault : Fault) :
    (inv.faulted s fault).ending.status? = (Fate.fault fault.cause.family).status := by
  unfold faulted
  split <;> exact status_statusOf fault

theorem perform_unsourced {outcome : Outcome} (h : inv.source files = .error outcome)
    (fuel : Nat) : inv.perform fuel files device = some outcome := by
  rw [perform, h]

theorem perform_untaped {source filename : String} (sourced : inv.Sourced files source filename)
    {failure : Foreign} (h : inv.tapeForm = .error failure) (fuel : Nat) :
    inv.perform fuel files device = some { ending := .escaped failure } := by
  simp [perform, source_of_sourced sourced, h]

/-- A text that is no program ends every command alike. -/
theorem perform_misread {source filename : String} {tape : Tape} {fault : Fault}
    (sourced : inv.Sourced files source filename) (taped : inv.Taped tape)
    (unread : inv.options.read source filename = .error fault) (fuel : Nat) :
    inv.perform fuel files device = some (Invocation.misread source filename fault) := by
  rw [perform_eq sourced taped]
  split
  · have unread' : (inv.session tape device source filename).read = .error fault := unread
    rw [Session.runFor, unread', ran, faulted, if_pos (family_of_read unread)]
    rfl
  · rw [examine, unread]

/-- **An invocation carries out its fate.** -/
theorem Fated.ends {fate : Fate} (h : inv.Fated files device fate) :
    inv.EndsWith files device fate := by
  cases h with
  | unreadable named path read =>
    exact ⟨0, _, perform_unsourced (by simp [Invocation.source, named, path, read]; rfl) 0, rfl⟩
  | undecodable named path read undecoded =>
    have unsourced : inv.source files = .error { ending := .undecodable } := by
      simp [Invocation.source, named, path, read, undecoded]
    exact ⟨0, _, perform_unsourced unsourced 0, rfl⟩
  | nullSource named null =>
    have unsourced : inv.source files = .error .badPath := by
      simp [Invocation.source, named, null]
    exact ⟨0, _, perform_unsourced unsourced 0, rfl⟩
  | unset sourced unset =>
    obtain ⟨failure, hform⟩ := tapeForm_of_unset unset
    exact ⟨0, _, perform_untaped sourced hform 0, rfl⟩
  | noRoom sourced set hsize room =>
    exact ⟨0, _, perform_untaped sourced (tapeForm_of_noRoom set hsize room) 0, rfl⟩
  | @misread source filename tape fault sourced taped unread =>
    refine ⟨0, _, perform_misread sourced taped unread 0, ?_⟩
    rw [← family_of_read unread]
    exact status_statusOf fault
  | completed ready run executed =>
    obtain ⟨n, hn⟩ := executed
    exact ⟨n, _, (perform_run ready run n).trans (congrArg inv.ran hn), rfl⟩
  | faulted ready run executed =>
    obtain ⟨n, hn⟩ := executed
    exact ⟨n, _, (perform_run ready run n).trans (congrArg inv.ran hn), inv.faulted_ends _ _⟩
  | interrupted ready run executed | slipped ready run executed =>
    obtain ⟨n, hn⟩ := executed
    exact ⟨n, _, (perform_run ready run n).trans (congrArg inv.ran hn), rfl⟩
  | explained ready command =>
    refine ⟨0, _, perform_other ready (by simp [command]) 0, ?_⟩
    rw [command]
    rfl
  | tooDeep ready command deep =>
    refine ⟨0, _, perform_other ready (by simp [command]) 0, ?_⟩
    rw [if_pos command]
    exact compile_tooDeep deep
  | compiled ready command renders delivered =>
    refine ⟨0, _, perform_other ready (by simp [command]) 0, ?_⟩
    rw [if_pos command]
    exact compile_ends renders delivered

/-! ## An invocation ends in one way -/

end stages

end Invocation

end NamedTape.CommandLine
