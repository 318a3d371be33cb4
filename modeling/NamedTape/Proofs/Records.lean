import Mathlib.Algebra.Ring.Nat
import Mathlib.Data.List.Forall2
import NamedTape.Instruction.Record

/-!
# Records are lossless

The record of an instruction tells the instruction (`records_lossless`): `ofRecord?` reads it back
from the fields.

Records can be made without recursion into the bodies of loops. Each record is a sheet with a
number, the sheet of a loop lists the sheets of its body by number, and what is yet to be written
lies on a stack, the latest first.

* Taking a loop from the stack opens the list on its sheet, and adds to it, one by one, a new sheet
  for each instruction of the body, which goes on the stack too (`Desk.handle`).
* So sheets are listed before they are complete, and those of one body are completed from its end.
  Every sheet is complete, or waits on the stack, and lists only sheets with greater numbers
  (`Desk.Follows`). Once the stack is empty the first sheet is the record.
-/

namespace NamedTape

namespace Instruction

/-! ## Reading records -/

/-- The span that a field holds. -/
def spanOf? : Option Json → Option Span
  | some (.arr [.int offset, .int length]) => some ⟨offset, length⟩
  | _ => none

/-- The counted operation with the name. -/
def countedOf? : String → Option Counted
  | "Add" => some .add
  | "Subtract" => some .subtract
  | "MoveLeft" => some .left
  | "MoveRight" => some .right
  | _ => none

/-- The operation with the name, and with the count or the alias in the fields if it has one. -/
def operationOf? (op : String) (fields : List (String × Json)) : Option Operation :=
  match op, fields.lookup "count", fields.lookup "name" with
  | "Input", _, _ => some .input
  | "Output", _, _ => some .output
  | "Instruction", _, _ => some .blank
  | "Goto", _, some (.str name) => some (.goto name)
  | op, some (.int count), _ => (countedOf? op).map (.counted · count)
  | _, _, _ => none

mutual

/-- The instruction that the record is of. -/
def ofRecord? : Json → Option Instruction
  | .obj fields =>
    match fields.lookup "op", spanOf? (fields.lookup "span") with
    | some (.str "Loop"), some span => (bodyIn? fields).map (loop · span)
    | some (.str op), some span => (operationOf? op fields).map (leaf · span)
    | _, _ => none
  | _ => none

/-- The instructions that the records in the field for the body are of. -/
def bodyIn? : List (String × Json) → Option (List Instruction)
  | [] => none
  | (key, value) :: rest => if key = "body" then itemsOf? value else bodyIn? rest

/-- The instructions that the records in the array are of. -/
def itemsOf? : Json → Option (List Instruction)
  | .arr items => ofRecords? items
  | _ => none

/-- The instructions that the records are of. -/
def ofRecords? : List Json → Option (List Instruction)
  | [] => some []
  | item :: rest => do return (← ofRecord? item) :: (← ofRecords? rest)

end

mutual

theorem ofRecord?_record (i : Instruction) : ofRecord? i.record = some i := by
  cases i with
  | leaf operation span =>
    rcases operation with ⟨_ | _ | _ | _, count⟩ | _ | _ | name | _ <;> rfl
  | loop body span =>
    simp [record, ofRecord?, bodyIn?, itemsOf?, ofRecords?_recordList body, spanJson, spanOf?,
      List.lookup_cons]

theorem ofRecords?_recordList (l : List Instruction) : ofRecords? (recordList l) = some l := by
  cases l with
  | nil => rfl
  | cons i rest =>
    rw [recordList, ofRecords?, ofRecord?_record i, ofRecords?_recordList rest]
    rfl

end

/-! ## Making records from a stack -/

mutual

/-- How many instructions the instruction is made of, itself included. -/
def bulkOne : Instruction → Nat
  | leaf .. => 1
  | loop body _ => bulk body + 1

/-- How many instructions there are in the list, at any depth. -/
def bulk : List Instruction → Nat
  | [] => 0
  | i :: rest => i.bulkOne + bulk rest

end

/-- The fields of a record but for the body of a loop. -/
def ownFields (i : Instruction) : List (String × Json) :=
  [("op", .str i.rule), ("span", spanJson i.span)] ++
    match i with
    | leaf operation _ => operandFields operation
    | loop .. => []

/-- A record that is being made: its own fields, and the numbers of the records that have been added
to its body, if it is that of a loop and the body has been opened. -/
structure Sheet where
  fields : List (String × Json)
  body : Option (List Nat) := none

/-- The sheet with one number more in its body. -/
def Sheet.adding (s : Sheet) (number : Nat) : Sheet := { s with body := s.body.map (· ++ [number]) }

/-- The sheets that there are, and the instructions whose bodies are yet to be written, each with
the number of its sheet, the latest first. -/
structure Desk where
  sheets : List Sheet
  pending : List (Instruction × Nat)

namespace Desk

/-- The first sheet is that of the instruction. -/
def start (i : Instruction) : Desk := ⟨[⟨i.ownFields, none⟩], [(i, 0)]⟩

/-- Gives a sheet a body with nothing in it. -/
def openBody (target : Nat) (desk : Desk) : Desk :=
  { desk with sheets := desk.sheets.modify target ({ · with body := some [] }) }

/-- Adds a new sheet to the body of another, and puts it off. -/
def adopt (target : Nat) (desk : Desk) (child : Instruction) : Desk :=
  ⟨desk.sheets.modify target (·.adding desk.sheets.length) ++ [⟨child.ownFields, none⟩],
    (child, desk.sheets.length) :: desk.pending⟩

/-- Writes the body of an instruction on its sheet, if it is a loop. -/
def handle (target : Nat) (desk : Desk) : Instruction → Desk
  | .leaf .. => desk
  | .loop body _ => body.foldl (adopt target) (desk.openBody target)

/-- How many instructions are going to be taken from the stack. -/
def work (desk : Desk) : Nat := (desk.pending.map fun p => p.1.bulkOne).sum

theorem work_foldl_adopt (target : Nat) (desk : Desk) (l : List Instruction) :
    (l.foldl (adopt target) desk).work = bulk l + desk.work := by
  induction l generalizing desk with
  | nil => rw [bulk, Nat.zero_add, List.foldl_nil]
  | cons child rest ih =>
    have adopted : (desk.adopt target child).work = child.bulkOne + desk.work := rfl
    rw [List.foldl_cons, ih, adopted, bulk]
    omega

theorem work_handle (target : Nat) (desk : Desk) (i : Instruction) :
    (desk.handle target i).work < i.bulkOne + desk.work := by
  cases i with
  | leaf operation span =>
    rw [bulkOne]
    exact Nat.lt_add_of_pos_left Nat.one_pos
  | loop body span =>
    have opened : (desk.openBody target).work = desk.work := rfl
    rw [handle, work_foldl_adopt, opened, bulkOne]
    omega

/-- The sheets, when nothing is pending any more. -/
def run : Desk → List Sheet
  | ⟨sheets, []⟩ => sheets
  | ⟨sheets, (i, target) :: pending⟩ => run (handle target ⟨sheets, pending⟩ i)
termination_by desk => desk.work
decreasing_by exact work_handle target ⟨sheets, pending⟩ i

/-- What the sheet with the number comes to, with bodies read down to a depth. -/
def read (sheets : List Sheet) : Nat → Nat → Json
  | 0, _ => .null
  | depth + 1, number =>
    match sheets[number]? with
    | none => .null
    | some s => .obj (s.fields ++
        (s.body.map fun numbers => ("body", .arr (numbers.map (read sheets depth)))).toList)

/-- The record of an instruction, made from a stack. -/
def recorded (i : Instruction) : Json := read (start i).run (start i).run.length 0

/-! ## What the sheets are meant to tell -/

/-- The body of the sheet lists later sheets, which are meant to be those of the instructions. -/
def Tells (meant : List Instruction) (number : Nat) (l : List Instruction) (s : Sheet) : Prop :=
  ∃ numbers, s.body = some numbers ∧
    List.Forall₂ (fun later i => number < later ∧ meant[later]? = some i) numbers l

/-- The sheet has no body if it is that of a leaf. That of a loop tells the body, or waits. -/
def Owns (meant : List Instruction) (waiting : List (Instruction × Nat)) (number : Nat) :
    Instruction → Sheet → Prop
  | .leaf .., s => s.body = none
  | .loop body span, s => (.loop body span, number) ∈ waiting ∨ Tells meant number body s

/-- Every sheet has the fields of the instruction that it is meant to be the record of, and tells
its body unless it waits. -/
structure Follows (meant : List Instruction) (waiting : List (Instruction × Nat))
    (sheets : List Sheet) : Prop where
  length : sheets.length = meant.length
  waits : ∀ i number, (i, number) ∈ waiting → meant[number]? = some i
  sheet : ∀ number i, meant[number]? = some i →
    ∃ s, sheets[number]? = some s ∧ s.fields = i.ownFields ∧ Owns meant waiting number i s

theorem recordList_eq (l : List Instruction) : recordList l = l.map record := by
  induction l with
  | nil => rfl
  | cons i rest ih => rw [recordList, ih, List.map_cons]

section follows

variable {meant more l told : List Instruction} {waiting : List (Instruction × Nat)}
  {sheets : List Sheet} {target number : Nat} {i child : Instruction} {s : Sheet} {desk : Desk}

theorem getElem?_more (h : meant[number]? = some i) : (meant ++ more)[number]? = some i :=
  (List.getElem?_append_left (List.getElem?_eq_some_iff.mp h).1).trans h

theorem Tells.mono (h : Tells meant number l s) : Tells (meant ++ more) number l s := by
  obtain ⟨numbers, body, tells⟩ := h
  exact ⟨numbers, body, tells.imp fun _ _ hi => ⟨hi.1, getElem?_more hi.2⟩⟩

theorem Owns.mono {waiting' : List (Instruction × Nat)} (h : Owns meant waiting number i s)
    (hw : (i, number) ∈ waiting → (i, number) ∈ waiting') :
    Owns (meant ++ more) waiting' number i s := by
  cases i with
  | leaf operation span => exact h
  | loop body span => exact h.imp hw Tells.mono

theorem follows_start (i : Instruction) :
    Follows [i] (start i).pending (start i).sheets := by
  refine ⟨rfl, fun j number h => ?_, fun number j h => ?_⟩
  · cases List.mem_singleton.mp h
    rfl
  · obtain ⟨hlt, rfl⟩ := List.getElem?_eq_some_iff.mp h
    cases Nat.lt_one_iff.mp hlt
    refine ⟨_, rfl, rfl, ?_⟩
    cases i with
    | leaf operation span => rfl
    | loop body span => exact .inl List.mem_cons_self

/-- While the sheet of the instruction is being written, all others follow, and it tells what has
been added so far. -/
structure Fills (meant : List Instruction) (i : Instruction) (target : Nat)
    (told : List Instruction) (desk : Desk) : Prop where
  follows : Follows meant ((i, target) :: desk.pending) desk.sheets
  told : ∃ s, desk.sheets[target]? = some s ∧ Tells meant target told s

theorem getElem?_adopt (h : desk.sheets[number]? = some s) (child : Instruction) :
    (desk.adopt target child).sheets[number]? =
      some (if target = number then s.adding desk.sheets.length else s) := by
  have hlt := (List.getElem?_eq_some_iff.mp h).1
  rw [adopt, List.getElem?_append_left (by rwa [List.length_modify]), List.getElem?_modify, h]
  rfl

theorem getElem?_adopt_new (desk : Desk) (target : Nat) (child : Instruction) :
    (desk.adopt target child).sheets[desk.sheets.length]? = some ⟨child.ownFields, none⟩ := by
  have length := List.length_modify (·.adding desk.sheets.length) desk.sheets target
  rw [adopt, List.getElem?_append_right (Nat.le_of_eq length), length, Nat.sub_self,
    List.getElem?_cons_zero]

theorem getElem?_concat_cases (h : (meant ++ [child])[number]? = some i) :
    meant[number]? = some i ∨ number = meant.length ∧ child = i := by
  rw [List.getElem?_append] at h
  split at h
  · exact .inl h
  · obtain ⟨hzero, rfl⟩ := List.getElem?_eq_some_iff.mp h
    simp only [List.length_singleton] at hzero
    exact .inr ⟨by omega, by simp⟩

/-- A new sheet waits, and the one that it is added to goes on waiting. -/
theorem Follows.adopt {body : List Instruction} {span : Span}
    (h : Follows meant ((.loop body span, target) :: desk.pending) desk.sheets)
    (child : Instruction) :
    Follows (meant ++ [child]) ((.loop body span, target) :: (desk.adopt target child).pending)
      (desk.adopt target child).sheets := by
  have htarget := h.waits _ target List.mem_cons_self
  have known : (meant ++ [child])[desk.sheets.length]? = some child := by
    rw [h.length, List.getElem?_concat_length]
  refine ⟨by simp [Desk.adopt, h.length], fun i number hw => ?_, fun number i hi => ?_⟩
  · rcases List.mem_cons.mp hw with heq | hw
    · cases heq
      exact getElem?_more htarget
    · rcases List.mem_cons.mp hw with heq | hw
      · cases heq
        exact known
      · exact getElem?_more (h.waits i number (List.mem_cons_of_mem _ hw))
  · rcases getElem?_concat_cases hi with hi | ⟨rfl, rfl⟩
    · obtain ⟨s, hs, fields, owns⟩ := h.sheet number i hi
      refine ⟨_, getElem?_adopt hs child, ?_⟩
      by_cases heq : target = number
      · subst heq
        cases htarget.symm.trans hi
        rw [if_pos rfl]
        exact ⟨fields, .inl List.mem_cons_self⟩
      · rw [if_neg heq]
        refine ⟨fields, owns.mono fun hw => ?_⟩
        rcases List.mem_cons.mp hw with hw | hw
        · cases hw
          exact absurd rfl heq
        · exact List.mem_cons_of_mem _ (List.mem_cons_of_mem _ hw)
    · rw [← h.length]
      refine ⟨_, getElem?_adopt_new desk target child, rfl, ?_⟩
      cases child with
      | leaf operation span => rfl
      | loop body span => exact .inl (List.mem_cons_of_mem _ List.mem_cons_self)

/-- What is added to a body stands behind all that has been added before. -/
theorem Fills.adopt {body : List Instruction} {span : Span}
    (h : Fills meant (.loop body span) target told desk) (child : Instruction) :
    Fills (meant ++ [child]) (.loop body span) target (told ++ [child])
      (desk.adopt target child) := by
  obtain ⟨s, hs, numbers, hbody, tells⟩ := h.told
  refine ⟨h.follows.adopt child, _, getElem?_adopt hs child, numbers ++ [desk.sheets.length],
    ?_, ?_⟩
  · rw [if_pos rfl, Sheet.adding, hbody, Option.map_some]
  · refine List.rel_append (tells.imp fun _ _ hi => ⟨hi.1, getElem?_more hi.2⟩)
      (.cons ⟨?_, ?_⟩ .nil)
    · exact (List.getElem?_eq_some_iff.mp hs).1
    · rw [h.follows.length, List.getElem?_concat_length]

theorem Fills.foldl_adopt {body : List Instruction} {span : Span}
    (h : Fills meant (.loop body span) target told desk) (l : List Instruction) :
    Fills (meant ++ l) (.loop body span) target (told ++ l) (l.foldl (Desk.adopt target) desk) := by
  induction l generalizing meant told desk with
  | nil => rwa [List.append_nil, List.append_nil]
  | cons child rest ih =>
    have later := ih (h.adopt child)
    rwa [List.append_assoc, List.append_assoc] at later

/-- An instruction from the stack whose sheet tells its body waits no longer. -/
theorem Follows.settle (h : Follows meant ((i, target) :: waiting) sheets)
    (told : ∀ body span, i = .loop body span →
      ∃ s, sheets[target]? = some s ∧ Tells meant target body s) :
    Follows meant waiting sheets := by
  refine ⟨h.length, fun i number hw => h.waits i number (List.mem_cons_of_mem _ hw), ?_⟩
  intro number j hj
  obtain ⟨s, hs, fields, owns⟩ := h.sheet number j hj
  refine ⟨s, hs, fields, ?_⟩
  cases j with
  | leaf operation span => exact owns
  | loop body span =>
    rcases owns with hw | tells
    · rcases List.mem_cons.mp hw with hw | hw
      · cases hw
        obtain ⟨s', hs', tells⟩ := told body span rfl
        cases hs.symm.trans hs'
        exact .inr tells
      · exact .inl hw
    · exact .inr tells

theorem Follows.openBody {body : List Instruction} {span : Span}
    (h : Follows meant ((.loop body span, target) :: desk.pending) desk.sheets) :
    Fills meant (.loop body span) target [] (desk.openBody target) := by
  have htarget := h.waits _ target List.mem_cons_self
  have opened : ∀ number s, desk.sheets[number]? = some s →
      (desk.openBody target).sheets[number]? =
        some (if target = number then { s with body := some [] } else s) := by
    intro number s hs
    rw [Desk.openBody, List.getElem?_modify, hs]
    rfl
  refine ⟨⟨by simp [Desk.openBody, h.length], h.waits, fun number i hi => ?_⟩, ?_⟩
  · obtain ⟨s, hs, fields, owns⟩ := h.sheet number i hi
    refine ⟨_, opened number s hs, ?_⟩
    by_cases heq : target = number
    · subst heq
      cases htarget.symm.trans hi
      rw [if_pos rfl]
      exact ⟨fields, .inl List.mem_cons_self⟩
    · rw [if_neg heq]
      exact ⟨fields, owns⟩
  · obtain ⟨s, hs, -⟩ := h.sheet target _ htarget
    refine ⟨_, opened target s hs, [], ?_, .nil⟩
    rw [if_pos rfl]

/-- Taking an instruction from the stack leaves every sheet complete or waiting. -/
theorem Follows.handle (h : Follows meant ((i, target) :: desk.pending) desk.sheets) :
    ∃ more,
      Follows (meant ++ more) (desk.handle target i).pending (desk.handle target i).sheets := by
  cases i with
  | leaf operation span =>
    refine ⟨[], ?_⟩
    rw [List.append_nil]
    exact h.settle nofun
  | loop body span =>
    have fills := h.openBody.foldl_adopt body
    refine ⟨body, fills.follows.settle fun _ _ heq => ?_⟩
    cases heq
    exact fills.told

theorem Follows.run (h : Follows meant desk.pending desk.sheets) :
    ∃ more, Follows (meant ++ more) [] desk.run := by
  induction desk using Desk.run.induct generalizing meant with
  | case1 sheets =>
    rw [Desk.run]
    exact ⟨[], by rwa [List.append_nil]⟩
  | case2 sheets i target pending ih =>
    have taken : Follows meant ((i, target) :: (Desk.mk sheets pending).pending)
        (Desk.mk sheets pending).sheets := h
    obtain ⟨more, later⟩ := taken.handle
    obtain ⟨more', last⟩ := ih later
    rw [Desk.run]
    exact ⟨more ++ more', by rwa [← List.append_assoc]⟩

end follows

/-- When nothing waits, each sheet comes to the record that it is meant to be. -/
theorem Follows.read_eq {meant : List Instruction} {sheets : List Sheet}
    (h : Follows meant [] sheets) {depth number : Nat} {i : Instruction}
    (hi : meant[number]? = some i) (hd : sheets.length ≤ number + depth) :
    read sheets depth number = i.record := by
  induction depth generalizing number i with
  | zero =>
    have := (List.getElem?_eq_some_iff.mp hi).1
    rw [h.length] at hd
    omega
  | succ depth ih =>
    obtain ⟨s, hs, fields, owns⟩ := h.sheet number i hi
    rw [read, hs]
    dsimp only
    cases i with
    | leaf operation span =>
      have none : s.body = none := owns
      rw [fields, none, record, ownFields]
      exact congrArg Json.obj (List.append_nil _)
    | loop body span =>
      obtain ⟨numbers, hbody, tells⟩ := owns.resolve_left List.not_mem_nil
      have items : numbers.map (read sheets depth) = recordList body := by
        rw [recordList_eq, ← List.forall₂_eq_eq_eq, List.forall₂_map_left_iff,
          List.forall₂_map_right_iff]
        exact tells.imp fun later j hj => ih hj.2 (by omega)
      rw [fields, hbody, Option.map_some, items, record]
      rfl

theorem recorded_eq_record (i : Instruction) : recorded i = i.record := by
  obtain ⟨more, h⟩ := (follows_start i).run
  exact h.read_eq rfl (Nat.le_add_left _ _)

end Desk

/-- **Records are lossless.** The record of an instruction has its name and its span, and then its
count, its alias or the records of its body in their order. It is what is made from a stack, and the
instruction can be read from it, so that no other instruction has the same record. -/
theorem records_lossless (i : Instruction) :
    Desk.recorded i = i.record ∧
    i.record = .obj (
      [("op", .str i.rule), ("span", .arr [.int i.span.offset, .int i.span.length])] ++
      match i with
      | leaf (.counted _ count) _ => [("count", .int count)]
      | leaf (.goto name) _ => [("name", .str name)]
      | leaf .. => []
      | loop body _ => [("body", .arr (body.map record))]) ∧
    ofRecord? i.record = some i ∧ ∀ j : Instruction, i.record = j.record ↔ i = j := by
  refine ⟨Desk.recorded_eq_record i, ?_, ofRecord?_record i,
    fun j => ⟨fun h => ?_, congrArg record⟩⟩
  · rcases i with ⟨⟨kind, count⟩ | _ | _ | name | _, span⟩ | ⟨body, span⟩
    case loop => rw [record, Desk.recordList_eq]; rfl
    all_goals rfl
  · have same := congrArg ofRecord? h
    rw [ofRecord?_record, ofRecord?_record] at same
    exact Option.some.inj same

end Instruction

end NamedTape
