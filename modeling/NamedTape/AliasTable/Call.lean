import NamedTape.AliasTable

/-!
# Calls on an alias table

The actions on an alias table as data, so that a list of them is a history.
-/

namespace NamedTape.AliasTable

/-- An action on an alias table. -/
inductive Call
  | bind (name : String) (address : Int)
  | resolve (name : String)
  | nameAt (address : Int)
  | assign (name : String)
  | assignAll
  | shift (offset : Int)
  | clear
  | size
  | contains (name : String)
deriving DecidableEq, Repr

/-- What a call gives back. -/
inductive Answer
  | nothing
  | number (n : Int)
  | text (s : String)
  | truth (b : Bool)
deriving DecidableEq, Repr

/-- Carries out a call; names are given cells of the tape. -/
def Call.perform (tape : Tape) : Call → Action AliasTable Answer
  | bind n a => (fun _ => .nothing) <$> AliasTable.bind n a
  | resolve n => fun t => .ok ((t.resolve? n).elim .nothing .number) t
  | nameAt a => fun t => .ok ((t.nameAt? a).elim .nothing .text) t
  | assign n => .number <$> AliasTable.assign tape n
  | assignAll => (fun _ => .nothing) <$> AliasTable.assignAll tape
  | shift k => fun t => .ok .nothing (t.shift k)
  | clear => fun t => .ok .nothing t.clear
  | size => fun t => .ok (.number t.size) t
  | contains n => fun t => .ok (.truth (t.contains n)) t

end NamedTape.AliasTable
