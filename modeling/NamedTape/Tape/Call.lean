import NamedTape.Tape

/-!
# Calls on a tape

The actions on a tape as data, so that a list of them is a history.
-/

namespace NamedTape.Tape

/-- An action on a tape. -/
inductive Call
  | size
  | value
  | setValue (value : Int)
  | valueAt (address : Int)
  | setValueAt (address value : Int)
  | moveTo (address : Int)
  | add (count : Int)
  | subtract (count : Int)
  | moveLeft (count : Int)
  | moveRight (count : Int)
  | clear
  | realign
  | snapshot
deriving DecidableEq, Repr

/-- What a call gives back. -/
inductive Answer
  | nothing
  | number (n : Nat)
  | text (s : String)
deriving DecidableEq, Repr

/-- Carries out a call. -/
def Call.perform : Call → Action Tape Answer
  | size => fun t => .ok (.number t.size) t
  | value => .number <$> Tape.value
  | setValue v => (fun _ => .nothing) <$> Tape.setValue v
  | valueAt a => .number <$> Tape.valueAt a
  | setValueAt a v => (fun _ => .nothing) <$> Tape.setValueAt a v
  | moveTo a => (fun _ => .nothing) <$> Tape.moveTo a
  | add n => (fun _ => .nothing) <$> Tape.add n
  | subtract n => (fun _ => .nothing) <$> Tape.subtract n
  | moveLeft n => (fun _ => .nothing) <$> Tape.moveLeft n
  | moveRight n => (fun _ => .nothing) <$> Tape.moveRight n
  | clear => fun t => .ok .nothing t.clear
  | realign => fun t => .ok .nothing t.realign
  | snapshot => .text <$> Tape.snapshot

end NamedTape.Tape
