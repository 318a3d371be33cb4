import NamedTape.Tape

/-!
# Alias tables

The aliases that a program knows, and the addresses of those that have one.

* The bindings are kept in the order in which they were made; no name and no address occurs twice.
* A name without an address is given the highest cell that holds zero and belongs to no other name.
* An action that fails leaves the table as it was, but for the names bound before the failure when
  all names are to be bound.
-/

namespace NamedTape

/-- Known names in order, and the addresses of the bound ones in the order of binding. -/
structure AliasTable where
  names : List String := []
  bindings : List (String × Int) := []
deriving DecidableEq, Repr

namespace AliasTable

/-- The names without repetition, each where it comes first. -/
def distinct (names : List String) : List String :=
  names.foldl (fun seen name => if seen.contains name then seen else seen ++ [name]) []

/-- A table that knows the names and binds none. -/
def ofNames (names : List String) : AliasTable := { names := distinct names }

/-- The number of bound names. -/
def size (t : AliasTable) : Nat := t.bindings.length

/-- The address of a name. -/
def resolve? (t : AliasTable) (name : String) : Option Int :=
  (t.bindings.find? (·.1 == name)).map (·.2)

/-- The name that an address belongs to. -/
def nameAt? (t : AliasTable) (address : Int) : Option String :=
  (t.bindings.find? (·.2 == address)).map (·.1)

/-- Whether the name is bound. -/
def contains (t : AliasTable) (name : String) : Bool := (t.resolve? name).isSome

/-- The table with a new binding at the end. -/
def insert (t : AliasTable) (name : String) (address : Int) : AliasTable :=
  { names := if t.names.contains name then t.names else t.names ++ [name]
    bindings := t.bindings ++ [(name, address)] }

/-- Binds a name to an address that no other name has; a name keeps the address it has. -/
def bind (name : String) (address : Int) : Action AliasTable Unit := fun t =>
  match t.nameAt? address with
  | some owner =>
    if owner = name then .ok () t else .error (.of (.addressTaken address owner)) t
  | none =>
    match t.resolve? name with
    | some previous => .error (.of (.aliasBound name previous)) t
    | none => .ok () (t.insert name address)

/-- The highest address below `limit` whose cell holds zero and which no name has. -/
def freeBelow? (t : AliasTable) (tape : Tape) : (limit : Nat) → Option Nat
  | 0 => none
  | address + 1 =>
    if tape.cellAt address == 0 && (t.nameAt? address).isNone then some address
    else t.freeBelow? tape address

/-- The address of a name, which is bound to the highest free cell if it has none yet. -/
def assign (tape : Tape) (name : String) : Action AliasTable Int := fun t =>
  match t.resolve? name with
  | some address => .ok address t
  | none =>
    match t.freeBelow? tape tape.size with
    | some address => .ok address (t.insert name address)
    | none => .error (.of (.noFreeCell name)) t

/-- Gives an address to each of the names in turn. -/
def assignEach (tape : Tape) : List String → Action AliasTable Unit
  | [] => pure ()
  | name :: rest => do
    discard (assign tape name)
    assignEach tape rest

/-- Gives an address to every known name. -/
def assignAll (tape : Tape) : Action AliasTable Unit := fun t => assignEach tape t.names t

/-- Moves all addresses by the offset. -/
def shift (offset : Int) (t : AliasTable) : AliasTable :=
  { t with bindings := t.bindings.map fun (name, address) => (name, address + offset) }

/-- Forgets all addresses. -/
def clear (t : AliasTable) : AliasTable := { t with bindings := [] }

end AliasTable

end NamedTape
