import NamedTape.CommandLine.Outcome

/-!
# Directories

A small file system of its own: named files and folders under one directory, and what it answers
to a path.

* A path is walked name by name. Each name but the last has to lead to a folder, and the first one
  that does not is what the path fails at.
* Two dots lead to the folder above. Above the directory, and where a path begins with a slash,
  there are folders of which nothing else is known.
* A path that ends in a slash can only be that of a folder.
-/

namespace NamedTape.CommandLine

/-- Named files with their bytes, and named folders. Names are paths from the directory. -/
structure Directory where
  files : List (List String × ByteArray) := []
  folders : List (List String) := []

namespace Directory

/-- There is nothing of that name. -/
def absent : FileError := ⟨2, "No such file or directory"⟩

/-- A file stands where a folder should. -/
def noFolder : FileError := ⟨20, "Not a directory"⟩

/-- A folder stands where a file should. -/
def folder : FileError := ⟨21, "Is a directory"⟩

/-- Nothing can have so long a name. -/
def nameTooLong : FileError := ⟨36, "File name too long"⟩

/-- The most bytes of a name. -/
def maxName : Nat := 255

/-- The most bytes of a path. -/
def maxPath : Nat := 4095

/-- The names in a path: doubled slashes have none between them. -/
def names (path : String) : List String := (path.splitOn "/").filter (· ≠ "")

/-- Where a path leads. -/
inductive Place
  /-- A place in the directory: the names on the way there. -/
  | inside (way : List String)
  /-- A folder outside of the directory. -/
  | outside
  /-- A name that is not there, in a folder outside of the directory. -/
  | missingOutside
deriving DecidableEq, Repr

/-- Where the walk along a path begins. -/
def Place.start (path : String) : Place :=
  if path.toList.head? = some '/' then .outside else .inside []

/-- The folder above. -/
def Place.above : Place → Place
  | inside way => if way.isEmpty then .outside else .inside way.dropLast
  | outside | missingOutside => .outside

/-- The place of a name in a folder. -/
def Place.child (name : String) : Place → Place
  | inside way => .inside (way ++ [name])
  | outside | missingOutside => .missingOutside

/-- The bytes of a file. -/
def file? (dir : Directory) : Place → Option ByteArray
  | .inside way => (dir.files.find? (·.1 == way)).map (·.2)
  | .outside | .missingOutside => none

/-- Whether there is a folder at a place: the directory itself, a named one, one that holds
something, or one outside. -/
def isFolder (dir : Directory) : Place → Bool
  | .inside way =>
    way.isEmpty || dir.folders.any (way.isPrefixOf ·) ||
      dir.files.any fun file => way.isPrefixOf file.1 && way != file.1
  | .outside => true
  | .missingOutside => false

/-- Where a name leads from a folder, whether or not there is anything. -/
def step (place : Place) (name : String) : Except FileError Place :=
  if name = "." then .ok place
  else if name = ".." then .ok place.above
  else if maxName < name.utf8ByteSize then .error nameTooLong
  else .ok (place.child name)

/-- The folder that a name leads to from a folder. -/
def enter (dir : Directory) (place : Place) (name : String) : Except FileError Place := do
  let next ← step place name
  if dir.isFolder next then return next
  else throw (if (dir.file? next).isSome then noFolder else absent)

/-- The folder to which all names of a path but the last lead, and the last name; a path without
names has none. -/
def approach (dir : Directory) (path : String) : Except FileError (Place × Option String) := do
  if maxPath < path.utf8ByteSize then throw nameTooLong
  if path = "" then throw absent
  let place ← (names path).dropLast.foldlM dir.enter (.start path)
  return (place, (names path).getLast?)

/-- The bytes of the file at a path. -/
def read (dir : Directory) (path : String) : Except FileError ByteArray := do
  let (place, name) ← dir.approach path
  let goal ← step place (name.getD ".")
  if dir.isFolder goal then throw folder
  match dir.file? goal with
  | none => throw absent
  | some bytes => if path.toList.getLast? = some '/' then throw noFolder else return bytes

/-- The place at which a file is written that has the path. -/
def target (dir : Directory) (path : String) : Except FileError Place := do
  let (place, name) ← dir.approach path
  match name with
  | none | some "." | some ".." => throw folder
  | some name =>
    if path.toList.getLast? = some '/' then throw folder
    let goal ← step place name
    if dir.isFolder goal then throw folder
    return goal

/-- Why no file can be written at a path, if none can. -/
def write (dir : Directory) (path : String) : Option FileError :=
  match dir.target path with
  | .ok _ => none
  | .error e => some e

/-- The directory as the files of an invocation. -/
def toFiles (dir : Directory) : Files := { read := dir.read, write := dir.write }

end Directory

end NamedTape.CommandLine
