/-!
# JSON documents

Documents with integers as their only numbers, and their indented text.

* One item a line, two blanks a level; an empty array or object stands on one line.
* Only printable ASCII appears: other characters are escaped by their UTF-16 code units.
* The fields of an object keep their order.
-/

namespace NamedTape

/-- A JSON document. -/
inductive Json
  | null
  | int (n : Int)
  | str (text : String)
  | arr (items : List Json)
  | obj (fields : List (String × Json))
deriving Inhabited, BEq

namespace Json

/-- The four hexadecimal digits of a UTF-16 code unit, after their escape. -/
def escapeUnit (unit : Nat) : List Char :=
  let digits := Nat.toDigits 16 unit
  ['\\', 'u'] ++ List.replicate (4 - digits.length) '0' ++ digits

/-- How a character is written in a string: the escapes by letter, printable ASCII as it is, and
every other character by its code units. -/
def escapeChar (c : Char) : List Char :=
  let n := c.toNat
  if c == '"' || c == '\\' then ['\\', c]
  else if n == 0x08 then ['\\', 'b']
  else if n == 0x09 then ['\\', 't']
  else if n == 0x0A then ['\\', 'n']
  else if n == 0x0C then ['\\', 'f']
  else if n == 0x0D then ['\\', 'r']
  else if 0x20 ≤ n && n < 0x7F then [c]
  else if n < 0x10000 then escapeUnit n
  else escapeUnit (0xD800 + (n - 0x10000) / 0x400) ++ escapeUnit (0xDC00 + (n - 0x10000) % 0x400)

/-- A string with its quotes. -/
def escape (text : String) : String :=
  String.ofList ('"' :: text.toList.flatMap escapeChar ++ ['"'])

/-- The start of a line at the given depth. -/
def newline (depth : Nat) : String :=
  String.ofList ('\n' :: List.replicate (2 * depth) ' ')

mutual

/-- The text of a document whose first line is already indented to the depth. -/
def renderAt (depth : Nat) : Json → String
  | null => "null"
  | int n => toString n
  | str text => escape text
  | arr [] => "[]"
  | arr (item :: items) =>
    "[" ++ newline (depth + 1) ++ item.renderAt (depth + 1) ++ renderItems (depth + 1) items ++
      newline depth ++ "]"
  | obj [] => "\x7b\x7d"
  | obj ((key, value) :: fields) =>
    "\x7b" ++ newline (depth + 1) ++ escape key ++ ": " ++ value.renderAt (depth + 1) ++
      renderFields (depth + 1) fields ++ newline depth ++ "\x7d"

/-- The text of the items after the first one. -/
def renderItems (depth : Nat) : List Json → String
  | [] => ""
  | item :: items => "," ++ newline depth ++ item.renderAt depth ++ renderItems depth items

/-- The text of the fields after the first one. -/
def renderFields (depth : Nat) : List (String × Json) → String
  | [] => ""
  | (key, value) :: fields =>
    "," ++ newline depth ++ escape key ++ ": " ++ value.renderAt depth ++ renderFields depth fields

end

/-- The indented text of a document. -/
def render (document : Json) : String := document.renderAt 0

end Json

end NamedTape
