import NamedTape.Text.Printable

/-!
# Quotations

Text shown between quotes on one line, so that every character in it can be told apart.

* The quotes are single, unless the text has a single quote and no double one.
* Printable characters stand as they are; the quote in use and the backslash follow a backslash.
* Every other character is escaped: tab, newline and return by letter, the rest by code point.
-/

namespace NamedTape

/-- The lower-case hexadecimal digits of `n`, with zeros in front up to the width. -/
def hexDigits (width n : Nat) : List Char :=
  let digits := Nat.toDigits 16 n
  List.replicate (width - digits.length) '0' ++ digits

/-- The escape of a character that is not printable: the shortest of three widths that holds it. -/
def escapeCodePoint (n : Nat) : List Char :=
  if n < 0x100 then ['\\', 'x'] ++ hexDigits 2 n
  else if n < 0x10000 then ['\\', 'u'] ++ hexDigits 4 n
  else ['\\', 'U'] ++ hexDigits 8 n

/-- How a character is written inside a quotation that uses the given quote. -/
def quoteChar (quote c : Char) : List Char :=
  if c == quote || c == '\\' then ['\\', c]
  else if c == '\t' then ['\\', 't']
  else if c == '\n' then ['\\', 'n']
  else if c == '\r' then ['\\', 'r']
  else if isPrintable c then [c]
  else escapeCodePoint c.toNat

/-- The quote that a quotation of the text uses. -/
def quoteFor (text : List Char) : Char :=
  if text.contains '\'' && !text.contains '"' then '"' else '\''

/-- The text as a quotation. -/
def quoted (text : List Char) : String :=
  let quote := quoteFor text
  String.ofList (quote :: text.flatMap (quoteChar quote) ++ [quote])

end NamedTape
