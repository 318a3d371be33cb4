import NamedTape.Text.IntegerLiteral
import NamedTape.Text.Quoted

/-!
# Words of a command line

How the words of a command line divide into options, their values, and plain words.

* An option may be shortened as long as one name is meant. A value may be joined to an option by an
  equals sign. What is joined to a flag with one dash can only be flags of one letter, with or
  without that sign.
* Two dashes joined to an option are no value: the option is then given without one.
* A word that begins with a dash and is no option is plain if it is a lone dash, a negative number
  or has a blank in it; any other one is an option that is not known.
* After two dashes alone, every word is plain.
-/

namespace NamedTape.CommandLine

/-- An option: the names it goes by, and what it means. -/
structure Switch (κ : Type) where
  names : List String
  meaning : κ
  takesValue : Bool := false

/-- Why a command line is turned down. -/
inductive UsageError
  | ambiguous (word : String) (names : List String)
  | ignoredValue (title : String) (value : List Char)
  | missingValue (title : String)
  | notAChoice (title value : String) (choices : List String)
  | notANumber (title value : String)
  | notPositive (title : String) (n : Int)
  | missing (what : String)
  | unrecognized (words : List String)
deriving DecidableEq, Repr

/-- A complaint about the argument of the given title. -/
def complaint (title text : String) : String := "argument " ++ title ++ ": " ++ text

/-- The text that explains a usage error. -/
def UsageError.message : UsageError → String
  | ambiguous word names =>
    "ambiguous option: " ++ word ++ " could match " ++ ", ".intercalate names
  | ignoredValue title value => complaint title ("ignored explicit argument " ++ quoted value)
  | missingValue title => complaint title "expected one argument"
  | notAChoice title value choices =>
    complaint title ("invalid choice: " ++ quoted value.toList ++ " (choose from " ++
      ", ".intercalate (choices.map (quoted ·.toList)) ++ ")")
  | notANumber title value =>
    complaint title ("invalid _positive_int value: " ++ quoted value.toList)
  | notPositive title n => complaint title s!"must be a positive integer, got {n}"
  | missing what => "the following arguments are required: " ++ what
  | unrecognized words => "unrecognized arguments: " ++ " ".intercalate words

/-- A word of a command line; text may be joined to an option. -/
inductive Word (κ : Type)
  | plain (text : String)
  /-- The two dashes after which every word is plain. -/
  | separator
  | option (switch : Switch κ) (name : String) (joined : Option (List Char))
  | unknown (text : String)

variable {κ : Type}

/-- The names of an option as messages give them. -/
def Switch.title (switch : Switch κ) : String := "/".intercalate switch.names

/-- The option of exactly the given name. -/
def named? (switches : List (Switch κ)) (name : List Char) : Option (Switch κ) :=
  switches.find? (·.names.contains (String.ofList name))

/-- The text before and after the first equals sign. -/
def splitEquals? : List Char → Option (List Char × List Char)
  | [] => none
  | '=' :: rest => some ([], rest)
  | c :: rest => (splitEquals? rest).map fun (before, after) => (c :: before, after)

/-- The options that a shortened word can mean. A word with two dashes is cut at its equals sign; a
word with one dash may also be a flag of one letter with text joined to it. -/
def candidates (switches : List (Switch κ)) (word : List Char) :
    List (String × Switch κ × Option (List Char)) :=
  let named := switches.flatMap fun switch => switch.names.map fun name => (name, switch)
  match word with
  | '-' :: '-' :: _ =>
    let (short, joined) : List Char × Option (List Char) := match splitEquals? word with
      | some (short, text) => (short, some text)
      | none => (word, none)
    named.filterMap fun (name, switch) =>
      if short.isPrefixOf name.toList then some (name, switch, joined) else none
  | _ =>
    named.filterMap fun (name, switch) =>
      if name.toList = word.take 2 then some (name, switch, some (word.drop 2))
      else if word.isPrefixOf name.toList then some (name, switch, none)
      else none

/-- Whether the text after a dash makes a negative number: digits, or digits around a point with at
least one after it; a newline may follow. -/
def isNumberTail (text : List Char) : Bool :=
  let digits := if text.getLast? = some '\n' then text.dropLast else text
  let isDigit := fun c => (decimalDigit? c).isSome
  match digits.dropWhile isDigit with
  | [] => !digits.isEmpty
  | '.' :: fraction => !fraction.isEmpty && fraction.all isDigit
  | _ => false

/-- The word that a text is before the separator. -/
def classify (switches : List (Switch κ)) (text : String) : Except UsageError (Word κ) :=
  match text.toList with
  | '-' :: c :: rest =>
    let word := '-' :: c :: rest
    match named? switches word with
    | some switch => .ok (.option switch text none)
    | none =>
      match (splitEquals? word).bind fun (name, value) =>
          (named? switches name).map fun switch => (name, value, switch) with
      | some (name, value, switch) =>
        .ok (.option switch (String.ofList name) (some value))
      | none =>
        match candidates switches word with
        | [(name, switch, joined)] => .ok (.option switch name joined)
        | [] =>
          if isNumberTail (c :: rest) || text.contains ' ' then .ok (.plain text)
          else .ok (.unknown text)
        | several => .error (.ambiguous text (several.map (·.1)))
  | _ => .ok (.plain text)

/-- The words that the texts are. -/
def classifyAll (switches : List (Switch κ)) : List String → Except UsageError (List (Word κ))
  | [] => .ok []
  | text :: rest =>
    if text = "--" then .ok (.separator :: rest.map .plain)
    else do return (← classify switches text) :: (← classifyAll switches rest)

/-- What a command line asks for, piece by piece. -/
inductive Item (κ : Type)
  | plain (text : String)
  | separator
  /-- An option, with its value if it has one. -/
  | option (switch : Switch κ) (value : Option String)
  | unknown (text : String)
  | bad (error : UsageError)

/-- The value that joined text gives to an option. -/
def joinedValue? (text : List Char) : Option String :=
  if text = ['-', '-'] then none else some (String.ofList text)

/-- The options in a word: the one that it names, and the flags of one letter in the text that is
joined to it. The last option may have to look for its value in the next word. -/
def unjoin (switches : List (Switch κ)) (switch : Switch κ) (long : Bool) :
    List Char → List (Item κ) × Option (Switch κ)
  | [] =>
    if switch.takesValue then ([.option switch (some "")], none)
    else ([.bad (.ignoredValue switch.title [])], none)
  | c :: rest =>
    if switch.takesValue then ([.option switch (joinedValue? (c :: rest))], none)
    else
      match if long then none else named? switches ['-', c] with
      | none => ([.bad (.ignoredValue switch.title (c :: rest))], none)
      | some next =>
        let (items, last) := match rest with
          | [] => ([], some next)
          | d :: text => unjoin switches next false (d :: text)
        (.option switch none :: items, last)

/-- The pieces of a word that has been recognized. -/
def Word.items (switches : List (Switch κ)) : Word κ → List (Item κ) × Option (Switch κ)
  | plain text => ([.plain text], none)
  | separator => ([.separator], none)
  | unknown text => ([.unknown text], none)
  | option switch _ none => ([], some switch)
  | option switch name (some text) =>
    let (items, last) := unjoin switches switch (name.startsWith "--") text
    -- A word that is at fault asks for nothing.
    match items.filter fun | .bad _ => true | _ => false with
    | [] => (items, last)
    | bad => (bad, none)

/-- The pieces of a command line: an option that takes a value finds it in the plain word that
follows. -/
def itemsOf (switches : List (Switch κ)) : List (Word κ) → List (Item κ)
  | [] => []
  | word :: rest =>
    match word.items switches with
    | (items, none) => items ++ itemsOf switches rest
    | (items, some switch) =>
      if switch.takesValue then
        match rest with
        | .plain value :: rest => items ++ .option switch (some value) :: itemsOf switches rest
        | _ => [.bad (.missingValue switch.title)]
      else items ++ .option switch none :: itemsOf switches rest

end NamedTape.CommandLine
