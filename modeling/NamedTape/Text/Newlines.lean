/-!
# Line ends

Text files end their lines in three ways; what is read from them ends all alike.
-/

namespace NamedTape

/-- Every carriage return, with the newline that follows it if one does, becomes a newline. -/
def unifyNewlines : List Char → List Char
  | [] => []
  | '\r' :: '\n' :: rest => '\n' :: unifyNewlines rest
  | '\r' :: rest => '\n' :: unifyNewlines rest
  | c :: rest => c :: unifyNewlines rest

end NamedTape
