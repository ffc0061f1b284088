import HeaderDocs.Text.Find
import HeaderDocs.Text.Word

/-!
Spellings of declarations without a name of their own, such as `(unnamed at f.h:1:1)` or `enum
(anonymous at f.h:1:1)`: a bracket, the word for a missing name, and a place before the bracket
closes.
-/

namespace HeaderDocs.Symbol

open Text

/-- What follows the word for a missing name at the head of a text, when the word ends there. -/
def afterMissingName? : List Char → Option (List Char)
  | '(' :: rest =>
      match (dropStart? "unnamed".toList rest).or (dropStart? "anonymous".toList rest) with
      | some (c :: tail) => if isWord c then none else some (c :: tail)
      | _ => none
  | _ => none

def startsAnonymous (text : List Char) : Bool :=
  match afterMissingName? text with
  | some tail => contains " at ".toList (tail.takeWhile (· != ')'))
  | none => false

def hasAnonymous : List Char → Bool
  | [] => false
  | c :: rest => startsAnonymous (c :: rest) || hasAnonymous rest

def isAnonymous (name : String) : Bool :=
  hasAnonymous name.toList

end HeaderDocs.Symbol
