import HeaderDocs.Comment.Mention
import HeaderDocs.Text.Blank
import HeaderDocs.Text.Find

/-!
Lines of the form `a, b: text`, which describe parameters. Their names are set as code.
-/

namespace HeaderDocs.Comment

open Text

/-- A name that can be set as code: not empty, and without blanks and backticks. -/
def isBareName (name : List Char) : Bool :=
  !name.isEmpty && !name.any fun c => isBlank c || c == '\x60'

def codeNames (names : List (List Char)) : List Char :=
  List.intercalate [',', ' '] (names.map inlineCode)

def markParameters (line : List Char) : List Char :=
  match cutAtPair ':' ' ' line with
  | none => line
  | some (names, description) =>
      let names := splitAtPairs ',' ' ' names
      if names.all isBareName then codeNames names ++ ':' :: ' ' :: description else line

def markParameterNames (line : String) : String :=
  String.ofList (markParameters line.toList)

end HeaderDocs.Comment
