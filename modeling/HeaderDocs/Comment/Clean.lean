import HeaderDocs.Text.Blank
import HeaderDocs.Text.Find
import HeaderDocs.Text.Lines
import HeaderDocs.Text.Margin

/-!
The text of a comment without its decoration. A comment of slashes loses the slashes that start its
lines; a block comment loses its opener, its closer, the stars that start its lines and the margin
the lines share.
-/

namespace HeaderDocs.Comment

open Text

/-- The text without one blank at its head, and whether that blank was a line feed. -/
def dropBlank : List Char → List Char × Bool
  | c :: rest => if isBlank c then (rest, c == '\n') else (c :: rest, false)
  | [] => ([], false)

theorem length_drop_blank (text : List Char) : (dropBlank text).1.length ≤ text.length := by
  cases text with
  | nil => simp [dropBlank]
  | cons c rest => cases h : isBlank c <;> simp [dropBlank, h]

/-- What follows the slashes of a line comment at the head of a line, and whether a line feed was
taken along: two slashes after any blanks, then at most one more slash, one `<` and one blank. -/
def afterSlashes? (line : List Char) : Option (List Char × Bool) :=
  (dropStart? ['/', '/'] (trimLeft line)).map fun rest =>
    dropBlank (dropOptional ['<'] (dropOptional ['/'] rest))

theorem length_of_after_slashes {line rest : List Char} {fed : Bool}
    (found : afterSlashes? line = some (rest, fed)) : rest.length < line.length := by
  obtain ⟨tail, slashes, equal⟩ := Option.map_eq_some_iff.1 found
  have shorter : (trimLeft line).length ≤ line.length := (List.dropWhile_suffix _).length_le
  rw [← append_of_drop_start slashes, List.length_append] at shorter
  have third := length_drop_optional ['/'] tail
  have mark := length_drop_optional ['<'] (dropOptional ['/'] tail)
  have blank := length_drop_blank (dropOptional ['<'] (dropOptional ['/'] tail))
  rw [equal] at blank
  simp only [List.length_cons, List.length_nil] at shorter blank
  omega

/-- The text without the slashes of line comments. The flag tells whether the text is at the start
of a line, which is where slashes are looked for. -/
def dropSlashes (atLineStart : Bool) (text : List Char) : List Char :=
  match text with
  | [] => []
  | c :: rest =>
      if atLineStart then
        match _found : afterSlashes? (c :: rest) with
        | some (tail, fed) => dropSlashes fed tail
        | none => c :: dropSlashes (c == '\n') rest
      else c :: dropSlashes (c == '\n') rest
termination_by text.length
decreasing_by
  · exact length_of_after_slashes _found
  all_goals simp

/-- The openers of block comments, longer ones first. -/
def openers : List (List Char) :=
  ["/**<".toList, "/*!<".toList, "/**".toList, "/*!".toList, "/*".toList]

def dropOpener (text : List Char) : List Char :=
  (openers.findSome? fun opener => dropStart? opener text).getD text

def dropCloser (text : List Char) : List Char :=
  (dropEnd? ['*', '/'] text).getD text

/-- A line without the star that starts it and one space after the star; a line without a star is
left as it is. -/
def dropStar (line : List Char) : List Char :=
  match trimLeft line with
  | '*' :: ' ' :: rest => rest
  | '*' :: rest => rest
  | _ => line

def cleanBlock (text : List Char) : List Char :=
  let body := dropCloser (dropOpener (trim text))
  trim (joinLines (dropMargin ((body.splitOn '\n').map dropStar)))

def cleanSlashes (text : List Char) : List Char :=
  trim (dropSlashes true text)

def cleanText (text : List Char) : List Char :=
  if startsWith ['/', '/'] (trimLeft text) then cleanSlashes text else cleanBlock text

def clean (comment : String) : String :=
  String.ofList (cleanText comment.toList)

end HeaderDocs.Comment
