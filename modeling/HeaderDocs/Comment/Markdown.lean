import HeaderDocs.Comment.Clean
import HeaderDocs.Comment.Escape
import HeaderDocs.Comment.Mention
import HeaderDocs.Comment.Parameters
import HeaderDocs.Text.Blank
import HeaderDocs.Text.Lines

/-!
The Markdown of a comment. Its lines are trimmed and the blank ones counted; lines that start with
`@param` become items of a list under a heading, the others stay prose, and what stands between two
lines depends on the second line and the blank lines before it.
-/

namespace HeaderDocs.Comment

open Text

/-- A line that is not blank: its text, whether it describes an argument, and the number of blank
lines before it. -/
structure Entry where
  isArgument : Bool
  gap : Nat
  text : List Char
deriving DecidableEq, Repr

def argumentMarker : List Char :=
  "@param".toList

def Entry.ofLine (gap : Nat) (line : List Char) : Entry :=
  match dropStart? argumentMarker line with
  | some text => ⟨true, gap, text⟩
  | none => ⟨false, gap, line⟩

def entriesAfter (gap : Nat) : List (List Char) → List Entry
  | [] => []
  | line :: lines =>
      if (trim line).isEmpty then entriesAfter (gap + 1) lines
      else Entry.ofLine gap (trim line) :: entriesAfter 0 lines

def entries (text : List Char) : List Entry :=
  entriesAfter 0 (splitLines text)

/-- What stands before an entry that is not the first: two blank lines before prose separate
paragraphs. -/
def Entry.separator (entry : Entry) : List Char :=
  if entry.isArgument then ['\n']
  else if 2 ≤ entry.gap then ['\n', '\n']
  else "<br>".toList

def argumentsHeading : List Char :=
  "# Arguments\n".toList

/-- What an argument starts with; the first one brings the heading. -/
def Entry.bullet (entry : Entry) (listed : Bool) : List Char :=
  if entry.isArgument then (if listed then [] else argumentsHeading) ++ ['*', ' '] else []

def lineMarkdown (lookup : Lookup) (line : List Char) : List Char :=
  markParameters (linkMentions lookup (escapeText line))

/-- The Markdown of entries, given whether others stand before them and whether an argument is among
those. -/
def layout (lookup : Lookup) : (started listed : Bool) → List Entry → List Char
  | _, _, [] => []
  | started, listed, entry :: rest =>
      (if started then entry.separator else []) ++ entry.bullet listed ++
        lineMarkdown lookup entry.text ++
        layout lookup true (listed || entry.isArgument) rest

def textMarkdown (lookup : Lookup) (text : List Char) : List Char :=
  layout lookup false false (entries text)

def transform (table : Symbol.Table) (text : String) : String :=
  String.ofList (textMarkdown (Lookup.ofTable table) text.toList)

def document (table : Symbol.Table) (comment : String) : String :=
  transform table (clean comment)

end HeaderDocs.Comment
