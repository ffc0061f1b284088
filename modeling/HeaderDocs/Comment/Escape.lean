import HeaderDocs.Text.Find

/-!
Text made safe for Markdown: brackets escaped with a backslash, unless one stands before them, and
the word `NULL` set as code, unless a backtick stands beside it.
-/

namespace HeaderDocs.Comment

open Text

def isBracket (c : Char) : Bool :=
  c == '[' || c == ']' || c == '<' || c == '>'

/-- Brackets escaped, given whether a backslash stands before the text. -/
def escapeBrackets (afterBackslash : Bool) : List Char → List Char
  | [] => []
  | c :: rest =>
      if isBracket c && !afterBackslash then '\\' :: c :: escapeBrackets false rest
      else c :: escapeBrackets (c == '\\') rest

def codeNulls (afterTick : Bool) : List Char → List Char
  | 'N' :: 'U' :: 'L' :: 'L' :: rest =>
      if !afterTick && rest.head? != some '\x60' then
        '\x60' :: 'N' :: 'U' :: 'L' :: 'L' :: '\x60' :: codeNulls false rest
      else 'N' :: 'U' :: 'L' :: 'L' :: codeNulls false rest
  | c :: rest => c :: codeNulls (c == '\x60') rest
  | [] => []

def escapeText (line : List Char) : List Char :=
  codeNulls false (escapeBrackets false line)

def escape (line : String) : String :=
  String.ofList (escapeText line.toList)

end HeaderDocs.Comment
