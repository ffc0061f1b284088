import HeaderDocs.Symbol.Table
import HeaderDocs.Text.Find

/-!
Mentions of library names in comments. A mention starts with `fz_` in any case and goes on with
letters, underscores and stars as far as they reach. A mention with a star is code; a known name
becomes a link, a plural of a known name a link with an `s` after it, and any other name code.
-/

namespace HeaderDocs.Comment

open Text

abbrev Lookup := List Char → Option (List Char)

def Lookup.ofTable (table : Symbol.Table) : Lookup :=
  fun name => (table.lookup? (String.ofList name)).map String.toList

/-- A character that a mention goes on with: a letter in any case, an underscore or a star. The
letters include the four whose other case is an ASCII letter: dotted and dotless i, long s, and the
kelvin sign. -/
def isMentionChar (c : Char) : Bool :=
  ('a' ≤ c && c ≤ 'z') || ('A' ≤ c && c ≤ 'Z') || c == '_' || c == '*' ||
    c == '\u0130' || c == '\u0131' || c == '\u017F' || c == '\u212A'

def mention? : List Char → Option (List Char × List Char)
  | f :: z :: '_' :: first :: rest =>
      if (f == 'f' || f == 'F') && (z == 'z' || z == 'Z') && isMentionChar first then
        some (f :: z :: '_' :: first :: rest.takeWhile isMentionChar, rest.dropWhile isMentionChar)
      else none
  | _ => none

theorem mention?_append {text name rest : List Char} (found : mention? text = some (name, rest)) :
    text = name ++ rest := by
  unfold mention? at found
  split at found
  · split at found
    · simp only [Option.some.injEq, Prod.mk.injEq] at found
      obtain ⟨rfl, rfl⟩ := found
      simp
    · simp at found
  · simp at found

theorem mention?_length {text name rest : List Char} (found : mention? text = some (name, rest)) :
    rest.length < text.length := by
  have nonempty : name ≠ [] := by
    unfold mention? at found
    split at found
    · split at found
      · simp only [Option.some.injEq, Prod.mk.injEq] at found
        obtain ⟨rfl, -⟩ := found
        simp
      · simp at found
    · simp at found
  have := List.length_pos_iff.2 nonempty
  rw [mention?_append found, List.length_append]
  omega

inductive Piece where
  | plain (c : Char)
  | mention (name : List Char)
deriving DecidableEq, Repr

def Piece.source : Piece → List Char
  | .plain c => [c]
  | .mention name => name

/-- A line taken apart from the left, each mention as long as it can be. -/
def pieces (text : List Char) : List Piece :=
  match text with
  | [] => []
  | c :: rest =>
      match _found : mention? (c :: rest) with
      | some (name, after) => .mention name :: pieces after
      | none => .plain c :: pieces rest
termination_by text.length
decreasing_by
  · exact mention?_length _found
  · simp

/-- Nothing is lost in taking a line apart. -/
theorem pieces_source (text : List Char) : (pieces text).flatMap Piece.source = text := by
  fun_induction pieces text with
  | case1 => rfl
  | case2 c rest name after found ih =>
      simp [Piece.source, ih, ← mention?_append found]
  | case3 c rest found ih => simp [Piece.source, ih]

inductive Shown where
  | code (name : List Char)
  | link (name anchor : List Char)
  | plural (singular anchor : List Char)
deriving DecidableEq, Repr

def singular? (name : List Char) : Option (List Char) :=
  dropEnd? ['s'] name

/-- How a name is shown: a name with a star as code, a known name as a link, a plural of a known
name as a link to it, and any other name as code. -/
def Shown.ofName (lookup : Lookup) (name : List Char) : Shown :=
  if name.contains '*' then .code name
  else
    match lookup name with
    | some anchor => .link name anchor
    | none =>
        match singular? name with
        | none => .code name
        | some singular =>
            match lookup singular with
            | some anchor => .plural singular anchor
            | none => .code name

def inlineCode (name : List Char) : List Char :=
  '\x60' :: (name ++ ['\x60'])

def codeLink (name target : List Char) : List Char :=
  '[' :: (inlineCode name ++ ']' :: '(' :: (target ++ [')']))

def Shown.markdown : Shown → List Char
  | .code name => inlineCode name
  | .link name anchor => codeLink name anchor
  | .plural singular anchor => codeLink singular anchor ++ ['s']

def Piece.markdown (lookup : Lookup) : Piece → List Char
  | .plain c => [c]
  | .mention name => (Shown.ofName lookup name).markdown

def linkMentions (lookup : Lookup) (line : List Char) : List Char :=
  (pieces line).flatMap (Piece.markdown lookup)

def resolve (table : Symbol.Table) (name : String) : String :=
  String.ofList (Shown.ofName (Lookup.ofTable table) name.toList).markdown

def link (table : Symbol.Table) (line : String) : String :=
  String.ofList (linkMentions (Lookup.ofTable table) line.toList)

end HeaderDocs.Comment
