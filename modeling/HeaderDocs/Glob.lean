import HeaderDocs.Text.Find

/-!
Patterns of file names. A star stands for any text, a question mark for any character and brackets
for one of the characters they list; everything else stands for itself, an opening bracket that is
never closed included.
-/

namespace HeaderDocs

structure BracketSet where
  inverted : Bool
  singles : List Char
  ranges : List (Char × Char)
deriving DecidableEq, Repr

def BracketSet.has (set : BracketSet) (c : Char) : Bool :=
  (set.singles.contains c ||
    set.ranges.any fun range => range.1.toNat ≤ c.toNat && c.toNat ≤ range.2.toNat) != set.inverted

inductive GlobPart where
  | star
  | any
  | literal (c : Char)
  | bracket (set : BracketSet)
deriving DecidableEq, Repr

namespace GlobPart

/-- The parts between the dashes that make ranges. A dash makes a range when a character stands
before it and at least two characters separate it from the dash before; the count says how many
characters are still too close. -/
def rangeParts : (count : Nat) → (part : List Char) → List Char → List (List Char)
  | _, part, [] => [part]
  | 0, part, c :: rest =>
      if c = '-' then part :: rangeParts 2 [] rest else rangeParts 0 (part ++ [c]) rest
  | count + 1, part, c :: rest => rangeParts count (part ++ [c]) rest

/-- A dash with nothing after it stands for itself. -/
def keepLastDash : List (List Char) → List (List Char)
  | [part, []] => [part ++ ['-']]
  | part :: parts => part :: keepLastDash parts
  | [] => []

def dropBackwards : List (List Char) → List (List Char)
  | [] => []
  | part :: parts =>
      match dropBackwards parts with
      | [] => [part]
      | next :: others =>
          match part.getLast?, next.head? with
          | some last, some first =>
              if first.toNat < last.toNat then (part.dropLast ++ next.tail) :: others
              else part :: next :: others
          | _, _ => part :: next :: others

def rangesOf : List (List Char) → List (Char × Char)
  | part :: next :: others =>
      match part.getLast?, next.head? with
      | some first, some last => (first, last) :: rangesOf (next :: others)
      | _, _ => rangesOf (next :: others)
  | _ => []

/-- What a pair of brackets stands for, given what is between them: a leading `!` inverts the
list. -/
def ofBracket (content : List Char) : BracketSet :=
  let parts :=
    dropBackwards (keepLastDash (rangeParts (if content.head? = some '!' then 2 else 1) [] content))
  match parts with
  | ('!' :: part) :: others => ⟨true, (part :: others).flatten, rangesOf (part :: others)⟩
  | parts => ⟨false, parts.flatten, rangesOf parts⟩

/-- The text between brackets, after the opening one, and what follows the closing one. A bracket
that comes first, also after a `!`, does not close. -/
def bracket? (text : List Char) : Option (List Char × List Char) :=
  let mark := if text.head? = some '!' then ['!'] else []
  let rest := text.drop mark.length
  let first := if rest.head? = some ']' then [']'] else []
  let rest := rest.drop first.length
  match rest.dropWhile (· != ']') with
  | ']' :: tail => some (mark ++ first ++ rest.takeWhile (· != ']'), tail)
  | _ => none

theorem length_of_bracket? {text content rest : List Char}
    (found : bracket? text = some (content, rest)) : rest.length < text.length + 1 := by
  unfold bracket? at found
  simp only at found
  generalize marked : text.drop _ = unmarked at found
  generalize opened : unmarked.drop _ = inner at found
  have first : unmarked.length ≤ text.length := by simp [← marked]
  have second : inner.length ≤ unmarked.length := by simp [← opened]
  have third : (inner.dropWhile (· != ']')).length ≤ inner.length :=
    (List.dropWhile_suffix _).length_le
  split at found
  · rename_i tail closed
    simp only [Option.some.injEq, Prod.mk.injEq] at found
    obtain ⟨-, rfl⟩ := found
    simp only [closed, List.length_cons] at third
    omega
  · simp at found

def parse (text : List Char) : List GlobPart :=
  match text with
  | [] => []
  | c :: rest =>
      if c = '*' then star :: parse rest
      else if c = '?' then any :: parse rest
      else if c = '[' then
        match _found : bracket? rest with
        | some (content, tail) => bracket (ofBracket content) :: parse tail
        | none => literal '[' :: parse rest
      else literal c :: parse rest
termination_by text.length
decreasing_by
  all_goals simp only [List.length_cons]
  all_goals first
    | omega
    | exact length_of_bracket? _found

def takes (c : Char) : GlobPart → Bool
  | star => false
  | any => true
  | literal d => c == d
  | bracket set => set.has c

def acceptsAll : List GlobPart → List Char → Bool
  | [], text => text.isEmpty
  | star :: parts, [] => acceptsAll parts []
  | star :: parts, c :: rest => acceptsAll parts (c :: rest) || acceptsAll (star :: parts) rest
  | _ :: _, [] => false
  | part :: parts, c :: rest => takes c part && acceptsAll parts rest
termination_by parts text => parts.length + text.length

end GlobPart

def globAccepts (pattern name : String) : Bool :=
  GlobPart.acceptsAll (GlobPart.parse pattern.toList) name.toList

end HeaderDocs
