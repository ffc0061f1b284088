import HeaderDocs.Text.Blank
import HeaderDocs.Text.Digit
import HeaderDocs.Text.Word

/-!
Patterns of names and what it means for a text to match one from its first character to its last.
Matching takes one character off the text and the pattern at a time; what the anchors need to know
of the place reached, whether it is the start of the text and what follows it, goes along.
-/

namespace HeaderDocs

/-- One entry of a set of characters; the flag of a class tells whether its members are the ones
left out. -/
inductive SetItem where
  | range (first last : Char)
  | digit (inverted : Bool)
  | word (inverted : Bool)
  | blank (inverted : Bool)
deriving DecidableEq, Repr

def SetItem.has (c : Char) : SetItem → Bool
  | range first last => first.toNat ≤ c.toNat && c.toNat ≤ last.toNat
  | digit inverted => Text.isDigit c != inverted
  | word inverted => Text.isWord c != inverted
  | blank inverted => Text.isBlank c != inverted

def SetItem.single? : SetItem → Option Char
  | range first last => if first = last then some first else none
  | _ => none

structure CharSet where
  inverted : Bool := false
  items : List SetItem
deriving DecidableEq, Repr

def CharSet.has (set : CharSet) (c : Char) : Bool :=
  set.items.any (SetItem.has c) != set.inverted

def CharSet.single (c : Char) : CharSet :=
  { items := [.range c c] }

def CharSet.dot : CharSet :=
  { inverted := true, items := [.range '\n' '\n'] }

/-- A pattern: nothing matches `never`, the empty text matches `empty`, and the rest is built from
single characters, the two anchors, sequence, choice and repetition. -/
inductive Pattern where
  | never
  | empty
  | one (set : CharSet)
  | start
  | finish
  | sequence (first second : Pattern)
  | either (first second : Pattern)
  | times (body : Pattern) (least : Nat) (most : Option Nat)
deriving DecidableEq, Repr

namespace Pattern

/-- The place before `rest` ends the text, a final line feed apart. -/
def atFinish (rest : List Char) : Bool :=
  rest == [] || rest == ['\n']

/-- The pattern matches no character at all at a place, given whether it starts the text and what
follows. -/
def passes (atStart : Bool) (rest : List Char) : Pattern → Bool
  | never => false
  | empty => true
  | one _ => false
  | start => atStart
  | finish => atFinish rest
  | sequence first second => passes atStart rest first && passes atStart rest second
  | either first second => passes atStart rest first || passes atStart rest second
  | times body least _ => least == 0 || passes atStart rest body

def branches : Pattern → List Pattern
  | never => []
  | either first second => branches first ++ branches second
  | pattern => [pattern]

def followedBy (first second : Pattern) : Pattern :=
  match first with
  | never => never
  | empty => second
  | _ => sequence first second

def orElse (first second : Pattern) : Pattern :=
  match first with
  | never => second
  | either left right => orElse left (orElse right second)
  | first =>
      if second = never then first
      else if first ∈ second.branches then second
      else either first second

/-- What is left of a pattern after its first character `c`, with `rest` after that. -/
def after (atStart : Bool) (c : Char) (rest : List Char) : Pattern → Pattern
  | never | empty | start | finish => never
  | one set => if set.has c then empty else never
  | sequence first second =>
      orElse ((after atStart c rest first).followedBy second)
        (if passes atStart (c :: rest) first then after atStart c rest second else never)
  | either first second => orElse (after atStart c rest first) (after atStart c rest second)
  | times body least most =>
      if most = some 0 then never
      else
        (after atStart c rest body).followedBy
          (times body (if passes atStart (c :: rest) body then 0 else least - 1) (most.map (· - 1)))

def acceptsFrom (atStart : Bool) (pattern : Pattern) : List Char → Bool
  | [] => pattern.passes atStart []
  | c :: rest => acceptsFrom false (pattern.after atStart c rest) rest

def accepts (pattern : Pattern) (text : String) : Bool :=
  acceptsFrom true pattern text.toList

end Pattern

end HeaderDocs
