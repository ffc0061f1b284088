import HeaderDocs.Pattern.Basic

/-!
The written form of patterns. A pattern is first read as tokens and these are then put together with
a stack of open groups. A quantifier needs something to repeat, which neither an anchor nor a
quantifier is; groups and character sets have to be closed; a range may not run backwards.

Patterns that look around, refer back, name groups, set flags, stand at the edge of a word, or
repeat without giving back are not read here, well formed or not.
-/

namespace HeaderDocs.Pattern

/-- Why a written pattern is not read: no pattern is written so, or it may be one that goes beyond
those here. -/
inductive Unread where
  | malformed
  | beyond
deriving DecidableEq, Repr

/-- A token of a written pattern. The flag of an atom tells whether it may be repeated. -/
inductive Token where
  | atom (pattern : Pattern) (repeatable : Bool)
  | opening
  | closing
  | bar
  | quantifier (least : Nat) (most : Option Nat)
deriving DecidableEq, Repr

def letterItem? : Char → Option SetItem
  | 'd' => some (.digit false)
  | 'D' => some (.digit true)
  | 'w' => some (.word false)
  | 'W' => some (.word true)
  | 's' => some (.blank false)
  | 'S' => some (.blank true)
  | 'a' => some (.range '\x07' '\x07')
  | 't' => some (.range '\t' '\t')
  | 'n' => some (.range '\n' '\n')
  | 'v' => some (.range '\x0b' '\x0b')
  | 'f' => some (.range '\x0c' '\x0c')
  | 'r' => some (.range '\r' '\r')
  | _ => none

/-- Letters after a backslash that stand for more than one character of a kind: places in the text,
and the numbers and names of characters. -/
def furtherEscapes : List Char :=
  ['A', 'b', 'B', 'Z', 'x', 'u', 'U', 'N']

/-- What a character after a backslash stands for: itself, unless it is a letter or a digit. -/
def escaped (c : Char) : Except Unread SetItem :=
  match letterItem? c with
  | some item => .ok item
  | none =>
      if !c.isAlphanum then .ok (.range c c)
      else if c.isDigit || furtherEscapes.contains c then .error .beyond
      else .error .malformed

def setMember : List Char → Except Unread (SetItem × List Char)
  | '\\' :: c :: rest =>
      match escaped c with
      | .ok item => .ok (item, rest)
      | .error unread => .error unread
  | '\\' :: [] => .error .malformed
  | c :: rest => .ok (.range c c, rest)
  | [] => .error .malformed

theorem length_of_set_member {text rest : List Char} {item : SetItem}
    (found : setMember text = .ok (item, rest)) : rest.length < text.length := by
  unfold setMember at found
  split at found
  · split at found
    · cases found
      simp only [List.length_cons]
      omega
    · cases found
  · cases found
  · cases found
    simp
  · cases found

/-- The entries of a set up to its closing bracket, and what follows. A bracket that comes first is
an entry; a dash stands for itself before the closing bracket, and else makes a range of the two
characters beside it. -/
def setItems (items : List SetItem) (text : List Char) : Except Unread (List SetItem × List Char) :=
  match text with
  | [] => .error .malformed
  | c :: rest =>
      if c = ']' ∧ items ≠ [] then .ok (items.reverse, rest)
      else
        match _found : setMember (c :: rest) with
        | .error unread => .error unread
        | .ok (item, '-' :: ']' :: tail) => .ok ((.range '-' '-' :: item :: items).reverse, tail)
        | .ok (item, '-' :: tail) =>
            match _last : setMember tail with
            | .error unread => .error unread
            | .ok (other, tail) =>
                match item.single?, other.single? with
                | some first, some last =>
                    if last.toNat < first.toNat then .error .malformed
                    else setItems (.range first last :: items) tail
                | _, _ => .error .malformed
        | .ok (item, tail) => setItems (item :: items) tail
termination_by text.length
decreasing_by
  · have first := length_of_set_member _found
    have second := length_of_set_member _last
    simp only [List.length_cons] at first second ⊢
    omega
  · exact length_of_set_member _found

theorem length_of_set_items {items found : List SetItem} {text rest : List Char}
    (read : setItems items text = .ok (found, rest)) : rest.length < text.length := by
  fun_induction setItems items text with
  | case1 => cases read
  | case2 items c rest' closed =>
      cases read
      simp
  | case3 => cases read
  | case4 items c rest' _ item tail member =>
      cases read
      have := length_of_set_member member
      simp only [List.length_cons] at this ⊢
      omega
  | case5 => cases read
  | case6 => cases read
  | case7 items c rest' _ item tail _ member other after ending first last _ _ _ ih =>
      have outer := length_of_set_member member
      have inner := length_of_set_member ending
      have := ih read
      simp only [List.length_cons] at outer inner ⊢
      omega
  | case8 => cases read
  | case9 items c rest' _ item tail _ _ member ih =>
      have outer := length_of_set_member member
      have := ih read
      omega

def charSet (text : List Char) : Except Unread (CharSet × List Char) :=
  match text with
  | '^' :: rest => (setItems [] rest).map fun read => (⟨true, read.1⟩, read.2)
  | _ => (setItems [] text).map fun read => (⟨false, read.1⟩, read.2)

theorem length_of_char_set {text rest : List Char} {set : CharSet}
    (read : charSet text = .ok (set, rest)) : rest.length < text.length := by
  have inner {inverted : Bool} {text : List Char}
      (read : (setItems [] text).map (fun read => (⟨inverted, read.1⟩, read.2)) = .ok (set, rest)) :
      rest.length < text.length := by
    cases found : setItems [] text with
    | error unread =>
        rw [found] at read
        cases read
    | ok items =>
        rw [found] at read
        obtain ⟨-, rfl⟩ := Prod.mk.inj (Except.ok.inj read)
        exact length_of_set_items found
  unfold charSet at read
  split at read
  · exact Nat.lt_succ_of_lt (inner read)
  · exact inner read

def decimal (digits : List Char) : Nat :=
  digits.foldl (fun value digit => 10 * value + (digit.toNat - '0'.toNat)) 0

def bounds? (text : List Char) : Option (Nat × Option Nat × List Char) :=
  let least := text.takeWhile Char.isDigit
  let rest := text.dropWhile Char.isDigit
  match rest with
  | '}' :: tail => if least.isEmpty then none else some (decimal least, some (decimal least), tail)
  | ',' :: rest =>
      let most := rest.takeWhile Char.isDigit
      match rest.dropWhile Char.isDigit with
      | '}' :: tail =>
          some (decimal least, if most.isEmpty then none else some (decimal most), tail)
      | _ => none
  | _ => none

theorem length_of_bounds {text rest : List Char} {least : Nat} {most : Option Nat}
    (read : bounds? text = some (least, most, rest)) : rest.length < text.length := by
  unfold bounds? at read
  have outer : (text.dropWhile Char.isDigit).length ≤ text.length :=
    (List.dropWhile_suffix _).length_le
  simp only at read
  split at read
  · rename_i tail closed
    split at read
    · simp at read
    · simp only [Option.some.injEq, Prod.mk.injEq] at read
      obtain ⟨-, -, rfl⟩ := read
      simp only [closed, List.length_cons] at outer
      omega
  · rename_i after comma
    have inner : (after.dropWhile Char.isDigit).length ≤ after.length :=
      (List.dropWhile_suffix _).length_le
    split at read
    · rename_i tail closed
      simp only [Option.some.injEq, Prod.mk.injEq] at read
      obtain ⟨-, -, rfl⟩ := read
      simp only [closed, comma, List.length_cons] at outer inner
      omega
    · simp at read
  · simp at read

/-- The bounds of a quantifier, and what follows it. A brace that opens no bounds is a character. -/
def quantifier? : List Char → Option (Nat × Option Nat × List Char)
  | '*' :: rest => some (0, none, rest)
  | '+' :: rest => some (1, none, rest)
  | '?' :: rest => some (0, some 1, rest)
  | '{' :: rest => bounds? rest
  | _ => none

theorem length_of_quantifier {text rest : List Char} {least : Nat} {most : Option Nat}
    (read : quantifier? text = some (least, most, rest)) : rest.length < text.length := by
  unfold quantifier? at read
  split at read
  · cases read
    simp
  · cases read
    simp
  · cases read
    simp
  · exact Nat.lt_succ_of_lt (length_of_bounds read)
  · cases read

def afterQuantifier : List Char → Except Unread (List Char)
  | '?' :: rest => .ok rest
  | '+' :: _ => .error .beyond
  | text => .ok text

theorem length_of_after_quantifier {text rest : List Char}
    (read : afterQuantifier text = .ok rest) : rest.length ≤ text.length := by
  unfold afterQuantifier at read
  split at read
  · cases read
    simp
  · cases read
  · cases read
    exact Nat.le_refl _

/-- What may follow a question mark that starts a group, beside the colon. -/
def furtherGroups : List Char :=
  ['P', '=', '!', '<', '>', '#', '(', '-', 'a', 'i', 'L', 'm', 's', 't', 'u', 'x']

def tokens (text : List Char) : Except Unread (List Token) :=
  match text with
  | [] => .ok []
  | '(' :: '?' :: ':' :: rest => (tokens rest).map (.opening :: ·)
  | '(' :: '?' :: c :: _ => .error (if furtherGroups.contains c then .beyond else .malformed)
  | '(' :: '?' :: [] => .error .malformed
  | '(' :: rest => (tokens rest).map (.opening :: ·)
  | ')' :: rest => (tokens rest).map (.closing :: ·)
  | '|' :: rest => (tokens rest).map (.bar :: ·)
  | '^' :: rest => (tokens rest).map (.atom .start false :: ·)
  | '$' :: rest => (tokens rest).map (.atom .finish false :: ·)
  | '.' :: rest => (tokens rest).map (.atom (.one .dot) true :: ·)
  | '\\' :: c :: rest =>
      match escaped c with
      | .ok item => (tokens rest).map (.atom (.one { items := [item] }) true :: ·)
      | .error unread => .error unread
  | '\\' :: [] => .error .malformed
  | '[' :: rest =>
      match _read : charSet rest with
      | .ok (set, tail) => (tokens tail).map (.atom (.one set) true :: ·)
      | .error unread => .error unread
  | c :: rest =>
      match _read : quantifier? (c :: rest) with
      | some (least, most, tail) =>
          match _after : afterQuantifier tail with
          | .ok tail => (tokens tail).map (.quantifier least most :: ·)
          | .error unread => .error unread
      | none => (tokens rest).map (.atom (.one (.single c)) true :: ·)
termination_by text.length
decreasing_by
  all_goals simp only [List.length_cons]
  all_goals first
    | omega
    | exact Nat.lt_succ_of_lt (length_of_char_set _read)
    | exact Nat.lt_of_le_of_lt (length_of_after_quantifier _after) (length_of_quantifier _read)

/-- A group that has not been closed: the branches before the last bar, and the atoms since then,
the last one first, each with a flag that tells whether it may be repeated. -/
structure Frame where
  branches : List Pattern := []
  atoms : List (Pattern × Bool) := []
deriving DecidableEq, Repr

def Frame.branch (frame : Frame) : Pattern :=
  frame.atoms.foldl (fun rest atom => atom.1.followedBy rest) .empty

def Frame.pattern (frame : Frame) : Pattern :=
  match frame.branches with
  | [] => frame.branch
  | first :: others =>
      .either (others.foldl (fun rest branch => .either branch rest) first) frame.branch

def Frame.push (frame : Frame) (pattern : Pattern) (repeatable : Bool) : Frame :=
  { frame with atoms := (pattern, repeatable) :: frame.atoms }

def assemble (frame : Frame) (outer : List Frame) : List Token → Except Unread Pattern
  | [] => if outer.isEmpty then .ok frame.pattern else .error .malformed
  | .atom pattern repeatable :: tokens => assemble (frame.push pattern repeatable) outer tokens
  | .bar :: tokens => assemble ⟨frame.branch :: frame.branches, []⟩ outer tokens
  | .opening :: tokens => assemble {} (frame :: outer) tokens
  | .closing :: tokens =>
      match outer with
      | [] => .error .malformed
      | around :: outer => assemble (around.push frame.pattern true) outer tokens
  | .quantifier least most :: tokens =>
      match frame.atoms with
      | (body, true) :: atoms =>
          if most.any (· < least) then .error .malformed
          else assemble { frame with atoms := (.times body least most, false) :: atoms }
            outer tokens
      | _ => .error .malformed

def read (text : String) : Except Unread Pattern :=
  match tokens text.toList with
  | .ok tokens => assemble {} [] tokens
  | .error unread => .error unread

def parse? (text : String) : Option Pattern :=
  (read text).toOption

theorem read_of_parse {text : String} {pattern : Pattern} :
    pattern ∈ parse? text ↔ read text = .ok pattern := by
  unfold parse?
  cases read text <;> simp [Except.toOption, eq_comm]

end HeaderDocs.Pattern
