/-!
Pieces of text found in other text: a text at the start of another, the first place where one
occurs, cutting at a two-character separator, and replacing every occurrence.
-/

namespace HeaderDocs.Text

def dropStart? : List Char → List Char → Option (List Char)
  | [], text => some text
  | _ :: _, [] => none
  | c :: start, d :: text => if c = d then dropStart? start text else none

theorem append_of_drop_start {start text rest : List Char}
    (found : dropStart? start text = some rest) :
    start ++ rest = text := by
  induction start generalizing text with
  | nil => simpa [dropStart?] using found.symm
  | cons c start ih =>
      cases text with
      | nil => simp [dropStart?] at found
      | cons d text =>
          by_cases same : c = d
          · simp only [dropStart?, same, if_true] at found
            rw [List.cons_append, ih found, same]
          · simp [dropStart?, same] at found

theorem drop_start_append (start rest : List Char) :
    dropStart? start (start ++ rest) = some rest := by
  induction start with
  | nil => rfl
  | cons c start ih => simpa [dropStart?] using ih

def dropOptional (start text : List Char) : List Char :=
  (dropStart? start text).getD text

theorem length_drop_optional (start text : List Char) :
    (dropOptional start text).length ≤ text.length := by
  unfold dropOptional
  cases found : dropStart? start text with
  | none => simp
  | some rest => simp [← append_of_drop_start found]

def startsWith (start text : List Char) : Bool :=
  start.isPrefixOf text

def endsWith (ending text : List Char) : Bool :=
  ending.isSuffixOf text

def dropEnd? (ending text : List Char) : Option (List Char) :=
  if endsWith ending text then some (text.take (text.length - ending.length)) else none

theorem drop_end_append (text ending : List Char) :
    dropEnd? ending (text ++ ending) = some text := by
  have ends : endsWith ending (text ++ ending) = true :=
    List.isSuffixOf_iff_suffix.2 (List.suffix_append text ending)
  rw [dropEnd?, if_pos ends]
  simp

def contains (part : List Char) : List Char → Bool
  | [] => part.isEmpty
  | c :: rest => startsWith part (c :: rest) || contains part rest

theorem contains_iff_infix {part text : List Char} :
    contains part text = true ↔ part <:+: text := by
  induction text with
  | nil => simp [contains]
  | cons c rest ih => simp [contains, startsWith, List.infix_cons_iff, ih]

/-- The texts before and after the first `first` that is followed by `second`. -/
def cutAtPair (first second : Char) : List Char → Option (List Char × List Char)
  | [] => none
  | [_] => none
  | c :: d :: rest =>
      if c = first ∧ d = second then some ([], rest)
      else (cutAtPair first second (d :: rest)).map fun parts => (c :: parts.1, parts.2)

def lengthenFirst (c : Char) : List (List Char) → List (List Char)
  | [] => [[c]]
  | part :: parts => (c :: part) :: parts

theorem lengthen_first_ne_nil (c : Char)
    (parts : List (List Char)) : lengthenFirst c parts ≠ [] := by
  cases parts <;> simp [lengthenFirst]

def splitAtPairs (first second : Char) : List Char → List (List Char)
  | [] => [[]]
  | [c] => [[c]]
  | c :: d :: rest =>
      if c = first ∧ d = second then [] :: splitAtPairs first second rest
      else lengthenFirst c (splitAtPairs first second (d :: rest))

/-- Every occurrence of a part, from the left and without overlap, replaced. The first argument
counts the characters of an occurrence that are still to be passed over. -/
def replaceFrom (part substitute : List Char) : Nat → List Char → List Char
  | _, [] => []
  | skip + 1, _ :: rest => replaceFrom part substitute skip rest
  | 0, c :: rest =>
      if startsWith part (c :: rest) then
        substitute ++ replaceFrom part substitute (part.length - 1) rest
      else c :: replaceFrom part substitute 0 rest

def replaceAll (part substitute text : List Char) : List Char :=
  replaceFrom part substitute 0 text

theorem append_of_cut_at_pair {first second : Char} {text before after : List Char}
    (cut : cutAtPair first second text = some (before, after)) :
    text = before ++ first :: second :: after := by
  fun_induction cutAtPair first second text generalizing before with
  | case1 => simp at cut
  | case2 => simp at cut
  | case3 c d rest matched =>
      simp only [Option.some.injEq, Prod.mk.injEq] at cut
      obtain ⟨rfl, rfl⟩ := cut
      simp [matched.1, matched.2]
  | case4 c d rest _ ih =>
      obtain ⟨parts, found, equal⟩ := Option.map_eq_some_iff.1 cut
      simp only [Prod.mk.injEq] at equal
      obtain ⟨rfl, rfl⟩ := equal
      simp [ih found]

end HeaderDocs.Text
