import HeaderDocs.Text.Ranges

/-!
White space of every script, and texts trimmed of it at their ends.
-/

namespace HeaderDocs.Text

/-- The code points of white space: tabs and line breaks, the four separator controls, and the
spaces of Unicode. -/
def blankRanges : Ranges :=
  [
    (0x9, 0xD), (0x1C, 0x20), (0x85, 0x85), (0xA0, 0xA0), (0x1680, 0x1680), (0x2000, 0x200A),
    (0x2028, 0x2029), (0x202F, 0x202F), (0x205F, 0x205F), (0x3000, 0x3000)
  ]

def isBlank (c : Char) : Bool :=
  blankRanges.has c.toNat

def trimLeft (text : List Char) : List Char :=
  text.dropWhile isBlank

def trimRight (text : List Char) : List Char :=
  (text.reverse.dropWhile isBlank).reverse

def trim (text : List Char) : List Char :=
  trimRight (trimLeft text)

def strip (text : String) : String :=
  String.ofList (trim text.toList)

theorem trim_left_cons {c : Char} (solid : isBlank c = false)
    (rest : List Char) : trimLeft (c :: rest) = c :: rest :=
  List.dropWhile_cons_of_neg (by simp [solid])

theorem trim_left_eq_self {text : List Char} :
    trimLeft text = text ↔ ∀ c, text.head? = some c → isBlank c = false := by
  constructor
  · intro same c first
    have stopped := List.head?_dropWhile_not isBlank text
    rw [← trimLeft, same, first] at stopped
    simpa using stopped
  · intro solid
    cases text with
    | nil => rfl
    | cons c rest => exact trim_left_cons (solid c rfl) rest

theorem trim_right_eq_self {text : List Char} :
    trimRight text = text ↔ ∀ c, text.getLast? = some c → isBlank c = false := by
  rw [trimRight, List.reverse_eq_iff, ← trimLeft, trim_left_eq_self, List.head?_reverse]

/-- A text is trimmed when it neither starts nor ends with a blank. -/
theorem trim_eq_self {text : List Char} : trim text = text ↔
    (∀ c, text.head? = some c → isBlank c = false) ∧ ∀ c, text.getLast? = some c →
      isBlank c = false := by
  rw [← trim_left_eq_self, ← trim_right_eq_self]
  constructor
  · intro same
    have suffix : trimLeft text <:+ text := List.dropWhile_suffix isBlank
    have shorter : (trim text).length ≤ (trimLeft text).length := by
      rw [trim, trimRight, List.length_reverse, ← @List.length_reverse _ (trimLeft text)]
      exact (List.dropWhile_suffix isBlank).length_le
    have sameLeft : trimLeft text = text := suffix.eq_of_length_le (by rwa [same] at shorter)
    rw [trim, sameLeft] at same
    exact ⟨sameLeft, same⟩
  · rintro ⟨left, right⟩
    rw [trim, left, right]

theorem trim_left_append {blanks : List Char} (blank : ∀ c ∈ blanks, isBlank c = true)
    (text : List Char) :
    trimLeft (blanks ++ text) = trimLeft text :=
  List.dropWhile_append_of_pos blank

theorem trim_padded (front text back : List Char) (blankFront : ∀ c ∈ front, isBlank c = true)
    (blankBack : ∀ c ∈ back, isBlank c = true) : trim (front ++ text ++ back) = trim text := by
  have blankReversed : ∀ c ∈ back.reverse, isBlank c = true :=
    fun c member => blankBack c (List.mem_reverse.1 member)
  have dropped : trimLeft back = [] := by
    have whole := trim_left_append blankBack []
    rwa [List.append_nil] at whole
  rw [List.append_assoc, trim, trim_left_append blankFront, trimLeft, List.dropWhile_append,
    ← trimLeft, ← trimLeft, dropped]
  split
  · rename_i empty
    rw [trim, List.isEmpty_iff.1 empty]
  · rw [trimRight, List.reverse_append, List.dropWhile_append_of_pos blankReversed]
    rfl

theorem trim_split (text : List Char) : ∃ front back, text = front ++ trim text ++ back ∧
    (∀ c ∈ front, isBlank c = true) ∧ ∀ c ∈ back, isBlank c = true := by
  have blanks (text : List Char) : ∀ c ∈ text.takeWhile isBlank, isBlank c = true :=
    List.all_eq_true.1 List.all_takeWhile
  refine ⟨text.takeWhile isBlank, ((trimLeft text).reverse.takeWhile isBlank).reverse, ?_,
    blanks text, fun c member => blanks _ c (List.mem_reverse.1 member)⟩
  rw [trim, trimRight, List.append_assoc, ← List.reverse_append, List.takeWhile_append_dropWhile,
    List.reverse_reverse, trimLeft, List.takeWhile_append_dropWhile]

theorem trim_again (text : List Char) : trim (trim text) = trim text := by
  obtain ⟨before, behind, split, blankBefore, blankBehind⟩ := trim_split text
  have padded := trim_padded before (trim text) behind blankBefore blankBehind
  rwa [← split, eq_comm] at padded

end HeaderDocs.Text
