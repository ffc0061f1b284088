import HeaderDocs.Text.Find

/-!
Two readings of a text as lines. `splitLines` ends a line at any line break of Unicode and counts a
carriage return with its line feed as one; `List.splitOn '\n'` and `joinLines` know the line feed
alone.
-/

namespace HeaderDocs.Text

def isLineBreak (c : Char) : Bool :=
  c == '\n' || c == '\r' || c == '\x0b' || c == '\x0c' || c == '\x1c' || c == '\x1d' ||
    c == '\x1e' || c == '\u0085' || c == '\u2028' || c == '\u2029'

/-- The lines of a text without their line breaks. A break at the very end opens no further line. -/
def splitLines : List Char → List (List Char)
  | [] => []
  | '\r' :: '\n' :: rest => [] :: splitLines rest
  | c :: rest => if isLineBreak c then [] :: splitLines rest else lengthenFirst c (splitLines rest)

def joinLines (lines : List (List Char)) : List Char :=
  List.intercalate ['\n'] lines

@[simp] theorem join_lines_nil : joinLines [] = [] := rfl

@[simp] theorem join_lines_singleton (line : List Char) : joinLines [line] = line := by
  simp [joinLines]

theorem join_lines_cons (line : List Char) {lines : List (List Char)} (more : lines ≠ []) :
    joinLines (line :: lines) = line ++ '\n' :: joinLines lines := by
  obtain ⟨next, rest, rfl⟩ := List.exists_cons_of_ne_nil more
  simp [joinLines, List.intercalate_cons_cons]

theorem join_lines_append {front back : List (List Char)} (some : front ≠ []) (more : back ≠ []) :
    joinLines (front ++ back) = joinLines front ++ '\n' :: joinLines back := by
  induction front with
  | nil => exact absurd rfl some
  | cons line rest ih =>
      cases rest with
      | nil => rw [List.singleton_append, join_lines_cons line more, join_lines_singleton]
      | cons next others =>
          rw [List.cons_append, join_lines_cons line (by simp), ih (by simp),
            join_lines_cons line (by simp), List.append_assoc, List.cons_append]

@[simp] theorem split_lines_nil : splitLines [] = [] := rfl

/-- A character is looked at by itself unless it is a carriage return before its line feed. -/
theorem split_lines_cons_apart {c : Char} {rest : List Char}
    (apart : c = '\r' → rest.head? ≠ some '\n') :
    splitLines (c :: rest) = if isLineBreak c then [] ::
      splitLines rest else lengthenFirst c (splitLines rest) := by
  conv => lhs; unfold splitLines
  split
  · rename_i empty
    simp at empty
  · rename_i paired
    obtain ⟨rfl, rfl⟩ := List.cons.inj paired
    exact absurd rfl (apart rfl)
  · rename_i same
    obtain ⟨rfl, rfl⟩ := List.cons.inj same
    rfl

theorem split_lines_cons {c : Char} (notReturn : c ≠ '\r') (rest : List Char) :
    splitLines (c :: rest) = if isLineBreak c then [] ::
      splitLines rest else lengthenFirst c (splitLines rest) :=
  split_lines_cons_apart fun isReturn => absurd isReturn notReturn

/-- A carriage return becomes a line feed, and takes a line feed that follows it along. -/
def normalizeBreaks : List Char → List Char
  | [] => []
  | '\r' :: '\n' :: rest => '\n' :: normalizeBreaks rest
  | c :: rest => (if c = '\r' then '\n' else c) :: normalizeBreaks rest

theorem return_not_mem_normalize_breaks (text : List Char) : '\r' ∉ normalizeBreaks text := by
  fun_induction normalizeBreaks text with
  | case1 => exact List.not_mem_nil
  | case2 rest ih => simpa using ih
  | case3 c rest _ ih =>
      rw [List.mem_cons, not_or]
      refine ⟨?_, ih⟩
      split
      · decide
      · rename_i other
        exact Ne.symm other

theorem normalize_breaks_of_normal {text : List Char}
    (normal : '\r' ∉ text) : normalizeBreaks text = text := by
  fun_induction normalizeBreaks text with
  | case1 => rfl
  | case2 rest ih => exact absurd List.mem_cons_self normal
  | case3 c rest _ ih =>
      rw [List.mem_cons, not_or] at normal
      rw [if_neg (Ne.symm normal.1), ih normal.2]

end HeaderDocs.Text
