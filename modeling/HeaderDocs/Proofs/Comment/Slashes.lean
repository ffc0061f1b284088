import HeaderDocs.Proofs.Comment.Decoration
import Mathlib.Data.List.DropRight

/-!
Comments of slashes. The slashes that start a line take one blank along, and a line feed is a blank:
an empty line is taken away with its line feed, and the next line is looked at at once. So of
trimmed lines behind slashes those with text remain, one below the other, whereas a block keeps the
empty lines that stand between them.
-/

namespace HeaderDocs.Comment

open Text

set_option autoImplicit false

def slashLine (line : List Char) : List Char :=
  if line.isEmpty then "///".toList else "/// ".toList ++ line

def slashes (lines : List (List Char)) : List Char :=
  joinLines (lines.map slashLine)

structure IsTrimmed (lines : List (List Char)) : Prop where
  unbroken : ∀ line ∈ lines, '\n' ∉ line
  trimmed : ∀ line ∈ lines, trim line = line

def filledLines (lines : List (List Char)) : List (List Char) :=
  lines.filter fun line => !line.isEmpty

/-- The lines from the first to the last that is not empty. -/
def innerLines (lines : List (List Char)) : List (List Char) :=
  (lines.dropWhile List.isEmpty).rdropWhile List.isEmpty

theorem IsTrimmed.tail {line : List Char} {rest : List (List Char)}
    (plain : IsTrimmed (line :: rest)) :
    IsTrimmed rest :=
  ⟨fun other member => plain.unbroken other (List.mem_cons_of_mem _ member),
    fun other member => plain.trimmed other (List.mem_cons_of_mem _ member)⟩

theorem IsTrimmed.subset {lines others : List (List Char)} (plain : IsTrimmed lines)
    (fewer : others ⊆ lines) :
    IsTrimmed others :=
  ⟨fun line member => plain.unbroken line (fewer member),
    fun line member => plain.trimmed line (fewer member)⟩

theorem solid_head {c : Char} {rest : List Char}
    (trimmed : trim (c :: rest) = c :: rest) : isBlank c = false :=
  (trim_eq_self.1 trimmed).1 c rfl

theorem IsTrimmed.is_flush {lines : List (List Char)}
    (plain : IsTrimmed lines) : IsFlush lines where
  unbroken := plain.unbroken
  solid := fun line member nothing => (plain.trimmed line member).symm.trans nothing
  flush := by
    rintro ⟨line, member, filled⟩
    obtain ⟨c, rest, rfl⟩ := List.exists_cons_of_ne_nil filled
    exact ⟨_, member, c, rest, rfl, solid_head (plain.trimmed _ member)⟩

theorem drop_slashes_found {text rest : List Char} {fed : Bool}
    (found : afterSlashes? text = some (rest, fed)) :
    dropSlashes true text = dropSlashes fed rest := by
  cases text with
  | nil => simp [afterSlashes?, trimLeft, Text.dropStart?] at found
  | cons c others =>
      rw [dropSlashes, if_pos rfl]
      split
      · rename_i same
        rw [found] at same
        obtain ⟨rfl, rfl⟩ := same
        rfl
      · rename_i missing
        simp [found] at missing

theorem after_slashes_blank {c : Char} (blank : isBlank c = true) (text : List Char) :
    afterSlashes? ('/' :: '/' :: '/' :: c :: text) = some (text, c == '\n') := by
  have slash : isBlank '/' = false := by decide
  have noMark : c ≠ '<' := by
    rintro rfl
    exact absurd blank (by decide)
  simp [afterSlashes?, trim_left_cons slash, dropStart?, dropOptional, noMark.symm, dropBlank,
    blank]

theorem drop_slashes_unbroken {line : List Char}
    (unbroken : '\n' ∉ line) : dropSlashes false line = line := by
  induction line with
  | nil => rw [dropSlashes]
  | cons c rest ih =>
      simp only [List.mem_cons, not_or] at unbroken
      have other : (c == '\n') = false := by simpa using fun same => unbroken.1 same.symm
      rw [dropSlashes, if_neg (by simp), other, ih unbroken.2]

theorem drop_slashes_feed {line : List Char} (unbroken : '\n' ∉ line) (text : List Char) :
    dropSlashes false (line ++ '\n' :: text) = line ++ '\n' :: dropSlashes true text := by
  induction line with
  | nil => rw [List.nil_append, dropSlashes, if_neg (by simp)]; rfl
  | cons c rest ih =>
      simp only [List.mem_cons, not_or] at unbroken
      have other : (c == '\n') = false := by simpa using fun same => unbroken.1 same.symm
      rw [List.cons_append, dropSlashes, if_neg (by simp), other, ih unbroken.2, List.cons_append]

theorem slashes_cons (line : List Char) {rest : List (List Char)} (more : rest ≠ []) :
    slashes (line :: rest) = slashLine line ++ '\n' :: slashes rest := by
  rw [slashes, List.map_cons, join_lines_cons _ (by simpa using more), slashes]

/-- The slashes of an empty line take the line feed behind them along. -/
theorem drop_slashes_empty_line (rest : List (List Char)) :
    dropSlashes true (slashes ([] :: rest)) = dropSlashes true (slashes rest) := by
  by_cases more : rest = []
  · have bare : afterSlashes? (slashes [[]]) = some ([], false) := by decide
    rw [more, drop_slashes_found bare, slashes, List.map_nil, join_lines_nil, dropSlashes,
      dropSlashes]
  · have behind : slashes ([] :: rest) = '/' :: '/' :: '/' :: '\n' :: slashes rest :=
      slashes_cons [] more
    rw [behind, drop_slashes_found (after_slashes_blank (by decide) _)]
    rfl

theorem drop_slashes_last_line {line : List Char} (filled : line ≠ []) (unbroken : '\n' ∉ line) :
    dropSlashes true (slashes [line]) = line := by
  have behind : slashes [line] = '/' :: '/' :: '/' :: ' ' :: line := by
    simp [slashes, slashLine, filled]
  rw [behind, drop_slashes_found (after_slashes_blank (by decide) _)]
  exact drop_slashes_unbroken unbroken

theorem drop_slashes_text_line {line : List Char} (filled : line ≠ []) (unbroken : '\n' ∉ line)
    {rest : List (List Char)} (more : rest ≠ []) :
    dropSlashes true (slashes (line :: rest)) = line ++ '\n' ::
      dropSlashes true (slashes rest) := by
  have behind : slashes (line :: rest) = '/' :: '/' :: '/' :: ' ' ::
      (line ++ '\n' :: slashes rest) := by
    rw [slashes_cons line more]
    simp [slashLine, filled]
  rw [behind, drop_slashes_found (after_slashes_blank (by decide) _)]
  exact drop_slashes_feed unbroken _

@[simp] theorem filled_lines_empty (rest : List (List Char)) :
    filledLines ([] :: rest) = filledLines rest :=
  rfl

theorem filled_lines_text {line : List Char} (filled : line ≠ []) (rest : List (List Char)) :
    filledLines (line :: rest) = line :: filledLines rest := by
  simp [filledLines, filled]

/-- Of the lines behind slashes those with text remain; only line feeds can follow the last of
them. -/
theorem drop_slashes_lines {lines : List (List Char)} (unbroken : ∀ line ∈ lines, '\n' ∉ line) :
    ∃ feeds, (∀ c ∈ feeds, isBlank c = true) ∧
      dropSlashes true (slashes lines) = joinLines (filledLines lines) ++ feeds := by
  induction lines with
  | nil => exact ⟨[], by simp, by rw [slashes, List.map_nil, join_lines_nil, dropSlashes]; rfl⟩
  | cons line rest ih =>
      obtain ⟨feeds, blank, dropped⟩ :=
        ih fun other member => unbroken other (List.mem_cons_of_mem _ member)
      have own : '\n' ∉ line := unbroken line (by simp)
      by_cases empty : line = []
      · subst empty
        exact ⟨feeds, blank, by rw [drop_slashes_empty_line, dropped, filled_lines_empty]⟩
      · rw [filled_lines_text empty]
        by_cases more : rest = []
        · subst more
          exact ⟨[], by simp, by rw [drop_slashes_last_line empty own]; simp [filledLines]⟩
        · rw [drop_slashes_text_line empty own more, dropped]
          by_cases last : filledLines rest = []
          · exact ⟨'\n' :: feeds, List.forall_mem_cons.2 ⟨by decide, blank⟩, by simp [last]⟩
          · exact ⟨feeds, blank, by
              rw [join_lines_cons line last, List.append_assoc, List.cons_append]⟩

theorem trim_join_self {lines : List (List Char)} (trimmed : ∀ line ∈ lines, trim line = line)
    (starts : lines.head? ≠ some []) (ends : lines.getLast? ≠ some []) :
    trim (joinLines lines) = joinLines lines := by
  refine trim_eq_self.2 ⟨?_, ?_⟩
  · intro c first
    cases lines with
    | nil => simp at first
    | cons line rest =>
        cases line with
        | nil => simp at starts
        | cons d others =>
            have same : (joinLines ((d :: others) :: rest)).head? = some d := by
              by_cases more : rest = []
              · simp [more]
              · simp [join_lines_cons _ more]
            rw [same, Option.some.injEq] at first
            subst first
            exact solid_head (trimmed (d :: others) (by simp))
  · intro c last
    rcases List.eq_nil_or_concat' lines with rfl | ⟨front, line, rfl⟩
    · simp at last
    · have filled : line ≠ [] := by
        rintro rfl
        simp at ends
      have same : (joinLines (front ++ [line])).getLast? = line.getLast? := by
        by_cases more : front = []
        · simp [more]
        · rw [join_lines_append more (by simp), join_lines_singleton,
            List.getLast?_append_of_ne_nil _ (by simp), ← List.singleton_append,
            List.getLast?_append_of_ne_nil _ filled]
      rw [same] at last
      exact (trim_eq_self.1 (trimmed line (by simp))).2 c last

theorem trim_join_surrounded {above below : List (List Char)}
    (emptyAbove : ∀ line ∈ above, line = []) (emptyBelow : ∀ line ∈ below, line = [])
    (lines : List (List Char)) :
    trim (joinLines (above ++ lines ++ below)) = trim (joinLines lines) := by
  have behind : trim (joinLines (lines ++ below)) = trim (joinLines lines) := by
    induction below using List.reverseRecOn with
    | nil => rw [List.append_nil]
    | append_singleton rest last ih =>
        rw [emptyBelow last (by simp), ← List.append_assoc, trim_join_concat_empty,
          ih fun line member => emptyBelow line (List.mem_append_left _ member)]
  rw [← behind, List.append_assoc]
  induction above with
  | nil => rfl
  | cons first rest ih =>
      rw [emptyAbove first (by simp), List.cons_append, trim_join_cons_empty,
        ih fun line member => emptyAbove line (List.mem_cons_of_mem _ member)]

theorem inner_lines_split (lines : List (List Char)) :
    ∃ above below, lines = above ++ innerLines lines ++ below ∧ (∀ line ∈ above, line = []) ∧
      ∀ line ∈ below, line = [] := by
  refine ⟨lines.takeWhile List.isEmpty, (lines.dropWhile List.isEmpty).rtakeWhile List.isEmpty,
    ?_, ?_, ?_⟩
  · rw [List.append_assoc, innerLines, List.rdropWhile_append_rtakeWhile,
      List.takeWhile_append_dropWhile]
  · intro line member
    exact List.isEmpty_iff.1 (List.mem_takeWhile_imp member)
  · intro line member
    exact List.isEmpty_iff.1 (List.mem_rtakeWhile_imp member)

theorem head_inner_lines (lines : List (List Char)) : (innerLines lines).head? ≠ some [] := by
  intro first
  have stopped := List.head?_dropWhile_not List.isEmpty lines
  obtain ⟨below, split⟩ := List.rdropWhile_prefix List.isEmpty (lines.dropWhile List.isEmpty)
  rw [← split, List.head?_append, ← innerLines, first] at stopped
  simp at stopped

theorem last_inner_lines (lines : List (List Char)) : (innerLines lines).getLast? ≠ some [] := by
  intro last
  have some : innerLines lines ≠ [] := by
    intro nothing
    simp [nothing] at last
  have stopped := List.rdropWhile_last_not List.isEmpty (lines.dropWhile List.isEmpty) some
  rw [List.getLast?_eq_some_getLast some, Option.some.injEq] at last
  exact stopped (List.isEmpty_iff.2 last)

theorem filled_inner_lines (lines : List (List Char)) :
    filledLines (innerLines lines) = filledLines lines := by
  obtain ⟨above, below, split, emptyAbove, emptyBelow⟩ := inner_lines_split lines
  have nothing {others : List (List Char)} (empty : ∀ line ∈ others, line = []) :
      filledLines others = [] := by
    rw [filledLines, List.filter_eq_nil_iff]
    intro line member
    simp [empty line member]
  conv => rhs; rw [split]
  simp only [filledLines, List.filter_append] at nothing ⊢
  rw [nothing emptyAbove, nothing emptyBelow, List.nil_append, List.append_nil]

theorem inner_lines_subset (lines : List (List Char)) : innerLines lines ⊆ lines :=
  List.Subset.trans (List.rdropWhile_prefix List.isEmpty _).subset
    (List.dropWhile_suffix List.isEmpty).subset

theorem trim_join_inner {lines : List (List Char)} (trimmed : ∀ line ∈ lines, trim line = line) :
    trim (joinLines lines) = joinLines (innerLines lines) := by
  obtain ⟨above, below, split, emptyAbove, emptyBelow⟩ := inner_lines_split lines
  have same := trim_join_surrounded emptyAbove emptyBelow (innerLines lines)
  rw [← split] at same
  rw [same]
  exact trim_join_self (fun line member => trimmed line (inner_lines_subset lines member))
    (head_inner_lines lines) (last_inner_lines lines)

theorem filled_line {lines : List (List Char)} {line : List Char}
    (member : line ∈ filledLines lines) :
    line ∈ lines ∧ line ≠ [] := by
  simpa [filledLines] using member

theorem clean_slashes {lines : List (List Char)} (some : lines ≠ []) (plain : IsTrimmed lines) :
    cleanText (slashes lines) = joinLines (filledLines lines) := by
  have starts : ∃ text, slashes lines = '/' :: '/' :: text := by
    obtain ⟨line, rest, rfl⟩ := List.exists_cons_of_ne_nil some
    have own : ∃ text, slashLine line = '/' :: '/' :: text := by
      unfold slashLine
      split
      · exact ⟨_, rfl⟩
      · exact ⟨_, rfl⟩
    obtain ⟨text, same⟩ := own
    by_cases more : rest = []
    · exact ⟨text, by rw [more, slashes, List.map_singleton, join_lines_singleton, same]⟩
    · exact ⟨_, by rw [slashes, List.map_cons, join_lines_cons _ (by simpa using more), same]; rfl⟩
  obtain ⟨text, starts⟩ := starts
  have slash : isBlank '/' = false := by decide
  have sliced : startsWith ['/', '/'] (trimLeft (slashes lines)) = true := by
    rw [starts, trim_left_cons slash]
    simp [startsWith]
  obtain ⟨feeds, blank, dropped⟩ := drop_slashes_lines plain.unbroken
  have padded := trim_padded [] (joinLines (filledLines lines)) _ (by simp) blank
  have bounded : ∀ line, line ∈ filledLines lines → line ≠ [] :=
    fun line member => (filled_line member).2
  rw [cleanText, if_pos sliced, cleanSlashes, dropped, ← List.nil_append (joinLines _), padded]
  refine trim_join_self (fun line member => plain.trimmed line (filled_line member).1) ?_ ?_
  · intro first
    exact bounded [] (List.mem_of_mem_head? first) rfl
  · intro last
    exact bounded [] (List.mem_of_getLast? last) rfl

theorem join_lines_injective {left right : List (List Char)}
    (leftUnbroken : ∀ line ∈ left, '\n' ∉ line) (rightUnbroken : ∀ line ∈ right, '\n' ∉ line)
    (leftSome : left ≠ []) (rightSome : right ≠ [])
    (same : joinLines left = joinLines right) : left = right := by
  rw [← List.splitOn_intercalate '\n' leftUnbroken leftSome, ← joinLines, same, joinLines,
    List.splitOn_intercalate '\n' rightUnbroken rightSome]

theorem join_filled_iff {lines : List (List Char)} (plain : IsTrimmed lines) :
    joinLines (filledLines lines) = joinLines (innerLines lines) ↔ [] ∉ innerLines lines := by
  rw [← filled_inner_lines]
  have inner := plain.subset (inner_lines_subset lines)
  constructor
  · intro same gap
    have some : innerLines lines ≠ [] := List.ne_nil_of_mem gap
    have filled : filledLines (innerLines lines) ≠ [] := by
      obtain ⟨first, rest, split⟩ := List.exists_cons_of_ne_nil some
      have starts := head_inner_lines lines
      rw [split] at starts ⊢
      have notEmpty : first ≠ [] := by simpa using starts
      simp [filledLines, notEmpty]
    have all :=
      join_lines_injective (fun line member => inner.unbroken line (filled_line member).1)
      inner.unbroken filled some same
    rw [← all] at gap
    exact (filled_line gap).2 rfl
  · intro noGap
    rw [filledLines, List.filter_eq_self.2]
    intro line member
    have notEmpty : line ≠ [] := fun empty => noGap (empty ▸ member)
    simpa using notEmpty

end HeaderDocs.Comment
