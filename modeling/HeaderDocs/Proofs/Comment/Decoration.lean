import HeaderDocs.Comment.Clean
import Mathlib.Data.List.Basic
import Mathlib.Data.List.TakeWhile

/-!
Block comments written and cleaned again. A block is an opener, lines and a closer; its lines stand
behind stars, or behind a margin that they share. Cleaning gives back the text of the lines, with
the relative indents and the empty lines between them. The margin is found by comparison, so one
line has to start at it; nothing else is assumed of the lines than that those which look empty are.
-/

namespace HeaderDocs.Comment

open Text

set_option autoImplicit false

def blockOpeners : List (List Char) :=
  ["/**".toList, "/*!".toList, "/*".toList]

/-- Lines between an opener and a closer, each on a line of its own. -/
def framed (opener : List Char) (lines : List (List Char)) : List Char :=
  opener ++ joinLines ([] :: lines) ++ ['*', '/']

def starLine (line : List Char) : List Char :=
  if line.isEmpty then [' ', '*'] else ' ' :: '*' :: ' ' :: line

def starBlock (opener : List Char) (lines : List (List Char)) : List Char :=
  opener ++ '\n' :: ((lines.flatMap fun line => starLine line ++ ['\n']) ++ " */".toList)

def indentLine (width line : List Char) : List Char :=
  if line.isEmpty then [] else width ++ line

def indentBlock (opener width : List Char) (lines : List (List Char)) : List Char :=
  opener ++ '\n' :: (joinLines (lines.map (indentLine width)) ++ "\n*/".toList)

/-- Lines of which those of blanks only are empty, and of the others one starts without a blank. -/
structure IsFlush (lines : List (List Char)) : Prop where
  unbroken : ∀ line ∈ lines, '\n' ∉ line
  solid : ∀ line ∈ lines, trim line = [] → line = []
  flush : (∃ line ∈ lines, line ≠ []) → ∃ line ∈ lines, ∃ c rest, line = c :: rest ∧
    isBlank c = false

theorem trim_eq_nil_iff {text : List Char} : trim text = [] ↔ ∀ c ∈ text, isBlank c = true := by
  rw [trim, trimRight, List.reverse_eq_nil_iff, List.dropWhile_eq_nil_iff, trimLeft]
  constructor
  · intro blank c member
    rw [← @List.takeWhile_append_dropWhile _ isBlank text, List.mem_append] at member
    rcases member with front | back
    · exact List.all_eq_true.1 List.all_takeWhile c front
    · exact blank c (List.mem_reverse.2 back)
  · intro blank c member
    rw [List.dropWhile_eq_nil_iff.2 blank] at member
    exact absurd member List.not_mem_nil

theorem blank_of_indent {c : Char} (isIndent : isIndent c = true) : isBlank c = true := by
  simp only [Text.isIndent, Bool.or_eq_true, beq_iff_eq] at isIndent
  rcases isIndent with rfl | rfl <;> decide

theorem drop_star_star_line (line : List Char) : dropStar (starLine line) = line := by
  have space : isBlank ' ' = true := by decide
  have star : isBlank '*' = false := by decide
  cases line with
  | nil => rfl
  | cons c rest => simp [starLine, dropStar, trimLeft, space, star]

theorem drop_star_eq_self {line : List Char} (unstarred : (trimLeft line).head? ≠ some '*') :
    dropStar line = line := by
  unfold dropStar
  split
  · rename_i starred
    exact absurd (by rw [starred]; rfl) unstarred
  · rename_i starred
    exact absurd (by rw [starred]; rfl) unstarred
  · rfl

theorem drop_opener_framed {opener : List Char} (isOpener : opener ∈ blockOpeners)
    (text : List Char) :
    dropOpener (opener ++ '\n' :: text) = '\n' :: text := by
  simp only [blockOpeners, List.mem_cons, List.not_mem_nil, or_false] at isOpener
  rcases isOpener with rfl | rfl | rfl <;> rfl

theorem block_opener_cases {opener : List Char} (isOpener : opener ∈ blockOpeners) :
    ∃ rest, opener = '/' :: '*' :: rest := by
  simp only [blockOpeners, List.mem_cons, List.not_mem_nil, or_false] at isOpener
  rcases isOpener with rfl | rfl | rfl
  · exact ⟨['*'], rfl⟩
  · exact ⟨['!'], rfl⟩
  · exact ⟨[], rfl⟩

theorem clean_framed {opener : List Char} (isOpener : opener ∈ blockOpeners)
    {lines : List (List Char)} (some : lines ≠ []) (unbroken : ∀ line ∈ lines, '\n' ∉ line) :
    cleanText (framed opener lines) = trim (joinLines (dropMargin ([] :: lines.map dropStar))) := by
  obtain ⟨rest, starts⟩ := block_opener_cases isOpener
  have slash : isBlank '/' = false := by decide
  have left : trimLeft (framed opener lines) = framed opener lines := by
    rw [framed, starts]
    exact trim_left_cons slash _
  have trimmed : trim (framed opener lines) = framed opener lines :=
    trim_eq_self.2 ⟨trim_left_eq_self.1 left, fun c last => by
      have closing : framed opener lines = (opener ++ joinLines ([] :: lines) ++ ['*']) ++
          ['/'] := by
        simp [framed]
      rw [closing, List.getLast?_concat, Option.some.injEq] at last
      rwa [← last]⟩
  have block : startsWith ['/', '/'] (trimLeft (framed opener lines)) = false := by
    rw [left, framed, starts]
    rfl
  have body : dropCloser (dropOpener (framed opener lines)) = joinLines ([] :: lines) := by
    rw [framed, join_lines_cons [] some, List.nil_append, List.append_assoc, List.cons_append,
      drop_opener_framed isOpener, ← List.cons_append, dropCloser, drop_end_append,
      Option.getD_some]
  have split : (joinLines ([] :: lines)).splitOn '\n' = [] :: lines :=
    List.splitOn_intercalate '\n' (by simpa using unbroken) (by simp)
  rw [cleanText, block, if_neg (by simp), cleanBlock, trimmed, body, split]
  rfl

theorem trim_join_cons_empty (lines : List (List Char)) :
    trim (joinLines ([] :: lines)) = trim (joinLines lines) := by
  cases lines with
  | nil => rfl
  | cons line rest =>
      have padded :=
        trim_padded ['\n'] (joinLines (line :: rest)) [] (List.all_eq_true.1 (by decide)) (by simp)
      rwa [List.append_nil, List.singleton_append, ← List.nil_append ('\n' :: _),
        ← join_lines_cons [] (by simp)] at padded

theorem trim_join_concat_empty (lines : List (List Char)) :
    trim (joinLines (lines ++ [[]])) = trim (joinLines lines) := by
  by_cases some : lines = []
  · rw [some]
    rfl
  · have padded :=
      trim_padded [] (joinLines lines) ['\n'] (by simp) (List.all_eq_true.1 (by decide))
    rwa [List.nil_append, ← join_lines_singleton [], ← join_lines_append some (by simp)] at padded

theorem is_bare_indent_line (width : List Char) {line : List Char}
    (solid : trim line = [] → line = []) :
    isBare (indentLine width line) = line.isEmpty := by
  cases line with
  | nil => rfl
  | cons c rest =>
      -- A line of indents only would be trimmed to nothing.
      by_contra bare
      have all : isBare (width ++ c :: rest) = true := by simpa [indentLine] using bare
      rw [isBare, List.all_append, Bool.and_eq_true] at all
      have blank : ∀ d ∈ c :: rest, isBlank d = true := fun d member =>
        blank_of_indent (List.all_eq_true.1 all.2 d member)
      exact absurd (solid (trim_eq_nil_iff.2 blank)) (by simp)

theorem indent_solid {c : Char} (solid : isIndent c = false)
    (rest : List Char) : indent (c :: rest) = [] :=
  List.takeWhile_cons_of_neg (by simp [solid])

section Margin

variable {width : List Char} (indents : ∀ c ∈ width, isIndent c = true)

include indents

theorem indent_indent_line (line : List Char) : indent (width ++ line) = width ++ indent line :=
  List.takeWhile_append_of_pos indents

theorem unstarred_indent_line {line : List Char} (unstarred : (trimLeft line).head? ≠ some '*') :
    (trimLeft (indentLine width line)).head? ≠ some '*' := by
  unfold indentLine
  split
  · simp [trimLeft]
  · rwa [trim_left_append fun c member => blank_of_indent (indents c member)]

/-- The margin of flush lines behind indents is those indents. -/
theorem margin_indented {lines : List (List Char)} (flush : IsFlush lines)
    (filled : ∃ line ∈ lines, line ≠ []) {last : List Char} (bareLast : isBare last = true) :
    margin ([] :: (lines.map (indentLine width) ++ [last])) = width := by
  obtain ⟨first, inside, c, rest, rfl, solid⟩ := flush.flush filled
  have noIndent : isIndent c = false := by
    by_contra isIndent
    rw [blank_of_indent (by simpa using isIndent)] at solid
    simp at solid
  have inBlock : indentLine width (c :: rest) ∈ [] :: (lines.map (indentLine width) ++ [last]) := by
    simpa using Or.inr (Or.inl ⟨c :: rest, inside, rfl⟩)
  have filledFirst : isBare (indentLine width (c :: rest)) = false :=
    is_bare_indent_line width (flush.solid _ inside)
  have shorter : margin ([] :: (lines.map (indentLine width) ++ [last])) <+: width := by
    have start := margin_le inBlock filledFirst
    have own : indent (indentLine width (c :: rest)) = width := by
      simp [indentLine, indent_indent_line indents, indent_solid noIndent]
    rwa [own] at start
  have longer : width <+: margin ([] :: (lines.map (indentLine width) ++ [last])) := by
    apply le_margin ⟨_, inBlock, filledFirst⟩
    intro other otherIn otherFilled
    simp only [List.mem_cons, List.mem_append, List.mem_map, List.not_mem_nil, or_false] at otherIn
    rcases otherIn with rfl | ⟨source, sourceIn, rfl⟩ | rfl
    · simp [isBare] at otherFilled
    · rw [is_bare_indent_line width (flush.solid source sourceIn)] at otherFilled
      rw [indentLine, if_neg (by simp [otherFilled]), indent_indent_line indents]
      exact List.prefix_append _ _
    · simp [bareLast] at otherFilled
  exact shorter.eq_of_length_le longer.length_le

theorem drop_margin_indented {lines : List (List Char)} (flush : IsFlush lines) {last : List Char}
    (bareLast : isBare last = true) :
    dropMargin ([] :: (lines.map (indentLine width) ++ [last])) = [] :: (lines ++ [[]]) := by
  have found := fun filled => margin_indented indents flush filled bareLast
  simp only [dropMargin]
  generalize margin ([] :: (lines.map (indentLine width) ++ [last])) = common at found ⊢
  have each : ∀ line ∈ lines, (if isBare (indentLine width line) then []
      else (indentLine width line).drop common.length) = line := by
    intro line member
    rw [is_bare_indent_line width (flush.solid line member)]
    cases line with
    | nil => rfl
    | cons c rest =>
        rw [found ⟨_, member, by simp⟩]
        simp [indentLine]
  have kept := List.map_congr_left each
  rw [List.map_id'] at kept
  rw [List.map_cons, List.map_append, List.map_map, List.map_singleton, bareLast]
  exact congrArg (fun middle => [] :: (middle ++ [[]])) kept

end Margin

theorem star_block_framed (opener : List Char) (lines : List (List Char)) :
    starBlock opener lines = framed opener (lines.map starLine ++ [[' ']]) := by
  have fed : (lines.flatMap fun line => starLine line ++ ['\n']) ++ [' '] =
      joinLines (lines.map starLine ++ [[' ']]) := by
    induction lines with
    | nil => rfl
    | cons line rest ih =>
        rw [List.map_cons, List.cons_append, join_lines_cons _ (by simp), ← ih]
        simp
  rw [framed, join_lines_cons [] (by simp), ← fed]
  simp [starBlock]

theorem indent_block_framed (opener width : List Char) {lines : List (List Char)}
    (some : lines ≠ []) :
    indentBlock opener width lines = framed opener (lines.map (indentLine width) ++ [[]]) := by
  rw [framed, join_lines_cons [] (by simp), join_lines_append (by simpa using some) (by simp)]
  simp [indentBlock]

theorem clean_star_block {opener : List Char} (isOpener : opener ∈ blockOpeners)
    {lines : List (List Char)} (flush : IsFlush lines) :
    cleanText (starBlock opener lines) = trim (joinLines lines) := by
  have unbroken : ∀ line ∈ lines.map starLine ++ [[' ']], '\n' ∉ line := by
    intro line member
    rcases List.mem_append.1 member with inside | last
    · obtain ⟨source, sourceIn, rfl⟩ := List.mem_map.1 inside
      have own := flush.unbroken source sourceIn
      unfold starLine
      split <;> simp [own]
    · rw [List.mem_singleton.1 last]
      decide
  have unstarred : (lines.map starLine ++ [[' ']]).map dropStar = lines.map (indentLine []) ++
      [[' ']] := by
    have same : dropStar ∘ starLine = indentLine [] := by
      funext line
      cases line <;> simp [drop_star_star_line, indentLine]
    rw [List.map_append, List.map_map, same]
    rfl
  rw [star_block_framed, clean_framed isOpener (by simp) unbroken, unstarred,
    drop_margin_indented (by simp) flush rfl, trim_join_cons_empty, trim_join_concat_empty]

theorem clean_indent_block {opener : List Char} (isOpener : opener ∈ blockOpeners)
    {lines : List (List Char)} (flush : IsFlush lines) {width : List Char}
    (indents : ∀ c ∈ width, isIndent c = true)
    (unstarred : ∀ line ∈ lines, (trimLeft line).head? ≠ some '*') :
    cleanText (indentBlock opener width lines) = trim (joinLines lines) := by
  by_cases some : lines = []
  · subst some
    -- No lines at all are written like a single empty one.
    have single : indentBlock opener width [] = framed opener [[], []] := by
      simp [indentBlock, framed, joinLines]
    rw [single, clean_framed isOpener (by simp) (by simp)]
    rfl
  · have noFeed : '\n' ∉ width := fun member => absurd (indents _ member) (by decide)
    have unbroken : ∀ line ∈ lines.map (indentLine width) ++ [[]], '\n' ∉ line := by
      intro line member
      rcases List.mem_append.1 member with inside | last
      · obtain ⟨source, sourceIn, rfl⟩ := List.mem_map.1 inside
        have own := flush.unbroken source sourceIn
        unfold indentLine
        split <;> simp [own, noFeed]
      · rw [List.mem_singleton.1 last]
        simp
    have kept : (lines.map (indentLine width) ++ [[]]).map dropStar =
        lines.map (indentLine width) ++ [[]] := by
      have each : ∀ line ∈ lines, (dropStar ∘ indentLine width) line = indentLine width line :=
        fun line member => drop_star_eq_self (unstarred_indent_line indents (unstarred line member))
      rw [List.map_append, List.map_map, List.map_congr_left each]
      rfl
    rw [indent_block_framed opener width some, clean_framed isOpener (by simp) unbroken, kept,
      drop_margin_indented indents flush rfl, trim_join_cons_empty, trim_join_concat_empty]

/-- A block of flush lines is cleaned to their text, trimmed at its ends, whichever its opener is
and whether its lines stand behind stars or behind a common margin. Behind a margin, lines that
start with a star would lose it. -/
theorem clean_decorated {lines : List (List Char)} (flush : IsFlush lines) {opener : List Char}
    (isOpener : opener ∈ blockOpeners) :
    clean (String.ofList (starBlock opener lines)) = strip (String.ofList (joinLines lines)) ∧
      ∀ width : List Char, (∀ c ∈ width, isIndent c = true) →
        (∀ line ∈ lines, (trimLeft line).head? ≠ some '*') →
          clean (String.ofList (indentBlock opener width lines)) =
            strip (String.ofList (joinLines lines)) := by
  simp only [clean, strip, String.toList_ofList]
  constructor
  · rw [clean_star_block isOpener flush]
  · intro width indents unstarred
    rw [clean_indent_block isOpener flush indents unstarred]

/-- An indented line at the start, an empty one between two others, and an item deeper than the line
above it. -/
theorem listing_behind_tabs :
    let lines := ["  int x;".toList, [], "Then:".toList, "\t- y\r".toList]
    let opener := "/*!".toList
    let width := "\t ".toList
    IsFlush lines ∧ opener ∈ blockOpeners ∧ (∀ c ∈ width, isIndent c = true) ∧
      (∀ line ∈ lines, (trimLeft line).head? ≠ some '*') ∧
      String.ofList (indentBlock opener width lines) =
        "/*!\n\t   int x;\n\n\t Then:\n\t \t- y\r\n*/" ∧
      clean (String.ofList (starBlock opener lines)) = "int x;\n\nThen:\n\t- y" ∧
      clean (String.ofList (indentBlock opener width lines)) = "int x;\n\nThen:\n\t- y" := by
  intro lines opener width
  have flush : IsFlush lines :=
    ⟨by decide +kernel, by decide +kernel, fun _ => ⟨"Then:".toList, by
    decide +kernel, 'T', "hen:".toList, rfl, rfl⟩⟩
  have isOpener : opener ∈ blockOpeners := by decide +kernel
  have indents : ∀ c ∈ width, isIndent c = true := List.all_eq_true.1 (by decide +kernel)
  have unstarred : ∀ line ∈ lines, (trimLeft line).head? ≠ some '*' := by decide +kernel
  obtain ⟨behindStars, behindMargin⟩ := clean_decorated flush isOpener
  have text : strip (String.ofList (joinLines lines)) = "int x;\n\nThen:\n\t- y" := by
    decide +kernel
  refine ⟨flush, isOpener, indents, unstarred, by decide +kernel, ?_, ?_⟩
  · rw [behindStars, text]
  · rw [behindMargin width indents unstarred, text]

end HeaderDocs.Comment
