import HeaderDocs.Comment.Markdown
import Mathlib.Data.List.Basic

/-!
Comments stacked on one another. The loop over the lines carries the blank lines since the last text
and whether an argument has been listed, and of all that stands above only these two reach what
stands below. So the Markdown of a passage under another is that of the passage alone, after what
parts them, and without the heading of the arguments when the passage above has brought it already.
-/

namespace HeaderDocs.Comment

open Text

set_option autoImplicit false

def IsUnbroken (line : List Char) : Prop :=
  ∀ c ∈ line, isLineBreak c = false

def isBlankLine (line : List Char) : Bool :=
  (trim line).isEmpty

def isArgumentLine (line : List Char) : Bool :=
  startsWith argumentMarker (trim line)

/-- Lines of which the first and the last are not blank. -/
structure IsPassage (lines : List (List Char)) : Prop where
  unbroken : ∀ line ∈ lines, IsUnbroken line
  starts : ∃ first rest, lines = first :: rest ∧ isBlankLine first = false
  ends : ∃ front last, lines = front ++ [last] ∧ isBlankLine last = false

def markdownOf (table : Symbol.Table) (lines : List (List Char)) : String :=
  transform table (String.ofList (joinLines lines))

theorem split_lines_solid {c : Char} (solid : isLineBreak c = false) (rest : List Char) :
    splitLines (c :: rest) = lengthenFirst c (splitLines rest) := by
  have notReturn : c ≠ '\r' := by
    rintro rfl
    exact absurd solid (by decide)
  rw [split_lines_cons notReturn, solid]
  rfl

theorem split_lines_feed {line : List Char} (unbroken : IsUnbroken line) (rest : List Char) :
    splitLines (line ++ '\n' :: rest) = line :: splitLines rest := by
  induction line with
  | nil => exact split_lines_cons (by decide) rest
  | cons c others ih =>
      have later := ih fun d member => unbroken d (List.mem_cons_of_mem _ member)
      rw [List.cons_append, split_lines_solid (unbroken c (by simp)), later]
      rfl

theorem split_lines_unbroken {c : Char} {rest : List Char} (unbroken : IsUnbroken (c :: rest)) :
    splitLines (c :: rest) = [c :: rest] := by
  induction rest generalizing c with
  | nil => exact split_lines_solid (unbroken c (by simp)) []
  | cons d others ih =>
      have later := ih fun e member => unbroken e (List.mem_cons_of_mem _ member)
      rw [split_lines_solid (unbroken c (by simp)), later]
      rfl

theorem entries_after_blank {gap : Nat} {line : List Char} (blank : isBlankLine line = true)
    (rest : List (List Char)) : entriesAfter gap (line :: rest) = entriesAfter (gap + 1) rest := by
  rw [entriesAfter, if_pos (show (trim line).isEmpty = true from blank)]

theorem entries_after_text {gap : Nat} {line : List Char} (solid : isBlankLine line = false)
    (rest : List (List Char)) :
    entriesAfter gap (line :: rest) = Entry.ofLine gap (trim line) :: entriesAfter 0 rest := by
  have notEmpty : ¬(trim line).isEmpty = true := by simpa [isBlankLine] using solid
  rw [entriesAfter, if_neg notEmpty]

/-- Putting lines together and taking them apart again gives their entries; only a last line without
characters is lost on the way. -/
theorem entries_of_lines (gap : Nat) {lines : List (List Char)}
    (unbroken : ∀ line ∈ lines, IsUnbroken line) :
    entriesAfter gap (splitLines (joinLines lines)) = entriesAfter gap lines := by
  induction lines generalizing gap with
  | nil => rfl
  | cons line rest ih =>
      have own : IsUnbroken line := unbroken line (by simp)
      cases rest with
      | nil =>
          cases line with
          | nil => rfl
          | cons c others => rw [join_lines_singleton, split_lines_unbroken own]
      | cons next further =>
          have others : ∀ other ∈ next :: further, IsUnbroken other :=
            fun other member => unbroken other (List.mem_cons_of_mem _ member)
          rw [join_lines_cons line (by simp), split_lines_feed own]
          cases blank : isBlankLine line with
          | true => rw [entries_after_blank blank, entries_after_blank blank, ih _ others]
          | false => rw [entries_after_text blank, entries_after_text blank, ih _ others]

theorem entries_after_trimmed (gap : Nat) {lines others : List (List Char)}
    (same : lines.map trim = others.map trim) :
    entriesAfter gap lines = entriesAfter gap others := by
  induction lines generalizing gap others with
  | nil =>
      rw [List.map_nil, List.nil_eq, List.map_eq_nil_iff] at same
      rw [same]
  | cons line rest ih =>
      cases others with
      | nil => simp at same
      | cons other further =>
          simp only [List.map_cons, List.cons.injEq] at same
          cases blank : isBlankLine line with
          | true =>
              have alike : isBlankLine other = true := by rwa [isBlankLine, ← same.1]
              rw [entries_after_blank blank, entries_after_blank alike, ih _ same.2]
          | false =>
              have alike : isBlankLine other = false := by rwa [isBlankLine, ← same.1]
              rw [entries_after_text blank, entries_after_text alike, ih _ same.2, same.1]

theorem entries_after_blanks (gap : Nat) {blanks : List (List Char)}
    (blank : ∀ line ∈ blanks, isBlankLine line) (rest : List (List Char)) :
    entriesAfter gap (blanks ++ rest) = entriesAfter (gap + blanks.length) rest := by
  induction blanks generalizing gap with
  | nil => rfl
  | cons line others ih =>
      have later := ih (gap + 1) fun other member => blank other (List.mem_cons_of_mem _ member)
      rw [List.cons_append, entries_after_blank (blank line (by simp)), later, List.length_cons]
      congr 1
      omega

theorem entries_at_text (gap : Nat) (front : List (List Char)) {line : List Char}
    (solid : isBlankLine line = false) :
    ∃ blanks, ∀ below, entriesAfter gap (front ++ line :: below) =
      entriesAfter gap front ++ Entry.ofLine blanks (trim line) :: entriesAfter 0 below := by
  induction front generalizing gap with
  | nil => exact ⟨gap, fun below => entries_after_text solid below⟩
  | cons other others ih =>
      cases blank : isBlankLine other with
      | true =>
          obtain ⟨blanks, split⟩ := ih (gap + 1)
          refine ⟨blanks, fun below => ?_⟩
          rw [List.cons_append, entries_after_blank blank, entries_after_blank blank, split]
      | false =>
          obtain ⟨blanks, split⟩ := ih 0
          refine ⟨blanks, fun below => ?_⟩
          rw [List.cons_append, entries_after_text blank, entries_after_text blank, split,
            List.cons_append]

theorem entries_below_text (gap : Nat) (front : List (List Char)) {line : List Char}
    (solid : isBlankLine line = false) (below : List (List Char)) :
    entriesAfter gap (front ++ line :: below) = entriesAfter gap (front ++ [line]) ++
      entriesAfter 0 below := by
  obtain ⟨blanks, split⟩ := entries_at_text gap front solid
  rw [split, split, List.append_assoc]
  rfl

theorem entries_below_passage (gap : Nat) {above : List (List Char)} (passage : IsPassage above)
    (below : List (List Char)) :
    entriesAfter gap (above ++ below) = entriesAfter gap above ++ entriesAfter 0 below := by
  obtain ⟨front, last, rfl, solid⟩ := passage.ends
  rw [List.append_assoc, List.singleton_append, entries_below_text gap front solid]

theorem entries_empty (gap : Nat) (lines : List (List Char)) :
    (entriesAfter gap lines).isEmpty = lines.all isBlankLine := by
  induction lines generalizing gap with
  | nil => rfl
  | cons line rest ih =>
      cases blank : isBlankLine line with
      | true => rw [entries_after_blank blank, ih, List.all_cons, blank, Bool.true_and]
      | false =>
          rw [entries_after_text blank, List.all_cons, blank, Bool.false_and, List.isEmpty_cons]

theorem entries_of_blanks (gap : Nat) {blanks : List (List Char)}
    (blank : ∀ line ∈ blanks, isBlankLine line) :
    entriesAfter gap blanks = [] := by
  have whole := entries_after_blanks gap blank []
  rwa [List.append_nil] at whole

theorem entries_before_blanks (gap : Nat) (lines : List (List Char)) {blanks : List (List Char)}
    (blank : ∀ line ∈ blanks, isBlankLine line) :
    entriesAfter gap (lines ++ blanks) = entriesAfter gap lines := by
  induction lines generalizing gap with
  | nil => exact entries_of_blanks gap blank
  | cons line rest ih =>
      rw [List.cons_append]
      cases own : isBlankLine line with
      | true => rw [entries_after_blank own, entries_after_blank own, ih]
      | false => rw [entries_after_text own, entries_after_text own, ih]

theorem drop_start_is_some (start text : List Char) :
    (dropStart? start text).isSome = startsWith start text := by
  induction start generalizing text with
  | nil => rfl
  | cons c start ih =>
      cases text with
      | nil => rfl
      | cons d text =>
          by_cases same : c = d
          · subst same
            simpa [dropStart?, startsWith] using ih text
          · simp [dropStart?, startsWith, List.isPrefixOf, same]

theorem is_argument_of_line (gap : Nat) (line : List Char) :
    (Entry.ofLine gap (trim line)).isArgument = isArgumentLine line := by
  rw [isArgumentLine, ← drop_start_is_some, Entry.ofLine]
  cases dropStart? argumentMarker (trim line) <;> rfl

theorem gap_of_line (gap : Nat) (line : List Char) : (Entry.ofLine gap line).gap = gap := by
  unfold Entry.ofLine
  split <;> rfl

theorem any_argument_entries (gap : Nat) (lines : List (List Char)) :
    (entriesAfter gap lines).any Entry.isArgument = lines.any isArgumentLine := by
  induction lines generalizing gap with
  | nil => rfl
  | cons line rest ih =>
      cases blank : isBlankLine line with
      | true =>
          have bare : isArgumentLine line = false := by
            have empty : trim line = [] := by simpa [isBlankLine] using blank
            rw [isArgumentLine, empty]
            rfl
          rw [entries_after_blank blank, ih, List.any_cons, bare, Bool.false_or]
      | false =>
          rw [entries_after_text blank, List.any_cons, List.any_cons, ih, is_argument_of_line]

section Layout

variable (lookup : Lookup)

theorem layout_append (started listed : Bool) (front back : List Entry) :
    layout lookup started listed (front ++ back) =
      layout lookup started listed front ++
        layout lookup (started || !front.isEmpty) (listed || front.any Entry.isArgument) back := by
  induction front generalizing started listed with
  | nil => simp [layout]
  | cons entry rest ih => simp [layout, ih, Bool.or_assoc]

theorem layout_any_gap (listed : Bool) (gap other : Nat) (lines : List (List Char)) :
    layout lookup false listed (entriesAfter gap lines) =
      layout lookup false listed (entriesAfter other lines) := by
  induction lines generalizing gap other with
  | nil => rfl
  | cons line rest ih =>
      cases blank : isBlankLine line with
      | true => rw [entries_after_blank blank, entries_after_blank blank, ih]
      | false =>
          rw [entries_after_text blank, entries_after_text blank]
          unfold Entry.ofLine
          cases dropStart? argumentMarker (trim line) <;> rfl

theorem layout_without_arguments (started : Bool) {prose : List Entry}
    (bare : prose.any Entry.isArgument = false) :
    layout lookup started true prose = layout lookup started false prose := by
  induction prose generalizing started with
  | nil => rfl
  | cons entry rest ih =>
      simp only [List.any_cons, Bool.or_eq_false_iff] at bare
      simp [layout, Entry.bullet, bare.1, ih true bare.2]

/-- The heading of the arguments stands before the first of them, and nothing else depends on
whether it is wanted. -/
theorem layout_heading {prose : List Entry} {argument : Entry}
    (bare : prose.any Entry.isArgument = false) (isArgument : argument.isArgument = true)
    (rest : List Entry) :
    ∃ tail, ∀ listed, layout lookup false listed (prose ++ argument :: rest) =
      (layout lookup false false prose ++ if prose.isEmpty then [] else ['\n']) ++
        (if listed then [] else argumentsHeading) ++ tail := by
  refine ⟨['*', ' '] ++ lineMarkdown lookup argument.text ++ layout lookup true true rest,
    fun listed => ?_⟩
  have lead : layout lookup false listed prose = layout lookup false false prose := by
    cases listed with
    | true => exact layout_without_arguments lookup false bare
    | false => rfl
  rw [layout_append, lead, bare, layout]
  cases prose <;> simp [Entry.bullet, Entry.separator, isArgument]

end Layout

theorem markdown_of_entries (table : Symbol.Table) {lines : List (List Char)}
    (unbroken : ∀ line ∈ lines, IsUnbroken line) :
    markdownOf table lines = String.ofList
      (layout (Lookup.ofTable table) false false (entriesAfter 0 lines)) := by
  rw [markdownOf, transform, textMarkdown, entries, String.toList_ofList,
    entries_of_lines 0 unbroken]

/-- Blank lines around lines and blanks at the ends of lines change nothing. -/
theorem markdown_of_padded (table : Symbol.Table) {core above below lines : List (List Char)}
    (unbroken : ∀ line ∈ core, IsUnbroken line) (blankAbove : ∀ line ∈ above, isBlankLine line)
    (blankBelow : ∀ line ∈ below, isBlankLine line)
    (unbrokenLines : ∀ line ∈ lines, IsUnbroken line)
    (same : lines.map trim = (above ++ core ++ below).map trim) :
    markdownOf table lines = markdownOf table core := by
  rw [markdown_of_entries table unbrokenLines, markdown_of_entries table unbroken,
    entries_after_trimmed 0 same, entries_before_blanks 0 _ blankBelow,
    entries_after_blanks 0 blankAbove, layout_any_gap _ _ _ 0]

/-- What parts a passage that starts with some line from the one above it. -/
def seam (blanks : Nat) (first : List Char) : String :=
  if isArgumentLine first then "\n" else if 2 ≤ blanks then "\n\n" else "<br>"

theorem separator_of_line (blanks : Nat) (first : List Char) :
    (Entry.ofLine blanks (trim first)).separator = (seam blanks first).toList := by
  rw [Entry.separator, is_argument_of_line, gap_of_line, seam]
  split_ifs <;> rfl

/-- The Markdown of lines, but without the heading before the first argument. In front of the
heading stands the Markdown of the lines above that argument, ended by a line feed if there is text
among them. -/
def IsUnheaded (table : Symbol.Table) (lines : List (List Char)) (markdown : String) : Prop :=
  let prose := lines.takeWhile fun line => !isArgumentLine line
  let lead := markdownOf table prose ++ if prose.all isBlankLine then "" else "\n"
  ∃ tail, markdownOf table lines = lead ++ "# Arguments\n" ++ tail ∧ markdown = lead ++ tail

theorem argument_not_blank {line : List Char} (isArgument : isArgumentLine line = true) :
    isBlankLine line = false := by
  cases text : trim line with
  | nil =>
      rw [isArgumentLine, text] at isArgument
      exact absurd isArgument (by decide)
  | cons c rest => simp [isBlankLine, text]

theorem first_argument {lines : List (List Char)} (listing : lines.any isArgumentLine = true) :
    ∃ argument rest, isArgumentLine argument = true ∧
      lines = (lines.takeWhile fun line => !isArgumentLine line) ++ argument :: rest := by
  induction lines with
  | nil => simp at listing
  | cons line rest ih =>
      cases own : isArgumentLine line with
      | true => exact ⟨line, rest, own, by simp [own]⟩
      | false =>
          obtain ⟨argument, others, isArgument, split⟩ := ih (by simpa [own] using listing)
          exact ⟨argument, others, isArgument, by simpa [own] using split⟩

/-- The flag of the loop that tells whether an argument has been listed decides on the heading
alone. -/
theorem unheaded_of_layout (table : Symbol.Table) {lines : List (List Char)}
    (unbroken : ∀ line ∈ lines, IsUnbroken line) (listing : lines.any isArgumentLine = true) :
    IsUnheaded table lines
      (String.ofList (layout (Lookup.ofTable table) false true (entriesAfter 0 lines))) := by
  obtain ⟨argument, rest, isArgument, split⟩ := first_argument listing
  unfold IsUnheaded
  dsimp only
  generalize proseEq : (lines.takeWhile fun line => !isArgumentLine line) = prose at split ⊢
  have bare : prose.any isArgumentLine = false := by
    rw [← proseEq, List.any_eq_false]
    intro line member
    simpa using List.all_eq_true.1 List.all_takeWhile line member
  have unbrokenProse : ∀ line ∈ prose, IsUnbroken line := by
    intro line member
    exact unbroken line (by rw [split]; exact List.mem_append_left _ member)
  obtain ⟨blanks, entered⟩ := entries_at_text 0 prose (argument_not_blank isArgument)
  obtain ⟨tail, laid⟩ :=
    layout_heading (Lookup.ofTable table) ((any_argument_entries 0 prose).trans bare)
      ((is_argument_of_line blanks argument).trans isArgument) (entriesAfter 0 rest)
  have lead : markdownOf table prose ++ (if prose.all isBlankLine then "" else "\n") =
      String.ofList (layout (Lookup.ofTable table) false false (entriesAfter 0 prose) ++
        if (entriesAfter 0 prose).isEmpty then [] else ['\n']) := by
    rw [markdown_of_entries table unbrokenProse, entries_empty, String.ofList_append]
    cases prose.all isBlankLine <;> rfl
  refine ⟨String.ofList tail, ?_, ?_⟩
  · have heading : String.ofList argumentsHeading = "# Arguments\n" := String.ofList_toList
    rw [markdown_of_entries table unbroken, split, entered, laid false, lead, ← heading,
      ← String.ofList_append, ← String.ofList_append]
    rfl
  · rw [split, entered, laid true, lead, if_pos rfl, List.append_nil, String.ofList_append]

/-- A passage under another gives the Markdown that it gives alone, after what parts the two, but
for the heading of the arguments where the upper passage has brought it. Blank lines around both and
blanks at the ends of lines change nothing. -/
theorem markdown_of_stacked (table : Symbol.Table) {above gap rest : List (List Char)}
    {first : List Char} (upper : IsPassage above) (lower : IsPassage (first :: rest))
    (blank : ∀ line ∈ gap, IsUnbroken line ∧ isBlankLine line) :
    (∃ continuation,
      markdownOf table (above ++ gap ++ first :: rest) =
        markdownOf table above ++ seam gap.length first ++ continuation ∧
      if above.any isArgumentLine ∧ (first :: rest).any isArgumentLine then
        IsUnheaded table (first :: rest) continuation
      else continuation = markdownOf table (first :: rest)) ∧
    ∀ lead trail lines, (∀ line ∈ lead, isBlankLine line) → (∀ line ∈ trail, isBlankLine line) →
      (∀ line ∈ lines, IsUnbroken line) →
      lines.map trim = (lead ++ (above ++ gap ++ first :: rest) ++ trail).map trim →
      markdownOf table lines = markdownOf table (above ++ gap ++ first :: rest) := by
  have unbroken : ∀ line ∈ above ++ gap ++ first :: rest, IsUnbroken line := by
    intro line member
    rcases List.mem_append.1 member with inUpper | below
    · rcases List.mem_append.1 inUpper with own | between
      · exact upper.unbroken line own
      · exact (blank line between).1
    · exact lower.unbroken line below
  refine ⟨?_, fun lead trail lines blankLead blankTrail solid same =>
    markdown_of_padded table unbroken blankLead blankTrail solid same⟩
  obtain ⟨_, _, start, solidFirst⟩ := lower.starts
  obtain ⟨rfl, rfl⟩ := List.cons.inj start
  have entered : entriesAfter 0 (above ++ gap ++ first :: rest) =
      entriesAfter 0 above ++ Entry.ofLine gap.length (trim first) :: entriesAfter 0 rest := by
    rw [List.append_assoc, entries_below_passage 0 upper,
      entries_after_blanks 0 (fun line member => (blank line member).2),
      entries_after_text solidFirst, Nat.zero_add]
  have inhabited : (entriesAfter 0 above).isEmpty = false := by
    obtain ⟨front, last, same, solidLast⟩ := upper.ends
    rw [entries_empty, same]
    simp [solidLast]
  have laid : markdownOf table (above ++ gap ++ first :: rest) =
      markdownOf table above ++ seam gap.length first ++
        String.ofList (layout (Lookup.ofTable table) false (above.any isArgumentLine)
          (entriesAfter 0 (first :: rest))) := by
    have seamEq :
        seam gap.length first = String.ofList (Entry.ofLine gap.length (trim first)).separator := by
      rw [separator_of_line, String.ofList_toList]
    have below : layout (Lookup.ofTable table) true (above.any isArgumentLine)
        (Entry.ofLine gap.length (trim first) :: entriesAfter 0 rest) =
        (Entry.ofLine gap.length (trim first)).separator ++
          layout (Lookup.ofTable table) false (above.any isArgumentLine)
            (entriesAfter 0 (first :: rest)) := by
      rw [← layout_any_gap _ _ gap.length 0, entries_after_text solidFirst]
      simp [layout]
    rw [markdown_of_entries table unbroken, markdown_of_entries table upper.unbroken, entered,
      layout_append, inhabited, any_argument_entries, seamEq, ← String.ofList_append,
      ← String.ofList_append, List.append_assoc, ← below]
    rfl
  refine ⟨_, laid, ?_⟩
  split
  · rename_i both
    rw [both.1]
    exact unheaded_of_layout table lower.unbroken both.2
  · rename_i notBoth
    rw [markdown_of_entries table lower.unbroken]
    cases listed : above.any isArgumentLine with
    | false => rfl
    | true =>
        have bare : (first :: rest).any isArgumentLine = false := by simpa [listed] using notBoth
        rw [layout_without_arguments _ _ ((any_argument_entries 0 _).trans bare)]

/-- Both passages list arguments, two blank lines part them, and the lines are indented. -/
theorem arguments_under_arguments :
    let table : Symbol.Table := ⟨[("fz_a", "fz_a")]⟩
    let above := ["Makes one.".toList, "@param ctx the context".toList]
    let gap := [[], [' ']]
    let below := ["As fz_a.".toList, "@param b, c: NULL".toList]
    let indented :=
      [[], "  Makes one.".toList, "\t@param ctx the context".toList, [], [' '],
      "  As fz_a. ".toList,
      " @param b, c: NULL".toList]
    IsPassage above ∧ IsPassage below ∧ seam gap.length "As fz_a.".toList = "\n\n" ∧
      (∃ continuation, markdownOf table (above ++ gap ++ below) =
        markdownOf table above ++ "\n\n" ++ continuation ∧ IsUnheaded table below continuation) ∧
      markdownOf table indented = markdownOf table (above ++ gap ++ below) ∧
      markdownOf table indented =
        "Makes one.\n# Arguments\n*  ctx the context\n\nAs [`fz_a`](fz_a).\n*  b, c: `NULL`" := by
  intro table above gap below indented
  have unbroken :
      ((above ++ gap ++ below ++ indented).all fun line => line.all fun c => !isLineBreak c) =
      true := by
    decide +kernel
  have solid : ∀ line ∈ above ++ gap ++ below ++ indented, ∀ c ∈ line, isLineBreak c = false := by
    simpa only [List.all_eq_true, Bool.not_eq_true'] using unbroken
  have blankGap : ∀ line ∈ gap, isBlankLine line = true := List.all_eq_true.1 (by decide +kernel)
  have blank : ∀ line ∈ gap, (∀ c ∈ line, isLineBreak c = false) ∧ isBlankLine line :=
    fun line member =>
    ⟨solid line (by simp [member]), blankGap line member⟩
  have upper : IsPassage above :=
    ⟨fun line member => solid line (by simp [member]), ⟨_, _, rfl, by decide +kernel⟩,
    ⟨["Makes one.".toList], _, rfl, by decide +kernel⟩⟩
  have lower : IsPassage below :=
    ⟨fun line member => solid line (by simp [member]), ⟨_, _, rfl, by decide +kernel⟩,
    ⟨["As fz_a.".toList], _, rfl, by decide +kernel⟩⟩
  obtain ⟨⟨continuation, stacked, headed⟩, padded⟩ := markdown_of_stacked table upper lower blank
  have both : above.any isArgumentLine ∧ below.any isArgumentLine := by decide +kernel
  rw [if_pos both] at headed
  have sameLines := padded [[]] [] indented (by decide +kernel) (by decide)
    (fun line member => solid line (by simp [member])) (by decide +kernel)
  have written : String.ofList (textMarkdown (Lookup.ofTable table) (joinLines indented)) =
      "Makes one.\n# Arguments\n*  ctx the context\n\nAs [`fz_a`](fz_a).\n*  b, c: `NULL`" := by
    decide +kernel
  refine ⟨upper, lower, by decide +kernel, ⟨continuation, stacked, headed⟩, sameLines, ?_⟩
  rw [markdownOf, transform, String.toList_ofList, written]

end HeaderDocs.Comment
