import HeaderDocs.Proofs.Comment.Slashes
import HeaderDocs.Proofs.Comment.Stacking
import Mathlib.Data.List.Infix

/-!
Comments of slashes against blocks of the same lines. Both are cleaned to the lines with text, but a
block keeps the empty lines between them and slashes do not. In Markdown one empty line is like
none, two or more part paragraphs, and arguments are never parted. So the two agree in their text
when no empty line stands between others, and in their Markdown when prose never stands below two of
them.
-/

namespace HeaderDocs.Comment

open Text

set_option autoImplicit false

theorem blank_of_line_break {c : Char} (breaks : isLineBreak c = true) : isBlank c = true := by
  simp only [isLineBreak, Bool.or_eq_true, beq_iff_eq] at breaks
  rcases breaks with ((((((((rfl | rfl) | rfl) | rfl) | rfl) | rfl) | rfl) | rfl) | rfl) | rfl
    <;> decide

theorem no_break_of_solid {c : Char} (solid : isBlank c = false) : isLineBreak c = false := by
  by_contra breaks
  rw [blank_of_line_break (by simpa using breaks)] at solid
  simp at solid

theorem not_blank_of_solid {c : Char} {text : List Char} (member : c ∈ text)
    (solid : isBlank c = false) :
    isBlankLine text = false := by
  rw [isBlankLine, List.isEmpty_eq_false_iff, Ne, trim_eq_nil_iff]
  intro blank
  simp [blank c member] at solid

theorem split_lines_solid_end {last : Char} (solid : isLineBreak last = false) (text : List Char) :
    ∃ front line, splitLines (text ++ [last]) = front ++ [line ++ [last]] ∧
      ∀ rest, splitLines (text ++ last :: '\n' :: rest) = front ++ (line ++ [last]) ::
        splitLines rest := by
  have notFeed : last ≠ '\n' := by
    rintro rfl
    exact absurd solid (by decide)
  have apart {c : Char} {others : List Char} (unpaired : ∀ rest, c = '\r' →
      others = '\n' :: rest → False)
      (more : List Char) : c = '\r' → (others ++ last :: more).head? ≠ some '\n' := by
    intro isReturn
    cases others with
    | nil => simpa using notFeed
    | cons d further =>
        intro feed
        exact unpaired further isReturn (by rw [Option.some.inj feed])
  fun_induction splitLines text with
  | case1 =>
      refine ⟨[], [], split_lines_solid solid [], fun rest => ?_⟩
      rw [List.nil_append, split_lines_solid solid, split_lines_cons (by decide)]
      rfl
  | case2 rest ih =>
      obtain ⟨front, line, alone, above⟩ := ih
      exact ⟨[] :: front, line, congrArg ([] :: ·) alone,
        fun below => congrArg ([] :: ·) (above below)⟩
  | case3 c others unpaired breaks ih =>
      obtain ⟨front, line, alone, above⟩ := ih
      refine ⟨[] :: front, line, ?_, fun below => ?_⟩
      · rw [List.cons_append, split_lines_cons_apart (apart unpaired _), if_pos breaks, alone,
          List.cons_append]
      · rw [List.cons_append, split_lines_cons_apart (apart unpaired _), if_pos breaks, above,
          List.cons_append]
  | case4 c others unpaired noBreak ih =>
      obtain ⟨front, line, alone, above⟩ := ih
      have longer (rest : List Char) (parts : List (List Char))
          (split : splitLines (others ++ last :: rest) = front ++ (line ++ [last]) :: parts) :
          splitLines (c :: others ++ last :: rest) =
            lengthenFirst c (front ++ (line ++ [last]) :: parts) := by
        rw [List.cons_append, split_lines_cons_apart (apart unpaired _), if_neg noBreak, split]
      cases front with
      | nil => exact ⟨[], c :: line, longer _ _ alone, fun below => longer _ _ (above below)⟩
      | cons first further =>
          exact ⟨(c :: first) :: further, line, longer _ _ alone,
            fun below => longer _ _ (above below)⟩

theorem head_split_lines {c : Char} (rest : List Char) :
    ∃ others, splitLines (c :: rest) = ((c :: rest).takeWhile fun d => !isLineBreak d) ::
      others := by
  induction rest generalizing c with
  | nil =>
      by_cases breaks : isLineBreak c = true
      · exact ⟨[], by rw [split_lines_cons_apart (by simp), if_pos breaks]; simp [breaks]⟩
      · exact ⟨[], by rw [split_lines_cons_apart (by simp), if_neg breaks]; simp [breaks,
          lengthenFirst]⟩
  | cons d further ih =>
      by_cases breaks : isLineBreak c = true
      · rw [List.takeWhile_cons_of_neg (by simp [breaks])]
        by_cases paired : c = '\r' ∧ d = '\n'
        · obtain ⟨rfl, rfl⟩ := paired
          exact ⟨splitLines further, rfl⟩
        · refine ⟨splitLines (d :: further), ?_⟩
          rw [split_lines_cons_apart (fun isReturn feed => paired ⟨isReturn, by simpa using feed⟩),
            if_pos breaks]
      · obtain ⟨others, split⟩ := @ih d
        refine ⟨others, ?_⟩
        have goesOn :=
          @List.takeWhile_cons_of_pos _ (fun d => !isLineBreak d) c (d :: further)
            (by simpa using breaks)
        rw [split_lines_solid (by simpa using breaks), split, goesOn]
        rfl

theorem trim_right_past {last : Char} (solid : isBlank last = false) (text rest : List Char) :
    trimRight (text ++ last :: rest) = text ++ last :: trimRight rest := by
  rw [trimRight, List.reverse_append, List.reverse_cons, List.append_assoc, List.dropWhile_append]
  split
  · rename_i empty
    rw [List.singleton_append, List.dropWhile_cons_of_neg (by simp [solid]), trimRight,
      List.isEmpty_iff.1 empty]
    simp
  · simp [trimRight]

theorem trim_right_starts (text : List Char) : trimRight text <+: text := by
  rw [trimRight, ← List.reverse_suffix, List.reverse_reverse]
  exact List.dropWhile_suffix isBlank

theorem is_argument_of_first {c : Char} {rest : List Char}
    (trimmed : trim (c :: rest) = c :: rest) :
    isArgumentLine ((c :: rest).takeWhile fun d => !isLineBreak d) =
      isArgumentLine (c :: rest) := by
  have solid := solid_head trimmed
  have left : trimLeft ((c :: rest).takeWhile fun d => !isLineBreak d) =
      (c :: rest).takeWhile fun d => !isLineBreak d := by
    rw [List.takeWhile_cons_of_pos (by simp [no_break_of_solid solid])]
    exact trim_left_cons solid _
  rw [isArgumentLine, isArgumentLine, trimmed, trim, left, Bool.eq_iff_iff, startsWith, startsWith,
    List.isPrefixOf_iff_prefix, List.isPrefixOf_iff_prefix]
  constructor
  · intro marked
    exact (marked.trans (trim_right_starts _)).trans (List.takeWhile_prefix _)
  · rintro ⟨text, marked⟩
    have noBreak : ∀ d ∈ argumentMarker, (!isLineBreak d) = true := List.all_eq_true.1 (by decide)
    have ending : argumentMarker = "@para".toList ++ ['m'] := rfl
    rw [← marked, List.takeWhile_append_of_pos noBreak, ending, List.append_assoc,
      List.singleton_append, trim_right_past (by decide)]
    exact ⟨trimRight (text.takeWhile fun d => !isLineBreak d), by simp⟩

theorem entries_of_empty_line (gap : Nat) (rest : List (List Char)) :
    entriesAfter gap (splitLines (joinLines ([] :: rest))) =
      entriesAfter (gap + 1) (splitLines (joinLines rest)) := by
  by_cases more : rest = []
  · rw [more]
    rfl
  · rw [join_lines_cons [] more, List.nil_append, split_lines_cons (by decide)]
    exact entries_after_blank rfl _

theorem split_trimmed_line {line : List Char} (filled : line ≠ []) (trimmed : trim line = line) :
    ∃ first parts, isBlankLine first = false ∧ isArgumentLine first = isArgumentLine line ∧
      ∀ gap rest, entriesAfter gap (splitLines (joinLines (line :: rest))) =
        entriesAfter gap (first :: parts) ++ entriesAfter 0 (splitLines (joinLines rest)) := by
  obtain ⟨body, last, rfl⟩ := (List.eq_nil_or_concat' line).resolve_left filled
  have solidEnd : isBlank last = false := (trim_eq_self.1 trimmed).2 last (by simp)
  obtain ⟨front, ending, alone, above⟩ := split_lines_solid_end (no_break_of_solid solidEnd) body
  have solidPart : isBlankLine (ending ++ [last]) = false := not_blank_of_solid (by simp) solidEnd
  obtain ⟨c, others, starts⟩ := List.exists_cons_of_ne_nil filled
  rw [starts] at trimmed alone ⊢
  obtain ⟨parts, split⟩ := head_split_lines (c := c) others
  refine ⟨_, parts, ?_, is_argument_of_first trimmed, fun gap rest => ?_⟩
  · have solidStart := solid_head trimmed
    apply not_blank_of_solid (c := c) _ solidStart
    rw [List.takeWhile_cons_of_pos (by simp [no_break_of_solid solidStart])]
    exact List.mem_cons_self
  · rw [← split, alone, ← entries_below_text gap front solidPart]
    by_cases more : rest = []
    · rw [more, join_lines_singleton, alone, join_lines_nil, split_lines_nil]
    · rw [join_lines_cons _ more, ← starts, List.append_assoc, List.singleton_append, above]

/-- A trimmed line opens with an entry that counts the blank lines before it, and all else of it is
the same wherever it stands. -/
theorem entries_of_text_line {line : List Char} (filled : line ≠ []) (trimmed : trim line = line) :
    ∃ text later, ∀ gap rest, entriesAfter gap (splitLines (joinLines (line :: rest))) =
      (⟨isArgumentLine line, gap, text⟩ :: later) ++
        entriesAfter 0 (splitLines (joinLines rest)) := by
  obtain ⟨first, parts, solid, sameMark, split⟩ := split_trimmed_line filled trimmed
  refine ⟨(Entry.ofLine 0 (trim first)).text, entriesAfter 0 parts, fun gap rest => ?_⟩
  have entry : Entry.ofLine gap (trim first) =
      ⟨isArgumentLine line, gap, (Entry.ofLine 0 (trim first)).text⟩ := by
    rw [← sameMark, ← is_argument_of_line gap first]
    unfold Entry.ofLine
    split <;> rfl
  rw [split, entries_after_text solid, entry]

def seamIn (started : Bool) (gap : Nat) (line : List Char) : List Char :=
  if started then (seam gap line).toList else []

/-- Prose stands below two or more empty lines that have text above them. -/
def isWide (started : Bool) (gap : Nat) (line : List Char) : Bool :=
  started && decide (2 ≤ gap) && !isArgumentLine line

/-- A narrow seam of prose is longer than a wide one by two characters; all other seams are
alike. -/
theorem seam_narrowed (started : Bool) (gap : Nat) (line : List Char) :
    (seamIn started 0 line).length = (seamIn started gap line).length +
      2 * (isWide started gap line).toNat ∧
      (isWide started gap line = false → seamIn started 0 line = seamIn started gap line) := by
  unfold seamIn isWide seam
  cases started with
  | false => simp
  | true =>
      by_cases isArgument : isArgumentLine line = true
      · simp [isArgument]
      · by_cases wide : 2 ≤ gap
        · simp [isArgument, wide]
        · simp [isArgument, wide]

section Layout

variable (lookup : Lookup)

def layoutOf (started listed : Bool) (gap : Nat) (lines : List (List Char)) : List Char :=
  layout lookup started listed (entriesAfter gap (splitLines (joinLines lines)))

theorem layout_of_empty_line (started listed : Bool) (gap : Nat) (rest : List (List Char)) :
    layoutOf lookup started listed gap ([] :: rest) =
      layoutOf lookup started listed (gap + 1) rest := by
  rw [layoutOf, entries_of_empty_line, layoutOf]

/-- Of the blank lines above a text only the seam between it and what stands above them depends. -/
theorem layout_of_text_line {line : List Char} (filled : line ≠ []) (trimmed : trim line = line) :
    ∃ (shown : Bool → List Char) (lists : Bool), ∀ started listed gap rest,
      layoutOf lookup started listed gap (line :: rest) =
        seamIn started gap line ++ shown listed ++
          layoutOf lookup true (listed || lists) 0 rest := by
  obtain ⟨text, later, split⟩ := entries_of_text_line filled trimmed
  refine ⟨fun listed => Entry.bullet ⟨isArgumentLine line, 0, text⟩ listed ++
    lineMarkdown lookup text ++ layout lookup true (listed || isArgumentLine line) later,
    (⟨isArgumentLine line, 0, text⟩ :: later).any Entry.isArgument,
    fun started listed gap rest => ?_⟩
  have separator : Entry.separator ⟨isArgumentLine line, gap, text⟩ = (seam gap line).toList := by
    unfold Entry.separator seam
    simp only
    split_ifs <;> rfl
  rw [layoutOf, split, layout_append, layout, separator, layoutOf]
  simp [Entry.bullet, seamIn]

def wideSeams : (started : Bool) → (gap : Nat) → List (List Char) → Nat
  | _, _, [] => 0
  | started, gap, line :: rest =>
      if line.isEmpty then wideSeams started (gap + 1) rest
      else (isWide started gap line).toNat + wideSeams true 0 rest

/-- Without the empty lines each wide seam becomes a narrow one, which is longer by two
characters. -/
theorem layout_of_filled {lines : List (List Char)} (trimmed : ∀ line ∈ lines, trim line = line)
    (started listed : Bool) (gap : Nat) :
    (layoutOf lookup started listed 0 (filledLines lines)).length =
        (layoutOf lookup started listed gap lines).length + 2 * wideSeams started gap lines ∧
      (wideSeams started gap lines = 0 →
        layoutOf lookup started listed 0 (filledLines lines) =
          layoutOf lookup started listed gap lines) := by
  induction lines generalizing started listed gap with
  | nil => simp [wideSeams, filledLines, layoutOf, entriesAfter]
  | cons line rest ih =>
      have others := fun other member => trimmed other (List.mem_cons_of_mem line member)
      by_cases empty : line = []
      · subst empty
        rw [filled_lines_empty, layout_of_empty_line]
        exact ih others started listed (gap + 1)
      · obtain ⟨shown, lists, laid⟩ := layout_of_text_line lookup empty (trimmed line (by simp))
        obtain ⟨longer, same⟩ := ih others true (listed || lists) 0
        rw [filled_lines_text empty, laid, laid, wideSeams, if_neg (by simpa using empty)]
        obtain ⟨longerSeam, sameSeam⟩ := seam_narrowed started gap line
        constructor
        · simp only [List.length_append, longer, longerSeam]
          omega
        · intro narrow
          have seams : isWide started gap line = false := by
            cases wide : isWide started gap line with
            | false => rfl
            | true => simp [wide] at narrow
          rw [sameSeam seams, same (by omega)]

end Layout

/-- Two empty lines stand right above a line in front of others when there are two of them, or
further down. -/
theorem two_empty_above_iff {line other : List Char} (filled : line ≠ []) (text : other ≠ [])
    (gap : Nat) (rest : List (List Char)) :
    [[], [], other] <:+: List.replicate gap [] ++ line :: rest ↔
      (2 ≤ gap ∧ other = line) ∨ [[], [], other] <:+: rest := by
  induction gap with
  | zero => simp [List.infix_cons_iff, List.cons_prefix_cons, filled.symm]
  | succ gap ih =>
      have starts : [[], [], other] <+: [] :: (List.replicate gap [] ++ line :: rest) ↔
          gap = 1 ∧ other = line := by
        rw [List.cons_prefix_cons]
        rcases gap with _ | _ | gap
        · simp [List.cons_prefix_cons, filled.symm]
        · simp [List.cons_prefix_cons]
        · simp [List.replicate_succ, List.cons_prefix_cons, text]
      rw [List.replicate_succ, List.cons_append, List.infix_cons_iff, starts, ih, ← or_assoc,
        ← or_and_right]
      have counts : gap = 1 ∨ 2 ≤ gap ↔ 2 ≤ gap + 1 := by omega
      rw [counts]

theorem wide_seams_eq_zero_iff (gap : Nat) (lines : List (List Char)) :
    wideSeams true gap lines = 0 ↔
      ∀ line, line ≠ [] → [[], [], line] <:+: List.replicate gap [] ++ lines →
        isArgumentLine line = true := by
  induction lines generalizing gap with
  | nil =>
      refine iff_of_true rfl fun line filled inside => ?_
      have member := inside.subset (show line ∈ [[], [], line] by simp)
      exact absurd (List.eq_of_mem_replicate (by simpa using member)) filled
  | cons first rest ih =>
      by_cases empty : first = []
      · subst empty
        have moved : List.replicate gap [] ++ [] :: rest =
            List.replicate (gap + 1) ([] : List Char) ++ rest := by
          rw [List.replicate_succ', List.append_assoc, List.singleton_append]
        rw [moved, ← ih (gap + 1)]
        rfl
      · have later := ih 0
        rw [List.replicate_zero, List.nil_append] at later
        have seams : wideSeams true gap (first :: rest) =
            (isWide true gap first).toNat + wideSeams true 0 rest := by
          rw [wideSeams, if_neg (by simpa using empty)]
        rw [seams, Nat.add_eq_zero_iff, later]
        constructor
        · rintro ⟨narrow, below⟩ line filled inside
          rcases (two_empty_above_iff empty filled gap rest).1 inside with ⟨wide, rfl⟩ | further
          · simpa [isWide, wide] using narrow
          · exact below line filled further
        · intro all
          constructor
          · by_cases wide : 2 ≤ gap
            · have isArgument :=
                all first empty ((two_empty_above_iff empty empty gap rest).2 (Or.inl ⟨wide, rfl⟩))
              simp [isWide, isArgument]
            · simp [isWide, wide]
          · intro line filled inside
            exact all line filled ((two_empty_above_iff empty filled gap rest).2 (Or.inr inside))

theorem wide_seams_of_inner {lines : List (List Char)} (starts : lines.head? ≠ some []) :
    wideSeams false 0 lines = 0 ↔
      ∀ line, line ≠ [] → [[], [], line] <:+: lines → isArgumentLine line = true := by
  cases lines with
  | nil => exact iff_of_true rfl (by simp)
  | cons first rest =>
      have filled : first ≠ [] := by simpa using starts
      have seams : wideSeams false 0 (first :: rest) = wideSeams true 0 rest := by
        simp [wideSeams, filled, isWide]
      have inside (line : List Char) : [[], [], line] <:+: first :: rest ↔
          [[], [], line] <:+: rest := by
        simp [List.infix_cons_iff, List.cons_prefix_cons, filled.symm]
      simp only [seams, inside]
      exact wide_seams_eq_zero_iff 0 rest

theorem transform_of_lines (table : Symbol.Table) (lines : List (List Char)) :
    transform table (String.ofList (joinLines lines)) =
      String.ofList (layoutOf (Lookup.ofTable table) false false 0 lines) := by
  rw [transform, textMarkdown, entries, String.toList_ofList, layoutOf]

theorem markdown_of_filled_iff (table : Symbol.Table) {lines : List (List Char)}
    (plain : IsTrimmed lines) :
    transform table (String.ofList (joinLines (filledLines lines))) =
        transform table (String.ofList (joinLines (innerLines lines))) ↔
      ∀ line, line ≠ [] → [[], [], line] <:+: innerLines lines → isArgumentLine line = true := by
  rw [transform_of_lines, transform_of_lines, String.ofList_inj, ← filled_inner_lines,
    ← wide_seams_of_inner (head_inner_lines lines)]
  obtain ⟨longer, same⟩ := layout_of_filled (Lookup.ofTable table)
    (fun line member => plain.trimmed line (inner_lines_subset lines member)) false false 0
  refine ⟨fun alike => ?_, same⟩
  rw [alike] at longer
  omega

/-- Of trimmed lines behind slashes those with text are left, and of a block of them also the empty
lines between those. The two are the same text exactly when no empty line stands between others, and
they become the same Markdown exactly when each line with text that stands below two empty lines
inside describes an argument. -/
theorem slashes_agree_iff {lines : List (List Char)} (some : lines ≠ []) (plain : IsTrimmed lines) :
    clean (String.ofList (slashes lines)) = String.ofList (joinLines (filledLines lines)) ∧
      (∀ opener ∈ blockOpeners,
        clean (String.ofList (starBlock opener lines)) = strip (String.ofList (joinLines lines))) ∧
      (clean (String.ofList (slashes lines)) = strip (String.ofList (joinLines lines)) ↔
        [] ∉ innerLines lines) ∧
      ∀ table : Symbol.Table,
        transform table (clean (String.ofList (slashes lines))) =
            transform table (strip (String.ofList (joinLines lines))) ↔
          ∀ line, line ≠ [] → [[], [], line] <:+: innerLines lines →
            isArgumentLine line = true := by
  have cleaned : clean (String.ofList (slashes lines)) =
      String.ofList (joinLines (filledLines lines)) := by
    rw [clean, String.toList_ofList, clean_slashes some plain]
  have stripped : strip (String.ofList (joinLines lines)) =
      String.ofList (joinLines (innerLines lines)) := by
    rw [strip, String.toList_ofList, trim_join_inner plain.trimmed]
  refine ⟨cleaned, ?_, ?_, ?_⟩
  · intro opener isOpener
    rw [clean, strip, String.toList_ofList, String.toList_ofList,
      clean_star_block isOpener plain.is_flush]
  · rw [cleaned, stripped, String.ofList_inj, join_filled_iff plain]
  · intro table
    rw [cleaned, stripped, markdown_of_filled_iff table plain]

/-- An empty line between two others is lost behind slashes, without a trace in the Markdown; so are
two above an argument. -/
theorem gaps_without_paragraphs :
    let lines := ["One.".toList, [], "Two.".toList, [], [], "@param a".toList]
    let table : Symbol.Table := {}
    lines ≠ [] ∧ IsTrimmed lines ∧
      String.ofList (slashes lines) = "/// One.\n///\n/// Two.\n///\n///\n/// @param a" ∧
      clean (String.ofList (slashes lines)) = "One.\nTwo.\n@param a" ∧
      clean (String.ofList (slashes lines)) ≠ strip (String.ofList (joinLines lines)) ∧
      transform table (clean (String.ofList (slashes lines))) = "One.<br>Two.\n# Arguments\n*  a" ∧
      ∀ line, line ≠ [] → [[], [], line] <:+: innerLines lines → isArgumentLine line = true := by
  intro lines table
  have plain : IsTrimmed lines := ⟨by decide +kernel, by decide +kernel⟩
  obtain ⟨cleaned, -, agrees, markdown⟩ := slashes_agree_iff (by decide) plain
  refine ⟨by decide, plain, by decide +kernel, cleaned.trans (by decide +kernel), ?_, by
    decide +kernel, ?_⟩
  · rw [Ne, agrees, not_not]
    decide +kernel
  · exact (markdown table).1 (by decide +kernel)

/-- Two empty lines between paragraphs: behind slashes the paragraphs run together. -/
theorem slashes_lose_empty_lines :
    ¬∀ lines : List (List Char), lines ≠ [] → IsTrimmed lines →
      clean (String.ofList (slashes lines)) = strip (String.ofList (joinLines lines)) := by
  intro same
  let lines := ["One.".toList, [], [], "Two.".toList]
  have alike := same lines (by decide) ⟨by decide +kernel, by decide +kernel⟩
  exact absurd alike (by decide +kernel)

end HeaderDocs.Comment
