import HeaderDocs.Declaration.Render
import HeaderDocs.Proofs.Comment.Links

/-!
Headings in docs put at another level. Nothing but the marks of headings is touched, and no link has
a mark in it, so a reader finds the same links before and after. The argument does not look for
headings: any marks may be replaced.
-/

namespace HeaderDocs.Declaration

set_option autoImplicit false

open Text Comment

/-- A text with some of its marks replaced by others. -/
inductive Shifted (marks : List Char) : List Char → List Char → Prop
  | done : Shifted marks [] []
  | kept (c : Char) {text after : List Char} (rest : Shifted marks text after) :
      Shifted marks (c :: text) (c :: after)
  | marked {text after : List Char} (rest : Shifted marks text after) :
      Shifted marks ('#' :: text) (marks ++ after)

variable {marks : List Char}

theorem shifted_same (text : List Char) : Shifted marks text text := by
  induction text with
  | nil => exact .done
  | cons c rest ih => exact .kept c ih

theorem shifted_append {left right leftAfter rightAfter : List Char}
    (shiftedLeft : Shifted marks left leftAfter) (shiftedRight : Shifted marks right rightAfter) :
    Shifted marks (left ++ right) (leftAfter ++ rightAfter) := by
  induction shiftedLeft with
  | done => exact shiftedRight
  | kept c rest ih => exact .kept c ih
  | marked rest ih =>
      rw [List.append_assoc]
      exact .marked ih

theorem shift_line_shifted (level : Int) (line : List Char) :
    Shifted (headingMarks level) line (shiftLine level line) := by
  unfold shiftLine
  split
  · exact .marked (shifted_same _)
  · exact shifted_same line

theorem shift_lines_shifted (level : Int) (lines : List (List Char)) :
    Shifted (headingMarks level) (joinLines lines) (joinLines (lines.map (shiftLine level))) := by
  induction lines with
  | nil => exact .done
  | cons line rest ih =>
      cases rest with
      | nil =>
          simp only [joinLines, List.map_cons, List.map_nil, List.intercalate_singleton]
          exact shift_line_shifted level line
      | cons next others =>
          simp only [joinLines, List.map_cons, List.intercalate_cons_cons] at ih ⊢
          apply shifted_append
          · exact shifted_append (shift_line_shifted level line) (shifted_same _)
          · exact ih

theorem shift_headings_shifted (level : Int) (markdown : String) :
    Shifted (headingMarks (level + 1)) markdown.toList (shiftHeadings level markdown).toList := by
  have shifted := shift_lines_shifted (level + 1) (markdown.toList.splitOn '\n')
  rw [joinLines, List.intercalate_splitOn] at shifted
  rw [shiftHeadings, String.toList_ofList]
  exact shifted

theorem shifted_past {left right after : List Char} (unmarked : '#' ∉ left)
    (shifted : Shifted marks (left ++ right) after) :
    ∃ rest, after = left ++ rest ∧ Shifted marks right rest := by
  induction left generalizing after with
  | nil => exact ⟨after, rfl, shifted⟩
  | cons c others ih =>
      simp only [List.mem_cons, not_or] at unmarked
      rw [List.cons_append] at shifted
      generalize same : c :: (others ++ right) = text at shifted
      cases shifted with
      | done => simp at same
      | kept d shiftedRest =>
          obtain ⟨rfl, rfl⟩ := List.cons.inj same
          obtain ⟨rest, rfl, shiftedRight⟩ := ih unmarked.2 shiftedRest
          exact ⟨rest, rfl, shiftedRight⟩
      | marked shiftedRest => exact absurd (List.cons.inj same).1.symm unmarked.1

theorem code_link_unmarked {name target : List Char} (inName : '#' ∉ name)
    (inTarget : '#' ∉ target) :
    '#' ∉ codeLink name target := by
  simp [codeLink, inlineCode, inName, inTarget]

open Segment in
theorem shifted_segments (onlyMarks : ∀ c ∈ marks, c = '#') {segments : List Segment}
    {escaped : Bool} (guarded : Guarded escaped segments)
    (legible : ∀ segment ∈ segments, segment.Legible)
    (unmarked : ∀ link ∈ segments.filterMap link?, '#' ∉ link.1 ∧ '#' ∉ link.2) {after : List Char}
    (shifted : Shifted marks (write segments) after) :
    ∃ others, after = write others ∧ Guarded escaped others ∧
      (∀ segment ∈ others, segment.Legible) ∧
      others.filterMap link? = segments.filterMap link? := by
  induction segments generalizing escaped after with
  | nil =>
      cases shifted
      exact ⟨[], rfl, trivial, by simp, rfl⟩
  | cons segment rest ih =>
      have restLegible := fun later member => legible later (List.mem_cons_of_mem _ member)
      cases segment with
      | plain c =>
          have restUnmarked : ∀ link ∈ rest.filterMap link?, '#' ∉ link.1 ∧ '#' ∉ link.2 := by
            simpa [List.filterMap_cons, link?] using unmarked
          rw [write_cons, Segment.text, List.singleton_append] at shifted
          generalize same : c :: write rest = text at shifted
          cases shifted with
          | done => simp at same
          | kept d shiftedRest =>
              obtain ⟨rfl, rfl⟩ := List.cons.inj same
              obtain ⟨others, rfl, guardedOthers, legibleOthers, sameLinks⟩ :=
                ih guarded.2 restLegible restUnmarked shiftedRest
              refine ⟨plain c :: others, rfl, ⟨guarded.1, guardedOthers⟩, ?_, ?_⟩
              · simpa [Legible] using legibleOthers
              · simpa [List.filterMap_cons, link?] using sameLinks
          | marked shiftedRest =>
              obtain ⟨rfl, rfl⟩ := List.cons.inj same
              obtain ⟨others, rfl, guardedOthers, legibleOthers, sameLinks⟩ :=
                ih guarded.2 restLegible restUnmarked shiftedRest
              have closeless : ']' ∉ marks := fun member => absurd (onlyMarks _ member) (by decide)
              refine ⟨plains marks ++ others, by simp,
                guarded_append (guarded_plains closeless) guardedOthers, ?_, ?_⟩
              · intro segment member
                rcases List.mem_append.1 member with own | later
                · exact plains_legible marks segment own
                · exact legibleOthers segment later
              · rw [List.filterMap_append, links_plains, sameLinks]
                rfl
      | link name target =>
          have own := unmarked (name, target) (by simp [link?])
          have restUnmarked : ∀ link ∈ rest.filterMap link?, '#' ∉ link.1 ∧ '#' ∉ link.2 := by
            intro link member
            exact unmarked link (by simp [link?, member])
          rw [write_cons, Segment.text] at shifted
          obtain ⟨further, rfl, shiftedRest⟩ :=
            shifted_past (code_link_unmarked own.1 own.2) shifted
          obtain ⟨others, rfl, guardedOthers, legibleOthers, sameLinks⟩ :=
            ih (show Guarded false rest from guarded) restLegible restUnmarked shiftedRest
          refine ⟨link name target :: others, rfl, guardedOthers, ?_, ?_⟩
          · intro segment member
            rcases List.mem_cons.1 member with rfl | later
            · exact legible _ (by simp)
            · exact legibleOthers segment later
          · simpa [List.filterMap_cons, link?] using sameLinks

/-- A reader finds the same links in the Markdown of a comment whatever the level of its
headings. -/
theorem found_links_shift {table : Symbol.Table} (aimed : Aimed (Lookup.ofTable table))
    (text : String) (level : Int)
    (unmarked : ∀ link ∈ foundLinks (transform table text), '#' ∉ link.1 ∧ '#' ∉ link.2) :
    foundLinks (shiftHeadings level (transform table text)) =
      foundLinks (transform table text) := by
  have whole := read_text_markdown aimed text.toList
  have written : (transform table text).toList =
      Segment.write (layoutSegments (Lookup.ofTable table) false false (entries text.toList)) := by
    rw [write_layout_segments, transform, String.toList_ofList, textMarkdown]
  have found : foundLinks (transform table text) =
      (layoutSegments (Lookup.ofTable table) false false (entries text.toList)).filterMap
        Segment.link? := by
    rw [foundLinks, transform, String.toList_ofList, whole]
  have shifted := shift_headings_shifted level (transform table text)
  rw [written] at shifted
  rw [found] at unmarked ⊢
  have onlyMarks : ∀ c ∈ headingMarks (level + 1), c = '#' :=
    fun c member => List.eq_of_mem_replicate member
  obtain ⟨others, after, guarded, legible, sameLinks⟩ := shifted_segments onlyMarks
    (layout_segments_guarded _ _ _ _) (layout_segments_legible aimed _ _ _) unmarked shifted
  rw [foundLinks, after, Segment.read_write guarded legible, sameLinks]

end HeaderDocs.Declaration
