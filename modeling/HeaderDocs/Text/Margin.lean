/-!
The common margin of a block of lines: the longest run of blanks and tabs that every line with other
text starts with.
-/

namespace HeaderDocs.Text

def isIndent (c : Char) : Bool :=
  c == ' ' || c == '\t'

def indent (line : List Char) : List Char :=
  line.takeWhile isIndent

def commonStart : List Char → List Char → List Char
  | c :: left, d :: right => if c = d then c :: commonStart left right else []
  | _, _ => []

def isBare (line : List Char) : Bool :=
  line.all isIndent

/-- The longest run of spaces and tabs that every line starts with, lines of nothing else apart. -/
def margin (lines : List (List Char)) : List Char :=
  match (lines.filter fun line => !isBare line).map indent with
  | [] => []
  | first :: others => others.foldl commonStart first

/-- The lines without their common margin; lines of spaces and tabs only become empty. -/
def dropMargin (lines : List (List Char)) : List (List Char) :=
  let width := (margin lines).length
  lines.map fun line => if isBare line then [] else line.drop width

theorem common_start_le_left (left right : List Char) : commonStart left right <+: left := by
  fun_induction commonStart left right with
  | case1 c left right ih => exact List.cons_prefix_cons.2 ⟨rfl, ih⟩
  | case2 => exact List.nil_prefix
  | case3 => exact List.nil_prefix

theorem common_start_le_right (left right : List Char) : commonStart left right <+: right := by
  fun_induction commonStart left right with
  | case1 c left right ih => exact List.cons_prefix_cons.2 ⟨rfl, ih⟩
  | case2 => exact List.nil_prefix
  | case3 => exact List.nil_prefix

theorem le_common_start {start left right : List Char} (ofLeft : start <+: left)
    (ofRight : start <+: right) :
    start <+: commonStart left right := by
  induction start generalizing left right with
  | nil => exact List.nil_prefix
  | cons c start ih =>
      obtain ⟨left, rfl⟩ := ofLeft
      obtain ⟨right, rfl⟩ := ofRight
      rw [List.cons_append, List.cons_append, commonStart, if_pos rfl]
      exact List.cons_prefix_cons.2 ⟨rfl, ih (List.prefix_append _ _) (List.prefix_append _ _)⟩

theorem foldl_common_start_le (first : List Char) (others : List (List Char)) :
    ∀ text ∈ first :: others, others.foldl commonStart first <+: text := by
  induction others generalizing first with
  | nil => simp
  | cons next others ih =>
      have shorter := ih (commonStart first next)
      intro text member
      rcases List.mem_cons.1 member with rfl | later
      · exact (shorter _ (by simp)).trans (common_start_le_left _ next)
      · rcases List.mem_cons.1 later with rfl | further
        · exact (shorter _ (by simp)).trans (common_start_le_right first _)
        · exact shorter text (List.mem_cons_of_mem _ further)

theorem le_foldl_common_start {start first : List Char} {others : List (List Char)}
    (all : ∀ text ∈ first :: others, start <+: text) :
    start <+: others.foldl commonStart first := by
  induction others generalizing first with
  | nil => exact all first (by simp)
  | cons next others ih =>
      apply ih
      intro text member
      rcases List.mem_cons.1 member with rfl | later
      · exact le_common_start (all first (by simp)) (all next (by simp))
      · exact all text (by simp [later])

theorem margin_le {lines : List (List Char)} {line : List Char} (member : line ∈ lines)
    (filled : isBare line = false) : margin lines <+: indent line := by
  have inside : indent line ∈ (lines.filter fun line => !isBare line).map indent :=
    List.mem_map_of_mem (List.mem_filter.2 ⟨member, by simp [filled]⟩)
  unfold margin
  split
  · exact List.nil_prefix
  · rename_i first others same
    rw [same] at inside
    exact foldl_common_start_le first others _ inside

theorem le_margin {lines : List (List Char)} {start : List Char}
    (some : ∃ line ∈ lines, isBare line = false)
    (all : ∀ line ∈ lines, isBare line = false → start <+: indent line) :
    start <+: margin lines := by
  have indents : ∀ text ∈ (lines.filter fun line => !isBare line).map indent, start <+: text := by
    intro text member
    obtain ⟨line, inside, rfl⟩ := List.mem_map.1 member
    obtain ⟨member, filled⟩ := List.mem_filter.1 inside
    exact all line member (by simpa using filled)
  unfold margin
  split
  · rename_i nothing
    obtain ⟨line, member, filled⟩ := some
    have inside : line ∈ lines.filter fun line => !isBare line :=
      List.mem_filter.2 ⟨member, by simp [filled]⟩
    rw [List.map_eq_nil_iff.1 nothing] at inside
    exact absurd inside List.not_mem_nil
  · rename_i first others same
    rw [same] at indents
    exact le_foldl_common_start indents

end HeaderDocs.Text
