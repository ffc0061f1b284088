import HeaderDocs.Proofs.Comment.Links

/-!
Markdown of a line with its markup taken away. Three passes work on a line, and each sees what the
one before it wrote: brackets are escaped and `NULL` is set as code, mentions become links or code,
parameter names are set as code. Backslashes, backticks and the frames of links are all that they
bring, so the line comes back when these are erased: no character of it is lost, doubled or moved,
not even the `s` of a plural, which leaves its link.
-/

namespace HeaderDocs.Comment

open Text Segment

set_option autoImplicit false

/-- What a segment says to a reader: a link says its name. -/
def Segment.said : Segment → List Char
  | plain c => [c]
  | link name _ => name

def withoutMarks (text : List Char) : List Char :=
  text.filter fun c => c != '\x60' && c != '\\'

/-- Markdown with each link that a reader finds replaced by its name, and then without backticks and
backslashes. -/
def plainText (markdown : String) : String :=
  String.ofList (withoutMarks ((read markdown.toList).flatMap said))

def lineLinks (table : Symbol.Table) (line : String) : List (List Char × List Char) :=
  (pieces (escapeText line.toList)).filterMap (Piece.link? (Lookup.ofTable table))

@[simp] theorem without_marks_append (left right : List Char) :
    withoutMarks (left ++ right) = withoutMarks left ++ withoutMarks right :=
  List.filter_append left right

theorem without_marks_cons (c : Char) (text : List Char) :
    withoutMarks (c :: text) = withoutMarks [c] ++ withoutMarks text :=
  without_marks_append [c] text

@[simp] theorem without_marks_tick (text : List Char) :
    withoutMarks ('\x60' :: text) = withoutMarks text :=
  rfl

@[simp] theorem without_marks_backslash (text : List Char) :
    withoutMarks ('\\' :: text) = withoutMarks text :=
  rfl

theorem without_marks_eq_self {text : List Char} (bare : ∀ c ∈ text, c ≠ '\x60' ∧ c ≠ '\\') :
    withoutMarks text = text := by
  rw [withoutMarks, List.filter_eq_self]
  intro c member
  simp [bare c member]

theorem without_marks_inline_code (name : List Char) :
    withoutMarks (inlineCode name) = withoutMarks name := by
  rw [inlineCode, without_marks_tick, without_marks_append, without_marks_tick]
  exact List.append_nil _

theorem without_marks_escape_brackets (afterBackslash : Bool) (text : List Char) :
    withoutMarks (escapeBrackets afterBackslash text) = withoutMarks text := by
  fun_induction escapeBrackets afterBackslash text with
  | case1 => rfl
  | case2 afterBackslash c rest bare ih =>
      rw [without_marks_backslash, without_marks_cons, ih, ← without_marks_cons]
  | case3 afterBackslash c rest kept ih => rw [without_marks_cons, ih, ← without_marks_cons]

theorem without_marks_code_nulls (afterTick : Bool) (text : List Char) :
    withoutMarks (codeNulls afterTick text) = withoutMarks text := by
  fun_induction codeNulls afterTick text with
  | case1 afterTick rest alone ih =>
      have framed : '\x60' :: 'N' :: 'U' :: 'L' :: 'L' :: '\x60' :: codeNulls false rest =
          inlineCode "NULL".toList ++ codeNulls false rest := rfl
      rw [framed, without_marks_append, without_marks_inline_code, ih, ← without_marks_append]
      rfl
  | case2 afterTick rest beside ih => exact congrArg ("NULL".toList ++ ·) ih
  | case3 afterTick c rest _ ih => rw [without_marks_cons, ih, ← without_marks_cons]
  | case4 => rfl

theorem without_marks_escape_text (line : List Char) :
    withoutMarks (escapeText line) = withoutMarks line :=
  (without_marks_code_nulls false _).trans (without_marks_escape_brackets false line)

theorem without_marks_code_names (names : List (List Char)) :
    withoutMarks (codeNames names) = withoutMarks (List.intercalate [',', ' '] names) := by
  unfold codeNames
  induction names with
  | nil => rfl
  | cons name rest ih =>
      cases rest with
      | nil => simpa using without_marks_inline_code name
      | cons next further =>
          rw [List.map_cons, List.map_cons, List.intercalate_cons_cons, List.intercalate_cons_cons,
            without_marks_append, without_marks_append, without_marks_inline_code, ← List.map_cons,
            ih, without_marks_append, without_marks_append]

theorem without_marks_mark_parameters (text : List Char) :
    withoutMarks (markParameters text) = withoutMarks text := by
  unfold markParameters
  cases cut : cutAtPair ':' ' ' text with
  | none => rfl
  | some parts =>
      obtain ⟨names, description⟩ := parts
      simp only
      split
      · rw [without_marks_append, without_marks_code_names, join_split_at_pairs,
          ← without_marks_append, append_of_cut_at_pair cut]
      · rfl

theorem said_plains (text : List Char) : (plains text).flatMap said = text := by
  rw [plains, List.flatMap_map]
  exact List.flatMap_singleton' text

/-- However a name is shown, it is all that is said. -/
theorem said_shown (lookup : Lookup) (name : List Char) :
    withoutMarks ((Shown.ofName lookup name).segments.flatMap said) = withoutMarks name := by
  have code : withoutMarks ((Shown.code name).segments.flatMap said) = withoutMarks name := by
    rw [Shown.segments, said_plains, without_marks_inline_code]
  have shown := shown_as lookup name
  generalize Shown.ofName lookup name = form at shown ⊢
  cases shown with
  | pointer starred => exact code
  | linked starless known => simp [Shown.segments, said]
  | plural starless unknown ending known => simp [Shown.segments, said, ending]
  | unknown starless unknown noSingular => exact code

theorem said_pieces (lookup : Lookup) (pieces : List Piece) :
    withoutMarks ((pieces.flatMap (Piece.segments lookup)).flatMap said) =
      withoutMarks (pieces.flatMap Piece.source) := by
  induction pieces with
  | nil => rfl
  | cons piece rest ih =>
      have own : withoutMarks ((piece.segments lookup).flatMap said) =
          withoutMarks piece.source := by
        cases piece with
        | plain c => rfl
        | mention name => exact said_shown lookup name
      rw [List.flatMap_cons, List.flatMap_append, without_marks_append, own, ih, List.flatMap_cons,
        without_marks_append]

theorem said_mark_segments (segments : List Segment) :
    withoutMarks ((markSegments segments).flatMap said) = withoutMarks (segments.flatMap said) := by
  obtain ⟨opening, rest, split, -, marked⟩ := mark_segments_split segments
  rw [marked, split, List.flatMap_append, List.flatMap_append, said_plains, said_plains,
    without_marks_append, without_marks_append, without_marks_mark_parameters]

theorem said_line (lookup : Lookup) (line : List Char) :
    withoutMarks ((lineSegments lookup line).flatMap said) = withoutMarks line := by
  rw [lineSegments, said_mark_segments, said_pieces, pieces_source, without_marks_escape_text]

theorem read_line_markdown {lookup : Lookup} (aimed : Aimed lookup) (line : List Char) :
    read (lineMarkdown lookup line) = lineSegments lookup line := by
  rw [← write_line_segments]
  exact read_write (line_segments_guarded lookup line) (line_segments_legible aimed line)

theorem mark_link_escape (table : Symbol.Table) (line : String) :
    (markParameterNames (link table (escape line))).toList =
      lineMarkdown (Lookup.ofTable table) line.toList := by
  simp only [markParameterNames, link, escape, String.toList_ofList]
  rfl

/-- The links in the Markdown of a line are those that its mentions were given. When each of them is
replaced by its name and all backticks and backslashes are deleted, a line that had none of its own
is there again. -/
theorem plain_text_of_line (table : Symbol.Table)
    (targets : ∀ anchor ∈ table.values, IsTarget anchor) (line : String)
    (bare : ∀ c ∈ line.toList, c ≠ '\x60' ∧ c ≠ '\\') :
    let markdown := markParameterNames (link table (escape line))
    foundLinks markdown = lineLinks table line ∧ plainText markdown = line := by
  intro markdown
  have whole : read markdown.toList = lineSegments (Lookup.ofTable table) line.toList := by
    rw [mark_link_escape]
    exact read_line_markdown (aimed_of_table targets) line.toList
  constructor
  · rw [foundLinks, whole, links_line_segments]
    rfl
  · rw [plainText, whole, said_line, without_marks_eq_self bare, String.ofList_toList]

/-- Two names, a plural, `NULL`, brackets and a name that another colon follows, with links to
anchors that hold colons and backticks. -/
theorem parameters_with_plural_and_null :
    let table : Symbol.Table := ⟨[("fz_page", "a:`b"), ("fz_rect", "r")]⟩
    let line := "doc, n[0]: fz_pages, or NULL: see <fz_rect>, fz_page*"
    let markdown := markParameterNames (link table (escape line))
    (∀ anchor ∈ table.values, IsTarget anchor) ∧ (∀ c ∈ line.toList, c ≠ '\x60' ∧ c ≠ '\\') ∧
      markdown =
        "`doc`, `n\\[0\\]`: [`fz_page`](a:`b)s, or `NULL`: see \\<[`fz_rect`](r)\\>, `fz_page*`" ∧
      foundLinks markdown = lineLinks table line ∧ plainText markdown = line := by
  intro table line markdown
  have targets : ∀ anchor ∈ table.values, IsTarget anchor := by decide +kernel
  have bare : ∀ c ∈ line.toList, c ≠ '\x60' ∧ c ≠ '\\' := by
    have all : (line.toList.all fun c => decide (c ≠ '\x60' ∧ c ≠ '\\')) = true := by decide +kernel
    simpa only [List.all_eq_true, decide_eq_true_eq] using all
  exact ⟨targets, bare, by decide +kernel, plain_text_of_line table targets line bare⟩

end HeaderDocs.Comment
