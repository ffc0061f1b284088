import HeaderDocs.Proofs.Comment.Line

/-!
Links in the Markdown of a comment. What a renderer takes for a link is what the comment was given
as one: nothing that its author typed, on one line or across lines, reads as a link, and no link is
passed over. Showing the Markdown on a page is therefore the same as writing it with the places of
that page for anchors.
-/

namespace HeaderDocs

open Text Declaration Comment Comment.Segment

set_option autoImplicit false

/-- The table that gives, in place of each anchor, what a resolver says, or else a place on the same
page. -/
def Symbol.Table.placed (resolve : Resolver) (table : Symbol.Table) : Symbol.Table :=
  ⟨table.entries.map fun entry => (entry.1, (resolve entry.2).getD ("#" ++ entry.2))⟩

theorem lookup_placed (resolve : Resolver) (table : Symbol.Table) (name : String) :
    (table.placed resolve).lookup? name =
      (table.lookup? name).map fun anchor => (resolve anchor).getD ("#" ++ anchor) := by
  unfold Symbol.Table.lookup? Symbol.Table.placed Index.find?
  induction table.entries with
  | nil => rfl
  | cons entry rest ih =>
      rw [List.map_cons, List.lookup_cons, List.lookup_cons, ih]
      cases name == entry.1 <;> rfl

theorem place_of_to_list (resolve : Resolver) (anchor : String) :
    placeOf resolve anchor.toList = ((resolve anchor).getD ("#" ++ anchor)).toList := by
  unfold placeOf
  rw [String.ofList_toList]
  cases resolve anchor with
  | none => simp
  | some place => rfl

theorem of_table_placed (resolve : Resolver) (table : Symbol.Table) :
    Lookup.ofTable (table.placed resolve) = (Lookup.ofTable table).placed resolve := by
  funext name
  unfold Lookup.placed Lookup.ofTable
  rw [lookup_placed, Option.map_map, Option.map_map]
  apply congrArg (Option.map · _)
  funext anchor
  exact (place_of_to_list resolve anchor).symm

def IsTarget (anchor : String) : Prop :=
  anchor ≠ "" ∧ ∀ c ∈ anchor.toList, c ≠ ')' ∧ isBlank c = false

instance {anchor : String} : Decidable (IsTarget anchor) :=
  decidable_of_iff (anchor ≠ "" ∧ anchor.toList.all fun c => c ≠ ')' ∧ isBlank c = false)
    (by simp only [IsTarget, List.all_eq_true, decide_eq_true_eq])

theorem aimed_of_table {table : Symbol.Table} (targets : ∀ anchor ∈ table.values, IsTarget anchor) :
    Aimed (Lookup.ofTable table) := by
  intro name anchor found
  obtain ⟨known, registered, rfl⟩ := Option.map_eq_some_iff.1 found
  obtain ⟨nonempty, reachable⟩ := targets known (Index.mem_values registered)
  refine ⟨by simpa using nonempty, ?_⟩
  intro c member
  obtain ⟨unclosed, solid⟩ := reachable c member
  simp [isTargetChar, unclosed, solid]

namespace Comment

def lineSegments (lookup : Lookup) (line : List Char) : List Segment :=
  markSegments ((pieces (escapeText line)).flatMap (Piece.segments lookup))

theorem write_line_segments (lookup : Lookup) (line : List Char) :
    write (lineSegments lookup line) = lineMarkdown lookup line := by
  rw [lineSegments, write_mark_segments, write_pieces]
  rfl

theorem line_segments_guarded (lookup : Lookup) (line : List Char) :
    Guarded false (lineSegments lookup line) :=
  mark_segments_guarded (pieces_guarded lookup (escape_text_guarded line))

theorem line_segments_legible {lookup : Lookup} (aimed : Aimed lookup) (line : List Char) :
    ∀ segment ∈ lineSegments lookup line, segment.Legible :=
  mark_segments_legible (pieces_legible aimed (escapeText line))

def layoutSegments (lookup : Lookup) : (started listed : Bool) → List Entry → List Segment
  | _, _, [] => []
  | started, listed, entry :: rest =>
      plains ((if started then entry.separator else []) ++ entry.bullet listed) ++
        lineSegments lookup entry.text ++
          layoutSegments lookup true (listed || entry.isArgument) rest

theorem write_layout_segments (lookup : Lookup) (started listed : Bool) (entries : List Entry) :
    write (layoutSegments lookup started listed entries) =
      layout lookup started listed entries := by
  induction entries generalizing started listed with
  | nil => rfl
  | cons entry rest ih =>
      rw [layoutSegments, write_append, write_append, write_plains, write_line_segments, ih, layout]

theorem map_placed_layout_segments (resolve : Resolver) (lookup : Lookup) (started listed : Bool)
    (entries : List Entry) :
    (layoutSegments lookup started listed entries).map (Segment.placed resolve) =
      layoutSegments (lookup.placed resolve) started listed entries := by
  induction entries generalizing started listed with
  | nil => rfl
  | cons entry rest ih =>
      have line : (lineSegments lookup entry.text).map (Segment.placed resolve) =
          lineSegments (lookup.placed resolve) entry.text := by
        rw [lineSegments, map_placed_mark_segments, map_placed_pieces]
        rfl
      rw [layoutSegments, List.map_append, List.map_append, map_placed_plains, line, ih,
        layoutSegments]

theorem layout_segments_guarded (lookup : Lookup) (started listed : Bool) (entries : List Entry) :
    Guarded false (layoutSegments lookup started listed entries) := by
  induction entries generalizing started listed with
  | nil => trivial
  | cons entry rest ih =>
      have opening : ']' ∉ (if started then entry.separator else []) ++ entry.bullet listed := by
        unfold Entry.separator Entry.bullet argumentsHeading
        cases started <;> cases listed <;> split_ifs <;> decide
      have line := line_segments_guarded lookup entry.text
      exact guarded_append (guarded_append (guarded_plains opening) line) (ih _ _)

theorem layout_segments_legible {lookup : Lookup} (aimed : Aimed lookup) (started listed : Bool)
    (entries : List Entry) :
    ∀ segment ∈ layoutSegments lookup started listed entries, segment.Legible := by
  induction entries generalizing started listed with
  | nil => simp [layoutSegments]
  | cons entry rest ih =>
      intro segment member
      simp only [layoutSegments, List.mem_append] at member
      rcases member with (opening | line) | later
      · exact plains_legible _ segment opening
      · exact line_segments_legible aimed entry.text segment line
      · exact ih _ _ segment later

theorem read_text_markdown {lookup : Lookup} (aimed : Aimed lookup) (text : List Char) :
    read (textMarkdown lookup text) = layoutSegments lookup false false (entries text) := by
  rw [textMarkdown, ← write_layout_segments]
  exact read_write (layout_segments_guarded lookup _ _ _) (layout_segments_legible aimed _ _ _)

def Shown.link? : Shown → Option (List Char × List Char)
  | code _ => none
  | link name anchor => some (name, anchor)
  | plural singular anchor => some (singular, anchor)

def Piece.link? (lookup : Lookup) : Piece → Option (List Char × List Char)
  | .plain _ => none
  | .mention name => (Shown.ofName lookup name).link?

def givenLinks (table : Symbol.Table) (text : String) : List (List Char × List Char) :=
  (entries text.toList).flatMap fun entry =>
    (pieces (escapeText entry.text)).filterMap (Piece.link? (Lookup.ofTable table))

def foundLinks (markdown : String) : List (List Char × List Char) :=
  (read markdown.toList).filterMap Segment.link?

theorem links_pieces (lookup : Lookup) (pieces : List Piece) :
    (pieces.flatMap (Piece.segments lookup)).filterMap Segment.link? =
      pieces.filterMap (Piece.link? lookup) := by
  induction pieces with
  | nil => rfl
  | cons piece rest ih =>
      rw [List.flatMap_cons, List.filterMap_append, ih]
      cases piece with
      | plain c => rfl
      | mention name =>
          cases shown : Shown.ofName lookup name <;>
            simp [Piece.segments, Piece.link?, Shown.segments, Shown.link?, Segment.link?, shown,
              links_plains]

theorem links_layout_lines (lookup : Lookup) (started listed : Bool) (entries : List Entry) :
    (layoutSegments lookup started listed entries).filterMap Segment.link? =
      entries.flatMap fun entry => (lineSegments lookup entry.text).filterMap Segment.link? := by
  induction entries generalizing started listed with
  | nil => rfl
  | cons entry rest ih =>
      rw [layoutSegments, List.filterMap_append, List.filterMap_append, links_plains, ih,
        List.nil_append, List.flatMap_cons]

theorem links_line_segments (lookup : Lookup) (line : List Char) :
    (lineSegments lookup line).filterMap Segment.link? =
      (pieces (escapeText line)).filterMap (Piece.link? lookup) := by
  rw [lineSegments, links_mark_segments, links_pieces]

theorem links_layout_segments (lookup : Lookup) (started listed : Bool) (entries : List Entry) :
    (layoutSegments lookup started listed entries).filterMap Segment.link? =
      entries.flatMap fun entry =>
        (pieces (escapeText entry.text)).filterMap (Piece.link? lookup) := by
  simp only [links_layout_lines, links_line_segments]

theorem given_link_known {table : Symbol.Table} {text : String} {name target : List Char}
    (given : (name, target) ∈ givenLinks table text) :
    IsName name ∧ ∃ known, table.lookup? known = some (String.ofList target) := by
  have looked : ∀ {known anchor : List Char}, Lookup.ofTable table known = some anchor →
      ∃ known, table.lookup? known = some (String.ofList anchor) := by
    intro known anchor found
    obtain ⟨value, registered, rfl⟩ := Option.map_eq_some_iff.1 found
    exact ⟨_, by rw [String.ofList_toList]; exact registered⟩
  obtain ⟨entry, -, shown⟩ := List.mem_flatMap.1 given
  obtain ⟨piece, member, linked⟩ := List.mem_filterMap.1 shown
  cases piece with
  | plain c => simp [Piece.link?] at linked
  | mention mentioned =>
      obtain ⟨long, chars⟩ := mention_of_piece member
      have nonempty : mentioned ≠ [] := by
        intro empty
        simp [empty] at long
      simp only [Piece.link?] at linked
      have shown := shown_as (Lookup.ofTable table) mentioned
      generalize Shown.ofName (Lookup.ofTable table) mentioned = form at shown linked
      cases shown with
      | pointer starred => simp [Shown.link?] at linked
      | linked starless found =>
          simp only [Shown.link?, Option.some.injEq, Prod.mk.injEq] at linked
          obtain ⟨rfl, rfl⟩ := linked
          exact ⟨⟨nonempty, chars⟩, looked found⟩
      | plural starless unknown ending found =>
          simp only [Shown.link?, Option.some.injEq, Prod.mk.injEq] at linked
          obtain ⟨rfl, rfl⟩ := linked
          exact ⟨singular_name long chars ending, looked found⟩
      | unknown starless unknown noSingular => simp [Shown.link?] at linked

theorem found_links_transform {table : Symbol.Table} (aimed : Aimed (Lookup.ofTable table))
    (text : String) :
    foundLinks (transform table text) = givenLinks table text := by
  rw [foundLinks, transform, String.toList_ofList, read_text_markdown aimed, links_layout_segments]
  rfl

/-- The links that a renderer finds are those that were given, and it treats them as if the table
had held their places from the start. -/
theorem resolve_links_transform (table : Symbol.Table) (resolve : Resolver) (text : String)
    (targets : ∀ anchor ∈ table.values, IsTarget anchor) :
    resolveLinks resolve (transform table text) = transform (table.placed resolve) text ∧
      foundLinks (transform table text) = givenLinks table text := by
  have whole := read_text_markdown (aimed_of_table targets) text.toList
  constructor
  · rw [resolveLinks, transform, transform, String.toList_ofList, resolve_text_eq_write_read, whole,
      map_placed_layout_segments, write_layout_segments, of_table_placed]
    rfl
  · rw [foundLinks, transform, String.toList_ofList, whole, links_layout_segments]
    rfl

theorem typed_brackets_are_no_link :
    let table : Symbol.Table := ⟨[("fz_a", "fz_a")]⟩
    let text := "see [`x`](y), \\[`fz_a`](z)\n@param a, b: fz_as"
    (∀ anchor ∈ table.values, IsTarget anchor) ∧
      resolveLinks (fun _ => some "u)") (transform table text) =
        transform (table.placed fun _ => some "u)") text ∧
      foundLinks (transform table text) = givenLinks table text ∧
      givenLinks table text = [("fz_a".toList, "fz_a".toList), ("fz_a".toList, "fz_a".toList)] := by
  have target : IsTarget "fz_a" := by
    have reachable : ("fz_a".toList.all fun c => decide (c ≠ ')' ∧ isBlank c = false)) = true := by
      decide +kernel
    exact ⟨by decide, by simpa only [List.all_eq_true, decide_eq_true_eq] using reachable⟩
  have targets : ∀ anchor ∈ (⟨[("fz_a", "fz_a")]⟩ : Symbol.Table).values, IsTarget anchor := by
    intro anchor member
    rw [List.mem_singleton.1 member]
    exact target
  obtain ⟨placed, found⟩ := resolve_links_transform ⟨[("fz_a", "fz_a")]⟩ (fun _ => some "u)")
    "see [`x`](y), \\[`fz_a`](z)\n@param a, b: fz_as" targets
  exact ⟨targets, placed, found, by decide +kernel⟩

end Comment

end HeaderDocs
