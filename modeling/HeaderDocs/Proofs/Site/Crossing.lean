import HeaderDocs.Proofs.Files.Normal
import HeaderDocs.Site.Pages

/-!
Links from one page to another. With addresses of directories a page stands for the directory that
is called like it, and a link is followed from there; without them a link is followed from the
directory that the page is in. One page may stand below another or in a directory that is called
like it, since all of this is a matter of names. A page whose name is nothing but dots before its
ending stands for a directory that has another name too.
-/

namespace HeaderDocs.Site.State

set_option autoImplicit false

/-- The address of a page: a plain relative path with the ending of a page. -/
structure IsPage (uri : String) : Prop where
  ended : Text.endsWith ".md".toList uri.toList = true
  plain : ∀ piece ∈ Path.pieces uri, Path.IsProper piece

variable {uri page target : String}

theorem drop_ending_append
    (ended : Text.endsWith ".md".toList uri.toList = true) : dropEnding uri ++ ".md" = uri := by
  obtain ⟨front, chars⟩ := List.isSuffixOf_iff_suffix.1 ended
  rw [← String.toList_inj, dropEnding, ← chars, Text.drop_end_append]
  simp

theorem page_parts (isPage : IsPage uri) : ∃ front last, (∀ name ∈ front, Path.IsProper name) ∧
    Path.pieces (dropEnding uri) = front ++ [last] ∧
      Path.pieces uri = front ++ [last ++ ".md"] := by
  have some : Path.pieces (dropEnding uri) ≠ [] := fun none =>
    List.splitOn_ne_nil '/' (dropEnding uri).toList (List.map_eq_nil_iff.1 none)
  obtain ⟨front, last, parts⟩ : ∃ front last, Path.pieces (dropEnding uri) = front ++ [last] :=
    ⟨_, _, (List.dropLast_append_getLast some).symm⟩
  have named : uri = Path.ofNames (front ++ [last ++ ".md"]) := by
    rw [← Path.of_names_append, ← parts, Path.of_names_pieces, drop_ending_append isPage.ended]
  have noSlash : ∀ name ∈ front ++ [last ++ ".md"], '/' ∉ name.toList := by
    have before : ∀ name ∈ front ++ [last], '/' ∉ name.toList := by
      rw [← parts]
      exact fun name => Path.pieces_no_slash
    intro name member
    rcases List.mem_append.1 member with inside | ending
    · exact before name (by simp [inside])
    · simpa [List.mem_singleton.1 ending] using before last (by simp)
  have whole : Path.pieces uri = front ++ [last ++ ".md"] := by
    rw [named, Path.pieces_of_names noSlash (by simp)]
  exact ⟨front, last, fun name member => isPage.plain name (by simp [whole, member]), parts, whole⟩

/-- The directory that a page stands for is not above the start, unless the page is named by two
dots alone. -/
theorem names_drop_ending (isPage : IsPage uri) : Path.isAbsolute (dropEnding uri) = false ∧
    (".." ∉ Path.names (dropEnding uri) ∨ dropEnding uri = "..") := by
  obtain ⟨front, last, proper, parts, -⟩ := page_parts isPage
  have unrooted : Path.isAbsolute (dropEnding uri) = false := by
    by_cases empty : dropEnding uri = ""
    · rw [empty]
      decide
    · rw [← Path.is_absolute_append empty ".md", drop_ending_append isPage.ended]
      exact (Path.normal_of_proper isPage.plain).1
  have noUp : ".." ∉ front := fun member => (proper _ member).2.2.1 rfl
  have walked : Path.walkFrom false [] (Path.pieces (dropEnding uri)) =
      Path.step false front.reverse last := by
    rw [parts, Path.walk_from_append, Path.walk_from_names proper, List.append_nil]
    rfl
  refine ⟨unrooted, ?_⟩
  rw [Path.names_unrooted unrooted, walked, List.mem_reverse]
  by_cases up : last = ".."
  · subst up
    rcases List.eq_nil_or_concat' front with rfl | ⟨before, name, rfl⟩
    · right
      rw [← Path.of_names_pieces (dropEnding uri), parts]
      rfl
    · left
      have notUp : name ≠ ".." := (proper name (by simp)).2.2.1
      rw [List.reverse_append, List.reverse_singleton, List.singleton_append, Path.step_up,
        if_neg notUp]
      exact fun member => noUp (by simpa using Or.inl member)
  · left
    rcases Path.step_cases last with same | same | pushed
    · simpa [same] using noUp
    · exact absurd same up
    · simpa [pushed, Ne.symm up] using noUp

theorem resolve_anchor_across {state : State} {anchor : String}
    (kept : state.anchors.find? anchor = some target) (apart : page ≠ target) :
    state.resolveAnchor anchor page =
      some ((if state.directoryUrls then Path.relative (dropEnding target) (dropEnding page) ++ "/"
        else Path.relative target (Path.parent page)) ++ "#" ++ anchor) := by
  simp only [resolveAnchor, kept, if_neg (Ne.symm apart)]
  split <;> rfl

/-- A link from one page to an anchor of another leads there. With addresses of directories its path
ends in a slash and leads, from the directory that the page stands for, to the one that the other
stands for, whose address is without the ending that of the page unless its name is dots alone;
without them it leads from the directory of the page to the other page itself. A page of two dots
stands above the start, so from there nothing is promised, and a path cannot lead to an empty name,
so with addresses of directories the other page is called by more than its ending. -/
theorem cross_links_lead {state : State} {anchor : String}
    (kept : state.anchors.find? anchor = some target) (apart : page ≠ target) (isPage : IsPage page)
    (isTarget : IsPage target) (named : state.directoryUrls = true → target ≠ ".md") :
    ∃ url, state.resolveAnchor anchor page = some (url ++ "#" ++ anchor) ∧
      (state.directoryUrls = true → dropEnding target ≠ "" ∧ (∃ path, url = path ++ "/") ∧
        (page ≠ "...md" →
          Path.normalize (Path.join (dropEnding page) url) = Path.normalize (dropEnding target) ∧
          ((∀ piece ∈ Path.pieces (dropEnding target), Path.IsProper piece) →
            Path.normalize (Path.join (dropEnding page) url) = dropEnding target))) ∧
      (state.directoryUrls = false →
        Path.normalize (Path.join (Path.parent page) url) = target) := by
  have resolved := resolve_anchor_across kept apart
  cases urls : state.directoryUrls with
  | true =>
      rw [urls, if_pos rfl] at resolved
      refine ⟨Path.relative (dropEnding target) (dropEnding page) ++ "/", resolved, ?_,
        fun off => absurd off (by decide)⟩
      · have nonempty : dropEnding target ≠ "" := by
          intro empty
          apply named urls
          rw [← drop_ending_append isTarget.ended, empty]
          rfl
        refine fun _ => ⟨nonempty, ⟨_, rfl⟩, fun below => ?_⟩
        obtain ⟨unrootedPage, inside⟩ := names_drop_ending isPage
        obtain ⟨unrootedTarget, insideTarget⟩ := names_drop_ending isTarget
        have notUp : dropEnding page ≠ ".." := by
          intro up
          apply below
          rw [← drop_ending_append isPage.ended, up]
          rfl
        have there :=
          (Path.normalize_join_relative unrootedPage (inside.resolve_right notUp) unrootedTarget
          insideTarget).2
        exact ⟨there, fun plain => there.trans (Path.normal_of_proper plain).2.2⟩
  | false =>
      rw [urls, if_neg Bool.false_ne_true] at resolved
      refine ⟨Path.relative target (Path.parent page), resolved, fun on => absurd on (by decide),
        fun _ => ?_⟩
      · obtain ⟨front, last, proper, -, parts⟩ := page_parts isPage
        have directory : Path.parent page = Path.ofNames front := by
          have plain := isPage.plain
          rw [parts] at plain
          rw [← Path.of_names_pieces page, parts, Path.parent_of_names plain]
        obtain ⟨unrooted, names⟩ := Path.names_of_names proper
        obtain ⟨unrootedTarget, insideTarget, normal⟩ := Path.normal_of_proper isTarget.plain
        have inside : ".." ∉ Path.names (Path.ofNames front) := by
          rw [names]
          exact fun member => (proper _ member).2.2.1 rfl
        rw [directory,
          (Path.normalize_join_relative unrooted inside unrootedTarget (Or.inl insideTarget)).1,
          normal]

/-- A header in a directory that is called like another header: the links between their pages, with
addresses of directories and without. -/
theorem nested_pages_linked :
    let state := ({ root := "proj/i" } : State).addDeclaration "api_reference"
      { name := "fz_a", kind := .function, file := "proj/i/a.h" }
    let flat : State := { state with directoryUrls := false }
    let page := "api_reference/a.h/b.h.md"
    let target := "api_reference/a.h.md"
    (state.anchors.find? "fz_a" = some target ∧ page ≠ target ∧ IsPage page ∧ IsPage target ∧
      target ≠ ".md") ∧
      state.resolveAnchor "fz_a" page = some "../#fz_a" ∧
      Path.normalize (Path.join (dropEnding page) "../") = dropEnding target ∧
      flat.resolveAnchor "fz_a" page = some "../a.h.md#fz_a" ∧
      Path.normalize (Path.join (Path.parent page) "../a.h.md") = target := by
  intro state flat page target
  have kept : state.anchors.find? "fz_a" = some target := by decide +kernel
  have apart : page ≠ target := by decide
  have isPage : IsPage page := ⟨by decide, by decide⟩
  have isTarget : IsPage target := ⟨by decide, by decide⟩
  have named : target ≠ ".md" := by decide
  have shown : state.resolveAnchor "fz_a" page = some ("../" ++ "#" ++ "fz_a") := by decide +kernel
  have shownFlat : flat.resolveAnchor "fz_a" page = some ("../a.h.md" ++ "#" ++ "fz_a") := by
    decide +kernel
  obtain ⟨url, resolved, leads, -⟩ :=
    @cross_links_lead page target state "fz_a" kept apart isPage isTarget fun _ => named
  obtain ⟨path, resolvedFlat, -, leadsFlat⟩ :=
    @cross_links_lead page target flat "fz_a" kept apart isPage isTarget fun on =>
    absurd on (by decide)
  rw [shown, Option.some_inj, String.append_left_inj, String.append_left_inj] at resolved
  rw [shownFlat, Option.some_inj, String.append_left_inj, String.append_left_inj] at resolvedFlat
  subst resolved resolvedFlat
  exact ⟨⟨kept, apart, isPage, isTarget, named⟩, shown, ((leads rfl).2.2 (by decide)).2 (by decide),
    shownFlat, leadsFlat rfl⟩

/-- What is declared in the directory of the headers itself has a page whose name is dots alone. A
link to it leads to the directory that the page stands for, under the name without the dots. -/
theorem dotted_page_missed :
    let state := ({ root := "proj/i" } : State).addDeclaration "api_reference"
      { name := "fz_a", kind := .function, file := "proj/i" }
    let page := "api_reference/a.h.md"
    let target := "api_reference/..md"
    state.directoryUrls = true ∧ state.anchors.find? "fz_a" = some target ∧ page ≠ target ∧
      IsPage page ∧ IsPage target ∧
      state.resolveAnchor "fz_a" page = some "../#fz_a" ∧
      ∀ url, state.resolveAnchor "fz_a" page = some (url ++ "#" ++ "fz_a") →
        Path.normalize (Path.join (dropEnding page) url) ≠ dropEnding target := by
  intro state page target
  have apart : page ≠ target := by decide
  have kept : state.anchors.find? "fz_a" = some target := by decide +kernel
  have shown : state.resolveAnchor "fz_a" page = some ("../" ++ "#" ++ "fz_a") := by decide +kernel
  refine ⟨rfl, kept, apart, ⟨by decide, by decide⟩, ⟨by decide, by decide⟩, shown,
    fun url resolved => ?_⟩
  rw [shown, Option.some_inj, String.append_left_inj, String.append_left_inj] at resolved
  rw [← resolved]
  decide

end HeaderDocs.Site.State
