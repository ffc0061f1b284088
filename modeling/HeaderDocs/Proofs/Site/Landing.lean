import HeaderDocs.Proofs.Declaration.Blocks
import HeaderDocs.Proofs.Files.Relative
import HeaderDocs.Proofs.Site.Links

/-!
Where the links on a page land. Anchors are kept for all declarations, while a page shows those that
the options let it show, and the page that lists the others may stand where a header's page was. A
link lands when neither gets in its way: it leads to the page of the first declaration with its
anchor, and that page has the line for the anchor.
-/

namespace HeaderDocs.Site

set_option autoImplicit false

open Walker Declaration

/-- A link on a page leads to an anchor of a page: on the page itself by the anchor alone, else
along a path from the place of the page. Where addresses are directories, the place of a page is its
address without the ending; where they are not, paths start from the directory of the page. -/
def Leads (directoryUrls : Bool) (page url target anchor : String) : Prop :=
  (target = page ∧ url = "#" ++ anchor) ∨
    ∃ path, path ≠ "" ∧ url = path ++ "#" ++ anchor ∧
      if directoryUrls then
        Path.names (Path.absolute (Path.join (State.dropEnding page) path)) =
          Path.names (Path.absolute (State.dropEnding target))
      else
        Path.names (Path.absolute (Path.join (Path.parent page) path)) =
          Path.names (Path.absolute target)

theorem leads_by_anchor {directoryUrls : Bool} {page target anchor own : String}
    (unmarked : '#' ∉ own.toList)
    (leads : Leads directoryUrls page ("#" ++ own) target anchor) :
    target = page ∧ anchor = own := by
  rcases leads with ⟨same, url⟩ | ⟨path, given, url, -⟩
  · refine ⟨same, ?_⟩
    have chars := congrArg String.toList url
    rw [String.toList_append, String.toList_append, List.append_cancel_left_eq] at chars
    exact (String.toList_injective chars).symm
  · -- A path in front of the anchor would bring a second mark.
    exfalso
    have chars := congrArg String.toList url
    obtain ⟨c, rest, start⟩ :=
      List.exists_cons_of_ne_nil (fun empty => given (String.toList_eq_nil_iff.1 empty))
    rw [String.toList_append, String.toList_append, String.toList_append, start] at chars
    have tail : own.toList = rest ++ "#".toList ++ anchor.toList := (List.cons.inj chars).2
    apply unmarked
    rw [tail]
    simp

namespace State

def IsHeaderPage (state : State) (uri : String) : Prop :=
  ∃ page, state.pages.find? uri = some page ∧ page.label ≠ indexLabel

def HasLine (state : State) (uri anchor : String) : Prop :=
  ∃ text, (∀ markdown, state.pageMarkdown markdown (some uri) = .ok text) ∧
    (anchorLine anchor).toList ∈ text.toList.splitOn '\n'

def blocksOf (state : State) (options : Options) (uri : String) : List Block :=
  match state.pages.find? uri with
  | some page => pageBlocks (state.style options uri) page.declarations page.label
  | none => []

theorem resolve_anchor_leads {state : State} {anchor target : String}
    (kept : state.anchors.find? anchor = some target) (page : String) :
    ∃ url, state.resolveAnchor anchor page = some url ∧
      Leads state.directoryUrls page url target anchor := by
  unfold resolveAnchor
  rw [kept]
  by_cases here : target = page
  · exact ⟨"#" ++ anchor, by simp [here], Or.inl ⟨here, rfl⟩⟩
  · cases state.directoryUrls with
    | true =>
        simp only [here, if_true, if_false, Option.some.injEq, exists_eq_left']
        refine Or.inr ⟨Path.relative (dropEnding target) (dropEnding page) ++ "/", by simp, rfl, ?_⟩
        exact (Path.names_join_relative (dropEnding page) (dropEnding target)).2
    | false =>
        simp only [here, Bool.false_eq_true, if_false, Option.some.injEq, exists_eq_left']
        refine Or.inr ⟨Path.relative target (Path.parent page), Path.relative_ne_empty _ _, rfl, ?_⟩
        exact (Path.names_join_relative (Path.parent page) target).1

/-- What a finished walk leaves behind where it has the page of a header: the options that were
given, and the declarations of that address. -/
theorem header_page_of_walked {state after : State} {workspace : Workspace} {walker : Walker}
    (walked : Walked state workspace after walker) {uri : String} {page : Page}
    (found : after.pages.find? uri = some page) (header : page.label ≠ indexLabel) :
    ∃ options, state.options = some options ∧ after.options = some options ∧
      page.declarations = residents options.outputDirectory state.root uri walker.declarations := by
  cases walked with
  | missing absent => simp [cleared, Index.find?] at found
  | @walked headers options reading walker final listed given readable ran =>
      refine ⟨options, given, ?_, ?_⟩
      · rw [(with_declarations_frame options _ _).1, (filed_frame _ _ _).1]
        exact given
      · rw [pages_with_declarations rfl] at found
        split at found
        · rw [← Option.some.inj found] at header
          exact absurd rfl header
        · obtain ⟨first, -, rfl⟩ := Option.map_eq_some_iff.1 found
          rfl

theorem page_markdown_of_header {state : State} {options : Options} {uri : String} {page : Page}
    (found : state.pages.find? uri = some page) (header : page.label ≠ indexLabel)
    (given : state.options = some options) (markdown : String) :
    state.pageMarkdown markdown (some uri) =
      .ok (renderPage (state.style options uri) page.declarations page.label) := by
  simp only [pageMarkdown, found, given, header, if_false]

theorem unmarked_of_links_to {declarations : List Declaration} {link : List Char × List Char}
    (linksTo : LinksTo declarations link) : '#' ∉ link.1 ∧ '#' ∉ link.2 := by
  have inTarget := not_mem_identifier linksTo.target (c := '#') (by decide)
  rw [String.toList_ofList] at inTarget
  exact ⟨Comment.not_mem_name linksTo.name (by decide), inTarget⟩

theorem link_of_page {declarations : List Declaration}
    (composed : ∀ declaration ∈ declarations, declaration.Composed)
    (linked : ∀ declaration ∈ declarations, ∀ item ∈ declaration.items,
      Linked declarations item.declaration.doc)
    {style : Style} (whole : style.members) {some : List Declaration} (among : some ⊆ declarations)
    {title : String} {link : List Char × List Char}
    (onPage : link ∈ (pageBlocks style some title).flatMap Block.links) :
    ∃ source, LinksTo declarations source ∧ link = (source.1, placeOf style.resolve source.2) := by
  obtain ⟨declaration, member, item, inItems, level, source, found, same⟩ :=
    link_on_page whole (fun declaration member => composed declaration (among member)) onPage
  have ofDoc := linked declaration (among member) item inItems
  obtain ⟨table, text, aimed, read⟩ := ofDoc.source
  have unmarked : ∀ link ∈ Comment.foundLinks item.declaration.doc, '#' ∉ link.1 ∧ '#' ∉ link.2 :=
    fun link inDoc => unmarked_of_links_to (ofDoc.links link inDoc)
  rw [read] at unmarked found
  rw [found_links_shift aimed text level unmarked, ← read] at found
  exact ⟨source, ofDoc.links source found, same⟩

/-- Where the page that an anchor is kept with is the page of a header and the first declaration
with the anchor is shown, the page has the line of the anchor. -/
theorem line_of_shown {state after : State} {workspace : Workspace} {walker : Walker}
    (walked : Walked state workspace after walker)
    (composed : ∀ declaration ∈ walker.declarations, declaration.Composed) {options : Options}
    (given : state.options = some options) {anchor : String} (identifier : IsIdentifier anchor)
    {first : Declaration} (firstWith : FirstWith anchor walker.declarations first)
    (isShown : options.undocumented ∨ first.doc ≠ "")
    (header : after.IsHeaderPage (homeOf options.outputDirectory state.root first)) :
    after.HasLine (homeOf options.outputDirectory state.root first) anchor := by
  obtain ⟨page, found, label⟩ := header
  obtain ⟨others, givenOthers, afterOptions, sameDeclarations⟩ :=
    header_page_of_walked walked found label
  obtain rfl : others = options := Option.some.inj (givenOthers.symm.trans given)
  obtain ⟨earlier, later, split, ⟨item, inItems, rfl⟩, -⟩ := firstWith
  have member : first ∈ walker.declarations := by simp [split]
  refine ⟨_, page_markdown_of_header found label afterOptions, ?_⟩
  apply anchor_line_on_page rfl _ (composed first member) inItems
  · exact ⟨identifier.1, not_mem_identifier identifier (by decide)⟩
  · rw [sameDeclarations]
    apply List.mem_filter.2
    refine ⟨List.mem_filter.2 ⟨member, by simp⟩, ?_⟩
    rcases isShown with all | documented
    · simp [style, all]
    · simp [documented]

/-- Let a walk be finished that leaves the page of a header at an address. The page is made of its
blocks, and each link in these leads to an anchor of the page of the first declaration that has it.
If that declaration is shown and the page was not taken by the one that lists the others, it has the
line of the anchor. -/
theorem shown_links_land {state after : State} {workspace final : Workspace}
    (spelled : Spelled workspace) (finished : state.walk workspace = (after, final, none))
    {uri : String} (header : after.IsHeaderPage uri) :
    ∃ options, state.options = some options ∧
      (∀ markdown, after.pageMarkdown markdown (some uri) =
        .ok (Block.joined (after.blocksOf options uri))) ∧
      ∀ name url, (name, url) ∈ (after.blocksOf options uri).flatMap Block.links →
        ∃ anchor first, FirstWith anchor (state.walker workspace).declarations first ∧
          Leads after.directoryUrls uri (String.ofList url)
            (homeOf options.outputDirectory state.root first) anchor ∧
          (options.undocumented ∨ first.doc ≠ "" →
            after.IsHeaderPage (homeOf options.outputDirectory state.root first) →
              after.HasLine (homeOf options.outputDirectory state.root first) anchor) := by
  have walked := walked_of_walk finished
  obtain ⟨composed, linked⟩ := walked_linked walked spelled
  obtain ⟨page, found, label⟩ := header
  obtain ⟨options, given, afterOptions, sameDeclarations⟩ :=
    header_page_of_walked walked found label
  have ofPage : after.blocksOf options uri =
      pageBlocks (after.style options uri) page.declarations page.label := by
    rw [blocksOf, found]
  refine ⟨options, given, ?_, ?_⟩
  · intro markdown
    rw [page_markdown_of_header found label afterOptions, render_page_blocks, ofPage]
  · intro name url onPage
    have among : page.declarations ⊆ (state.walker workspace).declarations := by
      rw [sameDeclarations]
      exact List.filter_subset_self _
    rw [ofPage] at onPage
    obtain ⟨source, linksTo, same⟩ := link_of_page composed linked rfl among onPage
    obtain ⟨others, first, givenOthers, firstWith, kept⟩ := anchor_of_link walked spelled linksTo
    obtain rfl : others = options := Option.some.inj (givenOthers.symm.trans given)
    obtain ⟨place, resolved, leads⟩ := resolve_anchor_leads kept uri
    have shownPlace : String.ofList url = place := by
      rw [(Prod.mk.inj same).2]
      simp only [placeOf, State.style, resolved, String.ofList_toList]
    rw [shownPlace]
    refine ⟨String.ofList source.2, first, firstWith, leads, ?_⟩
    exact line_of_shown walked composed given linksTo.target firstWith

/-- Only documented declarations are shown, and both of these are. -/
theorem link_to_documented_lands :
    let maker : Cursor :=
      { kind := .declares .function, spelling := "fz_a", comment := some "/** Makes one. */"
        file := some "i/a.h" }
    let other : Cursor :=
      { kind := .declares .function, spelling := "fz_b", comment := some "/** As fz_a. */"
        file := some "i/b.h" }
    let workspace : Workspace :=
      { tree :=
          { nodes := ⟨[(["i"], .directory), (["i", "a.h"], .file (.text "")),
            (["i", "b.h"], .file (.text ""))]⟩ }
        headers := ⟨[("i/a.h", { cursors := [maker] }), ("i/b.h", { cursors := [other] })]⟩ }
    let options : Options := { headers := [.text "a.h", .text "b.h"], undocumented := false }
    let state : State := { options := some options, root := "i" }
    let after := (state.walk workspace).1
    Spelled workspace ∧ (state.walk workspace).2.2 = none ∧
      after.IsHeaderPage "api_reference/b.h.md" ∧
      (after.blocksOf options "api_reference/b.h.md").flatMap Block.links =
        [("fz_a".toList, "../a.h/#fz_a".toList)] ∧
      ∃ anchor target, Leads true "api_reference/b.h.md" "../a.h/#fz_a" target anchor ∧
        after.HasLine target anchor := by
  intro maker other workspace options state after
  have spelled : Spelled workspace := by decide +kernel
  have finished : (state.walk workspace).2.2 = none := by decide +kernel
  have labels : (after.pages.find? "api_reference/b.h.md").map Page.label = some "b.h" := by
    decide +kernel
  have header : after.IsHeaderPage "api_reference/b.h.md" := by
    obtain ⟨page, found, label⟩ := Option.map_eq_some_iff.1 labels
    exact ⟨page, found, by rw [label]; decide⟩
  have links : (after.blocksOf options "api_reference/b.h.md").flatMap Block.links =
      [("fz_a".toList, "../a.h/#fz_a".toList)] := by
    decide +kernel
  obtain ⟨given, sameOptions, -, land⟩ :=
    shown_links_land spelled (Prod.ext rfl (Prod.ext rfl finished)) header
  obtain rfl : given = options := (Option.some.inj sameOptions).symm
  obtain ⟨anchor, first, ⟨earlier, later, split, -⟩, leads, lands⟩ :=
    land "fz_a".toList "../a.h/#fz_a".toList (by rw [links]; exact List.mem_singleton_self _)
  have member : first ∈ (state.walker workspace).declarations := by simp [split]
  have documented : ((state.walker workspace).declarations.all fun declaration =>
      declaration.doc ≠ "" ∧
        ((after.pages.find? (homeOf "api_reference" "i" declaration)).map Page.label).any
          (· ≠ indexLabel)) = true := by
    decide +kernel
  obtain ⟨doc, home⟩ := of_decide_eq_true (List.all_eq_true.1 documented first member)
  have homeHeader : after.IsHeaderPage (homeOf "api_reference" "i" first) := by
    obtain ⟨label, found, apart⟩ := (Option.any_eq_true _ _).1 home
    obtain ⟨page, foundPage, rfl⟩ := Option.map_eq_some_iff.1 found
    exact ⟨page, foundPage, of_decide_eq_true apart⟩
  have urls : (state.walk workspace).1.directoryUrls = true := by decide +kernel
  rw [String.ofList_toList, urls] at leads
  exact ⟨spelled, finished, header, links, anchor, _, leads, lands (Or.inr doc) homeHeader⟩

/-- A declaration without a doc is not shown, yet the doc of another links to it. -/
theorem link_to_hidden_dangles :
    ¬∀ (state : State) (workspace : Workspace) (options : Options), Spelled workspace →
      (state.walk workspace).2.2 = none → state.options = some options →
        ∀ uri, (state.walk workspace).1.IsHeaderPage uri →
          ∀ link ∈ ((state.walk workspace).1.blocksOf options uri).flatMap Block.links,
            ∃ anchor target, Leads state.directoryUrls uri (String.ofList link.2) target anchor ∧
              (state.walk workspace).1.HasLine target anchor := by
  intro lands
  let hidden : Cursor := { kind := .declares .function, spelling := "fz_a", file := some "i/a.h" }
  let shown : Cursor :=
    { kind := .declares .function, spelling := "fz_b", comment := some "/** As fz_a. */"
      file := some "i/a.h" }
  let workspace : Workspace :=
    { tree := { nodes := ⟨[(["i"], .directory), (["i", "a.h"], .file (.text ""))]⟩ }
      headers := ⟨[("i/a.h", { cursors := [hidden, shown] })]⟩ }
  let options : Options := { headers := [.text "a.h"], undocumented := false }
  let state : State := { options := some options, root := "i" }
  have labels : ((state.walk workspace).1.pages.find? "api_reference/a.h.md").map Page.label =
      some "a.h" := by
    decide +kernel
  have header : (state.walk workspace).1.IsHeaderPage "api_reference/a.h.md" := by
    obtain ⟨page, found, label⟩ := Option.map_eq_some_iff.1 labels
    exact ⟨page, found, by rw [label]; decide⟩
  have links :
      ((state.walk workspace).1.blocksOf options "api_reference/a.h.md").flatMap Block.links =
      [("fz_a".toList, "#fz_a".toList)] := by
    decide +kernel
  obtain ⟨anchor, target, leads, text, markdown, line⟩ :=
    lands state workspace options (by decide +kernel) (by decide +kernel) rfl _ header
      ("fz_a".toList, "#fz_a".toList) (by rw [links]; exact List.mem_singleton_self _)
  rw [String.ofList_toList] at leads
  obtain ⟨rfl, rfl⟩ :=
    leads_by_anchor (by decide) (show Leads true _ ("#" ++ "fz_a") _ _ from leads)
  have missing : (match (state.walk workspace).1.pageMarkdown "" (some "api_reference/a.h.md") with
      | .ok text => decide ((anchorLine "fz_a").toList ∈ text.toList.splitOn '\n')
      | .error _ => false) = false := by
    decide +kernel
  rw [markdown ""] at missing
  simp [line] at missing

end State

end HeaderDocs.Site
