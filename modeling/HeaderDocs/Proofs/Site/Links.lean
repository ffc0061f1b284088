import HeaderDocs.Proofs.Site.Pages
import HeaderDocs.Proofs.Site.Walk
import HeaderDocs.Proofs.Walk.Linking

/-!
The links of a site resolve. A comment is given its links at the moment when it is read, and the
anchors are kept when all headers have been walked; in between, docs are filled in and names
registered anew. Still each link of a doc has an anchor that is kept, with the page of the first
declaration that has it.
-/

namespace HeaderDocs.Site

set_option autoImplicit false

open Walker

/-- The first of the declarations that has an anchor, itself or by one of its members. -/
def FirstWith (anchor : String) (declarations : List Declaration) (first : Declaration) : Prop :=
  ∃ earlier later, declarations = earlier ++ first :: later ∧
    (∃ item ∈ first.items, item.anchor = anchor) ∧
    ∀ other ∈ earlier, ∀ item ∈ other.items, item.anchor ≠ anchor

/-- What the parser makes of the headers is spelled as C spells names. -/
def Spelled (workspace : Workspace) : Prop :=
  ∀ header ∈ workspace.headers.values, ∀ cursor ∈ header.cursors, cursor.Spelled

instance {workspace : Workspace} : Decidable (Spelled workspace) :=
  inferInstanceAs (Decidable (∀ header ∈ _, _))

theorem item_of_has_anchor {declaration : Declaration} {anchor : String}
    (has : HasAnchor declaration anchor) :
    ∃ item ∈ declaration.items, item.anchor = anchor := by
  rcases has with own | ⟨-, variant, member, same⟩
  · exact ⟨⟨none, declaration⟩, Declaration.mem_items.2 (Or.inl rfl), own⟩
  · exact ⟨⟨some declaration, variant⟩,
      Declaration.mem_items.2 (Or.inr ⟨variant, member, rfl⟩), same⟩

theorem find_first_with {declarations : List Declaration}
    (composed : ∀ declaration ∈ declarations, declaration.Composed) {anchor : String}
    (present : anchor ≠ "") (known : ∃ declaration ∈ declarations, HasAnchor declaration anchor) :
    ∃ first, (declarations.find? fun declaration => anchor ∈ declaration.anchors none) =
      some first ∧
      FirstWith anchor declarations first := by
  cases found : declarations.find? fun declaration => anchor ∈ declaration.anchors none with
  | none =>
      exfalso
      obtain ⟨declaration, member, has⟩ := known
      rw [List.find?_eq_none] at found
      apply found declaration member
      rw [decide_eq_true_eq, Declaration.mem_anchors (composed declaration member) present]
      exact item_of_has_anchor has
  | some first =>
      refine ⟨first, rfl, ?_⟩
      obtain ⟨has, earlier, later, rfl, apart⟩ := List.find?_eq_some_iff_append.1 found
      refine ⟨earlier, later, rfl, ?_, ?_⟩
      · rw [← Declaration.mem_anchors (composed first (by simp)) present]
        simpa using has
      · intro other member item inItems same
        have missing : anchor ∉ other.anchors none := by simpa using apart other member
        apply missing
        rw [Declaration.mem_anchors (composed other (by simp [member])) present]
        exact ⟨item, inItems, same⟩

namespace State

theorem walked_runs {state after : State} {workspace : Workspace} {walker : Walker}
    (walked : Walked state workspace after walker) (spelled : Spelled workspace) :
    ∃ allowlist cursors, (∀ cursor ∈ cursors, cursor.Spelled) ∧
      Runs allowlist {} cursors walker := by
  obtain ⟨reading, cursors, session, offered⟩ := walked_session walked
  refine ⟨reading.allowlist, cursors, ?_, runs_of_session session⟩
  intro cursor member
  obtain ⟨header, known, inHeader⟩ := offered cursor member
  exact spelled header known cursor inHeader

theorem walked_anchors {state after : State} {workspace : Workspace} {walker : Walker}
    (walked : Walked state workspace after walker) {first : Declaration} {anchor : String}
    (found : (walker.declarations.find? fun declaration => anchor ∈ declaration.anchors none) =
      some first) :
    ∃ options, state.options = some options ∧
      after.anchors.find? anchor = some (homeOf options.outputDirectory state.root first) := by
  cases walked with
  | missing absent => simp [declarations] at found
  | @walked headers options reading walker final listed given readable ran =>
      refine ⟨options, given, ?_⟩
      rw [(with_declarations_frame options _ _).2.1, anchors_filed, found]
      rfl

theorem walked_linked {state after : State} {workspace : Workspace} {walker : Walker}
    (walked : Walked state workspace after walker) (spelled : Spelled workspace) :
    (∀ declaration ∈ walker.declarations, declaration.Composed) ∧
      ∀ declaration ∈ walker.declarations, ∀ item ∈ declaration.items,
        Linked walker.declarations item.declaration.doc := by
  obtain ⟨allowlist, cursors, spelledCursors, ran⟩ := walked_runs walked spelled
  rw [declarations_of_runs ran]
  exact ⟨runs_composed ran, runs_linked spelledCursors ran⟩

/-- The anchor that a link leads to is kept with the page of the first declaration that has it. -/
theorem anchor_of_link {state after : State} {workspace : Workspace} {walker : Walker}
    (walked : Walked state workspace after walker) (spelled : Spelled workspace)
    {link : List Char × List Char} (linksTo : LinksTo walker.declarations link) :
    ∃ options first, state.options = some options ∧
      FirstWith (String.ofList link.2) walker.declarations first ∧
      after.anchors.find? (String.ofList link.2) =
        some (homeOf options.outputDirectory state.root first) := by
  have composed := (walked_linked walked spelled).1
  obtain ⟨first, isFirst, firstWith⟩ := find_first_with composed linksTo.target.1 linksTo.leads
  obtain ⟨options, given, kept⟩ := walked_anchors walked isFirst
  exact ⟨options, first, given, firstWith, kept⟩

theorem resolve_anchor_known {after : State} {anchor uri : String}
    (known : after.anchors.find? anchor = some uri) (page : String) :
    after.resolveAnchor anchor page ≠ none := by
  unfold resolveAnchor
  rw [known]
  by_cases here : uri = page
  · simp [here]
  · cases after.directoryUrls <;> simp [here]

/-- Let a walk be finished. Every doc of its declarations and their members is the Markdown of some
comment, a reader finds in it the links that the comment was given, and the anchor of each is kept
with the page of the first declaration that has it, so it is resolved from any page. -/
theorem links_resolve {state after : State} {workspace final : Workspace}
    (spelled : Spelled workspace) (finished : state.walk workspace = (after, final, none)) :
    ∀ declaration ∈ (state.walker workspace).declarations, ∀ item ∈ declaration.items,
      (∃ table text, item.declaration.doc = Comment.transform table text ∧
        Comment.foundLinks item.declaration.doc = Comment.givenLinks table text) ∧
      ∀ name target, (name, target) ∈ Comment.foundLinks item.declaration.doc →
        ∃ options first, state.options = some options ∧
          FirstWith (String.ofList target) (state.walker workspace).declarations first ∧
          after.anchors.find? (String.ofList target) =
            some (pageUri options.outputDirectory (pageLabel state.root first.file)) ∧
          ∀ page, after.resolveAnchor (String.ofList target) page ≠ none := by
  have walked := walked_of_walk finished
  intro declaration member item inItems
  have linked := (walked_linked walked spelled).2 declaration member item inItems
  constructor
  · obtain ⟨table, text, aimed, read⟩ := linked.source
    exact ⟨table, text, read, by rw [read, Comment.found_links_transform aimed]⟩
  · intro name target found
    obtain ⟨options, first, given, firstWith, kept⟩ :=
      anchor_of_link walked spelled (linked.links (name, target) found)
    exact ⟨options, first, given, firstWith, kept, resolve_anchor_known kept⟩

/-- A record of one header is documented by a type definition of another, which stands behind a
constant that it mentions. A third header is not there. -/
theorem folded_doc_links_across_pages :
    let record : Cursor := { kind := .declares .struct, spelling := "fz_a", file := some "i/a.h" }
    let enumeration : Cursor :=
      { kind := .declares .enum, spelling := "fz_e", file := some "i/b.h"
        children := [{ kind := .declares .variant, spelling := "FZ_X" }] }
    let naming : Cursor :=
      { kind := .declares .typedef, spelling := "fz_a", comment := some "/** Made of FZ_X. */"
        underlyingKind := .declares .struct, file := some "i/b.h" }
    let workspace : Workspace :=
      { tree :=
          { nodes := ⟨[(["i"], .directory), (["i", "a.h"], .file (.text "")),
            (["i", "b.h"], .file (.text ""))]⟩ }
        headers :=
          ⟨[("i/a.h", { cursors := [record] }), ("i/b.h", { cursors := [enumeration, naming] })]⟩ }
    let state : State :=
      { options := some { headers := [.text "a.h", .text "c.h", .text "b.h"] }, root := "i" }
    let after := (state.walk workspace).1
    Spelled workspace ∧ (state.walk workspace).2.2 = none ∧
      (state.walker workspace).declarations.map Declaration.doc =
        ["Made of [`FZ_X`](fz_e_FZ_X).", ""] ∧
      (∃ first, FirstWith "fz_e_FZ_X" (state.walker workspace).declarations first ∧
        after.anchors.find? "fz_e_FZ_X" =
          some (pageUri "api_reference" (pageLabel "i" first.file))) ∧
      after.resolveAnchor "fz_e_FZ_X" "api_reference/a.h.md" = some "../b.h/#fz_e_FZ_X" := by
  intro record enumeration naming workspace state after
  have spelled : Spelled workspace := by decide +kernel
  have finished : (state.walk workspace).2.2 = none := by decide +kernel
  have docs : (state.walker workspace).declarations.map Declaration.doc =
      ["Made of [`FZ_X`](fz_e_FZ_X).", ""] := by
    decide +kernel
  obtain ⟨declaration, member, doc⟩ : ∃ declaration ∈ (state.walker workspace).declarations,
      declaration.doc = "Made of [`FZ_X`](fz_e_FZ_X)." := by
    apply List.mem_map.1
    rw [docs]
    exact List.mem_cons_self
  obtain ⟨-, resolves⟩ :=
    links_resolve spelled (Prod.ext rfl (Prod.ext rfl finished)) declaration member
    ⟨none, declaration⟩ (Declaration.mem_items.2 (Or.inl rfl))
  have link : ("FZ_X".toList, "fz_e_FZ_X".toList) ∈ Comment.foundLinks declaration.doc := by
    rw [doc]
    decide +kernel
  obtain ⟨options, first, given, firstWith, kept, -⟩ := resolves _ _ link
  rw [String.ofList_toList] at firstWith kept
  obtain rfl : options = { headers := [.text "a.h", .text "c.h", .text "b.h"] } :=
    (Option.some.inj given).symm
  exact ⟨spelled, finished, docs, ⟨first, firstWith, kept⟩, by decide +kernel⟩

end State

end HeaderDocs.Site
