import HeaderDocs.Proofs.Site.Pages
import HeaderDocs.Proofs.Site.Skipping
import HeaderDocs.Site.Hooks

/-!
The configuration of a site, read once or again. What an earlier build left in the state plays no
part: everything but the options is forgotten before the headers are walked. A second reading finds
its own section in the navigation and puts the same one there. Nothing is assumed of the earlier
state, nor of the items that the navigation has.
-/

namespace HeaderDocs.Site

set_option autoImplicit false

namespace Value

variable {config : Value} {name other : String} {value : Value}

theorem put_field_eq_put (fields : List (String × Value)) :
    putField name value fields = Index.put name value fields := by
  induction fields with
  | nil => rfl
  | cons field fields ih => rw [putField, Index.put, ih]

def isRecord : Value → Bool
  | record _ => true
  | _ => false

theorem field_with_field (config : Value) (name other : String) (value : Value) :
    (config.withField name value).field? other =
      if other = name ∧ config.isRecord then some value else config.field? other := by
  cases config with
  | record fields =>
      have found := Index.lookup_put name other value fields
      rw [← put_field_eq_put] at found
      simpa [withField, field?, isRecord] using found
  | _ => simp [withField, field?, isRecord]

theorem field_with_other (differs : other ≠ name) :
    (config.withField name value).field? other = config.field? other := by
  simp [field_with_field, differs]

theorem is_record_with_field : (config.withField name value).isRecord = config.isRecord := by
  cases config <;> rfl

theorem with_field_known (known : config.field? name = some value) :
    config.withField name value = config := by
  cases config with
  | record fields => rw [withField, put_field_eq_put, Index.put_known known]
  | _ => rfl

theorem is_record_of_field (known : config.field? name = some value) : config.isRecord := by
  cases config <;> first | rfl | simp [field?] at known

theorem field_with_same (record : config.isRecord) :
    (config.withField name value).field? name = some value := by
  simp [field_with_field, record]

end Value

open Value

section LinkCheck

variable {config other : Value}

def relaxedLinks (links : List (String × Value)) : Value :=
  (Value.record links).withField "unrecognized_links" (.number 0)

theorem relax_of_links {validation : Value} {links : List (String × Value)}
    (checks : config.field? "validation" = some validation)
    (found : validation.field? "links" = some (.record links)) :
    relaxLinkCheck config = config.withField "validation"
      (validation.withField "links" (relaxedLinks links)) := by
  simp only [relaxLinkCheck, checks, found, relaxedLinks]

theorem relax_of_no_links (none : ∀ validation links, config.field? "validation" = some validation →
    validation.field? "links" ≠ some (.record links)) : relaxLinkCheck config = config := by
  unfold relaxLinkCheck
  split
  · rename_i validation checks
    split
    · rename_i links found
      exact absurd found (none validation links checks)
    · rfl
  · rfl

theorem field_relaxed {name : String} (differs : name ≠ "validation") :
    (relaxLinkCheck config).field? name = config.field? name := by
  unfold relaxLinkCheck
  split
  · split
    · exact field_with_other differs
    · rfl
  · rfl

theorem is_record_relaxed : (relaxLinkCheck config).isRecord = config.isRecord := by
  unfold relaxLinkCheck
  split
  · split
    · exact is_record_with_field
    · rfl
  · rfl

theorem relax_relaxed
    (same : other.field? "validation" = (relaxLinkCheck config).field? "validation") :
    relaxLinkCheck other = other := by
  by_cases linked : ∃ validation links, config.field? "validation" = some validation ∧
      validation.field? "links" = some (.record links)
  · obtain ⟨validation, links, checks, found⟩ := linked
    rw [relax_of_links checks found, field_with_same (is_record_of_field checks)] at same
    have relaxed : (validation.withField "links" (relaxedLinks links)).field? "links" =
        some (relaxedLinks links) := field_with_same (is_record_of_field found)
    have switched : (relaxedLinks links).field? "unrecognized_links" = some (.number 0) :=
      field_with_same rfl
    obtain ⟨again, isAgain⟩ : ∃ again, relaxedLinks links = .record again := ⟨_, rfl⟩
    rw [isAgain] at relaxed switched same
    rw [relax_of_links same relaxed, relaxedLinks, with_field_known switched,
      with_field_known relaxed, with_field_known same]
  · simp only [not_exists, not_and] at linked
    rw [relax_of_no_links linked] at same
    exact relax_of_no_links (by simpa only [same] using linked)

end LinkCheck

section Navigation

variable {title : String} {newSection : Value} {items : List Value}

/-- What becomes of the items of a navigation when a section is put there: it takes the place of the
first item of its title, or else comes last. All other items stay, in their order. -/
inductive Sectioned (title : String) (newSection : Value) : List Value → List Value → Prop
  | replaced (before : List Value) (old : Value) (after : List Value)
      (others : ∀ item ∈ before, hasTitle title item = false) (titled : hasTitle title old = true) :
      Sectioned title newSection (before ++ old :: after) (before ++ newSection :: after)
  | added {items : List Value} (others : ∀ item ∈ items, hasTitle title item = false) :
      Sectioned title newSection items (items ++ [newSection])

theorem sectioned_place (title : String) (newSection : Value) (items : List Value) :
    Sectioned title newSection items (placeSection title newSection items) := by
  induction items with
  | nil => exact .added (by simp)
  | cons item items ih =>
      rw [placeSection]
      cases titled : hasTitle title item with
      | true => exact .replaced [] item items (by simp) titled
      | false =>
          generalize placeSection title newSection items = placed at ih
          cases ih with
          | replaced before old after others first =>
              exact .replaced (item :: before) old after (by simpa [titled] using others) first
          | added others => exact .added (by simpa [titled] using others)

theorem place_placed (own : hasTitle title newSection = true) :
    placeSection title newSection (placeSection title newSection items) =
      placeSection title newSection items := by
  induction items with
  | nil => simp [placeSection, own]
  | cons item items ih =>
      cases titled : hasTitle title item with
      | true => simp [placeSection, titled, own]
      | false => simp [placeSection, titled, ih]

theorem has_title_section (state : State) (options : Options) :
    hasTitle options.navTitle (navigationSection state options) = true := by
  simp [hasTitle, navigationSection, field?]

/-- The items of a navigation, if it can be extended: it is missing, null or a list. -/
def navigationItems? (config : Value) : Option (List Value) :=
  match (config.field? "nav").getD .null with
  | .null => some []
  | .list items => some items
  | _ => none

theorem with_navigation_items {state : State} {options : Options} {config : Value}
    (given : state.options = some options) (inhabited : state.pages.isEmpty = false)
    (listed : navigationItems? config = some items) :
    withNavigation state config =
      .ok (config.withField "nav" (.list
        (placeSection options.navTitle (navigationSection state options) items))) := by
  unfold navigationItems? at listed
  simp only [withNavigation, inhabited, given, Bool.false_eq_true, if_false]
  split at listed
  · rename_i absent
    obtain rfl := Option.some.inj listed
    simp only [absent, placeSection]
  · rename_i found
    obtain rfl := Option.some.inj listed
    simp only [found]
  · simp at listed

theorem with_navigation_fails {state : State} {config : Value}
    (inhabited : state.pages.isEmpty = false) (unlisted : navigationItems? config = none) :
    ∃ failure, withNavigation state config = .error failure := by
  unfold navigationItems? at unlisted
  simp only [withNavigation, inhabited, Bool.false_eq_true, if_false]
  split
  · exact ⟨_, rfl⟩
  · cases nav : (config.field? "nav").getD .null <;> simp [nav] at unlisted ⊢

end Navigation

namespace State

section SameFiles

variable {first second workspace : Workspace}

/-- Two workspaces that differ only in the trace that runs leave: the files and the headers in them
are the same. -/
structure SameFiles (first second : Workspace) : Prop where
  tree : first.tree = second.tree
  headers : first.headers = second.headers

theorem shelf_of_same_files (same : SameFiles first second) : first.shelf = second.shelf := by
  funext path
  rw [Workspace.shelf, Workspace.shelf, same.tree, same.headers]

theorem walk_listed_keeps (reading : Reading) (root : String) (walker : Walker)
    (workspace : Workspace) (header : Value) :
    SameFiles (walkListed reading root walker workspace header).2.1 workspace := by
  unfold walkListed
  cases header with
  | text listed =>
      simp only
      split
      · exact ⟨rfl, rfl⟩
      · split
        · exact ⟨rfl, rfl⟩
        · split <;> exact ⟨rfl, rfl⟩
  | _ => exact ⟨rfl, rfl⟩

theorem walk_headers_keeps (reading : Reading) (root : String) (walker : Walker)
    (workspace : Workspace) (headers : List Value) :
    SameFiles (walkHeaders reading root walker workspace headers).2.1 workspace := by
  induction headers generalizing walker workspace with
  | nil => exact ⟨rfl, rfl⟩
  | cons header headers ih =>
      have kept := walk_listed_keeps reading root walker workspace header
      rw [walkHeaders]
      split
      · rename_i next later passed
        rw [passed] at kept
        have others := ih next later
        exact ⟨others.tree.trans kept.tree, others.headers.trans kept.headers⟩
      · rename_i next later failure stopped
        rw [stopped] at kept
        exact kept

theorem walk_listed_same (same : SameFiles first second) (reading : Reading) (root : String)
    (walker : Walker) (header : Value) :
    (walkListed reading root walker first header).1 =
      (walkListed reading root walker second header).1 ∧
      (walkListed reading root walker first header).2.2 =
        (walkListed reading root walker second header).2.2 := by
  unfold walkListed
  cases header with
  | text listed =>
      simp only [same.tree, shelf_of_same_files same]
      split
      · exact ⟨rfl, rfl⟩
      · split
        · exact ⟨rfl, rfl⟩
        · split <;> exact ⟨rfl, rfl⟩
  | _ => exact ⟨rfl, rfl⟩

theorem walk_headers_same (same : SameFiles first second) (reading : Reading) (root : String)
    (walker : Walker) (headers : List Value) :
    (walkHeaders reading root walker first headers).1 =
      (walkHeaders reading root walker second headers).1 ∧
      (walkHeaders reading root walker first headers).2.2 =
        (walkHeaders reading root walker second headers).2.2 := by
  induction headers generalizing walker first second with
  | nil => exact ⟨rfl, rfl⟩
  | cons header headers ih =>
      obtain ⟨sameWalker, sameFailure⟩ := walk_listed_same same reading root walker header
      have keptFirst := walk_listed_keeps reading root walker first header
      have keptSecond := walk_listed_keeps reading root walker second header
      rw [walkHeaders, walkHeaders]
      rcases left : walkListed reading root walker first header with ⟨next, later, failure⟩
      rcases right : walkListed reading root walker second header with ⟨other, final, cause⟩
      simp only [left, right] at sameWalker sameFailure keptFirst keptSecond ⊢
      subst sameWalker sameFailure
      cases failure with
      | none =>
          exact ih ⟨keptFirst.tree.trans (same.tree.trans keptSecond.tree.symm),
            keptFirst.headers.trans (same.headers.trans keptSecond.headers.symm)⟩ next
      | some failure => exact ⟨rfl, rfl⟩

theorem walk_keeps (state : State) (workspace : Workspace) :
    SameFiles (state.walk workspace).2.1 workspace := by
  unfold walk
  simp only
  split
  · exact ⟨rfl, rfl⟩
  · split
    · exact ⟨rfl, rfl⟩
    · exact ⟨rfl, rfl⟩
    · rename_i headers options _ _
      split
      · exact ⟨rfl, rfl⟩
      · rename_i reading _
        have kept :=
          walk_headers_keeps reading state.cleared.root { symbols := state.cleared.symbols }
          workspace headers
        split
        · rename_i ran
          rw [ran] at kept
          exact kept
        · rename_i ran
          rw [ran] at kept
          exact ⟨kept.tree, kept.headers⟩

/-- What the walk makes depends on the files alone. -/
theorem walk_same (same : SameFiles first second) (state : State) :
    (state.walk first).1 = (state.walk second).1 ∧
      (state.walk first).2.2 = (state.walk second).2.2 := by
  unfold walk
  simp only [same.tree]
  split
  · exact ⟨rfl, rfl⟩
  · split
    · exact ⟨rfl, rfl⟩
    · exact ⟨rfl, rfl⟩
    · rename_i headers options _ _
      split
      · exact ⟨rfl, rfl⟩
      · rename_i reading _
        obtain ⟨sameWalker, sameFailure⟩ := walk_headers_same same reading state.cleared.root
          { symbols := state.cleared.symbols } headers
        rcases left : walkHeaders reading state.cleared.root { symbols := state.cleared.symbols }
          first headers with
          ⟨walker, later, failure⟩
        rcases right : walkHeaders reading state.cleared.root { symbols := state.cleared.symbols }
          second headers with
          ⟨other, final, cause⟩
        simp only [left, right] at sameWalker sameFailure ⊢
        subst sameWalker sameFailure
        cases failure <;> exact ⟨rfl, rfl⟩

end SameFiles

/-- What was found by an earlier walk is forgotten. -/
theorem walk_cleared (state : State) (workspace : Workspace) :
    state.walk workspace = state.cleared.walk workspace :=
  rfl

theorem options_of_walk {state after : State} {workspace final : Workspace}
    (finished : state.walk workspace = (after, final, none)) :
    after.options = state.options ∧ (after.pages.isEmpty = false → after.options.isSome) := by
  have walked := walked_of_walk finished
  generalize state.walker workspace = walker at walked
  cases walked with
  | missing absent => exact ⟨rfl, fun inhabited => by simp [cleared, Index.isEmpty] at inhabited⟩
  | @walked headers options reading _ final listed given readable ran =>
      have same :
          (withDeclarations options { state.cleared with symbols := walker.symbols }
          walker.declarations).options =
          state.options := by
        rw [(with_declarations_frame options _ walker.declarations).1,
          (filed_frame options.outputDirectory _ _).1]
        rfl
      exact ⟨same, fun _ => by rw [same, given]; rfl⟩

/-- The state in which the headers are walked: with the root and the kind of addresses that the
configuration asks for, and no temporary files. -/
def entering (state : State) (config : Value) (directory : String) : State :=
  { state with
    temporary := []
    root := state.resolveRoot directory
    directoryUrls := ((config.field? "use_directory_urls").getD (.bool true)).isGiven }

end State

open State

theorem configure_entered {state : State} {config : Value} {directory : String}
    (entered : configDirectory config = .ok directory) (workspace : Workspace) :
    configure state workspace config =
      match (state.entering config directory).walk workspace with
      | (state, workspace, some failure) => ⟨state, workspace, relaxLinkCheck config, some failure⟩
      | (state, workspace, none) =>
          match withNavigation state (relaxLinkCheck config) with
          | .ok config => ⟨state, workspace, config, none⟩
          | .error failure => ⟨state, workspace, relaxLinkCheck config, some failure⟩ := by
  rw [configure, entered]
  rfl

theorem configure_alike {state other : State} {config : Value} {directory : String}
    (entered : configDirectory config = .ok directory) (sameOptions : state.options = other.options)
    (workspace : Workspace) :
    configure state workspace config = configure other workspace config := by
  have sameEntry : (state.entering config directory).cleared =
      (other.entering config directory).cleared := by
    simp only [entering, cleared, resolveRoot, sameOptions]
  rw [configure_entered entered, configure_entered entered, walk_cleared, sameEntry, ← walk_cleared]

inductive Extended (state : State) (config : Value) : Value → Prop
  | unpaged (empty : state.pages.isEmpty = true) : Extended state config config
  | sectioned {options : Options} {items : List Value} (given : state.options = some options)
      (inhabited : state.pages.isEmpty = false) (listed : navigationItems? config = some items) :
      Extended state config
        (config.withField "nav" (.list
          (placeSection options.navTitle (navigationSection state options) items)))

section Extension

variable {state : State} {config extended : Value}

theorem extended_iff (optioned : state.pages.isEmpty = false → state.options.isSome) :
    withNavigation state config = .ok extended ↔ Extended state config extended := by
  cases pages : state.pages.isEmpty with
  | true =>
      have left : withNavigation state config = .ok config := by
        rw [withNavigation, pages, if_pos rfl]
      rw [left, Except.ok.injEq]
      constructor
      · rintro rfl
        exact .unpaged pages
      · intro extension
        cases extension with
        | unpaged => rfl
        | sectioned _ inhabited => simp [pages] at inhabited
  | false =>
      obtain ⟨options, given⟩ := Option.isSome_iff_exists.1 (optioned pages)
      cases listed : navigationItems? config with
      | none =>
          obtain ⟨failure, failed⟩ := with_navigation_fails pages listed
          rw [failed]
          refine ⟨fun succeeded => by simp at succeeded, fun extension => ?_⟩
          cases extension with
          | unpaged empty => simp [pages] at empty
          | sectioned _ _ found => simp [listed] at found
      | some items =>
          rw [with_navigation_items given pages listed, Except.ok.injEq]
          constructor
          · rintro rfl
            exact .sectioned given pages listed
          · intro extension
            cases extension with
            | unpaged empty => simp [pages] at empty
            | sectioned other _ found =>
                obtain rfl := Option.some.inj (given.symm.trans other)
                obtain rfl := Option.some.inj (listed.symm.trans found)
                rfl

theorem extended_exists_iff (optioned : state.pages.isEmpty = false → state.options.isSome) :
    (∃ extended, Extended state config extended) ↔
      state.pages.isEmpty = true ∨ (navigationItems? config).isSome := by
  constructor
  · rintro ⟨extended, empty | ⟨given, inhabited, listed⟩⟩
    · exact .inl empty
    · exact .inr (by rw [listed]; rfl)
  · intro possible
    cases pages : state.pages.isEmpty with
    | true => exact ⟨config, .unpaged pages⟩
    | false =>
        obtain ⟨options, given⟩ := Option.isSome_iff_exists.1 (optioned pages)
        obtain ⟨items, listed⟩ :=
          Option.isSome_iff_exists.1 (possible.resolve_left (by simp [pages]))
        exact ⟨_, .sectioned given pages listed⟩

theorem field_extended (extension : Extended state config extended) {name : String}
    (differs : name ≠ "nav") :
    extended.field? name = config.field? name := by
  cases extension with
  | unpaged => rfl
  | sectioned => exact field_with_other differs

theorem extended_again (extension : Extended state config extended) :
    Extended state extended extended := by
  cases extension with
  | unpaged empty => exact .unpaged empty
  | @sectioned options items given inhabited listed =>
      cases record : config.isRecord with
      | true =>
          generalize made :
            placeSection options.navTitle (navigationSection state options) items = placed
          have nav : (config.withField "nav" (.list placed)).field? "nav" = some (.list placed) :=
            field_with_same record
          have listedAgain : navigationItems? (config.withField "nav" (.list placed)) =
              some placed := by
            rw [navigationItems?, nav]
            rfl
          have extension := Extended.sectioned given inhabited listedAgain
          have placedAgain :
              placeSection options.navTitle (navigationSection state options) placed = placed := by
            rw [← made, place_placed (has_title_section state options)]
          rwa [placedAgain, with_field_known nav] at extension
      | false =>
          have fixed (value : Value) : config.withField "nav" value = config := by
            cases config <;> first | rfl | simp [isRecord] at record
          have placed := Extended.sectioned given inhabited listed
          rwa [fixed] at placed ⊢

end Extension

variable {state after : State} {workspace final : Workspace} {config : Value} {directory : String}

theorem configure_extended {extended : Value} (entered : configDirectory config = .ok directory)
    (walked : (state.entering config directory).walk workspace = (after, final, none))
    (extension : Extended after (relaxLinkCheck config) extended) :
    configure state workspace config = ⟨after, final, extended, none⟩ := by
  have optioned := (options_of_walk walked).2
  rw [configure_entered entered, walked]
  simp only [(extended_iff optioned).2 extension]

theorem configure_unlisted (entered : configDirectory config = .ok directory)
    (walked : (state.entering config directory).walk workspace = (after, final, none))
    (inhabited : after.pages.isEmpty = false)
    (unlisted : navigationItems? (relaxLinkCheck config) = none) :
    ∃ failure, configure state workspace config =
      ⟨after, final, relaxLinkCheck config, some failure⟩ := by
  obtain ⟨failure, failed⟩ := with_navigation_fails inhabited unlisted
  rw [configure_entered entered, walked]
  simp only [failed]
  exact ⟨failure, rfl⟩

/-- A configuration that was read is read again with the same outcome. -/
theorem configure_again {extended : Value} (entered : configDirectory config = .ok directory)
    (walked : (state.entering config directory).walk workspace = (after, final, none))
    (extension : Extended after (relaxLinkCheck config) extended) :
    ∃ last, configure after final extended = ⟨after, last, extended, none⟩ := by
  have field {name : String} (notNav : name ≠ "nav") (notCheck : name ≠ "validation") :
      extended.field? name = config.field? name :=
    (field_extended extension notNav).trans (field_relaxed notCheck)
  have enteredAgain : configDirectory extended = .ok directory := by
    rw [← entered, configDirectory, configDirectory, field (by decide) (by decide)]
  have sameEntry : (state.entering extended directory) = state.entering config directory := by
    rw [entering, entering, field (by decide) (by decide)]
  obtain ⟨last, walkedAgain⟩ : ∃ last, (state.entering extended directory).walk final =
      (after, last, none) := by
    obtain ⟨sameState, sameFailure⟩ :=
      walk_same (walk_keeps (state.entering config directory) workspace)
        (state.entering config directory)
    rw [walked] at sameState sameFailure
    rw [sameEntry]
    rcases ended : (state.entering config directory).walk final with ⟨other, last, failure⟩
    rw [ended] at sameState sameFailure
    obtain ⟨rfl, rfl⟩ : other = after ∧ failure = none := ⟨sameState, sameFailure⟩
    exact ⟨last, rfl⟩
  have relaxed : relaxLinkCheck extended = extended :=
    relax_relaxed (field_extended extension (by decide))
  have sameOptions : after.options = state.options := (options_of_walk walked).1
  refine ⟨last, ?_⟩
  rw [configure_alike enteredAgain sameOptions]
  exact configure_extended enteredAgain walkedAgain
    (by rw [relaxed]; exact extended_again extension)

theorem items_relaxed : navigationItems? (relaxLinkCheck config) = navigationItems? config := by
  rw [navigationItems?, navigationItems?, field_relaxed (by decide)]

/-- What extending a configuration leaves of it: all but the check of links and the navigation, and
of that all items but the section. -/
theorem fields_of_extended {extended : Value}
    (extension : Extended after (relaxLinkCheck config) extended) :
    (∀ name, name ≠ "nav" → name ≠ "validation" → extended.field? name = config.field? name) ∧
      (after.pages.isEmpty = true → extended.field? "nav" = config.field? "nav") ∧
      (after.pages.isEmpty = false → config.isRecord → ∃ options items sectioned,
        after.options = some options ∧ navigationItems? config = some items ∧
        extended.field? "nav" = some (.list sectioned) ∧
        Sectioned options.navTitle (navigationSection after options) items sectioned) := by
  refine ⟨?_, ?_, ?_⟩
  · intro name notNav notCheck
    exact (field_extended extension notNav).trans (field_relaxed notCheck)
  · intro empty
    cases extension with
    | unpaged => exact field_relaxed (by decide)
    | sectioned _ inhabited => simp [empty] at inhabited
  · intro inhabited record
    cases extension with
    | unpaged empty => simp [inhabited] at empty
    | @sectioned options items given _ listed =>
        exact ⟨options, items, _, given, items_relaxed.symm.trans listed,
          field_with_same (is_record_relaxed.trans record), sectioned_place _ _ _⟩

/-- The configuration is read as if the site were new, whatever was built before; without the
directory of the headers there is nothing left of that. Unless the navigation can hold no section,
the configuration comes back with the section in its navigation and all other items in their places,
and reading it again changes neither it nor the state. -/
theorem configured_afresh (entered : configDirectory config = .ok directory)
    (finished : ((state.entering config directory).walk workspace).2.2 = none) :
    let first := configure state workspace config
    let again := configure first.state first.workspace first.config
    first = configure { options := state.options } workspace config ∧
      (workspace.tree.isDirectory (state.resolveRoot directory) = false →
        first.state.symbols = {} ∧ first.state.pages = {} ∧ first.state.anchors = {}) ∧
      (first.failure = none ↔ first.state.pages.isEmpty = true ∨ (navigationItems? config).isSome) ∧
      (first.failure = none →
        (again.failure = none ∧ again.config = first.config ∧ again.state = first.state) ∧
        (∀ name, name ≠ "nav" → name ≠ "validation" →
          first.config.field? name = config.field? name) ∧
        (first.state.pages.isEmpty = true → first.config.field? "nav" = config.field? "nav") ∧
        (first.state.pages.isEmpty = false → config.isRecord → ∃ options items sectioned,
          state.options = some options ∧ navigationItems? config = some items ∧
          first.config.field? "nav" = some (.list sectioned) ∧
          Sectioned options.navTitle (navigationSection first.state options) items sectioned)) := by
  intro first again
  rcases walked : (state.entering config directory).walk workspace with ⟨after, final, failure⟩
  obtain rfl : failure = none := by rwa [walked] at finished
  obtain ⟨same, optioned⟩ := options_of_walk walked
  have sameOptions : after.options = state.options := same
  have afresh : first = configure { options := state.options } workspace config :=
    @configure_alike state { options := state.options } config directory entered rfl workspace
  have rootless : workspace.tree.isDirectory (state.resolveRoot directory) = false →
      after.symbols = {} ∧ after.pages = {} ∧ after.anchors = {} := by
    intro missing
    have ended := @walk_without_root workspace (state.entering config directory) missing
    rw [walked, Prod.mk.injEq] at ended
    rw [ended.1]
    exact ⟨rfl, rfl, rfl⟩
  refine ⟨afresh, ?_⟩
  by_cases extensible : ∃ extended, Extended after (relaxLinkCheck config) extended
  · have possible := (extended_exists_iff optioned).1 extensible
    obtain ⟨extended, extension⟩ := extensible
    have outcome : first = ⟨after, final, extended, none⟩ :=
      configure_extended entered walked extension
    obtain ⟨last, outcomeAgain⟩ := configure_again entered walked extension
    have ended : again = ⟨after, last, extended, none⟩ := by
      simp only [again, outcome, outcomeAgain]
    rw [ended, outcome]
    rw [items_relaxed] at possible
    rw [← sameOptions]
    exact ⟨rootless, ⟨fun _ => possible, fun _ => rfl⟩,
      fun _ => ⟨⟨rfl, rfl, rfl⟩, fields_of_extended extension⟩⟩
  · have impossible : ¬(after.pages.isEmpty = true ∨ (navigationItems? config).isSome) := by
      rwa [← items_relaxed, ← extended_exists_iff optioned]
    obtain ⟨inhabited, unlisted⟩ := not_or.1 impossible
    obtain ⟨failure, outcome⟩ := configure_unlisted entered walked (by simpa using inhabited)
      (by rw [items_relaxed]; simpa using unlisted)
    have ended : first = ⟨after, final, relaxLinkCheck config, some failure⟩ := outcome
    rw [ended]
    exact ⟨rootless, ⟨fun absent => by simp at absent, fun possible => absurd possible impossible⟩,
      fun absent => by simp at absent⟩

/-- A site with leftovers of another build, whose navigation has two sections of the title: the
first one is replaced, and nothing else moves. -/
theorem second_section_kept :
    let declared : Cursor :=
      { kind := .declares .struct, spelling := "fz_a", file := some "proj/i/a.h" }
    let workspace : Workspace :=
      { tree :=
          { nodes := ⟨[(["proj"], .directory), (["proj", "i"], .directory),
            (["proj", "i", "a.h"], .file (.text ""))]⟩ }
        headers := ⟨[("proj/i/a.h", { cursors := [declared] })]⟩ }
    let state : State :=
      { options := some { headerRoot := "i", headers := [.text "a.h"] }
        symbols := ⟨[("fz_old", "fz_old")]⟩
        pages := ⟨[("old.md", ⟨"old", []⟩)]⟩
        anchors := ⟨[("fz_old", "old.md")]⟩
        temporary := ["docs/old.md"] }
    let config : Value := .record [("config_file_path", .text "proj/mkdocs.yml"),
      ("nav", .list [.text "index.md", .record [("API Reference", .text "old.md")],
        .record [("API Reference", .text "other.md")]])]
    let first := configure state workspace config
    (configDirectory config = .ok "proj" ∧
      ((state.entering config "proj").walk workspace).2.2 = none) ∧
      first.failure = none ∧ first.state.symbols.keys = ["fz_a"] ∧ first.state.temporary = [] ∧
      ∃ items sectioned, navigationItems? config = some items ∧
        first.config.field? "nav" = some (.list sectioned) ∧
        Sectioned "API Reference" (navigationSection first.state
          { headerRoot := "i", headers := [.text "a.h"] })
          items sectioned := by
  intro declared workspace state config first
  have entered : configDirectory config = .ok "proj" := by decide +kernel
  have finished : ((state.entering config "proj").walk workspace).2.2 = none := by decide +kernel
  obtain ⟨-, -, succeeds, leaves⟩ := configured_afresh entered finished
  have read : first.failure = none := succeeds.2 (.inr rfl)
  obtain ⟨-, -, -, navigation⟩ := leaves read
  obtain ⟨options, items, sectioned, given, listed, nav, placed⟩ :=
    navigation (by decide +kernel) rfl
  obtain rfl : _ = options := Option.some.inj given
  exact ⟨⟨entered, finished⟩, read, by decide +kernel, by
    decide +kernel, items, sectioned, listed, nav, placed⟩

end HeaderDocs.Site
