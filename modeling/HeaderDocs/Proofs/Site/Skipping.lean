import HeaderDocs.Proofs.Site.Walk

/-!
Headers that a site lists but cannot have. One that is missing, or that the parser cannot load, is
noted and changes nothing else, wherever it stands among the others: the walk ends as if it had not
been listed. The files are looked at only if the directory of the headers is there; headers may be
listed that do not stand below it.
-/

namespace HeaderDocs.Site.State

set_option autoImplicit false

open Walker

def headerPath (root listed : String) : String :=
  Path.normalize (Path.join root listed)

def loaded? (workspace : Workspace) (path : String) : Option Header :=
  (workspace.shelf path).filter fun header => header.loadError.isNone

/-- What is noted of the header at a path: a warning if it is missing, an error if it cannot be
loaded, and else what the parser complains of. -/
def noted (workspace : Workspace) (path : String) : List Notice :=
  match workspace.shelf path with
  | none => [⟨.warning, "fzbind: header not found: " ++ path⟩]
  | some header =>
      match header.loadError with
      | some cause => [⟨.error, "fzbind: " ++ (Failure.headerUnreadable path cause).message⟩]
      | none => Reading.complaints path header.diagnostics

/-- The notice of a header that is not loaded: it is missing, or the parser fails. -/
inductive Lost (workspace : Workspace) (path : String) : Notice → Prop
  | missing (absent : workspace.shelf path = none) :
      Lost workspace path ⟨.warning, "fzbind: header not found: " ++ path⟩
  | failed {header : Header} {cause : String} (onShelf : workspace.shelf path = some header)
      (failed : header.loadError = some cause) :
      Lost workspace path ⟨.error, "fzbind: " ++ (Failure.headerUnreadable path cause).message⟩

structure Noting (before after : Workspace) (added : List Notice) : Prop where
  tree : after.tree = before.tree
  headers : after.headers = before.headers
  notices : after.report.notices = before.report.notices ++ added

variable {before middle later workspace : Workspace} {root listed path : String} {reading : Reading}
  {walker after : Walker}

theorem noting_trans {first second : List Notice} (noting : Noting before middle first)
    (others : Noting middle later second) : Noting before later (first ++ second) :=
  ⟨others.tree.trans noting.tree, others.headers.trans noting.headers, by
    rw [others.notices, noting.notices, List.append_assoc]⟩

theorem headers_of_noting {added : List Notice} (noting : Noting before later added) :
    loaded? later = loaded? before ∧ noted later = noted before := by
  have same : later.shelf = before.shelf := by
    funext path
    rw [Workspace.shelf, Workspace.shelf, noting.tree, noting.headers]
  constructor <;> funext path
  · rw [loaded?, loaded?, same]
  · rw [noted, noted, same]

theorem noted_of_lost (lost : loaded? workspace path = none) :
    ∃ notice, Lost workspace path notice ∧ noted workspace path = [notice] := by
  cases onShelf : workspace.shelf path with
  | none => exact ⟨_, .missing onShelf, by rw [noted, onShelf]⟩
  | some header =>
      cases failed : header.loadError with
      | none => simp [loaded?, onShelf, failed] at lost
      | some cause => exact ⟨_, .failed onShelf failed, by simp only [noted, onShelf, failed]⟩

theorem is_file_iff_on_shelf : workspace.tree.isFile path = (workspace.shelf path).isSome := by
  unfold Workspace.shelf
  split <;> simp_all

theorem walk_listed_skip (place : headerPath root listed = path)
    (lost : loaded? workspace path = none) :
    ∃ later, walkListed reading root walker workspace (.text listed) = (walker, later, none) ∧
      Noting workspace later (noted workspace path) := by
  unfold headerPath at place
  obtain ⟨notice, missing | @⟨header, cause, onShelf, failed⟩, notices⟩ := noted_of_lost lost
  · rw [notices]
    refine ⟨workspace.note .warning ("fzbind: header not found: " ++ path), ?_, rfl, rfl, rfl⟩
    simp only [walkListed, place, is_file_iff_on_shelf, missing, Option.isSome_none, Bool.not_false,
      if_true]
  · have read : reading.read workspace.shelf walker path =
        { walker := walker
          report := { calls := [reading.call path] }
          failure := some (.headerUnreadable path cause) } := by
      simp only [Reading.read, onShelf, failed]
    rw [notices]
    refine ⟨(workspace.addReport { calls := [reading.call path] }).note .error
      ("fzbind: " ++ (Failure.headerUnreadable path cause).message), ?_, rfl, rfl, ?_⟩
    · simp only [walkListed, place, is_file_iff_on_shelf, onShelf, Option.isSome_some,
        Bool.not_true, Bool.false_eq_true, if_false, read, Failure.isReported, if_true]
    · exact congrArg (· ++ _) (List.append_nil _)

theorem walk_listed_load {header : Header} (place : headerPath root listed = path)
    (found : loaded? workspace path = some header)
    (ran : Runs reading.allowlist walker header.cursors after) :
    ∃ later, walkListed reading root walker workspace (.text listed) = (after, later, none) ∧
      Noting workspace later (noted workspace path) := by
  unfold headerPath at place
  obtain ⟨onShelf, loads⟩ := Option.filter_eq_some_iff.1 found
  rw [Option.isNone_iff_eq_none] at loads
  have notices : noted workspace path = Reading.complaints path header.diagnostics := by
    simp only [noted, onShelf, loads]
  have read : reading.read workspace.shelf walker path =
      { walker := after
        report := ⟨[reading.call path], Reading.complaints path header.diagnostics⟩ } := by
    simp only [Reading.read, onShelf, loads, walk_header_of_runs ran]
  rw [notices]
  refine ⟨workspace.addReport ⟨[reading.call path], Reading.complaints path header.diagnostics⟩, ?_,
    rfl, rfl, rfl⟩
  simp only [walkListed, place, is_file_iff_on_shelf, onShelf, Option.isSome_some, Bool.not_true,
    Bool.false_eq_true, if_false, read]

/-- A walk over listed headers is a run over the cursors of those that are loaded, and each header
is noted. -/
theorem walk_headers_skip {listed : List String}
    (ran : Runs reading.allowlist walker
      (((listed.map (headerPath root)).filterMap (loaded? workspace)).flatMap Header.cursors)
      after) :
    ∃ final, walkHeaders reading root walker workspace (listed.map .text) = (after, final, none) ∧
      Noting workspace final ((listed.map (headerPath root)).flatMap (noted workspace)) := by
  induction listed generalizing walker workspace with
  | nil => exact ⟨workspace, by rw [runs_nil.1 ran]; rfl, rfl, rfl, (List.append_nil _).symm⟩
  | cons name rest ih =>
      -- How the path is made plays no part from here on.
      obtain ⟨path, place⟩ : ∃ path, headerPath root name = path := ⟨_, rfl⟩
      simp only [List.map_cons, place] at ran ⊢
      have continued : ∀ {next : Walker} {later : Workspace},
          walkListed reading root walker workspace (.text name) = (next, later, none) →
          Noting workspace later (noted workspace path) →
          Runs reading.allowlist next
            (((rest.map (headerPath root)).filterMap (loaded? workspace)).flatMap Header.cursors)
              after →
          ∃ final, walkHeaders reading root walker workspace (.text name :: rest.map .text) =
            (after, final, none) ∧
            Noting workspace final ((path :: rest.map (headerPath root)).flatMap
              (noted workspace)) := by
        intro next later passed noting ran
        obtain ⟨sameLoaded, sameNoted⟩ := headers_of_noting noting
        rw [← sameLoaded] at ran
        obtain ⟨final, walked, others⟩ := ih ran
        rw [sameNoted] at others
        refine ⟨final, ?_, noting_trans noting others⟩
        rw [walkHeaders, passed]
        exact walked
      cases found : loaded? workspace path with
      | none =>
          rw [List.filterMap_cons_none found] at ran
          obtain ⟨later, passed, noting⟩ := walk_listed_skip place found
          exact continued passed noting ran
      | some header =>
          rw [List.filterMap_cons_some found, List.flatMap_cons] at ran
          obtain ⟨next, visited, others⟩ := runs_append.1 ran
          obtain ⟨later, passed, noting⟩ := walk_listed_load place found visited
          exact continued passed noting others

theorem load_of_kept {α β γ : Type} (place : α → β) (load : β → Option γ) (listed : List α) :
    ((listed.filter fun name => (load (place name)).isSome).map place).filterMap load =
      (listed.map place).filterMap load := by
  rw [List.filterMap_map, List.filterMap_map, List.filterMap_filter]
  refine List.filterMap_congr fun name _ => ?_
  cases found : load (place name) <;> simp [found]

theorem with_declarations_unlisted (options : Options) (headers : List Value)
    (given : Option Options) (state : State) (declarations : List Declaration) :
    withDeclarations { options with headers := headers } { state with options := given }
      declarations =
      { withDeclarations options state declarations with options := given } := by
  have filed :
      declarations.foldl (addDeclaration options.outputDirectory) { state with options := given } =
      { declarations.foldl (addDeclaration
        options.outputDirectory) state with options := given } := by
    induction declarations generalizing state with
    | nil => rfl
    | cons declaration rest ih =>
        exact ih (state.addDeclaration options.outputDirectory declaration)
  unfold withDeclarations addIndex
  rw [filed]
  split <;> rfl

variable {state : State} {options : Options} {names : List String}

theorem headers_configured (given : state.options = some options)
    (configured : options.headers = names.map .text) (nonempty : names ≠ []) (tree : Tree)
    (root : String) : headers? tree root state.options = .ok (names.map .text) := by
  have listed : (names.map Value.text).isEmpty = false := by simp [nonempty]
  simp only [headers?, given, configured, listed, Bool.not_false, if_true]

theorem walk_without_root (missing : workspace.tree.isDirectory state.root = false) :
    state.walk workspace =
    (state.cleared, workspace.note .error ("fzbind: header root missing: " ++ state.root),
      none) := by
  simp only [walk, cleared, missing, Bool.not_false, if_true]

theorem walk_configured {final : Workspace} (present : workspace.tree.isDirectory state.root = true)
    (given : state.options = some options) (configured : options.headers = names.map .text)
    (nonempty : names ≠ []) (readable : reading? state.root options = some reading)
    (ran : walkHeaders reading state.root {} workspace (names.map .text) = (walker, final, none)) :
    let made :=
      withDeclarations options { state.cleared with symbols := walker.symbols } walker.declarations
    state.walk workspace = (made,
      final.note .info ("fzbind: " ++ toString names.length ++ " headers walked, " ++
        toString made.symbols.size ++ " symbols registered"), none) := by
  have listed := headers_configured given configured nonempty workspace.tree state.root
  rw [given] at listed
  simp only [walk, cleared, present, Bool.not_true, Bool.false_eq_true, if_false, given, listed,
    readable]
  simp only [ran, List.length_map]

theorem walk_unreadable (present : workspace.tree.isDirectory state.root = true)
    (given : state.options = some options) (configured : options.headers = names.map .text)
    (nonempty : names ≠ []) (unreadable : reading? state.root options = none) :
    state.walk workspace = (state.cleared, workspace, some .wrongType) := by
  have listed := headers_configured given configured nonempty workspace.tree state.root
  rw [given] at listed
  simp only [walk, cleared, present, Bool.not_true, Bool.false_eq_true, if_false, given, listed,
    unreadable]

/-- What the headers that are listed but not loaded change: nothing but the notices. The walk ends
with the symbols, pages and anchors that it ends with if only the others are listed, as long as no
visit of theirs fails; each of them is noted once, in its place. If the directory of the headers is
missing, that alone is noted. -/
theorem lost_headers_pass (given : state.options = some options)
    (configured : options.headers = names.map .text)
    (one : ∃ name ∈ names, (loaded? workspace (headerPath state.root name)).isSome)
    (unraised : ∀ reading, reading? state.root options = some reading →
      (visitAll reading.allowlist {} (((names.map (headerPath state.root)).filterMap
        (loaded? workspace)).flatMap Header.cursors)).2 = none) :
    let kept := names.filter fun name => (loaded? workspace (headerPath state.root name)).isSome
    let bare : State := { state with options := some { options with headers := kept.map .text } }
    let whole := state.walk workspace
    let alone := bare.walk workspace
    (whole.1.symbols = alone.1.symbols ∧ whole.1.pages = alone.1.pages ∧
      whole.1.anchors = alone.1.anchors ∧ whole.2.2 = alone.2.2) ∧
      (workspace.tree.isDirectory state.root = true → (reading? state.root options).isSome →
        whole.2.2 = none ∧
        whole.2.1.report.notices = workspace.report.notices ++
          (names.map (headerPath state.root)).flatMap (noted workspace) ++
          [⟨.info, "fzbind: " ++ toString names.length ++ " headers walked, " ++
            toString whole.1.symbols.size ++ " symbols registered"⟩]) ∧
      (∀ name ∈ names, loaded? workspace (headerPath state.root name) = none → ∃ notice,
        Lost workspace (headerPath state.root name) notice ∧
          noted workspace (headerPath state.root name) = [notice]) ∧
      (workspace.tree.isDirectory state.root = false →
        whole.2.2 = none ∧ whole.2.1.report.notices =
          workspace.report.notices ++
            [⟨.error, "fzbind: header root missing: " ++ state.root⟩]) := by
  intro kept bare whole alone
  have nonempty : names ≠ [] := by
    obtain ⟨name, member, -⟩ := one
    exact List.ne_nil_of_mem member
  have keptNonempty : kept ≠ [] := by
    obtain ⟨name, member, loads⟩ := one
    exact List.ne_nil_of_mem (List.mem_filter.2 ⟨member, loads⟩)
  cases directory : workspace.tree.isDirectory state.root with
  | false =>
      have wholeEnds : whole = _ := walk_without_root directory
      have aloneEnds : alone = _ := @walk_without_root workspace bare directory
      rw [wholeEnds, aloneEnds]
      exact ⟨⟨rfl, rfl, rfl, rfl⟩, fun there => absurd there (by decide), fun _ _ => noted_of_lost,
        fun _ => ⟨rfl, rfl⟩⟩
  | true =>
      cases readable : reading? state.root options with
      | none =>
          have wholeEnds : whole = _ := walk_unreadable directory given configured nonempty readable
          have aloneEnds : alone = _ :=
            @walk_unreadable workspace bare _ kept directory rfl rfl keptNonempty readable
          rw [wholeEnds, aloneEnds]
          exact ⟨⟨rfl, rfl, rfl, rfl⟩, fun _ read => absurd read (by decide),
            fun _ _ => noted_of_lost, fun gone => absurd gone (by decide)⟩
      | some reading =>
          -- The same headers are loaded from both lists, so both walks make the same run.
          obtain ⟨walker, ran⟩ :
              ∃ walker, Runs reading.allowlist
              {} (((names.map (headerPath state.root)).filterMap (loaded? workspace)).flatMap
              Header.cursors) walker := ⟨_, Prod.ext rfl (unraised reading readable)⟩
          have ranKept := ran
          rw [← load_of_kept (headerPath state.root) (loaded? workspace) names] at ranKept
          obtain ⟨final, walked, noting⟩ := walk_headers_skip ran
          obtain ⟨finalKept, walkedKept, -⟩ := walk_headers_skip ranKept
          have wholeEnds : whole = _ :=
            walk_configured directory given configured nonempty readable walked
          have aloneEnds : alone = _ :=
            @walk_configured workspace reading walker bare _ kept finalKept directory rfl rfl
            keptNonempty readable walkedKept
          have framed : withDeclarations { options with headers := kept.map .text }
              { bare.cleared with symbols := walker.symbols } walker.declarations =
              { withDeclarations options { state.cleared with symbols := walker.symbols }
                  walker.declarations with
                options := some { options with headers := kept.map .text } } :=
            with_declarations_unlisted options _ _
              { state.cleared with symbols := walker.symbols } _
          rw [wholeEnds, aloneEnds, framed]
          refine ⟨⟨rfl, rfl, rfl, rfl⟩, fun _ _ => ⟨rfl, ?_⟩, fun _ _ => noted_of_lost,
            fun gone => absurd gone (by decide)⟩
          exact congrArg (· ++ _) noting.notices

/-- A header that is missing and one that cannot be loaded, listed before one that can. -/
theorem last_header_walked :
    let declared : Cursor :=
      { kind := .declares .struct, spelling := "fz_a", file := some "proj/i/a.h" }
    let workspace : Workspace :=
      { tree :=
          { nodes := ⟨[(["proj"], .directory), (["proj", "i"], .directory),
            (["proj", "i", "b.h"], .file (.text "")), (["proj", "i", "a.h"], .file (.text ""))]⟩ }
        headers := ⟨[("proj/i/b.h", { loadError := some "Error parsing translation unit." }),
          ("proj/i/a.h", { cursors := [declared] })]⟩ }
    let names := ["c.h", "b.h", "a.h"]
    let options : Options := { headers := names.map .text }
    let state : State := { options := some options, root := "proj/i" }
    let bare : State := { state with options := some { options with headers := [.text "a.h"] } }
    ((∃ name ∈ names, (loaded? workspace (headerPath state.root name)).isSome) ∧
      ∀ reading, reading? state.root options = some reading → (visitAll reading.allowlist {}
        (((names.map (headerPath state.root)).filterMap (loaded? workspace)).flatMap
          Header.cursors)).2 = none) ∧
      (state.walk workspace).1.anchors = (bare.walk workspace).1.anchors ∧
      (state.walk workspace).1.anchors.keys = ["fz_a"] ∧
      (state.walk workspace).2.1.report.notices =
        [⟨.warning, "fzbind: header not found: proj/i/c.h"⟩,
          ⟨.error, "fzbind: Failed to parse proj/i/b.h: Error parsing translation unit."⟩,
          ⟨.info, "fzbind: 3 headers walked, 1 symbols registered"⟩] := by
  intro declared workspace names options state bare
  have one : ∃ name ∈ names, (loaded? workspace (headerPath state.root name)).isSome :=
    ⟨"a.h", by decide, by decide +kernel⟩
  have unraised : ∀ reading, reading? state.root options = some reading →
      (visitAll reading.allowlist {}
        (((names.map (headerPath state.root)).filterMap (loaded? workspace)).flatMap
          Header.cursors)).2 = none := by
    intro reading readable
    obtain rfl : _ = reading := Option.some.inj readable
    decide +kernel
  obtain ⟨⟨-, -, anchors, -⟩, notices, -, -⟩ :=
    @lost_headers_pass workspace state options names rfl rfl one unraised
  have kept : names.filter (fun name => (loaded? workspace (headerPath state.root name)).isSome) =
      ["a.h"] := by
    decide +kernel
  rw [kept] at anchors
  refine ⟨⟨one, unraised⟩, anchors, by decide +kernel, ?_⟩
  rw [(notices (by decide +kernel) (by decide +kernel)).2]
  decide +kernel

/-- If the directory of the headers is missing, a header that is listed and missing is not noted,
even if another one, that stands elsewhere, is there. -/
theorem missing_root_noted_alone :
    let workspace : Workspace :=
      { tree := { nodes := ⟨[(["proj"], .directory), (["proj", "a.h"], .file (.text ""))]⟩ } }
    let names := ["../a.h", "b.h"]
    let options : Options := { headers := names.map .text }
    let state : State := { options := some options, root := "proj/none" }
    (loaded? workspace (headerPath state.root "../a.h")).isSome ∧
      workspace.tree.isFile (headerPath state.root "b.h") = false ∧
      (∀ reading, reading? state.root options = some reading → (visitAll reading.allowlist {}
        (((names.map (headerPath state.root)).filterMap (loaded? workspace)).flatMap
          Header.cursors)).2 = none) ∧
      (state.walk workspace).2.2 = none ∧
      (state.walk workspace).2.1.report.notices =
        [⟨.error, "fzbind: header root missing: proj/none"⟩] := by
  intro workspace names options state
  refine ⟨by decide +kernel, by decide +kernel, ?_, by decide +kernel, by decide +kernel⟩
  intro reading readable
  obtain rfl : _ = reading := Option.some.inj readable
  decide +kernel

end HeaderDocs.Site.State
