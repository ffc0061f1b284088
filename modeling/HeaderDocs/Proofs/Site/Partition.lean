import HeaderDocs.Proofs.Site.Landing
import HeaderDocs.Site.Navigation
import Mathlib.Algebra.BigOperators.Group.Finset.Basic
import Mathlib.Algebra.Ring.Nat

/-!
Pages against declarations. A declaration is put on the page of its label, which is computed from
its file, and the navigation and the page that lists the others are made of the pages. So these part
the declarations by their headers as long as no two headers have one label and none has the label
`index`, whose address the listing page takes, or the label that the listing page is known by. Files
below the directory of the headers are not assumed: a header may include others from anywhere, and
those are labelled by their names alone.
-/

namespace HeaderDocs.Site

set_option autoImplicit false

open Declaration

/-- One row of the page that lists the others: a label, the place of the page and the number of its
declarations. -/
structure Row where
  label : String
  place : String
  count : Nat

def Row.text (row : Row) : String :=
  "| [\x60" ++ row.label ++ "\x60](" ++ row.place ++ ") | " ++ toString row.count ++ " |"

def leadsTo (uri : String) : Value → Bool
  | .record fields => fields.any fun field => field.2.text? = some uri
  | _ => false

theorem filter_eq_singleton {α : Type} {list : List α} {passes : α → Bool} {only : α}
    (distinct : list.Nodup) (member : only ∈ list)
    (passing : ∀ other ∈ list, passes other = true ↔ other = only) :
    list.filter passes = [only] := by
  apply List.perm_singleton.1
  refine (List.perm_ext_iff_of_nodup (distinct.filter _) (List.nodup_singleton only)).2
    fun other => ?_
  rw [List.mem_filter, List.mem_singleton]
  constructor
  · rintro ⟨inside, passed⟩
    exact (passing other inside).1 passed
  · rintro rfl
    exact ⟨member, (passing other member).2 rfl⟩

namespace State

def indexRows (state : State) (options : Options) (uri : String) : List Row :=
  state.headerPages.map fun page =>
    ⟨page.label, Path.relative (pageUri options.outputDirectory page.label) (Path.parent uri),
      page.declarations.length⟩

def indexHead (state : State) (options : Options) : List String :=
  ["# " ++ options.navTitle, "",
    toString (state.headerPages.flatMap Page.declarations).length ++ " bound symbols across " ++
      toString state.headerPages.length ++ " headers.", "",
    "| Header | Symbols |", "|--------|---------|"]

theorem index_markdown_rows (state : State) (options : Options) (uri : String) :
    state.indexMarkdown options uri =
      String.intercalate "\n" (state.indexHead options ++
        (state.indexRows options uri).map Row.text ++ [""]) := by
  simp only [indexMarkdown, indexHead, indexRows, List.map_map, Function.comp_def, Row.text]

def Lists (state : State) (uri : String) (declaration : Declaration) : Prop :=
  ∃ page, state.pages.find? uri = some page ∧ declaration ∈ page.declarations

/-- The pages part the declarations by their headers, and the three views of them agree: the
Markdown of each page, the navigation and the page that lists the others. -/
structure Partitioned (site : State) (options : Options)
    (declarations : List Declaration) : Prop where
  once : ∀ declaration ∈ declarations, ∃! uri, site.Lists uri declaration
  ordered : ∀ uri page, site.pages.find? uri = some page → page.declarations.Sublist declarations
  faithful : ∀ uri first second, site.Lists uri first → site.Lists uri second → first.file ≠ "" →
    second.file ≠ "" →
    Path.absolute first.file = Path.absolute second.file
  rendered : ∀ uri page, site.pages.find? uri = some page → page.declarations ≠ [] → ∀ markdown,
    site.pageMarkdown markdown (some uri) =
      .ok (renderPage (site.style options uri) page.declarations page.label)
  announced : ∀ uri page, site.pages.find? uri = some page → page.declarations ≠ [] →
    (navigationEntries site options).filter (leadsTo uri) = [.record [(page.label, .text uri)]]
  listing : options.index = true → declarations ≠ [] → ∀ markdown,
    site.pageMarkdown markdown (some (pageUri options.outputDirectory "index")) =
      .ok (String.intercalate "\n" (site.indexHead options ++
        (site.indexRows options (pageUri options.outputDirectory "index")).map Row.text ++ [""]))
  listed : ∀ place uri page, site.pages.find? uri = some page → page.declarations ≠ [] →
    (site.indexRows options place).filter (fun row => row.label = page.label) =
      [⟨page.label, Path.relative uri (Path.parent place), page.declarations.length⟩]
  counted : ∀ place, ((site.indexRows options place).map Row.count).sum = declarations.length

/-- Labels that keep headers apart from each other and from the page that lists the others. -/
structure Separate (root : String) (options : Options)
    (declarations : List Declaration) : Prop where
  unlisted : options.index = true → ∀ declaration ∈ declarations,
    pageLabel root declaration.file ≠ "index"
  unmarked : ∀ declaration ∈ declarations, pageLabel root declaration.file ≠ indexLabel
  faithful : ∀ first ∈ declarations, ∀ second ∈ declarations, first.file ≠ "" → second.file ≠ "" →
    pageLabel root first.file = pageLabel root second.file →
      Path.absolute first.file = Path.absolute second.file

theorem page_uri_index (directory : String) :
    pageUri directory "index" = directory ++ "/index.md" := by
  rw [pageUri, String.append_assoc, String.append_assoc]
  rfl

theorem mem_residents {directory root uri : String} {declarations : List Declaration}
    {declaration : Declaration} :
    declaration ∈ residents directory root uri declarations ↔
      declaration ∈ declarations ∧ homeOf directory root declaration = uri := by
  rw [residents, List.mem_filter, decide_eq_true_eq]

variable {state : State} {options : Options} {declarations : List Declaration}

/-- The pages of a site: the one that lists the others, if it is wanted and there is something to
list, and the page of each label, unless the first takes its address. -/
inductive Placed (state : State) (options : Options) (declarations : List Declaration) :
    String → Page → Prop
  | overview (wanted : options.index = true) (inhabited : declarations ≠ []) :
      Placed state options declarations (pageUri options.outputDirectory "index") ⟨indexLabel, []⟩
  | header {declaration : Declaration} (member : declaration ∈ declarations)
      (apart : options.index = true → pageLabel state.root declaration.file ≠ "index") :
      Placed state options declarations (homeOf options.outputDirectory state.root declaration)
        ⟨pageLabel state.root declaration.file, residents options.outputDirectory state.root
          (homeOf options.outputDirectory state.root declaration) declarations⟩

theorem found_iff_placed (fresh : state.pages = {}) {uri : String} {page : Page} :
    (withDeclarations options state declarations).pages.find? uri = some page ↔
      Placed state options declarations uri page := by
  rw [pages_with_declarations fresh, ← page_uri_index]
  constructor
  · intro found
    split at found
    · rename_i overview
      obtain ⟨wanted, inhabited, rfl⟩ := overview
      obtain rfl := Option.some.inj found
      exact .overview wanted inhabited
    · rename_i unlisted
      obtain ⟨first, head, rfl⟩ := Option.map_eq_some_iff.1 found
      obtain ⟨member, rfl⟩ := mem_residents.1 (List.mem_of_mem_head? head)
      refine .header member fun wanted label => unlisted ⟨wanted, List.ne_nil_of_mem member, ?_⟩
      rw [homeOf, label]
  · intro placed
    cases placed with
    | overview wanted inhabited => rw [if_pos ⟨wanted, inhabited, rfl⟩]
    | @header declaration member apart =>
        have unlisted : ¬(options.index = true ∧ declarations ≠ [] ∧
            homeOf options.outputDirectory state.root declaration =
              pageUri options.outputDirectory "index") := by
          rintro ⟨wanted, -, same⟩
          exact apart wanted (page_uri_inj.1 same)
        have resident :=
          mem_residents.2 ⟨member, Eq.refl (homeOf options.outputDirectory state.root declaration)⟩
        rw [if_neg unlisted]
        cases inhabited : residents options.outputDirectory state.root
            (homeOf options.outputDirectory state.root declaration) declarations with
        | nil => simp [inhabited] at resident
        | cons first others =>
            have inside := List.mem_cons_self (a := first) (l := others)
            rw [← inhabited, mem_residents] at inside
            rw [List.head?_cons, Option.map_some, page_uri_inj.1 inside.2]

theorem distinct_filed (directory : String) {state : State} (distinct : state.pages.keys.Nodup)
    (declarations : List Declaration) :
    (declarations.foldl (addDeclaration directory) state).pages.keys.Nodup := by
  induction declarations generalizing state with
  | nil => exact distinct
  | cons declaration rest ih => exact ih (Index.nodup_keys_insert distinct _ _)

theorem distinct_pages (fresh : state.pages = {}) :
    (withDeclarations options state declarations).pages.keys.Nodup := by
  have empty : state.pages.keys.Nodup := by
    rw [fresh]
    exact List.nodup_nil
  have filed := distinct_filed options.outputDirectory empty declarations
  unfold withDeclarations addIndex
  split
  · exact Index.nodup_keys_insert filed _ _
  · exact filed

theorem mem_pages (fresh : state.pages = {}) {uri : String} {page : Page} :
    (uri, page) ∈ (withDeclarations options state declarations).pages.entries ↔
      Placed state options declarations uri page :=
  (Index.mem_entries (distinct_pages fresh)).trans (found_iff_placed fresh)

theorem lists_iff (fresh : state.pages = {}) {uri : String} {declaration : Declaration} :
    (withDeclarations options state declarations).Lists uri declaration ↔
      declaration ∈ declarations ∧ homeOf options.outputDirectory state.root declaration = uri ∧
        (options.index = true → pageLabel state.root declaration.file ≠ "index") := by
  constructor
  · rintro ⟨page, found, member⟩
    cases (found_iff_placed fresh).1 found with
    | overview wanted inhabited => simp at member
    | header known apart =>
        obtain ⟨inside, home⟩ := mem_residents.1 member
        rw [page_uri_inj.1 home]
        exact ⟨inside, home, apart⟩
  · rintro ⟨inside, rfl, apart⟩
    exact ⟨_, (found_iff_placed fresh).2 (.header inside apart), mem_residents.2 ⟨inside, rfl⟩⟩

def entryOf? (site : State) (uri : String) : Option Value :=
  match site.pages.find? uri with
  | some page => if page.label = indexLabel then none else some (.record [(page.label, .text uri)])
  | none => none

theorem entry_of_eq_some {site : State} {uri : String} {entry : Value} :
    site.entryOf? uri = some entry ↔
      ∃ page, site.pages.find? uri = some page ∧ page.label ≠ indexLabel ∧
        entry = .record [(page.label, .text uri)] := by
  unfold entryOf?
  cases site.pages.find? uri with
  | none => simp
  | some page =>
      by_cases label : page.label = indexLabel
      · simp [label]
      · simp only [label, if_false, Option.some.injEq, exists_eq_left', not_false_eq_true, ne_eq,
          true_and]
        exact eq_comm

/-- Distinct addresses bring distinct entries, and the one for an address is the one that leads
there. -/
theorem entries_leading {site : State} (distinct : site.pages.keys.Nodup) {uri : String}
    {page : Page} (found : site.pages.find? uri = some page) (label : page.label ≠ indexLabel) :
    ((sortedUris site).filterMap site.entryOf?).filter (leadsTo uri) =
      [.record [(page.label, .text uri)]] := by
  have key : uri ∈ sortedUris site := by
    rw [sortedUris, List.mem_mergeSort]
    exact List.mem_map.2 ⟨(uri, page), (Index.mem_entries distinct).2 found, rfl⟩
  apply filter_eq_singleton
  · refine List.Nodup.filterMap ?_ (List.nodup_mergeSort.2 distinct)
    intro first second entry ofFirst ofSecond
    obtain ⟨_, -, -, rfl⟩ := entry_of_eq_some.1 ofFirst
    obtain ⟨_, -, -, same⟩ := entry_of_eq_some.1 ofSecond
    simp only [Value.record.injEq, List.cons.injEq, Prod.mk.injEq, Value.text.injEq] at same
    exact same.1.2
  · exact List.mem_filterMap.2 ⟨uri, key, entry_of_eq_some.2 ⟨page, found, label, rfl⟩⟩
  · intro entry member
    obtain ⟨place, -, made⟩ := List.mem_filterMap.1 member
    obtain ⟨other, foundOther, -, rfl⟩ := entry_of_eq_some.1 made
    simp only [leadsTo, List.any_cons, List.any_nil, Bool.or_false, Value.text?, decide_eq_true_eq,
      Option.some.injEq, Value.record.injEq, List.cons.injEq, Prod.mk.injEq, Value.text.injEq,
      and_true]
    constructor
    · rintro rfl
      rw [found] at foundOther
      exact ⟨congrArg Page.label (Option.some.inj foundOther).symm, rfl⟩
    · exact fun same => same.2

theorem placed_address {uri : String} {page : Page}
    (placed : Placed state options declarations uri page) (label : page.label ≠ indexLabel) :
    uri = pageUri options.outputDirectory page.label := by
  cases placed with
  | overview wanted inhabited => exact absurd rfl label
  | header member apart => rfl

theorem header_pages_labelled (fresh : state.pages = {}) {uri : String} {page : Page}
    (placed : Placed state options declarations uri page) (label : page.label ≠ indexLabel) :
    (withDeclarations options state declarations).headerPages.filter (fun other => other.label =
      page.label) =
      [page] := by
  have distinct : (withDeclarations options state declarations).pages.keys.Nodup :=
    distinct_pages fresh
  have entries : (withDeclarations options state declarations).pages.entries.filter
      ((fun other => decide (other.label = page.label) && decide (other.label ≠ indexLabel)) ∘
        Prod.snd) =
        [(uri, page)] := by
    apply filter_eq_singleton distinct.of_map ((mem_pages fresh).2 placed)
    rintro ⟨place, other⟩ member
    rw [Function.comp_apply, Bool.and_eq_true, decide_eq_true_eq, decide_eq_true_eq]
    constructor
    · rintro ⟨sameLabel, marked⟩
      obtain rfl : place = uri := by
        rw [placed_address ((mem_pages fresh).1 member) marked, placed_address placed label,
          sameLabel]
      have found := (found_iff_placed fresh).2 placed
      rw [(Index.mem_entries distinct).1 member] at found
      rw [Option.some.inj found]
    · intro same
      rw [(Prod.mk.inj same).2]
      exact ⟨rfl, label⟩
  have values : ((withDeclarations options state declarations).pages.values.filter fun other =>
      other.label ≠ indexLabel).filter (fun other => other.label = page.label) = [page] := by
    rw [List.filter_filter, Index.values, List.filter_map, entries]
    rfl
  apply List.perm_singleton.1
  rw [← values]
  exact (List.mergeSort_perm _ _).filter _

theorem length_eq_sum_residents {directory root : String} {uris : List String}
    (distinct : uris.Nodup)
    (covered : ∀ declaration ∈ declarations, homeOf directory root declaration ∈ uris) :
    (uris.map fun uri => (residents directory root uri declarations).length).sum =
      declarations.length := by
  have counts (uri : String) : (residents directory root uri declarations).length =
      (declarations.map (homeOf directory root)).count uri := by
    rw [residents, ← List.countP_eq_length_filter, List.count, List.countP_map]
    rfl
  have homes : ∀ uri ∈ (↑(declarations.map (homeOf directory root)) : Multiset String),
      uri ∈ uris.toFinset := by
    intro uri member
    obtain ⟨declaration, inside, rfl⟩ := List.mem_map.1 (Multiset.mem_coe.1 member)
    exact List.mem_toFinset.2 (covered declaration inside)
  have total := Multiset.sum_count_eq_card homes
  rw [List.sum_toFinset _ distinct] at total
  simpa [counts] using total

theorem key_of_declaration (fresh : state.pages = {})
    (separate : Separate state.root options declarations) {declaration : Declaration}
    (member : declaration ∈ declarations) :
    homeOf options.outputDirectory state.root declaration ∈
      (withDeclarations options state declarations).pages.keys :=
  List.mem_map.2 ⟨_, (mem_pages fresh).2
    (.header member fun wanted => separate.unlisted wanted _ member), rfl⟩

theorem declarations_placed (separate : Separate state.root options declarations) {uri : String}
    {page : Page} (placed : Placed state options declarations uri page) :
    page.declarations = residents options.outputDirectory state.root uri declarations := by
  cases placed with
  | overview wanted inhabited =>
      symm
      refine List.filter_eq_nil_iff.2 fun declaration member home => ?_
      rw [decide_eq_true_eq] at home
      exact separate.unlisted wanted declaration member (page_uri_inj.1 home)
  | header member apart => rfl

theorem empty_of_marked (separate : Separate state.root options declarations) {uri : String}
    {page : Page} (placed : Placed state options declarations uri page)
    (marked : page.label = indexLabel) :
    page.declarations = [] := by
  cases placed with
  | overview wanted inhabited => rfl
  | header member apart => exact absurd marked (separate.unmarked _ member)

theorem header_pages_counted (fresh : state.pages = {})
    (separate : Separate state.root options declarations) :
    ((withDeclarations options state declarations).headerPages.map fun page =>
      page.declarations.length).sum =
      declarations.length := by
  generalize siteEq : withDeclarations options state declarations = site
  have placed {uri : String} {page : Page} (member : (uri, page) ∈ site.pages.entries) :
      Placed state options declarations uri page := by
    rw [← siteEq] at member
    exact (mem_pages fresh).1 member
  have sorted : (site.headerPages.map fun page => page.declarations.length).sum =
      ((site.pages.values.filter fun page => page.label ≠ indexLabel).map fun page =>
      page.declarations.length).sum := ((List.mergeSort_perm _ _).map _).sum_eq
  have marked : ((site.pages.values.filter fun page => ¬page.label ≠ indexLabel).map
      fun page => page.declarations.length).sum = 0 := by
    apply List.sum_eq_zero
    intro count member
    obtain ⟨page, inside, rfl⟩ := List.mem_map.1 member
    obtain ⟨isValue, isMarked⟩ := List.mem_filter.1 inside
    obtain ⟨⟨uri, _⟩, isEntry, rfl⟩ := List.mem_map.1 isValue
    rw [empty_of_marked separate (placed isEntry) (by simpa using isMarked)]
    rfl
  have whole :=
    List.sum_map_filter_add_sum_map_filter_not (fun page : Page => page.label ≠ indexLabel)
    (fun page : Page => page.declarations.length) site.pages.values
  have addresses : site.pages.values.map (fun page => page.declarations.length) =
      site.pages.keys.map fun uri =>
        (residents options.outputDirectory state.root uri declarations).length := by
    rw [Index.values, Index.keys, List.map_map, List.map_map]
    refine List.map_congr_left fun entry member => ?_
    exact congrArg List.length (declarations_placed separate (placed member))
  have distinct : site.pages.keys.Nodup := by
    rw [← siteEq]
    exact distinct_pages fresh
  rw [addresses, length_eq_sum_residents distinct, marked, Nat.add_zero] at whole
  · rw [sorted]
    exact whole
  · intro declaration member
    rw [← siteEq]
    exact key_of_declaration fresh separate member

theorem options_of_site :
    (withDeclarations options state declarations).options = state.options := by
  rw [(with_declarations_frame options state declarations).1, (filed_frame _ _ _).1]

theorem navigation_entries_eq (site : State) (options : Options) : navigationEntries site options =
    (if options.index then [.record [("Overview", .text (pageUri options.outputDirectory "index"))]]
      else []) ++
      (sortedUris site).filterMap site.entryOf? := by
  rw [page_uri_index]
  rfl

/-- Separate labels are what it takes for the pages to part the declarations. -/
theorem partitioned_of_separate (fresh : state.pages = {}) (given : state.options = some options)
    (separate : Separate state.root options declarations) :
    Partitioned (withDeclarations options state declarations) options declarations where
  once := by
    intro declaration member
    have apart (wanted : options.index = true) := separate.unlisted wanted declaration member
    refine ⟨_, (lists_iff fresh).2 ⟨member, rfl, apart⟩, fun uri lists => ?_⟩
    exact ((lists_iff fresh).1 lists).2.1.symm
  ordered := by
    intro uri page found
    cases (found_iff_placed fresh).1 found with
    | overview wanted inhabited => exact List.nil_sublist _
    | header member apart => exact List.filter_sublist
  faithful := by
    intro uri first second listsFirst listsSecond
    obtain ⟨memberFirst, homeFirst, -⟩ := (lists_iff fresh).1 listsFirst
    obtain ⟨memberSecond, homeSecond, -⟩ := (lists_iff fresh).1 listsSecond
    intro ofFirst ofSecond
    exact separate.faithful first memberFirst second memberSecond ofFirst ofSecond
      (page_uri_inj.1 (homeFirst.trans homeSecond.symm))
  rendered := by
    intro uri page found inhabited
    have label := mt (empty_of_marked separate ((found_iff_placed fresh).1 found)) inhabited
    exact page_markdown_of_header found label (options_of_site.trans given)
  announced := by
    intro uri page found inhabited
    have placed := (found_iff_placed fresh).1 found
    have label := mt (empty_of_marked separate placed) inhabited
    have elsewhere : options.index = true → uri ≠ pageUri options.outputDirectory "index" := by
      intro wanted same
      cases placed with
      | overview _ _ => exact inhabited rfl
      | header member apart => exact apart wanted (page_uri_inj.1 same)
    have overview : (if options.index then
          [Value.record [("Overview", .text (pageUri options.outputDirectory "index"))]]
        else []).filter (leadsTo uri) = [] := by
      split
      · rename_i wanted
        have other := elsewhere wanted
        simp [leadsTo, Value.text?, Ne.symm other]
      · rfl
    rw [navigation_entries_eq, List.filter_append, overview,
      entries_leading (distinct_pages fresh) found label]
    rfl
  listing := by
    intro wanted inhabited markdown
    have found := (found_iff_placed fresh).2 (.overview wanted inhabited)
    simp only [pageMarkdown, found, options_of_site.trans given, if_true, index_markdown_rows]
  listed := by
    intro place uri page found inhabited
    have placed := (found_iff_placed fresh).1 found
    have label := mt (empty_of_marked separate placed) inhabited
    rw [indexRows, List.filter_map, placed_address placed label]
    exact congrArg (List.map _) (header_pages_labelled fresh placed label)
  counted := by
    intro place
    rw [indexRows, List.map_map]
    exact header_pages_counted fresh separate

theorem separate_of_partitioned (fresh : state.pages = {})
    (partitioned : Partitioned (withDeclarations options state declarations) options declarations) :
    Separate state.root options declarations := by
  have unlisted : options.index = true → ∀ declaration ∈ declarations,
      pageLabel state.root declaration.file ≠ "index" := by
    intro wanted declaration member
    obtain ⟨uri, lists, -⟩ := partitioned.once declaration member
    exact ((lists_iff fresh).1 lists).2.2 wanted
  refine ⟨unlisted, ?_, ?_⟩
  · intro declaration member label
    have found := (found_iff_placed fresh).2 (.header member fun wanted => unlisted wanted _ member)
    have inhabited :=
      List.ne_nil_of_mem (mem_residents.2
        ⟨member, Eq.refl (homeOf options.outputDirectory state.root declaration)⟩)
    have entry :
        Value.record [(pageLabel state.root declaration.file,
            .text (homeOf options.outputDirectory state.root declaration))] ∈
          navigationEntries (withDeclarations options state declarations) options := by
      apply List.mem_of_mem_filter
      rw [partitioned.announced _ _ found inhabited]
      exact List.mem_singleton_self _
    rw [navigation_entries_eq, label, List.mem_append] at entry
    rcases entry with overview | ofPage
    · have title : indexLabel = "Overview" := by
        split at overview
        · simp only [List.mem_singleton, Value.record.injEq, List.cons.injEq,
            Prod.mk.injEq] at overview
          exact overview.1.1
        · simp at overview
      exact absurd title (by decide)
    · obtain ⟨uri, -, made⟩ := List.mem_filterMap.1 ofPage
      obtain ⟨page, -, unmarked, same⟩ := entry_of_eq_some.1 made
      simp only [Value.record.injEq, List.cons.injEq, Prod.mk.injEq] at same
      exact unmarked same.1.1.symm
  · intro first memberFirst second memberSecond ofFirst ofSecond sameLabel
    have listsFirst :=
      (lists_iff fresh).2 ⟨memberFirst, rfl, fun wanted => unlisted wanted _ memberFirst⟩
    have sameHome : homeOf options.outputDirectory state.root second =
        homeOf options.outputDirectory state.root first := page_uri_inj.2 sameLabel.symm
    have listsSecond :=
      (lists_iff fresh).2 ⟨memberSecond, sameHome, fun wanted => unlisted wanted _ memberSecond⟩
    exact partitioned.faithful _ _ _ listsFirst listsSecond ofFirst ofSecond

theorem walked_pages {state after : State} {workspace : Workspace} {walker : Walker}
    (walked : Walked state workspace after walker) (given : state.options = some options) :
    ∃ base : State, base.pages = {} ∧ base.root = state.root ∧ base.options = some options ∧
      after = withDeclarations options base walker.declarations := by
  cases walked with
  | missing absent =>
      refine ⟨state.cleared, rfl, rfl, given, ?_⟩
      have nothing : ({} : Walker).declarations = [] := rfl
      rw [nothing, withDeclarations, addIndex]
      simp [cleared, Index.isEmpty]
  | @walked headers others reading walker final listed givenOthers readable ran =>
      obtain rfl : others = options := Option.some.inj (givenOthers.symm.trans given)
      exact ⟨{ state.cleared with symbols := walker.symbols }, rfl, rfl, given, rfl⟩

/-- Let a walk be finished. Its pages part the declarations by their headers, each declaration on
one page and each page shown by itself, in the navigation and in the list of pages, if and only if
the labels of the declarations are separate. -/
theorem walk_partitioned_iff {state after : State} {workspace final : Workspace} {options : Options}
    (given : state.options = some options)
    (finished : state.walk workspace = (after, final, none)) :
    Partitioned after options (state.walker workspace).declarations ↔
      Separate state.root options (state.walker workspace).declarations := by
  obtain ⟨base, fresh, sameRoot, sameOptions, rfl⟩ := walked_pages (walked_of_walk finished) given
  rw [← sameRoot]
  exact ⟨separate_of_partitioned fresh, partitioned_of_separate fresh sameOptions⟩

/-- A header that includes another from outside of the directory, and a declaration that stands in
no file. -/
theorem included_header_has_own_page :
    let own : Cursor := { kind := .declares .function, spelling := "fz_a", file := some "i/a.h" }
    let included : Cursor :=
      { kind := .declares .function, spelling := "fz_b", file := some "x/b.h" }
    let built : Cursor := { kind := .declares .function, spelling := "fz_c" }
    let workspace : Workspace :=
      { tree := { nodes := ⟨[(["i"], .directory), (["i", "a.h"], .file (.text ""))]⟩ }
        headers := ⟨[("i/a.h", { cursors := [included, own, built] })]⟩ }
    let options : Options := { headers := [.text "a.h"] }
    let state : State := { options := some options, root := "i" }
    let after := (state.walk workspace).1
    (state.walk workspace).2.2 = none ∧
      Partitioned after options (state.walker workspace).declarations ∧
      (after.pages.values.map fun page => (page.label, page.declarations.map Declaration.name)) =
        [("b.h", ["fz_b"]), ("a.h", ["fz_a"]), ("builtin", ["fz_c"]), (indexLabel, [])] := by
  intro own included built workspace options state after
  have finished : (state.walk workspace).2.2 = none := by decide +kernel
  have separate : Separate "i" options (state.walker workspace).declarations :=
    ⟨by decide +kernel, by decide +kernel, by decide +kernel⟩
  have partitioned := (walk_partitioned_iff rfl (Prod.ext rfl (Prod.ext rfl finished))).2 separate
  exact ⟨finished, partitioned, by decide +kernel⟩

/-- Two headers of one name, one of them outside of the directory, are put on one page. -/
theorem headers_share_page :
    ¬∀ (state : State) (workspace : Workspace) (options : Options), state.options = some options →
      (state.walk workspace).2.2 = none →
        Partitioned (state.walk workspace).1 options (state.walker workspace).declarations := by
  intro partitioned
  let own : Cursor := { kind := .declares .function, spelling := "fz_a", file := some "i/b.h" }
  let included : Cursor := { kind := .declares .function, spelling := "fz_b", file := some "x/b.h" }
  let workspace : Workspace :=
    { tree := { nodes := ⟨[(["i"], .directory), (["i", "b.h"], .file (.text ""))]⟩ }
      headers := ⟨[("i/b.h", { cursors := [own, included] })]⟩ }
  let state : State := { options := some { headers := [.text "b.h"] }, root := "i" }
  have files : ((state.walk workspace).1.pages.find? "api_reference/b.h.md").map
      (fun page => page.declarations.map Declaration.file) = some ["i/b.h", "x/b.h"] := by
    decide +kernel
  obtain ⟨page, found, listed⟩ := Option.map_eq_some_iff.1 files
  have listsFile (file : String) (member : file ∈ ["i/b.h", "x/b.h"]) :
      ∃ declaration, (state.walk workspace).1.Lists "api_reference/b.h.md" declaration ∧
        declaration.file = file := by
    rw [← listed] at member
    obtain ⟨declaration, inside, same⟩ := List.mem_map.1 member
    exact ⟨declaration, ⟨page, found, inside⟩, same⟩
  obtain ⟨first, listsFirst, fileFirst⟩ := listsFile "i/b.h" (by decide)
  obtain ⟨second, listsSecond, fileSecond⟩ := listsFile "x/b.h" (by decide)
  have same :=
    (partitioned state workspace _ rfl (by decide +kernel)).faithful _ first second listsFirst
    listsSecond (by rw [fileFirst]; decide) (by rw [fileSecond]; decide)
  rw [fileFirst, fileSecond] at same
  exact absurd same (by decide +kernel)

end State

end HeaderDocs.Site
