import HeaderDocs.Proofs.Files.Nodes
import HeaderDocs.Proofs.Text.Ascending
import HeaderDocs.Site.Discover

/-!
The headers found below a directory. Sorting their places gives the order of a walk that takes the
files of a directory, by name, before its subdirectories, by name. The walk asks for the names in
each directory, and it does not matter in which order it is told them. Patterns are not looked into;
they accept a text or do not.
-/

namespace HeaderDocs.Site

open Text

set_option autoImplicit false

section Order

variable {first second third : Place} {name other : String}

theorem place_order_single : placeOrder [name] [other] = true ↔ name ≤ other := sorted_iff

theorem place_order_flat (deep : second ≠ []) :
    placeOrder [name] (other :: second) = true ∧ placeOrder (other :: second) [name] = false := by
  obtain ⟨next, names, rfl⟩ := List.exists_cons_of_ne_nil deep
  exact ⟨rfl, rfl⟩

theorem place_order_deep (deep : first ≠ []) (otherDeep : second ≠ []) :
    placeOrder (name :: first) (other :: second) = true ↔
      name < other ∨ name = other ∧ placeOrder first second = true := by
  obtain ⟨next, names, rfl⟩ := List.exists_cons_of_ne_nil deep
  obtain ⟨otherNext, others, rfl⟩ := List.exists_cons_of_ne_nil otherDeep
  change (if name = other then placeOrder (next :: names) (otherNext :: others)
    else !(other < name)) = true ↔ _
  split
  · rename_i same
    subst same
    exact ⟨fun before => .inr ⟨rfl, before⟩,
      fun either => either.elim (absurd · (String.lt_irrefl name)) And.right⟩
  · rename_i differs
    rw [sorted_iff, less_iff]
    simp [differs]

theorem place_order_total (first second : Place) :
    placeOrder first second = true ∨ placeOrder second first = true := by
  induction first generalizing second with
  | nil => exact .inl rfl
  | cons name first ih =>
      cases second with
      | nil => exact .inr rfl
      | cons other second =>
          by_cases flat : first = []
          · by_cases otherFlat : second = []
            · rw [flat, otherFlat, place_order_single, place_order_single]
              exact String.le_total name other
            · rw [flat]
              exact .inl (place_order_flat otherFlat).1
          · by_cases otherFlat : second = []
            · rw [otherFlat]
              exact .inr (place_order_flat flat).1
            · rw [place_order_deep flat otherFlat, place_order_deep otherFlat flat]
              by_cases same : name = other
              · exact (ih second).imp (fun before => .inr ⟨same, before⟩) fun after =>
                  .inr ⟨same.symm, after⟩
              · exact (String.le_total name other).imp
                  (fun atMost => .inl (less_iff.2 ⟨atMost, same⟩)) fun atLeast =>
                  .inl (less_iff.2 ⟨atLeast, Ne.symm same⟩)

theorem place_order_trans (before : placeOrder first second = true)
    (after : placeOrder second third = true) :
    placeOrder first third = true := by
  induction first generalizing second third with
  | nil => rfl
  | cons name first ih =>
      obtain ⟨middle, second, rfl⟩ : ∃ middle rest, second = middle :: rest := by
        cases second with
        | nil => cases before
        | cons middle rest => exact ⟨middle, rest, rfl⟩
      obtain ⟨last, third, rfl⟩ : ∃ last rest, third = last :: rest := by
        cases third with
        | nil => cases after
        | cons last rest => exact ⟨last, rest, rfl⟩
      by_cases flat : third = []
      · subst flat
        obtain rfl : second = [] := by
          by_contra deep
          simp [(place_order_flat deep).2] at after
        obtain rfl : first = [] := by
          by_contra deep
          simp [(place_order_flat deep).2] at before
        rw [place_order_single] at before after ⊢
        exact String.le_trans before after
      · by_cases firstFlat : first = []
        · rw [firstFlat]
          exact (place_order_flat flat).1
        · have deep : second ≠ [] := by
            rintro rfl
            simp [(place_order_flat firstFlat).2] at before
          rw [place_order_deep firstFlat deep] at before
          rw [place_order_deep deep flat] at after
          rw [place_order_deep firstFlat flat]
          rcases before with less | ⟨rfl, before⟩ <;> rcases after with more | ⟨rfl, after⟩
          · exact .inl (String.lt_trans less more)
          · exact .inl less
          · exact .inl more
          · exact .inr ⟨rfl, ih before after⟩

theorem place_order_antisymm (before : placeOrder first second = true)
    (after : placeOrder second first = true) :
    first = second := by
  induction first generalizing second with
  | nil =>
      cases second with
      | nil => rfl
      | cons other second => cases after
  | cons name first ih =>
      cases second with
      | nil => cases before
      | cons other second =>
          by_cases flat : first = [] <;> by_cases otherFlat : second = []
          · rw [flat, otherFlat, place_order_single] at before after
            rw [flat, otherFlat, String.le_antisymm before after]
          · rw [flat, (place_order_flat otherFlat).2] at after
            cases after
          · rw [otherFlat, (place_order_flat flat).2] at before
            cases before
          · rw [place_order_deep flat otherFlat] at before
            rw [place_order_deep otherFlat flat] at after
            rcases before with less | ⟨rfl, before⟩
            · rcases after with more | ⟨rfl, -⟩
              · exact absurd more (String.lt_asymm less)
              · exact absurd less (String.lt_irrefl other)
            · rcases after with more | ⟨-, after⟩
              · exact absurd more (String.lt_irrefl name)
              · rw [ih before after]

/-- Places in order, each once, are told by which they are. -/
theorem ordered_unique {places others : List Place} (distinct : places.Nodup)
    (othersDistinct : others.Nodup)
    (ordered : places.Pairwise fun first second => placeOrder first second = true)
    (othersOrdered : others.Pairwise fun first second => placeOrder first second = true)
    (same : ∀ place, place ∈ places ↔ place ∈ others) : places = others :=
  List.Perm.eq_of_pairwise (fun _ _ _ _ => place_order_antisymm) ordered othersOrdered
    ((List.perm_ext_iff_of_nodup distinct othersDistinct).2 same)

end Order

section Walk

variable {tree : Tree} {listing : Place → List String} {directory place : Place} {name : String}
    {depth : Nat}

/-- What a file system tells of its directories: the names in each, in some order. -/
def Lists (tree : Tree) (listing : Place → List String) : Prop :=
  ∀ place, tree.node? place = some .directory →
    (listing place).Nodup ∧ ∀ name, name ∈ listing place ↔ tree.node? (place ++ [name]) ≠ none

def namesBelow (tree : Tree) (place : Place) : List String :=
  ((tree.below place).map Prod.fst).filterMap fun names =>
    match names with
    | [name] => some name
    | _ => none

theorem names_below_list (sound : tree.Sound) : Lists tree (namesBelow tree) := by
  refine fun place _ => ⟨List.Nodup.filterMap ?_ ?_, fun name => ?_⟩
  · intro first second name isFirst isSecond
    split at isFirst
    · split at isSecond
      · cases isFirst
        cases isSecond
        rfl
      · cases isSecond
    · cases isFirst
  · exact sound.below_distinct
  · rw [namesBelow, List.mem_filterMap]
    constructor
    · rintro ⟨names, member, isName⟩
      split at isName
      · cases isName
        obtain ⟨⟨_, node⟩, below, rfl⟩ := List.mem_map.1 member
        rw [(sound.mem_below.1 below).2]
        exact Option.some_ne_none node
      · cases isName
    · intro there
      obtain ⟨node, found⟩ := Option.ne_none_iff_exists'.1 there
      exact ⟨[name], List.mem_map.2 ⟨([name], node), sound.mem_below.2 ⟨by simp, found⟩, rfl⟩, rfl⟩

def namesIn (tree : Tree) (listing : Place → List String) (directory : Place)
    (directories : Bool) : List String :=
  ((listing directory).filter fun name =>
    decide (tree.node? (directory ++ [name]) = some .directory) == directories).mergeSort
      fun first second => !(second < first)

/-- The headers below a directory, down to a depth, by their places from there: first those in the
directory, then those below each of its subdirectories. -/
def walk (tree : Tree) (listing : Place → List String) : Nat → Place → List Place
  | 0, _ => []
  | depth + 1, directory =>
      (((namesIn tree listing directory false).filter fun name =>
        endsWith ['.', 'h'] name.toList).map fun name => [name]) ++
        (namesIn tree listing directory true).flatMap fun name =>
          (walk tree listing depth (directory ++ [name])).map (name :: ·)

theorem is_header_cons (deep : place ≠ []) :
    isHeaderPlace (name :: place) = isHeaderPlace place := by
  obtain ⟨next, names, rfl⟩ := List.exists_cons_of_ne_nil deep
  rw [isHeaderPlace, isHeaderPlace, List.getLast?_cons_cons]

theorem ne_nil_of_is_header (isHeader : isHeaderPlace place = true) : place ≠ [] := by
  rintro rfl
  cases isHeader

theorem mem_names_in (lists : Lists tree listing) (inside : tree.node? directory = some .directory)
    {directories : Bool} :
    name ∈ namesIn tree listing directory directories ↔ tree.node? (directory ++ [name]) ≠ none ∧
      decide (tree.node? (directory ++ [name]) = some .directory) = directories := by
  rw [namesIn, List.mem_mergeSort, List.mem_filter, (lists directory inside).2, beq_iff_eq]

theorem names_in_ascending (lists : Lists tree listing)
    (inside : tree.node? directory = some .directory) (directories : Bool) :
    (namesIn tree listing directory directories).Pairwise (· < ·) :=
  ascending_of_sorted ((lists directory inside).1.filter _)

theorem file_of_node {node : Node} (other : node ≠ .directory) :
    ∃ content, node = .file content := by
  cases node with
  | directory => exact absurd rfl other
  | file content => exact ⟨content, rfl⟩

theorem mem_walk (sound : tree.Sound) (lists : Lists tree listing)
    (inside : tree.node? directory = some .directory) :
    place ∈ walk tree listing depth directory ↔ place.length ≤ depth ∧ isHeaderPlace place = true ∧
      ∃ content, tree.node? (directory ++ place) = some (.file content) := by
  induction depth generalizing directory place with
  | zero =>
      -- A header has a name, so no header is this close.
      simp only [walk, List.not_mem_nil, false_iff, not_and]
      intro short isHeader
      exact absurd (List.eq_nil_of_length_eq_zero (Nat.le_zero.1 short))
        (ne_nil_of_is_header isHeader)
  | succ depth ih =>
      rw [walk, List.mem_append, List.mem_map, List.mem_flatMap]
      constructor
      · rintro (⟨name, member, rfl⟩ | ⟨name, member, further⟩)
        · obtain ⟨listed, isHeader⟩ := List.mem_filter.1 member
          obtain ⟨there, other⟩ := (mem_names_in lists inside).1 listed
          obtain ⟨node, found⟩ := Option.ne_none_iff_exists'.1 there
          rw [found] at other ⊢
          obtain ⟨content, rfl⟩ :=
            file_of_node fun same => of_decide_eq_false other (congrArg some same)
          exact ⟨by simp, isHeader, content, rfl⟩
        · obtain ⟨rest, found, rfl⟩ := List.mem_map.1 further
          have isDirectory := of_decide_eq_true ((mem_names_in lists inside).1 member).2
          obtain ⟨short, isHeader, content, file⟩ := (ih isDirectory).1 found
          rw [List.append_assoc] at file
          exact ⟨Nat.succ_le_succ short,
            (is_header_cons (ne_nil_of_is_header isHeader)).trans isHeader, content, file⟩
      · rintro ⟨short, isHeader, content, file⟩
        obtain ⟨name, rest, rfl⟩ := List.exists_cons_of_ne_nil (ne_nil_of_is_header isHeader)
        by_cases flat : rest = []
        · subst flat
          have listed : name ∈ namesIn tree listing directory false :=
            (mem_names_in lists inside).2 (by simp [file])
          exact .inl ⟨name, List.mem_filter.2 ⟨listed, isHeader⟩, rfl⟩
        · have isDirectory : tree.node? (directory ++ [name]) = some .directory :=
            sound.above (by rw [file]; exact Option.some_ne_none _)
            ⟨rest, List.append_cons directory name rest |>.symm⟩ (by simpa [eq_comm] using flat)
          have found : rest ∈ walk tree listing depth (directory ++ [name]) :=
            (ih isDirectory).2 ⟨Nat.le_of_succ_le_succ short, is_header_cons flat ▸ isHeader,
            content, by simpa using file⟩
          exact .inr ⟨name, (mem_names_in lists inside).2 (by simp [isDirectory]),
            List.mem_map_of_mem found⟩

theorem ne_nil_of_mem_walk (member : place ∈ walk tree listing depth directory) : place ≠ [] := by
  cases depth with
  | zero => cases member
  | succ depth =>
      rw [walk, List.mem_append, List.mem_map, List.mem_flatMap] at member
      rcases member with ⟨name, -, rfl⟩ | ⟨name, -, further⟩
      · simp
      · obtain ⟨rest, -, rfl⟩ := List.mem_map.1 further
        simp

theorem walk_ascending (lists : Lists tree listing)
    (inside : tree.node? directory = some .directory) :
    (walk tree listing depth directory).Pairwise fun first second => placeOrder second first =
      false := by
  induction depth generalizing directory with
  | zero => exact List.Pairwise.nil
  | succ depth ih =>
      -- Two headers are files here, below one subdirectory, below two of them, or a file here and
      -- one below.
      rw [walk, List.pairwise_append, List.pairwise_map, List.pairwise_flatMap]
      refine ⟨?_, ⟨fun name member => ?_, ?_⟩, ?_⟩
      · refine ((names_in_ascending lists inside false).filter _).imp fun less => ?_
        rw [Bool.eq_false_iff, Ne, place_order_single, ← String.not_lt, not_not]
        exact less
      · have isDirectory := of_decide_eq_true ((mem_names_in lists inside).1 member).2
        rw [List.pairwise_map]
        refine (ih isDirectory).imp_of_mem fun first second before => ?_
        rw [Bool.eq_false_iff, Ne,
          place_order_deep (ne_nil_of_mem_walk second) (ne_nil_of_mem_walk first), before]
        exact not_or.2 ⟨String.lt_irrefl name, fun both => Bool.false_ne_true both.2⟩
      · refine (names_in_ascending lists inside true).imp fun less first isFirst second isSecond =>
          ?_
        obtain ⟨rest, found, rfl⟩ := List.mem_map.1 isFirst
        obtain ⟨others, otherFound, rfl⟩ := List.mem_map.1 isSecond
        rw [Bool.eq_false_iff, Ne,
          place_order_deep (ne_nil_of_mem_walk otherFound) (ne_nil_of_mem_walk found)]
        rintro (more | ⟨rfl, -⟩)
        · exact String.lt_asymm less more
        · exact String.lt_irrefl _ less
      · intro first isFirst second isSecond
        obtain ⟨name, -, rfl⟩ := List.mem_map.1 isFirst
        obtain ⟨other, -, further⟩ := List.mem_flatMap.1 isSecond
        obtain ⟨rest, found, rfl⟩ := List.mem_map.1 further
        exact (place_order_flat (ne_nil_of_mem_walk found)).2

end Walk

section Headers

variable {tree : Tree} {listing : Place → List String} {root path : String} {exclude : List String}
    {target : Target}
  {place : Place}

theorem header_places_eq (located : tree.locate root = .ok target)
    (inside : tree.node? target.place = some .directory) :
    headerPlaces tree root = (((tree.below target.place).filter fun entry =>
      entry.2 ≠ .directory && isHeaderPlace entry.1).map Prod.fst).mergeSort placeOrder := by
  have isDirectory : tree.isDirectory root = true := (Tree.is_directory_at located).2 inside
  simp only [headerPlaces, located, isDirectory]

theorem mem_header_places (sound : tree.Sound) (located : tree.locate root = .ok target)
    (inside : tree.node? target.place = some .directory) :
    place ∈ headerPlaces tree root ↔
      isHeaderPlace place = true ∧ ∃ content,
        tree.node? (target.place ++ place) = some (.file content) := by
  rw [header_places_eq located inside, List.mem_mergeSort, List.mem_map]
  constructor
  · rintro ⟨⟨names, node⟩, member, rfl⟩
    obtain ⟨below, facts⟩ := List.mem_filter.1 member
    obtain ⟨other, isHeader⟩ := Bool.and_eq_true_iff.1 facts
    obtain ⟨content, rfl⟩ := file_of_node (of_decide_eq_true other)
    exact ⟨isHeader, content, (sound.mem_below.1 below).2⟩
  · rintro ⟨isHeader, content, file⟩
    refine ⟨(place, .file content),
      List.mem_filter.2 ⟨sound.mem_below.2 ⟨ne_nil_of_is_header isHeader, file⟩, ?_⟩, rfl⟩
    simp [isHeader]

theorem header_places_ordered (sound : tree.Sound) (located : tree.locate root = .ok target)
    (inside : tree.node? target.place = some .directory) : (headerPlaces tree root).Nodup ∧
      (headerPlaces tree root).Pairwise fun first second => placeOrder first second = true := by
  rw [header_places_eq located inside]
  constructor
  · rw [(List.mergeSort_perm _ _).nodup_iff]
    exact sound.below_distinct.sublist (List.filter_sublist.map Prod.fst)
  · refine @List.pairwise_mergeSort _ placeOrder (fun _ _ _ => place_order_trans)
      (fun first second => ?_) _
    rw [Bool.or_eq_true]
    exact place_order_total first second

/-- The headers below a directory come as a walk finds them, whatever order it is told the names
in. -/
theorem header_places_walked (sound : tree.Sound) (located : tree.locate root = .ok target)
    (inside : tree.node? target.place = some .directory) (lists : Lists tree listing) {depth : Nat}
    (deep : ∀ place ∈ tree.nodes.keys, place.length ≤ depth) :
    headerPlaces tree root = walk tree listing depth target.place := by
  have ascending := @walk_ascending _ _ _ depth lists inside
  obtain ⟨distinct, ordered⟩ := header_places_ordered sound located inside
  refine ordered_unique distinct (ascending.imp ?_) ordered (ascending.imp ?_) fun place => ?_
  · rintro place _ before rfl
    have own := place_order_total place place
    simp [before] at own
  · intro first second before
    exact (place_order_total first second).resolve_right (by simp [before])
  · rw [mem_walk sound lists inside, mem_header_places sound located inside]
    refine ⟨fun found => ⟨?_, found⟩, And.right⟩
    obtain ⟨isHeader, content, file⟩ := found
    have key : target.place ++ place ∈ tree.nodes.keys := by
      rw [Tree.mem_keys_iff, ← Tree.node_named (by simp [ne_nil_of_is_header isHeader]), file]
      exact Option.some_ne_none _
    have bounded := deep _ key
    rw [List.length_append] at bounded
    omega

theorem is_excluded_concat {front : Place} {name : String} :
    isExcluded exclude (front ++ [name]) = false ↔
    ∀ pattern ∈ exclude,
      globAccepts pattern name = false ∧
        globAccepts pattern (Path.ofNames (front ++ [name])) = false := by
  simp [isExcluded]

theorem mem_discover : path ∈ discover tree root exclude ↔
    ∃ place ∈ headerPlaces tree root, isExcluded exclude place = false ∧
      path = Path.ofNames place := by
  rw [discover, List.mem_map]
  constructor
  · rintro ⟨place, member, rfl⟩
    obtain ⟨found, kept⟩ := List.mem_filter.1 member
    exact ⟨place, found, by simpa using kept, rfl⟩
  · rintro ⟨place, found, kept, rfl⟩
    exact ⟨place, List.mem_filter.2 ⟨found, by simpa using kept⟩, rfl⟩

theorem names_proper_below (proper : ∀ place ∈ tree.nodes.keys, ∀ name ∈ place, Path.IsProper name)
    {names : Place} (there : tree.node? (place ++ names) ≠ none) :
    ∀ name ∈ names, Path.IsProper name := by
  intro name member
  rw [Tree.node_named (by rintro none; simp_all), ← Tree.mem_keys_iff] at there
  exact proper _ there name (List.mem_append_right _ member)

theorem discover_distinct (sound : tree.Sound)
    (proper : ∀ place ∈ tree.nodes.keys, ∀ name ∈ place, Path.IsProper name)
    (located : tree.locate root = .ok target) (inside : tree.node? target.place = some .directory) :
    (discover tree root exclude).Nodup := by
  have properPlace : ∀ place ∈ headerPlaces tree root, ∀ name ∈ place, Path.IsProper name := by
    intro place member
    obtain ⟨-, content, file⟩ := (mem_header_places sound located inside).1 member
    have there : tree.node? (target.place ++ place) ≠ none := by simp [file]
    exact names_proper_below proper there
  refine ((header_places_ordered sound located inside).1.filter _).map_on
    fun first isFirst second isSecond same => ?_
  have properFirst := properPlace first (List.mem_filter.1 isFirst).1
  have properSecond := properPlace second (List.mem_filter.1 isSecond).1
  exact Path.of_names_inj properFirst properSecond same

/-- The path to something below a directory leads there from the directory, and back to itself. -/
theorem path_leads (sound : tree.Sound)
    (proper : ∀ place ∈ tree.nodes.keys, ∀ name ∈ place, Path.IsProper name)
    (located : tree.locate root = .ok target) {names : Place} (below : names ≠ [])
    (there : tree.node? (target.place ++ names) ≠ none) :
    tree.locate (Path.join root (Path.ofNames names)) = .ok { place := target.place ++ names } ∧
      Path.relative (Path.join root (Path.ofNames names)) root = Path.ofNames names := by
  have properNames : ∀ name ∈ names, Path.IsProper name := names_proper_below proper there
  obtain ⟨front, last, rfl⟩ := (List.eq_nil_or_concat' names).resolve_left below
  constructor
  · refine Tree.locate_join located properNames fun other above => sound.above there ?_ ?_
    · exact (List.prefix_append_right_inj _).2 (above.trans (List.prefix_append _ _))
    · intro same
      have length := congrArg List.length (List.append_cancel_left same)
      have shorter := above.length_le
      rw [List.length_append, List.length_singleton] at length
      omega
  · have unrooted := (Path.names_of_names properNames).1
    have lengthened : Path.names (Path.absolute (Path.join root (Path.ofNames (front ++ [last])))) =
        Path.names (Path.absolute root) ++ (front ++ [last]) := by
      rw [Path.names_join root unrooted, Path.walk_from_pieces_of_names properNames,
        List.reverse_append, List.reverse_reverse, List.reverse_reverse]
    unfold Path.relative
    rw [lengthened, Path.names_from_below]
    cases front <;> rfl

/-- The headers below a directory are found completely and once each, by paths that lead to them, in
the order of a walk that is told the names in each directory in any order. -/
theorem headers_discovered (tree : Tree) (root : String) (exclude : List String) (target : Target)
    (sound : tree.Sound) (proper : ∀ place ∈ tree.nodes.keys, ∀ name ∈ place, Path.IsProper name)
    (located : tree.locate root = .ok target) (there : tree.isDirectory root = true) :
    (discover tree root exclude).Nodup ∧
      (∀ path, path ∈ discover tree root exclude ↔
        ∃ front name content, path = Path.ofNames (front ++ [name]) ∧
        tree.node? (target.place ++ (front ++ [name])) = some (.file content) ∧
        endsWith ['.', 'h'] name.toList = true ∧
        ∀ pattern ∈ exclude, globAccepts pattern name = false ∧ globAccepts pattern path = false) ∧
      (∀ path ∈ discover tree root exclude, ∃ names content, path = Path.ofNames names ∧
        tree.locate (Path.join root path) = .ok { place := target.place ++ names } ∧
        tree.node? (target.place ++ names) = some (.file content) ∧
          Path.relative (Path.join root path) root = path) ∧
      ∀ listing, Lists tree listing → ∀ depth, (∀ place ∈ tree.nodes.keys, place.length ≤ depth) →
        discover tree root exclude =
          ((walk tree listing depth target.place).filter fun place => !isExcluded exclude place).map
            Path.ofNames := by
  have inside := (Tree.is_directory_at located).1 there
  refine ⟨discover_distinct sound proper located inside, fun path => ?_, fun path member => ?_,
    fun listing lists depth deep => ?_⟩
  · rw [mem_discover]
    constructor
    · rintro ⟨place, member, kept, rfl⟩
      obtain ⟨isHeader, content, file⟩ := (mem_header_places sound located inside).1 member
      obtain ⟨front, name, rfl⟩ :=
        (List.eq_nil_or_concat' place).resolve_left (ne_nil_of_is_header isHeader)
      exact ⟨front, name, content, rfl, file, by
        simpa [isHeaderPlace] using isHeader, is_excluded_concat.1 kept⟩
    · rintro ⟨front, name, content, rfl, file, isHeader, kept⟩
      have found : front ++ [name] ∈ headerPlaces tree root :=
        (mem_header_places sound located inside).2
        ⟨by simpa [isHeaderPlace] using isHeader, content, file⟩
      exact ⟨front ++ [name], found, is_excluded_concat.2 kept, rfl⟩
  · obtain ⟨names, found, -, rfl⟩ := mem_discover.1 member
    obtain ⟨isHeader, content, file⟩ := (mem_header_places sound located inside).1 found
    obtain ⟨leads, back⟩ :=
      path_leads sound proper located (ne_nil_of_is_header isHeader) (by simp [file])
    exact ⟨names, content, rfl, leads, file, back⟩
  · rw [discover, header_places_walked sound located inside lists deep]

theorem headers_of_subdirectory_last :
    let tree : Tree :=
      { nodes :=
          ⟨[(["inc"], .directory), (["inc", "z.h"], .file (.text "")), (["inc", "a"], .directory),
            (["inc", "a", "b.h"], .file (.text "")), (["inc", "a", "b.hpp"], .file (.text "")),
            (["inc", "own.h"], .file (.text "")), (["inc", "c.h"], .file (.text "")),
            (["d.h"], .file (.text ""))]⟩ }
    let listing : Place → List String := fun place => (namesBelow tree place).reverse
    (tree.Sound ∧ tree.locate "inc/" = .ok { place := ["inc"], slashed := true } ∧
      tree.isDirectory "inc/" ∧
      Lists tree listing) ∧
    discover tree "inc/" ["o*"] = ["c.h", "z.h", "a/b.h"] ∧
    Path.relative (Path.join "inc/" "a/b.h") "inc/" = "a/b.h" := by
  intro tree listing
  have sound : tree.Sound := ⟨by decide, by decide, by decide⟩
  have located : tree.locate "inc/" = .ok { place := ["inc"], slashed := true } := by decide
  have there : tree.isDirectory "inc/" = true := by decide
  have lists : Lists tree listing := fun place inside =>
    ⟨List.nodup_reverse.2 (names_below_list sound place inside).1, fun name =>
      List.mem_reverse.trans ((names_below_list sound place inside).2 name)⟩
  obtain ⟨-, -, leads, order⟩ :=
    headers_discovered tree "inc/" ["o*"] _ sound (by decide) located there
  have sorted (directory : Place) (directories : Bool) {names : List String}
      (permuted : ((listing directory).filter fun name =>
      decide (tree.node? (directory ++ [name]) = some .directory) == directories).Perm names)
      (ascending : names.Pairwise (· < ·)) : namesIn tree listing directory directories = names :=
      sorted_of_perm permuted ascending
  have files : namesIn tree listing ["inc"] false = ["c.h", "own.h", "z.h"] :=
    sorted _ _ (by decide) (by decide)
  have directories : namesIn tree listing ["inc"] true = ["a"] := sorted _ _ (by decide) (by decide)
  have filesBelow : namesIn tree listing ["inc", "a"] false = ["b.h", "b.hpp"] :=
    sorted _ _ (by decide) (by decide)
  have noneBelow : namesIn tree listing ["inc", "a"] true = [] := sorted _ _ (by decide) (by decide)
  have walked : walk tree listing 3 ["inc"] = [["c.h"], ["own.h"], ["z.h"], ["a", "b.h"]] := by
    simp only [walk, files, directories, List.flatMap_cons, List.flatMap_nil, List.cons_append,
      List.nil_append, filesBelow, noneBelow]
    decide
  have found : discover tree "inc/" ["o*"] = ["c.h", "z.h", "a/b.h"] := by
    rw [order listing lists 3 (by decide), walked]
    decide +kernel
  obtain ⟨-, -, -, -, -, back⟩ := leads "a/b.h" (by simp [found])
  exact ⟨⟨sound, located, there, lists⟩, found, back⟩

end Headers

end HeaderDocs.Site
