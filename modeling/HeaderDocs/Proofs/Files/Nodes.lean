import HeaderDocs.Files.Tree
import HeaderDocs.Proofs.Files.Normal
import Mathlib.Data.Finset.Max
import Mathlib.Data.List.Pairwise
import Mathlib.Data.List.TakeWhile

/-!
What stands at the places of a directory tree, and where paths lead in it. Trees are told by what
stands at each place, and an operation by the places where that changes. In a sound tree everything
stands in a directory that was there before it. Paths are not asked to be normal here, but where
their names are given.
-/

namespace HeaderDocs.Tree

set_option autoImplicit false

variable {tree after : Tree} {place other directory : Place} {node : Node}

theorem node_root : tree.node? [] = some .directory := if_pos rfl

theorem node_named (named : place ≠ []) : tree.node? place = tree.nodes.find? place := if_neg named

theorem file_named {content : Content}
    (there : tree.node? place = some (.file content)) : place ≠ [] := by
  rintro rfl
  cases there

theorem node_put (named : place ≠ []) :
    (tree.put place node).node? other = if other = place then some node else tree.node? other := by
  by_cases root : other = []
  · rw [root, node_root, if_neg (Ne.symm named), node_root]
  · rw [node_named root, node_named root]
    exact Index.find?_insert tree.nodes place other node

theorem node_clear (named : place ≠ []) :
    (tree.clear place).node? other = if other = place then none else tree.node? other := by
  by_cases root : other = []
  · rw [root, node_root, if_neg (Ne.symm named), node_root]
  · rw [node_named root, node_named root]
    exact Index.find?_erase tree.nodes place other

theorem put_known (named : place ≠ [])
    (there : tree.node? place = some node) : tree.put place node = tree := by
  rw [node_named named] at there
  rw [put, Index.insert_known there]

theorem mem_keys_iff : place ∈ tree.nodes.keys ↔ tree.nodes.find? place ≠ none := by
  rw [← Index.contains_iff, Index.contains, Option.isSome_iff_ne_none]

/-- Everything in the tree stands in a directory, and comes after it. -/
structure Sound (tree : Tree) : Prop where
  named : [] ∉ tree.nodes.keys
  supported : ∀ place ∈ tree.nodes.keys, tree.node? place.dropLast = some .directory
  ordered : tree.nodes.keys.Pairwise fun earlier later => ¬later <+: earlier

namespace Sound

theorem empty : Sound {} :=
  ⟨List.not_mem_nil, fun _ member => absurd member List.not_mem_nil, List.Pairwise.nil⟩

theorem parent (sound : tree.Sound) {last : String}
    (there : tree.node? (directory ++ [last]) ≠ none) :
    tree.node? directory = some .directory := by
  rw [node_named (by simp), ← mem_keys_iff] at there
  simpa using sound.supported _ there

theorem above (sound : tree.Sound) (there : tree.node? place ≠ none) (below : other <+: place)
    (strict : other ≠ place) :
    tree.node? other = some .directory := by
  induction place using List.reverseRecOn with
  | nil => exact absurd (List.prefix_nil.1 below) strict
  | append_singleton front last ih =>
      have isDirectory := sound.parent there
      rcases List.prefix_concat_iff.1 below with same | shorter
      · exact absurd same strict
      · by_cases same : other = front
        · rw [same, isDirectory]
        · exact ih (by simp [isDirectory]) shorter same

theorem prefixes (sound : tree.Sound) (there : tree.node? place = some .directory)
    (below : other <+: place) :
    tree.node? other = some .directory := by
  by_cases same : other = place
  · rw [same, there]
  · exact sound.above (by simp [there]) below same

theorem put (sound : tree.Sound) (named : place ≠ [])
    (inside : tree.node? place.dropLast = some .directory)
    (kept : node = .directory ∨ tree.node? place ≠ some .directory) :
    (tree.put place node).Sound := by
  have keys : (tree.put place node).nodes.keys = tree.nodes.keys ∨
      place ∉ tree.nodes.keys ∧ (tree.put place node).nodes.keys = tree.nodes.keys ++ [place] := by
    have inserted := Index.keys_insert tree.nodes place node
    split at inserted
    · exact .inl inserted
    · exact .inr ⟨by assumption, inserted⟩
  have mem {other : Place} (member : other ∈ (tree.put place node).nodes.keys) :
      other = place ∨ other ∈ tree.nodes.keys := by
    rcases keys with same | ⟨-, longer⟩
    · exact .inr (same ▸ member)
    · simpa [longer, or_comm] using member
  have strict {names : Place} (some : names ≠ []) : names.dropLast ≠ names := by
    intro same
    have length := congrArg List.length same
    have positive := List.length_pos_iff.2 some
    rw [List.length_dropLast] at length
    omega
  refine ⟨fun member => ?_, fun other member => ?_, ?_⟩
  · exact (mem member).elim (fun same => named same.symm) sound.named
  · rw [node_put named]
    rcases mem member with rfl | old
    · rw [if_neg (strict named), inside]
    · split
      · rename_i same
        have held := same ▸ sound.supported other old
        exact congrArg some (kept.resolve_right (not_not.2 held))
      · exact sound.supported other old
  · rcases keys with same | ⟨new, longer⟩
    · rw [same]
      exact sound.ordered
    · rw [longer, List.pairwise_append]
      refine ⟨sound.ordered, List.pairwise_singleton _ _, fun earlier old later single below => ?_⟩
      rw [List.mem_singleton.1 single] at below
      have there : tree.node? earlier ≠ none := by
        rw [node_named fun root => sound.named (root ▸ old)]
        exact mem_keys_iff.1 old
      have held := sound.above there below fun same => new (same ▸ old)
      rw [node_named named] at held
      exact new (mem_keys_iff.2 (by simp [held]))

theorem put_file (sound : tree.Sound) {old new : Content}
    (there : tree.node? place = some (.file old)) :
    (tree.put place (.file new)).Sound := by
  obtain ⟨front, last, rfl⟩ := (List.eq_nil_or_concat' place).resolve_left (file_named there)
  refine sound.put (file_named there) ?_ (.inr (by simp [there]))
  rw [List.dropLast_concat]
  exact sound.parent (by rw [there]; exact Option.some_ne_none _)

end Sound

theorem mem_below {names : Place} :
    (names, node) ∈ tree.below place ↔
      names ≠ [] ∧ (place ++ names, node) ∈ tree.nodes.entries := by
  simp only [below, List.mem_filterMap, Prod.exists]
  constructor
  · rintro ⟨found, there, entry, matched⟩
    split at matched
    · rename_i name rest cut
      simp only [Option.some.injEq, Prod.mk.injEq] at matched
      obtain ⟨rfl, rfl⟩ := matched
      rw [List.isPrefixOf?_eq_some_iff_append_eq] at cut
      exact ⟨by simp, by rwa [cut]⟩
    · simp at matched
  · rintro ⟨some, entry⟩
    obtain ⟨name, rest, rfl⟩ := List.exists_cons_of_ne_nil some
    refine ⟨_, _, entry, ?_⟩
    rw [List.isPrefixOf?_eq_some_iff_append_eq.2 rfl]

theorem Sound.distinct (sound : tree.Sound) : tree.nodes.keys.Nodup := by
  refine sound.ordered.imp ?_
  rintro place _ apart rfl
  exact apart List.prefix_rfl

theorem Sound.mem_below (sound : tree.Sound) {names : Place} :
    (names, node) ∈ tree.below place ↔ names ≠ [] ∧ tree.node? (place ++ names) = some node := by
  rw [Tree.mem_below]
  refine and_congr_right fun some => ?_
  rw [node_named (by simp [some])]
  exact Index.mem_entries sound.distinct

theorem Sound.below_ordered (sound : tree.Sound) :
    (tree.below place).Pairwise fun earlier later => ¬later.1 <+: earlier.1 := by
  refine List.Pairwise.filterMap _ ?_ (List.pairwise_map.1 sound.ordered)
  intro earlier later apart first firstCut second secondCut below
  split at firstCut
  · rename_i name names cut
    split at secondCut
    · rename_i other others otherCut
      cases firstCut
      cases secondCut
      rw [← List.isPrefixOf?_eq_some_iff_append_eq.1 cut,
        ← List.isPrefixOf?_eq_some_iff_append_eq.1 otherCut] at apart
      exact apart ((List.prefix_append_right_inj place).2 below)
    · cases secondCut
  · cases firstCut

theorem Sound.below_distinct (sound : tree.Sound) : ((tree.below place).map Prod.fst).Nodup := by
  refine List.pairwise_map.2 (sound.below_ordered.imp ?_)
  intro earlier later apart same
  exact apart (same ▸ List.prefix_rfl)

theorem below_put (outside : ¬place <+: other) :
    (tree.put other node).below place = tree.below place := by
  refine Index.filter_map_insert node fun node => ?_
  simp only
  split
  · rename_i cut
    exact absurd ⟨_, List.isPrefixOf?_eq_some_iff_append_eq.1 cut⟩ outside
  · rfl

theorem below_is_empty_iff :
    (tree.below place).isEmpty ↔ ∀ names, names ≠ [] → tree.node? (place ++ names) = none := by
  rw [List.isEmpty_iff, List.eq_nil_iff_forall_not_mem]
  constructor
  · intro bare names some
    rw [node_named (by simp [some])]
    by_contra there
    obtain ⟨entry, member, key⟩ := List.mem_map.1 (mem_keys_iff.2 there)
    exact bare (names, entry.2) (mem_below.2 ⟨some, by rwa [← key]⟩)
  · rintro bare ⟨names, node⟩ member
    obtain ⟨some, entry⟩ := mem_below.1 member
    have there := mem_keys_iff.1 (List.mem_map.2 ⟨_, entry, rfl⟩)
    have absent := bare names some
    rw [node_named (by simp [some])] at absent
    exact there absent

/-- Below something there is something with nothing below it. -/
theorem exists_deepest (there : tree.node? place ≠ none) (named : place ≠ []) :
    ∃ other, place <+: other ∧ tree.node? other ≠ none ∧ ∀ names, names ≠ [] →
      tree.node? (other ++ names) = none := by
  have inside {other : Place} (under : place <+: other) (there : tree.node? other ≠ none) :
      other ∈ (tree.nodes.keys.filter (place <+: ·)).toFinset := by
    have otherNamed : other ≠ [] := fun none => named (List.prefix_nil.1 (none ▸ under))
    rw [node_named otherNamed] at there
    simpa [under] using mem_keys_iff.2 there
  obtain ⟨other, member, longest⟩ :=
    Finset.exists_max_image _ List.length ⟨place, inside List.prefix_rfl there⟩
  obtain ⟨key, under⟩ : other ∈ tree.nodes.keys ∧ place <+: other := by simpa using member
  have otherNamed : other ≠ [] := fun none => named (List.prefix_nil.1 (none ▸ under))
  refine ⟨other, under, ?_, fun names some => ?_⟩
  · rw [node_named otherNamed]
    exact mem_keys_iff.1 key
  · by_contra further
    have length := longest _ (inside (under.trans (List.prefix_append other names)) further)
    have positive := List.length_pos_iff.2 some
    rw [List.length_append] at length
    omega

theorem follow_append (first second : List String) :
    tree.follow place (first ++ second) =
      match tree.follow place first with
      | .ok directory => tree.follow directory second
      | .error dead => .error dead := by
  induction first generalizing place with
  | nil => rfl
  | cons piece pieces ih =>
      simp only [List.cons_append, follow]
      cases tree.enter place piece with
      | ok directory => exact ih
      | error dead => rfl

theorem enter_name {name : String} (named : name ≠ "" ∧ name ≠ "." ∧ name ≠ "..") :
    tree.enter directory name =
      match tree.node? (directory ++ [name]) with
      | some .directory => .ok (directory ++ [name])
      | some (.file _) => .error .blocked
      | none => .error .absent := by
  cases found : tree.node? (directory ++ [name]) with
  | none => simp only [enter, named, or_self, if_false, found]
  | some node => cases node <;> simp only [enter, named, or_self, if_false, found]

theorem follow_names {names : List String} (proper : ∀ name ∈ names, Path.IsProper name)
    (directories : ∀ other, other <+: names → tree.node? (place ++ other) = some .directory) :
    tree.follow place names = .ok (place ++ names) := by
  induction names generalizing place with
  | nil => rw [List.append_nil]; rfl
  | cons name rest ih =>
      have first : tree.enter place name = .ok (place ++ [name]) := by
        rw [enter_name (proper name (by simp)).named, directories [name] (by simp)]
      have others : tree.follow (place ++ [name]) rest = .ok (place ++ [name] ++ rest) :=
        ih (fun other member => proper other (List.mem_cons_of_mem _ member)) fun other below => by
          rw [List.append_assoc]
          exact directories (name :: other) (List.cons_prefix_cons.2 ⟨rfl, below⟩)
      simp only [follow, first, others, List.append_assoc, List.singleton_append]

theorem node_of_follow (sound : tree.Sound) {pieces : List String}
    (start : tree.node? place = some .directory)
    (followed : tree.follow place pieces = .ok directory) :
    tree.node? directory = some .directory := by
  induction pieces generalizing place with
  | nil =>
      obtain rfl : place = directory := Except.ok.inj followed
      exact start
  | cons piece pieces ih =>
      rw [follow] at followed
      split at followed
      · rename_i next entered
        refine ih ?_ followed
        unfold enter at entered
        split at entered
        · rwa [← Except.ok.inj entered]
        · split at entered
          · split at entered
            · simp at entered
            · rw [← Except.ok.inj entered]
              exact sound.prefixes start (List.dropLast_prefix place)
          · split at entered
            · rwa [← Except.ok.inj entered]
            · simp at entered
            · simp at entered
      · simp at followed

theorem follow_blanks {blanks : List String} (blank : ∀ piece ∈ blanks, piece = "") :
    tree.follow place blanks = .ok place := by
  induction blanks with
  | nil => rfl
  | cons piece blanks ih =>
      have stays : tree.enter place piece = .ok place := by
        rw [enter, if_pos (.inl (blank piece List.mem_cons_self))]
      simp only [follow, stays, ih fun other member => blank other (List.mem_cons_of_mem _ member)]

theorem reaches_iff {path : String} : tree.reaches path ↔
    (Path.isAbsolute path → tree.whole) ∧ tree.node? (tree.start path) = some .directory := by
  rw [reaches, Bool.and_eq_true, beq_iff_eq]
  cases tree.whole <;> cases Path.isAbsolute path <;> simp

theorem start_alike {first second : String}
    (alike : Path.isAbsolute first = Path.isAbsolute second) :
    tree.start first = tree.start second := by
  rw [start, start, alike]

theorem reaches_alike {first second : String}
    (alike : Path.isAbsolute first = Path.isAbsolute second) :
    tree.reaches first = tree.reaches second := by
  rw [reaches, reaches, start_alike alike, alike]

/-- The last piece of a path that is not empty, unless all are. -/
theorem pieces_cases (path : String) : (∀ piece ∈ Path.pieces path, piece = "") ∨
    ∃ before last blanks, Path.pieces path = before ++ last :: blanks ∧ last ≠ "" ∧
      ∀ piece ∈ blanks, piece = "" := by
  induction Path.pieces path using List.reverseRecOn with
  | nil => exact .inl fun piece member => absurd member List.not_mem_nil
  | append_singleton front last ih =>
      by_cases empty : last = ""
      · rcases ih with blank | ⟨before, name, blanks, rfl, given, blank⟩
        · exact .inl (by simpa [or_imp, forall_and] using ⟨blank, empty⟩)
        · refine .inr ⟨before, name, blanks ++ [last], by simp, given, ?_⟩
          simpa [or_imp, forall_and] using ⟨blank, empty⟩
      · exact .inr ⟨front, last, [], rfl, empty, by simp⟩

/-- A path of slashes alone leads to where it starts. -/
theorem locate_top {path : String} (reached : tree.reaches path) (given : path ≠ "")
    (blank : ∀ piece ∈ Path.pieces path, piece = "") :
    tree.locate path = .ok { place := tree.start path, dotted := true } := by
  have dropped : (Path.pieces path).reverse.dropWhile (· == "") = [] :=
    List.dropWhile_eq_nil_iff.2 (by simpa using blank)
  simp only [locate, String.isEmpty_eq_false_iff.2 given, reached, Bool.not_true, Bool.or_self,
    Bool.false_eq_true, if_false, dropped]

/-- A path leads from where its pieces but the last lead; slashes at its end make it ask for a
directory. -/
theorem locate_pieces {path last : String} {before blanks : List String}
    (reached : tree.reaches path) (parts : Path.pieces path = before ++ last :: blanks)
    (some : last ≠ "") (blank : ∀ piece ∈ blanks, piece = "") :
    tree.locate path = (tree.follow (tree.start path) before).bind fun directory =>
      if last = "." ∨ last = ".." then (tree.enter directory last).map fun place =>
        { place := place, dotted := true }
      else .ok { place := directory ++ [last], slashed := !blanks.isEmpty } := by
  have given : path.isEmpty = false := by
    rw [String.isEmpty_eq_false_iff]
    rintro rfl
    have single : [""] = before ++ last :: blanks := parts
    cases before with
    | nil => exact some (List.cons.inj single).1.symm
    | cons first rest => simp at single
  have slashed : ((Path.pieces path).reverse.head? == Option.some "") = !blanks.isEmpty := by
    rw [parts]
    rcases List.eq_nil_or_concat' blanks with rfl | ⟨front, piece, rfl⟩
    · simpa using some
    · simp [blank piece (by simp)]
  have dropped : (Path.pieces path).reverse.dropWhile (· == "") = last :: before.reverse := by
    rw [parts, List.reverse_append, List.reverse_cons, List.append_assoc,
      List.dropWhile_append_of_pos]
    · simp [some]
    · simpa using blank
  simp only [locate, given, reached, Bool.not_true, Bool.or_self, Bool.false_eq_true, if_false,
    slashed, dropped, List.reverse_reverse]
  cases tree.follow (tree.start path) before with
  | error dead => rfl
  | ok directory =>
      simp only [Except.bind]
      cases tree.enter directory last <;> rfl

theorem reached_of_located {path : String} {target : Target}
    (found : tree.locate path = .ok target) : tree.reaches path ∧ path ≠ "" := by
  unfold locate at found
  split at found
  · simp at found
  · rename_i given
    simp only [Bool.or_eq_true, not_or, Bool.not_eq_true, Bool.not_eq_false'] at given
    exact ⟨given.2, String.isEmpty_eq_false_iff.1 given.1⟩

/-- How a path leads somewhere. Slashes alone lead to where they start. Else what stands before the
last piece is followed; that piece is a name, or dots that lead to a directory, and slashes may
stand behind it. -/
inductive Leads (tree : Tree) (path : String) : Target → Prop
  | top (reached : tree.reaches path) (given : path ≠ "")
      (blank : ∀ piece ∈ Path.pieces path, piece = "") :
      Leads tree path { place := tree.start path, dotted := true }
  | dots {before blanks : List String} {last : String} {directory place : Place}
      (reached : tree.reaches path) (parts : Path.pieces path = before ++ last :: blanks)
      (blank : ∀ piece ∈ blanks, piece = "")
      (followed : tree.follow (tree.start path) before = .ok directory)
      (dotted : last = "." ∨ last = "..") (entered : tree.enter directory last = .ok place) :
      Leads tree path { place := place, dotted := true }
  | name {before blanks : List String} {last : String} {directory : Place}
      (reached : tree.reaches path) (parts : Path.pieces path = before ++ last :: blanks)
      (blank : ∀ piece ∈ blanks, piece = "")
      (followed : tree.follow (tree.start path) before = .ok directory)
      (named : last ≠ "" ∧ last ≠ "." ∧ last ≠ "..") :
      Leads tree path { place := directory ++ [last], slashed := !blanks.isEmpty }

theorem located_iff {path : String} {target : Target} :
    tree.locate path = .ok target ↔ Leads tree path target := by
  constructor
  · intro found
    obtain ⟨reached, filled⟩ := reached_of_located found
    rcases pieces_cases path with blank | ⟨before, last, blanks, parts, given, blank⟩
    · rw [locate_top reached filled blank] at found
      exact Except.ok.inj found ▸ .top reached filled blank
    · rw [locate_pieces reached parts given blank] at found
      cases followed : tree.follow (tree.start path) before with
      | error dead =>
          rw [followed] at found
          cases found
      | ok directory =>
          rw [followed] at found
          simp only [Except.bind] at found
          split at found
          · rename_i dotted
            cases entered : tree.enter directory last with
            | error dead =>
                rw [entered] at found
                cases found
            | ok place =>
                rw [entered] at found
                exact Except.ok.inj found ▸ .dots reached parts blank followed dotted entered
          · rename_i plain
            exact Except.ok.inj found ▸ .name reached parts blank followed ⟨given, not_or.1 plain⟩
  · intro leads
    cases leads with
    | top reached given blank => exact locate_top reached given blank
    | @dots before blanks last directory place reached parts blank followed dotted entered =>
        have given : last ≠ "" := by rcases dotted with rfl | rfl <;> decide
        rw [locate_pieces reached parts given blank, followed]
        simp only [Except.bind, dotted, if_true, entered]
        rfl
    | name reached parts blank followed named =>
        rw [locate_pieces reached parts named.1 blank, followed]
        simp only [Except.bind, named, or_self, if_false]

theorem located_named {path : String} {target : Target} (found : tree.locate path = .ok target)
    (undotted : target.dotted = false) : target.place ≠ [] := by
  cases located_iff.1 found with
  | top => cases undotted
  | dots => cases undotted
  | name => exact List.concat_ne_nil _ _

theorem follow_located {path : String} {target : Target} (found : tree.locate path = .ok target)
    (inside : tree.node? target.place = some .directory) :
    tree.follow (tree.start path) (Path.pieces path) = .ok target.place := by
  cases located_iff.1 found with
  | top reached given blank => exact follow_blanks blank
  | dots reached parts blank followed dotted entered =>
      simp only [parts, follow_append, followed, follow, entered, follow_blanks blank]
  | @name before blanks last directory reached parts blank followed named =>
      have entered : tree.enter directory last = .ok (directory ++ [last]) := by
        rw [enter_name named, inside]
      simp only [parts, follow_append, followed, follow, entered, follow_blanks blank]

/-- The pieces of a path joined to a base stand behind others that lead where the base leads. -/
theorem pieces_join (base : String) {path : String} (relative : Path.isAbsolute path = false) :
    ∃ ahead, Path.pieces (Path.join base path) = ahead ++ Path.pieces path ∧
      ∀ (tree : Tree) place, tree.follow place ahead = tree.follow place (Path.pieces base) := by
  rcases Path.join_cases base relative with ⟨rfl, joined⟩ | ⟨front, rfl, joined⟩ | ⟨-, -, joined⟩
  · refine ⟨[], by rw [joined, List.nil_append], fun tree place => ?_⟩
    have stays : ∀ piece ∈ Path.pieces "", piece = "" := by decide
    exact (follow_blanks stays).symm
  · refine ⟨Path.pieces front, by rw [joined, Path.pieces_append_slash], fun tree place => ?_⟩
    rw [Path.pieces_slash, follow_append]
    cases tree.follow place (Path.pieces front) with
    | error dead => rfl
    | ok directory => exact (follow_blanks (by simp)).symm
  · exact ⟨Path.pieces base, by rw [joined, Path.pieces_append_slash], fun tree place => rfl⟩

theorem locate_join {root last : String} {front : List String} {target : Target}
    (found : tree.locate root = .ok target) (proper : ∀ name ∈ front ++ [last], Path.IsProper name)
    (directories : ∀ other, other <+: front →
      tree.node? (target.place ++ other) = some .directory) :
    tree.locate (Path.join root (Path.ofNames (front ++ [last]))) =
      .ok { place := target.place ++ (front ++ [last]) } := by
  have inside : tree.node? target.place = some .directory := by
    simpa using directories [] List.nil_prefix
  have followed := follow_located found inside
  have relative := (Path.names_of_names proper).1
  have alike := Path.is_absolute_join root relative
  have names : Path.pieces (Path.ofNames (front ++ [last])) = front ++ [last] :=
    Path.pieces_of_names (fun name member => (proper name member).2.2.2) (by simp)
  obtain ⟨ahead, parts, leads⟩ := pieces_join root relative
  rw [names, ← List.append_assoc] at parts
  obtain ⟨given, notDot, notUp, -⟩ := proper last (by simp)
  have further : tree.follow target.place front = .ok (target.place ++ front) :=
    follow_names (fun name member => proper name (List.mem_append_left _ member)) directories
  have reached : tree.reaches (Path.join root (Path.ofNames (front ++ [last]))) := by
    rw [reaches_alike alike]
    exact (reached_of_located found).1
  rw [locate_pieces reached parts given (by simp), start_alike alike, follow_append, leads tree,
    followed]
  simp [Except.bind, further, notDot, notUp]

/-- A path leads from the working directory where it leads behind the path to that. -/
theorem locate_behind_working_directory {path : String} (whole : tree.whole)
    (there : tree.node? (Path.names Path.workingDirectory) = some .directory)
    (relative : Path.isAbsolute path = false) (given : path ≠ "") :
    tree.locate (Path.join Path.workingDirectory path) = tree.locate path := by
  rcases pieces_cases path with blank | ⟨before, last, blanks, parts, some, blank⟩
  · obtain ⟨c, rest, chars⟩ := List.exists_cons_of_ne_nil (String.toList_eq_nil_iff.not.2 given)
    have notSlash : c ≠ '/' := by
      rintro rfl
      rw [Path.is_absolute_iff.2 (by rw [chars]; rfl)] at relative
      cases relative
    obtain ⟨piece, member, solid⟩ := Path.some_piece path (chars ▸ List.mem_cons_self) notSlash
    exact absurd (blank piece member) solid
  · obtain ⟨ahead, joined, leads⟩ := pieces_join Path.workingDirectory relative
    rw [parts, ← List.append_assoc] at joined
    have rooted : Path.isAbsolute (Path.join Path.workingDirectory path) = true := by
      rw [Path.is_absolute_join _ relative]
      decide
    have top : tree.start (Path.join Path.workingDirectory path) = [] := by
      simp [start, rooted]
    have inside : tree.start path = Path.names Path.workingDirectory := by
      simp [start, whole, relative]
    have reached : tree.reaches (Path.join Path.workingDirectory path) :=
      reaches_iff.2 ⟨fun _ => whole, by rw [top, node_root]⟩
    have reachedInside : tree.reaches path :=
      reaches_iff.2 ⟨fun _ => whole, by rw [inside, there]⟩
    have followed : tree.follow [] (Path.pieces Path.workingDirectory) =
        .ok (Path.names Path.workingDirectory) := by
      have names : Path.names Path.workingDirectory = ["w"] := by decide
      have entered : tree.enter [] "w" = .ok ["w"] := by
        rw [enter_name (by decide), List.nil_append, ← names, there]
      have steps : Path.pieces Path.workingDirectory = ["", "w"] := by decide
      rw [steps, names]
      change tree.follow [] ["w"] = _
      simp only [follow, entered]
    rw [locate_pieces reached joined some blank, locate_pieces reachedInside parts some blank, top,
      inside, follow_append, leads tree, followed]

theorem located_of_followed {path : String} {target : Target}
    (found : tree.locate path = .ok target)
    (reached : tree.follow (tree.start path) (Path.pieces path) = .ok place) :
    target.place = place := by
  cases located_iff.1 found with
  | top _ given blank => exact Except.ok.inj ((follow_blanks blank).symm.trans reached)
  | dots _ parts blank followed dotted entered =>
      simp only [parts, follow_append, followed, follow, entered, follow_blanks blank] at reached
      exact Except.ok.inj reached
  | @name before blanks last directory _ parts blank followed named =>
      simp only [parts, follow_append, followed, follow, enter_name named] at reached
      cases there : tree.node? (directory ++ [last]) with
      | none => simp [there] at reached
      | some node =>
          cases node with
          | directory =>
              simp only [there, follow_blanks blank] at reached
              exact Except.ok.inj reached
          | file content => simp [there] at reached

/-- Where a path leads and nothing stands, there is a directory to put something in. -/
theorem Sound.free_located (sound : tree.Sound) {path : String} {target : Target}
    (found : tree.locate path = .ok target) (free : tree.node? target.place = none) :
    target.place ≠ [] ∧ tree.node? target.place.dropLast = some .directory := by
  cases located_iff.1 found with
  | top reached given blank =>
      rw [(reaches_iff.1 reached).2] at free
      cases free
  | @dots before blanks last directory place reached parts blank followed dotted entered =>
      have single : tree.follow directory [last] = .ok place := by simp only [follow, entered]
      have inside := node_of_follow sound (reaches_iff.1 reached).2 followed
      rw [node_of_follow sound inside single] at free
      cases free
  | name reached parts blank followed named =>
      refine ⟨List.concat_ne_nil _ _, ?_⟩
      rw [List.dropLast_concat]
      exact node_of_follow sound (reaches_iff.1 reached).2 followed

theorem followed_names {names : List String} (proper : ∀ name ∈ names, Path.IsProper name)
    (followed : tree.follow place names = .ok directory) : directory = place ++ names := by
  induction names generalizing place with
  | nil => rw [List.append_nil, ← Except.ok.inj followed]
  | cons name rest ih =>
      rw [follow] at followed
      split at followed
      · rename_i next entered
        rw [enter_name (proper name (by simp)).named] at entered
        split at entered
        · obtain rfl := Except.ok.inj entered
          rw [ih (fun other member => proper other (List.mem_cons_of_mem _ member)) followed,
            List.append_assoc, List.singleton_append]
        · simp at entered
        · simp at entered
      · simp at followed

theorem located_join {base name : String} {target : Target} (proper : Path.IsProper name)
    (found : tree.locate (Path.join base name) = .ok target) :
    ∃ directory, tree.follow (tree.start base) (Path.pieces base) = .ok directory ∧
      target = { place := directory ++ [name] } := by
  obtain ⟨relative, names⟩ := Path.pieces_of_proper proper
  obtain ⟨ahead, parts, leads⟩ := pieces_join base relative
  obtain ⟨given, notDot, notUp, -⟩ := proper
  rw [names] at parts
  rw [locate_pieces (reached_of_located found).1 parts given (by simp), leads tree,
    start_alike (Path.is_absolute_join base relative)] at found
  cases followed : tree.follow (tree.start base) (Path.pieces base) with
  | error dead =>
      rw [followed] at found
      cases found
  | ok directory =>
      rw [followed] at found
      simp only [Except.bind, notDot, notUp, or_self, if_false] at found
      exact ⟨directory, rfl, (Except.ok.inj found).symm⟩

theorem followed_join {base name : String} (proper : Path.IsProper name)
    (followed : tree.follow other (Path.pieces (Path.join base name)) = .ok place) :
    ∃ directory, tree.follow other (Path.pieces base) = .ok directory ∧
      place = directory ++ [name] := by
  obtain ⟨relative, names⟩ := Path.pieces_of_proper proper
  obtain ⟨ahead, parts, leads⟩ := pieces_join base relative
  rw [parts, names, follow_append, leads tree] at followed
  cases reached : tree.follow other (Path.pieces base) with
  | error dead =>
      rw [reached] at followed
      cases followed
  | ok directory =>
      rw [reached] at followed
      exact ⟨directory, rfl, followed_names (by simpa using proper) followed⟩

section Names

variable {front : Place} {last : String}

theorem start_to_place : tree.start (Path.toPlace tree.whole place) = [] := by
  rw [start, Path.toPlace]
  cases tree.whole with
  | false => rfl
  | true => rw [if_neg]; simp [Path.is_absolute_slash]

theorem reaches_to_place (proper : ∀ name ∈ place, Path.IsProper name) :
    tree.reaches (Path.toPlace tree.whole place) := by
  refine reaches_iff.2 ⟨?_, by rw [start_to_place, node_root]⟩
  cases tree.whole with
  | false =>
      intro absolute
      rw [Path.toPlace, if_neg (by simp), (Path.names_of_names proper).1] at absolute
      cases absolute
  | true => exact fun _ => rfl

/-- The pieces of the path to a place: an empty one where it starts at the root. -/
theorem pieces_to_place (whole : Bool) (proper : ∀ name ∈ front ++ [last], Path.IsProper name) :
    ∃ blanks, (∀ piece ∈ blanks, piece = "") ∧
      Path.pieces (Path.toPlace whole (front ++ [last])) = blanks ++ front ++ last :: [] := by
  have parts : Path.pieces (Path.ofNames (front ++ [last])) = front ++ last :: [] :=
    Path.pieces_of_names (fun name member => (proper name member).2.2.2) (by simp)
  cases whole with
  | false => exact ⟨[], by simp, parts⟩
  | true =>
      refine ⟨[""], by simp, ?_⟩
      have slash := Path.pieces_append_slash "" (Path.ofNames (front ++ [last]))
      rw [parts, String.empty_append] at slash
      exact slash

theorem locate_names (proper : ∀ name ∈ front ++ [last], Path.IsProper name)
    (directories : ∀ other, other <+: front → tree.node? other = some .directory) :
    tree.locate (Path.toPlace tree.whole (front ++ [last])) = .ok { place := front ++ [last] } := by
  obtain ⟨some, notDot, notUp, -⟩ := proper last (by simp)
  obtain ⟨blanks, blank, parts⟩ := pieces_to_place tree.whole proper
  have followed : tree.follow [] front = .ok ([] ++ front) :=
    follow_names (fun name member => proper name (List.mem_append_left _ member)) directories
  rw [locate_pieces (reaches_to_place proper) parts some (by simp), start_to_place, follow_append,
    follow_blanks blank]
  simp [Except.bind, followed, notDot, notUp]

theorem locate_names_dead (sound : tree.Sound)
    (proper : ∀ name ∈ front ++ [last], Path.IsProper name)
    (barred : tree.node? front ≠ some .directory) :
    ∃ dead, tree.locate (Path.toPlace tree.whole (front ++ [last])) = .error dead := by
  obtain ⟨blanks, blank, parts⟩ := pieces_to_place tree.whole proper
  rw [locate_pieces (reaches_to_place proper) parts (proper last (by simp)).1 (by simp),
    start_to_place, follow_append, follow_blanks blank]
  cases followed : tree.follow [] front with
  | error dead => exact ⟨dead, by simp [Except.bind, followed]⟩
  | ok directory =>
      have ended :=
        followed_names (fun name member => proper name (List.mem_append_left _ member)) followed
      rw [List.nil_append] at ended
      exact absurd (ended ▸ node_of_follow sound node_root followed) barred

end Names

theorem is_directory_iff {path : String} :
    tree.isDirectory path ↔ ∃ target, tree.locate path = .ok target ∧
      tree.node? target.place = some .directory := by
  unfold isDirectory stat
  cases tree.locate path with
  | error dead => simp
  | ok target =>
      cases found : tree.node? target.place with
      | none => simp [found]
      | some node =>
          cases node with
          | directory => simp [found]
          | file content => cases slashed : target.slashed <;> simp [found, slashed]

theorem is_directory_at {path : String} {target : Target} (found : tree.locate path = .ok target) :
    tree.isDirectory path ↔ tree.node? target.place = some .directory := by
  simp [is_directory_iff, found]

theorem exists_of_is_directory {path : String}
    (there : tree.isDirectory path) : tree.exists? path := by
  unfold isDirectory at there
  unfold exists?
  cases found : tree.stat path with
  | error dead => simp [found] at there
  | ok node => rfl

theorem whole_remove_file (tree : Tree) (path : String) :
    (tree.removeFile path).whole = tree.whole := by
  unfold removeFile
  split
  · split <;> rfl
  · rfl

theorem whole_remove_directory {path : String} (removed : tree.removeDirectory? path = some after) :
    after.whole = tree.whole := by
  unfold removeDirectory? at removed
  split at removed
  · split at removed
    · rw [← Option.some.inj removed]
      rfl
    · cases removed
  · cases removed

section Growth

variable (same : after.whole = tree.whole)
  (kept : ∀ place, tree.node? place = some .directory → after.node? place = some .directory)

include same kept

theorem enter_grown {piece : String} (entered : tree.enter place piece = .ok directory) :
    after.enter place piece = .ok directory := by
  unfold enter at entered ⊢
  rw [same]
  split
  · rename_i still
    rwa [if_pos still] at entered
  · rename_i moves
    rw [if_neg moves] at entered
    split
    · rename_i up
      rwa [if_pos up] at entered
    · rename_i named
      rw [if_neg named] at entered
      split at entered
      · rename_i found
        rwa [kept _ found]
      · simp at entered
      · simp at entered

theorem follow_grown {pieces : List String} (followed : tree.follow place pieces = .ok directory) :
    after.follow place pieces = .ok directory := by
  induction pieces generalizing place with
  | nil => exact followed
  | cons piece pieces ih =>
      rw [follow] at followed ⊢
      split at followed
      · rename_i next entered
        simp only [enter_grown same kept entered]
        exact ih followed
      · simp at followed

theorem locate_grown {path : String} {target : Target} (found : tree.locate path = .ok target) :
    after.locate path = .ok target := by
  have start : after.start path = tree.start path := by rw [Tree.start, Tree.start, same]
  have still (reached : tree.reaches path) : after.reaches path := by
    rw [reaches_iff, start, same]
    exact (reaches_iff.1 reached).imp_right (kept _)
  rw [located_iff]
  cases located_iff.1 found with
  | top reached given blank => exact start ▸ .top (still reached) given blank
  | dots reached parts blank followed dotted entered =>
      exact .dots (still reached) parts blank (start ▸ follow_grown same kept followed) dotted
        (enter_grown same kept entered)
  | name reached parts blank followed named =>
      exact .name (still reached) parts blank (start ▸ follow_grown same kept followed) named

theorem filled_grown {path : String} {target : Target} (found : tree.locate path = .ok target)
    (filled : tree.isFilledDirectory path)
    (unmoved : after.below target.place = tree.below target.place) :
    after.isFilledDirectory path := by
  have still := locate_grown same kept found
  have ⟨isDirectory, given⟩ : tree.isDirectory path ∧ !(tree.below target.place).isEmpty := by
    simpa [isFilledDirectory, found] using filled
  have there := kept _ ((is_directory_at found).1 isDirectory)
  simp [isFilledDirectory, still, (is_directory_at still).2 there, unmoved, given]

end Growth

end HeaderDocs.Tree
