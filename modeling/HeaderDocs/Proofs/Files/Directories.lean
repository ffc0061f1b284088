import HeaderDocs.Proofs.Files.Nodes

/-!
Directories made along a path. Making the directories of a path that leads to a directory changes
nothing, however the path is written. Along a path of names every place becomes a directory, unless
a file stands at one of them; nothing else changes.
-/

namespace HeaderDocs

set_option autoImplicit false

namespace Path

theorem drop_slashes_cases (text : List Char) : (∀ c ∈ text, c = '/') ∨
    ∃ chars c count, c ≠ '/' ∧ dropSlashes text = chars ++ [c] ∧
      text = chars ++ [c] ++ List.replicate count '/' := by
  have whole := List.takeWhile_append_dropWhile (p := (· == '/')) (l := text.reverse)
  have slashes : ∀ c ∈ text.reverse.takeWhile (· == '/'), c = '/' :=
    fun c member => beq_iff_eq.1 (List.all_eq_true.1 List.all_takeWhile c member)
  cases rest : text.reverse.dropWhile (· == '/') with
  | nil =>
      rw [rest, List.append_nil] at whole
      rw [whole] at slashes
      exact .inl (by simpa using slashes)
  | cons c before =>
      have head := List.head?_dropWhile_not (· == '/') text.reverse
      rw [rest] at head whole
      generalize text.reverse.takeWhile (· == '/') = taken at whole slashes
      refine .inr ⟨before.reverse, c, taken.reverse.length, by simpa using head, by
        simp [dropSlashes, rest], ?_⟩
      rw [← List.eq_replicate_of_mem (by simpa using slashes), ← List.reverse_reverse text, ← whole]
      simp

theorem drop_slashes_bare {text : List Char}
    (slashes : ∀ c ∈ text, c = '/') : dropSlashes text = text := by
  have none : text.reverse.dropWhile (· == '/') = [] :=
    List.dropWhile_eq_nil_iff.2 (by simpa using slashes)
  simp [dropSlashes, none]

/-- The directory part of a text is slashes at its start, or it stands before a slash, behind which
is more than slashes. -/
theorem split_parent {text : List Char} (named : (splitLeaf text).2 ≠ [])
    (deep : dropSlashes (splitLeaf text).1 ≠ []) :
    (text.head? = some '/' ∧ ∀ c ∈ dropSlashes (splitLeaf text).1, c = '/') ∨
    ∃ chars c rest, c ≠ '/' ∧ dropSlashes (splitLeaf text).1 = chars ++ [c] ∧
      text = chars ++ [c] ++ '/' :: rest ∧
      ∃ other ∈ rest, other ≠ '/' := by
  obtain ⟨noSlash, ended⟩ := split_leaf_spec text
  have whole := split_leaf_join text
  generalize (splitLeaf text).1 = head at *
  generalize (splitLeaf text).2 = leaf at *
  subst whole
  rcases ended with rfl | ⟨front, rfl⟩
  · exact absurd rfl deep
  · rcases drop_slashes_cases (front ++ ['/'])
      with slashes | ⟨chars, c, count, notSlash, bare, padded⟩
    · rw [drop_slashes_bare slashes]
      refine .inl ⟨?_, slashes⟩
      cases front with
      | nil => rfl
      | cons first rest => simp [slashes first (by simp)]
    · obtain ⟨other, member⟩ := List.exists_mem_of_ne_nil _ named
      cases count with
      | zero =>
          rw [List.replicate_zero, List.append_nil] at padded
          exact absurd (List.append_inj_right' padded rfl) (by simpa using Ne.symm notSlash)
      | succ less =>
          refine .inr ⟨chars, c, List.replicate less '/' ++ leaf, notSlash, bare, ?_, other,
            List.mem_append_right _ member, ?_⟩
          · rw [padded, List.replicate_succ]
            simp
          · exact fun same => noSlash (same ▸ member)

end Path

namespace Tree

variable {tree after : Tree}

theorem parent_text {text : List Char} (deep : (parentAndLeaf text).1 ≠ [])
    (named : (parentAndLeaf text).2 ≠ []) :
    (text.head? = some '/' ∧ ∀ c ∈ (parentAndLeaf text).1, c = '/') ∨
    ∃ chars c rest, c ≠ '/' ∧ (parentAndLeaf text).1 = chars ++ [c] ∧
      text = chars ++ [c] ++ '/' :: rest ∧
      ∃ other ∈ rest, other ≠ '/' := by
  unfold parentAndLeaf at deep named ⊢
  simp only at deep named ⊢
  split
  · rename_i slashed
    rw [if_pos slashed] at deep named
    have whole : (Path.splitLeaf text).1 = text := by
      have parts := Path.split_leaf_join text
      rwa [slashed, List.append_nil] at parts
    rw [whole] at deep named ⊢
    rcases Path.drop_slashes_cases text with slashes | ⟨chars, c, count, notSlash, bare, padded⟩
    · rw [Path.drop_slashes_bare slashes] at named
      exact absurd slashed named
    · rw [bare] at deep named ⊢
      rcases Path.split_parent named deep with
        ⟨rooted, parent⟩ | ⟨front, last, rest, notSlashLast, parent, split, other⟩
      · refine .inl ⟨?_, parent⟩
        rw [padded, List.head?_append, rooted, Option.some_or]
      · refine .inr ⟨front, last, rest ++ List.replicate count '/', notSlashLast, parent, ?_, ?_⟩
        · rw [padded, split]
          simp
        · obtain ⟨other, member, notSlashOther⟩ := other
          exact ⟨other, List.mem_append_left _ member, notSlashOther⟩
  · rename_i given
    rw [if_neg given] at deep named
    exact Path.split_parent named deep

theorem is_directory_of_followed (sound : tree.Sound) {path last : String} {front : List String}
    {place : Place} (reached : tree.reaches path) (parts : Path.pieces path = front ++ [last])
    (given : last ≠ "") (followed : tree.follow (tree.start path) (front ++ [last]) = .ok place) :
    tree.isDirectory path := by
  have there := node_of_follow sound (reaches_iff.1 reached).2 followed
  rw [follow_append] at followed
  cases before : tree.follow (tree.start path) front with
  | error dead =>
      rw [before] at followed
      cases followed
  | ok directory =>
      rw [before] at followed
      have entered : tree.enter directory last = .ok place := by
        simp only [follow] at followed
        cases entered : tree.enter directory last with
        | error dead =>
            rw [entered] at followed
            cases followed
        | ok next =>
            rw [entered] at followed
            exact congrArg _ (Except.ok.inj followed)
      rw [is_directory_iff, locate_pieces reached parts given (by simp), before]
      simp only [Except.bind, entered]
      split
      · exact ⟨_, rfl, there⟩
      · rename_i plain
        refine ⟨_, rfl, ?_⟩
        rw [not_or] at plain
        simp only [enter, given, plain, or_self, if_false] at entered
        cases found : tree.node? (directory ++ [last]) with
        | none => simp [found] at entered
        | some node => cases node <;> simp_all

/-- Where a path leads to a directory there is one at its directory part. -/
theorem parent_exists (sound : tree.Sound) {path : String} (there : tree.isDirectory path)
    (deep : (parentAndLeaf path.toList).1 ≠ []) (named : (parentAndLeaf path.toList).2 ≠ []) :
    tree.isDirectory (String.ofList (parentAndLeaf path.toList).1) := by
  obtain ⟨target, found, -⟩ := is_directory_iff.1 there
  have reached := (reached_of_located found).1
  rcases parent_text deep named with
    ⟨rooted, slashes⟩ | ⟨chars, c, rest, notSlash, parent, chars_path, other, inRest, notSlashOther⟩
  · -- The directory part is the root of the file system.
    obtain ⟨first, others, cut⟩ := List.exists_cons_of_ne_nil deep
    have same := List.eq_replicate_of_mem slashes
    generalize (parentAndLeaf path.toList).1 = front at *
    have given : String.ofList front ≠ "" := by
      rw [← String.toList_inj.ne, String.toList_ofList]
      exact deep
    have alike : Path.isAbsolute (String.ofList front) = Path.isAbsolute path := by
      rw [Path.is_absolute_iff.2 rooted, Path.is_absolute_iff, String.toList_ofList, cut,
        slashes first (by simp [cut])]
      rfl
    have reachedFront : tree.reaches (String.ofList front) := by rwa [reaches_alike alike]
    have blank := Path.pieces_slashes front.length
    rw [← same] at blank
    exact is_directory_iff.2
      ⟨_, locate_top reachedFront given blank, (reaches_iff.1 reachedFront).2⟩
  · rw [parent]
    generalize isFront : String.ofList (chars ++ [c]) = front
    have frontChars : front.toList = chars ++ [c] := by rw [← isFront, String.toList_ofList]
    have whole : path = front ++ ("/" ++ String.ofList rest) := by
      rw [← String.toList_inj, chars_path]
      simp [frontChars]
    have alike : Path.isAbsolute path = Path.isAbsolute front := by
      rw [whole, Path.is_absolute_append]
      rintro rfl
      simp at frontChars
    have reachedFront : tree.reaches front := by rwa [← reaches_alike alike]
    obtain ⟨names, name, frontParts, some⟩ := Path.last_piece frontChars notSlash
    obtain ⟨piece, inPieces, solid⟩ :=
      Path.some_piece (String.ofList rest) (by simpa using inRest) notSlashOther
    have pieces : Path.pieces path = Path.pieces front ++ Path.pieces (String.ofList rest) := by
      rw [whole, ← String.append_assoc, Path.pieces_append_slash]
    -- The last piece that is not empty stands behind the directory part, so that part is followed
    -- on the way to it.
    rcases pieces_cases path with blank | ⟨before, last, blanks, parts, given, blank⟩
    · exact absurd (blank piece (pieces ▸ List.mem_append_right _ inPieces)) solid
    obtain ⟨between, split⟩ : Path.pieces front <+: before := by
      rcases List.append_eq_append_iff.1 (pieces.symm.trans parts) with
        ⟨between, longer, -⟩ | ⟨between, shorter, tail⟩
      · exact ⟨between, longer.symm⟩
      · cases between with
        | nil => exact ⟨[], by rw [shorter, List.append_nil, List.append_nil]⟩
        | cons first others =>
            rw [List.cons_append, List.cons.injEq] at tail
            exact absurd (blank piece (tail.2 ▸ List.mem_append_right _ inPieces)) solid
    rw [locate_pieces reached parts given blank, ← split, follow_append, start_alike alike] at found
    cases followed : tree.follow (tree.start front) (Path.pieces front) with
    | error dead =>
        rw [followed] at found
        cases found
    | ok place =>
        exact is_directory_of_followed sound reachedFront frontParts some (frontParts ▸ followed)

theorem make_directories_there (sound : tree.Sound) {path : String}
    (there : tree.isDirectory path) :
    tree.makeDirectories path.toList = (tree, none) := by
  obtain ⟨target, found, isDirectory⟩ := is_directory_iff.1 there
  have made : makeDirectories.makeLast path.toList tree = (tree, none) := by
    simp only [makeDirectories.makeLast, String.ofList_toList, makeDirectory, found, isDirectory,
      there, if_true]
  rw [makeDirectories, dif_neg]
  · exact made
  · rintro ⟨deep, named, absent⟩
    have above := exists_of_is_directory (parent_exists sound there deep named)
    simp [above] at absent

/-- All of one tree is in another one, which is sound. -/
structure Grown (before after : Tree) : Prop where
  sound : after.Sound
  whole : after.whole = before.whole
  node : ∀ place node, before.node? place = some node → after.node? place = some node

theorem Sound.grown (sound : tree.Sound) : Grown tree tree := ⟨sound, rfl, fun _ _ there => there⟩

theorem make_directory_grown (sound : tree.Sound) {path : String}
    (made : tree.makeDirectory path = .ok after) :
    Grown tree after := by
  unfold makeDirectory at made
  split at made
  · cases made
  · rename_i target found
    split at made
    · cases made
    · rename_i free
      obtain rfl := Except.ok.inj made
      obtain ⟨named, inside⟩ := sound.free_located found free
      refine ⟨sound.put named inside (.inl rfl), rfl, fun place node there => ?_⟩
      rw [node_put named, if_neg, there]
      rintro rfl
      rw [free] at there
      cases there

theorem Grown.make_last (grown : Grown tree after) (text : List Char) :
    Grown tree (makeDirectories.makeLast text after).1 := by
  simp only [makeDirectories.makeLast]
  split
  · rename_i made
    have further := make_directory_grown grown.sound made
    exact ⟨further.sound, further.whole.trans grown.whole, fun place node there =>
      further.node place node (grown.node place node there)⟩
  · split <;> exact grown

theorem make_directories_grown (sound : tree.Sound) (text : List Char) :
    Grown tree (tree.makeDirectories text).1 := by
  fun_induction makeDirectories tree text with
  | case1 text _ _ after made _ ih | case3 text _ _ after _ made _ ih
  | case5 text _ _ after failure _ made ih =>
      rwa [made] at ih
  | case2 text _ _ after made _ ih | case4 text _ _ after _ made _ ih =>
      rw [made] at ih
      exact ih.make_last text
  | case6 text => exact sound.grown.make_last text

section Names

variable {front names : List String} {last : String}

theorem parent_and_leaf_to_place (whole : Bool)
    (proper : ∀ name ∈ front ++ [last], Path.IsProper name) :
    parentAndLeaf (Path.toPlace whole (front ++ [last])).toList =
      ((Path.toPlace whole front).toList, last.toList) := by
  obtain ⟨leaf, above⟩ := Path.split_leaf_to_place whole proper
  have given : last ≠ "" := (proper last (by simp)).1
  simp only [parentAndLeaf, leaf, String.toList_eq_nil_iff, given, if_false, above]

theorem locate_names_cases (sound : tree.Sound)
    (proper : ∀ name ∈ front ++ [last], Path.IsProper name) :
    (tree.node? front = some .directory ∧
      tree.locate (Path.toPlace tree.whole (front ++ [last])) = .ok { place := front ++ [last] }) ∨
    tree.node? front ≠ some .directory ∧ tree.node? (front ++ [last]) = none ∧
      ∃ dead, tree.locate (Path.toPlace tree.whole (front ++ [last])) = .error dead := by
  by_cases inside : tree.node? front = some .directory
  · exact .inl ⟨inside, locate_names proper fun other => sound.prefixes inside⟩
  · refine .inr ⟨inside, ?_, locate_names_dead sound proper inside⟩
    by_contra there
    exact inside (sound.parent there)

theorem exists_names (sound : tree.Sound) (proper : ∀ name ∈ front ++ [last], Path.IsProper name) :
    tree.exists? (Path.toPlace tree.whole (front ++ [last])) =
      (tree.node? (front ++ [last])).isSome := by
  rcases locate_names_cases sound proper with ⟨-, found⟩ | ⟨-, absent, dead, lost⟩
  · unfold exists? stat
    cases there : tree.node? (front ++ [last]) with
    | none => simp [found, there]
    | some node => cases node <;> simp [found, there]
  · simp [exists?, stat, lost, absent]

/-- What making directories leaves: those on the way to a place and at it. -/
structure Made (names : Place) (before after : Tree) : Prop where
  sound : after.Sound
  whole : after.whole = before.whole
  node : ∀ place, after.node? place = if place <+: names then some .directory
    else before.node? place

theorem made_there (sound : tree.Sound)
    (there : tree.node? names = some .directory) : Made names tree tree := by
  refine ⟨sound, rfl, fun place => ?_⟩
  split
  · rename_i below
    exact sound.prefixes there below
  · rfl

theorem Made.put (made : Made front tree after) :
    Made (front ++ [last]) tree (after.put (front ++ [last]) .directory) := by
  have inside : after.node? front = some .directory := by rw [made.node, if_pos List.prefix_rfl]
  refine ⟨made.sound.put (by simp) (by rw [List.dropLast_concat, inside]) (.inl rfl), made.whole,
    fun place => ?_⟩
  rw [node_put (by simp), made.node]
  by_cases same : place = front ++ [last]
  · rw [if_pos same, if_pos (same ▸ List.prefix_rfl)]
  · have iff : place <+: front ++ [last] ↔ place <+: front := by
      rw [List.prefix_concat_iff]
      exact or_iff_right same
    simp only [if_neg same, iff]

theorem make_last_names (sound : tree.Sound)
    (proper : ∀ name ∈ front ++ [last], Path.IsProper name) :
    (tree.node? front = some .directory ∧
      (∀ content, tree.node? (front ++ [last]) ≠ some (.file content)) ∧
      ∃ made, makeDirectories.makeLast (Path.toPlace tree.whole (front ++ [last])).toList tree =
        (made, none) ∧
        Made (front ++ [last]) tree made) ∨
    (tree.node? (front ++ [last]) ≠ some .directory ∧ (tree.node? front = some .directory →
      ∃ content, tree.node? (front ++ [last]) = some (.file content)) ∧
      ∃ failure, makeDirectories.makeLast (Path.toPlace tree.whole (front ++ [last])).toList tree =
        (tree, some failure)) := by
  have isDirectory : tree.isDirectory (Path.toPlace tree.whole (front ++ [last])) ↔ _ :=
    is_directory_iff
  rcases locate_names_cases sound proper with ⟨inside, found⟩ | ⟨outside, absent, dead, lost⟩
  · cases there : tree.node? (front ++ [last]) with
    | none =>
        refine .inl ⟨inside, by simp, _, ?_, (made_there sound inside).put⟩
        simp [makeDirectories.makeLast, makeDirectory, found, there]
    | some node =>
        cases node with
        | directory =>
            refine .inl ⟨inside, by simp, tree, ?_, made_there sound there⟩
            simp [makeDirectories.makeLast, makeDirectory, found, there, isDirectory]
        | file content =>
            refine .inr ⟨by simp, fun _ => ⟨content, rfl⟩,
              .pathExists (Path.toPlace tree.whole (front ++ [last])), ?_⟩
            simp [makeDirectories.makeLast, makeDirectory, found, there, isDirectory]
  · refine .inr ⟨by simp [absent], fun inside => absurd inside outside,
      dead.failure (Path.toPlace tree.whole (front ++ [last])), ?_⟩
    simp [makeDirectories.makeLast, makeDirectory, lost, isDirectory]

/-- What comes of making the directories along names: all of them, unless a file is in the place of
one. -/
inductive Making (names : Place) (before : Tree) : Tree × Option Failure → Prop where
  | made {after : Tree} (free : ∀ place, place <+: names →
      ∀ content, before.node? place ≠ some (.file content))
      (made : Made names before after) : Making names before (after, none)
  | blocked {after : Tree} {failure : Failure} (sound : after.Sound)
      (whole : after.whole = before.whole)
      (file : ∃ place content, place <+: names ∧ before.node? place = some (.file content))
      (lost : after.node? names ≠ some .directory) : Making names before (after, some failure)

/-- The directories above the last one are made first if nothing stands at the place above it. -/
theorem deep_iff (sound : tree.Sound) (proper : ∀ name ∈ front ++ [last], Path.IsProper name) :
    ((Path.toPlace tree.whole front).toList ≠ [] ∧ last.toList ≠ [] ∧
      !tree.exists? (Path.toPlace tree.whole front)) ↔
      tree.node? front = none := by
  have given : last.toList ≠ [] :=
    fun empty => (proper last (by simp)).1 (String.toList_eq_nil_iff.1 empty)
  rcases List.eq_nil_or_concat' front with rfl | ⟨before, name, rfl⟩
  · have there (named : Path.toPlace tree.whole [] ≠ "") :
        tree.exists? (Path.toPlace tree.whole []) := by
      have blank : ∀ piece ∈ Path.pieces (Path.toPlace tree.whole []), piece = "" := by
        cases tree.whole <;> decide
      refine exists_of_is_directory (is_directory_iff.2
        ⟨_, locate_top (reaches_to_place (by simp)) named blank, ?_⟩)
      rw [start_to_place, node_root]
    simpa [node_root, String.toList_eq_nil_iff, imp.swap] using fun _ => there
  · have properFront : ∀ other ∈ before ++ [name], Path.IsProper other := fun other member =>
      proper other (List.mem_append_left _ member)
    have named : (Path.toPlace tree.whole (before ++ [name])).toList ≠ [] := by
      obtain ⟨chars, c, ending, -⟩ := Path.of_names_ends properFront (by simp)
      cases tree.whole <;> simp [Path.toPlace, ending]
    rw [and_iff_right named, and_iff_right given, exists_names sound properFront]
    simp

theorem making_last (proper : ∀ name ∈ front ++ [last], Path.IsProper name)
    (free : ∀ place, place <+: front → ∀ content, tree.node? place ≠ some (.file content))
    (made : Made front tree after) :
    Making (front ++ [last]) tree
      (makeDirectories.makeLast (Path.toPlace tree.whole (front ++ [last])).toList after) := by
  have inside : after.node? front = some .directory := by rw [made.node, if_pos List.prefix_rfl]
  have same : after.node? (front ++ [last]) = tree.node? (front ++ [last]) := by
    rw [made.node, if_neg]
    exact fun below => absurd below.length_le (by simp)
  rcases make_last_names made.sound proper
    with ⟨-, freeLast, final, ended, whole⟩ | ⟨lost, file, failure, ended⟩
  · rw [← made.whole, ended]
    refine .made (fun place below => ?_)
      ⟨whole.sound, whole.whole.trans made.whole, fun place => ?_⟩
    · rcases List.prefix_concat_iff.1 below with last | above
      · rw [last, ← same]
        exact freeLast
      · exact free place above
    · rw [whole.node, made.node]
      split
      · rfl
      · rename_i outside
        rw [if_neg fun above => outside (above.trans (List.prefix_append _ _))]
  · rw [← made.whole, ended]
    obtain ⟨content, there⟩ := file inside
    exact .blocked made.sound made.whole ⟨_, content, List.prefix_rfl, same ▸ there⟩ lost

theorem blocked_last (sound : after.Sound) (whole : after.whole = tree.whole)
    (proper : ∀ name ∈ front ++ [last], Path.IsProper name)
    (file : ∃ place content, place <+: front ∧ tree.node? place = some (.file content))
    (lost : after.node? front ≠ some .directory) :
    (∀ failure : Failure, Making (front ++ [last]) tree (after, some failure)) ∧
      Making (front ++ [last]) tree
        (makeDirectories.makeLast (Path.toPlace tree.whole (front ++ [last])).toList after) := by
  have further : ∃ place content, place <+: front ++ [last] ∧
      tree.node? place = some (.file content) := by
    obtain ⟨place, content, below, there⟩ := file
    exact ⟨place, content, below.trans (List.prefix_append _ _), there⟩
  have barred : after.node? (front ++ [last]) ≠ some .directory :=
    fun there => lost (sound.parent (by rw [there]; exact Option.some_ne_none _))
  refine ⟨fun failure => .blocked sound whole further barred, ?_⟩
  rcases make_last_names sound proper with ⟨inside, -⟩ | ⟨-, -, failure, ended⟩
  · exact absurd inside lost
  · rw [← whole, ended]
    exact .blocked sound whole further barred

theorem make_directories_names (sound : tree.Sound) (proper : ∀ name ∈ names, Path.IsProper name)
    (named : names ≠ []) :
    Making names tree (tree.makeDirectories (Path.toPlace tree.whole names).toList) := by
  induction names using List.reverseRecOn with
  | nil => exact absurd rfl named
  | append_singleton front last ih =>
      obtain ⟨given, notDot, -, -⟩ := proper last (by simp)
      have properFront : ∀ name ∈ front, Path.IsProper name :=
        fun name member => proper name (by simp [member])
      have dotless : last.toList ≠ ['.'] := by
        intro dot
        exact notDot (String.toList_inj.1 dot)
      rw [makeDirectories]
      simp only [parent_and_leaf_to_place tree.whole proper, String.ofList_toList, dotless,
        if_false]
      cases there : tree.node? front with
      | none =>
          rw [dif_pos ((deep_iff sound proper).2 there)]
          have top : front ≠ [] := by
            rintro rfl
            cases there
          have making := ih properFront top
          generalize tree.makeDirectories (Path.toPlace tree.whole front).toList = before at making
          cases making with
          | made free made => exact making_last proper free made
          | blocked soundAfter whole file lost =>
              obtain ⟨failed, last⟩ := blocked_last soundAfter whole proper file lost
              -- That the directory exists already is passed over, and the last one tried.
              split
              · rename_i ended
                cases ended
              · rename_i ended
                obtain ⟨rfl, -⟩ := Prod.mk.inj ended
                exact last
              · rename_i ended
                obtain ⟨rfl, -⟩ := Prod.mk.inj ended
                exact failed _
      | some node =>
          rw [dif_neg fun deep => by simp [(deep_iff sound proper).1 deep] at there]
          cases node with
          | directory =>
              exact making_last proper (fun place below => by simp [sound.prefixes there below])
                (made_there sound there)
          | file content =>
              exact (blocked_last sound rfl proper ⟨front, content, List.prefix_rfl, there⟩
                (by simp [there])).2

end Names

end Tree

end HeaderDocs
