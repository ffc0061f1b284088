import HeaderDocs.Proofs.Files.Directories
import HeaderDocs.Proofs.Site.Configuring
import HeaderDocs.Proofs.Site.Labels
import HeaderDocs.Proofs.Site.Partition

/-!
Pages that are written for a build and deleted after it. What stands where while they are deleted is
told place by place, from the tree before: deleting climbs upwards from each page and does not know
what was there. So all is as it was exactly if no page was there before and no directory on the way
to one was empty.
-/

namespace HeaderDocs.Site

set_option autoImplicit false

variable {tree after : Tree} {documents place other page : Place} {pages files targets : List Place}

def Above (place other : Place) : Prop :=
  place <+: other ∧ place ≠ other

instance (place other : Place) : Decidable (Above place other) :=
  inferInstanceAs (Decidable (_ ∧ _))

def OnTheWay (pages : List Place) (place : Place) : Prop :=
  ∃ page ∈ pages, Above place page

instance (pages : List Place) (place : Place) : Decidable (OnTheWay pages place) :=
  inferInstanceAs (Decidable (∃ page ∈ pages, _))

theorem above_append {names : List String} (named : names ≠ []) : Above place (place ++ names) :=
  ⟨List.prefix_append _ _, fun same => named (List.self_eq_append_right.1 same)⟩

theorem Above.extended (above : Above place other) (below : other <+: page) : Above place page := by
  refine ⟨above.1.trans below, ?_⟩
  rintro rfl
  exact above.2 (above.1.eq_of_length_le below.length_le)

theorem Above.shortened (below : place <+: other)
    (above : Above other page) : Above place page := by
  refine ⟨below.trans above.1, ?_⟩
  rintro rfl
  exact above.2 (above.1.eq_of_length_le below.length_le)

theorem above_iff : Above place other ↔ place <+: other.dropLast ∧ other ≠ [] := by
  rcases List.eq_nil_or_concat' other with rfl | ⟨front, last, rfl⟩
  · simp [Above]
  · rw [Above, List.prefix_concat_iff, List.dropLast_concat]
    constructor
    · rintro ⟨same | below, differs⟩
      · exact absurd same differs
      · exact ⟨below, by simp⟩
    · rintro ⟨below, -⟩
      refine ⟨.inr below, ?_⟩
      rintro rfl
      exact absurd below.length_le (by simp)

theorem OnTheWay.shortened (below : place <+: other)
    (onWay : OnTheWay pages other) : OnTheWay pages place := by
  obtain ⟨page, member, above⟩ := onWay
  exact ⟨page, member, above.shortened below⟩

section Writing

/-- Empty files stand at some pages, and directories above them. -/
def Written (pages : List Place) (before after : Tree) : Prop :=
  ∀ place, after.node? place =
    if place ∈ pages then some (.file (.text ""))
    else if OnTheWay pages place then some .directory
    else before.node? place

theorem written_single : Written [page] tree after ↔ ∀ place, after.node? place =
    if place = page then some (.file (.text "")) else if Above place page then some .directory
      else tree.node? place := by
  simp only [Written, OnTheWay, List.mem_singleton, exists_eq_left]

/-- What writing an empty file for a page comes to: the file and the directories above it, unless a
directory is in the place of the file, or a file in that of a directory. -/
inductive Writing (page : Place) (before : Tree) : Tree × Option Failure → Prop where
  | written {after : Tree} (sound : after.Sound) (whole : after.whole = before.whole)
      (free : ∀ place, Above place page → ∀ content, before.node? place ≠ some (.file content))
      (fileable : before.node? page ≠ some .directory) (written : Written [page] before after) :
      Writing page before (after, none)
  | blocked {after : Tree} {failure : Failure}
      (taken : before.node? page = some .directory ∨
        ∃ place content, Above place page ∧ before.node? place = some (.file content)) :
      Writing page before (after, some failure)

theorem write_page_names (sound : tree.Sound) {front : List String} {last base uri : String}
    (deep : front ≠ []) (proper : ∀ name ∈ front ++ [last], Path.IsProper name)
    (joined : Path.join base uri = Path.toPlace tree.whole (front ++ [last])) :
    Writing (front ++ [last]) tree (writePage tree base uri) := by
  have properFront : ∀ name ∈ front, Path.IsProper name :=
    fun name member => proper name (List.mem_append_left _ member)
  have making := Tree.make_directories_names sound properFront deep
  have above (place : Place) : Above place (front ++ [last]) ↔ place <+: front := by
    rw [above_iff, List.dropLast_concat]
    exact and_iff_left (by simp)
  simp only [writePage, joined, Path.parent_to_place tree.whole proper]
  generalize tree.makeDirectories (Path.toPlace tree.whole front).toList = made at making
  cases making with
  | @made after free made =>
      have found : after.locate (Path.toPlace tree.whole (front ++ [last])) =
          .ok { place := front ++ [last] } := by
        rw [← made.whole]
        exact Tree.locate_names proper fun other below => by rw [made.node, if_pos below]
      have same : after.node? (front ++ [last]) = tree.node? (front ++ [last]) := by
        rw [made.node, if_neg fun below => absurd below.length_le (by simp)]
      by_cases taken : tree.node? (front ++ [last]) = some .directory
      · simp only [Tree.writeFile, found, same, taken, Bool.or_self, beq_self_eq_true, Bool.or_true,
          if_true]
        exact .blocked (.inl taken)
      · have untaken : (tree.node? (front ++ [last]) == some Node.directory) = false :=
          beq_eq_false_iff_ne.2 taken
        simp only [Tree.writeFile, found, same, untaken, Bool.or_self, Bool.false_eq_true, if_false]
        have inside : after.node? front = some .directory := by
          rw [made.node, if_pos List.prefix_rfl]
        have soundAfter : (after.put (front ++ [last]) (.file (.text ""))).Sound :=
          made.sound.put (by simp) (by rw [List.dropLast_concat, inside]) (.inr (same ▸ taken))
        refine .written soundAfter made.whole
          (fun place strict => free place ((above place).1 strict)) taken
          (written_single.2 fun place => ?_)
        rw [Tree.node_put (by simp), made.node]
        simp only [above place]
  | @blocked after failure sound whole file lost =>
      obtain ⟨place, content, below, there⟩ := file
      exact .blocked (.inr ⟨place, content, (above place).2 below, there⟩)

/-- Empty files can be written for pages: no directory is in the place of one, and no file or other
page above it. -/
def Writable (tree : Tree) (pages : List Place) : Prop :=
  ∀ page ∈ pages, tree.node? page ≠ some .directory ∧
    ∀ place, Above place page → place ∉ pages ∧ ∀ content, tree.node? place ≠ some (.file content)

theorem writable_iff : Writable tree pages ↔ ∀ page ∈ pages, tree.node? page ≠ some .directory ∧
    ∀ place ∈ page.inits, place ≠ page →
      place ∉ pages ∧ (tree.node? place = none ∨ tree.node? place = some .directory) := by
  have fileless (place : Place) : (∀ content, tree.node? place ≠ some (.file content)) ↔
      tree.node? place = none ∨ tree.node? place = some .directory := by
    cases tree.node? place with
    | none => simp
    | some node => cases node <;> simp
  simp only [Writable, Above, List.mem_inits, and_imp, fileless]

instance (tree : Tree) (pages : List Place) : Decidable (Writable tree pages) :=
  decidable_of_iff _ writable_iff.symm

section Pages

variable (first : Written [page] tree after)

include first

theorem writable_cons (fileable : tree.node? page ≠ some .directory)
    (free : ∀ place, Above place page → ∀ content, tree.node? place ≠ some (.file content)) :
    Writable tree (page :: pages) ↔ Writable after pages := by
  have node := written_single.1 first
  have atPage : after.node? page = some (.file (.text "")) := by rw [node, if_pos rfl]
  have atAbove (place : Place) (above : Above place page) :
      after.node? place = some .directory := by
    rw [node, if_neg above.2, if_pos above]
  have elsewhere (place : Place) (apart : place ≠ page) (aside : ¬Above place page) :
      after.node? place = tree.node? place := by
    rw [node, if_neg apart, if_neg aside]
  constructor
  · intro writable later member
    obtain ⟨notDirectory, clear⟩ := writable later (List.mem_cons_of_mem _ member)
    refine ⟨?_, fun place above =>
      ⟨fun listed => (clear place above).1 (List.mem_cons_of_mem _ listed), ?_⟩⟩
    · by_cases same : later = page
      · simp [same, atPage]
      · have aside : ¬Above later page :=
          fun above => ((writable page (by simp)).2 later above).1 (List.mem_cons_of_mem _ member)
        rwa [elsewhere later same aside]
    · intro content there
      by_cases inner : Above place page
      · simp [atAbove place inner] at there
      · rw [elsewhere place (fun same => (clear place above).1 (by simp [same])) inner] at there
        exact (clear place above).2 content there
  · intro writable later member
    have apart (place : Place) (listed : place ∈ pages) : ¬Above place page :=
      fun above => (writable place listed).1 (atAbove place above)
    rcases List.mem_cons.1 member with rfl | listed
    · refine ⟨fileable, fun place above => ⟨fun member => ?_, free place above⟩⟩
      exact (List.mem_cons.1 member).elim above.2 fun listed => apart place listed above
    · obtain ⟨notDirectory, clear⟩ := writable later listed
      refine ⟨?_, fun place above => ?_⟩
      · by_cases same : later = page
        · rw [same]
          exact fileable
        · rwa [← elsewhere later same (apart later listed)]
      · have other : place ≠ page := by
          rintro rfl
          exact (clear place above).2 _ atPage
        refine ⟨fun member => (List.mem_cons.1 member).elim other (clear place above).1,
          fun content there => ?_⟩
        by_cases inner : Above place page
        · exact free place inner content there
        · rw [← elsewhere place other inner] at there
          exact (clear place above).2 content there

theorem written_cons {final : Tree} (writable : Writable after pages)
    (written : Written pages after final) :
    Written (page :: pages) tree final := by
  intro place
  have onWay : OnTheWay (page :: pages) place ↔ Above place page ∨ OnTheWay pages place := by
    simp [OnTheWay]
  have node := written_single.1 first
  rw [written place, node place]
  by_cases same : place = page
  · have apart : ¬OnTheWay pages place := by
      rintro ⟨later, listed, above⟩
      refine (writable later listed).2 place above |>.2 (.text "") ?_
      rw [node, if_pos same]
    simp [same, same ▸ apart]
  · by_cases above : Above place page
    · simp [same, onWay, above]
    · simp [same, onWay, above]

end Pages

def pagePlace (documents : Place) (uri : String) : Place :=
  documents ++ Path.pieces uri

theorem pieces_ne_nil (uri : String) : Path.pieces uri ≠ [] :=
  fun none => List.splitOn_ne_nil '/' uri.toList (List.map_eq_nil_iff.1 none)

theorem join_page (whole : Bool) (proper : ∀ name ∈ documents, Path.IsProper name)
    (named : documents ≠ []) {uri : String}
    (plain : ∀ piece ∈ Path.pieces uri, Path.IsProper piece) :
    Path.join (Path.toPlace whole documents) uri = Path.toPlace whole (pagePlace documents uri) :=
  Path.join_to_place whole proper named (Path.normal_of_proper plain).1

/-- Announcing pages by files succeeds if they can be written, and then all of them are. -/
theorem announce_written {config sites : Value} (proper : ∀ name ∈ documents, Path.IsProper name)
    (named : documents ≠ [])
    (published : config.field? "site_dir" = some sites) {uris : List String}
    (plain : ∀ uri ∈ uris, ∀ piece ∈ Path.pieces uri, Path.IsProper piece) {announced : Announced}
    (unfailed : announced.failure = none) (sound : announced.tree.Sound)
    (documented : config.field? "docs_dir" =
      some (.text (Path.toPlace announced.tree.whole documents))) :
    let result := announceWritten config announced uris
    let pages := uris.map (pagePlace documents)
    (result.failure = none ↔ Writable announced.tree pages) ∧ (result.failure = none →
      result.temporary = announced.temporary ++ pages.map (Path.toPlace announced.tree.whole) ∧
        result.tree.whole = announced.tree.whole ∧ Written pages announced.tree result.tree) := by
  induction uris generalizing announced with
  | nil =>
      simp only [announceWritten, unfailed, List.map_nil, List.append_nil, true_iff, true_and]
      refine ⟨fun page member => absurd member List.not_mem_nil, fun _ place => ?_⟩
      simp [OnTheWay]
  | cons uri uris ih =>
      have plainPage := plain uri (by simp)
      obtain ⟨front, last, parts⟩ :=
        (List.eq_nil_or_concat' (Path.pieces uri)).resolve_left (pieces_ne_nil uri)
      have split : pagePlace documents uri = documents ++ front ++ [last] := by
        rw [pagePlace, parts, List.append_assoc]
      have properPage : ∀ name ∈ documents ++ front ++ [last], Path.IsProper name := by
        intro name member
        rw [← split, pagePlace] at member
        exact (List.mem_append.1 member).elim (proper name) (plainPage name)
      have writing :=
        write_page_names sound (by simp [named]) properPage
          (split ▸ join_page announced.tree.whole proper named plainPage)
      rw [← split] at writing
      simp only [announceWritten, documented, published]
      generalize writePage announced.tree (Path.toPlace announced.tree.whole documents) uri =
        wrote at writing
      cases writing with
      | @written after soundAfter whole free fileable first =>
          obtain ⟨succeeds, rest⟩ :=
            @ih (fun later member => plain later (List.mem_cons_of_mem _ member))
              ⟨announced.files ++ [uri], announced.temporary ++
                [Path.join (Path.toPlace announced.tree.whole documents) uri], after, none⟩ rfl
              soundAfter (by rw [documented, whole])
          refine ⟨succeeds.trans (writable_cons first fileable free).symm, fun ended => ?_⟩
          obtain ⟨temporary, same, written⟩ := rest ended
          refine ⟨?_, same.trans whole, written_cons first (succeeds.1 ended) written⟩
          rw [temporary, List.append_assoc, whole, join_page _ proper named plainPage]
          rfl
      | @blocked after failure taken =>
          have unwritable : ¬Writable announced.tree ((uri :: uris).map (pagePlace documents)) := by
            intro writable
            obtain ⟨notDirectory, clear⟩ := writable (pagePlace documents uri) (by simp)
            rcases taken with there | ⟨place, content, above, there⟩
            · exact notDirectory there
            · exact (clear place above).2 content there
          simpa using unwritable

end Writing

section Deleting

/-- Something at or below a place is neither a page nor on the way to one. -/
def Kept (tree : Tree) (pages : List Place) (place : Place) : Prop :=
  ∃ other ∈ tree.nodes.keys, place <+: other ∧ other ∉ pages ∧ ¬OnTheWay pages other

instance (tree : Tree) (pages : List Place) (place : Place) : Decidable (Kept tree pages place) :=
  inferInstanceAs (Decidable (∃ other ∈ tree.nodes.keys, _))

/-- A directory on the way to pages is not to be deleted yet: it is kept, or above some target. -/
def Stays (tree : Tree) (pages targets : List Place) (place : Place) : Prop :=
  Kept tree pages place ∨ ∃ target ∈ targets, place <+: target

instance (tree : Tree) (pages targets : List Place) (place : Place) :
    Decidable (Stays tree pages targets place) :=
  inferInstanceAs (Decidable (_ ∨ ∃ target ∈ targets, _))

/-- What stands at a place while the files of some pages are still there, and the directories above
some targets. -/
def remains (tree : Tree) (documents : Place) (pages files targets : List Place)
    (place : Place) : Option Node :=
  if place ∈ files then some (.file (.text ""))
  else if place ∈ pages then none
  else if Above documents place ∧ OnTheWay pages place then
    if Stays tree pages targets place then some .directory else none
  else tree.node? place

theorem Stays.shortened (stays : Stays tree pages targets other) (below : place <+: other) :
    Stays tree pages targets place := by
  rcases stays with ⟨kept, member, under, others⟩ | ⟨target, member, under⟩
  · exact .inl ⟨kept, member, below.trans under, others⟩
  · exact .inr ⟨target, member, below.trans under⟩

theorem remains_congr {fewer nearer : List Place} (sameFiles : place ∈ files ↔ place ∈ fewer)
    (sameStays : Above documents place →
      (Stays tree pages targets place ↔ Stays tree pages nearer place)) :
    remains tree documents pages files targets place =
      remains tree documents pages fewer nearer place := by
  unfold remains
  by_cases inner : Above documents place
  · simp only [sameFiles, sameStays inner]
  · simp only [sameFiles, inner, false_and, if_false]

structure Layout (tree : Tree) (documents : Place) (pages : List Place) : Prop where
  sound : tree.Sound
  there : tree.node? documents = some .directory
  below : ∀ page ∈ pages, Above documents page
  apart : ∀ page ∈ pages, ¬OnTheWay pages page
  proper : ∀ page ∈ pages, ∀ name ∈ page, Path.IsProper name

variable (layout : Layout tree documents pages)

include layout

theorem Layout.directory_over (onWay : OnTheWay pages place) (inner : ¬Above documents place) :
    tree.node? place = some .directory := by
  obtain ⟨page, member, above⟩ := onWay
  refine layout.sound.prefixes layout.there ?_
  rcases List.prefix_or_prefix_of_prefix above.1 (layout.below page member).1 with shorter | longer
  · exact shorter
  · by_cases same : documents = place
    · exact same ▸ List.prefix_rfl
    · exact absurd ⟨longer, same⟩ inner

theorem remains_written (written : Written pages tree after) :
    after.node? place = remains tree documents pages pages pages place := by
  rw [written, remains]
  by_cases listed : place ∈ pages
  · simp only [listed, if_true]
  · by_cases onWay : OnTheWay pages place
    · have stays : Stays tree pages pages place := by
        obtain ⟨page, member, above⟩ := onWay
        exact .inr ⟨page, member, above.1⟩
      by_cases inner : Above documents place
      · simp only [listed, onWay, inner, stays, and_self, if_false, if_true]
      · simp only [listed, onWay, inner, false_and, if_false, if_true,
          layout.directory_over onWay inner]
    · simp only [listed, onWay, and_false, if_false]

section Standing

variable (within : files ⊆ pages)
  (standing : ∀ place, after.node? place = remains tree documents pages files targets place)

include within standing

theorem directory_on_the_way (onWay : OnTheWay pages place)
    (stays : Stays tree pages targets place) :
    after.node? place = some .directory := by
  have unlisted : place ∉ pages := fun member => layout.apart place member onWay
  rw [standing, remains, if_neg fun member => unlisted (within member), if_neg unlisted]
  by_cases inner : Above documents place
  · rw [if_pos ⟨inner, onWay⟩, if_pos stays]
  · rw [if_neg fun both => inner both.1, layout.directory_over onWay inner]

theorem locate_target (whole : after.whole = tree.whole) {front : Place} {last : String}
    (proper : ∀ name ∈ front ++ [last], Path.IsProper name) (onWay : OnTheWay pages front)
    (stays : Stays tree pages targets front) :
    after.locate (Path.toPlace tree.whole (front ++ [last])) =
      .ok { place := front ++ [last] } := by
  rw [← whole]
  exact Tree.locate_names proper fun _ below =>
    directory_on_the_way layout within standing (onWay.shortened below) (stays.shortened below)

end Standing

omit layout in
theorem whole_climb (tree : Tree) (stop : Value) (directory : String) :
    (climb tree stop directory).whole = tree.whole := by
  fun_induction climb tree stop directory with
  | case1 => rfl
  | case2 => rfl
  | case3 tree directory goes after removed _ ih =>
      exact ih.trans (Tree.whole_remove_directory removed)
  | case4 tree directory goes after removed _ => exact Tree.whole_remove_directory removed

/-- The file of a page deleted: now it depends on what else is there how far the directories above
it stay. -/
theorem delete_page {rest : List Place} (within : page :: rest ⊆ pages) (fresh : page ∉ rest)
    (whole : after.whole = tree.whole)
    (standing : ∀ place, after.node? place =
      remains tree documents pages (page :: rest) (page :: rest) place) :
    (after.removeFile (Path.toPlace tree.whole page)).node? place =
      remains tree documents pages rest (page.dropLast :: rest) place := by
  have listed : page ∈ pages := within (by simp)
  have file : after.node? page = some (.file (.text "")) := by
    rw [standing, remains, if_pos (by simp)]
  obtain ⟨front, last, rfl⟩ := (List.eq_nil_or_concat' page).resolve_left
    (above_iff.1 (layout.below page listed)).2
  have inner : OnTheWay pages front := ⟨_, listed, above_append (by simp)⟩
  have stays : Stays tree pages ((front ++ [last]) :: rest) front :=
    .inr ⟨front ++ [last], by simp, List.prefix_append _ _⟩
  have found := locate_target layout within standing whole (layout.proper _ listed) inner stays
  have removed : after.removeFile (Path.toPlace tree.whole (front ++ [last])) =
      after.clear (front ++ [last]) := by
    simp [Tree.removeFile, Tree.isFile, Tree.stat, found, file]
  rw [removed, Tree.node_clear (by simp), List.dropLast_concat]
  by_cases same : place = front ++ [last]
  · rw [if_pos same, same, remains, if_neg fresh, if_pos listed]
  · rw [if_neg same, standing]
    refine remains_congr (by simp [same]) fun _ => ?_
    simp [Stays, List.prefix_concat_iff, same]

section Climbing

variable {rest : List Place} (within : rest ⊆ pages)

include within

theorem inhabited_iff (onWay : OnTheWay pages place) (inner : Above documents place)
    (standing : ∀ other, after.node? other =
      remains tree documents pages rest (place :: rest) other) :
    (∃ names, names ≠ [] ∧ after.node? (place ++ names) ≠ none) ↔ Stays tree pages rest place := by
  constructor
  · rintro ⟨names, named, there⟩
    have strict : Above place (place ++ names) := above_append named
    rw [standing] at there
    unfold remains at there
    split at there
    · rename_i member
      exact .inr ⟨_, member, strict.1⟩
    · split at there
      · exact absurd rfl there
      · rename_i unlisted
        split at there
        · split at there
          · rename_i stays
            rcases stays with kept | ⟨target, member, under⟩
            · have below : Stays tree pages rest (place ++ names) := .inl kept
              exact below.shortened strict.1
            · rcases List.mem_cons.1 member with rfl | member
              · exact absurd (strict.extended under) fun above => above.2 rfl
              · exact .inr ⟨target, member, strict.1.trans under⟩
          · exact absurd rfl there
        · rename_i aside
          have other : ¬OnTheWay pages (place ++ names) :=
            fun way => aside ⟨inner.extended strict.1, way⟩
          rw [Tree.node_named (by simp [named]), ← Tree.mem_keys_iff] at there
          exact .inl ⟨_, there, strict.1, unlisted, other⟩
  · have below {other : Place} (under : place <+: other) (differs : ¬OnTheWay pages other)
        (there : after.node? other ≠ none) : ∃ names, names ≠ [] ∧
          after.node? (place ++ names) ≠ none := by
      obtain ⟨names, rfl⟩ := under
      refine ⟨names, ?_, there⟩
      rintro rfl
      exact differs (by rwa [List.append_nil])
    rintro (⟨other, member, under, unlisted, aside⟩ | ⟨target, member, under⟩)
    · refine below under aside ?_
      have named : other ≠ [] := fun none => layout.sound.named (none ▸ member)
      rw [standing, remains, if_neg fun member => unlisted (within member), if_neg unlisted,
        if_neg fun way => aside way.2, Tree.node_named named]
      exact Tree.mem_keys_iff.1 member
    · refine below under (layout.apart target (within member)) ?_
      rw [standing, remains, if_pos member]
      exact Option.some_ne_none _

/-- A directory on the way is deleted unless it has to stay, and then those above it come next. -/
theorem climb_step (whole : after.whole = tree.whole) {front : Place} {last : String}
    (onWay : OnTheWay pages (front ++ [last]))
    (inner : Above documents (front ++ [last]))
    (standing : ∀ other, after.node? other =
      remains tree documents pages rest ((front ++ [last]) :: rest) other) :
    (after.removeDirectory? (Path.toPlace tree.whole (front ++ [last])) = none ∧
      Stays tree pages rest (front ++ [last])) ∨
    (after.removeDirectory? (Path.toPlace tree.whole (front ++ [last])) =
      some (after.clear (front ++ [last])) ∧
      ∀ other, (after.clear (front ++ [last])).node? other =
        remains tree documents pages rest (front :: rest) other) := by
  obtain ⟨page, listed, above⟩ := id onWay
  have proper : ∀ name ∈ front ++ [last], Path.IsProper name :=
    fun name member => layout.proper page listed name (above.1.subset member)
  have stays : Stays tree pages ((front ++ [last]) :: rest) (front ++ [last]) :=
    .inr ⟨front ++ [last], List.mem_cons_self, List.prefix_rfl⟩
  have there := directory_on_the_way layout within standing onWay stays
  have found :=
    locate_target layout within standing whole proper (onWay.shortened (List.prefix_append _ _))
      (stays.shortened (List.prefix_append _ _))
  have inhabited := inhabited_iff layout within onWay inner standing
  rw [Tree.node_named (by simp)] at there
  by_cases kept : Stays tree pages rest (front ++ [last])
  · have filled : (after.below (front ++ [last])).isEmpty = false := by
      obtain ⟨names, named, something⟩ := inhabited.2 kept
      rw [← Bool.not_eq_true, Tree.below_is_empty_iff]
      exact fun bare => something (bare names named)
    refine .inl ⟨?_, kept⟩
    simp only [Tree.removeDirectory?, found, filled, Bool.and_false, Bool.false_eq_true, if_false]
  · have bare : (after.below (front ++ [last])).isEmpty = true := by
      rw [Tree.below_is_empty_iff]
      intro names named
      by_contra something
      exact kept (inhabited.1 ⟨names, named, something⟩)
    refine .inr ⟨?_, fun other => ?_⟩
    · simp only [Tree.removeDirectory?, found, there, bare, Bool.not_false, beq_self_eq_true,
        Bool.and_self, if_true]
    · rw [Tree.node_clear (by simp), standing]
      by_cases same : other = front ++ [last]
      · have unlisted : front ++ [last] ∉ pages := fun member => layout.apart _ member onWay
        have gone : ¬Stays tree pages (front :: rest) (front ++ [last]) := by
          rintro (other | ⟨target, member, under⟩)
          · exact kept (.inl other)
          · rcases List.mem_cons.1 member with rfl | member
            · exact absurd under.length_le (by simp)
            · exact kept (.inr ⟨target, member, under⟩)
        rw [if_pos same, same, remains, if_neg fun member => unlisted (within member),
          if_neg unlisted, if_pos ⟨inner, onWay⟩, if_neg gone]
      · rw [if_neg same]
        refine remains_congr Iff.rfl fun _ => ?_
        simp [Stays, List.prefix_concat_iff, same]

/-- Climbing from a directory on the way to pages ends with the directories deleted that need not
stay. -/
theorem climb_remains (whole : after.whole = tree.whole) {way : List String}
    (onWay : OnTheWay pages (documents ++ way))
    (standing : ∀ other, after.node? other =
      remains tree documents pages rest ((documents ++ way) :: rest) other) :
    (climb after (.text (Path.toPlace tree.whole documents))
        (Path.toPlace tree.whole (documents ++ way))).node? place =
      remains tree documents pages rest rest place := by
  induction way using List.reverseRecOn generalizing after with
  | nil =>
      rw [List.append_nil] at standing ⊢
      have arrived : (Value.text (Path.toPlace tree.whole documents)).text? =
          some (Path.toPlace tree.whole documents) := rfl
      rw [climb, if_pos arrived, standing]
      refine remains_congr Iff.rfl fun inner => ?_
      have outside : ¬place <+: documents := fun under => (inner.extended under).2 rfl
      simp [Stays, outside]
  | append_singleton way last ih =>
      have inner : Above documents (documents ++ (way ++ [last])) := above_append (by simp)
      rw [← List.append_assoc] at onWay inner standing ⊢
      have onFront : OnTheWay pages (documents ++ way) := onWay.shortened (List.prefix_append _ _)
      obtain ⟨page, listed, above⟩ := id onWay
      have proper : ∀ name ∈ documents ++ way ++ [last], Path.IsProper name :=
        fun name member => layout.proper page listed name (above.1.subset member)
      have differs :
          ¬(Value.text (Path.toPlace tree.whole documents)).text? =
            some (Path.toPlace tree.whole (documents ++ way ++ [last])) := by
        intro same
        refine inner.2 (Path.to_place_inj tree.whole (fun name member => proper name ?_) proper
          (Option.some.inj same))
        exact inner.1.subset member
      rw [climb, if_neg differs]
      rcases climb_step layout within whole onWay inner standing
        with ⟨unremoved, kept⟩ | ⟨removed, remaining⟩
      · simp only [unremoved, standing]
        refine remains_congr Iff.rfl fun _ => ⟨fun stays => ?_, fun stays => ?_⟩
        · rcases stays with other | ⟨target, member, under⟩
          · exact .inl other
          · rcases List.mem_cons.1 member with rfl | member
            · exact kept.shortened under
            · exact .inr ⟨target, member, under⟩
        · exact stays.imp_right fun ⟨target, member, under⟩ =>
            ⟨target, List.mem_cons_of_mem _ member, under⟩
      · simp only [removed, Path.parent_to_place tree.whole proper]
        rw [dif_pos (Path.length_of_to_place_concat tree.whole (proper last (by simp)).1)]
        exact ih whole onFront remaining

end Climbing

theorem delete_remains {rest : List Place} (within : rest ⊆ pages) (distinct : rest.Nodup)
    (whole : after.whole = tree.whole)
    (standing : ∀ place, after.node? place = remains tree documents pages rest rest place) :
    ((rest.map (Path.toPlace tree.whole)).foldl (fun before path =>
      climb (before.removeFile path) (.text (Path.toPlace tree.whole documents)) (Path.parent path))
        after).node? place =
      remains tree documents pages [] [] place := by
  induction rest generalizing after with
  | nil => exact standing place
  | cons page rest ih =>
      have listed : page ∈ pages := within (by simp)
      obtain ⟨fresh, distinctRest⟩ := List.nodup_cons.1 distinct
      obtain ⟨names, split⟩ := (layout.below page listed).1
      have named : names ≠ [] := by
        rintro rfl
        exact (layout.below page listed).2 (by rw [← split, List.append_nil])
      obtain ⟨way, last, rfl⟩ := (List.eq_nil_or_concat' names).resolve_left named
      rw [← List.append_assoc] at split
      subst split
      have onWay : OnTheWay pages (documents ++ way) := ⟨_, listed, above_append (by simp)⟩
      have withinRest : rest ⊆ pages := fun _ member => within (List.mem_cons_of_mem _ member)
      rw [List.map_cons, List.foldl_cons, Path.parent_to_place tree.whole (layout.proper _ listed)]
      have removed :
          (after.removeFile (Path.toPlace tree.whole (documents ++ way ++ [last]))).whole =
            tree.whole := (Tree.whole_remove_file _ _).trans whole
      refine ih withinRest distinctRest ((whole_climb _ _ _).trans removed) fun other =>
        climb_remains layout withinRest removed onWay fun place => ?_
      rw [delete_page layout within fresh whole standing, List.dropLast_concat]

theorem clean_up_remains {config : Value}
    (documented : config.field? "docs_dir" = some (.text (Path.toPlace tree.whole documents)))
    (distinct : pages.Nodup) (whole : after.whole = tree.whole)
    (written : Written pages tree after) :
    ∃ final, cleanUp after config (pages.map (Path.toPlace tree.whole)) = .ok final ∧
      ∀ place, final.node? place = remains tree documents pages [] [] place := by
  refine ⟨_, by rw [cleanUp, documented], fun place => ?_⟩
  exact delete_remains layout (List.Subset.refl pages) distinct whole fun place =>
    remains_written layout written

omit layout in
/-- Something keeps a directory if nothing stands at a page, no file bars the way to one, and no
directory on the way is empty: what stands deepest below it would else be one of these. -/
theorem kept_of_standing
    (free : ∀ place, OnTheWay pages place → ∀ content, tree.node? place ≠ some (.file content))
    (fresh : ∀ page ∈ pages, tree.node? page = none)
    (filled : ∀ place, Above documents place → OnTheWay pages place →
      tree.node? place = some .directory → ∃ names, names ≠ [] ∧ tree.node? (place ++ names) ≠ none)
    (inner : Above documents place) (there : tree.node? place ≠ none) : Kept tree pages place := by
  obtain ⟨other, under, deep, bare⟩ := Tree.exists_deepest there (above_iff.1 inner).2
  have strict := inner.extended under
  have member : other ∈ tree.nodes.keys := by
    rwa [Tree.mem_keys_iff, ← Tree.node_named (above_iff.1 strict).2]
  refine ⟨other, member, under, fun listed => deep (fresh other listed), fun onWay => ?_⟩
  cases found : tree.node? other with
  | none => exact deep found
  | some node =>
      cases node with
      | directory =>
          obtain ⟨names, named, further⟩ := filled other strict onWay found
          exact further (bare names named)
      | file content => exact free other onWay content found

/-- All is as before exactly if nothing was at a page, and no directory on the way to one was
empty. -/
theorem restored_iff
    (free : ∀ place, OnTheWay pages place → ∀ content, tree.node? place ≠ some (.file content)) :
    (∀ place, remains tree documents pages [] [] place = tree.node? place) ↔
      (∀ page ∈ pages, tree.node? page = none) ∧
        ∀ place, Above documents place → OnTheWay pages place → tree.node? place = some .directory →
          ∃ names, names ≠ [] ∧ tree.node? (place ++ names) ≠ none := by
  constructor
  · intro restored
    refine ⟨fun page member => ?_, fun place inner onWay there => ?_⟩
    · rw [← restored, remains, if_neg List.not_mem_nil, if_pos member]
    · have unlisted : place ∉ pages := fun member => layout.apart place member onWay
      have same := restored place
      rw [remains, if_neg List.not_mem_nil, if_neg unlisted, if_pos ⟨inner, onWay⟩, there] at same
      obtain ⟨other, member, ⟨names, rfl⟩, -, aside⟩ | ⟨target, member, -⟩ :
          Stays tree pages [] place := by
        by_contra gone
        rw [if_neg gone] at same
        cases same
      · refine ⟨names, ?_, ?_⟩
        · rintro rfl
          exact aside (by rwa [List.append_nil])
        · rw [Tree.node_named fun none => layout.sound.named (none ▸ member)]
          exact Tree.mem_keys_iff.1 member
      · exact absurd member List.not_mem_nil
  · rintro ⟨fresh, filled⟩ place
    rw [remains, if_neg List.not_mem_nil]
    by_cases listed : place ∈ pages
    · rw [if_pos listed, fresh place listed]
    · rw [if_neg listed]
      by_cases way : Above documents place ∧ OnTheWay pages place
      · rw [if_pos way]
        by_cases stays : Stays tree pages [] place
        · obtain ⟨other, member, under, -, aside⟩ :=
            stays.resolve_right fun ⟨_, member, _⟩ => absurd member List.not_mem_nil
          have there : tree.node? other ≠ none := by
            rw [Tree.node_named fun none => layout.sound.named (none ▸ member)]
            exact Tree.mem_keys_iff.1 member
          rw [if_pos stays, layout.sound.above there under fun same => aside (same ▸ way.2)]
        · rw [if_neg stays]
          by_contra there
          exact stays (.inl (kept_of_standing free fresh filled way.1 (Ne.symm there)))
      · rw [if_neg way]

end Deleting

theorem Layout.of_writable (sound : tree.Sound) (there : tree.node? documents = some .directory)
    (below : ∀ page ∈ pages, Above documents page)
    (proper : ∀ page ∈ pages, ∀ name ∈ page, Path.IsProper name)
    (writable : Writable tree pages) : Layout tree documents pages where
  sound := sound
  there := there
  below := below
  apart := by
    rintro page member ⟨other, listed, above⟩
    exact ((writable other listed).2 page above).1 member
  proper := proper

theorem distinct_places {uris : List String} (distinct : uris.Nodup) :
    (uris.map (pagePlace documents)).Nodup := by
  refine distinct.map fun first second same => ?_
  rw [← Path.of_names_pieces first, List.append_cancel_left same, Path.of_names_pieces]

open State

theorem temporary_with_declarations (options : Options) (state : State)
    (declarations : List Declaration) :
    (withDeclarations options state declarations).temporary = state.temporary := by
  have filed : (declarations.foldl (addDeclaration options.outputDirectory) state).temporary =
      state.temporary := by
    induction declarations generalizing state with
    | nil => rfl
    | cons declaration rest ih =>
        exact ih (state.addDeclaration options.outputDirectory declaration)
  unfold withDeclarations addIndex
  split <;> exact filed

theorem sorted_uris_of_keys {state : State} {uris : List String} (keys : state.pages.keys = uris)
    (sorted : uris.Pairwise fun first second => (!decide (second < first)) = true) :
    sortedUris state = uris := by
  rw [sortedUris, keys, List.mergeSort_of_pairwise sorted]

theorem walk_of_configured {earlier : State} {workspace : Workspace} {site : Value}
    (configured : (configure earlier workspace site).failure = none) : ∃ directory final,
      (earlier.entering site directory).walk workspace =
        ((configure earlier workspace site).state, final, none) := by
  cases entered : configDirectory site with
  | error failure => simp [configure, entered] at configured
  | ok directory =>
      rw [configure_entered entered] at configured ⊢
      refine ⟨directory, ?_⟩
      generalize (earlier.entering site directory).walk workspace = walked at *
      obtain ⟨after, final, failure⟩ := walked
      cases failure with
      | some failure => simp at configured
      | none =>
          refine ⟨final, ?_⟩
          simp only
          split <;> rfl

theorem configured_pages {earlier : State} {workspace : Workspace} {site : Value}
    (plain : ∀ options, earlier.options = some options →
      ∀ piece ∈ Path.pieces options.outputDirectory, Path.IsProper piece)
    (configured : (configure earlier workspace site).failure = none) :
    let state := (configure earlier workspace site).state
    state.temporary = [] ∧ (sortedUris state).Nodup ∧
      ∀ uri ∈ sortedUris state, ∀ piece ∈ Path.pieces uri, Path.IsProper piece := by
  obtain ⟨directory, final, finished⟩ := walk_of_configured configured
  simp only [sortedUris, List.mem_mergeSort, (List.mergeSort_perm _ _).nodup_iff]
  generalize (configure earlier workspace site).state = state at finished
  have walked := walked_of_walk finished
  generalize (earlier.entering site directory).walker workspace = walker at walked
  cases walked with
  | missing absent => exact ⟨rfl, List.nodup_nil, fun uri member => absurd member List.not_mem_nil⟩
  | @walked headers options reading _ final listed given readable ran =>
      refine ⟨temporary_with_declarations _ _ _, distinct_pages rfl, fun uri member => ?_⟩
      obtain ⟨⟨_, page⟩, entry, rfl⟩ := List.mem_map.1 member
      cases (mem_pages rfl).1 entry with
      | overview wanted inhabited =>
          exact @page_uri_plain _ (plain options given) "index" [] "index" (by simp) (by decide) rfl
      | @header declaration member apart =>
          obtain ⟨front, last, proper, noSlash, named⟩ :=
            label_names (earlier.entering site directory).root declaration.file
          exact page_uri_plain (plain options given) proper noSlash named

section Announced

variable {earlier : State} {workspace : Workspace} {site config sites : Value}
  (configured : (configure earlier workspace site).failure = none)
  (plain : ∀ options, earlier.options = some options →
    ∀ piece ∈ Path.pieces options.outputDirectory, Path.IsProper piece)
  (sound : tree.Sound) (named : documents ≠ []) (proper : ∀ name ∈ documents, Path.IsProper name)
  (there : tree.node? documents = some .directory)
  (documented : config.field? "docs_dir" = some (.text (Path.toPlace tree.whole documents)))
  (published : config.field? "site_dir" = some sites)

include configured plain sound named proper there documented published

theorem announced_pages_deleted :
    let state := (configure earlier workspace site).state
    let pages := (sortedUris state).map (pagePlace documents)
    let announced := announce state tree config false
    (announced.failure = none ↔ Writable tree pages) ∧
      (announced.failure = none → Layout tree documents pages ∧
      Written pages tree announced.tree ∧
        ∃ final, cleanUp announced.tree config announced.temporary = .ok final ∧
        ∀ place, final.node? place = remains tree documents pages [] [] place) := by
  intro state pages announced
  obtain ⟨temporary, distinct, plainPages⟩ := configured_pages plain configured
  obtain ⟨succeeds, whole⟩ :=
    @announce_written documents config sites proper named published (sortedUris state) plainPages
      { temporary := state.temporary, tree := tree } rfl sound documented
  refine ⟨succeeds, fun ended => ?_⟩
  obtain ⟨kept, same, written⟩ := whole ended
  have below : ∀ page ∈ pages, Above documents page := by
    intro page member
    obtain ⟨uri, -, rfl⟩ := List.mem_map.1 member
    exact above_append (pieces_ne_nil uri)
  have properPages : ∀ page ∈ pages, ∀ name ∈ page, Path.IsProper name := by
    intro page member name inPage
    obtain ⟨uri, listed, rfl⟩ := List.mem_map.1 member
    exact (List.mem_append.1 inPage).elim (proper name) (plainPages uri listed name)
  have layout := Layout.of_writable sound there below properPages (succeeds.1 ended)
  obtain ⟨final, cleaned, left⟩ :=
    clean_up_remains layout documented (distinct_places distinct) same written
  refine ⟨layout, written, final, ?_, left⟩
  rw [← cleaned]
  exact congrArg _ (kept.trans (by rw [temporary, List.nil_append]))

end Announced

/-- Pages that are announced by files below the directory of the documents: they can be announced
exactly if no directory is in the place of one, and no file or other page above it. The build then
ends with no page left, and no directory on the way to one that nothing else keeps; so the documents
are as before exactly if nothing was at a page and no directory on the way to one was empty. -/
theorem written_pages_undone_iff {earlier : State} {workspace : Workspace}
    {site config sites : Value} (configured : (configure earlier workspace site).failure = none)
    (plain : ∀ options, earlier.options = some options →
      ∀ piece ∈ Path.pieces options.outputDirectory, Path.IsProper piece)
    (sound : tree.Sound) (named : documents ≠ []) (proper : ∀ name ∈ documents, Path.IsProper name)
    (there : tree.node? documents = some .directory)
    (documented : config.field? "docs_dir" = some (.text (Path.toPlace tree.whole documents)))
    (published : config.field? "site_dir" = some sites) :
    let state := (configure earlier workspace site).state
    let pages := (sortedUris state).map (pagePlace documents)
    let announced := announce state tree config false
    (announced.failure = none ↔ Writable tree pages) ∧
      (announced.failure = none → ∃ final,
        cleanUp announced.tree config announced.temporary = .ok final ∧
        (∀ place, final.node? place = remains tree documents pages [] [] place) ∧
        ((∀ place, final.node? place = tree.node? place) ↔
          (∀ page ∈ pages, tree.node? page = none) ∧
            ∀ place, Above documents place → OnTheWay pages place →
              tree.node? place = some .directory →
              ∃ names, names ≠ [] ∧ tree.node? (place ++ names) ≠ none)) := by
  intro state pages announced
  obtain ⟨succeeds, whole⟩ :=
    announced_pages_deleted configured plain sound named proper there documented published
  refine ⟨succeeds, fun ended => ?_⟩
  obtain ⟨layout, -, final, cleaned, left⟩ := whole ended
  have free : ∀ place, OnTheWay pages place →
      ∀ content, tree.node? place ≠ some (.file content) := by
    rintro place ⟨page, listed, above⟩
    exact ((succeeds.1 ended page listed).2 place above).2
  refine ⟨final, cleaned, left, ?_⟩
  simp only [left]
  exact restored_iff layout free

/-- Documents that have other things in the directories of the pages are as before. All paths start
at the root of the file system. -/
theorem guide_beside_pages_stays :
    let declared : Cursor :=
      { kind := .declares .struct, spelling := "fz_a", file := some "/w/proj/i/deep/a.h" }
    let tree : Tree :=
      { nodes :=
          ⟨[(["w"], .directory), (["w", "proj"], .directory), (["w", "proj", "i"], .directory),
            (["w", "proj", "i", "deep"], .directory),
            (["w", "proj", "i", "deep", "a.h"], .file (.text "")), (["w", "docs"], .directory),
            (["w", "docs", "api_reference"], .directory),
            (["w", "docs", "api_reference", "guide.md"], .file (.text "Mine."))]⟩
        whole := true }
    let workspace : Workspace :=
      { tree := tree, headers := ⟨[("/w/proj/i/deep/a.h", { cursors := [declared] })]⟩ }
    let earlier : State := { options := some { headerRoot := "i", headers := [.text "deep/a.h"] } }
    let site : Value :=
      .record
        [("config_file_path", .text "/w/proj/mkdocs.yml"), ("docs_dir", .text "/w/docs"),
          ("site_dir", .text "/w/site")]
    ((configure earlier workspace site).failure = none ∧ tree.Sound ∧
      tree.node? ["w", "docs"] = some .directory) ∧
      sortedUris (configure earlier workspace site).state =
        ["api_reference/deep/a.h.md", "api_reference/index.md"] ∧
      ∃ announced final,
        announce (configure earlier workspace site).state tree site false = announced ∧
        announced.failure = none ∧
        cleanUp announced.tree site announced.temporary = .ok final ∧
        ∀ place, final.node? place = tree.node? place := by
  intro declared tree workspace earlier site
  have configured : (configure earlier workspace site).failure = none := by decide +kernel
  have sound : tree.Sound := ⟨by decide, by decide, by decide⟩
  have there : tree.node? ["w", "docs"] = some .directory := rfl
  have keys : (configure earlier workspace site).state.pages.keys =
      ["api_reference/deep/a.h.md", "api_reference/index.md"] := by decide +kernel
  have uris := sorted_uris_of_keys keys (by decide)
  have plain : ∀ options, earlier.options = some options →
      ∀ piece ∈ Path.pieces options.outputDirectory, Path.IsProper piece := by
    rintro options given
    obtain rfl := Option.some.inj given
    decide
  obtain ⟨succeeds, cleaned⟩ :=
    @written_pages_undone_iff tree ["w", "docs"] earlier workspace site site (.text "/w/site")
      configured plain sound (by decide) (by decide) there rfl rfl
  rw [uris] at succeeds cleaned
  generalize announce (configure earlier workspace site).state tree site false =
    announced at succeeds cleaned ⊢
  have ended := succeeds.2 (by decide +kernel)
  obtain ⟨final, undone, -, restored⟩ := cleaned ended
  refine ⟨⟨configured, sound, there⟩, uris, announced, final, rfl, ended, undone,
    restored.2 ⟨by decide +kernel, ?_⟩⟩
  · have only :
        ∀ page ∈ ["api_reference/deep/a.h.md", "api_reference/index.md"].map
            (pagePlace ["w", "docs"]),
          ∀ place ∈ page.inits, Above ["w", "docs"] place → tree.node? place = some .directory →
            place = ["w", "docs", "api_reference"] := by
      decide +kernel
    rintro place inner ⟨page, member, under, -⟩ isDirectory
    rw [only page member place ((List.mem_inits _ _).2 under) inner isDirectory]
    exact ⟨["guide.md"], by decide, by decide⟩

/-- A page of the user's own at the place of a generated one is emptied, and deleted at the end of
the build; so is an empty directory on the way to a generated one. -/
theorem own_page_deleted :
    let declared (name file : String) : Cursor :=
      { kind := .declares .struct, spelling := name, file := some file }
    let tree : Tree :=
      { nodes :=
          ⟨[(["proj"], .directory), (["proj", "a.h"], .file (.text "")),
            (["proj", "s"], .directory), (["proj", "s", "b.h"], .file (.text "")),
            (["docs"], .directory), (["docs", "api_reference"], .directory),
            (["docs", "api_reference", "a.h.md"], .file (.text "Mine.")),
            (["docs", "api_reference", "s"], .directory)]⟩ }
    let workspace : Workspace :=
      { tree := tree
        headers :=
          ⟨[("proj/a.h",
            { cursors := [declared "fz_a" "proj/a.h", declared "fz_b" "proj/s/b.h"] })]⟩ }
    let earlier : State := { options := some { headers := [.text "a.h"], index := false } }
    let site : Value :=
      .record [("config_file_path", .text "proj/mkdocs.yml"), ("docs_dir", .text "docs"),
        ("site_dir", .text "site")]
    (configure earlier workspace site).failure = none ∧
      ∃ announced final,
        announce (configure earlier workspace site).state tree site false = announced ∧
        announced.failure = none ∧
        announced.tree.node? ["docs", "api_reference", "a.h.md"] = some (.file (.text "")) ∧
        cleanUp announced.tree site announced.temporary = .ok final ∧
        final.node? ["docs", "api_reference", "a.h.md"] = none ∧
        final.node? ["docs", "api_reference", "s"] = none := by
  intro declared tree workspace earlier site
  have configured : (configure earlier workspace site).failure = none := by decide +kernel
  have keys : (configure earlier workspace site).state.pages.keys =
      ["api_reference/a.h.md", "api_reference/s/b.h.md"] := by decide +kernel
  have uris := sorted_uris_of_keys keys (by decide)
  have plain : ∀ options, earlier.options = some options →
      ∀ piece ∈ Path.pieces options.outputDirectory, Path.IsProper piece := by
    rintro options given
    obtain rfl := Option.some.inj given
    decide
  obtain ⟨succeeds, deleted⟩ :=
    @announced_pages_deleted tree ["docs"] earlier workspace site site (.text "site") configured
      plain ⟨by decide, by decide, by decide⟩ (by decide) (by decide) rfl rfl rfl
  rw [uris] at succeeds deleted
  generalize announce (configure earlier workspace site).state tree site false =
    announced at succeeds deleted ⊢
  have ended := succeeds.2 (by decide +kernel)
  obtain ⟨-, written, final, cleaned, left⟩ := deleted ended
  refine ⟨configured, announced, final, rfl, ended, (written _).trans (by decide +kernel),
    cleaned, ?_, ?_⟩
  · exact (left _).trans (by decide +kernel)
  · exact (left _).trans (by decide +kernel)

end HeaderDocs.Site
