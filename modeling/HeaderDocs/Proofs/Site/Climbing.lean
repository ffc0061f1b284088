import HeaderDocs.Proofs.Files.Parents
import HeaderDocs.Proofs.Site.Temporary
import Mathlib.Logic.Relation

/-!
The climb that deletes directories after a build. It ends in every file system, by the length of the
path: of a path that is its own directory part the system has no directory to delete. In a tree it
deletes a directory only while nothing is in it. Where the documents are on the way up, it stays
below them, whatever paths are given, as long as those have no dots for pieces.
-/

namespace HeaderDocs.Site

set_option autoImplicit false

variable {tree after final : Tree} {path directory documents : String} {stop : Option String}

section Turns

variable {System : Type} {remove : System → String → Option System}
    {start earlier later : System × String}

/-- One turn of the climb: the directory is not where it stops, it is deleted, and the one above it
is next. -/
structure Turn (remove : System → String → Option System) (stop : Option String)
    (earlier later : System × String) :
    Prop where
  goes : stop ≠ some earlier.2
  removed : remove earlier.1 earlier.2 = some later.1
  next : later.2 = Path.parent earlier.2

def Ends (remove : System → String → Option System) (stop : Option String) (start : System × String)
    (final : System) : Prop :=
  ∃ last, Relation.ReflTransGen (Turn remove stop) start (final, last) ∧
    ∀ next, ¬Turn remove stop (final, last) next

/-- There is no directory to delete at a path of slashes alone, or at an empty one. -/
def Refuses (remove : System → String → Option System) : Prop :=
  ∀ system path, Path.IsBare path → remove system path = none

theorem turns_end (refuses : Refuses remove) (stop : Option String) :
    WellFounded fun later earlier => Turn remove stop earlier later := by
  refine Subrelation.wf ?_ (measure fun state : System × String => state.2.length).wf
  intro later earlier turn
  have solid : ¬Path.IsBare earlier.2 := by
    intro bare
    have removed := turn.removed
    rw [refuses _ _ bare] at removed
    cases removed
  change later.2.length < earlier.2.length
  rw [turn.next]
  exact Path.parent_shorter solid

/-- A directory on the way up to the documents, by a path without dots, and with no slash at its end
if it has names. -/
structure Climbing (documents directory : String) : Prop where
  plain : Path.IsPlain directory
  ends : Path.IsBare directory ∨ ∃ c, directory.toList.getLast? = some c ∧ c ≠ '/'
  onWay : ∃ count, Path.parent^[count] directory = documents

theorem climbing_parent (plain : Path.IsPlain path)
    (onWay : ∃ count, Path.parent^[count + 1] path = documents) :
    Climbing documents (Path.parent path) :=
  ⟨Path.plain_above plain (Path.parts_of_parent path), Path.parent_ends path, onWay⟩

theorem names_above {count : Nat} {c : Char} (plain : Path.IsPlain path)
    (ends : path.toList.getLast? = some c) (notSlash : c ≠ '/') :
    Above (Path.names (Path.parent^[count + 1] path)) (Path.names path) := by
  obtain ⟨below, differs⟩ := @Path.parts_above path count c ends notSlash
  rw [Path.names_plain plain, Path.names_plain (Path.plain_above plain below)]
  exact ⟨below, differs⟩

theorem Climbing.above (climbing : Climbing documents directory) (left : directory ≠ documents) :
    Above (Path.names documents) (Path.names directory) := by
  obtain ⟨plain, bare | ⟨c, ends, notSlash⟩, count, reached⟩ := climbing
  · exact absurd ((Function.iterate_fixed (Path.parent_bare bare) count).symm.trans reached) left
  · cases count with
    | zero => exact absurd reached left
    | succ count =>
        rw [← reached]
        exact names_above plain ends notSlash

theorem Climbing.turn (climbing : Climbing documents earlier.2)
    (turn : Turn remove (some documents) earlier later) :
    Climbing documents later.2 := by
  obtain ⟨count, reached⟩ := climbing.onWay
  rw [turn.next]
  cases count with
  | zero => exact absurd (congrArg some reached.symm) turn.goes
  | succ count => exact climbing_parent climbing.plain ⟨count, reached⟩

theorem Climbing.turns (climbing : Climbing documents start.2)
    (turns : Relation.ReflTransGen (Turn remove (some documents)) start later) :
    Climbing documents later.2 := by
  induction turns with
  | refl => exact climbing
  | tail _ turn ih => exact ih.turn turn

theorem turn_below (climbing : Climbing documents start.2)
    (turns : Relation.ReflTransGen (Turn remove (some documents)) start earlier)
    (turn : Turn remove (some documents) earlier later) :
    Above (Path.names documents) (Path.names earlier.2) :=
  (climbing.turns turns).above fun same => turn.goes (congrArg some same.symm)

end Turns

section Trees

/-- A directory with nothing in it is deleted, and nothing else changes. -/
structure Emptied (place : Place) (before after : Tree) : Prop where
  there : before.node? place = some .directory
  bare : ∀ names, names ≠ [] → before.node? (place ++ names) = none
  node : ∀ other, after.node? other = if other = place then none else before.node? other

theorem refuses_slashes : Refuses Tree.removeDirectory? := by
  intro tree path bare
  have blank := Path.pieces_slashes path.toList.length
  rw [← List.eq_replicate_of_mem bare, String.ofList_toList] at blank
  cases found : tree.locate path with
  | error dead => simp [Tree.removeDirectory?, found]
  | ok target =>
      have dotted : target.dotted = true := by
        obtain ⟨reached, given⟩ := Tree.reached_of_located found
        rw [Tree.locate_top reached given blank] at found
        rw [← Except.ok.inj found]
      simp [Tree.removeDirectory?, found, dotted]

theorem removed_directory (removed : tree.removeDirectory? path = some after) :
    ∃ target, tree.locate path = .ok target ∧ Emptied target.place tree after := by
  unfold Tree.removeDirectory? at removed
  split at removed
  · rename_i target found
    split at removed
    · rename_i free
      simp only [Bool.and_eq_true, Bool.not_eq_true', beq_iff_eq] at free
      obtain ⟨⟨undotted, there⟩, bare⟩ := free
      have named := Tree.located_named found undotted
      refine ⟨target, found, ?_, Tree.below_is_empty_iff.1 bare, ?_⟩
      · rw [Tree.node_named named, there]
      · rw [← Option.some.inj removed]
        exact fun other => Tree.node_clear named
    · cases removed
  · cases removed

theorem climb_ends (tree : Tree) (stop : Value) (directory : String) :
    Ends Tree.removeDirectory? stop.text? (tree, directory) (climb tree stop directory) := by
  fun_induction climb tree stop directory with
  | case1 tree directory arrived => exact ⟨directory, .refl, fun next turn => turn.goes arrived⟩
  | case2 tree directory _ stuck =>
      refine ⟨directory, .refl, fun next turn => ?_⟩
      have removed := turn.removed
      rw [stuck] at removed
      cases removed
  | case3 tree directory goes after removed _ ih =>
      obtain ⟨last, turns, ended⟩ := ih
      have turn : Turn Tree.removeDirectory? stop.text? (tree, directory)
          (after, Path.parent directory) := ⟨goes, removed, rfl⟩
      exact ⟨last, .head turn turns, ended⟩
  | case4 tree directory _ after removed long =>
      have solid : ¬Path.IsBare directory := by
        intro bare
        rw [refuses_slashes tree directory bare] at removed
        cases removed
      exact absurd (Path.parent_shorter solid) long

inductive CleanedUp (stop : Option String) : List String → Tree → Tree → Prop
  | done {tree : Tree} : CleanedUp stop [] tree tree
  | path {path : String} {paths : List String} {tree after final : Tree}
      (climbed : Ends Tree.removeDirectory? stop (tree.removeFile path, Path.parent path) after)
      (others : CleanedUp stop paths after final) : CleanedUp stop (path :: paths) tree final

theorem cleaned_up (tree : Tree) (documents : Value) (temporary : List String) :
    CleanedUp documents.text? temporary tree
      (temporary.foldl (fun tree path => climb (tree.removeFile path) documents (Path.parent path))
        tree) := by
  induction temporary generalizing tree with
  | nil => exact .done
  | cons path paths ih =>
      exact .path (climb_ends (tree.removeFile path) documents (Path.parent path)) (ih _)

/-- At the documents and above them all is as before. -/
structure Untouched (documents : String) (before after : Tree) : Prop where
  whole : after.whole = before.whole
  node : ∀ place, place <+: before.start documents ++ Path.names documents →
    after.node? place = before.node? place

theorem Untouched.refl (documents : String) (tree : Tree) : Untouched documents tree tree :=
  ⟨rfl, fun _ _ => rfl⟩

theorem Untouched.trans (first : Untouched documents tree after)
    (second : Untouched documents after final) : Untouched documents tree final := by
  refine ⟨second.whole.trans first.whole, fun place below => ?_⟩
  have later := second.node place
  rw [Tree.start, first.whole, ← Tree.start] at later
  rw [later below, first.node place below]

/-- The place of a path without dots is below that of the documents if its names are below theirs,
and the two paths start at the same place. -/
theorem located_above {target : Target} (plain : Path.IsPlain path)
    (alike : Path.isAbsolute documents = Path.isAbsolute path)
    (above : Above (Path.names documents) (Path.names path))
    (found : tree.locate path = .ok target) :
    Above (tree.start documents ++ Path.names documents) target.place := by
  rw [(Tree.located_plain plain found).1, Tree.start_alike alike, ← Path.names_plain plain]
  exact ⟨(List.prefix_append_right_inj _).2 above.1,
    fun same => above.2 (List.append_cancel_left same)⟩

theorem untouched_turns {start later : Tree × String} (climbing : Climbing documents start.2)
    (turns : Relation.ReflTransGen (Turn Tree.removeDirectory? (some documents)) start later) :
    Untouched documents start.1 later.1 := by
  induction turns with
  | refl => exact .refl documents start.1
  | @tail earlier later turns turn ih =>
      obtain ⟨target, found, emptied⟩ := removed_directory turn.removed
      obtain ⟨count, reached⟩ := (climbing.turns turns).onWay
      have alike : Path.isAbsolute documents = Path.isAbsolute earlier.2 := by
        rw [← reached, Path.is_absolute_above]
      have above :=
        located_above (climbing.turns turns).plain alike (turn_below climbing turns turn) found
      refine ih.trans ⟨Tree.whole_remove_directory turn.removed, fun place below => ?_⟩
      rw [emptied.node, if_neg (above.shortened below).2]

/-- A file is not above the documents if those are above it. -/
theorem untouched_file (tree : Tree) (plain : Path.IsPlain path)
    (onWay : ∃ count, Path.parent^[count + 1] path = documents) :
    Untouched documents tree (tree.removeFile path) := by
  refine ⟨Tree.whole_remove_file tree path, fun place below => ?_⟩
  unfold Tree.removeFile
  split
  · rename_i target found
    split
    · rename_i isFile
      obtain ⟨-, top, ends⟩ := Tree.located_plain plain found
      have file : target.dotted = false ∧ target.slashed = false := by
        unfold Tree.isFile Tree.stat at isFile
        rw [found] at isFile
        cases there : tree.node? target.place with
        | none => simp [there] at isFile
        | some node =>
            cases node with
            | directory => simp [there] at isFile
            | file content => cases slashed : target.slashed <;> simp_all
      obtain ⟨c, ends, notSlash⟩ := ends file.1 file.2
      obtain ⟨count, reached⟩ := onWay
      have alike : Path.isAbsolute documents = Path.isAbsolute path := by
        rw [← reached, Path.is_absolute_above]
      have above : Above (tree.start documents ++ Path.names documents) target.place :=
        located_above plain alike (reached ▸ names_above plain ends notSlash) found
      rw [Tree.node_clear (Tree.located_named found file.1), if_neg (above.shortened below).2]
    · rfl
  · rfl

theorem CleanedUp.untouched {temporary : List String}
    (cleaned : CleanedUp (some documents) temporary tree final)
    (within : ∀ path ∈ temporary, Path.IsPlain path ∧
      ∃ count, Path.parent^[count + 1] path = documents) :
    Untouched documents tree final := by
  induction cleaned with
  | done => exact .refl documents _
  | @path path paths tree after final climbed others ih =>
      obtain ⟨plain, onWay⟩ := within path (by simp)
      obtain ⟨last, turns, -⟩ := climbed
      have climbing : Climbing documents (tree.removeFile path, Path.parent path).2 :=
        climbing_parent plain onWay
      exact ((untouched_file tree plain onWay).trans (untouched_turns climbing turns)).trans
        (ih fun other member => within other (List.mem_cons_of_mem _ member))

/-- The climbs of a clean-up end, in a tree and in any other system that deletes no directory by
slashes alone. They delete directories with nothing in them, and leave the documents and all above
them where they are if those are on the way up from each path, and no path has dots for pieces. -/
theorem clean_up_bounded (tree : Tree) {config documents : Value} (temporary : List String)
    (given : config.field? "docs_dir" = some documents) :
    (∀ (System : Type) (remove : System → String → Option System), Refuses remove →
      WellFounded fun later earlier => Turn remove documents.text? earlier later) ∧
    Refuses Tree.removeDirectory? ∧
    (∀ earlier later, Turn Tree.removeDirectory? documents.text? earlier later →
      ∃ target, earlier.1.locate earlier.2 = .ok target ∧ Emptied target.place earlier.1 later.1) ∧
    (∀ (System : Type) (remove : System → String → Option System) system path directory earlier
        later,
      documents.text? = some directory → Path.IsPlain path →
        (∃ count, Path.parent^[count + 1] path = directory) →
        Relation.ReflTransGen (Turn remove documents.text?) (system, Path.parent path) earlier →
          Turn remove documents.text? earlier later →
            Above (Path.names directory) (Path.names earlier.2)) ∧
    ∃ final, cleanUp tree config temporary = .ok final ∧
      CleanedUp documents.text? temporary tree final ∧
      ∀ directory, documents.text? = some directory →
        (∀ path ∈ temporary, Path.IsPlain path ∧
          ∃ count, Path.parent^[count + 1] path = directory) →
          Untouched directory tree final := by
  refine ⟨fun System remove refuses => turns_end refuses documents.text?, refuses_slashes,
    fun earlier later turn => removed_directory turn.removed, ?_, ?_⟩
  · intro System remove system path directory earlier later named plain onWay turns turn
    rw [named] at turns turn
    have climbing : Climbing directory (system, Path.parent path).2 := climbing_parent plain onWay
    exact turn_below climbing turns turn
  · have cleaned := cleaned_up tree documents temporary
    refine ⟨_, by rw [cleanUp, given], cleaned, fun directory named within => ?_⟩
    rw [named] at cleaned
    exact cleaned.untouched within

/-- A directory left empty below the documents goes, and theirs stays though it is empty as well. -/
theorem documents_stay :
    let tree : Tree :=
      { nodes :=
          ⟨[(["docs"], .directory), (["docs", "api"], .directory),
            (["docs", "api", "x.md"], .file (.text ""))]⟩ }
    let config : Value := .record [("docs_dir", .text "docs")]
    let paths := ["docs//api/x.md"]
    config.field? "docs_dir" = some (.text "docs") ∧
    (∀ path ∈ paths, Path.IsPlain path ∧ ∃ count, Path.parent^[count + 1] path = "docs") ∧
    ∃ final, cleanUp tree config paths = .ok final ∧ final.node? ["docs"] = some .directory ∧
      final.node? ["docs", "api"] = none := by
  intro tree config paths
  have given : config.field? "docs_dir" = some (.text "docs") := rfl
  have within : ∀ path ∈ paths, Path.IsPlain path ∧
      ∃ count, Path.parent^[count + 1] path = "docs" := by
    intro path member
    obtain rfl := List.mem_singleton.1 member
    exact ⟨by decide, 1, by decide⟩
  obtain ⟨-, -, -, -, final, ended, -, untouched⟩ := clean_up_bounded tree paths given
  refine ⟨given, within, final, ended,
    ((untouched "docs" rfl within).node ["docs"] (by decide)).trans (by decide), ?_⟩
  -- The only turn of the climb, after which it has come to the documents.
  have removed : (tree.removeFile "docs//api/x.md").removeDirectory? "docs//api" =
      some { nodes := ⟨[(["docs"], .directory)]⟩ } := rfl
  have climbed : climb (tree.removeFile "docs//api/x.md") (.text "docs") "docs//api" =
      { nodes := ⟨[(["docs"], .directory)]⟩ } := by
    have above : Path.parent "docs//api" = "docs" := by decide
    rw [climb, if_neg (by decide)]
    simp only [removed]
    rw [dif_pos (by decide), above, climb, if_pos (by decide)]
  have whole : cleanUp tree config paths = .ok { nodes := ⟨[(["docs"], .directory)]⟩ } :=
    congrArg Except.ok climbed
  rw [← Except.ok.inj (whole.symm.trans ended)]
  decide

end Trees

end HeaderDocs.Site
