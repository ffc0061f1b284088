import HeaderDocs.Build.Stage
import HeaderDocs.Proofs.Files.Directories

/-!
What staging a source tree leaves. Everything that does not stay behind is at the target as it is in
the source, nothing else is touched, and staging again changes nothing. The two trees are apart from
each other, and no path is that of a file in one and of a directory in the other; what the target
holds besides is free.
-/

namespace HeaderDocs.Build

set_option autoImplicit false

variable {tree before after made : Tree} {origin goal place names : Place} {node : Node}
    {entry : Place × Node}
  {entries : List (Place × Node)} {exclude : List String}

def placed (goal : Place) (tree : Tree) (entries : List (Place × Node)) : Tree :=
  entries.foldl (fun tree entry => tree.put (goal ++ entry.1) entry.2) tree

@[simp] theorem whole_placed (goal : Place) (tree : Tree) (entries : List (Place × Node)) :
    (placed goal tree entries).whole = tree.whole := by
  induction entries generalizing tree with
  | nil => rfl
  | cons entry entries ih => exact ih (tree.put (goal ++ entry.1) entry.2)

/-- Things can be put below a place one after another: each comes after the directory that it goes
into, and nothing of the other kind is in its way. -/
structure Fits (goal : Place) (tree : Tree) (entries : List (Place × Node)) : Prop where
  named : ∀ entry ∈ entries, entry.1 ≠ []
  supported : ∀ entry ∈ entries, tree.node? (goal ++ entry.1.dropLast) = some .directory ∨
    (entry.1.dropLast, Node.directory) ∈ entries
  ordered : entries.Pairwise fun earlier later => ¬later.1 <+: earlier.1
  free : ∀ entry ∈ entries, ∀ node, tree.node? (goal ++ entry.1) = some node →
    (entry.2 = .directory ↔ node = .directory)

structure Supported (goal : Place) (tree : Tree) (entries : List (Place × Node)) : Prop where
  named : ∀ entry ∈ entries, entry.1 ≠ []
  supported : ∀ entry ∈ entries, tree.node? (goal ++ entry.1.dropLast) = some .directory ∨
    (entry.1.dropLast, Node.directory) ∈ entries
  ordered : entries.Pairwise fun earlier later => ¬later.1 <+: earlier.1

theorem Supported.head (held : Supported goal tree (entry :: entries)) :
    tree.node? (goal ++ entry.1.dropLast) = some .directory := by
  refine (held.supported entry (by simp)).resolve_right fun listed => ?_
  rcases List.mem_cons.1 listed with same | later
  · have length := congrArg (fun entry => entry.1.length) same
    have positive := List.length_pos_iff.2 (held.named entry (by simp))
    simp only [List.length_dropLast] at length
    omega
  · exact (List.pairwise_cons.1 held.ordered).1 _ later (List.dropLast_prefix _)

namespace Fits

theorem held (fits : Fits goal tree entries) : Supported goal tree entries :=
  ⟨fits.named, fits.supported, fits.ordered⟩

theorem copy_node (fits : Fits goal tree (entry :: entries)) :
    copyNode goal tree entry = (tree.put (goal ++ entry.1) entry.2, true) := by
  obtain ⟨names, node⟩ := entry
  have named := fits.named (names, node) (by simp)
  have inside := fits.held.head
  have free := fits.free (names, node) (by simp)
  dsimp only at named inside free
  simp only [copyNode, List.dropLast_append_of_ne_nil named, inside, bne_self_eq_false,
    Bool.false_eq_true, if_false]
  cases node with
  | file content =>
      simp only [copyFile]
      split
      · rename_i found
        simpa using free _ found
      · rfl
  | directory =>
      simp only
      split
      · rfl
      · rename_i found
        rw [Tree.put_known (by simp [named]) found]
      · rename_i found
        simpa using free _ found

theorem tail (fits : Fits goal tree (entry :: entries)) :
    Fits goal (tree.put (goal ++ entry.1) entry.2) entries := by
  obtain ⟨first, ordered⟩ := List.pairwise_cons.1 fits.ordered
  have named : goal ++ entry.1 ≠ [] := by simp [fits.named entry (by simp)]
  refine ⟨fun later member => fits.named later (List.mem_cons_of_mem _ member),
    fun later member => ?_, ordered, fun later member node found => ?_⟩
  · rw [Tree.node_put named]
    rcases fits.supported later (List.mem_cons_of_mem _ member) with there | listed
    · left
      split
      · rename_i same
        exact congrArg some ((fits.free entry (by simp) _ (same ▸ there)).2 rfl)
      · exact there
    · rcases List.mem_cons.1 listed with same | others
      · left
        rw [← same, if_pos rfl]
      · exact .inr others
  · rw [Tree.node_put named] at found
    split at found
    · rename_i same
      exact absurd (List.append_cancel_left same ▸ List.prefix_rfl) (first later member)
    · exact fits.free later (List.mem_cons_of_mem _ member) node found

theorem copy_all (fits : Fits goal tree entries) :
    copyAll goal tree entries = (placed goal tree entries, true) := by
  induction entries generalizing tree with
  | nil => rfl
  | cons entry entries ih =>
      simp only [copyAll, fits.copy_node, ih fits.tail, Bool.and_self]
      rfl

theorem sound_placed (fits : Fits goal tree entries) (sound : tree.Sound) :
    (placed goal tree entries).Sound := by
  induction entries generalizing tree with
  | nil => exact sound
  | cons entry entries ih =>
      have named := fits.named entry (by simp)
      refine ih fits.tail (sound.put (by simp [named]) ?_ ?_)
      · rw [List.dropLast_append_of_ne_nil named]
        exact fits.held.head
      · by_cases same : entry.2 = .directory
        · exact .inl same
        · exact .inr fun found => same ((fits.free entry (by simp) _ found).2 rfl)

end Fits

theorem node_placed_other (named : ∀ entry ∈ entries, entry.1 ≠ [])
    (other : ∀ entry ∈ entries, place ≠ goal ++ entry.1) :
    (placed goal tree entries).node? place = tree.node? place := by
  induction entries generalizing tree with
  | nil => rfl
  | cons entry entries ih =>
      have put : (tree.put (goal ++ entry.1) entry.2).node? place = tree.node? place := by
        rw [Tree.node_put (by simp [named entry]), if_neg (other entry (by simp))]
      rw [← put]
      exact ih (fun later member => named later (List.mem_cons_of_mem _ member))
        (fun later member => other later (List.mem_cons_of_mem _ member))

theorem node_placed (fits : Fits goal tree entries) (member : (names, node) ∈ entries) :
    (placed goal tree entries).node? (goal ++ names) = some node := by
  induction entries generalizing tree with
  | nil => exact absurd member List.not_mem_nil
  | cons entry entries ih =>
      rcases List.mem_cons.1 member with rfl | later
      · obtain ⟨first, -⟩ := List.pairwise_cons.1 fits.ordered
        have put : (tree.put (goal ++ names) node).node? (goal ++ names) = some node := by
          rw [Tree.node_put (by simp [fits.named _ member]), if_pos rfl]
        rw [← put]
        exact node_placed_other fits.tail.named fun later inRest same =>
          first later inRest (List.append_cancel_left same ▸ List.prefix_rfl)
      · exact ih fits.tail later

theorem below_placed (outside : ∀ entry ∈ entries, ¬origin <+: goal ++ entry.1) :
    (placed goal tree entries).below origin = tree.below origin := by
  induction entries generalizing tree with
  | nil => rfl
  | cons entry entries ih =>
      have put : (tree.put (goal ++ entry.1) entry.2).below origin = tree.below origin :=
        Tree.below_put (outside entry (by simp))
      rw [← put]
      exact ih fun later member => outside later (List.mem_cons_of_mem _ member)

theorem directory_placed (fits : Fits goal tree entries)
    (found : tree.node? place = some .directory) :
    (placed goal tree entries).node? place = some .directory := by
  by_cases listed : ∃ entry ∈ entries, place = goal ++ entry.1
  · obtain ⟨entry, member, rfl⟩ := listed
    rw [node_placed fits member, (fits.free entry member _ found).2 rfl]
  · rw [node_placed_other fits.named fun entry member same => listed ⟨entry, member, same⟩, found]

theorem Fits.again (fits : Fits goal tree entries) (sound : tree.Sound) :
    Fits goal (placed goal tree entries) entries := by
  refine ⟨fits.named, fun entry member => ?_, fits.ordered, fun entry member node found => ?_⟩
  · obtain ⟨front, last, same⟩ :=
      (List.eq_nil_or_concat' entry.1).resolve_left (fits.named entry member)
    have there := node_placed fits member
    rw [same, ← List.append_assoc] at there
    rw [same, List.dropLast_concat]
    exact .inl ((fits.sound_placed sound).parent (by rw [there]; exact Option.some_ne_none _))
  · rw [node_placed fits member, Option.some.injEq] at found
    rw [found]

theorem placed_known (named : ∀ entry ∈ entries, entry.1 ≠ [])
    (known : ∀ entry ∈ entries, tree.node? (goal ++ entry.1) = some entry.2) :
    placed goal tree entries = tree := by
  induction entries with
  | nil => rfl
  | cons entry entries ih =>
      rw [placed, List.foldl_cons, Tree.put_known (by simp [named entry]) (known entry (by simp))]
      exact ih (fun later member => named later (List.mem_cons_of_mem _ member))
        fun later member => known later (List.mem_cons_of_mem _ member)

theorem placed_again (fits : Fits goal tree entries) :
    placed goal (placed goal tree entries) entries = placed goal tree entries :=
  placed_known fits.named fun _ member => node_placed fits member

/-- The names for which something stays behind: those on the way to a directory, and those above a
file. -/
def onTheWay (names : Place) : Node → List String
  | .directory => names
  | .file _ => names.dropLast

theorem mem_staged (sound : tree.Sound) : (names, node) ∈ staged tree exclude origin ↔
    names ≠ [] ∧ tree.node? (origin ++ names) = some node ∧
      ∀ name ∈ onTheWay names node, name ∉ exclude := by
  rw [staged, List.mem_filter, sound.mem_below, and_assoc]
  refine and_congr_right fun _ => and_congr_right fun _ => ?_
  cases node <;> simp [staysBehind, onTheWay]

/-- No path is that of a file below one place and of a directory below the other. -/
def SameKinds (tree : Tree) (origin goal : Place) : Prop :=
  ∀ names node other, tree.node? (origin ++ names) = some node →
    tree.node? (goal ++ names) = some other →
    (node = .directory ↔ other = .directory)

theorem same_kinds_of_below (sound : tree.Sound) (root : tree.node? origin = some .directory)
    (there : tree.node? goal = some .directory)
    (kinds : ∀ entry ∈ tree.below origin, ∀ node ∈ tree.node? (goal ++ entry.1),
      (entry.2 = .directory ↔ node = .directory)) : SameKinds tree origin goal := by
  intro names node other found reached
  by_cases top : names = []
  · simp_all
  · exact kinds (names, node) (sound.mem_below.2 ⟨top, found⟩) other reached

theorem supported_staged (sound : tree.Sound) (there : made.node? goal = some .directory) :
    Supported goal made (staged tree exclude origin) := by
  refine ⟨fun entry member => ((mem_staged sound).1 member).1, fun entry member => ?_,
    sound.below_ordered.filter _⟩
  obtain ⟨named, found, kept⟩ := (mem_staged sound).1 member
  obtain ⟨front, last, same⟩ := (List.eq_nil_or_concat' entry.1).resolve_left named
  rw [same, ← List.append_assoc] at found
  rw [same] at kept ⊢
  rw [List.dropLast_concat]
  by_cases top : front = []
  · rw [top, List.append_nil]
    exact .inl there
  · have isDirectory := sound.parent (by rw [found]; exact Option.some_ne_none _)
    refine .inr ((mem_staged sound).2 ⟨top, isDirectory, fun name onWay => kept name ?_⟩)
    cases entry.2 with
    | directory => exact List.mem_append_left _ onWay
    | file content => rwa [onTheWay, List.dropLast_concat]

theorem fits_staged (sound : tree.Sound) (there : tree.node? goal = some .directory)
    (kinds : SameKinds tree origin goal) : Fits goal tree (staged tree exclude origin) := by
  obtain ⟨named, supported, ordered⟩ := @supported_staged tree tree origin goal exclude sound there
  refine ⟨named, supported, ordered, fun entry member node found => ?_⟩
  obtain ⟨-, there, -⟩ := (mem_staged sound).1 member
  exact kinds _ _ _ there found

theorem mem_on_the_way {above below : Place} {name : String}
    (top : tree.node? (origin ++ above ++ [name]) = some .directory)
    (found : tree.node? (origin ++ (above ++ name :: below)) = some node) :
    name ∈ onTheWay (above ++ name :: below) node := by
  cases node with
  | directory => exact List.mem_append_right _ List.mem_cons_self
  | file content =>
      cases below with
      | nil =>
          rw [← List.append_assoc, top] at found
          cases found
      | cons next rest =>
          rw [onTheWay, List.dropLast_append_of_ne_nil (List.cons_ne_nil _ _),
            List.dropLast_cons_of_ne_nil (List.cons_ne_nil _ _)]
          exact List.mem_append_right _ List.mem_cons_self

/-- What staging leaves at `goal` of the tree at `origin`, where directories of excluded names stay
behind. -/
structure Staged (origin goal : Place) (exclude : List String) (before after : Tree) : Prop where
  files : ∀ names content, before.node? (origin ++ names) = some (.file content) →
    (∀ name ∈ names.dropLast, name ∉ exclude) → after.node? (goal ++ names) = some (.file content)
  directories : ∀ names, before.node? (origin ++ names) = some .directory →
    (∀ name ∈ names, name ∉ exclude) →
    after.node? (goal ++ names) = some .directory
  excluded : ∀ above name below, name ∈ exclude →
    before.node? (origin ++ above ++ [name]) = some .directory →
    after.node? (goal ++ above ++ name :: below) = before.node? (goal ++ above ++ name :: below)
  others : ∀ place, (∀ names, place = goal ++ names → before.node? (origin ++ names) = none) →
    after.node? place = before.node? place
  source : ∀ names, after.node? (origin ++ names) = before.node? (origin ++ names)

def Apart (first second : Place) : Prop :=
  ¬first <+: second ∧ ¬second <+: first

theorem Apart.outside (apart : Apart origin goal) : ¬origin <+: goal ++ names := by
  intro inside
  exact (List.prefix_or_prefix_of_prefix inside (List.prefix_append goal names)).elim
    apart.1 apart.2

theorem staged_placed (sound : tree.Sound) (root : tree.node? origin = some .directory)
    (there : tree.node? goal = some .directory) (apart : Apart origin goal)
    (kinds : SameKinds tree origin goal) :
    Staged origin goal exclude tree (placed goal tree (staged tree exclude origin)) := by
  have fits : Fits goal tree (staged tree exclude origin) := fits_staged sound there kinds
  have others (place : Place) (absent : ∀ names, place = goal ++ names →
      tree.node? (origin ++ names) = none) :
      (placed goal tree (staged tree exclude origin)).node? place = tree.node? place := by
    refine node_placed_other fits.named fun entry member same => ?_
    obtain ⟨-, found, -⟩ := (mem_staged sound).1 member
    simp [absent _ same] at found
  refine ⟨fun names content found kept => ?_, fun names found kept => ?_,
    fun above name below bad found => ?_, others, fun names => others _ fun below same =>
    absurd ⟨names, same⟩ apart.outside⟩
  · refine node_placed fits ((mem_staged sound).2 ⟨?_, found, kept⟩)
    rintro rfl
    rw [List.append_nil, root] at found
    cases found
  · by_cases top : names = []
    · rw [top, List.append_nil, node_placed_other fits.named, there]
      exact fun entry member same => fits.named entry member (List.self_eq_append_right.1 same)
    · exact node_placed fits ((mem_staged sound).2 ⟨top, found, kept⟩)
  · refine node_placed_other fits.named fun entry member same => ?_
    obtain ⟨-, inSource, kept⟩ := (mem_staged sound).1 member
    rw [List.append_assoc] at same
    rw [← List.append_cancel_left same] at inSource kept
    exact kept name (mem_on_the_way found inSource) bad

section Run

variable {source target : String} {start finish : Target}

structure Stages (source target : String) (exclude : List String) (before after : Tree)
    (start finish : Target) (made : Tree) : Prop where
  found : before.locate source = .ok start
  filled : before.isFilledDirectory source
  makes : before.makeDirectories target.toList = (made, none)
  reached : made.locate target = .ok finish
  copied : copyAll finish.place made (staged before exclude start.place) = (after, true)

theorem stage_ok (done : stage before source target exclude = (after, none)) :
    ∃ start finish made, Stages source target exclude before after start finish made := by
  unfold stage at done
  split at done
  · cases done
  · cases done
  · rename_i start checked found
    split at done
    · cases done
    · rename_i made ended
      split at done
      · cases done
      · rename_i finish reached
        split at done
        · rename_i copied whole
          obtain ⟨rfl, -⟩ := Prod.mk.inj done
          exact ⟨start, finish, made, found, by
            simpa [checkSource] using checked, ended, reached, whole⟩
        · cases done

theorem stage_done (stages : Stages source target exclude before after start finish made) :
    stage before source target exclude = (after, none) := by
  have checked : checkSource before source = none := if_pos stages.filled
  simp only [stage, checked, stages.found, stages.makes, stages.reached, stages.copied]

theorem stage_located (sound : tree.Sound) (found : tree.locate source = .ok start)
    (filled : tree.isFilledDirectory source) (reached : tree.locate target = .ok finish)
    (there : tree.isDirectory target)
    (fits : Fits finish.place tree (staged tree exclude start.place)) :
    stage tree source target exclude =
      (placed finish.place tree (staged tree exclude start.place), none) :=
  stage_done ⟨found, filled, Tree.make_directories_there sound there, reached, fits.copy_all⟩

/-- A tree staged into another one, apart from it and of the same kinds: everything that does not
stay behind is there, all else is as before, and staging again changes nothing. -/
theorem stage_exact (sound : tree.Sound) (found : tree.locate source = .ok start)
    (filled : tree.isFilledDirectory source) (reached : tree.locate target = .ok finish)
    (there : tree.isDirectory target) (apart : Apart start.place finish.place)
    (kinds : SameKinds tree start.place finish.place) :
    ∃ after, stage tree source target exclude = (after, none) ∧ after.Sound ∧
      Staged start.place finish.place exclude tree after ∧
        stage after source target exclude = (after, none) := by
  have ⟨isDirectory, given⟩ : tree.isDirectory source ∧ !(tree.below start.place).isEmpty := by
    simpa [Tree.isFilledDirectory, found] using filled
  have root := (Tree.is_directory_at found).1 isDirectory
  have goal := (Tree.is_directory_at reached).1 there
  have fits : Fits finish.place tree (staged tree exclude start.place) :=
    fits_staged sound goal kinds
  have exactly :
      Staged start.place finish.place exclude tree
      (placed finish.place tree (staged tree exclude start.place)) :=
      staged_placed sound root goal apart kinds
  refine ⟨_, stage_located sound found filled reached there fits, fits.sound_placed sound,
    exactly, ?_⟩
  -- What is to be copied is the same again, as nothing was put into the source.
  have below : (placed finish.place tree (staged tree exclude start.place)).below start.place =
      tree.below start.place := below_placed fun _ _ => apart.outside
  have same :
      staged (placed finish.place tree (staged tree exclude start.place)) exclude start.place =
      staged tree exclude start.place := by
    rw [staged, below, staged]
  have again := fits.again sound
  have unchanged := placed_again fits
  have kept (place : Place) (there : tree.node? place = some .directory) :=
    directory_placed fits there
  have sound_after := fits.sound_placed sound
  have whole := whole_placed finish.place tree (staged tree exclude start.place)
  generalize placed finish.place tree (staged tree exclude start.place) = after at *
  have still := Tree.locate_grown whole kept found
  have still_reached := Tree.locate_grown whole kept reached
  have filled_after : after.isFilledDirectory source := by
    simp [Tree.isFilledDirectory, still, (Tree.is_directory_at still).2 (kept _ root), below, given]
  rw [← same] at again
  rw [stage_located sound_after still filled_after still_reached
    ((Tree.is_directory_at still_reached).2 (kept _ goal)) again, same, unchanged]

/-- A file of an excluded name is copied, a directory of that name is not, at any depth; what the
target had under that name stays. -/
theorem checkout_staged :
    let tree : Tree :=
      { nodes :=
          ⟨[(["src"], .directory), (["src", "a.c"], .file (.text "new")),
            (["src", "lib"], .directory), (["src", "lib", ".git"], .directory),
            (["src", "lib", ".git", "HEAD"], .file (.text "ref")), (["src", "sub"], .directory),
            (["src", "sub", ".git"], .file (.text "gitdir")), (["out"], .directory),
            (["out", "a.c"], .file (.text "old")), (["out", "lib"], .directory),
            (["out", "lib", ".git"], .directory),
            (["out", "lib", ".git", "kept"], .file (.text "kept"))]⟩ }
    (tree.Sound ∧ tree.locate "src" = .ok { place := ["src"] } ∧ tree.isFilledDirectory "src" ∧
      tree.locate "out/" = .ok { place := ["out"], slashed := true } ∧ tree.isDirectory "out/" ∧
      Apart ["src"] ["out"] ∧ SameKinds tree ["src"] ["out"]) ∧
    ∃ after, stage tree "src" "out/" defaultExclude = (after, none) ∧
      after.node? ["out", "a.c"] = some (.file (.text "new")) ∧
      after.node? ["out", "sub", ".git"] = some (.file (.text "gitdir")) ∧
      after.node? ["out", "lib", ".git", "HEAD"] = none ∧
      after.node? ["out", "lib", ".git", "kept"] = some (.file (.text "kept")) ∧
      stage after "src" "out/" defaultExclude = (after, none) := by
  intro tree
  have sound : tree.Sound := ⟨by decide, by decide, by decide⟩
  have found : tree.locate "src" = .ok { place := ["src"] } := by decide
  have filled : tree.isFilledDirectory "src" := by decide
  have reached : tree.locate "out/" = .ok { place := ["out"], slashed := true } := by decide
  have there : tree.isDirectory "out/" := by decide
  have apart : Apart ["src"] ["out"] := ⟨by decide, by decide⟩
  have kinds : SameKinds tree ["src"] ["out"] :=
    same_kinds_of_below sound (by decide) (by decide) (by decide)
  obtain ⟨after, first, -, staged, again⟩ :=
    @stage_exact tree defaultExclude _ _ _ _ sound found filled reached there apart kinds
  refine ⟨⟨sound, found, filled, reached, there, apart, kinds⟩, after, first, ?_, ?_, ?_, ?_, again⟩
  · exact staged.files ["a.c"] _ (by decide) (by decide)
  · exact staged.files ["sub", ".git"] _ (by decide) (by decide)
  · exact (staged.excluded ["lib"] ".git" ["HEAD"] (by decide) (by decide)).trans (by decide)
  · exact (staged.excluded ["lib"] ".git" ["kept"] (by decide) (by decide)).trans (by decide)

end Run

end HeaderDocs.Build
