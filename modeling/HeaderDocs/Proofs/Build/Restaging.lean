import HeaderDocs.Proofs.Build.Staging

/-!
Staging again over what was staged before. Nothing is asked of what the target holds: a directory
stays where a file of its name comes, and the file goes into it. What one staging put where, the
next one puts there again, in any tree that still has a directory wherever there was one, and a file
wherever there was one.
-/

namespace HeaderDocs.Build

set_option autoImplicit false

variable {tree before after later made : Tree} {goal place names front : Place} {last : String}
    {node : Node}
  {content : Content} {entry : Place × Node} {entries : List (Place × Node)} {exclude : List String}

def Free (tree : Tree) (place : Place) (node : Node) : Prop :=
  ∀ other, tree.node? place = some other → (node = .directory ↔ other = .directory)

theorem free_directory_iff :
    Free tree place .directory ↔ ∀ content, tree.node? place ≠ some (.file content) := by
  refine ⟨fun free content there => by simpa using free _ there, fun free other there => ?_⟩
  cases other with
  | directory => simp
  | file content => exact absurd there (free content)

theorem free_file_iff : Free tree place (.file content) ↔ tree.node? place ≠ some .directory := by
  refine ⟨fun free there => by simpa using free _ there, fun free other there => ?_⟩
  cases other with
  | directory => exact absurd there free
  | file held => simp

/-- Where there is a directory in one tree there is one in the other, and so for files, whatever
they hold. -/
structure Kept (before after : Tree) : Prop where
  whole : after.whole = before.whole
  directory : ∀ place, before.node? place = some .directory → after.node? place = some .directory
  file : ∀ place content, before.node? place = some (.file content) →
    ∃ other, after.node? place = some (.file other)

namespace Kept

theorem refl (tree : Tree) : Kept tree tree :=
  ⟨rfl, fun _ there => there, fun _ content there => ⟨content, there⟩⟩

theorem trans (first : Kept before after) (second : Kept after later) : Kept before later := by
  refine ⟨second.whole.trans first.whole,
    fun place there => second.directory place (first.directory place there),
    fun place content there => ?_⟩
  obtain ⟨other, found⟩ := first.file place content there
  exact second.file place other found

theorem of_grown (grown : Tree.Grown before after) : Kept before after :=
  ⟨grown.whole, fun place => grown.node place .directory, fun place content there =>
    ⟨content, grown.node place _ there⟩⟩

theorem put (kept : Kept before after) (named : place ≠ []) (free : Free before place node) :
    Kept before (after.put place node) := by
  refine ⟨kept.whole, fun other there => ?_, fun other content there => ?_⟩
  · rw [Tree.node_put named]
    split
    · rename_i same
      rw [(free _ (same ▸ there)).2 rfl]
    · exact kept.directory other there
  · rw [Tree.node_put named]
    split
    · rename_i same
      have isFile := (free _ (same ▸ there)).1
      cases node with
      | directory => simp at isFile
      | file held => exact ⟨held, rfl⟩
    · exact kept.file other content there

theorem free (kept : Kept before after)
    (there : before.node? place = some node) : Free after place node := by
  cases node with
  | directory =>
      rw [free_directory_iff, kept.directory place there]
      simp
  | file content =>
      obtain ⟨other, found⟩ := kept.file place content there
      rw [free_file_iff, found]
      simp

end Kept

/-- Something can be put in a place below the target: it goes into a directory, and nothing of the
other kind is there. -/
structure Lands (goal : Place) (tree : Tree) (names : Place) (node : Node) : Prop where
  named : names ≠ []
  inside : tree.node? (goal ++ names).dropLast = some .directory
  free : Free tree (goal ++ names) node

/-- Something is copied to a place, and to the same place in any tree that keeps the kinds. -/
structure Puts (goal : Place) (tree : Tree) (entry : Place × Node) (names : Place) : Prop where
  same : entry.2 = .directory → names = entry.1
  copied : copyNode goal tree entry = (tree.put (goal ++ names) entry.2, true)
  again : ∀ later, Kept (tree.put (goal ++ names) entry.2) later →
    copyNode goal later entry = (later.put (goal ++ names) entry.2, true)

namespace Lands

theorem goal_named (lands : Lands goal tree names node) : goal ++ names ≠ [] := by
  simp [lands.named]

theorem kept (lands : Lands goal tree names node) : Kept tree (tree.put (goal ++ names) node) :=
  (Kept.refl tree).put lands.goal_named lands.free

theorem sound (lands : Lands goal tree names node) (sound : tree.Sound) :
    (tree.put (goal ++ names) node).Sound := by
  refine sound.put lands.goal_named lands.inside ?_
  by_cases isDirectory : node = .directory
  · exact .inl isDirectory
  · exact .inr fun there => isDirectory ((lands.free _ there).2 rfl)

theorem goal_stays (lands : Lands goal tree names node) :
    (tree.put (goal ++ names) node).node? goal = tree.node? goal := by
  rw [Tree.node_put lands.goal_named, if_neg]
  simp [lands.named]

theorem puts (lands : Lands goal tree names entry.2) (same : entry.2 = .directory → names = entry.1)
    (copied : ∀ later, Kept tree later → Free later (goal ++ names) entry.2 →
      copyNode goal later entry =
    (later.put (goal ++ names) entry.2, true)) : Puts goal tree entry names := by
  refine ⟨same, copied tree (Kept.refl tree) lands.free,
    fun later kept => copied later (lands.kept.trans kept) ?_⟩
  exact kept.free (by rw [Tree.node_put lands.goal_named, if_pos rfl])

end Lands

theorem copy_directory (inside : tree.node? (goal ++ front) = some .directory)
    (free : Free tree (goal ++ (front ++ [last])) .directory) :
    copyNode goal tree (front ++ [last], .directory) =
      (tree.put (goal ++ (front ++ [last])) .directory, true) := by
  simp only [copyNode, List.dropLast_append_of_ne_nil (List.concat_ne_nil last front),
    List.dropLast_concat, inside, bne_self_eq_false, Bool.false_eq_true, if_false]
  cases found : tree.node? (goal ++ (front ++ [last])) with
  | none => rfl
  | some node =>
      obtain rfl := (free node found).1 rfl
      rw [Tree.put_known (by simp) found]

theorem copy_file (inside : tree.node? (goal ++ front) = some .directory)
    (free : Free tree (goal ++ (front ++ [last])) (.file content)) :
    copyNode goal tree (front ++ [last], .file content) =
      (tree.put (goal ++ (front ++ [last])) (.file content), true) := by
  simp only [copyNode, List.dropLast_append_of_ne_nil (List.concat_ne_nil last front),
    List.dropLast_concat, inside, bne_self_eq_false, Bool.false_eq_true, if_false, copyFile]
  cases found : tree.node? (goal ++ (front ++ [last])) with
  | none => rfl
  | some node =>
      cases node with
      | directory => exact absurd found (free_file_iff.1 free)
      | file held => rfl

theorem copy_file_into (inside : tree.node? (goal ++ front) = some .directory)
    (barred : tree.node? (goal ++ (front ++ [last])) = some .directory) :
    copyNode goal tree (front ++ [last], .file content) =
      if tree.node? (goal ++ (front ++ [last, last])) = some .directory then (tree, false)
      else (tree.put (goal ++ (front ++ [last, last])) (.file content), true) := by
  simp [copyNode, inside, copyFile, barred]

/-- Where something is put depends on kinds alone. Nothing is done if the directory for it is not
there, or if something of the other kind is in its way. -/
theorem copy_node_cases (named : entry.1 ≠ []) :
    ((copyNode goal tree entry).1 = tree ∧
      (tree.node? (goal ++ entry.1.dropLast) = some .directory →
        (copyNode goal tree entry).2 = false)) ∨
    ∃ names, Lands goal tree names entry.2 ∧ Puts goal tree entry names := by
  obtain ⟨names, node⟩ := entry
  obtain ⟨front, last, rfl⟩ := (List.eq_nil_or_concat' names).resolve_left named
  simp only [List.dropLast_concat]
  by_cases inside : tree.node? (goal ++ front) = some .directory
  · have above : tree.node? (goal ++ (front ++ [last])).dropLast = some .directory := by
      rwa [← List.append_assoc, List.dropLast_concat]
    by_cases free : Free tree (goal ++ (front ++ [last])) node
    · have lands : Lands goal tree (front ++ [last]) node := ⟨by simp, above, free⟩
      refine .inr ⟨_, lands, lands.puts (fun _ => rfl) fun later kept still => ?_⟩
      cases node with
      | directory => exact copy_directory (kept.directory _ inside) still
      | file content => exact copy_file (kept.directory _ inside) still
    · cases node with
      | directory =>
          simp only [free_directory_iff, not_forall, not_not] at free
          obtain ⟨content, barred⟩ := free
          left
          simp [copyNode, inside, barred]
      | file content =>
          rw [free_file_iff, not_not] at free
          by_cases filled : tree.node? (goal ++ (front ++ [last, last])) = some .directory
          · left
            rw [copy_file_into inside free, if_pos filled]
            simp
          · have cut : (goal ++ (front ++ [last, last])).dropLast = goal ++ (front ++ [last]) := by
              rw [List.append_cons front last [last], ← List.append_assoc, List.dropLast_concat]
            have lands : Lands goal tree (front ++ [last, last]) (.file content) :=
              ⟨by simp, by rw [cut, free], free_file_iff.2 filled⟩
            refine .inr ⟨_, lands, lands.puts (fun isDirectory => by cases isDirectory)
              fun later kept still => ?_⟩
            rw [copy_file_into (kept.directory _ inside) (kept.directory _ free),
              if_neg (free_file_iff.1 still)]
  · left
    have skipped : copyNode goal tree (front ++ [last], node) = (tree, true) := by
      simp [copyNode, inside]
    simp [skipped, inside]

theorem copy_all_keeps (sound : tree.Sound) (named : ∀ entry ∈ entries, entry.1 ≠ []) :
    (copyAll goal tree entries).1.Sound ∧ Kept tree (copyAll goal tree entries).1 ∧
      (copyAll goal tree entries).1.node? goal = tree.node? goal := by
  induction entries generalizing tree with
  | nil => exact ⟨sound, Kept.refl tree, rfl⟩
  | cons entry entries ih =>
      have others : ∀ later ∈ entries, later.1 ≠ [] :=
        fun later member => named later (List.mem_cons_of_mem _ member)
      rcases @copy_node_cases tree goal entry (named entry (by simp))
        with ⟨same, -⟩ | ⟨names, lands, puts⟩
      · simp only [copyAll, same]
        exact ih sound others
      · simp only [copyAll, puts.copied]
        obtain ⟨soundAfter, kept, stays⟩ := ih (lands.sound sound) others
        exact ⟨soundAfter, lands.kept.trans kept, stays.trans lands.goal_stays⟩

/-- What one copying put where: the next one puts it there again. -/
structure Copies (goal : Place) (entries : List (Place × Node)) (before after : Tree)
    (puts : List (Place × Node)) :
    Prop where
  named : ∀ put ∈ puts, put.1 ≠ []
  result : after = placed goal before puts
  kept : Kept before after
  again : ∀ later, Kept after later → copyAll goal later entries = (placed goal later puts, true)

theorem Supported.tail (held : Supported goal before (entry :: entries))
    (lands : Lands goal before names entry.2) (puts : Puts goal before entry names) :
    Supported goal (before.put (goal ++ names) entry.2) entries := by
  refine ⟨fun later member => held.named later (List.mem_cons_of_mem _ member),
    fun later member => ?_, (List.pairwise_cons.1 held.ordered).2⟩
  rcases held.supported later (List.mem_cons_of_mem _ member) with there | listed
  · exact .inl (lands.kept.directory _ there)
  · rcases List.mem_cons.1 listed with first | others
    · left
      rw [← first] at lands puts ⊢
      rw [puts.same rfl, Tree.node_put (puts.same rfl ▸ lands.goal_named), if_pos rfl]
    · exact .inr others

theorem copies (held : Supported goal before entries)
    (copied : copyAll goal before entries = (after, true)) :
    ∃ puts, Copies goal entries before after puts := by
  induction entries generalizing before with
  | nil =>
      obtain ⟨rfl, -⟩ := Prod.mk.inj copied
      exact ⟨[], by simp, rfl, Kept.refl before, fun later _ => rfl⟩
  | cons entry entries ih =>
      rcases @copy_node_cases before goal entry (held.named entry (by simp))
        with ⟨-, lost⟩ | ⟨names, lands, puts⟩
      · have failed := congrArg Prod.snd copied
        simp [copyAll, lost held.head] at failed
      · simp only [copyAll, puts.copied, Bool.true_and] at copied
        obtain ⟨others, further⟩ := ih (held.tail lands puts) copied
        refine ⟨(names, entry.2) :: others, ?_, further.result, lands.kept.trans further.kept,
          fun later kept => ?_⟩
        · exact List.forall_mem_cons.2 ⟨lands.named, further.named⟩
        · have still : Kept after (later.put (goal ++ names) entry.2) := kept.put lands.goal_named
            (further.kept.free (by rw [Tree.node_put lands.goal_named, if_pos rfl]))
          simp only [copyAll, puts.again later (further.kept.trans kept), further.again _ still,
            Bool.true_and]
          rfl

theorem node_placed_cases (named : ∀ entry ∈ entries, entry.1 ≠ []) (place : Place) :
    (∀ tree, (placed goal tree entries).node? place = tree.node? place) ∨
      ∃ node, ∀ tree, (placed goal tree entries).node? place = some node := by
  induction entries with
  | nil => exact .inl fun tree => rfl
  | cons entry entries ih =>
      have first (tree : Tree) : (tree.put (goal ++ entry.1) entry.2).node? place =
          if place = goal ++ entry.1 then some entry.2 else tree.node? place :=
        Tree.node_put (by simp [named entry])
      rcases ih fun later member => named later (List.mem_cons_of_mem _ member)
        with stays | ⟨node, last⟩
      · by_cases here : place = goal ++ entry.1
        · exact .inr ⟨entry.2, fun tree => (stays _).trans ((first tree).trans (if_pos here))⟩
        · exact .inl fun tree => (stays _).trans ((first tree).trans (if_neg here))
      · exact .inr ⟨node, fun tree => last _⟩

section Run

variable {source target : String} {origin finish : Target}

/-- What a staging put where, the next one puts there again, as long as the kinds are kept and the
source is as it was. -/
theorem Stages.again (sound : before.Sound)
    (stages : Stages source target exclude before after origin finish made)
    (followed : after.follow (after.start target) (Path.pieces target) = .ok place) :
    after.Sound ∧ Kept before after ∧ ∃ puts, (∀ put ∈ puts, put.1 ≠ []) ∧
      after = placed finish.place made puts ∧
      ∀ later, later.Sound → Kept after later →
        later.below origin.place = before.below origin.place →
        stage later source target exclude = (placed finish.place later puts, none) := by
  have grown : Tree.Grown before made := by
    have all := Tree.make_directories_grown sound target.toList
    rwa [stages.makes] at all
  have named : ∀ entry ∈ staged before exclude origin.place, entry.1 ≠ [] :=
    fun entry member => ((mem_staged sound).1 member).1
  obtain ⟨soundAfter, kept, stays⟩ : after.Sound ∧ Kept made after ∧
      after.node? finish.place = made.node? finish.place := by
    have all := @copy_all_keeps made finish.place _ grown.sound named
    rwa [stages.copied] at all
  have reached : after.locate target = .ok finish :=
    Tree.locate_grown kept.whole kept.directory stages.reached
  have isDirectory : after.node? finish.place = some .directory := by
    rw [Tree.located_of_followed reached followed]
    have start := (Tree.reaches_iff.1 (Tree.reached_of_located reached).1).2
    exact Tree.node_of_follow soundAfter start followed
  -- Copying leaves the target itself alone, so there was a directory before it began, and nothing
  -- was passed over.
  obtain ⟨puts, copied⟩ := copies (supported_staged sound (stays ▸ isDirectory)) stages.copied
  have all : Kept before after := (Kept.of_grown grown).trans kept
  refine ⟨soundAfter, all, puts, copied.named, copied.result,
    fun later soundLater further same => ?_⟩
  have whole := all.trans further
  have found : later.locate source = .ok origin :=
    Tree.locate_grown whole.whole whole.directory stages.found
  have still : later.locate target = .ok finish :=
    Tree.locate_grown further.whole further.directory reached
  have filled := Tree.filled_grown whole.whole whole.directory stages.found stages.filled same
  refine stage_done ⟨found, filled, ?_, still, ?_⟩
  · exact Tree.make_directories_there soundLater
      ((Tree.is_directory_at still).2 (further.directory _ isDirectory))
  · rw [staged, same]
    exact copied.again later further

end Run

end HeaderDocs.Build
