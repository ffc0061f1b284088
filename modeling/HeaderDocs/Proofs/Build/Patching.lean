import HeaderDocs.Build.Native
import HeaderDocs.Proofs.Build.Restaging
import HeaderDocs.Proofs.Text.Replacement

/-!
The staged source mended. After that the constant is nowhere in the file, whatever its text was, and
to mend it again changes nothing, nor does staging the same source again before. No more is asked of
the source than that it is still what it was, so it need not be apart from the target. A file that
holds no text, or is not there, is left as it is.
-/

namespace HeaderDocs.Build

set_option autoImplicit false

variable {tree after before again : Tree} {directory text : String} {place : Place}
    {content : Content}

/-- A text with line feeds for its line breaks, and quotients for all its constants. -/
structure Mended (text mended : String) : Prop where
  replaced :
    Text.Replaced "NAN".toList "(0.0/0.0)".toList (Text.normalizeBreaks text.toList) mended.toList
  none_left : ¬"NAN".toList <:+: mended.toList

theorem mended_patched (text : String) : Mended text (patchText text) := by
  have replaced : Text.Replaced "NAN".toList "(0.0/0.0)".toList (Text.normalizeBreaks text.toList)
      (patchText text).toList := by
    have chars : (patchText text).toList = Text.replaceAll "NAN".toList "(0.0/0.0)".toList
        (Text.normalizeBreaks text.toList) := String.toList_ofList
    rw [chars]
    exact Text.replaced_all (List.cons_ne_nil 'N' ['A', 'N']) _
  exact ⟨replaced, replaced.none_left (by simp) (by decide)⟩

theorem patch_text_patched (text : String) : patchText (patchText text) = patchText text := by
  obtain ⟨replaced, none_left⟩ := mended_patched text
  have normal : '\r' ∉ (patchText text).toList := fun member =>
    (replaced.mem member).elim (Text.return_not_mem_normalize_breaks _) (by decide)
  rw [patchText, Text.normalize_breaks_of_normal normal, Text.replace_all_absent none_left,
    String.ofList_toList]

theorem read_at {path : String} (located : tree.locate path = .ok { place := place })
    (there : tree.node? place = some (.file content)) : tree.readFile path = .ok content := by
  simp [Tree.readFile, Tree.stat, located, there]

theorem located_of_read {path : String} (read : tree.readFile path = .ok content) :
    ∃ target, tree.locate path = .ok target ∧ tree.node? target.place = some (.file content) := by
  unfold Tree.readFile Tree.stat at read
  cases located : tree.locate path with
  | error dead => simp [located] at read
  | ok target =>
      refine ⟨target, rfl, ?_⟩
      cases there : tree.node? target.place with
      | none => simp [located, there] at read
      | some node =>
          cases node with
          | directory => simp [located, there] at read
          | file held =>
              cases slashed : target.slashed <;> simp_all

theorem geometry_located {target : Target}
    (located : tree.locate (geometryFile directory) = .ok target) :
    ∃ goal, tree.follow (tree.start directory) (Path.pieces directory) = .ok goal ∧
      target = { place := goal ++ ["source", "fitz", "geometry.c"] } := by
  obtain ⟨fitz, inFitz, rfl⟩ := Tree.located_join (by decide) located
  obtain ⟨source, inSource, rfl⟩ := Tree.followed_join (by decide) inFitz
  obtain ⟨goal, followed, rfl⟩ := Tree.followed_join (by decide) inSource
  have alike : Path.isAbsolute (Path.join (Path.join directory "source") "fitz") =
      Path.isAbsolute directory :=
    (Path.is_absolute_join _ (by decide)).trans (Path.is_absolute_join directory (by decide))
  exact ⟨goal, Tree.start_alike alike ▸ followed, by simp⟩

def mendedAt (tree : Tree) (place : Place) (text : String) : Tree :=
  tree.put place (.file (.text (patchText text)))

theorem patch_at (located : tree.locate (geometryFile directory) = .ok { place := place })
    (there : tree.node? place = some (.file (.text text))) :
    patchGeometry tree directory = .ok (mendedAt tree place text) := by
  unfold patchGeometry
  rw [read_at located there]
  generalize geometryFile directory = path at located
  change tree.writeFile path _ = _
  unfold Tree.writeFile
  rw [located]
  simp [there, mendedAt]

section Mending

variable (there : tree.node? place = some (.file content))

include there

theorem node_mended (text : String) (other : Place) : (mendedAt tree place text).node? other =
    if other = place then some (.file (.text (patchText text))) else tree.node? other :=
  Tree.node_put (Tree.file_named there)

theorem kept_mended (text : String) : Kept tree (mendedAt tree place text) :=
  (Kept.refl tree).put (Tree.file_named there) (free_file_iff.2 (by simp [there]))

theorem locate_same {path : String} {target : Target} (located : tree.locate path = .ok target)
    (whole : after.whole = tree.whole)
    (others : ∀ other, other ≠ place → after.node? other = tree.node? other) :
    after.locate path = .ok target := by
  refine Tree.locate_grown whole (fun other isDirectory => ?_) located
  rw [others other, isDirectory]
  rintro rfl
  rw [there] at isDirectory
  cases isDirectory

end Mending

/-- Staging over the mended tree leaves the file as it is, or as it was before it was mended. -/
theorem staged_over {source : String} {exclude : List String} {origin : Target}
    (sound : before.Sound) (found : before.locate source = .ok origin)
    (done : stage before source directory exclude = (tree, none))
    (located : tree.locate (geometryFile directory) = .ok { place := place })
    (there : tree.node? place = some (.file (.text text)))
    (same : (mendedAt tree place text).below origin.place = before.below origin.place) :
    ∃ again, stage (mendedAt tree place text) source directory exclude = (again, none) ∧
      again.whole = tree.whole ∧ (∀ other, other ≠ place → again.node? other = tree.node? other) ∧
      ∃ held, again.node? place = some (.file (.text held)) ∧ patchText held = patchText text := by
  obtain ⟨start, finish, made, stages⟩ := stage_ok done
  obtain rfl : origin = start := Except.ok.inj (found.symm.trans stages.found)
  obtain ⟨goal, followed, -⟩ := geometry_located located
  obtain ⟨soundTree, -, puts, named, result, again⟩ := stages.again sound followed
  -- What the first staging put at a place, the second puts there again; else the place is as it was
  -- mended.
  refine ⟨_, again _ (soundTree.put_file there) (kept_mended there text) same,
    whole_placed finish.place _ puts, fun other differs => ?_, ?_⟩
  · rcases @node_placed_cases finish.place puts named other with stays | ⟨node, last⟩
    · rw [stays, node_mended there, if_neg differs]
    · rw [last, result, last]
  · rcases @node_placed_cases finish.place puts named place with stays | ⟨node, last⟩
    · exact ⟨patchText text, by rw [stays, node_mended there, if_pos rfl], patch_text_patched text⟩
    · refine ⟨text, ?_, rfl⟩
      rw [last, ← there, result, last]

/-- The file is mended once and for all, also when a source that is still what it was is staged over
it. Where it holds no text nothing is changed, and the build ends there. -/
theorem patch_geometry_settles (tree : Tree) (directory : String) :
    (∀ text, tree.readFile (geometryFile directory) = .ok (.text text) →
      ∃ after mended, Mended text mended ∧ patchGeometry tree directory = .ok after ∧
      after.readFile (geometryFile directory) = .ok (.text mended) ∧
      patchGeometry after directory = .ok after ∧
      ∀ before source exclude origin, before.Sound → before.locate source = .ok origin →
        stage before source directory exclude = (tree, none) →
          after.below origin.place = before.below origin.place →
        ∃ again final, stage after source directory exclude = (again, none) ∧
          patchGeometry again directory = .ok final ∧
          final.readFile (geometryFile directory) = .ok (.text mended) ∧
          ∀ place, final.node? place = after.node? place) ∧
    ((∀ text, tree.readFile (geometryFile directory) ≠ .ok (.text text)) →
      ∃ failure, patchGeometry tree directory = .error failure ∧
        ∀ workspace prepared config source out program, directory = Path.join out "build" →
          prepare workspace source directory = (prepared, none) → prepared.tree = tree →
          buildSolution workspace config source out program = (prepared, .error failure)) := by
  constructor
  · intro text read
    obtain ⟨target, located, there⟩ := located_of_read read
    obtain ⟨goal, -, ended⟩ := geometry_located located
    obtain ⟨place, rfl⟩ : ∃ place, target = { place := place } := ⟨_, ended⟩
    have node := node_mended there text
    have here : (mendedAt tree place text).node? place = some (.file (.text (patchText text))) := by
      rw [node, if_pos rfl]
    have locatedAfter : (mendedAt tree place text).locate (geometryFile directory) =
        .ok { place := place } :=
        locate_same there located rfl fun other differs => by rw [node, if_neg differs]
    refine ⟨_, patchText text, mended_patched text, patch_at located there,
      read_at locatedAfter here, ?_, ?_⟩
    · rw [patch_at locatedAfter here, mendedAt, patch_text_patched,
        Tree.put_known (Tree.file_named here) here]
    · intro before source exclude origin sound found done same
      obtain ⟨again, repeated, whole, others, held, stillThere, settled⟩ :=
        staged_over sound found done located there same
      have locatedAgain : again.locate (geometryFile directory) = .ok { place := place } :=
        locate_same there located whole others
      have final (other : Place) : (mendedAt again place held).node? other =
          (mendedAt tree place text).node? other := by
        rw [node_mended stillThere, node, settled]
        split
        · rfl
        · rename_i differs
          exact others other differs
      refine ⟨again, _, repeated, patch_at locatedAgain stillThere, ?_, final⟩
      exact read_at (locate_same here locatedAfter whole fun other _ => final other)
        ((final place).trans here)
  · intro unread
    obtain ⟨failure, failed⟩ : ∃ failure, patchGeometry tree directory = .error failure := by
      unfold patchGeometry
      split
      · exact ⟨_, rfl⟩
      · exact ⟨_, rfl⟩
      · rename_i text read
        exact absurd read (unread text)
    refine ⟨failure, failed, ?_⟩
    rintro workspace prepared config source out program rfl ready rfl
    simp only [buildSolution, ready, failed]

/-- Of two occurrences that overlap the first is replaced, and a carriage return goes. Bytes that
are no text stay. -/
theorem overlapping_mended :
    let before (content : Content) : Tree :=
      { nodes :=
          ⟨[(["src"], .directory), (["src", "source"], .directory),
            (["src", "source", "fitz"], .directory),
            (["src", "source", "fitz", "geometry.c"], .file content), (["build"], .directory)]⟩ }
    let tree (content held : Content) : Tree :=
      { nodes :=
          ⟨(before content).nodes.entries ++ [(["build", "source"], .directory),
            (["build", "source", "fitz"], .directory),
            (["build", "source", "fitz", "geometry.c"], .file held)]⟩ }
    let text : Content := .text "NANAN\r\n"
    let mended : Content := .text "(0.0/0.0)AN\n"
    let bytes : Content := .binary [0xff]
    (stage (before text) "src" "build" defaultExclude = (tree text text, none) ∧
      patchGeometry (tree text text) "build" = .ok (tree text mended) ∧
      patchGeometry (tree text mended) "build" = .ok (tree text mended) ∧
      ∃ again final, stage (tree text mended) "src" "build" defaultExclude = (again, none) ∧
        patchGeometry again "build" = .ok final ∧
          final.readFile (geometryFile "build") = .ok mended) ∧
    (stage (before bytes) "src" "build" defaultExclude = (tree bytes bytes, none) ∧
      ∃ failure, patchGeometry (tree bytes bytes) "build" = .error failure ∧
        buildSolution { tree := before bytes } {} "src" "" "msbuild.exe" =
          ({ tree := tree bytes bytes }, .error failure)) := by
  intro before tree text mended bytes
  have staging (content : Content) (sound : (before content).Sound)
      (found : (before content).locate "src" = .ok { place := ["src"] })
      (reached : (before content).locate "build" = .ok { place := ["build"] })
      (filled : (before content).isFilledDirectory "src")
      (there : (before content).isDirectory "build")
      (copied : copyAll ["build"] (before content)
        (staged (before content) defaultExclude ["src"]) =
        (tree content content, true)) :
      (before content).makeDirectories "build".toList = (before content, none) ∧
        stage (before content) "src" "build" defaultExclude = (tree content content, none) := by
    have made := Tree.make_directories_there sound there
    exact ⟨made, stage_done ⟨found, filled, made, reached, copied⟩⟩
  constructor
  · have sound : (before text).Sound := ⟨by decide, by decide, by decide⟩
    have found : (before text).locate "src" = .ok { place := ["src"] } := by decide
    obtain ⟨-, done⟩ := staging text sound found (by decide) (by decide) (by decide) rfl
    have read : (tree text text).readFile (geometryFile "build") = .ok text := by decide
    have patched : patchGeometry (tree text text) "build" = .ok (tree text mended) := rfl
    obtain ⟨after, result, -, first, readAfter, second, restaged⟩ :=
      (patch_geometry_settles _ _).1 _ read
    obtain rfl := Except.ok.inj (patched.symm.trans first)
    obtain ⟨again, final, repeated, last, readFinal, -⟩ :=
      restaged _ _ _ _ sound found done (by decide)
    have same : Content.text result = mended := Except.ok.inj (readAfter.symm.trans (by decide))
    exact ⟨done, patched, second, again, final, repeated, last, same ▸ readFinal⟩
  · have sound : (before bytes).Sound := ⟨by decide, by decide, by decide⟩
    obtain ⟨made, done⟩ := staging bytes sound (by decide) (by decide) (by decide) (by decide) rfl
    have unread (text : String) : (tree bytes bytes).readFile (geometryFile "build") ≠
        .ok (.text text) := by
      rw [show (tree bytes bytes).readFile (geometryFile "build") = .ok bytes by decide]
      simp [bytes]
    obtain ⟨failure, failed, kept⟩ := (patch_geometry_settles _ _).2 unread
    refine ⟨done, failure, failed,
      kept { tree := before bytes } { tree := tree bytes bytes } _ _ _ _ (by decide) ?_ rfl⟩
    simp only [prepare, made, done]
    rfl

end HeaderDocs.Build
