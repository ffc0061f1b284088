import HeaderDocs.Proofs.Files.Normal
import HeaderDocs.Proofs.Site.Pages

/-!
What a page is called. A header below the directory of the headers is called by the names that lead
to it from there, so two of them share a page only if they are one file; what stands elsewhere is
called by its last name alone. Below is told name by name: a directory whose name merely starts like
that of the other is elsewhere. Nothing is assumed of the files themselves, which need not be there.
-/

namespace HeaderDocs.Site.State

set_option autoImplicit false

def Below (root file : String) : Prop :=
  ∃ rest, rest ≠ [] ∧ Path.names (Path.absolute file) = Path.names (Path.absolute root) ++ rest

variable {root file other : String}

theorem page_label_named (named : file ≠ "") (single : Path.isDoublyRooted root = false) :
    pageLabel root file =
      if Path.names (Path.absolute root) <+: Path.names (Path.absolute file) then
        Path.relative (Path.absolute file) (Path.absolute root)
      else Path.leaf (Path.absolute file) := by
  have given : file.isEmpty = false := by simpa using named
  simp only [pageLabel, given, Bool.false_eq_true, if_false, Path.common_directory_eq_iff single]

theorem page_label_below (named : file ≠ "") (single : Path.isDoublyRooted root = false)
    {rest : List String} (some : rest ≠ [])
    (below : Path.names (Path.absolute file) = Path.names (Path.absolute root) ++ rest) :
    pageLabel root file = Path.ofNames rest := by
  have inside : Path.names (Path.absolute root) <+: Path.names (Path.absolute file) :=
    ⟨rest, below.symm⟩
  rw [page_label_named named single, if_pos inside, Path.relative_below some below]

theorem page_label_beside (named : file ≠ "") (single : Path.isDoublyRooted root = false)
    (singleFile : Path.isDoublyRooted file = false)
    (beside : ¬ Path.names (Path.absolute root) <+: Path.names (Path.absolute file)) :
    pageLabel root file = (Path.names (Path.absolute file)).getLastD "" := by
  rw [page_label_named named single, if_neg beside, Path.absolute_of_names singleFile,
    Path.leaf_of_names (Path.names_absolute_proper file), ← Path.absolute_of_names singleFile]

theorem page_label_eq_iff (named : file ≠ "") (namedOther : other ≠ "")
    (single : Path.isDoublyRooted root = false) (singleFile : Path.isDoublyRooted file = false)
    (singleOther : Path.isDoublyRooted other = false) (below : Below root file)
    (belowOther : Below root other) :
    pageLabel root other = pageLabel root file ↔ Path.absolute other = Path.absolute file := by
  obtain ⟨rest, some, names⟩ := below
  obtain ⟨others, someOther, namesOther⟩ := belowOther
  have proper : ∀ name ∈ rest, Path.IsProper name := fun name member =>
    Path.names_absolute_proper file name (by simp [names, member])
  have properOther : ∀ name ∈ others, Path.IsProper name := fun name member =>
    Path.names_absolute_proper other name (by simp [namesOther, member])
  rw [page_label_below named single some names,
    page_label_below namedOther single someOther namesOther,
    Path.absolute_eq_iff singleOther singleFile, names, namesOther, List.append_cancel_left_eq]
  exact ⟨Path.of_names_inj properOther proper, congrArg Path.ofNames⟩

theorem label_names (root file : String) :
    ∃ front last, (∀ name ∈ front, Path.IsProper name) ∧ '/' ∉ last.toList ∧
    pageLabel root file = Path.ofNames (front ++ [last]) := by
  unfold pageLabel
  split
  · exact ⟨[], "builtin", by simp, by decide, rfl⟩
  · simp only
    split
    · rename_i inside
      have proper := Path.names_absolute_proper file
      have shared :
          Path.commonNames (Path.names (Path.absolute file)) (Path.names (Path.absolute root)) =
            Path.names (Path.absolute root) := by
        have properShared (name : String)
            (member : name ∈ Path.commonNames (Path.names (Path.absolute file))
              (Path.names (Path.absolute root))) : Path.IsProper name := by
          rw [← (Path.common_names_take _ _).1] at member
          exact proper name (List.mem_of_mem_take member)
        rw [← (Path.rooted_of_names (Or.inl rfl) properShared).2]
        exact congrArg Path.names inside
      obtain ⟨rest, below⟩ := (Path.common_names_eq_iff _ _).1 shared
      by_cases named : rest = []
      · rw [named, List.append_nil] at below
        refine ⟨[], ".", by simp, by decide, ?_⟩
        rw [Path.relative_same below.symm, List.nil_append, Path.ofNames,
          String.intercalate_singleton]
      · obtain ⟨front, last, split⟩ := (List.eq_nil_or_concat' rest).resolve_left named
        have properRest : ∀ name ∈ front ++ [last], Path.IsProper name := fun name member =>
          proper name (by rw [← below, split]; exact List.mem_append_right _ member)
        refine ⟨front, last, fun name member => properRest name (by simp [member]),
          (properRest last (by simp)).2.2.2, ?_⟩
        rw [Path.relative_below named below.symm, split]
    · refine ⟨[], Path.leaf (Path.absolute file), by simp, ?_, by simp [Path.ofNames]⟩
      rw [Path.leaf, String.toList_ofList]
      exact (Path.split_leaf_spec _).1

theorem page_uri_plain {directory : String}
    (plain : ∀ piece ∈ Path.pieces directory, Path.IsProper piece) {label : String}
    {front : List String} {last : String} (proper : ∀ name ∈ front, Path.IsProper name)
    (noSlash : '/' ∉ last.toList) (named : label = Path.ofNames (front ++ [last])) :
    ∀ piece ∈ Path.pieces (pageUri directory label), Path.IsProper piece := by
  have noSlashes : ∀ name ∈ front ++ [last ++ ".md"], '/' ∉ name.toList := by
    intro name member
    rcases List.mem_append.1 member with before | ending
    · exact (proper name before).2.2.2
    · simpa [List.mem_singleton.1 ending] using noSlash
  have parts : Path.pieces (pageUri directory label) = Path.pieces directory ++
      (front ++ [last ++ ".md"]) := by
    rw [pageUri, String.append_assoc, named, Path.of_names_append, Path.pieces_append_slash,
      Path.pieces_of_names noSlashes (by simp)]
  have long : 3 ≤ (last ++ ".md").length := by
    have ending : ".md".length = 3 := by decide
    rw [String.length_append, ending]
    omega
  intro piece member
  rw [parts] at member
  rcases List.mem_append.1 member with before | inLabel
  · exact plain piece before
  · rcases List.mem_append.1 inLabel with inFront | ending
    · exact proper piece inFront
    · rw [List.mem_singleton.1 ending]
      refine ⟨?_, ?_, ?_, noSlashes _ (by simp)⟩
      all_goals
        intro same
        rw [same] at long
        exact absurd long (by decide)

/-- A file below the directory of the headers is labelled by a plain relative path that leads back
to it from that directory, and such files share a label, and the address of a page, exactly if they
are the same file; a file that neither is the directory nor stands below it is labelled by its last
name. -/
theorem files_labelled_exactly (named : file ≠ "") (single : Path.isDoublyRooted root = false)
    (singleFile : Path.isDoublyRooted file = false) :
    let label := pageLabel root file
    (Below root file →
      Path.isAbsolute label = false ∧ (∀ piece ∈ Path.pieces label, Path.IsProper piece) ∧
        Path.join (Path.absolute root) label = Path.absolute file ∧
        ∀ other directory, other ≠ "" → Path.isDoublyRooted other = false → Below root other →
          (pageLabel root other = label ↔ Path.absolute other = Path.absolute file) ∧
            (pageUri directory (pageLabel root other) = pageUri directory label ↔
              Path.absolute other = Path.absolute file)) ∧
      (¬ Path.names (Path.absolute root) <+: Path.names (Path.absolute file) →
        label = (Path.names (Path.absolute file)).getLastD "") := by
  intro label
  refine ⟨fun below => ?_, page_label_beside named single singleFile⟩
  obtain ⟨rest, some, names⟩ := id below
  have called : label = Path.ofNames rest := page_label_below named single some names
  have proper : ∀ name ∈ rest, Path.IsProper name := fun name member =>
    Path.names_absolute_proper file name (by simp [names, member])
  have parts : Path.pieces label = rest := by
    rw [called, Path.pieces_of_names (fun name member => (proper name member).2.2.2) some]
  have unrooted : Path.isAbsolute label = false := by
    obtain ⟨first, others, rfl⟩ := List.exists_cons_of_ne_nil some
    exact Path.unrooted_of_pieces parts (proper first (by simp)).1
  refine ⟨unrooted, by rwa [parts], ?_, fun other directory namedOther singleOther belowOther => ?_⟩
  · rw [called] at unrooted ⊢
    rw [Path.absolute_of_names single,
      Path.join_of_names (Path.names_absolute_proper root) unrooted some, ← names,
      ← Path.absolute_of_names singleFile]
  · have apart := page_label_eq_iff named namedOther single singleFile singleOther below belowOther
    exact ⟨apart, page_uri_inj.trans apart⟩

/-- One header under two names, another header, and one in a directory whose name starts like that
of the headers. -/
theorem headers_labelled_apart :
    let file := "proj/i/../i//sub/./a.h"
    let again := "/w/proj/i/sub/a.h"
    let beside := "proj/index/a.h"
    (file ≠ "" ∧ Path.isDoublyRooted "proj/i" = false ∧ Path.isDoublyRooted file = false) ∧
      (Below "proj/i" file ∧ Below "proj/i" again ∧ Below "proj/i" "proj/i/b.h") ∧
      pageLabel "proj/i" file = "sub/a.h" ∧
      Path.join (Path.absolute "proj/i") "sub/a.h" = Path.absolute file ∧
      pageLabel "proj/i" again = pageLabel "proj/i" file ∧
      pageLabel "proj/i" "proj/i/b.h" ≠ pageLabel "proj/i" file ∧
      pageLabel "proj/i" beside = "a.h" := by
  intro file again beside
  have below : Below "proj/i" file := ⟨["sub", "a.h"], by decide, by decide +kernel⟩
  have belowAgain : Below "proj/i" again := ⟨["sub", "a.h"], by decide, by decide +kernel⟩
  have belowOther : Below "proj/i" "proj/i/b.h" := ⟨["b.h"], by decide, by decide +kernel⟩
  have label : pageLabel "proj/i" file = "sub/a.h" := by decide +kernel
  obtain ⟨-, -, joined, apart⟩ :=
    (@files_labelled_exactly "proj/i" file (by decide) (by decide) (by decide +kernel)).1 below
  have elsewhere :=
    (@files_labelled_exactly "proj/i" beside (by decide) (by decide) (by decide)).2
      (by decide +kernel)
  rw [label] at joined
  refine ⟨⟨by decide, by decide, by decide +kernel⟩, ⟨below, belowAgain, belowOther⟩, label, joined,
    ?_, ?_, ?_⟩
  · exact ((apart again "out" (by decide) (by decide +kernel) belowAgain).1).2 (by decide +kernel)
  · exact fun same => absurd (((apart _ "out" (by decide) (by decide) belowOther).1).1 same)
      (by decide +kernel)
  · rw [elsewhere]
    decide +kernel

end HeaderDocs.Site.State
