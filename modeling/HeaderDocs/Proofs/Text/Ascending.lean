import Mathlib.Data.List.Sort

/-!
Texts in ascending order. Different texts have one strictly ascending list, and sorting gives it,
whatever order they come in.
-/

namespace HeaderDocs.Text

set_option autoImplicit false

theorem sorted_iff {first second : String} :
    (!decide (second < first)) = true ↔ first ≤ second := by
  rw [Bool.not_eq_true', decide_eq_false_iff_not, String.not_lt]

theorem less_iff {first second : String} : first < second ↔ first ≤ second ∧ first ≠ second := by
  constructor
  · intro less
    refine ⟨String.not_lt.1 (String.lt_asymm less), ?_⟩
    rintro rfl
    exact String.lt_irrefl first less
  · rintro ⟨atMost, differs⟩
    by_contra notLess
    exact differs (String.le_antisymm atMost (String.not_lt.1 notLess))

theorem ascending_of_sorted {texts : List String} (distinct : texts.Nodup) :
    (texts.mergeSort fun first second => !(second < first)).Pairwise (· < ·) := by
  have sorted :=
    @List.pairwise_mergeSort String (fun first second => !(second < first))
      (fun first second third => by simpa only [sorted_iff] using String.le_trans)
      (fun first second => by
        simpa only [Bool.or_eq_true, sorted_iff] using String.le_total first second) texts
  exact (List.pairwise_and_iff.2 ⟨sorted, List.nodup_mergeSort.2 distinct⟩).imp fun both =>
    less_iff.2 (both.imp_left sorted_iff.1)

theorem nodup_of_ascending {texts : List String}
    (ascending : texts.Pairwise (· < ·)) : texts.Nodup :=
  ascending.imp fun less => (less_iff.1 less).2

theorem ascending_unique {texts others : List String} (ascending : texts.Pairwise (· < ·))
    (othersAscending : others.Pairwise (· < ·))
    (same : ∀ text, text ∈ texts ↔ text ∈ others) : texts = others := by
  refine List.Perm.eq_of_pairwise ?_ ascending othersAscending ?_
  · intro first second _ _ less more
    exact absurd (String.lt_trans less more) (String.lt_irrefl first)
  · rw [List.perm_ext_iff_of_nodup (nodup_of_ascending ascending)
      (nodup_of_ascending othersAscending)]
    exact same

theorem sorted_of_perm {texts others : List String} (permuted : texts.Perm others)
    (ascending : others.Pairwise (· < ·)) :
    (texts.mergeSort fun first second => !(second < first)) = others := by
  have distinct : texts.Nodup := permuted.nodup_iff.2 (nodup_of_ascending ascending)
  exact ascending_unique (ascending_of_sorted distinct) ascending fun text =>
    List.mem_mergeSort.trans permuted.mem_iff

end HeaderDocs.Text
