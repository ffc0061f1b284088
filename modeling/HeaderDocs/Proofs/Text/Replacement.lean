import HeaderDocs.Text.Find
import Mathlib.Data.List.Infix

/-!
Every occurrence of a part replaced. The occurrences are taken from the left and do not overlap.
Where the substitute has no character of the part, no occurrence comes about at its seams, so none
is left in the result, whatever overlapping occurrences there were.
-/

namespace HeaderDocs.Text

set_option autoImplicit false

variable {part substitute text result left middle right : List Char} {c : Char}

/-- The leftmost occurrence of a part replaced, and then those in what stands behind it. -/
inductive Replaced (part substitute : List Char) : List Char → List Char → Prop
  | absent {text : List Char} (none : ¬part <:+: text) : Replaced part substitute text text
  | leftmost {before after result : List Char} (first : ¬part <:+: before ++ part.dropLast)
      (later : Replaced part substitute after result) :
      Replaced part substitute (before ++ part ++ after) (before ++ substitute ++ result)

theorem Replaced.cons (later : Replaced part substitute text result) (other : ¬part <+: c :: text) :
    Replaced part substitute (c :: text) (c :: result) := by
  cases later with
  | absent none =>
      refine .absent ?_
      rw [List.infix_cons_iff]
      exact not_or.2 ⟨other, none⟩
  | @leftmost before after result first later =>
      refine @Replaced.leftmost part substitute (c :: before) after result ?_ later
      rw [List.cons_append, List.infix_cons_iff]
      refine not_or.2 ⟨fun starts => other (starts.trans ?_), first⟩
      rw [← List.cons_append, ← List.cons_append, ← List.cons_append, List.append_assoc]
      exact (List.prefix_append_right_inj _).2
        ((List.dropLast_prefix part).trans (List.prefix_append _ _))

theorem replace_from_skip (part substitute text : List Char) (skip : Nat) :
    replaceFrom part substitute skip text = replaceAll part substitute (text.drop skip) := by
  induction text generalizing skip with
  | nil => cases skip <;> rfl
  | cons c rest ih =>
      cases skip with
      | zero => rfl
      | succ skip => exact ih skip

theorem replace_all_found (some : part ≠ []) (rest : List Char) :
    replaceAll part substitute (part ++ rest) = substitute ++ replaceAll part substitute rest := by
  obtain ⟨first, others, rfl⟩ := List.exists_cons_of_ne_nil some
  have starts : startsWith (first :: others) (first :: (others ++ rest)) = true :=
    List.isPrefixOf_iff_prefix.2 (List.prefix_append (first :: others) rest)
  rw [List.cons_append, replaceAll, replaceFrom, if_pos starts, replace_from_skip]
  simp

theorem replace_all_missed (other : ¬part <+: c :: text) :
    replaceAll part substitute (c :: text) = c :: replaceAll part substitute text := by
  have missed : ¬startsWith part (c :: text) = true :=
    fun starts => other (List.isPrefixOf_iff_prefix.1 starts)
  rw [replaceAll, replaceFrom, if_neg missed]
  rfl

theorem replaced_all (some : part ≠ []) (text : List Char) :
    Replaced part substitute text (replaceAll part substitute text) := by
  by_cases starts : part <+: text
  · obtain ⟨rest, rfl⟩ := starts
    have shorter : rest.length < (part ++ rest).length := by
      have positive := List.length_pos_iff.2 some
      rw [List.length_append]
      omega
    have first : ¬part <:+: [] ++ part.dropLast := by
      intro inside
      have length := inside.length_le
      have positive := List.length_pos_iff.2 some
      rw [List.nil_append, List.length_dropLast] at length
      omega
    rw [replace_all_found some]
    exact .leftmost first (replaced_all some rest)
  · cases text with
    | nil => exact .absent fun inside => starts (List.infix_nil.1 inside ▸ List.prefix_rfl)
    | cons c rest =>
        rw [replace_all_missed starts]
        exact (replaced_all some rest).cons starts
termination_by text.length

theorem replace_all_absent (none : ¬part <:+: text) : replaceAll part substitute text = text := by
  induction text with
  | nil => rfl
  | cons c rest ih =>
      rw [List.infix_cons_iff, not_or] at none
      rw [replace_all_missed none.1, ih none.2]

/-- An occurrence without some character stands before that character or behind it. -/
theorem infix_past (other : c ∉ part) (inside : part <:+: left ++ c :: right) :
    part <:+: left ∨ part <:+: right := by
  obtain ⟨before, after, whole⟩ := inside
  rcases List.append_eq_append_iff.1 whole with ⟨rest, rfl, -⟩ | ⟨rest, longer, split⟩
  · exact .inl ⟨before, rest, rfl⟩
  · cases rest with
    | nil =>
        rw [List.append_nil] at longer
        exact .inl ⟨before, [], by rw [List.append_nil, longer]⟩
    | cons d others =>
        obtain ⟨rfl, rfl⟩ := List.cons.inj split
        rcases List.append_eq_append_iff.1 longer with ⟨between, -, spans⟩ | ⟨between, -, spans⟩
        · exact absurd (spans ▸ by simp) other
        · cases between with
          | nil =>
              rw [List.nil_append] at spans
              exact absurd (spans ▸ List.mem_cons_self) other
          | cons e between =>
              obtain ⟨rfl, rfl⟩ := List.cons.inj spans
              exact .inr ⟨between, after, rfl⟩

theorem infix_around (apart : ∀ c ∈ middle, c ∉ part) (some : middle ≠ [])
    (inside : part <:+: left ++ middle ++ right) :
    part <:+: left ∨ part <:+: right := by
  induction middle generalizing left with
  | nil => exact absurd rfl some
  | cons c rest ih =>
      rw [List.append_assoc, List.cons_append] at inside
      refine (infix_past (apart c List.mem_cons_self) inside).imp_right fun behind => ?_
      by_cases last : rest = []
      · rwa [last, List.nil_append] at behind
      · rcases @ih [] (fun d member => apart d (List.mem_cons_of_mem c member)) last behind
          with empty | found
        · exact List.infix_nil.1 empty ▸ List.nil_infix
        · exact found

theorem Replaced.none_left (replaced : Replaced part substitute text result)
    (apart : ∀ c ∈ substitute, c ∉ part) (some : substitute ≠ []) : ¬part <:+: result := by
  induction replaced with
  | absent none => exact none
  | leftmost first later ih =>
      intro inside
      rcases infix_around apart some inside with before | behind
      · exact first (before.trans (List.prefix_append _ _).isInfix)
      · exact ih behind

theorem Replaced.mem (replaced : Replaced part substitute text result) (member : c ∈ result) :
    c ∈ text ∨ c ∈ substitute := by
  induction replaced with
  | absent none => exact .inl member
  | leftmost first later ih =>
      simp only [List.mem_append] at member ⊢
      rcases member with (before | inside) | behind
      · exact .inl (.inl (.inl before))
      · exact .inr inside
      · exact (ih behind).imp_left .inr

end HeaderDocs.Text
