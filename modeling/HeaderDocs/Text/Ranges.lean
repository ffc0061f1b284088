/-!
Sets of code points given as ascending, disjoint, inclusive ranges, and membership in them.
-/

namespace HeaderDocs.Text

/-- Inclusive ranges of code points, in ascending order. -/
abbrev Ranges := List (Nat × Nat)

/-- Membership of a code point. The ranges ascend, so the search ends at the first range above
it. -/
def Ranges.has : Ranges → Nat → Bool
  | [], _ => false
  | (first, last) :: ranges, code =>
      if code < first then false
      else if code ≤ last then true
      else Ranges.has ranges code

def Ranges.find? : Ranges → Nat → Option (Nat × Nat)
  | [], _ => none
  | (first, last) :: ranges, code =>
      if code < first then none
      else if code ≤ last then some (first, last)
      else Ranges.find? ranges code

theorem Ranges.find_is_some (ranges : Ranges) (code : Nat) :
    (ranges.find? code).isSome = ranges.has code := by
  induction ranges with
  | nil => rfl
  | cons range ranges ih =>
      obtain ⟨first, last⟩ := range
      simp only [Ranges.find?, Ranges.has]
      split
      · rfl
      · split
        · rfl
        · exact ih

end HeaderDocs.Text
