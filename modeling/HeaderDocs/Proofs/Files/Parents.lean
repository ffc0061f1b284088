import HeaderDocs.Proofs.Files.Directories
import Mathlib.Data.List.TakeWhile

/-!
The directory part of a path taken again and again. It is shorter than the path unless the path is
made of slashes alone, and then it is the path itself. Of the pieces that are not empty, it has all
but the last. Paths may start at the root or not, and have any number of slashes between their
pieces and at their end.
-/

namespace HeaderDocs

set_option autoImplicit false

namespace Path

variable {path : String}

/-- A path of slashes alone, or empty. -/
def IsBare (path : String) : Prop := ∀ c ∈ path.toList, c = '/'

def parts (path : String) : List String := (pieces path).filter (· ≠ "")

def IsPlain (path : String) : Prop := ∀ piece ∈ pieces path, piece ≠ "." ∧ piece ≠ ".."

instance (path : String) : Decidable (IsPlain path) :=
  inferInstanceAs (Decidable (∀ piece ∈ pieces path, _))

theorem is_plain_iff : IsPlain path ↔ "." ∉ parts path ∧ ".." ∉ parts path := by
  simp only [IsPlain, parts, List.mem_filter, decide_eq_true_eq, forall_and]
  constructor
  · rintro ⟨single, double⟩
    exact ⟨fun member => single _ member.1 rfl, fun member => double _ member.1 rfl⟩
  · rintro ⟨single, double⟩
    refine ⟨fun piece member same => single ?_, fun piece member same => double ?_⟩
    · exact ⟨same ▸ member, by decide⟩
    · exact ⟨same ▸ member, by decide⟩

theorem plain_above {other : String} (plain : IsPlain path)
    (above : parts other <+: parts path) : IsPlain other := by
  rw [is_plain_iff] at plain ⊢
  exact ⟨fun member => plain.1 (above.subset member), fun member => plain.2 (above.subset member)⟩

theorem names_plain (plain : IsPlain path) : names path = parts path := by
  have walked (top : Bool) (pieces stack : List String) (plain : ∀ piece ∈ pieces, piece ≠ "." ∧
      piece ≠ "..") :
      walkFrom top stack pieces = (pieces.filter (· ≠ "")).reverse ++ stack := by
    induction pieces generalizing stack with
    | nil => rfl
    | cons piece rest ih =>
        obtain ⟨single, double⟩ := plain piece (by simp)
        have others :=
          ih (step top stack piece) fun other member => plain other (List.mem_cons_of_mem _ member)
        rw [walkFrom, List.foldl_cons, ← walkFrom, others]
        by_cases blank : piece = ""
        · simp [step, blank]
        · simp [step, blank, single, double]
  have whole := walked (isAbsolute path) (pieces path) [] plain
  rw [List.append_nil] at whole
  rw [names, collapse, ← walkFrom, whole, List.reverse_reverse, parts]

theorem parts_append_slash (first second : String) :
    parts (first ++ "/" ++ second) = parts first ++ parts second := by
  rw [parts, pieces_append_slash, List.filter_append, parts, parts]

theorem parts_slashes (count : Nat) (text : List Char) :
    parts (String.ofList (List.replicate count '/' ++ text)) = parts (String.ofList text) := by
  induction count with
  | zero => rfl
  | succ count ih =>
      have split : String.ofList (List.replicate (count + 1) '/' ++ text) =
          "" ++ "/" ++ String.ofList (List.replicate count '/' ++ text) := by
        rw [← String.toList_inj]
        simp [List.replicate_succ]
      rw [split, parts_append_slash, ih]
      rfl

theorem parts_leaf {leaf : List Char} (noSlash : '/' ∉ leaf) (given : leaf ≠ []) :
    parts (String.ofList leaf) = [String.ofList leaf] := by
  have single : pieces (ofNames [String.ofList leaf]) = [String.ofList leaf] :=
    pieces_of_names (by simpa using noSlash) (by simp)
  rw [ofNames, String.intercalate_singleton] at single
  simp [parts, single, given]

/-- The directory part stands before the last piece, without the slashes between them unless it has
nothing else. -/
theorem parent_cases (path : String) : ∃ leaf, '/' ∉ leaf ∧
    ((∃ count, parent path = String.ofList (List.replicate count '/') ∧
      path = String.ofList (List.replicate count '/' ++ leaf)) ∨
    ∃ chars c count, c ≠ '/' ∧ parent path = String.ofList (chars ++ [c]) ∧
      path = String.ofList (chars ++ [c]) ++ "/" ++
        String.ofList (List.replicate count '/' ++ leaf)) := by
  obtain ⟨noSlash, ended⟩ := split_leaf_spec path.toList
  have whole := split_leaf_join path.toList
  refine ⟨(splitLeaf path.toList).2, noSlash, ?_⟩
  rw [parent]
  generalize (splitLeaf path.toList).1 = head at *
  generalize (splitLeaf path.toList).2 = leaf at *
  have text : path = String.ofList (head ++ leaf) := by rw [whole, String.ofList_toList]
  rcases drop_slashes_cases head with slashes | ⟨chars, c, count, notSlash, bare, padded⟩
  · have same := List.eq_replicate_of_mem slashes
    rw [drop_slashes_bare slashes]
    exact .inl ⟨head.length, by rw [← same], by rw [← same, text]⟩
  · obtain ⟨less, rfl⟩ : ∃ less, count = less + 1 := by
      refine Nat.exists_eq_succ_of_ne_zero ?_
      rintro rfl
      rw [List.replicate_zero, List.append_nil] at padded
      rcases ended with rfl | ⟨front, rfl⟩
      · simp at padded
      · exact notSlash (List.singleton_inj.1 (List.append_inj_right' padded rfl)).symm
    refine .inr ⟨chars, c, less, notSlash, by rw [bare], ?_⟩
    rw [text, padded, ← String.toList_inj]
    simp [List.replicate_succ]

theorem is_absolute_parent (path : String) : isAbsolute (parent path) = isAbsolute path := by
  obtain ⟨leaf, noSlash, ⟨count, cut, whole⟩ | ⟨chars, c, count, -, cut, whole⟩⟩ :=
    parent_cases path
  · cases count with
    | zero =>
        cases leaf with
        | nil => rw [cut, whole]; rfl
        | cons first rest =>
            have differs : first ≠ '/' := fun same => noSlash (same ▸ List.mem_cons_self)
            rw [cut, whole]
            simp [isAbsolute, Text.startsWith, List.isPrefixOf, Ne.symm differs]
    | succ count =>
        rw [cut, whole]
        simp [isAbsolute, Text.startsWith, List.replicate_succ]
  · rw [cut, whole, String.append_assoc, is_absolute_append]
    rw [← String.toList_inj.ne]
    simp

theorem is_absolute_above (count : Nat) (path : String) :
    isAbsolute (parent^[count] path) = isAbsolute path := by
  induction count generalizing path with
  | zero => rfl
  | succ count ih => rw [Function.iterate_succ_apply, ih, is_absolute_parent]

theorem parent_bare (bare : IsBare path) : parent path = path := by
  have whole := split_leaf_join path.toList
  have noLeaf : (splitLeaf path.toList).2 = [] := by
    refine List.eq_nil_iff_forall_not_mem.2 fun c member => (split_leaf_spec path.toList).1 ?_
    rwa [← bare c (whole ▸ List.mem_append_right _ member)]
  rw [noLeaf, List.append_nil] at whole
  rw [parent, whole, drop_slashes_bare bare, String.ofList_toList]

theorem parent_shorter (solid : ¬IsBare path) : (parent path).length < path.length := by
  obtain ⟨leaf, -, ⟨count, cut, rfl⟩ | ⟨chars, c, count, -, cut, rfl⟩⟩ := parent_cases path
  · have positive : leaf ≠ [] := by
      rintro rfl
      exact solid (by simp [IsBare])
    rw [cut]
    simpa [List.length_pos_iff] using positive
  · rw [cut]
    simp only [String.length_append]
    have slash : "/".length = 1 := rfl
    omega

theorem parts_bare (bare : IsBare path) : parts path = [] := by
  have same := List.eq_replicate_of_mem bare
  rw [← String.ofList_toList (s := path), same, ← List.append_nil (List.replicate _ _),
    parts_slashes]
  rfl

theorem parts_of_parent (path : String) : parts (parent path) <+: parts path := by
  obtain ⟨leaf, -, ⟨count, cut, -⟩ | ⟨chars, c, count, -, cut, whole⟩⟩ := parent_cases path
  · rw [cut, parts_bare (by simp [IsBare])]
    exact List.nil_prefix
  · rw [cut, whole, parts_append_slash]
    exact List.prefix_append _ _

theorem parts_parent {c : Char} (ends : path.toList.getLast? = some c) (notSlash : c ≠ '/') :
    ∃ last, parts path = parts (parent path) ++ [last] := by
  obtain ⟨leaf, noSlash, ⟨count, cut, rfl⟩ | ⟨chars, d, count, -, cut, rfl⟩⟩ := parent_cases path
  · have given : leaf ≠ [] := by
      rintro rfl
      rw [String.toList_ofList, List.append_nil, List.getLast?_replicate] at ends
      split at ends
      · cases ends
      · exact notSlash (Option.some.inj ends).symm
    refine ⟨String.ofList leaf, ?_⟩
    rw [cut, parts_slashes, parts_leaf noSlash given, parts_bare (by simp [IsBare]),
      List.nil_append]
  · have given : leaf ≠ [] := by
      rintro rfl
      have slashed :
          (String.ofList (chars ++ [d]) ++ "/" ++
            String.ofList (List.replicate count '/' ++ [])).toList =
          chars ++ [d] ++ List.replicate (count + 1) '/' := by simp [List.replicate_succ]
      rw [slashed, List.getLast?_append, List.getLast?_replicate,
        if_neg (Nat.succ_ne_zero count)] at ends
      exact notSlash (Option.some.inj ends).symm
    refine ⟨String.ofList leaf, ?_⟩
    rw [cut, parts_append_slash, parts_slashes, parts_leaf noSlash given]

theorem parent_ends (path : String) :
    IsBare (parent path) ∨ ∃ c, (parent path).toList.getLast? = some c ∧ c ≠ '/' := by
  obtain ⟨leaf, -, ⟨count, cut, -⟩ | ⟨chars, c, count, notSlash, cut, -⟩⟩ := parent_cases path
  · left
    simp [cut, IsBare]
  · exact .inr ⟨c, by simp [cut], notSlash⟩

theorem ends_of_pieces {front : List String} {last : String} (split : pieces path = front ++ [last])
    (given : last ≠ "") :
    ∃ c, path.toList.getLast? = some c ∧ c ≠ '/' := by
  cases ends : path.toList.getLast? with
  | none =>
      rw [List.getLast?_eq_none_iff, String.toList_eq_nil_iff] at ends
      subst ends
      exact absurd (List.append_inj_right' (split.symm.trans (List.nil_append [""]).symm) rfl |>
        List.singleton_inj.1) given
  | some c =>
      refine ⟨c, rfl, ?_⟩
      rintro rfl
      obtain ⟨before, chars⟩ := List.getLast?_eq_some_iff.1 ends
      have slashed : path = String.ofList before ++ "/" := by
        rw [← String.toList_inj, chars]
        simp
      rw [slashed, pieces_slash] at split
      exact given (List.singleton_inj.1 (List.append_inj_right' split rfl)).symm

/-- A way up from a path that does not end in a slash leads to where fewer names do. -/
theorem parts_above {count : Nat} {c : Char} (ends : path.toList.getLast? = some c)
    (notSlash : c ≠ '/') :
    parts (parent^[count + 1] path) <+: parts path ∧
      parts (parent^[count + 1] path) ≠ parts path := by
  have shortened (count : Nat) (path : String) : parts (parent^[count] path) <+: parts path := by
    induction count generalizing path with
    | zero => exact List.prefix_rfl
    | succ count ih => exact (ih (parent path)).trans (parts_of_parent path)
  obtain ⟨last, split⟩ := parts_parent ends notSlash
  have above : parts (parent^[count + 1] path) <+: parts (parent path) :=
    shortened count (parent path)
  rw [split]
  refine ⟨above.trans (List.prefix_append _ _), fun same => ?_⟩
  rw [same] at above
  exact absurd above.length_le (by simp)

end Path

namespace Tree

variable {tree : Tree} {place directory : Place} {path : String} {target : Target}

theorem followed_plain {pieces : List String} (plain : ∀ piece ∈ pieces, piece ≠ "." ∧ piece ≠ "..")
    (followed : tree.follow place pieces = .ok directory) :
    directory = place ++ pieces.filter (· ≠ "") := by
  induction pieces generalizing place with
  | nil => rw [List.filter_nil, List.append_nil, ← Except.ok.inj followed]
  | cons piece rest ih =>
      obtain ⟨single, double⟩ := plain piece (by simp)
      rw [follow] at followed
      split at followed
      · rename_i next entered
        rw [ih (fun other member => plain other (List.mem_cons_of_mem _ member)) followed]
        by_cases blank : piece = ""
        · simp only [enter, blank, true_or, if_true, Except.ok.injEq] at entered
          simp [blank, entered]
        · rw [enter_name ⟨blank, single, double⟩] at entered
          split at entered
          · simp [blank, ← Except.ok.inj entered]
          · cases entered
          · cases entered
      · cases followed

/-- A path without dots leads to the place that its names spell from where it starts. -/
theorem located_plain (plain : Path.IsPlain path) (found : tree.locate path = .ok target) :
    target.place = tree.start path ++ Path.parts path ∧
      (target.dotted = true → tree.node? target.place = some .directory) ∧
      (target.dotted = false → target.slashed = false →
        ∃ c, path.toList.getLast? = some c ∧ c ≠ '/') := by
  have none {blanks : List String} (blank : ∀ piece ∈ blanks, piece = "") :
      blanks.filter (· ≠ "") = [] := List.filter_eq_nil_iff.2 (by simpa using blank)
  cases located_iff.1 found with
  | top reached given blank =>
      refine ⟨?_, fun _ => (reaches_iff.1 reached).2, Bool.noConfusion⟩
      rw [Path.parts, none blank, List.append_nil]
  | @dots before blanks last directory place reached split blank followed dotted entered =>
      obtain ⟨single, double⟩ := plain last (by simp [split])
      exact absurd dotted (not_or.2 ⟨single, double⟩)
  | @name before blanks last directory reached split blank followed named =>
      have plainBefore : ∀ piece ∈ before, piece ≠ "." ∧ piece ≠ ".." := fun piece member =>
        plain piece (split ▸ List.mem_append_left _ member)
      refine ⟨?_, Bool.noConfusion, fun _ unslashed => ?_⟩
      · rw [Path.parts, split, List.filter_append, List.filter_cons_of_pos (by simpa using named.1),
          none blank, followed_plain plainBefore followed, List.append_assoc]
      · obtain rfl : blanks = [] := by simpa using unslashed
        exact Path.ends_of_pieces split named.1

end Tree

end HeaderDocs
