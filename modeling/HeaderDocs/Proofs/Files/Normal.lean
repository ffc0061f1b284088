import HeaderDocs.Proofs.Files.Relative
import Mathlib.Data.List.Induction

/-!
Paths that are told by their names. The absolute form of a path is a slash and its names, and a
normal path is its names alone, so two of them are equal if their names are; what is joined to them
or cut off them is a matter of names too. A path that starts with two slashes keeps both, so this is
not about such paths. A path that is not from the root and does not climb has one name more from the
working directory, so the path from one such path to another, followed from the first, has the
normal form of the second.
-/

namespace HeaderDocs.Path

set_option autoImplicit false

/-- A path that starts with two slashes, which need not lead to what is below the one root. -/
def isDoublyRooted (path : String) : Bool :=
  Text.startsWith ['/', '/'] path.toList

theorem of_names_inj {first second : List String} (properFirst : ∀ name ∈ first, IsProper name)
    (properSecond : ∀ name ∈ second, IsProper name)
    (same : ofNames first = ofNames second) : first = second := by
  have walked : walkFrom true [] (pieces (ofNames first)) = first.reverse ++ [] :=
    walk_from_pieces_of_names properFirst []
  rw [same, walk_from_pieces_of_names properSecond] at walked
  simpa using walked.symm

theorem of_names_concat {front : List String} (some : front ≠ []) (last : String) :
    ofNames (front ++ [last]) = ofNames front ++ "/" ++ last := by
  rw [ofNames, String.intercalate_append_of_ne_nil some (by simp), String.intercalate_singleton]
  rfl

theorem length_of_names_concat {front : List String} {last : String} (given : last ≠ "") :
    (ofNames front).length < (ofNames (front ++ [last])).length := by
  have positive : 0 < last.length :=
    Nat.pos_of_ne_zero fun empty => given (String.length_eq_zero_iff.1 empty)
  by_cases first : front = []
  · simpa [first, ofNames] using positive
  · simp only [of_names_concat first, String.length_append]
    omega

theorem proper_ends {name : String} (proper : IsProper name) :
    ∃ chars c, name.toList = chars ++ [c] ∧ c ≠ '/' := by
  obtain ⟨nonempty, -, -, noSlash⟩ := proper
  rcases List.eq_nil_or_concat' name.toList with empty | ⟨chars, c, ending⟩
  · exact absurd (String.toList_eq_nil_iff.1 empty) nonempty
  · refine ⟨chars, c, ending, ?_⟩
    rintro rfl
    exact noSlash (by simp [ending])

theorem of_names_ends {names : List String} (proper : ∀ name ∈ names, IsProper name)
    (some : names ≠ []) :
    ∃ chars c, (ofNames names).toList = chars ++ [c] ∧ c ≠ '/' := by
  obtain ⟨front, last, rfl⟩ : ∃ front last, names = front ++ [last] :=
    ⟨_, _, (List.dropLast_append_getLast some).symm⟩
  obtain ⟨chars, c, ending, noSlash⟩ := proper_ends (proper last (by simp))
  by_cases first : front = []
  · exact ⟨chars, c, by simp [first, ofNames, ending], noSlash⟩
  · refine ⟨(ofNames front).toList ++ '/' :: chars, c, ?_, noSlash⟩
    simp [of_names_concat first, ending]

theorem absolute_of_names {path : String} (single : isDoublyRooted path = false) :
    absolute path = "/" ++ ofNames (names (absolute path)) := by
  obtain ⟨full, rooted, normal, slash⟩ : ∃ full, isAbsolute full ∧ absolute path = normalize full ∧
      root full = "/" := by
    unfold absolute
    cases given : isAbsolute path with
    | true =>
        refine ⟨path, given, rfl, (root_of_rooted given).resolve_right fun slashes => ?_⟩
        unfold root at slashes
        unfold isDoublyRooted Text.startsWith at single
        split at slashes <;> simp_all
    | false =>
        refine ⟨join workingDirectory path, ?_, rfl, ?_⟩
        · rw [join_working_directory given]
          exact is_absolute_slash _
        · rw [join_working_directory given]
          simp [root]
  rw [normal, (names_normalize rooted).2, normalize_rooted rooted, slash]

theorem absolute_eq_iff {first second : String} (single : isDoublyRooted first = false)
    (singleSecond : isDoublyRooted second = false) :
    absolute first = absolute second ↔ names (absolute first) = names (absolute second) := by
  refine ⟨congrArg names, fun same => ?_⟩
  rw [absolute_of_names single, absolute_of_names singleSecond, same]

theorem names_absolute_absolute (path : String) :
    names (absolute (absolute path)) = names (absolute path) := by
  have rooted := (names_absolute path).1
  have normal : absolute (absolute path) = normalize (absolute path) := by
    conv_lhs => rw [absolute, rooted, if_pos rfl]
  rw [normal, (names_normalize rooted).2]

theorem common_names_eq_iff (first second : List String) :
    commonNames first second = second ↔ second <+: first := by
  fun_induction commonNames first second with
  | case1 others name rest ih => simp [ih]
  | case2 first others other rest different => simp [Ne.symm different]
  | case3 first second none =>
      cases second with
      | nil => simp
      | cons other rest =>
          cases first with
          | nil => simp
          | cons name others => exact (none name others other rest rfl rfl).elim

theorem names_from_below (start rest : List String) : namesFrom start (start ++ rest) = rest := by
  have common : commonNames start (start ++ rest) = start := by
    induction start with
    | nil => simp [commonNames]
    | cons name others ih => simp [commonNames, ih]
  simp [namesFrom, common]

theorem relative_below {start target : String} {rest : List String} (some : rest ≠ [])
    (below : names (absolute target) = names (absolute start) ++ rest) :
    relative (absolute target) (absolute start) = ofNames rest := by
  have steps : namesFrom (names (absolute (absolute start))) (names (absolute (absolute target))) =
      rest := by
    rw [names_absolute_absolute, names_absolute_absolute, below, names_from_below]
  unfold relative
  rw [steps]
  cases rest with
  | nil => exact absurd rfl some
  | cons first others => rfl

theorem relative_same {start target : String}
    (same : names (absolute target) = names (absolute start)) :
    relative (absolute target) (absolute start) = "." := by
  have steps : namesFrom (names (absolute (absolute start))) (names (absolute (absolute target))) =
      [] := by
    have none := names_from_below (names (absolute start)) []
    rw [List.append_nil] at none
    rw [names_absolute_absolute, names_absolute_absolute, same, none]
  unfold relative
  rw [steps]

/-- A directory is the deepest one above itself and a path exactly if its names are the first ones
of the path. -/
theorem common_directory_eq_iff {path directory : String}
    (single : isDoublyRooted directory = false) :
    commonDirectory (absolute path) (absolute directory) = absolute directory ↔
      names (absolute directory) <+: names (absolute path) := by
  have properDirectory := names_absolute_proper directory
  rw [commonDirectory, absolute_of_names single, (rooted_of_names (Or.inl rfl) properDirectory).2,
    ← common_names_eq_iff, String.append_right_inj]
  refine ⟨fun same => of_names_inj ?_ properDirectory same, congrArg ofNames⟩
  intro name member
  rw [← (common_names_take _ _).2] at member
  exact properDirectory name (List.mem_of_mem_take member)

theorem split_leaf_spec (text : List Char) : '/' ∉ (splitLeaf text).2 ∧
    ((splitLeaf text).1 = [] ∨ ∃ front, (splitLeaf text).1 = front ++ ['/']) := by
  constructor
  · intro member
    have other := List.all_eq_true.1 (List.all_takeWhile (p := (· != '/')) (l := text.reverse)) '/'
      (List.mem_reverse.1 member)
    simp at other
  · cases rest : text.reverse.dropWhile (· != '/') with
    | nil => exact .inl (by simp [splitLeaf, rest])
    | cons c before =>
        have head := List.head?_dropWhile_not (· != '/') text.reverse
        rw [rest] at head
        obtain rfl : c = '/' := by simpa using head
        exact .inr ⟨before.reverse, by simp [splitLeaf, rest]⟩

theorem split_leaf_append (front : List Char) {last : List Char} (noSlash : '/' ∉ last) :
    splitLeaf (front ++ last) = ((splitLeaf front).1, (splitLeaf front).2 ++ last) := by
  have apart : ∀ c ∈ last.reverse, (c != '/') = true := by
    intro c member
    exact bne_iff_ne.2 fun same => noSlash (by simpa [same] using member)
  simp [splitLeaf, List.dropWhile_append_of_pos apart, List.takeWhile_append_of_pos apart]

theorem split_leaf_slash (front : List Char) {last : List Char} (noSlash : '/' ∉ last) :
    splitLeaf (front ++ '/' :: last) = (front ++ ['/'], last) := by
  have cut : splitLeaf (front ++ ['/']) = (front ++ ['/'], []) := by simp [splitLeaf]
  rw [← List.singleton_append, ← List.append_assoc, split_leaf_append _ noSlash, cut,
    List.nil_append]

theorem leaf_of_names {names : List String} (proper : ∀ name ∈ names, IsProper name) :
    leaf ("/" ++ ofNames names) = names.getLastD "" := by
  rcases List.eq_nil_or_concat' names with rfl | ⟨front, last, rfl⟩
  · decide
  · obtain ⟨before, chars⟩ : ∃ before, ("/" ++ ofNames (front ++ [last])).toList = before ++ '/' ::
        last.toList := by
      by_cases first : front = []
      · exact ⟨[], by simp [first, ofNames]⟩
      · exact ⟨'/' :: (ofNames front).toList, by simp [of_names_concat first]⟩
    rw [leaf, chars, split_leaf_slash _ (proper last (by simp)).2.2.2]
    simp

theorem join_of_names {front back : List String} (proper : ∀ name ∈ front, IsProper name)
    (unrooted : isAbsolute (ofNames back) = false) (some : back ≠ []) :
    join ("/" ++ ofNames front) (ofNames back) = "/" ++ ofNames (front ++ back) := by
  by_cases first : front = []
  · have slashed : ("/".isEmpty || Text.endsWith ['/'] "/".toList) = true := by decide
    simp only [first, ofNames, String.intercalate_nil, String.append_empty, List.nil_append,
      join] at unrooted ⊢
    simp only [unrooted, slashed, Bool.false_eq_true, if_false, if_true]
  · obtain ⟨chars, c, ending, notSlash⟩ := of_names_ends proper first
    have ended : ("/" ++ ofNames front).toList = '/' :: chars ++ [c] := by simp [ending]
    have opened :
        (("/" ++ ofNames front).isEmpty || Text.endsWith ['/'] ("/" ++ ofNames front).toList) =
        false := by
      rw [ended]
      simp [Text.endsWith, List.isSuffixOf, List.isPrefixOf, Ne.symm notSlash]
    have both : ofNames (front ++ back) = ofNames front ++ "/" ++ ofNames back :=
      String.intercalate_append_of_ne_nil first some
    rw [join, unrooted, opened, both]
    simp only [Bool.false_eq_true, if_false, String.append_assoc]

theorem join_names {front : List String} {path : String} (proper : ∀ name ∈ front, IsProper name)
    (some : front ≠ []) (unrooted : isAbsolute path = false) :
    join (ofNames front) path = ofNames front ++ "/" ++ path := by
  obtain ⟨chars, c, ending, notSlash⟩ := of_names_ends proper some
  have given : (ofNames front).isEmpty = false := by
    rw [String.isEmpty_eq_false_iff, ← String.toList_inj.ne, ending]
    simp
  have opened : ((ofNames front).isEmpty || Text.endsWith ['/'] (ofNames front).toList) =
      false := by
    rw [ending]
    simp [given, Text.endsWith, List.isSuffixOf, List.isPrefixOf, Ne.symm notSlash]
  rw [join, unrooted, opened]
  simp only [Bool.false_eq_true, if_false]

theorem step_cases (piece : String) : (∀ top stack, step top stack piece = stack) ∨ piece = ".." ∨
    ∀ top stack, step top stack piece = piece :: stack := by
  by_cases blank : piece = "" ∨ piece = "."
  · exact Or.inl fun top stack => if_pos blank
  · by_cases up : piece = ".."
    · exact Or.inr (Or.inl up)
    · exact Or.inr (Or.inr fun top stack => (if_neg blank).trans (if_neg up))

theorem step_up {top : Bool} (last : String) (before : List String) :
    step top (last :: before) ".." = if last = ".." then ".." :: last :: before else before := by
  simp [step]

/-- A climb above the start is never taken back. -/
theorem up_stays {stack : List String} (up : ".." ∈ stack) (pieces : List String) :
    ".." ∈ walkFrom false stack pieces := by
  have kept : ∀ stack piece, ".." ∈ stack → ".." ∈ step false stack piece := by
    intro stack piece up
    rcases step_cases piece with same | rfl | pushed
    · rwa [same]
    · cases stack with
      | nil => simp at up
      | cons last before =>
          rw [step_up]
          split_ifs with again
          · simp
          · exact (List.mem_cons.1 up).resolve_left (Ne.symm again)
    · rw [pushed]
      exact List.mem_cons_of_mem _ up
  induction pieces generalizing stack with
  | nil => exact up
  | cons piece rest ih => exact ih (kept stack piece up)

/-- Pieces that do not climb above the start leave alone what lies below it. -/
theorem walk_above (base : List String) {stack pieces : List String}
    (inside : ".." ∉ walkFrom false stack pieces) :
    walkFrom true (stack ++ base) pieces = walkFrom false stack pieces ++ base := by
  have above : ∀ stack piece, ".." ∉ step false stack piece →
      step true (stack ++ base) piece = step false stack piece ++ base := by
    intro stack piece inside
    rcases step_cases piece with same | rfl | pushed
    · rw [same, same]
    · -- Only a climb from an empty stack would reach the base, and it would leave two dots on the
      -- stack.
      cases stack with
      | nil => exact absurd (List.mem_singleton.2 rfl) inside
      | cons last before =>
          rw [step_up] at inside
          rw [List.cons_append, step_up, step_up]
          split_ifs at inside ⊢ with again
          · simp at inside
          · rfl
    · rw [pushed, pushed, List.cons_append]
  induction pieces generalizing stack with
  | nil => rfl
  | cons piece rest ih =>
      have first : ".." ∉ step false stack piece := fun up => inside (up_stays up rest)
      have later : walkFrom true (stack ++ base) (piece :: rest) =
          walkFrom true (step true (stack ++ base) piece) rest := rfl
      rw [later, above stack piece first]
      exact ih inside

variable {path start target : String}

theorem names_unrooted (unrooted : isAbsolute path = false) :
    names path = (walkFrom false [] (pieces path)).reverse := by
  rw [names, collapse, unrooted]
  rfl

theorem names_absolute_unrooted (unrooted : isAbsolute path = false) (inside : ".." ∉ names path) :
    names (absolute path) = "w" :: names path := by
  have from_working : startOf path = [] ++ ["w"] := by
    rw [startOf, unrooted]
    rfl
  rw [names_unrooted unrooted, List.mem_reverse] at inside
  rw [(names_absolute path).2, from_working, walk_above ["w"] inside, names_unrooted unrooted]
  simp

theorem names_proper_unrooted (unrooted : isAbsolute path = false) (inside : ".." ∉ names path) :
    ∀ name ∈ names path, IsProper name := by
  intro name member
  exact names_absolute_proper path name (by simp [names_absolute_unrooted unrooted inside, member])

theorem normalize_unrooted (unrooted : isAbsolute path = false) :
    normalize path = if ofNames (names path) = "" then "." else ofNames (names path) := by
  have bare : root path = "" := by
    unfold isAbsolute Text.startsWith at unrooted
    unfold root
    split <;> simp_all
  simp [normalize, bare]

/-- What the path from one path to another leads to: the other one, which may climb by a single
step. -/
theorem walk_relative (unrootedStart : isAbsolute start = false) (insideStart : ".." ∉ names start)
    (unrooted : isAbsolute target = false) (inside : ".." ∉ names target ∨ target = "..") :
    walkFrom false (names start).reverse (pieces (relative target start)) =
      (names target).reverse := by
  have proper := names_proper_unrooted unrootedStart insideStart
  rw [(relative_pieces false target start _).2, names_absolute_unrooted unrootedStart insideStart]
  -- The working directory comes before both, unless the target is the directory above it.
  rcases inside with inside | rfl
  · have below : namesFrom ("w" :: names start) ("w" :: names target) =
        namesFrom (names start) (names target) := by
      simp [namesFrom, commonNames]
    rw [names_absolute_unrooted unrooted inside, below,
      walk_from_names_from proper (names_proper_unrooted unrooted inside)]
  · have above : namesFrom ("w" :: names start) (names (absolute "..")) =
        List.replicate (names start).length ".." ++ [".."] := by
      have top : names (absolute "..") = [] := by decide
      rw [top, ← List.replicate_succ']
      simp [namesFrom, commonNames]
    rw [above, walk_from_append, walk_from_ups (by simpa using proper) (by simp),
      List.drop_of_length_le (by simp)]
    decide

/-- The path from one path to another, followed from there, has the normal form of the other one,
also with a slash behind it. -/
theorem normalize_join_relative (unrootedStart : isAbsolute start = false)
    (insideStart : ".." ∉ names start) (unrooted : isAbsolute target = false)
    (inside : ".." ∉ names target ∨ target = "..") :
    normalize (join start (relative target start)) = normalize target ∧
      normalize (join start (relative target start ++ "/")) = normalize target := by
  obtain ⟨⟨first, rest, parts, nonempty⟩, -⟩ := relative_pieces false target start []
  have slashedParts : pieces (relative target start ++ "/") = first :: (rest ++ [""]) := by
    rw [pieces_slash, parts, List.cons_append]
  have walked := walk_relative unrootedStart insideStart unrooted inside
  have begun : walkFrom false [] (pieces start) = (names start).reverse := by
    rw [names_unrooted unrootedStart, List.reverse_reverse]
  have same : ∀ path, isAbsolute path = false →
      walkFrom false (names start).reverse (pieces path) = (names target).reverse →
      normalize (join start path) = normalize target := by
    intro path relativePath arrived
    have unrootedJoin : isAbsolute (join start path) = false := by
      rw [is_absolute_join start relativePath, unrootedStart]
    have there : names (join start path) = names target := by
      rw [names_unrooted unrootedJoin, walk_from_join [] start relativePath, begun, arrived,
        List.reverse_reverse]
    rw [normalize_unrooted unrootedJoin, normalize_unrooted unrooted, there]
  refine ⟨same _ (unrooted_of_pieces parts nonempty) walked,
    same _ (unrooted_of_pieces slashedParts nonempty) ?_⟩
  rw [pieces_slash, walk_from_append, walk_from_blank, walked]

theorem of_names_pieces (path : String) : ofNames (pieces path) = path := by
  have chars : (pieces path).map String.toList = path.toList.splitOn '/' := by
    simp [pieces, Function.comp_def]
  rw [← String.toList_inj, ofNames, String.toList_intercalate, chars]
  exact List.intercalate_splitOn '/'

theorem of_names_behind {front : List String} {path : String}
    (proper : ∀ name ∈ front, IsProper name) (some : front ≠ [])
    (unrooted : isAbsolute path = false) :
    join (ofNames front) path = ofNames (front ++ pieces path) := by
  rw [join_names proper some unrooted, ← of_names_pieces (ofNames front ++ "/" ++ path),
    pieces_append_slash, pieces_of_names (fun name member => (proper name member).2.2.2) some]

theorem names_of_names {given : List String} (proper : ∀ name ∈ given, IsProper name) :
    isAbsolute (ofNames given) = false ∧ names (ofNames given) = given := by
  have unrooted : isAbsolute (ofNames given) = false := by
    cases given with
    | nil => decide
    | cons first rest =>
        exact unrooted_of_pieces (pieces_of_names (fun name member => (proper name member).2.2.2)
          (by simp)) (proper first (by simp)).1
  refine ⟨unrooted, ?_⟩
  rw [names_unrooted unrooted, walk_from_pieces_of_names proper, List.append_nil,
    List.reverse_reverse]

theorem normal_of_proper (proper : ∀ piece ∈ pieces path, IsProper piece) :
    isAbsolute path = false ∧ ".." ∉ names path ∧ normalize path = path := by
  obtain ⟨unrooted, same⟩ := names_of_names proper
  rw [of_names_pieces] at unrooted same
  have nonempty : path ≠ "" := by
    rintro rfl
    exact (proper "" (by decide)).1 rfl
  refine ⟨unrooted, ?_, ?_⟩
  · rw [same]
    exact fun member => (proper _ member).2.2.1 rfl
  · rw [normalize_unrooted unrooted, same, of_names_pieces, if_neg nonempty]

theorem pieces_of_proper {name : String} (proper : IsProper name) :
    isAbsolute name = false ∧ pieces name = [name] := by
  have single : ofNames [name] = name := String.intercalate_singleton
  have only : ∀ other ∈ [name], IsProper other := by simpa using proper
  have unrooted := (names_of_names only).1
  have parts :=
    pieces_of_names (fun other member => (only other member).2.2.2) (List.cons_ne_nil name [])
  rw [single] at unrooted parts
  exact ⟨unrooted, parts⟩

theorem of_names_append (front : List String) (last ending : String) :
    ofNames (front ++ [last]) ++ ending = ofNames (front ++ [last ++ ending]) := by
  by_cases first : front = []
  · simp [first, ofNames]
  · simp only [of_names_concat first, String.append_assoc]

theorem is_absolute_iff {path : String} : isAbsolute path ↔ path.toList.head? = some '/' := by
  unfold isAbsolute Text.startsWith
  cases path.toList with
  | nil => simp
  | cons c rest => simpa using eq_comm

theorem pieces_slashes (count : Nat) :
    ∀ piece ∈ pieces (String.ofList (List.replicate count '/')), piece = "" := by
  induction count with
  | zero => decide
  | succ count ih =>
      have split : String.ofList (List.replicate (count + 1) '/') =
          "" ++ "/" ++ String.ofList (List.replicate count '/') := by
        rw [← String.toList_inj]
        simp [List.replicate_succ]
      rw [split, pieces_append_slash]
      intro piece member
      rcases List.mem_append.1 member with first | later
      · exact List.mem_singleton.1 first
      · exact ih piece later

theorem some_piece (text : String) {c : Char} (member : c ∈ text.toList) (notSlash : c ≠ '/') :
    ∃ piece ∈ pieces text, piece ≠ "" := by
  by_contra blank
  simp only [not_exists, not_and, not_not] at blank
  have slashes (names : List String) (empty : ∀ name ∈ names, name = "") :
      ∀ c ∈ (ofNames names).toList, c = '/' := by
    induction names using List.reverseRecOn with
    | nil => simp [ofNames]
    | append_singleton front last ih =>
        have lastEmpty := empty last (by simp)
        by_cases first : front = []
        · simp [first, lastEmpty, ofNames]
        · have before := ih fun name inFront => empty name (List.mem_append_left _ inFront)
          rw [of_names_concat first, lastEmpty]
          simpa [or_imp, forall_and] using before
  rw [← of_names_pieces text] at member
  exact notSlash (slashes _ blank c member)

theorem last_piece {text : String} {chars : List Char} {c : Char}
    (ends : text.toList = chars ++ [c]) (notSlash : c ≠ '/') :
    ∃ front last, pieces text = front ++ [last] ∧ last ≠ "" := by
  rcases List.eq_nil_or_concat' (pieces text) with none | ⟨front, last, parts⟩
  · rw [← of_names_pieces text, none] at ends
    simp [ofNames] at ends
  · refine ⟨front, last, parts, ?_⟩
    rintro rfl
    rw [← of_names_pieces text, parts] at ends
    by_cases first : front = []
    · simp [first, ofNames] at ends
    · rw [of_names_concat first] at ends
      simp only [String.append_empty, String.toList_append] at ends
      exact notSlash (List.append_inj_right' ends rfl |> List.singleton_inj.1).symm

/-- The path to a place of a tree: from the root of the file system if the tree is the whole one,
and from the working directory if it is the tree of that. -/
def toPlace (whole : Bool) (place : List String) : String :=
  if whole then "/" ++ ofNames place else ofNames place

section Places

variable {front back : List String} {last : String} (whole : Bool)

theorem to_place_inj (proper : ∀ name ∈ front, IsProper name)
    (properBack : ∀ name ∈ back, IsProper name)
    (same : toPlace whole front = toPlace whole back) : front = back := by
  cases whole with
  | false => exact of_names_inj proper properBack same
  | true => exact of_names_inj proper properBack (String.append_right_inj _ |>.1 same)

theorem length_of_to_place_concat (given : last ≠ "") :
    (toPlace whole front).length < (toPlace whole (front ++ [last])).length := by
  have longer := @length_of_names_concat front last given
  cases whole with
  | false => exact longer
  | true => simpa [toPlace, String.length_append] using longer

theorem split_leaf_to_place (proper : ∀ name ∈ front ++ [last], IsProper name) :
    (splitLeaf (toPlace whole (front ++ [last])).toList).2 = last.toList ∧
      dropSlashes (splitLeaf (toPlace whole (front ++ [last])).toList).1 =
        (toPlace whole front).toList := by
  have noSlash := (proper last (by simp)).2.2.2
  by_cases first : front = []
  · cases whole with
    | false =>
        have bare : splitLeaf last.toList = ([], last.toList) := split_leaf_append [] noSlash
        simp [first, toPlace, ofNames, bare, dropSlashes]
    | true =>
        have bare : splitLeaf ('/' :: last.toList) = (['/'], last.toList) :=
          split_leaf_slash [] noSlash
        simp [first, toPlace, ofNames, bare, dropSlashes]
  · obtain ⟨before, c, ending, notSlash⟩ :=
      of_names_ends (fun name member => proper name (by simp [member])) first
    have chars : (toPlace whole (front ++ [last])).toList =
        (toPlace whole front).toList ++ '/' :: last.toList := by
      cases whole <;> simp [toPlace, of_names_concat first]
    have bare : dropSlashes ((toPlace whole front).toList ++ ['/']) =
        (toPlace whole front).toList := by
      cases whole <;> simp [toPlace, dropSlashes, ending, notSlash]
    rw [chars, split_leaf_slash _ noSlash, bare]
    exact ⟨rfl, rfl⟩

theorem parent_to_place (proper : ∀ name ∈ front ++ [last], IsProper name) :
    parent (toPlace whole (front ++ [last])) = toPlace whole front := by
  rw [parent, (split_leaf_to_place whole proper).2, String.ofList_toList]

theorem parent_of_names (proper : ∀ name ∈ front ++ [last], IsProper name) :
    parent (ofNames (front ++ [last])) = ofNames front :=
  parent_to_place false proper

theorem join_to_place (proper : ∀ name ∈ front, IsProper name) (named : front ≠ []) {path : String}
    (relative : isAbsolute path = false) :
    join (toPlace whole front) path = toPlace whole (front ++ pieces path) := by
  cases whole with
  | false => exact of_names_behind proper named relative
  | true =>
      have parts : pieces path ≠ [] :=
        fun none => List.splitOn_ne_nil '/' path.toList (List.map_eq_nil_iff.1 none)
      have joined := join_of_names proper (by rwa [of_names_pieces path]) parts
      rwa [of_names_pieces] at joined

end Places

end HeaderDocs.Path
