import HeaderDocs.Files.Path
import Mathlib.Data.List.Basic

/-!
Relative paths lead where they should. Following a path is a run over its pieces on a stack of
names: a name is pushed, two dots pop one. A path from one directory to a target pops what the two
do not share and pushes the rest, so following it from the directory ends at the target. This is
about names alone; no file has to be there.
-/

namespace HeaderDocs.Path

set_option autoImplicit false

def IsProper (name : String) : Prop :=
  name ≠ "" ∧ name ≠ "." ∧ name ≠ ".." ∧ '/' ∉ name.toList

instance (name : String) : Decidable (IsProper name) :=
  inferInstanceAs (Decidable (_ ∧ _ ∧ _ ∧ _))

theorem IsProper.named {name : String} (proper : IsProper name) :
    name ≠ "" ∧ name ≠ "." ∧ name ≠ ".." :=
  ⟨proper.1, proper.2.1, proper.2.2.1⟩

/-- The names, last first, that pieces lead to from a directory given by its names, with or without
a root above. -/
def walkFrom (top : Bool) (stack pieces : List String) : List String :=
  pieces.foldl (step top) stack

def startOf (path : String) : List String :=
  if isAbsolute path then [] else ["w"]

variable {top : Bool}

theorem walk_from_append (stack first second : List String) :
    walkFrom top stack (first ++ second) = walkFrom top (walkFrom top stack first) second :=
  List.foldl_append

theorem walk_from_blank (stack : List String) : walkFrom top stack [""] = stack := rfl

theorem separator_not_mem {separator : Char} {text part : List Char}
    (member : part ∈ text.splitOn separator) :
    separator ∉ part := by
  induction text generalizing part with
  | nil =>
      rw [List.splitOn_nil, List.mem_singleton] at member
      simp [member]
  | cons c rest ih =>
      rw [List.splitOn_cons_eq_if_modifyHead] at member
      split at member
      · rcases List.mem_cons.1 member with rfl | later
        · simp
        · exact ih later
      · rename_i other
        cases parts : rest.splitOn separator with
        | nil => exact absurd parts (List.splitOn_ne_nil _ _)
        | cons head tail =>
            rw [parts] at ih member
            rcases List.mem_cons.1 member with rfl | later
            · have apart : separator ≠ c := fun same => other (by simp [same])
              simp [apart, ih (List.mem_cons_self)]
            · exact ih (List.mem_cons_of_mem _ later)

theorem pieces_append_slash (first second : String) :
    pieces (first ++ "/" ++ second) = pieces first ++ pieces second := by
  have chars : (first ++ "/" ++ second).toList = first.toList ++ '/' :: second.toList := by simp
  rw [pieces, chars, List.splitOn_append_cons_self, List.map_append]
  rfl

theorem pieces_slash (path : String) : pieces (path ++ "/") = pieces path ++ [""] := by
  rw [← String.append_empty (s := path ++ "/"), pieces_append_slash]
  rfl

theorem step_proper {stack : List String} (proper : ∀ name ∈ stack, IsProper name) {piece : String}
    (noSlash : '/' ∉ piece.toList) : ∀ name ∈ step true stack piece, IsProper name := by
  unfold step
  split
  · exact proper
  · rename_i given
    simp only [not_or] at given
    split
    · cases stack with
      | nil => simp
      | cons last before =>
          have notUp : last ≠ ".." := (proper last (by simp)).2.2.1
          simp only [notUp, if_false]
          exact fun name member => proper name (List.mem_cons_of_mem _ member)
    · rename_i notUp
      intro name member
      rcases List.mem_cons.1 member with rfl | old
      · exact ⟨given.1, given.2, notUp, noSlash⟩
      · exact proper name old

theorem walk_from_proper {stack pieces : List String} (proper : ∀ name ∈ stack, IsProper name)
    (noSlash : ∀ piece ∈ pieces, '/' ∉ piece.toList) :
    ∀ name ∈ walkFrom true stack pieces, IsProper name := by
  induction pieces generalizing stack with
  | nil => exact proper
  | cons piece rest ih =>
      apply ih (step_proper proper (noSlash piece (by simp)))
      exact fun other member => noSlash other (List.mem_cons_of_mem _ member)

theorem pieces_no_slash {path piece : String}
    (member : piece ∈ pieces path) : '/' ∉ piece.toList := by
  obtain ⟨chars, inParts, rfl⟩ := List.mem_map.1 member
  rw [String.toList_ofList]
  exact separator_not_mem inParts

theorem walk_from_names {names : List String} (proper : ∀ name ∈ names, IsProper name)
    (stack : List String) :
    walkFrom top stack names = names.reverse ++ stack := by
  induction names generalizing stack with
  | nil => rfl
  | cons name rest ih =>
      obtain ⟨nonempty, notDot, notUp, -⟩ := proper name (by simp)
      have pushed : step top stack name = name :: stack := by simp [step, nonempty, notDot, notUp]
      have later : walkFrom top stack (name :: rest) = walkFrom top (step top stack name) rest :=
        rfl
      rw [later, pushed, ih fun other member => proper other (List.mem_cons_of_mem _ member)]
      simp

theorem walk_from_ups {stack : List String} (proper : ∀ name ∈ stack, IsProper name) {count : Nat}
    (enough : count ≤ stack.length) :
    walkFrom top stack (List.replicate count "..") = stack.drop count := by
  induction count generalizing stack with
  | zero => rfl
  | succ count ih =>
      cases stack with
      | nil => simp at enough
      | cons last before =>
          have notUp : last ≠ ".." := (proper last (by simp)).2.2.1
          have popped : step top (last :: before) ".." = before := by simp [step, notUp]
          have later : walkFrom top (last :: before) (List.replicate (count + 1) "..") =
              walkFrom top (step top (last :: before) "..") (List.replicate count "..") := rfl
          rw [later, popped, ih (fun name member => proper name (List.mem_cons_of_mem _ member))]
          · rfl
          · simpa using enough

theorem common_names_take (first second : List String) :
    first.take (commonNames first second).length = commonNames first second ∧
      second.take (commonNames first second).length = commonNames first second := by
  fun_induction commonNames first second with
  | case1 others name rest ih => simp [ih]
  | case2 => simp
  | case3 => simp

theorem walk_from_names_from {start target : List String}
    (properStart : ∀ name ∈ start, IsProper name) (properTarget : ∀ name ∈ target, IsProper name) :
    walkFrom top start.reverse (namesFrom start target) = target.reverse := by
  obtain ⟨inStart, inTarget⟩ := common_names_take start target
  have shorter : (commonNames start target).length ≤ start.length := by
    rw [← inStart, List.length_take]
    exact Nat.min_le_right _ _
  have popped :
      walkFrom top start.reverse
          (List.replicate (start.length - (commonNames start target).length) "..") =
        (commonNames start target).reverse := by
    rw [walk_from_ups (by simpa using properStart) (by simp), List.drop_reverse,
      Nat.sub_sub_self shorter, inStart]
  rw [namesFrom, walk_from_append, popped,
    walk_from_names fun name member => properTarget name (List.mem_of_mem_drop member),
    ← List.reverse_append]
  nth_rewrite 1 [← inTarget]
  rw [List.take_append_drop]

theorem pieces_of_names {names : List String} (noSlash : ∀ name ∈ names, '/' ∉ name.toList)
    (some : names ≠ []) :
    pieces (ofNames names) = names := by
  have chars : (ofNames names).toList = List.intercalate ['/'] (names.map String.toList) :=
    String.toList_intercalate
  rw [pieces, chars, List.splitOn_intercalate '/' (by simpa using noSlash) (by simpa using some),
    List.map_map]
  simp [Function.comp_def]

theorem walk_from_pieces_of_names {names : List String} (proper : ∀ name ∈ names, IsProper name)
    (stack : List String) :
    walkFrom top stack (pieces (ofNames names)) = names.reverse ++ stack := by
  by_cases some : names = []
  · subst some
    rfl
  · rw [pieces_of_names (fun name member => (proper name member).2.2.2) some,
      walk_from_names proper]

theorem names_of_rooted {path : String} (rooted : isAbsolute path) :
    names path = (walkFrom true [] (pieces path)).reverse := by
  rw [names, collapse, rooted]
  rfl

theorem names_proper {path : String} (rooted : isAbsolute path) :
    ∀ name ∈ names path, IsProper name := by
  have empty : ∀ name ∈ ([] : List String), IsProper name := by simp
  rw [names_of_rooted rooted]
  simpa using walk_from_proper empty fun _ => pieces_no_slash

theorem is_absolute_slash (text : String) : isAbsolute ("/" ++ text) := by
  simp [isAbsolute, Text.startsWith]

theorem walk_from_slash (stack : List String) (text : String) :
    walkFrom top stack (pieces ("/" ++ text)) = walkFrom top stack (pieces text) := by
  have split := pieces_append_slash "" text
  rw [String.empty_append] at split
  rw [split, walk_from_append]
  rfl

theorem root_of_rooted {path : String} (rooted : isAbsolute path) :
    root path = "/" ∨ root path = "//" := by
  unfold isAbsolute Text.startsWith at rooted
  unfold root
  cases chars : path.toList with
  | nil => simp [chars] at rooted
  | cons c rest =>
      rw [chars, List.isPrefixOf_iff_prefix, List.cons_prefix_cons] at rooted
      obtain ⟨rfl, -⟩ := rooted
      split <;> simp_all

theorem rooted_of_names {start : String} (slashed : start = "/" ∨ start = "//")
    {given : List String} (proper : ∀ name ∈ given, IsProper name) :
    isAbsolute (start ++ ofNames given) ∧ names (start ++ ofNames given) = given := by
  have direct : walkFrom true [] _ = _ := walk_from_pieces_of_names proper []
  rw [List.append_nil] at direct
  obtain ⟨rooted, walked⟩ : isAbsolute (start ++ ofNames given) ∧
      walkFrom true [] (pieces (start ++ ofNames given)) = given.reverse := by
    rcases slashed with rfl | rfl
    · exact ⟨is_absolute_slash _, (walk_from_slash [] _).trans direct⟩
    · have twice : "//" ++ ofNames given = "/" ++ ("/" ++ ofNames given) := by
        rw [← String.append_assoc]
        rfl
      rw [twice]
      exact ⟨is_absolute_slash _, (walk_from_slash [] _).trans
        ((walk_from_slash [] _).trans direct)⟩
  exact ⟨rooted, by rw [names_of_rooted rooted, walked, List.reverse_reverse]⟩

theorem normalize_rooted {path : String} (rooted : isAbsolute path) :
    normalize path = root path ++ ofNames (names path) := by
  have nonempty : (root path ++ ofNames (names path)).isEmpty = false := by
    rcases root_of_rooted rooted with slash | slashes
    · simp [slash]
    · simp [slashes]
  rw [normalize]
  simp only [nonempty, Bool.false_eq_true, if_false]

theorem names_normalize {path : String} (rooted : isAbsolute path) :
    isAbsolute (normalize path) ∧ names (normalize path) = names path := by
  rw [normalize_rooted rooted]
  exact rooted_of_names (root_of_rooted rooted) (names_proper rooted)

theorem join_working_directory {path : String} (unrooted : isAbsolute path = false) :
    join workingDirectory path = "/" ++ ("w/" ++ path) := by
  have open_ended : (workingDirectory.isEmpty || Text.endsWith ['/'] workingDirectory.toList) =
      false := by decide
  simp only [join, unrooted, open_ended, Bool.false_eq_true, if_false]
  rw [← String.append_assoc]
  rfl

/-- What a path leads to, whether from the root or from the working directory. -/
theorem names_absolute (path : String) : isAbsolute (absolute path) ∧
    names (absolute path) = (walkFrom true (startOf path) (pieces path)).reverse := by
  unfold absolute startOf
  cases given : isAbsolute path with
  | true =>
      simp only [if_true]
      exact ⟨(names_normalize given).1, by rw [(names_normalize given).2, names_of_rooted given]⟩
  | false =>
      have rooted := is_absolute_slash ("w/" ++ path)
      have parts : pieces ("w/" ++ path) = ["w"] ++ pieces path := pieces_append_slash "w" path
      simp only [Bool.false_eq_true, if_false]
      rw [join_working_directory given]
      refine ⟨(names_normalize rooted).1, ?_⟩
      rw [(names_normalize rooted).2, names_of_rooted rooted, walk_from_slash, parts,
        walk_from_append]
      rfl

theorem names_absolute_proper (path : String) : ∀ name ∈ names (absolute path), IsProper name := by
  rw [(names_absolute path).2]
  have start : ∀ name ∈ startOf path, IsProper name := by
    unfold startOf IsProper
    split <;> decide
  simpa using walk_from_proper start fun _ => pieces_no_slash

theorem is_absolute_append {base : String} (given : base ≠ "") (path : String) :
    isAbsolute (base ++ path) = isAbsolute base := by
  unfold isAbsolute Text.startsWith
  rw [String.toList_append]
  cases chars : base.toList with
  | nil => exact absurd (String.toList_eq_nil_iff.1 chars) given
  | cons c rest => rfl

/-- A path that does not start at the root is written behind the other one, with a slash between the
two unless one is there. -/
theorem join_cases (base : String) {path : String} (relative : isAbsolute path = false) :
    (base = "" ∧ join base path = path) ∨
      (∃ front, base = front ++ "/" ∧ join base path = front ++ "/" ++ path) ∨
      base ≠ "" ∧ Text.endsWith ['/'] base.toList = false ∧
        join base path = base ++ "/" ++ path := by
  by_cases given : base = ""
  · exact Or.inl ⟨given, by simp [join, relative, given]⟩
  · cases slashed : Text.endsWith ['/'] base.toList with
    | false => exact Or.inr (Or.inr ⟨given, rfl, by simp [join, relative, slashed, given]⟩)
    | true =>
        obtain ⟨front, chars⟩ := List.isSuffixOf_iff_suffix.1 slashed
        have parts : base = String.ofList front ++ "/" := by
          rw [← String.toList_inj, String.toList_append, String.toList_ofList, ← chars]
          rfl
        exact Or.inr (Or.inl ⟨String.ofList front, parts, by
          simp [join, relative, slashed, ← parts]⟩)

theorem walk_from_join (stack : List String) (base : String) {path : String}
    (relative : isAbsolute path = false) :
    walkFrom top stack (pieces (join base path)) =
      walkFrom top (walkFrom top stack (pieces base)) (pieces path) := by
  rcases join_cases base relative with ⟨rfl, joined⟩ | ⟨front, rfl, joined⟩ | ⟨-, -, joined⟩
  · rw [joined]
    rfl
  · rw [joined, pieces_append_slash, pieces_slash, walk_from_append, walk_from_append,
      walk_from_blank]
  · rw [joined, pieces_append_slash, walk_from_append]

theorem is_absolute_join (base : String) {path : String} (relative : isAbsolute path = false) :
    isAbsolute (join base path) = isAbsolute base := by
  rcases join_cases base relative with ⟨rfl, joined⟩ | ⟨front, rfl, joined⟩ | ⟨given, -, joined⟩
  · rw [joined, relative]
    rfl
  · rw [joined, is_absolute_append (by simp)]
  · rw [joined, String.append_assoc, is_absolute_append given]

theorem names_join (base : String) {path : String} (relative : isAbsolute path = false) :
    names (absolute (join base path)) =
      (walkFrom true (names (absolute base)).reverse (pieces path)).reverse := by
  rw [(names_absolute _).2, (names_absolute base).2, List.reverse_reverse,
    walk_from_join _ base relative, startOf, startOf, is_absolute_join base relative]

theorem unrooted_of_pieces {path first : String} {rest : List String}
    (parts : pieces path = first :: rest) (nonempty : first ≠ "") : isAbsolute path = false := by
  cases rooted : isAbsolute path with
  | false => rfl
  | true =>
      exfalso
      unfold isAbsolute Text.startsWith at rooted
      rw [List.isPrefixOf_iff_prefix] at rooted
      obtain ⟨others, chars⟩ := rooted
      rw [pieces, ← chars, List.cons_append, List.nil_append,
        List.splitOn_cons_eq_if_modifyHead] at parts
      exact nonempty (List.cons.inj parts).1.symm

theorem relative_pieces (top : Bool) (target start : String) (stack : List String) :
    (∃ first rest, pieces (relative target start) = first :: rest ∧ first ≠ "") ∧
      walkFrom top stack (pieces (relative target start)) =
        walkFrom top stack (namesFrom (names (absolute start)) (names (absolute target))) := by
  have named : ∀ name ∈ namesFrom (names (absolute start)) (names (absolute target)),
      name ≠ "" ∧ '/' ∉ name.toList := by
    intro name member
    rcases List.mem_append.1 member with up | down
    · rw [List.eq_of_mem_replicate up]
      decide
    · obtain ⟨nonempty, -, -, noSlash⟩ :=
        names_absolute_proper target name (List.mem_of_mem_drop down)
      exact ⟨nonempty, noSlash⟩
  unfold relative
  generalize namesFrom (names (absolute start)) (names (absolute target)) = steps at named
  cases steps with
  | nil => exact ⟨⟨".", [], rfl, by decide⟩, rfl⟩
  | cons first rest =>
      have parts : pieces (ofNames (first :: rest)) = first :: rest :=
        pieces_of_names (fun name member => (named name member).2) (by simp)
      exact ⟨⟨first, rest, parts, (named first (by simp)).1⟩, by rw [parts]⟩

theorem relative_ne_empty (target start : String) : relative target start ≠ "" := by
  obtain ⟨⟨first, rest, parts, nonempty⟩, -⟩ := relative_pieces true target start []
  intro empty
  rw [empty] at parts
  exact nonempty (List.cons.inj parts).1.symm

/-- The path from a directory to a target leads to the target, also with a slash behind it. -/
theorem names_join_relative (start target : String) :
    names (absolute (join start (relative target start))) = names (absolute target) ∧
      names (absolute (join start (relative target start ++ "/"))) = names (absolute target) := by
  obtain ⟨⟨first, rest, parts, nonempty⟩, followed⟩ :=
    relative_pieces true target start (names (absolute start)).reverse
  have there : walkFrom true _ _ = _ :=
    walk_from_names_from (names_absolute_proper start) (names_absolute_proper target)
  have slashedParts : pieces (relative target start ++ "/") = first :: (rest ++ [""]) := by
    rw [pieces_slash, parts, List.cons_append]
  constructor
  · rw [names_join start (unrooted_of_pieces parts nonempty), followed, there, List.reverse_reverse]
  · rw [names_join start (unrooted_of_pieces slashedParts nonempty), pieces_slash, walk_from_append,
      walk_from_blank, followed, there, List.reverse_reverse]

end HeaderDocs.Path
