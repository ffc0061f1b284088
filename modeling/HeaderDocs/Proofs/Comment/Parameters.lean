import HeaderDocs.Comment.Parameters
import HeaderDocs.Proofs.Comment.Segment

/-!
Parameter names among segments. The names stand before the first colon with a blank, and a backtick
before that colon leaves the line as it is. So only the characters before the first backtick or link
matter, and marking them leaves everything behind them alone, whatever the targets of links hold.
-/

namespace HeaderDocs.Comment

open Text Declaration Segment

set_option autoImplicit false

/-- A cut is found in the first part of a text or else in the second, unless the separator spans
both. -/
theorem cut_at_pair_append (first second : Char) (head tail : List Char)
    (apart : tail.head? ≠ some second) :
    cutAtPair first second (head ++ tail) =
      match cutAtPair first second head with
      | some (before, after) => some (before, after ++ tail)
      | none => (cutAtPair first second tail).map fun parts => (head ++ parts.1, parts.2) := by
  fun_induction cutAtPair first second head with
  | case1 => simp
  | case2 c =>
      cases tail with
      | nil => simp [cutAtPair]
      | cons d rest =>
          have differs : d ≠ second := fun same => apart (by simp [same])
          simp [cutAtPair, differs]
  | case3 c d rest separates => simp [cutAtPair, separates]
  | case4 c d rest other ih =>
      simp only [List.cons_append, cutAtPair, other, if_false] at ih ⊢
      rw [ih]
      cases cutAtPair first second (d :: rest) with
      | some parts => simp
      | none => cases cutAtPair first second tail <;> simp

theorem mem_lengthen_first {c d : Char} {parts : List (List Char)} :
    (∃ part ∈ lengthenFirst c parts, d ∈ part) ↔ d = c ∨ ∃ part ∈ parts, d ∈ part := by
  cases parts with
  | nil => simp [lengthenFirst]
  | cons part others => simp [lengthenFirst, or_assoc]

theorem mem_split_at_pairs (first second : Char) {c : Char} {text : List Char} (member : c ∈ text)
    (notFirst : c ≠ first) (notSecond : c ≠ second) :
    ∃ part ∈ splitAtPairs first second text, c ∈ part := by
  fun_induction splitAtPairs first second text with
  | case1 => simp at member
  | case2 d => simpa using member
  | case3 d e rest separates ih =>
      obtain ⟨rfl, rfl⟩ := separates
      simp only [List.mem_cons, notFirst, notSecond, false_or] at member
      obtain ⟨part, inParts, found⟩ := ih member
      exact ⟨part, List.mem_cons_of_mem _ inParts, found⟩
  | case4 d e rest _ ih =>
      rw [mem_lengthen_first]
      rcases List.mem_cons.1 member with same | later
      · exact Or.inl same
      · exact Or.inr (ih later)

theorem split_at_pairs_ne_nil (first second : Char) (text : List Char) :
    splitAtPairs first second text ≠ [] := by
  fun_cases splitAtPairs first second text with
  | case1 => simp
  | case2 c => simp
  | case3 c d rest separates => simp
  | case4 c d rest _ => exact lengthen_first_ne_nil c _

theorem join_split_at_pairs (first second : Char) (text : List Char) :
    List.intercalate [first, second] (splitAtPairs first second text) = text := by
  fun_induction splitAtPairs first second text with
  | case1 => rfl
  | case2 c => simp
  | case3 c d rest separates ih =>
      obtain ⟨part, parts, split⟩ :=
        List.exists_cons_of_ne_nil (split_at_pairs_ne_nil first second rest)
      rw [split] at ih ⊢
      rw [List.intercalate_cons_cons, ih, separates.1, separates.2]
      rfl
  | case4 c d rest _ ih =>
      obtain ⟨part, parts, split⟩ :=
        List.exists_cons_of_ne_nil (split_at_pairs_ne_nil first second (d :: rest))
      rw [split] at ih ⊢
      rw [lengthenFirst, ← ih]
      cases parts with
      | nil => simp
      | cons next others => simp [List.intercalate_cons_cons]

theorem not_bare_of_tick {names : List Char} (tick : '\x60' ∈ names) :
    (splitAtPairs ',' ' ' names).all isBareName = false := by
  obtain ⟨part, inParts, found⟩ :=
    mem_split_at_pairs ',' ' ' tick (by decide) (by decide)
  have marked : isBareName part = false := by
    simp only [isBareName, Bool.and_eq_false_iff, Bool.not_eq_false', List.any_eq_true]
    exact Or.inr ⟨'\x60', found, by simp⟩
  exact List.all_eq_false.2 ⟨part, inParts, by simp [marked]⟩

def StartsMarked (text : List Char) : Prop :=
  (∃ rest, text = '\x60' :: rest) ∨ ∃ rest, text = '[' :: '\x60' :: rest

theorem tick_before_cut {text before after : List Char} (marked : StartsMarked text)
    (cut : cutAtPair ':' ' ' text = some (before, after)) : '\x60' ∈ before := by
  have whole := append_of_cut_at_pair cut
  rcases marked with ⟨rest, rfl⟩ | ⟨rest, rfl⟩
  · cases before with
    | nil => simp at whole
    | cons c others =>
        simp only [List.cons_append, List.cons.injEq] at whole
        exact List.mem_cons.2 (Or.inl whole.1)
  · cases before with
    | nil => simp at whole
    | cons c others =>
        cases others with
        | nil => simp at whole
        | cons d further =>
            simp only [List.cons_append, List.cons.injEq] at whole
            exact List.mem_cons_of_mem _ (List.mem_cons.2 (Or.inl whole.2.1))

/-- Names are only marked before the first backtick. -/
theorem mark_parameters_append (head : List Char) {tail : List Char}
    (marked : tail = [] ∨ StartsMarked tail) :
    markParameters (head ++ tail) = markParameters head ++ tail := by
  rcases marked with rfl | marked
  · simp
  have apart : tail.head? ≠ some ' ' := by
    rcases marked with ⟨rest, rfl⟩ | ⟨rest, rfl⟩ <;> simp
  have whole := cut_at_pair_append ':' ' ' head tail apart
  unfold markParameters
  rw [whole]
  cases headCut : cutAtPair ':' ' ' head with
  | some parts =>
      obtain ⟨names, description⟩ := parts
      simp only
      split <;> simp
  | none =>
      cases tailCut : cutAtPair ':' ' ' tail with
      | none => rfl
      | some parts =>
          -- The names would reach over the backtick, and such names are not bare.
          have tick : '\x60' ∈ head ++ parts.1 := by
            simp [tick_before_cut marked tailCut]
          simp [not_bare_of_tick tick]

theorem split_at_pairs_guarded {escaped : Bool} {text : List Char}
    (guarded : Guarded escaped (plains text)) :
    ∃ first others, splitAtPairs ',' ' ' text = first :: others ∧ Guarded escaped (plains first) ∧
      ∀ other ∈ others, Guarded false (plains other) := by
  fun_induction splitAtPairs ',' ' ' text generalizing escaped with
  | case1 => exact ⟨[], [], rfl, trivial, by simp⟩
  | case2 c => exact ⟨[c], [], rfl, guarded, by simp⟩
  | case3 c d rest separates ih =>
      obtain ⟨rfl, rfl⟩ := separates
      have guardedRest : Guarded false (plains rest) := guarded.2.2
      obtain ⟨first, others, split, guardedFirst, guardedOthers⟩ := ih guardedRest
      refine ⟨[], splitAtPairs ',' ' ' rest, rfl, trivial, ?_⟩
      rw [split]
      intro other member
      rcases List.mem_cons.1 member with rfl | later
      · exact guardedFirst
      · exact guardedOthers other later
  | case4 c d rest _ ih =>
      obtain ⟨first, others, split, guardedFirst, guardedOthers⟩ := ih guarded.2
      refine ⟨c :: first, others, ?_, ⟨guarded.1, guardedFirst⟩, guardedOthers⟩
      rw [split, lengthenFirst]

theorem inline_code_guarded {escaped : Bool} {name : List Char}
    (guarded : Guarded false (plains name)) :
    Guarded escaped (plains (inlineCode name)) := by
  have closing : Guarded false (plains ['\x60']) := guarded_plains (by simp)
  have inside : Guarded false (plains (name ++ ['\x60'])) := by
    rw [plains_append]
    exact guarded_append guarded closing
  exact ⟨by simp, inside⟩

theorem code_names_guarded (names : List (List Char))
    (guarded : ∀ name ∈ names, Guarded false (plains name)) :
    Guarded false (plains (codeNames names)) := by
  unfold codeNames
  induction names with
  | nil => trivial
  | cons name rest ih =>
      have own : Guarded false (plains (inlineCode name)) :=
        inline_code_guarded (guarded name (by simp))
      cases rest with
      | nil => simpa using own
      | cons next further =>
          have comma : Guarded false (plains [',', ' ']) := guarded_plains (by simp)
          rw [List.map_cons, List.map_cons, List.intercalate_cons_cons, plains_append,
            plains_append]
          exact guarded_append (guarded_append own comma)
            (ih fun later member => guarded later (List.mem_cons_of_mem _ member))

theorem mark_parameters_guarded {text : List Char} (guarded : Guarded false (plains text)) :
    Guarded false (plains (markParameters text)) := by
  unfold markParameters
  cases cut : cutAtPair ':' ' ' text with
  | none => exact guarded
  | some parts =>
      obtain ⟨names, description⟩ := parts
      simp only
      split
      · rw [append_of_cut_at_pair cut, plains_append] at guarded
        obtain ⟨first, others, split, guardedFirst, guardedOthers⟩ :=
          split_at_pairs_guarded (guarded_of_append guarded)
        have guardedNames : Guarded false (plains (codeNames (splitAtPairs ',' ' ' names))) := by
          apply code_names_guarded
          rw [split]
          intro name member
          rcases List.mem_cons.1 member with rfl | later
          · exact guardedFirst
          · exact guardedOthers name later
        have guardedRest := guarded_rest guarded (by simp [plains])
        rw [plains_append]
        exact guarded_append guardedNames guardedRest
      · exact guarded

def markSegments (segments : List Segment) : List Segment :=
  plains (markParameters (write (segments.takeWhile isUnmarked))) ++ segments.dropWhile isUnmarked

theorem plains_write_unmarked (segments : List Segment) :
    plains (write (segments.takeWhile isUnmarked)) = segments.takeWhile isUnmarked := by
  induction segments with
  | nil => rfl
  | cons segment rest ih =>
      rw [List.takeWhile_cons]
      split
      · rename_i unmarked
        cases segment with
        | plain c => rw [write_cons, plains_append, ih]; rfl
        | link name target => simp [isUnmarked] at unmarked
      · rfl

theorem starts_marked (segments : List Segment) :
    write (segments.dropWhile isUnmarked) = [] ∨
      StartsMarked (write (segments.dropWhile isUnmarked)) := by
  have stopped := List.head?_dropWhile_not isUnmarked segments
  cases remaining : segments.dropWhile isUnmarked with
  | nil => exact Or.inl rfl
  | cons segment rest =>
      right
      rw [remaining] at stopped
      cases segment with
      | plain c =>
          have tick : c = '\x60' := by simpa [isUnmarked] using stopped
          exact Or.inl ⟨write rest, by rw [tick]; rfl⟩
      | link name target =>
          exact Or.inr ⟨name ++ '\x60' :: ']' :: '(' :: (target ++ ')' :: write rest),
            by simp [Segment.text, codeLink, inlineCode]⟩

theorem write_mark_segments (segments : List Segment) :
    write (markSegments segments) = markParameters (write segments) := by
  have whole : write segments =
      write (segments.takeWhile isUnmarked) ++ write (segments.dropWhile isUnmarked) := by
    rw [← write_append, List.takeWhile_append_dropWhile]
  rw [whole, mark_parameters_append _ (starts_marked segments), markSegments, write_append,
    write_plains]

theorem mark_segments_split (segments : List Segment) :
    ∃ opening rest, segments = plains opening ++ rest ∧ '\x60' ∉ opening ∧
      markSegments segments = plains (markParameters opening) ++ rest := by
  refine ⟨write (segments.takeWhile isUnmarked), segments.dropWhile isUnmarked, ?_, ?_, rfl⟩
  · rw [plains_write_unmarked, List.takeWhile_append_dropWhile]
  · intro tick
    have member : Segment.plain '\x60' ∈ segments.takeWhile isUnmarked := by
      rw [← plains_write_unmarked]
      exact List.mem_map_of_mem tick
    have unmarked := List.all_eq_true.1 List.all_takeWhile _ member
    exact absurd unmarked (by decide)

theorem mark_segments_append (front : List Segment) {back : List Segment}
    (marked : ∀ segment, back.head? = some segment → isUnmarked segment = false) :
    markSegments (front ++ back) = markSegments front ++ back := by
  have parts : (front ++ back).takeWhile isUnmarked = front.takeWhile isUnmarked ∧
      (front ++ back).dropWhile isUnmarked = front.dropWhile isUnmarked ++ back := by
    induction front with
    | nil =>
        cases back with
        | nil => exact ⟨rfl, rfl⟩
        | cons segment rest => simp [marked segment rfl]
    | cons segment rest ih =>
        cases unmarked : isUnmarked segment <;> simp [unmarked, ih]
  rw [markSegments, markSegments, parts.1, parts.2, List.append_assoc]

theorem map_placed_mark_segments (resolve : Resolver) (segments : List Segment) :
    (markSegments segments).map (placed resolve) =
      markSegments (segments.map (placed resolve)) := by
  have kept : isUnmarked ∘ placed resolve = isUnmarked := by
    funext segment
    cases segment <;> rfl
  have same : write ((segments.takeWhile isUnmarked).map (placed resolve)) =
      write (segments.takeWhile isUnmarked) := by
    rw [← plains_write_unmarked, map_placed_plains]
  rw [markSegments, markSegments, List.map_append, map_placed_plains, List.takeWhile_map,
    List.dropWhile_map, kept, same]

theorem mark_segments_guarded {segments : List Segment} (guarded : Guarded false segments) :
    Guarded false (markSegments segments) := by
  rw [← List.takeWhile_append_dropWhile (p := isUnmarked) (l := segments)] at guarded
  have other : (segments.dropWhile isUnmarked).head? ≠ some (.plain ']') := by
    intro close
    have stopped := List.head?_dropWhile_not isUnmarked segments
    simp [close, isUnmarked] at stopped
  have head := guarded_of_append guarded
  rw [← plains_write_unmarked] at head
  exact guarded_append (mark_parameters_guarded head) (guarded_rest guarded other)

theorem mark_segments_legible {segments : List Segment}
    (legible : ∀ segment ∈ segments, segment.Legible) :
    ∀ segment ∈ markSegments segments, segment.Legible := by
  intro segment member
  rcases List.mem_append.1 member with marked | kept
  · exact plains_legible _ segment marked
  · exact legible segment ((List.dropWhile_suffix _).subset kept)

theorem links_mark_segments (segments : List Segment) :
    (markSegments segments).filterMap link? = segments.filterMap link? := by
  have noLinks : (segments.takeWhile isUnmarked).filterMap link? = [] := by
    rw [← plains_write_unmarked]
    exact links_plains _
  have whole : segments.filterMap link? =
      (segments.takeWhile isUnmarked).filterMap link? ++
        (segments.dropWhile isUnmarked).filterMap link? := by
    rw [← List.filterMap_append, List.takeWhile_append_dropWhile]
  rw [whole, noLinks, markSegments, List.filterMap_append, links_plains]

end HeaderDocs.Comment
