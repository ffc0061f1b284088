import HeaderDocs.Proofs.Comment.Backslashes
import HeaderDocs.Proofs.Comment.Mentions
import HeaderDocs.Proofs.Comment.Stacking

/-!
A line transformed a second time. All that a line without mentions is given are backslashes before
brackets and backticks around `NULL` and around names. No pass of the second round finds anything
left to do: every bracket has its backslash, every `NULL` has a backtick beside it, and names that
were set as code are no bare names. No later pass of the first round parts a bracket from its
backslash or a `NULL` from its backtick.
-/

namespace HeaderDocs.Comment

open Text

set_option autoImplicit false

variable {c : Char} {text marked front back name rest names : List Char}
    {afterBackslash afterTick : Bool}

section Marks

/-- A text and the same text with backslashes and backticks put in. -/
inductive Marked : List Char → List Char → Prop
  | ends : Marked [] []
  | kept (c : Char) {text marked : List Char} (later : Marked text marked) :
      Marked (c :: text) (c :: marked)
  | mark {c : Char} {text marked : List Char} (isMark : c = '\\' ∨ c = '\x60')
      (later : Marked text marked) :
      Marked text (c :: marked)

namespace Marked

theorem refl (text : List Char) : Marked text text := by
  induction text with
  | nil => exact .ends
  | cons c rest ih => exact .kept c ih

theorem trans {twice : List Char} (first : Marked text marked)
    (second : Marked marked twice) : Marked text twice := by
  induction second generalizing text with
  | ends => exact first
  | kept c later ih =>
      cases first with
      | kept c before => exact .kept c (ih before)
      | mark isMark before => exact .mark isMark (ih before)
  | mark isMark later ih => exact .mark isMark (ih first)

theorem append {other further : List Char} (first : Marked text marked)
    (second : Marked other further) :
    Marked (text ++ other) (marked ++ further) := by
  induction first with
  | ends => exact second
  | kept c later ih => exact .kept c ih
  | mark isMark later ih => exact .mark isMark ih

theorem length_le (isMarked : Marked text marked) : text.length ≤ marked.length := by
  induction isMarked with
  | ends => exact Nat.le_refl _
  | kept c later ih => exact Nat.succ_le_succ ih
  | mark isMark later ih => exact Nat.le_succ_of_le ih

theorem mem (isMarked : Marked text marked) (member : c ∈ marked) :
    c ∈ text ∨ c = '\\' ∨ c = '\x60' := by
  induction isMarked with
  | ends => exact .inl member
  | kept d later ih =>
      rcases List.mem_cons.1 member with rfl | inRest
      · exact .inl List.mem_cons_self
      · exact (ih inRest).imp_left (List.mem_cons_of_mem d)
  | mark isMark later ih =>
      rcases List.mem_cons.1 member with rfl | inRest
      · exact .inr isMark
      · exact ih inRest

theorem start {lead : List Char} (isMarked : Marked text marked)
    (bare : '\\' ∉ lead ∧ '\x60' ∉ lead) (starts : lead <+: marked) : lead <+: text := by
  induction isMarked generalizing lead with
  | ends => exact starts
  | kept c later ih =>
      cases lead with
      | nil => exact List.nil_prefix
      | cons d others =>
          obtain ⟨rfl, further⟩ := List.cons_prefix_cons.1 starts
          simp only [List.mem_cons, not_or] at bare
          exact List.cons_prefix_cons.2 ⟨rfl, ih ⟨bare.1.2, bare.2.2⟩ further⟩
  | mark isMark later ih =>
      cases lead with
      | nil => exact List.nil_prefix
      | cons d others =>
          obtain ⟨rfl, -⟩ := List.cons_prefix_cons.1 starts
          rcases isMark with rfl | rfl <;> simp at bare

theorem suffix (isMarked : Marked text marked) (behind : rest <:+ marked) :
    ∃ tail, tail <:+ text ∧ Marked tail rest := by
  induction isMarked with
  | ends =>
      rw [List.suffix_nil.1 behind]
      exact ⟨[], List.suffix_rfl, .ends⟩
  | @kept c text marked later ih =>
      rcases List.suffix_cons_iff.1 behind with rfl | further
      · exact ⟨c :: text, List.suffix_rfl, .kept c later⟩
      · obtain ⟨tail, under, isMarked⟩ := ih further
        exact ⟨tail, under.trans (List.suffix_cons c text), isMarked⟩
  | @mark c text marked isMark later ih =>
      rcases List.suffix_cons_iff.1 behind with rfl | further
      · exact ⟨text, List.suffix_rfl, .mark isMark later⟩
      · exact ih further

theorem head (isMarked : Marked text marked) (first : marked.head? = some c) :
    text.head? = some c ∨ c = '\\' ∨ c = '\x60' := by
  cases isMarked with
  | ends => exact .inl first
  | kept d later => exact .inl first
  | mark isMark later =>
      obtain rfl := Option.some.inj first
      exact .inr isMark

theorem last (isMarked : Marked text marked) (final : marked.getLast? = some c) :
    text.getLast? = some c ∨ c = '\\' ∨ c = '\x60' := by
  induction isMarked with
  | ends => exact .inl final
  | @kept d text marked later ih =>
      cases later with
      | ends => exact .inl final
      | kept e further =>
          rw [List.getLast?_cons_cons] at final ⊢
          exact ih final
      | @mark e text marked isMark further =>
          rw [List.getLast?_cons_cons] at final
          rcases ih final with inText | isMark
          · cases text with
            | nil => cases inText
            | cons f others => exact .inl (by rwa [List.getLast?_cons_cons])
          · exact .inr isMark
  | @mark d text marked isMark later ih =>
      cases marked with
      | nil =>
          obtain rfl := Option.some.inj final
          exact .inr isMark
      | cons e others =>
          rw [List.getLast?_cons_cons] at final
          exact ih final

end Marked

theorem escape_brackets_marked (afterBackslash : Bool) (text : List Char) :
    Marked text (escapeBrackets afterBackslash text) := by
  fun_induction escapeBrackets afterBackslash text with
  | case1 => exact .ends
  | case2 afterBackslash c rest bare ih => exact .mark (.inl rfl) (.kept c ih)
  | case3 afterBackslash c rest kept ih => exact .kept c ih

theorem code_nulls_marked (afterTick : Bool) (text : List Char) :
    Marked text (codeNulls afterTick text) := by
  fun_induction codeNulls afterTick text with
  | case1 afterTick rest alone ih =>
      exact .mark (.inr rfl) (.kept _ (.kept _ (.kept _ (.kept _ (.mark (.inr rfl) ih)))))
  | case2 afterTick rest beside ih => exact .kept _ (.kept _ (.kept _ (.kept _ ih)))
  | case3 afterTick c rest _ ih => exact .kept c ih
  | case4 => exact .ends

theorem escape_text_marked (line : List Char) : Marked line (escapeText line) :=
  (escape_brackets_marked false line).trans (code_nulls_marked false _)

theorem inline_code_marked (name : List Char) : Marked name (inlineCode name) := by
  have closed : Marked (name ++ []) (name ++ ['\x60']) :=
    (Marked.refl name).append (.mark (.inr rfl) .ends)
  rw [List.append_nil] at closed
  exact .mark (.inr rfl) closed

theorem code_names_marked (names : List (List Char)) :
    Marked (List.intercalate [',', ' '] names) (codeNames names) := by
  unfold codeNames
  induction names with
  | nil => exact .ends
  | cons name others ih =>
      cases others with
      | nil => simpa using inline_code_marked name
      | cons next further =>
          rw [List.map_cons, List.map_cons, List.intercalate_cons_cons, List.intercalate_cons_cons]
          exact ((inline_code_marked name).append (.refl _)).append ih

theorem mark_parameters_marked (line : List Char) : Marked line (markParameters line) := by
  unfold markParameters
  cases cut : cutAtPair ':' ' ' line with
  | none => exact .refl line
  | some parts =>
      obtain ⟨names, description⟩ := parts
      simp only
      split
      · rw [append_of_cut_at_pair cut]
        refine Marked.append ?_ (.refl _)
        have coded := code_names_marked (splitAtPairs ',' ' ' names)
        rwa [join_split_at_pairs] at coded
      · exact .refl line

end Marks

section Brackets

def Escaped : Bool → List Char → Prop :=
  Along (fun _ c => c == '\\') fun afterBackslash c => isBracket c = true → afterBackslash = true

theorem escaped_cons : Escaped afterBackslash (c :: rest) ↔
    (isBracket c = true → afterBackslash = true) ∧ Escaped (c == '\\') rest :=
  Iff.rfl

theorem not_backslash_of_bracket (bracket : isBracket c = true) : (c == '\\') = false := by
  rw [beq_eq_false_iff_ne]
  rintro rfl
  exact absurd bracket (by decide)

theorem escape_brackets_escaped (afterBackslash : Bool) (text : List Char) :
    Escaped afterBackslash (escapeBrackets afterBackslash text) := by
  fun_induction escapeBrackets afterBackslash text with
  | case1 => trivial
  | case2 afterBackslash c rest bare ih =>
      simp only [Bool.and_eq_true, Bool.not_eq_true'] at bare
      have own : Escaped (c == '\\') (escapeBrackets false rest) := by
        rwa [not_backslash_of_bracket bare.1]
      exact ⟨fun bracket => absurd bracket (by decide), fun _ => rfl, own⟩
  | case3 afterBackslash c rest kept ih =>
      refine ⟨fun bracket => ?_, ih⟩
      simpa [bracket] using kept

theorem escape_brackets_of_escaped (escaped : Escaped afterBackslash text) :
    escapeBrackets afterBackslash text = text := by
  induction text generalizing afterBackslash with
  | nil => rfl
  | cons c rest ih =>
      obtain ⟨own, later⟩ := escaped
      have settled : ¬(isBracket c && !afterBackslash) = true := by
        intro bare
        simp only [Bool.and_eq_true, Bool.not_eq_true'] at bare
        simp [own bare.1] at bare
      rw [escapeBrackets, if_neg settled, ih later]

theorem escaped_idle (idle : isIdle c = true) :
    Escaped afterBackslash (c :: rest) ↔ Escaped false rest := by
  have plain : isBracket c = false ∧ (c == '\\') = false := by simpa [isIdle] using idle
  rw [escaped_cons, plain.1, plain.2]
  simp

theorem escaped_past (idle : isIdle c = true) :
    Escaped afterBackslash (text ++ c :: rest) ↔
      Escaped afterBackslash text ∧ Escaped false rest := by
  rw [Escaped, along_append]
  exact and_congr_right fun _ => escaped_idle idle

theorem escaped_inline_code (name : List Char) :
    Escaped afterBackslash (inlineCode name) ↔ Escaped false name := by
  have tick : isIdle '\x60' = true := by decide
  rw [inlineCode, escaped_idle tick, escaped_past tick]
  exact and_iff_left trivial

theorem escaped_code_names (names : List (List Char)) :
    Escaped false (codeNames names) ↔ Escaped false (List.intercalate [',', ' '] names) := by
  have comma : isIdle ',' = true := by decide
  have blank : isIdle ' ' = true := by decide
  unfold codeNames
  induction names with
  | nil => rfl
  | cons name others ih =>
      cases others with
      | nil => simpa using escaped_inline_code name
      | cons next further =>
          have separated (left right : List Char) :
              Escaped false (left ++ [',', ' '] ++ right) ↔
                Escaped false left ∧ Escaped false right := by
            rw [List.append_assoc, List.cons_append, escaped_past comma]
            exact and_congr_right fun _ => escaped_idle blank
          rw [List.map_cons, List.map_cons, List.intercalate_cons_cons, List.intercalate_cons_cons,
            separated, separated]
          exact and_congr (escaped_inline_code name) ih

theorem code_nulls_escaped (afterTick : Bool) (escaped : Escaped afterBackslash text) :
    Escaped afterBackslash (codeNulls afterTick text) := by
  have idle : isIdle '\x60' = true ∧ isIdle 'N' = true ∧ isIdle 'U' = true ∧ isIdle 'L' = true := by
    decide
  obtain ⟨tick, n, u, l⟩ := idle
  fun_induction codeNulls afterTick text generalizing afterBackslash with
  | case1 afterTick rest alone ih =>
      simp only [escaped_idle tick, escaped_idle n, escaped_idle u, escaped_idle l] at escaped ⊢
      exact ih escaped
  | case2 afterTick rest beside ih =>
      simp only [escaped_idle n, escaped_idle u, escaped_idle l] at escaped ⊢
      exact ih escaped
  | case3 afterTick c rest _ ih => exact ⟨escaped.1, ih escaped.2⟩
  | case4 => trivial

theorem mark_parameters_escaped (escaped : Escaped false text) :
    Escaped false (markParameters text) := by
  have colon : isIdle ':' = true := by decide
  unfold markParameters
  cases cut : cutAtPair ':' ' ' text with
  | none => exact escaped
  | some parts =>
      obtain ⟨names, description⟩ := parts
      simp only
      split
      · rw [append_of_cut_at_pair cut, escaped_past colon] at escaped
        rw [escaped_past colon, escaped_code_names, join_split_at_pairs]
        exact escaped
      · exact escaped

end Brackets

section Nulls

theorem head_code_nulls (head : text.head? = some '\x60') :
    (codeNulls afterTick text).head? = some '\x60' := by
  cases text with
  | nil => cases head
  | cons c rest =>
      obtain rfl := Option.some.inj head
      rw [code_nulls_cons fun _ isN => absurd isN (by decide)]
      rfl

theorem coded_cons_not_null (other : ∀ tail, c = 'N' → rest = 'U' :: 'L' :: 'L' :: tail → False)
    (tail : List Char) (isN : c = 'N') : codeNulls afterTick rest ≠ 'U' :: 'L' :: 'L' :: tail := by
  intro coded
  have starts : "ULL".toList <+: rest :=
    (code_nulls_marked afterTick rest).start (by decide) ⟨tail, coded.symm⟩
  obtain ⟨further, rfl⟩ := starts
  exact other further isN rfl

theorem code_nulls_again {again : Bool} (ticked : afterTick = true → again = true)
    (text : List Char) :
    codeNulls again (codeNulls afterTick text) = codeNulls afterTick text := by
  fun_induction codeNulls afterTick text generalizing again with
  | case1 afterTick rest alone ih =>
      have inner : codeNulls true ('N' :: 'U' :: 'L' :: 'L' :: '\x60' :: codeNulls false rest) =
          'N' :: 'U' :: 'L' :: 'L' :: codeNulls false ('\x60' :: codeNulls false rest) := by
        rw [codeNulls, if_neg (by simp)]
      rw [code_nulls_cons fun _ isN => absurd isN (by decide), beq_self_eq_true, inner,
        code_nulls_cons fun _ isN => absurd isN (by decide), beq_self_eq_true, ih fun _ => rfl]
  | case2 afterTick rest beside ih =>
      have stays : ¬(!again && (codeNulls false rest).head? != some '\x60') = true := by
        simp only [Bool.and_eq_true, Bool.not_eq_true', bne_iff_ne, ne_eq, not_and,
          not_not] at beside ⊢
        intro unticked
        exact head_code_nulls (beside (Bool.eq_false_iff.2 fun tick => by
          simp [ticked tick] at unticked))
      rw [codeNulls, if_neg stays, ih fun _ => by contradiction]
  | case3 afterTick c rest other ih =>
      rw [code_nulls_cons (coded_cons_not_null other), ih id]
  | case4 => rfl

theorem code_nulls_past (letter : c ∉ ['N', 'U', 'L', '\x60']) :
    codeNulls afterTick (text ++ c :: rest) =
    codeNulls afterTick text ++ c :: codeNulls false rest := by
  simp only [List.mem_cons, List.not_mem_nil, or_false, not_or] at letter
  obtain ⟨notN, notU, notL, notTick⟩ := letter
  have unticked : (c == '\x60') = false := beq_eq_false_iff_ne.2 notTick
  have stop (afterTick : Bool) : codeNulls afterTick (c :: rest) = c :: codeNulls false rest := by
    rw [code_nulls_cons fun _ isN => absurd isN notN, unticked]
  fun_induction codeNulls afterTick text with
  | case1 afterTick inner alone ih =>
      have still : (!afterTick && (inner ++ c :: rest).head? != some '\x60') = true := by
        cases inner with
        | nil => simpa [notTick] using alone
        | cons d others => exact alone
      simp only [List.cons_append]
      rw [codeNulls, if_pos still, ih]
  | case2 afterTick inner beside ih =>
      have still : ¬(!afterTick && (inner ++ c :: rest).head? != some '\x60') = true := by
        cases inner with
        | nil => simpa [notTick] using beside
        | cons d others => exact beside
      simp only [List.cons_append]
      rw [codeNulls, if_neg still, ih]
  | case3 afterTick d inner other ih =>
      have still : ∀ tail, d = 'N' → inner ++ c :: rest = 'U' :: 'L' :: 'L' :: tail → False := by
        intro tail isN split
        rcases inner with _ | ⟨u, _ | ⟨l, _ | ⟨m, further⟩⟩⟩
        · exact notU (List.cons.inj split).1
        · exact notL (List.cons.inj (List.cons.inj split).2).1
        · exact notL (List.cons.inj (List.cons.inj (List.cons.inj split).2).2).1
        · simp only [List.cons_append, List.cons.injEq] at split
          obtain ⟨rfl, rfl, rfl, -⟩ := split
          exact other further isN rfl
      rw [List.cons_append, code_nulls_cons still, ih, List.cons_append]
  | case4 afterTick => exact stop afterTick

theorem no_null_of_coded (tickless : '\x60' ∉ text) (fixed : codeNulls false text = text) :
    ¬"NULL".toList <:+: text := by
  generalize unticked : false = afterTick at fixed
  fun_induction codeNulls afterTick text with
  | case1 afterTick rest alone ih => cases fixed
  | case2 afterTick rest beside ih =>
      have head : rest.head? ≠ some '\x60' :=
        head_ne_of_not_mem fun member => tickless (by simp [member])
      exact absurd beside (by simpa [← unticked] using head)
  | case3 afterTick c rest other ih =>
      have differs : (c == '\x60') = false := by
        rw [beq_eq_false_iff_ne]
        rintro rfl
        exact tickless List.mem_cons_self
      have absent :=
        ih (fun member => tickless (List.mem_cons_of_mem c member)) differs.symm
          (List.cons.inj fixed).2
      rw [List.infix_cons_iff]
      rintro (⟨tail, starts⟩ | inside)
      · obtain ⟨isN, split⟩ := List.cons.inj starts.symm
        exact other tail isN split
      · exact absent inside
  | case4 => decide

theorem without_ticks_code_names {names : List (List Char)}
    (tickless : ∀ name ∈ names, '\x60' ∉ name) :
    (codeNames names).filter (· != '\x60') = List.intercalate [',', ' '] names := by
  have bare {name : List Char} (tickless : '\x60' ∉ name) : (inlineCode name).filter (· != '\x60') =
      name := by
    have own : name.filter (· != '\x60') = name := by
      rw [List.filter_eq_self]
      intro c member
      exact bne_iff_ne.2 fun same => tickless (same ▸ member)
    rw [inlineCode, List.filter_cons_of_neg (by decide), List.filter_append, own]
    exact List.append_nil name
  unfold codeNames
  induction names with
  | nil => rfl
  | cons name others ih =>
      have own := bare (tickless name List.mem_cons_self)
      cases others with
      | nil => simpa using own
      | cons next further =>
          rw [List.map_cons, List.map_cons, List.intercalate_cons_cons, List.intercalate_cons_cons,
            List.filter_append, List.filter_append, own, ← List.map_cons,
            ih fun name member => tickless name (List.mem_cons_of_mem _ member)]
          rfl

theorem tickless_of_bare {names : List (List Char)} (bare : names.all isBareName = true) :
    ∀ name ∈ names, '\x60' ∉ name := by
  intro name member tick
  have own := List.all_eq_true.1 bare name member
  simp only [isBareName, Bool.and_eq_true, Bool.not_eq_true', List.any_eq_false] at own
  exact own.2 _ tick (by simp)

/-- Setting names as code takes no backtick away from a `NULL`: a name with `NULL` has that
backtick, so it is not bare. -/
theorem code_nulls_mark_parameters (fixed : codeNulls false text = text) :
    codeNulls false (markParameters text) = markParameters text := by
  have colon : ':' ∉ ['N', 'U', 'L', '\x60'] := by decide
  unfold markParameters
  cases cut : cutAtPair ':' ' ' text with
  | none => exact fixed
  | some parts =>
      obtain ⟨names, description⟩ := parts
      simp only
      split
      · rename_i bare
        rw [append_of_cut_at_pair cut, code_nulls_past colon] at fixed
        have longer := (code_nulls_marked false names).length_le
        have longerRest := (code_nulls_marked false (' ' :: description)).length_le
        have length := congrArg List.length fixed
        simp only [List.length_append, List.length_cons] at length longerRest
        obtain ⟨fixedNames, fixedRest⟩ := List.append_inj fixed (by omega)
        have ticklessParts := tickless_of_bare bare
        have tickless : '\x60' ∉ names := by
          intro tick
          obtain ⟨part, member, inside⟩ := mem_split_at_pairs ',' ' ' tick (by decide) (by decide)
          exact ticklessParts part member inside
        have absent : ¬"NULL".toList <:+: codeNames (splitAtPairs ',' ' ' names) := by
          intro inside
          have erased := inside.filter (· != '\x60')
          rw [without_ticks_code_names ticklessParts, join_split_at_pairs] at erased
          exact no_null_of_coded tickless fixedNames erased
        rw [code_nulls_past colon, code_nulls_eq_self absent, (List.cons.inj fixedRest).2]
      · exact fixed

end Nulls

section Mentions

def IsSilent (text : List Char) : Prop :=
  ∀ rest, rest <:+ text → mention? rest = none

theorem is_silent_iff : IsSilent text ↔ ∀ rest ∈ text.tails, mention? rest = none := by
  simp only [IsSilent, List.mem_tails]

instance (text : List Char) : Decidable (IsSilent text) :=
  decidable_of_iff _ is_silent_iff.symm

theorem IsSilent.inside (silent : IsSilent text) (inside : rest <:+: text) : IsSilent rest := by
  intro tail behind
  obtain ⟨before, after, rfl⟩ := inside
  obtain ⟨between, rfl⟩ := behind
  have missing := silent (tail ++ after) ⟨before ++ between, by simp⟩
  rw [mention_eq] at missing ⊢
  split
  · rename_i starts
    rw [if_pos (starts_mention_append starts after)] at missing
    cases missing
  · rfl

theorem link_mentions_silent (lookup : Lookup) (silent : IsSilent text) :
    linkMentions lookup text = text := by
  unfold linkMentions
  induction text with
  | nil =>
      rw [pieces]
      rfl
  | cons c rest ih =>
      rw [pieces_plain (silent _ List.suffix_rfl), List.flatMap_cons,
        ih (silent.inside (List.suffix_cons c rest).isInfix)]
      rfl

/-- The first characters of a mention are no marks, so marks bring no mention about. -/
theorem Marked.silent (isMarked : Marked text marked)
    (silent : IsSilent text) : IsSilent marked := by
  intro rest behind
  obtain ⟨tail, under, restMarked⟩ := isMarked.suffix behind
  apply no_mention
  by_contra started
  rw [Bool.not_eq_false] at started
  obtain ⟨f, z, first, others, rfl, isF, isZ, isFirst⟩ := starts_mention_eq_true started
  have apart {c : Char} (inside : isMentionChar c = true) : '\\' ≠ c ∧ '\x60' ≠ c := by
    constructor <;> rintro rfl <;> exact absurd inside (by decide)
  have starts : [f, z, '_', first] <+: tail :=
    restMarked.start (by simp [apart isF, apart isZ, apart isFirst]) ⟨others, rfl⟩
  obtain ⟨further, rfl⟩ := starts
  have missing := silent _ under
  have startsAgain : startsMention ([f, z, '_', first] ++ further) = true := started
  rw [mention_eq, if_pos startsAgain] at missing
  cases missing

end Mentions

section Lines

theorem mark_parameters_again (line : List Char) :
    markParameters (markParameters line) = markParameters line := by
  have settled {marked : List Char} (ticked : ∃ rest, marked = '\x60' :: rest) :
      markParameters marked = marked := by
    unfold markParameters
    cases cut : cutAtPair ':' ' ' marked with
    | none => rfl
    | some parts => simp [not_bare_of_tick (tick_before_cut (.inl ticked) cut)]
  cases cut : cutAtPair ':' ' ' line with
  | none =>
      have unmarked : markParameters line = line := by rw [markParameters, cut]
      rw [unmarked, unmarked]
  | some parts =>
      obtain ⟨names, description⟩ := parts
      by_cases bare : (splitAtPairs ',' ' ' names).all isBareName = true
      · obtain ⟨first, others, split⟩ :=
          List.exists_cons_of_ne_nil (split_at_pairs_ne_nil ',' ' ' names)
        have whole : markParameters line = codeNames (splitAtPairs ',' ' ' names) ++ ':' :: ' ' ::
            description := by
          simp only [markParameters, cut, bare, if_true]
        refine settled ?_
        rw [whole, split]
        cases others with
        | nil => exact ⟨_, rfl⟩
        | cons next further =>
            rw [codeNames, List.map_cons, List.map_cons, List.intercalate_cons_cons]
            exact ⟨_, rfl⟩
      · have unmarked : markParameters line = line := by simp [markParameters, cut, bare]
        rw [unmarked, unmarked]

theorem line_markdown_silent (lookup : Lookup) {line : List Char} (silent : IsSilent line) :
    lineMarkdown lookup line = markParameters (escapeText line) := by
  rw [lineMarkdown, link_mentions_silent lookup ((escape_text_marked line).silent silent)]

theorem line_markdown_marked (lookup : Lookup) {line : List Char} (silent : IsSilent line) :
    Marked line (lineMarkdown lookup line) := by
  rw [line_markdown_silent lookup silent]
  exact (escape_text_marked line).trans (mark_parameters_marked _)

/-- The three passes find nothing to do in a line that has gone through them. -/
theorem line_markdown_again (lookup : Lookup) {line : List Char} (silent : IsSilent line) :
    lineMarkdown lookup (lineMarkdown lookup line) = lineMarkdown lookup line := by
  rw [line_markdown_silent lookup ((line_markdown_marked lookup silent).silent silent),
    line_markdown_silent lookup silent]
  have escaped : Escaped false (markParameters (escapeText line)) :=
    mark_parameters_escaped (code_nulls_escaped false (escape_brackets_escaped false line))
  have coded : codeNulls false (markParameters (escapeText line)) =
      markParameters (escapeText line) := code_nulls_mark_parameters (code_nulls_again id _)
  have settled : escapeText (markParameters (escapeText line)) =
      markParameters (escapeText line) := by
    rw [escapeText, escape_brackets_of_escaped escaped, coded]
  rw [settled, mark_parameters_again]

theorem text_markdown_prose (lookup : Lookup) (unbroken : IsUnbroken text)
    (prose : isArgumentLine text = false) :
    textMarkdown lookup text = lineMarkdown lookup (trim text) := by
  have nothing : lineMarkdown lookup [] = [] := by
    rw [line_markdown_silent lookup (by decide)]
    rfl
  cases text with
  | nil => exact nothing.symm
  | cons c rest =>
      cases blank : isBlankLine (c :: rest) with
      | true =>
          have empty : trim (c :: rest) = [] := by simpa [isBlankLine] using blank
          rw [textMarkdown, entries, split_lines_unbroken unbroken, entries_after_blank blank,
            empty, nothing]
          rfl
      | false =>
          have unmarked : dropStart? argumentMarker (trim (c :: rest)) = none := by
            rw [← Option.not_isSome_iff_eq_none, drop_start_is_some]
            exact Bool.eq_false_iff.1 prose
          rw [textMarkdown, entries, split_lines_unbroken unbroken, entries_after_text blank,
            Entry.ofLine, unmarked]
          simp [entriesAfter, layout, Entry.bullet]

theorem trim_marked {line : List Char} (trimmed : trim line = line)
    (isMarked : Marked line marked) :
    trim marked = marked := by
  have solid {c : Char} (isMark : c = '\\' ∨ c = '\x60') : isBlank c = false := by
    rcases isMark with rfl | rfl <;> decide
  obtain ⟨first, final⟩ := trim_eq_self.1 trimmed
  exact trim_eq_self.2 ⟨fun c head => (isMarked.head head).elim (first c) solid,
    fun c last => (isMarked.last last).elim (final c) solid⟩

end Lines

/-- A single line of prose without mentions, whatever brackets, backslashes, backticks and names
before a colon it holds, is not changed any more once it has been transformed. -/
theorem transform_again (table : Symbol.Table) (text : String) (unbroken : IsUnbroken text.toList)
    (prose : isArgumentLine text.toList = false) (silent : IsSilent text.toList) :
    transform table (transform table text) = transform table text := by
  obtain ⟨before, behind, split, -⟩ := trim_split text.toList
  have inside : trim text.toList <:+: text.toList := ⟨before, behind, split.symm⟩
  have silentLine : IsSilent (trim text.toList) := silent.inside inside
  have isMarked := line_markdown_marked (Lookup.ofTable table) silentLine
  have trimmed := trim_marked (trim_again text.toList) isMarked
  have unbrokenMarked : IsUnbroken (lineMarkdown (Lookup.ofTable table) (trim text.toList)) := by
    intro c member
    rcases isMarked.mem member with inLine | rfl | rfl
    · exact unbroken c (inside.subset inLine)
    · decide
    · decide
  have proseMarked : isArgumentLine (lineMarkdown (Lookup.ofTable table) (trim text.toList)) =
      false := by
    rw [isArgumentLine, trimmed, startsWith, ← Bool.not_eq_true, List.isPrefixOf_iff_prefix]
    intro starts
    have marker : argumentMarker <+: trim text.toList := isMarked.start (by decide) starts
    rw [isArgumentLine, startsWith, List.isPrefixOf_iff_prefix.2 marker] at prose
    cases prose
  have once : (transform table text).toList =
      lineMarkdown (Lookup.ofTable table) (trim text.toList) := by
    rw [transform, String.toList_ofList, text_markdown_prose _ unbroken prose]
  rw [← String.toList_inj, once, transform, String.toList_ofList, once,
    text_markdown_prose _ unbrokenMarked proseMarked, trimmed, line_markdown_again _ silentLine]

/-- Names with an escaped and an open bracket, and `NULL` alone, beside backticks, in brackets and
twice in a row. -/
theorem nulls_and_brackets_settled :
    let table : Symbol.Table := ⟨[("fz_page", "fz_page")]⟩
    let text := "  a[0], \\[b: if NULL: see <NULL>, `NULL or NULLNULL[\\\\<] "
    let markdown :=
      "`a\\[0\\]`, `\\[b`: if `NULL`: see \\<`NULL`\\>, `NULL or `NULL``NULL`\\[\\\\<\\]"
    (IsUnbroken text.toList ∧ isArgumentLine text.toList = false ∧ IsSilent text.toList) ∧
      transform table text = markdown ∧ transform table markdown = markdown := by
  intro table text markdown
  have unbroken : IsUnbroken text.toList := by
    have all : (text.toList.all fun c => !isLineBreak c) = true := by decide +kernel
    simpa [IsUnbroken] using all
  have prose : isArgumentLine text.toList = false := by decide +kernel
  have silent : IsSilent text.toList := by decide +kernel
  have once : transform table text = markdown := by decide +kernel
  refine ⟨⟨unbroken, prose, silent⟩, once, ?_⟩
  rw [← once, transform_again table text unbroken prose silent]

end HeaderDocs.Comment
