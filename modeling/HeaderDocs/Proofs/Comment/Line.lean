import HeaderDocs.Comment.Markdown
import HeaderDocs.Proofs.Comment.Parameters
import Mathlib.Data.List.Basic

/-!
The Markdown of one line as segments. Its links are those of its mentions, and no pass over the line
leaves a closing bracket without its backslash: brackets are escaped first, `NULL`, mentions and
parameter names then bring backticks and links, but never a bracket that stands for itself.
-/

namespace HeaderDocs.Comment

open Text Declaration Segment

set_option autoImplicit false

theorem escape_brackets_guarded (escaped : Bool) (text : List Char) :
    Guarded escaped (plains (escapeBrackets escaped text)) := by
  fun_induction escapeBrackets escaped text with
  | case1 => trivial
  | case2 escaped c rest bracket ih =>
      have other : (c == '\\') = false := by
        by_cases backslash : c = '\\'
        · subst backslash
          simp [isBracket] at bracket
        · simpa using backslash
      refine ⟨by simp, fun _ => by decide, ?_⟩
      rw [other]
      exact ih
  | case3 escaped c rest kept ih =>
      refine ⟨?_, ih⟩
      intro close
      simpa [close, isBracket] using kept

theorem code_nulls_guarded {escaped : Bool} (afterTick : Bool) {text : List Char}
    (guarded : Guarded escaped (plains text)) :
    Guarded escaped (plains (codeNulls afterTick text)) := by
  fun_induction codeNulls afterTick text generalizing escaped with
  | case1 afterTick rest alone ih =>
      obtain ⟨-, -, -, -, guardedRest⟩ := guarded
      exact ⟨by simp, by simp, by simp, by simp, by simp, by simp, ih guardedRest⟩
  | case2 afterTick rest beside ih =>
      obtain ⟨-, -, -, -, guardedRest⟩ := guarded
      exact ⟨by simp, by simp, by simp, by simp, ih guardedRest⟩
  | case3 afterTick c rest _ ih => exact ⟨guarded.1, ih guarded.2⟩
  | case4 => trivial

theorem escape_text_guarded (line : List Char) : Guarded false (plains (escapeText line)) :=
  code_nulls_guarded false (escape_brackets_guarded false line)

theorem mention_chars {text name rest : List Char} (found : mention? text = some (name, rest)) :
    2 ≤ name.length ∧ ∀ c ∈ name, isMentionChar c := by
  unfold mention? at found
  split at found
  · rename_i f z first rest
    split at found
    · rename_i starts
      simp only [Option.some.injEq, Prod.mk.injEq] at found
      obtain ⟨rfl, -⟩ := found
      simp only [Bool.and_eq_true, Bool.or_eq_true, beq_iff_eq] at starts
      obtain ⟨⟨isF, isZ⟩, isFirst⟩ := starts
      have mentionF : isMentionChar f := by rcases isF with rfl | rfl <;> decide
      have mentionZ : isMentionChar z := by rcases isZ with rfl | rfl <;> decide
      refine ⟨by simp, ?_⟩
      simp only [List.mem_cons]
      rintro c (rfl | rfl | rfl | rfl | member)
      · exact mentionF
      · exact mentionZ
      · decide
      · exact isFirst
      · exact List.all_eq_true.1 List.all_takeWhile c member
    · simp at found
  · simp at found

theorem not_bracket_of_mention_char {c : Char}
    (inside : isMentionChar c = true) : isBracket c = false := by
  by_contra bracket
  simp only [isBracket, Bool.not_eq_false, Bool.or_eq_true, beq_iff_eq] at bracket
  rcases bracket with ((rfl | rfl) | rfl) | rfl <;> exact absurd inside (by decide)

theorem mention_of_piece {text name : List Char} (member : Piece.mention name ∈ pieces text) :
    2 ≤ name.length ∧ ∀ c ∈ name, isMentionChar c := by
  fun_induction pieces text with
  | case1 => simp at member
  | case2 c rest mentioned after found ih =>
      rcases List.mem_cons.1 member with own | later
      · rw [Piece.mention.inj own]
        exact mention_chars found
      · exact ih later
  | case3 c rest missing ih =>
      rcases List.mem_cons.1 member with own | later
      · simp at own
      · exact ih later

/-- A mention or its singular, as the name of a link. -/
def IsName (name : List Char) : Prop :=
  name ≠ [] ∧ ∀ c ∈ name, isMentionChar c

theorem not_mem_name {name : List Char} (isName : IsName name) {c : Char}
    (other : isMentionChar c = false) :
    c ∉ name := by
  intro member
  simp [isName.2 c member] at other

theorem singular_eq_some {name singular : List Char} :
    singular? name = some singular ↔ name = singular ++ ['s'] := by
  unfold singular? dropEnd? endsWith
  constructor
  · intro found
    split at found
    · rename_i plural
      obtain ⟨front, rfl⟩ := List.isSuffixOf_iff_suffix.1 plural
      simpa using found
    · simp at found
  · rintro rfl
    simp

/-- How a name is shown: with a star as code; else by a link if it is known; else, if it is a known
name with an `s` behind it, by a link to that; else as code. -/
inductive ShownAs (lookup : Lookup) (name : List Char) : Shown → Prop
  | pointer (starred : '*' ∈ name) : ShownAs lookup name (.code name)
  | linked {anchor : List Char} (starless : '*' ∉ name) (known : lookup name = some anchor) :
      ShownAs lookup name (.link name anchor)
  | plural {singular anchor : List Char} (starless : '*' ∉ name) (unknown : lookup name = none)
      (ending : name = singular ++ ['s']) (known : lookup singular = some anchor) :
      ShownAs lookup name (.plural singular anchor)
  | unknown (starless : '*' ∉ name) (unknown : lookup name = none)
      (noSingular : ∀ singular, name = singular ++ ['s'] → lookup singular = none) :
      ShownAs lookup name (.code name)

theorem shown_as (lookup : Lookup) (name : List Char) :
    ShownAs lookup name (Shown.ofName lookup name) := by
  unfold Shown.ofName
  split
  · rename_i starred
    exact .pointer (by simpa using starred)
  · rename_i noStar
    have starless : '*' ∉ name := by simpa using noStar
    split
    · rename_i anchor known
      exact .linked starless known
    · rename_i unknown
      split
      · rename_i noEnding
        refine .unknown starless unknown fun singular ending => ?_
        simp [singular_eq_some.2 ending] at noEnding
      · rename_i singular ending
        split
        · rename_i anchor known
          exact .plural starless unknown (singular_eq_some.1 ending) known
        · rename_i missing
          refine .unknown starless unknown fun other same => ?_
          obtain rfl : singular = other := by simpa [ending] using singular_eq_some.2 same
          exact missing

theorem singular_name {name singular : List Char} (long : 2 ≤ name.length)
    (chars : ∀ c ∈ name, isMentionChar c)
    (ending : name = singular ++ ['s']) : IsName singular := by
  subst ending
  refine ⟨?_, fun c member => chars c (List.mem_append_left _ member)⟩
  intro empty
  simp [empty] at long

def Shown.segments : Shown → List Segment
  | code name => plains (inlineCode name)
  | link name anchor => [.link name anchor]
  | plural singular anchor => [.link singular anchor, .plain 's']

def Piece.segments (lookup : Lookup) : Piece → List Segment
  | .plain c => [.plain c]
  | .mention name => (Shown.ofName lookup name).segments

theorem write_shown (shown : Shown) : write shown.segments = shown.markdown := by
  cases shown <;> simp [Shown.segments, Shown.markdown, Segment.text]

theorem write_pieces (lookup : Lookup) (pieces : List Piece) :
    write (pieces.flatMap (Piece.segments lookup)) = pieces.flatMap (Piece.markdown lookup) := by
  induction pieces with
  | nil => rfl
  | cons piece rest ih =>
      cases piece with
      | plain c => simp [Piece.segments, Piece.markdown, Segment.text, ih]
      | mention name => simp [Piece.segments, Piece.markdown, write_shown, ih]

def Lookup.placed (resolve : Resolver) (lookup : Lookup) : Lookup :=
  fun name => (lookup name).map (placeOf resolve)

theorem map_placed_shown (resolve : Resolver) (lookup : Lookup) (name : List Char) :
    (Shown.ofName lookup name).segments.map (Segment.placed resolve) =
      (Shown.ofName (lookup.placed resolve) name).segments := by
  unfold Shown.ofName
  split
  · simp [Shown.segments]
  · cases known : lookup name with
    | some anchor => simp [Lookup.placed, known, Shown.segments, Segment.placed]
    | none =>
        cases singular? name with
        | none => simp [Lookup.placed, known, Shown.segments]
        | some singular =>
            cases knownSingular : lookup singular with
            | none => simp [Lookup.placed, known, knownSingular, Shown.segments]
            | some anchor =>
                simp [Lookup.placed, known, knownSingular, Shown.segments, Segment.placed]

theorem map_placed_pieces (resolve : Resolver) (lookup : Lookup) (pieces : List Piece) :
    (pieces.flatMap (Piece.segments lookup)).map (Segment.placed resolve) =
      pieces.flatMap (Piece.segments (lookup.placed resolve)) := by
  rw [List.map_flatMap]
  apply List.flatMap_congr
  intro piece _
  cases piece with
  | plain c => rfl
  | mention name => exact map_placed_shown resolve lookup name

theorem guarded_after_plains {escaped : Bool} {text : List Char} {rest : List Segment}
    (nonempty : text ≠ []) (unescaping : '\\' ∉ text)
    (guarded : Guarded escaped (plains text ++ rest)) : Guarded false rest := by
  induction text generalizing escaped with
  | nil => exact absurd rfl nonempty
  | cons c others ih =>
      simp only [List.mem_cons, not_or] at unescaping
      have other : (c == '\\') = false := by simpa using fun same => unescaping.1 same.symm
      have guardedOthers : Guarded false (plains others ++ rest) := by
        rw [← other]
        exact guarded.2
      cases others with
      | nil => exact guardedOthers
      | cons d further => exact ih (by simp) unescaping.2 guardedOthers

theorem shown_guarded (escaped : Bool) {lookup : Lookup} {name : List Char} (isName : IsName name) :
    Guarded escaped (Shown.ofName lookup name).segments := by
  have code : Guarded escaped (plains (inlineCode name)) :=
    inline_code_guarded (guarded_plains (not_mem_name isName (by decide)))
  have shown := shown_as lookup name
  generalize Shown.ofName lookup name = form at shown ⊢
  cases shown with
  | pointer starred => exact code
  | linked starless known => trivial
  | plural starless unknown ending known => exact ⟨by simp, trivial⟩
  | unknown starless unknown noSingular => exact code

theorem pieces_guarded {escaped : Bool} (lookup : Lookup) {text : List Char}
    (guarded : Guarded escaped (plains text)) :
    Guarded escaped ((pieces text).flatMap (Piece.segments lookup)) := by
  fun_induction pieces text generalizing escaped with
  | case1 => trivial
  | case2 c rest name after found ih =>
      obtain ⟨long, chars⟩ := mention_chars found
      have nonempty : name ≠ [] := by
        intro empty
        simp [empty] at long
      have isName : IsName name := ⟨nonempty, chars⟩
      rw [mention?_append found, plains_append] at guarded
      have guardedAfter := guarded_after_plains nonempty (not_mem_name isName (by decide)) guarded
      exact guarded_append (shown_guarded escaped isName) (ih guardedAfter)
  | case3 c rest missing ih => exact ⟨guarded.1, ih guarded.2⟩

/-- The anchors that a look-up gives can stand as the targets of links. -/
def Aimed (lookup : Lookup) : Prop :=
  ∀ name anchor, lookup name = some anchor → anchor ≠ [] ∧ ∀ c ∈ anchor, isTargetChar c

theorem link_legible {lookup : Lookup} (aimed : Aimed lookup) {known name anchor : List Char}
    (isName : IsName name) (found : lookup known = some anchor) :
    (Segment.link name anchor).Legible := by
  obtain ⟨nonempty, reachable⟩ := aimed known anchor found
  refine ⟨isName.1, not_mem_name isName (by decide), ?_, nonempty, reachable⟩
  intro start
  exact not_mem_name isName (c := ']') (by decide) (List.mem_of_mem_head? start)

theorem shown_legible {lookup : Lookup} (aimed : Aimed lookup) {name : List Char}
    (long : 2 ≤ name.length) (chars : ∀ c ∈ name, isMentionChar c) :
    ∀ segment ∈ (Shown.ofName lookup name).segments, segment.Legible := by
  have nonempty : name ≠ [] := by
    intro empty
    simp [empty] at long
  have shown := shown_as lookup name
  generalize Shown.ofName lookup name = form at shown ⊢
  cases shown with
  | pointer starred => exact plains_legible _
  | linked starless known => simpa [Shown.segments] using link_legible aimed ⟨nonempty, chars⟩ known
  | plural starless unknown ending known =>
      have legible := link_legible aimed (singular_name long chars ending) known
      simpa [Shown.segments, Segment.Legible] using legible
  | unknown starless unknown noSingular => exact plains_legible _

theorem pieces_legible {lookup : Lookup} (aimed : Aimed lookup) (text : List Char) :
    ∀ segment ∈ (pieces text).flatMap (Piece.segments lookup), segment.Legible := by
  fun_induction pieces text with
  | case1 => simp
  | case2 c rest name after found ih =>
      obtain ⟨long, chars⟩ := mention_chars found
      intro segment member
      rcases List.mem_append.1 member with own | later
      · exact shown_legible aimed long chars segment own
      · exact ih segment later
  | case3 c rest missing ih =>
      intro segment member
      rcases List.mem_append.1 member with own | later
      · simp only [Piece.segments, List.mem_singleton] at own
        subst own
        trivial
      · exact ih segment later

end HeaderDocs.Comment
