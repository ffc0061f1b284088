import HeaderDocs.Proofs.Declaration.Blocks
import HeaderDocs.Proofs.Site.Pages
import Mathlib.Logic.Function.Iterate

/-!
A tree of declarations is shown and registered in one order. Both ways through the tree meet each
declaration before its members and know what it is a member of, so the anchors that are shown are
those that are kept. Members are not assumed to be without members: the argument is an induction on
trees of any depth.
-/

namespace HeaderDocs.Declaration

set_option autoImplicit false

/-- A place in a tree of declarations, with the number of declarations above it. -/
structure Nested extends Item where
  depth : Nat

def Nested.anchor (nested : Nested) : String :=
  nested.toItem.anchor

mutual

def nestedFrom (depth : Nat) (parent : Option Declaration) : Declaration → List Nested
  | ⟨name, kind, doc, signature, file, line, derives, members⟩ =>
      let declaration : Declaration := ⟨name, kind, doc, signature, file, line, derives, members⟩
      ⟨⟨parent, declaration⟩, depth⟩ :: membersFrom (depth + 1) declaration members

def membersFrom (depth : Nat) (parent : Declaration) : List Declaration → List Nested
  | [] => []
  | member :: members => nestedFrom depth (some parent) member ++ membersFrom depth parent members

end

def Style.below (style : Style) (depth : Nat) : Style :=
  Style.forMembers^[depth] style

theorem below_succ (style : Style) (depth : Nat) :
    style.below (depth + 1) = (style.below depth).forMembers :=
  Function.iterate_succ_apply' _ _ _

theorem below_members (style : Style) (depth : Nat) :
    (style.below depth).members = style.members := by
  induction depth with
  | zero => rfl
  | succ depth ih =>
      rw [below_succ]
      exact ih

theorem below_level (style : Style) (depth : Nat) :
    (style.below depth).headingLevel = style.headingLevel + depth := by
  induction depth with
  | zero => exact (Int.add_zero _).symm
  | succ depth ih =>
      rw [below_succ, Style.forMembers, ih]
      exact Int.add_assoc _ _ _

mutual

theorem blocks_of_nested {style : Style} (whole : style.members = true) (depth : Nat)
    (parent : Option Declaration) :
    ∀ tree, blocks (style.below depth) parent tree = (nestedFrom depth parent tree).flatMap
      fun nested =>
      nested.declaration.ownBlocks (style.below nested.depth) nested.parent
  | ⟨name, kind, doc, signature, file, line, derives, members⟩ => by
      rw [blocks, nestedFrom, List.flatMap_cons, below_members, whole, if_pos rfl, ← below_succ]
      exact congrArg _ (member_blocks_of_nested whole (depth + 1) _ members)

theorem member_blocks_of_nested {style : Style} (whole : style.members = true) (depth : Nat)
    (parent : Declaration) :
    ∀ members, memberBlocks (style.below depth) parent members =
      (membersFrom depth parent members).flatMap fun nested =>
      nested.declaration.ownBlocks (style.below nested.depth) nested.parent
  | [] => rfl
  | member :: members => by
      rw [memberBlocks, membersFrom, List.flatMap_append,
        blocks_of_nested whole depth (some parent) member,
        member_blocks_of_nested whole depth parent members]

end

mutual

/-- The anchors of a tree are those of its places, as far as they have one. -/
theorem anchors_of_nested (depth : Nat) (parent : Option Declaration) :
    ∀ tree, anchors parent tree = ((nestedFrom depth parent tree).map Nested.anchor).filter (· ≠ "")
  | ⟨name, kind, doc, signature, file, line, derives, members⟩ => by
      rw [anchors, nestedFrom, List.map_cons, List.filter_cons,
        member_anchors_of_nested (depth + 1) _ members]
      simp only [Nested.anchor, Item.anchor, String.isEmpty_iff]
      split <;> simp_all

theorem member_anchors_of_nested (depth : Nat) (parent : Declaration) : ∀ members,
    memberAnchors parent members = ((membersFrom depth parent members).map Nested.anchor).filter
      (· ≠ "")
  | [] => rfl
  | member :: members => by
      rw [memberAnchors, membersFrom, List.map_append, List.filter_append,
        anchors_of_nested depth (some parent) member, member_anchors_of_nested depth parent members]

end

def Nested.text (style : Style) (nested : Nested) : String :=
  String.intercalate "\n" (nested.declaration.ownLines (style.below nested.depth) nested.parent)

/-- A text that shows a place: the line of its anchor above an empty line, if it has one, its
heading at some level, whatever else there is, and a line feed at the end. -/
structure Shows (level : Nat) (nested : Nested) (text : String) : Prop where
  opened : ∃ body, text = (if nested.anchor = "" then "" else anchorLine nested.anchor ++ "\n\n") ++
    String.ofList (List.replicate level '#') ++ " " ++ nested.declaration.title ++ "\n" ++ body
  anchored : text.toList.head? = some '<' ↔ nested.anchor ≠ ""
  closed : ∃ body, text = body ++ "\n"

theorem own_lines_close (declaration : Declaration) (style : Style) (parent : Option Declaration) :
    ∃ front, front ≠ [] ∧ declaration.ownLines style parent = front ++ [""] := by
  have last : (declaration.ownLines style parent).getLast? = some "" := by
    unfold ownLines signatureLines docLines deriveLines
    split_ifs <;> simp
  obtain ⟨front, lines⟩ := List.getLast?_eq_some_iff.1 last
  refine ⟨front, ?_, lines⟩
  rintro rfl
  have length := congrArg List.length lines
  simp [ownLines] at length
  omega

theorem own_lines_open (declaration : Declaration) (style : Style) (parent : Option Declaration) :
    ∃ rest, declaration.ownLines style parent =
      (if declaration.anchor parent = "" then
        [] else [anchorLine (declaration.anchor parent), ""]) ++
        declaration.heading style.headingLevel :: "" :: rest := by
  refine ⟨declaration.signatureLines ++ declaration.docLines style ++
    declaration.deriveLines style, ?_⟩
  simp [ownLines]

theorem text_opens (style : Style) (nested : Nested) : ∃ body, nested.text style =
    (if nested.anchor = "" then "" else anchorLine nested.anchor ++ "\n\n") ++
      nested.declaration.heading (style.headingLevel + nested.depth) ++ "\n" ++ body := by
  obtain ⟨rest, lines⟩ := own_lines_open nested.declaration (style.below nested.depth) nested.parent
  refine ⟨String.intercalate "\n" ("" :: rest), ?_⟩
  rw [Nested.text, lines, below_level, Nested.anchor, Item.anchor]
  split
  · simp [String.intercalate_cons_cons]
  · have feeds : "\n\n" = "\n" ++ "\n" := rfl
    simp only [feeds, List.cons_append, List.nil_append, String.intercalate_cons_cons,
      String.append_assoc, String.empty_append]

theorem text_closes (style : Style) (nested : Nested) :
    ∃ body, nested.text style = body ++ "\n" := by
  obtain ⟨front, some, lines⟩ :=
    own_lines_close nested.declaration (style.below nested.depth) nested.parent
  refine ⟨String.intercalate "\n" front, ?_⟩
  rw [Nested.text, lines, String.intercalate_append_of_ne_nil some (by simp)]
  simp

theorem text_shows {style : Style} (level : 1 ≤ style.headingLevel) (nested : Nested) :
    Shows (style.headingLevel.toNat + nested.depth) nested (nested.text style) := by
  obtain ⟨body, opened⟩ := text_opens style nested
  have marks : headingMarks (style.headingLevel + nested.depth) =
      List.replicate (style.headingLevel.toNat + nested.depth) '#' := by
    rw [headingMarks]
    congr 1
    omega
  rw [heading, marks] at opened
  refine ⟨⟨body, ?_⟩, ?_, text_closes style nested⟩
  · rw [opened]
    simp only [String.append_assoc]
  · -- The first level is at least one, so without an anchor a mark of the heading comes first.
    obtain ⟨count, positive⟩ : ∃ count, style.headingLevel.toNat + nested.depth = count + 1 :=
      ⟨style.headingLevel.toNat + nested.depth - 1, by omega⟩
    rw [opened, positive]
    by_cases unanchored : nested.anchor = ""
    · simp [unanchored, List.replicate_succ]
    · simp [unanchored, anchorLine]

/-- A tree is shown by the texts of its places, with a line feed between each two. -/
theorem render_of_nested {style : Style} (whole : style.members = true)
    (parent : Option Declaration) (tree : Declaration) : render style parent tree =
      String.intercalate "\n" ((nestedFrom 0 parent tree).map (Nested.text style)) := by
  have filled : ∀ group ∈ (nestedFrom 0 parent tree).map fun nested =>
      nested.declaration.ownBlocks (style.below nested.depth) nested.parent, group ≠ [] := by
    rintro group member rfl
    obtain ⟨nested, -, same⟩ := List.mem_map.1 member
    exact own_blocks_filled _ _ _ same
  have texts : (nestedFrom 0 parent tree).map (Nested.text style) =
      ((nestedFrom 0 parent tree).map fun nested =>
      nested.declaration.ownBlocks (style.below nested.depth) nested.parent).map Block.joined := by
    rw [List.map_map]
    refine List.map_congr_left fun nested _ => ?_
    rw [Function.comp_apply, Block.joined, own_blocks_text, Nested.text]
  rw [texts, Block.joined_flatten filled, render_blocks, ← List.flatMap_def]
  exact congrArg Block.joined (blocks_of_nested whole 0 parent tree)

theorem nested_not_nil (depth : Nat) (parent : Option Declaration) (tree : Declaration) :
    nestedFrom depth parent tree ≠ [] := by
  obtain ⟨name, kind, doc, signature, file, line, derives, members⟩ := tree
  rw [nestedFrom]
  exact List.cons_ne_nil _ _

theorem intercalate_closes {texts : List String} (some : texts ≠ [])
    (closed : ∀ text ∈ texts, ∃ body, text = body ++ "\n") :
    ∃ body, String.intercalate "\n" texts = body ++ "\n" := by
  obtain ⟨front, last, rfl⟩ : ∃ front last, texts = front ++ [last] :=
    ⟨_, _, (List.dropLast_append_getLast some).symm⟩
  obtain ⟨body, rfl⟩ := closed last (by simp)
  by_cases empty : front = []
  · exact ⟨body, by simp [empty]⟩
  · refine ⟨String.intercalate "\n" front ++ "\n" ++ body, ?_⟩
    rw [String.intercalate_append_of_ne_nil empty (by simp)]
    simp [String.append_assoc]

def linesOf (text : String) : List String :=
  (text.toList.splitOn '\n').map String.ofList

theorem lines_of_append (front back : String) :
    linesOf (front ++ "\n" ++ back) = linesOf front ++ linesOf back := by
  have chars : (front ++ "\n" ++ back).toList = front.toList ++ '\n' :: back.toList := by simp
  rw [linesOf, chars, List.splitOn_append_cons_self, List.map_append]
  rfl

theorem lines_of_joined {texts : List String} (some : texts ≠ []) :
    linesOf (String.intercalate "\n" texts) = texts.flatMap linesOf := by
  have chars : (String.intercalate "\n" texts).toList = Text.joinLines (texts.map String.toList) :=
    String.toList_intercalate
  rw [linesOf, chars, Block.split_join_lines (by simpa using some), List.flatMap_map,
    List.map_flatMap]
  rfl

end HeaderDocs.Declaration
