import HeaderDocs.Proofs.Site.Pages
import HeaderDocs.Proofs.Walk.Interruption
import HeaderDocs.Proofs.Walk.Uniqueness

/-!
Where declarations without a name of their own can be linked to. The spelling of a missing name ends
in a blank, and no name in C has one; a text that goes on with such a name is therefore anonymous
exactly if its front is. Symbols are registered for declarations and variants only where that front
has a name, and the anchors of both look at it too. The anchors of fields do not. Nothing is assumed
of how records are spelled, and calls may fail.
-/

namespace HeaderDocs

set_option autoImplicit false

namespace Symbol

open Text

/-- The spelling of a missing name up to the blank before the place: a bracket, the word for a
missing name, which ends there, and an `at` between blanks before the bracket closes. -/
def IsMissingName (spelling : List Char) : Prop :=
  ∃ word inside, (word = "unnamed".toList ∨ word = "anonymous".toList) ∧
    (∀ c ∈ inside.head?, isWord c = false) ∧
    ')' ∉ inside ∧ spelling = '(' :: (word ++ (inside ++ " at ".toList))

theorem after_missing_name {word tail : List Char}
    (missing : word = "unnamed".toList ∨ word = "anonymous".toList) :
    (dropStart? "unnamed".toList (word ++ tail)).or (dropStart? "anonymous".toList (word ++ tail)) =
      some tail := by
  rcases missing with rfl | rfl
  · rw [drop_start_append]
    rfl
  · have other : dropStart? "unnamed".toList ("anonymous".toList ++ tail) = none := rfl
    rw [other, drop_start_append]
    rfl

theorem after_missing_name_iff {text tail : List Char} :
    afterMissingName? text = some tail ↔
      ∃ word, (word = "unnamed".toList ∨ word = "anonymous".toList) ∧
      text = '(' :: (word ++ tail) ∧ ∃ c rest, tail = c :: rest ∧ isWord c = false := by
  constructor
  · intro found
    unfold afterMissingName? at found
    split at found
    · rename_i rest
      split at found
      · rename_i c behind dropped
        split at found
        · simp at found
        · rename_i ended
          obtain rfl := Option.some.inj found
          have word : ∃ word, (word = "unnamed".toList ∨ word = "anonymous".toList) ∧
              word ++ c :: behind = rest := by
            rcases Option.or_eq_some_iff.1 dropped with first | ⟨-, second⟩
            · exact ⟨_, .inl rfl, append_of_drop_start first⟩
            · exact ⟨_, .inr rfl, append_of_drop_start second⟩
          obtain ⟨word, missing, rfl⟩ := word
          exact ⟨word, missing, rfl, c, behind, rfl, by simpa using ended⟩
      · simp at found
    · simp at found
  · rintro ⟨word, missing, rfl, c, rest, rfl, ended⟩
    simp only [afterMissingName?, after_missing_name missing, ended, Bool.false_eq_true, if_false]

theorem starts_anonymous_iff {text : List Char} :
    startsAnonymous text ↔ ∃ spelling, IsMissingName spelling ∧ spelling <+: text := by
  constructor
  · intro starts
    unfold startsAnonymous at starts
    split at starts
    · rename_i tail found
      obtain ⟨word, missing, rfl, c, rest, cut, ended⟩ := after_missing_name_iff.1 found
      obtain ⟨inside, behind, whole⟩ := contains_iff_infix.1 starts
      have before : inside ++ " at ".toList <+: tail := by
        refine List.IsPrefix.trans ?_ (List.takeWhile_prefix (· != ')'))
        rw [← whole]
        exact List.prefix_append _ _
      refine ⟨_, ⟨word, inside, missing, ?_, ?_, rfl⟩, ?_⟩
      · intro first headed
        obtain ⟨others, rfl⟩ := List.head?_eq_some_iff.1 headed
        rw [cut, List.cons_append, List.cons_prefix_cons] at before
        rwa [before.1]
      · intro closed
        have inHead : ')' ∈ tail.takeWhile (· != ')') := by
          rw [← whole]
          simp [closed]
        simpa using List.all_eq_true.1 List.all_takeWhile _ inHead
      · rw [List.cons_prefix_cons]
        exact ⟨rfl, (List.prefix_append_right_inj word).2 before⟩
    · simp at starts
  · rintro ⟨spelling, ⟨word, inside, missing, ended, unclosed, rfl⟩, behind, rfl⟩
    have found : afterMissingName? ('(' :: (word ++ (inside ++ " at ".toList)) ++ behind) =
        some (inside ++ " at ".toList ++ behind) := by
      refine after_missing_name_iff.2 ⟨word, missing, by simp, ?_⟩
      cases inside with
      | nil => exact ⟨' ', _, rfl, by decide +kernel⟩
      | cons first others => exact ⟨first, _, rfl, ended first rfl⟩
    have closedless : ')' ∉ inside ++ " at ".toList := by simp [unclosed]
    have passed : ∀ c ∈ inside ++ " at ".toList, (c != ')') = true := by
      intro c member
      simpa using fun closed : c = ')' => closedless (closed ▸ member)
    rw [startsAnonymous, found]
    simp only
    rw [List.takeWhile_append_of_pos passed, contains_iff_infix]
    exact List.infix_append _ _ _

theorem has_anonymous_iff {text : List Char} :
    hasAnonymous text ↔ ∃ spelling, IsMissingName spelling ∧ spelling <:+: text := by
  induction text with
  | nil =>
      simp only [hasAnonymous, Bool.false_eq_true, List.infix_nil, false_iff]
      rintro ⟨spelling, ⟨word, inside, -, -, -, rfl⟩, empty⟩
      simp at empty
  | cons c rest ih =>
      rw [hasAnonymous, Bool.or_eq_true, starts_anonymous_iff, ih, ← exists_or]
      simp only [List.infix_cons_iff, and_or_left]

theorem IsMissingName.ends {spelling : List Char} (missing : IsMissingName spelling) :
    ∃ front, spelling = front ++ [' '] := by
  obtain ⟨word, inside, -, -, -, rfl⟩ := missing
  exact ⟨'(' :: (word ++ (inside ++ " at".toList)), by simp⟩

/-- What goes on without a blank is anonymous exactly if its front is: the spelling of a missing
name ends in one. -/
theorem has_anonymous_append {text tail : List Char} (solid : ' ' ∉ tail) :
    hasAnonymous (text ++ tail) = hasAnonymous text := by
  rw [Bool.eq_iff_iff, has_anonymous_iff, has_anonymous_iff]
  refine exists_congr fun spelling => and_congr_right fun missing => ?_
  refine ⟨?_, fun inside => inside.trans (List.infix_append' [] text tail)⟩
  rintro ⟨front, behind, whole⟩
  rcases List.append_eq_append_iff.1 whole with ⟨more, same, -⟩ | ⟨more, same, split⟩
  · exact ⟨front, more, same.symm⟩
  · obtain ⟨body, rfl⟩ := missing.ends
    rcases List.eq_nil_or_concat' more with rfl | ⟨others, last, rfl⟩
    · exact ⟨front, [], by simpa using same⟩
    · rw [← List.append_assoc, ← List.append_assoc] at same
      obtain rfl : ' ' = last := by simpa using (List.append_inj' same rfl).2
      simp [split] at solid

theorem not_anonymous_of_solid {name : String}
    (solid : ' ' ∉ name.toList) : isAnonymous name = false := by
  have front : hasAnonymous ([] ++ name.toList) = hasAnonymous [] := has_anonymous_append solid
  exact front

@[simp] theorem is_anonymous_empty : isAnonymous "" = false :=
  not_anonymous_of_solid (by simp)

theorem is_anonymous_append {front back : String} (solid : ' ' ∉ back.toList) :
    isAnonymous (front ++ back) = isAnonymous front := by
  rw [isAnonymous, String.toList_append, has_anonymous_append solid, isAnonymous]

theorem is_anonymous_variant_anchor {enumName variant : String} (solid : ' ' ∉ variant.toList) :
    isAnonymous (Table.variantAnchor enumName variant) = isAnonymous enumName := by
  rw [Table.variantAnchor, String.append_assoc, is_anonymous_append (by simpa using solid)]

/-- Nothing in the table is anonymous, neither a name nor an anchor. -/
def Table.Clean (table : Table) : Prop :=
  ∀ entry ∈ table.entries, isAnonymous entry.1 = false ∧ isAnonymous entry.2 = false

namespace Table

variable {table : Table}

theorem Clean.register (clean : table.Clean) {name anchor : String}
    (named : isAnonymous name = false) (anchored : isAnonymous anchor = false) :
    (table.register name anchor).Clean := by
  intro entry member
  rcases Index.mem_insert member with rfl | known
  · exact ⟨named, anchored⟩
  · exact clean entry known

theorem Clean.register_variant (clean : table.Clean) {variant : String}
    (solid : ' ' ∉ variant.toList) (enumName : Option String) :
    (table.registerVariant enumName variant).Clean := by
  unfold Table.registerVariant
  split
  · exact clean
  · rename_i name
    split
    · exact clean
    · rename_i named
      rw [Bool.or_eq_true, not_or, Bool.not_eq_true, Bool.not_eq_true] at named
      exact clean.register (not_anonymous_of_solid solid)
        ((is_anonymous_variant_anchor solid).trans named.2)

end Table

end Symbol

/-- What is declared inside of a cursor is spelled as C spells names, though a field may lack a
name. -/
def Cursor.MembersSpelled (cursor : Cursor) : Prop :=
  (∀ child ∈ cursor.childrenOf (.declares .variant), IsIdentifier child.spelling) ∧
    ∀ child ∈ cursor.childrenOf (.declares .field), child.spelling = "" ∨
      IsIdentifier child.spelling

instance {cursor : Cursor} : Decidable cursor.MembersSpelled :=
  inferInstanceAs (Decidable (_ ∧ _))

theorem no_blank_in_identifier {name : String}
    (isName : name = "" ∨ IsIdentifier name) : ' ' ∉ name.toList := by
  rcases isName with rfl | isName
  · simp
  · exact not_mem_identifier isName (by decide)

/-- The anchor of a declaration or member is anonymous exactly if it is that of a field in a
declaration without a name. -/
theorem Declaration.item_anonymous_iff {declaration : Declaration} (composed : declaration.Composed)
    (solid : ∀ member ∈ declaration.members, ' ' ∉ member.name.toList) {item : Item}
    (inItems : item ∈ declaration.items) :
    Symbol.isAnonymous item.anchor ↔
      Symbol.isAnonymous declaration.name ∧ item.declaration.kind = .field := by
  rcases mem_items.1 inItems with rfl | ⟨member, inside, rfl⟩
  · have quiet : Symbol.isAnonymous (declaration.anchor none) = false := by
      by_cases absent : declaration.anchor none = ""
      · rw [absent, Symbol.is_anonymous_empty]
      · obtain ⟨own, named⟩ := anchor_of_top_level composed.topLevel absent
        rw [own, named]
    simp [Item.anchor, quiet, composed.not_field]
  · have solid := solid member inside
    rcases composed.kinds member inside with ⟨isVariant, -⟩ | ⟨isField, -⟩
    · cases named : Symbol.isAnonymous declaration.name with
      | true => simp [Item.anchor, Declaration.anchor, isVariant, named]
      | false =>
          simp [Item.anchor, Declaration.anchor, isVariant, named,
          Symbol.is_anonymous_variant_anchor solid]
    · have joined : Item.anchor ⟨some declaration, member⟩ = declaration.name ++
          ("." ++ member.name) := by
        simp [Item.anchor, Declaration.anchor, isField, String.append_assoc]
      rw [joined, Symbol.is_anonymous_append (by simpa using solid)]
      simp [isField]

namespace Walker

variable {allowlist : Allowlist}

theorem registered_clean {symbols : Symbol.Table} (clean : symbols.Clean) {cursor : Cursor}
    (spelled : cursor.MembersSpelled) (kind : Kind) (name : String) :
    (registered symbols cursor kind name).Clean := by
  have own : (if Symbol.isAnonymous name then symbols else symbols.registerItem name).Clean := by
    split
    · exact clean
    · rename_i named
      have front : Symbol.isAnonymous name = false := by simpa using named
      exact clean.register front front
  have solid : ∀ variant ∈ variantNames cursor, ' ' ∉ variant.toList := by
    intro variant member
    obtain ⟨child, inside, rfl⟩ := List.mem_map.1 member
    exact no_blank_in_identifier (.inr (spelled.1 child inside))
  simp only [registered]
  generalize (if Symbol.isAnonymous name then symbols else symbols.registerItem name) =
    first at own ⊢
  split
  · exact List.foldlRecOn _ _ own fun table tableClean variant member =>
      tableClean.register_variant (solid variant member) _
  · exact own

structure Legible (walker : Walker) : Prop where
  symbols : walker.symbols.Clean
  composed : ∀ declaration ∈ walker.met, declaration.Composed
  solid : ∀ declaration ∈ walker.met, ∀ member ∈ declaration.members, ' ' ∉ member.name.toList

theorem described_solid {symbols : Symbol.Table} {cursor : Cursor} {kind : Kind} {name : String}
    {declaration : Declaration} (spelled : cursor.MembersSpelled)
    (described : describe symbols cursor kind name = .ok declaration) :
    ∀ member ∈ declaration.members, ' ' ∉ member.name.toList := by
  intro member inMembers
  rw [(describe_eq_ok described).2.2.2] at inMembers
  rcases mem_members inMembers with ⟨-, child, inside, rfl⟩ | ⟨-, child, inside, rfl⟩
  · exact no_blank_in_identifier (.inr (spelled.1 child inside))
  · exact no_blank_in_identifier (spelled.2 child inside)

theorem visit_legible {walker : Walker} {cursor : Cursor} (spelled : cursor.MembersSpelled)
    (legible : walker.Legible) : (visit allowlist walker cursor).1.Legible := by
  rcases visited : visit allowlist walker cursor with ⟨after, _ | failure⟩
  · cases visited_of_visit visited with
    | passed => exact legible
    | known => exact legible
    | @folded target name eligible names record met =>
        refine ⟨legible.symbols, ?_, ?_⟩
        · intro declaration member
          obtain ⟨old, inMet, rfl⟩ := List.mem_map.1 member
          have composed := legible.composed old inMet
          split
          · exact ⟨composed.1, composed.2, composed.3⟩
          · exact composed
        · intro declaration member
          obtain ⟨old, inMet, rfl⟩ := List.mem_map.1 member
          split <;> exact legible.solid old inMet
    | @described kind name declaration eligible apart unmet described =>
        refine ⟨registered_clean legible.symbols spelled kind name, ?_, ?_⟩
        · intro other member
          rcases List.mem_append.1 member with old | added
          · exact legible.composed other old
          · rw [List.mem_singleton.1 added]
            exact described_composed eligible described
        · intro other member
          rcases List.mem_append.1 member with old | added
          · exact legible.solid other old
          · rw [List.mem_singleton.1 added]
            exact described_solid spelled described
  · cases broken_of_visit visited with
    | pattern => exact legible
    | prototype =>
        exact ⟨registered_clean legible.symbols spelled .function _, legible.composed,
          legible.solid⟩

theorem after_calls_legible {reading : Reading} {calls : List Call}
    (spelled : ∀ call ∈ calls, ∀ header, call.shelf call.path = some header →
      ∀ cursor ∈ header.cursors, cursor.MembersSpelled) : (reading.afterCalls {} calls).Legible :=
  after_calls_keep Legible
    (fun call member header found cursor inHeader _ =>
      visit_legible (spelled call member header found cursor inHeader))
    (fun _ _ legible => ⟨legible.symbols, legible.composed, legible.solid⟩)
    ⟨by simp [Symbol.Table.Clean], by simp, by simp⟩

end Walker

namespace Site.State

theorem mem_recorded {state : State} (fresh : state.anchors = {}) (options : Options)
    (declarations : List Declaration) {anchor : String} :
    anchor ∈ (withDeclarations options state declarations).anchors.keys ↔
      ∃ declaration ∈ declarations, anchor ∈ declaration.anchors none := by
  rw [(with_declarations_frame options state declarations).2.1, ← Index.contains_iff,
    Index.contains, anchors_filed, fresh]
  simp [Index.find?, List.find?_isSome]

/-- No anchor that a site keeps is anonymous exactly if no declaration without a name has fields. -/
theorem recorded_named_iff {declarations : List Declaration}
    (composed : ∀ declaration ∈ declarations, declaration.Composed)
    (solid : ∀ declaration ∈ declarations, ∀ member ∈ declaration.members, ' ' ∉ member.name.toList)
    {state : State} (fresh : state.anchors = {}) (options : Options) :
    (∀ anchor ∈ (withDeclarations options state declarations).anchors.keys,
      Symbol.isAnonymous anchor = false) ↔
      ∀ declaration ∈ declarations, Symbol.isAnonymous declaration.name →
        ∀ member ∈ declaration.members, member.kind ≠ .field := by
  have present : ∀ anchor, Symbol.isAnonymous anchor → anchor ≠ "" := by
    rintro anchor leaks rfl
    simp at leaks
  have anonymous (declaration : Declaration) (listed : declaration ∈ declarations) (item : Item) :=
    @declaration.item_anonymous_iff (composed declaration listed) (solid declaration listed) item
  simp only [mem_recorded fresh]
  constructor
  · intro clean declaration listed nameless member inside isField
    have inItems : ⟨some declaration, member⟩ ∈ declaration.items :=
      Declaration.mem_items.2 (.inr ⟨member, inside, rfl⟩)
    have leaks := (anonymous declaration listed _ inItems).2 ⟨nameless, isField⟩
    have recorded :=
      (Declaration.mem_anchors (composed declaration listed) (present _ leaks)).2 ⟨_, inItems, rfl⟩
    rw [clean _ ⟨declaration, listed, recorded⟩] at leaks
    exact Bool.false_ne_true leaks
  · rintro fieldless anchor ⟨declaration, listed, recorded⟩
    by_contra leaks
    rw [Bool.not_eq_false] at leaks
    obtain ⟨item, inItems, rfl⟩ :=
      (Declaration.mem_anchors (composed declaration listed) (present anchor leaks)).1 recorded
    obtain ⟨nameless, isField⟩ := (anonymous declaration listed item inItems).1 leaks
    rcases Declaration.mem_items.1 inItems with rfl | ⟨member, inside, rfl⟩
    · exact (composed declaration listed).not_field isField
    · exact fieldless declaration listed nameless member inside isField

/-- After any calls, nothing that is registered is anonymous, and the anchor of a declaration or
member is anonymous exactly if it is that of a field in a declaration without a name. So no anchor
that a site keeps is anonymous exactly if no documented declaration without a name has fields. -/
theorem anonymous_anchors_are_fields (reading : Reading) {calls : List Call}
    (spelled : ∀ call ∈ calls, ∀ header, call.shelf call.path = some header →
      ∀ cursor ∈ header.cursors, cursor.MembersSpelled) :
    let walker := reading.afterCalls {} calls
    (∀ entry ∈ walker.symbols.entries, Symbol.isAnonymous entry.1 = false ∧
      Symbol.isAnonymous entry.2 = false) ∧
      (∀ declaration ∈ walker.met, ∀ item ∈ declaration.items,
        (Symbol.isAnonymous item.anchor ↔
          Symbol.isAnonymous declaration.name ∧ item.declaration.kind = .field)) ∧
      ∀ options state, state.anchors = {} →
        ((∀ anchor ∈ (withDeclarations options state walker.declarations).anchors.keys,
            Symbol.isAnonymous anchor = false) ↔
          ∀ declaration ∈ walker.declarations, Symbol.isAnonymous declaration.name →
            ∀ member ∈ declaration.members, member.kind ≠ .field) := by
  intro walker
  have legible : walker.Legible := Walker.after_calls_legible spelled
  have met : ∀ declaration ∈ walker.declarations, declaration ∈ walker.met :=
    fun _ => List.mem_of_mem_filter
  refine ⟨legible.symbols, ?_, ?_⟩
  · intro declaration member item inItems
    exact declaration.item_anonymous_iff (legible.composed declaration member)
      (legible.solid declaration member) inItems
  · intro options state fresh
    exact recorded_named_iff
      (fun declaration listed => legible.composed declaration (met declaration listed))
      (fun declaration listed => legible.solid declaration (met declaration listed)) fresh options

/-- A structure and an enumeration without names, and a header that breaks off behind another
one. -/
theorem nameless_variant_unlinked :
    let child (kind : Kind) (name : String) : Cursor := { kind := .declares kind, spelling := name }
    let nameless (kind : Kind) (type : String) (children : List Cursor) : Cursor :=
      { kind := .declares kind, type := type, isAnonymous := true, children := children }
    let good : Shelf := fun _ => some
      { cursors := [nameless .enum "enum (unnamed at a.h:1:1)" [child .variant "FZ_A"],
          nameless .struct "struct (unnamed at a.h:2:1)" [],
          { kind := .declares .enum, spelling := "fz_e", children := [child .variant "FZ_B"] }] }
    let bad : Shelf := fun _ => some
      { cursors := [nameless .union "union (anonymous at b.h:1:1)" [child .field "x"],
          { kind := .declares .function, spelling := "fz_f", variadic := none }] }
    let reading : Reading := { allowlist := { types := [".*"] } }
    let walker := reading.afterCalls {} [⟨good, "a.h"⟩, ⟨bad, "b.h"⟩]
    (walker.declarations.map Declaration.name =
        ["(unnamed at a.h:1:1)", "(unnamed at a.h:2:1)", "fz_e"] ∧
      walker.symbols.entries = [("fz_e", "fz_e"), ("FZ_B", "fz_e_FZ_B"), ("fz_f", "fz_f")]) ∧
      ∀ anchor ∈ (withDeclarations {} {} walker.declarations).anchors.keys,
        Symbol.isAnonymous anchor = false := by
  intro child nameless good bad reading walker
  have spelled : ∀ call ∈ [(⟨good, "a.h"⟩ : Call), ⟨bad, "b.h"⟩], ∀ header, call.shelf call.path =
      some header →
      ∀ cursor ∈ header.cursors, cursor.MembersSpelled := by
    intro call member header found
    simp only [List.mem_cons, List.not_mem_nil, or_false] at member
    rcases member with rfl | rfl <;> obtain rfl := Option.some.inj found <;> decide
  obtain ⟨-, -, kept⟩ := anonymous_anchors_are_fields reading spelled
  refine ⟨⟨by decide +kernel, by decide +kernel⟩, (kept {} {} rfl).2 ?_⟩
  decide +kernel

/-- A field of a structure without a name leads to where the structure stands. -/
theorem nameless_field_leaks :
    ¬∀ (reading : Reading) (calls : List Call),
      (∀ call ∈ calls, ∀ header, call.shelf call.path = some header →
        ∀ cursor ∈ header.cursors, cursor.Spelled) →
        ∀ declaration ∈ (reading.afterCalls {} calls).declarations, ∀ item ∈ declaration.items,
          Symbol.isAnonymous item.anchor = false := by
  intro stable
  let nameless : Cursor :=
    { kind := .declares .struct, type := "struct (unnamed at a.h:1:1)", isAnonymous := true
      children := [{ kind := .declares .field, spelling := "x" }] }
  let reading : Reading := { allowlist := { types := [".*"] } }
  let calls : List Call := [⟨fun _ => some { cursors := [nameless] }, "a.h"⟩]
  have spelled : ∀ call ∈ calls, ∀ header, call.shelf call.path = some header →
      ∀ cursor ∈ header.cursors, cursor.Spelled := by
    intro call member header found
    obtain rfl := List.mem_singleton.1 member
    obtain rfl := Option.some.inj found
    decide +kernel
  have leaked : ∃ declaration ∈ (reading.afterCalls {} calls).declarations,
      ∃ item ∈ declaration.items, item.anchor = "(unnamed at a.h:1:1).x" := by decide +kernel
  obtain ⟨declaration, documented, item, inItems, same⟩ := leaked
  have named := stable reading calls spelled declaration documented item inItems
  rw [same] at named
  exact absurd named (by decide +kernel)

end Site.State

end HeaderDocs
