import HeaderDocs.Declaration.Anchor
import HeaderDocs.Proofs.Walk.Session
import HeaderDocs.Text.Blank

/-!
The shape of what a walk adds: which members a declaration has, and how names are spelled when the C
parser spells them as C does. A declaration has the shape of the one cursor that it was described
from, whatever doc it is given later, so a property of descriptions that docs do not touch is one of
all declarations.
-/

namespace HeaderDocs

set_option autoImplicit false

/-- A character of a name in C: an ASCII letter, digit, underscore or dollar sign, or anything
beyond ASCII but white space. -/
def isIdentifierChar (c : Char) : Bool :=
  c.isAlphanum || c == '_' || c == '$' || (128 ≤ c.toNat && !Text.isBlank c)

def IsIdentifier (name : String) : Prop :=
  name ≠ "" ∧ ∀ c ∈ name.toList, isIdentifierChar c

theorem not_blank_of_alphanum {c : Char}
    (alphanumeric : c.isAlphanum) : Text.isBlank c = false := by
  have solid : ∀ code < 123, 48 ≤ code → Text.blankRanges.has code = false := by decide
  change ((decide (c.val ≥ 65 ∧ c.val ≤ 90) || (decide (c.val ≥ 97) && decide (c.val ≤ 122))) ||
    (decide (c.val ≥ 48) && decide (c.val ≤ 57))) = true at alphanumeric
  simp only [Bool.or_eq_true, Bool.and_eq_true, decide_eq_true_eq, ge_iff_le,
    UInt32.le_iff_toNat_le] at alphanumeric
  change ((65 ≤ c.toNat ∧ c.toNat ≤ 90) ∨ (97 ≤ c.toNat ∧ c.toNat ≤ 122)) ∨
    (48 ≤ c.toNat ∧ c.toNat ≤ 57)
    at alphanumeric
  exact solid c.toNat (by omega) (by omega)

theorem identifier_char_not_blank {c : Char}
    (isChar : isIdentifierChar c) : Text.isBlank c = false := by
  simp only [isIdentifierChar, Bool.or_eq_true, Bool.and_eq_true, beq_iff_eq,
    Bool.not_eq_true'] at isChar
  rcases isChar with ((alphanumeric | rfl) | rfl) | ⟨-, solid⟩
  · exact not_blank_of_alphanum alphanumeric
  · decide
  · decide
  · exact solid

theorem identifier_append {left right : String} (isLeft : IsIdentifier left)
    (isRight : IsIdentifier right) :
    IsIdentifier (left ++ "_" ++ right) := by
  refine ⟨fun empty => ?_, ?_⟩
  · have length := congrArg String.length empty
    simp at length
  · intro c member
    simp only [String.toList_append, List.mem_append] at member
    rcases member with (inLeft | between) | inRight
    · exact isLeft.2 c inLeft
    · have underscore : c = '_' := by simpa using between
      rw [underscore]
      decide
    · exact isRight.2 c inRight

theorem not_mem_identifier {name : String} (isName : IsIdentifier name) {c : Char}
    (other : isIdentifierChar c = false) : c ∉ name.toList := by
  intro member
  simp [isName.2 c member] at other

def Cursor.topName? (cursor : Cursor) : Option String :=
  match cursor.kind with
  | .declares kind => cursor.declaredName? kind
  | _ => none

/-- What a cursor declares, and what is declared inside of it, is spelled as C spells names. A
declaration may lack a name, and so may a field. -/
def Cursor.Spelled (cursor : Cursor) : Prop :=
  (∀ name ∈ cursor.topName?, name = "" ∨ Symbol.isAnonymous name ∨ IsIdentifier name) ∧
    (∀ child ∈ cursor.childrenOf (.declares .variant), IsIdentifier child.spelling) ∧
    ∀ child ∈ cursor.childrenOf (.declares .field), child.spelling = "" ∨
      IsIdentifier child.spelling

instance {name : String} : Decidable (IsIdentifier name) :=
  decidable_of_iff (name ≠ "" ∧ name.toList.all isIdentifierChar)
    (by rw [IsIdentifier, List.all_eq_true])

instance {cursor : Cursor} : Decidable cursor.Spelled :=
  inferInstanceAs (Decidable (_ ∧ _ ∧ _))

/-- A declaration of the top level: its members are the variants of an enumeration or the fields of
a structure or union, and have no members of their own. -/
structure Declaration.Composed (declaration : Declaration) : Prop where
  topLevel : declaration.kind.isMember = false
  flat : ∀ member ∈ declaration.members, member.members = []
  kinds : ∀ member ∈ declaration.members,
    member.kind = .variant ∧ declaration.kind = .enum ∨
      member.kind = .field ∧ (declaration.kind = .struct ∨ declaration.kind = .union)

theorem Declaration.Composed.not_field {declaration : Declaration}
    (composed : declaration.Composed) :
    declaration.kind ≠ .field := by
  intro isField
  simpa [isField, Kind.isMember] using composed.topLevel

structure Declaration.Named (declaration : Declaration) : Prop where
  own : Symbol.isAnonymous declaration.name ∨ IsIdentifier declaration.name
  variants : ∀ member ∈ declaration.members, member.kind = .variant → IsIdentifier member.name
  fields : ∀ member ∈ declaration.members, member.kind = .field → member.name = "" ∨
    IsIdentifier member.name

/-- A place that an anchor can lead to: a declaration of the top level, or a member and what it
belongs to. -/
structure Item where
  parent : Option Declaration
  declaration : Declaration

namespace Item

def anchor (item : Item) : String :=
  item.declaration.anchor item.parent

end Item

namespace Declaration

def items (declaration : Declaration) : List Item :=
  ⟨none, declaration⟩ :: declaration.members.map fun member => ⟨some declaration, member⟩

theorem mem_items {declaration : Declaration} {item : Item} :
    item ∈ declaration.items ↔
      item = ⟨none, declaration⟩ ∨ ∃ member ∈ declaration.members,
        item = ⟨some declaration, member⟩ := by
  simp [items, eq_comm]

theorem anchors_eq_items {declaration : Declaration} (composed : declaration.Composed) :
    declaration.anchors none = (declaration.items.map Item.anchor).filter (· ≠ "") := by
  have members : ∀ others ⊆ declaration.members, memberAnchors declaration others =
      ((others.map fun member => (⟨some declaration, member⟩ : Item)).map Item.anchor).filter
        (· ≠ "") := by
    intro others inside
    induction others with
    | nil => rfl
    | cons member rest ih =>
        have leaf := composed.flat member (inside (by simp))
        obtain ⟨name, kind, doc, signature, file, line, derives, below⟩ := member
        simp only at leaf
        subst leaf
        rw [memberAnchors, anchors, memberAnchors, ih fun _ other => inside (by simp [other])]
        simp only [List.map_cons, List.append_nil, Item.anchor, String.isEmpty_iff]
        split <;> simp_all
  obtain ⟨name, kind, doc, signature, file, line, derives, below⟩ := declaration
  rw [anchors, members below (List.Subset.refl _)]
  simp only [items, List.map_cons, Item.anchor, String.isEmpty_iff]
  split <;> simp_all

theorem mem_anchors {declaration : Declaration} (composed : declaration.Composed) {anchor : String}
    (present : anchor ≠ "") :
    anchor ∈ declaration.anchors none ↔ ∃ item ∈ declaration.items, item.anchor = anchor := by
  rw [anchors_eq_items composed]
  simp [present]

end Declaration

namespace Walker

variable {allowlist : Allowlist}

/-- A property of declarations that docs play no part in, and that all descriptions of the cursors
have, is kept by a run. -/
theorem runs_each (property : Declaration → Prop)
    (docless : ∀ declaration doc, property declaration → property { declaration with doc := doc })
    {cursors : List Cursor}
    (new : ∀ cursor ∈ cursors, ∀ symbols kind name declaration,
      eligible? allowlist cursor = .ok (some (kind, name)) →
        describe symbols cursor kind name = .ok declaration → property declaration)
    {walker after : Walker} (ran : Runs allowlist walker cursors after)
    (holds : ∀ declaration ∈ walker.met, property declaration) :
    ∀ declaration ∈ after.met, property declaration := by
  induction cursors generalizing walker with
  | nil =>
      rw [runs_nil.1 ran]
      exact holds
  | cons cursor rest ih =>
      obtain ⟨next, visited, later⟩ := runs_cons.1 ran
      apply ih (fun other member => new other (List.mem_cons_of_mem _ member)) later
      cases visited_of_visit visited with
      | passed => exact holds
      | folded =>
          intro declaration member
          obtain ⟨before, inMet, rfl⟩ := List.mem_map.1 member
          split
          · exact docless before _ (holds before inMet)
          · exact holds before inMet
      | known => exact holds
      | described eligible apart unmet described =>
          intro declaration member
          rcases List.mem_append.1 member with before | added
          · exact holds declaration before
          · rw [List.mem_singleton.1 added]
            exact new cursor (by simp) _ _ _ _ eligible described

theorem eligible_kind {cursor : Cursor} {kind : Kind} {name : String}
    (eligible : eligible? allowlist cursor = .ok (some (kind, name))) :
    cursor.kind = .declares kind :=
  (eligible_eq_some.1 eligible).1

theorem mem_members {symbols : Symbol.Table} {cursor : Cursor} {kind : Kind} {member : Declaration}
    (inMembers : member ∈ members symbols cursor kind) :
    (kind = .enum ∧ ∃ child ∈ cursor.childrenOf (.declares .variant),
      member = Walker.member symbols .variant child) ∨
      ((kind = .struct ∨ kind = .union) ∧
        ∃ child ∈ cursor.childrenOf (.declares .field),
          member = Walker.member symbols .field child) := by
  cases kind <;> simp_all [members, eq_comm]

theorem described_composed {symbols : Symbol.Table} {cursor : Cursor} {kind : Kind} {name : String}
    {declaration : Declaration} (eligible : eligible? allowlist cursor = .ok (some (kind, name)))
    (described : describe symbols cursor kind name = .ok declaration) : declaration.Composed := by
  obtain ⟨-, sameKind, -, sameMembers⟩ := describe_eq_ok described
  refine ⟨by rw [sameKind]; exact (eligible_facts eligible).2.1, ?_, ?_⟩
  · intro member inMembers
    rw [sameMembers] at inMembers
    rcases mem_members inMembers with ⟨-, child, -, rfl⟩ | ⟨-, child, -, rfl⟩ <;> rfl
  · intro member inMembers
    rw [sameMembers] at inMembers
    rw [sameKind]
    rcases mem_members inMembers with ⟨isEnum, child, -, rfl⟩ | ⟨isRecord, child, -, rfl⟩
    · exact Or.inl ⟨rfl, isEnum⟩
    · exact Or.inr ⟨rfl, isRecord⟩

theorem runs_composed {after : Walker} {cursors : List Cursor}
    (ran : Runs allowlist {} cursors after) :
    ∀ declaration ∈ after.met, declaration.Composed :=
  runs_each Declaration.Composed (fun _ _ composed => ⟨composed.1, composed.2, composed.3⟩)
    (fun _ _ _ _ _ _ eligible described => described_composed eligible described) ran (by simp)

theorem runs_named {after : Walker} {cursors : List Cursor}
    (spelled : ∀ cursor ∈ cursors, cursor.Spelled) (ran : Runs allowlist {} cursors after) :
    ∀ declaration ∈ after.met, declaration.Named := by
  refine runs_each Declaration.Named (fun _ _ named => ⟨named.1, named.2, named.3⟩) ?_ ran (by simp)
  intro cursor member symbols kind name declaration eligible described
  obtain ⟨sameName, sameKind, -, sameMembers⟩ := describe_eq_ok described
  obtain ⟨declares, variants, fields⟩ := spelled cursor member
  refine ⟨?_, ?_, ?_⟩
  · rw [sameName]
    have declared : name ∈ cursor.topName? := by
      rw [Cursor.topName?, eligible_kind eligible]
      exact (eligible_facts eligible).2.2
    rcases declares name declared with empty | spelling
    · exact absurd empty (eligible_facts eligible).1
    · exact spelling
  · intro other inMembers isVariant
    rw [sameMembers] at inMembers
    rcases mem_members inMembers with ⟨-, child, inside, rfl⟩ | ⟨-, child, -, rfl⟩
    · exact variants child inside
    · simp [Walker.member] at isVariant
  · intro other inMembers isField
    rw [sameMembers] at inMembers
    rcases mem_members inMembers with ⟨-, child, -, rfl⟩ | ⟨-, child, inside, rfl⟩
    · simp [Walker.member] at isField
    · exact fields child inside

end Walker

end HeaderDocs
