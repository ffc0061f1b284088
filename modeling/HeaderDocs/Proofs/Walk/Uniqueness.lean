import HeaderDocs.Proofs.Walk.Replay
import HeaderDocs.Proofs.Walk.Shape

/-!
Which anchors can occur twice. A declaration is added once under its kind and name, but its anchor
is the name alone, and the anchor of a variant is joined from two names. So a declaration shares its
anchor with one of another kind, a variant with whatever reads the same once joined, and fields
share one when they have the same name in records of the same name. Nothing else does: the dot in
the anchor of a field sets it apart.
-/

namespace HeaderDocs

set_option autoImplicit false

/-- How two items can share an anchor. -/
inductive Clash : Item → Item → Prop
  | kinds {left right : Declaration} (sameName : left.name = right.name)
      (otherKind : left.kind ≠ right.kind) :
      Clash ⟨none, left⟩ ⟨none, right⟩
  | joined {left right : Item} (variant : left.declaration.kind = .variant ∨
      right.declaration.kind = .variant)
      (noField : left.declaration.kind ≠ .field ∧ right.declaration.kind ≠ .field)
      (sameEnum : ∀ enum other, left.parent = some enum → right.parent = some other →
        enum.name = other.name →
        left.declaration.name = right.declaration.name) :
      Clash left right
  | fields {record other left right : Declaration} (sameRecord : record.name = other.name)
      (sameName : left.name = right.name) : Clash ⟨some record, left⟩ ⟨some other, right⟩

def AnchorsUnique (declarations : List Declaration) : Prop :=
  (declarations.flatMap Declaration.items).Pairwise fun earlier later =>
    earlier.anchor ≠ "" → earlier.anchor ≠ later.anchor

/-- What the anchor of a item is made of: the name of a declaration, the names of an enumeration and
its variant, or those of a record and its field. -/
inductive Item.Anchored : Item → String → Prop
  | named {declaration : Declaration} (noField : declaration.kind ≠ .field)
      (identifier : IsIdentifier declaration.name) : Anchored ⟨none, declaration⟩ declaration.name
  | variant {enum variant : Declaration} (isVariant : variant.kind = .variant)
      (enumIdentifier : IsIdentifier enum.name) (identifier : IsIdentifier variant.name) :
      Anchored ⟨some enum, variant⟩ (enum.name ++ "_" ++ variant.name)
  | field {record field : Declaration} (isField : field.kind = .field)
      (identifier : field.name = "" ∨ IsIdentifier field.name) :
      Anchored ⟨some record, field⟩ (record.name ++ "." ++ field.name)

theorem anchor_of_top_level {declaration : Declaration}
    (topLevel : declaration.kind.isMember = false) (present : declaration.anchor none ≠ "") :
    declaration.anchor none = declaration.name ∧ Symbol.isAnonymous declaration.name = false := by
  unfold Declaration.anchor at present ⊢
  cases anonymous : Symbol.isAnonymous declaration.name <;>
    cases same : declaration.kind <;> simp_all [Kind.isMember]

theorem anchored_of_item {declaration : Declaration} (composed : declaration.Composed)
    (named : declaration.Named) {item : Item} (member : item ∈ declaration.items)
    (present : item.anchor ≠ "") :
    item.Anchored item.anchor := by
  rcases Declaration.mem_items.1 member with rfl | ⟨inner, inside, rfl⟩
  · obtain ⟨own, present⟩ := anchor_of_top_level composed.topLevel present
    rw [Item.anchor, own]
    exact .named composed.not_field (named.own.resolve_left (by simp [present]))
  · rcases composed.kinds inner inside with ⟨isVariant, -⟩ | ⟨isField, -⟩
    · cases anonymous : Symbol.isAnonymous declaration.name with
      | true => simp [Item.anchor, Declaration.anchor, isVariant, anonymous] at present
      | false =>
          rw [Item.anchor, Walker.anchor_of_variant isVariant anonymous]
          exact .variant isVariant (named.own.resolve_left (by simp [anonymous]))
            (named.variants inner inside isVariant)
    · have joined : Item.anchor ⟨some declaration, inner⟩ = declaration.name ++ "." ++
          inner.name := by
        simp [Item.anchor, Declaration.anchor, isField]
      rw [joined]
      exact .field isField (named.fields inner inside isField)

theorem no_dot_in_identifier {name : String}
    (isName : name = "" ∨ IsIdentifier name) : '.' ∉ name.toList := by
  rcases isName with rfl | isName
  · simp
  · exact not_mem_identifier isName (by decide)

theorem dotted_iff_field {item : Item} {anchor : String} (anchored : item.Anchored anchor) :
    '.' ∈ anchor.toList ↔ item.declaration.kind = .field := by
  cases anchored with
  | named noField identifier =>
      exact iff_of_false (no_dot_in_identifier (Or.inr identifier)) noField
  | variant isVariant enumIdentifier identifier =>
      exact iff_of_false (no_dot_in_identifier
        (Or.inr (identifier_append enumIdentifier identifier))) (by simp [isVariant])
  | field isField identifier => exact iff_of_true (by simp) isField

/-- The last dot tells where a record's name ends. -/
theorem field_anchor_injective {record other left right : String} (leftDotless : '.' ∉ left.toList)
    (rightDotless : '.' ∉ right.toList) (same : record ++ "." ++ left = other ++ "." ++ right) :
    record = other ∧ left = right := by
  have chars := congrArg (List.reverse ∘ String.toList) same
  simp only [Function.comp_apply, String.toList_append, List.reverse_append] at chars
  have split : left.toList.reverse ++ '.' :: record.toList.reverse =
      right.toList.reverse ++ '.' :: other.toList.reverse := chars
  have upTo : ∀ {field : String} (rest : List Char), '.' ∉ field.toList →
      (field.toList.reverse ++ '.' :: rest).takeWhile (· != '.') = field.toList.reverse := by
    intro field rest dotless
    rw [List.takeWhile_append_of_pos]
    · simp
    · intro c member
      have differs : c ≠ '.' := fun isDot => dotless (isDot ▸ List.mem_reverse.1 member)
      simpa using differs
  have sameField : left.toList.reverse = right.toList.reverse := by
    rw [← upTo _ leftDotless, split, upTo _ rightDotless]
  rw [sameField, List.append_cancel_left_eq, List.cons_eq_cons] at split
  exact ⟨String.toList_injective (List.reverse_injective split.2),
    String.toList_injective (List.reverse_injective sameField)⟩

/-- Two items with the same anchor clash, unless they are declarations of the top level and of the
same kind. -/
theorem clash_of_same_anchor {left right : Item} {anchor : String}
    (leftAnchored : left.Anchored anchor) (rightAnchored : right.Anchored anchor)
    (otherKind : left.parent = none → right.parent = none →
      left.declaration.name = right.declaration.name →
      left.declaration.kind ≠ right.declaration.kind) : Clash left right := by
  by_cases dotted : '.' ∈ anchor.toList
  · have leftField := (dotted_iff_field leftAnchored).1 dotted
    have rightField := (dotted_iff_field rightAnchored).1 dotted
    generalize sameAnchor : anchor = shared at rightAnchored
    cases leftAnchored with
    | named notField => exact absurd leftField notField
    | variant isVariant => simp [isVariant] at leftField
    | field _ leftName =>
        cases rightAnchored with
        | named notField => exact absurd rightField notField
        | variant isVariant => simp [isVariant] at rightField
        | field _ rightName =>
            obtain ⟨sameRecord, sameField⟩ := field_anchor_injective (no_dot_in_identifier leftName)
              (no_dot_in_identifier rightName) sameAnchor
            exact .fields sameRecord sameField
  · have noField : left.declaration.kind ≠ .field ∧ right.declaration.kind ≠ .field :=
      ⟨fun isField => dotted ((dotted_iff_field leftAnchored).2 isField),
        fun isField => dotted ((dotted_iff_field rightAnchored).2 isField)⟩
    generalize sameAnchor : anchor = shared at rightAnchored
    cases leftAnchored with
    | field isField => exact absurd isField noField.1
    | named =>
        cases rightAnchored with
        | field isField => exact absurd isField noField.2
        | named => exact .kinds sameAnchor (otherKind rfl rfl sameAnchor)
        | variant isVariant => exact .joined (Or.inr isVariant) noField (by simp)
    | variant isVariant =>
        cases rightAnchored with
        | field isField => exact absurd isField noField.2
        | named => exact .joined (Or.inl isVariant) noField (by simp)
        | variant =>
            refine .joined (Or.inl isVariant) noField ?_
            rintro enum other ⟨⟩ ⟨⟩ sameEnum
            rw [sameEnum] at sameAnchor
            simpa using sameAnchor

namespace Walker

variable {allowlist : Allowlist}

theorem items_clash {declarations : List Declaration} (distinct : (declarations.map key).Nodup)
    (composed : ∀ declaration ∈ declarations, declaration.Composed)
    (named : ∀ declaration ∈ declarations, declaration.Named) :
    (declarations.flatMap Declaration.items).Pairwise fun earlier later =>
      earlier.anchor ≠ "" → earlier.anchor = later.anchor → Clash earlier later := by
  rw [List.pairwise_flatMap]
  constructor
  · intro declaration member
    -- Of the items of one declaration only the first is of the top level.
    have apart : declaration.items.Pairwise fun _ later => later.parent ≠ none := by
      rw [Declaration.items, List.pairwise_cons]
      refine ⟨by simp, ?_⟩
      rw [List.pairwise_map]
      exact List.pairwise_of_forall fun _ _ => by simp
    apply apart.imp_of_mem
    intro earlier later earlierIn laterIn below present same
    have earlierAnchored := anchored_of_item (composed _ member) (named _ member) earlierIn present
    have laterAnchored :=
      anchored_of_item (composed _ member) (named _ member) laterIn (same ▸ present)
    rw [← same] at laterAnchored
    exact clash_of_same_anchor earlierAnchored laterAnchored fun _ top => absurd top below
  · rw [List.Nodup, List.pairwise_map] at distinct
    apply distinct.imp_of_mem
    intro left right leftIn rightIn otherKey earlier earlierIn later laterIn present same
    have earlierAnchored := anchored_of_item (composed _ leftIn) (named _ leftIn) earlierIn present
    have laterAnchored :=
      anchored_of_item (composed _ rightIn) (named _ rightIn) laterIn (same ▸ present)
    rw [← same] at laterAnchored
    refine clash_of_same_anchor earlierAnchored laterAnchored
      fun topLeft topRight sameName sameKind => ?_
    rcases Declaration.mem_items.1 earlierIn with rfl | ⟨_, _, rfl⟩
    · rcases Declaration.mem_items.1 laterIn with rfl | ⟨_, _, rfl⟩
      · exact otherKey (Prod.ext sameKind sameName)
      · simp at topRight
    · simp at topLeft

/-- A cursor that adds nothing to what has been met: a record declared but not defined, or a type
definition that gives its own name to a record that has been met. -/
def Redundant (allowlist : Allowlist) (walker : Walker) (cursor : Cursor) : Prop :=
  (∃ kind, cursor.kind = .declares kind ∧ kind.isRecord ∧ cursor.isDefinition = false) ∨
    ∃ kind name, Names allowlist cursor kind name ∧ walker.hasMet kind name

theorem visited_redundant {walker after : Walker} {cursor : Cursor}
    (redundant : Redundant allowlist walker cursor)
    (visited : Visited allowlist walker cursor after) : after.met.map key = walker.met.map key := by
  cases visited with
  | passed => rfl
  | folded => exact fill_doc_keys walker _ _ _
  | known => rfl
  | @described kind name declaration eligible apart unmet described =>
      exfalso
      rcases redundant with ⟨declared, declares, record, undefined⟩ | ⟨target, other,
        ⟨naming, names, record⟩, met⟩
      · rw [eligible_kind eligible, CursorKind.declares.injEq] at declares
        subst declares
        have found := (eligible_facts eligible).2.2
        cases kind <;> simp_all [Cursor.declaredName?, Kind.isRecord]
      · rw [eligible] at naming
        simp only [Except.ok.injEq, Option.some.injEq, Prod.mk.injEq] at naming
        obtain ⟨rfl, rfl⟩ := naming
        rw [folded_into_eq_some.2 ⟨rfl, names, record, met⟩] at apart
        simp at apart

/-- Each kind and name is added once, however often and in whatever order it is declared, and a type
definition behind the record that it names is not added at all. So declarations share an anchor only
across kinds. With names as C spells them, two items share an anchor only as declarations of one
name and different kinds, by way of a variant whose names read the same once joined, or as fields of
one name in records of one name. -/
theorem shared_anchors_clash {reading : Reading} {cursors : List Cursor} {walker : Walker}
    (session : Session reading {} cursors walker) :
    (walker.declarations.map key).Nodup ∧
      (∀ passed cursor coming, cursors = passed ++ cursor :: coming →
        Redundant reading.allowlist (visitAll reading.allowlist {} passed).1 cursor →
          (visitAll reading.allowlist {} (passed ++ [cursor])).1.met.map key =
            (visitAll reading.allowlist {} passed).1.met.map key) ∧
      (walker.declarations.Pairwise fun earlier later =>
        earlier.anchor none ≠ "" → earlier.anchor none = later.anchor none →
          earlier.name = later.name ∧ earlier.kind ≠ later.kind) ∧
      ((∀ cursor ∈ cursors, cursor.Spelled) →
        (walker.declarations.flatMap Declaration.items).Pairwise fun earlier later =>
          earlier.anchor ≠ "" → earlier.anchor = later.anchor → Clash earlier later) := by
  have ran := runs_of_session session
  rw [declarations_of_runs ran]
  have distinct := runs_distinct ran
  have composed := runs_composed ran
  refine ⟨distinct, ?_, ?_, fun spelled => items_clash distinct composed (runs_named spelled ran)⟩
  · intro passed cursor coming split redundant
    rw [split] at ran
    obtain ⟨before, ranPassed, later⟩ := runs_append.1 ran
    obtain ⟨next, visited, -⟩ := runs_cons.1 later
    have upTo : Runs reading.allowlist {} (passed ++ [cursor]) next :=
      runs_append.2 ⟨before, ranPassed, runs_cons.2 ⟨next, visited, runs_nil.2 rfl⟩⟩
    rw [ranPassed] at redundant ⊢
    rw [upTo]
    exact visited_redundant redundant (visited_of_visit visited)
  · rw [List.Nodup, List.pairwise_map] at distinct
    apply distinct.imp_of_mem
    intro earlier later earlierIn laterIn otherKey present same
    have own := (anchor_of_top_level (composed _ earlierIn).topLevel present).1
    have other := (anchor_of_top_level (composed _ laterIn).topLevel (same ▸ present)).1
    have sameName : earlier.name = later.name := by rw [← own, ← other, same]
    exact ⟨sameName, fun sameKind => otherKey (Prod.ext sameKind sameName)⟩

/-- A record that is declared ahead, defined, named by a type definition and then reached again,
next to a function of its name, a variant and a function that its joined name reads like. -/
theorem repeated_record_and_joined_variant :
    let forward : Cursor := { kind := .declares .struct, spelling := "fz_s", isDefinition := false }
    let record : Cursor :=
      { kind := .declares .struct, spelling := "fz_s"
        children := [{ kind := .declares .field, spelling := "x" }] }
    let naming : Cursor :=
      { kind := .declares .typedef, spelling := "fz_s", underlyingKind := .declares .struct }
    let enumeration : Cursor :=
      { kind := .declares .enum, spelling := "fz_e"
        children := [{ kind := .declares .variant, spelling := "FZ_A" }] }
    let function (name : String) : Cursor := { kind := .declares .function, spelling := name }
    let header : Header :=
      { cursors :=
          [forward, record, naming, enumeration, record, forward, function "fz_s",
            function "fz_e_FZ_A"] }
    let walker := (Reading.read {} (fun _ => some header) {} "a.h").walker
    Session {} {} header.cursors walker ∧ (∀ cursor ∈ header.cursors, cursor.Spelled) ∧
      (walker.declarations.flatMap Declaration.items).map Item.anchor =
        ["fz_s", "fz_s.x", "fz_e", "fz_e_FZ_A", "fz_s", "fz_e_FZ_A"] ∧
      (walker.declarations.flatMap Declaration.items).Pairwise fun earlier later =>
        earlier.anchor ≠ "" → earlier.anchor = later.anchor → Clash earlier later := by
  intro forward record naming enumeration function header walker
  have session : Session {} {} (header.cursors ++ []) walker :=
    .read rfl (by decide +kernel) (.done walker)
  rw [List.append_nil] at session
  have spelled : ∀ cursor ∈ header.cursors, cursor.Spelled := by decide +kernel
  obtain ⟨-, -, -, clashes⟩ := shared_anchors_clash session
  exact ⟨session, spelled, by decide +kernel, clashes spelled⟩

/-- A structure and a function of one name, two fields without a name, and a variant whose joined
name is that of a function. -/
theorem anchors_not_unique :
    ¬∀ (reading : Reading) (cursors : List Cursor) (walker : Walker),
      Session reading {} cursors walker →
      AnchorsUnique walker.declarations := by
  intro unique
  let padding : Cursor := { kind := .declares .field, type := "int" }
  let record : Cursor :=
    { kind := .declares .struct, spelling := "fz_stat", children := [padding, padding] }
  let enumeration : Cursor :=
    { kind := .declares .enum, spelling := "fz_kind"
      children := [{ kind := .declares .variant, spelling := "FZ_A" }] }
  let function (name : String) : Cursor := { kind := .declares .function, spelling := name }
  let header : Header :=
    { cursors := [record, function "fz_stat", enumeration, function "fz_kind_FZ_A"] }
  let walker := (Reading.read {} (fun _ => some header) {} "a.h").walker
  have session : Session {} {} (header.cursors ++ []) walker :=
    .read rfl (by decide +kernel) (.done walker)
  have anchors : (walker.declarations.flatMap Declaration.items).map Item.anchor =
      ["fz_stat", "fz_stat.", "fz_stat.", "fz_stat", "fz_kind", "fz_kind_FZ_A",
        "fz_kind_FZ_A"] := by
    decide +kernel
  have distinct : ((walker.declarations.flatMap Declaration.items).map Item.anchor).Pairwise
      fun earlier later => earlier ≠ "" → earlier ≠ later :=
    List.pairwise_map.2 (unique {} _ walker session)
  rw [anchors] at distinct
  exact absurd distinct (by decide)

end Walker

end HeaderDocs
