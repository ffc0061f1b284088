import HeaderDocs.Proofs.Walk.Growth
import HeaderDocs.Proofs.Walk.Shape
import Mathlib.Data.List.Induction

/-!
The symbols of a walk as the replay of its declarations. Names are registered before a declaration
is described, and along another path than the one that adds it; still the table holds at every
moment what the declarations of that moment register, in their order. So every anchor that a comment
was ever given leads to a declaration or to a variant of one.
-/

namespace HeaderDocs

set_option autoImplicit false

namespace Symbol.Table

/-- What a declaration registers: its name, unless it has none of its own, and behind it its
variants. -/
def enroll (table : Table) (declaration : Declaration) : Table :=
  if isAnonymous declaration.name then table
  else if declaration.kind = .enum then
    declaration.members.foldl
      (fun table variant => table.register variant.name (declaration.name ++ "_" ++ variant.name))
      (table.register declaration.name declaration.name)
  else table.register declaration.name declaration.name

def replay (declarations : List Declaration) : Table :=
  declarations.foldl enroll {}

theorem replay_append_singleton (declarations : List Declaration) (last : Declaration) :
    replay (declarations ++ [last]) = (replay declarations).enroll last := by
  rw [replay, List.foldl_append]
  rfl

end Symbol.Table

namespace Walker

open HeaderDocs.Symbol HeaderDocs.Symbol.Table

variable {allowlist : Allowlist}

theorem replay_map {change : Declaration → Declaration}
    (same : ∀ (table : Table) declaration, table.enroll (change declaration) =
      table.enroll declaration)
    (declarations : List Declaration) : replay (declarations.map change) = replay declarations := by
  rw [replay, replay, List.foldl_map]
  simp only [same]

theorem replay_filled (walker : Walker) (cursors : List Cursor) (declarations : List Declaration) :
    replay (declarations.map (filled allowlist walker cursors)) = replay declarations := by
  apply replay_map
  intro table declaration
  unfold filled
  split <;> rfl

theorem registered_eq_enroll {symbols : Table} {cursor : Cursor} {kind : Kind} {name : String}
    {declaration : Declaration} (nonempty : name ≠ "") (sameName : declaration.name = name)
    (sameKind : declaration.kind = kind) {under : Table}
    (sameMembers : declaration.members = members under cursor kind) :
    registered symbols cursor kind name = symbols.enroll declaration := by
  unfold registered enroll
  rw [sameName, sameKind]
  have present : name.isEmpty = false := by simpa [String.isEmpty_iff] using nonempty
  cases anonymous : isAnonymous name with
  | true =>
      have nothing :
          (fun (symbols : Table) variant => symbols.registerVariant (some name) variant) =
          fun symbols _ => symbols := by
        funext symbols variant
        simp [registerVariant, anonymous]
      simp only [if_true, nothing]
      split
      · induction variantNames cursor with
        | nil => rfl
        | cons variant rest ih => exact ih
      · rfl
  | false =>
      have each : (fun (symbols : Table) variant => symbols.registerVariant (some name) variant) =
          fun symbols variant => symbols.register variant (name ++ "_" ++ variant) := by
        funext symbols variant
        simp [registerVariant, anonymous, present, variantAnchor]
      simp only [Bool.false_eq_true, if_false, each]
      split
      · rename_i isEnum
        subst isEnum
        rw [sameMembers, members, List.foldl_map, variantNames, List.foldl_map]
        rfl
      · rfl

theorem replay_fill_doc (walker : Walker) (kind : Kind) (name doc : String) :
    replay (walker.fillDoc kind name doc).met = replay walker.met := by
  apply replay_map
  intro table declaration
  split <;> rfl

theorem visited_replay {walker after : Walker} {cursor : Cursor}
    (visited : Visited allowlist walker cursor after)
    (replayed : walker.symbols = replay walker.met) : after.symbols = replay after.met := by
  cases visited with
  | passed => exact replayed
  | folded =>
      rw [replay_fill_doc]
      exact replayed
  | known => exact replayed
  | described eligible apart unmet described =>
      obtain ⟨sameName, sameKind, -, sameMembers⟩ := describe_eq_ok described
      rw [replay_append_singleton, ← replayed]
      exact registered_eq_enroll (eligible_facts eligible).1 sameName sameKind sameMembers

theorem runs_replay {after : Walker} {cursors : List Cursor}
    (ran : Runs allowlist {} cursors after) :
    after.symbols = replay after.met :=
  runs_keep (fun walker => walker.symbols = replay walker.met) visited_replay ran rfl

theorem lookup_variants {enumName name anchor : String} {variants : List Declaration}
    {table : Table}
    (found : (variants.foldl (fun table variant => table.register variant.name
      (enumName ++ "_" ++ variant.name)) table).lookup? name = some anchor) :
    table.lookup? name = some anchor ∨ ∃ variant ∈ variants,
      anchor = enumName ++ "_" ++ variant.name := by
  induction variants generalizing table with
  | nil => exact Or.inl found
  | cons variant rest ih =>
      rcases ih found with before | ⟨later, member, same⟩
      · rw [lookup?_register] at before
        split at before
        · exact Or.inr ⟨variant, by simp, (Option.some.inj before).symm⟩
        · exact Or.inl before
      · exact Or.inr ⟨later, List.mem_cons_of_mem _ member, same⟩

theorem lookup_enroll {table : Table} {declaration : Declaration} {name anchor : String}
    (found : (table.enroll declaration).lookup? name = some anchor) :
    table.lookup? name = some anchor ∨ isAnonymous declaration.name = false ∧
      (anchor = declaration.name ∨ declaration.kind = .enum ∧
        ∃ variant ∈ declaration.members, anchor = declaration.name ++ "_" ++ variant.name) := by
  unfold enroll at found
  split at found
  · exact Or.inl found
  · rename_i named
    have own : ∀ {anchor : String},
        (table.register declaration.name declaration.name).lookup? name = some anchor →
          table.lookup? name = some anchor ∨ anchor = declaration.name := by
      intro anchor registered
      rw [lookup?_register] at registered
      split at registered
      · exact Or.inr (Option.some.inj registered).symm
      · exact Or.inl registered
    split at found
    · rename_i isEnum
      rcases lookup_variants found with before | variant
      · exact (own before).imp id fun same => ⟨by simpa using named, Or.inl same⟩
      · exact Or.inr ⟨by simpa using named, Or.inr ⟨isEnum, variant⟩⟩
    · exact (own found).imp id fun same => ⟨by simpa using named, Or.inl same⟩

def HasAnchor (declaration : Declaration) (anchor : String) : Prop :=
  declaration.anchor none = anchor ∨
    declaration.kind = .enum ∧ ∃ variant ∈ declaration.members,
      variant.anchor (some declaration) = anchor

/-- A declaration of the top level, with nothing but variants in an enumeration. -/
def Placed (declaration : Declaration) : Prop :=
  declaration.kind.isMember = false ∧
    (declaration.kind = .enum → ∀ variant ∈ declaration.members, variant.kind = .variant)

theorem placed_of_composed {declaration : Declaration}
    (composed : declaration.Composed) : Placed declaration := by
  refine ⟨composed.topLevel, ?_⟩
  intro isEnum variant inMembers
  rcases composed.kinds variant inMembers with ⟨isVariant, -⟩ | ⟨-, isRecord⟩
  · exact isVariant
  · simp [isEnum] at isRecord

theorem runs_placed {after : Walker} {cursors : List Cursor}
    (ran : Runs allowlist {} cursors after) :
    ∀ declaration ∈ after.met, Placed declaration :=
  fun declaration member => placed_of_composed (runs_composed ran declaration member)

theorem anchor_of_placed {declaration : Declaration} (placed : Placed declaration)
    (named : isAnonymous declaration.name = false) :
    declaration.anchor none = declaration.name := by
  have topLevel := placed.1
  unfold Declaration.anchor
  cases same : declaration.kind <;> simp_all [Kind.isMember]

theorem anchor_of_variant {declaration variant : Declaration} (isVariant : variant.kind = .variant)
    (named : isAnonymous declaration.name = false) :
    variant.anchor (some declaration) = declaration.name ++ "_" ++ variant.name := by
  simp [Declaration.anchor, isVariant, named, variantAnchor]

/-- What a replay knows was registered by one of the declarations: its name, or the anchor of one of
its variants. -/
theorem lookup_source {declarations : List Declaration} {name anchor : String}
    (found : (replay declarations).lookup? name = some anchor) :
    ∃ declaration ∈ declarations, isAnonymous declaration.name = false ∧
      (anchor = declaration.name ∨ declaration.kind = .enum ∧
        ∃ variant ∈ declaration.members, anchor = declaration.name ++ "_" ++ variant.name) := by
  induction declarations using List.reverseRecOn with
  | nil => simp [replay, lookup?, Index.find?] at found
  | append_singleton rest last ih =>
      rw [replay_append_singleton] at found
      rcases lookup_enroll found with before | registered
      · obtain ⟨declaration, member, source⟩ := ih before
        exact ⟨declaration, by simp [member], source⟩
      · exact ⟨last, by simp, registered⟩

theorem lookup_replay {declarations : List Declaration}
    (placed : ∀ declaration ∈ declarations, Placed declaration) {name anchor : String}
    (found : (replay declarations).lookup? name = some anchor) :
    ∃ declaration ∈ declarations, HasAnchor declaration anchor := by
  obtain ⟨declaration, member, named, same | ⟨isEnum, variant, inMembers, same⟩⟩ :=
    lookup_source found
  · refine ⟨declaration, member, Or.inl ?_⟩
    rw [same, anchor_of_placed (placed declaration member) named]
  · refine ⟨declaration, member, Or.inr ⟨isEnum, variant, inMembers, ?_⟩⟩
    rw [same, anchor_of_variant ((placed declaration member).2 isEnum variant inMembers) named]

theorem member_anchor_with_doc (variant declaration : Declaration) (doc : String) :
    variant.anchor (some { declaration with doc := doc }) = variant.anchor (some declaration) := by
  unfold Declaration.anchor
  cases variant.kind <;> rfl

theorem has_anchor_with_doc {declaration : Declaration} {anchor : String}
    (has : HasAnchor declaration anchor) (doc : String) :
    HasAnchor { declaration with doc := doc } anchor := by
  rcases has with own | ⟨isEnum, variant, member, same⟩
  · exact Or.inl own
  · exact Or.inr ⟨isEnum, variant, member,
      (member_anchor_with_doc variant declaration doc).trans same⟩

theorem has_anchor_filled {walker : Walker} {cursors : List Cursor} {declaration : Declaration}
    {anchor : String} (has : HasAnchor declaration anchor) :
    HasAnchor (filled allowlist walker cursors declaration) anchor := by
  unfold filled
  split
  · exact has_anchor_with_doc has _
  · exact has

/-- After headers have been read without a failure, the table is the replay of the declarations.
Every anchor that it gave at any moment, and so every anchor that a comment was given, is that of a
declaration or variant among them: the comments of a cursor are read under the symbols that its
visit leaves. -/
theorem session_replays {reading : Reading} {cursors : List Cursor} {walker : Walker}
    (session : Session reading {} cursors walker) :
    walker.symbols = replay walker.declarations ∧
      ∀ passed coming, cursors = passed ++ coming → ∀ name anchor,
        (visitAll reading.allowlist {} passed).1.symbols.lookup? name = some anchor →
          ∃ declaration ∈ walker.declarations, HasAnchor declaration anchor := by
  have ran := runs_of_session session
  rw [declarations_of_runs ran]
  refine ⟨runs_replay ran, ?_⟩
  intro passed coming split name anchor found
  rw [split] at ran
  obtain ⟨moment, before, after⟩ := runs_append.1 ran
  have atMoment : (visitAll reading.allowlist {} passed).1 = moment := congrArg Prod.fst before
  rw [atMoment, runs_replay before] at found
  obtain ⟨old, met, has⟩ := lookup_replay (runs_placed before) found
  -- The declaration keeps its anchors while the rest of the cursors is visited.
  obtain ⟨added, metAfter⟩ := runs_fill after
  rw [metAfter]
  exact ⟨_, List.mem_append_left _ (List.mem_map_of_mem met), has_anchor_filled has⟩

/-- A variable takes the name of a variant over. The anchor that the variant had still leads to the
variant. -/
theorem overwritten_variant_keeps_anchor :
    let enumeration : Cursor :=
      { kind := .declares .enum, spelling := "fz_e"
        children := [{ kind := .declares .variant, spelling := "FZ_A" }] }
    let global : Cursor := { kind := .declares .global, spelling := "FZ_A", type := "int" }
    let header : Header := { cursors := [enumeration, global] }
    let walker := (Reading.read {} (fun _ => some header) {} "a.h").walker
    Session {} {} header.cursors walker ∧
      walker.symbols = replay walker.declarations ∧
      walker.symbols.entries = [("fz_e", "fz_e"), ("FZ_A", "FZ_A")] ∧
      ∃ declaration ∈ walker.declarations, HasAnchor declaration "fz_e_FZ_A" := by
  intro enumeration global header walker
  have session : Session {} {} (header.cursors ++ []) walker :=
    .read rfl (by decide +kernel) (.done walker)
  rw [List.append_nil] at session
  obtain ⟨replayed, anchored⟩ := session_replays session
  refine ⟨session, replayed, by decide +kernel, ?_⟩
  exact anchored [enumeration] [global] rfl "FZ_A" "fz_e_FZ_A" (by decide +kernel)

end Walker

end HeaderDocs
