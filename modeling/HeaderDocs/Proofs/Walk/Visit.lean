import HeaderDocs.Walk.Headers
import Mathlib.Data.List.Basic

/-!
What one visit of the walk can do, and what a run of visits keeps. A visit that succeeds passes a
cursor over, folds a type definition into the record it names, or describes a new declaration;
everything later is derived from these cases. A declaration that was met stays, under its kind and
name, and only its doc can change.
-/

namespace HeaderDocs.Walker

set_option autoImplicit false

variable {allowlist : Allowlist}

theorem eligible_eq_some {cursor : Cursor} {kind : Kind} {name : String} :
    eligible? allowlist cursor = .ok (some (kind, name)) ↔
      cursor.kind = .declares kind ∧ cursor.declaredName? kind = some name ∧ name ≠ "" ∧
        allowed allowlist cursor kind name = .ok true := by
  constructor
  · intro eligible
    unfold eligible? at eligible
    split at eligible
    · rename_i declared declares
      split at eligible
      · simp at eligible
      · rename_i found declaredName
        split at eligible
        · simp at eligible
        · rename_i nonempty
          split at eligible
          · simp at eligible
          · simp at eligible
          · rename_i taken
            simp only [Except.ok.injEq, Option.some.injEq, Prod.mk.injEq] at eligible
            obtain ⟨rfl, rfl⟩ := eligible
            exact ⟨declares, declaredName, fun empty => nonempty (by simp [empty]), taken⟩
    · simp at eligible
  · rintro ⟨declares, declared, nonempty, taken⟩
    simp [eligible?, declares, declared, nonempty, taken]

theorem refused_of_passed {cursor : Cursor} {kind : Kind} {name : String}
    (passed : eligible? allowlist cursor = .ok none) (declares : cursor.kind = .declares kind)
    (declared : cursor.declaredName? kind = some name) (nonempty : name ≠ "") :
    allowed allowlist cursor kind name = .ok false := by
  simp only [eligible?, declares, declared, String.isEmpty_iff, nonempty, if_false] at passed
  split at passed
  · simp at passed
  · assumption
  · simp at passed

theorem eligible_facts {cursor : Cursor} {kind : Kind} {name : String}
    (eligible : eligible? allowlist cursor = .ok (some (kind, name))) :
    name ≠ "" ∧ kind.isMember = false ∧ cursor.declaredName? kind = some name := by
  obtain ⟨-, declared, nonempty, -⟩ := eligible_eq_some.1 eligible
  refine ⟨nonempty, ?_, declared⟩
  cases kind <;> simp_all [Cursor.declaredName?, Kind.isMember]

theorem folded_into_eq_some {walker : Walker} {cursor : Cursor} {kind target : Kind}
    {name : String} :
    walker.foldedInto? cursor kind name = some target ↔
      kind = .typedef ∧ cursor.underlyingKind = .declares target ∧ target.isRecord ∧
        walker.hasMet target name := by
  unfold foldedInto?
  split
  · rename_i declared underlying
    split
    · rename_i met
      simp only [Bool.and_eq_true] at met
      simp only [Option.some.injEq, true_and, underlying, CursorKind.declares.injEq]
      constructor
      · rintro rfl
        exact ⟨rfl, met⟩
      · rintro ⟨rfl, -⟩
        rfl
    · rename_i unmet
      simp only [reduceCtorEq, true_and, underlying, CursorKind.declares.injEq, false_iff]
      rintro ⟨rfl, met⟩
      exact unmet (by simpa using met)
  · rename_i other
    simp only [reduceCtorEq, false_iff]
    rintro ⟨rfl, underlying, -⟩
    exact other target rfl underlying

theorem has_met_iff {walker : Walker} {kind : Kind} {name : String} :
    walker.hasMet kind name ↔ (kind, name) ∈ walker.met.map key := by
  simp [hasMet, List.any_eq_true]

@[simp] theorem key_with_doc (declaration : Declaration) (doc : String) :
    key { declaration with doc := doc } = key declaration := rfl

theorem fill_doc_keys (walker : Walker) (kind : Kind) (name doc : String) :
    (walker.fillDoc kind name doc).met.map key = walker.met.map key := by
  simp only [fillDoc, List.map_map]
  apply List.map_congr_left
  intro declaration _
  simp only [Function.comp_apply]
  split <;> rfl

theorem describe_eq_ok {symbols : Symbol.Table} {cursor : Cursor} {kind : Kind} {name : String}
    {declaration : Declaration} (described : describe symbols cursor kind name = .ok declaration) :
    declaration.name = name ∧ declaration.kind = kind ∧ declaration.doc = commentOf symbols cursor ∧
      declaration.members = members symbols cursor kind := by
  unfold describe at described
  split at described
  · simp at described
  · simp only [Except.ok.injEq] at described
    subst described
    exact ⟨rfl, rfl, rfl, rfl⟩

inductive Visited (allowlist : Allowlist) (walker : Walker) (cursor : Cursor) : Walker → Prop
  | passed (eligible : eligible? allowlist cursor = .ok none) :
      Visited allowlist walker cursor walker
  | folded {target : Kind} {name : String} (eligible : eligible? allowlist cursor =
      .ok (some (.typedef, name)))
      (names : cursor.underlyingKind = .declares target) (record : target.isRecord)
      (met : walker.hasMet target name) :
      Visited allowlist walker cursor (walker.fillDoc target name (commentOf walker.symbols cursor))
  | known {kind : Kind} {name : String} (eligible : eligible? allowlist cursor =
      .ok (some (kind, name)))
      (apart : walker.foldedInto? cursor kind name = none) (met : walker.hasMet kind name) :
      Visited allowlist walker cursor walker
  | described {kind : Kind} {name : String} {declaration : Declaration}
      (eligible : eligible? allowlist cursor = .ok (some (kind, name)))
      (apart : walker.foldedInto? cursor kind name = none) (unmet : walker.hasMet kind name = false)
      (described : describe (registered walker.symbols cursor kind name) cursor kind name =
        .ok declaration) :
      Visited allowlist walker cursor
        { walker with
          symbols := registered walker.symbols cursor kind name
          met := walker.met ++ [declaration] }

theorem visited_of_visit {walker after : Walker} {cursor : Cursor}
    (succeeded : visit allowlist walker cursor = (after, none)) :
    Visited allowlist walker cursor after := by
  unfold visit at succeeded
  split at succeeded
  · simp at succeeded
  · rename_i eligible
    simp only [Prod.mk.injEq, and_true] at succeeded
    subst succeeded
    exact .passed eligible
  · rename_i kind name eligible
    unfold meet at succeeded
    split at succeeded
    · rename_i target found
      obtain ⟨rfl, names, record, met⟩ := folded_into_eq_some.1 found
      simp only [Prod.mk.injEq, and_true] at succeeded
      subst succeeded
      exact .folded eligible names record met
    · rename_i apart
      split at succeeded
      · rename_i met
        simp only [Prod.mk.injEq, and_true] at succeeded
        subst succeeded
        exact .known eligible apart met
      · rename_i unmet
        simp only at succeeded
        split at succeeded
        · simp at succeeded
        · rename_i declaration described
          simp only [Prod.mk.injEq, and_true] at succeeded
          subst succeeded
          exact .described eligible apart (by simpa using unmet) described

theorem visit_of_visited {walker after : Walker} {cursor : Cursor}
    (visited : Visited allowlist walker cursor after) :
    visit allowlist walker cursor = (after, none) := by
  unfold visit
  cases visited with
  | passed eligible => rw [eligible]
  | folded eligible names record met =>
      have found := folded_into_eq_some.2 ⟨rfl, names, record, met⟩
      simp only [eligible, meet, found]
  | known eligible apart met => simp only [eligible, meet, apart, met, if_true]
  | described eligible apart unmet described =>
      simp only [eligible, meet, apart, unmet, described, Bool.false_eq_true, if_false]

/-- A run of visits, none of which fails. -/
def Runs (allowlist : Allowlist) (walker : Walker) (cursors : List Cursor)
    (after : Walker) : Prop :=
  visitAll allowlist walker cursors = (after, none)

theorem runs_nil {walker after : Walker} : Runs allowlist walker [] after ↔ after = walker := by
  simp [Runs, visitAll, eq_comm]

theorem runs_cons {walker after : Walker} {cursor : Cursor} {cursors : List Cursor} :
    Runs allowlist walker (cursor :: cursors) after ↔
      ∃ next, visit allowlist walker cursor = (next, none) ∧ Runs allowlist next cursors after := by
  unfold Runs
  rw [visitAll]
  split
  · rename_i next visited
    simp [visited]
  · rename_i next failure visited
    simp [visited]

theorem runs_append {walker after : Walker} {left right : List Cursor} :
    Runs allowlist walker (left ++ right) after ↔
      ∃ next, Runs allowlist walker left next ∧ Runs allowlist next right after := by
  induction left generalizing walker with
  | nil => simp [runs_nil]
  | cons cursor rest ih =>
      simp only [List.cons_append, runs_cons, ih]
      constructor
      · rintro ⟨first, visited, next, ran, later⟩
        exact ⟨next, ⟨first, visited, ran⟩, later⟩
      · rintro ⟨next, ⟨first, visited, ran⟩, later⟩
        exact ⟨first, visited, next, ran, later⟩

theorem runs_keep (invariant : Walker → Prop)
    (step : ∀ {walker after : Walker} {cursor : Cursor}, Visited allowlist walker cursor after →
      invariant walker → invariant after)
    {walker after : Walker} {cursors : List Cursor} (ran : Runs allowlist walker cursors after)
    (holds : invariant walker) : invariant after := by
  induction cursors generalizing walker with
  | nil =>
      rw [runs_nil.1 ran]
      exact holds
  | cons cursor rest ih =>
      obtain ⟨next, visited, later⟩ := runs_cons.1 ran
      exact ih later (step (visited_of_visit visited) holds)

theorem visited_keys_nodup {walker after : Walker} {cursor : Cursor}
    (visited : Visited allowlist walker cursor after)
    (distinct : (walker.met.map key).Nodup) : (after.met.map key).Nodup := by
  cases visited with
  | passed => exact distinct
  | folded =>
      rw [fill_doc_keys]
      exact distinct
  | known => exact distinct
  | @described kind name declaration eligible apart unmet described =>
      obtain ⟨sameName, sameKind, -⟩ := describe_eq_ok described
      have fresh : key declaration ∉ walker.met.map key := by
        rw [key, sameName, sameKind, ← has_met_iff, unmet]
        simp
      rw [List.map_append, List.map_singleton]
      exact List.nodup_append.2 ⟨distinct, by simp, by
        intro known member other single
        rw [List.mem_singleton.1 single]
        exact fun same => fresh (same ▸ member)⟩

theorem visited_keys_subset {walker after : Walker} {cursor : Cursor}
    (visited : Visited allowlist walker cursor after) : walker.met.map key ⊆ after.met.map key := by
  cases visited with
  | passed => exact List.Subset.refl _
  | folded =>
      rw [fill_doc_keys]
      exact List.Subset.refl _
  | known => exact List.Subset.refl _
  | described =>
      rw [List.map_append]
      exact List.subset_append_left _ _

theorem visited_abandoned {walker after : Walker} {cursor : Cursor}
    (visited : Visited allowlist walker cursor after) :
    after.abandoned = walker.abandoned := by
  cases visited <;> rfl

end HeaderDocs.Walker
