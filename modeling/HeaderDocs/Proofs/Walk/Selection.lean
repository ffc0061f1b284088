import HeaderDocs.Proofs.Walk.Growth
import Mathlib.Data.List.Forall2

/-!
Which cursors a walk documents. Whether a cursor is eligible depends on nothing that was met before
it. Of the eligible cursors the walk takes each that nothing taken so far covers, be it of the same
kind and name or, for a type definition, the record that it gives its own name to. So the
declarations can be told from the cursors alone, without symbols or docs.
-/

namespace HeaderDocs

set_option autoImplicit false

/-- Some pattern for the kind can be read and matches the name from end to end. -/
def Allowlist.Accepts (allowlist : Allowlist) (kind : Kind) (name : String) : Prop :=
  ∃ source ∈ allowlist.patterns kind, ∃ pattern ∈ Pattern.parse? source, pattern.accepts name

instance {allowlist : Allowlist} {kind : Kind} {name : String} :
    Decidable (allowlist.Accepts kind name) :=
  inferInstanceAs (Decidable (∃ source ∈ _, ∃ pattern ∈ Pattern.parse? source, _))

theorem any_accepts_ok {name : String} {sources : List String} {answer : Bool}
    (answered : Allowlist.anyAccepts name sources = .ok answer) :
    answer ↔ ∃ source ∈ sources, ∃ pattern ∈ Pattern.parse? source, pattern.accepts name := by
  induction sources with
  | nil => simp_all [Allowlist.anyAccepts]
  | cons source sources ih =>
      rw [Allowlist.anyAccepts] at answered
      split at answered
      · simp at answered
      · rename_i pattern read
        have parsed : Pattern.parse? source = some pattern := Pattern.read_of_parse.2 read
        split at answered
        · rename_i accepted
          simp [← Except.ok.inj answered, parsed, accepted]
        · rename_i refused
          simp [ih answered, parsed, refused]

theorem allows_any_ok {allowlist : Allowlist} {kind : Kind} {names : List String} {answer : Bool}
    (answered : allowlist.allowsAny kind names = .ok answer) :
    answer ↔ ∃ name ∈ names, allowlist.Accepts kind name := by
  induction names with
  | nil => simp_all [Allowlist.allowsAny]
  | cons name names ih =>
      rw [Allowlist.allowsAny] at answered
      split at answered
      · rename_i refused
        have unaccepted : ¬allowlist.Accepts kind name := fun accepted =>
          absurd ((any_accepts_ok refused).2 accepted) (by simp)
        simp [ih answered, unaccepted]
      · rename_i unrefused
        cases answer with
        | false => exact absurd answered unrefused
        | true => exact iff_of_true rfl ⟨name, by simp, (any_accepts_ok answered).1 rfl⟩

namespace Walker

variable {allowlist : Allowlist}

structure Occurrence where
  cursor : Cursor
  kind : Kind
  name : String

namespace Occurrence

def key (occurrence : Occurrence) : Kind × String :=
  (occurrence.kind, occurrence.name)

/-- A cursor that declares something of a kind. A record without a name of its own goes by that of
its type. -/
def ofKind (cursor : Cursor) (kind : Kind) : Occurrence :=
  ⟨cursor, kind, if kind.isRecord then cursor.recordName else cursor.spelling⟩

def ofCursor? (cursor : Cursor) : Option Occurrence :=
  match cursor.kind with
  | .declares kind => some (ofKind cursor kind)
  | _ => none

/-- The allowlist takes the occurrence in: by its name, or an enumeration without one by one of its
variants. -/
def Listed (allowlist : Allowlist) (occurrence : Occurrence) : Prop :=
  if occurrence.kind = .enum ∧ Symbol.isAnonymous occurrence.name then
    ∃ variant ∈ variantNames occurrence.cursor, allowlist.Accepts .variant variant
  else allowlist.Accepts occurrence.kind occurrence.name

/-- The occurrence is one to document, whatever else is declared. -/
structure Eligible (allowlist : Allowlist) (occurrence : Occurrence) : Prop where
  topLevel : occurrence.kind ∉ [Kind.variant, .field, .other]
  defined : occurrence.kind.isRecord → occurrence.cursor.isDefinition
  valued : occurrence.kind = .define → occurrence.cursor.isValueMacro
  published : occurrence.kind = .define → occurrence.cursor.spelling.toList.head? ≠ some '_'
  named : occurrence.name ≠ ""
  listed : occurrence.Listed allowlist

instance {occurrence : Occurrence} : Decidable (occurrence.Listed allowlist) :=
  inferInstanceAs (Decidable (ite _ _ _))

instance {occurrence : Occurrence} : Decidable (occurrence.Eligible allowlist) :=
  decidable_of_iff
    (occurrence.kind ∉ [Kind.variant, .field, .other] ∧
      (occurrence.kind.isRecord → occurrence.cursor.isDefinition) ∧
      (occurrence.kind = .define → occurrence.cursor.isValueMacro) ∧
      (occurrence.kind = .define → occurrence.cursor.spelling.toList.head? ≠ some '_') ∧
      occurrence.name ≠ "" ∧ occurrence.Listed allowlist)
    ⟨fun ⟨topLevel, defined, valued, published, named, listed⟩ =>
      ⟨topLevel, defined, valued, published, named, listed⟩,
      fun ⟨topLevel, defined, valued, published, named, listed⟩ =>
        ⟨topLevel, defined, valued, published, named, listed⟩⟩

/-- What has been taken covers the occurrence: it has its kind and name or, for a type definition, a
record that the type definition gives its own name to. -/
def Covered (taken : List (Kind × String)) (occurrence : Occurrence) : Prop :=
  occurrence.key ∈ taken ∨ occurrence.kind = .typedef ∧ ∃ record ∈ [Kind.struct, .union, .enum],
    occurrence.cursor.underlyingKind = .declares record ∧ (record, occurrence.name) ∈ taken

instance {taken : List (Kind × String)} {occurrence : Occurrence} :
    Decidable (occurrence.Covered taken) :=
  inferInstanceAs (Decidable (_ ∨ _ ∧ _))

def candidates (allowlist : Allowlist) (cursors : List Cursor) : List Occurrence :=
  (cursors.filterMap ofCursor?).filter (Eligible allowlist)

/-- The occurrences that nothing taken before them covers. -/
def uncovered (taken : List (Kind × String)) : List Occurrence → List Occurrence
  | [] => []
  | occurrence :: later =>
      if occurrence.Covered taken then uncovered taken later
      else occurrence :: uncovered (taken ++ [occurrence.key]) later

/-- The declaration tells of this occurrence. Docs are left out: they depend on more than one
cursor. -/
structure Describes (occurrence : Occurrence) (declaration : Declaration) : Prop where
  key : Walker.key declaration = occurrence.key
  signature : occurrence.cursor.signature occurrence.kind occurrence.name =
    .ok declaration.signature
  file : declaration.file = occurrence.cursor.file.getD ""
  line : declaration.line = occurrence.cursor.placeLine
  derives : declaration.derives = if occurrence.kind.isType then derivesOf occurrence.name else []
  members : declaration.members.map Declaration.name =
    (memberCursors occurrence.cursor occurrence.kind).map Cursor.spelling

theorem candidates_append (left right : List Cursor) :
    candidates allowlist (left ++ right) = candidates allowlist left ++
      candidates allowlist right := by
  simp [candidates]

theorem uncovered_append (taken : List (Kind × String)) (left right : List Occurrence) :
    uncovered taken (left ++ right) =
      uncovered taken left ++ uncovered (taken ++ (uncovered taken left).map key) right := by
  induction left generalizing taken with
  | nil => simp [uncovered]
  | cons occurrence later ih =>
      by_cases covered : occurrence.Covered taken
      · simp only [List.cons_append, uncovered, covered, if_true, ih]
      · simp only [List.cons_append, uncovered, covered, if_false, ih, List.map_cons,
          List.append_assoc, List.nil_append]

end Occurrence

open Occurrence

theorem declared_name_eq_some {cursor : Cursor} {kind : Kind} {name : String} :
    cursor.declaredName? kind = some name ↔
      (ofKind cursor kind).name = name ∧ kind ∉ [Kind.variant, .field, .other] ∧
        (kind.isRecord → cursor.isDefinition) ∧ (kind = .define → cursor.isValueMacro) ∧
        (kind = .define → cursor.spelling.toList.head? ≠ some '_') := by
  have underscore : ∀ text : List Char, Text.startsWith ['_'] text ↔ text.head? = some '_' := by
    intro text
    cases text with
    | nil => simp [Text.startsWith]
    | cons c rest =>
        have sides : '_' = c ↔ c = '_' := eq_comm
        simp [Text.startsWith, sides]
  cases kind <;> simp [ofKind, Cursor.declaredName?, Kind.isRecord, underscore, and_comm]

theorem allowed_ok {cursor : Cursor} {kind : Kind} {name : String} {answer : Bool}
    (answered : allowed allowlist cursor kind name = .ok answer) :
    answer ↔ Listed allowlist ⟨cursor, kind, name⟩ := by
  unfold allowed at answered
  unfold Listed
  split at answered
  · rename_i nameless
    rw [if_pos nameless]
    exact allows_any_ok answered
  · rename_i own
    rw [if_neg own]
    exact any_accepts_ok answered

theorem eligible_iff {cursor : Cursor} {kind : Kind} {name : String}
    (own : (ofKind cursor kind).name = name) :
    Eligible allowlist ⟨cursor, kind, name⟩ ↔
      cursor.declaredName? kind = some name ∧ name ≠ "" ∧
        Listed allowlist ⟨cursor, kind, name⟩ := by
  rw [declared_name_eq_some]
  constructor
  · rintro ⟨topLevel, defined, valued, published, named, listed⟩
    exact ⟨⟨own, topLevel, defined, valued, published⟩, named, listed⟩
  · rintro ⟨⟨-, topLevel, defined, valued, published⟩, named, listed⟩
    exact ⟨topLevel, defined, valued, published, named, listed⟩

theorem candidates_of_passed {cursor : Cursor} (passed : eligible? allowlist cursor = .ok none) :
    candidates allowlist [cursor] = [] := by
  cases declares : cursor.kind with
  | declares kind =>
      have ineligible : ¬(ofKind cursor kind).Eligible allowlist := by
        intro eligible
        obtain ⟨declared, nonempty, listed⟩ := (eligible_iff rfl).1 eligible
        have refused := refused_of_passed passed declares declared nonempty
        exact absurd ((allowed_ok refused).2 listed) (by simp)
      simp [candidates, ofCursor?, declares, ineligible]
  | parameter => simp [candidates, ofCursor?, declares]
  | ignored => simp [candidates, ofCursor?, declares]

theorem candidates_of_found {cursor : Cursor} {kind : Kind} {name : String}
    (found : eligible? allowlist cursor = .ok (some (kind, name))) :
    candidates allowlist [cursor] = [⟨cursor, kind, name⟩] := by
  obtain ⟨declares, declared, nonempty, taken⟩ := eligible_eq_some.1 found
  have own : (ofKind cursor kind).name = name := (declared_name_eq_some.1 declared).1
  have occurs : ofKind cursor kind = ⟨cursor, kind, name⟩ :=
    congrArg (Occurrence.mk cursor kind) own
  have eligible : Eligible allowlist ⟨cursor, kind, name⟩ :=
    (eligible_iff own).2 ⟨declared, nonempty, (allowed_ok taken).1 rfl⟩
  simp [candidates, ofCursor?, declares, occurs, eligible]

theorem covered_of_folded {walker : Walker} {cursor : Cursor} {kind target : Kind} {name : String}
    (folds : walker.foldedInto? cursor kind name = some target) :
    Covered (walker.met.map Walker.key) ⟨cursor, kind, name⟩ := by
  obtain ⟨rfl, names, record, met⟩ := folded_into_eq_some.1 folds
  refine Or.inr ⟨rfl, target, ?_, names, has_met_iff.1 met⟩
  cases target <;> simp_all [Kind.isRecord]

theorem uncovered_of_new {walker : Walker} {cursor : Cursor} {kind : Kind} {name : String}
    (apart : walker.foldedInto? cursor kind name = none) (unmet : walker.hasMet kind name = false) :
    ¬Covered (walker.met.map Walker.key) ⟨cursor, kind, name⟩ := by
  rintro (known | ⟨isTypedef, target, record, names, met⟩)
  · have met : walker.hasMet kind name := has_met_iff.2 known
    simp [unmet] at met
  · have isRecord : target.isRecord := by
      simp only [List.mem_cons, List.not_mem_nil, or_false] at record
      rcases record with rfl | rfl | rfl <;> rfl
    have folds := folded_into_eq_some.2 ⟨isTypedef, names, isRecord, has_met_iff.2 met⟩
    simp [apart] at folds

theorem describes_of_describe {symbols : Symbol.Table} {cursor : Cursor} {kind : Kind}
    {name : String} {declaration : Declaration}
    (described : describe symbols cursor kind name = .ok declaration) :
    Describes ⟨cursor, kind, name⟩ declaration := by
  unfold describe at described
  split at described
  · simp at described
  · rename_i signature signed
    obtain rfl := Except.ok.inj described
    refine ⟨rfl, signed, rfl, rfl, rfl, ?_⟩
    cases kind <;> simp [members, memberCursors, member, Function.comp_def]

theorem keys_described {taken : List Occurrence} {declarations : List Declaration}
    (told : List.Forall₂ Describes taken declarations) :
    taken.map Occurrence.key = declarations.map Walker.key := by
  induction told with
  | nil => rfl
  | cons describes _ ih => rw [List.map_cons, List.map_cons, ih, describes.key]

/-- A visit takes its cursor where that is eligible and not covered, and leaves what was taken as it
was. -/
theorem visited_takes {walker after : Walker} {cursor : Cursor}
    (visited : Visited allowlist walker cursor after) {taken : List Occurrence}
    (told : List.Forall₂ Describes taken walker.met) :
    List.Forall₂ Describes (taken ++
      uncovered (taken.map Occurrence.key) (candidates allowlist [cursor]))
      after.met := by
  rw [keys_described told]
  cases visited with
  | passed passed => simpa [candidates_of_passed passed, uncovered] using told
  | folded found names record met =>
      have covered := covered_of_folded (folded_into_eq_some.2 ⟨rfl, names, record, met⟩)
      rw [candidates_of_found found, uncovered, if_pos covered, uncovered, List.append_nil, fillDoc,
        List.forall₂_map_right_iff]
      apply told.imp
      intro occurrence declaration describes
      split
      · exact ⟨describes.key, describes.signature, describes.file, describes.line,
          describes.derives, describes.members⟩
      · exact describes
  | known found apart met =>
      have covered : Covered (walker.met.map Walker.key) ⟨cursor, _, _⟩ :=
        Or.inl (has_met_iff.1 met)
      rw [candidates_of_found found, uncovered, if_pos covered, uncovered, List.append_nil]
      exact told
  | described found apart unmet described =>
      rw [candidates_of_found found, uncovered, if_neg (uncovered_of_new apart unmet), uncovered]
      exact List.rel_append told (.cons (describes_of_describe described) .nil)

theorem runs_take {walker after : Walker} {cursors : List Cursor}
    (ran : Runs allowlist walker cursors after) {taken : List Occurrence}
    (told : List.Forall₂ Describes taken walker.met) :
    List.Forall₂ Describes (taken ++
      uncovered (taken.map Occurrence.key) (candidates allowlist cursors))
      after.met := by
  induction cursors generalizing walker taken with
  | nil =>
      rw [runs_nil.1 ran]
      simpa [candidates, uncovered] using told
  | cons cursor rest ih =>
      obtain ⟨next, visited, later⟩ := runs_cons.1 ran
      have whole := ih later (visited_takes (visited_of_visit visited) told)
      rw [← List.singleton_append, candidates_append, uncovered_append]
      rwa [List.map_append, List.append_assoc] at whole

end Walker

end HeaderDocs
