import HeaderDocs.Proofs.Walk.Session

/-!
How the declarations grow along a run. What was met stays in its place; the one thing that happens
to it is that the missing doc of a record is filled by a type definition of its name, read under the
symbols of that moment. All else is added behind it.
-/

namespace HeaderDocs.Walker

set_option autoImplicit false

variable {allowlist : Allowlist}

def docUnder (symbols : Symbol.Table) (cursor : Cursor) : String :=
  Comment.transform symbols (Comment.clean (cursor.comment.getD ""))

theorem doc_under_eq_comment (symbols : Symbol.Table) (cursor : Cursor) :
    docUnder symbols cursor = commentOf symbols cursor := by
  unfold docUnder commentOf
  cases cursor.comment with
  | some comment => rfl
  | none => rfl

/-- The cursor is a documented type definition that gives its own name to a record of this kind. -/
def Names (allowlist : Allowlist) (cursor : Cursor) (kind : Kind) (name : String) : Prop :=
  eligible? allowlist cursor = .ok (some (.typedef, name)) ∧
    cursor.underlyingKind = .declares kind ∧ kind.isRecord

instance {cursor : Cursor} {kind : Kind} {name : String} :
    Decidable (Names allowlist cursor kind name) :=
  inferInstanceAs (Decidable (_ ∧ _ ∧ _))

/-- The first doc that the cursors bring for a record. -/
def brought? (allowlist : Allowlist) (kind : Kind) (name : String) :
    Walker → List Cursor → Option String
  | _, [] => none
  | walker, cursor :: cursors =>
      if Names allowlist cursor kind name ∧ docUnder walker.symbols cursor ≠ "" then
        some (docUnder walker.symbols cursor)
      else brought? allowlist kind name (visit allowlist walker cursor).1 cursors

/-- A declaration with the first doc that the cursors bring for it, unless it has one. -/
def filled (allowlist : Allowlist) (walker : Walker) (cursors : List Cursor)
    (declaration : Declaration) : Declaration :=
  if declaration.doc = "" then
    { declaration with
      doc := (brought? allowlist declaration.kind declaration.name walker cursors).getD "" }
  else declaration

theorem with_missing_doc {declaration : Declaration} (missing : declaration.doc = "") :
    { declaration with doc := "" } = declaration := by
  cases declaration
  simp only at missing
  rw [missing]

theorem filled_nil (walker : Walker) (declaration : Declaration) :
    filled allowlist walker [] declaration = declaration := by
  unfold filled
  split
  · rename_i missing
    exact with_missing_doc missing
  · rfl

@[simp] theorem key_filled (walker : Walker) (cursors : List Cursor) (declaration : Declaration) :
    key (filled allowlist walker cursors declaration) = key declaration := by
  unfold filled
  split <;> rfl

theorem keys_filled (walker : Walker) (cursors : List Cursor) (declarations : List Declaration) :
    (declarations.map (filled allowlist walker cursors)).map key = declarations.map key := by
  simp [Function.comp_def]

theorem brought_ne_empty {kind : Kind} {name doc : String} {walker : Walker} {cursors : List Cursor}
    (brought : brought? allowlist kind name walker cursors = some doc) : doc ≠ "" := by
  induction cursors generalizing walker with
  | nil => simp [brought?] at brought
  | cons cursor rest ih =>
      rw [brought?] at brought
      split at brought
      · rename_i names
        rw [← Option.some.inj brought]
        exact names.2
      · exact ih brought

theorem filled_unnamed {walker : Walker} {cursor : Cursor} {declaration : Declaration}
    (unnamed : ¬Names allowlist cursor declaration.kind declaration.name) :
    filled allowlist walker [cursor] declaration = declaration := by
  unfold filled
  split
  · rename_i missing
    simp only [brought?, unnamed, false_and, if_false, Option.getD_none]
    exact with_missing_doc missing
  · rfl

theorem filled_named {walker : Walker} {cursor : Cursor} {declaration : Declaration}
    (naming : Names allowlist cursor declaration.kind declaration.name) :
    filled allowlist walker [cursor] declaration =
      if declaration.doc = "" then { declaration with doc := docUnder walker.symbols cursor }
        else declaration := by
  by_cases silent : docUnder walker.symbols cursor = ""
  · simp [filled, brought?, silent]
  · simp [filled, brought?, silent, naming]

theorem filled_later {walker next : Walker} {cursor : Cursor} {cursors : List Cursor}
    (visited : visit allowlist walker cursor = (next, none)) (declaration : Declaration) :
    filled allowlist next cursors (filled allowlist walker [cursor] declaration) =
      filled allowlist walker (cursor :: cursors) declaration := by
  by_cases missing : declaration.doc = ""
  · by_cases own : Names allowlist cursor declaration.kind declaration.name ∧
      docUnder walker.symbols cursor ≠ ""
    · simp only [filled, missing, brought?, own, ne_eq, not_false_eq_true, and_self, if_true,
        Option.getD_some, if_false]
    · simp only [filled, missing, brought?, own, visited, if_true, if_false, Option.getD_none]
  · simp only [filled, missing, if_false]

def memberCursors (cursor : Cursor) : Kind → List Cursor
  | .enum => cursor.childrenOf (.declares .variant)
  | .struct | .union => cursor.childrenOf (.declares .field)
  | _ => []

/-- The visit of the cursor adds this declaration behind the others, and reads its comment and those
of its members under the symbols that it leaves. -/
structure Emits (allowlist : Allowlist) (walker : Walker) (cursor : Cursor)
    (emitted : Declaration) : Prop where
  eligible : eligible? allowlist cursor = .ok (some (emitted.kind, emitted.name))
  behind : (visit allowlist walker cursor).1.met = walker.met ++ [emitted]
  doc : emitted.doc = docUnder (visit allowlist walker cursor).1.symbols cursor
  memberDocs : emitted.members.map Declaration.doc =
    (memberCursors cursor emitted.kind).map (docUnder (visit allowlist walker cursor).1.symbols)

theorem member_docs (symbols : Symbol.Table) (cursor : Cursor) (kind : Kind) :
    (members symbols cursor kind).map Declaration.doc =
      (memberCursors cursor kind).map (docUnder symbols) := by
  have docs : ∀ memberKind : Kind, (Declaration.doc ∘ member symbols memberKind) =
      docUnder symbols := by
    intro memberKind
    funext child
    exact (doc_under_eq_comment symbols child).symm
  cases kind <;> simp only [members, memberCursors, List.map_map, List.map_nil, docs]

theorem unnamed_of_apart {walker : Walker} {cursor : Cursor} {kind : Kind} {name : String}
    (eligible : eligible? allowlist cursor = .ok (some (kind, name)))
    (apart : walker.foldedInto? cursor kind name = none) {declaration : Declaration}
    (met : declaration ∈ walker.met) :
    ¬Names allowlist cursor declaration.kind declaration.name := by
  rintro ⟨naming, names, record⟩
  rw [eligible] at naming
  simp only [Except.ok.injEq, Option.some.injEq, Prod.mk.injEq] at naming
  obtain ⟨rfl, rfl⟩ := naming
  have found := folded_into_eq_some.2 ⟨rfl, names, record, has_met_iff.2 (List.mem_map_of_mem met)⟩
  simp [apart] at found

theorem map_filled_unnamed {walker : Walker} {cursor : Cursor}
    (unnamed : ∀ declaration ∈ walker.met,
      ¬Names allowlist cursor declaration.kind declaration.name) :
    walker.met.map (filled allowlist walker [cursor]) = walker.met := by
  rw [List.map_congr_left fun declaration met => filled_unnamed (unnamed declaration met)]
  exact List.map_id' _

theorem visit_fills {walker next : Walker} {cursor : Cursor}
    (visited : visit allowlist walker cursor = (next, none)) :
    ∃ added, next.met = walker.met.map (filled allowlist walker [cursor]) ++ added ∧
      (added = [] ∨ ∃ emitted, added = [emitted] ∧ Emits allowlist walker cursor emitted) := by
  have outcome := visited_of_visit visited
  cases outcome with
  | passed eligible =>
      refine ⟨[], ?_, Or.inl rfl⟩
      rw [List.append_nil, map_filled_unnamed]
      rintro declaration _ ⟨naming, -⟩
      simp [eligible] at naming
  | @folded target name eligible names record met =>
      refine ⟨[], ?_, Or.inl rfl⟩
      rw [List.append_nil, fillDoc]
      apply List.map_congr_left
      intro declaration _
      by_cases sameKey : key declaration = (target, name)
      · have naming : Names allowlist cursor declaration.kind declaration.name := by
          simp only [key, Prod.mk.injEq] at sameKey
          obtain ⟨rfl, rfl⟩ := sameKey
          exact ⟨eligible, names, record⟩
        rw [filled_named naming, doc_under_eq_comment]
        simp [sameKey]
      · have unnamed : ¬Names allowlist cursor declaration.kind declaration.name := by
          rintro ⟨naming, others, -⟩
          rw [eligible] at naming
          rw [names] at others
          simp_all [key]
        rw [filled_unnamed unnamed]
        simp [sameKey]
  | known eligible apart =>
      refine ⟨[], ?_, Or.inl rfl⟩
      rw [List.append_nil, map_filled_unnamed fun _ met => unnamed_of_apart eligible apart met]
  | @described kind name declaration eligible apart unmet described =>
      obtain ⟨sameName, sameKind, doc, members⟩ := describe_eq_ok described
      refine ⟨[declaration], ?_, Or.inr ⟨declaration, rfl, ?_⟩⟩
      · rw [map_filled_unnamed fun _ met => unnamed_of_apart eligible apart met]
      · constructor
        · rw [sameName, sameKind]
          exact eligible
        · rw [visited]
        · rw [visited, doc_under_eq_comment]
          exact doc
        · rw [visited, members, member_docs, sameKind]

/-- A run fills what was there in its place and adds the rest behind it. -/
theorem runs_fill {walker after : Walker} {cursors : List Cursor}
    (ran : Runs allowlist walker cursors after) :
    ∃ added, after.met = walker.met.map (filled allowlist walker cursors) ++ added := by
  induction cursors generalizing walker with
  | nil =>
      refine ⟨[], ?_⟩
      rw [runs_nil.1 ran, List.append_nil,
        List.map_congr_left fun declaration _ => filled_nil walker declaration]
      exact (List.map_id' _).symm
  | cons cursor rest ih =>
      obtain ⟨next, visited, later⟩ := runs_cons.1 ran
      obtain ⟨first, metNext, -⟩ := visit_fills visited
      obtain ⟨others, metAfter⟩ := ih later
      refine ⟨first.map (filled allowlist next rest) ++ others, ?_⟩
      rw [metAfter, metNext, List.map_append, List.map_map, List.append_assoc]
      congr 2
      funext declaration
      exact filled_later visited declaration

theorem runs_emit {walker after : Walker} {cursors : List Cursor}
    (ran : Runs allowlist walker cursors after) {place : Nat} (behind : walker.met.length ≤ place)
    (within : place < after.met.length) :
    ∃ passed cursor coming middle next emitted, cursors = passed ++ cursor :: coming ∧
      Runs allowlist walker passed middle ∧ middle.met.length = place ∧
      visit allowlist middle cursor = (next, none) ∧ Emits allowlist middle cursor emitted ∧
      Runs allowlist next coming after := by
  induction cursors generalizing walker with
  | nil =>
      rw [runs_nil.1 ran] at within
      omega
  | cons cursor rest ih =>
      obtain ⟨next, visited, later⟩ := runs_cons.1 ran
      obtain ⟨added, metNext, emits⟩ := visit_fills visited
      have lengths : next.met.length = walker.met.length + added.length := by
        rw [metNext, List.length_append, List.length_map]
      -- The place is taken by a later visit, or else by the one declaration that this visit adds.
      by_cases further : next.met.length ≤ place
      · obtain ⟨passed, found, coming, middle, nextFound, emitted, split, ranPassed, taken,
            emission⟩ := ih later further
        exact ⟨cursor :: passed, found, coming, middle, nextFound, emitted, by
          rw [split, List.cons_append], runs_cons.2 ⟨next, visited, ranPassed⟩, taken, emission⟩
      · rcases emits with rfl | ⟨emitted, rfl, emission⟩
        · simp only [List.length_nil] at lengths
          omega
        · simp only [List.length_singleton] at lengths
          exact ⟨[], cursor, rest, walker, next, emitted, rfl, runs_nil.2 rfl, by
            omega, visited, emission, later⟩

end HeaderDocs.Walker
