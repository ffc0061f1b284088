import HeaderDocs.Proofs.Walk.Growth

/-!
A header whose cursors were visited before, as when another header includes it. The second visits
add nothing and register nothing, but they are not without effect: a type definition that stood
above its record was added as a declaration at first, and is folded into the record when it comes
again. So the record takes the comment over that the type definition has already, read under all
that stands below.
-/

namespace HeaderDocs.Walker

set_option autoImplicit false

variable {allowlist : Allowlist}

/-- The walk knows all that a visit of the cursor could tell it, except for docs. -/
def Settled (allowlist : Allowlist) (walker : Walker) (cursor : Cursor) : Prop :=
  eligible? allowlist cursor = .ok none ∨
    ∃ kind name, eligible? allowlist cursor = .ok (some (kind, name)) ∧
      ((∃ target, walker.foldedInto? cursor kind name = some target) ∨ walker.hasMet kind name)

theorem has_met_mono {walker after : Walker} (keys : walker.met.map key ⊆ after.met.map key)
    {kind : Kind} {name : String} (met : walker.hasMet kind name) : after.hasMet kind name :=
  has_met_iff.2 (keys (has_met_iff.1 met))

theorem settled_mono {walker after : Walker} {cursor : Cursor}
    (keys : walker.met.map key ⊆ after.met.map key) (settled : Settled allowlist walker cursor) :
    Settled allowlist after cursor := by
  rcases settled with passed | ⟨kind, name, eligible, ⟨target, found⟩ | met⟩
  · exact Or.inl passed
  · obtain ⟨typedef, names, record, met⟩ := folded_into_eq_some.1 found
    have still := folded_into_eq_some.2 ⟨typedef, names, record, has_met_mono keys met⟩
    exact Or.inr ⟨kind, name, eligible, Or.inl ⟨target, still⟩⟩
  · exact Or.inr ⟨kind, name, eligible, Or.inr (has_met_mono keys met)⟩

theorem settled_of_visited {walker after : Walker} {cursor : Cursor}
    (visited : Visited allowlist walker cursor after) :
    Settled allowlist after cursor := by
  cases visited with
  | passed eligible => exact Or.inl eligible
  | @folded target name eligible names record met =>
      have still := has_met_mono (visited_keys_subset (.folded eligible names record met)) met
      have folds := folded_into_eq_some.2 ⟨rfl, names, record, still⟩
      exact Or.inr ⟨.typedef, name, eligible, Or.inl ⟨target, folds⟩⟩
  | known eligible apart met => exact Or.inr ⟨_, _, eligible, Or.inr met⟩
  | @described kind name declaration eligible apart unmet described =>
      obtain ⟨sameName, sameKind, -⟩ := describe_eq_ok described
      refine Or.inr ⟨kind, name, eligible, Or.inr (has_met_iff.2 ?_)⟩
      rw [List.map_append, List.map_singleton, key, sameName, sameKind]
      exact List.mem_append_right _ (List.mem_singleton_self _)

theorem runs_settle {walker after : Walker} {cursors : List Cursor}
    (ran : Runs allowlist walker cursors after) :
    ∀ cursor ∈ cursors, Settled allowlist after cursor := by
  induction cursors generalizing walker with
  | nil => simp
  | cons first rest ih =>
      obtain ⟨next, visited, later⟩ := runs_cons.1 ran
      intro cursor member
      rcases List.mem_cons.1 member with rfl | others
      · exact runs_keep (fun walker => Settled allowlist walker cursor)
          (fun visited settled => settled_mono (visited_keys_subset visited) settled) later
          (settled_of_visited (visited_of_visit visited))
      · exact ih later cursor others

def refilled (allowlist : Allowlist) (walker : Walker) (cursors : List Cursor) : Walker :=
  { walker with met := walker.met.map (filled allowlist walker cursors) }

theorem refilled_of_visited {walker after : Walker} {cursor : Cursor}
    (visited : Visited allowlist walker cursor after) (sameSymbols : after.symbols = walker.symbols)
    (sameLength : after.met.length = walker.met.length) :
    after = refilled allowlist walker [cursor] := by
  obtain ⟨added, metAfter, -⟩ := visit_fills (visit_of_visited visited)
  -- Docs are filled in place, so a list of the same length has nothing behind them.
  have nothing : added = [] := by
    apply List.eq_nil_of_length_eq_zero
    rw [metAfter, List.length_append, List.length_map] at sameLength
    omega
  rw [nothing, List.append_nil] at metAfter
  rw [refilled, ← metAfter, ← sameSymbols, ← visited_abandoned visited]

theorem visit_settled {walker : Walker} {cursor : Cursor}
    (settled : Settled allowlist walker cursor) :
    visit allowlist walker cursor = (refilled allowlist walker [cursor], none) := by
  have refills : ∃ after, Visited allowlist walker cursor after ∧ after.symbols = walker.symbols ∧
      after.met.length = walker.met.length := by
    rcases settled with passed | ⟨kind, name, eligible, known⟩
    · exact ⟨walker, .passed passed, rfl, rfl⟩
    · cases found : walker.foldedInto? cursor kind name with
      | some target =>
          obtain ⟨rfl, names, record, met⟩ := folded_into_eq_some.1 found
          exact ⟨_, .folded eligible names record met, rfl, by simp [fillDoc]⟩
      | none =>
          rcases known with ⟨target, folds⟩ | met
          · simp [found] at folds
          · exact ⟨walker, .known eligible found met, rfl, rfl⟩
  obtain ⟨after, visited, sameSymbols, sameLength⟩ := refills
  rw [← refilled_of_visited visited sameSymbols sameLength]
  exact visit_of_visited visited

theorem refilled_later {walker : Walker} {cursor : Cursor}
    (visited : visit allowlist walker cursor = (refilled allowlist walker [cursor], none))
    (cursors : List Cursor) :
    refilled allowlist (refilled allowlist walker [cursor]) cursors =
      refilled allowlist walker (cursor :: cursors) := by
  have sameMet : (refilled allowlist walker [cursor]).met.map
      (filled allowlist (refilled allowlist walker [cursor]) cursors) =
        walker.met.map (filled allowlist walker (cursor :: cursors)) := by
    rw [show (refilled allowlist walker [cursor]).met =
      walker.met.map (filled allowlist walker [cursor]) from rfl, List.map_map]
    apply List.map_congr_left
    intro declaration _
    exact filled_later visited declaration
  rw [refilled, sameMet]
  rfl

theorem runs_settled {walker : Walker} {cursors : List Cursor}
    (settled : ∀ cursor ∈ cursors, Settled allowlist walker cursor) :
    Runs allowlist walker cursors (refilled allowlist walker cursors) := by
  induction cursors generalizing walker with
  | nil =>
      rw [runs_nil, refilled,
        List.map_congr_left fun declaration _ => filled_nil walker declaration, List.map_id']
  | cons cursor rest ih =>
      have visited := visit_settled (settled cursor (by simp))
      have sameKeys : (refilled allowlist walker [cursor]).met.map key = walker.met.map key :=
        keys_filled walker [cursor] walker.met
      refine runs_cons.2 ⟨_, visited, ?_⟩
      rw [← refilled_later visited rest]
      apply ih
      intro later member
      apply settled_mono _ (settled later (List.mem_cons_of_mem _ member))
      rw [sameKeys]
      exact List.Subset.refl _

/-- Two walks that differ in nothing but docs of declarations in front of some place. -/
structure Alike (place : Nat) (left right : Walker) : Prop where
  symbols : left.symbols = right.symbols
  keys : left.met.map key = right.met.map key
  within : place ≤ left.met.length
  behind : left.met.drop place = right.met.drop place

theorem has_met_alike {place : Nat} {left right : Walker} (alike : Alike place left right)
    (kind : Kind) (name : String) : left.hasMet kind name = right.hasMet kind name := by
  rw [Bool.eq_iff_iff, has_met_iff, has_met_iff, alike.keys]

theorem folded_into_alike {place : Nat} {left right : Walker} (alike : Alike place left right)
    (cursor : Cursor) (kind : Kind) (name : String) :
    left.foldedInto? cursor kind name = right.foldedInto? cursor kind name := by
  unfold foldedInto?
  simp only [has_met_alike alike]

theorem visit_alike {place : Nat} {left right next : Walker} {cursor : Cursor}
    (alike : Alike place left right) (visited : Visited allowlist left cursor next) :
    ∃ other, Visited allowlist right cursor other ∧ Alike place next other := by
  cases visited with
  | passed eligible => exact ⟨right, .passed eligible, alike⟩
  | @folded target name eligible names record met =>
      rw [has_met_alike alike] at met
      refine ⟨_, .folded eligible names record met, alike.symbols, ?_, ?_, ?_⟩
      · rw [fill_doc_keys, fill_doc_keys, alike.keys]
      · rw [fillDoc, List.length_map]
        exact alike.within
      · rw [alike.symbols, fillDoc, fillDoc, ← List.map_drop, ← List.map_drop, alike.behind]
  | known eligible apart met =>
      rw [folded_into_alike alike] at apart
      rw [has_met_alike alike] at met
      exact ⟨right, .known eligible apart met, alike⟩
  | @described kind name declaration eligible apart unmet described =>
      rw [folded_into_alike alike] at apart
      rw [has_met_alike alike] at unmet
      have sameLength : left.met.length = right.met.length := by
        simpa using congrArg List.length alike.keys
      have place_le := alike.within
      rw [alike.symbols] at described ⊢
      refine ⟨_, .described eligible apart unmet described, rfl, ?_, ?_, ?_⟩
      · rw [List.map_append, List.map_append, alike.keys]
      · rw [List.length_append]
        omega
      · rw [List.drop_append_of_le_length place_le, List.drop_append_of_le_length (by omega),
          alike.behind]

theorem runs_alike {place : Nat} {left right after : Walker} {cursors : List Cursor}
    (alike : Alike place left right) (ran : Runs allowlist left cursors after) :
    ∃ other, Runs allowlist right cursors other ∧ Alike place after other := by
  induction cursors generalizing left right with
  | nil =>
      rw [runs_nil.1 ran]
      exact ⟨right, runs_nil.2 rfl, alike⟩
  | cons cursor rest ih =>
      obtain ⟨next, visited, later⟩ := runs_cons.1 ran
      obtain ⟨otherNext, otherVisited, alikeNext⟩ := visit_alike alike (visited_of_visit visited)
      obtain ⟨other, otherLater, alikeAfter⟩ := ih alikeNext later
      exact ⟨other, runs_cons.2 ⟨otherNext, visit_of_visited otherVisited, otherLater⟩, alikeAfter⟩

theorem brought_alike {place : Nat} {left right after : Walker} {cursors : List Cursor}
    (alike : Alike place left right) (ran : Runs allowlist left cursors after) (kind : Kind)
    (name : String) :
    brought? allowlist kind name left cursors = brought? allowlist kind name right cursors := by
  induction cursors generalizing left right with
  | nil => rfl
  | cons cursor rest ih =>
      obtain ⟨next, visited, later⟩ := runs_cons.1 ran
      obtain ⟨otherNext, otherVisited, alikeNext⟩ := visit_alike alike (visited_of_visit visited)
      rw [brought?, brought?, visited, visit_of_visited otherVisited, alike.symbols,
        ih alikeNext later]

theorem brought_append {kind : Kind} {name : String} {walker next : Walker}
    {left right : List Cursor} (ran : Runs allowlist walker left next) :
    brought? allowlist kind name walker (left ++ right) =
      (brought? allowlist kind name walker left).or (brought? allowlist kind name next right) := by
  induction left generalizing walker with
  | nil =>
      rw [runs_nil.1 ran]
      rfl
  | cons cursor rest ih =>
      obtain ⟨following, visited, later⟩ := runs_cons.1 ran
      rw [List.cons_append, brought?, brought?, visited, ih later]
      split <;> rfl

/-- The cursors visited again, and others behind them, compared with these others alone. -/
theorem runs_again {walker once : Walker} {included rest : List Cursor}
    (settled : ∀ cursor ∈ included, Settled allowlist walker cursor)
    (ran : Runs allowlist walker rest once) :
    ∃ twice, Runs allowlist walker (included ++ rest) twice ∧ Alike walker.met.length once twice ∧
      ∀ kind name, brought? allowlist kind name walker (included ++ rest) =
        (brought? allowlist kind name walker included).or
          (brought? allowlist kind name walker rest) := by
  have again := runs_settled settled
  have alike : Alike walker.met.length walker (refilled allowlist walker included) := by
    refine ⟨rfl, (keys_filled walker included walker.met).symm, Nat.le_refl _, ?_⟩
    rw [List.drop_length, refilled, ← List.map_drop, List.drop_length, List.map_nil]
  obtain ⟨twice, ranTwice, alikeAfter⟩ := runs_alike alike ran
  refine ⟨twice, runs_append.2 ⟨_, again, ranTwice⟩, alikeAfter, ?_⟩
  intro kind name
  rw [brought_append again, brought_alike alike ran]

/-- What the cursors bring can be told from the doc that they fill in, since they never bring an
empty one. -/
theorem brought_of_filled_doc (kind : Kind) (name : String) (walker : Walker)
    (cursors : List Cursor) :
    brought? allowlist kind name walker cursors =
      (some ((brought? allowlist kind name walker cursors).getD "")).filter (· ≠ "") := by
  cases brought : brought? allowlist kind name walker cursors with
  | none => rfl
  | some doc => simp [Option.filter, brought_ne_empty brought]

theorem filled_eq_filled_iff {walker : Walker} {left right : List Cursor}
    {declaration : Declaration} :
    filled allowlist walker left declaration = filled allowlist walker right declaration ↔
      (declaration.doc = "" → brought? allowlist declaration.kind declaration.name walker left =
        brought? allowlist declaration.kind declaration.name walker right) := by
  by_cases missing : declaration.doc = ""
  · simp only [filled, missing, if_true, Declaration.mk.injEq, true_and, and_true, true_imp_iff]
    constructor
    · intro sameDoc
      rw [brought_of_filled_doc, sameDoc, ← brought_of_filled_doc]
    · intro same
      rw [same]
  · simp only [filled, missing, if_false, false_imp_iff]

def withoutDoc (declaration : Declaration) : Declaration :=
  { declaration with doc := "" }

theorem without_doc_filled (walker : Walker) (cursors : List Cursor) (declaration : Declaration) :
    withoutDoc (filled allowlist walker cursors declaration) = withoutDoc declaration := by
  unfold filled
  split <;> rfl

/-- Let a header be read again as part of another one. Nothing but docs can change by that. They do
not change either exactly if each record that the header left without a doc has no type definition
with a comment in it, or is given the same doc by the rest of the other header. -/
theorem reread_agrees_iff {included rest : List Cursor}
    (succeeded : (walkHeader allowlist {} (included ++ rest)).2 = none) :
    let first := (walkHeader allowlist {} included).1
    let once := (walkHeader allowlist {} (included ++ rest)).1
    let twice := (walkHeader allowlist first (included ++ rest)).1
    (walkHeader allowlist {} included).2 = none ∧
      (walkHeader allowlist first (included ++ rest)).2 = none ∧
      twice.symbols = once.symbols ∧
        twice.declarations.map withoutDoc = once.declarations.map withoutDoc ∧
      (twice.declarations = once.declarations ↔
        ∀ record ∈ first.declarations, record.doc = "" →
          brought? allowlist record.kind record.name first included = none ∨
            brought? allowlist record.kind record.name first included =
              brought? allowlist record.kind record.name first rest) := by
  obtain ⟨first, ranFirst, ranRest⟩ := runs_append.1 (runs_of_walk_header succeeded)
  obtain ⟨twice, ranTwice, alike, brought⟩ := runs_again (runs_settle ranFirst) ranRest
  have ranOnce := runs_of_walk_header succeeded
  generalize (walkHeader allowlist {} (included ++ rest)).1 = once at ranRest ranOnce alike ⊢
  have ranBoth := runs_append.2 ⟨first, ranFirst, ranTwice⟩
  simp only [walk_header_of_runs ranFirst, walk_header_of_runs ranTwice,
    declarations_of_runs ranFirst, declarations_of_runs ranOnce, declarations_of_runs ranBoth,
    true_and]
  obtain ⟨added, metOnce⟩ := runs_fill ranRest
  obtain ⟨addedTwice, metTwice⟩ := runs_fill ranTwice
  have sameAdded : addedTwice = added := by
    have behind := alike.behind
    rw [metOnce, metTwice, List.drop_left' (List.length_map _),
      List.drop_left' (List.length_map _)] at behind
    exact behind.symm
  rw [metOnce, metTwice, sameAdded]
  refine ⟨alike.symbols.symm, ?_, ?_⟩
  · simp only [List.map_append, List.map_map, Function.comp_def, without_doc_filled]
  · rw [List.append_left_inj, List.map_inj_left]
    apply forall₂_congr
    intro record _
    rw [filled_eq_filled_iff, brought]
    apply imp_congr_right
    intro _
    cases brought? allowlist record.kind record.name first included <;> simp

/-- The other header repeats the type definition, so the record has its comment after a single
reading too. -/
theorem repeated_typedef_agrees :
    let naming : Cursor :=
      { kind := .declares .typedef, spelling := "fz_a", comment := some "/** One. */"
        underlyingKind := .declares .struct }
    let record : Cursor := { kind := .declares .struct, spelling := "fz_a" }
    let first := (walkHeader {} {} [naming, record]).1
    let once := (walkHeader {} {} ([naming, record] ++ [naming])).1
    (walkHeader {} {} ([naming, record] ++ [naming])).2 = none ∧
      once.declarations.map Declaration.doc = ["One.", "One."] ∧
      (walkHeader {} first ([naming, record] ++ [naming])).1.declarations = once.declarations := by
  intro naming record first once
  have succeeded : (walkHeader {} {} ([naming, record] ++ [naming])).2 = none := by decide +kernel
  obtain ⟨-, -, -, -, agrees⟩ := reread_agrees_iff succeeded
  exact ⟨succeeded, by decide +kernel, agrees.2 (by decide +kernel)⟩

/-- A type definition with a comment above its record is enough for the readings to differ. -/
theorem reread_typedef_fills_record :
    ¬∀ (allowlist : Allowlist) (included rest : List Cursor),
      (walkHeader allowlist {} (included ++ rest)).2 = none →
        (walkHeader allowlist (walkHeader allowlist {} included).1
          (included ++ rest)).1.declarations =
          (walkHeader allowlist {} (included ++ rest)).1.declarations := by
  intro agree
  let naming : Cursor :=
    { kind := .declares .typedef, spelling := "fz_a", comment := some "/** Made by fz_make. */"
      underlyingKind := .declares .struct }
  let record : Cursor := { kind := .declares .struct, spelling := "fz_a" }
  let maker : Cursor := { kind := .declares .function, spelling := "fz_make" }
  have same := agree {} [naming, record, maker] [] (by decide +kernel)
  have sameDocs := congrArg (List.map Declaration.doc) same
  -- The record has a doc after the second reading, and it even links to the function below.
  exact absurd sameDocs (by decide +kernel)

end HeaderDocs.Walker
