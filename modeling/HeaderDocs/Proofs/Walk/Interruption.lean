import HeaderDocs.Proofs.Walk.Growth

/-!
Calls that fail. A header that is missing or cannot be parsed leaves the walk as it was. A visit
that fails does not: what the visits before it met and registered stays met and registered, though
none of it is documented, now or later. So what has been met and what is documented differ by just
what such calls met first.
-/

namespace HeaderDocs

set_option autoImplicit false

/-- A request to read the header at a path, with the headers at hand at that moment. -/
structure Call where
  shelf : Shelf
  path : String

def Reading.afterCalls (reading : Reading) (walker : Walker) (calls : List Call) : Walker :=
  calls.foldl (fun walker call => (reading.read call.shelf walker call.path).walker) walker

/-- What is met first by a call that fails, for all calls in order. -/
def Reading.withheld (reading : Reading) : Walker → List Call → List (Kind × String)
  | _, [] => []
  | walker, call :: calls =>
      let outcome := reading.read call.shelf walker call.path
      (if outcome.failure = none then [] else (outcome.walker.metSince walker.met.length).map
        Walker.key) ++
        reading.withheld outcome.walker calls

namespace Walker

variable {allowlist : Allowlist}

theorem any_accepts_failure {name : String} {sources : List String} {failure : Failure}
    (failed : Allowlist.anyAccepts name sources = .error failure) :
    ∃ unread : Pattern.Unread, failure = unread.failure := by
  induction sources with
  | nil => simp [Allowlist.anyAccepts] at failed
  | cons source sources ih =>
      rw [Allowlist.anyAccepts] at failed
      split at failed
      · exact ⟨_, (Except.error.inj failed).symm⟩
      · split at failed
        · simp at failed
        · exact ih failed

theorem allows_any_failure {kind : Kind} {names : List String} {failure : Failure}
    (failed : allowlist.allowsAny kind names = .error failure) :
    ∃ unread : Pattern.Unread, failure = unread.failure := by
  induction names with
  | nil => simp [Allowlist.allowsAny] at failed
  | cons name names ih =>
      rw [Allowlist.allowsAny] at failed
      split at failed
      · exact ih failed
      · exact any_accepts_failure failed

theorem eligible_failure {cursor : Cursor} {failure : Failure}
    (failed : eligible? allowlist cursor = .error failure) :
    ∃ unread : Pattern.Unread, failure = unread.failure := by
  unfold eligible? at failed
  split at failed
  · rename_i kind _
    split at failed
    · simp at failed
    · rename_i name _
      split at failed
      · simp at failed
      · split at failed
        · rename_i cause refused
          rw [← Except.error.inj failed]
          unfold allowed at refused
          split at refused
          · exact allows_any_failure refused
          · exact any_accepts_failure refused
        · simp at failed
        · simp at failed
  · simp at failed

theorem describe_failure {symbols : Symbol.Table} {cursor : Cursor} {kind : Kind} {name : String}
    {failure : Failure} (failed : describe symbols cursor kind name = .error failure) :
    kind = .function ∧ cursor.variadic = none ∧ failure = .noPrototype := by
  unfold describe at failed
  split at failed
  · rename_i cause unsigned
    rw [← Except.error.inj failed]
    unfold Cursor.signature at unsigned
    split at unsigned
    · rename_i unknown
      exact ⟨rfl, unknown, (Except.error.inj unsigned).symm⟩
    · simp at unsigned
    · simp at unsigned
  · simp at failed

/-- What a visit that fails does: nothing at a pattern that is not read, while a function without a
prototype has been registered by then. -/
inductive Broken (allowlist : Allowlist) (walker : Walker) (cursor : Cursor) :
    Walker → Failure → Prop
  | pattern (unread : Pattern.Unread) (eligible : eligible? allowlist cursor =
      .error unread.failure) :
      Broken allowlist walker cursor walker unread.failure
  | prototype {name : String} (eligible : eligible? allowlist cursor = .ok (some (.function, name)))
      (unmet : walker.hasMet .function name = false) (unknown : cursor.variadic = none) :
      Broken allowlist walker cursor
        { walker with symbols := registered walker.symbols cursor .function name } .noPrototype

theorem broken_of_visit {walker after : Walker} {cursor : Cursor} {failure : Failure}
    (failed : visit allowlist walker cursor = (after, some failure)) :
    Broken allowlist walker cursor after failure := by
  unfold visit at failed
  split at failed
  · rename_i cause refused
    simp only [Prod.mk.injEq, Option.some.injEq] at failed
    obtain ⟨rfl, rfl⟩ := failed
    obtain ⟨unread, rfl⟩ := eligible_failure refused
    exact .pattern unread refused
  · simp at failed
  · rename_i kind name eligible
    unfold meet at failed
    split at failed
    · simp at failed
    · split at failed
      · simp at failed
      · rename_i unmet
        simp only at failed
        split at failed
        · rename_i cause undescribed
          simp only [Prod.mk.injEq, Option.some.injEq] at failed
          obtain ⟨rfl, rfl⟩ := failed
          obtain ⟨rfl, unknown, rfl⟩ := describe_failure undescribed
          exact .prototype eligible (by simpa using unmet) unknown
        · simp at failed

theorem broken_frame {walker after : Walker} {cursor : Cursor} {failure : Failure}
    (broken : Broken allowlist walker cursor after failure) :
    after.met = walker.met ∧ after.abandoned = walker.abandoned ∧ failure.isReported = false := by
  cases broken with
  | pattern unread => cases unread <;> exact ⟨rfl, rfl, rfl⟩
  | prototype => exact ⟨rfl, rfl, rfl⟩

theorem visit_all_breaks {walker last : Walker} {cursors : List Cursor} {failure : Failure}
    (failed : visitAll allowlist walker cursors = (last, some failure)) :
    ∃ passed cursor coming middle, cursors = passed ++ cursor :: coming ∧
      Runs allowlist walker passed middle ∧
      Broken allowlist middle cursor last failure := by
  induction cursors generalizing walker with
  | nil => simp [visitAll] at failed
  | cons cursor rest ih =>
      rw [visitAll] at failed
      split at failed
      · rename_i next visited
        obtain ⟨passed, found, coming, middle, split, ran, broken⟩ := ih failed
        exact ⟨cursor :: passed, found, coming, middle, by rw [split, List.cons_append],
          runs_cons.2 ⟨next, visited, ran⟩, broken⟩
      · rename_i next cause visited
        simp only [Prod.mk.injEq, Option.some.injEq] at failed
        obtain ⟨rfl, rfl⟩ := failed
        exact ⟨[], cursor, rest, walker, rfl, runs_nil.2 rfl, broken_of_visit visited⟩

theorem read_cases (reading : Reading) (shelf : Shelf) (walker : Walker) (path : String) :
    let outcome := reading.read shelf walker path
    (∃ header, shelf path = some header ∧ outcome.failure = none ∧
        Runs reading.allowlist walker header.cursors outcome.walker) ∨
      (∃ failure, outcome.failure = some failure ∧ failure.isReported ∧ outcome.walker = walker) ∨
      ∃ header passed cursor coming middle last failure, shelf path = some header ∧
        header.cursors = passed ++ cursor :: coming ∧ Runs reading.allowlist walker passed middle ∧
        Broken reading.allowlist middle cursor last failure ∧ outcome.failure = some failure ∧
        outcome.walker = last.abandonSince walker.met.length := by
  intro outcome
  cases found : shelf path with
  | none =>
      refine Or.inr (Or.inl ⟨.headerMissing path, ?_, rfl, ?_⟩)
        <;> simp only [outcome, Reading.read, found]
  | some header =>
      cases loading : header.loadError with
      | some cause =>
          refine Or.inr (Or.inl ⟨.headerUnreadable path cause, ?_, rfl, ?_⟩) <;>
            simp only [outcome, Reading.read, found, loading]
      | none =>
          obtain ⟨last, failed⟩ : ∃ last, visitAll reading.allowlist walker header.cursors = last :=
            ⟨_, rfl⟩
          obtain ⟨last, _ | failure⟩ := last
          · refine Or.inl ⟨header, rfl, ?_, ?_⟩ <;>
              simp only [outcome, Reading.read, found, loading, walkHeader, failed]
            exact failed
          · obtain ⟨passed, cursor, coming, middle, split, ran, broken⟩ := visit_all_breaks failed
            refine Or.inr (Or.inr
              ⟨header, passed, cursor, coming, middle, last, failure, rfl, split, ran, broken, ?_,
                ?_⟩) <;>
              simp only [outcome, Reading.read, found, loading, walkHeader, failed]

theorem visit_all_keep (invariant : Walker → Prop) {cursors : List Cursor}
    (step : ∀ cursor ∈ cursors, ∀ walker, invariant walker →
      invariant (visit allowlist walker cursor).1)
    {walker : Walker} (holds : invariant walker) :
    invariant (visitAll allowlist walker cursors).1 := by
  induction cursors generalizing walker with
  | nil => exact holds
  | cons cursor rest ih =>
      have next := step cursor (by simp) walker holds
      rw [visitAll]
      split
      · rename_i visited
        rw [visited] at next
        exact ih (fun other member => step other (List.mem_cons_of_mem _ member)) next
      · rename_i visited
        rwa [visited] at next

theorem read_keep (invariant : Walker → Prop) {reading : Reading} {shelf : Shelf} {path : String}
    (step : ∀ header, shelf path = some header → ∀ cursor ∈ header.cursors, ∀ walker,
      invariant walker → invariant (visit reading.allowlist walker cursor).1)
    (abandon : ∀ walker count, invariant walker → invariant (walker.abandonSince count))
    {walker : Walker} (holds : invariant walker) :
    invariant (reading.read shelf walker path).walker := by
  unfold Reading.read
  split
  · exact holds
  · rename_i header found
    split
    · exact holds
    · have kept := visit_all_keep invariant (step header found) holds
      change invariant (walkHeader reading.allowlist walker header.cursors).1
      unfold walkHeader
      split <;> rename_i ran <;> rw [ran] at kept
      · exact kept
      · exact abandon _ _ kept

theorem after_calls_keep (invariant : Walker → Prop) {reading : Reading} {calls : List Call}
    (step : ∀ call ∈ calls, ∀ header, call.shelf call.path = some header →
      ∀ cursor ∈ header.cursors, ∀ walker, invariant walker →
      invariant (visit reading.allowlist walker cursor).1)
    (abandon : ∀ walker count, invariant walker → invariant (walker.abandonSince count))
    {walker : Walker} (holds : invariant walker) : invariant (reading.afterCalls walker calls) := by
  induction calls generalizing walker with
  | nil => exact holds
  | cons call calls ih =>
      exact ih (fun other member => step other (List.mem_cons_of_mem _ member))
        (read_keep invariant (step call (by simp)) abandon holds)

/-- No kind and name is met twice, and only what has been met is given up. -/
structure Tidy (walker : Walker) : Prop where
  distinct : (walker.met.map key).Nodup
  abandoned : walker.abandoned ⊆ walker.met.map key

theorem runs_tidy {walker after : Walker} {cursors : List Cursor}
    (ran : Runs allowlist walker cursors after) (tidy : walker.Tidy) : after.Tidy := by
  refine runs_keep Tidy ?_ ran tidy
  intro walker after cursor visited tidy
  refine ⟨visited_keys_nodup visited tidy.distinct, ?_⟩
  rw [visited_abandoned visited]
  exact List.Subset.trans tidy.abandoned (visited_keys_subset visited)

theorem abandon_since_tidy {walker : Walker} (tidy : walker.Tidy) (count : Nat) :
    (walker.abandonSince count).Tidy := by
  refine ⟨tidy.distinct, List.append_subset.2 ⟨tidy.abandoned, ?_⟩⟩
  exact List.map_subset _ (List.drop_subset _ _)

theorem runs_abandoned {walker after : Walker} {cursors : List Cursor}
    (ran : Runs allowlist walker cursors after) :
    after.abandoned = walker.abandoned :=
  runs_keep (fun other => other.abandoned = walker.abandoned)
    (fun visited same => (visited_abandoned visited).trans same) ran rfl

theorem broken_tidy {walker after : Walker} {cursor : Cursor} {failure : Failure}
    (broken : Broken allowlist walker cursor after failure) (tidy : walker.Tidy) : after.Tidy := by
  obtain ⟨sameMet, sameAbandoned, -⟩ := broken_frame broken
  refine ⟨?_, ?_⟩
  · rw [sameMet]
    exact tidy.distinct
  · rw [sameMet, sameAbandoned]
    exact tidy.abandoned

/-- One call keeps the walk tidy and gives up what it met first, if it fails. -/
theorem read_tidy (reading : Reading) {walker : Walker} (tidy : walker.Tidy) (shelf : Shelf)
    (path : String) :
    let outcome := reading.read shelf walker path
    outcome.walker.Tidy ∧ outcome.walker.abandoned = walker.abandoned ++
      if outcome.failure = none then [] else (outcome.walker.metSince walker.met.length).map
        key := by
  intro outcome
  rcases read_cases reading shelf walker path with
    ⟨header, -, succeeded, ran⟩ | ⟨failure, failed, -, same⟩ |
      ⟨header, passed, cursor, coming, middle, last, failure, -, -, ran, broken, failed, same⟩
  · refine ⟨runs_tidy ran tidy, ?_⟩
    rw [if_pos succeeded, List.append_nil]
    exact runs_abandoned ran
  · rw [show outcome.walker = walker from same]
    refine ⟨tidy, ?_⟩
    rw [if_neg (by simp [outcome, failed]), metSince, List.drop_length, List.map_nil,
      List.append_nil]
  · rw [show outcome.walker = last.abandonSince walker.met.length from same]
    refine ⟨abandon_since_tidy (broken_tidy broken (runs_tidy ran tidy)) _, ?_⟩
    rw [if_neg (by simp [outcome, failed]), abandonSince, (broken_frame broken).2.1,
      runs_abandoned ran]
    rfl

theorem after_calls_tidy (reading : Reading) {walker : Walker} (tidy : walker.Tidy)
    (calls : List Call) :
    (reading.afterCalls walker calls).Tidy ∧
      (reading.afterCalls walker calls).abandoned = walker.abandoned ++
        reading.withheld walker calls := by
  induction calls generalizing walker with
  | nil => exact ⟨tidy, (List.append_nil _).symm⟩
  | cons call calls ih =>
      obtain ⟨tidyAfter, abandoned⟩ := read_tidy reading tidy call.shelf call.path
      obtain ⟨tidyEnd, later⟩ := ih tidyAfter
      refine ⟨tidyEnd, ?_⟩
      rw [abandoned, List.append_assoc] at later
      exact later

theorem fresh_tidy : Tidy {} :=
  ⟨List.nodup_nil, List.Subset.refl _⟩

/-- When a call fails at a cursor, what was documented stays so, except for missing docs that the
visits before it filled. -/
theorem declarations_of_broken {before middle last : Walker} {passed : List Cursor}
    {cursor : Cursor} {failure : Failure} (tidy : before.Tidy)
    (ran : Runs allowlist before passed middle)
    (broken : Broken allowlist middle cursor last failure) :
    (last.abandonSince before.met.length).declarations =
      before.declarations.map (filled allowlist before passed) := by
  obtain ⟨added, metMiddle⟩ := runs_fill ran
  obtain ⟨metLast, abandonedLast, -⟩ := broken_frame broken
  have distinct := (broken_tidy broken (runs_tidy ran tidy)).distinct
  have since : last.metSince before.met.length = added := by
    rw [metSince, metLast, metMiddle, List.drop_left' (List.length_map _)]
  rw [metLast, metMiddle, List.map_append, keys_filled] at distinct
  simp only [declarations, abandonSince, since, abandonedLast, runs_abandoned ran, metLast,
    metMiddle, List.filter_append, List.filter_map]
  have gone :
      added.filter (fun declaration => key declaration ∉ before.abandoned ++ added.map key) =
      [] := by
    rw [List.filter_eq_nil_iff]
    intro declaration member
    simp only [decide_eq_true_eq, not_not]
    exact List.mem_append_right _ (List.mem_map_of_mem member)
  rw [gone, List.append_nil]
  congr 1
  apply List.filter_congr
  intro declaration member
  have fresh : key declaration ∉ added.map key := by
    intro again
    exact (List.nodup_append.1 distinct).2.2 _ (List.mem_map_of_mem member) _ again rfl
  simp only [Function.comp_apply, key_filled, List.mem_append, fresh, or_false]

/-- The visits broke off at a cursor. What the visits before it met stays met, what they registered
stays registered, and so does the name of the function if the cursor is one without a prototype.
Nothing is documented by that, and of what was documented only missing docs are filled. -/
def BreaksOff (allowlist : Allowlist) (before : Walker) (cursors : List Cursor) (failure : Failure)
    (after : Walker) :
    Prop :=
  ∃ passed cursor coming middle, cursors = passed ++ cursor :: coming ∧
    Runs allowlist before passed middle ∧
    (visit allowlist middle cursor).2 = some failure ∧ after.met = middle.met ∧
    after.declarations = before.declarations.map (filled allowlist before passed) ∧
    ((∃ unread : Pattern.Unread, failure = unread.failure) ∧ after.symbols = middle.symbols ∨
      failure = .noPrototype ∧ ∃ name, eligible? allowlist cursor = .ok (some (.function, name)) ∧
        after.symbols = registered middle.symbols cursor .function name)

theorem visit_of_broken {walker after : Walker} {cursor : Cursor} {failure : Failure}
    (broken : Broken allowlist walker cursor after failure) :
    visit allowlist walker cursor = (after, some failure) := by
  cases broken with
  | pattern unread eligible => simp only [visit, eligible]
  | @prototype name eligible unmet unknown =>
      have apart : walker.foldedInto? cursor .function name = none := rfl
      simp only [visit, eligible, meet, apart, unmet, describe, Cursor.signature, unknown,
        Bool.false_eq_true, if_false]

theorem broken_breaks_off {before middle last : Walker} {passed coming : List Cursor}
    {cursor : Cursor} {failure : Failure} (tidy : before.Tidy)
    (ran : Runs allowlist before passed middle)
    (broken : Broken allowlist middle cursor last failure) :
    BreaksOff allowlist before (passed ++ cursor :: coming) failure
      (last.abandonSince before.met.length) := by
  refine ⟨passed, cursor, coming, middle, rfl, ran, congrArg Prod.snd (visit_of_broken broken),
    (broken_frame broken).1, declarations_of_broken tidy ran broken, ?_⟩
  cases broken with
  | pattern unread => exact Or.inl ⟨⟨unread, rfl⟩, rfl⟩
  | prototype eligible => exact Or.inr ⟨rfl, _, eligible, rfl⟩

/-- After any calls, what is documented is what has been met, except for what calls that failed met
first. A further call that fails because its header is missing or cannot be parsed changes nothing,
and one that fails at a cursor leaves the traces of the cursors before it. -/
theorem failed_calls_withhold (reading : Reading) (calls : List Call) :
    let before := reading.afterCalls {} calls
    (before.declarations =
        before.met.filter fun declaration => key declaration ∉ reading.withheld {} calls) ∧
      ∀ shelf path failure, (reading.read shelf before path).failure = some failure →
        (failure.isReported → (reading.read shelf before path).walker = before) ∧
          (failure.isReported = false → ∃ header, shelf path = some header ∧
            BreaksOff reading.allowlist before header.cursors failure
              (reading.read shelf before path).walker) := by
  intro before
  obtain ⟨tidy, abandoned⟩ := after_calls_tidy reading fresh_tidy calls
  refine ⟨?_, ?_⟩
  · rw [declarations, show before.abandoned = reading.withheld {} calls from abandoned]
  · intro shelf path failure failed
    rcases read_cases reading shelf before path with
      ⟨header, -, succeeded, -⟩ | ⟨cause, caused, reported, same⟩ |
        ⟨header, passed, cursor, coming, middle, last, cause, found, split, ran, broken,
          caused, same⟩
    · simp [succeeded] at failed
    · obtain rfl : cause = failure := by simpa [caused] using failed
      exact ⟨fun _ => same, fun unreported => by simp [reported] at unreported⟩
    · obtain rfl : cause = failure := by simpa [caused] using failed
      refine ⟨fun reported =>
        by simp [(broken_frame broken).2.2] at reported, fun _ => ⟨header, found, ?_⟩⟩
      rw [same, split]
      exact broken_breaks_off tidy ran broken

/-- The header at hand breaks off behind a record and a type definition that fills the doc of
another one, read before. -/
theorem broken_header_fills_and_withholds :
    let old : Cursor := { kind := .declares .struct, spelling := "fz_old" }
    let new : Cursor := { kind := .declares .struct, spelling := "fz_new" }
    let naming : Cursor :=
      { kind := .declares .typedef, spelling := "fz_old"
        comment := some "/** Kept from a fz_new. */"
        underlyingKind := .declares .struct }
    let function : Cursor := { kind := .declares .function, spelling := "fz_f", variadic := none }
    let good : Shelf := fun _ => some { cursors := [old] }
    let bad : Shelf := fun _ => some { cursors := [new, naming, function] }
    let before := Reading.afterCalls {} {} [⟨good, "a.h"⟩]
    let after := (Reading.read {} bad before "b.h").walker
    (Reading.read {} bad before "b.h").failure = some .noPrototype ∧
      BreaksOff {} before [new, naming, function] .noPrototype after ∧
      after.declarations.map Declaration.doc = ["Kept from a [`fz_new`](fz_new)."] ∧
      after.met.map Declaration.name = ["fz_old", "fz_new"] ∧
      after.symbols.keys = ["fz_old", "fz_new", "fz_f"] := by
  intro old new naming function good bad before after
  have failed : (Reading.read {} bad before "b.h").failure = some .noPrototype := by decide +kernel
  obtain ⟨-, failing⟩ := failed_calls_withhold {} [⟨good, "a.h"⟩]
  obtain ⟨header, found, breaks⟩ := (failing bad "b.h" .noPrototype failed).2 rfl
  obtain rfl : header = { cursors := [new, naming, function] } := (Option.some.inj found).symm
  exact ⟨failed, breaks, by decide +kernel, by decide +kernel, by decide +kernel⟩

/-- A function that is met before one without a prototype stays met, and both stay registered. -/
theorem broken_header_leaves_traces :
    ¬∀ (reading : Reading) (calls : List Call) (shelf : Shelf) (path : String),
      let before := reading.afterCalls {} calls
      let outcome := reading.read shelf before path
      (before.met.map key = before.declarations.map key) ∧
        (outcome.failure ≠ none → outcome.walker.declarations.map
          key = before.declarations.map key ∧
          outcome.walker.met.map key = before.met.map key ∧
          outcome.walker.symbols.entries = before.symbols.entries) := by
  intro traceless
  let function : Cursor := { kind := .declares .function, spelling := "fz_a" }
  let unknown : Cursor := { kind := .declares .function, spelling := "fz_b", variadic := none }
  obtain ⟨-, unchanged⟩ := traceless {} [] (fun _ => some { cursors := [function, unknown] }) "a.h"
  obtain ⟨-, -, sameEntries⟩ := unchanged (by decide +kernel)
  exact absurd sameEntries (by decide +kernel)

end Walker

end HeaderDocs
