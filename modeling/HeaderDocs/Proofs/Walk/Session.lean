import HeaderDocs.Proofs.Walk.Visit

/-!
Headers read one after another by the same walk, each without a failure. The headers at hand may
change between two of them. What the walk knows in the end is what one run over all their cursors
gives, so the borders between headers do not matter.
-/

namespace HeaderDocs.Walker

set_option autoImplicit false

/-- Headers read from a walk on, with the cursors of them all in the order of their visits. -/
inductive Session (reading : Reading) : Walker → List Cursor → Walker → Prop
  | done (walker : Walker) : Session reading walker [] walker
  | read {walker after : Walker} {shelf : Shelf} {path : String} {header : Header}
      {cursors : List Cursor}
      (found : shelf path = some header)
      (succeeded : (reading.read shelf walker path).failure = none)
      (later : Session reading (reading.read shelf walker path).walker cursors after) :
      Session reading walker (header.cursors ++ cursors) after

variable {reading : Reading}

theorem runs_of_walk_header {allowlist : Allowlist} {walker : Walker} {cursors : List Cursor}
    (succeeded : (walkHeader allowlist walker cursors).2 = none) :
    Runs allowlist walker cursors (walkHeader allowlist walker cursors).1 := by
  unfold walkHeader at succeeded ⊢
  split
  · rename_i ran
    exact ran
  · simp_all

theorem walk_header_of_runs {allowlist : Allowlist} {walker after : Walker} {cursors : List Cursor}
    (ran : Runs allowlist walker cursors after) :
    walkHeader allowlist walker cursors = (after, none) := by
  rw [walkHeader, ran]

theorem runs_of_read {shelf : Shelf} {walker : Walker} {path : String} {header : Header}
    (found : shelf path = some header)
    (succeeded : (reading.read shelf walker path).failure = none) :
    Runs reading.allowlist walker header.cursors (reading.read shelf walker path).walker := by
  unfold Reading.read at succeeded ⊢
  simp only [found] at succeeded ⊢
  split at succeeded
  · simp at succeeded
  · exact runs_of_walk_header succeeded

theorem runs_of_session {walker after : Walker} {cursors : List Cursor}
    (session : Session reading walker cursors after) :
    Runs reading.allowlist walker cursors after := by
  induction session with
  | done walker => exact runs_nil.2 rfl
  | read found succeeded later ih => exact runs_append.2 ⟨_, runs_of_read found succeeded, ih⟩

theorem runs_complete {allowlist : Allowlist} {after : Walker} {cursors : List Cursor}
    (ran : Runs allowlist {} cursors after) : after.abandoned = [] :=
  runs_keep (fun walker => walker.abandoned = [])
    (fun visited complete => (visited_abandoned visited).trans complete) ran rfl

theorem declarations_of_runs {allowlist : Allowlist} {after : Walker} {cursors : List Cursor}
    (ran : Runs allowlist {} cursors after) : after.declarations = after.met := by
  simp [declarations, runs_complete ran]

theorem runs_distinct {allowlist : Allowlist} {after : Walker} {cursors : List Cursor}
    (ran : Runs allowlist {} cursors after) : (after.met.map key).Nodup :=
  runs_keep (fun walker => (walker.met.map key).Nodup) visited_keys_nodup ran List.nodup_nil

end HeaderDocs.Walker
