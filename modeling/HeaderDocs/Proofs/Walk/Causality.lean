import HeaderDocs.Proofs.Walk.Replay
import Mathlib.Data.List.Forall2

/-!
What the comments of a walk depend on. A comment is read under what the declarations up to its own
register, and what is visited later changes no doc but a missing one. Two walks over the same
cursors therefore agree on their docs, whatever they visit afterwards, except where a record without
a doc is given one.
-/

namespace HeaderDocs.Walker

set_option autoImplicit false

open Symbol.Table

variable {allowlist : Allowlist}

/-- The doc that a type definition among the cursors brings for a record, read under the symbols
that the walk has when it comes to it. -/
def Brings (allowlist : Allowlist) (walker : Walker) (cursors : List Cursor) (kind : Kind)
    (name doc : String) :
    Prop :=
  ∃ passed cursor coming, cursors = passed ++ cursor :: coming ∧ Names allowlist cursor kind name ∧
    doc = docUnder (visitAll allowlist walker passed).1.symbols cursor

def Grown (allowlist : Allowlist) (walker : Walker) (cursors : List Cursor)
    (old new : Declaration) : Prop :=
  new = old ∨
    old.kind.isRecord ∧ old.doc = "" ∧
      ∃ doc, Brings allowlist walker cursors old.kind old.name doc ∧ new = { old with doc := doc }

theorem brings_later {walker next : Walker} {cursor : Cursor} {cursors : List Cursor} {kind : Kind}
    {name doc : String} (visited : visit allowlist walker cursor = (next, none))
    (brings : Brings allowlist next cursors kind name doc) :
    Brings allowlist walker (cursor :: cursors) kind name doc := by
  obtain ⟨passed, found, coming, split, names, read⟩ := brings
  refine ⟨cursor :: passed, found, coming, by rw [split, List.cons_append], names, ?_⟩
  rw [visitAll, visited]
  exact read

theorem brought_brings {kind : Kind} {name doc : String} {walker after : Walker}
    {cursors : List Cursor} (ran : Runs allowlist walker cursors after)
    (brought : brought? allowlist kind name walker cursors = some doc) :
    Brings allowlist walker cursors kind name doc := by
  induction cursors generalizing walker with
  | nil => simp [brought?] at brought
  | cons cursor rest ih =>
      obtain ⟨next, visited, later⟩ := runs_cons.1 ran
      rw [brought?, visited] at brought
      split at brought
      · rename_i names
        exact ⟨[], cursor, rest, rfl, names.1, (Option.some.inj brought).symm⟩
      · exact brings_later visited (ih later brought)

theorem grown_filled {walker after : Walker} {cursors : List Cursor}
    (ran : Runs allowlist walker cursors after) (declaration : Declaration) :
    Grown allowlist walker cursors declaration (filled allowlist walker cursors declaration) := by
  unfold filled
  split
  · rename_i missing
    cases brought : brought? allowlist declaration.kind declaration.name walker cursors with
    | none =>
        rw [Option.getD_none]
        exact Or.inl (with_missing_doc missing)
    | some doc =>
        have brings := brought_brings ran brought
        obtain ⟨_, _, _, _, ⟨-, -, record⟩, -⟩ := id brings
        exact Or.inr ⟨record, missing, doc, brings, rfl⟩
  · exact Or.inl rfl

def Extends (allowlist : Allowlist) (walker : Walker) (cursors : List Cursor)
    (old new : List Declaration) : Prop :=
  ∃ kept added, new = kept ++ added ∧ List.Forall₂ (Grown allowlist walker cursors) old kept

theorem runs_extend {walker after : Walker} {cursors : List Cursor}
    (ran : Runs allowlist walker cursors after) :
    Extends allowlist walker cursors walker.met after.met := by
  obtain ⟨added, metAfter⟩ := runs_fill ran
  refine ⟨_, added, metAfter, ?_⟩
  rw [List.forall₂_map_right_iff]
  exact List.forall₂_same.2 fun declaration _ => grown_filled ran declaration

/-- The declaration was added by the visit of one of the cursors. Its comment and those of its
members were read under what it registers behind the declarations in front of it, and nothing but a
missing doc of its own has changed since. -/
def SeesAbove (allowlist : Allowlist) (walker : Walker) (cursors : List Cursor)
    (front : List Declaration) (new : Declaration) : Prop :=
  ∃ passed cursor coming emitted, cursors = passed ++ cursor :: coming ∧
    Emits allowlist (visitAll allowlist walker passed).1 cursor emitted ∧
    emitted.doc = docUnder (replay (front ++ [new])) cursor ∧
    emitted.members.map Declaration.doc =
      (memberCursors cursor emitted.kind).map (docUnder (replay (front ++ [new]))) ∧
    Grown allowlist (visitAll allowlist walker (passed ++ [cursor])).1 coming emitted new

/-- What a run makes of the declarations at its start and of the last of them, by their places. -/
theorem runs_fill_at {walker after : Walker} {cursors : List Cursor}
    (ran : Runs allowlist walker cursors after) {old front back : List Declaration}
    {emitted new : Declaration} (start : walker.met = old ++ [emitted])
    (finish : after.met = front ++ new :: back) (sameLength : old.length = front.length) :
    front ++ [new] = walker.met.map (filled allowlist walker cursors) ∧
      new = filled allowlist walker cursors emitted := by
  obtain ⟨added, metAfter⟩ := runs_fill ran
  rw [finish, start, List.map_append, List.append_assoc] at metAfter
  obtain ⟨sameFront, others⟩ := List.append_inj metAfter (by rw [List.length_map, sameLength])
  have sameNew := (List.cons.inj others).1
  rw [start, List.map_append, sameFront, sameNew]
  exact ⟨rfl, rfl⟩

theorem runs_see_above {past cursors : List Cursor} {before after : Walker}
    (history : Runs allowlist {} past before) (ran : Runs allowlist before cursors after)
    {front back : List Declaration} {new : Declaration} (split : after.met = front ++ new :: back)
    (behind : before.met.length ≤ front.length) :
    SeesAbove allowlist before cursors front new := by
  obtain ⟨passed, cursor, coming, middle, next, emitted, place, ranPassed, taken, visited, emits,
      ranComing⟩ := runs_emit ran behind (by simp [split])
  have atMiddle : (visitAll allowlist before passed).1 = middle := congrArg Prod.fst ranPassed
  have upTo : Runs allowlist before (passed ++ [cursor]) next :=
    runs_append.2 ⟨middle, ranPassed, runs_cons.2 ⟨next, visited, runs_nil.2 rfl⟩⟩
  have atNext : (visitAll allowlist before (passed ++ [cursor])).1 = next := congrArg Prod.fst upTo
  have metNext : next.met = middle.met ++ [emitted] := by
    rw [← emits.behind, visited]
  obtain ⟨upToNew, filledNew⟩ := runs_fill_at ranComing metNext split taken
  -- What comes after the visit fills docs only, so the final declarations register what those of
  -- that moment did.
  have table : (visit allowlist middle cursor).1.symbols = replay (front ++ [new]) := by
    rw [visited, runs_replay (runs_append.2 ⟨before, history, upTo⟩), upToNew, replay_filled]
  refine ⟨passed, cursor, coming, emitted, place, ?_, ?_, ?_, ?_⟩
  · rw [atMiddle]
    exact emits
  · rw [← table]
    exact emits.doc
  · rw [← table]
    exact emits.memberDocs
  · rw [atNext, filledNew]
    exact grown_filled ranComing emitted

/-- Let a header be read without a failure after others. The declarations that were there stay in
their places, and nothing but the missing doc of a record is filled, by a type definition of its
name. The docs of each new one are read under what the declarations up to it register. And
whatever another walk reads after cursors that the two share, both extend the declarations of
these cursors. -/
theorem comments_see_above {reading : Reading} {past : List Cursor} {before : Walker}
    (session : Session reading {} past before) {shelf : Shelf} {path : String} {header : Header}
    (found : shelf path = some header)
    (succeeded : (reading.read shelf before path).failure = none) :
    let after := (reading.read shelf before path).walker
    Extends reading.allowlist before header.cursors before.declarations after.declarations ∧
      (∀ front new back, after.declarations = front ++ new :: back →
        before.declarations.length ≤ front.length →
          SeesAbove reading.allowlist before header.cursors front new) ∧
      ∀ shared left right other, past ++ header.cursors = shared ++ left →
        Session reading {} (shared ++ right) other →
          ∃ common, Runs reading.allowlist {} shared common ∧
            Extends reading.allowlist common left common.declarations after.declarations ∧
            Extends reading.allowlist common right common.declarations other.declarations := by
  intro after
  have history := runs_of_session session
  have ran := runs_of_read found succeeded
  have whole : Runs reading.allowlist {} (past ++ header.cursors) after :=
    runs_append.2 ⟨before, history, ran⟩
  rw [declarations_of_runs history, declarations_of_runs whole]
  refine ⟨runs_extend ran, ?_, ?_⟩
  · intro front new back split behind
    exact runs_see_above history ran split behind
  · intro shared left right other sharedLeft otherSession
    have otherRan := runs_of_session otherSession
    rw [sharedLeft] at whole
    obtain ⟨common, ranShared, ranLeft⟩ := runs_append.1 whole
    obtain ⟨otherCommon, otherShared, ranRight⟩ := runs_append.1 otherRan
    -- The visits of the shared cursors leave one and the same walk, wherever headers end in the two
    -- sessions.
    have same : otherCommon = common := by
      rw [Runs, ranShared] at otherShared
      exact (congrArg Prod.fst otherShared).symm
    rw [same] at ranRight
    refine ⟨common, ranShared, ?_⟩
    rw [declarations_of_runs ranShared, declarations_of_runs otherRan]
    exact ⟨runs_extend ranLeft, runs_extend ranRight⟩

/-- A function is read before the type definition of the record that it names, and another function
is not read at all. -/
theorem filled_record_between_headers :
    let record : Cursor := { kind := .declares .struct, spelling := "fz_s" }
    let function : Cursor :=
      { kind := .declares .function, spelling := "fz_f"
        comment := some "/** Fills a fz_s, as fz_g. */"
        resultType := some "void" }
    let naming : Cursor :=
      { kind := .declares .typedef, spelling := "fz_s", comment := some "/** Made by fz_f. */"
        underlyingKind := .declares .struct }
    let shelf : Shelf := fun path =>
      some { cursors := if path = "a.h" then [record] else [function, naming] }
    let before := (Reading.read {} shelf {} "a.h").walker
    let after := (Reading.read {} shelf before "b.h").walker
    Session {} {} [record] before ∧ (Reading.read {} shelf before "b.h").failure = none ∧
      Extends {} before [function, naming] before.declarations after.declarations ∧
      after.declarations.map Declaration.doc =
        ["Made by [`fz_f`](fz_f).", "Fills a [`fz_s`](fz_s), as `fz_g`."] ∧
      ∀ front new back, after.declarations = front ++ new :: back →
        before.declarations.length ≤ front.length →
          SeesAbove {} before [function, naming] front new := by
  intro record function naming shelf before after
  have session : Session {} {} ([record] ++ []) before :=
    .read rfl (by decide +kernel) (.done before)
  rw [List.append_nil] at session
  have succeeded : (Reading.read {} shelf before "b.h").failure = none := by decide +kernel
  obtain ⟨extended, above, -⟩ := comments_see_above session rfl succeeded
  exact ⟨session, succeeded, extended, by decide +kernel, above⟩

end HeaderDocs.Walker
