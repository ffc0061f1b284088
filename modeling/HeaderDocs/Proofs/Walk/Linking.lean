import HeaderDocs.Proofs.Comment.Links
import HeaderDocs.Proofs.Walk.Replay
import HeaderDocs.Proofs.Walk.Shape

/-!
Where the links in docs lead. A doc is read under the symbols of some moment, and what these give is
the anchor of a declaration or variant that has been added by then. Docs are filled in later and
names registered anew, but no anchor is lost, so at the end every link of every doc has a
declaration to lead to.
-/

namespace HeaderDocs

set_option autoImplicit false

/-- A link with a name for its text that leads to one of the declarations or to a variant of one. -/
structure LinksTo (declarations : List Declaration) (link : List Char × List Char) : Prop where
  name : Comment.IsName link.1
  target : IsIdentifier (String.ofList link.2)
  leads : ∃ declaration ∈ declarations, Walker.HasAnchor declaration (String.ofList link.2)

structure Linked (declarations : List Declaration) (doc : String) : Prop where
  source : ∃ table text, Comment.Aimed (Comment.Lookup.ofTable table) ∧
    doc = Comment.transform table text
  links : ∀ link ∈ Comment.foundLinks doc, LinksTo declarations link

theorem linked_grow {declarations others : List Declaration}
    (kept : ∀ declaration ∈ declarations, ∃ other ∈ others,
      ∀ anchor, Walker.HasAnchor declaration anchor → Walker.HasAnchor other anchor)
    {doc : String} (linked : Linked declarations doc) : Linked others doc := by
  refine ⟨linked.source, ?_⟩
  intro link found
  obtain ⟨name, target, declaration, member, has⟩ := linked.links link found
  obtain ⟨other, inOthers, keeps⟩ := kept declaration member
  exact ⟨name, target, other, inOthers, keeps _ has⟩

theorem is_target_of_identifier {anchor : String} (identifier : IsIdentifier anchor) :
    anchor.toList ≠ [] ∧ ∀ c ∈ anchor.toList, Declaration.isTargetChar c := by
  refine ⟨by simpa using identifier.1, ?_⟩
  intro c member
  have unclosed : c ≠ ')' := fun same => not_mem_identifier identifier (by decide) (same ▸ member)
  simp [Declaration.isTargetChar, unclosed, identifier_char_not_blank (identifier.2 c member)]

namespace Walker

open Comment

variable {allowlist : Allowlist}

theorem lookup_identifier {declarations : List Declaration}
    (composed : ∀ declaration ∈ declarations, declaration.Composed)
    (named : ∀ declaration ∈ declarations, declaration.Named) {name anchor : String}
    (found : (Symbol.Table.replay declarations).lookup? name = some anchor) :
    IsIdentifier anchor := by
  obtain ⟨declaration, member, own, source⟩ := lookup_source found
  have identifier : IsIdentifier declaration.name :=
    (named declaration member).own.resolve_left (by simp [own])
  rcases source with rfl | ⟨isEnum, variant, inMembers, rfl⟩
  · exact identifier
  · rcases (composed declaration member).kinds variant inMembers with ⟨isVariant, -⟩ | ⟨-, isRecord⟩
    · exact identifier_append identifier
        ((named declaration member).variants variant inMembers isVariant)
    · simp [isEnum] at isRecord

/-- At every moment of a run, comments are given links to what has been added. -/
theorem comment_linked {cursors : List Cursor} {after : Walker}
    (spelled : ∀ cursor ∈ cursors, cursor.Spelled) (ran : Runs allowlist {} cursors after)
    (cursor : Cursor) :
    Linked after.met (commentOf after.symbols cursor) := by
  have replayed := runs_replay ran
  have aimed : Aimed (Lookup.ofTable after.symbols) := by
    intro name anchor found
    obtain ⟨known, registered, rfl⟩ := Option.map_eq_some_iff.1 found
    rw [replayed] at registered
    exact is_target_of_identifier
      (lookup_identifier (runs_composed ran) (runs_named spelled ran) registered)
  rw [← doc_under_eq_comment, docUnder]
  refine ⟨⟨_, _, aimed, rfl⟩, ?_⟩
  intro link found
  rw [found_links_transform aimed] at found
  obtain ⟨isName, known, registered⟩ := given_link_known found
  rw [replayed] at registered
  exact ⟨isName, lookup_identifier (runs_composed ran) (runs_named spelled ran) registered,
    lookup_replay (runs_placed ran) registered⟩

theorem members_linked {symbols : Symbol.Table} {declarations : List Declaration}
    (linked : ∀ cursor, Linked declarations (commentOf symbols cursor)) {cursor : Cursor}
    {kind : Kind} {inner : Declaration}
    (member : inner ∈ members symbols cursor kind) : Linked declarations inner.doc := by
  rcases mem_members member with ⟨-, child, -, rfl⟩ | ⟨-, child, -, rfl⟩ <;> exact linked child

theorem runs_linked {cursors : List Cursor} {after : Walker}
    (spelled : ∀ cursor ∈ cursors, cursor.Spelled) (ran : Runs allowlist {} cursors after) :
    ∀ declaration ∈ after.met, ∀ item ∈ declaration.items,
      Linked after.met item.declaration.doc := by
  induction cursors using List.reverseRecOn generalizing after with
  | nil =>
      rw [runs_nil.1 ran]
      simp
  | append_singleton passed last ih =>
      obtain ⟨before, ranPassed, step⟩ := runs_append.1 ran
      obtain ⟨next, visited, done⟩ := runs_cons.1 step
      obtain rfl := runs_nil.1 done
      have spelledPassed : ∀ cursor ∈ passed, cursor.Spelled :=
        fun cursor member => spelled cursor (by simp [member])
      have earlier := ih spelledPassed ranPassed
      have readBefore := comment_linked spelledPassed ranPassed
      have readAfter := comment_linked spelled ran
      cases visited_of_visit visited with
      | passed => exact earlier
      | known => exact earlier
      | @folded target name eligible names record met =>
          -- Only docs change, and the new one was read before the visit.
          have kept : ∀ declaration ∈ before.met,
              ∃ other ∈ (before.fillDoc target name (commentOf before.symbols last)).met,
                ∀ anchor, HasAnchor declaration anchor → HasAnchor other anchor := by
            intro declaration member
            refine ⟨_, List.mem_map_of_mem member, fun anchor has => ?_⟩
            split
            · exact has_anchor_with_doc has _
            · exact has
          intro declaration member item inItems
          obtain ⟨old, inMet, rfl⟩ := List.mem_map.1 member
          apply linked_grow kept
          split at inItems
          · rcases Declaration.mem_items.1 inItems with rfl | ⟨inner, inside, rfl⟩
            · exact readBefore last
            · exact earlier old inMet ⟨some old, inner⟩
                (Declaration.mem_items.2 (Or.inr ⟨inner, inside, rfl⟩))
          · exact earlier old inMet item inItems
      | @described kind name new eligible apart unmet described =>
          intro declaration member item inItems
          rcases List.mem_append.1 member with old | added
          · refine linked_grow ?_ (earlier declaration old item inItems)
            exact fun declaration member =>
              ⟨declaration, List.mem_append_left _ member, fun _ has => has⟩
          · obtain ⟨-, -, sameDoc, sameMembers⟩ := describe_eq_ok described
            rw [List.mem_singleton.1 added] at inItems
            rcases Declaration.mem_items.1 inItems with rfl | ⟨inner, inside, rfl⟩
            · rw [sameDoc]
              exact readAfter last
            · rw [sameMembers] at inside
              exact members_linked readAfter inside

end Walker

end HeaderDocs
