import HeaderDocs.Declaration.Link

/-!
Markdown as segments: characters that stand for themselves, and links. A reader that looks for links
takes a text apart into segments. It finds exactly the links that were written as such when every
closing bracket among the characters follows a backslash, since the backtick before the target of a
link is then never a character that stands for itself.
-/

namespace HeaderDocs.Comment

open Text Declaration

set_option autoImplicit false

inductive Segment where
  | plain (c : Char)
  | link (name target : List Char)
deriving DecidableEq, Repr

namespace Segment

def text : Segment → List Char
  | plain c => [c]
  | link name target => codeLink name target

def link? : Segment → Option (List Char × List Char)
  | plain _ => none
  | link name target => some (name, target)

def isUnmarked : Segment → Bool
  | plain c => c != '\x60'
  | link _ _ => false

def placed (resolve : Resolver) : Segment → Segment
  | plain c => plain c
  | link name target => link name (placeOf resolve target)

/-- Links that a reader recognises. The name must not start with a closing bracket either, or a
backtick typed before the link could end a link of its own. -/
def Legible : Segment → Prop
  | plain _ => True
  | link name target =>
      name ≠ [] ∧ '\x60' ∉ name ∧ name.head? ≠ some ']' ∧ target ≠ [] ∧ ∀ c ∈ target, isTargetChar c

def write (segments : List Segment) : List Char :=
  segments.flatMap text

def plains (text : List Char) : List Segment :=
  text.map plain

/-- Every closing bracket among the characters follows a backslash; the flag tells whether one
stands before the segments. -/
def Guarded : Bool → List Segment → Prop
  | _, [] => True
  | escaped, plain c :: rest => (c = ']' → escaped = true) ∧ Guarded (c == '\\') rest
  | _, link _ _ :: rest => Guarded false rest

/-- A text taken apart as a reader does that looks for links from the left. -/
def read (text : List Char) : List Segment :=
  match text with
  | [] => []
  | c :: rest =>
      match _found : linkAt? (c :: rest) with
      | some (name, target, after) => link name target :: read after
      | none => plain c :: read rest
termination_by text.length
decreasing_by
  · exact length_of_link_at _found
  · simp

@[simp] theorem write_nil : write [] = [] := rfl

@[simp] theorem write_cons (segment : Segment) (rest : List Segment) :
    write (segment :: rest) = segment.text ++ write rest := rfl

@[simp] theorem write_append (left right : List Segment) :
    write (left ++ right) = write left ++ write right := by
  simp [write]

@[simp] theorem write_plains (text : List Char) : write (plains text) = text := by
  induction text with
  | nil => rfl
  | cons c rest ih => simpa [plains, Segment.text] using ih

@[simp] theorem plains_append (left right : List Char) :
    plains (left ++ right) = plains left ++ plains right := by
  simp [plains]

@[simp] theorem map_placed_plains (resolve : Resolver) (text : List Char) :
    (plains text).map (placed resolve) = plains text := by
  simp [plains, placed]

theorem read_link {text name target after : List Char}
    (found : linkAt? text = some (name, target, after)) :
    read text = link name target :: read after := by
  cases text with
  | nil => simp [linkAt?] at found
  | cons c rest =>
      rw [read]
      split
      · rename_i same
        rw [found] at same
        obtain ⟨rfl, rfl, rfl⟩ := same
        rfl
      · rename_i missing
        simp [found] at missing

theorem read_plain {c : Char} {rest : List Char} (missing : linkAt? (c :: rest) = none) :
    read (c :: rest) = plain c :: read rest := by
  rw [read]
  split
  · rename_i found
    simp [missing] at found
  · rfl

theorem links_plains (text : List Char) : (plains text).filterMap link? = [] := by
  simp [plains, List.filterMap_map, link?]

theorem plains_legible (text : List Char) : ∀ segment ∈ plains text, segment.Legible := by
  intro segment member
  obtain ⟨c, -, rfl⟩ := List.mem_map.1 member
  trivial

/-- Replacing targets in a text is replacing them in what a reader finds. -/
theorem resolve_text_eq_write_read (resolve : Resolver) (text : List Char) :
    resolveText resolve text = write ((read text).map (placed resolve)) := by
  fun_induction read text with
  | case1 => simp [resolveText]
  | case2 c rest name target after found ih =>
      rw [resolveText]
      split
      · rename_i same
        rw [found] at same
        obtain ⟨rfl, rfl, rfl⟩ := same
        simp [placed, Segment.text, ih]
      · rename_i missing
        simp [found] at missing
  | case3 c rest missing ih =>
      rw [resolveText]
      split
      · rename_i found
        simp [missing] at found
      · simp [placed, Segment.text, ih]

theorem guarded_weaken {escaped : Bool} {segments : List Segment}
    (guarded : Guarded false segments) :
    Guarded escaped segments := by
  cases segments with
  | nil => trivial
  | cons segment rest =>
      cases segment with
      | plain c => exact ⟨fun close => absurd (guarded.1 close) (by simp), guarded.2⟩
      | link name target => exact guarded

theorem guarded_append {escaped : Bool} {left right : List Segment}
    (guardedLeft : Guarded escaped left) (guardedRight : Guarded false right) :
    Guarded escaped (left ++ right) := by
  induction left generalizing escaped with
  | nil => exact guarded_weaken guardedRight
  | cons segment rest ih =>
      cases segment with
      | plain c => exact ⟨guardedLeft.1, ih guardedLeft.2⟩
      | link name target => exact ih guardedLeft

theorem guarded_of_append {escaped : Bool} {left right : List Segment}
    (guarded : Guarded escaped (left ++ right)) :
    Guarded escaped left := by
  induction left generalizing escaped with
  | nil => trivial
  | cons segment rest ih =>
      cases segment with
      | plain c => exact ⟨guarded.1, ih guarded.2⟩
      | link name target => exact ih guarded

theorem guarded_rest {escaped : Bool} {left right : List Segment}
    (guarded : Guarded escaped (left ++ right))
    (other : right.head? ≠ some (plain ']')) : Guarded false right := by
  induction left generalizing escaped with
  | nil =>
      cases right with
      | nil => trivial
      | cons segment rest =>
          cases segment with
          | plain c => exact ⟨fun close => absurd (by simp [close]) other, guarded.2⟩
          | link name target => exact guarded
  | cons segment rest ih =>
      cases segment with
      | plain c => exact ih guarded.2
      | link name target => exact ih guarded

theorem guarded_plains {escaped : Bool} {text : List Char}
    (bare : ']' ∉ text) : Guarded escaped (plains text) := by
  induction text generalizing escaped with
  | nil => trivial
  | cons c rest ih =>
      simp only [List.mem_cons, not_or] at bare
      exact ⟨fun close => absurd close.symm bare.1, ih bare.2⟩

theorem link_at_code_link {name target : List Char} (legible : (link name target).Legible)
    (rest : List Char) :
    linkAt? (codeLink name target ++ rest) = some (name, target, rest) := by
  obtain ⟨nonempty, tickless, -, aimed, reachable⟩ := legible
  have inName : ∀ c ∈ name, (c != '\x60') = true := by
    intro c member
    have differs : c ≠ '\x60' := fun same => tickless (same ▸ member)
    simpa using differs
  obtain ⟨first, others, rfl⟩ := List.exists_cons_of_ne_nil nonempty
  obtain ⟨start, further, rfl⟩ := List.exists_cons_of_ne_nil aimed
  have shape : codeLink (first :: others) (start :: further) ++ rest =
      '[' :: '\x60' :: ((first :: others) ++ '\x60' :: ']' :: '(' ::
        ((start :: further) ++ ')' :: rest)) := by
    simp [codeLink, inlineCode]
  have close : isTargetChar ')' = false := by decide
  rw [shape]
  simp only [linkAt?]
  rw [List.takeWhile_append_of_pos inName, List.dropWhile_append_of_pos inName]
  simp only [List.takeWhile_cons, List.dropWhile_cons, bne_self_eq_false, Bool.false_eq_true,
    if_false, List.append_nil]
  rw [List.takeWhile_append_of_pos reachable, List.dropWhile_append_of_pos reachable]
  simp only [List.takeWhile_cons, List.dropWhile_cons, close, Bool.false_eq_true, if_false,
    List.append_nil]

/-- After the first backtick of guarded segments no closing bracket follows at once. The backtick is
either a character, so that a bracket behind it would lack its backslash, or opens the name of a
link. -/
theorem no_close_after_tick {escaped : Bool} {segments : List Segment}
    (guarded : Guarded escaped segments) (legible : ∀ segment ∈ segments, segment.Legible)
    (after : List Char) :
    (write segments).dropWhile (· != '\x60') ≠ '\x60' :: ']' :: after := by
  induction segments generalizing escaped with
  | nil => simp
  | cons segment rest ih =>
      have others := fun later member => legible later (List.mem_cons_of_mem _ member)
      cases segment with
      | plain c =>
          by_cases tick : c = '\x60'
          · subst tick
            have guardedRest : Guarded false rest := guarded.2
            cases rest with
            | nil => simp [Segment.text]
            | cons next further =>
                cases next with
                | plain d =>
                    have other : d ≠ ']' := fun close => absurd (guardedRest.1 close) (by simp)
                    simp [Segment.text, other]
                | link name target => simp [Segment.text, codeLink]
          · simpa [Segment.text, tick] using ih guarded.2 others
      | link name target =>
          obtain ⟨nonempty, -, start, -⟩ := legible (link name target) (by simp)
          obtain ⟨first, others, rfl⟩ := List.exists_cons_of_ne_nil nonempty
          have other : first ≠ ']' := fun close => start (by simp [close])
          simp [Segment.text, codeLink, inlineCode, other]

theorem link_at_open_tick {text : List Char}
    (unclosed : ∀ after, text.dropWhile (· != '\x60') ≠ '\x60' :: ']' :: after) :
    linkAt? ('[' :: '\x60' :: text) = none := by
  simp only [linkAt?]
  split
  · rename_i tail _ shown
    exact absurd shown (unclosed _)
  · rfl

theorem no_link_at_plain {c : Char} {rest : List Segment} (guarded : Guarded (c == '\\') rest)
    (legible : ∀ segment ∈ rest, segment.Legible) : linkAt? (c :: write rest) = none := by
  by_cases opens : c = '['
  · subst opens
    cases rest with
    | nil => rfl
    | cons segment further =>
        cases segment with
        | plain d =>
            by_cases tick : d = '\x60'
            · subst tick
              apply link_at_open_tick
              exact no_close_after_tick guarded.2 fun later member =>
                legible later (List.mem_cons_of_mem _ member)
            · simp [linkAt?, Segment.text, tick]
        | link name target => simp [linkAt?, Segment.text, codeLink]
  · simp [linkAt?, opens]

/-- A reader finds the segments that were written. -/
theorem read_write {escaped : Bool} {segments : List Segment} (guarded : Guarded escaped segments)
    (legible : ∀ segment ∈ segments, segment.Legible) : read (write segments) = segments := by
  induction segments generalizing escaped with
  | nil => simp [read]
  | cons segment rest ih =>
      have others := fun later member => legible later (List.mem_cons_of_mem _ member)
      cases segment with
      | plain c =>
          -- The guard of the rest is that of the character in front of it.
          rw [write_cons, Segment.text, List.singleton_append,
            read_plain (no_link_at_plain guarded.2 others), ih guarded.2 others]
      | link name target =>
          rw [write_cons, Segment.text,
            read_link (link_at_code_link (legible (link name target) (by simp)) _),
            ih (show Guarded false rest from guarded) others]

end Segment

end HeaderDocs.Comment
