import HeaderDocs.Comment.Mention
import HeaderDocs.Text.Blank
import HeaderDocs.Text.Find
import HeaderDocs.Text.Lines

/-!
Links in the Markdown of a comment. A link as comments write it has a name set as code and an anchor
as its target; when the Markdown is shown on a page, each anchor is replaced by the place it stands
for.
-/

namespace HeaderDocs.Declaration

open Text

abbrev Resolver := String → Option String

def isTargetChar (c : Char) : Bool :=
  c != ')' && !isBlank c

/-- The name, target and rest of the link at the head of a text. -/
def linkAt? : List Char → Option (List Char × List Char × List Char)
  | '[' :: '\x60' :: text =>
      let name := text.takeWhile (· != '\x60')
      match name, text.dropWhile (· != '\x60') with
      | _ :: _, '\x60' :: ']' :: '(' :: text =>
          let target := text.takeWhile isTargetChar
          match target, text.dropWhile isTargetChar with
          | _ :: _, ')' :: rest => some (name, target, rest)
          | _, _ => none
      | _, _ => none
  | _ => none

theorem link_at_eq {text name target rest : List Char}
    (found : linkAt? text = some (name, target, rest)) :
    text = Comment.codeLink name target ++ rest := by
  unfold linkAt? at found
  split at found
  · rename_i text
    simp only at found
    split at found
    · rename_i tail _ shown
      split at found
      · rename_i after _ closed
        simp only [Option.some.injEq, Prod.mk.injEq] at found
        obtain ⟨rfl, rfl, rfl⟩ := found
        have outer := List.takeWhile_append_dropWhile (p := (· != '\x60')) (l := text)
        have inner := List.takeWhile_append_dropWhile (p := isTargetChar) (l := tail)
        rw [closed] at inner
        rw [shown, ← inner] at outer
        refine Eq.trans (congrArg (fun text => '[' :: '\x60' :: text) outer.symm) ?_
        simp [Comment.codeLink, Comment.inlineCode]
      · simp at found
    · simp at found
  · simp at found

theorem length_of_link_at {text name target rest : List Char}
    (found : linkAt? text = some (name, target, rest)) : rest.length < text.length := by
  rw [link_at_eq found]
  simp only [Comment.codeLink, Comment.inlineCode, List.length_append, List.length_cons]
  omega

/-- The place shown for an anchor: what the resolver says, else a place on the same page. -/
def placeOf (resolve : Resolver) (target : List Char) : List Char :=
  match resolve (String.ofList target) with
  | some place => place.toList
  | none => '#' :: target

def resolveText (resolve : Resolver) (text : List Char) : List Char :=
  match text with
  | [] => []
  | c :: rest =>
      match _found : linkAt? (c :: rest) with
      | some (name, target, after) =>
          Comment.codeLink name (placeOf resolve target) ++ resolveText resolve after
      | none => c :: resolveText resolve rest
termination_by text.length
decreasing_by
  · exact length_of_link_at _found
  · simp

def resolveLinks (resolve : Resolver) (markdown : String) : String :=
  String.ofList (resolveText resolve markdown.toList)

end HeaderDocs.Declaration
