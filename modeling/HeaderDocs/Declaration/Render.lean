import HeaderDocs.Declaration.Anchor
import HeaderDocs.Declaration.Link

/-!
Declarations as Markdown. A declaration is shown as a block of lines: its anchor, its heading, its
signature, its comment and what it derives; the blocks of its members follow one heading level
below.
-/

namespace HeaderDocs.Declaration

open Text

structure Style where
  headingLevel : Int := 3
  members : Bool := true
  showDerives : Bool := true
  undocumented : Bool := true
  resolve : Resolver := fun _ => none

def Style.forMembers (style : Style) : Style :=
  { style with headingLevel := style.headingLevel + 1, undocumented := true }

def headingMarks (level : Int) : List Char :=
  List.replicate level.toNat '#'

def code (text : String) : String :=
  "`" ++ text ++ "`"

/-- A line with its heading, if it is one of the first level, put at another level. -/
def shiftLine (level : Int) (line : List Char) : List Char :=
  match line with
  | '#' :: ' ' :: rest => headingMarks level ++ ' ' :: rest
  | _ => line

def shiftHeadings (level : Int) (markdown : String) : String :=
  String.ofList (joinLines ((markdown.toList.splitOn '\n').map (shiftLine (level + 1))))

def title (declaration : Declaration) : String :=
  let shown :=
    code (if Symbol.isAnonymous declaration.name then "(anonymous)" else declaration.name)
  if declaration.kind.label.isEmpty then shown else declaration.kind.label ++ ": " ++ shown

def heading (declaration : Declaration) (level : Int) : String :=
  String.ofList (headingMarks level) ++ " " ++ declaration.title

def anchorLine (anchor : String) : String :=
  "<a id=\"" ++ anchor ++ "\"></a>"

/-- The signature of a declaration: as inline code for a member, else as a block of code. -/
def signatureLines (declaration : Declaration) : List String :=
  if declaration.signature.isEmpty then []
  else if declaration.kind.isMember then [code declaration.signature, ""]
  else ["```c", declaration.signature, "```", ""]

def docLines (declaration : Declaration) (style : Style) : List String :=
  if declaration.doc.isEmpty then []
  else [resolveLinks style.resolve (shiftHeadings style.headingLevel declaration.doc), ""]

def deriveLines (declaration : Declaration) (style : Style) : List String :=
  if style.showDerives && !declaration.derives.isEmpty then
    ["**Derives:** " ++ String.intercalate ", " (declaration.derives.map code), ""]
  else []

def ownLines (declaration : Declaration) (style : Style)
    (parent : Option Declaration) : List String :=
  let anchor := declaration.anchor parent
  (if anchor.isEmpty then [] else [anchorLine anchor, ""]) ++
    [declaration.heading style.headingLevel, ""] ++
    declaration.signatureLines ++ declaration.docLines style ++ declaration.deriveLines style

mutual

def render (style : Style) (parent : Option Declaration) : Declaration → String
  | ⟨name, kind, doc, signature, file, line, derives, members⟩ =>
      let declaration : Declaration := ⟨name, kind, doc, signature, file, line, derives, members⟩
      String.intercalate "\n" (declaration.ownLines style parent ++
        if style.members then renderMembers style.forMembers declaration members else [])

def renderMembers (style : Style) (parent : Declaration) : List Declaration → List String
  | [] => []
  | member :: members => render style (some parent) member :: renderMembers style parent members

end

def shown (style : Style) (declarations : List Declaration) : List Declaration :=
  declarations.filter fun declaration => style.undocumented || !declaration.doc.isEmpty

def renderAll (style : Style) (declarations : List Declaration) : String :=
  String.intercalate "\n---\n\n" ((shown style declarations).map (render style none))

def Style.page : Style :=
  { headingLevel := 2 }

def renderPage (style : Style) (declarations : List Declaration) (title : String) : String :=
  let body := renderAll style declarations
  if body.isEmpty then "# " ++ title ++ "\n\n_No bound symbols in this header._\n"
  else "# " ++ title ++ "\n\n" ++ body ++ "\n"

end HeaderDocs.Declaration
