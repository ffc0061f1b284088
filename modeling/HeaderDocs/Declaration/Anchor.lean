import HeaderDocs.Declaration.Basic
import HeaderDocs.Symbol.Table

/-!
Anchors of declarations: the names under which links reach them. They agree with what the symbol
table hands out, and nothing that has no name of its own has one, fields apart.
-/

namespace HeaderDocs.Declaration

/-- The anchor of a declaration inside its parent, or the empty text when it has none. -/
def anchor (declaration : Declaration) (parent : Option Declaration) : String :=
  match declaration.kind, parent with
  | .variant, none => ""
  | .variant, some parent =>
      if Symbol.isAnonymous parent.name then "" else Symbol.Table.variantAnchor parent.name
        declaration.name
  | .field, none => ""
  | .field, some parent => parent.name ++ "." ++ declaration.name
  | _, _ => if Symbol.isAnonymous declaration.name then "" else declaration.name

mutual

/-- The anchors of a declaration and everything below it, in the order in which they are shown. -/
def anchors (parent : Option Declaration) : Declaration → List String
  | ⟨name, kind, doc, signature, file, line, derives, members⟩ =>
      let declaration : Declaration := ⟨name, kind, doc, signature, file, line, derives, members⟩
      let own := declaration.anchor parent
      (if own.isEmpty then [] else [own]) ++ memberAnchors declaration members

def memberAnchors (parent : Declaration) : List Declaration → List String
  | [] => []
  | member :: members => anchors (some parent) member ++ memberAnchors parent members

end

end HeaderDocs.Declaration
