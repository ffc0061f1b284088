import HeaderDocs.Index
import HeaderDocs.Symbol.Anonymous

/-!
The symbol table: short names as they occur in comments, and the anchors they link to. A name is
registered when its declaration is met, so a look-up sees what has been registered so far.
-/

namespace HeaderDocs.Symbol

/-- Anchors under short names, in the order of first registration. -/
abbrev Table := Index String String

namespace Table

def variantAnchor (enumName variantName : String) : String :=
  enumName ++ "_" ++ variantName

def lookup? (table : Table) (name : String) : Option String :=
  table.find? name

def register (table : Table) (name anchor : String) : Table :=
  table.insert name anchor

def registerItem (table : Table) (name : String) : Table :=
  table.register name name

/-- A variant linked to its anchor. The variants of an enumeration without a name have nothing
stable to link to and are left out. -/
def registerVariant (table : Table) (enumName : Option String) (variantName : String) : Table :=
  match enumName with
  | none => table
  | some enumName =>
      if enumName.isEmpty || isAnonymous enumName then table
      else table.register variantName (variantAnchor enumName variantName)

@[simp] theorem lookup?_register (table : Table) (name other anchor : String) :
    (table.register name anchor).lookup? other =
      if other = name then some anchor else table.lookup? other :=
  Index.find?_insert table name other anchor

end Table

end HeaderDocs.Symbol
