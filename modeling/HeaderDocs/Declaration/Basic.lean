import HeaderDocs.Symbol.Anonymous

/-!
Declarations of a header as they are documented: what each is, its name, its comment as Markdown,
its signature in C and its members.
-/

namespace HeaderDocs

/-- What a declaration declares. The last kind is that of a declaration without a label. -/
inductive Kind where
  | function
  | global
  | typedef
  | struct
  | union
  | enum
  | variant
  | field
  | define
  | other
deriving DecidableEq, Repr

namespace Kind

def label : Kind → String
  | function => "Function"
  | global => "Variable"
  | typedef => "Type"
  | struct => "Struct"
  | union => "Union"
  | enum => "Enum"
  | variant => "Variant"
  | field => "Field"
  | define => "Constant"
  | other => ""

/-- A record in the wide sense: a structure, a union or an enumeration. -/
def isRecord : Kind → Bool
  | struct | union | enum => true
  | _ => false

def isType (kind : Kind) : Bool :=
  kind == typedef || kind.isRecord

def isMember : Kind → Bool
  | variant | field => true
  | _ => false

end Kind

structure Declaration where
  name : String
  kind : Kind
  doc : String := ""
  signature : String := ""
  file : String := ""
  line : Int := 0
  derives : List String := []
  members : List Declaration := []
deriving Repr, BEq

instance : Inhabited Declaration :=
  ⟨{ name := "", kind := .other }⟩

def plainMemoryTypes : List String :=
  ["fz_point", "fz_quad"]

def derivesOf (typeName : String) : List String :=
  if typeName ∈ plainMemoryTypes then
    ["zerocopy::FromBytes", "zerocopy::IntoBytes", "zerocopy::Immutable"]
  else []

end HeaderDocs
