import HeaderDocs.Declaration.Basic

/-!
Syntax trees of headers as a C parser hands them out: one cursor for each declaration, and for each
header the complaints of the parser.
-/

namespace HeaderDocs

inductive CursorKind where
  | declares (kind : Kind)
  | parameter
  | ignored
deriving DecidableEq, Repr

structure SourceToken where
  spelling : String
  start : Int
  stop : Int
deriving DecidableEq, Repr

structure Cursor where
  kind : CursorKind
  spelling : String := ""
  comment : Option String := none
  type : String := ""
  isAnonymous : Bool := false
  isDefinition : Bool := true
  value : Int := 0
  resultType : Option String := none
  /-- Whether a function takes further arguments; unknown without a prototype. -/
  variadic : Option Bool := some false
  /-- The spelling of the type that a type name stands for. -/
  underlyingType : String := ""
  /-- What declares that type. -/
  underlyingKind : CursorKind := .ignored
  file : Option String := none
  line : Int := 0
  tokens : List SourceToken := []
  children : List Cursor := []

instance : Inhabited Cursor :=
  ⟨{ kind := .ignored }⟩

/-- A complaint of the parser; the severity of errors is three or more. -/
structure Diagnostic where
  severity : Int
  text : String
deriving DecidableEq, Repr

structure Header where
  loadError : Option String := none
  diagnostics : List Diagnostic := []
  cursors : List Cursor := []

structure ParseCall where
  path : String
  arguments : List String
deriving DecidableEq, Repr

end HeaderDocs
