import HeaderDocs.Cursor
import HeaderDocs.Failure
import HeaderDocs.Text.Blank
import HeaderDocs.Text.Find

/-!
Names and signatures of the declarations that cursors point at.
-/

namespace HeaderDocs.Cursor

open Text

def afterWord? (word text : List Char) : Option (List Char) :=
  match dropStart? word text with
  | some (c :: rest) => if isBlank c then some (trimLeft rest) else none
  | _ => none

def afterTag? (text : List Char) : Option (List Char) :=
  (afterWord? "enum".toList text).or
    ((afterWord? "struct".toList text).or (afterWord? "union".toList text))

/-- A type spelled without the keyword that introduces a record, and without `const` before it. -/
def dropTag (spelling : String) : String :=
  let text := spelling.toList
  String.ofList ((((afterWord? "const".toList text).bind afterTag?).or (afterTag? text)).getD text)

/-- The name of a record. A record without a name of its own goes by that of its type, which is the
name that a type definition gives it, or else tells where it stands. -/
def recordName (cursor : Cursor) : String :=
  let nameless :=
    cursor.spelling.isEmpty || cursor.isAnonymous || Symbol.isAnonymous cursor.spelling
  dropTag (if nameless then cursor.type else cursor.spelling)

/-- A macro that stands for a value: it has tokens after its name, and no bracket right behind
it. -/
def isValueMacro (cursor : Cursor) : Bool :=
  match cursor.tokens with
  | name :: next :: _ => !(next.spelling == "(" && next.start == name.stop)
  | _ => false

def declaredName? (cursor : Cursor) : Kind → Option String
  | .define =>
      if startsWith ['_'] cursor.spelling.toList || !cursor.isValueMacro then
        none else some cursor.spelling
  | .struct | .union | .enum => if cursor.isDefinition then some cursor.recordName else none
  | .function | .global | .typedef => some cursor.spelling
  | .variant | .field | .other => none

def childrenOf (cursor : Cursor) (kind : CursorKind) : List Cursor :=
  cursor.children.filter fun child => child.kind = kind

def parameterList (cursor : Cursor) (variadic : Bool) : String :=
  let parameters := (cursor.childrenOf .parameter).map fun parameter =>
    strip (parameter.type ++ " " ++ parameter.spelling)
  let all := parameters ++ if variadic then ["..."] else []
  let text := String.intercalate ", " all
  if text.isEmpty then "void" else text

def recordWord : Kind → String
  | .union => "union"
  | .enum => "enum"
  | _ => "struct"

def plainSignature (cursor : Cursor) (kind : Kind) (name : String) : String :=
  match kind with
  | .global | .field => cursor.type ++ " " ++ name
  | .typedef => "typedef " ++ cursor.underlyingType ++ " " ++ name
  | .struct | .union | .enum => recordWord kind ++ " " ++ name
  | .variant => name ++ " = " ++ toString cursor.value
  | .define => "#define " ++ String.intercalate " " (cursor.tokens.map SourceToken.spelling)
  | .function | .other => name

/-- The signature of what a cursor declares. A function has none without a prototype. -/
def signature (cursor : Cursor) (kind : Kind) (name : String) : Except Failure String :=
  match kind, cursor.variadic with
  | .function, none => .error .noPrototype
  | .function, some variadic =>
      .ok (cursor.resultType.getD "void" ++ " " ++ name ++ "(" ++
        cursor.parameterList variadic ++ ")")
  | kind, _ => .ok (cursor.plainSignature kind name)

/-- The line on which a cursor stands; a cursor outside of any file stands on none. -/
def placeLine (cursor : Cursor) : Int :=
  if cursor.file.isSome then cursor.line else 0

end HeaderDocs.Cursor
