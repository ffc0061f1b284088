import HeaderDocs.Allowlist
import HeaderDocs.Comment.Markdown
import HeaderDocs.Walk.Signature

/-!
The walk over the declarations of headers. A declaration that is met for the first time is
registered before its comment is read, and so are the variants of an enumeration; a comment
therefore links to what stands above it and to what it documents, and to nothing below.
-/

namespace HeaderDocs

/-- What a walk knows: the symbols registered so far, the declarations met so far in the order in
which they were met, and which of these belong to headers whose walk broke off. -/
structure Walker where
  symbols : Symbol.Table := {}
  met : List Declaration := []
  abandoned : List (Kind × String) := []

namespace Walker

def key (declaration : Declaration) : Kind × String :=
  (declaration.kind, declaration.name)

/-- The declarations of the headers that were walked to their end. -/
def declarations (walker : Walker) : List Declaration :=
  walker.met.filter fun declaration => key declaration ∉ walker.abandoned

def hasMet (walker : Walker) (kind : Kind) (name : String) : Bool :=
  walker.met.any fun declaration => key declaration = (kind, name)

def commentOf (symbols : Symbol.Table) (cursor : Cursor) : String :=
  (cursor.comment.map (Comment.document symbols)).getD ""

def variantNames (cursor : Cursor) : List String :=
  (cursor.childrenOf (.declares .variant)).map Cursor.spelling

/-- A declaration of some kind and name is documented. An enumeration without a name is documented
when one of its variants is. -/
def allowed (allowlist : Allowlist) (cursor : Cursor) (kind : Kind)
    (name : String) : Except Failure Bool :=
  if kind = .enum ∧ Symbol.isAnonymous name then allowlist.allowsAny .variant (variantNames cursor)
  else allowlist.allows kind name

def eligible? (allowlist : Allowlist) (cursor : Cursor) : Except Failure (Option (Kind × String)) :=
  match cursor.kind with
  | .declares kind =>
      match cursor.declaredName? kind with
      | none => .ok none
      | some name =>
          if name.isEmpty then .ok none
          else
            match allowed allowlist cursor kind name with
            | .error failure => .error failure
            | .ok false => .ok none
            | .ok true => .ok (some (kind, name))
  | _ => .ok none

/-- The kind of the record that a type definition gives its own name to, if that record has been
met. -/
def foldedInto? (walker : Walker) (cursor : Cursor) (kind : Kind) (name : String) : Option Kind :=
  match kind, cursor.underlyingKind with
  | .typedef, .declares target =>
      if target.isRecord && walker.hasMet target name then some target else none
  | _, _ => none

def fillDoc (walker : Walker) (kind : Kind) (name doc : String) : Walker :=
  { walker with
    met := walker.met.map fun declaration =>
      if key declaration = (kind, name) ∧ declaration.doc.isEmpty then
        { declaration with doc := doc }
      else declaration }

/-- The symbols after a declaration has been registered: its own name unless it has none, then its
variants. -/
def registered (symbols : Symbol.Table) (cursor : Cursor) (kind : Kind)
    (name : String) : Symbol.Table :=
  let symbols := if Symbol.isAnonymous name then symbols else symbols.registerItem name
  if kind = .enum then
    (variantNames cursor).foldl (fun symbols variant => symbols.registerVariant (some name) variant)
      symbols
  else symbols

def member (symbols : Symbol.Table) (kind : Kind) (cursor : Cursor) : Declaration :=
  { name := cursor.spelling
    kind := kind
    doc := commentOf symbols cursor
    signature := cursor.plainSignature kind cursor.spelling
    file := cursor.file.getD ""
    line := cursor.placeLine }

def members (symbols : Symbol.Table) (cursor : Cursor) : Kind → List Declaration
  | .enum => (cursor.childrenOf (.declares .variant)).map (member symbols .variant)
  | .struct | .union => (cursor.childrenOf (.declares .field)).map (member symbols .field)
  | _ => []

def describe (symbols : Symbol.Table) (cursor : Cursor) (kind : Kind) (name : String) :
    Except Failure Declaration :=
  match cursor.signature kind name with
  | .error failure => .error failure
  | .ok signature =>
      .ok
        { name := name
          kind := kind
          doc := commentOf symbols cursor
          signature := signature
          file := cursor.file.getD ""
          line := cursor.placeLine
          derives := if kind.isType then derivesOf name else []
          members := members symbols cursor kind }

/-- A documented declaration met by the walk: folded into the record that it names, passed over when
it has been met before, else registered and described. -/
def meet (walker : Walker) (cursor : Cursor) (kind : Kind)
    (name : String) : Walker × Option Failure :=
  match walker.foldedInto? cursor kind name with
  | some target => (walker.fillDoc target name (commentOf walker.symbols cursor), none)
  | none =>
      if walker.hasMet kind name then (walker, none)
      else
        let symbols := registered walker.symbols cursor kind name
        match describe symbols cursor kind name with
        | .error failure => ({ walker with symbols := symbols }, some failure)
        | .ok declaration =>
            ({ walker with symbols := symbols, met := walker.met ++ [declaration] }, none)

def visit (allowlist : Allowlist) (walker : Walker) (cursor : Cursor) : Walker × Option Failure :=
  match eligible? allowlist cursor with
  | .error failure => (walker, some failure)
  | .ok none => (walker, none)
  | .ok (some (kind, name)) => walker.meet cursor kind name

def visitAll (allowlist : Allowlist) : Walker → List Cursor → Walker × Option Failure
  | walker, [] => (walker, none)
  | walker, cursor :: cursors =>
      match visit allowlist walker cursor with
      | (walker, none) => visitAll allowlist walker cursors
      | (walker, some failure) => (walker, some failure)

def metSince (walker : Walker) (count : Nat) : List Declaration :=
  walker.met.drop count

/-- The declarations met since then given up: they stay met and are never documented. -/
def abandonSince (walker : Walker) (count : Nat) : Walker :=
  { walker with abandoned := walker.abandoned ++ (walker.metSince count).map key }

/-- The walk over one header. When it breaks off, none of the header's declarations is
documented. -/
def walkHeader (allowlist : Allowlist) (walker : Walker)
    (cursors : List Cursor) : Walker × Option Failure :=
  match visitAll allowlist walker cursors with
  | (after, none) => (after, none)
  | (after, some failure) => (after.abandonSince walker.met.length, some failure)

end Walker

end HeaderDocs
