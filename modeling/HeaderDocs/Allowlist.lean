import HeaderDocs.Declaration.Basic
import HeaderDocs.Failure
import HeaderDocs.Pattern.Parser

/-!
The names that are documented: patterns for functions, for types and for everything else.
-/

namespace HeaderDocs

def Pattern.Unread.failure : Unread → Failure
  | malformed => .invalidPattern
  | beyond => .unsupportedPattern

structure Allowlist where
  functions : List String := ["fz_.*", "pdf_.*", "ucdn_.*", "Memento_.*", "mupdf_.*"]
  types : List String := ["fz_.*", "pdf_.*"]
  globals : List String := ["fz_.*", "FZ_.*", "pdf_.*", "PDF_.*", "UCDN_.*"]
deriving DecidableEq, Repr

namespace Allowlist

/-- Some pattern accepts the name. A pattern is read only when those before it do not accept, so one
that is malformed does no harm behind one that accepts. -/
def anyAccepts (name : String) : List String → Except Failure Bool
  | [] => .ok false
  | source :: sources =>
      match Pattern.read source with
      | .error unread => .error unread.failure
      | .ok pattern => if pattern.accepts name then .ok true else anyAccepts name sources

def patterns (allowlist : Allowlist) (kind : Kind) : List String :=
  if kind = .function then allowlist.functions
  else if kind.isType then allowlist.types
  else allowlist.globals

def allows (allowlist : Allowlist) (kind : Kind) (name : String) : Except Failure Bool :=
  anyAccepts name (allowlist.patterns kind)

def allowsAny (allowlist : Allowlist) (kind : Kind) : List String → Except Failure Bool
  | [] => .ok false
  | name :: names =>
      match allowlist.allows kind name with
      | .ok false => allowsAny allowlist kind names
      | other => other

end Allowlist

end HeaderDocs
