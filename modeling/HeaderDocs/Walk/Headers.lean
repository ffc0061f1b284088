import HeaderDocs.Walk.Walker

/-!
Headers walked one after another. Each goes through the C parser first, whose complaints are noted;
a header that is missing or cannot be parsed is a failure.
-/

namespace HeaderDocs

/-- What reading headers leaves behind besides declarations: requests to the parser and notices. -/
structure Report where
  calls : List ParseCall := []
  notices : List Notice := []
deriving DecidableEq, Repr

namespace Report

def append (first second : Report) : Report :=
  ⟨first.calls ++ second.calls, first.notices ++ second.notices⟩

instance : Append Report :=
  ⟨append⟩

end Report

/-- The headers at hand: what the parser makes of the file at a path, if there is one. -/
abbrev Shelf := String → Option Header

structure Reading where
  arguments : List String := []
  allowlist : Allowlist := {}

structure Read where
  walker : Walker
  report : Report := {}
  failure : Option Failure := none

namespace Reading

def call (reading : Reading) (path : String) : ParseCall :=
  ⟨path, reading.arguments ++ ["-x", "c-header"]⟩

def complaints (path : String) (diagnostics : List Diagnostic) : List Notice :=
  match diagnostics.filter fun diagnostic => 3 ≤ diagnostic.severity with
  | [] => []
  | first :: others =>
      [⟨.warning, path ++ ": " ++ toString (others.length + 1) ++ " clang errors, first: " ++
        first.text⟩]

def read (reading : Reading) (shelf : Shelf) (walker : Walker) (path : String) : Read :=
  match shelf path with
  | none => { walker := walker, failure := some (.headerMissing path) }
  | some header =>
      match header.loadError with
      | some cause =>
          { walker := walker
            report := { calls := [reading.call path] }
            failure := some (.headerUnreadable path cause) }
      | none =>
          let (after, failure) := Walker.walkHeader reading.allowlist walker header.cursors
          { walker := after
            report :=
              { calls := [reading.call path], notices := complaints path header.diagnostics }
            failure := failure }

def readAll (reading : Reading) (shelf : Shelf) : Walker → List String → Read
  | walker, [] => { walker := walker }
  | walker, path :: paths =>
      let first := reading.read shelf walker path
      match first.failure with
      | some _ => first
      | none =>
          let others := readAll reading shelf first.walker paths
          { others with report := first.report ++ others.report }

/-- Headers read in order by a new walk, with a note of what was found if all could be read. -/
def readFresh (reading : Reading) (shelf : Shelf) (paths : List String) : Read :=
  let outcome := reading.readAll shelf {} paths
  match outcome.failure with
  | some _ => outcome
  | none =>
      let note := "walked " ++ toString paths.length ++ " headers, " ++
        toString outcome.walker.declarations.length ++ " declarations"
      { outcome with report := outcome.report ++ { notices := [⟨.debug, note⟩] } }

end Reading

end HeaderDocs
