import HeaderDocs.Build.Environment
import HeaderDocs.Files.Tree
import HeaderDocs.Walk.Headers

/-!
What a run works on: the directory tree and the headers in it, the environment, the outcomes of the
programs that are started, and the trace that the run leaves.
-/

namespace HeaderDocs

/-- A program started with its arguments, where, and with which compiler options in its environment;
none where nothing was said. -/
structure Command where
  arguments : List String
  directory : Option String := none
  options : Option String := none
deriving DecidableEq, Repr

/-- What came of starting a program: it was not there, or it ended with an exit code and its
output. -/
inductive RunResult where
  | missing
  | finished (code : Int) (output errors : String)
deriving DecidableEq, Repr

/-- What a run works on and the trace that it leaves. -/
structure Workspace where
  tree : Tree := {}
  /-- What the parser makes of the headers, by their normal paths. -/
  headers : Index String Header := {}
  environment : Build.Environment := []
  platform : String := "linux"
  processors : Option Int := some 4
  /-- The outcomes of the programs still to be started, in order; those after them succeed
  silently. -/
  outcomes : List RunResult := []
  commands : List Command := []
  report : Report := {}

namespace Workspace

/-- The header at a path: what the parser makes of the file there; a file that it knows nothing of
is empty. -/
def shelf (workspace : Workspace) : Shelf := fun path =>
  if workspace.tree.isFile path then
    some ((workspace.headers.find? (Path.normalize path)).getD {})
  else none

def note (workspace : Workspace) (level : Level) (text : String) : Workspace :=
  { workspace with report := workspace.report ++ { notices := [⟨level, text⟩] } }

def addReport (workspace : Workspace) (report : Report) : Workspace :=
  { workspace with report := workspace.report ++ report }

/-- A program started: it is added to the trace, and the next outcome is its own. -/
def start (workspace : Workspace) (command : Command) : Workspace × RunResult :=
  let started := { workspace with commands := workspace.commands ++ [command] }
  match workspace.outcomes with
  | [] => (started, .finished 0 "" "")
  | outcome :: outcomes => ({ started with outcomes := outcomes }, outcome)

def withTree (workspace : Workspace) (tree : Tree) : Workspace :=
  { workspace with tree := tree }

end Workspace

end HeaderDocs
