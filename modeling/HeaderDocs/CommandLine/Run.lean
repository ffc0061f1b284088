import HeaderDocs.Build.Native
import HeaderDocs.CommandLine.Request
import HeaderDocs.Declaration.Render

/-!
Command lines carried out. What is asked for goes to standard output; notices, and the failure that
a user can act on, go to standard error, and such a failure makes the exit code one.
-/

namespace HeaderDocs.CommandLine

/-- What a command line leaves behind: the workspace, what was printed, and the exit code or the
failure that ended the program. -/
structure Ended where
  workspace : Workspace
  output : String := ""
  errors : String := ""
  code : Except Failure Nat := .ok 0

def Stop.code : Stop → Nat
  | .help => 0
  | .usage => 2

def lines (texts : List String) : String :=
  String.join (texts.map (· ++ "\n"))

/-- A failure reported, if a user can act on it; any other ends the program. -/
def Ended.ofFailure (workspace : Workspace) (failure : Failure) : Ended :=
  if failure.isReported then
    { workspace := workspace, errors := lines ["error: " ++ failure.message], code := .ok 1 }
  else { workspace := workspace, code := .error failure }

def DocsRequest.reading (request : DocsRequest) : Reading :=
  { arguments :=
      (request.includes.flatMap fun path => ["-I", path]) ++ request.defines.map ("-D" ++ ·) }

def DocsRequest.page (request : DocsRequest) (declarations : List Declaration) : String :=
  let style : Declaration.Style := { headingLevel := 2, undocumented := !request.documentedOnly }
  Declaration.renderPage style declarations request.title

def runDocs (workspace : Workspace) (request : DocsRequest) : Ended :=
  let read := request.reading.readFresh workspace.shelf request.headers
  let workspace := workspace.addReport read.report
  match read.failure with
  | some failure => Ended.ofFailure workspace failure
  | none =>
      let declarations := read.walker.declarations
      let page := request.page declarations
      if request.output.isEmpty then { workspace := workspace, output := page }
      else
        match workspace.tree.writeFile request.output (.text page) with
        | .error failure => { workspace := workspace, code := .error failure }
        | .ok tree =>
            let count := toString declarations.length
            { workspace := workspace.withTree tree
              output := lines [count ++ " declarations written to " ++ request.output] }

def environmentConfig (workspace : Workspace) : Workspace × Except Failure Build.Config :=
  let environment := workspace.environment
  (workspace.addReport { notices := environment.notices }, environment.config workspace.processors)

def shownFeatures (config : Build.Config) : String :=
  if config.features.isEmpty then "(none)"
  else String.intercalate ", " (config.features.mergeSort Build.Environment.textOrder)

def runFlags (workspace : Workspace) (out : String) : Ended :=
  match environmentConfig workspace with
  | (workspace, .error failure) => { workspace := workspace, code := .error failure }
  | (workspace, .ok config) =>
      { workspace := workspace
        output := lines
          ["features: " ++ shownFeatures config,
            "cflags:   " ++ config.cflags "",
            "make:     " ++ String.intercalate " " (config.makeFlags out fun _ => "")] }

def usesSolution (config : Build.Config) : Bool :=
  Text.contains "msvc".toList config.target.toList

def runBuild (workspace : Workspace) (source out : String) : Ended :=
  match environmentConfig workspace with
  | (workspace, .error failure) => { workspace := workspace, code := .error failure }
  | (workspace, .ok config) =>
      let built :=
        if usesSolution config then Build.buildSolution workspace config source out "msbuild.exe"
        else Build.buildWithMake workspace config source out {} .program
      match built with
      | (workspace, .error failure) => Ended.ofFailure workspace failure
      | (workspace, .ok spec) => { workspace := workspace, output := lines spec.directives }

def runRequest (workspace : Workspace) : Request → Ended
  | .docs request => runDocs workspace request
  | .flags out => runFlags workspace out
  | .build source out => runBuild workspace source out

/-- A notice that is shown: warnings and errors always, progress on demand. -/
def isShown (verbose : Bool) : Level → Bool
  | .debug => false
  | .info => verbose
  | .warning | .error => true

def shownNotices (verbose : Bool) (notices : List Notice) : String :=
  lines ((notices.filter fun notice => isShown verbose notice.level).map fun notice =>
    notice.level.name ++ ": " ++ notice.text)

def run (workspace : Workspace) (words : List String) : Except Stop Ended := do
  let invocation ← readInvocation words
  let ended := runRequest workspace invocation.request
  let notices := shownNotices invocation.verbose ended.workspace.report.notices
  return { ended with errors := notices ++ ended.errors }

end HeaderDocs.CommandLine
