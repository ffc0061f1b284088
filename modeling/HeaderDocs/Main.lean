import HeaderDocs.CommandLine.Run

/-!
The program. It works on what it can see of its surroundings: the environment variables that matter,
and the headers that are named, by paths from the working directory. No parser of C and no build
tools are attached to it, so a header that is there cannot be parsed, and a tool that is wanted
counts as missing.
-/

namespace HeaderDocs

def featureVariable (feature : String) : String :=
  Build.Environment.featureMark ++ (feature.map fun c => if c = '-' then '_' else c.toUpper)

def variableNames : List String :=
  ["FZBIND_FEATURES", "FZBIND_JOBS", "NUM_JOBS", "CARGO_CFG_TARGET_FEATURE", "PROFILE", "TARGET",
    "MUPDF_MSVC_PLATFORM_TOOLSET", "CC", "CXX", "CFLAGS", "CXXFLAGS"] ++
    Build.knownFeatures.map featureVariable

def readEnvironment : IO Build.Environment :=
  variableNames.filterMapM fun name => do
    return (← IO.getEnv name).map fun value => (name, value)

def isFileThere (path : String) : IO Bool := do
  try
    let _ ← IO.FS.readBinFile path
    return true
  catch _ => return false

/-- The headers that a request names, and the directory that it writes to. -/
def treeOf (request : CommandLine.Request) : IO Tree := do
  match request with
  | .docs request =>
      let headers ← request.headers.filterM isFileThere
      let paths := if request.output.isEmpty then headers else headers ++ [request.output]
      let tree :=
        paths.foldl (fun tree path => (tree.makeDirectories (Path.parent path).toList).1) {}
      return headers.foldl
        (fun tree path => (tree.writeFile path (.text "")).toOption.getD tree) tree
  | _ => return {}

def readWorkspace (request : CommandLine.Request) : IO Workspace := do
  let tree ← treeOf request
  let unparsed : Header := { loadError := some "no parser is attached" }
  return {
    tree := tree
    headers := tree.listing.foldl (fun headers entry => headers.insert entry.1 unparsed) {}
    environment := ← readEnvironment
    processors := none
    outcomes := List.replicate 64 .missing }

def writeOutput (request : CommandLine.Request) (tree : Tree) : IO Unit := do
  match request with
  | .docs request =>
      if !request.output.isEmpty then
        if let .ok (.text page) := tree.readFile request.output then
          IO.FS.writeFile request.output page
  | _ => return ()

def perform (words : List String) (request : CommandLine.Request) : IO UInt32 := do
  match CommandLine.run (← readWorkspace request) words with
  | .error stop => return stop.code.toUInt32
  | .ok ended =>
      match ended.code with
      | .error failure =>
          IO.eprintln (ended.errors ++ failure.message)
          return 1
      | .ok code =>
          writeOutput request ended.workspace.tree
          IO.eprint ended.errors
          IO.print ended.output
          return code.toUInt32

end HeaderDocs

def main (words : List String) : IO UInt32 := do
  match HeaderDocs.CommandLine.readInvocation words with
  | .error stop =>
      IO.eprintln "usage: headerdocs [-h] [-v] (docs | flags | build) ..."
      return stop.code.toUInt32
  | .ok invocation => HeaderDocs.perform words invocation.request
