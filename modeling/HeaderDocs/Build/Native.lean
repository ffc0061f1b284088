import HeaderDocs.Build.Config
import HeaderDocs.Build.LinkSpec
import HeaderDocs.Build.Stage
import HeaderDocs.Text.Blank
import HeaderDocs.Workspace

/-!
The native build. The source is staged into the output directory; then make is started with the
flags of the configuration, or the other build system on targets that need it. The include flags of
system libraries are asked for before make is started, one package after another.
-/

namespace HeaderDocs.Build

/-- Where the include flags of packages come from: a program that is asked, or an answer at hand. -/
inductive PackageSource where
  | program
  | known (includeFlags : String → String)

def packageQuery (package : String) : Command :=
  { arguments := ["pkg-config", "--cflags-only-I", package] }

def askPackage (workspace : Workspace) (package : String) : Workspace × Except Failure String :=
  match workspace.start (packageQuery package) with
  | (workspace, .missing) => (workspace, .error .packageToolMissing)
  | (workspace, .finished code output errors) =>
      if code = 0 then (workspace, .ok (Text.strip output))
      else (workspace, .error (.packageUnknown package (Text.strip errors)))

/-- The include flags of packages, in order, up to the first that fails. -/
def askPackages : Workspace → List String → Workspace × Except Failure (Index String String)
  | workspace, [] => (workspace, .ok {})
  | workspace, package :: packages =>
      match askPackage workspace package with
      | (workspace, .error failure) => (workspace, .error failure)
      | (workspace, .ok flags) =>
          match askPackages workspace packages with
          | (workspace, .error failure) => (workspace, .error failure)
          | (workspace, .ok answers) => (workspace, .ok (answers.insert package flags))

def includeFlags (workspace : Workspace) (config : Config) (packages : PackageSource) :
    Workspace × Except Failure (String → String) :=
  match packages with
  | .known answer => (workspace, .ok answer)
  | .program =>
      match askPackages workspace config.packages with
      | (workspace, .error failure) => (workspace, .error failure)
      | (workspace, .ok answers) => (workspace, .ok fun package => (answers.find? package).getD "")

def makeProgram (platform : String) : String :=
  if ["freebsd", "openbsd", "netbsd"].any fun system =>
    Text.startsWith system.toList platform.toList then
    "gmake"
  else "make"

def runBuild (workspace : Workspace) (program : String) (arguments : List String)
    (directory : String) (options : Option String) : Workspace × Option Failure :=
  let shown := String.intercalate " " ((program :: arguments).take 2)
  let workspace := workspace.note .info ("running " ++ shown ++ " in " ++ directory)
  match workspace.start
    { arguments := program :: arguments, directory := some directory, options := options } with
  | (workspace, .missing) => (workspace, some (.programMissing program))
  | (workspace, .finished code _ _) =>
      (workspace, if code = 0 then none else some (.programFailed code))

def prepare (workspace : Workspace) (source directory : String) : Workspace × Option Failure :=
  match workspace.tree.makeDirectories directory.toList with
  | (tree, some failure) => (workspace.withTree tree, some failure)
  | (tree, none) =>
      let (tree, failure) := stage tree source directory defaultExclude
      (workspace.withTree tree, failure)

/-- A compiler: the one asked for, else the one that the environment names, else a default. -/
def compiler (environment : Environment) (asked : Option String)
    (variableName fallback : String) : String :=
  let given := asked.getD ""
  if given.isEmpty then (environment.lookup variableName).getD fallback else given

def forwardSlashes (path : String) : String :=
  String.ofList (path.toList.map fun c => if c = '\\' then '/' else c)

structure Compilers where
  cc : Option String := none
  cxx : Option String := none

def makeArguments (config : Config) (environment : Environment) (compilers : Compilers)
    (directory : String) (includeFlags : String → String) : List String :=
  config.makeFlags directory includeFlags ++
    ["CC=" ++ compiler environment compilers.cc "CC" "cc",
      "CXX=" ++ compiler environment compilers.cxx "CXX" "c++",
      "XCFLAGS=" ++ config.cflags (environment.value "CFLAGS"),
      "XCXXFLAGS=" ++ config.cflags (environment.value "CXXFLAGS")]

def buildWithMake (workspace : Workspace) (config : Config) (source out : String)
    (compilers : Compilers) (packages : PackageSource) : Workspace × Except Failure LinkSpec :=
  let directory := Path.join out "build"
  match prepare workspace source directory with
  | (workspace, some failure) => (workspace, .error failure)
  | (workspace, none) =>
      match includeFlags workspace config packages with
      | (workspace, .error failure) => (workspace, .error failure)
      | (workspace, .ok flags) =>
          let shown := forwardSlashes directory
          let arguments := makeArguments config workspace.environment compilers shown flags
          match runBuild workspace (makeProgram workspace.platform) arguments shown none with
          | (workspace, some failure) => (workspace, .error failure)
          | (workspace, none) =>
              (workspace,
                .ok { searchPaths := [shown], staticLibraries := ["mupdf", "mupdf-third"] })

def solutionArguments (config : Config) : List String :=
  ["platform\\win32\\mupdf.sln", "/target:libmupdf",
    "/p:Configuration=" ++ config.solutionConfiguration,
    "/p:Platform=" ++ config.solutionPlatform,
    "/p:PlatformToolset=" ++ if config.toolset.isEmpty then "v143" else config.toolset]

def solutionLinks (config : Config) (directory : String) : LinkSpec :=
  let base := Path.join (Path.join directory "platform") "win32"
  let base :=
    if config.solutionPlatform = "x64" then Path.join base config.solutionPlatform else base
  { searchPaths := [Path.join base config.solutionConfiguration]
    dynamicLibraries :=
      (if config.solutionConfiguration = "Debug" then ["ucrtd", "vcruntimed", "msvcrtd"] else []) ++
        ["libmupdf", "libthirdparty"] }

/-- The library built from the solution, after the staged source has been mended. -/
def buildSolution (workspace : Workspace) (config : Config) (source out program : String) :
    Workspace × Except Failure LinkSpec :=
  let directory := Path.join out "build"
  match prepare workspace source directory with
  | (workspace, some failure) => (workspace, .error failure)
  | (workspace, none) =>
      match patchGeometry workspace.tree directory with
      | .error failure => (workspace, .error failure)
      | .ok tree =>
          let options := String.intercalate " " config.solutionOptions
          match runBuild (workspace.withTree tree) program (solutionArguments config) directory
            (some options) with
          | (workspace, some failure) => (workspace, .error failure)
          | (workspace, none) => (workspace, .ok (solutionLinks config directory))

end HeaderDocs.Build
