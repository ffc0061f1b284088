import HeaderDocs.Build.Config
import HeaderDocs.Failure
import HeaderDocs.Text.Find
import HeaderDocs.Text.Integer

/-!
The configuration that a set of environment variables describes. Features come from variables of
their own and from a list; names that mean nothing are noted and left out.
-/

namespace HeaderDocs.Build

abbrev Environment := List (String × String)

namespace Environment

def value (environment : Environment) (name : String) : String :=
  (environment.lookup name).getD ""

def featureMark : String :=
  "CARGO_FEATURE_"

def commaParts (text : String) : List String :=
  (text.toList.splitOn ',').map String.ofList

def switchedFeatures (environment : Environment) : List String :=
  environment.filterMap fun entry =>
    match Text.dropStart? featureMark.toList entry.1.toList with
    | some name => if entry.2.isEmpty then none else some (normalizeFeature (String.ofList name))
    | none => none

def listedFeatures (environment : Environment) : List String :=
  ((commaParts (environment.value "FZBIND_FEATURES")).filter fun name =>
    !(Text.strip name).isEmpty).map
    normalizeFeature

def namedFeatures (environment : Environment) : List String :=
  environment.switchedFeatures ++ environment.listedFeatures

def features (environment : Environment) : List String :=
  knownFeatures.filter fun feature => environment.namedFeatures.contains feature

def textOrder (first second : String) : Bool :=
  !(second < first)

/-- The names that mean nothing, each once, in order. -/
def unknownFeatures (environment : Environment) : List String :=
  ((environment.namedFeatures.filter fun name => !knownFeatures.contains name).eraseDups).mergeSort
    textOrder

def notices (environment : Environment) : List Notice :=
  environment.unknownFeatures.map fun name =>
    ⟨.warning, "ignoring unknown feature " ++ Text.quoted name⟩

def targetFeatures (environment : Environment) : List String :=
  ((commaParts (environment.value "CARGO_CFG_TARGET_FEATURE")).filter fun name =>
    !name.isEmpty).eraseDups

/-- The profile: benchmarks are built like releases and everything else for debugging. -/
def profile (environment : Environment) : String :=
  if environment.value "PROFILE" ∈ ["bench", "release"] then "release" else "debug"

/-- The number of jobs, unless a variable that should hold it does not; without such a variable, the
number of processors. -/
def jobs (environment : Environment) (processors : Option Int) : Except Failure (Option Int) :=
  let asked := environment.value "FZBIND_JOBS"
  let text := if asked.isEmpty then environment.value "NUM_JOBS" else asked
  if text.isEmpty then .ok processors
  else
    match Text.integerOf? text.toList with
    | some jobs => .ok (some jobs)
    | none => .error (.notANumber text)

def config (environment : Environment) (processors : Option Int) : Except Failure Config :=
  match environment.jobs processors with
  | .error failure => .error failure
  | .ok jobs =>
      .ok
        { features := environment.features
          targetFeatures := environment.targetFeatures
          profile := environment.profile
          target := environment.value "TARGET"
          jobs := jobs
          toolset := environment.value "MUPDF_MSVC_PLATFORM_TOOLSET" }

end Environment

end HeaderDocs.Build
