import HeaderDocs.Build.Feature
import HeaderDocs.Text.Find

/-!
The configuration of a build and what follows from it: the defines and flags for the compiler, the
arguments for make, and the settings of the other build system.
-/

namespace HeaderDocs.Build

structure Config where
  features : List String := []
  targetFeatures : List String := []
  profile : String := "debug"
  target : String := ""
  jobs : Option Int := none
  toolset : String := ""
deriving DecidableEq, Repr

/-- A define for the compiler; one without a value is only named. -/
structure Define where
  name : String
  value : Option String
deriving DecidableEq, Repr

def Define.flag (define : Define) : String :=
  match define.value with
  | none => "-D" ++ define.name
  | some value => "-D" ++ define.name ++ "=" ++ value

namespace Config

def enabled (config : Config) (feature : String) : Bool :=
  config.features.contains feature

def hasSet (config : Config) (set : InstructionSet) : Bool :=
  config.targetFeatures.contains set.feature

def disabledCapabilities (config : Config) : List String :=
  (capabilities.filter fun capability => !config.enabled capability.1).map fun capability =>
    "FZ_ENABLE_" ++ capability.2

def fontsLeftOut (config : Config) : List String :=
  if config.enabled "all-fonts" then [] else skippedFonts

def defines (config : Config) : List Define :=
  (config.disabledCapabilities.map fun name => ⟨name, some "0"⟩) ++
    (config.fontsLeftOut.map fun font => ⟨font, none⟩) ++
    instructionSets.filterMap fun set =>
      set.define.map fun name => ⟨name, some (if config.hasSet set then "1" else "0")⟩

def compilerFlags (config : Config) : List String :=
  (instructionSets.filter config.hasSet).map InstructionSet.compilerFlag

def cflags (config : Config) (base : String) : String :=
  String.intercalate " "
    ((if base.isEmpty then [] else [base]) ++ config.compilerFlags ++
      config.defines.map Define.flag)

def takesLibrary (config : Config) (library : SystemLibrary) : Bool :=
  (library.requires.all fun component => config.enabled component) &&
    (library.always || (library.inBlanket && config.enabled blanketFeature) || config.enabled
      library.feature)

def libraries (config : Config) : List SystemLibrary :=
  systemLibraries.filter config.takesLibrary

def packages (config : Config) : List String :=
  config.libraries.flatMap SystemLibrary.packages

def librarySettings (includeFlags : String → String) (library : SystemLibrary) : List String :=
  ("USE_SYSTEM_" ++ library.setting ++ "=yes") ::
    library.packages.map fun package => "SYS_" ++ library.setting ++ "_CFLAGS=" ++
      includeFlags package

def makeFlags (config : Config) (out : String) (includeFlags : String → String) : List String :=
  ["libs", "build=" ++ config.profile, "OUT=" ++ out] ++
    ((optionalComponents.filter fun component => !config.enabled component.1).map fun component =>
      "USE_" ++ component.2 ++ "=no") ++
    (if config.enabled blanketFeature then ["USE_SYSTEM_LIBS=yes"] else []) ++
    ["HAVE_X11=no", "HAVE_GLUT=no", "HAVE_CURL=no", "verbose=yes"] ++
    ((instructionSets.filter config.hasSet).map fun set => set.setting ++ "=yes") ++
    config.libraries.flatMap (librarySettings includeFlags) ++
    match config.jobs with
    | none => []
    | some jobs => if jobs = 0 then [] else ["-j" ++ toString jobs]

def solutionConfiguration (config : Config) : String :=
  if config.profile = "release" then "Release" else "Debug"

def solutionPlatform (config : Config) : String :=
  if Text.contains "x86_64".toList config.target.toList then "x64" else "Win32"

def solutionOptions (config : Config) : List String :=
  (config.fontsLeftOut.map ("/D" ++ ·)) ++
    (config.disabledCapabilities.map fun name => "/D" ++ name ++ "#0") ++
    ["/MP"]

end Config

end HeaderDocs.Build
