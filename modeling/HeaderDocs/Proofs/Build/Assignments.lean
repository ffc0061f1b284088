import HeaderDocs.Build.Native
import Mathlib.Data.List.Basic
import Mathlib.Data.List.Flatten
import Mathlib.Data.List.Nodup
import Mathlib.Data.List.TakeWhile

/-!
The variables that the arguments for make assign. Make keeps the last assignment of a variable, so
that each earlier one is lost. No two settings share a variable but those that a library has for
several packages: of its include flags, only the last package's are kept.
-/

namespace HeaderDocs.Build

set_option autoImplicit false

variable {argument name value : String} {config : Config} {library : SystemLibrary}
    {includeFlags : String → String}

/-- The variable that an argument assigns, before its first equals sign, and the value behind it. -/
def assignment? (argument : String) : Option (String × String) :=
  match argument.toList.dropWhile (· != '=') with
  | [] => none
  | _ :: value => some (String.ofList (argument.toList.takeWhile (· != '=')), String.ofList value)

def assignments (arguments : List String) : List (String × String) :=
  arguments.filterMap assignment?

def assignedVariables (arguments : List String) : List String :=
  (assignments arguments).map Prod.fst

/-- The value that make keeps for a variable, which is the last one assigned. -/
def keptValue (arguments : List String) (name : String) : Option String :=
  (assignments arguments).reverse.lookup name

theorem assignment_of_append (plain : '=' ∉ name.toList) :
    assignment? (name ++ "=" ++ value) = some (name, value) := by
  have before : ∀ c ∈ name.toList, (c != '=') = true := by
    intro c member
    rw [bne_iff_ne]
    rintro rfl
    exact plain member
  have sign : "=".toList = ['='] := by decide
  simp [assignment?, sign, List.dropWhile_append_of_pos before, List.takeWhile_append_of_pos before]

theorem assignment_of_plain (plain : '=' ∉ argument.toList) : assignment? argument = none := by
  have none : argument.toList.dropWhile (· != '=') = [] := by
    rw [List.dropWhile_eq_nil_iff]
    intro c member
    rw [bne_iff_ne]
    rintro rfl
    exact plain member
  rw [assignment?, none]

theorem number_plain (number : Int) : '=' ∉ (toString number).toList := by
  have digits (value : Nat) : '=' ∉ (toString value).toList := by
    intro member
    rw [Nat.toString_eq_repr, Nat.repr, String.toList_ofList] at member
    exact absurd (Nat.isDigit_of_mem_toDigits (by decide) (by decide) member) (by decide)
  cases number with
  | ofNat value => exact digits value
  | negSucc value =>
      have split : toString (Int.negSucc value) = "-" ++ toString (value + 1) := rfl
      rw [split, String.toList_append, List.mem_append, not_or]
      exact ⟨by decide, digits (value + 1)⟩

theorem assignment_behind {mark : String} (sign : mark = name ++ "=") (plain : '=' ∉ name.toList) :
    assignment? (mark ++ value) = some (name, value) :=
  sign ▸ assignment_of_append plain

theorem assignment_before {setting : String} (sign : setting = "=" ++ value)
    (plain : '=' ∉ name.toList) :
    assignment? (name ++ setting) = some (name, value) := by
  rw [sign, ← String.append_assoc, assignment_of_append plain]

def SystemLibrary.flagsVariable (library : SystemLibrary) : String :=
  "SYS_" ++ library.setting ++ "_CFLAGS"

def libraryAssignments (includeFlags : String → String)
    (library : SystemLibrary) : List (String × String) :=
  ("USE_SYSTEM_" ++ library.setting, "yes") ::
    library.packages.map fun package => (library.flagsVariable, includeFlags package)

theorem assignments_of_map {α : Type} {items : List α} {argument : α → String}
    {pair : α → String × String}
    (each : ∀ item ∈ items, assignment? (argument item) = some (pair item)) :
    assignments (items.map argument) = items.map pair := by
  rw [assignments, List.filterMap_map, ← List.filterMap_eq_map]
  exact List.filterMap_congr each

theorem assignments_append (first second : List String) :
    assignments (first ++ second) = assignments first ++ assignments second :=
  List.filterMap_append

theorem assignments_of_library (known : library ∈ systemLibraries) :
    assignments (Config.librarySettings includeFlags library) =
      libraryAssignments includeFlags library := by
  have plain : ∀ library ∈ systemLibraries, '=' ∉ ("USE_SYSTEM_" ++ library.setting).toList ∧
      '=' ∉ library.flagsVariable.toList := by decide
  have sign : "_CFLAGS=" = "_CFLAGS" ++ "=" := by decide
  have switch : assignment? ("USE_SYSTEM_" ++ library.setting ++ "=yes") =
      some ("USE_SYSTEM_" ++ library.setting, "yes") :=
      assignment_before (by decide) (plain library known).1
  have flags : assignments (library.packages.map fun package =>
      "SYS_" ++ library.setting ++ "_CFLAGS=" ++ includeFlags package) =
        library.packages.map fun package => (library.flagsVariable, includeFlags package) :=
    assignments_of_map fun package _ =>
      assignment_behind (by rw [SystemLibrary.flagsVariable, sign, ← String.append_assoc])
        (plain library known).2
  rw [assignments, Config.librarySettings, List.filterMap_cons, switch, libraryAssignments, ← flags,
    assignments]

theorem assignments_of_libraries :
    assignments (config.libraries.flatMap (Config.librarySettings includeFlags)) =
    config.libraries.flatMap (libraryAssignments includeFlags) := by
  rw [assignments, List.filterMap_flatMap]
  exact List.flatMap_congr fun library member => assignments_of_library (List.mem_filter.1 member).1

/-- What the arguments for make assign before the settings of the libraries. -/
def firstAssignments (config : Config) (directory : String) : List (String × String) :=
  [("build", config.profile), ("OUT", directory)] ++
    ((optionalComponents.filter fun component => !config.enabled component.1).map fun component =>
      ("USE_" ++ component.2, "no")) ++
    (if config.enabled blanketFeature then [("USE_SYSTEM_LIBS", "yes")] else []) ++
    [("HAVE_X11", "no"), ("HAVE_GLUT", "no"), ("HAVE_CURL", "no"), ("verbose", "yes")] ++
    (instructionSets.filter config.hasSet).map fun set => (set.setting, "yes")

theorem assignments_of_first (config : Config) (directory : String) :
    assignments (["libs", "build=" ++ config.profile, "OUT=" ++ directory] ++
      ((optionalComponents.filter fun component => !config.enabled component.1).map fun component =>
        "USE_" ++ component.2 ++ "=no") ++
      (if config.enabled blanketFeature then ["USE_SYSTEM_LIBS=yes"] else []) ++
      ["HAVE_X11=no", "HAVE_GLUT=no", "HAVE_CURL=no", "verbose=yes"] ++
      (instructionSets.filter config.hasSet).map fun set => set.setting ++ "=yes") =
        firstAssignments config directory := by
  have places : assignments ["libs", "build=" ++ config.profile, "OUT=" ++ directory] =
      [("build", config.profile), ("OUT", directory)] := by
    have target : assignment? "libs" = none := assignment_of_plain (by decide)
    have profile : assignment? ("build=" ++ config.profile) = some ("build", config.profile) :=
      assignment_behind (by decide) (by decide)
    have place : assignment? ("OUT=" ++ directory) = some ("OUT", directory) :=
      assignment_behind (by decide) (by decide)
    simp only [assignments, List.filterMap_cons, target, profile, place, List.filterMap_nil]
  have components :
      assignments ((optionalComponents.filter fun component => !config.enabled component.1).map
          fun component => "USE_" ++ component.2 ++ "=no") =
        (optionalComponents.filter fun component => !config.enabled component.1).map
          fun component => ("USE_" ++ component.2, "no") := by
    have plain : ∀ component ∈ optionalComponents, '=' ∉ ("USE_" ++ component.2).toList := by decide
    exact assignments_of_map fun component member =>
      assignment_before (by decide) (plain component (List.mem_filter.1 member).1)
  have blanket :
      assignments (if config.enabled blanketFeature then ["USE_SYSTEM_LIBS=yes"] else []) =
      if config.enabled blanketFeature then [("USE_SYSTEM_LIBS", "yes")] else [] := by
    split
    · decide
    · rfl
  have fixed : assignments ["HAVE_X11=no", "HAVE_GLUT=no", "HAVE_CURL=no", "verbose=yes"] =
      [("HAVE_X11", "no"), ("HAVE_GLUT", "no"), ("HAVE_CURL", "no"), ("verbose", "yes")] :=
      by decide
  have sets :
      assignments ((instructionSets.filter config.hasSet).map fun set => set.setting ++ "=yes") =
      (instructionSets.filter config.hasSet).map fun set => (set.setting, "yes") := by
    have plain : ∀ set ∈ instructionSets, '=' ∉ set.setting.toList := by decide
    exact assignments_of_map fun set member =>
      assignment_before (by decide) (plain set (List.mem_filter.1 member).1)
  simp only [assignments_append, places, components, blanket, fixed, sets, firstAssignments]

theorem assignments_of_jobs (jobs : Int) :
    assignments (if jobs = 0 then [] else ["-j" ++ toString jobs]) = [] := by
  have plain : '=' ∉ ("-j" ++ toString jobs).toList := by
    rw [String.toList_append, List.mem_append, not_or]
    exact ⟨by decide, number_plain jobs⟩
  split
  · rfl
  · simp only [assignments, List.filterMap_cons, assignment_of_plain plain, List.filterMap_nil]

theorem assignments_of_compilers (cc cxx cFlags cxxFlags : String) :
    assignments ["CC=" ++ cc, "CXX=" ++ cxx, "XCFLAGS=" ++ cFlags, "XCXXFLAGS=" ++ cxxFlags] =
      [("CC", cc), ("CXX", cxx), ("XCFLAGS", cFlags), ("XCXXFLAGS", cxxFlags)] := by
  have first : assignment? ("CC=" ++ cc) = some ("CC", cc) :=
    assignment_behind (by decide) (by decide)
  have second : assignment? ("CXX=" ++ cxx) = some ("CXX", cxx) :=
    assignment_behind (by decide) (by decide)
  have third : assignment? ("XCFLAGS=" ++ cFlags) = some ("XCFLAGS", cFlags) :=
    assignment_behind (by decide) (by decide)
  have fourth : assignment? ("XCXXFLAGS=" ++ cxxFlags) = some ("XCXXFLAGS", cxxFlags) :=
    assignment_behind (by decide) (by decide)
  simp only [assignments, List.filterMap_cons, first, second, third, fourth, List.filterMap_nil]

section Arguments

variable {environment : Environment} {compilers : Compilers} {directory : String}

/-- What the arguments for make assign behind the settings of the libraries. -/
def lastAssignments (config : Config) (environment : Environment)
    (compilers : Compilers) : List (String × String) :=
  [("CC", compiler environment compilers.cc "CC" "cc"),
    ("CXX", compiler environment compilers.cxx "CXX" "c++"),
    ("XCFLAGS", config.cflags (environment.value "CFLAGS")),
    ("XCXXFLAGS", config.cflags (environment.value "CXXFLAGS"))]

theorem assignments_of_arguments :
    assignments (makeArguments config environment compilers directory includeFlags) =
    firstAssignments config directory ++
      config.libraries.flatMap (libraryAssignments includeFlags) ++
      lastAssignments config environment compilers := by
  rw [makeArguments, Config.makeFlags, lastAssignments]
  cases config.jobs with
  | none =>
      rw [assignments_append, assignments_of_compilers, List.append_nil, assignments_append,
        assignments_of_first, assignments_of_libraries]
  | some jobs =>
      rw [assignments_append, assignments_of_compilers, assignments_append, assignments_of_jobs,
        List.append_nil, assignments_append, assignments_of_first, assignments_of_libraries]

def firstVariables : List String :=
  ["build", "OUT"] ++ (optionalComponents.map fun component => "USE_" ++ component.2) ++
    ["USE_SYSTEM_LIBS"] ++
    ["HAVE_X11", "HAVE_GLUT", "HAVE_CURL", "verbose"] ++ instructionSets.map InstructionSet.setting

def libraryVariables (library : SystemLibrary) : List String :=
  ["USE_SYSTEM_" ++ library.setting, library.flagsVariable]

def everyVariable : List String :=
  firstVariables ++ systemLibraries.flatMap libraryVariables ++
    ["CC", "CXX", "XCFLAGS", "XCXXFLAGS"]

theorem every_variable_distinct : everyVariable.Nodup := by decide +kernel

theorem first_variables_sublist (config : Config) (directory : String) :
    ((firstAssignments config directory).map Prod.fst).Sublist firstVariables := by
  have blanket :
      ((if config.enabled blanketFeature then [("USE_SYSTEM_LIBS", "yes")] else []).map
      Prod.fst).Sublist
      ["USE_SYSTEM_LIBS"] := by
    split
    · exact List.Sublist.refl _
    · exact List.nil_sublist _
  simp only [firstAssignments, List.map_append, List.map_map, Function.comp_def]
  exact ((((List.Sublist.refl _).append (List.filter_sublist.map _)).append blanket).append
    (List.Sublist.refl _)).append (List.filter_sublist.map _)

theorem variables_of_library : (libraryAssignments includeFlags library).map Prod.fst =
    ("USE_SYSTEM_" ++ library.setting) ::
      List.replicate library.packages.length library.flagsVariable := by
  simp [libraryAssignments, Function.comp_def]

theorem library_variables_sublist
    (single : ∀ library ∈ config.libraries, library.packages.length ≤ 1) :
    ((config.libraries.flatMap (libraryAssignments includeFlags)).map Prod.fst).Sublist
      (systemLibraries.flatMap libraryVariables) := by
  rw [List.map_flatMap]
  refine (List.Sublist.flatMap_right _ fun library member => ?_).trans
    (List.filter_sublist.flatMap _)
  rw [variables_of_library]
  refine List.Sublist.cons_cons _ ?_
  rw [← List.replicate_one, List.replicate_sublist_replicate]
  exact single library member

theorem variables_sublist (single : ∀ library ∈ config.libraries, library.packages.length ≤ 1) :
    (assignedVariables (makeArguments config environment compilers directory includeFlags)).Sublist
      everyVariable := by
  rw [assignedVariables, assignments_of_arguments, List.map_append, List.map_append]
  exact ((first_variables_sublist config directory).append
    (library_variables_sublist single)).append (List.Sublist.refl _)

theorem packages_of_distinct
    (distinct : (assignedVariables
      (makeArguments config environment compilers directory includeFlags)).Nodup) :
    ∀ library ∈ config.libraries, library.packages.length ≤ 1 := by
  intro library member
  rw [assignedVariables, assignments_of_arguments, List.map_append, List.map_append,
    List.map_flatMap] at distinct
  have libraries := (List.nodup_append.1 (List.nodup_append.1 distinct).1).2.1
  have own := (List.nodup_flatMap.1 libraries).1 library member
  rw [variables_of_library, List.nodup_cons] at own
  exact List.nodup_replicate.1 own.2

theorem kept_of_last {arguments : List String} {front back : List (String × String)}
    (split : assignments arguments = front ++ (name, value) :: back)
    (later : name ∉ back.map Prod.fst) :
    keptValue arguments name = some value := by
  have absent : back.reverse.lookup name = none := by
    rw [List.lookup_eq_none_iff]
    intro entry member
    rw [bne_iff_ne]
    rintro rfl
    exact later (List.mem_map_of_mem (List.mem_reverse.1 member))
  rw [keptValue, split, List.reverse_append, List.reverse_cons, List.append_assoc,
    List.lookup_append, absent, Option.none_or, List.singleton_append, List.lookup_cons_self]

theorem flags_variable_own {other : SystemLibrary} (known : library ∈ systemLibraries)
    (otherKnown : other ∈ systemLibraries) (differs : other ≠ library) :
    library.flagsVariable ∉ (libraryAssignments includeFlags other).map Prod.fst := by
  have apart : ∀ library ∈ systemLibraries, ∀ other ∈ systemLibraries, other ≠ library →
      library.flagsVariable ≠ "USE_SYSTEM_" ++ other.setting ∧
        library.flagsVariable ≠ other.flagsVariable := by
    decide +kernel
  obtain ⟨notSwitch, notFlags⟩ := apart library known other otherKnown differs
  rw [variables_of_library, List.mem_cons, not_or]
  exact ⟨notSwitch, fun member => notFlags (List.eq_of_mem_replicate member)⟩

theorem libraries_distinct (config : Config) : config.libraries.Nodup := by
  have all : systemLibraries.Nodup := by decide
  exact all.sublist List.filter_sublist

theorem kept_flags {package : String} (taken : library ∈ config.libraries)
    (last : library.packages.getLast? = some package) :
    keptValue (makeArguments config environment compilers directory includeFlags)
      library.flagsVariable =
      some (includeFlags package) := by
  have compilersApart : ∀ library ∈ systemLibraries,
      library.flagsVariable ∉ ["CC", "CXX", "XCFLAGS", "XCXXFLAGS"] := by decide +kernel
  have known : ∀ other ∈ config.libraries, other ∈ systemLibraries :=
    fun other member => (List.mem_filter.1 member).1
  obtain ⟨before, after, split⟩ := List.append_of_mem taken
  obtain ⟨front, packages⟩ := List.getLast?_eq_some_iff.1 last
  have own : libraryAssignments includeFlags library = (("USE_SYSTEM_" ++ library.setting, "yes") ::
      front.map fun package => (library.flagsVariable, includeFlags package)) ++
        [(library.flagsVariable, includeFlags package)] := by
    rw [libraryAssignments, packages, List.map_append]
    rfl
  have later :
      library.flagsVariable ∉ (after.flatMap (libraryAssignments includeFlags)).map Prod.fst := by
    rw [List.map_flatMap, List.mem_flatMap]
    rintro ⟨other, member, assigned⟩
    have distinct := libraries_distinct config
    rw [split, List.nodup_middle, List.nodup_cons] at distinct
    have differs : other ≠ library :=
      fun same => distinct.1 (List.mem_append_right _ (same ▸ member))
    have inLibraries : other ∈ config.libraries := by
      rw [split]
      exact List.mem_append_right _ (List.mem_cons_of_mem _ member)
    exact flags_variable_own (known library taken) (known other inLibraries) differs assigned
  have whole : assignments (makeArguments config environment compilers directory includeFlags) =
      (firstAssignments config directory ++ before.flatMap (libraryAssignments includeFlags) ++
        ("USE_SYSTEM_" ++ library.setting, "yes") ::
          front.map fun package => (library.flagsVariable, includeFlags package)) ++
        (library.flagsVariable, includeFlags package) ::
          (after.flatMap (libraryAssignments includeFlags) ++
            lastAssignments config environment compilers) := by
    rw [assignments_of_arguments, split, List.flatMap_append, List.flatMap_cons, own]
    simp only [List.append_assoc, List.cons_append, List.nil_append]
  refine kept_of_last whole ?_
  rw [List.map_append, List.mem_append, not_or]
  exact ⟨later, compilersApart library (known library taken)⟩

/-- Each variable is assigned once exactly if no library with several packages is taken. Whatever is
taken, make keeps for each library the include flags of its last package. -/
theorem variables_assigned_once_iff (config : Config) (environment : Environment)
    (compilers : Compilers) (directory : String) (includeFlags : String → String) :
    ((assignedVariables (makeArguments config environment compilers directory includeFlags)).Nodup ↔
        ∀ library ∈ config.libraries, library.packages.length ≤ 1) ∧
      ∀ library ∈ config.libraries, ∀ package ∈ library.packages.getLast?,
        keptValue (makeArguments config environment compilers directory includeFlags)
          library.flagsVariable = some (includeFlags package) :=
  ⟨⟨packages_of_distinct, fun single => every_variable_distinct.sublist (variables_sublist single)⟩,
    fun _ taken _ last => kept_flags taken last⟩

theorem component_libraries_assigned_once :
    let config : Config :=
      { features := ["tesseract", "sys-lib-leptonica", "sys-lib-zlib"], jobs := some 4 }
    let arguments := makeArguments config [("CC", "clang")] {} "out/build" ("-I/opt/" ++ ·)
    config.packages = ["zlib", "lept"] ∧ (assignedVariables arguments).Nodup ∧
      keptValue arguments "SYS_LEPTONICA_CFLAGS" = some "-I/opt/lept" := by
  intro config arguments
  obtain ⟨once, kept⟩ :=
    variables_assigned_once_iff config [("CC", "clang")] {} "out/build" ("-I/opt/" ++ ·)
  have leptonica : ∃ library ∈ config.libraries, library.flagsVariable = "SYS_LEPTONICA_CFLAGS" ∧
      library.packages.getLast? = some "lept" := by decide
  obtain ⟨library, taken, variableName, last⟩ := leptonica
  exact ⟨by decide, once.2 (by decide), variableName ▸ kept library taken "lept" last⟩

/-- Brotli has two packages and one variable, so that the flags of the first are lost. -/
theorem brotli_flags_overridden :
    let config : Config := { features := ["sys-lib-brotli"] }
    let arguments := makeArguments config [] {} "out/build" ("-I/opt/" ++ ·)
    config.packages = ["libbrotlidec", "libbrotlienc"] ∧ ¬(assignedVariables arguments).Nodup ∧
      keptValue arguments "SYS_BROTLI_CFLAGS" = some "-I/opt/libbrotlienc" := by
  intro config arguments
  have brotli : ∃ library ∈ config.libraries, ¬library.packages.length ≤ 1 ∧
      library.flagsVariable = "SYS_BROTLI_CFLAGS" ∧
      library.packages.getLast? = some "libbrotlienc" := by decide
  obtain ⟨library, taken, several, variableName, last⟩ := brotli
  exact ⟨by decide, fun distinct => several (packages_of_distinct distinct library taken),
    variableName ▸ kept_flags taken last⟩

end Arguments

end HeaderDocs.Build
