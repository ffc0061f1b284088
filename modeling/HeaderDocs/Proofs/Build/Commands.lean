import HeaderDocs.Build.Native
import Mathlib.Data.List.Basic
import Mathlib.Data.List.Flatten

/-!
What a build starts, and where it stops. Programs are started one after another up to the first that
fails, and only a run that goes through has a successor: the include flags of packages are asked for
in such a run, and make comes behind it.
-/

namespace HeaderDocs

set_option autoImplicit false

/-- What comes of a program that is not there or fails. -/
inductive Failure.OfProgram : Failure → Prop where
  | toolMissing : OfProgram .packageToolMissing
  | packageUnknown (package output : String) : OfProgram (.packageUnknown package output)
  | programMissing (program : String) : OfProgram (.programMissing program)
  | programFailed {code : Int} (nonzero : code ≠ 0) : OfProgram (.programFailed code)

theorem Failure.OfProgram.reported {failure : Failure} (ofProgram : failure.OfProgram) :
    failure.isReported := by
  cases ofProgram <;> rfl

namespace RunResult

/-- The program was there and ended with exit code zero. -/
def succeeded : RunResult → Bool
  | missing => false
  | finished code _ _ => code = 0

def trimmedOutput : RunResult → String
  | missing => ""
  | finished _ output _ => Text.strip output

end RunResult

namespace Workspace

variable {workspace : Workspace} {command : Command} {commands : List Command}

/-- The outcome of the program that is started after a number of others. -/
def outcome (workspace : Workspace) (earlier : Nat) : RunResult :=
  workspace.outcomes.getD earlier (.finished 0 "" "")

def nextOutcomes (workspace : Workspace) (count : Nat) : List RunResult :=
  (List.range count).map workspace.outcome

def started (workspace : Workspace) (commands : List Command) : Workspace :=
  { workspace with
    commands := workspace.commands ++ commands
    outcomes := workspace.outcomes.drop commands.length }

theorem start_eq :
    workspace.start command = (workspace.started [command], workspace.outcome 0) := by
  unfold start started outcome
  cases workspace.outcomes <;> rfl

theorem started_nil : workspace.started [] = workspace := by
  simp [started]

theorem started_cons (command : Command) (commands : List Command) :
    workspace.started (command :: commands) = (workspace.started [command]).started commands := by
  simp [started]

theorem outcome_started (earlier : Nat) :
    (workspace.started commands).outcome earlier =
      workspace.outcome (commands.length + earlier) := by
  simp [started, outcome]

theorem next_outcomes_succ (command : Command) (count : Nat) :
    workspace.nextOutcomes (count + 1) = workspace.outcome 0 ::
      (workspace.started [command]).nextOutcomes count := by
  rw [nextOutcomes, List.range_succ_eq_map, List.map_cons, List.map_map, nextOutcomes]
  refine congrArg _ (List.map_congr_left fun earlier _ => ?_)
  rw [outcome_started, List.length_singleton, Nat.add_comm]
  rfl

end Workspace

namespace Build

variable {workspace : Workspace} {config : Config} {package : String} {packages : List String}

theorem ask_package_succeeded (found : (workspace.outcome 0).succeeded) :
    askPackage workspace package =
      (workspace.started [packageQuery package], .ok (workspace.outcome 0).trimmedOutput) := by
  rw [askPackage, Workspace.start_eq]
  cases result : workspace.outcome 0 with
  | missing => simp [result, RunResult.succeeded] at found
  | finished code output errors =>
      obtain rfl : code = 0 := by simpa [result, RunResult.succeeded] using found
      rfl

theorem ask_package_failed (package : String) (failed : (workspace.outcome 0).succeeded = false) :
    ∃ failure : Failure,
      askPackage workspace package = (workspace.started [packageQuery package], .error failure) ∧
        failure.OfProgram := by
  rw [askPackage, Workspace.start_eq]
  cases result : workspace.outcome 0 with
  | missing => exact ⟨_, rfl, .toolMissing⟩
  | finished code output errors =>
      have nonzero : code ≠ 0 := by simpa [result, RunResult.succeeded] using failed
      exact ⟨.packageUnknown package (Text.strip errors), by simp only [nonzero, if_false],
        .packageUnknown _ _⟩

theorem ask_packages_succeeded (found : (workspace.outcome 0).succeeded) :
    askPackages workspace (package :: packages) =
      ((askPackages (workspace.started [packageQuery package]) packages).1,
        (askPackages (workspace.started [packageQuery package]) packages).2.map fun answers =>
          answers.insert package (workspace.outcome 0).trimmedOutput) := by
  rw [askPackages, ask_package_succeeded found]
  dsimp only
  obtain ⟨after, failure | answers⟩ :=
    askPackages (workspace.started [packageQuery package]) packages <;> rfl

theorem ask_packages_failed (package : String) (packages : List String)
    (failed : (workspace.outcome 0).succeeded = false) :
    ∃ failure : Failure,
      askPackages workspace (package :: packages) =
        (workspace.started [packageQuery package], .error failure) ∧ failure.OfProgram := by
  obtain ⟨failure, asked, ofProgram⟩ := ask_package_failed package failed
  exact ⟨failure, by rw [askPackages, asked], ofProgram⟩

/-- The packages asked for: all up to and with the first whose query fails. -/
def askedPackages (workspace : Workspace) (packages : List String) : List String :=
  packages.take ((workspace.nextOutcomes packages.length).findIdx
    (fun result => !result.succeeded) + 1)

def allAnswered (workspace : Workspace) (packages : List String) : Bool :=
  (workspace.nextOutcomes packages.length).all RunResult.succeeded

theorem asked_packages_cons : askedPackages workspace (package :: packages) =
    package :: if (workspace.outcome 0).succeeded then
      askedPackages (workspace.started [packageQuery package]) packages else [] := by
  rw [askedPackages, List.length_cons, Workspace.next_outcomes_succ (packageQuery package),
    List.findIdx_cons]
  cases (workspace.outcome 0).succeeded <;> simp [askedPackages]

theorem all_answered_cons : allAnswered workspace (package :: packages) =
    ((workspace.outcome 0).succeeded && allAnswered (workspace.started [packageQuery package])
      packages) := by
  rw [allAnswered, List.length_cons, Workspace.next_outcomes_succ (packageQuery package),
    List.all_cons, allAnswered]

theorem ask_packages_started :
    (askPackages workspace packages).1 =
      workspace.started ((askedPackages workspace packages).map packageQuery) := by
  induction packages generalizing workspace with
  | nil => simp [askPackages, askedPackages, Workspace.started_nil]
  | cons package packages ih =>
      rw [asked_packages_cons]
      cases found : (workspace.outcome 0).succeeded with
      | true =>
          rw [ask_packages_succeeded found, if_pos rfl, List.map_cons]
          exact ih.trans (Workspace.started_cons _ _).symm
      | false =>
          obtain ⟨failure, asked, -⟩ := ask_packages_failed package packages found
          rw [asked]
          rfl

def queryOutput (workspace : Workspace) (packages : List String) (package : String) : String :=
  (workspace.outcome (packages.idxOf package)).trimmedOutput

/-- Where no query fails, each package is answered with what its own query prints. -/
theorem ask_packages_answered (answered : allAnswered workspace packages) :
    ∃ answers : Index String String, (askPackages workspace packages).2 = .ok answers ∧
      ∀ package ∈ packages, answers.find? package =
        some (queryOutput workspace packages package) := by
  induction packages generalizing workspace with
  | nil => exact ⟨{}, rfl, by simp⟩
  | cons package packages ih =>
      rw [all_answered_cons, Bool.and_eq_true] at answered
      obtain ⟨answers, result, outputs⟩ := ih answered.2
      refine ⟨answers.insert package (workspace.outcome 0).trimmedOutput, ?_,
        fun other member => ?_⟩
      · rw [ask_packages_succeeded answered.1, result]
        rfl
      · rw [Index.find?_insert, queryOutput]
        by_cases same : other = package
        · rw [if_pos same, same, List.idxOf_cons_self]
        · rw [if_neg same, outputs other ((List.mem_cons.1 member).resolve_left same), queryOutput,
            Workspace.outcome_started, List.idxOf_cons_ne _ (Ne.symm same), List.length_singleton,
            Nat.add_comm]

theorem ask_packages_unanswered (unanswered : allAnswered workspace packages = false) :
    ∃ failure : Failure, (askPackages workspace packages).2 = .error failure ∧
      failure.OfProgram := by
  induction packages generalizing workspace with
  | nil => simp [allAnswered, Workspace.nextOutcomes] at unanswered
  | cons package packages ih =>
      rw [all_answered_cons, Bool.and_eq_false_iff] at unanswered
      cases found : (workspace.outcome 0).succeeded with
      | true =>
          obtain ⟨failure, result, ofProgram⟩ := ih (unanswered.resolve_left (by simp [found]))
          exact ⟨failure, by rw [ask_packages_succeeded found, result]; rfl, ofProgram⟩
      | false =>
          obtain ⟨failure, asked, ofProgram⟩ := ask_packages_failed package packages found
          exact ⟨failure, by rw [asked], ofProgram⟩

theorem asked_packages_all (answered : allAnswered workspace packages) :
    askedPackages workspace packages = packages := by
  rw [askedPackages, List.findIdx_eq_length.2,
    List.take_of_length_le (by simp [Workspace.nextOutcomes])]
  simpa [allAnswered] using answered

theorem query_outputs (distinct : packages.Nodup) : packages.map (queryOutput workspace packages) =
    (workspace.nextOutcomes packages.length).map RunResult.trimmedOutput := by
  refine List.ext_getElem (by simp [Workspace.nextOutcomes]) fun position inside _ => ?_
  rw [List.length_map] at inside
  simp [queryOutput, Workspace.nextOutcomes, distinct.idxOf_getElem position inside]

theorem packages_distinct (config : Config) : config.packages.Nodup := by
  have all : (systemLibraries.flatMap SystemLibrary.packages).Nodup := by decide
  exact all.sublist (List.filter_sublist.flatMap _)

theorem include_flags_answered (answered : allAnswered workspace config.packages) :
    ∃ flags, includeFlags workspace config .program =
        (workspace.started (config.packages.map packageQuery), .ok flags) ∧
      ∀ package ∈ config.packages,
        flags package = queryOutput workspace config.packages package := by
  obtain ⟨answers, result, outputs⟩ := ask_packages_answered answered
  have asked : askPackages workspace config.packages =
      (workspace.started (config.packages.map packageQuery), .ok answers) :=
    Prod.ext (by rw [ask_packages_started, asked_packages_all answered]) result
  exact ⟨fun package => (answers.find? package).getD "", by simp only [includeFlags, asked],
    fun package member => congrArg (·.getD "") (outputs package member)⟩

theorem include_flags_unanswered (unanswered : allAnswered workspace config.packages = false) :
    ∃ failure : Failure, includeFlags workspace config .program =
        (workspace.started ((askedPackages workspace config.packages).map packageQuery),
          .error failure) ∧
      failure.OfProgram := by
  obtain ⟨failure, result, ofProgram⟩ := ask_packages_unanswered unanswered
  have asked : askPackages workspace config.packages =
      (workspace.started ((askedPackages workspace config.packages).map packageQuery),
        .error failure) :=
    Prod.ext ask_packages_started result
  exact ⟨failure, by simp only [includeFlags, asked], ofProgram⟩

theorem run_build_started {program directory : String} {arguments : List String}
    {options : Option String} :
    (runBuild workspace program arguments directory options).1.commands = workspace.commands ++
      [{ arguments := program :: arguments, directory := some directory, options := options }] ∧
    ((runBuild workspace program arguments directory options).2 = none ↔
      (workspace.outcome 0).succeeded) ∧
    ∀ failure, (runBuild workspace program arguments directory options).2 = some failure →
      failure.OfProgram := by
  simp only [runBuild, Workspace.start_eq]
  rw [show ∀ level text,
    (workspace.note level text).outcome 0 = workspace.outcome 0 from fun _ _ => rfl]
  cases workspace.outcome 0 with
  | missing => exact ⟨rfl, by simp [RunResult.succeeded], by rintro _ ⟨⟩; exact .programMissing _⟩
  | finished code output errors =>
      by_cases zero : code = 0
      · exact ⟨rfl, by simp [RunResult.succeeded, zero], by simp [zero]⟩
      · refine ⟨rfl, by simp [RunResult.succeeded, zero], fun failure same => ?_⟩
        obtain rfl : Failure.programFailed code = failure := by simpa [zero] using same
        exact .programFailed zero

theorem prepare_frame {source directory : String} :
    ∃ tree, (prepare workspace source directory).1 = workspace.withTree tree := by
  unfold prepare
  split
  · exact ⟨_, rfl⟩
  · exact ⟨_, rfl⟩

theorem make_arguments_congr {environment : Environment} {compilers : Compilers}
    {directory : String} {first second : String → String}
    (same : ∀ package ∈ config.packages, first package = second package) :
    makeArguments config environment compilers directory first =
      makeArguments config environment compilers directory second := by
  have settings : config.libraries.flatMap (Config.librarySettings first) =
      config.libraries.flatMap (Config.librarySettings second) := by
    refine List.flatMap_congr fun library member =>
      congrArg _ (List.map_congr_left fun package inLibrary => ?_)
    rw [same package (List.mem_flatMap.2 ⟨library, member, inLibrary⟩)]
  simp only [makeArguments, Config.makeFlags, settings]

section Make

variable {source out : String} {compilers : Compilers} {packages : PackageSource}
    {prepared after : Workspace}

theorem build_without_flags {failure : Failure}
    (ready : prepare workspace source (Path.join out "build") = (prepared, none))
    (asked : includeFlags prepared config packages = (after, .error failure)) :
    buildWithMake workspace config source out compilers packages = (after, .error failure) := by
  simp only [buildWithMake, ready, asked]

theorem build_with_flags {flags : String → String} (compilers : Compilers)
    (ready : prepare workspace source (Path.join out "build") = (prepared, none))
    (asked : includeFlags prepared config packages = (after, .ok flags)) :
    let directory := forwardSlashes (Path.join out "build")
    let arguments := makeArguments config after.environment compilers directory flags
    let run := runBuild after (makeProgram after.platform) arguments directory none
    (buildWithMake workspace config source out compilers packages).1 = run.1 ∧
      ((∃ spec, (buildWithMake workspace config source out compilers packages).2 = .ok spec) ↔
        run.2 = none) ∧
      ∀ failure, (buildWithMake workspace config source out compilers packages).2 = .error failure →
        run.2 = some failure := by
  simp only [buildWithMake, ready, asked]
  generalize forwardSlashes (Path.join out "build") = directory
  obtain ⟨finished, none | failure⟩ :=
    runBuild after (makeProgram after.platform)
      (makeArguments config after.environment compilers directory flags) directory none
  · exact ⟨rfl, by simp, by simp⟩
  · exact ⟨rfl, by simp, by simp⟩

/-- A text with nothing but blanks cut off at its ends, and none left there. -/
structure TrimsTo (text trimmed : String) : Prop where
  inside : ∃ front back, text.toList = front ++ trimmed.toList ++ back ∧
    (∀ c ∈ front, Text.isBlank c = true) ∧ ∀ c ∈ back, Text.isBlank c = true
  starts : ∀ c, trimmed.toList.head? = some c → Text.isBlank c = false
  ends : ∀ c, trimmed.toList.getLast? = some c → Text.isBlank c = false

theorem trims_to_strip (text : String) : TrimsTo text (Text.strip text) := by
  obtain ⟨starts, ends⟩ := Text.trim_eq_self.1 (Text.trim_again text.toList)
  refine ⟨?_, ?_, ?_⟩
  · simpa [Text.strip] using Text.trim_split text.toList
  · simpa [Text.strip] using starts
  · simpa [Text.strip] using ends

/-- The commands that ask for the include flags of packages. -/
def queries (packages : List String) : List Command :=
  packages.map fun package => { arguments := ["pkg-config", "--cflags-only-I", package] }

def makeName (platform : String) : String :=
  if "freebsd".toList <+: platform.toList ∨ "openbsd".toList <+: platform.toList ∨
      "netbsd".toList <+: platform.toList then "gmake"
  else "make"

theorem make_program_eq (platform : String) : makeProgram platform = makeName platform := by
  simp only [makeProgram, makeName, Text.startsWith, List.any_cons, List.any_nil, Bool.or_false,
    Bool.or_eq_true, List.isPrefixOf_iff_prefix]

/-- The settings of system libraries one by one, each with the include flags of its packages. -/
def settingLines (libraries : List SystemLibrary) (flags : String → String) : List String :=
  libraries.flatMap fun library =>
    ("USE_SYSTEM_" ++ library.setting ++ "=yes") ::
      library.packages.map fun package => "SYS_" ++ library.setting ++ "_CFLAGS=" ++ flags package

/-- Make as it is started behind the queries, with what they print in the settings of the
libraries. -/
def makeCommand (workspace : Workspace) (config : Config) (compilers : Compilers)
    (directory : String) : Command :=
  { arguments :=
      [makeName workspace.platform, "libs", "build=" ++ config.profile, "OUT=" ++ directory] ++
      ((optionalComponents.filter (·.1 ∉ config.features)).map fun component =>
        "USE_" ++ component.2 ++ "=no") ++
      (if "sys-lib" ∈ config.features then ["USE_SYSTEM_LIBS=yes"] else []) ++
      ["HAVE_X11=no", "HAVE_GLUT=no", "HAVE_CURL=no", "verbose=yes"] ++
      ((instructionSets.filter (·.feature ∈ config.targetFeatures)).map (·.setting ++ "=yes")) ++
      settingLines config.libraries (queryOutput workspace config.packages) ++
      (config.jobs.toList.filter (· ≠ 0)).map (fun jobs => "-j" ++ toString jobs) ++
      ["CC=" ++ compiler workspace.environment compilers.cc "CC" "cc",
        "CXX=" ++ compiler workspace.environment compilers.cxx "CXX" "c++",
        "XCFLAGS=" ++ config.cflags (workspace.environment.value "CFLAGS"),
        "XCXXFLAGS=" ++ config.cflags (workspace.environment.value "CXXFLAGS")]
    directory := some directory }

theorem make_command_eq (workspace : Workspace) (config : Config) (compilers : Compilers)
    (directory : String) :
    { arguments := makeProgram workspace.platform ::
        makeArguments config workspace.environment compilers directory
          (queryOutput workspace config.packages)
      directory := some directory } = makeCommand workspace config compilers directory := by
  have components : (optionalComponents.filter fun component => !config.enabled component.1) =
      optionalComponents.filter (·.1 ∉ config.features) :=
    List.filter_congr fun component _ => by simp [Config.enabled]
  have sets : instructionSets.filter config.hasSet =
      instructionSets.filter (·.feature ∈ config.targetFeatures) :=
    List.filter_congr fun set _ => by simp [Config.hasSet]
  have blanket : (if config.enabled blanketFeature then ["USE_SYSTEM_LIBS=yes"] else []) =
      if "sys-lib" ∈ config.features then ["USE_SYSTEM_LIBS=yes"] else [] := by
    simp [Config.enabled, blanketFeature]
  have settings (flags : String → String) :
      config.libraries.flatMap (Config.librarySettings flags) =
      settingLines config.libraries flags := rfl
  simp only [makeCommand, makeArguments, Config.makeFlags, make_program_eq, components, sets,
    blanket, settings]
  cases config.jobs with
  | none => simp
  | some jobs => by_cases zero : jobs = 0 <;> simp [zero]

/-- A library is taken from the system: the component that it belongs to is built, and it is asked
for, alone or with the others, or the source tree has no copy of it. -/
def FromSystem (config : Config) (library : SystemLibrary) : Prop :=
  (∀ component ∈ library.requires, component ∈ config.features) ∧
    (library.always ∨ (library.inBlanket ∧ "sys-lib" ∈ config.features) ∨
      "sys-lib-" ++ library.name ∈ config.features)

instance (config : Config) (library : SystemLibrary) : Decidable (FromSystem config library) :=
  inferInstanceAs (Decidable (_ ∧ _))

theorem libraries_eq (config : Config) :
    config.libraries = systemLibraries.filter (FromSystem config) := by
  refine List.filter_congr fun library _ => ?_
  rw [Bool.eq_iff_iff, decide_eq_true_eq]
  simp [Config.takesLibrary, FromSystem, Config.enabled, blanketFeature, SystemLibrary.feature,
    or_assoc, Option.all_eq_true]

/-- A build with make asks for the packages of the libraries up to and with the first that fails,
and starts make behind that if none does; it returns what to link with if make succeeds too. -/
structure StopsAtFailure (before : Workspace) (config : Config) (compilers : Compilers)
    (directory : String) (after : Workspace) (result : Except Failure LinkSpec) : Prop where
  commands : after.commands = before.commands ++ queries (askedPackages before config.packages) ++
    if allAnswered before config.packages then
      [makeCommand before config compilers directory] else []
  returned : (∃ spec, result = .ok spec) ↔
    allAnswered before config.packages ∧ (before.outcome config.packages.length).succeeded
  reported : ∀ failure, result = .error failure → failure.OfProgram ∧ failure.isReported
  /-- The packages are those of the libraries from the system, in the order of the table. -/
  packages : config.packages =
    (systemLibraries.filter (FromSystem config)).flatMap SystemLibrary.packages
  /-- The outputs of the queries are the flags of the packages, one by one. -/
  outputs : config.packages.map (queryOutput before config.packages) =
    (before.nextOutcomes config.packages.length).map RunResult.trimmedOutput
  trimmed : ∀ code output errors,
    TrimsTo output (RunResult.finished code output errors).trimmedOutput
  /-- The settings of the libraries, with these flags, are among the arguments of make. -/
  settings : settingLines config.libraries (queryOutput before config.packages) <:+:
    (makeCommand before config compilers directory).arguments

theorem settings_within_command (workspace : Workspace) (config : Config) (compilers : Compilers)
    (directory : String) :
    settingLines config.libraries (queryOutput workspace config.packages) <:+:
      (makeCommand workspace config compilers directory).arguments := by
  simp only [makeCommand]
  exact ((List.suffix_append _ _).isInfix.trans (List.prefix_append _ _).isInfix).trans
    (List.prefix_append _ _).isInfix

/-- What has been started when a build with make ends, and how it ends, for whatever outcomes of the
programs. -/
theorem make_build_stops (workspace : Workspace) (config : Config) (source out : String)
    (compilers : Compilers)
    (staged : (prepare workspace source (Path.join out "build")).2 = none) :
    StopsAtFailure workspace config compilers (forwardSlashes (Path.join out "build"))
      (buildWithMake workspace config source out compilers .program).1
      (buildWithMake workspace config source out compilers .program).2 := by
  obtain ⟨tree, frame⟩ := @prepare_frame workspace source (Path.join out "build")
  have ready : prepare workspace source (Path.join out "build") = (workspace.withTree tree, none) :=
    Prod.ext frame staged
  have packages : config.packages =
      (systemLibraries.filter (FromSystem config)).flatMap SystemLibrary.packages := by
    rw [Config.packages, libraries_eq]
  have outputs : config.packages.map (queryOutput workspace config.packages) = _ :=
    query_outputs (packages_distinct config)
  have trimmed (code : Int) (output errors : String) :
      TrimsTo output (RunResult.finished code output errors).trimmedOutput := trims_to_strip output
  have settings := settings_within_command workspace config compilers
    (forwardSlashes (Path.join out "build"))
  -- Staging changes the tree alone, so the same queries have the same outcomes behind it.
  cases answered : allAnswered workspace config.packages with
  | false =>
      obtain ⟨failure, asked, ofProgram⟩ :=
        @include_flags_unanswered (workspace.withTree tree) config answered
      rw [build_without_flags ready asked]
      refine ⟨?_, by simp [answered], ?_, packages, outputs, trimmed, settings⟩
      · rw [answered, if_neg Bool.false_ne_true, List.append_nil]
        rfl
      · rintro _ ⟨⟩
        exact ⟨ofProgram, ofProgram.reported⟩
  | true =>
      obtain ⟨flags, asked, given⟩ :=
        @include_flags_answered (workspace.withTree tree) config answered
      obtain ⟨after, returned, failed⟩ := build_with_flags compilers ready asked
      obtain ⟨commands, succeeded, ofProgram⟩ := @run_build_started
        ((workspace.withTree tree).started (config.packages.map packageQuery))
        (makeProgram workspace.platform) (forwardSlashes (Path.join out "build"))
        (makeArguments config workspace.environment compilers
          (forwardSlashes (Path.join out "build")) flags) none
      have stopped (failure : Failure) (same : (buildWithMake workspace config source out compilers
          .program).2 = .error failure) : failure.OfProgram ∧ failure.isReported :=
        have made := ofProgram failure (failed failure same)
        ⟨made, made.reported⟩
      refine ⟨?_, ?_, stopped, packages, outputs, trimmed, settings⟩
      · have arguments :
            makeArguments config workspace.environment compilers
                (forwardSlashes (Path.join out "build")) flags =
              makeArguments config workspace.environment compilers
                (forwardSlashes (Path.join out "build")) (queryOutput workspace config.packages) :=
          make_arguments_congr given
        rw [after, answered, if_pos rfl, asked_packages_all answered, ← make_command_eq,
          ← arguments]
        exact commands
      · rw [Workspace.outcome_started, List.length_map] at succeeded
        rw [returned, answered]
        exact succeeded.trans (and_iff_right rfl).symm

/-- The second of three queries finds its program missing, so that the third and make are never
started. -/
theorem second_query_stops_build :
    let tree : Tree :=
      { nodes :=
          ⟨[(["src"], .directory), (["src", "Makefile"], .file (.text "libs:"))]⟩ }
    let workspace : Workspace :=
      { tree := tree
        outcomes := [.finished 0 " -I/opt/freetype2\n" "", .missing, .finished 0 "-I/opt" ""] }
    let config : Config := { features := ["sys-lib-brotli", "sys-lib-freetype"] }
    (prepare workspace "src" (Path.join "out" "build")).2 = none ∧
      (buildWithMake workspace config "src" "out" {} .program).1.commands =
        [{ arguments := ["pkg-config", "--cflags-only-I", "freetype2"] },
          { arguments := ["pkg-config", "--cflags-only-I", "libbrotlidec"] }] ∧
      ∃ failure, (buildWithMake workspace config "src" "out" {} .program).2 = .error failure ∧
        failure.isReported := by
  intro tree workspace config
  have staged : (prepare workspace "src" (Path.join "out" "build")).2 = none := by decide +kernel
  have stops := make_build_stops workspace config "src" "out" {} staged
  refine ⟨staged, stops.commands.trans (by decide), ?_⟩
  cases result : (buildWithMake workspace config "src" "out" {} .program).2 with
  | ok spec =>
      have answered := (stops.returned.1 ⟨spec, result⟩).1
      exact absurd answered (by decide)
  | error failure => exact ⟨failure, rfl, (stops.reported failure result).2⟩

end Make

end Build

end HeaderDocs
