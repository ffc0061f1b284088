import HeaderDocs.Build.Environment
import HeaderDocs.Index
import HeaderDocs.Proofs.Text.Ascending
import Mathlib.Data.Finset.Dedup
import Mathlib.Data.Finset.Insert
import Mathlib.Data.Finset.Lattice.Basic
import Mathlib.Data.List.Forall2

/-!
Features written into an environment and read from it again. A feature is switched on by a variable
of its own, in Cargo's spelling, or stands in a list, in any case, with dashes or underscores and
with blanks around it. Nothing is assumed of the rest of the environment than that each variable is
there once and that no other name it gives spells a feature.
-/

namespace HeaderDocs.Build

open Text

set_option autoImplicit false

/-- A character as it may be written for one of a feature: in either case, and an underscore for a
dash. -/
def Writes (written known : Char) : Prop :=
  written.toLower = known ∨ written = '_' ∧ known = '-'

/-- A name that is written for a feature, with blanks around it. -/
def Spells (name feature : String) : Prop :=
  ∃ front body back, name.toList = front ++ body ++ back ∧ (∀ c ∈ front, isBlank c = true) ∧
    (∀ c ∈ back, isBlank c = true) ∧ List.Forall₂ Writes body feature.toList

/-- The spelling of a feature in the name of its variable: in upper case, with underscores. -/
def cargoSpelling (feature : String) : String :=
  String.ofList (feature.toList.map fun c => if c = '-' then '_' else c.toUpper)

/-- A character that features are made of. No letter of another script has it as its small
letter. -/
structure IsPlain (c : Char) : Prop where
  narrow : c.toNat < 128
  notKelvin : c ≠ 'k'
  notUnderscore : c ≠ '_'
  solid : isBlank c = false

theorem known_plain : ∀ feature ∈ knownFeatures, ∀ c ∈ feature.toList, IsPlain c := by
  have checked : knownFeatures.all (fun feature => feature.toList.all fun c =>
      decide (c.toNat < 128) && c != 'k' && c != '_' && !isBlank c) = true := by decide +kernel
  intro feature known c member
  have own := List.all_eq_true.1 (List.all_eq_true.1 checked feature known) c member
  simp only [Bool.and_eq_true, decide_eq_true_eq, bne_iff_ne, Bool.not_eq_true'] at own
  obtain ⟨⟨⟨narrow, notKelvin⟩, notUnderscore⟩, solid⟩ := own
  exact ⟨narrow, notKelvin, notUnderscore, solid⟩

theorem to_lower_eq_underscore {c : Char} : c.toLower = '_' ↔ c = '_' := by
  constructor
  · intro small
    by_cases narrow : c.toNat < 128
    · exact all_narrow (P := fun c => c.toLower = '_' → c = '_') (by decide +kernel) narrow small
    · rwa [to_lower_wide (by omega)] at small
  · rintro rfl
    decide

theorem to_lower_of_blank {c : Char} (blank : isBlank c = true) : c.toLower = c := by
  by_cases narrow : c.toNat < 128
  · exact all_narrow (P := fun c => isBlank c = true → c.toLower = c) (by decide +kernel)
      narrow blank
  · exact to_lower_wide (by omega)

theorem writes_iff {c known : Char} (plain : IsPlain known) :
    (if c.toLower = '_' then '-' else c.toLower) = known ↔ Writes c known := by
  rw [Writes]
  split
  · rename_i small
    have underscore : c = '_' := to_lower_eq_underscore.1 small
    rw [small]
    constructor
    · intro dash
      exact .inr ⟨underscore, dash.symm⟩
    · rintro (same | ⟨-, dash⟩)
      · exact absurd same.symm plain.notUnderscore
      · exact dash.symm
  · rename_i other
    constructor
    · exact .inl
    · rintro (same | ⟨underscore, -⟩)
      · exact same
      · exact absurd (to_lower_eq_underscore.2 underscore) other

theorem not_writes_wide {c known : Char} (wide : 128 ≤ c.toNat)
    (plain : IsPlain known) : ¬Writes c known := by
  rintro (same | ⟨rfl, -⟩)
  · rw [to_lower_wide wide] at same
    have narrow := plain.narrow
    rw [← same] at narrow
    omega
  · exact absurd wide (by decide)

theorem solid_of_writes {c known : Char} (plain : IsPlain known)
    (writes : Writes c known) : isBlank c = false := by
  rw [Bool.eq_false_iff]
  intro blank
  rcases writes with same | ⟨rfl, -⟩
  · rw [to_lower_of_blank blank] at same
    rw [same, plain.solid] at blank
    cases blank
  · exact absurd blank (by decide)

theorem lower_eq_iff {text feature : List Char} (plain : ∀ c ∈ feature, IsPlain c)
    (before : List Char) :
    (lowerAfter before text).map (fun c => if c = '_' then '-' else c) = feature ↔
      List.Forall₂ Writes text feature := by
  induction text generalizing feature before with
  | nil => rw [List.forall₂_nil_left_iff, lowerAfter, List.map_nil, eq_comm]
  | cons c text ih =>
      rw [lowerAfter]
      by_cases narrow : c.toNat < 128
      · rw [lower_char_narrow narrow, List.singleton_append, List.map_cons]
        cases feature with
        | nil => simp
        | cons known feature =>
            rw [List.cons.injEq, List.forall₂_cons, writes_iff (plain known List.mem_cons_self),
              ih (fun c member => plain c (List.mem_cons_of_mem _ member))]
      · have wide : 128 ≤ c.toNat := by omega
        refine iff_of_false ?_ ?_
        · -- Something in the lower case of such a character is in no feature.
          rintro rfl
          obtain ⟨d, member, strange⟩ := lower_char_wide wide before text
          have notUnderscore : d ≠ '_' := by
            rintro rfl
            exact absurd strange (by decide)
          have own : IsPlain d := plain d
            (List.mem_map.2 ⟨d, List.mem_append_left _ member, if_neg notUnderscore⟩)
          rcases strange with beyond | kelvin
          · exact absurd own.narrow (by omega)
          · exact own.notKelvin kelvin
        · rw [List.forall₂_cons_left_iff]
          rintro ⟨known, rest, writes, -, rfl⟩
          exact not_writes_wide wide (plain known List.mem_cons_self) writes

theorem trim_of_writes {body feature : List Char} (plain : ∀ c ∈ feature, IsPlain c)
    (writes : List.Forall₂ Writes body feature) : trim body = body := by
  have solid : ∀ c ∈ body, isBlank c = false := by
    intro c member
    obtain ⟨place, bound, rfl⟩ := List.mem_iff_getElem.1 member
    have within : place < feature.length := writes.length_eq ▸ bound
    exact solid_of_writes (plain _ (List.getElem_mem within)) (writes.get bound within)
  rw [trim_eq_self]
  exact ⟨fun c first => solid c (List.mem_of_head? first),
    fun c last => solid c (List.mem_of_getLast? last)⟩

/-- Normalising a name gives a feature exactly if the name is written for it. -/
theorem normalize_eq_iff {name feature : String} (known : feature ∈ knownFeatures) :
    normalizeFeature name = feature ↔ Spells name feature := by
  have plain : ∀ c ∈ feature.toList, IsPlain c := known_plain feature known
  rw [normalizeFeature, lower, ← String.toList_inj, String.toList_ofList, lower_eq_iff plain,
    Spells]
  constructor
  · intro writes
    obtain ⟨front, back, split, blankFront, blankBack⟩ := trim_split name.toList
    exact ⟨front, trim name.toList, back, split, blankFront, blankBack, writes⟩
  · rintro ⟨front, body, back, split, blankFront, blankBack, writes⟩
    rw [split, trim_padded front body back blankFront blankBack, trim_of_writes plain writes]
    exact writes

theorem cargo_spells : ∀ feature ∈ knownFeatures, Spells (cargoSpelling feature) feature := by
  have normal : ∀ feature ∈ knownFeatures, normalizeFeature (cargoSpelling feature) = feature := by
    decide +kernel
  intro feature known
  exact (normalize_eq_iff known).1 (normal feature known)

namespace Environment

variable {environment other : Environment} {parts : List String} {name feature : String}

/-- The names that an environment gives for features: behind the mark of a variable that is not
empty, and as parts of the list that are not blank. -/
def Gives (environment : Environment) (parts : List String) (name : String) : Prop :=
  (∃ value, (featureMark ++ name, value) ∈ environment ∧ value ≠ "") ∨
    name ∈ parts ∧ strip name ≠ ""

theorem behind_mark_iff {key : String} :
    dropStart? featureMark.toList key.toList = some name.toList ↔ key = featureMark ++ name := by
  constructor
  · intro found
    rw [← String.toList_inj, String.toList_append, append_of_drop_start found]
  · rintro rfl
    rw [String.toList_append, drop_start_append]

theorem mem_switched : feature ∈ environment.switchedFeatures ↔
    ∃ name value, (featureMark ++ name, value) ∈ environment ∧ value ≠ "" ∧
      normalizeFeature name = feature := by
  rw [switchedFeatures, List.mem_filterMap]
  constructor
  · rintro ⟨⟨key, value⟩, member, given⟩
    cases found : dropStart? featureMark.toList key.toList with
    | none =>
        rw [found] at given
        cases given
    | some rest =>
        have whole : key = featureMark ++ String.ofList rest :=
          behind_mark_iff.1 (by rw [found, String.toList_ofList])
        by_cases empty : value = ""
        · simp [found, empty] at given
        · refine ⟨String.ofList rest, value, whole ▸ member, empty, ?_⟩
          simpa [found, empty] using given
  · rintro ⟨name, value, member, filled, rfl⟩
    refine ⟨_, member, ?_⟩
    simp [drop_start_append, filled]

theorem comma_parts_intercalate (apart : ∀ part ∈ parts, ',' ∉ part.toList) (listed : parts ≠ []) :
    commaParts (String.intercalate "," parts) = parts := by
  have unbroken : ∀ part ∈ parts.map String.toList, ',' ∉ part := by
    intro part member
    obtain ⟨text, own, rfl⟩ := List.mem_map.1 member
    exact apart text own
  have comma : ",".toList = [','] := by decide
  rw [commaParts, String.toList_intercalate, comma,
    List.splitOn_intercalate ',' unbroken (by simpa using listed), List.map_map]
  simp

theorem mem_listed (list : environment.value "FZBIND_FEATURES" = String.intercalate "," parts)
    (apart : ∀ part ∈ parts, ',' ∉ part.toList) :
    feature ∈ environment.listedFeatures ↔
      ∃ part ∈ parts, strip part ≠ "" ∧ normalizeFeature part = feature := by
  have blank : (commaParts (String.intercalate "," [])).filter (fun name => !(strip name).isEmpty) =
      [] := by decide
  rw [listedFeatures, list]
  cases parts with
  | nil =>
      rw [blank]
      simp
  | cons part parts =>
      rw [comma_parts_intercalate apart (List.cons_ne_nil _ _)]
      simp [and_assoc]

theorem mem_named (list : environment.value "FZBIND_FEATURES" = String.intercalate "," parts)
    (apart : ∀ part ∈ parts, ',' ∉ part.toList) :
    feature ∈ environment.namedFeatures ↔
      ∃ name, environment.Gives parts name ∧ normalizeFeature name = feature := by
  rw [namedFeatures, List.mem_append, mem_switched, mem_listed list apart]
  constructor
  · rintro (⟨name, value, member, filled, normal⟩ | ⟨part, member, solid, normal⟩)
    · exact ⟨name, .inl ⟨value, member, filled⟩, normal⟩
    · exact ⟨part, .inr ⟨member, solid⟩, normal⟩
  · rintro ⟨name, ⟨value, member, filled⟩ | ⟨member, solid⟩, normal⟩
    · exact .inl ⟨name, value, member, filled, normal⟩
    · exact .inr ⟨name, member, solid, normal⟩

/-- What is left behind an item is free of it, so the induction is on the length. -/
theorem nodup_erase_dups {α : Type} [DecidableEq α] (items : List α) : items.eraseDups.Nodup := by
  match items with
  | [] => exact List.nodup_nil
  | item :: items =>
      rw [List.eraseDups_cons, List.nodup_cons, List.mem_eraseDups]
      exact ⟨by simp, nodup_erase_dups _⟩
termination_by items.length
decreasing_by exact Nat.lt_succ_of_le (List.length_filter_le _ _)

theorem mem_unknown :
    name ∈ environment.unknownFeatures ↔
      name ∈ environment.namedFeatures ∧ name ∉ knownFeatures := by
  rw [unknownFeatures, List.mem_mergeSort, List.mem_eraseDups, List.mem_filter]
  simp

theorem unknown_ascending (environment : Environment) :
    environment.unknownFeatures.Pairwise (· < ·) :=
  ascending_of_sorted (nodup_erase_dups _)

theorem lookup_of_perm (distinct : (environment.map Prod.fst).Nodup)
    (permuted : other.Perm environment) (name : String) :
    other.lookup name = environment.lookup name := by
  have otherDistinct : (other.map Prod.fst).Nodup := (permuted.map Prod.fst).nodup_iff.2 distinct
  have found (value : String) : other.lookup name = some value ↔
      environment.lookup name = some value := by
    have here := @Index.mem_entries _ _ _ ⟨environment⟩ distinct name value
    have there := @Index.mem_entries _ _ _ ⟨other⟩ otherDistinct name value
    exact there.symm.trans (permuted.mem_iff.trans here)
  exact Option.ext found

theorem config_of_perm (distinct : (environment.map Prod.fst).Nodup)
    (permuted : other.Perm environment) (processors : Option Int) :
    other.config processors = environment.config processors ∧
      other.notices = environment.notices := by
  have values : other.value = environment.value := by
    funext name
    rw [value, value, lookup_of_perm distinct permuted]
  have named (name : String) : name ∈ other.namedFeatures ↔ name ∈ environment.namedFeatures := by
    rw [namedFeatures, namedFeatures, List.mem_append, List.mem_append, listedFeatures,
      listedFeatures, values, switchedFeatures, switchedFeatures, (permuted.filterMap _).mem_iff]
  have features : other.features = environment.features := by
    refine List.filter_congr fun feature _ => ?_
    rw [Bool.eq_iff_iff, List.contains_iff_mem, List.contains_iff_mem, named]
  have unknown : other.unknownFeatures = environment.unknownFeatures := by
    refine ascending_unique (unknown_ascending other) (unknown_ascending environment) fun name => ?_
    rw [mem_unknown, mem_unknown, named]
  refine ⟨?_, by rw [notices, notices, unknown]⟩
  simp only [config, jobs, targetFeatures, profile, values, features]

/-- An environment with features in variables of their own and in a list of parts. A feature may be
in both. -/
structure Encodes (environment : Environment) (switched listed : Finset String)
    (parts : List String) : Prop where
  distinct : (environment.map Prod.fst).Nodup
  list : environment.value "FZBIND_FEATURES" = String.intercalate "," parts
  apart : ∀ part ∈ parts, ',' ∉ part.toList
  switches : ∀ feature ∈ switched, ∃ value,
    (featureMark ++ cargoSpelling feature, value) ∈ environment ∧ value ≠ ""
  lists : ∀ feature ∈ listed, ∃ part ∈ parts, Spells part feature
  /-- Every other variable of a feature is empty or stands for no known one. -/
  otherSwitches : ∀ name value, (featureMark ++ name, value) ∈ environment → value ≠ "" →
    (∃ feature ∈ switched, name = cargoSpelling feature) ∨
    ∀ feature ∈ knownFeatures, ¬Spells name feature
  /-- Every other part of the list, blank ones among them, stands for no known feature. -/
  otherParts : ∀ part ∈ parts, (∃ feature ∈ listed, Spells part feature) ∨
    ∀ feature ∈ knownFeatures, ¬Spells part feature

theorem spells_unique {second : String} (known : feature ∈ knownFeatures)
    (secondKnown : second ∈ knownFeatures) (spells : Spells name feature)
    (secondSpells : Spells name second) : feature = second :=
  ((normalize_eq_iff known).2 spells).symm.trans ((normalize_eq_iff secondKnown).2 secondSpells)

theorem solid_of_spells (known : feature ∈ knownFeatures)
    (spells : Spells name feature) : strip name ≠ "" := by
  intro blank
  have normal := (normalize_eq_iff known).2 spells
  have nothing : trim name.toList = [] := String.ofList_eq_empty_iff.1 blank
  rw [normalizeFeature, nothing] at normal
  rw [← normal] at known
  exact absurd known (by decide)

section Encoded

variable {switched listed : Finset String}

theorem mem_features_of_encodes (switchedKnown : ∀ feature ∈ switched, feature ∈ knownFeatures)
    (listedKnown : ∀ feature ∈ listed, feature ∈ knownFeatures)
    (encodes : Encodes environment switched listed parts) :
    feature ∈ environment.features ↔ feature ∈ switched ∪ listed := by
  rw [features, List.mem_filter, List.contains_iff_mem, mem_named encodes.list encodes.apart,
    Finset.mem_union]
  constructor
  · rintro ⟨known, name, given, normal⟩
    have spells : Spells name feature := (normalize_eq_iff known).1 normal
    rcases given with ⟨value, member, filled⟩ | ⟨member, -⟩
    · rcases encodes.otherSwitches name value member filled with ⟨own, taken, rfl⟩ | unknown
      · have ownKnown := switchedKnown own taken
        exact .inl (spells_unique known ownKnown spells (cargo_spells own ownKnown) ▸ taken)
      · exact absurd spells (unknown feature known)
    · rcases encodes.otherParts name member with ⟨own, taken, ownSpells⟩ | unknown
      · exact .inr (spells_unique known (listedKnown own taken) spells ownSpells ▸ taken)
      · exact absurd spells (unknown feature known)
  · rintro (taken | taken)
    · have known := switchedKnown feature taken
      exact ⟨known, cargoSpelling feature, .inl (encodes.switches feature taken),
        (normalize_eq_iff known).2 (cargo_spells feature known)⟩
    · have known := listedKnown feature taken
      obtain ⟨part, member, spells⟩ := encodes.lists feature taken
      exact ⟨known, part, .inr ⟨member, solid_of_spells known spells⟩,
        (normalize_eq_iff known).2 spells⟩

theorem mem_unknown_of_encodes (encodes : Encodes environment switched listed parts) :
    name ∈ environment.unknownFeatures ↔ ∃ given, environment.Gives parts given ∧
      (∀ feature ∈ knownFeatures, ¬Spells given feature) ∧ normalizeFeature given = name := by
  rw [mem_unknown, mem_named encodes.list encodes.apart]
  constructor
  · rintro ⟨⟨given, gives, rfl⟩, unknown⟩
    refine ⟨given, gives, fun feature known spells => unknown ?_, rfl⟩
    rwa [(normalize_eq_iff known).2 spells]
  · rintro ⟨given, gives, unknown, rfl⟩
    exact ⟨⟨given, gives, rfl⟩, fun known => unknown _ known ((normalize_eq_iff known).1 rfl)⟩

theorem config_of_numeric (processors : Option Int)
    (numeric : ∀ name ∈ ["FZBIND_JOBS", "NUM_JOBS"],
      environment.value name = "" ∨ (integerOf? (environment.value name).toList).isSome) :
    ∃ config, environment.config processors = .ok config ∧
      config.features = environment.features := by
  have own := numeric "FZBIND_JOBS" (by simp)
  have general := numeric "NUM_JOBS" (by simp)
  let text := if (environment.value "FZBIND_JOBS").isEmpty then environment.value "NUM_JOBS"
    else environment.value "FZBIND_JOBS"
  have usable : text = "" ∨ (integerOf? text.toList).isSome := by
    unfold text
    split
    · exact general
    · exact own
  have counted : ∃ jobs, environment.jobs processors = .ok jobs := by
    change ∃ jobs, (if text.isEmpty then _ else _) = Except.ok jobs
    rcases usable with empty | isNumber
    · exact ⟨processors, by rw [empty]; rfl⟩
    · obtain ⟨jobs, read⟩ := Option.isSome_iff_exists.1 isNumber
      rw [read]
      split
      · exact ⟨processors, rfl⟩
      · exact ⟨some jobs, rfl⟩
  obtain ⟨jobs, counted⟩ := counted
  exact ⟨_, by rw [config, counted], rfl⟩

/-- Features that an environment holds in either form are read from it, all of them and no others.
Each other name that it gives is noted once, as it is normalised, in ascending order, and the order
of the variables does not matter. -/
theorem features_decoded (environment : Environment) (switched listed : Finset String)
    (parts : List String) (processors : Option Int)
    (switchedKnown : ∀ feature ∈ switched, feature ∈ knownFeatures)
    (listedKnown : ∀ feature ∈ listed, feature ∈ knownFeatures)
    (encodes : Encodes environment switched listed parts)
    (numeric : ∀ name ∈ ["FZBIND_JOBS", "NUM_JOBS"],
      environment.value name = "" ∨ (integerOf? (environment.value name).toList).isSome) :
    (∃ config, environment.config processors = .ok config ∧
      config.features.toFinset = switched ∪ listed) ∧
      (∃ unknown : List String, unknown.Pairwise (· < ·) ∧
        (∀ name, name ∈ unknown ↔ ∃ given, environment.Gives parts given ∧
          (∀ feature ∈ knownFeatures, ¬Spells given feature) ∧ normalizeFeature given = name) ∧
        environment.notices = unknown.map fun name =>
          ⟨.warning, "ignoring unknown feature " ++ quoted name⟩) ∧
      ∀ other : Environment, other.Perm environment →
        other.config processors = environment.config processors ∧
          other.notices = environment.notices := by
  refine ⟨?_, ?_, fun other permuted => config_of_perm encodes.distinct permuted processors⟩
  · obtain ⟨config, resolved, features⟩ := config_of_numeric processors numeric
    refine ⟨config, resolved, ?_⟩
    ext feature
    rw [List.mem_toFinset, features, mem_features_of_encodes switchedKnown listedKnown encodes]
  · exact ⟨environment.unknownFeatures, unknown_ascending environment,
      fun name => mem_unknown_of_encodes encodes, rfl⟩

theorem features_in_both_forms :
    let environment : Environment :=
      [("PATH", "/bin"), ("CARGO_FEATURE_SYS_LIB_FREETYPE", "1"), ("CARGO_FEATURE_XPS", "yes"),
        ("CARGO_FEATURE_DEFAULT", "1"), ("CARGO_FEATURE_JS", ""),
        ("FZBIND_FEATURES", " Xps,,All_Fonts , frob"),
        ("NUM_JOBS", "8")]
    Encodes environment {"sys-lib-freetype", "xps"} {"xps", "all-fonts"} [" Xps", "", "All_Fonts ",
      " frob"] ∧
      (∃ resolved, config environment none = .ok resolved ∧
        resolved.features.toFinset = {"sys-lib-freetype", "xps", "all-fonts"}) ∧
      notices environment.reverse =
        [⟨.warning, "ignoring unknown feature 'default'"⟩,
          ⟨.warning, "ignoring unknown feature 'frob'"⟩] := by
  intro environment
  have normal : normalizeFeature " Xps" = "xps" ∧ normalizeFeature "All_Fonts " = "all-fonts" := by
    decide +kernel
  have xps : Spells " Xps" "xps" := (normalize_eq_iff (by decide)).1 normal.1
  have fonts : Spells "All_Fonts " "all-fonts" := (normalize_eq_iff (by decide)).1 normal.2
  have strange : ∀ name ∈ ["", " frob", "DEFAULT"], normalizeFeature name ∉ knownFeatures := by
    decide +kernel
  have unknown (name : String) (member : name ∈ ["", " frob", "DEFAULT"]) :
      ∀ feature ∈ knownFeatures, ¬Spells name feature := by
    intro feature known spells
    exact strange name member ((normalize_eq_iff known).2 spells ▸ known)
  have written : ∀ name ∈ ["SYS_LIB_FREETYPE", "XPS"],
      ∃ feature ∈ ({"sys-lib-freetype", "xps"} : Finset String), name = cargoSpelling feature :=
      by decide +kernel
  have marked : ∀ entry ∈ environment, ∀ rest ∈ dropStart? featureMark.toList entry.1.toList,
      entry.2 ≠ "" → String.ofList rest ∈ ["SYS_LIB_FREETYPE", "XPS"] ∨
      String.ofList rest ∈ ["", " frob", "DEFAULT"] := by decide +kernel
  have encodes : Encodes environment {"sys-lib-freetype", "xps"} {"xps", "all-fonts"}
      [" Xps", "", "All_Fonts ", " frob"] := by
    refine ⟨?_, ?_, ?_, ?_, ?_, ?_, ?_⟩
    · decide +kernel
    · decide +kernel
    · decide +kernel
    · intro feature taken
      rw [Finset.mem_insert, Finset.mem_singleton] at taken
      rcases taken with rfl | rfl
      · exact ⟨"1", by decide +kernel, by decide⟩
      · exact ⟨"yes", by decide +kernel, by decide⟩
    · intro feature taken
      rw [Finset.mem_insert, Finset.mem_singleton] at taken
      rcases taken with rfl | rfl
      · exact ⟨" Xps", by decide, xps⟩
      · exact ⟨"All_Fonts ", by decide, fonts⟩
    · intro name value member filled
      have own := marked _ member name.toList (behind_mark_iff.2 rfl) filled
      rw [String.ofList_toList] at own
      exact own.imp (written name) (unknown name)
    · intro part member
      rw [List.mem_cons, List.mem_cons, List.mem_cons, List.mem_singleton] at member
      rcases member with rfl | rfl | rfl | rfl
      · exact .inl ⟨"xps", by decide, xps⟩
      · exact .inr (unknown "" (by decide))
      · exact .inl ⟨"all-fonts", by decide, fonts⟩
      · exact .inr (unknown " frob" (by decide))
  obtain ⟨read, -, permuted⟩ :=
    features_decoded environment {"sys-lib-freetype", "xps"} {"xps", "all-fonts"}
    [" Xps", "", "All_Fonts ", " frob"] none (by decide) (by decide) encodes (by decide +kernel)
  have union : ({"sys-lib-freetype", "xps"} ∪ {"xps", "all-fonts"} : Finset String) =
      {"sys-lib-freetype", "xps", "all-fonts"} := by decide
  rw [union] at read
  have noted : notices environment =
      [⟨.warning, "ignoring unknown feature 'default'"⟩,
        ⟨.warning, "ignoring unknown feature 'frob'"⟩] := by
    have others : (namedFeatures environment).filter (fun name => !knownFeatures.contains name) =
        ["default", "frob"] := by
      decide +kernel
    have once : ["default", "frob"].eraseDups = ["default", "frob"] := by simp [List.eraseDups_cons]
    rw [notices, unknownFeatures, others, once, List.mergeSort_of_pairwise (by decide)]
    decide +kernel
  exact ⟨encodes, read, (permuted environment.reverse (List.reverse_perm environment)).2.trans
    noted⟩

end Encoded

end Environment

end HeaderDocs.Build
