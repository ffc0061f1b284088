import HeaderDocs.Site.Value

/-!
The options of the site. They are read in the order in which they are declared, up to the first
value of a wrong type; a missing value and null stand for the default. Names that mean nothing are
kept and told apart.
-/

namespace HeaderDocs.Site

/-- A whole number as it was given: a truth value counts as zero or one. -/
inductive Count where
  | number (value : Int)
  | flag (value : Bool)
deriving DecidableEq, Repr

def Count.value : Count → Int
  | number value => value
  | flag value => if value then 1 else 0

def Count.shown : Count → Value
  | number value => .number value
  | flag value => .bool value

/-- The options of the site. Lists may hold anything; what is done with them wants texts. -/
structure Options where
  headerRoot : String := ""
  headers : List Value := []
  exclude : List Value := []
  parserArguments : List Value := []
  functions : List Value := []
  types : List Value := []
  globals : List Value := []
  outputDirectory : String := "api_reference"
  navTitle : String := "API Reference"
  headingLevel : Count := .number 2
  index : Bool := true
  undocumented : Bool := true
  /-- Options that mean nothing. -/
  others : List (String × Value) := []

namespace Options

structure Setting where
  name : String
  take : Value → Options → Option Options
  shown : Options → Value

def textSetting (name : String) (get : Options → String)
    (set : String → Options → Options) : Setting where
  name := name
  take value options :=
    match value with
    | .text value => some (set value options)
    | _ => none
  shown options := .text (get options)

def listSetting (name : String) (get : Options → List Value)
    (set : List Value → Options → Options) :
    Setting where
  name := name
  take value options :=
    match value with
    | .list items => some (set items options)
    | _ => none
  shown options := .list (get options)

def switchSetting (name : String) (get : Options → Bool)
    (set : Bool → Options → Options) : Setting where
  name := name
  take value options :=
    match value with
    | .bool value => some (set value options)
    | _ => none
  shown options := .bool (get options)

def countSetting (name : String) (get : Options → Count)
    (set : Count → Options → Options) : Setting where
  name := name
  take value options :=
    match value with
    | .number value => some (set (.number value) options)
    | .bool value => some (set (.flag value) options)
    | _ => none
  shown options := (get options).shown

def settings : List Setting :=
  [textSetting "header_root" headerRoot fun value options => { options with headerRoot := value },
    listSetting "headers" headers fun items options => { options with headers := items },
    listSetting "exclude" exclude fun items options => { options with exclude := items },
    listSetting "clang_args" parserArguments fun items options =>
      { options with parserArguments := items },
    listSetting "allow_functions" functions fun items options =>
      { options with functions := items },
    listSetting "allow_types" types fun items options => { options with types := items },
    listSetting "allow_vars" globals fun items options => { options with globals := items },
    textSetting "output_dir" outputDirectory fun value options =>
      { options with outputDirectory := value },
    textSetting "nav_title" navTitle fun value options => { options with navTitle := value },
    countSetting "heading_level" headingLevel fun value options =>
      { options with headingLevel := value },
    switchSetting "index" index fun value options => { options with index := value },
    switchSetting "undocumented" undocumented fun value options =>
      { options with undocumented := value }]

def isKnown (name : String) : Bool :=
  settings.any fun setting => setting.name == name

/-- What came of reading options: the options, the first name whose value has a wrong type, and the
names that mean nothing, in order. -/
structure Loaded where
  options : Options
  wrong : Option String
  unknown : List String

/-- Given values read by the settings in order; the first wrong one is remembered and keeps its
default. -/
def takeAll (given : List (String × Value)) : Options → List Setting → Options × Option String
  | options, [] => (options, none)
  | options, setting :: rest =>
      match given.lookup setting.name with
      | none | some .null => takeAll given options rest
      | some value =>
          match setting.take value options with
          | some options => takeAll given options rest
          | none => ((takeAll given options rest).1, some setting.name)

def load (given : List (String × Value)) : Loaded :=
  let others := given.filter fun field => !isKnown field.1
  let (options, wrong) := takeAll given { others := others } settings
  { options := options
    wrong := wrong
    unknown := (others.map Prod.fst).mergeSort fun first second => !(second < first) }

def fields (options : Options) : List (String × Value) :=
  settings.map (fun setting => (setting.name, setting.shown options)) ++ options.others

end Options

end HeaderDocs.Site
