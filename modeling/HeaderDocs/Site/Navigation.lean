import HeaderDocs.Site.Pages

/-!
The section of the navigation that leads to the pages, and how it is put into a configuration: in
place of an older section of the same title, or else at the end.
-/

namespace HeaderDocs.Site

def sortedUris (state : State) : List String :=
  state.pages.keys.mergeSort fun first second => !(second < first)

def navigationEntries (state : State) (options : Options) : List Value :=
  let overview :=
    if options.index then [.record [("Overview", .text (options.outputDirectory ++ "/index.md"))]]
      else []
  let pages := (sortedUris state).filterMap fun uri =>
    match state.pages.find? uri with
    | some page =>
        if page.label = indexLabel then none else some (.record [(page.label, .text uri)])
    | none => none
  overview ++ pages

def navigationSection (state : State) (options : Options) : Value :=
  .record [(options.navTitle, .list (navigationEntries state options))]

def hasTitle (title : String) (item : Value) : Bool :=
  (item.field? title).isSome

/-- A section put in place of the first of its title, or else at the end. -/
def placeSection (title : String) (newSection : Value) : List Value → List Value
  | [] => [newSection]
  | item :: items =>
      if hasTitle title item then newSection :: items else item ::
        placeSection title newSection items

/-- The configuration with the section in its navigation. Without pages it is left as it is. -/
def withNavigation (state : State) (config : Value) : Except Failure Value :=
  if state.pages.isEmpty then .ok config
  else
    match state.options with
    | none => .error .missingKey
    | some options =>
        let newSection := navigationSection state options
        match (config.field? "nav").getD .null with
        | .null => .ok (config.withField "nav" (.list [newSection]))
        | .list items =>
            .ok (config.withField "nav" (.list (placeSection options.navTitle newSection items)))
        | .record _ | .text _ => .error .missingAttribute
        | .bool _ | .number _ => .error .wrongType

end HeaderDocs.Site
