import HeaderDocs.Declaration.Render
import HeaderDocs.Site.Discover
import HeaderDocs.Site.Options
import HeaderDocs.Workspace

/-!
The pages of a site: one for each header that declares something, and one that lists them. The
headers are walked with one symbol table; the anchors of all declarations are kept with the page
that has them, so that links lead from page to page.
-/

namespace HeaderDocs.Site

structure Page where
  label : String
  declarations : List Declaration

def indexLabel : String :=
  "__INDEX__"

structure State where
  options : Option Options := none
  symbols : Symbol.Table := {}
  pages : Index String Page := {}
  anchors : Index String String := {}
  temporary : List String := []
  root : String := ""
  directoryUrls : Bool := true

namespace State

def resolveRoot (state : State) (directory : String) : String :=
  let given := (state.options.map Options.headerRoot).getD ""
  let root := if given.isEmpty then "." else given
  if Path.isAbsolute root then root else Path.normalize (Path.join directory root)

/-- The path of a file as its page shows it: from the directory of the headers if it stands there,
else its name alone; declarations of no file have a page of their own. -/
def pageLabel (root file : String) : String :=
  if file.isEmpty then "builtin"
  else
    let path := Path.absolute file
    let root := Path.absolute root
    if Path.commonDirectory path root = root then Path.relative path root else Path.leaf path

def pageUri (directory label : String) : String :=
  directory ++ "/" ++ label ++ ".md"

def addDeclaration (directory : String) (state : State) (declaration : Declaration) : State :=
  let label := pageLabel state.root declaration.file
  let uri := pageUri directory label
  let page := (state.pages.find? uri).getD ⟨label, []⟩
  { state with
    pages := state.pages.insert uri { page with declarations := page.declarations ++ [declaration] }
    anchors := (declaration.anchors none).foldl (fun anchors anchor => anchors.insertNew anchor uri)
      state.anchors }

def addIndex (options : Options) (state : State) : State :=
  if options.index && !state.pages.isEmpty then
    { state with
      pages := state.pages.insert (options.outputDirectory ++ "/index.md") ⟨indexLabel, []⟩ }
  else state

def allowlist? (options : Options) : Option Allowlist :=
  let standard : Allowlist := {}
  let patterns (given : List Value) (fallback : List String) : Option (List String) :=
    if given.isEmpty then some fallback else Value.texts? given
  match patterns options.functions standard.functions, patterns options.types standard.types,
      patterns options.globals standard.globals with
  | some functions, some types, some globals => some ⟨functions, types, globals⟩
  | _, _, _ => none

def reading? (root : String) (options : Options) : Option Reading :=
  match Value.texts? options.parserArguments, allowlist? options with
  | some arguments, some allowlist => some ⟨["-I", root] ++ arguments, allowlist⟩
  | _, _ => none

/-- The headers to walk: those of the options, else those below the directory. A pattern that is no
text does harm only if some header gets past the patterns before it. -/
def headers? (tree : Tree) (root : String)
    (options : Option Options) : Except Failure (List Value) :=
  match options with
  | none => .ok ((discover tree root []).map .text)
  | some options =>
      if !options.headers.isEmpty then .ok options.headers
      else
        let patterns := options.exclude.map Value.text?
        let readable := (patterns.takeWhile Option.isSome).reduceOption
        let found := discover tree root readable
        if readable.length = patterns.length || found.isEmpty then .ok (found.map .text)
        else .error .wrongType

/-- A header walked as it is listed. One that is missing or cannot be parsed is noted and passed
over. -/
def walkListed (reading : Reading) (root : String) (walker : Walker) (workspace : Workspace) :
    Value → Walker × Workspace × Option Failure
  | .text header =>
      let path := Path.normalize (Path.join root header)
      if !workspace.tree.isFile path then
        (walker, workspace.note .warning ("fzbind: header not found: " ++ path), none)
      else
        let read := reading.read workspace.shelf walker path
        let workspace := workspace.addReport read.report
        match read.failure with
        | none => (read.walker, workspace, none)
        | some failure =>
            if failure.isReported then
              (read.walker, workspace.note .error ("fzbind: " ++ failure.message), none)
            else (read.walker, workspace, some failure)
  | _ => (walker, workspace, some .wrongType)

def walkHeaders (reading : Reading) (root : String) :
    Walker → Workspace → List Value → Walker × Workspace × Option Failure
  | walker, workspace, [] => (walker, workspace, none)
  | walker, workspace, header :: headers =>
      match walkListed reading root walker workspace header with
      | (walker, workspace, none) => walkHeaders reading root walker workspace headers
      | (walker, workspace, some failure) => (walker, workspace, some failure)

def cleared (state : State) : State :=
  { state with symbols := {}, pages := {}, anchors := {} }

def withDeclarations (options : Options) (state : State)
    (declarations : List Declaration) : State :=
  addIndex options (declarations.foldl (addDeclaration options.outputDirectory) state)

def walk (state : State) (workspace : Workspace) : State × Workspace × Option Failure :=
  let state := state.cleared
  if !workspace.tree.isDirectory state.root then
    (state, workspace.note .error ("fzbind: header root missing: " ++ state.root), none)
  else
    match headers? workspace.tree state.root state.options, state.options with
    | .error failure, _ => (state, workspace, some failure)
    | .ok _, none => (state, workspace, some .missingKey)
    | .ok headers, some options =>
        match reading? state.root options with
        | none => (state, workspace, some .wrongType)
        | some reading =>
            match walkHeaders reading state.root { symbols := state.symbols } workspace headers with
            | (walker, workspace, some failure) =>
                ({ state with symbols := walker.symbols }, workspace, some failure)
            | (walker, workspace, none) =>
                let state :=
                  withDeclarations options { state with symbols := walker.symbols }
                  walker.declarations
                let found := "fzbind: " ++ toString headers.length ++ " headers walked, " ++
                  toString state.symbols.size ++ " symbols registered"
                (state, workspace.note .info found, none)

def dropEnding (uri : String) : String :=
  String.ofList ((Text.dropEnd? ".md".toList uri.toList).getD uri.toList)

/-- Where a link to an anchor leads from a page: to a place on the page itself, or to another page
by a path from this one. -/
def resolveAnchor (state : State) (anchor page : String) : Option String :=
  match state.anchors.find? anchor with
  | none => none
  | some target =>
      if target = page then some ("#" ++ anchor)
      else if state.directoryUrls then
        some (Path.relative (dropEnding target) (dropEnding page) ++ "/" ++ "#" ++ anchor)
      else some (Path.relative target (Path.parent page) ++ "#" ++ anchor)

def style (state : State) (options : Options) (page : String) : Declaration.Style :=
  { headingLevel := options.headingLevel.value
    undocumented := options.undocumented
    resolve := fun anchor => state.resolveAnchor anchor page }

def headerPages (state : State) : List Page :=
  (state.pages.values.filter fun page => page.label ≠ indexLabel).mergeSort fun first second =>
    !(second.label < first.label)

def indexMarkdown (state : State) (options : Options) (uri : String) : String :=
  let pages := state.headerPages
  let total := (pages.flatMap Page.declarations).length
  let row (page : Page) : String :=
    let place := Path.relative (pageUri options.outputDirectory page.label) (Path.parent uri)
    "| [`" ++ page.label ++ "`](" ++ place ++ ") | " ++ toString page.declarations.length ++ " |"
  String.intercalate "\n"
    (["# " ++ options.navTitle, "",
      toString total ++ " bound symbols across " ++ toString pages.length ++ " headers.", "",
      "| Header | Symbols |", "|--------|---------|"] ++ pages.map row ++ [""])

def pageMarkdown (state : State) (markdown : String)
    (uri : Option String) : Except Failure String :=
  match uri with
  | none => .ok markdown
  | some uri =>
      match state.pages.find? uri, state.options with
      | none, _ => .ok markdown
      | some _, none => .error .missingKey
      | some page, some options =>
          if page.label = indexLabel then .ok (state.indexMarkdown options uri)
          else .ok (Declaration.renderPage (state.style options uri) page.declarations page.label)

end State

end HeaderDocs.Site
