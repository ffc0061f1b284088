import HeaderDocs.Site.Navigation

/-!
The stages of a site's build: the configuration is read and the headers walked, the pages are
announced, each page gets its Markdown, and what was written only for the build is deleted again.
-/

namespace HeaderDocs.Site

/-- The links of generated pages taken out of the site's own check of links, where the configuration
has one. -/
def relaxLinkCheck (config : Value) : Value :=
  match config.field? "validation" with
  | some validation =>
      match validation.field? "links" with
      | some (.record links) =>
          config.withField "validation"
            (validation.withField "links"
              ((Value.record links).withField "unrecognized_links" (.number 0)))
      | _ => config
  | none => config

def configDirectory (config : Value) : Except Failure String :=
  let file := (config.field? "config_file_path").getD .null
  if !file.isGiven then .ok Path.workingDirectory
  else
    match file with
    | .text path =>
        let directory := Path.parent path
        .ok (if directory.isEmpty then Path.workingDirectory else directory)
    | _ => .error .wrongType

structure Configured where
  state : State
  workspace : Workspace
  config : Value
  failure : Option Failure

/-- The configuration read, the headers walked anew and the navigation extended. -/
def configure (state : State) (workspace : Workspace) (config : Value) : Configured :=
  match configDirectory config with
  | .error failure => ⟨state, workspace, config, some failure⟩
  | .ok directory =>
      let urls := (config.field? "use_directory_urls").getD (.bool true)
      let state := { state with
        temporary := []
        root := state.resolveRoot directory
        directoryUrls := urls.isGiven }
      let config := relaxLinkCheck config
      match state.walk workspace with
      | (state, workspace, some failure) => ⟨state, workspace, config, some failure⟩
      | (state, workspace, none) =>
          match withNavigation state config with
          | .ok config => ⟨state, workspace, config, none⟩
          | .error failure => ⟨state, workspace, config, some failure⟩

/-- What announcing the pages leaves behind: the addresses announced so far, and why no more could
be. -/
structure Announced where
  files : List String := []
  temporary : List String
  tree : Tree
  failure : Option Failure := none

def writePage (tree : Tree) (documents : String) (uri : String) : Tree × Option Failure :=
  let path := Path.join documents uri
  match tree.makeDirectories (Path.parent path).toList with
  | (tree, some failure) => (tree, some failure)
  | (tree, none) =>
      match tree.writeFile path (.text "") with
      | .ok tree => (tree, none)
      | .error failure => (tree, some failure)

def announceWritten (config : Value) (announced : Announced) : List String → Announced
  | [] => announced
  | uri :: uris =>
      match config.field? "docs_dir", config.field? "site_dir" with
      | some (.text documents), some _ =>
          match writePage announced.tree documents uri with
          | (tree, some failure) => { announced with tree := tree, failure := some failure }
          | (tree, none) =>
              announceWritten config
                { files := announced.files ++ [uri]
                  temporary := announced.temporary ++ [Path.join documents uri]
                  tree := tree }
                uris
      | some _, some _ => { announced with failure := some .wrongType }
      | _, _ => { announced with failure := some .missingKey }

/-- The pages announced in order. Where pages cannot be announced without a file, empty files are
written. -/
def announce (state : State) (tree : Tree) (config : Value) (generated : Bool) : Announced :=
  let announced : Announced := { temporary := state.temporary, tree := tree }
  if generated then { announced with files := sortedUris state }
  else announceWritten config announced (sortedUris state)

/-- Directories deleted upwards from one, as long as they are empty and the climb has not come to
the one where it stops. -/
def climb (tree : Tree) (stop : Value) (directory : String) : Tree :=
  if stop.text? = some directory then tree
  else
    match tree.removeDirectory? directory with
    | none => tree
    | some tree =>
        if _shorter : (Path.parent directory).length < directory.length then
          climb tree stop (Path.parent directory)
        else tree
termination_by directory.length

def cleanUp (tree : Tree) (config : Value) (temporary : List String) : Except Failure Tree :=
  match config.field? "docs_dir" with
  | none => .error .missingKey
  | some documents =>
      .ok (temporary.foldl (fun tree path => climb (tree.removeFile path) documents
        (Path.parent path)) tree)

end HeaderDocs.Site
