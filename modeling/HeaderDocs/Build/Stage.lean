import HeaderDocs.Files.Tree
import HeaderDocs.Text.Lines

/-!
The source tree copied to where it is built, and mended there. Directories of excluded names stay
behind with everything below them; what is at the target already stays unless the source has a file
of the same path.
-/

namespace HeaderDocs.Build

def checkSource (tree : Tree) (source : String) : Option Failure :=
  if tree.isFilledDirectory source then none else some (.sourceEmpty (Path.leaf source))

/-- Something in the source tree stays behind: it is a directory of an excluded name, or below
one. -/
def staysBehind (exclude : List String) (entry : Place × Node) : Bool :=
  match entry.2 with
  | .directory => entry.1.any exclude.contains
  | .file _ => entry.1.dropLast.any exclude.contains

/-- A file put at a place; where a directory of its name is in the way, the file goes into it.
Whether it could be put is told as well. -/
def copyFile (tree : Tree) (place : Place) (content : Content) : Tree × Bool :=
  match tree.node? place with
  | some .directory =>
      let inside := place ++ place.getLast?.toList
      if tree.node? inside = some .directory then (tree, false)
        else (tree.put inside (.file content), true)
  | _ => (tree.put place (.file content), true)

/-- Something copied to a place below the target, unless a file stands in the way of what is above
it. -/
def copyNode (target : Place) (tree : Tree) (entry : Place × Node) : Tree × Bool :=
  let place := target ++ entry.1
  if tree.node? place.dropLast != some .directory then (tree, true)
  else
    match entry.2 with
    | .file content => copyFile tree place content
    | .directory =>
        match tree.node? place with
        | none => (tree.put place .directory, true)
        | some .directory => (tree, true)
        | some (.file _) => (tree, false)

def copyAll (target : Place) : Tree → List (Place × Node) → Tree × Bool
  | tree, [] => (tree, true)
  | tree, entry :: entries =>
      let (tree, here) := copyNode target tree entry
      let (tree, others) := copyAll target tree entries
      (tree, here && others)

def staged (tree : Tree) (exclude : List String) (source : Place) : List (Place × Node) :=
  (tree.below source).filter fun entry => !staysBehind exclude entry

def stage (tree : Tree) (source target : String) (exclude : List String) : Tree × Option Failure :=
  match checkSource tree source, tree.locate source with
  | some failure, _ => (tree, some failure)
  | none, .error dead => (tree, some (dead.failure source))
  | none, .ok origin =>
      match tree.makeDirectories target.toList with
      | (made, some failure) => (made, some failure)
      | (made, none) =>
          match made.locate target with
          | .error dead => (made, some (dead.failure target))
          | .ok goal =>
              match copyAll goal.place made (staged tree exclude origin.place) with
              | (copied, true) => (copied, none)
              | (copied, false) => (copied, some .copyIncomplete)

def defaultExclude : List String :=
  [".git"]

/-- The file with a constant that one compiler rejects. -/
def geometryFile (directory : String) : String :=
  Path.join (Path.join (Path.join directory "source") "fitz") "geometry.c"

def patchText (text : String) : String :=
  String.ofList
    (Text.replaceAll "NAN".toList "(0.0/0.0)".toList (Text.normalizeBreaks text.toList))

def patchGeometry (tree : Tree) (directory : String) : Except Failure Tree :=
  match tree.readFile (geometryFile directory) with
  | .error failure => .error failure
  | .ok (.binary _) => .error .notUtf8
  | .ok (.text text) => tree.writeFile (geometryFile directory) (.text (patchText text))

end HeaderDocs.Build
