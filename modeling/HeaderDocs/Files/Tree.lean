import HeaderDocs.Failure
import HeaderDocs.Files.Path
import HeaderDocs.Index

/-!
A finite directory tree and what the operations of a file system do to it. Everything stands at a
place, a list of names from the root of the tree; the directory above a place has to be there before
anything can be put at it. The tree is the whole one of the file system, with the working directory
at its place, or that of the working directory alone; paths that start at the root of the file
system, or climb out of the tree, then lead nowhere.
-/

namespace HeaderDocs

/-- What a file holds: text, or bytes that are not the encoding of any text. -/
inductive Content where
  | text (text : String)
  | binary (bytes : List UInt8)
deriving DecidableEq, Repr

inductive Node where
  | directory
  | file (content : Content)
deriving DecidableEq, Repr

abbrev Place := List String

/-- A directory tree: what stands at its places, the root apart, and whether its root is that of the
file system or the working directory. -/
structure Tree where
  nodes : Index Place Node := {}
  whole : Bool := false
deriving Repr

/-- Why a path leads nowhere: something on the way is not there, or is a file. -/
inductive Dead where
  | absent
  | blocked
deriving DecidableEq, Repr

def Dead.failure (path : String) : Dead → Failure
  | absent => .pathMissing path
  | blocked => .notADirectory path

/-- Where a path leads: a place that may be empty under a directory that is there. A path that ends
in a slash asks for a directory, and one that ends in a dot names a directory that is there by
another name. -/
structure Target where
  place : Place
  slashed : Bool := false
  dotted : Bool := false
deriving DecidableEq, Repr

namespace Tree

def node? (tree : Tree) (place : Place) : Option Node :=
  if place = [] then some .directory else tree.nodes.find? place

def put (tree : Tree) (place : Place) (node : Node) : Tree :=
  { tree with nodes := tree.nodes.insert place node }

def clear (tree : Tree) (place : Place) : Tree :=
  { tree with nodes := tree.nodes.erase place }

/-- The place from which a path leads. -/
def start (tree : Tree) (path : String) : Place :=
  if tree.whole && !Path.isAbsolute path then Path.names Path.workingDirectory else []

/-- A path leads into the tree: there is a directory to start from. -/
def reaches (tree : Tree) (path : String) : Bool :=
  (tree.whole || !Path.isAbsolute path) && tree.node? (tree.start path) == some .directory

def enter (tree : Tree) (place : Place) (piece : String) : Except Dead Place :=
  if piece = "" ∨ piece = "." then .ok place
  else if piece = ".." then
    if place = [] ∧ tree.whole = false then .error .absent else .ok place.dropLast
  else
    match tree.node? (place ++ [piece]) with
    | some .directory => .ok (place ++ [piece])
    | some (.file _) => .error .blocked
    | none => .error .absent

def follow (tree : Tree) : Place → List String → Except Dead Place
  | place, [] => .ok place
  | place, piece :: pieces =>
      match tree.enter place piece with
      | .ok place => follow tree place pieces
      | .error dead => .error dead

def locate (tree : Tree) (path : String) : Except Dead Target :=
  if path.isEmpty || !tree.reaches path then .error .absent
  else
    let reversed := (Path.pieces path).reverse
    let slashed := reversed.head? == some ""
    match reversed.dropWhile (· == "") with
    | [] => .ok { place := tree.start path, dotted := true }
    | last :: before =>
        match tree.follow (tree.start path) before.reverse with
        | .error dead => .error dead
        | .ok directory =>
            if last = "." ∨ last = ".." then
              match tree.enter directory last with
              | .error dead => .error dead
              | .ok place => .ok { place := place, dotted := true }
            else .ok { place := directory ++ [last], slashed := slashed }

def stat (tree : Tree) (path : String) : Except Dead Node :=
  match tree.locate path with
  | .error dead => .error dead
  | .ok target =>
      match tree.node? target.place with
      | none => .error .absent
      | some (.file content) => if target.slashed then .error .blocked else .ok (.file content)
      | some .directory => .ok .directory

def isFile (tree : Tree) (path : String) : Bool :=
  match tree.stat path with
  | .ok (.file _) => true
  | _ => false

def isDirectory (tree : Tree) (path : String) : Bool :=
  match tree.stat path with
  | .ok .directory => true
  | _ => false

def exists? (tree : Tree) (path : String) : Bool :=
  match tree.stat path with
  | .ok _ => true
  | .error _ => false

def below (tree : Tree) (place : Place) : List (Place × Node) :=
  tree.nodes.entries.filterMap fun entry =>
    match place.isPrefixOf? entry.1 with
    | some (name :: names) => some (name :: names, entry.2)
    | _ => none

def isFilledDirectory (tree : Tree) (path : String) : Bool :=
  match tree.locate path with
  | .ok target => tree.isDirectory path && !(tree.below target.place).isEmpty
  | .error _ => false

def makeDirectory (tree : Tree) (path : String) : Except Failure Tree :=
  match tree.locate path with
  | .error dead => .error (dead.failure path)
  | .ok target =>
      match tree.node? target.place with
      | some _ => .error (.pathExists path)
      | none => .ok (tree.put target.place .directory)

/-- The directory part of a path and its last part, a slash at the end passed over. -/
def parentAndLeaf (path : List Char) : List Char × List Char :=
  let parts := Path.splitLeaf path
  if parts.2 = [] then
    let parts := Path.splitLeaf (Path.dropSlashes parts.1)
    (Path.dropSlashes parts.1, parts.2)
  else (Path.dropSlashes parts.1, parts.2)

theorem length_split_leaf (path : List Char) :
    (Path.splitLeaf path).1.length + (Path.splitLeaf path).2.length = path.length := by
  rw [← List.length_append, Path.split_leaf_join]

theorem length_parent_and_leaf {path : List Char} (named : (parentAndLeaf path).2 ≠ []) :
    (parentAndLeaf path).1.length < path.length := by
  have whole := length_split_leaf path
  simp only [parentAndLeaf] at named ⊢
  split at named
  · rename_i empty
    have inner := length_split_leaf (Path.dropSlashes (Path.splitLeaf path).1)
    have short := Path.length_drop_slashes (Path.splitLeaf path).1
    have shorter :=
      Path.length_drop_slashes (Path.splitLeaf (Path.dropSlashes (Path.splitLeaf path).1)).1
    dsimp only at named
    have positive := List.length_pos_iff.2 named
    simp only [empty, if_true]
    omega
  · rename_i full
    have short := Path.length_drop_slashes (Path.splitLeaf path).1
    have positive := List.length_pos_iff.2 full
    simp only [full, if_false]
    omega

/-- The directory at the end of a path made, and before it those on the way that are not there. A
directory that is there already is left as it is. -/
def makeDirectories (tree : Tree) (path : List Char) : Tree × Option Failure :=
  let parts := parentAndLeaf path
  if _deep : parts.1 ≠ [] ∧ parts.2 ≠ [] ∧ !tree.exists? (String.ofList parts.1) then
    match makeDirectories tree parts.1 with
    | (tree, none) => if parts.2 = ['.'] then (tree, none) else makeLast tree
    | (tree, some (.pathExists _)) => if parts.2 = ['.'] then (tree, none) else makeLast tree
    | (tree, some failure) => (tree, some failure)
  else makeLast tree
termination_by path.length
decreasing_by exact length_parent_and_leaf _deep.2.1
where
  /-- The last directory made, unless it is there. -/
  makeLast (tree : Tree) : Tree × Option Failure :=
    let name := String.ofList path
    match tree.makeDirectory name with
    | .ok tree => (tree, none)
    | .error failure => if tree.isDirectory name then (tree, none) else (tree, some failure)

def readFile (tree : Tree) (path : String) : Except Failure Content :=
  match tree.stat path with
  | .error dead => .error (dead.failure path)
  | .ok .directory => .error (.isADirectory path)
  | .ok (.file content) => .ok content

def writeFile (tree : Tree) (path : String) (content : Content) : Except Failure Tree :=
  match tree.locate path with
  | .error dead => .error (dead.failure path)
  | .ok target =>
      if target.slashed || target.dotted || tree.node? target.place == some .directory then
        .error (.isADirectory path)
      else .ok (tree.put target.place (.file content))

def removeFile (tree : Tree) (path : String) : Tree :=
  match tree.locate path with
  | .ok target => if tree.isFile path then tree.clear target.place else tree
  | .error _ => tree

/-- The directory at the end of a path deleted, which has to be empty. -/
def removeDirectory? (tree : Tree) (path : String) : Option Tree :=
  match tree.locate path with
  | .ok target =>
      if !target.dotted && tree.nodes.find? target.place == some .directory &&
          (tree.below target.place).isEmpty then
        some (tree.clear target.place)
      else none
  | .error _ => none

def shownPath (entry : Place × Node) : String :=
  Path.ofNames entry.1 ++ if entry.2 = .directory then "/" else ""

def listing (tree : Tree) : List (String × Node) :=
  (tree.nodes.entries.map fun entry => (shownPath entry, entry.2)).mergeSort fun first second =>
    !(second.1 < first.1)

end Tree

end HeaderDocs
