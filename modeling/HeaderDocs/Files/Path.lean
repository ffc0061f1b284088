import HeaderDocs.Text.Find

/-!
Paths as text. A path is a number of leading slashes, of which none, one or two matter, and names
with slashes between them. Normal paths have no empty name, no `.`, and no `..` but at the start of
a relative path.
-/

namespace HeaderDocs.Path

/-- The directory that relative paths start from, where one has to be named. -/
def workingDirectory : String :=
  "/w"

def pieces (path : String) : List String :=
  (path.toList.splitOn '/').map String.ofList

def ofNames (names : List String) : String :=
  String.intercalate "/" names

def isAbsolute (path : String) : Bool :=
  Text.startsWith ['/'] path.toList

/-- The leading slashes that matter: two stay two, and more count as one. -/
def root (path : String) : String :=
  match path.toList with
  | '/' :: '/' :: '/' :: _ => "/"
  | '/' :: '/' :: _ => "//"
  | '/' :: _ => "/"
  | _ => ""

/-- The names of a path after one more piece, the last name first. A `..` takes a name away; with
none to take it is kept in a relative path and dropped at the root. -/
def step (rooted : Bool) (names : List String) (piece : String) : List String :=
  if piece = "" ∨ piece = "." then names
  else if piece = ".." then
    match names with
    | [] => if rooted then [] else [".."]
    | last :: before => if last = ".." then ".." :: names else before
  else piece :: names

def collapse (rooted : Bool) (pieces : List String) : List String :=
  (pieces.foldl (step rooted) []).reverse

def names (path : String) : List String :=
  collapse (isAbsolute path) (pieces path)

def normalize (path : String) : String :=
  let text := root path ++ ofNames (names path)
  if text.isEmpty then "." else text

def join (base path : String) : String :=
  if isAbsolute path then path
  else if base.isEmpty || Text.endsWith ['/'] base.toList then base ++ path
  else base ++ "/" ++ path

def splitLeaf (path : List Char) : List Char × List Char :=
  let reversed := path.reverse
  ((reversed.dropWhile (· != '/')).reverse, (reversed.takeWhile (· != '/')).reverse)

/-- A path without trailing slashes, unless it is nothing else. -/
def dropSlashes (path : List Char) : List Char :=
  let bare := (path.reverse.dropWhile (· == '/')).reverse
  if bare.isEmpty then path else bare

def parent (path : String) : String :=
  String.ofList (dropSlashes (splitLeaf path.toList).1)

def leaf (path : String) : String :=
  String.ofList (splitLeaf path.toList).2

def absolute (path : String) : String :=
  normalize (if isAbsolute path then path else join workingDirectory path)

def commonNames : List String → List String → List String
  | first :: others, other :: rest => if first = other then first :: commonNames others rest else []
  | _, _ => []

/-- The names that lead from one list of names to another: up to what they have in common, and
down. -/
def namesFrom (start target : List String) : List String :=
  let common := (commonNames start target).length
  List.replicate (start.length - common) ".." ++ target.drop common

def relative (target start : String) : String :=
  match namesFrom (names (absolute start)) (names (absolute target)) with
  | [] => "."
  | steps => ofNames steps

def commonDirectory (first second : String) : String :=
  "/" ++ ofNames (commonNames (names first) (names second))

theorem split_leaf_join (path : List Char) : (splitLeaf path).1 ++ (splitLeaf path).2 = path := by
  simp only [splitLeaf]
  rw [← List.reverse_append, List.takeWhile_append_dropWhile, List.reverse_reverse]

theorem length_drop_slashes (path : List Char) : (dropSlashes path).length ≤ path.length := by
  have bare : (path.reverse.dropWhile (· == '/')).length ≤ path.reverse.length :=
    (List.dropWhile_suffix _).length_le
  simp only [dropSlashes]
  split
  · exact Nat.le_refl _
  · simpa using bare

end HeaderDocs.Path
