import HeaderDocs.Files.Tree
import HeaderDocs.Glob

/-!
The headers below a directory. The files of a directory come in the order of their names, and before
those of its subdirectories, which come in the order of theirs.
-/

namespace HeaderDocs.Site

/-- The order of places: at the first difference, a file before a directory, else the smaller
name. -/
def placeOrder : Place → Place → Bool
  | [], _ => true
  | _ :: _, [] => false
  | [first], [second] => !(second < first)
  | [_], _ :: _ :: _ => true
  | _ :: _ :: _, [_] => false
  | first :: firstRest, second :: secondRest =>
      if first = second then placeOrder firstRest secondRest else !(second < first)

def isHeaderPlace (place : Place) : Bool :=
  match place.getLast? with
  | some name => Text.endsWith ['.', 'h'] name.toList
  | none => false

def headerPlaces (tree : Tree) (root : String) : List Place :=
  match tree.locate root, tree.isDirectory root with
  | .ok target, true =>
      let headers := (tree.below target.place).filter fun entry =>
        entry.2 ≠ .directory && isHeaderPlace entry.1
      (headers.map Prod.fst).mergeSort placeOrder
  | _, _ => []

def isExcluded (exclude : List String) (place : Place) : Bool :=
  exclude.any fun pattern =>
    globAccepts pattern (place.getLast?.getD "") || globAccepts pattern (Path.ofNames place)

def discover (tree : Tree) (root : String) (exclude : List String) : List String :=
  ((headerPlaces tree root).filter fun place => !isExcluded exclude place).map Path.ofNames

end HeaderDocs.Site
