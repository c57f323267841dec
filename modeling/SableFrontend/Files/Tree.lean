import SableFrontend.Files.Path
import SableFrontend.Text.Lines

/-!
Trees of files. A tree is a file with its text, or a directory with named trees in it; paths are
followed through it step by step, and only directories can be stepped through.
-/

namespace SableFrontend

/-- A file or a directory with what is in it. -/
inductive FileTree where
  | file (text : String)
  | directory (children : List (String × FileTree))

namespace FileTree

/-- A directory with nothing in it. -/
def empty : FileTree := .directory []

instance : Inhabited FileTree := ⟨empty⟩

/-- What the named children of a tree are; a file has none. -/
def children : FileTree → List (String × FileTree)
  | file _ => []
  | directory entries => entries

/-- Whether a tree is a directory. -/
def isDirectory : FileTree → Bool
  | file _ => false
  | directory _ => true

/-- What stands at a location. -/
def get? : FileTree → Location → Option FileTree
  | tree, [] => some tree
  | tree, name :: rest => (tree.children.lookup name).bind fun child => get? child rest

/-- Puts a tree at a location, in the place of what stands there, and makes directories on the
way. -/
def put (tree : FileTree) (location : Location) (content : FileTree) : FileTree :=
  match location with
  | [] => content
  | name :: rest =>
    let inner := ((tree.children.lookup name).getD empty).put rest content
    .directory ((name, inner) :: tree.children.filter fun entry => entry.1 != name)

/-- Makes a directory at a location, unless there is one. -/
def makeDirectory (tree : FileTree) (location : Location) : FileTree :=
  match tree.get? location with
  | some (.directory _) => tree
  | _ => tree.put location empty

theorem get?_put_self (tree : FileTree) (location : Location) (content : FileTree) :
    (tree.put location content).get? location = some content := by
  induction location generalizing tree with
  | nil => simp [put, get?]
  | cons name rest ih => simp [put, get?, children, ih]

/-! ### Following paths -/

/-- How looking up a path ends. A path is blocked by a file on the way, and neither it nor any
name in it may be too long. -/
inductive Lookup where
  | found (location : Location) (tree : FileTree)
  | missing
  | blocked
  | tooLong

/-- Follows steps through a tree; `root` is the tree as a whole, and `here` a location in it. -/
def follow (root : FileTree) : (here : Location) → List String → Lookup
  | here, [] =>
    match root.get? here with
    | some tree => .found here tree
    | none => .missing
  | here, name :: rest =>
    match root.get? here with
    | none => .missing
    | some (.file _) => .blocked
    | some (.directory _) =>
      if Path.isLongName name then .tooLong else follow root (Path.step here name) rest

/-- Looks up a path from a location. -/
def lookup (root : FileTree) (here : Location) (path : Path) : Lookup :=
  if path.isTooLong then .tooLong else root.follow (path.origin here) path.steps

/-- What a path leads to, if it leads anywhere. -/
def find? (root : FileTree) (here : Location) (path : Path) : Option FileTree :=
  match root.lookup here path with
  | .found _ tree => some tree
  | _ => none

/-! ### Everything in a tree -/

mutual

/-- Everything below a tree, by the names that lead to it. -/
def descendants : FileTree → List (Location × FileTree)
  | file _ => []
  | directory entries => descendantsOf entries

/-- Everything in and below the entries of a directory. -/
def descendantsOf : List (String × FileTree) → List (Location × FileTree)
  | [] => []
  | (name, child) :: rest =>
    ([name], child) :: (child.descendants.map fun (path, tree) => (name :: path, tree)) ++
      descendantsOf rest

end

/-- The text of a file as programs read it, with every line break as a newline. -/
def readText (text : String) : String := String.ofList (Text.normalizeNewlines text.toList)

end FileTree

end SableFrontend
