import SableFrontend.Project.Settings

/-!
The source files of a project: everything called `*.sbl` in and below its source directories. The
directories are taken in the order of the settings, and the files of one directory in the order of
their paths, name by name.
-/

namespace SableFrontend

/-- Why the source files of a project cannot be listed. -/
inductive SourcesFault where
  | notTexts
  | pathTooLong
  deriving DecidableEq, Repr

namespace FileTree

/-- The ending of the names of source files. -/
def sourceEnding : String := ".sbl"

/-- Whether a location is called like a source file. -/
def isSourceName (location : Location) : Bool :=
  location.getLast?.any fun name => sourceEnding.toList.isSuffixOf name.toList

/-- A source directory by its name in the settings of the project at `project`. -/
def sourceDirectory (project : Location) (name : String) : Path :=
  ((Path.ofLocation project).append (.ofText name)).normal

/-- Everything below a tree by the paths that lead to it, of which `path` leads to the tree. -/
def pathsBelow (path : Path) (tree : FileTree) : List (Path × FileTree) :=
  (tree.descendants.mergeSort fun a b => Location.precedes a.1 b.1).map fun (place, found) =>
    ({ path with steps := path.steps ++ place }, found)

/-- The source files in and below a directory. Every directory has to be gone through. -/
def sourcesBelow (path : Path) (tree : FileTree) : Except SourcesFault (List (Path × FileTree)) :=
  let below := pathsBelow path tree
  if below.any fun (place, found) => found.isDirectory && place.isTooLong then
    .error .pathTooLong
  else .ok (below.filter fun (place, _) => isSourceName place.steps)

/-- The source files that one item of the settings stands for. A directory that does not exist
has none. -/
def itemSources (root : FileTree) (project : Location) (item : Toml.Value) :
    Except SourcesFault (List (Path × FileTree)) :=
  match item with
  | .text name =>
    let path := sourceDirectory project name
    if !path.isUsable then .ok []
    else
      match root.lookup [] path with
      | .tooLong => .error .pathTooLong
      | .found _ tree => sourcesBelow path tree
      | _ => .ok []
  | _ => .error .notTexts

/-- The source files of a project, item by item of the settings. -/
def projectSources (root : FileTree) (project : Location) :
    (items : List Toml.Value) → Except SourcesFault (List (Path × FileTree))
  | [] => .ok []
  | item :: rest => do
    let found ← root.itemSources project item
    let more ← projectSources root project rest
    return found ++ more

end FileTree

end SableFrontend
