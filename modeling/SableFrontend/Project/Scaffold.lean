import SableFrontend.Project.Settings

/-!
New projects. A new project is a directory with its settings, a first source file, and a list of
what is not to be kept under version control. Nothing may stand where the directory is to be made.
-/

namespace SableFrontend

namespace Scaffold

/-- The settings of a new project. -/
def settingsText (name : String) : String :=
  "[package]\nname = \"" ++ name ++ "\"\nversion = \"0.1.0\"\nauthors = []\n\n" ++
    "[source]\ndirs = [\"src\"]\n\n" ++
    "[check]\ncolor = true\nwarnings_as_errors = false\n"

/-- The first source file of a new project. -/
def mainText : String :=
  "module Main\n\n" ++
    "@ String -> [IO] ()\n" ++
    "greet name = print (\"Hello, \" ++ name ++ \"!\")\n\n" ++
    "main = [\n    who = \"Sable\"\n    greet who\n]\n"

/-- What is not to be kept under version control. -/
def ignoredText : String := "__pycache__/\n.sable/\n"

/-- The files of a new project, by where they stand in it. -/
def files (name : String) : List (Location × String) :=
  [([Settings.fileName], settingsText name),
    (["src", "main.sbl"], mainText),
    ([".gitignore"], ignoredText)]

/-- Where the directory of a new project is made. -/
def directory (here : Location) (name : String) : Path :=
  ((Path.ofLocation here).append (.ofText name)).normal

end Scaffold

/-- Why a project cannot be made, or not be made as a whole. -/
inductive ScaffoldFault where
  | alreadyExists (name : String)
  | inTheWay (path : Path)
  | notADirectory
  | isDirectory
  | pathTooLong
  | unusableName
  | tooDeep
  deriving DecidableEq, Repr

/-- The wording of a fault. -/
def ScaffoldFault.message : ScaffoldFault → String
  | alreadyExists name => "Directory '" ++ name ++ "' already exists"
  | inTheWay path => "[Errno 17] File exists: " ++ Text.Quoted.encode path.text
  | notADirectory => "Not a directory"
  | isDirectory => "Is a directory"
  | pathTooLong => "File name too long"
  | unusableName => "embedded null byte"
  | tooDeep => "maximum recursion depth exceeded"

namespace Scaffold

/-- How many directories can be made on the way to a new one. -/
def maxNewDirectories : Nat := 980

/-- Makes the directories along the steps of a path; `taken` are the steps that have led `here`.
Before the first directory is made, nothing on the way may be a file; after it, nothing may stand
in the way, and the last directory has to be new. -/
def makeDirectories (taken : List String) (here : Location) (grown : Bool) :
    List String → FileTree → Except ScaffoldFault FileTree
  | [], tree => .ok tree
  | name :: rest, tree =>
    let place := Path.step here name
    let taken := taken ++ [name]
    if Path.isLongName name then .error .pathTooLong
    else
      match tree.get? place with
      | none =>
        if !grown && maxNewDirectories < rest.length then .error .tooDeep
        else makeDirectories taken place true rest (tree.makeDirectory place)
      | some (.directory _) =>
        if grown && rest.isEmpty then .error (.inTheWay { absolute := true, steps := taken })
        else makeDirectories taken place grown rest tree
      | some (.file _) =>
        if grown then .error (.inTheWay { absolute := true, steps := taken })
        else .error .notADirectory

/-- The files that are written, in order, up to the first that cannot be: its path is too long, or a
directory stands in its place. -/
def writable (tree : FileTree) :
    List (Path × String) → List (Location × String) × Option ScaffoldFault
  | [] => ([], none)
  | (path, text) :: rest =>
    if path.isTooLong then ([], some .pathTooLong)
    else
      match tree.get? (path.resolve []) with
      | some (.directory _) => ([], some .isDirectory)
      | _ =>
        let (more, fault?) := writable tree rest
        ((path.resolve [], text) :: more, fault?)

end Scaffold

namespace FileTree

/-- Makes a project called `name`: the files that are written, and why they are not all of
them. -/
def scaffold (root : FileTree) (here : Location) (name : String) :
    List (Location × String) × Option ScaffoldFault :=
  let path := Scaffold.directory here name
  let inside (names : List String) : Path := { path with steps := path.steps ++ names }
  if !path.isUsable then ([], some .unusableName)
  else
    match root.lookup [] path with
    | .found _ _ => ([], some (.alreadyExists name))
    | .tooLong => ([], some .pathTooLong)
    | _ =>
      if (inside ["src"]).isTooLong then ([], some .pathTooLong)
      else
        match Scaffold.makeDirectories [] [] false (inside ["src"]).steps root with
        | .error fault => ([], some fault)
        | .ok tree =>
          Scaffold.writable tree
            ((Scaffold.files name).map fun (place, text) => (inside place, text))

end FileTree

end SableFrontend
