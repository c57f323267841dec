import SableFrontend.Command.Run

/-!
The program. It looks at the places on the disk that a command line is about, runs the command on
what it saw there, makes the files that the command asks for, and writes what there is to say.
-/

namespace SableFrontend.Program

/-! ### What a command is about -/

/-- The locations that a path passes, from where it begins to where it leads. -/
def stations (here : Location) (path : Path) : List Location :=
  (List.range (path.steps.length + 1)).map fun count =>
    (path.steps.take count).foldl Path.step (path.origin here)

/-- The locations at which settings may stand that apply to a location. -/
def settingsPlaces (place : Location) : List Location :=
  (List.range (place.length + 1)).map fun count => place.take count ++ [Settings.fileName]

/-- The locations that a command is about, before its settings are known. -/
def concerned (here : Location) : Command → List Location
  | .help | .version => []
  | .check text =>
    let path := Path.ofText text
    stations here path ++ settingsPlaces (path.resolve here)
  | .scaffold name =>
    let path := Scaffold.directory here name
    stations [] path ++ (Scaffold.files name).map fun file => path.resolve [] ++ file.1
  | .tokens text | .view text => stations here (.ofText text)

/-- The source directories that a check of a path goes through. -/
def sourcePlaces (seen : FileTree) (here : Location) (path : Path) : List Path :=
  match seen.findSettings here path with
  | .error _ => []
  | .ok location =>
    match seen.loadSettings location with
    | .error _ => []
    | .ok settings =>
      (settings.sourceDirItems?.getD []).filterMap fun item =>
        match item with
        | .text name => some (FileTree.sourceDirectory location.dropLast name)
        | _ => none

/-- What is written about a command that breaks off. -/
def faultText : CommandFault → String
  | .settings .malformed => "the settings are malformed"
  | .settings (.overlongInteger literal) => literal.message
  | .settings .tooDeep => "the values in the settings nest too deeply"
  | .settings .sectionNotTable => "a section of the settings is not a table"
  | .settings .isDirectory => "the settings are a directory"
  | .dirsNotTexts => "the source directories in the settings are not texts"
  | .isDirectory => "a directory stands where a file should"
  | .notADirectory => "a file stands where a directory should"
  | .overlongInteger literal => literal.message
  | .unusablePath => SearchFault.unusablePath.message
  | .pathTooLong => SearchFault.pathTooLong.message
  | .tooDeep => ScaffoldFault.tooDeep.message

/-! ### The disk -/

/-- The text of a location. -/
def diskText (location : Location) : String := (Path.ofLocation location).text

/-- Adds what stands at a location to what has been seen, a directory without what is in it. -/
def see (seen : FileTree) (location : Location) : IO FileTree := do
  let path := (← IO.currentDir) / diskText location
  if (seen.get? location).isSome then return seen
  else if ← path.isDir then return seen.makeDirectory location
  else if ← path.pathExists then return seen.put location (.file (← IO.FS.readFile path))
  else return seen

/-- Whether a check wants the text of the file at a location. -/
def isWanted (location : Location) : Bool :=
  FileTree.isSourceName location || location.getLast? == some Settings.fileName

/-- What stands at a location, with everything below it. Only the files that a check wants are
read, and links to directories are not followed. -/
partial def readTree (location : Location) : IO FileTree := do
  let path := (← IO.currentDir) / diskText location
  if ← path.isDir then
    let mut entries := []
    for entry in ← path.readDir do
      let place := location ++ [entry.fileName]
      let kind := (← entry.path.symlinkMetadata).type
      let tree ←
        if kind == .symlink && (← entry.path.isDir) then pure FileTree.empty else readTree place
      entries := (entry.fileName, tree) :: entries
    return .directory entries
  else if isWanted location then return .file (← IO.FS.readFile path)
  else return .file ""

/-- Adds a source directory, if there is one, to what has been seen. -/
def seeSources (seen : FileTree) (path : Path) : IO FileTree := do
  let seen ← (stations [] path).foldlM see seen
  match seen.lookup [] path with
  | .found location (.directory _) => return seen.put location (← readTree location)
  | _ => return seen

/-- What there is to be seen on the disk that a command is about. -/
def survey (here : Location) (command : Command) : IO FileTree := do
  let seen ← (concerned here command).foldlM see (FileTree.empty.makeDirectory here)
  match command with
  | .check text => (sourcePlaces seen here (.ofText text)).foldlM seeSources seen
  | _ => return seen

/-- Writes a message, with its paints only where they can be seen. -/
def say (message : Message) : IO Unit := do
  let stream ←
    match message.channel with
    | .output => IO.getStdout
    | .errors => IO.getStderr
  let painted ← stream.isTty
  stream.putStrLn (if painted then message.text else Paint.plain message.text)

/-- Makes a file, and the directories above it. -/
def make (location : Location) (text : String) : IO Unit := do
  IO.FS.createDirAll (diskText location.dropLast)
  IO.FS.writeFile (diskText location) text

/-- Writes and makes what comes of a command. -/
def carryOut (outcome : Outcome) : IO UInt32 := do
  for (location, text) in outcome.written do
    make location text
  for message in outcome.messages do
    say message
  match outcome.verdict with
  | .misuse => say ⟨.errors, usageText⟩
  | .broken fault => say ⟨.errors, "error: " ++ faultText fault⟩
  | _ => pure ()
  return outcome.verdict.exitCode.toUInt32

end SableFrontend.Program

/-- Runs the command line that the program was started with. -/
def main (arguments : List String) : IO UInt32 := do
  let here := (SableFrontend.Path.ofText (← IO.currentDir).toString).resolve []
  match SableFrontend.Command.ofArguments? arguments with
  | none => SableFrontend.Program.carryOut .misuse
  | some command =>
    let seen ← SableFrontend.Program.survey here command
    SableFrontend.Program.carryOut (command.run seen here)
