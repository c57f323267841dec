import SableFrontend.Command.Outcome
import SableFrontend.Grammar.Source
import SableFrontend.Project.Sources

/-!
Checking: parsing files and reporting what is wrong with them. A file is checked by itself, with
the settings that stand above it; a project is checked as a whole, all of its source files in
order.
-/

namespace SableFrontend

namespace Settings

/-- Whether the settings count a diagnostic as a failure. -/
def rejects (settings : Settings) (diagnostic : Diagnostic) : Bool :=
  match diagnostic.severity with
  | .error => true
  | .warning => settings.warningsAsErrors.isTruthy
  | .note => false

end Settings

/-- The diagnostics of a source as messages. -/
def diagnosticMessages (color : Bool) (name source : String) (diagnostics : List Diagnostic) :
    List Message :=
  let lines := LineSource.ofTexts [(name, SourceText.ofString source)]
  diagnostics.map fun diagnostic => ⟨.errors, diagnostic.render color lines⟩

/-- Checks one file: what there is to say, and whether it may stay as it is. -/
def checkFile (settings : Settings) (path : Path) (file : FileTree) :
    Except CommandFault (List Message × Bool) :=
  if path.isTooLong then .error .pathTooLong
  else
    match file with
    | .directory _ => .error .isDirectory
    | .file text =>
      let name := path.text
      let source := FileTree.readText text
      match parseSource source name with
      | .error literal => .error (.overlongInteger literal)
      | .ok result =>
        .ok (diagnosticMessages settings.color.isTruthy name source result.diagnostics,
          !result.diagnostics.any settings.rejects)

/-- Checks files in order, up to the first that cannot be checked. -/
def checkFiles (settings : Settings) : List (Path × FileTree) → Outcome
  | [] => { messages := [], verdict := .success }
  | (path, file) :: rest =>
    match checkFile settings path file with
    | .error fault => .breaking fault
    | .ok (messages, clean) =>
      let more := checkFiles settings rest
      let verdict := if clean || more.verdict != .success then more.verdict else .failure
      { messages := messages ++ more.messages, verdict := verdict }

/-- What comes of a check once its files have been checked. -/
def concluding (files : Outcome) (conclusion : String) : Outcome :=
  match files.verdict with
  | .success => { files with messages := files.messages ++ [⟨.output, conclusion⟩] }
  | _ => files

/-- The words of a check that found nothing. -/
def checkedMessage (name : String) : String := "checked " ++ name ++ " - no errors"

namespace FileTree

/-- The settings at a location. -/
def loadSettings (root : FileTree) (location : Location) : Except CommandFault Settings :=
  match root.get? location with
  | none => .ok .standard
  | some tree => (Settings.ofFile tree).mapError .settings

/-- The settings that apply to a file, which are the standard ones if there are none above it. -/
def settingsFor (root : FileTree) (here : Location) (path : Path) :
    Except CommandFault Settings :=
  match root.findSettings here path with
  | .ok location => root.loadSettings location
  | .error .noSettings => .ok .standard
  | .error .unusablePath => .error .unusablePath
  | .error .pathTooLong => .error .pathTooLong

/-- Checks a single file. -/
def checkSingle (root : FileTree) (here : Location) (path : Path) (file : FileTree) : Outcome :=
  match root.settingsFor here path with
  | .error fault => .breaking fault
  | .ok settings =>
    concluding (checkFiles settings [(path, file)]) (checkedMessage path.text)

/-- Checks the project whose settings stand at a location. -/
def checkProject (root : FileTree) (location : Location) : Outcome :=
  match root.loadSettings location with
  | .error fault => .breaking fault
  | .ok settings =>
    match settings.name.display with
    | .error literal => .breaking (.overlongInteger literal)
    | .ok name =>
      Outcome.after [⟨.output, "checking " ++ name ++ "..."⟩] <|
        match settings.sourceDirItems? with
        | none => .breaking .dirsNotTexts
        | some items =>
          match root.projectSources location.dropLast items with
          | .error .notTexts => .breaking .dirsNotTexts
          | .error .pathTooLong => .breaking .pathTooLong
          | .ok [] =>
            { messages := [⟨.errors, "warning: no .sbl files found"⟩], verdict := .success }
          | .ok files => concluding (checkFiles settings files) (checkedMessage name)

/-- Checks what a path leads to: a file, or the project that a directory belongs to. -/
def check (root : FileTree) (here : Location) (path : Path) (target : FileTree) : Outcome :=
  match target with
  | .file _ => root.checkSingle here path.normal target
  | .directory _ =>
    match root.findSettings here path with
    | .ok location => root.checkProject location
    | .error .noSettings => .failing ("error: no " ++ Settings.fileName ++ " found")
    | .error .unusablePath => .breaking .unusablePath
    | .error .pathTooLong => .breaking .pathTooLong

end FileTree

end SableFrontend
