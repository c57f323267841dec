import SableFrontend.Files.Tree
import SableFrontend.Toml.Document

/-!
The settings of a project. They stand in a TOML file at the top of the project, in three sections
that may all be missing; a section or a key that is missing has its default. The values are taken
as they are given, whatever they are.
-/

namespace SableFrontend

/-- The settings of a project. -/
structure Settings where
  name : Toml.Value := .text "untitled"
  version : Toml.Value := .text "0.0.0"
  authors : Toml.Value := .array []
  sourceDirs : Toml.Value := .array [.text "src"]
  color : Toml.Value := .flag true
  warningsAsErrors : Toml.Value := .flag false

/-- Why there are no settings to be had from a place. -/
inductive SettingsFault where
  | malformed
  | overlongInteger (literal : OverlongInteger)
  | tooDeep
  | sectionNotTable
  | isDirectory
  deriving DecidableEq, Repr

namespace Settings

/-- The settings of a project that says nothing. -/
def standard : Settings := {}

/-- The name of the file that holds the settings. -/
def fileName : String := "sable.toml"

/-- The entries of a section, which are none if it is missing. -/
def entriesOf (document : Toml.Table) (name : String) : Except SettingsFault Toml.Table :=
  match document.get? name with
  | none => .ok []
  | some (.table entries) => .ok entries
  | some _ => .error .sectionNotTable

/-- The settings that a TOML document gives. -/
def ofDocument (document : Toml.Table) : Except SettingsFault Settings := do
  let package ← entriesOf document "package"
  let source ← entriesOf document "source"
  let check ← entriesOf document "check"
  return {
    name := (package.get? "name").getD standard.name
    version := (package.get? "version").getD standard.version
    authors := (package.get? "authors").getD standard.authors
    sourceDirs := (source.get? "dirs").getD standard.sourceDirs
    color := (check.get? "color").getD standard.color
    warningsAsErrors := (check.get? "warnings_as_errors").getD standard.warningsAsErrors }

/-- The settings that a text gives. -/
def ofText (text : String) : Except SettingsFault Settings :=
  match Toml.parse text with
  | .ok document => ofDocument document
  | .error .malformed => .error .malformed
  | .error (.overlongInteger literal) => .error (.overlongInteger literal)
  | .error .tooDeep => .error .tooDeep

/-- The settings that a file gives. -/
def ofFile : FileTree → Except SettingsFault Settings
  | .file text => ofText text
  | .directory _ => .error .isDirectory

/-- The settings of a document without sections are the standard ones. -/
theorem ofDocument_nil : ofDocument [] = .ok standard := rfl

/-- What the settings list as source directories, if it is a list: the items of an array, the
keys of a table, or the characters of a text. -/
def sourceDirItems? (settings : Settings) : Option (List Toml.Value) :=
  match settings.sourceDirs with
  | .array items => some items
  | .table entries => some (entries.map fun entry => .text entry.1)
  | .text names => some (names.toList.map fun c => .text (String.singleton c))
  | _ => none

end Settings

/-! ### Finding the settings -/

/-- Why the search for settings ends without any. -/
inductive SearchFault where
  | noSettings
  | unusablePath
  | pathTooLong
  deriving DecidableEq, Repr

/-- The wording of a fault. -/
def SearchFault.message : SearchFault → String
  | noSettings => "No " ++ Settings.fileName ++ " found in any parent directory"
  | unusablePath => "embedded null byte"
  | pathTooLong => "File name too long"

namespace FileTree

/-- What stands at a location, looked up by the path from the root. -/
def lookupLocation (root : FileTree) (location : Location) : Lookup :=
  root.lookup [] (.ofLocation location)

/-- The nearest location at or above `here` at which the settings stand, at most `above` steps
up. -/
def settingsAbove (root : FileTree) : (above : Nat) → (here : Location) →
    Except SearchFault Location
  | above, here =>
    match root.lookupLocation (here ++ [Settings.fileName]) with
    | .found location _ => .ok location
    | .tooLong => .error .pathTooLong
    | _ =>
      match above with
      | 0 => .error .noSettings
      | above + 1 => settingsAbove root above here.dropLast

/-- The location of the settings for what a path leads to: they stand beside a file, in a
directory, or above. The path is taken by its names alone, and need not lead anywhere. -/
def findSettings (root : FileTree) (here : Location) (path : Path) :
    Except SearchFault Location :=
  if !path.isUsable then .error .unusablePath
  else
    let start := path.resolve here
    match root.lookupLocation start with
    | .tooLong => .error .pathTooLong
    | .found _ (.file _) => root.settingsAbove start.length start.dropLast
    | _ => root.settingsAbove start.length start

end FileTree

end SableFrontend
