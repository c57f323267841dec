import SableFrontend.Command.Arguments
import SableFrontend.Command.Check
import SableFrontend.Tree.Outlines

/-!
Running commands on a tree of files. A command is a function of the tree, the location where it is
run, and its words; what it writes and makes is its outcome.
-/

namespace SableFrontend

/-- The name and number of the program. -/
def versionText : String := "sable, version 0.1.0"

/-- How the program is used. -/
def usageText : String :=
  "usage: sable [--version] [--help] (check [PATH] | new NAME | tokens FILE | view FILE)"

/-- The line of a token: its place, its kind and its text. -/
def tokenLine (token : Token) : String :=
  toString token.span.startLine ++ ":" ++ toString token.span.startColumn ++ "\t" ++
    token.kind.name ++ "\t" ++ Text.Quoted.encode token.value

/-- Lists the tokens of a source. -/
def tokensOf (name source : String) : Outcome :=
  match Token.ofText source name with
  | .error error =>
    { messages := diagnosticMessages true name source [.ofLexError error], verdict := .failure }
  | .ok tokens =>
    { messages := tokens.toList.map fun token => ⟨.output, tokenLine token⟩, verdict := .success }

/-- How deep a listing may go, in nodes. -/
def maxListingDepth : Nat := 980

/-- Writes lines up to the first that stands too deep, or whose number is too long to be
written. -/
def writeListing : List ListingLine → Outcome
  | [] => { messages := [], verdict := .success }
  | line :: rest =>
    if maxListingDepth < line.depth / 2 then .breaking .tooDeep
    else
      match line.integer?.bind OverlongInteger.ofInt? with
      | some literal => .breaking (.overlongInteger literal)
      | none => (writeListing rest).after [⟨.output, line.spelled⟩]

/-- Lists the tree of a source, or says what is wrong with it. -/
def viewOf (name source : String) : Outcome :=
  match parseSource source name with
  | .error literal => .breaking (.overlongInteger literal)
  | .ok result =>
    match result.module?, result.ok with
    | some tree, true => writeListing (tree.outline.listing 0)
    | _, _ =>
      { messages := diagnosticMessages true name source result.diagnostics, verdict := .failure }

/-- Does something with the text of a file. -/
def withText (target : FileTree) (action : String → Outcome) : Outcome :=
  match target with
  | .file text => action (FileTree.readText text)
  | .directory _ => .breaking .isDirectory

namespace FileTree

/-- Does something with what a path leads to, which has to exist. -/
def withTarget (root : FileTree) (here : Location) (text : String)
    (action : Path → FileTree → Outcome) : Outcome :=
  let path := Path.ofText text
  if text = "" then .misuse
  else if !path.isUsable then .breaking .unusablePath
  else
    match root.find? here path with
    | some target => action path target
    | none => .misuse

/-- Makes a new project. -/
def makeProject (root : FileTree) (here : Location) (name : String) : Outcome :=
  let (files, fault?) := root.scaffold here name
  let outcome : Outcome :=
    match fault? with
    | none =>
      .saying ("created project '" ++ name ++ "' at " ++ (Scaffold.directory here name).text)
    | some (.alreadyExists name) =>
      .failing ("error: " ++ (ScaffoldFault.alreadyExists name).message)
    | some (.inTheWay path) => .failing ("error: " ++ (ScaffoldFault.inTheWay path).message)
    | some .notADirectory => .breaking .notADirectory
    | some .isDirectory => .breaking .isDirectory
    | some .pathTooLong => .breaking .pathTooLong
    | some .unusableName => .breaking .unusablePath
    | some .tooDeep => .breaking .tooDeep
  { outcome with written := files }

end FileTree

namespace Command

/-- Runs a command at a location in a tree. -/
def run (root : FileTree) (here : Location) : Command → Outcome
  | help => .saying usageText
  | version => .saying versionText
  | check path => root.withTarget here path (root.check here)
  | scaffold name => root.makeProject here name
  | tokens path => root.withTarget here path fun _ target => withText target (tokensOf path)
  | view path => root.withTarget here path fun _ target => withText target (viewOf path)

/-- Runs a command line. -/
def runArguments (root : FileTree) (here : Location) (arguments : List String) : Outcome :=
  match ofArguments? arguments with
  | some command => command.run root here
  | none => .misuse

end Command

end SableFrontend
