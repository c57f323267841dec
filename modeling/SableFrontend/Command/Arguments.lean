/-!
Command lines. The words before the name of a command are options of the program as a whole, and
those after it belong to the command. A word that begins with a dash, and is more than the dash,
is an option; two dashes end the options.
-/

namespace SableFrontend

/-- What the program can be asked to do. -/
inductive Command where
  | help
  | version
  | check (path : String)
  | scaffold (name : String)
  | tokens (path : String)
  | view (path : String)
  deriving DecidableEq, Repr

namespace Command

/-- Whether a word is an option. -/
def isOption (word : String) : Bool :=
  match word.toList with
  | '-' :: _ :: _ => true
  | _ => false

/-- The words after the name of a command: whether help is asked for, and the words that are no
options. There is no option but the one for help. -/
def splitOptions : List String → Option (Bool × List String)
  | [] => some (false, [])
  | word :: rest =>
    if word = "--" then some (false, rest)
    else if word = "--help" then (splitOptions rest).map fun (_, words) => (true, words)
    else if isOption word then none
    else (splitOptions rest).map fun (asked, words) => (asked, word :: words)

/-- A command by its name, with its words. -/
def ofName? (name : String) (words : List String) : Option Command :=
  match name, words with
  | "check", [] => some (check ".")
  | "check", [path] => some (check path)
  | "new", [name] => some (scaffold name)
  | "tokens", [path] => some (tokens path)
  | "view", [path] => some (view path)
  | _, _ => none

/-- The names of the commands. -/
def names : List String := ["check", "new", "tokens", "view"]

/-- A command by its name, with the words after it. -/
def ofWords? (name : String) (rest : List String) : Option Command :=
  match splitOptions rest with
  | some (true, _) => some help
  | some (false, words) => ofName? name words
  | none => none

/-- The options of the program at the start of a command line: what the first of them asks for,
and the words after them. -/
def programOptions : List String → Option (Option Command × List String)
  | [] => some (none, [])
  | word :: rest =>
    if word = "--" then some (none, rest)
    else if word = "--version" then (programOptions rest).map fun (_, words) => (some version, words)
    else if word = "--help" then (programOptions rest).map fun (_, words) => (some help, words)
    else if isOption word then none
    else some (none, word :: rest)

/-- The command that a command line asks for, if it makes sense. An option of the program comes
before any command. Where a command should be named and is not, options are looked for again. -/
def ofArguments? (arguments : List String) : Option Command :=
  match programOptions arguments with
  | none => none
  | some (some asked, _) => some asked
  | some (none, []) => none
  | some (none, name :: rest) =>
    if names.contains name then ofWords? name rest
    else (programOptions (name :: rest)).bind (·.1)

end Command

end SableFrontend
