import SableFrontend.Editor.Place
import SableFrontend.Grammar.Source
import SableFrontend.Source.Text

/-!
Documents: what an editor has open, as a text with what parsing it gave; and the questions that
are asked about one: the word at a place, the type of a name, the names to complete, the symbols.
-/

namespace SableFrontend.Editor

/-- An open document. -/
structure Document where
  source : String
  tokens : Array Token
  module? : Option Module
  problems : List Problem

/-- Analyses a document; its address stands for its file. -/
def Document.analyze (uri source : String) : Except OverlongInteger Document :=
  (parseSource source uri).map fun result => {
    source := source
    tokens := result.tokens
    module? := result.module?
    problems := result.diagnostics.map Problem.ofDiagnostic }

/-! ### The word at a place -/

/-- The word characters to the left and to the right of a character of a line. -/
def wordAround (line : List Char) (character : Nat) : List Char :=
  ((line.take character).reverse.takeWhile Text.isWordChar).reverse ++
    (line.drop character).takeWhile Text.isWordChar

/-- The word at a place of a line. Just past the end of the line, its last character counts. -/
def wordInLine (line : List Char) (character : Int) : List Char :=
  if 0 ≤ character ∧ character < line.length then wordAround line character.toNat
  else if 0 < character ∧ character = line.length then wordAround line (character.toNat - 1)
  else []

/-- The word at a place of a text; there may be none. -/
def wordAt (source : String) (place : Place) : String :=
  if place.line < 0 then ""
  else
    match (Text.lines source.toList)[place.line.toNat]? with
    | none => ""
    | some line => String.ofList (wordInLine line place.character)

/-! ### The type of a name -/

/-- The type that a declaration gives to a name. -/
def ascribedType? (name : String) : Declaration → Option TypeExpr
  | .ascription ascription => if ascription.name = name then some ascription.typeExpr else none
  | _ => none

namespace Document

/-- The text of the type that the first annotation of a name gives it. -/
def typeText? (document : Document) (name : String) : Option String := do
  let source ← document.module?
  let type ← source.declarations.findSome? (ascribedType? name)
  return String.ofList ((SourceText.ofString document.source).spanText type.span)

/-- What is shown about the word at a place: the word with its type. -/
def hover? (document : Document) (place : Place) : Option String :=
  let word := wordAt document.source place
  if word.isEmpty then none
  else (document.typeText? word).map fun type => "`" ++ word ++ " @ " ++ type ++ "`"

end Document

/-! ### Completion -/

/-- What a completion stands for. -/
inductive CompletionKind where
  | keyword
  | className
  | function
  deriving DecidableEq, Repr

/-- The number of a kind of completion in the editor protocol. -/
def CompletionKind.number : CompletionKind → Nat
  | function => 3
  | className => 7
  | keyword => 14

/-- A completion. -/
structure Completion where
  label : String
  kind : CompletionKind
  deriving DecidableEq, Repr

/-- The names that a declaration brings to the top level: its own, and those of its explicit
constructors, its operations or its signatures. Annotations and instances bring none. -/
def namesOf : Declaration → List String
  | .definition definition => [definition.name]
  | .data name _ constructors _ =>
    name :: (constructors.filter fun c => !c.implicit).map (·.name)
  | .effect name _ operations _ => name :: operations.map (·.name)
  | .typeClass name _ _ members _ =>
    name :: (members.filterMap ClassMember.signature?).map (·.name)
  | .ascription _ | .classInstance _ _ _ _ _ => []

/-- Each name once, in the order in which they first appear. -/
def distinctNames (names : List String) : List String :=
  (names.foldl (fun kept name => if kept.contains name then kept else name :: kept) []).reverse

/-- The names at the top level of a module, each once. -/
def topLevelNames (source : Module) : List String :=
  distinctNames (source.declarations.flatMap namesOf)

/-- The completion of a name: one that begins in upper case is taken for a class. -/
def completionOf (name : String) : Completion where
  label := name
  kind := if name.toList.head?.any Text.isUpper then .className else .function

/-- The reserved words in alphabetical order. -/
def keywordCompletions : List Completion :=
  ((Keyword.all.map Keyword.spelling).mergeSort fun a b => decide (a ≤ b)).map fun word =>
    { label := word, kind := .keyword }

/-- The completions in a document, or in one that is not open. -/
def completions (document? : Option Document) : List Completion :=
  keywordCompletions ++
    ((document?.bind Document.module?).elim [] fun source =>
      (topLevelNames source).map completionOf)

/-! ### Symbols -/

/-- The kinds of symbols. -/
inductive SymbolKind where
  | dataType
  | method
  | constructor
  | interface
  | function
  | constant
  | object
  | event
  deriving DecidableEq, Repr

/-- The number of a kind of symbol in the editor protocol. -/
def SymbolKind.number : SymbolKind → Nat
  | .dataType => 5
  | .method => 6
  | .constructor => 9
  | .interface => 11
  | .function => 12
  | .constant => 14
  | .object => 19
  | .event => 24

/-- A symbol without parts. -/
structure SymbolLeaf where
  name : String
  kind : SymbolKind
  range : Range
  deriving DecidableEq, Repr

/-- A symbol with its parts. -/
structure DocumentSymbol where
  head : SymbolLeaf
  children : List SymbolLeaf
  deriving DecidableEq, Repr

/-- A symbol at a span. -/
def symbolLeaf (name : String) (kind : SymbolKind) (span : Span) : SymbolLeaf :=
  { name := name, kind := kind, range := .ofSpan span }

/-- A definition without parameters is a constant. -/
def definitionKind (definition : TermDef) : SymbolKind :=
  if definition.clauses.all fun clause => clause.patterns.isEmpty then .constant else .function

/-- The symbol of a declaration. Annotations have none. -/
def symbolOf? : Declaration → Option DocumentSymbol
  | .definition definition => some {
      head := symbolLeaf definition.name (definitionKind definition) definition.span
      children := [] }
  | .data name _ constructors span => some {
      head := symbolLeaf name .dataType span
      children := (constructors.filter fun c => !c.implicit).map fun c =>
        symbolLeaf c.name .constructor c.span }
  | .effect name _ operations span => some {
      head := symbolLeaf name .event span
      children := operations.map fun o => symbolLeaf o.name .method o.span }
  | .typeClass name _ _ members span => some {
      head := symbolLeaf name .interface span
      children := (members.filterMap ClassMember.signature?).map fun s =>
        symbolLeaf s.name .method s.span }
  | .classInstance className _ _ _ span => some {
      head := symbolLeaf ("instance " ++ className) .object span
      children := [] }
  | .ascription _ => none

/-- The symbols of a document, or of one that is not open. -/
def symbols (document? : Option Document) : List DocumentSymbol :=
  (document?.bind Document.module?).elim [] fun source => source.declarations.filterMap symbolOf?

end SableFrontend.Editor
