import SableFrontend.Diagnostic.Basic
import SableFrontend.Tree.Expr

/-!
Grouping the statements of a block or a module: neighbouring clauses of one name become one
definition, and each type annotation is matched with the definition after it.
-/

namespace SableFrontend

/-- A statement as it is read. An annotation that stands alone has no name yet. -/
inductive Statement where
  | item (item : Item)
  | pending (typeExpr : TypeExpr) (span : Span)

/-! ### Merging clauses -/

/-- Two definitions of one name as one. -/
def TermDef.append (first second : TermDef) : TermDef where
  name := first.name
  clauses := first.clauses ++ second.clauses
  span := first.span.join second.span

section

variable {α : Type} (definition? : α → Option TermDef) (ofDefinition : TermDef → α)

/-- Adds an item to those before it, which stand in reverse order: a definition that continues the
one just before it is merged into that one. -/
def mergeStep (before : List α) (item : α) : List α :=
  match before with
  | [] => [item]
  | last :: rest =>
    match definition? last, definition? item with
    | some first, some second =>
      if first.name = second.name then ofDefinition (first.append second) :: rest
      else item :: before
    | _, _ => item :: before

/-- Merges neighbouring definitions of one name. -/
def mergeDefinitions (items : List α) : List α :=
  (items.foldl (mergeStep definition? ofDefinition) []).reverse

end

namespace Statement

/-- The definition that a statement is, if it is one. -/
def definition? : Statement → Option TermDef
  | item (.declaration (.definition definition)) => some definition
  | _ => none

/-- A definition as a statement. -/
def ofDefinition (definition : TermDef) : Statement := item (.declaration (.definition definition))

/-- A declaration as a statement. -/
def ofDeclaration (declaration : Declaration) : Statement := item (.declaration declaration)

/-- The name that an annotation before the statement belongs to: that of a definition or of a data
type. -/
def annotatedName? : Statement → Option String
  | item (.declaration (.definition definition)) => some definition.name
  | item (.declaration (.data name _ _ _)) => some name
  | _ => none

/-! ### Matching annotations -/

/-- What a statement becomes, when a definition of the name `target` follows it, and what is to be
reported about it. -/
def settle (target : Option String) : Statement → Option Item × Option Diagnostic
  | pending typeExpr span =>
    match target with
    | some name =>
      (some (.declaration (.ascription {
        name := name, typeExpr := typeExpr, attachment := .nextDeclaration, span := span })), none)
    | none =>
      (none, some (.errorAt .danglingAscription
        "type annotation is not followed by a definition" span [] []))
  | item (.declaration (.ascription ascription)) =>
    match ascription.attachment, target with
    | .sameLine, _ => (some (.declaration (.ascription ascription)), none)
    | .nextDeclaration, none =>
      (none, some (.errorAt .danglingAscription
        ("annotation for `" ++ ascription.name ++ "` is not followed by a definition")
        ascription.span [] []))
    | .nextDeclaration, some name =>
      (some (.declaration (.ascription ascription)),
        if name = ascription.name then none
        else some (.warningAt .ascriptionMismatch
          ("annotation names `" ++ ascription.name ++ "` but the next definition is `" ++ name ++
            "`")
          ascription.span ["the annotation is kept for `" ++ ascription.name ++ "`"]))
  | item other => (some other, none)

/-- Matches the annotations of a list of merged statements. -/
def settleAll : List Statement → List Item × List Diagnostic
  | [] => ([], [])
  | statement :: rest =>
    let (kept, reported) := statement.settle (rest.head?.bind annotatedName?)
    let (items, diagnostics) := settleAll rest
    (kept.toList ++ items, reported.toList ++ diagnostics)

/-- Groups the statements of a block or a module: the items, and what is to be reported. -/
def group (statements : List Statement) : List Item × List Diagnostic :=
  settleAll (mergeDefinitions definition? ofDefinition statements)

end Statement

end SableFrontend
