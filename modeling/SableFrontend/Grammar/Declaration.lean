import SableFrontend.Grammar.Expr

/-!
The grammar of declarations and statements, which is the same at the top of a source and inside a
block.
-/

namespace SableFrontend.Parser

/-! ### Parts of headers -/

/-- The names of type parameters. -/
def typeParameters : Parser (List String) :=
  collectWhile (isAt .identifier) do return (← advance).value

/-- The sign and the bracket before the body of a declaration. -/
def openBody (what : String) : Parser Unit := do
  let _ ← expect .assign ("after " ++ what ++ " header")
  skipNewlines
  let _ ← expect (.opener .square) ("to open " ++ what ++ " body")

/-- A definition or an annotation, as one line gives them: either, or the annotation first. -/
structure DefinitionLine where
  ascription : Option Ascription
  definition : Option TermDef

namespace DefinitionLine

/-- The statements that a line gives. -/
def statements (line : DefinitionLine) : List Statement :=
  (line.ascription.map fun a => Statement.ofDeclaration (.ascription a)).toList ++
    (line.definition.map Statement.ofDefinition).toList

/-- The members of a type class that a line gives. -/
def members (line : DefinitionLine) : List ClassMember :=
  (line.ascription.map fun a =>
      ClassMember.signature { name := a.name, typeExpr := a.typeExpr, span := a.span }).toList ++
    (line.definition.map ClassMember.definition).toList

end DefinitionLine

section

variable (inner : Nested)

/-! ### Definitions -/

/-- The body of a definition, after its sign. -/
def definitionBody (name : Token) (patterns : List Pattern) : Parser TermDef := do
  skipNewlines
  let body ← inner.expression 0
  let span ← spanFrom name.span
  return {
    name := name.value
    clauses := [{ patterns := patterns, body := body, span := span }]
    span := span }

/-- A name with its type, and possibly with its value on the same line. -/
def annotatedDefinition (name : Token) : Parser DefinitionLine := do
  let _ ← advance
  let typeExpr ← inner.typeExpr
  let span ← spanFrom name.span
  let ascribed (attachment : Attachment) : Ascription :=
    { name := name.value, typeExpr := typeExpr, attachment := attachment, span := span }
  if ← isAt .assign then
    let _ ← advance
    let definition ← definitionBody inner name []
    return { ascription := some (ascribed .sameLine), definition := some definition }
  return { ascription := some (ascribed .nextDeclaration), definition := none }

/-- A name with its type, or with parameters and a value. -/
def definition : Parser DefinitionLine := do
  let name ← expect .identifier "as definition name"
  if ← isAt .atSign then annotatedDefinition inner name
  else
    let patterns ← collectWhile startsPatternAtom inner.patternAtom
    let _ ← expect .assign ("in definition of `" ++ name.value ++ "`")
    let definition ← definitionBody inner name patterns
    return { ascription := none, definition := some definition }

/-- An annotation that stands alone. -/
def pendingAscription : Parser Statement := do
  let start := (← advance).span
  let typeExpr ← inner.typeExpr
  return .pending typeExpr (← spanFrom start)

/-! ### Data types -/

/-- A field with its type, and possibly a default. -/
def fieldSpec : Parser FieldSpec := do
  let name ← expect .identifier "as field name"
  let _ ← expect .atSign ("after field `" ++ name.value ++ "`")
  let typeExpr ← inner.typeExpr
  let defaultValue ← do
    if ← isAt .assign then
      let _ ← advance
      skipNewlines
      some <$> inner.expression 0
    else pure none
  return {
    name := name.value, typeExpr := typeExpr, defaultValue := defaultValue
    span := ← spanFrom name.span }

/-- A constructor with types by position, or with fields in square brackets that touch it. -/
def constructorSpec : Parser ConstructorSpec := do
  let name ← expect .typeIdentifier "as constructor name"
  let next ← current
  if next.kind == .opener .square && name.touches next then
    let _ ← advance
    let named ← items (fieldSpec inner) (.closer .square) true "field"
    let _ ← expect (.closer .square) "to close constructor fields"
    return {
      name := name.value, positional := [], named := some named, implicit := false
      span := ← spanFrom name.span }
  let positional ← collectWhile startsTypeAtom inner.typeAtom
  return {
    name := name.value, positional := positional, named := none, implicit := false
    span := ← spanFrom name.span }

/-- An item of a data type: a field or a constructor. -/
def dataItem : Parser (FieldSpec ⊕ ConstructorSpec) := do
  if ← isAt .identifier then .inl <$> fieldSpec inner else .inr <$> constructorSpec inner

/-- A data type. One that is written as its fields alone has a constructor of its own name. -/
def dataDeclaration : Parser Declaration := do
  let start := (← advance).span
  let name ← expect .typeIdentifier "as data type name"
  let parameters ← typeParameters
  openBody "data"
  let entries ← items (dataItem inner) (.closer .square) true "constructor"
  let _ ← expect (.closer .square) "to close data body"
  let span ← spanFrom start
  let fields := entries.filterMap Sum.getLeft?
  let constructors := entries.filterMap Sum.getRight?
  match fields, constructors with
  | [], _ => return .data name.value parameters constructors span
  | _, [] =>
    let implicit : ConstructorSpec :=
      { name := name.value, positional := [], named := some fields, implicit := true, span := span }
    return .data name.value parameters [implicit] span
  | field :: _, _ =>
    reportError .unexpectedToken
      ("`data " ++ name.value ++ "` mixes record fields with constructors") field.span
      ["put the fields in a constructor: `" ++ name.value ++ "[...]`"]
    return .data name.value parameters constructors span

/-! ### Effects, type classes and instances -/

/-- An operation with its type. -/
def operationSpec : Parser OperationSpec := do
  let token ← current
  if !(token.kind == .identifier || token.kind == .typeIdentifier) then
    unexpected ["operation name"] ""
  let _ ← advance
  let _ ← expect .atSign ("after operation `" ++ token.value ++ "`")
  let typeExpr ← inner.typeExpr
  return { name := token.value, typeExpr := typeExpr, span := ← spanFrom token.span }

/-- An effect. -/
def effectDeclaration : Parser Declaration := do
  let start := (← advance).span
  let name ← expect .typeIdentifier "as effect name"
  let parameters ← typeParameters
  openBody "effect"
  let operations ← items (operationSpec inner) (.closer .square) true "operation"
  let _ ← expect (.closer .square) "to close effect body"
  return .effect name.value parameters operations (← spanFrom start)

/-- The context in front of a class or an instance, if there is one. -/
def leadingContext (what : String) : Parser (List Constraint) := do
  if ← contextAhead then
    let constraints ← inner.context
    let _ ← expectOperator "=>" ("after " ++ what ++ " context")
    return constraints
  return []

/-- A member of a type class: a signature, a definition or both. -/
def classMember : Parser (List ClassMember) := do return (← definition inner).members

/-- A type class. -/
def classDeclaration : Parser Declaration := do
  let start := (← advance).span
  let superclasses ← leadingContext inner "superclass"
  let name ← expect .typeIdentifier "as type class name"
  let parameter ← expect .identifier "as type class parameter"
  openBody "typeclass"
  let groups ← items (classMember inner) (.closer .square) true "member"
  let _ ← expect (.closer .square) "to close typeclass body"
  let members := mergeDefinitions ClassMember.definition? .definition groups.flatten
  return .typeClass name.value parameter.value superclasses members (← spanFrom start)

/-- A member of an instance, which is a definition without a type. -/
def instanceMember : Parser (List TermDef) := do
  let next ← peek 1
  if (← isAt .identifier) && next.kind == .atSign then
    failWith .unexpectedToken "type signatures belong in the typeclass, not the instance"
      next.span []
  return (← definition inner).definition.toList

/-- An instance of a type class. -/
def instanceDeclaration : Parser Declaration := do
  let start := (← advance).span
  let constraints ← leadingContext inner "instance"
  let className ← expect .typeIdentifier "as type class name"
  let head ← inner.typeAtom
  openBody "instance"
  let groups ← items (instanceMember inner) (.closer .square) true "member"
  let _ ← expect (.closer .square) "to close instance body"
  let members := mergeDefinitions some id groups.flatten
  return .classInstance className.value head constraints members (← spanFrom start)

/-! ### Statements -/

/-- A statement that is neither a declaration by keyword, nor an annotation alone, nor a
conditional: what it is shows the first sign that ends a head. -/
def plainStatement (first : Token) : Parser (List Statement) := do
  let stop ← firstStop endsStatementHead
  match stop.kind with
  | .bind =>
    let pattern ← inner.pattern
    let _ ← expect .bind ""
    skipNewlines
    let value ← inner.expression 0
    return [.item (.bind pattern value (← spanFrom first.span))]
  | .assign | .atSign =>
    if first.kind != .identifier then unexpected ["name"] ("before " ++ stop.kind.describe)
    return (← definition inner).statements
  | _ =>
    let value ← inner.expression 0
    return [.item (.expression value value.span)]

/-- A statement. A name annotated on the line of its definition gives two. -/
def statement : Parser (List Statement) := do
  let token ← current
  match token.kind with
  | .keyword .dataWord => return [.ofDeclaration (← dataDeclaration inner)]
  | .keyword .effectWord => return [.ofDeclaration (← effectDeclaration inner)]
  | .keyword .typeclassWord => return [.ofDeclaration (← classDeclaration inner)]
  | .keyword .instanceWord => return [.ofDeclaration (← instanceDeclaration inner)]
  | .keyword .moduleWord =>
    failWith .unexpectedToken "`module` may only appear as the first declaration of a file"
      token.span []
  | .atSign => return [← pendingAscription inner]
  | .keyword .ifWord =>
    let value ← conditional inner true
    return [.item (.expression value value.span)]
  | _ => plainStatement inner token

end

/-- A production with `budget` levels of nesting left. -/
def produce : (budget : Nat) → (rule : ExprRule) → Parser rule.Answer
  | 0, _ => throw .tooDeep
  | budget + 1, .expression minPower => expression (.ofRules budget (produce budget)) minPower
  | budget + 1, .operand => operand (.ofRules budget (produce budget))
  | budget + 1, .statement => statement (.ofRules budget (produce budget))

end SableFrontend.Parser
