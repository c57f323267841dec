import SableFrontend.Tree.Pattern
import SableFrontend.Tree.TypeExpr

/-!
Expressions, statements and declarations. They form one family: a block holds statements, a
statement may be a declaration, and declarations hold expressions.
-/

namespace SableFrontend

/-- Where the annotation of a definition is written: in front of it or on its own line. -/
inductive Attachment where
  | nextDeclaration
  | sameLine
  deriving DecidableEq, Repr

namespace Attachment

/-- The name of an attachment. -/
def name : Attachment → String
  | nextDeclaration => "next-declaration"
  | sameLine => "same-line"

end Attachment

/-- An operation of an effect, with its type. -/
structure OperationSpec where
  name : String
  typeExpr : TypeExpr
  span : Span

/-- A member of a type class without a definition. -/
structure Signature where
  name : String
  typeExpr : TypeExpr
  span : Span

/-- The type of a definition. -/
structure Ascription where
  name : String
  typeExpr : TypeExpr
  attachment : Attachment
  span : Span

mutual

/-- An expression. A conditional without `otherwise` is meaningful as a statement only. -/
inductive Expr where
  | literal (value : Literal)
  | identifier (name : String) (span : Span)
  | constructor (name : String) (span : Span)
  | apply (function argument : Expr) (span : Span)
  | binary (left : Expr) (op : String) (right : Expr) (span : Span)
  | unary (op : String) (operand : Expr) (span : Span)
  | conditional (branches : List GuardedBranch) (otherwise : Option Expr) (span : Span)
  | block (statements : List Item) (result : Expr) (span : Span)
  | cases (scrutinees : List Expr) (clauses : List Clause) (span : Span)
  | lambda (clauses : List Clause) (span : Span)
  | handler (clauses : List HandlerClause) (span : Span)
  | list (elements : List Expr) (span : Span)
  | listCons (head tail : Expr) (span : Span)
  | comprehension (clauses : List ComprehensionClause) (body : Expr) (span : Span)
  | tuple (elements : List Expr) (span : Span)
  | record (name : String) (arguments : List Expr) (fields : List FieldAssign) (span : Span)
  | recordUpdate (target : Expr) (fields : List FieldAssign) (span : Span)
  | recordUpdateLambda (fields : List FieldAssign) (span : Span)
  | field (target : Expr) (name : String) (span : Span)
  | accessor (path : List String) (span : Span)
  | operatorSection (op : String) (left right : Option Expr) (span : Span)

/-- A condition with the expression that it guards. -/
structure GuardedBranch where
  condition : Expr
  body : Expr
  span : Span

/-- Patterns with the expression that they lead to. -/
structure Clause where
  patterns : List Pattern
  body : Expr
  span : Span

/-- A clause of a handler: for a computation that returned, or for one suspended at an
operation. -/
inductive HandlerClause where
  | returning (binder : Pattern) (body : Expr) (span : Span)
  | operation (name : String) (arguments : List Pattern) (continuation : String) (body : Expr)
      (span : Span)

/-- A generator or a filter of a list comprehension. -/
inductive ComprehensionClause where
  | generator (pattern : Pattern) (source : Expr) (span : Span)
  | filter (condition : Expr) (span : Span)

/-- A field given by name; without a value it takes that of the variable of its name. -/
structure FieldAssign where
  name : String
  value : Option Expr
  span : Span

/-- A named term with its clauses. -/
structure TermDef where
  name : String
  clauses : List Clause
  span : Span

/-- A field of a constructor, with its type and possibly a default. -/
structure FieldSpec where
  name : String
  typeExpr : TypeExpr
  defaultValue : Option Expr
  span : Span

/-- A constructor of a data type. It takes types by position or, where `named` is present, fields
by name. An implicit one stands for a data type that is written as its fields alone. -/
structure ConstructorSpec where
  name : String
  positional : List TypeExpr
  named : Option (List FieldSpec)
  implicit : Bool
  span : Span

/-- A member of a type class. -/
inductive ClassMember where
  | signature (signature : Signature)
  | definition (definition : TermDef)

/-- A declaration. -/
inductive Declaration where
  | definition (definition : TermDef)
  | ascription (ascription : Ascription)
  | data (name : String) (parameters : List String) (constructors : List ConstructorSpec)
      (span : Span)
  | effect (name : String) (parameters : List String) (operations : List OperationSpec)
      (span : Span)
  | typeClass (name parameter : String) (superclasses : List Constraint)
      (members : List ClassMember) (span : Span)
  | classInstance (className : String) (head : TypeExpr) (context : List Constraint)
      (members : List TermDef) (span : Span)

/-- An item of a block. -/
inductive Item where
  | declaration (declaration : Declaration)
  | bind (pattern : Pattern) (value : Expr) (span : Span)
  | expression (value : Expr) (span : Span)

end

/-- A whole source. -/
structure Module where
  name : Option String
  declarations : List Declaration
  span : Span

/-! ### Places -/

namespace Expr

/-- The place of an expression. -/
def span : Expr → Span
  | literal value => value.span
  | identifier _ span | constructor _ span | apply _ _ span | binary _ _ _ span | unary _ _ span
  | conditional _ _ span | block _ _ span | cases _ _ span | lambda _ span | handler _ span
  | list _ span | listCons _ _ span | comprehension _ _ span | tuple _ span | record _ _ _ span
  | recordUpdate _ _ span | recordUpdateLambda _ span | field _ _ span | accessor _ span
  | operatorSection _ _ _ span => span

instance : Inhabited Expr := ⟨.tuple [] default⟩

end Expr

namespace ClassMember

/-- The signature that a member is, if it is one. -/
def signature? : ClassMember → Option Signature
  | signature s => some s
  | definition _ => none

/-- The definition that a member is, if it is one. -/
def definition? : ClassMember → Option TermDef
  | signature _ => none
  | definition d => some d

end ClassMember

namespace Declaration

/-- The place of a declaration. -/
def span : Declaration → Span
  | definition d => d.span
  | ascription a => a.span
  | data _ _ _ span | effect _ _ _ span | typeClass _ _ _ _ span
  | classInstance _ _ _ _ span => span

end Declaration

namespace Item

/-- The place of an item. -/
def span : Item → Span
  | declaration d => d.span
  | bind _ _ span | expression _ span => span

/-- The declaration that an item is, if it is one. -/
def declaration? : Item → Option Declaration
  | declaration d => some d
  | _ => none

end Item

end SableFrontend
