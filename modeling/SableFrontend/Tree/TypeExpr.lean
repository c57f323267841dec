import SableFrontend.Source.Span

/-!
Type expressions: variables, constructors, application, functions, tuples, effectful computations
and types that hold under constraints.
-/

namespace SableFrontend

/-- The variable at the end of an open list of effects. -/
structure RowVariable where
  name : String
  span : Span
  deriving DecidableEq, Repr

mutual

/-- A type expression. An effectful type may lack its result: then it is a bare list of effects. -/
inductive TypeExpr where
  | var (name : String) (span : Span)
  | con (name : String) (span : Span)
  | app (function argument : TypeExpr) (span : Span)
  | arrow (parameter result : TypeExpr) (span : Span)
  | tuple (elements : List TypeExpr) (span : Span)
  | effectful (effects : List TypeExpr) (row : Option RowVariable) (result : Option TypeExpr)
      (span : Span)
  | qualified (constraints : List Constraint) (body : TypeExpr) (span : Span)

/-- A type class applied to types. -/
structure Constraint where
  className : String
  arguments : List TypeExpr
  span : Span

end

namespace TypeExpr

/-- The place of a type expression. -/
def span : TypeExpr → Span
  | var _ span | con _ span | app _ _ span | arrow _ _ span | tuple _ span
  | effectful _ _ _ span | qualified _ _ span => span

/-- The variable that an entry of an effect list is, if it is a bare one. -/
def asRowVariable? : TypeExpr → Option RowVariable
  | var name span => some { name := name, span := span }
  | _ => none

instance : Inhabited TypeExpr := ⟨.tuple [] default⟩

end TypeExpr

end SableFrontend
