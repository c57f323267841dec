import SableFrontend.Number.Binary64
import SableFrontend.Source.Span

/-!
Literals and patterns. A pattern is what clauses, bindings and generators match values against.
-/

namespace SableFrontend

/-- A literal, as the value that it denotes. -/
inductive Literal where
  | integer (value : Int) (span : Span)
  | float (value : Binary64) (span : Span)
  | text (value : String) (span : Span)
  | character (value : String) (span : Span)
  deriving DecidableEq, Repr

namespace Literal

/-- The place of a literal. -/
def span : Literal → Span
  | integer _ span | float _ span | text _ span | character _ span => span

/-- The same literal at another place. -/
def withSpan (span : Span) : Literal → Literal
  | integer value _ => integer value span
  | float value _ => float value span
  | text value _ => text value span
  | character value _ => character value span

/-- The opposite of a number; other literals stay as they are. -/
def negate : Literal → Literal
  | integer value span => integer (-value) span
  | float value span => float value.negate span
  | other => other

@[simp] theorem withSpan_span (literal : Literal) (place : Span) :
    (literal.withSpan place).span = place := by
  cases literal <;> rfl

end Literal

mutual

/-- A pattern. A constructor takes patterns by position or, where `fields` is present, by name. -/
inductive Pattern where
  | wildcard (span : Span)
  | binding (name : String) (span : Span)
  | literal (value : Literal) (span : Span)
  | constructor (name : String) (arguments : List Pattern)
      (fields : Option (List FieldPattern)) (span : Span)
  | listCons (head tail : Pattern) (span : Span)
  | list (elements : List Pattern) (span : Span)
  | tuple (elements : List Pattern) (span : Span)

/-- A field matched by name; without a pattern it binds a variable of the field's name. -/
structure FieldPattern where
  name : String
  pattern : Option Pattern
  span : Span

end

namespace Pattern

/-- The place of a pattern. -/
def span : Pattern → Span
  | wildcard span | binding _ span | literal _ span | constructor _ _ _ span | listCons _ _ span
  | list _ span | tuple _ span => span

/-- Whether a pattern matches everything and binds at most one name. -/
def isBinder : Pattern → Bool
  | wildcard _ | binding _ _ => true
  | _ => false

instance : Inhabited Pattern := ⟨.wildcard default⟩

end Pattern

end SableFrontend
