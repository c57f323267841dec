import SableFrontend.Grammar.Grouping
import SableFrontend.Grammar.Pattern
import SableFrontend.Grammar.Type

/-!
The productions that expressions nest. A production of expressions or declarations is given the
parsers one level of nesting further in, so that it can be read, and reasoned about, without the
recursion that ties the levels together.
-/

namespace SableFrontend

/-- The parsers of what may stand inside an expression or a declaration. An expression is given
the least power of its outermost operators; an operand may begin with prefix operators. -/
structure Nested where
  pattern : Parser Pattern
  patternAtom : Parser Pattern
  typeExpr : Parser TypeExpr
  typeAtom : Parser TypeExpr
  context : Parser (List Constraint)
  expression : (minPower : Nat) → Parser Expr
  operand : Parser Expr
  statement : Parser (List Statement)

/-- The productions of expressions and declarations that others nest. -/
inductive ExprRule where
  | expression (minPower : Nat)
  | operand
  | statement
  deriving DecidableEq, Repr

/-- What a production answers. A statement may give two items. -/
def ExprRule.Answer : ExprRule → Type
  | expression _ => Expr
  | operand => Expr
  | statement => List Statement

/-- The parsers with `budget` levels left, given those of expressions and statements. -/
def Nested.ofRules (budget : Nat) (rules : (rule : ExprRule) → Parser rule.Answer) : Nested where
  pattern := Parser.patternAt budget
  patternAtom := Parser.patternAtom (Parser.patternAt budget)
  typeExpr := Parser.typeAt budget .type
  typeAtom := Parser.typeAtom (Parser.typeAt budget)
  context := Parser.context (Parser.typeAt budget)
  expression := fun minPower => rules (.expression minPower)
  operand := rules .operand
  statement := rules .statement

end SableFrontend
