/-!
Binary operators: how tightly each binds, and to which side it groups.
-/

namespace SableFrontend

/-- To which side operators of one precedence group. -/
inductive Associativity where
  | left
  | right
  | none
  deriving DecidableEq, Repr

/-- The precedence of an operator, higher for one that binds tighter, and its side. -/
structure Fixity where
  precedence : Nat
  associativity : Associativity
  deriving DecidableEq, Repr

namespace Fixity

/-- The operators with a fixity of their own. -/
def table : List (String × Fixity) := [
  ("|>", ⟨1, .left⟩),
  ("||", ⟨2, .right⟩),
  ("&&", ⟨3, .right⟩),
  ("==", ⟨4, .none⟩),
  ("!=", ⟨4, .none⟩),
  ("<", ⟨4, .none⟩),
  (">", ⟨4, .none⟩),
  ("<=", ⟨4, .none⟩),
  (">=", ⟨4, .none⟩),
  ("++", ⟨5, .right⟩),
  ("+", ⟨6, .left⟩),
  ("-", ⟨6, .left⟩),
  ("*", ⟨7, .left⟩),
  ("/", ⟨7, .left⟩),
  ("%", ⟨7, .left⟩),
  ("^", ⟨8, .right⟩)]

/-- The fixity of all other operators. -/
def ofOther : Fixity := ⟨9, .left⟩

/-- The fixity of an operator. -/
def ofOperator (op : String) : Fixity := (table.lookup op).getD ofOther

/-- How strongly an operator binds the operand on its left: it takes part in an expression whose
operators must bind at least as strongly as a given power. -/
def leftPower (fixity : Fixity) : Nat :=
  if fixity.associativity = .right then fixity.precedence * 2 else fixity.precedence * 2 - 1

/-- The least power of the operators inside the operand on the right. -/
def rightPower (fixity : Fixity) : Nat :=
  if fixity.associativity = .right then fixity.precedence * 2 - 1 else fixity.precedence * 2

end Fixity

/-- The operators that may stand before an operand. -/
def isPrefixOperator (op : String) : Bool := op == "-" || op == "!"

end SableFrontend
