import SableFrontend.Highlight.Rule

/-!
Highlighted text: a source as consecutive stretches, each with its category. The stretches cover
the source without gaps. Where no rule applies, a line break ends whatever was begun, and any
other character is an error by itself.
-/

namespace SableFrontend.Highlight

/-- A stretch of a source with its category. -/
structure Stretch where
  offset : Nat
  category : Category
  text : List Char
  deriving DecidableEq, Repr

/-- What is recognised at the start of a text: a category, a length and the next state. -/
structure Match where
  category : Category
  length : Nat
  next : State
  deriving DecidableEq, Repr

/-- The first rule of a list that applies. -/
def firstMatch? (rules : List Rule) (before : Option Char) (text : List Char) : Option Match :=
  rules.findSome? fun rule =>
    (rule.recognize before text).map fun length =>
      { category := rule.category, length := length, next := rule.next }

/-- What stands at the start of a text that begins with `first`. -/
def matchAt (state : State) (before : Option Char) (first : Char) (rest : List Char) : Match :=
  match firstMatch? state.rules before (first :: rest) with
  | some found => found
  | none =>
    if first == '\n' then { category := .lineEnd, length := 1, next := .root }
    else { category := .error, length := 1, next := state }

/-- The stretches of a text that stands at `offset`. Every stretch has at least one character. -/
def stretchesFrom (offset : Nat) (state : State) (before : Option Char) (text : List Char) :
    List Stretch :=
  match text with
  | [] => []
  | first :: rest =>
    let found := matchAt state before first rest
    let more := found.length - 1
    let covered := first :: rest.take more
    { offset := offset, category := found.category, text := covered } ::
      stretchesFrom (offset + covered.length) found.next covered.getLast? (rest.drop more)
termination_by text.length
decreasing_by
  simp only [List.length_cons, List.length_drop]
  omega

/-- The stretches of a source. -/
def stretches (source : String) : List Stretch := stretchesFrom 0 .root none source.toList

end SableFrontend.Highlight
