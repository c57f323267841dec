import SableFrontend.Text.Slice
import SableFrontend.Token.Basic

/-!
The forms of square brackets. One pair of delimiters spells blocks, lambdas, handlers, sections,
accessors, records and record updates. The form is read off the token before the opener and a
bounded number of tokens after it, before anything inside is parsed.
-/

namespace SableFrontend

/-- What a pair of square brackets is. -/
inductive BracketForm where
  | block
  | lambda
  | handler
  | operatorSection
  | leftSection
  | accessor
  | record
  | recordUpdate
  | ambiguous
  deriving DecidableEq, Repr

/-- Why there is no form at an index. -/
inductive BracketFormError where
  | outside
  | notSquare (index : Int) (kind : TokenKind)
  deriving DecidableEq, Repr

namespace BracketFormError

/-- The wording of the error; there is none for an index outside the tokens. -/
def message : BracketFormError → String
  | outside => ""
  | notSquare index kind => "expected `[` at index " ++ toString index ++ ", got " ++ kind.name

end BracketFormError

namespace BracketForm

/-- The name of a form. -/
def name : BracketForm → String
  | block => "block"
  | lambda => "lambda"
  | handler => "handler"
  | operatorSection => "section"
  | leftSection => "left section"
  | accessor => "accessor lambda"
  | record => "record"
  | recordUpdate => "record update"
  | ambiguous => "ambiguous"

/-- How many tokens after the opener are looked at. Every clause head is shorter. -/
def window : Nat := 64

/-- Words that only a block can begin with. -/
def opensBlock : TokenKind → Bool
  | .keyword .ifWord | .keyword .caseWord | .keyword .dataWord | .keyword .effectWord
  | .keyword .typeclassWord | .keyword .instanceWord | .keyword .moduleWord => true
  | _ => false

/-- The form that the first telling token at the bracket's own depth settles. -/
def decision? : TokenKind → Option BracketForm
  | .colon => some lambda
  | .pipe => some handler
  | .assign | .bind | .atSign | .newline | .semicolon => some block
  | _ => none

/-- The tokens that may stand before the operator of a left section. -/
def isSectionOperand : TokenKind → Bool
  | .literal _ | .identifier | .typeIdentifier => true
  | _ => false

/-- Whether the kinds start with an operand, an operator and the closing bracket. -/
def startsLeftSection : List TokenKind → Bool
  | operand :: .operator :: .closer .square :: _ => isSectionOperand operand
  | _ => false

/-- The form that the first telling token at the bracket's own depth settles; a window without
one is taken for a statement. -/
def settle (depth : Nat) : List TokenKind → BracketForm
  | [] => block
  | kind :: rest =>
    match kind with
    | .opener _ => settle (depth + 1) rest
    | .closer _ => if depth = 0 then block else settle (depth - 1) rest
    | .endOfFile => block
    | _ =>
      match depth, decision? kind with
      | 0, some form => form
      | _, _ => settle depth rest

/-- The form that the kinds after the opener show, where the first `limit` may be looked at. A
left section is told by three tokens, of which the first has to lie inside the window. -/
def ofContent (limit : Nat) : List TokenKind → BracketForm
  | [] => block
  | first :: rest =>
    match limit with
    | 0 => block
    | more + 1 =>
      if first.isSeparator then ofContent more rest
      else if first = .closer .square then ambiguous
      else if first = .dot then accessor
      else if first = .operator then operatorSection
      else if opensBlock first then block
      else if startsLeftSection (first :: rest) then leftSection
      else settle 0 ((first :: rest).take limit)

/-- The form that a touching token before the opener settles. -/
def ofNeighbour? (before : Option Token) (opener : Token) : Option BracketForm :=
  match before with
  | none => none
  | some token =>
    if token.touches opener then
      match token.kind with
      | .typeIdentifier => some record
      | .dot => some recordUpdate
      | _ => none
    else none

/-- The token at a place, which may count from the end. -/
def tokenAt? (tokens : Array Token) (place : Int) : Option Token :=
  (Text.resolveIndex? tokens.size place).bind fun index => tokens[index]?

/-- The kinds of the tokens that may be looked at after a place: those of the window, and two more
for a left section that starts at its end. -/
def contentAfter (tokens : Array Token) (place : Int) : List TokenKind :=
  (List.range (window + 2)).filterMap fun (k : Nat) =>
    (tokenAt? tokens (place + 1 + (k : Int))).map Token.kind

/-- The form of the square bracket at an index of a list of tokens. The index may count from the
end; then nothing stands before it, and the tokens after it run on to the start of the list. -/
def atIndex (tokens : Array Token) (index : Int) : Except BracketFormError BracketForm :=
  match tokenAt? tokens index with
  | none => .error .outside
  | some opener =>
    if opener.kind = .opener .square then
      let before := if 0 < index then tokenAt? tokens (index - 1) else none
      .ok ((ofNeighbour? before opener).getD (ofContent window (contentAfter tokens index)))
    else .error (.notSquare index opener.kind)

end BracketForm

end SableFrontend
