import SableFrontend.Text.Slice
import SableFrontend.Token.Basic

/-!
Token streams. A stream is a list of tokens that ends in the end of the file, together with the
number of delimiters around each token. Positions at or past the end all show the last token, so
reading ahead is total.
-/

namespace SableFrontend

/-! ### Bracket depth -/

/-- The depth of each token, when `depth` delimiters are open before the first. A closer counts
as inside the group that it closes. -/
def bracketDepths (depth : Nat) : List Token → List Nat
  | [] => []
  | token :: rest =>
    if token.kind.isOpener then depth :: bracketDepths (depth + 1) rest
    else if token.kind.isCloser then depth :: bracketDepths (depth - 1) rest
    else depth :: bracketDepths depth rest

@[simp] theorem length_bracketDepths (depth : Nat) (tokens : List Token) :
    (bracketDepths depth tokens).length = tokens.length := by
  induction tokens generalizing depth with
  | nil => rfl
  | cons token rest ih => simp only [bracketDepths]; split <;> try split
                          all_goals simp [ih]

/-- A list of tokens that ends in the end of the file. -/
structure TokenStream where
  tokens : Array Token
  depths : Array Nat
  last : Token
  last_eq : tokens.back? = some last
  last_kind : last.kind = .endOfFile

namespace TokenStream

/-- The stream of a list of tokens, which has to end in the end of the file. -/
def ofTokens? (tokens : Array Token) : Option TokenStream :=
  match h : tokens.back? with
  | none => none
  | some last =>
    if hk : last.kind = .endOfFile then
      some {
        tokens := tokens
        depths := (bracketDepths 0 tokens.toList).toArray
        last := last
        last_eq := h
        last_kind := hk }
    else none

/-- The number of tokens. -/
def size (stream : TokenStream) : Nat := stream.tokens.size

/-- The token at a position; past the end, the last one. -/
def token (stream : TokenStream) (position : Nat) : Token :=
  stream.tokens[position]?.getD stream.last

/-- The kind of the token at a position. -/
def kind (stream : TokenStream) (position : Nat) : TokenKind := (stream.token position).kind

/-- The number of delimiters around the token at a position. -/
def depth (stream : TokenStream) (position : Nat) : Nat := stream.depths[position]?.getD 0

theorem size_pos (stream : TokenStream) : 0 < stream.size := by
  have hback := stream.last_eq
  rcases Nat.eq_zero_or_pos stream.size with h | h
  · rw [Array.eq_empty_of_size_eq_zero h] at hback
    simp at hback
  · exact h

theorem kind_of_size_le {stream : TokenStream} {position : Nat} (h : stream.size ≤ position) :
    stream.kind position = .endOfFile := by
  have : stream.tokens[position]? = none := Array.getElem?_eq_none h
  simp [kind, token, this, stream.last_kind]

end TokenStream

/-! ### Cursors -/

/-- A movable place in a stream. It may be set anywhere; a place `-k` is the `k`th token from the
end, and outside the stream there is nothing to see. -/
structure Cursor where
  stream : TokenStream
  place : Int

namespace Cursor

/-- The start of a stream. -/
def ofStream (stream : TokenStream) : Cursor := { stream := stream, place := 0 }

/-- The token at a place, if there is one. -/
def tokenAt? (cursor : Cursor) (place : Int) : Option Token :=
  (Text.resolveIndex? cursor.stream.size place).bind fun index => cursor.stream.tokens[index]?

/-- The token under the cursor. -/
def current? (cursor : Cursor) : Option Token := cursor.tokenAt? cursor.place

/-- The number of delimiters around the token under the cursor. -/
def depth? (cursor : Cursor) : Option Nat :=
  (Text.resolveIndex? cursor.stream.size cursor.place).bind fun index =>
    cursor.stream.depths[index]?

/-- The token `offset` places further on; past the end, the last one. -/
def peek? (cursor : Cursor) (offset : Int) : Option Token :=
  if cursor.place + offset < cursor.stream.size then cursor.tokenAt? (cursor.place + offset)
  else some cursor.stream.last

/-- One token further on, but never past the last one. -/
def advance (cursor : Cursor) : Cursor :=
  if cursor.place < (cursor.stream.size : Int) - 1 then { cursor with place := cursor.place + 1 }
  else cursor

@[simp] theorem advance_stream (cursor : Cursor) : cursor.advance.stream = cursor.stream := by
  unfold advance; split <;> rfl

end Cursor

end SableFrontend
