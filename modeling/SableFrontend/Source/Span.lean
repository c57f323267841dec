/-!
Places in a source text. A `Position` is where a reader stands: how many characters lie before it,
and the line and column of the next one. A `Span` is a range of a named source, by lines and
columns for people and by offsets for slicing.

Only the newline character counts as the end of a line here.
-/

namespace SableFrontend

/-- A place between two characters. Lines and columns count from 1, offsets from 0. -/
structure Position where
  offset : Nat
  line : Nat
  column : Nat
  deriving DecidableEq, Repr

namespace Position

/-- The start of every text. -/
def origin : Position := ⟨0, 1, 1⟩

/-- The place after one more character. -/
def advance (p : Position) (c : Char) : Position :=
  if c = '\n' then ⟨p.offset + 1, p.line + 1, 1⟩ else ⟨p.offset + 1, p.line, p.column + 1⟩

/-- The place after some more text. -/
def after (p : Position) (text : List Char) : Position :=
  text.foldl advance p

@[simp] theorem after_nil (p : Position) : p.after [] = p := rfl

@[simp] theorem after_cons (p : Position) (c : Char) (text : List Char) :
    p.after (c :: text) = (p.advance c).after text := rfl

theorem after_append (p : Position) (first second : List Char) :
    p.after (first ++ second) = (p.after first).after second := by
  simp [after]

@[simp] theorem advance_offset (p : Position) (c : Char) :
    (p.advance c).offset = p.offset + 1 := by
  unfold advance; split <;> rfl

@[simp] theorem after_offset (p : Position) (text : List Char) :
    (p.after text).offset = p.offset + text.length := by
  induction text generalizing p with
  | nil => rfl
  | cons c text ih => simp [ih]; omega

end Position

/-- A range of a source. Lines and columns count from 1 and the end column is just past the last
character; `start` and `stop` are offsets, the second one past the end. Tools may pass any numbers,
so the fields are integers. -/
structure Span where
  file : String
  startLine : Int
  startColumn : Int
  endLine : Int
  endColumn : Int
  start : Int
  stop : Int
  deriving DecidableEq, Repr, Inhabited

namespace Span

/-- The range between two positions of one source. -/
def between (file : String) (first last : Position) : Span where
  file := file
  startLine := first.line
  startColumn := first.column
  endLine := last.line
  endColumn := last.column
  start := first.offset
  stop := last.offset

/-- The range from the start of `first` to the end of `last`, in the source of `first`. -/
def join (first last : Span) : Span :=
  { first with endLine := last.endLine, endColumn := last.endColumn, stop := last.stop }

/-- Where a span starts, as messages name it. -/
def label (span : Span) : String :=
  span.file ++ ":" ++ toString span.startLine ++ ":" ++ toString span.startColumn

/-- Whether nothing lies between two spans. -/
def touches (left right : Span) : Bool := left.stop == right.start

@[simp] theorem join_start (first last : Span) : (first.join last).start = first.start := rfl

@[simp] theorem join_stop (first last : Span) : (first.join last).stop = last.stop := rfl

@[simp] theorem join_file (first last : Span) : (first.join last).file = first.file := rfl

@[simp] theorem join_self (span : Span) : span.join span = span := rfl

theorem join_join (first second third : Span) :
    (first.join second).join third = first.join third := rfl

end Span

end SableFrontend
