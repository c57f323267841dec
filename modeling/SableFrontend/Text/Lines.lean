/-!
Lines of a text that is shown to people. Every character that an editor may show as a line break
ends a line here, the pair of carriage return and newline counts once, and a break at the very end
opens no further line.
-/

namespace SableFrontend.Text

/-- The characters that end a line. -/
def isLineBreak (c : Char) : Bool :=
  let n := c.toNat
  (10 ≤ n && n ≤ 13) || (28 ≤ n && n ≤ 30) || n == 0x85 || n == 0x2028 || n == 0x2029

/-- The lines of `rest`, when `current` holds the characters already read of the first one in
reverse order. -/
def linesFrom (current : List Char) : (rest : List Char) → List (List Char)
  | [] => if current.isEmpty then [] else [current.reverse]
  | '\r' :: '\n' :: rest => current.reverse :: linesFrom [] rest
  | c :: rest =>
    if isLineBreak c then current.reverse :: linesFrom [] rest else linesFrom (c :: current) rest

/-- The lines of a text, without their breaks. -/
def lines (text : List Char) : List (List Char) := linesFrom [] text

/-- Text read from a file: a carriage return, alone or before a newline, is a newline. -/
def normalizeNewlines : List Char → List Char
  | [] => []
  | '\r' :: '\n' :: rest => '\n' :: normalizeNewlines rest
  | '\r' :: rest => '\n' :: normalizeNewlines rest
  | c :: rest => c :: normalizeNewlines rest

/-- Joins the carriage return and the newline of every line end that has both. -/
def joinLineEnds : List Char → List Char
  | [] => []
  | '\r' :: '\n' :: rest => '\n' :: joinLineEnds rest
  | c :: rest => c :: joinLineEnds rest

@[simp] theorem lines_nil : lines [] = [] := rfl

@[simp] theorem normalizeNewlines_nil : normalizeNewlines [] = [] := rfl

@[simp] theorem joinLineEnds_nil : joinLineEnds [] = [] := rfl

end SableFrontend.Text
