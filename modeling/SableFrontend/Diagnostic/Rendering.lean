import SableFrontend.Diagnostic.Basic
import SableFrontend.Source.Text

/-!
Diagnostics for people. A rendered diagnostic is a header, then for each label its place, the
source line with carets under the span, and the remark; then the notes. Colour is a matter of the
paint: without it the same text is written plain.
-/

namespace SableFrontend

/-- The colours of a rendering. -/
inductive Paint where
  | severity (severity : Severity)
  | bold
  | frame
  deriving DecidableEq, Repr

namespace Paint

/-- The terminal sequence that begins a paint. -/
def sequence : Paint → String
  | severity .error => "\x1b[1;31m"
  | severity .warning => "\x1b[1;33m"
  | severity .note => "\x1b[1;36m"
  | bold => "\x1b[1m"
  | frame => "\x1b[1;34m"

/-- The terminal sequence that ends every paint. -/
def reset : String := "\x1b[0m"

/-- A text in a paint, or plain. -/
def apply (paint : Paint) (color : Bool) (text : String) : String :=
  if color then paint.sequence ++ text ++ reset else text

/-- The parameters of a terminal sequence: digits, and the signs up to the question mark. -/
def isParameter (c : Char) : Bool := '0' ≤ c && c ≤ '?'

/-- The characters between the parameters and the end of a terminal sequence: the blank, and the
signs up to the slash. -/
def isIntermediate (c : Char) : Bool := ' ' ≤ c && c ≤ '/'

/-- The characters that end a terminal sequence: letters, and the signs around them. -/
def isFinal (c : Char) : Bool := '@' ≤ c && c ≤ '~'

/-- How much of a text after an escape character belongs to a terminal sequence, if it is one: a
bracket, parameters, intermediate characters, and a final one. -/
def sequenceLength? : List Char → Option Nat
  | '[' :: rest =>
    let parameters := (rest.takeWhile isParameter).length
    let intermediates := ((rest.drop parameters).takeWhile isIntermediate).length
    if (rest.drop (parameters + intermediates)).head?.any isFinal then
      some (parameters + intermediates + 2)
    else none
  | _ => none

/-- A text without its terminal sequences, and without the first `skipped` characters. -/
def plainFrom (skipped : Nat) : List Char → List Char
  | [] => []
  | c :: rest =>
    match skipped with
    | skipped + 1 => plainFrom skipped rest
    | 0 =>
      match (if c = '\x1b' then sequenceLength? rest else none) with
      | some length => plainFrom length rest
      | none => c :: plainFrom 0 rest

/-- A text as it is written where there are no paints. -/
def plain (text : String) : String := String.ofList (plainFrom 0 text.toList)

@[simp] theorem apply_plain (paint : Paint) (text : String) : paint.apply false text = text := rfl

end Paint

/-- Where source lines come from: the line of a file by its number, if there is one. -/
abbrev LineSource : Type := String → Int → Option (List Char)

/-- The lines of named texts. -/
def LineSource.ofTexts (texts : List (String × SourceText)) : LineSource :=
  fun file number => (texts.lookup file).bind (·.line? number)

namespace Diagnostic

/-- A number, padded on the left to the width of the gutter. -/
def gutter (line : Int) : String :=
  let digits := toString line
  String.ofList (List.replicate (4 - digits.length) ' ') ++ digits

/-- How many carets mark a span: those of its part on the first line, and at least one. -/
def caretCount (span : Span) (line : List Char) : Nat :=
  if span.startLine = span.endLine then max 1 (span.endColumn - span.startColumn).toNat
  else max 1 ((line.length : Int) - span.startColumn + 1).toNat

/-- How far the carets are indented. -/
def caretIndent (span : Span) : Nat := (span.startColumn - 1).toNat

/-- The first line: severity, code and message. -/
def header (color : Bool) (diagnostic : Diagnostic) : String :=
  (Paint.severity diagnostic.severity).apply color
      (diagnostic.severity.word ++ "[" ++ diagnostic.kind.code ++ "]") ++
    Paint.bold.apply color (": " ++ diagnostic.message)

/-- The frame to the left of a line without a number. -/
def blankFrame (color : Bool) : String := "  " ++ Paint.frame.apply color "   |"

/-- The source line of a span, and the carets under it. -/
def excerpt (color : Bool) (severity : Severity) (span : Span) (line : List Char) : List String :=
  ["  " ++ Paint.frame.apply color (gutter span.startLine ++ " |") ++ " " ++ String.ofList line,
    blankFrame color ++ " " ++ String.ofList (List.replicate (caretIndent span) ' ') ++
      (Paint.severity severity).apply color
        (String.ofList (List.replicate (caretCount span line) '^'))]

/-- The lines of a label. -/
def labelLines (color : Bool) (lines : LineSource) (severity : Severity) (label : Label) :
    List String :=
  ["  " ++ Paint.frame.apply color "-->" ++ " " ++ label.span.label, blankFrame color] ++
    ((lines label.span.file label.span.startLine).elim [] (excerpt color severity label.span)) ++
    (if label.message.isEmpty then []
      else [blankFrame color ++ "   " ++ (Paint.severity severity).apply color label.message])

/-- The line of a note. -/
def noteLine (color : Bool) (note : String) : String :=
  "  " ++ Paint.frame.apply color "=" ++ " note: " ++ note

/-- A diagnostic as text. -/
def render (color : Bool) (lines : LineSource) (diagnostic : Diagnostic) : String :=
  String.intercalate "\n"
    (diagnostic.header color ::
      (diagnostic.labels.flatMap (labelLines color lines diagnostic.severity) ++
        diagnostic.notes.map (noteLine color)))

end Diagnostic

end SableFrontend
