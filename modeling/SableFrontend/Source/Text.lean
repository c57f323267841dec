import SableFrontend.Source.Span
import SableFrontend.Text.Lines
import SableFrontend.Text.Slice

/-!
A source text that people look at: its lines, and the text that a span covers.
-/

namespace SableFrontend

/-- A text together with its lines. -/
structure SourceText where
  content : List Char
  lines : List (List Char)

namespace SourceText

/-- A text, split into its lines. -/
def ofString (content : String) : SourceText :=
  { content := content.toList, lines := Text.lines content.toList }

/-- The line of that number, counted from 1, if the text has it. -/
def line? (source : SourceText) (number : Int) : Option (List Char) :=
  if 1 ≤ number then source.lines[(number - 1).toNat]? else none

/-- The line of that number, and the empty line outside the text. -/
def lineAt (source : SourceText) (number : Int) : List Char :=
  (source.line? number).getD []

/-- The part of line `number` that a span over several lines covers: the first line from the
span's column, the last one up to it, and the lines between as a whole. -/
def coveredPart (source : SourceText) (span : Span) (number : Int) : List Char :=
  let line := source.lineAt number
  if number = span.startLine then Text.sliceFrom line (span.startColumn - 1)
  else if number = span.endLine then Text.sliceTo line (span.endColumn - 1)
  else line

/-- The text of a span by its lines and columns. -/
def textByLines (source : SourceText) (span : Span) : List Char :=
  if span.startLine = span.endLine then
    Text.slice (source.lineAt span.startLine) (span.startColumn - 1) (span.endColumn - 1)
  else
    let count := (span.endLine + 1 - span.startLine).toNat
    List.intercalate ['\n']
      ((List.range count).map fun (k : Nat) => source.coveredPart span (span.startLine + (k : Int)))

/-- The text of a span: by its offsets when they enclose something, otherwise by its lines. -/
def spanText (source : SourceText) (span : Span) : List Char :=
  if span.start < span.stop then Text.slice source.content span.start span.stop
  else source.textByLines span

@[simp] theorem lineAt_eq_nil {source : SourceText} {number : Int} (h : number < 1) :
    source.lineAt number = [] := by
  simp [lineAt, line?, show ¬ 1 ≤ number by omega]

end SourceText

end SableFrontend
