import SableFrontend.Diagnostic.Basic

/-!
Places as an editor counts them: lines and characters from 0.
-/

namespace SableFrontend.Editor

/-- A place in a document. -/
structure Place where
  line : Int
  character : Int
  deriving DecidableEq, Repr

/-- A range of a document. -/
structure Range where
  start : Place
  stop : Place
  deriving DecidableEq, Repr

/-- A number of a place that an editor cannot send. -/
inductive PlaceFault where
  | line (value : Int)
  | character (value : Int)
  deriving DecidableEq, Repr

/-- The greatest line or character of a place. -/
def maxCoordinate : Int := 2147483647

namespace PlaceFault

/-- The wording of the fault. -/
def message : PlaceFault → String
  | line value => about "line" value
  | character value => about "character" value
where
  /-- The wording for one of the two numbers. -/
  about (name : String) (value : Int) : String :=
    "Position." ++ name ++ " should be in range [0:" ++ toString maxCoordinate ++ "], but was " ++
      toString value ++ "."

end PlaceFault

/-- Whether a number can be a line or a character. -/
def isCoordinate (value : Int) : Bool := 0 ≤ value && value ≤ maxCoordinate

namespace Place

/-- The first number of a place that is out of range. -/
def fault? (place : Place) : Option PlaceFault :=
  if !isCoordinate place.line then some (.line place.line)
  else if !isCoordinate place.character then some (.character place.character)
  else none

end Place

namespace Range

/-- The start of every document. -/
def atOrigin : Range := { start := ⟨0, 0⟩, stop := ⟨0, 0⟩ }

/-- The range of a span, whose lines and columns count from 1. -/
def ofSpan (span : Span) : Range where
  start := ⟨span.startLine - 1, span.startColumn - 1⟩
  stop := ⟨span.endLine - 1, span.endColumn - 1⟩

/-- The first number of a range that is out of range. -/
def fault? (range : Range) : Option PlaceFault := range.start.fault?.or range.stop.fault?

end Range

/-- A diagnostic as an editor shows it. -/
structure Problem where
  range : Range
  severity : Severity
  code : String
  message : String
  deriving DecidableEq, Repr

namespace Problem

/-- The number of a severity in the editor protocol. -/
def severityNumber : Severity → Nat
  | .error => 1
  | .warning => 2
  | .note => 3

/-- Who reports problems. -/
def source : String := "sable"

/-- A diagnostic, at its first label; without one, at the start of the document. -/
def ofDiagnostic (diagnostic : Diagnostic) : Problem where
  range := diagnostic.span?.elim .atOrigin .ofSpan
  severity := diagnostic.severity
  code := diagnostic.kind.code
  message := "[" ++ diagnostic.kind.code ++ "] " ++ diagnostic.message

end Problem

end SableFrontend.Editor
