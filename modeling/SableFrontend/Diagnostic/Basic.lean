import SableFrontend.Token.Fault

/-!
Diagnostics: what is reported about a source. Each has a kind with a stable code, a message, the
places that it points at, and notes. A log collects them in order; while it is muted, nothing is
added, so that an attempt which is given up leaves no trace.
-/

namespace SableFrontend

/-- How grave a diagnostic is. -/
inductive Severity where
  | error
  | warning
  | note
  deriving DecidableEq, Repr

/-- What a diagnostic is about. -/
inductive DiagnosticKind where
  | lexError
  | unexpectedToken
  | ambiguousBracketForm
  | arityMismatch
  | missingElseBranch
  | invalidEffectRow
  | malformedFieldPun
  | danglingAscription
  | ascriptionMismatch
  deriving DecidableEq, Repr

/-- Whether a label marks the main place or a place beside it. -/
inductive LabelStyle where
  | primary
  | secondary
  deriving DecidableEq, Repr

/-- A place in a source, with a remark that may be empty. -/
structure Label where
  span : Span
  message : String
  style : LabelStyle
  deriving DecidableEq, Repr

/-- One report. -/
structure Diagnostic where
  severity : Severity
  kind : DiagnosticKind
  message : String
  labels : List Label
  notes : List String
  expected : List String
  deriving DecidableEq, Repr

namespace Severity

/-- The word for a severity. -/
def word : Severity → String
  | error => "error"
  | warning => "warning"
  | note => "note"

end Severity

namespace LabelStyle

/-- The word for a style. -/
def word : LabelStyle → String
  | primary => "primary"
  | secondary => "secondary"

end LabelStyle

namespace DiagnosticKind

/-- The stable code of a kind. -/
def code : DiagnosticKind → String
  | lexError => "E100"
  | unexpectedToken => "E200"
  | ambiguousBracketForm => "E201"
  | arityMismatch => "E202"
  | missingElseBranch => "E203"
  | invalidEffectRow => "E204"
  | malformedFieldPun => "E205"
  | danglingAscription => "E206"
  | ascriptionMismatch => "W300"

/-- The title of a kind. -/
def title : DiagnosticKind → String
  | lexError => "LexError"
  | unexpectedToken => "UnexpectedToken"
  | ambiguousBracketForm => "AmbiguousBracketForm"
  | arityMismatch => "ArityMismatch"
  | missingElseBranch => "MissingElseBranch"
  | invalidEffectRow => "InvalidEffectRow"
  | malformedFieldPun => "MalformedFieldPun"
  | danglingAscription => "DanglingAnnotation"
  | ascriptionMismatch => "AnnotationMismatch"

/-- Every kind. -/
def all : List DiagnosticKind :=
  [lexError, unexpectedToken, ambiguousBracketForm, arityMismatch, missingElseBranch,
    invalidEffectRow, malformedFieldPun, danglingAscription, ascriptionMismatch]

theorem code_injective {a b : DiagnosticKind} (h : a.code = b.code) : a = b := by
  cases a <;> cases b <;> first | rfl | exact absurd h (by decide)

end DiagnosticKind

namespace Label

/-- A main place. -/
def primary (span : Span) (message : String) : Label :=
  { span := span, message := message, style := .primary }

end Label

namespace Diagnostic

/-- Whether a diagnostic is an error. -/
def isError (diagnostic : Diagnostic) : Bool := diagnostic.severity == .error

/-- The place of the first label. -/
def span? (diagnostic : Diagnostic) : Option Span := diagnostic.labels.head?.map (·.span)

/-- An error at one place. -/
def errorAt (kind : DiagnosticKind) (message : String) (span : Span) (notes expected : List String) :
    Diagnostic where
  severity := .error
  kind := kind
  message := message
  labels := [.primary span ""]
  notes := notes
  expected := expected

/-- A warning at one place. -/
def warningAt (kind : DiagnosticKind) (message : String) (span : Span) (notes : List String) :
    Diagnostic where
  severity := .warning
  kind := kind
  message := message
  labels := [.primary span ""]
  notes := notes
  expected := []

/-- The report of a fault that left a source without tokens. -/
def ofLexError (error : LexError) : Diagnostic :=
  errorAt .lexError error.fault.message error.span [] []

/-- A summary of diagnostics on one line: how many there are, and their messages. -/
def summary (diagnostics : List Diagnostic) : String :=
  toString diagnostics.length ++ " error(s): " ++
    String.intercalate "; " (diagnostics.map (·.message))

end Diagnostic

/-- The diagnostics reported so far, and how many times over reporting is muted. -/
structure Log where
  diagnostics : Array Diagnostic
  muted : Nat
  deriving Repr

namespace Log

/-- Nothing reported, nothing muted. -/
def empty : Log := { diagnostics := #[], muted := 0 }

/-- Adds a diagnostic, unless the log is muted. -/
def report (log : Log) (diagnostic : Diagnostic) : Log :=
  if log.muted = 0 then { log with diagnostics := log.diagnostics.push diagnostic } else log

/-- Mutes the log once more. -/
def mute (log : Log) : Log := { log with muted := log.muted + 1 }

/-- Takes back one muting, if there is one. -/
def unmute? (log : Log) : Option Log :=
  match log.muted with
  | 0 => none
  | count + 1 => some { log with muted := count }

/-- Whether an error has been reported. -/
def hasErrors (log : Log) : Bool := log.diagnostics.any Diagnostic.isError

/-- The number of diagnostics reported. -/
def count (log : Log) : Nat := log.diagnostics.size

/-- What has been reported since an earlier log. -/
def since (log earlier : Log) : List Diagnostic :=
  (log.diagnostics.extract earlier.count log.count).toList

@[simp] theorem report_mute (log : Log) (diagnostic : Diagnostic) :
    log.mute.report diagnostic = log.mute := by
  simp [report, mute]

@[simp] theorem unmute?_mute (log : Log) : log.mute.unmute? = some log := rfl

@[simp] theorem report_muted (log : Log) (diagnostic : Diagnostic) :
    (log.report diagnostic).muted = log.muted := by
  unfold report; split <;> rfl

end Log

end SableFrontend
