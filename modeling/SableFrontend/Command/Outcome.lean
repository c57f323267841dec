import SableFrontend.Diagnostic.Rendering
import SableFrontend.Project.Scaffold

/-!
What comes of a command: the messages it gives, how it ends, and the files that it writes.
-/

namespace SableFrontend

/-- Where a message goes. -/
inductive Channel where
  | output
  | errors
  deriving DecidableEq, Repr

/-- A message, which is written with a line break after it. -/
structure Message where
  channel : Channel
  text : String
  deriving DecidableEq, Repr

/-- Why a command breaks off. -/
inductive CommandFault where
  | settings (fault : SettingsFault)
  | dirsNotTexts
  | isDirectory
  | notADirectory
  | overlongInteger (literal : OverlongInteger)
  | unusablePath
  | pathTooLong
  | tooDeep
  deriving DecidableEq, Repr

/-- How a command ends: as it should, with a finding that is to be seen from outside, without
having been understood, or broken off. -/
inductive Verdict where
  | success
  | failure
  | misuse
  | broken (fault : CommandFault)
  deriving DecidableEq, Repr

namespace Verdict

/-- The exit code. -/
def exitCode : Verdict → Nat
  | success => 0
  | failure => 1
  | misuse => 2
  | broken _ => 1

end Verdict

/-- What comes of a command. -/
structure Outcome where
  messages : List Message
  verdict : Verdict
  written : List (Location × String) := []

namespace Outcome

/-- A command that only says something. -/
def saying (text : String) : Outcome :=
  { messages := [⟨.output, text⟩], verdict := .success }

/-- A command that fails with a message. -/
def failing (text : String) : Outcome :=
  { messages := [⟨.errors, text⟩], verdict := .failure }

/-- A command that was not understood. -/
def misuse : Outcome := { messages := [], verdict := .misuse }

/-- A command that breaks off before it has said anything. -/
def breaking (fault : CommandFault) : Outcome := { messages := [], verdict := .broken fault }

/-- Says something before all else. -/
def after (messages : List Message) (outcome : Outcome) : Outcome :=
  { outcome with messages := messages ++ outcome.messages }

/-- The files that a command made, of those it wrote: they were not there before. -/
def created (outcome : Outcome) (before : FileTree) : List (Location × String) :=
  outcome.written.filter fun file => (before.get? file.1).isNone

/-- The lines that are written on a channel where there are no paints. -/
def plainLines (outcome : Outcome) (channel : Channel) : List String :=
  (outcome.messages.filter (·.channel == channel)).map fun message =>
    Paint.plain message.text ++ "\n"

/-- What can be read on a channel where there are no paints. Every line end is a newline alone. -/
def plainText (outcome : Outcome) (channel : Channel) : String :=
  String.ofList (Text.joinLineEnds (String.join (outcome.plainLines channel)).toList)

end Outcome

end SableFrontend
