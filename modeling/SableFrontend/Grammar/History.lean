import SableFrontend.Diagnostic.Basic

/-!
What happened on the way to an answer. A parser that recovers from failures answers something
whatever it was given, so its answer does not show what was left out of it, or where. The history
does: it is written as parsing goes on and never read, and it survives the attempts that leave
nothing else behind.
-/

namespace SableFrontend

/-- A part of a source in which items are read: where it begins, how many delimiters lie around
it, what closes it, and whether commas separate its items. -/
structure Enclosure where
  first : Nat
  level : Nat
  closer : TokenKind
  commas : Bool
  deriving DecidableEq, Repr

/-- A failure that was recovered from: where the parser that failed began and stopped, how many
times over reporting was muted, and what was reported in between. -/
structure Failure where
  start : Nat
  stop : Nat
  muted : Nat
  reported : List Diagnostic
  deriving DecidableEq, Repr

/-- A step of parsing that an answer does not show. -/
inductive ParserEvent where
  /-- A parser was given up. -/
  | abandoned (failure : Failure)
  /-- The rest of a failed item was skipped. -/
  | skipped (within : Enclosure) (start stop : Nat)
  /-- The items of an enclosure began to be read. -/
  | entered (within : Enclosure)
  /-- One item was read or skipped, with the separators after it. -/
  | round (within : Enclosure) (start stop : Nat)
  /-- The items of an enclosure came to an end. -/
  | finished (within : Enclosure) (stop : Nat)
  /-- Everything open was left, because the source nests too deeply. -/
  | cutShort
  deriving DecidableEq, Repr

end SableFrontend
