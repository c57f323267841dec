/-!
Paths as people write them: steps with slashes between them, from the root or from where one is.
A location is where a path leads, by the names from the root.
-/

namespace SableFrontend

/-- A place among the files: the names from the root down to it. -/
abbrev Location : Type := List String

/-- The order of locations, name by name. What leads on comes after where it leads on from. -/
def Location.precedes : Location → Location → Bool
  | [], _ => true
  | _ :: _, [] => false
  | a :: first, b :: second => a < b || (a == b && Location.precedes first second)

/-- The pieces of a text between its slashes. -/
def splitAtSlashes : List Char → List (List Char)
  | [] => [[]]
  | c :: rest =>
    if c = '/' then [] :: splitAtSlashes rest
    else
      match splitAtSlashes rest with
      | [] => [[c]]
      | piece :: more => (c :: piece) :: more

theorem splitAtSlashes_ne_nil (text : List Char) : splitAtSlashes text ≠ [] := by
  cases text with
  | nil => simp [splitAtSlashes]
  | cons c rest =>
    simp only [splitAtSlashes]
    split
    · simp
    · split <;> simp

/-- The pieces of a text, joined by slashes, are the text. -/
theorem intercalate_splitAtSlashes (text : List Char) :
    List.intercalate ['/'] (splitAtSlashes text) = text := by
  induction text with
  | nil => rfl
  | cons c rest ih =>
    simp only [splitAtSlashes]
    have hne := splitAtSlashes_ne_nil rest
    split
    · rename_i hc
      subst hc
      cases hpieces : splitAtSlashes rest with
      | nil => exact absurd hpieces hne
      | cons piece more =>
        rw [hpieces] at ih
        simp [List.intercalate, List.intersperse] at ih ⊢
        simpa using ih
    · cases hpieces : splitAtSlashes rest with
      | nil => exact absurd hpieces hne
      | cons piece more =>
        rw [hpieces] at ih
        cases more with
        | nil => simp_all [List.intercalate, List.intersperse]
        | cons next more => simp_all [List.intercalate, List.intersperse]

/-- A path: whether it begins at the root, and its steps. Steps that are empty or a single dot
stay in place. -/
structure Path where
  absolute : Bool
  steps : List String
  deriving DecidableEq, Repr

namespace Path

/-- The path that a text spells. -/
def ofText (text : String) : Path :=
  match text.toList with
  | '/' :: rest => { absolute := true, steps := (splitAtSlashes rest).map String.ofList }
  | chars => { absolute := false, steps := (splitAtSlashes chars).map String.ofList }

/-- The text that spells a path. -/
def text (path : Path) : String :=
  (if path.absolute then "/" else "") ++ String.intercalate "/" path.steps

/-- Whether a step goes anywhere. -/
def moves (step : String) : Bool := step != "" && step != "."

/-- A path without the steps that stay in place; one that never moves is a single dot. -/
def normal (path : Path) : Path :=
  let steps := path.steps.filter moves
  if steps.isEmpty && !path.absolute then { absolute := false, steps := ["."] }
  else { path with steps := steps }

/-- One path after another. A path from the root does not mind what stands before it. -/
def append (base path : Path) : Path :=
  if path.absolute then path else { base with steps := base.steps ++ path.steps }

/-- The path from the root to a location. -/
def ofLocation (location : Location) : Path := { absolute := true, steps := location }

/-- Where a step leads from a location. Above the root there is nothing but the root. -/
def step (here : Location) (name : String) : Location :=
  if name = ".." then here.dropLast else if moves name then here ++ [name] else here

/-- Where a path begins, for one who is at a location. -/
def origin (here : Location) (path : Path) : Location := if path.absolute then [] else here

/-- Where a path leads from a location, by its names alone. -/
def resolve (here : Location) (path : Path) : Location :=
  path.steps.foldl step (path.origin here)

/-- Whether a path can be looked up at all: no name may hold the null character. -/
def isUsable (path : Path) : Bool := path.steps.all fun name => !name.toList.contains '\x00'

/-- The most bytes that a single name may take. -/
def maxNameBytes : Nat := 255

/-- Whether a single name is too long to be looked up. -/
def isLongName (name : String) : Bool := maxNameBytes < name.utf8ByteSize

/-- The most bytes that a path may take. -/
def maxBytes : Nat := 4095

/-- Whether a path is too long to be looked up, as it is written. -/
def isTooLong (path : Path) : Bool := maxBytes < path.text.utf8ByteSize

end Path

end SableFrontend
