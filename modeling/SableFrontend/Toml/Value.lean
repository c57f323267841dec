import SableFrontend.Number.Shortest
import SableFrontend.Text.Quoted
import SableFrontend.Toml.Moment
import SableFrontend.Token.Numeral

/-!
Values of TOML documents, and tables of them. The entries of a table keep the order in which they
were given.
-/

namespace SableFrontend.Toml

/-- A value. -/
inductive Value where
  | text (value : String)
  | integer (value : Int)
  | float (value : Binary64)
  | notANumber
  | flag (value : Bool)
  | moment (value : Moment)
  | array (items : List Value)
  | table (entries : List (String × Value))

/-- A table by its entries. -/
abbrev Table : Type := List (String × Value)

namespace Value

instance : Inhabited Value := ⟨.flag false⟩

/-- Whether a value is a table or an array. -/
def isContainer : Value → Bool
  | array _ | table _ => true
  | _ => false

/-- Whether a value counts as set: empty texts, empty containers, zeros and `false` do not. -/
def isTruthy : Value → Bool
  | text value => !value.isEmpty
  | integer value => value != 0
  | float value => value.magnitude != 0
  | notANumber => true
  | flag value => value
  | moment _ => true
  | array items => !items.isEmpty
  | table entries => !entries.isEmpty

mutual

/-- The text of a value inside a container. -/
def quoted : Value → String
  | text value => Text.Quoted.encode value
  | integer value => toString value
  | float value => value.text
  | notANumber => "nan"
  | flag value => if value then "True" else "False"
  | moment value => value.quoted
  | array items => "[" ++ String.intercalate ", " (quotedItems items) ++ "]"
  | table entries => "\x7b" ++ String.intercalate ", " (quotedEntries entries) ++ "\x7d"

/-- The texts of the items of an array. -/
def quotedItems : List Value → List String
  | [] => []
  | item :: rest => item.quoted :: quotedItems rest

/-- The texts of the entries of a table. -/
def quotedEntries : List (String × Value) → List String
  | [] => []
  | (key, value) :: rest =>
    (Text.Quoted.encode key ++ ": " ++ value.quoted) :: quotedEntries rest

end

mutual

/-- The integers in a value. -/
def integers : Value → List Int
  | integer value => [value]
  | array items => integersOfItems items
  | table entries => integersOfEntries entries
  | _ => []

/-- The integers in the items of an array. -/
def integersOfItems : List Value → List Int
  | [] => []
  | item :: rest => item.integers ++ integersOfItems rest

/-- The integers in the entries of a table. -/
def integersOfEntries : List (String × Value) → List Int
  | [] => []
  | (_, value) :: rest => value.integers ++ integersOfEntries rest

end

/-- The text of a value by itself: a text stands for itself, and a moment is written as people
write it. Integers that are too long have no text. -/
def display (value : Value) : Except OverlongInteger String :=
  match value with
  | text value => .ok value
  | moment value => .ok value.text
  | other =>
    match other.integers.findSome? OverlongInteger.ofInt? with
    | some literal => .error literal
    | none => .ok other.quoted

end Value

namespace Table

/-- The value of a key. -/
def get? (table : Table) (key : String) : Option Value := table.lookup key

/-- Gives a key a value, in its place if it has one already. -/
def set (table : Table) (key : String) (value : Value) : Table :=
  match table with
  | [] => [(key, value)]
  | (other, old) :: rest =>
    if other = key then (key, value) :: rest else (other, old) :: set rest key value

theorem get?_set_self (table : Table) (key : String) (value : Value) :
    (table.set key value).get? key = some value := by
  induction table with
  | nil => simp [set, get?]
  | cons entry rest ih =>
    obtain ⟨other, old⟩ := entry
    simp only [set]
    split
    · simp [get?]
    · rename_i h
      have hne : (key == other) = false := by simpa using fun e => h e.symm
      simpa [get?, List.lookup_cons, hne] using ih

end Table

end SableFrontend.Toml
