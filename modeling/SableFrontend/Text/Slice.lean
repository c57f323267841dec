/-!
Indexes that may count from the end. A negative index `-k` means the `k`th item from the end; as
the bound of a slice, an index that lies outside is moved to the nearest end.
-/

namespace SableFrontend.Text

/-- The position that an index denotes in a sequence of the given length, if it lies inside. -/
def resolveIndex? (length : Nat) (index : Int) : Option Nat :=
  if 0 ≤ index then
    if index < length then some index.toNat else none
  else if 0 ≤ index + length then some (index + length).toNat
  else none

/-- The position that a slice bound denotes, moved inside the sequence. -/
def clampIndex (length : Nat) (index : Int) : Nat :=
  if 0 ≤ index then min index.toNat length else (index + length).toNat

/-- The items from bound `start` up to, and not including, bound `stop`. -/
def slice {α : Type} (items : List α) (start stop : Int) : List α :=
  (items.take (clampIndex items.length stop)).drop (clampIndex items.length start)

/-- The items from bound `start` on. -/
def sliceFrom {α : Type} (items : List α) (start : Int) : List α :=
  items.drop (clampIndex items.length start)

/-- The items before bound `stop`. -/
def sliceTo {α : Type} (items : List α) (stop : Int) : List α :=
  items.take (clampIndex items.length stop)

theorem resolveIndex?_lt {length : Nat} {index : Int} {position : Nat}
    (h : resolveIndex? length index = some position) : position < length := by
  simp only [resolveIndex?] at h
  split at h <;> split at h <;> simp at h <;> omega

@[simp] theorem resolveIndex?_natCast {length index : Nat} (h : index < length) :
    resolveIndex? length (index : Int) = some index := by
  simp [resolveIndex?, h]

@[simp] theorem clampIndex_natCast (length index : Nat) :
    clampIndex length (index : Int) = min index length := by
  simp [clampIndex]

end SableFrontend.Text
