import SableFrontend.Tree.Outline

/-!
Comparing trees part by part. A comparison stops at the first difference, and takes a limited
depth: trees that are too deep are not compared to the end. What is compared, and in which order,
is what decides whether two trees have the same structure.
-/

namespace SableFrontend

/-- How a comparison ended, and how deep it went. -/
structure Comparison where
  same : Bool
  depth : Nat
  deriving DecidableEq, Repr

namespace Comparison

/-- The comparison of two parts without parts of their own. -/
def leaf (same : Bool) : Comparison := { same := same, depth := 1 }

/-- A comparison that takes more depth. -/
def under (levels : Nat) (comparison : Comparison) : Comparison :=
  { comparison with depth := comparison.depth + levels }

/-- A comparison that found no difference, and the one that follows it. -/
def followedBy (first second : Comparison) : Comparison :=
  { second with depth := max first.depth second.depth }

@[simp] theorem leaf_same (same : Bool) : (leaf same).same = same := rfl

@[simp] theorem under_same (levels : Nat) (comparison : Comparison) :
    (comparison.under levels).same = comparison.same := rfl

@[simp] theorem followedBy_same (first second : Comparison) :
    (first.followedBy second).same = second.same := rfl

end Comparison

mutual

/-- Compares two trees. A node takes three levels: its own, and two for its fields. -/
def Outline.compare : Outline → Outline → Comparison
  | { kind := kind, fields := fields, .. }, other =>
    if kind == other.kind then (compareFields fields other.fields).under 3 else .leaf false

/-- Field by field. -/
def compareFields : List OutlineField → List OutlineField → Comparison
  | [], [] => { same := true, depth := 0 }
  | field :: rest, other :: others =>
    let first := field.compare other
    if first.same then first.followedBy (compareFields rest others) else first
  | _, _ => { same := false, depth := 0 }

/-- One field with its name. -/
def OutlineField.compare : OutlineField → OutlineField → Comparison
  | { name := name, value := value }, other =>
    if name == other.name then value.compare other.value else .leaf false

/-- The values of two fields. Lists of different lengths differ without a look at their items. -/
def OutlineValue.compare : OutlineValue → OutlineValue → Comparison
  | .node a, .node b => a.compare b
  | .nodes a, .nodes b =>
    if a.length == b.length then (compareNodes a b).under 1 else .leaf false
  | .absent, b => .leaf (OutlineValue.absent.sameValue b)
  | .flag a, b => .leaf ((OutlineValue.flag a).sameValue b)
  | .text a, b => .leaf ((OutlineValue.text a).sameValue b)
  | .integer a, b => .leaf ((OutlineValue.integer a).sameValue b)
  | .float a, b => .leaf ((OutlineValue.float a).sameValue b)
  | .attachment a, b => .leaf ((OutlineValue.attachment a).sameValue b)
  | .texts a, b => .leaf ((OutlineValue.texts a).sameValue b)
  | .node _, _ | .nodes _, _ => .leaf false

/-- Node by node. -/
def compareNodes : List Outline → List Outline → Comparison
  | [], [] => { same := true, depth := 0 }
  | node :: rest, other :: others =>
    let first := node.compare other
    if first.same then first.followedBy (compareNodes rest others) else first
  | _, _ => { same := false, depth := 0 }

end

theorem sameNodes_eq_false {a b : List Outline} (h : a.length ≠ b.length) :
    sameNodes a b = false := by
  induction a generalizing b with
  | nil => cases b <;> simp_all [sameNodes]
  | cons node rest ih =>
    cases b with
    | nil => simp [sameNodes]
    | cons other others => simp [sameNodes, ih (b := others) (by simpa using h)]

mutual

theorem Outline.compare_same (a b : Outline) : (a.compare b).same = a.sameStructure b := by
  obtain ⟨kind, fields, span⟩ := a
  simp only [Outline.compare, Outline.sameStructure]
  split <;> simp_all [compareFields_same fields b.fields]

theorem compareFields_same (a b : List OutlineField) :
    (compareFields a b).same = sameFields a b := by
  match a, b with
  | [], [] => simp [compareFields, sameFields]
  | [], _ :: _ => simp [compareFields, sameFields]
  | _ :: _, [] => simp [compareFields, sameFields]
  | field :: rest, other :: others =>
    have hfirst := OutlineField.compare_same field other
    have hrest := compareFields_same rest others
    simp only [compareFields, sameFields]
    split <;> simp_all

theorem OutlineField.compare_same (a b : OutlineField) :
    (a.compare b).same = a.sameField b := by
  obtain ⟨name, value⟩ := a
  simp only [OutlineField.compare, OutlineField.sameField]
  split <;> simp_all [OutlineValue.compare_same value b.value]

theorem OutlineValue.compare_same (a b : OutlineValue) :
    (a.compare b).same = a.sameValue b := by
  match a with
  | .absent => simp [OutlineValue.compare]
  | .flag _ => simp [OutlineValue.compare]
  | .text _ => simp [OutlineValue.compare]
  | .integer _ => simp [OutlineValue.compare]
  | .float _ => simp [OutlineValue.compare]
  | .attachment _ => simp [OutlineValue.compare]
  | .texts _ => simp [OutlineValue.compare]
  | .node node =>
    cases b with
    | node other =>
      simp [OutlineValue.compare, OutlineValue.sameValue, Outline.compare_same node other]
    | _ => simp [OutlineValue.compare, OutlineValue.sameValue]
  | .nodes nodes =>
    cases b with
    | nodes others =>
      simp only [OutlineValue.compare, OutlineValue.sameValue]
      split
      · simp [compareNodes_same nodes others]
      · rename_i h
        simp [sameNodes_eq_false (a := nodes) (b := others) (by simpa using h)]
    | _ => simp [OutlineValue.compare, OutlineValue.sameValue]

theorem compareNodes_same (a b : List Outline) : (compareNodes a b).same = sameNodes a b := by
  match a, b with
  | [], [] => simp [compareNodes, sameNodes]
  | [], _ :: _ => simp [compareNodes, sameNodes]
  | _ :: _, [] => simp [compareNodes, sameNodes]
  | node :: rest, other :: others =>
    have hfirst := Outline.compare_same node other
    have hrest := compareNodes_same rest others
    simp only [compareNodes, sameNodes]
    split <;> simp_all

end

/-- How deep a comparison may go. -/
def maxComparisonDepth : Nat := 990

/-- Whether two trees have the same structure, if comparing them does not go too deep. -/
def Outline.sameStructure? (a b : Outline) : Option Bool :=
  let comparison := a.compare b
  if comparison.depth ≤ maxComparisonDepth then some comparison.same else none

theorem Outline.sameStructure?_eq_some {a b : Outline} {same : Bool}
    (h : a.sameStructure? b = some same) : a.sameStructure b = same := by
  simp only [Outline.sameStructure?] at h
  split at h
  · simpa [Outline.compare_same] using h
  · simp at h

end SableFrontend
