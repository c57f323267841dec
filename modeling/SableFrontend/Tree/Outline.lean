import SableFrontend.Number.Shortest
import SableFrontend.Text.Quoted
import SableFrontend.Tree.Expr

/-!
Outlines: a uniform view of every syntax tree. A node shows its kind, its named fields in a fixed
order, and its place. What compares, lists or encodes trees does so through this view, in one
recursion over outlines instead of one over each type of tree.
-/

namespace SableFrontend

mutual

/-- A node of a tree. -/
structure Outline where
  kind : String
  fields : List OutlineField
  span : Span

/-- A named field of a node. -/
structure OutlineField where
  name : String
  value : OutlineValue

/-- The value of a field; an optional part that is missing is `absent`. -/
inductive OutlineValue where
  | absent
  | flag (value : Bool)
  | text (value : String)
  | integer (value : Int)
  | float (value : Binary64)
  | attachment (value : Attachment)
  | node (value : Outline)
  | nodes (values : List Outline)
  | texts (values : List String)

end

/-! ### Structural equality -/

mutual

/-- Whether two trees have the same structure: places and attachments do not count, and numbers
are compared by value. -/
def Outline.sameStructure : Outline → Outline → Bool
  | { kind := kind, fields := fields, .. }, other =>
    kind == other.kind && sameFields fields other.fields

/-- Field by field. -/
def sameFields : List OutlineField → List OutlineField → Bool
  | [], [] => true
  | field :: rest, other :: others => field.sameField other && sameFields rest others
  | _, _ => false

/-- One field with its name. -/
def OutlineField.sameField : OutlineField → OutlineField → Bool
  | { name := name, value := value }, other => name == other.name && value.sameValue other.value

/-- The values of two fields. -/
def OutlineValue.sameValue : OutlineValue → OutlineValue → Bool
  | .absent, .absent => true
  | .flag a, .flag b => a == b
  | .text a, .text b => a == b
  | .integer a, .integer b => a == b
  | .float a, .float b => a.sameValue b
  | .attachment _, .attachment _ => true
  | .node a, .node b => a.sameStructure b
  | .nodes a, .nodes b => sameNodes a b
  | .texts a, .texts b => a == b
  | _, _ => false

/-- Node by node. -/
def sameNodes : List Outline → List Outline → Bool
  | [], [] => true
  | node :: rest, other :: others => node.sameStructure other && sameNodes rest others
  | _, _ => false

end

/-! ### Listing -/

/-- What a line of a listing says: the kind of a node, the name of a field whose parts follow, the
name of a field without parts, a field with its value, or a text in a list of texts. -/
inductive ListingContent where
  | kind (name : String)
  | heading (name : String)
  | emptyList (name : String)
  | flag (name : String) (value : Bool)
  | text (name : String) (value : String)
  | integer (name : String) (value : Int)
  | float (name : String) (value : Binary64)
  | attachment (name : String) (value : Attachment)
  | item (value : String)
  deriving DecidableEq

/-- A line of a listing with the steps that it is indented by. -/
structure ListingLine where
  depth : Nat
  content : ListingContent
  deriving DecidableEq

/-- The word for a truth value in listings. -/
def flagWord (value : Bool) : String := if value then "True" else "False"

/-- The text of what a line says. -/
def ListingContent.spelled : ListingContent → String
  | kind name => name
  | heading name => name ++ ":"
  | emptyList name => name ++ ": []"
  | flag name value => name ++ ": " ++ flagWord value
  | text name value => name ++ ": " ++ Text.Quoted.encode value
  | integer name value => name ++ ": " ++ toString value
  | float name value => name ++ ": " ++ value.text
  | attachment name value => name ++ ": " ++ value.name
  | item value => "str: " ++ Text.Quoted.encode value

/-- The text of a line: every step of indentation is two blanks. -/
def ListingLine.spelled (line : ListingLine) : String :=
  String.ofList (List.replicate (2 * line.depth) ' ') ++ line.content.spelled

/-- The number on a line, if it shows one. -/
def ListingLine.integer? (line : ListingLine) : Option Int :=
  match line.content with
  | .integer _ value => some value
  | _ => none

mutual

/-- The lines that list a node, indented by `depth` steps: its kind, then its fields one step
further in. -/
def Outline.listing (depth : Nat) : Outline → List ListingLine
  | { kind := kind, fields := fields, .. } => ⟨depth, .kind kind⟩ :: listFields depth fields

/-- The lines of the fields of a node at `depth`. -/
def listFields (depth : Nat) : List OutlineField → List ListingLine
  | [] => []
  | field :: rest => field.listing depth ++ listFields depth rest

/-- The lines of one field of a node at `depth`. A missing part has none; nodes and non-empty
lists stand on lines of their own. -/
def OutlineField.listing (depth : Nat) : OutlineField → List ListingLine
  | { name := name, value := value } => value.listing depth name

/-- The lines of the value of the field called `name`. -/
def OutlineValue.listing (depth : Nat) (name : String) : OutlineValue → List ListingLine
  | .absent => []
  | .flag value => [⟨depth + 1, .flag name value⟩]
  | .text value => [⟨depth + 1, .text name value⟩]
  | .integer value => [⟨depth + 1, .integer name value⟩]
  | .float value => [⟨depth + 1, .float name value⟩]
  | .attachment value => [⟨depth + 1, .attachment name value⟩]
  | .node value => ⟨depth + 1, .heading name⟩ :: value.listing (depth + 2)
  | .nodes [] => [⟨depth + 1, .emptyList name⟩]
  | .nodes (value :: values) =>
    ⟨depth + 1, .heading name⟩ :: (value.listing (depth + 2) ++ listNodes (depth + 2) values)
  | .texts [] => [⟨depth + 1, .emptyList name⟩]
  | .texts (value :: values) =>
    ⟨depth + 1, .heading name⟩ ::
      (value :: values).map fun text => ⟨depth + 2, .item text⟩

/-- The lines of a list of nodes. -/
def listNodes (depth : Nat) : List Outline → List ListingLine
  | [] => []
  | node :: rest => node.listing depth ++ listNodes depth rest

end

end SableFrontend
