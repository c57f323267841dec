import Mathlib
import SableFrontend.Proofs.Tree.Shape
import SableFrontend.Proofs.Tree.Structure

/-!
Reading listings back. The rows of a node stand deeper than it, so what follows the node begins where
a row stands no deeper; the kind of the node says which fields to expect. With that a listing says
which tree was listed, up to the places of its parts.
-/

namespace SableFrontend

/-! ### Rows of outlines -/

/-- The rows of a node. -/
def Outline.rows (depth : Nat) (node : Outline) : List ListingRow :=
  (node.listing depth).map ListingLine.row

/-- The rows of fields. -/
def fieldRows (depth : Nat) (fields : List OutlineField) : List ListingRow :=
  (listFields depth fields).map ListingLine.row

/-- The rows of the value of the field called `name`. -/
def OutlineValue.rows (depth : Nat) (name : String) (value : OutlineValue) : List ListingRow :=
  (value.listing depth name).map ListingLine.row

/-- The rows of nodes. -/
def nodeRows (depth : Nat) (nodes : List Outline) : List ListingRow :=
  (listNodes depth nodes).map ListingLine.row

/-- The row of a text in a list of texts. -/
def itemRow (depth : Nat) (text : String) : ListingRow :=
  ⟨depth, "str", (": " ++ Text.Quoted.encode text).toList⟩

section

variable (depth : Nat) (name kind : String) (span : Span)

@[simp] theorem Outline.rows_mk (fields : List OutlineField) :
    Outline.rows depth ⟨kind, fields, span⟩ = ⟨depth, kind, []⟩ :: fieldRows depth fields := by
  simp [Outline.rows, fieldRows, Outline.listing, ListingLine.row, ListingContent.label,
    ListingContent.detail]

@[simp] theorem fieldRows_nil : fieldRows depth [] = [] := rfl

@[simp] theorem fieldRows_cons (value : OutlineValue) (rest : List OutlineField) :
    fieldRows depth (⟨name, value⟩ :: rest) = value.rows depth name ++ fieldRows depth rest := by
  simp [fieldRows, OutlineValue.rows, listFields, OutlineField.listing]

@[simp] theorem nodeRows_nil : nodeRows depth [] = [] := rfl

@[simp] theorem nodeRows_cons (node : Outline) (rest : List Outline) :
    nodeRows depth (node :: rest) = node.rows depth ++ nodeRows depth rest := by
  simp [nodeRows, Outline.rows, listNodes]

namespace OutlineValue

@[simp] theorem rows_absent : absent.rows depth name = [] := rfl

@[simp] theorem rows_node (value : Outline) : (node value).rows depth name =
    ⟨depth + 1, name, ":".toList⟩ :: value.rows (depth + 2) := rfl

@[simp] theorem rows_nodes_nil :
    (nodes []).rows depth name = [⟨depth + 1, name, ": []".toList⟩] := rfl

@[simp] theorem rows_nodes_cons (value : Outline) (values : List Outline) :
    (nodes (value :: values)).rows depth name =
      ⟨depth + 1, name, ":".toList⟩ :: nodeRows (depth + 2) (value :: values) := by
  simp [rows, nodeRows, listing, ListingLine.row, ListingContent.label, ListingContent.detail,
    listNodes]

@[simp] theorem rows_texts_nil :
    (texts []).rows depth name = [⟨depth + 1, name, ": []".toList⟩] := rfl

@[simp] theorem rows_texts_cons (value : String) (values : List String) :
    (texts (value :: values)).rows depth name = ⟨depth + 1, name, ":".toList⟩ ::
      (value :: values).map (itemRow (depth + 2)) := by
  simp [rows, itemRow, listing, ListingLine.row, ListingContent.label, ListingContent.detail]

/-- Only an absent value has no row; the first row of others has the name of the field. -/
theorem rows_eq_cons (value : OutlineValue) : value = absent ∨
    ∃ detail more, value.rows depth name = ⟨depth + 1, name, detail⟩ :: more := by
  cases value with
  | absent => exact .inl rfl
  | flag _ | text _ | integer _ | float _ | attachment _ | node _ => exact .inr ⟨_, _, rfl⟩
  | nodes values => cases values <;> exact .inr ⟨_, _, rfl⟩
  | texts values => cases values <;> exact .inr ⟨_, _, rfl⟩

end OutlineValue

end

/-! ### Names on lines -/

mutual

/-- Every line of a node that keeps to the shapes begins with a name. -/
theorem Outline.isLabel_of_mem (node : Outline) {depth : Nat} (h : node.Shaped) :
    ∀ line ∈ node.listing depth, Text.isLabel line.content.label = true := by
  match node with
  | { kind := kind, fields := fields, span := _ } =>
    obtain ⟨shapes, hlookup, hfields⟩ := Outline.shaped_mk.1 h
    obtain ⟨hkind, hnames, -⟩ := nodeShapes_names hlookup
    rw [Outline.listing, List.forall_mem_cons]
    exact ⟨hkind, isLabel_of_mem_fields fields hnames hfields⟩
termination_by structural node

theorem isLabel_of_mem_fields (fields : List OutlineField) {depth : Nat} {shapes : List FieldShape}
    (hnames : ∀ shape ∈ shapes, Text.isLabel shape.name = true) (h : FieldsShaped shapes fields) :
    ∀ line ∈ listFields depth fields, Text.isLabel line.content.label = true := by
  match fields, shapes with
  | [], _ => simp [listFields]
  | _ :: _, [] => simp at h
  | field :: rest, shape :: shapes =>
    obtain ⟨hname, hnames⟩ := List.forall_mem_cons.1 hnames
    rw [listFields, List.forall_mem_append]
    exact ⟨field.isLabel_of_mem hname h.1, isLabel_of_mem_fields rest hnames h.2⟩
termination_by structural fields

theorem OutlineField.isLabel_of_mem (field : OutlineField) {depth : Nat} {shape : FieldShape}
    (hname : Text.isLabel shape.name = true) (h : field.Shaped shape) :
    ∀ line ∈ field.listing depth, Text.isLabel line.content.label = true := by
  match field with
  | { name := name, value := value } =>
    simp only [OutlineField.Shaped] at h
    exact value.isLabel_of_mem (h.1 ▸ hname) h.2
termination_by structural field

theorem OutlineValue.isLabel_of_mem (value : OutlineValue) {depth : Nat} {name : String}
    {shape : FieldShape} (hname : Text.isLabel name = true) (h : value.Shaped shape) :
    ∀ line ∈ value.listing depth name, Text.isLabel line.content.label = true := by
  have hitem : Text.isLabel "str" = true := rfl
  match value with
  | .absent => exact fun line hmem => absurd hmem List.not_mem_nil
  | .flag _ | .text _ | .integer _ | .float _ | .attachment _ | .nodes [] | .texts [] =>
    exact List.forall_mem_singleton.2 hname
  | .node value => exact List.forall_mem_cons.2 ⟨hname, value.isLabel_of_mem h.2⟩
  | .nodes (value :: values) =>
    exact List.forall_mem_cons.2 ⟨hname, isLabel_of_mem_nodes (value :: values) h.2⟩
  | .texts (value :: values) =>
    exact List.forall_mem_cons.2 ⟨hname, List.forall_mem_map.2 fun _ _ => hitem⟩
termination_by structural value

theorem isLabel_of_mem_nodes (nodes : List Outline) {depth : Nat} (h : NodesShaped nodes) :
    ∀ line ∈ listNodes depth nodes, Text.isLabel line.content.label = true := by
  match nodes with
  | [] => simp [listNodes]
  | node :: rest =>
    rw [listNodes, List.forall_mem_append]
    exact ⟨node.isLabel_of_mem h.1, isLabel_of_mem_nodes rest h.2⟩
termination_by structural nodes

end

theorem Outline.legible_rows {node : Outline} (h : node.Shaped) (depth : Nat) :
    ∀ row ∈ node.rows depth, row.Legible := by
  intro row hmem
  obtain ⟨line, hline, rfl⟩ := List.mem_map.1 hmem
  exact ListingLine.legible_row (node.isLabel_of_mem h line hline)

/-! ### Numbers in outlines -/

mutual

/-- The floating-point numbers in a node. -/
def Outline.floats : Outline → List Binary64
  | { fields := fields, .. } => fieldFloats fields

/-- The floating-point numbers in fields. -/
def fieldFloats : List OutlineField → List Binary64
  | [] => []
  | field :: rest => field.floats ++ fieldFloats rest

/-- The floating-point numbers in a field. -/
def OutlineField.floats : OutlineField → List Binary64
  | { value := value, .. } => value.floats

/-- The floating-point numbers in a value. -/
def OutlineValue.floats : OutlineValue → List Binary64
  | .float value => [value]
  | .node value => value.floats
  | .nodes values => nodeFloats values
  | .absent | .flag _ | .text _ | .integer _ | .attachment _ | .texts _ => []

/-- The floating-point numbers in nodes. -/
def nodeFloats : List Outline → List Binary64
  | [] => []
  | node :: rest => node.floats ++ nodeFloats rest

end

/-! ### Reading listings back -/

/-- Rows that begin no deeper than `depth`. -/
def ListingRow.Stops (depth : Nat) (rows : List ListingRow) : Prop :=
  ∀ row ∈ rows.head?, row.depth ≤ depth

/-- Rows that can follow a field called `name` of a node at `depth`: they begin no deeper than
another field of the node. -/
def ListingRow.Follows (depth : Nat) (name : String) (rows : List ListingRow) : Prop :=
  ∀ row ∈ rows.head?, row.depth ≤ depth + 1 ∧ (row.depth = depth + 1 → row.label ≠ name)

open ListingRow (Stops Follows)

theorem ListingRow.Follows.stops {depth : Nat} {name : String} {rows : List ListingRow}
    (h : Follows depth name rows) : Stops (depth + 1) rows :=
  fun row hrow => (h row hrow).1

theorem ListingRow.stops_nil (depth : Nat) : Stops depth [] := nofun

theorem ListingRow.Stops.succ {depth : Nat} {rows : List ListingRow} (h : Stops depth rows) :
    Stops (depth + 1) rows :=
  fun row hrow => Nat.le_succ_of_le (h row hrow)

/-- Rows that begin less deep do not begin with a row at the depth. -/
theorem ListingRow.Stops.ne_cons {depth : Nat} {label : String} {detail : List Char}
    {rows more rest : List ListingRow} (h : Stops depth rows) :
    rows ≠ ⟨depth + 1, label, detail⟩ :: more ++ rest := by
  rintro rfl
  exact absurd (h _ rfl) (Nat.not_succ_le_self depth)

/-- Behind a node come the others, which stand as deep as it. -/
theorem stops_nodeRows {depth : Nat} {rest : List ListingRow} (hrest : Stops depth rest)
    (nodes : List Outline) : Stops (depth + 1) (nodeRows (depth + 1) nodes ++ rest) := by
  cases nodes with
  | nil => exact hrest.succ
  | cons node more =>
    obtain ⟨kind, fields, span⟩ := node
    rw [nodeRows_cons, Outline.rows_mk]
    rintro row ⟨⟩
    exact Nat.le_refl _

/-- Rows that follow a field do not begin with it. -/
theorem ListingRow.Follows.ne_cons {depth : Nat} {name : String} {detail : List Char}
    {rows more rest : List ListingRow} (h : Follows depth name rows) :
    rows ≠ ⟨depth + 1, name, detail⟩ :: more ++ rest := by
  rintro rfl
  exact (h _ rfl).2 rfl rfl

/-- What follows the fields of a node begins no deeper than it; otherwise the first row is that of a
field. -/
theorem head?_fieldRows {depth : Nat} {shapes : List FieldShape} {fields : List OutlineField}
    {rest : List ListingRow} (h : FieldsShaped shapes fields) (hrest : Stops depth rest) :
    ∀ row ∈ (fieldRows depth fields ++ rest).head?, row.depth ≤ depth ∨
      row.depth = depth + 1 ∧ row.label ∈ shapes.map FieldShape.name := by
  induction fields generalizing shapes with
  | nil => exact fun row hrow => .inl (hrest row hrow)
  | cons field more ih =>
    cases shapes with
    | nil => simp at h
    | cons shape shapes =>
      obtain ⟨name, value⟩ := field
      obtain ⟨hfield, hmore⟩ := h
      rw [OutlineField.Shaped] at hfield
      intro row hrow
      rw [fieldRows_cons, List.append_assoc] at hrow
      rcases value.rows_eq_cons depth name with rfl | ⟨detail, others, hrows⟩
      · exact (ih hmore row hrow).imp_right (And.imp_right (List.mem_cons_of_mem _))
      · rw [hrows] at hrow
        rw [← Option.some.inj hrow]
        exact .inr ⟨rfl, hfield.1 ▸ List.mem_cons_self ..⟩

/-- Behind a field come the others, which have other names. -/
theorem follows_fieldRows {depth : Nat} {shape : FieldShape} {shapes : List FieldShape}
    {fields : List OutlineField} {rest : List ListingRow}
    (hnodup : ((shape :: shapes).map FieldShape.name).Nodup) (h : FieldsShaped shapes fields)
    (hrest : Stops depth rest) : Follows depth shape.name (fieldRows depth fields ++ rest) := by
  intro row hrow
  rw [List.map_cons, List.nodup_cons] at hnodup
  rcases head?_fieldRows h hrest row hrow with hdepth | ⟨hdepth, hlabel⟩
  · exact ⟨by omega, fun hsame => by omega⟩
  · exact ⟨by omega, fun _ hname => hnodup.1 (hname ▸ hlabel)⟩

namespace OutlineValue

/-- The value that is written on the line of its field, as it is written. -/
def written? : OutlineValue → Option String
  | .flag value => some (flagWord value)
  | .text value => some (Text.Quoted.encode value)
  | .integer value => some (toString value)
  | .float value => some value.text
  | .attachment value => some value.name
  | .absent | .node _ | .nodes _ | .texts _ => none

theorem rows_of_written? {value : OutlineValue} {shown : String} (h : value.written? = some shown)
    (depth : Nat) (name : String) :
    value.rows depth name = [⟨depth + 1, name, (": " ++ shown).toList⟩] := by
  cases value <;> cases h <;> rfl

/-- The sort of a value that is there. -/
def sort? : OutlineValue → Option PartSort
  | .absent => none
  | .flag _ => some .flag
  | .text _ => some .text
  | .integer _ => some .integer
  | .float _ => some .float
  | .attachment _ => some .attachment
  | .node _ => some .node
  | .nodes _ => some .nodes
  | .texts _ => some .texts

theorem Shaped.sort?_eq {value : OutlineValue} {shape : FieldShape} (h : value.Shaped shape) :
    value = .absent ∨ value.sort? = some shape.sort := by
  cases value <;> simp_all [sort?]

end OutlineValue

theorem flagWord_inj {a b : Bool} (h : flagWord a = flagWord b) : a = b := by
  cases a <;> cases b <;> first | rfl | exact absurd h (by decide)

theorem Attachment.name_inj {a b : Attachment} (h : a.name = b.name) : a = b := by
  cases a <;> cases b <;> first | rfl | exact absurd h (by decide)

/-- Values that are there or absent alike are of one sort. -/
theorem OutlineValue.sort?_eq_of_rows {a b : OutlineValue} {shape : FieldShape} {depth : Nat}
    {rest rest' : List ListingRow} (ha : a.Shaped shape) (hb : b.Shaped shape)
    (hr : Follows depth shape.name rest) (hr' : Follows depth shape.name rest')
    (h : a.rows depth shape.name ++ rest = b.rows depth shape.name ++ rest') :
    a.sort? = b.sort? := by
  rcases ha.sort?_eq with rfl | hsort
  · rcases b.rows_eq_cons depth shape.name with rfl | ⟨detail, more, hrows⟩
    · rfl
    · rw [rows_absent, List.nil_append, hrows] at h
      exact absurd h hr.ne_cons
  · rcases hb.sort?_eq with rfl | hsort'
    · rcases a.rows_eq_cons depth shape.name with rfl | ⟨detail, more, hrows⟩
      · cases hsort
      · rw [rows_absent, List.nil_append, hrows] at h
        exact absurd h.symm hr'.ne_cons
    · rw [hsort, hsort']

theorem itemRow_inj {depth : Nat} {text text' : String}
    (h : itemRow depth text = itemRow depth text') : text = text' := by
  have hdetail := String.toList_injective (congrArg ListingRow.detail h)
  rw [String.append_right_inj] at hdetail
  exact Text.Quoted.encode_inj.1 hdetail

/-- Texts on lines of their own can be told apart, and end where a row stands less deep. -/
theorem texts_eq_of_rows {depth : Nat} {texts texts' : List String} {rest rest' : List ListingRow}
    (hr : Stops depth rest) (hr' : Stops depth rest')
    (h : texts.map (itemRow (depth + 1)) ++ rest = texts'.map (itemRow (depth + 1)) ++ rest') :
    texts = texts' ∧ rest = rest' := by
  induction texts generalizing texts' with
  | nil =>
    cases texts' with
    | nil => exact ⟨rfl, h⟩
    | cons text more =>
      rw [List.map_nil, List.nil_append, List.map_cons] at h
      exact absurd h hr.ne_cons
  | cons text more ih =>
    cases texts' with
    | nil =>
      rw [List.map_nil, List.nil_append, List.map_cons] at h
      exact absurd h.symm hr'.ne_cons
    | cons text' more' =>
      obtain ⟨htext, hmore⟩ := List.cons.inj h
      obtain ⟨rfl, hrest⟩ := ih hmore
      exact ⟨by rw [itemRow_inj htext], hrest⟩

section

variable {S : Set Binary64}

/-- What a value of a given sort is written as says what the value is. -/
theorem OutlineValue.eq_of_written? (hS : S.InjOn Binary64.text) {a b : OutlineValue} {shown : String}
    (hsort : a.sort? = b.sort?) (hfa : ∀ x ∈ a.floats, x ∈ S) (hfb : ∀ x ∈ b.floats, x ∈ S)
    (h : a.written? = some shown) (h' : b.written? = some shown) : a = b := by
  have heq : a.written? = b.written? := h.trans h'.symm
  cases a with
  | absent | node _ | nodes _ | texts _ => cases h
  | flag value =>
    cases b with
    | flag other => rw [flagWord_inj (Option.some.inj heq)]
    | _ => cases hsort
  | text value =>
    cases b with
    | text other => rw [Text.Quoted.encode_inj.1 (Option.some.inj heq)]
    | _ => cases hsort
  | integer value =>
    cases b with
    | integer other => rw [Int.repr_inj.1 (Option.some.inj heq)]
    | _ => cases hsort
  | float value =>
    cases b with
    | float other =>
      rw [hS (hfa _ (List.mem_singleton.2 rfl)) (hfb _ (List.mem_singleton.2 rfl))
        (Option.some.inj heq)]
    | _ => cases hsort
  | attachment value =>
    cases b with
    | attachment other => rw [Attachment.name_inj (Option.some.inj heq)]
    | _ => cases hsort

/-- A value that is written on one line can be read back from it. -/
theorem OutlineValue.eq_of_rows (hS : S.InjOn Binary64.text) {a b : OutlineValue} {depth : Nat}
    {name shown : String} {rest rest' : List ListingRow} (hsort : a.sort? = b.sort?) (hfa : ∀ x ∈ a.floats, x ∈ S)
    (hfb : ∀ x ∈ b.floats, x ∈ S) (hshown : a.written? = some shown)
    (h : a.rows depth name ++ rest = b.rows depth name ++ rest') : a = b ∧ rest = rest' := by
  obtain ⟨shown', hshown'⟩ : ∃ shown', b.written? = some shown' := by
    cases a with
    | absent | node _ | nodes _ | texts _ => cases hshown
    | _ => cases b <;> first | exact ⟨_, rfl⟩ | cases hsort
  rw [rows_of_written? hshown, rows_of_written? hshown'] at h
  simp only [List.cons_append, List.nil_append, List.cons.injEq, ListingRow.mk.injEq, true_and,
    String.toList_append, List.append_cancel_left_eq] at h
  obtain ⟨hdetail, hrest⟩ := h
  rw [← String.toList_injective hdetail] at hshown'
  exact ⟨eq_of_written? hS hsort hfa hfb hshown hshown', hrest⟩

mutual

/-- The rows of a node, with what follows them, say what the node is and what follows it. -/
theorem Outline.forget_eq_of_rows (hS : S.InjOn Binary64.text) (a b : Outline) {depth : Nat}
    {rest rest' : List ListingRow}
    (ha : a.Shaped) (hb : b.Shaped) (hfa : ∀ x ∈ a.floats, x ∈ S) (hfb : ∀ x ∈ b.floats, x ∈ S)
    (hr : Stops depth rest) (hr' : Stops depth rest')
    (h : a.rows depth ++ rest = b.rows depth ++ rest') :
    a.relocate .forget = b.relocate .forget ∧ rest = rest' := by
  match a, b with
  | { kind := kind, fields := fields, span := span },
    { kind := kind', fields := fields', span := span' } =>
    simp only [Outline.rows_mk, List.cons_append, List.cons.injEq, ListingRow.mk.injEq, true_and,
      and_true] at h
    obtain ⟨rfl, h⟩ := h
    obtain ⟨shapes, hlookup, hfields⟩ := Outline.shaped_mk.1 ha
    obtain ⟨shapes', hlookup', hfields'⟩ := Outline.shaped_mk.1 hb
    obtain rfl := Option.some.inj (hlookup.symm.trans hlookup')
    obtain ⟨heq, hrest⟩ := forget_eq_of_fieldRows hS fields fields' (nodeShapes_names hlookup).2.2
      hfields hfields' hfa hfb hr hr' h
    exact ⟨by simp [heq, Span.relocate_forget span span'], hrest⟩
termination_by structural a

/-- Field by field. -/
theorem forget_eq_of_fieldRows (hS : S.InjOn Binary64.text) (a b : List OutlineField) {depth : Nat}
    {shapes : List FieldShape} {rest rest' : List ListingRow} (hnodup : (shapes.map FieldShape.name).Nodup)
    (ha : FieldsShaped shapes a) (hb : FieldsShaped shapes b) (hfa : ∀ x ∈ fieldFloats a, x ∈ S)
    (hfb : ∀ x ∈ fieldFloats b, x ∈ S) (hr : Stops depth rest) (hr' : Stops depth rest')
    (h : fieldRows depth a ++ rest = fieldRows depth b ++ rest') :
    relocateFields .forget a = relocateFields .forget b ∧ rest = rest' := by
  match a, b, shapes with
  | [], [], _ => exact ⟨rfl, h⟩
  | [], _ :: _, [] => simp at hb
  | [], _ :: _, _ :: _ => simp at ha
  | _ :: _, [], [] => simp at ha
  | _ :: _, [], _ :: _ => simp at hb
  | _ :: _, _ :: _, [] => simp at ha
  | field :: more, field' :: more', shape :: shapes =>
    rw [fieldFloats, List.forall_mem_append] at hfa hfb
    obtain ⟨name, value⟩ := field
    obtain ⟨name', value'⟩ := field'
    obtain ⟨⟨rfl, hvalue⟩, hmore⟩ := ha
    obtain ⟨⟨rfl, hvalue'⟩, hmore'⟩ := hb
    simp only [fieldRows_cons, List.append_assoc] at h
    obtain ⟨heq, h⟩ := value.forget_eq_of_rows hS value' hvalue hvalue' hfa.1 hfb.1
      (follows_fieldRows hnodup hmore hr) (follows_fieldRows hnodup hmore' hr') h
    obtain ⟨heqs, hrest⟩ := forget_eq_of_fieldRows hS more more' (List.nodup_cons.1 hnodup).2
      hmore hmore' hfa.2 hfb.2 hr hr' h
    exact ⟨by simp [heq, heqs], hrest⟩
termination_by structural a

/-- A value, with what can follow its field. -/
theorem OutlineValue.forget_eq_of_rows (hS : S.InjOn Binary64.text) (a b : OutlineValue)
    {depth : Nat} {shape : FieldShape} {rest rest' : List ListingRow} (ha : a.Shaped shape) (hb : b.Shaped shape)
    (hfa : ∀ x ∈ a.floats, x ∈ S) (hfb : ∀ x ∈ b.floats, x ∈ S)
    (hr : Follows depth shape.name rest) (hr' : Follows depth shape.name rest')
    (h : a.rows depth shape.name ++ rest = b.rows depth shape.name ++ rest') :
    a.relocate .forget = b.relocate .forget ∧ rest = rest' := by
  have hsort := OutlineValue.sort?_eq_of_rows ha hb hr hr' h
  match a with
  | .absent =>
    cases b with
    | absent => exact ⟨rfl, h⟩
    | _ => cases hsort
  | .flag _ | .text _ | .integer _ | .float _ | .attachment _ =>
    obtain ⟨rfl, hrest⟩ := OutlineValue.eq_of_rows hS hsort hfa hfb rfl h
    exact ⟨rfl, hrest⟩
  | .node node =>
    cases b with
    | node other =>
      simp only [OutlineValue.rows_node, List.cons_append, List.cons.injEq, true_and] at h
      obtain ⟨heq, hrest⟩ := node.forget_eq_of_rows hS other ha.2 hb.2 hfa hfb hr.stops.succ
        hr'.stops.succ h
      exact ⟨by simp [heq], hrest⟩
    | _ => cases hsort
  | .nodes nodes =>
    cases b with
    | nodes others =>
      cases nodes with
      | nil =>
        cases others with
        | nil => exact ⟨rfl, (List.cons.inj h).2⟩
        | cons _ _ => simp at h
      | cons node more =>
        cases others with
        | nil => simp at h
        | cons other more' =>
          simp only [OutlineValue.rows_nodes_cons, List.cons_append, List.cons.injEq, true_and] at h
          obtain ⟨heq, hrest⟩ := forget_eq_of_nodeRows hS (node :: more) (other :: more') ha.2 hb.2
            hfa hfb hr.stops hr'.stops h
          exact ⟨by simpa using heq, hrest⟩
    | _ => cases hsort
  | .texts texts =>
    cases b with
    | texts others =>
      cases texts with
      | nil =>
        cases others with
        | nil => exact ⟨rfl, (List.cons.inj h).2⟩
        | cons _ _ => simp at h
      | cons text more =>
        cases others with
        | nil => simp at h
        | cons other more' =>
          simp only [OutlineValue.rows_texts_cons, List.cons_append, List.cons.injEq, true_and] at h
          obtain ⟨heq, hrest⟩ := texts_eq_of_rows hr.stops hr'.stops h
          exact ⟨by rw [heq], hrest⟩
    | _ => cases hsort
termination_by structural a

/-- Node by node. The list ends where a row stands less deep than its nodes. -/
theorem forget_eq_of_nodeRows (hS : S.InjOn Binary64.text) (a b : List Outline) {depth : Nat}
    {rest rest' : List ListingRow}
    (ha : NodesShaped a) (hb : NodesShaped b) (hfa : ∀ x ∈ nodeFloats a, x ∈ S)
    (hfb : ∀ x ∈ nodeFloats b, x ∈ S) (hr : Stops depth rest) (hr' : Stops depth rest')
    (h : nodeRows (depth + 1) a ++ rest = nodeRows (depth + 1) b ++ rest') :
    relocateNodes .forget a = relocateNodes .forget b ∧ rest = rest' := by
  match a, b with
  | [], [] => exact ⟨rfl, h⟩
  | [], ⟨_, _, _⟩ :: _ =>
    rw [nodeRows_nil, List.nil_append, nodeRows_cons, Outline.rows_mk] at h
    exact absurd h hr.ne_cons
  | ⟨_, _, _⟩ :: _, [] =>
    rw [nodeRows_nil, List.nil_append, nodeRows_cons, Outline.rows_mk] at h
    exact absurd h.symm hr'.ne_cons
  | node :: more, other :: more' =>
    rw [nodeFloats, List.forall_mem_append] at hfa hfb
    simp only [nodeRows_cons, List.append_assoc] at h
    obtain ⟨heq, h⟩ := node.forget_eq_of_rows hS other ha.1 hb.1 hfa.1 hfb.1
      (stops_nodeRows hr more) (stops_nodeRows hr' more') h
    obtain ⟨heqs, hrest⟩ := forget_eq_of_nodeRows hS more more' ha.2 hb.2 hfa.2 hfb.2 hr hr' h
    exact ⟨by simp [heq, heqs], hrest⟩
termination_by structural a

end

end

end SableFrontend
