import SableFrontend.Proofs.Number.NumberText
import SableFrontend.Tree.Outline

/-!
Rows of listings: how deep a line stands, the name that it begins with, and what follows the name. A
listing can be divided into its rows again, because names hold neither blanks nor colons and nothing
that follows a name holds a line break.
-/

namespace SableFrontend

/-! ### Dividing texts -/

namespace Text

/-- Two texts that go on with other characters than they hold are the same if what is joined is. -/
theorem append_inj_of_stops {isMember : Char → Bool} {front front' rest rest' : List Char}
    (h : front.all isMember = true) (h' : front'.all isMember = true)
    (hstops : rest.head?.any isMember = false) (hstops' : rest'.head?.any isMember = false)
    (heq : front ++ rest = front' ++ rest') : front = front' ∧ rest = rest' := by
  induction front generalizing front' with
  | nil =>
    cases front' with
    | nil => exact ⟨rfl, heq⟩
    | cons c more =>
      rw [List.nil_append] at heq
      rw [List.all_cons, Bool.and_eq_true] at h'
      rw [heq, List.cons_append, List.head?_cons, Option.any_some, h'.1] at hstops
      cases hstops
  | cons c more ih =>
    rw [List.all_cons, Bool.and_eq_true] at h
    cases front' with
    | nil =>
      rw [List.nil_append] at heq
      rw [← heq, List.cons_append, List.head?_cons, Option.any_some, h.1] at hstops'
      cases hstops'
    | cons d more' =>
      rw [List.all_cons, Bool.and_eq_true] at h'
      obtain ⟨rfl, hmore⟩ := List.cons.inj heq
      obtain ⟨rfl, hrest⟩ := ih h.2 h'.2 hmore
      exact ⟨rfl, hrest⟩

/-- A character that the names of kinds and fields may hold. -/
def isLabelChar (c : Char) : Bool := isAsciiUpper c || isAsciiLower c || c == '_'

/-- A name of a kind or of a field. -/
def isLabel (label : String) : Bool := label != "" && label.toList.all isLabelChar

/-- Names are seen and end in front of what is no part of them. -/
theorem isPrintable_of_isLabelChar {c : Char} (h : isLabelChar c = true) : isPrintable c = true := by
  have hcode : c.toNat < 128 ∧ 32 ≤ c.toNat ∧ c.toNat ≤ 126 := by
    simp only [isLabelChar, isAsciiUpper, isAsciiLower, Bool.or_eq_true, Bool.and_eq_true,
      decide_eq_true_eq, beq_iff_eq] at h
    rcases h with (⟨hlow, hhigh⟩ | ⟨hlow, hhigh⟩) | rfl
    · have hlow : 65 ≤ c.toNat := hlow
      have hhigh : c.toNat ≤ 90 := hhigh
      omega
    · have hlow : 97 ≤ c.toNat := hlow
      have hhigh : c.toNat ≤ 122 := hhigh
      omega
    · decide
  have hlow : ' ' ≤ c := hcode.2.1
  have hhigh : c ≤ '~' := hcode.2.2
  simp [isPrintable, isAscii, hcode.1, hlow, hhigh]

theorem exists_cons_of_isLabel {label : String} (h : isLabel label = true) :
    ∃ c more, label.toList = c :: more ∧ isLabelChar c = true := by
  simp only [isLabel, Bool.and_eq_true, bne_iff_ne] at h
  cases hchars : label.toList with
  | nil => exact absurd (String.toList_injective hchars) h.1
  | cons c more =>
    rw [hchars, List.all_cons, Bool.and_eq_true] at h
    exact ⟨c, more, rfl, h.2.1⟩

end Text

/-! ### Rows -/

/-- A line of a listing as it can be read back. -/
structure ListingRow where
  depth : Nat
  label : String
  detail : List Char
  deriving DecidableEq

namespace ListingRow

/-- The characters of a row. -/
def chars (row : ListingRow) : List Char :=
  List.replicate (2 * row.depth) ' ' ++ (row.label.toList ++ row.detail)

/-- A row that is one line and whose name can be told from the rest. -/
structure Legible (row : ListingRow) : Prop where
  label : Text.isLabel row.label = true
  colon : row.detail.head?.all (· == ':') = true
  printable : row.detail.all Text.isPrintable = true

variable {row row' : ListingRow} {rows rows' : List ListingRow}

theorem Legible.isPrintable_of_mem (h : row.Legible) {c : Char} (hmem : c ∈ row.chars) :
    Text.isPrintable c = true := by
  simp only [chars, List.mem_append] at hmem
  rcases hmem with hblank | hlabel | hdetail
  · rw [List.eq_of_mem_replicate hblank]
    rfl
  · have hlabels := h.label
    simp only [Text.isLabel, Bool.and_eq_true] at hlabels
    exact Text.isPrintable_of_isLabelChar (List.all_eq_true.1 hlabels.2 c hlabel)
  · exact List.all_eq_true.1 h.printable c hdetail

/-- The characters of a row say what the row is. -/
theorem Legible.chars_inj (h : row.Legible) (h' : row'.Legible) (heq : row.chars = row'.chars) :
    row = row' := by
  have hblanks : ∀ row : ListingRow, row.Legible →
      (List.replicate (2 * row.depth) ' ').all (· == ' ') = true ∧
      (row.label.toList ++ row.detail).head?.any (· == ' ') = false := by
    intro row h
    obtain ⟨c, more, hchars, hc⟩ := Text.exists_cons_of_isLabel h.label
    refine ⟨by simp, ?_⟩
    rw [hchars, List.cons_append, List.head?_cons, Option.any_some]
    refine beq_eq_false_iff_ne.2 ?_
    rintro rfl
    cases hc
  have hlabels : ∀ row : ListingRow, row.Legible →
      row.label.toList.all Text.isLabelChar = true ∧
      row.detail.head?.any Text.isLabelChar = false := by
    intro row h
    have hlabel := h.label
    have hcolon := h.colon
    simp only [Text.isLabel, Bool.and_eq_true] at hlabel
    refine ⟨hlabel.2, ?_⟩
    cases hhead : row.detail.head? with
    | none => rfl
    | some c =>
      rw [hhead, Option.all_some, beq_iff_eq] at hcolon
      rw [hcolon]
      rfl
  obtain ⟨hdepth, hbody⟩ := Text.append_inj_of_stops (hblanks row h).1 (hblanks row' h').1
    (hblanks row h).2 (hblanks row' h').2 heq
  obtain ⟨hlabel, hdetail⟩ := Text.append_inj_of_stops (hlabels row h).1 (hlabels row' h').1
    (hlabels row h).2 (hlabels row' h').2 hbody
  have hdepth := congrArg List.length hdepth
  rw [List.length_replicate, List.length_replicate] at hdepth
  cases row
  cases row'
  simp only [mk.injEq]
  exact ⟨Nat.eq_of_mul_eq_mul_left (by decide) hdepth, String.toList_injective hlabel, hdetail⟩

/-- The characters of rows, each with a line break behind it. -/
def joined (rows : List ListingRow) : List Char := rows.flatMap fun row => row.chars ++ ['\n']

/-- Joined rows can be divided again. -/
theorem joined_inj (h : ∀ row ∈ rows, row.Legible) (h' : ∀ row ∈ rows', row.Legible)
    (heq : joined rows = joined rows') : rows = rows' := by
  have hline : ∀ row : ListingRow, row.Legible → row.chars.all (· != '\n') = true := by
    intro row h
    refine List.all_eq_true.2 fun c hmem => bne_iff_ne.2 ?_
    rintro rfl
    cases h.isPrintable_of_mem hmem
  induction rows generalizing rows' with
  | nil =>
    cases rows' with
    | nil => rfl
    | cons row' others => simp [joined] at heq
  | cons row rest ih =>
    cases rows' with
    | nil => simp [joined] at heq
    | cons row' others =>
      obtain ⟨hrow, hrest⟩ := List.forall_mem_cons.1 h
      obtain ⟨hrow', hothers⟩ := List.forall_mem_cons.1 h'
      simp only [joined, List.flatMap_cons, List.append_assoc, List.singleton_append] at heq
      obtain ⟨hchars, hmore⟩ :=
        Text.append_inj_of_stops (hline row hrow) (hline row' hrow') rfl rfl heq
      rw [hrow.chars_inj hrow' hchars, ih hrest hothers (List.cons.inj hmore).2]

end ListingRow

/-! ### Lines as rows -/

namespace ListingContent

/-- The name that a line begins with. -/
def label : ListingContent → String
  | kind name | heading name | emptyList name | flag name _ | text name _ | integer name _
  | float name _ | attachment name _ => name
  | item _ => "str"

/-- What a line says behind its name. -/
def detail : ListingContent → String
  | kind _ => ""
  | heading _ => ":"
  | emptyList _ => ": []"
  | flag _ value => ": " ++ flagWord value
  | text _ value | item value => ": " ++ Text.Quoted.encode value
  | integer _ value => ": " ++ toString value
  | float _ value => ": " ++ value.text
  | attachment _ value => ": " ++ value.name

theorem spelled_eq (content : ListingContent) : content.spelled = content.label ++ content.detail := by
  cases content with
  | item value =>
    rw [spelled, label, detail, ← String.append_assoc]
    rfl
  | _ => simp [spelled, label, detail, String.append_assoc]

end ListingContent

theorem ListingContent.isVisible_detail (content : ListingContent) :
    Text.isVisible content.detail = true := by
  have hcolon : Text.isVisible ": " = true := rfl
  have hword : ∀ value, Text.isVisible (flagWord value) = true := by
    rintro (_ | _) <;> rfl
  have hattachment : ∀ value : Attachment, Text.isVisible value.name = true := by
    rintro (_ | _) <;> rfl
  cases content with
  | kind _ | heading _ | emptyList _ =>
    rw [detail]
    rfl
  | float _ value => simp [detail, hcolon, value.isVisible_text]
  | flag _ _ | attachment _ _ | text _ _ | item _ | integer _ _ =>
    simp [detail, hcolon, hword, hattachment]

theorem ListingContent.head?_detail (content : ListingContent) :
    content.detail.toList.head?.all (· == ':') = true := by
  cases content <;> simp [detail]

/-- A line as a row. -/
def ListingLine.row (line : ListingLine) : ListingRow :=
  ⟨line.depth, line.content.label, line.content.detail.toList⟩

theorem ListingLine.toList_spelled (line : ListingLine) : line.spelled.toList = line.row.chars := by
  simp [spelled, ListingContent.spelled_eq, row, ListingRow.chars]

theorem ListingLine.legible_row {line : ListingLine} (h : Text.isLabel line.content.label = true) :
    line.row.Legible :=
  ⟨h, line.content.head?_detail, line.content.isVisible_detail⟩

end SableFrontend
