import SableFrontend.Proofs.Token.Nesting
import SableFrontend.Proofs.Tree.Children

/-!
Where the nodes of a tree stand among the tokens. A node extends over tokens: from the start of one
to the end of another, which is no line break. Its children extend over parts of the same tokens
(`TokenStream.Sits`). Extents are counted in tokens, not in characters, because parsers move by
tokens: what is read between two positions sits between them, whatever its exact ends are.

A list of trees that follow one another, none starting or ending before the one in front of it, is a
`Row`. The clauses of a definition come from neighbours in a row, so a definition that they are
merged into sits where they sat.
-/

namespace SableFrontend

namespace TokenStream

variable (stream : TokenStream)

/-- From the start of one token to the end of another. -/
def reach (first last : Nat) : Span := (stream.token first).span.join (stream.token last).span

/-- A span extends over the tokens from `first` to `last`, and the last one is no line break. -/
structure Spans (span : Span) (first last : Nat) : Prop where
  le : first ≤ last
  lt : last + 1 < stream.size
  kind_ne : stream.kind last ≠ .newline
  eq : span = stream.reach first last

/-- A tree sits between two positions: its root extends over tokens between them, the children sit
within the extent of the root, and each node is well made as long as `quiet` holds. -/
inductive Sits (quiet : Prop) : Nat → Nat → Outline → Prop
  | intro {low high first last : Nat} {tree : Outline} (hlow : low ≤ first) (hhigh : last < high)
      (hspan : stream.Spans tree.span first last) (hmade : quiet → tree.WellMade)
      (hchildren : ∀ child ∈ tree.children, Sits quiet first (last + 1) child) :
      Sits quiet low high tree

/-- A tree whose root extends over the tokens from `first` to `last`. -/
structure SitsAt (quiet : Prop) (first last : Nat) (tree : Outline) : Prop where
  spans : stream.Spans tree.span first last
  made : quiet → tree.WellMade
  children : ∀ child ∈ tree.children, stream.Sits quiet first (last + 1) child

/-- Trees that follow one another: none starts before `first` or ends before `last`, and none starts
or ends before the one in front of it. -/
def Row (quiet : Prop) : Nat → Nat → List Outline → Nat → Prop
  | _, _, [], _ => True
  | first, last, tree :: rest, high => ∃ first' last', first ≤ first' ∧ last ≤ last' ∧
      last' < high ∧ stream.SitsAt quiet first' last' tree ∧ Row quiet first' last' rest high

/-- A place that may be shown to people: a token, or an extent. -/
def Marks (span : Span) : Prop :=
  (∃ position, position < stream.size ∧ span = (stream.token position).span) ∨
    ∃ first last, stream.Spans span first last

variable {stream} {quiet quiet' : Prop} {low high low' high' first last : Nat}
  {tree other : Outline} {trees rest : List Outline}

namespace Spans

variable {span span' : Span} {first' last' : Nat}

theorem token (hlt : last + 1 < stream.size) (hkind : stream.kind last ≠ .newline) :
    stream.Spans (stream.token last).span last last :=
  ⟨Nat.le_refl _, hlt, hkind, rfl⟩

/-- From the start of one extent to the end of another. -/
theorem join (h : stream.Spans span first last) (h' : stream.Spans span' first' last')
    (hle : first ≤ last') : stream.Spans (span.join span') first last' where
  le := hle
  lt := h'.lt
  kind_ne := h'.kind_ne
  eq := by
    rw [h.eq, h'.eq]
    rfl

end Spans

namespace Sits

theorem exists_at (h : stream.Sits quiet low high tree) :
    ∃ first last, low ≤ first ∧ last < high ∧ stream.SitsAt quiet first last tree := by
  cases h with
  | intro hlow hhigh hspan hmade hchildren => exact ⟨_, _, hlow, hhigh, hspan, hmade, hchildren⟩

/-- A wider place will do, and so will what is known under a weaker condition. -/
theorem mono (h : stream.Sits quiet low high tree) (hlow : low' ≤ low) (hhigh : high ≤ high')
    (hquiet : quiet' → quiet) : stream.Sits quiet' low' high' tree := by
  induction h generalizing low' high' with
  | intro hfirst hlast hspan hmade _ ih =>
    exact .intro (Nat.le_trans hlow hfirst) (Nat.lt_of_lt_of_le hlast hhigh) hspan
      (fun h => hmade (hquiet h)) fun child hmem =>
        ih child hmem (Nat.le_refl _) (Nat.le_refl _)

theorem marks (h : stream.Sits quiet low high tree) : stream.Marks tree.span := by
  obtain ⟨first, last, -, -, hat⟩ := h.exists_at
  exact Or.inr ⟨first, last, hat.spans⟩

end Sits

namespace SitsAt

theorem sits (h : stream.SitsAt quiet first last tree) (hlow : low ≤ first) (hhigh : last < high) :
    stream.Sits quiet low high tree :=
  .intro hlow hhigh h.spans h.made h.children

theorem mono (h : stream.SitsAt quiet first last tree) (hquiet : quiet' → quiet) :
    stream.SitsAt quiet' first last tree where
  spans := h.spans
  made hq := h.made (hquiet hq)
  children child hmem := (h.children child hmem).mono (Nat.le_refl _) (Nat.le_refl _) hquiet

/-- A node of another kind may be made of the same parts. -/
theorem remake (h : stream.SitsAt quiet first last tree) (hspan : other.span = tree.span)
    (hmade : quiet → other.WellMade) (hchildren : other.children ⊆ tree.children) :
    stream.SitsAt quiet first last other where
  spans := hspan ▸ h.spans
  made := hmade
  children child hmem := h.children child (hchildren hmem)

/-- A node may be put around a tree, at the same place. -/
theorem wrap (h : stream.SitsAt quiet first last tree) (hspan : other.span = tree.span)
    (hmade : quiet → other.WellMade) (hchildren : other.children ⊆ [tree]) :
    stream.SitsAt quiet first last other where
  spans := hspan ▸ h.spans
  made := hmade
  children child hmem := by
    rw [List.mem_singleton.1 (hchildren hmem)]
    exact h.sits (Nat.le_refl _) (Nat.lt_succ_self _)

end SitsAt

namespace Sits

theorem remake (h : stream.Sits quiet low high tree) (hspan : other.span = tree.span)
    (hmade : quiet → other.WellMade) (hchildren : other.children ⊆ tree.children) :
    stream.Sits quiet low high other := by
  obtain ⟨first, last, hlow, hhigh, hat⟩ := h.exists_at
  exact (hat.remake hspan hmade hchildren).sits hlow hhigh

theorem wrap (h : stream.Sits quiet low high tree) (hspan : other.span = tree.span)
    (hmade : quiet → other.WellMade) (hchildren : other.children ⊆ [tree]) :
    stream.Sits quiet low high other := by
  obtain ⟨first, last, hlow, hhigh, hat⟩ := h.exists_at
  exact (hat.wrap hspan hmade hchildren).sits hlow hhigh

/-- What is below a tree sits where the tree sits. -/
theorem child (h : stream.Sits quiet low high tree) {child : Outline}
    (hmem : child ∈ tree.children) : stream.Sits quiet low high child := by
  obtain ⟨first, last, hlow, hhigh, hat⟩ := h.exists_at
  exact (hat.children child hmem).mono hlow (Nat.succ_le_of_lt hhigh) id

end Sits

/-- A tree is a row. -/
theorem SitsAt.row (h : stream.SitsAt quiet first last tree) (hhigh : last < high) :
    stream.Row quiet first first [tree] high :=
  ⟨first, last, Nat.le_refl _, h.spans.le, hhigh, h, trivial⟩

theorem Sits.row (h : stream.Sits quiet low high tree) : stream.Row quiet low low [tree] high := by
  obtain ⟨first, last, hlow, hhigh, hat⟩ := h.exists_at
  exact ⟨first, last, hlow, Nat.le_trans hlow hat.spans.le, hhigh, hat, trivial⟩

namespace Row

theorem sits (h : stream.Row quiet first last trees high) (hlow : low ≤ first) :
    ∀ tree ∈ trees, stream.Sits quiet low high tree := by
  induction trees generalizing first last with
  | nil => exact fun _ hmem => absurd hmem List.not_mem_nil
  | cons head rest ih =>
    obtain ⟨first', last', hfirst, -, hhigh, hat, hrest⟩ := h
    have hlow' := Nat.le_trans hlow hfirst
    intro tree hmem
    rcases List.mem_cons.1 hmem with rfl | hmem
    · exact hat.sits hlow' hhigh
    · exact ih hrest hlow' tree hmem

theorem mono (h : stream.Row quiet first last trees high) {first' last' : Nat}
    (hfirst : first' ≤ first) (hlast : last' ≤ last) (hhigh : high ≤ high')
    (hquiet : quiet' → quiet) : stream.Row quiet' first' last' trees high' := by
  induction trees generalizing first last first' last' with
  | nil => trivial
  | cons head rest ih =>
    obtain ⟨a, b, ha, hb, hlt, hat, hrest⟩ := h
    exact ⟨a, b, Nat.le_trans hfirst ha, Nat.le_trans hlast hb, Nat.lt_of_lt_of_le hlt hhigh,
      hat.mono hquiet, ih hrest (Nat.le_refl _) (Nat.le_refl _)⟩

/-- A row behind a row is one row. -/
theorem append {middle : Nat} (h : stream.Row quiet first last trees middle)
    (h' : stream.Row quiet middle middle rest high) (hfirst : first ≤ middle)
    (hlast : last ≤ middle) (hle : middle ≤ high) :
    stream.Row quiet first last (trees ++ rest) high := by
  induction trees generalizing first last with
  | nil => exact h'.mono hfirst hlast (Nat.le_refl _) id
  | cons head rest ih =>
    obtain ⟨a, b, ha, hb, hlt, hat, hrest⟩ := h
    have hab := hat.spans.le
    exact ⟨a, b, ha, hb, Nat.lt_of_lt_of_le hlt hle, hat,
      ih hrest (Nat.le_of_lt (Nat.lt_of_le_of_lt hab hlt)) (Nat.le_of_lt hlt)⟩

/-- A part of a row is a row. -/
theorem sublist {part : List Outline} (h : stream.Row quiet first last trees high)
    (hsublist : part.Sublist trees) : stream.Row quiet first last part high := by
  induction hsublist generalizing first last with
  | slnil => trivial
  | cons head _ ih =>
    obtain ⟨a, b, ha, hb, -, -, hrest⟩ := h
    exact (ih hrest).mono ha hb (Nat.le_refl _) id
  | cons_cons head _ ih =>
    obtain ⟨a, b, ha, hb, hlt, hat, hrest⟩ := h
    exact ⟨a, b, ha, hb, hlt, hat, ih hrest⟩

end Row

end TokenStream

end SableFrontend
