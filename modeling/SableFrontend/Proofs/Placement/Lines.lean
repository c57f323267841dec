import SableFrontend.Proofs.Placement.Loops

/-!
Statements that leave no token out. Behind each other, with nothing but separators around them, they
make up everything between two positions (`TokenStream.Lined`). Their extents are apart, with one
exception: an annotation on the line of its definition shares its tokens with the definition, which
is the statement after it. Merging the clauses of a definition and matching annotations without a
report keep statements lined up.
-/

namespace SableFrontend

namespace Declaration

/-- An annotation on the line of its definition. -/
def isSameLine : Declaration → Bool
  | ascription a => a.attachment == .sameLine
  | _ => false

/-- A definition of a term. -/
def isDefinition : Declaration → Bool
  | definition _ => true
  | _ => false

end Declaration

namespace Statement

/-- The place of a statement. -/
def span : Statement → Span
  | .item plain => plain.span
  | .pending _ span => span

/-- An annotation on the line of its definition. -/
def isSameLine : Statement → Bool
  | item (.declaration d) => d.isSameLine
  | _ => false

theorem span_of_definition? {statement : Statement} {definition : TermDef}
    (h : statement.definition? = some definition) : statement.span = definition.span := by
  unfold definition? at h
  split at h
  · cases h
    rfl
  · cases h

theorem definition?_eq_none (statement : Statement) (h : statement.isSameLine = true) :
    statement.definition? = none := by
  unfold definition?
  split
  · cases h
  · rfl

/-- In silence, a statement becomes an item at its place, and the same kind of item. -/
theorem settle_keeps {statement : Statement} {target : Option String} {item : Item}
    (h : statement.settle target = (some item, none)) :
    item.span = statement.span ∧ (statement.isSameLine = true → (Statement.item item).isSameLine) ∧
      (statement.definition?.isSome = true → (Statement.item item).definition?.isSome) := by
  cases statement with
  | pending typeExpr span =>
    cases target with
    | none => cases h
    | some name =>
      cases h
      exact ⟨rfl, nofun, nofun⟩
  | item plain =>
    -- an item that is kept is kept as it is
    have hsame : item = plain := by
      cases plain with
      | declaration declaration =>
        cases declaration with
        | ascription ascription =>
          obtain ⟨name, typeExpr, attachment, place⟩ := ascription
          have hkept := congrArg Prod.fst h
          cases attachment <;> cases target <;> first | exact (Option.some.inj hkept).symm | cases hkept
        | _ => cases h; rfl
      | _ => cases h; rfl
    subst hsame
    exact ⟨rfl, id, id⟩

end Statement

namespace TokenStream

variable (stream : TokenStream)

/-- Statements and the separators around them make up everything between two positions. The first
one ends at least where `least` says. -/
inductive Lined : Nat → Nat → List Statement → Nat → Prop
  | none {low least high : Nat} (hle : low ≤ high) (hgap : stream.Apart false low high) :
      Lined low least [] high
  | next {low least first last high : Nat} {statement : Statement} {rest : List Statement}
      (hle : low ≤ first) (hgap : stream.Apart false low first) (hleast : least ≤ last)
      (hspan : stream.Spans statement.span first last) (hrest : Lined (last + 1) (last + 1) rest high) :
      Lined low least (statement :: rest) high
  | line {low least first last high : Nat} {statement following : Statement}
      {rest : List Statement}
      (hle : low ≤ first) (hgap : stream.Apart false low first) (hleast : least ≤ last)
      (hspan : stream.Spans statement.span first last) (hsameLine : statement.isSameLine = true)
      (hdefinition : following.definition?.isSome = true)
      (hrest : Lined first last (following :: rest) high) :
      Lined low least (statement :: following :: rest) high

variable {stream} {low least middle high : Nat} {statements rest : List Statement}

namespace Lined

theorem le (h : stream.Lined low least statements high) : low ≤ high := by
  induction h with
  | none hle => exact hle
  | next hle _ _ hspan _ ih =>
    have hlast := hspan.le
    omega
  | line hle _ _ _ _ _ _ ih => exact Nat.le_trans hle ih

/-- Separators may stand in front. -/
theorem behind {start : Nat} (h : stream.Lined low least statements high) (hle : start ≤ low)
    (hgap : stream.Apart false start low) : stream.Lined start least statements high := by
  cases h with
  | none hle' hgap' => exact .none (Nat.le_trans hle hle') (hgap.trans hgap')
  | next hle' hgap' hleast hspan hrest =>
    exact .next (Nat.le_trans hle hle') (hgap.trans hgap') hleast hspan hrest
  | line hle' hgap' hleast hspan hsameLine hdefinition hrest =>
    exact .line (Nat.le_trans hle hle') (hgap.trans hgap') hleast hspan hsameLine hdefinition hrest

theorem weaken {least' : Nat} (h : stream.Lined low least statements high) (hle : least' ≤ least) :
    stream.Lined low least' statements high := by
  cases h with
  | none hle' hgap' => exact .none hle' hgap'
  | next hle' hgap' hleast hspan hrest =>
    exact .next hle' hgap' (Nat.le_trans hle hleast) hspan hrest
  | line hle' hgap' hleast hspan hsameLine hdefinition hrest =>
    exact .line hle' hgap' (Nat.le_trans hle hleast) hspan hsameLine hdefinition hrest

theorem least_lt {statement : Statement} (h : stream.Lined low least (statement :: rest) high) :
    least < high := by
  generalize hall : statement :: rest = all at h
  induction h generalizing statement rest with
  | none => cases hall
  | next _ _ hleast _ hrest => exact Nat.lt_of_le_of_lt hleast hrest.le
  | line _ _ hleast _ _ _ _ ih => exact Nat.lt_of_le_of_lt hleast (ih rfl)

/-- Statements behind statements are lined up. -/
theorem append (h : stream.Lined low least statements middle)
    (h' : stream.Lined middle middle rest high) (hmiddle : least ≤ middle) :
    stream.Lined low least (statements ++ rest) high := by
  induction h with
  | none hle hgap => exact (h'.behind hle hgap).weaken hmiddle
  | next hle hgap hleast hspan hrest ih => exact .next hle hgap hleast hspan (ih h' hrest.le)
  | line hle hgap hleast hspan hsameLine hdefinition hrest ih =>
    exact .line hle hgap hleast hspan hsameLine hdefinition (ih h' (Nat.le_of_lt hrest.least_lt))

/-- A definition shares no token with what is behind it. -/
theorem of_definition {statement : Statement}
    (h : stream.Lined low least (statement :: statements) high)
    (hdefinition : statement.definition?.isSome = true) :
    ∃ first last, low ≤ first ∧ stream.Apart false low first ∧ least ≤ last ∧
      stream.Spans statement.span first last ∧
      stream.Lined (last + 1) (last + 1) statements high := by
  cases h with
  | next hle hgap hleast hspan hrest => exact ⟨_, _, hle, hgap, hleast, hspan, hrest⟩
  | line _ _ _ _ hsameLine =>
    rw [Statement.definition?_eq_none statement hsameLine] at hdefinition
    cases hdefinition

/-- Merged statements are lined up if the statements are. -/
theorem mergeInto {statement : Statement}
    (h : stream.Lined low least (statement :: statements) high) :
    stream.Lined low least
      (mergeInto Statement.definition? Statement.ofDefinition statement statements) high := by
  induction statements generalizing statement low least with
  | nil => exact h
  | cons following rest ih =>
    rw [SableFrontend.mergeInto]
    split
    · next both hmerged =>
      unfold merged? at hmerged
      split at hmerged
      · next one other hone hother =>
        split at hmerged
        · obtain rfl := Option.some.inj hmerged
          obtain ⟨first, last, hle, hgap, hleast, hspan, hrest⟩ := h.of_definition (by rw [hone]; rfl)
          obtain ⟨first', last', hle', -, hleast', hspan', hrest'⟩ :=
            hrest.of_definition (by rw [hother]; rfl)
          have hfirst := hspan.le
          have hboth := hspan.join hspan' (by omega)
          rw [Statement.span_of_definition? hone, Statement.span_of_definition? hother] at hboth
          exact ih (.next hle hgap (by omega) hboth hrest')
        · cases hmerged
      · cases hmerged
    · cases h with
      | next hle hgap hleast hspan hrest => exact .next hle hgap hleast hspan (ih hrest)
      | line hle hgap hleast hspan hsameLine hdefinition hrest =>
        have hmerged := ih hrest
        have hof : ∀ d, (Statement.ofDefinition d).definition? = some d := fun _ => rfl
        obtain ⟨head, tail, heq, hname⟩ := exists_mergeInto hof following rest
        rw [heq] at hmerged ⊢
        -- what was merged has the name of the definition that came first, so it is one
        refine .line hle hgap hleast hspan hsameLine ?_ hmerged
        rw [← Option.isSome_map, ← definedName?, hname, definedName?, Option.isSome_map]
        exact hdefinition

/-- In silence, annotations that are matched stay where they are. -/
theorem settleAll (h : stream.Lined low least statements high)
    (hquiet : (Statement.settleAll statements).2 = []) :
    stream.Lined low least ((Statement.settleAll statements).1.map Statement.item) high := by
  induction h with
  | none hle hgap => exact .none hle hgap
  | next hle hgap hleast hspan hrest ih =>
    obtain ⟨item, hsettle, hitems, hrest'⟩ := Statement.exists_of_quiet hquiet
    rw [hitems, List.map_cons]
    refine .next hle hgap hleast ?_ (ih hrest')
    rwa [← (Statement.settle_keeps hsettle).1] at hspan
  | line hle hgap hleast hspan hsameLine hdefinition hrest ih =>
    obtain ⟨item, hsettle, hitems, hrest'⟩ := Statement.exists_of_quiet hquiet
    obtain ⟨following, hsettle', hitems', -⟩ := Statement.exists_of_quiet hrest'
    obtain ⟨hplace, hkind, -⟩ := Statement.settle_keeps hsettle
    have hmore := ih hrest'
    rw [hitems'] at hmore
    rw [hitems, hitems']
    refine .line hle hgap hleast ?_ (hkind hsameLine)
      ((Statement.settle_keeps hsettle').2.2 hdefinition) hmore
    rwa [← hplace] at hspan

/-- What is lined up leaves out separators only. -/
theorem covers (h : stream.Lined low least statements high) {position : Nat} (hlow : low ≤ position)
    (hhigh : position < high) (hkind : (stream.kind position).separates false = false) :
    ∃ statement ∈ statements, ∃ first last, stream.Spans statement.span first last ∧
      first ≤ position ∧ position ≤ last := by
  induction h with
  | none hle hgap =>
    rw [hgap position hlow hhigh] at hkind
    cases hkind
  | @next low _ first last _ statement rest hle hgap _ hspan hrest ih =>
    by_cases hfirst : position < first
    · rw [hgap position hlow hfirst] at hkind
      cases hkind
    by_cases hlast : position ≤ last
    · exact ⟨statement, List.mem_cons_self, first, last, hspan, Nat.le_of_not_lt hfirst, hlast⟩
    · obtain ⟨other, hmem, hother⟩ := ih (by omega) hhigh
      exact ⟨other, List.mem_cons_of_mem _ hmem, hother⟩
  | @line low _ first _ _ _ _ _ hle hgap _ hspan _ _ hrest ih =>
    by_cases hfirst : position < first
    · rw [hgap position hlow hfirst] at hkind
      cases hkind
    · obtain ⟨other, hmem, hother⟩ := ih (by omega) hhigh
      exact ⟨other, List.mem_cons_of_mem _ hmem, hother⟩

/-- None of the statements starts before the first place. -/
theorem exists_spans (h : stream.Lined low least statements high) :
    ∀ statement ∈ statements, ∃ first last, stream.Spans statement.span first last ∧
      low ≤ first ∧ last < high := by
  induction h with
  | none => exact fun _ hmem => absurd hmem List.not_mem_nil
  | next hle _ _ hspan hrest ih =>
    intro other hmem
    have hplace := hspan.le
    rcases List.mem_cons.1 hmem with rfl | hmem
    · exact ⟨_, _, hspan, hle, hrest.le⟩
    · obtain ⟨first, last, hother, hlow, hhigh⟩ := ih other hmem
      exact ⟨first, last, hother, by omega, hhigh⟩
  | line hle _ _ hspan _ _ hrest ih =>
    intro other hmem
    rcases List.mem_cons.1 hmem with rfl | hmem
    · exact ⟨_, _, hspan, hle, hrest.least_lt⟩
    · obtain ⟨first, last, hother, hlow, hhigh⟩ := ih other hmem
      exact ⟨first, last, hother, Nat.le_trans hle hlow, hhigh⟩

/-- Of two statements, the one behind does not start before the other, and shares tokens with it only
if it is the definition behind an annotation on its line. -/
theorem behind_or_sameLine (h : stream.Lined low least statements high) {i j : Nat} (hlt : i < j)
    (hj : j < statements.length) :
    ∃ first last first' last', stream.Spans statements[i].span first last ∧
      stream.Spans statements[j].span first' last' ∧ first ≤ first' ∧
      (last < first' ∨ j = i + 1 ∧ statements[i].isSameLine = true ∧
        statements[j].definition?.isSome = true) := by
  induction h generalizing i j with
  | none => exact absurd hj (Nat.not_lt_zero _)
  | @next _ _ first last _ statement rest _ _ _ hspan hrest ih =>
    obtain ⟨j, rfl⟩ := Nat.exists_eq_succ_of_ne_zero (Nat.ne_of_gt (Nat.zero_lt_of_lt hlt))
    have hj := Nat.lt_of_succ_lt_succ hj
    cases i with
    | zero =>
      obtain ⟨first', last', hspan', hlow, -⟩ := hrest.exists_spans _ (List.getElem_mem hj)
      have hle := hspan.le
      exact ⟨first, last, first', last', hspan, hspan', by omega, Or.inl hlow⟩
    | succ i =>
      obtain ⟨a, b, a', b', hspans, hspans', hle, hapart⟩ := ih (Nat.lt_of_succ_lt_succ hlt) hj
      exact ⟨a, b, a', b', hspans, hspans', hle, hapart.imp_right fun hline =>
        ⟨congrArg Nat.succ hline.1, hline.2⟩⟩
  | @line _ _ first last _ statement following rest _ _ _ hspan hsameLine hdefinition hrest ih =>
    obtain ⟨j, rfl⟩ := Nat.exists_eq_succ_of_ne_zero (Nat.ne_of_gt (Nat.zero_lt_of_lt hlt))
    have hj := Nat.lt_of_succ_lt_succ hj
    cases i with
    | zero =>
      cases j with
      | zero =>
        obtain ⟨first', last', hspan', hlow, -⟩ := hrest.exists_spans _ List.mem_cons_self
        exact ⟨first, last, first', last', hspan, hspan', hlow, Or.inr ⟨rfl, hsameLine, hdefinition⟩⟩
      | succ j =>
        -- what is behind the definition is behind the annotation, too
        obtain ⟨_, last', _, _, hleast, hplace, hbehind⟩ := hrest.of_definition hdefinition
        obtain ⟨first', last'', hspan', hlow, -⟩ :=
          hbehind.exists_spans _ (List.getElem_mem (Nat.lt_of_succ_lt_succ hj))
        have hle := hspan.le
        exact ⟨first, last, first', last'', hspan, hspan', by omega, Or.inl (by omega)⟩
    | succ i =>
      obtain ⟨a, b, a', b', hspans, hspans', hle, hapart⟩ := ih (Nat.lt_of_succ_lt_succ hlt) hj
      exact ⟨a, b, a', b', hspans, hspans', hle, hapart.imp_right fun hline =>
        ⟨congrArg Nat.succ hline.1, hline.2⟩⟩

end Lined

theorem Lined.singleton {statement : Statement} {first last : Nat}
    (h : stream.Spans statement.span first last) :
    stream.Lined first first [statement] (last + 1) :=
  .next (Nat.le_refl _) .refl h.le h (.none (Nat.le_refl _) .refl)

/-! ### What is read as statements -/

variable (stream)

/-- The statements that are read between two positions, two at the most: a row of trees, and unless
it is an expression that stands alone, they make up everything in between. -/
def ReadsStatements (quiet : Prop) (first high : Nat) (statements : List Statement) : Prop :=
  stream.Row quiet first first (trees statements) high ∧
    ((∃ value span, statements = [.item (.expression value span)]) ∨
      stream.Lined first first statements high)

/-- What a line that defines or annotates a name gives: a definition, an annotation, or both, of
which each begins where the line does. -/
inductive ReadsLine (quiet : Prop) (first high : Nat) : Parser.DefinitionLine → Prop
  | definition {last : Nat} {definition : TermDef} (hhigh : high = last + 1)
      (hsits : stream.SitsAt quiet first last definition.outline) :
      ReadsLine quiet first high { ascription := none, definition := some definition }
  | ascription {last : Nat} {ascription : Ascription} (hhigh : high = last + 1)
      (hsits : stream.SitsAt quiet first last ascription.outline) :
      ReadsLine quiet first high { ascription := some ascription, definition := none }
  | both {middle last : Nat} {ascription : Ascription} {definition : TermDef}
      (hhigh : high = last + 1) (hsameLine : ascription.attachment = .sameLine)
      (hsits : stream.SitsAt quiet first middle ascription.outline) (hle : middle ≤ last)
      (hsits' : stream.SitsAt quiet first last definition.outline) :
      ReadsLine quiet first high
        { ascription := some ascription, definition := some definition }

variable {stream} {quiet : Prop} {first last : Nat}

theorem SitsAt.readsStatements {statement : Statement} {tree : Outline}
    (h : stream.SitsAt quiet first last tree) (htree : trees statement = [tree])
    (hspan : tree.span = statement.span) :
    stream.ReadsStatements quiet first (last + 1) [statement] := by
  refine ⟨?_, Or.inr (.singleton (hspan ▸ h.spans))⟩
  rw [trees_cons, htree]
  exact h.row (Nat.lt_succ_self _)

namespace ReadsLine

variable {line : Parser.DefinitionLine}

theorem readsStatements (h : stream.ReadsLine quiet first high line) :
    stream.ReadsStatements quiet first high line.statements := by
  cases h with
  | definition hhigh hsits => exact hhigh ▸ hsits.readsStatements rfl (by simp; rfl)
  | ascription hhigh hsits => exact hhigh ▸ hsits.readsStatements rfl rfl
  | @both middle last ascription definition hhigh hsameLine hsits hle hsits' =>
    subst hhigh
    refine ⟨⟨first, middle, Nat.le_refl _, hsits.spans.le, Nat.lt_succ_of_le hle, hsits, first, last,
      Nat.le_refl _, hle, Nat.lt_succ_self _, hsits', trivial⟩, Or.inr ?_⟩
    have hspans := hsits'.spans
    rw [TermDef.span_outline] at hspans
    exact .line (Nat.le_refl _) .refl hsits.spans.le hsits.spans (beq_iff_eq.2 hsameLine) rfl
      (.next (Nat.le_refl _) .refl hle hspans (.none (Nat.le_refl _) .refl))

/-- What a line gives for a type class is a row. -/
theorem members (h : stream.ReadsLine quiet first high line) :
    stream.Row quiet first first (trees line.members) high := by
  cases h with
  | definition hhigh hsits => exact hsits.row (by omega)
  | ascription hhigh hsits =>
    refine SitsAt.row (hsits.remake rfl (fun _ => trivial) (List.Subset.refl _)) ?_
    omega
  | @both middle last _ _ hhigh _ hsits hle hsits' =>
    exact ⟨first, middle, Nat.le_refl _, hsits.spans.le, by omega,
      hsits.remake rfl (fun _ => trivial) (List.Subset.refl _), first, last, Nat.le_refl _, hle,
      by omega, hsits', trivial⟩

/-- What a line gives for an instance is a row. -/
theorem definition? (h : stream.ReadsLine quiet first high line) :
    stream.Row quiet first first (trees line.definition.toList) high := by
  cases h with
  | definition hhigh hsits => exact hsits.row (by omega)
  | ascription => trivial
  | both hhigh _ _ _ hsits' => exact hsits'.row (by omega)

end ReadsLine

end TokenStream

end SableFrontend
