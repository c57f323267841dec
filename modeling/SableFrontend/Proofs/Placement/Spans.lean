import SableFrontend.Editor.Document
import SableFrontend.Proofs.Grammar.Entry
import SableFrontend.Proofs.Placement.Source
import SableFrontend.Proofs.Token.Places

/-!
The spans of a tree in the text that it was parsed from. Extents over tokens become spans of
characters: since a node ends with a token that is no line break, its lines and columns are those of
its offsets, and since tokens are in order, extents that lie in one another are spans that do. What
an editor is shown is made of these spans, so its ranges are in order too.
-/

namespace SableFrontend

/-- A span lies within another one. -/
def Span.Contains (outer inner : Span) : Prop :=
  outer.start ≤ inner.start ∧ inner.stop ≤ outer.stop

/-- A node stands in a text: its span is one of the text and takes up some of it, unless the node is
a module; and the spans of its children lie within it. -/
structure Outline.StandsIn (text : List Char) (node : Outline) : Prop where
  span : node.span.IsIn text
  nonempty : node.kind = "Module" ∨ node.span.start < node.span.stop
  children : ∀ child ∈ node.children, node.span.Contains child.span

/-! ### Ranges of an editor -/

namespace Editor

/-- A place stands in front of another one, or at it. -/
def Place.Leads (first second : Place) : Prop :=
  first.line < second.line ∨ first.line = second.line ∧ first.character ≤ second.character

/-- A range whose numbers can be counted, and whose start does not stand behind its end. -/
structure Range.WellFormed (range : Range) : Prop where
  start_nonneg : 0 ≤ range.start.line ∧ 0 ≤ range.start.character
  stop_nonneg : 0 ≤ range.stop.line ∧ 0 ≤ range.stop.character
  leads : range.start.Leads range.stop

/-- A range lies within another one. -/
def Range.Contains (outer inner : Range) : Prop :=
  outer.start.Leads inner.start ∧ inner.stop.Leads outer.stop

theorem Range.wellFormed_ofSpan {span : Span} {text : List Char} (h : span.IsIn text) :
    (Range.ofSpan span).WellFormed := by
  obtain ⟨-, hline, hcolumn⟩ := h.startsAt
  obtain ⟨-, hline', hcolumn'⟩ := h.stopsAt
  have hstart := Position.one_le_inText text span.start.toNat
  have hstop := Position.one_le_inText text span.stop.toNat
  have hleads := Position.leads_inText text (Int.toNat_le_toNat h.le)
  unfold Position.Leads at hleads
  constructor <;> simp only [ofSpan, Place.Leads] <;> omega

/-- Spans of a text that lie within one another are shown as ranges that do. -/
theorem Range.contains_ofSpan {outer inner : Span} {text : List Char} (h : outer.IsIn text)
    (h' : inner.IsIn text) (hcontains : outer.Contains inner) :
    (Range.ofSpan outer).Contains (.ofSpan inner) := by
  obtain ⟨-, hline, hcolumn⟩ := h.startsAt
  obtain ⟨-, hline', hcolumn'⟩ := h'.startsAt
  obtain ⟨-, hline₂, hcolumn₂⟩ := h.stopsAt
  obtain ⟨-, hline₂', hcolumn₂'⟩ := h'.stopsAt
  have hstart := Position.leads_inText text (Int.toNat_le_toNat hcontains.1)
  have hstop := Position.leads_inText text (Int.toNat_le_toNat hcontains.2)
  unfold Position.Leads at hstart hstop
  constructor <;> simp only [ofSpan, Place.Leads] <;> omega

end Editor

/-! ### From tokens to characters -/

namespace TokenStream

variable {text file : String} {stream : TokenStream} {span span' : Span}
  {first last first' last' low high position : Nat} {quiet : Prop} {tree : Outline}

/-- What is shown of a token can be shown in an editor, even if it is a line break. -/
theorem wellFormed_token (h : Token.ofText text file = .ok stream.tokens)
    (hlt : position < stream.size) :
    (Editor.Range.ofSpan (stream.token position).span).WellFormed := by
  have hstands := standsIn_of_ofText h hlt
  rcases hstands.stopsAt with hstops | ⟨-, hline, hcolumn⟩
  · exact Editor.Range.wellFormed_ofSpan
      ⟨hstands.nonneg, hstands.le, hstands.stop_le, hstands.startsAt, hstops⟩
  · obtain ⟨-, hstart⟩ := hstands.startsAt
    have hone := Position.one_le_inText text.toList (stream.token position).span.start.toNat
    constructor <;> simp only [Editor.Range.ofSpan, Editor.Place.Leads] <;> omega

/-- From the start of a token to the end of a token that is no line break. -/
theorem isIn_reach (h : Token.ofText text file = .ok stream.tokens) (hle : first ≤ last)
    (hlt : last < stream.size) (hkind : stream.kind last ≠ .newline) :
    (stream.reach first last).IsIn text.toList := by
  have hfirst := standsIn_of_ofText h (Nat.lt_of_le_of_lt hle hlt)
  have hlast := standsIn_of_ofText h hlt
  exact {
    nonneg := hfirst.nonneg
    le := Int.le_trans (start_le_of_ofText h hle hlt) hlast.le
    stop_le := hlast.stop_le
    startsAt := hfirst.startsAt
    stopsAt := hlast.stopsAt.resolve_right fun hbreak => hkind hbreak.1 }

theorem Spans.isIn (h : Token.ofText text file = .ok stream.tokens)
    (hspans : stream.Spans span first last) :
    span.IsIn text.toList ∧ span.start < span.stop := by
  have hlt := Nat.lt_of_succ_lt hspans.lt
  rw [hspans.eq]
  refine ⟨isIn_reach h hspans.le hlt hspans.kind_ne, ?_⟩
  exact Int.lt_of_le_of_lt (start_le_of_ofText h hspans.le hlt) (precedes_of_ofText h hspans.lt).1

/-- Extents that lie within one another. -/
theorem Spans.contains (h : Token.ofText text file = .ok stream.tokens)
    (hspans : stream.Spans span first last) (hspans' : stream.Spans span' first' last')
    (hfirst : first ≤ first') (hlast : last' ≤ last) : span.Contains span' := by
  have hlt := Nat.lt_of_succ_lt hspans.lt
  have hle := Nat.le_trans hspans'.le hlast
  rw [hspans.eq, hspans'.eq]
  exact ⟨start_le_of_ofText h hfirst (Nat.lt_of_le_of_lt hle hlt), stop_le_of_ofText h hlast hlt⟩

/-- Every node of a tree that sits between two positions stands in the text. -/
theorem Sits.standsIn (h : Token.ofText text file = .ok stream.tokens)
    (hsits : stream.Sits quiet low high tree) : tree.All (Outline.StandsIn text.toList) := by
  induction hsits with
  | @intro low high first last tree hlow hhigh hspan hmade hchildren ih =>
    obtain ⟨hisIn, hnonempty⟩ := hspan.isIn h
    refine (Outline.all_iff tree).2 ⟨⟨hisIn, Or.inr hnonempty, fun child hmem => ?_⟩, ih⟩
    obtain ⟨first', last', hfirst, hlast, hat⟩ := (hchildren child hmem).exists_at
    exact hspan.contains h hat.spans hfirst (Nat.le_of_lt_succ hlast)

/-- In silence every node of a tree is well made. -/
theorem Sits.wellMade (hsits : stream.Sits quiet low high tree) (hquiet : quiet) :
    tree.All Outline.WellMade := by
  induction hsits with
  | intro _ _ _ hmade _ ih => exact (Outline.all_iff _).2 ⟨hmade hquiet, ih⟩

/-- A place that may be shown lies in the text, and is a range of an editor. -/
theorem Marks.shows (h : Token.ofText text file = .ok stream.tokens) (hmarks : stream.Marks span) :
    (0 ≤ span.start ∧ span.start ≤ span.stop ∧ span.stop ≤ text.length) ∧
      (Editor.Range.ofSpan span).WellFormed := by
  rw [← String.length_toList]
  rcases hmarks with ⟨position, hlt, rfl⟩ | ⟨first, last, hspans⟩
  · have hstands := standsIn_of_ofText h hlt
    exact ⟨⟨hstands.nonneg, hstands.le, hstands.stop_le⟩, wellFormed_token h hlt⟩
  · obtain ⟨hisIn, -⟩ := hspans.isIn h
    exact ⟨⟨hisIn.nonneg, hisIn.le, hisIn.stop_le⟩, Editor.Range.wellFormed_ofSpan hisIn⟩

end TokenStream

/-! ### Modules -/

theorem Module.children_outline (source : Module) :
    source.outline.children = trees source.declarations := by
  have htrees : source.declarations.map Declaration.outline = trees source.declarations :=
    (trees_eq_map (fun _ => rfl) source.declarations).symm
  simp [Outline.children, Module.outline, htrees]

/-- Every node of a module stands in the text. -/
theorem Setting.Placed.standsIn {set : Setting} {text file : String} {source : Module}
    {final : ParserState} (h : Token.ofText text file = .ok set.stream.tokens)
    (hplaced : set.Placed source final) : source.outline.All (Outline.StandsIn text.toList) := by
  have hisIn : source.span.IsIn text.toList := by
    rw [hplaced.span_eq]
    apply TokenStream.isIn_reach h (Nat.zero_le _) hplaced.lt
    rw [hplaced.kind_eq]
    exact TokenKind.noConfusion
  refine (Outline.all_iff _).2 ⟨⟨hisIn, Or.inl rfl, fun child hmem => ?_⟩, fun child hmem => ?_⟩
  · rw [Module.children_outline] at hmem
    obtain ⟨first, last, -, hlast, hat⟩ := (hplaced.sits child hmem).exists_at
    have hle := hat.spans.le
    show source.span.Contains child.span
    rw [hplaced.span_eq, hat.spans.eq]
    exact ⟨TokenStream.start_le_of_ofText h (Nat.zero_le _)
        (Nat.lt_of_le_of_lt hle (Nat.lt_of_succ_lt hat.spans.lt)),
      TokenStream.stop_le_of_ofText h (Nat.le_of_lt hlast) hplaced.lt⟩
  · rw [Module.children_outline] at hmem
    exact (hplaced.sits child hmem).standsIn h

/-- A source with a module is placed among the tokens of the text. -/
theorem exists_placed_of_parseSource {text file : String} {result : ParseResult} {source : Module}
    (h : parseSource text file = .ok result) (hmodule : result.module? = some source) :
    ∃ (set : Setting) (final : ParserState), set.Placed source final ∧
      Token.ofText text file = .ok set.stream.tokens ∧
      TokenStream.ofTokens? result.tokens = some set.stream ∧
      result.diagnostics = final.log.diagnostics.toList ∧ final.log.muted = 0 := by
  cases hlexes : Token.ofText text file with
  | error error =>
    rw [parseSource, hlexes] at h
    cases h
    cases hmodule
  | ok tokens =>
    obtain ⟨stream, found, final, hstream, rfl, balanced, hrun, hfound, hreported⟩ :=
      exists_moduleSource_of_parseSource hlexes h
    obtain rfl : source = found := Option.some.inj (hmodule.symm.trans hfound)
    have hresult := Except.ok.inj (h.symm.trans (parseSource_eq_ok hlexes hstream hrun))
    have hran := Entry.module.ran balanced
    have hmuted := hran.follows.muted_eq
    replace hmuted : (Parser.moduleSource stream .initial).2.log.muted = 0 := hmuted
    rw [hrun] at hmuted
    refine ⟨Entry.module.setting balanced, final, ?_, rfl, ?_, hreported, hmuted⟩
    · exact Setting.places_moduleSource.returns hrun
    · rw [hresult]
      exact hstream

/-! ### Symbols -/

/-- The symbol of a declaration has the place of the declaration, and its parts have places of nodes
below it. -/
theorem Editor.range_of_symbolOf? {declaration : Declaration} {symbol : Editor.DocumentSymbol}
    (h : Editor.symbolOf? declaration = some symbol) :
    symbol.head.range = .ofSpan declaration.outline.span ∧
      ∀ part ∈ symbol.children, ∃ child ∈ declaration.outline.children,
        part.range = .ofSpan child.span := by
  cases declaration with
  | definition definition =>
    cases h
    exact ⟨congrArg Editor.Range.ofSpan definition.span_outline.symm,
      fun _ hmem => absurd hmem List.not_mem_nil⟩
  | ascription => cases h
  | data name parameters constructors span =>
    cases h
    refine ⟨rfl, fun part hmem => ?_⟩
    obtain ⟨constructor, hconstructor, rfl⟩ := List.mem_map.1 hmem
    refine ⟨constructor.outline, ?_, congrArg Editor.Range.ofSpan constructor.span_outline.symm⟩
    have hread := (List.mem_filter.1 hconstructor).1
    simpa [Outline.children, Declaration.outline, mem_trees, trees] using ⟨_, hread, rfl⟩
  | effect name parameters operations span =>
    cases h
    refine ⟨rfl, fun part hmem => ?_⟩
    obtain ⟨operation, hoperation, rfl⟩ := List.mem_map.1 hmem
    refine ⟨operation.outline, ?_, rfl⟩
    simpa [Outline.children, Declaration.outline] using ⟨_, hoperation, rfl⟩
  | typeClass name parameter superclasses members span =>
    cases h
    refine ⟨rfl, fun part hmem => ?_⟩
    obtain ⟨signature, hsignature, rfl⟩ := List.mem_map.1 hmem
    obtain ⟨member, hmember, hsignature⟩ := List.mem_filterMap.1 hsignature
    refine ⟨signature.outline, ?_, rfl⟩
    cases member with
    | definition => cases hsignature
    | signature found =>
      cases hsignature
      have hread : signature.outline ∈ trees members :=
        mem_trees.2 ⟨_, hmember, List.mem_singleton_self _⟩
      simp [Outline.children, Declaration.outline, hread]
  | classInstance =>
    cases h
    exact ⟨rfl, fun _ hmem => absurd hmem List.not_mem_nil⟩

/-- Every node of a module takes up some of the text, the module itself perhaps nothing, its lines
and columns are those of its offsets, and the nodes below it lie within it. Whatever is reported
points into the text. So an editor is shown ranges whose ends are in order, and the parts of a symbol
lie within the symbol. -/
theorem parseSource_spans {text file : String} {result : ParseResult} {source : Module}
    (h : parseSource text file = .ok result) (hmodule : result.module? = some source) :
    source.outline.All (Outline.StandsIn text.toList) ∧
      (∀ diagnostic ∈ result.diagnostics, ∀ label ∈ diagnostic.labels,
        0 ≤ label.span.start ∧ label.span.start ≤ label.span.stop ∧
          label.span.stop ≤ text.length) ∧
      ∃ document, Editor.Document.analyze file text = .ok document ∧
        document.module? = some source ∧
        (∀ problem ∈ document.problems, problem.range.WellFormed) ∧
        ∀ symbol ∈ Editor.symbols (some document), symbol.head.range.WellFormed ∧
          ∀ part ∈ symbol.children, part.range.WellFormed ∧
            symbol.head.range.Contains part.range := by
  obtain ⟨set, final, hplaced, hlexes, -, hreported, -⟩ := exists_placed_of_parseSource h hmodule
  have hstands := hplaced.standsIn hlexes
  have hmarks : ∀ diagnostic ∈ result.diagnostics, ∀ label ∈ diagnostic.labels,
      set.stream.Marks label.span := by
    intro diagnostic hmem
    apply hplaced.marked diagnostic
    rwa [hreported, Array.mem_toList_iff] at hmem
  refine ⟨hstands, fun diagnostic hmem label hlabel => ?_, ?_⟩
  · exact ((hmarks diagnostic hmem label hlabel).shows hlexes).1
  refine ⟨_, by rw [Editor.Document.analyze, h]; rfl, hmodule, fun problem hmem => ?_,
    fun symbol hmem => ?_⟩
  · obtain ⟨diagnostic, hdiagnostic, rfl⟩ := List.mem_map.1 hmem
    unfold Editor.Problem.ofDiagnostic Diagnostic.span?
    cases hlabels : diagnostic.labels with
    | nil => constructor <;> simp [Editor.Range.atOrigin, Editor.Place.Leads]
    | cons label rest =>
      exact ((hmarks diagnostic hdiagnostic label (hlabels ▸ List.mem_cons_self)).shows hlexes).2
  · have hsymbol : symbol ∈ source.declarations.filterMap Editor.symbolOf? := by
      simpa [Editor.symbols, hmodule] using hmem
    obtain ⟨declaration, hdeclaration, hsome⟩ := List.mem_filterMap.1 hsymbol
    obtain ⟨hrange, hparts⟩ := Editor.range_of_symbolOf? hsome
    have hnode : declaration.outline.All (Outline.StandsIn text.toList) := by
      apply ((Outline.all_iff _).1 hstands).2
      rw [Module.children_outline]
      exact mem_trees.2 ⟨declaration, hdeclaration, List.mem_singleton_self _⟩
    obtain ⟨hhead, hchildren⟩ := (Outline.all_iff _).1 hnode
    refine ⟨hrange ▸ Editor.Range.wellFormed_ofSpan hhead.span, fun part hpart => ?_⟩
    obtain ⟨child, hchild, hplace⟩ := hparts part hpart
    have hbelow := ((Outline.all_iff _).1 (hchildren child hchild)).1
    rw [hplace, hrange]
    exact ⟨Editor.Range.wellFormed_ofSpan hbelow.span,
      Editor.Range.contains_ofSpan hhead.span hbelow.span (hhead.children child hchild)⟩

/-- A data type, and a definition that cannot be understood. -/
theorem exists_parseSource_spans :
    ∃ result source, parseSource "data A = [B; C D]\nf = = 1" "f" = .ok result ∧
      result.module? = some source ∧ result.diagnostics ≠ [] ∧
      source.outline.All (Outline.StandsIn "data A = [B; C D]\nf = = 1".toList) := by
  have hruns : (parseSource "data A = [B; C D]\nf = = 1" "f").toOption.any (fun result =>
      result.module?.isSome && !result.diagnostics.isEmpty) = true := by decide +kernel
  cases h : parseSource "data A = [B; C D]\nf = = 1" "f" with
  | error literal =>
    rw [h] at hruns
    cases hruns
  | ok result =>
    rw [h] at hruns
    obtain ⟨hsome, hreported⟩ := Bool.and_eq_true_iff.1 (show (_ && _) = true from hruns)
    obtain ⟨source, hmodule⟩ := Option.isSome_iff_exists.1 hsome
    refine ⟨result, source, rfl, hmodule, ?_, (parseSource_spans h hmodule).1⟩
    simpa using hreported

end SableFrontend
