import SableFrontend.Proofs.Editor.Names
import SableFrontend.Proofs.Sentences.TypePart
import SableFrontend.Proofs.Token.Naming

/-!
The type that is shown for a name. It is the text at the place of the type of the first annotation of the
name. The place of a type may leave brackets around it out, and it may have comments in it; but in a document
without errors the text, if it is on one line, is parsed to the type that was annotated
(`Editor.parseType_of_typeText?`).
-/

namespace SableFrontend

open SableFrontend.Parser TypeGrammar

/-! ### Types that are read without an error -/

/-- No error has been reported, and none has been kept back. -/
def Watch.errorless (set : Setting) : Watch set where
  holds log := log.muted = 0 ∧ ∀ diagnostic ∈ log.diagnostics, diagnostic.isError = false
  back h hlater := ⟨h.muted_eq.symm.trans hlater.1, fun diagnostic hmem =>
    hlater.2 diagnostic (h.mem_diagnostics diagnostic hmem)⟩

/-- A type at the place of some tokens of a stream, which spell it if they are on one line. -/
def TypeGrammar.Placed (stream : TokenStream) (budget : Nat) (type : TypeExpr) : Prop :=
  ∃ first last, first < last ∧ last < stream.size ∧ type.span = stream.extent first last ∧
    (stream.Unbroken first last → Spelled stream budget first last type)

/-- Reading a type reports nothing but errors. Without one its place is that of its words. -/
theorem Watch.answers_typeAt {set : Setting} (hdeep : set.allows .tooDeep) (budget : Nat)
    (rule : TypeRule) : (Watch.errorless set).Answers (typeAt budget rule) (Placed set.stream budget) := by
  intro state hlt
  have hruns := Setting.obeys_typeAt hdeep budget rule state hlt
  have herrors := @Setting.obeys_typeAt (Entry.type.setting set.balanced) Abort.Arises.tooDeep budget rule
    state hlt
  unfold Setting.Proceeds Setting.Runs at hruns herrors
  unfold Setting.Runs
  cases hrun : typeAt budget rule set.stream state with
  | mk answer final =>
    rw [hrun] at hruns
    rw [show typeAt budget rule (Entry.type.setting set.balanced).stream state = _ from hrun] at herrors
    cases answer with
    | error abort => exact .of_follows hruns.within.lt hruns.follows
    | ok type =>
      refine ⟨.of_follows hruns.lt hruns.follows, fun ⟨hmuted, hclean⟩ => ?_⟩
      -- whatever had been reported would be an error
      have hquiet : final.log.count = state.log.count := by
        obtain ⟨reported, hreported, hadmits⟩ := herrors.follows.reports
        cases reported with
        | nil =>
          rw [Log.count, Log.count, ← Array.length_toList, hreported, List.append_nil,
            Array.length_toList]
        | cons diagnostic =>
          have hmem : diagnostic ∈ final.log.diagnostics := by
            rw [← Array.mem_toList_iff, hreported]
            exact List.mem_append_right _ List.mem_cons_self
          have hno := hclean diagnostic hmem
          have hgrammatical : diagnostic.IsGrammatical := hadmits diagnostic List.mem_cons_self
          rw [Diagnostic.isError, hgrammatical.severity_eq] at hno
          cases hno
      obtain ⟨-, -, hread⟩ :=
        recognizes_typeAt_read budget rule state (hruns.follows.muted_eq ▸ hmuted) type final hrun
      obtain ⟨first, last, -, hfirst, hlast, hspan, hspelled⟩ := (hread hquiet).spelled
      exact ⟨first, last, hfirst, Nat.lt_of_le_of_lt hlast hruns.lt, hspan,
        fun hplain => (hspelled hplain).2⟩

/-! ### The text of a type -/

section

variable {stream : TokenStream} {content file : String} {tokens : Array Token}

/-- The text of some tokens reaches from the first character of the first to the last one of the last. -/
theorem SourceText.spanText_extent {first last : Nat} {front covered behind : List Char}
    (hsplit : content.toList = front ++ (covered ++ behind)) (hne : covered ≠ [])
    (hstart : (stream.token first).span.start = front.length)
    (hstop : (stream.token (last - 1)).span.stop = (front.length + covered.length : Nat)) :
    (ofString content).spanText (stream.extent first last) = covered := by
  have hlength := List.length_pos_of_ne_nil hne
  have hstart' : (stream.extent first last).start = front.length := hstart
  have hstop' : (stream.extent first last).stop = (front.length + covered.length : Nat) := hstop
  rw [spanText, if_pos (by omega), hstart', hstop', ofString, hsplit]
  exact Text.slice_append_append front covered behind rfl rfl

/-- The text at the place of a type is parsed to the type, if it is on one line. -/
theorem TypeGrammar.Placed.parseType {budget : Nat} {type : TypeExpr} (h : Placed stream budget type)
    (hbudget : budget ≤ nestingBudget) (hlexes : Token.ofText content file = .ok tokens)
    (hstream : TokenStream.ofTokens? tokens = some stream)
    (hline : '\n' ∉ (SourceText.ofString content).spanText type.span) (file' : String) :
    ∃ value,
      parseType (String.ofList ((SourceText.ofString content).spanText type.span)) file' = .ok value ∧
        value.outline.sameStructure type.outline = true := by
  obtain ⟨first, last, hlt, hsize, hspan, hspelled⟩ := h
  obtain ⟨front, covered, behind, hsplit, hne, hstart, hstop, hpart⟩ :=
    TokenStream.exists_part hlexes hstream hlt hsize
  rw [hspan, SourceText.spanText_extent hsplit hne hstart hstop] at hline ⊢
  obtain ⟨hplain, hpart⟩ := hpart hline
  obtain ⟨least, hleast, hderives⟩ := hspelled hplain
  obtain ⟨tokens', other, hlexes', hstream', hpart⟩ := hpart hderives.stretch.nested file'
  exact parseType_of_part hderives (Nat.le_trans hleast hbudget) hlexes' hstream' hpart

end

namespace Editor

variable {source file uri name : String} {result : ParseResult} {tokens : Array Token}

/-- Without an error every annotated type has the place of tokens that spell it. -/
theorem placed_of_ascribedType? (hlexes : Token.ofText source file = .ok tokens)
    (hparse : parseSource source file = .ok result) (herrors : result.errors.isEmpty = true) :
    ∃ stream, TokenStream.ofTokens? tokens = some stream ∧
      ∀ parsed ∈ result.module?, ∀ declaration ∈ parsed.declarations, ∀ type,
        ascribedType? name declaration = some type → Placed stream (nestingBudget - 1) type := by
  obtain ⟨stream, source', final, hstream, rfl, balanced, hrun, hread, hreports⟩ :=
    exists_moduleSource_of_parseSource hlexes hparse
  refine ⟨stream, hstream, fun parsed hmodule declaration hmem type htype => ?_⟩
  obtain rfl := Option.some.inj (hread.symm.trans hmodule)
  have hwarns : (Entry.module.setting balanced).Warns := Or.inr
  have hanswers := @Watch.answers_moduleSource _ (.errorless _) (Placed stream (nestingBudget - 1)) hwarns
    Abort.Arises.tooDeep (Watch.answers_typeAt Abort.Arises.tooDeep _ _)
  have hfollows := (Entry.module.ran balanced).follows
  rw [show Entry.module.parser stream .initial = _ from hrun] at hfollows
  have hclean : ∀ diagnostic ∈ final.log.diagnostics, diagnostic.isError = false := by
    intro diagnostic hmem
    rw [← Array.mem_toList_iff, ← hreports] at hmem
    exact eq_false_of_ne_true (List.filter_eq_nil_iff.1 (List.isEmpty_iff.1 herrors) diagnostic hmem)
  have hbrings := hanswers.answer stream.size_pos hrun ⟨hfollows.muted_eq, hclean⟩ declaration hmem
  cases declaration with
  | ascription ascription =>
    rw [ascribedType?] at htype
    split at htype <;> cases htype
    exact hbrings.type ascription rfl
  | _ => cases htype

/-! ### The name of a document -/

/-- The text at a place is that of its offsets, or of its lines. -/
theorem spanText_named (content : SourceText) (span : Span) :
    content.spanText (span.relocate (.named name)) = content.spanText span := rfl

theorem ascribedType?_relocate (r : Relocation) (declaration : Declaration) :
    ascribedType? name (declaration.relocate r) =
      (ascribedType? name declaration).map (TypeExpr.relocate r) := by
  cases declaration with
  | ascription ascription =>
    rw [Declaration.relocate, ascribedType?, ascribedType?, apply_ite (Option.map _)]
    rfl
  | _ =>
    rw [Declaration.relocate]
    rfl

/-- A document shows the types of its source, whatever messages call that. -/
theorem typeText?_of_analyze {document : Document} (hlexes : Token.ofText source file = .ok tokens)
    (hparse : parseSource source file = .ok result) (h : Document.analyze uri source = .ok document) :
    document.typeText? name = (result.module?.bind fun parsed =>
      parsed.declarations.findSome? (ascribedType? name)).map fun type =>
        String.ofList ((SourceText.ofString source).spanText type.span) := by
  have hmoved := @parseSource_named file uri source tokens hlexes
  rw [Document.analyze] at h
  cases hnamed : parseSource source uri with
  | error literal =>
    rw [hnamed] at h
    cases h
  | ok result' =>
    rw [hnamed] at h
    cases h
    rw [hparse, hnamed] at hmoved
    obtain ⟨⟨parsed, hmodule, hmodule'⟩, -⟩ := hmoved
    rw [Document.typeText?]
    dsimp only
    rw [hmodule, hmodule', Option.bind_eq_bind, Option.bind_some, Option.bind_some]
    have hfound : (Relocation.move (.named uri) parsed).declarations.findSome? (ascribedType? name) =
        (parsed.declarations.findSome? (ascribedType? name)).map (TypeExpr.relocate (.named uri)) := by
      have hmap : (Relocation.move (.named uri) parsed).declarations =
          parsed.declarations.map (Declaration.relocate (.named uri)) := rfl
      rw [hmap, List.findSome?_map, List.map_findSome?]
      exact congrArg (List.findSome? · _) (funext fun declaration => ascribedType?_relocate _ declaration)
    rw [hfound]
    cases parsed.declarations.findSome? (ascribedType? name) with
    | none => rfl
    | some type =>
      rw [Option.map_some, Option.map_some, Option.bind_eq_bind, Option.bind_some, TypeExpr.relocate_span,
        spanText_named]
      rfl

/-- In a document whose source has no errors, the text that is shown for the type of a name is parsed to a
type, if it is on one line, and this is the type that the first annotation of the name gives it. -/
theorem parseType_of_typeText? {document : Document} {text : String}
    (hparse : parseSource source file = .ok result) (hok : result.ok = true)
    (h : Document.analyze uri source = .ok document) (htext : document.typeText? name = some text)
    (hline : '\n' ∉ text.toList) (file' : String) :
    ∃ parsed type value, result.module? = some parsed ∧
      parsed.declarations.findSome? (ascribedType? name) = some type ∧
      parseType text file' = .ok value ∧ value.outline.sameStructure type.outline = true := by
  rw [ParseResult.ok, Bool.and_eq_true] at hok
  obtain ⟨hmodule, herrors⟩ := hok
  obtain ⟨parsed, hmodule⟩ := Option.isSome_iff_exists.1 hmodule
  cases hlexes : Token.ofText source file with
  | error error =>
    rw [parseSource, hlexes] at hparse
    cases hparse
    cases hmodule
  | ok tokens =>
    rw [typeText?_of_analyze hlexes hparse h, hmodule, Option.bind_some] at htext
    obtain ⟨type, htype, rfl⟩ := Option.map_eq_some_iff.1 htext
    rw [String.toList_ofList] at hline
    obtain ⟨stream, hstream, hplaced⟩ := @placed_of_ascribedType? _ _ name _ _ hlexes hparse herrors
    obtain ⟨declaration, hmem, hdeclares⟩ := List.exists_of_findSome?_eq_some htype
    obtain ⟨value, hvalue, hsame⟩ := (hplaced parsed hmodule declaration hmem type hdeclares).parseType
      (Nat.sub_le ..) hlexes hstream hline file'
    exact ⟨parsed, type, value, hmodule, htype, hvalue, hsame⟩

/-- A type in brackets, which are not shown, with brackets and a comment in it. -/
theorem exists_parseType_of_typeText? : ∃ result parsed type value,
    parseSource "f @ (A ### of ### -> (B))\nf = x" "f" = .ok result ∧ result.module? = some parsed ∧
      parsed.declarations.findSome? (ascribedType? "f") = some type ∧
      parseType "A ### of ### -> (B)" "t" = .ok value ∧
        value.outline.sameStructure type.outline = true := by
  have hparses : (parseSource "f @ (A ### of ### -> (B))\nf = x" "f").toOption.any ParseResult.ok = true := by
    decide +kernel
  have hshows : ((Document.analyze "u" "f @ (A ### of ### -> (B))\nf = x").toOption.bind
      fun document => document.typeText? "f") = some "A ### of ### -> (B)" := by
    decide +kernel
  cases hparse : parseSource "f @ (A ### of ### -> (B))\nf = x" "f" with
  | error literal =>
    rw [hparse] at hparses
    cases hparses
  | ok result =>
    cases h : Document.analyze "u" "f @ (A ### of ### -> (B))\nf = x" with
    | error literal =>
      rw [h] at hshows
      cases hshows
    | ok document =>
      rw [hparse] at hparses
      rw [h] at hshows
      obtain ⟨parsed, type, value, hfound⟩ :=
        parseType_of_typeText? hparse hparses h hshows (by decide) "t"
      exact ⟨result, parsed, type, value, rfl, hfound⟩

end Editor

end SableFrontend
