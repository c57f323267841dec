import SableFrontend.Proofs.Editor.Names

/-!
The completions in a document. They are the reserved words and the names at the top level, each of them
once (`Editor.completions_of_analyze`): the names are listed without repetition, and since each is the text
of a token that is a name, none is spelled like a reserved word. It does not matter what is wrong with the
document.
-/

namespace SableFrontend

/-- The names that a declaration gives to what it declares: to itself, to a constructor that is written
out, to an operation, and to a signature of a type class. -/
inductive Declaration.Declares : Declaration → String → Prop
  | definition (definition : TermDef) : Declares (.definition definition) definition.name
  | data {name : String} {parameters : List String} {constructors : List ConstructorSpec} {span : Span} :
      Declares (.data name parameters constructors span) name
  | constructor {name : String} {parameters : List String} {constructors : List ConstructorSpec}
      {span : Span} {constructor : ConstructorSpec} (hmem : constructor ∈ constructors)
      (hexplicit : constructor.implicit = false) :
      Declares (.data name parameters constructors span) constructor.name
  | effect {name : String} {parameters : List String} {operations : List OperationSpec} {span : Span} :
      Declares (.effect name parameters operations span) name
  | operation {name : String} {parameters : List String} {operations : List OperationSpec} {span : Span}
      {operation : OperationSpec} (hmem : operation ∈ operations) :
      Declares (.effect name parameters operations span) operation.name
  | typeClass {name parameter : String} {superclasses : List Constraint} {members : List ClassMember}
      {span : Span} : Declares (.typeClass name parameter superclasses members span) name
  | signature {name parameter : String} {superclasses : List Constraint} {members : List ClassMember}
      {span : Span} {signature : Signature} (hmem : .signature signature ∈ members) :
      Declares (.typeClass name parameter superclasses members span) signature.name

namespace Editor

theorem mem_namesOf {declaration : Declaration} {name : String} (h : declaration.Declares name) :
    name ∈ namesOf declaration := by
  cases h with
  | definition => exact List.mem_singleton_self _
  | data | effect | typeClass => exact List.mem_cons_self
  | constructor hmem hexplicit =>
    refine List.mem_cons_of_mem _ (List.mem_map_of_mem (List.mem_filter.2 ⟨hmem, ?_⟩))
    rw [hexplicit]
    rfl
  | operation hmem => exact List.mem_cons_of_mem _ (List.mem_map_of_mem hmem)
  | signature hmem =>
    exact List.mem_cons_of_mem _ (List.mem_map_of_mem (List.mem_filterMap.2 ⟨_, hmem, rfl⟩))

/-! ### Each name once -/

/-- Names are added to those that are kept, each one unless it is there. -/
theorem foldl_distinct (names : List String) {kept : List String} (hkept : kept.Nodup) :
    (names.foldl (fun kept name => if kept.contains name then kept else name :: kept) kept).Nodup ∧
      ∀ name, name ∈ names.foldl
        (fun kept name => if kept.contains name then kept else name :: kept) kept ↔
          name ∈ kept ∨ name ∈ names := by
  induction names generalizing kept with
  | nil => exact ⟨hkept, by simp⟩
  | cons first rest ih =>
    rw [List.foldl_cons]
    split
    · next hcontains =>
      have hfirst := List.contains_iff_mem.1 hcontains
      obtain ⟨hnodup, hmem⟩ := ih hkept
      refine ⟨hnodup, fun name => (hmem name).trans ?_⟩
      rw [List.mem_cons]
      refine ⟨fun h => h.imp_right Or.inr, ?_⟩
      rintro (h | rfl | h)
      · exact Or.inl h
      · exact Or.inl hfirst
      · exact Or.inr h
    · next hnot =>
      have hfirst : first ∉ kept := fun h => hnot (List.contains_iff_mem.2 h)
      obtain ⟨hnodup, hmem⟩ := ih (List.nodup_cons.2 ⟨hfirst, hkept⟩)
      refine ⟨hnodup, fun name => (hmem name).trans ?_⟩
      rw [List.mem_cons, List.mem_cons, or_assoc, or_left_comm]

theorem nodup_distinctNames (names : List String) : (distinctNames names).Nodup :=
  List.nodup_reverse.2 (foldl_distinct names List.nodup_nil).1

theorem mem_distinctNames {names : List String} {name : String} :
    name ∈ distinctNames names ↔ name ∈ names := by
  rw [distinctNames, List.mem_reverse, (foldl_distinct names List.nodup_nil).2]
  simp

/-! ### Labels -/

/-- The labels of the reserved words are their spellings, in some order. -/
theorem keywordLabels_perm :
    (keywordCompletions.map Completion.label).Perm (Keyword.all.map Keyword.spelling) := by
  rw [keywordCompletions, List.map_map]
  exact (List.map_id _).symm ▸ List.mergeSort_perm _ _

theorem ofSpelling?_of_mem_keywordLabels {label : String}
    (h : label ∈ keywordCompletions.map Completion.label) : Keyword.ofSpelling? label ≠ none := by
  obtain ⟨word, -, rfl⟩ := List.mem_map.1 (keywordLabels_perm.mem_iff.1 h)
  rw [Keyword.ofSpelling?_spelling]
  exact Option.some_ne_none word

/-- The labels of completions are those of the reserved words and the names at the top level. -/
theorem labels_completions (document : Document) :
    (completions (some document)).map Completion.label =
      keywordCompletions.map Completion.label ++ document.module?.elim [] topLevelNames := by
  rw [completions, List.map_append]
  congr 1
  cases hsource : document.module? with
  | none => simp [hsource]
  | some source => simp [hsource, Function.comp_def, completionOf]

/-- Every name at the top level of a document is the text of a token of the document. -/
theorem ofSpelling?_of_mem_topLevelNames {uri source : String} {document : Document} {parsed : Module}
    (h : Document.analyze uri source = .ok document) (hmodule : document.module? = some parsed)
    {name : String} (hname : name ∈ topLevelNames parsed) : Keyword.ofSpelling? name = none := by
  rw [Document.analyze] at h
  cases hparse : parseSource source uri with
  | error literal =>
    rw [hparse] at h
    cases h
  | ok result =>
    rw [hparse] at h
    cases h
    cases hlexes : Token.ofText source uri with
    | error error =>
      rw [parseSource, hlexes] at hparse
      cases hparse
      cases hmodule
    | ok tokens =>
      obtain ⟨stream, source', final, -, rfl, balanced, hrun, hread, -⟩ :=
        exists_moduleSource_of_parseSource hlexes hparse
      obtain rfl := Option.some.inj (hread.symm.trans hmodule)
      have hwarns : (Entry.module.setting balanced).Warns := Or.inr
      have hanswers := @Watch.answers_moduleSource _ (.always _) (fun _ => True) hwarns
        Abort.Arises.tooDeep (.of_obeys (Setting.obeys_typeAt Abort.Arises.tooDeep _ _))
      have hbrings := hanswers.answer stream.size_pos hrun trivial
      obtain ⟨declaration, hmem, hname⟩ := List.mem_flatMap.1 (mem_distinctNames.1 hname)
      obtain ⟨token, htoken, hisName, rfl⟩ := (hbrings declaration hmem).names name hname
      exact Token.ofSpelling?_of_ofText hlexes htoken hisName

/-- Whatever is wrong with a document, no two of its completions have one label, every reserved word
has a completion, and so has every name that is declared at the top level. -/
theorem completions_of_analyze {uri source : String} {document : Document}
    (h : Document.analyze uri source = .ok document) :
    ((completions (some document)).map Completion.label).Nodup ∧
      (∀ word : Keyword, word.spelling ∈ (completions (some document)).map Completion.label) ∧
      ∀ parsed ∈ document.module?, ∀ declaration ∈ parsed.declarations, ∀ name, declaration.Declares name →
        name ∈ (completions (some document)).map Completion.label := by
  rw [labels_completions]
  refine ⟨List.nodup_append.2 ⟨?_, ?_, ?_⟩, fun word => ?_, ?_⟩
  · exact keywordLabels_perm.nodup_iff.2 (by decide)
  · cases document.module? with
    | none => exact List.nodup_nil
    | some parsed => exact nodup_distinctNames _
  · rintro label hkeyword name hname rfl
    cases hmodule : document.module? with
    | none =>
      rw [hmodule] at hname
      cases hname
    | some parsed =>
      rw [hmodule] at hname
      exact ofSpelling?_of_mem_keywordLabels hkeyword (ofSpelling?_of_mem_topLevelNames h hmodule hname)
  · refine List.mem_append_left _ (keywordLabels_perm.mem_iff.2 ?_)
    exact List.mem_map_of_mem word.mem_all
  · intro parsed hmodule declaration hmem name hdeclares
    refine List.mem_append_right _ ?_
    rw [show document.module? = some parsed from hmodule]
    exact mem_distinctNames.2 (List.mem_flatMap.2 ⟨declaration, hmem, mem_namesOf hdeclares⟩)

/-- A document with an error, in which a constructor is named like its type and like a class. -/
theorem exists_completions_of_analyze : ∃ document,
    Document.analyze "u" "data X = [X]\nf = = 1\nf = if\ntypeclass X a = [g @ a]" = .ok document ∧
      ((completions (some document)).map Completion.label).Nodup ∧
        "if" ∈ (completions (some document)).map Completion.label := by
  cases h : Document.analyze "u" "data X = [X]\nf = = 1\nf = if\ntypeclass X a = [g @ a]" with
  | error literal =>
    have hopens : (Document.analyze "u"
        "data X = [X]\nf = = 1\nf = if\ntypeclass X a = [g @ a]").toOption.isSome = true := by
      decide +kernel
    rw [h] at hopens
    cases hopens
  | ok document =>
    obtain ⟨hnodup, hkeywords, -⟩ := completions_of_analyze h
    exact ⟨document, rfl, hnodup, hkeywords .ifWord⟩

end Editor

end SableFrontend
