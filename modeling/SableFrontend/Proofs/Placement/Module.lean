import SableFrontend.Proofs.Placement.Spans

/-!
Modules of which nothing is reported. The declarations of such a module leave no token of the text
out, but for the header and the separators between them; they stand in order, and share tokens only
where an annotation stands on the line of its definition. And every node is as a renamer needs it to
be, wherever it stands in the tree.
-/

namespace SableFrontend

/-- Two spans have characters in common. -/
def Span.Overlaps (span other : Span) : Prop := span.start < other.stop ∧ other.start < span.stop

namespace TokenStream

variable {text file : String} {stream : TokenStream} {span span' : Span}
  {first last first' last' low least high position : Nat}

/-- An extent takes up the tokens between its ends. -/
theorem Spans.contains_token (h : Token.ofText text file = .ok stream.tokens)
    (hspans : stream.Spans span first last) (hfirst : first ≤ position) (hlast : position ≤ last) :
    span.Contains (stream.token position).span := by
  have hlt := Nat.lt_of_succ_lt hspans.lt
  rw [hspans.eq]
  exact ⟨start_le_of_ofText h hfirst (Nat.lt_of_le_of_lt hlast hlt), stop_le_of_ofText h hlast hlt⟩

/-- Extents that start in order are spans that start in order. -/
theorem Spans.start_le (h : Token.ofText text file = .ok stream.tokens)
    (hspans : stream.Spans span first last) (hspans' : stream.Spans span' first' last')
    (hle : first ≤ first') : span.start ≤ span'.start := by
  rw [hspans.eq, hspans'.eq]
  exact start_le_of_ofText h hle (Nat.lt_of_le_of_lt hspans'.le (Nat.lt_of_succ_lt hspans'.lt))

/-- Extents behind one another are spans that do not overlap. -/
theorem Spans.not_overlaps (h : Token.ofText text file = .ok stream.tokens)
    (hspans : stream.Spans span first last) (hspans' : stream.Spans span' first' last')
    (hlt : last < first') : ¬span.Overlaps span' := by
  rintro ⟨-, hoverlaps⟩
  rw [hspans.eq, hspans'.eq] at hoverlaps
  have hle := stop_le_start_of_ofText h hlt
    (Nat.lt_of_le_of_lt hspans'.le (Nat.lt_of_succ_lt hspans'.lt))
  exact absurd hoverlaps (Int.not_lt.2 hle)

section

variable {declarations : List Declaration}

/-- What is lined up leaves out separators only, in the text as well. -/
theorem Lined.exists_contains (h : Token.ofText text file = .ok stream.tokens)
    (hlined : stream.Lined low least (declarations.map Statement.ofDeclaration) high)
    (hlow : low ≤ position) (hhigh : position < high)
    (hkind : (stream.kind position).isSeparator = false) :
    ∃ declaration ∈ declarations, declaration.span.Contains (stream.token position).span := by
  obtain ⟨_, hmem, first, last, hspans, hfirst, hlast⟩ :=
    hlined.covers hlow hhigh (by simp [TokenKind.separates, hkind])
  obtain ⟨declaration, hdeclaration, rfl⟩ := List.mem_map.1 hmem
  exact ⟨declaration, hdeclaration, hspans.contains_token h hfirst hlast⟩

theorem Lined.start_le_and_overlaps (h : Token.ofText text file = .ok stream.tokens)
    (hlined : stream.Lined low least (declarations.map Statement.ofDeclaration) high) {i j : Nat}
    (hlt : i < j) (hj : j < declarations.length) :
    declarations[i].span.start ≤ declarations[j].span.start ∧
      (declarations[i].span.Overlaps declarations[j].span →
        j = i + 1 ∧ declarations[i].isSameLine = true ∧ declarations[j].isDefinition = true) := by
  obtain ⟨first, last, first', last', hspans, hspans', hle, hapart⟩ :=
    hlined.behind_or_sameLine hlt (by rwa [List.length_map])
  simp only [List.getElem_map] at hspans hspans' hapart
  refine ⟨hspans.start_le h hspans' hle, fun hoverlaps => ?_⟩
  rcases hapart with hbehind | ⟨hnext, hsameLine, hdefinition⟩
  · exact absurd hoverlaps (hspans.not_overlaps h hspans' hbehind)
  · refine ⟨hnext, hsameLine, ?_⟩
    revert hdefinition
    cases declarations[j] <;>
      simp [Statement.ofDeclaration, Statement.definition?, Declaration.isDefinition]

end

end TokenStream

theorem Setting.Placed.wellMade {set : Setting} {source : Module} {final : ParserState}
    (h : set.Placed source final) (hquiet : final.Quiet) :
    source.outline.All Outline.WellMade := by
  refine (Outline.all_iff _).2 ⟨?_, fun child hmem => ?_⟩
  · have htrees : source.declarations.map Declaration.outline = trees source.declarations :=
      (trees_eq_map (fun _ => rfl) source.declarations).symm
    simpa [Module.outline, Outline.WellMade, Outline.parts, htrees] using h.unmerged
  · rw [Module.children_outline] at hmem
    exact (h.sits child hmem).wellMade hquiet

/-- A text whose module can be evaluated, with nothing reported. -/
theorem exists_clean_of_any (text file : String) (p : Module → Bool)
    (h : (parseSource text file).toOption.any (fun result =>
      result.module?.any p && result.diagnostics.isEmpty) = true) :
    ∃ result source, parseSource text file = .ok result ∧ result.module? = some source ∧
      result.diagnostics = [] ∧ p source = true := by
  cases hparsed : parseSource text file with
  | error literal =>
    rw [hparsed] at h
    cases h
  | ok result =>
    rw [hparsed] at h
    obtain ⟨hmodule, hclean⟩ := Bool.and_eq_true_iff.1
      (show (result.module?.any p && result.diagnostics.isEmpty) = true from h)
    cases hsource : result.module? with
    | none =>
      rw [hsource] at hmodule
      cases hmodule
    | some source =>
      rw [hsource] at hmodule
      exact ⟨result, source, rfl, hsource, List.isEmpty_iff.1 hclean, hmodule⟩

/-- If nothing is reported, every token that is neither a separator nor a part of the header nor the
end of the file lies within a declaration. The declarations start in order, and two of them overlap
only if the first is an annotation on the line of the second, which is the definition right behind
it. -/
theorem parseSource_covers {text file : String} {result : ParseResult} {source : Module}
    (h : parseSource text file = .ok result) (hmodule : result.module? = some source)
    (hclean : result.diagnostics = []) :
    ∃ stream, TokenStream.ofTokens? result.tokens = some stream ∧
      (∀ position, position < stream.size → (stream.kind position).isSeparator = false →
        stream.kind position ≠ .endOfFile → ¬stream.InHeader position →
        ∃ declaration ∈ source.declarations,
          declaration.span.Contains (stream.token position).span) ∧
      ∀ i j, (hlt : i < j) → (hj : j < source.declarations.length) →
        source.declarations[i].span.start ≤ source.declarations[j].span.start ∧
          (source.declarations[i].span.Overlaps source.declarations[j].span →
            j = i + 1 ∧ source.declarations[i].isSameLine = true ∧
              source.declarations[j].isDefinition = true) := by
  obtain ⟨set, final, hplaced, hlexes, hstream, hreported, hmuted⟩ :=
    exists_placed_of_parseSource h hmodule
  have hquiet : final.Quiet := ⟨hmuted, by simpa [hclean] using hreported.symm⟩
  obtain ⟨first, hheaded, hlined⟩ := hplaced.lined hquiet
  refine ⟨set.stream, hstream, fun position hlt hkind hend hheader => ?_,
    fun i j hlt hj => hlined.start_le_and_overlaps hlexes hlt hj⟩
  apply hlined.exists_contains hlexes _ _ hkind
  · -- in front of the declarations there are separators and the header
    by_contra hbefore
    rcases hheaded position (Nat.lt_of_not_le hbefore) with hseparates | hinside
    · simp [TokenKind.separates, hkind] at hseparates
    · exact hheader hinside
  · have hlast := set.balanced.end_last hplaced.lt hplaced.kind_eq
    have hne : position ≠ final.position := by
      rintro rfl
      exact hend hplaced.kind_eq
    omega

/-- An annotation on the line of its definition, behind a header. -/
theorem exists_parseSource_covers :
    ∃ result source, parseSource "module M; x @ A = 1" "f" = .ok result ∧
      result.module? = some source ∧ result.diagnostics = [] ∧ source.declarations.length = 2 ∧
      ∃ stream, TokenStream.ofTokens? result.tokens = some stream ∧
        ∀ position, position < stream.size → (stream.kind position).isSeparator = false →
          stream.kind position ≠ .endOfFile → ¬stream.InHeader position →
          ∃ declaration ∈ source.declarations,
            declaration.span.Contains (stream.token position).span := by
  obtain ⟨result, source, h, hmodule, hclean, hlength⟩ :=
    exists_clean_of_any "module M; x @ A = 1" "f" (·.declarations.length == 2) (by decide +kernel)
  obtain ⟨stream, hstream, hcovers, -⟩ := parseSource_covers h hmodule hclean
  exact ⟨result, source, h, hmodule, hclean, beq_iff_eq.1 hlength, stream, hstream, hcovers⟩

/-- If nothing is reported, every node of the module is well made. -/
theorem parseSource_wellMade {text file : String} {result : ParseResult} {source : Module}
    (h : parseSource text file = .ok result) (hmodule : result.module? = some source)
    (hclean : result.diagnostics = []) : source.outline.All Outline.WellMade := by
  obtain ⟨set, final, hplaced, -, -, hreported, hmuted⟩ := exists_placed_of_parseSource h hmodule
  exact hplaced.wellMade ⟨hmuted, by simpa [hclean] using hreported.symm⟩

/-- A case, a record with fields and a lambda. -/
theorem exists_parseSource_wellMade :
    ∃ result source, parseSource "f x = case x: [0: A[b = 1]; n: [m: n]]" "f" = .ok result ∧
      result.module? = some source ∧ result.diagnostics = [] ∧ source.declarations.length = 1 ∧
      source.outline.All Outline.WellMade := by
  obtain ⟨result, source, h, hmodule, hclean, hlength⟩ :=
    exists_clean_of_any "f x = case x: [0: A[b = 1]; n: [m: n]]" "f" (·.declarations.length == 1)
      (by decide +kernel)
  exact ⟨result, source, h, hmodule, hclean, beq_iff_eq.1 hlength,
    parseSource_wellMade h hmodule hclean⟩

end SableFrontend
