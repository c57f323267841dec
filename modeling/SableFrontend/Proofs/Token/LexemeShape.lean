import SableFrontend.Proofs.Token.Nesting
import SableFrontend.Proofs.Token.NumeralShape
import SableFrontend.Token.Lexeme

/-!
What a lexeme says about the text that it was read from. Apart from quoted literals, whose text
stands for what they denote, a token is the very text that it takes up; since a lexeme is as long
as it says, nothing is taken up unseen. Delimiters and the end of the file are never among the
tokens that a scanner makes up on its own.
-/

namespace SableFrontend

/-- The literals whose text is not the text that they were read from. -/
def TokenKind.isQuoted : TokenKind → Bool
  | literal .text | literal .character => true
  | _ => false

namespace Lexeme

/-- The lexeme can be what a text was read as. -/
def Shows (text : List Char) : Lexeme → Prop
  | lineBreak => text = ['\n']
  | trivia _ => True
  | token kind value =>
    kind.isPlain = true ∧ (kind.isQuoted = true ∨ value.toList = text) ∧
      ∀ number, kind = .literal number → kind.isQuoted = true ∨ Numeral.Spells number text
  | opener bracket => text = bracket.openText.toList
  | closer bracket => text = bracket.closeText.toList

/-- A token that is neither a literal nor a delimiter, read as it stands. -/
theorem shows_of_isLiteral_eq_false {text : List Char} {kind : TokenKind}
    (hplain : kind.isPlain = true) (hliteral : kind.isLiteral = false) :
    Shows text (token kind (String.ofList text)) := by
  refine ⟨hplain, Or.inr (by simp), fun number hkind => ?_⟩
  rw [hkind] at hliteral
  cases hliteral

theorem shows_of_isQuoted {text : List Char} {kind : TokenKind} {value : String}
    (hplain : kind.isPlain = true) (hquoted : kind.isQuoted = true) :
    Shows text (token kind value) :=
  ⟨hplain, Or.inl hquoted, fun _ _ => Or.inl hquoted⟩

theorem isPlain_wordKind (word : List Char) :
    (wordKind word).isPlain = true ∧ (wordKind word).isLiteral = false := by
  unfold wordKind
  split
  · exact ⟨rfl, rfl⟩
  · split <;> exact ⟨rfl, rfl⟩

theorem isPlain_operatorKind (spelling : String) :
    (operatorKind spelling).isPlain = true ∧ (operatorKind spelling).isLiteral = false := by
  unfold operatorKind
  split
  · exact ⟨rfl, rfl⟩
  · split
    · exact ⟨rfl, rfl⟩
    · split <;> exact ⟨rfl, rfl⟩

theorem take_takeWhile_length {α : Type} (isMember : α → Bool) (text : List α) :
    text.take (text.takeWhile isMember).length = text.takeWhile isMember :=
  (List.prefix_iff_eq_take.1 (List.takeWhile_prefix isMember)).symm

theorem any_head?_drop_takeWhile (isMember : Char → Bool) (text : List Char) :
    (text.drop (text.takeWhile isMember).length).head?.any isMember = false := by
  have hdrop : text.drop (text.takeWhile isMember).length = text.dropWhile isMember :=
    calc text.drop (text.takeWhile isMember).length
        = (text.takeWhile isMember ++ text.dropWhile isMember).drop
            (text.takeWhile isMember).length := by rw [List.takeWhile_append_dropWhile]
      _ = text.dropWhile isMember := List.drop_left
  rw [hdrop]
  have hstop := List.head?_dropWhile_not isMember text
  cases hhead : (text.dropWhile isMember).head? with
  | none => rfl
  | some c => simpa [hhead] using hstop

/-! ### One lemma for each scanner -/

theorem scanComment_shows {first : Char} {rest : List Char} {scanned : ScannedLexeme}
    (h : scanComment rest = .ok scanned) :
    Shows (first :: rest.take scanned.extra) scanned.lexeme := by
  unfold scanComment at h
  split at h
  · split at h
    · cases h
      trivial
    · cases h
  · cases h
    trivial

theorem scanText_shows {first : Char} {rest : List Char} {scanned : ScannedLexeme}
    (h : scanText rest = .ok scanned) :
    Shows (first :: rest.take scanned.extra) scanned.lexeme := by
  obtain ⟨⟨text, whole⟩, -, h⟩ := exists_of_bind_eq_ok h
  cases h
  exact shows_of_isQuoted rfl rfl

theorem closeCharacter_shows {c : Char} {read : Nat} {rest text : List Char}
    {scanned : ScannedLexeme} (h : closeCharacter c read rest = .ok scanned) :
    Shows text scanned.lexeme := by
  unfold closeCharacter at h
  split at h
  · cases h
    exact shows_of_isQuoted rfl rfl
  · cases h

theorem scanCharacter_shows {first : Char} {rest : List Char} {scanned : ScannedLexeme}
    (h : scanCharacter rest = .ok scanned) :
    Shows (first :: rest.take scanned.extra) scanned.lexeme := by
  unfold scanCharacter at h
  split at h
  · cases h
  · split at h
    · cases h
    · split at h
      · cases h
      · split at h
        · obtain ⟨⟨denoted, length⟩, -, h⟩ := exists_of_bind_eq_ok h
          exact closeCharacter_shows h
        · exact closeCharacter_shows h

/-- A numeral is not empty, so it takes up exactly the characters that it is made of. -/
theorem scanNumber_shows {first : Char} {rest : List Char} {scanned : ScannedLexeme}
    (hdigit : Text.isDigit first = true) (h : scanNumber first rest = .ok scanned) :
    Shows (first :: rest.take scanned.extra) scanned.lexeme := by
  obtain ⟨shape, hread, h⟩ := exists_of_bind_eq_ok h
  cases h
  obtain ⟨spelling, left, htext, hlength, hspells⟩ :=
    Numeral.read_spells (by simpa using hdigit) hread
  have htake : (first :: rest).take shape.length = spelling := by
    rw [htext, ← hlength, List.take_left]
  have hpositive : shape.length - 1 + 1 = shape.length := by
    have hne := List.length_pos_iff.2 hspells.ne_nil
    omega
  have hshown : first :: rest.take (shape.length - 1) = spelling := by
    rw [← List.take_succ_cons, hpositive, htake]
  refine ⟨rfl, Or.inr ?_, fun number hkind => Or.inr ?_⟩
  · rw [String.toList_ofList, htake]
    exact hshown.symm
  · cases hkind
    simpa only [hshown] using hspells

theorem opened?_eq_some {c : Char} {bracket : Bracket} (h : opened? c = some bracket) :
    [c] = bracket.openText.toList := by
  unfold opened? at h
  split at h
  · next heq =>
    cases h
    rw [beq_iff_eq.1 heq]
    rfl
  · split at h
    · next heq =>
      cases h
      rw [beq_iff_eq.1 heq]
      rfl
    · split at h
      · next heq =>
        cases h
        rw [beq_iff_eq.1 heq]
        rfl
      · cases h

theorem closed?_eq_some {c : Char} {bracket : Bracket} (h : closed? c = some bracket) :
    [c] = bracket.closeText.toList := by
  unfold closed? at h
  split at h
  · next heq =>
    cases h
    rw [beq_iff_eq.1 heq]
    rfl
  · split at h
    · next heq =>
      cases h
      rw [beq_iff_eq.1 heq]
      rfl
    · split at h
      · next heq =>
        cases h
        rw [beq_iff_eq.1 heq]
        rfl
      · cases h

theorem punctuation?_eq_some {c : Char} {kind : TokenKind} (h : punctuation? c = some kind) :
    kind.isPlain = true ∧ kind.isLiteral = false := by
  unfold punctuation? at h
  repeat' split at h
  all_goals cases h
  all_goals exact ⟨rfl, rfl⟩

theorem scanMark_shows {first : Char} {rest : List Char} {scanned : ScannedLexeme}
    (h : scanMark first = .ok scanned) :
    Shows (first :: rest.take scanned.extra) scanned.lexeme := by
  unfold scanMark at h
  split at h
  · next bracket hopened =>
    cases h
    exact opened?_eq_some hopened
  · next bracket hclosed =>
    cases h
    exact closed?_eq_some hclosed
  · next mark _ _ hmark =>
    cases h
    obtain ⟨hplain, hliteral⟩ := punctuation?_eq_some hmark
    have hshows : Shows [first] (.token mark (String.ofList [first])) :=
      shows_of_isLiteral_eq_false hplain hliteral
    exact hshows
  · cases h

/-- The lexeme at the start of a text shows what it takes up of it. -/
theorem scan_shows {first : Char} {rest : List Char} {scanned : ScannedLexeme}
    (h : scan first rest = .ok scanned) :
    Shows (first :: rest.take scanned.extra) scanned.lexeme := by
  unfold scan at h
  split at h
  · next hbreak =>
    cases h
    rw [beq_iff_eq.1 hbreak]
    rfl
  · split at h
    · cases h
      trivial
    · split at h
      · exact scanComment_shows h
      · split at h
        · exact scanText_shows h
        · split at h
          · exact scanCharacter_shows h
          · split at h
            · next hdigit => exact scanNumber_shows hdigit h
            · split at h
              · cases h
                obtain ⟨hplain, hliteral⟩ :=
                  isPlain_wordKind (first :: rest.takeWhile Text.isWordChar)
                simp only [scanRun, take_takeWhile_length]
                exact shows_of_isLiteral_eq_false hplain hliteral
              · split at h
                · cases h
                  obtain ⟨hplain, hliteral⟩ := isPlain_operatorKind
                    (String.ofList (first :: rest.takeWhile isOperatorChar))
                  simp only [scanRun, take_takeWhile_length]
                  exact shows_of_isLiteral_eq_false hplain hliteral
                · exact scanMark_shows h

end Lexeme

end SableFrontend
