import SableFrontend.Proofs.Highlight.Agreement
import SableFrontend.Proofs.Token.QuotedLiteral

/-!
Names and reserved words among the tokens of a text. Each is a run of word characters that stands alone:
no word character is in front of it or behind it (`LexRun.standsAlone_of_mem`). This needs to be known
of all lexemes, since a word could otherwise begin where the lexeme in front of it ends. No name is
spelled like a reserved word.
-/

namespace SableFrontend

/-- The kinds of tokens that are words: names and reserved words. -/
def TokenKind.isWord : TokenKind → Bool
  | .keyword _ | .identifier | .typeIdentifier => true
  | _ => false

/-- The kinds of tokens that are names. -/
def TokenKind.isName : TokenKind → Bool
  | .identifier | .typeIdentifier => true
  | _ => false

theorem TokenKind.isWord_of_isName {kind : TokenKind} (h : kind.isName = true) : kind.isWord = true := by
  cases kind <;> first | rfl | cases h

namespace Text

/-- A run of word characters between two texts, neither of which makes it longer. -/
structure StandsAlone (before word behind : List Char) : Prop where
  ne_nil : word ≠ []
  all_isWordChar : ∀ c ∈ word, isWordChar c = true
  before_ends : before.getLast?.any isWordChar = false
  behind_starts : behind.head?.any isWordChar = false

end Text

namespace Lexeme

theorem isWord_operatorKind (spelling : String) : (operatorKind spelling).isWord = false := by
  unfold operatorKind
  repeat' split
  all_goals rfl

/-- A name is not reserved. -/
theorem ofSpelling?_eq_none_of_isName {word : List Char} (h : (wordKind word).isName = true) :
    Keyword.ofSpelling? (String.ofList word) = none := by
  unfold wordKind at h
  split at h
  · cases h
  · assumption

/-- A word is read as the longest run of word characters. -/
theorem eq_word_of_scan {first : Char} {rest : List Char} {kind : TokenKind} {value : String}
    {extra : Nat} (h : scan first rest = .ok { lexeme := .token kind value, extra := extra })
    (hword : kind.isWord = true) :
    Text.isWordStart first = true ∧ extra = (rest.takeWhile Text.isWordChar).length ∧
      kind = wordKind (first :: rest.takeWhile Text.isWordChar) ∧
      value = String.ofList (first :: rest.takeWhile Text.isWordChar) := by
  unfold scan at h
  split at h
  · cases h
  split at h
  · cases h
  split at h
  · unfold scanComment at h
    repeat' split at h
    all_goals cases h
  split at h
  · obtain ⟨_, -, h⟩ := exists_of_bind_eq_ok h
    cases h
    cases hword
  split at h
  · obtain ⟨c, shown, left, hlexeme, -⟩ := spells_of_scanCharacter h
    cases hlexeme
    cases hword
  split at h
  · obtain ⟨_, -, h⟩ := exists_of_bind_eq_ok h
    cases h
    cases hword
  split at h
  · next hstart =>
    cases h
    exact ⟨hstart, rfl, rfl, rfl⟩
  split at h
  · cases h
    rw [isWord_operatorKind] at hword
    cases hword
  · unfold scanMark at h
    split at h
    · cases h
    · cases h
    · next hmark =>
      cases h
      unfold punctuation? at hmark
      repeat' split at hmark
      all_goals cases hmark
      all_goals cases hword
    · cases h

end Lexeme

/-- A token of a text: if it is a word it stands alone, and its spelling decides on its kind. -/
structure Token.IsWordOf (text : List Char) (token : Token) : Prop where
  exists_split : ∃ before behind, text = before ++ (token.value.toList ++ behind) ∧
    token.span.start = before.length ∧ token.span.stop = before.length + token.value.toList.length ∧
      Text.StandsAlone before token.value.toList behind
  kind_eq : token.kind = Lexeme.wordKind token.value.toList

namespace LexState

variable {file : String} {text left : List Char} {state next last : LexState}

/-- The words of a text so far, and how it goes on. -/
structure FindsWords (text : List Char) (state : LexState) (left : List Char) : Prop where
  left_eq : left = text.drop state.position.offset
  apart : Lexeme.Apart (text.take state.position.offset) left
  words : ∀ token ∈ state.tokens, token.kind.isWord = true → token.IsWordOf text

theorem findsWords_initial (text : List Char) : FindsWords text initial text :=
  ⟨rfl, nofun, fun token hmem => absurd hmem (Array.not_mem_empty token)⟩

theorem step_findsWords {first : Char} {rest : List Char} {extra : Nat}
    (hstep : state.step file first rest = .ok (next, extra))
    (h : FindsWords text state (first :: rest)) : FindsWords text next (rest.drop extra) := by
  obtain ⟨lexeme, recorded, hscan, hrecords, rfl⟩ := step_eq_ok hstep
  have hapart : Lexeme.Apart (first :: rest.take extra) (rest.drop extra) := (Lexeme.scan_reads hscan).2
  have hdrop : text.drop state.position.offset = (first :: rest.take extra) ++ rest.drop extra := by
    rw [← h.left_eq, List.cons_append, List.take_append_drop]
  have hle : state.position.offset ≤ text.length := by
    have hlength := congrArg List.length h.left_eq
    rw [List.length_drop, List.length_cons] at hlength
    omega
  have htake : text.take (state.position.after (first :: rest.take extra)).offset =
      text.take state.position.offset ++ (first :: rest.take extra) := by
    rw [Position.after_offset, List.take_add, hdrop, List.take_left]
  refine ⟨?_, ?_, ?_⟩
  · rw [Position.after_offset, ← List.drop_drop, hdrop, List.drop_left]
  · dsimp only
    rw [htake]
    intro hlast
    rw [List.getLast?_append, List.getLast?_cons] at hlast
    refine hapart ?_
    rw [List.getLast?_cons]
    exact hlast
  have hpush : ∀ {kind : TokenKind} {value : String}, lexeme = .token kind value ∨ kind.isWord = false →
      ∀ token ∈ state.tokens.push ⟨kind, value, state.spanOf file lexeme (first :: rest.take extra)⟩,
        token.kind.isWord = true → token.IsWordOf text := by
    intro kind value hkind token hmem hword
    rcases Array.mem_push.1 hmem with hold | rfl
    · exact h.words token hold hword
    · rcases hkind with rfl | hno
      · obtain ⟨hstart, rfl, rfl, rfl⟩ := Lexeme.eq_word_of_scan hscan hword
        rw [Lexeme.take_takeWhile_length] at hdrop
        have hbefore : (text.take state.position.offset).length = state.position.offset :=
          List.length_take_of_le hle
        have halone : Text.StandsAlone (text.take state.position.offset)
            (first :: rest.takeWhile Text.isWordChar)
            (rest.drop (rest.takeWhile Text.isWordChar).length) := {
          ne_nil := List.cons_ne_nil _ _
          all_isWordChar := List.forall_mem_cons.2
            ⟨Text.isWordChar_of_isWordStart hstart, List.all_eq_true.1 List.all_takeWhile⟩
          before_ends := Bool.eq_false_iff.2 fun hlast => by
            have hfirst := h.apart hlast
            rw [List.head?_cons, Option.any_some, Text.isWordChar_of_isWordStart hstart] at hfirst
            cases hfirst
          behind_starts := Lexeme.any_head?_drop_takeWhile _ _ }
        refine ⟨⟨text.take state.position.offset, rest.drop (rest.takeWhile Text.isWordChar).length,
          ?_, ?_, ?_, by rwa [String.toList_ofList]⟩, by rw [String.toList_ofList]⟩
        · rw [String.toList_ofList, ← hdrop, List.take_append_drop]
        · rw [spanOf_start, hbefore]
        · rw [spanOf_stop, hbefore, String.toList_ofList, Lexeme.take_takeWhile_length]
      · rw [hno] at hword
        cases hword
  cases hrecords with
  | skipped => exact h.words
  | newline => exact hpush (Or.inr rfl)
  | token kind value hlexeme => exact hpush (Or.inl hlexeme)
  | opener | closer => exact hpush (Or.inr rfl)

/-- The words of a text stand alone, after every sequence of turns from its start. -/
theorem Turns.findsWords {count : Nat} (h : Turns file count initial text last left) :
    FindsWords text last left :=
  h.invariant (fun _ _ _ _ _ hstep hstate => step_findsWords hstep hstate) (findsWords_initial text)

end LexState

/-- The names and reserved words of a text stand alone. -/
theorem Token.isWordOf_of_ofText {text file : String} {tokens : Array Token} {token : Token}
    (h : Token.ofText text file = .ok tokens) (hmem : token ∈ tokens)
    (hword : token.kind.isWord = true) : token.IsWordOf text.toList := by
  obtain ⟨count, last, hturns, -, rfl⟩ := Token.ofText_eq_ok h
  rcases Array.mem_push.1 hmem with hread | rfl
  · exact hturns.findsWords.words token hread hword
  · cases hword

/-- No name of a text is spelled like a reserved word. -/
theorem Token.ofSpelling?_of_ofText {text file : String} {tokens : Array Token} {token : Token}
    (h : Token.ofText text file = .ok tokens) (hmem : token ∈ tokens)
    (hname : token.kind.isName = true) : Keyword.ofSpelling? token.value = none := by
  have hword := (isWordOf_of_ofText h hmem (TokenKind.isWord_of_isName hname)).kind_eq
  rw [hword] at hname
  rw [← String.ofList_toList (s := token.value)]
  exact Lexeme.ofSpelling?_eq_none_of_isName hname

end SableFrontend
