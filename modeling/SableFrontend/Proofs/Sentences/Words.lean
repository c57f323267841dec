import SableFrontend.Proofs.Sentences.Calculus
import SableFrontend.Proofs.Token.Delimiters
import SableFrontend.Proofs.Token.Respacing

/-!
Texts that are written word by word. A word is what a token shows, its kind and its value. In a text that is
`Written` from words, blanks stand between any two words that would otherwise be read as one. If the words
are `Legible` and their delimiters match, reading the text gives just these words, and the end of the file
(`ofText_of_written`).
-/

namespace SableFrontend

theorem WellNested.append {kinds more : List TokenKind} (h : WellNested kinds) (h' : WellNested more) :
    WellNested (kinds ++ more) := by
  induction h with
  | nil => exact h'
  | plain hkind _ ih => exact .plain hkind ih
  | pair bracket hinside _ _ ih =>
    rw [List.cons_append, List.append_assoc, List.cons_append]
    exact .pair bracket hinside ih

/-- What a token shows. -/
structure Word where
  kind : TokenKind
  value : String
  deriving DecidableEq, Repr

def Token.word (token : Token) : Word := { kind := token.kind, value := token.value }

namespace Word

def opener (bracket : Bracket) : Word := { kind := .opener bracket, value := bracket.openText }

def closer (bracket : Bracket) : Word := { kind := .closer bracket, value := bracket.closeText }

def comma : Word := { kind := .comma, value := "," }

/-- Words between two brackets. -/
def enclosed (bracket : Bracket) (words : List Word) : List Word :=
  opener bracket :: (words ++ [closer bracket])

theorem length_enclosed (bracket : Bracket) (words : List Word) (start : Nat) :
    start + (enclosed bracket words).length = start + 1 + words.length + 1 := by
  rw [enclosed, List.length_cons, List.length_append, List.length_singleton]
  omega

theorem length_cons (word : Word) (words : List Word) (start : Nat) :
    start + (word :: words).length = start + 1 + words.length := by
  rw [List.length_cons, Nat.add_comm _ 1, Nat.add_assoc]

/-- A word of operator characters. -/
def sign (spelling : String) : Word := { kind := Lexeme.operatorKind spelling, value := spelling }

/-- A word is what the token shows that a lexeme is recorded as. -/
inductive IsReadAs : Word → Lexeme → Prop
  | token {kind : TokenKind} {value : String} (hplain : kind.isPlain = true) :
      IsReadAs { kind := kind, value := value } (.token kind value)
  | opener (bracket : Bracket) : IsReadAs (opener bracket) (.opener bracket)
  | closer (bracket : Bracket) : IsReadAs (closer bracket) (.closer bracket)

/-- The characters that would make a word longer. -/
def goesOn (word : Word) (c : Char) : Bool :=
  match word.kind with
  | .identifier | .typeIdentifier => Text.isWordChar c
  | .operator | .assign | .bind | .pipe => Lexeme.isOperatorChar c
  | _ => false

/-- Wherever a word stands it is read as what it is, if nothing makes it longer. -/
def Legible (word : Word) : Prop :=
  ∃ lexeme first rest, word.IsReadAs lexeme ∧ word.value.toList = first :: rest ∧
    Lexeme.isBlank first = false ∧ ∀ more : List Char, more.head?.any word.goesOn = false →
      Lexeme.scan first (rest ++ more) = .ok { lexeme := lexeme, extra := rest.length }

/-- A name that is no keyword: `kind` says which case it begins with. -/
def isName (word : Word) : Bool :=
  match word.value.toList with
  | [] => false
  | first :: rest =>
    !Text.isDigit first && Text.isWordStart first && rest.all Text.isWordChar &&
      (word.kind == .identifier || word.kind == .typeIdentifier) &&
      Lexeme.wordKind (first :: rest) == word.kind

theorem takeWhile_append_of_stops {isMember : Char → Bool} {shown more : List Char}
    (h : shown.all isMember = true) (hstops : more.head?.any isMember = false) :
    (shown ++ more).takeWhile isMember = shown := by
  rw [List.takeWhile_append_of_pos (List.all_eq_true.1 h)]
  cases more with
  | nil => rw [List.takeWhile_nil, List.append_nil]
  | cons c rest =>
    rw [List.takeWhile_cons_of_neg (show ¬isMember c = true from Bool.eq_false_iff.1 hstops),
      List.append_nil]

theorem legible_of_isName {word : Word} (h : word.isName = true) : word.Legible := by
  unfold isName at h
  split at h
  · cases h
  · next first rest hvalue =>
    simp only [Bool.and_eq_true, Bool.not_eq_true', Bool.or_eq_true, beq_iff_eq] at h
    obtain ⟨⟨⟨⟨hdigit, hstart⟩, hrest⟩, hkind⟩, hword⟩ := h
    have hgap : Lexeme.isGapChar first = false := by
      cases hgap : Lexeme.isGapChar first with
      | false => rfl
      | true =>
        have hno := Lexeme.solid_isWordChar first hgap
        rw [Text.isWordChar_of_isWordStart hstart] at hno
        cases hno
    have hne : ∀ c, Text.isWordStart c = false → (first == c) = false := by
      intro c hc
      refine beq_eq_false_iff_ne.2 ?_
      rintro rfl
      rw [hstart] at hc
      cases hc
    have hblank : Lexeme.isBlank first = false := by
      rw [Lexeme.isGapChar, Bool.or_eq_false_iff, Bool.or_eq_false_iff] at hgap
      exact hgap.1.1
    have hgoes : word.goesOn = Text.isWordChar := by
      funext c
      rcases hkind with hkind | hkind <;> rw [goesOn, hkind]
    have hplain : word.kind.isPlain = true := by
      rcases hkind with hkind | hkind <;> rw [hkind] <;> rfl
    refine ⟨_, first, rest, .token hplain, hvalue, hblank, fun more hstops => ?_⟩
    rw [hgoes] at hstops
    rw [Lexeme.scan, hne '\n' (by decide), hblank, hne '#' (by decide), hne '"' (by decide),
      hne '\'' (by decide), hdigit, hstart]
    simp only [Bool.false_eq_true, if_false, if_true, Lexeme.scanRun,
      takeWhile_append_of_stops hrest hstops, hword]
    rw [← hvalue, String.ofList_toList]

theorem legible_sign {spelling : String} {first : Char} {rest : List Char}
    (hvalue : spelling.toList = first :: rest)
    (hall : (first :: rest).all Lexeme.isOperatorChar = true) : (sign spelling).Legible := by
  have hfacts : ∀ c, Lexeme.isOperatorChar c = true → (c == '\n') = false ∧ Lexeme.isBlank c = false ∧
      (c == '#') = false ∧ (c == '"') = false ∧ (c == '\'') = false ∧ Text.isDigit c = false ∧
      Text.isWordStart c = false := fun c hc => by
    have hevery : "+-*/%<>=!&|^~$?".toList.all (fun c => !(c == '\n' || Lexeme.isBlank c || c == '#' ||
        c == '"' || c == '\'' || Text.isDigit c || Text.isWordStart c)) = true := by
      decide
    have hother := List.all_eq_true.1 hevery c (List.contains_iff_mem.1 hc)
    simpa only [Bool.not_eq_true', Bool.or_eq_false_iff, and_assoc] using hother
  have hgoes : (sign spelling).goesOn = Lexeme.isOperatorChar ∧ (sign spelling).kind.isPlain = true := by
    unfold goesOn sign Lexeme.operatorKind
    dsimp only
    cases spelling == "=" <;> cases spelling == "=!" <;> cases spelling == "|" <;> exact ⟨rfl, rfl⟩
  rw [List.all_cons, Bool.and_eq_true] at hall
  obtain ⟨hbreak, hblank, hcomment, htext, hcharacter, hdigit, hword⟩ := hfacts first hall.1
  refine ⟨_, first, rest, .token hgoes.2, hvalue, hblank, fun more hstops => ?_⟩
  rw [hgoes.1] at hstops
  rw [Lexeme.scan, hbreak, hblank, hcomment, htext, hcharacter, hdigit, hword, hall.1]
  simp only [Bool.false_eq_true, if_false, if_true, Lexeme.scanRun,
    takeWhile_append_of_stops hall.2 hstops]
  rw [← hvalue, String.ofList_toList]

theorem legible_opener (bracket : Bracket) : (opener bracket).Legible := by
  cases bracket <;> exact ⟨_, _, [], .opener _, rfl, rfl, fun _ _ => rfl⟩

theorem legible_closer (bracket : Bracket) : (closer bracket).Legible := by
  cases bracket <;> exact ⟨_, _, [], .closer _, rfl, rfl, fun _ _ => rfl⟩

theorem legible_comma : comma.Legible := ⟨_, _, [], .token rfl, rfl, rfl, fun _ _ => rfl⟩

/-- Each of the words is legible, none is a separator, and their delimiters match. -/
structure Readable (words : List Word) : Prop where
  legible : ∀ word ∈ words, word.Legible
  joined : ∀ word ∈ words, word.kind.isSeparator = false
  nested : WellNested (words.map kind)

namespace Readable

variable {words more : List Word}

theorem nil : Readable [] := ⟨nofun, nofun, .nil⟩

theorem singleton {word : Word} (h : word.Legible) (hplain : word.kind.isPlain = true)
    (hjoined : word.kind.isSeparator = false) : Readable [word] :=
  ⟨List.forall_mem_singleton.2 h, List.forall_mem_singleton.2 hjoined, .plain hplain .nil⟩

theorem name {word : Word} (h : word.isName = true) : Readable [word] := by
  have hkind : word.kind = .identifier ∨ word.kind = .typeIdentifier := by
    unfold isName at h
    split at h
    · cases h
    · simp only [Bool.and_eq_true, Bool.or_eq_true, beq_iff_eq] at h
      exact h.1.2
  refine singleton (legible_of_isName h) ?_ ?_ <;> rcases hkind with hkind | hkind <;> rw [hkind] <;> rfl

theorem append (h : Readable words) (h' : Readable more) : Readable (words ++ more) :=
  ⟨List.forall_mem_append.2 ⟨h.legible, h'.legible⟩, List.forall_mem_append.2 ⟨h.joined, h'.joined⟩, by
    rw [List.map_append]; exact h.nested.append h'.nested⟩

theorem enclosed (bracket : Bracket) (h : Readable words) : Readable (Word.enclosed bracket words) := by
  refine ⟨List.forall_mem_cons.2 ⟨legible_opener bracket, List.forall_mem_append.2
    ⟨h.legible, List.forall_mem_singleton.2 (legible_closer bracket)⟩⟩, List.forall_mem_cons.2 ⟨rfl,
    List.forall_mem_append.2 ⟨h.joined, List.forall_mem_singleton.2 rfl⟩⟩, ?_⟩
  rw [Word.enclosed, List.map_cons, List.map_append]
  exact .pair bracket h.nested .nil

theorem comma : Readable [Word.comma] := singleton legible_comma rfl rfl

theorem intercalate {parts : List (List Word)} (h : ∀ part ∈ parts, Readable part) :
    Readable (List.intercalate [Word.comma] parts) := by
  induction parts with
  | nil => exact nil
  | cons part parts ih =>
    obtain ⟨hpart, hparts⟩ := List.forall_mem_cons.1 h
    cases parts with
    | nil =>
      rw [List.intercalate_singleton]
      exact hpart
    | cons next parts =>
      rw [List.intercalate_cons_cons]
      exact (hpart.append comma).append (ih hparts)

theorem flatMap {α : Type} {elements : List α} {wordsOf : α → List Word}
    (h : ∀ element ∈ elements, Readable (wordsOf element)) : Readable (elements.flatMap wordsOf) := by
  induction elements with
  | nil => exact nil
  | cons element elements ih =>
    rw [List.forall_mem_cons] at h
    rw [List.flatMap_cons]
    exact h.1.append (ih h.2)

end Readable

end Word

/-- How deep a list of words nests is bounded by what bounds each of them. -/
theorem foldr_max_le_iff {depths : List Nat} {first bound : Nat} :
    depths.foldr max first ≤ bound ↔ first ≤ bound ∧ ∀ depth ∈ depths, depth ≤ bound := by
  induction depths with
  | nil => simp
  | cons depth depths ih => rw [List.foldr_cons, Nat.max_le, ih, List.forall_mem_cons, and_left_comm]

/-! ### Written texts -/

/-- A text of words. Blanks may stand in front of each word and at the end, and have to where two words
would be read as one. -/
inductive Written : List Word → List Char → Prop
  | nil {gap : List Char} (hgap : gap.all Lexeme.isBlank = true) : Written [] gap
  | cons {gap more : List Char} {word : Word} {words : List Word}
      (hgap : gap.all Lexeme.isBlank = true) (hstops : more.head?.any word.goesOn = false)
      (hmore : Written words more) : Written (word :: words) (gap ++ (word.value.toList ++ more))

/-- One space in front of every word. -/
def Word.spaced (words : List Word) : List Char := words.flatMap fun word => ' ' :: word.value.toList

theorem written_spaced (words : List Word) : Written words (Word.spaced words) := by
  induction words with
  | nil => exact .nil rfl
  | cons word words ih =>
    have hspace : word.goesOn ' ' = false := by
      unfold Word.goesOn
      split <;> decide
    have hstops : (Word.spaced words).head?.any word.goesOn = false := by
      cases words with
      | nil => rfl
      | cons => exact hspace
    exact .cons (show [' '].all Lexeme.isBlank = true from rfl) hstops ih

namespace LexState

variable {file : String} {words : List Word} {text : List Char}

/-- Reading a word adds it to what has been read. -/
theorem step_word {state : LexState} {word : Word} {lexeme : Lexeme} {first : Char} {rest more : List Char}
    (hword : word.IsReadAs lexeme)
    (hscan : Lexeme.scan first (rest ++ more) = .ok { lexeme := lexeme, extra := rest.length })
    (hfits : ∀ bracket, word.kind = .closer bracket → ∃ outer, state.brackets = bracket :: outer) :
    ∃ next, state.step file first (rest ++ more) = .ok (next, rest.length) ∧
      next.brackets = openAfter state.brackets word.kind ∧
      next.tokens.toList.map Token.word = state.tokens.toList.map Token.word ++ [word] := by
  unfold step
  rw [hscan]
  dsimp only
  generalize state.spanOf file lexeme (first :: (rest ++ more).take rest.length) = span
  cases hword with
  | token hplain =>
    refine ⟨_, rfl, (openAfter_plain _ hplain).symm, ?_⟩
    rw [push, Array.toList_push, List.map_append]
    rfl
  | opener bracket =>
    refine ⟨_, rfl, rfl, ?_⟩
    rw [push, Array.toList_push, List.map_append]
    rfl
  | closer bracket =>
    obtain ⟨outer, houter⟩ := hfits bracket rfl
    unfold brackets at houter
    cases hopened : state.opened with
    | nil =>
      rw [hopened] at houter
      cases houter
    | cons innermost opened =>
      rw [hopened, List.map_cons] at houter
      obtain ⟨hfit, -⟩ := List.cons.inj houter
      unfold record
      dsimp only
      rw [hopened]
      dsimp only
      rw [if_pos hfit]
      refine ⟨_, rfl, ?_, ?_⟩
      · rw [brackets, brackets, hopened]
        rfl
      · rw [push, Array.toList_push, List.map_append]
        rfl

/-- Reading a text of words adds the words to what has been read. -/
theorem exists_turns_of_written (h : Written words text) (hlegible : ∀ word ∈ words, word.Legible)
    (state : LexState) (hfits : ∀ before bracket after,
      words.map Word.kind = before ++ .closer bracket :: after →
        ∃ outer, before.foldl openAfter state.brackets = bracket :: outer) :
    ∃ count last, Turns file count state text last [] ∧
      last.brackets = (words.map Word.kind).foldl openAfter state.brackets ∧
      last.tokens.toList.map Token.word = state.tokens.toList.map Token.word ++ words := by
  induction h generalizing state with
  | @nil gap hgap =>
    obtain ⟨count, last, hturns, htokens, hbrackets, -⟩ := exists_gapTurns state hgap [] rfl
    rw [List.append_nil] at hturns
    exact ⟨count, last, hturns, hbrackets, by rw [htokens, List.append_nil]⟩
  | @cons gap more word words hgap hstops hmore ih =>
    obtain ⟨lexeme, first, rest, hread, hvalue, hblank, hscan⟩ := hlegible word List.mem_cons_self
    obtain ⟨count, mid, hturns, htokens, hbrackets, -⟩ :=
      exists_gapTurns state hgap (word.value.toList ++ more) (by rw [hvalue]; exact hblank)
    have hcloser : ∀ bracket, word.kind = .closer bracket → ∃ outer, mid.brackets = bracket :: outer := by
      intro bracket hkind
      rw [hbrackets]
      exact hfits [] bracket _ (by rw [List.map_cons, hkind]; rfl)
    obtain ⟨next, hstep, hnext, hadded⟩ := step_word hread (hscan more hstops) hcloser
    obtain ⟨count', last, hrest, hlast, hall⟩ := ih (fun word hmem => hlegible word (List.mem_cons_of_mem _ hmem))
      next fun before bracket after hsplit => by
        obtain ⟨outer, houter⟩ := hfits (word.kind :: before) bracket after (by rw [List.map_cons, hsplit]; rfl)
        exact ⟨outer, by rw [hnext, hbrackets]; exact houter⟩
    have hdrop : (rest ++ more).drop rest.length = more := List.drop_left
    rw [← hdrop] at hrest
    rw [hvalue] at hturns ⊢
    obtain ⟨total, hturns⟩ := hturns.trans (.more hstep hrest)
    refine ⟨total, last, hturns, ?_, ?_⟩
    · rw [hlast, hnext, hbrackets]
      rfl
    · rw [hall, hadded, htokens, List.append_assoc]
      rfl

end LexState

/-! ### Words in a stream -/

namespace TokenStream

/-- The words from a place on. -/
def Holds (stream : TokenStream) : Nat → List Word → Prop
  | _, [] => True
  | start, word :: words => (stream.token start).word = word ∧ Holds stream (start + 1) words

instance Holds.decidable (stream : TokenStream) :
    (start : Nat) → (words : List Word) → Decidable (stream.Holds start words)
  | _, [] => inferInstanceAs (Decidable True)
  | start, word :: words =>
    have := Holds.decidable stream (start + 1) words
    inferInstanceAs (Decidable ((stream.token start).word = word ∧ stream.Holds (start + 1) words))

variable {stream : TokenStream} {start : Nat} {words : List Word}

theorem holds_append {more : List Word} : stream.Holds start (words ++ more) ↔
    stream.Holds start words ∧ stream.Holds (start + words.length) more := by
  induction words generalizing start with
  | nil => exact ⟨fun h => ⟨trivial, h⟩, fun h => h.2⟩
  | cons word words ih =>
    rw [List.cons_append, Holds, Holds, ih, and_assoc, List.length_cons, Nat.add_right_comm, Nat.add_assoc]

theorem Holds.kind {word : Word} (h : stream.Holds start (word :: words)) : stream.kind start = word.kind :=
  congrArg Word.kind h.1

theorem Holds.value {word : Word} (h : stream.Holds start (word :: words)) :
    (stream.token start).value = word.value :=
  congrArg Word.value h.1

theorem Holds.enclosed {bracket : Bracket} :
    stream.Holds start (Word.enclosed bracket words) → stream.kind start = .opener bracket ∧
      stream.Holds (start + 1) words ∧ stream.kind (start + 1 + words.length) = .closer bracket := by
  intro ⟨hopen, hrest⟩
  obtain ⟨hwords, hclose⟩ := holds_append.1 hrest
  exact ⟨congrArg Word.kind hopen, hwords, hclose.kind⟩

theorem holds_of_getElem? (h : ∀ i (hlt : i < words.length), (stream.token (start + i)).word = words[i]) :
    stream.Holds start words := by
  induction words generalizing start with
  | nil => trivial
  | cons word words ih =>
    refine ⟨h 0 (Nat.succ_pos _), ih fun i hlt => ?_⟩
    rw [Nat.add_assoc, Nat.add_comm 1 i]
    exact h (i + 1) (Nat.succ_lt_succ hlt)

theorem Holds.getElem (h : stream.Holds start words) {i : Nat} (hlt : i < words.length) :
    (stream.token (start + i)).word = words[i] := by
  induction words generalizing start i with
  | nil => cases hlt
  | cons word words ih =>
    cases i with
    | zero => exact h.1
    | succ i =>
      rw [List.getElem_cons_succ, ← ih h.2 (Nat.lt_of_succ_lt_succ hlt), Nat.add_right_comm, Nat.add_assoc]

theorem Holds.exists_word {position : Nat} (h : stream.Holds start words) (hle : start ≤ position)
    (hlt : position < start + words.length) : ∃ word ∈ words, stream.kind position = word.kind := by
  induction words generalizing start with
  | nil => exact absurd hlt (Nat.not_lt_of_le hle)
  | cons word words ih =>
    rcases Nat.eq_or_lt_of_le hle with rfl | hlt'
    · exact ⟨word, List.mem_cons_self, h.kind⟩
    · rw [List.length_cons, Nat.add_comm _ 1, ← Nat.add_assoc] at hlt
      obtain ⟨found, hmem, hkind⟩ := ih h.2 hlt' hlt
      exact ⟨found, List.mem_cons_of_mem _ hmem, hkind⟩

/-- A text of which words have been read holds these words, and the end of the file. -/
theorem exists_of_turns {text file : String} {count : Nat} {last : LexState}
    (hturns : LexState.Turns file count .initial text.toList last []) (hbrackets : last.brackets = [])
    (hwords : last.tokens.toList.map Token.word = words) :
    ∃ tokens stream, Token.ofText text file = .ok tokens ∧ TokenStream.ofTokens? tokens = some stream ∧
      stream.Holds 0 words ∧ ∀ position, words.length ≤ position → stream.kind position = .endOfFile := by
  have hopened : last.opened = [] := List.map_eq_nil_iff.1 hbrackets
  have htext : Token.ofText text file = .ok (last.tokens.push (.endAt file last.position)) := by
    rw [Token.ofText, LexRun.toExcept, LexRun.ofText, LexState.run_of_turns hturns hopened]
  obtain ⟨stream, hstream, htokens, -⟩ := TokenStream.exists_of_ofText htext
  have hsize : last.tokens.size = words.length := by
    rw [← Array.length_toList, ← List.length_map Token.word, hwords]
  refine ⟨_, stream, htext, hstream, holds_of_getElem? fun i hlt => ?_, fun position hle => ?_⟩
  · have hi : i < last.tokens.size := hsize ▸ hlt
    rw [Nat.zero_add, token, htokens, Array.getElem?_push_lt hi, Option.getD_some]
    rw [← List.getElem_of_eq hwords (by rw [hwords]; exact hlt), List.getElem_map, Array.getElem_toList]
  · rcases Nat.eq_or_lt_of_le hle with rfl | hlt
    · rw [kind, token, htokens, ← hsize, Array.getElem?_push_size]
      rfl
    · exact kind_of_size_le (by rw [size, htokens, Array.size_push, hsize]; exact hlt)

/-- A text of readable words is read as these words, and the end of the file. -/
theorem exists_of_written {text : String} (file : String) (h : Written words text.toList)
    (hreadable : Word.Readable words) :
    ∃ tokens stream, Token.ofText text file = .ok tokens ∧ TokenStream.ofTokens? tokens = some stream ∧
      stream.Holds 0 words ∧ stream.kind words.length = .endOfFile ∧
      ∀ position, (stream.kind position).isSeparator = false := by
  obtain ⟨count, last, hturns, hbrackets, hwords⟩ := LexState.exists_turns_of_written h hreadable.legible .initial
    fun before bracket after hsplit => hreadable.nested.closer_fits _ hsplit
  rw [TokenStream.foldl_openAfter_wellNested hreadable.nested] at hbrackets
  obtain ⟨tokens, stream, hlexes, hstream, hholds, hend⟩ := exists_of_turns hturns hbrackets hwords
  refine ⟨tokens, stream, hlexes, hstream, hholds, hend _ (Nat.le_refl _), fun position => ?_⟩
  rcases Nat.lt_or_ge position words.length with hlt | hle
  · obtain ⟨word, hmem, hkind⟩ := hholds.exists_word (Nat.zero_le _) (by rwa [Nat.zero_add])
    rw [hkind]
    exact hreadable.joined word hmem
  · rw [hend position hle]
    rfl

/-! ### Words of lists -/

section

variable {α β γ : Type} {item : Nat → Nat → α → Prop} {elements : List β} {wordsOf : β → List Word}
  {onAnswer : α → γ} {onElement : β → γ}

/-- Words with commas between them are a list of what the words between the commas are. -/
theorem Holds.listed (h : stream.Holds start (List.intercalate [Word.comma] (elements.map wordsOf)))
    (hne : elements ≠ []) (hitem : ∀ element ∈ elements, ∀ {place}, start ≤ place →
      place + (wordsOf element).length ≤
        start + (List.intercalate [Word.comma] (elements.map wordsOf)).length →
      stream.Holds place (wordsOf element) → ∃ answer, onAnswer answer = onElement element ∧
        item place (place + (wordsOf element).length) answer) :
    ∃ answers, answers.map onAnswer = elements.map onElement ∧
      stream.Listed item start
        (start + (List.intercalate [Word.comma] (elements.map wordsOf)).length) answers := by
  induction elements generalizing start with
  | nil => exact absurd rfl hne
  | cons element rest ih =>
    cases rest with
    | nil =>
      simp only [List.map_singleton, List.intercalate_singleton] at h hitem ⊢
      obtain ⟨answer, hanswer, hread⟩ :=
        hitem element (List.mem_singleton_self _) (Nat.le_refl _) (Nat.le_refl _) h
      exact ⟨[answer], congrArg (fun value => [value]) hanswer, .one hread⟩
    | cons next rest =>
      have hlength : (List.intercalate [Word.comma] ((element :: next :: rest).map wordsOf)).length =
          (wordsOf element).length + 1 +
            (List.intercalate [Word.comma] ((next :: rest).map wordsOf)).length := by
        rw [List.map_cons, List.map_cons, List.intercalate_cons_cons, List.length_append,
          List.length_append, List.length_singleton]
      rw [hlength] at hitem ⊢
      rw [List.map_cons, List.map_cons, List.intercalate_cons_cons, List.append_assoc, holds_append,
        List.singleton_append] at h
      obtain ⟨hfirst, hcomma, hrest⟩ := h
      obtain ⟨answer, hanswer, hread⟩ := hitem element List.mem_cons_self (Nat.le_refl _) (by omega) hfirst
      obtain ⟨answers, hanswers, hlisted⟩ := ih hrest (List.cons_ne_nil _ _)
        fun element hmem _ hle hfits => hitem element (List.mem_cons_of_mem _ hmem) (by omega) (by omega)
      refine ⟨answer :: answers, ?_, .more hread (congrArg Word.kind hcomma) ?_⟩
      · rw [List.map_cons, List.map_cons, hanswer, hanswers]
      · rwa [← Nat.add_assoc, ← Nat.add_assoc]

theorem Holds.repeated (h : stream.Holds start (elements.flatMap wordsOf))
    (hitem : ∀ element ∈ elements, ∀ {place}, start ≤ place →
      place + (wordsOf element).length ≤ start + (elements.flatMap wordsOf).length →
      stream.Holds place (wordsOf element) → ∃ answer, onAnswer answer = onElement element ∧
        item place (place + (wordsOf element).length) answer) :
    ∃ answers, answers.map onAnswer = elements.map onElement ∧
      Repeated item start (start + (elements.flatMap wordsOf).length) answers := by
  induction elements generalizing start with
  | nil => exact ⟨[], rfl, .none _⟩
  | cons element rest ih =>
    rw [List.flatMap_cons, List.length_append] at hitem ⊢
    rw [List.flatMap_cons, holds_append] at h
    obtain ⟨answer, hanswer, hread⟩ := hitem element List.mem_cons_self (Nat.le_refl _) (by omega) h.1
    obtain ⟨answers, hanswers, hrepeated⟩ := ih h.2 fun element hmem _ hle hfits =>
      hitem element (List.mem_cons_of_mem _ hmem) (by omega) (by omega)
    refine ⟨answer :: answers, ?_, .more hread ?_⟩
    · rw [List.map_cons, List.map_cons, hanswer, hanswers]
    · rwa [← Nat.add_assoc]

end

end TokenStream

end SableFrontend
