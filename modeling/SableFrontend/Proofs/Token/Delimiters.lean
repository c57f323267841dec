import SableFrontend.Proofs.Token.LineBreaks

/-!
What a text without a fault says about its delimiters. The lexer keeps a stack of what is open; the
stream counts it again from the tokens alone; and whether a line break is a token depends on it.
All three agree, because every turn of the lexer keeps the stack equal to the delimiters that the
tokens read so far leave open (`LexState.Delimited`).

`Lexeme.delimiters?` reads a text without any stack. It is what a text with well-formed lexemes
shows of its delimiters, and `LexRun.delimiters_ofText` says that such a text has no tokens exactly
if that word is not well nested.
-/

namespace SableFrontend

/-! ### Words of delimiters -/

/-- The delimiters among the kinds of tokens. -/
def TokenKind.isDelimiter (kind : TokenKind) : Bool := kind.isOpener || kind.isCloser

theorem openAfter_of_not_isDelimiter {kind : TokenKind} (h : kind.isDelimiter = false)
    (opened : List Bracket) : openAfter opened kind = opened := by
  cases kind <;> first | rfl | cases h

theorem openBrackets_filter (kinds : List TokenKind) :
    openBrackets (kinds.filter TokenKind.isDelimiter) = openBrackets kinds := by
  unfold openBrackets
  generalize ([] : List Bracket) = opened
  induction kinds generalizing opened with
  | nil => rfl
  | cons kind rest ih =>
    cases hkind : kind.isDelimiter with
    | true => rw [List.filter_cons_of_pos hkind, List.foldl_cons, List.foldl_cons, ih]
    | false =>
      rw [List.filter_cons_of_neg (by simp [hkind]), List.foldl_cons,
        openAfter_of_not_isDelimiter hkind, ih]

namespace WellNested

theorem filter {kinds : List TokenKind} (h : WellNested kinds) :
    WellNested (kinds.filter TokenKind.isDelimiter) := by
  induction h with
  | nil => exact .nil
  | @plain kind rest hkind _ ih =>
    cases kind <;> first | exact ih | cases hkind
  | pair bracket _ _ ihinside ihrest =>
    rw [List.filter_cons_of_pos rfl, List.filter_append, List.filter_cons_of_pos rfl]
    exact .pair bracket ihinside ihrest

/-- Every closer of such a word fits what is open in front of it. -/
theorem closer_fits {kinds : List TokenKind} (h : WellNested kinds) (opened : List Bracket)
    {before after : List TokenKind} {bracket : Bracket}
    (hsplit : kinds = before ++ .closer bracket :: after) :
    ∃ outer, before.foldl openAfter opened = bracket :: outer := by
  induction h generalizing opened before after with
  | nil => cases before <;> cases hsplit
  | plain hkind _ ih =>
    rcases List.cons_eq_append_iff.1 hsplit with ⟨-, hcloser⟩ | ⟨before, rfl, hrest⟩
    · rw [← (List.cons.inj hcloser).1] at hkind
      cases hkind
    · rw [List.foldl_cons, openAfter_plain opened hkind]
      exact ih opened hrest
  | pair own hinside _ ihinside ihrest =>
    rcases List.cons_eq_append_iff.1 hsplit with ⟨-, hcloser⟩ | ⟨before, rfl, hrest⟩
    · cases (List.cons.inj hcloser).1
    rw [List.foldl_cons]
    -- the closer stands inside the first pair, ends it, or stands behind it
    rcases List.append_eq_append_iff.1 hrest with ⟨middle, rfl, hmiddle⟩ | ⟨middle, hinner, hmiddle⟩
    · rw [List.foldl_append, TokenStream.foldl_openAfter_wellNested hinside]
      rcases List.cons_eq_append_iff.1 hmiddle with ⟨rfl, hcloser⟩ | ⟨middle, rfl, hafter⟩
      · cases (List.cons.inj hcloser).1
        exact ⟨opened, rfl⟩
      · exact ihrest opened hafter
    · rcases List.cons_eq_append_iff.1 hmiddle with ⟨rfl, hcloser⟩ | ⟨middle, rfl, -⟩
      · rw [List.append_nil] at hinner
        cases (List.cons.inj hcloser).1
        rw [← hinner, TokenStream.foldl_openAfter_wellNested hinside]
        exact ⟨opened, rfl⟩
      · exact ihinside (own :: opened) hinner

end WellNested

/-- The delimiters among tokens. -/
def delimiterKinds (tokens : List Token) : List TokenKind :=
  (tokens.map Token.kind).filter TokenKind.isDelimiter

@[simp] theorem delimiterKinds_concat (tokens : List Token) (token : Token) :
    delimiterKinds (tokens ++ [token]) =
      delimiterKinds tokens ++ [token.kind].filter TokenKind.isDelimiter := by
  simp [delimiterKinds]

theorem openBrackets_delimiterKinds (tokens : List Token) :
    openBrackets (delimiterKinds tokens) = openBrackets (tokens.map Token.kind) :=
  openBrackets_filter _

/-! ### Reading without a stack -/

namespace Lexeme

/-- The kind of a lexeme that is a delimiter. -/
def delimiter? : Lexeme → Option TokenKind
  | opener bracket => some (.opener bracket)
  | closer bracket => some (.closer bracket)
  | _ => none

/-- The delimiters of a text, whether they fit or not; nothing if one of its lexemes is not well
formed. -/
def delimiters? (text : List Char) : Option (List TokenKind) :=
  match text with
  | [] => some []
  | first :: rest =>
    match scan first rest with
    | .ok scanned =>
      (delimiters? (rest.drop scanned.extra)).map (scanned.lexeme.delimiter?.toList ++ ·)
    | .error _ => none
termination_by text.length
decreasing_by
  simp only [List.length_cons, List.length_drop]
  omega

theorem delimiters?_of_scan {first : Char} {rest : List Char} {scanned : ScannedLexeme}
    (h : scan first rest = .ok scanned) : delimiters? (first :: rest) =
      (delimiters? (rest.drop scanned.extra)).map (scanned.lexeme.delimiter?.toList ++ ·) := by
  rw [delimiters?, h]

theorem exists_scan_of_delimiters? {first : Char} {rest : List Char} {word : List TokenKind}
    (h : delimiters? (first :: rest) = some word) :
    ∃ scanned more, scan first rest = .ok scanned ∧
      delimiters? (rest.drop scanned.extra) = some more ∧
      word = scanned.lexeme.delimiter?.toList ++ more := by
  cases hscan : scan first rest with
  | error fault =>
    rw [delimiters?, hscan] at h
    cases h
  | ok scanned =>
    rw [delimiters?_of_scan hscan] at h
    obtain ⟨more, hmore, rfl⟩ := Option.map_eq_some_iff.1 h
    exact ⟨scanned, more, rfl, hmore, rfl⟩

end Lexeme

namespace LexState

variable {file : String}

/-- One turn adds the delimiter of its lexeme to those among the tokens, and nothing else. -/
theorem Records.delimiterKinds_eq {state recorded : LexState} {lexeme : Lexeme} {span : Span}
    {text : List Char} (hrecords : state.Records lexeme span recorded) (hshows : lexeme.Shows text) :
    delimiterKinds recorded.tokens.toList =
      delimiterKinds state.tokens.toList ++ lexeme.delimiter?.toList := by
  cases hrecords with
  | skipped kind hlexeme => rcases hlexeme with rfl | ⟨rfl, -⟩ <;> simp [skip, Lexeme.delimiter?]
  | newline hlexeme =>
    subst hlexeme
    simp [push, Lexeme.delimiter?, TokenKind.isDelimiter, TokenKind.isOpener, TokenKind.isCloser]
  | token kind value hlexeme =>
    subst hlexeme
    have hplain := hshows.1
    have hnone : kind.isDelimiter = false := by cases kind <;> first | rfl | cases hplain
    simp [push, Lexeme.delimiter?, hnone]
  | opener bracket hlexeme =>
    subst hlexeme
    simp [push, Lexeme.delimiter?, TokenKind.isDelimiter, TokenKind.isOpener]
  | closer innermost outer hopened hlexeme =>
    subst hlexeme
    simp [push, Lexeme.delimiter?, TokenKind.isDelimiter, TokenKind.isCloser]

/-- A turn moves the delimiter of its lexeme from what is to be read to what has been read. -/
theorem step_delimiters {state next : LexState} {first : Char} {rest : List Char} {extra : Nat}
    {word : List TokenKind} (hstep : state.step file first rest = .ok (next, extra))
    (h : Lexeme.delimiters? (first :: rest) = some word) :
    ∃ more, Lexeme.delimiters? (rest.drop extra) = some more ∧
      delimiterKinds state.tokens.toList ++ word = delimiterKinds next.tokens.toList ++ more := by
  obtain ⟨lexeme, recorded, hscan, hrecords, rfl⟩ := step_eq_ok hstep
  obtain ⟨scanned, more, hscan', hmore, rfl⟩ := Lexeme.exists_scan_of_delimiters? h
  cases hscan.symm.trans hscan'
  refine ⟨more, hmore, ?_⟩
  rw [hrecords.delimiterKinds_eq (Lexeme.scan_shows hscan), List.append_assoc]

/-- What has been read and what is still to be read make up the delimiters of the text. -/
theorem Turns.delimiters {count : Nat} {state last : LexState} {text left : List Char}
    {word : List TokenKind} (h : Turns file count state text last left)
    (htext : Lexeme.delimiters? text = some word) :
    ∃ more, Lexeme.delimiters? left = some more ∧
      delimiterKinds state.tokens.toList ++ word = delimiterKinds last.tokens.toList ++ more :=
  h.invariant
    (motive := fun last left => ∃ more, Lexeme.delimiters? left = some more ∧
      delimiterKinds state.tokens.toList ++ word = delimiterKinds last.tokens.toList ++ more)
    (fun _ _ _ _ _ hstep ⟨_, hleft, heq⟩ =>
      let ⟨ahead, hahead, hsame⟩ := step_delimiters hstep hleft
      ⟨ahead, hahead, heq.trans hsame⟩)
    ⟨word, htext, rfl⟩

/-- A text that has been read to its end has well-formed lexemes. -/
theorem Turns.exists_delimiters {count : Nat} {state last : LexState} {text : List Char}
    (h : Turns file count state text last []) : ∃ word, Lexeme.delimiters? text = some word := by
  generalize hleft : ([] : List Char) = left at h
  induction h with
  | none =>
    subst hleft
    exact ⟨[], by rw [Lexeme.delimiters?]⟩
  | more hstep _ ih =>
    obtain ⟨lexeme, recorded, hscan, -, -⟩ := step_eq_ok hstep
    obtain ⟨word, hword⟩ := ih hleft
    exact ⟨_, by rw [Lexeme.delimiters?_of_scan hscan, hword]; rfl⟩

/-- A fault in front of a well-formed lexeme is a closer that does not fit. -/
theorem step_error_closer {state : LexState} {first : Char} {rest : List Char} {error : LexError}
    {scanned : ScannedLexeme} (hscan : Lexeme.scan first rest = .ok scanned)
    (h : state.step file first rest = .error error) :
    ∃ bracket, scanned.lexeme = .closer bracket ∧ state.brackets.head? ≠ some bracket := by
  unfold step at h
  rw [hscan] at h
  dsimp only at h
  split at h
  · cases h
  · next hrecord =>
    unfold record at hrecord
    unfold brackets
    split at hrecord <;> try cases hrecord
    · split at hrecord <;> cases hrecord
    · next bracket hlexeme =>
      split at hrecord
      · next hopened => exact ⟨bracket, hlexeme, by simp [hopened]⟩
      · next hopened =>
        split at hrecord
        · cases hrecord
        · next hmismatch => exact ⟨bracket, hlexeme, by simpa [hopened] using hmismatch⟩

end LexState

/-! ### When a text of well-formed lexemes has no tokens -/

/-- The delimiters that are open after a part of a text are those that its word leaves open. -/
theorem LexState.Delimited.brackets_word {state : LexState} (h : state.Delimited) :
    openBrackets (delimiterKinds state.tokens.toList) = state.brackets := by
  rw [openBrackets_delimiterKinds, ← h.brackets_eq]
  rfl

theorem LexRun.Ends.error_iff {file : String} {count : Nat} {last : LexState}
    {text left : List Char} {run : LexRun} {word : List TokenKind}
    (h : LexRun.Ends file last left run)
    (hturns : LexState.Turns file count .initial text last left)
    (htext : Lexeme.delimiters? text = some word)
    (hsettled : run.error? = none → WellNested word) :
    (∃ error, run.error? = some error) ↔ ¬ WellNested word := by
  have hbrackets := hturns.delimited.brackets_word
  obtain ⟨more, hmore, hword⟩ := hturns.delimiters htext
  have hword : word = delimiterKinds last.tokens.toList ++ more := hword
  cases h with
  | settled hopened =>
    refine ⟨fun ⟨error, herror⟩ => ?_, fun hill => absurd (hsettled rfl) hill⟩
    cases herror
  | unclosed innermost outer hopened =>
    refine ⟨fun _ hwell => ?_, fun _ => ⟨_, rfl⟩⟩
    -- a well-nested word would leave nothing open
    rw [Lexeme.delimiters?] at hmore
    obtain rfl := Option.some.inj hmore
    rw [hword, List.append_nil] at hwell
    have hnone := TokenStream.foldl_openAfter_wellNested hwell []
    rw [← openBrackets, hbrackets, LexState.brackets, hopened] at hnone
    exact List.cons_ne_nil _ _ hnone
  | fault hstep =>
    refine ⟨fun _ hwell => ?_, fun _ => ⟨_, rfl⟩⟩
    obtain ⟨scanned, rest, hscan, -, rfl⟩ := Lexeme.exists_scan_of_delimiters? hmore
    obtain ⟨bracket, hlexeme, hunfit⟩ := LexState.step_error_closer hscan hstep
    rw [hlexeme] at hword
    obtain ⟨outer, hfits⟩ := hwell.closer_fits [] hword
    rw [← openBrackets, hbrackets] at hfits
    exact hunfit (by rw [hfits, List.head?_cons])

/-! ### The tokens of the lexer and the depths of the stream -/

/-- The next turn reads a token; behind the end of the text that is the end of the file. -/
inductive LexState.Emits (file : String) (state : LexState) : List Char → Token → Prop
  | turn {first : Char} {rest : List Char} {next : LexState} {extra : Nat} {token : Token}
      (hstep : state.step file first rest = .ok (next, extra))
      (htokens : next.tokens = state.tokens.push token) : Emits file state (first :: rest) token
  | finish (hopened : state.opened = []) : Emits file state [] (.endAt file state.position)

/-- Every token that has been read was read in some turn, behind exactly the tokens in front of
it. -/
theorem LexState.Turns.exists_emits {file : String} {count : Nat} {last : LexState}
    {text left : List Char} (h : Turns file count initial text last left) {index : Nat}
    {token : Token} (hget : last.tokens.toList[index]? = some token) :
    ∃ count state left, Turns file count initial text state left ∧
      state.tokens.toList = last.tokens.toList.take index ∧ Emits file state left token := by
  have hall := h.invariant
    (motive := fun last left => (∃ count, Turns file count initial text last left) ∧
      ∀ index token, last.tokens.toList[index]? = some token →
        ∃ count state left, Turns file count initial text state left ∧
          state.tokens.toList = last.tokens.toList.take index ∧ Emits file state left token) ?_
    ⟨⟨0, .none _ _⟩, fun index token hget => by cases hget⟩
  · exact hall.2 index token hget
  rintro state first rest next extra hstep ⟨⟨count, hturns⟩, hbefore⟩
  refine ⟨hturns.trans (.more hstep (.none _ _)), fun index token hget => ?_⟩
  obtain ⟨lexeme, recorded, -, hrecords, rfl⟩ := step_eq_ok hstep
  rcases hrecords.push_or_skip with ⟨added, htokens, -⟩ | ⟨htokens, -⟩
  · dsimp only at hget ⊢
    rw [htokens, Array.toList_push] at hget ⊢
    rcases Nat.lt_or_ge index state.tokens.toList.length with hlt | hge
    · rw [List.getElem?_append_left hlt] at hget
      rw [List.take_append_of_le_length (Nat.le_of_lt hlt)]
      exact hbefore index token hget
    · -- the token that this turn adds
      rw [List.getElem?_append_right hge, List.getElem?_singleton] at hget
      split at hget
      · next hzero =>
        cases hget
        obtain rfl : index = state.tokens.toList.length := by omega
        rw [List.take_left]
        exact ⟨count, state, _, hturns, rfl, .turn hstep htokens⟩
      · cases hget
  · dsimp only at hget ⊢
    rw [htokens] at hget ⊢
    exact hbefore index token hget

/-- The depths of tokens as plain sums, below zero where a closer has no opener. -/
def signedDepths (depth : Int) : List Token → List Int
  | [] => []
  | token :: rest =>
    if token.kind.isOpener then depth :: signedDepths (depth + 1) rest
    else if token.kind.isCloser then depth :: signedDepths (depth - 1) rest
    else depth :: signedDepths depth rest

/-- Where every closer finds something open, the depths are plain sums. -/
theorem signedDepths_eq (opened : List Bracket) (tokens : List Token)
    (hfits : ∀ before bracket after, tokens.map Token.kind = before ++ .closer bracket :: after →
      before.foldl openAfter opened ≠ []) :
    (bracketDepths opened.length tokens).map Int.ofNat = signedDepths opened.length tokens := by
  induction tokens generalizing opened with
  | nil => rfl
  | cons token rest ih =>
    have hrest := ih (openAfter opened token.kind) fun before bracket after hsplit =>
      hfits (token.kind :: before) bracket after (by rw [List.map_cons, hsplit]; rfl)
    cases hkind : token.kind with
    | opener bracket =>
      rw [hkind, openAfter, List.length_cons] at hrest
      simp only [bracketDepths, signedDepths, hkind, TokenKind.isOpener, if_true, List.map_cons,
        hrest]
      rfl
    | closer bracket =>
      have hne := hfits [] bracket (rest.map Token.kind) (by rw [List.map_cons, hkind]; rfl)
      rw [List.foldl_nil] at hne
      have hpositive := List.length_pos_iff.2 hne
      rw [hkind, openAfter, List.length_tail] at hrest
      simp only [bracketDepths, signedDepths, hkind, TokenKind.isOpener, TokenKind.isCloser,
        Bool.false_eq_true, if_false, if_true, List.map_cons, hrest]
      rw [Int.natCast_sub hpositive]
      rfl
    | _ =>
      rw [hkind, openAfter] at hrest
      · simp only [bracketDepths, signedDepths, hkind, TokenKind.isOpener, TokenKind.isCloser,
          Bool.false_eq_true, if_false, List.map_cons, hrest]
        rfl
      all_goals rintro _ ⟨⟩

theorem TokenStream.ofTokens?_eq_some {tokens : Array Token} {stream : TokenStream}
    (h : ofTokens? tokens = some stream) : stream.tokens = tokens ∧
      stream.depths = (bracketDepths 0 tokens.toList).toArray := by
  unfold ofTokens? at h
  split at h
  · cases h
  · split at h
    · cases h
      exact ⟨rfl, rfl⟩
    · cases h

/-! ### Whole texts -/

/-- What the lexer, the tokens and the stream of a text agree on about its delimiters:

* they are well nested, and they are what the lexemes of the text show;
* every line break outside of comments is where the innermost open delimiter sends it;
* the depth of a token is the number of delimiters that were open in the lexer when it was read, in
  front of the token, so a closer is one deeper than its opener and nothing is open at the end;
* counting down never stops at zero for want of an opener. -/
structure LexRun.Delimits (text : List Char) (file : String) (run : LexRun)
    (stream : TokenStream) : Prop where
  wellNested : WellNested (delimiterKinds run.tokens.toList)
  shown : Lexeme.delimiters? text = some (delimiterKinds run.tokens.toList)
  breaks : ∀ offset : Nat, text[offset]? = some '\n' →
    RecordsBreak run.tokens.toList run.trivia.toList offset
  depth_eq : ∀ position < stream.size, ∃ count state left,
    LexState.Turns file count .initial text state left ∧
      state.tokens.toList = stream.tokens.toList.take position ∧
      state.Emits file left (stream.token position) ∧
      stream.depth position = state.opened.length
  closer_depth : ∀ position bracket, position < stream.size →
    stream.kind position = .closer bracket → ∃ start, start < position ∧
      stream.kind start = .opener bracket ∧
      WellNested (stream.kindsBetween (start + 1) position) ∧
      stream.depth position = stream.depth start + 1
  end_depth : stream.depth (stream.size - 1) = 0
  unclamped : stream.depths.toList.map Int.ofNat = signedDepths 0 stream.tokens.toList

namespace TokenStream.Balanced

variable {stream : TokenStream} (balanced : stream.Balanced)
include balanced

/-- A closer has an opener, and stands one deeper. -/
theorem exists_opener_of_closer {position : Nat} {bracket : Bracket}
    (hlt : position < stream.size) (hkind : stream.kind position = .closer bracket) :
    ∃ start, start < position ∧ stream.kind start = .opener bracket ∧
      WellNested (stream.kindsBetween (start + 1) position) ∧
      stream.depth position = stream.depth start + 1 := by
  obtain ⟨outer, hopened⟩ := balanced.closer_fits hlt hkind
  obtain ⟨start, hstart, hopener, houter, hwithin⟩ := balanced.exists_opener hlt hopened
  have hfirst : start < stream.size := Nat.lt_trans hstart hlt
  have hinner := opened_succ_opener hfirst hopener
  refine ⟨start, hstart, hopener, balanced.wellNested_kindsBetween hwithin ?_, ?_⟩
  · rw [hopened, hinner, houter]
  · rw [balanced.depth_eq hlt, balanced.depth_eq hfirst, hopened, houter, List.length_cons]

/-- The tokens in front of the end of the file are well nested. -/
theorem wellNested : WellNested (stream.kindsBetween 0 (stream.size - 1)) := by
  have hsize := stream.size_pos
  refine balanced.wellNested_kindsBetween ⟨Nat.zero_le _, by omega, fun k _ _ => ?_⟩ ?_
  · rw [opened_zero]
    exact List.nil_suffix
  · rw [balanced.settled, opened_zero]

end TokenStream.Balanced

namespace LexState

variable {file : String} {count : Nat} {last : LexState} {text : List Char}
  {stream : TokenStream}

/-- Each token of the stream of a text was read in some turn of the lexer. -/
theorem Turns.exists_emits_stream (hturns : Turns file count initial text last [])
    (hopened : last.opened = []) (htokens : stream.tokens = last.tokens.push (.endAt file last.position))
    {position : Nat} (hlt : position < stream.size) :
    ∃ count state left, Turns file count initial text state left ∧
      state.tokens.toList = stream.tokens.toList.take position ∧
      Emits file state left (stream.token position) := by
  have hget := TokenStream.getElem?_tokens hlt
  have hsize : stream.size = last.tokens.size + 1 := by
    rw [TokenStream.size, htokens, Array.size_push]
  rw [htokens, Array.toList_push]
  rcases Nat.lt_or_ge position last.tokens.size with hbefore | hge
  · rw [htokens, Array.getElem?_push_lt hbefore, ← Array.getElem?_eq_getElem hbefore,
      ← Array.getElem?_toList] at hget
    rw [List.take_append_of_le_length (by rw [Array.length_toList]; exact Nat.le_of_lt hbefore)]
    exact hturns.exists_emits hget
  · obtain rfl : position = last.tokens.size := by omega
    rw [htokens, Array.getElem?_push_size] at hget
    rw [List.take_left' (Array.length_toList ..), ← Option.some.inj hget]
    exact ⟨count, last, [], hturns, rfl, .finish hopened⟩

/-- A text that is read to its end with nothing open delimits as it should. -/
theorem Turns.delimits (hturns : Turns file count initial text last [])
    (hopened : last.opened = []) (balanced : stream.Balanced)
    (htokens : stream.tokens = last.tokens.push (.endAt file last.position))
    (hdepths : stream.depths = (bracketDepths 0 stream.tokens.toList).toArray) {run : LexRun}
    (hrun : run.tokens = stream.tokens) (htrivia : run.trivia = last.trivia) :
    run.Delimits text file stream := by
  have hsize : stream.size = last.tokens.size + 1 := by
    rw [TokenStream.size, htokens, Array.size_push]
  have hlast : run.tokens.toList = last.tokens.toList ++ [.endAt file last.position] := by
    rw [hrun, htokens, Array.toList_push]
  have hword : delimiterKinds run.tokens.toList = delimiterKinds last.tokens.toList := by
    rw [hlast, delimiterKinds_concat]
    exact List.append_nil _
  refine { wellNested := ?_, shown := ?_, breaks := fun offset hbreak => ?_,
           depth_eq := fun position hlt => ?_,
           closer_depth := fun position bracket => balanced.exists_opener_of_closer,
           end_depth := ?_, unclamped := ?_ }
  · have hnested := balanced.wellNested
    rw [TokenStream.kindsBetween_zero (Nat.sub_le ..), hsize, Nat.add_sub_cancel, htokens,
      Array.toList_push, List.take_left' (Array.length_toList ..)] at hnested
    rw [hword]
    exact hnested.filter
  · obtain ⟨word, hshown⟩ := hturns.exists_delimiters
    obtain ⟨more, hmore, hsplit⟩ := hturns.delimiters hshown
    rw [Lexeme.delimiters?] at hmore
    obtain rfl := Option.some.inj hmore
    rw [List.append_nil] at hsplit
    rw [hword, ← hsplit, hshown]
    rfl
  · have hoffset : last.position.offset = text.length := by
      have hlength := hturns.offset_add_length
      simpa [initial, Position.origin] using hlength
    have hlt : offset < text.length := (List.getElem?_eq_some_iff.1 hbreak).1
    have hrecorded := hturns.breaks.recorded offset (hoffset ▸ hlt) hbreak
    have hended : ∀ token ∈ [Token.endAt file last.position],
        (offset : Int) ≤ token.span.start := by
      simp only [List.mem_singleton, forall_eq, Token.endAt, Span.between]
      omega
    rw [hlast, htrivia, ← List.append_nil last.trivia.toList]
    exact hrecorded.append hended
  · obtain ⟨count, state, left, hstate, htake, hemits⟩ :=
      hturns.exists_emits_stream hopened htokens hlt
    refine ⟨count, state, left, hstate, htake, hemits, ?_⟩
    rw [balanced.depth_eq hlt, TokenStream.opened, ← htake, ← hstate.delimited.brackets_eq,
      List.length_map]
  · have hsize := stream.size_pos
    rw [balanced.depth_eq (by omega), balanced.settled, List.length_nil]
  · have hfitting : Fitting (stream.tokens.toList.map Token.kind) := by
      rw [htokens, Array.toList_push, List.map_append]
      exact hturns.delimited.fitting.concat_plain rfl
    rw [hdepths]
    exact signedDepths_eq [] stream.tokens.toList fun before bracket after hsplit hnone => by
      obtain ⟨outer, hopens⟩ := hfitting before bracket after hsplit
      rw [openBrackets, hnone] at hopens
      cases hopens

end LexState

/-- The run over a text that has tokens delimits as it should. -/
theorem LexRun.exists_delimits {text file : String} {tokens : Array Token}
    (h : Token.ofText text file = .ok tokens) :
    ∃ stream, TokenStream.ofTokens? tokens = some stream ∧
      (LexRun.ofText text file).Delimits text.toList file stream := by
  obtain ⟨stream, hstream, -, balanced⟩ := TokenStream.exists_of_ofText h
  obtain ⟨htokens, hdepths⟩ := TokenStream.ofTokens?_eq_some hstream
  refine ⟨stream, hstream, ?_⟩
  rw [← htokens] at hdepths
  obtain ⟨count, last, left, hturns, hends⟩ := LexRun.ofText_ends text file
  unfold Token.ofText LexRun.toExcept at h
  generalize LexRun.ofText text file = run at hends h
  cases hends with
  | settled hopened =>
    have hsame := Except.ok.inj h
    rw [← htokens] at hsame
    exact hturns.delimits hopened balanced hsame.symm hdepths hsame rfl
  | unclosed => cases h
  | fault => cases h

/-- The delimiters of a text. If it has tokens, the lexer, the tokens and the depths of the stream
agree on them. If its lexemes are well formed, it has no tokens exactly if the word of its
delimiters is not well nested. -/
theorem LexRun.delimiters_ofText (text file : String) :
    (∀ tokens, Token.ofText text file = .ok tokens →
      ∃ stream, TokenStream.ofTokens? tokens = some stream ∧
        (LexRun.ofText text file).Delimits text.toList file stream) ∧
    ∀ word, Lexeme.delimiters? text.toList = some word →
      ((∃ error, Token.ofText text file = .error error) ↔ ¬ WellNested word) := by
  refine ⟨fun tokens => LexRun.exists_delimits, fun word hword => ?_⟩
  obtain ⟨count, last, left, hturns, hends⟩ := LexRun.ofText_ends text file
  have herror : (∃ error, Token.ofText text file = .error error) ↔
      ∃ error, (LexRun.ofText text file).error? = some error := by
    unfold Token.ofText LexRun.toExcept
    cases (LexRun.ofText text file).error? <;> simp
  rw [herror]
  refine hends.error_iff hturns hword fun hnone => ?_
  have hok : Token.ofText text file = .ok (LexRun.ofText text file).tokens := by
    rw [Token.ofText, LexRun.toExcept, hnone]
  obtain ⟨stream, -, hdelimits⟩ := LexRun.exists_delimits hok
  rw [Option.some.inj (hword.symm.trans hdelimits.shown)]
  exact hdelimits.wellNested

/-- A line break in each kind of delimiters, and a closer that does not fit. -/
theorem LexRun.exists_delimits_brackets :
    (∃ tokens stream, Token.ofText "[a\n(b\n)]" "" = .ok tokens ∧
      TokenStream.ofTokens? tokens = some stream ∧
      (LexRun.ofText "[a\n(b\n)]" "").Delimits "[a\n(b\n)]".toList "" stream) ∧
    ∃ error, Token.ofText "[a)" "" = .error error := by
  constructor
  · have hreads : (Token.ofText "[a\n(b\n)]" "").toOption.isSome = true := by decide +kernel
    cases hread : Token.ofText "[a\n(b\n)]" "" with
    | error error =>
      rw [hread] at hreads
      cases hreads
    | ok tokens =>
      obtain ⟨stream, hstream, hdelimits⟩ := (LexRun.delimiters_ofText _ _).1 tokens hread
      exact ⟨tokens, stream, rfl, hstream, hdelimits⟩
  · have hshown : Lexeme.delimiters? "[a)".toList = some [.opener .square, .closer .round] := by
      decide +kernel
    refine ((LexRun.delimiters_ofText "[a)" "").2 _ hshown).2 fun hwell => ?_
    obtain ⟨outer, hfits⟩ := hwell.closer_fits []
      (show _ = [TokenKind.opener .square] ++ .closer .round :: [] from rfl)
    cases hfits

end SableFrontend
