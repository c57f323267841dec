import SableFrontend.Proofs.Token.LexRun
import SableFrontend.Proofs.Token.LexemeShape

/-!
The stream of a text that has been read without a fault. While a text is read, the stack of open
delimiters agrees with the tokens read so far (`LexState.Delimited`), and every token keeps what its
lexeme showed. At the end nothing is open, so the tokens make a balanced stream
(`TokenStream.exists_of_ofText`): this is all that a parser ever needs to know about where its
tokens come from.
-/

namespace SableFrontend

/-! ### Words in which closers fit -/

/-- Every closer of a word fits the delimiter that is innermost in front of it. -/
def Fitting (kinds : List TokenKind) : Prop :=
  ∀ before bracket after, kinds = before ++ .closer bracket :: after →
    ∃ outer, openBrackets before = bracket :: outer

theorem Fitting.nil : Fitting [] := by
  intro before bracket after h
  cases before <;> cases h

theorem Fitting.concat {kinds : List TokenKind} {kind : TokenKind} (h : Fitting kinds)
    (hkind : ∀ bracket, kind = .closer bracket →
      ∃ outer, openBrackets kinds = bracket :: outer) : Fitting (kinds ++ [kind]) := by
  intro before bracket after hsplit
  -- the closer is the added kind, or one of those before it
  rcases List.eq_nil_or_concat after with rfl | ⟨init, last, rfl⟩
  · obtain ⟨rfl, hlast⟩ := List.append_inj' hsplit rfl
    exact hkind bracket (List.cons.inj hlast).1
  · have hshift : kinds ++ [kind] = (before ++ .closer bracket :: init) ++ [last] := by
      rw [hsplit, List.append_assoc, List.cons_append, List.concat_eq_append]
    obtain ⟨hkinds, -⟩ := List.append_inj' hshift rfl
    exact h before bracket init hkinds

theorem Fitting.concat_plain {kinds : List TokenKind} {kind : TokenKind} (h : Fitting kinds)
    (hkind : kind.isCloser = false) : Fitting (kinds ++ [kind]) := by
  refine h.concat fun bracket heq => ?_
  rw [heq] at hkind
  cases hkind

/-! ### Tokens of open delimiters -/

/-- The openers without a partner after one more token, the innermost first. -/
def Token.openAfter (opened : List Token) (token : Token) : List Token :=
  match token.kind with
  | .opener _ => token :: opened
  | .closer _ => opened.tail
  | _ => opened

/-- The openers without a partner in a list of tokens, the innermost first. -/
def openTokens (tokens : List Token) : List Token := tokens.foldl Token.openAfter []

@[simp] theorem openTokens_concat (tokens : List Token) (token : Token) :
    openTokens (tokens ++ [token]) = token.openAfter (openTokens tokens) := by
  simp [openTokens, Token.openAfter]

theorem Token.openAfter_plain {token : Token} (opened : List Token)
    (h : token.kind.isPlain = true) : token.openAfter opened = opened := by
  unfold openAfter
  split
  · next hkind => rw [hkind] at h; cases h
  · next hkind => rw [hkind] at h; cases h
  · rfl

/-! ### What holds while a text is read -/

/-- The stack of open delimiters is that of the tokens read so far, every closer among them fits,
and none of them is the end of the file. -/
structure LexState.Delimited (state : LexState) : Prop where
  tokens_eq : state.opened.map OpenBracket.token = openTokens state.tokens.toList
  brackets_eq : state.opened.map OpenBracket.bracket =
    openBrackets (state.tokens.toList.map Token.kind)
  fitting : Fitting (state.tokens.toList.map Token.kind)
  unended : ∀ token ∈ state.tokens, token.kind ≠ .endOfFile

namespace LexState

variable {file : String}

theorem delimited_initial : initial.Delimited where
  tokens_eq := rfl
  brackets_eq := rfl
  fitting := .nil
  unended token h := absurd h (Array.not_mem_empty token)

theorem Delimited.push_plain {state : LexState} {kind : TokenKind} {value : String} {span : Span}
    (h : state.Delimited) (hkind : kind.isPlain = true) :
    (state.push kind value span).Delimited where
  tokens_eq := by
    rw [push, Array.toList_push, openTokens_concat, Token.openAfter_plain _ hkind, ← h.tokens_eq]
  brackets_eq := by
    rw [push, Array.toList_push, List.map_append, List.map_singleton, openBrackets_concat,
      openAfter_plain _ hkind, ← h.brackets_eq]
  fitting := by
    rw [push, Array.toList_push, List.map_append, List.map_singleton]
    refine h.fitting.concat_plain ?_
    cases kind <;> first | rfl | cases hkind
  unended token hmem := by
    rcases Array.mem_push.1 hmem with hold | rfl
    · exact h.unended token hold
    · intro hend
      rw [show kind = .endOfFile from hend] at hkind
      cases hkind

theorem Records.delimited {state recorded : LexState} {lexeme : Lexeme} {span : Span}
    {text : List Char} (hrecords : state.Records lexeme span recorded) (hshows : lexeme.Shows text)
    (h : state.Delimited) : recorded.Delimited := by
  cases hrecords with
  | skipped kind => exact ⟨h.tokens_eq, h.brackets_eq, h.fitting, h.unended⟩
  | newline => exact h.push_plain rfl
  | token kind value hlexeme =>
    subst hlexeme
    exact h.push_plain hshows.1
  | opener bracket =>
    refine ⟨?_, ?_, ?_, fun token hmem => ?_⟩
    · simp only [push, Array.toList_push, openTokens_concat, List.map_cons, h.tokens_eq]
      rfl
    · simp only [push, Array.toList_push, List.map_append, List.map_cons, List.map_nil,
        openBrackets_concat, h.brackets_eq]
      rfl
    · simp only [push, Array.toList_push, List.map_append, List.map_cons, List.map_nil]
      exact h.fitting.concat_plain rfl
    · rcases Array.mem_push.1 hmem with hold | rfl
      · exact h.unended token hold
      · exact TokenKind.noConfusion
  | closer innermost outer hopened =>
    have htokens := h.tokens_eq
    have hbrackets := h.brackets_eq
    rw [hopened, List.map_cons] at htokens hbrackets
    refine ⟨?_, ?_, ?_, fun token hmem => ?_⟩
    · simp only [push, Array.toList_push, openTokens_concat, ← htokens]
      rfl
    · simp only [push, Array.toList_push, List.map_append, List.map_cons, List.map_nil,
        openBrackets_concat, ← hbrackets]
      rfl
    · simp only [push, Array.toList_push, List.map_append, List.map_cons, List.map_nil]
      refine h.fitting.concat fun bracket heq => ⟨outer.map OpenBracket.bracket, ?_⟩
      rw [← hbrackets, TokenKind.closer.inj heq]
    · rcases Array.mem_push.1 hmem with hold | rfl
      · exact h.unended token hold
      · exact TokenKind.noConfusion

theorem step_delimited {state next : LexState} {first : Char} {rest : List Char} {extra : Nat}
    (hstep : state.step file first rest = .ok (next, extra)) (h : state.Delimited) :
    next.Delimited := by
  obtain ⟨lexeme, recorded, hscan, hrecords, rfl⟩ := step_eq_ok hstep
  obtain ⟨htokens, hbrackets, hfitting, hunended⟩ :=
    hrecords.delimited (Lexeme.scan_shows hscan) h
  exact ⟨htokens, hbrackets, hfitting, hunended⟩

/-- The stack agrees with the tokens after every sequence of turns from the start of a text. -/
theorem Turns.delimited {count : Nat} {last : LexState} {text left : List Char}
    (h : Turns file count initial text last left) : last.Delimited :=
  h.invariant (motive := fun state _ => state.Delimited)
    (fun _ _ _ _ _ hstep hstate => step_delimited hstep hstate) delimited_initial

end LexState

/-! ### What the tokens of a text are -/

/-- The characters of a text that a span takes up. -/
def Span.slice (span : Span) (text : List Char) : List Char :=
  (text.drop span.start.toNat).take (span.stop - span.start).toNat

/-- A token of a text: unless it is a quoted literal it is what stands at its span, and a number is
spelled like one of its kind. -/
structure Token.ReadFrom (text : List Char) (token : Token) : Prop where
  value_eq : token.kind.isQuoted = true ∨ token.value.toList = token.span.slice text
  spells : ∀ kind, token.kind = .literal kind →
    token.kind.isQuoted = true ∨ Numeral.Spells kind token.value.toList

namespace LexState

variable {file : String}

/-- Reading has come to a place in a text, and the tokens read so far are tokens of it. -/
structure Reads (text : List Char) (state : LexState) (left : List Char) : Prop where
  left_eq : left = text.drop state.position.offset
  tokens : ∀ token ∈ state.tokens, token.ReadFrom text

theorem Records.readFrom {text shown : List Char} {state recorded : LexState} {lexeme : Lexeme}
    {span : Span} (hrecords : state.Records lexeme span recorded) (hshows : lexeme.Shows shown)
    (hslice : span.slice text = shown) (h : ∀ token ∈ state.tokens, token.ReadFrom text) :
    ∀ token ∈ recorded.tokens, token.ReadFrom text := by
  intro token hmem
  cases hrecords with
  | skipped => exact h token hmem
  | newline hlexeme =>
    subst hlexeme
    rcases Array.mem_push.1 hmem with hold | rfl
    · exact h token hold
    · refine ⟨Or.inr ?_, fun kind hkind => TokenKind.noConfusion hkind⟩
      rw [hslice, show shown = ['\n'] from hshows]
      exact show "\n".toList = ['\n'] by decide
  | token kind value hlexeme =>
    subst hlexeme
    obtain ⟨hplain, hvalue, hspells⟩ := hshows
    rcases Array.mem_push.1 hmem with hold | rfl
    · exact h token hold
    · refine ⟨hvalue.imp_right fun heq => heq.trans hslice.symm, fun number hkind => ?_⟩
      rcases hvalue with hquoted | heq
      · exact Or.inl hquoted
      · rw [show ({ kind := kind, value := value, span := span } : Token).value.toList = shown
          from heq]
        exact hspells number hkind
  | opener bracket hlexeme =>
    subst hlexeme
    rcases Array.mem_push.1 hmem with hold | rfl
    · exact h token hold
    · refine ⟨Or.inr ?_, fun kind hkind => TokenKind.noConfusion hkind⟩
      rw [hslice, show shown = bracket.openText.toList from hshows]
  | closer innermost outer hopened hlexeme =>
    subst hlexeme
    rcases Array.mem_push.1 hmem with hold | rfl
    · exact h token hold
    · refine ⟨Or.inr ?_, fun kind hkind => TokenKind.noConfusion hkind⟩
      rw [hslice, show shown = innermost.bracket.closeText.toList from hshows]

/-- The span of a lexeme takes up the characters that the lexeme was read from. -/
theorem slice_spanOf {text shown left : List Char} (state : LexState) (lexeme : Lexeme)
    (h : text.drop state.position.offset = shown ++ left) :
    (state.spanOf file lexeme shown).slice text = shown := by
  rw [Span.slice, spanOf_start, spanOf_stop, Int.toNat_natCast, h,
    show ((state.position.offset : Int) + shown.length - state.position.offset).toNat =
      shown.length by omega, List.take_left]

theorem step_reads {text : List Char} {state next : LexState} {first : Char} {rest : List Char}
    {extra : Nat} (hstep : state.step file first rest = .ok (next, extra))
    (h : Reads text state (first :: rest)) : Reads text next (rest.drop extra) := by
  obtain ⟨lexeme, recorded, hscan, hrecords, rfl⟩ := step_eq_ok hstep
  have hsplit : text.drop state.position.offset =
      (first :: rest.take extra) ++ rest.drop extra := by
    rw [← h.left_eq, List.cons_append, List.take_append_drop]
  constructor
  · rw [Position.after_offset, ← List.drop_drop, hsplit, List.drop_left]
  · exact hrecords.readFrom (Lexeme.scan_shows hscan) (slice_spanOf state lexeme hsplit) h.tokens

/-- What is read of a text is tokens of it, after every sequence of turns from its start. -/
theorem Turns.reads {count : Nat} {last : LexState} {text left : List Char}
    (h : Turns file count initial text last left) : Reads text last left :=
  h.invariant (fun _ _ _ _ _ hstep hstate => step_reads hstep hstate)
    ⟨rfl, fun token hmem => absurd hmem (Array.not_mem_empty token)⟩

end LexState

/-! ### The stream -/

/-- The depth of a token is the number of delimiters that are open in front of it. -/
theorem getElem?_bracketDepths (opened : List Bracket) (tokens : List Token) {position : Nat}
    (h : position < tokens.length) :
    (bracketDepths opened.length tokens)[position]? =
      some ((((tokens.take position).map Token.kind).foldl openAfter opened).length) := by
  induction tokens generalizing opened position with
  | nil => cases h
  | cons token rest ih =>
    cases position with
    | zero =>
      simp only [bracketDepths]
      split
      · rfl
      · split <;> rfl
    | succ position =>
      have hrest := ih (openAfter opened token.kind) (Nat.lt_of_succ_lt_succ h)
      rw [List.take_succ_cons, List.map_cons, List.foldl_cons, ← hrest]
      cases hkind : token.kind with
      | opener bracket => simp [bracketDepths, hkind, TokenKind.isOpener, openAfter]
      | closer bracket =>
        simp [bracketDepths, hkind, TokenKind.isOpener, TokenKind.isCloser, openAfter]
      | _ => simp [bracketDepths, hkind, TokenKind.isOpener, TokenKind.isCloser, openAfter]

/-- A token that is not the last one of a list with a token added to it is in the list. -/
theorem TokenStream.token_mem_of_push {stream : TokenStream} {tokens : Array Token} {added : Token}
    (htokens : stream.tokens = tokens.push added) {position : Nat}
    (hlt : position + 1 < stream.size) : stream.token position ∈ tokens := by
  have hsize : stream.size = tokens.size + 1 := by
    rw [TokenStream.size, htokens, Array.size_push]
  have hposition : position < tokens.size := by omega
  have hget : stream.tokens[position]? = some (stream.token position) :=
    TokenStream.getElem?_tokens (Nat.lt_of_succ_lt hlt)
  rw [htokens, Array.getElem?_push_lt hposition] at hget
  exact Array.mem_of_getElem? (hget ▸ Array.getElem?_eq_getElem hposition)

theorem TokenStream.balanced_of_delimited {stream : TokenStream} {state : LexState} {added : Token}
    (h : state.Delimited) (hopened : state.opened = []) (hadded : added.kind = .endOfFile)
    (htokens : stream.tokens = state.tokens.push added)
    (hdepths : stream.depths = (bracketDepths 0 stream.tokens.toList).toArray) :
    stream.Balanced := by
  have hsize : stream.size = state.tokens.size + 1 := by
    rw [TokenStream.size, htokens, Array.size_push]
  have hkinds : stream.tokens.toList.map Token.kind =
      state.tokens.toList.map Token.kind ++ [.endOfFile] := by
    rw [htokens, Array.toList_push, List.map_append, List.map_singleton, hadded]
  refine { closer_fits := ?_, settled := ?_, end_last := ?_, depth_eq := ?_ }
  · intro position bracket hlt hkind
    have hfitting : Fitting (state.tokens.toList.map Token.kind ++ [.endOfFile]) :=
      h.fitting.concat_plain rfl
    have hget : (stream.tokens.toList.map Token.kind)[position]? = some (.closer bracket) := by
      rw [List.getElem?_map, Array.getElem?_toList, TokenStream.getElem?_tokens hlt,
        Option.map_some, ← hkind]
      rfl
    -- the closer splits the word of kinds where the token stands
    rw [TokenStream.opened, List.map_take]
    refine hfitting _ bracket ((stream.tokens.toList.map Token.kind).drop (position + 1)) ?_
    rw [← hkinds]
    have hlength : position < (stream.tokens.toList.map Token.kind).length := by
      rw [List.length_map, Array.length_toList]
      exact hlt
    rw [List.getElem?_eq_getElem hlength] at hget
    rw [← Option.some.inj hget, ← List.drop_eq_getElem_cons hlength, List.take_append_drop]
  · have hbrackets := h.brackets_eq
    rw [hopened, List.map_nil] at hbrackets
    rw [TokenStream.opened, hsize, Nat.add_sub_cancel, htokens, Array.toList_push,
      List.take_left' (Array.length_toList ..), ← hbrackets]
  · intro position hlt hkind
    rcases Nat.eq_or_lt_of_le (Nat.succ_le_of_lt hlt) with heq | hnext
    · exact heq
    · exact absurd hkind (h.unended _ (TokenStream.token_mem_of_push htokens hnext))
  · intro position hlt
    have hlength : position < stream.tokens.toList.length := by
      rw [Array.length_toList]
      exact hlt
    have hdepth := getElem?_bracketDepths [] stream.tokens.toList hlength
    rw [TokenStream.depth, hdepths, List.getElem?_toArray]
    rw [List.length_nil] at hdepth
    rw [hdepth, Option.getD_some]
    rfl

/-- The tokens of a text without a fault make a balanced stream. -/
theorem TokenStream.exists_of_ofText {text file : String} {tokens : Array Token}
    (h : Token.ofText text file = .ok tokens) :
    ∃ stream, TokenStream.ofTokens? tokens = some stream ∧ stream.tokens = tokens ∧
      stream.Balanced := by
  obtain ⟨count, last, hturns, hopened, rfl⟩ := Token.ofText_eq_ok h
  have hback : (last.tokens.push (.endAt file last.position)).back? =
      some (.endAt file last.position) := Array.back?_push
  have hstream : ∃ stream, TokenStream.ofTokens? (last.tokens.push (.endAt file last.position)) =
      some stream ∧ stream.tokens = last.tokens.push (.endAt file last.position) ∧
      stream.depths = (bracketDepths 0 stream.tokens.toList).toArray := by
    unfold TokenStream.ofTokens?
    split
    · next hnone =>
      rw [hback] at hnone
      cases hnone
    · next found hfound =>
      rw [hback] at hfound
      cases hfound
      exact ⟨_, dif_pos rfl, rfl, rfl⟩
  obtain ⟨stream, hsome, htokens, hdepths⟩ := hstream
  exact ⟨stream, hsome, htokens,
    balanced_of_delimited hturns.delimited hopened rfl htokens hdepths⟩

/-- The balanced stream of a text without a fault. -/
def TokenStream.ofText? (text file : String) : Option { stream : TokenStream // stream.Balanced } :=
  match h : Token.ofText text file with
  | .error _ => none
  | .ok tokens =>
    match hstream : TokenStream.ofTokens? tokens with
    | none => none
    | some stream => some ⟨stream, by
      obtain ⟨_, hsame, -, balanced⟩ := exists_of_ofText h
      obtain rfl := Option.some.inj (hstream.symm.trans hsame)
      exact balanced⟩

/-- The stream of a text is that of its tokens. -/
theorem TokenStream.ofTokens?_of_ofText? {text file : String}
    {stream : { stream : TokenStream // stream.Balanced }} (h : TokenStream.ofText? text file = some stream) :
    Token.ofText text file = .ok stream.1.tokens ∧
      TokenStream.ofTokens? stream.1.tokens = some stream.1 := by
  unfold TokenStream.ofText? at h
  split at h
  · cases h
  · next tokens hlexes =>
    split at h
    · cases h
    · next found hfound =>
      cases h
      obtain ⟨other, hother, htokens, -⟩ := exists_of_ofText hlexes
      obtain rfl := Option.some.inj (hfound.symm.trans hother)
      rw [htokens]
      exact ⟨hlexes, hfound⟩

/-- Each token of a text without a fault is a token of it. -/
theorem Token.readFrom_of_ofText {text file : String} {tokens : Array Token}
    (h : Token.ofText text file = .ok tokens) {token : Token} (hmem : token ∈ tokens) :
    token.ReadFrom text.toList := by
  obtain ⟨count, last, hturns, -, rfl⟩ := Token.ofText_eq_ok h
  rcases Array.mem_push.1 hmem with hread | rfl
  · exact hturns.reads.tokens token hread
  · refine ⟨Or.inr ?_, fun kind hkind => TokenKind.noConfusion hkind⟩
    simp [Token.endAt, Span.slice, Span.between]

end SableFrontend
