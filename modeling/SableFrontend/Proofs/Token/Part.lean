import SableFrontend.Proofs.Sentences.Inline
import SableFrontend.Proofs.Sentences.Words
import SableFrontend.Proofs.Source.SpanText
import SableFrontend.Proofs.Token.Defining
import SableFrontend.Proofs.Token.Positions

/-!
A part of a text, read by itself. From the first character of a token to the last one of another token every
turn of the lexer stays inside, so the text may end there (`Turns.front`). Where as much is open does
not matter either, as long as every closer fits what was opened in the part and no line breaks are read
(`Turns.elsewhere`). So the text between two tokens of a source has just the tokens in between, if it is on
one line and the delimiters in it match (`TokenStream.exists_part`).
-/

namespace SableFrontend

/-! ### Where a text may end -/

namespace Lexeme

variable {first : Char} {rest more : List Char} {scanned : ScannedLexeme}

theorem closeOfBlock?_of_append {text : List Char} {length : Nat}
    (h : closeOfBlock? (text ++ more) = some length) (hle : length ≤ text.length) :
    closeOfBlock? text = some length := by
  have hthree := (closeOfBlock?_append h []).2.1
  induction text generalizing length with
  | nil =>
    rw [List.length_nil] at hle
    omega
  | cons c rest ih =>
    rw [List.length_cons] at hle
    rw [List.cons_append, closeOfBlock?, List.take_append_of_le_length (by omega)] at h
    rw [closeOfBlock?]
    split at h
    · next hclose => rw [if_pos hclose, h]
    · next hclose =>
      obtain ⟨shorter, hrest, rfl⟩ := Option.map_eq_some_iff.1 h
      rw [if_neg hclose, ih hrest (by omega) (closeOfBlock?_append hrest []).2.1]
      rfl

theorem opensBlock_of_append (h : 3 ≤ rest.length) : opensBlock (rest ++ more) = opensBlock rest := by
  match rest, h with
  | _ :: _ :: _ :: _, _ => rfl

theorem takeWhile_of_append {isMember : Char → Bool}
    (h : ((rest ++ more).takeWhile isMember).length < rest.length) :
    rest.takeWhile isMember = (rest ++ more).takeWhile isMember := by
  rw [List.takeWhile_append] at h ⊢
  split
  · next heq =>
    rw [if_pos heq, List.length_append] at h
    omega
  · rfl

/-- A lexeme is read in the same way when the text ends behind it, unless trivia might go on there. -/
theorem scan_of_append (h : scan first (rest ++ more) = .ok scanned) (hle : scanned.extra ≤ rest.length)
    (hlt : scanned.lexeme.isTrivia = true → scanned.extra < rest.length) : scan first rest = .ok scanned := by
  cases htrivia : scanned.lexeme.isTrivia with
  | false =>
    obtain ⟨shown, left, hsplit, hlength, hsame⟩ := scan_takes h htrivia
    obtain ⟨left, rfl⟩ : ∃ left, rest = shown ++ left := by
      rcases List.append_eq_append_iff.1 hsplit with ⟨behind, rfl, -⟩ | ⟨behind, rfl, -⟩
      · rw [List.length_append] at hlength
        obtain rfl := List.length_eq_zero_iff.1 (show behind.length = 0 by omega)
        exact ⟨[], by simp⟩
      · exact ⟨behind, rfl⟩
    obtain rfl := List.append_cancel_left ((List.append_assoc ..).symm.trans hsplit)
    have hcut : Cut (left ++ more) (left ++ []) := .append left (.gap rfl)
    rw [List.append_nil] at hcut
    exact hsame left hcut
  | true =>
    replace hlt := hlt htrivia
    rcases scan_trivia h htrivia with ⟨hblank, rfl⟩ | ⟨rfl, hcomment⟩
    · rw [scan_of_isBlank hblank, scanRun, scanRun, takeWhile_of_append hlt]
    · show scanComment rest = .ok scanned
      unfold scanComment at hcomment ⊢
      split at hcomment
      · next hopens =>
        split at hcomment
        · next length hclose =>
          cases hcomment
          have hthree := (closeOfBlock?_append hclose []).2.1
          have hlength : length + 2 < rest.length := hlt
          rw [opensBlock_of_append (by omega)] at hopens
          rw [List.drop_append_of_le_length (by omega)] at hclose
          rw [if_pos hopens, closeOfBlock?_of_append hclose (by rw [List.length_drop]; omega)]
        · cases hcomment
      · next hopens =>
        cases hcomment
        have hsame := takeWhile_of_append hlt
        rw [if_neg ?_, hsame]
        intro hopens'
        -- two number signs belong to the comment, and it ends in front of something
        have hthree : 3 ≤ rest.length := by
          rw [opensBlock, Bool.and_eq_true, beq_iff_eq] at hopens'
          obtain ⟨tail, rfl⟩ : ∃ tail, rest = '#' :: '#' :: tail :=
            ⟨rest.drop 2, (List.take_append_drop 2 rest).symm.trans (congrArg (· ++ rest.drop 2) hopens'.1)⟩
          cases tail with
          | nil => exact absurd hlt (by dsimp only; rw [← hsame]; decide)
          | cons => exact Nat.le_add_left 3 _
        rw [opensBlock_of_append hthree] at hopens
        exact hopens hopens'

end Lexeme

namespace LexState

variable {file : String} {state next mid last : LexState} {first : Char} {rest more text left : List Char}
  {extra count : Nat}

theorem step_extra_le (h : state.step file first rest = .ok (next, extra)) : extra ≤ rest.length :=
  (@step_append _ _ _ _ _ _ h ['\n'] rfl).2

/-- One turn is the same when the text ends behind it, unless it has passed something over that might go on
there. -/
theorem step_of_append (h : state.step file first (rest ++ more) = .ok (next, extra))
    (hle : extra ≤ rest.length) (hlt : next.tokens = state.tokens → extra < rest.length) :
    state.step file first rest = .ok (next, extra) := by
  obtain ⟨lexeme, recorded, hscan, hrecords, rfl⟩ := step_eq_ok h
  have hscan' : Lexeme.scan first rest = .ok { lexeme := lexeme, extra := extra } := by
    refine Lexeme.scan_of_append hscan hle fun htrivia => hlt ?_
    cases hrecords with
    | skipped => rfl
    | newline hlexeme | token _ _ hlexeme | opener _ hlexeme | closer _ _ _ hlexeme =>
      rw [hlexeme] at htrivia
      cases htrivia
  rw [step, hscan] at h
  rw [step, hscan']
  dsimp only at h ⊢
  rw [List.take_append_of_le_length hle] at h ⊢
  exact h

/-- Reading has taken the text in front of what is left. It takes the same of a text that ends in what is
left, wherever that ends. -/
theorem Turns.front (h : Turns file count state text last left) :
    ∃ covered, text = covered ++ left ∧ last.position = state.position.after covered ∧
      ∀ shown behind, left = shown ++ behind → shown ≠ [] →
        Turns file count state (covered ++ shown) last shown := by
  induction h with
  | none state => exact ⟨[], rfl, rfl, fun shown _ _ _ => .none state shown⟩
  | @more _ extra state mid _ first rest left hstep _ ih =>
    obtain ⟨covered, hrest, hposition, hcut⟩ := ih
    have hle := step_extra_le hstep
    obtain ⟨_, _, -, -, hmid⟩ := step_eq_ok hstep
    have hsplit : rest.take extra ++ (covered ++ left) = rest :=
      hrest ▸ List.take_append_drop extra rest
    refine ⟨first :: (rest.take extra ++ covered), ?_, ?_, fun shown behind hleft hne => ?_⟩
    · rw [List.cons_append, List.append_assoc, hsplit]
    · rw [hposition, hmid, ← Position.after_append]
      rfl
    have hlength : (rest.take extra).length = extra := List.length_take_of_le hle
    have hshown := List.length_pos_iff.2 hne
    have hstep' : state.step file first (rest.take extra ++ (covered ++ shown)) = .ok (mid, extra) := by
      refine @step_of_append _ _ _ _ _ behind _ ?_ ?_ fun _ => ?_
      · rwa [List.append_assoc, List.append_assoc, ← hleft, hsplit]
      · simp only [List.length_append]
        omega
      · simp only [List.length_append]
        omega
    rw [List.cons_append, List.append_assoc]
    refine .more hstep' ?_
    rw [List.drop_left' hlength]
    exact hcut shown behind hleft hne

/-- Every token that is read is read in some turn, behind the tokens in front of it. -/
theorem Turns.exists_turn (h : Turns file count state text last left) {shown after : List Token}
    {token : Token}
    (hadded : last.tokens.toList = state.tokens.toList ++ (shown ++ token :: after)) :
    ∃ count mid first rest next extra, Turns file count state text mid (first :: rest) ∧
      mid.tokens.toList = state.tokens.toList ++ shown ∧
      mid.step file first rest = .ok (next, extra) ∧ next.tokens = mid.tokens.push token := by
  induction h generalizing shown with
  | none =>
    have hnil := List.self_eq_append_right.1 hadded
    exact absurd hnil (by simp)
  | @more _ extra state mid last first rest left hstep hmore ih =>
    obtain ⟨_, recorded, -, hrecords, hmid⟩ := step_eq_ok hstep
    have hsame : mid.tokens = recorded.tokens := by rw [hmid]
    rcases hrecords.push_or_skip with ⟨added, htokens, -⟩ | ⟨htokens, -⟩
    · rw [← hsame] at htokens
      obtain ⟨later, hlater, -⟩ := hmore.exists_added
      have hsplit : added :: later = shown ++ token :: after := by
        rw [htokens, Array.toList_push, List.append_assoc] at hlater
        exact List.append_cancel_left (hlater.symm.trans hadded)
      rcases List.cons_eq_append_iff.1 hsplit with ⟨rfl, hhead⟩ | ⟨shown, rfl, rfl⟩
      · obtain ⟨rfl, -⟩ := List.cons.inj hhead
        exact ⟨0, state, first, rest, mid, extra, .none .., (List.append_nil _).symm, hstep, htokens⟩
      · obtain ⟨count, mid', first', rest', next, extra', hturns, hbefore, hnext⟩ := ih (by
          rw [hlater])
        refine ⟨count + 1, mid', first', rest', next, extra', .more hstep hturns, ?_, hnext⟩
        rw [hbefore, htokens, Array.toList_push, List.append_assoc]
        rfl
    · rw [← hsame] at htokens
      obtain ⟨count, mid', first', rest', next, extra', hturns, hbefore, hnext⟩ := ih (htokens ▸ hadded)
      exact ⟨count + 1, mid', first', rest', next, extra', .more hstep hturns, htokens ▸ hbefore, hnext⟩

/-- A token has the span of the lexeme that it was read as. -/
theorem span_of_step {token : Token} (h : state.step file first rest = .ok (next, extra))
    (htokens : next.tokens = state.tokens.push token) :
    ∃ lexeme, token.span = state.spanOf file lexeme (first :: rest.take extra) := by
  obtain ⟨lexeme, recorded, -, hrecords, rfl⟩ := step_eq_ok h
  refine ⟨lexeme, ?_⟩
  rcases hrecords.push_or_skip with ⟨added, hadded, hspan, -⟩ | ⟨hsame, -⟩
  · rw [← Array.back_eq_of_push_eq (hadded.symm.trans htokens), hspan]
  · have hsize := congrArg Array.size (hsame.symm.trans htokens)
    simp at hsize

/-! ### Reading elsewhere -/

/-- Where no line break begins, a turn passes something over or reads a word. -/
theorem step_inline (h : state.step file first rest = .ok (next, extra)) (hbreak : first ≠ '\n') :
    (next.tokens = state.tokens ∧
        ∃ kind, Lexeme.scan first rest = .ok { lexeme := .trivia kind, extra := extra }) ∨
      ∃ lexeme token, Lexeme.scan first rest = .ok { lexeme := lexeme, extra := extra } ∧
        next.tokens = state.tokens.push token ∧ token.word.IsReadAs lexeme ∧ token.kind ≠ .newline := by
  obtain ⟨lexeme, recorded, hscan, hrecords, rfl⟩ := step_eq_ok h
  have hshows := Lexeme.scan_shows hscan
  have hno : lexeme ≠ .lineBreak := by
    rintro rfl
    exact hbreak (List.cons.inj hshows).1
  cases hrecords with
  | skipped kind hlexeme =>
    rcases hlexeme with rfl | ⟨hlexeme, -⟩
    · exact Or.inl ⟨rfl, kind, hscan⟩
    · exact absurd hlexeme hno
  | newline hlexeme => exact absurd hlexeme hno
  | token kind value hlexeme =>
    subst hlexeme
    refine Or.inr ⟨_, _, hscan, rfl, .token hshows.1, ?_⟩
    rintro rfl
    cases Lexeme.eq_lineBreak_of_isBreak hscan rfl
  | opener bracket hlexeme =>
    exact Or.inr ⟨_, _, hlexeme ▸ hscan, rfl, .opener bracket, TokenKind.noConfusion⟩
  | closer innermost outer _ hlexeme =>
    exact Or.inr ⟨_, _, hlexeme ▸ hscan, rfl, .closer innermost.bracket, TokenKind.noConfusion⟩

/-- Trivia are passed over wherever they stand. -/
theorem step_trivia {kind : TriviaKind}
    (h : Lexeme.scan first rest = .ok { lexeme := .trivia kind, extra := extra }) (state : LexState) :
    ∃ next, state.step file first rest = .ok (next, extra) ∧ next.brackets = state.brackets ∧
      next.tokens = state.tokens := by
  unfold step
  rw [h]
  exact ⟨_, rfl, rfl, rfl⟩

theorem Turns.kind_ne_newline (h : Turns file count state text last left) (hbreak : '\n' ∉ text)
    {shown : List Token} (hadded : last.tokens.toList = state.tokens.toList ++ shown) :
    ∀ token ∈ shown, token.kind ≠ .newline := by
  induction h generalizing shown with
  | none =>
    rw [List.self_eq_append_right.1 hadded]
    exact nofun
  | @more _ extra state mid last first rest left hstep hmore ih =>
    rw [List.mem_cons, not_or] at hbreak
    have hrest : '\n' ∉ rest.drop extra := fun hmem => hbreak.2 (List.mem_of_mem_drop hmem)
    rcases step_inline hstep (Ne.symm hbreak.1) with ⟨htokens, -⟩ | ⟨_, added, -, htokens, -, hkind⟩
    · exact ih hrest (htokens ▸ hadded)
    · obtain ⟨later, hlater, -⟩ := hmore.exists_added
      have hsplit := hlater
      rw [htokens, Array.toList_push, List.append_assoc] at hsplit
      obtain rfl : shown = added :: later := List.append_cancel_left (hadded.symm.trans hsplit)
      exact List.forall_mem_cons.2 ⟨hkind, ih hrest hlater⟩

/-- What is read of a text on one line is read of it from any state, as words, if its closers fit there. -/
theorem Turns.elsewhere (h : Turns file count state text last left) (hleft : left = [])
    (hbreak : '\n' ∉ text) {shown : List Token}
    (hadded : last.tokens.toList = state.tokens.toList ++ shown) {file' : String} (other : LexState)
    (hfits : ∀ before bracket after, shown.map Token.kind = before ++ .closer bracket :: after →
      ∃ outer, before.foldl openAfter other.brackets = bracket :: outer) :
    ∃ count last', Turns file' count other text last' [] ∧
      last'.brackets = (shown.map Token.kind).foldl openAfter other.brackets ∧
      last'.tokens.toList.map Token.word = other.tokens.toList.map Token.word ++ shown.map Token.word := by
  induction h generalizing shown other with
  | none state text =>
    subst hleft
    obtain rfl := List.self_eq_append_right.1 hadded
    exact ⟨0, other, .none other [], rfl, (List.append_nil _).symm⟩
  | @more _ extra state mid last first rest left hstep hmore ih =>
    rw [List.mem_cons, not_or] at hbreak
    have hrest : '\n' ∉ rest.drop extra := fun hmem => hbreak.2 (List.mem_of_mem_drop hmem)
    rcases step_inline hstep (Ne.symm hbreak.1) with
      ⟨htokens, kind, hscan⟩ | ⟨lexeme, token, hscan, htokens, hword, -⟩
    · obtain ⟨next, hnext, hbrackets, hsame⟩ := @step_trivia file' _ _ _ _ hscan other
      obtain ⟨count, last', hturns, hlast, hwords⟩ :=
        ih hleft hrest (htokens ▸ hadded) next (hbrackets.symm ▸ hfits)
      exact ⟨count + 1, last', .more hnext hturns, hbrackets ▸ hlast, hsame ▸ hwords⟩
    · obtain ⟨later, hlater, -⟩ := hmore.exists_added
      have hsplit := hlater
      rw [htokens, Array.toList_push, List.append_assoc] at hsplit
      obtain rfl : shown = token :: later := List.append_cancel_left (hadded.symm.trans hsplit)
      have hlength : (rest.take extra).length = extra := List.length_take_of_le (step_extra_le hstep)
      have htext := List.take_append_drop extra rest
      obtain ⟨next, hnext, hbrackets, hwords⟩ := @step_word file' other token.word lexeme first
        (rest.take extra) (rest.drop extra) hword (by rw [htext, hlength]; exact hscan)
        fun bracket hkind => hfits [] bracket (later.map Token.kind)
          (congrArg (· :: later.map Token.kind) hkind)
      rw [htext, hlength] at hnext
      obtain ⟨count, last', hturns, hlast, hall⟩ := ih hleft hrest hlater next
        fun before bracket after hafter => by
          obtain ⟨outer, houter⟩ := hfits (token.kind :: before) bracket after
            (congrArg (token.kind :: ·) hafter)
          exact ⟨outer, by rw [hbrackets]; exact houter⟩
      refine ⟨count + 1, last', .more hnext hturns, ?_, ?_⟩
      · rw [hlast, hbrackets]
        rfl
      · rw [hall, hwords, List.append_assoc]
        rfl

end LexState

/-! ### Between two tokens -/

namespace TokenStream

open LexState

variable {stream other : TokenStream} {text file : String} {tokens : Array Token} {first last : Nat}

/-- The words from `first` up to `last` are all that stands in another stream. -/
structure Part (stream : TokenStream) (first last : Nat) (other : TokenStream) : Prop where
  word_eq : ∀ {position}, first ≤ position → position < last →
    (other.token (position - first)).word = (stream.token position).word
  kind_eq : ∀ {position}, last - first ≤ position → other.kind position = .endOfFile

/-- The tokens from `first` up to `last`. -/
def tokensBetween (stream : TokenStream) (first last : Nat) : List Token :=
  (List.range' first (last - first)).map stream.token

theorem kindsBetween_eq_map :
    stream.kindsBetween first last = (stream.tokensBetween first last).map Token.kind := by
  rw [kindsBetween, tokensBetween, List.map_map]
  rfl

theorem length_tokensBetween : (stream.tokensBetween first last).length = last - first := by
  rw [tokensBetween, List.length_map, List.length_range']

theorem tokensBetween_append {middle : Nat} (hfirst : first ≤ middle) (hlast : middle ≤ last) :
    stream.tokensBetween first last =
      stream.tokensBetween first middle ++ stream.tokensBetween middle last := by
  have hcount : last - first = (middle - first) + (last - middle) := by omega
  rw [tokensBetween, hcount, ← List.range'_append_1, Nat.add_sub_cancel' hfirst, List.map_append]
  rfl

theorem tokensBetween_cons (hlt : first < last) :
    stream.tokensBetween first last = stream.token first :: stream.tokensBetween (first + 1) last := by
  have hcount : last - first = last - (first + 1) + 1 := by omega
  rw [tokensBetween, hcount, List.range'_succ]
  rfl

theorem take_tokens {stop : Nat} (h : stop ≤ stream.size) :
    stream.tokens.toList.take stop = stream.tokensBetween 0 stop := by
  have hsize : stream.tokens.toList.length = stream.size := Array.length_toList ..
  refine List.ext_getElem (by rw [length_tokensBetween, List.length_take]; omega) fun position hlt _ => ?_
  have hposition : position < stream.size := by
    rw [List.length_take] at hlt
    omega
  simp only [tokensBetween, List.getElem_take, List.getElem_map, List.getElem_range', Array.getElem_toList,
    token, Nat.zero_add, Nat.one_mul, Array.getElem?_eq_getElem hposition, Option.getD_some]
  rfl

/-- Reading a text makes turns that begin with the one token and end with the other. The text may end
there. -/
theorem exists_turns_between {count : Nat} {final : LexState}
    (hturns : Turns file count .initial text.toList final [])
    (htokens : stream.tokens = final.tokens.push (.endAt file final.position))
    (hlt : first < last) (hsize : last < stream.size) :
    ∃ (front covered behind : List Char) (count : Nat) (begins next : LexState),
      text.toList = front ++ (covered ++ behind) ∧ covered ≠ [] ∧
      (stream.token first).span.start = front.length ∧
      (stream.token (last - 1)).span.stop = (front.length + covered.length : Nat) ∧
      Turns file count begins covered next [] ∧
      next.tokens.toList = begins.tokens.toList ++ stream.tokensBetween first last := by
  have hcount : stream.size = final.tokens.size + 1 := by rw [size, htokens, Array.size_push]
  have hread : final.tokens.toList = stream.tokensBetween 0 final.tokens.size := by
    have htake := @take_tokens stream final.tokens.size (by omega)
    rwa [htokens, Array.toList_push, List.take_left' (Array.length_toList ..)] at htake
  rw [@tokensBetween_append _ 0 _ first (by omega) (by omega)] at hread
  -- the turn that reads the first of the tokens, and the one that reads the last of them
  have hsplit := hread
  rw [tokensBetween_cons (show first < final.tokens.size by omega)] at hsplit
  obtain ⟨_, begins, c, rest, start, extra, hfront, hbefore, hfirst, hpushed⟩ := hturns.exists_turn hsplit
  obtain ⟨_, hbehind⟩ := hfront.drop hturns
  rw [← show begins.tokens.toList = stream.tokensBetween 0 first from hbefore,
    @tokensBetween_append _ first _ (last - 1) (by omega) (by omega),
    tokensBetween_cons (show last - 1 < final.tokens.size by omega)] at hread
  obtain ⟨_, ends, c', rest', next, extra', hmiddle, hshown, hlast, hpushed'⟩ := hbehind.exists_turn hread
  -- the text that they and the turns in between take
  obtain ⟨front, htext, hplace, -⟩ := hfront.front
  obtain ⟨inside, hinside, hplace', hcut⟩ := hmiddle.front
  have hle := step_extra_le hlast
  have hrest := List.take_append_drop extra' rest'
  have hstep : ends.step file c' (rest'.take extra') = .ok (next, extra') := by
    refine step_of_append (hrest.symm ▸ hlast) (Nat.le_of_eq (List.length_take_of_le hle).symm) fun hsame => ?_
    rw [hsame] at hpushed'
    simpa using congrArg Array.size hpushed'
  obtain ⟨total, hpart⟩ := (hcut (c' :: rest'.take extra') (rest'.drop extra') (by rw [List.cons_append, hrest])
    (List.cons_ne_nil _ _)).trans (.more hstep (.none _ _))
  rw [List.drop_of_length_le (List.length_take_le ..)] at hpart
  have hoffset : begins.position.offset = front.length := by
    rw [hplace, Position.after_offset]
    exact Nat.zero_add _
  refine ⟨front, inside ++ c' :: rest'.take extra', rest'.drop extra', total, begins, next, ?_, by simp, ?_, ?_,
    hpart, ?_⟩
  · rw [htext, hinside, List.append_assoc, List.cons_append, hrest]
  · obtain ⟨lexeme, hspan⟩ := span_of_step hfirst hpushed
    rw [hspan, spanOf_start, hoffset]
  · obtain ⟨lexeme, hspan⟩ := span_of_step hlast hpushed'
    rw [hspan, spanOf_stop, hplace', Position.after_offset, hoffset, List.length_append]
    omega
  · have hone : stream.tokensBetween (last - 1) last = [stream.token (last - 1)] := by
      rw [tokensBetween_cons (by omega), tokensBetween, show last - (last - 1 + 1) = 0 by omega]
      rfl
    rw [hpushed', Array.toList_push, hshown, List.append_assoc,
      @tokensBetween_append _ first last (last - 1) (by omega) (by omega), hone]

/-- The turns that read some tokens read their words from a text that holds nothing else. -/
theorem exists_part_of_turns {count : Nat} {begins next : LexState} {covered : List Char}
    (hturns : Turns file count begins covered next [])
    (hadded : next.tokens.toList = begins.tokens.toList ++ stream.tokensBetween first last)
    (hbreak : '\n' ∉ covered) (hnested : WellNested (stream.kindsBetween first last)) (file' : String) :
    ∃ tokens other, Token.ofText (String.ofList covered) file' = .ok tokens ∧ ofTokens? tokens = some other ∧
      stream.Part first last other := by
  rw [kindsBetween_eq_map] at hnested
  obtain ⟨_, last', hturns', hlast, hwords⟩ := @Turns.elsewhere _ _ _ _ _ _ hturns rfl hbreak _ hadded file'
    .initial fun before bracket after hsplit => hnested.closer_fits _ hsplit
  rw [foldl_openAfter_wellNested hnested] at hlast
  have hlength : ((stream.tokensBetween first last).map Token.word).length = last - first := by
    rw [List.length_map, length_tokensBetween]
  obtain ⟨tokens, other, hlexes, hstream, hholds, hend⟩ := @exists_of_turns _ (String.ofList covered) _ _ _
    (by rwa [String.toList_ofList]) hlast (hwords.trans (List.nil_append _))
  refine ⟨tokens, other, hlexes, hstream, fun {position} hfirst hlast => ?_, fun {position} hle =>
    hend position (hlength.symm ▸ hle)⟩
  have hword := hholds.getElem (show position - first < _ by omega)
  rw [Nat.zero_add, List.getElem_map] at hword
  rw [hword]
  simp only [tokensBetween, List.getElem_map, List.getElem_range', Nat.one_mul, Nat.add_sub_cancel' hfirst]

/-- Between the first and the last character of two tokens stands a part of the text. If that is on one line
there are no line breaks among the tokens, and if their delimiters match, they are those of the part. -/
theorem exists_part (hlexes : Token.ofText text file = .ok tokens) (hstream : ofTokens? tokens = some stream)
    (hlt : first < last) (hsize : last < stream.size) :
    ∃ front covered behind : List Char, text.toList = front ++ (covered ++ behind) ∧ covered ≠ [] ∧
      (stream.token first).span.start = front.length ∧
      (stream.token (last - 1)).span.stop = (front.length + covered.length : Nat) ∧
      ('\n' ∉ covered → stream.Unbroken first last ∧ (WellNested (stream.kindsBetween first last) →
        ∀ file', ∃ tokens' other, Token.ofText (String.ofList covered) file' = .ok tokens' ∧
          ofTokens? tokens' = some other ∧ stream.Part first last other)) := by
  obtain ⟨count, final, hturns, -, rfl⟩ := Token.ofText_eq_ok hlexes
  obtain ⟨front, covered, behind, _, begins, next, htext, hne, hstart, hstop, hpart, hadded⟩ :=
    exists_turns_between hturns (ofTokens?_eq_some hstream).1 hlt hsize
  refine ⟨front, covered, behind, htext, hne, hstart, hstop, fun hbreak =>
    ⟨fun position hfirst hlast => ?_, exists_part_of_turns hpart hadded hbreak⟩⟩
  refine hpart.kind_ne_newline hbreak hadded (stream.token position) (List.mem_map.2 ⟨position, ?_, rfl⟩)
  rw [List.mem_range'_1]
  omega

end TokenStream

end SableFrontend
