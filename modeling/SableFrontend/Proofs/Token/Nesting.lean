import SableFrontend.Token.Stream

/-!
The delimiters of a token stream. `TokenStream.opened` is the stack of the delimiters that are
open in front of a token; in a balanced stream every closer fits the innermost of them and nothing
is open at the end. Whatever a parser does, it moves along such a stream, and what it must not do
is said with two notions:

* `Within p q`: going from `p` to `q` does not leave the innermost pair of delimiters around `p`.
* `Closes first closer close`: the token at `close` is the partner of the opener in front of
  `first`, or the end of the file where `first` lies outside of all delimiters.

`exists_closes` ties them together: the part of a stream that begins behind an opener has an end,
and nothing that stays within it gets past that end.
-/

namespace SableFrontend

/-! ### Words of kinds -/

/-- The kinds that neither open nor close anything, nor end the source. -/
def TokenKind.isPlain : TokenKind → Bool
  | opener _ | closer _ | endOfFile => false
  | _ => true

/-- The tokens at which an item may end. -/
def TokenKind.isBoundary (kind : TokenKind) : Bool :=
  kind.isSeparator || kind.isCloser || kind == .endOfFile

theorem TokenKind.eq_of_isBoundary {kind : TokenKind} (h : kind.isBoundary = true) :
    kind = .newline ∨ kind = .semicolon ∨ (∃ bracket, kind = .closer bracket) ∨
      kind = .endOfFile := by
  cases kind with
  | closer bracket => exact Or.inr (Or.inr (Or.inl ⟨bracket, rfl⟩))
  | newline => exact Or.inl rfl
  | semicolon => exact Or.inr (Or.inl rfl)
  | endOfFile => exact Or.inr (Or.inr (Or.inr rfl))
  | _ => cases h

/-- Words in which every delimiter has a partner of its own pair. -/
inductive WellNested : List TokenKind → Prop
  | nil : WellNested []
  | plain {kind : TokenKind} {rest : List TokenKind} (hkind : kind.isPlain = true)
      (hrest : WellNested rest) : WellNested (kind :: rest)
  | pair (bracket : Bracket) {inside rest : List TokenKind} (hinside : WellNested inside)
      (hrest : WellNested rest) :
      WellNested (.opener bracket :: (inside ++ .closer bracket :: rest))

/-- The delimiters that are open after one more token, the innermost first. -/
def openAfter (opened : List Bracket) : TokenKind → List Bracket
  | .opener bracket => bracket :: opened
  | .closer _ => opened.tail
  | _ => opened

/-- The delimiters that are open after a word. -/
def openBrackets (kinds : List TokenKind) : List Bracket := kinds.foldl openAfter []

@[simp] theorem openBrackets_nil : openBrackets [] = [] := rfl

@[simp] theorem openBrackets_concat (kinds : List TokenKind) (kind : TokenKind) :
    openBrackets (kinds ++ [kind]) = openAfter (openBrackets kinds) kind := by
  simp [openBrackets]

theorem openAfter_plain {kind : TokenKind} (opened : List Bracket) (h : kind.isPlain = true) :
    openAfter opened kind = opened := by
  cases kind <;> first | rfl | simp [TokenKind.isPlain] at h

theorem length_openAfter_le (opened : List Bracket) (kind : TokenKind) :
    (openAfter opened kind).length ≤ opened.length + 1 := by
  cases kind with
  | opener => exact Nat.le_refl _
  | closer => exact Nat.le_succ_of_le ((List.tail_sublist opened).length_le)
  | _ => exact Nat.le_succ _

theorem length_foldl_openAfter_le (kinds : List TokenKind) (opened : List Bracket) :
    (kinds.foldl openAfter opened).length ≤ opened.length + kinds.length := by
  induction kinds generalizing opened with
  | nil => exact Nat.le_refl _
  | cons kind rest ih =>
    have hkind := length_openAfter_le opened kind
    have hrest := ih (openAfter opened kind)
    rw [List.foldl_cons, List.length_cons]
    omega

theorem TokenKind.isPlain_of_separates {kind : TokenKind} {commas : Bool}
    (h : kind.separates commas = true) : kind.isPlain = true := by
  cases kind <;> first | rfl | (cases commas <;> simp [separates, isSeparator] at h)

theorem TokenKind.exists_of_isCloser {kind : TokenKind} (h : kind.isCloser = true) :
    ∃ bracket, kind = .closer bracket := by
  cases kind with
  | closer bracket => exact ⟨bracket, rfl⟩
  | _ => cases h

namespace TokenStream

/-! ### The stack in front of a token -/

/-- The delimiters that are open in front of a token, the innermost first. -/
def opened (stream : TokenStream) (position : Nat) : List Bracket :=
  openBrackets ((stream.tokens.toList.take position).map Token.kind)

/-- The kinds of the tokens from `start` up to, and not including, `stop`. -/
def kindsBetween (stream : TokenStream) (start stop : Nat) : List TokenKind :=
  (List.range' start (stop - start)).map stream.kind

@[simp] theorem kindsBetween_self (stream : TokenStream) (position : Nat) :
    stream.kindsBetween position position = [] := by
  simp [kindsBetween]

/-- The kinds of a stretch, split at a token in it. -/
theorem kindsBetween_split {stream : TokenStream} {start middle stop : Nat}
    (hstart : start ≤ middle) (hstop : middle < stop) :
    stream.kindsBetween start stop = stream.kindsBetween start middle ++
      stream.kind middle :: stream.kindsBetween (middle + 1) stop := by
  have hcount : stop - start = (middle - start) + (stop - (middle + 1) + 1) := by omega
  have hplace : start + (middle - start) = middle := by omega
  simp only [kindsBetween]
  rw [hcount, ← List.range'_append_1, hplace, List.range'_succ, List.map_append, List.map_cons]

@[simp] theorem opened_zero (stream : TokenStream) : stream.opened 0 = [] := by
  simp [opened]

/-- No more delimiters are open than there are tokens. -/
theorem length_opened_le (stream : TokenStream) (position : Nat) :
    (stream.opened position).length ≤ stream.size := by
  refine Nat.le_trans (length_foldl_openAfter_le ..) ?_
  rw [List.length_nil, Nat.zero_add, List.length_map, List.length_take, Array.length_toList]
  exact Nat.min_le_right ..

theorem getElem?_tokens {stream : TokenStream} {position : Nat} (h : position < stream.size) :
    stream.tokens[position]? = some (stream.token position) := by
  have hlt : position < stream.tokens.size := h
  rw [token, Array.getElem?_eq_getElem hlt, Option.getD_some]

theorem token_mem {stream : TokenStream} {position : Nat} (h : position < stream.size) :
    stream.token position ∈ stream.tokens :=
  Array.mem_of_getElem? (getElem?_tokens h)

/-- What is open further on, in terms of what is open at a place. -/
theorem opened_add (stream : TokenStream) (position offset : Nat) :
    stream.opened (position + offset) =
      (((stream.tokens.toList.drop position).take offset).map Token.kind).foldl openAfter
        (stream.opened position) := by
  rw [opened, opened, openBrackets, openBrackets, List.take_add, List.map_append, List.foldl_append]

theorem opened_succ {stream : TokenStream} {position : Nat} (h : position < stream.size) :
    stream.opened (position + 1) =
      openAfter (stream.opened position) (stream.kind position) := by
  have htake : stream.tokens.toList.take (position + 1) =
      stream.tokens.toList.take position ++ [stream.token position] := by
    rw [List.take_add_one, Array.getElem?_toList, getElem?_tokens h, Option.toList_some]
  simp only [opened, htake, List.map_append, List.map_cons, List.map_nil,
    openBrackets_concat]
  rfl

theorem kind_last (stream : TokenStream) : stream.kind (stream.size - 1) = .endOfFile := by
  have hback := stream.last_eq
  have hget : stream.tokens[stream.size - 1]? = some stream.last := by
    rw [← hback, Array.back?_eq_getElem?]
    rfl
  simp [kind, token, hget, stream.last_kind]

/-- The kinds at the start of a stream. -/
theorem kindsBetween_zero {stream : TokenStream} {stop : Nat} (h : stop ≤ stream.size) :
    stream.kindsBetween 0 stop = (stream.tokens.toList.take stop).map Token.kind := by
  induction stop with
  | zero => rfl
  | succ stop ih =>
    have hlt : stop < stream.size := h
    rw [kindsBetween_split (Nat.zero_le stop) (Nat.lt_succ_self stop), kindsBetween_self,
      ih (Nat.le_of_lt hlt), List.take_add_one, Array.getElem?_toList, getElem?_tokens hlt,
      Option.toList_some, List.map_append]
    rfl

/-- Every closer fits the innermost delimiter that is open, nothing is open at the end of the file,
which comes last, and the depths of a stream count what is open. -/
structure Balanced (stream : TokenStream) : Prop where
  closer_fits : ∀ {position bracket}, position < stream.size →
    stream.kind position = .closer bracket → ∃ outer, stream.opened position = bracket :: outer
  settled : stream.opened (stream.size - 1) = []
  end_last : ∀ {position}, position < stream.size → stream.kind position = .endOfFile →
    position + 1 = stream.size
  depth_eq : ∀ {position}, position < stream.size →
    stream.depth position = (stream.opened position).length

variable {stream : TokenStream}

theorem succ_lt_size {position : Nat} (hlt : position < stream.size)
    (hkind : stream.kind position ≠ .endOfFile) : position + 1 < stream.size := by
  rcases Nat.lt_or_ge (position + 1) stream.size with h | h
  · exact h
  · have hlast : position = stream.size - 1 := by omega
    exact absurd (hlast ▸ stream.kind_last) hkind

/-- Behind a token that is not the end of the file another one follows. -/
theorem succ_lt_size_of_kind {position : Nat} {kind : TokenKind} (h : stream.kind position = kind)
    (hend : kind ≠ .endOfFile) : position + 1 < stream.size := by
  refine succ_lt_size (Nat.lt_of_not_le fun hle => hend ?_) (h ▸ hend)
  rw [← h, kind_of_size_le hle]

theorem opened_succ_plain {position : Nat} (hlt : position < stream.size)
    (hkind : (stream.kind position).isPlain = true) :
    stream.opened (position + 1) = stream.opened position := by
  rw [opened_succ hlt, openAfter_plain _ hkind]

theorem opened_succ_opener {position : Nat} {bracket : Bracket} (hlt : position < stream.size)
    (hkind : stream.kind position = .opener bracket) :
    stream.opened (position + 1) = bracket :: stream.opened position := by
  rw [opened_succ hlt, hkind]
  rfl

theorem opened_succ_closer {position : Nat} {bracket : Bracket} (hlt : position < stream.size)
    (hkind : stream.kind position = .closer bracket) :
    stream.opened (position + 1) = (stream.opened position).tail := by
  rw [opened_succ hlt, hkind]
  rfl

/-! ### Staying within a pair of delimiters -/

/-- Going from `p` to `q`, everything that was open in front of `p` stays open. -/
structure Within (stream : TokenStream) (p q : Nat) : Prop where
  le : p ≤ q
  lt : q < stream.size
  suffix : ∀ k, p ≤ k → k ≤ q → stream.opened p <:+ stream.opened k

theorem Within.refl {p : Nat} (h : p < stream.size) : stream.Within p p where
  le := Nat.le_refl p
  lt := h
  suffix k hpk hkp := by
    obtain rfl := Nat.le_antisymm hpk hkp
    exact List.suffix_rfl

theorem Within.trans {p q r : Nat} (hpq : stream.Within p q) (hqr : stream.Within q r) :
    stream.Within p r where
  le := Nat.le_trans hpq.le hqr.le
  lt := hqr.lt
  suffix k hpk hkr := by
    rcases Nat.le_total k q with hkq | hqk
    · exact hpq.suffix k hpk hkq
    · exact (hpq.suffix q hpq.le (Nat.le_refl q)).trans (hqr.suffix k hqk hkr)

/-- What is open in front of the last token reached is open there too. -/
theorem Within.last {p q : Nat} (h : stream.Within p q) : stream.opened p <:+ stream.opened q :=
  h.suffix q h.le (Nat.le_refl q)

/-- One more token may be passed if it closes nothing that was open at the start. -/
theorem Within.succ {p q : Nat} (h : stream.Within p q) (hkind : stream.kind q ≠ .endOfFile)
    (hopened : stream.opened p <:+ stream.opened (q + 1)) : stream.Within p (q + 1) where
  le := Nat.le_succ_of_le h.le
  lt := succ_lt_size h.lt hkind
  suffix k hpk hkq := by
    rcases Nat.lt_or_eq_of_le hkq with hlt | rfl
    · exact h.suffix k hpk (Nat.le_of_lt_succ hlt)
    · exact hopened

theorem Within.restrict {p q r : Nat} (h : stream.Within p r) (hpq : p ≤ q) (hqr : q ≤ r) :
    stream.Within p q where
  le := hpq
  lt := Nat.lt_of_le_of_lt hqr h.lt
  suffix k hpk hkq := h.suffix k hpk (Nat.le_trans hkq hqr)

/-! ### The end of what an opener opens -/

/-- A closer of that kind is due where nothing but what is open in front of `first` is open: it is
the partner of the opener in front of `first`, or the end of the file. -/
inductive Opens (stream : TokenStream) (first : Nat) : TokenKind → Prop
  | afterOpener (bracket : Bracket) (hpos : 0 < first)
      (hkind : stream.kind (first - 1) = .opener bracket) : Opens stream first (.closer bracket)
  | outside (hopened : stream.opened first = []) : Opens stream first .endOfFile

/-- The token at `close` ends the part of the stream that begins at `first`. -/
structure Closes (stream : TokenStream) (first : Nat) (closer : TokenKind) (close : Nat) :
    Prop where
  le : first ≤ close
  lt : close < stream.size
  opens : stream.Opens first closer
  wellNested : WellNested (stream.kindsBetween first close)
  kind_eq : stream.kind close = closer

theorem Opens.opened_eq {first : Nat} {bracket : Bracket} (hlt : first < stream.size)
    (h : stream.Opens first (.closer bracket)) :
    stream.opened first = bracket :: stream.opened (first - 1) := by
  cases h with
  | afterOpener _ hpos hkind =>
    have hsucc : first - 1 + 1 = first := by omega
    rw [← opened_succ_opener (by omega) hkind, hsucc]

namespace Balanced

variable (balanced : stream.Balanced)
include balanced

/-- Nothing is open at the end of the file. -/
theorem opened_end {q : Nat} (hlt : q < stream.size) (hend : stream.kind q = .endOfFile) :
    stream.opened q = [] := by
  have hlast := balanced.end_last hlt hend
  rw [show q = stream.size - 1 by omega]
  exact balanced.settled

/-- So nothing is open anywhere from which the end of the file is still within. -/
theorem opened_eq_of_end {p q : Nat} (h : stream.Within p q)
    (hend : stream.kind q = .endOfFile) : stream.opened q = stream.opened p := by
  have hsuffix := h.last
  rw [balanced.opened_end h.lt hend] at hsuffix ⊢
  exact (List.suffix_nil.1 hsuffix).symm

/-- A closer where nothing more is open than in front of `first` is the one that is due. -/
theorem closer_eq {first q : Nat} {closer : TokenKind} (hopens : stream.Opens first closer)
    (hwithin : stream.Within first q) (hopened : stream.opened q = stream.opened first)
    (hcloser : (stream.kind q).isCloser = true) : stream.kind q = closer := by
  obtain ⟨bracket, hkind⟩ := TokenKind.exists_of_isCloser hcloser
  obtain ⟨outer, houter⟩ := balanced.closer_fits hwithin.lt hkind
  have hfirst : first < stream.size := Nat.lt_of_le_of_lt hwithin.le hwithin.lt
  cases hopens with
  | afterOpener due hpos hdue =>
    have hdue := (Opens.afterOpener due hpos hdue).opened_eq hfirst
    rw [hopened, hdue] at houter
    rw [hkind, (List.cons.inj houter).1]
  | outside hnone =>
    rw [hopened, hnone] at houter
    cases houter

/-- The end of the file lies outside of everything that an opener opens. -/
theorem end_due {first q : Nat} {closer : TokenKind} (hopens : stream.Opens first closer)
    (hwithin : stream.Within first q) (hend : stream.kind q = .endOfFile) :
    closer = .endOfFile := by
  cases hopens with
  | outside => rfl
  | afterOpener bracket hpos hkind =>
    have hsome := (Opens.afterOpener bracket hpos hkind).opened_eq
      (Nat.lt_of_le_of_lt hwithin.le hwithin.lt)
    rw [← balanced.opened_eq_of_end hwithin hend, balanced.opened_end hwithin.lt hend] at hsome
    cases hsome

/-- Passing a token that closes nothing of what was open at the start. -/
theorem within_succ {p q : Nat} (h : stream.Within p q) (hend : stream.kind q ≠ .endOfFile)
    (hinner : (stream.kind q).isCloser = true →
      (stream.opened p).length < (stream.opened q).length) : stream.Within p (q + 1) := by
  refine h.succ hend ?_
  cases hk : stream.kind q with
  | opener bracket =>
    rw [opened_succ_opener h.lt hk]
    exact h.last.trans (List.suffix_cons ..)
  | closer bracket =>
    obtain ⟨outer, houter⟩ := balanced.closer_fits h.lt hk
    -- more is open than in front of `p`, so the delimiter that is closed was opened since
    have hlength := hinner (by rw [hk]; rfl)
    have hlast := h.last
    rw [opened_succ_closer h.lt hk, houter]
    rw [houter] at hlength hlast
    rcases List.suffix_cons_iff.1 hlast with heq | hsuffix
    · rw [heq] at hlength
      exact absurd hlength (Nat.lt_irrefl _)
    · exact hsuffix
  | endOfFile => exact absurd hk hend
  | _ =>
    rw [opened_succ_plain h.lt (by rw [hk]; rfl)]
    exact h.last

/-- Following a stream from `first` on, either everything up to its end stays within, or there is
a closer that ends what is open in front of `first`, and nothing beyond it stays within. -/
theorem exists_bound {first q : Nat} (h : stream.Within first q) :
    ∃ close, stream.Within first close ∧ stream.opened close = stream.opened first ∧
      (∀ r, stream.Within first r → r ≤ close) ∧
      ((stream.kind close).isCloser = true ∨ stream.kind close = .endOfFile) := by
  by_cases hend : stream.kind q = .endOfFile
  · have hlast := balanced.end_last h.lt hend
    refine ⟨q, h, balanced.opened_eq_of_end h hend, fun r hr => ?_, Or.inr hend⟩
    have hlt := hr.lt
    omega
  · -- the token at `q` may be passed, unless it closes what was innermost in front of `first`
    by_cases hinner : (stream.kind q).isCloser = true →
        (stream.opened first).length < (stream.opened q).length
    · have hnext := balanced.within_succ h hend hinner
      have hbound := hnext.lt
      exact exists_bound hnext
    · obtain ⟨hcloser, hlength⟩ := Classical.not_imp.1 hinner
      have heq : stream.opened first = stream.opened q :=
        h.last.eq_of_length_le (Nat.le_of_not_lt hlength)
      refine ⟨q, h, heq.symm, fun r hr => ?_, Or.inl hcloser⟩
      rcases Nat.lt_or_ge q r with hqr | hrq
      · -- the token after the closer lacks what the closer closed
        obtain ⟨bracket, hkind⟩ := TokenKind.exists_of_isCloser hcloser
        obtain ⟨outer, houter⟩ := balanced.closer_fits h.lt hkind
        have hsuffix := hr.suffix (q + 1) (Nat.le_succ_of_le h.le) hqr
        rw [opened_succ_closer h.lt hkind, heq, houter] at hsuffix
        have hshort := hsuffix.length_le
        simp only [List.tail_cons, List.length_cons] at hshort
        omega
      · exact hrq
termination_by stream.size - q

/-- The partner of an opener comes before any place where no more is open than in front of the
opener, as long as nothing else is closed on the way there. -/
theorem exists_partner {p q : Nat} {bracket : Bracket} (h : stream.Within p q) (hlt : p < q)
    (hopened : stream.opened q = stream.opened p) (hkind : stream.kind p = .opener bracket) :
    ∃ close, close < q ∧ stream.Within (p + 1) close ∧
      stream.opened close = stream.opened (p + 1) ∧ stream.kind close = .closer bracket ∧
      stream.opened (close + 1) = stream.opened p := by
  have hp : p < stream.size := Nat.lt_trans hlt h.lt
  have hinner := opened_succ_opener hp hkind
  have hnext : p + 1 < stream.size := Nat.lt_of_le_of_lt hlt h.lt
  obtain ⟨close, hclose, hsame, -, hend⟩ := balanced.exists_bound (Within.refl hnext)
  have hbefore : close < q := by
    rcases Nat.lt_or_ge close q with hlt | hge
    · exact hlt
    · -- the opener would still be open at `q`
      have hsuffix := hclose.suffix q hlt hge
      rw [hopened, hinner] at hsuffix
      have hshort := hsuffix.length_le
      simp only [List.length_cons] at hshort
      omega
  have hcloser : stream.kind close = .closer bracket := by
    have hopens : stream.Opens (p + 1) (.closer bracket) :=
      .afterOpener bracket (Nat.succ_pos p) hkind
    rcases hend with hcloser | hend
    · exact balanced.closer_eq hopens hclose hsame hcloser
    · have hlast := balanced.end_last hclose.lt hend
      have hq := h.lt
      omega
  refine ⟨close, hbefore, hclose, hsame, hcloser, ?_⟩
  rw [opened_succ_closer hclose.lt hcloser, hsame, hinner]
  rfl

/-- A stretch of a stream that ends where it began, as far as delimiters go, is well nested. -/
theorem wellNested_kindsBetween {p q : Nat} (h : stream.Within p q)
    (hopened : stream.opened q = stream.opened p) : WellNested (stream.kindsBetween p q) := by
  rcases Nat.eq_or_lt_of_le h.le with rfl | hlt
  · rw [kindsBetween_self]
    exact .nil
  · have hp : p < stream.size := Nat.lt_trans hlt h.lt
    have hafter : stream.Within p (p + 1) := h.restrict (Nat.le_succ p) hlt
    rw [kindsBetween_split (Nat.le_refl p) hlt, kindsBetween_self, List.nil_append]
    cases hk : stream.kind p with
    | opener bracket =>
      obtain ⟨close, hbefore, hclose, hsame, hcloser, hpast⟩ :=
        balanced.exists_partner h hlt hopened hk
      have hle := hclose.le
      have hrest : stream.Within (close + 1) q := by
        refine ⟨hbefore, h.lt, fun k hck hkq => ?_⟩
        rw [hpast]
        exact h.suffix k (by omega) hkq
      rw [kindsBetween_split hle hbefore, hcloser]
      exact .pair bracket (wellNested_kindsBetween hclose hsame)
        (wellNested_kindsBetween hrest (hopened.trans hpast.symm))
    | closer bracket =>
      -- it would close a delimiter that was open in front of `p`
      obtain ⟨outer, houter⟩ := balanced.closer_fits hp hk
      have hsuffix := hafter.last
      rw [opened_succ_closer hp hk, houter] at hsuffix
      have hshort := hsuffix.length_le
      simp only [List.tail_cons, List.length_cons] at hshort
      omega
    | endOfFile =>
      have hlast := balanced.end_last hp hk
      have hq := h.lt
      omega
    | _ =>
      have hplain := opened_succ_plain hp (by rw [hk]; rfl)
      refine .plain rfl (wellNested_kindsBetween ?_ (hopened.trans hplain.symm))
      refine ⟨hlt, h.lt, fun k hpk hkq => ?_⟩
      rw [hplain]
      exact h.suffix k (Nat.le_of_succ_le hpk) hkq
termination_by q - p

/-- Where nothing more is open than in front of `first`, the token that is due ends what began
there. -/
theorem closes {first q : Nat} {closer : TokenKind} (hopens : stream.Opens first closer)
    (hwithin : stream.Within first q) (hopened : stream.opened q = stream.opened first)
    (hkind : stream.kind q = closer) : stream.Closes first closer q where
  le := hwithin.le
  lt := hwithin.lt
  opens := hopens
  wellNested := balanced.wellNested_kindsBetween hwithin hopened
  kind_eq := hkind

/-- What begins at `first` has an end, and nothing that stays within it gets past that end. -/
theorem exists_closes {first : Nat} {closer : TokenKind} (hlt : first < stream.size)
    (hopens : stream.Opens first closer) :
    ∃ close, stream.Closes first closer close ∧ ∀ q, stream.Within first q → q ≤ close := by
  obtain ⟨close, hwithin, hopened, hmax, hkind⟩ :=
    balanced.exists_bound (Within.refl hlt)
  refine ⟨close, balanced.closes hopens hwithin hopened ?_, hmax⟩
  rcases hkind with hcloser | hend
  · exact balanced.closer_eq hopens hwithin hopened hcloser
  · rw [hend, balanced.end_due hopens hwithin hend]

/-- What is open in front of a token was opened by some token before it, and nothing that was open
there has been closed since. -/
theorem exists_opener {position : Nat} {bracket : Bracket} {outer : List Bracket}
    (hlt : position < stream.size) (hopened : stream.opened position = bracket :: outer) :
    ∃ start, start < position ∧ stream.kind start = .opener bracket ∧
      stream.opened start = outer ∧ stream.Within (start + 1) position := by
  cases position with
  | zero =>
    rw [opened_zero] at hopened
    cases hopened
  | succ position =>
    have hbefore : position < stream.size := Nat.lt_of_succ_lt hlt
    have hstep := opened_succ hbefore
    rw [hopened] at hstep
    -- a token that leaves the stack as it is has the same opener as the next one
    have hpass : stream.opened position = bracket :: outer →
        ∃ start, start < position + 1 ∧ stream.kind start = .opener bracket ∧
          stream.opened start = outer ∧ stream.Within (start + 1) (position + 1) := by
      intro hsame
      obtain ⟨start, hstart, hkind, houter, hwithin⟩ := exists_opener hbefore hsame
      have hinner := opened_succ_opener (Nat.lt_trans hstart hbefore) hkind
      refine ⟨start, Nat.lt_succ_of_lt hstart, hkind, houter, Nat.succ_le_succ (Nat.le_of_lt hstart),
        hlt, fun k hpk hkq => ?_⟩
      rcases Nat.lt_or_eq_of_le hkq with hk | rfl
      · exact hwithin.suffix k hpk (Nat.le_of_lt_succ hk)
      · have hstack : stream.opened (position + 1) = stream.opened (start + 1) := by
          rw [hopened, hinner, houter]
        exact hstack ▸ List.suffix_rfl
    cases hk : stream.kind position with
    | opener own =>
      rw [hk] at hstep
      obtain ⟨rfl, rfl⟩ := List.cons.inj hstep
      exact ⟨position, Nat.lt_succ_self position, hk, rfl, .refl hlt⟩
    | closer own =>
      -- the closer's opener stands behind the one that is looked for
      obtain ⟨inner, hinner⟩ := balanced.closer_fits hbefore hk
      rw [hk, hinner] at hstep
      obtain ⟨middle, hmiddle, hkind, hrest, hclosed⟩ := exists_opener hbefore hinner
      rw [show inner = bracket :: outer from hstep.symm] at hrest
      obtain ⟨start, hstart, hopener, houter, hwithin⟩ :=
        exists_opener (Nat.lt_trans hmiddle hbefore) hrest
      have hfirst := opened_succ_opener (Nat.lt_trans hstart (Nat.lt_trans hmiddle hbefore)) hopener
      refine ⟨start, by omega, hopener, houter, by omega, hlt, fun k hpk hkq => ?_⟩
      rw [hfirst, houter]
      rcases Nat.lt_or_ge k (middle + 1) with hk | hk
      · have hsuffix := hwithin.suffix k hpk (Nat.le_of_lt_succ hk)
        rwa [hfirst, houter] at hsuffix
      rcases Nat.lt_or_eq_of_le hkq with hlast | rfl
      · have hsuffix := hclosed.suffix k hk (Nat.le_of_lt_succ hlast)
        rw [opened_succ_opener (Nat.lt_trans hmiddle hbefore) hkind, hrest] at hsuffix
        exact (List.suffix_cons ..).trans hsuffix
      · exact hopened ▸ List.suffix_rfl
    | _ => exact hpass (by rw [hk] at hstep; exact hstep.symm)
termination_by position

end Balanced

/-! ### The opener of a closer -/

/-- A word in which every delimiter has a partner leaves what is open as it is. -/
theorem foldl_openAfter_wellNested {kinds : List TokenKind} (h : WellNested kinds)
    (opened : List Bracket) : kinds.foldl openAfter opened = opened := by
  induction h generalizing opened with
  | nil => rfl
  | plain hkind _ ih => rw [List.foldl_cons, openAfter_plain opened hkind, ih]
  | pair bracket _ _ ihinside ihrest =>
    rw [List.foldl_cons, List.foldl_append, ihinside, List.foldl_cons]
    exact ihrest opened

/-- Nor does a part of such a word close anything that is open in front of it. -/
theorem suffix_foldl_openAfter {kinds : List TokenKind} (h : WellNested kinds)
    (opened : List Bracket) {before after : List TokenKind} (hsplit : kinds = before ++ after) :
    opened <:+ before.foldl openAfter opened := by
  induction h generalizing opened before after with
  | nil =>
    rw [(List.append_eq_nil_iff.1 hsplit.symm).1]
    exact List.suffix_rfl
  | plain hkind _ ih =>
    rcases List.cons_eq_append_iff.1 hsplit with ⟨rfl, -⟩ | ⟨before, rfl, hrest⟩
    · exact List.suffix_rfl
    · rw [List.foldl_cons, openAfter_plain opened hkind]
      exact ih opened hrest
  | pair bracket hinside _ ihinside ihrest =>
    rcases List.cons_eq_append_iff.1 hsplit with ⟨rfl, -⟩ | ⟨before, rfl, hrest⟩
    · exact List.suffix_rfl
    rw [List.foldl_cons]
    rcases List.append_eq_append_iff.1 hrest with ⟨middle, rfl, hmiddle⟩ | ⟨middle, hinner, -⟩
    · rw [List.foldl_append, foldl_openAfter_wellNested hinside]
      rcases List.cons_eq_append_iff.1 hmiddle with ⟨rfl, -⟩ | ⟨middle, rfl, hafter⟩
      · exact List.suffix_cons ..
      · exact ihrest opened hafter
    · exact (List.suffix_cons ..).trans (ihinside (bracket :: opened) hinner)

/-- What is open further on, in terms of the kinds in between. -/
theorem opened_eq_foldl {start stop : Nat} (hle : start ≤ stop) (hlt : stop ≤ stream.size) :
    stream.opened stop = (stream.kindsBetween start stop).foldl openAfter (stream.opened start) := by
  induction hle with
  | refl => rw [kindsBetween_self, List.foldl_nil]
  | @step stop hle ih =>
    rw [opened_succ hlt, kindsBetween_split hle (Nat.lt_succ_self stop), kindsBetween_self,
      List.foldl_append, ← ih (Nat.le_of_succ_le hlt)]
    rfl

/-- A closer belongs to one opener only. -/
theorem Closes.first_le {first first' close : Nat} {bracket : Bracket}
    (h : stream.Closes first (.closer bracket) close)
    (h' : stream.Closes first' (.closer bracket) close) : first' ≤ first := by
  refine Nat.le_of_not_lt fun hlt => ?_
  have hfirst := h.opens.opened_eq (Nat.lt_of_le_of_lt h.le h.lt)
  have hfirst' := h'.opens.opened_eq (Nat.lt_of_le_of_lt h'.le h'.lt)
  have hopened : ∀ {first}, stream.Closes first (.closer bracket) close →
      stream.opened close = stream.opened first := fun h => by
    rw [opened_eq_foldl h.le (Nat.le_of_lt h.lt), foldl_openAfter_wellNested h.wellNested]
  have hsame : stream.opened (first - 1) = stream.opened (first' - 1) := by
    have heq := (hopened h).symm.trans (hopened h')
    rw [hfirst, hfirst'] at heq
    exact (List.cons.inj heq).2
  -- in front of the second opener the first one is still open
  have hle : first ≤ first' - 1 := Nat.le_sub_one_of_lt hlt
  have hlt' : first' - 1 < close := Nat.lt_of_lt_of_le (Nat.sub_one_lt_of_lt hlt) h'.le
  have hsuffix := suffix_foldl_openAfter h.wellNested (stream.opened first)
    (kindsBetween_split hle hlt')
  rw [← opened_eq_foldl hle (Nat.le_of_lt (Nat.lt_trans hlt' h.lt)), hfirst, ← hsame] at hsuffix
  exact absurd hsuffix.length_le (Nat.not_succ_le_self _)

end TokenStream

end SableFrontend
