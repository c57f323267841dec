import SableFrontend.Proofs.Grammar.Reading
import SableFrontend.Proofs.Token.BracketWindow
import SableFrontend.Proofs.Tree.Nodes

/-!
What square brackets become. The form of an opener is read off the tokens around it before anything
is parsed, and the production that is chosen for it makes a node of that form. There is one exception:
a point in front of an opener makes an update of it also where the two do not touch, though the form
of the opener is then that of what is inside (`TokenStream.Formed`). All nodes of all trees that are
read are formed in this way (`Setting.Yields`).
-/

namespace SableFrontend

open TokenStream SableFrontend.Parser Outlined

/-! ### Openers and nodes -/

namespace TokenStream

/-- The square brackets that a node ends with are opened at an index. -/
def Brackets (stream : TokenStream) (node : Outline) (index : Nat) : Prop :=
  ∃ close, stream.Closes (index + 1) (.closer .square) close ∧
    node.span.stop = (stream.token close).span.stop

/-- A node in square brackets is what the form of its opener says, unless it is an update without a
target whose point does not touch the opener: then it is something else. -/
def Formed (stream : TokenStream) (node : Outline) : Prop :=
  ∀ use, BracketUse.ofKind? node.kind = some use →
    ∃ index form, stream.Brackets node index ∧
      BracketForm.atIndex stream.tokens (index : Int) = .ok form ∧
      (form.use? = some use ↔ (node.kind = "RecordUpdateLambda" →
        (stream.token (index - 1)).touches (stream.token index) = true))

variable {stream : TokenStream}

theorem holdsOutside_formed : HoldsOutside stream.Formed :=
  fun _ hkind _ huse => nomatch hkind.symm.trans huse

theorem formed_of_form {kind : String} {fields : List OutlineField} {span : Span}
    {index close : Nat} {form : BracketForm}
    (hform : BracketForm.atIndex stream.tokens (index : Int) = .ok form)
    (hcloses : stream.Closes (index + 1) (.closer .square) close)
    (hstop : span.stop = (stream.token close).span.stop)
    (huse : form.use? = BracketUse.ofKind? kind) (hkind : kind ≠ "RecordUpdateLambda") :
    stream.Formed { kind := kind, fields := fields, span := span } :=
  fun _ huse' => ⟨index, form, ⟨close, hcloses, hstop⟩, hform, fun _ heq => absurd heq hkind,
    fun _ => huse.trans huse'⟩

end TokenStream

namespace Setting

variable {set : Setting} {α β : Type} {parser : Parser α} {next : α → Parser β}
  {state start : ParserState}

/-! ### Answers -/

/-- Something holds if a parser answers. -/
abbrev Answers (set : Setting) (parser : Parser α) (state : ParserState)
    (returns : α → ParserState → Prop) : Prop :=
  set.Runs parser state returns fun _ _ => True

section

variable {returns : α → ParserState → Prop} {stops : Abort → ParserState → Prop}

theorem Runs.answers (h : set.Runs parser state returns stops) :
    set.Answers parser state returns :=
  h.mono (fun _ _ hreturns => hreturns) fun _ _ _ => trivial

theorem answers_of_forall (h : ∀ answer final, returns answer final) :
    set.Answers parser state returns := by
  unfold Answers Setting.Runs
  split
  · exact h _ _
  · trivial

end

section

variable [Outlined α] [Outlined β]

/-- All nodes of what a parser answers are formed as their square brackets are. -/
def Yields (set : Setting) (parser : Parser α) : Prop :=
  ∀ state, set.Answers parser state fun answer _ => All set.stream.Formed answer

namespace Yields

theorem pure {answer : α} (h : All set.stream.Formed answer) :
    set.Yields (Pure.pure answer : Parser α) :=
  fun _ => Runs.pure h

theorem throw {abort : Abort} : set.Yields (MonadExcept.throw abort : Parser α) :=
  fun _ => Runs.throw trivial

theorem bind (h : set.Yields parser)
    (hnext : ∀ answer, All set.stream.Formed answer → set.Yields (next answer)) :
    set.Yields (parser >>= next) :=
  fun state => .bind ((h state).mono (fun answer final hanswer => hnext answer hanswer final)
    fun _ _ _ => trivial)

theorem map {function : α → β} (h : set.Yields parser)
    (hmap : ∀ answer, All set.stream.Formed answer → All set.stream.Formed (function answer)) :
    set.Yields (function <$> parser) :=
  fun state => .map ((h state).mono (fun answer _ hanswer => hmap answer hanswer)
    fun _ _ _ => trivial)

/-- What is read first does not matter. -/
theorem after {γ : Type} {first : Parser γ} {next : γ → Parser α}
    (hnext : ∀ answer, set.Yields (next answer)) : set.Yields (first >>= next) :=
  fun _ => .bind (answers_of_forall fun answer final => hnext answer final)

theorem ite {c : Prop} [Decidable c] {first second : Parser α} (hpos : c → set.Yields first)
    (hneg : ¬c → set.Yields second) : set.Yields (if c then first else second) := by
  split
  · exact hpos ‹_›
  · exact hneg ‹_›

theorem unexpected {expected : List String} {context : String} :
    set.Yields (Parser.unexpected expected context : Parser α) :=
  after fun _ => after fun _ => throw

theorem failWith {kind : DiagnosticKind} {message : String} {span : Span} {notes : List String} :
    set.Yields (Parser.failWith kind message span notes : Parser α) :=
  after fun _ => throw

theorem tryCatch {handler : Abort → Parser α} (h : set.Yields parser)
    (hhandler : ∀ abort, set.Yields (handler abort)) :
    set.Yields (MonadExcept.tryCatch parser handler) :=
  fun state => .tryCatch (by
    unfold Setting.Runs
    have hparser := h state
    unfold Answers Setting.Runs at hparser
    split <;> rename_i heq
    · rw [heq] at hparser
      exact hparser
    · exact hhandler _ _)

/-! ### Loops -/

/-- A loop of which each step is taken where the test has found something. -/
theorem repeatWhileAt {continues : ParserState → Prop} {test : Parser Bool} {step : α → Parser α}
    {value : α}
    (htest : ∀ state, set.Answers test state fun more final => more = true → continues final)
    (hstep : ∀ value state, All set.stream.Formed value → continues state →
      set.Answers (step value) state fun answer _ => All set.stream.Formed answer)
    (hvalue : All set.stream.Formed value) : set.Yields (Parser.repeatWhile test step value) := by
  refine after fun stream => ?_
  generalize stream.size = count
  induction count generalizing value with
  | zero => exact throw
  | succ count ih =>
    refine fun state => .bind ((htest state).mono (fun more middle hmore => ?_) fun _ _ _ => trivial)
    refine .ite (fun hat => ?_) fun _ => .pure hvalue
    exact .bind ((hstep value middle hvalue (hmore hat)).mono (fun _ final h => ih h final)
      fun _ _ _ => trivial)

theorem repeatWhile {test : Parser Bool} {step : α → Parser α} {value : α}
    (hstep : ∀ value, All set.stream.Formed value → set.Yields (step value))
    (hvalue : All set.stream.Formed value) : set.Yields (Parser.repeatWhile test step value) :=
  repeatWhileAt (fun _ => answers_of_forall fun _ _ _ => trivial)
    (fun value state h _ => hstep value h state) hvalue

theorem collectWhile {test : Parser Bool} (h : set.Yields parser) :
    set.Yields (Parser.collectWhile test parser) := by
  refine bind (repeatWhile (fun answers hanswers => bind h fun answer hanswer => pure ?_) all_nil)
    fun reversed hreversed => pure (all_reverse hreversed)
  exact all_cons hanswer hanswers

theorem recover (h : set.Yields parser) : set.Yields (Parser.recover parser) := by
  refine after fun before => tryCatch (map h fun answer hanswer => all_some hanswer) fun abort => ?_
  split
  · exact after fun _ => after fun _ => pure all_none
  · exact throw

theorem items {closer : TokenKind} {commas : Bool} {what : String} (h : set.Yields parser) :
    set.Yields (Parser.items parser closer commas what) := by
  have hitem : ∀ within answers, All set.stream.Formed answers →
      set.Yields (nextItem parser within what answers) := by
    intro within answers hanswers
    refine after fun _ => bind (bind (recover h) fun answer? hanswer => ?_) fun more hmore =>
      after fun _ => after fun _ => after fun _ => pure hmore
    cases answer? with
    | none => exact after fun _ => pure hanswers
    | some answer =>
      have hall : All set.stream.Formed (answer :: answers) :=
        all_cons (hanswer answer rfl) hanswers
      exact after fun _ => ite (fun _ => after fun _ => pure hall) fun _ => pure hall
  exact after fun within => after fun _ => after fun _ =>
    bind (repeatWhile (hitem within) all_nil) fun reversed hreversed =>
      after fun _ => after fun _ => pure (all_reverse hreversed)

theorem mapM {γ : Type} {action : γ → Parser α} {list : List γ}
    (haction : ∀ element ∈ list, set.Yields (action element)) : set.Yields (list.mapM action) := by
  have hloop : ∀ answers : List α, All set.stream.Formed answers →
      set.Yields (List.mapM.loop action list answers) := by
    induction list with
    | nil => exact fun answers h => pure (all_reverse h)
    | cons first rest ih =>
      obtain ⟨hfirst, hrest⟩ := List.forall_mem_cons.1 haction
      exact fun answers h => bind hfirst fun answer hanswer =>
        ih hrest _ (all_cons hanswer h)
  exact hloop [] all_nil

end Yields

end

end Setting

end SableFrontend
