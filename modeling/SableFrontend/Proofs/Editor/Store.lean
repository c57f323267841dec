import Mathlib.Data.List.Induction
import SableFrontend.Editor.Store
import SableFrontend.Proofs.Files.Association

/-!
Documents do not interfere. What a request is answered about a document depends on the last text
that the document was supplied with, and on no other request before it: neither on those about
other documents, nor on earlier texts, nor on texts that could not be analysed
(`Store.answer_after`).

A request that only asks looks at nothing but its own document (`Store.answer_congr`). So it is
enough to follow one address through a run: one step says what each request does to an address
(`Store.get?_handle`), and a run over requests of which none supplies or closes it leaves it alone
(`Store.get?_after_of_untouched`).
-/

namespace SableFrontend.Editor

/-! ### What requests are about -/

namespace Request

/-- The address of the document that a request is about. -/
def uri : Request → String
  | openDocument uri _ | change uri _ | close uri | hover uri _ | completion uri | symbols uri => uri

/-- Whether a request only asks for an answer. -/
def asks : Request → Bool
  | hover _ _ | completion _ | symbols _ => true
  | openDocument _ _ | change _ _ | close _ => false

/-- The text that a request gives its document. Of the texts of a change the last one counts, and
a change without any empties the document. -/
def text? : Request → Option String
  | openDocument _ text => some text
  | change _ texts => some (texts.getLast?.getD "")
  | close _ | hover _ _ | completion _ | symbols _ => none

/-- What comes of analysing the text that a request gives, if it gives one that can be analysed. -/
def document? (request : Request) : Option Document :=
  request.text?.bind fun text => (Document.analyze request.uri text).toOption

/-- A request that gives a document a text that can be analysed. -/
def Supplies (uri : String) (request : Request) : Prop :=
  request.uri = uri ∧ request.document?.isSome = true

end Request

/-- A request by which the document of an address may become another one. -/
def Request.Touches (uri : String) (request : Request) : Prop :=
  request.Supplies uri ∨ request = .close uri

/-- The request that a document goes back to after a run of requests: the last one that supplied
it, unless it has been closed since. -/
inductive Remains (uri : String) (requests : List Request) : Option Request → Prop
  | supplied (before later : List Request) (request : Request)
      (split : requests = before ++ request :: later) (supplies : request.Supplies uri)
      (untouched : ∀ other ∈ later, ¬other.Touches uri) : Remains uri requests (some request)
  | closed (all_closed : ∀ before later request, requests = before ++ request :: later →
      request.Supplies uri → Request.close uri ∈ later) : Remains uri requests none

namespace Store

variable {store other : Store} {uri : String} {request query : Request}

/-- The documents that are open after a run of requests. -/
def after (store : Store) (requests : List Request) : Store :=
  requests.foldl (fun store request => (store.handle request).1) store

@[simp] theorem after_nil : store.after [] = store := rfl

@[simp] theorem after_append (requests more : List Request) :
    store.after (requests ++ more) = (store.after requests).after more := by
  simp [after]

@[simp] theorem after_cons (requests : List Request) :
    store.after (request :: requests) = (store.handle request).1.after requests := rfl

/-! ### Looking documents up -/

@[simp] theorem get?_empty : empty.get? uri = none := rfl

theorem get?_erase (address : String) :
    (store.erase address).get? uri = if uri = address then none else store.get? uri :=
  lookup_filter_ne _ store.documents

theorem get?_insert (address : String) (document : Document) :
    (store.insert address document).get? uri =
      if uri = address then some document else store.get? uri := by
  refine (lookup_cons_eq ..).trans ?_
  split
  · rfl
  · next hne => exact (lookup_filter_ne _ store.documents).trans (if_neg hne)

/-! ### One step -/

/-- A request that only asks leaves everything as it was. -/
theorem handle_of_asks (h : request.asks = true) : (store.handle request).1 = store := by
  cases request <;> first | rfl | cases h

/-- Of a change only its last text counts. -/
theorem handle_change (texts : List String) :
    store.handle (.change uri texts) = store.handle (.openDocument uri (texts.getLast?.getD "")) :=
  rfl

theorem handle_of_text? {text : String} (h : request.text? = some text) :
    store.handle request = store.analyze request.uri text := by
  cases request <;> cases h <;> rfl

/-- A text that cannot be analysed leaves everything as it was. -/
theorem handle_of_overlong {text : String} {literal : OverlongInteger}
    (htext : request.text? = some text)
    (hanalyze : Document.analyze request.uri text = .error literal) :
    store.handle request = (store, .overlong literal) := by
  rw [handle_of_text? htext, analyze, hanalyze]

/-- What a request that supplies its document makes of the open documents. -/
theorem handle_of_document? {document : Document} (h : request.document? = some document) :
    (store.handle request).1 = store.insert request.uri document := by
  obtain ⟨text, htext, hdocument⟩ := Option.bind_eq_some_iff.1 h
  rw [handle_of_text? htext, analyze]
  cases hanalyze : Document.analyze request.uri text with
  | ok found =>
    rw [hanalyze] at hdocument
    cases hdocument
    rfl
  | error literal =>
    rw [hanalyze] at hdocument
    cases hdocument

/-- A request that neither supplies a document nor closes it leaves it alone. -/
theorem get?_handle_of_not_touches (h : ¬request.Touches uri) :
    (store.handle request).1.get? uri = store.get? uri := by
  cases hdocument : request.document? with
  | some document =>
    have hne : uri ≠ request.uri := fun heq =>
      h (Or.inl ⟨heq.symm, by rw [hdocument]; rfl⟩)
    rw [handle_of_document? hdocument, get?_insert, if_neg hne]
  | none =>
    cases htext : request.text? with
    | some text =>
      -- its text could not be analysed
      rw [Request.document?, htext, Option.bind_some] at hdocument
      cases hanalyze : Document.analyze request.uri text with
      | ok document => rw [hanalyze] at hdocument; cases hdocument
      | error literal => rw [handle_of_overlong htext hanalyze]
    | none =>
      cases request with
      | openDocument | change => cases htext
      | close address =>
        have hne : uri ≠ address := fun heq => h (Or.inr (heq ▸ rfl))
        exact (get?_erase address).trans (if_neg hne)
      | hover | completion | symbols => rfl

theorem get?_handle_of_supplies (h : request.Supplies uri) :
    (store.handle request).1.get? uri = request.document? := by
  obtain ⟨rfl, hsome⟩ := h
  obtain ⟨document, hdocument⟩ := Option.isSome_iff_exists.1 hsome
  rw [handle_of_document? hdocument, get?_insert, if_pos rfl, hdocument]

@[simp] theorem get?_handle_close : (store.handle (.close uri)).1.get? uri = none :=
  (get?_erase uri).trans (if_pos rfl)

/-- What a request asks is answered from its own document alone. -/
theorem answer_congr (hasks : query.asks = true)
    (h : store.get? query.uri = other.get? query.uri) :
    (store.handle query).2 = (other.handle query).2 := by
  cases query with
  | openDocument | change | close => cases hasks
  | hover address place =>
    show store.hover address place = other.hover address place
    rw [Store.hover, Store.hover, show store.get? address = other.get? address from h]
  | completion address =>
    show Answer.completion (completions (store.get? address)) = .completion (completions _)
    rw [show store.get? address = other.get? address from h]
  | symbols address =>
    show Answer.symbols (Editor.symbols (store.get? address)) = .symbols (Editor.symbols _)
    rw [show store.get? address = other.get? address from h]

/-! ### Runs -/

/-- Requests that neither supply a document nor close it leave it alone. -/
theorem get?_after_of_untouched {requests : List Request}
    (h : ∀ request ∈ requests, ¬request.Touches uri) :
    (store.after requests).get? uri = store.get? uri := by
  induction requests generalizing store with
  | nil => rfl
  | cons request rest ih =>
    obtain ⟨hfirst, hrest⟩ := List.forall_mem_cons.1 h
    rw [after_cons, ih hrest, get?_handle_of_not_touches hfirst]

/-- A document that was closed after every request that supplied it is not open. The induction
takes the requests from the last one on: behind a close nothing is left, and a request that supplies
the document has no close behind it. -/
theorem get?_after_of_closed {requests : List Request}
    (h : ∀ before later request, requests = before ++ request :: later → request.Supplies uri →
      Request.close uri ∈ later) :
    (empty.after requests).get? uri = none := by
  induction requests using List.reverseRecOn with
  | nil => rfl
  | append_singleton requests last ih =>
    rw [after_append, after_cons, after_nil]
    by_cases hclose : last = .close uri
    · rw [hclose, get?_handle_close]
    · have hsupplies : ¬last.Supplies uri := fun hsupplies =>
        List.not_mem_nil (h requests [] last rfl hsupplies)
      rw [get?_handle_of_not_touches (not_or.2 ⟨hsupplies, hclose⟩)]
      refine ih fun before later request hsplit hrequest => ?_
      have hmem := h before (later ++ [last]) request (by rw [hsplit]; simp) hrequest
      rcases List.mem_append.1 hmem with hlater | hlast
      · exact hlater
      · exact absurd (List.mem_singleton.1 hlast).symm hclose

/-- The document of an address is the one of the request that it goes back to. -/
theorem get?_after {requests : List Request} {last? : Option Request}
    (h : Remains uri requests last?) :
    (empty.after requests).get? uri = (empty.after last?.toList).get? uri := by
  cases h with
  | supplied before later request split supplies untouched =>
    rw [split, after_append, after_cons, get?_after_of_untouched untouched,
      get?_handle_of_supplies supplies, Option.toList_some, after_cons, after_nil,
      get?_handle_of_supplies supplies]
  | closed all_closed => exact get?_after_of_closed all_closed

end Store

/-- A request of a run is the last one, or the last one comes behind it. -/
theorem eq_or_exists_of_concat_eq {requests before later : List Request} {last request : Request}
    (h : requests ++ [last] = before ++ request :: later) :
    request = last ∧ later = [] ∨
      ∃ rest, later = rest ++ [last] ∧ requests = before ++ request :: rest := by
  rcases List.eq_nil_or_concat later with rfl | ⟨rest, final, rfl⟩
  · exact Or.inl ⟨(List.append_singleton_inj.1 h).2.symm, rfl⟩
  · rw [List.concat_eq_append] at h ⊢
    rw [← List.cons_append, ← List.append_assoc] at h
    obtain ⟨hfront, rfl⟩ := List.append_singleton_inj.1 h
    exact Or.inr ⟨rest, rfl, hfront⟩

/-- There is always a request that a document goes back to, or it is not open. -/
theorem exists_remains (uri : String) (requests : List Request) :
    ∃ last?, Remains uri requests last? := by
  induction requests using List.reverseRecOn with
  | nil => exact ⟨none, .closed fun _ _ _ hsplit => absurd hsplit.symm (by simp)⟩
  | append_singleton requests last ih =>
    by_cases hsupplies : last.Supplies uri
    · exact ⟨some last, .supplied requests [] last rfl hsupplies (by simp)⟩
    obtain ⟨last?, hremains⟩ := ih
    by_cases hclose : last = .close uri
    · refine ⟨none, .closed fun before later request hsplit hrequest => ?_⟩
      rcases eq_or_exists_of_concat_eq hsplit with ⟨rfl, -⟩ | ⟨rest, rfl, -⟩
      · exact absurd hrequest hsupplies
      · exact List.mem_append_right rest (List.mem_singleton.2 hclose.symm)
    cases hremains with
    | supplied before later request split supplies untouched =>
      refine ⟨some request, .supplied before (later ++ [last]) request ?_ supplies ?_⟩
      · rw [split, List.append_assoc, List.cons_append]
      · refine List.forall_mem_append.2 ⟨untouched, List.forall_mem_singleton.2 ?_⟩
        exact not_or.2 ⟨hsupplies, hclose⟩
    | closed all_closed =>
      refine ⟨none, .closed fun before later request hsplit hrequest => ?_⟩
      rcases eq_or_exists_of_concat_eq hsplit with ⟨rfl, -⟩ | ⟨rest, rfl, hfront⟩
      · exact absurd hrequest hsupplies
      · exact List.mem_append_left _ (all_closed before rest request hfront hrequest)

/-- After any run of requests, a request that asks about a document is answered as by an editor that
was only given the request that the document goes back to, of which there is always exactly one or
none. The request that asks changes nothing, nor does a text that cannot be analysed, and of a change
only the last text counts. -/
theorem Store.answer_after (requests : List Request) (query : Request) (hasks : query.asks = true) :
    (∃ last?, Remains query.uri requests last?) ∧
    (∀ last?, Remains query.uri requests last? →
      ((Store.empty.after requests).handle query).2 =
        ((Store.empty.after last?.toList).handle query).2) ∧
    (∀ store : Store, (store.handle query).1 = store) ∧
    (∀ (store : Store) (request : Request) (text : String) (literal : OverlongInteger),
      request.text? = some text → Document.analyze request.uri text = .error literal →
      store.handle request = (store, .overlong literal)) ∧
    ∀ (store : Store) (uri : String) (texts : List String),
      store.handle (.change uri texts) =
        store.handle (.openDocument uri (texts.getLast?.getD "")) :=
  ⟨exists_remains query.uri requests,
    fun _ hremains => answer_congr hasks (get?_after hremains),
    fun _ => handle_of_asks hasks,
    fun _ _ _ _ htext hanalyze => handle_of_overlong htext hanalyze,
    fun _ _ texts => handle_change texts⟩

/-- Another document is opened, closed and opened again after the one that is asked about. -/
theorem Store.exists_answer_after :
    ∃ opening later, Remains "a" (opening :: later) (some opening) ∧ later.length = 3 ∧
      (Request.hover "a" ⟨1, 0⟩).asks = true ∧
      ((Store.empty.after (opening :: later)).handle (.hover "a" ⟨1, 0⟩)).2 =
        ((Store.empty.after [opening]).handle (.hover "a" ⟨1, 0⟩)).2 ∧
      (match ((Store.empty.after [opening]).handle (.hover "a" ⟨1, 0⟩)).2 with
        | .hover text? => text? == some "`f @ Int`"
        | _ => false) = true := by
  let opening : Request := .openDocument "a" "f @ Int\nf = 1"
  let later : List Request := [.change "b" ["f = 1", "f @ T\nf = 2"], .close "b",
    .openDocument "b" "f = ("]
  have hremains : Remains "a" (opening :: later) (some opening) := by
    refine .supplied [] later opening rfl ⟨rfl, by decide +kernel⟩ fun other hmem => ?_
    have huri : other.uri = "b" := by
      simp only [later, List.mem_cons, List.not_mem_nil, or_false] at hmem
      rcases hmem with rfl | rfl | rfl <;> rfl
    rintro (⟨heq, -⟩ | rfl)
    · exact absurd (huri.symm.trans heq) (by decide)
    · exact absurd huri (by decide)
  exact ⟨opening, later, hremains, rfl, rfl,
    (Store.answer_after (opening :: later) (.hover "a" ⟨1, 0⟩) rfl).2.1 _ hremains,
    by decide +kernel⟩

end SableFrontend.Editor
