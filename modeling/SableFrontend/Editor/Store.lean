import SableFrontend.Editor.Document

/-!
The documents that an editor has open, by address, and the requests it makes about them. Opening
and changing replace a document as a whole; a request never changes one.
-/

namespace SableFrontend.Editor

/-- The open documents. -/
structure Store where
  documents : List (String × Document)

namespace Store

/-- Nothing is open. -/
def empty : Store := { documents := [] }

/-- The document of an address, if it is open. -/
def get? (store : Store) (uri : String) : Option Document := store.documents.lookup uri

/-- Opens a document or replaces it. -/
def insert (store : Store) (uri : String) (document : Document) : Store :=
  { documents := (uri, document) :: store.documents.filter fun entry => entry.1 != uri }

/-- Closes a document. -/
def erase (store : Store) (uri : String) : Store :=
  { documents := store.documents.filter fun entry => entry.1 != uri }

/-- The addresses of the open documents, in order. -/
def uris (store : Store) : List String :=
  (store.documents.map (·.1)).mergeSort fun a b => decide (a ≤ b)

end Store

/-- A request of an editor. A change gives whole texts, of which the last counts. -/
inductive Request where
  | openDocument (uri text : String)
  | change (uri : String) (texts : List String)
  | close (uri : String)
  | hover (uri : String) (place : Place)
  | completion (uri : String)
  | symbols (uri : String)

/-- The answer to a request. -/
inductive Answer where
  | analyzed (uri : String) (document : Document)
  | overlong (literal : OverlongInteger)
  | closed (uris : List String)
  | hover (text? : Option String)
  | misplaced (fault : PlaceFault)
  | completion (items : List Completion)
  | symbols (symbols : List DocumentSymbol)

namespace Store

/-- Analyses a text and keeps it. A text that cannot be analysed changes nothing. -/
def analyze (store : Store) (uri text : String) : Store × Answer :=
  match Document.analyze uri text with
  | .ok document => (store.insert uri document, .analyzed uri document)
  | .error literal => (store, .overlong literal)

/-- What is shown at a place of a document. -/
def hover (store : Store) (uri : String) (place : Place) : Answer :=
  match place.fault? with
  | some fault => .misplaced fault
  | none => .hover ((store.get? uri).bind (·.hover? place))

/-- Answers a request. -/
def handle (store : Store) : Request → Store × Answer
  | .openDocument uri text => store.analyze uri text
  | .change uri texts => store.analyze uri (texts.getLast?.getD "")
  | .close uri => (store.erase uri, .closed (store.erase uri).uris)
  | .hover uri place => (store, store.hover uri place)
  | .completion uri => (store, .completion (completions (store.get? uri)))
  | .symbols uri => (store, .symbols (Editor.symbols (store.get? uri)))

end Store

end SableFrontend.Editor
