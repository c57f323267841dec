import SableFrontend.Text.Lines
import SableFrontend.Toml.Scalar

/-!
TOML documents. A document is a list of statements: pairs of a key and a value, and headers that
say where the pairs after them belong. Two kinds of mark keep statements from contradicting each
other: a table with a header of its own is not opened again, and what is written inline is not
changed afterwards.
-/

namespace SableFrontend.Toml

/-! ### Placing values -/

/-- A path of keys. -/
abbrev Path : Type := List String

/-- Changes the table at a path, making tables on the way. Where an array stands on the way, its
last item is meant if `throughArrays` is set. -/
def updateAt (throughArrays : Bool) (change : Table → Except Fault Table) :
    Path → Table → Except Fault Table
  | [], table => change table
  | key :: path, table =>
    match table.get? key with
    | none => do
      let inner ← updateAt throughArrays change path []
      return Table.set table key (.table inner)
    | some (.table entries) => do
      let inner ← updateAt throughArrays change path entries
      return Table.set table key (.table inner)
    | some (.array items) =>
      match throughArrays, items.getLast? with
      | true, some (.table entries) => do
        let inner ← updateAt throughArrays change path entries
        return Table.set table key (.array (items.dropLast ++ [.table inner]))
      | _, _ => .error .malformed
    | some _ => .error .malformed

/-- Puts a value under a key that has none. -/
def insertNew (key : String) (value : Value) (table : Table) : Except Fault Table :=
  match table.get? key with
  | none => .ok (table.set key value)
  | some _ => .error .malformed

/-- Puts an empty table at the end of the array under a key. -/
def appendTable (key : String) (table : Table) : Except Fault Table :=
  match table.get? key with
  | none => .ok (table.set key (.array [.table []]))
  | some (.array items) => .ok (table.set key (.array (items ++ [.table []])))
  | some _ => .error .malformed

/-- The keys before the last one, and the last one. -/
def splitPath (path : Path) : Path × String := (path.dropLast, path.getLast?.getD "")

/-! ### Marks -/

/-- What later statements may not touch. -/
structure Marks where
  headed : List Path
  frozen : List Path
  pending : List Path

namespace Marks

/-- No marks. -/
def none : Marks := { headed := [], frozen := [], pending := [] }

/-- Whether a table has been opened already. -/
def isHeaded (marks : Marks) (path : Path) : Bool := marks.headed.contains path

/-- Whether a path leads into something that was written inline. -/
def isFrozen (marks : Marks) (path : Path) : Bool := marks.frozen.any (·.isPrefixOf path)

/-- Makes the tables that dotted keys opened count as opened. -/
def settle (marks : Marks) : Marks :=
  { marks with headed := marks.pending ++ marks.headed, pending := [] }

/-- Takes the marks off a path and everything below it. -/
def clear (marks : Marks) (path : Path) : Marks :=
  { marks with
    headed := marks.headed.filter fun marked => !path.isPrefixOf marked
    frozen := marks.frozen.filter fun marked => !path.isPrefixOf marked }

end Marks

/-! ### Values -/

/-- The productions of values, which nest: a value, the items of an array after its opening, and
the entries of an inline table after its opening. -/
inductive ValueRule where
  | value
  | items (before : List Value)
  | entries (before : Table) (frozen : List Path)

/-- A pair of a key and a value, of which the reader of values is given. -/
def readPair (value : List Char → Except Fault (Value × List Char)) (text : List Char) :
    Except Fault ((Path × Value) × List Char) := do
  let (key, left) ← readKey text
  let rest ← (after? '=' left).elim (.error .malformed) .ok
  let (read, left) ← value (skipBlanks rest)
  return ((key, read), left)

/-- Puts a pair into an inline table. -/
def insertPair (before : Table) (frozen : List Path) (key : Path) (value : Value) :
    Except Fault Table :=
  if frozen.any (·.isPrefixOf key) then .error .malformed
  else
    let (parent, stem) := splitPath key
    updateAt false (insertNew stem value) parent before

/-- A value that begins with a digit, a sign or a letter. -/
def readAtom (text : List Char) : Except Fault (Value × List Char) :=
  if ['t', 'r', 'u', 'e'].isPrefixOf text then .ok (.flag true, text.drop 4)
  else if ['f', 'a', 'l', 's', 'e'].isPrefixOf text then .ok (.flag false, text.drop 5)
  else (((moment? text).or (number? text)).or (specialFloat? text)).getD (.error .malformed)

/-- How deep values may nest. An array takes two of this budget, and an inline table three. -/
def nestingBudget : Nat := 980

/-- Reads a value or the rest of a container. At most `fuel` productions follow each other, and
`depth` is what is left of the nesting budget. -/
def readValue : (fuel depth : Nat) → ValueRule → List Char → Except Fault (Value × List Char)
  | 0, _, _, _ => .error .malformed
  | fuel + 1, depth, .value, text =>
    match text with
    | '"' :: rest => (readString '"' rest).map fun read => (.text read.1, read.2)
    | '\'' :: rest => (readString '\'' rest).map fun read => (.text read.1, read.2)
    | '[' :: rest => do
      match ← skipLayout rest with
      | ']' :: left => return (.array [], left)
      | left => if depth < 2 then .error .tooDeep else readValue fuel (depth - 2) (.items []) left
    | '\x7b' :: rest =>
      match skipBlanks rest with
      | '\x7d' :: left => .ok (.table [], left)
      | left =>
        if depth < 3 then .error .tooDeep else readValue fuel (depth - 3) (.entries [] []) left
    | _ => readAtom text
  | fuel + 1, depth, .items before, text => do
    let (item, left) ← readValue fuel depth .value text
    match ← skipLayout left with
    | ']' :: left => return (.array (before ++ [item]), left)
    | ',' :: more =>
      match ← skipLayout more with
      | ']' :: left => return (.array (before ++ [item]), left)
      | left => readValue fuel depth (.items (before ++ [item])) left
    | _ => .error .malformed
  | fuel + 1, depth, .entries before frozen, text => do
    let ((key, value), left) ← readPair (readValue fuel depth .value) text
    let entries ← insertPair before frozen key value
    match skipBlanks left with
    | '\x7d' :: left => return (.table entries, left)
    | ',' :: more =>
      readValue fuel depth
        (.entries entries (if value.isContainer then key :: frozen else frozen))
        (skipBlanks more)
    | _ => .error .malformed

/-! ### Statements -/

/-- A document as far as it has been read: its values, its marks, and the table that the pairs
belong to. -/
structure Progress where
  root : Table
  marks : Marks
  header : Path

/-- The header of a table. -/
def openTable (progress : Progress) (path : Path) : Except Fault Progress := do
  let marks := progress.marks.settle
  if marks.isHeaded path || marks.isFrozen path then .error .malformed
  let root ← updateAt true .ok path progress.root
  return {
    root := root
    marks := { marks with headed := path :: marks.headed }
    header := path }

/-- The header of a new item of an array of tables. -/
def openItem (progress : Progress) (path : Path) : Except Fault Progress := do
  let marks := progress.marks.settle
  if marks.isFrozen path then .error .malformed
  let cleared := marks.clear path
  let (parent, stem) := splitPath path
  let root ← updateAt true (appendTable stem) parent progress.root
  return {
    root := root
    marks := { cleared with headed := path :: cleared.headed }
    header := path }

/-- The tables that a dotted key opens, from the header on. -/
def openedBy (header key : Path) : List Path :=
  (List.range (key.length - 1)).map fun count => header ++ key.take (count + 1)

/-- A pair of a key and a value. -/
def addPair (progress : Progress) (key : Path) (value : Value) : Except Fault Progress := do
  let marks := progress.marks
  let opened := openedBy progress.header key
  let (parent, stem) := splitPath key
  if opened.any marks.isHeaded || marks.isFrozen (progress.header ++ parent) then
    .error .malformed
  let root ← updateAt true (insertNew stem value) (progress.header ++ parent) progress.root
  let frozen :=
    if value.isContainer then (progress.header ++ key) :: marks.frozen else marks.frozen
  return {
    progress with
    root := root
    marks := { marks with frozen := frozen, pending := opened ++ marks.pending } }

/-- Whether a character can begin a pair. -/
def opensPair (c : Char) : Bool := isBareKeyChar c || c == '"' || c == '\''

/-- The statement at the start of a text without leading blanks, if there is one, with the blanks
after it. -/
def readStatement (progress : Progress) (text : List Char) :
    Except Fault (Progress × List Char) := do
  match text with
  | '[' :: '[' :: rest =>
    let (path, left) ← readKey (skipBlanks rest)
    let opened ← openItem progress path
    if left.take 2 == [']', ']'] then return (opened, skipBlanks (left.drop 2))
    else .error .malformed
  | '[' :: rest =>
    let (path, left) ← readKey (skipBlanks rest)
    let opened ← openTable progress path
    if left.head? == some ']' then return (opened, skipBlanks (left.drop 1)) else .error .malformed
  | c :: _ =>
    if opensPair c then
      let ((key, value), left) ← readPair (readValue (text.length + 1) nestingBudget .value) text
      return (← addPair progress key value, skipBlanks left)
    else return (progress, text)
  | [] => return (progress, text)

/-- Reads the statements of a text; every line takes at least one character, so there are at most
`fuel` of them. -/
def readStatements : (fuel : Nat) → Progress → List Char → Except Fault Progress
  | 0, _, _ => .error .malformed
  | fuel + 1, progress, text => do
    let (next, left) ← readStatement progress (skipBlanks text)
    match ← skipComment left with
    | [] => return next
    | '\n' :: rest => readStatements fuel next rest
    | _ => .error .malformed

/-- The table that a TOML document denotes. A line may end with a carriage return. -/
def parse (text : String) : Except Fault Table := do
  let content := Text.joinLineEnds text.toList
  let progress ← readStatements (content.length + 1) { root := [], marks := .none, header := [] }
    content
  return progress.root

end SableFrontend.Toml
