import Mathlib
import SableFrontend.Project.Scaffold
import SableFrontend.Proofs.Toml.Statements

/-!
The settings of a new project. Its name is put between quotes as it is, so the settings give it back
exactly if it is plain (`Settings.ofText_settingsText_iff`).
-/

namespace SableFrontend

namespace Text

variable {text rest : List Char}

theorem joinLineEnds_append (hrest : rest.head? ≠ some '\n') :
    joinLineEnds (text ++ rest) = joinLineEnds text ++ joinLineEnds rest := by
  fun_induction joinLineEnds text with
  | case1 => rfl
  | case2 more ih => simp [joinLineEnds, ih]
  | case3 c more hne ih =>
    have hpair : ∀ after, c = '\r' → more ++ rest = '\n' :: after → False := by
      intro after hc hmore
      cases more with
      | nil => exact hrest (by rw [← List.nil_append rest, hmore]; rfl)
      | cons d others =>
        obtain ⟨rfl, -⟩ := List.cons.inj hmore
        exact hne others hc rfl
    rw [List.cons_append, joinLineEnds.eq_3 _ _ hpair, ih, List.cons_append]

theorem length_joinLineEnds_le : (joinLineEnds text).length ≤ text.length := by
  fun_induction joinLineEnds text with
  | case1 => exact Nat.le_refl 0
  | case2 more ih => simp; omega
  | case3 c more hne ih => exact Nat.succ_le_succ ih

theorem mem_of_mem_joinLineEnds {c : Char} (h : c ∈ joinLineEnds text) : c ∈ text := by
  fun_induction joinLineEnds text with
  | case1 => exact h
  | case2 more ih =>
    rcases List.mem_cons.1 h with rfl | hmem
    · simp
    · exact List.mem_cons_of_mem _ (List.mem_cons_of_mem _ (ih hmem))
  | case3 d more hne ih =>
    rcases List.mem_cons.1 h with rfl | hmem
    · exact List.mem_cons_self ..
    · exact List.mem_cons_of_mem _ (ih hmem)

/-- Only a text that keeps a newline is shortened. -/
theorem joinLineEnds_of_not_mem (h : '\n' ∉ joinLineEnds text) : joinLineEnds text = text := by
  fun_induction joinLineEnds text with
  | case1 => rfl
  | case2 more ih => simp at h
  | case3 c more hne ih => rw [ih fun hmem => h (List.mem_cons_of_mem c hmem)]

theorem joinLineEnds_of_return_not_mem {text : List Char} (h : '\r' ∉ text) :
    joinLineEnds text = text := by
  fun_induction joinLineEnds text with
  | case1 => rfl
  | case2 more ih => simp at h
  | case3 c more hne ih => rw [ih fun hmem => h (List.mem_cons_of_mem c hmem)]

end Text

namespace Scaffold

/-- What the settings of a new project say behind its name. -/
def settingsTail : String :=
  "\"\nversion = \"0.1.0\"\nauthors = []\n\n" ++ "[source]\ndirs = [\"src\"]\n\n" ++
    "[check]\ncolor = true\nwarnings_as_errors = false\n"

/-- The lines of the settings behind the one of the name. -/
def settingsLines : List Char := settingsTail.toList.drop 2

theorem toList_settingsTail : settingsTail.toList = '"' :: '\n' :: settingsLines := by
  decide +kernel

theorem settingsText_eq (name : String) :
    settingsText name = "[package]\nname = \"" ++ name ++ settingsTail := by
  have hassoc (a b c d e : String) : a ++ b ++ c ++ d ++ e = a ++ b ++ (c ++ d ++ e) := by
    simp only [String.append_assoc]
  exact hassoc ..

/-- The settings of a new project. -/
def settings (name : String) : Settings :=
  { name := .text name, version := .text "0.1.0" }

theorem joinLineEnds_settingsText (name : String) :
    Text.joinLineEnds (settingsText name).toList = "[package]\n".toList ++
      ("name = \"".toList ++ (Text.joinLineEnds name.toList ++ '"' :: '\n' :: settingsLines)) := by
  have hfront : ∀ text, Text.joinLineEnds ("[package]\nname = \"".toList ++ text) =
      "[package]\n".toList ++ ("name = \"".toList ++ Text.joinLineEnds text) := fun text => by cbv
  have hback : Text.joinLineEnds ('"' :: '\n' :: settingsLines) = '"' :: '\n' :: settingsLines := by
    decide +kernel
  rw [settingsText_eq, String.toList_append, String.toList_append, List.append_assoc, hfront,
    toList_settingsTail, Text.joinLineEnds_append (by simp), hback]

end Scaffold

namespace Toml

/-! ### The first lines -/

/-- A document as far as it has been read, behind the header of its package. -/
def Progress.inPackage (entries : Table) : Progress :=
  { root := [("package", .table entries)]
    marks := { headed := [["package"]], frozen := [], pending := [] }
    header := ["package"] }

theorem readStatement_header (rest : List Char) :
    readStatement { root := [], marks := .none, header := [] } ("[package]\n".toList ++ rest) =
      .ok (.inPackage [], '\n' :: rest) := by
  cbv

theorem readKey_name (rest : List Char) :
    readKey ("name = \"".toList ++ rest) = .ok (["name"], '=' :: ' ' :: '"' :: rest) := by
  cbv

theorem readStatement_name (rest : List Char) :
    readStatement (.inPackage []) ("name = \"".toList ++ rest) =
      (readString '"' rest).map fun read =>
        (.inPackage [("name", .text read.1)], skipBlanks read.2) := by
  let value := readValue (("name = \"".toList ++ rest).length + 1) nestingBudget .value
  have hvalue : value ('"' :: rest) =
      (readString '"' rest).map fun read => (.text read.1, read.2) := rfl
  have hpair : readPair value ("name = \"".toList ++ rest) =
      (readString '"' rest).map fun read => ((["name"], .text read.1), read.2) := by
    rw [readPair, readKey_name]
    show (value ('"' :: rest)).bind _ = _
    rw [hvalue]
    cases readString '"' rest <;> rfl
  show (readPair value ("name = \"".toList ++ rest)).bind _ = _
  rw [hpair]
  cases readString '"' rest <;> rfl

/-- Reads on behind the statement of a line. -/
def readLines (fuel : Nat) (progress : Progress) (text : List Char) : Except Fault Progress := do
  match ← skipComment text with
  | [] => return progress
  | '\n' :: rest => readStatements fuel progress rest
  | _ => .error .malformed

theorem readStatements_succ (fuel : Nat) (progress : Progress) (text : List Char) :
    readStatements (fuel + 1) progress text =
      (readStatement progress (skipBlanks text)).bind fun read => readLines fuel read.1 read.2 :=
  rfl

theorem text?_readLines {fuel : Nat} {progress last : Progress} {text : List Char}
    {path : Path} {value : String} (h : readLines fuel progress text = .ok last)
    (htext : progress.root.text? path = some value) : last.root.text? path = some value := by
  obtain ⟨line, hline, h⟩ := exists_of_bind_eq_ok h
  split at h
  · cases h
    exact htext
  · exact text?_readStatements h htext
  · cases h

theorem readLines_newline (fuel : Nat) (progress : Progress) (rest : List Char) :
    readLines fuel progress ('\n' :: rest) = readStatements fuel progress rest := rfl

/-- What the name reads as comes first in a document, whatever it is. -/
theorem readStatements_name (fuel : Nat) (rest : List Char) :
    readStatements (fuel + 2) { root := [], marks := .none, header := [] }
        ("[package]\n".toList ++ ("name = \"".toList ++ rest)) =
      (readString '"' rest).bind fun read =>
        readLines fuel (.inPackage [("name", .text read.1)]) (skipBlanks read.2) := by
  rw [readStatements_succ]
  show (readStatement _ ("[package]\n".toList ++ ("name = \"".toList ++ rest))).bind _ = _
  rw [readStatement_header]
  show readLines (fuel + 1) _ _ = _
  rw [readLines_newline, readStatements_succ]
  show (readStatement _ ("name = \"".toList ++ rest)).bind _ = _
  rw [readStatement_name]
  cases readString '"' rest <;> rfl

/-- The lines behind the name read as they are meant, whatever the name is. -/
theorem readStatements_settingsLines (fuel : Nat) (name : String) :
    (readStatements (fuel + 11) (.inPackage [("name", .text name)]) Scaffold.settingsLines).map
        (·.root) =
      .ok [("package", .table [("name", .text name), ("version", .text "0.1.0"),
          ("authors", .array [])]),
        ("source", .table [("dirs", .array [.text "src"])]),
        ("check", .table [("color", .flag true), ("warnings_as_errors", .flag false)])] := by
  have hlines : Scaffold.settingsLines = ("version = \"0.1.0\"\nauthors = []\n\n" ++
      ("[source]\ndirs = [\"src\"]\n\n" ++
        "[check]\ncolor = true\nwarnings_as_errors = false\n")).toList := by decide +kernel
  rw [hlines]
  cbv

/-- The characters of a project's name, as they stand in its settings when they are read. -/
abbrev nameRead (name : String) : List Char :=
  Text.joinLineEnds name.toList ++ '"' :: '\n' :: Scaffold.settingsLines

theorem parse_settingsText (name : String) :
    ∃ fuel, parse (Scaffold.settingsText name) =
      (readString '"' (nameRead name)).bind fun read =>
        (readLines (fuel + 11) (.inPackage [("name", .text read.1)]) (skipBlanks read.2)).map
          (·.root) := by
  have hlength : 12 ≤ (Text.joinLineEnds (Scaffold.settingsText name).toList).length := by
    rw [Scaffold.joinLineEnds_settingsText, List.length_append, List.length_append,
      ← Nat.add_assoc]
    exact Nat.le_trans (by decide) (Nat.le_add_right _ _)
  obtain ⟨fuel, hfuel⟩ := Nat.exists_eq_add_of_le' hlength
  refine ⟨fuel, ?_⟩
  rw [parse, hfuel, Scaffold.joinLineEnds_settingsText, readStatements_name (fuel + 11)]
  cases readString '"' (nameRead name) <;> rfl

theorem not_isPlain_newline : ¬IsPlain '\n' := by decide

theorem barren_settingsLines : Barren ('\n' :: Scaffold.settingsLines) := by decide +kernel

end Toml

namespace Settings

/-- The name that settings take from a document is the text that stands at it. -/
theorem name_of_ofDocument {document : Toml.Table} {settings : Settings} {value : String}
    (h : ofDocument document = .ok settings)
    (htext : document.text? ["package", "name"] = some value) : settings.name = .text value := by
  rcases Toml.Table.get?_of_text?_cons htext with ⟨hnil, -⟩ | ⟨entries, hentries, hname⟩
  · cases hnil
  have hpackage : entriesOf document "package" = .ok entries := by rw [entriesOf, hentries]
  rw [ofDocument, hpackage] at h
  replace h : (entriesOf document "source").bind _ = .ok settings := h
  obtain ⟨source, -, h⟩ := exists_of_bind_eq_ok h
  obtain ⟨check, -, h⟩ := exists_of_bind_eq_ok h
  cases h
  show (Toml.Table.get? entries "name").getD standard.name = .text value
  rw [Toml.Table.get?_of_text?_singleton hname]
  rfl

theorem ofText_eq_ok {text : String} {settings : Settings} (h : ofText text = .ok settings) :
    ∃ document, Toml.parse text = .ok document ∧ ofDocument document = .ok settings := by
  rw [ofText] at h
  split at h
  · next document hdocument => exact ⟨document, hdocument, h⟩
  · cases h
  · cases h
  · cases h

/-- The settings of a new project give it back if its name is plain. -/
theorem ofText_settingsText_of_plain {name : String}
    (hplain : ∀ c ∈ name.toList, Toml.IsPlain c) :
    ofText (Scaffold.settingsText name) = .ok (Scaffold.settings name) := by
  have hjoin : Text.joinLineEnds name.toList = name.toList :=
    Text.joinLineEnds_of_not_mem fun hmem =>
      Toml.not_isPlain_newline (hplain _ (Text.mem_of_mem_joinLineEnds hmem))
  have hread : Toml.readString '"' (Toml.nameRead name) =
      .ok (name, '\n' :: Scaffold.settingsLines) := by
    rw [Toml.nameRead, hjoin, Toml.readString_of_plain hplain (by decide), String.ofList_toList]
  obtain ⟨fuel, hparse⟩ := Toml.parse_settingsText name
  have hlines := Toml.readStatements_settingsLines fuel name
  rw [hread] at hparse
  rw [ofText, show Toml.parse _ = _ from hparse.trans hlines]
  rfl

/-- The settings of a new project do not name it as they were asked to if the name is not plain. -/
theorem name_of_ofText_settingsText {name : String} {settings : Settings}
    (hplain : ¬∀ c ∈ name.toList, Toml.IsPlain c)
    (h : ofText (Scaffold.settingsText name) = .ok settings) :
    ∃ value, settings.name = .text value ∧ value.toList.length < name.toList.length := by
  obtain ⟨document, hdocument, hsettings⟩ := ofText_eq_ok h
  obtain ⟨fuel, hparse⟩ := Toml.parse_settingsText name
  obtain ⟨⟨value, left⟩, hread, hroot⟩ := exists_of_bind_eq_ok (hparse.symm.trans hdocument)
  obtain ⟨last, hlast, rfl⟩ := exists_of_map_eq_ok hroot
  have htext : last.root.text? ["package", "name"] = some value :=
    Toml.text?_readLines hlast rfl
  refine ⟨value, name_of_ofDocument hsettings htext, ?_⟩
  have hjoined : ¬∀ c ∈ Text.joinLineEnds name.toList, Toml.IsPlain c := fun hall =>
    hplain (Text.joinLineEnds_of_not_mem (fun hmem => Toml.not_isPlain_newline (hall _ hmem)) ▸ hall)
  calc value.toList.length
    _ < (Text.joinLineEnds name.toList).length :=
      Toml.length_lt_of_readString Toml.barren_settingsLines hjoined hread
    _ ≤ name.toList.length := Text.length_joinLineEnds_le

end Settings

end SableFrontend
