import Wallermax.Base.TomlTree
import Wallermax.Base.Trim
import Wallermax.Manager.EditAlone
import Wallermax.Tenants.Forms

/-!
# The settings form

The form shows a setting as `get_value` reads it and saves it by `set_values`. What is shown
of a string is its text, and of another value the way it is written, with the comment behind
it; what is saved is the value that the text is, if it is one, and else a string. A string
whose text is a value and a value with a comment come back as something else. A setting
beside the edited one is touched only below it, where a table is replaced or saved.
-/

namespace Wallermax.Manager

open Wallermax.Base Wallermax.Base.Toml
open Wallermax.Tenants (isWhitespace)

/-! ## Editing a document -/

/-- `DocumentMut`: the root table, and the text behind it. -/
structure Document : Type where
  entries : Entries
  trailing : Text

/-- What the manager uses of the TOML editor. A parsed value has no decoration. -/
structure TomlEditor : Type where
  parse : Text → Except Text Document
  print : Document → Text
  parseValue : Text → Option Value
  /-- a string as it is written by default -/
  stringRepr : Text → Text
  /-- `Display` of an item that is no value -/
  displayTables : Item → Text

/-- `split_dotted`. -/
def splitDotted (dotted : Text) : Option (List Text × Text) :=
  let parts := ((dotted.splitOn '.').map (trimBy isWhitespace)).filter (· ≠ [])
  parts.getLast?.map fun leaf => (parts.dropLast, leaf)

/-- `set_dotted`. -/
def setDotted (document : Document) (dotted : Text) (value : Item) : Except Text Document :=
  match splitDotted dotted with
  | none => .error (('`' :: dotted) ++ "` is not a dotted key".toList)
  | some (tables, leaf) =>
    match insertAt value tables leaf document.entries with
    | some entries => .ok { document with entries := entries }
    | none => .error (('`' :: dotted) ++ "` crosses a value that is not a table".toList)

section

variable (toml : TomlEditor)

/-- `to_toml_value`, which never fails. -/
def toTomlValue (raw : Text) : Value :=
  match toml.parseValue raw with
  | some value => value
  | none => ⟨[], toml.stringRepr raw, [], .string raw⟩

/-- The loop of `set_values`. -/
def setPairs : List (Text × Text) → Document → Except Text Document
  | [], document => .ok document
  | (key, value) :: rest, document =>
    (setDotted document key (.value (toTomlValue toml value))).bind (setPairs rest)

/-- `set_values` up to `write_raw`. -/
def editLayer (which : ConfigWhich) (pairs : List (Text × Text)) (layer : Text) : Except Text Text :=
  match toml.parse layer with
  | .error error => .error (fileName which ++ ": ".toList ++ error)
  | .ok document => (setPairs toml pairs document).map toml.print

/-- An item as display text. -/
def displayText : Item → Text
  | .value v =>
    match v.content with
    | .string text => text
    | _ => trimBy isWhitespace v.display
  | item => trimBy isWhitespace (toml.displayTables item)

/-- `get_value`, of the layer's text. -/
def getValue (layer dotted : Text) : Option Text := do
  let document ← (toml.parse layer).toOption
  let (tables, leaf) ← splitDotted dotted
  let item ← itemAt document.entries tables leaf
  some (displayText toml item)

/-! ## What a save is to leave -/

/-- The parsed value at a path of a layer. -/
def settingAt (layer : Text) (path : List Text) : Option Content :=
  (toml.parse layer).toOption.bind fun document => valueAt document.entries path

/-- The path of a dotted key. -/
def keyPath (dotted : Text) : Option (List Text) :=
  (splitDotted dotted).map fun key => key.1 ++ [key.2]

def saveRequest (which : ConfigWhich) (key text : Text) : Request :=
  .setValues which fun layer => (editLayer toml which [(key, text)] layer).toOption

/-- What saving `text` at `key` has left where it returned. -/
structure SavedRight (before after : Disk) (which : ConfigWhich) (key text : Text) (ok : Bool) :
    Prop where
  /-- what the form showed is what there was -/
  unchanged : getValue toml (readLayer before which) key = some text →
    ∀ path ∈ keyPath key, ∀ v, settingAt toml (readLayer before which) path = some v →
      v.isScalar = true → settingAt toml (readLayer after which) path = some v
  others : ∀ path, keyPath key ≠ some path →
    settingAt toml (readLayer after which) path = settingAt toml (readLayer before which) path
  error : ok = false → after (fileName which) = before (fileName which)

/-- Every way the save can return. -/
def SavesRight (valid : Text → Text → Bool) (dir : Directory) (which : ConfigWhich)
    (key text : Text) : Prop :=
  ∀ ok after, Alone valid dir.disk (saveRequest toml which key text).phase (.returned ok) after →
    SavedRight toml dir.disk after which key text ok

/-- The save is refused: the key cannot be set, or the pair would not be valid. -/
def Refused (valid : Text → Text → Bool) (dir : Directory) (which : ConfigWhich)
    (key text : Text) : Prop :=
  ∀ content, editLayer toml which [(key, text)] (readLayer dir.disk which) = .ok content →
    (jobOf dir.disk content (readLayer dir.disk .base) which).accepted valid = false

/-- A scalar is what its display text says: a string whose text is no other value, or
another scalar that is still written so between its white space and comments. -/
def ReadsBack (v : Value) : Prop :=
  match v.content with
  | .string text => ∀ read ∈ toml.parseValue text, read.content = .string text
  | content => ∃ read ∈ toml.parseValue (trimBy isWhitespace v.display), read.content = content

/-- The text says what there is at the key, and has below it what there is below. -/
structure Harmless (layer key text : Text) : Prop where
  same : ∀ document, toml.parse layer = .ok document → ∀ tables leaf,
    splitDotted key = some (tables, leaf) → ∀ v, itemAt document.entries tables leaf = some (.value v) →
      v.content.isScalar = true → text = displayText toml (.value v) → ReadsBack toml v
  below : ∀ path ∈ keyPath key, ∀ name rest,
    settingAt toml layer (path ++ name :: rest) = (toTomlValue toml text).content.at (name :: rest)

/-- Parsing undoes the printing of the document the save writes. -/
def Undoes (document : Document) : Prop :=
  ∀ path, settingAt toml (toml.print document) path = valueAt document.entries path

/-! ## The edited layer -/

variable {toml}

theorem keyPath_eq_some {key : Text} {tables : List Text} {leaf : Text}
    (h : splitDotted key = some (tables, leaf)) : keyPath key = some (tables ++ [leaf]) := by
  rw [keyPath, h]
  rfl

theorem settingAt_ok {layer : Text} {document : Document} (h : toml.parse layer = .ok document)
    (path : List Text) : settingAt toml layer path = valueAt document.entries path := by
  rw [settingAt, h]
  rfl

theorem eq_ok_of_toOption {ε α : Type} {x : Except ε α} {a : α} (h : x.toOption = some a) :
    x = .ok a := by
  cases x with
  | error e => cases h
  | ok b => exact congrArg Except.ok (Option.some_inj.mp h)

/-- The edit that is written, from the document that was parsed. -/
theorem editLayer_ok {which : ConfigWhich} {layer key text content : Text}
    (h : editLayer toml which [(key, text)] layer = .ok content) :
    ∃ document tables leaf entries, toml.parse layer = .ok document ∧
      splitDotted key = some (tables, leaf) ∧
      insertAt (.value (toTomlValue toml text)) tables leaf document.entries = some entries ∧
      setPairs toml [(key, text)] document = .ok ⟨entries, document.trailing⟩ ∧
      content = toml.print ⟨entries, document.trailing⟩ := by
  unfold editLayer at h
  split at h
  · cases h
  · rename_i document hparse
    cases hkey : splitDotted key with
    | none =>
        simp only [setPairs, setDotted, hkey] at h
        cases h
    | some parts =>
        obtain ⟨tables, leaf⟩ := parts
        cases hinsert : insertAt (.value (toTomlValue toml text)) tables leaf document.entries with
        | none =>
            simp only [setPairs, setDotted, hkey, hinsert] at h
            cases h
        | some entries =>
            have hpairs : setPairs toml [(key, text)] document =
                .ok ⟨entries, document.trailing⟩ := by
              simp only [setPairs, setDotted, hkey, hinsert]
              rfl
            rw [hpairs] at h
            exact ⟨document, tables, leaf, entries, hparse, rfl, hinsert, hpairs,
              (Except.ok.inj h).symm⟩

theorem getValue_ok {layer key : Text} {document : Document} {tables : List Text} {leaf : Text}
    (hparse : toml.parse layer = .ok document) (hkey : splitDotted key = some (tables, leaf)) :
    getValue toml layer key =
      (itemAt document.entries tables leaf).map (displayText toml) := by
  unfold getValue
  rw [hparse, hkey, Option.map_eq_bind]
  rfl

/-- What is shown of a scalar is saved as what it is exactly where it reads back. -/
theorem readsBack_iff {v : Value} (hscalar : v.content.isScalar = true) :
    ReadsBack toml v ↔ (toTomlValue toml (displayText toml (.value v))).content = v.content := by
  obtain ⟨front, repr, back, content⟩ := v
  cases content with
  | string text =>
      show (∀ read ∈ toml.parseValue text, read.content = .string text) ↔
        (toTomlValue toml text).content = .string text
      unfold toTomlValue
      cases toml.parseValue text with
      | none => simp
      | some read => simp
  | scalar value =>
      show (∃ read ∈ toml.parseValue (trimBy isWhitespace _), read.content = .scalar value) ↔
        (toTomlValue toml (trimBy isWhitespace _)).content = .scalar value
      unfold toTomlValue
      cases toml.parseValue (trimBy isWhitespace (Value.display ⟨front, repr, back, .scalar value⟩)) with
      | none => simp
      | some read => simp
  | array items => cases hscalar
  | table entries => cases hscalar

theorem at_nil_of_isScalar {content : Content} (h : content.isScalar = true) :
    content.at [] = some content := by
  cases content with
  | string text => rfl
  | scalar value => rfl
  | array items => cases h
  | table entries => cases h

theorem eq_of_at_nil {content content' : Content} (h : content.at [] = some content') :
    content = content' := by
  cases content with
  | table entries => cases h
  | string text => exact Option.some_inj.mp h
  | scalar value => exact Option.some_inj.mp h
  | array items => exact Option.some_inj.mp h

/-- A scalar that is shown stands under the key itself. -/
theorem itemAt_of_settingAt {document : Document} {tables : List Text} {leaf : Text} {item : Item}
    {v : Content} (hitem : itemAt document.entries tables leaf = some item)
    (hv : valueAt document.entries (tables ++ [leaf]) = some v) (hscalar : v.isScalar = true) :
    ∃ value : Value, item = .value value ∧ value.content = v := by
  rw [valueAt_of_itemAt hitem] at hv
  cases item with
  | value value =>
      rw [Item.at_value] at hv
      exact ⟨value, rfl, eq_of_at_nil hv⟩
  | table layout entries => cases hv
  | tables layout elements =>
      cases hv
      cases hscalar

/-! ## Saving -/

section

variable {valid : Text → Text → Bool} {dir : Directory} {which : ConfigWhich} {key text : Text}

/-- A refused save changes no layer. -/
theorem savedRight_of_error {after : Disk}
    (h : Alone valid dir.disk (saveRequest toml which key text).phase (.returned false) after) :
    SavedRight toml dir.disk after which key text false := by
  have hlayer : readLayer after which = readLayer dir.disk which := by
    unfold readLayer
    rw [h.error which]
  refine ⟨fun _ path _ v hv _ => ?_, fun path _ => ?_, fun _ => h.error which⟩
  · rw [hlayer, hv]
  · rw [hlayer]

/-- What a save that was not refused leaves at each path. -/
theorem settingAt_wrote {after : Disk}
    (hprint : ∀ document edited, toml.parse (readLayer dir.disk which) = .ok document →
      setPairs toml [(key, text)] document = .ok edited → Undoes toml edited)
    (h : Alone valid dir.disk (saveRequest toml which key text).phase (.returned true) after) :
    ∃ document tables leaf, toml.parse (readLayer dir.disk which) = .ok document ∧
      splitDotted key = some (tables, leaf) ∧
      (∀ below, settingAt toml (readLayer after which) (tables ++ leaf :: below) =
        (toTomlValue toml text).content.at below) ∧
      ∀ path, ¬(tables ++ [leaf]) <+: path → settingAt toml (readLayer after which) path =
        settingAt toml (readLayer dir.disk which) path := by
  obtain ⟨content, hedit, -, hwrote⟩ := h.wrote
  have hok := eq_ok_of_toOption hedit
  obtain ⟨document, tables, leaf, entries, hparse, hkey, hinsert, hpairs, rfl⟩ := editLayer_ok hok
  have hlayer : readLayer after which = toml.print ⟨entries, document.trailing⟩ := by
    unfold readLayer
    rw [hwrote]
    rfl
  have hundone := hprint document _ hparse hpairs
  refine ⟨document, tables, leaf, hparse, hkey, fun below => ?_, fun path hpath => ?_⟩
  · rw [hlayer, hundone, valueAt_insertAt hinsert, Item.at_value]
  · rw [hlayer, hundone, settingAt_ok hparse]
    exact valueAt_insertAt_of_not_prefix hinsert hpath

theorem savedRight_of_harmless {after : Disk}
    (hprint : ∀ document edited, toml.parse (readLayer dir.disk which) = .ok document →
      setPairs toml [(key, text)] document = .ok edited → Undoes toml edited)
    (hharmless : Harmless toml (readLayer dir.disk which) key text)
    (h : Alone valid dir.disk (saveRequest toml which key text).phase (.returned true) after) :
    SavedRight toml dir.disk after which key text true := by
  obtain ⟨document, tables, leaf, hparse, hkey, hat, hother⟩ := settingAt_wrote hprint h
  have hpath := keyPath_eq_some hkey
  refine ⟨fun hshown path hmem v hv hscalar => ?_, fun path hne => ?_, nofun⟩
  · obtain rfl : tables ++ [leaf] = path := Option.some_inj.mp (hpath.symm.trans hmem)
    rw [getValue_ok hparse hkey] at hshown
    obtain ⟨item, hitem, hdisplay⟩ := Option.map_eq_some_iff.mp hshown
    rw [settingAt_ok hparse] at hv
    obtain ⟨value, rfl, rfl⟩ := itemAt_of_settingAt hitem hv hscalar
    have hreads := hharmless.same document hparse tables leaf hkey value hitem hscalar
      hdisplay.symm
    rw [readsBack_iff hscalar, hdisplay] at hreads
    rw [hat [], hreads]
    exact at_nil_of_isScalar hscalar
  · by_cases hprefix : tables ++ [leaf] <+: path
    · obtain ⟨below, rfl⟩ := hprefix
      cases below with
      | nil =>
          rw [List.append_nil] at hne
          exact absurd hpath hne
      | cons name rest =>
          rw [hharmless.below _ hpath name rest, List.append_assoc]
          exact hat (name :: rest)
    · exact hother path hprefix

theorem harmless_of_savedRight {after : Disk}
    (hprint : ∀ document edited, toml.parse (readLayer dir.disk which) = .ok document →
      setPairs toml [(key, text)] document = .ok edited → Undoes toml edited)
    (h : Alone valid dir.disk (saveRequest toml which key text).phase (.returned true) after)
    (hright : SavedRight toml dir.disk after which key text true) :
    Harmless toml (readLayer dir.disk which) key text := by
  obtain ⟨document, tables, leaf, hparse, hkey, hat, hother⟩ := settingAt_wrote hprint h
  have hpath := keyPath_eq_some hkey
  constructor
  · intro document' hparse' tables' leaf' hkey' v hitem hscalar htext
    obtain rfl : document = document' := Except.ok.inj (hparse.symm.trans hparse')
    obtain ⟨rfl, rfl⟩ : tables = tables' ∧ leaf = leaf' :=
      Prod.mk.inj (Option.some_inj.mp (hkey.symm.trans hkey'))
    have hshown : getValue toml (readLayer dir.disk which) key = some text := by
      rw [getValue_ok hparse hkey, hitem, htext]
      rfl
    have hbefore : settingAt toml (readLayer dir.disk which) (tables ++ [leaf]) =
        some v.content := by
      rw [settingAt_ok hparse, valueAt_of_itemAt hitem, Item.at_value]
      exact at_nil_of_isScalar hscalar
    have hafter := hright.unchanged hshown _ hpath v.content hbefore hscalar
    rw [hat []] at hafter
    rw [readsBack_iff hscalar, ← htext]
    exact eq_of_at_nil hafter
  · intro path hmem name rest
    obtain rfl : tables ++ [leaf] = path := Option.some_inj.mp (hpath.symm.trans hmem)
    have hne : keyPath key ≠ some (tables ++ [leaf] ++ name :: rest) := by
      rw [hpath]
      intro heq
      have hlength := congrArg List.length (Option.some_inj.mp heq)
      simp at hlength
    rw [← hright.others _ hne, List.append_assoc]
    exact hat (name :: rest)

/-- **When a save is right.** For every directory, layer, key and text, however the file
operations end: an error leaves the file, no other setting changes, and a scalar whose display
text is saved stays the value it was, exactly when the save is refused or the text is
harmless at the key. -/
theorem savesRight_iff (toml : TomlEditor) (valid : Text → Text → Bool) (dir : Directory)
    (which : ConfigWhich) (key text : Text)
    (hprint : ∀ document edited, toml.parse (readLayer dir.disk which) = .ok document →
      setPairs toml [(key, text)] document = .ok edited → Undoes toml edited) :
    SavesRight toml valid dir which key text ↔
      Refused toml valid dir which key text ∨
        Harmless toml (readLayer dir.disk which) key text := by
  constructor
  · intro hright
    by_cases hrefused : Refused toml valid dir which key text
    · exact .inl hrefused
    · unfold Refused at hrefused
      push Not at hrefused
      obtain ⟨content, hok, haccepted⟩ := hrefused
      rw [ne_eq, Bool.not_eq_false] at haccepted
      obtain ⟨after, hrun⟩ := exists_wrote dir
        (fun layer => (editLayer toml which [(key, text)] layer).toOption)
        (congrArg Except.toOption hok) haccepted
      exact .inr (harmless_of_savedRight hprint hrun (hright true after hrun))
  · intro hcondition ok after hrun
    cases ok with
    | false => exact savedRight_of_error hrun
    | true =>
        rcases hcondition with hrefused | hharmless
        · obtain ⟨content, hedit, haccepted, -⟩ := hrun.wrote
          rw [hrefused content (eq_ok_of_toOption hedit)] at haccepted
          cases haccepted
        · exact savedRight_of_harmless hprint hharmless hrun

end

/-! ## What reads back -/

/-- A value without a comment is shown as it is written. -/
theorem trim_display {v : Value} (hfront : ∀ c ∈ v.front, isWhitespace c = true)
    (hback : ∀ c ∈ v.back, isWhitespace c = true) (hne : v.repr ≠ [])
    (hfirst : ∀ c ∈ v.repr.head?, isWhitespace c = false)
    (hlast : ∀ c ∈ v.repr.getLast?, isWhitespace c = false) :
    trimBy isWhitespace v.display = v.repr := by
  rw [Value.display, List.append_assoc]
  exact trimBy_stretch hfront hback hne hfirst hlast

/-- A value that is no string and has no comment reads back. -/
theorem readsBack_of_uncommented {v : Value} (hother : ∀ text, v.content ≠ .string text)
    (hfront : ∀ c ∈ v.front, isWhitespace c = true) (hback : ∀ c ∈ v.back, isWhitespace c = true)
    (hne : v.repr ≠ []) (hfirst : ∀ c ∈ v.repr.head?, isWhitespace c = false)
    (hlast : ∀ c ∈ v.repr.getLast?, isWhitespace c = false)
    (hread : ∃ read ∈ toml.parseValue v.repr, read.content = v.content) : ReadsBack toml v := by
  unfold ReadsBack
  split
  · rename_i text htext
    exact absurd htext (hother text)
  · rw [trim_display hfront hback hne hfirst hlast]
    exact hread

theorem at_cons_eq_none {content : Content} (h : ∀ entries, content ≠ .table entries) (name : Text)
    (path : List Text) : content.at (name :: path) = none := by
  cases content with
  | table entries => exact absurd rfl (h entries)
  | string text => rfl
  | scalar value => rfl
  | array items => rfl

/-- Saving a text that is no table over a value that is none leaves nothing below. -/
theorem below_of_values {layer key text : Text} {document : Document} {tables : List Text}
    {leaf : Text} {v : Value} (hparse : toml.parse layer = .ok document)
    (hkey : splitDotted key = some (tables, leaf))
    (hitem : itemAt document.entries tables leaf = some (.value v))
    (hold : ∀ entries, v.content ≠ .table entries)
    (hnew : ∀ entries, (toTomlValue toml text).content ≠ .table entries) :
    ∀ path ∈ keyPath key, ∀ name rest,
      settingAt toml layer (path ++ name :: rest) =
        (toTomlValue toml text).content.at (name :: rest) := by
  intro path hpath name rest
  obtain rfl : tables ++ [leaf] = path :=
    Option.some_inj.mp ((keyPath_eq_some hkey).symm.trans hpath)
  rw [settingAt_ok hparse, List.append_assoc, at_cons_eq_none hnew]
  refine (valueAt_of_itemAt hitem _).trans ?_
  rw [Item.at_value]
  exact at_cons_eq_none hold name rest

end

/-! ## A string that looks like a number -/

def authTable (issuer : Value) : Entries :=
  [(⟨"auth".toList, []⟩, .table [] [(⟨"issuer".toList, []⟩, .value issuer)])]

/-- A value on its line, with a space in front of it where it has nothing. -/
def printValue (v : Value) : Text := (if v.front = [] then [' '] else v.front) ++ v.repr ++ v.back

def printEntry : Key × Item → Text
  | (key, .value v) => key.name ++ " =".toList ++ printValue v ++ ['\n']
  | _ => []

/-- The tables of a document, without tables in them. -/
def printTable : Key × Item → Text
  | (key, .table _ entries) => '[' :: (key.name ++ "]\n".toList) ++ entries.flatMap printEntry
  | entry => printEntry entry

def issuerLayer : Text := "[auth]\nissuer = \"1.10\"\n".toList

def savedLayer : Text := "[auth]\nissuer = 1.10\n".toList

/-- 1.1 -/
def issuerFloat : Content := .scalar (.float 0x3FF199999999999A)

/-- The editor on the two layers and on the text of the setting. -/
def issuerEditor : TomlEditor where
  parse layer :=
    if layer = issuerLayer then
      .ok ⟨authTable ⟨[' '], "\"1.10\"".toList, [], .string "1.10".toList⟩, []⟩
    else if layer = savedLayer then .ok ⟨authTable ⟨[' '], "1.10".toList, [], issuerFloat⟩, []⟩
    else .error "invalid".toList
  print document := document.entries.flatMap printTable ++ document.trailing
  parseValue text :=
    if text = "1.10".toList then some ⟨[], text, [], issuerFloat⟩ else none
  stringRepr text := '"' :: (text ++ ['"'])
  displayTables _ := []

def issuerDirectory : Directory where
  disk name := if name = fileName .base then some issuerLayer else none
  free _ := ⟨0, if_neg (fileName_ne_backupName _ _ _ _).symm⟩

/-- What is around a value says nothing. -/
theorem valueAt_authTable {v w : Value} (h : v.content = w.content) (path : List Text) :
    valueAt (authTable v) path = valueAt (authTable w) path := by
  have hentry : ∀ path, valueAt [(⟨"issuer".toList, []⟩, .value v)] path =
      valueAt [(⟨"issuer".toList, []⟩, .value w)] path := by
    intro path
    cases path with
    | nil => rfl
    | cons name path => rw [valueAt_cons, valueAt_cons, Item.at_value, Item.at_value, h]
  cases path with
  | nil => rfl
  | cons name path =>
      rw [authTable, authTable, valueAt_cons, valueAt_cons, Item.at_table, Item.at_table, hentry]

theorem issuer_printed : ∀ document edited,
    issuerEditor.parse (readLayer issuerDirectory.disk .base) = .ok document →
      setPairs issuerEditor [("auth.issuer".toList, "1.10".toList)] document = .ok edited →
        Undoes issuerEditor edited := by
  intro document edited hparse hset path
  have hlayer : issuerEditor.parse (readLayer issuerDirectory.disk .base) =
      .ok ⟨authTable ⟨[' '], "\"1.10\"".toList, [], .string "1.10".toList⟩, []⟩ := rfl
  rw [hlayer] at hparse
  cases hparse
  have hedited : setPairs issuerEditor [("auth.issuer".toList, "1.10".toList)]
      ⟨authTable ⟨[' '], "\"1.10\"".toList, [], .string "1.10".toList⟩, []⟩ =
      .ok ⟨authTable ⟨[], "1.10".toList, [], issuerFloat⟩, []⟩ := by rfl
  rw [hedited] at hset
  cases hset
  have hparsed : issuerEditor.parse
      (issuerEditor.print ⟨authTable ⟨[], "1.10".toList, [], issuerFloat⟩, []⟩) =
      .ok ⟨authTable ⟨[' '], "1.10".toList, [], issuerFloat⟩, []⟩ := rfl
  rw [settingAt_ok hparsed]
  refine valueAt_authTable ?_ path
  rfl

theorem savesRight_issuer :
    SavesRight issuerEditor (fun _ _ => true) issuerDirectory .base "auth.issuer".toList
        "1.10".toList ↔
      Refused issuerEditor (fun _ _ => true) issuerDirectory .base "auth.issuer".toList
          "1.10".toList ∨
        Harmless issuerEditor (readLayer issuerDirectory.disk .base) "auth.issuer".toList
          "1.10".toList :=
  savesRight_iff issuerEditor (fun _ _ => true) issuerDirectory .base _ _ issuer_printed

/-- The issuer `"1.10"`, saved as it is shown, is the number 1.1. -/
theorem issuer_becomes_number :
    getValue issuerEditor issuerLayer "auth.issuer".toList = some "1.10".toList ∧
      ¬SavesRight issuerEditor (fun _ _ => true) issuerDirectory .base "auth.issuer".toList
        "1.10".toList := by
  refine ⟨rfl, fun hright => ?_⟩
  have hwrote : ∃ after, Alone (fun _ _ => true) issuerDirectory.disk
      (saveRequest issuerEditor .base "auth.issuer".toList "1.10".toList).phase
      (.returned true) after := exists_wrote issuerDirectory _ rfl rfl
  obtain ⟨after, hrun⟩ := hwrote
  have hharmless := harmless_of_savedRight issuer_printed hrun (hright true after hrun)
  have hreads := hharmless.same _ rfl ["auth".toList] "issuer".toList rfl _ rfl rfl rfl
  cases hreads _ rfl

end Wallermax.Manager
