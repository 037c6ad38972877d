import Mathlib.Data.List.Basic
import Wallermax.Base.Uri

/-!
# Trees of a TOML document

A document as an editor keeps it: tables of items under keys, values with the text they
were written in and what stands around it, inline tables as values. A path of keys leads
to a value through both kinds of table. An edit puts an item under a key, and makes the
tables on the way to it that are missing; what it changes is what is at that path and below.
-/

namespace Wallermax.Base.Toml

/-! ## Values -/

inductive Scalar : Type where
  | integer (value : ℤ)
  | float (bits : BitVec 64)
  | boolean (value : Bool)
  | datetime (text : Text)
deriving DecidableEq

/-- What a value says. -/
inductive Content : Type where
  | string (text : Text)
  | scalar (value : Scalar)
  | array (items : List Content)
  | table (entries : List (Text × Content))

/-- A string or another scalar. -/
def Content.isScalar : Content → Bool
  | string _ => true
  | scalar _ => true
  | _ => false

/-- A value as it is written, with the text in front of it and behind it on its line. -/
structure Value : Type where
  front : Text
  repr : Text
  back : Text
  content : Content

/-- A value is shown with what is around it. -/
def Value.display (v : Value) : Text := v.front ++ v.repr ++ v.back

/-- A key, with the lines above it. -/
structure Key : Type where
  name : Text
  decor : Text

/-- What stands under a key: a value, a table with a header of its own, or an array of
such tables. -/
inductive Item : Type where
  | value (v : Value)
  | table (layout : Text) (entries : List (Key × Item))
  | tables (layout : Text) (elements : List Content)

abbrev Entries : Type := List (Key × Item)

/-! ## Entries -/

def get (name : Text) : Entries → Option Item
  | [] => none
  | (key, item) :: rest => if key.name = name then some item else get name rest

/-- An item under a key, which loses its decoration if it is there. -/
def insert (name : Text) (item : Item) : Entries → Entries
  | [] => [(⟨name, []⟩, item)]
  | (key, old) :: rest =>
    if key.name = name then (⟨name, []⟩, item) :: rest else (key, old) :: insert name item rest

/-- Another item under a key that is there. -/
def put (name : Text) (item : Item) : Entries → Entries
  | [] => []
  | (key, old) :: rest =>
    if key.name = name then (key, item) :: rest else (key, old) :: put name item rest

section

variable {name other : Text} {item : Item} {entries : Entries}

theorem get_insert_self : get name (insert name item entries) = some item := by
  induction entries with
  | nil => exact if_pos rfl
  | cons entry rest ih =>
      obtain ⟨key, old⟩ := entry
      by_cases hkey : key.name = name
      · rw [insert, if_pos hkey]
        exact if_pos rfl
      · rw [insert, if_neg hkey, get, if_neg hkey, ih]

theorem get_insert_of_ne (hne : other ≠ name) :
    get other (insert name item entries) = get other entries := by
  induction entries with
  | nil => exact if_neg hne.symm
  | cons entry rest ih =>
      obtain ⟨key, old⟩ := entry
      by_cases hkey : key.name = name
      · have hother : key.name ≠ other := fun heq => hne (heq.symm.trans hkey)
        rw [insert, if_pos hkey, get, if_neg hne.symm, get, if_neg hother]
      · rw [insert, if_neg hkey, get, get, ih]

theorem get_put_self (h : (get name entries).isSome = true) :
    get name (put name item entries) = some item := by
  induction entries with
  | nil => cases h
  | cons entry rest ih =>
      obtain ⟨key, old⟩ := entry
      by_cases hkey : key.name = name
      · rw [put, if_pos hkey, get, if_pos hkey]
      · rw [get, if_neg hkey] at h
        rw [put, if_neg hkey, get, if_neg hkey, ih h]

theorem get_put_of_ne (hne : other ≠ name) :
    get other (put name item entries) = get other entries := by
  induction entries with
  | nil => rfl
  | cons entry rest ih =>
      obtain ⟨key, old⟩ := entry
      by_cases hkey : key.name = name
      · have hother : key.name ≠ other := fun heq => hne (heq.symm.trans hkey)
        rw [put, if_pos hkey, get, if_neg hother, get, if_neg hother]
      · rw [put, if_neg hkey, get, get, ih]

end

/-! ## Paths -/

/-- The value at a path, a table being none. -/
def Content.at : List Text → Content → Option Content
  | [], .table _ => none
  | [], content => some content
  | name :: path, .table entries => (entries.lookup name).bind (Content.at path)
  | _ :: _, _ => none

/-- The value at a path, through tables of both kinds. -/
def Item.at : List Text → Item → Option Content
  | path, .value v => v.content.at path
  | [], .table _ _ => none
  | name :: path, .table _ entries => (get name entries).bind (Item.at path)
  | [], .tables _ elements => some (.array elements)
  | _ :: _, .tables _ _ => none

/-- The value at a path of a document. -/
def valueAt (entries : Entries) : List Text → Option Content
  | [] => none
  | name :: path => (get name entries).bind (Item.at path)

theorem valueAt_cons (key : Key) (item : Item) (rest : Entries) (name : Text) (path : List Text) :
    valueAt ((key, item) :: rest) (name :: path) =
      if key.name = name then Item.at path item else valueAt rest (name :: path) := by
  show (get name ((key, item) :: rest)).bind (Item.at path) = _
  rw [get]
  split
  · rfl
  · rfl

theorem Item.at_table (layout : Text) (entries : Entries) (path : List Text) :
    Item.at path (.table layout entries) = valueAt entries path := by
  cases path with
  | nil => rfl
  | cons name path => rfl

theorem Item.at_value (v : Value) (path : List Text) : Item.at path (.value v) = v.content.at path := by
  cases path with
  | nil => rfl
  | cons name path => rfl

theorem valueAt_nil (path : List Text) : valueAt [] path = none := by
  cases path with
  | nil => rfl
  | cons name path => rfl

/-- The item at a path, through tables with a header only. -/
def itemAt (entries : Entries) : List Text → Text → Option Item
  | [], leaf => get leaf entries
  | name :: tables, leaf =>
    match get name entries with
    | some (.table _ sub) => itemAt sub tables leaf
    | _ => none

/-- An item at a path, with the tables that are missing; `none` where the path crosses
anything else. -/
def insertAt (item : Item) : List Text → Text → Entries → Option Entries
  | [], leaf, entries => some (insert leaf item entries)
  | name :: tables, leaf, entries =>
    let made := if (get name entries).isNone then insert name (.table [] []) entries else entries
    match get name made with
    | some (.table layout sub) =>
      (insertAt item tables leaf sub).map fun sub => put name (.table layout sub) made
    | _ => none

/-! ## What an edit changes -/

theorem valueAt_of_itemAt {item : Item} {tables : List Text} {leaf : Text} {entries : Entries}
    (h : itemAt entries tables leaf = some item) (path : List Text) :
    valueAt entries (tables ++ leaf :: path) = Item.at path item := by
  induction tables generalizing entries with
  | nil =>
      have hget : get leaf entries = some item := h
      show (get leaf entries).bind (Item.at path) = _
      rw [hget]
      rfl
  | cons name tables ih =>
      rw [itemAt] at h
      split at h
      · rename_i layout sub hget
        show (get name entries).bind (Item.at (tables ++ leaf :: path)) = _
        rw [hget]
        exact (Item.at_table layout sub _).trans (ih h)
      · cases h

/-- The table an edit goes through, there or made. -/
theorem insertAt_cons {item : Item} {name : Text} {tables : List Text} {leaf : Text}
    {entries entries' : Entries} (h : insertAt item (name :: tables) leaf entries = some entries') :
    ∃ layout sub sub', insertAt item tables leaf sub = some sub' ∧
      get name entries' = some (.table layout sub') ∧
      (∀ path, (get name entries).bind (Item.at path) = valueAt sub path) ∧
      ∀ other, other ≠ name → get other entries' = get other entries := by
  rw [insertAt] at h
  by_cases hnone : (get name entries).isNone = true
  · simp only [if_pos hnone, get_insert_self] at h
    obtain ⟨sub', hsub, rfl⟩ := Option.map_eq_some_iff.mp h
    refine ⟨[], [], sub', hsub, get_put_self (by rw [get_insert_self]; rfl), fun path => ?_,
      fun other hne => ?_⟩
    · rw [Option.isNone_iff_eq_none.mp hnone, valueAt_nil]
      rfl
    · rw [get_put_of_ne hne, get_insert_of_ne hne]
  · simp only [if_neg hnone] at h
    split at h
    · rename_i layout sub hget
      obtain ⟨sub', hsub, rfl⟩ := Option.map_eq_some_iff.mp h
      refine ⟨layout, sub, sub', hsub, get_put_self (by rw [hget]; rfl), fun path => ?_,
        fun other hne => get_put_of_ne hne⟩
      rw [hget]
      exact Item.at_table layout sub path
    · cases h

/-- **The item is at its path.** -/
theorem valueAt_insertAt {item : Item} {tables : List Text} {leaf : Text}
    {entries entries' : Entries} (h : insertAt item tables leaf entries = some entries')
    (path : List Text) : valueAt entries' (tables ++ leaf :: path) = Item.at path item := by
  induction tables generalizing entries entries' with
  | nil =>
      obtain rfl : insert leaf item entries = entries' := Option.some_inj.mp h
      show (get leaf (insert leaf item entries)).bind (Item.at path) = _
      rw [get_insert_self]
      rfl
  | cons name tables ih =>
      obtain ⟨layout, sub, sub', hsub, hget, -, -⟩ := insertAt_cons h
      show (get name entries').bind (Item.at (tables ++ leaf :: path)) = _
      rw [hget]
      exact (Item.at_table layout sub' _).trans (ih hsub)

/-- **Every other path leads where it led.** -/
theorem valueAt_insertAt_of_not_prefix {item : Item} {tables : List Text} {leaf : Text}
    {entries entries' : Entries} (h : insertAt item tables leaf entries = some entries')
    {path : List Text} (hpath : ¬(tables ++ [leaf]) <+: path) :
    valueAt entries' path = valueAt entries path := by
  induction tables generalizing entries entries' path with
  | nil =>
      obtain rfl : insert leaf item entries = entries' := Option.some_inj.mp h
      cases path with
      | nil => rfl
      | cons name path =>
          have hne : name ≠ leaf := by
            rintro rfl
            exact hpath ⟨path, rfl⟩
          show (get name (insert leaf item entries)).bind (Item.at path) = _
          rw [get_insert_of_ne hne]
          rfl
  | cons name tables ih =>
      obtain ⟨layout, sub, sub', hsub, hget, hbefore, hother⟩ := insertAt_cons h
      cases path with
      | nil => rfl
      | cons head path =>
          show (get head entries').bind (Item.at path) = (get head entries).bind (Item.at path)
          by_cases hname : head = name
          · subst hname
            have hrest : ¬(tables ++ [leaf]) <+: path := by
              rintro ⟨rest, rfl⟩
              exact hpath ⟨rest, rfl⟩
            rw [hget, hbefore]
            exact (Item.at_table layout sub' path).trans (ih hsub hrest)
          · rw [hother head hname]

end Wallermax.Base.Toml
