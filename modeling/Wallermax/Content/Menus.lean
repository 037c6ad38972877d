import Wallermax.Content.Pages

/-!
# The menu and media repositories

`SqliteMenuRepository` and `SqliteMediaRepository`. Of the menu statements only
`add_item`, `count_items` and `items_with_pages` carry no organization: they
trust the menu id they are given. `update_item` is scoped by the menu the item
hangs in, not by the menu it moves to.
-/

namespace Wallermax.Content

open Wallermax.Base
open Wallermax.Accounts
open Wallermax.Storage
open Wallermax.Tenants

/-- The ids come from the path and the form. -/
structure NewMenuItem : Type where
  menu_id : ℤ
  position : ℤ
  label : Option String
  page_id : Option ℤ
  url : Option String

structure MenuPageProjection : Type where
  id : ℕ
  slug : String
  title : String
  is_published : Bool
deriving DecidableEq

structure ResolvedMenuItem : Type where
  position : ℤ
  label : String
  url : String
deriving DecidableEq

/-- `ORDER BY mi.position, mi.id`. -/
def ItemOrder (p q : ℕ × MenuItem) : Prop :=
  p.2.position < q.2.position ∨ (p.2.position = q.2.position ∧ p.1 ≤ q.1)

instance : DecidableRel ItemOrder := fun p q =>
  inferInstanceAs (Decidable (p.2.position < q.2.position ∨ _))

/-- `LEFT JOIN pages p ON p.id = mi.page_id`: the page of any organization. -/
def joinedPage (db : ContentDb) (item : MenuItem) : Option (ℕ × Page) :=
  item.page_id.bind fun id =>
    (db.pages.find? fun i _ => i == id).map fun p => (p.1, p.2.columns)

namespace Menus

/-! ## Reads -/

def findById (db : ContentDb) (organization : String) (id : ℤ) : Option (ℕ × Menu) :=
  (menusOf db organization).find? fun m => (m.1 : ℤ) == id

def list (db : ContentDb) (organization : String) : List (ℕ × Menu) :=
  (menusOf db organization).insertionSort fun m n => m.2.name ≤ n.2.name

def count (db : ContentDb) (organization : String) : ℕ := (menusOf db organization).length

/-- The items of one menu, by its id alone. -/
def itemsIn (db : ContentDb) (menu_id : ℤ) : List (ℕ × MenuItem) :=
  db.menu_items.rows.filter fun r => (r.2.menu_id : ℤ) == menu_id

def countItems (db : ContentDb) (menu_id : ℤ) : ℕ := (itemsIn db menu_id).length

def itemsWithPages (db : ContentDb) (menu_id : ℤ) :
    List ((ℕ × MenuItem) × Option MenuPageProjection) :=
  ((itemsIn db menu_id).insertionSort ItemOrder).map fun r =>
    (r, (joinedPage db r.2).map fun p => ⟨p.1, p.2.slug, p.2.title, p.2.is_published⟩)

def findItem (db : ContentDb) (organization : String) (item_id : ℤ) :
    Option (ℕ × MenuItem) :=
  (itemsOf db organization).find? fun r => (r.1 : ℤ) == item_id

/-- One row of `resolved`: an item whose page is a draft or gone is skipped. -/
def resolveItem (db : ContentDb) (now : ℤ) (item : MenuItem) : Option ResolvedMenuItem :=
  match item.page_id, joinedPage db item with
  | some _, some (_, page) =>
      if publicVisible now page then
        some ⟨item.position, item.label.getD page.title, "/p/" ++ page.slug⟩
      else none
  | some _, none => none
  | none, _ => some ⟨item.position, item.label.getD "", item.url.getD ""⟩

/-- `resolved`: by menu name, which is unique in the organization, and in each
menu by item position. -/
def resolved (db : ContentDb) (organization : String) (now : ℤ) :
    List ((ℕ × Menu) × List ResolvedMenuItem) :=
  (list db organization).map fun m =>
    (m, ((itemsIn db m.1).insertionSort ItemOrder).filterMap fun r =>
      resolveItem db now r.2)

/-! ## Writes -/

def create (db : ContentDb) (organization name title : String) (now : ℤ) :
    Except RepositoryError (ContentDb × ℕ) :=
  (insertContent db.toTenantDb organization (.menu ⟨name, title, now, now⟩)).map
    fun (tables, id) => ({ db with toTenantDb := tables }, id)

/-- `update_title`; `none` for a menu the organization does not have. -/
def updateTitle (db : ContentDb) (organization : String) (id : ℤ) (title : String)
    (now : ℤ) : Option ContentDb :=
  (findById db organization id).map fun (i, _) =>
    { db with
      menus := db.menus.modify (fun j _ => j == i)
        (fun m => { m with columns := { m.columns with
          title := title
          updated_at := now } })
        (fun _ => rfl) (fun _ _ => ⟨rfl, rfl⟩) }

/-- `delete`: the menu and, by the schema, its items. -/
def delete (db : ContentDb) (organization : String) (id : ℤ) : ContentDb :=
  match findById db organization id with
  | none => db
  | some (i, _) =>
      { db with
        menus := db.menus.delete fun j _ => j == i
        menu_items := db.menu_items.delete fun _ item => item.menu_id == i }

/-- The foreign keys of `menu_items`: any menu and any page. -/
def itemReferences (db : ContentDb) (item : NewMenuItem) : Bool :=
  (db.menus.find? fun i _ => (i : ℤ) == item.menu_id).isSome &&
    item.page_id.all fun page => (db.pages.find? fun i _ => (i : ℤ) == page).isSome

def itemColumns (item : NewMenuItem) : MenuItem where
  menu_id := item.menu_id.toNat
  position := item.position
  label := item.label
  page_id := item.page_id.map Int.toNat
  url := item.url

/-- `add_item`; a broken `CHECK` or foreign key is an internal error. -/
def addItem (db : ContentDb) (item : NewMenuItem) : Except RepositoryError ContentDb :=
  if !itemReferences db item then .error .internal
  else match db.menu_items.insert? (some (itemColumns item)) with
  | none => .error .internal
  | some items => .ok { db with menu_items := items }

/-- `update_item`; `none` for an item the organization does not have, and also
for one that has just left its menus. -/
def updateItem (db : ContentDb) (organization : String) (item_id : ℤ)
    (item : NewMenuItem) : Except RepositoryError (ContentDb × Option (ℕ × MenuItem)) :=
  match findItem db organization item_id with
  | none => .ok (db, none)
  | some (i, _) =>
      if !itemReferences db item then .error .internal
      else match db.menu_items.update? (fun j _ => j == i) fun _ => itemColumns item with
      | none => .error .internal
      | some items =>
          let db := { db with menu_items := items }
          .ok (db, findItem db organization item_id)

def deleteItem (db : ContentDb) (organization : String) (item_id : ℤ) : ContentDb :=
  match findItem db organization item_id with
  | none => db
  | some (i, _) =>
      { db with menu_items := db.menu_items.delete fun j _ => j == i }

end Menus

namespace MediaLibrary

def findById (db : ContentDb) (organization : String) (id : ℤ) : Option (ℕ × Media) :=
  (mediaOf db organization).find? fun m => (m.1 : ℤ) == id

/-- `ORDER BY id DESC`. -/
def listPaged (db : ContentDb) (organization : String) (limit offset : ℤ) :
    List (ℕ × Media) :=
  window limit offset ((mediaOf db organization).insertionSort fun m n => n.1 ≤ m.1)

def count (db : ContentDb) (organization : String) : ℕ := (mediaOf db organization).length

def create (db : ContentDb) (organization : String) (media : Media) :
    Except RepositoryError (ContentDb × ℕ) :=
  (insertContent db.toTenantDb organization (.media media)).map
    fun (tables, id) => ({ db with toTenantDb := tables }, id)

/-- `update_alt`; `none` for a row the organization does not have. -/
def updateAlt (db : ContentDb) (organization : String) (id : ℤ) (alt_text : String) :
    Option ContentDb :=
  (findById db organization id).map fun (i, _) =>
    { db with
      media := db.media.modify (fun j _ => j == i)
        (fun m => { m with columns := { m.columns with alt_text := alt_text } })
        (fun _ => rfl) (fun _ _ => ⟨rfl, rfl⟩) }

def delete (db : ContentDb) (organization : String) (id : ℤ) : ContentDb :=
  match findById db organization id with
  | none => db
  | some (i, _) => { db with media := db.media.delete fun j _ => j == i }

end MediaLibrary

end Wallermax.Content
