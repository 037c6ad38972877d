import Wallermax.Tenants.TenantDb

/-!
# The content of a site

The tables of the tenants pages with the two that have no `organization_id` of
their own: a revision reaches its organization through its page and a menu item
through its menu. `orgScope` is the condition the content statements carry, and
a `Site` is the rows one organization reaches.
-/

namespace Wallermax.Content

open Wallermax.Base
open Wallermax.Accounts
open Wallermax.Storage
open Wallermax.Tenants

/-- `RevisionSnapshot`: the editable fields and the state as saved. -/
structure RevisionSnapshot : Type where
  slug : String
  title : String
  content : String
  body_format : BodyFormat
  parent_id : Option ℕ
  position : ℤ
  meta_title : Option String
  meta_description : Option String
  og_image : Option String
  is_published : Bool
  publish_at : Option ℤ
  note : Option String
deriving DecidableEq

/-- The columns of `page_revisions`; the historical parent is no foreign key. -/
structure PageRevision : Type extends RevisionSnapshot where
  page_id : ℕ
  revision : ℤ
  edited_by : Option ℕ
  created_at : ℤ
deriving DecidableEq

structure MenuItem : Type where
  menu_id : ℕ
  position : ℤ
  label : Option String
  page_id : Option ℕ
  url : Option String
deriving DecidableEq

/-- `CHECK ((page_id IS NULL) <> (url IS NULL))`. -/
def MenuItem.check (item : MenuItem) : Bool := item.page_id.isNone != item.url.isNone

abbrev MenuItems : Type := Constrained MenuItem MenuItem.check fun _ _ => false

structure ContentDb : Type extends TenantDb where
  page_revisions : Table PageRevision
  menu_items : MenuItems

/-! ## The organization scope -/

/-- The rows of an owner; no row matches `NULL`. -/
def orgScope {ρ : Type} {k : Kind ρ} (t : TenantTable k) (owner : Option ℕ) :
    List (ℕ × ρ) :=
  (t.rows.filter fun r => owner == some r.2.organization_id).map fun r => (r.1, r.2.columns)

/-- `(SELECT id FROM organizations WHERE key = ?)`. -/
def ContentDb.owner (db : ContentDb) (organization : String) : Option ℕ :=
  organizationId db.organizations organization

def pagesOf (db : ContentDb) (organization : String) : List (ℕ × Page) :=
  orgScope db.pages (db.owner organization)

def menusOf (db : ContentDb) (organization : String) : List (ℕ × Menu) :=
  orgScope db.menus (db.owner organization)

def mediaOf (db : ContentDb) (organization : String) : List (ℕ × Media) :=
  orgScope db.media (db.owner organization)

/-- `item_org_scope`: the items of the organization's menus. -/
def itemsOf (db : ContentDb) (organization : String) : List (ℕ × MenuItem) :=
  db.menu_items.rows.filter fun r =>
    (menusOf db organization).any fun m => m.1 == r.2.menu_id

/-- The revisions of the organization's pages. -/
def revisionsOf (db : ContentDb) (organization : String) : List (ℕ × PageRevision) :=
  db.page_revisions.rows.filter fun r =>
    (pagesOf db organization).any fun p => p.1 == r.2.page_id

/-- The rows of one organization. -/
@[ext] structure Site : Type where
  pages : List (ℕ × Page)
  revisions : List (ℕ × PageRevision)
  menus : List (ℕ × Menu)
  items : List (ℕ × MenuItem)
  media : List (ℕ × Media)
deriving DecidableEq

def siteOf (db : ContentDb) (organization : String) : Site where
  pages := pagesOf db organization
  revisions := revisionsOf db organization
  menus := menusOf db organization
  items := itemsOf db organization
  media := mediaOf db organization

/-- Every menu item's page belongs to the organization of its menu. -/
def ItemsAtHome (db : ContentDb) : Prop :=
  ∀ i item page, (i, item) ∈ db.menu_items.rows → item.page_id = some page →
    ∃ m p, (item.menu_id, m) ∈ db.menus.rows ∧ (page, p) ∈ db.pages.rows ∧
      m.organization_id = p.organization_id

/-! ## What the scope holds -/

section Scope

variable {ρ : Type} {k : Kind ρ} {t : TenantTable k} {owner : Option ℕ}

@[simp] theorem mem_orgScope {i : ℕ} {v : ρ} :
    (i, v) ∈ orgScope t owner ↔ ∃ o, owner = some o ∧ (i, ⟨o, v⟩) ∈ t.rows := by
  simp only [orgScope, List.mem_map, List.mem_filter, beq_iff_eq, Prod.mk.injEq]
  constructor
  · rintro ⟨⟨j, o, w⟩, ⟨hmem, howner⟩, rfl, rfl⟩
    exact ⟨o, howner, hmem⟩
  · rintro ⟨o, howner, hmem⟩
    exact ⟨(i, ⟨o, v⟩), ⟨hmem, howner⟩, rfl, rfl⟩

/-- The id is a key of the rows in scope too. -/
theorem orgScope_inj {i : ℕ} {v w : ρ} (hv : (i, v) ∈ orgScope t owner)
    (hw : (i, w) ∈ orgScope t owner) : v = w := by
  obtain ⟨o, ho, hv⟩ := mem_orgScope.mp hv
  obtain ⟨o', ho', hw⟩ := mem_orgScope.mp hw
  exact congrArg Owned.columns (Table.eq_of_mem hv hw)

theorem orgScope_ids_nodup (owner : Option ℕ) : ((orgScope t owner).map Prod.fst).Nodup := by
  rw [orgScope, List.map_map]
  exact t.ids_nodup.sublist (List.filter_sublist.map _)

/-- The natural key is a key of the rows in scope. -/
theorem orgScope_key_inj {i j : ℕ} {v w : ρ} (hv : (i, v) ∈ orgScope t owner)
    (hw : (j, w) ∈ orgScope t owner) (h : k.key v = k.key w) : i = j := by
  obtain ⟨o, ho, hv⟩ := mem_orgScope.mp hv
  obtain ⟨o', ho', hw⟩ := mem_orgScope.mp hw
  obtain rfl : o = o' := Option.some.inj (ho.symm.trans ho')
  apply t.eq_of_collide ownedCollides_comm hv hw
  simp [Kind.ownedCollides, Kind.collides, h]

/-- A row lies in one scope only. -/
theorem not_mem_orgScope {owner' : Option ℕ} {i : ℕ} {v w : ρ} (hne : owner ≠ owner')
    (hv : (i, v) ∈ orgScope t owner) : (i, w) ∉ orgScope t owner' := by
  intro hw
  obtain ⟨o, ho, hv⟩ := mem_orgScope.mp hv
  obtain ⟨o', ho', hw⟩ := mem_orgScope.mp hw
  have heq : o = o' := congrArg Owned.organization_id (Table.eq_of_mem hv hw)
  exact hne (by rw [ho, ho', heq])

/-- An insert for another owner is out of scope. -/
theorem orgScope_insert? {t' : TenantTable k} {v : Owned ρ}
    (h : t.insert? (some v) = some t') (hne : owner ≠ some v.organization_id) :
    orgScope t' owner = orgScope t owner := by
  simp [orgScope, Constrained.rows_insert? h, hne]

/-- An update or delete of rows out of scope, and keeping their owners. -/
theorem orgScope_update {t' : TenantTable k} {p : ℕ → Owned ρ → Bool}
    {f : Owned ρ → Owned ρ} (h : t'.toTable = t.toTable.update p f)
    (hf : ∀ v, (f v).organization_id = v.organization_id)
    (hp : ∀ i v, (i, v) ∈ t.rows → p i v = true → owner ≠ some v.organization_id) :
    orgScope t' owner = orgScope t owner := by
  rw [orgScope, orgScope, h, Table.filter_update]
  intro i v hmem hpv
  have hne := hp i v hmem hpv
  exact ⟨by simpa using hne, by simpa [hf v] using hne⟩

theorem orgScope_modify {p : ℕ → Owned ρ → Bool} {f : Owned ρ → Owned ρ}
    (hcheck : ∀ v, k.ownedCheck (f v) = k.ownedCheck v)
    (hcollide : ∀ v w, k.ownedCollides (f v) w = k.ownedCollides v w ∧
      k.ownedCollides v (f w) = k.ownedCollides v w)
    (hf : ∀ v, (f v).organization_id = v.organization_id)
    (hp : ∀ i v, (i, v) ∈ t.rows → p i v = true → owner ≠ some v.organization_id) :
    orgScope (t.modify p f hcheck hcollide) owner = orgScope t owner :=
  orgScope_update rfl hf hp

theorem orgScope_delete {p : ℕ → Owned ρ → Bool}
    (hp : ∀ i v, (i, v) ∈ t.rows → p i v = true → owner ≠ some v.organization_id) :
    orgScope (t.delete p) owner = orgScope t owner := by
  rw [orgScope, orgScope, Constrained.delete, Table.filter_delete]
  intro i v hmem hpv
  simpa using hp i v hmem hpv

end Scope

/-- Two keys never share an owner. -/
theorem owner_ne {db : ContentDb} {a b : String} (hab : a ≠ b) {o : ℕ}
    (ha : db.owner a = some o) : db.owner b ≠ some o := by
  intro hb
  obtain ⟨u, hu, hkey⟩ := organizationId_some ha
  obtain ⟨v, hv, hkey'⟩ := organizationId_some hb
  obtain rfl := Table.eq_of_mem hu hv
  exact hab (hkey.symm.trans hkey')

end Wallermax.Content
