import Wallermax.Storage.Content

/-!
# The tables behind the Tenants pages

Organizations, memberships, host names and the content they own, with the
statements of `SqliteOrganizationRepository` and the `create` of the content
repositories. The schema has no foreign key to `organizations`: neither
`domains.organization_id` nor the content's `organization_id` is one.
-/

namespace Wallermax.Tenants

open Wallermax.Base
open Wallermax.Accounts
open Wallermax.Storage

inductive DomainSource : Type where
  | config
  | manual
deriving DecidableEq

structure Domain : Type where
  hostname : String
  organization_id : ℕ
  source : DomainSource
deriving DecidableEq

/-- `hostname` is `UNIQUE`; the `CHECK` on `source` is its type. -/
abbrev Domains : Type :=
  Constrained Domain (fun _ => true) fun d e => d.hostname == e.hostname

structure TenantDb : Type extends PanelDb where
  domains : Domains
  pages : TenantTable pageKind
  menus : TenantTable menuKind
  media : TenantTable mediaKind

/-! ## Organizations -/

/-- `INSERT INTO organizations`; `key` is `UNIQUE`. -/
def createOrganization (db : TenantDb) (key name document_root : String) (now : ℤ) :
    Except RepositoryError TenantDb :=
  if (findOrganization db.toPanelDb key).isSome then .error .duplicate
  else .ok { db with
    organizations := db.organizations.insert
      { key := key, name := name, document_root := document_root, created_at := now } }

/-- `UPDATE organizations SET name, document_root WHERE key = ?`, and whether a
row was affected. -/
def updateOrganization (db : TenantDb) (key name document_root : String) :
    TenantDb × Bool :=
  ({ db with
    organizations := db.organizations.update (fun _ o => o.key == key) fun o =>
      { o with
        name := name
        document_root := document_root } },
    0 < db.organizations.count fun _ o => o.key == key)

/-- `delete`: one transaction over the three tables. It does not look at the
content. -/
def deleteOrganization (db : TenantDb) (key : String) : TenantDb × Bool :=
  match findOrganization db.toPanelDb key with
  | none => (db, false)
  | some (id, _) =>
      ({ db with
        domains := db.domains.delete fun _ d => d.organization_id == id
        memberships := db.memberships.delete fun m => m.organization_id == id
        organizations := db.organizations.delete fun i _ => i == id }, true)

structure ContentCounts : Type where
  pages : ℕ
  menus : ℕ
  media : ℕ

def ContentCounts.is_empty (c : ContentCounts) : Bool :=
  c.pages == 0 && c.menus == 0 && c.media == 0

/-- `COUNT(*) … WHERE organization_id = (SELECT id …)`; no row matches `NULL`. -/
def countOwned {ρ : Type} {k : Kind ρ} (t : TenantTable k) (owner : Option ℕ) : ℕ :=
  t.count fun _ v => owner == some v.organization_id

/-- `content_counts`: one statement. -/
def contentCounts (db : TenantDb) (key : String) : ContentCounts :=
  let owner := organizationId db.organizations key
  { pages := countOwned db.pages owner, menus := countOwned db.menus owner
    media := countOwned db.media owner }

/-- `is_seeded`. -/
def isSeeded (organization : Organization) : Bool :=
  organization.key == mainOrganizationKey || organization.key == cmsOrganizationKey

/-! ## Host names -/

/-- `add_domain`. -/
def addDomain (db : TenantDb) (organization_id : ℕ) (hostname : String) :
    Except RepositoryError TenantDb :=
  match db.domains.insert? (some ⟨hostname, organization_id, .manual⟩) with
  | none => .error .duplicate
  | some domains => .ok { db with domains := domains }

/-- The `DELETE` of `remove_domain`, and whether it removed a row. -/
def deleteManualDomain (db : TenantDb) (organization_id : ℕ) (hostname : String) :
    TenantDb × Bool :=
  let p : ℕ → Domain → Bool := fun _ d =>
    d.organization_id == organization_id && d.hostname == hostname && d.source == .manual
  ({ db with domains := db.domains.delete p }, 0 < db.domains.count p)

/-- The lookup of `remove_domain` when nothing was removed. -/
def hasDomain (db : TenantDb) (organization_id : ℕ) (hostname : String) : Bool :=
  (db.domains.find? fun _ d =>
    d.organization_id == organization_id && d.hostname == hostname).isSome

/-! ## Content -/

inductive NewContent : Type where
  | page (columns : Page)
  | menu (columns : Menu)
  | media (columns : Media)

/-- The foreign keys of `pages`, checked at the end of the `INSERT`: the author
exists, and so does the parent, which may be the new row itself. -/
def pageReferences (db : TenantDb) (p : Page) : Bool :=
  (p.created_by.all fun user => (findById db.users user).isSome) &&
    p.parent_id.all fun parent => parent == db.pages.nextId ||
      (db.pages.find? fun i _ => i == parent).isSome

/-- `create` of the three content repositories, for the organization the guard
resolved; the new row's id comes with the tables. -/
def insertContent (db : TenantDb) (organization : String) :
    NewContent → Except RepositoryError (TenantDb × ℕ)
  | .page columns =>
      if !pageReferences db columns then .error .internal
      else (insertOwned db.pages (organizationId db.organizations organization)
        columns).map fun pages => ({ db with pages := pages }, db.pages.nextId)
  | .menu columns =>
      (insertOwned db.menus (organizationId db.organizations organization)
        columns).map fun menus => ({ db with menus := menus }, db.menus.nextId)
  | .media columns =>
      (insertOwned db.media (organizationId db.organizations organization)
        columns).map fun media => ({ db with media := media }, db.media.nextId)

/-! ## What each statement does -/

theorem findOrganization_eq_organizationId (db : TenantDb) (key : String) :
    (findOrganization db.toPanelDb key).map Prod.fst =
      organizationId db.organizations key := rfl

theorem createOrganization_ok {db db' : TenantDb} {key name root : String} {now : ℤ}
    (h : createOrganization db key name root now = .ok db') :
    organizationId db.organizations key = none ∧
      db' = { db with
        organizations := db.organizations.insert ⟨key, name, root, now⟩ } := by
  unfold createOrganization at h
  split at h
  · cases h
  · rename_i hfree
    cases h
    refine ⟨?_, rfl⟩
    rw [← findOrganization_eq_organizationId]
    simpa using hfree

/-- The delete transaction: either nothing, or exactly the organization's own
rows are gone. -/
theorem deleteOrganization_cases (db : TenantDb) (key : String) :
    (organizationId db.organizations key = none ∧ deleteOrganization db key = (db, false)) ∨
    ∃ id, organizationId db.organizations key = some id ∧
      (deleteOrganization db key).1.organizations =
        db.organizations.delete (fun i _ => i == id) ∧
      (deleteOrganization db key).1.pages = db.pages ∧
      (deleteOrganization db key).1.menus = db.menus ∧
      (deleteOrganization db key).1.media = db.media := by
  rw [← findOrganization_eq_organizationId]
  unfold deleteOrganization
  cases findOrganization db.toPanelDb key with
  | none => exact .inl ⟨rfl, rfl⟩
  | some r => exact .inr ⟨r.1, rfl, rfl, rfl, rfl, rfl⟩

theorem countOwned_eq_zero {ρ : Type} {k : Kind ρ} {t : TenantTable k}
    {owner : Option ℕ} :
    countOwned t owner = 0 ↔ ∀ i v, (i, v) ∈ t.rows → owner ≠ some v.organization_id := by
  simp only [countOwned, Table.count_eq_zero, beq_eq_false_iff_ne]

end Wallermax.Tenants
