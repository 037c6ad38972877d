import Wallermax.Storage.Content

/-!
# Migration 0011: the content learns its organization

Each content table is rebuilt: create the new shape beside it, copy the rows
with `INSERT OR IGNORE`, drop the old table, rename. Every copied row takes its
`organization_id` from a scalar subselect on the key `cms`. The migrations run
before anything seeds `organizations`.
-/

namespace Wallermax.Storage

open Wallermax.Base
open Wallermax.Accounts

/-! ## The script -/

section Rebuild

variable {ρ : Type} {k : Kind ρ}

/-- A content table under its final name. -/
inductive Stored (k : Kind ρ) : Type where
  | global (t : GlobalTable k)
  | tenant (t : TenantTable k)

/-- The columns both shapes share, by id. -/
def Stored.select : Stored k → List (ℕ × ρ)
  | .global t => t.rows
  | .tenant t => t.rows.map fun r => (r.1, r.2.columns)

/-- The two names a rebuild works on, `pages` and `pages_f20` for the pages. -/
structure Names (k : Kind ρ) : Type where
  table : Option (Stored k)
  f20 : Option (TenantTable k)

/-- The names at migration 0010. -/
def Names.before (t : GlobalTable k) : Names k where
  table := some (.global t)
  f20 := none

/-- The names at migration 0011. -/
def Names.after (t : TenantTable k) : Names k where
  table := some (.tenant t)
  f20 := none

/-- `CREATE TABLE IF NOT EXISTS t_f20`. -/
def createF20 (n : Names k) : Names k :=
  { n with
    f20 := some (n.f20.getD Constrained.empty) }

/-- `INSERT OR IGNORE INTO t_f20 SELECT …, (SELECT id FROM organizations WHERE
key = 'cms') FROM t`; an error when one of the tables does not exist. -/
def copyRows (owner : Option ℕ) (n : Names k) : Option (Names k) :=
  n.table.bind fun t => n.f20.map fun f20 =>
    { n with
      f20 := some (f20.copyOrIgnore t.select (ownedBy owner)) }

/-- `DROP TABLE IF EXISTS t`. -/
def dropTable (n : Names k) : Names k :=
  { n with
    table := none }

/-- `ALTER TABLE t_f20 RENAME TO t`; an error when the name is taken. -/
def renameF20 (n : Names k) : Option (Names k) :=
  match n.table, n.f20 with
  | none, some t => some (Names.after t)
  | _, _ => none

def rebuild (owner : Option ℕ) (n : Names k) : Option (Names k) :=
  (copyRows owner (createF20 n)).bind fun n => renameF20 (dropTable n)

end Rebuild

/-- What the script reads and writes. -/
structure ContentDb : Type where
  organizations : Table Organization
  pages : Names pageKind
  menus : Names menuKind
  media : Names mediaKind

/-- The script, in its one transaction: `none` is a failed migration. -/
def migration0011 (db : ContentDb) : Option ContentDb :=
  let cms := organizationId db.organizations cmsOrganizationKey
  (rebuild cms db.pages).bind fun pages =>
    (rebuild cms db.menus).bind fun menus =>
      (rebuild cms db.media).map fun media =>
        { organizations := db.organizations, pages := pages, menus := menus
          media := media }

/-- A database at migration 0010, with any rows. -/
structure AppliedTo0010 : Type where
  organizations : Table Organization
  pages : GlobalTable pageKind
  menus : GlobalTable menuKind
  media : GlobalTable mediaKind

def AppliedTo0010.db (a : AppliedTo0010) : ContentDb where
  organizations := a.organizations
  pages := .before a.pages
  menus := .before a.menus
  media := .before a.media

/-! ## What the upgrade promises -/

/-- The table holds the old rows under their ids, column for column, each owned
by `owner`, and nothing else. -/
def CarriedOver {ρ : Type} {k : Kind ρ} (owner : Option ℕ) (old : GlobalTable k)
    (n : Names k) : Prop :=
  ∃ t : TenantTable k, n = .after t ∧
    (∀ id v, (id, v) ∈ old.rows ↔ ∃ o, (id, o) ∈ t.rows ∧ o.columns = v) ∧
    ∀ r ∈ t.rows, owner = some r.2.organization_id

/-- "An upgrade changes nothing": no content is lost or altered, and all of it
belongs to the CMS organization. -/
def ContentKept (a : AppliedTo0010) (db : ContentDb) : Prop :=
  let cms := organizationId a.organizations cmsOrganizationKey
  db.organizations = a.organizations ∧ CarriedOver cms a.pages db.pages ∧
    CarriedOver cms a.menus db.menus ∧ CarriedOver cms a.media db.media

/-! ## One table -/

section OneTable

variable {ρ : Type} {k : Kind ρ}

/-- The rebuild always goes through; what it stores is the copy. -/
theorem rebuild_global (owner : Option ℕ) (old : GlobalTable k) :
    rebuild owner (.before old) = some (.after
      ((Constrained.empty : TenantTable k).copyOrIgnore old.rows (ownedBy owner))) :=
  rfl

/-- With a CMS organization the new constraints refuse no old row. -/
theorem rows_copy_some (id : ℕ) (old : GlobalTable k) :
    ((Constrained.empty : TenantTable k).copyOrIgnore old.rows
      (ownedBy (some id))).rows = old.rows.map fun r => (r.1, ⟨id, r.2⟩) :=
  Constrained.rows_copyOrIgnore_empty old (fun v => (⟨id, v⟩ : Owned ρ))
    (fun _ hv => hv) (fun _ _ hvw => ownedCollides_of_collides_false hvw)

/-- Without one every row is skipped: its `organization_id` is `NULL`. -/
theorem rows_copy_none (old : GlobalTable k) :
    ((Constrained.empty : TenantTable k).copyOrIgnore old.rows
      (ownedBy none)).rows = [] := by
  rw [show (ownedBy none : ρ → Option (Owned ρ)) = fun _ => none from rfl,
    Constrained.copyOrIgnore_none]
  rfl

/-- **One table is carried over** exactly when there is an owner to give its
rows to, or there are no rows. -/
theorem carriedOver_rebuild_iff {owner : Option ℕ} {old : GlobalTable k}
    {n : Names k} (h : rebuild owner (.before old) = some n) :
    CarriedOver owner old n ↔ owner.isSome ∨ old.rows = [] := by
  rw [rebuild_global] at h
  cases h
  constructor
  · rintro ⟨t, ht, hrows, _⟩
    cases ht
    cases owner with
    | some id => exact .inl rfl
    | none =>
        right
        rw [List.eq_nil_iff_forall_not_mem]
        rintro ⟨id, v⟩ hv
        obtain ⟨o, ho, _⟩ := (hrows id v).mp hv
        rw [rows_copy_none] at ho
        cases ho
  · intro hcond
    refine ⟨_, rfl, ?_⟩
    cases owner with
    | some cms =>
        rw [rows_copy_some]
        constructor
        · intro id v
          simp only [List.mem_map, Prod.mk.injEq, Prod.exists]
          constructor
          · intro hv
            exact ⟨⟨cms, v⟩, ⟨id, v, hv, rfl, rfl⟩, rfl⟩
          · rintro ⟨_, ⟨i, w, hw, rfl, rfl⟩, rfl⟩
            exact hw
        · intro r hr
          obtain ⟨q, _, rfl⟩ := List.mem_map.mp hr
          rfl
    | none =>
        have hnil : old.rows = [] := hcond.resolve_left (by simp)
        rw [rows_copy_none, hnil]
        simp

end OneTable

/-! ## The three tables -/

/-- **When the upgrade keeps the content.** From every database at migration
0010 the script succeeds, and all content comes through exactly when the CMS
organization has been seeded or there is no content. -/
theorem migration0011_keeps_iff (a : AppliedTo0010) :
    ∃ db, migration0011 a.db = some db ∧
      (ContentKept a db ↔
        (organizationId a.organizations cmsOrganizationKey).isSome ∨
          (a.pages.rows = [] ∧ a.menus.rows = [] ∧ a.media.rows = [])) := by
  refine ⟨_, rfl, ?_⟩
  have hpages := carriedOver_rebuild_iff (rebuild_global
    (organizationId a.organizations cmsOrganizationKey) a.pages)
  have hmenus := carriedOver_rebuild_iff (rebuild_global
    (organizationId a.organizations cmsOrganizationKey) a.menus)
  have hmedia := carriedOver_rebuild_iff (rebuild_global
    (organizationId a.organizations cmsOrganizationKey) a.media)
  refine (and_congr_right' (and_congr hpages (and_congr hmenus hmedia))).trans ?_
  constructor
  · rintro ⟨_, hp, hm, hd⟩
    rcases hp with hcms | hp
    · exact .inl hcms
    · rcases hm with hcms | hm
      · exact .inl hcms
      · exact hd.imp_right fun hd => ⟨hp, hm, hd⟩
  · rintro (hcms | ⟨hp, hm, hd⟩)
    · exact ⟨rfl, .inl hcms, .inl hcms, .inl hcms⟩
    · exact ⟨rfl, .inr hp, .inr hm, .inr hd⟩

def homePage : Page where
  slug := "home"
  title := "Home"
  content := "welcome"
  is_published := true
  created_by := none
  created_at := 0
  updated_at := 0
  parent_id := none
  position := 0
  meta_title := none
  meta_description := none
  og_image := none
  body_format := .jhs
  publish_at := none

/-- A database from before the organizations that is upgraded in one go: 0009
has just created an empty `organizations`. -/
def unseededUpgrade : AppliedTo0010 where
  organizations := Table.empty
  pages :=
    { rows := [(1, homePage)], seq := 1, ids_nodup := by decide, ids_le_seq := by decide
      checked := by decide, unique := by decide }
  menus := Constrained.empty
  media := Constrained.empty

/-- Its page is lost. -/
theorem unseeded_upgrade_loses_page : ∃ db, migration0011 unseededUpgrade.db = some db ∧
    ¬ ContentKept unseededUpgrade db := by
  refine ⟨_, rfl, ?_⟩
  rintro ⟨_, ⟨t, ht, hrows, _⟩, _⟩
  cases ht
  obtain ⟨o, ho, _⟩ := (hrows 1 homePage).mp (List.mem_singleton_self _)
  -- the subselect is `NULL`, so the copy skipped the row
  have hempty := rows_copy_none unseededUpgrade.pages
  rw [show organizationId unseededUpgrade.db.organizations cmsOrganizationKey = none
    from rfl] at ho
  exact absurd (hempty ▸ ho) (by simp)

end Wallermax.Storage
