import Wallermax.Accounts.Memberships
import Wallermax.Base.Constrained

/-!
# The content tables

`pages`, `menus` and `media` in the two shapes they had: the global shape of
migrations 0003 to 0010 and the per-organization shape of migration 0011. A
`Kind` collects what differs between the three: the `CHECK`s, the natural key,
and whether 0011 made the natural key unique per organization. `body_format`
and `mime_type` have a `CHECK (… IN …)`, so their columns are enumerations.
-/

namespace Wallermax.Storage

open Wallermax.Base
open Wallermax.Accounts

inductive BodyFormat : Type where
  | jhs
  | markdown
deriving DecidableEq

/-- The columns of `pages` before 0011, the id apart. -/
structure Page : Type where
  slug : String
  title : String
  content : String
  is_published : Bool
  created_by : Option ℕ
  created_at : ℤ
  updated_at : ℤ
  parent_id : Option ℕ
  position : ℤ
  meta_title : Option String
  meta_description : Option String
  og_image : Option String
  body_format : BodyFormat
  publish_at : Option ℤ
deriving DecidableEq

structure Menu : Type where
  name : String
  title : String
  created_at : ℤ
  updated_at : ℤ
deriving DecidableEq

inductive MimeType : Type where
  | png
  | jpeg
  | gif
  | webp
deriving DecidableEq

structure Media : Type where
  stored_name : String
  thumb_name : String
  original_name : String
  mime_type : MimeType
  bytes : ℤ
  width : ℤ
  height : ℤ
  alt_text : String
  created_at : ℤ
  created_by : Option ℕ
deriving DecidableEq

/-- What the migrations declare about one content table. -/
structure Kind (ρ : Type) : Type where
  check : ρ → Bool
  key : ρ → String
  perOrganization : Bool

def pageKind : Kind Page where
  check := fun _ => true
  key := Page.slug
  perOrganization := true

def menuKind : Kind Menu where
  check := fun _ => true
  key := Menu.name
  perOrganization := true

/-- `name NOT GLOB '*/*' AND name NOT GLOB '*\*'`. -/
def flatName (name : String) : Bool :=
  name.toList.all fun c => c != '/' && c != '\\'

def mediaKind : Kind Media where
  check := fun v => flatName v.stored_name && flatName v.thumb_name
  key := Media.stored_name
  perOrganization := false

/-- A row of the 0011 shape. -/
structure Owned (ρ : Type) : Type where
  organization_id : ℕ
  columns : ρ
deriving DecidableEq

section Tables

variable {ρ : Type}

def Kind.collides (k : Kind ρ) (v w : ρ) : Bool := k.key v == k.key w

def Kind.ownedCheck (k : Kind ρ) (v : Owned ρ) : Bool := k.check v.columns

def Kind.ownedCollides (k : Kind ρ) (v w : Owned ρ) : Bool :=
  (!k.perOrganization || v.organization_id == w.organization_id) &&
    k.collides v.columns w.columns

/-- The table of migrations 0003 to 0010. -/
abbrev GlobalTable (k : Kind ρ) : Type := Constrained ρ k.check k.collides

/-- The table of migration 0011. -/
abbrev TenantTable (k : Kind ρ) : Type :=
  Constrained (Owned ρ) k.ownedCheck k.ownedCollides

theorem ownedCollides_of_collides_false {k : Kind ρ} {v w : Owned ρ}
    (h : k.collides v.columns w.columns = false) : k.ownedCollides v w = false := by
  simp [Kind.ownedCollides, h]

theorem ownedCollides_comm {k : Kind ρ} (v w : Owned ρ) :
    k.ownedCollides v w = k.ownedCollides w v := by
  simp only [Kind.ownedCollides, Kind.collides, Bool.beq_comm]

end Tables

/-- The scalar subselect `(SELECT id FROM organizations WHERE key = ?)`. -/
def organizationId (organizations : Table Organization) (key : String) : Option ℕ :=
  (organizations.find? fun _ o => o.key == key).map Prod.fst

theorem organizationId_some {organizations : Table Organization} {key : String}
    {id : ℕ} (h : organizationId organizations key = some id) :
    ∃ o, (id, o) ∈ organizations.rows ∧ o.key = key := by
  obtain ⟨⟨i, o⟩, hfind, rfl⟩ := Option.map_eq_some_iff.mp h
  obtain ⟨hmem, hkey⟩ := Table.find?_some hfind
  exact ⟨o, hmem, by simpa using hkey⟩

/-- A row a statement builds with that subselect as its `organization_id`; a
`NULL` there is a row the table refuses. -/
def ownedBy {ρ : Type} (owner : Option ℕ) (v : ρ) : Option (Owned ρ) :=
  owner.map fun id => ⟨id, v⟩

/-- The `create` of the three repositories; only a `UNIQUE` violation is a
duplicate, any other constraint is an internal error. -/
def insertOwned {ρ : Type} {k : Kind ρ} (t : TenantTable k) (owner : Option ℕ)
    (v : ρ) : Except RepositoryError (TenantTable k) :=
  if !k.check v then .error .internal
  else match ownedBy owner v with
  | none => .error .internal
  | some row =>
    match t.insert? (some row) with
    | none => .error .duplicate
    | some t => .ok t

theorem insertOwned_ok {ρ : Type} {k : Kind ρ} {t t' : TenantTable k}
    {owner : Option ℕ} {v : ρ} (h : insertOwned t owner v = .ok t') :
    ∃ id, owner = some id ∧ t.insert? (some ⟨id, v⟩) = some t' := by
  unfold insertOwned at h
  split at h
  · cases h
  · cases owner with
    | none => cases h
    | some id =>
        simp only [ownedBy, Option.map_some] at h
        split at h
        · cases h
        · rename_i t'' hins
          cases h
          exact ⟨id, rfl, hins⟩

theorem mem_insertOwned {ρ : Type} {k : Kind ρ} {t t' : TenantTable k}
    {owner : Option ℕ} {v : ρ} (h : insertOwned t owner v = .ok t')
    {r : ℕ × Owned ρ} :
    r ∈ t'.rows ↔ r ∈ t.rows ∨ ∃ id, owner = some id ∧ r = (t.nextId, ⟨id, v⟩) := by
  obtain ⟨id, rfl, hins⟩ := insertOwned_ok h
  rw [Constrained.mem_insert? hins]
  simp

end Wallermax.Storage
