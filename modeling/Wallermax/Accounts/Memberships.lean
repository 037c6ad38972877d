import Wallermax.Accounts.Users

/-!
# Organizations and memberships

The tables of migration 0009 and the statements that read and write them. The
primary key and the `CHECK` of `memberships` are fields of the type, so every
statement below keeps them; that a membership refers to an account is not a
constraint of the schema but a habit of the code (`Referential`).
-/

namespace Wallermax.Accounts

open Wallermax.Base

def mainOrganizationKey : String := "main"

def cmsOrganizationKey : String := "cms"

structure Organization : Type where
  key : String
  name : String
  document_root : String
  created_at : ℤ
deriving DecidableEq

/-- One `memberships` row; its `created_at` is only ever displayed. -/
structure Membership : Type where
  user_id : ℕ
  organization_id : ℕ
  role : UserRole
deriving DecidableEq

/-- The primary key. -/
def Membership.pk (m : Membership) : ℕ × ℕ := (m.user_id, m.organization_id)

structure Memberships : Type where
  rows : List Membership
  pk_nodup : (rows.map Membership.pk).Nodup
  role_check : ∀ m ∈ rows, m.role.isEditor = true

namespace Memberships

def empty : Memberships where
  rows := []
  pk_nodup := List.nodup_nil
  role_check := by simp

/-- `DELETE FROM memberships WHERE p`. -/
def delete (ms : Memberships) (p : Membership → Bool) : Memberships where
  rows := ms.rows.filter fun m => !p m
  pk_nodup := ms.pk_nodup.sublist (List.filter_sublist.map _)
  role_check m hm := ms.role_check m (List.mem_of_mem_filter hm)

/-- `INSERT … ON CONFLICT (user_id, organization_id) DO UPDATE SET role`. -/
def upsert (ms : Memberships) (user_id organization_id : ℕ) (role : UserRole)
    (hrole : role.isEditor = true) : Memberships where
  rows := (ms.rows.filter fun m => m.pk != (user_id, organization_id)) ++
    [{ user_id := user_id, organization_id := organization_id, role := role }]
  pk_nodup := by
    rw [List.map_append, List.nodup_append]
    refine ⟨ms.pk_nodup.sublist (List.filter_sublist.map _),
      List.nodup_singleton _, ?_⟩
    rintro a ha b hb
    obtain ⟨m, hm, rfl⟩ := List.mem_map.mp ha
    rw [List.mem_singleton.mp hb]
    have := (List.mem_filter.mp hm).2
    simpa [Membership.pk] using this
  role_check := by
    intro m hm
    rcases List.mem_append.mp hm with hm | hm
    · exact ms.role_check m (List.mem_of_mem_filter hm)
    · rw [List.mem_singleton.mp hm]
      exact hrole

@[simp] theorem mem_delete {ms : Memberships} {p : Membership → Bool}
    {m : Membership} : m ∈ (ms.delete p).rows ↔ m ∈ ms.rows ∧ p m = false := by
  simp [delete]

theorem mem_upsert {ms : Memberships} {u o : ℕ} {role : UserRole}
    (hrole : role.isEditor = true) {m : Membership} :
    m ∈ (ms.upsert u o role hrole).rows ↔
      (m ∈ ms.rows ∧ ¬ (m.user_id = u ∧ m.organization_id = o)) ∨ m = ⟨u, o, role⟩ := by
  simp [upsert, Membership.pk]

end Memberships

/-- The tables the panel's account pages work on. -/
structure PanelDb : Type where
  users : Users
  organizations : Table Organization
  memberships : Memberships

/-- `OrganizationRepository::find`. -/
def findOrganization (db : PanelDb) (key : String) : Option (ℕ × Organization) :=
  db.organizations.find? fun _ o => o.key == key

/-- `membership_role`: the role of the row joined to the organization's key. -/
def membershipRole (db : PanelDb) (user_id : ℕ) (organization : String) :
    Option UserRole :=
  (findOrganization db organization).bind fun (id, _) =>
    (db.memberships.rows.find? fun m =>
      m.user_id == user_id && m.organization_id == id).map Membership.role

/-- `members`: the memberships of an organization joined to their accounts. -/
def members (db : PanelDb) (organization_id : ℕ) : List (ℕ × String × UserRole) :=
  db.memberships.rows.filterMap fun m =>
    if m.organization_id = organization_id then
      (findById db.users m.user_id).map fun (_, u) => (m.user_id, u.username, m.role)
    else none

/-- `solo_administrator`: over the member list. -/
def soloAdministrator (db : PanelDb) (organization_id user_id : ℕ) : Bool :=
  ((members db organization_id).any fun m => m.1 == user_id && m.2.2 == .admin) &&
    ((members db organization_id).countP fun m => m.2.2 == .admin) == 1

/-- `SELECT COUNT(*) FROM memberships WHERE organization_id = ? AND role =
'admin'`. -/
def adminCount (db : PanelDb) (organization_id : ℕ) : ℕ :=
  db.memberships.rows.countP fun m =>
    m.organization_id == organization_id && m.role == .admin

/-- `solo_administrated_orgs`: keys of the organizations whose only
administrator the account is. -/
def soloAdministratedOrgs (db : PanelDb) (user_id : ℕ) : List String :=
  (db.organizations.rows.filter fun (id, _) =>
    (db.memberships.rows.any fun m =>
      m.organization_id == id && m.user_id == user_id && m.role == .admin) &&
      adminCount db id == 1).map fun (_, o) => o.key

/-- `upsert_member`: the `CHECK` refuses a role that is no membership. -/
def upsertMember (db : PanelDb) (organization_id user_id : ℕ) (role : UserRole) :
    Except RepositoryError PanelDb :=
  if hrole : role.isEditor = true then
    .ok { db with
      memberships := db.memberships.upsert user_id organization_id role hrole }
  else .error .internal

/-- `remove_member`. -/
def removeMember (db : PanelDb) (organization_id user_id : ℕ) : PanelDb :=
  { db with
    memberships := db.memberships.delete fun m =>
      m.organization_id == organization_id && m.user_id == user_id }

/-- `sync_membership`: mirror the role into the CMS organization, if its row is
there. -/
def syncMembership (db : PanelDb) (user_id : ℕ) (role : UserRole) : PanelDb :=
  match findOrganization db cmsOrganizationKey with
  | none => db
  | some (cms, _) =>
      if hrole : role.isEditor = true then
        { db with memberships := db.memberships.upsert user_id cms role hrole }
      else removeMember db cms user_id

/-- `delete`: the memberships and the account, in one transaction. -/
def deleteWithMemberships (db : PanelDb) (id : ℕ) : PanelDb :=
  { db with
    users := deleteUser db.users id
    memberships := db.memberships.delete fun m => m.user_id == id }

/-! ## Who administers what -/

/-- The organization has an admin membership. -/
def HasAdmin (db : PanelDb) (o : ℕ) : Prop :=
  ∃ m ∈ db.memberships.rows, m.organization_id = o ∧ m.role = .admin

/-- Some account carries the platform's admin role. -/
def HasPlatformAdmin (users : Users) : Prop :=
  ∃ i u, (i, u) ∈ users.rows ∧ u.role = .admin

/-- Every membership refers to an account. -/
def Referential (db : PanelDb) : Prop :=
  ∀ m ∈ db.memberships.rows, ∃ u, (m.user_id, u) ∈ db.users.rows

/-- An admin membership of `o` held by somebody else than `u`. -/
def HasOtherAdmin (db : PanelDb) (o u : ℕ) : Prop :=
  ∃ m ∈ db.memberships.rows, m.organization_id = o ∧ m.role = .admin ∧
    m.user_id ≠ u

theorem HasOtherAdmin.hasAdmin {db : PanelDb} {o u : ℕ}
    (h : HasOtherAdmin db o u) : HasAdmin db o := by
  obtain ⟨m, hm, ho, hr, _⟩ := h
  exact ⟨m, hm, ho, hr⟩

/-- **One administrator or another one**: if nobody else administers the
organization, its administrators are `u` alone. -/
theorem adminCount_eq_one {db : PanelDb} {o u : ℕ} (h : HasAdmin db o)
    (hno : ¬ HasOtherAdmin db o u) : adminCount db o = 1 ∧
      ∃ m ∈ db.memberships.rows, m.organization_id = o ∧ m.role = .admin ∧
        m.user_id = u := by
  obtain ⟨m, hm, ho, hr⟩ := h
  have hall : ∀ n ∈ db.memberships.rows, n.organization_id = o →
      n.role = .admin → n.user_id = u := by
    intro n hn hno' hnr
    by_contra hne
    exact hno ⟨n, hn, hno', hnr, hne⟩
  have hpos : 0 < adminCount db o :=
    List.countP_pos_iff.mpr ⟨m, hm, by simp [ho, hr]⟩
  have hle : adminCount db o ≤ (db.memberships.rows.map Membership.pk).count (u, o) := by
    rw [adminCount, List.count, List.countP_map]
    apply List.countP_mono_left
    intro n hn hp
    obtain ⟨hno', hnr⟩ : n.organization_id = o ∧ n.role = .admin := by simpa using hp
    simp [Membership.pk, hno', hall n hn hno' hnr]
  have hone := List.nodup_iff_count_le_one.mp db.memberships.pk_nodup (u, o)
  exact ⟨by omega, m, hm, ho, hr, hall m hm ho hr⟩

/-- The member list of a referential database has one entry a membership. -/
theorem countP_members {db : PanelDb} (h : Referential db) (o : ℕ) :
    ((members db o).countP fun m => m.2.2 == .admin) = adminCount db o := by
  unfold members adminCount
  rw [List.countP_filterMap]
  apply List.countP_congr
  intro m hm
  obtain ⟨u, hu⟩ := h m hm
  by_cases ho : m.organization_id = o
  · simp [ho, findById_of_mem hu]
  · simp [ho]

/-- **The guard is right**: when `solo_administrator` says no, somebody else
administers the organization. -/
theorem hasOtherAdmin_of_not_solo {db : PanelDb} {o u : ℕ} (h : Referential db)
    (hadmin : HasAdmin db o) (hsolo : soloAdministrator db o u = false) :
    HasOtherAdmin db o u := by
  by_contra hno
  obtain ⟨hcount, m, hm, ho, hr, hu⟩ := adminCount_eq_one hadmin hno
  obtain ⟨a, ha⟩ := h m hm
  have hany : ((members db o).any fun m => m.1 == u && m.2.2 == .admin) = true := by
    rw [List.any_eq_true]
    refine ⟨(m.user_id, a.username, m.role), ?_, by simp [hu, hr]⟩
    exact List.mem_filterMap.mpr ⟨m, hm, by simp [ho, findById_of_mem ha]⟩
  rw [soloAdministrator, hany, countP_members h, hcount] at hsolo
  cases hsolo

/-- The same for the account-deletion guard. -/
theorem hasOtherAdmin_of_no_solo_orgs {db : PanelDb} {o u : ℕ} {org : Organization}
    (horg : (o, org) ∈ db.organizations.rows) (hadmin : HasAdmin db o)
    (hsolo : soloAdministratedOrgs db u = []) : HasOtherAdmin db o u := by
  by_contra hno
  obtain ⟨hcount, m, hm, ho, hr, hu⟩ := adminCount_eq_one hadmin hno
  have hmem : org.key ∈ soloAdministratedOrgs db u := by
    refine List.mem_map.mpr ⟨(o, org), List.mem_filter.mpr ⟨horg, ?_⟩, rfl⟩
    simp only [hcount, beq_self_eq_true, Bool.and_true, List.any_eq_true]
    exact ⟨m, hm, by simp [ho, hr, hu]⟩
  rw [hsolo] at hmem
  cases hmem

/-- The mirror writes memberships only. -/
theorem sync_frame (db : PanelDb) (id : ℕ) (role : UserRole) :
    (syncMembership db id role).organizations = db.organizations ∧
      (syncMembership db id role).users = db.users := by
  unfold syncMembership
  split
  · exact ⟨rfl, rfl⟩
  · split <;> exact ⟨rfl, rfl⟩

theorem membershipRole_some {db : PanelDb} {u : ℕ} {key : String} {role : UserRole}
    (h : membershipRole db u key = some role) :
    ∃ o org, findOrganization db key = some (o, org) ∧
      ⟨u, o, role⟩ ∈ db.memberships.rows := by
  obtain ⟨⟨o, org⟩, horg, h⟩ := Option.bind_eq_some_iff.mp h
  obtain ⟨m, hm, rfl⟩ := Option.map_eq_some_iff.mp h
  obtain ⟨hu, ho⟩ : m.user_id = u ∧ m.organization_id = o := by
    simpa using List.find?_some hm
  refine ⟨o, org, horg, ?_⟩
  rw [← hu, ← ho]
  exact List.mem_of_find?_eq_some hm

theorem findOrganization_some {db : PanelDb} {key : String} {o : ℕ}
    {org : Organization} (h : findOrganization db key = some (o, org)) :
    (o, org) ∈ db.organizations.rows ∧ org.key = key := by
  obtain ⟨hmem, hk⟩ := Table.find?_some h
  exact ⟨hmem, by simpa using hk⟩

end Wallermax.Accounts
