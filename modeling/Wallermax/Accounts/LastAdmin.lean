import Wallermax.Accounts.Administration
import Wallermax.Base.Runs

/-!
# The last administrator

Runs of the account pages, one request at a time, where any statement may fail.
What protects the CMS organization is not a count but the actor: whoever writes
on the Users page administers the organization the guard asked about and may
not edit himself. Where that organization is the CMS, one administrator of it
is left after every write. On a server booted without host bindings it may be a
tenant's organization instead, and then nothing is left to protect the CMS
memberships once they differ from the platform roles.
-/

namespace Wallermax.Accounts

open Wallermax.Base

/-- The organizations with an admin membership. -/
def adminOrgs (db : PanelDb) : List ℕ :=
  (db.memberships.rows.filter fun m => m.role == .admin).map Membership.organization_id

/-- The panel between two requests. `governed` lists the organizations that had
an admin membership at some point. -/
structure Panel : Type where
  single_host : Bool
  db : PanelDb
  governed : List ℕ

def Panel.initial (single_host : Bool) (db : PanelDb) : Panel where
  single_host := single_host
  db := db
  governed := adminOrgs db

/-- A request together with the fate of its statements. -/
structure PanelLabel : Type where
  request : PanelRequest
  ok : ℕ → Bool

section
variable (hash : String → Option String) (min_password_len : ℕ)

def panelStep (w : Panel) (l : PanelLabel) : Option Panel :=
  let db := (servePanel hash min_password_len w.single_host w.db l.ok l.request).1
  some { w with db := db, governed := w.governed ++ adminOrgs db }

end

/-- **The law**: an organization that had an administrator and still exists has
one, and as long as accounts remain, so have the platform and the CMS. -/
structure Administered (w : Panel) : Prop where
  governed : ∀ o ∈ w.governed, (∃ org, (o, org) ∈ w.db.organizations.rows) →
    HasAdmin w.db o
  platform : w.db.users.rows ≠ [] → HasPlatformAdmin w.db.users
  cms : w.db.users.rows ≠ [] → ∃ o org,
    findOrganization w.db cmsOrganizationKey = some (o, org) ∧ HasAdmin w.db o

/-- Somebody but `id` administers the CMS organization. -/
def cmsSpared (db : PanelDb) (id : ℕ) : Bool :=
  match findOrganization db cmsOrganizationKey with
  | none => false
  | some (cms, _) => db.memberships.rows.any fun m =>
      m.organization_id == cms && m.role == .admin && m.user_id != id

/-- The request is a role change on the Users page that passes its guards and
takes the CMS organization's only administrator away. -/
def Unseats (hash : String → Option String) (min_password_len : ℕ) (w : Panel)
    (l : PanelLabel) : Bool :=
  match l.request with
  | .updateUser organization actor id role password =>
      mounted w.single_host .users organization && l.ok 0 &&
        membershipRole w.db actor organization == some .admin && l.ok 1 &&
        match findById w.db.users id, UserRole.parse role,
          newPassword hash min_password_len password with
        | some (_, user), some new_role, .ok _ =>
            id != actor &&
              (!demotesAdmin user new_role ||
                (l.ok 2 && decide (2 ≤ countWithRole w.db.users .admin))) &&
              l.ok 3 && l.ok 4 && new_role != .admin && !cmsSpared w.db id
        | _, _, _ => false
  | _ => false

theorem mem_adminOrgs {db : PanelDb} {o : ℕ} : o ∈ adminOrgs db ↔ HasAdmin db o := by
  simp only [adminOrgs, List.mem_map, List.mem_filter, beq_iff_eq, HasAdmin]
  constructor
  · rintro ⟨m, ⟨hm, hr⟩, ho⟩
    exact ⟨m, hm, ho, hr⟩
  · rintro ⟨m, hm, ho, hr⟩
    exact ⟨m, ⟨hm, hr⟩, ho⟩

theorem cmsSpared_iff {db : PanelDb} {id cms : ℕ} {org : Organization}
    (h : findOrganization db cmsOrganizationKey = some (cms, org)) :
    cmsSpared db id = true ↔ HasOtherAdmin db cms id := by
  simp only [cmsSpared, h, List.any_eq_true, Bool.and_eq_true, beq_iff_eq,
    bne_iff_ne, HasOtherAdmin, and_assoc]

/-! ## Writes that keep the law -/

/-- What every accepted write guarantees. -/
structure Keeps (db db' : PanelDb) : Prop where
  organizations : db'.organizations = db.organizations
  accounts : db'.users.rows ≠ [] → db.users.rows ≠ []
  platform : HasPlatformAdmin db.users → HasPlatformAdmin db'.users
  admins : ∀ o, (∃ org, (o, org) ∈ db.organizations.rows) → HasAdmin db o →
    HasAdmin db' o

theorem Keeps.refl (db : PanelDb) : Keeps db db :=
  ⟨rfl, id, id, fun _ _ h => h⟩

theorem findOrganization_congr {db db' : PanelDb}
    (h : db'.organizations = db.organizations) (key : String) :
    findOrganization db' key = findOrganization db key := by
  rw [findOrganization, h]
  rfl

theorem Administered.keeps {w : Panel} {db' : PanelDb} (h : Administered w)
    (hk : Keeps w.db db') :
    Administered { w with db := db', governed := w.governed ++ adminOrgs db' } := by
  constructor
  · rintro o ho ⟨org, horg⟩
    rcases List.mem_append.mp ho with ho | ho
    · have horg : ∃ org, (o, org) ∈ w.db.organizations.rows :=
        ⟨org, hk.organizations ▸ horg⟩
      exact hk.admins o horg (h.governed o ho horg)
    · exact mem_adminOrgs.mp ho
  · intro hne
    exact hk.platform (h.platform (hk.accounts hne))
  · intro hne
    obtain ⟨o, org, horg, hadmin⟩ := h.cms (hk.accounts hne)
    refine ⟨o, org, ?_, hk.admins o ⟨org, (findOrganization_some horg).1⟩ hadmin⟩
    exact (findOrganization_congr hk.organizations _).trans horg

/-! ### Memberships -/

theorem hasAdmin_upsert {db : PanelDb} {u o o' : ℕ} {role : UserRole}
    {hrole : role.isEditor = true} (h : HasAdmin db o')
    (hother : o' = o → role = .admin ∨ HasOtherAdmin db o u) :
    HasAdmin { db with memberships := db.memberships.upsert u o role hrole } o' := by
  by_cases ho : o' = o
  · subst ho
    rcases hother rfl with hr | ⟨m, hm, hmo, hmr, hmu⟩
    · exact ⟨⟨u, o', role⟩, (Memberships.mem_upsert hrole).mpr (.inr rfl), rfl, hr⟩
    · exact ⟨m, (Memberships.mem_upsert hrole).mpr (.inl ⟨hm, fun hc => hmu hc.1⟩), hmo, hmr⟩
  · obtain ⟨m, hm, hmo, hmr⟩ := h
    refine ⟨m, (Memberships.mem_upsert hrole).mpr (.inl ⟨hm, fun hc => ho ?_⟩), hmo, hmr⟩
    rw [← hmo, hc.2]

theorem hasAdmin_removeMember {db : PanelDb} {u o o' : ℕ} (h : HasAdmin db o')
    (hother : o' = o → HasOtherAdmin db o u) : HasAdmin (removeMember db o u) o' := by
  by_cases ho : o' = o
  · subst ho
    obtain ⟨m, hm, hmo, hmr, hmu⟩ := hother rfl
    exact ⟨m, Memberships.mem_delete.mpr ⟨hm, by simp [hmu]⟩, hmo, hmr⟩
  · obtain ⟨m, hm, hmo, hmr⟩ := h
    refine ⟨m, Memberships.mem_delete.mpr ⟨hm, ?_⟩, hmo, hmr⟩
    simp [hmo, ho]

theorem keeps_grant {db : PanelDb} {u o : ℕ} {role : UserRole}
    {hrole : role.isEditor = true} (hrefer : Referential db)
    (h : role = .admin ∨ soloAdministrator db o u = false) :
    Keeps db { db with memberships := db.memberships.upsert u o role hrole } := by
  refine ⟨rfl, id, id, fun o' _ hadmin => hasAdmin_upsert hadmin ?_⟩
  rintro rfl
  exact h.imp_right (hasOtherAdmin_of_not_solo hrefer hadmin)

theorem keeps_drop {db : PanelDb} {u o : ℕ} (hrefer : Referential db)
    (h : soloAdministrator db o u = false) : Keeps db (removeMember db o u) := by
  refine ⟨rfl, id, id, fun o' _ hadmin => hasAdmin_removeMember hadmin ?_⟩
  rintro rfl
  exact hasOtherAdmin_of_not_solo hrefer hadmin h

/-! ### Accounts -/

/-- Two administrators leave one when `id` goes. -/
theorem hasOtherPlatformAdmin {users : Users} {id : ℕ} {user : User}
    (hmem : (id, user) ∈ users.rows) (h : HasPlatformAdmin users)
    (hcount : user.role = .admin → 2 ≤ countWithRole users .admin) :
    ∃ i u, (i, u) ∈ users.rows ∧ u.role = .admin ∧ i ≠ id := by
  by_cases hrole : user.role = .admin
  · obtain ⟨i, u, hu, hr, hne⟩ :=
      Table.exists_ne_of_two_le_count (hcount hrole) id
    exact ⟨i, u, hu, by simpa using hr, hne⟩
  · obtain ⟨i, u, hu, hr⟩ := h
    refine ⟨i, u, hu, hr, ?_⟩
    rintro rfl
    rw [Table.eq_of_mem hmem hu] at hrole
    exact hrole hr

theorem hasPlatformAdmin_setRole {users : Users} {id : ℕ} {user : User}
    {role : UserRole} (hmem : (id, user) ∈ users.rows) (h : HasPlatformAdmin users)
    (hcount : demotesAdmin user role = true → 2 ≤ countWithRole users .admin) :
    HasPlatformAdmin (setRole users id role).1 := by
  by_cases hrole : role = .admin
  · exact ⟨id, { user with role := role }, mem_setRole.mpr ⟨user, hmem, by simp⟩, hrole⟩
  · obtain ⟨i, u, hu, hr, hne⟩ := hasOtherPlatformAdmin hmem h
      fun hadmin => hcount (by simp [demotesAdmin, hadmin, hrole])
    exact ⟨i, u, mem_setRole.mpr ⟨u, hu, by simp [hne]⟩, hr⟩

theorem keeps_delete {db : PanelDb} {id : ℕ} {user : User}
    (hmem : (id, user) ∈ db.users.rows)
    (hcount : user.role = .admin → 2 ≤ countWithRole db.users .admin)
    (hsolo : soloAdministratedOrgs db id = []) :
    Keeps db (deleteWithMemberships db id) := by
  refine ⟨rfl, ?_, ?_, ?_⟩
  · rintro _ hnil
    rw [hnil] at hmem
    cases hmem
  · intro h
    obtain ⟨i, u, hu, hr, hne⟩ := hasOtherPlatformAdmin hmem h hcount
    exact ⟨i, u, mem_deleteUser.mpr ⟨hu, hne⟩, hr⟩
  · rintro o ⟨org, horg⟩ hadmin
    obtain ⟨m, hm, hmo, hmr, hmu⟩ := hasOtherAdmin_of_no_solo_orgs horg hadmin hsolo
    exact ⟨m, Memberships.mem_delete.mpr ⟨hm, by simp [hmu]⟩, hmo, hmr⟩

/-! ### The role and its mirror -/

/-- The accounts after the role update, the mirror not written. -/
def withRole (db : PanelDb) (id : ℕ) (role : UserRole) : PanelDb :=
  { db with users := (setRole db.users id role).1 }

theorem keeps_withRole {db : PanelDb} {id : ℕ} {user : User} {role : UserRole}
    (hmem : (id, user) ∈ db.users.rows)
    (hcount : demotesAdmin user role = true → 2 ≤ countWithRole db.users .admin) :
    Keeps db (withRole db id role) :=
  ⟨rfl, fun _ => List.ne_nil_of_mem hmem, fun h => hasPlatformAdmin_setRole hmem h hcount,
    fun _ _ h => h⟩

/-- **The mirror and the CMS administrators**: after it the CMS organization has
one exactly when the role is admin or somebody else administers it. -/
theorem hasAdmin_sync {db : PanelDb} {cms id : ℕ} {org : Organization}
    {role : UserRole}
    (hcms : findOrganization db cmsOrganizationKey = some (cms, org)) :
    HasAdmin (syncMembership db id role) cms ↔
      role = .admin ∨ HasOtherAdmin db cms id := by
  simp only [syncMembership, hcms]
  split
  · rename_i hrole
    constructor
    · rintro ⟨m, hm, hmo, hmr⟩
      rcases (Memberships.mem_upsert hrole).mp hm with ⟨hm, hne⟩ | rfl
      · exact .inr ⟨m, hm, hmo, hmr, fun hu => hne ⟨hu, hmo⟩⟩
      · exact .inl hmr
    · rintro (hr | ⟨m, hm, hmo, hmr, hmu⟩)
      · exact ⟨⟨id, cms, role⟩, (Memberships.mem_upsert hrole).mpr (.inr rfl), rfl, hr⟩
      · exact ⟨m, (Memberships.mem_upsert hrole).mpr (.inl ⟨hm, fun hc => hmu hc.1⟩), hmo, hmr⟩
  · rename_i hrole
    constructor
    · rintro ⟨m, hm, hmo, hmr⟩
      obtain ⟨hm, hne⟩ := Memberships.mem_delete.mp hm
      exact .inr ⟨m, hm, hmo, hmr, fun hu => by simp [hmo, hu] at hne⟩
    · rintro (rfl | ⟨m, hm, hmo, hmr, hmu⟩)
      · exact absurd rfl hrole
      · exact ⟨m, Memberships.mem_delete.mpr ⟨hm, by simp [hmu]⟩, hmo, hmr⟩

theorem hasAdmin_sync_other {db : PanelDb} {cms id o : ℕ} {org : Organization}
    {role : UserRole}
    (hcms : findOrganization db cmsOrganizationKey = some (cms, org)) (ho : o ≠ cms)
    (h : HasAdmin db o) : HasAdmin (syncMembership db id role) o := by
  simp only [syncMembership, hcms]
  split
  · exact hasAdmin_upsert h fun heq => absurd heq ho
  · exact hasAdmin_removeMember h fun heq => absurd heq ho

/-- A role change followed by its mirror, when the CMS organization is spared. -/
theorem keeps_sync {db : PanelDb} {id : ℕ} {user : User} {role : UserRole}
    (hmem : (id, user) ∈ db.users.rows)
    (hcount : demotesAdmin user role = true → 2 ≤ countWithRole db.users .admin)
    (hspared : role = .admin ∨ cmsSpared db id = true) :
    Keeps db (syncMembership (withRole db id role) id role) := by
  have hrole := keeps_withRole hmem hcount
  obtain ⟨horgs, husers⟩ := sync_frame (withRole db id role) id role
  refine ⟨horgs, fun hne => hrole.accounts (husers ▸ hne),
    fun h => husers ▸ hrole.platform h, ?_⟩
  rintro o ho hadmin
  cases hcms : findOrganization db cmsOrganizationKey with
  | none =>
      -- without a CMS organization the mirror does nothing
      have hsame : syncMembership (withRole db id role) id role = withRole db id role := by
        simp only [syncMembership]
        rw [show findOrganization (withRole db id role) cmsOrganizationKey = none from hcms]
      rw [hsame]
      exact hadmin
  | some found =>
      obtain ⟨cms, org⟩ := found
      have hcms' : findOrganization (withRole db id role) cmsOrganizationKey =
          some (cms, org) := hcms
      by_cases hoc : o = cms
      · subst hoc
        exact (hasAdmin_sync hcms').mpr (hspared.imp_right (cmsSpared_iff hcms).mp)
      · exact hasAdmin_sync_other hcms' hoc hadmin

theorem keeps_password {db : PanelDb} (id : ℕ) (password_hash : String) :
    Keeps db { db with users := updatePassword db.users id password_hash } := by
  refine ⟨rfl, ?_, ?_, fun _ _ h => h⟩
  · rintro hne hnil
    apply hne
    simp [updatePassword, Table.update, hnil]
  · rintro ⟨i, u, hu, hr⟩
    refine ⟨i, _, Table.mem_update.mpr ⟨u, hu, rfl⟩, ?_⟩
    split <;> exact hr

theorem Keeps.trans {a b c : PanelDb} (h : Keeps a b) (h' : Keeps b c) : Keeps a c := by
  refine ⟨h'.organizations.trans h.organizations, fun hne => h.accounts (h'.accounts hne),
    fun hp => h'.platform (h.platform hp), fun o ho hadmin => ?_⟩
  exact h'.admins o (h.organizations.symm ▸ ho) (h.admins o ho hadmin)

/-! ## Memberships refer to accounts -/

theorem referential_upsert {db : PanelDb} {u o : ℕ} {role : UserRole}
    {hrole : role.isEditor = true} {a : User} (h : Referential db)
    (ha : (u, a) ∈ db.users.rows) :
    Referential { db with memberships := db.memberships.upsert u o role hrole } := by
  rintro m hm
  rcases (Memberships.mem_upsert hrole).mp hm with ⟨hm, _⟩ | rfl
  · exact h m hm
  · exact ⟨a, ha⟩

theorem referential_remove {db : PanelDb} {u o : ℕ} (h : Referential db) :
    Referential (removeMember db o u) :=
  fun m hm => h m (Memberships.mem_delete.mp hm).1

/-- Updating rows keeps every account. -/
theorem referential_users {db : PanelDb} {p : ℕ → User → Bool} {f : User → User}
    (h : Referential db) : Referential { db with users := db.users.update p f } := by
  rintro m hm
  obtain ⟨u, hu⟩ := h m hm
  exact ⟨_, Table.mem_update.mpr ⟨u, hu, rfl⟩⟩

theorem referential_sync {db : PanelDb} {id : ℕ} {role : UserRole} {a : User}
    (h : Referential db) (ha : (id, a) ∈ db.users.rows) :
    Referential (syncMembership db id role) := by
  unfold syncMembership
  split
  · exact h
  · split
    · exact referential_upsert h ha
    · exact referential_remove h

theorem referential_delete {db : PanelDb} {id : ℕ} (h : Referential db) :
    Referential (deleteWithMemberships db id) := by
  rintro m hm
  obtain ⟨hm, hne⟩ := Memberships.mem_delete.mp hm
  obtain ⟨u, hu⟩ := h m hm
  exact ⟨u, mem_deleteUser.mpr ⟨hu, by simpa using hne⟩⟩

/-! ## What each handler does

Each handler either writes nothing and reports no write, or makes the write its
guards have cleared. -/

/-- Nothing was written and the answer says so. -/
def Refused (db : PanelDb) (out : PanelDb × Answer) : Prop :=
  out.1 = db ∧ out.2.applied = false

theorem guarded_cases (db : PanelDb) (single_host : Bool) (page : PanelPage)
    (organization : String) (actor : ℕ) (ok : ℕ → Bool) (out : PanelDb × Answer) :
    Refused db (guarded db single_host page organization actor ok out) ∨
      (guarded db single_host page organization actor ok out = out ∧
        mounted single_host page organization = true ∧ ok 0 = true ∧
        membershipRole db actor organization = some .admin) := by
  unfold guarded
  by_cases hmounted : mounted single_host page organization = true
  · by_cases hok : ok 0 = true
    · by_cases hrole : membershipRole db actor organization = some .admin
      · right
        simp [hmounted, hok, hrole]
      · left
        simp [hmounted, hok, hrole, Refused, Answer.applied]
    · left
      simp [hmounted, hok, Refused, Answer.applied]
  · left
    simp [hmounted, Refused, Answer.applied]

theorem grantMember_cases (db : PanelDb) (o : ℕ) (username role path : String)
    (ok : ℕ → Bool) :
    Refused db (grantMember db o username role path ok) ∨
      ∃ u a r, ∃ hrole : UserRole.isEditor r = true,
        (UserRole.parse role).filter UserRole.isEditor = some r ∧
        findByUsername db.users username = some (u, a) ∧
        (r = .admin ∨ soloAdministrator db o u = false) ∧
        (grantMember db o username role path ok).1 =
          { db with memberships := db.memberships.upsert u o r hrole } := by
  unfold grantMember
  split
  · exact .inl ⟨rfl, rfl⟩
  · rename_i r hparse
    have hrole : r.isEditor = true := (Option.filter_eq_some_iff.mp hparse).2
    split
    · exact .inl ⟨rfl, rfl⟩
    split
    · exact .inl ⟨rfl, rfl⟩
    · rename_i u a hfind
      split
      · exact .inl ⟨rfl, rfl⟩
      split
      · exact .inl ⟨rfl, rfl⟩
      · rename_i hsolo
        split
        · exact .inl ⟨rfl, rfl⟩
        · right
          refine ⟨u, a, r, hrole, hparse, hfind, ?_, ?_⟩
          · by_cases hr : r = .admin
            · exact .inl hr
            · exact .inr (by simpa [hr] using hsolo)
          · simp [upsertMember, hrole]

theorem dropMember_cases (db : PanelDb) (o u : ℕ) (path : String) (ok : ℕ → Bool) :
    Refused db (dropMember db o u path ok) ∨
      (soloAdministrator db o u = false ∧
        (dropMember db o u path ok).1 = removeMember db o u) := by
  unfold dropMember
  split
  · exact .inl ⟨rfl, rfl⟩
  split
  · exact .inl ⟨rfl, rfl⟩
  · rename_i hsolo
    split
    · exact .inl ⟨rfl, rfl⟩
    · exact .inr ⟨by simpa using hsolo, rfl⟩

theorem onTenant_cases (db : PanelDb) (key : String) (ok : ℕ → Bool)
    (handler : ℕ → String → PanelDb × Answer) :
    Refused db (onTenant db key ok handler) ∨
      ∃ o org path, findOrganization db key = some (o, org) ∧
        onTenant db key ok handler = handler o path := by
  unfold onTenant
  split
  · exact .inl ⟨rfl, rfl⟩
  · rename_i o org hfind
    split
    · exact .inl ⟨rfl, rfl⟩
    · refine .inr ⟨o, org, _, ?_, rfl⟩
      by_cases hok : ok 1 = true
      · simpa [hok] using hfind
      · simp [hok] at hfind

theorem onTeam_cases (db : PanelDb) (organization : String) (ok : ℕ → Bool)
    (handler : ℕ → String → PanelDb × Answer) :
    Refused db (onTeam db organization ok handler) ∨
      ∃ o org path, findOrganization db organization = some (o, org) ∧
        onTeam db organization ok handler = handler o path := by
  unfold onTeam
  split
  · exact .inl ⟨rfl, rfl⟩
  · rename_i o org hfind
    refine .inr ⟨o, org, _, ?_, rfl⟩
    by_cases hok : ok 1 = true
    · simpa [hok] using hfind
    · simp [hok] at hfind

theorem deleteUnlessSolo_cases (db : PanelDb) (id : ℕ) (ok : ℕ → Bool) :
    Refused db (deleteUnlessSolo db id ok) ∨
      (soloAdministratedOrgs db id = [] ∧
        (deleteUnlessSolo db id ok).1 = deleteWithMemberships db id) := by
  unfold deleteUnlessSolo
  split
  · exact .inl ⟨rfl, rfl⟩
  split
  · exact .inl ⟨rfl, rfl⟩
  · rename_i hsolo
    split
    · exact .inl ⟨rfl, rfl⟩
    · exact .inr ⟨hsolo, rfl⟩

theorem deleteUserPage_cases (db : PanelDb) (actor id : ℕ) (ok : ℕ → Bool) :
    Refused db (deleteUserPage db actor id ok) ∨
      ∃ user, (id, user) ∈ db.users.rows ∧ id ≠ actor ∧
        (user.role = .admin → 2 ≤ countWithRole db.users .admin) ∧
        soloAdministratedOrgs db id = [] ∧
        (deleteUserPage db actor id ok).1 = deleteWithMemberships db id := by
  unfold deleteUserPage
  split
  · exact .inl ⟨rfl, rfl⟩
  · rename_i i user hfind
    obtain ⟨rfl, hmem⟩ := findById_some (by
      by_cases hok : ok 1 = true
      · simpa [hok] using hfind
      · simp [hok] at hfind)
    split
    · exact .inl ⟨rfl, rfl⟩
    · rename_i hself
      split
      · split
        · exact .inl ⟨rfl, rfl⟩
        split
        · exact .inl ⟨rfl, rfl⟩
        · rename_i hcount
          rcases deleteUnlessSolo_cases db i ok with h | ⟨hsolo, h⟩
          · exact .inl h
          · exact .inr ⟨user, hmem, hself, fun _ => by omega, hsolo, h⟩
      · rename_i hrole
        rcases deleteUnlessSolo_cases db i ok with h | ⟨hsolo, h⟩
        · exact .inl h
        · exact .inr ⟨user, hmem, hself, fun h => absurd h hrole, hsolo, h⟩

/-- The database after the mirror: as it is, or with the new password. -/
def AfterMirror (db db' : PanelDb) (id : ℕ) : Prop :=
  db' = db ∨ ∃ password_hash,
    db' = { db with users := updatePassword db.users id password_hash }

theorem AfterMirror.keeps {db db' : PanelDb} {id : ℕ} (h : AfterMirror db db' id) :
    Keeps db db' := by
  rcases h with rfl | ⟨password_hash, rfl⟩
  · exact .refl _
  · exact keeps_password id password_hash

theorem AfterMirror.referential {db db' : PanelDb} {id : ℕ}
    (h : AfterMirror db db' id) (hrefer : Referential db) : Referential db' := by
  rcases h with rfl | ⟨password_hash, rfl⟩
  · exact hrefer
  · exact referential_users hrefer

/-- The password changes no membership. -/
theorem AfterMirror.hasAdmin {db db' : PanelDb} {id o : ℕ}
    (h : AfterMirror db db' id) : HasAdmin db' o ↔ HasAdmin db o := by
  rcases h with rfl | ⟨password_hash, rfl⟩ <;> exact Iff.rfl

theorem updateRole_of_mem {db : PanelDb} {id : ℕ} {user : User} (role : UserRole)
    (ok : ℕ → Bool) (hmem : (id, user) ∈ db.users.rows) :
    updateRole db id role ok =
      if !ok 3 then (db, false)
      else if !ok 4 then (withRole db id role, false)
      else (syncMembership (withRole db id role) id role, true) := by
  have hone : (setRole db.users id role).2 = true := by
    have hid : ∀ i (u : User), (i == id) = true → i = id := by simp
    simp only [setRole, beq_iff_eq]
    exact (Table.count_id_eq_one hid).mpr ⟨user, hmem, by simp⟩
  simp only [updateRole, hone, Bool.not_true, Bool.false_eq_true, if_false]
  rfl

theorem updateUser_cases (hash : String → Option String) (min_password_len : ℕ)
    (db : PanelDb) (actor id : ℕ) (role password : String) (ok : ℕ → Bool) :
    Refused db (updateUser hash min_password_len db actor id role password ok) ∨
      ∃ user new_role hashed, findById db.users id = some (id, user) ∧ ok 1 = true ∧
        id ≠ actor ∧ UserRole.parse role = some new_role ∧
        newPassword hash min_password_len password = .ok hashed ∧
        (demotesAdmin user new_role = true →
          ok 2 = true ∧ 2 ≤ countWithRole db.users .admin) ∧ ok 3 = true ∧
        ((ok 4 = false ∧
          (updateUser hash min_password_len db actor id role password ok).1 =
            withRole db id new_role) ∨
        (ok 4 = true ∧
          AfterMirror (syncMembership (withRole db id new_role) id new_role)
            (updateUser hash min_password_len db actor id role password ok).1 id)) := by
  unfold updateUser
  split
  · exact .inl ⟨rfl, rfl⟩
  · rename_i i user hfind
    by_cases hok1 : ok 1 = true
    swap
    · simp [hok1] at hfind
    rw [if_pos hok1] at hfind
    obtain ⟨rfl, hmem⟩ := findById_some hfind
    split
    · exact .inl ⟨rfl, rfl⟩
    rename_i hself
    split
    · exact .inl ⟨rfl, rfl⟩
    rename_i new_role hparse
    split
    · exact .inl ⟨rfl, rfl⟩
    rename_i hashed hpass
    split
    · exact .inl ⟨rfl, rfl⟩
    rename_i hok2
    split
    · exact .inl ⟨rfl, rfl⟩
    rename_i hcount
    have hdemote : demotesAdmin user new_role = true →
        ok 2 = true ∧ 2 ≤ countWithRole db.users .admin := by
      intro hd
      simp only [hd, Bool.true_and, Bool.not_eq_true', Bool.not_eq_false,
        decide_eq_true_eq, not_le] at hok2 hcount
      exact ⟨hok2, by omega⟩
    rw [updateRole_of_mem new_role ok hmem]
    by_cases hok3 : ok 3 = true
    swap
    · simp only [hok3, Bool.not_false, if_true]
      exact .inl ⟨rfl, rfl⟩
    right
    refine ⟨user, new_role, hashed, hfind, hok1, hself, hparse, hpass, hdemote, hok3, ?_⟩
    by_cases hok4 : ok 4 = true
    · right
      refine ⟨hok4, ?_⟩
      simp only [hok3, hok4, Bool.not_true, Bool.false_eq_true, if_false]
      cases hashed with
      | none => exact .inl rfl
      | some password_hash =>
          by_cases hok5 : ok 5 = true
          · simp only [hok5, Bool.not_true, Bool.false_eq_true, if_false]
            exact .inr ⟨password_hash, rfl⟩
          · simp only [hok5, Bool.not_false, if_true]
            exact .inl rfl
    · left
      refine ⟨by simpa using hok4, ?_⟩
      simp [hok3, hok4]

/-! ## One request -/

/-- A write that keeps the law and the references. -/
def Safe (db : PanelDb) (out : PanelDb × Answer) : Prop :=
  Keeps db out.1 ∧ Referential out.1

theorem Refused.safe {db : PanelDb} {out : PanelDb × Answer} (h : Refused db out)
    (hrefer : Referential db) : Safe db out := by
  obtain ⟨hdb, _⟩ := h
  unfold Safe
  rw [hdb]
  exact ⟨.refl _, hrefer⟩

theorem guarded_safe {db : PanelDb} {single_host : Bool} {page : PanelPage}
    {organization : String} {actor : ℕ} {ok : ℕ → Bool} {out : PanelDb × Answer}
    (hrefer : Referential db) (h : Safe db out) :
    Safe db (guarded db single_host page organization actor ok out) := by
  rcases guarded_cases db single_host page organization actor ok out with
    hr | ⟨heq, _⟩
  · exact hr.safe hrefer
  · rw [heq]
    exact h

theorem grantMember_safe {db : PanelDb} (hrefer : Referential db) (o : ℕ)
    (username role path : String) (ok : ℕ → Bool) :
    Safe db (grantMember db o username role path ok) := by
  rcases grantMember_cases db o username role path ok with
    hr | ⟨u, a, r, hrole, _, hfind, hguard, hdb⟩
  · exact hr.safe hrefer
  · unfold Safe
    rw [hdb]
    exact ⟨keeps_grant hrefer hguard,
      referential_upsert hrefer (findByUsername_some hfind)⟩

theorem dropMember_safe {db : PanelDb} (hrefer : Referential db) (o u : ℕ)
    (path : String) (ok : ℕ → Bool) : Safe db (dropMember db o u path ok) := by
  rcases dropMember_cases db o u path ok with hr | ⟨hsolo, hdb⟩
  · exact hr.safe hrefer
  · unfold Safe
    rw [hdb]
    exact ⟨keeps_drop hrefer hsolo, referential_remove hrefer⟩

theorem onTenant_safe {db : PanelDb} (hrefer : Referential db) (key : String)
    (ok : ℕ → Bool) {handler : ℕ → String → PanelDb × Answer}
    (h : ∀ o path, Safe db (handler o path)) : Safe db (onTenant db key ok handler) := by
  rcases onTenant_cases db key ok handler with hr | ⟨o, _, path, _, heq⟩
  · exact hr.safe hrefer
  · rw [heq]
    exact h o path

theorem onTeam_safe {db : PanelDb} (hrefer : Referential db) (organization : String)
    (ok : ℕ → Bool) {handler : ℕ → String → PanelDb × Answer}
    (h : ∀ o path, Safe db (handler o path)) :
    Safe db (onTeam db organization ok handler) := by
  rcases onTeam_cases db organization ok handler with hr | ⟨o, _, path, _, heq⟩
  · exact hr.safe hrefer
  · rw [heq]
    exact h o path

theorem deleteUserPage_safe {db : PanelDb} (hrefer : Referential db) (actor id : ℕ)
    (ok : ℕ → Bool) : Safe db (deleteUserPage db actor id ok) := by
  rcases deleteUserPage_cases db actor id ok with
    hr | ⟨user, hmem, _, hcount, hsolo, hdb⟩
  · exact hr.safe hrefer
  · unfold Safe
    rw [hdb]
    exact ⟨keeps_delete hmem hcount hsolo, referential_delete hrefer⟩

section
variable {hash : String → Option String} {min_password_len : ℕ}

/-- Every request but a role change is safe, whoever makes it. -/
theorem servePanel_safe {db : PanelDb} (hrefer : Referential db) (single_host : Bool)
    (ok : ℕ → Bool) (q : PanelRequest)
    (hq : ∀ organization actor id role password,
      q ≠ .updateUser organization actor id role password) :
    Safe db (servePanel hash min_password_len single_host db ok q) := by
  cases q with
  | updateUser organization actor id role password => exact absurd rfl (hq _ _ _ _ _)
  | deleteUser organization actor id =>
      exact guarded_safe hrefer (deleteUserPage_safe hrefer actor id ok)
  | addTenantMember organization actor key username role =>
      exact guarded_safe hrefer (onTenant_safe hrefer key ok
        fun o path => grantMember_safe hrefer o username role path ok)
  | removeTenantMember organization actor key user_id =>
      exact guarded_safe hrefer (onTenant_safe hrefer key ok
        fun o path => dropMember_safe hrefer o user_id path ok)
  | addTeamMember organization actor username role =>
      exact guarded_safe hrefer (onTeam_safe hrefer organization ok
        fun o path => grantMember_safe hrefer o username role path ok)
  | removeTeamMember organization actor user_id =>
      exact guarded_safe hrefer (onTeam_safe hrefer organization ok
        fun o path => dropMember_safe hrefer o user_id path ok)

theorem unseats_iff {w : Panel} {ok : ℕ → Bool} {organization : String}
    {actor id : ℕ} {role password : String} :
    Unseats hash min_password_len w
        ⟨.updateUser organization actor id role password, ok⟩ = true ↔
      mounted w.single_host .users organization = true ∧ ok 0 = true ∧
        membershipRole w.db actor organization = some .admin ∧ ok 1 = true ∧
        ∃ user new_role hashed, findById w.db.users id = some (id, user) ∧
          UserRole.parse role = some new_role ∧
          newPassword hash min_password_len password = .ok hashed ∧ id ≠ actor ∧
          (demotesAdmin user new_role = true →
            ok 2 = true ∧ 2 ≤ countWithRole w.db.users .admin) ∧
          ok 3 = true ∧ ok 4 = true ∧ new_role ≠ .admin ∧ cmsSpared w.db id = false := by
  simp only [Unseats, Bool.and_eq_true, beq_iff_eq, and_assoc]
  refine and_congr_right fun _ => and_congr_right fun _ => and_congr_right fun _ =>
    and_congr_right fun _ => ?_
  cases hfind : findById w.db.users id with
  | none => simp
  | some found =>
      obtain ⟨i, user⟩ := found
      obtain ⟨rfl, _⟩ := findById_some hfind
      cases hparse : UserRole.parse role with
      | none => simp
      | some new_role =>
          cases hpass : newPassword hash min_password_len password with
          | error message => simp
          | ok hashed =>
              by_cases hd : demotesAdmin user new_role = true <;> simp [hd, and_assoc]

/-- With the guards passed and every statement working, the mirror is written. -/
theorem updateUser_writes {db : PanelDb} {actor id : ℕ} {role password : String}
    {ok : ℕ → Bool} {user : User} {new_role : UserRole} {hashed : Option String}
    (hfind : findById db.users id = some (id, user)) (hok1 : ok 1 = true)
    (hself : id ≠ actor) (hparse : UserRole.parse role = some new_role)
    (hpass : newPassword hash min_password_len password = .ok hashed)
    (hdemote : demotesAdmin user new_role = true →
      ok 2 = true ∧ 2 ≤ countWithRole db.users .admin)
    (hok3 : ok 3 = true) (hok4 : ok 4 = true) :
    AfterMirror (syncMembership (withRole db id new_role) id new_role)
      (updateUser hash min_password_len db actor id role password ok).1 id := by
  obtain ⟨_, hmem⟩ := findById_some hfind
  have hpass2 : (demotesAdmin user new_role && !ok 2) = false := by
    cases hd : demotesAdmin user new_role
    · rfl
    · simp [(hdemote hd).1]
  have hcount : (demotesAdmin user new_role &&
      decide (countWithRole db.users .admin ≤ 1)) = false := by
    cases hd : demotesAdmin user new_role
    · rfl
    · have := (hdemote hd).2
      simp only [Bool.true_and, decide_eq_false_iff_not]
      omega
  simp only [updateUser, hok1, if_true, hfind, hself, if_false, hparse, hpass, hpass2,
    hcount, Bool.false_eq_true, updateRole_of_mem new_role ok hmem, hok3, hok4,
    Bool.not_true]
  cases hashed with
  | none => exact .inl rfl
  | some password_hash =>
      by_cases hok5 : ok 5 = true
      · simp only [hok5, Bool.not_true, Bool.false_eq_true, if_false]
        exact .inr ⟨password_hash, rfl⟩
      · simp only [hok5, Bool.not_false, if_true]
        exact .inl rfl

/-- A role change that does not unseat the CMS is safe. -/
theorem servePanel_updateUser_safe {w : Panel} (hrefer : Referential w.db)
    {ok : ℕ → Bool} {organization : String} {actor id : ℕ} {role password : String}
    (h : Unseats hash min_password_len w
      ⟨.updateUser organization actor id role password, ok⟩ = false) :
    Safe w.db (servePanel hash min_password_len w.single_host w.db ok
      (.updateUser organization actor id role password)) := by
  simp only [servePanel]
  rcases guarded_cases w.db w.single_host .users organization actor ok
      (updateUser hash min_password_len w.db actor id role password ok) with
    hr | ⟨heq, hmounted, hok0, hadmin⟩
  · exact hr.safe hrefer
  rw [heq]
  rcases updateUser_cases hash min_password_len w.db actor id role password ok with
    hr | ⟨user, new_role, hashed, hfind, hok1, hself, hparse, hpass, hdemote, hok3, hout⟩
  · exact hr.safe hrefer
  obtain ⟨_, hmem⟩ := findById_some hfind
  have hcount := fun hd => (hdemote hd).2
  rcases hout with ⟨_, hdb⟩ | ⟨hok4, hafter⟩
  · unfold Safe
    rw [hdb]
    exact ⟨keeps_withRole hmem hcount, referential_users hrefer⟩
  · have hspared : new_role = .admin ∨ cmsSpared w.db id = true := by
      by_contra hno
      push Not at hno
      rw [← Bool.not_eq_true, unseats_iff] at h
      exact h ⟨hmounted, hok0, hadmin, hok1, user, new_role, hashed, hfind, hparse, hpass,
        hself, hdemote, hok3, hok4, hno.1, by simpa using hno.2⟩
    have hrefer' : Referential (withRole w.db id new_role) := referential_users hrefer
    exact ⟨(keeps_sync hmem hcount hspared).trans hafter.keeps,
      hafter.referential (referential_sync hrefer'
        (mem_setRole.mpr ⟨user, hmem, rfl⟩))⟩

/-- A role change that unseats the CMS leaves its organization without an
administrator. -/
theorem servePanel_unseats {w : Panel} (hrefer : Referential w.db) {l : PanelLabel}
    (h : Unseats hash min_password_len w l = true) :
    let out := servePanel hash min_password_len w.single_host w.db l.ok l.request
    Referential out.1 ∧ out.1.users.rows ≠ [] ∧ ∀ cms org,
      findOrganization out.1 cmsOrganizationKey = some (cms, org) →
        ¬ HasAdmin out.1 cms := by
  obtain ⟨q, ok⟩ := l
  cases q with
  | updateUser organization actor id role password =>
      obtain ⟨hmounted, hok0, hadmin, hok1, user, new_role, hashed, hfind, hparse, hpass,
        hself, hdemote, hok3, hok4, hrole, hspared⟩ := unseats_iff.mp h
      obtain ⟨_, hmem⟩ := findById_some hfind
      have hafter := updateUser_writes hfind hok1 hself hparse hpass hdemote hok3 hok4
      have hout : servePanel hash min_password_len w.single_host w.db ok
          (.updateUser organization actor id role password) =
          updateUser hash min_password_len w.db actor id role password ok := by
        simp [servePanel, guarded, hmounted, hok0, hadmin]
      simp only [hout]
      obtain ⟨horgs, husers⟩ := sync_frame (withRole w.db id new_role) id new_role
      have hthere : (id, { user with role := new_role }) ∈
          (withRole w.db id new_role).users.rows :=
        mem_setRole.mpr ⟨user, hmem, by simp⟩
      have hrefer' : Referential (withRole w.db id new_role) := referential_users hrefer
      refine ⟨hafter.referential (referential_sync hrefer' hthere), ?_, ?_⟩
      · obtain hsame | ⟨password_hash, hpw⟩ := hafter
        · rw [hsame, husers]
          exact List.ne_nil_of_mem hthere
        · rw [hpw]
          exact List.ne_nil_of_mem (Table.mem_update.mpr ⟨_, husers ▸ hthere, rfl⟩)
      · rintro cms org hcms hhas
        have hcms' : findOrganization w.db cmsOrganizationKey = some (cms, org) := by
          rw [← hcms]
          refine (findOrganization_congr ?_ _).symm
          obtain hsame | ⟨password_hash, hpw⟩ := hafter
          · rw [hsame, horgs]
            rfl
          · rw [hpw]
            exact horgs
        have hcms'' : findOrganization (withRole w.db id new_role) cmsOrganizationKey =
            some (cms, org) := hcms'
        have hkept := (hasAdmin_sync hcms'').mp (hafter.hasAdmin.mp hhas)
        rcases hkept with hr | hother
        · exact hrole hr
        · rw [(cmsSpared_iff hcms').mpr hother] at hspared
          cases hspared
  | _ => cases h

/-! ## Refusals -/

/-- Granting without the guard. -/
def plainGrant (db : PanelDb) (key username role : String) : PanelDb :=
  match findOrganization db key, (UserRole.parse role).filter UserRole.isEditor,
    findByUsername db.users username with
  | some (o, _), some r, some (u, _) => ((upsertMember db o u r).toOption).getD db
  | _, _, _ => db

/-- Removing without the guard. -/
def plainDrop (db : PanelDb) (key : String) (user_id : ℕ) : PanelDb :=
  match findOrganization db key with
  | some (o, _) => removeMember db o user_id
  | none => db

/-- The write a request asks for, no guard asked. -/
def plainWrite (db : PanelDb) : PanelRequest → PanelDb
  | .updateUser _ _ id role _ =>
      match UserRole.parse role with
      | some r => syncMembership (withRole db id r) id r
      | none => db
  | .deleteUser _ _ id => deleteWithMemberships db id
  | .addTenantMember _ _ key username role => plainGrant db key username role
  | .removeTenantMember _ _ key user_id => plainDrop db key user_id
  | .addTeamMember organization _ username role => plainGrant db organization username role
  | .removeTeamMember organization _ user_id => plainDrop db organization user_id

/-- On the Users page, the guard asks about the CMS organization. -/
def PanelRequest.onCms : PanelRequest → Prop
  | .updateUser organization _ _ _ _ => organization = cmsOrganizationKey
  | _ => True

theorem guarded_refused {db : PanelDb} {single_host : Bool} {page : PanelPage}
    {organization : String} {actor : ℕ} {ok : ℕ → Bool} {out : PanelDb × Answer}
    (h : Refused db out) : Refused db (guarded db single_host page organization actor ok out) := by
  rcases guarded_cases db single_host page organization actor ok out with hr | ⟨heq, _⟩
  · exact hr
  · rw [heq]
    exact h

theorem grant_refused_or_keeps {db : PanelDb} (hrefer : Referential db) {o : ℕ}
    {org : Organization} {key : String} (horg : findOrganization db key = some (o, org))
    (username role path : String) (ok : ℕ → Bool) :
    Refused db (grantMember db o username role path ok) ∨
      Keeps db (plainGrant db key username role) := by
  rcases grantMember_cases db o username role path ok with
    hr | ⟨u, a, r, hrole, hparse, hfind, hguard, _⟩
  · exact .inl hr
  · right
    simp only [plainGrant, horg, hparse, hfind, upsertMember, hrole, dif_pos,
      Except.toOption, Option.getD_some]
    exact keeps_grant hrefer hguard

theorem drop_refused_or_keeps {db : PanelDb} (hrefer : Referential db) {o : ℕ}
    {org : Organization} {key : String} (horg : findOrganization db key = some (o, org))
    (u : ℕ) (path : String) (ok : ℕ → Bool) :
    Refused db (dropMember db o u path ok) ∨ Keeps db (plainDrop db key u) := by
  rcases dropMember_cases db o u path ok with hr | ⟨hsolo, _⟩
  · exact .inl hr
  · right
    simp only [plainDrop, horg]
    exact keeps_drop hrefer hsolo

/-- The actor is an administrator the write leaves alone. -/
theorem cmsSpared_actor {db : PanelDb} {actor id : ℕ}
    (hadmin : membershipRole db actor cmsOrganizationKey = some .admin)
    (hself : id ≠ actor) : cmsSpared db id = true := by
  obtain ⟨o, org, horg, hm⟩ := membershipRole_some hadmin
  exact (cmsSpared_iff horg).mpr ⟨_, hm, rfl, rfl, hself.symm⟩

/-- **Refused or harmless**: a request whose plain write could break the law is
refused and changes nothing. -/
theorem servePanel_refused_or_keeps {db : PanelDb} (hrefer : Referential db)
    (single_host : Bool) (ok : ℕ → Bool) (q : PanelRequest) (hq : q.onCms) :
    Refused db (servePanel hash min_password_len single_host db ok q) ∨
      Keeps db (plainWrite db q) := by
  cases q with
  | updateUser organization actor id role password =>
      obtain rfl : organization = cmsOrganizationKey := hq
      rcases guarded_cases db single_host .users cmsOrganizationKey actor ok
          (updateUser hash min_password_len db actor id role password ok) with
        hr | ⟨heq, _, _, hadmin⟩
      · exact .inl hr
      simp only [servePanel, heq]
      rcases updateUser_cases hash min_password_len db actor id role password ok with
        hr | ⟨user, new_role, _, hfind, _, hself, hparse, _, hdemote, _, _⟩
      · exact .inl hr
      right
      -- the actor is the administrator who is left
      simp only [plainWrite, hparse]
      exact keeps_sync (findById_some hfind).2 (fun hd => (hdemote hd).2)
        (.inr (cmsSpared_actor hadmin hself))
  | deleteUser organization actor id =>
      rcases deleteUserPage_cases db actor id ok with
        hr | ⟨user, hmem, _, hcount, hsolo, _⟩
      · exact .inl (guarded_refused hr)
      · exact .inr (keeps_delete hmem hcount hsolo)
  | addTenantMember organization actor key username role =>
      rcases onTenant_cases db key ok (fun id path =>
          grantMember db id username role path ok) with hr | ⟨o, org, path, horg, heq⟩
      · exact .inl (guarded_refused hr)
      · rcases grant_refused_or_keeps hrefer horg username role path ok with hr | hk
        · exact .inl (guarded_refused (heq ▸ hr))
        · exact .inr hk
  | removeTenantMember organization actor key user_id =>
      rcases onTenant_cases db key ok (fun id path =>
          dropMember db id user_id path ok) with hr | ⟨o, org, path, horg, heq⟩
      · exact .inl (guarded_refused hr)
      · rcases drop_refused_or_keeps hrefer horg user_id path ok with hr | hk
        · exact .inl (guarded_refused (heq ▸ hr))
        · exact .inr hk
  | addTeamMember organization actor username role =>
      rcases onTeam_cases db organization ok (fun id path =>
          grantMember db id username role path ok) with hr | ⟨o, org, path, horg, heq⟩
      · exact .inl (guarded_refused hr)
      · rcases grant_refused_or_keeps hrefer horg username role path ok with hr | hk
        · exact .inl (guarded_refused (heq ▸ hr))
        · exact .inr hk
  | removeTeamMember organization actor user_id =>
      rcases onTeam_cases db organization ok (fun id path =>
          dropMember db id user_id path ok) with hr | ⟨o, org, path, horg, heq⟩
      · exact .inl (guarded_refused hr)
      · rcases drop_refused_or_keeps hrefer horg user_id path ok with hr | hk
        · exact .inl (guarded_refused (heq ▸ hr))
        · exact .inr hk

/-! ## Runs -/

theorem servePanel_safe_of_not_unseats {w : Panel} {l : PanelLabel}
    (hrefer : Referential w.db) (hu : Unseats hash min_password_len w l = false) :
    Safe w.db (servePanel hash min_password_len w.single_host w.db l.ok l.request) := by
  obtain ⟨q, ok⟩ := l
  by_cases hq : ∀ organization actor id role password,
      q ≠ .updateUser organization actor id role password
  · exact servePanel_safe hrefer _ _ _ hq
  · push Not at hq
    obtain ⟨organization, actor, id, role, password, rfl⟩ := hq
    exact servePanel_updateUser_safe hrefer hu

theorem referential_step {w w' : Panel} {l : PanelLabel} (hrefer : Referential w.db)
    (hs : panelStep hash min_password_len w l = some w') : Referential w'.db := by
  cases hs
  cases hu : Unseats hash min_password_len w l with
  | true => exact (servePanel_unseats hrefer hu).1
  | false => exact (servePanel_safe_of_not_unseats hrefer hu).2

/-- **The step lemma.** -/
theorem administered_step {w w' : Panel} {l : PanelLabel} (hrefer : Referential w.db)
    (h : Administered w) (hs : panelStep hash min_password_len w l = some w') :
    Administered w' ↔ Unseats hash min_password_len w l = false := by
  cases hs
  cases hu : Unseats hash min_password_len w l with
  | true =>
      obtain ⟨_, hne, hcms⟩ := servePanel_unseats hrefer hu
      refine iff_of_false (fun hadm => ?_) (by simp)
      obtain ⟨o, org, horg, hhas⟩ := hadm.cms hne
      exact hcms o org horg hhas
  | false =>
      exact iff_of_true (h.keeps (servePanel_safe_of_not_unseats hrefer hu).1) rfl

theorem panel_frame {w w' : Panel} {l : PanelLabel}
    (hs : panelStep hash min_password_len w l = some w') :
    w'.single_host = w.single_host := by
  cases hs
  rfl

/-- On a server booted with host bindings no request unseats the CMS. -/
theorem not_unseats {w : Panel} {l : PanelLabel} (hboot : w.single_host = false) :
    Unseats hash min_password_len w l = false := by
  obtain ⟨q, ok⟩ := l
  cases q with
  | updateUser organization actor id role password =>
      rw [← Bool.not_eq_true, unseats_iff]
      rintro ⟨hmounted, _, hadmin, _, user, new_role, hashed, _, _, _, hself, _, _, _, _,
        hspared⟩
      obtain rfl : organization = cmsOrganizationKey := by
        simpa [mounted, hboot] using hmounted
      rw [cmsSpared_actor hadmin hself] at hspared
      cases hspared
  | _ => rfl

/-- **The last administrator.** From any administered panel whose memberships
refer to accounts:
* every state of a run obeys the law exactly when no step unseats the CMS;
* on a server booted with host bindings every state does;
* in every state of the run, a request whose plain write would break the law is
  refused and changes nothing, as long as the Users page is guarded by the CMS
  organization. -/
theorem last_admin (single_host : Bool) (db : PanelDb) (labels : List PanelLabel)
    (hrefer : Referential db) (h : Administered (Panel.initial single_host db)) :
    (Throughout (panelStep hash min_password_len) Administered
        (Panel.initial single_host db) labels ↔
      EachStep (panelStep hash min_password_len)
        (fun w l => Unseats hash min_password_len w l = false)
        (Panel.initial single_host db) labels) ∧
    (single_host = false → Throughout (panelStep hash min_password_len) Administered
      (Panel.initial single_host db) labels) ∧
    ∀ pre w q ok, pre <+: labels → PanelRequest.onCms q →
      run (panelStep hash min_password_len) (Panel.initial single_host db) pre = some w →
      Administered w → ¬ Administered { w with
        db := plainWrite w.db q,
        governed := w.governed ++ adminOrgs (plainWrite w.db q) } →
      Refused w.db (servePanel hash min_password_len w.single_host w.db ok q) := by
  have hexact : Throughout (panelStep hash min_password_len) Administered
        (Panel.initial single_host db) labels ↔
      EachStep (panelStep hash min_password_len)
        (fun w l => Unseats hash min_password_len w l = false)
        (Panel.initial single_host db) labels :=
    throughout_iff_eachStep (panelStep hash min_password_len)
      (I := fun w => Referential w.db) (fun _ _ _ hi _ hs => referential_step hi hs)
      (fun _ _ _ hi hp hs => administered_step hi hp hs) hrefer h
  refine ⟨hexact, ?_, ?_⟩
  · rintro rfl
    refine hexact.mpr fun pre l w w' _ hrun _ => not_unseats ?_
    exact run_invariant (panelStep hash min_password_len)
      (I := fun w => w.single_host = false)
      (fun _ _ _ hi hs => (panel_frame hs).trans hi) rfl hrun
  · rintro pre w q ok _ hq hrun hadm hbreaks
    have hrefer' : Referential w.db := run_invariant (panelStep hash min_password_len)
      (I := fun w => Referential w.db) (fun _ _ _ hi hs => referential_step hi hs)
      hrefer hrun
    rcases servePanel_refused_or_keeps hrefer' w.single_host ok q hq with hr | hk
    · exact hr
    · exact absurd (hadm.keeps hk) hbreaks

end

/-! ## A server booted without bindings -/

def sampleUser (username : String) (role : UserRole) : User where
  username := username
  password_hash := "hash"
  role := role
  created_at := 0
  last_login_at := none

/-- The administrator `ada`, the account `bob`, and `eve`, who administers the
tenant `acme`. -/
def samplePanel : PanelDb where
  users :=
    { rows := [(1, sampleUser "ada" .admin), (2, sampleUser "bob" .user),
        (3, sampleUser "eve" .user)]
      seq := 3, ids_nodup := by decide, ids_le_seq := by decide }
  organizations :=
    { rows := [(1, ⟨"main", "Main", "public", 0⟩), (2, ⟨"cms", "CMS", "views", 0⟩),
        (3, ⟨"acme", "Acme", "acme", 0⟩)]
      seq := 3, ids_nodup := by decide, ids_le_seq := by decide }
  memberships :=
    { rows := [⟨1, 2, .admin⟩, ⟨3, 3, .admin⟩]
      pk_nodup := by decide, role_check := by decide }

theorem samplePanel_referential : Referential samplePanel := by
  rintro m hm
  simp only [samplePanel, List.mem_cons, List.not_mem_nil, or_false] at hm
  rcases hm with rfl | rfl
  · exact ⟨sampleUser "ada" .admin, by simp [samplePanel]⟩
  · exact ⟨sampleUser "eve" .user, by simp [samplePanel]⟩

theorem samplePanel_administered (single_host : Bool) :
    Administered (Panel.initial single_host samplePanel) := by
  constructor
  · rintro o ho _
    exact mem_adminOrgs.mp ho
  · rintro _
    exact ⟨1, sampleUser "ada" .admin, by simp [Panel.initial, samplePanel], rfl⟩
  · rintro _
    exact ⟨2, ⟨"cms", "CMS", "views", 0⟩, by cases single_host <;> decide,
      ⟨⟨1, 2, .admin⟩, by simp [Panel.initial, samplePanel], rfl, rfl⟩⟩

/-- `ada` promotes `bob`, and the mirror's statement fails; then `eve`, on her
tenant's host, takes the role from `ada`. -/
def sampleUnseating : List PanelLabel :=
  [⟨.updateUser "cms" 1 2 "admin" "", fun n => n != 4⟩,
    ⟨.updateUser "acme" 3 1 "user" "", fun _ => true⟩]

/-- The CMS organization has lost its last administrator. -/
theorem cms_unseated : Referential samplePanel ∧
    Administered (Panel.initial true samplePanel) ∧
    ¬ Throughout (panelStep (fun _ => none) 8) Administered
      (Panel.initial true samplePanel) sampleUnseating := by
  refine ⟨samplePanel_referential, samplePanel_administered true, fun hall => ?_⟩
  have hrun : (run (panelStep (fun _ => none) 8) (Panel.initial true samplePanel)
      sampleUnseating).any (fun w => !w.db.users.rows.isEmpty &&
        !(adminOrgs w.db).contains 2 &&
        findOrganization w.db "cms" == some (2, ⟨"cms", "CMS", "views", 0⟩)) = true := by
    decide +kernel
  obtain ⟨w, hw, hbad⟩ := (Option.any_eq_true _ _).mp hrun
  simp only [Bool.and_eq_true, Bool.not_eq_true', beq_iff_eq] at hbad
  obtain ⟨⟨hne, hnone⟩, hcms⟩ := hbad
  obtain ⟨o, org, horg, hhas⟩ := (hall _ w (List.prefix_refl _) hw).cms
    (by simpa using hne)
  rw [cmsOrganizationKey, hcms] at horg
  cases horg
  have := mem_adminOrgs.mpr hhas
  simp [this] at hnone

theorem last_admin_sample :
    (Throughout (panelStep (fun _ => none) 8) Administered
        (Panel.initial false samplePanel) sampleUnseating ↔
      EachStep (panelStep (fun _ => none) 8)
        (fun w l => Unseats (fun _ => none) 8 w l = false)
        (Panel.initial false samplePanel) sampleUnseating) ∧
    (false = false → Throughout (panelStep (fun _ => none) 8) Administered
      (Panel.initial false samplePanel) sampleUnseating) ∧
    ∀ pre w q ok, pre <+: sampleUnseating → PanelRequest.onCms q →
      run (panelStep (fun _ => none) 8) (Panel.initial false samplePanel) pre = some w →
      Administered w → ¬ Administered { w with
        db := plainWrite w.db q,
        governed := w.governed ++ adminOrgs (plainWrite w.db q) } →
      Refused w.db (servePanel (fun _ => none) 8 w.single_host w.db ok q) :=
  last_admin false samplePanel sampleUnseating samplePanel_referential
    (samplePanel_administered false)

end Wallermax.Accounts
