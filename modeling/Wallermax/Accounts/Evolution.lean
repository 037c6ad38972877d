import Wallermax.Accounts.Mirror

/-!
# What no write to the accounts changes

An id stays with its username from the insert to the delete and is never given out again,
and a membership never outlives its account. So whoever holds an id today is whoever held it
when it was read, or nobody.
-/

namespace Wallermax.Accounts

open Wallermax.Base

/-- A write to the accounts: one of the calls of the repository, a request of the account
pages, or the stamp of a sign-in. -/
inductive AccountWrite : Type where
  | call (c : AccountCall)
  | panel (single_host : Bool) (label : PanelLabel)
  | stamp (id : ℕ) (now : ℤ) (ok : Bool)

/-- `record_login`: `UPDATE users SET last_login_at = ? WHERE id = ?`. -/
def recordLogin (users : Users) (id : ℕ) (now : ℤ) : Users :=
  users.update (fun i _ => i == id) fun u => { u with last_login_at := some now }

def AccountCall.write (db : PanelDb) : AccountCall → PanelDb
  | .boot main_root cms_root now ok => (bootAccounts db main_root cms_root now ok).1
  | .create username password_hash role now ok =>
      (createAccount db username password_hash role now ok).1
  | .updateRole id role ok => (setAccountRole db id role ok).1
  | .delete id ok => (deleteAccount db id ok).1

section
variable (hash : String → Option String) (min_password_len : ℕ)

def AccountWrite.apply (db : PanelDb) : AccountWrite → PanelDb
  | .call c => c.write db
  | .panel single_host label =>
      (servePanel hash min_password_len single_host db label.ok label.request).1
  | .stamp id now ok => if ok then { db with users := recordLogin db.users id now } else db

end

/-! ## What stays -/

/-- The later tables know every account of the earlier ones under its name or not at all. -/
structure Evolves (db db' : PanelDb) : Prop where
  seq_le : db.users.seq ≤ db'.users.seq
  known : ∀ i user', (i, user') ∈ db'.users.rows → i ≤ db.users.seq →
    ∃ user, (i, user) ∈ db.users.rows ∧ user.username = user'.username
  referential : Referential db → Referential db'

theorem Evolves.refl (db : PanelDb) : Evolves db db :=
  ⟨Nat.le_refl _, fun _ user' h _ => ⟨user', h, rfl⟩, id⟩

theorem Evolves.trans {a b c : PanelDb} (hab : Evolves a b) (hbc : Evolves b c) : Evolves a c := by
  refine ⟨hab.seq_le.trans hbc.seq_le, ?_, hbc.referential ∘ hab.referential⟩
  intro i user hi hle
  obtain ⟨user', hi', hname'⟩ := hbc.known i user hi (hle.trans hab.seq_le)
  obtain ⟨user'', hi'', hname''⟩ := hab.known i user' hi' hle
  exact ⟨user'', hi'', hname''.trans hname'⟩

/-- **The same person**: an account and an account read before have one name if they have
one id. -/
theorem Evolves.username_eq {db db' : PanelDb} (h : Evolves db db') {i : ℕ} {user user' : User}
    (hi : (i, user) ∈ db.users.rows) (hi' : (i, user') ∈ db'.users.rows) :
    user.username = user'.username := by
  obtain ⟨user'', hi'', hname⟩ := h.known i user' hi' (db.users.ids_le_seq _ hi)
  have hfound := findById_of_mem hi
  rw [findById_of_mem hi''] at hfound
  cases hfound
  exact hname

/-! ## Statement by statement -/

section

variable {db : PanelDb}

theorem evolves_update {p : ℕ → User → Bool} {f : User → User}
    (hname : ∀ user, (f user).username = user.username) :
    Evolves db { db with users := db.users.update p f } := by
  refine ⟨Nat.le_refl _, ?_, referential_users⟩
  intro i user' hi _
  obtain ⟨user, hmem, rfl⟩ := Table.mem_update.mp hi
  refine ⟨user, hmem, ?_⟩
  split
  · exact (hname user).symm
  · rfl

theorem evolves_insert {username password_hash : String} {role : UserRole} {now : ℤ}
    {users : Users} {id : ℕ}
    (h : insertUser db.users username password_hash role now = .ok (users, id)) :
    Evolves db { db with users := users } ∧ ∃ user, (id, user) ∈ users.rows := by
  have hmem := mem_insertUser h
  unfold insertUser at h
  split at h
  · cases h
  · cases h
    refine ⟨⟨Nat.le_succ _, ?_, ?_⟩, _, (hmem _).mpr (.inr rfl)⟩
    · intro i user' hi hle
      rcases (hmem (i, user')).mp hi with hi | hi
      · exact ⟨user', hi, rfl⟩
      · obtain ⟨rfl, _⟩ := Prod.mk.inj hi
        exact absurd hle (Nat.not_succ_le_self _)
    · intro hrefer m hm
      obtain ⟨user, hu⟩ := hrefer m hm
      exact ⟨user, (hmem _).mpr (.inl hu)⟩

/-- A write to other tables that leaves the references in place. -/
theorem evolves_of_users {db' : PanelDb} (husers : db'.users = db.users)
    (hrefer : Referential db → Referential db') : Evolves db db' := by
  refine ⟨Nat.le_of_eq (by rw [husers]), ?_, hrefer⟩
  intro i user' hi _
  exact ⟨user', husers ▸ hi, rfl⟩

theorem users_syncMembership (id : ℕ) (role : UserRole) :
    (syncMembership db id role).users = db.users := by
  unfold syncMembership
  split
  · rfl
  · split <;> rfl

theorem evolves_sync {id : ℕ} {role : UserRole} {user : User}
    (hmem : (id, user) ∈ db.users.rows) : Evolves db (syncMembership db id role) :=
  evolves_of_users (users_syncMembership id role) fun hrefer => referential_sync hrefer hmem

theorem evolves_delete (id : ℕ) : Evolves db (deleteWithMemberships db id) := by
  refine ⟨Nat.le_refl _, ?_, referential_delete⟩
  intro i user' hi _
  exact ⟨user', (mem_deleteUser.mp hi).1, rfl⟩

theorem evolves_setRole (id : ℕ) (role : UserRole) :
    Evolves db { db with users := (setRole db.users id role).1 } :=
  evolves_update (p := fun i _ => i == id) (f := fun user => { user with role := role })
    fun _ => rfl

/-! ## Call by call -/

theorem evolves_createAccount (username password_hash : String) (role : UserRole) (now : ℤ)
    (ok : ℕ → Bool) : Evolves db (createAccount db username password_hash role now ok).1 := by
  rcases createAccount_cases db username password_hash role now ok with
    ⟨hsame, _⟩ | ⟨users, hinsert, _, hdb⟩
  · rw [hsame]
    exact .refl db
  · rw [hdb]
    obtain ⟨hevolves, user, hmem⟩ := evolves_insert hinsert
    cases ok 1 with
    | true => exact hevolves.trans (evolves_sync hmem)
    | false => exact hevolves

theorem evolves_setAccountRole (id : ℕ) (role : UserRole) (ok : ℕ → Bool) :
    Evolves db (setAccountRole db id role ok).1 := by
  have hrole : Evolves db { db with users := (setRole db.users id role).1 } :=
    evolves_setRole id role
  unfold setAccountRole
  cases ok 0 with
  | false => exact .refl db
  | true =>
      cases haffected : (setRole db.users id role).2 with
      | false => simpa [haffected] using hrole
      | true =>
          obtain ⟨user, hmem⟩ := setRole_affected.mp haffected
          have hmem' : (id, { user with role := role }) ∈ (setRole db.users id role).1.rows :=
            mem_setRole.mpr ⟨user, hmem, if_pos rfl⟩
          cases ok 1 with
          | false => simpa [haffected] using hrole
          | true => simpa [haffected] using hrole.trans (evolves_sync hmem')

theorem evolves_deleteAccount (id : ℕ) (ok : ℕ → Bool) : Evolves db (deleteAccount db id ok).1 := by
  rcases deleteAccount_cases db id ok with ⟨e, hfailed⟩ | hdone
  · rw [hfailed]
    exact .refl db
  · rw [hdone]
    exact evolves_delete id

theorem evolves_seed (key name document_root : String) (now : ℤ) :
    Evolves db (seedOrganization db key name document_root now) :=
  evolves_of_users rfl id

theorem referential_upsertEditor {users : Users} {cms : ℕ} {memberships : Memberships}
    {rows : List (ℕ × User)} (hrows : ∀ r ∈ rows, r ∈ users.rows)
    (h : ∀ m ∈ memberships.rows, ∃ u, (m.user_id, u) ∈ users.rows) :
    ∀ m ∈ (rows.foldl (upsertEditor cms) memberships).rows,
      ∃ u, (m.user_id, u) ∈ users.rows := by
  induction rows generalizing memberships with
  | nil => exact h
  | cons r rows ih =>
      rw [List.foldl_cons]
      refine ih (fun q hq => hrows q (List.mem_cons_of_mem _ hq)) ?_
      intro m hm
      unfold upsertEditor at hm
      split at hm
      · rename_i hrole
        rcases (Memberships.mem_upsert hrole).mp hm with ⟨hm, _⟩ | rfl
        · exact h m hm
        · exact ⟨r.2, hrows r List.mem_cons_self⟩
      · exact h m hm

theorem evolves_mirrorEditors : Evolves db (mirrorEditors db) := by
  unfold mirrorEditors
  split
  · exact .refl db
  · refine evolves_of_users rfl fun hrefer => ?_
    exact referential_upsertEditor (fun _ hr => hr) hrefer

theorem evolves_pruneMirror : Evolves db (pruneMirror db) := by
  unfold pruneMirror
  split
  · exact .refl db
  · exact evolves_of_users rfl fun hrefer m hm => hrefer m (Memberships.mem_delete.mp hm).1

theorem evolves_bootAccounts (main_root cms_root : String) (now : ℤ) (ok : ℕ → Bool) :
    Evolves db (bootAccounts db main_root cms_root now ok).1 := by
  have hmain : Evolves db (seedOrganization db mainOrganizationKey "Main site" main_root now) :=
    evolves_seed mainOrganizationKey "Main site" main_root now
  have hcms := hmain.trans (evolves_seed cmsOrganizationKey "CMS" cms_root now)
  have hmirror := hcms.trans evolves_mirrorEditors
  have hprune := hmirror.trans evolves_pruneMirror
  unfold bootAccounts
  cases ok 0 with
  | false => exact .refl db
  | true =>
      cases ok 1 with
      | false => exact hmain
      | true =>
          cases ok 2 with
          | false => exact hcms
          | true =>
              cases ok 3 with
              | false => exact hmirror
              | true => exact hprune

/-! ## Request by request -/

theorem Refused.evolves {out : PanelDb × Answer} (h : Refused db out) : Evolves db out.1 := by
  rw [h.1]
  exact .refl db

theorem evolves_guarded {single_host : Bool} {page : PanelPage} {organization : String}
    {actor : ℕ} {ok : ℕ → Bool} {out : PanelDb × Answer} (h : Evolves db out.1) :
    Evolves db (guarded db single_host page organization actor ok out).1 := by
  rcases guarded_cases db single_host page organization actor ok out with hr | ⟨heq, _⟩
  · exact hr.evolves
  · rw [heq]
    exact h

theorem evolves_grantMember (o : ℕ) (username role path : String) (ok : ℕ → Bool) :
    Evolves db (grantMember db o username role path ok).1 := by
  rcases grantMember_cases db o username role path ok with
    hr | ⟨u, a, r, hrole, _, hfind, _, hdb⟩
  · exact hr.evolves
  · rw [hdb]
    exact evolves_of_users rfl fun hrefer =>
      referential_upsert hrefer (findByUsername_some hfind)

theorem evolves_dropMember (o u : ℕ) (path : String) (ok : ℕ → Bool) :
    Evolves db (dropMember db o u path ok).1 := by
  rcases dropMember_cases db o u path ok with hr | ⟨_, hdb⟩
  · exact hr.evolves
  · rw [hdb]
    exact evolves_of_users rfl referential_remove

theorem evolves_onTenant (key : String) (ok : ℕ → Bool) {handler : ℕ → String → PanelDb × Answer}
    (h : ∀ o path, Evolves db (handler o path).1) : Evolves db (onTenant db key ok handler).1 := by
  rcases onTenant_cases db key ok handler with hr | ⟨o, _, path, _, heq⟩
  · exact hr.evolves
  · rw [heq]
    exact h o path

theorem evolves_onTeam (organization : String) (ok : ℕ → Bool)
    {handler : ℕ → String → PanelDb × Answer}
    (h : ∀ o path, Evolves db (handler o path).1) :
    Evolves db (onTeam db organization ok handler).1 := by
  rcases onTeam_cases db organization ok handler with hr | ⟨o, _, path, _, heq⟩
  · exact hr.evolves
  · rw [heq]
    exact h o path

theorem evolves_deleteUserPage (actor id : ℕ) (ok : ℕ → Bool) :
    Evolves db (deleteUserPage db actor id ok).1 := by
  rcases deleteUserPage_cases db actor id ok with hr | ⟨_, _, _, _, _, hdb⟩
  · exact hr.evolves
  · rw [hdb]
    exact evolves_delete id

theorem AfterMirror.evolves {db' : PanelDb} {id : ℕ} (h : AfterMirror db db' id) :
    Evolves db db' := by
  rcases h with rfl | ⟨password_hash, rfl⟩
  · exact .refl _
  · exact evolves_update (f := fun user => { user with password_hash := password_hash })
      fun _ => rfl

theorem evolves_updateUser (hash : String → Option String) (min_password_len actor id : ℕ)
    (role password : String) (ok : ℕ → Bool) :
    Evolves db (updateUser hash min_password_len db actor id role password ok).1 := by
  rcases updateUser_cases hash min_password_len db actor id role password ok with
    hr | ⟨user, new_role, _, hfind, _, _, _, _, _, _, hdb⟩
  · exact hr.evolves
  · have hrole : Evolves db { db with users := (setRole db.users id new_role).1 } :=
      evolves_setRole id new_role
    have hmem : (id, { user with role := new_role }) ∈ (setRole db.users id new_role).1.rows :=
      mem_setRole.mpr ⟨user, (findById_some hfind).2, if_pos rfl⟩
    rcases hdb with ⟨_, hdb⟩ | ⟨_, hafter⟩
    · rw [hdb]
      exact hrole
    · exact (hrole.trans (evolves_sync hmem)).trans hafter.evolves

theorem evolves_servePanel (hash : String → Option String) (min_password_len : ℕ)
    (single_host : Bool) (ok : ℕ → Bool) (request : PanelRequest) :
    Evolves db (servePanel hash min_password_len single_host db ok request).1 := by
  cases request with
  | updateUser organization actor id role password =>
      exact evolves_guarded (evolves_updateUser hash min_password_len actor id role password ok)
  | deleteUser organization actor id => exact evolves_guarded (evolves_deleteUserPage actor id ok)
  | addTenantMember organization actor key username role =>
      exact evolves_guarded (evolves_onTenant key ok fun o path =>
        evolves_grantMember o username role path ok)
  | removeTenantMember organization actor key user_id =>
      exact evolves_guarded (evolves_onTenant key ok fun o path =>
        evolves_dropMember o user_id path ok)
  | addTeamMember organization actor username role =>
      exact evolves_guarded (evolves_onTeam organization ok fun o path =>
        evolves_grantMember o username role path ok)
  | removeTeamMember organization actor user_id =>
      exact evolves_guarded (evolves_onTeam organization ok fun o path =>
        evolves_dropMember o user_id path ok)

/-- **Every write** leaves the accounts who they were. -/
theorem evolves_apply (hash : String → Option String) (min_password_len : ℕ)
    (write : AccountWrite) : Evolves db (write.apply hash min_password_len db) := by
  cases write with
  | call c =>
      cases c with
      | boot main_root cms_root now ok => exact evolves_bootAccounts main_root cms_root now ok
      | create username password_hash role now ok =>
          exact evolves_createAccount username password_hash role now ok
      | updateRole id role ok => exact evolves_setAccountRole id role ok
      | delete id ok => exact evolves_deleteAccount id ok
  | panel single_host label =>
      exact evolves_servePanel hash min_password_len single_host label.ok label.request
  | stamp id now ok =>
      cases ok with
      | true =>
          exact evolves_update (p := fun i _ => i == id)
            (f := fun user => { user with last_login_at := some now }) fun _ => rfl
      | false => exact .refl db

end

end Wallermax.Accounts
