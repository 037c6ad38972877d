import Wallermax.Accounts.LastAdmin
import Wallermax.Base.Runs

/-!
# Account writes and the membership mirror

`create`, `update_role` and `delete` of `SqliteUserRepository` statement by
statement. Any statement can fail, and the call stops there: `ok n` says whether
the `n`-th one succeeds. `create` and `update_role` write the account and its
mirror one after the other, and what a failed mirror leaves behind is healed by
the startup mirror; `delete` has both in one transaction.
-/

namespace Wallermax.Accounts

open Wallermax.Base

/-- `create`: the account, then its mirror. -/
def createAccount (db : PanelDb) (username password_hash : String) (role : UserRole)
    (now : ℤ) (ok : ℕ → Bool) : PanelDb × Except RepositoryError ℕ :=
  if !ok 0 then (db, .error .internal)
  else match insertUser db.users username password_hash role now with
  | .error e => (db, .error e)
  | .ok (users, id) =>
      let db := { db with users := users }
      if !ok 1 then (db, .error .internal)
      else (syncMembership db id role, .ok id)

/-- `update_role`: the account, then its mirror. -/
def setAccountRole (db : PanelDb) (id : ℕ) (role : UserRole) (ok : ℕ → Bool) :
    PanelDb × Except RepositoryError Unit :=
  if !ok 0 then (db, .error .internal)
  else
    let (users, affected) := setRole db.users id role
    let db := { db with users := users }
    -- without a row there is nothing to mirror
    if !affected then (db, .ok ())
    else if !ok 1 then (db, .error .internal)
    else (syncMembership db id role, .ok ())

/-- `delete`: `BEGIN`, the memberships, the account, `COMMIT`. A statement that
fails drops the transaction, which rolls back. -/
def deleteAccount (db : PanelDb) (id : ℕ) (ok : ℕ → Bool) :
    PanelDb × Except RepositoryError Unit :=
  if !ok 0 then (db, .error .internal)
  else
    let work := { db with memberships := db.memberships.delete fun m => m.user_id == id }
    if !ok 1 then (db, .error .internal)
    else
      let work := { work with users := deleteUser work.users id }
      if !ok 2 then (db, .error .internal)
      else if !ok 3 then (db, .error .internal)
      else (work, .ok ())

/-- The role change of the account pages is `update_role` under their count of
the statements. -/
theorem updateRole_eq_setAccountRole (db : PanelDb) (id : ℕ) (role : UserRole)
    (ok : ℕ → Bool) :
    updateRole db id role ok =
      ((setAccountRole db id role fun n => ok (n + 3)).1,
        (setAccountRole db id role fun n => ok (n + 3)).2.isOk) := by
  cases h3 : ok 3 with
  | false => simp [updateRole, setAccountRole, h3, Except.isOk, Except.toBool]
  | true =>
      cases hrow : (setRole db.users id role).2 with
      | false => simp [updateRole, setAccountRole, h3, hrow, Except.isOk, Except.toBool]
      | true =>
          cases h4 : ok 4 with
          | false => simp [updateRole, setAccountRole, h3, hrow, h4, Except.isOk, Except.toBool]
          | true => simp [updateRole, setAccountRole, h3, hrow, h4, Except.isOk, Except.toBool]

/-! ## Startup -/

/-- One upsert of `seed_organizations`. -/
def seedOrganization (db : PanelDb) (key name document_root : String) (now : ℤ) : PanelDb :=
  { db with
    organizations :=
      match findOrganization db key with
      | none => db.organizations.insert ⟨key, name, document_root, now⟩
      | some _ => db.organizations.update (fun _ o => o.key == key) fun o =>
          { o with
            name := name
            document_root := document_root } }

/-- An editor's row of the `INSERT … SELECT`. -/
def upsertEditor (cms : ℕ) (memberships : Memberships) (r : ℕ × User) : Memberships :=
  if hrole : r.2.role.isEditor = true then memberships.upsert r.1 cms r.2.role hrole
  else memberships

/-- The first statement of `mirror_cms_memberships`. -/
def mirrorEditors (db : PanelDb) : PanelDb :=
  match findOrganization db cmsOrganizationKey with
  | none => db
  | some (cms, _) =>
      { db with
        memberships := db.users.rows.foldl (upsertEditor cms) db.memberships }

/-- Its second statement. -/
def pruneMirror (db : PanelDb) : PanelDb :=
  match findOrganization db cmsOrganizationKey with
  | none => db
  | some (cms, _) =>
      { db with
        memberships := db.memberships.delete fun m =>
          m.organization_id == cms &&
            !db.users.rows.any fun r => r.1 == m.user_id && r.2.role.isEditor }

/-- The statements of a start that write these tables; it gives up at the first
one that fails. -/
def bootAccounts (db : PanelDb) (main_root cms_root : String) (now : ℤ) (ok : ℕ → Bool) :
    PanelDb × Bool :=
  if !ok 0 then (db, false)
  else
    let db := seedOrganization db mainOrganizationKey "Main site" main_root now
    if !ok 1 then (db, false)
    else
      let db := seedOrganization db cmsOrganizationKey "CMS" cms_root now
      if !ok 2 then (db, false)
      else
        let db := mirrorEditors db
        if !ok 3 then (db, false)
        else (pruneMirror db, true)

/-! ## Runs -/

inductive AccountCall : Type where
  | boot (main_root cms_root : String) (now : ℤ) (ok : ℕ → Bool)
  | create (username password_hash : String) (role : UserRole) (now : ℤ) (ok : ℕ → Bool)
  | updateRole (id : ℕ) (role : UserRole) (ok : ℕ → Bool)
  | delete (id : ℕ) (ok : ℕ → Bool)

/-- The tables, whether a server runs on them, and the accounts whose last write
stopped before its mirror. -/
structure AccountState : Type where
  db : PanelDb
  running : Bool
  unmirrored : ℕ → Bool

/-- The accounts once a call has written this one, or has not; `mirrored` tells
whether it came to the mirror's statement and that one succeeded. -/
def AccountState.mark (s : AccountState) (written : Bool) (id : ℕ) (mirrored : Bool) :
    ℕ → Bool :=
  if written then Function.update s.unmirrored id !mirrored else s.unmirrored

/-- The accounts are served after a start that completes. -/
def accountStep (s : AccountState) : AccountCall → Option AccountState
  | .boot main_root cms_root now ok =>
      let (db, running) := bootAccounts s.db main_root cms_root now ok
      some
        { db := db
          running := running
          unmirrored := fun i => !running && s.unmirrored i }
  | .create username password_hash role now ok =>
      let inserted := (insertUser s.db.users username password_hash role now).isOk
      if s.running then some { s with
        db := (createAccount s.db username password_hash role now ok).1
        unmirrored := s.mark (ok 0 && inserted) s.db.users.nextId (ok 1) }
      else none
  | .updateRole id role ok =>
      if s.running then some { s with
        db := (setAccountRole s.db id role ok).1
        unmirrored := s.mark (ok 0 && (setRole s.db.users id role).2) id (ok 1) }
      else none
  | .delete id ok =>
      if s.running then some { s with
        db := (deleteAccount s.db id ok).1
        unmirrored := s.mark (deleteAccount s.db id ok).2.isOk id true }
      else none

/-! ## The mirror of one account -/

/-- The account has a membership of the CMS organization with a role exactly
when that is its platform role and an editor's. -/
def MirroredAt (db : PanelDb) (i : ℕ) : Prop :=
  ∀ role, membershipRole db i cmsOrganizationKey = some role ↔
    ∃ u, (i, u) ∈ db.users.rows ∧ u.role = role ∧ role.isEditor = true

section Mirror

variable {db : PanelDb} {cms id i : ℕ} {org : Organization} {role : UserRole}

theorem membershipRole_eq_some (horg : findOrganization db cmsOrganizationKey = some (cms, org)) :
    membershipRole db i cmsOrganizationKey = some role ↔
      ⟨i, cms, role⟩ ∈ db.memberships.rows := by
  constructor
  · intro h
    obtain ⟨o, _, horg', hmem⟩ := membershipRole_some h
    rw [horg] at horg'
    cases horg'
    exact hmem
  · intro hmem
    have hfind : db.memberships.rows.find? (fun m => m.user_id == i &&
        m.organization_id == cms) = some ⟨i, cms, role⟩ := by
      cases hfind : db.memberships.rows.find? fun m => m.user_id == i &&
          m.organization_id == cms with
      | none =>
          have := List.find?_eq_none.mp hfind _ hmem
          simp at this
      | some m =>
          have hpk : m.user_id = i ∧ m.organization_id = cms := by
            simpa using List.find?_some hfind
          have heq : m.pk = Membership.pk ⟨i, cms, role⟩ := by
            simp [Membership.pk, hpk]
          rw [List.inj_on_of_nodup_map db.memberships.pk_nodup
            (List.mem_of_find?_eq_some hfind) hmem heq]
    simp [membershipRole, horg, hfind]

theorem mirroredAt_iff (horg : findOrganization db cmsOrganizationKey = some (cms, org)) :
    MirroredAt db i ↔ ∀ role, ⟨i, cms, role⟩ ∈ db.memberships.rows ↔
      ∃ u, (i, u) ∈ db.users.rows ∧ u.role = role ∧ role.isEditor = true := by
  constructor
  · intro h role
    rw [← membershipRole_eq_some horg]
    exact h role
  · intro h role
    rw [membershipRole_eq_some horg]
    exact h role

theorem mem_syncMembership {m : Membership}
    (horg : findOrganization db cmsOrganizationKey = some (cms, org)) :
    m ∈ (syncMembership db id role).memberships.rows ↔
      (m ∈ db.memberships.rows ∧ ¬ (m.user_id = id ∧ m.organization_id = cms)) ∨
        (role.isEditor = true ∧ m = ⟨id, cms, role⟩) := by
  simp only [syncMembership, horg]
  split
  · rename_i hrole
    simp [Memberships.mem_upsert, hrole]
  · rename_i hrole
    have hrole : role.isEditor = false := by simpa using hrole
    simp only [removeMember, Memberships.mem_delete, hrole, Bool.false_eq_true, false_and,
      or_false]
    rw [and_comm (a := m.user_id = id)]
    simp

/-- **The mirror's statement** mirrors the account it is about. -/
theorem mirroredAt_sync (horg : findOrganization db cmsOrganizationKey = some (cms, org))
    {u : User} (hu : (id, u) ∈ db.users.rows) (hrole : u.role = role) :
    MirroredAt (syncMembership db id role) id := by
  obtain ⟨horgs, husers⟩ := sync_frame db id role
  have horg' : findOrganization (syncMembership db id role) cmsOrganizationKey =
      some (cms, org) := by
    rw [findOrganization, horgs]
    exact horg
  rw [mirroredAt_iff horg', husers]
  intro r
  rw [mem_syncMembership horg]
  constructor
  · rintro (⟨_, hne⟩ | ⟨heditor, heq⟩)
    · exact absurd ⟨rfl, rfl⟩ hne
    · cases heq
      exact ⟨u, hu, hrole, heditor⟩
  · rintro ⟨w, hw, rfl, heditor⟩
    obtain rfl := Table.eq_of_mem hu hw
    subst hrole
    exact .inr ⟨heditor, rfl⟩

/-- It leaves the mirrors of the other accounts as they are. -/
theorem mirroredAt_sync_other (horg : findOrganization db cmsOrganizationKey = some (cms, org))
    (hi : i ≠ id) (h : MirroredAt db i) : MirroredAt (syncMembership db id role) i := by
  obtain ⟨horgs, husers⟩ := sync_frame db id role
  have horg' : findOrganization (syncMembership db id role) cmsOrganizationKey =
      some (cms, org) := by
    rw [findOrganization, horgs]
    exact horg
  rw [mirroredAt_iff horg', husers]
  intro r
  rw [mem_syncMembership horg, ← (mirroredAt_iff horg).mp h r]
  simp [hi]

/-- An account write that leaves the memberships alone keeps the mirrors of the
accounts it leaves alone. -/
theorem MirroredAt.of_users {db' : PanelDb} (h : MirroredAt db i)
    (horgs : db'.organizations = db.organizations)
    (hmemberships : db'.memberships = db.memberships)
    (husers : ∀ u, (i, u) ∈ db'.users.rows ↔ (i, u) ∈ db.users.rows) : MirroredAt db' i := by
  intro role
  have hrole : membershipRole db' i cmsOrganizationKey =
      membershipRole db i cmsOrganizationKey := by
    simp only [membershipRole, findOrganization, horgs, hmemberships]
  rw [hrole, h role]
  simp only [husers]

/-- The memberships after the accounts were mirrored one by one. -/
theorem mem_mirrorEditors {rows : List (ℕ × User)} (hnodup : (rows.map Prod.fst).Nodup)
    (memberships : Memberships) :
    ⟨i, cms, role⟩ ∈ (rows.foldl (upsertEditor cms) memberships).rows ↔
      (∃ u, (i, u) ∈ rows ∧ u.role = role ∧ role.isEditor = true) ∨
        (⟨i, cms, role⟩ ∈ memberships.rows ∧
          ∀ u, (i, u) ∈ rows → u.role.isEditor = false) := by
  induction rows using List.reverseRecOn with
  | nil => simp
  | append_singleton rows r ih =>
      obtain ⟨j, w⟩ := r
      rw [List.map_append, List.nodup_append] at hnodup
      obtain ⟨hrows, _, hfresh⟩ := hnodup
      have hnew : ∀ u, (j, u) ∉ rows := by
        intro u hu
        exact hfresh j (List.mem_map.mpr ⟨_, hu, rfl⟩) j (by simp) rfl
      have hlast : ∀ u, (i, u) ∈ rows ++ [(j, w)] ↔ (i, u) ∈ rows ∨ (i = j ∧ u = w) := by
        simp
      simp only [hlast, List.foldl_append, List.foldl_cons, List.foldl_nil]
      by_cases hi : i = j
      · subst hi
        by_cases hrole : w.role.isEditor = true
        · rw [upsertEditor, dif_pos hrole, Memberships.mem_upsert]
          constructor
          · rintro (⟨_, hne⟩ | heq)
            · exact absurd ⟨rfl, rfl⟩ hne
            · cases heq
              exact .inl ⟨w, .inr ⟨rfl, rfl⟩, rfl, hrole⟩
          · rintro (⟨u, hu | ⟨_, rfl⟩, rfl, _⟩ | ⟨_, hnone⟩)
            · exact absurd hu (hnew u)
            · exact .inr rfl
            · rw [hnone w (.inr ⟨rfl, rfl⟩)] at hrole
              cases hrole
        · rw [upsertEditor, dif_neg hrole, ih hrows]
          constructor
          · rintro (⟨u, hu, _⟩ | ⟨hmem, _⟩)
            · exact absurd hu (hnew u)
            · refine .inr ⟨hmem, ?_⟩
              rintro u (hu | ⟨_, rfl⟩)
              · exact absurd hu (hnew u)
              · simpa using hrole
          · rintro (⟨u, hu | ⟨_, rfl⟩, rfl, heditor⟩ | ⟨hmem, hnone⟩)
            · exact absurd hu (hnew u)
            · exact absurd heditor hrole
            · exact .inr ⟨hmem, fun u hu => hnone u (.inl hu)⟩
      · have hother : ∀ ms : Memberships, ⟨i, cms, role⟩ ∈ (upsertEditor cms ms (j, w)).rows ↔
            ⟨i, cms, role⟩ ∈ ms.rows := by
          intro ms
          unfold upsertEditor
          split
          · simp [Memberships.mem_upsert, hi]
          · rfl
        rw [hother, ih hrows]
        simp [hi]

/-- **The startup mirror** mirrors every account. -/
theorem mirroredAt_startup (horg : findOrganization db cmsOrganizationKey = some (cms, org)) :
    MirroredAt (pruneMirror (mirrorEditors db)) i := by
  have hmirror : mirrorEditors db =
      { db with memberships := db.users.rows.foldl (upsertEditor cms) db.memberships } := by
    simp only [mirrorEditors, horg]
  have hkeep : ∀ ms, findOrganization { db with memberships := ms } cmsOrganizationKey =
      some (cms, org) := fun _ => horg
  rw [hmirror, pruneMirror, hkeep, mirroredAt_iff (hkeep _)]
  intro r
  simp only [Memberships.mem_delete, mem_mirrorEditors db.users.ids_nodup]
  constructor
  · rintro ⟨⟨u, hu, rfl, heditor⟩ | ⟨_, hnone⟩, hkept⟩
    · exact ⟨u, hu, rfl, heditor⟩
    · -- a stale row survives only for an editor, who has a row of his own
      have hany : (db.users.rows.any fun r => r.1 == i && r.2.role.isEditor) = true := by
        simpa using hkept
      obtain ⟨⟨j, u⟩, hu, hmatch⟩ := List.any_eq_true.mp hany
      obtain ⟨hid, heditor⟩ := Bool.and_eq_true_iff.mp hmatch
      obtain rfl : j = i := by simpa using hid
      rw [hnone u hu] at heditor
      cases heditor
  · rintro ⟨u, hu, rfl, heditor⟩
    refine ⟨.inl ⟨u, hu, rfl, heditor⟩, ?_⟩
    have hany : (db.users.rows.any fun r => r.1 == i && r.2.role.isEditor) = true :=
      List.any_eq_true.mpr ⟨(i, u), hu, by simp [heditor]⟩
    simp [hany]

theorem findOrganization_seed (db : PanelDb) (key name document_root : String) (now : ℤ) :
    (findOrganization (seedOrganization db key name document_root now) key).isSome := by
  have hrow : ∃ r ∈ (seedOrganization db key name document_root now).organizations.rows,
      r.2.key = key := by
    unfold seedOrganization
    split
    · exact ⟨_, Table.mem_insert.mpr (.inr rfl), rfl⟩
    · rename_i found hfound
      obtain ⟨o, org⟩ := found
      obtain ⟨hmem, hkey⟩ := findOrganization_some hfound
      exact ⟨_, Table.mem_update.mpr ⟨_, hmem, rfl⟩, by simp [hkey]⟩
  obtain ⟨r, hmem, hkey⟩ := hrow
  by_contra hnone
  have hfind : findOrganization (seedOrganization db key name document_root now) key = none := by
    simpa using hnone
  unfold findOrganization at hfind
  have := Table.find?_none hfind hmem
  simp [hkey] at this

theorem organizations_mirrorEditors (db : PanelDb) :
    (mirrorEditors db).organizations = db.organizations := by
  unfold mirrorEditors
  split <;> rfl

theorem organizations_pruneMirror (db : PanelDb) :
    (pruneMirror db).organizations = db.organizations := by
  unfold pruneMirror
  split <;> rfl

/-- A completed start: the CMS organization is there and everyone is mirrored. -/
theorem bootAccounts_running {main_root cms_root : String} {now : ℤ} {ok : ℕ → Bool}
    (h : (bootAccounts db main_root cms_root now ok).2 = true) :
    (∃ cms org, findOrganization (bootAccounts db main_root cms_root now ok).1
      cmsOrganizationKey = some (cms, org)) ∧
    ∀ i, MirroredAt (bootAccounts db main_root cms_root now ok).1 i := by
  unfold bootAccounts at h ⊢
  generalize hmain : seedOrganization db mainOrganizationKey "Main site" main_root now = seeded
    at h ⊢
  obtain ⟨⟨cms, org⟩, horg⟩ := Option.isSome_iff_exists.mp
    (findOrganization_seed seeded cmsOrganizationKey "CMS" cms_root now)
  cases h0 : ok 0 with
  | false => simp [h0] at h
  | true =>
      cases h1 : ok 1 with
      | false => simp [h0, h1] at h
      | true =>
          cases h2 : ok 2 with
          | false => simp [h0, h1, h2] at h
          | true =>
              cases h3 : ok 3 with
              | false => simp [h0, h1, h2, h3] at h
              | true =>
                  simp only [Bool.not_true, Bool.false_eq_true, if_false]
                  refine ⟨⟨cms, org, ?_⟩, fun i => mirroredAt_startup horg⟩
                  rw [findOrganization, organizations_pruneMirror, organizations_mirrorEditors]
                  exact horg

end Mirror

/-! ## What a failed call leaves -/

section Failures

variable {db : PanelDb} {ok : ℕ → Bool}

theorem createAccount_error {username password_hash : String} {role : UserRole} {now : ℤ}
    {e : RepositoryError}
    (h : (createAccount db username password_hash role now ok).2 = .error e) :
    (createAccount db username password_hash role now ok).1.memberships = db.memberships ∧
    (ok 1 = true → (createAccount db username password_hash role now ok).1 = db) := by
  unfold createAccount at h ⊢
  split
  · exact ⟨rfl, fun _ => rfl⟩
  · rename_i h0
    rw [if_neg h0] at h
    split
    · exact ⟨rfl, fun _ => rfl⟩
    · rename_i users id hinsert
      simp only [hinsert] at h
      cases h1 : ok 1 with
      | false => exact ⟨rfl, fun hok => by cases hok⟩
      | true => simp [h1] at h

theorem setAccountRole_error {id : ℕ} {role : UserRole} {e : RepositoryError}
    (h : (setAccountRole db id role ok).2 = .error e) :
    (setAccountRole db id role ok).1.memberships = db.memberships ∧
    (ok 1 = true → (setAccountRole db id role ok).1 = db) := by
  unfold setAccountRole at h ⊢
  split
  · exact ⟨rfl, fun _ => rfl⟩
  · rename_i h0
    rw [if_neg h0] at h
    cases hrow : (setRole db.users id role).2 with
    | false => simp [hrow] at h
    | true =>
        cases h1 : ok 1 with
        | false => simp [hrow]
        | true => simp [hrow, h1] at h

/-- All of `delete` or nothing. -/
theorem deleteAccount_cases (db : PanelDb) (id : ℕ) (ok : ℕ → Bool) :
    (∃ e, deleteAccount db id ok = (db, .error e)) ∨
      deleteAccount db id ok = (deleteWithMemberships db id, .ok ()) := by
  cases h0 : ok 0 with
  | false => exact .inl ⟨.internal, by simp [deleteAccount, h0]⟩
  | true =>
      cases h1 : ok 1 with
      | false => exact .inl ⟨.internal, by simp [deleteAccount, h0, h1]⟩
      | true =>
          cases h2 : ok 2 with
          | false => exact .inl ⟨.internal, by simp [deleteAccount, h0, h1, h2]⟩
          | true =>
              cases h3 : ok 3 with
              | false => exact .inl ⟨.internal, by simp [deleteAccount, h0, h1, h2, h3]⟩
              | true => exact .inr (by simp [deleteAccount, deleteWithMemberships, h0, h1, h2, h3])

theorem deleteAccount_error {id : ℕ} {e : RepositoryError}
    (h : (deleteAccount db id ok).2 = .error e) : (deleteAccount db id ok).1 = db := by
  rcases deleteAccount_cases db id ok with ⟨_, hfailed⟩ | hdone
  · rw [hfailed]
  · rw [hdone] at h
    cases h

end Failures

/-! ## Every reachable state -/

/-- While the server runs, an account whose last write was mirrored is. -/
def MirrorKept (s : AccountState) : Prop :=
  s.running = true → (∃ cms org, findOrganization s.db cmsOrganizationKey = some (cms, org)) ∧
    ∀ i, s.unmirrored i = false → MirroredAt s.db i

theorem mark_eq_false {s : AccountState} {written mirrored : Bool} {id i : ℕ}
    (h : s.mark written id mirrored i = false) :
    (written = true ∧ i = id ∧ mirrored = true) ∨ (s.unmirrored i = false ∧
      (written = true → i ≠ id)) := by
  unfold AccountState.mark at h
  cases written with
  | false => exact .inr ⟨h, fun hw => by cases hw⟩
  | true =>
      by_cases hi : i = id
      · subst hi
        rw [if_pos rfl, Function.update_self] at h
        exact .inl ⟨rfl, rfl, by simpa using h⟩
      · rw [if_pos rfl, Function.update_of_ne hi] at h
        exact .inr ⟨h, fun _ => hi⟩

/-- Both statements of a write, when both succeed, or the first alone. -/
theorem mirroredAt_written {db : PanelDb} {users : Users} {cms id i : ℕ}
    {org : Organization} {role : UserRole} {u : User} {mirrored : Bool}
    (horg : findOrganization db cmsOrganizationKey = some (cms, org))
    (hu : (id, u) ∈ users.rows) (hrole : u.role = role)
    (hothers : ∀ j w, j ≠ id → ((j, w) ∈ users.rows ↔ (j, w) ∈ db.users.rows))
    (hi : (i = id ∧ mirrored = true) ∨ (i ≠ id ∧ MirroredAt db i)) :
    MirroredAt (if mirrored then syncMembership { db with users := users } id role
      else { db with users := users }) i := by
  have horg' : findOrganization { db with users := users } cmsOrganizationKey =
      some (cms, org) := horg
  rcases hi with ⟨rfl, rfl⟩ | ⟨hi, hmirrored⟩
  · exact mirroredAt_sync horg' hu hrole
  · have hother : MirroredAt { db with users := users } i :=
      hmirrored.of_users rfl rfl fun w => hothers i w hi
    split
    · exact mirroredAt_sync_other horg' hi hother
    · exact hother

theorem organizations_written (db : PanelDb) (users : Users) (id : ℕ) (role : UserRole)
    (mirrored : Bool) :
    (if mirrored then syncMembership { db with users := users } id role
      else { db with users := users }).organizations = db.organizations := by
  split
  · exact (sync_frame { db with users := users } id role).1
  · rfl

/-- A write whose mirror may fail, in which case the account is marked. -/
theorem mirrorKept_written {s : AccountState} {db : PanelDb} {users : Users} {cms id : ℕ}
    {org : Organization} {role : UserRole} {u : User} {mirrored : Bool}
    (horg : findOrganization s.db cmsOrganizationKey = some (cms, org))
    (hall : ∀ i, s.unmirrored i = false → MirroredAt s.db i)
    (hu : (id, u) ∈ users.rows) (hrole : u.role = role)
    (hothers : ∀ j w, j ≠ id → ((j, w) ∈ users.rows ↔ (j, w) ∈ s.db.users.rows))
    (hdb : db = if mirrored then syncMembership { s.db with users := users } id role
      else { s.db with users := users }) :
    (∃ cms org, findOrganization db cmsOrganizationKey = some (cms, org)) ∧
      ∀ i, s.mark true id mirrored i = false → MirroredAt db i := by
  subst hdb
  constructor
  · refine ⟨cms, org, ?_⟩
    rw [findOrganization, organizations_written]
    exact horg
  · intro i hi
    apply mirroredAt_written horg hu hrole hothers
    rcases mark_eq_false hi with ⟨_, hid, hmirrored⟩ | ⟨hold, hother⟩
    · exact .inl ⟨hid, hmirrored⟩
    · exact .inr ⟨hother rfl, hall i hold⟩

theorem createAccount_cases (db : PanelDb) (username password_hash : String)
    (role : UserRole) (now : ℤ) (ok : ℕ → Bool) :
    ((createAccount db username password_hash role now ok).1 = db ∧
      (ok 0 && (insertUser db.users username password_hash role now).isOk) = false) ∨
    ∃ users, insertUser db.users username password_hash role now =
        .ok (users, db.users.nextId) ∧
      (ok 0 && (insertUser db.users username password_hash role now).isOk) = true ∧
      (createAccount db username password_hash role now ok).1 =
        if ok 1 then syncMembership { db with users := users } db.users.nextId role
        else { db with users := users } := by
  cases h0 : ok 0 with
  | false => exact .inl ⟨by simp [createAccount, h0], rfl⟩
  | true =>
      cases hinsert : insertUser db.users username password_hash role now with
      | error e => exact .inl ⟨by simp [createAccount, h0, hinsert], rfl⟩
      | ok inserted =>
          obtain ⟨users, id⟩ := inserted
          obtain rfl : id = db.users.nextId := by
            unfold insertUser at hinsert
            split at hinsert
            · cases hinsert
            · cases hinsert
              rfl
          refine .inr ⟨users, rfl, rfl, ?_⟩
          cases h1 : ok 1 with
          | false => simp [createAccount, h0, h1, hinsert]
          | true => simp [createAccount, h0, h1, hinsert]

/-- The flag of `setRole` tells whether there is an account. -/
theorem setRole_affected {users : Users} {id : ℕ} {role : UserRole} :
    (setRole users id role).2 = true ↔ ∃ u, (id, u) ∈ users.rows := by
  rw [setRole, beq_iff_eq, Table.count_id_eq_one fun i _ hp => by simpa using hp]
  simp

theorem setAccountRole_cases (db : PanelDb) (id : ℕ) (role : UserRole) (ok : ℕ → Bool) :
    ((∀ i, MirroredAt db i → MirroredAt (setAccountRole db id role ok).1 i) ∧
      (setAccountRole db id role ok).1.organizations = db.organizations ∧
      (ok 0 && (setRole db.users id role).2) = false) ∨
    ∃ u, (id, u) ∈ db.users.rows ∧ (ok 0 && (setRole db.users id role).2) = true ∧
      (setAccountRole db id role ok).1 =
        if ok 1 then
          syncMembership { db with users := (setRole db.users id role).1 } id role
        else { db with users := (setRole db.users id role).1 } := by
  cases h0 : ok 0 with
  | false =>
      have hsame : (setAccountRole db id role ok).1 = db := by simp [setAccountRole, h0]
      exact .inl ⟨by simp [hsame], by rw [hsame], rfl⟩
  | true =>
      cases hrow : (setRole db.users id role).2 with
      | false =>
          have hdb : (setAccountRole db id role ok).1 =
              { db with users := (setRole db.users id role).1 } := by
            simp [setAccountRole, h0, hrow]
          have hnone : ∀ u, (id, u) ∉ db.users.rows := by
            intro u hu
            rw [setRole_affected.mpr ⟨u, hu⟩] at hrow
            cases hrow
          refine .inl ⟨?_, by rw [hdb], rfl⟩
          have hrows : ∀ i u, (i, u) ∈ (setRole db.users id role).1.rows ↔
              (i, u) ∈ db.users.rows := by
            intro i u
            rw [mem_setRole]
            constructor
            · rintro ⟨w, hw, hu⟩
              rw [if_neg fun hid : i = id => hnone w (hid ▸ hw)] at hu
              exact hu ▸ hw
            · intro hu
              exact ⟨u, hu, if_neg fun hid : i = id => hnone u (hid ▸ hu)⟩
          intro i hi
          rw [hdb]
          have hkept : MirroredAt { db with users := (setRole db.users id role).1 } i :=
            hi.of_users rfl rfl (hrows i)
          exact hkept
      | true =>
          obtain ⟨u, hu⟩ := setRole_affected.mp hrow
          refine .inr ⟨u, hu, rfl, ?_⟩
          cases h1 : ok 1 with
          | false => simp [setAccountRole, h0, h1, hrow]
          | true => simp [setAccountRole, h0, h1, hrow]

/-- **No account is left unmirrored** but those whose mirror failed. -/
theorem mirrorKept_step {s t : AccountState} {a : AccountCall} (hs : MirrorKept s)
    (h : accountStep s a = some t) : MirrorKept t := by
  cases a with
  | boot main_root cms_root now ok =>
      cases h
      intro hrunning
      obtain ⟨hcms, hall⟩ := bootAccounts_running hrunning
      exact ⟨hcms, fun i _ => hall i⟩
  | create username password_hash role now ok =>
      simp only [accountStep, Option.ite_none_right_eq_some, Option.some.injEq] at h
      obtain ⟨hrunning, rfl⟩ := h
      obtain ⟨⟨cms, org, horg⟩, hall⟩ := hs hrunning
      intro _
      rcases createAccount_cases s.db username password_hash role now ok with
        ⟨hsame, hwritten⟩ | ⟨users, hinsert, hwritten, hdb⟩
      · rw [hsame, hwritten]
        exact ⟨⟨cms, org, horg⟩, hall⟩
      · have hrows := mem_insertUser hinsert
        rw [hwritten]
        apply mirrorKept_written horg hall ((hrows _).mpr (.inr rfl)) rfl ?_ hdb
        intro j w hj
        simp [hrows, hj]
  | updateRole id role ok =>
      simp only [accountStep, Option.ite_none_right_eq_some, Option.some.injEq] at h
      obtain ⟨hrunning, rfl⟩ := h
      obtain ⟨⟨cms, org, horg⟩, hall⟩ := hs hrunning
      intro _
      rcases setAccountRole_cases s.db id role ok with
        ⟨hsame, horgs, hwritten⟩ | ⟨u, hu, hwritten, hdb⟩
      · rw [hwritten]
        refine ⟨⟨cms, org, ?_⟩, fun i hi => hsame i (hall i hi)⟩
        rw [findOrganization, horgs]
        exact horg
      · rw [hwritten]
        apply mirrorKept_written horg hall (mem_setRole.mpr ⟨u, hu, if_pos rfl⟩) rfl ?_ hdb
        intro j w hj
        simp [mem_setRole, hj]
  | delete id ok =>
      simp only [accountStep, Option.ite_none_right_eq_some, Option.some.injEq] at h
      obtain ⟨hrunning, rfl⟩ := h
      obtain ⟨⟨cms, org, horg⟩, hall⟩ := hs hrunning
      intro _
      rcases deleteAccount_cases s.db id ok with ⟨e, hfailed⟩ | hdone
      · rw [hfailed]
        exact ⟨⟨cms, org, horg⟩, hall⟩
      · rw [hdone]
        refine ⟨⟨cms, org, horg⟩, ?_⟩
        intro i hi
        have hcms : findOrganization (deleteWithMemberships s.db id) cmsOrganizationKey =
            some (cms, org) := horg
        rw [mirroredAt_iff hcms]
        intro r
        simp only [deleteWithMemberships, Memberships.mem_delete, mem_deleteUser]
        by_cases hid : i = id
        · simp [hid]
        · have hold : s.unmirrored i = false := by
            rcases mark_eq_false (show s.mark true id true i = false from hi) with
              ⟨_, heq, _⟩ | ⟨hold, _⟩
            · exact absurd heq hid
            · exact hold
          rw [(mirroredAt_iff horg).mp (hall i hold) r]
          simp [hid]

/-- **What a failing statement leaves.** `delete` leaves nothing; `create` and
`update_role` leave the memberships alone, and the accounts too unless it is
their mirror's statement that fails. So in every state of a run, with any
statement failing, every account is mirrored whose last write, or a start since,
came to the end. -/
theorem account_writes (s : AccountState) (as : List AccountCall)
    (hstopped : s.running = false) :
    (∀ (db : PanelDb) (ok : ℕ → Bool) (e : RepositoryError),
      (∀ username password_hash role now,
        (createAccount db username password_hash role now ok).2 = .error e →
        (createAccount db username password_hash role now ok).1.memberships =
            db.memberships ∧
          (ok 1 = true → (createAccount db username password_hash role now ok).1 = db)) ∧
      (∀ id role, (setAccountRole db id role ok).2 = .error e →
        (setAccountRole db id role ok).1.memberships = db.memberships ∧
          (ok 1 = true → (setAccountRole db id role ok).1 = db)) ∧
      ∀ id, (deleteAccount db id ok).2 = .error e → (deleteAccount db id ok).1 = db) ∧
    Throughout accountStep (fun t => t.running = true → ∀ i, t.unmirrored i = false →
      MirroredAt t.db i) s as := by
  constructor
  · intro db ok e
    exact ⟨fun _ _ _ _ h => createAccount_error h, fun _ _ h => setAccountRole_error h,
      fun _ h => deleteAccount_error h⟩
  · have hfirst : MirrorKept s := by
      intro hrunning
      rw [hstopped] at hrunning
      cases hrunning
    intro pre t _ hrun hrunning
    exact (run_invariant accountStep (fun _ _ _ hs h => mirrorKept_step hs h) hfirst hrun
      hrunning).2

/-! ## An editor whose demotion fails halfway -/

def newInstallation : AccountState where
  db := ⟨Table.empty, Table.empty, Memberships.empty⟩
  running := false
  unmirrored := fun _ => false

/-- A start, an editor, and her demotion. -/
def demotion (ok : ℕ → Bool) : List AccountCall :=
  [.boot "public" "views" 1 fun _ => true, .create "ana" "hash" .editor 2 fun _ => true,
    .updateRole 1 .user ok]

theorem account_writes_demotion : newInstallation.running = false ∧
    Throughout accountStep (fun t => t.running = true → ∀ i, t.unmirrored i = false →
      MirroredAt t.db i) newInstallation (demotion fun _ => true) :=
  ⟨rfl, (account_writes newInstallation _ rfl).2⟩

/-- The tables before and after the demotion whose mirror fails. -/
theorem demotion_rows :
    (run accountStep newInstallation ((demotion fun n => n == 0).take 2)).map
      (fun s => ((setAccountRole s.db 1 .user fun n => n == 0).2.isOk,
        s.db.users.rows.map fun r => (r.1, r.2.role))) = some (false, [(1, .editor)]) ∧
    (run accountStep newInstallation (demotion fun n => n == 0)).map
      (fun s => (s.running, s.db.users.rows.map fun r => (r.1, r.2.role),
        membershipRole s.db 1 cmsOrganizationKey)) =
      some (true, [(1, .user)], some .editor) := by
  decide +kernel

/-- The call fails, the account is demoted, and the membership stays an editor's. -/
theorem demotion_unmirrored : newInstallation.running = false ∧
    (∃ db id role ok e, (setAccountRole db id role ok).2 = .error e ∧
      (setAccountRole db id role ok).1.users ≠ db.users) ∧
    ¬ Throughout accountStep (fun t => t.running = true → ∀ i, MirroredAt t.db i)
      newInstallation (demotion fun n => n == 0) := by
  obtain ⟨hbefore, hafter⟩ := demotion_rows
  obtain ⟨s, hs, hrows⟩ := Option.map_eq_some_iff.mp hbefore
  obtain ⟨t, ht, htrows⟩ := Option.map_eq_some_iff.mp hafter
  obtain ⟨hfailed, husers⟩ := Prod.mk.inj hrows
  obtain ⟨hrunning, hrest⟩ := Prod.mk.inj htrows
  obtain ⟨husers', hmember⟩ := Prod.mk.inj hrest
  have hstep : accountStep s (.updateRole 1 .user fun n => n == 0) = some t := by
    have hsplit : demotion (fun n => n == 0) =
        (demotion fun n => n == 0).take 2 ++ [.updateRole 1 .user fun n => n == 0] := rfl
    rw [hsplit, run_append, hs, Option.bind_some] at ht
    obtain ⟨t', hstep, hlast⟩ := run_cons_some _ ht
    cases hlast
    exact hstep
  refine ⟨rfl, ⟨s.db, 1, .user, fun n => n == 0, ?_⟩, ?_⟩
  · simp only [accountStep, Option.ite_none_right_eq_some, Option.some.injEq] at hstep
    obtain ⟨_, rfl⟩ := hstep
    cases hresult : (setAccountRole s.db 1 .user fun n => n == 0).2 with
    | ok _ => simp [hresult, Except.isOk, Except.toBool] at hfailed
    | error e =>
        refine ⟨e, rfl, ?_⟩
        intro heq
        rw [heq, husers] at husers'
        simp at husers'
  · intro h
    have hmirrored := h _ t (List.prefix_refl _) ht hrunning 1
    obtain ⟨u, hu, hrole, _⟩ := (hmirrored .editor).mp hmember
    have hmem : (1, u.role) ∈ t.db.users.rows.map fun r => (r.1, r.2.role) :=
      List.mem_map.mpr ⟨_, hu, rfl⟩
    rw [husers', hrole] at hmem
    simp at hmem

end Wallermax.Accounts
