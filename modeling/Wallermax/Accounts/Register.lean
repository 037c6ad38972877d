import Mathlib.Logic.Function.Basic
import Wallermax.Accounts.Memberships
import Wallermax.Base.Runs

/-!
# The first account

`POST /api/auth/register` as its statements: count the accounts, hash the
password, insert the account with the role the count decided, mirror the role
into the CMS organization. Argon2 takes about a hundred milliseconds between
the count and the insert, and any other request may run in between.
-/

namespace Wallermax.Accounts

open Wallermax.Base

/-- Where a registration stands. -/
inductive RegisterPhase : Type where
  | idle
  | count (username password : String)
  | hash (username password : String) (role : UserRole)
  | create (username password_hash : String) (role : UserRole)
  | mirror (id : ℕ) (role : UserRole)
  | created (id : ℕ)
  | failed (error : AppError)
  | dropped
deriving DecidableEq

/-- The server's answers to the requests in flight. -/
structure Registrations : Type where
  db : PanelDb
  phase : ℕ → RegisterPhase

inductive RegisterLabel : Type where
  | start (r : ℕ) (username password : String)
  /-- One statement, or the hash; `hashed` is Argon2's result. -/
  | exec (r : ℕ) (now : ℤ) (hashed : Option String)
  | fail (r : ℕ)
  | drop (r : ℕ)

structure RegisterConfig : Type where
  registration_enabled : Bool
  min_password_len : ℕ

/-- `register` before its first statement. -/
def beginRegister (config : RegisterConfig) (username password : String) :
    RegisterPhase :=
  if !config.registration_enabled then
    .failed (.forbidden "registration is disabled on this server")
  else match validateUsername username with
  | .error message => .failed (.badRequest message)
  | .ok () =>
    match validatePassword password config.min_password_len with
    | .error message => .failed (.badRequest message)
    | .ok () => .count username password

/-- The bootstrap rule: the role the count decides. -/
def firstRole (total : ℕ) : UserRole := if total = 0 then .admin else .user

/-- Run what request `r` does next. -/
def registerStatement (db : PanelDb) (now : ℤ) (hashed : Option String) :
    RegisterPhase → Option (PanelDb × RegisterPhase)
  -- decided here, used after the hash
  | .count username password =>
      some (db, .hash username password (firstRole (count db.users)))
  | .hash username _ role =>
      some (db, match hashed with
        | none => .failed (.internal "password hashing failed")
        | some password_hash => .create username password_hash role)
  | .create username password_hash role =>
      match insertUser db.users username password_hash role now with
      | .error .duplicate => some (db, .failed (.conflict "username is already taken"))
      | .error .internal => some (db, .failed (.internal "storage failure"))
      | .ok (users, id) => some ({ db with users := users }, .mirror id role)
  | .mirror id role => some (syncMembership db id role, .created id)
  | _ => none

/-- Where a registration goes when its statement fails. -/
def registerFailure : RegisterPhase → Option RegisterPhase
  | .count _ _ => some (.failed (.ofRepository .internal))
  | .hash _ _ _ => some (.failed (.internal "password hashing failed"))
  | .create _ _ _ => some (.failed (.internal "storage failure"))
  | .mirror _ _ => some (.failed (.internal "storage failure"))
  | _ => none

def Registrations.advance (w : Registrations) (r : ℕ) (db : PanelDb)
    (next : RegisterPhase) : Registrations where
  db := db
  phase := Function.update w.phase r next

def registerStep (config : RegisterConfig) (w : Registrations) :
    RegisterLabel → Option Registrations
  | .start r username password =>
      if w.phase r = .idle then
        some (w.advance r w.db (beginRegister config username password))
      else none
  | .exec r now hashed =>
      (registerStatement w.db now hashed (w.phase r)).map fun (db, next) =>
        w.advance r db next
  | .fail r => (registerFailure (w.phase r)).map fun next => w.advance r w.db next
  | .drop r => (registerFailure (w.phase r)).map fun _ => w.advance r w.db .dropped

def Registrations.initial (db : PanelDb) : Registrations where
  db := db
  phase := fun _ => .idle

/-- At most one account has the admin role. Registration removes no account, so
this also bounds how many ever got it. -/
def OneAdmin (w : Registrations) : Prop := countWithRole w.db.users .admin ≤ 1

/-- The step inserts an administrator, decided by a count of zero, into a table
that has an account by now. -/
def Stale (w : Registrations) : RegisterLabel → Bool
  | .exec r _ _ =>
      match w.phase r with
      | .create username _ role =>
          role == .admin && count w.db.users != 0 &&
            (findByUsername w.db.users username).isNone
      | _ => false
  | _ => false

/-! ## The invariant -/

/-- The role a registration has decided on. -/
def RegisterPhase.role? : RegisterPhase → Option UserRole
  | .hash _ _ role => some role
  | .create _ _ role => some role
  | _ => none

/-- A decision for `user` was made by a count that saw an account, and whoever
came first is the administrator. -/
structure Bootstrapped (w : Registrations) : Prop where
  decided : ∀ r role, (w.phase r).role? = some role →
    role = .admin ∨ (role = .user ∧ w.db.users.rows ≠ [])
  first : w.db.users.rows ≠ [] → HasPlatformAdmin w.db.users

/-- A step that leaves the accounts alone keeps the invariant. -/
theorem Bootstrapped.advance {w : Registrations} {r : ℕ} {db : PanelDb}
    {next : RegisterPhase} (h : Bootstrapped w) (hdb : db.users = w.db.users)
    (hnext : ∀ role, next.role? = some role →
      role = .admin ∨ (role = .user ∧ w.db.users.rows ≠ [])) :
    Bootstrapped (w.advance r db next) := by
  constructor
  · intro q role hq
    rw [show (w.advance r db next).db.users = w.db.users from hdb]
    by_cases hr : q = r
    · subst hr
      exact hnext role (by simpa [Registrations.advance] using hq)
    · exact h.decided q role (by simpa [Registrations.advance, hr] using hq)
  · rw [show (w.advance r db next).db.users = w.db.users from hdb]
    exact h.first

theorem role?_beginRegister (config : RegisterConfig) (username password : String) :
    (beginRegister config username password).role? = none := by
  unfold beginRegister
  split
  · rfl
  · split
    · rfl
    · split <;> rfl

theorem countWithRole_insert {users users' : Users} {name hash : String}
    {role : UserRole} {now : ℤ} {id : ℕ}
    (h : insertUser users name hash role now = .ok (users', id)) :
    countWithRole users' .admin =
      countWithRole users .admin + if role = .admin then 1 else 0 := by
  unfold insertUser at h
  split at h
  · cases h
  · cases h
    cases role <;> simp [countWithRole, Table.count, Table.insert]

theorem hasPlatformAdmin_iff {users : Users} :
    HasPlatformAdmin users ↔ 0 < countWithRole users .admin := by
  simp only [HasPlatformAdmin, countWithRole, Table.count_pos, beq_iff_eq]

theorem insertUser_succeeds {users : Users} {name hash : String} {role : UserRole}
    {now : ℤ} : (∃ users' id, insertUser users name hash role now = .ok (users', id)) ↔
      (findByUsername users name).isNone = true := by
  unfold insertUser
  split
  · rename_i hpos
    obtain ⟨i, u, hu, hname⟩ := Table.count_pos.mp hpos
    constructor
    · rintro ⟨_, _, h⟩
      cases h
    · intro hnone
      have hmiss := Table.find?_none (Option.isNone_iff_eq_none.mp hnone) hu
      rw [hname] at hmiss
      cases hmiss
  · rename_i hzero
    refine iff_of_true ⟨_, _, rfl⟩ (Option.isNone_iff_eq_none.mpr ?_)
    cases hfind : findByUsername users name with
    | none => rfl
    | some p =>
        obtain ⟨hmem, hname⟩ := Table.find?_some hfind
        exact absurd (Table.count_pos.mpr ⟨p.1, p.2, hmem, hname⟩) hzero

theorem insertUser_nonempty {users users' : Users} {name hash : String}
    {role : UserRole} {now : ℤ} {id : ℕ}
    (h : insertUser users name hash role now = .ok (users', id)) : users'.rows ≠ [] :=
  List.ne_nil_of_mem ((mem_insertUser h _).mpr (.inr rfl))

/-- An insert keeps the invariant: an administrator comes first. -/
theorem Bootstrapped.insert {w : Registrations} {r id : ℕ} {users : Users}
    {name hash : String} {role : UserRole} {now : ℤ} (h : Bootstrapped w)
    (hins : insertUser w.db.users name hash role now = .ok (users, id))
    (hrole : role = .admin ∨ (role = .user ∧ w.db.users.rows ≠ [])) :
    Bootstrapped (w.advance r { w.db with users := users } (.mirror id role)) := by
  have hne : users.rows ≠ [] := insertUser_nonempty hins
  constructor
  · intro q role' hq
    by_cases hr : q = r
    · subst hr
      simp [Registrations.advance, RegisterPhase.role?] at hq
    · have hq : (w.phase q).role? = some role' := by
        simpa [Registrations.advance, hr] using hq
      exact (h.decided q role' hq).imp_right fun huser => ⟨huser.1, hne⟩
  · intro _
    apply hasPlatformAdmin_iff.mpr
    rw [show (w.advance r { w.db with users := users } (.mirror id role)).db.users = users
      from rfl, countWithRole_insert hins]
    rcases hrole with rfl | ⟨rfl, hold⟩
    · simp
    · exact Nat.lt_of_lt_of_le (hasPlatformAdmin_iff.mp (h.first hold)) (Nat.le_add_right _ _)

/-- One administrator stays one under an insert unless the insert makes another
administrator of a table that has an account. -/
theorem oneAdmin_insert_iff {w : Registrations} {r id : ℕ} {users : Users}
    {name hash : String} {role : UserRole} {now : ℤ} (hi : Bootstrapped w)
    (h : OneAdmin w)
    (hins : insertUser w.db.users name hash role now = .ok (users, id)) :
    OneAdmin (w.advance r { w.db with users := users } (.mirror id role)) ↔
      (role == .admin && count w.db.users != 0 &&
        (findByUsername w.db.users name).isNone) = false := by
  have hfree : (findByUsername w.db.users name).isNone = true :=
    insertUser_succeeds.mp ⟨users, id, hins⟩
  have hcount := countWithRole_insert hins
  simp only [OneAdmin, Registrations.advance, hcount, hfree, Bool.and_true] at h ⊢
  by_cases hrole : role = .admin
  · by_cases hzero : count w.db.users = 0
    · have hnone : countWithRole w.db.users .admin = 0 := by
        rw [countWithRole, Table.count_eq_zero]
        intro i u hu
        rw [count_eq_zero.mp hzero] at hu
        cases hu
      simp [hrole, hzero, hnone]
    · have hpos : 0 < countWithRole w.db.users .admin :=
        hasPlatformAdmin_iff.mp (hi.first fun hnil => hzero (count_eq_zero.mpr hnil))
      simp only [hrole, if_true, beq_self_eq_true, Bool.true_and, bne_eq_false_iff_eq,
        hzero, iff_false]
      omega
  · simp [hrole, h]

/-- A taken name: the insert fails, so the step is not stale. -/
theorem findByUsername_taken {users : Users} {name hash : String} {role : UserRole}
    {now : ℤ} {e : RepositoryError} (h : insertUser users name hash role now = .error e) :
    (findByUsername users name).isNone = false := by
  rw [← Bool.not_eq_true]
  intro hfree
  have hok : ∃ users' id, insertUser users name hash role now = .ok (users', id) :=
    insertUser_succeeds.mpr hfree
  rw [h] at hok
  obtain ⟨_, _, hok⟩ := hok
  cases hok

/-- **What one statement does**: only the insert can make an administrator. -/
theorem register_exec {w : Registrations} {r : ℕ} {now : ℤ} {hashed : Option String}
    {db : PanelDb} {next : RegisterPhase} (hi : Bootstrapped w) (h : OneAdmin w)
    (hst : registerStatement w.db now hashed (w.phase r) = some (db, next)) :
    Bootstrapped (w.advance r db next) ∧
      (OneAdmin (w.advance r db next) ↔ Stale w (.exec r now hashed) = false) := by
  simp only [Stale]
  cases hph : w.phase r <;> rw [hph] at hst <;>
    simp only [registerStatement, reduceCtorEq, Option.some.injEq, Prod.mk.injEq] at hst
  case count username password =>
    obtain ⟨rfl, rfl⟩ := hst
    refine ⟨hi.advance rfl ?_, iff_of_true h rfl⟩
    rintro role hrole
    obtain rfl : firstRole (count w.db.users) = role := by
      simpa [RegisterPhase.role?] using hrole
    unfold firstRole
    split
    · exact .inl rfl
    · -- a count above zero saw an account
      rename_i hne
      exact .inr ⟨rfl, fun hnil => hne (count_eq_zero.mpr hnil)⟩
  case hash username password role =>
    obtain ⟨rfl, rfl⟩ := hst
    refine ⟨hi.advance rfl ?_, iff_of_true h rfl⟩
    rintro role' hrole
    apply hi.decided r role'
    rw [hph]
    cases hashed with
    | none => cases hrole
    | some password_hash => exact hrole
  case mirror id role =>
    obtain ⟨rfl, rfl⟩ := hst
    have husers := (sync_frame w.db id role).2
    refine ⟨hi.advance husers (by simp [RegisterPhase.role?]), iff_of_true ?_ rfl⟩
    show countWithRole (syncMembership w.db id role).users .admin ≤ 1
    rw [husers]
    exact h
  case create username password_hash role =>
    have hrole := hi.decided r role (by rw [hph]; rfl)
    split at hst
    case h_3 users id hins =>
      cases hst
      exact ⟨hi.insert hins hrole, oneAdmin_insert_iff hi h hins⟩
    all_goals
      rename_i hins
      cases hst
      refine ⟨hi.advance rfl (by simp [RegisterPhase.role?]), iff_of_true h ?_⟩
      simp [findByUsername_taken hins]

/-- **The step lemma**: the invariant survives, and one administrator stays one
exactly when the step is not stale. -/
theorem register_step {config : RegisterConfig} {w w' : Registrations}
    {l : RegisterLabel} (hi : Bootstrapped w) (h : OneAdmin w)
    (hs : registerStep config w l = some w') :
    Bootstrapped w' ∧ (OneAdmin w' ↔ Stale w l = false) := by
  cases l with
  | start r username password =>
      simp only [registerStep, Option.ite_none_right_eq_some] at hs
      obtain ⟨_, heq⟩ := hs
      cases heq
      refine ⟨hi.advance rfl ?_, iff_of_true h rfl⟩
      simp [role?_beginRegister]
  | exec r now hashed =>
      obtain ⟨⟨db, next⟩, hst, rfl⟩ := Option.map_eq_some_iff.mp hs
      exact register_exec hi h hst
  | fail r =>
      obtain ⟨next, hf, rfl⟩ := Option.map_eq_some_iff.mp hs
      refine ⟨hi.advance rfl ?_, iff_of_true h rfl⟩
      cases hph : w.phase r <;> rw [hph] at hf <;> cases hf <;>
        simp [RegisterPhase.role?]
  | drop r =>
      obtain ⟨next, _, rfl⟩ := Option.map_eq_some_iff.mp hs
      exact ⟨hi.advance rfl (by simp [RegisterPhase.role?]), iff_of_true h rfl⟩

/-! ## Runs -/

/-- **When the bootstrap rule holds.** Along any schedule of registrations on a
server without accounts, at most one account is ever an administrator exactly
when no step inserts an administrator into a table that has an account. -/
theorem one_admin_iff (config : RegisterConfig) (db : PanelDb)
    (labels : List RegisterLabel) (hempty : db.users.rows = []) :
    Throughout (registerStep config) OneAdmin (Registrations.initial db) labels ↔
      EachStep (registerStep config) (fun w l => Stale w l = false)
        (Registrations.initial db) labels := by
  refine throughout_iff_eachStep (registerStep config) (I := Bootstrapped)
    (fun _ _ _ hi hp hs => (register_step hi hp hs).1)
    (fun _ _ _ hi hp hs => (register_step hi hp hs).2) ?_ ?_
  · constructor
    · rintro r role hrole
      cases hrole
    · intro hne
      exact absurd hempty hne
  · simp [OneAdmin, Registrations.initial, countWithRole, Table.count, hempty]

/-- A fresh database with the bootstrap organizations. -/
def freshPanel : PanelDb where
  users := Table.empty
  organizations :=
    { rows := [(1, ⟨"main", "Main", "public", 0⟩), (2, ⟨"cms", "CMS", "views", 0⟩)]
      seq := 2, ids_nodup := by decide, ids_le_seq := by decide }
  memberships := Memberships.empty

def openRegistration : RegisterConfig where
  registration_enabled := true
  min_password_len := 8

/-- Two registrations count before either inserts. -/
def sampleRace : List RegisterLabel :=
  [.start 0 "ada" "password1", .exec 0 0 none, .start 1 "eve" "password2",
    .exec 1 0 none, .exec 0 0 (some "h1"), .exec 0 0 none, .exec 0 0 none,
    .exec 1 0 (some "h2"), .exec 1 0 none, .exec 1 0 none]

/-- Both become administrators. -/
theorem two_admins_race : freshPanel.users.rows = [] ∧
    ¬ Throughout (registerStep openRegistration) OneAdmin
      (Registrations.initial freshPanel) sampleRace := by
  refine ⟨rfl, fun hall => ?_⟩
  have hrun : (run (registerStep openRegistration) (Registrations.initial freshPanel)
      sampleRace).any (fun w => countWithRole w.db.users .admin == 2) = true := by
    decide +kernel
  obtain ⟨w, hw, htwo⟩ := (Option.any_eq_true _ _).mp hrun
  have hone : countWithRole w.db.users .admin ≤ 1 := hall _ w (List.prefix_refl _) hw
  rw [beq_iff_eq] at htwo
  omega

theorem one_admin_iff_race :
    Throughout (registerStep openRegistration) OneAdmin
        (Registrations.initial freshPanel) sampleRace ↔
      EachStep (registerStep openRegistration) (fun w l => Stale w l = false)
        (Registrations.initial freshPanel) sampleRace :=
  one_admin_iff openRegistration freshPanel sampleRace rfl

end Wallermax.Accounts
