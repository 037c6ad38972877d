import Wallermax.Accounts.Memberships

/-!
# The account pages of the panel

The writing handlers of the Users page, the Tenants page's member list and the
Team page, each served to its end. `ok n` tells whether the handler's `n`-th
database statement (counted from the guard's, `0`) succeeds; a handler stops at
the first one that fails.

The guard `CmsAdmin` asks for an admin membership of the organization the
request's `Host` resolves to. Which pages a `Host` reaches depends on how the
server was booted: with host bindings, the Users and Tenants pages answer on
the CMS host only; without any, one tree serves every page on every host, and
bindings added later still name the organization (`mounted`).
-/

namespace Wallermax.Accounts

open Wallermax.Base

/-- The flash code a redirect carries. -/
inductive Flash : Type where
  | plain
  | ok (code : String)
  | error (code : String)
deriving DecidableEq, Repr

/-- What the browser gets. -/
inductive Answer : Type where
  | seeOther (path : String) (flash : Flash)
  | formError (message : String)
  | failed (error : AppError)
  | notFound
deriving DecidableEq, Repr

/-- The answers that report a write. -/
def Answer.applied : Answer → Bool
  | .seeOther _ (.ok _) => true
  | _ => false

inductive PanelPage : Type where
  | users
  | tenants
  | team
deriving DecidableEq, Repr

/-- The pages a request for `organization` reaches: on a server booted without
bindings everything but the Team page, otherwise the platform pages on the CMS
host and the Team page on the tenants' hosts. -/
def mounted (single_host : Bool) (page : PanelPage) (organization : String) : Bool :=
  match page with
  | .team => !single_host && organization != cmsOrganizationKey &&
      organization != mainOrganizationKey
  | _ => organization == cmsOrganizationKey ||
      (single_host && organization != mainOrganizationKey)

def storageFailed : Answer := .failed (.internal "storage failure")

/-- The `CmsAdmin` extractor, in front of a handler whose page is mounted. -/
def guarded (db : PanelDb) (single_host : Bool) (page : PanelPage)
    (organization : String) (actor : ℕ) (ok : ℕ → Bool)
    (handler : PanelDb × Answer) : PanelDb × Answer :=
  if !mounted single_host page organization then (db, .notFound)
  -- statement 0 is the extractor's, the handler counts from 1
  else if !ok 0 then (db, .failed (.internal "membership lookup failed"))
  else if membershipRole db actor organization = some .admin then handler
  else (db, .failed (.forbidden ("Administrator membership required — only " ++
    "administrators of the CMS organization can manage its accounts.")))

/-! ## The Users page -/

/-- The submitted password: empty for none, otherwise checked and hashed.
`hash` is Argon2, which may fail. -/
def newPassword (hash : String → Option String) (min_password_len : ℕ)
    (password : String) : Except String (Option String) :=
  if password.isEmpty then .ok none
  else match validatePassword password min_password_len with
    | .error message => .error message
    | .ok () =>
      match hash password with
      | none => .error "The password could not be saved (internal error)."
      | some hashed => .ok (some hashed)

/-- `UPDATE users SET role`, then the membership mirror: two statements. -/
def updateRole (db : PanelDb) (id : ℕ) (role : UserRole) (ok : ℕ → Bool) :
    PanelDb × Bool :=
  if !ok 3 then (db, false)
  else
    let (users, affected) := setRole db.users id role
    let db := { db with users := users }
    -- without a row there is nothing to mirror
    if !affected then (db, true)
    else if !ok 4 then (db, false)
    else (syncMembership db id role, true)

/-- The last-admin lockout guard's question. -/
def demotesAdmin (user : User) (role : UserRole) : Bool :=
  user.role == .admin && role != .admin

/-- `update_user`. -/
def updateUser (hash : String → Option String) (min_password_len : ℕ)
    (db : PanelDb) (actor id : ℕ) (role password : String) (ok : ℕ → Bool) :
    PanelDb × Answer :=
  -- a failed lookup counts as missing
  match if ok 1 then findById db.users id else none with
  | none => (db, .seeOther "/admin/users" .plain)
  | some (_, user) =>
    if id = actor then
      (db, .formError "You cannot edit your own account here: use the profile page.")
    else match UserRole.parse role with
    | none => (db, .formError "Rol desconocido.")
    | some new_role =>
      match newPassword hash min_password_len password with
      | .error message => (db, .formError message)
      | .ok password_hash =>
        -- the guard counts platform roles, not CMS memberships
        if demotesAdmin user new_role && !ok 2 then (db, storageFailed)
        else if demotesAdmin user new_role &&
            decide (countWithRole db.users .admin ≤ 1) then
          (db, .formError "This is the last administrator: the role cannot be removed.")
        else
          let (db, saved) := updateRole db id new_role ok
          if !saved then (db, .formError "Could not save (internal error).")
          else match password_hash with
          | none => (db, .seeOther "/admin/users" (.ok "saved"))
          | some password_hash =>
            if !ok 5 then (db, .formError "Could not save (internal error).")
            else ({ db with users := updatePassword db.users id password_hash },
              .seeOther "/admin/users" (.ok "saved"))

/-- `delete_user` after the platform's own guard. -/
def deleteUnlessSolo (db : PanelDb) (id : ℕ) (ok : ℕ → Bool) : PanelDb × Answer :=
  if !ok 3 then (db, storageFailed)
  else match soloAdministratedOrgs db id with
  | key :: _ =>
      (db, .seeOther "/admin/users" (.error ("solo-tenant-admin&tenant=" ++ key)))
  | [] =>
    if !ok 4 then (db, storageFailed)
    else (deleteWithMemberships db id, .seeOther "/admin/users" (.ok "deleted"))

/-- `delete_user`. -/
def deleteUserPage (db : PanelDb) (actor id : ℕ) (ok : ℕ → Bool) : PanelDb × Answer :=
  match if ok 1 then findById db.users id else none with
  | none => (db, .seeOther "/admin/users" .plain)
  | some (_, user) =>
    if id = actor then (db, .seeOther "/admin/users" (.error "propia"))
    else if user.role = .admin then
      if !ok 2 then (db, storageFailed)
      else if countWithRole db.users .admin ≤ 1 then
        (db, .seeOther "/admin/users" (.error "ultimo-admin"))
      else deleteUnlessSolo db id ok
    else deleteUnlessSolo db id ok

/-! ## The member lists

The Tenants page and the Team page share their rules; they differ in how the
organization is found and where the browser lands. -/

/-- Granting a membership once the organization is known. `username` is the
submitted one, trimmed. -/
def grantMember (db : PanelDb) (organization_id : ℕ) (username role path : String)
    (ok : ℕ → Bool) : PanelDb × Answer :=
  match (UserRole.parse role).filter UserRole.isEditor with
  | none => (db, .formError ("Memberships are administrator or editor — a plain " ++
      "user simply has none."))
  | some role =>
    if !ok 2 then (db, storageFailed)
    else match findByUsername db.users username with
    | none => (db, .formError "No account answers to that username.")
    | some (user_id, _) =>
      if role ≠ .admin ∧ ok 3 = false then (db, storageFailed)
      else if role ≠ .admin ∧ soloAdministrator db organization_id user_id = true then
        (db, .formError ("This is the organization's last administrator: the role " ++
          "cannot be removed."))
      else if !ok 4 then (db, .formError "Could not save (internal error).")
      else match upsertMember db organization_id user_id role with
      | .error _ => (db, .formError "Could not save (internal error).")
      | .ok db => (db, .seeOther path (.ok "member-added"))

/-- Removing a membership once the organization is known. -/
def dropMember (db : PanelDb) (organization_id user_id : ℕ) (path : String)
    (ok : ℕ → Bool) : PanelDb × Answer :=
  if !ok 2 then (db, storageFailed)
  else if soloAdministrator db organization_id user_id then
    (db, .seeOther path (.error "last-admin"))
  else if !ok 3 then (db, storageFailed)
  else (removeMember db organization_id user_id,
    .seeOther path (.ok "member-removed"))

/-- The Tenants page's way to the organization: the CMS memberships are the
mirror's, so that one is refused. -/
def onTenant (db : PanelDb) (key : String) (ok : ℕ → Bool)
    (handler : ℕ → String → PanelDb × Answer) : PanelDb × Answer :=
  match if ok 1 then findOrganization db key else none with
  | none => (db, .seeOther "/admin/tenants" .plain)
  | some (organization_id, organization) =>
    if organization.key = cmsOrganizationKey then
      (db, .seeOther ("/admin/tenants/" ++ key) (.error "mirror"))
    else handler organization_id ("/admin/tenants/" ++ key)

/-- The Team page's way: the organization the guard resolved. -/
def onTeam (db : PanelDb) (organization : String) (ok : ℕ → Bool)
    (handler : ℕ → String → PanelDb × Answer) : PanelDb × Answer :=
  match if ok 1 then findOrganization db organization else none with
  | none => (db, storageFailed)
  | some (organization_id, _) => handler organization_id "/admin/team"

/-! ## Requests -/

/-- A request of one of the three pages. `organization` is what
`request_organization` makes of its `Host`, `actor` the account it is signed in
as. -/
inductive PanelRequest : Type where
  | updateUser (organization : String) (actor id : ℕ) (role password : String)
  | deleteUser (organization : String) (actor id : ℕ)
  | addTenantMember (organization : String) (actor : ℕ) (key username role : String)
  | removeTenantMember (organization : String) (actor : ℕ) (key : String)
      (user_id : ℕ)
  | addTeamMember (organization : String) (actor : ℕ) (username role : String)
  | removeTeamMember (organization : String) (actor user_id : ℕ)
deriving DecidableEq, Repr

/-- Serve one request to its end. -/
def servePanel (hash : String → Option String) (min_password_len : ℕ)
    (single_host : Bool) (db : PanelDb) (ok : ℕ → Bool) :
    PanelRequest → PanelDb × Answer
  | .updateUser organization actor id role password =>
      guarded db single_host .users organization actor ok
        (updateUser hash min_password_len db actor id role password ok)
  | .deleteUser organization actor id =>
      guarded db single_host .users organization actor ok
        (deleteUserPage db actor id ok)
  | .addTenantMember organization actor key username role =>
      guarded db single_host .tenants organization actor ok
        (onTenant db key ok fun id path => grantMember db id username role path ok)
  | .removeTenantMember organization actor key user_id =>
      guarded db single_host .tenants organization actor ok
        (onTenant db key ok fun id path => dropMember db id user_id path ok)
  | .addTeamMember organization actor username role =>
      guarded db single_host .team organization actor ok
        (onTeam db organization ok fun id path =>
          grantMember db id username role path ok)
  | .removeTeamMember organization actor user_id =>
      guarded db single_host .team organization actor ok
        (onTeam db organization ok fun id path => dropMember db id user_id path ok)

end Wallermax.Accounts
