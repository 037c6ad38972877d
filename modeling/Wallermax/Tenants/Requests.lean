import Mathlib.Logic.Function.Basic
import Wallermax.Accounts.Administration
import Wallermax.Base.Runs
import Wallermax.Tenants.Routing

/-!
# The requests that change tenants

The Tenants pages' writing handlers and the creation of content as their
statements, over any interleaving. A tenant write is its commit and then
`refresh_vhost_state`: read the roots, read the bindings, swap the snapshot.
Creating a tenant refreshes nothing.

`version` counts the commits that owe a refresh and `installed` is the count
the installed snapshot's reads began at; no handler reads either.
-/

namespace Wallermax.Tenants

open Wallermax.Base
open Wallermax.Accounts
open Wallermax.Storage

inductive Goal : Type where
  | createContent (content : NewContent)
  | createTenant (key name document_root : String)
  | updateTenant (key name document_root : String)
  | deleteTenant (key : String)
  | addDomain (key hostname : String)
  | removeDomain (key hostname : String)

/-- Where a successful write redirects to. -/
structure Destination : Type where
  path : String
  ok : String
deriving DecidableEq

/-- Where a request stands; up to `swap`, what it does next. -/
inductive Phase : Type where
  | idle
  | authorize (organization : String) (user : ℕ) (goal : Goal)
  | parent (organization : String) (content : NewContent) (id : ℕ)
  | insert (organization : String) (content : NewContent)
  | create (key name document_root : String)
  | reread (key : String)
  | load (goal : Goal) (key : String)
  | update (key name document_root : String)
  | counts (key : String)
  | delete (key : String)
  | mapDomain (key : String) (organization_id : ℕ) (hostname : String)
  | owner (hostname : String)
  | unmapDomain (key : String) (organization_id : ℕ) (hostname : String)
  | kept (key : String) (organization_id : ℕ) (hostname : String)
  | roots (destination : Destination)
  | bindings (began : ℕ) (roots : List (String × String)) (destination : Destination)
  | swap (began : ℕ) (snapshot : VhostSnapshot) (destination : Destination)
  | answered (answer : Answer)
  /-- Redirected with `error=refresh`: the commit stands, the snapshot is old. -/
  | flagged (destination : Destination)
  | dropped

/-- What the server holds besides the requests. -/
structure Live : Type where
  db : TenantDb
  snapshot : VhostSnapshot
  version : ℕ
  installed : ℕ

def Live.write (s : Live) (db : TenantDb) : Live :=
  { s with
    db := db }

/-- A commit that a refresh follows. -/
def Live.commit (s : Live) (db : TenantDb) : Live :=
  { s with
    db := db
    version := s.version + 1 }

def Live.install (s : Live) (began : ℕ) (snapshot : VhostSnapshot) : Live :=
  { s with
    snapshot := snapshot
    installed := began }

/-! ## The handlers -/

/-- The extractors' test: `CmsEditor` for content, `CmsAdmin` for tenants. -/
def Goal.permits : Goal → Option UserRole → Bool
  | .createContent _, role => role.any UserRole.isEditor
  | _, role => role == some .admin

def Goal.refusal : Goal → AppError
  | .createContent _ => .forbidden
      "CMS membership required — this account is not part of the CMS organization."
  | _ => .forbidden ("Administrator membership required — only " ++
      "administrators of the CMS organization can manage its accounts.")

/-- A page's stated parent is looked up first. -/
def NewContent.parent? : NewContent → Option ℕ
  | .page columns => columns.parent_id
  | _ => none

/-- `create_tenant` before its statement. -/
def createForm (key name document_root : String) : Phase :=
  let key := trim key
  let name := trim name
  let document_root := trim document_root
  match validateTenantKey key with
  | .error message => .answered (.formError message)
  | .ok () =>
    match validateTenantName name with
    | .error message => .answered (.formError message)
    | .ok () =>
      match validateDocumentRoot document_root with
      | .error message => .answered (.formError message)
      | .ok () => .create key name document_root

/-- What follows the guard. -/
def Goal.first (organization : String) : Goal → Phase
  | .createContent content =>
      match content.parent? with
      | some id => .parent organization content id
      | none => .insert organization content
  | .createTenant key name document_root => createForm key name document_root
  | .updateTenant key name document_root => .load (.updateTenant key name document_root) key
  | .deleteTenant key => .load (.deleteTenant key) key
  | .addDomain key hostname => .load (.addDomain key hostname) key
  | .removeDomain key hostname => .load (.removeDomain key hostname) key

def tenantPath (key : String) : String := "/admin/tenants/" ++ key

def updateForm (key name document_root : String) : Phase :=
  let name := trim name
  let document_root := trim document_root
  match validateTenantName name with
  | .error message => .answered (.formError message)
  | .ok () =>
    match validateDocumentRoot document_root with
    | .error message => .answered (.formError message)
    | .ok () => .update key name document_root

/-- A CMS host borrows the shared stylesheets from the static tree. -/
def domainForm (config : VhostConfig) (organization : Organization)
    (id : ℕ) (hostname : String) : Phase :=
  let hostname := normalizeHostname hostname
  match validateHostname hostname with
  | .error message => .answered (.formError message)
  | .ok () =>
      if organization.key == cmsOrganizationKey && !config.static_enabled then
        .answered (.formError ("The CMS host borrows the shared /assets from the static " ++
          "tree — enable [static] serving before mapping more host names to the CMS " ++
          "organization."))
      else .mapDomain organization.key id hostname

/-- What follows `load_organization` when it finds the row. -/
def Goal.loaded (config : VhostConfig) (id : ℕ) (organization : Organization) :
    Goal → Phase
  | .updateTenant _ name document_root =>
      if isSeeded organization then
        .answered (.seeOther (tenantPath organization.key) (.error "seeded"))
      else updateForm organization.key name document_root
  | .deleteTenant _ =>
      if isSeeded organization then
        .answered (.seeOther (tenantPath organization.key) (.error "seeded"))
      else .counts organization.key
  | .addDomain _ hostname => domainForm config organization id hostname
  | .removeDomain _ hostname =>
      .unmapDomain organization.key id (normalizeHostname hostname)
  | _ => .answered .notFound

def NewContent.created (id : ℕ) : NewContent → Answer
  | .page _ => .seeOther ("/admin/pages/" ++ toString id ++ "/edit") (.ok "creada")
  | .menu _ => .seeOther ("/admin/menus/" ++ toString id) (.ok "created")
  | .media _ => .seeOther ("/admin/media/" ++ toString id) .plain

def NewContent.rejected : NewContent → RepositoryError → Answer
  | .page _, .duplicate =>
      .formError "That slug already exists: pick another URL identifier."
  | .menu _, .duplicate => .formError
      "That menu name already exists: it is the key the templates read (menus.<name>)."
  | .media _, _ => .formError "No se pudo guardar (error interno)."
  | _, .internal => .formError "Could not save (internal error)."

/-- Why a host name could not be mapped: it has an owner already. -/
def ownerMessage (config : VhostConfig) (hostname : String) : Option String → String
  | none => "`" ++ hostname ++ "` is already mapped."
  | some owner =>
      if owner == cmsOrganizationKey &&
          config.cms_hosts.any fun configured => normalizeHostname configured == hostname then
        "`" ++ hostname ++ "` is bootstrapped by the [cms] hosts list in wallermax.toml — " ++
          "remove it there (and restart) before mapping it to another organization."
      else "`" ++ hostname ++ "` is already mapped to the `" ++ owner ++ "` organization."

/-- `find_domain_owner`. -/
def findDomainOwner (db : TenantDb) (hostname : String) : Option String :=
  (db.domains.find? fun _ d => d.hostname == hostname).bind fun (_, d) =>
    (db.organizations.find? fun i _ => i == d.organization_id).map fun (_, o) => o.key

/-! ## The statements -/

/-- Run what a request does next. -/
def statement (config : VhostConfig) (s : Live) (now : ℤ) : Phase → Option (Live × Phase)
  | .authorize organization user goal =>
      some (s, if goal.permits (membershipRole s.db.toPanelDb user organization)
        then goal.first organization else .answered (.failed goal.refusal))
  | .parent organization content id =>
      some (s, if (s.db.pages.find? fun i v => i == id &&
          organizationId s.db.organizations organization == some v.organization_id).isSome
        then .insert organization content
        else .answered (.formError "The parent page does not exist."))
  | .insert organization content =>
      match insertContent s.db organization content with
      | .ok (db, id) => some (s.write db, .answered (content.created id))
      | .error e => some (s, .answered (content.rejected e))
  | .create key name document_root =>
      match createOrganization s.db key name document_root now with
      | .ok db => some (s.write db, .reread key)
      | .error .duplicate => some (s, .answered (.formError "That key is already taken."))
      | .error .internal =>
          some (s, .answered (.formError "Could not create (internal error)."))
  -- `create` reads its row back, and panics when it is gone again
  | .reread key =>
      some (s, if (findOrganization s.db.toPanelDb key).isSome
        then .answered (.seeOther (tenantPath key) (.ok "created")) else .dropped)
  | .load goal key =>
      match findOrganization s.db.toPanelDb key with
      | none => some (s, .answered (.seeOther "/admin/tenants" .plain))
      | some (id, organization) => some (s, goal.loaded config id organization)
  | .update key name document_root =>
      if (updateOrganization s.db key name document_root).2 then
        some (s.commit (updateOrganization s.db key name document_root).1,
          .roots ⟨tenantPath key, "saved"⟩)
      else some (s, .answered (.seeOther "/admin/tenants" .plain))
  -- the emptiness check is a statement of its own
  | .counts key =>
      some (s, if (contentCounts s.db key).is_empty then .delete key
        else .answered (.seeOther (tenantPath key) (.error "content")))
  -- one transaction, which does not ask about content again
  | .delete key =>
      if (deleteOrganization s.db key).2 then
        some (s.commit (deleteOrganization s.db key).1, .roots ⟨"/admin/tenants", "deleted"⟩)
      else some (s, .answered (.seeOther "/admin/tenants" .plain))
  | .mapDomain key id hostname =>
      match addDomain s.db id hostname with
      | .ok db => some (s.commit db, .roots ⟨tenantPath key, "domain-added"⟩)
      | .error .duplicate => some (s, .owner hostname)
      | .error .internal =>
          some (s, .answered (.formError "Could not map the host name (internal error)."))
  | .owner hostname =>
      some (s, .answered (.formError
        (ownerMessage config hostname (findDomainOwner s.db hostname))))
  | .unmapDomain key id hostname =>
      if (deleteManualDomain s.db id hostname).2 then
        some (s.commit (deleteManualDomain s.db id hostname).1,
          .roots ⟨tenantPath key, "domain-removed"⟩)
      else some (s, .kept key id hostname)
  | .kept key id hostname =>
      some (s, .answered (.seeOther (tenantPath key)
        (.error (if hasDomain s.db id hostname then "domain-config" else "domain-missing"))))
  -- `refresh_vhost_state`: two reads and a swap, no lock around them
  | .roots destination =>
      some (s, .bindings s.version (loadDocumentRoots s.db) destination)
  | .bindings began roots destination =>
      some (s, .swap began (snapshotOf config roots (loadHostBindings s.db)) destination)
  | .swap began snapshot destination =>
      some (s.install began snapshot,
        .answered (.seeOther destination.path (.ok destination.ok)))
  | _ => none

/-- Where a request goes when its statement fails. The swap is no statement. -/
def failure (config : VhostConfig) : Phase → Option Phase
  | .authorize _ _ _ => some (.answered (.failed (.internal "membership lookup failed")))
  | .parent _ _ _ => some (.answered (.formError "The parent page does not exist."))
  | .insert _ content => some (.answered (content.rejected .internal))
  | .create _ _ _ => some (.answered (.formError "Could not create (internal error)."))
  | .reread _ => some (.answered (.formError "Could not create (internal error)."))
  | .load _ _ => some (.answered (.seeOther "/admin/tenants" .plain))
  | .update _ _ _ => some (.answered (.formError "Could not save (internal error)."))
  | .counts _ => some (.answered storageFailed)
  | .delete _ => some (.answered storageFailed)
  | .mapDomain _ _ _ =>
      some (.answered (.formError "Could not map the host name (internal error)."))
  | .owner hostname =>
      some (.answered (.formError (ownerMessage config hostname none)))
  | .unmapDomain _ _ _ => some (.answered storageFailed)
  | .kept _ _ _ => some (.answered storageFailed)
  -- the write stands, the answer flags the refresh
  | .roots destination => some (.flagged destination)
  | .bindings _ _ destination => some (.flagged destination)
  | _ => none

/-- The request is between two of its steps. -/
def Phase.running : Phase → Bool
  | .idle => false
  | .answered _ => false
  | .flagged _ => false
  | .dropped => false
  | _ => true

/-! ## Interleavings -/

structure World : Type where
  live : Live
  phase : ℕ → Phase

inductive Label : Type where
  | start (r : ℕ) (organization : String) (user : ℕ) (goal : Goal)
  | exec (r : ℕ) (now : ℤ)
  | fail (r : ℕ)
  | drop (r : ℕ)

/-- The booted server: the snapshot is what the database says. -/
def World.boot (config : VhostConfig) (db : TenantDb) : World where
  live := { db := db, snapshot := derived config db, version := 0, installed := 0 }
  phase := fun _ => .idle

def World.advance (w : World) (r : ℕ) (live : Live) (next : Phase) : World where
  live := live
  phase := Function.update w.phase r next

def step (config : VhostConfig) (w : World) : Label → Option World
  | .start r organization user goal =>
      match w.phase r with
      | .idle => some (w.advance r w.live (.authorize organization user goal))
      | _ => none
  | .exec r now =>
      (statement config w.live now (w.phase r)).map fun (live, next) => w.advance r live next
  | .fail r => (failure config (w.phase r)).map fun next => w.advance r w.live next
  | .drop r => if (w.phase r).running then some (w.advance r w.live .dropped) else none

/-- The request a label is about. -/
def Label.request : Label → ℕ
  | .start r _ _ _ => r
  | .exec r _ => r
  | .fail r => r
  | .drop r => r

theorem phase_advance (w : World) (r : ℕ) (live : Live) (next : Phase) (q : ℕ) :
    (w.advance r live next).phase q = if q = r then next else w.phase q := by
  simp [World.advance, Function.update_apply]

/-- A step leaves every other request where it is. -/
theorem phase_step {config : VhostConfig} {w w' : World} {l : Label} {q : ℕ}
    (hq : q ≠ l.request) (hs : step config w l = some w') : w'.phase q = w.phase q := by
  cases l with
  | start r organization user goal =>
      simp only [step] at hs
      split at hs
      · cases hs
        exact (phase_advance ..).trans (if_neg hq)
      · cases hs
  | exec r now =>
      obtain ⟨⟨live, next⟩, _, rfl⟩ := Option.map_eq_some_iff.mp hs
      exact (phase_advance ..).trans (if_neg hq)
  | fail r =>
      obtain ⟨next, _, rfl⟩ := Option.map_eq_some_iff.mp hs
      exact (phase_advance ..).trans (if_neg hq)
  | drop r =>
      simp only [step, Option.ite_none_right_eq_some, Option.some.injEq] at hs
      obtain ⟨_, rfl⟩ := hs
      exact (phase_advance ..).trans (if_neg hq)

/-- A request no label is about stays where it is. -/
theorem phase_run {config : VhostConfig} {w w' : World} {labels : List Label} {q : ℕ}
    (hq : ∀ l ∈ labels, q ≠ l.request) (h : run (step config) w labels = some w') :
    w'.phase q = w.phase q := by
  induction labels generalizing w with
  | nil =>
      cases h
      rfl
  | cons l labels ih =>
      obtain ⟨v, hv, hrest⟩ := run_cons_some (step config) h
      rw [ih (fun m hm => hq m (List.mem_cons_of_mem l hm)) hrest,
        phase_step (hq l (List.mem_cons_self ..)) hv]

end Wallermax.Tenants
