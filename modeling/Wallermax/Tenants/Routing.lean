import Wallermax.Tenants.Forms
import Wallermax.Tenants.TenantDb

/-!
# The host routing snapshot

What `refresh_vhost_state` computes from two reads of the database: the
organizations' document roots and the host bindings. A tenant's serving tree is
a function of the organization and its document root, so the snapshot keeps
those two for each tree.
-/

namespace Wallermax.Tenants

open Wallermax.Base
open Wallermax.Accounts
open Wallermax.Storage

/-- The configuration the routing reads, and the working directory. -/
structure VhostConfig : Type where
  root_dir : String
  views_dir : String
  site_url : Option String
  cms_hosts : List String
  tls_enabled : Bool
  static_enabled : Bool
  port : ℕ
  current_dir : String

/-- The configuration as shipped, started in `/srv`. -/
def defaultConfig : VhostConfig where
  root_dir := "public"
  views_dir := "views"
  site_url := none
  cms_hosts := []
  tls_enabled := false
  static_enabled := true
  port := 8080
  current_dir := "/srv"

structure HostBinding : Type where
  hostname : String
  organization : String
  document_root : String
deriving DecidableEq

structure VhostSnapshot : Type where
  main_root : String
  cms_origin : String
  bindings : List HostBinding
  tenants : List (String × String)
deriving DecidableEq

/-! ## The two reads -/

/-- `SELECT key, document_root FROM organizations ORDER BY key`. -/
def loadDocumentRoots (db : TenantDb) : List (String × String) :=
  (db.organizations.rows.map fun r => (r.2.key, r.2.document_root)).insertionSort
    fun r q => r.1 ≤ q.1

/-- One row of `domains JOIN organizations`; none for a domain whose
organization is gone. -/
def joinDomain (organizations : Table Organization) (d : Domain) : Option HostBinding :=
  (organizations.find? fun i _ => i == d.organization_id).map fun (_, o) =>
    { hostname := normalizeHostname d.hostname, organization := o.key
      document_root := o.document_root }

/-- `load_host_bindings`: in insertion order. -/
def loadHostBindings (db : TenantDb) : List HostBinding :=
  (db.domains.rows.insertionSort fun r q => r.1 ≤ q.1).filterMap fun r =>
    joinDomain db.organizations r.2

/-! ## The derivation -/

/-- `absolutize`: relative paths resolve against the working directory. -/
def absolutize (config : VhostConfig) (path : String) : String :=
  if path.toList.head? = some '/' then path
  else if config.current_dir.toList.getLast?.all (· == '/') then
    config.current_dir ++ path
  else config.current_dir ++ "/" ++ path

/-- `root_of`. -/
def rootOf (roots : List (String × String)) (key : String) : Option String :=
  (roots.find? fun r => r.1 == key).map Prod.snd

/-- `vhosts::cms_origin`: the first CMS host is the canonical one. -/
def cmsOrigin (config : VhostConfig) (bindings : List HostBinding) : String :=
  match bindings.find? fun b => b.organization == cmsOrganizationKey with
  | none => ""
  | some b =>
    match config.site_url with
    | some site_url => site_url
    | none =>
      let scheme := if config.tls_enabled then "https" else "http"
      let default_port := if config.tls_enabled then 443 else 80
      if config.port ≠ 0 ∧ config.port ≠ default_port then
        scheme ++ "://" ++ b.hostname ++ ":" ++ toString config.port
      else scheme ++ "://" ++ b.hostname

/-- `tenant_trees`: one tree per tenant organization, in first-seen order. -/
def tenantTrees (bindings : List HostBinding) : List (String × String) :=
  bindings.foldl (fun tenants b =>
    if b.organization != mainOrganizationKey && b.organization != cmsOrganizationKey &&
        !tenants.any fun t => t.1 == b.organization
    then tenants ++ [(b.organization, b.document_root)] else tenants) []

/-- `VhostData::from_database`, then the snapshot `refresh_vhost_state` builds
of it. -/
def snapshotOf (config : VhostConfig) (roots : List (String × String))
    (bindings : List HostBinding) : VhostSnapshot :=
  let bindings := bindings.map fun b =>
    { b with
      document_root := absolutize config b.document_root }
  { main_root := absolutize config
      ((rootOf roots mainOrganizationKey).getD config.root_dir)
    cms_origin := cmsOrigin config bindings
    bindings := bindings
    tenants := tenantTrees bindings }

/-- What the database says the routing is. -/
def derived (config : VhostConfig) (db : TenantDb) : VhostSnapshot :=
  snapshotOf config (loadDocumentRoots db) (loadHostBindings db)

/-! ## What the routing depends on -/

/-- Of the roots a snapshot depends on the main organization's only. -/
theorem snapshotOf_congr {config : VhostConfig} {roots roots' : List (String × String)}
    (h : rootOf roots mainOrganizationKey = rootOf roots' mainOrganizationKey)
    (bindings : List HostBinding) :
    snapshotOf config roots bindings = snapshotOf config roots' bindings := by
  simp only [snapshotOf, h]

theorem rootOf_loadDocumentRoots (db : TenantDb) (key : String) :
    rootOf (loadDocumentRoots db) key =
      (findOrganization db.toPanelDb key).map fun r => r.2.document_root := by
  rw [rootOf, loadDocumentRoots, find?_insertionSort, List.find?_map, Option.map_map]
  · rfl
  · intro r q hr hq
    simp [beq_iff_eq.mp hr, beq_iff_eq.mp hq]

/-- Host names point at organizations that exist or existed: no id beyond those
handed out. -/
def KnownOwners (db : TenantDb) : Prop :=
  ∀ i d, (i, d) ∈ db.domains.rows → d.organization_id ≤ db.organizations.seq

theorem find?_insert_of_le {organizations : Table Organization} {o : Organization}
    {id : ℕ} (h : id ≤ organizations.seq) :
    ((organizations.insert o).find? fun i _ => i == id) =
      organizations.find? fun i _ => i == id := by
  have hne : organizations.nextId ≠ id := by
    simp only [Table.nextId]
    omega
  simp [Table.find?, Table.insert, List.find?_append, hne]

/-- **A new tenant routes nowhere**: creating it leaves the routing as it is. -/
theorem routing_createOrganization {db db' : TenantDb}
    {key name root : String} {now : ℤ} (hknown : KnownOwners db)
    (hkey : key ≠ mainOrganizationKey)
    (h : createOrganization db key name root now = .ok db') :
    rootOf (loadDocumentRoots db') mainOrganizationKey =
        rootOf (loadDocumentRoots db) mainOrganizationKey ∧
      loadHostBindings db' = loadHostBindings db := by
  obtain ⟨_, rfl⟩ := createOrganization_ok h
  constructor
  · rw [rootOf_loadDocumentRoots, rootOf_loadDocumentRoots]
    have hmiss : (key == mainOrganizationKey) = false := by simpa using hkey
    simp [findOrganization, Table.find?, Table.insert, List.find?_append, hmiss]
  · apply List.filterMap_congr
    rintro ⟨i, d⟩ hd
    have hle := hknown i d ((List.mem_insertionSort _).mp hd)
    simp only [joinDomain, find?_insert_of_le hle]

end Wallermax.Tenants
