import Wallermax.Templates.Middleware

/-!
# Where a request goes

`vhosts::classify` over the bindings of the live snapshot, and what its readers
make of it: the dispatcher of `vhost_routes` picks a tree, the templates
middleware takes the class and whether anything is mapped, and `organization_key`
scopes the globals, the guards and the handlers. Each of them reads the snapshot
for itself.
-/

namespace Wallermax.Tenants

open Wallermax.Accounts

inductive HostClass : Type where
  | cms
  | main
  | tenant (binding : HostBinding)
deriving DecidableEq

/-- The class of a host that is mapped. -/
def HostBinding.hostClass (b : HostBinding) : HostClass :=
  if b.organization = cmsOrganizationKey then .cms
  else if b.organization = mainOrganizationKey then .main
  else .tenant b

/-- The host of the request has the binding's name. -/
def HostBinding.names (raw : String) (b : HostBinding) : Bool :=
  Templates.eqIgnoreAsciiCase b.hostname.toList (Templates.hostName raw)

/-- `vhosts::classify`; no host for a missing or duplicated header. -/
def classify (host : Option String) (bindings : List HostBinding) : HostClass :=
  match host with
  | none => .main
  | some raw =>
    match bindings.find? (HostBinding.names raw) with
    | none => .main
    | some b => b.hostClass

/-- `HostClass::organization`. -/
def HostClass.organization : HostClass → Option String
  | .tenant b => some b.organization
  | _ => none

/-- `vhosts::organization_key`: the CMS organization off the tenants' hosts. -/
def organizationKey (host : Option String) (bindings : List HostBinding) : String :=
  (classify host bindings).organization.getD cmsOrganizationKey

/-- A route tree; a tenant's is built from the organization and its root. -/
inductive Tree : Type where
  | singleHost
  | main
  | cms
  | tenant (organization document_root : String)
deriving DecidableEq

/-- The trees that merge `tenants::routes` and `cms::platform_routes`. -/
def Tree.mountsPanel : Tree → Bool
  | .singleHost => true
  | .cms => true
  | _ => false

/-- The tree the dispatcher calls; `none` where its `expect` panics. -/
def treeOf (snapshot : VhostSnapshot) : HostClass → Option Tree
  | .cms => some .cms
  | .main => some .main
  | .tenant binding =>
      (snapshot.tenants.find? fun t => t.1 == binding.organization).map fun (key, root) =>
        .tenant key root

/-- The tree behind the middleware. Which of the two routers stands there was
chosen at boot. -/
def dispatch (single_host : Bool) (snapshot : VhostSnapshot) (host : Option String) :
    Option Tree :=
  if single_host then some .singleHost else treeOf snapshot (classify host snapshot.bindings)

/-- What `templates::run` reads: whether any host is mapped, and the class. -/
def middlewareView (snapshot : VhostSnapshot) (host : Option String) : Bool × HostClass :=
  (!snapshot.bindings.isEmpty, classify host snapshot.bindings)

/-! ## The trees of a snapshot -/

/-- Building the trees adds one for each tenant of the bindings and keeps those
there are. -/
theorem mem_tenantTrees_foldl {trees : List (String × String)} {bindings : List HostBinding}
    {key : String} :
    (∃ root, (key, root) ∈ bindings.foldl (fun tenants b =>
        if b.organization != mainOrganizationKey && b.organization != cmsOrganizationKey &&
            !tenants.any fun t => t.1 == b.organization
        then tenants ++ [(b.organization, b.document_root)] else tenants) trees) ↔
      (∃ root, (key, root) ∈ trees) ∨ ∃ b ∈ bindings, b.organization = key ∧
        key ≠ mainOrganizationKey ∧ key ≠ cmsOrganizationKey := by
  induction bindings generalizing trees with
  | nil => simp
  | cons b bindings ih =>
      rw [List.foldl_cons, ih]
      simp only [List.mem_cons, exists_eq_or_imp]
      constructor
      · rintro (⟨root, hroot⟩ | hrest)
        · split at hroot
          · rename_i hnew
            simp only [Bool.and_eq_true, bne_iff_ne, ne_eq] at hnew
            rcases List.mem_append.mp hroot with hold | hadded
            · exact .inl ⟨root, hold⟩
            · obtain ⟨rfl, rfl⟩ := Prod.mk.inj (List.mem_singleton.mp hadded)
              exact .inr (.inl ⟨rfl, hnew.1.1, hnew.1.2⟩)
          · exact .inl ⟨root, hroot⟩
        · exact .inr (.inr hrest)
      · rintro (⟨root, hroot⟩ | ⟨rfl, hmain, hcms⟩ | hrest)
        · refine .inl ⟨root, ?_⟩
          split
          · exact List.mem_append_left _ hroot
          · exact hroot
        · left
          by_cases hany : (trees.any fun t => t.1 == b.organization) = true
          · obtain ⟨⟨k, root⟩, ht, hk⟩ := List.any_eq_true.mp hany
            obtain rfl := beq_iff_eq.mp hk
            refine ⟨root, ?_⟩
            simp [hany, ht]
          · refine ⟨b.document_root, ?_⟩
            simp [hany, hmain, hcms]
        · exact .inr hrest

/-- **Every mapped tenant has its tree.** -/
theorem exists_tree {bindings : List HostBinding} {b : HostBinding} (hb : b ∈ bindings)
    (hmain : b.organization ≠ mainOrganizationKey) (hcms : b.organization ≠ cmsOrganizationKey) :
    ∃ root, (b.organization, root) ∈ tenantTrees bindings :=
  mem_tenantTrees_foldl.mpr (.inr ⟨b, hb, rfl, hmain, hcms⟩)

/-- The snapshots the server builds: the trees are those of the bindings. -/
def VhostSnapshot.Built (snapshot : VhostSnapshot) : Prop :=
  snapshot.tenants = tenantTrees snapshot.bindings

theorem built_snapshotOf (config : VhostConfig) (roots : List (String × String))
    (bindings : List HostBinding) : (snapshotOf config roots bindings).Built := rfl

theorem classify_tenant {host : Option String} {bindings : List HostBinding} {b : HostBinding}
    (h : classify host bindings = .tenant b) :
    b ∈ bindings ∧ b.organization ≠ mainOrganizationKey ∧
      b.organization ≠ cmsOrganizationKey := by
  unfold classify at h
  split at h
  · cases h
  · split at h
    · cases h
    · rename_i c hfind
      unfold HostBinding.hostClass at h
      split at h
      · cases h
      · split at h
        · cases h
        · cases h
          exact ⟨List.mem_of_find?_eq_some hfind, by assumption, by assumption⟩

/-- The dispatcher's `expect` holds: of a built snapshot every host finds its
tree, and a tenant's host the tree of its organization. -/
theorem treeOf_some {snapshot : VhostSnapshot} (h : snapshot.Built) (host : Option String) :
    ∃ tree, treeOf snapshot (classify host snapshot.bindings) = some tree ∧
      ∀ b, classify host snapshot.bindings = .tenant b →
        ∃ root, tree = .tenant b.organization root := by
  cases hclass : classify host snapshot.bindings with
  | cms => exact ⟨.cms, rfl, nofun⟩
  | main => exact ⟨.main, rfl, nofun⟩
  | tenant b =>
      obtain ⟨hb, hmain, hcms⟩ := classify_tenant hclass
      obtain ⟨root, hroot⟩ := exists_tree hb hmain hcms
      rw [← h] at hroot
      have hfound : (snapshot.tenants.find? fun t => t.1 == b.organization).isSome := by
        rw [List.find?_isSome]
        exact ⟨_, hroot, beq_self_eq_true _⟩
      obtain ⟨⟨key, r⟩, hfind⟩ := Option.isSome_iff_exists.mp hfound
      have hkey : key = b.organization := by simpa using List.find?_some hfind
      refine ⟨.tenant key r, by simp [treeOf, hfind], ?_⟩
      rintro c hc
      cases hc
      exact ⟨r, by rw [hkey]⟩

/-! ## The middleware's classes -/

/-- The classes of the templates middleware are these, over bindings whose roots
are absolute. -/
theorem classify_middleware (host : Option String) (bindings : List Templates.Binding) :
    match classify host (bindings.map (·.toHostBinding)) with
    | .cms => Templates.classify host bindings = .cms
    | .main => Templates.classify host bindings = .main
    | .tenant b => ∃ c ∈ bindings, c.toHostBinding = b ∧
        Templates.classify host bindings = .tenant c.root := by
  cases host with
  | none => rfl
  | some raw =>
      have hfind : (bindings.map (·.toHostBinding)).find? (HostBinding.names raw) =
          (bindings.find? fun b =>
            Templates.eqIgnoreAsciiCase b.hostname.toList (Templates.hostName raw)).map
            (·.toHostBinding) := by
        rw [List.find?_map]
        rfl
      simp only [classify, Templates.classify, hfind]
      cases hbound : bindings.find? fun b =>
          Templates.eqIgnoreAsciiCase b.hostname.toList (Templates.hostName raw) with
      | none => rfl
      | some c =>
          simp only [Option.map_some, HostBinding.hostClass]
          by_cases hcms : c.organization = cmsOrganizationKey
          · simp [hcms]
          · by_cases hmain : c.organization = mainOrganizationKey
            · simp [hmain, show mainOrganizationKey ≠ cmsOrganizationKey by decide]
            · simp only [if_neg hcms, if_neg hmain]
              exact ⟨c, List.mem_of_find?_eq_some hbound, rfl, rfl⟩

end Wallermax.Tenants
