import Mathlib.Data.List.Flatten
import Wallermax.Base.PatternTable
import Wallermax.Config.Validation

/-!
# The route trees

Every feature area has its fragment of routes, and a tree is what its fragments merge to,
those that are switched off left out. The router is the web framework's: registering a
path panics unless the path starts with a slash, its captures are well formed and it
overlaps no path that is already there. A path comes again for another method.
-/

namespace Wallermax.Config

open Wallermax.Base

/-! ## The router -/

/-- The method of a registered handler; `get` answers `HEAD` too. -/
inductive Method : Type where
  | get
  | post
deriving DecidableEq

abbrev Route : Type := String × Method

abbrev Router : Type := List Route

/-- What the framework's router says about paths that start with a slash. -/
structure Axum : Type where
  capturesOk : String → Bool
  overlaps : String → String → Bool
  overlaps_comm : ∀ p q, overlaps p q = overlaps q p

def isAbsolutePath (path : String) : Bool := Content.startsWith path "/"

/-- `Router::route`. -/
def Axum.rules (axum : Axum) : PatternRules String where
  wellFormed := fun path => isAbsolutePath path && axum.capturesOk path
  overlaps := axum.overlaps
  overlaps_comm := axum.overlaps_comm

/-- `Router::merge` with a router built from the fragment; `none` where either panics. -/
def merge (axum : Axum) (router fragment : Router) : Option Router := do
  let other ← axum.rules.registerAll [] fragment
  axum.rules.registerAll router other

/-- A fragment, and whether its feature is on. -/
abbrev Mount : Type := Bool × Router

def mounted (mounts : List Mount) : List Router := (mounts.filter (·.1)).map (·.2)

def build (axum : Axum) (mounts : List Mount) : Option Router :=
  (mounted mounts).foldlM (merge axum) []

/-! ## The fragments -/

def indexRoutes : Router := [("/api", .get)]

def rootRoutes : Router := [("/", .get)]

def healthRoutes : Router := [("/health", .get)]

def statsRoutes : Router := [("/api/stats", .get)]

def echoRoutes : Router := [("/api/echo", .post)]

def authRoutes (refresh_enabled : Bool) : Router :=
  [("/api/auth/register", .post), ("/api/auth/login", .post), ("/api/auth/me", .get)] ++
    if refresh_enabled then
      [("/api/auth/refresh", .post), ("/api/auth/logout", .post), ("/api/auth/logout_all", .post)]
    else []

def adminRoutes : Router := [("/api/admin/users", .get)]

def cmsRoutes : Router :=
  [("/p", .get), ("/p/{slug}", .get), ("/sitemap.xml", .get), ("/feed.xml", .get),
    ("/atom.xml", .get), ("/profile/password", .post), ("/perfil/password", .post),
    ("/admin", .get), ("/admin/theme", .get), ("/admin/pages", .get), ("/admin/pages", .post),
    ("/admin/pages/new", .get), ("/admin/pages/preview", .post),
    ("/admin/pages/{id}/edit", .get), ("/admin/pages/{id}", .post),
    ("/admin/pages/{id}/delete", .post), ("/admin/pages/{id}/history", .get),
    ("/admin/pages/{id}/history/{revision}", .get),
    ("/admin/pages/{id}/history/{revision}/restore", .post), ("/admin/menus", .get),
    ("/admin/menus", .post), ("/admin/menus/{id}", .get), ("/admin/menus/{id}", .post),
    ("/admin/menus/{id}/delete", .post), ("/admin/menus/{id}/items/new", .get),
    ("/admin/menus/{id}/items", .post), ("/admin/menus/{id}/items/{item_id}/edit", .get),
    ("/admin/menus/{id}/items/{item_id}", .post),
    ("/admin/menus/{id}/items/{item_id}/delete", .post)]

def platformRoutes : Router :=
  [("/admin/pages/import", .get), ("/admin/pages/import", .post), ("/admin/users", .get),
    ("/admin/users", .post), ("/admin/users/new", .get), ("/admin/users/{id}/edit", .get),
    ("/admin/users/{id}", .post), ("/admin/users/{id}/delete", .post)]

def mediaRoutes : Router :=
  [("/admin/media", .get), ("/admin/media", .post), ("/admin/media/{id}", .get),
    ("/admin/media/{id}/alt", .post), ("/admin/media/{id}/delete", .post),
    ("/media/thumb/{id}", .get), ("/media/{id}/{filename}", .get)]

def searchRoutes : Router := [("/search", .get), ("/buscar", .get)]

def tenantsRoutes : Router :=
  [("/admin/tenants", .get), ("/admin/tenants/new", .get), ("/admin/tenants", .post),
    ("/admin/tenants/{key}", .get), ("/admin/tenants/{key}", .post),
    ("/admin/tenants/{key}/delete", .post), ("/admin/tenants/{key}/domains", .post),
    ("/admin/tenants/{key}/domains/{hostname}/delete", .post),
    ("/admin/tenants/{key}/members", .post),
    ("/admin/tenants/{key}/members/{user_id}/delete", .post)]

def teamRoutes : Router :=
  [("/admin/team", .get), ("/admin/team", .post), ("/admin/team/{user_id}/delete", .post)]

def externalApiRoutes : Router :=
  [("/api/ext/{name}", .get), ("/api/ext/{name}", .post), ("/api/ext/{name}/{*subpath}", .get),
    ("/api/ext/{name}/{*subpath}", .post)]

def metricsRoutes (path : String) : Router := [(path, .get)]

/-- `static_files::routes`, and the one route of `tenant_routes`. -/
def staticRoutes : Router := [("/", .get)]

/-! ## The trees -/

/-- What the trees are assembled from. -/
structure Features : Type where
  auth_enabled : Bool
  refresh_enabled : Bool
  static_enabled : Bool
  metrics : MetricsConfig
  cms_enabled : Bool
  external_api_enabled : Bool

/-- `routes`. -/
def singleHostMounts (f : Features) : List Mount :=
  [(true, indexRoutes), (true, healthRoutes), (true, statsRoutes), (true, echoRoutes),
    (f.auth_enabled, authRoutes f.refresh_enabled), (f.auth_enabled, adminRoutes),
    (f.cms_enabled, cmsRoutes), (f.cms_enabled, platformRoutes), (f.cms_enabled, mediaRoutes),
    (f.cms_enabled, searchRoutes), (f.cms_enabled, tenantsRoutes),
    (f.external_api_enabled, externalApiRoutes),
    (f.metrics.enabled, metricsRoutes f.metrics.path),
    (true, if f.static_enabled then staticRoutes else rootRoutes)]

/-- The main tree of `vhost_routes`. -/
def mainMounts (f : Features) : List Mount :=
  [(true, indexRoutes), (true, healthRoutes), (true, statsRoutes), (true, echoRoutes),
    (f.auth_enabled, authRoutes f.refresh_enabled), (f.auth_enabled, adminRoutes),
    (f.external_api_enabled, externalApiRoutes),
    (f.metrics.enabled, metricsRoutes f.metrics.path),
    (true, if f.static_enabled then staticRoutes else rootRoutes)]

/-- The CMS tree of `vhost_routes`. -/
def cmsMounts (f : Features) : List Mount :=
  [(f.cms_enabled, cmsRoutes), (f.cms_enabled, platformRoutes), (f.cms_enabled, mediaRoutes),
    (f.cms_enabled, searchRoutes), (f.cms_enabled, tenantsRoutes),
    (f.auth_enabled, authRoutes f.refresh_enabled)]

/-- One tree of `tenant_trees`. -/
def tenantMounts (f : Features) : List Mount :=
  [(f.cms_enabled, cmsRoutes), (f.cms_enabled, mediaRoutes), (f.cms_enabled, searchRoutes),
    (f.cms_enabled, teamRoutes), (f.auth_enabled, authRoutes f.refresh_enabled),
    (true, staticRoutes)]

/-- The fragments with fixed paths. -/
def ownFragments (refresh_enabled : Bool) : List Router :=
  [indexRoutes, healthRoutes, statsRoutes, echoRoutes, authRoutes refresh_enabled, adminRoutes,
    cmsRoutes, platformRoutes, mediaRoutes, searchRoutes, tenantsRoutes, teamRoutes,
    externalApiRoutes, rootRoutes]

/-- The paths the repository writes out are ones the router takes. -/
def AcceptsOwn (axum : Axum) : Prop :=
  ∀ r ∈ (ownFragments true).flatten, axum.capturesOk r.1 = true ∧
    ∀ q ∈ (ownFragments true).flatten, r.1 ≠ q.1 → axum.overlaps r.1 q.1 = false

/-! ## Merging -/

variable {axum : Axum}

theorem merge_eq_some {router fragment router' : Router} (h : axum.rules.Fits router) :
    merge axum router fragment = some router' ↔
      router' = router ++ fragment ∧ axum.rules.Fits (router ++ fragment) := by
  rw [merge, Option.bind_eq_bind, Option.bind_eq_some_iff]
  constructor
  · rintro ⟨other, hother, hmerge⟩
    obtain ⟨rfl, -⟩ := PatternRules.registerAll_nil_eq_some.mp hother
    exact (PatternRules.registerAll_eq_some h).mp hmerge
  · rintro ⟨rfl, hfits⟩
    refine ⟨fragment, PatternRules.registerAll_nil_eq_some.mpr ⟨rfl, ?_⟩,
      (PatternRules.registerAll_eq_some h).mpr ⟨rfl, hfits⟩⟩
    exact hfits.of_subset (List.nodup_append.mp hfits.nodup).2.1 (List.subset_append_right _ _)

theorem foldlM_merge {router router' : Router} {fragments : List Router}
    (h : axum.rules.Fits router) : fragments.foldlM (merge axum) router = some router' ↔
      router' = router ++ fragments.flatten ∧ axum.rules.Fits (router ++ fragments.flatten) := by
  induction fragments generalizing router with
  | nil =>
    rw [List.flatten_nil, List.append_nil]
    constructor
    · intro hsome
      exact ⟨(Option.some.inj hsome).symm, h⟩
    · rintro ⟨rfl, -⟩
      rfl
  | cons fragment fragments ih =>
    rw [List.foldlM_cons, Option.bind_eq_bind, Option.bind_eq_some_iff, List.flatten_cons,
      ← List.append_assoc]
    constructor
    · rintro ⟨next, hnext, hrest⟩
      obtain ⟨rfl, hfits⟩ := (merge_eq_some h).mp hnext
      exact (ih hfits).mp hrest
    · rintro ⟨rfl, hfits⟩
      have hnext : axum.rules.Fits (router ++ fragment) := hfits.of_subset
        (hfits.nodup.sublist (List.sublist_append_left _ _)) (List.subset_append_left _ _)
      exact ⟨router ++ fragment, (merge_eq_some h).mpr ⟨rfl, hnext⟩, (ih hnext).mpr ⟨rfl, hfits⟩⟩

/-- **A tree is assembled** exactly if the routes of its fragments fit in one table. -/
theorem build_eq_some {mounts : List Mount} {router : Router} :
    build axum mounts = some router ↔
      router = (mounted mounts).flatten ∧ axum.rules.Fits (mounted mounts).flatten :=
  foldlM_merge PatternRules.Fits.nil

theorem build_isSome {mounts : List Mount} :
    (build axum mounts).isSome ↔ axum.rules.Fits (mounted mounts).flatten := by
  rw [Option.isSome_iff_exists]
  constructor
  · rintro ⟨router, hrouter⟩
    exact (build_eq_some.mp hrouter).2
  · intro h
    exact ⟨_, build_eq_some.mpr ⟨rfl, h⟩⟩

theorem mounted_append (mounts others : List Mount) :
    mounted (mounts ++ others) = mounted mounts ++ mounted others := by
  rw [mounted, List.filter_append, List.map_append]
  rfl

theorem mounted_cons_true (fragment : Router) (mounts : List Mount) :
    mounted ((true, fragment) :: mounts) = fragment :: mounted mounts := rfl

theorem mounted_cons_false (fragment : Router) (mounts : List Mount) :
    mounted ((false, fragment) :: mounts) = mounted mounts := rfl

theorem mounted_sublist (mounts : List Mount) : (mounted mounts).Sublist (mounts.map (·.2)) :=
  List.filter_sublist.map _

/-- One more path in a tree. -/
structure Registrable (axum : Axum) (router : Router) (path : String) : Prop where
  absolute : isAbsolutePath path = true
  captures : axum.capturesOk path = true
  fresh : (path, .get) ∉ router
  apart : ∀ r ∈ router, r.1 ≠ path → axum.overlaps r.1 path = false

theorem fits_append_get {router : Router} {path : String} :
    axum.rules.Fits (router ++ [(path, .get)]) ↔
      axum.rules.Fits router ∧ Registrable axum router path := by
  rw [PatternRules.fits_append_singleton]
  apply and_congr_right'
  have hwf : axum.rules.wellFormed path = (isAbsolutePath path && axum.capturesOk path) := rfl
  rw [hwf, Bool.and_eq_true]
  constructor
  · rintro ⟨⟨habsolute, hcaptures⟩, hcompatible⟩
    refine ⟨habsolute, hcaptures, fun hmem => ?_, fun r hr hne => ?_⟩
    · exact (PatternRules.compatible_iff.mp (hcompatible _ hmem)).1 rfl
    · exact (PatternRules.compatible_iff.mp (hcompatible r hr)).2 hne
  · intro h
    refine ⟨⟨h.absolute, h.captures⟩, fun r hr => PatternRules.compatible_iff.mpr ⟨?_, ?_⟩⟩
    · rintro rfl
      exact h.fresh hr
    · exact h.apart r hr

/-- A path somewhere in the middle of a tree. -/
theorem fits_mount {before after : List Mount} {enabled : Bool} {path : String} :
    axum.rules.Fits (mounted (before ++ (enabled, metricsRoutes path) :: after)).flatten ↔
      axum.rules.Fits (mounted (before ++ after)).flatten ∧
        (enabled = true → Registrable axum (mounted (before ++ after)).flatten path) := by
  cases enabled with
  | false => simp [mounted_append, mounted_cons_false]
  | true =>
    have hperm : (mounted (before ++ (true, metricsRoutes path) :: after)).flatten.Perm
        ((mounted (before ++ after)).flatten ++ [(path, .get)]) := by
      rw [mounted_append, mounted_cons_true, mounted_append, List.flatten_append,
        List.flatten_append, List.flatten_cons, List.append_assoc]
      exact List.perm_append_comm.append_left _
    have hfits : axum.rules.Fits
          (mounted (before ++ (true, metricsRoutes path) :: after)).flatten ↔
        axum.rules.Fits ((mounted (before ++ after)).flatten ++ [(path, .get)]) :=
      ⟨fun h => h.of_perm hperm, fun h => h.of_perm hperm.symm⟩
    rw [hfits, fits_append_get]
    simp

/-! ## The repository's own routes -/

/-- A number for each route, so that they are told apart by their numbers. -/
def routeCode (r : Route) : ℕ :=
  r.1.toByteArray.data.toList.foldl (fun n b => 256 * n + b.toNat)
    (match r.2 with | .get => 1 | .post => 2)

theorem ownFragments_true_nodup : (ownFragments true).flatten.Nodup :=
  List.Nodup.of_map routeCode (by decide +kernel)

theorem authRoutes_sublist (refresh_enabled : Bool) :
    (authRoutes refresh_enabled).Sublist (authRoutes true) := by
  cases refresh_enabled with
  | true => exact List.Sublist.refl _
  | false => exact List.sublist_append_left _ _

theorem ownFragments_sublist (refresh_enabled : Bool) :
    (ownFragments refresh_enabled).flatten.Sublist (ownFragments true).flatten := by
  have hauth := authRoutes_sublist refresh_enabled
  simp only [ownFragments, List.flatten_cons]
  iterate 4 apply List.Sublist.append (List.Sublist.refl _)
  exact List.Sublist.append hauth (List.Sublist.refl _)

theorem ownFragments_absolute :
    ∀ r ∈ (ownFragments true).flatten, isAbsolutePath r.1 = true := by decide +kernel

theorem fits_ownFragments (h : AcceptsOwn axum) (refresh_enabled : Bool) :
    axum.rules.Fits (ownFragments refresh_enabled).flatten := by
  have hall : axum.rules.Fits (ownFragments true).flatten :=
    { nodup := ownFragments_true_nodup
      wellFormed := fun r hr => by
        have hwf : axum.rules.wellFormed r.1 = (isAbsolutePath r.1 && axum.capturesOk r.1) := rfl
        rw [hwf, ownFragments_absolute r hr, (h r hr).1]
        rfl
      apart := fun r hr => (h r hr).2 }
  exact hall.of_subperm (ownFragments_sublist refresh_enabled).subperm

/-- A tree of the repository's fragments, some of them switched off. -/
theorem fits_own (h : AcceptsOwn axum) {mounts : List Mount} (refresh_enabled : Bool)
    (hown : (mounts.map (·.2)).Subperm (ownFragments refresh_enabled)) :
    axum.rules.Fits (mounted mounts).flatten := by
  obtain ⟨part, hperm, hpart⟩ := (mounted_sublist mounts).subperm.trans hown
  apply (fits_ownFragments h refresh_enabled).of_subperm
  exact ⟨part.flatten, hperm.flatten, hpart.flatten⟩

end Wallermax.Config
