import Wallermax.Config.Assembly

/-!
# What an accepted configuration still has to satisfy

`validate` looks at prefixes, suffixes and lower bounds. What runs on the configuration
needs more of it: an origin without control characters, a metrics path that is registered
as written and not as trimmed, and lifetimes with an upper bound.
-/

namespace Wallermax.Config

open Wallermax.Base
open Wallermax.Auth (isHeaderText isHeaderText_iff)
open Wallermax.Tenants (HostBinding)

/-! ## Safe to run -/

/-- The server is assembled without a panic, and for every clock below 2⁴⁰ the expiries it
computes are in the future. -/
structure SafeToRun (axum : Axum) (bindings : List HostBinding) (config : AppConfig) : Prop where
  assembled : (buildApp axum bindings config).isSome
  token : authEnabled config = true → ∀ (id : ℕ) (user : Accounts.User) (now : UInt64),
    now.toNat < 2 ^ 40 → ∃ claims, issueTokenAt config.auth id user now = some claims ∧
      now < claims.exp
  refresh_token : refreshEnabled config = true →
    ∀ (sha256 : List UInt8 → List UInt8) (user_id : ℕ) (family_id : Option ℕ) (value : String)
      (now : Int64), 0 ≤ now.toInt → now.toInt < 2 ^ 40 →
      ∃ token, issueRefreshToken sha256 config.auth user_id family_id value now = some token ∧
        now.toInt < token.expires_at

/-- The section with the endpoint switched off. -/
def Features.withoutMetrics (f : Features) : Features :=
  { f with metrics := { f.metrics with enabled := false } }

/-- What the endpoint is mounted beside. -/
def operatorRoutes (f : Features) (bindings : List HostBinding) : Router :=
  if bindings.isEmpty then (mounted (singleHostMounts f.withoutMetrics)).flatten
  else (mounted (mainMounts f.withoutMetrics)).flatten

/-- The condition that the checks leave to the operator. -/
structure Sound (axum : Axum) (bindings : List HostBinding) (config : AppConfig) : Prop where
  origins : config.middleware.cors = true → config.cors.allowed_origins ≠ ["*"] →
    ∀ origin ∈ config.cors.allowed_origins,
      ¬∃ c ∈ origin.toList, (c.toNat < 0x20 ∧ c ≠ '\t') ∨ c.toNat = 0x7F
  metrics : config.metrics.enabled = true →
    Registrable axum (operatorRoutes (features config) bindings) config.metrics.path
  token_ttl : authEnabled config = true → config.auth.token_ttl_secs.toNat ≤ 2 ^ 64 - 2 ^ 40
  refresh_ttl : refreshEnabled config = true →
    config.auth.refresh_token_ttl_secs.toNat ≤ 2 ^ 63 - 2 ^ 40

/-! ## What is accepted -/

variable {lib : Libraries} {config merged : AppConfig}

theorem load_eq_ok (h : load lib merged = .ok config) : validate lib config = .ok () := by
  unfold load at h
  cases hvalid : validate lib (normalize merged) with
  | error message =>
    rw [hvalid] at h
    exact absurd h (by simp [bind, Except.bind])
  | ok =>
    rw [hvalid] at h
    obtain rfl := Except.ok.inj h
    exact hvalid

/-- A wildcard stands alone. -/
theorem accepted_wildcard (h : validate lib config = .ok ())
    (hmem : "*" ∈ config.cors.allowed_origins) : config.cors.allowed_origins = ["*"] := by
  have hcors : validateCors config.cors = .ok () := by
    simp only [validate, sequence_ok] at h
    exact h.2.2.2.2.2.1
  have horigin := checkEach_ok.mp hcors "*" hmem
  rw [validateOrigin, if_pos rfl, sequence_ok, refuseIf_ok, refuseIf_ok,
    decide_eq_false_iff_not, not_lt] at horigin
  obtain ⟨origin, hsingle⟩ := List.length_eq_one_iff.mp
    (le_antisymm horigin.2 (List.length_pos_of_mem hmem))
  rw [hsingle] at hmem ⊢
  rw [List.mem_singleton.mp hmem]

theorem accepted_lifetimes (h : validate lib config = .ok ()) (hauth : authEnabled config = true) :
    config.auth.token_ttl_secs ≠ 0 ∧ config.auth.refresh_token_ttl_secs ≠ 0 := by
  have hvalid : validateAuth config = .ok () := by
    simp only [validate, sequence_ok] at h
    exact h.2.2.2.2.2.2.2.2.2.1
  have henabled : (!config.auth.enabled) = false := by
    rw [authEnabled, Bool.and_eq_true] at hauth
    rw [hauth.2]
    rfl
  rw [validateAuth, henabled] at hvalid
  simp only [Bool.false_eq_true, if_false, sequence_ok, refuseIf_ok] at hvalid
  exact ⟨by simpa using hvalid.2.2.1, by simpa using hvalid.2.2.2.2.2.1⟩

/-! ## The trees -/

section

variable {axum : Axum}

theorem rootMount_eq (static_enabled : Bool) :
    (if static_enabled then staticRoutes else rootRoutes) = rootRoutes := by
  cases static_enabled <;> rfl

theorem mounted_withoutMetrics (before after : List Mount) (fragment : Router) :
    mounted (before ++ (false, fragment) :: after) = mounted (before ++ after) := by
  rw [mounted_append, mounted_cons_false, ← mounted_append]

/-- A tree of operator machinery is assembled exactly if the metrics path can be added to
what it is with metrics off. -/
theorem build_withMetrics (h : AcceptsOwn axum) (f : Features) {mounts off : List Mount}
    (before after : List Mount)
    (hmounts : mounts =
      before ++ (f.metrics.enabled, metricsRoutes f.metrics.path) :: after)
    (hoff : off = before ++ (false, metricsRoutes f.metrics.path) :: after)
    (hown : ((before ++ after).map (·.2)).Subperm (ownFragments f.refresh_enabled)) :
    (build axum mounts).isSome ↔ (f.metrics.enabled = true →
      Registrable axum (mounted off).flatten f.metrics.path) := by
  rw [hmounts, hoff, mounted_withoutMetrics, build_isSome, fits_mount]
  exact and_iff_right (fits_own h f.refresh_enabled hown)

theorem singleHost_isSome (h : AcceptsOwn axum) (f : Features) :
    (build axum (singleHostMounts f)).isSome ↔ (f.metrics.enabled = true →
      Registrable axum (mounted (singleHostMounts f.withoutMetrics)).flatten f.metrics.path) := by
  apply build_withMetrics h f ((singleHostMounts f).take 12) ((singleHostMounts f).drop 13) rfl rfl
  have hfragments : ((singleHostMounts f).take 12 ++ (singleHostMounts f).drop 13).map (·.2) =
      [indexRoutes, healthRoutes, statsRoutes, echoRoutes, authRoutes f.refresh_enabled,
        adminRoutes, cmsRoutes, platformRoutes, mediaRoutes, searchRoutes, tenantsRoutes,
        externalApiRoutes, if f.static_enabled then staticRoutes else rootRoutes] := rfl
  rw [hfragments, rootMount_eq, ownFragments]
  apply List.Sublist.subperm
  iterate 11 apply List.Sublist.cons_cons
  apply List.Sublist.cons
  exact List.Sublist.refl _

theorem main_isSome (h : AcceptsOwn axum) (f : Features) :
    (build axum (mainMounts f)).isSome ↔ (f.metrics.enabled = true →
      Registrable axum (mounted (mainMounts f.withoutMetrics)).flatten f.metrics.path) := by
  apply build_withMetrics h f ((mainMounts f).take 7) ((mainMounts f).drop 8) rfl rfl
  have hfragments : ((mainMounts f).take 7 ++ (mainMounts f).drop 8).map (·.2) =
      [indexRoutes, healthRoutes, statsRoutes, echoRoutes, authRoutes f.refresh_enabled,
        adminRoutes, externalApiRoutes,
        if f.static_enabled then staticRoutes else rootRoutes] := rfl
  rw [hfragments, rootMount_eq, ownFragments]
  apply List.Sublist.subperm
  iterate 6 apply List.Sublist.cons_cons
  iterate 6 apply List.Sublist.cons
  exact List.Sublist.refl _

/-- The auth routes come last here. -/
theorem cms_isSome (h : AcceptsOwn axum) (f : Features) :
    (build axum (cmsMounts f)).isSome := by
  apply build_isSome.mpr
  apply fits_own h f.refresh_enabled
  refine ⟨authRoutes f.refresh_enabled ::
    [cmsRoutes, platformRoutes, mediaRoutes, searchRoutes, tenantsRoutes],
    (List.perm_append_singleton _ _).symm, ?_⟩
  rw [ownFragments]
  iterate 4 apply List.Sublist.cons
  apply List.Sublist.cons_cons
  apply List.Sublist.cons
  iterate 5 apply List.Sublist.cons_cons
  exact List.nil_sublist _

theorem tenant_isSome (h : AcceptsOwn axum) (f : Features) :
    (build axum (tenantMounts f)).isSome := by
  apply build_isSome.mpr
  apply fits_own h f.refresh_enabled
  refine ⟨authRoutes f.refresh_enabled ::
    ([cmsRoutes, mediaRoutes, searchRoutes, teamRoutes] ++ [staticRoutes]),
    List.perm_middle.symm, ?_⟩
  rw [ownFragments]
  iterate 4 apply List.Sublist.cons
  apply List.Sublist.cons_cons
  apply List.Sublist.cons
  apply List.Sublist.cons_cons
  apply List.Sublist.cons
  iterate 2 apply List.Sublist.cons_cons
  apply List.Sublist.cons
  apply List.Sublist.cons_cons
  apply List.Sublist.cons
  exact List.Sublist.refl _

theorem mapM_isSome {α β : Type} {f : α → Option β} {items : List α} :
    (items.mapM f).isSome ↔ ∀ x ∈ items, (f x).isSome := by
  induction items with
  | nil => simp
  | cons x items ih =>
    rw [List.mapM_cons, List.forall_mem_cons, ← ih]
    cases f x with
    | none => simp
    | some y => cases items.mapM f <;> simp

theorem tenantTrees_isSome (h : AcceptsOwn axum) (f : Features) (bindings : List HostBinding) :
    (tenantTrees axum f bindings).isSome := by
  apply mapM_isSome.mpr
  intro tenant _
  rw [Option.isSome_map]
  exact tenant_isSome h f

/-- **The trees** are assembled exactly if the metrics path can be added to the one that
mounts it. -/
theorem routeTree_isSome (h : AcceptsOwn axum) (f : Features) (bindings : List HostBinding) :
    (routeTree axum f bindings).isSome ↔ (f.metrics.enabled = true →
      Registrable axum (operatorRoutes f bindings) f.metrics.path) := by
  unfold routeTree operatorRoutes
  cases hbindings : bindings.isEmpty with
  | true =>
    rw [if_pos rfl, if_pos rfl, Option.isSome_map]
    exact singleHost_isSome h f
  | false =>
    rw [if_neg Bool.false_ne_true, if_neg Bool.false_ne_true, ← main_isSome h f]
    obtain ⟨cms_tree, hcms⟩ := Option.isSome_iff_exists.mp (cms_isSome h f)
    obtain ⟨tenants, htenants⟩ := Option.isSome_iff_exists.mp (tenantTrees_isSome h f bindings)
    unfold vhostRoutes
    rw [hcms, htenants]
    cases build axum (mainMounts f) <;> simp

end

/-! ## The middleware -/

theorem headerValue_isSome {value : String} :
    (headerValue value).isSome ↔ isHeaderText value.toList = true := by
  unfold headerValue
  split <;> simp_all

theorem mapM_headerValue {values values' : List String}
    (h : values.mapM headerValue = some values') : values' = values := by
  induction values generalizing values' with
  | nil => exact (Option.some.inj h).symm
  | cons value values ih =>
    rw [List.mapM_cons] at h
    by_cases hvalue : isHeaderText value.toList = true
    · rw [headerValue, if_pos hvalue] at h
      cases hrest : values.mapM headerValue with
      | none => simp [hrest] at h
      | some rest =>
        obtain rfl := ih hrest
        simpa [hrest] using h.symm
    · rw [headerValue, if_neg hvalue] at h
      exact absurd h (by simp)

/-- The CORS layer of an accepted list of origins. -/
theorem corsLayer_isSome (h : validate lib config = .ok ()) :
    (corsLayer config.cors).isSome ↔ (config.cors.allowed_origins ≠ ["*"] →
      ∀ origin ∈ config.cors.allowed_origins, isHeaderText origin.toList = true) := by
  unfold corsLayer
  by_cases hany : config.cors.allowed_origins = ["*"]
  · rw [if_pos hany]
    simp [hany]
  · have hwild : "*" ∉ config.cors.allowed_origins := fun hmem => hany (accepted_wildcard h hmem)
    have hvalues : (config.cors.allowed_origins.mapM headerValue).isSome ↔
        ∀ origin ∈ config.cors.allowed_origins, isHeaderText origin.toList = true := by
      rw [mapM_isSome]
      simp only [headerValue_isSome]
    rw [if_neg hany, forall_prop_of_true hany]
    rw [← hvalues]
    cases hmap : config.cors.allowed_origins.mapM headerValue with
    | none => simp
    | some values =>
      obtain rfl := mapM_headerValue hmap
      simp [allowOriginList, hwild]

theorem apply_isSome (h : validate lib config = .ok ()) :
    (apply config).isSome ↔ (config.middleware.cors = true →
      config.cors.allowed_origins ≠ ["*"] →
        ∀ origin ∈ config.cors.allowed_origins, isHeaderText origin.toList = true) := by
  rw [← corsLayer_isSome h]
  unfold apply
  cases config.middleware.cors with
  | false => simp
  | true => cases corsLayer config.cors <;> simp

theorem buildApp_isSome {axum : Axum} {bindings : List HostBinding} :
    (buildApp axum bindings config).isSome ↔
      (routeTree axum (features config) bindings).isSome ∧ (apply config).isSome := by
  unfold buildApp
  cases routeTree axum (features config) bindings with
  | none => simp
  | some trees => cases apply config <;> simp

/-! ## The lifetimes -/

theorem addU64_eq_some {a b c : UInt64} :
    addU64 a b = some c ↔ a.toNat + b.toNat < 2 ^ 64 ∧ a + b = c := by
  unfold addU64
  split <;> simp_all

theorem addI64_eq_some {a b c : Int64} : addI64 a b = some c ↔
    (-2 ^ 63 ≤ a.toInt + b.toInt ∧ a.toInt + b.toInt < 2 ^ 63) ∧ a + b = c := by
  unfold addI64
  split <;> simp_all

theorem toNat_addU64 {a b c : UInt64} (h : addU64 a b = some c) :
    c.toNat = a.toNat + b.toNat := by
  obtain ⟨hlt, rfl⟩ := addU64_eq_some.mp h
  rw [UInt64.toNat_add, Nat.mod_eq_of_lt hlt]

theorem toInt_addI64 {a b c : Int64} (h : addI64 a b = some c) :
    c.toInt = a.toInt + b.toInt := by
  obtain ⟨⟨hlow, hhigh⟩, rfl⟩ := addI64_eq_some.mp h
  rw [Int64.toInt_add, Int.bmod_eq_of_le (by simpa using hlow) (by simpa using hhigh)]

/-- The cast of a lifetime keeps it below 2⁶³ and makes it negative from there on. -/
theorem toInt_cast (ttl : UInt64) :
    ttl.toInt64.toInt = if ttl.toNat < 2 ^ 63 then (ttl.toNat : ℤ) else ttl.toNat - 2 ^ 64 := by
  have hcast : ttl.toInt64.toInt = ttl.toBitVec.toInt := rfl
  have hnat : ttl.toBitVec.toNat = ttl.toNat := rfl
  rw [hcast, BitVec.toInt_eq_toNat_cond, hnat]
  split <;> split <;> omega

/-- A lifetime within the bound is added as it is. -/
theorem addI64_lifetime {ttl : UInt64} {now : Int64} (hnonneg : 0 ≤ now.toInt)
    (hnow : now.toInt < 2 ^ 40) (h : ttl.toNat ≤ 2 ^ 63 - 2 ^ 40) :
    ∃ expires_at, addI64 now ttl.toInt64 = some expires_at ∧
      expires_at.toInt = now.toInt + ttl.toNat := by
  have hcast := toInt_cast ttl
  rw [if_pos (by omega)] at hcast
  have hsum : addI64 now ttl.toInt64 = some (now + ttl.toInt64) :=
    addI64_eq_some.mpr ⟨⟨by omega, by omega⟩, rfl⟩
  refine ⟨_, hsum, ?_⟩
  rw [toInt_addI64 hsum, hcast]

/-- **The access token**: with a lifetime of at least a second, every clock gets an expiry in
the future exactly if the last of them does not overflow. -/
theorem token_iff {auth : AuthConfig} (hpos : auth.token_ttl_secs ≠ 0) :
    (∀ (id : ℕ) (user : Accounts.User) (now : UInt64), now.toNat < 2 ^ 40 →
      ∃ claims, issueTokenAt auth id user now = some claims ∧ now < claims.exp) ↔
    auth.token_ttl_secs.toNat ≤ 2 ^ 64 - 2 ^ 40 := by
  have hpos' : 0 < auth.token_ttl_secs.toNat :=
    Nat.pos_of_ne_zero fun h => hpos (UInt64.toNat_inj.mp h)
  constructor
  · intro h
    obtain ⟨claims, hclaims, -⟩ := h 0 ⟨"", "", .user, 0, none⟩ (UInt64.ofNat (2 ^ 40 - 1))
      (by decide)
    obtain ⟨exp, hexp, -⟩ := Option.bind_eq_some_iff.mp hclaims
    have hlt := (addU64_eq_some.mp hexp).1
    have hclock : (UInt64.ofNat (2 ^ 40 - 1)).toNat = 2 ^ 40 - 1 := by decide
    omega
  · intro h id user now hnow
    have hexp : addU64 now auth.token_ttl_secs = some (now + auth.token_ttl_secs) :=
      addU64_eq_some.mpr ⟨by omega, rfl⟩
    refine ⟨_, by rw [issueTokenAt, hexp]; rfl, ?_⟩
    rw [UInt64.lt_iff_toNat_lt, toNat_addU64 hexp]
    omega

/-- **The refresh token**: the same for the signed sum. -/
theorem refresh_iff {auth : AuthConfig} (hpos : auth.refresh_token_ttl_secs ≠ 0) :
    (∀ (sha256 : List UInt8 → List UInt8) (user_id : ℕ) (family_id : Option ℕ) (value : String)
        (now : Int64), 0 ≤ now.toInt → now.toInt < 2 ^ 40 →
      ∃ token, issueRefreshToken sha256 auth user_id family_id value now = some token ∧
        now.toInt < token.expires_at) ↔
    auth.refresh_token_ttl_secs.toNat ≤ 2 ^ 63 - 2 ^ 40 := by
  have hpos' : 0 < auth.refresh_token_ttl_secs.toNat :=
    Nat.pos_of_ne_zero fun h => hpos (UInt64.toNat_inj.mp h)
  constructor
  · intro h
    have hclock : (Int64.ofNat (2 ^ 40 - 1)).toInt = 2 ^ 40 - 1 := by decide
    obtain ⟨token, htoken, hfuture⟩ := h id 0 none "" (Int64.ofNat (2 ^ 40 - 1))
      (by rw [hclock]; decide) (by rw [hclock]; decide)
    obtain ⟨expires_at, hsum, hrow⟩ := Option.bind_eq_some_iff.mp htoken
    obtain rfl := Option.some.inj hrow
    have hbounds := (addI64_eq_some.mp hsum).1
    have hfuture' : (Int64.ofNat (2 ^ 40 - 1)).toInt < expires_at.toInt := hfuture
    rw [toInt_addI64 hsum] at hfuture'
    rw [hclock] at hbounds hfuture'
    have hcast := toInt_cast auth.refresh_token_ttl_secs
    have hlt := auth.refresh_token_ttl_secs.toNat_lt
    split_ifs at hcast <;> omega
  · intro h sha256 user_id family_id value now hnonneg hnow
    obtain ⟨expires_at, hsum, hexpires⟩ := addI64_lifetime hnonneg hnow h
    refine ⟨_, by rw [issueRefreshToken, hsum]; rfl, ?_⟩
    show now.toInt < expires_at.toInt
    omega

/-- Within the bound the row is the one the session endpoints insert. -/
theorem issueRefreshToken_eq {auth : AuthConfig} (sha256 : List UInt8 → List UInt8)
    (user_id : ℕ) (family_id : Option ℕ) (value : String) {now : Int64}
    (hnonneg : 0 ≤ now.toInt) (hnow : now.toInt < 2 ^ 40)
    (h : auth.refresh_token_ttl_secs.toNat ≤ 2 ^ 63 - 2 ^ 40) :
    issueRefreshToken sha256 auth user_id family_id value now =
      some (Auth.newRefreshToken (authContext sha256 auth) user_id family_id value now.toInt) := by
  obtain ⟨expires_at, hsum, hexpires⟩ := addI64_lifetime hnonneg hnow h
  rw [issueRefreshToken, hsum, Option.bind_eq_bind, Option.bind_some, hexpires]
  rfl

/-! ## The condition is exact -/

/-- **Safe to run**: of the configurations that are accepted, for whatever bindings the
database holds, exactly the sound ones run without a panic and start sessions that last. -/
theorem safeToRun_iff {axum : Axum} (haxum : AcceptsOwn axum) (bindings : List HostBinding)
    (h : load lib merged = .ok config) :
    SafeToRun axum bindings config ↔ Sound axum bindings config := by
  have hvalid := load_eq_ok h
  have hassembled : (buildApp axum bindings config).isSome ↔
      (config.metrics.enabled = true →
        Registrable axum (operatorRoutes (features config) bindings) config.metrics.path) ∧
      (config.middleware.cors = true → config.cors.allowed_origins ≠ ["*"] →
        ∀ origin ∈ config.cors.allowed_origins,
          ¬∃ c ∈ origin.toList, (c.toNat < 0x20 ∧ c ≠ '\t') ∨ c.toNat = 0x7F) := by
    rw [buildApp_isSome, routeTree_isSome haxum, apply_isSome hvalid]
    simp only [isHeaderText_iff]
    rfl
  have hlifetimes := accepted_lifetimes hvalid
  have hrefresh : refreshEnabled config = true → authEnabled config = true := fun hon =>
    (Bool.and_eq_true_iff.mp hon).1
  constructor
  · intro hsafe
    obtain ⟨hmetrics, horigins⟩ := hassembled.mp hsafe.assembled
    refine ⟨horigins, hmetrics, fun hon => ?_, fun hon => ?_⟩
    · exact (token_iff (hlifetimes hon).1).mp (hsafe.token hon)
    · exact (refresh_iff (hlifetimes (hrefresh hon)).2).mp (hsafe.refresh_token hon)
  · intro hsound
    refine ⟨hassembled.mpr ⟨hsound.metrics, hsound.origins⟩, fun hon => ?_, fun hon => ?_⟩
    · exact (token_iff (hlifetimes hon).1).mpr (hsound.token_ttl hon)
    · exact (refresh_iff (hlifetimes (hrefresh hon)).2).mpr (hsound.refresh_ttl hon)

/-! ## One router, two configurations -/

/-- The braces of a path match, and are not nested. -/
def bracesMatch : Bool → List UInt8 → Bool
  | inside, [] => !inside
  | inside, b :: rest =>
      if b = 0x7B then !inside && bracesMatch true rest
      else if b = 0x7D then inside && bracesMatch false rest
      else bracesMatch inside rest

def eraseCaptures : Bool → List UInt8 → List UInt8
  | _, [] => []
  | inside, b :: rest =>
      if b = 0x7B then b :: eraseCaptures true rest
      else if b = 0x7D then b :: eraseCaptures false rest
      else if inside then eraseCaptures inside rest
      else b :: eraseCaptures inside rest

def pathOctets (path : String) : List UInt8 := path.toByteArray.data.toList

/-- A router for which two paths overlap if they differ in the names of their captures. -/
def plainAxum : Axum where
  capturesOk := fun path => bracesMatch false (pathOctets path)
  overlaps := fun p q =>
    decide (eraseCaptures false (pathOctets p) = eraseCaptures false (pathOctets q))
  overlaps_comm := fun p q => by simp only [eq_comm]

def octetsCode (path : List UInt8) : ℕ := path.foldl (fun n b => 256 * n + b.toNat) 1

theorem acceptsOwn_plainAxum : AcceptsOwn plainAxum := by
  have hcodes : ∀ r ∈ (ownFragments true).flatten, ∀ q ∈ (ownFragments true).flatten,
      octetsCode (eraseCaptures false (pathOctets r.1)) =
        octetsCode (eraseCaptures false (pathOctets q.1)) → r.1 = q.1 := by decide +kernel
  have hcaptures : ∀ r ∈ (ownFragments true).flatten,
      bracesMatch false (pathOctets r.1) = true := by decide +kernel
  refine fun r hr => ⟨hcaptures r hr, fun q hq hne => decide_eq_false fun heq => hne ?_⟩
  exact hcodes r hr q hq (congrArg octetsCode heq)

/-- No URL is configured, so none is parsed. -/
def plainLibraries : Libraries where
  urlScheme := fun _ => none
  isHeaderName := fun _ => true
  isSocketAddr := fun _ => true
  debug := fun text => text

def operatorConfig : AppConfig :=
  { middleware := { cors := true }
    cors := { allowed_origins := ["https://app.example.com"] }
    database := { enabled := true }
    auth :=
      { enabled := true
        jwt_secret := "0123456789abcdef0123456789abcdef" }
    metrics := { enabled := true } }

theorem load_operatorConfig :
    load plainLibraries operatorConfig = .ok (normalize operatorConfig) := by
  have hvalid : validate plainLibraries (normalize operatorConfig) = .ok () := by decide +kernel
  rw [load, hvalid]
  rfl

/-- Everything on, with one origin and the endpoint at its usual path. -/
theorem safeToRun_operatorConfig : SafeToRun plainAxum [] (normalize operatorConfig) := by
  apply (safeToRun_iff acceptsOwn_plainAxum [] load_operatorConfig).mpr
  refine ⟨fun _ _ => ?_, fun _ => ⟨by decide +kernel, by decide +kernel, ?_, ?_⟩,
    fun _ => by decide +kernel, fun _ => by decide +kernel⟩
  · intro origin horigin
    obtain rfl := List.mem_singleton.mp horigin
    exact (isHeaderText_iff _).mp (by decide +kernel)
  · decide +kernel
  · decide +kernel

def newlineConfig : AppConfig :=
  { middleware := { cors := true }
    cors := { allowed_origins := ["https://a\n"] } }

/-- An origin with a line break is accepted, and the CORS layer does not expect it. -/
theorem accepted_not_safe : ¬∀ (lib : Libraries) (axum : Axum) (bindings : List HostBinding)
    (merged config : AppConfig), AcceptsOwn axum → load lib merged = .ok config →
      SafeToRun axum bindings config := by
  intro h
  have hvalid : validate plainLibraries (normalize newlineConfig) = .ok () := by decide +kernel
  have hload : load plainLibraries newlineConfig = .ok (normalize newlineConfig) := by
    rw [load, hvalid]
    rfl
  have happly := (buildApp_isSome.mp
    (h _ plainAxum [] _ _ acceptsOwn_plainAxum hload).assembled).2
  have horigin := (apply_isSome hvalid).mp happly rfl (by decide) "https://a\n"
    (List.mem_singleton_self _)
  exact absurd horigin (by decide +kernel)

end Wallermax.Config
