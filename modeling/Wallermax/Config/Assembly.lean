import Mathlib.Algebra.Group.Int.Defs
import Mathlib.Algebra.Group.Nat.Defs
import Wallermax.Auth.Sessions
import Wallermax.Config.Routes
import Wallermax.Tenants.Routing

/-!
# Assembling the server

`build_app` mounts the trees the state and the boot-time bindings ask for and wraps the
middleware around them. Both steps are pure and both can panic: the router refuses a path,
or the CORS layer expects every configured origin to be a header value. The lifetimes are
used later, when a session starts: the expiry is the clock plus the lifetime in 64 bits.
-/

namespace Wallermax.Config

open Wallermax.Auth (isHeaderText)
open Wallermax.Tenants (HostBinding)

/-! ## What is switched on -/

/-- The state carries the auth services. -/
def authEnabled (config : AppConfig) : Bool := config.database.enabled && config.auth.enabled

def refreshEnabled (config : AppConfig) : Bool :=
  authEnabled config && config.auth.refresh_tokens_enabled

/-- The state carries the CMS services. -/
def cmsEnabled (config : AppConfig) : Bool :=
  authEnabled config && config.cms.enabled && config.templates.enabled

def features (config : AppConfig) : Features where
  auth_enabled := authEnabled config
  refresh_enabled := refreshEnabled config
  static_enabled := config.static_files.enabled
  metrics := config.metrics
  cms_enabled := cmsEnabled config
  external_api_enabled := !config.external_api.endpoints.isEmpty

/-! ## The trees -/

inductive RouteTree : Type where
  | singleHost (router : Router)
  | vhosts (main cms : Router) (tenants : List (String × Router))

/-- `tenant_trees`: one for each organization, whatever its root. -/
def tenantTrees (axum : Axum) (f : Features) (bindings : List HostBinding) :
    Option (List (String × Router)) :=
  (Tenants.tenantTrees bindings).mapM fun (key, _) =>
    (build axum (tenantMounts f)).map fun tree => (key, tree)

/-- `vhost_routes`, without its dispatcher. -/
def vhostRoutes (axum : Axum) (f : Features) (bindings : List HostBinding) :
    Option RouteTree := do
  let main ← build axum (mainMounts f)
  let cms_tree ← build axum (cmsMounts f)
  let tenants ← tenantTrees axum f bindings
  return .vhosts main cms_tree tenants

def routeTree (axum : Axum) (f : Features) (bindings : List HostBinding) : Option RouteTree :=
  if bindings.isEmpty then (build axum (singleHostMounts f)).map .singleHost
  else vhostRoutes axum f bindings

/-! ## The middleware -/

inductive CorsLayer : Type where
  | any (max_age_secs : ℕ)
  | list (origins : List String) (max_age_secs : ℕ)
deriving DecidableEq

/-- The value of a header; `none` where `HeaderValue::from_str` fails. -/
def headerValue (value : String) : Option String :=
  if isHeaderText value.toList then some value else none

/-- `AllowOrigin::list` panics on a wildcard. -/
def allowOriginList (origins : List String) : Option (List String) :=
  if origins.contains "*" then none else some origins

/-- `cors::layer`. -/
def corsLayer (cors : CorsConfig) : Option CorsLayer :=
  if cors.allowed_origins = ["*"] then some (.any cors.max_age_secs)
  else do
    let values ← cors.allowed_origins.mapM headerValue
    let origins ← allowOriginList values
    return .list origins cors.max_age_secs

inductive Layer : Type where
  | templates
  | requestBodyLimit (max_body_size_bytes : ℕ)
  | timeout
  | bodyLimit
  | rateLimit
  | logging
  | requestId
  | cors (layer : CorsLayer)
  | errorPages
  | securityHeaders
deriving DecidableEq

def layerIf (enabled : Bool) (layer : Layer) : List Layer := if enabled then [layer] else []

/-- `middleware::apply`, the innermost layer first. -/
def apply (config : AppConfig) : Option (List Layer) := do
  let cors ← if config.middleware.cors then (corsLayer config.cors).map fun l => [.cors l]
    else some []
  return layerIf config.templates.enabled .templates ++
    layerIf config.middleware.body_limit
      (.requestBodyLimit config.server.max_body_size_bytes) ++
    layerIf config.middleware.timeout .timeout ++
    layerIf config.middleware.body_limit .bodyLimit ++
    layerIf config.middleware.rate_limit .rateLimit ++
    layerIf config.middleware.logging .logging ++
    layerIf config.middleware.request_id .requestId ++ cors ++ [.errorPages] ++
    layerIf config.middleware.security_headers .securityHeaders

structure App : Type where
  trees : RouteTree
  layers : List Layer

/-- `build_app`; `none` where it panics. -/
def buildApp (axum : Axum) (bindings : List HostBinding) (config : AppConfig) : Option App := do
  let trees ← routeTree axum (features config) bindings
  let layers ← apply config
  return ⟨trees, layers⟩

/-! ## The expiry of a session -/

/-- `u64` addition; nothing where it overflows. -/
def addU64 (a b : UInt64) : Option UInt64 :=
  if a.toNat + b.toNat < 2 ^ 64 then some (a + b) else none

/-- `i64` addition; nothing where it overflows. -/
def addI64 (a b : Int64) : Option Int64 :=
  if -2 ^ 63 ≤ a.toInt + b.toInt ∧ a.toInt + b.toInt < 2 ^ 63 then some (a + b) else none

structure Claims : Type where
  sub : String
  username : String
  role : String
  iat : UInt64
  exp : UInt64
  iss : String

/-- The claims `issue_token_at` signs. -/
def issueTokenAt (auth : AuthConfig) (id : ℕ) (user : Accounts.User) (now : UInt64) :
    Option Claims := do
  let exp ← addU64 now auth.token_ttl_secs
  return ⟨toString id, user.username, user.role.asStr, now, exp, auth.issuer⟩

/-- What the session endpoints take from the section. -/
def authContext (sha256 : List UInt8 → List UInt8) (auth : AuthConfig) : Auth.AuthContext where
  sha256 := sha256
  refresh_token_ttl_secs := auth.refresh_token_ttl_secs.toNat

/-- The row `issue_refresh_token` saves; the lifetime is cast to an `i64`. -/
def issueRefreshToken (sha256 : List UInt8 → List UInt8) (auth : AuthConfig) (user_id : ℕ)
    (family_id : Option ℕ) (value : String) (now : Int64) : Option Auth.NewRefreshToken := do
  let expires_at ← addI64 now auth.refresh_token_ttl_secs.toInt64
  return ⟨user_id, family_id, (authContext sha256 auth).hashRefreshToken value,
    expires_at.toInt, now.toInt⟩

end Wallermax.Config
