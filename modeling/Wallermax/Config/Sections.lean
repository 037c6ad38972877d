import Mathlib.Data.Rat.Defs
import Wallermax.Auth.Redirects
import Wallermax.Content.Forms
import Wallermax.Proxy.Cidr

/-!
# The configuration

The sections of `AppConfig` with the keys that `validate` checks or the start reads, their
defaults, and the two passes every layer goes through: `normalize`, which gives the
`[cms] hosts` list its one shape, and `validate`, a list of checks on each section. A
lifetime keeps its 64 bits, since what is computed with it may overflow.
-/

namespace Wallermax.Config

/-! ## The sections -/

structure ServerConfig : Type where
  request_timeout_secs : ℕ := 15
  shutdown_timeout_secs : ℕ := 15
  max_body_size_bytes : ℕ := 1048576
  trusted_proxies : List String := []

structure MiddlewareConfig : Type where
  request_id : Bool := true
  logging : Bool := true
  security_headers : Bool := true
  timeout : Bool := true
  rate_limit : Bool := false
  cors : Bool := false
  body_limit : Bool := true

/-- The refill is `none` where it is not finite. -/
structure RateLimitConfig : Type where
  capacity : ℕ := 60
  refill_per_second : Option ℚ := some 10

structure CorsConfig : Type where
  allowed_origins : List String := []
  max_age_secs : ℕ := 3600

structure SecurityHeadersConfig : Type where
  x_content_type_options : String := "nosniff"
  x_frame_options : String := "DENY"
  referrer_policy : String := "no-referrer"
  content_security_policy : String :=
    "default-src 'none'; style-src 'self'; img-src 'self' data:; form-action 'self'; " ++
      "frame-ancestors 'none'; base-uri 'none'"
  strict_transport_security : String := "max-age=31536000; includeSubDomains"

/-- The two maps in the order of their keys. -/
structure ExternalEndpointConfig : Type where
  name : String
  url : String
  headers : List (String × String)
  query : List (String × String)

structure ExternalApiConfig : Type where
  timeout_secs : ℕ := 8
  response_limit_bytes : ℕ := 262144
  endpoints : List ExternalEndpointConfig := []

structure DatabaseConfig : Type where
  enabled : Bool := false
  url : String := "sqlite://wallermax.db?mode=rwc"
  max_connections : ℕ := 5

structure AuthConfig : Type where
  enabled : Bool := false
  jwt_secret : String := ""
  token_ttl_secs : UInt64 := 3600
  issuer : String := "wallermax-server"
  min_password_len : ℕ := 8
  refresh_tokens_enabled : Bool := true
  refresh_token_ttl_secs : UInt64 := 2592000
  cookie_domain : String := ""

structure CmsConfig : Type where
  enabled : Bool := false
  hosts : List String := []
  default_page : Option String := none
  site_url : Option String := none
  media_dir : String := "media"
  media_max_bytes : ℕ := 512 * 1024
  index_page_size : ℕ := 10
  max_revisions : ℕ := 25

structure StaticConfig : Type where
  enabled : Bool := false
  root_dir : String := "public"
  index_file : String := "index.html"

structure SidecarConfig : Type where
  script : String := "sidecar/jhs-sidecar.mjs"
  workers : ℕ := 2
  startup_timeout_ms : ℕ := 8000
  request_timeout_ms : ℕ := 10000
  render_budget_ms : ℕ := 5000

/-- `DEFAULT_FORBIDDEN_MODULES`. -/
def defaultForbiddenModules : List String :=
  ["child_process", "cluster", "dgram", "dns", "fs", "http", "https", "inspector", "jhs", "mv",
    "net", "os", "process", "repl", "tls", "tty", "v8", "vm", "worker_threads"]

structure TemplatesConfig : Type where
  enabled : Bool := false
  backend : String := "auto"
  sidecar : SidecarConfig := {}
  views_dir : String := "views"
  loop_iteration_limit : ℕ := 10000000
  require_enabled : Bool := true
  modules_dir : String := "modules"
  forbidden_modules : List String := defaultForbiddenModules

structure MetricsConfig : Type where
  enabled : Bool := false
  path : String := "/metrics"

structure TlsConfig : Type where
  enabled : Bool := false
  cert_path : String := ""
  key_path : String := ""
  http_listen : Option String := none

/-- `AppConfig`; of `[logging]` the level. -/
structure AppConfig : Type where
  level : String := "info"
  server : ServerConfig := {}
  middleware : MiddlewareConfig := {}
  rate_limit : RateLimitConfig := {}
  cors : CorsConfig := {}
  security_headers : SecurityHeadersConfig := {}
  external_api : ExternalApiConfig := {}
  database : DatabaseConfig := {}
  auth : AuthConfig := {}
  cms : CmsConfig := {}
  static_files : StaticConfig := {}
  templates : TemplatesConfig := {}
  metrics : MetricsConfig := {}
  tls : TlsConfig := {}

/-- What the checks ask of the libraries: the scheme of a parsed URL, what is a header name
and a socket address, and how a string is written in a message. -/
structure Libraries : Type where
  urlScheme : String → Option String
  isHeaderName : String → Bool
  isSocketAddr : String → Bool
  debug : String → String

/-! ## Checks -/

/-- One check: the message if the condition for refusing holds. -/
def refuseIf (bad : Bool) (message : String) : Except String Unit :=
  if bad then .error message else .ok ()

@[simp] theorem refuseIf_ok {bad : Bool} {message : String} :
    refuseIf bad message = .ok () ↔ bad = false := by
  unfold refuseIf
  cases bad <;> simp

/-- The checks of a sequence are all made exactly if each of them passes. -/
@[simp] theorem sequence_ok {first next : Except String Unit} :
    (do first; next) = .ok () ↔ first = .ok () ∧ next = .ok () := by
  cases first with
  | error message => simp [bind, Except.bind]
  | ok => simp [bind, Except.bind]

/-- A loop over checks, left by the first that fails. -/
def checkEach {α : Type} (check : α → Except String Unit) : List α → Except String Unit
  | [] => .ok ()
  | x :: rest => do
      check x
      checkEach check rest

@[simp] theorem checkEach_ok {α : Type} {check : α → Except String Unit} {items : List α} :
    checkEach check items = .ok () ↔ ∀ x ∈ items, check x = .ok () := by
  induction items with
  | nil => simp [checkEach]
  | cons x rest ih => rw [checkEach, sequence_ok, ih, List.forall_mem_cons]

def endsWith (text : String) (last : String) : Bool := last.toList.isSuffixOf text.toList

def contains (text : String) (c : Char) : Bool := text.toList.contains c

/-- `has_parent_segment`. -/
def hasParentSegment (path : String) : Bool :=
  (path.toList.splitOnP fun c => c == '/' || c == '\\').any (· == ['.', '.'])

end Wallermax.Config
