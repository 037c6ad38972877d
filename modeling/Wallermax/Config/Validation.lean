import Wallermax.Config.Sections

/-!
# Accepting a configuration

`validate` goes through the sections in one order and answers the first check that fails.
Some checks are made while their section is off, since a typing mistake is one regardless
of the switch.
-/

namespace Wallermax.Config

open Wallermax.Auth (isHeaderText)
open Wallermax.Content (startsWith validSlug)
open Wallermax.Tenants (isWhitespace isControl containsPair trim normalizeHostname)

/-! ## External services -/

/-- `RESERVED_HEADER_NAMES`. -/
def reservedHeaderNames : List String :=
  ["host", "content-length", "connection", "transfer-encoding", "cookie"]

def isParameterName (name : String) : Bool :=
  !name.isEmpty &&
    name.toList.all fun c => c.isAlphanum || c == '_' || c == '-' || c == '.'

section

variable (lib : Libraries)

def validateHeader (endpoint : ExternalEndpointConfig) (header : String × String) :
    Except String Unit := do
  refuseIf (reservedHeaderNames.contains (String.ofList (header.1.toList.map Char.toLower)))
    ("`external_api` endpoint `" ++ endpoint.name ++ "` sets reserved header `" ++ header.1 ++
      "`; the HTTP client owns it")
  refuseIf (!lib.isHeaderName header.1)
    ("`external_api` endpoint `" ++ endpoint.name ++ "` has an invalid header name `" ++
      header.1 ++ "`")
  refuseIf header.2.isEmpty
    ("`external_api` endpoint `" ++ endpoint.name ++ "` header `" ++ header.1 ++ "` is empty")

def validateQuery (endpoint : ExternalEndpointConfig) (pair : String × String) :
    Except String Unit := do
  refuseIf (!isParameterName pair.1)
    ("`external_api` endpoint `" ++ endpoint.name ++ "` has an invalid query parameter name `" ++
      pair.1 ++ "`; expected letters, digits, `_`, `-` or `.` (the `apikey`/`key` shape)")
  refuseIf pair.2.isEmpty
    ("`external_api` endpoint `" ++ endpoint.name ++ "` query parameter `" ++ pair.1 ++
      "` is empty")

def validateUrl (endpoint : ExternalEndpointConfig) : Except String Unit :=
  match lib.urlScheme endpoint.url with
  | none => .error ("`external_api` endpoint `" ++ endpoint.name ++ "` has an invalid URL `" ++
      endpoint.url ++ "`")
  | some scheme =>
      refuseIf (scheme != "http" && scheme != "https")
        ("`external_api` endpoint `" ++ endpoint.name ++ "` URL must use http or https (got `" ++
          scheme ++ "`)")

/-- The loop over the endpoints, with the names it has seen. -/
def validateEndpoints (seen : List String) : List ExternalEndpointConfig → Except String Unit
  | [] => .ok ()
  | endpoint :: rest => do
      refuseIf (!validSlug endpoint.name)
        ("invalid `external_api` endpoint name `" ++ endpoint.name ++ "`; expected the same " ++
          "slug shape the CMS enforces: 1-64 characters of lowercase letters, digits and " ++
          "single dashes")
      refuseIf (seen.contains endpoint.name)
        ("duplicate `external_api` endpoint name `" ++ endpoint.name ++ "`")
      validateUrl lib endpoint
      checkEach (validateHeader lib endpoint) endpoint.headers
      checkEach (validateQuery endpoint) endpoint.query
      validateEndpoints (endpoint.name :: seen) rest

/-- `MAX_EXTERNAL_API_RESPONSE_BYTES`. -/
def maxExternalApiResponseBytes : ℕ := 16 * 1048576

def validateExternalApi (external_api : ExternalApiConfig) : Except String Unit :=
  if external_api.endpoints.isEmpty then .ok ()
  else do
    refuseIf (external_api.timeout_secs == 0 || decide (60 < external_api.timeout_secs))
      ("`external_api.timeout_secs` must be between 1 and 60 (and below " ++
        "`server.request_timeout_secs` so the proxy answers before the global request timeout)")
    refuseIf (external_api.response_limit_bytes == 0 ||
        decide (maxExternalApiResponseBytes < external_api.response_limit_bytes))
      "`external_api.response_limit_bytes` must be between 1 and 16777216 bytes"
    validateEndpoints lib [] external_api.endpoints

end

/-! ## Limits and headers -/

def validateRateLimit (rate_limit : RateLimitConfig) : Except String Unit := do
  refuseIf (rate_limit.capacity == 0) "`rate_limit.capacity` must be greater than zero"
  refuseIf (!rate_limit.refill_per_second.any fun q => decide (0 < q))
    "`rate_limit.refill_per_second` must be a positive finite number"

def validateOrigin (origins : List String) (origin : String) : Except String Unit := do
  refuseIf origin.isEmpty "`cors.allowed_origins` must not contain empty strings"
  if origin = "*" then
    refuseIf (decide (1 < origins.length))
      "`cors.allowed_origins` wildcard `*` cannot be combined with specific origins"
  else do
    refuseIf (!startsWith origin "http://" && !startsWith origin "https://")
      ("invalid origin `" ++ origin ++ "` in `cors.allowed_origins`; expected " ++
        "`http://host[:port]`, `https://host[:port]` or `*`")
    refuseIf (endsWith origin "/")
      ("invalid origin `" ++ origin ++ "` in `cors.allowed_origins`; origins must not end " ++
        "with a path separator")

def validateCors (cors : CorsConfig) : Except String Unit :=
  checkEach (validateOrigin cors.allowed_origins) cors.allowed_origins

/-- An empty value omits its header. -/
def validateSecurityHeaders (lib : Libraries) (headers : SecurityHeadersConfig) :
    Except String Unit :=
  checkEach
    (fun pair => refuseIf (!pair.2.isEmpty && !isHeaderText pair.2.toList)
      ("invalid header value for `security_headers." ++ pair.1 ++ "`: " ++ lib.debug pair.2))
    [("x_content_type_options", headers.x_content_type_options),
      ("x_frame_options", headers.x_frame_options),
      ("referrer_policy", headers.referrer_policy),
      ("content_security_policy", headers.content_security_policy),
      ("strict_transport_security", headers.strict_transport_security)]

/-! ## Storage and sessions -/

def validateDatabase (database : DatabaseConfig) : Except String Unit :=
  if !database.enabled then .ok ()
  else do
    refuseIf (database.max_connections == 0)
      "`database.max_connections` must be greater than zero"
    refuseIf (!startsWith (trim database.url) "sqlite:" ||
        decide ((trim database.url).utf8ByteSize ≤ 7))
      ("invalid `database.url` `" ++ trim database.url ++ "`; expected a SQLite URL such as " ++
        "`sqlite://wallermax.db?mode=rwc` or `sqlite::memory:`")

/-- `validate_cookie_domain`: the problem, if there is one. -/
def cookieDomainProblem (value : String) : Option String :=
  if value.isEmpty then none
  else if !contains value '.' then
    some ("a one-label domain is a public suffix to every browser — the cookie can never " ++
      "share it. Use a two-label parent (\"app.localhost\", \"example.com\") covering every " ++
      "serving host")
  else if startsWith value "." || endsWith value "." then
    some "it must not start or end with a dot"
  else if containsPair '.' value.toList then some "it must not contain consecutive dots"
  else if value.toList.any fun c => isWhitespace c || isControl c ||
      [':', '/', '\\', '%', '?', '#', '@'].contains c then
    some "no scheme, port, path or whitespace can ride along"
  else none

def minJwtSecretLen : ℕ := 32

def maxPasswordLen : ℕ := 128

def validateAuth (config : AppConfig) : Except String Unit :=
  if !config.auth.enabled then .ok ()
  else do
    refuseIf (!config.database.enabled) "`auth.enabled` requires `database.enabled`"
    refuseIf (decide (config.auth.jwt_secret.utf8ByteSize < minJwtSecretLen))
      ("`auth.jwt_secret` must be at least 32 characters; provide it via the " ++
        "WALLERMAX_AUTH__JWT_SECRET environment variable or wallermax.local.toml in production")
    refuseIf (config.auth.token_ttl_secs == 0) "`auth.token_ttl_secs` must be greater than zero"
    refuseIf (config.auth.min_password_len == 0 ||
        decide (maxPasswordLen < config.auth.min_password_len))
      "`auth.min_password_len` must be between 1 and 128"
    refuseIf (trim config.auth.issuer).isEmpty "`auth.issuer` must not be empty"
    refuseIf (config.auth.refresh_token_ttl_secs == 0)
      "`auth.refresh_token_ttl_secs` must be greater than zero"
    match cookieDomainProblem config.auth.cookie_domain with
    | some problem =>
        .error ("`auth.cookie_domain` is not a bare parent domain: " ++ problem ++ ". Write it " ++
          "without scheme, port, path or leading dot — e.g. \"app.localhost\" or " ++
          "\"example.com\" — or leave it empty for the host-only cookie")
    | none => .ok ()

/-! ## The CMS -/

def validateHost (host : String) : Except String Unit := do
  refuseIf host.isEmpty "`cms.hosts` entries must be non-empty hostnames"
  match host.toList.find? fun c => [':', '/', '\\', '@', '#', '?', ' ', '\t'].contains c with
  | some bad =>
      .error ("invalid `cms.hosts` entry `" ++ host ++ "` (character `" ++ bad.toString ++
        "`): expected a bare hostname such as `cms.example.com` — no scheme, port, path or " ++
        "whitespace")
  | none =>
      refuseIf (startsWith host "." || endsWith host "." || containsPair '.' host.toList)
        ("invalid `cms.hosts` entry `" ++ host ++ "`: expected a bare hostname such as " ++
          "`cms.example.com` (no leading/trailing dot, no empty labels)")

def isSiteUrl (site_url : String) : Bool :=
  (startsWith site_url "http://" || startsWith site_url "https://") &&
    !(trim site_url).isEmpty && !endsWith site_url "/" && !site_url.toList.any isWhitespace

/-- The checks made while the CMS is off too. -/
def validateCmsShape (lib : Libraries) (cms : CmsConfig) : Except String Unit := do
  checkEach validateHost cms.hosts
  refuseIf (cms.default_page.any fun slug => !validSlug slug)
    ("invalid `cms.default_page` `" ++ cms.default_page.getD "" ++ "`; expected the same slug " ++
      "shape the panel forms enforce: 1-64 characters of lowercase letters, digits and single " ++
      "dashes")
  refuseIf (cms.site_url.any fun site_url => !isSiteUrl site_url)
    ("invalid `cms.site_url` `" ++ cms.site_url.getD "" ++ "`; expected an absolute origin " ++
      "such as `https://www.example.com` without a trailing slash")
  refuseIf (cms.media_dir.isEmpty || contains cms.media_dir '\x00')
    "`cms.media_dir` must be a non-empty path"
  refuseIf (hasParentSegment cms.media_dir)
    ("`cms.media_dir` must not contain `..` path segments: " ++ lib.debug cms.media_dir)
  refuseIf (!(decide (1024 ≤ cms.media_max_bytes ∧ cms.media_max_bytes ≤ 64 * 1048576)))
    ("`cms.media_max_bytes` must be between 1024 and 67108864 bytes (got " ++
      toString cms.media_max_bytes ++ ")")
  refuseIf (!(decide (1 ≤ cms.index_page_size ∧ cms.index_page_size ≤ 100)))
    ("`cms.index_page_size` must be between 1 and 100 (got " ++
      toString cms.index_page_size ++ ")")
  refuseIf (decide (1000 < cms.max_revisions))
    ("`cms.max_revisions` must be between 0 (unlimited) and 1000 (got " ++
      toString cms.max_revisions ++ ")")

def validateCms (lib : Libraries) (config : AppConfig) : Except String Unit := do
  validateCmsShape lib config.cms
  if !config.cms.enabled then .ok ()
  else do
    refuseIf (!config.cms.hosts.isEmpty && !config.static_files.enabled)
      ("`cms.hosts` requires `static.enabled`: the CMS host borrows its shared stylesheets " ++
        "(`/assets/*`) from the static root")
    refuseIf (!config.database.enabled || !config.auth.enabled)
      "`cms.enabled` requires both `database.enabled` and `auth.enabled`"
    refuseIf (!config.templates.enabled)
      "`cms.enabled` requires `templates.enabled` (CMS pages are `.jhs` content)"

/-! ## Files, templates and the rest -/

section

variable (lib : Libraries)

def validateStatic (static_files : StaticConfig) : Except String Unit := do
  refuseIf (static_files.root_dir.isEmpty || contains static_files.root_dir '\x00')
    "`static.root_dir` must be a non-empty path"
  refuseIf (hasParentSegment static_files.root_dir)
    ("`static.root_dir` must not contain `..` path segments: " ++
      lib.debug static_files.root_dir)
  refuseIf (static_files.index_file.isEmpty || contains static_files.index_file '\x00' ||
      contains static_files.index_file '/' || contains static_files.index_file '\\' ||
      static_files.index_file == "." || static_files.index_file == "..")
    "`static.index_file` must be a plain file name (no path separators, no `..`)"

def validateForbiddenModule (raw : String) : Except String Unit :=
  refuseIf ((trim raw).isEmpty || contains (trim raw) '/' || contains (trim raw) '\\' ||
      contains (trim raw) '\x00')
    ("`templates.forbidden_modules` entries must be plain module names, not paths (got " ++
      lib.debug (trim raw) ++ ")")

def validateSidecar (boa : Bool) (sidecar : SidecarConfig) : Except String Unit := do
  refuseIf (sidecar.workers == 0 || decide (16 < sidecar.workers))
    "`templates.sidecar.workers` must be between 1 and 16"
  refuseIf (sidecar.startup_timeout_ms == 0 || sidecar.request_timeout_ms == 0)
    ("`templates.sidecar.startup_timeout_ms` and `templates.sidecar.request_timeout_ms` must " ++
      "be greater than zero")
  refuseIf (decide (sidecar.render_budget_ms < 100))
    "`templates.sidecar.render_budget_ms` must be at least 100"
  refuseIf (decide (sidecar.request_timeout_ms ≤ sidecar.render_budget_ms))
    ("`templates.sidecar.request_timeout_ms` must exceed " ++
      "`templates.sidecar.render_budget_ms` (the client must outwait the hard-kill budget, " ++
      "or every budgeted render would time out client-side first)")
  refuseIf (!boa && ((trim sidecar.script).isEmpty || contains sidecar.script '\x00'))
    ("`templates.sidecar.script` must be a non-empty path while the sidecar backend is " ++
      "selected")
  refuseIf (!boa && hasParentSegment sidecar.script)
    ("`templates.sidecar.script` must not contain `..` path segments: " ++
      lib.debug sidecar.script)

def validateTemplates (templates : TemplatesConfig) : Except String Unit := do
  refuseIf (templates.views_dir.isEmpty || contains templates.views_dir '\x00')
    "`templates.views_dir` must be a non-empty path"
  refuseIf (hasParentSegment templates.views_dir)
    ("`templates.views_dir` must not contain `..` path segments: " ++
      lib.debug templates.views_dir)
  refuseIf (templates.loop_iteration_limit == 0)
    "`templates.loop_iteration_limit` must be greater than zero"
  refuseIf (templates.require_enabled &&
      ((trim templates.modules_dir).isEmpty || contains templates.modules_dir '\x00'))
    "`templates.modules_dir` must be a non-empty path"
  refuseIf (hasParentSegment templates.modules_dir)
    ("`templates.modules_dir` must not contain `..` path segments: " ++
      lib.debug templates.modules_dir)
  checkEach (validateForbiddenModule lib) templates.forbidden_modules
  refuseIf (!(["boa", "sidecar", "auto"].contains (trim templates.backend)))
    ("`templates.backend` must be one of \"boa\", \"sidecar\" or \"auto\" (got " ++
      lib.debug (trim templates.backend) ++ ")")
  validateSidecar lib (trim templates.backend == "boa") templates.sidecar

def validateMetrics (metrics : MetricsConfig) : Except String Unit := do
  refuseIf ((trim metrics.path).isEmpty || !startsWith (trim metrics.path) "/")
    ("invalid `metrics.path` `" ++ metrics.path ++ "`; expected an absolute path such as " ++
      "`/metrics`")
  refuseIf (hasParentSegment (trim metrics.path))
    ("`metrics.path` must not contain `..` path segments: " ++ lib.debug (trim metrics.path))

def validateTls (tls : TlsConfig) : Except String Unit := do
  refuseIf (tls.http_listen.any fun listen => !lib.isSocketAddr listen)
    ("invalid `tls.http_listen` `" ++ tls.http_listen.getD "" ++ "`; expected `host:port` " ++
      "such as `127.0.0.1:8080`")
  if !tls.enabled then .ok ()
  else
    checkEach
      (fun pair => refuseIf (trim pair.2).isEmpty
        ("`tls." ++ pair.1 ++ "` must point at a PEM file while `tls.enabled = true`"))
      [("cert_path", tls.cert_path), ("key_path", tls.key_path)]

end

def validateTrustedProxies (server : ServerConfig) : Except String Unit :=
  checkEach
    (fun entry => refuseIf (Proxy.parseCidr entry).isNone
      ("invalid `server.trusted_proxies` entry `" ++ entry ++ "`; expected an IP address or " ++
        "CIDR block such as `10.0.0.4`, `10.0.0.0/8` or `fd00::/8`"))
    server.trusted_proxies

/-! ## The two passes -/

def normalize (config : AppConfig) : AppConfig :=
  { config with
    cms := { config.cms with hosts := config.cms.hosts.map normalizeHostname } }

def levels : List String := ["trace", "debug", "info", "warn", "error"]

def validate (lib : Libraries) (config : AppConfig) : Except String Unit := do
  refuseIf (!levels.contains config.level)
    ("invalid `logging.level` value `" ++ config.level ++ "`; expected one of: " ++
      String.intercalate ", " levels)
  refuseIf (config.server.request_timeout_secs == 0)
    "`server.request_timeout_secs` must be greater than zero"
  refuseIf (config.server.shutdown_timeout_secs == 0)
    "`server.shutdown_timeout_secs` must be greater than zero"
  refuseIf (config.server.max_body_size_bytes == 0)
    "`server.max_body_size_bytes` must be greater than zero"
  validateRateLimit config.rate_limit
  validateCors config.cors
  validateSecurityHeaders lib config.security_headers
  validateExternalApi lib config.external_api
  validateDatabase config.database
  validateAuth config
  validateCms lib config
  validateStatic lib config.static_files
  validateTemplates lib config.templates
  validateMetrics lib config.metrics
  validateTls lib config.tls
  validateTrustedProxies config.server

/-- What `load` and `load_from_toml_layers` do with the merged layers. -/
def load (lib : Libraries) (merged : AppConfig) : Except String AppConfig := do
  validate lib (normalize merged)
  return normalize merged

end Wallermax.Config
