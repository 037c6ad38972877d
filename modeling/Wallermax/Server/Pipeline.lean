import Wallermax.Config.Assembly
import Wallermax.Limits.RateLimiter
import Wallermax.Proxy.ClientIp
import Wallermax.Server.AppErrors

/-!
# The middleware pipeline

What `middleware::apply` puts around the routes, with any number of requests in it at once. On
the way in each layer answers a request or lets it pass and leaves a frame; on the way out the
frames change the answer, the innermost first. The templates middleware and the routes are the
inside: they answer what they like, or not at all.
-/

namespace Wallermax.Server

open Wallermax.Auth (isHeaderText)
open Wallermax.Base
open Wallermax.Config (AppConfig SecurityHeadersConfig Layer CorsLayer layerIf)
open Wallermax.Limits (RateLimiter Instant)
open Wallermax.Manager.Http (parseUsize)
open Wallermax.Proxy (IpAddr Cidr resolveClientIp)

/-! ## Requests and their ids -/

def MAX_CLIENT_ID_LEN : ℕ := 64

def isIdChar (c : Char) : Bool := c.isAlphanum || c == '-' || c == '_'

/-- What a client may supply; a generated id is one too. -/
structure RequestId : Type where
  text : Text
  valid : text ≠ [] ∧ text.length ≤ MAX_CLIENT_ID_LEN ∧ text.all isIdChar = true

/-- `RequestId::from_client`. -/
def RequestId.fromClient (value : Option (List UInt8)) : Option RequestId :=
  (value.bind toStr).bind fun text =>
    if h : text ≠ [] ∧ text.length ≤ MAX_CLIENT_ID_LEN ∧ text.all isIdChar = true then
      some ⟨text, h⟩
    else none

/-- A request as it reaches the outermost layer, with its peer. -/
structure Arrival : Type where
  method : Text
  path : Text
  path_and_query : Option Text
  headers : HeaderMap
  peer : Option IpAddr

def Arrival.http (r : Arrival) : HttpRequest := ⟨r.method, r.path_and_query, r.headers⟩

/-- `HeaderValue::from_str`. -/
def fromStr (text : Text) : Option (List UInt8) :=
  if isHeaderText text then some (octets text) else none

/-- Insert a value if it is one. -/
def HeaderMap.insertText (headers : HeaderMap) (name text : Text) : HeaderMap :=
  (fromStr text).elim headers fun value => headers.insert name value

/-- The headers the CORS layer sets besides `vary`. -/
def corsNames : List Text :=
  ["access-control-allow-origin".toList, "access-control-allow-credentials".toList,
    "access-control-allow-private-network".toList, "access-control-allow-methods".toList,
    "access-control-allow-headers".toList, "access-control-max-age".toList,
    "access-control-expose-headers".toList]

/-- The layer of the library at work: it answers `OPTIONS` itself, and adds to other answers. -/
structure Cors : Type where
  preflight : Arrival → Response
  vary : Arrival → Option (List UInt8)
  headers : Arrival → HeaderMap
  named : ∀ r, ∀ header ∈ headers r, header.1 ∈ corsNames

structure AppState : Type where
  config : AppConfig
  /-- `[request_id] mode` -/
  overwrite : Bool
  trusted_proxies : List Cidr
  cors : CorsLayer → Cors
  layers : List Layer
  built : Config.apply config = some layers

/-! ## Security headers -/

/-- `header_pairs`. -/
def headerPairs (config : SecurityHeadersConfig) : HeaderMap :=
  ([("x-content-type-options".toList, config.x_content_type_options),
    ("x-frame-options".toList, config.x_frame_options),
    ("referrer-policy".toList, config.referrer_policy),
    ("content-security-policy".toList, config.content_security_policy),
    ("strict-transport-security".toList, config.strict_transport_security)].filter
      fun pair => !pair.2.isEmpty).filterMap fun pair =>
        (fromStr pair.2.toList).map fun value => (pair.1, value)

def cspName : Text := "content-security-policy".toList

def HeaderMap.insertAll (headers more : HeaderMap) : HeaderMap :=
  more.foldl (fun headers header => headers.insert header.1 header.2) headers

/-- `security_headers::run` on the way out, with the live policy. -/
def secure (config : SecurityHeadersConfig) (csp : Option (List UInt8)) (headers : HeaderMap) :
    HeaderMap :=
  let headers := headers.insertAll (headerPairs config)
  csp.elim headers fun policy => headers.insert cspName policy

/-! ## The way out -/

/-- A response, and the error it is if a layer made it. -/
structure Reply : Type where
  response : Response
  refused : Option AppError

def Reply.refuse (e : AppError) (request_id : Option Text) : Reply :=
  ⟨e.intoResponseWithRequestId request_id, some e⟩

def Reply.mapHeaders (reply : Reply) (f : HeaderMap → HeaderMap) : Reply :=
  { reply with response := { reply.response with parts := { reply.response.parts with
      headers := f reply.response.parts.headers } } }

inductive Frame : Type where
  | inside
  | timeout (request_id : Option Text)
  | bodyLimit (request_id : Option Text)
  | rateLimit (remaining : ℚ)
  | logging (method : Text)
  | requestId (id : RequestId)
  | cors (vary : Option (List UInt8)) (headers : HeaderMap)
  | errorPages (request : HttpRequest)
  | securityHeaders

/-- What the way out depends on besides the answer: the policy that is live and the measured
latency. -/
structure Moment : Type where
  csp : Option (List UInt8)
  latency : Text

def rateLimitHeaders (config : AppConfig) (remaining : ℚ) (headers : HeaderMap) : HeaderMap :=
  (headers.insertText "x-ratelimit-limit".toList (AppError.digits config.rate_limit.capacity)).insert
    "x-ratelimit-remaining".toList (octets (AppError.digits ⌊remaining⌋.toNat))

variable {F : Type} (float : Float32 F) (app : AppState)

def Frame.alter (now : Moment) (reply : Reply) : Frame → Reply
  | .inside => reply
  | .timeout _ => reply
  | .bodyLimit request_id =>
      if reply.response.parts.status = 413 ∧ ¬isEnvelopeJson reply.response.parts then
        Reply.refuse (.payloadTooLargeUnknownSize app.config.server.max_body_size_bytes) request_id
      else reply
  | .rateLimit remaining => reply.mapHeaders (rateLimitHeaders app.config remaining)
  | .logging _ => reply.mapHeaders fun headers =>
      headers.insertText "x-response-time".toList now.latency
  | .requestId id => reply.mapHeaders fun headers =>
      headers.insertText "x-request-id".toList id.text
  | .cors vary more => reply.mapHeaders fun headers =>
      (vary.elim headers fun value => headers.append "vary".toList value).insertAll more
  | .errorPages request => { reply with
      response := run float fromSlice request reply.response }
  | .securityHeaders => reply.mapHeaders (secure app.config.security_headers now.csp)

/-- The metrics' counter, one entry for each time it is increased. -/
def Frame.recorded (reply : Reply) : Frame → List (Text × StatusCode)
  | .logging method => [(method, reply.response.parts.status)]
  | _ => []

def leave (now : Moment) : List Frame → Reply → Reply × List (Text × StatusCode)
  | [], reply => (reply, [])
  | frame :: frames, reply =>
      let out := leave now frames (frame.alter float app now reply)
      (out.1, frame.recorded reply ++ out.2)

/-! ## The way in -/

structure Counters : Type where
  limiter : RateLimiter IpAddr
  requests_served : UInt64
  rate_limited_requests : UInt64

/-- What a request brings along that the server does not determine. -/
structure Entry : Type where
  request : Arrival
  uuid : RequestId
  clock : Instant
  now : Instant

inductive Entered : Type where
  | passes (frame : Frame) (request_id : Option RequestId)
  | answers (reply : Reply)

/-- `declared_content_length`. -/
def declaredContentLength (headers : HeaderMap) : Option ℕ :=
  (headers.text "content-length").bind parseUsize

def clientIp (r : Arrival) : IpAddr :=
  resolveClientIp (r.peer.getD (.V4 0))
    ((r.headers.getAll "x-forwarded-for".toList).filterMap toStr) app.trusted_proxies

/-- `rate_limit::run` on the way in. -/
def enterRateLimit (entry : Entry) (request_id : Option RequestId) (s : Counters) :
    Entered × Counters :=
  if app.config.metrics.enabled ∧ app.config.metrics.path.toList = entry.request.path then
    (.passes .inside request_id, s)
  else
    match s.limiter.tryAcquireAt entry.clock (clientIp app entry.request) entry.now with
    | (.Allowed remaining, limiter) => (.passes (.rateLimit remaining) request_id, { s with limiter })
    | (.Rejected retry_after_secs, limiter) =>
        (.answers ((Reply.refuse (.rateLimited (UInt64.ofNat retry_after_secs))
            (request_id.map RequestId.text)).mapHeaders (rateLimitHeaders app.config 0)),
          { s with
            limiter
            rate_limited_requests := s.rate_limited_requests + 1 })

/-- `request_id::run` on the way in. -/
def requestIdOf (entry : Entry) : RequestId :=
  (if app.overwrite then none
    else RequestId.fromClient (entry.request.headers.get "x-request-id".toList)).getD entry.uuid

def enterLayer (entry : Entry) (request_id : Option RequestId) (s : Counters) :
    Layer → Entered × Counters
  | .templates => (.passes .inside request_id, s)
  | .requestBodyLimit _ => (.passes .inside request_id, s)
  | .timeout => (.passes (.timeout (request_id.map RequestId.text)) request_id, s)
  | .bodyLimit =>
      let max := app.config.server.max_body_size_bytes
      match (declaredContentLength entry.request.headers).filter (max < ·) with
      | some declared =>
          (.answers (Reply.refuse (.payloadTooLarge declared max)
            (request_id.map RequestId.text)), s)
      | none => (.passes (.bodyLimit (request_id.map RequestId.text)) request_id, s)
  | .rateLimit => enterRateLimit app entry request_id s
  | .logging =>
      (.passes (.logging entry.request.method) request_id,
        { s with requests_served := s.requests_served + 1 })
  | .requestId =>
      (.passes (.requestId (requestIdOf app entry)) (some (requestIdOf app entry)), s)
  | .cors layer =>
      if entry.request.method = "OPTIONS".toList then
        (.answers ⟨(app.cors layer).preflight entry.request, none⟩, s)
      else (.passes (.cors ((app.cors layer).vary entry.request)
        ((app.cors layer).headers entry.request)) request_id, s)
  | .errorPages => (.passes (.errorPages entry.request.http) request_id, s)
  | .securityHeaders => (.passes .securityHeaders request_id, s)

/-- How far a request has come: it has left frames behind, and may have its answer. -/
structure Passage : Type where
  frames : List Frame
  request_id : Option RequestId
  reply : Option Reply

/-- The layers from the outside in. -/
def enter (entry : Entry) : List Layer → Option RequestId → List Frame → Counters →
    Passage × Counters
  | [], request_id, frames, s => (⟨frames, request_id, none⟩, s)
  | layer :: layers, request_id, frames, s =>
      match enterLayer app entry request_id s layer with
      | (.answers reply, s) => (⟨frames, request_id, some reply⟩, s)
      | (.passes frame request_id, s) => enter entry layers request_id (frame :: frames) s

/-! ## Many requests -/

/-- A request inside. -/
structure InFlight : Type where
  request : Arrival
  request_id : Option RequestId
  frames : List Frame

/-- An answer, the request it is for, and the policy that was live. -/
structure Sent : Type where
  request : Arrival
  request_id : Option RequestId
  csp : Option (List UInt8)
  reply : Reply

/-- Two counts the server does not keep stand at the end: requests whose client hung up, and
sign-ins refused inside. -/
structure Serving : Type where
  counters : Counters
  csp : Option (List UInt8)
  requests_total : List (Text × StatusCode)
  in_flight : List InFlight
  sent : List Sent
  hung_up : ℕ
  throttled : ℕ

inductive Event : Type where
  | arrive (entry : Entry) (latency : Text)
  | answer (place : ℕ) (response : Response) (latency : Text)
  /-- the timeout elapses -/
  | expire (place : ℕ) (latency : Text)
  | hangUp (place : ℕ)
  /-- the login throttle counts a refusal -/
  | throttle
  /-- the host names change, and with them the policy -/
  | publish (csp : Option (List UInt8))

/-- An answer goes out through the frames. -/
def send (flight : InFlight) (reply : Reply) (latency : Text) (s : Serving) : Serving :=
  let out := leave float app ⟨s.csp, latency⟩ flight.frames reply
  { s with
    requests_total := if app.config.metrics.enabled then s.requests_total ++ out.2
      else s.requests_total
    sent := s.sent ++ [⟨flight.request, flight.request_id, s.csp, out.1⟩] }

def Frame.isTimeout : Frame → Bool
  | .timeout _ => true
  | _ => false

/-- What is left of the frames when the timeout drops what is inside of it. -/
def outsideTimeout (frames : List Frame) : Option (Option Text × List Frame) :=
  match frames.dropWhile (!·.isTimeout) with
  | .timeout request_id :: outside => some (request_id, outside)
  | _ => none

def serve (s : Serving) : Event → Option Serving
  | .arrive entry latency =>
      let (passage, counters) := enter app entry app.layers.reverse none [] s.counters
      let flight : InFlight := ⟨entry.request, passage.request_id, passage.frames⟩
      let s := { s with counters }
      match passage.reply with
      | some reply => some (send float app flight reply latency s)
      | none => some { s with in_flight := s.in_flight ++ [flight] }
  | .answer place response latency => s.in_flight[place]?.map fun flight =>
      send float app flight ⟨response, none⟩ latency { s with
        in_flight := s.in_flight.eraseIdx place }
  | .expire place latency => s.in_flight[place]?.bind fun flight =>
      (outsideTimeout flight.frames).map fun (request_id, frames) =>
        send float app { flight with frames }
          (Reply.refuse (.requestTimeout app.config.server.request_timeout_secs) request_id) latency
          { s with in_flight := s.in_flight.eraseIdx place }
  | .hangUp place => s.in_flight[place]?.map fun _ => { s with
      in_flight := s.in_flight.eraseIdx place
      hung_up := s.hung_up + 1 }
  | .throttle => some { s with
      counters := { s.counters with
        rate_limited_requests := s.counters.rate_limited_requests + 1 }
      throttled := s.throttled + 1 }
  | .publish csp => some { s with csp }

/-- A server that has just started. -/
def Serving.start (limiter : RateLimiter IpAddr) (csp : Option (List UInt8)) : Serving where
  counters := ⟨limiter, 0, 0⟩
  csp := csp
  requests_total := []
  in_flight := []
  sent := []
  hung_up := 0
  throttled := 0

end Wallermax.Server
