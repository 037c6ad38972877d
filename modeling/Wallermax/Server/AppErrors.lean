import Wallermax.Content.DatetimeRoundTrip
import Wallermax.Json.Documents
import Wallermax.Server.ErrorPages

/-!
# The errors of the server

`AppError` of `error.rs`, the envelope it is sent as, and how the envelope is read again where
a browser is to be shown a page: code, message, request id and delay come back as they were.
-/

namespace Wallermax.Server

open Wallermax.Base
open Wallermax.Manager.Http (parseUsize)

inductive AppError : Type where
  | NotFound (message : Text)
  | BadRequest (message : Text)
  | RateLimited (message : Text) (retry_after_secs : UInt64)
  | PayloadTooLarge (message : Text)
  | RequestTimeout (message : Text)
  | MethodNotAllowed (message : Text)
  | Unauthorized (message : Text)
  | Forbidden (message : Text)
  | Conflict (message : Text)
  | Internal (message : Text)
  | BadGateway (message : Text)

namespace AppError

/-! ## Messages with numbers and paths -/

def digits (n : ℕ) : Text := Nat.toDigits 10 n

def notFound (method path : Text) : AppError :=
  .NotFound ("No route matches ".toList ++ method ++ ' ' :: path)

def rateLimited (retry_after_secs : UInt64) : AppError :=
  .RateLimited ("Rate limit exceeded; retry after ".toList ++ digits retry_after_secs.toNat ++
    " second(s)".toList) retry_after_secs

def payloadTooLarge (body_size limit : ℕ) : AppError :=
  .PayloadTooLarge ("Request body of ".toList ++ digits body_size ++ " bytes exceeds the ".toList ++
    digits limit ++ " byte limit".toList)

def payloadTooLargeUnknownSize (limit : ℕ) : AppError :=
  .PayloadTooLarge ("Request body exceeds the ".toList ++ digits limit ++ " byte limit".toList)

def requestTimeout (timeout_secs : ℕ) : AppError :=
  .RequestTimeout ("Request processing exceeded the ".toList ++ digits timeout_secs ++
    " second limit".toList)

def methodNotAllowed (method path : Text) : AppError :=
  .MethodNotAllowed ("Method ".toList ++ method ++ " is not allowed on ".toList ++ path)

/-! ## The envelope -/

def statusCode : AppError → StatusCode
  | NotFound _ => 404
  | BadRequest _ => 400
  | RateLimited _ _ => 429
  | PayloadTooLarge _ => 413
  | RequestTimeout _ => 408
  | MethodNotAllowed _ => 405
  | Unauthorized _ => 401
  | Forbidden _ => 403
  | Conflict _ => 409
  | Internal _ => 500
  | BadGateway _ => 502

def code : AppError → Text
  | NotFound _ => "NOT_FOUND".toList
  | BadRequest _ => "BAD_REQUEST".toList
  | RateLimited _ _ => "RATE_LIMITED".toList
  | PayloadTooLarge _ => "PAYLOAD_TOO_LARGE".toList
  | RequestTimeout _ => "REQUEST_TIMEOUT".toList
  | MethodNotAllowed _ => "METHOD_NOT_ALLOWED".toList
  | Unauthorized _ => "UNAUTHORIZED".toList
  | Forbidden _ => "FORBIDDEN".toList
  | Conflict _ => "CONFLICT".toList
  | Internal _ => "INTERNAL_ERROR".toList
  | BadGateway _ => "BAD_GATEWAY".toList

def message : AppError → Text
  | NotFound message => message
  | BadRequest message => message
  | RateLimited message _ => message
  | PayloadTooLarge message => message
  | RequestTimeout message => message
  | MethodNotAllowed message => message
  | Unauthorized message => message
  | Forbidden message => message
  | Conflict message => message
  | Internal message => message
  | BadGateway message => message

def retryAfterSecs : AppError → Option UInt64
  | RateLimited _ secs => some secs
  | _ => none

/-- `ErrorEnvelope`. -/
def envelope (e : AppError) (request_id : Option Text) : Wallermax.Json.Value :=
  .object [("error".toList, .object [
    ("code".toList, .string e.code),
    ("message".toList, .string e.message),
    ("request_id".toList, request_id.elim .null .string)])]

/-- The `Retry-After` header. -/
def retryAfter (e : AppError) : HeaderMap :=
  e.retryAfterSecs.elim [] fun secs => [("retry-after".toList, octets (digits secs.toNat))]

def intoResponseWithRequestId (e : AppError) (request_id : Option Text) : Response where
  parts :=
    { status := e.statusCode
      headers := ("content-type".toList, octets "application/json".toList) :: e.retryAfter }
  body := Body.ofText (e.envelope request_id).print

end AppError

/-! ## Reading an envelope -/

mutual
/-- A document as it is looked into: of two members of one name the last counts. -/
def Json.ofValue : Wallermax.Json.Value → Json
  | .null => .null
  | .bool value => .bool value
  | .number value => .number value.text
  | .string text => .string text
  | .array items => .array (Json.ofItems items)
  | .object members => .object (Json.ofMembers members).reverse
def Json.ofItems : List Wallermax.Json.Value → List Json
  | [] => []
  | v :: vs => Json.ofValue v :: Json.ofItems vs
def Json.ofMembers : List (Text × Wallermax.Json.Value) → List (Text × Json)
  | [] => []
  | (name, v) :: ms => (name, Json.ofValue v) :: Json.ofMembers ms
end

/-- `serde_json::from_slice`. -/
def fromSlice (bytes : List UInt8) : Option Json :=
  (decodeStrict bytes).bind fun text =>
    (Wallermax.Json.parse Wallermax.Json.serdeLimit text).map Json.ofValue

theorem fromSlice_print {v : Wallermax.Json.Value} (h : v.depth < Wallermax.Json.serdeLimit) :
    fromSlice (octets v.print) = some (Json.ofValue v) := by
  rw [fromSlice, decodeStrict_octets, Option.bind_some, Wallermax.Json.parse_print h,
    Option.map_some]

/-! ## Headers that are left alone -/

namespace HeaderMap

theorem getAll_append (headers : HeaderMap) (name other : Text) (value : List UInt8) :
    (headers.append other value).getAll name =
      headers.getAll name ++ if other = name then [value] else [] := by
  unfold getAll append
  rw [List.filter_append, List.map_append]
  by_cases h : other = name <;> simp [h]

theorem getAll_remove_of_ne (headers : HeaderMap) {name other : Text} (h : name ≠ other) :
    (headers.remove other).getAll name = headers.getAll name := by
  unfold getAll remove
  rw [List.filter_filter]
  congr 1
  refine List.filter_congr fun pair _ => ?_
  by_cases hname : pair.1 = name <;> simp [hname, h]

theorem getAll_remove_self (headers : HeaderMap) (name : Text) :
    (headers.remove name).getAll name = [] := by
  simp [getAll, remove, List.filter_filter]

theorem getAll_insert_self (headers : HeaderMap) (name : Text) (value : List UInt8) :
    (headers.insert name value).getAll name = [value] := by
  rw [insert, getAll_append, getAll_remove_self, if_pos rfl, List.nil_append]

theorem getAll_insert_of_ne (headers : HeaderMap) {name other : Text} (h : name ≠ other)
    (value : List UInt8) : (headers.insert other value).getAll name = headers.getAll name := by
  rw [insert, getAll_append, if_neg h.symm, List.append_nil, getAll_remove_of_ne _ h]

theorem text_congr {headers more : HeaderMap} {name : String}
    (h : more.getAll name.toList = headers.getAll name.toList) :
    more.text name = headers.text name := by
  unfold text get
  rw [h]

end HeaderMap

namespace AppError

theorem depth_envelope (e : AppError) (request_id : Option Text) :
    (e.envelope request_id).depth < Wallermax.Json.serdeLimit := by
  cases request_id <;>
    simp [envelope, Wallermax.Json.Value.depth, Wallermax.Json.depthMembers,
      Wallermax.Json.serdeLimit]

/-- **An envelope, read**, says what was raised. -/
theorem parseEnvelope_envelope (e : AppError) (request_id : Option Text) :
    parseEnvelope fromSlice (octets (e.envelope request_id).print) =
      some (e.code, e.message, request_id) := by
  unfold parseEnvelope
  rw [fromSlice_print (e.depth_envelope request_id)]
  cases request_id <;>
    simp [envelope, Json.ofValue, Json.ofMembers, Json.get, Json.asStr, List.lookup_cons]

theorem failed (e : AppError) :
    isClientError e.statusCode = true ∨ isServerError e.statusCode = true := by
  cases e <;> simp [statusCode, isClientError, isServerError]

theorem get_content_type (e : AppError) (request_id : Option Text) :
    (e.intoResponseWithRequestId request_id).parts.headers.text "content-type" =
      some "application/json".toList := by
  unfold HeaderMap.text HeaderMap.get HeaderMap.getAll intoResponseWithRequestId
  dsimp only
  rw [List.filter_cons_of_pos (by simp), List.map_cons, List.head?_cons, Option.bind_some]
  exact toStr_octets (by decide)

theorem isEnvelopeJson_intoResponse (e : AppError) (request_id : Option Text) :
    isEnvelopeJson (e.intoResponseWithRequestId request_id).parts = true := by
  unfold isEnvelopeJson
  rw [get_content_type, Option.map_some, Option.getD_some, decide_eq_true_eq]

theorem toStr_digits (n : ℕ) : toStr (octets (digits n)) = some (digits n) := by
  refine toStr_octets (List.all_eq_true.mpr fun c hc => ?_)
  have hdigit := Content.isDigit_of_mem_toDigits n c hc
  simp only [Char.isDigit, UInt32.le_iff_toNat_le, Bool.and_eq_true, decide_eq_true_eq] at hdigit
  have hlow : 48 ≤ c.toNat := hdigit.1
  have hhigh : c.toNat ≤ 57 := hdigit.2
  simp only [isVisible, Bool.or_eq_true, Bool.and_eq_true, decide_eq_true_eq]
  exact .inl ⟨by omega, by omega⟩

theorem parseUsize_digits (n : UInt64) : parseUsize (digits n.toNat) = some n.toNat := by
  have hvalue := Content.digitsValue_eq Nat.toDigits_ne_nil
    (Content.isDigit_of_mem_toDigits n.toNat)
  have hlt := n.toNat_lt
  have hfits : (some (n.toNat : ℤ)).filter (fun m => decide (m < 0x10000000000000000)) =
      some (n.toNat : ℤ) := Option.filter_some_pos (decide_eq_true (by omega))
  rw [parseUsize, digits, Content.signedValue_of_digits false hvalue,
    Nat.ofDigitChars_ten_toDigits, hfits, Option.map_some, Int.toNat_natCast]

/-- The delay is read back. -/
theorem parse_retry_after (e : AppError) (request_id : Option Text) :
    ((e.intoResponseWithRequestId request_id).parts.headers.text "retry-after").bind parseUsize =
      e.retryAfterSecs.map UInt64.toNat := by
  unfold HeaderMap.text HeaderMap.get HeaderMap.getAll intoResponseWithRequestId retryAfter
  dsimp only
  rw [List.filter_cons_of_neg (by decide)]
  cases e.retryAfterSecs with
  | none => rfl
  | some secs =>
      rw [Option.elim_some, List.filter_cons_of_pos (by simp), List.map_cons, List.head?_cons,
        Option.bind_some, toStr_digits, Option.bind_some, parseUsize_digits, Option.map_some]

/-! ## The page of an error -/

/-- A response is an error's envelope, whatever else is in its headers. -/
structure Carries (e : AppError) (request_id : Option Text) (response : Response) : Prop where
  status : response.parts.status = e.statusCode
  typed : response.parts.headers.text "content-type" = some "application/json".toList
  delay : (response.parts.headers.text "retry-after").bind parseUsize =
    e.retryAfterSecs.map UInt64.toNat
  body : response.body = Body.ofText (e.envelope request_id).print

theorem carries_intoResponse (e : AppError) (request_id : Option Text) :
    e.Carries request_id (e.intoResponseWithRequestId request_id) where
  status := rfl
  typed := e.get_content_type request_id
  delay := e.parse_retry_after request_id
  body := rfl

/-- What a browser is told. -/
def page (e : AppError) (request_id : Option Text) (request : HttpRequest) : HtmlErrorPage where
  status := e.statusCode
  code := e.code
  message := e.message
  request_id := request_id
  method := some request.method
  target := request.path_and_query
  retry_after_secs := e.retryAfterSecs.map UInt64.toNat
  theme := pinnedTheme request.headers

/-- The error is short enough to be read again. -/
def Legible (e : AppError) (request_id : Option Text) : Prop :=
  (octets (e.envelope request_id).print).length ≤ ENVELOPE_READ_LIMIT

instance (e : AppError) (request_id : Option Text) : Decidable (e.Legible request_id) := by
  unfold Legible
  infer_instance

variable {F : Type}

/-- What is sent of an error: to a browser its page, without a message where the envelope is
too long to be read, and the envelope to everybody else. -/
def shown (float : Float32 F) (e : AppError) (request_id : Option Text) (request : HttpRequest) :
    Body :=
  if prefersHtml float (request.headers.text "accept") then
    if e.Legible request_id then Body.ofText (e.page request_id request).render
    else (envelopeFreePage e.statusCode none request.method request.path_and_query
      (pinnedTheme request.headers) ⟨e.statusCode, []⟩).body
  else Body.ofText (e.envelope request_id).print

/-- **An error becomes its page**, with the code, the message, the id and the delay it was
raised with. -/
theorem Carries.run {e : AppError} {request_id : Option Text} {response : Response}
    (h : e.Carries request_id response) (float : Float32 F) (request : HttpRequest) :
    (run float fromSlice request response).body = e.shown float request_id request := by
  have hstatus : ¬(¬isClientError response.parts.status = true ∧
      ¬isServerError response.parts.status = true) := by
    rw [h.status]
    rintro ⟨hclient, hserver⟩
    exact e.failed.elim hclient hserver
  have htyped : isEnvelopeJson response.parts = true := by
    unfold isEnvelopeJson
    rw [h.typed, Option.map_some, Option.getD_some, decide_eq_true_eq]
  unfold Server.run shown
  dsimp only
  by_cases hprefers : prefersHtml float (request.headers.text "accept") = true
  · rw [if_neg (not_not.mpr hprefers), if_neg hstatus, if_neg (not_not.mpr htyped), h.body,
      if_pos hprefers]
    by_cases hlegible : e.Legible request_id
    · have hbytes : toBytes (Body.ofText (e.envelope request_id).print) ENVELOPE_READ_LIMIT =
          some (octets (e.envelope request_id).print) :=
        if_neg (not_or.mpr ⟨Bool.false_ne_true, not_lt.mpr hlegible⟩)
      rw [if_pos hlegible, hbytes]
      dsimp only
      rw [e.parseEnvelope_envelope request_id]
      dsimp only
      rw [h.delay, h.status]
      rfl
    · have hbytes : toBytes (Body.ofText (e.envelope request_id).print) ENVELOPE_READ_LIMIT =
          none := if_pos (.inr (not_le.mp hlegible))
      rw [if_neg hlegible, hbytes, h.status]
      rfl
  · rw [if_pos hprefers, if_neg hprefers, h.body]

end AppError

/-! ## What a page leaves as it was -/

section

variable {F : Type} (float : Float32 F) (json : List UInt8 → Option Json) (request : HttpRequest)
  (response : Response)

/-- The headers of a page without a message. -/
def retyped (headers : HeaderMap) : HeaderMap :=
  (headers.remove "content-length".toList).insert "content-type".toList htmlContentType

/-- The headers of a page with one. -/
def pageHeaders (headers : HeaderMap) : HeaderMap :=
  ((retyped headers).append "vary".toList (octets "accept".toList)).insert
    "cache-control".toList (octets "no-store".toList)

/-- What leaves is the response, or a page of one kind or the other. -/
theorem parts_run : ∃ headers ∈ [response.parts.headers, retyped response.parts.headers,
      pageHeaders response.parts.headers],
    (run float json request response).parts = ⟨response.parts.status, headers⟩ := by
  by_cases hnegotiated : Negotiated float request response
  · have hstatus : ¬(¬isClientError response.parts.status = true ∧
        ¬isServerError response.parts.status = true) := by
      rintro ⟨hclient, hserver⟩
      exact hnegotiated.failed.elim hclient hserver
    unfold run
    dsimp only
    rw [if_neg (not_not.mpr hnegotiated.prefers), if_neg hstatus,
      if_neg (not_not.mpr hnegotiated.typed)]
    cases toBytes response.body ENVELOPE_READ_LIMIT with
    | none => exact ⟨_, .tail _ (.head _), rfl⟩
    | some bytes =>
        dsimp only
        cases parseEnvelope json bytes with
        | none => exact ⟨_, .head _, rfl⟩
        | some envelope => exact ⟨_, .tail _ (.tail _ (.head _)), rfl⟩
  · rw [run_of_not_negotiated hnegotiated]
    exact ⟨_, .head _, rfl⟩

theorem status_run : (run float json request response).parts.status = response.parts.status := by
  obtain ⟨headers, -, hparts⟩ := parts_run float json request response
  rw [hparts]

/-- The headers a page changes. -/
def pageNames : List Text :=
  ["content-length".toList, "content-type".toList, "vary".toList, "cache-control".toList]

theorem getAll_run {name : Text} (h : name ∉ pageNames) :
    (run float json request response).parts.headers.getAll name =
      response.parts.headers.getAll name := by
  simp only [pageNames, List.mem_cons, List.not_mem_nil, or_false, not_or] at h
  obtain ⟨hlength, htype, hvary, hcache⟩ := h
  have hretyped : (retyped response.parts.headers).getAll name =
      response.parts.headers.getAll name := by
    rw [retyped, HeaderMap.getAll_insert_of_ne _ htype, HeaderMap.getAll_remove_of_ne _ hlength]
  obtain ⟨headers, hmem, hparts⟩ := parts_run float json request response
  rw [hparts]
  simp only [List.mem_cons, List.not_mem_nil, or_false] at hmem
  rcases hmem with rfl | rfl | rfl
  · rfl
  · exact hretyped
  · show (pageHeaders response.parts.headers).getAll name = _
    rw [pageHeaders, HeaderMap.getAll_insert_of_ne _ hcache, HeaderMap.getAll_append,
      if_neg (Ne.symm hvary), List.append_nil, hretyped]

end

end Wallermax.Server
