import Wallermax.Base.LossyCuts
import Wallermax.Manager.Http
import Wallermax.Server.HtmlErrorPage

/-!
# Error pages for browsers

`error_pages::run` on the way out: where a browser is answered with an error envelope, the
envelope becomes a page. To see whether a body is an envelope it is read, up to a limit, and
what is longer cannot be put back: it becomes a page too. Every other answer leaves as it
came.
-/

namespace Wallermax.Server

open Wallermax.Base
open Wallermax.Manager.Http (parseUsize)
open Wallermax.Manager.Metrics (splitOnce)
open Wallermax.Templates (trimChars stripPrefix)

def ENVELOPE_READ_LIMIT : ℕ := 32 * 1024

/-! ## Headers -/

/-- Names in lower case and values, in the order of insertion. -/
abbrev HeaderMap : Type := List (Text × List UInt8)

namespace HeaderMap

def getAll (headers : HeaderMap) (name : Text) : List (List UInt8) :=
  (headers.filter (·.1 = name)).map (·.2)

def get (headers : HeaderMap) (name : Text) : Option (List UInt8) := (headers.getAll name).head?

def remove (headers : HeaderMap) (name : Text) : HeaderMap := headers.filter (·.1 ≠ name)

def append (headers : HeaderMap) (name : Text) (value : List UInt8) : HeaderMap :=
  headers ++ [(name, value)]

def insert (headers : HeaderMap) (name : Text) (value : List UInt8) : HeaderMap :=
  (headers.remove name).append name value

end HeaderMap

/-- `HeaderValue::to_str`: visible ASCII, spaces and tabs. -/
def toStr (value : List UInt8) : Option Text :=
  if value.all fun b => (32 ≤ b && b < 127) || b == 9 then some (decodeLossy value) else none

/-- Visible ASCII, spaces and tabs. -/
def isVisible (c : Char) : Bool := (32 ≤ c.toNat && c.toNat < 127) || c == '\t'

theorem toStr_octets {t : Text} (h : t.all isVisible = true) : toStr (octets t) = some t := by
  have hbytes : (octets t).all (fun b => (32 ≤ b && b < 127) || b == 9) = true := by
    rw [List.all_eq_true]
    intro b hb
    obtain ⟨c, hc, hb⟩ := List.mem_flatMap.mp hb
    have hvisible := List.all_eq_true.mp h c hc
    simp only [isVisible, Bool.or_eq_true, Bool.and_eq_true, decide_eq_true_eq, beq_iff_eq]
      at hvisible
    rcases hvisible with ⟨hlow, hhigh⟩ | rfl
    · rw [utf8EncodeChar_ascii (by omega), List.mem_singleton] at hb
      have hn : (UInt8.ofNat c.toNat).toNat = c.toNat := by
        rw [UInt8.toNat_ofNat']
        omega
      simp only [hb, UInt8.le_iff_toNat_le, UInt8.lt_iff_toNat_lt, hn, Bool.or_eq_true,
        Bool.and_eq_true, decide_eq_true_eq]
      exact .inl ⟨hlow, hhigh⟩
    · have hb : b ∈ [(9 : UInt8)] := hb
      rw [List.mem_singleton.mp hb]
      decide
  unfold toStr
  rw [if_pos hbytes, decodeLossy_octets]

/-- The first value of a name, where it is text. -/
def HeaderMap.text (headers : HeaderMap) (name : String) : Option Text :=
  (headers.get name.toList).bind toStr

structure Parts : Type where
  status : StatusCode
  headers : HeaderMap

/-- The bytes of a body, and whether its stream breaks off behind them. -/
structure Body : Type where
  bytes : List UInt8
  fails : Bool

structure Response : Type where
  parts : Parts
  body : Body

/-- The body of a text. -/
def Body.ofText (text : Text) : Body := ⟨octets text, false⟩

/-- `axum::body::to_bytes`. -/
def toBytes (body : Body) (limit : ℕ) : Option (List UInt8) :=
  if body.fails ∨ limit < body.bytes.length then none else some body.bytes

structure HttpRequest : Type where
  method : Text
  path_and_query : Option Text
  headers : HeaderMap

/-- `pinned_theme`. -/
def pinnedTheme (headers : HeaderMap) : Option Text :=
  (headers.getAll "cookie".toList).findSome? fun value => (toStr value).bind fun raw =>
    (raw.splitOn ';').findSome? fun pair => (splitOnce '=' (trimChars pair)).bind
      fun (name, theme) =>
        if name = "wm_theme".toList ∧ (theme = "dark".toList ∨ theme = "light".toList) then
          some theme
        else none

/-! ## Envelopes -/

/-- `serde_json::Value`. -/
inductive Json : Type where
  | null
  | bool (value : Bool)
  | number (text : Text)
  | string (text : Text)
  | array (items : List Json)
  | object (members : List (Text × Json))

namespace Json

/-- `Value::get` of a member. -/
def get : Json → Text → Option Json
  | object members, name => members.lookup name
  | _, _ => none

def asStr : Json → Option Text
  | string text => some text
  | _ => none

end Json

/-- `parse_envelope`; `json` is `serde_json::from_slice`. -/
def parseEnvelope (json : List UInt8 → Option Json) (bytes : List UInt8) :
    Option (Text × Text × Option Text) := do
  let value ← json bytes
  let error ← value.get "error".toList
  let code ← (← error.get "code".toList).asStr
  let message := ((error.get "message".toList).bind Json.asStr).getD []
  let request_id := (error.get "request_id".toList).bind Json.asStr
  return (code, message, request_id)

/-! ## Negotiation -/

/-- What is done with an `f32`: it is parsed, held against zero and against another. -/
structure Float32 (F : Type) : Type where
  parse : Text → Option F
  one : F
  notPositive : F → Bool
  exceeds : F → F → Bool

/-- Whether a media type is one of HTML or of JSON. -/
def htmlKind (media : Text) : Option Bool :=
  if media = "text/html".toList ∨ media = "application/xhtml+xml".toList then some true
  else if media = "application/json".toList ∨ media = "text/json".toList then some false
  else none

variable {F : Type}

/-- The loop body of `prefers_html`. -/
def weigh (float : Float32 F) (best : Option (F × Bool)) (entry : Text) : Option (F × Bool) :=
  let parameters := entry.splitOn ';'
  let media := (trimChars (parameters.head?.getD [])).map Char.toLower
  match htmlKind media with
  | none => best
  | some html =>
    let quality := (((parameters.tail.map trimChars).findSome? (stripPrefix "q=".toList)).bind
      float.parse).getD float.one
    if float.notPositive quality then best
    else match best with
    | some (best_quality, kind) =>
        if float.exceeds quality best_quality then some (quality, html)
        else some (best_quality, kind)
    | none => some (quality, html)

/-- `prefers_html`. -/
def prefersHtml (float : Float32 F) (accept : Option Text) : Bool :=
  match accept with
  | none => false
  | some accept =>
    (((accept.splitOn ',').foldl (weigh float) none).map (·.2)).getD false

/-! ## The layer -/

def htmlContentType : List UInt8 := octets "text/html; charset=utf-8".toList

def isClientError (status : StatusCode) : Bool := 400 ≤ status && status < 500

def isServerError (status : StatusCode) : Bool := 500 ≤ status && status < 600

/-- `is_envelope_json`. -/
def isEnvelopeJson (parts : Parts) : Bool :=
  ((parts.headers.text "content-type").map fun value =>
    decide ("application/json".toList <+: value)).getD false

/-- `envelope_free_page`. -/
def envelopeFreePage (status : StatusCode) (request_id : Option Text) (method : Text)
    (target theme : Option Text) (parts : Parts) : Response :=
  let page : HtmlErrorPage :=
    { status := status
      code := "REQUEST_FAILED".toList
      message := "The response could not be rendered.".toList
      request_id := request_id
      method := some method
      target := target
      retry_after_secs := none
      theme := theme }
  let headers := parts.headers.remove "content-length".toList
  let headers := headers.insert "content-type".toList htmlContentType
  ⟨⟨parts.status, headers⟩, Body.ofText page.render⟩

/-- `run`, with the answer of the inner layers. -/
def run (float : Float32 F) (json : List UInt8 → Option Json) (request : HttpRequest)
    (response : Response) : Response :=
  let accept := request.headers.text "accept"
  let method := request.method
  let target := request.path_and_query
  let theme := pinnedTheme request.headers
  if ¬prefersHtml float accept then response
  else
    let status := response.parts.status
    if ¬isClientError status ∧ ¬isServerError status then response
    else
      let parts := response.parts
      if ¬isEnvelopeJson parts then ⟨parts, response.body⟩
      else match toBytes response.body ENVELOPE_READ_LIMIT with
      | none => envelopeFreePage status none method target theme parts
      | some bytes =>
        match parseEnvelope json bytes with
        | none => ⟨parts, ⟨bytes, false⟩⟩
        | some (code, message, request_id) =>
          let retry_after_secs := (parts.headers.text "retry-after").bind parseUsize
          let page : HtmlErrorPage :=
            { status := status
              code := code
              message := message
              request_id := request_id
              method := some method
              target := target
              retry_after_secs := retry_after_secs
              theme := theme }
          let headers := parts.headers.remove "content-length".toList
          let headers := headers.insert "content-type".toList htmlContentType
          let headers := headers.append "vary".toList (octets "accept".toList)
          let headers := headers.insert "cache-control".toList (octets "no-store".toList)
          ⟨⟨parts.status, headers⟩, Body.ofText page.render⟩

/-! ## What leaves as it came -/

section

variable (float : Float32 F) (json : List UInt8 → Option Json) (request : HttpRequest)
  (response : Response)

/-- A browser is answered with an error of the type of envelopes. -/
structure Negotiated : Prop where
  prefers : prefersHtml float (request.headers.text "accept") = true
  failed : isClientError response.parts.status = true ∨ isServerError response.parts.status = true
  typed : isEnvelopeJson response.parts = true

/-- The body is a JSON document with an error object that carries a code. -/
def HasCode (body : List UInt8) : Prop :=
  ∃ members error code, json body = some (.object members) ∧
    members.lookup "error".toList = some (.object error) ∧
    error.lookup "code".toList = some (.string code)

/-- An error envelope for a browser, no longer than the limit. -/
structure IsEnvelope : Prop extends Negotiated float request response where
  whole : response.body.fails = false
  small : response.body.bytes.length ≤ ENVELOPE_READ_LIMIT
  code : HasCode json response.body.bytes

/-- The response leaves as it came, or it is an envelope. -/
def AltersOnlyEnvelopes : Prop :=
  run float json request response = response ∨ IsEnvelope float json request response

/-- The body is read, and cannot be put back. -/
structure Consumed : Prop extends Negotiated float request response where
  unread : response.body.fails = true ∨ ENVELOPE_READ_LIMIT < response.body.bytes.length

variable {float json request response}

theorem toBytes_eq_none {body : Body} {limit : ℕ} :
    toBytes body limit = none ↔ body.fails = true ∨ limit < body.bytes.length := by
  unfold toBytes
  split
  · rename_i h
    exact iff_of_true rfl h
  · rename_i h
    exact iff_of_false nofun h

theorem toBytes_eq_some {body : Body} {limit : ℕ} {bytes : List UInt8}
    (h : toBytes body limit = some bytes) :
    body = ⟨bytes, false⟩ ∧ bytes.length ≤ limit := by
  unfold toBytes at h
  split at h
  · cases h
  · rename_i hread
    obtain ⟨hfails, hlimit⟩ := not_or.mp hread
    cases h
    exact ⟨by rw [← Bool.eq_false_iff.mpr hfails], not_lt.mp hlimit⟩

theorem hasCode_of_parseEnvelope {bytes : List UInt8} {envelope : Text × Text × Option Text}
    (h : parseEnvelope json bytes = some envelope) : HasCode json bytes := by
  unfold parseEnvelope at h
  obtain ⟨value, hvalue, h⟩ := Option.bind_eq_some_iff.mp h
  obtain ⟨error, herror, h⟩ := Option.bind_eq_some_iff.mp h
  obtain ⟨found, hfound, h⟩ := Option.bind_eq_some_iff.mp h
  obtain ⟨code, hcode, -⟩ := Option.bind_eq_some_iff.mp h
  cases value with
  | object members =>
      cases error with
      | object error =>
          cases found with
          | string code => exact ⟨members, error, code, hvalue, herror, hfound⟩
          | _ => cases hcode
      | _ => cases hfound
  | _ => cases herror

/-- Only what is negotiated is looked into. -/
theorem run_of_not_negotiated (h : ¬Negotiated float request response) :
    run float json request response = response := by
  unfold run
  dsimp only
  split
  · rfl
  · rename_i hprefers
    split
    · rfl
    · rename_i hstatus
      split
      · rfl
      · rename_i htyped
        refine absurd ⟨not_not.mp hprefers, ?_, not_not.mp htyped⟩ h
        by_contra hnot
        exact hstatus (not_or.mp hnot)

/-- What is negotiated becomes a page, or it is put back. -/
theorem run_of_negotiated (json : List UInt8 → Option Json)
    (h : Negotiated float request response) :
    (run float json request response =
        envelopeFreePage response.parts.status none request.method request.path_and_query
          (pinnedTheme request.headers) response.parts ∧
      toBytes response.body ENVELOPE_READ_LIMIT = none) ∨
    ∃ bytes, toBytes response.body ENVELOPE_READ_LIMIT = some bytes ∧
      (run float json request response = ⟨response.parts, ⟨bytes, false⟩⟩ ∨
        HasCode json bytes) := by
  have hstatus : ¬(¬isClientError response.parts.status = true ∧
      ¬isServerError response.parts.status = true) := by
    rintro ⟨hclient, hserver⟩
    exact h.failed.elim hclient hserver
  cases hbytes : toBytes response.body ENVELOPE_READ_LIMIT with
  | none =>
      refine Or.inl ⟨?_, rfl⟩
      unfold run
      dsimp only
      rw [if_neg (not_not.mpr h.prefers), if_neg hstatus, if_neg (not_not.mpr h.typed), hbytes]
  | some bytes =>
      refine Or.inr ⟨bytes, rfl, ?_⟩
      cases henvelope : parseEnvelope json bytes with
      | none =>
          refine Or.inl ?_
          unfold run
          dsimp only
          rw [if_neg (not_not.mpr h.prefers), if_neg hstatus, if_neg (not_not.mpr h.typed), hbytes]
          dsimp only
          rw [henvelope]
      | some envelope => exact Or.inr (hasCode_of_parseEnvelope henvelope)

/-- The page has another type than what it is served for. -/
theorem get_insert (headers : HeaderMap) (name : Text) (value : List UInt8) :
    (headers.insert name value).get name = some value := by
  have hnone : (headers.remove name).filter (·.1 = name) = [] := by
    rw [HeaderMap.remove, List.filter_filter, List.filter_eq_nil_iff]
    simp
  unfold HeaderMap.get HeaderMap.getAll HeaderMap.insert HeaderMap.append
  rw [List.filter_append, hnone]
  simp

theorem isEnvelopeJson_envelopeFreePage (status : StatusCode) (request_id : Option Text)
    (method : Text) (target theme : Option Text) (parts : Parts) :
    isEnvelopeJson (envelopeFreePage status request_id method target theme parts).parts = false := by
  unfold isEnvelopeJson envelopeFreePage HeaderMap.text
  dsimp only
  rw [get_insert]
  decide +kernel

/-- **When only envelopes are altered**: the response is not one that a browser would be shown
a page for, or its body can be read within the limit. -/
theorem altersOnlyEnvelopes_iff :
    AltersOnlyEnvelopes float json request response ↔ ¬Consumed float request response := by
  constructor
  · rintro halters ⟨hnegotiated, hunread⟩
    rcases halters with hsame | henvelope
    · rcases run_of_negotiated json hnegotiated with ⟨hpage, -⟩ | ⟨bytes, hbytes, -⟩
      · have htyped := hnegotiated.typed
        rw [← hsame, hpage, isEnvelopeJson_envelopeFreePage] at htyped
        cases htyped
      · rw [toBytes_eq_none.mpr hunread] at hbytes
        cases hbytes
    · rcases hunread with hfails | hlong
      · rw [henvelope.whole] at hfails
        cases hfails
      · exact absurd henvelope.small (not_le.mpr hlong)
  · intro hconsumed
    by_cases hnegotiated : Negotiated float request response
    · rcases run_of_negotiated json hnegotiated with ⟨-, hnone⟩ | ⟨bytes, hbytes, hrun⟩
      · exact absurd ⟨hnegotiated, toBytes_eq_none.mp hnone⟩ hconsumed
      · obtain ⟨hbody, hsmall⟩ := toBytes_eq_some hbytes
        rcases hrun with hrun | hcode
        · refine Or.inl ?_
          rw [hrun, ← hbody]
        · refine Or.inr ⟨hnegotiated, ?_, ?_, ?_⟩
          · rw [hbody]
          · rw [hbody]
            exact hsmall
          · rw [hbody]
            exact hcode
    · exact Or.inl (run_of_not_negotiated hnegotiated)

end

/-! ## A long answer -/

/-- Without weights every entry counts the same. -/
def unweighted : Float32 ℕ where
  parse := fun _ => none
  one := 1
  notPositive := fun q => q == 0
  exceeds := fun p q => decide (q < p)

/-- JSON numbers of digits. -/
def digitsJson (bytes : List UInt8) : Option Json :=
  if bytes ≠ [] ∧ bytes.all (fun b => 48 ≤ b && b ≤ 57) = true then
    some (.number (decodeLossy bytes))
  else none

def browser : HttpRequest where
  method := "GET".toList
  path_and_query := some "/ext/api".toList
  headers := [("accept".toList, octets "text/html".toList)]

/-- A gateway error with JSON of one byte more than is read. -/
def longAnswer : Response where
  parts := ⟨502, [("content-type".toList, octets "application/json".toList)]⟩
  body := ⟨List.replicate (ENVELOPE_READ_LIMIT + 1) 49, false⟩

/-- It is no envelope, and it is replaced by a page. -/
theorem long_answer_replaced : ¬HasCode digitsJson longAnswer.body.bytes ∧
    ¬AltersOnlyEnvelopes unweighted digitsJson browser longAnswer := by
  have hdigits : ¬HasCode digitsJson longAnswer.body.bytes := by
    rintro ⟨members, error, code, hread, -⟩
    unfold digitsJson at hread
    split at hread
    · cases hread
    · cases hread
  refine ⟨hdigits, fun halters => ?_⟩
  have hnegotiated : Negotiated unweighted browser longAnswer :=
    ⟨by decide +kernel, Or.inr (by decide), by decide +kernel⟩
  have hlong : ENVELOPE_READ_LIMIT < longAnswer.body.bytes.length := by
    show ENVELOPE_READ_LIMIT < (List.replicate (ENVELOPE_READ_LIMIT + 1) (49 : UInt8)).length
    rw [List.length_replicate]
    exact Nat.lt_succ_self _
  rcases halters with hsame | henvelope
  · rcases run_of_negotiated digitsJson hnegotiated with ⟨hpage, -⟩ | ⟨bytes, hbytes, -⟩
    · have htyped := hnegotiated.typed
      rw [← hsame, hpage, isEnvelopeJson_envelopeFreePage] at htyped
      cases htyped
    · rw [toBytes_eq_none.mpr (Or.inr hlong)] at hbytes
      cases hbytes
  · exact hdigits henvelope.code

end Wallermax.Server
