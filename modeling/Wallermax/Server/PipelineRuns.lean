import Wallermax.Base.Ascii
import Wallermax.Base.Runs
import Wallermax.Server.Pipeline

/-!
# What every answer carries

Whatever the requests do in the pipeline, and in whichever order, an answer leaves with the
security headers and with the id the inside knew the request by, an error of a layer reaches the
client as it was raised, and the counters agree with the answers.
-/

namespace Wallermax.Server

open Wallermax.Base
open Wallermax.Config (AppConfig SecurityHeadersConfig Layer CorsLayer layerIf)
open Wallermax.Limits (RateLimiter Instant)
open Wallermax.Proxy (IpAddr)

/-! ## Headers -/

namespace HeaderMap

theorem getAll_insertText_of_ne (headers : HeaderMap) {name other : Text} (h : name ≠ other)
    (text : Text) : (headers.insertText other text).getAll name = headers.getAll name := by
  unfold insertText
  cases fromStr text with
  | none => rfl
  | some value => exact headers.getAll_insert_of_ne h value

theorem getAll_insertAll_of_notMem (more : HeaderMap) {name : Text}
    (h : name ∉ more.map (·.1)) (headers : HeaderMap) :
    (headers.insertAll more).getAll name = headers.getAll name := by
  induction more generalizing headers with
  | nil => rfl
  | cons header more ih =>
      rw [List.map_cons, List.mem_cons, not_or] at h
      exact (ih h.2 _).trans (headers.getAll_insert_of_ne h.1 header.2)

theorem getAll_insertAll_of_mem {more : HeaderMap} (hnodup : (more.map (·.1)).Nodup)
    {header : Text × List UInt8} (h : header ∈ more) (headers : HeaderMap) :
    (headers.insertAll more).getAll header.1 = [header.2] := by
  induction more generalizing headers with
  | nil => cases h
  | cons first more ih =>
      obtain ⟨hfirst, hnodup⟩ := List.nodup_cons.mp hnodup
      rcases List.mem_cons.mp h with rfl | h
      · exact (getAll_insertAll_of_notMem more hfirst _).trans
          (headers.getAll_insert_self header.1 header.2)
      · exact ih hnodup h _

end HeaderMap

def securityNames : List Text :=
  ["x-content-type-options".toList, "x-frame-options".toList, "referrer-policy".toList, cspName,
    "strict-transport-security".toList]

theorem sublist_headerPairs (config : SecurityHeadersConfig) :
    ((headerPairs config).map (·.1)).Sublist securityNames := by
  have hkept : ∀ pairs : List (Text × String), ((pairs.filterMap fun pair =>
      (fromStr pair.2.toList).map fun value => (pair.1, value)).map (·.1)).Sublist
        (pairs.map (·.1)) := by
    intro pairs
    induction pairs with
    | nil => exact .slnil
    | cons pair pairs ih =>
        rw [List.filterMap_cons]
        cases fromStr pair.2.toList with
        | none => exact ih.cons _
        | some value => exact ih.cons_cons _
  exact (hkept _).trans (List.filter_sublist.map _)

theorem nodup_headerPairs (config : SecurityHeadersConfig) :
    ((headerPairs config).map (·.1)).Nodup :=
  (sublist_headerPairs config).nodup (by decide)

/-- The value of a header under the live policy. -/
def secured (csp : Option (List UInt8)) (header : Text × List UInt8) : List UInt8 :=
  if header.1 = cspName then csp.getD header.2 else header.2

/-- **Each configured header is there once.** -/
theorem getAll_secure {config : SecurityHeadersConfig} {header : Text × List UInt8}
    (h : header ∈ headerPairs config) (csp : Option (List UInt8)) (headers : HeaderMap) :
    (secure config csp headers).getAll header.1 = [secured csp header] := by
  have hpairs := HeaderMap.getAll_insertAll_of_mem (nodup_headerPairs config) h headers
  unfold secure secured
  cases csp with
  | none =>
      rw [Option.elim_none, hpairs]
      simp
  | some policy =>
      rw [Option.elim_some]
      split
      · rename_i hname
        rw [hname, HeaderMap.getAll_insert_self]
        rfl
      · rename_i hname
        rw [HeaderMap.getAll_insert_of_ne _ hname, hpairs]

theorem getAll_secure_of_notMem {name : Text} (h : name ∉ securityNames)
    (config : SecurityHeadersConfig) (csp : Option (List UInt8)) (headers : HeaderMap) :
    (secure config csp headers).getAll name = headers.getAll name := by
  have hpairs := HeaderMap.getAll_insertAll_of_notMem (headerPairs config)
    (fun hmem => h ((sublist_headerPairs config).subset hmem)) headers
  unfold secure
  cases csp with
  | none => exact hpairs
  | some policy =>
      have hname : name ≠ cspName := fun heq => h (heq ▸ by decide)
      exact (HeaderMap.getAll_insert_of_ne _ hname policy).trans hpairs

/-! ## Ids as values -/

theorem isVisible_of_isIdChar {c : Char} (h : isIdChar c = true) : isVisible c = true := by
  simp only [isIdChar, Bool.or_eq_true, beq_iff_eq] at h
  rcases h with (halphanum | rfl) | rfl
  · have hrange := toNat_of_isAlphanum halphanum
    simp only [isVisible, Bool.or_eq_true, Bool.and_eq_true, decide_eq_true_eq]
    exact .inl ⟨by omega, by omega⟩
  · decide
  · decide

theorem RequestId.fromStr_text (id : RequestId) : fromStr id.text = some (octets id.text) := by
  have hvisible : Auth.isHeaderText id.text = true := by
    rw [Auth.isHeaderText_iff]
    rintro ⟨c, hc, hbad⟩
    have hchar := isVisible_of_isIdChar (List.all_eq_true.mp id.valid.2.2 c hc)
    simp only [isVisible, Bool.or_eq_true, Bool.and_eq_true, decide_eq_true_eq, beq_iff_eq] at hchar
    rcases hchar with ⟨hlow, hhigh⟩ | rfl
    · rcases hbad with ⟨hcontrol, -⟩ | hdelete
      · omega
      · omega
    · exact hbad.elim (fun h => h.2 rfl) (by decide)
  exact if_pos hvisible

def idName : Text := "x-request-id".toList

theorem getAll_insertText_id (headers : HeaderMap) (id : RequestId) :
    (headers.insertText idName id.text).getAll idName = [octets id.text] := by
  unfold HeaderMap.insertText
  rw [id.fromStr_text]
  exact headers.getAll_insert_self idName _

/-! ## What a frame leaves alone -/

variable {F : Type} (float : Float32 F) (app : AppState) (now : Moment)

def rateLimitNames : List Text := ["x-ratelimit-limit".toList, "x-ratelimit-remaining".toList]

/-- The headers a frame changes; a body that was too large is answered anew. -/
def Frame.touches : Frame → List Text
  | .rateLimit _ => rateLimitNames
  | .logging _ => ["x-response-time".toList]
  | .requestId _ => [idName]
  | .cors _ more => "vary".toList :: more.map (·.1)
  | .errorPages _ => pageNames
  | .securityHeaders => securityNames
  | _ => []

def Frame.isBodyLimit : Frame → Bool
  | .bodyLimit _ => true
  | _ => false

theorem getAll_rateLimitHeaders (config : AppConfig) (remaining : ℚ) (headers : HeaderMap)
    {name : Text} (h : name ∉ rateLimitNames) :
    (rateLimitHeaders config remaining headers).getAll name = headers.getAll name := by
  simp only [rateLimitNames, List.mem_cons, List.not_mem_nil, or_false, not_or] at h
  unfold rateLimitHeaders
  rw [HeaderMap.getAll_insert_of_ne _ h.2, HeaderMap.getAll_insertText_of_ne _ h.1]

theorem getAll_alter {frame : Frame} (hbody : frame.isBodyLimit = false) {name : Text}
    (h : name ∉ frame.touches) (reply : Reply) :
    (frame.alter float app now reply).response.parts.headers.getAll name =
      reply.response.parts.headers.getAll name := by
  cases frame with
  | inside => rfl
  | timeout request_id => rfl
  | bodyLimit request_id => cases hbody
  | rateLimit remaining => exact getAll_rateLimitHeaders _ _ _ h
  | logging method =>
      exact HeaderMap.getAll_insertText_of_ne _ (fun hname => h (List.mem_singleton.mpr hname)) _
  | requestId id =>
      exact HeaderMap.getAll_insertText_of_ne _ (fun hname => h (List.mem_singleton.mpr hname)) _
  | cors vary more =>
      simp only [Frame.touches, List.mem_cons, not_or] at h
      refine (HeaderMap.getAll_insertAll_of_notMem more h.2 _).trans ?_
      cases vary with
      | none => rfl
      | some value =>
          rw [Option.elim_some, HeaderMap.getAll_append, if_neg (Ne.symm h.1), List.append_nil]
  | errorPages request => exact getAll_run float fromSlice request reply.response h
  | securityHeaders => exact getAll_secure_of_notMem h _ _ _

theorem status_alter {frame : Frame} (hbody : frame.isBodyLimit = false) (reply : Reply) :
    (frame.alter float app now reply).response.parts.status = reply.response.parts.status := by
  cases frame with
  | bodyLimit request_id => cases hbody
  | errorPages request => exact status_run float fromSlice request reply.response
  | _ => rfl

theorem refused_alter {frame : Frame} (hbody : frame.isBodyLimit = false) (reply : Reply) :
    (frame.alter float app now reply).refused = reply.refused := by
  cases frame with
  | bodyLimit request_id => cases hbody
  | _ => rfl

theorem alter_bodyLimit (request_id : Option Text) (reply : Reply) :
    (Frame.bodyLimit request_id).alter float app now reply =
      if reply.response.parts.status = 413 ∧ ¬isEnvelopeJson reply.response.parts then
        Reply.refuse (.payloadTooLargeUnknownSize app.config.server.max_body_size_bytes) request_id
      else reply := rfl

theorem leave_append (frames more : List Frame) (reply : Reply) :
    leave float app now (frames ++ more) reply =
      ((leave float app now more (leave float app now frames reply).1).1,
        (leave float app now frames reply).2 ++
          (leave float app now more (leave float app now frames reply).1).2) := by
  induction frames generalizing reply with
  | nil => rfl
  | cons frame frames ih =>
      rw [List.cons_append, leave, ih, leave]
      simp [List.append_assoc]

/-! ## Errors on their way out -/

/-- If a layer made the answer, it is that layer's error, with the id of the request. -/
def Reply.Faithful (reply : Reply) (request_id : Option Text) : Prop :=
  ∀ e ∈ reply.refused, e.Carries request_id reply.response

/-- The limiter's refusals. -/
def Reply.isLimited (reply : Reply) : Bool :=
  match reply.refused with
  | some (.RateLimited _ _) => true
  | _ => false

theorem faithful_refuse (e : AppError) (request_id : Option Text) :
    (Reply.refuse e request_id).Faithful request_id := by
  intro e' he
  cases he
  exact e.carries_intoResponse request_id

theorem Reply.Faithful.congr {reply reply' : Reply} {request_id : Option Text}
    (h : reply.Faithful request_id) (hrefused : reply'.refused = reply.refused)
    (hstatus : reply'.response.parts.status = reply.response.parts.status)
    (hbody : reply'.response.body = reply.response.body)
    (htype : reply'.response.parts.headers.getAll "content-type".toList =
      reply.response.parts.headers.getAll "content-type".toList)
    (hretry : reply'.response.parts.headers.getAll "retry-after".toList =
      reply.response.parts.headers.getAll "retry-after".toList) :
    reply'.Faithful request_id := by
  intro e he
  have hold := h e (hrefused ▸ he)
  exact ⟨hstatus.trans hold.status, (HeaderMap.text_congr htype).trans hold.typed,
    (congrArg (Option.bind · _) (HeaderMap.text_congr hretry)).trans hold.delay,
    hbody.trans hold.body⟩

/-- The frames inside of the error pages, of a request with that id. -/
def Frame.Before (request_id : Option Text) : Frame → Prop
  | .timeout id => id = request_id
  | .bodyLimit id => id = request_id
  | .cors _ more => ∀ header ∈ more, header.1 ∈ corsNames
  | .errorPages _ => False
  | .securityHeaders => False
  | _ => True

theorem notMem_touches {frame : Frame} {request_id : Option Text} (h : frame.Before request_id)
    {name : Text} (hname : name ∉ "x-response-time".toList :: idName :: "vary".toList ::
      (rateLimitNames ++ corsNames)) :
    name ∉ frame.touches := by
  simp only [List.mem_cons, List.mem_append, not_or] at hname
  obtain ⟨htime, hid, hvary, hlimit, hcors⟩ := hname
  cases frame with
  | rateLimit remaining => exact hlimit
  | logging method => exact fun hmem => htime (List.mem_singleton.mp hmem)
  | requestId id => exact fun hmem => hid (List.mem_singleton.mp hmem)
  | cors vary more =>
      rintro (- | ⟨-, hmem⟩)
      · exact hvary rfl
      · obtain ⟨header, hheader, rfl⟩ := List.mem_map.mp hmem
        exact hcors (h header hheader)
  | errorPages request => exact h.elim
  | securityHeaders => exact h.elim
  | _ => exact List.not_mem_nil

theorem body_alter {frame : Frame} {request_id : Option Text} (h : frame.Before request_id)
    (hbody : frame.isBodyLimit = false) (reply : Reply) :
    (frame.alter float app now reply).response.body = reply.response.body := by
  cases frame with
  | bodyLimit request_id => cases hbody
  | errorPages request => exact h.elim
  | _ => rfl

theorem faithful_alter {frame : Frame} {request_id : Option Text} (h : frame.Before request_id)
    {reply : Reply} (hreply : reply.Faithful request_id) :
    (frame.alter float app now reply).Faithful request_id := by
  cases hbody : frame.isBodyLimit with
  | true =>
      cases frame with
      | bodyLimit id =>
          cases h
          rw [alter_bodyLimit]
          split
          · exact faithful_refuse _ _
          · exact hreply
      | _ => cases hbody
  | false =>
      exact hreply.congr (refused_alter float app now hbody reply)
        (status_alter float app now hbody reply) (body_alter float app now h hbody reply)
        (getAll_alter float app now hbody (notMem_touches h (by decide)) reply)
        (getAll_alter float app now hbody (notMem_touches h (by decide)) reply)

/-- The limiter's refusals stay what they are, and there are no others. -/
theorem isLimited_alter {frame : Frame} {request_id : Option Text} (h : frame.Before request_id)
    {reply : Reply} (hreply : reply.Faithful request_id) :
    (frame.alter float app now reply).isLimited = reply.isLimited := by
  cases hbody : frame.isBodyLimit with
  | false =>
      unfold Reply.isLimited
      rw [refused_alter float app now hbody reply]
  | true =>
      cases frame with
      | bodyLimit id =>
          rw [alter_bodyLimit]
          split
          · rename_i htoo
            cases hlimited : reply.isLimited with
            | false => rfl
            | true =>
                unfold Reply.isLimited at hlimited
                split at hlimited
                · rename_i message secs hrefused
                  have hstatus := (hreply _ hrefused).status
                  rw [htoo.1] at hstatus
                  cases hstatus
                · cases hlimited
          · rfl
      | _ => cases hbody

/-- The frames inside of the logging: none of them counts. -/
def Frame.Inner (request_id : Option Text) (frame : Frame) : Prop :=
  frame.Before request_id ∧ ∀ reply, frame.recorded reply = []

theorem leave_inner {frames : List Frame} {request_id : Option Text}
    (h : ∀ frame ∈ frames, frame.Inner request_id) {reply : Reply}
    (hreply : reply.Faithful request_id) :
    (leave float app now frames reply).1.Faithful request_id ∧
      (leave float app now frames reply).1.isLimited = reply.isLimited ∧
      (leave float app now frames reply).2 = [] := by
  induction frames generalizing reply with
  | nil => exact ⟨hreply, rfl, rfl⟩
  | cons frame frames ih =>
      obtain ⟨hbefore, hrecorded⟩ := h frame List.mem_cons_self
      obtain ⟨hfaithful, hlimited, hnone⟩ := ih (fun f hf => h f (List.mem_cons_of_mem _ hf))
        (faithful_alter float app now hbefore hreply)
      refine ⟨hfaithful, hlimited.trans (isLimited_alter float app now hbefore hreply), ?_⟩
      rw [leave, hrecorded, List.nil_append]
      exact hnone

/-! ## From the logging outwards -/

def logFrames (app : AppState) (r : Arrival) : List Frame :=
  if app.config.middleware.logging then [.logging r.method] else []

def idFrames (id : Option RequestId) : List Frame := (id.map Frame.requestId).toList

def secFrames (app : AppState) : List Frame :=
  if app.config.middleware.security_headers then [.securityHeaders] else []

/-- What is promised of an answer. -/
structure Proper (float : Float32 F) (app : AppState) (s : Sent) : Prop where
  /-- every configured header is there once, the policy as it was live -/
  secured : app.config.middleware.security_headers = true →
    ∀ header ∈ headerPairs app.config.security_headers,
      s.reply.response.parts.headers.getAll header.1 = [secured s.csp header]
  /-- the id is the one the inside knew -/
  correlated : ∀ id ∈ s.request_id,
    s.reply.response.parts.headers.getAll idName = [octets id.text]
  /-- an error of a layer is shown as it was raised, with that id -/
  shown : ∀ e ∈ s.reply.refused, s.reply.response.parts.status = e.statusCode ∧
    s.reply.response.body = e.shown float (s.request_id.map RequestId.text) s.request.http

/-- The last two frames. -/
theorem proper_leave (r : Arrival) (id : Option RequestId) {reply : Reply}
    (hreply : reply.Faithful (id.map RequestId.text))
    (hid : ∀ i ∈ id, reply.response.parts.headers.getAll idName = [octets i.text]) :
    Proper float app
        ⟨r, id, now.csp, (leave float app now (.errorPages r.http :: secFrames app) reply).1⟩ ∧
      (leave float app now (.errorPages r.http :: secFrames app) reply).2 = [] ∧
      (leave float app now (.errorPages r.http :: secFrames app) reply).1.isLimited =
        reply.isLimited := by
  have hpages : (Frame.errorPages r.http).isBodyLimit = false := rfl
  have hpage : ∀ i ∈ id, ((Frame.errorPages r.http).alter float app now
      reply).response.parts.headers.getAll idName = [octets i.text] := fun i hi =>
    (getAll_alter float app now hpages (show idName ∉ pageNames by decide) reply).trans (hid i hi)
  have hshown : ∀ e ∈ reply.refused,
      ((Frame.errorPages r.http).alter float app now reply).response.parts.status =
          e.statusCode ∧
        ((Frame.errorPages r.http).alter float app now reply).response.body =
          e.shown float (id.map RequestId.text) r.http := fun e he =>
    ⟨(status_alter float app now hpages reply).trans (hreply e he).status,
      (hreply e he).run float r.http⟩
  unfold secFrames
  cases hsecurity : app.config.middleware.security_headers with
  | false =>
      exact ⟨⟨fun h => absurd (hsecurity.symm.trans h) Bool.false_ne_true, hpage, hshown⟩, rfl, rfl⟩
  | true =>
      refine ⟨⟨fun _ header hheader => getAll_secure hheader _ _, fun i hi => ?_, hshown⟩, rfl, rfl⟩
      exact (getAll_secure_of_notMem (by decide) _ _ _).trans (hpage i hi)

theorem status_leave {frames : List Frame} (h : ∀ frame ∈ frames, frame.isBodyLimit = false)
    (reply : Reply) :
    (leave float app now frames reply).1.response.parts.status = reply.response.parts.status := by
  induction frames generalizing reply with
  | nil => rfl
  | cons frame frames ih =>
      exact (ih (fun f hf => h f (List.mem_cons_of_mem _ hf)) _).trans
        (status_alter float app now (h frame List.mem_cons_self) reply)

theorem getAll_leave {frames : List Frame} {name : Text}
    (h : ∀ frame ∈ frames, frame.isBodyLimit = false ∧ name ∉ frame.touches) (reply : Reply) :
    (leave float app now frames reply).1.response.parts.headers.getAll name =
      reply.response.parts.headers.getAll name := by
  induction frames generalizing reply with
  | nil => rfl
  | cons frame frames ih =>
      obtain ⟨hbody, hname⟩ := h frame List.mem_cons_self
      exact (ih (fun f hf => h f (List.mem_cons_of_mem _ hf)) _).trans
        (getAll_alter float app now hbody hname reply)

def Frame.IsCors (frame : Frame) : Prop :=
  ∃ vary more, frame = .cors vary more ∧ ∀ header ∈ more, header.1 ∈ corsNames

theorem Frame.IsCors.inner {frame : Frame} (h : frame.IsCors) (request_id : Option Text) :
    frame.Inner request_id := by
  obtain ⟨vary, more, rfl, hnamed⟩ := h
  exact ⟨hnamed, fun _ => rfl⟩

theorem Frame.IsCors.keeps_id {frame : Frame} (h : frame.IsCors) :
    frame.isBodyLimit = false ∧ idName ∉ frame.touches := by
  obtain ⟨vary, more, rfl, hnamed⟩ := h
  refine ⟨rfl, ?_⟩
  rintro (- | ⟨-, hmem⟩)
  obtain ⟨header, hheader, hname⟩ := List.mem_map.mp hmem
  exact absurd (hname ▸ hnamed header hheader) (by decide)

/-- The frames of a request that got past the CORS layer, the innermost first. -/
def Framed (app : AppState) (r : Arrival) (id : Option RequestId) (frames : List Frame) : Prop :=
  ∃ inner cors, frames = inner ++ (logFrames app r ++ (idFrames id ++
      (cors ++ (.errorPages r.http :: secFrames app)))) ∧
    (∀ frame ∈ inner, frame.Inner (id.map RequestId.text)) ∧ ∀ frame ∈ cors, Frame.IsCors frame

/-- **An answer through all its frames**: what is promised of it, and one count of the status
the client sees. -/
theorem Framed.leave {r : Arrival} {id : Option RequestId} {frames : List Frame}
    (h : Framed app r id frames) {reply : Reply} (hreply : reply.Faithful (id.map RequestId.text)) :
    Proper float app ⟨r, id, now.csp, (leave float app now frames reply).1⟩ ∧
      (leave float app now frames reply).1.isLimited = reply.isLimited ∧
      (leave float app now frames reply).2 =
        if app.config.middleware.logging then
          [(r.method, (leave float app now frames reply).1.response.parts.status)] else [] := by
  obtain ⟨inner, cors, rfl, hinner, hcors⟩ := h
  simp only [leave_append]
  obtain ⟨hfirst, hfirst_limited, hfirst_none⟩ := leave_inner float app now hinner hreply
  generalize (Server.leave float app now inner reply).1 = first at *
  -- the logging counts the status as it is here
  have hlogged : (Server.leave float app now (logFrames app r) first).1.Faithful
        (id.map RequestId.text) ∧
      (Server.leave float app now (logFrames app r) first).1.isLimited = first.isLimited ∧
      (Server.leave float app now (logFrames app r) first).2 =
        if app.config.middleware.logging then [(r.method, first.response.parts.status)] else [] := by
    unfold logFrames
    cases app.config.middleware.logging with
    | false => exact ⟨hfirst, rfl, rfl⟩
    | true =>
        have hbefore : (Frame.logging r.method).Before (id.map RequestId.text) := trivial
        exact ⟨faithful_alter float app now hbefore hfirst,
          isLimited_alter float app now hbefore hfirst, rfl⟩
  have hlogged_status : (Server.leave float app now (logFrames app r)
      first).1.response.parts.status = first.response.parts.status := by
    refine status_leave float app now ?_ first
    unfold logFrames
    split
    · simp [Frame.isBodyLimit]
    · simp
  obtain ⟨hsecond, hsecond_limited, hsecond_records⟩ := hlogged
  generalize (Server.leave float app now (logFrames app r) first).1 = second at *
  -- the id is put on the answer, and nothing further out touches it
  have hids : ∀ frame ∈ idFrames id, frame.Inner (id.map RequestId.text) ∧
      frame.isBodyLimit = false := by
    unfold idFrames
    cases id with
    | none => simp
    | some i => simp [Frame.Inner, Frame.Before, Frame.recorded, Frame.isBodyLimit]
  obtain ⟨hthird, hthird_limited, hthird_none⟩ := leave_inner float app now
    (fun frame hframe => (hids frame hframe).1) hsecond
  have hthird_status := status_leave float app now
    (fun frame hframe => (hids frame hframe).2) second
  have hthird_id : ∀ i ∈ id, (Server.leave float app now (idFrames id)
      second).1.response.parts.headers.getAll idName = [octets i.text] := by
    rintro i rfl
    exact getAll_insertText_id _ i
  generalize (Server.leave float app now (idFrames id) second).1 = third at *
  obtain ⟨hfourth, hfourth_limited, hfourth_none⟩ := leave_inner float app now
    (fun frame hframe => (hcors frame hframe).inner _) hthird
  have hfourth_status := status_leave float app now
    (fun frame hframe => (hcors frame hframe).keeps_id.1) third
  have hfourth_id : ∀ i ∈ id, (Server.leave float app now cors
      third).1.response.parts.headers.getAll idName = [octets i.text] := fun i hi =>
    (getAll_leave float app now (fun frame hframe => (hcors frame hframe).keeps_id) third).trans (hthird_id i hi)
  generalize (Server.leave float app now cors third).1 = fourth at *
  obtain ⟨hproper, hlast_none, hlast_limited⟩ := proper_leave float app now r id hfourth
    hfourth_id
  have hlast_status : (Server.leave float app now (.errorPages r.http :: secFrames app)
      fourth).1.response.parts.status = fourth.response.parts.status := by
    refine status_leave float app now ?_ fourth
    unfold secFrames
    split
    · simp [Frame.isBodyLimit]
    · simp [Frame.isBodyLimit]
  refine ⟨hproper, ?_, ?_⟩
  · rw [hlast_limited, hfourth_limited, hthird_limited, hsecond_limited, hfirst_limited]
  · rw [hfirst_none, hsecond_records, hthird_none, hfourth_none, hlast_none, hlast_status,
      hfourth_status, hthird_status, hlogged_status]
    simp

/-! ## The way in -/

/-- Answered by the CORS layer. -/
def isPreflight (app : AppState) (r : Arrival) : Bool :=
  app.config.middleware.cors && r.method == "OPTIONS".toList

/-- The layers inside of the logging, from the outside in. -/
def innerLayers (config : AppConfig) : List Layer :=
  layerIf config.middleware.rate_limit .rateLimit ++
    (layerIf config.middleware.body_limit .bodyLimit ++
      (layerIf config.middleware.timeout .timeout ++
        (layerIf config.middleware.body_limit
          (.requestBodyLimit config.server.max_body_size_bytes) ++
            layerIf config.templates.enabled .templates)))

theorem layers_reverse (app : AppState) : ∃ cors : Option CorsLayer,
    cors.isSome = app.config.middleware.cors ∧
    app.layers.reverse = layerIf app.config.middleware.security_headers .securityHeaders ++
      .errorPages :: ((cors.map Layer.cors).toList ++
        (layerIf app.config.middleware.request_id .requestId ++
          (layerIf app.config.middleware.logging .logging ++ innerLayers app.config))) := by
  have hif : ∀ (enabled : Bool) (layer : Layer), (layerIf enabled layer).reverse =
      layerIf enabled layer := by
    rintro (- | -) layer <;> rfl
  have hbuilt := app.built
  unfold Config.apply at hbuilt
  dsimp only at hbuilt
  cases hcors : app.config.middleware.cors with
  | true =>
      rw [if_pos hcors] at hbuilt
      obtain ⟨cors, hlayer, hbuilt⟩ := Option.bind_eq_some_iff.mp hbuilt
      obtain ⟨layer, -, rfl⟩ := Option.map_eq_some_iff.mp hlayer
      refine ⟨some layer, rfl, ?_⟩
      rw [← Option.some.inj hbuilt]
      simp [hif, innerLayers]
  | false =>
      rw [if_neg (by rw [hcors]; exact Bool.false_ne_true)] at hbuilt
      obtain ⟨cors, hlayer, hbuilt⟩ := Option.bind_eq_some_iff.mp hbuilt
      cases hlayer
      refine ⟨none, rfl, ?_⟩
      rw [← Option.some.inj hbuilt]
      simp [hif, innerLayers]

/-- How a request comes through the inner layers: it leaves inner frames, a layer that answers
does so with an error, and the limiter's errors are counted. -/
structure Entering (request_id : Option RequestId) (frames : List Frame) (s : Counters)
    (passage : Passage) (s' : Counters) : Prop where
  framed : ∃ inner, passage.frames = inner ++ frames ∧
    ∀ frame ∈ inner, frame.Inner (request_id.map RequestId.text)
  same_id : passage.request_id = request_id
  served : s'.requests_served = s.requests_served
  faithful : ∀ reply ∈ passage.reply, reply.Faithful (request_id.map RequestId.text)
  limited : s'.rate_limited_requests = s.rate_limited_requests +
    if passage.reply.any Reply.isLimited then 1 else 0

theorem faithful_rateLimited (config : AppConfig) (secs : UInt64) (request_id : Option Text) :
    ((Reply.refuse (.rateLimited secs) request_id).mapHeaders
      (rateLimitHeaders config 0)).Faithful request_id :=
  (faithful_refuse (.rateLimited secs) request_id).congr rfl rfl rfl
    (getAll_rateLimitHeaders _ _ _ (by decide)) (getAll_rateLimitHeaders _ _ _ (by decide))

/-- One inner layer. -/
theorem enterLayer_inner (entry : Entry) (request_id : Option RequestId) (s : Counters)
    {layer : Layer} (h : layer ∈ innerLayers app.config) :
    (∃ frame s', enterLayer app entry request_id s layer = (.passes frame request_id, s') ∧
      frame.Inner (request_id.map RequestId.text) ∧
      s'.requests_served = s.requests_served ∧
      s'.rate_limited_requests = s.rate_limited_requests) ∨
    ∃ reply s', enterLayer app entry request_id s layer = (.answers reply, s') ∧
      reply.Faithful (request_id.map RequestId.text) ∧
      s'.requests_served = s.requests_served ∧
      s'.rate_limited_requests = s.rate_limited_requests + if reply.isLimited then 1 else 0 := by
  have hpass : ∀ {frame : Frame}, frame.Before (request_id.map RequestId.text) →
      (∀ reply, frame.recorded reply = []) → frame.Inner (request_id.map RequestId.text) :=
    fun hbefore hrecorded => ⟨hbefore, hrecorded⟩
  cases layer with
  | templates => exact .inl ⟨_, s, rfl, hpass trivial fun _ => rfl, rfl, rfl⟩
  | requestBodyLimit max => exact .inl ⟨_, s, rfl, hpass trivial fun _ => rfl, rfl, rfl⟩
  | timeout => exact .inl ⟨_, s, rfl, hpass rfl fun _ => rfl, rfl, rfl⟩
  | bodyLimit =>
      unfold enterLayer
      dsimp only
      cases (declaredContentLength entry.request.headers).filter
          (app.config.server.max_body_size_bytes < ·) with
      | some declared =>
          exact .inr ⟨_, s, rfl, faithful_refuse _ _, rfl, (UInt64.add_zero _).symm⟩
      | none => exact .inl ⟨_, s, rfl, hpass rfl fun _ => rfl, rfl, rfl⟩
  | rateLimit =>
      unfold enterLayer enterRateLimit
      dsimp only
      split
      · exact .inl ⟨_, s, rfl, hpass trivial fun _ => rfl, rfl, rfl⟩
      · rcases s.limiter.tryAcquireAt entry.clock (clientIp app entry.request) entry.now with
          ⟨remaining | secs, limiter⟩
        · exact .inl ⟨_, _, rfl, hpass trivial fun _ => rfl, rfl, rfl⟩
        · exact .inr ⟨_, _, rfl, faithful_rateLimited _ _ _, rfl, rfl⟩
  | _ =>
      unfold innerLayers layerIf at h
      split_ifs at h <;> simp at h

theorem enter_inner (entry : Entry) {layers : List Layer}
    (h : ∀ layer ∈ layers, layer ∈ innerLayers app.config) (request_id : Option RequestId)
    (frames : List Frame) (s : Counters) :
    Entering request_id frames s (enter app entry layers request_id frames s).1
      (enter app entry layers request_id frames s).2 := by
  induction layers generalizing frames s with
  | nil =>
      exact ⟨⟨[], rfl, by simp⟩, rfl, rfl, by simp [enter], (UInt64.add_zero _).symm⟩
  | cons layer layers ih =>
      unfold enter
      rcases enterLayer_inner app entry request_id s (h layer List.mem_cons_self) with
        ⟨frame, s', hlayer, hframe, hserved, hlimited⟩ | ⟨reply, s', hlayer, hreply, hserved, hlimited⟩
      · rw [hlayer]
        have hrest := ih (fun l hl => h l (List.mem_cons_of_mem _ hl)) (frame :: frames) s'
        obtain ⟨inner, hframes, hinner⟩ := hrest.framed
        refine ⟨⟨inner ++ [frame], ?_, ?_⟩, hrest.same_id, hrest.served.trans hserved,
          hrest.faithful, ?_⟩
        · rw [List.append_assoc]
          exact hframes
        · intro f hf
          rcases List.mem_append.mp hf with hf | hf
          · exact hinner f hf
          · rw [List.mem_singleton.mp hf]
            exact hframe
        · rw [← hlimited]
          exact hrest.limited
      · rw [hlayer]
        refine ⟨⟨[], rfl, by simp⟩, rfl, hserved, ?_, hlimited⟩
        intro reply' hreply'
        cases hreply'
        exact hreply

/-- The id a request gets. -/
def assigned (app : AppState) (entry : Entry) : Option RequestId :=
  if app.config.middleware.request_id then some (requestIdOf app entry) else none

section

variable (entry : Entry) (s : Counters)

/-- Past the error pages nothing has happened yet. -/
theorem enter_pages (layers : List Layer) :
    enter app entry (layerIf app.config.middleware.security_headers .securityHeaders ++
      .errorPages :: layers) none [] s =
        enter app entry layers none (.errorPages entry.request.http :: secFrames app) s := by
  unfold secFrames
  cases app.config.middleware.security_headers <;> rfl

/-- The request id and the logging. -/
theorem enter_middle (layers : List Layer) (frames : List Frame) :
    enter app entry (layerIf app.config.middleware.request_id .requestId ++
      (layerIf app.config.middleware.logging .logging ++ layers)) none frames s =
        enter app entry layers (assigned app entry)
          (logFrames app entry.request ++ (idFrames (assigned app entry) ++ frames))
          { s with
            requests_served := s.requests_served +
              if app.config.middleware.logging then 1 else 0 } := by
  have hzero : { s with requests_served := s.requests_served + 0 } = s := by
    rw [UInt64.add_zero]
  unfold assigned logFrames idFrames
  cases app.config.middleware.request_id <;> cases app.config.middleware.logging
  · show _ = enter app entry layers none frames { s with requests_served := s.requests_served + 0 }
    rw [hzero]
    rfl
  · rfl
  · show _ = enter app entry layers (some (requestIdOf app entry))
      (.requestId (requestIdOf app entry) :: frames)
      { s with requests_served := s.requests_served + 0 }
    rw [hzero]
    rfl
  · rfl

theorem enter_preflight (h : isPreflight app entry.request = true) : ∃ response,
    enter app entry app.layers.reverse none [] s =
      (⟨.errorPages entry.request.http :: secFrames app, none, some ⟨response, none⟩⟩, s) := by
  obtain ⟨cors, hsome, hlayers⟩ := layers_reverse app
  simp only [isPreflight, Bool.and_eq_true, beq_iff_eq] at h
  rw [h.1] at hsome
  obtain ⟨layer, rfl⟩ := Option.isSome_iff_exists.mp hsome
  refine ⟨(app.cors layer).preflight entry.request, ?_⟩
  rw [hlayers, enter_pages, Option.map_some, Option.toList_some, List.singleton_append, enter,
    enterLayer, if_pos h.2]

/-- **The way in**, for a request the CORS layer lets pass. -/
theorem enter_framed (h : isPreflight app entry.request = false) :
    let out := enter app entry app.layers.reverse none [] s
    Framed app entry.request (assigned app entry) out.1.frames ∧
      out.1.request_id = assigned app entry ∧
      out.2.requests_served = s.requests_served +
        (if app.config.middleware.logging then 1 else 0) ∧
      (∀ reply ∈ out.1.reply, reply.Faithful ((assigned app entry).map RequestId.text)) ∧
      out.2.rate_limited_requests = s.rate_limited_requests +
        if out.1.reply.any Reply.isLimited then 1 else 0 := by
  obtain ⟨cors, hsome, hlayers⟩ := layers_reverse app
  have hcors : ∃ frames, (∀ frame ∈ frames, Frame.IsCors frame) ∧
      enter app entry app.layers.reverse none [] s =
        enter app entry (layerIf app.config.middleware.request_id .requestId ++
          (layerIf app.config.middleware.logging .logging ++ innerLayers app.config)) none
            (frames ++ .errorPages entry.request.http :: secFrames app) s := by
    rw [hlayers, enter_pages]
    cases cors with
    | none => exact ⟨[], by simp, rfl⟩
    | some layer =>
        have hmethod : entry.request.method ≠ "OPTIONS".toList := by
          intro hmethod
          rw [isPreflight, ← hsome, hmethod] at h
          exact absurd h (by simp)
        refine ⟨[.cors ((app.cors layer).vary entry.request)
          ((app.cors layer).headers entry.request)], ?_, ?_⟩
        · intro frame hframe
          rw [List.mem_singleton.mp hframe]
          exact ⟨_, _, rfl, (app.cors layer).named entry.request⟩
        · rw [Option.map_some, Option.toList_some, List.singleton_append, enter, enterLayer,
            if_neg hmethod]
          rfl
  obtain ⟨frames, hframes, henter⟩ := hcors
  dsimp only
  rw [henter, enter_middle]
  have hinner := enter_inner app entry (fun _ hl => hl) (assigned app entry)
    (logFrames app entry.request ++ (idFrames (assigned app entry) ++
      (frames ++ .errorPages entry.request.http :: secFrames app)))
    { s with requests_served := s.requests_served + if app.config.middleware.logging then 1 else 0 }
  obtain ⟨inner, hshape, hgood⟩ := hinner.framed
  exact ⟨⟨inner, frames, hshape, hgood, hframes⟩, hinner.same_id, hinner.served, hinner.faithful,
    hinner.limited⟩

end

/-! ## Runs -/

/-- A request the limiter refused. -/
def Sent.isLimited (s : Sent) : Bool := s.reply.isLimited

def Sent.isLogged (app : AppState) (s : Sent) : Bool := !isPreflight app s.request

/-- The requests the logging counts: the answered, those inside and those given up. -/
def arrived (app : AppState) (s : Serving) : ℕ :=
  (s.sent.filter (·.isLogged app)).length + s.in_flight.length + s.hung_up

/-- The id of a request: there is one exactly if the layer is on, and it is the client's own if
the client may choose and has chosen a good one. -/
def Identified (app : AppState) (r : Arrival) (id : Option RequestId) : Prop :=
  id.isSome = app.config.middleware.request_id ∧
    (app.overwrite = false → ∀ chosen, RequestId.fromClient (r.headers.get idName) = some chosen →
      ∀ i ∈ id, i = chosen)

theorem identified_assigned (entry : Entry) :
    Identified app entry.request (assigned app entry) := by
  refine ⟨?_, fun hmode chosen hchosen i hi => ?_⟩
  · unfold assigned
    cases app.config.middleware.request_id <;> rfl
  · unfold assigned at hi
    split at hi
    · rw [← Option.some.inj hi, requestIdOf, hmode]
      show (RequestId.fromClient (entry.request.headers.get idName)).getD entry.uuid = chosen
      rw [hchosen, Option.getD_some]
    · cases hi

/-- What holds of a request inside. -/
structure Inside (app : AppState) (flight : InFlight) : Prop where
  logged : isPreflight app flight.request = false
  framed : Framed app flight.request flight.request_id flight.frames
  identified : Identified app flight.request flight.request_id

/-- What holds of an answer. -/
structure Answered (float : Float32 F) (app : AppState) (s : Sent) : Prop
    extends Proper float app s where
  identified : s.isLogged app = true → Identified app s.request s.request_id

/-- What holds at any time, with `owed` requests and `refused` refusals about to be answered. -/
structure Sound (float : Float32 F) (app : AppState) (owed refused : ℕ) (s : Serving) : Prop where
  inside : ∀ flight ∈ s.in_flight, Inside app flight
  answered : ∀ sent ∈ s.sent, Answered float app sent
  served : s.counters.requests_served =
    if app.config.middleware.logging then UInt64.ofNat (arrived app s + owed) else 0
  counted : s.requests_total =
    if app.config.metrics.enabled && app.config.middleware.logging then
      (s.sent.filter (·.isLogged app)).map fun sent =>
        (sent.request.method, sent.reply.response.parts.status)
    else []
  limited : s.counters.rate_limited_requests =
    UInt64.ofNat ((s.sent.filter Sent.isLimited).length + s.throttled + refused)

variable {float app}

theorem ofNat_succ (n : ℕ) : UInt64.ofNat (n + 1) = UInt64.ofNat n + 1 := UInt64.ofNat_add n 1

/-- **An answer is sent** for a request that is not among those inside any more. -/
theorem Sound.send {flight : InFlight} (hflight : Inside app flight) {reply : Reply}
    (hreply : reply.Faithful (flight.request_id.map RequestId.text)) {s : Serving}
    (h : Sound float app 1 (if reply.isLimited then 1 else 0) s) (latency : Text) :
    Sound float app 0 0 (send float app flight reply latency s) := by
  obtain ⟨hproper, hlimited, hcounted⟩ :=
    hflight.framed.leave float app ⟨s.csp, latency⟩ hreply
  have hlogged : Sent.isLogged app ⟨flight.request, flight.request_id, s.csp,
      (leave float app ⟨s.csp, latency⟩ flight.frames reply).1⟩ = true := by
    rw [Sent.isLogged, hflight.logged]
    rfl
  refine ⟨h.inside, ?_, ?_, ?_, ?_⟩
  · intro sent hsent
    rcases List.mem_append.mp hsent with hsent | hsent
    · exact h.answered sent hsent
    · rw [List.mem_singleton.mp hsent]
      exact ⟨hproper, fun _ => hflight.identified⟩
  · have harrived : arrived app (Server.send float app flight reply latency s) =
        arrived app s + 1 := by
      unfold arrived Server.send
      dsimp only
      rw [List.filter_append, List.filter_cons_of_pos hlogged]
      simp only [List.filter_nil, List.length_append, List.length_cons, List.length_nil]
      omega
    rw [harrived]
    exact h.served
  · unfold Server.send
    dsimp only
    rw [h.counted, hcounted, List.filter_append, List.filter_cons_of_pos hlogged]
    cases app.config.metrics.enabled <;> cases app.config.middleware.logging <;> simp
  · refine h.limited.trans (congrArg UInt64.ofNat ?_)
    unfold Server.send
    dsimp only
    rw [List.filter_append, List.length_append, List.filter_singleton]
    have hsame : Sent.isLimited ⟨flight.request, flight.request_id, s.csp,
        (leave float app ⟨s.csp, latency⟩ flight.frames reply).1⟩ = reply.isLimited := hlimited
    rw [hsame]
    cases reply.isLimited
    · rfl
    · simp only [if_true, cond_true, List.length_singleton]
      omega

/-- A request leaves the inside. -/
theorem Sound.erase {s : Serving} (h : Sound float app 0 0 s) {place : ℕ} {flight : InFlight}
    (hplace : s.in_flight[place]? = some flight) :
    Inside app flight ∧
      Sound float app 1 0 { s with in_flight := s.in_flight.eraseIdx place } := by
  refine ⟨h.inside flight (List.mem_of_getElem? hplace), ?_, h.answered, ?_, h.counted, h.limited⟩
  · exact fun f hf => h.inside f (List.mem_of_mem_eraseIdx hf)
  · obtain ⟨hlt, -⟩ := List.getElem?_eq_some_iff.mp hplace
    have harrived : arrived app { s with in_flight := s.in_flight.eraseIdx place } + 1 =
        arrived app s + 0 := by
      unfold arrived
      dsimp only
      rw [List.length_eraseIdx_of_lt hlt]
      omega
    rw [harrived]
    exact h.served

/-- The timeout drops inner frames only, and knows the id. -/
theorem Framed.outsideTimeout {r : Arrival} {id : Option RequestId} {frames outside : List Frame}
    (h : Framed app r id frames) {request_id : Option Text}
    (hout : outsideTimeout frames = some (request_id, outside)) :
    request_id = id.map RequestId.text ∧ Framed app r id outside := by
  obtain ⟨inner, cors, rfl, hinner, hcors⟩ := h
  have hrest : (logFrames app r ++ (idFrames id ++ (cors ++ (.errorPages r.http ::
      secFrames app)))).dropWhile (!·.isTimeout) = [] := by
    rw [List.dropWhile_eq_nil_iff]
    intro frame hframe
    rw [Bool.not_eq_true']
    have hnot : ∀ f, f ∈ logFrames app r ∨ f ∈ idFrames id ∨ f = .errorPages r.http ∨
        f ∈ secFrames app → f.isTimeout = false := by
      unfold logFrames idFrames secFrames
      rintro f (hf | hf | rfl | hf)
      · split at hf
        · rw [List.mem_singleton.mp hf]
          rfl
        · cases hf
      · obtain ⟨i, -, rfl⟩ := Option.map_eq_some_iff.mp (Option.mem_toList.mp hf)
        rfl
      · rfl
      · split at hf
        · rw [List.mem_singleton.mp hf]
          rfl
        · cases hf
    simp only [List.mem_append, List.mem_cons] at hframe
    rcases hframe with hf | hf | hf | hf | hf
    · exact hnot _ (.inl hf)
    · exact hnot _ (.inr (.inl hf))
    · obtain ⟨vary, more, rfl, -⟩ := hcors frame hf
      rfl
    · exact hnot _ (.inr (.inr (.inl hf)))
    · exact hnot _ (.inr (.inr (.inr hf)))
  unfold Server.outsideTimeout at hout
  rw [List.dropWhile_append, hrest] at hout
  cases hdrop : inner.dropWhile (!·.isTimeout) with
  | nil =>
      rw [hdrop] at hout
      cases hout
  | cons frame dropped =>
      have hsuffix : ∀ f ∈ frame :: dropped, f ∈ inner := fun f hf =>
        (List.dropWhile_sublist _).subset (hdrop ▸ hf)
      rw [hdrop] at hout
      cases frame with
      | timeout rid =>
          obtain ⟨rfl, rfl⟩ := Prod.mk.inj (Option.some.inj hout)
          exact ⟨(hinner _ (hsuffix _ List.mem_cons_self)).1, dropped, cors, rfl,
            fun f hf => hinner f (hsuffix f (List.mem_cons_of_mem _ hf)), hcors⟩
      | _ => cases hout

theorem faithful_none (response : Response) (request_id : Option Text) :
    Reply.Faithful ⟨response, none⟩ request_id :=
  fun e he => by cases he

/-- A preflight is answered, and not counted. -/
theorem Sound.send_preflight {s : Serving} (h : Sound float app 0 0 s) {r : Arrival}
    (hr : isPreflight app r = true) (response : Response) (latency : Text) :
    Sound float app 0 0 (Server.send float app ⟨r, none, .errorPages r.http :: secFrames app⟩
      ⟨response, none⟩ latency s) := by
  obtain ⟨hproper, hnone, hlimited⟩ := proper_leave float app ⟨s.csp, latency⟩ r none
    (faithful_none response none) (fun i hi => by cases hi)
  generalize hout : leave float app ⟨s.csp, latency⟩ (.errorPages r.http :: secFrames app)
    ⟨response, none⟩ = out at *
  have hlogged : Sent.isLogged app ⟨r, none, s.csp, out.1⟩ = false := by
    rw [Sent.isLogged, hr]
    rfl
  have hkept : Sent.isLimited ⟨r, none, s.csp, out.1⟩ = false := hlimited
  unfold Server.send
  dsimp only
  rw [hout, hnone]
  refine ⟨h.inside, ?_, ?_, ?_, ?_⟩
  · intro sent hsent
    rcases List.mem_append.mp hsent with hsent | hsent
    · exact h.answered sent hsent
    · rw [List.mem_singleton.mp hsent]
      exact ⟨hproper, fun hcontra => absurd (hcontra.symm.trans hlogged) Bool.false_ne_true.symm⟩
  · refine h.served.trans ?_
    unfold arrived
    dsimp only
    rw [List.filter_append, List.filter_singleton, hlogged, cond_false, List.append_nil]
  · dsimp only
    rw [h.counted, List.filter_append, List.filter_singleton, hlogged, cond_false, List.append_nil,
      List.append_nil, ite_self]
  · dsimp only
    rw [List.filter_append, List.filter_singleton, hkept, cond_false, List.append_nil]
    exact h.limited

/-- A request arrives. -/
theorem Sound.arrive {s t : Serving} (h : Sound float app 0 0 s) {entry : Entry} {latency : Text}
    (ht : serve float app s (.arrive entry latency) = some t) : Sound float app 0 0 t := by
  cases hpreflight : isPreflight app entry.request with
  | true =>
      obtain ⟨response, henter⟩ := enter_preflight app entry s.counters hpreflight
      unfold serve at ht
      dsimp only at ht
      rw [henter] at ht
      rw [← Option.some.inj ht]
      exact h.send_preflight hpreflight response latency
  | false =>
      obtain ⟨hframed, hid, hserved, hfaithful, hlimited⟩ :=
        enter_framed app entry s.counters hpreflight
      unfold serve at ht
      dsimp only at ht hframed hid hserved hfaithful hlimited
      generalize enter app entry app.layers.reverse none [] s.counters = out at *
      obtain ⟨⟨frames, request_id, reply⟩, counters⟩ := out
      dsimp only at hframed hid hserved hfaithful hlimited ht
      subst hid
      have hinside : Inside app ⟨entry.request, assigned app entry, frames⟩ :=
        ⟨hpreflight, hframed, identified_assigned app entry⟩
      have hone : counters.requests_served = if app.config.middleware.logging then
          UInt64.ofNat (arrived app s + 1) else 0 := by
        rw [hserved, h.served]
        cases app.config.middleware.logging
        · rfl
        · exact (ofNat_succ _).symm
      cases reply with
      | none =>
          rw [← Option.some.inj ht]
          refine ⟨?_, h.answered, ?_, h.counted, ?_⟩
          · intro flight hflight
            rcases List.mem_append.mp hflight with hflight | hflight
            · exact h.inside flight hflight
            · rw [List.mem_singleton.mp hflight]
              exact hinside
          · refine hone.trans ?_
            unfold arrived
            dsimp only
            rw [List.length_append, List.length_singleton]
            congr 2
            omega
          · rw [hlimited]
            exact (UInt64.add_zero _).trans h.limited
      | some reply =>
          rw [← Option.some.inj ht]
          have howed : Sound float app 1 (if reply.isLimited then 1 else 0) { s with counters } := by
            refine ⟨h.inside, h.answered, hone, h.counted, ?_⟩
            show counters.rate_limited_requests = _
            rw [hlimited, h.limited, Option.any_some]
            cases reply.isLimited with
            | false => exact UInt64.add_zero _
            | true => exact (ofNat_succ _).symm
          exact Sound.send hinside (hfaithful reply rfl) howed latency

/-- **One event.** -/
theorem Sound.step {s t : Serving} (h : Sound float app 0 0 s) {event : Event}
    (ht : serve float app s event = some t) : Sound float app 0 0 t := by
  cases event with
  | arrive entry latency => exact h.arrive ht
  | answer place response latency =>
      obtain ⟨flight, hplace, rfl⟩ := Option.map_eq_some_iff.mp ht
      obtain ⟨hflight, herased⟩ := h.erase hplace
      exact Sound.send hflight (faithful_none response _) herased latency
  | expire place latency =>
      obtain ⟨flight, hplace, ht⟩ := Option.bind_eq_some_iff.mp ht
      obtain ⟨⟨request_id, frames⟩, hout, rfl⟩ := Option.map_eq_some_iff.mp ht
      obtain ⟨hflight, herased⟩ := h.erase hplace
      obtain ⟨rfl, hframed⟩ := hflight.framed.outsideTimeout hout
      exact Sound.send (⟨hflight.logged, hframed, hflight.identified⟩ :
        Inside app { flight with frames }) (faithful_refuse _ _) herased latency
  | hangUp place =>
      obtain ⟨flight, hplace, rfl⟩ := Option.map_eq_some_iff.mp ht
      obtain ⟨-, herased⟩ := h.erase hplace
      refine ⟨herased.inside, h.answered, ?_, h.counted, h.limited⟩
      have hsame : arrived app { s with
            in_flight := s.in_flight.eraseIdx place
            hung_up := s.hung_up + 1 } + 0 =
          arrived app { s with in_flight := s.in_flight.eraseIdx place } + 1 := by
        unfold arrived
        dsimp only
        omega
      rw [hsame]
      exact herased.served
  | throttle =>
      rw [← Option.some.inj ht]
      refine ⟨h.inside, h.answered, h.served, h.counted, ?_⟩
      show s.counters.rate_limited_requests + 1 = _
      rw [h.limited, ← ofNat_succ]
      rfl
  | publish csp =>
      rw [← Option.some.inj ht]
      exact ⟨h.inside, h.answered, h.served, h.counted, h.limited⟩

theorem Sound.start (limiter : RateLimiter IpAddr) (csp : Option (List UInt8)) :
    Sound float app 0 0 (Serving.start limiter csp) where
  inside := by simp [Serving.start]
  answered := by simp [Serving.start]
  served := by
    cases app.config.middleware.logging <;> rfl
  counted := by
    cases app.config.metrics.enabled <;> cases app.config.middleware.logging <;> rfl
  limited := rfl

/-- **One run.** -/
theorem Sound.run {limiter : RateLimiter IpAddr} {csp : Option (List UInt8)} {events : List Event}
    {s : Serving} (h : Base.run (serve float app) (Serving.start limiter csp) events = some s) :
    Sound float app 0 0 s :=
  run_invariant (serve float app) (fun _ _ _ hs ha => hs.step ha) (Sound.start limiter csp) h

section

variable {limiter : RateLimiter IpAddr} {csp : Option (List UInt8)} {events : List Event}
  {s : Serving}

/-- **The counters and the answers**: the requests served are those that got past the CORS layer,
the metrics hold their methods and the statuses the clients saw, in this order, and the refused
are those the limiter or the login throttle refused. -/
theorem counters_of_run
    (h : Base.run (serve float app) (Serving.start limiter csp) events = some s) :
    s.counters.requests_served =
        (if app.config.middleware.logging then UInt64.ofNat (arrived app s) else 0) ∧
      s.requests_total =
        (if app.config.metrics.enabled && app.config.middleware.logging then
          (s.sent.filter (·.isLogged app)).map fun sent =>
            (sent.request.method, sent.reply.response.parts.status)
        else []) ∧
      s.counters.rate_limited_requests =
        UInt64.ofNat ((s.sent.filter Sent.isLimited).length + s.throttled) :=
  ⟨(Sound.run h).served, (Sound.run h).counted, (Sound.run h).limited⟩

end

/-! ## One request -/

def plainCors : Cors where
  preflight := fun _ => ⟨⟨200, []⟩, ⟨[], false⟩⟩
  vary := fun _ => none
  headers := fun _ => []
  named := by simp

/-- The defaults. -/
def plainApp : AppState where
  config := {}
  overwrite := false
  trusted_proxies := []
  cors := fun _ => plainCors
  layers := [.requestBodyLimit 1048576, .timeout, .bodyLimit, .logging, .requestId, .errorPages,
    .securityHeaders]
  built := rfl

def plainId : RequestId := ⟨"6f2c1e0a".toList, by decide⟩

def plainEntry : Entry where
  request := ⟨"GET".toList, "/nope".toList, some "/nope".toList, [], none⟩
  uuid := plainId
  clock := 0
  now := 0

/-- A request out of time, and one that the inside answers. -/
def plainEvents : List Event :=
  [.arrive plainEntry "0.1".toList, .arrive plainEntry "0.1".toList, .expire 0 "15000.0".toList,
    .answer 0 ⟨⟨200, []⟩, ⟨[], false⟩⟩ "0.2".toList]

theorem isSome_run_plain : (Base.run (serve unweighted plainApp)
    (Serving.start (RateLimiter.new 60 10) none) plainEvents).isSome = true := rfl

theorem counters_of_run_plain : ∃ s, Base.run (serve unweighted plainApp)
      (Serving.start (RateLimiter.new 60 10) none) plainEvents = some s ∧
    s.counters.requests_served = UInt64.ofNat (arrived plainApp s) := by
  obtain ⟨s, hs⟩ := Option.isSome_iff_exists.mp isSome_run_plain
  exact ⟨s, hs, (counters_of_run hs).1⟩

end Wallermax.Server
