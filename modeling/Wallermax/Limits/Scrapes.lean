import Wallermax.Config.Routes
import Wallermax.Limits.RateLimiter
import Wallermax.Proxy.ClientIp
import Wallermax.Templates.StaticFiles

/-!
# Scrapes and the limiter

`rate_limit::run` lets a request pass without a token if its path is the configured metrics
path. What answers that request is decided further in: the body limit, then the templates
middleware, which has its own say on a path, then the route tree of the request's host,
and in it the method. The metrics handler is in one of these trees only.
-/

namespace Wallermax.Limits

open Wallermax.Base
open Wallermax.Base.PathText
open Wallermax.Config (Features Mount Route Router mounted singleHostMounts mainMounts cmsMounts
  tenantMounts metricsRoutes)
open Wallermax.Proxy (IpAddr Cidr resolveClientIp)
open Wallermax.Templates (Answer Binding FileTree Root TemplateEngine Intercepted)

/-! ## Requests and servers -/

inductive Verb : Type where
  | get
  | head
  | post
  | other
deriving DecidableEq

/-- `get` routes answer `HEAD` too. -/
def Verb.method : Verb → Option Config.Method
  | .get => some .get
  | .head => some .get
  | .post => some .post
  | .other => none

/-- A request with its peer, the lines of `X-Forwarded-For` and the declared length. -/
structure Request : Type where
  verb : Verb
  host : Option String
  path : PathText
  rooted : isAbsolute path = true
  peer : Option IpAddr
  forwarded_for : List (List Char)
  content_length : Option ℕ

/-- What the templates middleware sees of it. -/
def Request.page (r : Request) : Templates.Request where
  method :=
    match r.verb with
    | .get => .get
    | .head => .head
    | _ => .other
  host := r.host
  path := r.path
  rooted := r.rooted

/-- The router's matcher: the pattern it finds for a path is one of its own. -/
structure Matcher : Type where
  find : List String → PathText → Option String
  found : ∀ patterns path pattern, find patterns path = some pattern → pattern ∈ patterns

/-- A running server; the registry is there only while metrics are on. -/
structure Serving : Type where
  features : Features
  registry : Bool
  enabled : registry = true → features.metrics.enabled = true
  single_host : Bool
  bindings : List Binding
  templates : Option TemplateEngine
  default_page : Bool
  max_body_size_bytes : Option ℕ
  trusted_proxies : List Cidr

/-! ## The trees -/

inductive Tree : Type where
  | singleHost
  | main
  | cms
  | tenant (root : Root)
deriving DecidableEq

def mountsOf (f : Features) : Tree → List Mount
  | .singleHost => singleHostMounts f
  | .main => mainMounts f
  | .cms => cmsMounts f
  | .tenant _ => tenantMounts f

/-- The trees that merge `metrics::routes`. -/
def Tree.isOperator : Tree → Bool
  | .singleHost => true
  | .main => true
  | _ => false

def routerOf (f : Features) (t : Tree) : Router := (mounted (mountsOf f t)).flatten

/-- The dispatcher's choice. -/
def Serving.treeOf (s : Serving) (host : Option String) : Tree :=
  if s.single_host then .singleHost
  else match Templates.classify host s.bindings with
  | .cms => .cms
  | .main => .main
  | .tenant root => .tenant root

/-- What answers inside a tree. -/
inductive Handler : Type where
  | metrics
  | route (r : Route)
  | methodNotAllowed
  | fallback
deriving DecidableEq

def patterns (router : Router) : List String := router.map (·.1)

/-- The handler registered for the metrics path is the scrape's. -/
def handlerOf (f : Features) (t : Tree) (r : Route) : Handler :=
  if t.isOperator && f.metrics.enabled && r == (f.metrics.path, .get) then .metrics
  else .route r

/-- A tree's router at work. -/
def handle (matcher : Matcher) (f : Features) (t : Tree) (verb : Verb) (path : PathText) :
    Handler :=
  match matcher.find (patterns (routerOf f t)) path with
  | none => .fallback
  | some pattern =>
    match verb.method with
    | none => .methodNotAllowed
    | some method =>
        if (pattern, method) ∈ routerOf f t then handlerOf f t (pattern, method)
        else .methodNotAllowed

/-! ## The pipeline -/

inductive Responder : Type where
  | limiter
  | bodyLimit
  | templates
  | tree (t : Tree) (h : Handler)
deriving DecidableEq

def Responder.isMetrics : Responder → Bool
  | .tree _ .metrics => true
  | _ => false

/-- A request's course at the limiter. -/
inductive Event : Type where
  | token (ip : IpAddr)
  | answered (who : Responder)
deriving DecidableEq

section

variable (matcher : Matcher) (files : FileTree) (others : Tree → Handler → Answer)

/-- A scrape answers 200 or 500; of the others the templates middleware reads the status. -/
def answerOf (t : Tree) : Handler → Answer
  | .metrics => .other
  | h => others t h

/-- `body_limit::run`, early. -/
def Serving.tooLarge (s : Serving) (r : Request) : Bool :=
  match s.max_body_size_bytes, r.content_length with
  | some max, some declared => decide (max < declared)
  | _, _ => false

def Serving.handler (s : Serving) (r : Request) : Handler :=
  handle matcher s.features (s.treeOf r.host) r.verb r.path

/-- What is behind the limiter. -/
def Serving.behind (s : Serving) (r : Request) : Responder :=
  if s.tooLarge r then .bodyLimit
  else
    let t := s.treeOf r.host
    let h := s.handler matcher r
    match Templates.run files s.templates s.bindings s.default_page r.page
        (answerOf others t h) with
    | .passed _ => .tree t h
    | _ => .templates

def Serving.clientIp (s : Serving) (r : Request) : IpAddr :=
  resolveClientIp (r.peer.getD (.V4 0)) r.forwarded_for s.trusted_proxies

/-- The exemption. -/
def Serving.exempt (s : Serving) (r : Request) : Bool :=
  s.registry && decide (s.features.metrics.path.toList = r.path)

/-- `rate_limit::run`, for a call that reads the clock at `now`. -/
def Serving.run (s : Serving) (limiter : RateLimiter IpAddr) (clock now : Instant)
    (r : Request) : List Event × RateLimiter IpAddr :=
  if s.exempt r then ([.answered (s.behind matcher files others r)], limiter)
  else
    let answer := limiter.tryAcquireAt clock (s.clientIp r) now
    if answer.1.isAllowed then
      ([.token (s.clientIp r), .answered (s.behind matcher files others r)], answer.2)
    else ([.answered .limiter], answer.2)

end

/-! ## Only scrapes bypass the limiter -/

/-- Who gets past the limiter without a token is answered by the scrape's handler, and
whoever else answers does so after exactly one token. -/
structure OnlyScrapesBypass (ip : IpAddr) (events : List Event) : Prop where
  bypass : ∀ who, Event.answered who ∈ events → who ≠ .limiter →
    (∀ other, Event.token other ∉ events) → who.isMetrics = true
  counted : ∀ who, Event.answered who ∈ events → who ≠ .limiter → who.isMetrics = false →
    events = [.token ip, .answered who]

/-- The request is one for the metrics handler: a `GET` or `HEAD` that the host's tree
resolves to the metrics path, small enough, and not taken by the templates middleware. -/
structure Scrape (matcher : Matcher) (files : FileTree) (s : Serving) (r : Request) : Prop where
  verb : r.verb.method = some .get
  operator : (s.treeOf r.host).isOperator = true
  resolved : matcher.find (patterns (routerOf s.features (s.treeOf r.host))) r.path =
    some s.features.metrics.path
  small : s.tooLarge r = false
  free : ∀ engine, s.templates = some engine →
    ¬ Intercepted files engine s.bindings s.default_page r.page

/-- **The token**: an allowed call leaves the client's bucket refilled and short of one. -/
theorem token_spent (limiter : RateLimiter IpAddr) (clock now : Instant) (ip : IpAddr)
    (h : (limiter.tryAcquireAt clock ip now).1.isAllowed = true) :
    ∃ before after, before = ((limiter.makeRoom clock ip).lookup ip).getD ⟨limiter.capacity, now⟩ ∧
      (limiter.tryAcquireAt clock ip now).2.buckets.lookup ip = some after ∧
      after.tokens + 1 =
        min (before.tokens + asSecs (now - before.last_refill) * limiter.refill_per_second)
          limiter.capacity := by
  refine ⟨_, _, rfl, AList.lookup_insert _, ?_⟩
  have hanswer : ((((limiter.makeRoom clock ip).lookup ip).getD
      ⟨limiter.capacity, now⟩).tryAcquire now limiter.capacity
        limiter.refill_per_second).1.isAllowed = true := h
  unfold Bucket.tryAcquire at hanswer ⊢
  simp only at hanswer ⊢
  split at hanswer
  · rename_i henough
    rw [if_pos henough]
    exact sub_add_cancel _ _
  · exact absurd hanswer Bool.false_ne_true

/-! ## The handler -/

variable {matcher : Matcher} {files : FileTree} {others : Tree → Handler → Answer}
  {s : Serving} {r : Request}

theorem mem_mounted {mounts : List Mount} {fragment : Router}
    (h : (true, fragment) ∈ mounts) : fragment ∈ mounted mounts :=
  List.mem_map.mpr ⟨(true, fragment), List.mem_filter.mpr ⟨h, rfl⟩, rfl⟩

/-- The operator's trees hold the metrics route. -/
theorem mem_routerOf_metrics {f : Features} {t : Tree} (ht : t.isOperator = true)
    (hon : f.metrics.enabled = true) : (f.metrics.path, .get) ∈ routerOf f t := by
  have hmount : (true, metricsRoutes f.metrics.path) ∈ mountsOf f t := by
    rw [← hon]
    cases t with
    | singleHost => simp [mountsOf, singleHostMounts]
    | main => simp [mountsOf, mainMounts]
    | cms => exact absurd ht (by simp [Tree.isOperator])
    | tenant root => exact absurd ht (by simp [Tree.isOperator])
  exact List.mem_flatten.mpr ⟨_, mem_mounted hmount, List.mem_singleton_self _⟩

theorem handlerOf_eq_metrics {f : Features} {t : Tree} {route : Route} :
    handlerOf f t route = .metrics ↔
      t.isOperator = true ∧ f.metrics.enabled = true ∧ route = (f.metrics.path, .get) := by
  unfold handlerOf
  split
  · rename_i h
    simp only [Bool.and_eq_true, beq_iff_eq] at h
    exact iff_of_true rfl ⟨h.1.1, h.1.2, h.2⟩
  · rename_i h
    refine iff_of_false (by simp) fun hall => h ?_
    rw [hall.1, hall.2.1, hall.2.2]
    simp

/-- The tree's router reaches the metrics handler for a `GET` or `HEAD` that it resolves to
the metrics path, in the trees that have it. -/
theorem handle_eq_metrics {f : Features} {t : Tree} {verb : Verb} {path : PathText} :
    handle matcher f t verb path = .metrics ↔
      verb.method = some .get ∧ t.isOperator = true ∧ f.metrics.enabled = true ∧
        matcher.find (patterns (routerOf f t)) path = some f.metrics.path := by
  unfold handle
  cases hfind : matcher.find (patterns (routerOf f t)) path with
  | none => simp
  | some pattern =>
    cases hmethod : verb.method with
    | none => simp
    | some method =>
      by_cases hmem : (pattern, method) ∈ routerOf f t
      · simp only [if_pos hmem, handlerOf_eq_metrics, Prod.mk.injEq, Option.some.injEq]
        constructor
        · rintro ⟨ht, hon, rfl, rfl⟩
          exact ⟨rfl, ht, hon, rfl⟩
        · rintro ⟨rfl, ht, hon, rfl⟩
          exact ⟨ht, hon, rfl, rfl⟩
      · simp only [if_neg hmem, reduceCtorEq, Option.some.injEq, false_iff]
        rintro ⟨rfl, ht, hon, rfl⟩
        exact hmem (mem_routerOf_metrics ht hon)

/-! ## Past the templates middleware -/

/-- A response that is no miss gets out as it is, unless the middleware answers before. -/
theorem passes_iff {engine : Option TemplateEngine} {bindings : List Binding}
    {default_page : Bool} {request : Templates.Request} {next : Answer}
    (hmethod : request.method ≠ .other) (hnext : next ≠ .notFound) :
    (∃ answer, Templates.run files engine bindings default_page request next = .passed answer) ↔
      ∀ e, engine = some e → ¬ Intercepted files e bindings default_page request := by
  cases engine with
  | none => exact iff_of_true ⟨next, rfl⟩ (by simp)
  | some engine =>
    constructor
    · rintro ⟨answer, hrun⟩ e he hintercepted
      obtain rfl := Option.some.inj he
      exact Templates.not_passed_of_intercepted hmethod hintercepted hrun
    · intro h
      have hnot := h engine rfl
      refine ⟨next, ?_⟩
      simp only [Templates.run, if_neg hmethod]
      by_cases hsafe : Templates.isSafeRelative (percentText request.path) = true
      · rw [hsafe, Templates.explicitCandidate_of_not hnot hsafe,
          Templates.directoryCandidate_of_not hnot hsafe]
        simp only [Bool.not_true, Bool.false_eq_true, if_false, hnext, false_and]
        apply if_neg
        rintro ⟨hroot, hhost, hpage⟩
        exact hnot ⟨hsafe, .inr ⟨hroot, by simpa using hhost, hpage⟩⟩
      · exact if_pos (by simpa using hsafe)

theorem page_method {r : Request} (h : r.verb.method = some .get) :
    r.page.method ≠ .other := by
  cases hverb : r.verb with
  | get => simp [Request.page, hverb]
  | head => simp [Request.page, hverb]
  | post => simp [Verb.method, hverb] at h
  | other => simp [Verb.method, hverb] at h

theorem behind_ne_limiter : s.behind matcher files others r ≠ .limiter := by
  unfold Serving.behind
  split
  · simp
  · simp only
    split <;> simp

/-- What is behind the limiter is the metrics handler exactly for a scrape. -/
theorem behind_isMetrics (hon : s.features.metrics.enabled = true) :
    (s.behind matcher files others r).isMetrics = true ↔ Scrape matcher files s r := by
  have hhandler : s.handler matcher r = .metrics ↔ r.verb.method = some .get ∧
      (s.treeOf r.host).isOperator = true ∧ s.features.metrics.enabled = true ∧
        matcher.find (patterns (routerOf s.features (s.treeOf r.host))) r.path =
          some s.features.metrics.path := handle_eq_metrics
  unfold Serving.behind
  by_cases hlarge : s.tooLarge r = true
  · rw [if_pos hlarge]
    refine iff_of_false (by simp [Responder.isMetrics]) fun h => ?_
    rw [h.small] at hlarge
    exact Bool.false_ne_true hlarge
  · rw [if_neg hlarge]
    simp only
    constructor
    · intro h
      split at h
      · rename_i answer hrun
        have hmetrics : s.handler matcher r = .metrics := by
          cases hh : s.handler matcher r <;> rw [hh] at h <;> simp_all [Responder.isMetrics]
        obtain ⟨hverb, hoperator, -, hresolved⟩ := hhandler.mp hmetrics
        rw [hmetrics] at hrun
        refine ⟨hverb, hoperator, hresolved, by simpa using hlarge, ?_⟩
        exact (passes_iff (page_method hverb) (by simp [answerOf])).mp ⟨answer, hrun⟩
      · exact absurd h (by simp [Responder.isMetrics])
    · intro h
      have hmetrics : s.handler matcher r = .metrics :=
        hhandler.mpr ⟨h.verb, h.operator, hon, h.resolved⟩
      have hnext : answerOf others (s.treeOf r.host) .metrics ≠ .notFound := by simp [answerOf]
      obtain ⟨answer, hrun⟩ := (passes_iff (page_method h.verb) hnext).mpr h.free
      rw [hmetrics, hrun]
      rfl

/-! ## The exemption -/

/-- **Only scrapes bypass the limiter** exactly if what is exempt is a scrape: a request
whose path is the metrics path, while there is a registry, is one the metrics handler gets.
Every other request pays, or is rejected. -/
theorem only_scrapes_bypass_iff (matcher : Matcher) (files : FileTree)
    (others : Tree → Handler → Answer) (s : Serving) (limiter : RateLimiter IpAddr)
    (clock now : Instant) (r : Request) :
    OnlyScrapesBypass (s.clientIp r) (s.run matcher files others limiter clock now r).1 ↔
      (s.registry = true → s.features.metrics.path.toList = r.path →
        Scrape matcher files s r) := by
  have hexempt : s.exempt r = true ↔
      s.registry = true ∧ s.features.metrics.path.toList = r.path := by
    rw [Serving.exempt, Bool.and_eq_true, decide_eq_true_eq]
  rw [← and_imp, ← hexempt]
  unfold Serving.run
  by_cases h : s.exempt r = true
  · rw [if_pos h, forall_prop_of_true h]
    have hmetrics : (s.behind matcher files others r).isMetrics = true ↔
        Scrape matcher files s r := behind_isMetrics (s.enabled (hexempt.mp h).1)
    rw [← hmetrics]
    constructor
    · intro hbypass
      exact hbypass.bypass _ (List.mem_singleton_self _) behind_ne_limiter (by simp)
    · intro hscrape
      refine ⟨fun who hwho _ _ => ?_, fun who hwho _ hother => ?_⟩ <;>
        obtain rfl := Event.answered.inj (List.mem_singleton.mp hwho)
      · exact hscrape
      · rw [hscrape] at hother
        exact absurd hother (by simp)
  · rw [if_neg h]
    refine iff_of_true ?_ fun hx => absurd hx h
    simp only
    split
    · refine ⟨fun who _ _ hfree => absurd (hfree (s.clientIp r)) (by simp), ?_⟩
      intro who hwho _ _
      have hwho' : who = s.behind matcher files others r := by simpa using hwho
      rw [hwho']
    · refine ⟨fun who hwho hne => ?_, fun who hwho hne => ?_⟩ <;>
        exact absurd (Event.answered.inj (List.mem_singleton.mp hwho)) hne

/-! ## A host without the endpoint -/

/-- The CMS on a host of its own, with metrics at their usual path. -/
def cmsHost : Serving where
  features :=
    { auth_enabled := false
      refresh_enabled := false
      static_enabled := false
      metrics :=
        { enabled := true }
      cms_enabled := false
      external_api_enabled := false }
  registry := true
  enabled := fun _ => rfl
  single_host := false
  bindings := [Templates.cmsBinding]
  templates := none
  default_page := false
  max_body_size_bytes := none
  trusted_proxies := []

def metricsRequest : Request where
  verb := .get
  host := some "cms.test"
  path := "/metrics".toList
  rooted := by decide
  peer := none
  forwarded_for := []
  content_length := none

def literalMatcher : Matcher where
  find := fun patterns path => patterns.find? fun p => decide (p.toList = path)
  found := fun _ _ _ h => List.mem_of_find?_eq_some h

/-- `GET /metrics` on the CMS host takes no token, and the tree's fallback answers it. -/
theorem fallback_without_token : ¬∀ (matcher : Matcher) (files : FileTree)
    (others : Tree → Handler → Answer) (s : Serving) (limiter : RateLimiter IpAddr)
    (clock now : Instant) (r : Request),
    OnlyScrapesBypass (s.clientIp r) (s.run matcher files others limiter clock now r).1 := by
  intro h
  have hevents : (cmsHost.run literalMatcher (FileTree.single [['a']]) (fun _ _ => .notFound)
      (RateLimiter.new 1 1) 0 0 metricsRequest).1 = [.answered (.tree .cms .fallback)] := by
    decide +kernel
  have hbypass := (h literalMatcher (FileTree.single [['a']]) (fun _ _ => .notFound) cmsHost
    (RateLimiter.new 1 1) 0 0 metricsRequest).bypass (.tree .cms .fallback)
  rw [hevents] at hbypass
  exact absurd (hbypass (List.mem_singleton_self _) (by decide) (by simp)) (by decide)

end Wallermax.Limits
