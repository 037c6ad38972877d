import Wallermax.Auth.CookieLines

/-!
# The session of a browser

What the server finds in the requests of one browser, over a whole run of sign-ins,
sign-outs and answers of other servers, at whatever hosts they happen: the token of the last
sign-in that reaches the host, for as long as it lives.
-/

namespace Wallermax.Auth

open Wallermax.Base
open Wallermax.Server (isVisible)

variable (ua : Cookies.UserAgent) (settings : CookieSettings)

/-! ## The browser -/

/-- A line that leaves the session cookie alone, and no cookie a header cannot carry. -/
structure ForeignLine : Type where
  line : Text
  foreign : ∀ c, Cookies.parseSetCookie line = some c →
    c.pair.name ≠ cookieName ∧ c.pair.text.all isVisible = true

/-- What happens to a browser. A refresh is a sign-in; a sign-in form that fails signs out. -/
inductive BrowserEvent
  | tick (secs : ℕ)
  | signIn (place : Cookies.Place) (token : Token)
  | signOut (place : Cookies.Place)
  | answer (place : Cookies.Place) (line : ForeignLine)
  | evict

structure Browser : Type where
  jar : List Cookies.Cookie
  now : ℕ

def Browser.receive (browser : Browser) (place : Cookies.Place) (line : Text) : Browser :=
  { browser with jar := ua.receive browser.jar place browser.now line }

def Browser.step (browser : Browser) : BrowserEvent → Browser
  | .tick secs => { browser with now := browser.now + secs }
  | .signIn place token => browser.receive ua place
      (setCookieValue token.text settings.ttl settings.secure settings.domain)
  | .signOut place => browser.receive ua place
      (clearCookieValue settings.secure settings.domain)
  | .answer place line => browser.receive ua place line.line
  | .evict => { browser with jar := browser.jar.filter (·.live browser.now) }

/-! ## What it stands for -/

/-- Whether a cookie set at one host is sent to another. -/
def reaches (host other : Text) : Bool :=
  match settings.domain with
  | none => other == host
  | some domain =>
      let parent := domain.map Char.toLower
      if ua.publicSuffix parent then host == parent && other == parent
      else ua.domainMatches host parent && ua.domainMatches other parent

/-- The session of each host, with the instant it ends at. -/
structure Sessions : Type where
  held : Text → Option (Token × ℕ)
  now : ℕ

/-- A session of a place, opened or closed wherever the cookie reaches. A browser does not
take a cookie for encrypted connections from one that is not. -/
def Sessions.set (sessions : Sessions) (place : Cookies.Place) (session : Option (Token × ℕ)) :
    Sessions :=
  if settings.secure && !place.secure then sessions
  else { sessions with
    held := fun host => if reaches ua settings place.host host then session
      else sessions.held host }

def Sessions.step (sessions : Sessions) : BrowserEvent → Sessions
  | .tick secs => { sessions with now := sessions.now + secs }
  | .signIn place token => sessions.set ua settings place (some (token, sessions.now + settings.ttl))
  | .signOut place => sessions.set ua settings place none
  | .answer _ _ => sessions
  | .evict => sessions

def Sessions.token (sessions : Sessions) (place : Cookies.Place) : Option Text :=
  if settings.secure && !place.secure then none
  else ((sessions.held place.host).filter fun session => sessions.now < session.2).map
    fun session => session.1.text

/-! ## One cookie for each host -/

theorem reaches_of_scope {host : Text} {key : Text × Bool} (h : scope ua settings host = some key)
    (pair : Cookies.Pair) (expires : ℕ) (other : Text) :
    ua.covers (sessionCookie settings pair key expires) other = reaches ua settings host other := by
  unfold scope at h
  unfold reaches Cookies.UserAgent.covers sessionCookie
  cases hdomain : settings.domain with
  | none =>
      simp only [hdomain] at h
      obtain rfl := Option.some.inj h
      rfl
  | some d =>
      simp only [hdomain] at h ⊢
      split at h
      · rename_i hsuffix
        split at h
        · rename_i hhost
          obtain rfl := Option.some.inj h
          simp [hsuffix, hhost]
        · cases h
      · rename_i hsuffix
        split at h
        · rename_i hmatches
          obtain rfl := Option.some.inj h
          simp [hsuffix, hmatches]
        · cases h

theorem not_reaches_of_scope {host : Text} (h : scope ua settings host = none) (other : Text) :
    reaches ua settings host other = false := by
  unfold scope at h
  unfold reaches
  cases hdomain : settings.domain with
  | none =>
      simp only [hdomain] at h
      cases h
  | some d =>
      simp only [hdomain] at h ⊢
      split at h
      · rename_i hsuffix
        split at h
        · cases h
        · rename_i hhost
          simp [hsuffix, hhost]
      · rename_i hsuffix
        split at h
        · cases h
        · rename_i hmatches
          simp [hsuffix, hmatches]

theorem scope_unique {host host' other : Text} {key key' : Text × Bool}
    (h : scope ua settings host = some key) (h' : scope ua settings host' = some key')
    (hreaches : reaches ua settings host other = true)
    (hreaches' : reaches ua settings host' other = true) : key = key' := by
  unfold scope at h h'
  unfold reaches at hreaches hreaches'
  cases hdomain : settings.domain with
  | none =>
      simp only [hdomain, beq_iff_eq] at h h' hreaches hreaches'
      rw [← Option.some.inj h, ← Option.some.inj h', ← hreaches, ← hreaches']
  | some d =>
      simp only [hdomain] at h h'
      split at h
      · rename_i hsuffix
        rw [if_pos hsuffix] at h'
        split at h <;> split at h'
        · rename_i hhost hhost'
          rw [← Option.some.inj h, ← Option.some.inj h', hhost, hhost']
        · cases h'
        · cases h
        · cases h
      · rename_i hsuffix
        rw [if_neg hsuffix] at h'
        split at h <;> split at h'
        · rw [← Option.some.inj h, ← Option.some.inj h']
        · cases h'
        · cases h
        · cases h

/-! ## The jar and the sessions -/

/-- What every session cookie in the jar looks like, whatever its value. -/
def FromHere (c : Cookies.Cookie) : Prop :=
  ∃ value hvalue host key expires, scope ua settings host = some key ∧
    c = sessionCookie settings (sessionPair value hvalue) key expires

/-- The jar holds a session for the host. -/
def Carries (jar : List Cookies.Cookie) (host text : Text) (expires : ℕ) : Prop :=
  ∃ c ∈ jar, isSession c = true ∧ ua.covers c host = true ∧ c.pair.value = text ∧
    c.expires = some expires

structure Mirrors (browser : Browser) (sessions : Sessions) : Prop where
  now_eq : browser.now = sessions.now
  distinct : Cookies.Distinct browser.jar
  visible : ∀ c ∈ browser.jar, c.pair.text.all isVisible = true
  fromHere : ∀ c ∈ browser.jar, c.pair.name = cookieName → FromHere ua settings c
  held : ∀ host text expires, browser.now < expires →
    (Carries ua browser.jar host text expires ↔
      ∃ token, sessions.held host = some (token, expires) ∧ token.text = text)

variable {ua settings}

theorem name_of_isSession {c : Cookies.Cookie} (h : isSession c = true) :
    c.pair.name = cookieName := (of_decide_eq_true h).1

/-- A jar has one session cookie for a host at most. -/
theorem Mirrors.eq_of_covers {browser : Browser} {sessions : Sessions}
    (h : Mirrors ua settings browser sessions) {c d : Cookies.Cookie} (hc : c ∈ browser.jar)
    (hd : d ∈ browser.jar) (hcn : c.pair.name = cookieName) (hdn : d.pair.name = cookieName)
    {host : Text} (hch : ua.covers c host = true) (hdh : ua.covers d host = true) : c = d := by
  refine h.distinct c hc d hd ?_
  obtain ⟨value, hvalue, at_c, key, expires, hscope, rfl⟩ := h.fromHere c hc hcn
  obtain ⟨value', hvalue', at_d, key', expires', hscope', rfl⟩ := h.fromHere d hd hdn
  rw [reaches_of_scope ua settings hscope] at hch
  rw [reaches_of_scope ua settings hscope'] at hdh
  have hkey := scope_unique ua settings hscope hscope' hch hdh
  exact ⟨rfl, congrArg Prod.fst hkey, congrArg Prod.snd hkey, rfl⟩

/-- What a line of another server leaves in the jar is nobody's session. -/
theorem Mirrors.put_foreign {browser : Browser} {sessions : Sessions}
    (h : Mirrors ua settings browser sessions) {c : Cookies.Cookie}
    (hname : c.pair.name ≠ cookieName) (hvisible : c.pair.text.all isVisible = true) :
    Mirrors ua settings { browser with jar := Cookies.put browser.jar c } sessions where
  now_eq := h.now_eq
  distinct := h.distinct.put c
  visible := by
    intro d hd
    rcases Cookies.mem_put.mp hd with rfl | ⟨hd, _⟩
    · exact hvisible
    · exact h.visible d hd
  fromHere := by
    intro d hd hdn
    rcases Cookies.mem_put.mp hd with rfl | ⟨hd, _⟩
    · exact absurd hdn hname
    · exact h.fromHere d hd hdn
  held := by
    intro host text expires hlive
    rw [← h.held host text expires hlive]
    constructor
    · rintro ⟨d, hd, hsession, hrest⟩
      rcases Cookies.mem_put.mp hd with rfl | ⟨hd, _⟩
      · exact absurd (name_of_isSession hsession) hname
      · exact ⟨d, hd, hsession, hrest⟩
    · rintro ⟨d, hd, hsession, hrest⟩
      refine ⟨d, Cookies.mem_put.mpr (.inr ⟨hd, ?_⟩), hsession, hrest⟩
      exact fun hsame => hname (hsame.1.trans (name_of_isSession hsession))

/-- A session cookie, put into the jar, decides for the hosts it reaches and for no others. -/
theorem Mirrors.put_session {browser : Browser} {sessions : Sessions}
    (h : Mirrors ua settings browser sessions) {host : Text} {key : Text × Bool}
    (hscope : scope ua settings host = some key) {value : Text}
    (hvalue : ∀ c ∈ value, isTokenChar c = true) (expires : ℕ) (session : Option (Token × ℕ))
    (hsession : ∀ text ends, browser.now < ends → ((value ≠ [] ∧ value = text ∧
      expires = ends) ↔ ∃ token, session = some (token, ends) ∧ token.text = text)) :
    Mirrors ua settings
      { browser with
        jar := Cookies.put browser.jar
          (sessionCookie settings (sessionPair value hvalue) key expires) }
      { sessions with
        held := fun other => if reaches ua settings host other then session
          else sessions.held other } where
  now_eq := h.now_eq
  distinct := h.distinct.put _
  visible := by
    intro d hd
    rcases Cookies.mem_put.mp hd with rfl | ⟨hd, _⟩
    · exact visible_sessionPair hvalue
    · exact h.visible d hd
  fromHere := by
    intro d hd hdn
    rcases Cookies.mem_put.mp hd with rfl | ⟨hd, _⟩
    · exact ⟨value, hvalue, host, key, expires, hscope, rfl⟩
    · exact h.fromHere d hd hdn
  held := by
    intro other text ends hlive
    have hcovers := reaches_of_scope ua settings hscope (sessionPair value hvalue) expires other
    cases hreaches : reaches ua settings host other with
    | true =>
        simp only [hreaches, if_true]
        rw [← hsession text ends hlive]
        constructor
        · rintro ⟨d, hd, hds, hdo, hdv, hde⟩
          rcases Cookies.mem_put.mp hd with rfl | ⟨hd, hother⟩
          · exact ⟨(of_decide_eq_true hds).2, hdv, Option.some.inj hde⟩
          · refine absurd ?_ hother
            obtain ⟨_, _, at_d, key', _, hscope', rfl⟩ := h.fromHere d hd (name_of_isSession hds)
            rw [reaches_of_scope ua settings hscope'] at hdo
            have hkey := scope_unique ua settings hscope hscope' hreaches hdo
            exact ⟨rfl, congrArg Prod.fst hkey, congrArg Prod.snd hkey, rfl⟩
        · rintro ⟨hne, htext, hends⟩
          refine ⟨_, Cookies.mem_put.mpr (.inl rfl), decide_eq_true ⟨rfl, hne⟩,
            hcovers.trans hreaches, htext, congrArg some hends⟩
    | false =>
        simp only [hreaches, Bool.false_eq_true, if_false]
        rw [← h.held other text ends hlive]
        constructor
        · rintro ⟨d, hd, hds, hdo, hrest⟩
          rcases Cookies.mem_put.mp hd with rfl | ⟨hd, _⟩
          · rw [hcovers, hreaches] at hdo
            cases hdo
          · exact ⟨d, hd, hds, hdo, hrest⟩
        · rintro ⟨d, hd, hds, hdo, hrest⟩
          refine ⟨d, Cookies.mem_put.mpr (.inr ⟨hd, ?_⟩), hds, hdo, hrest⟩
          intro hsame
          rw [← ua.covers_of_sameKey hsame, hcovers, hreaches] at hdo
          cases hdo

/-- A line of a sign-in or a sign-out, at a place that may set it or not. -/
theorem Mirrors.receive_session {browser : Browser} {sessions : Sessions}
    (h : Mirrors ua settings browser sessions) (hcarried : settings.Carried)
    (place : Cookies.Place) {value max_age : Text} (hvalue : ∀ c ∈ value, isTokenChar c = true)
    (hdigits : ∀ c ∈ max_age, c.isDigit = true) {delta : ℕ}
    (hage : Cookies.parseDelta max_age = some (delta : ℤ)) (session : Option (Token × ℕ))
    (hsession : ∀ text ends, browser.now < ends → ((value ≠ [] ∧ value = text ∧
      (if delta = 0 then 0 else browser.now + delta) = ends) ↔
        ∃ token, session = some (token, ends) ∧ token.text = text)) :
    Mirrors ua settings
      (browser.receive ua place (sessionLine value max_age settings.secure settings.domain))
      (sessions.set ua settings place session) := by
  have hsemicolon : ';' ∉ max_age := fun hmem => absurd (hdigits _ hmem) (by decide)
  have hwsp : ∀ c ∈ max_age, Cookies.isWsp c = false := by
    intro c hc
    have hn := isDigit_iff_range.mp (hdigits c hc)
    cases hwsp : Cookies.isWsp c with
    | false => rfl
    | true =>
        simp only [Cookies.isWsp, Bool.or_eq_true, beq_iff_eq] at hwsp
        rcases hwsp with rfl | rfl
        all_goals exact absurd hn (by decide)
  unfold Browser.receive Sessions.set
  rw [receive_sessionLine ua settings hvalue hsemicolon hwsp hcarried hage]
  cases settings.secure && !place.secure with
  | true => exact h
  | false =>
      simp only [Bool.false_eq_true, if_false]
      cases hscope : scope ua settings place.host with
      | none =>
          have hsame : (fun host => if reaches ua settings place.host host then session
              else sessions.held host) = sessions.held := by
            funext host
            rw [not_reaches_of_scope ua settings hscope]
            rfl
          rw [hsame]
          exact h
      | some key => exact h.put_session hscope hvalue _ session hsession

/-- **One event** keeps the jar and the sessions together. -/
theorem Mirrors.step {browser : Browser} {sessions : Sessions}
    (h : Mirrors ua settings browser sessions) (hcarried : settings.Carried)
    (event : BrowserEvent) :
    Mirrors ua settings (browser.step ua settings event) (sessions.step ua settings event) := by
  have hne : settings.domain ≠ some [] := fun hnil => (settings.domain_plain hnil).1 rfl
  cases event with
  | tick secs =>
      refine ⟨congrArg (· + secs) h.now_eq, h.distinct, h.visible, h.fromHere, ?_⟩
      intro host text ends hlive
      have hlive : browser.now + secs < ends := hlive
      exact h.held host text ends (by omega)
  | signIn place token =>
      have httl := settings.ttl_pos
      show Mirrors ua settings (browser.receive ua place
        (setCookieValue token.text settings.ttl settings.secure settings.domain)) _
      rw [setCookieValue_eq _ _ _ hne]
      refine h.receive_session hcarried place token.chars
        (fun c hc => Nat.isDigit_of_mem_toDigits (by decide) (by decide) hc)
        (Cookies.parseDelta_digits settings.ttl) _ ?_
      intro text ends hlive
      rw [if_neg (by omega), h.now_eq]
      constructor
      · rintro ⟨_, rfl, rfl⟩
        exact ⟨token, rfl, rfl⟩
      · rintro ⟨other, hother, rfl⟩
        obtain ⟨rfl, rfl⟩ := Prod.mk.inj (Option.some.inj hother)
        exact ⟨token.ne_nil, rfl, rfl⟩
  | signOut place =>
      have hzero : ∀ c ∈ ['0'], c.isDigit = true := by
        intro c hc
        rw [List.mem_singleton.mp hc]
        decide
      show Mirrors ua settings (browser.receive ua place
        (clearCookieValue settings.secure settings.domain)) _
      rw [clearCookieValue_eq _ hne]
      refine h.receive_session hcarried place (fun c hc => absurd hc List.not_mem_nil)
        hzero (Cookies.parseDelta_digits 0) none ?_
      intro text ends _
      constructor
      · rintro ⟨hnil, _⟩
        exact absurd rfl hnil
      · rintro ⟨token, hnone, _⟩
        cases hnone
  | answer place line =>
      show Mirrors ua settings (browser.receive ua place line.line) sessions
      unfold Browser.receive Cookies.UserAgent.receive
      cases hparse : Cookies.parseSetCookie line.line with
      | none => exact h
      | some c =>
          rw [Option.bind_some]
          cases haccept : ua.accept place browser.now c with
          | none => exact h
          | some d =>
              have hpair := ua.pair_of_accept haccept
              have hforeign := line.foreign c hparse
              rw [← hpair] at hforeign
              exact h.put_foreign hforeign.1 hforeign.2
  | evict =>
      refine ⟨h.now_eq, ?_, ?_, ?_, ?_⟩
      · intro c hc d hd
        exact h.distinct c (List.mem_filter.mp hc).1 d (List.mem_filter.mp hd).1
      · exact fun c hc => h.visible c (List.mem_filter.mp hc).1
      · exact fun c hc => h.fromHere c (List.mem_filter.mp hc).1
      · intro host text ends hlive
        have hlive : browser.now < ends := hlive
        rw [show (sessions.step ua settings .evict).held = sessions.held from rfl,
          ← h.held host text ends hlive]
        constructor
        · rintro ⟨c, hc, hrest⟩
          exact ⟨c, (List.mem_filter.mp hc).1, hrest⟩
        · rintro ⟨c, hc, hsession, hcovers, hvalue, hends⟩
          refine ⟨c, List.mem_filter.mpr ⟨hc, ?_⟩, hsession, hcovers, hvalue, hends⟩
          unfold Cookies.Cookie.live
          rw [hends]
          exact decide_eq_true hlive

/-! ## Over a run -/

theorem exists_of_find? {α : Type} {p : α → Bool} {l : List α} {β : Type} {f : α → β} {b : β}
    (hone : ∀ x ∈ l, ∀ y ∈ l, p x = true → p y = true → x = y) :
    (l.find? p).map f = some b ↔ ∃ x ∈ l, p x = true ∧ f x = b := by
  constructor
  · intro h
    obtain ⟨x, hx, rfl⟩ := Option.map_eq_some_iff.mp h
    exact ⟨x, List.mem_of_find?_eq_some hx, List.find?_some hx, rfl⟩
  · rintro ⟨x, hx, hp, rfl⟩
    cases hfind : l.find? p with
    | none => exact absurd hp (List.find?_eq_none.mp hfind x hx)
    | some y =>
        rw [hone x hx y (List.mem_of_find?_eq_some hfind) hp (List.find?_some hfind)]
        rfl

/-- What the server finds is what the sessions say. -/
theorem Mirrors.token_eq {browser : Browser} {sessions : Sessions}
    (h : Mirrors ua settings browser sessions) (place : Cookies.Place) :
    sessionToken (cookieHeaders ua browser.jar place browser.now) =
      sessions.token settings place := by
  rw [sessionToken_cookieHeaders ua fun c hc _ => h.visible c hc]
  have hone : ∀ c ∈ ua.cookies browser.jar place browser.now,
      ∀ d ∈ ua.cookies browser.jar place browser.now,
        isSession c = true → isSession d = true → c = d := by
    intro c hc d hd hcs hds
    obtain ⟨hc, hcsends⟩ := ua.mem_cookies.mp hc
    obtain ⟨hd, hdsends⟩ := ua.mem_cookies.mp hd
    unfold Cookies.UserAgent.sends at hcsends hdsends
    simp only [Bool.and_eq_true] at hcsends hdsends
    exact h.eq_of_covers hc hd (name_of_isSession hcs) (name_of_isSession hds)
      hcsends.1.1.2 hdsends.1.1.2
  apply Option.ext
  intro text
  have hsent : ∀ c ∈ browser.jar, isSession c = true →
      (ua.sends place browser.now c = true ↔
        (∃ ends, c.expires = some ends ∧ browser.now < ends) ∧
          ua.covers c place.host = true ∧ (settings.secure && !place.secure) = false) := by
    intro c hc hcs
    obtain ⟨_, _, _, _, ends, _, rfl⟩ := h.fromHere c hc (name_of_isSession hcs)
    have hsecure : (!settings.secure || place.secure) =
        !(settings.secure && !place.secure) := by simp
    unfold Cookies.UserAgent.sends Cookies.Cookie.live
    simp only [sessionCookie, Cookies.pathMatches_root, hsecure, Bool.and_eq_true,
      Bool.not_eq_true', decide_eq_true_eq, Option.some.injEq, exists_eq_left', and_true, and_assoc]
  rw [exists_of_find? hone]
  unfold Sessions.token
  cases hrefused : settings.secure && !place.secure with
  | true =>
      simp only [if_true]
      refine iff_of_false ?_ (by simp)
      rintro ⟨c, hc, hcs, _⟩
      obtain ⟨hc, hsends⟩ := ua.mem_cookies.mp hc
      have hopen := ((hsent c hc hcs).mp hsends).2.2
      rw [hrefused] at hopen
      cases hopen
  | false =>
      simp only [Bool.false_eq_true, if_false]
      constructor
      · rintro ⟨c, hc, hcs, hvalue⟩
        obtain ⟨hc, hsends⟩ := ua.mem_cookies.mp hc
        obtain ⟨⟨ends, hends, hlive⟩, hcovers, _⟩ := (hsent c hc hcs).mp hsends
        obtain ⟨token, hheld, htext⟩ := (h.held place.host text ends hlive).mp
          ⟨c, hc, hcs, hcovers, hvalue, hends⟩
        rw [hheld, Option.filter_some_pos (by simpa [h.now_eq] using hlive), Option.map_some, htext]
      · intro hsession
        obtain ⟨⟨token, ends⟩, hheld, htext⟩ := Option.map_eq_some_iff.mp hsession
        obtain ⟨hheld, hlive⟩ := Option.filter_eq_some_iff.mp hheld
        have hlive : browser.now < ends := h.now_eq ▸ of_decide_eq_true hlive
        obtain ⟨c, hc, hcs, hcovers, hvalue, hends⟩ :=
          (h.held place.host text ends hlive).mpr ⟨token, hheld, htext⟩
        exact ⟨c, ua.mem_cookies.mpr ⟨hc, (hsent c hc hcs).mpr
          ⟨⟨ends, hends, hlive⟩, hcovers, hrefused⟩⟩, hcs, hvalue⟩

variable (ua settings)

/-- A browser after the events, without a cookie before them. -/
def browse (events : List BrowserEvent) : Browser :=
  events.foldl (Browser.step ua settings) ⟨[], 0⟩

def sessionsAfter (events : List BrowserEvent) : Sessions :=
  events.foldl (Sessions.step ua settings) ⟨fun _ => none, 0⟩

theorem mirrors_browse (hcarried : settings.Carried) (events : List BrowserEvent) :
    Mirrors ua settings (browse ua settings events) (sessionsAfter ua settings events) := by
  induction events using List.reverseRecOn with
  | nil =>
      refine ⟨rfl, ?_, ?_, ?_, ?_⟩
      · exact fun c hc => absurd hc List.not_mem_nil
      · exact fun c hc => absurd hc List.not_mem_nil
      · exact fun c hc => absurd hc List.not_mem_nil
      · intro host text ends _
        refine iff_of_false ?_ ?_
        · rintro ⟨c, hc, _⟩
          exact absurd hc List.not_mem_nil
        · rintro ⟨token, hnone, _⟩
          cases hnone
  | append_singleton events event ih =>
      unfold browse sessionsAfter
      rw [List.foldl_append, List.foldl_append]
      exact ih.step hcarried event

/-- A browser that takes names of one label for public suffixes. -/
def plainAgent : Cookies.UserAgent where
  isAddress _ := false
  publicSuffix domain := !domain.contains '.'
  parseDate _ := none

/-- A shared session under `example.com`. -/
def sharedSettings : CookieSettings where
  auth := { enabled := true, cookie_domain := "example.com" }
  secure_cookies := .auto
  tls_enabled := true
  ttl_ne_zero := by decide
  domain_ok := by decide +kernel

def pageOf (host : String) : Cookies.Place := ⟨host.toList, ['/'], true, rfl⟩

def someToken : Token := ⟨"e30.e30.c2ln".toList, by decide, List.all_eq_true.mp (by decide)⟩

theorem sharedSettings_carried : sharedSettings.Carried := by
  have hdomain : sharedSettings.domain = some "example.com".toList := by decide +kernel
  intro domain hd
  rw [hdomain] at hd
  obtain rfl := Option.some.inj (Option.mem_def.mp hd)
  decide +kernel

end Wallermax.Auth
