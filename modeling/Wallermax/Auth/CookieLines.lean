import Wallermax.Auth.SessionCookie
import Wallermax.Config.Validation

/-!
# The lines of a sign-in and a sign-out

What the handlers write into `Set-Cookie`, attribute by attribute, and the cookie it leaves
in a browser: kept under the configured domain, or for the host alone.
-/

namespace Wallermax.Auth

open Wallermax.Base
open Wallermax.Config (AppConfig AuthConfig cookieDomainProblem validateAuth)
open Wallermax.Server (isVisible)
open Wallermax.Tenants (isWhitespace)

/-! ## The settings of the cookie -/

inductive SecureCookieMode
  | auto
  | always
  | never

/-- `SecureCookieMode::resolve`. -/
def SecureCookieMode.resolve (mode : SecureCookieMode) (tls_enabled : Bool) : Bool :=
  match mode with
  | .auto => tls_enabled
  | .always => true
  | .never => false

theorem cookie_of_validateAuth {config : AppConfig} (henabled : config.auth.enabled = true)
    (hvalid : validateAuth config = .ok ()) :
    config.auth.token_ttl_secs ≠ 0 ∧ cookieDomainProblem config.auth.cookie_domain = none := by
  unfold validateAuth at hvalid
  rw [henabled] at hvalid
  simp only [Bool.not_true, Bool.false_eq_true, if_false, Config.sequence_ok,
    Config.refuseIf_ok] at hvalid
  obtain ⟨_, _, httl, _, _, _, hdomain⟩ := hvalid
  refine ⟨beq_eq_false_iff_ne.mp httl, ?_⟩
  cases hproblem : cookieDomainProblem config.auth.cookie_domain with
  | none => rfl
  | some problem =>
      rw [hproblem] at hdomain
      cases hdomain

/-- What the handlers write the cookie with, past the checks at startup. -/
structure CookieSettings : Type where
  auth : AuthConfig
  secure_cookies : SecureCookieMode
  tls_enabled : Bool
  ttl_ne_zero : auth.token_ttl_secs ≠ 0
  domain_ok : cookieDomainProblem auth.cookie_domain = none

namespace CookieSettings

/-- The settings of a configuration the server starts with. -/
def ofConfig (config : AppConfig) (secure_cookies : SecureCookieMode)
    (henabled : config.auth.enabled = true) (hvalid : validateAuth config = .ok ()) :
    CookieSettings where
  auth := config.auth
  secure_cookies := secure_cookies
  tls_enabled := config.tls.enabled
  ttl_ne_zero := (cookie_of_validateAuth henabled hvalid).1
  domain_ok := (cookie_of_validateAuth henabled hvalid).2

/-- `secure_cookies`. -/
def secure (settings : CookieSettings) : Bool :=
  settings.secure_cookies.resolve settings.tls_enabled

/-- `cookie_domain`. -/
def domain (settings : CookieSettings) : Option Text :=
  if settings.auth.cookie_domain.toList ≠ [] then some settings.auth.cookie_domain.toList
  else none

def ttl (settings : CookieSettings) : ℕ := settings.auth.token_ttl_secs.toNat

/-- What goes into the `Domain` attribute is a text a header can carry and one attribute. -/
def Carried (settings : CookieSettings) : Prop :=
  ∀ domain ∈ settings.domain, domain.all isVisible = true ∧ ';' ∉ domain

theorem ttl_pos (settings : CookieSettings) : 0 < settings.ttl := by
  refine Nat.pos_of_ne_zero fun hzero => settings.ttl_ne_zero ?_
  exact UInt64.toNat_inj.mp hzero

/-- A domain past the check starts without a dot and has no white space in it. -/
theorem domain_plain (settings : CookieSettings) {domain : Text}
    (h : settings.domain = some domain) :
    domain ≠ [] ∧ domain.head? ≠ some '.' ∧ ∀ c ∈ domain, isWhitespace c = false := by
  have hok := settings.domain_ok
  unfold CookieSettings.domain at h
  split at h
  case isFalse => cases h
  case isTrue hne =>
  obtain rfl := Option.some.inj h
  have hempty : settings.auth.cookie_domain.isEmpty = false := by
    rw [Bool.eq_false_iff]
    exact fun hempty => hne (by simpa using hempty)
  unfold cookieDomainProblem at hok
  rw [hempty] at hok
  simp only [Bool.false_eq_true, if_false] at hok
  split at hok
  case isTrue => cases hok
  split at hok
  case isTrue => cases hok
  rename_i hdots
  split at hok
  case isTrue => cases hok
  split at hok
  case isTrue => cases hok
  rename_i hplain
  refine ⟨hne, ?_, ?_⟩
  · intro hhead
    obtain ⟨rest, hrest⟩ := List.head?_eq_some_iff.mp hhead
    refine hdots (Bool.or_eq_true_iff.mpr (.inl ?_))
    unfold Content.startsWith
    rw [hrest]
    rfl
  · intro c hc
    cases hwhite : isWhitespace c with
    | false => rfl
    | true =>
        refine absurd (List.any_eq_true.mpr ⟨c, hc, ?_⟩) hplain
        rw [hwhite, Bool.true_or, Bool.true_or]

end CookieSettings

/-! ## The two lines, read by the browser -/

/-- The attributes of both lines, as they stand between the semicolons. -/
def attributeTexts (max_age : Text) (secure : Bool) (domain : Option Text) : List Text :=
  [" Path=/".toList, " Max-Age=".toList ++ max_age, " HttpOnly".toList,
    " SameSite=Strict".toList] ++ (if secure then [" Secure".toList] else []) ++
    (domain.map fun domain => " Domain=".toList ++ domain).toList

def sessionLine (value max_age : Text) (secure : Bool) (domain : Option Text) : Text :=
  [';'].intercalate
    ((cookieName ++ '=' :: value) :: attributeTexts max_age secure domain)

theorem setCookieValue_eq (token : Text) (ttl : ℕ) (secure : Bool) {domain : Option Text}
    (h : domain ≠ some []) : setCookieValue token ttl secure domain =
      sessionLine token (Nat.toDigits 10 ttl) secure domain := by
  have hpart : domainPart domain =
      ((domain.map fun domain => "; Domain=".toList ++ domain).getD []) := by
    unfold domainPart
    cases domain with
    | none => rfl
    | some domain =>
        have hne : domain ≠ [] := fun hnil => h (congrArg some hnil)
        simp [Option.filter, hne]
  unfold setCookieValue sessionLine attributeTexts securePart
  rw [hpart]
  cases secure <;> cases domain <;> simp [List.intercalate_cons_cons]

theorem clearCookieValue_eq (secure : Bool) {domain : Option Text} (h : domain ≠ some []) :
    clearCookieValue secure domain = sessionLine [] ['0'] secure domain := by
  have hset := setCookieValue_eq [] 0 secure h
  rw [show Nat.toDigits 10 0 = ['0'] from rfl] at hset
  rw [← hset]
  unfold setCookieValue clearCookieValue
  simp

theorem parseAttribute_cons {name value : Text} (hname : '=' ∉ name)
    (htrim : ∀ c ∈ value, Cookies.isWsp c = false) :
    Cookies.parseAttribute (name ++ '=' :: value) =
      ((trimBy Cookies.isWsp name).map Char.toLower, value) := by
  have hvalue : trimBy Cookies.isWsp value = value :=
    trimBy_eq_self (fun c hc => htrim c (List.mem_of_mem_head? hc))
      fun c hc => htrim c (List.mem_of_mem_getLast? hc)
  unfold Cookies.parseAttribute Cookies.cutPair
  rw [span_append_cons hname]
  simp [hvalue]

/-- The attributes of both lines, as the browser has them. -/
def attributes (max_age : Text) (secure : Bool) (domain : Option Text) : List (Text × Text) :=
  [("path".toList, ['/']), ("max-age".toList, max_age), ("httponly".toList, []),
    ("samesite".toList, "Strict".toList)] ++ (if secure then [("secure".toList, [])] else []) ++
    (domain.map fun domain => ("domain".toList, domain)).toList

theorem parse_attributeTexts {max_age : Text} {secure : Bool} {domain : Option Text}
    (hage : ∀ c ∈ max_age, Cookies.isWsp c = false)
    (hdomain : ∀ d ∈ domain, ∀ c ∈ d, Cookies.isWsp c = false) :
    (attributeTexts max_age secure domain).map Cookies.parseAttribute =
      attributes max_age secure domain := by
  have hmax : Cookies.parseAttribute (" Max-Age=".toList ++ max_age) =
      ("max-age".toList, max_age) := by
    rw [show " Max-Age=".toList ++ max_age = " Max-Age".toList ++ '=' :: max_age from rfl,
      parseAttribute_cons (by decide) hage]
    rfl
  have hpath : Cookies.parseAttribute " Path=/".toList = ("path".toList, ['/']) := by
    decide +kernel
  have honly : Cookies.parseAttribute " HttpOnly".toList = ("httponly".toList, []) := by
    decide +kernel
  have hsite : Cookies.parseAttribute " SameSite=Strict".toList =
      ("samesite".toList, "Strict".toList) := by decide +kernel
  have hsecure : Cookies.parseAttribute " Secure".toList = ("secure".toList, []) := by
    decide +kernel
  unfold attributeTexts attributes
  simp only [List.map_append, List.map_cons, List.map_nil, hmax, hpath, honly, hsite]
  congr 1
  · congr 1
    cases secure
    · rfl
    · exact congrArg (fun read => [read]) hsecure
  · cases domain with
    | none => rfl
    | some d =>
        have hd : Cookies.parseAttribute (" Domain=".toList ++ d) = ("domain".toList, d) := by
          rw [show " Domain=".toList ++ d = " Domain".toList ++ '=' :: d from rfl,
            parseAttribute_cons (by decide) (hdomain d rfl)]
          rfl
        exact congrArg (fun read => [read]) hd

section

variable (pair : Cookies.Pair) (max_age : Text) (secure : Bool) (domain : Option Text)

theorem any_secure : (attributes max_age secure domain).any (·.1 = "secure".toList) = secure := by
  unfold attributes
  cases secure <;> cases domain <;> simp

theorem attribute_max_age : (Cookies.SetCookie.mk pair
    (attributes max_age secure domain)).attribute "max-age" = some max_age := by
  unfold Cookies.SetCookie.attribute attributes
  cases secure <;> cases domain <;> simp

theorem cookiePath_attributes (place : Cookies.Place) : Cookies.cookiePath place
    (Cookies.SetCookie.mk pair (attributes max_age secure domain)) = ['/'] := by
  have hpath : (Cookies.SetCookie.mk pair
      (attributes max_age secure domain)).attribute "path" = some ['/'] := by
    unfold Cookies.SetCookie.attribute attributes
    cases secure <;> cases domain <;> simp
  unfold Cookies.cookiePath
  rw [hpath]
  rfl

theorem domain_attributes (hne : domain ≠ some [])
    (hdot : ∀ d ∈ domain, d.head? ≠ some '.') : (Cookies.SetCookie.mk pair
      (attributes max_age secure domain)).domain = domain.map (·.map Char.toLower) := by
  have hdomain : (Cookies.SetCookie.mk pair
      (attributes max_age secure domain)).attribute "domain" = domain := by
    unfold Cookies.SetCookie.attribute attributes
    cases secure <;> cases domain <;> simp
  unfold Cookies.SetCookie.domain
  rw [hdomain]
  cases domain with
  | none => rfl
  | some d =>
      have hd : d.map Char.toLower ≠ [] := fun hnil => hne (congrArg some (List.map_eq_nil_iff.mp hnil))
      simp only [Option.map_some]
      rw [if_neg (hdot d rfl)]
      simpa [Option.filter] using hd

end

/-! ## What a sign-in leaves in the browser -/

/-- What a JSON web token is written with. -/
def isTokenChar (c : Char) : Bool := c.isAlphanum || c == '-' || c == '_' || c == '.'

structure Token : Type where
  text : Text
  ne_nil : text ≠ []
  chars : ∀ c ∈ text, isTokenChar c = true

theorem isVisible_of_isTokenChar {c : Char} (h : isTokenChar c = true) : isVisible c = true := by
  simp only [isTokenChar, Bool.or_eq_true, beq_iff_eq] at h
  rcases h with ((h | rfl) | rfl) | rfl
  · have hn := toNat_of_isAlphanum h
    simp only [isVisible, Bool.or_eq_true, Bool.and_eq_true, decide_eq_true_eq]
    omega
  all_goals decide

theorem of_isTokenChar {c : Char} (h : isTokenChar c = true) :
    c ≠ ';' ∧ Cookies.isWsp c = false := by
  refine ⟨?_, ?_⟩
  · rintro rfl
    exact absurd h (by decide)
  · cases hwsp : Cookies.isWsp c with
    | false => rfl
    | true =>
        simp only [Cookies.isWsp, Bool.or_eq_true, beq_iff_eq] at hwsp
        rcases hwsp with rfl | rfl
        all_goals exact absurd h (by decide)

/-- The pair of the cookie, with a token or without one. -/
def sessionPair (value : Text) (h : ∀ c ∈ value, isTokenChar c = true) : Cookies.Pair where
  name := cookieName
  value := value
  name_ne_nil := by decide
  semicolon_not_mem_name := by decide
  equals_not_mem_name := by decide
  semicolon_not_mem_value := fun hmem => (of_isTokenChar (h _ hmem)).1 rfl
  trim_name := by decide
  trim_value := trimBy_eq_self
    (fun c hc => (of_isTokenChar (h c (List.mem_of_mem_head? hc))).2)
    fun c hc => (of_isTokenChar (h c (List.mem_of_mem_getLast? hc))).2

theorem visible_sessionPair {value : Text} (h : ∀ c ∈ value, isTokenChar c = true) :
    (sessionPair value h).text.all isVisible = true := by
  have hname : cookieName.all isVisible = true := by decide
  have hvalue : value.all isVisible = true :=
    List.all_eq_true.mpr fun c hc => isVisible_of_isTokenChar (h c hc)
  show (cookieName ++ '=' :: value).all isVisible = true
  rw [List.all_append, List.all_cons, hname, hvalue]
  decide

section

variable (ua : Cookies.UserAgent) (settings : CookieSettings)

/-- Under which domain, and for that host alone or not, a cookie set at a host is kept. -/
def scope (host : Text) : Option (Text × Bool) :=
  match settings.domain with
  | none => some (host, true)
  | some domain =>
      let parent := domain.map Char.toLower
      if ua.publicSuffix parent then if host = parent then some (host, true) else none
      else if ua.domainMatches host parent then some (parent, false)
      else none

def sessionCookie (pair : Cookies.Pair) (key : Text × Bool) (expires : ℕ) : Cookies.Cookie where
  pair := pair
  domain := key.1
  host_only := key.2
  path := ['/']
  secure := settings.secure
  expires := some expires

theorem accept_attributes {pair : Cookies.Pair} {max_age : Text} {place : Cookies.Place}
    {now delta : ℕ} (hage : Cookies.parseDelta max_age = some (delta : ℤ)) :
    ua.accept place now ⟨pair, attributes max_age settings.secure settings.domain⟩ =
      if settings.secure && !place.secure then none
      else (scope ua settings place.host).map fun key =>
        sessionCookie settings pair key (if delta = 0 then 0 else now + delta) := by
  have hexpiry : ua.expiry now ⟨pair, attributes max_age settings.secure settings.domain⟩ =
      some (if delta = 0 then 0 else now + delta) := by
    unfold Cookies.UserAgent.expiry
    rw [attribute_max_age]
    simp only [Option.bind_some, hage]
    simp
  have hdomain := domain_attributes pair max_age settings.secure settings.domain
    (fun hnil => (settings.domain_plain hnil).1 rfl) fun d hd => (settings.domain_plain hd).2.1
  have hsecure := any_secure max_age settings.secure settings.domain
  have hpath := cookiePath_attributes pair max_age settings.secure settings.domain place
  unfold Cookies.UserAgent.accept scope sessionCookie
  simp only [hexpiry, hdomain, hsecure, hpath]
  cases settings.secure && !place.secure with
  | true => rfl
  | false =>
      cases settings.domain with
      | none => rfl
      | some d =>
          simp only [Option.map_some, Bool.false_eq_true, if_false]
          split
          · split <;> rfl
          · split <;> rfl

/-- **A line, received**: what it leaves in the jar, if the browser takes it. -/
theorem receive_sessionLine {value max_age : Text} (hvalue : ∀ c ∈ value, isTokenChar c = true)
    (hsemicolon : ';' ∉ max_age) (hwsp : ∀ c ∈ max_age, Cookies.isWsp c = false)
    (hcarried : settings.Carried) {delta : ℕ}
    (hage : Cookies.parseDelta max_age = some (delta : ℤ)) (jar : List Cookies.Cookie)
    (place : Cookies.Place) (now : ℕ) :
    ua.receive jar place now (sessionLine value max_age settings.secure settings.domain) =
      if settings.secure && !place.secure then jar
      else match scope ua settings place.host with
        | none => jar
        | some key => Cookies.put jar (sessionCookie settings (sessionPair value hvalue) key
            (if delta = 0 then 0 else now + delta)) := by
  have hdomain : ∀ d ∈ settings.domain, ∀ c ∈ d, Cookies.isWsp c = false := by
    intro d hd c hc
    have hwhite := (settings.domain_plain hd).2.2 c hc
    cases hwsp : Cookies.isWsp c with
    | false => rfl
    | true =>
        simp only [Cookies.isWsp, Bool.or_eq_true, beq_iff_eq] at hwsp
        rcases hwsp with rfl | rfl
        all_goals exact absurd hwhite (by decide)
  have hpieces : ∀ t ∈ attributeTexts max_age settings.secure settings.domain, ';' ∉ t := by
    intro t ht
    unfold attributeTexts at ht
    rcases List.mem_append.mp ht with ht | ht
    · rcases List.mem_append.mp ht with ht | ht
      · simp only [List.mem_cons, List.not_mem_nil, or_false] at ht
        rcases ht with rfl | rfl | rfl | rfl
        · decide
        · rw [List.mem_append, not_or]
          exact ⟨by decide, hsemicolon⟩
        · decide
        · decide
      · split at ht
        · rw [List.mem_singleton.mp ht]
          decide
        · cases ht
    · obtain ⟨d, hd, rfl⟩ := Option.map_eq_some_iff.mp (Option.mem_toList.mp ht)
      rw [List.mem_append, not_or]
      exact ⟨by decide, (hcarried d hd).2⟩
  have hparse : Cookies.parseSetCookie
      (sessionLine value max_age settings.secure settings.domain) =
        some ⟨sessionPair value hvalue, attributes max_age settings.secure settings.domain⟩ := by
    have hread := Cookies.parseSetCookie_text (sessionPair value hvalue) hpieces
    rw [parse_attributeTexts hwsp hdomain] at hread
    exact hread
  unfold Cookies.UserAgent.receive
  rw [hparse, Option.bind_some, accept_attributes ua settings hage]
  cases settings.secure && !place.secure with
  | true => rfl
  | false => cases scope ua settings place.host <;> rfl

end

end Wallermax.Auth
