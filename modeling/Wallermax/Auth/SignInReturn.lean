import Wallermax.Auth.RedirectQuery
import Wallermax.Base.FormFields
import Wallermax.Base.UrlAuthority
import Wallermax.Server.HttpsRedirect
import Wallermax.Tenants.Classification

/-!
# The way back from the login form

`login_url_global` links to the login form with the page it is on as the `redirect` field,
and the form's handler sends the browser where `safe_redirect` lets it. The encoder and the
form decoder are inverse for every page. The allowlist is stricter than the link: a path
with a second slash at its front, a backslash or a control character is no local path, and
an absolute URL is an own one by the host that the URL parser finds in it.
-/

namespace Wallermax.Auth

open Wallermax.Base
open Wallermax.Server (PathAndQuery)
open Wallermax.Tenants (HostRequest requestHost isControl)
open Wallermax.Templates (Binding HostClass hostName classify eqIgnoreAsciiCase)

/-! ## The link -/

/-- What `login_url_global` reads of a request. -/
structure PageRequest : Type where
  host : HostRequest
  path_and_query : Option PathAndQuery

/-- What `login_url_global` and `safe_redirect` read of the state. -/
structure SignInState : Type where
  config : Tenants.VhostConfig
  cookie_domain : Text
  bindings : List Binding

def SignInState.cmsOrigin (s : SignInState) : Text :=
  (Tenants.cmsOrigin s.config (s.bindings.map Binding.toHostBinding)).toList

/-- `encode_uri_component` leaves the character. -/
def isUnreserved (c : Char) : Bool := c.isAlphanum || "-_.!~*'()".toList.contains c

/-- `encode_uri_component`. -/
def encodeUriComponent (value : Text) : Text := percentEncode isUnreserved value

def loginPath : Text := "/login".toList

/-- The end of the link. -/
def redirectQuery (target : Text) : Text := "?redirect=".toList ++ encodeUriComponent target

def PageRequest.here (request : PageRequest) : Text :=
  request.path_and_query.elim ['/'] PathAndQuery.asStr

def SignInState.scheme (s : SignInState) : Text :=
  if s.config.tls_enabled then "https".toList else "http".toList

/-- `login_url_global`. -/
def loginUrlGlobal (s : SignInState) (request : PageRequest) : Text :=
  match classify (requestHost request.host) s.bindings with
  | .tenant _ => loginPath ++ redirectQuery request.here
  | _ =>
    if s.cmsOrigin = [] then loginPath ++ redirectQuery request.here
    else
      let here := match requestHost request.host with
        | some host => s.scheme ++ "://".toList ++ (host.toList ++ request.here)
        | none => request.here
      s.cmsOrigin ++ loginPath ++ redirectQuery here

/-! ## Where it started -/

/-- The login form is on the page's own host. -/
def SameOrigin (s : SignInState) (request : PageRequest) : Prop :=
  (∃ root, classify (requestHost request.host) s.bindings = .tenant root) ∨ s.cmsOrigin = []

instance (s : SignInState) (request : PageRequest) : Decidable (SameOrigin s request) :=
  match hclass : classify (requestHost request.host) s.bindings with
  | .tenant root => .isTrue (.inl ⟨root, hclass⟩)
  | .cms => decidable_of_iff (s.cmsOrigin = []) (by simp [SameOrigin, hclass])
  | .main => decidable_of_iff (s.cmsOrigin = []) (by simp [SameOrigin, hclass])

/-- The host of an absolute target. -/
def awayHost (s : SignInState) (request : PageRequest) : Option String :=
  if SameOrigin s request then none else requestHost request.host

/-- The page as the login form is to know it. -/
def pageTarget (s : SignInState) (request : PageRequest) : Text :=
  match awayHost s request with
  | some host => s.scheme ++ "://".toList ++ (host.toList ++ request.here)
  | none => request.here

/-- Where the login form is. -/
def formOrigin (s : SignInState) (request : PageRequest) : Text :=
  if SameOrigin s request then [] else s.cmsOrigin

/-- `cookie_domain` covers the host. -/
def Covered (s : SignInState) (host : Text) : Prop :=
  s.cookie_domain ≠ [] ∧ (host.map Char.toLower = s.cookie_domain ∨
    '.' :: s.cookie_domain <:+ host.map Char.toLower)

/-- The vhost table maps the host. -/
def Mapped (s : SignInState) (host : Text) : Prop :=
  ∃ b ∈ s.bindings, eqIgnoreAsciiCase b.hostname.toList host = true

/-- The URL `link` is `front` with the fields for its query. -/
def HasFields (link front : Text) (fields : List (Text × Text)) : Prop :=
  ∃ query, link = front ++ (Uri.queryText (some query) ++ Uri.fragmentText none) ∧
    Uri.IsParts front (some query) none ∧ FormFields.parse query = fields

def parseUrl (parser : UrlAuthority.Parser) (t : Text) : Option Url :=
  (parser.read t).map fun read => ⟨read.1, read.2⟩

/-- `safe_redirect` returns the target, and not for want of another. -/
def Returned (parser : UrlAuthority.Parser) (own_host : Option Text) (s : SignInState)
    (target : Text) : Prop :=
  Accepted (parseUrl parser) own_host s.cookie_domain s.bindings target ∧
    safeRedirect (parseUrl parser) own_host s.cookie_domain s.bindings (some target) = target

/-- The round trip lands where it started. -/
structure LandsBack (parser : UrlAuthority.Parser) (own_host : Option Text) (s : SignInState)
    (request : PageRequest) : Prop where
  field : HasFields (loginUrlGlobal s request) (formOrigin s request ++ loginPath)
    [("redirect".toList, pageTarget s request)]
  returned : (∀ host ∈ awayHost s request,
      Mapped s (hostName host) ∨ Covered s (hostName host)) →
    Returned parser own_host s (pageTarget s request)

/-- One slash begins the path, and no character of it is refused. -/
def IsLocal (path : Text) : Prop :=
  (∃ rest, path = '/' :: rest ∧ rest.head? ≠ some '/') ∧ '\\' ∉ path ∧
    ∀ c ∈ path, isControl c = false

/-- The page is one the allowlist has under the name the link gives it. -/
structure Returnable (parser : UrlAuthority.Parser) (own_host : Option Text) (s : SignInState)
    (request : PageRequest) : Prop where
  origin : ∀ c ∈ formOrigin s request, c ≠ '?' ∧ c ≠ '#'
  here : awayHost s request = none → IsLocal request.here
  host : ∀ host ∈ awayHost s request, Mapped s (hostName host) ∨ Covered s (hostName host) →
    ∃ name ∈ UrlAuthority.readHost parser.host
        (UrlAuthority.cleanBack (host.toList ++ request.here)),
      Mapped s name ∨ Covered s name ∨ ∃ own ∈ own_host, name.map Char.toLower = own.map Char.toLower

/-! ## The field of the link -/

theorem loginUrlGlobal_eq (s : SignInState) (request : PageRequest) :
    loginUrlGlobal s request =
      formOrigin s request ++ loginPath ++ redirectQuery (pageTarget s request) := by
  unfold loginUrlGlobal formOrigin pageTarget awayHost
  by_cases hsame : SameOrigin s request
  · rw [if_pos hsame, if_pos hsame]
    rcases hsame with ⟨root, hroot⟩ | hempty
    · rw [hroot]
      rfl
    · split
      · rfl
      · rw [if_pos hempty]
        rfl
  · rw [if_neg hsame, if_neg hsame]
    split
    · rename_i root hroot
      exact absurd (.inl ⟨root, hroot⟩) hsame
    · rw [if_neg fun hempty => hsame (.inr hempty)]

theorem isPlain_of_unreserved {c : Char} (h : isUnreserved c = true) : FormFields.IsPlain c := by
  have hother : ∀ d ∈ "%+&#".toList, c ≠ d := by
    rintro d hd rfl
    have hreserved : ∀ e ∈ "%+&#".toList, isUnreserved e = false :=
      forall_mem_of_all (by decide)
    rw [hreserved _ hd] at h
    cases h
  have hascii : c.toNat < 0x80 := by
    simp only [isUnreserved, Bool.or_eq_true] at h
    rcases h with h | h
    · have := (toNat_of_isAlphanum h).2
      omega
    · have hsigns : ∀ d ∈ "-_.!~*'()".toList, d.toNat < 0x80 := forall_mem_of_all (by decide)
      exact hsigns c (List.contains_iff_mem.mp h)
  exact ⟨hascii, hother '%' (by simp), hother '+' (by simp), hother '&' (by simp),
    hother '#' (by simp)⟩

theorem redirectQuery_eq (target : Text) : redirectQuery target =
    Uri.queryText (some ("redirect".toList ++ '=' :: encodeUriComponent target)) ++
      Uri.fragmentText none := by
  rw [Uri.fragmentText, Uri.queryText, List.append_nil]
  rfl

/-- **The field of the link** is the page, where nothing before it starts a query or a
fragment. -/
theorem hasFields_iff (s : SignInState) (request : PageRequest) :
    HasFields (loginUrlGlobal s request) (formOrigin s request ++ loginPath)
        [("redirect".toList, pageTarget s request)] ↔
      ∀ c ∈ formOrigin s request, c ≠ '?' ∧ c ≠ '#' := by
  constructor
  · rintro ⟨query, -, hparts, -⟩ c hc
    have hpath := hparts.front_chars c (List.mem_append_left _ hc)
    simpa [Uri.isPathChar] using hpath
  · intro horigin
    refine ⟨"redirect".toList ++ '=' :: encodeUriComponent (pageTarget s request), ?_, ⟨?_, ?_⟩, ?_⟩
    · rw [loginUrlGlobal_eq, redirectQuery_eq]
    · intro c hc
      rcases List.mem_append.mp hc with hc | hc
      · simpa [Uri.isPathChar] using horigin c hc
      · have hlogin : ∀ d ∈ loginPath, Uri.isPathChar d = true := forall_mem_of_all (by decide)
        exact hlogin c hc
    · rintro _ ⟨⟩ c hc
      have hname : ∀ d ∈ "redirect".toList ++ ['='], Uri.isQueryChar d = true :=
        forall_mem_of_all (by decide)
      rcases List.mem_append.mp hc with hc | hc
      · exact hname c (List.mem_append_left _ hc)
      rcases List.mem_cons.mp hc with rfl | hc
      · decide
      · have hsign := FormFields.percentEncode_ne_sign (fun d => isPlain_of_unreserved) hc
        simpa [Uri.isQueryChar] using hsign.2.2
    · have hname : FormFields.decode "redirect".toList = "redirect".toList := by decide +kernel
      have hfield := FormFields.parse_field (fun d => isPlain_of_unreserved)
        (show '=' ∉ "redirect".toList by decide) (by decide) (pageTarget s request)
      rw [hname] at hfield
      exact hfield

/-! ## The allowlist -/

section

variable (parser : UrlAuthority.Parser) (own_host : Option Text) (s : SignInState)

theorem returned_iff (target : Text) : Returned parser own_host s target ↔
    Accepted (parseUrl parser) own_host s.cookie_domain s.bindings target := by
  refine ⟨And.left, fun haccepted => ⟨haccepted, ?_⟩⟩
  unfold safeRedirect
  rw [Option.filter_some, if_pos (Bool.or_eq_true _ _ ▸ haccepted)]
  rfl

theorem isLocalRedirect_iff (path : Text) : isLocalRedirect path = true ↔ IsLocal path := by
  unfold isLocalRedirect IsLocal
  simp only [Bool.and_eq_true, beq_iff_eq, Bool.not_eq_true', List.contains_eq_mem,
    decide_eq_false_iff_not, List.any_eq_false, Bool.not_eq_true, and_assoc]
  constructor
  · rintro ⟨hslash, htwo, hrest⟩
    obtain ⟨rest, rfl⟩ := List.head?_eq_some_iff.mp hslash
    refine ⟨⟨rest, rfl, ?_⟩, hrest⟩
    cases rest with
    | nil => simp
    | cons c rest =>
        rintro heq
        rw [List.head?_cons, Option.some_inj] at heq
        subst heq
        cases htwo
  · rintro ⟨⟨rest, rfl, hne⟩, hrest⟩
    refine ⟨rfl, ?_, hrest⟩
    cases rest with
    | nil => rfl
    | cons c rest =>
        have hc : c ≠ '/' := fun heq => hne (by rw [heq, List.head?_cons])
        simp [List.isPrefixOf, Ne.symm hc]

/-- A path is no URL. -/
theorem parse_path (path : PathAndQuery) : parseUrl parser path.asStr = none := by
  have hfirst : ∃ c rest, path.asStr = c :: rest ∧ (c = '*' ∨ c = '/' ∨ c = '?') := by
    unfold PathAndQuery.asStr
    split
    · exact ⟨'/', [], rfl, .inr (.inl rfl)⟩
    · rename_i hne
      obtain ⟨c, rest, hdata⟩ := List.exists_cons_of_ne_nil hne
      refine ⟨c, rest, hdata, ?_⟩
      rcases path.rooted with hstar | hrooted
      · rw [hstar, List.cons.injEq] at hdata
        exact .inl hdata.1.symm
      · exact .inr (hrooted c (by rw [hdata]; rfl))
  obtain ⟨c, rest, hpath, hc⟩ := hfirst
  have hnone : parser.read (c :: rest) = none := by
    rcases hc with rfl | rfl | rfl
    · exact UrlAuthority.read_relative parser rfl rfl rest
    · exact UrlAuthority.read_relative parser rfl rfl rest
    · exact UrlAuthority.read_relative parser rfl rfl rest
  rw [parseUrl, hpath, hnone]
  rfl

theorem parse_here (request : PageRequest) : parseUrl parser request.here = none := by
  unfold PageRequest.here
  cases request.path_and_query with
  | none => exact parse_path parser ⟨[], List.not_mem_nil, .inr nofun⟩
  | some path => exact parse_path parser path

theorem accepted_here_iff (request : PageRequest) :
    Accepted (parseUrl parser) own_host s.cookie_domain s.bindings request.here ↔
      IsLocal request.here := by
  have hforeign : ownUrlAllowed (parseUrl parser) own_host s.cookie_domain s.bindings
      request.here = false := by
    unfold ownUrlAllowed
    rw [parse_here]
  rw [Accepted, hforeign, isLocalRedirect_iff]
  exact or_iff_left Bool.false_ne_true

/-- The allowlist judges a web URL by its host. -/
theorem ownUrlAllowed_host {scheme host target : Text} (hweb : UrlAuthority.isWeb scheme = true)
    (hparse : parseUrl parser target = some ⟨scheme, some host⟩) :
    ownUrlAllowed (parseUrl parser) own_host s.cookie_domain s.bindings target = true ↔
      Mapped s host ∨ Covered s host ∨ ∃ own ∈ own_host, host.map Char.toLower = own.map Char.toLower := by
  have hscheme : (scheme != "http".toList && scheme != "https".toList) = false := by
    rw [UrlAuthority.isWeb, Bool.or_eq_true, beq_iff_eq, beq_iff_eq] at hweb
    rcases hweb with rfl | rfl <;> decide
  have hmapped : (s.bindings.any fun b =>
      eqIgnoreAsciiCase b.hostname.toList (host.map Char.toLower)) = true ↔ Mapped s host := by
    rw [List.any_eq_true]
    simp only [eqIgnoreAsciiCase, Tenants.map_toLower_toLower, Mapped]
  have hown : (own_host.any fun own => host.map Char.toLower == own.map Char.toLower) = true ↔
      ∃ own ∈ own_host, host.map Char.toLower = own.map Char.toLower := by
    simp [Option.any_eq_true]
  unfold ownUrlAllowed
  simp only [hparse, hscheme, Bool.false_eq_true, if_false, List.isSuffixOf_iff_suffix]
  split
  case isTrue hcovered => exact iff_of_true rfl (.inr (.inl hcovered))
  case isFalse hcovered =>
    have huncovered : ¬Covered s host := hcovered
    rw [Bool.or_eq_true, hmapped, hown, or_iff_right huncovered]
    exact or_comm

/-- **An absolute target** is judged by the host the URL parser finds in it. -/
theorem accepted_absolute_iff (t : Text) :
    Accepted (parseUrl parser) own_host s.cookie_domain s.bindings
        (s.scheme ++ "://".toList ++ t) ↔
      ∃ name ∈ UrlAuthority.readHost parser.host (UrlAuthority.cleanBack t),
        Mapped s name ∨ Covered s name ∨
          ∃ own ∈ own_host, name.map Char.toLower = own.map Char.toLower := by
  have hweb : UrlAuthority.isWeb s.scheme = true := by
    unfold SignInState.scheme
    split <;> rfl
  have hlocal : isLocalRedirect (s.scheme ++ "://".toList ++ t) = false := by
    unfold SignInState.scheme
    split <;> rfl
  have hread := UrlAuthority.read_web parser hweb t
  rw [Accepted, hlocal, or_iff_right Bool.false_ne_true]
  cases hname : UrlAuthority.readHost parser.host (UrlAuthority.cleanBack t) with
  | none =>
      have hnone : ownUrlAllowed (parseUrl parser) own_host s.cookie_domain s.bindings
          (s.scheme ++ "://".toList ++ t) = false := by
        unfold ownUrlAllowed parseUrl
        rw [hread, hname]
        rfl
      rw [hnone]
      simp
  | some name =>
      have hparse : parseUrl parser (s.scheme ++ "://".toList ++ t) =
          some ⟨s.scheme, some name⟩ := by
        rw [parseUrl, hread, hname]
        rfl
      rw [ownUrlAllowed_host parser own_host s hweb hparse]
      simp

end

/-! ## The round trip -/

/-- **When a sign-in lands where it started.** For every request, configuration, cookie
domain, vhost table, host of the login form and URL parser, the link's field is the page and
`safe_redirect` returns it exactly when nothing in the form's origin starts a query or a
fragment, a page on the form's own host is a local path, and the URL parser finds a host of
the family in the address of another. -/
theorem landsBack_iff (parser : UrlAuthority.Parser) (own_host : Option Text) (s : SignInState)
    (request : PageRequest) :
    LandsBack parser own_host s request ↔ Returnable parser own_host s request := by
  cases haway : awayHost s request with
  | none =>
      have htarget : pageTarget s request = request.here := by rw [pageTarget, haway]
      constructor
      · intro h
        refine ⟨(hasFields_iff s request).mp h.field, fun _ => ?_, ?_⟩
        · have hreturned := h.returned (by simp [haway])
          rw [returned_iff, htarget, accepted_here_iff] at hreturned
          exact hreturned
        · simp [haway]
      · intro h
        refine ⟨(hasFields_iff s request).mpr h.origin, fun _ => ?_⟩
        rw [returned_iff, htarget, accepted_here_iff]
        exact h.here haway
  | some host =>
      have htarget : pageTarget s request =
          s.scheme ++ "://".toList ++ (host.toList ++ request.here) := by rw [pageTarget, haway]
      constructor
      · intro h
        refine ⟨(hasFields_iff s request).mp h.field, by simp [haway], ?_⟩
        intro host' hhost' hfamily
        obtain rfl : host = host' := by simpa [haway] using hhost'
        have hreturned := h.returned fun _ hother => by
          obtain rfl : host = _ := by simpa [haway] using hother
          exact hfamily
        rw [returned_iff, htarget, accepted_absolute_iff] at hreturned
        exact hreturned
      · intro h
        refine ⟨(hasFields_iff s request).mpr h.origin, fun hfamily => ?_⟩
        rw [returned_iff, htarget, accepted_absolute_iff]
        exact h.host host haway (hfamily host haway)

/-! ## Plainly written hosts -/

theorem isHost_text {host : UrlHost} (hhost : host.isValid = true) : Tenants.IsHost host.text := by
  have hvisible : ∀ c : Char, c.isAlphanum = true → Tenants.isWhitespace c = false := by
    intro c hc
    have hrange := toNat_of_isAlphanum hc
    simp only [Tenants.isWhitespace, Bool.or_eq_false_iff, Bool.and_eq_false_iff,
      decide_eq_false_iff_not, beq_eq_false_iff_ne]
    omega
  cases host with
  | name t =>
      have hchars := (UrlHost.isName_iff.mp hhost).2
      refine ⟨fun c hc => ?_, .inl fun c hc => ?_⟩
      · have hname := hchars c hc
        rw [UrlHost.isNameChar, Bool.or_eq_true, List.contains_iff_mem] at hname
        rcases hname with hname | hsign
        · exact hvisible c hname
        · have hsigns : ∀ d ∈ "-._~!$&'()*+,;=%".toList, Tenants.isWhitespace d = false :=
            forall_mem_of_all (by decide)
          exact hsigns c hsign
      · obtain ⟨-, hclose, hcolon, -⟩ := UrlHost.isNameChar_cases (hchars c hc)
        exact ⟨hcolon, hclose⟩
  | literal t =>
      have hchars := (UrlHost.isLiteral_iff.mp hhost).2
      refine ⟨fun c hc => ?_, .inr ⟨'[' :: t, rfl, fun hc => ?_⟩⟩
      · rcases List.mem_cons.mp hc with rfl | hc
        · decide
        rcases List.mem_append.mp hc with hc | hc
        · have hliteral := hchars c hc
          rw [UrlHost.isLiteralChar, Bool.or_eq_true, List.contains_iff_mem] at hliteral
          rcases hliteral with hdigit | hsign
          · exact hvisible c (isAlphanum_of_isDigit hdigit)
          · have hsigns : ∀ d ∈ "abcdefABCDEF:.".toList, Tenants.isWhitespace d = false :=
              forall_mem_of_all (by decide)
            exact hsigns c hsign
        · obtain rfl := List.mem_singleton.mp hc
          decide
      · rcases List.mem_cons.mp hc with heq | hc
        · cases heq
        · exact (UrlHost.isLiteralChar_cases (hchars _ hc)).2.1 rfl

theorem isPort_portText {port : Option Text}
    (hport : ∀ digits ∈ port, digits.all Char.isDigit = true) : Tenants.IsPort (portText port) := by
  cases port with
  | none => exact .inl rfl
  | some digits => exact .inr ⟨digits, rfl, List.all_eq_true.mp (hport digits rfl)⟩

theorem hostName_written {raw : String} {host : UrlHost} {port : Option Text}
    (hhost : host.isValid = true) (hport : ∀ digits ∈ port, digits.all Char.isDigit = true)
    (hraw : raw.toList = host.text ++ portText port) : hostName raw = host.text := by
  refine Tenants.hostName_of_headerNames (isHost_text hhost)
    ⟨[], portText port, [], ?_, isPort_portText hport, ?_, ?_⟩
  · rw [hraw, List.nil_append, List.append_nil]
  · exact fun c hc => by cases hc
  · exact fun c hc => by cases hc

theorem mapped_lower (s : SignInState) (host : Text) :
    Mapped s (host.map Char.toLower) ↔ Mapped s host := by
  simp only [Mapped, eqIgnoreAsciiCase, Tenants.map_toLower_toLower]

theorem covered_lower (s : SignInState) (host : Text) :
    Covered s (host.map Char.toLower) ↔ Covered s host := by
  simp only [Covered, Tenants.map_toLower_toLower]

/-- **A host that is written plainly**, which the host parser puts in lower case, is found
again unless its port is too high. -/
theorem host_returnable (parser : UrlAuthority.Parser) (s : SignInState) {request : PageRequest}
    {raw : String} {host : UrlHost} {port : Option Text} {rest : Text}
    (hhost : host.isValid = true) (hport : ∀ digits ∈ port, digits.all Char.isDigit = true)
    (hraw : raw.toList = host.text ++ portText port) (hhere : request.here = '/' :: rest)
    (hplain : parser.host host.text = some (host.text.map Char.toLower))
    (hfamily : Mapped s (hostName raw) ∨ Covered s (hostName raw)) :
    (∃ name ∈ UrlAuthority.readHost parser.host
        (UrlAuthority.cleanBack (raw.toList ++ request.here)), Mapped s name ∨ Covered s name) ↔
      UrlAuthority.isPort (portText port) = true := by
  have hchars := UrlAuthority.written_chars hhost hport
  have htab : ∀ c ∈ host.text ++ portText port, UrlScheme.isTabOrNewline c = false := by
    intro c hc
    have hvisible : Tenants.isWhitespace c = false := by
      rcases List.mem_append.mp hc with hc | hc
      · exact (isHost_text hhost).1 c hc
      · exact ((isPort_portText hport).visible c hc).1
    cases htab : UrlScheme.isTabOrNewline c with
    | false => rfl
    | true =>
        simp only [UrlScheme.isTabOrNewline, Bool.or_eq_true, beq_iff_eq] at htab
        rcases htab with (rfl | rfl) | rfl <;> cases hvisible
  have hclean : UrlAuthority.cleanBack (raw.toList ++ request.here) =
      host.text ++ portText port ++ '/' :: UrlAuthority.cleanBack rest := by
    rw [hraw, hhere, UrlAuthority.cleanBack_append rfl _ htab]
  rw [hclean, UrlAuthority.readHost_written parser.host hhost hport (Uri.stops_cons rfl _), hplain]
  rw [hostName_written hhost hport hraw] at hfamily
  cases UrlAuthority.isPort (portText port) with
  | false => simp
  | true => simpa [mapped_lower, covered_lower] using hfamily

/-! ## A path with two slashes -/

/-- A CMS host and a tenant's. -/
def signInHosts : SignInState where
  config := Tenants.defaultConfig
  cookie_domain := []
  bindings := [⟨⟨"cms.example", "cms", "/srv/views"⟩, rfl⟩,
    ⟨⟨"acme.example", "acme", "/srv/sites/acme"⟩, rfl⟩]

/-- The parser of plain names. -/
def plainParser : UrlAuthority.Parser where
  host := fun name => some (name.map Char.toLower)
  other := fun _ _ => none

def twoSlashes : PageRequest where
  host := ⟨none, [some "acme.example"]⟩
  path_and_query :=
    some ⟨"//about".toList, by decide, .inr fun _ hc => .inl (Option.some_inj.mp hc).symm⟩

/-- The page `//about` of a tenant is linked to, and the sign-in ends on the home page. -/
theorem two_slashes_home :
    loginUrlGlobal signInHosts twoSlashes = "/login?redirect=%2F%2Fabout".toList ∧
      safeRedirect (parseUrl plainParser) (some "acme.example".toList) []
        signInHosts.bindings (some "//about".toList) = ['/'] ∧
      ¬LandsBack plainParser (some "acme.example".toList) signInHosts twoSlashes := by
  refine ⟨by decide +kernel, by decide +kernel, fun h => ?_⟩
  have haway : awayHost signInHosts twoSlashes = none := by decide +kernel
  have hreturned := h.returned (by simp [haway])
  have hlocal : ¬IsLocal twoSlashes.here := by
    rintro ⟨⟨rest, hrest, hslash⟩, -⟩
    obtain rfl : "/about".toList = rest := (List.cons.inj hrest).2
    exact hslash rfl
  have htarget : pageTarget signInHosts twoSlashes = twoSlashes.here := by rw [pageTarget, haway]
  rw [returned_iff, htarget, accepted_here_iff] at hreturned
  exact hlocal hreturned

end Wallermax.Auth
