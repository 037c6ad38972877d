import Mathlib.Data.List.DropRight
import Wallermax.Base.Uri
import Wallermax.Templates.Middleware

/-!
# Where the login forms redirect to

`safe_redirect` returns the posted target when it is a local path or one of the
server's own URLs, and `redirect_response` puts what it gets into a `Location`
header, expecting it to be a legal value. A local path has no control
characters. An own URL is judged by what the URL parser makes of it, and the
parser drops tabs, newlines and the controls around the URL, while the posted
string itself is returned.
-/

namespace Wallermax.Auth

open Wallermax.Base Wallermax.Accounts
open Wallermax.Tenants (isControl)
open Wallermax.Templates (Binding hostName eqIgnoreAsciiCase)

/-! ## Accepting a target -/

/-- What the handlers read of a parsed URL. -/
structure Url : Type where
  scheme : Text
  host : Option Text
deriving DecidableEq

/-- `is_local_redirect`. -/
def isLocalRedirect (path : Text) : Bool :=
  path.head? == some '/' && !(List.isPrefixOf ['/', '/'] path) && !path.contains '\\' &&
    !path.any isControl

section

variable (parseUrl : Text → Option Url) (own_host : Option Text) (cookie_domain : Text)
  (bindings : List Binding)

/-- `own_url_allowed`. -/
def ownUrlAllowed (target : Text) : Bool :=
  match parseUrl target with
  | none => false
  | some url =>
      if url.scheme != "http".toList && url.scheme != "https".toList then false
      else match url.host with
      | none => false
      | some host =>
          let host := host.map Char.toLower
          if cookie_domain ≠ [] ∧
              (host = cookie_domain ∨ ('.' :: cookie_domain).isSuffixOf host) then true
          else own_host.any (fun own => host == own.map Char.toLower) ||
            bindings.any fun b => eqIgnoreAsciiCase b.hostname.toList host

/-- `safe_redirect`, for the host name of the request. -/
def safeRedirect (target : Option Text) : Text :=
  (target.filter fun target => isLocalRedirect target ||
    ownUrlAllowed parseUrl own_host cookie_domain bindings target).getD ['/']

end

/-! ## The responses -/

/-- `redirect_with_error`. -/
def redirectWithError (redirect param code fragment : Text) : Text :=
  redirect ++ (if redirect.contains '?' then '&' else '?') :: (param ++ '=' :: code ++ fragment)

/-- The octets `HeaderValue` accepts. -/
def isHeaderOctet (b : UInt8) : Bool := (0x20 ≤ b && b != 0x7F) || b == 0x09

/-- The text is a legal header value. -/
def isHeaderText (t : Text) : Bool := (octets t).all isHeaderOctet

structure SeeOther : Type where
  location : Text
  cookie : Option Text
deriving DecidableEq

/-- `redirect_response`; nothing where its `expect` panics. -/
def redirectResponse (location : Text) (cookie : Option Text) : Option SeeOther :=
  if isHeaderText location && cookie.all isHeaderText then some ⟨location, cookie⟩ else none

/-- `str::contains` for a text. -/
def containsText (needle t : Text) : Bool := t.tails.any needle.isPrefixOf

/-- The code `register_failure` reports. -/
def registerFailureCode : AppError → Text
  | .conflict _ => "taken".toList
  | .forbidden _ => "closed".toList
  | .badRequest message =>
      if containsText "username".toList message.toList then "username".toList
      else "password".toList
  | _ => "error".toList

/-- How a form post of the login, register and logout pages ends in a redirect. -/
inductive FormOutcome : Type where
  /-- signed in or signed out -/
  | done
  | loginRefused
  | registerRefused (error : AppError)
  /-- the account was created, the sign-in after it failed -/
  | postRegister

def FormOutcome.location (redirect : Text) : FormOutcome → Text
  | .done => redirect
  | .loginRefused =>
      redirectWithError redirect "login_error".toList "invalid".toList "#login".toList
  | .registerRefused error =>
      redirectWithError redirect "register_error".toList (registerFailureCode error)
        "#register".toList
  | .postRegister =>
      redirectWithError "/login".toList "login_error".toList "post_register".toList []

/-- No form post that ends in a redirect to `redirect` panics. -/
def NeverPanics (redirect : Text) : Prop :=
  ∀ (outcome : FormOutcome) (cookie : Option Text), cookie.all isHeaderText = true →
    redirectResponse (outcome.location redirect) cookie ≠ none

/-- The posted target is an own URL, and a control character other than a tab
is in it. -/
def Smuggles (parseUrl : Text → Option Url) (own_host : Option Text) (cookie_domain : Text)
    (bindings : List Binding) (target : Option Text) : Prop :=
  ∃ t ∈ target, ownUrlAllowed parseUrl own_host cookie_domain bindings t = true ∧
    ∃ c ∈ t, (c.toNat < 0x20 ∧ c ≠ '\t') ∨ c.toNat = 0x7F

/-! ## Header values by character -/

theorem isHeaderOctet_iff (b : UInt8) :
    isHeaderOctet b = true ↔ ¬((b.toNat < 0x20 ∧ b.toNat ≠ 9) ∨ b.toNat = 0x7F) := by
  have hle : (0x20 : UInt8) ≤ b ↔ 0x20 ≤ b.toNat := UInt8.le_iff_toNat_le
  have hdel : b = 0x7F ↔ b.toNat = 0x7F := UInt8.toNat_inj.symm
  have htab : b = 0x09 ↔ b.toNat = 9 := UInt8.toNat_inj.symm
  simp only [isHeaderOctet, Bool.or_eq_true, Bool.and_eq_true, decide_eq_true_eq, bne_iff_ne,
    beq_iff_eq, ne_eq, hle, hdel, htab]
  omega

/-- A text is a legal value exactly when no control character other than a tab
is in it. -/
theorem isHeaderText_iff (t : Text) :
    isHeaderText t = true ↔
      ¬∃ c ∈ t, (c.toNat < 0x20 ∧ c ≠ '\t') ∨ c.toNat = 0x7F := by
  have htab : ∀ c : Char, c = '\t' ↔ c.toNat = 9 := fun c => by
    rw [← Char.toNat_inj]
    rfl
  have hchar : ∀ c : Char, (∀ b ∈ String.utf8EncodeChar c, isHeaderOctet b = true) ↔
      ¬((c.toNat < 0x20 ∧ c ≠ '\t') ∨ c.toNat = 0x7F) := by
    intro c
    by_cases hc : c.toNat ≤ 0x7F
    case pos =>
      rw [utf8EncodeChar_ascii hc, List.forall_mem_singleton, isHeaderOctet_iff,
        toNat_ofNat_lt (by omega), ne_eq, ne_eq, htab]
    case neg =>
      refine iff_of_true (fun b hb => ?_) (by omega)
      have hb' := le_of_mem_utf8EncodeChar (by omega) b hb
      rw [isHeaderOctet_iff]
      omega
  have hall : isHeaderText t = true ↔
      ∀ c ∈ t, ∀ b ∈ String.utf8EncodeChar c, isHeaderOctet b = true := by
    rw [isHeaderText, octets, List.all_eq_true]
    constructor
    · exact fun h c hc b hb => h b (List.mem_flatMap.mpr ⟨c, hc, hb⟩)
    · intro h b hb
      obtain ⟨c, hc, hbc⟩ := List.mem_flatMap.mp hb
      exact h c hc b hbc
  rw [hall]
  simp only [hchar, not_exists, not_and]

theorem isHeaderText_append (s t : Text) :
    isHeaderText (s ++ t) = (isHeaderText s && isHeaderText t) := by
  rw [isHeaderText, octets_append, List.all_append]
  rfl

/-! ## When the target is a legal value -/

theorem isHeaderText_root : isHeaderText ['/'] = true := by decide

theorem isHeaderText_of_local {t : Text} (h : isLocalRedirect t = true) :
    isHeaderText t = true := by
  rw [isHeaderText_iff]
  rintro ⟨c, hc, hcontrol⟩
  have hclean : t.any isControl = false := by
    simpa using (Bool.and_eq_true_iff.mp h).2
  have hnot : ¬ isControl c = true := List.any_eq_false.mp hclean c hc
  apply hnot
  simp only [isControl, Bool.or_eq_true, Bool.and_eq_true, decide_eq_true_eq]
  omega

/-- The value is illegal exactly when it is an own URL with a control character
in it: every other target is local or not returned. -/
theorem safeRedirect_legal_iff (parseUrl : Text → Option Url) (own_host : Option Text)
    (cookie_domain : Text) (bindings : List Binding) (target : Option Text) :
    isHeaderText (safeRedirect parseUrl own_host cookie_domain bindings target) = true ↔
      ¬ Smuggles parseUrl own_host cookie_domain bindings target := by
  cases target with
  | none =>
      refine iff_of_true isHeaderText_root ?_
      rintro ⟨t, ht, _⟩
      cases ht
  | some t =>
      have hsmuggles : Smuggles parseUrl own_host cookie_domain bindings (some t) ↔
          ownUrlAllowed parseUrl own_host cookie_domain bindings t = true ∧
            ¬ isHeaderText t = true := by
        rw [isHeaderText_iff, not_not]
        constructor
        · rintro ⟨u, hu, hsmuggled⟩
          cases hu
          exact hsmuggled
        · exact fun hsmuggled => ⟨t, rfl, hsmuggled⟩
      rw [hsmuggles]
      unfold safeRedirect
      rw [Option.filter_some]
      cases hlocal : isLocalRedirect t with
      | true =>
          have hlegal := isHeaderText_of_local hlocal
          exact iff_of_true hlegal fun hsmuggled => hsmuggled.2 hlegal
      | false =>
          rw [Bool.false_or]
          cases ownUrlAllowed parseUrl own_host cookie_domain bindings t with
          | true => simp
          | false =>
              exact iff_of_true isHeaderText_root fun hsmuggled => by cases hsmuggled.1

/-! ## When a form post cannot panic -/

theorem isHeaderText_registerFailureCode (error : AppError) :
    isHeaderText (registerFailureCode error) = true := by
  have hother : isHeaderText "error".toList = true := by decide +kernel
  cases error with
  | conflict message =>
      have htaken : isHeaderText "taken".toList = true := by decide +kernel
      exact htaken
  | forbidden message =>
      have hclosed : isHeaderText "closed".toList = true := by decide +kernel
      exact hclosed
  | badRequest message =>
      have husername : isHeaderText "username".toList = true := by decide +kernel
      have hpassword : isHeaderText "password".toList = true := by decide +kernel
      show isHeaderText (if containsText "username".toList message.toList then "username".toList
        else "password".toList) = true
      split
      · exact husername
      · exact hpassword
  | unauthorized message => exact hother
  | internal message => exact hother

/-- An error is added in plain ASCII. -/
theorem isHeaderText_redirectWithError {redirect param code fragment : Text}
    (hparam : isHeaderText param = true) (hcode : isHeaderText code = true)
    (hfragment : isHeaderText fragment = true) :
    isHeaderText (redirectWithError redirect param code fragment) = isHeaderText redirect := by
  have hseparator : ∀ c : Char, c = '&' ∨ c = '?' ∨ c = '=' → isHeaderText [c] = true := by
    rintro c (rfl | rfl | rfl) <;> decide
  have hsplit : redirectWithError redirect param code fragment =
      redirect ++ ([if redirect.contains '?' then '&' else '?'] ++
        (param ++ (['='] ++ (code ++ fragment)))) := by
    simp [redirectWithError]
  rw [hsplit, isHeaderText_append, isHeaderText_append, isHeaderText_append,
    isHeaderText_append, isHeaderText_append, hparam, hcode, hfragment,
    hseparator '=' (by decide), hseparator _ (by split <;> simp)]
  simp

theorem isHeaderText_location {redirect : Text} (h : isHeaderText redirect = true)
    (outcome : FormOutcome) : isHeaderText (outcome.location redirect) = true := by
  cases outcome with
  | done => exact h
  | loginRefused =>
      exact (isHeaderText_redirectWithError (by decide) (by decide) (by decide)).trans h
  | registerRefused error =>
      exact (isHeaderText_redirectWithError (by decide)
        (isHeaderText_registerFailureCode error) (by decide)).trans h
  | postRegister =>
      have hlogin : isHeaderText "/login".toList = true := by decide +kernel
      exact (isHeaderText_redirectWithError (by decide) (by decide) (by decide)).trans hlogin

/-- `redirect_response` panics on an illegal location, whatever the outcome was. -/
theorem neverPanics_iff (redirect : Text) :
    NeverPanics redirect ↔ isHeaderText redirect = true := by
  constructor
  · intro h
    by_contra hillegal
    apply h .done none rfl
    exact if_neg fun hboth => hillegal (Bool.and_eq_true_iff.mp hboth).1
  · intro h outcome cookie hcookie
    unfold redirectResponse
    rw [isHeaderText_location h outcome, hcookie]
    exact Option.some_ne_none _

/-- **When the redirect is a legal header value.** For every posted target,
request host, cookie domain, vhost table and URL parser, what `safe_redirect`
returns is a legal header value, and no form post that redirects there panics,
exactly when the target is not an own URL with a control character in it. -/
theorem redirect_legal_iff (parseUrl : Text → Option Url) (own_host : Option Text)
    (cookie_domain : Text) (bindings : List Binding) (target : Option Text) :
    (isHeaderText (safeRedirect parseUrl own_host cookie_domain bindings target) = true ∧
      NeverPanics (safeRedirect parseUrl own_host cookie_domain bindings target)) ↔
      ¬ Smuggles parseUrl own_host cookie_domain bindings target := by
  rw [neverPanics_iff, and_self]
  exact safeRedirect_legal_iff parseUrl own_host cookie_domain bindings target

/-! ## What the parser drops -/

def isC0OrSpace (c : Char) : Bool := c.toNat ≤ 0x20

/-- Not a tab or a newline. -/
def isRead (c : Char) : Bool := c != '\t' && c != '\n' && c != '\r'

/-- What the URL standard drops before it parses. -/
def dropIgnored (t : Text) : Text :=
  ((t.rdropWhile isC0OrSpace).dropWhile isC0OrSpace).filter isRead

/-- Dropping twice drops no more: what is left after trimming begins and ends with
a character that is kept. -/
theorem dropIgnored_dropIgnored (t : Text) : dropIgnored (dropIgnored t) = dropIgnored t := by
  have hkept : ∀ c, isC0OrSpace c = false → isRead c = true := by
    intro c hc
    have hne : ∀ d, isC0OrSpace d = true → c ≠ d := by
      rintro d hd rfl
      rw [hc] at hd
      cases hd
    simp [isRead, hne '\t' (by decide), hne '\n' (by decide), hne '\r' (by decide)]
  have htrimmed : ∀ x : Text, (∀ c ∈ x.head?, isC0OrSpace c = false) →
      (∀ c ∈ x.getLast?, isC0OrSpace c = false) →
      dropIgnored (x.filter isRead) = x.filter isRead := by
    intro x hhead hlast
    rcases List.eq_nil_or_concat' x with rfl | ⟨init, d, rfl⟩
    · rfl
    have hd := hlast d (by simp)
    have hkeepLast : (init ++ [d]).filter isRead = init.filter isRead ++ [d] := by
      rw [List.filter_append, List.filter_cons_of_pos (hkept d hd), List.filter_nil]
    have hback : ((init ++ [d]).filter isRead).rdropWhile isC0OrSpace =
        (init ++ [d]).filter isRead := by
      rw [hkeepLast]
      exact List.rdropWhile_concat_neg _ _ _ (by rw [hd]; exact Bool.false_ne_true)
    have hfront : ((init ++ [d]).filter isRead).dropWhile isC0OrSpace =
        (init ++ [d]).filter isRead := by
      cases hx : init ++ [d] with
      | nil => rfl
      | cons c rest =>
          rw [hx] at hhead
          have hc := hhead c rfl
          rw [List.filter_cons_of_pos (hkept c hc)]
          exact List.dropWhile_cons_of_neg (by rw [hc]; exact Bool.false_ne_true)
    rw [dropIgnored, hback, hfront, List.filter_filter]
    simp
  apply htrimmed
  case _ => exact Uri.stops_dropWhile isC0OrSpace (t.rdropWhile isC0OrSpace)
  case _ =>
    intro c hc
    have hsuffix : (t.rdropWhile isC0OrSpace).dropWhile isC0OrSpace <:+
        t.rdropWhile isC0OrSpace := List.dropWhile_suffix _
    obtain ⟨front, hfront⟩ := hsuffix
    have hwhole : (t.rdropWhile isC0OrSpace).getLast? = some c := by
      rw [← hfront, List.getLast?_append, Option.mem_def.mp hc]
      rfl
    have hne : t.rdropWhile isC0OrSpace ≠ [] := by
      intro hnil
      rw [hnil] at hwhole
      cases hwhole
    have hnot := List.rdropWhile_last_not isC0OrSpace t hne
    rw [List.getLast?_eq_some_getLast hne] at hwhole
    rw [Option.some_inj.mp hwhole] at hnot
    simpa using hnot

/-- A newline at the end of any own URL is ignored by the parser and returned to
the header. -/
theorem smuggles_newline {parseUrl : Text → Option Url}
    (hparse : ∀ t, parseUrl t = parseUrl (dropIgnored t)) {own_host : Option Text}
    {cookie_domain : Text} {bindings : List Binding} {t : Text}
    (h : ownUrlAllowed parseUrl own_host cookie_domain bindings t = true) :
    Smuggles parseUrl own_host cookie_domain bindings (some (t ++ ['\n'])) := by
  refine ⟨_, rfl, ?_, '\n', by simp, by decide⟩
  have hsame : parseUrl (t ++ ['\n']) = parseUrl t := by
    rw [hparse (t ++ ['\n']), hparse t, dropIgnored,
      List.rdropWhile_concat_pos _ _ _ (by decide), dropIgnored]
  unfold ownUrlAllowed at h ⊢
  rw [hsame]
  exact h

/-- The standard's parser on `http` and `https` URLs whose host is a plain name
and that carry no user or port. -/
def parsePlainUrl (t : Text) : Option Url :=
  let uri := Uri.parse (dropIgnored t)
  match uri.scheme, uri.authority with
  | some scheme, some host =>
      if host ≠ [] ∧ host.all fun c => c.isAlpha || c == '-' || c == '.' then
        some ⟨scheme.map Char.toLower, some (host.map Char.toLower)⟩
      else none
  | _, _ => none

/-- The page of the request's own host, with a newline in its path. -/
def newlineTarget : Text := "http://own.test/\nx".toList

theorem newlineTarget_panics :
    (∀ t, parsePlainUrl t = parsePlainUrl (dropIgnored t)) ∧
      isHeaderText (safeRedirect parsePlainUrl (some "own.test".toList) [] []
        (some newlineTarget)) = false ∧
      redirectResponse (safeRedirect parsePlainUrl (some "own.test".toList) [] []
        (some newlineTarget)) none = none := by
  refine ⟨fun t => ?_, by decide +kernel, by decide +kernel⟩
  unfold parsePlainUrl
  rw [dropIgnored_dropIgnored]

end Wallermax.Auth
