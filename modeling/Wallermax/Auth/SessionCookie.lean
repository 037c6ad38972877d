import Wallermax.Base.Cookies
import Wallermax.Manager.Chunks
import Wallermax.Server.ErrorPages

/-!
# The session cookie

The two lines a sign-in and a sign-out answer with, and how the token is found in the
cookies of a request. Of a header the reader takes what is text, so one octet outside of
ASCII, in whichever cookie, hides them all.
-/

namespace Wallermax.Auth

open Wallermax.Base
open Wallermax.Manager.Metrics (splitOnce)
open Wallermax.Server (HeaderMap toStr isVisible toStr_octets)
open Wallermax.Templates (trimChars)
open Wallermax.Tenants (isWhitespace)

/-- `COOKIE_NAME`. -/
def cookieName : Text := "wallermax_session".toList

def securePart (secure : Bool) : Text := if secure then "; Secure".toList else []

def domainPart (domain : Option Text) : Text :=
  match domain.filter (· ≠ []) with
  | some domain => "; Domain=".toList ++ domain
  | none => []

/-- `set_cookie_value`. -/
def setCookieValue (token : Text) (ttl_secs : ℕ) (secure : Bool) (domain : Option Text) : Text :=
  cookieName ++ "=".toList ++ token ++ "; Path=/; Max-Age=".toList ++
    Nat.toDigits 10 ttl_secs ++ "; HttpOnly; SameSite=Strict".toList ++ securePart secure ++
    domainPart domain

/-- `clear_cookie_value`. -/
def clearCookieValue (secure : Bool) (domain : Option Text) : Text :=
  cookieName ++ "=; Path=/; Max-Age=0; HttpOnly; SameSite=Strict".toList ++
    securePart secure ++ domainPart domain

/-- The loop body of `session_token`. -/
def pairToken (pair : Text) : Option Text :=
  (splitOnce '=' (trimChars pair)).bind fun (name, token) =>
    if name = cookieName ∧ token ≠ [] then some token else none

/-- `session_token`. -/
def sessionToken (headers : HeaderMap) : Option Text :=
  (headers.getAll "cookie".toList).findSome? fun value =>
    (toStr value).bind fun raw => (raw.splitOn ';').findSome? pairToken

example : setCookieValue "tok".toList 3600 true (some "example.com".toList) =
    ("wallermax_session=tok; Path=/; Max-Age=3600; HttpOnly; SameSite=Strict; Secure; " ++
      "Domain=example.com").toList := by decide +kernel

/-! ## A pair among others -/

theorem isWhitespace_of_isVisible {c : Char} (h : isVisible c = true)
    (hwsp : Cookies.isWsp c = false) : isWhitespace c = false := by
  simp only [isVisible, Bool.or_eq_true, Bool.and_eq_true, decide_eq_true_eq, beq_iff_eq] at h
  simp only [Cookies.isWsp, Bool.or_eq_false_iff, beq_eq_false_iff_ne] at hwsp
  obtain ⟨hspace, htab⟩ := hwsp
  have hn : c.toNat ≠ 32 := fun hn => hspace (Char.toNat_inj.mp hn)
  rcases h with ⟨hlow, hhigh⟩ | rfl
  · simp only [isWhitespace, Bool.or_eq_false_iff, Bool.and_eq_false_iff, decide_eq_false_iff_not,
      beq_eq_false_iff_ne]
    omega
  · exact absurd rfl htab

/-- Nothing is trimmed off a pair that stands alone. -/
theorem trimChars_pair {pair : Cookies.Pair} (h : pair.text.all isVisible = true) :
    trimChars pair.text = pair.text := by
  have hvisible := List.all_eq_true.mp h
  apply Manager.Metrics.trimChars_eq_self
  · intro c hc
    refine isWhitespace_of_isVisible (hvisible c (List.mem_of_mem_head? hc)) ?_
    have hhead : c ∈ pair.name.head? := by
      unfold Cookies.Pair.text at hc
      rwa [List.head?_append_of_ne_nil _ pair.name_ne_nil] at hc
    exact head_trimBy c (pair.trim_name.symm ▸ hhead)
  · intro c hc
    refine isWhitespace_of_isVisible (hvisible c (List.mem_of_mem_getLast? hc)) ?_
    unfold Cookies.Pair.text at hc
    rw [List.getLast?_append_cons] at hc
    cases hvalue : pair.value with
    | nil =>
        rw [hvalue] at hc
        cases hc
        decide
    | cons d ds =>
        have hlast : c ∈ pair.value.getLast? := by
          rw [hvalue] at hc ⊢
          simpa using hc
        exact last_trimBy c (pair.trim_value.symm ▸ hlast)

/-- A cookie the reader takes the session from. -/
def isSession (c : Cookies.Cookie) : Bool := c.pair.name = cookieName ∧ c.pair.value ≠ []

theorem pairToken_text {c : Cookies.Cookie} (h : c.pair.text.all isVisible = true) :
    pairToken c.pair.text = if isSession c then some c.pair.value else none := by
  unfold pairToken
  rw [trimChars_pair h, Cookies.Pair.text,
    Manager.Http.splitOnce_append c.pair.equals_not_mem_name]
  simp [isSession]

theorem pairToken_space (t : Text) : pairToken (' ' :: t) = pairToken t := by
  have hwhite : ∀ c ∈ [' '], isWhitespace c = true := by
    intro c hc
    rw [List.mem_singleton.mp hc]
    decide
  unfold pairToken
  rw [← List.singleton_append, Manager.Metrics.trimChars_append_front hwhite]

variable (ua : Cookies.UserAgent)

/-- The cookies of a request, as a browser sends them. -/
def cookieHeaders (jar : List Cookies.Cookie) (place : Cookies.Place) (now : ℕ) : HeaderMap :=
  match ua.cookieLine jar place now with
  | none => []
  | some line => [("cookie".toList, octets line)]

theorem sessionToken_line {line : Text} (h : line.all isVisible = true) :
    sessionToken [("cookie".toList, octets line)] = (line.splitOn ';').findSome? pairToken := by
  simp [sessionToken, HeaderMap.getAll, toStr_octets h]

theorem all_intercalate {p : Char → Bool} {sep : Text} {ts : List Text}
    (hsep : sep.all p = true) (h : ∀ t ∈ ts, t.all p = true) : (sep.intercalate ts).all p = true := by
  induction ts with
  | nil => rfl
  | cons t ts ih =>
      have ht := h t List.mem_cons_self
      have ih := ih fun u hu => h u (List.mem_cons_of_mem _ hu)
      cases ts with
      | nil => simpa using ht
      | cons u ts => simp only [List.intercalate_cons_cons, List.all_append, ht, hsep, ih,
          Bool.and_self]

/-- **What the server finds in a browser's request**: the first session cookie of those sent,
where all of them are text. -/
theorem sessionToken_cookieHeaders {jar : List Cookies.Cookie} {place : Cookies.Place} {now : ℕ}
    (hvisible : ∀ c ∈ jar, ua.sends place now c = true → c.pair.text.all isVisible = true) :
    sessionToken (cookieHeaders ua jar place now) =
      ((ua.cookies jar place now).find? isSession).map (·.pair.value) := by
  have hvisible : ∀ c ∈ ua.cookies jar place now, c.pair.text.all isVisible = true := by
    intro c hc
    obtain ⟨hmem, hsends⟩ := ua.mem_cookies.mp hc
    exact hvisible c hmem hsends
  unfold cookieHeaders Cookies.UserAgent.cookieLine
  generalize ua.cookies jar place now = cs at hvisible ⊢
  cases cs with
  | nil => rfl
  | cons c cs =>
      have hline : ("; ".toList.intercalate ((c :: cs).map (·.pair.text))).all isVisible = true := by
        refine all_intercalate (by decide) ?_
        intro t ht
        obtain ⟨d, hd, rfl⟩ := List.mem_map.mp ht
        exact hvisible d hd
      have hpieces : (c.pair.text :: cs.map (' ' :: ·.pair.text)).findSome? pairToken =
          ((c :: cs).map (·.pair.text)).findSome? pairToken := by
        rw [List.map_cons, List.findSome?_cons, List.findSome?_cons, List.findSome?_map,
          List.findSome?_map]
        have hcomp : (pairToken ∘ fun d : Cookies.Cookie => ' ' :: d.pair.text) =
            pairToken ∘ fun d => d.pair.text := by
          funext d
          exact pairToken_space _
        rw [hcomp]
      have hsession : ∀ ds : List Cookies.Cookie, (∀ d ∈ ds, d.pair.text.all isVisible = true) →
          (ds.map (·.pair.text)).findSome? pairToken = (ds.find? isSession).map (·.pair.value) := by
        intro ds
        induction ds with
        | nil => exact fun _ => rfl
        | cons d ds ih =>
            intro hds
            rw [List.map_cons, List.findSome?_cons, pairToken_text (hds d List.mem_cons_self),
              ih fun e he => hds e (List.mem_cons_of_mem _ he), List.find?_cons]
            cases isSession d <;> rfl
      have hread := sessionToken_line hline
      rw [Cookies.splitOn_cookieLine, hpieces, hsession _ hvisible] at hread
      exact hread

end Wallermax.Auth
