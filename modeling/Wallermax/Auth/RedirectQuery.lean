import Wallermax.Auth.Redirects
import Wallermax.Base.Cut

/-!
# The error in a redirect's query

`redirect_with_error` puts the error behind the target, after a `?` or, if there is one
anywhere in the target, after a `&`. Behind a query it is one more pair. Behind a fragment
it is text of the fragment, and the page it leads to gets no error.
-/

namespace Wallermax.Auth

open Wallermax.Base
open Wallermax.Base.Uri (appendQuery)
open Wallermax.Accounts (AppError)
open Wallermax.Templates (Binding)

/-! ## Calls of `redirect_with_error` -/

/-- What a handler passes. -/
structure ErrorCall : Type where
  redirect : Text
  param : Text
  code : Text
  fragment : Text

def ErrorCall.url (call : ErrorCall) : Text :=
  redirectWithError call.redirect call.param call.code call.fragment

/-- The call of a failed form post. -/
def FormOutcome.errorCall (redirect : Text) : FormOutcome → Option ErrorCall
  | .done => none
  | .loginRefused => some ⟨redirect, "login_error".toList, "invalid".toList, "#login".toList⟩
  | .registerRefused error =>
      some ⟨redirect, "register_error".toList, registerFailureCode error, "#register".toList⟩
  | .postRegister =>
      some ⟨"/login".toList, "login_error".toList, "post_register".toList, []⟩

theorem location_eq_url {redirect : Text} {outcome : FormOutcome} {call : ErrorCall}
    (h : outcome.errorCall redirect = some call) : outcome.location redirect = call.url := by
  cases outcome with
  | done => cases h
  | loginRefused =>
      cases h
      rfl
  | registerRefused error =>
      cases h
      rfl
  | postRegister =>
      cases h
      rfl

/-- The pairs of a query, as they are written. -/
def queryPairs (query : Option Text) : List Text :=
  ((query.getD []).splitOn '&').filter (· ≠ [])

/-- The URL is the target with one more pair in its query, and the call's fragment. -/
structure ErrorCall.Composes (call : ErrorCall) : Prop where
  scheme : (Uri.parse call.url).scheme = (Uri.parse call.redirect).scheme
  authority : (Uri.parse call.url).authority = (Uri.parse call.redirect).authority
  path : (Uri.parse call.url).path = (Uri.parse call.redirect).path
  query : queryPairs (Uri.parse call.url).query =
    queryPairs (Uri.parse call.redirect).query ++ [call.param ++ '=' :: call.code]
  fragment : call.fragment ≠ [] →
    Uri.fragmentText (Uri.parse call.url).fragment = call.fragment

/-- No delimiter of a URL or of a query is in the call's pair, and its fragment is one. -/
structure ErrorCall.Plain (call : ErrorCall) : Prop where
  pair : ∀ c ∈ call.param ++ '=' :: call.code, c ≠ '&' ∧ c ≠ '#'
  fragment : call.fragment = [] ∨ ∃ f, call.fragment = '#' :: f

theorem plain_registerFailureCode (error : AppError) :
    ∀ c ∈ registerFailureCode error, c ≠ '&' ∧ c ≠ '#' := by
  have hcodes : ∀ code ∈ ["taken".toList, "closed".toList, "username".toList, "password".toList,
      "error".toList], ∀ c ∈ code, c ≠ '&' ∧ c ≠ '#' := by
    simp
  refine hcodes _ ?_
  unfold registerFailureCode
  split
  · simp
  · simp
  · split
    · simp
    · simp
  · simp

theorem plain_errorCall {redirect : Text} {outcome : FormOutcome} {call : ErrorCall}
    (h : outcome.errorCall redirect = some call) : call.Plain := by
  cases outcome with
  | done => cases h
  | loginRefused =>
      cases h
      have hpair : ∀ c ∈ "login_error=invalid".toList, c ≠ '&' ∧ c ≠ '#' :=
        forall_mem_of_all (by decide)
      exact ⟨hpair, Or.inr ⟨_, rfl⟩⟩
  | registerRefused error =>
      cases h
      refine ⟨fun c hc => ?_, Or.inr ⟨_, rfl⟩⟩
      have hparam : ∀ c ∈ "register_error".toList ++ ['='], c ≠ '&' ∧ c ≠ '#' :=
        forall_mem_of_all (by decide)
      rcases List.mem_append.mp hc with hc | hc
      · exact hparam c (List.mem_append_left _ hc)
      · rcases List.mem_cons.mp hc with rfl | hc
        · decide
        · exact plain_registerFailureCode error c hc
  | postRegister =>
      cases h
      have hpair : ∀ c ∈ "login_error=post_register".toList, c ≠ '&' ∧ c ≠ '#' :=
        forall_mem_of_all (by decide)
      exact ⟨hpair, Or.inl rfl⟩

/-! ## Behind a query, behind a fragment -/

theorem queryPairs_append (own : Option Text) {pair : Text} (hamp : '&' ∉ pair) (hne : pair ≠ []) :
    queryPairs (some (appendQuery own pair)) = queryPairs own ++ [pair] := by
  have hpair : (pair.splitOn '&').filter (· ≠ []) = [pair] := by
    rw [splitOn_of_not_mem hamp, List.filter_cons_of_pos (by simpa using hne), List.filter_nil]
  unfold queryPairs
  cases own with
  | none =>
      show (pair.splitOn '&').filter (· ≠ []) = (([] : Text).splitOn '&').filter (· ≠ []) ++ [pair]
      rw [hpair]
      rfl
  | some q =>
      show ((q ++ '&' :: pair).splitOn '&').filter (· ≠ []) = _
      rw [List.splitOn_append_cons_self, List.filter_append, hpair]
      rfl

theorem url_eq (call : ErrorCall) :
    call.url = call.redirect ++ (if '?' ∈ call.redirect then '&' else '?') ::
      ((call.param ++ '=' :: call.code) ++ call.fragment) := by
  unfold ErrorCall.url redirectWithError
  simp only [List.contains_iff_mem]

/-- A target without a fragment is extended by a pair. -/
theorem composes_of_hash_not_mem {call : ErrorCall} (hplain : call.Plain)
    (hhash : '#' ∉ call.redirect) : call.Composes := by
  have hamp : '&' ∉ call.param ++ '=' :: call.code := fun hmem => (hplain.pair '&' hmem).1 rfl
  have hpair : '#' ∉ call.param ++ '=' :: call.code := fun hmem => (hplain.pair '#' hmem).2 rfl
  obtain ⟨f, hf⟩ : ∃ f, call.fragment = Uri.fragmentText f := by
    rcases hplain.fragment with hnil | ⟨f, hf⟩
    · exact ⟨none, hnil⟩
    · exact ⟨some f, hf⟩
  have hparse : Uri.parse call.url = { Uri.parse call.redirect with
      query := some (appendQuery (Uri.parse call.redirect).query (call.param ++ '=' :: call.code))
      fragment := f } := by
    rw [url_eq, hf, Uri.parse_join hhash hpair]
  refine ⟨?_, ?_, ?_, ?_, fun _ => ?_⟩
  · rw [hparse]
  · rw [hparse]
  · rw [hparse]
  · rw [hparse]
    exact queryPairs_append _ hamp (by simp)
  · rw [hparse, hf]

/-- The pair is in no query. -/
theorem not_composes_of_hash_mem {call : ErrorCall} (hhash : '#' ∈ call.redirect) :
    ¬ call.Composes := by
  intro hcomposes
  have hquery := hcomposes.query
  rw [url_eq, Uri.parse_append_of_hash_mem hhash] at hquery
  have hlength := congrArg List.length hquery
  rw [List.length_append, List.length_singleton] at hlength
  omega

/-! ## The forms -/

/-- The target is one that `safe_redirect` returns. -/
def Accepted (parseUrl : Text → Option Url) (own_host : Option Text) (cookie_domain : Text)
    (bindings : List Binding) (target : Text) : Prop :=
  isLocalRedirect target = true ∨
    ownUrlAllowed parseUrl own_host cookie_domain bindings target = true

theorem hash_mem_safeRedirect_iff (parseUrl : Text → Option Url) (own_host : Option Text)
    (cookie_domain : Text) (bindings : List Binding) (target : Option Text) :
    '#' ∈ safeRedirect parseUrl own_host cookie_domain bindings target ↔
      ∃ t ∈ target, Accepted parseUrl own_host cookie_domain bindings t ∧ '#' ∈ t := by
  have hroot : ¬ '#' ∈ ['/'] := by decide
  cases target with
  | none =>
      refine iff_of_false hroot ?_
      rintro ⟨t, ht, -⟩
      cases ht
  | some t =>
      unfold safeRedirect Accepted
      rw [Option.filter_some]
      split
      · rename_i haccepted
        rw [Bool.or_eq_true] at haccepted
        constructor
        · exact fun hmem => ⟨t, rfl, haccepted, hmem⟩
        · rintro ⟨_, ⟨⟩, -, hmem⟩
          exact hmem
      · rename_i hrefused
        rw [Bool.or_eq_true] at hrefused
        refine iff_of_false hroot ?_
        rintro ⟨_, ⟨⟩, haccepted, -⟩
        exact hrefused haccepted

/-- **When the error reaches the query.** For every posted target, request host, cookie
domain, vhost table and URL parser, every failed form post leads to the target's scheme,
authority and path, its query with one more pair, and the handler's fragment, exactly when
the target, if it is accepted, has no fragment. -/
theorem redirect_composes_iff (parseUrl : Text → Option Url) (own_host : Option Text)
    (cookie_domain : Text) (bindings : List Binding) (target : Option Text) :
    (∀ outcome : FormOutcome,
      ∀ call ∈ outcome.errorCall (safeRedirect parseUrl own_host cookie_domain bindings target),
        call.Composes) ↔
      ∀ t ∈ target, Accepted parseUrl own_host cookie_domain bindings t → '#' ∉ t := by
  have hiff := hash_mem_safeRedirect_iff parseUrl own_host cookie_domain bindings target
  constructor
  · intro h t ht haccepted hmem
    exact not_composes_of_hash_mem (hiff.mpr ⟨t, ht, haccepted, hmem⟩) (h .loginRefused _ rfl)
  · intro h outcome call hcall
    have hhash : '#' ∉ safeRedirect parseUrl own_host cookie_domain bindings target := by
      intro hmem
      obtain ⟨t, ht, haccepted, hmem⟩ := hiff.mp hmem
      exact h t ht haccepted hmem
    refine composes_of_hash_not_mem (plain_errorCall hcall) ?_
    cases outcome with
    | done => cases hcall
    | loginRefused =>
        cases hcall
        exact hhash
    | registerRefused error =>
        cases hcall
        exact hhash
    | postRegister =>
        cases hcall
        decide

/-- The error of a login from a page with a fragment ends up in the fragment. -/
theorem fragment_takes_error :
    Accepted parsePlainUrl (some "own.test".toList) [] [] "/blog?page=2#frag".toList ∧
      FormOutcome.location "/blog?page=2#frag".toList .loginRefused =
        "/blog?page=2#frag&login_error=invalid#login".toList ∧
      ¬ ∀ call ∈ FormOutcome.loginRefused.errorCall (safeRedirect parsePlainUrl
        (some "own.test".toList) [] [] (some "/blog?page=2#frag".toList)), call.Composes := by
  refine ⟨Or.inl (by decide +kernel), by decide +kernel, fun h => ?_⟩
  exact not_composes_of_hash_mem (by decide +kernel) (h _ rfl)

end Wallermax.Auth
