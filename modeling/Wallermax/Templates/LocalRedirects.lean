import Wallermax.Base.UrlOrigin

/-!
# Redirects from templates

`res.redirect(location[, status])` of the sandbox's prelude and its twin in the worker.
Both look at the first two characters of the location and record it for the `Location`
header as it is; a browser takes tabs and newlines out first, and a backslash for a slash.
-/

namespace Wallermax.Templates

open Wallermax.Base
open Wallermax.Base.Csp (Origin)
open Wallermax.Base.UrlOrigin (Parser resolve isSlash NamesAuthority)

/-- The values `res.redirect` tells apart; `other` is any further one. -/
inductive RedirectArgument : Type where
  | undefined
  | string (text : Text)
  | number (n : ℤ)
  | other
deriving DecidableEq

structure RedirectIntent : Type where
  location : Text
  status : ℤ
deriving DecidableEq

/-- What the call throws. -/
inductive RedirectError : Type where
  | type (message : String)
  | error (message : String)
deriving DecidableEq

def redirectStatuses : List ℤ := [301, 302, 303, 307, 308]

/-- `location.charAt(0) !== '/' || location.indexOf('//') === 0`. -/
def refusedLocation (location : Text) : Bool :=
  location.head? != some '/' || ['/', '/'].isPrefixOf location

/-- The body of both functions; `not_a_path` is what a location that is no text throws. -/
def redirectWith (not_a_path : RedirectError) (intent : Option RedirectIntent)
    (location status : RedirectArgument) : Except RedirectError (Option RedirectIntent) :=
  match location with
  | .string location =>
    if location.isEmpty then .error not_a_path
    else if refusedLocation location then
      .error (.error ("res.redirect() only accepts local paths starting with '/' " ++
        "(open-redirect protection)"))
    else
      let code := if status = .undefined then .number 302 else status
      match code with
      | .number n =>
        if redirectStatuses.contains n then
          -- the first call wins
          .ok (intent.or (some ⟨location, n⟩))
        else .error (.error "res.redirect() status must be one of 301, 302, 303, 307 or 308")
      | _ => .error (.error "res.redirect() status must be one of 301, 302, 303, 307 or 308")
  | _ => .error not_a_path

/-- `res.redirect` of the sandbox. -/
def sandboxRedirect : Option RedirectIntent → RedirectArgument → RedirectArgument →
    Except RedirectError (Option RedirectIntent) :=
  redirectWith (.type "res.redirect(location) expects a target path string")

/-- `redirect` of the worker's shim. -/
def workerRedirect : Option RedirectIntent → RedirectArgument → RedirectArgument →
    Except RedirectError (Option RedirectIntent) :=
  redirectWith (.error "TypeError: res.redirect(location) expects a target path string")

/-- A call with the location records it. -/
def Accepts (redirect : Option RedirectIntent → RedirectArgument → RedirectArgument →
    Except RedirectError (Option RedirectIntent)) (location : Text) : Prop :=
  ∃ status n, redirect none (.string location) status = .ok (some ⟨location, n⟩)

/-- What the checks are for: an accepted location is on the origin of the page, and they
accept the same. -/
structure StaysOnOrigin (parser : Parser) (location : Text) : Prop where
  sandbox : Accepts sandboxRedirect location →
    ∀ base, resolve parser base location = some base
  worker : Accepts workerRedirect location →
    ∀ base, resolve parser base location = some base
  twins : Accepts sandboxRedirect location ↔ Accepts workerRedirect location

/-- A backslash stands behind the first slash, or a slash or backslash behind tabs and
newlines. -/
def HidesAuthority (location : Text) : Prop :=
  ∃ hidden c rest, location = '/' :: (hidden ++ c :: rest) ∧
    (∀ d ∈ hidden, UrlScheme.isTabOrNewline d = true) ∧ isSlash c = true ∧
    (hidden = [] → c = '\\')

/-- Both checks accept what starts with one slash. -/
theorem accepts_redirectWith_iff {not_a_path : RedirectError} {location : Text} :
    Accepts (redirectWith not_a_path) location ↔ refusedLocation location = false := by
  constructor
  · rintro ⟨status, n, h⟩
    simp only [redirectWith] at h
    split at h
    · cases h
    · split at h
      · cases h
      · rename_i haccepted
        simpa using haccepted
  · intro h
    have hne : location.isEmpty = false := by
      cases location with
      | nil => cases h
      | cons c rest => rfl
    refine ⟨.undefined, 302, ?_⟩
    simp only [redirectWith, hne, h]
    rfl

theorem refusedLocation_false_iff {location : Text} : refusedLocation location = false ↔
    ∃ rest, location = '/' :: rest ∧ rest.head? ≠ some '/' := by
  cases location with
  | nil => simp [refusedLocation]
  | cons c rest =>
      cases rest with
      | nil => simp [refusedLocation, List.isPrefixOf]
      | cons d rest => simp [refusedLocation, List.isPrefixOf, and_comm]; grind

/-- An accepted location names an authority only where it hides it. -/
theorem namesAuthority_accepted_iff {rest : Text} (h : rest.head? ≠ some '/') :
    NamesAuthority ('/' :: rest) ↔ HidesAuthority ('/' :: rest) := by
  constructor
  · rintro ⟨hidden, c, tail, heq, hhidden, hc⟩
    refine ⟨hidden, c, tail, heq, hhidden, hc, ?_⟩
    rintro rfl
    obtain rfl : rest = c :: tail := (List.cons.inj heq).2
    have hne : c ≠ '/' := fun heq => h (by rw [heq]; rfl)
    simpa [isSlash, hne] using hc
  · rintro ⟨hidden, c, tail, heq, hhidden, hc, -⟩
    exact ⟨hidden, c, tail, heq, hhidden, hc⟩

/-- **Redirects stay on the origin** exactly where the location hides no authority. -/
theorem staysOnOrigin_iff (parser : Parser) (location : Text) :
    StaysOnOrigin parser location ↔ ¬HidesAuthority location := by
  have hexact : ∀ {not_a_path}, (Accepts (redirectWith not_a_path) location →
      ∀ base, resolve parser base location = some base) ↔ ¬HidesAuthority location := by
    intro not_a_path
    rw [accepts_redirectWith_iff, refusedLocation_false_iff]
    constructor
    · rintro hstays hhides
      obtain ⟨hidden, c, tail, rfl, hhidden, hc, hback⟩ := hhides
      have hhead : (hidden ++ c :: tail).head? ≠ some '/' := by
        cases hidden with
        | nil =>
            obtain rfl := hback rfl
            simp
        | cons d hidden =>
            have hd := hhidden d List.mem_cons_self
            intro heq
            obtain rfl : d = '/' := Option.some.inj heq
            cases hd
      have hnone := (UrlOrigin.resolve_rooted_iff parser _).mp (hstays ⟨_, rfl, hhead⟩)
      exact hnone ⟨hidden, c, tail, rfl, hhidden, hc⟩
    · rintro hnone ⟨rest, rfl, hhead⟩
      rw [UrlOrigin.resolve_rooted_iff, namesAuthority_accepted_iff hhead]
      exact hnone
  constructor
  · intro hstays
    exact hexact.mp hstays.sandbox
  · intro hnone
    constructor
    · exact hexact.mpr hnone
    · exact hexact.mpr hnone
    · exact accepts_redirectWith_iff.trans accepts_redirectWith_iff.symm

/-- A parser that takes what stands before the next slash for a host. -/
def plainParser : Parser where
  authority scheme t := some (t.takeWhile (!isSlash ·), scheme.defaultPort)
  unrooted base _ := some base

/-- The backslash is accepted, and the browser goes to another host. -/
theorem backslash_leaves_origin :
    sandboxRedirect none (.string "/\\evil.example".toList) .undefined =
        .ok (some ⟨"/\\evil.example".toList, 302⟩) ∧
      resolve plainParser ⟨.https, "app.example".toList, 443⟩ "/\\evil.example".toList =
        some ⟨.https, "evil.example".toList, 443⟩ ∧
      ¬StaysOnOrigin plainParser "/\\evil.example".toList := by
  have haccepted : sandboxRedirect none (.string "/\\evil.example".toList) .undefined =
      .ok (some ⟨"/\\evil.example".toList, 302⟩) := by rfl
  have hresolved : resolve plainParser ⟨.https, "app.example".toList, 443⟩
      "/\\evil.example".toList = some ⟨.https, "evil.example".toList, 443⟩ := by decide
  refine ⟨haccepted, hresolved, ?_⟩
  intro hstays
  have hsame := hstays.sandbox ⟨_, _, haccepted⟩ ⟨.https, "app.example".toList, 443⟩
  rw [hresolved] at hsame
  revert hsame
  decide

end Wallermax.Templates
