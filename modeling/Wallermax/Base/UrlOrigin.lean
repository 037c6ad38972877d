import Wallermax.Base.Csp
import Wallermax.Base.UrlScheme

/-!
# The origin of a URL string

The part of the WHATWG URL parser that decides the origin of a string that starts with a
slash, against a base with a web scheme. Such a scheme is special: a backslash is a slash
to the parser. After the cleaning, one slash leaves the base's host and starts a path, and
two start an authority. How an authority is read, and a string that starts with no slash,
is a parameter.
-/

namespace Wallermax.Base.UrlOrigin

open Wallermax.Base.Csp (WebScheme Origin)
open Wallermax.Base.UrlScheme (clean isC0OrSpace isTabOrNewline)

/-- A slash to the parser of a special URL. -/
def isSlash (c : Char) : Bool := c == '/' || c == '\\'

/-- What is left of the parser: the host and the port of an authority, and the origin of
a string that does not start with a slash; `none` for a failure. -/
structure Parser : Type where
  authority : WebScheme → Text → Option (Text × ℕ)
  unrooted : Origin → Text → Option Origin

/-- The relative slash state, behind the first slash. -/
def relativeSlash (parser : Parser) (base : Origin) : Text → Option Origin
  | c :: rest =>
    if isSlash c then
      -- the special authority ignore slashes state
      (parser.authority base.scheme (rest.dropWhile isSlash)).map fun (host, port) =>
        ⟨base.scheme, host, port⟩
    else some base
  | [] => some base

/-- The origin of the URL a string stands for. -/
def resolve (parser : Parser) (base : Origin) (t : Text) : Option Origin :=
  match clean t with
  | c :: rest => if isSlash c then relativeSlash parser base rest else parser.unrooted base (c :: rest)
  | [] => some base

/-- Behind its first slash the string has another, but for what the parser removes. -/
def NamesAuthority (t : Text) : Prop :=
  ∃ hidden c rest, t = '/' :: (hidden ++ c :: rest) ∧
    (∀ d ∈ hidden, isTabOrNewline d = true) ∧ isSlash c = true

/-- The string that starts with a slash, cleaned. -/
theorem clean_slash (t : Text) :
    clean ('/' :: t) = '/' :: (t.rdropWhile isC0OrSpace).filter (!isTabOrNewline ·) := by
  have hkept : ('/' :: t).rdropWhile isC0OrSpace = '/' :: t.rdropWhile isC0OrSpace :=
    UrlScheme.rdropWhile_append_neg rfl [] t
  rw [clean, List.dropWhile_cons_of_neg (by decide), hkept, List.filter_cons_of_pos (by decide)]

theorem isSlash_visible {c : Char} (h : isSlash c = true) :
    isC0OrSpace c = false ∧ isTabOrNewline c = false := by
  simp only [isSlash, Bool.or_eq_true, beq_iff_eq] at h
  rcases h with rfl | rfl <;> decide

/-- The cleaned string has a second slash exactly where the string has one behind what is
removed. -/
theorem namesAuthority_iff {t : Text} : NamesAuthority ('/' :: t) ↔
    ∃ c rest, clean ('/' :: t) = '/' :: c :: rest ∧ isSlash c = true := by
  rw [clean_slash]
  constructor
  · rintro ⟨hidden, c, rest, heq, hhidden, hc⟩
    obtain rfl : t = hidden ++ c :: rest := (List.cons.inj heq).2
    obtain ⟨hvisible, hkept⟩ := isSlash_visible hc
    refine ⟨c, (rest.rdropWhile isC0OrSpace).filter (!isTabOrNewline ·), ?_, hc⟩
    have hnone : hidden.filter (!isTabOrNewline ·) = [] := by
      rw [List.filter_eq_nil_iff]
      intro d hd
      simp [hhidden d hd]
    rw [UrlScheme.rdropWhile_append_neg hvisible, List.filter_append, hnone,
      List.filter_cons_of_pos (by simp [hkept])]
    rfl
  · rintro ⟨c, rest, heq, hc⟩
    obtain ⟨hidden, tail, htext, hhidden, -, -⟩ := List.filter_eq_cons_iff.mp (List.cons.inj heq).2
    obtain ⟨back, hback⟩ := List.rdropWhile_prefix isC0OrSpace t
    refine ⟨hidden, c, tail ++ back, ?_, fun d hd => by simpa using hhidden d hd, hc⟩
    rw [← hback, htext, List.append_assoc, List.cons_append]

/-- **A rooted string stays on every base's origin** exactly where it names no authority. -/
theorem resolve_rooted_iff (parser : Parser) (t : Text) :
    (∀ base, resolve parser base ('/' :: t) = some base) ↔ ¬NamesAuthority ('/' :: t) := by
  rw [namesAuthority_iff]
  constructor
  · rintro hstays ⟨c, rest, hclean, hc⟩
    have hresolve : ∀ base : Origin, resolve parser base ('/' :: t) =
        (parser.authority base.scheme (rest.dropWhile isSlash)).map fun (host, port) =>
          ⟨base.scheme, host, port⟩ := by
      intro base
      rw [resolve, hclean]
      exact (if_pos rfl).trans (if_pos hc)
    -- the authority is read the same against two hosts
    have hfirst := hstays ⟨.http, ['a'], 80⟩
    have hsecond := hstays ⟨.http, ['b'], 80⟩
    rw [hresolve] at hfirst hsecond
    have heq := Option.some.inj (hfirst.symm.trans hsecond)
    revert heq
    decide
  · intro hnone base
    rw [resolve, clean_slash]
    rw [clean_slash] at hnone
    show relativeSlash parser base _ = _
    unfold relativeSlash
    split
    · rename_i c rest hrest
      rw [hrest] at hnone
      rw [if_neg fun hc => hnone ⟨c, rest, rfl, hc⟩]
    · rfl

end Wallermax.Base.UrlOrigin
