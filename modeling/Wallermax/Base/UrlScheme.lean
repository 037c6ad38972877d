import Mathlib.Data.List.DropRight
import Mathlib.Data.List.TakeWhile
import Mathlib.Tactic.Common
import Wallermax.Base.Uri

/-!
# The scheme of a URL string

The part of the WHATWG URL parser that decides a URL's scheme: C0 controls and spaces
are stripped at both ends, ASCII tabs and newlines are removed wherever they stand, and
then a scheme is read up to the first colon. A string without one is relative and takes
the scheme of the base.
-/

namespace Wallermax.Base.UrlScheme

def isC0OrSpace (c : Char) : Bool := c.toNat ≤ 0x20

def isTabOrNewline (c : Char) : Bool := c == '\t' || c == '\n' || c == '\r'

def isAlpha (c : Char) : Bool := ('a' ≤ c && c ≤ 'z') || ('A' ≤ c && c ≤ 'Z')

def isSchemeChar (c : Char) : Bool :=
  isAlpha c || ('0' ≤ c && c ≤ '9') || c == '+' || c == '-' || c == '.'

/-- A well-formed scheme: a letter and then scheme characters. -/
def wellFormed : Text → Bool
  | [] => false
  | c :: rest => isAlpha c && rest.all isSchemeChar

/-- What the parser drops of the text before the first colon. -/
def cleanFront (t : Text) : Text := (t.dropWhile isC0OrSpace).filter (!isTabOrNewline ·)

/-- The string the parser runs on. -/
def clean (t : Text) : Text :=
  ((t.dropWhile isC0OrSpace).rdropWhile isC0OrSpace).filter (!isTabOrNewline ·)

/-- The scheme and the scheme start state: a scheme if there is one. -/
def readScheme (t : Text) : Option Text :=
  match t.dropWhile isSchemeChar with
  | ':' :: _ =>
    if wellFormed (t.takeWhile isSchemeChar) then some (t.takeWhile isSchemeChar) else none
  | _ => none

/-- The scheme of the URL a string stands for, given the base's. -/
def scheme (base : Text) (t : Text) : Text :=
  match readScheme (clean t) with
  | some name => name.map Char.toLower
  | none => base

/-! ## Reading -/

theorem wellFormed_all {t : Text} (h : wellFormed t = true) : ∀ c ∈ t, isSchemeChar c = true := by
  cases t with
  | nil => cases h
  | cons c rest =>
      obtain ⟨hc, hrest⟩ := Bool.and_eq_true_iff.mp h
      intro d hd
      rcases List.mem_cons.mp hd with rfl | hd
      · simp only [isSchemeChar, hc, Bool.true_or]
      · exact List.all_eq_true.mp hrest d hd

theorem isSchemeChar_colon : isSchemeChar ':' = false := rfl

/-- Scheme characters are visible: they are neither stripped nor removed. -/
theorem isC0OrSpace_of_scheme {c : Char} (h : isSchemeChar c = true) : isC0OrSpace c = false := by
  by_contra hc
  have hle : c.toNat ≤ 0x20 := by simpa [isC0OrSpace] using hc
  have hbound : ∀ n ≤ 0x20, isSchemeChar (Char.ofNat n) = false := by decide
  have := hbound c.toNat hle
  rw [Char.ofNat_toNat, h] at this
  cases this

theorem isC0OrSpace_of_tab {c : Char} (h : isTabOrNewline c = true) : isC0OrSpace c = true := by
  simp only [isTabOrNewline, Bool.or_eq_true, beq_iff_eq] at h
  rcases h with (rfl | rfl) | rfl <;> rfl

theorem readScheme_append {name : Text} (h : wellFormed name = true) (rest : Text) :
    readScheme (name ++ ':' :: rest) = some name := by
  have hall := wellFormed_all h
  have htake : (name ++ ':' :: rest).takeWhile isSchemeChar = name := by
    rw [List.takeWhile_append_of_pos hall]
    simp [isSchemeChar_colon]
  have hdrop : (name ++ ':' :: rest).dropWhile isSchemeChar = ':' :: rest := by
    rw [List.dropWhile_append_of_pos hall]
    simp [isSchemeChar_colon]
  simp only [readScheme, hdrop, htake, h, if_true]

theorem readScheme_some {t name : Text} (h : readScheme t = some name) :
    wellFormed name = true ∧ ∃ rest, t = name ++ ':' :: rest := by
  unfold readScheme at h
  split at h
  · rename_i rest hdrop
    split at h
    · rename_i hformed
      cases h
      exact ⟨hformed, rest, by rw [← hdrop, List.takeWhile_append_dropWhile]⟩
    · cases h
  · cases h

/-! ## Cleaning -/

theorem dropWhile_append_neg {p : Char → Bool} {c : Char} (hc : p c = false) (front rest : Text) :
    (front ++ c :: rest).dropWhile p = front.dropWhile p ++ c :: rest := by
  induction front with
  | nil => rw [List.nil_append, List.dropWhile_cons_of_neg (by simp [hc])]; rfl
  | cons a front ih =>
      by_cases ha : p a = true
      · rw [List.cons_append, List.dropWhile_cons_of_pos ha, ih, List.dropWhile_cons_of_pos ha]
      · rw [List.cons_append, List.dropWhile_cons_of_neg ha, List.dropWhile_cons_of_neg ha]
        rfl

theorem rdropWhile_append_neg {p : Char → Bool} {c : Char} (hc : p c = false) (front rest : Text) :
    (front ++ c :: rest).rdropWhile p = front ++ c :: rest.rdropWhile p := by
  unfold List.rdropWhile
  rw [List.reverse_append, List.reverse_cons, List.append_assoc, List.singleton_append,
    dropWhile_append_neg hc]
  simp

/-- **The text before a colon is cleaned by itself.** -/
theorem clean_colon (front rest : Text) :
    clean (front ++ ':' :: rest) =
      cleanFront front ++ ':' :: (rest.rdropWhile isC0OrSpace).filter (!isTabOrNewline ·) := by
  unfold clean cleanFront
  rw [dropWhile_append_neg rfl, rdropWhile_append_neg rfl, List.filter_append,
    List.filter_cons_of_pos rfl]

theorem mem_of_mem_clean {c : Char} {t : Text} (h : c ∈ clean t) : c ∈ t := by
  have hkept := (List.mem_filter.mp h).1
  exact (List.dropWhile_sublist _).subset ((List.rdropWhile_prefix _ _).subset hkept)

theorem mem_of_mem_cleanFront {c : Char} {t : Text} (h : c ∈ cleanFront t) : c ∈ t :=
  (List.dropWhile_sublist _).subset (List.mem_filter.mp h).1

/-- The first colon cuts a text in one way. -/
theorem colon_unique {front front' rest rest' : Text} (hfront : ':' ∉ front) (hfront' : ':' ∉ front')
    (h : front ++ ':' :: rest = front' ++ ':' :: rest') : front = front' := by
  have hcut : ∀ {front rest : Text}, ':' ∉ front →
      (front ++ ':' :: rest).takeWhile (· != ':') = front := by
    intro front rest hnot
    rw [List.takeWhile_append_of_pos]
    · simp
    · intro c hc
      simpa using fun heq : c = ':' => hnot (heq ▸ hc)
  rw [← hcut hfront, h, hcut hfront']

theorem colon_not_mem_of_wellFormed {name : Text} (h : wellFormed name = true) : ':' ∉ name := by
  intro hmem
  have := wellFormed_all h ':' hmem
  rw [isSchemeChar_colon] at this
  cases this

/-- **Where the scheme stands**: in front of the first colon, once that is cleaned. -/
theorem readScheme_clean_iff {t name : Text} :
    readScheme (clean t) = some name ↔
      wellFormed name = true ∧
        ∃ front rest, t = front ++ ':' :: rest ∧ ':' ∉ front ∧ cleanFront front = name := by
  constructor
  · intro h
    obtain ⟨hformed, rest, hclean⟩ := readScheme_some h
    have hcolon : ':' ∈ t := mem_of_mem_clean (by rw [hclean]; simp)
    obtain ⟨front, tail, ht, hfront⟩ := List.eq_append_cons_of_mem hcolon
    refine ⟨hformed, front, tail, ht, hfront, ?_⟩
    rw [ht, clean_colon] at hclean
    exact colon_unique (fun hmem => hfront (mem_of_mem_cleanFront hmem))
      (colon_not_mem_of_wellFormed hformed) hclean
  · rintro ⟨hformed, front, rest, rfl, -, rfl⟩
    rw [clean_colon]
    exact readScheme_append hformed _

end Wallermax.Base.UrlScheme
