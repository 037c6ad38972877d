import Wallermax.Base.Ascii
import Wallermax.Base.JoinedWords
import Wallermax.Content.Forms

/-!
# Slugs of imported pages

An imported file becomes a page whose slug is read off the file's name: the letters and
digits of the name, and a hyphen for whatever stands between them. The hyphens at the ends
are taken off before the slug is cut to its length.
-/

namespace Wallermax.Content

open Wallermax.Base
open Wallermax.Tenants (containsPair)

/-- `strip_suffix`. -/
def stripSuffix (suffix name : List Char) : Option (List Char) :=
  if suffix.isSuffixOf name then some (name.take (name.length - suffix.length)) else none

/-- A Spanish accent, taken off; any other character stays. -/
def transliterate (c : Char) : Char :=
  if c ∈ ['á', 'à', 'ä'] then 'a'
  else if c ∈ ['é', 'è', 'ë'] then 'e'
  else if c ∈ ['í', 'ì', 'ï'] then 'i'
  else if c ∈ ['ó', 'ò', 'ö'] then 'o'
  else if c ∈ ['ú', 'ù', 'ü'] then 'u'
  else if c = 'ñ' then 'n'
  else if c = 'ç' then 'c'
  else c

/-- The name without its extension, without accents and in lower case. -/
def lowerBase (name : List Char) : List Char :=
  let base := ((stripSuffix ".html".toList name).or (stripSuffix ".jhs".toList name)).getD name
  (base.map transliterate).map Char.toLower

def isSlugChar (c : Char) : Bool := c.isLower || c.isDigit

/-- `slug_from_file_name`. -/
def slugFromFileName (name : String) : String :=
  let slug := squeeze isSlugChar '-' false (lowerBase name.toList)
  let slug := (trimBy (· == '-') slug).take 64
  if slug.isEmpty then "importada" else String.ofList slug

/-- The letters and digits of the name, as they stand together. -/
def nameWords (name : String) : List (List Char) := wordsOf isSlugChar (lowerBase name.toList)

/-- Some of the words, joined, are one character short of the length a slug is cut to, and
another word follows. -/
def CutAtHyphen (name : String) : Prop :=
  ∃ front back, nameWords name = front ++ back ∧ front ≠ [] ∧ back ≠ [] ∧
    (joinWords '-' front).length = 63

/-! ## The words of a name -/

theorem not_isSlugChar_hyphen : isSlugChar '-' = false := by decide

theorem utf8Size_of_isSlugChar {c : Char} (h : isSlugChar c = true ∨ c = '-') :
    c.utf8Size = 1 := by
  rcases h with h | rfl
  · rw [Char.utf8Size_eq_one_iff, UInt32.le_iff_toNat_le]
    have halnum : c.isAlphanum = true := by
      rcases Bool.or_eq_true _ _ ▸ h with hlower | hdigit
      · exact isAlphanum_of_isLower hlower
      · exact isAlphanum_of_isDigit hdigit
    exact (toNat_of_isAlphanum halnum).2.trans (by decide)
  · rfl

/-- A text of one-byte characters. -/
theorem utf8ByteSize_ofList {chars : List Char} (h : ∀ c ∈ chars, c.utf8Size = 1) :
    (String.ofList chars).utf8ByteSize = chars.length := by
  induction chars with
  | nil => rfl
  | cons c chars ih =>
      have hc := h c List.mem_cons_self
      have ih := ih fun d hd => h d (List.mem_cons_of_mem _ hd)
      have hcons : String.ofList (c :: chars) = String.singleton c ++ String.ofList chars := by
        simp
      rw [hcons, String.utf8ByteSize_append, ih, String.utf8ByteSize_singleton, hc,
        List.length_cons, Nat.add_comm]

theorem containsPair_eq_false {c : Char} {chars : List Char} :
    containsPair c chars = false ↔ chars.IsChain fun a b => ¬(a = c ∧ b = c) := by
  induction chars with
  | nil => simp [containsPair]
  | cons a chars ih =>
      cases chars with
      | nil => simp [containsPair]
      | cons b chars => simp [containsPair, ih]

/-! ## The slug -/

section

variable {words : List (List Char)}

/-- Words of slug characters. -/
def SlugWords (words : List (List Char)) : Prop :=
  ∀ word ∈ words, word ≠ [] ∧ ∀ c ∈ word, isSlugChar c = true

theorem SlugWords.hyphen_notMem (h : SlugWords words) : ∀ word ∈ words, '-' ∉ word := by
  intro word hword hmem
  have hslug := (h word hword).2 '-' hmem
  rw [not_isSlugChar_hyphen] at hslug
  cases hslug

theorem SlugWords.mem_joinWords (h : SlugWords words) {c : Char} (hc : c ∈ joinWords '-' words) :
    isSlugChar c = true ∨ c = '-' := by
  rcases Base.mem_joinWords hc with rfl | ⟨word, hword, hmem⟩
  · exact .inr rfl
  · exact .inl ((h word hword).2 c hmem)

/-- A slug cut from joined words is accepted where it does not end with a hyphen. -/
theorem SlugWords.validSlug_take (h : SlugWords words) (hne : words ≠ [])
    (hhead : (joinWords '-' words).head? ≠ some '-') :
    validSlug (String.ofList ((joinWords '-' words).take 64)) = true ↔
      ((joinWords '-' words).take 64).getLast? ≠ some '-' := by
  have hnil : [] ∉ words := fun hmem => (h _ hmem).1 rfl
  have hjoined : joinWords '-' words ≠ [] := fun heq =>
    hne ((joinWords_eq_nil hnil).mp heq)
  have hslug : ∀ c ∈ (joinWords '-' words).take 64, isSlugChar c = true ∨ c = '-' :=
    fun c hc => h.mem_joinWords (List.mem_of_mem_take hc)
  have hbytes := utf8ByteSize_ofList fun c hc => utf8Size_of_isSlugChar (hslug c hc)
  have hpair : containsPair '-' ((joinWords '-' words).take 64) = false := by
    rw [containsPair_eq_false]
    exact (isChain_joinWords fun w hw => ⟨(h w hw).1, h.hyphen_notMem w hw⟩).take 64
  have hall : ((joinWords '-' words).take 64).all
      (fun c => c.isLower || c.isDigit || c == '-') = true := by
    rw [List.all_eq_true]
    intro c hc
    rcases hslug c hc with hc | rfl
    · rw [isSlugChar] at hc
      rw [hc, Bool.true_or]
    · rfl
  have hfirst : ((joinWords '-' words).take 64).head? ≠ some '-' := by
    rwa [List.head?_take, if_neg (by decide)]
  have hlength : 1 ≤ ((joinWords '-' words).take 64).length ∧
      ((joinWords '-' words).take 64).length ≤ 64 := by
    have hpos := List.length_pos_iff.mpr hjoined
    rw [List.length_take]
    omega
  simp only [validSlug, String.toList_ofList, hbytes, hpair, hall, hlength, decide_true]
  simp [hfirst]

/-- The cut slug ends with a hyphen exactly where one stands at the cut. -/
theorem getLast?_take {text : List Char} {n : ℕ} {c : Char} (hlast : text.getLast? ≠ some c) :
    (text.take (n + 1)).getLast? = some c ↔ text[n]? = some c := by
  rcases Nat.lt_or_ge n text.length with hlt | hge
  · have hlength : (text.take (n + 1)).length = n + 1 := by
      rw [List.length_take]
      omega
    rw [List.getLast?_eq_getElem?, hlength, Nat.add_sub_cancel, List.getElem?_take_of_lt
      (Nat.lt_succ_self n)]
  · rw [List.take_of_length_le (by omega), List.getElem?_eq_none hge]
    exact iff_of_false hlast (by simp)

end

/-- **A slug read off a file name is accepted** by the page form exactly where no hyphen is
left at the cut. -/
theorem validSlug_slugFromFileName_iff (name : String) :
    (validSlug (slugFromFileName name) = true ∧ validateSlug (slugFromFileName name) = .ok ()) ↔
      ¬CutAtHyphen name := by
  have hform : validateSlug (slugFromFileName name) = .ok () ↔
      validSlug (slugFromFileName name) = true := by
    unfold validateSlug
    split <;> simp_all
  have hwords : SlugWords (nameWords name) := fun word hword => of_mem_wordsOf hword
  have hjoined : trimBy (· == '-') (squeeze isSlugChar '-' false (lowerBase name.toList)) =
      joinWords '-' (nameWords name) := trimBy_squeeze not_isSlugChar_hyphen _
  have hhead : (joinWords '-' (nameWords name)).head? ≠ some '-' := by
    intro heq
    rw [← hjoined] at heq
    simpa using head_trimBy '-' heq
  have hlast : (joinWords '-' (nameWords name)).getLast? ≠ some '-' := by
    intro heq
    rw [← hjoined] at heq
    simpa using last_trimBy '-' heq
  rw [hform, and_self, slugFromFileName, hjoined]
  by_cases hne : nameWords name = []
  · -- a name without words gives the fixed slug
    have hvalid : validSlug "importada" = true := by decide
    have hcut : ¬CutAtHyphen name := by
      rintro ⟨front, back, heq, hfront, -⟩
      rw [hne] at heq
      exact hfront (List.append_eq_nil_iff.mp heq.symm).1
    simpa [hne, hcut] using hvalid
  · have hnil : [] ∉ nameWords name := fun hmem => (hwords _ hmem).1 rfl
    have hsome : ((joinWords '-' (nameWords name)).take 64).isEmpty = false := by
      have hne' : joinWords '-' (nameWords name) ≠ [] := fun heq =>
        hne ((joinWords_eq_nil hnil).mp heq)
      simpa [List.isEmpty_eq_false_iff] using hne'
    rw [hsome, if_neg (by simp), hwords.validSlug_take hne hhead, Ne, getLast?_take hlast,
      getElem?_joinWords hwords.hyphen_notMem]
    rfl

/-- A word of 63 letters and another: the hyphen between them is the last of the slug. -/
theorem slugFromFileName_cut :
    slugFromFileName (String.ofList (List.replicate 63 'a' ++ " b.html".toList)) =
        String.ofList (List.replicate 63 'a' ++ ['-']) ∧
      ¬(validSlug (slugFromFileName
          (String.ofList (List.replicate 63 'a' ++ " b.html".toList))) = true ∧
        validateSlug (slugFromFileName
          (String.ofList (List.replicate 63 'a' ++ " b.html".toList))) = .ok ()) := by
  have hslug : slugFromFileName (String.ofList (List.replicate 63 'a' ++ " b.html".toList)) =
      String.ofList (List.replicate 63 'a' ++ ['-']) := by decide +kernel
  refine ⟨hslug, ?_⟩
  rw [hslug]
  decide +kernel

end Wallermax.Content
