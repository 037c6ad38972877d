import Wallermax.Content.DatetimeRoundTrip
import Wallermax.Content.SearchPage

/-!
# The links of the public listings

How many pages a listing has, which links its pages carry, and what `listing_query` reads in
them: the page they ask for, and what the visitor searched for.
-/

namespace Wallermax.Content

open Wallermax.Base
open Wallermax.Accounts
open Wallermax.Storage
open Wallermax.Tenants

/-! ## Numbers of pages -/

theorem pagesFor_eq {size : ℕ} (hsize : 0 < size) (n : ℕ) :
    max (pagesFor n size) 1 = (pageCount size n : ℤ) := by
  have hceil : n / size + (if n % size = 0 then 0 else 1) = (n + size - 1) / size := by
    have hdiv := Nat.div_add_mod n size
    have hmod := Nat.mod_lt n hsize
    symm
    split
    · rename_i hzero
      rw [Nat.div_eq_iff hsize, Nat.add_zero]
      rw [Nat.mul_comm] at hdiv
      omega
    · rename_i hpos
      rw [Nat.div_eq_iff hsize, Nat.add_mul]
      rw [Nat.mul_comm] at hdiv
      omega
  have hpages : pagesFor n size = ((n + size - 1) / size : ℕ) := by
    rw [← hceil, pagesFor]
    push_cast
    congr 1
    by_cases hzero : n % size = 0
    · rw [if_pos hzero, if_pos (by exact_mod_cast hzero)]
    · rw [if_neg hzero, if_neg (by exact_mod_cast hzero)]
  rw [hpages, pageCount, Nat.cast_max, max_comm]
  rfl

/-- The window of a page that is there. -/
theorem window_eq_pageAt {ρ : Type} {size page : ℕ} (hpage : 1 ≤ page) (rows : List ρ) :
    window (size : ℤ) (((page : ℤ) - 1) * size) rows = pageAt size rows page := by
  have hoffset : (((page : ℤ) - 1) * size).toNat = (page - 1) * size := by
    rw [← Nat.cast_one, ← Nat.cast_sub hpage, ← Nat.cast_mul, Int.toNat_natCast]
  rw [window, if_neg (by omega), hoffset, Int.toNat_natCast, pageAt]

theorem clampPage_of_mem {page last : ℤ} (hfirst : 1 ≤ page) (hlast : page ≤ last) :
    clampPage page last = page := by
  unfold clampPage
  omega

theorem parseI64_toString {n : ℕ} (h : n < 2 ^ 63) :
    parseI64 (toString (n : ℤ)).toList = some (n : ℤ) := by
  have htext : (toString (n : ℤ)).toList = Nat.toDigits 10 n := Nat.toList_repr
  have hvalue := digitsValue_eq Nat.toDigits_ne_nil (isDigit_of_mem_toDigits n)
  rw [htext, parseI64, signedValue_of_digits true hvalue, Nat.ofDigitChars_ten_toDigits]
  exact Option.filter_some_pos (decide_eq_true ⟨by omega, by omega⟩)

/-! ## The links -/

theorem Shown.link_ite (key : String) (c : Prop) [Decidable c] (fields : List (String × Value))
    (target : String) (h : fields.lookup key = some (if c then .string target else .null)) :
    Shown.link key (.object fields) = if c then some target.toList else none := by
  rw [Shown.link, h]
  by_cases hc : c
  · rw [if_pos hc, if_pos hc]
  · rw [if_neg hc, if_neg hc]

theorem Shown.next_eq (s : Shown) : s.next =
    if s.page < max (pagesFor s.total s.page_size) 1 then
      some (pageLink s.base (s.page + 1)).toList else none :=
  Shown.link_ite _ _ _ _ rfl

theorem Shown.previous_eq (s : Shown) : s.previous =
    if 1 < s.page then some (pageLink s.base (s.page - 1)).toList else none :=
  Shown.link_ite _ _ _ _ rfl

/-- A path and a query are read as such. -/
theorem parse_target {path query : Text} (hpath : ∀ c ∈ path, Uri.isPathChar c = true)
    (hquery : '#' ∉ query) :
    (Uri.parse (path ++ '?' :: query)).path = (Uri.parse path).path ∧
      (Uri.parse (path ++ '?' :: query)).query = some query := by
  have hparts : Uri.IsParts path (some query) none := by
    refine ⟨hpath, ?_⟩
    rintro q ⟨⟩ c hc
    rw [Uri.isQueryChar, bne_iff_ne]
    rintro rfl
    exact hquery hc
  have htext : path ++ '?' :: query =
      path ++ (Uri.queryText (some query) ++ Uri.fragmentText none) := by
    rw [Uri.fragmentText, List.append_nil]
    rfl
  rw [htext, hparts.parse_eq]
  exact ⟨rfl, rfl⟩

theorem isName_q : FormFields.IsName ['q'] := forall_mem_of_all (by decide)

theorem isName_page : FormFields.IsName "page".toList := forall_mem_of_all (by decide)

/-- A number needs no escape. -/
theorem isName_toString (n : ℕ) : FormFields.IsName (toString (n : ℤ)).toList := by
  have htext : (toString (n : ℤ)).toList = Nat.toDigits 10 n := Nat.toList_repr
  intro c hc
  rw [htext] at hc
  rw [FormFields.isFormSafe, isAlphanum_of_isDigit (isDigit_of_mem_toDigits n c hc)]
  rfl

def pageField (n : ℕ) : Text := FormFields.field "page".toList (toString (n : ℤ)).toList

def queryField (terms : Text) : Text := FormFields.field ['q'] terms

theorem pageField_eq (n : ℕ) : pageField n = "page=".toList ++ (toString (n : ℤ)).toList := by
  rw [pageField, FormFields.field, FormFields.encode_of_isName (isName_toString n)]
  rfl

/-- The target of a listing with a query. -/
def target (path query : Text) : Text := path ++ '?' :: query

theorem pageLink_index (n : ℕ) :
    (pageLink "/p" n).toList = target "/p".toList (pageField n) := by
  rw [pageField_eq]
  simp only [pageLink, String.toList_append]
  rfl

theorem pageLink_search (terms : Text) (n : ℕ) :
    (pageLink (String.ofList ("/search?".toList ++ queryField terms)) n).toList =
      target "/search".toList (queryField terms ++ '&' :: pageField n) := by
  have hmark : ("/search?".toList ++ queryField terms).contains '?' = true :=
    List.contains_iff_mem.mpr (List.mem_append_left _ (by decide))
  rw [pageField_eq]
  simp only [pageLink, String.toList_append, String.toList_ofList, hmark, if_true,
    List.append_assoc, target]
  rfl

/-! ## Reading the links -/

theorem hash_not_mem_field {name : Text} (h : FormFields.IsName name) (value : Text) :
    '#' ∉ FormFields.field name value :=
  fun hmem => (FormFields.field_ne_sign h value _ hmem).2 rfl

theorem hash_not_mem_search_link (terms : Text) (n : ℕ) :
    '#' ∉ queryField terms ++ '&' :: pageField n := by
  intro hmem
  rcases List.mem_append.mp hmem with hmem | hmem
  · exact hash_not_mem_field isName_q _ hmem
  · rcases List.mem_cons.mp hmem with heq | hmem
    · cases heq
    · exact hash_not_mem_field isName_page _ hmem

theorem queryPairs_target {path query : Text} (hpath : ∀ c ∈ path, Uri.isPathChar c = true)
    (hquery : '#' ∉ query) :
    queryPairs (target path query) = (FormFields.parse query).map fun field =>
      (String.ofList field.1, String.ofList field.2) := by
  rw [queryPairs, target, (parse_target hpath hquery).2]
  rfl

theorem isPathChar_index : ∀ c ∈ "/p".toList, Uri.isPathChar c = true :=
  forall_mem_of_all (by decide)

theorem isPathChar_search : ∀ c ∈ "/search".toList, Uri.isPathChar c = true :=
  forall_mem_of_all (by decide)

theorem queryPairs_index_link (n : ℕ) :
    queryPairs (target "/p".toList (pageField n)) = [("page", toString (n : ℤ))] := by
  rw [pageField, queryPairs_target isPathChar_index (hash_not_mem_field isName_page _),
    FormFields.parse_serialized isName_page, List.map_singleton, String.ofList_toList,
    String.ofList_toList]

theorem queryPairs_search_start (q : Text) :
    queryPairs (target "/search".toList (queryField q)) = [("q", String.ofList q)] := by
  rw [queryField, queryPairs_target isPathChar_search (hash_not_mem_field isName_q _),
    FormFields.parse_serialized isName_q]
  rfl

theorem queryPairs_search_link (terms : Text) (n : ℕ) :
    queryPairs (target "/search".toList (queryField terms ++ '&' :: pageField n)) =
      [("q", String.ofList terms), ("page", toString (n : ℤ))] := by
  rw [queryPairs_target isPathChar_search (hash_not_mem_search_link _ _), queryField, pageField,
    FormFields.parse_serialized_pair isName_q isName_page, List.map_cons, List.map_singleton,
    String.ofList_toList, String.ofList_toList]

/-- The terms of a request, trimmed and cut. -/
def asked (raw : String) : String := String.ofList ((trim raw).toList.take 200)

theorem mem_of_mem_asked {raw : String} {c : Char} (hc : c ∈ (asked raw).toList) :
    c ∈ raw.toList := by
  have htrim : (trim raw).toList = trimBy isWhitespace raw.toList := String.toList_ofList
  rw [asked, String.toList_ofList, htrim] at hc
  exact (trimBy_isInfix isWhitespace raw.toList).mem (List.mem_of_mem_take hc)

theorem listingQuery_page {n : ℕ} (h : n < 2 ^ 63) :
    listingQuery [("page", toString (n : ℤ))] = ("", (n : ℤ)) := by
  simp only [listingQuery, List.foldl_cons, List.foldl_nil]
  rw [if_neg (by decide), if_true, parseI64_toString h]
  rfl

theorem listingQuery_q (raw : String) : listingQuery [("q", raw)] = (asked raw, 1) := rfl

theorem listingQuery_q_page (raw : String) {n : ℕ} (h : n < 2 ^ 63) :
    listingQuery [("q", raw), ("page", toString (n : ℤ))] = (asked raw, (n : ℤ)) := by
  simp only [listingQuery, List.foldl_cons, List.foldl_nil, if_true]
  rw [parseI64_toString h]
  rfl

/-- **What was cut is not cut again**, and searches for the same. -/
theorem searched_asked {raw : String} (h : raw.toList.length ≤ 200) :
    searched (asked raw) = searched raw := by
  have hle : (trim raw).toList.length ≤ 200 := by
    have htrim : (trim raw).toList = trimBy isWhitespace raw.toList := String.toList_ofList
    rw [htrim]
    exact (trimBy_isInfix isWhitespace raw.toList).length_le.trans h
  rw [asked, List.take_of_length_le hle, String.ofList_toList, searched_trim]

end Wallermax.Content
