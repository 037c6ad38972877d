import Wallermax.Base.Csp
import Wallermax.Base.FtsQuery
import Wallermax.Base.Trim
import Wallermax.Content.Search

/-!
# What a visitor types into the search

The match expression of a search has a quoted string for every token that is more than
quotes, and it is read as their conjunction: nothing a visitor types is an operator, a
column or a prefix.
-/

namespace Wallermax.Content

open Wallermax.Base
open Wallermax.Tenants

/-- `str::split_whitespace`. -/
def splitWhitespace (t : Text) : List Text := (t.splitOnP isWhitespace).filter (· ≠ [])

/-- A token without its quotes. -/
def withoutQuotes (token : Text) : Text := token.filter (· != '"')

def IsQuotes (token : Text) : Prop := ∀ c ∈ token, c = '"'

instance (token : Text) : Decidable (IsQuotes token) :=
  inferInstanceAs (Decidable (∀ c ∈ token, c = '"'))

/-- The tokens that are searched for. -/
def searched (terms : String) : List Text :=
  ((splitWhitespace terms.toList).filter fun token => ¬IsQuotes token).map withoutQuotes

theorem withoutQuotes_eq_nil {token : Text} : withoutQuotes token = [] ↔ IsQuotes token := by
  rw [withoutQuotes, List.filter_eq_nil_iff]
  simp [IsQuotes]

/-- The strings of the expression. -/
theorem searched_eq (terms : String) :
    searched terms = ((terms.toList.splitOnP isWhitespace).map fun token =>
      token.filter (· != '"')).filter fun token => !token.isEmpty := by
  have hkept : ∀ token : Text, (!(withoutQuotes token).isEmpty) =
      (decide (token ≠ []) && decide (¬IsQuotes token)) := by
    intro token
    rw [Bool.eq_iff_iff, Bool.not_eq_true', List.isEmpty_eq_false_iff, Bool.and_eq_true,
      decide_eq_true_eq, decide_eq_true_eq, ne_eq, withoutQuotes_eq_nil]
    refine ⟨fun h => ⟨?_, h⟩, fun h => h.2⟩
    rintro rfl
    exact h nofun
  rw [searched, splitWhitespace, List.filter_filter, List.filter_map]
  refine congrArg (List.map withoutQuotes) (List.filter_congr fun token _ => ?_)
  show _ = !(withoutQuotes token).isEmpty
  rw [hkept, Bool.and_comm]

theorem ftsMatchQuery_eq (terms : String) : ftsMatchQuery terms =
    if searched terms = [] then none
    else some (String.ofList ([' '].intercalate ((searched terms).map FtsQuery.quote))) := by
  have hquote : ∀ token : Text,
      ("\"" ++ String.ofList token ++ "\"").toList = FtsQuery.quote token := by
    intro token
    simp only [String.toList_append, String.toList_ofList, List.append_assoc]
    rfl
  have hspace : " ".toList = [' '] := rfl
  have hjoined : " ".intercalate ((searched terms).map fun token =>
      "\"" ++ String.ofList token ++ "\"") =
      String.ofList ([' '].intercalate ((searched terms).map FtsQuery.quote)) := by
    rw [← String.toList_inj, String.toList_ofList, String.toList_intercalate, hspace,
      List.map_map]
    exact congrArg _ (List.map_congr_left fun token _ => hquote token)
  unfold ftsMatchQuery
  rw [← searched_eq]
  dsimp only
  rw [hjoined]
  simp only [List.isEmpty_iff, List.map_eq_nil_iff]

theorem isPlain_searched {terms : String} (h : ∀ c ∈ terms.toList, c.toNat ≠ 0) :
    ∀ text ∈ searched terms, FtsQuery.IsPlain text := by
  intro text htext c hc
  rw [searched, List.mem_map] at htext
  obtain ⟨token, htoken, rfl⟩ := htext
  have hsplit := List.mem_of_mem_filter (List.mem_of_mem_filter htoken)
  obtain ⟨hmem, hquote⟩ := List.mem_filter.mp hc
  exact ⟨bne_iff_ne.mp hquote, h c (Csp.splitOnP_part hsplit c hmem).2⟩

theorem searched_eq_nil {terms : String} :
    searched terms = [] ↔ ∀ token ∈ splitWhitespace terms.toList, IsQuotes token := by
  rw [searched, List.map_eq_nil_iff, List.filter_eq_nil_iff]
  simp

/-- What is searched for is read as a conjunction, where no string has a NUL. -/
theorem reads_ftsMatchQuery {terms query : String} (h : ftsMatchQuery terms = some query)
    (hplain : ∀ text ∈ searched terms, FtsQuery.IsPlain text) :
    FtsQuery.Reads query.toList (.conjunction ((searched terms).map FtsQuery.alone)) := by
  rw [ftsMatchQuery_eq] at h
  split at h
  · cases h
  · rename_i hsome
    obtain rfl := Option.some.inj h
    rw [String.toList_ofList]
    exact ⟨_, FtsQuery.lex_quotes hplain, (FtsQuery.isExpr_strings hsome _).mpr rfl⟩

theorem ftsMatchQuery_congr {terms terms' : String} (h : searched terms = searched terms') :
    ftsMatchQuery terms = ftsMatchQuery terms' := by
  rw [ftsMatchQuery_eq, ftsMatchQuery_eq, h]

theorem ftsMatchQuery_eq_none {terms : String} :
    ftsMatchQuery terms = none ↔ searched terms = [] := by
  rw [ftsMatchQuery_eq]
  split
  · exact iff_of_true rfl ‹_›
  · exact iff_of_false nofun ‹_›

/-! ## Trimming -/

theorem splitWhitespace_append_cons {c : Char} (hc : isWhitespace c = true) (t rest : Text) :
    splitWhitespace (t ++ c :: rest) = splitWhitespace t ++ splitWhitespace rest := by
  rw [splitWhitespace, List.splitOnP_append_cons _ _ hc, List.filter_append]
  rfl

theorem splitWhitespace_blank {t : Text} (h : ∀ c ∈ t, isWhitespace c = true) :
    splitWhitespace t = [] := by
  induction t with
  | nil => rfl
  | cons c t ih =>
      rw [← List.nil_append (c :: t), splitWhitespace_append_cons (h c List.mem_cons_self),
        ih fun d hd => h d (List.mem_cons_of_mem _ hd)]
      rfl

theorem splitWhitespace_blank_append {front : Text} (h : ∀ c ∈ front, isWhitespace c = true)
    (t : Text) : splitWhitespace (front ++ t) = splitWhitespace t := by
  induction front with
  | nil => rfl
  | cons c front ih =>
      rw [List.cons_append, ← List.nil_append (c :: (front ++ t)),
        splitWhitespace_append_cons (h c List.mem_cons_self),
        ih fun d hd => h d (List.mem_cons_of_mem _ hd)]
      rfl

theorem splitWhitespace_append_blank {back : Text} (h : ∀ c ∈ back, isWhitespace c = true)
    (t : Text) : splitWhitespace (t ++ back) = splitWhitespace t := by
  cases back with
  | nil => rw [List.append_nil]
  | cons c back =>
      rw [splitWhitespace_append_cons (h c List.mem_cons_self),
        splitWhitespace_blank fun d hd => h d (List.mem_cons_of_mem _ hd), List.append_nil]

/-- **Trimming keeps the tokens.** -/
theorem searched_trim (terms : String) : searched (trim terms) = searched terms := by
  obtain ⟨front, back, hfront, hback, hterms⟩ := exists_trimBy isWhitespace terms.toList
  have htrim : (trim terms).toList = trimBy isWhitespace terms.toList := String.toList_ofList
  rw [searched, searched, htrim, hterms, splitWhitespace_blank_append hfront,
    splitWhitespace_append_blank hback, ← hterms]

/-- **What is searched for is inert**: there is an expression where a token is more than
quotes, and it is read as the conjunction of these tokens' strings and as nothing else. -/
theorem search_inert (terms : String) (h : ∀ c ∈ terms.toList, c.toNat ≠ 0) :
    (ftsMatchQuery terms = none ↔ ∀ token ∈ splitWhitespace terms.toList, IsQuotes token) ∧
      ∀ query, ftsMatchQuery terms = some query → ∀ expr,
        FtsQuery.Reads query.toList expr ↔
          expr = .conjunction ((searched terms).map FtsQuery.alone) := by
  rw [ftsMatchQuery_eq, ← searched_eq_nil]
  split
  · rename_i hnil
    exact ⟨iff_of_true rfl hnil, nofun⟩
  · rename_i hsome
    refine ⟨iff_of_false nofun hsome, fun query hquery expr => ?_⟩
    obtain rfl := Option.some.inj hquery
    have hlex := FtsQuery.lex_quotes (isPlain_searched h)
    rw [String.toList_ofList, ← FtsQuery.isExpr_strings hsome]
    constructor
    · rintro ⟨tokens, htokens, hexpr⟩
      rw [hlex, Option.some_inj] at htokens
      rwa [htokens]
    · exact fun hexpr => ⟨_, hlex, hexpr⟩

/-- An operator, a prefix and a column of a visitor are strings. -/
theorem search_inert_operators :
    (ftsMatchQuery "cat OR title:do*" = none ↔
        ∀ token ∈ splitWhitespace "cat OR title:do*".toList, IsQuotes token) ∧
      ∀ query, ftsMatchQuery "cat OR title:do*" = some query → ∀ expr,
        FtsQuery.Reads query.toList expr ↔
          expr = .conjunction ((searched "cat OR title:do*").map FtsQuery.alone) :=
  search_inert "cat OR title:do*" (forall_mem_of_all (by decide))

end Wallermax.Content
