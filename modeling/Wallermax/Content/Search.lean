import Mathlib.Analysis.SpecialFunctions.Log.Basic
import Wallermax.Base.FullText
import Wallermax.Content.Menus
import Wallermax.Tenants.Forms

/-!
# Full-text search

`search` and `search_count` over the one FTS5 index all organizations share.
FTS5 itself is a parameter: its tokenizer, its reading of a `MATCH` expression,
`snippet`, and `bm25` of the shape `Bm25`. The visibility and organization
filters apply to the rows, so which pages are found depends on them alone; the
order also depends on the statistics of every other row.
-/

namespace Wallermax.Content

open Wallermax.Base
open Wallermax.Accounts
open Wallermax.Storage
open Wallermax.Tenants

/-- `fts_match_query`: every whitespace token becomes a quoted phrase. -/
def ftsMatchQuery (terms : String) : Option String :=
  let phrases := (((terms.toList.splitOnP isWhitespace).map fun token =>
    token.filter (· != '"')).filter fun token => !token.isEmpty).map fun token =>
      "\"" ++ String.ofList token ++ "\""
  if phrases.isEmpty then none else some (" ".intercalate phrases)

/-- FTS5: `tokens` of a column, the non-empty `phrases` of a match expression
that is an implicit `AND` of them, and the `snippet` of a body. -/
structure Fts5 (α : Type*) [Preorder α] extends Bm25 α where
  tokens : String → List String
  phrases : String → List (List String)
  snippet : String → String → String

structure SearchHit : Type where
  id : ℕ
  slug : String
  title : String
  is_published : Bool
  publish_at : Option ℤ
  updated_at : ℤ
  fragment : String
deriving DecidableEq

section Search

variable {α : Type*} [Field α] [LinearOrder α] (fts : Fts5 α)

/-- The indexed columns of a page: the source as stored. -/
def document (page : Page) : List (List String) :=
  [fts.tokens page.title, fts.tokens page.content]

/-- `pages_fts`: the triggers keep one document a row, of every organization and
drafts included. -/
def index (db : ContentDb) : List (List (List String)) :=
  db.pages.rows.map fun r => document fts r.2.columns

/-- The rows that match and pass the filters. -/
def matching (db : ContentDb) (organization : String) (now : ℤ) (query : String)
    (include_drafts : Bool) : List (ℕ × Page) :=
  (Pages.listed db organization now include_drafts).filter fun p =>
    matchesAll (fts.phrases query) (document fts p.2)

/-- `ORDER BY bm25(pages_fts), p.id`. -/
def Ranked (db : ContentDb) (query : String) (p q : ℕ × Page) : Prop :=
  fts.Before (index fts db) (fts.phrases query) (p.1, document fts p.2)
    (q.1, document fts q.2)

instance (db : ContentDb) (query : String) : DecidableRel (Ranked fts db query) :=
  fun _ _ => inferInstanceAs (Decidable (fts.Before _ _ _ _))

def searchHit (query : String) (p : ℕ × Page) : SearchHit where
  id := p.1
  slug := p.2.slug
  title := p.2.title
  is_published := p.2.is_published
  publish_at := p.2.publish_at
  updated_at := p.2.updated_at
  fragment := fts.snippet query p.2.content

/-- `search`. -/
def search (db : ContentDb) (organization : String) (now : ℤ) (terms : String)
    (include_drafts : Bool) (limit offset : ℤ) : List SearchHit :=
  match ftsMatchQuery terms with
  | none => []
  | some query =>
      (window limit offset ((matching fts db organization now query
        include_drafts).insertionSort (Ranked fts db query))).map (searchHit fts query)

/-- `search_count`. -/
def searchCount (db : ContentDb) (organization : String) (now : ℤ) (terms : String)
    (include_drafts : Bool) : ℕ :=
  match ftsMatchQuery terms with
  | none => 0
  | some query => (matching fts db organization now query include_drafts).length

/-- The two indexes put every two of these pages in the same order. -/
def SameOrder (db db' : ContentDb) (query : String) (pages : List (ℕ × Page)) : Prop :=
  ∀ p ∈ pages, ∀ q ∈ pages, (Ranked fts db query p q ↔ Ranked fts db' query p q)

/-! ## What a search depends on -/

variable {fts} {db db' : ContentDb} {organization : String} {now : ℤ} {query : String}
  {include_drafts : Bool}

omit [Field α] in
theorem matching_congr
    (h : Pages.listed db organization now include_drafts =
      Pages.listed db' organization now include_drafts) :
    matching fts db organization now query include_drafts =
      matching fts db' organization now query include_drafts := by
  rw [matching, matching, h]

omit [Field α] in
theorem mem_pagesOf_of_matching {p : ℕ × Page}
    (h : p ∈ matching fts db organization now query include_drafts) :
    p ∈ pagesOf db organization :=
  List.mem_of_mem_filter (List.mem_of_mem_filter h)

instance : Std.Total (Ranked fts db query) :=
  ⟨fun p q => le_total (α := α ×ₗ ℕ) (toLex (_, p.1)) (toLex (_, q.1))⟩

instance : IsTrans (ℕ × Page) (Ranked fts db query) :=
  ⟨fun _ _ _ => le_trans (α := α ×ₗ ℕ)⟩

/-- Of the rows found no two are tied. -/
theorem Ranked.antisymm {p q : ℕ × Page}
    (hp : p ∈ matching fts db organization now query include_drafts)
    (hq : q ∈ matching fts db organization now query include_drafts)
    (h : Ranked fts db' query p q) (h' : Ranked fts db' query q p) : p = q := by
  have hid : p.1 = q.1 := Bm25.Before.antisymm h h'
  obtain ⟨i, v⟩ := p
  obtain ⟨j, w⟩ := q
  obtain rfl : i = j := hid
  rw [orgScope_inj (mem_pagesOf_of_matching hp) (mem_pagesOf_of_matching hq)]

omit [Field α] in
theorem searchHit_injOn {p q : ℕ × Page}
    (hp : p ∈ pagesOf db organization) (hq : q ∈ pagesOf db organization)
    (h : searchHit fts query p = searchHit fts query q) : p = q := by
  obtain ⟨i, v⟩ := p
  obtain ⟨j, w⟩ := q
  obtain rfl : i = j := congrArg SearchHit.id h
  rw [orgScope_inj hp hq]

/-- Both searches answer all windows alike exactly when both indexes order the
pages found alike. -/
theorem search_congr_iff {terms : String}
    (h : Pages.listed db organization now include_drafts =
      Pages.listed db' organization now include_drafts) :
    (∀ limit offset, search fts db organization now terms include_drafts limit offset =
      search fts db' organization now terms include_drafts limit offset) ↔
    ∀ query, ftsMatchQuery terms = some query →
      SameOrder fts db db' query (matching fts db organization now query include_drafts) := by
  cases hquery : ftsMatchQuery terms with
  | none => simp [search, hquery]
  | some query =>
      have hmatch : matching fts db organization now query include_drafts =
          matching fts db' organization now query include_drafts := matching_congr h
      have hsort := insertionSort_eq_iff (r := Ranked fts db query)
        (s := Ranked fts db' query)
        (l := matching fts db organization now query include_drafts)
        (fun p hp q hq => Ranked.antisymm hp hq) (fun p hp q hq => Ranked.antisymm hp hq)
      simp only [Option.some.injEq, forall_eq']
      rw [SameOrder, ← hsort]
      simp only [search, hquery, ← hmatch]
      constructor
      · intro hall
        have hfull := hall (-1) 0
        simp only [window, Int.reduceNeg, Int.toNat_zero, List.drop_zero,
          Left.neg_neg_iff, zero_lt_one, ↓reduceIte] at hfull
        apply eq_of_map_eq _ hfull
        intro p hp q hq
        exact searchHit_injOn (mem_pagesOf_of_matching ((List.mem_insertionSort _).mp hp))
          (mem_pagesOf_of_matching ((List.mem_insertionSort _).mp hq))
      · intro heq limit offset
        rw [heq]

omit [Field α] in
/-- A search that finds the same rows counts them alike. -/
theorem searchCount_congr {terms : String}
    (h : Pages.listed db organization now include_drafts =
      Pages.listed db' organization now include_drafts) :
    searchCount fts db organization now terms include_drafts =
      searchCount fts db' organization now terms include_drafts := by
  unfold searchCount
  cases ftsMatchQuery terms with
  | none => rfl
  | some query => exact congrArg List.length (matching_congr h)

/-- Indexes with the same statistics for the query order all pages alike. -/
theorem sameOrder_of_statistics {pages : List (ℕ × Page)}
    (hlength : (index fts db).length = (index fts db').length)
    (hcontaining : ∀ phrase ∈ fts.phrases query,
      containing (index fts db) phrase = containing (index fts db') phrase)
    (haverage : (averageSize (index fts db) : α) = averageSize (index fts db')) :
    SameOrder fts db db' query pages := by
  intro p _ q _
  unfold Ranked Bm25.Before
  rw [fts.rank_congr hlength hcontaining haverage, fts.rank_congr hlength hcontaining haverage]

end Search

/-! ## FTS5 as it ranks -/

/-- The `unicode61` tokens of an ASCII text. -/
def asciiTokens (text : String) : List String :=
  (((text.toList.map Char.toLower).splitOnP fun c => !c.isAlphanum).filter fun token =>
    !token.isEmpty).map String.ofList

/-- The quoted phrases of a match expression. -/
def quotedPhrases (query : String) : List (List String) :=
  ((query.toList.splitOn '"').map fun text => asciiTokens (String.ofList text)).filter
    fun phrase => !phrase.isEmpty

/-- `snippet` of a text of up to twelve one-token words, for one-token phrases. -/
def shortSnippet (query content : String) : String :=
  " ".intercalate ((content.toList.splitOn ' ').map fun word =>
    let word := String.ofList word
    if (quotedPhrases query).contains (asciiTokens word) then "⟦" ++ word ++ "⟧" else word)

/-- FTS5's `bm25` with its constants `k1 = 1.2` and `b = 0.75`. -/
noncomputable def sqliteBm25 : Bm25 ℝ where
  idf n k := max (1 / 1000000) (Real.log ((n - k + 1 / 2) / (k + 1 / 2)))
  weight f size average :=
    f * (6 / 5 + 1) / (f + 6 / 5 * (1 - 3 / 4 + 3 / 4 * size / average))
  idf_antitone := by
    intro n k m hkm hmn
    have hk : (k : ℝ) ≤ m := by exact_mod_cast hkm
    have hm : (m : ℝ) ≤ n := by exact_mod_cast hmn
    apply max_le_max_left
    apply Real.log_le_log
    · have : (0 : ℝ) ≤ m := m.cast_nonneg
      apply div_pos <;> linarith
    · have : (0 : ℝ) ≤ k := k.cast_nonneg
      apply div_le_div₀ <;> linarith

noncomputable def sqliteFts5 : Fts5 ℝ where
  toBm25 := sqliteBm25
  tokens := asciiTokens
  phrases := quotedPhrases
  snippet := shortSnippet

/-! ## A page of another tenant reorders the results -/

def publishedPage (slug content : String) : Page where
  slug := slug
  title := "t"
  content := content
  is_published := true
  created_by := none
  created_at := 0
  updated_at := 0
  parent_id := none
  position := 0
  meta_title := none
  meta_description := none
  og_image := none
  body_format := .markdown
  publish_at := none

def uno : ℕ × Page := (1, publishedPage "uno" "alfa alfa beta")

def dos : ℕ × Page := (2, publishedPage "dos" "alfa beta beta")

/-- Two pages of one organization and seven of another, the last with this
body. -/
def sharedIndexDb (content : String) : ContentDb where
  users := Table.empty
  organizations := (Table.empty.insert ⟨"acme", "Acme", "/srv/acme", 0⟩).insert
    ⟨"beta", "Beta", "/srv/beta", 0⟩
  memberships := Memberships.empty
  domains := Constrained.empty
  pages :=
    { rows :=
        [(1, ⟨1, uno.2⟩), (2, ⟨1, dos.2⟩), (3, ⟨2, publishedPage "a" "x"⟩),
          (4, ⟨2, publishedPage "b" "x"⟩), (5, ⟨2, publishedPage "c" "x"⟩),
          (6, ⟨2, publishedPage "d" "x"⟩), (7, ⟨2, publishedPage "e" "x"⟩),
          (8, ⟨2, publishedPage "f" "x"⟩), (9, ⟨2, publishedPage "g" content⟩)]
      seq := 9
      ids_nodup := by simp
      ids_le_seq := by simp
      checked := by simp [Kind.ownedCheck, pageKind]
      unique := by
        simp [Kind.ownedCollides, Kind.collides, pageKind, publishedPage, uno, dos] }
  menus := Constrained.empty
  media := Constrained.empty
  page_revisions := Table.empty
  menu_items := Constrained.empty

theorem idf_nine : sqliteBm25.idf 9 3 < sqliteBm25.idf 9 2 := by
  have hlog : Real.log (13 / 7) < Real.log 3 := Real.log_lt_log (by norm_num) (by norm_num)
  have hfloor : (1 / 1000000 : ℝ) < Real.log 3 := by
    have := Real.one_sub_inv_le_log_of_pos (x := 3) (by norm_num)
    norm_num at this ⊢
    linarith
  simp only [sqliteBm25]
  norm_num
  exact ⟨hfloor, hlog⟩

theorem weight_four : sqliteBm25.weight 1 4 (22 / 9) < sqliteBm25.weight 2 4 (22 / 9) := by
  simp only [sqliteBm25]
  norm_num

/-- The rank of a document of four tokens, from the counts of the two words. -/
theorem rank_shared {content : String} {n m f g : ℕ} {doc : List (List String)}
    (hsizes : (index sqliteFts5 (sharedIndexDb content)).map docSize =
      [4, 4, 2, 2, 2, 2, 2, 2, 2])
    (halfa : containing (index sqliteFts5 (sharedIndexDb content)) ["alfa"] = n)
    (hbeta : containing (index sqliteFts5 (sharedIndexDb content)) ["beta"] = m)
    (hdoc : docSize doc = 4) (hf : frequency ["alfa"] doc = f)
    (hg : frequency ["beta"] doc = g) :
    sqliteBm25.rank (index sqliteFts5 (sharedIndexDb content)) [["alfa"], ["beta"]] doc =
      -(sqliteBm25.idf 9 n * sqliteBm25.weight f 4 (22 / 9) +
        sqliteBm25.idf 9 m * sqliteBm25.weight g 4 (22 / 9)) := by
  have hlength : (index sqliteFts5 (sharedIndexDb content)).length = 9 := by
    simpa using congrArg List.length hsizes
  have haverage : (averageSize (index sqliteFts5 (sharedIndexDb content)) : ℝ) = 22 / 9 := by
    rw [averageSize, hsizes, hlength]
    norm_num
  simp [Bm25.rank, hlength, halfa, hbeta, hf, hg, hdoc, haverage]

/-- Two pages come out by rank, however they are stored. -/
theorem insertionSort_pair {db : ContentDb} {query : String} {p q : ℕ × Page}
    (h : sqliteBm25.rank (index sqliteFts5 db) (quotedPhrases query)
        (document sqliteFts5 p.2) <
      sqliteBm25.rank (index sqliteFts5 db) (quotedPhrases query)
        (document sqliteFts5 q.2)) :
    [p, q].insertionSort (Ranked sqliteFts5 db query) = [p, q] ∧
      [q, p].insertionSort (Ranked sqliteFts5 db query) = [p, q] := by
  have hpq : Ranked sqliteFts5 db query p q := Prod.Lex.toLex_le_toLex.mpr (.inl h)
  have hqp : ¬ Ranked sqliteFts5 db query q p := by
    intro hqp
    rcases Prod.Lex.toLex_le_toLex.mp hqp with hlt | ⟨heq, _⟩
    · exact lt_asymm h hlt
    · exact h.ne' heq
  constructor <;> simp [hpq, hqp]

end Wallermax.Content
