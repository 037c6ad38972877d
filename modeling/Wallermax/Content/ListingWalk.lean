import Wallermax.Content.Drafts
import Wallermax.Content.ListingLinks

/-!
# Walking the public listings

The count, the clamp, the window and the links of a listing agree on where its pages end, and
what a visitor searches for comes back from the links it is written into. So the links lead
through the whole listing, there and back.
-/

namespace Wallermax.Content

open Wallermax.Base
open Wallermax.Accounts
open Wallermax.Storage
open Wallermax.Tenants

/-! ## The listings -/

/-- All rows of `/p` in order. -/
def indexListing (db : ContentDb) (organization : String) (now : ℤ) : List Value :=
  ((Pages.listed db organization now false).insertionSort NewestFirst).map fun p =>
    listedRow (summary p)

section Search

variable {α : Type*} [Field α] [LinearOrder α]

/-- All rows of a search in order. -/
def searchListing (fts : Fts5 α) (db : ContentDb) (organization : String) (now : ℤ)
    (terms : String) : List Value :=
  match ftsMatchQuery terms with
  | none => []
  | some query =>
      ((matching fts db organization now query false).insertionSort (Ranked fts db query)).map
        fun p => hitRow (searchHit fts query p)

theorem window_map {ρ σ : Type} (f : ρ → σ) (limit offset : ℤ) (rows : List ρ) :
    window limit offset (rows.map f) = (window limit offset rows).map f := by
  unfold window
  split
  · rw [List.map_drop]
  · rw [List.map_take, List.map_drop]

variable {fts : Fts5 α} {db : ContentDb} {organization : String} {now : ℤ} {terms : String}

theorem listPaged_rows (limit offset : ℤ) :
    (Pages.listPaged db organization now false limit offset).map listedRow =
      window limit offset (indexListing db organization now) := by
  rw [Pages.listPaged, indexListing, window_map, List.map_map]
  rfl

theorem length_indexListing :
    (indexListing db organization now).length = Pages.countPublished db organization now := by
  rw [indexListing, List.length_map, List.length_insertionSort]
  rfl

theorem search_rows (limit offset : ℤ) :
    (search fts db organization now terms false limit offset).map hitRow =
      window limit offset (searchListing fts db organization now terms) := by
  unfold search searchListing
  cases ftsMatchQuery terms with
  | none => simp [window]
  | some query =>
      dsimp only
      rw [window_map, List.map_map]
      rfl

theorem length_searchListing :
    (searchListing fts db organization now terms).length =
      searchCount fts db organization now terms false := by
  unfold searchListing searchCount
  cases ftsMatchQuery terms with
  | none => rfl
  | some query =>
      dsimp only
      rw [List.length_map, List.length_insertionSort]

theorem length_searchListing_le :
    (searchListing fts db organization now terms).length ≤
      Pages.countPublished db organization now := by
  rw [length_searchListing]
  unfold searchCount
  cases ftsMatchQuery terms with
  | none => exact Nat.zero_le _
  | some query => exact List.length_filter_le _ _

theorem searchListing_congr {now' : ℤ} {terms' : String}
    (hlisted : Pages.listed db organization now false = Pages.listed db organization now' false)
    (hterms : searched terms = searched terms') :
    searchListing fts db organization now terms =
      searchListing fts db organization now' terms' := by
  unfold searchListing
  rw [ftsMatchQuery_congr hterms]
  cases ftsMatchQuery terms' with
  | none => rfl
  | some query =>
      dsimp only
      rw [matching, matching, hlisted]

/-! ## No row twice -/

/-- Rows of one organization that show the slug of their page are different. -/
theorem nodup_rows {rows : List (ℕ × Page)} {row : ℕ × Page → Value}
    (hrows : ∀ p ∈ rows, p ∈ pagesOf db organization) (hnodup : rows.Nodup)
    (hrow : ∀ p, Shown.link "slug" (row p) = some p.2.slug.toList) : (rows.map row).Nodup := by
  refine List.Nodup.map_on (fun p hp q hq heq => ?_) hnodup
  have hslug := congrArg (Shown.link "slug") heq
  rw [hrow, hrow, Option.some_inj, String.toList_inj] at hslug
  obtain ⟨i, v⟩ := p
  obtain ⟨j, w⟩ := q
  obtain rfl : i = j := orgScope_key_inj (hrows _ hp) (hrows _ hq) hslug
  rw [orgScope_inj (hrows _ hp) (hrows _ hq)]

theorem nodup_listed : (Pages.listed db organization now false).Nodup :=
  ((orgScope_ids_nodup _).of_map Prod.fst).filter _

theorem nodup_indexListing : (indexListing db organization now).Nodup :=
  nodup_rows (fun _ hp => List.mem_of_mem_filter ((List.mem_insertionSort _).mp hp))
    ((List.perm_insertionSort _ _).nodup_iff.mpr nodup_listed) fun _ => rfl

theorem nodup_searchListing : (searchListing fts db organization now terms).Nodup := by
  unfold searchListing
  cases ftsMatchQuery terms with
  | none => exact List.nodup_nil
  | some query =>
      exact nodup_rows (fun _ hp => mem_pagesOf_of_matching ((List.mem_insertionSort _).mp hp))
        ((List.perm_insertionSort _ _).nodup_iff.mpr (nodup_listed.filter _)) fun _ => rfl

end Search

/-! ## One page -/

theorem Shown.links {s : Shown} {size n page : ℕ} (hsize : 0 < size) (hpage : s.page = page)
    (htotal : s.total = n) (hpage_size : s.page_size = size) :
    (page < pageCount size n → s.next = some (pageLink s.base ((page + 1 : ℕ) : ℤ)).toList) ∧
      (page = pageCount size n → s.next = none) ∧
      (1 < page → s.previous = some (pageLink s.base ((page - 1 : ℕ) : ℤ)).toList) ∧
      (page = 1 → s.previous = none) := by
  rw [s.next_eq, s.previous_eq, hpage, htotal, hpage_size, pagesFor_eq hsize]
  refine ⟨fun hlt => ?_, fun heq => ?_, fun hlt => ?_, fun heq => ?_⟩
  · rw [if_pos (by exact_mod_cast hlt)]
    rfl
  · rw [if_neg (by omega)]
  · have hcast : ((page - 1 : ℕ) : ℤ) = (page : ℤ) - 1 := by omega
    rw [if_pos (by exact_mod_cast hlt), hcast]
  · rw [if_neg (by omega)]

/-- The page asked for, where there is one. -/
theorem clampPage_eq {size n page : ℕ} (hsize : 0 < size) (hfirst : 1 ≤ page)
    (hlast : page ≤ pageCount size n) : clampPage page (max (pagesFor n size) 1) = page := by
  rw [pagesFor_eq hsize]
  exact clampPage_of_mem (by omega) (by omega)

/-- A listing whose requests for a page are answered with it, and whose links ask for pages. -/
theorem numbered_of_shown {shown : ℕ → Text → Option Shown} {Asks : ℕ → Text → Prop}
    {size n : ℕ} {listing : List Value} {tokens : List Text} (hsize : 0 < size)
    (h : ∀ k page t, 1 ≤ page → page ≤ pageCount size n → Asks page t →
      ∃ s, shown k t = some s ∧ s.page = page ∧ s.total = n ∧ s.page_size = size ∧
        s.rows = pageAt size listing page ∧ searched s.busqueda = tokens ∧
        ∀ m, m ≤ pageCount size n → Asks m (pageLink s.base (m : ℤ)).toList) :
    Numbered shown Shown.next Shown.previous (pageCount size n) Asks
      (fun page => ((page : ℤ), pageAt size listing page, tokens))
      fun s => (s.page, s.rows, searched s.busqueda) := by
  constructor
  intro k page t hfirst hlast hasks
  obtain ⟨s, hs, hpage, htotal, hpage_size, hrows, htokens, hlinks⟩ :=
    h k page t hfirst hlast hasks
  obtain ⟨hnext, hend, hprevious, hstart⟩ := s.links hsize hpage htotal hpage_size
  refine ⟨s, hs, ?_, fun hlt => ?_, hend, fun hlt => ?_, hstart⟩
  · rw [hpage, hrows, htokens]
  · exact ⟨_, hnext hlt, hlinks _ hlt⟩
  · exact ⟨_, hprevious hlt, hlinks _ (by omega)⟩

section Walk

variable {α : Type*} [Field α] [LinearOrder α] (env : Environment α)
  (refuses : String → Bool) (settings : Settings) (db : ContentDb) (visitor : ReadRequest)
  (clock : ℕ → ℤ)

def AsksIndex (page : ℕ) (t : Text) : Prop :=
  String.ofList (Uri.parse t).path = "/p" ∧ (listingQuery (queryPairs t)).2 = page

def AsksSearch (tokens : List Text) (page : ℕ) (t : Text) : Prop :=
  String.ofList (Uri.parse t).path = "/search" ∧ (listingQuery (queryPairs t)).2 = page ∧
    searched (listingQuery (queryPairs t)).1 = tokens

variable {env refuses settings db visitor clock}

theorem shownFor_index {k : ℕ} {t : Text} (h : String.ofList (Uri.parse t).path = "/p") :
    shownFor env refuses settings db visitor clock k t =
      some (indexShown settings db (requestFor visitor (clock k) t)) := by
  have hpath : (requestFor visitor (clock k) t).path = "/p" := h
  unfold shownFor
  rw [if_pos hpath]

theorem shownFor_search {k : ℕ} {t : Text} (h : String.ofList (Uri.parse t).path = "/search") :
    shownFor env refuses settings db visitor clock k t =
      searchShown env refuses settings db (requestFor visitor (clock k) t) := by
  have hpath : (requestFor visitor (clock k) t).path = "/search" := h
  have hne : (requestFor visitor (clock k) t).path ≠ "/p" := by
    rw [hpath]
    decide
  unfold shownFor
  rw [if_neg hne, if_pos hpath]

theorem path_target_index {query : Text} (h : '#' ∉ query) :
    String.ofList (Uri.parse (target "/p".toList query)).path = "/p" := by
  rw [target, (parse_target isPathChar_index h).1]
  rfl

theorem asksIndex_link {page : ℕ} (h : page < 2 ^ 63) :
    AsksIndex page (pageLink "/p" page).toList := by
  rw [AsksIndex, pageLink_index, queryPairs_index_link, listingQuery_page h]
  exact ⟨path_target_index (hash_not_mem_field isName_page _), rfl⟩

theorem numbered_index {n : ℕ} (hsize : 0 < settings.index_page_size) (hcount : n < 2 ^ 63)
    {listing : List Value} (hn : listing.length = n)
    (hlisting : ∀ k, indexListing db visitor.organization (clock k) = listing) :
    Numbered (shownFor env refuses settings db visitor clock) Shown.next Shown.previous
      (pageCount settings.index_page_size n) AsksIndex
      (fun page => ((page : ℤ), pageAt settings.index_page_size listing page, []))
      fun s => (s.page, s.rows, searched s.busqueda) := by
  apply numbered_of_shown hsize
  rintro k page t hfirst hlast ⟨hpath, hasked⟩
  have hlength : Pages.countPublished db visitor.organization (clock k) = n := by
    rw [← length_indexListing, hlisting, hn]
  have hclamp := clampPage_eq hsize hfirst hlast
  rw [← hlength, ← hasked] at hclamp
  refine ⟨indexShown settings db (requestFor visitor (clock k) t), shownFor_index hpath,
    hclamp.trans hasked, congrArg Nat.cast hlength, rfl, ?_, rfl, fun m hm => ?_⟩
  · rw [← window_eq_pageAt hfirst, ← hlisting k, ← listPaged_rows, ← hasked, ← hclamp]
    rfl
  · exact asksIndex_link (lt_of_le_of_lt (hm.trans (pageCount_le _ _)) (by omega))

theorem length_listingQuery_le (pairs : List (String × String)) :
    (listingQuery pairs).1.toList.length ≤ 200 := by
  induction pairs using List.reverseRecOn with
  | nil => exact Nat.zero_le _
  | append_singleton pairs pair ih =>
      rw [listingQuery, List.foldl_concat]
      split
      · rw [String.toList_ofList]
        exact List.length_take_le _ _
      · split
        · exact ih
        · exact ih

/-- FTS5 takes every expression that is read as a conjunction of strings. -/
def AcceptsStrings (refuses : String → Bool) : Prop :=
  ∀ (query : String) (texts : List Text),
    FtsQuery.Reads query.toList (.conjunction (texts.map FtsQuery.alone)) → refuses query = false

/-- A search for strings without a NUL is answered, with the terms it keeps. -/
theorem exists_hitsShown (env : Environment α) (settings : Settings) (db : ContentDb)
    (r : ReadRequest) {tokens : List Text}
    (haccepts : AcceptsStrings refuses)
    (hplain : ∀ text ∈ tokens, FtsQuery.IsPlain text)
    (htokens : searched (listingQuery r.pairs).1 = tokens) :
    ∃ terms, terms.toList.length ≤ 200 ∧ searched terms = tokens ∧
      searchShown env refuses settings db r =
        some (hitsShown env settings db r terms (listingQuery r.pairs).2) := by
  have haccepted : ∀ terms, searched terms = tokens →
      (ftsMatchQuery terms).any refuses = false := by
    intro terms hterms
    cases hquery : ftsMatchQuery terms with
    | none => rfl
    | some query =>
        exact haccepts query _ (reads_ftsMatchQuery hquery (hterms ▸ hplain))
  have hkept : searched (if (ftsMatchQuery (listingQuery r.pairs).1).isSome then
      (listingQuery r.pairs).1 else "") = tokens := by
    cases hquery : ftsMatchQuery (listingQuery r.pairs).1 with
    | none => exact (ftsMatchQuery_eq_none.mp hquery).symm.trans htokens
    | some query => exact htokens
  refine ⟨_, ?_, hkept, ?_⟩
  · split
    · exact length_listingQuery_le r.pairs
    · exact Nat.zero_le _
  · unfold searchShown
    dsimp only
    rw [haccepted _ hkept, if_neg Bool.false_ne_true]

theorem path_target_search {query : Text} (h : '#' ∉ query) :
    String.ofList (Uri.parse (target "/search".toList query)).path = "/search" := by
  rw [target, (parse_target isPathChar_search h).1]
  rfl

theorem hitsShown_rows (r : ReadRequest) {terms : String} {requested page : ℤ}
    (h : clampPage requested (max (pagesFor (searchCount env.fts db r.organization r.time terms
      false) settings.index_page_size) 1) = page) :
    (hitsShown env settings db r terms requested).rows =
      window settings.index_page_size ((page - 1) * settings.index_page_size)
        (searchListing env.fts db r.organization r.time terms) := by
  rw [← search_rows, ← h]
  rfl

theorem hitsShown_base {r : ReadRequest} {terms : String} {requested : ℤ} :
    (hitsShown env settings db r terms requested).base =
      String.ofList ("/search?".toList ++ queryField terms.toList) := rfl

theorem asksSearch_link {terms : String} {tokens : List Text} {page : ℕ}
    (hle : terms.toList.length ≤ 200) (hterms : searched terms = tokens) (h : page < 2 ^ 63) :
    AsksSearch tokens page (pageLink
      (String.ofList ("/search?".toList ++ queryField terms.toList)) page).toList := by
  rw [AsksSearch, pageLink_search, queryPairs_search_link, listingQuery_q_page _ h,
    String.ofList_toList, searched_asked hle]
  exact ⟨path_target_search (hash_not_mem_search_link _ _), rfl, hterms⟩

theorem numbered_search {n : ℕ} {tokens : List Text} (hsize : 0 < settings.index_page_size)
    (hcount : n < 2 ^ 63)
    (haccepts : AcceptsStrings refuses)
    (hplain : ∀ text ∈ tokens, FtsQuery.IsPlain text) {listing : List Value}
    (hn : listing.length = n)
    (hlisting : ∀ k terms, searched terms = tokens →
      searchListing env.fts db visitor.organization (clock k) terms = listing) :
    Numbered (shownFor env refuses settings db visitor clock) Shown.next Shown.previous
      (pageCount settings.index_page_size n) (AsksSearch tokens)
      (fun page => ((page : ℤ), pageAt settings.index_page_size listing page, tokens))
      fun s => (s.page, s.rows, searched s.busqueda) := by
  apply numbered_of_shown hsize
  rintro k page t hfirst hlast ⟨hpath, hasked, htokens⟩
  obtain ⟨terms, hle, hterms, hshown⟩ := exists_hitsShown env settings db
    (requestFor visitor (clock k) t) haccepts hplain htokens
  have hlength : searchCount env.fts db visitor.organization (clock k) terms false = n := by
    rw [← length_searchListing, hlisting k terms hterms, hn]
  have hclamp := clampPage_eq hsize hfirst hlast
  rw [← hlength, ← hasked] at hclamp
  refine ⟨hitsShown env settings db (requestFor visitor (clock k) t) terms
    (listingQuery (queryPairs t)).2, ?_, hclamp.trans hasked, congrArg Nat.cast hlength, rfl, ?_,
    hterms, fun m hm => ?_⟩
  · rw [shownFor_search hpath, hshown]
    rfl
  · rw [hitsShown_rows (requestFor visitor (clock k) t) (hclamp.trans hasked), ← window_eq_pageAt hfirst]
    exact congrArg _ (hlisting k terms hterms)
  · have hm' : m < 2 ^ 63 := lt_of_le_of_lt (hm.trans (pageCount_le _ _)) (by omega)
    rw [hitsShown_base]
    exact asksSearch_link hle hterms hm'

end Walk

/-! ## The whole listing -/

/-- Following the links from a target leads through all of a listing, there and back. -/
structure WalksWhole (shown : ℕ → Text → Option Shown) (start : Text) (listing : List Value)
    (size : ℕ) (tokens : List Text) (forth back : List (Text × Shown)) : Prop where
  follows : ∀ visited, Follows shown Shown.next 0 start visited ↔ visited = forth
  count : (forth.length : ℤ) = max (pagesFor listing.length size) 1
  numbers : (forth.map fun v => v.2.page) = (List.range' 1 forth.length).map Nat.cast
  rows : (forth.flatMap fun v => v.2.rows) = listing
  nodup : listing.Nodup
  searches : ∀ v ∈ forth, searched v.2.busqueda = tokens
  returns : ∃ v, forth.getLast? = some v ∧
    ∀ visited, Follows shown Shown.previous forth.length v.1 visited ↔ visited = back
  reversed : (back.map fun v => (v.2.page, v.2.rows)) =
    (forth.map fun v => (v.2.page, v.2.rows)).reverse

theorem exists_walksWhole {shown : ℕ → Text → Option Shown} {Asks : ℕ → Text → Prop}
    {size : ℕ} {start : Text} {listing : List Value} {tokens : List Text} (hsize : 0 < size)
    (hnodup : listing.Nodup)
    (h : Numbered shown Shown.next Shown.previous (pageCount size listing.length) Asks
      (fun page => ((page : ℤ), pageAt size listing page, tokens))
      fun s => (s.page, s.rows, searched s.busqueda))
    (hasks : Asks 1 start) :
    ∃ forth back, WalksWhole shown start listing size tokens forth back := by
  obtain ⟨forth, back, hforth, hlabels, ⟨v, hv, hback⟩, hreversed⟩ :=
    h.exists_walk (Nat.le_max_left _ _) hasks
  have hlength : forth.length = pageCount size listing.length := by
    have hlength := congrArg List.length hlabels
    rwa [List.length_map, List.length_map, List.length_range'] at hlength
  have hpages := congrArg (List.map Prod.fst) hlabels
  have hrows := congrArg (List.map fun label => label.2.1) hlabels
  have hshown := congrArg (List.map fun label => (label.1, label.2.1)) hreversed
  rw [List.map_reverse] at hshown
  simp only [List.map_map, Function.comp_def] at hpages hrows hshown
  refine ⟨forth, back, fun _ => hforth.iff_eq, ?_, ?_, ?_, hnodup, ?_,
    ⟨v, hv, fun _ => hback.iff_eq⟩, hshown⟩
  · rw [pagesFor_eq hsize, hlength]
  · rw [hpages, hlength]
  · rw [List.flatMap_def, hrows, ← List.flatMap_def, flatMap_pages hsize]
  · intro w hw
    have hlabel : (w.2.page, w.2.rows, searched w.2.busqueda) ∈ (List.range' 1 _).map _ :=
      hlabels ▸ List.mem_map.mpr ⟨w, hw, rfl⟩
    obtain ⟨_, _, heq⟩ := List.mem_map.mp hlabel
    exact (congrArg (fun label => label.2.2) heq).symm

/-! ## The page asked for -/

/-- The values of the `page` parameter. -/
def pageValues (pairs : List (String × String)) : List String :=
  (pairs.filter fun p => p.1 = "page").map Prod.snd

/-- One page of a listing, the nearest to the one asked for, with its offset in range. -/
structure ShowsNearest (listing : List Value) (size : ℕ) (pairs : List (String × String))
    (s : Shown) : Prop where
  total : s.total = listing.length
  first : 1 ≤ s.page
  last : s.page ≤ max (pagesFor listing.length size) 1
  rows : s.rows = pageAt size listing s.page.toNat
  nearest : ∀ value n, pageValues pairs = [value] → parseI64 value.toList = some n →
    ∀ page, 1 ≤ page → page ≤ max (pagesFor listing.length size) 1 →
      |s.page - n| ≤ |page - n|
  unread : ∀ value, pageValues pairs = [value] → parseI64 value.toList = none → s.page = 1
  offset_nonneg : 0 ≤ (s.page - 1) * size
  offset_lt : (s.page - 1) * size < 2 ^ 63

theorem listingQuery_snd (pairs : List (String × String)) :
    (listingQuery pairs).2 =
      (pageValues pairs).foldl (fun page value => (parseI64 value.toList).getD page) 1 := by
  induction pairs using List.reverseRecOn with
  | nil => rfl
  | append_singleton pairs p ih =>
      rw [listingQuery, List.foldl_concat, pageValues, List.filter_append, List.map_append,
        List.foldl_append, List.filter_singleton]
      by_cases hpage : p.1 = "page"
      · have hq : p.1 ≠ "q" := by
          rw [hpage]
          decide
        rw [if_neg hq, if_pos hpage, decide_eq_true hpage]
        exact congrArg (parseI64 p.2.toList).getD ih
      · rw [if_neg hpage, decide_eq_false hpage]
        split
        · exact ih
        · exact ih

theorem clampPage_nearest {n page last : ℤ} (hfirst : 1 ≤ page) (hlast : page ≤ max last 1) :
    |clampPage n (max last 1) - n| ≤ |page - n| := by
  unfold clampPage
  rcases abs_cases (page - n) with ⟨h, _⟩ | ⟨h, _⟩ <;> rw [h, abs_le] <;> omega

/-- A page that is there, with the rows of its window. -/
theorem showsNearest_of_window {s : Shown} {listing : List Value} {size : ℕ}
    {pairs : List (String × String)} (hsize : 0 < size) (hlength : listing.length < 2 ^ 63)
    (htotal : s.total = listing.length)
    (hpage : s.page = clampPage (listingQuery pairs).2 (max (pagesFor listing.length size) 1))
    (hrows : s.rows = window size ((s.page - 1) * size) listing) :
    ShowsNearest listing size pairs s := by
  have hfirst : 1 ≤ s.page := by
    rw [hpage, clampPage]
    omega
  have hlast : s.page ≤ max (pagesFor listing.length size) 1 := by
    rw [hpage, clampPage]
    omega
  obtain ⟨page, hnat⟩ := Int.eq_ofNat_of_zero_le (a := s.page) (by omega)
  rw [listingQuery_snd] at hpage
  refine ⟨htotal, hfirst, hlast, ?_, ?_, ?_, ?_, ?_⟩
  · rw [hrows, hnat, Int.toNat_natCast]
    exact window_eq_pageAt (by omega) listing
  · intro value n hvalues hvalue m hm hmlast
    rw [hpage, hvalues, List.foldl_cons, hvalue]
    exact clampPage_nearest hm hmlast
  · intro value hvalues hvalue
    rw [hpage, hvalues, List.foldl_cons, hvalue]
    exact clampPage_of_mem (Int.le_refl 1) (le_max_right _ 1)
  · exact mul_nonneg (by omega) (by omega)
  · rw [pagesFor_eq hsize, hnat, Nat.cast_le] at hlast
    rcases Nat.lt_or_ge 1 page with hmany | hone
    · have hoffset := mul_lt_of_le_pageCount hmany hlast
      have hcast : (s.page - 1) * size = ((page - 1) * size : ℕ) := by
        rw [hnat]
        push_cast [Nat.cast_sub hmany.le]
        rfl
      rw [hcast]
      exact_mod_cast hoffset.trans hlength
    · obtain rfl : page = 1 := by omega
      rw [hnat]
      norm_num

section

variable {α : Type*} [Field α] [LinearOrder α]

/-- The listing that a target names. -/
def listingOf (fts : Fts5 α) (db : ContentDb) (organization : String) (now : ℤ)
    (t : Text) : List Value :=
  if String.ofList (Uri.parse t).path = "/p" then indexListing db organization now
  else searchListing fts db organization now (listingQuery (queryPairs t)).1

/-- A target of a listing; the terms of a search have no NUL, which ends FTS5's text. -/
def IsListing (t : Text) : Prop :=
  String.ofList (Uri.parse t).path = "/p" ∨
    String.ofList (Uri.parse t).path = "/search" ∧
      ∀ c ∈ (listingQuery (queryPairs t)).1.toList, c.toNat ≠ 0

variable {env : Environment α} {refuses : String → Bool} {settings : Settings} {db : ContentDb}
  {visitor : ReadRequest} {clock : ℕ → ℤ}

theorem countPublished_le (db : ContentDb) (organization : String) (now : ℤ) :
    Pages.countPublished db organization now ≤ db.pages.rows.length := by
  rw [Pages.countPublished, Pages.listed, pagesOf, orgScope]
  refine (List.length_filter_le _ _).trans ?_
  rw [List.length_map]
  exact List.length_filter_le _ _

/-- Any request for a listing is answered with the page nearest to the one it asks for. -/
theorem exists_showsNearest (hsize : 0 < settings.index_page_size)
    (hcount : db.pages.rows.length < 2 ^ 63)
    (haccepts : AcceptsStrings refuses) (k : ℕ)
    {t : Text} (ht : IsListing t) :
    ∃ s, shownFor env refuses settings db visitor clock k t = some s ∧
      ShowsNearest (listingOf env.fts db visitor.organization (clock k) t)
        settings.index_page_size (queryPairs t) s := by
  have hle := (countPublished_le db visitor.organization (clock k)).trans_lt hcount
  rcases ht with hpath | ⟨hpath, hplain⟩
  · refine ⟨_, shownFor_index hpath, ?_⟩
    rw [listingOf, if_pos hpath]
    have hlength : (indexListing db visitor.organization (clock k)).length = _ :=
      length_indexListing
    refine showsNearest_of_window hsize (hlength ▸ hle) (congrArg Nat.cast hlength.symm) ?_ ?_
    · rw [hlength]
      rfl
    · exact listPaged_rows _ _
  · obtain ⟨terms, -, hterms, hshown⟩ := exists_hitsShown env settings db
      (requestFor visitor (clock k) t) haccepts (isPlain_searched hplain) rfl
    have hne : String.ofList (Uri.parse t).path ≠ "/p" := by
      rw [hpath]
      decide
    have hlisting : searchListing env.fts db visitor.organization (clock k)
        (listingQuery (queryPairs t)).1 =
        searchListing env.fts db visitor.organization (clock k) terms :=
      searchListing_congr rfl hterms.symm
    have hlength : (searchListing env.fts db visitor.organization (clock k) terms).length = _ :=
      length_searchListing
    refine ⟨_, (shownFor_search hpath).trans hshown, ?_⟩
    rw [listingOf, if_neg hne, hlisting]
    refine showsNearest_of_window hsize (length_searchListing_le.trans_lt hle)
      (congrArg Nat.cast hlength.symm) ?_ ?_
    · rw [hlength]
      rfl
    · exact hitsShown_rows _ rfl

/-- **The links walk the whole listing.** From `/p`, and from `/search` with any query without a
NUL, the next links lead through all pages of the listing, with the search's tokens kept, and the
previous links lead back; and a request for a page is answered with the nearest one there is. -/
theorem listings_walked (env : Environment α) (refuses : String → Bool) (settings : Settings)
    (db : ContentDb) (visitor : ReadRequest) (clock : ℕ → ℤ)
    (hsize : 0 < settings.index_page_size)
    -- no schedule elapses on the way
    (hfixed : ∀ k, Pages.listed db visitor.organization (clock k) false =
      Pages.listed db visitor.organization (clock 0) false)
    -- SQLite counts in `i64`
    (hcount : db.pages.rows.length < 2 ^ 63)
    (haccepts : AcceptsStrings refuses) :
    (∃ forth back, WalksWhole (shownFor env refuses settings db visitor clock) "/p".toList
      (indexListing db visitor.organization (clock 0)) settings.index_page_size [] forth back) ∧
    (∀ q : String, (∀ c ∈ q.toList, c.toNat ≠ 0) → ∃ forth back,
      WalksWhole (shownFor env refuses settings db visitor clock)
        (target "/search".toList (queryField q.toList))
        (searchListing env.fts db visitor.organization (clock 0) (asked q))
        settings.index_page_size (searched (asked q)) forth back) ∧
    ∀ k t, IsListing t → ∃ s, shownFor env refuses settings db visitor clock k t = some s ∧
      ShowsNearest (listingOf env.fts db visitor.organization (clock k) t)
        settings.index_page_size (queryPairs t) s := by
  have hle := (countPublished_le db visitor.organization (clock 0)).trans_lt hcount
  refine ⟨?_, fun q hq => ?_, fun k t ht => exists_showsNearest hsize hcount haccepts k ht⟩
  · refine exists_walksWhole hsize nodup_indexListing (numbered_index hsize ?_ rfl fun k => ?_) ?_
    · rwa [length_indexListing]
    · rw [indexListing, indexListing, hfixed k]
    · exact ⟨rfl, rfl⟩
  · have hplain : ∀ c ∈ (asked q).toList, c.toNat ≠ 0 := fun c hc => hq c (mem_of_mem_asked hc)
    refine exists_walksWhole hsize nodup_searchListing (numbered_search hsize
      (length_searchListing_le.trans_lt hle) haccepts (isPlain_searched hplain) rfl
      fun k terms hterms => searchListing_congr (hfixed k) hterms) ?_
    have hquery : listingQuery (queryPairs (target "/search".toList (queryField q.toList))) =
        (asked q, 1) := by
      rw [queryPairs_search_start, listingQuery_q, String.ofList_toList]
    rw [AsksSearch, hquery]
    exact ⟨path_target_search (hash_not_mem_field isName_q _), rfl, rfl⟩

/-- The expressions that are not read. -/
noncomputable def unread (query : String) : Bool :=
  @decide (¬∃ expr, FtsQuery.Reads query.toList expr) (Classical.propDecidable _)

theorem accepts_unread : AcceptsStrings unread :=
  fun _ _ hreads => @decide_eq_false _ (Classical.propDecidable _) (not_not_intro ⟨_, hreads⟩)

/-- Seven pages, three at a time, as the clock goes on. -/
theorem listings_walked_seven :
    (∃ forth back, WalksWhole (shownFor plainEnvironment unread
        { plainSettings with index_page_size := 3 } (sharedIndexDb "alfa")
        { visit "a" with organization := "beta" } fun k => k) "/p".toList
      (indexListing (sharedIndexDb "alfa") "beta" 0) 3 [] forth back) ∧
    ∃ forth back, WalksWhole (shownFor plainEnvironment unread
        { plainSettings with index_page_size := 3 } (sharedIndexDb "alfa")
        { visit "a" with organization := "beta" } fun k => k)
      (target "/search".toList (queryField " alfa \"x y\"&".toList))
      (searchListing sqliteFts5 (sharedIndexDb "alfa") "beta" 0 (asked " alfa \"x y\"&")) 3
      (searched (asked " alfa \"x y\"&")) forth back := by
  obtain ⟨hindex, hsearch, -⟩ := listings_walked plainEnvironment unread
    { plainSettings with index_page_size := 3 } (sharedIndexDb "alfa")
    { visit "a" with organization := "beta" } (fun k => k) (by decide) (fun k => rfl)
    (by decide) accepts_unread
  exact ⟨hindex, hsearch " alfa \"x y\"&" (forall_mem_of_all (by decide))⟩

end

end Wallermax.Content
