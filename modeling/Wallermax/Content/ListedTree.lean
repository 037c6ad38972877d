import Wallermax.Base.ForestWalk
import Wallermax.Content.PageTree
import Wallermax.Content.PanelPages

/-!
# The listed tree

The panel shows the pages as a tree: the listing and the parents a form offers walk down
from the top level through the pages that `list` returns. These are the most recently
updated ones, so a page may be listed without its parent, and the walk does not come to it.
-/

namespace Wallermax.Content

open Wallermax.Base
open Wallermax.Storage

section

variable (db : ContentDb) (organization : String)

/-- Fewer pages than a listing shows come before this one. -/
def Recent (p : ℕ × Page) : Prop :=
  ((pagesOf db organization).countP fun q => ¬NewestFirst p q) < maxListed.toNat

/-- A page that is recent enough for the listing has a parent that is, or none. -/
def ParentsRecent : Prop :=
  ∀ p ∈ pagesOf db organization, Recent db organization p → ∀ i, p.2.parent_id = some i →
    ∃ q ∈ pagesOf db organization, q.1 = i ∧ Recent db organization q

/-- The page is the excluded one or below it. -/
def InBranch (exclude : Option ℤ) (i : ℕ) : Prop :=
  ∃ n j, climb (parentIn db organization) n i = some j ∧ some (j : ℤ) = exclude

/-- The rows are the listed pages, each once and behind its parent, and the options are
those outside the excluded branch. -/
structure AllListed (now : ℤ) : Prop where
  rows : ∃ entries : List (PageSummary × ℕ),
    pageTree db organization now (fun _ => true) (pageRow now) =
        entries.map (fun e => pageRow now e.1 e.2) ∧
      (entries.map Prod.fst).Perm (Pages.list db organization now true maxListed) ∧
      ParentsFirst PageSummary.id PageSummary.parent_id entries
  options : ∀ exclude, ∃ entries : List (PageSummary × ℕ),
    parentOptions db organization now exclude =
        entries.map (fun e => parentOption e.1 e.2) ∧
      (entries.map Prod.fst).Nodup ∧
      ∀ page, page ∈ entries.map Prod.fst ↔
        page ∈ Pages.list db organization now true maxListed ∧
          ¬InBranch db organization exclude page.id

end

variable {db : ContentDb} {organization : String} {now : ℤ}

/-! ## The window of the listing -/

instance : Std.Total NewestFirst where
  total p q := by
    unfold NewestFirst
    omega

instance : IsTrans (ℕ × Page) NewestFirst where
  trans p q r := by
    unfold NewestFirst
    omega

/-- **Which pages are listed**: the recent ones. -/
theorem mem_list_iff {page : PageSummary} :
    page ∈ Pages.list db organization now true maxListed ↔
      ∃ p ∈ pagesOf db organization, Recent db organization p ∧ summary p = page := by
  have hall : Pages.listed db organization now true = pagesOf db organization := by
    simp [Pages.listed]
  have hnodup : (pagesOf db organization).Nodup := List.Nodup.of_map _ (orgScope_ids_nodup _)
  have hanti : ∀ p ∈ pagesOf db organization, ∀ q ∈ pagesOf db organization,
      NewestFirst p q → NewestFirst q p → p = q := by
    rintro ⟨i, v⟩ hp ⟨j, w⟩ hq hpq hqp
    obtain rfl : i = j := by
      unfold NewestFirst at hpq hqp
      omega
    rw [orgScope_inj hp hq]
  have hwindow : Pages.list db organization now true maxListed =
      (((pagesOf db organization).insertionSort NewestFirst).take maxListed.toNat).map
        summary := by
    rw [Pages.list, hall]
    rfl
  rw [hwindow, List.mem_map]
  refine exists_congr fun p => ?_
  constructor
  · rintro ⟨hmem, rfl⟩
    have hp := (List.perm_insertionSort _ _).mem_iff.mp (List.mem_of_mem_take hmem)
    exact ⟨hp, (mem_take_insertionSort_iff hnodup hanti hp).mp hmem, rfl⟩
  · rintro ⟨hp, hrecent, rfl⟩
    exact ⟨(mem_take_insertionSort_iff hnodup hanti hp).mpr hrecent, rfl⟩

theorem parentClosed_list_iff : ParentClosed PageSummary.id PageSummary.parent_id
    (Pages.list db organization now true maxListed) ↔ ParentsRecent db organization := by
  constructor
  · intro h p hp hrecent i hparent
    obtain ⟨u, hu, rfl⟩ := h _ (mem_list_iff.mpr ⟨p, hp, hrecent, rfl⟩) i hparent
    obtain ⟨q, hq, hrecent', rfl⟩ := mem_list_iff.mp hu
    exact ⟨q, hq, rfl, hrecent'⟩
  · intro h v hv i hparent
    obtain ⟨p, hp, hrecent, rfl⟩ := mem_list_iff.mp hv
    obtain ⟨q, hq, rfl, hrecent'⟩ := h p hp hrecent i hparent
    exact ⟨summary q, mem_list_iff.mpr ⟨q, hq, hrecent', rfl⟩, rfl⟩

theorem parentIn_of_listed {page : PageSummary}
    (h : page ∈ Pages.list db organization now true maxListed) :
    parentIn db organization page.id = page.parent_id := by
  obtain ⟨⟨i, v⟩, hp, -, rfl⟩ := mem_list_iff.mp h
  obtain ⟨o, ho, hrow⟩ := mem_orgScope.mp hp
  have hfind : Pages.findById db organization i = some (i, v) := findById_of_mem ho hrow
  show parentIn db organization i = v.parent_id
  rw [parentIn, hfind, Option.bind_some]

/-! ## The walk -/

theorem walkTree_eq {pages : List PageSummary} {keep : PageSummary → Bool}
    {row : PageSummary → ℕ → Value} {fuel depth : ℕ} {parent : Option ℕ} :
    walkTree pages keep row fuel parent depth =
      (walk PageSummary.id PageSummary.parent_id keep pages fuel parent depth).map
        fun e => row e.1 e.2 := by
  induction fuel generalizing parent depth with
  | zero => rfl
  | succ fuel ih => simp only [walkTree, walk, List.map_flatMap, List.map_cons, ih]

section Entries

variable (db organization now) (kept : ℕ → Bool)

/-- The listed pages in the order of the tree. -/
def treePages : List PageSummary :=
  (Pages.list db organization now true maxListed).insertionSort TreeOrder

def treeEntries : List (PageSummary × ℕ) :=
  walk PageSummary.id PageSummary.parent_id (fun page => kept page.id)
    (treePages db organization now) (treePages db organization now).length none 0

variable {db organization now kept}

theorem mem_treePages {page : PageSummary} : page ∈ treePages db organization now ↔
    page ∈ Pages.list db organization now true maxListed :=
  (List.perm_insertionSort _ _).mem_iff

theorem pageTree_eq_entries (kept : ℕ → Bool) (row : PageSummary → ℕ → Value) :
    pageTree db organization now (fun page => kept page.id) row =
      (treeEntries db organization now kept).map fun e => row e.1 e.2 :=
  walkTree_eq

theorem treePages_keys : ∀ u ∈ treePages db organization now,
    ∀ v ∈ treePages db organization now, u.id = v.id → u = v := by
  intro u hu v hv h
  exact List.inj_on_of_nodup_map Pages.list_ids_nodup (mem_treePages.mp hu)
    (mem_treePages.mp hv) h

theorem nodup_treeEntries : ((treeEntries db organization now kept).map Prod.fst).Nodup :=
  nodup_walk_top treePages_keys
    ((List.perm_insertionSort _ _).nodup_iff.mpr (List.Nodup.of_map _ Pages.list_ids_nodup))

/-- **What the tree shows** where the listed pages have their parents with them: all but
what is not kept, with everything below it. -/
theorem mem_treeEntries (hclosed : ParentsRecent db organization)
    (hforest : Forest (parentIn db organization)) {page : PageSummary} :
    page ∈ (treeEntries db organization now kept).map Prod.fst ↔
      page ∈ Pages.list db organization now true maxListed ∧
        ∀ n j, climb (parentIn db organization) n page.id = some j → kept j = true := by
  have hlink : ∀ v ∈ treePages db organization now,
      parentIn db organization v.id = v.parent_id :=
    fun v hv => parentIn_of_listed (mem_treePages.mp hv)
  have hclosed' : ParentClosed PageSummary.id PageSummary.parent_id
      (treePages db organization now) := by
    intro v hv i hparent
    obtain ⟨u, hu, hid⟩ := parentClosed_list_iff.mpr hclosed v (mem_treePages.mp hv) i hparent
    exact ⟨u, mem_treePages.mpr hu, hid⟩
  rw [treeEntries, mem_walk_top treePages_keys, ← mem_treePages]
  constructor
  · rintro ⟨k, h⟩
    exact ⟨h.mem.1, fun n j hclimb => h.kept_above hlink hclimb⟩
  · rintro ⟨hpage, hkept⟩
    exact hclosed'.reached hlink hpage (hforest page.id) hkept

end Entries

/-- A page that is shown has its parent with it. -/
theorem AllListed.parentsRecent (h : AllListed db organization now) :
    ParentsRecent db organization := by
  obtain ⟨⟨entries, -, hperm, hfirst⟩, -⟩ := h
  have hclosed : ParentClosed PageSummary.id PageSummary.parent_id
      (Pages.list db organization now true maxListed) := by
    intro v hv i hparent
    obtain ⟨⟨v, d⟩, hmem, rfl⟩ := List.mem_map.mp (hperm.mem_iff.mpr hv)
    -- the parent stands before its child, so it was listed
    obtain ⟨front, back, rfl⟩ := List.append_of_mem hmem
    obtain ⟨u, e, hu, hid, -⟩ := hfirst front back v d i rfl hparent
    have hu := List.mem_map_of_mem (f := Prod.fst) (List.mem_append_left ((v, d) :: back) hu)
    exact ⟨u, hperm.mem_iff.mp hu, hid⟩
  exact parentClosed_list_iff.mp hclosed

/-- **All listed pages are shown** exactly where the recent pages have recent parents. -/
theorem allListed_iff (hforest : Forest (parentIn db organization)) :
    AllListed db organization now ↔ ParentsRecent db organization := by
  constructor
  · exact AllListed.parentsRecent
  · intro hclosed
    constructor
    · -- the listing keeps every page
      refine ⟨treeEntries db organization now fun _ => true,
        pageTree_eq_entries (fun _ => true) _, ?_, parentsFirst_walk⟩
      rw [List.perm_ext_iff_of_nodup nodup_treeEntries
        (List.Nodup.of_map _ Pages.list_ids_nodup)]
      intro page
      rw [mem_treeEntries hclosed hforest]
      exact and_iff_left fun _ _ _ => rfl
    · intro exclude
      -- the options leave a page out, and with it what hangs below
      refine ⟨treeEntries db organization now fun i => some (i : ℤ) != exclude,
        pageTree_eq_entries (fun i => some (i : ℤ) != exclude) _, nodup_treeEntries, ?_⟩
      intro page
      rw [mem_treeEntries hclosed hforest]
      refine and_congr_right fun _ => ?_
      constructor
      · rintro hkept ⟨n, j, hclimb, hexclude⟩
        have hne := hkept n j hclimb
        simp [hexclude] at hne
      · intro hout n j hclimb
        rw [bne_iff_ne]
        exact fun hexclude => hout ⟨n, j, hclimb, hexclude⟩

/-! ## A parent that is not listed -/

/-- A page has an earlier one as its parent, or none. -/
theorem forest_of_earlier (h : ∀ p ∈ pagesOf db organization, ∀ i, p.2.parent_id = some i →
    i < p.1) : Forest (parentIn db organization) := by
  intro i
  induction i using Nat.strong_induction_on with
  | _ i ih =>
      cases hfind : Pages.findById db organization i with
      | none =>
          apply Rooted.of_none
          rw [parentIn, hfind, Option.bind_none]
      | some p =>
          obtain ⟨hp, hid⟩ := Pages.findById_some hfind
          obtain rfl : p.1 = i := Int.ofNat_inj.mp hid
          have hup : parentIn db organization p.1 = p.2.parent_id := by
            rw [parentIn, hfind, Option.bind_some]
          cases hparent : p.2.parent_id with
          | none => exact .of_none (hup.trans hparent)
          | some j => exact .of_up (hup.trans hparent) (ih j (h p hp j hparent))

/-- Two letters for a number below 390. -/
def letters (k : ℕ) : String :=
  String.ofList [Char.ofNat (97 + k / 15), Char.ofNat (97 + k % 15)]

theorem letters_inj {k l : ℕ} (hk : k < 390) (hl : l < 390) (h : letters k = letters l) :
    k = l := by
  have htoNat : ∀ n < 26, (Char.ofNat (97 + n)).toNat = 97 + n := by decide
  obtain ⟨hfirst, hsecond⟩ := List.cons.inj (String.ofList_inj.mp h)
  have hfirst := congrArg Char.toNat hfirst
  have hsecond := congrArg Char.toNat (List.cons.inj hsecond).1
  rw [htoNat _ (by omega), htoNat _ (by omega)] at hfirst hsecond
  omega

/-- The second page is under the first; no other page has a parent. -/
def crowdPage (k : ℕ) : Page where
  slug := letters k
  title := "t"
  content := ""
  is_published := true
  created_by := none
  created_at := 10
  updated_at := 10
  parent_id := if k = 1 then some 1 else none
  position := 0
  meta_title := none
  meta_description := none
  og_image := none
  body_format := .jhs
  publish_at := none

def crowdRows : List (ℕ × Owned Page) :=
  (List.range 201).map fun k => (k + 1, ⟨1, crowdPage k⟩)

theorem mem_crowdRows {i : ℕ} {v : Owned Page} : (i, v) ∈ crowdRows ↔
    ∃ k < 201, i = k + 1 ∧ v = ⟨1, crowdPage k⟩ := by
  simp [crowdRows, eq_comm]

/-- An organization with 201 pages, all updated at one time. -/
def crowd : ContentDb :=
  { emptySite with
    pages :=
      { rows := crowdRows
        seq := 201
        ids_nodup := by decide +kernel
        ids_le_seq := by
          rintro ⟨i, v⟩ hr
          obtain ⟨k, hk, rfl, -⟩ := mem_crowdRows.mp hr
          exact hk
        checked := fun _ _ => rfl
        unique := by
          rw [crowdRows, List.pairwise_map]
          refine List.Pairwise.imp_of_mem ?_ List.pairwise_lt_range
          intro k l hk hl hlt
          apply ownedCollides_of_collides_false
          rw [Kind.collides, beq_eq_false_iff_ne]
          intro h
          have hkl := letters_inj (by simp at hk; omega) (by simp at hl; omega) h
          omega } }

theorem forest_crowd : Forest (parentIn crowd "acme") := by
  apply forest_of_earlier
  rintro ⟨i, page⟩ hp j hparent
  obtain ⟨o, -, hrow⟩ := mem_orgScope.mp hp
  obtain ⟨k, -, rfl, hpage⟩ := mem_crowdRows.mp hrow
  obtain rfl : page = crowdPage k := congrArg Owned.columns hpage
  simp only [crowdPage] at hparent
  split at hparent
  · cases hparent
    simp_all
  · cases hparent

theorem allListed_crowd : AllListed crowd "acme" 10 ↔ ParentsRecent crowd "acme" :=
  allListed_iff forest_crowd

/-- The first page is not listed; the second is, and is not shown. -/
theorem crowd_hides_page : Forest (parentIn crowd "acme") ∧ ¬AllListed crowd "acme" 10 := by
  refine ⟨forest_crowd, fun h => ?_⟩
  have hrecent : ((pagesOf crowd "acme").countP fun q =>
      ¬NewestFirst (2, crowdPage 1) q) < 200 := by decide +kernel
  have hold : ¬((pagesOf crowd "acme").countP fun q =>
      ¬NewestFirst (1, crowdPage 0) q) < 200 := by decide +kernel
  have hmem : ∀ k < 201, (k + 1, crowdPage k) ∈ pagesOf crowd "acme" :=
    fun k hk => mem_orgScope.mpr ⟨1, rfl, mem_crowdRows.mpr ⟨k, hk, rfl, rfl⟩⟩
  obtain ⟨⟨i, page⟩, hq, hid, hrecent'⟩ :=
    h.parentsRecent (2, crowdPage 1) (hmem 1 (by decide)) hrecent 1 rfl
  obtain rfl : i = 1 := hid
  obtain rfl : page = crowdPage 0 := orgScope_inj hq (hmem 0 (by decide))
  exact hold hrecent'

end Wallermax.Content
