import Wallermax.Base.Runs
import Wallermax.Content.Ancestors
import Wallermax.Content.Effects

/-!
# The page tree

`parent_id` as parent pointers. Every page's parent is a page of the same
organization; that the pointers form a forest is the move guard's work, whose
walk reads `maxAncestorHops` pages and the first of them is the new parent
itself. A page that far above its new parent is out of the guard's sight.
-/

namespace Wallermax.Content

open Wallermax.Base
open Wallermax.Accounts
open Wallermax.Storage
open Wallermax.Tenants

/-- `parent_id` of the page with this id. -/
def parentOf (db : ContentDb) (i : ℕ) : Option ℕ :=
  (db.pages.find? fun j _ => j == i).bind fun r => r.2.columns.parent_id

/-- Every page's parent is a page of its organization. -/
def ParentsAtHome (db : ContentDb) : Prop :=
  ∀ i v j, (i, v) ∈ db.pages.rows → v.columns.parent_id = some j →
    ∃ w, (j, w) ∈ db.pages.rows ∧ w.organization_id = v.organization_id

section Parents

variable {db db' : ContentDb} {i j : ℕ} {v : Owned Page}

theorem parentOf_of_mem (h : (i, v) ∈ db.pages.rows) :
    parentOf db i = v.columns.parent_id := by
  have hfind : db.pages.find? (fun k _ => k == i) = some (i, v) :=
    Table.find?_eq_some h (by simp) (by simp)
  rw [parentOf, hfind, Option.bind_some]

theorem parentOf_of_not_mem (h : ∀ v, (i, v) ∉ db.pages.rows) : parentOf db i = none := by
  unfold parentOf
  cases hfind : db.pages.find? fun k _ => k == i with
  | none => rfl
  | some r =>
      obtain ⟨v, hmem⟩ := Table.exists_of_find?_id (Option.isSome_iff_exists.mpr ⟨r, hfind⟩)
      exact absurd hmem (h v)

/-- A climb stays among the pages of one organization. -/
theorem climb_mem (hhome : ParentsAtHome db) {n : ℕ} (hi : (i, v) ∈ db.pages.rows)
    (h : climb (parentOf db) n i = some j) :
    ∃ w, (j, w) ∈ db.pages.rows ∧ w.organization_id = v.organization_id := by
  induction n generalizing i v with
  | zero =>
      obtain rfl : i = j := Option.some.inj h
      exact ⟨v, hi, rfl⟩
  | succ n ih =>
      rw [climb_succ] at h
      obtain ⟨k, hk, h⟩ := Option.bind_eq_some_iff.mp h
      rw [parentOf_of_mem hi] at hk
      obtain ⟨u, hu, howner⟩ := hhome i v k hi hk
      obtain ⟨w, hw, heq⟩ := ih hu h
      exact ⟨w, hw, heq.trans howner⟩

end Parents

/-! ## What the guard sees -/

section Guard

variable {db : ContentDb} {organization : String}

theorem findById_of_mem {i o : ℕ} {page : Page} (ho : db.owner organization = some o)
    (h : (i, ⟨o, page⟩) ∈ db.pages.rows) :
    Pages.findById db organization i = some (i, page) := by
  have hmem : (i, page) ∈ pagesOf db organization := mem_orgScope.mpr ⟨o, ho, h⟩
  cases hfind : Pages.findById db organization i with
  | none =>
      have := List.find?_eq_none.mp hfind _ hmem
      simp at this
  | some q =>
      obtain ⟨j, other⟩ := q
      obtain ⟨hq, hid⟩ := Pages.findById_some hfind
      obtain rfl : j = i := Int.ofNat_inj.mp hid
      rw [orgScope_inj hmem hq]

/-- Among pages with their parents at home the links of the organization are the
links of the table. -/
theorem climb_parentIn (hhome : ParentsAtHome db) {o i n : ℕ} {page : Page}
    (ho : db.owner organization = some o) (hi : (i, ⟨o, page⟩) ∈ db.pages.rows) :
    climb (parentIn db organization) n i = climb (parentOf db) n i := by
  induction n generalizing i page with
  | zero => rfl
  | succ n ih =>
      have hup : parentIn db organization i = page.parent_id := by
        simp [parentIn, findById_of_mem ho hi]
      rw [climb_succ, climb_succ, hup, parentOf_of_mem hi]
      cases hparent : page.parent_id with
      | none => rfl
      | some m =>
          obtain ⟨⟨o', above⟩, habove, howner⟩ := hhome i ⟨o, page⟩ m hi hparent
          obtain rfl : o' = o := howner
          exact ih habove

/-- **What the move guard is worth**: the page is not among those fewer than
`maxAncestorHops` links above the new parent. -/
theorem climb_ne_of_moveGuard (hhome : ParentsAtHome db) {id parent n : ℕ}
    (hguard : moveGuard db organization id (some (parent : ℤ)) = none)
    (hn : n < maxAncestorHops) : climb (parentOf db) n parent ≠ some id := by
  intro h
  obtain ⟨hne, hfound, hancestors⟩ := moveGuard_none hguard
  obtain ⟨⟨j, page⟩, hpage⟩ := Option.isSome_iff_exists.mp hfound
  obtain ⟨hmem, hid⟩ := Pages.findById_some hpage
  obtain rfl : j = parent := Int.ofNat_inj.mp hid
  obtain ⟨o, ho, hrow⟩ := mem_orgScope.mp hmem
  obtain ⟨⟨o', other⟩, hother, howner⟩ := climb_mem hhome hrow h
  obtain rfl : o' = o := howner
  have hwalk : (id, other) ∈
      Pages.ancestorsLoop db organization j maxAncestorHops j [] :=
    mem_ancestorsLoop.mpr (.inr ⟨fun heq => hne heq.symm, n, hn,
      (climb_parentIn hhome ho hrow).trans h, findById_of_mem ho hother⟩)
  exact hancestors (summary (id, other)) (List.mem_map_of_mem hwalk) rfl

end Guard

/-! ## One lemma a write -/

/-- The pages form a tree in every organization. -/
structure PageForest (db : ContentDb) : Prop where
  home : ParentsAtHome db
  forest : Forest (parentOf db)

section Writes

variable {max_revisions : ℕ} {db db' : ContentDb} {organization : String} {now : ℤ}

theorem PageForest.of_pages (h : PageForest db) (hpages : db'.pages = db.pages) :
    PageForest db' := by
  have hparent : parentOf db' = parentOf db := by
    funext i
    rw [parentOf, parentOf, hpages]
  exact
    { home := by
        unfold ParentsAtHome
        rw [hpages]
        exact h.home
      forest := hparent ▸ h.forest }

/-- A parent the lookup finds is a page of the organization. -/
theorem row_of_findById {o q : ℕ} (ho : db.owner organization = some o)
    (h : (Pages.findById db organization q).isSome) :
    ∃ page, (q, ⟨o, page⟩) ∈ db.pages.rows := by
  obtain ⟨⟨j, page⟩, hfind⟩ := Option.isSome_iff_exists.mp h
  obtain ⟨hmem, hid⟩ := Pages.findById_some hfind
  obtain rfl : j = q := Int.ofNat_inj.mp hid
  obtain ⟨o', ho', hrow⟩ := mem_orgScope.mp hmem
  obtain rfl : o = o' := Option.some.inj (ho.symm.trans ho')
  exact ⟨page, hrow⟩

/-- The tables of pages differ in one row, which keeps its owner. -/
structure RowWritten (db db' : ContentDb) (k : ℕ) (v : Owned Page) : Prop where
  written : (k, v) ∈ db'.pages.rows
  others : ∀ j w, j ≠ k → ((j, w) ∈ db'.pages.rows ↔ (j, w) ∈ db.pages.rows)
  owner : ∀ w, (k, w) ∈ db.pages.rows → w.organization_id = v.organization_id

theorem RowWritten.parentOf {k : ℕ} {v : Owned Page} (h : RowWritten db db' k v) :
    parentOf db' = Function.update (parentOf db) k v.columns.parent_id := by
  funext j
  by_cases hj : j = k
  · subst hj
    rw [Function.update_self]
    exact parentOf_of_mem h.written
  · rw [Function.update_of_ne hj]
    by_cases hmem : ∃ w, (j, w) ∈ db.pages.rows
    · obtain ⟨w, hw⟩ := hmem
      rw [parentOf_of_mem hw]
      exact parentOf_of_mem ((h.others j w hj).mpr hw)
    · push Not at hmem
      rw [parentOf_of_not_mem hmem]
      exact parentOf_of_not_mem fun w hw => hmem w ((h.others j w hj).mp hw)

/-- The row hangs under a page that is there and that it does not stand above. -/
theorem PageForest.hung {k : ℕ} {v : Owned Page} (h : PageForest db)
    (hw : RowWritten db db' k v)
    (hparent : ∀ q, v.columns.parent_id = some q →
      ∃ w, (q, w) ∈ db.pages.rows ∧ w.organization_id = v.organization_id)
    (hloop : ∀ q n, v.columns.parent_id = some q → climb (parentOf db) n q ≠ some k) :
    PageForest db' := by
  constructor
  · -- a parent is a row of the old table, and the write keeps its owner
    have hkept : ∀ {j o : ℕ}, (∃ w, (j, w) ∈ db.pages.rows ∧ w.organization_id = o) →
        ∃ w, (j, w) ∈ db'.pages.rows ∧ w.organization_id = o := by
      rintro j o ⟨w, hmem, howner⟩
      by_cases hj : j = k
      · subst hj
        exact ⟨v, hw.written, (hw.owner w hmem).symm.trans howner⟩
      · exact ⟨w, (hw.others j w hj).mpr hmem, howner⟩
    intro j u q hj hq
    apply hkept
    by_cases hself : j = k
    · subst hself
      obtain rfl := Table.eq_of_mem hw.written hj
      exact hparent q hq
    · exact h.home j u q ((hw.others j u hself).mp hj) hq
  · rw [hw.parentOf]
    cases hq : v.columns.parent_id with
    | none => exact h.forest.unhang
    | some q => exact h.forest.hang fun n => hloop q n hq

/-- A new page goes under a page that is there already. -/
theorem forest_pageCreated (h : PageForest db) {page : NewPage} {id : ℕ}
    (hparent : ∀ q, page.parent_id = some q → (Pages.findById db organization q).isSome)
    (hcreate : Pages.create max_revisions db organization page now = .ok (db', id)) :
    PageForest db' := by
  obtain ⟨o, pages, revisions, ho, hpages, hdb, _⟩ := Pages.create_ok hcreate
  obtain rfl : db'.pages = pages := by rw [hdb]
  have hrows := Constrained.rows_insert? hpages
  have habove : ∀ q, page.parent_id = some q → ∃ above, (q, ⟨o, above⟩) ∈ db.pages.rows :=
    fun q hq => row_of_findById ho (hparent q hq)
  apply h.hung (k := db.pages.nextId) (v := ⟨o, Pages.columns page now⟩)
  · constructor
    · simp [hrows]
    · intro j w hj
      simp [hrows, hj]
    · intro w hw
      exact absurd hw Table.not_mem_nextId
  · intro q hq
    obtain ⟨above, hmem⟩ := habove q hq
    exact ⟨_, hmem, rfl⟩
  · intro q n hq hn
    obtain ⟨above, hmem⟩ := habove q hq
    obtain ⟨w, hw, _⟩ := climb_mem h.home hmem hn
    exact Table.not_mem_nextId hw

/-- What a save does to the table of pages. -/
theorem rowWritten_of_update {p : ℕ × Page} {update : PageUpdate}
    (hupdate : Pages.update max_revisions db organization p.1 update now = .ok (some db')) :
    ∃ o current, db.owner organization = some o ∧
      RowWritten db db' p.1 ⟨o, Pages.apply update now current⟩ := by
  obtain ⟨i, current, o, pages, revisions, hfind, ho, hpages, hdb, _⟩ :=
    Pages.update_ok hupdate
  obtain rfl : db'.pages = pages := by rw [hdb]
  obtain ⟨hcurrent, hid⟩ := Pages.findById_some hfind
  obtain rfl : i = p.1 := Int.ofNat_inj.mp hid
  obtain ⟨o', ho', hrow⟩ := mem_orgScope.mp hcurrent
  obtain rfl : o = o' := Option.some.inj (ho.symm.trans ho')
  refine ⟨o, current, ho, ?_⟩
  have htable := Constrained.update?_some hpages
  constructor
  · rw [htable]
    exact Table.mem_update.mpr ⟨_, hrow, by simp⟩
  · intro j w hj
    rw [htable, Table.mem_update]
    simp [hj]
  · intro w hw
    obtain rfl := Table.eq_of_mem hrow hw
    rfl

/-- A saved page goes where it is not above its new parent. -/
theorem forest_pageSaved (h : PageForest db) {p : ℕ × Page} {update : PageUpdate}
    (hguard : moveGuard db organization p.1 update.parent = none)
    (hdeep : ∀ q n, update.parent_id = some q → maxAncestorHops ≤ n →
      climb (parentOf db) n q ≠ some p.1)
    (hupdate : Pages.update max_revisions db organization p.1 update now = .ok (some db')) :
    PageForest db' := by
  obtain ⟨o, current, ho, hw⟩ := rowWritten_of_update hupdate
  have hasked : ∀ q, update.parent_id = some q →
      moveGuard db organization p.1 (some (q : ℤ)) = none := by
    intro q hq
    have hparent : update.parent = some (q : ℤ) := by simp [PageUpdate.parent, hq]
    exact hparent ▸ hguard
  apply h.hung hw
  · intro q hq
    obtain ⟨above, hmem⟩ := row_of_findById ho (moveGuard_none (hasked q hq)).2.1
    exact ⟨_, hmem, rfl⟩
  · intro q n hq
    by_cases hn : n < maxAncestorHops
    · exact climb_ne_of_moveGuard h.home (hasked q hq) hn
    · exact hdeep q n hq (by omega)

/-- The children of a deleted page are cut loose. -/
theorem forest_pageDeleted (h : PageForest db) {id : ℤ} :
    PageForest (Pages.delete db organization id) := by
  unfold Pages.delete
  split
  · exact h
  · rename_i i page hfind
    have hrows : ∀ {j : ℕ} {v : Owned Page},
        (j, v) ∈ (Pages.cascade { db with
          pages := db.pages.delete fun j _ => j == i } i).pages.rows ↔
        ∃ w, (j, w) ∈ db.pages.rows ∧ j ≠ i ∧
          (if w.columns.parent_id = some i then
            { w with columns := { w.columns with parent_id := none } } else w) = v := by
      intro j v
      simp only [Pages.cascade, Constrained.modify, Table.mem_update, Constrained.mem_delete,
        beq_iff_eq, beq_eq_false_iff_ne, and_assoc]
    constructor
    · intro j v k hj hk
      obtain ⟨w, hw, hne, rfl⟩ := hrows.mp hj
      split at hk
      · cases hk
      · rename_i hother
        obtain ⟨above, habove, howner⟩ := h.home j w k hw hk
        have hki : k ≠ i := fun heq => hother (by rw [← heq]; exact hk)
        refine ⟨_, hrows.mpr ⟨above, habove, hki, rfl⟩, ?_⟩
        rw [if_neg hother]
        split
        · exact howner
        · exact howner
    · apply h.forest.cut
      intro j
      by_cases hmem : ∃ w, (j, w) ∈ db.pages.rows ∧ j ≠ i
      · obtain ⟨w, hw, hne⟩ := hmem
        rw [parentOf_of_mem (hrows.mpr ⟨w, hw, hne, rfl⟩), parentOf_of_mem hw]
        split
        · exact .inr rfl
        · exact .inl rfl
      · right
        apply parentOf_of_not_mem
        intro v hv
        obtain ⟨w, hw, hne, _⟩ := hrows.mp hv
        exact hmem ⟨w, hw, hne⟩

end Writes

/-! ## Runs -/

/-- The step hangs no page under one that is `maxAncestorHops` or more links
below it. -/
def HangsNear (db : ContentDb) (r : PanelRequest) : Prop :=
  isEditorOf db r.user r.organization = true →
    ∀ p update q n, saveAsked db r = some (p, update) →
      slugFree db r.organization (.replace p.1 (Pages.apply update r.time p.2)) = true →
      update.parent_id = some q → maxAncestorHops ≤ n →
      climb (parentOf db) n q ≠ some p.1

theorem forest_of_effect {max_revisions : ℕ} {db db' : ContentDb} {r : PanelRequest}
    (h : PageForest db) (hnear : HangsNear db r)
    (heditor : isEditorOf db r.user r.organization = true)
    (heffect : Effect max_revisions db r db') : PageForest db' := by
  rcases heffect.pages with hpages | hpage
  · exact h.of_pages hpages
  · cases hpage with
    | created hparent _ hcreate => exact forest_pageCreated h hparent hcreate
    | saved hasked hguard hupdate =>
        apply forest_pageSaved h hguard _ hupdate
        intro q n hq hn
        exact hnear heditor _ _ q n hasked
          (slugFree_of_update (saveAsked_found hasked) hupdate) hq hn
    | deleted _ => exact forest_pageDeleted h

/-- **The page tree is a forest** in every state of a run that starts without
pages and whose steps all hang pages near. -/
theorem pages_forest (max_revisions : ℕ) (db : ContentDb) (as : List PanelRequest)
    (hempty : db.pages.rows = []) (hnear : EachStep (step max_revisions) HangsNear db as) :
    Throughout (step max_revisions) PageForest db as := by
  refine throughout_of_eachStep _ ?_ ?_ hnear
  · intro t r u ht hc hu
    obtain rfl := Option.some.inj hu
    by_cases heditor : isEditorOf t r.user r.organization = true
    · exact forest_of_effect ht hc heditor handle_effect
    · simpa [handle, heditor] using ht
  · constructor
    · intro i v j hi
      simp [hempty] at hi
    · intro i
      exact .of_none (parentOf_of_not_mem (by simp [hempty]))

/-- A new parent with fewer than `maxAncestorHops` pages above it is near. -/
theorem hangsNear_of_climb {db : ContentDb} {r : PanelRequest}
    (h : ((saveAsked db r).all fun asked => asked.2.parent_id.all fun q =>
      climb (parentOf db) maxAncestorHops q == none) = true) : HangsNear db r := by
  intro _ p update q n hasked _ hq hn hclimb
  have htop : climb (parentOf db) maxAncestorHops q = none := by
    simpa [hasked, hq] using h
  rw [climb_none_of_le htop hn] at hclimb
  cases hclimb

/-! ## A root hung under a page 128 links below it -/

/-- An organization without content, and its editor. -/
def emptySite : ContentDb where
  users := Table.empty.insert ⟨"ana", "hash", .user, 0, none⟩
  organizations := Table.empty.insert ⟨"acme", "Acme", "acme", 0⟩
  memberships := Memberships.empty.upsert 1 1 .editor rfl
  domains := Constrained.empty
  pages := Constrained.empty
  menus := Constrained.empty
  media := Constrained.empty
  page_revisions := Table.empty
  menu_items := Constrained.empty

/-- The form of page `k + 1`, under page `k` unless that is 0. -/
def nestedForm (k : ℕ) : PageForm :=
  { PageForm.empty with
    slug := "p" ++ toString k
    title := "t"
    parent_id := if k = 0 then none else some (toString k) }

/-- The first pages of a site, each under the one before. -/
def nestPages (n : ℕ) : List PanelRequest :=
  (List.range n).map fun k => ⟨"acme", 1, .createPage (.ok (nestedForm k)), 10⟩

/-- Hang the first page under this one. -/
def moveRoot (parent : ℕ) : PanelRequest where
  organization := "acme"
  user := 1
  action := .updatePage 1 (.ok { nestedForm 0 with parent_id := some (toString parent) })
  time := 10

/-- Two nested pages and a third one, under which the first is moved. -/
theorem pages_forest_moved : emptySite.pages.rows = [] ∧
    Throughout (step 0) PageForest emptySite
      (nestPages 2 ++ [⟨"acme", 1, .createPage (.ok { nestedForm 0 with slug := "q" }), 10⟩,
        moveRoot 3]) := by
  refine ⟨rfl, pages_forest 0 emptySite _ rfl ?_⟩
  have hcheck : checkEachStep (step 0) (fun t r => (saveAsked t r).all fun asked =>
      asked.2.parent_id.all fun q => climb (parentOf t) maxAncestorHops q == none) emptySite
      (nestPages 2 ++ [⟨"acme", 1, .createPage (.ok { nestedForm 0 with slug := "q" }), 10⟩,
        moveRoot 3]) = true := by decide +kernel
  intro pre a t u hpre ht hu
  exact hangsNear_of_climb (eachStep_of_check _ hcheck pre a t u hpre ht hu)

/-- A link down at every page of a chain. -/
theorem climb_chain {up : ℕ → Option ℕ} {n i m : ℕ}
    (h : ∀ k, 2 ≤ k → k ≤ n → up k = some (k - 1)) (hi : i ≤ n) (hm : m < i) :
    climb up m i = some (i - m) := by
  induction m generalizing i with
  | zero => rfl
  | succ m ih =>
      rw [climb_succ, h i (by omega) hi, Option.bind_some, ih (by omega) (by omega), Nat.sub_sub,
        Nat.add_comm 1 m]

theorem ok_of_toBool {result : Except String Unit} (h : result.toBool = true) :
    result = .ok () := by
  cases result with
  | error message => cases h
  | ok => rfl

/-- The form is accepted, with the parent it names. -/
theorem nestedForm_checked : ∀ k < 129, (validatePageForm (nestedForm k)).toBool = true ∧
    (nestedForm k).parent = if k = 0 then none else some (k : ℤ) := by
  decide +kernel

theorem nestedForm_slug_inj {j k : ℕ} (h : (nestedForm j).slug = (nestedForm k).slug) :
    j = k := by
  have hdigits : Nat.toDigits 10 j = Nat.toDigits 10 k := by
    have htext := congrArg String.toList h
    simp only [nestedForm, String.toList_append, List.append_cancel_left_eq] at htext
    exact Nat.toList_repr.symm.trans (htext.trans Nat.toList_repr)
  have hvalue := congrArg (fun ds => Nat.ofDigitChars 10 ds 0) hdigits
  simpa [Nat.ofDigitChars_ten_toDigits] using hvalue

/-- The columns of the form's page. -/
def nestedColumns (k : ℕ) : Page := Pages.columns (newPage 1 10 (nestedForm k)) 10

theorem nestedColumns_parent (k : ℕ) :
    (nestedColumns k).parent_id = (nestedForm k).parent.map Int.toNat := rfl

/-- The first pages of the nest, and no others. -/
structure Nest (n : ℕ) (db : ContentDb) : Prop where
  panel : db.toPanelDb = emptySite.toPanelDb
  rows : db.pages.rows = (List.range n).map fun k => (k + 1, ⟨1, nestedColumns k⟩)
  seq : db.pages.seq = n

namespace Nest

variable {n : ℕ} {db : ContentDb}

theorem owner (h : Nest n db) : db.owner "acme" = some 1 := by
  rw [ContentDb.owner, h.panel]
  decide

theorem editor (h : Nest n db) : isEditorOf db 1 "acme" = true := by
  rw [isEditorOf, h.panel]
  decide

theorem account (h : Nest n db) : (Accounts.findById db.users 1).isSome = true := by
  rw [h.panel]
  decide

theorem row (h : Nest n db) {k : ℕ} (hk : k < n) :
    (k + 1, ⟨1, nestedColumns k⟩) ∈ db.pages.rows := by
  rw [h.rows]
  exact List.mem_map.mpr ⟨k, List.mem_range.mpr hk, rfl⟩

theorem exists_of_row (h : Nest n db) {i : ℕ} {v : Owned Page} (hv : (i, v) ∈ db.pages.rows) :
    ∃ k < n, k + 1 = i ∧ ⟨1, nestedColumns k⟩ = v := by
  rw [h.rows] at hv
  obtain ⟨k, hk, heq⟩ := List.mem_map.mp hv
  exact ⟨k, List.mem_range.mp hk, Prod.mk.inj heq⟩

end Nest

/-- A page whose references are there and whose slug is free is created. -/
theorem exists_create (max_revisions : ℕ) {o : ℕ} {db : ContentDb} {organization : String}
    {page : NewPage} {now : ℤ} (ho : db.owner organization = some o)
    (hrefs : pageReferences db.toTenantDb (Pages.columns page now) = true)
    (hslug : ∀ i w, (i, w) ∈ db.pages.rows → w.columns.slug ≠ page.slug) :
    ∃ db', Pages.create max_revisions db organization page now =
      .ok (db', db.pages.nextId) := by
  have hclear : ∀ i w, (i, w) ∈ db.pages.rows →
      pageKind.ownedCollides w ⟨o, Pages.columns page now⟩ = false := fun i w hw =>
    ownedCollides_of_collides_false (beq_false_of_ne (hslug i w hw))
  obtain ⟨pages, hpages⟩ := Constrained.exists_insert? rfl hclear
  have hauthor : (page.created_by.all fun user =>
      (Accounts.findById db.users user).isSome) = true := (Bool.and_eq_true_iff.mp hrefs).1
  have howned : insertOwned db.pages (organizationId db.organizations organization)
      (Pages.columns page now) = .ok pages := by
    have howner : organizationId db.organizations organization = some o := ho
    unfold insertOwned
    rw [if_neg (show ¬(!pageKind.check _) = true from Bool.false_ne_true), howner, ownedBy,
      Option.map_some]
    dsimp only
    rw [hpages]
  have hinsert : insertContent db.toTenantDb organization (.page (Pages.columns page now)) =
      .ok ({ db.toTenantDb with pages := pages }, db.pages.nextId) := by
    simp only [insertContent, hrefs, howned, Bool.not_true, Bool.false_eq_true, if_false]
    rfl
  unfold Pages.create
  rw [hinsert]
  unfold Pages.appendRevision Pages.recordRevision
  dsimp only
  rw [if_pos hauthor]
  exact ⟨_, rfl⟩

theorem validatePageForm_nestedForm {k : ℕ} (hk : k < 129) :
    validatePageForm (nestedForm k) = .ok () :=
  ok_of_toBool (nestedForm_checked k hk).1

theorem Nest.create {n : ℕ} {db : ContentDb} (h : Nest n db) (hn : n < 129) :
    ∃ db', step 0 db ⟨"acme", 1, .createPage (.ok (nestedForm n)), 10⟩ = some db' ∧
      Nest (n + 1) db' := by
  have hparent := (nestedForm_checked n hn).2
  have hfound : ((nestedForm n).parent.any fun parent =>
      (Pages.findById db "acme" parent).isNone) = false := by
    rw [hparent]
    cases n with
    | zero => rfl
    | succ m =>
        rw [if_neg m.succ_ne_zero, Option.any_some, findById_of_mem h.owner (h.row m.lt_succ_self)]
        rfl
  have habove : ((nestedForm n).parent.map Int.toNat).all (fun parent =>
      parent == db.pages.nextId || (db.pages.find? fun i _ => i == parent).isSome) = true := by
    rw [hparent]
    cases n with
    | zero => rfl
    | succ m =>
        have hfind : db.pages.find? (fun i _ => i == m + 1) = some (m + 1, ⟨1, nestedColumns m⟩) :=
          Table.find?_eq_some (h.row m.lt_succ_self) (by simp) (by simp)
        rw [if_neg m.succ_ne_zero, Option.map_some, Option.all_some, Int.toNat_natCast, hfind,
          Option.isSome_some, Bool.or_true]
  have hrefs : pageReferences db.toTenantDb
      (Pages.columns (newPage 1 10 (nestedForm n)) 10) = true :=
    Bool.and_eq_true_iff.mpr ⟨h.account, habove⟩
  obtain ⟨db', hcreate⟩ := exists_create 0 h.owner hrefs fun i w hw heq => by
    obtain ⟨k, hk, -, rfl⟩ := h.exists_of_row hw
    exact hk.ne (nestedForm_slug_inj heq)
  refine ⟨db', ?_, ?_⟩
  · simp only [step, handle, perform, createPage, h.editor, validatePageForm_nestedForm hn, hfound,
      hcreate, if_true, Bool.false_eq_true, if_false]
  · obtain ⟨o, pages, revisions, ho, hpages, rfl, -⟩ := Pages.create_ok hcreate
    obtain rfl : 1 = o := Option.some.inj (h.owner.symm.trans ho)
    have hnext : db.pages.nextId = n + 1 := congrArg Nat.succ h.seq
    refine ⟨h.panel, ?_, ?_⟩
    · rw [Constrained.rows_insert? hpages, h.rows, hnext, List.range_succ, List.map_append]
      rfl
    · rw [Constrained.seq_insert? hpages, hnext]

theorem exists_nest {n : ℕ} (hn : n ≤ 129) :
    ∃ db, run (step 0) emptySite (nestPages n) = some db ∧ Nest n db := by
  induction n with
  | zero => exact ⟨emptySite, rfl, rfl, rfl, rfl⟩
  | succ n ih =>
      obtain ⟨db, hrun, hnest⟩ := ih (by omega)
      obtain ⟨db', hstep, hnest'⟩ := hnest.create (by omega)
      refine ⟨db', ?_, hnest'⟩
      rw [nestPages, List.range_succ, List.map_append]
      exact run_snoc (step 0) hrun hstep

namespace Nest

variable {n : ℕ} {db : ContentDb}

theorem parentOf_eq (h : Nest n db) (hn : n ≤ 129) {i : ℕ} (hi : 2 ≤ i) (hle : i ≤ n) :
    parentOf db i = some (i - 1) := by
  obtain ⟨k, rfl⟩ : ∃ k, i = k + 1 + 1 := ⟨i - 2, by omega⟩
  rw [parentOf_of_mem (h.row hle), nestedColumns_parent, (nestedForm_checked _ (by omega)).2,
    if_neg k.succ_ne_zero, Option.map_some, Int.toNat_natCast, Nat.add_sub_cancel]

theorem home (h : Nest n db) (hn : n ≤ 129) : ParentsAtHome db := by
  intro i v j hi hj
  obtain ⟨k, hk, rfl, rfl⟩ := h.exists_of_row hi
  rw [nestedColumns_parent, (nestedForm_checked k (by omega)).2] at hj
  cases k with
  | zero => cases hj
  | succ k =>
      rw [if_neg k.succ_ne_zero, Option.map_some, Int.toNat_natCast, Option.some_inj] at hj
      subst hj
      exact ⟨_, h.row (Nat.lt_of_succ_lt hk), rfl⟩

/-- The guard's walk from the last page stops short of the first. -/
theorem moveGuard_eq (h : Nest 129 db) : moveGuard db "acme" 1 (some (129 : ℕ)) = none := by
  have hlast : (129, ⟨1, nestedColumns 128⟩) ∈ db.pages.rows := h.row (by decide)
  have hfound := findById_of_mem h.owner hlast
  have hancestors : ((Pages.ancestors db "acme" (129 : ℕ)).any fun a => (a.id : ℤ) == 1) =
      false := by
    rw [List.any_eq_false]
    intro a ha
    obtain ⟨p, hp, rfl⟩ := List.mem_map.mp ha
    obtain ⟨-, m, hm, hclimb, -⟩ := (mem_ancestorsLoop.mp hp).resolve_left List.not_mem_nil
    have hm : m < 128 := hm
    rw [climb_parentIn (h.home (Nat.le_refl _)) h.owner hlast, climb_chain
      (fun k hk hle => h.parentOf_eq (Nat.le_refl _) hk hle) (Nat.le_refl _) (by omega),
      Option.some_inj] at hclimb
    intro hid
    have hroot : (p.1 : ℤ) = 1 := beq_iff_eq.mp hid
    omega
  rw [moveGuard, if_neg (by decide), hfound, Option.isNone_some, if_neg Bool.false_ne_true,
    hancestors, if_neg Bool.false_ne_true]

end Nest

/-- A save that keeps the slug of a page, with its references there, goes through. -/
theorem exists_update (max_revisions : ℕ) (update : PageUpdate) (now : ℤ) {i o : ℕ}
    {db : ContentDb} {organization : String} {page : Page} (ho : db.owner organization = some o)
    (hrow : (i, ⟨o, page⟩) ∈ db.pages.rows) (hslug : update.slug = some page.slug)
    (hparent : (update.parent_id.all fun parent =>
      (db.pages.find? fun i _ => i == parent).isSome) = true)
    (hauthor : (update.edited_by.all fun user =>
      (Accounts.findById db.users user).isSome) = true) :
    ∃ db', Pages.update max_revisions db organization i update now = .ok (some db') := by
  have hclear : ∀ j w, (j, w) ∈ db.pages.rows → j ≠ i → pageKind.ownedCollides
      ⟨o, Pages.apply update now page⟩ w = false := by
    intro j w hw hj
    have hkept : pageKind.ownedCollides ⟨o, Pages.apply update now page⟩ w =
        pageKind.ownedCollides ⟨o, page⟩ w := by
      simp only [Kind.ownedCollides, Kind.collides, pageKind, Pages.apply, hslug, Option.getD_some]
    rw [hkept, Bool.eq_false_iff]
    exact fun hcollide => hj (db.pages.eq_of_collide ownedCollides_comm hrow hw hcollide).symm
  obtain ⟨pages, hpages⟩ := Constrained.exists_update?
    (p := fun j p => j == i && db.owner organization == some p.organization_id)
    (f := fun p => { p with columns := Pages.apply update now p.columns })
    ownedCollides_comm hrow
    (fun j w _ hp => by simpa using (Bool.and_eq_true_iff.mp hp).1) rfl hclear
  simp only [Pages.update, findById_of_mem ho hrow, Pages.updateRow, hpages, hparent, if_true,
    Pages.appendRevision, Pages.recordRevision, hauthor]
  exact ⟨_, rfl⟩

/-- The first page's form, under page 129. -/
def rootForm : PageForm := { nestedForm 0 with parent_id := some (toString 129) }

theorem rootForm_checked :
    validatePageForm rootForm = .ok () ∧ rootForm.parent = some ((129 : ℕ) : ℤ) :=
  ⟨ok_of_toBool (by decide +kernel), by decide +kernel⟩

/-- The walk from page 129 reads 128 pages and stops short of the first. -/
theorem root_under_leaf :
    (run (step 0) emptySite (nestPages 129 ++ [moveRoot 129])).map
      (fun db => climb (parentOf db) 129 1) = some (some 1) := by
  obtain ⟨db, hrun, hnest⟩ := exists_nest (Nat.le_refl 129)
  have hroot : (1, ⟨1, nestedColumns 0⟩) ∈ db.pages.rows := hnest.row (by decide)
  have hlast : (129, ⟨1, nestedColumns 128⟩) ∈ db.pages.rows := hnest.row (by decide)
  have hfind : db.pages.find? (fun i _ => i == 129) = some (129, ⟨1, nestedColumns 128⟩) :=
    Table.find?_eq_some hlast (by simp) (by simp)
  obtain ⟨hvalid, hparent⟩ := rootForm_checked
  have habove : ((formUpdate 1 10 rootForm).parent_id.all fun parent =>
      (db.pages.find? fun i _ => i == parent).isSome) = true := by
    rw [formUpdate, hparent, Option.map_some, Option.all_some, Int.toNat_natCast, hfind]
    rfl
  obtain ⟨db', hupdate⟩ := exists_update 0 (formUpdate 1 10 rootForm) 10 hnest.owner hroot rfl
    habove hnest.account
  have hupdate' : Pages.update 0 db "acme" 1 (formUpdate 1 10 rootForm) 10 = .ok (some db') :=
    hupdate
  have hstep : step 0 db (moveRoot 129) = some db' := by
    show some (handle 0 db ⟨"acme", 1, .updatePage 1 (.ok rootForm), 10⟩).1 = _
    simp only [handle, perform, updatePage, hnest.editor, hvalid, hparent, hnest.moveGuard_eq,
      hupdate', if_true]
  obtain ⟨o, current, -, hwritten⟩ := rowWritten_of_update (p := (1, nestedColumns 0)) hupdate
  have hroot' : parentOf db' 1 = some 129 := by
    rw [hwritten.parentOf, Function.update_self]
    show rootForm.parent.map Int.toNat = _
    rw [hparent, Option.map_some, Int.toNat_natCast]
  have hchain : ∀ k, 2 ≤ k → k ≤ 129 → parentOf db' k = some (k - 1) := by
    intro k hk hle
    rw [hwritten.parentOf, Function.update_of_ne (by omega)]
    exact hnest.parentOf_eq (Nat.le_refl _) hk hle
  rw [run_snoc (step 0) hrun hstep, Option.map_some, climb_succ, hroot', Option.bind_some,
    climb_chain hchain (Nat.le_refl _) (by decide)]

/-- The move is accepted, and the first page is its own ancestor. -/
theorem move_closes_cycle : emptySite.pages.rows = [] ∧
    ¬ Throughout (step 0) PageForest emptySite (nestPages 129 ++ [moveRoot 129]) := by
  refine ⟨rfl, ?_⟩
  intro h
  obtain ⟨db, hrun, hclimb⟩ := Option.map_eq_some_iff.mp root_under_leaf
  exact ((h _ db (List.prefix_refl _) hrun).forest 1).climb_ne (by decide) hclimb

end Wallermax.Content
