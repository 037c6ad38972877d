import Wallermax.Content.Search

/-!
# What an organization's reads depend on

The reads of the page and menu repositories for one organization are functions
of its `Site`, of the accounts (an editor's name) and, for the order of search
results alone, of the shared index. The reads scoped by `org_scope` are so by
definition; the others join rows of the whole database, and the joins stay
inside the site when every menu item is `AtHome` in it.
-/

namespace Wallermax.Content

open Wallermax.Base
open Wallermax.Accounts
open Wallermax.Storage
open Wallermax.Tenants

/-- Every linked page is a page of the site. -/
def Site.AtHome (s : Site) : Prop :=
  ∀ r ∈ s.items, ∀ id, r.2.page_id = some id → ∃ page, (id, page) ∈ s.pages

def Site.itemsIn (s : Site) (menu_id : ℕ) : List (ℕ × MenuItem) :=
  s.items.filter fun r => (r.2.menu_id : ℤ) == menu_id

def Site.joinedPage (s : Site) (item : MenuItem) : Option (ℕ × Page) :=
  item.page_id.bind fun id => s.pages.find? fun p => p.1 == id

/-- The stored revisions of one page. -/
def Site.history (s : Site) (page_id : ℤ) : List PageRevision :=
  (s.revisions.map Prod.snd).filter fun r => (r.page_id : ℤ) == page_id

theorem siteOf_atHome {db : ContentDb} (h : ItemsAtHome db) (organization : String) :
    (siteOf db organization).AtHome := by
  intro r hr id hid
  obtain ⟨hmem, hmenu⟩ := List.mem_filter.mp hr
  obtain ⟨m, p, hm, hp, howner⟩ := h r.1 r.2 id hmem hid
  obtain ⟨⟨j, menu⟩, hj, heq⟩ := List.any_eq_true.mp hmenu
  obtain ⟨o, ho, hj⟩ := mem_orgScope.mp hj
  obtain rfl : j = r.2.menu_id := by simpa using heq
  obtain rfl := Table.eq_of_mem hm hj
  exact ⟨p.columns, mem_orgScope.mpr ⟨p.organization_id, howner ▸ ho, hp⟩⟩

section Reads

variable {db : ContentDb} {organization : String}

/-- The items of a menu of the organization are items of its site. -/
theorem itemsIn_site {m : ℕ × Menu} (hm : m ∈ menusOf db organization) :
    Menus.itemsIn db m.1 = (siteOf db organization).itemsIn m.1 := by
  simp only [Menus.itemsIn, Site.itemsIn, siteOf, itemsOf, List.filter_filter]
  apply List.filter_congr
  intro r _
  cases hmenu : (r.2.menu_id : ℤ) == m.1 with
  | false => rfl
  | true =>
      obtain hid : r.2.menu_id = m.1 := by simpa using hmenu
      have : (menusOf db organization).any (fun n => n.1 == r.2.menu_id) = true :=
        List.any_eq_true.mpr ⟨m, hm, by simp [hid]⟩
      simp [this]

/-- The `LEFT JOIN` on `pages` stays inside the site. -/
theorem joinedPage_site (hhome : (siteOf db organization).AtHome) {r : ℕ × MenuItem}
    (hr : r ∈ itemsOf db organization) :
    joinedPage db r.2 = (siteOf db organization).joinedPage r.2 := by
  unfold joinedPage Site.joinedPage
  cases hid : r.2.page_id with
  | none => rfl
  | some id =>
      obtain ⟨page, hpage⟩ := hhome r hr id hid
      obtain ⟨o, _, hrow⟩ := mem_orgScope.mp hpage
      have hdb : db.pages.find? (fun i _ => i == id) = some (id, ⟨o, page⟩) :=
        Table.find?_eq_some hrow (by simp) (by simp)
      have hsite : (siteOf db organization).pages.find? (fun p => p.1 == id) =
          some (id, page) := by
        cases hfind : (siteOf db organization).pages.find? (fun p => p.1 == id) with
        | none =>
            have := List.find?_eq_none.mp hfind (id, page) hpage
            simp at this
        | some q =>
            obtain ⟨j, other⟩ := q
            obtain rfl : j = id := by simpa using List.find?_some hfind
            rw [orgScope_inj hpage (List.mem_of_find?_eq_some hfind)]
      simp [hdb, hsite]

/-- The revisions read by the id of a page of the organization. -/
theorem history_site {p : ℕ × Page} (hp : p ∈ pagesOf db organization) :
    ((db.page_revisions.rows.map Prod.snd).filter fun r => (r.page_id : ℤ) == p.1) =
      (siteOf db organization).history p.1 := by
  simp only [Site.history, siteOf, revisionsOf, List.filter_map, List.filter_filter]
  congr 1
  apply List.filter_congr
  intro r _
  simp only [Function.comp]
  cases hpage : (r.2.page_id : ℤ) == p.1 with
  | false => rfl
  | true =>
      obtain hid : r.2.page_id = p.1 := by simpa using hpage
      have : (pagesOf db organization).any (fun q => q.1 == r.2.page_id) = true :=
        List.any_eq_true.mpr ⟨p, hp, by simp [hid]⟩
      simp [this]

/-- `revisions`, once the page has been looked up. -/
theorem revisions_site {id : ℤ} {p : ℕ × Page}
    (h : Pages.findById db organization id = some p) :
    Pages.revisions db id =
      ((((siteOf db organization).history id).insertionSort fun r q =>
        q.revision ≤ r.revision).take maxListedRevisions).map
          (Pages.revisionSummary db) := by
  obtain ⟨hp, rfl⟩ := Pages.findById_some h
  rw [Pages.revisions, history_site hp]

/-- `find_revision`, once the page has been looked up. -/
theorem findRevision_site {id : ℤ} {p : ℕ × Page}
    (h : Pages.findById db organization id = some p) (revision : ℤ) :
    Pages.findRevision db id revision =
      (((siteOf db organization).history id).find? fun r => r.revision == revision).map
        fun r => (r, editedByName db r.edited_by) := by
  obtain ⟨hp, rfl⟩ := Pages.findById_some h
  rw [Pages.findRevision, ← history_site hp, List.find?_filter]
  simp only [Bool.decide_and, Bool.decide_eq_true]

end Reads

/-! ## Equal sites, equal answers -/

section Congr

variable {db db' : ContentDb} {organization : String}

theorem pagesOf_congr (h : siteOf db organization = siteOf db' organization) :
    pagesOf db organization = pagesOf db' organization := congrArg Site.pages h

theorem menusOf_congr (h : siteOf db organization = siteOf db' organization) :
    menusOf db organization = menusOf db' organization := congrArg Site.menus h

theorem mediaOf_congr (h : siteOf db organization = siteOf db' organization) :
    mediaOf db organization = mediaOf db' organization := congrArg Site.media h

theorem itemsOf_congr (h : siteOf db organization = siteOf db' organization) :
    itemsOf db organization = itemsOf db' organization := congrArg Site.items h

theorem revisionsOf_congr (h : siteOf db organization = siteOf db' organization) :
    revisionsOf db organization = revisionsOf db' organization :=
  congrArg Site.revisions h

theorem findById_congr (h : siteOf db organization = siteOf db' organization) :
    Pages.findById db organization = Pages.findById db' organization := by
  funext id
  rw [Pages.findById, Pages.findById, pagesOf_congr h]

theorem listed_congr (h : siteOf db organization = siteOf db' organization) :
    Pages.listed db organization = Pages.listed db' organization := by
  funext now include_drafts
  rw [Pages.listed, Pages.listed, pagesOf_congr h]

theorem findBySlug_congr (h : siteOf db organization = siteOf db' organization) :
    Pages.findBySlug db organization = Pages.findBySlug db' organization := by
  funext slug
  rw [Pages.findBySlug, Pages.findBySlug, pagesOf_congr h]

theorem list_congr (h : siteOf db organization = siteOf db' organization) :
    Pages.list db organization = Pages.list db' organization := by
  funext now include_drafts limit
  rw [Pages.list, Pages.list, listed_congr h]

theorem listPaged_congr (h : siteOf db organization = siteOf db' organization) :
    Pages.listPaged db organization = Pages.listPaged db' organization := by
  funext now include_drafts limit offset
  rw [Pages.listPaged, Pages.listPaged, listed_congr h]

theorem feedEntries_congr (h : siteOf db organization = siteOf db' organization) :
    Pages.feedEntries db organization = Pages.feedEntries db' organization := by
  funext now limit
  rw [Pages.feedEntries, Pages.feedEntries, listed_congr h]

theorem count_congr (h : siteOf db organization = siteOf db' organization) :
    Pages.count db organization = Pages.count db' organization := by
  rw [Pages.count, Pages.count, pagesOf_congr h]

theorem countPublished_congr (h : siteOf db organization = siteOf db' organization) :
    Pages.countPublished db organization = Pages.countPublished db' organization := by
  funext now
  rw [Pages.countPublished, Pages.countPublished, listed_congr h]

theorem scheduledPending_congr (h : siteOf db organization = siteOf db' organization) :
    Pages.scheduledPending db organization = Pages.scheduledPending db' organization := by
  funext now limit
  rw [Pages.scheduledPending, Pages.scheduledPending, pagesOf_congr h]

theorem countScheduled_congr (h : siteOf db organization = siteOf db' organization) :
    Pages.countScheduled db organization = Pages.countScheduled db' organization := by
  funext now
  rw [Pages.countScheduled, Pages.countScheduled, pagesOf_congr h]

theorem children_congr (h : siteOf db organization = siteOf db' organization) :
    Pages.children db organization = Pages.children db' organization := by
  funext now parent_id include_drafts
  rw [Pages.children, Pages.children, pagesOf_congr h]

theorem ancestorsLoop_congr
    (h : Pages.findById db organization = Pages.findById db' organization) (id : ℤ)
    (hops : ℕ) (current : ℤ) (chain : List (ℕ × Page)) :
    Pages.ancestorsLoop db organization id hops current chain =
      Pages.ancestorsLoop db' organization id hops current chain := by
  induction hops generalizing current chain with
  | zero => rfl
  | succ hops ih =>
      simp only [Pages.ancestorsLoop, h, ih]

theorem ancestors_congr (h : siteOf db organization = siteOf db' organization) :
    Pages.ancestors db organization = Pages.ancestors db' organization := by
  funext id
  rw [Pages.ancestors, Pages.ancestors, ancestorsLoop_congr (findById_congr h)]

/-- An editor's name is read from the accounts alone. -/
theorem editedByName_congr (hu : db.users = db'.users) :
    editedByName db = editedByName db' := by
  funext edited_by
  rw [editedByName, editedByName, hu]

theorem revisionSummary_congr (hu : db.users = db'.users) :
    Pages.revisionSummary db = Pages.revisionSummary db' := by
  funext r
  simp only [Pages.revisionSummary, editedByName_congr hu]

theorem recentRevision_congr (hu : db.users = db'.users) :
    Pages.recentRevision db = Pages.recentRevision db' := by
  funext r
  simp only [Pages.recentRevision, editedByName_congr hu]

theorem recentRevisions_congr (hu : db.users = db'.users)
    (h : siteOf db organization = siteOf db' organization) :
    Pages.recentRevisions db organization = Pages.recentRevisions db' organization := by
  funext limit
  simp only [Pages.recentRevisions, revisionsOf_congr h, recentRevision_congr hu]

theorem revisions_congr (hu : db.users = db'.users)
    (h : siteOf db organization = siteOf db' organization) {id : ℤ} {p : ℕ × Page}
    (hp : Pages.findById db organization id = some p) :
    Pages.revisions db id = Pages.revisions db' id := by
  have hp' : Pages.findById db' organization id = some p := findById_congr h ▸ hp
  rw [revisions_site hp, revisions_site hp', h, revisionSummary_congr hu]

theorem findRevision_congr (hu : db.users = db'.users)
    (h : siteOf db organization = siteOf db' organization) {id : ℤ} {p : ℕ × Page}
    (hp : Pages.findById db organization id = some p) (revision : ℤ) :
    Pages.findRevision db id revision = Pages.findRevision db' id revision := by
  have hp' : Pages.findById db' organization id = some p := findById_congr h ▸ hp
  rw [findRevision_site hp, findRevision_site hp', h, editedByName_congr hu]

/-- The joins of the menu reads. -/
theorem itemsIn_congr (h : siteOf db organization = siteOf db' organization)
    {m : ℕ × Menu} (hm : m ∈ menusOf db organization) :
    Menus.itemsIn db m.1 = Menus.itemsIn db' m.1 := by
  rw [itemsIn_site hm, itemsIn_site (menusOf_congr h ▸ hm), h]

theorem mem_itemsOf {m : ℕ × Menu} (hm : m ∈ menusOf db organization) {r : ℕ × MenuItem}
    (hr : r ∈ Menus.itemsIn db m.1) : r ∈ itemsOf db organization := by
  rw [itemsIn_site hm] at hr
  exact List.mem_of_mem_filter hr

theorem joinedPage_congr (h : siteOf db organization = siteOf db' organization)
    (hhome : (siteOf db organization).AtHome) {r : ℕ × MenuItem}
    (hr : r ∈ itemsOf db organization) : joinedPage db r.2 = joinedPage db' r.2 := by
  rw [joinedPage_site hhome hr, joinedPage_site (h ▸ hhome) (itemsOf_congr h ▸ hr), h]

theorem resolved_congr (h : siteOf db organization = siteOf db' organization)
    (hhome : (siteOf db organization).AtHome) (now : ℤ) :
    Menus.resolved db organization now = Menus.resolved db' organization now := by
  have hlist : Menus.list db organization = Menus.list db' organization := by
    rw [Menus.list, Menus.list, menusOf_congr h]
  simp only [Menus.resolved, ← hlist]
  apply List.map_congr_left
  intro m hm
  have hm : m ∈ menusOf db organization := (List.mem_insertionSort _).mp hm
  rw [← itemsIn_congr h hm]
  congr 1
  apply List.filterMap_congr
  intro r hr
  have hr := mem_itemsOf hm ((List.mem_insertionSort _).mp hr)
  simp only [Menus.resolveItem, joinedPage_congr h hhome hr]

theorem itemsWithPages_congr (h : siteOf db organization = siteOf db' organization)
    (hhome : (siteOf db organization).AtHome) {m : ℕ × Menu}
    (hm : m ∈ menusOf db organization) :
    Menus.itemsWithPages db m.1 = Menus.itemsWithPages db' m.1 := by
  simp only [Menus.itemsWithPages, ← itemsIn_congr h hm]
  apply List.map_congr_left
  intro r hr
  have hr := mem_itemsOf hm ((List.mem_insertionSort _).mp hr)
  rw [joinedPage_congr h hhome hr]

end Congr

end Wallermax.Content
