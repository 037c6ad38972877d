import Wallermax.Content.Isolation
import Wallermax.Content.PanelPages

/-!
# What reads reveal of other tenants

A content `GET` for one organization is a function of that organization's rows,
the accounts and the memberships: the reads that carry no organization of their
own are given ids a scoped lookup has found, and the joins of menu items stay
inside the site while every item is at home.
-/

namespace Wallermax.Content

open Wallermax.Base
open Wallermax.Accounts
open Wallermax.Storage
open Wallermax.Tenants

/-- The databases agree on the accounts and on the rows of one organization, whose
menu items link its own pages. -/
structure SameView (organization : String) (db db' : ContentDb) : Prop where
  users : db.users = db'.users
  organizations : db.organizations = db'.organizations
  memberships : db.memberships = db'.memberships
  site : siteOf db organization = siteOf db' organization
  home : (siteOf db organization).AtHome

section Reads

variable {α : Type*} [Preorder α] (env : Environment α) (settings : Settings)
  {db db' : ContentDb} {r : ReadRequest} (h : SameView r.organization db db')

include h

/-! ## The globals -/

theorem membershipRole_view (user : ℕ) :
    membershipRole db.toPanelDb user r.organization =
      membershipRole db'.toPanelDb user r.organization := by
  simp only [membershipRole, findOrganization, h.organizations, h.memberships]

theorem isEditorOf_view (user : ℕ) :
    isEditorOf db user r.organization = isEditorOf db' user r.organization := by
  rw [isEditorOf, isEditorOf, membershipRole_view h]

theorem baseData_view : baseData settings db r = baseData settings db' r := by
  have hpages : pagesGlobal db r.organization r.time =
      pagesGlobal db' r.organization r.time := by
    rw [pagesGlobal, pagesGlobal, list_congr h.site]
  have hrole : memberRole db settings r = memberRole db' settings r := by
    simp only [memberRole, membershipRole_view h]
  rw [baseData, baseData, hpages, hrole, menusGlobal, menusGlobal,
    resolved_congr h.site h.home]

theorem renderView_view (view : String) (extra : List (String × Value)) :
    renderView env settings db r view extra = renderView env settings db' r view extra := by
  rw [renderView, renderView, baseData_view settings h]

/-! ## The public routes -/

theorem viewerIsEditor_view : viewerIsEditor settings db r = viewerIsEditor settings db' r := by
  simp only [viewerIsEditor, isEditorOf_view h]

theorem pageGlobals_view (page : ℕ × Page) :
    pageGlobals settings db r page = pageGlobals settings db' r page := by
  simp only [pageGlobals, parentLink, breadcrumbs, childrenLinks, children_congr h.site,
    ancestors_congr h.site, editedByName_congr h.users,
    viewerIsEditor_view settings h]

theorem publicPage_view (slug : String) :
    publicPage env settings db r slug = publicPage env settings db' r slug := by
  simp only [publicPage, renderPublicPage, findBySlug_congr h.site,
    viewerIsEditor_view settings h, baseData_view settings h, pageGlobals_view settings h]

theorem pageIndex_view : pageIndex env settings db r = pageIndex env settings db' r := by
  simp only [pageIndex, countPublished_congr h.site, listPaged_congr h.site,
    renderView_view env settings h]

theorem rssFeed_view : rssFeed settings db r = rssFeed settings db' r := by
  rw [rssFeed, rssFeed, feedEntries_congr h.site]

theorem atomFeed_view : atomFeed settings db r = atomFeed settings db' r := by
  rw [atomFeed, atomFeed, feedEntries_congr h.site]

theorem sitemap_view : sitemap settings db r = sitemap settings db' r := by
  have hhome : homeEntry settings db r = homeEntry settings db' r := by
    funext base
    rw [homeEntry, homeEntry, findBySlug_congr h.site]
  rw [sitemap, sitemap, hhome, list_congr h.site]

theorem mediaById_view (id : ℤ) : MediaLibrary.findById db r.organization id =
    MediaLibrary.findById db' r.organization id := by
  rw [MediaLibrary.findById, MediaLibrary.findById, mediaOf_congr h.site]

/-! ## The panel -/

theorem menuById_view (id : ℤ) :
    Menus.findById db r.organization id = Menus.findById db' r.organization id := by
  rw [Menus.findById, Menus.findById, menusOf_congr h.site]

theorem guarded_view (page : Response) : guarded db r page = guarded db' r page := by
  simp only [guarded, isEditorOf_view h]

theorem pageTree_view (keep : PageSummary → Bool) (row : PageSummary → ℕ → Value) :
    pageTree db r.organization r.time keep row =
      pageTree db' r.organization r.time keep row := by
  rw [pageTree, pageTree, list_congr h.site]

end Reads

section PanelReads

variable {α : Type*} [LinearOrder α] (env : Environment α) (settings : Settings)
  {db db' : ContentDb} {r : ReadRequest} (h : SameView r.organization db db')

include h

theorem dashboard_view : dashboard env settings db r = dashboard env settings db' r := by
  simp only [dashboard, count_congr h.site, countPublished_congr h.site,
    scheduledPending_congr h.site, countScheduled_congr h.site, Menus.count,
    MediaLibrary.count, menusOf_congr h.site, mediaOf_congr h.site,
    recentRevisions_congr h.users h.site, h.users, renderView_view env settings h]

theorem listPages_view [Field α] (hterms : (listingQuery r.pairs).1 = "") :
    listPages env settings db r = listPages env settings db' r := by
  have hempty : ¬ (!(listingQuery r.pairs).1.isEmpty) = true := by
    rw [hterms]
    decide
  unfold listPages
  simp only [if_neg hempty, pageTree_view h, renderView_view env settings h]

theorem pageFormView_view (form : PageForm) (id : Option ℤ) :
    pageFormView env settings db r form id = pageFormView env settings db' r form id := by
  simp only [pageFormView, parentOptions, pageTree_view h, renderView_view env settings h]

theorem editPageForm_view (id : ℤ) :
    editPageForm env settings db r id = editPageForm env settings db' r id := by
  simp only [editPageForm, findById_congr h.site, pageFormView_view env settings h]

/-- The history is read by the id of a page of the organization. -/
theorem pageHistory_view (id : ℤ) :
    pageHistory env settings db r id = pageHistory env settings db' r id := by
  unfold pageHistory
  rw [← findById_congr h.site]
  cases hpage : Pages.findById db r.organization id with
  | none => rfl
  | some page =>
      simp only [revisions_congr h.users h.site hpage, renderView_view env settings h]

theorem pageRevision_view (id revision : ℤ) :
    pageRevision env settings db r id revision =
      pageRevision env settings db' r id revision := by
  unfold pageRevision
  rw [← findById_congr h.site]
  cases hpage : Pages.findById db r.organization id with
  | none => rfl
  | some page =>
      simp only [findRevision_congr h.users h.site hpage, renderView_view env settings h]

theorem listMenus_view : listMenus env settings db r = listMenus env settings db' r := by
  have hrows : ∀ {f : ℕ × Menu → ℕ → Value},
      (Menus.list db r.organization).map (fun menu => f menu (Menus.countItems db menu.1)) =
        (Menus.list db' r.organization).map
          fun menu => f menu (Menus.countItems db' menu.1) := by
    intro f
    rw [Menus.list, Menus.list, ← menusOf_congr h.site]
    apply List.map_congr_left
    intro menu hmenu
    have hmem : menu ∈ menusOf db r.organization := (List.mem_insertionSort _).mp hmenu
    rw [Menus.countItems, Menus.countItems, itemsIn_congr h.site hmem]
  simp only [listMenus, renderView_view env settings h]
  rw [hrows (f := fun menu items => .object [("id", .number menu.1),
    ("name", .string menu.2.name), ("title", .string menu.2.title),
    ("items", .number items),
    ("updated_at_h", .string (formatTimestamp menu.2.updated_at))])]

/-- The items are read by the id of a menu of the organization. -/
theorem menuDetail_view (id : ℤ) :
    menuDetail env settings db r id = menuDetail env settings db' r id := by
  unfold menuDetail
  rw [← menuById_view h]
  cases hmenu : Menus.findById db r.organization id with
  | none => rfl
  | some menu =>
      have hmem : menu ∈ menusOf db r.organization := List.mem_of_find?_eq_some hmenu
      have hid : (menu.1 : ℤ) = id := by simpa using List.find?_some hmenu
      simp only [← hid, itemsWithPages_congr h.site h.home hmem,
        renderView_view env settings h]

theorem itemFormView_view (menu_id : ℤ) (form : ItemForm) (item_id : Option ℤ) :
    itemFormView env settings db r menu_id form item_id =
      itemFormView env settings db' r menu_id form item_id := by
  simp only [itemFormView, menuById_view h, list_congr h.site,
    renderView_view env settings h]

theorem editItemForm_view (menu_id item_id : ℤ) :
    editItemForm env settings db r menu_id item_id =
      editItemForm env settings db' r menu_id item_id := by
  simp only [editItemForm, loadMenuItem, Menus.findItem, itemsOf_congr h.site,
    itemFormView_view env settings h]

theorem listMedia_view : listMedia env settings db r = listMedia env settings db' r := by
  simp only [listMedia, MediaLibrary.count, MediaLibrary.listPaged, mediaOf_congr h.site,
    renderView_view env settings h]

theorem mediaDetail_view (id : ℤ) :
    mediaDetail env settings db r id = mediaDetail env settings db' r id := by
  simp only [mediaDetail, mediaById_view h, renderView_view env settings h]

/-- A `GET` depends on the view alone. -/
theorem answer_view [Field α] (hterms : (listingQuery r.pairs).1 = "") :
    answer env settings db r = answer env settings db' r := by
  unfold answer
  cases r.action with
  | publicPage slug => exact publicPage_view env settings h slug
  | pageIndex => exact pageIndex_view env settings h
  | rssFeed => exact rssFeed_view settings h
  | atomFeed => exact atomFeed_view settings h
  | sitemap => exact sitemap_view settings h
  | serveMedia id filename => simp only [serveMedia, mediaById_view h]
  | serveThumb id => simp only [serveThumb, mediaById_view h]
  | dashboard => simp only [guarded_view h, dashboard_view env settings h]
  | listPages => simp only [guarded_view h, listPages_view env settings h hterms]
  | newPageForm =>
      simp only [guarded_view h, newPageForm, pageFormView_view env settings h]
  | editPageForm id => simp only [guarded_view h, editPageForm_view env settings h]
  | pageHistory id => simp only [guarded_view h, pageHistory_view env settings h]
  | pageRevision id revision =>
      simp only [guarded_view h, pageRevision_view env settings h]
  | listMenus => simp only [guarded_view h, listMenus_view env settings h]
  | menuDetail id => simp only [guarded_view h, menuDetail_view env settings h]
  | newItemForm menu_id =>
      simp only [guarded_view h, newItemForm, itemFormView_view env settings h]
  | editItemForm menu_id item_id =>
      simp only [guarded_view h, editItemForm_view env settings h]
  | listMedia => simp only [guarded_view h, listMedia_view env settings h]
  | mediaDetail id => simp only [guarded_view h, mediaDetail_view env settings h]

end PanelReads

/-- **Tenant confidentiality of reads.** Databases that differ in the rows of `b`
alone answer every content `GET` for another organization alike. -/
theorem reads_confidential {α : Type*} [Field α] [LinearOrder α] (env : Environment α)
    (settings : Settings) (db db' : ContentDb) (b : String) (r : ReadRequest)
    (husers : db.users = db'.users) (horganizations : db.organizations = db'.organizations)
    (hmemberships : db.memberships = db'.memberships)
    (hsites : ∀ organization, organization ≠ b →
      siteOf db organization = siteOf db' organization)
    (hhome : ItemsAtHome db) (hother : r.organization ≠ b)
    (hterms : (listingQuery r.pairs).1 = "") :
    answer env settings db r = answer env settings db' r :=
  answer_view env settings
    { users := husers
      organizations := horganizations
      memberships := hmemberships
      site := hsites r.organization hother
      home := siteOf_atHome hhome r.organization } hterms

/-- A key without an organization owns nothing. -/
theorem siteOf_of_owner {db : ContentDb} {organization : String}
    (h : db.owner organization = none) : siteOf db organization = ⟨[], [], [], [], []⟩ := by
  ext <;> simp [siteOf, revisionsOf, itemsOf, pagesOf, menusOf, mediaOf, orgScope, h]

/-- `twoSites` after other work at `beta`. -/
def twoSitesReworked : ContentDb :=
  { twoSites with
    pages :=
      { rows := [(1, ⟨1, publishedPage "uno" "x"⟩), (2, ⟨2, publishedPage "dos" "secreto"⟩)]
        seq := 2, ids_nodup := by decide, ids_le_seq := by decide
        checked := by decide, unique := by decide }
    menus :=
      { rows := [(1, ⟨1, "main", "Main", 0, 0⟩), (2, ⟨2, "main", "Secreto", 0, 0⟩)]
        seq := 2, ids_nodup := by decide, ids_le_seq := by decide
        checked := by decide, unique := by decide }
    menu_items :=
      { rows := [(1, ⟨1, 0, none, some 1, none⟩), (2, ⟨2, 0, none, none, some "/secreto"⟩)]
        seq := 2, ids_nodup := by decide, ids_le_seq := by decide
        checked := by decide, unique := by decide } }

/-- `ana` reads the menu 1. -/
def menuVisit : ReadRequest where
  organization := "acme"
  host := some "acme.example"
  path := "/admin/menus/1"
  pairs := [("page", "2")]
  chrome := []
  user := some ⟨1, "ana", .user⟩
  action := .menuDetail 1
  time := 10

theorem reads_confidential_menu : siteOf twoSites "beta" ≠ siteOf twoSitesReworked "beta" ∧
    ∀ (env : Environment ℝ) (settings : Settings), answer env settings twoSites menuVisit =
      answer env settings twoSitesReworked menuVisit := by
  refine ⟨by decide, fun env settings => reads_confidential env settings twoSites
    twoSitesReworked "beta" menuVisit rfl rfl rfl ?_ twoSites_itemsAtHome (by decide)
    (by decide)⟩
  intro organization hne
  by_cases hacme : organization = "acme"
  · rw [hacme]
    decide
  · have howner : twoSites.owner organization = none := by
      simp [ContentDb.owner, organizationId, twoSites, Table.find?, Ne.symm hacme,
        Ne.symm hne]
    have hsame : twoSitesReworked.owner organization = none := howner
    rw [siteOf_of_owner howner, siteOf_of_owner hsame]

end Wallermax.Content
