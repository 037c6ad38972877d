import Wallermax.Base.Runs
import Wallermax.Content.Effects
import Wallermax.Content.Sites

/-!
# Writes and the other tenants

What a panel request of one organization does to the rows of another. Every
write stays with the organization of the request but two: an item is moved to
whatever menu the path names, and the foreign key of `parent_id` clears the
children of a deleted page wherever they belong. The order of search results
rests on the index all organizations share.
-/

namespace Wallermax.Content

open Wallermax.Base
open Wallermax.Accounts
open Wallermax.Storage
open Wallermax.Tenants

/-- `db'` differs from `db` at most outside the rows of `b`. -/
structure Frame (b : String) (db db' : ContentDb) : Prop where
  users : db'.users = db.users
  pages : pagesOf db' b = pagesOf db b
  menus : menusOf db' b = menusOf db b
  media : mediaOf db' b = mediaOf db b
  items : db'.menu_items.rows.filter (fun r =>
    (menusOf db b).any fun m => m.1 == r.2.menu_id) = itemsOf db b
  revisions : db'.page_revisions.rows.filter (fun r =>
    (pagesOf db b).any fun p => p.1 == r.2.page_id) = revisionsOf db b

theorem Frame.refl (b : String) (db : ContentDb) : Frame b db db :=
  ⟨rfl, rfl, rfl, rfl, rfl, rfl⟩

theorem Frame.siteOf_eq {b : String} {db db' : ContentDb} (h : Frame b db db') :
    siteOf db' b = siteOf db b := by
  have hrevisions : revisionsOf db' b = revisionsOf db b := by
    rw [revisionsOf, h.pages]
    exact h.revisions
  have hitems : itemsOf db' b = itemsOf db b := by
    rw [itemsOf, h.menus]
    exact h.items
  ext1
  · exact h.pages
  · exact hrevisions
  · exact h.menus
  · exact hitems
  · exact h.media

/-! ## Rows of two organizations -/

section Scope

variable {ρ : Type} {k : Kind ρ} {t : TenantTable k}

/-- Rows of two organizations never share an id. -/
theorem any_id_false {i : ℕ} {v : ρ} {owner owner' : Option ℕ} (hne : owner ≠ owner')
    (h : (i, v) ∈ orgScope t owner) :
    ((orgScope t owner').any fun r => r.1 == i) = false := by
  rw [List.any_eq_false]
  rintro ⟨j, w⟩ hw heq
  obtain rfl : j = i := by simpa using heq
  exact not_mem_orgScope hne h hw

/-- Nor does a fresh id name one. -/
theorem any_nextId_false {owner : Option ℕ} :
    ((orgScope t owner).any fun r => r.1 == t.nextId) = false := by
  rw [List.any_eq_false]
  rintro ⟨j, w⟩ hw heq
  obtain rfl : j = t.nextId := by simpa using heq
  obtain ⟨o, _, hw⟩ := mem_orgScope.mp hw
  exact Table.not_mem_nextId hw

/-- An update or delete by the id of another organization's row. -/
theorem owner_ne_of_id {i o : ℕ} {v : ρ} {owner : Option ℕ} (hne : owner ≠ some o)
    (h : (i, ⟨o, v⟩) ∈ t.rows) {j : ℕ} {w : Owned ρ} (hw : (j, w) ∈ t.rows)
    (hj : j = i) : owner ≠ some w.organization_id := by
  subst hj
  rw [Table.eq_of_mem hw h]
  exact hne

end Scope

/-! ## One lemma a write -/

section Writes

variable {max_revisions : ℕ} {db db' : ContentDb} {a b : String} {now : ℤ}

theorem frame_pageCreated (hab : a ≠ b) {page : NewPage} {id : ℕ}
    (h : Pages.create max_revisions db a page now = .ok (db', id)) : Frame b db db' := by
  obtain ⟨o, pages, revisions, ho, hpages, rfl, hrevisions⟩ := Pages.create_ok h
  exact
    { users := rfl
      pages := orgScope_insert? hpages (owner_ne hab ho)
      menus := rfl
      media := rfl
      items := rfl
      revisions := by
        apply hrevisions
        intro i r hr
        rw [hr]
        exact any_nextId_false }

theorem frame_pageSaved (hab : a ≠ b) {id : ℤ} {update : PageUpdate}
    (h : Pages.update max_revisions db a id update now = .ok (some db')) :
    Frame b db db' := by
  obtain ⟨i, current, o, pages, revisions, hfind, ho, hpages, rfl, hrevisions⟩ :=
    Pages.update_ok h
  have hmem := (Pages.findById_some hfind).1
  have hne := owner_ne hab ho
  exact
    { users := rfl
      pages := by
        apply orgScope_update (Constrained.update?_some hpages) (fun _ => rfl)
        intro j v _ hv
        simp only [Bool.and_eq_true, beq_iff_eq, Option.some.injEq] at hv
        rw [← hv.2]
        exact hne
      menus := rfl
      media := rfl
      items := rfl
      revisions := by
        apply hrevisions
        rintro j r rfl
        exact any_id_false (ho ▸ hne.symm) hmem }

theorem frame_menuCreated (hab : a ≠ b) {name title : String} {id : ℕ}
    (h : Menus.create db a name title now = .ok (db', id)) : Frame b db db' := by
  obtain ⟨o, menus, ho, hmenus, rfl⟩ := Menus.create_ok h
  exact
    { users := rfl
      pages := rfl
      menus := orgScope_insert? hmenus (owner_ne hab ho)
      media := rfl
      items := rfl
      revisions := rfl }

theorem frame_menuRenamed (hab : a ≠ b) {id : ℤ} {title : String}
    (h : Menus.updateTitle db a id title now = some db') : Frame b db db' := by
  obtain ⟨⟨i, menu⟩, hfind, rfl⟩ := Option.map_eq_some_iff.mp h
  obtain ⟨o, ho, hmem⟩ := mem_orgScope.mp (List.mem_of_find?_eq_some hfind)
  exact
    { users := rfl
      pages := rfl
      menus := by
        apply orgScope_modify
        · exact fun _ => rfl
        · exact fun _ _ => ⟨rfl, rfl⟩
        · exact fun _ => rfl
        · intro j w hw hj
          exact owner_ne_of_id (owner_ne hab ho) hmem hw (by simpa using hj)
      media := rfl
      items := rfl
      revisions := rfl }

theorem frame_menuDeleted (hab : a ≠ b) {id : ℤ} :
    Frame b db (Menus.delete db a id) := by
  unfold Menus.delete
  split
  · exact Frame.refl b db
  · rename_i i menu hfind
    have hmenu : (i, menu) ∈ menusOf db a := List.mem_of_find?_eq_some hfind
    obtain ⟨o, ho, hmem⟩ := mem_orgScope.mp hmenu
    have hne := owner_ne hab ho
    exact
      { users := rfl
        pages := rfl
        menus := orgScope_delete fun j w hw hj =>
          owner_ne_of_id hne hmem hw (by simpa using hj)
        media := rfl
        items := by
          apply Table.filter_delete
          intro j item _ hj
          obtain rfl : item.menu_id = i := by simpa using hj
          exact any_id_false (ho ▸ hne.symm) hmenu
        revisions := rfl }

/-- A menu id found in `a` names no menu of `b`. -/
theorem any_menu_false (hab : a ≠ b) {id : ℤ} {m : ℕ × Menu}
    (h : Menus.findById db a id = some m) :
    ((menusOf db b).any fun n => n.1 == id.toNat) = false := by
  have hmem : m ∈ menusOf db a := List.mem_of_find?_eq_some h
  obtain ⟨o, ho, _⟩ := mem_orgScope.mp hmem
  have hid : id.toNat = m.1 := by
    have : (m.1 : ℤ) = id := by simpa using List.find?_some h
    omega
  rw [hid]
  exact any_id_false (ho ▸ (owner_ne hab ho).symm) hmem

theorem frame_itemCreated (hab : a ≠ b) {menu_id : ℤ} {form : ItemForm}
    (hmenu : (Menus.findById db a menu_id).isSome)
    (h : Menus.addItem db (form.item menu_id) = .ok db') : Frame b db db' := by
  obtain ⟨m, hm⟩ := Option.isSome_iff_exists.mp hmenu
  obtain ⟨items, hitems, rfl⟩ := Menus.addItem_ok h
  exact
    { users := rfl
      pages := rfl
      menus := rfl
      media := rfl
      items := by
        simp only [Constrained.rows_insert? hitems, List.filter_append]
        simp [itemsOf, Menus.itemColumns, ItemForm.item, any_menu_false hab hm]
      revisions := rfl }

/-- An item found in `a` hangs in no menu of `b`. -/
theorem any_menuOfItem_false (hab : a ≠ b) {r : ℕ × MenuItem} (h : r ∈ itemsOf db a) :
    ((menusOf db b).any fun n => n.1 == r.2.menu_id) = false := by
  obtain ⟨⟨i, menu⟩, hmenu, heq⟩ := List.any_eq_true.mp (List.mem_filter.mp h).2
  obtain rfl : i = r.2.menu_id := by simpa using heq
  obtain ⟨o, ho, _⟩ := mem_orgScope.mp hmenu
  exact any_id_false (ho ▸ (owner_ne hab ho).symm) hmenu

theorem frame_itemSaved (hab : a ≠ b) {menu_id item_id : ℤ} {form : ItemForm}
    {found : Option (ℕ × MenuItem)}
    (hinto : (Menus.findItem db a item_id).isSome →
      (Menus.findById db b menu_id).isNone)
    (h : Menus.updateItem db a item_id (form.item menu_id) = .ok (db', found)) :
    Frame b db db' := by
  rcases Menus.updateItem_ok h with ⟨_, rfl⟩ | ⟨i, row, items, hfind, hrefs, hitems, rfl⟩
  · exact Frame.refl b db'
  · have hitem : (i, row) ∈ itemsOf db a := List.mem_of_find?_eq_some hfind
    have hmem : (i, row) ∈ db.menu_items.rows := List.mem_of_mem_filter hitem
    have hmenu := hinto (by rw [hfind]; rfl)
    exact
      { users := rfl
        pages := rfl
        menus := rfl
        media := rfl
        items := by
          rw [Constrained.update?_some hitems]
          apply Table.filter_update
          intro j item hj hji
          obtain rfl : j = i := by simpa using hji
          obtain rfl := Table.eq_of_mem hmem hj
          refine ⟨any_menuOfItem_false hab hitem, ?_⟩
          rw [List.any_eq_false]
          intro m hm hid
          have hpos : ((menu_id.toNat : ℕ) : ℤ) = menu_id := by
            simp only [Menus.itemReferences, ItemForm.item, Bool.and_eq_true] at hrefs
            obtain ⟨n, hn⟩ := Option.isSome_iff_exists.mp hrefs.1
            have : (n.1 : ℤ) = menu_id := by simpa using (Table.find?_some hn).2
            omega
          have hid : m.1 = menu_id.toNat := by
            simpa [Menus.itemColumns, ItemForm.item] using hid
          have hother := List.find?_eq_none.mp (Option.isNone_iff_eq_none.mp hmenu) m hm
          simp only [beq_iff_eq] at hother
          omega
        revisions := rfl }

theorem frame_itemDeleted (hab : a ≠ b) {item_id : ℤ} :
    Frame b db (Menus.deleteItem db a item_id) := by
  unfold Menus.deleteItem
  split
  · exact Frame.refl b db
  · rename_i i row hfind
    have hitem : (i, row) ∈ itemsOf db a := List.mem_of_find?_eq_some hfind
    exact
      { users := rfl
        pages := rfl
        menus := rfl
        media := rfl
        items := by
          apply Table.filter_delete
          intro j item hj hji
          obtain rfl : j = i := by simpa using hji
          obtain rfl := Table.eq_of_mem (List.mem_of_mem_filter hitem) hj
          exact any_menuOfItem_false hab hitem
        revisions := rfl }

theorem frame_mediaCreated (hab : a ≠ b) {row : Media} {id : ℕ}
    (h : MediaLibrary.create db a row = .ok (db', id)) : Frame b db db' := by
  obtain ⟨o, media, ho, hmedia, rfl⟩ := MediaLibrary.create_ok h
  exact
    { users := rfl
      pages := rfl
      menus := rfl
      media := orgScope_insert? hmedia (owner_ne hab ho)
      items := rfl
      revisions := rfl }

theorem frame_altSaved (hab : a ≠ b) {id : ℤ} {alt_text : String}
    (h : MediaLibrary.updateAlt db a id alt_text = some db') : Frame b db db' := by
  obtain ⟨⟨i, row⟩, hfind, rfl⟩ := Option.map_eq_some_iff.mp h
  obtain ⟨o, ho, hmem⟩ := mem_orgScope.mp (List.mem_of_find?_eq_some hfind)
  exact
    { users := rfl
      pages := rfl
      menus := rfl
      media := by
        apply orgScope_modify
        · exact fun _ => rfl
        · exact fun _ _ => ⟨rfl, rfl⟩
        · exact fun _ => rfl
        · intro j w hw hj
          exact owner_ne_of_id (owner_ne hab ho) hmem hw (by simpa using hj)
      items := rfl
      revisions := rfl }

theorem frame_mediaDeleted (hab : a ≠ b) {id : ℤ} :
    Frame b db (MediaLibrary.delete db a id) := by
  unfold MediaLibrary.delete
  split
  · exact Frame.refl b db
  · rename_i i row hfind
    obtain ⟨o, ho, hmem⟩ := mem_orgScope.mp (List.mem_of_find?_eq_some hfind)
    exact
      { users := rfl
        pages := rfl
        menus := rfl
        media := orgScope_delete fun j w hw hj =>
          owner_ne_of_id (owner_ne hab ho) hmem hw (by simpa using hj)
        items := rfl
        revisions := rfl }

/-- Some page of `b` hangs under the page a request deletes. -/
def orphansChild (db : ContentDb) (b : String) (r : PanelRequest) : Bool :=
  match r.action with
  | .deletePage id =>
      (Pages.findById db r.organization id).any fun p =>
        (pagesOf db b).any fun q => q.2.parent_id == some p.1
  | _ => false

theorem frame_pageDeleted (hhome : (siteOf db b).AtHome) {r : PanelRequest}
    (hab : r.organization ≠ b) {id : ℤ} (haction : r.action = .deletePage id)
    (hchild : orphansChild db b r = false) :
    Frame b db (Pages.delete db r.organization id) := by
  unfold Pages.delete
  split
  · exact Frame.refl b db
  · rename_i i page hfind
    obtain ⟨hpage, _⟩ := Pages.findById_some hfind
    obtain ⟨o, ho, hmem⟩ := mem_orgScope.mp hpage
    have hne := owner_ne hab ho
    have hremoved : orgScope (db.pages.delete fun j _ => j == i) (db.owner b) =
        pagesOf db b :=
      orgScope_delete fun j w hw hj => owner_ne_of_id hne hmem hw (by simpa using hj)
    have hnone : ∀ q ∈ pagesOf db b, q.2.parent_id ≠ some i := by
      simpa [orphansChild, haction, hfind] using hchild
    exact
      { users := rfl
        pages := by
          refine Eq.trans ?_ hremoved
          apply orgScope_modify
          · exact fun _ => rfl
          · exact fun _ _ => ⟨rfl, rfl⟩
          · exact fun _ => rfl
          · intro j w hw hparent howner
            have hq : (j, w.columns) ∈ pagesOf db b := by
              rw [← hremoved]
              exact mem_orgScope.mpr ⟨w.organization_id, howner, hw⟩
            exact hnone _ hq (by simpa using hparent)
        menus := rfl
        media := rfl
        items := by
          apply Table.filter_delete
          intro j item hj hpageid
          by_contra hmenu
          have hitem : (j, item) ∈ itemsOf db b :=
            List.mem_filter.mpr ⟨hj, by simpa using hmenu⟩
          obtain ⟨other, hother⟩ := hhome (j, item) hitem i (by simpa using hpageid)
          exact not_mem_orgScope (ho ▸ hne.symm) hpage hother
        revisions := by
          apply Table.filter_delete
          intro j revision _ hrevision
          obtain hid : revision.page_id = i := by simpa using hrevision
          simp only [hid]
          exact any_id_false (ho ▸ hne.symm) hpage }

/-- An item of the request's organization moves into a menu of `b`. -/
def movesInto (db : ContentDb) (b : String) (r : PanelRequest) : Bool :=
  match r.action with
  | .updateItem menu_id item_id (.ok form) =>
      (validateItemForm db r.organization form).isOk &&
        (Menus.findItem db r.organization item_id).isSome &&
        (Menus.findById db b menu_id).isSome
  | _ => false

/-- **A step stays off the rows of `b`** unless it moves an item there or deletes
the parent of a page of `b`. -/
theorem frame_of_effect (hhome : (siteOf db b).AtHome) {r : PanelRequest}
    (hab : r.organization ≠ b) (hmoves : movesInto db b r = false)
    (hchild : orphansChild db b r = false) (h : Effect max_revisions db r db') :
    Frame b db db' := by
  cases h with
  | nothing => exact Frame.refl b db
  | page h =>
      cases h with
      | created _ _ h => exact frame_pageCreated hab h
      | saved _ _ h => exact frame_pageSaved hab h
      | deleted haction => exact frame_pageDeleted hhome hab haction hchild
  | menuCreated h => exact frame_menuCreated hab h
  | menuRenamed h => exact frame_menuRenamed hab h
  | menuDeleted => exact frame_menuDeleted hab
  | itemCreated hmenu _ h => exact frame_itemCreated hab hmenu h
  | itemSaved haction hform h =>
      apply frame_itemSaved hab _ h
      intro hitem
      simpa [movesInto, haction, hform, hitem, Except.isOk, Except.toBool] using hmoves
  | itemDeleted => exact frame_itemDeleted hab
  | mediaCreated h => exact frame_mediaCreated hab h
  | altSaved h => exact frame_altSaved hab h
  | mediaDeleted => exact frame_mediaDeleted hab

end Writes

/-! ## The shared index -/

section Index

variable {α : Type*} [Field α] [LinearOrder α] (fts : Fts5 α)

/-- `pages_fts` after a write. -/
def indexAfter (db : ContentDb) : PageWrite → List (List (List String))
  | .insert page => index fts db ++ [document fts page]
  | .replace id page =>
      db.pages.rows.map fun r => document fts (if r.1 == id then page else r.2.columns)
  | .remove id =>
      (db.pages.rows.filter fun r => r.1 != id).map fun r => document fts r.2.columns

/-- The write leaves the pages of `b` a search finds in their order. -/
def KeepsOrder (db : ContentDb) (b : String) (w : PageWrite) : Prop :=
  ∀ now include_drafts terms query, ftsMatchQuery terms = some query →
    ∀ p ∈ matching fts db b now query include_drafts,
      ∀ q ∈ matching fts db b now query include_drafts,
        (Ranked fts db query p q ↔ fts.Before (indexAfter fts db w) (fts.phrases query)
          (p.1, document fts p.2) (q.1, document fts q.2))

variable {max_revisions : ℕ} {db db' : ContentDb} {organization : String} {now : ℤ}

omit [Field α] in
theorem index_pageCreated {page : NewPage} {id : ℕ}
    (h : Pages.create max_revisions db organization page now = .ok (db', id)) :
    index fts db' = indexAfter fts db (.insert (Pages.columns page now)) := by
  obtain ⟨o, pages, revisions, ho, hpages, rfl, _⟩ := Pages.create_ok h
  simp [index, indexAfter, Constrained.rows_insert? hpages]

omit [Field α] in
theorem index_pageSaved {p : ℕ × Page} {update : PageUpdate}
    (hp : Pages.findById db organization p.1 = some p)
    (h : Pages.update max_revisions db organization p.1 update now = .ok (some db')) :
    index fts db' = indexAfter fts db (.replace p.1 (Pages.apply update now p.2)) := by
  obtain ⟨i, current, o, pages, revisions, hfind, ho, hpages, rfl, _⟩ := Pages.update_ok h
  obtain rfl := Option.some.inj (hp.symm.trans hfind)
  obtain ⟨o', ho', hrow⟩ := mem_orgScope.mp (Pages.findById_some hfind).1
  obtain rfl : o = o' := Option.some.inj (ho.symm.trans ho')
  simp only [index, indexAfter, Constrained.update?_some hpages, Table.update, List.map_map]
  apply List.map_congr_left
  rintro ⟨j, row⟩ hj
  by_cases hid : j = i
  · subst hid
    obtain rfl := Table.eq_of_mem hrow hj
    simp
  · simp [hid]

omit [Field α] in
theorem index_pageDeleted {id : ℤ} {p : ℕ × Page}
    (h : Pages.findById db organization id = some p) :
    index fts (Pages.delete db organization id) = indexAfter fts db (.remove p.1) := by
  simp only [Pages.delete, h, Pages.cascade, index, indexAfter, Constrained.modify,
    Constrained.delete, Table.update, Table.delete, List.map_map]
  apply List.map_congr_left
  intro r _
  simp only [Function.comp]
  split <;> rfl

omit [Field α] in
/-- The index changes with the page a request writes. -/
theorem index_of_effect {r : PanelRequest} (h : Effect max_revisions db r db') :
    index fts db' = index fts db ∨
    ∃ w, pageWrite db r = some w ∧ slugFree db r.organization w = true ∧
      index fts db' = indexAfter fts db w := by
  rcases h.pages with hpages | hpage
  · left
    rw [index, index, hpages]
  · cases hpage with
    | created _ hwrite h =>
        exact .inr ⟨_, hwrite, slugFree_of_create h, index_pageCreated fts h⟩
    | saved hasked hguard h =>
        have hp := saveAsked_found hasked
        exact .inr ⟨_, pageWrite_of_saveAsked hasked hguard, slugFree_of_update hp h,
          index_pageSaved fts hp h⟩
    | @deleted id haction =>
        cases hfind : Pages.findById db r.organization id with
        | none =>
            left
            simp [Pages.delete, hfind]
        | some p =>
            right
            exact ⟨.remove p.1, by simp [pageWrite, haction, hfind], rfl,
              index_pageDeleted fts hfind⟩

end Index

/-! ## Runs -/

section Runs

variable {α : Type*} [Field α] [LinearOrder α]

/-- The rows of `b` and what the repositories answer for `b` are the same; the
history is read by the id of a page of `b`. -/
structure Untouched (fts : Fts5 α) (b : String) (db db' : ContentDb) : Prop where
  site : siteOf db' b = siteOf db b
  resolved : Menus.resolved db' b = Menus.resolved db b
  find_by_id : Pages.findById db' b = Pages.findById db b
  find_by_slug : Pages.findBySlug db' b = Pages.findBySlug db b
  list : Pages.list db' b = Pages.list db b
  list_paged : Pages.listPaged db' b = Pages.listPaged db b
  search : search fts db' b = search fts db b
  search_count : searchCount fts db' b = searchCount fts db b
  feed_entries : Pages.feedEntries db' b = Pages.feedEntries db b
  count : Pages.count db' b = Pages.count db b
  count_published : Pages.countPublished db' b = Pages.countPublished db b
  ancestors : Pages.ancestors db' b = Pages.ancestors db b
  children : Pages.children db' b = Pages.children db b
  revisions : ∀ id, (Pages.findById db b id).isSome →
    Pages.revisions db' id = Pages.revisions db id
  find_revision : ∀ id, (Pages.findById db b id).isSome →
    Pages.findRevision db' id = Pages.findRevision db id
  recent_revisions : Pages.recentRevisions db' b = Pages.recentRevisions db b
  scheduled_pending : Pages.scheduledPending db' b = Pages.scheduledPending db b
  count_scheduled : Pages.countScheduled db' b = Pages.countScheduled db b

/-- What a step must not do: move an item into a menu of `b`, delete the parent
of a page of `b`, or turn its search results round. -/
structure Confined (fts : Fts5 α) (b : String) (db : ContentDb) (r : PanelRequest) :
    Prop where
  menus : movesInto db b r = false
  parents : orphansChild db b r = false
  order : ∀ w, pageWrite db r = some w → slugFree db r.organization w = true →
    KeepsOrder fts db b w

variable {fts : Fts5 α} {b : String} {db db' : ContentDb}

/-- The statistics of two indexes agree on every search of `b`. -/
def SameSearches (fts : Fts5 α) (b : String) (db db' : ContentDb) : Prop :=
  ∀ now include_drafts terms query, ftsMatchQuery terms = some query →
    SameOrder fts db' db query (matching fts db b now query include_drafts)

/-- The reads of `b` follow from its rows, the accounts and the order of its
searches. -/
theorem untouched_of_site (hhome : (siteOf db b).AtHome) (husers : db'.users = db.users)
    (hsite : siteOf db' b = siteOf db b) (horder : SameSearches fts b db db') :
    Untouched fts b db db' := by
  have hlisted := listed_congr hsite
  exact
    { site := hsite
      resolved := funext fun now => resolved_congr hsite (hsite ▸ hhome) now
      find_by_id := findById_congr hsite
      find_by_slug := findBySlug_congr hsite
      list := list_congr hsite
      list_paged := listPaged_congr hsite
      search := by
        funext now terms include_drafts limit offset
        have hview := congrFun (congrFun hlisted now) include_drafts
        refine (search_congr_iff hview).mpr ?_ limit offset
        intro query hquery
        rw [matching_congr hview]
        exact horder now include_drafts terms query hquery
      search_count := by
        funext now terms include_drafts
        exact searchCount_congr (congrFun (congrFun hlisted now) include_drafts)
      feed_entries := feedEntries_congr hsite
      count := count_congr hsite
      count_published := countPublished_congr hsite
      ancestors := ancestors_congr hsite
      children := children_congr hsite
      revisions := by
        intro id hid
        obtain ⟨p, hp⟩ := Option.isSome_iff_exists.mp hid
        exact (revisions_congr husers.symm hsite.symm hp).symm
      find_revision := by
        intro id hid
        obtain ⟨p, hp⟩ := Option.isSome_iff_exists.mp hid
        funext revision
        exact (findRevision_congr husers.symm hsite.symm hp revision).symm
      recent_revisions := recentRevisions_congr husers hsite
      scheduled_pending := scheduledPending_congr hsite
      count_scheduled := countScheduled_congr hsite }

/-- One confined request of another organization. -/
theorem step_confined {max_revisions : ℕ} {db'' : ContentDb} {r : PanelRequest}
    (hhome : (siteOf db b).AtHome) (hab : r.organization ≠ b)
    (hconfined : Confined fts b db' r) (husers : db'.users = db.users)
    (hsite : siteOf db' b = siteOf db b) (horder : SameSearches fts b db db')
    (h : step max_revisions db' r = some db'') :
    db''.users = db.users ∧ siteOf db'' b = siteOf db b ∧ SameSearches fts b db db'' := by
  obtain rfl := Option.some.inj h
  have heffect : Effect max_revisions db' r (handle max_revisions db' r).1 := handle_effect
  have hframe := frame_of_effect (hsite ▸ hhome) hab hconfined.menus hconfined.parents heffect
  refine ⟨hframe.users.trans husers, hframe.siteOf_eq.trans hsite, ?_⟩
  intro now include_drafts terms query hquery p hp q hq
  have hmatching : matching fts db b now query include_drafts =
      matching fts db' b now query include_drafts :=
    matching_congr (congrFun (congrFun (listed_congr hsite.symm) now) include_drafts)
  rw [← horder now include_drafts terms query hquery p hp q hq]
  unfold Ranked
  rcases index_of_effect fts heffect with hindex | ⟨w, hwrite, hslug, hindex⟩
  · rw [hindex]
  · rw [hindex]
    exact (hconfined.order w hwrite hslug now include_drafts terms query hquery p
      (hmatching ▸ hp) q (hmatching ▸ hq)).symm

/-- **Tenant isolation of writes.** In a run of requests of other organizations
whose steps are all confined, the rows of `b` and the answers for `b` never
change. -/
theorem writes_untouched (fts : Fts5 α) (max_revisions : ℕ) (db : ContentDb) (b : String)
    (as : List PanelRequest) (hhome : ItemsAtHome db)
    (hothers : ∀ a ∈ as, a.organization ≠ b)
    (hconfined : EachStep (step max_revisions) (Confined fts b) db as) :
    Throughout (step max_revisions) (Untouched fts b db) db as := by
  have hsite := siteOf_atHome hhome b
  have hboth : EachStep (step max_revisions)
      (fun t a => a.organization ≠ b ∧ Confined fts b t a) db as := by
    intro pre a t u hpre ht hu
    exact ⟨hothers a (hpre.subset (by simp)), hconfined pre a t u hpre ht hu⟩
  refine (throughout_of_eachStep _ (I := fun t => t.users = db.users ∧
    siteOf t b = siteOf db b ∧ SameSearches fts b db t) ?_ ?_ hboth).mono _ ?_
  · rintro t a u ⟨husers, hrows, horder⟩ ⟨hab, hc⟩ hu
    exact step_confined hsite hab hc husers hrows horder hu
  · exact ⟨rfl, rfl, fun _ _ _ _ _ _ _ _ _ => Iff.rfl⟩
  · rintro t ⟨husers, hrows, horder⟩
    exact untouched_of_site hsite husers hrows horder

/-- A single page has no order to lose. -/
theorem confined_of_single {r : PanelRequest} (hmenus : movesInto db b r = false)
    (hparents : orphansChild db b r = false) (hsingle : (pagesOf db b).length ≤ 1) :
    Confined fts b db r where
  menus := hmenus
  parents := hparents
  order := by
    intro w _ _ now include_drafts terms query _ p hp q hq
    obtain rfl : p = q := by
      have hp := mem_pagesOf_of_matching hp
      have hq := mem_pagesOf_of_matching hq
      match hpages : pagesOf db b with
      | [] => simp [hpages] at hp
      | [x] => simp_all
      | x :: y :: rest => simp [hpages] at hsingle
    exact iff_of_true (le_refl (α := α ×ₗ ℕ) _) (le_refl (α := α ×ₗ ℕ) _)

end Runs

/-! ## An item enters the menu of another organization -/

/-- Two sites with a page, a menu and an item each; `ana` edits the first. -/
def twoSites : ContentDb where
  users :=
    { rows := [(1, ⟨"ana", "hash", .user, 0, none⟩)]
      seq := 1, ids_nodup := by decide, ids_le_seq := by decide }
  organizations :=
    { rows := [(1, ⟨"acme", "Acme", "acme", 0⟩), (2, ⟨"beta", "Beta", "beta", 0⟩)]
      seq := 2, ids_nodup := by decide, ids_le_seq := by decide }
  memberships :=
    { rows := [⟨1, 1, .editor⟩], pk_nodup := by decide, role_check := by decide }
  domains := Constrained.empty
  pages :=
    { rows := [(1, ⟨1, publishedPage "uno" "x"⟩), (2, ⟨2, publishedPage "dos" "x"⟩)]
      seq := 2, ids_nodup := by decide, ids_le_seq := by decide
      checked := by decide, unique := by decide }
  menus :=
    { rows := [(1, ⟨1, "main", "Main", 0, 0⟩), (2, ⟨2, "main", "Main", 0, 0⟩)]
      seq := 2, ids_nodup := by decide, ids_le_seq := by decide
      checked := by decide, unique := by decide }
  media := Constrained.empty
  page_revisions := Table.empty
  menu_items :=
    { rows := [(1, ⟨1, 0, none, some 1, none⟩), (2, ⟨2, 0, none, some 2, none⟩)]
      seq := 2, ids_nodup := by decide, ids_le_seq := by decide
      checked := by decide, unique := by decide }

theorem twoSites_itemsAtHome : ItemsAtHome twoSites := by
  intro i item page hitem hpage
  simp only [twoSites, List.mem_cons, List.not_mem_nil, or_false, Prod.mk.injEq] at hitem
  rcases hitem with ⟨rfl, rfl⟩ | ⟨rfl, rfl⟩
  · obtain rfl : page = 1 := by simpa using hpage.symm
    exact ⟨⟨1, "main", "Main", 0, 0⟩, ⟨1, publishedPage "uno" "x"⟩, by simp [twoSites],
      by simp [twoSites], rfl⟩
  · obtain rfl : page = 2 := by simpa using hpage.symm
    exact ⟨⟨2, "main", "Main", 0, 0⟩, ⟨2, publishedPage "dos" "x"⟩, by simp [twoSites],
      by simp [twoSites], rfl⟩

/-- `ana` saves her item 1 under the path of this menu. -/
def saveItem (menu_id : ℤ) : PanelRequest where
  organization := "acme"
  user := 1
  action := .updateItem menu_id 1 (.ok ⟨some "Oferta", none, some "https://acme.example/",
    none⟩)
  time := 10

/-- A new page, a renamed menu and an item saved at home. -/
def homeWork : List PanelRequest :=
  [⟨"acme", 1, .createPage (.ok { PageForm.empty with
      slug := "tres"
      title := "Tres" }), 10⟩,
    ⟨"acme", 1, .renameMenu 1 (.ok "Menu"), 10⟩, saveItem 1]

theorem writes_untouched_home : ItemsAtHome twoSites ∧
    Throughout (step 20) (Untouched sqliteFts5 "beta" twoSites) twoSites homeWork := by
  refine ⟨twoSites_itemsAtHome, writes_untouched sqliteFts5 20 twoSites "beta" homeWork
    twoSites_itemsAtHome (by decide) ?_⟩
  have hcheck : checkEachStep (step 20) (fun t a => !movesInto t "beta" a &&
      !orphansChild t "beta" a && decide ((pagesOf t "beta").length ≤ 1))
      twoSites homeWork = true := by decide
  intro pre a t u hpre ht hu
  have h := eachStep_of_check _ hcheck pre a t u hpre ht hu
  simp only [Bool.and_eq_true, Bool.not_eq_true', decide_eq_true_eq] at h
  exact confined_of_single h.1.1 h.1.2 h.2

/-- `update_item` never compares the menu of the path with the item's
organization: the public menu of `beta` now shows the item. -/
theorem item_enters_other_menu :
    ItemsAtHome twoSites ∧ isEditorOf twoSites 1 "acme" = true ∧
      (run (step 20) twoSites [saveItem 2]).map (fun db => Menus.resolved db "beta" 10) =
        some [((2, ⟨"main", "Main", 0, 0⟩),
          [⟨0, "Oferta", "https://acme.example/"⟩, ⟨0, "t", "/p/dos"⟩])] ∧
      Menus.resolved twoSites "beta" 10 =
        [((2, ⟨"main", "Main", 0, 0⟩), [⟨0, "t", "/p/dos"⟩])] := by
  refine ⟨twoSites_itemsAtHome, by decide, ?_, ?_⟩
  · decide
  · decide

end Wallermax.Content
