import Wallermax.Content.Handlers

/-!
# What a panel request writes

`Effect` sums the handlers up: a request leaves the database as it is or issues
one write of one repository, and each constructor carries what the handler has
checked by then. The invariants of the content plane are case analyses over it,
with one lemma for what each write does to the tables.
-/

namespace Wallermax.Content

open Wallermax.Base
open Wallermax.Accounts
open Wallermax.Storage
open Wallermax.Tenants

/-- The page a valid save is about, and what it asks for. -/
def saveAsked (db : ContentDb) (r : PanelRequest) : Option ((ℕ × Page) × PageUpdate) :=
  match r.action with
  | .updatePage id (.ok form) =>
      if (validatePageForm form).isOk then
        (Pages.findById db r.organization id).map fun p =>
          (p, formUpdate r.user r.time form)
      else none
  | .restoreRevision id revision =>
      (Pages.findById db r.organization id).bind fun p =>
        (Pages.findRevision db id revision).map fun s =>
          (p, restoreUpdate r.user p.2 s.1 revision)
  | _ => none

theorem saveAsked_found {db : ContentDb} {r : PanelRequest} {p : ℕ × Page}
    {update : PageUpdate} (h : saveAsked db r = some (p, update)) :
    Pages.findById db r.organization p.1 = some p := by
  unfold saveAsked at h
  split at h
  · split at h
    · obtain ⟨q, hq, heq⟩ := Option.map_eq_some_iff.mp h
      obtain ⟨rfl, _⟩ := Prod.mk.inj heq
      obtain ⟨_, rfl⟩ := Pages.findById_some hq
      exact hq
    · cases h
  · obtain ⟨q, hq, h⟩ := Option.bind_eq_some_iff.mp h
    obtain ⟨s, _, heq⟩ := Option.map_eq_some_iff.mp h
    obtain ⟨rfl, _⟩ := Prod.mk.inj heq
    obtain ⟨_, rfl⟩ := Pages.findById_some hq
    exact hq
  · cases h

/-- The parent a save stores, as the move guard is given it. -/
def PageUpdate.parent (update : PageUpdate) : Option ℤ :=
  update.parent_id.map fun p : ℕ => (p : ℤ)

/-- A write to the indexed columns of `pages`. -/
inductive PageWrite : Type where
  | insert (page : Page)
  | replace (id : ℕ) (page : Page)
  | remove (id : ℕ)

/-- The page a request writes, unless its slug is taken: the form is valid and
the parent passes the guard. -/
def pageWrite (db : ContentDb) (r : PanelRequest) : Option PageWrite :=
  match r.action with
  | .createPage (.ok form) =>
      if (validatePageForm form).isOk && form.parent.all fun parent =>
          (Pages.findById db r.organization parent).isSome then
        some (.insert (Pages.columns (newPage r.user r.time form) r.time))
      else none
  | .deletePage id => (Pages.findById db r.organization id).map fun p => .remove p.1
  | _ => (saveAsked db r).bind fun (p, update) =>
      if (moveGuard db r.organization p.1 update.parent).isNone then
        some (.replace p.1 (Pages.apply update r.time p.2))
      else none

theorem pageWrite_of_saveAsked {db : ContentDb} {r : PanelRequest} {p : ℕ × Page}
    {update : PageUpdate} (hasked : saveAsked db r = some (p, update))
    (hguard : moveGuard db r.organization p.1 update.parent = none) :
    pageWrite db r = some (.replace p.1 (Pages.apply update r.time p.2)) := by
  unfold pageWrite
  split
  next haction => simp [saveAsked, haction] at hasked
  next haction => simp [saveAsked, haction] at hasked
  next => simp [hasked, hguard]

/-- The writes to the pages. -/
inductive PageEffect (max_revisions : ℕ) (db : ContentDb) (r : PanelRequest) :
    ContentDb → Prop where
  | created {page : NewPage} {db' : ContentDb} {id : ℕ}
      (hparent : ∀ parent, page.parent_id = some parent →
        (Pages.findById db r.organization parent).isSome)
      (hwrite : pageWrite db r = some (.insert (Pages.columns page r.time)))
      (h : Pages.create max_revisions db r.organization page r.time = .ok (db', id)) :
      PageEffect max_revisions db r db'
  | saved {p : ℕ × Page} {update : PageUpdate} {db' : ContentDb}
      (hasked : saveAsked db r = some (p, update))
      (hguard : moveGuard db r.organization p.1 update.parent = none)
      (h : Pages.update max_revisions db r.organization p.1 update r.time =
        .ok (some db')) :
      PageEffect max_revisions db r db'
  | deleted {id : ℤ} (haction : r.action = .deletePage id) :
      PageEffect max_revisions db r (Pages.delete db r.organization id)

inductive Effect (max_revisions : ℕ) (db : ContentDb) (r : PanelRequest) :
    ContentDb → Prop where
  | nothing : Effect max_revisions db r db
  | page {db' : ContentDb} (h : PageEffect max_revisions db r db') :
      Effect max_revisions db r db'
  | menuCreated {name title : String} {db' : ContentDb} {id : ℕ}
      (h : Menus.create db r.organization name title r.time = .ok (db', id)) :
      Effect max_revisions db r db'
  | menuRenamed {id : ℤ} {title : String} {db' : ContentDb}
      (h : Menus.updateTitle db r.organization id title r.time = some db') :
      Effect max_revisions db r db'
  | menuDeleted {id : ℤ} : Effect max_revisions db r (Menus.delete db r.organization id)
  | itemCreated {menu_id : ℤ} {form : ItemForm} {db' : ContentDb}
      (hmenu : (Menus.findById db r.organization menu_id).isSome)
      (hform : validateItemForm db r.organization form = .ok ())
      (h : Menus.addItem db (form.item menu_id) = .ok db') :
      Effect max_revisions db r db'
  | itemSaved {menu_id item_id : ℤ} {form : ItemForm} {db' : ContentDb}
      {found : Option (ℕ × MenuItem)}
      (haction : r.action = .updateItem menu_id item_id (.ok form))
      (hform : validateItemForm db r.organization form = .ok ())
      (h : Menus.updateItem db r.organization item_id (form.item menu_id) =
        .ok (db', found)) :
      Effect max_revisions db r db'
  | itemDeleted {item_id : ℤ} :
      Effect max_revisions db r (Menus.deleteItem db r.organization item_id)
  | mediaCreated {media : Media} {db' : ContentDb} {id : ℕ}
      (h : MediaLibrary.create db r.organization media = .ok (db', id)) :
      Effect max_revisions db r db'
  | altSaved {id : ℤ} {alt_text : String} {db' : ContentDb}
      (h : MediaLibrary.updateAlt db r.organization id alt_text = some db') :
      Effect max_revisions db r db'
  | mediaDeleted {id : ℤ} :
      Effect max_revisions db r (MediaLibrary.delete db r.organization id)

/-! ## What a write does to the tables -/

theorem exists_of_map_ok {ε α β : Type} {x : Except ε α} {f : α → β} {b : β}
    (h : x.map f = .ok b) : ∃ a, x = .ok a ∧ f a = b := by
  cases x with
  | error e => cases h
  | ok a => exact ⟨a, rfl, Except.ok.inj h⟩

/-- The two tables differ in the revisions of this page only. -/
def SameBut (page_id : ℕ) (t t' : Table PageRevision) : Prop :=
  ∀ q : ℕ × PageRevision → Bool, (∀ i r, r.page_id = page_id → q (i, r) = false) →
    t'.rows.filter q = t.rows.filter q

section Writes

variable {max_revisions : ℕ} {db db' : ContentDb} {organization : String} {now : ℤ}

theorem appendRevision_ok {page_id : ℕ} {snapshot : RevisionSnapshot}
    {edited_by : Option ℕ}
    (h : Pages.appendRevision max_revisions db page_id snapshot edited_by now = .ok db') :
    ∃ t, db' = { db with page_revisions := t } ∧ SameBut page_id db.page_revisions t := by
  simp only [Pages.appendRevision, Pages.recordRevision] at h
  split at h
  · simp only [Except.map, Except.ok.injEq, Pages.pruneRevisions] at h
    split at h
    · subst h
      refine ⟨_, rfl, ?_⟩
      intro q hq
      exact Table.filter_insert (hq _ _ rfl)
    · subst h
      refine ⟨_, rfl, ?_⟩
      intro q hq
      rw [Table.filter_delete]
      · exact Table.filter_insert (hq _ _ rfl)
      · intro i r _ hr
        simp only [Bool.and_eq_true, beq_iff_eq] at hr
        exact hq i r hr.1
  · cases h

/-- What `create` has done when it succeeds, statement by statement. -/
theorem Pages.create_inv {page : NewPage} {id : ℕ}
    (h : Pages.create max_revisions db organization page now = .ok (db', id)) :
    ∃ o pages, db.owner organization = some o ∧
      pageReferences db.toTenantDb (columns page now) = true ∧
      db.pages.insert? (some ⟨o, columns page now⟩) = some pages ∧ id = db.pages.nextId ∧
      appendRevision max_revisions { db with pages := pages } db.pages.nextId
        (newSnapshot page) page.created_by now = .ok db' := by
  unfold Pages.create at h
  split at h
  · cases h
  · rename_i tables i hinsert
    simp only [insertContent] at hinsert
    split at hinsert
    · cases hinsert
    · rename_i hrefs
      obtain ⟨pages, hown, heq⟩ := exists_of_map_ok hinsert
      obtain ⟨rfl, rfl⟩ := Prod.mk.inj heq
      obtain ⟨o, howner, hrow⟩ := insertOwned_ok hown
      obtain ⟨db'', happend, heq⟩ := exists_of_map_ok h
      obtain ⟨rfl, rfl⟩ := Prod.mk.inj heq
      exact ⟨o, pages, howner, by simpa using hrefs, hrow, rfl, happend⟩

/-- `create`: a row for the organization, and its revision. -/
theorem Pages.create_ok {page : NewPage} {id : ℕ}
    (h : Pages.create max_revisions db organization page now = .ok (db', id)) :
    ∃ o pages revisions, db.owner organization = some o ∧
      db.pages.insert? (some ⟨o, columns page now⟩) = some pages ∧
      db' = { db with
        pages := pages
        page_revisions := revisions } ∧
      SameBut db.pages.nextId db.page_revisions revisions := by
  obtain ⟨o, pages, howner, _, hrow, _, happend⟩ := Pages.create_inv h
  obtain ⟨t, rfl, ht⟩ := appendRevision_ok happend
  exact ⟨o, pages, t, howner, hrow, rfl, ht⟩

/-- `update_row`: the parent of the request is there. -/
theorem Pages.updateRow_ok {id : ℕ} {update : PageUpdate}
    (h : updateRow db organization id update now = .ok db') :
    ∃ pages, db.pages.update?
        (fun i p => i == id && db.owner organization == some p.organization_id)
        (fun p => { p with columns := apply update now p.columns }) = some pages ∧
      (∀ q, update.parent_id = some q → ∃ w, (q, w) ∈ db.pages.rows) ∧
      db' = { db with pages := pages } := by
  simp only [updateRow] at h
  split at h
  · cases h
  · rename_i pages hpages
    split at h
    · rename_i hparent
      cases h
      refine ⟨pages, hpages, ?_, rfl⟩
      intro q hq
      rw [hq] at hparent
      exact Table.exists_of_find?_id hparent
    · cases h

/-- `update`: the row of a page of the organization, and its revision. -/
theorem Pages.update_ok {id : ℤ} {update : PageUpdate}
    (h : Pages.update max_revisions db organization id update now = .ok (some db')) :
    ∃ i current o pages revisions, findById db organization id = some (i, current) ∧
      db.owner organization = some o ∧
      db.pages.update? (fun j p => j == i && some o == some p.organization_id)
        (fun p => { p with columns := apply update now p.columns }) = some pages ∧
      db' = { db with
        pages := pages
        page_revisions := revisions } ∧
      SameBut i db.page_revisions revisions := by
  unfold Pages.update at h
  split at h
  · cases h
  · rename_i i current hfind
    obtain ⟨o, howner, _⟩ := mem_orgScope.mp (findById_some hfind).1
    split at h
    · cases h
    · rename_i mid hrow
      obtain ⟨pages, hpages, _, rfl⟩ := Pages.updateRow_ok hrow
      rw [howner] at hpages
      obtain ⟨db'', happend, heq⟩ := exists_of_map_ok h
      obtain rfl := Option.some.inj heq
      obtain ⟨t, rfl, ht⟩ := appendRevision_ok happend
      exact ⟨i, current, o, pages, t, hfind, howner, hpages, rfl, ht⟩

/-- `UNIQUE (organization_id, slug)` lets the write through. -/
def slugFree (db : ContentDb) (organization : String) : PageWrite → Bool
  | .insert page => (Pages.findBySlug db organization page.slug).isNone
  | .replace id page =>
      (Pages.findBySlug db organization page.slug).all fun p => p.1 == id
  | .remove _ => true

theorem slugFree_of_create {page : NewPage} {id : ℕ}
    (h : Pages.create max_revisions db organization page now = .ok (db', id)) :
    slugFree db organization (.insert (Pages.columns page now)) = true := by
  obtain ⟨o, pages, _, ho, hpages, _, _⟩ := Pages.create_ok h
  simp only [slugFree, Pages.findBySlug, Option.isNone_iff_eq_none, List.find?_eq_none]
  rintro ⟨i, q⟩ hq hslug
  obtain ⟨o', ho', hrow⟩ := mem_orgScope.mp hq
  obtain rfl : o = o' := Option.some.inj (ho.symm.trans ho')
  have hfree := ((Constrained.admits_iff.mp (Constrained.admits_of_insert? hpages)).2
    _ hrow).2
  simp_all [Kind.ownedCollides, Kind.collides, pageKind]

theorem slugFree_of_update {p : ℕ × Page} {update : PageUpdate}
    (hp : Pages.findById db organization p.1 = some p)
    (h : Pages.update max_revisions db organization p.1 update now = .ok (some db')) :
    slugFree db organization (.replace p.1 (Pages.apply update now p.2)) = true := by
  obtain ⟨i, current, o, pages, _, hfind, ho, hpages, _, _⟩ := Pages.update_ok h
  obtain rfl := Option.some.inj (hp.symm.trans hfind)
  obtain ⟨o', ho', hrow⟩ := mem_orgScope.mp (Pages.findById_some hfind).1
  obtain rfl : o = o' := Option.some.inj (ho.symm.trans ho')
  have htable := Constrained.update?_some hpages
  simp only [slugFree, Pages.findBySlug]
  cases hslug : (pagesOf db organization).find? fun p =>
      p.2.slug == (Pages.apply update now current).slug with
  | none => rfl
  | some q =>
      obtain ⟨j, other⟩ := q
      obtain ⟨o', ho', hother⟩ := mem_orgScope.mp (List.mem_of_find?_eq_some hslug)
      obtain rfl : o = o' := Option.some.inj (ho.symm.trans ho')
      by_contra hne
      have hid : j ≠ i := by simpa using hne
      have hsaved : (i, ⟨o, Pages.apply update now current⟩) ∈ pages.rows := by
        rw [htable]
        exact Table.mem_update.mpr ⟨_, hrow, by simp⟩
      have hkept : (j, ⟨o, other⟩) ∈ pages.rows := by
        rw [htable]
        exact Table.mem_update.mpr ⟨_, hother, by simp [hid]⟩
      apply hid
      apply pages.eq_of_collide ownedCollides_comm hkept hsaved
      simpa [Kind.ownedCollides, Kind.collides, pageKind] using List.find?_some hslug

theorem Menus.create_ok {name title : String} {id : ℕ}
    (h : Menus.create db organization name title now = .ok (db', id)) :
    ∃ o menus, db.owner organization = some o ∧
      db.menus.insert? (some ⟨o, ⟨name, title, now, now⟩⟩) = some menus ∧
      db' = { db with menus := menus } := by
  simp only [Menus.create, insertContent] at h
  obtain ⟨tables, hinsert, heq⟩ := exists_of_map_ok h
  obtain ⟨rfl, rfl⟩ := Prod.mk.inj heq
  obtain ⟨menus, hown, rfl⟩ := exists_of_map_ok hinsert
  obtain ⟨o, howner, hrow⟩ := insertOwned_ok hown
  exact ⟨o, menus, howner, hrow, rfl⟩

theorem MediaLibrary.create_ok {row : Media} {id : ℕ}
    (h : MediaLibrary.create db organization row = .ok (db', id)) :
    ∃ o media, db.owner organization = some o ∧
      db.media.insert? (some ⟨o, row⟩) = some media ∧
      db' = { db with media := media } := by
  simp only [MediaLibrary.create, insertContent] at h
  obtain ⟨tables, hinsert, heq⟩ := exists_of_map_ok h
  obtain ⟨rfl, rfl⟩ := Prod.mk.inj heq
  obtain ⟨media, hown, rfl⟩ := exists_of_map_ok hinsert
  obtain ⟨o, howner, hrow⟩ := insertOwned_ok hown
  exact ⟨o, media, howner, hrow, rfl⟩

/-- `add_item`: one row, in a menu that exists. -/
theorem Menus.addItem_ok {item : NewMenuItem} (h : Menus.addItem db item = .ok db') :
    ∃ items, db.menu_items.insert? (some (itemColumns item)) = some items ∧
      db' = { db with menu_items := items } := by
  unfold Menus.addItem at h
  split at h
  · cases h
  · split at h
    · cases h
    · rename_i items hitems
      cases h
      exact ⟨items, hitems, rfl⟩

/-- `update_item`: the row of an item of the organization, or nothing. -/
theorem Menus.updateItem_ok {item_id : ℤ} {item : NewMenuItem}
    {found : Option (ℕ × MenuItem)}
    (h : Menus.updateItem db organization item_id item = .ok (db', found)) :
    (findItem db organization item_id = none ∧ db' = db) ∨
    ∃ i row items, findItem db organization item_id = some (i, row) ∧
      itemReferences db item = true ∧
      db.menu_items.update? (fun j _ => j == i) (fun _ => itemColumns item) = some items ∧
      db' = { db with menu_items := items } := by
  unfold Menus.updateItem at h
  split at h
  · rename_i hfind
    cases h
    exact .inl ⟨hfind, rfl⟩
  · rename_i i row hfind
    split at h
    · cases h
    · rename_i hrefs
      split at h
      · cases h
      · rename_i items hitems
        cases h
        exact .inr ⟨i, row, items, hfind, by simpa using hrefs, hitems, rfl⟩

end Writes

/-- The other writes leave the pages alone. -/
theorem Effect.pages {r : PanelRequest} (h : Effect max_revisions db r db') :
    db'.pages = db.pages ∨ PageEffect max_revisions db r db' := by
  cases h with
  | nothing => exact .inl rfl
  | page h => exact .inr h
  | menuCreated h =>
      obtain ⟨_, _, _, _, rfl⟩ := Menus.create_ok h
      exact .inl rfl
  | menuRenamed h =>
      obtain ⟨_, _, rfl⟩ := Option.map_eq_some_iff.mp h
      exact .inl rfl
  | menuDeleted =>
      left
      unfold Menus.delete
      split <;> rfl
  | itemCreated _ _ h =>
      obtain ⟨_, _, rfl⟩ := Menus.addItem_ok h
      exact .inl rfl
  | itemSaved _ _ h =>
      rcases Menus.updateItem_ok h with ⟨_, rfl⟩ | ⟨_, _, _, _, _, _, rfl⟩
      · exact .inl rfl
      · exact .inl rfl
  | itemDeleted =>
      left
      unfold Menus.deleteItem
      split <;> rfl
  | mediaCreated h =>
      obtain ⟨_, _, _, _, rfl⟩ := MediaLibrary.create_ok h
      exact .inl rfl
  | altSaved h =>
      obtain ⟨_, _, rfl⟩ := Option.map_eq_some_iff.mp h
      exact .inl rfl
  | mediaDeleted =>
      left
      unfold MediaLibrary.delete
      split <;> rfl

/-! ## What a handler does -/

/-- An id that names a page is no negative number. -/
theorem toNat_of_pageById {db : ContentDb} {organization : String} {id : ℤ}
    (h : (Pages.findById db organization id).isSome) : ((id.toNat : ℕ) : ℤ) = id := by
  obtain ⟨p, hp⟩ := Option.isSome_iff_exists.mp h
  have := (Pages.findById_some hp).2
  omega

/-- What the move guard has checked. -/
theorem moveGuard_none {db : ContentDb} {organization : String} {id parent : ℤ}
    (h : moveGuard db organization id (some parent) = none) :
    parent ≠ id ∧ (Pages.findById db organization parent).isSome ∧
      ∀ a ∈ Pages.ancestors db organization parent, (a.id : ℤ) ≠ id := by
  simp only [moveGuard] at h
  split at h
  · cases h
  · rename_i hne
    split at h
    · cases h
    · rename_i hfound
      split at h
      · cases h
      · rename_i hancestors
        refine ⟨hne, ?_, ?_⟩
        · simpa [Option.isSome_iff_ne_none] using hfound
        · simpa using hancestors

section Handlers

variable {max_revisions : ℕ} {db : ContentDb} {r : PanelRequest}

theorem createPage_effect {form : Except String PageForm}
    (haction : r.action = .createPage form) :
    Effect max_revisions db r
      (createPage max_revisions db r.organization r.user r.time form).1 := by
  unfold createPage
  split
  · exact .nothing
  · rename_i form
    split
    · exact .nothing
    · rename_i hvalid
      split
      · exact .nothing
      · rename_i hparent
        have hasked : ∀ parent, form.parent = some parent →
            (Pages.findById db r.organization parent).isSome := by
          intro parent heq
          simpa [heq, Option.isSome_iff_ne_none] using hparent
        split
        · rename_i hcreate
          refine .page (.created ?_ ?_ hcreate)
          · intro parent heq
            obtain ⟨asked, hform, rfl⟩ := Option.map_eq_some_iff.mp heq
            rw [toNat_of_pageById (hasked asked hform)]
            exact hasked asked hform
          · have hall : (form.parent.all fun parent =>
                (Pages.findById db r.organization parent).isSome) = true := by
              cases hform : form.parent with
              | none => rfl
              | some parent => exact hasked parent hform
            simp [pageWrite, haction, hvalid, hall, Except.isOk, Except.toBool]
        · exact .nothing
        · exact .nothing

/-- A save that went through found its page. -/
theorem found_of_update {id : ℤ} {update : PageUpdate} {db' : ContentDb}
    (h : Pages.update max_revisions db r.organization id update r.time = .ok (some db')) :
    ∃ p, Pages.findById db r.organization id = some p ∧ (p.1 : ℤ) = id := by
  obtain ⟨i, current, _, _, _, hfind, _⟩ := Pages.update_ok h
  exact ⟨(i, current), hfind, (Pages.findById_some hfind).2⟩

theorem updatePage_effect {id : ℤ} {form : Except String PageForm}
    (haction : r.action = .updatePage id form) :
    Effect max_revisions db r
      (updatePage max_revisions db r.organization r.user r.time id form).1 := by
  unfold updatePage
  split
  · exact .nothing
  · rename_i form
    split
    · exact .nothing
    · rename_i hvalid
      split
      · exact .nothing
      · rename_i hguard
        -- the id the form names is the one the row stores
        have hstored : (formUpdate r.user r.time form).parent = form.parent := by
          cases hparent : form.parent with
          | none => simp [PageUpdate.parent, formUpdate, hparent]
          | some parent =>
              rw [hparent] at hguard
              have hfound := (moveGuard_none hguard).2.1
              simp only [PageUpdate.parent, formUpdate, hparent, Option.map_some,
                toNat_of_pageById hfound]
        split
        · rename_i hupdate
          obtain ⟨p, hp, rfl⟩ := found_of_update hupdate
          refine .page (.saved (p := p) ?_ (hstored ▸ hguard) hupdate)
          simp [saveAsked, haction, hvalid, hp, Except.isOk, Except.toBool]
        · exact .nothing
        · exact .nothing
        · exact .nothing

theorem restoreRevision_effect {id revision : ℤ}
    (haction : r.action = .restoreRevision id revision) :
    Effect max_revisions db r
      (restoreRevision max_revisions db r.organization r.user r.time id revision).1 := by
  unfold restoreRevision
  split
  · exact .nothing
  · rename_i page hpage
    split
    · exact .nothing
    · rename_i snapshot _ hfind
      split
      · exact .nothing
      · rename_i hguard
        split
        · rename_i hupdate
          obtain ⟨_, rfl⟩ := Pages.findById_some hpage
          refine .page (.saved ?_ hguard hupdate)
          simp [saveAsked, haction, hpage, hfind]
        · exact .nothing
        · exact .nothing
        · exact .nothing

theorem createMenu_effect {form : Except String MenuForm} :
    Effect max_revisions db r (createMenu db r.organization r.time form).1 := by
  unfold createMenu
  split
  · exact .nothing
  · split
    · exact .nothing
    · split
      · rename_i hcreate
        exact .menuCreated hcreate
      · exact .nothing
      · exact .nothing

theorem renameMenu_effect {id : ℤ} {title : Except String String} :
    Effect max_revisions db r (renameMenu db r.organization r.time id title).1 := by
  unfold renameMenu
  simp only
  split
  · exact .nothing
  · split
    · exact .nothing
    · split
      · rename_i hrename
        exact .menuRenamed hrename
      · exact .nothing

theorem createItem_effect {menu_id : ℤ} {form : Except String ItemForm} :
    Effect max_revisions db r (createItem db r.organization menu_id form).1 := by
  unfold createItem
  split
  · exact .nothing
  · rename_i hmenu
    split
    · exact .nothing
    · split
      · exact .nothing
      · rename_i hform
        split
        · rename_i hadd
          refine .itemCreated ?_ hform hadd
          simpa [Option.isSome_iff_ne_none] using hmenu
        · exact .nothing

theorem updateItem_effect {menu_id item_id : ℤ} {form : Except String ItemForm}
    (haction : r.action = .updateItem menu_id item_id form) :
    Effect max_revisions db r (updateItem db r.organization menu_id item_id form).1 := by
  unfold updateItem
  simp only
  split
  · exact .nothing
  · split
    · exact .nothing
    · split
      · exact .nothing
      · rename_i hform
        split
        · rename_i hupdate
          exact .itemSaved haction hform hupdate
        · rename_i hupdate
          exact .itemSaved haction hform hupdate
        · exact .nothing

theorem deleteItem_effect {menu_id item_id : ℤ} :
    Effect max_revisions db r (deleteItem db r.organization menu_id item_id).1 := by
  unfold deleteItem
  simp only
  split
  · exact .itemDeleted
  · exact .nothing

theorem uploadMedia_effect {upload : Except String Upload} :
    Effect max_revisions db r
      (uploadMedia db r.organization r.user r.time upload).1 := by
  unfold uploadMedia
  split
  · exact .nothing
  · split
    · exact .nothing
    · split
      · exact .nothing
      · split
        · exact .nothing
        · split
          · exact .nothing
          · split
            · exact .nothing
            · split
              · rename_i hcreate
                exact .mediaCreated hcreate
              · exact .nothing

theorem updateAlt_effect {id : ℤ} {alt : Except String String} :
    Effect max_revisions db r (updateAlt db r.organization id alt).1 := by
  unfold updateAlt
  simp only
  split
  · exact .nothing
  · split
    · exact .nothing
    · split
      · rename_i hupdate
        exact .altSaved hupdate
      · exact .nothing

theorem deleteMedia_effect {id : ℤ} :
    Effect max_revisions db r (deleteMedia db r.organization id).1 := by
  unfold deleteMedia
  split
  · exact .nothing
  · exact .mediaDeleted

/-- **Every request is one of these writes.** -/
theorem handle_effect : Effect max_revisions db r (handle max_revisions db r).1 := by
  unfold handle
  split
  · unfold perform
    split
    next haction => exact createPage_effect haction
    next haction => exact updatePage_effect haction
    next haction => exact restoreRevision_effect haction
    next haction => exact .page (.deleted haction)
    next => exact createMenu_effect
    next => exact renameMenu_effect
    next => exact .menuDeleted
    next => exact createItem_effect
    next haction => exact updateItem_effect haction
    next => exact deleteItem_effect
    next => exact uploadMedia_effect
    next => exact updateAlt_effect
    next => exact deleteMedia_effect
  · exact .nothing

end Handlers

end Wallermax.Content
