import Wallermax.Content.ContentDb

/-!
# The page repository

`SqlitePageRepository` apart from its full-text search. Ids come from paths and
forms, so a lookup takes any integer. A save is one transaction: the page row,
its revision and the pruning of the history, or nothing.
-/

namespace Wallermax.Content

open Wallermax.Base
open Wallermax.Accounts
open Wallermax.Storage
open Wallermax.Tenants

structure NewPage : Type where
  slug : String
  title : String
  content : String
  body_format : BodyFormat
  is_published : Bool
  created_by : Option ℕ
  parent_id : Option ℕ
  position : ℤ
  meta_title : Option String
  meta_description : Option String
  og_image : Option String
  publish_at : Option ℤ
  revision_note : Option String

/-- No slug keeps the current one; no parent means top level. -/
structure PageUpdate : Type where
  slug : Option String
  title : String
  content : String
  body_format : BodyFormat
  is_published : Bool
  parent_id : Option ℕ
  position : ℤ
  meta_title : Option String
  meta_description : Option String
  og_image : Option String
  publish_at : Option ℤ
  edited_by : Option ℕ
  revision_note : Option String

structure PageSummary : Type where
  id : ℕ
  slug : String
  title : String
  is_published : Bool
  publish_at : Option ℤ
  updated_at : ℤ
  parent_id : Option ℕ
  position : ℤ
deriving DecidableEq

structure FeedEntry : Type where
  id : ℕ
  slug : String
  title : String
  updated_at : ℤ
  meta_description : Option String
deriving DecidableEq

structure RevisionSummary : Type where
  page_id : ℕ
  revision : ℤ
  slug : String
  title : String
  is_published : Bool
  publish_at : Option ℤ
  note : Option String
  created_at : ℤ
  edited_by_name : Option String
deriving DecidableEq

structure RecentRevision : Type where
  page_id : ℕ
  title : String
  slug : String
  revision : ℤ
  note : Option String
  created_at : ℤ
  edited_by_name : Option String
deriving DecidableEq

/-- `PageRecord::summary`. -/
def summary (page : ℕ × Page) : PageSummary where
  id := page.1
  slug := page.2.slug
  title := page.2.title
  is_published := page.2.is_published
  publish_at := page.2.publish_at
  updated_at := page.2.updated_at
  parent_id := page.2.parent_id
  position := page.2.position

/-- `PUBLIC_VISIBLE`: the flag, or a schedule that has elapsed. -/
def publicVisible (now : ℤ) (page : Page) : Bool :=
  page.is_published || page.publish_at.any fun due => due ≤ now

def maxListedRevisions : ℕ := 500

def maxAncestorHops : ℕ := 128

/-! ## Orders and windows -/

/-- `ORDER BY updated_at DESC, id DESC`. -/
def NewestFirst (p q : ℕ × Page) : Prop :=
  q.2.updated_at < p.2.updated_at ∨ (q.2.updated_at = p.2.updated_at ∧ q.1 ≤ p.1)

instance : DecidableRel NewestFirst := fun p q =>
  inferInstanceAs (Decidable (q.2.updated_at < p.2.updated_at ∨ _))

/-- `ORDER BY position, id`. -/
def SiblingOrder (p q : ℕ × Page) : Prop :=
  p.2.position < q.2.position ∨ (p.2.position = q.2.position ∧ p.1 ≤ q.1)

instance : DecidableRel SiblingOrder := fun p q =>
  inferInstanceAs (Decidable (p.2.position < q.2.position ∨ _))

/-- `ORDER BY publish_at ASC, id ASC`; `NULL` comes first. -/
def SoonestFirst (p q : ℕ × Page) : Prop :=
  match p.2.publish_at, q.2.publish_at with
  | none, none => p.1 ≤ q.1
  | none, some _ => True
  | some _, none => False
  | some due, some due' => due < due' ∨ (due = due' ∧ p.1 ≤ q.1)

instance : DecidableRel SoonestFirst := fun p q => by
  unfold SoonestFirst
  split <;> infer_instance

/-- `LIMIT limit OFFSET offset`; a negative limit is none, a negative offset 0. -/
def window {α : Type} (limit offset : ℤ) (rows : List α) : List α :=
  if limit < 0 then rows.drop offset.toNat
  else (rows.drop offset.toNat).take limit.toNat

theorem window_sublist {α : Type} (limit offset : ℤ) (rows : List α) :
    (window limit offset rows).Sublist rows := by
  unfold window
  split
  · exact List.drop_sublist _ _
  · exact (List.take_sublist _ _).trans (List.drop_sublist _ _)

/-- `LEFT JOIN users u ON u.id = r.edited_by`, for the name. -/
def editedByName (db : ContentDb) (edited_by : Option ℕ) : Option String :=
  edited_by.bind fun user => (findById db.users user).map fun u => u.2.username

namespace Pages

/-! ## Reads -/

def findById (db : ContentDb) (organization : String) (id : ℤ) : Option (ℕ × Page) :=
  (pagesOf db organization).find? fun p => (p.1 : ℤ) == id

def findBySlug (db : ContentDb) (organization slug : String) : Option (ℕ × Page) :=
  (pagesOf db organization).find? fun p => p.2.slug == slug

theorem findById_some {db : ContentDb} {organization : String} {id : ℤ} {p : ℕ × Page}
    (h : findById db organization id = some p) :
    p ∈ pagesOf db organization ∧ (p.1 : ℤ) = id :=
  ⟨List.mem_of_find?_eq_some h, by simpa using List.find?_some h⟩

/-- The filter shared by the listings. -/
def listed (db : ContentDb) (organization : String) (now : ℤ) (include_drafts : Bool) :
    List (ℕ × Page) :=
  (pagesOf db organization).filter fun p => include_drafts || publicVisible now p.2

def list (db : ContentDb) (organization : String) (now : ℤ) (include_drafts : Bool)
    (limit : ℤ) : List PageSummary :=
  (window limit 0 ((listed db organization now include_drafts).insertionSort
    NewestFirst)).map summary

theorem list_ids_nodup {db : ContentDb} {organization : String} {now limit : ℤ}
    {include_drafts : Bool} :
    ((list db organization now include_drafts limit).map PageSummary.id).Nodup := by
  have hlisted : ((listed db organization now include_drafts).map Prod.fst).Nodup :=
    (orgScope_ids_nodup _).sublist (List.filter_sublist.map _)
  have hsorted : (((listed db organization now include_drafts).insertionSort
      NewestFirst).map Prod.fst).Nodup :=
    ((List.perm_insertionSort _ _).map _).nodup_iff.mpr hlisted
  rw [list, List.map_map]
  exact hsorted.sublist ((window_sublist _ _ _).map _)

def listPaged (db : ContentDb) (organization : String) (now : ℤ)
    (include_drafts : Bool) (limit offset : ℤ) : List PageSummary :=
  (window limit offset ((listed db organization now include_drafts).insertionSort
    NewestFirst)).map summary

def feedEntry (p : ℕ × Page) : FeedEntry where
  id := p.1
  slug := p.2.slug
  title := p.2.title
  updated_at := p.2.updated_at
  meta_description := p.2.meta_description

def feedEntries (db : ContentDb) (organization : String) (now limit : ℤ) :
    List FeedEntry :=
  (window limit 0 ((listed db organization now false).insertionSort NewestFirst)).map
    feedEntry

def count (db : ContentDb) (organization : String) : ℕ := (pagesOf db organization).length

def countPublished (db : ContentDb) (organization : String) (now : ℤ) : ℕ :=
  (listed db organization now false).length

/-- A draft whose schedule has not elapsed. -/
def pending (now : ℤ) (page : Page) : Bool :=
  !page.is_published && page.publish_at.any fun due => now < due

def scheduledPending (db : ContentDb) (organization : String) (now limit : ℤ) :
    List PageSummary :=
  (window limit 0 (((pagesOf db organization).filter fun p =>
    pending now p.2).insertionSort SoonestFirst)).map summary

def countScheduled (db : ContentDb) (organization : String) (now : ℤ) : ℕ :=
  (pagesOf db organization).countP fun p => pending now p.2

/-- The loop of `ancestors` from `current`, with the hops it has left. The page
the walk began at is not collected; the topmost page comes first. -/
def ancestorsLoop (db : ContentDb) (organization : String) (id : ℤ) :
    ℕ → ℤ → List (ℕ × Page) → List (ℕ × Page)
  | 0, _, chain => chain
  | hops + 1, current, chain =>
      match findById db organization current with
      | none => chain
      | some page =>
          let chain := if (page.1 : ℤ) = id then chain else page :: chain
          match page.2.parent_id with
          | none => chain
          | some parent =>
              if parent = page.1 then chain
              else ancestorsLoop db organization id hops parent chain

def ancestors (db : ContentDb) (organization : String) (id : ℤ) : List PageSummary :=
  (ancestorsLoop db organization id maxAncestorHops id []).map summary

/-- `parent_id IS ?`: `NULL` matches `NULL`. -/
def children (db : ContentDb) (organization : String) (now : ℤ) (parent_id : Option ℕ)
    (include_drafts : Bool) : List PageSummary :=
  (((pagesOf db organization).filter fun p =>
    p.2.parent_id == parent_id && (publicVisible now p.2 || include_drafts)).insertionSort
      SiblingOrder).map summary

def revisionSummary (db : ContentDb) (r : PageRevision) : RevisionSummary where
  page_id := r.page_id
  revision := r.revision
  slug := r.slug
  title := r.title
  is_published := r.is_published
  publish_at := r.publish_at
  note := r.note
  created_at := r.created_at
  edited_by_name := editedByName db r.edited_by

/-- `revisions`: by page id alone. -/
def revisions (db : ContentDb) (page_id : ℤ) : List RevisionSummary :=
  ((((db.page_revisions.rows.map Prod.snd).filter fun r =>
    (r.page_id : ℤ) == page_id).insertionSort fun r q => q.revision ≤ r.revision).take
      maxListedRevisions).map (revisionSummary db)

/-- `find_revision`: by page id alone. -/
def findRevision (db : ContentDb) (page_id revision : ℤ) :
    Option (PageRevision × Option String) :=
  ((db.page_revisions.rows.map Prod.snd).find? fun r =>
    (r.page_id : ℤ) == page_id && r.revision == revision).map fun r =>
      (r, editedByName db r.edited_by)

def recentRevision (db : ContentDb) (r : PageRevision) : RecentRevision where
  page_id := r.page_id
  title := r.title
  slug := r.slug
  revision := r.revision
  note := r.note
  created_at := r.created_at
  edited_by_name := editedByName db r.edited_by

/-- `recent_revisions`: newest row first, joined to the organization's pages. -/
def recentRevisions (db : ContentDb) (organization : String) (limit : ℤ) :
    List RecentRevision :=
  (window limit 0 ((revisionsOf db organization).insertionSort fun r q =>
    q.1 ≤ r.1)).map fun r => recentRevision db r.2

/-! ## Writes -/

/-- `record_revision`; the editor is a foreign key. -/
def recordRevision (db : ContentDb) (page_id : ℕ) (snapshot : RevisionSnapshot)
    (edited_by : Option ℕ) (now : ℤ) : Except RepositoryError (ContentDb × ℤ) :=
  let numbers := ((db.page_revisions.rows.map Prod.snd).filter fun r =>
    r.page_id == page_id).map PageRevision.revision
  let revision := numbers.max?.getD 0 + 1
  if edited_by.all fun user => (Accounts.findById db.users user).isSome then
    .ok ({ db with
      page_revisions := db.page_revisions.insert
        { toRevisionSnapshot := snapshot
          page_id := page_id
          revision := revision
          edited_by := edited_by
          created_at := now } }, revision)
  else .error .internal

/-- `prune_revisions`; a cap of 0 keeps everything. -/
def pruneRevisions (max_revisions : ℕ) (db : ContentDb) (page_id : ℕ) (revision : ℤ) :
    ContentDb :=
  let floor := revision - max_revisions
  if max_revisions = 0 ∨ floor ≤ 0 then db
  else { db with
    page_revisions := db.page_revisions.delete fun _ r =>
      r.page_id == page_id && decide (r.revision ≤ floor) }

/-- The end of a save: `record_revision`, then `prune_revisions`. -/
def appendRevision (max_revisions : ℕ) (db : ContentDb) (page_id : ℕ)
    (snapshot : RevisionSnapshot) (edited_by : Option ℕ) (now : ℤ) :
    Except RepositoryError ContentDb :=
  (recordRevision db page_id snapshot edited_by now).map fun (db, revision) =>
    pruneRevisions max_revisions db page_id revision

def columns (page : NewPage) (now : ℤ) : Page where
  slug := page.slug
  title := page.title
  content := page.content
  is_published := page.is_published
  created_by := page.created_by
  created_at := now
  updated_at := now
  parent_id := page.parent_id
  position := page.position
  meta_title := page.meta_title
  meta_description := page.meta_description
  og_image := page.og_image
  body_format := page.body_format
  publish_at := page.publish_at

def newSnapshot (page : NewPage) : RevisionSnapshot where
  slug := page.slug
  title := page.title
  content := page.content
  body_format := page.body_format
  parent_id := page.parent_id
  position := page.position
  meta_title := page.meta_title
  meta_description := page.meta_description
  og_image := page.og_image
  is_published := page.is_published
  publish_at := page.publish_at
  note := page.revision_note

/-- `create`, and the id of the new page. -/
def create (max_revisions : ℕ) (db : ContentDb) (organization : String) (page : NewPage)
    (now : ℤ) : Except RepositoryError (ContentDb × ℕ) :=
  match insertContent db.toTenantDb organization (.page (columns page now)) with
  | .error e => .error e
  | .ok (tables, id) =>
      (appendRevision max_revisions { db with toTenantDb := tables } id (newSnapshot page)
        page.created_by now).map fun db => (db, id)

/-- The `SET` list of `update`. -/
def apply (update : PageUpdate) (now : ℤ) (page : Page) : Page :=
  { page with
    slug := update.slug.getD page.slug
    title := update.title
    content := update.content
    is_published := update.is_published
    updated_at := now
    parent_id := update.parent_id
    position := update.position
    meta_title := update.meta_title
    meta_description := update.meta_description
    og_image := update.og_image
    body_format := update.body_format
    publish_at := update.publish_at }

def updateSnapshot (update : PageUpdate) (slug : String) : RevisionSnapshot where
  slug := update.slug.getD slug
  title := update.title
  content := update.content
  body_format := update.body_format
  parent_id := update.parent_id
  position := update.position
  meta_title := update.meta_title
  meta_description := update.meta_description
  og_image := update.og_image
  is_published := update.is_published
  publish_at := update.publish_at
  note := update.revision_note

/-- The `UPDATE` statement: the new slug may be taken, the parent is a foreign
key. -/
def updateRow (db : ContentDb) (organization : String) (id : ℕ) (update : PageUpdate)
    (now : ℤ) : Except RepositoryError ContentDb :=
  let owner := db.owner organization
  match db.pages.update? (fun i p => i == id && owner == some p.organization_id) fun p =>
      { p with columns := apply update now p.columns } with
  | none => .error .duplicate
  | some pages =>
      if update.parent_id.all fun parent => (db.pages.find? fun i _ => i == parent).isSome
      then .ok { db with pages := pages }
      else .error .internal

/-- `update`; `none` for a page the organization does not have. -/
def update (max_revisions : ℕ) (db : ContentDb) (organization : String) (id : ℤ)
    (update : PageUpdate) (now : ℤ) : Except RepositoryError (Option ContentDb) :=
  match findById db organization id with
  | none => .ok none
  | some (i, current) =>
      match updateRow db organization i update now with
      | .error e => .error e
      | .ok db =>
          (appendRevision max_revisions db i (updateSnapshot update current.slug)
            update.edited_by now).map some

/-- The rows that hang on a deleted page: its children move to the top level,
its revisions and the menu items that link it go. -/
def cascade (db : ContentDb) (id : ℕ) : ContentDb :=
  { db with
    pages := db.pages.modify (fun _ p => p.columns.parent_id == some id)
      (fun p => { p with columns := { p.columns with parent_id := none } })
      (fun _ => rfl) (fun _ _ => ⟨rfl, rfl⟩)
    page_revisions := db.page_revisions.delete fun _ r => r.page_id == id
    menu_items := db.menu_items.delete fun _ item => item.page_id == some id }

/-- `delete`; the state is unchanged when no row matches. -/
def delete (db : ContentDb) (organization : String) (id : ℤ) : ContentDb :=
  match findById db organization id with
  | none => db
  | some (i, _) => cascade { db with pages := db.pages.delete fun j _ => j == i } i

end Pages

end Wallermax.Content
