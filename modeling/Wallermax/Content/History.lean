import Wallermax.Base.Retention
import Wallermax.Content.PageTree

/-!
# The history of a page

`update` reads the page before its transaction begins, so other saves commit in
between. A run interleaves the transactions of any number of requests with
deletions and with restarts under another `max_revisions`. The row takes its
slug from the table and the revision takes it from the row that was read; every
other column of the two comes from the request.
-/

namespace Wallermax.Content

open Wallermax.Base
open Wallermax.Accounts
open Wallermax.Storage
open Wallermax.Tenants

/-- The transaction of `update` on the page its lookup read; `none` when no row
matches by then. -/
def Pages.commitUpdate (max_revisions : ℕ) (db : ContentDb) (organization : String)
    (current : ℕ × Page) (update : PageUpdate) (now : ℤ) :
    Except RepositoryError (Option ContentDb) :=
  let owner := db.owner organization
  if db.pages.count (fun i p => i == current.1 && owner == some p.organization_id) = 0 then
    .ok none
  else
    match updateRow db organization current.1 update now with
    | .error e => .error e
    | .ok db =>
        (appendRevision max_revisions db current.1 (updateSnapshot update current.2.slug)
          update.edited_by now).map some

theorem owner_count_ne_zero {db : ContentDb} {organization : String} {i : ℕ} {v : Owned Page}
    (hrow : (i, v) ∈ db.pages.rows) (howner : db.owner organization = some v.organization_id) :
    db.pages.count (fun j p => j == i && db.owner organization == some p.organization_id) ≠
      0 := by
  apply Nat.pos_iff_ne_zero.mp
  exact Table.count_pos.mpr ⟨_, _, hrow, by simp [howner]⟩

/-- With nothing in between, `update` is its lookup and its transaction. -/
theorem Pages.update_eq_commitUpdate (max_revisions : ℕ) (db : ContentDb)
    (organization : String) (id : ℤ) (update : PageUpdate) (now : ℤ) :
    Pages.update max_revisions db organization id update now =
      match findById db organization id with
      | none => .ok none
      | some current => commitUpdate max_revisions db organization current update now := by
  unfold Pages.update
  cases hfind : findById db organization id with
  | none => rfl
  | some current =>
      obtain ⟨o, ho, hrow⟩ := mem_orgScope.mp (findById_some hfind).1
      have hpresent := owner_count_ne_zero hrow ho
      cases hrows : updateRow db organization current.1 update now <;>
        simp [commitUpdate, hpresent, hrows]

/-! ## Runs -/

/-- A request between the lookup and the transaction of its `update`. -/
structure Editing : Type where
  organization : String
  current : ℕ × Page
  update : PageUpdate

/-- The database, the cap of the running process, the requests in flight, and
how often each page id was saved. -/
structure History : Type where
  db : ContentDb
  max_revisions : ℕ
  editing : ℕ → Option Editing
  saves : ℕ → ℕ

inductive HistoryStep : Type where
  | create (organization : String) (page : NewPage) (now : ℤ)
  | lookup (request : ℕ) (organization : String) (id : ℤ) (update : PageUpdate)
  | commit (request : ℕ) (now : ℤ)
  | delete (organization : String) (id : ℤ)
  | restart (max_revisions : ℕ)

namespace History

def saved (s : History) (db : ContentDb) (id : ℕ) : History :=
  { s with
    db := db
    saves := Function.update s.saves id (s.saves id + 1) }

def answered (s : History) (request : ℕ) : History :=
  { s with editing := Function.update s.editing request none }

def step (s : History) : HistoryStep → Option History
  | .create organization page now =>
      match Pages.create s.max_revisions s.db organization page now with
      | .error _ => some s
      | .ok (db, id) => some (s.saved db id)
  | .lookup request organization id update =>
      match Pages.findById s.db organization id with
      | none => some s
      | some current =>
          some { s with
            editing := Function.update s.editing request
              (some ⟨organization, current, update⟩) }
  | .commit request now =>
      (s.editing request).map fun e =>
        match Pages.commitUpdate s.max_revisions s.db e.organization e.current e.update now with
        | .ok (some db) => (s.saved db e.current.1).answered request
        | _ => s.answered request
  | .delete organization id => some { s with db := Pages.delete s.db organization id }
  | .restart max_revisions =>
      some { s with
        max_revisions := max_revisions
        editing := fun _ => none }

/-- A first start: no page was ever saved. -/
structure Fresh (s : History) : Prop where
  pages : s.db.pages.rows = []
  revisions : s.db.page_revisions.rows = []
  editing : ∀ request, s.editing request = none
  saves : ∀ i, s.saves i = 0

end History

/-- The revision numbers of a page, in row order. -/
def revisionNumbers (db : ContentDb) (page_id : ℕ) : List ℤ :=
  ((db.page_revisions.rows.filter fun r => r.2.page_id == page_id).map fun r => r.2.revision)

/-- An id that was handed out and names no page any more. -/
def PageGone (db : ContentDb) (i : ℕ) : Prop :=
  i ≤ db.pages.seq ∧ ∀ v, (i, v) ∉ db.pages.rows

/-- The revision holds the columns of the page, except for a parent that was
deleted since. -/
structure Records (db : ContentDb) (page : Page) (r : RevisionSnapshot) : Prop where
  slug : r.slug = page.slug
  title : r.title = page.title
  content : r.content = page.content
  body_format : r.body_format = page.body_format
  position : r.position = page.position
  meta_title : r.meta_title = page.meta_title
  meta_description : r.meta_description = page.meta_description
  og_image : r.og_image = page.og_image
  is_published : r.is_published = page.is_published
  publish_at : r.publish_at = page.publish_at
  parent : r.parent_id = page.parent_id ∨
    ∃ q, r.parent_id = some q ∧ page.parent_id = none ∧ PageGone db q

/-- Every page has a history that ends at its last save and at its columns. -/
structure HistoryOk (s : History) : Prop where
  numbers : ∀ i v, (i, v) ∈ s.db.pages.rows → ∃ first, 1 ≤ first ∧ first ≤ s.saves i ∧
    revisionNumbers s.db i = block first (s.saves i)
  newest : ∀ i v, (i, v) ∈ s.db.pages.rows → ∃ k r, (k, r) ∈ s.db.page_revisions.rows ∧
    r.page_id = i ∧ r.revision = s.saves i ∧ Records s.db v.columns r.toRevisionSnapshot

/-- What a step does beyond that: a save leaves at most `max_revisions`
revisions, and a deletion takes the revisions of the deleted page alone. -/
structure StepOk (s : History) (a : HistoryStep) (t : History) : Prop where
  capped : ∀ i, t.saves i ≠ s.saves i → 0 < s.max_revisions →
    (revisionNumbers t.db i).length ≤ s.max_revisions
  deleted : ∀ organization id, a = .delete organization id → ∀ k r,
    (k, r) ∈ t.db.page_revisions.rows ↔ (k, r) ∈ s.db.page_revisions.rows ∧
      ¬ ((∃ v, (r.page_id, v) ∈ s.db.pages.rows) ∧ ∀ v, (r.page_id, v) ∉ t.db.pages.rows)

/-- The row is there and the constraints let the save through. -/
structure Accepts (db : ContentDb) (organization : String) (i : ℕ) (update : PageUpdate) :
    Prop where
  row : ∃ v, (i, v) ∈ db.pages.rows ∧ db.owner organization = some v.organization_id
  slug : ∀ slug, update.slug = some slug → ∀ j w, (j, w) ∈ db.pages.rows → j ≠ i →
    db.owner organization = some w.organization_id → w.columns.slug ≠ slug
  parent : ∀ q, update.parent_id = some q → ∃ w, (q, w) ∈ db.pages.rows
  editor : ∀ user, update.edited_by = some user → (Accounts.findById db.users user).isSome

/-- An accepted transaction without a slug finds the page under the slug its
lookup read. -/
def SlugCurrent (s : History) : HistoryStep → Prop
  | .commit request _ => ∀ e, s.editing request = some e → e.update.slug = none →
      Accepts s.db e.organization e.current.1 e.update →
      ∀ v, (e.current.1, v) ∈ s.db.pages.rows → v.columns.slug = e.current.2.slug
  | _ => True

/-! ## What a save does -/

/-- The page `i` is saved as `v` and the revision of it is `snapshot`. -/
structure SaveLanded (max_revisions : ℕ) (db db' : ContentDb) (i : ℕ) (v : Owned Page)
    (snapshot : RevisionSnapshot) : Prop where
  organizations : db'.organizations = db.organizations
  row : RowWritten db db' i v
  seq : db'.pages.seq = max db.pages.seq i
  parent : ∀ q, v.columns.parent_id = some q → ∃ w, (q, w) ∈ db'.pages.rows
  numbers : revisionNumbers db' i = append max_revisions (revisionNumbers db i)
  others : SameBut i db.page_revisions db'.page_revisions
  recorded : ∃ k r, (k, r) ∈ db'.page_revisions.rows ∧ r.page_id = i ∧
    r.revision = nextNumber (revisionNumbers db i) ∧ r.toRevisionSnapshot = snapshot

section Saves

variable {max_revisions : ℕ} {db db' : ContentDb} {organization : String} {now : ℤ}

theorem revisionNumbers_insert {r : PageRevision} :
    revisionNumbers { db with page_revisions := db.page_revisions.insert r } r.page_id =
      revisionNumbers db r.page_id ++ [r.revision] := by
  simp [revisionNumbers, Table.insert]

theorem revisionNumbers_prune {page_id : ℕ} {revision : ℤ} :
    revisionNumbers (Pages.pruneRevisions max_revisions db page_id revision) page_id =
      prune max_revisions revision (revisionNumbers db page_id) := by
  simp only [Pages.pruneRevisions, prune]
  split
  · rfl
  · simp only [revisionNumbers, Table.delete, List.filter_map, List.filter_filter]
    congr 1
    apply List.filter_congr
    intro r _
    cases hpage : r.2.page_id == page_id with
    | false => simp
    | true =>
        rw [Bool.eq_iff_iff]
        simp

/-- The revision a save appends and what the pruning keeps. -/
theorem appendRevision_landed {page_id : ℕ} {snapshot : RevisionSnapshot}
    {edited_by : Option ℕ}
    (h : Pages.appendRevision max_revisions db page_id snapshot edited_by now = .ok db') :
    revisionNumbers db' page_id = append max_revisions (revisionNumbers db page_id) ∧
    ∃ k r, (k, r) ∈ db'.page_revisions.rows ∧ r.page_id = page_id ∧
      r.revision = nextNumber (revisionNumbers db page_id) ∧
      r.toRevisionSnapshot = snapshot := by
  have hnumbers : ((db.page_revisions.rows.map Prod.snd).filter fun r =>
      r.page_id == page_id).map PageRevision.revision = revisionNumbers db page_id := by
    rw [List.filter_map, List.map_map]
    rfl
  simp only [Pages.appendRevision, Pages.recordRevision, hnumbers] at h
  split at h
  · simp only [Except.map, Except.ok.injEq] at h
    subst h
    constructor
    · rw [revisionNumbers_prune, append]
      exact congrArg (prune _ _) revisionNumbers_insert
    · refine ⟨db.page_revisions.nextId, ⟨snapshot, page_id, _, edited_by, now⟩, ?_, rfl, rfl, rfl⟩
      simp only [Pages.pruneRevisions]
      split
      · exact Table.mem_insert.mpr (.inr rfl)
      · rename_i hfloor
        -- the floor lies below the number just taken
        refine Table.mem_delete.mpr ⟨Table.mem_insert.mpr (.inr rfl), ?_⟩
        simp only [beq_self_eq_true, Bool.true_and, decide_eq_false_iff_not]
        omega
  · cases h

theorem editor_of_appendRevision {page_id : ℕ} {snapshot : RevisionSnapshot}
    {edited_by : Option ℕ}
    (h : Pages.appendRevision max_revisions db page_id snapshot edited_by now = .ok db')
    (user : ℕ) (huser : edited_by = some user) :
    (Accounts.findById db.users user).isSome := by
  simp only [Pages.appendRevision, Pages.recordRevision] at h
  split at h
  · rename_i hedited
    simpa [huser] using hedited
  · cases h

/-- `create`: revision 1 of a fresh id. -/
theorem create_landed {page : NewPage} {id : ℕ}
    (h : Pages.create max_revisions db organization page now = .ok (db', id)) :
    id = db.pages.nextId ∧ ∃ o, SaveLanded max_revisions db db' id
      ⟨o, Pages.columns page now⟩ (Pages.newSnapshot page) := by
  obtain ⟨o, pages, ho, hrefs, hpages, rfl, happend⟩ := Pages.create_inv h
  obtain ⟨t, hdb, hothers⟩ := appendRevision_ok happend
  obtain ⟨hnumbers, hrecorded⟩ := appendRevision_landed happend
  subst hdb
  have hrows := Constrained.rows_insert? hpages
  refine ⟨rfl, o, ?_⟩
  constructor
  · rfl
  · constructor
    · simp [hrows]
    · intro j w hj
      simp [hrows, hj]
    · intro w hw
      exact absurd hw Table.not_mem_nextId
  · simp only [Constrained.insert?, Option.dite_none_right_eq_some, Option.some.injEq] at hpages
    obtain ⟨_, rfl⟩ := hpages
    rfl
  · intro q hq
    have hparent := (Bool.and_eq_true_iff.mp hrefs).2
    rw [show (Pages.columns page now).parent_id = some q from hq, Option.all_some,
      Bool.or_eq_true, beq_iff_eq] at hparent
    rcases hparent with rfl | hfound
    · exact ⟨_, by simp [hrows]; exact .inr rfl⟩
    · obtain ⟨w, hmem⟩ := Table.exists_of_find?_id hfound
      exact ⟨w, by simp [hrows, hmem]⟩
  · exact hnumbers
  · exact hothers
  · exact hrecorded

/-- `update`: the row as it is now under the columns of the request. -/
theorem commitUpdate_landed {current : ℕ × Page} {update : PageUpdate}
    (h : Pages.commitUpdate max_revisions db organization current update now =
      .ok (some db')) :
    Accepts db organization current.1 update ∧
    ∃ v, (current.1, v) ∈ db.pages.rows ∧ SaveLanded max_revisions db db' current.1
      { v with columns := Pages.apply update now v.columns }
      (Pages.updateSnapshot update current.2.slug) := by
  simp only [Pages.commitUpdate] at h
  split at h
  · cases h
  · rename_i hcount
    obtain ⟨i, v, hrow, hmatch⟩ := Table.count_pos.mp (Nat.pos_of_ne_zero hcount)
    obtain ⟨hid, howner⟩ := Bool.and_eq_true_iff.mp hmatch
    obtain rfl : i = current.1 := by simpa using hid
    have howner : db.owner organization = some v.organization_id := by simpa using howner
    split at h
    · cases h
    · rename_i mid hmid
      obtain ⟨pages, hpages, habove, rfl⟩ := Pages.updateRow_ok hmid
      obtain ⟨db'', happend, heq⟩ := exists_of_map_ok h
      obtain rfl := Option.some.inj heq
      obtain ⟨t, hdb, hothers⟩ := appendRevision_ok happend
      obtain ⟨hnumbers, hrecorded⟩ := appendRevision_landed happend
      have heditor := editor_of_appendRevision happend
      subst hdb
      have htable := Constrained.update?_some hpages
      have hrows : ∀ {j : ℕ} {w : Owned Page}, (j, w) ∈ pages.rows ↔ ∃ u,
          (j, u) ∈ db.pages.rows ∧ (if j = current.1 ∧
            db.owner organization = some u.organization_id then
            { u with columns := Pages.apply update now u.columns } else u) = w := by
        intro j w
        rw [htable, Table.mem_update]
        simp
      have hsaved : (current.1, { v with columns := Pages.apply update now v.columns }) ∈
          pages.rows := hrows.mpr ⟨v, hrow, if_pos ⟨rfl, howner⟩⟩
      refine ⟨⟨⟨v, hrow, howner⟩, ?_, habove, heditor⟩, v, hrow, ?_⟩
      · -- another row under the new slug would be the saved one
        rintro slug hslug j w hw hj howner' rfl
        have hkept : (j, w) ∈ pages.rows := hrows.mpr ⟨w, hw, if_neg fun h => hj h.1⟩
        apply hj
        apply pages.eq_of_collide ownedCollides_comm hkept hsaved
        have howners : w.organization_id = v.organization_id :=
          Option.some.inj (howner'.symm.trans howner)
        simp [Kind.ownedCollides, Kind.collides, pageKind, Pages.apply, hslug, howners]
      · constructor
        · rfl
        · constructor
          · exact hsaved
          · intro j w hj
            simp [hrows, hj]
          · intro w hw
            obtain rfl := Table.eq_of_mem hrow hw
            rfl
        · have hle := Table.le_seq_of_mem hrow
          rw [htable, Table.seq_update]
          omega
        · intro q hq
          obtain ⟨w, hmem⟩ := habove q hq
          exact ⟨_, hrows.mpr ⟨w, hmem, rfl⟩⟩
        · exact hnumbers
        · exact hothers
        · exact hrecorded

/-- **What the constraints accept is saved.** -/
theorem commitUpdate_of_accepts {current : ℕ × Page} {update : PageUpdate}
    (h : Accepts db organization current.1 update) :
    ∃ db', Pages.commitUpdate max_revisions db organization current update now =
      .ok (some db') := by
  obtain ⟨v, hrow, howner⟩ := h.row
  have hfound : (update.parent_id.all fun parent =>
      (db.pages.find? fun i _ => i == parent).isSome) = true := by
    cases hq : update.parent_id with
    | none => rfl
    | some q =>
        obtain ⟨w, hw⟩ := h.parent q hq
        rw [Option.all_some, Table.find?_eq_some hw (by simp) (by simp)]
        rfl
  have hedited : (update.edited_by.all fun user =>
      (Accounts.findById db.users user).isSome) = true := by
    cases huser : update.edited_by with
    | none => rfl
    | some user => exact h.editor user huser
  have hclear : ∀ j w, (j, w) ∈ db.pages.rows → j ≠ current.1 → pageKind.ownedCollides
      { v with columns := Pages.apply update now v.columns } w = false := by
    intro j w hw hj
    by_contra hcollide
    have hcollide : v.organization_id = w.organization_id ∧
        (Pages.apply update now v.columns).slug = w.columns.slug := by
      simpa [Kind.ownedCollides, Kind.collides, pageKind] using hcollide
    obtain ⟨howners, hslugs⟩ := hcollide
    cases hslug : update.slug with
    | none =>
        -- the slug stays, and it was free before
        apply hj
        apply db.pages.eq_of_collide ownedCollides_comm hw hrow
        have hkept : v.columns.slug = w.columns.slug := by
          simpa [Pages.apply, hslug] using hslugs
        simp [Kind.ownedCollides, Kind.collides, pageKind, howners, hkept]
    | some slug =>
        apply h.slug slug hslug j w hw hj (howners ▸ howner)
        simpa [Pages.apply, hslug] using hslugs.symm
  obtain ⟨pages, hpages⟩ := Constrained.exists_update?
    (p := fun i p => i == current.1 && db.owner organization == some p.organization_id)
    (f := fun p => { p with columns := Pages.apply update now p.columns })
    ownedCollides_comm hrow
    (fun j w _ hp => by simpa using (Bool.and_eq_true_iff.mp hp).1) rfl hclear
  simp only [Pages.commitUpdate, if_neg (owner_count_ne_zero hrow howner), Pages.updateRow,
    hpages, hfound, if_true, Pages.appendRevision, Pages.recordRevision, hedited]
  exact ⟨_, rfl⟩

/-- `delete`: nothing, or one page with its revisions, whose children lose
their parent. -/
theorem delete_cases (db : ContentDb) (organization : String) (id : ℤ) :
    Pages.delete db organization id = db ∨
    ∃ i v, (i, v) ∈ db.pages.rows ∧
      (∀ j w, (j, w) ∈ (Pages.delete db organization id).pages.rows ↔
        ∃ u, (j, u) ∈ db.pages.rows ∧ j ≠ i ∧
          (if u.columns.parent_id = some i then
            { u with columns := { u.columns with parent_id := none } } else u) = w) ∧
      (Pages.delete db organization id).pages.seq = db.pages.seq ∧
      (Pages.delete db organization id).page_revisions =
        db.page_revisions.delete fun _ r => r.page_id == i := by
  unfold Pages.delete
  split
  · exact .inl rfl
  · rename_i i page hfind
    obtain ⟨o, _, hrow⟩ := mem_orgScope.mp (Pages.findById_some hfind).1
    refine .inr ⟨i, _, hrow, ?_, rfl, rfl⟩
    intro j w
    simp only [Pages.cascade, Constrained.modify, Table.mem_update, Constrained.mem_delete,
      beq_iff_eq, beq_eq_false_iff_ne, and_assoc]

end Saves

/-! ## Steps -/

/-- The rows of a run, whatever its slugs are. -/
structure Kept (s : History) : Prop where
  pages : ∀ k r, (k, r) ∈ s.db.page_revisions.rows → ∃ v, (r.page_id, v) ∈ s.db.pages.rows
  fresh : ∀ i, s.db.pages.seq < i → s.saves i = 0
  counted : ∀ i v, (i, v) ∈ s.db.pages.rows → 0 < s.saves i
  numbers : ∀ i v, (i, v) ∈ s.db.pages.rows → Retained (revisionNumbers s.db i) (s.saves i)

/-- What a step does to the database and to the count of saves. -/
inductive Outcome (s : History) (a : HistoryStep) (t : History) : Prop where
  | idle (hdb : t.db = s.db) (hsaves : t.saves = s.saves) (hslug : SlugCurrent s a)
      (hlabel : ∀ organization id, a ≠ .delete organization id)
  | saved {i : ℕ} {v : Owned Page} {snapshot : RevisionSnapshot}
      (hpage : i = s.db.pages.nextId ∨ ∃ w, (i, w) ∈ s.db.pages.rows)
      (hlanded : SaveLanded s.max_revisions s.db t.db i v snapshot)
      (hsaves : t.saves = Function.update s.saves i (s.saves i + 1))
      (hslug : SlugCurrent s a ↔ Records t.db v.columns snapshot)
      (hlabel : ∀ organization id, a ≠ .delete organization id)
  | deleted {organization : String} {id : ℤ} (hlabel : a = .delete organization id)
      (hdb : t.db = Pages.delete s.db organization id) (hsaves : t.saves = s.saves)

theorem records_updateSnapshot {db : ContentDb} {update : PageUpdate} {slug : String}
    {now : ℤ} {page : Page} :
    Records db (Pages.apply update now page) (Pages.updateSnapshot update slug) ↔
      (update.slug = none → page.slug = slug) := by
  constructor
  · intro h hnone
    have hslug := h.slug
    simpa [Pages.apply, Pages.updateSnapshot, hnone] using hslug.symm
  · intro h
    refine ⟨?_, rfl, rfl, rfl, rfl, rfl, rfl, rfl, rfl, rfl, .inl rfl⟩
    cases hslug : update.slug with
    | none => simp [Pages.apply, Pages.updateSnapshot, hslug, h hslug]
    | some slug => simp [Pages.apply, Pages.updateSnapshot, hslug]

theorem outcome_of_step {s t : History} {a : HistoryStep} (h : s.step a = some t) :
    Outcome s a t := by
  cases a with
  | create organization page now =>
      simp only [History.step] at h
      split at h
      · cases h
        exact .idle rfl rfl trivial (by simp)
      · rename_i db id hcreate
        cases h
        obtain ⟨hid, o, hlanded⟩ := create_landed hcreate
        refine .saved (.inl hid) hlanded rfl (iff_of_true trivial ?_) (by simp)
        exact ⟨rfl, rfl, rfl, rfl, rfl, rfl, rfl, rfl, rfl, rfl, .inl rfl⟩
  | lookup request organization id update =>
      simp only [History.step] at h
      split at h
      · cases h
        exact .idle rfl rfl trivial (by simp)
      · cases h
        exact .idle rfl rfl trivial (by simp)
  | commit request now =>
      obtain ⟨e, he, ht⟩ := Option.map_eq_some_iff.mp h
      subst ht
      split
      · rename_i db hcommit
        obtain ⟨haccepts, v, hrow, hlanded⟩ := commitUpdate_landed hcommit
        refine .saved (.inr ⟨v, hrow⟩) hlanded rfl ?_ (by simp)
        rw [records_updateSnapshot]
        constructor
        · intro hslug hnone
          exact hslug e he hnone haccepts v hrow
        · intro hslug e' he' hnone _ w hw
          obtain rfl := Option.some.inj (he.symm.trans he')
          obtain rfl := Table.eq_of_mem hrow hw
          exact hslug hnone
      · rename_i hrefused
        refine .idle rfl rfl ?_ (by simp)
        intro e' he' _ haccepts
        obtain rfl := Option.some.inj (he.symm.trans he')
        obtain ⟨db', hcommit⟩ := commitUpdate_of_accepts haccepts
        exact absurd hcommit (hrefused db')
  | delete organization id =>
      cases h
      exact .deleted rfl rfl rfl
  | restart max_revisions =>
      cases h
      exact .idle rfl rfl trivial (by simp)

section Steps

variable {s t : History} {a : HistoryStep}

theorem revisionNumbers_of_sameBut {db db' : ContentDb} {i j : ℕ} (hj : j ≠ i)
    (h : SameBut i db.page_revisions db'.page_revisions) :
    revisionNumbers db' j = revisionNumbers db j := by
  rw [revisionNumbers, revisionNumbers, h]
  intro _ r hr
  simpa [hr] using fun heq => hj heq.symm

theorem mem_revisions_of_sameBut {db db' : ContentDb} {i k : ℕ} {r : PageRevision}
    (hr : r.page_id ≠ i) (h : SameBut i db.page_revisions db'.page_revisions) :
    (k, r) ∈ db'.page_revisions.rows ↔ (k, r) ∈ db.page_revisions.rows := by
  have hfilter := h (fun q => q.2.page_id != i) (by simp)
  have hmem : ∀ t : Table PageRevision, (k, r) ∈ t.rows ↔
      (k, r) ∈ t.rows.filter fun q => q.2.page_id != i := by
    intro t
    simp [hr]
  rw [hmem, hfilter, ← hmem]

/-- A page about to be saved has a history, which is empty when it is new. -/
theorem Kept.retained (h : Kept s) {i : ℕ}
    (hpage : i = s.db.pages.nextId ∨ ∃ w, (i, w) ∈ s.db.pages.rows) :
    Retained (revisionNumbers s.db i) (s.saves i) := by
  rcases hpage with rfl | ⟨w, hw⟩
  · left
    refine ⟨h.fresh _ (by simp [Table.nextId]), ?_⟩
    rw [revisionNumbers, List.map_eq_nil_iff, List.filter_eq_nil_iff]
    rintro ⟨k, r⟩ hr hpage
    obtain ⟨v, hv⟩ := h.pages k r hr
    rw [show r.page_id = s.db.pages.nextId by simpa using hpage] at hv
    exact Table.not_mem_nextId hv
  · exact h.numbers i w hw

/-- Two revisions of a page with one number are one row. -/
theorem revision_unique {i k k' : ℕ} {v : Owned Page} {r r' : PageRevision} (h : Kept s)
    (hv : (i, v) ∈ s.db.pages.rows) (hr : (k, r) ∈ s.db.page_revisions.rows)
    (hr' : (k', r') ∈ s.db.page_revisions.rows) (hpage : r.page_id = i)
    (hpage' : r'.page_id = i) (heq : r.revision = r'.revision) : r = r' := by
  have hnodup : (revisionNumbers s.db i).Nodup := by
    rcases h.numbers i v hv with ⟨_, hnil⟩ | ⟨first, _, _, hblock⟩
    · rw [hnil]
      exact List.nodup_nil
    · rw [hblock, block]
      exact List.Nodup.map (fun _ _ heq => Int.ofNat_inj.mp heq) List.nodup_range'
  have hmem : ∀ {k : ℕ} {r : PageRevision}, (k, r) ∈ s.db.page_revisions.rows →
      r.page_id = i → (k, r) ∈ s.db.page_revisions.rows.filter fun q => q.2.page_id == i := by
    intro k r hr hpage
    simp [hr, hpage]
  exact congrArg Prod.snd
    (List.inj_on_of_nodup_map hnodup (hmem hr hpage) (hmem hr' hpage') heq)

theorem Kept.of_eq (hs : Kept s) (hdb : t.db = s.db) (hsaves : t.saves = s.saves) :
    Kept t := by
  constructor
  · rw [hdb]
    exact hs.pages
  · rw [hdb, hsaves]
    exact hs.fresh
  · rw [hdb, hsaves]
    exact hs.counted
  · rw [hdb, hsaves]
    exact hs.numbers

theorem Kept.saved {i : ℕ} {v : Owned Page} {snapshot : RevisionSnapshot} (hs : Kept s)
    (hpage : i = s.db.pages.nextId ∨ ∃ w, (i, w) ∈ s.db.pages.rows)
    (hlanded : SaveLanded s.max_revisions s.db t.db i v snapshot)
    (hsaves : t.saves = Function.update s.saves i (s.saves i + 1)) : Kept t := by
  have hrow := hlanded.row
  constructor
  · intro k r hr
    by_cases hri : r.page_id = i
    · exact ⟨v, hri ▸ hrow.written⟩
    · obtain ⟨w, hw⟩ := hs.pages k r ((mem_revisions_of_sameBut hri hlanded.others).mp hr)
      exact ⟨w, (hrow.others _ w hri).mpr hw⟩
  · intro j hj
    rw [hlanded.seq] at hj
    rw [hsaves, Function.update_of_ne (by omega)]
    exact hs.fresh j (by omega)
  · intro j w hw
    rw [hsaves]
    by_cases hj : j = i
    · subst hj
      simp
    · rw [Function.update_of_ne hj]
      exact hs.counted j w ((hrow.others j w hj).mp hw)
  · intro j w hw
    rw [hsaves]
    by_cases hj : j = i
    · subst hj
      rw [Function.update_self, hlanded.numbers]
      exact (hs.retained hpage).append.1
    · rw [Function.update_of_ne hj, revisionNumbers_of_sameBut hj hlanded.others]
      exact hs.numbers j w ((hrow.others j w hj).mp hw)

/-- A gone id stays gone: new rows take new ids. -/
theorem PageGone.saved {db db' : ContentDb} {m i q : ℕ} {v : Owned Page}
    {snapshot : RevisionSnapshot} (h : PageGone db q)
    (hpage : i = db.pages.nextId ∨ ∃ w, (i, w) ∈ db.pages.rows)
    (hlanded : SaveLanded m db db' i v snapshot) : PageGone db' q := by
  have hqi : q ≠ i := by
    rintro rfl
    rcases hpage with heq | ⟨w, hw⟩
    · have hle := h.1
      rw [heq, Table.nextId] at hle
      omega
    · exact h.2 w hw
  constructor
  · rw [hlanded.seq]
    exact Nat.le_trans h.1 (Nat.le_max_left _ _)
  · intro w hw
    exact h.2 w ((hlanded.row.others q w hqi).mp hw)

/-- The history after a save holds exactly when the save recorded what it wrote. -/
theorem historyOk_saved {i : ℕ} {v : Owned Page} {snapshot : RevisionSnapshot} (hs : Kept s)
    (hok : HistoryOk s) (hpage : i = s.db.pages.nextId ∨ ∃ w, (i, w) ∈ s.db.pages.rows)
    (hlanded : SaveLanded s.max_revisions s.db t.db i v snapshot)
    (hsaves : t.saves = Function.update s.saves i (s.saves i + 1)) :
    HistoryOk t ↔ Records t.db v.columns snapshot := by
  have ht := hs.saved hpage hlanded hsaves
  have hrow := hlanded.row
  obtain ⟨k, r, hr, hri, hnumber, rfl⟩ := hlanded.recorded
  rw [(hs.retained hpage).nextNumber] at hnumber
  have hnewest : r.revision = (t.saves i : ℤ) := by
    rw [hnumber, hsaves, Function.update_self]
    rfl
  constructor
  · intro h
    obtain ⟨k', r', hr', hri', hnumber', hrecords⟩ := h.newest i v hrow.written
    obtain rfl := revision_unique ht hrow.written hr' hr hri' hri (hnumber'.trans hnewest.symm)
    exact hrecords
  · intro h
    constructor
    · intro j w hw
      rcases ht.numbers j w hw with ⟨hzero, _⟩ | hblock
      · have := ht.counted j w hw
        omega
      · exact hblock
    · intro j w hw
      by_cases hj : j = i
      · subst hj
        obtain rfl := Table.eq_of_mem hrow.written hw
        exact ⟨k, r, hr, hri, hnewest, h⟩
      · obtain ⟨k', r', hr', hrj, hnumber', hrecords⟩ :=
          hok.newest j w ((hrow.others j w hj).mp hw)
        have hri' : r'.page_id ≠ i := fun heq => hj (hrj.symm.trans heq)
        refine ⟨k', r', (mem_revisions_of_sameBut hri' hlanded.others).mpr hr', hrj, ?_, ?_⟩
        · rw [hsaves, Function.update_of_ne hj]
          exact hnumber'
        · obtain ⟨hslug, htitle, hcontent, hformat, hposition, hmt, hmd, hog, hpub, hat, hup⟩ :=
            hrecords
          refine ⟨hslug, htitle, hcontent, hformat, hposition, hmt, hmd, hog, hpub, hat, ?_⟩
          rcases hup with hsame | ⟨q, hq, hnone, hgone⟩
          · exact .inl hsame
          · exact .inr ⟨q, hq, hnone, hgone.saved hpage hlanded⟩

/-- The rows a deletion leaves, with their revisions. -/
theorem Kept.deleted {organization : String} {id : ℤ} (hs : Kept s)
    (hdb : t.db = Pages.delete s.db organization id) (hsaves : t.saves = s.saves) :
    Kept t := by
  rcases delete_cases s.db organization id with hsame | ⟨i, v, hv, hrows, hseq, hrev⟩
  · rw [hsame] at hdb
    exact hs.of_eq hdb hsaves
  · rw [← hdb] at hrows hseq hrev
    constructor
    · intro k r hr
      rw [hrev, Table.mem_delete] at hr
      obtain ⟨w, hw⟩ := hs.pages k r hr.1
      exact ⟨_, (hrows _ _).mpr ⟨w, hw, by simpa using hr.2, rfl⟩⟩
    · rw [hseq, hsaves]
      exact hs.fresh
    · intro j w hw
      obtain ⟨u, hu, _⟩ := (hrows j w).mp hw
      rw [hsaves]
      exact hs.counted j u hu
    · intro j w hw
      obtain ⟨u, hu, hj, _⟩ := (hrows j w).mp hw
      have hnumbers : revisionNumbers t.db j = revisionNumbers s.db j := by
        rw [revisionNumbers, revisionNumbers, hrev, Table.filter_delete]
        intro k r _ hr
        have hri : r.page_id = i := by simpa using hr
        simpa [hri] using fun heq => hj heq.symm
      rw [hnumbers, hsaves]
      exact hs.numbers j u hu

theorem historyOk_deleted {organization : String} {id : ℤ} (hs : Kept s)
    (hok : HistoryOk s) (hdb : t.db = Pages.delete s.db organization id)
    (hsaves : t.saves = s.saves) : HistoryOk t := by
  have ht := hs.deleted hdb hsaves
  constructor
  · intro j w hw
    rcases ht.numbers j w hw with ⟨hzero, _⟩ | hblock
    · have := ht.counted j w hw
      omega
    · exact hblock
  · rcases delete_cases s.db organization id with hsame | ⟨i, v, hv, hrows, hseq, hrev⟩
    · rw [hsame] at hdb
      rw [hdb, hsaves]
      exact hok.newest
    · rw [← hdb] at hrows hseq hrev
      intro j w hw
      obtain ⟨u, hu, hj, hw⟩ := (hrows j w).mp hw
      obtain ⟨k, r, hr, hrj, hnumber, hrecords⟩ := hok.newest j u hu
      have hgone : ∀ q, q = i ∨ PageGone s.db q → PageGone t.db q := by
        rintro q (rfl | ⟨hle, hno⟩)
        · refine ⟨hseq ▸ Table.le_seq_of_mem hv, ?_⟩
          intro w hw
          obtain ⟨_, _, hne, _⟩ := (hrows q w).mp hw
          exact hne rfl
        · refine ⟨hseq ▸ hle, ?_⟩
          intro w hw
          obtain ⟨u, hu, _⟩ := (hrows q w).mp hw
          exact hno u hu
      refine ⟨k, r, ?_, hrj, by rw [hsaves]; exact hnumber, ?_⟩
      · rw [hrev, Table.mem_delete]
        exact ⟨hr, by simpa [hrj] using hj⟩
      · obtain ⟨hslug, htitle, hcontent, hformat, hposition, hmt, hmd, hog, hpub, hat, hup⟩ :=
          hrecords
        split at hw
        · rename_i hchild
          subst hw
          refine ⟨hslug, htitle, hcontent, hformat, hposition, hmt, hmd, hog, hpub, hat, ?_⟩
          right
          rcases hup with hsame | ⟨q, _, hnone, _⟩
          · exact ⟨i, hsame.trans hchild, rfl, hgone i (.inl rfl)⟩
          · rw [hchild] at hnone
            cases hnone
        · subst hw
          refine ⟨hslug, htitle, hcontent, hformat, hposition, hmt, hmd, hog, hpub, hat, ?_⟩
          rcases hup with hsame | ⟨q, hq, hnone, hg⟩
          · exact .inl hsame
          · exact .inr ⟨q, hq, hnone, hgone q (.inr hg)⟩

theorem Outcome.kept (h : Outcome s a t) (hs : Kept s) : Kept t := by
  cases h with
  | idle hdb hsaves => exact hs.of_eq hdb hsaves
  | saved hpage hlanded hsaves _ _ => exact hs.saved hpage hlanded hsaves
  | deleted _ hdb hsaves => exact hs.deleted hdb hsaves

theorem Outcome.historyOk (h : Outcome s a t) (hs : Kept s) (hok : HistoryOk s) :
    HistoryOk t ↔ SlugCurrent s a := by
  cases h with
  | idle hdb hsaves hslug _ =>
      refine iff_of_true ⟨?_, ?_⟩ hslug
      · rw [hdb, hsaves]
        exact hok.numbers
      · rw [hdb, hsaves]
        exact hok.newest
  | saved hpage hlanded hsaves hslug _ =>
      exact (historyOk_saved hs hok hpage hlanded hsaves).trans hslug.symm
  | deleted hlabel hdb hsaves =>
      subst hlabel
      exact iff_of_true (historyOk_deleted hs hok hdb hsaves) trivial

theorem Outcome.stepOk (h : Outcome s a t) (hs : Kept s) : StepOk s a t := by
  constructor
  · intro i hne hcap
    cases h with
    | idle _ hsaves => exact absurd (congrFun hsaves i) hne
    | @saved j _ _ hpage hlanded hsaves _ _ =>
        obtain rfl : i = j := by
          by_contra hij
          rw [hsaves, Function.update_of_ne hij] at hne
          exact hne rfl
        rw [hlanded.numbers]
        exact (hs.retained hpage).append.2 hcap
    | deleted _ _ hsaves => exact absurd (congrFun hsaves i) hne
  · rintro organization id rfl k r
    cases h with
    | idle _ _ _ hlabel => exact absurd rfl (hlabel organization id)
    | saved _ _ _ _ hlabel => exact absurd rfl (hlabel organization id)
    | deleted hlabel hdb _ =>
        obtain ⟨rfl, rfl⟩ := HistoryStep.delete.inj hlabel
        rcases delete_cases s.db organization id with hsame | ⟨i, v, hv, hrows, _, hrev⟩
        · rw [hdb, hsame]
          exact ⟨fun hr => ⟨hr, fun ⟨⟨w, hw⟩, hno⟩ => hno w hw⟩, And.left⟩
        · rw [← hdb] at hrows hrev
          rw [hrev, Table.mem_delete, and_congr_right_iff]
          intro hr
          obtain ⟨w, hw⟩ := hs.pages k r hr
          constructor
          · intro hne ⟨_, hno⟩
            exact hno _ ((hrows _ _).mpr ⟨w, hw, by simpa using hne, rfl⟩)
          · intro hkept
            by_contra hown
            have hri : r.page_id = i := by simpa using hown
            apply hkept
            refine ⟨⟨w, hw⟩, ?_⟩
            intro u hu
            obtain ⟨_, _, hne, _⟩ := (hrows _ u).mp hu
            exact hne hri

end Steps

/-! ## Runs from a first start -/

theorem kept_of_fresh {s : History} (h : s.Fresh) : Kept s := by
  constructor
  · simp [h.revisions]
  · intro i _
    exact h.saves i
  · simp [h.pages]
  · simp [h.pages]

theorem historyOk_of_fresh {s : History} (h : s.Fresh) : HistoryOk s := by
  constructor <;> simp [h.pages]

/-- **The history of every page** ends at its last save and at its columns,
keeps to the cap and goes with its page, in exactly the runs whose transactions
without a slug find the slug they read. -/
theorem page_history (s : History) (as : List HistoryStep) (hfresh : s.Fresh) :
    (Throughout History.step HistoryOk s as ∧
      EachStep History.step (fun t a => ∀ u, t.step a = some u → StepOk t a u) s as) ↔
    EachStep History.step SlugCurrent s as := by
  have hexact : Throughout History.step HistoryOk s as ↔
      EachStep History.step SlugCurrent s as :=
    throughout_iff_eachStep History.step
      (fun _ _ _ ht _ hu => (outcome_of_step hu).kept ht)
      (fun _ _ _ ht hok hu => (outcome_of_step hu).historyOk ht hok)
      (kept_of_fresh hfresh) (historyOk_of_fresh hfresh)
  rw [hexact, and_iff_left_iff_imp]
  rintro - pre a t u - hrun - u' hu'
  have hkept : Kept t := run_invariant History.step
    (fun _ _ _ ht hu => (outcome_of_step hu).kept ht) (kept_of_fresh hfresh) hrun
  exact (outcome_of_step hu').stepOk hkept

/-- Updates that all carry a slug. -/
theorem slugCurrent_of_slug {s : History} {a : HistoryStep}
    (h : ∀ request now e, a = .commit request now → s.editing request = some e →
      e.update.slug ≠ none) : SlugCurrent s a := by
  cases a with
  | commit request now =>
      intro e he hnone
      exact absurd hnone (h request now e rfl he)
  | create organization page now => trivial
  | lookup request organization id update => trivial
  | delete organization id => trivial
  | restart max_revisions => trivial

/-! ## Two editors of one page -/

def firstStart : History where
  db := emptySite
  max_revisions := 2
  editing := fun _ => none
  saves := fun _ => 0

theorem firstStart_fresh : firstStart.Fresh :=
  ⟨rfl, rfl, fun _ => rfl, fun _ => rfl⟩

def draftPage : NewPage where
  slug := "a"
  title := "t"
  content := ""
  body_format := .jhs
  is_published := false
  created_by := some 1
  parent_id := none
  position := 0
  meta_title := none
  meta_description := none
  og_image := none
  publish_at := none
  revision_note := none

def saveAs (slug : Option String) : PageUpdate where
  slug := slug
  title := "t"
  content := ""
  body_format := .jhs
  is_published := false
  parent_id := none
  position := 0
  meta_title := none
  meta_description := none
  og_image := none
  publish_at := none
  edited_by := some 1
  revision_note := none

/-- Both editors look the page up before either saves. -/
def twoEditors (slug : Option String) : List HistoryStep :=
  [.create "acme" draftPage 10, .lookup 1 "acme" 1 (saveAs slug),
    .lookup 2 "acme" 1 (saveAs (some "b")), .commit 2 11, .commit 1 12]

theorem page_history_twoEditors : firstStart.Fresh ∧
    Throughout History.step HistoryOk firstStart (twoEditors (some "c")) := by
  refine ⟨firstStart_fresh, ((page_history firstStart _ firstStart_fresh).mpr ?_).1⟩
  have hcheck : checkEachStep History.step (fun t a => match a with
      | .commit request _ => (t.editing request).all fun e => e.update.slug.isSome
      | _ => true) firstStart (twoEditors (some "c")) = true := by decide +kernel
  intro pre a t u hpre ht hu
  have hslug := eachStep_of_check _ hcheck pre a t u hpre ht hu
  apply slugCurrent_of_slug
  rintro request now e rfl he hnone
  simp [he, hnone] at hslug

/-- The rows after the second editor's rename and the first editor's save. -/
theorem twoEditors_rows :
    (run History.step firstStart (twoEditors none)).map (fun t =>
      (t.db.pages.rows.map fun r => (r.1, r.2.columns.slug),
        t.db.page_revisions.rows.map fun r => (r.2.page_id, r.2.revision, r.2.slug),
        t.saves 1)) =
      some ([(1, "b")], [(1, 2, "b"), (1, 3, "a")], 3) := by
  decide +kernel

/-- The newest revision carries the slug from before the rename. -/
theorem page_history_renamed : firstStart.Fresh ∧
    ¬ Throughout History.step HistoryOk firstStart (twoEditors none) := by
  refine ⟨firstStart_fresh, ?_⟩
  intro h
  obtain ⟨t, hrun, hrows⟩ := Option.map_eq_some_iff.mp twoEditors_rows
  obtain ⟨hpages, hrevisions, hsaves⟩ : _ ∧ _ ∧ _ := by
    simpa only [Prod.mk.injEq] using hrows
  have hok := h _ t (List.prefix_refl _) hrun
  have hpage : (1, "b") ∈ t.db.pages.rows.map fun r => (r.1, r.2.columns.slug) := by
    simp [hpages]
  obtain ⟨⟨i, v⟩, hv, heq⟩ := List.mem_map.mp hpage
  obtain ⟨rfl, hslug⟩ := Prod.mk.inj heq
  obtain ⟨k, r, hr, hri, hnumber, hrecords⟩ := hok.newest 1 v hv
  have hmem : (r.page_id, r.revision, r.slug) ∈
      t.db.page_revisions.rows.map fun r => (r.2.page_id, r.2.revision, r.2.slug) :=
    List.mem_map_of_mem hr
  rw [hrevisions, hri, hnumber, hsaves, hrecords.slug, hslug] at hmem
  simp at hmem

end Wallermax.Content
