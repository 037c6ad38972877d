import Wallermax.Content.History

/-!
# A restore among other saves

`restore_revision` statement by statement, with the transactions of other
requests between any two of them. The state of the page is copied from the row
the first statement read and written back by the last one, so what others
publish or schedule in between is undone.
-/

namespace Wallermax.Content

open Wallermax.Base
open Wallermax.Accounts
open Wallermax.Storage
open Wallermax.Tenants

/-- What the request has read, by the statement that comes next. -/
inductive RestorePhase : Type where
  | loadPage
  | loadRevision (page : ℕ × Page)
  | loadParent (page : ℕ × Page) (snapshot : PageRevision)
  | walkAncestors (page : ℕ × Page) (snapshot : PageRevision) (parent : ℕ)
  | lookup (page : ℕ × Page) (snapshot : PageRevision)
  | transaction (page : ℕ × Page) (snapshot : PageRevision) (current : ℕ × Page)
  | reread
  | answered (answer : PanelAnswer)

structure Restoring : Type where
  history : History
  phase : RestorePhase

/-- The restore runs its next statement, or another request does. -/
inductive RestoreStep : Type where
  | advance (now : ℤ)
  | other (a : HistoryStep)

namespace Restoring

section Restore

variable (organization : String) (user : ℕ) (id revision : ℤ)

/-- The next statement of `restore_revision`. -/
def advance (now : ℤ) (s : Restoring) : Option Restoring :=
  let db := s.history.db
  match s.phase with
  | .loadPage =>
      match Pages.findById db organization id with
      | none => some { s with phase := .answered (.seeOther "/admin/pages") }
      | some page => some { s with phase := .loadRevision page }
  | .loadRevision page =>
      match Pages.findRevision db id revision with
      | none =>
          some { s with
            phase := .answered (.seeOther ("/admin/pages/" ++ toString id ++ "/history")) }
      | some (snapshot, _) => some { s with phase := .loadParent page snapshot }
  | .loadParent page snapshot =>
      match snapshot.parent_id with
      | none => some { s with phase := .lookup page snapshot }
      | some parent =>
          if (parent : ℤ) = id then
            some { s with phase := .answered (.formError (restoreMessage .itself)) }
          else if (Pages.findById db organization parent).isNone then
            some { s with phase := .answered (.formError (restoreMessage .missing)) }
          else some { s with phase := .walkAncestors page snapshot parent }
  | .walkAncestors page snapshot parent =>
      if (Pages.ancestors db organization parent).any fun a => (a.id : ℤ) == id then
        some { s with phase := .answered (.formError (restoreMessage .cycle)) }
      else some { s with phase := .lookup page snapshot }
  | .lookup page snapshot =>
      match Pages.findById db organization id with
      | none => some { s with phase := .answered (.seeOther "/admin/pages") }
      | some current => some { s with phase := .transaction page snapshot current }
  | .transaction page snapshot current =>
      match Pages.commitUpdate s.history.max_revisions db organization current
          (restoreUpdate user page.2 snapshot revision) now with
      | .ok (some db) => some ⟨s.history.saved db current.1, .reread⟩
      | .ok none => some { s with phase := .answered (.seeOther "/admin/pages") }
      | .error .duplicate =>
          some { s with
            phase := .answered (.formError
              ("That slug already exists (another page has taken it since): " ++
                "rename it or hand-edit the revision you wanted back.")) }
      | .error .internal =>
          some { s with phase := .answered (.formError "Could not restore (internal error).") }
  | .reread =>
      match Pages.findById db organization id with
      | none => some { s with phase := .answered (.seeOther "/admin/pages") }
      | some _ =>
          some { s with
            phase := .answered
              (.seeOther ("/admin/pages/" ++ toString id ++ "/edit?ok=restored")) }
  | .answered _ => none

/-- The process runs on while the request does. -/
def step (s : Restoring) : RestoreStep → Option Restoring
  | .advance now => s.advance organization user id revision now
  | .other (.restart _) => none
  | .other a => (s.history.step a).map fun history => { s with history := history }

end Restore

end Restoring

/-! ## The request on its own -/

section Alone

variable {organization : String} {user : ℕ} {id revision : ℤ}

/-- With no other request in between, this one leaves the database so and is
answered so. -/
def Answers (organization : String) (user : ℕ) (id revision now : ℤ) (s : Restoring)
    (result : ContentDb × PanelAnswer) : Prop :=
  ∃ n t, run (Restoring.step organization user id revision) s
      (List.replicate n (.advance now)) = some t ∧
    t.history.db = result.1 ∧ t.phase = .answered result.2

variable {now : ℤ} {history : History} {page : ℕ × Page} {snapshot : PageRevision}

theorem answers_of_advance {s t : Restoring} {result : ContentDb × PanelAnswer}
    (h : s.advance organization user id revision now = some t)
    (ht : Answers organization user id revision now t result) :
    Answers organization user id revision now s result := by
  obtain ⟨n, u, hn, hu⟩ := ht
  refine ⟨n + 1, u, ?_, hu⟩
  have hstep : Restoring.step organization user id revision s (.advance now) = some t := h
  rw [List.replicate_succ, run_cons, hstep, Option.bind_some]
  exact hn

theorem answers_of_answered {s t : Restoring} {answer : PanelAnswer}
    (h : s.advance organization user id revision now = some t)
    (hanswer : t.phase = .answered answer) :
    Answers organization user id revision now s (t.history.db, answer) :=
  answers_of_advance h ⟨0, t, rfl, rfl, hanswer⟩

/-- From its last lookup on the request is `update` and its answer. -/
theorem answers_lookup (hpage : Pages.findById history.db organization id = some page) :
    Answers organization user id revision now ⟨history, .lookup page snapshot⟩
      (match Pages.update history.max_revisions history.db organization id
          (restoreUpdate user page.2 snapshot revision) now with
      | .ok (some db) =>
          (db, .seeOther ("/admin/pages/" ++ toString id ++ "/edit?ok=restored"))
      | .ok none => (history.db, .seeOther "/admin/pages")
      | .error .duplicate =>
          (history.db, .formError
            ("That slug already exists (another page has taken it since): " ++
              "rename it or hand-edit the revision you wanted back."))
      | .error .internal =>
          (history.db, .formError "Could not restore (internal error).")) := by
  have hlookup : Restoring.advance organization user id revision now
      ⟨history, .lookup page snapshot⟩ =
      some ⟨history, .transaction page snapshot page⟩ := by
    simp [Restoring.advance, hpage]
  apply answers_of_advance hlookup
  rw [Pages.update_eq_commitUpdate, hpage]
  simp only
  cases hcommit : Pages.commitUpdate history.max_revisions history.db organization page
      (restoreUpdate user page.2 snapshot revision) now with
  | error e =>
      cases e with
      | duplicate =>
          have hnext := Restoring.advance.eq_def organization user id revision now
            ⟨history, .transaction page snapshot page⟩
          simp only [hcommit] at hnext
          exact answers_of_answered hnext rfl
      | internal =>
          have hnext := Restoring.advance.eq_def organization user id revision now
            ⟨history, .transaction page snapshot page⟩
          simp only [hcommit] at hnext
          exact answers_of_answered hnext rfl
  | ok found =>
      have hnext := Restoring.advance.eq_def organization user id revision now
        ⟨history, .transaction page snapshot page⟩
      simp only [hcommit] at hnext
      cases found with
      | none => exact answers_of_answered hnext rfl
      | some db =>
          apply answers_of_advance hnext
          obtain ⟨haccepts, v, hrow, hlanded⟩ := commitUpdate_landed hcommit
          obtain ⟨w, hw, howner⟩ := haccepts.row
          obtain rfl := Table.eq_of_mem hrow hw
          have howner : db.owner organization = some v.organization_id := by
            rw [← howner, ContentDb.owner, hlanded.organizations]
            rfl
          have hreread := findById_of_mem howner hlanded.row.written
          rw [(Pages.findById_some hpage).2] at hreread
          have hlast : Restoring.advance organization user id revision now
              ⟨history.saved db page.1, .reread⟩ = some ⟨history.saved db page.1, .answered
                (.seeOther ("/admin/pages/" ++ toString id ++ "/edit?ok=restored"))⟩ := by
            simp [Restoring.advance, History.saved, hreread]
          exact answers_of_answered hlast rfl

/-- The guard, then `update`. -/
theorem answers_loadParent (hpage : Pages.findById history.db organization id = some page) :
    Answers organization user id revision now ⟨history, .loadParent page snapshot⟩
      (match moveGuard history.db organization id
          (snapshot.parent_id.map fun p : ℕ => (p : ℤ)) with
      | some refusal => (history.db, .formError (restoreMessage refusal))
      | none =>
        match Pages.update history.max_revisions history.db organization id
            (restoreUpdate user page.2 snapshot revision) now with
        | .ok (some db) =>
            (db, .seeOther ("/admin/pages/" ++ toString id ++ "/edit?ok=restored"))
        | .ok none => (history.db, .seeOther "/admin/pages")
        | .error .duplicate =>
            (history.db, .formError
              ("That slug already exists (another page has taken it since): " ++
                "rename it or hand-edit the revision you wanted back."))
        | .error .internal =>
            (history.db, .formError "Could not restore (internal error).")) := by
  cases hparent : snapshot.parent_id with
  | none =>
      have hnext : Restoring.advance organization user id revision now
          ⟨history, .loadParent page snapshot⟩ = some ⟨history, .lookup page snapshot⟩ := by
        simp [Restoring.advance, hparent]
      exact answers_of_advance hnext (answers_lookup hpage)
  | some parent =>
      simp only [Option.map_some, moveGuard]
      by_cases hself : (parent : ℤ) = id
      · have hnext : Restoring.advance organization user id revision now
            ⟨history, .loadParent page snapshot⟩ = some ⟨history, .answered
              (.formError (restoreMessage .itself))⟩ := by
          simp [Restoring.advance, hparent, hself]
        simp only [hself, if_true]
        exact answers_of_answered hnext rfl
      · by_cases hmissing : (Pages.findById history.db organization parent).isNone = true
        · have hnext : Restoring.advance organization user id revision now
              ⟨history, .loadParent page snapshot⟩ = some ⟨history, .answered
                (.formError (restoreMessage .missing))⟩ := by
            simp only [Restoring.advance, hparent, if_neg hself, hmissing, if_true]
          simp only [if_neg hself, hmissing, if_true]
          exact answers_of_answered hnext rfl
        · have hnext : Restoring.advance organization user id revision now
              ⟨history, .loadParent page snapshot⟩ =
              some ⟨history, .walkAncestors page snapshot parent⟩ := by
            simp only [Restoring.advance, hparent, if_neg hself, if_neg hmissing]
          apply answers_of_advance hnext
          simp only [if_neg hself, if_neg hmissing]
          by_cases hcycle : ((Pages.ancestors history.db organization parent).any
              fun a => (a.id : ℤ) == id) = true
          · have hwalk : Restoring.advance organization user id revision now
                ⟨history, .walkAncestors page snapshot parent⟩ = some ⟨history,
                  .answered (.formError (restoreMessage .cycle))⟩ := by
              simp only [Restoring.advance, if_pos hcycle]
            simp only [if_pos hcycle]
            exact answers_of_answered hwalk rfl
          · have hwalk : Restoring.advance organization user id revision now
                ⟨history, .walkAncestors page snapshot parent⟩ =
                some ⟨history, .lookup page snapshot⟩ := by
              simp only [Restoring.advance, if_neg hcycle]
            simp only [if_neg hcycle]
            exact answers_of_advance hwalk (answers_lookup hpage)

/-- **With no other request in between**, the statements are the handler. -/
theorem restoreRevision_answers :
    Answers organization user id revision now ⟨history, .loadPage⟩
      (restoreRevision history.max_revisions history.db organization user now id revision) := by
  unfold restoreRevision
  cases hpage : Pages.findById history.db organization id with
  | none =>
      have hload : Restoring.advance organization user id revision now ⟨history, .loadPage⟩ =
          some ⟨history, .answered (.seeOther "/admin/pages")⟩ := by
        simp [Restoring.advance, hpage]
      exact answers_of_answered hload rfl
  | some page =>
      have hload : Restoring.advance organization user id revision now ⟨history, .loadPage⟩ =
          some ⟨history, .loadRevision page⟩ := by
        simp [Restoring.advance, hpage]
      apply answers_of_advance hload
      cases hrev : Pages.findRevision history.db id revision with
      | none =>
          have hnone : Restoring.advance organization user id revision now
              ⟨history, .loadRevision page⟩ = some ⟨history, .answered
                (.seeOther ("/admin/pages/" ++ toString id ++ "/history"))⟩ := by
            simp [Restoring.advance, hrev]
          exact answers_of_answered hnone rfl
      | some found =>
          have hrevision : Restoring.advance organization user id revision now
              ⟨history, .loadRevision page⟩ =
              some ⟨history, .loadParent page found.1⟩ := by
            simp [Restoring.advance, hrev]
          exact answers_of_advance hrevision (answers_loadParent hpage)

end Alone

/-! ## The state of the page -/

/-- Published and scheduled alike. -/
def SameState (p q : Page) : Prop :=
  p.is_published = q.is_published ∧ p.publish_at = q.publish_at

/-- The page whose state the request will write back. -/
def RestorePhase.loaded : RestorePhase → Option (ℕ × Page)
  | .loadPage => none
  | .loadRevision page => some page
  | .loadParent page _ => some page
  | .walkAncestors page _ _ => some page
  | .lookup page _ => some page
  | .transaction page _ _ => some page
  | .reread => none
  | .answered _ => none

/-- The restore's statement publishes nothing and unpublishes nothing. -/
def StateKept (s : Restoring) : RestoreStep → Restoring → Prop
  | .advance _, t => ∀ i v w, (i, v) ∈ s.history.db.pages.rows →
      (i, w) ∈ t.history.db.pages.rows → SameState v.columns w.columns
  | .other _, _ => True

/-- The restore's transaction, where the constraints accept it, finds the page
in the state its first statement read. -/
def StateAsLoaded (organization : String) (user : ℕ) (revision : ℤ) (s : Restoring) :
    RestoreStep → Prop
  | .advance _ => ∀ page snapshot current, s.phase = .transaction page snapshot current →
      Accepts s.history.db organization current.1
        (restoreUpdate user page.2 snapshot revision) →
      ∀ v, (current.1, v) ∈ s.history.db.pages.rows → SameState v.columns page.2
  | .other _ => True

/-- A save of the page by another request, after the restore read it, carries
the state it finds. -/
def SavesKeepState (s : Restoring) : RestoreStep → Prop
  | .other (.commit request _) => ∀ e page, s.history.editing request = some e →
      s.phase.loaded = some page → page.1 = e.current.1 →
      ∀ v, (e.current.1, v) ∈ s.history.db.pages.rows →
        e.update.is_published = v.columns.is_published ∧
          e.update.publish_at = v.columns.publish_at
  | _ => True

section State

/-- The rows after another request's step: new, as they were, or as saved. -/
theorem state_of_step {s t : History} {a : HistoryStep} (h : s.step a = some t) {i : ℕ}
    {w : Owned Page} (hw : (i, w) ∈ t.db.pages.rows) :
    i = s.db.pages.nextId ∨ ∃ v, (i, v) ∈ s.db.pages.rows ∧
      (SameState v.columns w.columns ∨ ∃ request now e, a = .commit request now ∧
        s.editing request = some e ∧ e.current.1 = i ∧
        w.columns.is_published = e.update.is_published ∧
        w.columns.publish_at = e.update.publish_at) := by
  have hsame : (i, w) ∈ s.db.pages.rows → i = s.db.pages.nextId ∨
      ∃ v, (i, v) ∈ s.db.pages.rows ∧ (SameState v.columns w.columns ∨
        ∃ request now e, a = .commit request now ∧ s.editing request = some e ∧
          e.current.1 = i ∧ w.columns.is_published = e.update.is_published ∧
          w.columns.publish_at = e.update.publish_at) :=
    fun hmem => .inr ⟨w, hmem, .inl ⟨rfl, rfl⟩⟩
  cases a with
  | create organization page now =>
      simp only [History.step] at h
      split at h
      · cases h
        exact hsame hw
      · rename_i db id hcreate
        cases h
        obtain ⟨hid, o, hlanded⟩ := create_landed hcreate
        by_cases hi : i = id
        · exact .inl (hi.trans hid)
        · exact hsame ((hlanded.row.others i w hi).mp hw)
  | lookup request organization id update =>
      simp only [History.step] at h
      split at h
      · cases h
        exact hsame hw
      · cases h
        exact hsame hw
  | commit request now =>
      obtain ⟨e, he, ht⟩ := Option.map_eq_some_iff.mp h
      subst ht
      split at hw
      · rename_i db hcommit
        obtain ⟨_, v, hrow, hlanded⟩ := commitUpdate_landed hcommit
        by_cases hi : i = e.current.1
        · subst hi
          obtain rfl := Table.eq_of_mem hlanded.row.written hw
          exact .inr ⟨v, hrow, .inr ⟨request, now, e, rfl, he, rfl, rfl, rfl⟩⟩
        · exact hsame ((hlanded.row.others i w hi).mp hw)
      · exact hsame hw
  | delete organization id =>
      cases h
      rcases delete_cases s.db organization id with heq | ⟨k, u, _, hrows, _, _⟩
      · exact hsame (heq ▸ hw)
      · obtain ⟨v, hv, _, rfl⟩ := (hrows i w).mp hw
        refine .inr ⟨v, hv, .inl ?_⟩
        split
        · exact ⟨rfl, rfl⟩
        · exact ⟨rfl, rfl⟩
  | restart max_revisions =>
      cases h
      exact hsame hw

theorem seq_le_of_step {s t : History} {a : HistoryStep} (h : s.step a = some t) :
    s.db.pages.seq ≤ t.db.pages.seq := by
  cases outcome_of_step h with
  | idle hdb _ _ _ => rw [hdb]
  | saved _ hlanded _ _ _ =>
      rw [hlanded.seq]
      exact Nat.le_max_left _ _
  | @deleted organization id _ hdb _ =>
      rw [hdb]
      rcases delete_cases s.db organization id with hsame | ⟨_, _, _, _, hseq, _⟩
      · rw [hsame]
      · rw [hseq]

variable {organization : String} {user : ℕ} {id revision now : ℤ} {s t : Restoring}

/-- The statements before and after the transaction: they write nothing, and
what they read is the page by its id. -/
theorem advance_reads (h : s.advance organization user id revision now = some t)
    (hphase : ∀ page snapshot current, s.phase ≠ .transaction page snapshot current) :
    t.history = s.history ∧
    (∀ page, t.phase.loaded = some page → s.phase.loaded = some page ∨
      Pages.findById s.history.db organization id = some page) ∧
    (∀ page snapshot current, t.phase = .transaction page snapshot current →
      Pages.findById s.history.db organization id = some current) := by
  obtain ⟨history, phase⟩ := s
  cases phase with
  | loadPage =>
      simp only [Restoring.advance] at h
      split at h
      · cases h
        simp [RestorePhase.loaded]
      · rename_i page hpage
        cases h
        simp [RestorePhase.loaded, hpage]
  | loadRevision page =>
      simp only [Restoring.advance] at h
      split at h
      · cases h
        simp [RestorePhase.loaded]
      · cases h
        simp [RestorePhase.loaded]
  | loadParent page snapshot =>
      simp only [Restoring.advance] at h
      split at h
      · cases h
        simp [RestorePhase.loaded]
      · split at h
        · cases h
          simp [RestorePhase.loaded]
        · split at h
          · cases h
            simp [RestorePhase.loaded]
          · cases h
            simp [RestorePhase.loaded]
  | walkAncestors page snapshot parent =>
      simp only [Restoring.advance] at h
      split at h
      · cases h
        simp [RestorePhase.loaded]
      · cases h
        simp [RestorePhase.loaded]
  | lookup page snapshot =>
      simp only [Restoring.advance] at h
      split at h
      · cases h
        simp [RestorePhase.loaded]
      · rename_i current hcurrent
        cases h
        refine ⟨rfl, fun _ => .inl, ?_⟩
        rintro _ _ _ ⟨⟩
        exact hcurrent
  | transaction page snapshot current => exact absurd rfl (hphase page snapshot current)
  | reread =>
      simp only [Restoring.advance] at h
      split at h
      · cases h
        simp [RestorePhase.loaded]
      · cases h
        simp [RestorePhase.loaded]
  | answered answer => cases h

/-- A statement of the request writes nothing, or is its accepted transaction. -/
theorem advance_cases (h : s.advance organization user id revision now = some t) :
    (t.history.db = s.history.db ∧ ∀ page snapshot current,
      s.phase = .transaction page snapshot current → ¬ Accepts s.history.db organization
        current.1 (restoreUpdate user page.2 snapshot revision)) ∨
    ∃ page snapshot current v, s.phase = .transaction page snapshot current ∧
      Accepts s.history.db organization current.1
        (restoreUpdate user page.2 snapshot revision) ∧
      (current.1, v) ∈ s.history.db.pages.rows ∧
      SaveLanded s.history.max_revisions s.history.db t.history.db current.1
        ⟨v.organization_id, Pages.apply (restoreUpdate user page.2 snapshot revision) now
          v.columns⟩
        (Pages.updateSnapshot (restoreUpdate user page.2 snapshot revision)
          current.2.slug) := by
  by_cases hphase : ∃ page snapshot current, s.phase = .transaction page snapshot current
  · obtain ⟨page, snapshot, current, hphase⟩ := hphase
    have hrefused : (∀ db, Pages.commitUpdate s.history.max_revisions s.history.db
        organization current (restoreUpdate user page.2 snapshot revision) now ≠
          .ok (some db)) → ∀ page' snapshot' current',
        s.phase = .transaction page' snapshot' current' → ¬ Accepts s.history.db organization
          current'.1 (restoreUpdate user page'.2 snapshot' revision) := by
      intro hno page' snapshot' current' hphase' haccepts
      rw [hphase] at hphase'
      obtain ⟨rfl, rfl, rfl⟩ := RestorePhase.transaction.inj hphase'
      obtain ⟨db, hdb⟩ := commitUpdate_of_accepts haccepts
      exact hno db hdb
    simp only [Restoring.advance, hphase] at h
    split at h
    · rename_i db hcommit
      cases h
      obtain ⟨haccepts, v, hrow, hlanded⟩ := commitUpdate_landed hcommit
      exact .inr ⟨page, snapshot, current, v, hphase, haccepts, hrow, hlanded⟩
    all_goals
      rename_i hcommit
      cases h
      exact .inl ⟨rfl, hrefused (by simp [hcommit])⟩
  · push Not at hphase
    refine .inl ⟨by rw [(advance_reads h hphase).1], ?_⟩
    intro page snapshot current heq
    exact absurd heq (hphase page snapshot current)

theorem stateKept_iff {a : RestoreStep}
    (h : s.step organization user id revision a = some t) :
    StateKept s a t ↔ StateAsLoaded organization user revision s a := by
  cases a with
  | other a => rfl
  | advance now =>
      rcases advance_cases h with ⟨hdb, hrefused⟩ |
        ⟨page, snapshot, current, v, hphase, haccepts, hrow, hlanded⟩
      · refine iff_of_true ?_ ?_
        · intro i v w hv hw
          rw [hdb] at hw
          obtain rfl := Table.eq_of_mem hv hw
          exact ⟨rfl, rfl⟩
        · intro page snapshot current hphase haccepts
          exact absurd haccepts (hrefused page snapshot current hphase)
      · constructor
        · intro hkept page' snapshot' current' hphase' _ w hw
          rw [hphase] at hphase'
          obtain ⟨rfl, rfl, rfl⟩ := RestorePhase.transaction.inj hphase'
          obtain rfl := Table.eq_of_mem hrow hw
          exact hkept _ _ _ hrow hlanded.row.written
        · intro hloaded i u w hu hw
          by_cases hi : i = current.1
          · subst hi
            obtain rfl := Table.eq_of_mem hrow hu
            obtain rfl := Table.eq_of_mem hlanded.row.written hw
            exact hloaded page snapshot current hphase haccepts v hrow
          · obtain rfl := Table.eq_of_mem hu ((hlanded.row.others i w hi).mp hw)
            exact ⟨rfl, rfl⟩

/-- The page the request read is still in the state it was read in. -/
structure Unchanged (id : ℤ) (s : Restoring) : Prop where
  named : ∀ page, s.phase.loaded = some page → (page.1 : ℤ) = id
  current : ∀ page snapshot current, s.phase = .transaction page snapshot current →
    (current.1 : ℤ) = id
  known : ∀ page, s.phase.loaded = some page → page.1 ≤ s.history.db.pages.seq
  state : ∀ page, s.phase.loaded = some page →
    ∀ v, (page.1, v) ∈ s.history.db.pages.rows → SameState v.columns page.2

theorem Unchanged.advance (hs : Unchanged id s)
    (h : s.advance organization user id revision now = some t) : Unchanged id t := by
  by_cases hphase : ∃ page snapshot current, s.phase = .transaction page snapshot current
  · -- the answer is on its way: no page to write back
    obtain ⟨page, snapshot, current, hphase⟩ := hphase
    have hdone : t.phase.loaded = none := by
      simp only [Restoring.advance, hphase] at h
      split at h <;> cases h <;> rfl
    have hnext : ∀ page snapshot current, t.phase ≠ .transaction page snapshot current := by
      intro page snapshot current heq
      rw [heq] at hdone
      cases hdone
    constructor
    · simp [hdone]
    · exact fun page snapshot current heq => absurd heq (hnext page snapshot current)
    · simp [hdone]
    · simp [hdone]
  · push Not at hphase
    obtain ⟨hhistory, hread, htransaction⟩ := advance_reads h hphase
    have hrow : ∀ page, Pages.findById s.history.db organization id = some page →
        ∃ o, (page.1, ⟨o, page.2⟩) ∈ s.history.db.pages.rows := by
      intro page hpage
      obtain ⟨o, _, hmem⟩ := mem_orgScope.mp (Pages.findById_some hpage).1
      exact ⟨o, hmem⟩
    constructor
    · intro page hpage
      rcases hread page hpage with hloaded | hfound
      · exact hs.named page hloaded
      · exact (Pages.findById_some hfound).2
    · intro page snapshot current heq
      exact (Pages.findById_some (htransaction page snapshot current heq)).2
    · intro page hpage
      rw [hhistory]
      rcases hread page hpage with hloaded | hfound
      · exact hs.known page hloaded
      · obtain ⟨o, hmem⟩ := hrow page hfound
        exact Table.le_seq_of_mem hmem
    · intro page hpage v hv
      rw [hhistory] at hv
      rcases hread page hpage with hloaded | hfound
      · exact hs.state page hloaded v hv
      · obtain ⟨o, hmem⟩ := hrow page hfound
        obtain rfl := Table.eq_of_mem hmem hv
        exact ⟨rfl, rfl⟩

theorem history_of_other {a : HistoryStep}
    (h : s.step organization user id revision (.other a) = some t) :
    ∃ history, s.history.step a = some history ∧ { s with history := history } = t := by
  have hmap : (s.history.step a).map (fun history => { s with history := history }) =
      some t := by
    cases a with
    | restart max_revisions => cases h
    | _ => exact h
  exact Option.map_eq_some_iff.mp hmap

theorem Unchanged.other (hs : Unchanged id s) {a : HistoryStep} {history : History}
    (h : s.history.step a = some history) (hkeep : SavesKeepState s (.other a)) :
    Unchanged id { s with history := history } := by
  constructor
  · exact hs.named
  · exact hs.current
  · intro page hpage
    exact Nat.le_trans (hs.known page hpage) (seq_le_of_step h)
  · intro page hpage w hw
    rcases state_of_step h hw with hnew | ⟨v, hv, hsame | ⟨request, now, e, rfl, he, hi, hpub, hat⟩⟩
    · have hle := hs.known page hpage
      rw [hnew, Table.nextId] at hle
      omega
    · have hstate := hs.state page hpage v hv
      exact ⟨hsame.1.symm.trans hstate.1, hsame.2.symm.trans hstate.2⟩
    · have hstate := hs.state page hpage v hv
      obtain ⟨hpub', hat'⟩ := hkeep e page he hpage hi.symm v (hi ▸ hv)
      exact ⟨(hpub.trans hpub').trans hstate.1, (hat.trans hat').trans hstate.2⟩

theorem Unchanged.step (hs : Unchanged id s) {a : RestoreStep}
    (h : s.step organization user id revision a = some t) (hkeep : SavesKeepState s a) :
    Unchanged id t := by
  cases a with
  | advance now => exact hs.advance h
  | other a =>
      obtain ⟨history, hstep, rfl⟩ := history_of_other h
      exact hs.other hstep hkeep

theorem stateAsLoaded_of_unchanged (hs : Unchanged id s) (a : RestoreStep) :
    StateAsLoaded organization user revision s a := by
  cases a with
  | other a => trivial
  | advance now =>
      intro page snapshot current hphase _ v hv
      have hpage : s.phase.loaded = some page := by
        rw [hphase]
        rfl
      have hid : page.1 = current.1 :=
        Int.ofNat_inj.mp ((hs.named page hpage).trans (hs.current _ _ _ hphase).symm)
      exact hs.state page hpage v (hid ▸ hv)

end State

/-- **A restore among other saves** keeps the page's state exactly when its
accepted transaction finds the state it read; so it does in every run in which
the saves of the page in between keep the state they find. -/
theorem restore_keeps_state (organization : String) (user : ℕ) (id revision : ℤ)
    (s : Restoring) (as : List RestoreStep) (hstart : s.phase = .loadPage) :
    (EachStep (Restoring.step organization user id revision)
        (fun t a => ∀ u, t.step organization user id revision a = some u → StateKept t a u)
        s as ↔
      EachStep (Restoring.step organization user id revision)
        (StateAsLoaded organization user revision) s as) ∧
    (EachStep (Restoring.step organization user id revision) SavesKeepState s as →
      EachStep (Restoring.step organization user id revision)
        (fun t a => ∀ u, t.step organization user id revision a = some u → StateKept t a u)
        s as) := by
  have hexact : EachStep (Restoring.step organization user id revision)
      (fun t a => ∀ u, t.step organization user id revision a = some u → StateKept t a u)
      s as ↔
      EachStep (Restoring.step organization user id revision)
        (StateAsLoaded organization user revision) s as := by
    constructor
    · intro h pre a t u hpre ht hu
      exact (stateKept_iff hu).mp (h pre a t u hpre ht hu u hu)
    · intro h pre a t u hpre ht hu u' hu'
      exact (stateKept_iff hu').mpr (h pre a t u hpre ht hu)
  refine ⟨hexact, ?_⟩
  intro hkeep
  rw [hexact]
  intro pre a t u hpre ht hu
  have hfirst : Unchanged id s := by
    constructor <;> simp [hstart, RestorePhase.loaded]
  have hunchanged : Unchanged id t :=
    run_invariant_of_eachStep _ (fun _ _ _ hs hc hu => hs.step hu hc) hfirst
      (hkeep.of_prefix _ ((List.prefix_append pre [a]).trans hpre)) ht
  exact stateAsLoaded_of_unchanged hunchanged a

/-! ## A draft that is published meanwhile -/

/-- A site with one draft. -/
def editedDraft : Restoring where
  history := (run History.step firstStart [.create "acme" draftPage 10]).getD firstStart
  phase := .loadPage

def publishForm (published : Bool) : PageForm :=
  { PageForm.empty with
    slug := "a"
    title := "t"
    is_published := if published then some "on" else none }

example : validatePageForm (publishForm true) = .ok () := by decide +kernel

/-- Another editor saves the draft after the restore read it. -/
def savedMeanwhile (published : Bool) : List RestoreStep :=
  [.advance 11, .advance 11,
    .other (.lookup 1 "acme" 1 (formUpdate 1 11 (publishForm published))),
    .other (.commit 1 11), .advance 12, .advance 12]

theorem restore_keeps_state_draft : editedDraft.phase = .loadPage ∧
    EachStep (Restoring.step "acme" 1 1 1)
      (fun t a => ∀ u, t.step "acme" 1 1 1 a = some u → StateKept t a u)
      editedDraft (savedMeanwhile false ++ [.advance 12]) := by
  refine ⟨rfl, (restore_keeps_state "acme" 1 1 1 editedDraft _ rfl).2 ?_⟩
  have hcheck : checkEachStep (Restoring.step "acme" 1 1 1) (fun t a => match a with
      | .other (.commit request _) => (t.history.editing request).all fun e =>
          t.history.db.pages.rows.all fun r => r.1 != e.current.1 ||
            (e.update.is_published == r.2.columns.is_published &&
              e.update.publish_at == r.2.columns.publish_at)
      | _ => true) editedDraft (savedMeanwhile false ++ [.advance 12]) = true := by
    decide +kernel
  intro pre a t u hpre ht hu
  have hstate := eachStep_of_check _ hcheck pre a t u hpre ht hu
  cases a with
  | advance now => trivial
  | other a =>
      cases a with
      | commit request now =>
          intro e page he _ _ v hv
          simp only [he, Option.all_some, List.all_eq_true] at hstate
          simpa using hstate _ hv
      | _ => trivial

/-- What the statements up to the transaction leave, and what it leaves. -/
theorem published_then_restored :
    (run (Restoring.step "acme" 1 1 1) editedDraft (savedMeanwhile true)).map
      (fun t => t.history.db.pages.rows.map fun r => (r.1, r.2.columns.is_published)) =
        some [(1, true)] ∧
    (run (Restoring.step "acme" 1 1 1) editedDraft (savedMeanwhile true ++ [.advance 12])).map
      (fun t => t.history.db.pages.rows.map fun r => (r.1, r.2.columns.is_published)) =
        some [(1, false)] := by
  decide +kernel

/-- The restore unpublishes what the other editor published. -/
theorem restore_unpublishes : editedDraft.phase = .loadPage ∧
    ¬ EachStep (Restoring.step "acme" 1 1 1)
      (fun t a => ∀ u, t.step "acme" 1 1 1 a = some u → StateKept t a u)
      editedDraft (savedMeanwhile true ++ [.advance 12]) := by
  refine ⟨rfl, ?_⟩
  intro h
  obtain ⟨⟨t, ht, hbefore⟩, ⟨u, hu, hafter⟩⟩ := And.imp Option.map_eq_some_iff.mp
    Option.map_eq_some_iff.mp published_then_restored
  have hstep : t.step "acme" 1 1 1 (.advance 12) = some u := by
    rw [run_append, ht, Option.bind_some] at hu
    obtain ⟨u', hstep, hlast⟩ := run_cons_some _ hu
    cases hlast
    exact hstep
  have hkept := h (savedMeanwhile true) _ t u (List.prefix_refl _) ht hstep u hstep
  have hrow : ∀ {db : ContentDb} {published : Bool},
      (db.pages.rows.map fun r => (r.1, r.2.columns.is_published)) = [(1, published)] →
      ∃ v, (1, v) ∈ db.pages.rows ∧ v.columns.is_published = published := by
    intro db published hrows
    have hmem : (1, published) ∈ db.pages.rows.map fun r => (r.1, r.2.columns.is_published) := by
      simp [hrows]
    obtain ⟨⟨i, v⟩, hv, heq⟩ := List.mem_map.mp hmem
    obtain ⟨rfl, hpub⟩ := Prod.mk.inj heq
    exact ⟨v, hv, hpub⟩
  obtain ⟨v, hv, hpublished⟩ := hrow hbefore
  obtain ⟨w, hw, hdraft⟩ := hrow hafter
  have hsame := (hkept 1 v w hv hw).1
  rw [hpublished, hdraft] at hsame
  cases hsame

end Wallermax.Content
