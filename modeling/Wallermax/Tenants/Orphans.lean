import Wallermax.Tenants.Requests

/-!
# Content and the deletion of its organization

A creation resolves its organization in the guard and looks it up
again inside the insert, so it never stores a row of an organization that is
gone. A deletion counts the content in one statement and removes the
organization in a later transaction that counts nothing: content that arrives
in between is left behind without an owner.
-/

namespace Wallermax.Tenants

open Wallermax.Base
open Wallermax.Accounts
open Wallermax.Storage

/-! ## Owners -/

/-- Every row's organization exists. -/
def HasOwners {ρ : Type} {k : Kind ρ} (organizations : Table Organization)
    (t : TenantTable k) : Prop :=
  ∀ i v, (i, v) ∈ t.rows → ∃ o, (v.organization_id, o) ∈ organizations.rows

/-- No content is an orphan. -/
structure NoOrphan (db : TenantDb) : Prop where
  pages : HasOwners db.organizations db.pages
  menus : HasOwners db.organizations db.menus
  media : HasOwners db.organizations db.media

section OneTable

variable {ρ : Type} {k : Kind ρ} {organizations : Table Organization}
  {t : TenantTable k}

/-- The subselect of an insert only ever names a stored organization. -/
theorem HasOwners.insertOwned {t' : TenantTable k} {key : String} {v : ρ}
    (h : HasOwners organizations t)
    (hins : insertOwned t (organizationId organizations key) v = .ok t') :
    HasOwners organizations t' := by
  intro i w hw
  rcases (mem_insertOwned hins).mp hw with hold | ⟨id, hid, heq⟩
  · exact h i w hold
  · obtain ⟨o, ho, _⟩ := organizationId_some hid
    cases heq
    exact ⟨o, ho⟩

theorem HasOwners.mono {organizations' : Table Organization}
    (h : HasOwners organizations t)
    (hsub : ∀ r ∈ organizations.rows, r ∈ organizations'.rows) :
    HasOwners organizations' t := by
  intro i v hv
  obtain ⟨o, ho⟩ := h i v hv
  exact ⟨o, hsub _ ho⟩

/-- Deleting an organization leaves a table with its owners exactly when the
organization owned nothing there. -/
theorem hasOwners_delete_iff {id : ℕ} (h : HasOwners organizations t) :
    HasOwners (organizations.delete fun i _ => i == id) t ↔ countOwned t (some id) = 0 := by
  rw [countOwned_eq_zero]
  constructor
  · intro hall i v hv heq
    obtain ⟨o, ho⟩ := hall i v hv
    rw [Table.mem_delete] at ho
    simp [Option.some.inj heq] at ho
  · intro hnone i v hv
    obtain ⟨o, ho⟩ := h i v hv
    refine ⟨o, Table.mem_delete.mpr ⟨ho, ?_⟩⟩
    rw [beq_eq_false_iff_ne]
    exact fun heq => hnone i v hv (congrArg some heq.symm)

end OneTable

theorem ContentCounts.is_empty_iff {c : ContentCounts} :
    c.is_empty = true ↔ c.pages = 0 ∧ c.menus = 0 ∧ c.media = 0 := by
  simp [ContentCounts.is_empty, and_assoc]

/-- The delete transaction keeps the content owned exactly when `content_counts`
would find none at that moment. -/
theorem noOrphan_deleteOrganization_iff {db : TenantDb} {key : String}
    (h : NoOrphan db) :
    NoOrphan (deleteOrganization db key).1 ↔ (contentCounts db key).is_empty = true := by
  rw [ContentCounts.is_empty_iff]
  rcases deleteOrganization_cases db key with ⟨hnone, heq⟩ | ⟨id, hid, ho, hp, hm, hd⟩
  · rw [heq]
    refine iff_of_true h ?_
    simp only [contentCounts, hnone, countOwned_eq_zero]
    exact ⟨fun _ _ _ => nofun, fun _ _ _ => nofun, fun _ _ _ => nofun⟩
  · simp only [contentCounts, hid]
    rw [← hasOwners_delete_iff h.pages, ← hasOwners_delete_iff h.menus,
      ← hasOwners_delete_iff h.media]
    constructor
    · intro hall
      exact ⟨hp ▸ ho ▸ hall.pages, hm ▸ ho ▸ hall.menus, hd ▸ ho ▸ hall.media⟩
    · rintro ⟨hpages, hmenus, hmedia⟩
      constructor
      · rw [ho, hp]
        exact hpages
      · rw [ho, hm]
        exact hmenus
      · rw [ho, hd]
        exact hmedia

theorem NoOrphan.insertContent {db db' : TenantDb} {organization : String}
    {content : NewContent} {id : ℕ} (h : NoOrphan db)
    (hins : insertContent db organization content = .ok (db', id)) : NoOrphan db' := by
  cases content with
  | page columns =>
      simp only [Tenants.insertContent] at hins
      split at hins
      · cases hins
      · cases hpages : insertOwned db.pages (organizationId db.organizations organization)
            columns with
        | error e => rw [hpages] at hins; cases hins
        | ok pages =>
            rw [hpages] at hins
            cases hins
            exact ⟨h.pages.insertOwned hpages, h.menus, h.media⟩
  | menu columns =>
      simp only [Tenants.insertContent] at hins
      cases hmenus : insertOwned db.menus (organizationId db.organizations organization)
          columns with
      | error e => rw [hmenus] at hins; cases hins
      | ok menus =>
          rw [hmenus] at hins
          cases hins
          exact ⟨h.pages, h.menus.insertOwned hmenus, h.media⟩
  | media columns =>
      simp only [Tenants.insertContent] at hins
      cases hmedia : insertOwned db.media (organizationId db.organizations organization)
          columns with
      | error e => rw [hmedia] at hins; cases hins
      | ok media =>
          rw [hmedia] at hins
          cases hins
          exact ⟨h.pages, h.menus, h.media.insertOwned hmedia⟩

theorem NoOrphan.createOrganization {db db' : TenantDb} {key name root : String}
    {now : ℤ} (h : NoOrphan db)
    (hins : createOrganization db key name root now = .ok db') : NoOrphan db' := by
  obtain ⟨_, rfl⟩ := createOrganization_ok hins
  have hsub : ∀ r ∈ db.organizations.rows,
      r ∈ (db.organizations.insert ⟨key, name, root, now⟩).rows :=
    fun r hr => Table.mem_insert.mpr (.inl hr)
  exact ⟨h.pages.mono hsub, h.menus.mono hsub, h.media.mono hsub⟩

/-- Renaming organizations or moving their roots keeps their ids. -/
theorem NoOrphan.updateOrganization {db : TenantDb} {key name root : String}
    (h : NoOrphan db) : NoOrphan (updateOrganization db key name root).1 := by
  have hkeep : ∀ {ρ : Type} {k : Kind ρ} {t : TenantTable k},
      HasOwners db.organizations t →
        HasOwners (Tenants.updateOrganization db key name root).1.organizations t := by
    intro ρ k t ht i v hv
    obtain ⟨o, ho⟩ := ht i v hv
    exact ⟨_, Table.mem_update.mpr ⟨o, ho, rfl⟩⟩
  exact ⟨hkeep h.pages, hkeep h.menus, hkeep h.media⟩

theorem NoOrphan.addDomain {db db' : TenantDb} {id : ℕ} {hostname : String}
    (h : NoOrphan db) (hadd : addDomain db id hostname = .ok db') : NoOrphan db' := by
  unfold Tenants.addDomain at hadd
  split at hadd
  · cases hadd
  · cases hadd
    exact ⟨h.pages, h.menus, h.media⟩

/-! ## One step -/

/-- The step is a delete transaction whose organization has content by now. -/
def Strands (w : World) : Label → Bool
  | .exec r _ =>
      match w.phase r with
      | .delete key => !(contentCounts w.live.db key).is_empty
      | _ => false
  | _ => false

/-- The statement of a request keeps content owned, a delete transaction with
content in its way apart. -/
theorem noOrphan_statement {config : VhostConfig} {s s' : Live} {now : ℤ}
    {ph next : Phase} (h : NoOrphan s.db) (hs : statement config s now ph = some (s', next)) :
    NoOrphan s'.db ↔ ∀ key, ph = .delete key → (contentCounts s.db key).is_empty = true := by
  cases ph <;>
    simp only [statement, reduceCtorEq, Option.some.injEq, Prod.mk.injEq] at hs
  case delete key =>
    simp only [Phase.delete.injEq, forall_eq']
    rw [← noOrphan_deleteOrganization_iff h]
    split at hs
    · cases hs
      rfl
    · rename_i hgone
      cases hs
      rcases deleteOrganization_cases s.db key with ⟨_, heq⟩ | ⟨id, hid, _⟩
      · rw [heq]
      · rw [← findOrganization_eq_organizationId] at hid
        obtain ⟨r, hr, _⟩ := Option.map_eq_some_iff.mp hid
        exact absurd (by simp [deleteOrganization, hr]) hgone
  all_goals refine iff_of_true ?_ (fun _ => nofun)
  case insert organization content =>
    split at hs
    · rename_i db id hins
      cases hs
      exact h.insertContent hins
    · cases hs
      exact h
  case create key name root =>
    split at hs
    · rename_i db hins
      cases hs
      exact h.createOrganization hins
    · cases hs
      exact h
    · cases hs
      exact h
  case load goal key =>
    split at hs
    · cases hs
      exact h
    · cases hs
      exact h
  case update key name root =>
    split at hs
    · cases hs
      exact h.updateOrganization
    · cases hs
      exact h
  case mapDomain key id hostname =>
    split at hs
    · rename_i db hadd
      cases hs
      exact h.addDomain hadd
    · cases hs
      exact h
    · cases hs
      exact h
  case unmapDomain key id hostname =>
    split at hs
    · cases hs
      exact ⟨h.pages, h.menus, h.media⟩
    · cases hs
      exact h
  all_goals
    obtain ⟨rfl, _⟩ := hs
    exact h

/-- **The step lemma**: owned content stays owned exactly when the step strands
none. -/
theorem noOrphan_step {config : VhostConfig} {w w' : World} {l : Label}
    (h : NoOrphan w.live.db) (hs : step config w l = some w') :
    NoOrphan w'.live.db ↔ Strands w l = false := by
  cases l with
  | start r organization user goal =>
      simp only [step] at hs
      split at hs
      · cases hs
        exact iff_of_true h rfl
      · cases hs
  | fail r =>
      obtain ⟨next, _, rfl⟩ := Option.map_eq_some_iff.mp hs
      exact iff_of_true h rfl
  | drop r =>
      simp only [step, Option.ite_none_right_eq_some, Option.some.injEq] at hs
      obtain ⟨_, rfl⟩ := hs
      exact iff_of_true h rfl
  | exec r now =>
      obtain ⟨⟨live, next⟩, hst, rfl⟩ := Option.map_eq_some_iff.mp hs
      show NoOrphan live.db ↔ _
      rw [noOrphan_statement h hst]
      simp only [Strands]
      cases w.phase r <;> simp

/-! ## Runs -/

/-- **When no content is orphaned.** Along any schedule, every row of content
has its organization in every state exactly when no delete transaction runs
while its organization owns content. -/
theorem no_orphan_iff (config : VhostConfig) (db : TenantDb) (labels : List Label)
    (h : NoOrphan db) :
    Throughout (step config) (fun w => NoOrphan w.live.db) (World.boot config db) labels ↔
      EachStep (step config) (fun w l => Strands w l = false) (World.boot config db)
        labels :=
  throughout_iff_eachStep (step config) (I := fun _ => True)
    (fun _ _ _ _ _ _ => trivial) (fun _ _ _ _ hp hs => noOrphan_step hp hs) trivial h

/-- A tenant without content: `ada` administers the CMS organization, `eve`
edits `acme`. -/
def acmeTenant : TenantDb where
  users :=
    { rows := [(1, ⟨"ada", "hash", .admin, 0, none⟩), (2, ⟨"eve", "hash", .user, 0, none⟩)]
      seq := 2, ids_nodup := by decide, ids_le_seq := by decide }
  organizations :=
    { rows := [(1, ⟨"main", "Main site", "public", 0⟩), (2, ⟨"cms", "CMS", "views", 0⟩),
        (3, ⟨"acme", "Acme", "sites/acme", 0⟩)]
      seq := 3, ids_nodup := by decide, ids_le_seq := by decide }
  memberships :=
    { rows := [⟨1, 2, .admin⟩, ⟨2, 3, .editor⟩]
      pk_nodup := by decide, role_check := by decide }
  domains := Constrained.empty
  pages := Constrained.empty
  menus := Constrained.empty
  media := Constrained.empty

theorem noOrphan_acmeTenant : NoOrphan acmeTenant := by
  constructor <;> intro i v hv <;> cases hv

/-- `ada` deletes `acme` while `eve` creates a menu: the insert runs between
the count and the delete. -/
def deleteDuringCreate : List Label :=
  [.start 0 "cms" 1 (.deleteTenant "acme"), .exec 0 0, .exec 0 0, .exec 0 0,
    .start 1 "acme" 2 (.createContent (.menu ⟨"nav", "Navigation", 0, 0⟩)),
    .exec 1 0, .exec 1 0, .exec 0 0]

/-- The menu outlives its organization. -/
theorem menu_orphaned : NoOrphan acmeTenant ∧
    ¬ Throughout (step defaultConfig) (fun w => NoOrphan w.live.db)
      (World.boot defaultConfig acmeTenant) deleteDuringCreate := by
  refine ⟨noOrphan_acmeTenant, fun hall => ?_⟩
  have hrun : (run (step defaultConfig) (World.boot defaultConfig acmeTenant)
      deleteDuringCreate).any (fun w => w.live.db.menus.rows.any fun r =>
        w.live.db.organizations.rows.all fun o => o.1 != r.2.organization_id) = true := by
    decide +kernel
  obtain ⟨w, hw, hlost⟩ := (Option.any_eq_true _ _).mp hrun
  obtain ⟨⟨i, v⟩, hv, hgone⟩ := List.any_eq_true.mp hlost
  obtain ⟨o, ho⟩ := (hall _ w (List.prefix_refl _) hw).menus i v hv
  simpa using List.all_eq_true.mp hgone _ ho

theorem no_orphan_iff_acme :
    Throughout (step defaultConfig) (fun w => NoOrphan w.live.db)
        (World.boot defaultConfig acmeTenant) deleteDuringCreate ↔
      EachStep (step defaultConfig) (fun w l => Strands w l = false)
        (World.boot defaultConfig acmeTenant) deleteDuringCreate :=
  no_orphan_iff defaultConfig acmeTenant deleteDuringCreate noOrphan_acmeTenant

end Wallermax.Tenants
