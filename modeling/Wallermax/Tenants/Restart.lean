import Wallermax.Tenants.Boot

/-!
# The running server and a fresh boot

Panel writes keep a database seeded, so a fresh boot on it derives the very
snapshot the running server has installed once its requests are done. What a
fresh boot chooses anew, and the running server does not, is the router: the
single-host tree or the dispatcher.
-/

namespace Wallermax.Tenants

open Wallermax.Base
open Wallermax.Accounts
open Wallermax.Storage

/-! ## What a panel write does to the tables -/

/-- The key of a tenant, not of a bootstrap organization. -/
def Unseeded (key : String) : Prop := key ≠ mainOrganizationKey ∧ key ≠ cmsOrganizationKey

/-- What a request has checked when it comes to its write. -/
def Phase.Permitted : Phase → Prop
  | .create key _ _ => Unseeded key
  | .update key _ _ => Unseeded key
  | .counts key => Unseeded key
  | .delete key => Unseeded key
  | _ => True

/-- What a request in this phase does to the tables. -/
inductive Change (ph : Phase) (db : TenantDb) : TenantDb → Prop where
  | content {db' : TenantDb} (hpanel : db'.toPanelDb = db.toPanelDb)
      (hdomains : db'.domains = db.domains) : Change ph db db'
  | created {db' : TenantDb} {key name root : String} {now : ℤ} (hkey : Unseeded key)
      (h : createOrganization db key name root now = .ok db') : Change ph db db'
  | updated (key name root : String) (hkey : Unseeded key) :
      Change ph db (updateOrganization db key name root).1
  | deleted (key : String) (hkey : Unseeded key) : Change ph db (deleteOrganization db key).1
  | mapped {db' : TenantDb} {key : String} {id : ℕ} {hostname : String}
      (hph : ph = .mapDomain key id hostname) (h : addDomain db id hostname = .ok db') :
      Change ph db db'
  | unmapped {key : String} {id : ℕ} {hostname : String}
      (hph : ph = .unmapDomain key id hostname) :
      Change ph db (deleteManualDomain db id hostname).1

theorem Change.refl (ph : Phase) (db : TenantDb) : Change ph db db := .content rfl rfl

theorem createForm_permitted (key name root : String) :
    (createForm key name root).Permitted := by
  simp only [createForm]
  split
  · trivial
  · rename_i hkey
    split
    · trivial
    · split
      · trivial
      · exact validateTenantKey_ok hkey

theorem first_permitted (organization : String) (goal : Goal) :
    (goal.first organization).Permitted := by
  cases goal with
  | createContent content =>
      simp only [Goal.first]
      split <;> trivial
  | createTenant key name root => exact createForm_permitted key name root
  | updateTenant key name root => trivial
  | deleteTenant key => trivial
  | addDomain key hostname => trivial
  | removeDomain key hostname => trivial

theorem unseeded_of_isSeeded {organization : Organization}
    (h : ¬ isSeeded organization = true) : Unseeded organization.key := by
  simpa [isSeeded, Unseeded, not_or] using h

theorem loaded_permitted (config : VhostConfig) (id : ℕ) (organization : Organization)
    (goal : Goal) : (goal.loaded config id organization).Permitted := by
  cases goal with
  | createContent content => trivial
  | createTenant key name root => trivial
  | updateTenant key name root =>
      simp only [Goal.loaded, updateForm]
      split
      · trivial
      · rename_i hseeded
        split
        · trivial
        · split
          · trivial
          · exact unseeded_of_isSeeded hseeded
  | deleteTenant key =>
      simp only [Goal.loaded]
      split
      · trivial
      · rename_i hseeded
        exact unseeded_of_isSeeded hseeded
  | addDomain key hostname =>
      simp only [Goal.loaded, domainForm]
      split
      · trivial
      · split <;> trivial
  | removeDomain key hostname => trivial

/-- **Every statement** of a permitted request changes the tables in one of these
ways, and the request stays permitted. -/
theorem change_of_statement {config : VhostConfig} {s s' : Live} {now : ℤ} {ph next : Phase}
    (hph : ph.Permitted) (h : statement config s now ph = some (s', next)) :
    Change ph s.db s'.db ∧ next.Permitted := by
  cases ph <;> simp only [statement, reduceCtorEq, Option.some.injEq, Prod.mk.injEq] at h
  case authorize organization user goal =>
    obtain ⟨rfl, rfl⟩ := h
    refine ⟨.refl .., ?_⟩
    split
    · exact first_permitted organization goal
    · trivial
  case parent organization content id =>
    obtain ⟨rfl, rfl⟩ := h
    refine ⟨.refl .., ?_⟩
    split <;> trivial
  case insert organization content =>
    split at h
    · rename_i db id hins
      cases h
      obtain ⟨hpanel, hdomains⟩ := insertContent_frame hins
      exact ⟨.content hpanel hdomains, trivial⟩
    · cases h
      exact ⟨.refl .., trivial⟩
  case create key name root =>
    split at h
    · rename_i db hins
      cases h
      exact ⟨.created hph hins, trivial⟩
    · cases h
      exact ⟨.refl .., trivial⟩
    · cases h
      exact ⟨.refl .., trivial⟩
  case reread key =>
    obtain ⟨rfl, rfl⟩ := h
    refine ⟨.refl .., ?_⟩
    split <;> trivial
  case load goal key =>
    split at h
    · cases h
      exact ⟨.refl .., trivial⟩
    · rename_i id organization hfind
      cases h
      exact ⟨.refl .., loaded_permitted config id organization goal⟩
  case update key name root =>
    split at h
    · cases h
      exact ⟨.updated key name root hph, trivial⟩
    · cases h
      exact ⟨.refl .., trivial⟩
  case counts key =>
    obtain ⟨rfl, rfl⟩ := h
    refine ⟨.refl .., ?_⟩
    split
    · exact hph
    · trivial
  case delete key =>
    split at h
    · cases h
      exact ⟨.deleted key hph, trivial⟩
    · cases h
      exact ⟨.refl .., trivial⟩
  case mapDomain key id hostname =>
    split at h
    · rename_i db hadd
      cases h
      exact ⟨.mapped rfl hadd, trivial⟩
    · cases h
      exact ⟨.refl .., trivial⟩
    · cases h
      exact ⟨.refl .., trivial⟩
  case unmapDomain key id hostname =>
    split at h
    · cases h
      exact ⟨.unmapped rfl, trivial⟩
    · cases h
      exact ⟨.refl .., trivial⟩
  all_goals
    obtain ⟨rfl, rfl⟩ := h
    exact ⟨.refl .., trivial⟩

/-! ## The seeds survive -/

section Seeds

variable {config : VhostConfig} {ph : Phase} {db db' : TenantDb} {key : String}

theorem findOrganization_eq_head? (db : TenantDb) (key : String) :
    findOrganization db.toPanelDb key =
      (db.organizations.rows.filter fun r => r.2.key == key).head? :=
  List.head?_filter.symm

/-- The rows of a bootstrap organization are out of every write's reach. -/
theorem Change.seeded_rows (h : Change ph db db') (hkey : ¬ Unseeded key) :
    db'.organizations.rows.filter (fun r => r.2.key == key) =
      db.organizations.rows.filter fun r => r.2.key == key := by
  cases h with
  | content hpanel _ => rw [hpanel]
  | @created _ other _ _ _ hother hins =>
      obtain ⟨_, rfl⟩ := createOrganization_ok hins
      apply Table.filter_insert
      have hne : other ≠ key := by
        rintro rfl
        exact hkey hother
      simpa using hne
  | updated other _ _ hother =>
      apply Table.filter_update
      intro i o _ ho
      have hne : o.key ≠ key := by
        rintro rfl
        exact hkey (beq_iff_eq.mp ho ▸ hother)
      simpa using hne
  | deleted other hother =>
      unfold deleteOrganization
      split
      · rfl
      · rename_i id organization hfind
        obtain ⟨hrow, hname⟩ := findOrganization_some hfind
        apply Table.filter_delete
        intro i o ho hi
        obtain rfl := beq_iff_eq.mp hi
        obtain rfl := Table.eq_of_mem hrow ho
        have hne : organization.key ≠ key := by
          rintro rfl
          exact hkey (hname ▸ hother)
        simpa using hne
  | mapped _ hadd =>
      unfold addDomain at hadd
      split at hadd
      · cases hadd
      · cases hadd
        rfl
  | unmapped => rfl

theorem Change.findOrganization_seeded (h : Change ph db db') (hkey : ¬ Unseeded key) :
    findOrganization db'.toPanelDb key = findOrganization db.toPanelDb key := by
  rw [findOrganization_eq_head?, findOrganization_eq_head?, h.seeded_rows hkey]

theorem SeededAs.change {name root : String} (hs : SeededAs db key name root)
    (h : Change ph db db') (hkey : ¬ Unseeded key) : SeededAs db' key name root := by
  constructor
  · rw [h.findOrganization_seeded hkey]
    exact hs.present
  · intro i o ho hname
    have hrow : (i, o) ∈ db'.organizations.rows.filter fun r => r.2.key == key :=
      List.mem_filter.mpr ⟨ho, by simp [hname]⟩
    rw [h.seeded_rows hkey] at hrow
    exact hs.columns i o (List.mem_of_mem_filter hrow) hname

theorem not_unseeded_main : ¬ Unseeded mainOrganizationKey := fun h => h.1 rfl

theorem not_unseeded_cms : ¬ Unseeded cmsOrganizationKey := fun h => h.2 rfl

/-- The seeder's own host names are out of reach too. -/
theorem Change.config_domains (h : Change ph db db') {cms : ℕ} {o : Organization}
    (horg : findOrganization db.toPanelDb cmsOrganizationKey = some (cms, o)) :
    (∀ i d, (i, d) ∈ db.domains.rows → d.source = .config → d.organization_id = cms →
      (i, d) ∈ db'.domains.rows) ∧
    ∀ i d, (i, d) ∈ db'.domains.rows → d.source = .config → (i, d) ∈ db.domains.rows := by
  cases h with
  | content _ hdomains =>
      rw [hdomains]
      exact ⟨fun _ _ hd _ _ => hd, fun _ _ hd _ => hd⟩
  | created _ hins =>
      obtain ⟨_, rfl⟩ := createOrganization_ok hins
      exact ⟨fun _ _ hd _ _ => hd, fun _ _ hd _ => hd⟩
  | updated => exact ⟨fun _ _ hd _ _ => hd, fun _ _ hd _ => hd⟩
  | deleted other hother =>
      unfold deleteOrganization
      split
      · exact ⟨fun _ _ hd _ _ => hd, fun _ _ hd _ => hd⟩
      · rename_i id organization hfind
        obtain ⟨hrow, hname⟩ := findOrganization_some hfind
        obtain ⟨hcms, hcmsname⟩ := findOrganization_some horg
        have hne : cms ≠ id := by
          rintro rfl
          obtain rfl := Table.eq_of_mem hrow hcms
          exact hother.2 (hname.symm.trans hcmsname)
        constructor
        · intro i d hd _ howner
          exact Constrained.mem_delete.mpr ⟨hd, by simp [howner, hne]⟩
        · intro i d hd _
          exact (Constrained.mem_delete.mp hd).1
  | mapped _ hadd =>
      unfold addDomain at hadd
      split at hadd
      · cases hadd
      · rename_i domains hins
        cases hadd
        constructor
        · intro i d hd _ _
          exact (Constrained.mem_insert? hins).mpr (.inl hd)
        · intro i d hd hsource
          rcases (Constrained.mem_insert? hins).mp hd with hold | ⟨w, hw, heq⟩
          · exact hold
          · cases hw
            cases heq
            cases hsource
  | unmapped =>
      constructor
      · intro i d hd hsource _
        exact Constrained.mem_delete.mpr ⟨hd, by simp [hsource]⟩
      · intro i d hd _
        exact (Constrained.mem_delete.mp hd).1

/-- **A seeded database stays seeded.** -/
theorem Seeded.change (hs : Seeded config db) (h : Change ph db db') : Seeded config db' := by
  obtain ⟨cms, o, horg⟩ := hs.cms.present
  obtain ⟨hkept, hold⟩ := h.config_domains horg
  constructor
  · exact hs.main.change h not_unseeded_main
  · exact hs.cms.change h not_unseeded_cms
  · intro raw hraw hempty
    obtain ⟨i, cms', o', horg', hrow⟩ := hs.listed raw hraw hempty
    obtain ⟨rfl, rfl⟩ := Prod.mk.inj (Option.some.inj (horg.symm.trans horg'))
    exact ⟨i, cms, o, (h.findOrganization_seeded not_unseeded_cms).trans horg,
      hkept _ _ hrow rfl rfl⟩
  · intro i d hd hsource
    exact hs.unlisted i d (hold i d hd hsource) hsource

end Seeds

/-- The database is seeded and every request is permitted what it is about to
write. -/
structure Guarded (config : VhostConfig) (w : World) : Prop where
  seeded : Seeded config w.live.db
  permitted : ∀ r, (w.phase r).Permitted

theorem Guarded.advance {config : VhostConfig} {w : World} (h : Guarded config w) (r : ℕ)
    {live : Live} {next : Phase} (hdb : Change (w.phase r) w.live.db live.db) (hnext : next.Permitted) :
    Guarded config (w.advance r live next) := by
  refine ⟨h.seeded.change hdb, fun q => ?_⟩
  rw [phase_advance]
  split
  · exact hnext
  · exact h.permitted q

theorem failure_permitted {config : VhostConfig} {ph next : Phase}
    (h : failure config ph = some next) : next.Permitted := by
  cases ph <;> cases h <;> trivial

/-- What a step of the server does to the tables. -/
theorem change_of_step {config : VhostConfig} {w w' : World} {l : Label}
    (h : Guarded config w) (hs : step config w l = some w') :
    Change (w.phase l.request) w.live.db w'.live.db := by
  cases l with
  | start r organization user goal =>
      simp only [step] at hs
      split at hs
      · cases hs
        exact .refl ..
      · cases hs
  | exec r now =>
      obtain ⟨⟨live, next⟩, hst, rfl⟩ := Option.map_eq_some_iff.mp hs
      exact (change_of_statement (h.permitted r) hst).1
  | fail r =>
      obtain ⟨next, hf, rfl⟩ := Option.map_eq_some_iff.mp hs
      exact .refl ..
  | drop r =>
      simp only [step, Option.ite_none_right_eq_some, Option.some.injEq] at hs
      obtain ⟨_, rfl⟩ := hs
      exact .refl ..

theorem Guarded.step {config : VhostConfig} {w w' : World} {l : Label}
    (h : Guarded config w) (hs : step config w l = some w') : Guarded config w' := by
  cases l with
  | start r organization user goal =>
      simp only [Tenants.step] at hs
      split at hs
      · cases hs
        exact h.advance r (.refl ..) trivial
      · cases hs
  | exec r now =>
      obtain ⟨⟨live, next⟩, hst, rfl⟩ := Option.map_eq_some_iff.mp hs
      obtain ⟨hdb, hnext⟩ := change_of_statement (h.permitted r) hst
      exact h.advance r hdb hnext
  | fail r =>
      obtain ⟨next, hf, rfl⟩ := Option.map_eq_some_iff.mp hs
      exact h.advance r (.refl ..) (failure_permitted hf)
  | drop r =>
      simp only [Tenants.step, Option.ite_none_right_eq_some, Option.some.injEq] at hs
      obtain ⟨_, rfl⟩ := hs
      exact h.advance r (.refl ..) trivial

/-! ## One request after another -/

/-- No other request is under way. -/
def InTurn (w : World) (l : Label) : Prop :=
  ∀ q, q ≠ l.request → (w.phase q).settled = true

/-- Every refresh under way has read what the last commit left. -/
def ReadsCurrent (w : World) : Prop :=
  ∀ r began, (w.phase r).stage = .reading began → began = w.live.version

theorem stage_of_settled {ph : Phase} (h : ph.settled = true) : ph.stage = .quiet := by
  cases ph <;> first | rfl | cases h

/-- In turn, no refresh is overtaken. -/
theorem overtakes_of_readsCurrent {config : VhostConfig} {w : World} (h : Coherent config w)
    (hreads : ReadsCurrent w) (l : Label) : Overtakes w l = false := by
  cases l with
  | exec r now =>
      cases hph : w.phase r with
      | swap began snapshot destination =>
          have hbegan : began = w.live.version := hreads r began (by rw [hph]; rfl)
          have hle : w.live.installed ≤ w.live.version := h.sound.installed_le
          simp only [Overtakes, hph, decide_eq_false_iff_not]
          omega
      | _ => simp [Overtakes, hph]
  | start r organization user goal => rfl
  | fail r => rfl
  | drop r => rfl

theorem readsCurrent_step {config : VhostConfig} {w w' : World} {l : Label}
    (h : Coherent config w) (hreads : ReadsCurrent w) (hturn : InTurn w l)
    (hs : step config w l = some w') : ReadsCurrent w' := by
  intro q began hstage
  by_cases hq : q = l.request
  · subst hq
    cases l with
    | start r organization user goal =>
        simp only [step] at hs
        split at hs
        · cases hs
          rw [phase_advance, Label.request, if_pos rfl] at hstage
          cases hstage
        · cases hs
    | fail r =>
        obtain ⟨next, hf, rfl⟩ := Option.map_eq_some_iff.mp hs
        rw [phase_advance, Label.request, if_pos rfl] at hstage
        rcases (failure_stage (s := w.live) hf).2 with hlost | ⟨_, hquiet⟩
        · rw [hlost] at hstage
          cases hstage
        · rw [hquiet] at hstage
          cases hstage
    | drop r =>
        simp only [step, Option.ite_none_right_eq_some, Option.some.injEq] at hs
        obtain ⟨_, rfl⟩ := hs
        rw [phase_advance, Label.request, if_pos rfl] at hstage
        cases hstage
    | exec r now =>
        obtain ⟨⟨live, next⟩, hst, rfl⟩ := Option.map_eq_some_iff.mp hs
        rw [phase_advance, Label.request, if_pos rfl] at hstage
        have heffect := effect_statement h.known (h.fits r) hst
        generalize hph : w.phase r = ph at heffect
        cases heffect with
        | stay _ hquiet _ =>
            rw [hquiet] at hstage
            cases hstage
        | lose => cases hstage
        | write _ _ hquiet _ _ =>
            rw [hquiet] at hstage
            cases hstage
        | commit => cases hstage
        | readRoots =>
            cases hstage
            rfl
        | readBindings read roots destination =>
            cases hstage
            exact hreads r began (by rw [hph]; rfl)
        | swap => cases hstage
  · rw [phase_step hq hs, stage_of_settled (hturn q hq)] at hstage
    cases hstage

/-! ## The refinement -/

/-- The running server serves every host as one freshly booted on its database
does: the same tree, and the same view of it in the middleware. -/
def RefinesBoot (config : VhostConfig) (single_host : Bool) (w : World) (now : ℤ) : Prop :=
  ∃ fresh, boot config w.live.db now = some fresh ∧ ∀ host,
    dispatch single_host w.live.snapshot host =
        dispatch fresh.single_host fresh.world.live.snapshot host ∧
      middlewareView w.live.snapshot host = middlewareView fresh.world.live.snapshot host

theorem boot_some {config : VhostConfig} {db : TenantDb} {now : ℤ} {server : Server}
    (h : boot config db now = some server) :
    server.single_host = (loadHostBindings (bootDb config db now)).isEmpty ∧
      server.world = World.boot config (bootDb config db now) := by
  simp only [boot, Option.ite_none_left_eq_some, Option.some.injEq] at h
  obtain ⟨_, rfl⟩ := h
  refine ⟨?_, rfl⟩
  simp [derived, snapshotOf]

theorem boot_seeded {config : VhostConfig} {db : TenantDb} (hs : Seeded config db)
    (hstatic : config.static_enabled = true) (now : ℤ) :
    ∃ fresh, boot config db now = some fresh ∧
      fresh.single_host = (loadHostBindings db).isEmpty ∧
      fresh.world.live.snapshot = derived config db := by
  obtain ⟨horgs, hdomains⟩ := bootDb_of_seeded hs now
  obtain ⟨hbindings, hderived⟩ := derived_congr config horgs hdomains
  refine ⟨_, if_neg (by simp [hstatic]), ?_, hderived⟩
  simp [derived, snapshotOf, hbindings]

theorem refinesBoot_iff {config : VhostConfig} {w : World} (hs : Seeded config w.live.db)
    (hstatic : config.static_enabled = true)
    (hcurrent : w.live.snapshot = derived config w.live.db) (single_host : Bool) (now : ℤ) :
    RefinesBoot config single_host w now ↔
      (single_host = true ↔ loadHostBindings w.live.db = []) := by
  obtain ⟨fresh, hboot, hsingle, hsnapshot⟩ := boot_seeded hs hstatic now
  have hflag : (single_host = true ↔ loadHostBindings w.live.db = []) ↔
      single_host = fresh.single_host := by
    rw [hsingle, ← List.isEmpty_iff]
    exact Bool.eq_iff_iff.symm
  rw [hflag]
  constructor
  · rintro ⟨fresh', hboot', hall⟩
    obtain rfl := Option.some.inj (hboot.symm.trans hboot')
    -- without a host the two routers already differ
    have htree := (hall none).1
    cases hrunning : single_host <;> cases hfresh : fresh.single_host <;>
      simp_all [dispatch, treeOf, classify]
  · intro hsame
    refine ⟨fresh, hboot, fun host => ?_⟩
    rw [hcurrent, hsnapshot, hsame]
    exact ⟨rfl, rfl⟩

/-- **The running server refines a fresh boot** exactly as long as something is
mapped when something was mapped at boot: after any sequence of panel requests
that all came through. -/
theorem running_refines_boot (config : VhostConfig) (db : TenantDb) (now : ℤ)
    (server : Server) (labels : List Label) (hstatic : config.static_enabled = true)
    (hknown : KnownOwners db) (hboot : boot config db now = some server)
    (hturns : EachStep (step config) InTurn server.world labels) :
    Throughout (step config) (fun w => Settled w → ∀ later,
      RefinesBoot config server.single_host w later ↔
        (loadHostBindings server.world.live.db = [] ↔ loadHostBindings w.live.db = []))
      server.world labels := by
  obtain ⟨hsingle, hworld⟩ := boot_some hboot
  have hfirst : Coherent config server.world ∧ ReadsCurrent server.world ∧
      Guarded config server.world := by
    rw [hworld]
    refine ⟨coherent_boot config _ (knownOwners_bootDb hknown), ?_, ?_⟩
    · intro r began hstage
      cases hstage
    · exact ⟨seeded_bootDb config db now, fun _ => trivial⟩
  have hrun := throughout_of_eachStep (step config)
    (I := fun w => Coherent config w ∧ ReadsCurrent w ∧ Guarded config w)
    (fun w l w' hw hturn hs =>
      ⟨hw.1.step (overtakes_of_readsCurrent hw.1 hw.2.1 l) hs,
        readsCurrent_step hw.1 hw.2.1 hturn hs, hw.2.2.step hs⟩) hfirst hturns
  refine hrun.mono (step config) ?_
  rintro w ⟨hcoherent, -, hguarded⟩ hsettled later
  have hcurrent := hcoherent.current (hcoherent.sound.current_of_settled hsettled.ledger)
  rw [refinesBoot_iff hguarded.seeded hstatic hcurrent, hsingle, hworld, List.isEmpty_iff]
  rfl

/-! ## A tenant's first host name -/

/-- The requests of one client, one step after another. -/
theorem inTurn_of_one {config : VhostConfig} {db : TenantDb} {labels : List Label} {r : ℕ}
    (h : ∀ l ∈ labels, l.request = r) :
    EachStep (step config) InTurn (World.boot config db) labels := by
  intro pre l w w' hpre hrun _ q hq
  have hother : ∀ l' ∈ pre, q ≠ l'.request := by
    intro l' hl'
    rw [h l' (hpre.subset (List.mem_append_left _ hl'))]
    rwa [h l (hpre.subset (List.mem_append_right _ (List.mem_singleton_self l)))] at hq
  rw [phase_run hother hrun]
  rfl

theorem exists_boot {config : VhostConfig} (hstatic : config.static_enabled = true)
    (db : TenantDb) (now : ℤ) : ∃ server, boot config db now = some server :=
  ⟨_, if_neg (by simp [hstatic])⟩

/-- The CMS has a host name of its own. -/
def splitConfig : VhostConfig :=
  { defaultConfig with
    cms_hosts := ["cms.test"] }

/-- The administrator maps `acme.test`. -/
def mapAcme : List Label :=
  [.start 0 "cms" 1 (.addDomain "acme" "acme.test"), .exec 0 0, .exec 0 0, .exec 0 0,
    .exec 0 0, .exec 0 0, .exec 0 0]

theorem running_refines_boot_split : ∃ server, boot splitConfig twoTenants 0 = some server ∧
    Throughout (step splitConfig) (fun w => Settled w → ∀ later,
      RefinesBoot splitConfig server.single_host w later ↔
        (loadHostBindings server.world.live.db = [] ↔ loadHostBindings w.live.db = []))
      server.world mapAcme := by
  have hstatic : splitConfig.static_enabled = true := rfl
  obtain ⟨server, hboot⟩ := exists_boot hstatic twoTenants 0
  refine ⟨server, hboot, running_refines_boot splitConfig twoTenants 0 server mapAcme rfl
    knownOwners_twoTenants hboot ?_⟩
  rw [(boot_some hboot).2]
  exact inTurn_of_one (r := 0) (by decide)

/-- On a single-host server the new host name still gets the single-host tree,
and after a restart its tenant's. -/
theorem first_mapping_waits : ∃ server, boot defaultConfig twoTenants 0 = some server ∧
    EachStep (step defaultConfig) InTurn server.world mapAcme ∧
    ¬ Throughout (step defaultConfig) (fun w => Settled w → ∀ later,
      RefinesBoot defaultConfig server.single_host w later) server.world mapAcme := by
  have hstatic : defaultConfig.static_enabled = true := rfl
  obtain ⟨server, hboot⟩ := exists_boot hstatic twoTenants 0
  obtain ⟨hsingle, hworld⟩ := boot_some hboot
  have hone : server.single_host = true := by
    rw [hsingle]
    decide +kernel
  refine ⟨server, hboot, ?_⟩
  rw [hworld]
  refine ⟨inTurn_of_one (r := 0) (by decide), fun hall => ?_⟩
  have hrun : (run (step defaultConfig)
      (World.boot defaultConfig (bootDb defaultConfig twoTenants 0)) mapAcme).any (fun w =>
        (w.phase 0).settled && (boot defaultConfig w.live.db 0).all fun fresh =>
          !fresh.single_host && dispatch fresh.single_host fresh.world.live.snapshot
            (some "acme.test") == some (.tenant "acme" "/srv/sites/acme")) = true := by
    decide +kernel
  obtain ⟨w, hw, hmapped⟩ := (Option.any_eq_true _ _).mp hrun
  obtain ⟨hdone, hfresh⟩ := Bool.and_eq_true_iff.mp hmapped
  have hsettled : Settled w := by
    intro r
    by_cases hr : r = 0
    · rw [hr]
      exact hdone
    · rw [phase_run (fun l hl heq => hr (heq.trans ((by decide : ∀ l ∈ mapAcme,
        l.request = 0) l hl))) hw]
      rfl
  obtain ⟨fresh, hboot', hsame⟩ := hall _ w (List.prefix_refl _) hw hsettled 0
  rw [hboot', Option.all_some, Bool.and_eq_true_iff, beq_iff_eq] at hfresh
  have htree := (hsame (some "acme.test")).1
  rw [hfresh.2, hone] at htree
  cases htree

end Wallermax.Tenants
