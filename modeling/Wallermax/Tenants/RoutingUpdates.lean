import Wallermax.Base.Refresh
import Wallermax.Tenants.Requests

/-!
# Routing updates and the live snapshot

Every tenant write refreshes the snapshot, and no lock orders one refresh after
another: a refresh that read before another request's commit may swap after it.
The requests are a ledger (`Base.Refresh`) whose copy is the snapshot; what is
added here is that a read as recent as the last commit derives the routing the
database holds.
-/

namespace Wallermax.Tenants

open Wallermax.Base
open Wallermax.Accounts
open Wallermax.Storage

/-! ## The requests as a ledger -/

def Phase.stage : Phase → Stage
  | .roots _ => .owed
  | .bindings began _ _ => .reading began
  | .swap began _ _ => .reading began
  | .flagged _ => .lost
  | .dropped => .lost
  | _ => .quiet

def World.ledger (w : World) : Ledger ℕ where
  version := w.live.version
  installed := w.live.installed
  stage := fun r => (w.phase r).stage

/-- Not started, or answered without a failed refresh. -/
def Phase.settled : Phase → Bool
  | .idle => true
  | .answered _ => true
  | _ => false

/-- Every request has finished, and none of them failed to refresh. -/
def Settled (w : World) : Prop := ∀ r, (w.phase r).settled = true

theorem Settled.ledger {w : World} (h : Settled w) : w.ledger.Settled := by
  intro r
  show (w.phase r).stage = .quiet
  have hr := h r
  cases hph : w.phase r <;> rw [hph] at hr <;> first | rfl | cases hr

/-- The step swaps in a snapshot read before the installed one was. -/
def Overtakes (w : World) : Label → Bool
  | .exec r _ =>
      match w.phase r with
      | .swap began _ _ => began < w.live.installed
      | _ => false
  | _ => false

theorem ledger_advance (w : World) (r : ℕ) (live : Live) (next : Phase) :
    (w.advance r live next).ledger =
      { version := live.version, installed := live.installed
        stage := Function.update w.ledger.stage r next.stage } := by
  simp only [World.ledger, Ledger.mk.injEq]
  refine ⟨rfl, rfl, ?_⟩
  funext q
  rw [phase_advance, Function.update_apply]
  split <;> rfl

/-! ## What a statement can do -/

/-- What a request's phase must know for its next statement to be right. -/
def Phase.Fits (config : VhostConfig) (s : Live) : Phase → Prop
  | .mapDomain _ id _ => id ≤ s.db.organizations.seq
  | .create key _ _ => key ≠ mainOrganizationKey
  | .bindings began read _ => began = s.version →
      rootOf read mainOrganizationKey = rootOf (loadDocumentRoots s.db) mainOrganizationKey
  | .swap began snapshot _ => began = s.version → snapshot = derived config s.db
  | _ => True

/-- The tables changed, the routing did not. -/
structure SameRouting (db db' : TenantDb) : Prop where
  root : rootOf (loadDocumentRoots db') mainOrganizationKey =
    rootOf (loadDocumentRoots db) mainOrganizationKey
  bindings : loadHostBindings db' = loadHostBindings db
  seq_le : db.organizations.seq ≤ db'.organizations.seq
  known : KnownOwners db'

theorem SameRouting.derived {config : VhostConfig} {db db' : TenantDb}
    (h : SameRouting db db') : derived config db' = derived config db := by
  rw [Tenants.derived, Tenants.derived, h.bindings]
  exact snapshotOf_congr h.root _

/-- The things a statement can do to the server and its request. -/
inductive Effect (config : VhostConfig) (s : Live) : Phase → Live → Phase → Prop where
  | stay {ph next : Phase} (hph : ph.stage = .quiet) (hnext : next.stage = .quiet)
      (hfits : next.Fits config s) : Effect config s ph s next
  | lose {ph : Phase} : Effect config s ph s .dropped
  | write {ph next : Phase} (db : TenantDb) (hph : ph.stage = .quiet)
      (hnext : next.stage = .quiet) (hfits : next.Fits config (s.write db))
      (hdb : SameRouting s.db db) : Effect config s ph (s.write db) next
  | commit {ph : Phase} (db : TenantDb) (destination : Destination)
      (hph : ph.stage = .quiet) (hseq : s.db.organizations.seq ≤ db.organizations.seq)
      (hknown : KnownOwners db) : Effect config s ph (s.commit db) (.roots destination)
  | readRoots (destination : Destination) : Effect config s (.roots destination) s
      (.bindings s.version (loadDocumentRoots s.db) destination)
  | readBindings (began : ℕ) (roots : List (String × String)) (destination : Destination) :
      Effect config s (.bindings began roots destination) s
        (.swap began (snapshotOf config roots (loadHostBindings s.db)) destination)
  | swap (began : ℕ) (snapshot : VhostSnapshot) (destination : Destination) (answer : Answer) :
      Effect config s (.swap began snapshot destination) (s.install began snapshot)
        (.answered answer)

/-- New content touches neither the organizations nor the host names. -/
theorem insertContent_frame {db db' : TenantDb} {organization : String}
    {content : NewContent} {id : ℕ}
    (h : insertContent db organization content = .ok (db', id)) :
    db'.toPanelDb = db.toPanelDb ∧ db'.domains = db.domains := by
  cases content with
  | page columns =>
      simp only [insertContent] at h
      split at h
      · cases h
      · cases hins : insertOwned db.pages (organizationId db.organizations organization)
            columns <;> rw [hins] at h <;> cases h
        exact ⟨rfl, rfl⟩
  | menu columns =>
      simp only [insertContent] at h
      cases hins : insertOwned db.menus (organizationId db.organizations organization)
          columns <;> rw [hins] at h <;> cases h
      exact ⟨rfl, rfl⟩
  | media columns =>
      simp only [insertContent] at h
      cases hins : insertOwned db.media (organizationId db.organizations organization)
          columns <;> rw [hins] at h <;> cases h
      exact ⟨rfl, rfl⟩

theorem sameRouting_insertContent {db db' : TenantDb} {organization : String}
    {content : NewContent} {id : ℕ} (hknown : KnownOwners db)
    (h : insertContent db organization content = .ok (db', id)) : SameRouting db db' := by
  obtain ⟨hpanel, hdomains⟩ := insertContent_frame h
  constructor
  · rw [loadDocumentRoots, loadDocumentRoots, hpanel]
  · rw [loadHostBindings, loadHostBindings, hpanel, hdomains]
  · rw [hpanel]
  · rw [KnownOwners, hpanel, hdomains]
    exact hknown

theorem sameRouting_createOrganization {db db' : TenantDb} {key name root : String}
    {now : ℤ} (hknown : KnownOwners db) (hkey : key ≠ mainOrganizationKey)
    (h : createOrganization db key name root now = .ok db') : SameRouting db db' := by
  obtain ⟨hroot, hbindings⟩ := routing_createOrganization hknown hkey h
  obtain ⟨_, rfl⟩ := createOrganization_ok h
  have hle : db.organizations.seq ≤ (db.organizations.insert ⟨key, name, root, now⟩).seq :=
    Nat.le_succ _
  exact ⟨hroot, hbindings, hle, fun i d hd => (hknown i d hd).trans hle⟩

theorem known_deleteOrganization {db : TenantDb} (key : String) (h : KnownOwners db) :
    (deleteOrganization db key).1.organizations.seq = db.organizations.seq ∧
      KnownOwners (deleteOrganization db key).1 := by
  unfold deleteOrganization
  split
  · exact ⟨rfl, h⟩
  · refine ⟨rfl, fun i d hd => h i d (Constrained.mem_delete.mp hd).1⟩

theorem known_addDomain {db db' : TenantDb} {id : ℕ} {hostname : String}
    (h : KnownOwners db) (hid : id ≤ db.organizations.seq)
    (hadd : addDomain db id hostname = .ok db') :
    db'.organizations = db.organizations ∧ KnownOwners db' := by
  unfold addDomain at hadd
  split at hadd
  · cases hadd
  · rename_i domains hins
    cases hadd
    refine ⟨rfl, fun i d hd => ?_⟩
    rcases (Constrained.mem_insert? hins).mp hd with hold | ⟨e, he, heq⟩
    · exact h i d hold
    · cases he
      cases heq
      exact hid

theorem createForm_fits {config : VhostConfig} {s : Live} (key name root : String) :
    (createForm key name root).stage = .quiet ∧ (createForm key name root).Fits config s := by
  simp only [createForm]
  split
  · exact ⟨rfl, trivial⟩
  · rename_i hkey
    split
    · exact ⟨rfl, trivial⟩
    · split
      · exact ⟨rfl, trivial⟩
      · exact ⟨rfl, (validateTenantKey_ok hkey).1⟩

theorem first_fits (config : VhostConfig) (s : Live) (organization : String) (goal : Goal) :
    (goal.first organization).stage = .quiet ∧ (goal.first organization).Fits config s := by
  cases goal with
  | createContent content =>
      simp only [Goal.first]
      split <;> exact ⟨rfl, trivial⟩
  | createTenant key name root => exact createForm_fits key name root
  | updateTenant key name root => exact ⟨rfl, trivial⟩
  | deleteTenant key => exact ⟨rfl, trivial⟩
  | addDomain key hostname => exact ⟨rfl, trivial⟩
  | removeDomain key hostname => exact ⟨rfl, trivial⟩

theorem loaded_fits (config : VhostConfig) {s : Live} {id : ℕ} {organization : Organization}
    (hid : id ≤ s.db.organizations.seq) (goal : Goal) :
    (goal.loaded config id organization).stage = .quiet ∧
      (goal.loaded config id organization).Fits config s := by
  cases goal with
  | createContent content => exact ⟨rfl, trivial⟩
  | createTenant key name root => exact ⟨rfl, trivial⟩
  | updateTenant key name root =>
      simp only [Goal.loaded, updateForm]
      split
      · exact ⟨rfl, trivial⟩
      · split
        · exact ⟨rfl, trivial⟩
        · split <;> exact ⟨rfl, trivial⟩
  | deleteTenant key =>
      simp only [Goal.loaded]
      split <;> exact ⟨rfl, trivial⟩
  | addDomain key hostname =>
      simp only [Goal.loaded, domainForm]
      split
      · exact ⟨rfl, trivial⟩
      · split
        · exact ⟨rfl, trivial⟩
        · exact ⟨rfl, hid⟩
  | removeDomain key hostname => exact ⟨rfl, trivial⟩

/-- **Every statement has one of these effects.** -/
theorem effect_statement {config : VhostConfig} {s s' : Live} {now : ℤ} {ph next : Phase}
    (hknown : KnownOwners s.db) (hfits : ph.Fits config s)
    (hs : statement config s now ph = some (s', next)) : Effect config s ph s' next := by
  cases ph <;>
    simp only [statement, reduceCtorEq, Option.some.injEq, Prod.mk.injEq] at hs
  case authorize organization user goal =>
    obtain ⟨rfl, rfl⟩ := hs
    split
    · obtain ⟨hquiet, hfit⟩ := first_fits config s organization goal
      exact .stay rfl hquiet hfit
    · exact .stay rfl rfl trivial
  case parent organization content id =>
    obtain ⟨rfl, rfl⟩ := hs
    split <;> exact .stay rfl rfl trivial
  case insert organization content =>
    split at hs
    · rename_i db id hins
      cases hs
      exact .write db rfl rfl trivial (sameRouting_insertContent hknown hins)
    · cases hs
      exact .stay rfl rfl trivial
  case create key name root =>
    split at hs
    · rename_i db hins
      cases hs
      exact .write db rfl rfl trivial (sameRouting_createOrganization hknown hfits hins)
    · cases hs
      exact .stay rfl rfl trivial
    · cases hs
      exact .stay rfl rfl trivial
  case reread key =>
    obtain ⟨rfl, rfl⟩ := hs
    split
    · exact .stay rfl rfl trivial
    · exact .lose
  case load goal key =>
    split at hs
    · cases hs
      exact .stay rfl rfl trivial
    · rename_i id organization hfind
      cases hs
      have hid := Table.le_seq_of_mem (Table.find?_some hfind).1
      obtain ⟨hquiet, hfit⟩ := loaded_fits config hid goal
      exact .stay rfl hquiet hfit
  case update key name root =>
    split at hs
    · cases hs
      exact .commit _ _ rfl (Nat.le_refl _) hknown
    · cases hs
      exact .stay rfl rfl trivial
  case counts key =>
    obtain ⟨rfl, rfl⟩ := hs
    split <;> exact .stay rfl rfl trivial
  case delete key =>
    split at hs
    · cases hs
      obtain ⟨hseq, hafter⟩ := known_deleteOrganization key hknown
      exact .commit _ _ rfl hseq.ge hafter
    · cases hs
      exact .stay rfl rfl trivial
  case mapDomain key id hostname =>
    split at hs
    · rename_i db hadd
      cases hs
      obtain ⟨horgs, hafter⟩ := known_addDomain hknown hfits hadd
      exact .commit db _ rfl (by rw [horgs]) hafter
    · cases hs
      exact .stay rfl rfl trivial
    · cases hs
      exact .stay rfl rfl trivial
  case unmapDomain key id hostname =>
    split at hs
    · cases hs
      exact .commit _ _ rfl (Nat.le_refl _)
        fun i d hd => hknown i d (Constrained.mem_delete.mp hd).1
    · cases hs
      exact .stay rfl rfl trivial
  case roots destination =>
    obtain ⟨rfl, rfl⟩ := hs
    exact .readRoots destination
  case bindings began roots destination =>
    obtain ⟨rfl, rfl⟩ := hs
    exact .readBindings began roots destination
  case swap began snapshot destination =>
    obtain ⟨rfl, rfl⟩ := hs
    exact .swap began snapshot destination _
  all_goals
    obtain ⟨rfl, rfl⟩ := hs
    exact .stay rfl rfl trivial

/-! ## The invariant -/

/-- Reads as recent as the last commit derive the routing the database holds. -/
structure Coherent (config : VhostConfig) (w : World) : Prop where
  known : KnownOwners w.live.db
  fits : ∀ r, (w.phase r).Fits config w.live
  current : w.live.installed = w.live.version → w.live.snapshot = derived config w.live.db
  sound : w.ledger.Sound

/-- What a phase knows survives a write that leaves the routing alone. -/
theorem Phase.Fits.write {config : VhostConfig} {s : Live} {db : TenantDb} {ph : Phase}
    (h : ph.Fits config s) (hdb : SameRouting s.db db) : ph.Fits config (s.write db) := by
  cases ph with
  | mapDomain key id hostname => exact Nat.le_trans h hdb.seq_le
  | bindings began read destination => exact fun hv => (h hv).trans hdb.root.symm
  | swap began snapshot destination => exact fun hv => (h hv).trans hdb.derived.symm
  | create key name root => exact h
  | _ => trivial

/-- It survives a commit: no read is as recent as the commit. -/
theorem Phase.Fits.commit {config : VhostConfig} {s : Live} {db : TenantDb} {ph : Phase}
    (h : ph.Fits config s) (hbegan : ∀ began, ph.stage = .reading began → began ≤ s.version)
    (hseq : s.db.organizations.seq ≤ db.organizations.seq) : ph.Fits config (s.commit db) := by
  cases ph with
  | mapDomain key id hostname => exact Nat.le_trans h hseq
  | bindings began read destination =>
      intro hv
      have := hbegan began rfl
      simp only [Live.commit] at hv
      omega
  | swap began snapshot destination =>
      intro hv
      have := hbegan began rfl
      simp only [Live.commit] at hv
      omega
  | create key name root => exact h
  | _ => trivial

theorem Phase.Fits.install {config : VhostConfig} {s : Live} {began : ℕ}
    {snapshot : VhostSnapshot} {ph : Phase} (h : ph.Fits config s) :
    ph.Fits config (s.install began snapshot) := by
  cases ph <;> exact h

theorem fits_advance {config : VhostConfig} {w : World} {r : ℕ} {live : Live} {next : Phase}
    (hnext : next.Fits config live) (hrest : ∀ q, (w.phase q).Fits config live) (q : ℕ) :
    ((w.advance r live next).phase q).Fits config live := by
  rw [phase_advance]
  split
  · exact hnext
  · exact hrest q

/-- A step that changes neither the database nor a stage is none of the ledger's. -/
theorem ledger_advance_same {w : World} {r : ℕ} {live : Live} {next : Phase}
    (hversion : live.version = w.live.version) (hinstalled : live.installed = w.live.installed)
    (hstage : next.stage = (w.phase r).stage) : (w.advance r live next).ledger = w.ledger := by
  rw [ledger_advance, hversion, hinstalled, hstage]
  simp only [World.ledger, Ledger.mk.injEq, true_and]
  exact Function.update_eq_self r fun q => (w.phase q).stage

/-- Losing a request only ever leaves its refresh unpaid. -/
theorem Coherent.lose {config : VhostConfig} {w : World} {r : ℕ} {next : Phase}
    (h : Coherent config w) (hnext : next.stage = .lost) (hfits : next.Fits config w.live) :
    Coherent config (w.advance r w.live next) := by
  refine ⟨h.known, fits_advance hfits h.fits, h.current, ?_⟩
  refine h.sound.step (e := .lose r) trivial ?_
  rw [ledger_advance, hnext]
  rfl

/-- **The effect lemma**: an effect that does not overtake keeps the invariant. -/
theorem Coherent.effect {config : VhostConfig} {w : World} {r : ℕ} {live : Live}
    {next : Phase} (h : Coherent config w)
    (hover : ∀ began snapshot destination, w.phase r = .swap began snapshot destination →
      w.live.installed ≤ began)
    (he : Effect config w.live (w.phase r) live next) :
    Coherent config (w.advance r live next) := by
  generalize hph : w.phase r = ph at he
  have hstage : w.ledger.stage r = ph.stage := congrArg Phase.stage hph
  cases he with
  | stay hquiet hnext hfits =>
      refine ⟨h.known, fits_advance hfits h.fits, h.current, ?_⟩
      rw [ledger_advance_same rfl rfl (hnext.trans (hstage.trans hquiet).symm)]
      exact h.sound
  | lose => exact h.lose rfl trivial
  | write db hquiet hnext hfits hdb =>
      refine ⟨hdb.known, fits_advance hfits fun q => (h.fits q).write hdb,
        fun hv => (h.current hv).trans hdb.derived.symm, ?_⟩
      have hsame : (w.advance r (w.live.write db) next).ledger = w.ledger :=
        ledger_advance_same rfl rfl (hnext.trans (hstage.trans hquiet).symm)
      rw [hsame]
      exact h.sound
  | commit db destination hquiet hseq hknown =>
      refine ⟨hknown, fits_advance trivial fun q =>
        (h.fits q).commit (h.sound.began_le q) hseq, ?_, ?_⟩
      · intro hv
        have := h.sound.installed_le
        change w.live.installed = w.live.version + 1 at hv
        change w.live.installed ≤ w.live.version at this
        omega
      · refine h.sound.step (e := .write r) trivial ?_
        rw [ledger_advance, Ledger.step, hstage, hquiet]
        rfl
  | readRoots destination =>
      refine ⟨h.known, fits_advance (fun _ => rfl) h.fits, h.current, ?_⟩
      refine h.sound.step (e := .begin r) trivial ?_
      rw [ledger_advance, Ledger.step, hstage]
      rfl
  | readBindings began roots destination =>
      have hroots : (Phase.bindings began roots destination).Fits config w.live := by
        rw [← hph]
        exact h.fits r
      refine ⟨h.known, fits_advance (fun hv => snapshotOf_congr (hroots hv) _) h.fits,
        h.current, ?_⟩
      have hsame : (w.advance r w.live (.swap began (snapshotOf config roots
          (loadHostBindings w.live.db)) destination)).ledger = w.ledger :=
        ledger_advance_same rfl rfl hstage.symm
      rw [hsame]
      exact h.sound
  | swap began snapshot destination answer =>
      have htaken : (Phase.swap began snapshot destination).Fits config w.live := by
        rw [← hph]
        exact h.fits r
      refine ⟨h.known, fits_advance trivial fun q => (h.fits q).install, htaken, ?_⟩
      refine h.sound.step (e := .install r) ?_ ?_
      · intro b hb
        rw [hstage] at hb
        cases hb
        exact hover began snapshot destination hph
      · rw [ledger_advance, Ledger.step, hstage]
        rfl

/-- A request that moves between quiet phases changes nothing. -/
theorem Coherent.quiet {config : VhostConfig} {w : World} {r : ℕ} {next : Phase}
    (h : Coherent config w) (hquiet : (w.phase r).stage = .quiet)
    (hnext : next.stage = .quiet) (hfits : next.Fits config w.live) :
    Coherent config (w.advance r w.live next) := by
  refine ⟨h.known, fits_advance hfits h.fits, h.current, ?_⟩
  rw [ledger_advance_same rfl rfl (hnext.trans hquiet.symm)]
  exact h.sound

/-- A failed refresh is lost; any other failure is quiet. -/
theorem failure_stage {config : VhostConfig} {s : Live} {ph next : Phase}
    (h : failure config ph = some next) :
    next.Fits config s ∧
      (next.stage = .lost ∨ ph.stage = .quiet ∧ next.stage = .quiet) := by
  cases ph <;> cases h
  case roots => exact ⟨trivial, .inl rfl⟩
  case bindings => exact ⟨trivial, .inl rfl⟩
  all_goals exact ⟨trivial, .inr ⟨rfl, rfl⟩⟩

/-- **The step lemma.** -/
theorem Coherent.step {config : VhostConfig} {w w' : World} {l : Label}
    (h : Coherent config w) (ho : Overtakes w l = false)
    (hs : step config w l = some w') : Coherent config w' := by
  cases l with
  | start r organization user goal =>
      simp only [Tenants.step] at hs
      split at hs
      · rename_i hidle
        cases hs
        exact h.quiet (by rw [hidle]; rfl) rfl trivial
      · cases hs
  | fail r =>
      obtain ⟨next, hf, rfl⟩ := Option.map_eq_some_iff.mp hs
      obtain ⟨hfits, hlost | ⟨hquiet, hnext⟩⟩ := failure_stage (s := w.live) hf
      · exact h.lose hlost hfits
      · exact h.quiet hquiet hnext hfits
  | drop r =>
      simp only [Tenants.step, Option.ite_none_right_eq_some, Option.some.injEq] at hs
      obtain ⟨_, rfl⟩ := hs
      exact h.lose rfl trivial
  | exec r now =>
      obtain ⟨⟨live, next⟩, hst, rfl⟩ := Option.map_eq_some_iff.mp hs
      refine h.effect ?_ (effect_statement h.known (h.fits r) hst)
      intro began snapshot destination hph
      simpa [Overtakes, hph] using ho

theorem coherent_boot (config : VhostConfig) (db : TenantDb) (h : KnownOwners db) :
    Coherent config (World.boot config db) :=
  ⟨h, fun _ => trivial, fun _ => rfl,
    { began_le := fun _ _ => nofun, installed_le := Nat.le_refl _, accounted := .inl rfl }⟩

/-! ## Runs -/

/-- **No routing update is lost** along a schedule in which no refresh swaps in
a snapshot read before the installed one: whenever all requests have finished,
the snapshot is the routing the database holds. -/
theorem routing_current (config : VhostConfig) (db : TenantDb) (labels : List Label)
    (hknown : KnownOwners db)
    (hordered : EachStep (step config) (fun w l => Overtakes w l = false)
      (World.boot config db) labels) :
    Throughout (step config)
      (fun w => Settled w → w.live.snapshot = derived config w.live.db)
      (World.boot config db) labels := by
  refine (throughout_of_eachStep (step config) (I := Coherent config)
    (fun _ _ _ h ho hs => h.step ho hs) (coherent_boot config db hknown) hordered).mono
    (step config) ?_
  intro w h hsettled
  exact h.current (h.sound.current_of_settled hsettled.ledger)

/-! ## Two writers -/

/-- Two tenants without host names; `ada` administers the CMS organization. -/
def twoTenants : TenantDb where
  users := { rows := [(1, ⟨"ada", "hash", .admin, 0, none⟩)]
             seq := 1, ids_nodup := by decide, ids_le_seq := by decide }
  organizations :=
    { rows := [(1, ⟨"main", "Main site", "public", 0⟩), (2, ⟨"cms", "CMS", "views", 0⟩),
        (3, ⟨"acme", "Acme", "sites/acme", 0⟩), (4, ⟨"shop", "Shop", "sites/shop", 0⟩)]
      seq := 4, ids_nodup := by decide, ids_le_seq := by decide }
  memberships := { rows := [⟨1, 2, .admin⟩], pk_nodup := by decide, role_check := by decide }
  domains := Constrained.empty
  pages := Constrained.empty
  menus := Constrained.empty
  media := Constrained.empty

theorem knownOwners_twoTenants : KnownOwners twoTenants := by
  intro i d hd
  cases hd

/-- Both requests commit; the first has read the bindings before the second's
commit, and swaps last. -/
def staleSwap : List Label :=
  [.start 0 "cms" 1 (.addDomain "acme" "acme.test"), .exec 0 0, .exec 0 0, .exec 0 0,
    .exec 0 0, .exec 0 0,
    .start 1 "cms" 1 (.addDomain "shop" "shop.test"), .exec 1 0, .exec 1 0, .exec 1 0,
    .exec 1 0, .exec 1 0, .exec 1 0, .exec 0 0]

/-- The same requests, the swaps in the order of their reads. -/
def orderedSwaps : List Label :=
  [.start 0 "cms" 1 (.addDomain "acme" "acme.test"), .exec 0 0, .exec 0 0, .exec 0 0,
    .exec 0 0, .exec 0 0,
    .start 1 "cms" 1 (.addDomain "shop" "shop.test"), .exec 1 0, .exec 1 0, .exec 1 0,
    .exec 1 0, .exec 1 0, .exec 0 0, .exec 1 0]

theorem settled_of_two {labels : List Label} {w : World}
    (hrun : run (step defaultConfig) (World.boot defaultConfig twoTenants) labels = some w)
    (hlabels : ∀ l ∈ labels, l.request < 2)
    (hdone : (w.phase 0).settled = true ∧ (w.phase 1).settled = true) : Settled w := by
  intro r
  match r with
  | 0 => exact hdone.1
  | 1 => exact hdone.2
  | r + 2 =>
      have hidle : w.phase (r + 2) = .idle := phase_run (fun l hl heq => by
        have := hlabels l hl
        omega) hrun
      rw [hidle]
      rfl

/-- All requests have succeeded, and the second one's host name is not routed. -/
theorem routing_update_lost : KnownOwners twoTenants ∧
    ¬ Throughout (step defaultConfig)
      (fun w => Settled w → w.live.snapshot = derived defaultConfig w.live.db)
      (World.boot defaultConfig twoTenants) staleSwap := by
  refine ⟨knownOwners_twoTenants, fun hall => ?_⟩
  have hrun : (run (step defaultConfig) (World.boot defaultConfig twoTenants)
      staleSwap).any (fun w => (w.phase 0).settled && (w.phase 1).settled &&
        w.live.snapshot.bindings.length != (derived defaultConfig w.live.db).bindings.length)
      = true := by
    decide +kernel
  obtain ⟨w, hw, hstale⟩ := (Option.any_eq_true _ _).mp hrun
  simp only [Bool.and_eq_true, bne_iff_ne] at hstale
  obtain ⟨hdone, hne⟩ := hstale
  have hsettled : Settled w := settled_of_two hw (by decide) hdone
  exact hne (by rw [hall _ w (List.prefix_refl _) hw hsettled])

theorem routing_current_ordered : EachStep (step defaultConfig)
      (fun w l => Overtakes w l = false) (World.boot defaultConfig twoTenants) orderedSwaps ∧
    Throughout (step defaultConfig)
      (fun w => Settled w → w.live.snapshot = derived defaultConfig w.live.db)
      (World.boot defaultConfig twoTenants) orderedSwaps := by
  have hordered : EachStep (step defaultConfig) (fun w l => Overtakes w l = false)
      (World.boot defaultConfig twoTenants) orderedSwaps := by
    have hcheck : checkEachStep (step defaultConfig) (fun w l => !Overtakes w l)
        (World.boot defaultConfig twoTenants) orderedSwaps = true := by
      decide +kernel
    simpa using eachStep_of_check (step defaultConfig) hcheck
  exact ⟨hordered, routing_current defaultConfig twoTenants orderedSwaps
    knownOwners_twoTenants hordered⟩

end Wallermax.Tenants
