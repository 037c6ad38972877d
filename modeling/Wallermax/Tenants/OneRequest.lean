import Wallermax.Tenants.Restart

/-!
# The host resolutions of one request

The middleware, the globals, the dispatcher, the guards and the handlers resolve
the request's host one after another, each from the snapshot that is live at
that moment, while the panel's requests swap snapshots. A snapshot's trees are
built from its own bindings, so the dispatcher always finds one; that the
readers agree takes snapshots that agree on the request's host.
-/

namespace Wallermax.Tenants

open Wallermax.Base
open Wallermax.Accounts
open Wallermax.Storage

/-! ## The readers -/

inductive Reader : Type where
  | middleware
  | globals
  | dispatcher
  | guard
  | handler
deriving DecidableEq

/-- The organization whose content a tree serves. -/
def Tree.organization : Tree → String
  | .tenant key _ => key
  | _ => cmsOrganizationKey

/-- The organization whose content the class stands for. -/
def HostClass.scope (c : HostClass) : String := c.organization.getD cmsOrganizationKey

/-- The organization a reader names; `none` where the dispatcher panics. -/
def Reader.resolve (snapshot : VhostSnapshot) (host : Option String) : Reader → Option String
  | .middleware => some (middlewareView snapshot host).2.scope
  | .dispatcher => (treeOf snapshot (classify host snapshot.bindings)).map Tree.organization
  | _ => some (organizationKey host snapshot.bindings)

/-- Of one built snapshot all readers name one organization. -/
theorem resolve_eq {snapshot : VhostSnapshot} (h : snapshot.Built) (host : Option String)
    (reader : Reader) :
    reader.resolve snapshot host = some (organizationKey host snapshot.bindings) := by
  cases reader with
  | dispatcher =>
      obtain ⟨tree, htree, htenant⟩ := treeOf_some h host
      rw [Reader.resolve, htree, Option.map_some, organizationKey]
      cases hclass : classify host snapshot.bindings with
      | tenant b =>
          obtain ⟨root, rfl⟩ := htenant b hclass
          rfl
      | _ =>
          rw [hclass] at htree
          cases htree
          rfl
  | _ => rfl

/-! ## The request among the panel's -/

/-- The server, and what the request's readers have named so far. -/
structure Serving : Type where
  world : World
  resolved : List (Reader × Option String)

inductive ServingStep : Type where
  | read (reader : Reader)
  | panel (l : Label)

def Serving.step (config : VhostConfig) (host : Option String) (s : Serving) :
    ServingStep → Option Serving
  | .read reader =>
      some { s with
        resolved := s.resolved ++ [(reader, reader.resolve s.world.live.snapshot host)] }
  | .panel l => (Tenants.step config s.world l).map fun w =>
      { s with
        world := w }

/-- The organization the live snapshot maps the request's host to. -/
def Serving.live (host : Option String) (s : Serving) : String :=
  organizationKey host s.world.live.snapshot.bindings

/-- All readers have named one organization. -/
def OneTenant (s : Serving) : Prop :=
  ∀ r ∈ s.resolved, ∀ q ∈ s.resolved, r.2 = q.2

/-- Every tenant the live bindings map has its tree, and no read has panicked. -/
def NoPanic (s : Serving) : Prop :=
  (∀ b ∈ s.world.live.snapshot.bindings, b.organization ≠ mainOrganizationKey →
    b.organization ≠ cmsOrganizationKey →
      ∃ root, (b.organization, root) ∈ s.world.live.snapshot.tenants) ∧
  ∀ r ∈ s.resolved, r.2.isSome = true

/-- A further read finds the host mapped as the reads before it did. -/
def ReadsAlike (host : Option String) (s : Serving) : ServingStep → Prop
  | .read _ => ∀ r ∈ s.resolved, r.2 = some (s.live host)
  | .panel _ => True

/-- After the first read, a swap keeps the organization of the request's host. -/
def KeepsTenant (host : Option String) (s : Serving) : ServingStep → Prop
  | .read _ => True
  | .panel (.exec r _) => s.resolved ≠ [] →
      ∀ began snapshot destination, s.world.phase r = .swap began snapshot destination →
        organizationKey host snapshot.bindings = s.live host
  | .panel _ => True

/-! ## The snapshots -/

/-- What the request carries to its swap is built. -/
def Phase.CarriesBuilt : Phase → Prop
  | .swap _ snapshot _ => snapshot.Built
  | _ => True

theorem carriesBuilt_of_quiet {ph : Phase} (h : ph.stage = .quiet) : ph.CarriesBuilt := by
  cases ph with
  | swap => cases h
  | _ => trivial

section Snapshots

variable {config : VhostConfig} {s s' : Live} {now : ℤ} {ph next : Phase}

theorem loaded_quiet (id : ℕ) (organization : Organization) (goal : Goal) :
    (goal.loaded config id organization).stage = .quiet := by
  cases goal with
  | updateTenant key name root =>
      simp only [Goal.loaded, updateForm]
      repeat' split
      all_goals rfl
  | deleteTenant key =>
      simp only [Goal.loaded]
      split <;> rfl
  | addDomain key hostname =>
      simp only [Goal.loaded, domainForm]
      repeat' split
      all_goals rfl
  | _ => rfl

/-- A statement leaves the snapshot alone, or swaps in the one its request
carries. -/
theorem snapshot_of_statement (h : statement config s now ph = some (s', next)) :
    next.CarriesBuilt ∧ (s'.snapshot = s.snapshot ∨
      ∃ began destination, ph = .swap began s'.snapshot destination) := by
  cases ph with
  | swap began snapshot destination =>
      cases h
      exact ⟨trivial, .inr ⟨began, destination, rfl⟩⟩
  | bindings began roots destination =>
      cases h
      exact ⟨built_snapshotOf config roots _, .inl rfl⟩
  | authorize organization user goal =>
      simp only [statement, Option.some.injEq, Prod.mk.injEq] at h
      obtain ⟨rfl, rfl⟩ := h
      refine ⟨carriesBuilt_of_quiet ?_, .inl rfl⟩
      split
      · exact (first_fits config s organization goal).1
      · rfl
  | load goal key =>
      simp only [statement] at h
      split at h
      · cases h
        exact ⟨trivial, .inl rfl⟩
      · cases h
        exact ⟨carriesBuilt_of_quiet (loaded_quiet _ _ goal), .inl rfl⟩
  | idle => cases h
  | answered answer => cases h
  | flagged destination => cases h
  | dropped => cases h
  | _ =>
      simp only [statement] at h
      repeat' split at h
      all_goals
        cases h
        exact ⟨trivial, .inl rfl⟩

end Snapshots

/-- The live snapshot is built, and so is every one on its way. -/
structure Installed (w : World) : Prop where
  live : w.live.snapshot.Built
  carried : ∀ r, (w.phase r).CarriesBuilt

section Installs

variable {config : VhostConfig} {w w' : World} {l : Label}

/-- A step keeps the live snapshot or is the swap of another. -/
theorem snapshot_of_step (hs : step config w l = some w') :
    w'.live.snapshot = w.live.snapshot ∨ ∃ r now began destination, l = .exec r now ∧
      w.phase r = .swap began w'.live.snapshot destination := by
  cases l with
  | start r organization user goal =>
      simp only [step] at hs
      split at hs
      · cases hs
        exact .inl rfl
      · cases hs
  | exec r now =>
      obtain ⟨⟨live, next⟩, hst, rfl⟩ := Option.map_eq_some_iff.mp hs
      rcases (snapshot_of_statement hst).2 with hsame | ⟨began, destination, hswap⟩
      · exact .inl hsame
      · exact .inr ⟨r, now, began, destination, rfl, hswap⟩
  | fail r =>
      obtain ⟨_, _, rfl⟩ := Option.map_eq_some_iff.mp hs
      exact .inl rfl
  | drop r =>
      simp only [step, Option.ite_none_right_eq_some, Option.some.injEq] at hs
      obtain ⟨_, rfl⟩ := hs
      exact .inl rfl

theorem carriesBuilt_of_step (hs : step config w l = some w') :
    (w'.phase l.request).CarriesBuilt := by
  cases l with
  | start r organization user goal =>
      simp only [step] at hs
      split at hs
      · cases hs
        rw [phase_advance, Label.request, if_pos rfl]
        trivial
      · cases hs
  | exec r now =>
      obtain ⟨⟨live, next⟩, hst, rfl⟩ := Option.map_eq_some_iff.mp hs
      rw [phase_advance, Label.request, if_pos rfl]
      exact (snapshot_of_statement hst).1
  | fail r =>
      obtain ⟨next, hf, rfl⟩ := Option.map_eq_some_iff.mp hs
      rw [phase_advance, Label.request, if_pos rfl]
      cases hph : w.phase r <;> rw [hph] at hf <;> cases hf <;> trivial
  | drop r =>
      simp only [step, Option.ite_none_right_eq_some, Option.some.injEq] at hs
      obtain ⟨_, rfl⟩ := hs
      rw [phase_advance, Label.request, if_pos rfl]
      trivial

/-- **Every installed snapshot is built.** -/
theorem Installed.step (h : Installed w) (hs : step config w l = some w') : Installed w' := by
  constructor
  · rcases snapshot_of_step hs with hsame | ⟨r, now, began, destination, rfl, hswap⟩
    · rw [hsame]
      exact h.live
    · have hcarried := h.carried r
      rw [hswap] at hcarried
      exact hcarried
  · intro q
    by_cases hq : q = l.request
    · rw [hq]
      exact carriesBuilt_of_step hs
    · rw [phase_step hq hs]
      exact h.carried q

theorem installed_boot (config : VhostConfig) (db : TenantDb) :
    Installed (World.boot config db) :=
  ⟨built_snapshotOf config _ _, fun _ => trivial⟩

end Installs

/-! ## Runs -/

section Runs

variable {config : VhostConfig} {host : Option String} {s t : Serving} {a : ServingStep}

theorem installed_serving (h : Installed s.world) (hs : s.step config host a = some t) :
    Installed t.world := by
  cases a with
  | read reader =>
      cases hs
      exact h
  | panel l =>
      obtain ⟨w, hw, rfl⟩ := Option.map_eq_some_iff.mp hs
      exact h.step hw

theorem noPanic_of_installed (h : Installed s.world) (hread : ∀ r ∈ s.resolved, r.2.isSome) :
    NoPanic s := by
  refine ⟨fun b hb hmain hcms => ?_, hread⟩
  obtain ⟨root, hroot⟩ := exists_tree hb hmain hcms
  exact ⟨root, by rwa [h.live]⟩

theorem noPanic_step (h : Installed s.world) (hno : NoPanic s)
    (hs : s.step config host a = some t) : NoPanic t := by
  refine noPanic_of_installed (installed_serving h hs) ?_
  cases a with
  | read reader =>
      cases hs
      intro r hr
      rcases List.mem_append.mp hr with hold | hnew
      · exact hno.2 r hold
      · obtain rfl := List.mem_singleton.mp hnew
        simp [resolve_eq h.live]
  | panel l =>
      obtain ⟨w, _, rfl⟩ := Option.map_eq_some_iff.mp hs
      exact hno.2

/-- **The step lemma**: agreement survives exactly the reads that find the host
mapped as before. -/
theorem oneTenant_step (h : Installed s.world) (hone : OneTenant s)
    (hs : s.step config host a = some t) : OneTenant t ↔ ReadsAlike host s a := by
  cases a with
  | panel l =>
      obtain ⟨w, _, rfl⟩ := Option.map_eq_some_iff.mp hs
      exact iff_of_true hone trivial
  | read reader =>
      cases hs
      have hnew : reader.resolve s.world.live.snapshot host = some (s.live host) :=
        resolve_eq h.live host reader
      simp only [OneTenant, ReadsAlike, List.mem_append, List.mem_singleton, hnew]
      constructor
      · intro hall r hr
        exact hall r (.inl hr) _ (.inr rfl)
      · rintro hall r (hr | rfl) q (hq | rfl)
        · exact hone r hr q hq
        · exact hall r hr
        · exact (hall q hq).symm
        · rfl

/-- Every read so far has named what the live snapshot says. -/
def Agreed (host : Option String) (s : Serving) : Prop :=
  ∀ r ∈ s.resolved, r.2 = some (s.live host)

theorem agreed_step (h : Installed s.world) (hagreed : Agreed host s)
    (hkeep : KeepsTenant host s a) (hs : s.step config host a = some t) : Agreed host t := by
  cases a with
  | read reader =>
      cases hs
      intro r hr
      rcases List.mem_append.mp hr with hold | hnew
      · exact hagreed r hold
      · obtain rfl := List.mem_singleton.mp hnew
        exact resolve_eq h.live host reader
  | panel l =>
      obtain ⟨w, hw, rfl⟩ := Option.map_eq_some_iff.mp hs
      intro r hr
      have hlive : organizationKey host w.live.snapshot.bindings = s.live host := by
        rcases snapshot_of_step hw with hsame | ⟨q, now, began, destination, rfl, hswap⟩
        · rw [hsame]
          rfl
        · exact hkeep (List.ne_nil_of_mem hr) _ _ _ hswap
      rw [hagreed r hr]
      exact congrArg some hlive.symm

end Runs

/-- **One request, one tenant**: the reads of a request name one organization
exactly when each finds its host mapped as those before it did, so whenever no
swap between them moves the host to another organization. The dispatcher finds
its tree in any case. -/
theorem one_request_one_tenant (config : VhostConfig) (db : TenantDb) (now : ℤ)
    (server : Server) (host : Option String) (steps : List ServingStep)
    (hboot : boot config db now = some server) :
    (Throughout (Serving.step config host) OneTenant ⟨server.world, []⟩ steps ↔
      EachStep (Serving.step config host) (ReadsAlike host) ⟨server.world, []⟩ steps) ∧
    (EachStep (Serving.step config host) (KeepsTenant host) ⟨server.world, []⟩ steps →
      Throughout (Serving.step config host) OneTenant ⟨server.world, []⟩ steps) ∧
    Throughout (Serving.step config host) NoPanic ⟨server.world, []⟩ steps := by
  have hfirst : Installed server.world := by
    rw [(boot_some hboot).2]
    exact installed_boot config _
  refine ⟨throughout_iff_eachStep (Serving.step config host) (I := fun s => Installed s.world)
    (fun _ _ _ h _ hs => installed_serving h hs) (fun _ _ _ h hone hs => oneTenant_step h hone hs)
    hfirst (by simp [OneTenant]), fun hkeeps => ?_, ?_⟩
  · refine (throughout_of_eachStep (Serving.step config host)
      (I := fun s => Installed s.world ∧ Agreed host s)
      (fun _ _ _ h hkeep hs => ⟨installed_serving h.1 hs, agreed_step h.1 h.2 hkeep hs⟩)
      ⟨hfirst, by simp [Agreed]⟩ hkeeps).mono (Serving.step config host) ?_
    intro s hs r hr q hq
    rw [hs.2 r hr, hs.2 q hq]
  · intro pre s _ hrun
    exact (run_invariant (Serving.step config host) (I := fun s => Installed s.world ∧ NoPanic s)
      (fun _ _ _ h hs => ⟨installed_serving h.1 hs, noPanic_step h.1 h.2 hs⟩)
      ⟨hfirst, noPanic_of_installed hfirst (by simp)⟩ hrun).2

/-! ## A host unmapped under a request -/

def acmeHost : Option String := some "acme.test"

/-- The administrator unmaps `acme.test`. -/
def unmapAcme : List Label :=
  [.start 1 "cms" 1 (.removeDomain "acme" "acme.test"), .exec 1 0, .exec 1 0, .exec 1 0,
    .exec 1 0, .exec 1 0, .exec 1 0]

/-- A request to `acme.test` comes to its handler's guard after the swap. -/
def unmappedUnder : List ServingStep :=
  mapAcme.map .panel ++ [.read .middleware, .read .globals, .read .dispatcher] ++
    unmapAcme.map .panel ++ [.read .guard]

/-- The acme tree serves, and the guard asks for a CMS membership. -/
theorem tenant_changes_under_request : ∃ server, boot splitConfig twoTenants 0 = some server ∧
    ¬ Throughout (Serving.step splitConfig acmeHost) OneTenant ⟨server.world, []⟩
      unmappedUnder := by
  have hstatic : splitConfig.static_enabled = true := rfl
  obtain ⟨server, hboot⟩ := exists_boot hstatic twoTenants 0
  refine ⟨server, hboot, fun hall => ?_⟩
  have hrun : (run (Serving.step splitConfig acmeHost)
      ⟨World.boot splitConfig (bootDb splitConfig twoTenants 0), []⟩ unmappedUnder).map
        Serving.resolved = some [(.middleware, some "acme"), (.globals, some "acme"),
          (.dispatcher, some "acme"), (.guard, some "cms")] := by
    decide +kernel
  rw [← (boot_some hboot).2] at hrun
  obtain ⟨s, hs, hresolved⟩ := Option.map_eq_some_iff.mp hrun
  have hone := hall _ s (List.prefix_refl _) hs
  rw [OneTenant, hresolved] at hone
  have hsame := hone (.dispatcher, some "acme") (by simp) (.guard, some "cms") (by simp)
  simp at hsame

theorem one_request_one_tenant_acme : ∃ server, boot splitConfig twoTenants 0 = some server ∧
    Throughout (Serving.step splitConfig acmeHost) OneTenant ⟨server.world, []⟩
      (unmappedUnder.take 10) := by
  have hstatic : splitConfig.static_enabled = true := rfl
  obtain ⟨server, hboot⟩ := exists_boot hstatic twoTenants 0
  refine ⟨server, hboot, (one_request_one_tenant splitConfig twoTenants 0 server acmeHost
    (unmappedUnder.take 10) hboot).1.mpr ?_⟩
  have hcheck : checkEachStep (Serving.step splitConfig acmeHost) (fun s a => match a with
      | .read _ => s.resolved.all fun r => r.2 == some (s.live acmeHost)
      | .panel _ => true)
      ⟨World.boot splitConfig (bootDb splitConfig twoTenants 0), []⟩
      (unmappedUnder.take 10) = true := by
    decide +kernel
  rw [(boot_some hboot).2]
  intro pre a s t hpre hrun hs
  have halike := eachStep_of_check _ hcheck pre a s t hpre hrun hs
  cases a with
  | read reader => simpa [ReadsAlike] using halike
  | panel l => trivial

end Wallermax.Tenants
