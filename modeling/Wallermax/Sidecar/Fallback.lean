import Wallermax.Sidecar.Backoff

/-!
# What the `auto` backend answers, and when it trusts its sidecar

A render answers with the outcome of the last call it made, which is never a transport
failure: those go to the embedded engine. `healthy` is cleared by every transport
failure, also by one of a sidecar that a respawn has replaced; `Prompt` says when such a
late failure does no harm, and the run at the end is one where it does.
-/

namespace Wallermax.Sidecar.Auto

open Wallermax.Base

variable {ε ρ : Type} {s s' : State ε ρ}

/-! ## What is promised -/

/-- The result of a render, by the calls it made: the sidecar's unless that failed to
answer, and the embedded engine's otherwise. -/
inductive Answered : List (Call ε ρ) → Except (JhsError ε) ρ → Prop where
  | rendered (sidecar : SidecarId) (value : ρ) :
    Answered [.sidecar sidecar (.ok value)] (.ok value)
  | broken (sidecar : SidecarId) (error : ε) :
    Answered [.sidecar sidecar (.error (.template error))] (.error (.template error))
  | embedded (outcome : Except ε ρ) : Answered [.boa outcome] (outcome.mapError .template)
  | fallback (sidecar : SidecarId) (message : String) (outcome : Except ε ρ) :
    Answered [.sidecar sidecar (.error (.sidecar message)), .boa outcome]
      (outcome.mapError .template)

/-- A render is about to mark the renderer healthy. -/
def Pc.Reviving : Pc ε ρ → Prop
  | .revive _ | .recovered _ => True
  | _ => False

def Reviving (s : State ε ρ) (r : RenderId) : Prop :=
  ∃ render, s.renders r = some render ∧ render.pc.Reviving

/-- The renderer is left unhealthy, on the word of a sidecar that was swapped out, for a
generation that is already being served. -/
structure LeftUnhealthy (s : State ε ρ) : Prop where
  unhealthy : s.healthy = false
  served : s.last_generation = s.generation
  bumped : ∀ j, s.respawns j ≠ some .bump
  no_revival : ∀ r, ¬ Reviving s r
  late : s.blamed ≠ s.current

structure Promised (s : State ε ρ) : Prop where
  answered : ∀ r render result, s.renders r = some render → render.pc = .done result →
    Answered render.calls result ∧ ∀ message, result ≠ .error (.sidecar message)
  one_spawn : OneSpawn s
  spaced : Spaced s
  trusted : ¬ LeftUnhealthy s

/-- A transport failure is taken note of while its sidecar is the current one, or before
the generation that replaced it is served for good. -/
def Prompt (s : State ε ρ) : Event ε ρ → Prop
  | .advance r => ∀ render sidecar, s.renders r = some render → render.pc = .failing sidecar →
    sidecar = s.current ∨ s.last_generation ≠ s.generation ∨
      (∃ j, s.respawns j = some .bump) ∨ ∃ r', Reviving s r'
  | _ => True

/-! ## The answers -/

/-- What a render has called so far, by where it is. -/
def Progress : Pc ε ρ → List (Call ε ρ) → Prop
  | .done result, calls => Answered calls result
  | .failing sidecar, calls => ∃ message, calls = [.sidecar sidecar (.error (.sidecar message))]
  | .request, calls | .claim, calls | .release, calls | .boa, calls =>
    calls = [] ∨ ∃ sidecar message, calls = [.sidecar sidecar (.error (.sidecar message))]
  | _, calls => calls = []

def Progressing (s : State ε ρ) : Prop :=
  ∀ r render, s.renders r = some render → Progress render.pc render.calls

theorem Answered.not_transport {calls : List (Call ε ρ)} {result : Except (JhsError ε) ρ}
    (h : Answered calls result) (message : String) : result ≠ .error (.sidecar message) := by
  intro hresult
  cases h with
  | rendered => cases hresult
  | broken => cases hresult
  | embedded outcome => cases outcome <;> cases hresult
  | fallback _ _ outcome => cases outcome <;> cases hresult

theorem Progressing.update (h : Progressing s) {r : RenderId} {pc : Pc ε ρ}
    {calls : List (Call ε ρ)}
    (hrenders : s'.renders = Function.update s.renders r (some ⟨pc, calls⟩))
    (hpc : Progress pc calls) : Progressing s' := by
  intro r' render hr'
  rw [hrenders] at hr'
  by_cases hr : r' = r
  · subst hr
    rw [Function.update_self] at hr'
    cases hr'
    exact hpc
  · rw [Function.update_of_ne hr] at hr'
    exact h r' render hr'

theorem Progressing.congr (h : Progressing s) (hrenders : s'.renders = s.renders) :
    Progressing s' := by
  rw [Progressing, hrenders]
  exact h

theorem progressing_advance {r : RenderId} {render : Render ε ρ} (h : Progressing s)
    (hrender : s.renders r = some render) (hs : advance s r render = some s') :
    Progressing s' := by
  have hprogress := h r render hrender
  obtain ⟨pc, calls⟩ := render
  cases pc with
  | head rounds => cases hs; exact h.update rfl hprogress
  | compare rounds generation =>
      simp only [advance] at hs
      split at hs
      all_goals
        cases hs
        exact h.update rfl hprogress
  | revive rounds => cases hs; exact h.update rfl hprogress
  | check rounds =>
      cases hs
      refine h.update rfl ?_
      split
      all_goals exact hprogress
  | pick rounds => cases hs; exact h.update rfl hprogress
  | calling rounds sidecar => cases hs
  | failing sidecar =>
      cases hs
      obtain ⟨message, hcalls⟩ := hprogress
      exact h.update rfl (.inr ⟨sidecar, message, hcalls⟩)
  | unhealthy rounds =>
      simp only [advance] at hs
      split at hs
      · cases hs
        exact h.update rfl hprogress
      · cases hs
        exact h.update rfl (.inl hprogress)
  | probe rounds => cases hs; exact h.update rfl hprogress
  | probing rounds sidecar => cases hs
  | recovered rounds =>
      cases hs
      refine h.update rfl ?_
      cases rounds with
      | zero => exact .inl hprogress
      | succ rounds => exact hprogress
  | request =>
      simp only [advance] at hs
      split at hs
      all_goals
        cases hs
        exact h.update rfl hprogress
  | claim =>
      simp only [advance] at hs
      split at hs
      all_goals
        cases hs
        exact h.update rfl hprogress
  | release => cases hs; exact h.update rfl hprogress
  | boa => cases hs
  | done result => cases hs

theorem progressing_step (s : State ε ρ) (e : Event ε ρ) (s' : State ε ρ) (h : Progressing s)
    (hs : step s e = some s') : Progressing s' := by
  cases e with
  | tick elapsed => cases hs; exact h.congr rfl
  | start r =>
      simp only [step] at hs
      split at hs
      · cases hs
      · cases hs
        exact h.update rfl rfl
  | advance r =>
      simp only [step] at hs
      split at hs
      · cases hs
      · rename_i render hrender
        exact progressing_advance h hrender hs
  | sidecarAnswers r outcome =>
      simp only [step] at hs
      split at hs
      · rename_i rounds sidecar calls hrender
        obtain rfl : calls = [] := h r _ hrender
        cases hs
        refine h.update rfl ?_
        cases outcome with
        | ok value => exact .rendered sidecar value
        | error error =>
            cases error with
            | sidecar message => exact ⟨message, rfl⟩
            | template error => exact .broken sidecar error
      · cases hs
  | probeAnswers r ok =>
      simp only [step] at hs
      split at hs
      · rename_i rounds sidecar calls hrender
        have hcalls : calls = [] := h r _ hrender
        cases hs
        refine h.update rfl ?_
        cases ok with
        | true => exact hcalls
        | false => exact .inl hcalls
      · cases hs
  | boaAnswers r outcome =>
      simp only [step] at hs
      split at hs
      · rename_i calls hrender
        have hcalls : Progress .boa calls := h r _ hrender
        cases hs
        refine h.update rfl ?_
        rcases hcalls with rfl | ⟨sidecar, message, rfl⟩
        · exact .embedded outcome
        · exact .fallback sidecar message outcome
      · cases hs
  | spawnEnds j ok =>
      simp only [step] at hs
      split at hs
      · cases hs
        exact h.congr rfl
      · cases hs
  | advanceRespawn j =>
      simp only [step] at hs
      split at hs
      · cases hs
      · rename_i respawn _
        cases respawn <;> cases hs
        all_goals exact h.congr rfl

/-! ## The trust -/

/-- A transport failure was just seen. -/
def Pc.Failing : Pc ε ρ → Prop
  | .failing _ => True
  | _ => False

/-- The generation that was loaded, if one was, is none to come. -/
def Pc.Loaded (generation : ℕ) : Pc ε ρ → Prop
  | .compare _ loaded => loaded ≤ generation
  | _ => True

/-- Nothing is recorded of a generation that is still to come, nor of a spawn. -/
structure Served (s : State ε ρ) : Prop where
  unrequested : ∀ j, s.requests ≤ j → s.respawns j = none
  last : s.last_generation ≤ s.generation
  loaded : ∀ r render, s.renders r = some render → render.pc.Loaded s.generation

section Trust

variable {r : RenderId} {render : Render ε ρ} {pc : Pc ε ρ} {calls : List (Call ε ρ)}

/-- A render that moves at neither end of a revival revives no more and no less. -/
theorem reviving_update (hrender : s.renders r = some render) (hold : ¬ render.pc.Reviving)
    (hrenders : s'.renders = Function.update s.renders r (some ⟨pc, calls⟩)) {r' : RenderId}
    (h : Reviving s r') : Reviving s' r' := by
  obtain ⟨found, hfound, hreviving⟩ := h
  refine ⟨found, ?_, hreviving⟩
  rw [hrenders]
  by_cases hr : r' = r
  · subst hr
    cases hrender.symm.trans hfound
    exact absurd hreviving hold
  · rw [Function.update_of_ne hr]
    exact hfound

theorem reviving_self (hrenders : s'.renders = Function.update s.renders r (some ⟨pc, calls⟩))
    (h : pc.Reviving) : Reviving s' r :=
  ⟨⟨pc, calls⟩, by rw [hrenders, Function.update_self], h⟩

/-- A step that leaves the trust as it is. -/
theorem LeftUnhealthy.back (h : LeftUnhealthy s') (hhealthy : s'.healthy = s.healthy)
    (hlast : s'.last_generation = s.last_generation) (hgeneration : s'.generation = s.generation)
    (hblamed : s'.blamed = s.blamed) (hcurrent : s'.current = s.current)
    (hrespawns : ∀ j, s.respawns j = some .bump → s'.respawns j = some .bump)
    (hrevival : ∀ r, Reviving s r → Reviving s' r) : LeftUnhealthy s where
  unhealthy := hhealthy ▸ h.unhealthy
  served := by rw [← hlast, ← hgeneration]; exact h.served
  bumped j hj := h.bumped j (hrespawns j hj)
  no_revival r hr := h.no_revival r (hrevival r hr)
  late := by rw [← hblamed, ← hcurrent]; exact h.late

theorem served_update (h : Served s)
    (hrenders : s'.renders = Function.update s.renders r (some ⟨pc, calls⟩))
    (hrespawns : ∀ j, s'.requests ≤ j → s'.respawns j = none)
    (hgeneration : s'.generation = s.generation) (hlast : s'.last_generation ≤ s.generation)
    (hpc : pc.Loaded s.generation) : Served s' where
  unrequested := hrespawns
  last := hgeneration ▸ hlast
  loaded r' found hfound := by
    rw [hgeneration]
    rw [hrenders] at hfound
    by_cases hr : r' = r
    · subst hr
      rw [Function.update_self] at hfound
      cases hfound
      exact hpc
    · rw [Function.update_of_ne hr] at hfound
      exact h.loaded r' found hfound

/-- **What a render does to the trust**: it ends it exactly by a failure that comes late. -/
theorem trust_advance (hI : Served s) (h : ¬ LeftUnhealthy s) (hrender : s.renders r = some render)
    (hs : advance s r render = some s') : LeftUnhealthy s' ↔ ¬ Prompt s (.advance r) := by
  have hnotFailing : ¬ render.pc.Failing → Prompt s (.advance r) := by
    intro hne found sidecar hfound hfailing
    cases hrender.symm.trans hfound
    rw [hfailing] at hne
    exact absurd trivial hne
  -- the steps that move one render and nothing the trust looks at
  have hmove : ∀ {pc : Pc ε ρ} {calls}, ¬ render.pc.Reviving →
      ¬ render.pc.Failing →
      s'.renders = Function.update s.renders r (some ⟨pc, calls⟩) → s'.healthy = s.healthy →
      s'.last_generation = s.last_generation → s'.generation = s.generation →
      s'.blamed = s.blamed → s'.current = s.current →
      (∀ j, s.respawns j = some .bump → s'.respawns j = some .bump) →
      (LeftUnhealthy s' ↔ ¬ Prompt s (.advance r)) := by
    intro pc calls hold hfailing hrenders hhealthy hlast hgeneration hblamed hcurrent hrespawns
    refine iff_of_false (fun hleft => h ?_) (fun hnot => hnot (hnotFailing hfailing))
    exact hleft.back hhealthy hlast hgeneration hblamed hcurrent hrespawns fun _ =>
      reviving_update hrender hold hrenders
  obtain ⟨pc, calls⟩ := render
  cases pc with
  | head rounds =>
      cases hs
      exact hmove id id rfl rfl rfl rfl rfl rfl fun _ hj => hj
  | compare rounds generation =>
      simp only [advance] at hs
      split at hs
      · cases hs
        exact hmove id id rfl rfl rfl rfl rfl rfl fun _ hj => hj
      · cases hs
        refine iff_of_false (fun hleft => ?_) fun hnot => hnot (hnotFailing id)
        exact hleft.no_revival r (reviving_self (s := s) rfl trivial)
  | revive rounds =>
      cases hs
      refine iff_of_false (fun hleft => ?_) fun hnot => hnot (hnotFailing id)
      cases hleft.unhealthy
  | check rounds =>
      cases hs
      exact hmove id id rfl rfl rfl rfl rfl rfl fun _ hj => hj
  | pick rounds =>
      cases hs
      exact hmove id id rfl rfl rfl rfl rfl rfl fun _ hj => hj
  | calling rounds sidecar => cases hs
  | failing sidecar =>
      cases hs
      have hrevival : ∀ r', Reviving ({ s with healthy := false, blamed := sidecar }.setPc r
          ⟨.failing sidecar, calls⟩ .request) r' ↔ Reviving s r' := by
        intro r'
        refine ⟨fun hreviving => ?_, reviving_update hrender id rfl⟩
        obtain ⟨found, hfound, hpc⟩ := hreviving
        by_cases hr : r' = r
        · subst hr
          rw [renders_setPc_self] at hfound
          cases hfound
          exact hpc.elim
        · rw [renders_setPc_of_ne hr] at hfound
          exact ⟨found, hfound, hpc⟩
      constructor
      · rintro hleft hprompt
        rcases hprompt _ sidecar hrender rfl with hcurrent | hlast | ⟨j, hj⟩ | ⟨r', hr'⟩
        · exact hleft.late hcurrent
        · exact hlast hleft.served
        · exact hleft.bumped j hj
        · exact hleft.no_revival r' ((hrevival r').mpr hr')
      · intro hlate
        simp only [Prompt, not_forall, not_or, not_exists, ne_eq, not_not] at hlate
        obtain ⟨found, sidecar', hfound, hfailing, hcurrent, hserved, hbump, hrevive⟩ := hlate
        cases hrender.symm.trans hfound
        cases hfailing
        exact ⟨rfl, hserved, hbump, fun r' hr' => hrevive r' ((hrevival r').mp hr'), hcurrent⟩
  | unhealthy rounds =>
      simp only [advance] at hs
      split at hs
      all_goals
        cases hs
        exact hmove id id rfl rfl rfl rfl rfl rfl fun _ hj => hj
  | probe rounds =>
      cases hs
      exact hmove id id rfl rfl rfl rfl rfl rfl fun _ hj => hj
  | probing rounds sidecar => cases hs
  | recovered rounds =>
      cases hs
      refine iff_of_false (fun hleft => ?_) fun hnot => hnot (hnotFailing id)
      cases hleft.unhealthy
  | request =>
      simp only [advance] at hs
      split at hs
      all_goals
        cases hs
        exact hmove id id rfl rfl rfl rfl rfl rfl fun _ hj => hj
  | claim =>
      simp only [advance] at hs
      split at hs
      · cases hs
        exact hmove id id rfl rfl rfl rfl rfl rfl fun _ hj => hj
      · cases hs
        refine hmove id id rfl rfl rfl rfl rfl rfl fun j hj => ?_
        by_cases hnew : j = s.requests
        · subst hnew
          cases (hI.unrequested _ (Nat.le_refl _)).symm.trans hj
        · exact (Function.update_of_ne hnew ..).trans hj
  | release =>
      cases hs
      exact hmove id id rfl rfl rfl rfl rfl rfl fun _ hj => hj
  | boa => cases hs
  | done result => cases hs

theorem served_advance (h : Served s) (hrender : s.renders r = some render)
    (hs : advance s r render = some s') : Served s' := by
  obtain ⟨pc, calls⟩ := render
  cases pc with
  | head rounds =>
      cases hs
      exact served_update h rfl h.unrequested rfl h.last (Nat.le_refl s.generation)
  | compare rounds generation =>
      simp only [advance] at hs
      split at hs
      · cases hs
        exact served_update h rfl h.unrequested rfl h.last trivial
      · cases hs
        exact served_update h rfl h.unrequested rfl (h.loaded r _ hrender) trivial
  | revive rounds => cases hs; exact served_update h rfl h.unrequested rfl h.last trivial
  | check rounds =>
      cases hs
      refine served_update h rfl h.unrequested rfl h.last ?_
      split
      all_goals exact trivial
  | pick rounds => cases hs; exact served_update h rfl h.unrequested rfl h.last trivial
  | calling rounds sidecar => cases hs
  | failing sidecar => cases hs; exact served_update h rfl h.unrequested rfl h.last trivial
  | unhealthy rounds =>
      simp only [advance] at hs
      split at hs
      all_goals
        cases hs
        exact served_update h rfl h.unrequested rfl h.last trivial
  | probe rounds => cases hs; exact served_update h rfl h.unrequested rfl h.last trivial
  | probing rounds sidecar => cases hs
  | recovered rounds =>
      cases hs
      refine served_update h rfl h.unrequested rfl h.last ?_
      cases rounds
      all_goals exact trivial
  | request =>
      simp only [advance] at hs
      split at hs
      all_goals
        cases hs
        exact served_update h rfl h.unrequested rfl h.last trivial
  | claim =>
      simp only [advance] at hs
      split at hs
      · cases hs
        exact served_update h rfl h.unrequested rfl h.last trivial
      · cases hs
        refine served_update h rfl (fun j hj => ?_) rfl h.last trivial
        replace hj : s.requests + 1 ≤ j := hj
        exact (Function.update_of_ne (by omega) ..).trans (h.unrequested j (by omega))
  | release => cases hs; exact served_update h rfl h.unrequested rfl h.last trivial
  | boa => cases hs
  | done result => cases hs

end Trust

/-- A respawn thread that moves is one that was requested. -/
theorem served_respawn (h : Served s) {j : ℕ} {respawn : Respawn} {after : Option Respawn}
    (hj : s.respawns j = some respawn)
    (hrespawns : s'.respawns = Function.update s.respawns j after)
    (hrequests : s'.requests = s.requests) (hrenders : s'.renders = s.renders)
    (hlast : s'.last_generation = s.last_generation) (hgeneration : s.generation ≤ s'.generation) :
    Served s' where
  unrequested i hi := by
    rw [hrequests] at hi
    have hij : i ≠ j := by
      rintro rfl
      cases (h.unrequested i hi).symm.trans hj
    rw [hrespawns, Function.update_of_ne hij]
    exact h.unrequested i hi
  last := by rw [hlast]; exact h.last.trans hgeneration
  loaded r render hrender := by
    have hloaded := h.loaded r render (hrenders ▸ hrender)
    obtain ⟨pc, calls⟩ := render
    cases pc with
    | compare rounds loaded => exact Nat.le_trans hloaded hgeneration
    | _ => trivial

theorem served_step (s : State ε ρ) (e : Event ε ρ) (s' : State ε ρ) (h : Served s)
    (hs : step s e = some s') : Served s' := by
  cases e with
  | tick elapsed => cases hs; exact ⟨h.unrequested, h.last, h.loaded⟩
  | start r =>
      simp only [step] at hs
      split at hs
      · cases hs
      · cases hs
        exact served_update h rfl h.unrequested rfl h.last trivial
  | advance r =>
      simp only [step] at hs
      split at hs
      · cases hs
      · rename_i render hrender
        exact served_advance h hrender hs
  | sidecarAnswers r outcome =>
      simp only [step] at hs
      split at hs
      · cases hs
        refine served_update h rfl h.unrequested rfl h.last ?_
        split
        all_goals exact trivial
      · cases hs
  | probeAnswers r ok =>
      simp only [step] at hs
      split at hs
      · cases hs
        refine served_update h rfl h.unrequested rfl h.last ?_
        split
        all_goals exact trivial
      · cases hs
  | boaAnswers r outcome =>
      simp only [step] at hs
      split at hs
      · cases hs
        exact served_update h rfl h.unrequested rfl h.last trivial
      · cases hs
  | spawnEnds j ok =>
      simp only [step] at hs
      split at hs
      · rename_i hj
        cases hs
        exact served_respawn h hj rfl rfl rfl rfl (Nat.le_refl _)
      · cases hs
  | advanceRespawn j =>
      simp only [step] at hs
      split at hs
      · cases hs
      · rename_i respawn hj
        cases respawn with
        | spawning => cases hs
        | bump => cases hs; exact served_respawn h hj rfl rfl rfl rfl (Nat.le_succ _)
        | _ => cases hs; exact served_respawn h hj rfl rfl rfl rfl (Nat.le_refl _)

/-- A respawn thread never ends the trust: from the swap to the bump the generation is
about to change, and from then on it has. -/
theorem trust_respawn (hI : Served s) (h : ¬ LeftUnhealthy s) {j : ℕ} {respawn : Respawn}
    (hj : s.respawns j = some respawn) (hs : advanceRespawn s j respawn = some s') :
    ¬ LeftUnhealthy s' := by
  have hmove : ∀ {after : Option Respawn}, respawn ≠ .bump →
      s'.respawns = Function.update s.respawns j after → s'.healthy = s.healthy →
      s'.last_generation = s.last_generation → s'.generation = s.generation →
      s'.blamed = s.blamed → s'.current = s.current → s'.renders = s.renders →
      ¬ LeftUnhealthy s' := by
    intro after hne hrespawns hhealthy hlast hgeneration hblamed hcurrent hrenders hleft
    refine h (hleft.back hhealthy hlast hgeneration hblamed hcurrent (fun i hi => ?_) ?_)
    · have hij : i ≠ j := by
        rintro rfl
        cases hj.symm.trans hi
        exact hne rfl
      rw [hrespawns, Function.update_of_ne hij]
      exact hi
    · intro r hr
      rw [Reviving, hrenders]
      exact hr
  cases respawn with
  | spawning => cases hs
  | resetFailures => cases hs; exact hmove (by decide) rfl rfl rfl rfl rfl rfl rfl
  | resetNext => cases hs; exact hmove (by decide) rfl rfl rfl rfl rfl rfl rfl
  | swap =>
      cases hs
      intro hleft
      exact hleft.bumped j (Function.update_self ..)
  | bump =>
      cases hs
      intro hleft
      have hserved : s.last_generation = s.generation + 1 := hleft.served
      have := hI.last
      omega
  | countFailure => cases hs; exact hmove (by decide) rfl rfl rfl rfl rfl rfl rfl
  | release => cases hs; exact hmove (by decide) rfl rfl rfl rfl rfl rfl rfl

/-- **What one step does to the trust.** -/
theorem trust_step (s : State ε ρ) (e : Event ε ρ) (s' : State ε ρ) (hI : Served s)
    (h : ¬ LeftUnhealthy s) (hs : step s e = some s') : ¬ LeftUnhealthy s' ↔ Prompt s e := by
  have hrender : ∀ {r : RenderId} {render : Render ε ρ} {pc : Pc ε ρ} {calls},
      s.renders r = some render → ¬ render.pc.Reviving →
      s' = { s with renders := Function.update s.renders r (some ⟨pc, calls⟩) } →
      ¬ LeftUnhealthy s' := by
    rintro r render pc calls hrender hold rfl hleft
    exact h (hleft.back rfl rfl rfl rfl rfl (fun _ hj => hj) fun _ =>
      reviving_update hrender hold rfl)
  cases e with
  | tick elapsed =>
      cases hs
      refine iff_of_true (fun hleft => h ?_) trivial
      exact hleft.back rfl rfl rfl rfl rfl (fun _ hj => hj) fun _ hr => hr
  | start r =>
      simp only [step] at hs
      split at hs
      · cases hs
      · rename_i hnone
        cases hs
        refine iff_of_true (fun hleft => h ?_) trivial
        refine hleft.back rfl rfl rfl rfl rfl (fun _ hj => hj) fun r' hr' => ?_
        obtain ⟨found, hfound, hreviving⟩ := hr'
        refine ⟨found, ?_, hreviving⟩
        show Function.update s.renders r _ r' = _
        by_cases hr : r' = r
        · subst hr
          cases hnone.symm.trans hfound
        · rw [Function.update_of_ne hr]
          exact hfound
  | advance r =>
      simp only [step] at hs
      split at hs
      · cases hs
      · rename_i render hrender
        exact (not_congr (trust_advance hI h hrender hs)).trans not_not
  | sidecarAnswers r outcome =>
      simp only [step] at hs
      split at hs
      · rename_i hfound
        exact iff_of_true (hrender hfound id (Option.some.inj hs).symm) trivial
      · cases hs
  | probeAnswers r ok =>
      simp only [step] at hs
      split at hs
      · rename_i hfound
        exact iff_of_true (hrender hfound id (Option.some.inj hs).symm) trivial
      · cases hs
  | boaAnswers r outcome =>
      simp only [step] at hs
      split at hs
      · rename_i hfound
        exact iff_of_true (hrender hfound id (Option.some.inj hs).symm) trivial
      · cases hs
  | spawnEnds j ok =>
      simp only [step] at hs
      split at hs
      · rename_i hj
        cases hs
        refine iff_of_true (fun hleft => h ?_) trivial
        refine hleft.back rfl rfl rfl rfl rfl (fun i hi => ?_) fun _ hr => hr
        have hij : i ≠ j := by
          rintro rfl
          cases hj.symm.trans hi
        exact (Function.update_of_ne hij ..).trans hi
      · cases hs
  | advanceRespawn j =>
      simp only [step] at hs
      split at hs
      · cases hs
      · rename_i respawn hj
        exact iff_of_true (trust_respawn hI h hj hs) trivial

/-! ## In every run -/

theorem progressing_initial (ε ρ : Type) (now : Instant) :
    Progressing (State.initial ε ρ now) := fun _ _ hrender => by cases hrender

theorem served_initial (ε ρ : Type) (now : Instant) : Served (State.initial ε ρ now) where
  unrequested _ _ := rfl
  last := Nat.le_refl _
  loaded _ _ hrender := by cases hrender

theorem trusted_initial (ε ρ : Type) (now : Instant) :
    ¬ LeftUnhealthy (State.initial ε ρ now) := fun h => Bool.noConfusion h.unhealthy

/-- The renderer is left unhealthy for a generation it serves exactly by a late failure. -/
theorem trusted_iff_prompt (ε ρ : Type) (now : Instant) (events : List (Event ε ρ)) :
    Throughout step (fun s => ¬ LeftUnhealthy s) (State.initial ε ρ now) events ↔
      EachStep step Prompt (State.initial ε ρ now) events :=
  throughout_iff_eachStep step (I := Served)
    (fun s e s' hI _ hs => served_step s e s' hI hs)
    (fun s e s' hI h hs => trust_step s e s' hI h hs)
    (served_initial ε ρ now) (trusted_initial ε ρ now)

/-- No transport failure is late and the counter of failures does not wrap around. -/
def Timely (s : State ε ρ) (e : Event ε ρ) : Prop := Prompt s e ∧ NoWrap s e

/-- **The `auto` backend.** In every run whose steps are all timely, a render never answers a
transport failure, the supervisor has one spawn in flight at most and backs off, and no
failure of a replaced sidecar leaves the renderer unhealthy. -/
theorem auto_promised (ε ρ : Type) (now : Instant) (events : List (Event ε ρ))
    (h : EachStep step Timely (State.initial ε ρ now) events) :
    Throughout step Promised (State.initial ε ρ now) events := by
  have hkeep : ∀ (s : State ε ρ) e s',
      (Progressing s ∧ (Locked s ∧ Paced s) ∧ Served s ∧ ¬ LeftUnhealthy s) → Timely s e →
        step s e = some s' →
          Progressing s' ∧ (Locked s' ∧ Paced s') ∧ Served s' ∧ ¬ LeftUnhealthy s' := by
    rintro s e s' ⟨hprogress, hsupervised, hserved, htrust⟩ ⟨hprompt, hwrap⟩ hs
    exact ⟨progressing_step s e s' hprogress hs, supervised_step s e s' hsupervised hwrap hs,
      served_step s e s' hserved hs, (trust_step s e s' hserved htrust hs).mpr hprompt⟩
  refine (throughout_of_eachStep step hkeep ⟨progressing_initial ε ρ now,
    supervised_initial ε ρ now, served_initial ε ρ now, trusted_initial ε ρ now⟩ h).mono step ?_
  rintro s ⟨hprogress, ⟨hlocked, hpaced⟩, -, htrust⟩
  refine ⟨?_, hlocked.promise, hpaced.promise, htrust⟩
  rintro r ⟨pc, calls⟩ result hrender rfl
  have hanswered : Answered calls result := hprogress r _ hrender
  exact ⟨hanswered, hanswered.not_transport⟩

def timelyCheck (s : State ε ρ) : Event ε ρ → Bool
  | .advance r =>
    match s.renders r with
    | some ⟨.failing sidecar, _⟩ => sidecar == s.current || s.last_generation != s.generation
    | _ => true
  | .advanceRespawn j =>
    decide (s.respawns j = some .countFailure → s.failures + 1 < 0x100000000)
  | _ => true

theorem timely_of_check {e : Event ε ρ} (h : timelyCheck s e = true) : Timely s e := by
  cases e with
  | advance r =>
      refine ⟨?_, trivial⟩
      rintro ⟨pc, calls⟩ sidecar hrender rfl
      simp only [timelyCheck, hrender, Bool.or_eq_true, beq_iff_eq, bne_iff_ne] at h
      rcases h with hcurrent | hlast
      · exact .inl hcurrent
      · exact .inr (.inl hlast)
  | advanceRespawn j =>
      have hwrap : s.respawns j = some .countFailure → s.failures + 1 < 0x100000000 :=
        of_decide_eq_true h
      exact ⟨trivial, hwrap⟩
  | _ => exact ⟨trivial, trivial⟩

/-- A render finds the sidecar dead and falls back; the respawn fails, is tried again when
the backoff is over, and the next render runs on the new sidecar. -/
def crashRun : List (Event Unit Unit) :=
  [.start 1, .advance 1, .advance 1, .advance 1, .advance 1,
    .sidecarAnswers 1 (.error (.sidecar "connection refused")), .advance 1, .advance 1, .advance 1,
    .boaAnswers 1 (.ok ()), .spawnEnds 0 false, .advanceRespawn 0, .advanceRespawn 0,
    .tick (fromSecs 10), .start 2, .advance 2, .advance 2, .advance 2, .advance 2, .advance 2,
    .probeAnswers 2 false, .advance 2, .advance 2, .boaAnswers 2 (.ok ()), .spawnEnds 1 true,
    .advanceRespawn 1, .advanceRespawn 1, .advanceRespawn 1, .advanceRespawn 1, .advanceRespawn 1,
    .start 3, .advance 3, .advance 3, .advance 3, .advance 3, .advance 3,
    .sidecarAnswers 3 (.error (.template ()))]

theorem auto_promised_crash : Throughout step Promised (State.initial Unit Unit 0) crashRun :=
  auto_promised Unit Unit 0 crashRun fun pre e s s' hpre hrun hs =>
    timely_of_check (eachStep_of_check step (c := timelyCheck) (by decide +kernel) pre e s s' hpre hrun hs)

theorem advance_renders {r : RenderId} {render : Render ε ρ} (hs : advance s r render = some s') :
    ∃ after, s'.renders = Function.update s.renders r (some after) := by
  unfold advance at hs
  split at hs
  any_goals split at hs
  all_goals first
    | exact ⟨_, congrArg State.renders (Option.some.inj hs).symm⟩
    | cases hs

/-- A render that was not started is not there. -/
theorem renders_none {r : RenderId} {events : List (Event ε ρ)} (hstart : .start r ∉ events)
    (hnone : s.renders r = none) (h : run step s events = some s') : s'.renders r = none := by
  induction events generalizing s with
  | nil =>
      cases h
      exact hnone
  | cons e events ih =>
      obtain ⟨t, ht, hrest⟩ := run_cons_some step h
      refine ih (fun hmem => hstart (List.mem_cons_of_mem _ hmem)) ?_ hrest
      have hupdate : ∀ {r' render after}, s.renders r' = some render →
          t.renders = Function.update s.renders r' (some after) → t.renders r = none := by
        intro r' render after hrender htrenders
        have hne : r ≠ r' := by
          rintro rfl
          cases hnone.symm.trans hrender
        rw [htrenders, Function.update_of_ne hne]
        exact hnone
      cases e with
      | tick elapsed => cases ht; exact hnone
      | start r' =>
          simp only [step] at ht
          split at ht
          · cases ht
          · cases ht
            have hne : r ≠ r' := by
              rintro rfl
              exact hstart List.mem_cons_self
            exact (Function.update_of_ne hne ..).trans hnone
      | advance r' =>
          simp only [step] at ht
          split at ht
          · cases ht
          · rename_i render hrender
            obtain ⟨after, hafter⟩ := advance_renders ht
            exact hupdate hrender hafter
      | sidecarAnswers r' outcome =>
          simp only [step] at ht
          split at ht
          · rename_i hrender
            exact hupdate hrender (congrArg State.renders (Option.some.inj ht).symm)
          · cases ht
      | probeAnswers r' ok =>
          simp only [step] at ht
          split at ht
          · rename_i hrender
            exact hupdate hrender (congrArg State.renders (Option.some.inj ht).symm)
          · cases ht
      | boaAnswers r' outcome =>
          simp only [step] at ht
          split at ht
          · rename_i hrender
            exact hupdate hrender (congrArg State.renders (Option.some.inj ht).symm)
          · cases ht
      | spawnEnds j ok =>
          simp only [step] at ht
          split at ht
          · cases ht; exact hnone
          · cases ht
      | advanceRespawn j =>
          simp only [step] at ht
          split at ht
          · cases ht
          · rename_i respawn _
            cases respawn <;> cases ht
            all_goals exact hnone

/-- Two renders are on the first sidecar when it dies. One notices at once and has it
replaced, and a third render serves the new generation before the other one notices. -/
def lateFailure : List (Event Unit Unit) :=
  [.start 1, .advance 1, .advance 1, .advance 1, .advance 1,
    .start 2, .advance 2, .advance 2, .advance 2, .advance 2,
    .sidecarAnswers 2 (.error (.sidecar "connection reset")), .advance 2, .advance 2, .advance 2,
    .spawnEnds 0 true, .advanceRespawn 0, .advanceRespawn 0, .advanceRespawn 0, .advanceRespawn 0,
    .advanceRespawn 0, .start 3, .advance 3, .advance 3, .advance 3,
    .sidecarAnswers 1 (.error (.sidecar "read timeout")), .advance 1]

/-- `LeftUnhealthy` of a state with one spawn and the listed renders. -/
def leftUnhealthyCheck (s : State ε ρ) (renders : List RenderId) : Bool :=
  decide (s.healthy = false ∧ s.last_generation = s.generation ∧ s.requests = 1 ∧
      s.respawns 0 ≠ some .bump ∧ s.blamed ≠ s.current) &&
    renders.all fun r =>
      match s.renders r with
      | some ⟨.revive _, _⟩ | some ⟨.recovered _, _⟩ => false
      | _ => true

theorem leftUnhealthy_of_check {renders : List RenderId} (hI : Served s)
    (hrenders : ∀ r, r ∉ renders → s.renders r = none)
    (h : leftUnhealthyCheck s renders = true) : LeftUnhealthy s := by
  obtain ⟨hfields, hall⟩ := Bool.and_eq_true_iff.mp h
  obtain ⟨hhealthy, hserved, hrequests, hbump, hlate⟩ := of_decide_eq_true hfields
  refine ⟨hhealthy, hserved, ?_, ?_, hlate⟩
  · intro j hj
    cases j with
    | zero => exact hbump hj
    | succ j => cases (hI.unrequested (j + 1) (by omega)).symm.trans hj
  · rintro r ⟨⟨pc, calls⟩, hrender, hreviving⟩
    by_cases hr : r ∈ renders
    · have hpc := List.all_eq_true.mp hall r hr
      rw [hrender] at hpc
      cases pc <;> first | exact hreviving | cases hpc
    · cases (hrenders r hr).symm.trans hrender

theorem late_failure_distrusts :
    ¬ Throughout step Promised (State.initial Unit Unit 0) lateFailure := by
  intro h
  have hcheck : (run step (State.initial Unit Unit 0) lateFailure).any
      (leftUnhealthyCheck · [1, 2, 3]) = true := by decide +kernel
  obtain ⟨s, hrun, hs⟩ := (Option.any_eq_true _ _).mp hcheck
  refine (h lateFailure s (List.prefix_refl _) hrun).trusted (leftUnhealthy_of_check ?_ ?_ hs)
  · exact run_invariant step served_step (served_initial Unit Unit 0) hrun
  · intro r hr
    refine renders_none ?_ rfl hrun
    simp only [List.mem_cons, List.not_mem_nil, or_false, not_or] at hr
    simp [lateFailure, hr]

end Wallermax.Sidecar.Auto
