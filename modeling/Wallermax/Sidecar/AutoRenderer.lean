import Mathlib.Logic.Function.Basic
import Mathlib.Tactic.Common
import Wallermax.Base.Runs

/-!
# The `auto` backend

`AutoRenderer::dispatch` and `SidecarSupervisor`: renders and detached respawn threads
over shared cells. Every access to a cell is a step of its own, so a list of events is
one interleaving; what the sidecar, a probe, the embedded engine and a spawn answer is
in the event.

Sidecars are numbered: 0 is the one the server started with, `j + 1` the one of the
`j`-th requested spawn. A render keeps the calls it made, the state when each spawn was
requested and how it ended, and whose failure cleared `healthy` last.
-/

namespace Wallermax.Sidecar.Auto

open Wallermax.Base

/-- Nanoseconds of the monotonic clock. -/
abbrev Instant : Type := ℕ

abbrev RenderId : Type := ℕ

abbrev SidecarId : Type := ℕ

def fromSecs (seconds : ℕ) : ℕ := seconds * 1000000000

def PROBE_COOLDOWN : ℕ := fromSecs 10

def RESPAWN_BACKOFF_BASE : ℕ := fromSecs 10

def RESPAWN_MAX_BACKOFF : ℕ := fromSecs 300

/-- The wait before the next attempt after so many failed respawns. -/
def respawn_backoff (consecutive_failures : ℕ) : ℕ :=
  Nat.min (RESPAWN_BACKOFF_BASE * (1 <<< Nat.min consecutive_failures 5)) RESPAWN_MAX_BACKOFF

/-- `JhsError`: the transport class and the rest. -/
inductive JhsError (ε : Type) : Type where
  | sidecar (message : String)
  | template (error : ε)

/-- A call a render made, with its outcome. The embedded engine has no transport. -/
inductive Call (ε ρ : Type) : Type where
  | sidecar (sidecar : SidecarId) (outcome : Except (JhsError ε) ρ)
  | boa (outcome : Except ε ρ)

/-- Where a render is in `dispatch`; `rounds` counts the rounds after this one. -/
inductive Pc (ε ρ : Type) : Type where
  /-- About to load the supervisor's generation. -/
  | head (rounds : ℕ)
  /-- About to compare it with `last_generation`. -/
  | compare (rounds generation : ℕ)
  /-- About to store `healthy` for a generation not served yet. -/
  | revive (rounds : ℕ)
  | check (rounds : ℕ)
  /-- About to take the current sidecar. -/
  | pick (rounds : ℕ)
  | calling (rounds : ℕ) (sidecar : SidecarId)
  /-- A transport failure; about to clear `healthy`. -/
  | failing (sidecar : SidecarId)
  | unhealthy (rounds : ℕ)
  | probe (rounds : ℕ)
  | probing (rounds : ℕ) (sidecar : SidecarId)
  /-- The probe answered; about to store `healthy`. -/
  | recovered (rounds : ℕ)
  /-- The head of `request_respawn`. -/
  | request
  /-- The respawn slot is taken; about to look at `next_attempt`. -/
  | claim
  /-- Too early; about to give the slot back. -/
  | release
  | boa
  | done (result : Except (JhsError ε) ρ)

structure Render (ε ρ : Type) : Type where
  pc : Pc ε ρ
  calls : List (Call ε ρ)

/-- Where a detached thread is in `respawn_once`. -/
inductive Respawn : Type where
  | spawning
  | resetFailures
  | resetNext
  | swap
  | bump
  | countFailure
  | release
deriving DecidableEq

structure State (ε ρ : Type) : Type where
  clock : Instant
  -- the supervisor
  current : SidecarId
  generation : ℕ
  respawning : Bool
  failures : ℕ
  next_attempt : Instant
  -- the renderer
  healthy : Bool
  last_probe : Instant
  last_generation : ℕ
  -- the threads
  renders : RenderId → Option (Render ε ρ)
  respawns : ℕ → Option Respawn
  -- what happened
  requests : ℕ
  requestedAt : ℕ → Instant
  /-- Whether a spawn succeeded, once it ended. -/
  outcome : ℕ → Option Bool
  /-- The sidecar whose failure cleared `healthy` last. -/
  blamed : SidecarId

inductive Event (ε ρ : Type) : Type where
  | tick (elapsed : ℕ)
  | start (r : RenderId)
  /-- The next step of a render that waits for nobody. -/
  | advance (r : RenderId)
  | sidecarAnswers (r : RenderId) (outcome : Except (JhsError ε) ρ)
  | probeAnswers (r : RenderId) (ok : Bool)
  | boaAnswers (r : RenderId) (outcome : Except ε ρ)
  | spawnEnds (j : ℕ) (ok : Bool)
  /-- The next step of a respawn thread after its spawn ended. -/
  | advanceRespawn (j : ℕ)

section Machine

variable {ε ρ : Type}

namespace State

def setPc (s : State ε ρ) (r : RenderId) (render : Render ε ρ) (pc : Pc ε ρ) : State ε ρ :=
  { s with renders := Function.update s.renders r (some { render with pc := pc }) }

/-- A call ended. -/
def called (s : State ε ρ) (r : RenderId) (render : Render ε ρ) (call : Call ε ρ)
    (pc : Pc ε ρ) : State ε ρ :=
  { s with renders := Function.update s.renders r (some ⟨pc, render.calls ++ [call]⟩) }

def setRespawn (s : State ε ρ) (j : ℕ) (respawn : Option Respawn) : State ε ρ :=
  { s with respawns := Function.update s.respawns j respawn }

end State

/-- One step of `dispatch` and of the `request_respawn` it calls. -/
def advance (s : State ε ρ) (r : RenderId) (render : Render ε ρ) : Option (State ε ρ) :=
  match render.pc with
  | .head rounds => some (s.setPc r render (.compare rounds s.generation))
  | .compare rounds generation =>
    if s.last_generation = generation then some (s.setPc r render (.check rounds))
    else some ({ s with last_generation := generation }.setPc r render (.revive rounds))
  | .revive rounds => some ({ s with healthy := true }.setPc r render (.check rounds))
  | .check rounds =>
    some (s.setPc r render (if s.healthy then .pick rounds else .unhealthy rounds))
  | .pick rounds => some (s.setPc r render (.calling rounds s.current))
  | .failing sidecar =>
    some ({ s with healthy := false, blamed := sidecar }.setPc r render .request)
  | .unhealthy rounds =>
    if s.last_probe + PROBE_COOLDOWN ≤ s.clock then
      some ({ s with last_probe := s.clock }.setPc r render (.probe rounds))
    else some (s.setPc r render .boa)
  | .probe rounds => some (s.setPc r render (.probing rounds s.current))
  | .recovered rounds =>
    some ({ s with healthy := true }.setPc r render
      (match rounds with
        | 0 => .boa
        | rounds + 1 => .head rounds))
  | .request =>
    if s.respawning then some (s.setPc r render .boa)
    else some ({ s with respawning := true }.setPc r render .claim)
  | .claim =>
    if s.clock < s.next_attempt then some (s.setPc r render .release)
    else
      some ({ s with
        next_attempt := s.clock + respawn_backoff s.failures
        respawns := Function.update s.respawns s.requests (some .spawning)
        requests := s.requests + 1
        requestedAt := Function.update s.requestedAt s.requests s.clock }.setPc r render .boa)
  | .release => some ({ s with respawning := false }.setPc r render .boa)
  | .calling .. | .probing .. | .boa | .done _ => none

/-- One step of `respawn_once`. The counter of failures is a `u32`. -/
def advanceRespawn (s : State ε ρ) (j : ℕ) : Respawn → Option (State ε ρ)
  | .spawning => none
  | .resetFailures => some ({ s with failures := 0 }.setRespawn j (some .resetNext))
  | .resetNext => some ({ s with next_attempt := s.clock }.setRespawn j (some .swap))
  | .swap => some ({ s with current := j + 1 }.setRespawn j (some .bump))
  | .bump => some ({ s with generation := s.generation + 1 }.setRespawn j (some .release))
  | .countFailure =>
    some ({ s with failures := (s.failures + 1) % 0x100000000 }.setRespawn j (some .release))
  | .release => some ({ s with respawning := false }.setRespawn j none)

def step (s : State ε ρ) : Event ε ρ → Option (State ε ρ)
  | .tick elapsed => some { s with clock := s.clock + elapsed }
  | .start r =>
    match s.renders r with
    | some _ => none
    | none => some { s with renders := Function.update s.renders r (some ⟨.head 1, []⟩) }
  | .advance r =>
    match s.renders r with
    | none => none
    | some render => advance s r render
  | .sidecarAnswers r outcome =>
    match s.renders r with
    | some ⟨.calling rounds sidecar, calls⟩ =>
      some (s.called r ⟨.calling rounds sidecar, calls⟩ (.sidecar sidecar outcome)
        (match outcome with
          | .ok value => .done (.ok value)
          | .error (.sidecar _) => .failing sidecar
          | .error (.template error) => .done (.error (.template error))))
    | _ => none
  | .probeAnswers r ok =>
    match s.renders r with
    | some ⟨.probing rounds sidecar, calls⟩ =>
      some (s.setPc r ⟨.probing rounds sidecar, calls⟩
        (if ok then .recovered rounds else .request))
    | _ => none
  | .boaAnswers r outcome =>
    match s.renders r with
    | some ⟨.boa, calls⟩ =>
      some (s.called r ⟨.boa, calls⟩ (.boa outcome) (.done (outcome.mapError .template)))
    | _ => none
  | .spawnEnds j ok =>
    match s.respawns j with
    | some .spawning =>
      some ({ s with outcome := Function.update s.outcome j (some ok) }.setRespawn j
        (some (if ok then .resetFailures else .countFailure)))
    | _ => none
  | .advanceRespawn j =>
    match s.respawns j with
    | none => none
    | some respawn => advanceRespawn s j respawn

/-- `checked_sub(..).unwrap_or_else(Instant::now)`. -/
def past (now wait : ℕ) : Instant := if wait ≤ now then now - wait else now

/-- `AutoRenderer::new` around a sidecar that was just spawned. -/
def State.initial (ε ρ : Type) (now : Instant) : State ε ρ where
  clock := now
  current := 0
  generation := 1
  respawning := false
  failures := 0
  next_attempt := past now RESPAWN_BACKOFF_BASE
  healthy := true
  last_probe := past now PROBE_COOLDOWN
  last_generation := 1
  renders := fun _ => none
  respawns := fun _ => none
  requests := 0
  requestedAt := fun _ => 0
  outcome := fun _ => none
  blamed := 0

/-! ## Who holds the respawn slot -/

/-- In `request_respawn`, with the slot taken. -/
def Pc.Holding : Pc ε ρ → Prop
  | .claim | .release => True
  | _ => False

def Holds (s : State ε ρ) (r : RenderId) : Prop :=
  ∃ render, s.renders r = some render ∧ render.pc.Holding

section Renders

variable {s s' : State ε ρ} {r r' : RenderId} {render : Render ε ρ} {pc : Pc ε ρ}

@[simp] theorem renders_setPc_self : (s.setPc r render pc).renders r = some ⟨pc, render.calls⟩ :=
  Function.update_self ..

theorem renders_setPc_of_ne (h : r' ≠ r) : (s.setPc r render pc).renders r' = s.renders r' :=
  Function.update_of_ne h ..

/-- A render at one place changes no other's. -/
theorem holds_of_update {calls : List (Call ε ρ)}
    (hrenders : s'.renders = Function.update s.renders r (some ⟨pc, calls⟩))
    (h : Holds s' r') : (r' = r ∧ pc.Holding) ∨ (r' ≠ r ∧ Holds s r') := by
  obtain ⟨found, hfound, hholding⟩ := h
  rw [hrenders] at hfound
  by_cases hr : r' = r
  · subst hr
    rw [Function.update_self] at hfound
    cases hfound
    exact .inl ⟨rfl, hholding⟩
  · rw [Function.update_of_ne hr] at hfound
    exact .inr ⟨hr, found, hfound, hholding⟩

end Renders

end Machine

end Wallermax.Sidecar.Auto
