import Mathlib.Data.Fin.Basic
import Mathlib.Data.List.FinRange
import Mathlib.Logic.Function.Basic
import Mathlib.Tactic.Common
import Wallermax.Base.Runs

/-!
# The sidecar's worker pool

`jhs-sidecar.mjs`: fixed slots, a worker thread in each, a FIFO queue and the jobs
in flight. One event of the main thread is one step. A worker's events come in its
own order (ready, answers, error, exit) and are otherwise as late as they like; the
handlers close over the slot the worker was spawned into, not over the worker.

`terminate()` resolves when the worker has exited. What was posted and answered is
kept with the worker, and every call of a job's `resolve` in `resolved`.
-/

namespace Wallermax.Sidecar

open Wallermax.Base

abbrev WorkerId : Type := ℕ

abbrev JobId : Type := ℕ

/-- Named, so that every module decides membership among the hard kills with one instance. -/
instance instLawfulBEqKill (n : ℕ) : LawfulBEq (Fin n × WorkerId) := inferInstance

/-! ## The state -/

structure Slot : Type where
  busy : Bool
  alive : Bool
  worker : WorkerId

/-- A worker thread: where its handlers point, what it was sent, and which of its
events have been delivered. -/
structure Thread (n : ℕ) : Type where
  slot : Fin n
  posted : List JobId
  answered : List JobId
  ready : Bool
  failed : Bool
  exited : Bool
  terminated : Bool

structure Job (ρ : Type) : Type where
  jobId : JobId
  request : ρ
  label : String
  budgetMs : Option ℕ

/-- A job in flight; its timer holds the budget. -/
structure Entry (n : ℕ) : Type where
  slot : Fin n
  label : String
  budget : ℕ

/-- What a job's promise resolves with. An answer is kept with the worker it came from. -/
inductive JobResult (μ : Type) : Type where
  | answer (worker : WorkerId) (message : μ)
  | error (kind message path : String)

structure Pool (n : ℕ) (ρ μ : Type) : Type where
  slots : Fin n → Slot
  queue : List (Job ρ)
  pending : List (JobId × Entry n)
  jobIdCounter : ℕ
  threads : WorkerId → Option (Thread n)
  spawned : ℕ
  /-- The hard kills whose `terminate()` has not resolved yet. -/
  kills : List (Fin n × WorkerId)
  resolved : List (JobId × JobResult μ)

section Operations

variable {n : ℕ} {ρ μ : Type}

def workerDied (label : String) : JobResult μ :=
  .error "worker"
    ("Template execution error (" ++ label ++ "): the render worker died " ++
      "before answering; it has been respawned") label

def timedOut (label : String) (budget : ℕ) : JobResult μ :=
  .error "timeout"
    ("Template execution error (" ++ label ++ "): the render exceeded the " ++
      toString budget ++ " ms sidecar budget and its worker was terminated") label

namespace Pool

/-! ## Small changes -/

def setSlot (pool : Pool n ρ μ) (i : Fin n) (s : Slot) : Pool n ρ μ :=
  { pool with slots := Function.update pool.slots i s }

def setAlive (pool : Pool n ρ μ) (i : Fin n) (alive : Bool) : Pool n ρ μ :=
  pool.setSlot i { pool.slots i with alive := alive }

def setBusy (pool : Pool n ρ μ) (i : Fin n) (busy : Bool) : Pool n ρ μ :=
  pool.setSlot i { pool.slots i with busy := busy }

def modifyThread (pool : Pool n ρ μ) (w : WorkerId) (f : Thread n → Thread n) : Pool n ρ μ :=
  { pool with threads := Function.update pool.threads w ((pool.threads w).map f) }

/-- `worker.terminate()`. -/
def terminate (pool : Pool n ρ μ) (w : WorkerId) : Pool n ρ μ :=
  pool.modifyThread w fun t => { t with terminated := true }

def resolve (pool : Pool n ρ μ) (results : List (JobId × JobResult μ)) : Pool n ρ μ :=
  { pool with resolved := pool.resolved ++ results }

/-! ## The functions of the pool -/

def spawnInto (pool : Pool n ρ μ) (i : Fin n) : Pool n ρ μ :=
  { pool with
    slots := Function.update pool.slots i (Slot.mk false false pool.spawned)
    threads := Function.update pool.threads pool.spawned
      (some (Thread.mk i [] [] false false false false))
    spawned := pool.spawned + 1 }

/-- The jobs in flight on the slot are given up. -/
def abandon (pool : Pool n ρ μ) (i : Fin n) : Pool n ρ μ :=
  { pool with
    pending := pool.pending.filter fun p => !decide (p.2.slot = i)
    resolved := pool.resolved ++ (pool.pending.filter fun p => decide (p.2.slot = i)).map
      fun p => (p.1, workerDied p.2.label) }

def replaceSlot (pool : Pool n ρ μ) (i : Fin n) : Pool n ρ μ :=
  (((pool.abandon i).setAlive i false).terminate (pool.slots i).worker).spawnInto i

def freeSlot (pool : Pool n ρ μ) : Option (Fin n) :=
  (List.finRange n).find? fun i => (pool.slots i).alive && !(pool.slots i).busy

def dispatch (defaultBudget : ℕ) (pool : Pool n ρ μ) (i : Fin n) (job : Job ρ) : Pool n ρ μ :=
  ({ pool with
    slots := Function.update pool.slots i { pool.slots i with busy := true }
    pending := pool.pending ++
      [(job.jobId, Entry.mk i job.label (job.budgetMs.getD defaultBudget))] }).modifyThread
    (pool.slots i).worker fun t => { t with posted := t.posted ++ [job.jobId] }

/-- The loop of `drainQueue`, over the queue it started with. -/
def drain (defaultBudget : ℕ) : List (Job ρ) → Pool n ρ μ → Pool n ρ μ
  | [], pool => pool
  | job :: rest, pool =>
    match pool.freeSlot with
    | none   => pool
    | some i => drain defaultBudget rest (dispatch defaultBudget { pool with queue := rest } i job)

def drainQueue (defaultBudget : ℕ) (pool : Pool n ρ μ) : Pool n ρ μ :=
  drain defaultBudget pool.queue pool

def entry? (pool : Pool n ρ μ) (id : JobId) : Option (JobId × Entry n) :=
  pool.pending.find? (·.1 == id)

/-- `pending.delete(id)`. -/
def forget (pool : Pool n ρ μ) (id : JobId) : Pool n ρ μ :=
  { pool with pending := pool.pending.eraseP (·.1 == id) }

def hardKill (pool : Pool n ρ μ) (id : JobId) : Pool n ρ μ :=
  match pool.entry? id with
  | none => pool
  | some (_, entry) =>
    let worker := (pool.slots entry.slot).worker
    let pool := (((pool.forget id).setAlive entry.slot false).terminate worker).resolve
      [(id, timedOut entry.label entry.budget)]
    { pool with kills := pool.kills ++ [(entry.slot, worker)] }

def finishJob (defaultBudget : ℕ) (pool : Pool n ρ μ) (worker : WorkerId) (id : JobId)
    (message : μ) : Pool n ρ μ :=
  match pool.entry? id with
  -- a late answer for a job that was already terminated
  | none => pool
  | some (_, entry) =>
    (((pool.forget id).setBusy entry.slot false).resolve [(id, .answer worker message)]).drainQueue
      defaultBudget

def submit (defaultBudget : ℕ) (pool : Pool n ρ μ) (request : ρ) (label : String)
    (budgetMs : Option ℕ) : Pool n ρ μ :=
  ({ pool with
    jobIdCounter := pool.jobIdCounter + 1
    queue := pool.queue ++ [Job.mk (pool.jobIdCounter + 1) request label budgetMs] }).drainQueue
    defaultBudget

end Pool

end Operations

/-! ## Events -/

inductive Event (n : ℕ) (ρ μ : Type) : Type where
  | submit (request : ρ) (label : String) (budgetMs : Option ℕ)
  | ready (w : WorkerId)
  | answer (w : WorkerId) (id : JobId) (message : μ)
  | error (w : WorkerId)
  | exit (w : WorkerId)
  /-- The budget of a job is over; a cleared timer finds no job. -/
  | timer (id : JobId)
  /-- The `terminate()` of a hard kill resolves. -/
  | terminated (i : Fin n) (w : WorkerId)

section Step

variable {n : ℕ} {ρ μ : Type}

/-- One event on the main thread, if it can come now. -/
def step (defaultBudget : ℕ) (pool : Pool n ρ μ) : Event n ρ μ → Option (Pool n ρ μ)
  | .submit request label budgetMs => some (pool.submit defaultBudget request label budgetMs)
  | .ready w =>
    match pool.threads w with
    | none   => none
    | some t =>
      if t.ready ∨ t.failed ∨ t.exited then none
      else some (((pool.modifyThread w fun t => { t with ready := true }).setAlive t.slot
        true).drainQueue defaultBudget)
  | .answer w id message =>
    match pool.threads w with
    | none   => none
    | some t =>
      if t.ready ∧ ¬ t.failed ∧ ¬ t.exited ∧ id ∈ t.posted ∧ id ∉ t.answered then
        some ((pool.modifyThread w fun t => { t with answered := t.answered ++ [id] }).finishJob
          defaultBudget w id message)
      else none
  | .error w =>
    match pool.threads w with
    | none   => none
    | some t =>
      if t.failed ∨ t.exited then none
      else some ((pool.modifyThread w fun t => { t with failed := true }).replaceSlot t.slot)
  | .exit w =>
    match pool.threads w with
    | none   => none
    | some t =>
      if t.exited then none
      else if (pool.slots t.slot).alive then
        some ((pool.modifyThread w fun t => { t with exited := true }).replaceSlot t.slot)
      else some (pool.modifyThread w fun t => { t with exited := true })
  | .timer id => some (pool.hardKill id)
  | .terminated i w =>
    match pool.threads w with
    | none   => none
    | some t =>
      if (i, w) ∈ pool.kills ∧ t.exited then
        some (({ pool with kills := pool.kills.erase (i, w) }).spawnInto i)
      else none

/-- After the workers of the fixed slots were spawned. -/
def Pool.initial (n : ℕ) (ρ μ : Type) : Pool n ρ μ where
  slots := fun i => ⟨false, false, i⟩
  queue := []
  pending := []
  jobIdCounter := 0
  threads := fun w => if h : w < n then some ⟨⟨w, h⟩, [], [], false, false, false, false⟩ else none
  spawned := n
  kills := []
  resolved := []

end Step

/-! ## What the operations change -/

section Fields

variable {n : ℕ} {ρ μ : Type} {pool : Pool n ρ μ}

theorem modifyThread_some {w w' : WorkerId} {f : Thread n → Thread n} {t : Thread n}
    (h : (pool.modifyThread w f).threads w' = some t) :
    (w' ≠ w ∧ pool.threads w' = some t) ∨
      (w' = w ∧ ∃ t₀, pool.threads w = some t₀ ∧ t = f t₀) := by
  by_cases hw : w' = w
  · subst hw
    change Function.update pool.threads w' _ w' = some t at h
    rw [Function.update_self] at h
    obtain ⟨t₀, ht₀, rfl⟩ := Option.map_eq_some_iff.mp h
    exact .inr ⟨rfl, t₀, ht₀, rfl⟩
  · change Function.update pool.threads w _ w' = some t at h
    rw [Function.update_of_ne hw] at h
    exact .inl ⟨hw, h⟩

theorem modifyThread_self {w : WorkerId} {f : Thread n → Thread n} {t : Thread n}
    (h : pool.threads w = some t) : (pool.modifyThread w f).threads w = some (f t) := by
  show Function.update pool.threads w _ w = _
  rw [Function.update_self, h]
  rfl

theorem modifyThread_of_ne {w w' : WorkerId} (f : Thread n → Thread n) (h : w' ≠ w) :
    (pool.modifyThread w f).threads w' = pool.threads w' :=
  Function.update_of_ne h ..

theorem slots_setSlot_of_ne {i j : Fin n} (s : Slot) (h : j ≠ i) :
    (pool.setSlot i s).slots j = pool.slots j :=
  Function.update_of_ne h ..

@[simp] theorem slots_setSlot_self (i : Fin n) (s : Slot) : (pool.setSlot i s).slots i = s :=
  Function.update_self ..

@[simp] theorem worker_setAlive (i j : Fin n) (alive : Bool) :
    ((pool.setAlive i alive).slots j).worker = (pool.slots j).worker := by
  unfold Pool.setAlive
  by_cases hj : j = i
  · subst hj
    rw [slots_setSlot_self]
  · rw [slots_setSlot_of_ne _ hj]

@[simp] theorem worker_setBusy (i j : Fin n) (busy : Bool) :
    ((pool.setBusy i busy).slots j).worker = (pool.slots j).worker := by
  unfold Pool.setBusy
  by_cases hj : j = i
  · subst hj
    rw [slots_setSlot_self]
  · rw [slots_setSlot_of_ne _ hj]

@[simp] theorem alive_setBusy (i j : Fin n) (busy : Bool) :
    ((pool.setBusy i busy).slots j).alive = (pool.slots j).alive := by
  unfold Pool.setBusy
  by_cases hj : j = i
  · subst hj
    rw [slots_setSlot_self]
  · rw [slots_setSlot_of_ne _ hj]

/-- **The rule of `drainQueue`**: what every dispatch to a free slot keeps, it keeps. -/
theorem drainQueue_rule {P : Pool n ρ μ → Prop} {defaultBudget : ℕ}
    (hstep : ∀ pool job rest i, P pool → pool.queue = job :: rest → pool.freeSlot = some i →
      P (Pool.dispatch defaultBudget { pool with queue := rest } i job)) (h : P pool) :
    P (pool.drainQueue defaultBudget) := by
  have hdrain : ∀ queue (pool : Pool n ρ μ), pool.queue = queue → P pool →
      P (Pool.drain defaultBudget queue pool) := by
    intro queue
    induction queue with
    | nil => exact fun _ _ hP => hP
    | cons job rest ih =>
        intro pool hqueue hP
        rw [Pool.drain]
        cases hfree : pool.freeSlot with
        | none => exact hP
        | some i => exact ih _ rfl (hstep pool job rest i hP hqueue hfree)
  exact hdrain _ pool rfl h

theorem freeSlot_some {i : Fin n} (h : pool.freeSlot = some i) :
    (pool.slots i).alive = true ∧ (pool.slots i).busy = false := by
  have := List.find?_some h
  simpa using this

end Fields

/-! ## What an event does -/

section Events

variable {n : ℕ} {ρ μ : Type} {pool pool' : Pool n ρ μ} {defaultBudget : ℕ}

theorem step_ready {w : WorkerId} (h : step defaultBudget pool (.ready w) = some pool') :
    ∃ t, pool.threads w = some t ∧ t.ready = false ∧ t.failed = false ∧ t.exited = false ∧
      pool' = ((pool.modifyThread w fun t => { t with ready := true }).setAlive t.slot
        true).drainQueue defaultBudget := by
  cases ht : pool.threads w with
  | none => simp [step, ht] at h
  | some t =>
      simp only [step, ht] at h
      split at h
      · cases h
      · rename_i hguard
        simp only [not_or, Bool.not_eq_true] at hguard
        cases h
        exact ⟨t, rfl, hguard.1, hguard.2.1, hguard.2.2, rfl⟩

theorem step_answer {w : WorkerId} {id : JobId} {message : μ}
    (h : step defaultBudget pool (.answer w id message) = some pool') :
    ∃ t, pool.threads w = some t ∧ t.ready = true ∧ t.failed = false ∧ t.exited = false ∧
      id ∈ t.posted ∧ pool' = (pool.modifyThread w fun t =>
        { t with answered := t.answered ++ [id] }).finishJob defaultBudget w id message := by
  cases ht : pool.threads w with
  | none => simp [step, ht] at h
  | some t =>
      simp only [step, ht] at h
      split at h
      · rename_i hguard
        obtain ⟨hready, hfailed, hexited, hposted, -⟩ := hguard
        cases h
        exact ⟨t, rfl, hready, by simpa using hfailed, by simpa using hexited, hposted, rfl⟩
      · cases h

theorem step_error {w : WorkerId} (h : step defaultBudget pool (.error w) = some pool') :
    ∃ t, pool.threads w = some t ∧ t.failed = false ∧ t.exited = false ∧
      pool' = (pool.modifyThread w fun t => { t with failed := true }).replaceSlot t.slot := by
  cases ht : pool.threads w with
  | none => simp [step, ht] at h
  | some t =>
      simp only [step, ht] at h
      split at h
      · cases h
      · rename_i hguard
        simp only [not_or, Bool.not_eq_true] at hguard
        cases h
        exact ⟨t, rfl, hguard.1, hguard.2, rfl⟩

theorem step_exit {w : WorkerId} (h : step defaultBudget pool (.exit w) = some pool') :
    ∃ t, pool.threads w = some t ∧ t.exited = false ∧
      pool' = bif (pool.slots t.slot).alive
        then (pool.modifyThread w fun t => { t with exited := true }).replaceSlot t.slot
        else pool.modifyThread w fun t => { t with exited := true } := by
  cases ht : pool.threads w with
  | none => simp [step, ht] at h
  | some t =>
      simp only [step, ht] at h
      split at h
      · cases h
      · rename_i hguard
        refine ⟨t, rfl, by simpa using hguard, ?_⟩
        cases halive : (pool.slots t.slot).alive
        all_goals
          simp only [halive] at h
          cases h
          rfl

theorem step_terminated {i : Fin n} {w : WorkerId}
    (h : step defaultBudget pool (.terminated i w) = some pool') :
    ∃ t, pool.threads w = some t ∧ (i, w) ∈ pool.kills ∧ t.exited = true ∧
      pool' = ({ pool with kills := pool.kills.erase (i, w) }).spawnInto i := by
  cases ht : pool.threads w with
  | none => simp [step, ht] at h
  | some t =>
      simp only [step, ht] at h
      split at h
      · rename_i hguard
        cases h
        exact ⟨t, rfl, hguard.1, hguard.2, rfl⟩
      · cases h

end Events

end Wallermax.Sidecar
