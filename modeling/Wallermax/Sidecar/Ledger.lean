import Mathlib.Data.List.Perm.Basic
import Mathlib.Data.List.Nodup
import Wallermax.Sidecar.Pool

/-!
# Every job is resolved once

A job's id is in one of three places, the queue, `pending` or the resolved jobs,
and moves from each to the next. So its `resolve` runs at most once, and since it
was posted to one worker only, an answer is that worker's. This holds in every run,
whatever becomes of the workers.
-/

namespace Wallermax.Sidecar

open Wallermax.Base

variable {n : ℕ} {ρ μ : Type}

namespace Pool

def ids (pool : Pool n ρ μ) : List JobId :=
  pool.queue.map (·.jobId) ++ (pool.pending.map (·.1) ++ pool.resolved.map (·.1))

def postedTo (pool : Pool n ρ μ) (w : WorkerId) : List JobId :=
  match pool.threads w with
  | none   => []
  | some t => t.posted

end Pool

/-- What a job may resolve with: an answer of the worker it was posted to, or one of
the two errors of the pool. -/
def Legit (pool : Pool n ρ μ) (id : JobId) : JobResult μ → Prop
  | .answer w _ => id ∈ pool.postedTo w
  | .error kind message path =>
    ∃ label, (JobResult.error kind message path : JobResult μ) = workerDied label ∨
      ∃ budget, (JobResult.error kind message path : JobResult μ) = timedOut label budget

structure Ledger (pool : Pool n ρ μ) : Prop where
  nodup : pool.ids.Nodup
  le_counter : ∀ id ∈ pool.ids, id ≤ pool.jobIdCounter
  unspawned : ∀ w, pool.spawned ≤ w → pool.threads w = none
  posted_le : ∀ w, ∀ id ∈ pool.postedTo w, id ≤ pool.jobIdCounter
  not_queued : ∀ w, ∀ id ∈ pool.postedTo w, id ∉ pool.queue.map (·.jobId)
  one_worker : ∀ w w' id, id ∈ pool.postedTo w → id ∈ pool.postedTo w' → w = w'
  legit : ∀ r ∈ pool.resolved, Legit pool r.1 r.2

/-! ## Where the ids are -/

section Places

variable {pool pool' : Pool n ρ μ}

theorem Legit.of_postedTo {id : JobId} {r : JobResult μ}
    (h : ∀ w, ∀ id ∈ pool.postedTo w, id ∈ pool'.postedTo w) (hr : Legit pool id r) :
    Legit pool' id r := by
  cases r with
  | answer w message => exact h w id hr
  | error kind message path => exact hr

theorem postedTo_of_threads {w : WorkerId} {t : Thread n} (h : pool.threads w = some t) :
    pool.postedTo w = t.posted := by
  simp only [Pool.postedTo, h]

theorem postedTo_modifyThread {w : WorkerId} {f : Thread n → Thread n}
    (hf : ∀ t, (f t).posted = t.posted) (w' : WorkerId) :
    (pool.modifyThread w f).postedTo w' = pool.postedTo w' := by
  unfold Pool.postedTo
  by_cases hw : w' = w
  · subst hw
    cases ht : pool.threads w' with
    | none =>
        have hnone : (pool.modifyThread w' f).threads w' = none := by
          show Function.update pool.threads w' _ w' = none
          rw [Function.update_self, ht]
          rfl
        rw [hnone]
    | some t => rw [modifyThread_self ht]; exact hf t
  · rw [modifyThread_of_ne f hw]

theorem modifyThread_none {w w' : WorkerId} {f : Thread n → Thread n}
    (h : pool.threads w' = none) : (pool.modifyThread w f).threads w' = none := by
  cases ht : (pool.modifyThread w f).threads w' with
  | none => rfl
  | some t =>
      rcases modifyThread_some ht with ⟨-, hold⟩ | ⟨rfl, t₀, hold, -⟩
      all_goals cases h.symm.trans hold

/-- **The ledger moves with its ids.** -/
theorem Ledger.transport (h : Ledger pool) (hids : pool'.ids.Perm pool.ids)
    (hqueue : pool'.queue = pool.queue) (hcounter : pool'.jobIdCounter = pool.jobIdCounter)
    (hposted : ∀ w, pool'.postedTo w = pool.postedTo w)
    (hspawned : ∀ w, pool'.spawned ≤ w → pool'.threads w = none)
    (hlegit : ∀ r ∈ pool'.resolved, r ∈ pool.resolved ∨ Legit pool r.1 r.2) : Ledger pool' where
  nodup := hids.nodup_iff.mpr h.nodup
  le_counter id hid := hcounter ▸ h.le_counter id (hids.mem_iff.mp hid)
  unspawned := hspawned
  posted_le w id hid := hcounter ▸ h.posted_le w id (hposted w ▸ hid)
  not_queued w id hid := hqueue ▸ h.not_queued w id (hposted w ▸ hid)
  one_worker w w' id hid hid' := h.one_worker w w' id (hposted w ▸ hid) (hposted w' ▸ hid')
  legit r hr := by
    have hkeep : ∀ w, ∀ id ∈ pool.postedTo w, id ∈ pool'.postedTo w := fun w id hid =>
      (hposted w).symm ▸ hid
    rcases hlegit r hr with hold | hnew
    · exact (h.legit r hold).of_postedTo hkeep
    · exact hnew.of_postedTo hkeep

/-! ## The operations keep the ledger -/

theorem Ledger.setSlot (h : Ledger pool) (i : Fin n) (s : Slot) : Ledger (pool.setSlot i s) :=
  h.transport (List.Perm.refl _) rfl rfl (fun _ => rfl) h.unspawned fun _ hr => .inl hr

theorem Ledger.modifyThread (h : Ledger pool) (w : WorkerId) {f : Thread n → Thread n}
    (hf : ∀ t, (f t).posted = t.posted) : Ledger (pool.modifyThread w f) :=
  h.transport (List.Perm.refl _) rfl rfl (postedTo_modifyThread hf)
    (fun w' hw' => modifyThread_none (h.unspawned w' hw')) fun _ hr => .inl hr

theorem threads_spawnInto_self (i : Fin n) : (pool.spawnInto i).threads pool.spawned =
    some (Thread.mk i [] [] false false false false) := by
  show Function.update pool.threads pool.spawned _ pool.spawned = _
  rw [Function.update_self]

theorem threads_spawnInto_of_ne (i : Fin n) {w : WorkerId} (h : w ≠ pool.spawned) :
    (pool.spawnInto i).threads w = pool.threads w :=
  Function.update_of_ne h ..

theorem postedTo_spawnInto (h : pool.threads pool.spawned = none) (i : Fin n) (w : WorkerId) :
    (pool.spawnInto i).postedTo w = pool.postedTo w := by
  by_cases hw : w = pool.spawned
  · subst hw
    simp only [Pool.postedTo, threads_spawnInto_self, h]
  · simp only [Pool.postedTo, threads_spawnInto_of_ne i hw]

theorem Ledger.spawnInto (h : Ledger pool) (i : Fin n) : Ledger (pool.spawnInto i) := by
  refine h.transport (List.Perm.refl _) rfl rfl
    (postedTo_spawnInto (h.unspawned _ (Nat.le_refl _)) i) ?_ fun _ hr => .inl hr
  intro w hw
  replace hw : pool.spawned + 1 ≤ w := hw
  rw [threads_spawnInto_of_ne i (Nat.ne_of_gt hw)]
  exact h.unspawned w (by omega)

theorem Ledger.abandon (h : Ledger pool) (i : Fin n) : Ledger (pool.abandon i) := by
  refine h.transport ?_ rfl rfl (fun _ => rfl) h.unspawned ?_
  · have hsplit : (pool.pending.filter (fun p => decide (p.2.slot = i)) ++
        pool.pending.filter fun p => !decide (p.2.slot = i)).Perm pool.pending :=
      List.filter_append_perm _ pool.pending
    have hids : (pool.abandon i).ids = pool.queue.map (·.jobId) ++
        ((pool.pending.filter fun p => !decide (p.2.slot = i)).map (·.1) ++
          (pool.resolved.map (·.1) ++
            (pool.pending.filter fun p => decide (p.2.slot = i)).map (·.1))) := by
      simp [Pool.ids, Pool.abandon, Function.comp_def]
    rw [hids]
    refine List.Perm.append_left _ ?_
    rw [← List.append_assoc]
    refine List.perm_append_comm.trans ?_
    rw [← List.append_assoc, ← List.map_append]
    exact (hsplit.map _).append_right _
  · intro r hr
    rcases List.mem_append.mp hr with hold | hnew
    · exact .inl hold
    · obtain ⟨⟨id, entry⟩, -, rfl⟩ := List.mem_map.mp hnew
      exact .inr ⟨entry.label, .inl rfl⟩

theorem Ledger.replaceSlot (h : Ledger pool) (i : Fin n) : Ledger (pool.replaceSlot i) :=
  (((h.abandon i).setSlot i _).modifyThread _ (by intro; rfl)).spawnInto i

theorem entry?_some {id : JobId} {e : JobId × Entry n} (h : pool.entry? id = some e) :
    e.1 = id ∧ e ∈ pool.pending :=
  ⟨by simpa using List.find?_some h, List.mem_of_find?_eq_some h⟩

theorem pending_perm_forget {id : JobId} {entry : Entry n}
    (h : pool.entry? id = some (id, entry)) :
    pool.pending.Perm ((id, entry) :: (pool.forget id).pending) := by
  obtain ⟨-, l₁, l₂, hl, hnot⟩ := List.find?_eq_some_iff_append.mp h
  show pool.pending.Perm ((id, entry) :: pool.pending.eraseP (·.1 == id))
  rw [hl, List.eraseP_append_right]
  · rw [List.eraseP_cons_of_pos (by simp)]
    exact List.perm_middle
  · simpa using hnot

/-- One job leaves `pending` and is resolved. -/
theorem Ledger.settle (h : Ledger pool) {id : JobId} {entry : Entry n} {r : JobResult μ}
    (hentry : pool.entry? id = some (id, entry)) (hr : Legit pool id r) :
    Ledger ((pool.forget id).resolve [(id, r)]) := by
  refine h.transport ?_ rfl rfl (fun _ => rfl) h.unspawned ?_
  · have hperm := pending_perm_forget hentry
    have hids : ((pool.forget id).resolve [(id, r)]).ids = pool.queue.map (·.jobId) ++
        ((pool.pending.eraseP (·.1 == id)).map (·.1) ++ (pool.resolved.map (·.1) ++ [id])) := by
      simp [Pool.ids, Pool.forget, Pool.resolve]
    rw [hids]
    refine List.Perm.append_left _ ?_
    rw [← List.append_assoc]
    refine List.perm_append_comm.trans ?_
    rw [← List.append_assoc]
    exact (hperm.symm.map Prod.fst).append_right _
  · intro p hp
    rcases List.mem_append.mp hp with hold | hnew
    · exact .inl hold
    · rw [List.mem_singleton.mp hnew]
      exact .inr hr

theorem postedTo_dispatch {job : Job ρ} {defaultBudget : ℕ} {i : Fin n} {w : WorkerId}
    {id : JobId} (h : id ∈ (Pool.dispatch defaultBudget pool i job).postedTo w) :
    id ∈ pool.postedTo w ∨ (w = (pool.slots i).worker ∧ id = job.jobId) := by
  unfold Pool.postedTo at h ⊢
  cases ht : (Pool.dispatch defaultBudget pool i job).threads w with
  | none =>
      rw [ht] at h
      cases h
  | some t =>
      rw [ht] at h
      rcases modifyThread_some ht with ⟨-, hold⟩ | ⟨rfl, t₀, hold, rfl⟩
      · left
        rw [show pool.threads w = some t from hold]
        exact h
      · rcases List.mem_append.mp h with hold' | hnew
        · left
          rw [show pool.threads (pool.slots i).worker = some t₀ from hold]
          exact hold'
        · exact .inr ⟨rfl, List.mem_singleton.mp hnew⟩

theorem postedTo_dispatch_of_mem (defaultBudget : ℕ) (i : Fin n) (job : Job ρ) {w : WorkerId}
    {id : JobId} (h : id ∈ pool.postedTo w) :
    id ∈ (Pool.dispatch defaultBudget pool i job).postedTo w := by
  unfold Pool.postedTo at h ⊢
  cases ht : pool.threads w with
  | none =>
      rw [ht] at h
      cases h
  | some t =>
      rw [ht] at h
      by_cases hw : w = (pool.slots i).worker
      · subst hw
        rw [show (Pool.dispatch defaultBudget pool i job).threads (pool.slots i).worker = _ from
          modifyThread_self ht]
        exact List.mem_append_left _ h
      · rw [show (Pool.dispatch defaultBudget pool i job).threads w = some t from
          (modifyThread_of_ne _ hw).trans ht]
        exact h

/-- **The first job of the queue moves to its worker.** -/
theorem Ledger.dispatch (h : Ledger pool) {job : Job ρ} {rest : List (Job ρ)}
    (hqueue : pool.queue = job :: rest) (defaultBudget : ℕ) (i : Fin n) :
    Ledger (Pool.dispatch defaultBudget { pool with queue := rest } i job) := by
  set pool' := Pool.dispatch defaultBudget { pool with queue := rest } i job with hpool'
  have hqueued : job.jobId ∈ pool.queue.map (·.jobId) := by
    rw [hqueue]
    exact List.mem_cons_self
  have hids : pool'.ids.Perm pool.ids := by
    have hpost : pool'.ids = rest.map (·.jobId) ++ (pool.pending.map (·.1) ++
        (job.jobId :: pool.resolved.map (·.1))) := by
      rw [hpool']
      simp [Pool.ids, Pool.dispatch, Pool.modifyThread]
    have hpre : pool.ids = job.jobId :: (rest.map (·.jobId) ++
        (pool.pending.map (·.1) ++ pool.resolved.map (·.1))) := by
      simp [Pool.ids, hqueue]
    rw [hpost, hpre]
    exact (List.Perm.append_left _ List.perm_middle).trans List.perm_middle
  have hposted : ∀ {w id}, id ∈ pool'.postedTo w →
      id ∈ pool.postedTo w ∨ (w = (pool.slots i).worker ∧ id = job.jobId) :=
    fun {w id} hid => @postedTo_dispatch n ρ μ { pool with queue := rest } job defaultBudget i w id hid
  have hnew : ∀ w, job.jobId ∉ pool.postedTo w := fun w hw => h.not_queued w _ hw hqueued
  constructor
  · exact hids.nodup_iff.mpr h.nodup
  · exact fun id hid => h.le_counter id (hids.mem_iff.mp hid)
  · exact fun w hw => modifyThread_none (h.unspawned w hw)
  · intro w id hid
    rcases hposted hid with hold | ⟨-, rfl⟩
    · exact h.posted_le w id hold
    · exact h.le_counter _ (List.mem_append_left _ hqueued)
  · intro w id hid hrest
    rcases hposted hid with hold | ⟨-, rfl⟩
    · refine h.not_queued w id hold ?_
      rw [hqueue]
      exact List.mem_cons_of_mem _ hrest
    · have hnodup := (List.nodup_append.mp h.nodup).1
      rw [hqueue] at hnodup
      exact (List.nodup_cons.mp hnodup).1 hrest
  · intro w w' id hid hid'
    rcases hposted hid with hold | ⟨rfl, rfl⟩
    · rcases hposted hid' with hold' | ⟨rfl, rfl⟩
      · exact h.one_worker w w' id hold hold'
      · exact absurd hold (hnew w)
    · rcases hposted hid' with hold' | ⟨rfl, -⟩
      · exact absurd hold' (hnew w')
      · rfl
  · exact fun r hr => (h.legit r hr).of_postedTo fun _ _ hid =>
      @postedTo_dispatch_of_mem n ρ μ { pool with queue := rest } defaultBudget i job _ _ hid

theorem Ledger.drainQueue (h : Ledger pool) (defaultBudget : ℕ) :
    Ledger (pool.drainQueue defaultBudget) :=
  drainQueue_rule (fun _ _ _ i hpool hqueue _ => hpool.dispatch hqueue defaultBudget i) h

theorem Ledger.submit (h : Ledger pool) (defaultBudget : ℕ) (request : ρ) (label : String)
    (budgetMs : Option ℕ) : Ledger (pool.submit defaultBudget request label budgetMs) := by
  refine Ledger.drainQueue ?_ defaultBudget
  have hids : ((pool.queue ++ [Job.mk (pool.jobIdCounter + 1) request label budgetMs]).map
      (·.jobId) ++ (pool.pending.map (·.1) ++ pool.resolved.map (·.1))).Perm
        ((pool.jobIdCounter + 1) :: pool.ids) := by
    simp [Pool.ids]
  have hfresh : pool.jobIdCounter + 1 ∉ pool.ids := fun hmem =>
    absurd (h.le_counter _ hmem) (Nat.not_succ_le_self _)
  constructor
  · exact hids.nodup_iff.mpr (List.nodup_cons.mpr ⟨hfresh, h.nodup⟩)
  · intro id hid
    rcases List.mem_cons.mp (hids.mem_iff.mp hid) with rfl | hold
    · exact Nat.le_refl _
    · exact Nat.le_succ_of_le (h.le_counter id hold)
  · exact h.unspawned
  · exact fun w id hid => Nat.le_succ_of_le (h.posted_le w id hid)
  · intro w id hid hqueue
    rw [List.map_append] at hqueue
    rcases List.mem_append.mp hqueue with hold | hnew
    · exact h.not_queued w id hid hold
    · have := h.posted_le w id hid
      rw [List.mem_singleton.mp hnew] at this
      exact absurd this (by simp)
  · exact h.one_worker
  · exact h.legit

theorem Ledger.finishJob (h : Ledger pool) (defaultBudget : ℕ) {w : WorkerId} {id : JobId}
    (message : μ) (hposted : id ∈ pool.postedTo w) :
    Ledger (pool.finishJob defaultBudget w id message) := by
  unfold Pool.finishJob
  cases hentry : pool.entry? id with
  | none => exact h
  | some e =>
      obtain ⟨id', entry⟩ := e
      obtain ⟨rfl, -⟩ := entry?_some hentry
      exact ((h.settle (r := .answer w message) hentry hposted).setSlot entry.slot _).drainQueue
        defaultBudget

theorem Ledger.hardKill (h : Ledger pool) (id : JobId) : Ledger (pool.hardKill id) := by
  unfold Pool.hardKill
  cases hentry : pool.entry? id with
  | none => exact h
  | some e =>
      obtain ⟨id', entry⟩ := e
      obtain ⟨rfl, -⟩ := entry?_some hentry
      have hsettled := ((h.settle (r := timedOut entry.label entry.budget) hentry
        ⟨entry.label, .inr ⟨entry.budget, rfl⟩⟩).setSlot entry.slot
          { pool.slots entry.slot with alive := false }).modifyThread
            (pool.slots entry.slot).worker (f := fun t => { t with terminated := true })
            fun _ => rfl
      exact hsettled.transport (List.Perm.refl _) rfl rfl (fun _ => rfl) hsettled.unspawned
        fun _ hr => .inl hr

end Places

/-! ## In every run -/

theorem ledger_initial (n : ℕ) (ρ μ : Type) : Ledger (Pool.initial n ρ μ) := by
  have hposted : ∀ w, (Pool.initial n ρ μ).postedTo w = [] := by
    intro w
    unfold Pool.postedTo Pool.initial
    dsimp only
    split_ifs <;> rfl
  constructor
  · exact List.nodup_nil
  · exact fun id hid => absurd hid (by simp [Pool.ids, Pool.initial])
  · exact fun w hw => dif_neg (Nat.not_lt.mpr hw)
  · exact fun w id hid => absurd (hposted w ▸ hid) (by simp)
  · exact fun w id hid => absurd (hposted w ▸ hid) (by simp)
  · exact fun w w' id hid => absurd (hposted w ▸ hid) (by simp)
  · exact fun r hr => absurd hr (by simp [Pool.initial])

theorem ledger_step {defaultBudget : ℕ} (pool : Pool n ρ μ) (e : Event n ρ μ)
    (pool' : Pool n ρ μ) (h : Ledger pool) (hs : step defaultBudget pool e = some pool') :
    Ledger pool' := by
  cases e with
  | submit request label budgetMs =>
      cases hs
      exact h.submit defaultBudget request label budgetMs
  | ready w =>
      obtain ⟨t, -, -, -, -, rfl⟩ := step_ready hs
      exact ((h.modifyThread w (by intro; rfl)).setSlot t.slot _).drainQueue defaultBudget
  | answer w id message =>
      obtain ⟨t, ht, -, -, -, hposted, rfl⟩ := step_answer hs
      refine (h.modifyThread w (by intro; rfl)).finishJob defaultBudget message ?_
      rw [postedTo_modifyThread (by intro; rfl), postedTo_of_threads ht]
      exact hposted
  | error w =>
      obtain ⟨t, -, -, -, rfl⟩ := step_error hs
      exact (h.modifyThread w (by intro; rfl)).replaceSlot t.slot
  | exit w =>
      obtain ⟨t, -, -, rfl⟩ := step_exit hs
      have hexited := h.modifyThread w (f := fun t => { t with exited := true }) fun _ => rfl
      cases (pool.slots t.slot).alive with
      | true => exact hexited.replaceSlot t.slot
      | false => exact hexited
  | timer id =>
      cases hs
      exact h.hardKill id
  | terminated i w =>
      obtain ⟨t, -, -, -, rfl⟩ := step_terminated hs
      have hkills : Ledger { pool with kills := pool.kills.erase (i, w) } :=
        h.transport (List.Perm.refl _) rfl rfl (fun _ => rfl) h.unspawned fun _ hr => .inl hr
      exact hkills.spawnInto i

theorem ledger_run {defaultBudget : ℕ} {events : List (Event n ρ μ)} {pool : Pool n ρ μ}
    (h : run (step defaultBudget) (Pool.initial n ρ μ) events = some pool) : Ledger pool :=
  run_invariant (step defaultBudget) ledger_step (ledger_initial n ρ μ) h

end Wallermax.Sidecar
