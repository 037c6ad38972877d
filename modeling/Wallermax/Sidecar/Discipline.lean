import Wallermax.Sidecar.Ledger

/-!
# One worker a slot

What the pool promises of its workers: a slot runs one job at a time, a worker that
was replaced touches nothing of its successor, and once every `terminate()` is over
the live workers are the slots' workers. The handlers act on the slot, so this rests
on when a worker's last events arrive, which `Orderly` says; the run beside the
theorem shows the successor killed by a late exit.
-/

namespace Wallermax.Sidecar

open Wallermax.Base

variable {n : ℕ} {ρ μ : Type}

/-! ## What is promised -/

def Live (pool : Pool n ρ μ) (w : WorkerId) : Prop :=
  ∃ t, pool.threads w = some t ∧ t.exited = false

/-- No `terminate()` is outstanding. -/
def Quiet (pool : Pool n ρ μ) : Prop :=
  pool.kills = [] ∧ ∀ w t, pool.threads w = some t → t.terminated = true → t.exited = true

structure Safe (pool : Pool n ρ μ) : Prop where
  once : (pool.resolved.map (·.1)).Nodup
  legit : ∀ r ∈ pool.resolved, Legit pool r.1 r.2
  one_worker : ∀ w w' id, id ∈ pool.postedTo w → id ∈ pool.postedTo w' → w = w'
  exclusive : (pool.pending.map (·.2.slot)).Nodup
  staffed : Quiet pool →
    (∀ w, Live pool w ↔ ∃ i, (pool.slots i).worker = w) ∧
      ∀ i j, (pool.slots i).worker = (pool.slots j).worker → i = j

/-- The worker an event is about. -/
def Event.worker? : Event n ρ μ → Option WorkerId
  | .submit .. => none
  | .ready w => some w
  | .answer w _ _ => some w
  | .error w => some w
  | .exit w => some w
  | .timer _ => none
  | .terminated _ w => some w

/-- An event of a worker that has been replaced changes that worker only. -/
def Harmless (defaultBudget : ℕ) (pool : Pool n ρ μ) (e : Event n ρ μ) : Prop :=
  ∀ w t pool', e.worker? = some w → pool.threads w = some t → (pool.slots t.slot).worker ≠ w →
    step defaultBudget pool e = some pool' →
      pool'.slots = pool.slots ∧ pool'.queue = pool.queue ∧ pool'.pending = pool.pending ∧
        pool'.resolved = pool.resolved ∧ ∀ w', w' ≠ w → pool'.threads w' = pool.threads w'

/-- When the last events of a worker come in time: no error while its hard kill is under
way, and an exit that finds the slot alive exactly when the slot is still that worker's. -/
def Orderly (pool : Pool n ρ μ) : Event n ρ μ → Prop
  | .error w => ∀ i, (i, w) ∉ pool.kills
  | .exit w => ∀ t, pool.threads w = some t →
    ((pool.slots t.slot).alive = true ↔
      (pool.slots t.slot).worker = w ∧ (t.slot, w) ∉ pool.kills)
  | _ => True

/-! ## The invariant -/

/-- The slot's current worker: it serves, or its hard kill is under way. -/
structure Manned (pool : Pool n ρ μ) (i : Fin n) (t : Thread n) : Prop where
  thread : pool.threads (pool.slots i).worker = some t
  slot : t.slot = i
  failed : t.failed = false
  killed : (i, (pool.slots i).worker) ∈ pool.kills →
    (pool.slots i).alive = false ∧ t.terminated = true ∧ t.ready = true
  serving : (i, (pool.slots i).worker) ∉ pool.kills →
    (pool.slots i).alive = t.ready ∧ t.terminated = false ∧ t.exited = false

/-- A worker that is gone, or on its way out. -/
def Retired (t : Thread n) : Prop :=
  t.exited = true ∨ (t.failed = true ∧ t.terminated = true)

structure InFlight (pool : Pool n ρ μ) (p : JobId × Entry n) : Prop where
  alive : (pool.slots p.2.slot).alive = true
  busy : (pool.slots p.2.slot).busy = true
  posted : p.1 ∈ pool.postedTo (pool.slots p.2.slot).worker

structure Discipline (pool : Pool n ρ μ) : Prop where
  manned : ∀ i, ∃ t, Manned pool i t
  kills_current : ∀ k ∈ pool.kills, k.2 = (pool.slots k.1).worker
  kills_nodup : pool.kills.Nodup
  retired : ∀ w t, pool.threads w = some t → (pool.slots t.slot).worker ≠ w → Retired t
  in_flight : ∀ p ∈ pool.pending, InFlight pool p
  one_each : (pool.pending.map (·.2.slot)).Nodup

/-- A slot whose worker is done with and that is about to be given the next one. -/
structure Vacated (pool : Pool n ρ μ) (i : Fin n) : Prop where
  manned : ∀ j, j ≠ i → ∃ t, Manned pool j t
  kills : ∀ k ∈ pool.kills, k.1 ≠ i ∧ k.2 = (pool.slots k.1).worker
  kills_nodup : pool.kills.Nodup
  retired : ∀ w t, pool.threads w = some t → t.slot = i ∨ (pool.slots t.slot).worker ≠ w →
    Retired t
  in_flight : ∀ p ∈ pool.pending, p.2.slot ≠ i ∧ InFlight pool p
  one_each : (pool.pending.map (·.2.slot)).Nodup

/-- The two differ in what was posted and answered only. -/
structure Agree (t t' : Thread n) : Prop where
  slot : t'.slot = t.slot
  ready : t'.ready = t.ready
  failed : t'.failed = t.failed
  exited : t'.exited = t.exited
  terminated : t'.terminated = t.terminated

/-- The same workers, in the same state, at the same slots. -/
structure SameWorkers (pool pool' : Pool n ρ μ) : Prop where
  worker : ∀ j, (pool'.slots j).worker = (pool.slots j).worker
  alive : ∀ j, (pool'.slots j).alive = (pool.slots j).alive
  kills : pool'.kills = pool.kills
  thread : ∀ w t, pool.threads w = some t → ∃ t', pool'.threads w = some t' ∧ Agree t t'
  back : ∀ w t', pool'.threads w = some t' → ∃ t, pool.threads w = some t ∧ Agree t t'

/-! ## Frames -/

section Frames

variable {pool pool' : Pool n ρ μ}

theorem Agree.refl (t : Thread n) : Agree t t := ⟨rfl, rfl, rfl, rfl, rfl⟩

theorem Manned.congr {j : Fin n} {t t' : Thread n} (h : Manned pool j t)
    (hworker : (pool'.slots j).worker = (pool.slots j).worker)
    (halive : (pool'.slots j).alive = (pool.slots j).alive)
    (hthread : pool'.threads (pool.slots j).worker = some t') (ht : Agree t t')
    (hkills : (j, (pool.slots j).worker) ∈ pool'.kills ↔ (j, (pool.slots j).worker) ∈ pool.kills) :
    Manned pool' j t' where
  thread := by rw [hworker]; exact hthread
  slot := ht.slot.trans h.slot
  failed := ht.failed.trans h.failed
  killed hk := by
    rw [hworker] at hk
    rw [halive, ht.terminated, ht.ready]
    exact h.killed (hkills.mp hk)
  serving hk := by
    rw [hworker] at hk
    rw [halive, ht.terminated, ht.ready, ht.exited]
    exact h.serving fun hmem => hk (hkills.mpr hmem)

theorem InFlight.congr {p : JobId × Entry n} (h : InFlight pool p)
    (hslot : pool'.slots p.2.slot = pool.slots p.2.slot)
    (hposted : p.1 ∈ pool'.postedTo (pool.slots p.2.slot).worker) : InFlight pool' p where
  alive := by rw [hslot]; exact h.alive
  busy := by rw [hslot]; exact h.busy
  posted := by rw [hslot]; exact hposted

/-- The workers of two slots are two workers. -/
theorem Discipline.worker_injective (h : Discipline pool) {i j : Fin n}
    (hij : (pool.slots i).worker = (pool.slots j).worker) : i = j := by
  obtain ⟨t, ht⟩ := h.manned i
  obtain ⟨u, hu⟩ := h.manned j
  have htu : t = u := Option.some.inj (ht.thread.symm.trans (hij ▸ hu.thread))
  exact ht.slot.symm.trans (htu ▸ hu.slot)

/-- A worker that is not on its way out is its slot's. -/
theorem Discipline.current (h : Discipline pool) {w : WorkerId} {t : Thread n}
    (ht : pool.threads w = some t) (hexited : t.exited = false) (hfailed : t.failed = false) :
    (pool.slots t.slot).worker = w := by
  by_contra hne
  rcases h.retired w t ht hne with hgone | ⟨hfail, -⟩
  · rw [hexited] at hgone
    cases hgone
  · rw [hfailed] at hfail
    cases hfail

theorem Discipline.manned_of_current (h : Discipline pool) {w : WorkerId} {t : Thread n}
    (ht : pool.threads w = some t) (hcurrent : (pool.slots t.slot).worker = w) :
    Manned pool t.slot t := by
  obtain ⟨u, hu⟩ := h.manned t.slot
  have htu : t = u := Option.some.inj (ht.symm.trans (hcurrent ▸ hu.thread))
  exact htu ▸ hu

/-- The slot of a job in flight serves. -/
theorem Discipline.not_killed (h : Discipline pool) {p : JobId × Entry n}
    (hp : p ∈ pool.pending) : (p.2.slot, (pool.slots p.2.slot).worker) ∉ pool.kills := by
  intro hk
  obtain ⟨t, ht⟩ := h.manned p.2.slot
  have halive := (h.in_flight p hp).alive
  rw [(ht.killed hk).1] at halive
  cases halive

/-! ## A fresh worker -/

theorem Vacated.spawnInto {i : Fin n} (h : Vacated pool i)
    (hfresh : ∀ w, pool.spawned ≤ w → pool.threads w = none) : Discipline (pool.spawnInto i) := by
  have hself : (pool.spawnInto i).slots i = ⟨false, false, pool.spawned⟩ :=
    Function.update_self ..
  have hother : ∀ j, j ≠ i → (pool.spawnInto i).slots j = pool.slots j := fun j hj =>
    Function.update_of_ne hj ..
  have hnone := hfresh pool.spawned (Nat.le_refl _)
  constructor
  · intro j
    by_cases hj : j = i
    · subst hj
      refine ⟨⟨j, [], [], false, false, false, false⟩, ?_, rfl, rfl, ?_, ?_⟩
      · rw [hself]
        exact threads_spawnInto_self j
      · exact fun hk => absurd rfl (h.kills _ hk).1
      · intro
        rw [hself]
        exact ⟨rfl, rfl, rfl⟩
    · obtain ⟨t, ht⟩ := h.manned j hj
      have hslot := hother j hj
      refine ⟨t, ht.congr (by rw [hslot]) (by rw [hslot])
        ((threads_spawnInto_of_ne i ?_).trans ht.thread) (Agree.refl t) Iff.rfl⟩
      intro hw
      rw [← hw, ht.thread] at hnone
      cases hnone
  · intro k hk
    obtain ⟨hne, hcurrent⟩ := h.kills k hk
    rw [hother _ hne]
    exact hcurrent
  · exact h.kills_nodup
  · intro w t ht hw
    by_cases hspawned : w = pool.spawned
    · subst hspawned
      rw [threads_spawnInto_self] at ht
      cases ht
      rw [hself] at hw
      exact absurd rfl hw
    · rw [threads_spawnInto_of_ne i hspawned] at ht
      refine h.retired w t ht ?_
      by_cases hslot : t.slot = i
      · exact .inl hslot
      · rw [hother _ hslot] at hw
        exact .inr hw
  · intro p hp
    obtain ⟨hne, hflight⟩ := h.in_flight p hp
    refine hflight.congr (hother _ hne) ?_
    rw [postedTo_spawnInto hnone]
    exact hflight.posted
  · exact h.one_each

/-- **Replacing a worker that serves**, after `f` recorded why. -/
theorem Discipline.replaceSlot (h : Discipline pool)
    (hfresh : ∀ w, pool.spawned ≤ w → pool.threads w = none) {i : Fin n} {f : Thread n → Thread n}
    (hposted : ∀ t, (f t).posted = t.posted)
    (hretired : ∀ t, Retired { f t with terminated := true })
    (hserving : (i, (pool.slots i).worker) ∉ pool.kills) :
    Discipline ((pool.modifyThread (pool.slots i).worker f).replaceSlot i) := by
  set w := (pool.slots i).worker with hw
  set pool₁ := ((((pool.modifyThread w f).abandon i).setAlive i false).terminate w) with hpool₁
  have hother : ∀ j, j ≠ i → pool₁.slots j = pool.slots j := fun j hj =>
    Function.update_of_ne hj ..
  have hworker : ∀ j, (pool₁.slots j).worker = (pool.slots j).worker := fun j =>
    worker_setAlive i j false
  have hthread : ∀ w', w' ≠ w → pool₁.threads w' = pool.threads w' := fun w' hw' =>
    (modifyThread_of_ne _ hw').trans (modifyThread_of_ne _ hw')
  have hpost : ∀ w', pool₁.postedTo w' = pool.postedTo w' := fun w' =>
    (postedTo_modifyThread (by intro; rfl) w').trans (postedTo_modifyThread hposted w')
  have hpending : ∀ p, p ∈ pool₁.pending ↔ p ∈ pool.pending ∧ p.2.slot ≠ i := by
    intro p
    show p ∈ pool.pending.filter _ ↔ _
    rw [List.mem_filter]
    simp
  suffices hvacated : Vacated pool₁ i by
    refine hvacated.spawnInto fun w' hw' => ?_
    exact modifyThread_none (modifyThread_none (hfresh w' hw'))
  constructor
  · intro j hj
    obtain ⟨t, ht⟩ := h.manned j
    exact ⟨t, ht.congr (hworker j) (by rw [hother j hj])
      ((hthread _ fun heq => hj (h.worker_injective heq)).trans ht.thread) (Agree.refl t) Iff.rfl⟩
  · intro k hk
    have hcurrent := h.kills_current k hk
    refine ⟨?_, hcurrent.trans (hworker _).symm⟩
    rintro rfl
    exact hserving (by rw [hw, ← hcurrent]; exact hk)
  · exact h.kills_nodup
  · intro w' t ht hleft
    by_cases hself : w' = w
    · subst hself
      obtain ⟨u, hu⟩ := h.manned i
      have hstep := @modifyThread_self _ _ _ pool _ f _ hu.thread
      have hfinal := @modifyThread_self _ _ _ (((pool.modifyThread w f).abandon i).setAlive i false)
        _ (fun t => { t with terminated := true }) _ hstep
      cases hfinal.symm.trans ht
      exact hretired u
    · rw [hthread w' hself] at ht
      refine h.retired w' t ht ?_
      rcases hleft with hi | hne
      · rw [hi]
        exact fun heq => hself heq.symm
      · rw [hworker] at hne
        exact hne
  · intro p hp
    obtain ⟨hmem, hne⟩ := (hpending p).mp hp
    have hflight := h.in_flight p hmem
    refine ⟨hne, hflight.congr (hother _ hne) ?_⟩
    rw [hpost]
    exact hflight.posted
  · exact h.one_each.sublist (List.filter_sublist.map _)

/-! ## The operations -/

theorem Discipline.of_same (h : Discipline pool) (hs : SameWorkers pool pool')
    (hflight : ∀ p ∈ pool'.pending, InFlight pool' p)
    (hone : (pool'.pending.map (·.2.slot)).Nodup) : Discipline pool' where
  manned i := by
    obtain ⟨t, ht⟩ := h.manned i
    obtain ⟨t', ht', hagree⟩ := hs.thread _ t ht.thread
    exact ⟨t', ht.congr (hs.worker i) (hs.alive i) ht' hagree (by rw [hs.kills])⟩
  kills_current k hk := by
    rw [hs.kills] at hk
    rw [hs.worker]
    exact h.kills_current k hk
  kills_nodup := by rw [hs.kills]; exact h.kills_nodup
  retired w t' ht' hne := by
    obtain ⟨t, ht, hagree⟩ := hs.back w t' ht'
    rw [hs.worker, hagree.slot] at hne
    have := h.retired w t ht hne
    rwa [Retired, hagree.exited, hagree.failed, hagree.terminated]
  in_flight := hflight
  one_each := hone

theorem sameWorkers_rfl (hslots : pool'.slots = pool.slots)
    (hthreads : pool'.threads = pool.threads) (hkills : pool'.kills = pool.kills) :
    SameWorkers pool pool' where
  worker j := by rw [hslots]
  alive j := by rw [hslots]
  kills := hkills
  thread w t ht := ⟨t, by rw [hthreads, ht], Agree.refl t⟩
  back w t ht := ⟨t, by rw [← hthreads, ht], Agree.refl t⟩

theorem sameWorkers_modifyThread (w : WorkerId) {f : Thread n → Thread n}
    (hf : ∀ t, Agree t (f t)) : SameWorkers pool (pool.modifyThread w f) where
  worker _ := rfl
  alive _ := rfl
  kills := rfl
  thread w' t ht := by
    by_cases hw : w' = w
    · subst hw
      exact ⟨f t, modifyThread_self ht, hf t⟩
    · exact ⟨t, (modifyThread_of_ne f hw).trans ht, Agree.refl t⟩
  back w' t' ht' := by
    rcases modifyThread_some ht' with ⟨-, hold⟩ | ⟨rfl, t, hold, rfl⟩
    · exact ⟨t', hold, Agree.refl t'⟩
    · exact ⟨t, hold, hf t⟩

theorem SameWorkers.setBusy (h : SameWorkers pool pool') (i : Fin n) (busy : Bool) :
    SameWorkers pool (pool'.setBusy i busy) where
  worker j := (worker_setBusy i j busy).trans (h.worker j)
  alive j := (alive_setBusy i j busy).trans (h.alive j)
  kills := h.kills
  thread := h.thread
  back := h.back

theorem sameWorkers_dispatch (defaultBudget : ℕ) (i : Fin n) (job : Job ρ) :
    SameWorkers pool (Pool.dispatch defaultBudget pool i job) :=
  have hposted : SameWorkers pool (pool.modifyThread (pool.slots i).worker fun t =>
      { t with posted := t.posted ++ [job.jobId] }) :=
    sameWorkers_modifyThread _ fun _ => ⟨rfl, rfl, rfl, rfl, rfl⟩
  have hbusy := hposted.setBusy i true
  ⟨hbusy.worker, hbusy.alive, rfl, hposted.thread, hposted.back⟩

/-- **A free slot takes one job.** -/
theorem Discipline.dispatch (h : Discipline pool) (defaultBudget : ℕ) {i : Fin n}
    (hfree : pool.freeSlot = some i) (job : Job ρ) :
    Discipline (Pool.dispatch defaultBudget pool i job) := by
  obtain ⟨halive, hbusy⟩ := freeSlot_some hfree
  have hsame := @sameWorkers_dispatch n ρ μ pool defaultBudget i job
  have hidle : ∀ p ∈ pool.pending, p.2.slot ≠ i := by
    intro p hp heq
    have := (h.in_flight p hp).busy
    rw [heq, hbusy] at this
    cases this
  refine h.of_same hsame ?_ ?_
  · intro p hp
    rcases List.mem_append.mp hp with hold | hnew
    · refine (h.in_flight p hold).congr (Function.update_of_ne (hidle p hold) ..) ?_
      exact postedTo_dispatch_of_mem defaultBudget i job (h.in_flight p hold).posted
    · rw [List.mem_singleton.mp hnew]
      obtain ⟨t, ht⟩ := h.manned i
      refine ⟨(hsame.alive i).trans halive, ?_, ?_⟩
      · show (Function.update pool.slots i _ i).busy = true
        rw [Function.update_self]
      · rw [hsame.worker]
        show _ ∈ (pool.modifyThread _ _).postedTo (pool.slots i).worker
        rw [postedTo_of_threads (modifyThread_self ht.thread)]
        exact List.mem_append_right _ (List.mem_singleton_self _)
  · show ((pool.pending ++ [_]).map _).Nodup
    rw [List.map_append]
    refine List.Nodup.append h.one_each (List.nodup_singleton _) ?_
    intro j hj hi
    obtain ⟨p, hp, rfl⟩ := List.mem_map.mp hj
    exact hidle p hp (List.mem_singleton.mp hi)

theorem Discipline.drainQueue (h : Discipline pool) (defaultBudget : ℕ) :
    Discipline (pool.drainQueue defaultBudget) := by
  refine drainQueue_rule (fun pool job rest i hpool _ hfree => ?_) h
  have hsame : SameWorkers pool { pool with queue := rest } := sameWorkers_rfl rfl rfl rfl
  have hrest := hpool.of_same hsame (fun p hp => (hpool.in_flight p hp).congr rfl
    (hpool.in_flight p hp).posted) hpool.one_each
  exact hrest.dispatch defaultBudget hfree job

/-- What is left in flight once a job is taken out is on the other slots. -/
theorem Discipline.forget (h : Discipline pool) {id : JobId} {entry : Entry n}
    (hentry : pool.entry? id = some (id, entry)) :
    (∀ p ∈ (pool.forget id).pending, p.2.slot ≠ entry.slot ∧ InFlight pool p) ∧
      ((pool.forget id).pending.map (·.2.slot)).Nodup := by
  have hperm := pending_perm_forget hentry
  have hnodup := (hperm.map (·.2.slot)).nodup_iff.mp h.one_each
  obtain ⟨hnot, hrest⟩ := List.nodup_cons.mp hnodup
  refine ⟨fun p hp => ⟨fun heq => ?_, ?_⟩, hrest⟩
  · exact hnot (List.mem_map.mpr ⟨p, hp, heq⟩)
  · exact h.in_flight p (hperm.mem_iff.mpr (List.mem_cons_of_mem _ hp))

theorem Discipline.finishJob (h : Discipline pool) (defaultBudget : ℕ) (w : WorkerId) (id : JobId)
    (message : μ) : Discipline (pool.finishJob defaultBudget w id message) := by
  unfold Pool.finishJob
  cases hentry : pool.entry? id with
  | none => exact h
  | some e =>
      obtain ⟨id', entry⟩ := e
      obtain ⟨rfl, -⟩ := entry?_some hentry
      obtain ⟨hothers, hone⟩ := h.forget hentry
      refine Discipline.drainQueue ?_ defaultBudget
      have hsame : SameWorkers pool (pool.forget id') := sameWorkers_rfl rfl rfl rfl
      have hbusy := hsame.setBusy entry.slot false
      refine h.of_same ⟨hbusy.worker, hbusy.alive, rfl, hbusy.thread, hbusy.back⟩ ?_ hone
      intro p hp
      obtain ⟨hne, hflight⟩ := hothers p hp
      exact hflight.congr (Function.update_of_ne hne ..) hflight.posted

/-- **A hard kill** leaves its worker marked and on its way out. -/
theorem Discipline.hardKill (h : Discipline pool) (id : JobId) : Discipline (pool.hardKill id) := by
  unfold Pool.hardKill
  cases hentry : pool.entry? id with
  | none => exact h
  | some e =>
      obtain ⟨id', entry⟩ := e
      obtain ⟨rfl, hmem⟩ := entry?_some hentry
      obtain ⟨hothers, hone⟩ := h.forget hentry
      have hserving := h.not_killed hmem
      have halive := (h.in_flight _ hmem).alive
      dsimp only at hserving halive ⊢
      set i := entry.slot
      set w := (pool.slots i).worker
      set pool' : Pool n ρ μ := { (((pool.forget id').setAlive i false).terminate w).resolve
        [(id', timedOut entry.label entry.budget)] with kills := pool.kills ++ [(i, w)] }
      have hworker : ∀ j, (pool'.slots j).worker = (pool.slots j).worker := fun j =>
        worker_setAlive i j false
      have hother : ∀ j, j ≠ i → pool'.slots j = pool.slots j := fun j hj =>
        slots_setSlot_of_ne _ hj
      have hdead : (pool'.slots i).alive = false :=
        congrArg Slot.alive (slots_setSlot_self i _)
      constructor
      · intro j
        obtain ⟨t, ht⟩ := h.manned j
        by_cases hj : j = i
        · subst hj
          obtain ⟨hready, -, -⟩ := ht.serving hserving
          refine ⟨{ t with terminated := true }, ?_, ht.slot, ht.failed, fun _ => ?_, fun hk => ?_⟩
          · rw [hworker]
            exact modifyThread_self ht.thread
          · exact ⟨hdead, rfl, hready.symm.trans halive⟩
          · rw [hworker] at hk
            exact absurd (List.mem_append_right _ (List.mem_singleton_self _)) hk
        · refine ⟨t, ht.congr (hworker j) (congrArg Slot.alive (hother j hj)) ?_ (Agree.refl t) ?_⟩
          · exact (modifyThread_of_ne _ fun heq => hj (h.worker_injective heq)).trans ht.thread
          · show _ ∈ pool.kills ++ [(i, w)] ↔ _
            rw [List.mem_append, List.mem_singleton, Prod.mk.injEq]
            exact or_iff_left fun heq => hj heq.1
      · intro k hk
        rw [hworker]
        rcases List.mem_append.mp hk with hold | hnew
        · exact h.kills_current k hold
        · rw [List.mem_singleton.mp hnew]
      · refine List.Nodup.append h.kills_nodup (List.nodup_singleton _) ?_
        intro k hk hnew
        rw [List.mem_singleton.mp hnew] at hk
        exact hserving hk
      · intro w' t ht hne
        rw [hworker] at hne
        rcases modifyThread_some ht with ⟨-, hold⟩ | ⟨rfl, t₀, hold, rfl⟩
        · exact h.retired w' t hold hne
        · obtain ⟨u, hu⟩ := h.manned i
          cases hu.thread.symm.trans hold
          exact absurd (congrArg (fun j => (pool.slots j).worker) hu.slot) hne
      · intro p hp
        obtain ⟨hne, hflight⟩ := hothers p hp
        refine hflight.congr (hother _ hne) ?_
        show p.1 ∈ (pool.modifyThread w fun t => { t with terminated := true }).postedTo _
        rw [postedTo_modifyThread (by intro; rfl)]
        exact hflight.posted
      · exact hone

end Frames

/-! ## One event -/

section OneEvent

variable {pool pool' : Pool n ρ μ} {defaultBudget : ℕ}

/-- A worker that gets ready makes its slot alive. -/
theorem Discipline.ready (h : Discipline pool) {w : WorkerId} {t : Thread n}
    (ht : pool.threads w = some t) (hready : t.ready = false) (hfailed : t.failed = false)
    (hexited : t.exited = false) :
    Discipline ((pool.modifyThread w fun t => { t with ready := true }).setAlive t.slot true) := by
  have hcurrent := h.current ht hexited hfailed
  have hmanned := h.manned_of_current ht hcurrent
  have hserving : (t.slot, (pool.slots t.slot).worker) ∉ pool.kills := by
    intro hk
    rw [(hmanned.killed hk).2.2] at hready
    cases hready
  set i := t.slot
  set pool₁ := (pool.modifyThread w fun t => { t with ready := true }).setAlive i true with hpool₁
  have hworker : ∀ j, (pool₁.slots j).worker = (pool.slots j).worker := fun j =>
    worker_setAlive i j true
  have hother : ∀ j, j ≠ i → pool₁.slots j = pool.slots j := fun j hj =>
    slots_setSlot_of_ne _ hj
  constructor
  · intro j
    by_cases hj : j = i
    · subst hj
      obtain ⟨-, hterminated, hlive⟩ := hmanned.serving hserving
      refine ⟨{ t with ready := true }, ?_, rfl, hfailed, fun hk => ?_, fun _ => ?_⟩
      · rw [hworker, hcurrent]
        exact modifyThread_self ht
      · rw [hworker] at hk
        exact absurd hk hserving
      · exact ⟨congrArg Slot.alive (slots_setSlot_self _ _), hterminated, hlive⟩
    · obtain ⟨u, hu⟩ := h.manned j
      refine ⟨u, hu.congr (hworker j) (congrArg Slot.alive (hother j hj)) ?_ (Agree.refl u) Iff.rfl⟩
      refine (modifyThread_of_ne _ fun heq => hj ?_).trans hu.thread
      exact h.worker_injective (heq.trans hcurrent.symm)
  · intro k hk
    rw [hworker]
    exact h.kills_current k hk
  · exact h.kills_nodup
  · intro w' u hu hne
    rw [hworker] at hne
    rcases modifyThread_some hu with ⟨-, hold⟩ | ⟨rfl, u₀, hold, rfl⟩
    · exact h.retired w' u hold hne
    · cases ht.symm.trans hold
      exact absurd hcurrent hne
  · intro p hp
    have hflight := h.in_flight p hp
    have hne : p.2.slot ≠ i := by
      intro heq
      have halive := hflight.alive
      rw [heq, (hmanned.serving hserving).1, hready] at halive
      cases halive
    refine hflight.congr (hother _ hne) ?_
    show p.1 ∈ (pool.modifyThread w fun t => { t with ready := true }).postedTo _
    rw [postedTo_modifyThread (by intro; rfl)]
    exact hflight.posted
  · exact h.one_each

/-- An exit that leaves its slot alone. -/
theorem Discipline.exit (h : Discipline pool) {w : WorkerId} {t : Thread n}
    (ht : pool.threads w = some t)
    (hdead : ¬ ((pool.slots t.slot).worker = w ∧ (t.slot, w) ∉ pool.kills)) :
    Discipline (pool.modifyThread w fun t => { t with exited := true }) := by
  constructor
  · intro j
    obtain ⟨u, hu⟩ := h.manned j
    by_cases hw : (pool.slots j).worker = w
    · subst hw
      cases ht.symm.trans hu.thread
      have hkilled : (j, (pool.slots j).worker) ∈ pool.kills := by
        by_contra hserving
        rw [hu.slot] at hdead
        exact hdead ⟨rfl, hserving⟩
      exact ⟨{ t with exited := true }, modifyThread_self ht, hu.slot, hu.failed, hu.killed,
        fun hk => absurd hkilled hk⟩
    · exact ⟨u, hu.congr rfl rfl ((modifyThread_of_ne _ hw).trans hu.thread) (Agree.refl u) Iff.rfl⟩
  · exact h.kills_current
  · exact h.kills_nodup
  · intro w' u hu hne
    rcases modifyThread_some hu with ⟨-, hold⟩ | ⟨rfl, u₀, -, rfl⟩
    · exact h.retired w' u hold hne
    · exact .inl rfl
  · intro p hp
    refine (h.in_flight p hp).congr rfl ?_
    rw [postedTo_modifyThread (by intro; rfl)]
    exact (h.in_flight p hp).posted
  · exact h.one_each

/-- A hard kill that is over leaves its slot to the next worker. -/
theorem Discipline.vacate (h : Discipline pool) {i : Fin n} {w : WorkerId} {t : Thread n}
    (ht : pool.threads w = some t) (hk : (i, w) ∈ pool.kills) (hexited : t.exited = true) :
    Vacated { pool with kills := pool.kills.erase (i, w) } i := by
  have hcurrent : w = (pool.slots i).worker := h.kills_current _ hk
  have hmem : ∀ k, k ∈ pool.kills.erase (i, w) ↔ k ≠ (i, w) ∧ k ∈ pool.kills := fun k =>
    h.kills_nodup.mem_erase_iff
  constructor
  · intro j hj
    obtain ⟨u, hu⟩ := h.manned j
    refine ⟨u, hu.congr rfl rfl hu.thread (Agree.refl u) ?_⟩
    rw [hmem]
    exact and_iff_right fun heq => hj (congrArg Prod.fst heq)
  · intro k hk'
    obtain ⟨hne, hold⟩ := (hmem k).mp hk'
    refine ⟨fun hi => hne ?_, h.kills_current k hold⟩
    have hsecond := h.kills_current k hold
    rw [hi, ← hcurrent] at hsecond
    exact Prod.ext hi hsecond
  · exact h.kills_nodup.erase _
  · intro w' u hu hleft
    by_cases hw : w' = w
    · subst hw
      cases ht.symm.trans hu
      exact .inl hexited
    · refine h.retired w' u hu ?_
      rcases hleft with hi | hne
      · rw [hi, ← hcurrent]
        exact fun heq => hw heq.symm
      · exact hne
  · intro p hp
    refine ⟨fun hi => h.not_killed hp ?_, (h.in_flight p hp).congr rfl (h.in_flight p hp).posted⟩
    rw [hi, ← hcurrent]
    exact hk
  · exact h.one_each

theorem Ledger.fresh (h : Ledger pool) (w : WorkerId) (f : Thread n → Thread n) :
    ∀ w', (pool.modifyThread w f).spawned ≤ w' → (pool.modifyThread w f).threads w' = none :=
  fun w' hw' => modifyThread_none (h.unspawned w' hw')

/-- **What one orderly event keeps.** -/
theorem discipline_step {e : Event n ρ μ} (hL : Ledger pool) (h : Discipline pool)
    (he : Orderly pool e) (hs : step defaultBudget pool e = some pool') : Discipline pool' := by
  cases e with
  | submit request label budgetMs =>
      cases hs
      refine Discipline.drainQueue ?_ defaultBudget
      exact h.of_same (sameWorkers_rfl rfl rfl rfl) (fun p hp => (h.in_flight p hp).congr rfl
        (h.in_flight p hp).posted) h.one_each
  | ready w =>
      obtain ⟨t, ht, hready, hfailed, hexited, rfl⟩ := step_ready hs
      exact (h.ready ht hready hfailed hexited).drainQueue defaultBudget
  | answer w id message =>
      obtain ⟨t, -, -, -, -, -, rfl⟩ := step_answer hs
      refine Discipline.finishJob ?_ defaultBudget w id message
      refine h.of_same (sameWorkers_modifyThread w (by intro; exact ⟨rfl, rfl, rfl, rfl, rfl⟩))
        (fun p hp => (h.in_flight p hp).congr rfl ?_) h.one_each
      rw [postedTo_modifyThread (by intro; rfl)]
      exact (h.in_flight p hp).posted
  | error w =>
      obtain ⟨t, ht, hfailed, hexited, rfl⟩ := step_error hs
      have hcurrent := h.current ht hexited hfailed
      subst hcurrent
      exact h.replaceSlot hL.unspawned (by intro; rfl) (fun _ => .inr ⟨rfl, rfl⟩) (he t.slot)
  | exit w =>
      obtain ⟨t, ht, hexited, rfl⟩ := step_exit hs
      have hiff := he t ht
      cases halive : (pool.slots t.slot).alive with
      | true =>
          obtain ⟨hcurrent, hserving⟩ := hiff.mp halive
          subst hcurrent
          exact h.replaceSlot hL.unspawned (by intro; rfl) (fun _ => .inl rfl) hserving
      | false =>
          refine h.exit ht fun hcurrent => ?_
          rw [hiff.mpr hcurrent] at halive
          cases halive
  | timer id =>
      cases hs
      exact h.hardKill id
  | terminated i w =>
      obtain ⟨t, ht, hk, hexited, rfl⟩ := step_terminated hs
      exact (h.vacate ht hk hexited).spawnInto hL.unspawned

theorem harmless_of_discipline {e : Event n ρ μ} (h : Discipline pool) (he : Orderly pool e) :
    Harmless defaultBudget pool e := by
  intro w t pool' hw ht hreplaced hs
  cases e with
  | submit request label budgetMs => cases hw
  | timer id => cases hw
  | ready w =>
      cases hw
      obtain ⟨u, hu, -, hfailed, hexited, -⟩ := step_ready hs
      cases ht.symm.trans hu
      exact absurd (h.current ht hexited hfailed) hreplaced
  | answer w id message =>
      cases hw
      obtain ⟨u, hu, -, hfailed, hexited, -⟩ := step_answer hs
      cases ht.symm.trans hu
      exact absurd (h.current ht hexited hfailed) hreplaced
  | error w =>
      cases hw
      obtain ⟨u, hu, hfailed, hexited, -⟩ := step_error hs
      cases ht.symm.trans hu
      exact absurd (h.current ht hexited hfailed) hreplaced
  | exit w =>
      cases hw
      obtain ⟨u, hu, hexited, rfl⟩ := step_exit hs
      cases ht.symm.trans hu
      cases halive : (pool.slots t.slot).alive with
      | true => exact absurd ((he t ht).mp halive).1 hreplaced
      | false => exact ⟨rfl, rfl, rfl, rfl, fun w' hw' => modifyThread_of_ne _ hw'⟩
  | terminated i w =>
      cases hw
      obtain ⟨u, hu, hk, -, -⟩ := step_terminated hs
      cases ht.symm.trans hu
      have hcurrent : w = (pool.slots i).worker := h.kills_current _ hk
      subst hcurrent
      obtain ⟨v, hv⟩ := h.manned i
      cases ht.symm.trans hv.thread
      rw [hv.slot] at hreplaced
      exact absurd rfl hreplaced

theorem safe_of_discipline (hL : Ledger pool) (h : Discipline pool) : Safe pool where
  once := by
    have hids := hL.nodup
    rw [Pool.ids] at hids
    exact (List.nodup_append.mp (List.nodup_append.mp hids).2.1).2.1
  legit := hL.legit
  one_worker := hL.one_worker
  exclusive := h.one_each
  staffed hquiet := by
    obtain ⟨hkills, hterminated⟩ := hquiet
    refine ⟨fun w => ⟨?_, ?_⟩, fun i j hij => h.worker_injective hij⟩
    · rintro ⟨t, ht, hexited⟩
      refine ⟨t.slot, ?_⟩
      by_contra hne
      have hgone : t.exited = true := by
        rcases h.retired w t ht hne with hgone | ⟨-, hterm⟩
        · exact hgone
        · exact hterminated w t ht hterm
      rw [hexited] at hgone
      cases hgone
    · rintro ⟨i, rfl⟩
      obtain ⟨t, ht⟩ := h.manned i
      refine ⟨t, ht.thread, (ht.serving ?_).2.2⟩
      rw [hkills]
      exact List.not_mem_nil

end OneEvent

/-! ## In every orderly run -/

theorem discipline_initial (n : ℕ) (ρ μ : Type) : Discipline (Pool.initial n ρ μ) := by
  constructor
  · intro i
    refine ⟨⟨i, [], [], false, false, false, false⟩, dif_pos i.isLt, rfl, rfl, ?_, ?_⟩
    · exact fun hk => absurd hk List.not_mem_nil
    · exact fun _ => ⟨rfl, rfl, rfl⟩
  · exact fun k hk => absurd hk List.not_mem_nil
  · exact List.nodup_nil
  · intro w t ht hne
    simp only [Pool.initial] at ht
    split at ht
    · cases ht
      exact absurd rfl hne
    · cases ht
  · exact fun p hp => absurd hp List.not_mem_nil
  · exact List.nodup_nil

/-- **The worker pool.** In every run whose events all come in time, every state is safe
and no event of a replaced worker touches its successor. -/
theorem pool_safe (n : ℕ) (ρ μ : Type) (defaultBudget : ℕ) (events : List (Event n ρ μ))
    (h : EachStep (step defaultBudget) Orderly (Pool.initial n ρ μ) events) :
    Throughout (step defaultBudget) Safe (Pool.initial n ρ μ) events ∧
      EachStep (step defaultBudget) (Harmless defaultBudget) (Pool.initial n ρ μ) events := by
  have hkeep : ∀ (pool : Pool n ρ μ) e pool', Ledger pool ∧ Discipline pool → Orderly pool e →
      step defaultBudget pool e = some pool' → Ledger pool' ∧ Discipline pool' :=
    fun pool e pool' hI he hs =>
      ⟨ledger_step pool e pool' hI.1 hs, discipline_step hI.1 hI.2 he hs⟩
  have hinit : Ledger (Pool.initial n ρ μ) ∧ Discipline (Pool.initial n ρ μ) :=
    ⟨ledger_initial n ρ μ, discipline_initial n ρ μ⟩
  have hthroughout := throughout_of_eachStep (step defaultBudget) hkeep hinit h
  refine ⟨hthroughout.mono _ fun pool hI => safe_of_discipline hI.1 hI.2, ?_⟩
  intro pre e pool pool' hpre hrun hs
  have hprefix : pre <+: events := (List.prefix_append pre [e]).trans hpre
  exact harmless_of_discipline (hthroughout pre pool hprefix hrun).2
    (h pre e pool pool' hpre hrun hs)

instance (pool : Pool n ρ μ) : (e : Event n ρ μ) → Decidable (Orderly pool e)
  | .submit .. => isTrue trivial
  | .ready _ => isTrue trivial
  | .answer .. => isTrue trivial
  | .error w => Nat.decidableForallFin fun i => (i, w) ∉ pool.kills
  | .exit w =>
    match h : pool.threads w with
    | none => isTrue fun t ht => by rw [h] at ht; cases ht
    | some t =>
      decidable_of_iff ((pool.slots t.slot).alive = true ↔
          (pool.slots t.slot).worker = w ∧ (t.slot, w) ∉ pool.kills)
        ⟨fun hiff u hu => by rw [h] at hu; cases hu; exact hiff, fun hall => hall t h⟩
  | .timer _ => isTrue trivial
  | .terminated .. => isTrue trivial

/-- A render runs into its budget, its worker is terminated and the next one answers. -/
def timeoutRun : List (Event 1 Unit Unit) :=
  [.ready 0, .submit () "loop" none, .timer 1, .submit () "page" none, .exit 0, .terminated 0 0,
    .ready 1, .answer 1 2 ()]

theorem pool_safe_timeout :
    Throughout (step 5000) Safe (Pool.initial 1 Unit Unit) timeoutRun ∧
      EachStep (step 5000) (Harmless 5000) (Pool.initial 1 Unit Unit) timeoutRun :=
  pool_safe 1 Unit Unit 5000 timeoutRun fun pre e pool pool' hpre hrun hs =>
    of_decide_eq_true (eachStep_of_check (step 5000) (c := fun pool e => decide (Orderly pool e))
      (by decide) pre e pool pool' hpre hrun hs)

/-- A worker fails and its successor gets ready and takes a job before the exit of the
failed one arrives. -/
def lateExit : List (Event 1 Unit Unit) :=
  [.ready 0, .error 0, .ready 1, .submit () "page" none, .exit 0]

/-- The exit of worker 0 terminates worker 1 and gives up its job. -/
theorem late_exit_kills_successor :
    ¬ (Throughout (step 5000) Safe (Pool.initial 1 Unit Unit) lateExit ∧
      EachStep (step 5000) (Harmless 5000) (Pool.initial 1 Unit Unit) lateExit) := by
  rintro ⟨-, h⟩
  have hframe := h [.ready 0, .error 0, .ready 1, .submit () "page" none] (.exit 0) _ _
    (List.prefix_refl _) rfl rfl 0 _ _ rfl rfl (by decide) rfl
  exact absurd (congrArg (fun slots => (slots 0).worker) hframe.1) (by decide)

end Wallermax.Sidecar
