import Wallermax.Sidecar.AutoRenderer

/-!
# One respawn at a time, with backoff

`respawning` is a lock: taken in `request_respawn`, handed to the detached thread and
given back by it, or given back at once when it is too early. Who holds it is the only
one to touch `failures` and `next_attempt`, which so keep up with the spawns that
failed in a row.
-/

namespace Wallermax.Sidecar.Auto

open Wallermax.Base

variable {ε ρ : Type} {s s' : State ε ρ}

/-! ## The spawns that failed in a row -/

/-- How many spawns failed in a row right before the `m`-th. -/
def streak (outcome : ℕ → Option Bool) : ℕ → ℕ
  | 0 => 0
  | m + 1 => if outcome m = some false then streak outcome m + 1 else 0

theorem streak_succ {outcome : ℕ → Option Bool} {m : ℕ} (h : outcome m = some false) :
    streak outcome (m + 1) = streak outcome m + 1 := if_pos h

theorem streak_congr {outcome outcome' : ℕ → Option Bool} {m : ℕ}
    (h : ∀ i < m, outcome' i = outcome i) : streak outcome' m = streak outcome m := by
  induction m with
  | zero => rfl
  | succ m ih =>
      rw [streak, streak, h m (Nat.lt_succ_self m), ih fun i hi => h i (Nat.lt_succ_of_lt hi)]

/-- `k` failures in a row before the `m + k`-th spawn are counted by the streak. -/
theorem le_streak {outcome : ℕ → Option Bool} {m k : ℕ}
    (h : ∀ i < k, outcome (m + i) = some false) : k ≤ streak outcome (m + k) := by
  induction k with
  | zero => exact Nat.zero_le _
  | succ k ih =>
      rw [← Nat.add_assoc, streak_succ (h k (Nat.lt_succ_self k))]
      exact Nat.succ_le_succ (ih fun i hi => h i (Nat.lt_succ_of_lt hi))

theorem respawn_backoff_mono {a b : ℕ} (h : a ≤ b) : respawn_backoff a ≤ respawn_backoff b := by
  have hexp : Nat.min a 5 ≤ Nat.min b 5 := Nat.le_min.mpr
    ⟨(Nat.min_le_left a 5).trans h, Nat.min_le_right a 5⟩
  have hshift : 1 <<< Nat.min a 5 ≤ 1 <<< Nat.min b 5 := by
    rw [Nat.shiftLeft_eq, Nat.shiftLeft_eq]
    exact Nat.mul_le_mul_left 1 (Nat.pow_le_pow_right (by decide) hexp)
  exact Nat.le_min.mpr ⟨(Nat.min_le_left _ _).trans (Nat.mul_le_mul_left _ hshift),
    Nat.min_le_right _ _⟩

/-! ## What is promised -/

/-- The supervisor has at most one spawn in flight. -/
def OneSpawn (s : State ε ρ) : Prop :=
  ∀ i j, s.respawns i = some .spawning → s.respawns j = some .spawning → i = j

/-- After `k` failed spawns in a row, the next one comes `respawn_backoff (k - 1)` after the
last of them or later. -/
def Spaced (s : State ε ρ) : Prop :=
  ∀ k m, 1 ≤ k → m + k < s.requests → (∀ i < k, s.outcome (m + i) = some false) →
    s.requestedAt (m + k - 1) + respawn_backoff (k - 1) ≤ s.requestedAt (m + k)

/-- The counter of failures does not wrap around. -/
def NoWrap (s : State ε ρ) : Event ε ρ → Prop
  | .advanceRespawn j => s.respawns j = some .countFailure → s.failures + 1 < 0x100000000
  | _ => True

/-! ## The lock -/

structure Locked (s : State ε ρ) : Prop where
  one_holder : ∀ r r', Holds s r → Holds s r' → r = r'
  one_thread : ∀ i j, s.respawns i ≠ none → s.respawns j ≠ none → i = j
  apart : ∀ r j, Holds s r → s.respawns j = none
  holder : ∀ r, Holds s r → s.respawning = true
  thread : ∀ j, s.respawns j ≠ none → s.respawning = true

/-! ## The pace -/

/-- The first instant the backoff leaves to the spawn after the `m`-th. -/
def backoffEnd (s : State ε ρ) (m : ℕ) : Instant :=
  s.requestedAt m + respawn_backoff (streak s.outcome m)

/-- Between two spawns. -/
structure Waiting (s : State ε ρ) : Prop where
  failures : s.failures = streak s.outcome s.requests
  next_attempt : ∀ m, m + 1 = s.requests → s.outcome m = some false →
    backoffEnd s m ≤ s.next_attempt

/-- While the `j`-th spawn is under way. -/
def Phase (s : State ε ρ) (j : ℕ) : Respawn → Prop
  | .spawning => s.outcome j = none ∧ s.failures = streak s.outcome j ∧
    backoffEnd s j ≤ s.next_attempt
  | .countFailure => s.outcome j = some false ∧ s.failures = streak s.outcome j ∧
    backoffEnd s j ≤ s.next_attempt
  | .resetFailures => s.outcome j = some true
  | .resetNext | .swap | .bump => s.outcome j = some true ∧ s.failures = 0
  | .release => Waiting s

structure Paced (s : State ε ρ) : Prop where
  unrequested : ∀ j, s.requests ≤ j → s.outcome j = none
  latest : ∀ j, s.respawns j ≠ none → j + 1 = s.requests
  waiting : (∀ j, s.respawns j = none) → Waiting s
  phase : ∀ j respawn, s.respawns j = some respawn → Phase s j respawn
  spaced : ∀ m, m + 1 < s.requests → s.outcome m = some false →
    backoffEnd s m ≤ s.requestedAt (m + 1)

theorem Paced.promise (h : Paced s) : Spaced s := by
  intro k m hk hm hfailed
  obtain ⟨k, rfl⟩ : ∃ j, k = j + 1 := ⟨k - 1, by omega⟩
  have hlast := h.spaced (m + k) hm (hfailed k (Nat.lt_succ_self k))
  have hstreak : k ≤ streak s.outcome (m + k) :=
    le_streak fun i hi => hfailed i (Nat.lt_succ_of_lt hi)
  calc s.requestedAt (m + (k + 1) - 1) + respawn_backoff (k + 1 - 1)
      ≤ backoffEnd s (m + k) := Nat.add_le_add_left (respawn_backoff_mono hstreak) _
    _ ≤ s.requestedAt (m + (k + 1)) := hlast

theorem Locked.promise (h : Locked s) : OneSpawn s := fun i j hi hj =>
  h.one_thread i j (by rw [hi]; exact Option.some_ne_none _) (by rw [hj]; exact Option.some_ne_none _)

/-! ## Steps that leave the supervisor alone -/

/-- The supervisor's own cells and the log of its spawns are the same. -/
structure SameSupervisor (s s' : State ε ρ) : Prop where
  respawning : s'.respawning = s.respawning
  failures : s'.failures = s.failures
  next_attempt : s'.next_attempt = s.next_attempt
  respawns : s'.respawns = s.respawns
  requests : s'.requests = s.requests
  requestedAt : s'.requestedAt = s.requestedAt
  outcome : s'.outcome = s.outcome

theorem Locked.congr (h : Locked s) (hs : SameSupervisor s s') (hholds : ∀ r, Holds s' r → Holds s r) :
    Locked s' where
  one_holder r r' hr hr' := h.one_holder r r' (hholds r hr) (hholds r' hr')
  one_thread i j hi hj := h.one_thread i j (hs.respawns ▸ hi) (hs.respawns ▸ hj)
  apart r j hr := by rw [hs.respawns]; exact h.apart r j (hholds r hr)
  holder r hr := by rw [hs.respawning]; exact h.holder r (hholds r hr)
  thread j hj := by rw [hs.respawning]; exact h.thread j (hs.respawns ▸ hj)

theorem backoffEnd_congr (hrequested : s'.requestedAt = s.requestedAt)
    (houtcome : s'.outcome = s.outcome) (m : ℕ) : backoffEnd s' m = backoffEnd s m := by
  rw [backoffEnd, backoffEnd, hrequested, houtcome]

theorem Waiting.congr (h : Waiting s) (hfailures : s'.failures = s.failures)
    (hnext : s'.next_attempt = s.next_attempt) (hrequests : s'.requests = s.requests)
    (hrequested : s'.requestedAt = s.requestedAt) (houtcome : s'.outcome = s.outcome) :
    Waiting s' where
  failures := by rw [hfailures, houtcome, hrequests]; exact h.failures
  next_attempt m hm hfailed := by
    rw [backoffEnd_congr hrequested houtcome, hnext]
    exact h.next_attempt m (hrequests ▸ hm) (houtcome ▸ hfailed)

theorem Paced.congr (h : Paced s) (hs : SameSupervisor s s') : Paced s' := by
  have hend := backoffEnd_congr hs.requestedAt hs.outcome
  have hwaiting : Waiting s → Waiting s' := fun hw =>
    hw.congr hs.failures hs.next_attempt hs.requests hs.requestedAt hs.outcome
  constructor
  · rw [hs.requests, hs.outcome]
    exact h.unrequested
  · rw [hs.requests, hs.respawns]
    exact h.latest
  · rw [hs.respawns]
    exact fun hnone => hwaiting (h.waiting hnone)
  · intro j respawn hj
    have hphase := h.phase j respawn (hs.respawns ▸ hj)
    cases respawn with
    | release => exact hwaiting hphase
    | _ => simpa only [Phase, hs.outcome, hs.failures, hs.next_attempt, hend] using hphase
  · intro m hm hfailed
    rw [hend, hs.requestedAt]
    exact h.spaced m (hs.requests ▸ hm) (hs.outcome ▸ hfailed)

/-- A render that moves without the slot. -/
theorem supervised_move (h : Locked s ∧ Paced s) (hs : SameSupervisor s s') {r : RenderId}
    {pc : Pc ε ρ} {calls : List (Call ε ρ)}
    (hrenders : s'.renders = Function.update s.renders r (some ⟨pc, calls⟩))
    (hpc : pc.Holding → Holds s r) :
    Locked s' ∧ Paced s' := by
  refine ⟨h.1.congr hs fun r' hr' => ?_, h.2.congr hs⟩
  rcases holds_of_update hrenders hr' with ⟨rfl, hholding⟩ | ⟨-, hold⟩
  · exact hpc hholding
  · exact hold

/-! ## The lock changes hands -/

theorem Locked.free (h : Locked s) (hfree : s.respawning = false) :
    (∀ r, ¬ Holds s r) ∧ ∀ j, s.respawns j = none := by
  refine ⟨fun r hr => ?_, fun j => ?_⟩
  · have := h.holder r hr
    rw [hfree] at this
    cases this
  · by_contra hj
    have := h.thread j hj
    rw [hfree] at this
    cases this

section Holder

variable {r : RenderId} {render : Render ε ρ}

/-- A render takes the slot. -/
theorem supervised_take (h : Locked s ∧ Paced s) (hfree : s.respawning = false) :
    Locked ({ s with respawning := true }.setPc r render .claim) ∧
      Paced ({ s with respawning := true }.setPc r render .claim) := by
  obtain ⟨hnone, hidle⟩ := h.1.free hfree
  have honly : ∀ r', Holds ({ s with respawning := true }.setPc r render .claim) r' → r' = r := by
    intro r' hr'
    rcases holds_of_update (s := s) rfl hr' with ⟨rfl, -⟩ | ⟨-, hold⟩
    · rfl
    · exact absurd hold (hnone r')
  constructor
  · constructor
    · exact fun a b ha hb => (honly a ha).trans (honly b hb).symm
    · exact fun i _ hi => absurd (hidle i) hi
    · exact fun _ j _ => hidle j
    · exact fun _ _ => rfl
    · exact fun _ _ => rfl
  · have hwaiting := h.2.waiting hidle
    constructor
    · exact h.2.unrequested
    · exact h.2.latest
    · exact fun _ => hwaiting.congr rfl rfl rfl rfl rfl
    · intro j respawn hj
      cases (hidle j).symm.trans hj
    · exact h.2.spaced

/-- The holder gives the slot back. -/
theorem supervised_release (h : Locked s ∧ Paced s) (hr : Holds s r) :
    Locked ({ s with respawning := false }.setPc r render .boa) ∧
      Paced ({ s with respawning := false }.setPc r render .boa) := by
  have hidle : ∀ j, s.respawns j = none := fun j => h.1.apart r j hr
  have hnone : ∀ r', ¬ Holds ({ s with respawning := false }.setPc r render .boa) r' := by
    intro r' hr'
    rcases holds_of_update (s := s) rfl hr' with ⟨-, hholding⟩ | ⟨hne, hold⟩
    · exact hholding
    · exact hne (h.1.one_holder r' r hold hr)
  constructor
  · constructor
    · exact fun a _ ha => absurd ha (hnone a)
    · exact fun i _ hi => absurd (hidle i) hi
    · exact fun a _ ha => absurd ha (hnone a)
    · exact fun a ha => absurd ha (hnone a)
    · exact fun j hj => absurd (hidle j) hj
  · have hwaiting := h.2.waiting hidle
    constructor
    · exact h.2.unrequested
    · exact h.2.latest
    · exact fun _ => hwaiting.congr rfl rfl rfl rfl rfl
    · intro j respawn hj
      cases (hidle j).symm.trans hj
    · exact h.2.spaced

/-- **The holder requests a spawn**, which the backoff allows. -/
theorem supervised_grant (h : Locked s ∧ Paced s) (hr : Holds s r)
    (hdue : s.next_attempt ≤ s.clock)
    (hs' : s' = { s with
      next_attempt := s.clock + respawn_backoff s.failures
      respawns := Function.update s.respawns s.requests (some .spawning)
      requests := s.requests + 1
      requestedAt := Function.update s.requestedAt s.requests s.clock }.setPc r render .boa) :
    Locked s' ∧ Paced s' := by
  subst hs'
  set s' := State.setPc _ r render _ with hs'
  have hidle : ∀ j, s.respawns j = none := fun j => h.1.apart r j hr
  have hwaiting := h.2.waiting hidle
  have hnone : ∀ r', ¬ Holds s' r' := by
    intro r' hr'
    rcases holds_of_update (s := s) rfl hr' with ⟨-, hholding⟩ | ⟨hne, hold⟩
    · exact hholding
    · exact hne (h.1.one_holder r' r hold hr)
  have honly : ∀ j, s'.respawns j ≠ none → j = s.requests := by
    intro j hj
    by_contra hne
    exact hj ((Function.update_of_ne hne ..).trans (hidle j))
  have hat : s'.requestedAt s.requests = s.clock := Function.update_self ..
  have hbefore : ∀ m, m ≠ s.requests → s'.requestedAt m = s.requestedAt m := fun m hm =>
    Function.update_of_ne hm ..
  have hend : ∀ m, m ≠ s.requests → backoffEnd s' m = backoffEnd s m := fun m hm =>
    congrArg (· + _) (hbefore m hm)
  constructor
  · constructor
    · exact fun a _ ha => absurd ha (hnone a)
    · exact fun i j hi hj => (honly i hi).trans (honly j hj).symm
    · exact fun a _ ha => absurd ha (hnone a)
    · exact fun a ha => absurd ha (hnone a)
    · exact fun _ _ => h.1.holder r hr
  · constructor
    · exact fun j hj => h.2.unrequested j (Nat.le_of_succ_le hj)
    · intro j hj
      rw [honly j hj]
      rfl
    · intro hall
      have := hall s.requests
      rw [show s'.respawns s.requests = some .spawning from Function.update_self ..] at this
      cases this
    · intro j respawn hj
      obtain rfl : j = s.requests := honly j (by rw [hj]; exact Option.some_ne_none _)
      rw [show s'.respawns s.requests = some .spawning from Function.update_self ..] at hj
      cases hj
      refine ⟨h.2.unrequested _ (Nat.le_refl _), hwaiting.failures, ?_⟩
      show s'.requestedAt s.requests + respawn_backoff (streak s.outcome s.requests) ≤
        s.clock + respawn_backoff s.failures
      rw [hat, hwaiting.failures]
    · intro m hm hfailed
      replace hm : m + 1 < s.requests + 1 := hm
      rw [hend m (by omega)]
      by_cases hlast : m + 1 = s.requests
      · rw [hlast, hat]
        exact (hwaiting.next_attempt m hlast hfailed).trans hdue
      · rw [hbefore _ hlast]
        exact h.2.spaced m (by omega) hfailed

end Holder

/-! ## The respawn thread -/

section Thread

variable {j : ℕ} {respawn : Respawn}

theorem Locked.thread_step (h : Locked s) (hj : s.respawns j ≠ none)
    (hrespawns : s'.respawns = Function.update s.respawns j (some respawn))
    (hrenders : s'.renders = s.renders) (hlock : s'.respawning = s.respawning) : Locked s' := by
  have hholds : ∀ r, Holds s' r → Holds s r := by
    intro r hr
    rw [Holds, hrenders] at hr
    exact hr
  have hthread : ∀ i, s'.respawns i ≠ none → s.respawns i ≠ none := by
    intro i hi
    by_cases hij : i = j
    · rw [hij]
      exact hj
    · rwa [hrespawns, Function.update_of_ne hij] at hi
  constructor
  · exact fun a b ha hb => h.one_holder a b (hholds a ha) (hholds b hb)
  · exact fun a b ha hb => h.one_thread a b (hthread a ha) (hthread b hb)
  · exact fun r i hr => absurd (h.apart r j (hholds r hr)) hj
  · exact fun r hr => hlock ▸ h.holder r (hholds r hr)
  · exact fun i hi => hlock ▸ h.thread i (hthread i hi)

theorem Paced.thread_step (h : Paced s) (hL : Locked s) (hj : s.respawns j ≠ none)
    (hrespawns : s'.respawns = Function.update s.respawns j (some respawn))
    (hrequests : s'.requests = s.requests) (hrequested : s'.requestedAt = s.requestedAt)
    (houtcome : ∀ i, i ≠ j → s'.outcome i = s.outcome i) (hphase : Phase s' j respawn) :
    Paced s' := by
  have hlatest := h.latest j hj
  have hself : s'.respawns j = some respawn := by rw [hrespawns, Function.update_self]
  constructor
  · intro i hi
    rw [hrequests] at hi
    rw [houtcome i (by omega)]
    exact h.unrequested i hi
  · intro i hi
    rw [hrequests]
    by_cases hij : i = j
    · rw [hij]
      exact hlatest
    · rw [hrespawns, Function.update_of_ne hij] at hi
      exact h.latest i hi
  · intro hnone
    rw [hnone j] at hself
    cases hself
  · intro i found hi
    by_cases hij : i = j
    · subst hij
      cases hself.symm.trans hi
      exact hphase
    · rw [hrespawns, Function.update_of_ne hij] at hi
      exact absurd (hL.one_thread i j (by rw [hi]; exact Option.some_ne_none _) hj) hij
  · intro m hm hfailed
    rw [hrequests] at hm
    rw [houtcome m (by omega)] at hfailed
    have hstreak : streak s'.outcome m = streak s.outcome m :=
      streak_congr fun i hi => houtcome i (by omega)
    rw [backoffEnd, hrequested, hstreak]
    exact h.spaced m hm hfailed

/-- A spawn ends. -/
theorem supervised_spawnEnds (h : Locked s ∧ Paced s) (hj : s.respawns j = some .spawning)
    (ok : Bool) :
    let s' := { s with outcome := Function.update s.outcome j (some ok) }.setRespawn j
      (some (if ok then .resetFailures else .countFailure))
    Locked s' ∧ Paced s' := by
  intro s'
  have hsome : s.respawns j ≠ none := by rw [hj]; exact Option.some_ne_none _
  have hself : s'.outcome j = some ok := Function.update_self ..
  have hother : ∀ i, i ≠ j → s'.outcome i = s.outcome i := fun i hi => Function.update_of_ne hi ..
  refine ⟨h.1.thread_step hsome rfl rfl rfl,
    h.2.thread_step h.1 hsome rfl rfl rfl hother ?_⟩
  obtain ⟨-, hfailures, hnext⟩ := h.2.phase j _ hj
  cases ok with
  | true => exact hself
  | false =>
      have hstreak : streak s'.outcome j = streak s.outcome j :=
        streak_congr fun i hi => hother i (Nat.ne_of_lt hi)
      refine ⟨hself, hfailures.trans hstreak.symm, ?_⟩
      show s.requestedAt j + respawn_backoff (streak s'.outcome j) ≤ s.next_attempt
      rw [hstreak]
      exact hnext

/-- After a spawn that succeeded. -/
theorem waiting_of_success (hfailures : s.failures = 0) (hj : j + 1 = s.requests)
    (hok : s.outcome j = some true) : Waiting s where
  failures := by
    rw [hfailures, ← hj, streak, if_neg (by rw [hok]; decide)]
  next_attempt m hm hfailed := by
    obtain rfl : m = j := by omega
    rw [hok] at hfailed
    cases hfailed

/-- After a spawn that failed and was counted. -/
theorem waiting_of_failure (hfailures : s.failures = streak s.outcome j + 1)
    (hj : j + 1 = s.requests) (hfailed : s.outcome j = some false)
    (hnext : backoffEnd s j ≤ s.next_attempt) : Waiting s where
  failures := by rw [hfailures, ← hj, streak_succ hfailed]
  next_attempt m hm _ := by
    obtain rfl : m = j := by omega
    exact hnext

theorem supervised_respawn (h : Locked s ∧ Paced s) (hj : s.respawns j = some respawn)
    (hwrap : respawn = .countFailure → s.failures + 1 < 0x100000000)
    (hs : advanceRespawn s j respawn = some s') : Locked s' ∧ Paced s' := by
  have hsome : s.respawns j ≠ none := by rw [hj]; exact Option.some_ne_none _
  have hphase := h.2.phase j _ hj
  have hlatest := h.2.latest j hsome
  cases respawn with
  | spawning => cases hs
  | resetFailures =>
      cases hs
      exact ⟨h.1.thread_step hsome rfl rfl rfl,
        h.2.thread_step h.1 hsome rfl rfl rfl (fun _ _ => rfl) ⟨hphase, rfl⟩⟩
  | resetNext =>
      cases hs
      exact ⟨h.1.thread_step hsome rfl rfl rfl,
        h.2.thread_step h.1 hsome rfl rfl rfl (fun _ _ => rfl) hphase⟩
  | swap =>
      cases hs
      exact ⟨h.1.thread_step hsome rfl rfl rfl,
        h.2.thread_step h.1 hsome rfl rfl rfl (fun _ _ => rfl) hphase⟩
  | bump =>
      cases hs
      exact ⟨h.1.thread_step hsome rfl rfl rfl, h.2.thread_step h.1 hsome rfl rfl rfl
        (fun _ _ => rfl) (waiting_of_success hphase.2 hlatest hphase.1)⟩
  | countFailure =>
      cases hs
      obtain ⟨hfailed, hfailures, hnext⟩ := hphase
      refine ⟨h.1.thread_step hsome rfl rfl rfl, h.2.thread_step h.1 hsome rfl rfl rfl
        (fun _ _ => rfl) (waiting_of_failure ?_ hlatest hfailed hnext)⟩
      show (s.failures + 1) % 0x100000000 = streak s.outcome j + 1
      rw [Nat.mod_eq_of_lt (hwrap rfl), hfailures]
  | release =>
      cases hs
      have hidle : ∀ i, (s.setRespawn j none).respawns i = none := by
        intro i
        by_cases hij : i = j
        · subst hij
          exact Function.update_self ..
        · by_contra hi
          rw [show (s.setRespawn j none).respawns i = s.respawns i from
            Function.update_of_ne hij ..] at hi
          exact hij (h.1.one_thread i j hi hsome)
      have hnone : ∀ r, ¬ Holds s r := fun r hr => hsome (h.1.apart r j hr)
      constructor
      · constructor
        · exact fun a _ ha => absurd ha (hnone a)
        · exact fun i _ hi => absurd (hidle i) hi
        · exact fun _ i _ => hidle i
        · exact fun a ha => absurd ha (hnone a)
        · exact fun i hi => absurd (hidle i) hi
      · constructor
        · exact h.2.unrequested
        · exact fun i hi => absurd (hidle i) hi
        · exact fun _ => Waiting.congr (s := s) hphase rfl rfl rfl rfl rfl
        · intro i found hi
          cases (hidle i).symm.trans hi
        · exact h.2.spaced

end Thread

/-! ## In every run -/

theorem supervised_advance {r : RenderId} {render : Render ε ρ} (h : Locked s ∧ Paced s)
    (hrender : s.renders r = some render) (hs : advance s r render = some s') :
    Locked s' ∧ Paced s' := by
  obtain ⟨pc, calls⟩ := render
  cases pc with
  | head rounds =>
      cases hs
      exact supervised_move h ⟨rfl, rfl, rfl, rfl, rfl, rfl, rfl⟩ rfl False.elim
  | compare rounds generation =>
      simp only [advance] at hs
      split at hs
      all_goals
        cases hs
        exact supervised_move h ⟨rfl, rfl, rfl, rfl, rfl, rfl, rfl⟩ rfl False.elim
  | revive rounds =>
      cases hs
      exact supervised_move h ⟨rfl, rfl, rfl, rfl, rfl, rfl, rfl⟩ rfl False.elim
  | check rounds =>
      cases hs
      refine supervised_move h ⟨rfl, rfl, rfl, rfl, rfl, rfl, rfl⟩ rfl ?_
      split
      all_goals exact False.elim
  | pick rounds =>
      cases hs
      exact supervised_move h ⟨rfl, rfl, rfl, rfl, rfl, rfl, rfl⟩ rfl False.elim
  | calling rounds sidecar => cases hs
  | failing sidecar =>
      cases hs
      exact supervised_move h ⟨rfl, rfl, rfl, rfl, rfl, rfl, rfl⟩ rfl False.elim
  | unhealthy rounds =>
      simp only [advance] at hs
      split at hs
      all_goals
        cases hs
        exact supervised_move h ⟨rfl, rfl, rfl, rfl, rfl, rfl, rfl⟩ rfl False.elim
  | probe rounds =>
      cases hs
      exact supervised_move h ⟨rfl, rfl, rfl, rfl, rfl, rfl, rfl⟩ rfl False.elim
  | probing rounds sidecar => cases hs
  | recovered rounds =>
      cases hs
      refine supervised_move h ⟨rfl, rfl, rfl, rfl, rfl, rfl, rfl⟩ rfl ?_
      cases rounds
      all_goals exact False.elim
  | request =>
      simp only [advance] at hs
      split at hs
      · cases hs
        exact supervised_move h ⟨rfl, rfl, rfl, rfl, rfl, rfl, rfl⟩ rfl False.elim
      · rename_i hfree
        cases hs
        exact supervised_take h (by simpa using hfree)
  | claim =>
      have hholds : Holds s r := ⟨_, hrender, trivial⟩
      simp only [advance] at hs
      split at hs
      · cases hs
        exact supervised_move h ⟨rfl, rfl, rfl, rfl, rfl, rfl, rfl⟩ rfl fun _ => hholds
      · rename_i hdue
        exact supervised_grant h hholds (Nat.not_lt.mp hdue) (Option.some.inj hs).symm
  | release =>
      cases hs
      exact supervised_release h ⟨_, hrender, trivial⟩
  | boa => cases hs
  | done result => cases hs

/-- **What one step keeps.** -/
theorem supervised_step (s : State ε ρ) (e : Event ε ρ) (s' : State ε ρ)
    (h : Locked s ∧ Paced s) (hwrap : NoWrap s e) (hs : step s e = some s') :
    Locked s' ∧ Paced s' := by
  cases e with
  | tick elapsed =>
      cases hs
      have hsame : SameSupervisor s { s with clock := s.clock + elapsed } :=
        ⟨rfl, rfl, rfl, rfl, rfl, rfl, rfl⟩
      exact ⟨h.1.congr hsame fun _ hr => hr, h.2.congr hsame⟩
  | start r =>
      simp only [step] at hs
      split at hs
      · cases hs
      · cases hs
        exact supervised_move h ⟨rfl, rfl, rfl, rfl, rfl, rfl, rfl⟩ rfl False.elim
  | advance r =>
      simp only [step] at hs
      split at hs
      · cases hs
      · rename_i render hrender
        exact supervised_advance h hrender hs
  | sidecarAnswers r outcome =>
      simp only [step] at hs
      split at hs
      · cases hs
        refine supervised_move h ⟨rfl, rfl, rfl, rfl, rfl, rfl, rfl⟩ rfl ?_
        split
        all_goals exact False.elim
      · cases hs
  | probeAnswers r ok =>
      simp only [step] at hs
      split at hs
      · cases hs
        refine supervised_move h ⟨rfl, rfl, rfl, rfl, rfl, rfl, rfl⟩ rfl ?_
        split
        all_goals exact False.elim
      · cases hs
  | boaAnswers r outcome =>
      simp only [step] at hs
      split at hs
      · cases hs
        exact supervised_move h ⟨rfl, rfl, rfl, rfl, rfl, rfl, rfl⟩ rfl False.elim
      · cases hs
  | spawnEnds j ok =>
      simp only [step] at hs
      split at hs
      · rename_i hj
        cases hs
        exact supervised_spawnEnds h hj ok
      · cases hs
  | advanceRespawn j =>
      simp only [step] at hs
      split at hs
      · cases hs
      · rename_i respawn hj
        exact supervised_respawn h hj (fun hcount => hwrap (hcount ▸ hj)) hs

theorem supervised_initial (ε ρ : Type) (now : Instant) :
    Locked (State.initial ε ρ now) ∧ Paced (State.initial ε ρ now) := by
  have hnone : ∀ r, ¬ Holds (State.initial ε ρ now) r := by
    rintro r ⟨render, hrender, -⟩
    cases hrender
  constructor
  · constructor
    · exact fun a _ ha => absurd ha (hnone a)
    · exact fun i _ hi => absurd rfl hi
    · exact fun _ _ _ => rfl
    · exact fun a ha => absurd ha (hnone a)
    · exact fun i hi => absurd rfl hi
  · constructor
    · exact fun _ _ => rfl
    · exact fun i hi => absurd rfl hi
    · exact fun _ => ⟨rfl, fun m hm => absurd hm (Nat.succ_ne_zero m)⟩
    · intro j respawn hj
      cases hj
    · exact fun m hm => absurd hm (Nat.not_lt_zero _)

end Wallermax.Sidecar.Auto
