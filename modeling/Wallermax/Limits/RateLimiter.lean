import Mathlib.Data.Rat.Floor
import Mathlib.Algebra.Order.Ring.Rat
import Wallermax.Base.HashMap
import Wallermax.Base.Runs
import Wallermax.Base.TokenBucket

/-!
# The per-client rate limiter

A token bucket for each client address, with exact rational tokens. A call of
`try_acquire` reads the clock first and takes the mutex afterwards, so the
instants a bucket is presented with come in lock order, which need not be the
order of the clock.

`last_refill` is overwritten by whatever instant is presented. While no call
presents an instant older than the one stored, every window of `T` seconds
grants at most `C + r * T`; one older instant turns the stored one back, and
the time in between is credited a second time.
-/

namespace Wallermax.Limits

open Wallermax.Base

/-! ## The limiter -/

/-- `Instant`, in nanoseconds from the process's start. -/
abbrev Instant : Type := ℕ

/-- `Duration::as_secs_f64`, exactly. -/
def asSecs (nanos : ℕ) : ℚ := (nanos : ℚ) / 10 ^ 9

/-- `MAX_TRACKED_IPS`. -/
def maxTrackedIps : ℕ := 10000

inductive Decision : Type
  | Allowed (remaining : ℚ)
  | Rejected (retry_after_secs : ℕ)
deriving DecidableEq

def Decision.isAllowed : Decision → Bool
  | .Allowed _ => true
  | .Rejected _ => false

structure Bucket : Type where
  tokens : ℚ
  last_refill : Instant
deriving DecidableEq

structure RateLimiter (IpAddr : Type) : Type where
  capacity : ℚ
  refill_per_second : ℚ
  buckets : HashMap IpAddr Bucket

/-- `Bucket::try_acquire`: refill for the elapsed time, then consume one token.
The subtraction of instants saturates, as `saturating_duration_since` does. -/
def Bucket.tryAcquire (b : Bucket) (now : Instant) (capacity refill_per_second : ℚ) :
    Decision × Bucket :=
  let elapsed := asSecs (now - b.last_refill)
  let tokens := min (b.tokens + elapsed * refill_per_second) capacity
  if 1 ≤ tokens then (.Allowed (tokens - 1), ⟨tokens - 1, now⟩)
  else
    let seconds_until_token := (1 - tokens) / refill_per_second
    -- `as u64` saturates
    (.Rejected (min (max ⌈seconds_until_token⌉ 1).toNat (2 ^ 64 - 1)), ⟨tokens, now⟩)

section

variable {IpAddr : Type} [DecidableEq IpAddr]

/-- `RateLimiter::new`. -/
def RateLimiter.new (capacity : ℕ) (refill_per_second : ℚ) : RateLimiter IpAddr :=
  ⟨capacity, refill_per_second, ∅⟩

/-- `sweep_stale`: drop the buckets that would be full at `now`. -/
def sweepStale (buckets : HashMap IpAddr Bucket) (capacity refill_per_second : ℚ)
    (now : Instant) : HashMap IpAddr Bucket :=
  buckets.retain fun _ bucket =>
    bucket.tokens + asSecs (now - bucket.last_refill) * refill_per_second < capacity

/-- The bound on the map, before `ip` gets an entry: sweep, and if that frees
nothing, reset. The sweep reads the clock for itself. -/
def RateLimiter.makeRoom (l : RateLimiter IpAddr) (clock : Instant) (ip : IpAddr) :
    HashMap IpAddr Bucket :=
  if ip ∉ l.buckets ∧ maxTrackedIps ≤ l.buckets.len then
    let swept := sweepStale l.buckets l.capacity l.refill_per_second clock
    if maxTrackedIps ≤ swept.len then ∅ else swept
  else l.buckets

/-- `RateLimiter::try_acquire_at`. -/
def RateLimiter.tryAcquireAt (l : RateLimiter IpAddr) (clock : Instant) (ip : IpAddr)
    (now : Instant) : Decision × RateLimiter IpAddr :=
  let buckets := l.makeRoom clock ip
  let bucket := (buckets.lookup ip).getD ⟨l.capacity, now⟩
  let answer := bucket.tryAcquire now l.capacity l.refill_per_second
  (answer.1, { l with
    buckets := buckets.insert ip answer.2 })

/-! ## Concurrent calls -/

/-- The limiter, the clock, the calls that have read the clock and wait for the
mutex, and the decisions made, the last one first. -/
structure Server (IpAddr : Type) : Type where
  limiter : RateLimiter IpAddr
  clock : Instant
  waiting : List (IpAddr × Instant)
  decided : List (IpAddr × Instant × Decision)

inductive Label (IpAddr : Type) : Type
  /-- time passes -/
  | tick (nanos : ℕ)
  /-- a call of `try_acquire` reads the clock -/
  | call (ip : IpAddr)
  /-- the waiting call at that place gets the mutex -/
  | acquire (place : ℕ)

def step (s : Server IpAddr) : Label IpAddr → Option (Server IpAddr)
  | .tick nanos => some { s with
      clock := s.clock + nanos }
  | .call ip => some { s with
      waiting := s.waiting ++ [(ip, s.clock)] }
  | .acquire place => s.waiting[place]?.map fun call =>
      let answer := s.limiter.tryAcquireAt s.clock call.1 call.2
      { s with
        limiter := answer.2
        waiting := s.waiting.eraseIdx place
        decided := (call.1, call.2, answer.1) :: s.decided }

/-- A process that has just started. -/
def Server.start (capacity : ℕ) (refill_per_second : ℚ) : Server IpAddr where
  limiter := RateLimiter.new capacity refill_per_second
  clock := 0
  waiting := []
  decided := []

/-- An `Allowed` decision for `ip` at an instant in the window `[s, s + T]`. -/
def AllowedIn (ip : IpAddr) (s T : ℚ) (d : IpAddr × Instant × Decision) : Prop :=
  d.1 = ip ∧ s ≤ asSecs d.2.1 ∧ asSecs d.2.1 ≤ s + T ∧ d.2.2.isAllowed = true

instance (ip : IpAddr) (s T : ℚ) : DecidablePred (AllowedIn ip s T) :=
  fun _ => inferInstanceAs (Decidable (_ ∧ _ ∧ _ ∧ _))

def Server.allowedIn (t : Server IpAddr) (ip : IpAddr) (s T : ℚ) : ℕ :=
  t.decided.countP fun d => AllowedIn ip s T d

/-- The step neither sweeps nor resets the bucket of `ip`. -/
def KeepsBucket (ip : IpAddr) (s : Server IpAddr) : Label IpAddr → Prop
  | .acquire place => ∀ call ∈ s.waiting[place]?,
      ip ∈ s.limiter.buckets → ip ∈ s.limiter.makeRoom s.clock call.1
  | _ => True

/-- The step presents no instant to the bucket of `ip` that is older than its
`last_refill`. -/
def InOrder (ip : IpAddr) (s : Server IpAddr) : Label IpAddr → Prop
  | .acquire place => ∀ call ∈ s.waiting[place]?,
      call.1 = ip → ∀ b ∈ s.limiter.buckets.lookup ip, b.last_refill ≤ call.2
  | _ => True

end

/-! ## A bucket keeps a window account -/

theorem asSecs_le_asSecs {m n : ℕ} (h : m ≤ n) : asSecs m ≤ asSecs n := by
  have hcast : (m : ℚ) ≤ n := Nat.cast_le.mpr h
  exact div_le_div_of_nonneg_right hcast (by norm_num)

theorem asSecs_sub {m n : ℕ} (h : m ≤ n) : asSecs (n - m) = asSecs n - asSecs m := by
  show ((n - m : ℕ) : ℚ) / 10 ^ 9 = (n : ℚ) / 10 ^ 9 - (m : ℚ) / 10 ^ 9
  rw [Nat.cast_sub h, sub_div]

/-- The bucket as an account of credit. -/
def Bucket.account (b : Bucket) : Account ℚ where
  credit := b.tokens
  asOf := asSecs b.last_refill

/-- **Refinement.** Presented with an instant that is not older than
`last_refill`, a bucket accrues the time in between and spends one token when
it has one. -/
theorem Bucket.tryAcquire_account (b : Bucket) {now : Instant} (C r : ℚ)
    (hnow : b.last_refill ≤ now) :
    let a := b.account.accrue C r (asSecs now)
    (b.tryAcquire now C r).1.isAllowed = decide (1 ≤ a.credit) ∧
      (b.tryAcquire now C r).2.account = if 1 ≤ a.credit then a.spend else a := by
  intro a
  have hcredit : a.credit =
      min (b.tokens + asSecs (now - b.last_refill) * r) C := by
    rw [asSecs_sub hnow]
    rfl
  rw [hcredit]
  by_cases hone : 1 ≤ min (b.tokens + asSecs (now - b.last_refill) * r) C
  case pos =>
    have hrun : b.tryAcquire now C r =
        (.Allowed (a.credit - 1), ⟨a.credit - 1, now⟩) := by
      rw [hcredit]
      exact if_pos hone
    rw [hrun, if_pos hone, decide_eq_true hone]
    exact ⟨rfl, rfl⟩
  case neg =>
    have hrun : (b.tryAcquire now C r).1.isAllowed = false ∧
        (b.tryAcquire now C r).2 = ⟨a.credit, now⟩ := by
      rw [hcredit]
      simp only [Bucket.tryAcquire, if_neg hone, Decision.isAllowed, and_self]
    rw [hrun.1, hrun.2, if_neg hone, decide_eq_false hone]
    exact ⟨rfl, rfl⟩

/-- One acquisition in clock order keeps every window account. -/
theorem Bucket.tryAcquire_withinWindow {b : Bucket} {now : Instant} {C r s T : ℚ} {n : ℕ}
    (hr : 0 ≤ r) (hnow : b.last_refill ≤ now)
    (h : b.account.WithinWindow C r s T n) :
    (b.tryAcquire now C r).2.account.WithinWindow C r s T
      (n + if s ≤ asSecs now ∧ asSecs now ≤ s + T ∧
        (b.tryAcquire now C r).1.isAllowed = true then 1 else 0) := by
  have haccrued := h.accrue hr (asSecs_le_asSecs hnow)
  obtain ⟨hallowed, haccount⟩ := b.tryAcquire_account C r hnow
  rw [hallowed, haccount]
  by_cases hone : 1 ≤ (b.account.accrue C r (asSecs now)).credit
  case pos =>
    rw [if_pos hone, decide_eq_true hone]
    by_cases hin : s ≤ asSecs now ∧ asSecs now ≤ s + T
    case pos =>
      rw [if_pos ⟨hin.1, hin.2, rfl⟩]
      exact haccrued.spend_inside hr hone hin.1 hin.2
    case neg =>
      rw [if_neg fun hyp => hin ⟨hyp.1, hyp.2.1⟩]
      exact haccrued.spend_outside hone hin
  case neg =>
    rw [if_neg hone, decide_eq_false hone]
    simpa using haccrued

/-! ## The map of buckets -/

section

variable {IpAddr : Type} [DecidableEq IpAddr]

theorem RateLimiter.makeRoom_of_tracked {l : RateLimiter IpAddr} {ip : IpAddr}
    (clock : Instant) (h : ip ∈ l.buckets) : l.makeRoom clock ip = l.buckets :=
  if_neg fun hsweep => hsweep.1 h

/-- Making room only removes. -/
theorem RateLimiter.lookup_makeRoom {l : RateLimiter IpAddr} {clock : Instant}
    {ip other : IpAddr} {b : Bucket} (h : (l.makeRoom clock other).lookup ip = some b) :
    l.buckets.lookup ip = some b := by
  unfold RateLimiter.makeRoom at h
  split at h
  case isFalse => exact h
  case isTrue =>
    dsimp only at h
    split at h
    case isTrue => cases h
    case isFalse => exact HashMap.lookup_retain_some h

/-- The accounts of one address: nothing was decided for it while it has no
bucket, and its bucket keeps the account of every window. -/
structure Accounted (C r : ℚ) (ip : IpAddr) (t : Server IpAddr) : Prop where
  capacity : t.limiter.capacity = C
  rate : t.limiter.refill_per_second = r
  untracked : ip ∉ t.limiter.buckets → ∀ d ∈ t.decided, d.1 ≠ ip
  tracked : ∀ b ∈ t.limiter.buckets.lookup ip, ∀ s T, 0 ≤ T →
    b.account.WithinWindow C r s T (t.allowedIn ip s T)

theorem Server.allowedIn_eq_zero {t : Server IpAddr} {ip : IpAddr} (s T : ℚ)
    (h : ∀ d ∈ t.decided, d.1 ≠ ip) : t.allowedIn ip s T = 0 := by
  apply List.countP_eq_zero.mpr
  intro d hd hin
  exact h d hd (of_decide_eq_true hin).1

theorem Accounted.start (C : ℕ) (r : ℚ) (ip : IpAddr) :
    Accounted C r ip (Server.start C r) := by
  refine ⟨rfl, rfl, fun _ d hd => absurd hd List.not_mem_nil, ?_⟩
  intro b hb
  cases hb

/-- The bound itself, read off the accounts. -/
theorem Accounted.bound {C r : ℚ} {ip : IpAddr} {t : Server IpAddr}
    (h : Accounted C r ip t) (hC : 0 ≤ C) (hr : 0 ≤ r) {s T : ℚ} (hT : 0 ≤ T) :
    (t.allowedIn ip s T : ℚ) ≤ C + r * T := by
  cases hb : t.limiter.buckets.lookup ip with
  | none =>
      have hzero := t.allowedIn_eq_zero s T (h.untracked (AList.lookup_eq_none.mp hb))
      rw [hzero, Nat.cast_zero]
      exact add_nonneg hC (mul_nonneg hr hT)
  | some b => exact (h.tracked b hb s T hT).bound

/-- One decision more. -/
theorem allowedIn_cons (ip : IpAddr) (s T : ℚ) (d : IpAddr × Instant × Decision)
    (decided : List (IpAddr × Instant × Decision)) :
    (d :: decided).countP (fun d => AllowedIn ip s T d) =
      decided.countP (fun d => AllowedIn ip s T d) + if AllowedIn ip s T d then 1 else 0 := by
  rw [List.countP_cons]
  simp only [decide_eq_true_eq]

/-- The call of another address leaves the accounts of `ip` alone. -/
theorem Accounted.other {C r : ℚ} {ip : IpAddr} {t : Server IpAddr}
    (h : Accounted C r ip t) {call : IpAddr × Instant} (hne : ip ≠ call.1)
    (hkeep : ip ∈ t.limiter.buckets → ip ∈ t.limiter.makeRoom t.clock call.1)
    (waiting : List (IpAddr × Instant)) :
    Accounted C r ip
      ⟨(t.limiter.tryAcquireAt t.clock call.1 call.2).2, t.clock, waiting,
        (call.1, call.2, (t.limiter.tryAcquireAt t.clock call.1 call.2).1) :: t.decided⟩ := by
  have hlookup : ((t.limiter.tryAcquireAt t.clock call.1 call.2).2.buckets).lookup ip =
      (t.limiter.makeRoom t.clock call.1).lookup ip := AList.lookup_insert_ne hne
  refine ⟨h.capacity, h.rate, ?_, ?_⟩
  case refine_1 =>
    intro huntracked
    have hroom : ip ∉ t.limiter.makeRoom t.clock call.1 := by
      rw [← AList.lookup_eq_none] at huntracked ⊢
      exact hlookup ▸ huntracked
    have hbefore := h.untracked fun hin => hroom (hkeep hin)
    intro d hd
    rcases List.mem_cons.mp hd with rfl | hd
    · exact fun heq => hne heq.symm
    · exact hbefore d hd
  case refine_2 =>
    intro b hb s T hT
    have hb' := RateLimiter.lookup_makeRoom (hlookup ▸ hb)
    have hcount := allowedIn_cons ip s T
      (call.1, call.2, (t.limiter.tryAcquireAt t.clock call.1 call.2).1) t.decided
    rw [if_neg fun hin => hne hin.1.symm] at hcount
    show b.account.WithinWindow C r s T (List.countP _ (_ :: t.decided))
    rw [hcount]
    exact h.tracked b hb' s T hT

/-- What a call leaves, from the bucket it is served from. -/
theorem RateLimiter.tryAcquireAt_of_bucket {l : RateLimiter IpAddr} {clock now : Instant}
    {ip : IpAddr} {b : Bucket}
    (hb : ((l.makeRoom clock ip).lookup ip).getD ⟨l.capacity, now⟩ = b) :
    l.tryAcquireAt clock ip now =
      ((b.tryAcquire now l.capacity l.refill_per_second).1,
        { l with
          buckets := (l.makeRoom clock ip).insert ip
            (b.tryAcquire now l.capacity l.refill_per_second).2 }) := by
  rw [← hb]
  rfl

/-- A call in clock order is served from the tracked bucket or a full one, and
either is inside every window. -/
theorem Accounted.served {C r : ℚ} {t : Server IpAddr} {call : IpAddr × Instant}
    (h : Accounted C r call.1 t) (hC : 0 ≤ C) (hr : 0 ≤ r)
    (horder : ∀ b ∈ t.limiter.buckets.lookup call.1, b.last_refill ≤ call.2) :
    ∃ b : Bucket, b.last_refill ≤ call.2 ∧
      (∀ s T, 0 ≤ T → b.account.WithinWindow C r s T (t.allowedIn call.1 s T)) ∧
      ((t.limiter.makeRoom t.clock call.1).lookup call.1).getD
        ⟨t.limiter.capacity, call.2⟩ = b := by
  cases hb : t.limiter.buckets.lookup call.1 with
  | none =>
      -- a new bucket: full, and nothing decided so far
      have huntracked := AList.lookup_eq_none.mp hb
      have hroom : (t.limiter.makeRoom t.clock call.1).lookup call.1 = none := by
        apply Option.eq_none_iff_forall_ne_some.mpr
        intro b hsome
        rw [RateLimiter.lookup_makeRoom hsome] at hb
        cases hb
      refine ⟨⟨C, call.2⟩, le_refl _, ?_, ?_⟩
      · intro s T hT
        rw [t.allowedIn_eq_zero s T (h.untracked huntracked)]
        exact Account.WithinWindow.full hC hr hT _
      · rw [hroom, h.capacity]
        rfl
  | some b =>
      have htracked : call.1 ∈ t.limiter.buckets :=
        AList.lookup_isSome.mp (by rw [hb]; rfl)
      refine ⟨b, horder b hb, h.tracked b hb, ?_⟩
      rw [RateLimiter.makeRoom_of_tracked t.clock htracked, hb]
      rfl

/-- The call of `ip` itself, in clock order. -/
theorem Accounted.own {C r : ℚ} {t : Server IpAddr} {call : IpAddr × Instant}
    (h : Accounted C r call.1 t) (hC : 0 ≤ C) (hr : 0 ≤ r)
    (horder : ∀ b ∈ t.limiter.buckets.lookup call.1, b.last_refill ≤ call.2)
    (waiting : List (IpAddr × Instant)) :
    Accounted C r call.1
      ⟨(t.limiter.tryAcquireAt t.clock call.1 call.2).2, t.clock, waiting,
        (call.1, call.2, (t.limiter.tryAcquireAt t.clock call.1 call.2).1) :: t.decided⟩ := by
  obtain ⟨b, hnow, hwindows, hb⟩ := h.served hC hr horder
  have hacquire := RateLimiter.tryAcquireAt_of_bucket hb
  rw [h.capacity, h.rate] at hacquire
  rw [hacquire]
  refine ⟨rfl, rfl, ?_, ?_⟩
  case refine_1 =>
    intro huntracked
    exact absurd ((AList.mem_insert _).mpr (Or.inl rfl)) huntracked
  case refine_2 =>
    intro b' hb' s T hT
    have heq : b' = (b.tryAcquire call.2 C r).2 := by
      have hinsert := AList.lookup_insert (a := call.1) (b := (b.tryAcquire call.2 C r).2)
        (t.limiter.makeRoom t.clock call.1)
      exact Option.some_inj.mp (hb'.symm.trans hinsert)
    have hcount := allowedIn_cons call.1 s T
      (call.1, call.2, (b.tryAcquire call.2 C r).1) t.decided
    have hstep := Bucket.tryAcquire_withinWindow hr hnow (hwindows s T hT)
    rw [heq]
    show Account.WithinWindow C r s T _ (List.countP _ (_ :: t.decided))
    rw [hcount]
    have hown : AllowedIn call.1 s T (call.1, call.2, (b.tryAcquire call.2 C r).1) ↔
        s ≤ asSecs call.2 ∧ asSecs call.2 ≤ s + T ∧
          (b.tryAcquire call.2 C r).1.isAllowed = true := by
      simp only [AllowedIn, true_and]
    simp only [hown]
    exact hstep

/-- One step that keeps the bucket and presents its instants in order. -/
theorem Accounted.step {C r : ℚ} {ip : IpAddr} {t u : Server IpAddr}
    {label : Label IpAddr} (h : Accounted C r ip t) (hC : 0 ≤ C) (hr : 0 ≤ r)
    (hkeep : KeepsBucket ip t label) (horder : InOrder ip t label)
    (hstep : step t label = some u) : Accounted C r ip u := by
  cases label with
  | tick nanos =>
      cases hstep
      exact ⟨h.capacity, h.rate, h.untracked, h.tracked⟩
  | call other =>
      cases hstep
      exact ⟨h.capacity, h.rate, h.untracked, h.tracked⟩
  | acquire place =>
      obtain ⟨call, hcall, hu⟩ := Option.map_eq_some_iff.mp hstep
      subst hu
      by_cases heq : ip = call.1
      case pos =>
        subst heq
        exact h.own hC hr (horder call hcall rfl) _
      case neg => exact h.other heq (hkeep call hcall) _

/-- **The rate limit holds over every window** of a run that presents each
bucket's instants in clock order: at most `C + r * T` requests of one address
are allowed in `T` seconds. -/
theorem allowedIn_le (C : ℕ) (r : ℚ) (hr : 0 < r) (ip : IpAddr)
    (labels : List (Label IpAddr))
    (hkeep : EachStep step (KeepsBucket ip) (Server.start C r) labels)
    (horder : EachStep step (InOrder ip) (Server.start C r) labels) :
    Throughout step (fun t => ∀ s T, 0 ≤ T → (t.allowedIn ip s T : ℚ) ≤ C + r * T)
      (Server.start C r) labels := by
  have hC : (0 : ℚ) ≤ C := Nat.cast_nonneg C
  have hboth : EachStep step (fun t a => KeepsBucket ip t a ∧ InOrder ip t a)
      (Server.start C r) labels :=
    fun pre a t u hpre hrun hstep =>
      ⟨hkeep pre a t u hpre hrun hstep, horder pre a t u hpre hrun hstep⟩
  have haccounted : Throughout step (Accounted C r ip) (Server.start C r) labels :=
    throughout_of_eachStep step
      (fun t a u ht hc hu => ht.step hC hr.le hc.1 hc.2 hu)
      (Accounted.start C r ip) hboth
  exact haccounted.mono step fun t ht s T hT => ht.bound hC hr.le hT

end

/-! ## An instant out of order -/

instance {IpAddr : Type} [DecidableEq IpAddr] (ip : IpAddr) (s : Server IpAddr)
    (label : Label IpAddr) : Decidable (KeepsBucket ip s label) :=
  match label with
  | .acquire place => inferInstanceAs (Decidable (∀ call ∈ s.waiting[place]?,
        ip ∈ s.limiter.buckets → ip ∈ s.limiter.makeRoom s.clock call.1))
  | .tick _ => isTrue trivial
  | .call _ => isTrue trivial

instance {IpAddr : Type} [DecidableEq IpAddr] (ip : IpAddr) (s : Server IpAddr)
    (label : Label IpAddr) : Decidable (InOrder ip s label) :=
  match label with
  | .acquire place => inferInstanceAs (Decidable (∀ call ∈ s.waiting[place]?,
        call.1 = ip → ∀ b ∈ s.limiter.buckets.lookup ip, b.last_refill ≤ call.2))
  | .tick _ => isTrue trivial
  | .call _ => isTrue trivial

/-- Two calls a millisecond apart, acquired in the order they came. -/
def inTurn : List (Label String) :=
  [.call "198.51.100.7", .acquire 0, .tick 1000000, .call "198.51.100.7", .acquire 0]

theorem allowedIn_le_inTurn :
    EachStep step (KeepsBucket "198.51.100.7") (Server.start 1 1000) inTurn ∧
      EachStep step (InOrder "198.51.100.7") (Server.start 1 1000) inTurn ∧
      Throughout step
        (fun t => ∀ s T, 0 ≤ T →
          (t.allowedIn "198.51.100.7" s T : ℚ) ≤ (1 : ℕ) + 1000 * T)
        (Server.start 1 1000) inTurn := by
  have hkeep : EachStep step (KeepsBucket "198.51.100.7") (Server.start 1 1000) inTurn := by
    have hcheck : checkEachStep step (fun t a => decide (KeepsBucket "198.51.100.7" t a))
        (Server.start 1 1000) inTurn = true := by
      decide +kernel
    simpa using eachStep_of_check step hcheck
  have horder : EachStep step (InOrder "198.51.100.7") (Server.start 1 1000) inTurn := by
    have hcheck : checkEachStep step (fun t a => decide (InOrder "198.51.100.7" t a))
        (Server.start 1 1000) inTurn = true := by
      decide +kernel
    simpa using eachStep_of_check step hcheck
  exact ⟨hkeep, horder,
    allowedIn_le 1 1000 (by norm_num) "198.51.100.7" inTurn hkeep horder⟩

/-- The call that read the clock first gets the mutex a millisecond later, after
a call that read it then; half a millisecond on comes a third one. -/
def backdated : List (Label String) :=
  [.call "198.51.100.7", .tick 1000000, .call "198.51.100.7", .acquire 1, .acquire 0,
    .tick 500000, .call "198.51.100.7", .acquire 0]

/-- With one token and one more each millisecond, the window of half a
millisecond from the second call to the third grants two: the first call turned
`last_refill` back to its own instant. -/
theorem backdated_overgrants :
    EachStep step (KeepsBucket "198.51.100.7") (Server.start 1 1000) backdated ∧
      ¬ Throughout step
        (fun t => ∀ s T, 0 ≤ T →
          (t.allowedIn "198.51.100.7" s T : ℚ) ≤ (1 : ℕ) + 1000 * T)
        (Server.start 1 1000) backdated := by
  constructor
  case left =>
    have hcheck : checkEachStep step (fun t a => decide (KeepsBucket "198.51.100.7" t a))
        (Server.start 1 1000) backdated = true := by
      decide +kernel
    simpa using eachStep_of_check step hcheck
  case right =>
    intro h
    have hcount : (run step (Server.start 1 1000) backdated).map
        (fun t => t.allowedIn "198.51.100.7" (1 / 1000) (1 / 2000)) = some 2 := by
      decide +kernel
    obtain ⟨t, ht, hallowed⟩ := Option.map_eq_some_iff.mp hcount
    have hbound := h backdated t (List.prefix_refl _) ht (1 / 1000) (1 / 2000) (by norm_num)
    rw [hallowed] at hbound
    norm_num at hbound

end Wallermax.Limits
