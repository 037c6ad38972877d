import Wallermax.Limits.RateLimiter

/-!
# The limiter without a bound

The bounded limiter against a table that has a bucket for every address that ever called
and forgets none. A sweep forgets the buckets that are full at its own instant. To every
call from then on such a bucket is a fresh one, so the two answer alike until a reset.
-/

namespace Wallermax.Limits

open Wallermax.Base

/-- A call of `try_acquire_at`; the clock is read if the call has to sweep. -/
structure AcquireCall (IpAddr : Type) : Type where
  clock : Instant
  ip : IpAddr
  now : Instant

section

variable {IpAddr : Type} [DecidableEq IpAddr]

/-! ## Runs -/

def RateLimiter.call (l : RateLimiter IpAddr) (c : AcquireCall IpAddr) :
    Decision × RateLimiter IpAddr :=
  l.tryAcquireAt c.clock c.ip c.now

def RateLimiter.after (l : RateLimiter IpAddr) (calls : List (AcquireCall IpAddr)) :
    RateLimiter IpAddr :=
  calls.foldl (fun l c => (l.call c).2) l

def RateLimiter.decisions (l : RateLimiter IpAddr) : List (AcquireCall IpAddr) → List Decision
  | [] => []
  | c :: calls => (l.call c).1 :: (l.call c).2.decisions calls

/-- The call finds the table full of buckets that are not: it takes the reset branch. -/
def RateLimiter.Resets (l : RateLimiter IpAddr) (c : AcquireCall IpAddr) : Prop :=
  (c.ip ∉ l.buckets ∧ maxTrackedIps ≤ l.buckets.len) ∧
    maxTrackedIps ≤ (sweepStale l.buckets l.capacity l.refill_per_second c.clock).len

instance (l : RateLimiter IpAddr) (c : AcquireCall IpAddr) : Decidable (l.Resets c) :=
  inferInstanceAs (Decidable ((_ ∧ _) ∧ _))

def RateLimiter.NeverResets (l : RateLimiter IpAddr) : List (AcquireCall IpAddr) → Prop
  | [] => True
  | c :: calls => ¬ l.Resets c ∧ (l.call c).2.NeverResets calls

/-- No call presents an instant that is older than what a sweep before it has read. -/
def SweepsBehind (calls : List (AcquireCall IpAddr)) : Prop :=
  calls.Pairwise fun c d => c.clock ≤ d.now

/-! ## The ideal table -/

/-- One bucket for each address, of any number of them. -/
structure IdealLimiter (IpAddr : Type) : Type where
  capacity : ℚ
  refill_per_second : ℚ
  bucket : IpAddr → Option Bucket

def IdealLimiter.new (capacity : ℕ) (refill_per_second : ℚ) : IdealLimiter IpAddr :=
  ⟨capacity, refill_per_second, fun _ => none⟩

def IdealLimiter.call (i : IdealLimiter IpAddr) (c : AcquireCall IpAddr) :
    Decision × IdealLimiter IpAddr :=
  let bucket := (i.bucket c.ip).getD ⟨i.capacity, c.now⟩
  let answer := bucket.tryAcquire c.now i.capacity i.refill_per_second
  (answer.1, { i with
    bucket := Function.update i.bucket c.ip (some answer.2) })

def IdealLimiter.decisions (i : IdealLimiter IpAddr) : List (AcquireCall IpAddr) → List Decision
  | [] => []
  | c :: calls => (i.call c).1 :: (i.call c).2.decisions calls

/-! ## A full bucket is a fresh one -/

/-- The bucket is full by the instant. -/
def FullAt (C r : ℚ) (b : Bucket) (now : Instant) : Prop :=
  C ≤ b.tokens + asSecs (now - b.last_refill) * r

theorem FullAt.mono {C r : ℚ} {b : Bucket} {now later : Instant} (hr : 0 ≤ r)
    (h : FullAt C r b now) (hle : now ≤ later) : FullAt C r b later := by
  have helapsed : asSecs (now - b.last_refill) ≤ asSecs (later - b.last_refill) :=
    asSecs_le_asSecs (Nat.sub_le_sub_right hle b.last_refill)
  have hcredit := mul_le_mul_of_nonneg_right helapsed hr
  unfold FullAt at h ⊢
  linarith

theorem FullAt.tryAcquire_eq {C r : ℚ} {b : Bucket} {now : Instant} (h : FullAt C r b now) :
    b.tryAcquire now C r = Bucket.tryAcquire ⟨C, now⟩ now C r := by
  have hfresh : min (C + asSecs (now - now) * r) C = C := by
    rw [Nat.sub_self]
    simp [asSecs]
  have hfull : min (b.tokens + asSecs (now - b.last_refill) * r) C = C := min_eq_right h
  unfold Bucket.tryAcquire
  dsimp only
  rw [hfresh, hfull]

/-- The tables agree but for buckets that were swept and are full by every call to come. -/
structure Agree (rest : List (AcquireCall IpAddr)) (l : RateLimiter IpAddr)
    (i : IdealLimiter IpAddr) : Prop where
  capacity : l.capacity = i.capacity
  rate : l.refill_per_second = i.refill_per_second
  buckets : ∀ ip, l.buckets.lookup ip = i.bucket ip ∨ (l.buckets.lookup ip = none ∧
    ∃ b, i.bucket ip = some b ∧ ∀ c ∈ rest, FullAt i.capacity i.refill_per_second b c.now)

/-- What is left after making room, without a reset: a bucket that is gone was full. -/
theorem RateLimiter.lookup_makeRoom_of_not_resets {l : RateLimiter IpAddr}
    {c : AcquireCall IpAddr} (h : ¬ l.Resets c) (ip : IpAddr) :
    (l.makeRoom c.clock c.ip).lookup ip = l.buckets.lookup ip ∨
      ((l.makeRoom c.clock c.ip).lookup ip = none ∧ ip ≠ c.ip ∧ ∃ b,
        l.buckets.lookup ip = some b ∧ FullAt l.capacity l.refill_per_second b c.clock) := by
  unfold RateLimiter.makeRoom
  by_cases hroom : c.ip ∉ l.buckets ∧ maxTrackedIps ≤ l.buckets.len
  · have hswept : ¬ maxTrackedIps ≤
        (sweepStale l.buckets l.capacity l.refill_per_second c.clock).len := fun hfull =>
      h ⟨hroom, hfull⟩
    rw [if_pos hroom]
    dsimp only
    rw [if_neg hswept]
    unfold sweepStale
    rw [HashMap.lookup_retain]
    cases hb : l.buckets.lookup ip with
    | none => exact Or.inl rfl
    | some b =>
        rw [Option.filter_some]
        split
        · exact Or.inl rfl
        · rename_i hfull
          refine Or.inr ⟨rfl, ?_, b, rfl, ?_⟩
          · rintro rfl
            exact hroom.1 (AList.lookup_isSome.mp (by rw [hb]; rfl))
          · rw [decide_eq_true_eq, not_lt] at hfull
            exact hfull
  · rw [if_neg hroom]
    exact Or.inl rfl

/-- **One call**: the same answer, and the tables still agree. -/
theorem Agree.call {c : AcquireCall IpAddr} {rest : List (AcquireCall IpAddr)}
    {l : RateLimiter IpAddr} {i : IdealLimiter IpAddr} (h : Agree (c :: rest) l i)
    (hr : 0 ≤ l.refill_per_second) (hreset : ¬ l.Resets c)
    (hbehind : ∀ d ∈ rest, c.clock ≤ d.now) :
    (l.call c).1 = (i.call c).1 ∧ Agree rest (l.call c).2 (i.call c).2 := by
  have hroom := RateLimiter.lookup_makeRoom_of_not_resets hreset
  -- the caller's own bucket
  have hserved : (((l.makeRoom c.clock c.ip).lookup c.ip).getD ⟨l.capacity, c.now⟩).tryAcquire
      c.now l.capacity l.refill_per_second =
      ((i.bucket c.ip).getD ⟨i.capacity, c.now⟩).tryAcquire c.now i.capacity
        i.refill_per_second := by
    have hown : (l.makeRoom c.clock c.ip).lookup c.ip = l.buckets.lookup c.ip := by
      rcases hroom c.ip with hsame | ⟨-, hne, -⟩
      · exact hsame
      · exact absurd rfl hne
    rw [hown, h.capacity, h.rate]
    rcases h.buckets c.ip with hsame | ⟨hnone, b, hb, hfull⟩
    · rw [hsame]
    · rw [hnone, hb, Option.getD_none, Option.getD_some]
      exact (hfull c List.mem_cons_self).tryAcquire_eq.symm
  refine ⟨congrArg Prod.fst hserved, h.capacity, h.rate, fun ip => ?_⟩
  show AList.lookup ip (AList.insert c.ip _ (l.makeRoom c.clock c.ip)) =
      Function.update i.bucket c.ip _ ip ∨
    (AList.lookup ip (AList.insert c.ip _ (l.makeRoom c.clock c.ip)) = none ∧
      ∃ b, Function.update i.bucket c.ip _ ip = some b ∧ _)
  by_cases hip : ip = c.ip
  · subst hip
    rw [AList.lookup_insert, Function.update_self]
    exact Or.inl (congrArg (some ∘ Prod.snd) hserved)
  · rw [AList.lookup_insert_ne hip, Function.update_of_ne hip]
    rcases h.buckets ip with hsame | ⟨hnone, b, hb, hfull⟩
    · rcases hroom ip with hkept | ⟨hgone, -, b, hb, hfull⟩
      · exact Or.inl (hkept.trans hsame)
      · -- swept just now
        rw [h.capacity, h.rate] at hfull
        refine Or.inr ⟨hgone, b, hsame.symm.trans hb, fun d hd => ?_⟩
        exact hfull.mono (h.rate ▸ hr) (hbehind d hd)
    · have hgone : (l.makeRoom c.clock c.ip).lookup ip = none := by
        rcases hroom ip with hkept | ⟨hgone, -, -⟩
        · exact hkept.trans hnone
        · exact hgone
      exact Or.inr ⟨hgone, b, hb, fun d hd => hfull d (List.mem_cons_of_mem c hd)⟩

theorem Agree.decisions_eq {calls : List (AcquireCall IpAddr)} {l : RateLimiter IpAddr}
    {i : IdealLimiter IpAddr} (h : Agree calls l i) (hr : 0 ≤ l.refill_per_second)
    (hbehind : SweepsBehind calls) (hresets : l.NeverResets calls) :
    l.decisions calls = i.decisions calls := by
  induction calls generalizing l i with
  | nil => rfl
  | cons c calls ih =>
      obtain ⟨hclock, hrest⟩ := List.pairwise_cons.mp hbehind
      obtain ⟨hanswer, hagree⟩ := h.call hr hresets.1 hclock
      show (l.call c).1 :: (l.call c).2.decisions calls =
        (i.call c).1 :: (i.call c).2.decisions calls
      rw [hanswer, ih hagree hr hrest hresets.2]

theorem agree_new (calls : List (AcquireCall IpAddr)) (C : ℕ) (r : ℚ) :
    Agree calls (RateLimiter.new C r) (IdealLimiter.new C r) :=
  ⟨rfl, rfl, fun _ => Or.inl rfl⟩

/-! ## The bound on the table -/

theorem RateLimiter.len_call {l : RateLimiter IpAddr} (h : l.buckets.len ≤ maxTrackedIps)
    (c : AcquireCall IpAddr) : (l.call c).2.buckets.len ≤ maxTrackedIps := by
  have hroom : c.ip ∉ l.makeRoom c.clock c.ip →
      (l.makeRoom c.clock c.ip).len < maxTrackedIps := by
    unfold RateLimiter.makeRoom
    dsimp only
    split
    · split
      · exact fun _ => (by decide : 0 < maxTrackedIps)
      · exact fun _ => not_le.mp ‹_›
    · rename_i hfull
      exact fun hnot => not_le.mp fun hle => hfull ⟨hnot, hle⟩
  have hlen : (l.makeRoom c.clock c.ip).len ≤ maxTrackedIps := by
    by_cases hmem : c.ip ∈ l.makeRoom c.clock c.ip
    · have htracked : c.ip ∈ l.buckets := by
        obtain ⟨b, hb⟩ := Option.isSome_iff_exists.mp (AList.lookup_isSome.mpr hmem)
        exact AList.lookup_isSome.mp (by rw [RateLimiter.lookup_makeRoom hb]; rfl)
      rw [RateLimiter.makeRoom_of_tracked c.clock htracked]
      exact h
    · exact (hroom hmem).le
  show HashMap.len (AList.insert c.ip _ (l.makeRoom c.clock c.ip)) ≤ maxTrackedIps
  by_cases hmem : c.ip ∈ l.makeRoom c.clock c.ip
  · rw [HashMap.len_insert_of_mem hmem]
    exact hlen
  · rw [HashMap.len_insert_of_not_mem hmem]
    exact hroom hmem

theorem RateLimiter.len_after {l : RateLimiter IpAddr} (h : l.buckets.len ≤ maxTrackedIps)
    (calls : List (AcquireCall IpAddr)) : (l.after calls).buckets.len ≤ maxTrackedIps := by
  induction calls generalizing l with
  | nil => exact h
  | cons c calls ih => exact ih (l.len_call h c)

/-! ## The hint of a rejection -/

theorem RateLimiter.capacity_after (l : RateLimiter IpAddr) (calls : List (AcquireCall IpAddr)) :
    (l.after calls).capacity = l.capacity ∧
      (l.after calls).refill_per_second = l.refill_per_second := by
  induction calls generalizing l with
  | nil => exact ⟨rfl, rfl⟩
  | cons c calls ih => exact ih (l.call c).2

/-- Calls of other addresses keep the bucket, or forget it. -/
theorem RateLimiter.lookup_after {l : RateLimiter IpAddr} {ip : IpAddr} {b : Bucket}
    (h : ∀ b' ∈ l.buckets.lookup ip, b' = b) {calls : List (AcquireCall IpAddr)}
    (hother : ∀ c ∈ calls, c.ip ≠ ip) : ∀ b' ∈ (l.after calls).buckets.lookup ip, b' = b := by
  induction calls generalizing l with
  | nil => exact h
  | cons c calls ih =>
      refine ih (fun b' hb' => ?_) fun d hd => hother d (List.mem_cons_of_mem c hd)
      have hne : ip ≠ c.ip := (hother c List.mem_cons_self).symm
      have hlookup : AList.lookup ip (l.call c).2.buckets =
          (l.makeRoom c.clock c.ip).lookup ip := AList.lookup_insert_ne hne
      rw [hlookup] at hb'
      exact h b' (RateLimiter.lookup_makeRoom hb')

/-- A wait that fits the range of an instant is shorter than a saturated hint. -/
theorem wait_not_saturated {now later n : ℕ} (hlater : now + n * 10 ^ 9 ≤ later)
    (hrange : later < 2 ^ 63 * 10 ^ 9) : n < 2 ^ 64 - 1 := by
  omega

/-- After the time named a token is there. -/
theorem Bucket.allowed_after {b : Bucket} {now later : Instant} {C r : ℚ} {n : ℕ} (hC : 1 ≤ C)
    (hr : 0 < r) (h : (b.tryAcquire now C r).1 = .Rejected n)
    (hlater : now + n * 10 ^ 9 ≤ later) (hrange : later < 2 ^ 63 * 10 ^ 9) :
    ((b.tryAcquire now C r).2.tryAcquire later C r).1.isAllowed = true := by
  unfold Bucket.tryAcquire at h
  dsimp only at h
  generalize htokens : min (b.tokens + asSecs (now - b.last_refill) * r) C = tokens at h
  by_cases hone : 1 ≤ tokens
  · rw [if_pos hone] at h
    cases h
  · rw [if_neg hone, Decision.Rejected.injEq] at h
    have hleft : (b.tryAcquire now C r).2 = ⟨tokens, now⟩ := by
      unfold Bucket.tryAcquire
      dsimp only
      rw [htokens, if_neg hone]
    have hn : n < 2 ^ 64 - 1 := wait_not_saturated hlater hrange
    have hceil : (1 - tokens) / r ≤ n := by
      have hmax : (max ⌈(1 - tokens) / r⌉ 1).toNat = n := by
        rcases min_choice (max ⌈(1 - tokens) / r⌉ 1).toNat (2 ^ 64 - 1) with hmin | hmin
        · exact hmin.symm.trans h
        · exact absurd (h.symm.trans hmin) hn.ne
      have hle : ⌈(1 - tokens) / r⌉ ≤ (n : ℤ) := by
        calc ⌈(1 - tokens) / r⌉ ≤ max ⌈(1 - tokens) / r⌉ 1 := le_max_left _ _
          _ ≤ ((max ⌈(1 - tokens) / r⌉ 1).toNat : ℤ) := Int.self_le_toNat _
          _ = n := by rw [hmax]
      exact_mod_cast Int.ceil_le.mp hle
    have helapsed : (n : ℚ) ≤ asSecs (later - now) := by
      have hsub : n * 10 ^ 9 ≤ later - now := Nat.le_sub_of_add_le' hlater
      unfold asSecs
      rw [le_div_iff₀ (by norm_num)]
      exact_mod_cast hsub
    have hcredit : 1 ≤ tokens + asSecs (later - now) * r := by
      have hneed : 1 - tokens ≤ n * r := (div_le_iff₀ hr).mp hceil
      have hmore : (n : ℚ) * r ≤ asSecs (later - now) * r :=
        mul_le_mul_of_nonneg_right helapsed hr.le
      linarith
    rw [hleft]
    unfold Bucket.tryAcquire
    dsimp only
    rw [if_pos (le_min hcredit hC)]
    rfl

/-- A bucket nobody has seen yet has its first token to give. -/
theorem Bucket.allowed_fresh {C r : ℚ} (hC : 1 ≤ C) (now : Instant) :
    ((⟨C, now⟩ : Bucket).tryAcquire now C r).1.isAllowed = true := by
  have hfull : min (C + asSecs (now - now) * r) C = C := by
    rw [Nat.sub_self]
    simp [asSecs]
  unfold Bucket.tryAcquire
  dsimp only
  rw [hfull, if_pos hC]
  rfl

/-- **The hint is honest**: whatever other addresses do meanwhile, the wait it names is long
enough. -/
theorem RateLimiter.allowed_after_hint {l : RateLimiter IpAddr} (hC : 1 ≤ l.capacity)
    (hr : 0 < l.refill_per_second) {c d : AcquireCall IpAddr} {n : ℕ}
    {between : List (AcquireCall IpAddr)} (hrejected : (l.call c).1 = .Rejected n)
    (hother : ∀ e ∈ between, e.ip ≠ c.ip) (hip : d.ip = c.ip)
    (hlater : c.now + n * 10 ^ 9 ≤ d.now) (hrange : d.now < 2 ^ 63 * 10 ^ 9) :
    (((l.call c).2.after between).call d).1.isAllowed = true := by
  let bucket := ((l.makeRoom c.clock c.ip).lookup c.ip).getD ⟨l.capacity, c.now⟩
  let left := (bucket.tryAcquire c.now l.capacity l.refill_per_second).2
  have hleft : AList.lookup c.ip (l.call c).2.buckets = some left := AList.lookup_insert _
  obtain ⟨hcapacity, hrate⟩ := RateLimiter.capacity_after (l.call c).2 between
  have hkept : ∀ b' ∈ ((l.call c).2.after between).buckets.lookup c.ip, b' = left :=
    RateLimiter.lookup_after (fun b' hb' => by
      rw [hleft] at hb'
      exact (Option.mem_some.mp hb').symm) hother
  generalize (l.call c).2.after between = after at hcapacity hrate hkept
  show ((((after.makeRoom d.clock d.ip).lookup d.ip).getD ⟨after.capacity, d.now⟩).tryAcquire
    d.now after.capacity after.refill_per_second).1.isAllowed = true
  have hsameC : after.capacity = l.capacity := hcapacity
  have hsamer : after.refill_per_second = l.refill_per_second := hrate
  rw [hsameC, hsamer, hip]
  cases hserved : (after.makeRoom d.clock c.ip).lookup c.ip with
  | none =>
      rw [Option.getD_none]
      exact Bucket.allowed_fresh hC d.now
  | some b =>
      have hb : b = left := by
        rw [hip] at *
        exact hkept b (RateLimiter.lookup_makeRoom hserved)
      rw [Option.getD_some, hb]
      exact Bucket.allowed_after hC hr hrejected hlater hrange

/-- **The bounded table refines the ideal one.** Without a reset the bound cannot be told from
the outside; with resets the table still keeps to it, and a hint still holds. -/
theorem bounded_refines_ideal (C : ℕ) (r : ℚ) (hC : 1 ≤ C) (hr : 0 < r) :
    (∀ calls : List (AcquireCall IpAddr), SweepsBehind calls →
      (RateLimiter.new C r).NeverResets calls →
      (RateLimiter.new C r).decisions calls = (IdealLimiter.new C r).decisions calls) ∧
    (∀ calls : List (AcquireCall IpAddr),
      ((RateLimiter.new C r).after calls).buckets.len ≤ maxTrackedIps) ∧
    ∀ (before between : List (AcquireCall IpAddr)) (c d : AcquireCall IpAddr) (n : ℕ),
      (((RateLimiter.new C r).after before).call c).1 = .Rejected n →
      (∀ e ∈ between, e.ip ≠ c.ip) → d.ip = c.ip →
      c.now + n * 10 ^ 9 ≤ d.now → d.now < 2 ^ 63 * 10 ^ 9 →
      (((RateLimiter.new C r).after (before ++ c :: between)).call d).1.isAllowed = true := by
  refine ⟨fun calls hbehind hresets => ?_, fun calls => ?_, ?_⟩
  · exact (agree_new calls C r).decisions_eq hr.le hbehind hresets
  · have hnew : (RateLimiter.new C r : RateLimiter IpAddr).buckets.len ≤ maxTrackedIps :=
      Nat.zero_le maxTrackedIps
    exact RateLimiter.len_after hnew calls
  · intro before between c d n hrejected hother hip hlater hrange
    have hafter : (RateLimiter.new C r).after (before ++ c :: between) =
        ((((RateLimiter.new C r).after before).call c).2).after between := by
      unfold RateLimiter.after
      rw [List.foldl_append, List.foldl_cons]
    obtain ⟨hcapacity, hrate⟩ := RateLimiter.capacity_after (RateLimiter.new C r) before
    rw [hafter]
    refine RateLimiter.allowed_after_hint ?_ ?_ hrejected hother hip hlater hrange
    · rw [hcapacity]
      exact Nat.one_le_cast.mpr hC
    · rw [hrate]
      exact hr

end

/-- One token a second, used up at once. -/
theorem bounded_refines_ideal_busy :
    ((RateLimiter.new 1 1).decisions
        [(⟨0, 7, 0⟩ : AcquireCall ℕ), ⟨0, 7, 0⟩, ⟨10 ^ 9, 7, 10 ^ 9⟩] =
      (IdealLimiter.new 1 1).decisions [⟨0, 7, 0⟩, ⟨0, 7, 0⟩, ⟨10 ^ 9, 7, 10 ^ 9⟩]) ∧
    (((RateLimiter.new 1 1).after [(⟨0, 7, 0⟩ : AcquireCall ℕ), ⟨0, 7, 0⟩]).call
      ⟨10 ^ 9, 7, 10 ^ 9⟩).1.isAllowed = true := by
  obtain ⟨hideal, -, hhint⟩ := @bounded_refines_ideal ℕ _ 1 1 le_rfl one_pos
  constructor
  · exact hideal _ (by simp [SweepsBehind]) ⟨by decide, by decide, by decide, trivial⟩
  · exact hhint [⟨0, 7, 0⟩] [] ⟨0, 7, 0⟩ ⟨10 ^ 9, 7, 10 ^ 9⟩ 1 (by decide +kernel) (by simp) rfl
      (by decide) (by decide)

end Wallermax.Limits
