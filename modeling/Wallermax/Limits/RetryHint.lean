import Wallermax.Limits.SprayLock

/-!
# The hint of a rejected login

`check_at` names the address's lock or else the pair's, with the time that lock has left in
whole seconds, at least one. The time is truncated: a client that waits as told comes back
before the lock is over, unless less than a second or whole seconds were left.
-/

namespace Wallermax.Limits

open Wallermax.Base

inductive Lock : Type where
  | address
  | pair
deriving DecidableEq

def Lock.other : Lock → Lock
  | .address => .pair
  | .pair => .address

section

variable {IpAddr : Type} [DecidableEq IpAddr]

/-! ## The lock behind a rejection -/

def LoginThrottle.lockedUntil (t : LoginThrottle IpAddr) (ip : IpAddr) (username : String) :
    Lock → Option Instant
  | .address => (t.spray ip).locked_until
  | .pair => (t.pair ip username).locked_until

/-- The lock that `check_at` reports. -/
def LoginThrottle.producer (t : LoginThrottle IpAddr) (ip : IpAddr) (username : String)
    (now : Instant) : Option Lock :=
  if isLocked (t.lockedUntil ip username .address) now then some .address
  else if isLocked (t.lockedUntil ip username .pair) now then some .pair
  else none

/-- No further failure is recorded. -/
def Quiet (calls : List (ThrottleCall IpAddr)) : Prop :=
  ∀ c ∈ calls, c.op ≠ .record_failure_at

/-- The hint of a rejection at this instant is no shorter than the lock behind it: after so
many seconds, without a further failure, that lock is over, and the check passes unless the
other lock holds. -/
def LoginThrottle.HintHolds (t : LoginThrottle IpAddr) (ip : IpAddr) (username : String)
    (now : Instant) : Prop :=
  ∀ n lock, t.checkAt ip username now = .Rejected n → t.producer ip username now = some lock →
    ∀ quiet, Quiet quiet →
      isLocked ((t.after quiet).lockedUntil ip username lock) (now + n * second) = false ∧
        (((t.after quiet).checkAt ip username (now + n * second)).isAllowed = true ∨
          isLocked ((t.after quiet).lockedUntil ip username lock.other) (now + n * second) = true)

/-- The lock in force has less than a second left, or whole seconds. -/
def LoginThrottle.WholeSeconds (t : LoginThrottle IpAddr) (ip : IpAddr) (username : String)
    (now : Instant) : Prop :=
  ∀ lock until_, t.producer ip username now = some lock →
    t.lockedUntil ip username lock = some until_ →
      until_ - now < second ∨ (until_ - now) % second = 0

theorem isLocked_eq_true {locked_until : Option Instant} {now : Instant}
    (h : isLocked locked_until now = true) : ∃ until_, locked_until = some until_ ∧ now < until_ := by
  cases locked_until with
  | none => cases h
  | some until_ => exact ⟨until_, rfl, of_decide_eq_true h⟩

theorem LoginThrottle.producer_eq_some {t : LoginThrottle IpAddr} {ip : IpAddr}
    {username : String} {now : Instant} {lock : Lock}
    (h : t.producer ip username now = some lock) :
    ∃ until_, t.lockedUntil ip username lock = some until_ ∧ now < until_ := by
  unfold LoginThrottle.producer at h
  split at h
  · rename_i hlocked
    cases h
    exact isLocked_eq_true hlocked
  · split at h
    · rename_i hlocked
      cases h
      exact isLocked_eq_true hlocked
    · cases h

theorem LoginThrottle.lt_of_producer {t : LoginThrottle IpAddr} {ip : IpAddr}
    {username : String} {now until_ : Instant} {lock : Lock}
    (h : t.producer ip username now = some lock)
    (huntil : t.lockedUntil ip username lock = some until_) : now < until_ := by
  obtain ⟨until', hsome, hlt⟩ := LoginThrottle.producer_eq_some h
  rw [huntil] at hsome
  cases hsome
  exact hlt

/-- What a check says, by the lock it reports. -/
theorem LoginThrottle.checkAt_eq (t : LoginThrottle IpAddr) (ip : IpAddr) (username : String)
    (now : Instant) :
    (∃ remaining, t.checkAt ip username now = .Allowed remaining ∧
        t.producer ip username now = none) ∨
      ∃ lock until_, t.producer ip username now = some lock ∧
        t.lockedUntil ip username lock = some until_ ∧
        t.checkAt ip username now = .Rejected (secondsUntil until_ now) := by
  have hspray : (t.sprays.lookup ip).bind SprayEntry.locked_until =
      t.lockedUntil ip username .address := by
    unfold LoginThrottle.lockedUntil LoginThrottle.spray
    cases t.sprays.lookup ip with
    | none => rfl
    | some entry => rfl
  unfold LoginThrottle.checkAt LoginThrottle.producer
  simp only [hspray]
  by_cases haddress : isLocked (t.lockedUntil ip username .address) now = true
  · obtain ⟨until_, huntil, -⟩ := isLocked_eq_true haddress
    refine Or.inr ⟨.address, until_, if_pos haddress, huntil, ?_⟩
    rw [if_pos haddress, huntil, Option.getD_some]
  · rw [if_neg haddress, if_neg haddress]
    cases hentry : t.pairs.lookup (ip, toAsciiLowercase username) with
    | none =>
        have hnone : t.lockedUntil ip username .pair = none := by
          unfold LoginThrottle.lockedUntil LoginThrottle.pair
          rw [hentry]
          rfl
        rw [hnone]
        exact Or.inl ⟨_, rfl, rfl⟩
    | some entry =>
        have hpair : t.lockedUntil ip username .pair = entry.locked_until := by
          unfold LoginThrottle.lockedUntil LoginThrottle.pair
          rw [hentry]
          rfl
        dsimp only
        rw [hpair]
        by_cases hlocked : isLocked entry.locked_until now = true
        · obtain ⟨until_, huntil, -⟩ := isLocked_eq_true hlocked
          refine Or.inr ⟨.pair, until_, if_pos hlocked, hpair.trans huntil, ?_⟩
          rw [if_pos hlocked, huntil, Option.getD_some]
        · exact Or.inl ⟨_, if_neg hlocked, if_neg hlocked⟩

theorem LoginThrottle.isAllowed_of_unlocked {t : LoginThrottle IpAddr} {ip : IpAddr}
    {username : String} {now : Instant} {lock : Lock}
    (hlock : isLocked (t.lockedUntil ip username lock) now = false)
    (hother : isLocked (t.lockedUntil ip username lock.other) now = false) :
    (t.checkAt ip username now).isAllowed = true := by
  rw [LoginThrottle.checkAt_isAllowed]
  cases lock with
  | address =>
      show (!isLocked (t.lockedUntil ip username .address) now &&
        !isLocked (t.lockedUntil ip username .pair) now) = true
      rw [hlock, show isLocked (t.lockedUntil ip username .pair) now = false from hother]
      rfl
  | pair =>
      show (!isLocked (t.lockedUntil ip username .address) now &&
        !isLocked (t.lockedUntil ip username .pair) now) = true
      rw [hlock, show isLocked (t.lockedUntil ip username .address) now = false from hother]
      rfl

/-! ## Calls that record no failure -/

theorem LoginThrottle.lockedUntil_call {t : LoginThrottle IpAddr} {c : ThrottleCall IpAddr}
    (hc : c.op ≠ .record_failure_at) (ip : IpAddr) (username : String) (lock : Lock) :
    (t.call c).lockedUntil ip username lock = t.lockedUntil ip username lock ∨
      (t.call c).lockedUntil ip username lock = none := by
  unfold LoginThrottle.call
  split
  · exact Or.inl rfl
  · exact absurd ‹_› hc
  · cases lock with
    | address => exact Or.inl rfl
    | pair =>
        unfold LoginThrottle.lockedUntil LoginThrottle.pair LoginThrottle.recordSuccess
        dsimp only
        by_cases hkey : (ip, toAsciiLowercase username) = (c.ip, toAsciiLowercase c.username)
        · rw [hkey, AList.lookup_erase]
          exact Or.inr rfl
        · rw [AList.lookup_erase_ne hkey]
          exact Or.inl rfl

theorem LoginThrottle.lockedUntil_after {quiet : List (ThrottleCall IpAddr)} (hquiet : Quiet quiet)
    (t : LoginThrottle IpAddr) (ip : IpAddr) (username : String) (lock : Lock) :
    (t.after quiet).lockedUntil ip username lock = t.lockedUntil ip username lock ∨
      (t.after quiet).lockedUntil ip username lock = none := by
  induction quiet generalizing t with
  | nil => exact Or.inl rfl
  | cons c quiet ih =>
      have hfirst := t.lockedUntil_call (hquiet c List.mem_cons_self) ip username lock
      have hrest := ih (fun d hd => hquiet d (List.mem_cons_of_mem c hd)) (t.call c)
      show ((t.call c).after quiet).lockedUntil ip username lock = _ ∨
        ((t.call c).after quiet).lockedUntil ip username lock = none
      rcases hrest with hrest | hrest
      · rw [hrest]
        exact hfirst
      · exact Or.inr hrest

/-! ## The truncated time -/

/-- What is cut off is missing, unless the hint was raised to a second. -/
theorem le_secondsUntil_iff {until_ now : ℕ} (h : now < until_) :
    until_ ≤ now + secondsUntil until_ now * second ↔
      until_ - now < second ∨ (until_ - now) % second = 0 := by
  have hsecond : second = 1000000000 := rfl
  unfold secondsUntil
  rw [hsecond]
  generalize hleft : until_ - now = left
  have huntil : until_ = now + left := by omega
  rw [huntil]
  omega

theorem isLocked_later_iff {until_ now : Instant} (h : now < until_) :
    isLocked (some until_) (now + secondsUntil until_ now * second) = false ↔
      until_ - now < second ∨ (until_ - now) % second = 0 := by
  rw [isLocked_some, decide_eq_false_iff_not, not_lt, le_secondsUntil_iff h]

theorem LoginThrottle.hintHolds_iff (t : LoginThrottle IpAddr) (ip : IpAddr) (username : String)
    (now : Instant) : t.HintHolds ip username now ↔ t.WholeSeconds ip username now := by
  constructor
  · intro h lock until_ hproducer huntil
    obtain ⟨_, -, hnone⟩ | ⟨lock', until', hproducer', huntil', hrejected⟩ :=
      t.checkAt_eq ip username now
    · rw [hproducer] at hnone
      cases hnone
    · obtain rfl : lock = lock' := Option.some.inj (hproducer.symm.trans hproducer')
      obtain rfl : until_ = until' := Option.some.inj (huntil.symm.trans huntil')
      have hlt := LoginThrottle.lt_of_producer hproducer huntil
      have hover := (h _ lock hrejected hproducer [] (fun c hc => by cases hc)).1
      have hover : isLocked (t.lockedUntil ip username lock) _ = false := hover
      rw [huntil] at hover
      exact (isLocked_later_iff hlt).mp hover
  · intro h n lock hrejected hproducer quiet hquiet
    obtain ⟨_, hallowed, -⟩ | ⟨lock', until_, hproducer', huntil, hrejected'⟩ :=
      t.checkAt_eq ip username now
    · rw [hallowed] at hrejected
      cases hrejected
    · obtain rfl : lock = lock' := Option.some.inj (hproducer.symm.trans hproducer')
      rw [hrejected'] at hrejected
      cases hrejected
      have hlt := LoginThrottle.lt_of_producer hproducer huntil
      have hover : isLocked ((t.after quiet).lockedUntil ip username lock)
          (now + secondsUntil until_ now * second) = false := by
        rcases t.lockedUntil_after hquiet ip username lock with hsame | hnone
        · rw [hsame, huntil]
          exact (isLocked_later_iff hlt).mpr (h lock until_ hproducer huntil)
        · rw [hnone]
          rfl
      refine ⟨hover, ?_⟩
      cases hother : isLocked ((t.after quiet).lockedUntil ip username lock.other)
          (now + secondsUntil until_ now * second) with
      | true => exact Or.inr rfl
      | false => exact Or.inl (LoginThrottle.isAllowed_of_unlocked hover hother)

/-- **When a hint is long enough.** For every run of calls at arbitrary instants, address,
user name and instant: the hint of a rejection covers the lock behind it exactly when that
lock has less than a second left, or whole seconds. -/
theorem retry_hint_iff (calls : List (ThrottleCall IpAddr)) (ip : IpAddr) (username : String)
    (now : Instant) :
    (LoginThrottle.new.after calls).HintHolds ip username now ↔
      (LoginThrottle.new.after calls).WholeSeconds ip username now :=
  LoginThrottle.hintHolds_iff _ ip username now

end

/-- Five failures of a user at one instant. -/
def fiveFailures : List (ThrottleCall String) :=
  List.replicate 5 ⟨0, .record_failure_at, "198.51.100.7", "ana"⟩

/-- Half a second into the lockout 29 seconds are named, and half a second is missing. -/
theorem retry_hint_short :
    (LoginThrottle.new.after fiveFailures).checkAt "198.51.100.7" "ana" (second / 2) = .Rejected 29 ∧
      ((LoginThrottle.new.after fiveFailures).checkAt "198.51.100.7" "ana"
        (second / 2 + 29 * second)).isAllowed = false ∧
      ¬ (LoginThrottle.new.after fiveFailures).HintHolds "198.51.100.7" "ana" (second / 2) := by
  refine ⟨by decide +kernel, by decide +kernel, fun h => ?_⟩
  have hover := h 29 .pair (by decide +kernel) (by decide +kernel) [] fun c hc => by cases hc
  exact absurd hover.1 (by decide +kernel)

end Wallermax.Limits
