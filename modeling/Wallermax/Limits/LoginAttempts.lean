import Mathlib.Data.List.Count
import Wallermax.Limits.LoginThrottle

/-!
# Parallel login attempts

The login handler as its steps on the throttle: read the clock and `check`,
verify the password, read the clock and record. All attempts come from one
address and name one user; any number of them may be between two of their
steps.

`check` reserves nothing, so as long as the pair is not locked every attempt
gets past it. The attempts that do so before the first lockout expires are the
failures recorded for the pair and the attempts still on their way to record
one, together.
-/

namespace Wallermax.Limits

open Wallermax.Base

/-- Where a login attempt stands. -/
inductive Attempt : Type where
  /-- `check` has read the clock -/
  | checking (now : Instant)
  | verifying
  /-- the password was wrong and `record_failure` has read the clock -/
  | failing (now : Instant)
  | succeeding
  | finished
deriving DecidableEq

/-- Past the check, its outcome not yet recorded. -/
def Attempt.inFlight : Attempt → Bool
  | .verifying => true
  | .failing _ => true
  | .succeeding => true
  | _ => false

/-- The throttle, the clock, the attempts, the instants of the checks that were
passed, and the expiry of the pair's first lockout. -/
structure Logins (IpAddr : Type) : Type where
  throttle : LoginThrottle IpAddr
  clock : Instant
  attempts : List Attempt
  passed : List Instant
  first_lockout : Option Instant

inductive LoginLabel : Type where
  | tick (nanos : ℕ)
  /-- a login form arrives, and `check` reads the clock -/
  | submit
  | check (place : ℕ)
  /-- Argon2 answers; for a wrong password `record_failure` reads the clock -/
  | verify (place : ℕ) (correct : Bool)
  | record (place : ℕ)

section

variable {IpAddr : Type} [DecidableEq IpAddr] (ip : IpAddr) (username : String)

/-- The pair's entry; the one a first failure would start from when it has none. -/
def LoginThrottle.pair (t : LoginThrottle IpAddr) : PairEntry :=
  (t.pairs.lookup (ip, toAsciiLowercase username)).getD ⟨0, 0, none, 0⟩

/-- The address's entry. -/
def LoginThrottle.spray (t : LoginThrottle IpAddr) : SprayEntry :=
  (t.sprays.lookup ip).getD ⟨[], none⟩

/-- The attempt at `place` records its failure. -/
def Logins.recordFailure (s : Logins IpAddr) (place : ℕ) (now : Instant) : Logins IpAddr :=
  let throttle := s.throttle.recordFailureAt ip username now
  { s with
    throttle := throttle
    attempts := s.attempts.set place .finished
    first_lockout := s.first_lockout.or (throttle.pair ip username).locked_until }

def loginStep (s : Logins IpAddr) : LoginLabel → Option (Logins IpAddr)
  | .tick nanos => some { s with
      clock := s.clock + nanos }
  | .submit => some { s with
      attempts := s.attempts ++ [.checking s.clock] }
  | .check place =>
      match s.attempts[place]? with
      | some (.checking now) => some <|
          if (s.throttle.checkAt ip username now).isAllowed then
            { s with
              attempts := s.attempts.set place .verifying
              passed := now :: s.passed }
          else { s with
            attempts := s.attempts.set place .finished }
      | _ => none
  | .verify place correct =>
      match s.attempts[place]? with
      | some .verifying => some { s with
          attempts := s.attempts.set place
            (if correct then .succeeding else .failing s.clock) }
      | _ => none
  | .record place =>
      match s.attempts[place]? with
      | some (.failing now) => some (Logins.recordFailure ip username s place now)
      | some .succeeding => some { s with
          throttle := s.throttle.recordSuccess ip username
          attempts := s.attempts.set place .finished }
      | _ => none

/-- Nobody has tried to log in. -/
def Logins.start : Logins IpAddr where
  throttle := LoginThrottle.new
  clock := 0
  attempts := []
  passed := []
  first_lockout := none

/-- How many attempts got past `check` before the first lockout expired. -/
def Logins.admitted (s : Logins IpAddr) : ℕ :=
  s.passed.countP fun now => s.first_lockout.all fun until_ => decide (now < until_)

/-- The attempts between their check and their record. -/
def Logins.inFlight (s : Logins IpAddr) : ℕ := s.attempts.countP Attempt.inFlight

/-- The attempt carries a wrong password, or the label is not about one. -/
def WrongPassword : LoginLabel → Prop
  | .verify _ correct => correct = false
  | _ => True

/-- An attempt is checked, before the pair's first lockout, while the recorded
failures and the attempts in flight already make up `LOGIN_MAX_FAILURES`. -/
def Overcommits (s : Logins IpAddr) : LoginLabel → Prop
  | .check _ => s.first_lockout = none ∧
      loginMaxFailures ≤ (s.throttle.pair ip username).failures + s.inFlight
  | _ => False

end

/-! ## The throttle of one pair -/

theorem lt_of_lockoutFor (now n : ℕ) : now < now + lockoutFor n := by
  have hbase : 0 < loginLockoutBase * 2 ^ min (n - 1) 6 :=
    Nat.mul_pos (by decide) (Nat.pow_pos (by decide))
  have hpos : 0 < lockoutFor n := lt_min hbase (by decide)
  omega

section

variable {IpAddr : Type} [DecidableEq IpAddr] {ip : IpAddr} {username : String}

theorem LoginThrottle.checkAt_isAllowed (t : LoginThrottle IpAddr) (now : Instant) :
    (t.checkAt ip username now).isAllowed =
      (!isLocked (t.spray ip).locked_until now &&
        !isLocked (t.pair ip username).locked_until now) := by
  have hspray : (t.sprays.lookup ip).bind SprayEntry.locked_until =
      (t.spray ip).locked_until := by
    unfold LoginThrottle.spray
    cases t.sprays.lookup ip <;> rfl
  unfold LoginThrottle.checkAt
  simp only [hspray]
  cases isLocked (t.spray ip).locked_until now with
  | true => rfl
  | false =>
      unfold LoginThrottle.pair
      cases hpair : t.pairs.lookup (ip, toAsciiLowercase username) with
      | none => rfl
      | some entry =>
          show (if isLocked entry.locked_until now then _ else _ : Decision).isAllowed =
            !isLocked entry.locked_until now
          cases isLocked entry.locked_until now <;> rfl

/-- A map with no other key than this one has room. -/
theorem makeRoom_eq {κ β : Type} [DecidableEq κ] {m : HashMap κ β} {key : κ}
    (sweep : HashMap κ β → HashMap κ β) (honly : ∀ k ∈ m, k = key) :
    makeRoom m sweep key = m := by
  apply if_neg
  rintro ⟨habsent, hfull⟩
  have hempty : m.entries = [] := by
    apply List.eq_nil_iff_forall_not_mem.mpr
    intro e he
    have hkey : e.1 ∈ m := List.mem_map_of_mem he
    exact habsent (honly e.1 hkey ▸ hkey)
  have hlen : m.len = 0 := congrArg List.length hempty
  rw [hlen] at hfull
  exact absurd hfull (by decide)

/-- The throttle has no key but this pair's and this address's. -/
structure OnlyPair (ip : IpAddr) (username : String) (t : LoginThrottle IpAddr) : Prop where
  pairs : ∀ key ∈ t.pairs, key = (ip, toAsciiLowercase username)
  sprays : ∀ key ∈ t.sprays, key = ip

theorem forall_mem_insert {κ β : Type} [DecidableEq κ] {m : HashMap κ β} {key : κ}
    (value : β) (honly : ∀ k ∈ m, k = key) :
    ∀ k ∈ (AList.insert key value m : HashMap κ β), k = key := by
  intro k hk
  rcases (AList.mem_insert m).mp hk with heq | hk
  · exact heq
  · exact honly k hk

/-- The entry a failure works on: the pair's own, or the one it would start from. -/
theorem LoginThrottle.entry_eq (ip : IpAddr) (username : String) (t : LoginThrottle IpAddr)
    (now : Instant) :
    ∃ entry : PairEntry,
      entry = (t.pairs.lookup (ip, toAsciiLowercase username)).getD ⟨0, 0, none, now⟩ ∧
      entry.failures = (t.pair ip username).failures ∧
      entry.locked_until = (t.pair ip username).locked_until ∧
      entry.fail now = (t.pair ip username).fail now := by
  refine ⟨_, rfl, ?_⟩
  unfold LoginThrottle.pair
  cases t.pairs.lookup (ip, toAsciiLowercase username) with
  | none => exact ⟨rfl, rfl, rfl⟩
  | some entry => exact ⟨rfl, rfl, rfl⟩

/-- A failure of a locked pair: the lock stays. -/
theorem LoginThrottle.recordFailureAt_locked {t : LoginThrottle IpAddr} {now : Instant}
    (honly : OnlyPair ip username t)
    (hlocked : isLocked (t.pair ip username).locked_until now = true) :
    OnlyPair ip username (t.recordFailureAt ip username now) ∧
      ((t.recordFailureAt ip username now).pair ip username).locked_until =
        (t.pair ip username).locked_until := by
  obtain ⟨entry, hentry, _, hlock, _⟩ := t.entry_eq ip username now
  have hrecord : t.recordFailureAt ip username now =
      { t with
        pairs := t.pairs.insert (ip, toAsciiLowercase username)
          { entry with
            last_seen := now } } := by
    unfold LoginThrottle.recordFailureAt
    simp only [makeRoom_eq _ honly.pairs, ← hentry]
    rw [hlock, if_pos hlocked]
  rw [hrecord]
  refine ⟨⟨forall_mem_insert _ honly.pairs, honly.sprays⟩, ?_⟩
  simp only [LoginThrottle.pair, AList.lookup_insert, Option.getD_some]
  exact hlock

/-- A failure of a pair that is not locked advances the pair and the address. -/
theorem LoginThrottle.recordFailureAt_unlocked {t : LoginThrottle IpAddr} {now : Instant}
    (honly : OnlyPair ip username t)
    (hfree : isLocked (t.pair ip username).locked_until now = false) :
    OnlyPair ip username (t.recordFailureAt ip username now) ∧
      (t.recordFailureAt ip username now).pair ip username =
        (t.pair ip username).fail now ∧
      (t.recordFailureAt ip username now).spray ip =
        if isLocked (t.spray ip).locked_until now then t.spray ip
        else (t.spray ip).fail now := by
  obtain ⟨entry, hentry, _, hlock, hfail⟩ := t.entry_eq ip username now
  have hrecord : t.recordFailureAt ip username now =
      ⟨t.pairs.insert (ip, toAsciiLowercase username) ((t.pair ip username).fail now),
        t.sprays.insert ip (if isLocked (t.spray ip).locked_until now then t.spray ip
          else (t.spray ip).fail now)⟩ := by
    unfold LoginThrottle.recordFailureAt
    simp only [makeRoom_eq _ honly.pairs, makeRoom_eq _ honly.sprays, ← hentry]
    rw [hlock, if_neg (by rw [hfree]; exact Bool.false_ne_true), hfail]
    rfl
  rw [hrecord]
  refine ⟨⟨forall_mem_insert _ honly.pairs, forall_mem_insert _ honly.sprays⟩, ?_, ?_⟩
  · simp only [LoginThrottle.pair, AList.lookup_insert, Option.getD_some]
  · simp only [LoginThrottle.spray, AList.lookup_insert, Option.getD_some]

/-! ## Failures one at a time -/

theorem PairEntry.fail_below {entry : PairEntry} (now : Instant)
    (h : entry.failures + 1 < loginMaxFailures) :
    (entry.fail now).failures = entry.failures + 1 ∧
      (entry.fail now).locked_until = entry.locked_until := by
  unfold PairEntry.fail
  rw [if_neg (by omega)]
  exact ⟨rfl, rfl⟩

theorem PairEntry.fail_trips {entry : PairEntry} (now : Instant)
    (h : loginMaxFailures ≤ entry.failures + 1) :
    (entry.fail now).locked_until = some (now + lockoutFor (entry.lockouts + 1)) := by
  unfold PairEntry.fail
  rw [if_pos h]

/-- A failure either keeps a pair's lock or sets one that ends later than now. -/
theorem PairEntry.fail_locked_until (entry : PairEntry) (now : Instant) :
    (entry.fail now).locked_until = entry.locked_until ∨
      ∃ until_, (entry.fail now).locked_until = some until_ ∧ now < until_ := by
  by_cases h : loginMaxFailures ≤ entry.failures + 1
  case pos => exact Or.inr ⟨_, PairEntry.fail_trips now h, lt_of_lockoutFor now _⟩
  case neg => exact Or.inl (PairEntry.fail_below now (Nat.lt_of_not_le h)).2

theorem SprayEntry.fail_below {entry : SprayEntry} (now : Instant)
    (h : entry.recent.length + 1 < loginSprayFailures) :
    (entry.fail now).locked_until = entry.locked_until ∧
      (entry.fail now).recent.length ≤ entry.recent.length + 1 := by
  have hle : ((entry.recent ++ [now]).dropWhile fun stamp =>
      decide (loginSprayWindow < now - stamp)).length ≤ entry.recent.length + 1 := by
    have hsuffix := (List.dropWhile_sublist (l := entry.recent ++ [now])
      (fun stamp => decide (loginSprayWindow < now - stamp))).length_le
    simpa using hsuffix
  unfold SprayEntry.fail
  dsimp only
  rw [if_neg (by omega)]
  exact ⟨rfl, hle⟩

/-! ## The tally -/

/-- Before the first lockout nothing is locked, and the passed checks are the
recorded failures and the attempts in flight. -/
structure Unlocked (ip : IpAddr) (username : String) (s : Logins IpAddr) : Prop where
  pair : (s.throttle.pair ip username).locked_until = none
  spray : (s.throttle.spray ip).locked_until = none
  recent : (s.throttle.spray ip).recent.length ≤ (s.throttle.pair ip username).failures
  failures : (s.throttle.pair ip username).failures < loginMaxFailures
  passed : s.passed.length = (s.throttle.pair ip username).failures + s.inFlight

structure Tallied (ip : IpAddr) (username : String) (s : Logins IpAddr) : Prop where
  only : OnlyPair ip username s.throttle
  wrong : Attempt.succeeding ∉ s.attempts
  unlocked : s.first_lockout = none → Unlocked ip username s
  locked : ∀ u ∈ s.first_lockout, ∃ until_,
    (s.throttle.pair ip username).locked_until = some until_ ∧ u ≤ until_

theorem Tallied.start : Tallied ip username (Logins.start : Logins IpAddr) := by
  refine ⟨⟨?_, ?_⟩, List.not_mem_nil, fun _ => ⟨rfl, rfl, le_refl _, Nat.succ_pos _, rfl⟩, ?_⟩
  · intro key hkey
    exact absurd hkey (AList.notMem_empty key)
  · intro key hkey
    exact absurd hkey (AList.notMem_empty key)
  · intro u hu
    cases hu

theorem countP_set_of_getElem? {α : Type} (f : α → Bool) {l : List α} {i : ℕ} {x : α}
    (h : l[i]? = some x) (y : α) :
    (l.set i y).countP f + (if f x then 1 else 0) = l.countP f + if f y then 1 else 0 := by
  obtain ⟨hi, rfl⟩ := List.getElem?_eq_some_iff.mp h
  have hle := List.boole_getElem_le_countP (p := f) hi
  rw [List.countP_set hi]
  omega

theorem not_mem_set {α : Type} {l : List α} {i : ℕ} {x y : α} (h : x ∉ l) (hxy : x ≠ y) :
    x ∉ l.set i y := by
  intro hx
  rcases List.mem_or_eq_of_mem_set hx with hx | hx
  · exact h hx
  · exact hxy hx

/-- An attempt moves on without touching the throttle or the tally. -/
theorem Tallied.move {s : Logins IpAddr} (h : Tallied ip username s) {place : ℕ}
    {x y : Attempt} (hx : s.attempts[place]? = some x) (hxy : x.inFlight = y.inFlight)
    (hy : y ≠ .succeeding) :
    Tallied ip username { s with
      attempts := s.attempts.set place y } := by
  refine ⟨h.only, not_mem_set h.wrong hy.symm, ?_, h.locked⟩
  intro hfirst
  have hopen := h.unlocked hfirst
  have hcount := countP_set_of_getElem? Attempt.inFlight hx y
  rw [hxy] at hcount
  have hflight : (s.attempts.set place y).countP Attempt.inFlight = s.inFlight :=
    Nat.add_right_cancel hcount
  exact ⟨hopen.pair, hopen.spray, hopen.recent, hopen.failures,
    hopen.passed.trans (by rw [← hflight]; rfl)⟩

/-- A check that is passed. -/
theorem Tallied.pass {s : Logins IpAddr} (h : Tallied ip username s) {place : ℕ}
    {now : Instant} (hx : s.attempts[place]? = some (.checking now)) :
    Tallied ip username { s with
      attempts := s.attempts.set place .verifying
      passed := now :: s.passed } := by
  refine ⟨h.only, not_mem_set h.wrong (by decide), ?_, h.locked⟩
  intro hfirst
  have hopen := h.unlocked hfirst
  have hcount := countP_set_of_getElem? Attempt.inFlight hx .verifying
  have hflight : (s.attempts.set place .verifying).countP Attempt.inFlight = s.inFlight + 1 :=
    hcount
  refine ⟨hopen.pair, hopen.spray, hopen.recent, hopen.failures, ?_⟩
  show s.passed.length + 1 = (s.throttle.pair ip username).failures +
    (s.attempts.set place .verifying).countP Attempt.inFlight
  rw [hflight, hopen.passed]
  omega

/-- Before the first lockout a failure moves one attempt from those in flight to
the recorded ones, unless it sets the lock. -/
theorem Unlocked.recordFailure {s : Logins IpAddr} (h : Unlocked ip username s)
    (honly : OnlyPair ip username s.throttle) {place : ℕ} {now : Instant}
    (hx : s.attempts[place]? = some (.failing now))
    (hstill : (s.throttle.pair ip username).failures + 1 < loginMaxFailures) :
    Unlocked ip username (s.recordFailure ip username place now) := by
  have hfree : isLocked (s.throttle.pair ip username).locked_until now = false := by
    rw [h.pair]
    rfl
  have hnotspray : isLocked (s.throttle.spray ip).locked_until now = false := by
    rw [h.spray]
    rfl
  obtain ⟨_, hpair, hspray⟩ := LoginThrottle.recordFailureAt_unlocked honly hfree
  rw [hnotspray, if_neg Bool.false_ne_true] at hspray
  obtain ⟨hfailures, hlock⟩ := PairEntry.fail_below now hstill
  rw [← hpair] at hfailures hlock
  have hrecent := h.recent
  have hbelow : (s.throttle.spray ip).recent.length + 1 < loginSprayFailures := by
    have hmax : loginMaxFailures < loginSprayFailures := by decide
    omega
  obtain ⟨hsprayLock, hsprayLen⟩ := SprayEntry.fail_below now hbelow
  rw [← hspray] at hsprayLock hsprayLen
  refine ⟨hlock.trans h.pair, hsprayLock.trans h.spray, ?_, ?_, ?_⟩
  case refine_1 =>
    show ((s.throttle.recordFailureAt ip username now).spray ip).recent.length ≤
      ((s.throttle.recordFailureAt ip username now).pair ip username).failures
    rw [hfailures]
    omega
  case refine_2 =>
    show ((s.throttle.recordFailureAt ip username now).pair ip username).failures <
      loginMaxFailures
    rw [hfailures]
    exact hstill
  case refine_3 =>
    have hcount := countP_set_of_getElem? Attempt.inFlight hx .finished
    have hflight : (s.attempts.set place .finished).countP Attempt.inFlight + 1 =
        s.inFlight := hcount
    show s.passed.length =
      ((s.throttle.recordFailureAt ip username now).pair ip username).failures +
        (s.attempts.set place .finished).countP Attempt.inFlight
    rw [hfailures, h.passed]
    omega

/-- After the first lockout a pair stays locked at least until it ended: a
failure that arrives later can only set a lock that ends later still. -/
theorem LoginThrottle.recordFailureAt_locked_until {t : LoginThrottle IpAddr}
    (honly : OnlyPair ip username t) (now : Instant) {u until_ : Instant}
    (huntil : (t.pair ip username).locked_until = some until_) (hle : u ≤ until_) :
    ∃ later, ((t.recordFailureAt ip username now).pair ip username).locked_until =
      some later ∧ u ≤ later := by
  cases hlocked : isLocked (t.pair ip username).locked_until now with
  | true =>
      have hkept := (LoginThrottle.recordFailureAt_locked honly hlocked).2
      exact ⟨until_, hkept.trans huntil, hle⟩
  | false =>
      have hpair := (LoginThrottle.recordFailureAt_unlocked honly hlocked).2.1
      rcases PairEntry.fail_locked_until (t.pair ip username) now with
        hkept | ⟨later, hlater, hnow⟩
      · exact ⟨until_, by rw [hpair, hkept, huntil], hle⟩
      · have hexpired : until_ ≤ now := by
          rw [huntil] at hlocked
          exact Nat.le_of_not_lt (of_decide_eq_false hlocked)
        exact ⟨later, by rw [hpair, hlater], hle.trans (hexpired.trans hnow.le)⟩

theorem OnlyPair.recordFailureAt {t : LoginThrottle IpAddr} (h : OnlyPair ip username t)
    (now : Instant) : OnlyPair ip username (t.recordFailureAt ip username now) := by
  cases hlocked : isLocked (t.pair ip username).locked_until now with
  | true => exact (LoginThrottle.recordFailureAt_locked h hlocked).1
  | false => exact (LoginThrottle.recordFailureAt_unlocked h hlocked).1

/-- A recorded failure. -/
theorem Tallied.recordFailure {s : Logins IpAddr} (h : Tallied ip username s) {place : ℕ}
    {now : Instant} (hx : s.attempts[place]? = some (.failing now)) :
    Tallied ip username (s.recordFailure ip username place now) := by
  have honly := h.only.recordFailureAt now
  have hwrong := not_mem_set (i := place) h.wrong
    (show Attempt.succeeding ≠ .finished by decide)
  have hfirst' : (s.recordFailure ip username place now).first_lockout =
      s.first_lockout.or
        ((s.throttle.recordFailureAt ip username now).pair ip username).locked_until := rfl
  refine ⟨honly, hwrong, ?_, ?_⟩
  case refine_1 =>
    intro hnone
    rw [hfirst'] at hnone
    obtain ⟨hfirst, hlock⟩ := Option.or_eq_none_iff.mp hnone
    have hopen := h.unlocked hfirst
    apply hopen.recordFailure h.only hx
    -- the fifth failure would have set the lock
    by_contra htrip
    have hfree : isLocked (s.throttle.pair ip username).locked_until now = false := by
      rw [hopen.pair]
      rfl
    have hpair := (LoginThrottle.recordFailureAt_unlocked h.only hfree).2.1
    rw [hpair, PairEntry.fail_trips now (Nat.le_of_not_lt htrip)] at hlock
    cases hlock
  case refine_2 =>
    intro u hu
    cases hfirst : s.first_lockout with
    | none =>
        rw [hfirst', hfirst] at hu
        exact ⟨u, hu, le_refl _⟩
    | some v =>
        rw [hfirst', hfirst] at hu
        cases hu
        obtain ⟨until_, huntil, hle⟩ := h.locked u (by rw [hfirst]; rfl)
        exact LoginThrottle.recordFailureAt_locked_until h.only now huntil hle

/-! ## One step -/

/-- While the pair is locked, and until its first lockout expires, no check is
passed. -/
theorem Tallied.not_lt_of_allowed {s : Logins IpAddr} (h : Tallied ip username s)
    {now u : Instant} (hallowed : (s.throttle.checkAt ip username now).isAllowed = true)
    (hu : s.first_lockout = some u) : ¬ now < u := by
  obtain ⟨until_, huntil, hle⟩ := h.locked u hu
  rw [LoginThrottle.checkAt_isAllowed, huntil] at hallowed
  have hexpired : isLocked (some until_) now = false := by
    simpa using (Bool.and_eq_true_iff.mp hallowed).2
  have hnow : ¬ now < until_ := of_decide_eq_false hexpired
  exact fun hlt => hnow (lt_of_lt_of_le hlt hle)

/-- Before the first lockout every check is passed. -/
theorem Tallied.allowed {s : Logins IpAddr} (h : Tallied ip username s) (now : Instant)
    (hfirst : s.first_lockout = none) :
    (s.throttle.checkAt ip username now).isAllowed = true := by
  have hopen := h.unlocked hfirst
  rw [LoginThrottle.checkAt_isAllowed, hopen.pair, hopen.spray]
  rfl

theorem Tallied.step {s t : Logins IpAddr} {label : LoginLabel}
    (h : Tallied ip username s) (hlabel : WrongPassword label)
    (hstep : loginStep ip username s label = some t) : Tallied ip username t := by
  cases label with
  | tick nanos =>
      cases hstep
      exact ⟨h.only, h.wrong, fun hfirst =>
        let hopen := h.unlocked hfirst
        ⟨hopen.pair, hopen.spray, hopen.recent, hopen.failures, hopen.passed⟩, h.locked⟩
  | submit =>
      cases hstep
      have hflight : (s.attempts ++ [Attempt.checking s.clock]).countP Attempt.inFlight =
          s.inFlight := by
        rw [List.countP_append]
        rfl
      refine ⟨h.only, ?_, fun hfirst => ?_, h.locked⟩
      · simpa using h.wrong
      · have hopen := h.unlocked hfirst
        exact ⟨hopen.pair, hopen.spray, hopen.recent, hopen.failures,
          hopen.passed.trans (by rw [← hflight]; rfl)⟩
  | check place =>
      simp only [loginStep] at hstep
      split at hstep
      case h_2 => cases hstep
      case h_1 now hx =>
        split at hstep
        case isTrue =>
          cases hstep
          exact h.pass hx
        case isFalse =>
          cases hstep
          exact h.move hx rfl (by decide)
  | verify place correct =>
      have hfalse : correct = false := hlabel
      subst hfalse
      simp only [loginStep] at hstep
      split at hstep
      case h_2 => cases hstep
      case h_1 hx =>
        cases hstep
        exact h.move hx rfl Attempt.noConfusion
  | record place =>
      simp only [loginStep] at hstep
      split at hstep
      case h_1 now hx =>
        cases hstep
        exact h.recordFailure hx
      case h_2 hx => exact absurd (List.mem_of_getElem? hx) h.wrong
      case h_3 => cases hstep

omit [DecidableEq IpAddr] in
theorem Logins.admitted_open {s : Logins IpAddr} (h : s.first_lockout = none) :
    s.admitted = s.passed.length := by
  unfold Logins.admitted
  rw [h]
  exact List.countP_eq_length.mpr fun _ _ => rfl

/-- Setting the first lockout leaves no more admitted attempts than before. -/
theorem Logins.admitted_recordFailure_le (s : Logins IpAddr) (place : ℕ) (now : Instant) :
    (s.recordFailure ip username place now).admitted ≤ s.admitted := by
  apply List.countP_mono_left
  intro stamp _ hstamp
  cases hfirst : s.first_lockout with
  | none => rfl
  | some u =>
      have hkept : (s.recordFailure ip username place now).first_lockout = some u := by
        show s.first_lockout.or _ = some u
        rw [hfirst]
        rfl
      rw [hkept] at hstamp
      exact hstamp

/-- **One step.** From a state with at most five admitted attempts a step leads
to another one exactly when it does not overcommit. -/
theorem Tallied.admitted_iff {s t : Logins IpAddr} {label : LoginLabel}
    (h : Tallied ip username s) (hlabel : WrongPassword label)
    (hle : s.admitted ≤ loginMaxFailures)
    (hstep : loginStep ip username s label = some t) :
    t.admitted ≤ loginMaxFailures ↔ ¬ Overcommits ip username s label := by
  cases label with
  | tick nanos =>
      cases hstep
      exact iff_of_true hle not_false
  | submit =>
      cases hstep
      exact iff_of_true hle not_false
  | check place =>
      simp only [loginStep] at hstep
      split at hstep
      case h_2 => cases hstep
      case h_1 now hx =>
        cases hfirst : s.first_lockout with
        | none =>
            have hopen := h.unlocked hfirst
            rw [if_pos (h.allowed now hfirst)] at hstep
            cases hstep
            rw [Logins.admitted_open (by exact hfirst)]
            show s.passed.length + 1 ≤ loginMaxFailures ↔ ¬(s.first_lockout = none ∧
              loginMaxFailures ≤ (s.throttle.pair ip username).failures + s.inFlight)
            rw [hopen.passed, and_iff_right hfirst]
            omega
        | some u =>
            have hkeeps : ¬ Overcommits ip username s (.check place) := by
              rintro ⟨hnone, _⟩
              rw [hfirst] at hnone
              cases hnone
            refine iff_of_true ?_ hkeeps
            split at hstep
            case isTrue hallowed =>
              cases hstep
              have hlate := h.not_lt_of_allowed hallowed hfirst
              have hout : (s.first_lockout.all fun until_ => decide (now < until_)) = false := by
                rw [hfirst]
                exact decide_eq_false hlate
              show (now :: s.passed).countP _ ≤ loginMaxFailures
              rw [List.countP_cons_of_neg (by rw [hout]; exact Bool.false_ne_true)]
              exact hle
            case isFalse =>
              cases hstep
              exact hle
  | verify place correct =>
      simp only [loginStep] at hstep
      split at hstep
      case h_2 => cases hstep
      case h_1 hx =>
        cases hstep
        exact iff_of_true hle not_false
  | record place =>
      simp only [loginStep] at hstep
      split at hstep
      case h_1 now hx =>
        cases hstep
        exact iff_of_true ((s.admitted_recordFailure_le place now).trans hle) not_false
      case h_2 hx => exact absurd (List.mem_of_getElem? hx) h.wrong
      case h_3 => cases hstep

/-- **The lockout bounds parallel attempts exactly while none overcommits.** In
a run of attempts with wrong passwords, at most `LOGIN_MAX_FAILURES` get past
the check before the first lockout expires if and only if no attempt is checked
while the recorded failures and the attempts in flight already make up that
many. -/
theorem admitted_le_iff (ip : IpAddr) (username : String) (labels : List LoginLabel)
    (hwrong : ∀ label ∈ labels, WrongPassword label) :
    Throughout (loginStep ip username) (fun s => s.admitted ≤ loginMaxFailures)
        Logins.start labels ↔
      EachStep (loginStep ip username) (fun s label => ¬ Overcommits ip username s label)
        Logins.start labels := by
  apply throughout_iff_eachStep_of_mem (loginStep ip username) (A := WrongPassword)
    (I := Tallied ip username)
  case hkeep => exact fun s label t hlabel h _ hstep => h.step hlabel hstep
  case hexact => exact fun s label t hlabel h hle hstep => h.admitted_iff hlabel hle hstep
  case hA => exact hwrong
  case hI => exact Tallied.start
  case hP => exact Nat.zero_le _

end

/-! ## One by one, and all at once -/

/-- Five attempts, each recorded before the next one arrives, and a sixth. -/
def oneByOne : List LoginLabel :=
  (List.range 5).flatMap (fun place =>
    [.submit, .check place, .tick 100000000, .verify place false, .record place]) ++
    [.submit, .check 5]

theorem admitted_le_iff_oneByOne :
    (∀ label ∈ oneByOne, WrongPassword label) ∧
      (Throughout (loginStep "198.51.100.7" "admin")
          (fun s => s.admitted ≤ loginMaxFailures) Logins.start oneByOne ↔
        EachStep (loginStep "198.51.100.7" "admin")
          (fun s label => ¬ Overcommits "198.51.100.7" "admin" s label)
          Logins.start oneByOne) := by
  have hwrong : ∀ label ∈ oneByOne, WrongPassword label := by
    simp [oneByOne, WrongPassword, List.range, List.range.loop]
  exact ⟨hwrong, admitted_le_iff "198.51.100.7" "admin" oneByOne hwrong⟩

/-- Six login forms arrive and are checked before any of their passwords has
been verified. -/
def sixAtOnce : List LoginLabel :=
  List.replicate 6 .submit ++ (List.range 6).map .check

/-- All six get past the check. -/
theorem sixAtOnce_admits_six :
    (∀ label ∈ sixAtOnce, WrongPassword label) ∧
      ¬ Throughout (loginStep "198.51.100.7" "admin")
        (fun s => s.admitted ≤ loginMaxFailures) Logins.start sixAtOnce := by
  constructor
  · simp [sixAtOnce, WrongPassword, List.replicate, List.range, List.range.loop]
  · intro h
    have hrun : (run (loginStep "198.51.100.7" "admin") Logins.start sixAtOnce).map
        Logins.admitted = some 6 := by
      decide +kernel
    obtain ⟨t, ht, hadmitted⟩ := Option.map_eq_some_iff.mp hrun
    have hbound : t.admitted ≤ loginMaxFailures := h sixAtOnce t (List.prefix_refl _) ht
    rw [hadmitted] at hbound
    exact absurd hbound (by decide)

end Wallermax.Limits
