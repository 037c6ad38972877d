import Wallermax.Limits.RateLimiter

/-!
# The login throttle

Failed logins are counted for each pair of client address and user name, and
for each address. `check_at` only reads; the count advances when
`record_failure_at` is called, after the password has been verified, so what
bounds the attempts that reach the verification is the counts plus the attempts
still being verified.
-/

namespace Wallermax.Limits

open Wallermax.Base

/-! ## The tables of the throttle -/

/-- Nanoseconds in one second. -/
def second : ℕ := 10 ^ 9

/-- `LOGIN_MAX_FAILURES`. -/
def loginMaxFailures : ℕ := 5

/-- `LOGIN_LOCKOUT_BASE`. -/
def loginLockoutBase : ℕ := 30 * second

/-- `LOGIN_LOCKOUT_MAX`. -/
def loginLockoutMax : ℕ := 15 * 60 * second

/-- `LOGIN_SPRAY_FAILURES`. -/
def loginSprayFailures : ℕ := 20

/-- `LOGIN_SPRAY_WINDOW`. -/
def loginSprayWindow : ℕ := 5 * 60 * second

/-- `LOGIN_SPRAY_LOCKOUT`. -/
def loginSprayLockout : ℕ := 5 * 60 * second

/-- `LOGIN_IDLE_HORIZON`. -/
def loginIdleHorizon : ℕ := 15 * 60 * second

/-- `MAX_TRACKED_LOGIN_KEYS`. -/
def maxTrackedLoginKeys : ℕ := 10000

structure PairEntry : Type where
  failures : ℕ
  lockouts : ℕ
  locked_until : Option Instant
  last_seen : Instant
deriving DecidableEq

structure SprayEntry : Type where
  recent : List Instant
  locked_until : Option Instant
deriving DecidableEq

structure LoginThrottle (IpAddr : Type) : Type where
  pairs : HashMap (IpAddr × String) PairEntry
  sprays : HashMap IpAddr SprayEntry

/-- `lockout_for`: doubling from the base, capped. -/
def lockoutFor (consecutive_lockouts : ℕ) : ℕ :=
  min (loginLockoutBase * 2 ^ min (consecutive_lockouts - 1) 6) loginLockoutMax

/-- `seconds_until`: whole seconds, at least one. -/
def secondsUntil (until_ now : Instant) : ℕ := max ((until_ - now) / second) 1

/-- `locked_until.is_some_and(|until| until > now)`. -/
def isLocked (locked_until : Option Instant) (now : Instant) : Bool :=
  locked_until.any fun until_ => decide (now < until_)

/-- `str::to_ascii_lowercase`. -/
def toAsciiLowercase (s : String) : String := String.ofList (s.toList.map Char.toLower)

section

variable {IpAddr : Type} [DecidableEq IpAddr]

/-- `LoginThrottle::new`. -/
def LoginThrottle.new : LoginThrottle IpAddr := ⟨∅, ∅⟩

/-- `LoginThrottle::check_at`: the lock of the address first, then the pair's. -/
def LoginThrottle.checkAt (t : LoginThrottle IpAddr) (ip : IpAddr) (username : String)
    (now : Instant) : Decision :=
  let username := toAsciiLowercase username
  let sprayed := (t.sprays.lookup ip).bind SprayEntry.locked_until
  if isLocked sprayed now then .Rejected (secondsUntil (sprayed.getD now) now)
  else
    match t.pairs.lookup (ip, username) with
    | none => .Allowed loginMaxFailures
    | some entry =>
        if isLocked entry.locked_until now then
          .Rejected (secondsUntil (entry.locked_until.getD now) now)
        else .Allowed ((loginMaxFailures - entry.failures : ℕ) : ℚ)

/-- `sweep_stale_pairs`. -/
def sweepStalePairs (pairs : HashMap (IpAddr × String) PairEntry) (now : Instant) :
    HashMap (IpAddr × String) PairEntry :=
  pairs.retain fun _ entry =>
    isLocked entry.locked_until now || decide (now - entry.last_seen < loginIdleHorizon)

/-- `sweep_stale_sprays`. -/
def sweepStaleSprays (sprays : HashMap IpAddr SprayEntry) (now : Instant) :
    HashMap IpAddr SprayEntry :=
  sprays.retain fun _ entry =>
    isLocked entry.locked_until now ||
      entry.recent.getLast?.any fun stamp => decide (now - stamp < loginSprayWindow)

/-- Room for one more key: sweep, and if that frees nothing, reset. -/
def makeRoom {κ β : Type} [DecidableEq κ] (m : HashMap κ β) (sweep : HashMap κ β → HashMap κ β)
    (key : κ) : HashMap κ β :=
  if key ∉ m ∧ maxTrackedLoginKeys ≤ m.len then
    let swept := sweep m
    if maxTrackedLoginKeys ≤ swept.len then ∅ else swept
  else m

/-- One more failure of a pair that is not locked. -/
def PairEntry.fail (entry : PairEntry) (now : Instant) : PairEntry :=
  if loginMaxFailures ≤ entry.failures + 1 then
    { failures := 0
      lockouts := entry.lockouts + 1
      locked_until := some (now + lockoutFor (entry.lockouts + 1))
      last_seen := now }
  else
    { entry with
      failures := entry.failures + 1
      last_seen := now }

/-- One more failure of an address that is not locked: the stamps older than
the window go, from the front. -/
def SprayEntry.fail (entry : SprayEntry) (now : Instant) : SprayEntry :=
  let recent := (entry.recent ++ [now]).dropWhile fun stamp =>
    decide (loginSprayWindow < now - stamp)
  if loginSprayFailures ≤ recent.length then ⟨[], some (now + loginSprayLockout)⟩
  else { entry with
    recent := recent }

/-- `LoginThrottle::record_failure_at`. A failure of a locked pair counts for
neither. -/
def LoginThrottle.recordFailureAt (t : LoginThrottle IpAddr) (ip : IpAddr)
    (username : String) (now : Instant) : LoginThrottle IpAddr :=
  let key := (ip, toAsciiLowercase username)
  let pairs := makeRoom t.pairs (sweepStalePairs · now) key
  let entry := (pairs.lookup key).getD ⟨0, 0, none, now⟩
  if isLocked entry.locked_until now then
    { t with
      pairs := pairs.insert key { entry with
        last_seen := now } }
  else
    let sprays := makeRoom t.sprays (sweepStaleSprays · now) ip
    let spray := (sprays.lookup ip).getD ⟨[], none⟩
    { pairs := pairs.insert key (entry.fail now)
      sprays := sprays.insert ip (if isLocked spray.locked_until now then spray
        else spray.fail now) }

/-- `LoginThrottle::record_success`: the pair's slate is wiped. -/
def LoginThrottle.recordSuccess (t : LoginThrottle IpAddr) (ip : IpAddr)
    (username : String) : LoginThrottle IpAddr :=
  { t with
    pairs := t.pairs.erase (ip, toAsciiLowercase username) }

end

end Wallermax.Limits
