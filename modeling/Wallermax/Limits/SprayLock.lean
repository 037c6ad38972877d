import Wallermax.Base.SlidingWindow
import Wallermax.Limits.LoginAttempts

/-!
# The lock of a spraying address

Runs of calls on one throttle, for any addresses and user names. A recorded failure
counts for its address exactly when a check at its instant would have let it pass: a
failure of a locked pair, or of a locked address, returns before the counter.
-/

namespace Wallermax.Limits

open Wallermax.Base

inductive ThrottleOp : Type where
  | check_at
  | record_failure_at
  | record_success
deriving DecidableEq

structure ThrottleCall (IpAddr : Type) : Type where
  now : Instant
  op : ThrottleOp
  ip : IpAddr
  username : String

section

variable {IpAddr : Type} [DecidableEq IpAddr]

def LoginThrottle.call (t : LoginThrottle IpAddr) (c : ThrottleCall IpAddr) :
    LoginThrottle IpAddr :=
  match c.op with
  | .check_at => t
  | .record_failure_at => t.recordFailureAt c.ip c.username c.now
  | .record_success => t.recordSuccess c.ip c.username

def LoginThrottle.after (t : LoginThrottle IpAddr) (calls : List (ThrottleCall IpAddr)) :
    LoginThrottle IpAddr :=
  calls.foldl LoginThrottle.call t

/-- Both tables track fewer keys than they may. -/
def LoginThrottle.Roomy (t : LoginThrottle IpAddr) : Prop :=
  t.pairs.len < maxTrackedLoginKeys ∧ t.sprays.len < maxTrackedLoginKeys

instance (t : LoginThrottle IpAddr) : Decidable t.Roomy := inferInstanceAs (Decidable (_ ∧ _))

/-- The call records a failed attempt from the address that passes `check_at` at its own
instant. -/
def LoginThrottle.failsFrom (t : LoginThrottle IpAddr) (ip : IpAddr) (c : ThrottleCall IpAddr) :
    Bool :=
  c.op = .record_failure_at ∧ c.ip = ip ∧ (t.checkAt c.ip c.username c.now).isAllowed

/-- The instants of these failures in a run. -/
def LoginThrottle.failures (ip : IpAddr) (t : LoginThrottle IpAddr) :
    List (ThrottleCall IpAddr) → List Instant
  | [] => []
  | c :: calls =>
    if t.failsFrom ip c then c.now :: (t.call c).failures ip calls
    else (t.call c).failures ip calls

/-- No lock of the address is in force behind any of the calls; a lock that is not in
force then is not before the next call either. -/
def LoginThrottle.SprayFree (ip : IpAddr) (t : LoginThrottle IpAddr) :
    List (ThrottleCall IpAddr) → Prop
  | [] => True
  | c :: calls =>
    isLocked ((t.call c).spray ip).locked_until c.now = false ∧ (t.call c).SprayFree ip calls

instance instDecidableSprayFree (ip : IpAddr) :
    (t : LoginThrottle IpAddr) → (calls : List (ThrottleCall IpAddr)) →
    Decidable (t.SprayFree ip calls)
  | _, [] => inferInstanceAs (Decidable True)
  | t, c :: calls =>
    @instDecidableAnd _ _ _ (instDecidableSprayFree ip (t.call c) calls)

/-- A run with instants in order and room in the tables. -/
structure Orderly (calls : List (ThrottleCall IpAddr)) : Prop where
  ordered : (calls.map ThrottleCall.now).Pairwise (· ≤ ·)
  roomy : ∀ done, done <+: calls → (LoginThrottle.new.after done).Roomy

/-! ## One call -/

theorem makeRoom_of_lt {κ β : Type} [DecidableEq κ] {m : HashMap κ β}
    (sweep : HashMap κ β → HashMap κ β) (key : κ) (h : m.len < maxTrackedLoginKeys) :
    makeRoom m sweep key = m :=
  if_neg fun hfull => Nat.not_le_of_lt h hfull.2

theorem LoginThrottle.recordFailureAt_sprays {t : LoginThrottle IpAddr} (hroomy : t.Roomy)
    (ip : IpAddr) (username : String) (now : Instant) :
    (t.recordFailureAt ip username now).sprays =
      if isLocked (t.pair ip username).locked_until now then t.sprays
      else t.sprays.insert ip (if isLocked (t.spray ip).locked_until now then t.spray ip
        else (t.spray ip).fail now) := by
  obtain ⟨entry, hentry, -, hlock, -⟩ := t.entry_eq ip username now
  unfold LoginThrottle.recordFailureAt
  simp only [makeRoom_of_lt _ _ hroomy.1, makeRoom_of_lt _ _ hroomy.2, ← hentry]
  rw [hlock]
  split
  · rfl
  · rfl

theorem LoginThrottle.failsFrom_iff {t : LoginThrottle IpAddr} {ip : IpAddr}
    {c : ThrottleCall IpAddr} :
    t.failsFrom ip c = true ↔ c.op = .record_failure_at ∧ c.ip = ip ∧
      isLocked (t.spray c.ip).locked_until c.now = false ∧
      isLocked (t.pair c.ip c.username).locked_until c.now = false := by
  unfold LoginThrottle.failsFrom
  rw [decide_eq_true_eq, LoginThrottle.checkAt_isAllowed, Bool.and_eq_true, Bool.not_eq_true',
    Bool.not_eq_true']

theorem LoginThrottle.spray_insert (pairs : HashMap (IpAddr × String) PairEntry)
    (sprays : HashMap IpAddr SprayEntry) (ip : IpAddr) (entry : SprayEntry) :
    (⟨pairs, sprays.insert ip entry⟩ : LoginThrottle IpAddr).spray ip = entry := by
  unfold LoginThrottle.spray
  rw [AList.lookup_insert]
  rfl

/-- What a call does to the entry of an address. -/
theorem LoginThrottle.spray_call {t : LoginThrottle IpAddr} (hroomy : t.Roomy) (ip : IpAddr)
    (c : ThrottleCall IpAddr) :
    (t.call c).spray ip = if t.failsFrom ip c then (t.spray ip).fail c.now else t.spray ip := by
  by_cases hop : c.op = .record_failure_at
  · have hcall : (t.call c).sprays = (t.recordFailureAt c.ip c.username c.now).sprays := by
      unfold LoginThrottle.call
      rw [hop]
    rw [LoginThrottle.recordFailureAt_sprays hroomy] at hcall
    unfold LoginThrottle.spray at hcall ⊢
    rw [hcall]
    by_cases hip : c.ip = ip
    · subst hip
      cases hpair : isLocked (t.pair c.ip c.username).locked_until c.now with
      | true =>
          -- the early return of a locked pair
          have hnot : ¬ t.failsFrom c.ip c = true := by
            rw [LoginThrottle.failsFrom_iff, hpair]
            simp
          rw [if_pos rfl, if_neg hnot]
      | false =>
          rw [if_neg Bool.false_ne_true, AList.lookup_insert, Option.getD_some]
          change (if isLocked (t.spray c.ip).locked_until c.now then t.spray c.ip else _) =
            if _ then (t.spray c.ip).fail c.now else t.spray c.ip
          cases hspray : isLocked (t.spray c.ip).locked_until c.now with
          | true =>
              have hnot : ¬ t.failsFrom c.ip c = true := by
                rw [LoginThrottle.failsFrom_iff, hspray]
                simp
              rw [if_pos rfl, if_neg hnot]
          | false =>
              have hfails : t.failsFrom c.ip c = true :=
                LoginThrottle.failsFrom_iff.mpr ⟨hop, rfl, hspray, hpair⟩
              rw [if_neg Bool.false_ne_true, if_pos hfails]
              rfl
    · have hnot : ¬ t.failsFrom ip c = true := by
        rw [LoginThrottle.failsFrom_iff]
        exact fun h => hip h.2.1
      rw [if_neg hnot]
      split
      · rfl
      · rw [AList.lookup_insert_ne (Ne.symm hip)]
  · have hnot : ¬ t.failsFrom ip c = true := by
      rw [LoginThrottle.failsFrom_iff]
      exact fun h => hop h.1
    rw [if_neg hnot]
    unfold LoginThrottle.call
    cases hop' : c.op with
    | check_at => rfl
    | record_failure_at => exact absurd hop' hop
    | record_success => rfl

/-! ## Runs -/

theorem LoginThrottle.after_append (t : LoginThrottle IpAddr)
    (first second : List (ThrottleCall IpAddr)) :
    t.after (first ++ second) = (t.after first).after second := List.foldl_append

theorem LoginThrottle.failures_cons_of_fails {ip : IpAddr} {t : LoginThrottle IpAddr}
    {c : ThrottleCall IpAddr} (h : t.failsFrom ip c = true) (calls : List (ThrottleCall IpAddr)) :
    t.failures ip (c :: calls) = c.now :: (t.call c).failures ip calls := if_pos h

theorem LoginThrottle.failures_cons_of_not {ip : IpAddr} {t : LoginThrottle IpAddr}
    {c : ThrottleCall IpAddr} (h : ¬ t.failsFrom ip c = true)
    (calls : List (ThrottleCall IpAddr)) :
    t.failures ip (c :: calls) = (t.call c).failures ip calls := if_neg h

theorem LoginThrottle.failures_append (ip : IpAddr) (t : LoginThrottle IpAddr)
    (first second : List (ThrottleCall IpAddr)) :
    t.failures ip (first ++ second) = t.failures ip first ++ (t.after first).failures ip second := by
  induction first generalizing t with
  | nil => rfl
  | cons c first ih =>
      show (if t.failsFrom ip c then c.now :: (t.call c).failures ip (first ++ second)
        else (t.call c).failures ip (first ++ second)) = (if t.failsFrom ip c then _ else _) ++ _
      rw [ih (t.call c)]
      split <;> rfl

theorem LoginThrottle.failures_sublist (ip : IpAddr) (t : LoginThrottle IpAddr)
    (calls : List (ThrottleCall IpAddr)) :
    (t.failures ip calls).Sublist (calls.map ThrottleCall.now) := by
  induction calls generalizing t with
  | nil => exact List.Sublist.refl _
  | cons c calls ih =>
      unfold LoginThrottle.failures
      split
      · exact (ih _).cons_cons _
      · exact (ih _).cons _

/-- There is room before each of the calls. -/
def LoginThrottle.RoomyAlong (t : LoginThrottle IpAddr) (calls : List (ThrottleCall IpAddr)) :
    Prop :=
  ∀ done, done <+: calls → (t.after done).Roomy

theorem LoginThrottle.RoomyAlong.head {t : LoginThrottle IpAddr}
    {calls : List (ThrottleCall IpAddr)} (h : t.RoomyAlong calls) : t.Roomy :=
  h [] List.nil_prefix

theorem LoginThrottle.RoomyAlong.tail {t : LoginThrottle IpAddr} {c : ThrottleCall IpAddr}
    {calls : List (ThrottleCall IpAddr)} (h : t.RoomyAlong (c :: calls)) :
    (t.call c).RoomyAlong calls := fun done hdone =>
  h (c :: done) (List.cons_prefix_cons.mpr ⟨rfl, hdone⟩)

theorem LoginThrottle.RoomyAlong.append {t : LoginThrottle IpAddr}
    {first second : List (ThrottleCall IpAddr)} (h : t.RoomyAlong (first ++ second)) :
    t.RoomyAlong first ∧ (t.after first).RoomyAlong second := by
  constructor
  · exact fun done hdone => h done (hdone.trans (List.prefix_append ..))
  · intro done hdone
    have := h (first ++ done) ((List.prefix_append_right_inj first).mpr hdone)
    rwa [LoginThrottle.after_append] at this

/-! ## The stamps of an address -/

theorem SprayEntry.fail_eq (entry : SprayEntry) (now : Instant) :
    entry.fail now =
      if loginSprayFailures ≤ (SlidingWindow.slide loginSprayWindow entry.recent now).length then
        ⟨[], some (now + loginSprayLockout)⟩
      else
        { entry with
          recent := SlidingWindow.slide loginSprayWindow entry.recent now } := rfl

theorem isLocked_some (until_ now : Instant) :
    isLocked (some until_) now = decide (now < until_) := rfl

theorem isLocked_lockout (now : Instant) :
    isLocked (some (now + loginSprayLockout)) now = true := by
  have hpos : 0 < loginSprayLockout := by decide
  rw [isLocked_some, decide_eq_true_eq]
  exact Nat.lt_add_of_pos_right hpos

/-- As long as the address is not locked, what was counted within the window of an
instant to come is kept. -/
theorem LoginThrottle.failures_suffix {ip : IpAddr} {last : Instant}
    {during : List (ThrottleCall IpAddr)} {t : LoginThrottle IpAddr} {kept : List Instant}
    (hroomy : t.RoomyAlong during) (hfree : t.SprayFree ip during)
    (hle : ∀ c ∈ during, c.now ≤ last)
    (hwindow : ∀ stamp ∈ kept ++ t.failures ip during, last ≤ stamp + loginSprayWindow)
    (hkept : kept <:+ (t.spray ip).recent) :
    kept ++ t.failures ip during <:+ ((t.after during).spray ip).recent := by
  induction during generalizing t kept with
  | nil =>
      rw [LoginThrottle.failures, List.append_nil]
      exact hkept
  | cons c during ih =>
      have hspray := LoginThrottle.spray_call hroomy.head ip c
      have hnow : c.now ≤ last := hle c List.mem_cons_self
      have hrest : ∀ c ∈ during, c.now ≤ last := fun d hd => hle d (List.mem_cons_of_mem c hd)
      show _ <:+ (((t.call c).after during).spray ip).recent
      by_cases hfails : t.failsFrom ip c = true
      · rw [LoginThrottle.failures_cons_of_fails hfails] at hwindow ⊢
        rw [if_pos hfails, SprayEntry.fail_eq] at hspray
        have hslide : kept ++ [c.now] <:+
            SlidingWindow.slide loginSprayWindow (t.spray ip).recent c.now := by
          refine SlidingWindow.suffix_slide hkept fun stamp hstamp => ?_
          exact hnow.trans (hwindow stamp (List.mem_append_left _ hstamp))
        split at hspray
        · -- a full window locks the address
          have hlocked := hfree.1
          rw [hspray, isLocked_lockout] at hlocked
          cases hlocked
        · rw [← List.singleton_append, ← List.append_assoc] at hwindow ⊢
          refine ih hroomy.tail hfree.2 hrest hwindow ?_
          rwa [hspray]
      · rw [LoginThrottle.failures_cons_of_not hfails] at hwindow ⊢
        rw [if_neg hfails] at hspray
        refine ih hroomy.tail hfree.2 hrest hwindow ?_
        rwa [hspray]

/-- A lock in force keeps the entry as it is. -/
theorem LoginThrottle.spray_after_of_locked {ip : IpAddr} {until_ : Instant}
    {later : List (ThrottleCall IpAddr)} {t : LoginThrottle IpAddr} (hroomy : t.RoomyAlong later)
    (hlock : (t.spray ip).locked_until = some until_) (hlt : ∀ c ∈ later, c.now < until_) :
    ((t.after later).spray ip).locked_until = some until_ := by
  induction later generalizing t with
  | nil => exact hlock
  | cons c later ih =>
      have hnot : ¬ t.failsFrom ip c = true := by
        rw [LoginThrottle.failsFrom_iff]
        rintro ⟨-, rfl, hfree, -⟩
        rw [hlock, isLocked_some, decide_eq_false_iff_not] at hfree
        exact hfree (hlt c List.mem_cons_self)
      have hspray := LoginThrottle.spray_call hroomy.head ip c
      rw [if_neg hnot] at hspray
      refine ih hroomy.tail ?_ fun d hd => hlt d (List.mem_cons_of_mem c hd)
      rw [hspray, hlock]

/-- As long as no window fills up, there is no lock, and the stamps are the newest of the
failures. -/
theorem LoginThrottle.unlocked_of_few {ip : IpAddr} (calls : List (ThrottleCall IpAddr))
    (hrun : Orderly calls)
    (hfew : ∀ start, SlidingWindow.inWindow loginSprayWindow start
      (LoginThrottle.new.failures ip calls) < loginSprayFailures) :
    ((LoginThrottle.new.after calls).spray ip).locked_until = none ∧
      ((LoginThrottle.new.after calls).spray ip).recent <:+
        LoginThrottle.new.failures ip calls := by
  induction calls using List.reverseRecOn with
  | nil => exact ⟨rfl, List.suffix_refl _⟩
  | append_singleton calls c ih =>
      have hfirst : Orderly calls := by
        refine ⟨?_, fun done hdone => hrun.roomy done (hdone.trans (List.prefix_append ..))⟩
        refine hrun.ordered.sublist ?_
        rw [List.map_append]
        exact List.sublist_append_left ..
      have hfails := LoginThrottle.failures_append ip LoginThrottle.new calls [c]
      have hsub : ∀ start, SlidingWindow.inWindow loginSprayWindow start
          (LoginThrottle.new.failures ip calls) < loginSprayFailures := by
        intro start
        refine Nat.lt_of_le_of_lt ?_ (hfew start)
        rw [hfails]
        exact (List.sublist_append_left ..).countP_le
      obtain ⟨hnone, hsuffix⟩ := ih hfirst hsub
      have hroomy : (LoginThrottle.new.after calls).Roomy :=
        hrun.roomy calls (List.prefix_append ..)
      have hspray := LoginThrottle.spray_call hroomy ip c
      rw [LoginThrottle.after_append]
      show ((((LoginThrottle.new.after calls).call c).spray ip).locked_until = none) ∧
        (((LoginThrottle.new.after calls).call c).spray ip).recent <:+ _
      rw [hfails] at hfew ⊢
      by_cases hc : (LoginThrottle.new.after calls).failsFrom ip c = true
      · rw [LoginThrottle.failures_cons_of_fails hc, LoginThrottle.failures] at hfew ⊢
        have hsorted : (LoginThrottle.new.failures ip calls ++ [c.now]).Pairwise (· ≤ ·) := by
          refine hrun.ordered.sublist ?_
          rw [List.map_append, List.map_singleton]
          exact (LoginThrottle.failures_sublist ..).append (List.Sublist.refl _)
        obtain ⟨start, hlen⟩ :=
          SlidingWindow.exists_length_slide_le loginSprayWindow hsorted hsuffix
        have hlt := Nat.lt_of_le_of_lt hlen (hfew start)
        rw [if_pos hc, SprayEntry.fail_eq, if_neg (Nat.not_le_of_lt hlt)] at hspray
        rw [hspray]
        refine ⟨hnone, SlidingWindow.slide_suffix.trans ?_⟩
        obtain ⟨front, hfront⟩ := hsuffix
        exact ⟨front, by rw [← List.append_assoc, hfront]⟩
      · rw [LoginThrottle.failures_cons_of_not hc, LoginThrottle.failures, List.append_nil]
        rw [if_neg hc] at hspray
        rw [hspray]
        exact ⟨hnone, hsuffix⟩

/-! ## The lock -/

end

/-- A failed attempt for the user of a letter. -/
def victim (letter : Char) : ThrottleCall String :=
  ⟨0, .record_failure_at, "198.51.100.7", String.ofList [letter]⟩

/-- Nineteen failures for as many users, and one more. -/
def spraying : List (ThrottleCall String) := "abcdefghijklmnopqrs".toList.map victim ++ [victim 't']

end Wallermax.Limits
