import Wallermax.Auth.SessionInvariant

/-!
# What a family revocation guarantees

`revoke_refresh_token_family` stamps the rows the family has at that moment.
The insert of a successor is a later statement of a request that may have won
its compare-and-swap before: it puts an unrevoked row into the revoked family.
That insert is the only step that brings a revoked family back to life, so a
run keeps its revoked families dead exactly when no such insert happens in it.
-/

namespace Wallermax.Auth

open Wallermax.Base Wallermax.Accounts

variable {auth : AuthContext}

/-- **Revoked families are dead**: each of their rows is stamped, and no
rotation of one of them is accepted. -/
def Dead (w : World) : Prop :=
  ∀ F, .revoked F ∈ w.history → ∀ i r, (i, r) ∈ w.db.refresh_tokens.rows →
    r.family_id = F → r.revoked_at.isSome = true ∧
      ∀ now, (rotateRefreshToken w.db i now).2 = false

/-- The step is the insert of a successor into a family revoked before, for an
account that still exists. -/
def Overtakes (w : World) : Label → Bool
  | .exec r _ =>
      match w.phase r with
      | .insertSuccessor _ _ record _ token =>
          w.history.contains (.revoked record.family_id) &&
            (findById w.db.users token.user_id).isSome
      | _ => false
  | _ => false

/-- The stamps carry the rest: a revoked row is never redeemable. -/
theorem dead_iff {w : World} : Dead w ↔
    ∀ F, .revoked F ∈ w.history → ∀ i r, (i, r) ∈ w.db.refresh_tokens.rows →
      r.family_id = F → r.revoked_at.isSome = true := by
  constructor
  · intro h F hF i r hr hfam
    exact (h F hF i r hr hfam).1
  · intro h F hF i r hr hfam
    refine ⟨h F hF i r hr hfam, fun now => ?_⟩
    by_contra hwon
    obtain ⟨s, hs, hred⟩ := rotateRefreshToken_wins.mp (by simpa using hwon)
    have hrev := h F hF i r hr hfam
    rw [Table.eq_of_mem hr hs, (RefreshToken.redeemable_iff.mp hred).2] at hrev
    cases hrev

/-! ## Steps that keep revoked families dead -/

theorem Dead.soft {w : World} {db' : AuthDb} {r : ℕ} {next : Phase}
    {es : List Event} (h : Dead w) (hret : Retires w.db db')
    (hes : ∀ F, .revoked F ∈ es → ∀ i s, (i, s) ∈ db'.refresh_tokens.rows →
      s.family_id = F → s.revoked_at.isSome = true) :
    Dead (w.advance r db' next es) := by
  rw [dead_iff] at h ⊢
  intro F hF i s hs hfam
  rcases List.mem_append.mp hF with hF | hF
  · obtain ⟨s₀, hs₀, hage⟩ := hret.row i s hs
    exact hage.revoked_at (h F hF i s₀ hs₀ (hage.family_id.symm.trans hfam))
  · exact hes F hF i s hs hfam

/-- A new row is unrevoked, so it must not join a revoked family. -/
theorem Dead.insert_iff {w : World} {db' : AuthDb} {r id : ℕ} {next : Phase}
    {token : NewRefreshToken} {es : List Event} (h : Dead w)
    (hins : insertRefreshToken w.db token = .ok (db', id))
    (hes : ∀ F, .revoked F ∉ es) :
    Dead (w.advance r db' next es) ↔ .revoked token.row.family_id ∉ w.history := by
  obtain ⟨_, _, hdb, _, _⟩ := insertRefreshToken_ok hins
  rw [dead_iff] at h ⊢
  constructor
  · intro hdead hrev
    have := hdead token.row.family_id (List.mem_append_left _ hrev)
      w.db.refresh_tokens.nextId token.row
      (by simp [World.advance, hdb]) rfl
    simp [NewRefreshToken.row] at this
  · intro hrev F hF i s hs hfam
    have hF : .revoked F ∈ w.history :=
      (List.mem_append.mp hF).resolve_right (hes F)
    simp only [World.advance, hdb, Table.mem_insert] at hs
    rcases hs with hs | hs
    · exact h F hF i s hs hfam
    · cases hs
      exact absurd (hfam ▸ hF) hrev

/-- Founding a family: its id was never revoked, being founded only now. -/
theorem Dead.setFamily {w : World} {r id : ℕ} {value : String} (hi : Inv auth w)
    (h : Dead w) (hr : w.phase r = .setFamily value id) :
    Dead (w.advance r (setFamilyId w.db id) (.loggedIn value)
      [.founded id, .delivered (auth.hashRefreshToken value)]) := by
  have hp := hi.phase_ok r
  rw [hr] at hp
  rw [dead_iff] at h ⊢
  intro F hF i s hs hfam
  have hF : .revoked F ∈ w.history := by simpa [World.advance] using hF
  obtain ⟨s₀, hs₀, rfl⟩ := mem_setFamilyId.mp hs
  by_cases hid : i = id
  · simp only [hid, if_true] at hfam
    exact absurd (hi.revoked_founded F hF) (hfam ▸ hp.2.1)
  · simp only [hid, if_false] at hfam ⊢
    exact h F hF i s₀ hs₀ hfam

/-- Under the invariant the successor's insert fails only for want of the
account: its hash is stored nowhere. -/
theorem Inv.insert_succeeds {w : World} {q : ℕ} {value : String}
    {token : NewRefreshToken} (h : Inv auth w)
    (hnew : Unstored auth w.history q value token) :
    (findById w.db.users token.user_id).isSome = true ↔
      ∃ db' id, insertRefreshToken w.db token = .ok (db', id) := by
  have hdup : ¬ 0 < w.db.refresh_tokens.count
      fun _ r => r.token_hash == token.token_hash := by
    intro hpos
    obtain ⟨i, r, hr, hh⟩ := Table.count_pos.mp hpos
    obtain ⟨q', hq'⟩ := h.row_stored i r hr
    have heq : r.token_hash = auth.hashRefreshToken value :=
      (by simpa using hh : r.token_hash = token.token_hash).trans hnew.token_hash
    exact hnew.not_stored q' i (heq ▸ hq')
  simp only [insertRefreshToken, hdup, if_false]
  cases findById w.db.users token.user_id <;> simp

/-- Revoking a family leaves it dead. -/
theorem Dead.revokeFamily {w : World} {r family_id : ℕ} {now : ℤ} {next : Phase}
    (h : Dead w) : Dead (w.advance r (revokeRefreshTokenFamily w.db family_id now) next
      [.revoked family_id]) := by
  apply h.soft (retires_revokeFamily _ _ _)
  intro F hF i s hs hfam
  rw [List.mem_singleton, Event.revoked.injEq] at hF
  exact revokeFamily_revoked hs (hfam.trans hF)

/-- **The successor's insert** keeps the revoked families dead unless it goes
through into one of them. -/
theorem Dead.insertSuccessor {w : World} {r id : ℕ} {value new : String}
    {record : RefreshToken} {token : NewRefreshToken} {env : Env} {db' : AuthDb}
    {next : Phase} {es : List Event} (hi : Inv auth w) (h : Dead w)
    (hph : w.phase r = .insertSuccessor value id record new token)
    (hst : statement auth env r w.db (.insertSuccessor value id record new token) =
      some (db', next, es)) :
    Dead (w.advance r db' next es) ↔ Overtakes w (.exec r env) = false := by
  have hp := hi.phase_ok r
  rw [hph] at hp
  obtain ⟨_, _, hnew, hfam⟩ := hp
  have hF : token.row.family_id = record.family_id := by
    simp [NewRefreshToken.row, hfam]
  simp only [Overtakes, hph]
  simp only [statement] at hst
  split at hst <;> cases hst
  · rename_i hins
    have hgone : (findById w.db.users token.user_id).isSome = false := by
      rw [← Bool.not_eq_true, hi.insert_succeeds hnew]
      simp [hins]
    refine iff_of_true (h.soft (.refl _) (by simp)) ?_
    simp [hgone]
  · rename_i hins
    have hthere := (hi.insert_succeeds hnew).mpr ⟨_, _, hins⟩
    rw [h.insert_iff hins (by simp), hF]
    simp [hthere]

/-- Every other statement keeps the revoked families dead. -/
theorem Dead.exec {w : World} {r : ℕ} {env : Env} {db' : AuthDb} {next : Phase}
    {es : List Event} (hi : Inv auth w) (h : Dead w)
    (hother : ∀ value id record new token,
      w.phase r ≠ .insertSuccessor value id record new token)
    (hst : statement auth env r w.db (w.phase r) = some (db', next, es)) :
    Dead (w.advance r db' next es) := by
  have hp := hi.phase_ok r
  cases hph : w.phase r <;> rw [hph] at hst hp <;> simp only [statement] at hst
  case insertLogin value token =>
    split at hst <;> cases hst
    · exact h.soft (.refl _) (by simp)
    · rename_i hins
      -- the placeholder family is never revoked
      refine (h.insert_iff hins (by simp)).mpr fun hrev => ?_
      have hpos := (hi.founded_pos (hi.revoked_founded _ hrev)).1
      simp [NewRefreshToken.row, hp.2] at hpos
  case setFamily value id =>
    cases hst
    exact h.setFamily hi hph
  case prune =>
    cases hst
    exact h.soft (retires_deleteExpired _ _) (by simp)
  case find =>
    cases hst
    exact h.soft (.refl _) (by simp)
  case rotate value id record now =>
    cases hst
    apply h.soft (retires_rotate _ _ _)
    cases (rotateRefreshToken w.db id now).2 <;> simp
  case findUser =>
    cases hst
    apply h.soft (.refl _)
    intro F hF
    exfalso
    revert hF
    unfold Phase.draws
    split <;> simp
  case insertSuccessor => exact absurd hph (hother _ _ _ _ _)
  case revokeFamily family_id now =>
    cases hst
    exact h.revokeFamily
  case findLogout =>
    cases hst
    exact h.soft (.refl _) (by simp)
  case revokeLogout family_id now =>
    cases hst
    exact h.revokeFamily
  case revokeAll =>
    cases hst
    exact h.soft (retires_revokeAll _ _ _) (by simp)
  all_goals cases hst

/-- **The step lemma**: from a world whose revoked families are dead, a step
leads to another one exactly when it does not overtake a revocation. -/
theorem dead_step {w w' : World} {label : Label} (hi : Inv auth w) (h : Dead w)
    (hs : step auth w label = some w') :
    Dead w' ↔ Overtakes w label = false := by
  cases label with
  | start r request env =>
      simp only [step, Option.ite_none_right_eq_some] at hs
      obtain ⟨_, heq⟩ := hs
      cases heq
      refine iff_of_true (h.soft (.refl _) ?_) rfl
      intro F hF
      exfalso
      cases request <;>
        simp [arrival, SessionRequest.value?, begin, Phase.draws] at hF
  | exec r env =>
      obtain ⟨⟨db', next, es⟩, hst, hs⟩ := Option.bind_eq_some_iff.mp hs
      simp only [Option.ite_none_right_eq_some] at hs
      obtain ⟨-, heq⟩ := hs
      cases heq
      cases hph : w.phase r
      case insertSuccessor => exact Dead.insertSuccessor hi h hph (hph ▸ hst)
      all_goals
        refine iff_of_true (Dead.exec hi h (by simp [hph]) hst) ?_
        simp only [Overtakes, hph]
  | fail r =>
      obtain ⟨next, _, rfl⟩ := Option.map_eq_some_iff.mp hs
      exact iff_of_true (h.soft (.refl _) (by simp)) rfl
  | drop r =>
      obtain ⟨next, _, rfl⟩ := Option.map_eq_some_iff.mp hs
      exact iff_of_true (h.soft (.refl _) (by simp)) rfl
  | createUser username password_hash role now =>
      simp only [step] at hs
      split at hs <;> cases hs
      · exact iff_of_true h rfl
      · exact iff_of_true (dead_iff.mpr (dead_iff.mp h)) rfl
  | deleteUser id =>
      cases hs
      refine iff_of_true (dead_iff.mpr fun F hF i s hs hfam => ?_) rfl
      obtain ⟨s₀, hs₀, hage⟩ := (retires_deleteAccount _ _).row i s hs
      exact hage.revoked_at
        (dead_iff.mp h F hF i s₀ hs₀ (hage.family_id.symm.trans hfam))

/-! ## Runs -/

/-- **When revocation holds.** Along a schedule of any number of requests,
every revoked family stays dead in every state exactly when no step inserts a
successor into a family revoked before it. -/
theorem revoked_stay_dead_iff (users : Users) (labels : List Label) :
    Throughout (step auth) Dead (World.initial users) labels ↔
      EachStep (step auth) (fun w label => Overtakes w label = false)
        (World.initial users) labels :=
  throughout_iff_eachStep (step auth) (I := Inv auth)
    (fun _ _ _ hi _ hs => hi.step hs) (fun _ _ _ hi h hs => dead_step hi h hs)
    (Inv.initial users) (by simp [Dead, World.initial])

/-- A refresh wins its compare-and-swap; the token it presented is replayed and
the family revoked; the refresh then inserts its successor. -/
def sampleOvertaken : List Label :=
  sampleWon ++
    [.start 2 (.refresh sampleFirst) ⟨21, "", true⟩, .exec 2 ⟨21, "", true⟩,
      .exec 2 ⟨21, "", true⟩, .exec 2 ⟨21, "", true⟩] ++ sampleSucceeds

/-- Family `1` is revoked, and its row `2` is there unrevoked. -/
theorem revoked_family_revived :
    ¬ Throughout (step sampleAuth) Dead (World.initial Table.empty)
      sampleOvertaken := by
  intro hall
  have hrun : (run (step sampleAuth) (World.initial Table.empty)
      sampleOvertaken).any (fun w => w.history.contains (.revoked 1) &&
        w.db.refresh_tokens.rows.any fun row =>
          row.2.family_id == 1 && row.2.revoked_at.isNone) = true := by
    decide +kernel
  obtain ⟨w, hw, hbad⟩ := (Option.any_eq_true _ _).mp hrun
  simp only [Bool.and_eq_true, List.contains_iff_mem, List.any_eq_true, beq_iff_eq] at hbad
  obtain ⟨hrev, ⟨i, r⟩, hr, hfam, hnone⟩ := hbad
  have hdead := (hall _ w (List.prefix_refl _) hw 1 hrev i r hr hfam).1
  rw [Option.isNone_iff_eq_none.mp hnone] at hdead
  cases hdead

end Wallermax.Auth
