import Wallermax.Auth.Sessions

/-!
# The session handlers, run to the end

`login`, `refresh`, `logout` and `logout_all` as functions of the database, for
a server that serves one request at a time and whose storage does not fail.
`refresh_schedule` connects them to the interleaving machine: a refresh served
alone is one start followed by the request's own statements.
-/

namespace Wallermax.Auth

open Wallermax.Base Wallermax.Accounts

section
variable (auth : AuthContext)

/-- `save_refresh_token`: the new database, the row's id and its family. -/
def saveRefreshToken (db : AuthDb) (token : NewRefreshToken) :
    Except RepositoryError (AuthDb × ℕ × ℕ) :=
  match insertRefreshToken db token with
  | .error error => .error error
  | .ok (db', id) =>
      match token.family_id with
      | some family_id => .ok (db', id, family_id)
      | none => .ok (setFamilyId db' id, id, id)

/-- `issue_refresh_token`: the value handed out and its family. -/
def issueRefreshToken (db : AuthDb) (user_id : ℕ) (family_id : Option ℕ)
    (env : Env) : AuthDb × Except AppError (String × ℕ) :=
  match saveRefreshToken db
      (newRefreshToken auth user_id family_id env.mint env.now) with
  | .error _ => (db, .error storageFailure)
  | .ok (db', _, family_id) => (db', .ok (env.mint, family_id))

/-- The session half of `issue_login`, the password verified. -/
def login (db : AuthDb) (user_id : ℕ) (env : Env) :
    AuthDb × Except AppError (String × ℕ) :=
  issueRefreshToken auth db user_id none env

/-- `refresh` after a won rotation: the account must still exist. -/
def refreshRotated (now : ℤ) (env : Env) (db : AuthDb) (record : RefreshToken) :
    AuthDb × Except AppError (String × ℕ) :=
  match findById db.users record.user_id with
  | none =>
      (revokeRefreshTokenFamily db record.family_id now, .error invalidRefreshToken)
  | some (user_id, _) =>
      if env.signed then
        issueRefreshToken auth db user_id (some record.family_id) env
      else (db, .error signingFailed)

/-- `refresh`. `now` is the handler's clock, `env.now` the clock read when the
successor is minted. -/
def refresh (now : ℤ) (env : Env) (db : AuthDb) (refresh_token : String) :
    AuthDb × Except AppError (String × ℕ) :=
  let db := deleteExpiredRefreshTokens db now
  match sanitizeRefreshToken refresh_token with
  | none => (db, .error tooLong)
  | some value =>
    match findRefreshTokenByHash db (auth.hashRefreshToken value) with
    | none => (db, .error invalidRefreshToken)
    | some (id, record) =>
      if record.revoked_at.isSome then (db, .error invalidRefreshToken)
      else if record.rotated_at.isSome then
        (revokeRefreshTokenFamily db record.family_id now, .error invalidRefreshToken)
      else if record.expires_at ≤ now then (db, .error invalidRefreshToken)
      else
        let rotated := rotateRefreshToken db id now
        if rotated.2 then refreshRotated auth now env rotated.1 record
        else
          (revokeRefreshTokenFamily rotated.1 record.family_id now,
            .error invalidRefreshToken)

/-- `revoke_logout_family`; the answer is `204` whatever it finds. -/
def logout (now : ℤ) (db : AuthDb) (user_id : ℕ) (refresh_token : String) :
    AuthDb :=
  match sanitizeRefreshTokenOpt refresh_token with
  | none => db
  | some value =>
    match findRefreshTokenByHash db (auth.hashRefreshToken value) with
    | none => db
    | some (_, record) =>
      if record.user_id = user_id then
        revokeRefreshTokenFamily db record.family_id now
      else db

end

variable {auth : AuthContext}

/-! ## Against the interleaving machine -/

/-- Request `r`, left alone, runs to phase `p` with database `db'`. -/
def Finishes (auth : AuthContext) (r : ℕ) (env : Env) (w : World) (db' : AuthDb)
    (p : Phase) : Prop :=
  ∃ n w', run (step auth) w (List.replicate n (.exec r env)) = some w' ∧
    w'.db = db' ∧ w'.phase r = p ∧ ∀ q ≠ r, w'.phase q = w.phase q

theorem Finishes.here {r : ℕ} {env : Env} {w : World} {p : Phase}
    (h : w.phase r = p) : Finishes auth r env w w.db p :=
  ⟨0, w, rfl, rfl, h, fun _ _ => rfl⟩

/-- One more statement. -/
theorem Finishes.exec {r : ℕ} {env : Env} {w : World} {db₁ db' : AuthDb}
    {next p : Phase} {es : List Event}
    (hs : statement auth env r w.db (w.phase r) = some (db₁, next, es))
    (hfresh : freshDraws w.history es = true)
    (h : Finishes auth r env (w.advance r db₁ next es) db' p) :
    Finishes auth r env w db' p := by
  obtain ⟨n, w', hrun, hdb, hp, hother⟩ := h
  refine ⟨n + 1, w', ?_, hdb, hp, fun q hq => ?_⟩
  · rw [List.replicate_succ, run_cons]
    simp only [step, hs, Option.bind_some, hfresh, if_true, hrun]
  · rw [hother q hq]
    simp [World.advance, hq]

@[simp] theorem advance_phase_self (w : World) (r : ℕ) (db : AuthDb)
    (next : Phase) (es : List Event) : (w.advance r db next es).phase r = next := by
  simp [World.advance]

@[simp] theorem advance_db (w : World) (r : ℕ) (db : AuthDb) (next : Phase)
    (es : List Event) : (w.advance r db next es).db = db := rfl

@[simp] theorem advance_history (w : World) (r : ℕ) (db : AuthDb) (next : Phase)
    (es : List Event) : (w.advance r db next es).history = w.history ++ es := rfl

/-- The phase a refresh ends in. -/
def refreshAnswer (value : String) : Except AppError (String × ℕ) → Phase
  | .error error => .failed error
  | .ok (new, _) => .refreshed value new

/-- What is left of a refresh that won its compare-and-swap. -/
theorem finishes_won {w : World} {r id : ℕ} {env : Env} {value : String}
    {record : RefreshToken} {now : ℤ}
    (hp : w.phase r = .findUser value id record now)
    (hfresh : fresh w.history (auth.hashRefreshToken env.mint) = true) :
    Finishes auth r env w (refreshRotated auth now env w.db record).1
      (refreshAnswer value (refreshRotated auth now env w.db record).2) := by
  unfold refreshRotated
  cases hfind : findById w.db.users record.user_id with
  | none =>
      refine .exec (by rw [hp]; rfl)
        (by simp [afterFindUser, hfind, Phase.draws, freshDraws]) ?_
      refine .exec (by simp only [advance_phase_self, afterFindUser, hfind]; rfl)
        (by simp [freshDraws]) ?_
      exact .here (by simp [refreshAnswer])
  | some user =>
      cases hsig : env.signed with
      | false =>
          refine .exec (by rw [hp]; rfl)
            (by simp [afterFindUser, hfind, hsig, Phase.draws, freshDraws]) ?_
          exact .here (by simp [refreshAnswer, afterFindUser, hfind, hsig])
      | true =>
          refine .exec (by rw [hp]; rfl)
            (by simp [afterFindUser, hfind, hsig, Phase.draws, freshDraws, hfresh]) ?_
          simp only [if_true, issueRefreshToken, saveRefreshToken, newRefreshToken]
          cases hins : insertRefreshToken w.db
              (newRefreshToken auth user.1 (some record.family_id) env.mint env.now) with
          | error error =>
              refine .exec (by
                simp only [advance_phase_self, afterFindUser, hfind, hsig, if_true,
                  statement, advance_db, hins]
                rfl) (by simp [freshDraws]) ?_
              simp only [newRefreshToken] at hins
              rw [hins]
              exact .here (by simp [refreshAnswer])
          | ok inserted =>
              refine .exec (by
                simp only [advance_phase_self, afterFindUser, hfind, hsig, if_true,
                  statement, advance_db, hins]
                rfl) (by simp [freshDraws]) ?_
              simp only [newRefreshToken] at hins
              rw [hins]
              exact .here (by simp [refreshAnswer])

/-- **A refresh served alone is the handler.** Started and then run statement by
statement without interruption, request `r` leaves the database and the answer
`refresh` computes. -/
theorem refresh_schedule {w : World} {r : ℕ} {env : Env} {value : String} {now : ℤ}
    (hidle : w.phase r = .idle)
    (hadm : presentable w.history (auth.hashRefreshToken value) = true)
    (hfresh : fresh w.history (auth.hashRefreshToken env.mint) = true)
    (hother : auth.hashRefreshToken env.mint ≠ auth.hashRefreshToken value) :
    ∃ n w', run (step auth) w
        (.start r (.refresh value) { env with now := now } ::
          List.replicate n (.exec r env)) = some w' ∧
      w'.db = (refresh auth now env w.db value).1 ∧
      w'.phase r = refreshAnswer value (refresh auth now env w.db value).2 := by
  suffices h : Finishes auth r env
      (w.advance r w.db (.prune value now) [.presented (auth.hashRefreshToken value)])
      (refresh auth now env w.db value).1
      (refreshAnswer value (refresh auth now env w.db value).2) by
    obtain ⟨n, w', hrun, hdb, hp, _⟩ := h
    refine ⟨n, w', ?_, hdb, hp⟩
    rw [run_cons]
    simpa [step, hidle, admissible, SessionRequest.value?, hadm, arrival, freshDraws,
      begin] using hrun
  refine .exec (by rw [advance_phase_self]; rfl) (by simp [freshDraws]) ?_
  simp only [refresh, advance_db, afterPrune]
  cases hsan : sanitizeRefreshToken value with
  | none => exact .here (by simp [refreshAnswer])
  | some value' =>
      obtain rfl : value' = value := by
        unfold sanitizeRefreshToken at hsan
        split at hsan <;> cases hsan
        rfl
      refine .exec (by rw [advance_phase_self]; rfl) (by simp [freshDraws]) ?_
      simp only [advance_db]
      cases hfind : findRefreshTokenByHash (deleteExpiredRefreshTokens w.db now)
          (auth.hashRefreshToken value') with
      | none => exact .here (by simp [refreshAnswer, afterFind])
      | some found =>
          obtain ⟨id, record⟩ := found
          simp only [afterFind]
          by_cases hrev : record.revoked_at.isSome = true
          · simp only [hrev, if_true]
            exact .here (by simp [refreshAnswer])
          by_cases hrot : record.rotated_at.isSome = true
          · simp only [hrev, hrot, if_true, Bool.false_eq_true, if_false]
            refine .exec (by rw [advance_phase_self]; rfl) (by simp [freshDraws]) ?_
            exact .here (by simp [refreshAnswer])
          by_cases hexp : record.expires_at ≤ now
          · simp only [hrev, hrot, hexp, if_true, Bool.false_eq_true, if_false]
            exact .here (by simp [refreshAnswer])
          simp only [hrev, hrot, hexp, Bool.false_eq_true, if_false]
          refine .exec (by rw [advance_phase_self]; rfl) ?_ ?_
          · split <;> simp [freshDraws]
          simp only [advance_db]
          by_cases hwon : (rotateRefreshToken (deleteExpiredRefreshTokens w.db now) id
              now).2 = true
          · simp only [afterRotate, hwon, if_true]
            refine finishes_won (by rw [advance_phase_self]) ?_
            simpa [fresh, Event.drew, hother] using hfresh
          · simp only [afterRotate, hwon, Bool.false_eq_true, if_false]
            refine .exec (by rw [advance_phase_self]; rfl) (by simp [freshDraws]) ?_
            exact .here (by simp [refreshAnswer])

end Wallermax.Auth
