import Wallermax.Auth.Handlers

/-!
# Reuse detection is complete

The session endpoints served one request at a time, over a log of every value
ever handed out. The invariant ties the rows to the log: as long as one row of
a family is unrevoked, *every* value issued in that family still has its row,
unrevoked. So a retired value of a live family is always recognised.
-/

namespace Wallermax.Auth

open Wallermax.Base Wallermax.Accounts

/-- A value handed out, with the family it was issued in. -/
structure Issued : Type where
  family_id : ℕ
  value : String
deriving DecidableEq

structure Session : Type where
  db : AuthDb
  issued : List Issued

/-- One request, or one administrative change, served to its end. The clock is
arbitrary at each. -/
inductive Op : Type where
  | login (user_id : ℕ) (env : Env)
  | refresh (refresh_token : String) (now : ℤ) (env : Env)
  | logout (user_id : ℕ) (refresh_token : String) (now : ℤ)
  | logoutAll (user_id : ℕ) (now : ℤ)
  | prune (now : ℤ)
  | createUser (username password_hash : String) (role : UserRole) (now : ℤ)
  | deleteUser (id : ℕ)

section
variable (auth : AuthContext)

/-- A minted value: 43 characters, and no value handed out before has its
hash. -/
def minted (issued : List Issued) (value : String) : Bool :=
  value.utf8ByteSize == mintedLen &&
    issued.all fun e => auth.hashRefreshToken e.value != auth.hashRefreshToken value

/-- The log after a handler's answer. -/
def Session.answer (issued : List Issued) :
    AuthDb × Except AppError (String × ℕ) → Session
  | (db, .ok (value, family_id)) =>
      { db := db, issued := issued ++ [{ family_id := family_id, value := value }] }
  | (db, .error _) => { db := db, issued := issued }

/-- Serve one request. -/
def serve (s : Session) : Op → Option Session
  | .login user_id env =>
      if minted auth s.issued env.mint = true then
        some (.answer s.issued (Auth.login auth s.db user_id env))
      else none
  | .refresh refresh_token now env =>
      if minted auth s.issued env.mint = true then
        some (.answer s.issued (refresh auth now env s.db refresh_token))
      else none
  | .logout user_id refresh_token now =>
      some { s with db := logout auth now s.db user_id refresh_token }
  | .logoutAll user_id now =>
      some { s with db := revokeAllRefreshTokens s.db user_id now }
  | .prune now => some { s with db := deleteExpiredRefreshTokens s.db now }
  | .createUser username password_hash role now =>
      match insertUser s.db.users username password_hash role now with
      | .error _ => some s
      | .ok (users, _) => some { s with db := { s.db with users := users } }
  | .deleteUser id => some { s with db := deleteAccount s.db id }

def Session.initial (users : Users) : Session where
  db := { users := users, refresh_tokens := Table.empty }
  issued := []

/-- Reached by some sequence of requests. -/
def Served (s : Session) : Prop :=
  ∃ users ops, run (serve auth) (Session.initial users) ops = some s

end

variable {auth : AuthContext}

/-! ## The invariant -/

/-- Some row of the family is unrevoked. -/
def Live (db : AuthDb) (F : ℕ) : Prop :=
  ∃ i r, (i, r) ∈ db.refresh_tokens.rows ∧ r.family_id = F ∧ r.revoked_at = none

structure Complete (auth : AuthContext) (s : Session) : Prop where
  /-- Every value of a live family has its row, unrevoked. -/
  present : ∀ e ∈ s.issued, Live s.db e.family_id →
    ∃ i r, (i, r) ∈ s.db.refresh_tokens.rows ∧ r.family_id = e.family_id ∧
      r.token_hash = auth.hashRefreshToken e.value ∧ r.revoked_at = none
  /-- A family is revoked as a whole. -/
  uniform : ∀ i r j t, (i, r) ∈ s.db.refresh_tokens.rows →
    (j, t) ∈ s.db.refresh_tokens.rows → r.family_id = t.family_id →
      r.user_id = t.user_id ∧ (r.revoked_at = none ↔ t.revoked_at = none)
  one_redeemable : ∀ i r j t, (i, r) ∈ s.db.refresh_tokens.rows →
    (j, t) ∈ s.db.refresh_tokens.rows → r.family_id = t.family_id →
      r.redeemable = true → t.redeemable = true → i = j
  hash_unique : ∀ i r j t, (i, r) ∈ s.db.refresh_tokens.rows →
    (j, t) ∈ s.db.refresh_tokens.rows → r.token_hash = t.token_hash → i = j
  row_issued : ∀ i r, (i, r) ∈ s.db.refresh_tokens.rows →
    ∃ e ∈ s.issued, e.family_id = r.family_id ∧
      auth.hashRefreshToken e.value = r.token_hash
  issued_unique : ∀ e ∈ s.issued, ∀ e' ∈ s.issued,
    auth.hashRefreshToken e.value = auth.hashRefreshToken e'.value → e = e'
  issued_len : ∀ e ∈ s.issued, e.value.utf8ByteSize = mintedLen
  issued_le : ∀ e ∈ s.issued, e.family_id ≤ s.db.refresh_tokens.seq

theorem Complete.initial (users : Users) : Complete auth (Session.initial users) := by
  constructor <;> simp [Session.initial]

/-! ## Families are retired whole -/

/-- Rows are only retired, and a family that keeps an unrevoked row keeps all
its unrevoked rows. -/
structure RetiresWhole (db db' : AuthDb) : Prop where
  retires : Retires db db'
  whole : ∀ i r, (i, r) ∈ db.refresh_tokens.rows → r.revoked_at = none →
    Live db' r.family_id → ∃ r', (i, r') ∈ db'.refresh_tokens.rows ∧
      r'.revoked_at = none

theorem Live.of_retires {db db' : AuthDb} {F : ℕ} (h : Live db' F)
    (hret : Retires db db') : Live db F := by
  obtain ⟨i, r', hr', hF, hrev⟩ := h
  obtain ⟨r, hr, hage⟩ := hret.row i r' hr'
  refine ⟨i, r, hr, hage.family_id ▸ hF, ?_⟩
  by_contra hne
  have := hage.revoked_at (Option.isSome_iff_ne_none.mpr hne)
  simp [hrev] at this

/-- An unrevoked row that survives is the same row, aged. -/
theorem RetiresWhole.keeps {db db' : AuthDb} (h : RetiresWhole db db') {i : ℕ}
    {r : RefreshToken} (hr : (i, r) ∈ db.refresh_tokens.rows)
    (hrev : r.revoked_at = none) (hlive : Live db' r.family_id) :
    ∃ r', (i, r') ∈ db'.refresh_tokens.rows ∧ r.Ages r' ∧ r'.revoked_at = none := by
  obtain ⟨r', hr', hrev'⟩ := h.whole i r hr hrev hlive
  obtain ⟨r₀, hr₀, hage⟩ := h.retires.row i r' hr'
  rw [Table.eq_of_mem hr₀ hr] at hage
  exact ⟨r', hr', hage, hrev'⟩

theorem Complete.retire {s : Session} {db' : AuthDb} (h : Complete auth s)
    (hret : RetiresWhole s.db db') : Complete auth { s with db := db' } := by
  constructor
  case present =>
    intro e he hlive
    obtain ⟨i, r, hr, hF, hh, hrev⟩ := h.present e he (hlive.of_retires hret.retires)
    obtain ⟨r', hr', hage, hrev'⟩ := hret.keeps hr hrev (hF ▸ hlive)
    exact ⟨i, r', hr', hage.family_id.trans hF, hage.token_hash.trans hh, hrev'⟩
  case uniform =>
    have hdir : ∀ i r' j t', (i, r') ∈ db'.refresh_tokens.rows →
        (j, t') ∈ db'.refresh_tokens.rows → r'.family_id = t'.family_id →
        r'.user_id = t'.user_id ∧ (r'.revoked_at = none → t'.revoked_at = none) := by
      intro i r' j t' hr' ht' hF
      obtain ⟨r, hr, hra⟩ := hret.retires.row i r' hr'
      obtain ⟨t, ht, hta⟩ := hret.retires.row j t' ht'
      have hF₀ : r.family_id = t.family_id := by
        rw [← hra.family_id, ← hta.family_id, hF]
      obtain ⟨huser, hrev⟩ := h.uniform i r j t hr ht hF₀
      refine ⟨by rw [hra.user_id, hta.user_id, huser], fun hnone => ?_⟩
      have hr_none : r.revoked_at = none := by
        by_contra hne
        have := hra.revoked_at (Option.isSome_iff_ne_none.mpr hne)
        simp [hnone] at this
      have hlive : Live db' t.family_id :=
        ⟨i, r', hr', hra.family_id.trans hF₀, hnone⟩
      obtain ⟨t'', ht'', _, hnone''⟩ := hret.keeps ht (hrev.mp hr_none) hlive
      rw [Table.eq_of_mem ht' ht'']
      exact hnone''
    intro i r' j t' hr' ht' hF
    obtain ⟨huser, h₁⟩ := hdir i r' j t' hr' ht' hF
    exact ⟨huser, h₁, (hdir j t' i r' ht' hr' hF.symm).2⟩
  case one_redeemable =>
    intro i r' j t' hr' ht' hF hrr htt
    obtain ⟨r, hr, hra⟩ := hret.retires.row i r' hr'
    obtain ⟨t, ht, hta⟩ := hret.retires.row j t' ht'
    exact h.one_redeemable i r j t hr ht (by rw [← hra.family_id, ← hta.family_id, hF])
      (hra.redeemable hrr) (hta.redeemable htt)
  case hash_unique =>
    intro i r' j t' hr' ht' hh
    obtain ⟨r, hr, hra⟩ := hret.retires.row i r' hr'
    obtain ⟨t, ht, hta⟩ := hret.retires.row j t' ht'
    exact h.hash_unique i r j t hr ht (by rw [← hra.token_hash, ← hta.token_hash, hh])
  case row_issued =>
    intro i r' hr'
    obtain ⟨r, hr, hra⟩ := hret.retires.row i r' hr'
    obtain ⟨e, he, hF, hh⟩ := h.row_issued i r hr
    exact ⟨e, he, hF.trans hra.family_id.symm, hh.trans hra.token_hash.symm⟩
  case issued_unique => exact h.issued_unique
  case issued_len => exact h.issued_len
  case issued_le =>
    intro e he
    exact hret.retires.seq ▸ h.issued_le e he

/-! ## The statements, family by family -/

theorem RetiresWhole.refl (db : AuthDb) : RetiresWhole db db where
  retires := .refl db
  whole _ r hr hrev _ := ⟨r, hr, hrev⟩

/-- **Pruning keeps every unrevoked row**, so it keeps the retired rows of a
live family. -/
theorem whole_deleteExpired (db : AuthDb) (now : ℤ) :
    RetiresWhole db (deleteExpiredRefreshTokens db now) where
  retires := retires_deleteExpired db now
  whole _ r hr hrev _ := ⟨r, Table.mem_delete.mpr ⟨hr, by simp [hrev]⟩, hrev⟩

theorem whole_rotate (db : AuthDb) (id : ℕ) (now : ℤ) :
    RetiresWhole db (rotateRefreshToken db id now).1 where
  retires := retires_rotate db id now
  whole i r hr hrev _ := by
    refine ⟨_, mem_rotateRefreshToken.mpr ⟨r, hr, rfl⟩, ?_⟩
    split <;> exact hrev

theorem whole_revokeFamily (db : AuthDb) (F : ℕ) (now : ℤ) :
    RetiresWhole db (revokeRefreshTokenFamily db F now) where
  retires := retires_revokeFamily db F now
  whole i r hr hrev hlive := by
    obtain ⟨j, t, ht, hF, hnone⟩ := hlive
    have hne : r.family_id ≠ F := by
      intro heq
      have := revokeFamily_revoked ht (hF.trans heq)
      simp [hnone] at this
    exact ⟨r, Table.mem_update.mpr ⟨r, hr, by simp [hne]⟩, hrev⟩

/-- The rows of one family belong to one account, so revoking an account's
tokens revokes whole families. -/
theorem whole_revokeAll {s : Session} (h : Complete auth s) (user_id : ℕ)
    (now : ℤ) : RetiresWhole s.db (revokeAllRefreshTokens s.db user_id now) where
  retires := retires_revokeAll s.db user_id now
  whole i r hr hrev hlive := by
    obtain ⟨j, t, ht, hF, hnone⟩ := hlive
    obtain ⟨t₀, ht₀, rfl⟩ := Table.mem_update.mp ht
    have hu : t₀.user_id ≠ user_id := by
      intro heq
      cases hrev₀ : t₀.revoked_at <;> simp [heq, hrev₀] at hnone
    have hF₀ : r.family_id = t₀.family_id := by
      split at hF <;> exact hF.symm
    have hne : r.user_id ≠ user_id := by
      rw [(h.uniform i r j t₀ hr ht₀ hF₀).1]
      exact hu
    exact ⟨r, Table.mem_update.mpr ⟨r, hr, by simp [hne]⟩, hrev⟩

theorem whole_deleteAccount {s : Session} (h : Complete auth s) (user_id : ℕ) :
    RetiresWhole s.db (deleteAccount s.db user_id) where
  retires := retires_deleteAccount s.db user_id
  whole i r hr hrev hlive := by
    obtain ⟨j, t, ht, hF, hnone⟩ := hlive
    obtain ⟨ht, hu⟩ := Table.mem_delete.mp ht
    refine ⟨r, Table.mem_delete.mpr ⟨hr, ?_⟩, hrev⟩
    rw [(h.uniform i r j t hr ht hF.symm).1]
    exact hu

theorem whole_users (db : AuthDb) (users : Users) :
    RetiresWhole db { db with users := users } where
  retires := retires_users db users
  whole _ r hr hrev _ := ⟨r, hr, hrev⟩

/-! ## Issuing a value -/

/-- What `save_refresh_token` adds: one row, in its own or in the given family. -/
theorem saveRefreshToken_ok {db db' : AuthDb} {token : NewRefreshToken} {id F : ℕ}
    (h : saveRefreshToken db token = .ok (db', id, F)) :
    F = token.family_id.getD db.refresh_tokens.nextId ∧
      db'.refresh_tokens.seq = db.refresh_tokens.nextId ∧
      ∀ i r, (i, r) ∈ db'.refresh_tokens.rows ↔ (i, r) ∈ db.refresh_tokens.rows ∨
        (i = db.refresh_tokens.nextId ∧ r = { token.row with family_id := F }) := by
  unfold saveRefreshToken at h
  split at h
  · cases h
  · rename_i db₁ id₁ hins
    obtain ⟨rfl, _, hdb, _, _⟩ := insertRefreshToken_ok hins
    cases hfam : token.family_id with
    | some family_id =>
        rw [hfam] at h
        cases h
        refine ⟨rfl, by rw [hdb]; rfl, fun i r => ?_⟩
        have hrow : token.row = { token.row with family_id := F } := by
          simp [NewRefreshToken.row, hfam]
        rw [hdb, Table.mem_insert, ← hrow, Prod.mk.injEq]
    | none =>
        rw [hfam] at h
        cases h
        refine ⟨rfl, by simp [setFamilyId, hdb], fun i r => ?_⟩
        rw [mem_setFamilyId, hdb]
        constructor
        · rintro ⟨t, ht, rfl⟩
          rcases Table.mem_insert.mp ht with ht | ht
          · have hne : i ≠ db.refresh_tokens.nextId := by
              rintro rfl
              exact Table.not_mem_nextId ht
            simpa [hne] using ht
          · cases ht
            exact .inr ⟨rfl, by simp⟩
        · rintro (hr | ⟨rfl, rfl⟩)
          · have hne : i ≠ db.refresh_tokens.nextId := by
              rintro rfl
              exact Table.not_mem_nextId hr
            exact ⟨r, Table.mem_insert.mpr (.inl hr), by simp [hne]⟩
          · exact ⟨token.row, Table.mem_insert.mpr (.inr rfl), by simp⟩

theorem minted_iff {issued : List Issued} {value : String} :
    minted auth issued value = true ↔ value.utf8ByteSize = mintedLen ∧
      ∀ e ∈ issued, auth.hashRefreshToken e.value ≠ auth.hashRefreshToken value := by
  simp [minted]

/-- **Issuing keeps the invariant**, when the family has no redeemable row, is
unrevoked, belongs to the account and is complete. -/
theorem Complete.issue {s : Session} {db' : AuthDb} {user_id id F : ℕ}
    {family_id : Option ℕ} {env : Env} (h : Complete auth s)
    (hmint : minted auth s.issued env.mint = true)
    (hsave : saveRefreshToken s.db
      (newRefreshToken auth user_id family_id env.mint env.now) = .ok (db', id, F))
    (hrows : ∀ i r, (i, r) ∈ s.db.refresh_tokens.rows → r.family_id = F →
      r.user_id = user_id ∧ r.revoked_at = none ∧ r.redeemable = false)
    (hissued : ∀ e ∈ s.issued, e.family_id = F → Live s.db F)
    (hle : F ≤ s.db.refresh_tokens.nextId) :
    Complete auth { db := db', issued := s.issued ++ [⟨F, env.mint⟩] } := by
  obtain ⟨hlen, hnew⟩ := minted_iff.mp hmint
  obtain ⟨_, hseq, hmem⟩ := saveRefreshToken_ok hsave
  have hfresh : ∀ i r, (i, r) ∈ s.db.refresh_tokens.rows →
      r.token_hash ≠ auth.hashRefreshToken env.mint := by
    intro i r hr heq
    obtain ⟨e, he, _, hh⟩ := h.row_issued i r hr
    exact hnew e he (hh.trans heq)
  constructor
  case present =>
    intro e he hlive
    rcases List.mem_append.mp he with he | he
    · have hold : Live s.db e.family_id := by
        obtain ⟨i, r, hr, hF, hrev⟩ := hlive
        rcases (hmem i r).mp hr with hr | ⟨rfl, rfl⟩
        · exact ⟨i, r, hr, hF, hrev⟩
        · exact hF ▸ hissued e he hF.symm
      obtain ⟨i, r, hr, hrest⟩ := h.present e he hold
      exact ⟨i, r, (hmem i r).mpr (.inl hr), hrest⟩
    · rw [List.mem_singleton.mp he]
      exact ⟨_, _, (hmem _ _).mpr (.inr ⟨rfl, rfl⟩), rfl, rfl, rfl⟩
  case uniform =>
    intro i r j t hr ht hF
    rcases (hmem i r).mp hr with hr | ⟨rfl, rfl⟩ <;>
      rcases (hmem j t).mp ht with ht | ⟨rfl, rfl⟩
    · exact h.uniform i r j t hr ht hF
    · obtain ⟨hu, hrev, _⟩ := hrows i r hr hF
      exact ⟨hu, by simp [hrev, NewRefreshToken.row]⟩
    · obtain ⟨hu, hrev, _⟩ := hrows j t ht hF.symm
      exact ⟨hu.symm, by simp [hrev, NewRefreshToken.row]⟩
    · exact ⟨rfl, Iff.rfl⟩
  case one_redeemable =>
    intro i r j t hr ht hF hrr htt
    rcases (hmem i r).mp hr with hr | ⟨rfl, rfl⟩ <;>
      rcases (hmem j t).mp ht with ht | ⟨rfl, rfl⟩
    · exact h.one_redeemable i r j t hr ht hF hrr htt
    · simp [(hrows i r hr hF).2.2] at hrr
    · simp [(hrows j t ht hF.symm).2.2] at htt
    · rfl
  case hash_unique =>
    intro i r j t hr ht hh
    rcases (hmem i r).mp hr with hr | ⟨rfl, rfl⟩ <;>
      rcases (hmem j t).mp ht with ht | ⟨rfl, rfl⟩
    · exact h.hash_unique i r j t hr ht hh
    · exact absurd hh (hfresh i r hr)
    · exact absurd hh.symm (hfresh j t ht)
    · rfl
  case row_issued =>
    intro i r hr
    rcases (hmem i r).mp hr with hr | ⟨rfl, rfl⟩
    · obtain ⟨e, he, hrest⟩ := h.row_issued i r hr
      exact ⟨e, List.mem_append_left _ he, hrest⟩
    · exact ⟨_, List.mem_append_right _ List.mem_cons_self, rfl, rfl⟩
  case issued_unique =>
    intro e he e' he' hh
    rcases List.mem_append.mp he with he | he <;>
      rcases List.mem_append.mp he' with he' | he'
    · exact h.issued_unique e he e' he' hh
    · rw [List.mem_singleton.mp he'] at hh
      exact absurd hh (hnew e he)
    · rw [List.mem_singleton.mp he] at hh
      exact absurd hh.symm (hnew e' he')
    · rw [List.mem_singleton.mp he, List.mem_singleton.mp he']
  case issued_len =>
    intro e he
    rcases List.mem_append.mp he with he | he
    · exact h.issued_len e he
    · rw [List.mem_singleton.mp he]
      exact hlen
  case issued_le =>
    intro e he
    rw [show (Session.mk db' _).db = db' from rfl, hseq]
    rcases List.mem_append.mp he with he | he
    · exact Nat.le_succ_of_le (h.issued_le e he)
    · rw [List.mem_singleton.mp he]
      exact hle

/-! ## What a refresh can do -/

/-- The ways a refresh ends after it found the row `(id, record)` in the pruned
database `db`. -/
inductive RefreshOutcome (auth : AuthContext) (now : ℤ) (env : Env) (db : AuthDb)
    (id : ℕ) (record : RefreshToken) : AuthDb × Except AppError (String × ℕ) → Prop
  | replayed (h : record.rotated_at.isSome = true) :
      RefreshOutcome auth now env db id record
        (revokeRefreshTokenFamily db record.family_id now, .error invalidRefreshToken)
  | killed : RefreshOutcome auth now env db id record
      (revokeRefreshTokenFamily (rotateRefreshToken db id now).1 record.family_id now,
        .error invalidRefreshToken)
  | stopped (error : AppError) : RefreshOutcome auth now env db id record
      ((rotateRefreshToken db id now).1, .error error)
  | issued (db' : AuthDb) (new_id F : ℕ) (h : record.redeemable = true)
      (hsave : saveRefreshToken (rotateRefreshToken db id now).1
        (newRefreshToken auth record.user_id (some record.family_id) env.mint
          env.now) = .ok (db', new_id, F)) :
      RefreshOutcome auth now env db id record (db', .ok (env.mint, F))

/-- **Inversion of `refresh`**: it prunes, and then either refuses or works on
the one row stored under the presented value. -/
theorem refresh_cases (auth : AuthContext) (now : ℤ) (env : Env) (db : AuthDb) (value : String) :
    (∃ error, refresh auth now env db value =
      (deleteExpiredRefreshTokens db now, .error error)) ∨
    ∃ id record, (id, record) ∈ (deleteExpiredRefreshTokens db now).refresh_tokens.rows ∧
      record.token_hash = auth.hashRefreshToken value ∧
      RefreshOutcome auth now env (deleteExpiredRefreshTokens db now) id record
        (refresh auth now env db value) := by
  unfold refresh
  cases hsan : sanitizeRefreshToken value with
  | none => exact .inl ⟨_, rfl⟩
  | some value' =>
      obtain rfl : value' = value := by
        unfold sanitizeRefreshToken at hsan
        split at hsan <;> cases hsan
        rfl
      simp only
      cases hfind : findRefreshTokenByHash (deleteExpiredRefreshTokens db now)
          (auth.hashRefreshToken value') with
      | none => exact .inl ⟨_, rfl⟩
      | some found =>
          obtain ⟨id, record⟩ := found
          obtain ⟨hmem, hhash⟩ := findRefreshTokenByHash_some hfind
          by_cases hrev : record.revoked_at.isSome = true
          · exact .inl ⟨_, by simp only [hrev, if_true]; rfl⟩
          by_cases hrot : record.rotated_at.isSome = true
          · right
            simp only [hrev, hrot, if_true, Bool.false_eq_true, if_false]
            exact ⟨id, record, hmem, hhash, .replayed hrot⟩
          by_cases hexp : record.expires_at ≤ now
          · exact .inl ⟨_, by
              simp only [hrev, hrot, hexp, if_true, Bool.false_eq_true, if_false]
              rfl⟩
          right
          refine ⟨id, record, hmem, hhash, ?_⟩
          simp only [hrev, hrot, hexp, Bool.false_eq_true, if_false]
          split
          · unfold refreshRotated
            split
            · exact .killed
            · rename_i user_id _ huser
              obtain ⟨rfl, _⟩ := findById_some huser
              split
              · unfold issueRefreshToken
                split
                · exact .stopped _
                · rename_i hsave
                  refine .issued _ _ _ ?_ hsave
                  rw [RefreshToken.redeemable_iff]
                  exact ⟨by simpa using hrot, by simpa using hrev⟩
              · exact .stopped _
          · exact .killed

theorem Complete.refresh {s : Session} (h : Complete auth s) (now : ℤ) (env : Env)
    (value : String) (hmint : minted auth s.issued env.mint = true) :
    Complete auth (.answer s.issued (Auth.refresh auth now env s.db value)) := by
  have hpruned := h.retire (whole_deleteExpired s.db now)
  rcases refresh_cases auth now env s.db value with
    ⟨error, heq⟩ | ⟨id, record, hmem, _, hout⟩
  · rw [heq]
    exact hpruned
  · generalize Auth.refresh auth now env s.db value = out at hout
    cases hout with
    | replayed => exact hpruned.retire (whole_revokeFamily _ _ _)
    | killed =>
        exact (hpruned.retire (whole_rotate _ _ _)).retire (whole_revokeFamily _ _ _)
    | stopped => exact hpruned.retire (whole_rotate _ _ _)
    | issued db' new_id F hred hsave =>
        have hrotated := hpruned.retire (whole_rotate _ id now)
        obtain ⟨hF, _⟩ := saveRefreshToken_ok hsave
        simp only [newRefreshToken, Option.getD_some] at hF
        subst hF
        obtain ⟨hrot_none, hrev_none⟩ := RefreshToken.redeemable_iff.mp hred
        obtain ⟨record', hmem', hage, hrev'⟩ :=
          (whole_rotate (deleteExpiredRefreshTokens s.db now) id now).keeps hmem hrev_none
            ⟨id, { record with rotated_at := some now },
              mem_rotateRefreshToken.mpr ⟨record, hmem, by simp [hred]⟩, rfl, hrev_none⟩
        refine hrotated.issue hmint hsave (fun i r hr hrF => ?_) (fun _ _ _ => ?_) ?_
        · obtain ⟨hu, hrev⟩ := hrotated.uniform i r id record' hr hmem'
            (hrF.trans hage.family_id.symm)
          refine ⟨hu.trans hage.user_id, hrev.mpr hrev', ?_⟩
          -- the one redeemable row of the family was the one just rotated
          by_contra hne
          have hrr : r.redeemable = true := by simpa using hne
          obtain ⟨r₀, hr₀, hage₀⟩ := (retires_rotate _ _ _).row i r hr
          have hi : i = id := hpruned.one_redeemable i r₀ id record hr₀ hmem
            (hage₀.family_id.symm.trans hrF) (hage₀.redeemable hrr) hred
          subst hi
          simp [rotate_not_redeemable hr] at hrr
        · exact ⟨id, record', hmem', hage.family_id, hrev'⟩
        · obtain ⟨e, he, heF, _⟩ := hrotated.row_issued id record' hmem'
          rw [← hage.family_id, ← heF]
          exact Nat.le_succ_of_le (hrotated.issued_le e he)

theorem Complete.login {s : Session} (h : Complete auth s) (env : Env)
    (user_id : ℕ) (hmint : minted auth s.issued env.mint = true) :
    Complete auth (.answer s.issued (Auth.login auth s.db user_id env)) := by
  unfold Auth.login issueRefreshToken
  split
  · exact h
  · rename_i db' id F hsave
    obtain ⟨hF, _⟩ := saveRefreshToken_ok hsave
    simp only [newRefreshToken, Option.getD_none] at hF
    -- the new family's id is the row's own, so no older row or value is in it
    have hlt : ∀ e ∈ s.issued, e.family_id ≠ F := by
      intro e he heq
      have := h.issued_le e he
      simp only [Table.nextId] at hF
      omega
    refine h.issue hmint hsave (fun i r hr hrF => ?_) (fun e he heF => ?_) hF.le
    · obtain ⟨e, he, heF, _⟩ := h.row_issued i r hr
      exact absurd (heF.trans hrF) (hlt e he)
    · exact absurd heF (hlt e he)

/-- `logout` revokes the family of the presented value or does nothing. -/
theorem logout_cases (auth : AuthContext) (now : ℤ) (db : AuthDb) (user_id : ℕ) (value : String) :
    logout auth now db user_id value = db ∨
      ∃ id record, (id, record) ∈ db.refresh_tokens.rows ∧
        record.token_hash = auth.hashRefreshToken value ∧
        logout auth now db user_id value =
          revokeRefreshTokenFamily db record.family_id now := by
  unfold logout
  cases hsan : sanitizeRefreshTokenOpt value with
  | none => exact .inl rfl
  | some value' =>
      obtain rfl : value' = value := by
        unfold sanitizeRefreshTokenOpt at hsan
        split at hsan <;> cases hsan
        rfl
      simp only
      cases hfind : findRefreshTokenByHash db (auth.hashRefreshToken value') with
      | none => exact .inl rfl
      | some found =>
          obtain ⟨id, record⟩ := found
          obtain ⟨hmem, hhash⟩ := findRefreshTokenByHash_some hfind
          simp only
          split
          · exact .inr ⟨id, record, hmem, hhash, rfl⟩
          · exact .inl rfl

/-- **The step lemma.** -/
theorem Complete.serve {s s' : Session} {op : Op} (h : Complete auth s)
    (hs : serve auth s op = some s') : Complete auth s' := by
  cases op with
  | login user_id env =>
      simp only [Auth.serve, Option.ite_none_right_eq_some] at hs
      obtain ⟨hmint, heq⟩ := hs
      cases heq
      exact h.login env user_id hmint
  | refresh value now env =>
      simp only [Auth.serve, Option.ite_none_right_eq_some] at hs
      obtain ⟨hmint, heq⟩ := hs
      cases heq
      exact h.refresh now env value hmint
  | logout user_id value now =>
      cases hs
      rcases logout_cases auth now s.db user_id value with
        heq | ⟨_, record, _, _, heq⟩ <;> rw [heq]
      · exact h
      · exact h.retire (whole_revokeFamily _ _ _)
  | logoutAll user_id now =>
      cases hs
      exact h.retire (whole_revokeAll h _ _)
  | prune now =>
      cases hs
      exact h.retire (whole_deleteExpired _ _)
  | createUser username password_hash role now =>
      simp only [Auth.serve] at hs
      split at hs <;> cases hs
      · exact h
      · exact h.retire (whole_users _ _)
  | deleteUser id =>
      cases hs
      exact h.retire (whole_deleteAccount h _)

theorem Served.complete {s : Session} (h : Served auth s) : Complete auth s := by
  obtain ⟨users, ops, hrun⟩ := h
  exact run_invariant (Auth.serve auth) (fun _ _ _ hc hs => Complete.serve hc hs)
    (Complete.initial users) hrun

/-! ## The main result -/

/-- Reuse detection in a state: whatever the clock says. -/
structure ReuseDetected (auth : AuthContext) (s : Session) : Prop where
  /-- A family with a redeemable row dies when any other value issued in it is
  presented. -/
  detected : ∀ F i r live value now env, (i, r) ∈ s.db.refresh_tokens.rows →
    r.family_id = F → r.redeemable = true → ⟨F, live⟩ ∈ s.issued →
    r.token_hash = auth.hashRefreshToken live → ⟨F, value⟩ ∈ s.issued →
    value ≠ live →
      (refresh auth now env s.db value).2 = .error invalidRefreshToken ∧
      ∀ j t, (j, t) ∈ (refresh auth now env s.db value).1.refresh_tokens.rows →
        t.family_id = F → t.redeemable = false
  /-- Pruning removes no row of a family with a redeemable row. -/
  pruning : ∀ i r j t now, (i, r) ∈ s.db.refresh_tokens.rows →
    r.redeemable = true → (j, t) ∈ s.db.refresh_tokens.rows →
    t.family_id = r.family_id →
      (j, t) ∈ (deleteExpiredRefreshTokens s.db now).refresh_tokens.rows
  /-- A presented value leaves every family but its own alone. -/
  isolated : ∀ G value, (∀ i r, (i, r) ∈ s.db.refresh_tokens.rows →
      r.token_hash = auth.hashRefreshToken value → r.family_id ≠ G) →
    ∀ j t, t.family_id = G → ∀ now env user_id,
      ((j, t) ∈ (refresh auth now env s.db value).1.refresh_tokens.rows ↔
        (j, t) ∈ (deleteExpiredRefreshTokens s.db now).refresh_tokens.rows) ∧
      ((j, t) ∈ (logout auth now s.db user_id value).refresh_tokens.rows ↔
        (j, t) ∈ s.db.refresh_tokens.rows)

theorem mem_revokeFamily_other {db : AuthDb} {F : ℕ} {now : ℤ} {j : ℕ}
    {t : RefreshToken} (h : t.family_id ≠ F) :
    (j, t) ∈ (revokeRefreshTokenFamily db F now).refresh_tokens.rows ↔
      (j, t) ∈ db.refresh_tokens.rows := by
  simp only [revokeRefreshTokenFamily, Table.mem_update]
  constructor
  · rintro ⟨t₀, ht₀, rfl⟩
    have hne : t₀.family_id ≠ F := by
      intro heq
      apply h
      split <;> exact heq
    simpa [hne] using ht₀
  · intro ht
    exact ⟨t, ht, by simp [h]⟩

theorem mem_rotate_other {db : AuthDb} {id : ℕ} {now : ℤ} {j : ℕ}
    {record t : RefreshToken} (hmem : (id, record) ∈ db.refresh_tokens.rows)
    (h : t.family_id ≠ record.family_id) :
    (j, t) ∈ (rotateRefreshToken db id now).1.refresh_tokens.rows ↔
      (j, t) ∈ db.refresh_tokens.rows := by
  rw [mem_rotateRefreshToken]
  constructor
  · rintro ⟨t₀, ht₀, rfl⟩
    by_cases hj : j = id
    · subst hj
      rw [Table.eq_of_mem ht₀ hmem] at h
      exfalso
      apply h
      split <;> rfl
    · simpa [hj] using ht₀
  · intro ht
    refine ⟨t, ht, ?_⟩
    by_cases hj : j = id
    · subst hj
      exact absurd (congrArg RefreshToken.family_id (Table.eq_of_mem ht hmem)) h
    · simp [hj]

theorem refresh_isolated {db : AuthDb} {now : ℤ} {env : Env} {value : String}
    {G j : ℕ} {t : RefreshToken} (hG : ∀ i r, (i, r) ∈ db.refresh_tokens.rows →
      r.token_hash = auth.hashRefreshToken value → r.family_id ≠ G)
    (ht : t.family_id = G) :
    (j, t) ∈ (refresh auth now env db value).1.refresh_tokens.rows ↔
      (j, t) ∈ (deleteExpiredRefreshTokens db now).refresh_tokens.rows := by
  rcases refresh_cases auth now env db value with
    ⟨error, heq⟩ | ⟨id, record, hmem, hh, hout⟩
  · rw [heq]
  · have hne : t.family_id ≠ record.family_id := by
      rw [ht]
      exact (hG id record (Table.mem_delete.mp hmem).1 hh).symm
    generalize refresh auth now env db value = out at hout
    cases hout with
    | replayed => exact mem_revokeFamily_other hne
    | killed => rw [mem_revokeFamily_other hne, mem_rotate_other hmem hne]
    | stopped => exact mem_rotate_other hmem hne
    | issued db' new_id F hred hsave =>
        obtain ⟨hF, _, hrows⟩ := saveRefreshToken_ok hsave
        simp only [newRefreshToken, Option.getD_some] at hF
        rw [hrows, mem_rotate_other hmem hne, or_iff_left]
        rintro ⟨_, rfl⟩
        exact hne hF

/-- A redeemable row keeps every issued value of its family detectable. -/
theorem Complete.detected {s : Session} (h : Complete auth s) {F i : ℕ}
    {r : RefreshToken} {live value : String} (now : ℤ) (env : Env)
    (hr : (i, r) ∈ s.db.refresh_tokens.rows) (hF : r.family_id = F)
    (hred : r.redeemable = true) (hlive : ⟨F, live⟩ ∈ s.issued)
    (hhash : r.token_hash = auth.hashRefreshToken live)
    (hvalue : ⟨F, value⟩ ∈ s.issued) (hne : value ≠ live) :
    Auth.refresh auth now env s.db value =
      (revokeRefreshTokenFamily (deleteExpiredRefreshTokens s.db now) F now,
        .error invalidRefreshToken) := by
  have hp := h.retire (whole_deleteExpired s.db now)
  obtain ⟨_, hrev⟩ := RefreshToken.redeemable_iff.mp hred
  have hr' : (i, r) ∈ (deleteExpiredRefreshTokens s.db now).refresh_tokens.rows :=
    Table.mem_delete.mpr ⟨hr, by simp [hrev]⟩
  obtain ⟨j, t, ht, htF, hth, htrev⟩ := hp.present ⟨F, value⟩ hvalue ⟨i, r, hr', hF, hrev⟩
  have hfind : findRefreshTokenByHash (deleteExpiredRefreshTokens s.db now)
      (auth.hashRefreshToken value) = some (j, t) :=
    Table.find?_eq_some ht (by simp [hth]) fun k u hu hk =>
      hp.hash_unique k u j t hu ht ((by simpa using hk : _ = _).trans hth.symm)
  have hrot : t.rotated_at.isSome = true := by
    by_contra hnone
    have htred : t.redeemable = true :=
      RefreshToken.redeemable_iff.mpr ⟨by simpa using hnone, htrev⟩
    obtain rfl := hp.one_redeemable j t i r ht hr' (htF.trans hF.symm) htred hred
    rw [Table.eq_of_mem ht hr'] at hth
    have := h.issued_unique _ hvalue _ hlive (hth.symm.trans hhash)
    exact hne (Issued.mk.inj this).2
  have hsan : sanitizeRefreshToken value = some value := by
    have hlen : value.utf8ByteSize = mintedLen := h.issued_len _ hvalue
    simp [sanitizeRefreshToken, hlen, mintedLen, maxRefreshTokenLen]
  simp [Auth.refresh, hsan, hfind, htrev, hrot, htF]

/-- **Reuse detection is complete** after any sequence of requests. -/
theorem served_reuseDetected (s : Session) (h : Served auth s) :
    ReuseDetected auth s := by
  have hc := h.complete
  constructor
  case detected =>
    intro F i r live value now env hr hF hred hlive hhash hvalue hne
    rw [hc.detected now env hr hF hred hlive hhash hvalue hne]
    refine ⟨rfl, fun j t ht htF => ?_⟩
    have hrev := revokeFamily_revoked ht htF
    by_contra htr
    rw [(RefreshToken.redeemable_iff.mp (by simpa using htr)).2] at hrev
    cases hrev
  case pruning =>
    intro i r j t now hr hred ht hF
    have hrev := (RefreshToken.redeemable_iff.mp hred).2
    exact Table.mem_delete.mpr ⟨ht, by simp [(hc.uniform j t i r ht hr hF).2.mpr hrev]⟩
  case isolated =>
    intro G value hG j t ht now env user_id
    refine ⟨refresh_isolated hG ht, ?_⟩
    rcases logout_cases auth now s.db user_id value with
      heq | ⟨id, record, hmem, hh, heq⟩ <;> rw [heq]
    exact mem_revokeFamily_other (ht ▸ (hG id record hmem hh).symm)

/-- An account, its login and one refresh: two values in one family. -/
def sampleOps : List Op :=
  [.createUser "ada" "hash" .admin 0, .login 1 ⟨10, sampleFirst, true⟩,
    .refresh sampleFirst 20 ⟨20, sampleSecond, true⟩]

theorem sample_served : (run (serve sampleAuth) (Session.initial Table.empty)
    sampleOps).isSome = true := by
  decide +kernel

theorem served_reuseDetected_sample : ReuseDetected sampleAuth
    ((run (serve sampleAuth) (Session.initial Table.empty) sampleOps).get
      sample_served) :=
  served_reuseDetected _ ⟨Table.empty, _, (Option.some_get _).symm⟩

end Wallermax.Auth
