import Mathlib.Data.Int.Notation
import Mathlib.Tactic.Common
import Wallermax.Accounts.Users

/-!
# Refresh tokens: the table and its statements

The `refresh_tokens` table of migration 0002 and the statements of
`SqliteUserRepository` that touch it, each one atomic. The audit columns
`created_ip` and `user_agent` are written and never read, so they are left out.

Every statement but two only ever *retires* rows: it may delete a row, stamp
`rotated_at` or stamp `revoked_at`. That is `Retires` below; the two exceptions
are the insert and the rewrite of the placeholder family id.
-/

namespace Wallermax.Auth

open Wallermax.Base Wallermax.Accounts

/-! ## Token values -/

/-- Upper bound the endpoints accept, in bytes. -/
def maxRefreshTokenLen : ℕ := 512

/-- 32 random bytes in unpadded URL-safe base64. -/
def mintedLen : ℕ := 43

def hexDigit (n : UInt8) : Char :=
  ['0', '1', '2', '3', '4', '5', '6', '7', '8', '9', 'a', 'b', 'c', 'd', 'e',
    'f'].getD n.toNat '0'

/-- Lowercase hex encoding. -/
def hex (bytes : List UInt8) : String :=
  String.ofList (bytes.flatMap fun (byte : UInt8) =>
    [hexDigit (byte >>> 4), hexDigit (byte &&& 0x0f)])

/-- The parts of the authentication context the session endpoints use.
`sha256` is the digest of the `sha2` crate. -/
structure AuthContext : Type where
  sha256 : List UInt8 → List UInt8
  refresh_token_ttl_secs : ℕ

/-- The form stored in, and looked up from, the database. -/
def AuthContext.hashRefreshToken (auth : AuthContext) (token : String) : String :=
  hex (auth.sha256 token.toUTF8.data.toList)

/-- `sanitize_refresh_token`: only the length is checked. -/
def sanitizeRefreshToken (value : String) : Option String :=
  if value.utf8ByteSize > maxRefreshTokenLen then none else some value

/-- `sanitize_refresh_token_opt`: for logout, garbage means nothing to revoke. -/
def sanitizeRefreshTokenOpt (value : String) : Option String :=
  if value.utf8ByteSize = 0 ∨ value.utf8ByteSize > maxRefreshTokenLen then none
  else some value

/-! ## The table -/

structure RefreshToken : Type where
  family_id : ℕ
  user_id : ℕ
  token_hash : String
  expires_at : ℤ
  created_at : ℤ
  rotated_at : Option ℤ
  revoked_at : Option ℤ
deriving DecidableEq

/-- Neither retired nor revoked: the rows `rotate_refresh_token` accepts. -/
def RefreshToken.redeemable (token : RefreshToken) : Bool :=
  token.rotated_at.isNone && token.revoked_at.isNone

structure NewRefreshToken : Type where
  user_id : ℕ
  family_id : Option ℕ
  token_hash : String
  expires_at : ℤ
  created_at : ℤ
deriving DecidableEq

abbrev RefreshTokens := Table RefreshToken

/-- The two tables the session endpoints work on. -/
structure AuthDb : Type where
  users : Users
  refresh_tokens : RefreshTokens

/-- The row a `NewRefreshToken` becomes; `0` is the placeholder family. -/
def NewRefreshToken.row (token : NewRefreshToken) : RefreshToken where
  family_id := token.family_id.getD 0
  user_id := token.user_id
  token_hash := token.token_hash
  expires_at := token.expires_at
  created_at := token.created_at
  rotated_at := none
  revoked_at := none

/-- First statement of `save_refresh_token`. `token_hash` is `UNIQUE` and
`user_id` references `users`. -/
def insertRefreshToken (db : AuthDb) (token : NewRefreshToken) :
    Except RepositoryError (AuthDb × ℕ) :=
  if 0 < db.refresh_tokens.count fun _ r => r.token_hash == token.token_hash then
    .error .duplicate
  else if (findById db.users token.user_id).isNone then
    .error .internal
  else
    .ok ({ db with refresh_tokens := db.refresh_tokens.insert token.row },
      db.refresh_tokens.nextId)

/-- Second statement of `save_refresh_token`, for a new family only. -/
def setFamilyId (db : AuthDb) (id : ℕ) : AuthDb :=
  { db with
    refresh_tokens := db.refresh_tokens.update (fun i _ => i == id)
      fun r => { r with family_id := id } }

/-- `find_refresh_token_by_hash`. -/
def findRefreshTokenByHash (db : AuthDb) (token_hash : String) :
    Option (ℕ × RefreshToken) :=
  db.refresh_tokens.find? fun _ r => r.token_hash == token_hash

/-- `rotate_refresh_token`: the `WHERE` clause is the concurrency guard. -/
def rotateRefreshToken (db : AuthDb) (id : ℕ) (now : ℤ) : AuthDb × Bool :=
  ({ db with
      refresh_tokens :=
        db.refresh_tokens.update (fun i r => i == id && r.redeemable)
          fun r => { r with rotated_at := some now } },
    db.refresh_tokens.count (fun i r => i == id && r.redeemable) == 1)

/-- `revoke_refresh_token_family`. -/
def revokeRefreshTokenFamily (db : AuthDb) (family_id : ℕ) (now : ℤ) : AuthDb :=
  { db with
    refresh_tokens := db.refresh_tokens.update
      (fun _ r => r.family_id == family_id && r.revoked_at.isNone)
      fun r => { r with revoked_at := some now } }

/-- `revoke_all_refresh_tokens`. -/
def revokeAllRefreshTokens (db : AuthDb) (user_id : ℕ) (now : ℤ) : AuthDb :=
  { db with
    refresh_tokens := db.refresh_tokens.update
      (fun _ r => r.user_id == user_id && r.revoked_at.isNone)
      fun r => { r with revoked_at := some now } }

/-- `delete_expired_refresh_tokens`: only expired *and* revoked rows go. -/
def deleteExpiredRefreshTokens (db : AuthDb) (now : ℤ) : AuthDb :=
  { db with
    refresh_tokens := db.refresh_tokens.delete
      fun _ r => decide (r.expires_at < now) && r.revoked_at.isSome }

/-- Deleting an account; its tokens follow by `ON DELETE CASCADE`. -/
def deleteAccount (db : AuthDb) (id : ℕ) : AuthDb where
  users := deleteUser db.users id
  refresh_tokens := db.refresh_tokens.delete fun _ r => r.user_id == id

/-! ## What each statement does to the rows -/

theorem RefreshToken.redeemable_iff {token : RefreshToken} :
    token.redeemable = true ↔ token.rotated_at = none ∧ token.revoked_at = none := by
  simp [RefreshToken.redeemable]

/-- The same token, possibly retired or revoked meanwhile. -/
structure RefreshToken.Ages (r r' : RefreshToken) : Prop where
  family_id : r'.family_id = r.family_id
  user_id : r'.user_id = r.user_id
  token_hash : r'.token_hash = r.token_hash
  rotated_at : r.rotated_at.isSome = true → r'.rotated_at.isSome = true
  revoked_at : r.revoked_at.isSome = true → r'.revoked_at.isSome = true

theorem RefreshToken.Ages.refl (r : RefreshToken) : r.Ages r :=
  ⟨rfl, rfl, rfl, id, id⟩

/-- Nothing retired comes back. -/
theorem RefreshToken.Ages.redeemable {r r' : RefreshToken} (h : r.Ages r')
    (hr : r'.redeemable = true) : r.redeemable = true := by
  rw [RefreshToken.redeemable_iff] at hr ⊢
  constructor
  · by_contra hne
    have := h.rotated_at (Option.isSome_iff_ne_none.mpr hne)
    simp [hr.1] at this
  · by_contra hne
    have := h.revoked_at (Option.isSome_iff_ne_none.mpr hne)
    simp [hr.2] at this

/-- The statements that only age or delete rows. -/
structure Retires (db db' : AuthDb) : Prop where
  seq : db'.refresh_tokens.seq = db.refresh_tokens.seq
  row : ∀ i r', (i, r') ∈ db'.refresh_tokens.rows →
    ∃ r, (i, r) ∈ db.refresh_tokens.rows ∧ r.Ages r'

theorem Retires.refl (db : AuthDb) : Retires db db where
  seq := rfl
  row _ r h := ⟨r, h, .refl r⟩

/-- Setting a stamp retires rows. -/
theorem retires_update {db : AuthDb} {p : ℕ → RefreshToken → Bool}
    {f : RefreshToken → RefreshToken} (hf : ∀ r : RefreshToken, r.Ages (f r)) :
    Retires db { db with refresh_tokens := db.refresh_tokens.update p f } where
  seq := rfl
  row i r' h := by
    obtain ⟨r, hr, rfl⟩ := Table.mem_update.mp h
    refine ⟨r, hr, ?_⟩
    split
    · exact hf r
    · exact .refl r

theorem retires_delete {db : AuthDb} {users : Users}
    {p : ℕ → RefreshToken → Bool} :
    Retires db { users := users, refresh_tokens := db.refresh_tokens.delete p } where
  seq := rfl
  row _ r' h := ⟨r', (Table.mem_delete.mp h).1, .refl r'⟩

theorem retires_rotate (db : AuthDb) (id : ℕ) (now : ℤ) :
    Retires db (rotateRefreshToken db id now).1 :=
  retires_update fun _ => ⟨rfl, rfl, rfl, fun _ => rfl, fun h => h⟩

theorem retires_revokeFamily (db : AuthDb) (family_id : ℕ) (now : ℤ) :
    Retires db (revokeRefreshTokenFamily db family_id now) :=
  retires_update fun _ => ⟨rfl, rfl, rfl, fun h => h, fun _ => rfl⟩

theorem retires_revokeAll (db : AuthDb) (user_id : ℕ) (now : ℤ) :
    Retires db (revokeAllRefreshTokens db user_id now) :=
  retires_update fun _ => ⟨rfl, rfl, rfl, fun h => h, fun _ => rfl⟩

theorem retires_deleteExpired (db : AuthDb) (now : ℤ) :
    Retires db (deleteExpiredRefreshTokens db now) :=
  retires_delete

theorem retires_deleteAccount (db : AuthDb) (id : ℕ) :
    Retires db (deleteAccount db id) :=
  retires_delete

theorem retires_users (db : AuthDb) (users : Users) :
    Retires db { db with users := users } where
  seq := rfl
  row _ r h := ⟨r, h, .refl r⟩

/-- An insert that succeeds adds the new row under the next id; its hash was
stored nowhere. -/
theorem insertRefreshToken_ok {db db' : AuthDb} {token : NewRefreshToken} {id : ℕ}
    (h : insertRefreshToken db token = .ok (db', id)) :
    id = db.refresh_tokens.nextId ∧ db'.users = db.users ∧
      db'.refresh_tokens = db.refresh_tokens.insert token.row ∧
      (∀ i r, (i, r) ∈ db.refresh_tokens.rows → r.token_hash ≠ token.token_hash) ∧
      ∃ u, (token.user_id, u) ∈ db.users.rows := by
  unfold insertRefreshToken at h
  split at h
  · cases h
  · rename_i hdup
    split at h
    · cases h
    · rename_i huser
      cases h
      refine ⟨rfl, rfl, rfl, ?_, ?_⟩
      · intro i r hr heq
        exact hdup (Table.count_pos.mpr ⟨i, r, hr, by simp [heq]⟩)
      · obtain ⟨p, hp⟩ := Option.isSome_iff_exists.mp
          (Option.isSome_iff_ne_none.mpr (by simpa using huser))
        obtain ⟨_, hmem⟩ := findById_some (i := p.1) (u := p.2) hp
        exact ⟨p.2, hmem⟩

theorem mem_setFamilyId {db : AuthDb} {id i : ℕ} {r : RefreshToken} :
    (i, r) ∈ (setFamilyId db id).refresh_tokens.rows ↔
      ∃ s, (i, s) ∈ db.refresh_tokens.rows ∧
        (if i = id then { s with family_id := id } else s) = r := by
  simp [setFamilyId]

theorem findRefreshTokenByHash_some {db : AuthDb} {token_hash : String} {i : ℕ}
    {r : RefreshToken} (h : findRefreshTokenByHash db token_hash = some (i, r)) :
    (i, r) ∈ db.refresh_tokens.rows ∧ r.token_hash = token_hash := by
  obtain ⟨hmem, hp⟩ := Table.find?_some h
  exact ⟨hmem, by simpa using hp⟩

/-- **The compare-and-swap**: it wins exactly when the row is there and
redeemable. -/
theorem rotateRefreshToken_wins {db : AuthDb} {id : ℕ} {now : ℤ} :
    (rotateRefreshToken db id now).2 = true ↔
      ∃ r, (id, r) ∈ db.refresh_tokens.rows ∧ r.redeemable = true := by
  simp only [rotateRefreshToken, beq_iff_eq]
  have hid : ∀ i (r : RefreshToken), (i == id && r.redeemable) = true → i = id := by
    intro i r h
    exact (by simpa using h : i = id ∧ _).1
  rw [Table.count_id_eq_one hid]
  simp

theorem mem_rotateRefreshToken {db : AuthDb} {id i : ℕ} {now : ℤ} {r : RefreshToken} :
    (i, r) ∈ (rotateRefreshToken db id now).1.refresh_tokens.rows ↔
      ∃ s, (i, s) ∈ db.refresh_tokens.rows ∧
        (if i = id ∧ s.redeemable = true then { s with rotated_at := some now }
          else s) = r := by
  simp [rotateRefreshToken]

/-- The row a rotation was aimed at is not redeemable afterwards. -/
theorem rotate_not_redeemable {db : AuthDb} {id : ℕ} {now : ℤ} {r : RefreshToken}
    (h : (id, r) ∈ (rotateRefreshToken db id now).1.refresh_tokens.rows) :
    r.redeemable = false := by
  obtain ⟨s, _, rfl⟩ := mem_rotateRefreshToken.mp h
  by_cases hr : s.redeemable = true
  · simp only [hr, and_self, if_true]
    rfl
  · simp [hr]

/-- After the family revocation no row of the family is left unrevoked. -/
theorem revokeFamily_revoked {db : AuthDb} {family_id i : ℕ} {now : ℤ}
    {r : RefreshToken}
    (h : (i, r) ∈ (revokeRefreshTokenFamily db family_id now).refresh_tokens.rows)
    (hf : r.family_id = family_id) : r.revoked_at.isSome = true := by
  obtain ⟨s, hs, rfl⟩ := Table.mem_update.mp h
  by_cases hrev : s.revoked_at = none
  · have hs : s.family_id = family_id := by
      split at hf <;> exact hf
    simp [hs, hrev]
  · simp [hrev, Option.isSome_iff_ne_none]

end Wallermax.Auth
