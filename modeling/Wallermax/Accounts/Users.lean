import Mathlib.Data.Int.Notation
import Mathlib.Tactic.Common
import Wallermax.Base.Table

/-!
# Accounts

`UserRole`, the credential checks, the `users` columns of migration 0001 and
the statements of `SqliteUserRepository` that read or write that table alone.
The id is the table's own; the remaining columns are the fields of `User`.
-/

namespace Wallermax.Accounts

open Wallermax.Base

inductive UserRole : Type where
  | admin
  | editor
  | user
deriving DecidableEq, Repr

/-- The persisted spelling (also the JWT claim). -/
def UserRole.asStr : UserRole → String
  | .admin => "admin"
  | .editor => "editor"
  | .user => "user"

/-- Unknown values yield `none`. -/
def UserRole.parse (value : String) : Option UserRole :=
  if value = "admin" then some .admin
  else if value = "editor" then some .editor
  else if value = "user" then some .user
  else none

/-- `admin` and `editor`: the roles that may manage pages, and the only ones a
membership row may carry. -/
def UserRole.isEditor : UserRole → Bool
  | .admin => true
  | .editor => true
  | .user => false

/-- Storage decodes every role it encodes. -/
@[simp] theorem UserRole.parse_asStr (role : UserRole) :
    UserRole.parse role.asStr = some role := by
  cases role <;> decide

structure User : Type where
  username : String
  password_hash : String
  role : UserRole
  created_at : ℤ
  last_login_at : Option ℤ
deriving DecidableEq

/-- The two outcomes handlers tell apart; the text of an internal failure is
only logged. -/
inductive RepositoryError : Type where
  | duplicate
  | internal
deriving DecidableEq, Repr

/-- An `AppError`: the HTTP status it answers with, and its message. -/
inductive AppError : Type where
  | badRequest (message : String)
  | unauthorized (message : String)
  | forbidden (message : String)
  | conflict (message : String)
  | internal (message : String)
deriving DecidableEq, Repr

/-- `impl From<RepositoryError> for AppError`. -/
def AppError.ofRepository : RepositoryError → AppError
  | .duplicate => .conflict "resource already exists"
  | .internal => .internal "storage failure"

/-! ## Credentials -/

def minUsernameLen : ℕ := 3

def maxUsernameLen : ℕ := 32

def maxPasswordLen : ℕ := 128

def validateUsername (username : String) : Except String Unit :=
  if username.utf8ByteSize < minUsernameLen ∨
      maxUsernameLen < username.utf8ByteSize then
    .error "username must be between 3 and 32 characters"
  else if username.toList.all fun c => c.isAlphanum || c == '_' || c == '-' then
    .ok ()
  else .error "username may only contain letters, digits, `_` and `-`"

def validatePassword (password : String) (min_len : ℕ) : Except String Unit :=
  if password.utf8ByteSize > maxPasswordLen then
    .error "password must be at most 128 characters"
  else if password.utf8ByteSize < min_len then
    .error ("password must be at least " ++ toString min_len ++ " characters")
  else .ok ()

/-! ## The table -/

/-- `COLLATE NOCASE`: equality up to the case of ASCII letters. -/
def nocaseEq (a b : String) : Bool := a.toLower == b.toLower

abbrev Users := Table User

/-- `SELECT … FROM users WHERE id = ?`. -/
def findById (users : Users) (id : ℕ) : Option (ℕ × User) :=
  users.find? fun i _ => i == id

/-- `SELECT … FROM users WHERE username = ?`. -/
def findByUsername (users : Users) (username : String) : Option (ℕ × User) :=
  users.find? fun _ u => nocaseEq u.username username

/-- `SELECT COUNT(*) FROM users`. -/
def count (users : Users) : ℕ := users.count fun _ _ => true

/-- `SELECT COUNT(*) FROM users WHERE role = ?`. -/
def countWithRole (users : Users) (role : UserRole) : ℕ :=
  users.count fun _ u => u.role == role

/-- `INSERT INTO users (username, password_hash, role, created_at)`: refused
when the username is taken, ids from the sequence. -/
def insertUser (users : Users) (username password_hash : String)
    (role : UserRole) (now : ℤ) : Except RepositoryError (Users × ℕ) :=
  if 0 < users.count fun _ u => nocaseEq u.username username then
    .error .duplicate
  else
    .ok (users.insert
      { username := username, password_hash := password_hash, role := role,
        created_at := now, last_login_at := none }, users.nextId)

/-- `UPDATE users SET role = ? WHERE id = ?`; the flag is
`rows_affected() == 1`. -/
def setRole (users : Users) (id : ℕ) (role : UserRole) : Users × Bool :=
  (users.update (fun i _ => i == id) fun u => { u with role := role },
    users.count (fun i _ => i == id) == 1)

/-- `UPDATE users SET password_hash = ? WHERE id = ?`. -/
def updatePassword (users : Users) (id : ℕ) (password_hash : String) : Users :=
  users.update (fun i _ => i == id) fun u => { u with password_hash := password_hash }

/-- `DELETE FROM users WHERE id = ?`. -/
def deleteUser (users : Users) (id : ℕ) : Users :=
  users.delete fun i _ => i == id

theorem findById_some {users : Users} {id i : ℕ} {u : User}
    (h : findById users id = some (i, u)) : i = id ∧ (id, u) ∈ users.rows := by
  obtain ⟨hmem, hi⟩ := Table.find?_some h
  obtain rfl : i = id := by simpa using hi
  exact ⟨rfl, hmem⟩

theorem findById_of_mem {users : Users} {id : ℕ} {u : User}
    (h : (id, u) ∈ users.rows) : findById users id = some (id, u) :=
  Table.find?_eq_some h (by simp) (by simp)

theorem findByUsername_some {users : Users} {name : String} {i : ℕ} {u : User}
    (h : findByUsername users name = some (i, u)) : (i, u) ∈ users.rows :=
  (Table.find?_some h).1

theorem count_eq_zero {users : Users} : count users = 0 ↔ users.rows = [] := by
  simp [count, Table.count, List.length_eq_zero_iff]

/-- An insert that succeeds adds exactly the new account. -/
theorem mem_insertUser {users users' : Users} {name hash : String}
    {role : UserRole} {now : ℤ} {id : ℕ}
    (h : insertUser users name hash role now = .ok (users', id)) (r : ℕ × User) :
    r ∈ users'.rows ↔ r ∈ users.rows ∨
      r = (id, { username := name, password_hash := hash, role := role,
                 created_at := now, last_login_at := none }) := by
  unfold insertUser at h
  split at h
  · cases h
  · cases h
    simp

theorem mem_setRole {users : Users} {id i : ℕ} {role : UserRole} {u : User} :
    (i, u) ∈ (setRole users id role).1.rows ↔
      ∃ w, (i, w) ∈ users.rows ∧ (if i = id then { w with role := role } else w) = u := by
  simp [setRole]

theorem mem_deleteUser {users : Users} {id i : ℕ} {u : User} :
    (i, u) ∈ (deleteUser users id).rows ↔ (i, u) ∈ users.rows ∧ i ≠ id := by
  simp [deleteUser]

end Wallermax.Accounts
