import Mathlib.Logic.Function.Basic
import Wallermax.Auth.RefreshTokens
import Wallermax.Base.Runs

/-!
# Session requests as interleaved statements

Login, refresh, logout and logout_all as the sequences of database statements
their handlers issue. There is no transaction and no lock around any of them:
between two statements of one request, any statement of any other request may
run. A `Phase` is the point a request has reached together with the local
variables its remaining code reads; `statement` runs the one statement the
phase is about to issue.

The `history` of a world records what happened and is not read by the code. It
serves the statements of the theorems and the two facts about random tokens
that `start` and `draw` guard: a drawn value is new, and a client presents a
value it was handed or one the server never drew.
-/

namespace Wallermax.Auth

open Wallermax.Base Wallermax.Accounts

def invalidRefreshToken : AppError := .unauthorized "invalid refresh token"

def tooLong : AppError :=
  .badRequest "`refresh_token` must be at most 512 characters"

def storageFailure : AppError := .internal "storage failure"

def signingFailed : AppError := .internal "token signing failed"

/-- What a request asks for. A login arrives here with its credentials already
verified, a logout with its caller already authenticated. -/
inductive SessionRequest : Type where
  | login (user_id : ℕ)
  | refresh (refresh_token : String)
  | logout (user_id : ℕ) (refresh_token : String)
  | logoutAll (user_id : ℕ)
deriving DecidableEq, Repr

/-- Where a request stands: the statement it issues next and its locals. -/
inductive Phase : Type where
  | idle
  | insertLogin (value : String) (token : NewRefreshToken)
  | setFamily (value : String) (id : ℕ)
  | prune (value : String) (now : ℤ)
  | find (value : String) (now : ℤ)
  | rotate (value : String) (id : ℕ) (record : RefreshToken) (now : ℤ)
  | findUser (value : String) (id : ℕ) (record : RefreshToken) (now : ℤ)
  | insertSuccessor (value : String) (id : ℕ) (record : RefreshToken)
      (new : String) (token : NewRefreshToken)
  | revokeFamily (family_id : ℕ) (now : ℤ)
  | findLogout (user_id : ℕ) (value : String) (now : ℤ)
  | revokeLogout (family_id : ℕ) (now : ℤ)
  | revokeAll (user_id : ℕ) (now : ℤ)
  | loggedIn (value : String)
  | refreshed (value new : String)
  | noContent
  | failed (error : AppError)
  | dropped
deriving DecidableEq

/-- What happened, in order. -/
inductive Event : Type where
  | presented (token_hash : String)
  | drawn (request : ℕ) (token_hash : String)
  | stored (request : ℕ) (token_hash : String) (id : ℕ)
  | founded (family_id : ℕ)
  | delivered (token_hash : String)
  | rotated (request id : ℕ)
  | succeeded (request : ℕ) (value : String) (id : ℕ) (new : String)
  | revoked (family_id : ℕ)
deriving DecidableEq

/-- What the world hands a request while a statement runs: the clock, the next
random value and whether signing an access token works. -/
structure Env : Type where
  now : ℤ
  mint : String
  signed : Bool

/-! ## The handlers, one statement at a time -/

section
variable (auth : AuthContext)

/-- `issue_refresh_token` up to its insert. -/
def newRefreshToken (user_id : ℕ) (family_id : Option ℕ) (value : String)
    (now : ℤ) : NewRefreshToken where
  user_id := user_id
  family_id := family_id
  token_hash := auth.hashRefreshToken value
  expires_at := now + auth.refresh_token_ttl_secs
  created_at := now

/-- A request before its first statement. -/
def begin (env : Env) : SessionRequest → Phase
  | .login user_id =>
      .insertLogin env.mint (newRefreshToken auth user_id none env.mint env.now)
  | .refresh value => .prune value env.now
  | .logout user_id value =>
      match sanitizeRefreshTokenOpt value with
      | none => .noContent
      | some value => .findLogout user_id value env.now
  | .logoutAll user_id => .revokeAll user_id env.now

/-- `refresh` between the pruning and the lookup; a pruning that failed is
only logged. -/
def afterPrune (value : String) (now : ℤ) : Phase :=
  match sanitizeRefreshToken value with
  | none => .failed tooLong
  | some value => .find value now

/-- `refresh` between the lookup and the rotation. -/
def afterFind (value : String) (now : ℤ) : Option (ℕ × RefreshToken) → Phase
  | none => .failed invalidRefreshToken
  | some (id, record) =>
      if record.revoked_at.isSome then .failed invalidRefreshToken
      -- reuse of a retired token: assume theft, kill the family
      else if record.rotated_at.isSome then .revokeFamily record.family_id now
      else if record.expires_at ≤ now then .failed invalidRefreshToken
      else .rotate value id record now

/-- `refresh` between the rotation and the account lookup: the loser of the
race lands in the reuse branch. -/
def afterRotate (value : String) (id : ℕ) (record : RefreshToken) (now : ℤ)
    (rotated : Bool) : Phase :=
  if rotated then .findUser value id record now
  else .revokeFamily record.family_id now

/-- `refresh` between the account lookup and the successor's insert. -/
def afterFindUser (value : String) (id : ℕ) (record : RefreshToken) (now : ℤ)
    (env : Env) : Option (ℕ × User) → Phase
  | none => .revokeFamily record.family_id now
  | some (user_id, _) =>
      if env.signed then
        .insertSuccessor value id record env.mint
          (newRefreshToken auth user_id (some record.family_id) env.mint env.now)
      else .failed signingFailed

/-- `revoke_logout_family` between the lookup and the revocation: a foreign
token is silently ignored. -/
def afterFindLogout (user_id : ℕ) (now : ℤ) : Option (ℕ × RefreshToken) → Phase
  | none => .noContent
  | some (_, record) =>
      if record.user_id = user_id then .revokeLogout record.family_id now
      else .noContent

/-- The value that was drawn from the random source on the way to a phase. -/
def Phase.draws (r : ℕ) : Phase → List Event
  | .insertLogin value _ => [.drawn r (auth.hashRefreshToken value)]
  | .insertSuccessor _ _ _ new _ => [.drawn r (auth.hashRefreshToken new)]
  | _ => []

/-- Run the statement request `r` is about to issue. -/
def statement (env : Env) (r : ℕ) (db : AuthDb) :
    Phase → Option (AuthDb × Phase × List Event)
  -- `save_refresh_token(None)` is two statements: the row, then its own family
  | .insertLogin value token =>
      match insertRefreshToken db token with
      | .error _ => some (db, .failed storageFailure, [])
      | .ok (db', id) =>
          some (db', .setFamily value id, [.stored r token.token_hash id])
  | .setFamily value id =>
      some (setFamilyId db id, .loggedIn value,
        [.founded id, .delivered (auth.hashRefreshToken value)])
  | .prune value now =>
      some (deleteExpiredRefreshTokens db now, afterPrune value now, [])
  | .find value now =>
      some (db, afterFind value now
        (findRefreshTokenByHash db (auth.hashRefreshToken value)), [])
  -- the compare-and-swap: the number of rows it changed decides
  | .rotate value id record now =>
      let rotated := rotateRefreshToken db id now
      some (rotated.1, afterRotate value id record now rotated.2,
        if rotated.2 then [.rotated r id] else [])
  | .findUser value id record now =>
      let next := afterFindUser auth value id record now env
        (findById db.users record.user_id)
      some (db, next, next.draws auth r)
  -- the family is not looked at again
  | .insertSuccessor value id _ new token =>
      match insertRefreshToken db token with
      | .error _ => some (db, .failed storageFailure, [])
      | .ok (db', new_id) =>
          some (db', .refreshed value new,
            [.stored r token.token_hash new_id, .succeeded r value id new,
              .delivered (auth.hashRefreshToken new)])
  | .revokeFamily family_id now =>
      some (revokeRefreshTokenFamily db family_id now,
        .failed invalidRefreshToken, [.revoked family_id])
  | .findLogout user_id value now =>
      some (db, afterFindLogout user_id now
        (findRefreshTokenByHash db (auth.hashRefreshToken value)), [])
  | .revokeLogout family_id now =>
      some (revokeRefreshTokenFamily db family_id now, .noContent,
        [.revoked family_id])
  | .revokeAll user_id now =>
      some (revokeAllRefreshTokens db user_id now, .noContent, [])
  | _ => none

/-- Where a request goes when its statement fails in storage. -/
def failure : Phase → Option Phase
  | .insertLogin .. => some (.failed storageFailure)
  | .setFamily .. => some (.failed storageFailure)
  -- a failed pruning is logged and forgotten
  | .prune value now => some (afterPrune value now)
  | .find .. => some (.failed (.ofRepository .internal))
  | .rotate .. => some (.failed (.ofRepository .internal))
  | .findUser .. => some (.failed (.ofRepository .internal))
  | .insertSuccessor .. => some (.failed storageFailure)
  | .revokeFamily .. => some (.failed invalidRefreshToken)
  | .findLogout .. => some .noContent
  | .revokeLogout .. => some (.failed storageFailure)
  | .revokeAll .. => some (.failed storageFailure)
  | _ => none

end

/-! ## The world -/

/-- The database, every request by its number, and the history. -/
structure World : Type where
  db : AuthDb
  phase : ℕ → Phase
  history : List Event

/-- Before the first session request: accounts may exist, tokens do not. -/
def World.initial (users : Users) : World where
  db := { users := users, refresh_tokens := Table.empty }
  phase := fun _ => .idle
  history := []

/-- One scheduler choice. -/
inductive Label : Type where
  | start (r : ℕ) (request : SessionRequest) (env : Env)
  | exec (r : ℕ) (env : Env)
  | fail (r : ℕ)
  | drop (r : ℕ)
  | createUser (username password_hash : String) (role : UserRole) (now : ℤ)
  | deleteUser (id : ℕ)

/-- The hash an event binds to a random value. -/
def Event.drew (token_hash : String) : Event → Bool
  | .drawn _ h => h == token_hash
  | _ => false

/-- A value never drawn nor presented before: 32 random bytes do not repeat and
were not guessed. -/
def fresh (history : List Event) (token_hash : String) : Bool :=
  !history.any (Event.drew token_hash) &&
    !history.contains (.presented token_hash)

/-- What a client can present: a value it was handed, or one the server never
drew. -/
def presentable (history : List Event) (token_hash : String) : Bool :=
  history.contains (.delivered token_hash) ||
    !history.any (Event.drew token_hash)

/-- Every value the events draw is new. -/
def freshDraws (history events : List Event) : Bool :=
  events.all fun
    | .drawn _ h => fresh history h
    | _ => true

section
variable (auth : AuthContext)

/-- The value a client sends along. -/
def SessionRequest.value? : SessionRequest → Option String
  | .refresh value => some value
  | .logout _ value => some value
  | _ => none

/-- The events of a request's arrival. -/
def arrival (r : ℕ) (request : SessionRequest) (env : Env) : List Event :=
  match request.value? with
  | some value => [.presented (auth.hashRefreshToken value)]
  | none => (begin auth env request).draws auth r

/-- The client's half of the random-token guard. -/
def admissible (history : List Event) (request : SessionRequest) : Bool :=
  match request.value? with
  | some value => presentable history (auth.hashRefreshToken value)
  | none => true

def World.advance (w : World) (r : ℕ) (db : AuthDb) (next : Phase)
    (events : List Event) : World where
  db := db
  phase := Function.update w.phase r next
  history := w.history ++ events

/-- One atomic step of the server. -/
def step (w : World) : Label → Option World
  | .start r request env =>
      let events := arrival auth r request env
      if w.phase r = .idle ∧ admissible auth w.history request = true ∧
          freshDraws w.history events = true then
        some (w.advance r w.db (begin auth env request) events)
      else none
  | .exec r env =>
      (statement auth env r w.db (w.phase r)).bind fun (db, next, events) =>
        if freshDraws w.history events = true then
          some (w.advance r db next events)
        else none
  | .fail r => (failure (w.phase r)).map fun next => w.advance r w.db next []
  | .drop r => (failure (w.phase r)).map fun _ => w.advance r w.db .dropped []
  | .createUser username password_hash role now =>
      match insertUser w.db.users username password_hash role now with
      | .error _ => some w
      | .ok (users, _) => some { w with db := { w.db with users := users } }
  | .deleteUser id => some { w with db := deleteAccount w.db id }

/-- Reachable by some schedule from a server without sessions. -/
def Reachable (w : World) : Prop :=
  ∃ users labels, run (step auth) (World.initial users) labels = some w

end

/-! ## Two sample values -/

/-- 32 zero bytes and 32 one bytes, as the server would hand them out. -/
def sampleFirst : String := "AAAAAAAAAAAAAAAAAAAAAAAAAAAAAAAAAAAAAAAAAAA"

def sampleSecond : String := "AQEBAQEBAQEBAQEBAQEBAQEBAQEBAQEBAQEBAQEBAQE"

/-- SHA-256 at the two sample values. -/
def sampleAuth : AuthContext where
  sha256 bytes :=
    if bytes = sampleFirst.toUTF8.data.toList then
      [0x0f, 0x00, 0x73, 0x85, 0xb6, 0xf9, 0xd4, 0xb7, 0xee, 0xb2, 0x74,
       0x86, 0x05, 0xaf, 0xe1, 0xa9, 0x84, 0xa0, 0xa3, 0xbf, 0xa3, 0xf0,
       0x14, 0xd0, 0x9e, 0x2a, 0x78, 0x4c, 0xe9, 0xe5, 0xcd, 0x1a]
    else if bytes = sampleSecond.toUTF8.data.toList then
      [0x56, 0xd5, 0xfa, 0x73, 0x33, 0xf6, 0xd7, 0x47, 0xdb, 0x42, 0xc2,
       0x39, 0x40, 0x7e, 0x5d, 0xa4, 0xc3, 0x2f, 0x4c, 0x79, 0xf3, 0x5d,
       0x09, 0x2b, 0x13, 0x4f, 0xd3, 0x5a, 0x40, 0x2d, 0x9c, 0x5c]
    else []
  refresh_token_ttl_secs := 3600

end Wallermax.Auth
