import Wallermax.Accounts.Memberships
import Wallermax.Auth.CookieLines
import Wallermax.Content.DatetimeRoundTrip

/-!
# Access tokens and who they speak for

Signing and verifying, the identity the extractors read from a request, and the guards of
the panel, which ask the memberships and not the token.
-/

namespace Wallermax.Auth

open Wallermax.Accounts (AppError PanelDb User UserRole membershipRole)
open Wallermax.Base
open Wallermax.Content (parseI64)
open Wallermax.Server (HeaderMap toStr)

/-- `TOKEN_LEEWAY_SECS`. -/
def tokenLeewaySecs : ℕ := 30

/-- `SHIPPED_DEV_JWT_SECRET`. -/
def shippedDevJwtSecret : Text := "dev-only-secret-replace-via-WALLERMAX_AUTH__JWT_SECRET".toList

structure Claims : Type where
  sub : Text
  username : String
  role : String
  iat : ℕ
  exp : ℕ
  iss : String
deriving DecidableEq

/-- The crate that signs: the token of claims under a key, and the claims of a token whose
signature the key verifies. -/
structure Jwt : Type where
  encode : Text → Claims → Option Token
  decode : Text → Text → Option Claims
  decode_encode : ∀ key claims token, encode key claims = some token →
    decode key token.text = some claims

structure JwtService : Type where
  secret : Text
  issuer : String
  ttl_secs : ℕ
deriving DecidableEq

/-- `JwtService::new_guarded`; `ephemeral` is what the random source gives this process. -/
def JwtService.newGuarded (secret ephemeral : Text) (issuer : String) (token_ttl_secs : ℕ) :
    JwtService where
  secret := if secret = shippedDevJwtSecret then ephemeral else secret
  issuer := issuer
  ttl_secs := token_ttl_secs

/-- The claims of `issue_token_at`; the sum is one of 64 bits. -/
def JwtService.claimsOf (service : JwtService) (user : ℕ × User) (now : ℕ) : Claims where
  sub := Nat.toDigits 10 user.1
  username := user.2.username
  role := user.2.role.asStr
  iat := now
  exp := (now + service.ttl_secs) % 2 ^ 64
  iss := service.issuer

section

variable (jwt : Jwt)

/-- `issue_token_at`. -/
def JwtService.issueTokenAt (service : JwtService) (user : ℕ × User) (now : ℕ) : Option Token :=
  jwt.encode service.secret (service.claimsOf user now)

/-- `verify_token`: the signature, the expiry less the leeway, and the issuer. -/
def JwtService.verifyToken (service : JwtService) (now : ℕ) (token : Text) : Option Claims :=
  (jwt.decode service.secret token).filter fun claims =>
    decide (now ≤ claims.exp + tokenLeewaySecs ∧ claims.iss = service.issuer)

end

/-! ## The extractors -/

structure AuthUser : Type where
  user_id : ℤ
  username : String
  role : UserRole
deriving DecidableEq

/-- `AuthUser::from_claims`. -/
def AuthUser.fromClaims (claims : Claims) : Except AppError AuthUser :=
  match parseI64 claims.sub with
  | none => .error (.unauthorized "invalid token subject")
  | some user_id =>
      match UserRole.parse claims.role with
      | none => .error (.unauthorized "invalid token role")
      | some role => .ok ⟨user_id, claims.username, role⟩

/-- `bearer_token`. -/
def bearerToken (headers : HeaderMap) : Option Text :=
  (headers.text "authorization").bind fun value =>
    if "Bearer ".toList.isPrefixOf value then some (value.drop 7) else none

/-- The token a request speaks with: the header's, or the cookie's. -/
def presentedToken (headers : HeaderMap) : Option Text :=
  (bearerToken headers).or (sessionToken headers)

/-- `AuthUser::from_request_parts`; no service while `[auth]` is off. -/
def AuthUser.fromRequestParts (jwt : Jwt) (service : Option JwtService) (now : ℕ)
    (headers : HeaderMap) : Except AppError AuthUser :=
  match service with
  | none => .error (.unauthorized "authentication is not enabled")
  | some service =>
      match presentedToken headers with
      | none => .error (.unauthorized
          "missing `Authorization: Bearer <token>` header or session cookie")
      | some token =>
          match service.verifyToken jwt now token with
          | none => .error (.unauthorized "invalid or expired token")
          | some claims => AuthUser.fromClaims claims

/-- `AdminUser::from_request_parts`. -/
def adminUser (jwt : Jwt) (service : Option JwtService) (now : ℕ) (headers : HeaderMap) :
    Except AppError AuthUser := do
  let user ← AuthUser.fromRequestParts jwt service now headers
  if user.role ≠ .admin then .error (.forbidden "this endpoint requires the admin role")
  else .ok user

/-! ## The guards of the panel -/

/-- What a guard lets through, or answers. -/
inductive GuardAnswer : Type where
  | pass (user : AuthUser) (organization : String)
  | seeOther (location : Text)
  | failed (error : AppError)

/-- `utf8_percent_encode`. -/
def unreserved (c : Char) : Bool :=
  (c.isAlphanum && c.toNat < 0x80) || c == '-' || c == '_' || c == '.' || c == '~'

/-- `redirect_to_login`. -/
def redirectToLogin (path : Text) : GuardAnswer :=
  .seeOther ("/login?redirect=".toList ++ percentEncode unreserved path)

/-- `membership_role`: no row has a negative id. -/
def memberRole (db : PanelDb) (user_id : ℤ) (organization : String) : Option UserRole :=
  match user_id with
  | .ofNat id => membershipRole db id organization
  | .negSucc _ => none

/-- The request a guard stands in front of; `organization` is what the host resolves to. -/
structure GuardedRequest : Type where
  headers : HeaderMap
  path : Text
  organization : String

/-- The two guards: what a role must be, and what they say when it is not; `stored` tells
whether the membership could be read. -/
def guardMember (jwt : Jwt) (service : Option JwtService) (now : ℕ) (db : PanelDb)
    (admits : UserRole → Bool) (message : String) (request : GuardedRequest) (stored : Bool) :
    GuardAnswer :=
  match AuthUser.fromRequestParts jwt service now request.headers with
  | .error (.unauthorized _) => redirectToLogin request.path
  | .error error => .failed error
  | .ok user =>
      if !stored then .failed (.internal "membership lookup failed")
      else if (memberRole db user.user_id request.organization).any admits then
        .pass user request.organization
      else .failed (.forbidden message)

/-- `CmsEditor::from_request_parts`. -/
def cmsEditor (jwt : Jwt) (service : Option JwtService) (now : ℕ) (db : PanelDb)
    (request : GuardedRequest) (stored : Bool) : GuardAnswer :=
  guardMember jwt service now db UserRole.isEditor
    "CMS membership required — this account is not part of the CMS organization." request stored

/-- `CmsAdmin::from_request_parts`. -/
def cmsAdmin (jwt : Jwt) (service : Option JwtService) (now : ℕ) (db : PanelDb)
    (request : GuardedRequest) (stored : Bool) : GuardAnswer :=
  guardMember jwt service now db (· == .admin)
    ("Administrator membership required — only administrators of the CMS organization can " ++
      "manage its accounts.") request stored

/-! ## From the row to the identity -/

theorem parseI64_toDigits (n : ℕ) :
    parseI64 (Nat.toDigits 10 n) = if n < 2 ^ 63 then some (n : ℤ) else none := by
  have hvalue := Content.digitsValue_eq Nat.toDigits_ne_nil (Content.isDigit_of_mem_toDigits n)
  rw [parseI64, Content.signedValue_of_digits true hvalue, Nat.ofDigitChars_ten_toDigits]
  split
  · exact Option.filter_some_pos (decide_eq_true ⟨by omega, by omega⟩)
  · refine Option.filter_some_neg ?_
    rw [decide_eq_false_iff_not]
    omega

/-- The identity of an account, as it was when its row was read. -/
def identityOf (user : ℕ × User) : AuthUser := ⟨user.1, user.2.username, user.2.role⟩

theorem fromClaims_claimsOf (service : JwtService) (user : ℕ × User) (now : ℕ) :
    AuthUser.fromClaims (service.claimsOf user now) =
      if user.1 < 2 ^ 63 then .ok (identityOf user)
      else .error (.unauthorized "invalid token subject") := by
  unfold AuthUser.fromClaims JwtService.claimsOf identityOf
  by_cases hsmall : user.1 < 2 ^ 63
  · simp only [parseI64_toDigits, Accounts.UserRole.parse_asStr, if_pos hsmall]
  · simp only [parseI64_toDigits, if_neg hsmall]

/-- **A token, verified**: under a key that is its own, exactly what was signed until the
leeway after its expiry. -/
theorem verifyToken_issued {jwt : Jwt} {service current : JwtService} {user : ℕ × User}
    {iat : ℕ} {token : Token} (hissued : service.issueTokenAt jwt user iat = some token)
    (hsecret : current.secret = service.secret) (now : ℕ) :
    current.verifyToken jwt now token.text =
      if now ≤ (iat + service.ttl_secs) % 2 ^ 64 + tokenLeewaySecs ∧
          service.issuer = current.issuer then some (service.claimsOf user iat) else none := by
  unfold JwtService.verifyToken
  rw [hsecret, jwt.decode_encode _ _ _ hissued]
  split
  · rename_i h
    exact Option.filter_some_pos (decide_eq_true h)
  · rename_i h
    refine Option.filter_some_neg ?_
    exact decide_eq_false h

/-- Whom a guard lets in. -/
theorem guardMember_pass {jwt : Jwt} {service : Option JwtService} {now : ℕ} {db : PanelDb}
    {admits : UserRole → Bool} {message : String} {request : GuardedRequest} {user : AuthUser}
    (huser : AuthUser.fromRequestParts jwt service now request.headers = .ok user)
    (hmember : (memberRole db user.user_id request.organization).any admits = true) :
    guardMember jwt service now db admits message request true =
      .pass user request.organization := by
  unfold guardMember
  simp only [huser, Bool.not_true, Bool.false_eq_true, if_false, hmember, if_true]

end Wallermax.Auth
