import Wallermax.Accounts.Evolution
import Wallermax.Auth.AccessTokens

/-!
# Tokens against the accounts they were signed for

Sign-ins and refreshes read a row, and sign a token for what they read some time later;
meanwhile accounts and memberships change, and the server is started again. A token speaks
for the row as it was read, for as long as it lives: the platform role may be stale by one
lifetime and no more. The panel asks the memberships instead, and never lets in anybody but
the holder of a membership of that very moment.
-/

namespace Wallermax.Auth

open Wallermax.Accounts
open Wallermax.Base
open Wallermax.Server (HeaderMap isVisible toStr_octets)

/-! ## The machine -/

/-- A row, read by a handler that will sign a token for it. -/
structure Reading : Type where
  account : ℕ × User
  read_at : ℕ
  started : ℕ
  service : JwtService
  /-- `request_timeout_secs`, while the layer is on. -/
  budget : Option ℕ
deriving DecidableEq

structure SignedToken : Type where
  reading : Reading
  iat : ℕ
  token : Token

structure AccessState : Type where
  db : PanelDb
  service : Option JwtService
  budget : Option ℕ
  now : ℕ
  pending : List Reading
  issued : List SignedToken

inductive AccessLabel : Type where
  | tick (secs : ℕ)
  | write (write : AccountWrite)
  | start (service : Option JwtService) (budget : Option ℕ)
  /-- `find_by_username` of a sign-in that began at `started`. -/
  | readByName (username : String) (started : ℕ)
  /-- `find_by_id` of a refresh; whose token it was is not looked at here. -/
  | readById (id : ℕ) (started : ℕ)
  | sign (reading : Reading)

/-- A request that began then has not been timed out. -/
def inTime (budget : Option ℕ) (started now : ℕ) : Bool :=
  budget.all fun secs => now ≤ started + secs

def AccessState.reading (s : AccessState) (service : JwtService) (started : ℕ)
    (account : ℕ × User) : Reading where
  account := account
  read_at := s.now
  started := started
  service := service
  budget := s.budget

/-- A row read by a handler; without one the request is refused. -/
def AccessState.read (s : AccessState) (found : Option (ℕ × User)) (started : ℕ) :
    Option AccessState :=
  match s.service with
  | none => none
  | some service =>
      if started ≤ s.now ∧ inTime s.budget started s.now then
        some { s with pending := s.pending ++ (found.map (s.reading service started)).toList }
      else none

/-- The handlers, row by row and token by token; a start drops what was in flight. -/
def accessStep (jwt : Jwt) (hash : String → Option String) (min_password_len : ℕ)
    (s : AccessState) : AccessLabel → Option AccessState
  | .tick secs => some { s with now := s.now + secs }
  | .write write => some { s with db := write.apply hash min_password_len s.db }
  | .start service budget =>
      some { s with service := service, budget := budget, pending := [] }
  | .readByName username started => s.read (findByUsername s.db.users username) started
  | .readById id started => s.read (findById s.db.users id) started
  | .sign reading =>
      if reading ∈ s.pending ∧ inTime reading.budget reading.started s.now then
        let issued := (reading.service.issueTokenAt jwt reading.account s.now).map fun token =>
          { reading := reading
            iat := s.now
            token := token }
        some { s with
          pending := s.pending.erase reading
          issued := s.issued ++ issued.toList }
      else none

/-! ## One step -/

section

variable {jwt : Jwt} {hash : String → Option String} {min_password_len : ℕ}

/-- The readings a state knows of, in flight or signed. -/
def AccessState.readings (s : AccessState) : List Reading :=
  s.pending ++ s.issued.map SignedToken.reading

/-- A reading, as the state has it right after it. -/
def AccessState.HasRead (s : AccessState) (reading : Reading) : Prop :=
  reading.account ∈ s.db.users.rows ∧ reading.read_at = s.now ∧
    s.service = some reading.service ∧ s.budget = reading.budget

theorem read_cases {s t : AccessState} {found : Option (ℕ × User)} {started : ℕ}
    (h : s.read found started = some t) :
    ∃ service, s.service = some service ∧ started ≤ s.now ∧
      t = { s with pending := s.pending ++ (found.map (s.reading service started)).toList } := by
  unfold AccessState.read at h
  cases hservice : s.service with
  | none =>
      rw [hservice] at h
      cases h
  | some service =>
      simp only [hservice] at h
      split at h
      · rename_i hguard
        exact ⟨service, rfl, hguard.1, (Option.some.inj h).symm⟩
      · cases h

theorem sign_cases {s t : AccessState} {reading : Reading}
    (h : accessStep jwt hash min_password_len s (.sign reading) = some t) :
    reading ∈ s.pending ∧ inTime reading.budget reading.started s.now = true ∧
      t.db = s.db ∧ t.now = s.now ∧ (∀ r ∈ t.pending, r ∈ s.pending) ∧
      ∀ issued ∈ t.issued, issued ∈ s.issued ∨ (issued.reading = reading ∧ issued.iat = s.now ∧
        reading.service.issueTokenAt jwt reading.account s.now = some issued.token) := by
  simp only [accessStep] at h
  split at h
  · rename_i hguard
    obtain rfl := Option.some.inj h
    refine ⟨hguard.1, hguard.2, rfl, rfl, fun r hr => List.mem_of_mem_erase hr, ?_⟩
    intro issued hissued
    rcases List.mem_append.mp hissued with hissued | hissued
    · exact .inl hissued
    · obtain ⟨token, htoken, rfl⟩ :=
        Option.map_eq_some_iff.mp (Option.mem_toList.mp hissued)
      exact .inr ⟨rfl, rfl, htoken⟩
  · cases h

/-- A step writes the accounts, or leaves them. -/
theorem evolves_accessStep {s t : AccessState} {label : AccessLabel}
    (h : accessStep jwt hash min_password_len s label = some t) : Evolves s.db t.db := by
  cases label with
  | tick secs =>
      obtain rfl := Option.some.inj h
      exact .refl _
  | write write =>
      obtain rfl := Option.some.inj h
      exact evolves_apply hash min_password_len write
  | start service budget =>
      obtain rfl := Option.some.inj h
      exact .refl _
  | readByName username started =>
      obtain ⟨_, _, _, rfl⟩ := read_cases h
      exact .refl _
  | readById id started =>
      obtain ⟨_, _, _, rfl⟩ := read_cases h
      exact .refl _
  | sign reading =>
      obtain ⟨_, _, hdb, _⟩ := sign_cases h
      rw [hdb]
      exact .refl _

theorem hasRead_of_reading {s : AccessState} {service : JwtService} {started : ℕ}
    {found : Option (ℕ × User)} {reading : Reading} (hservice : s.service = some service)
    (hfound : ∀ account ∈ found, account ∈ s.db.users.rows)
    (hmem : reading ∈ (found.map (s.reading service started)).toList) : s.HasRead reading := by
  obtain ⟨account, haccount, rfl⟩ := Option.map_eq_some_iff.mp (Option.mem_toList.mp hmem)
  exact ⟨hfound account haccount, rfl, hservice, rfl⟩

theorem mem_of_findByUsername {users : Users} {username : String} :
    ∀ account ∈ findByUsername users username, account ∈ users.rows :=
  fun _ h => findByUsername_some h

theorem mem_of_findById {users : Users} {id : ℕ} :
    ∀ account ∈ findById users id, account ∈ users.rows := by
  rintro ⟨i, user⟩ h
  obtain ⟨rfl, hmem⟩ := findById_some h
  exact hmem

/-- A new reading is of the state before the step. -/
theorem readings_accessStep {s t : AccessState} {label : AccessLabel}
    (h : accessStep jwt hash min_password_len s label = some t) :
    ∀ reading ∈ t.readings, reading ∈ s.readings ∨ s.HasRead reading := by
  have hread : ∀ (found : Option (ℕ × User)) (started : ℕ),
      (∀ account ∈ found, account ∈ s.db.users.rows) → s.read found started = some t →
        ∀ reading ∈ t.readings, reading ∈ s.readings ∨ s.HasRead reading := by
    intro found started hfound h reading hmem
    obtain ⟨service, hservice, _, rfl⟩ := read_cases h
    rcases List.mem_append.mp hmem with hmem | hmem
    · rcases List.mem_append.mp hmem with hmem | hmem
      · exact .inl (List.mem_append_left _ hmem)
      · exact .inr (hasRead_of_reading hservice hfound hmem)
    · exact .inl (List.mem_append_right _ hmem)
  cases label with
  | tick secs =>
      obtain rfl := Option.some.inj h
      exact fun _ => .inl
  | write write =>
      obtain rfl := Option.some.inj h
      exact fun _ => .inl
  | start service budget =>
      obtain rfl := Option.some.inj h
      exact fun _ hmem => .inl (List.mem_append_right _ (by simpa [AccessState.readings] using hmem))
  | readByName username started =>
      exact hread _ started mem_of_findByUsername h
  | readById id started =>
      exact hread _ started mem_of_findById h
  | sign reading =>
      obtain ⟨hpending, _, _, _, hsub, hissued⟩ := sign_cases h
      intro r hmem
      refine .inl ?_
      rcases List.mem_append.mp hmem with hmem | hmem
      · exact List.mem_append_left _ (hsub r hmem)
      · obtain ⟨issued, hin, rfl⟩ := List.mem_map.mp hmem
        rcases hissued issued hin with hold | ⟨hreading, _⟩
        · exact List.mem_append_right _ (List.mem_map_of_mem hold)
        · exact List.mem_append_left _ (hreading ▸ hpending)

/-- What is known of every reading and every token of a run. -/
structure Signed (jwt : Jwt) (s : AccessState) : Prop where
  pending : ∀ reading ∈ s.pending, reading.started ≤ reading.read_at
  issued : ∀ issued ∈ s.issued,
    (∀ secs ∈ issued.reading.budget, issued.iat ≤ issued.reading.read_at + secs) ∧
      issued.reading.service.issueTokenAt jwt issued.reading.account issued.iat = some issued.token

theorem signed_accessStep {s t : AccessState} {label : AccessLabel} (hs : Signed jwt s)
    (h : accessStep jwt hash min_password_len s label = some t) : Signed jwt t := by
  have hread : ∀ (found : Option (ℕ × User)) (started : ℕ), s.read found started = some t →
      Signed jwt t := by
    intro found started h
    obtain ⟨service, _, hstarted, rfl⟩ := read_cases h
    refine ⟨?_, hs.issued⟩
    intro reading hmem
    rcases List.mem_append.mp hmem with hmem | hmem
    · exact hs.pending reading hmem
    · obtain ⟨account, _, rfl⟩ := Option.map_eq_some_iff.mp (Option.mem_toList.mp hmem)
      exact hstarted
  cases label with
  | tick secs =>
      obtain rfl := Option.some.inj h
      exact ⟨hs.pending, hs.issued⟩
  | write write =>
      obtain rfl := Option.some.inj h
      exact ⟨hs.pending, hs.issued⟩
  | start service budget =>
      obtain rfl := Option.some.inj h
      exact ⟨fun _ hmem => absurd hmem List.not_mem_nil, hs.issued⟩
  | readByName username started => exact hread _ started h
  | readById id started => exact hread _ started h
  | sign reading =>
      obtain ⟨hpending, hin, _, _, hsub, hissued⟩ := sign_cases h
      refine ⟨fun r hr => hs.pending r (hsub r hr), ?_⟩
      intro issued hmem
      rcases hissued issued hmem with hold | ⟨hreading, hiat, htoken⟩
      · exact hs.issued issued hold
      · have hstarted := hs.pending reading hpending
        rw [hreading, hiat]
        refine ⟨fun secs hsecs => ?_, htoken⟩
        unfold inTime at hin
        rw [Option.mem_def.mp hsecs] at hin
        have hlive : s.now ≤ reading.started + secs := of_decide_eq_true hin
        omega

/-! ## Over a run -/

/-- Nothing signed yet, and nobody signing in. -/
def AccessState.Fresh (s : AccessState) : Prop := s.pending = [] ∧ s.issued = []

theorem AccessState.Fresh.readings {s : AccessState} (h : s.Fresh) : s.readings = [] := by
  unfold AccessState.readings
  rw [h.1, h.2]
  rfl

theorem signed_run {start s : AccessState} {labels : List AccessLabel} (hfresh : start.Fresh)
    (hrun : run (accessStep jwt hash min_password_len) start labels = some s) : Signed jwt s := by
  refine run_invariant _ (I := Signed jwt) (fun _ _ _ hs h => signed_accessStep hs h) ?_ hrun
  refine ⟨?_, ?_⟩
  · rw [hfresh.1]
    exact fun _ h => absurd h List.not_mem_nil
  · rw [hfresh.2]
    exact fun _ h => absurd h List.not_mem_nil

/-- What the key in force verifies was signed with it, in this run. -/
def Genuine (jwt : Jwt) (s : AccessState) (token : Text) : Prop :=
  ∀ service ∈ s.service, ∀ claims, jwt.decode service.secret token = some claims →
    ∃ issued ∈ s.issued, issued.reading.service.secret = service.secret ∧
      issued.token.text = token

/-- The token behind an identity, and what was signed into it. -/
theorem issued_of_fromRequestParts {s : AccessState} (hs : Signed jwt s) {headers : HeaderMap}
    {user : AuthUser} (hgenuine : ∀ token ∈ presentedToken headers, Genuine jwt s token)
    (huser : AuthUser.fromRequestParts jwt s.service s.now headers = .ok user) :
    ∃ current, s.service = some current ∧ ∃ issued ∈ s.issued,
      issued.reading.service.secret = current.secret ∧
      issued.reading.service.issuer = current.issuer ∧
      identityOf issued.reading.account = user ∧
      s.now ≤ issued.iat + issued.reading.service.ttl_secs + tokenLeewaySecs := by
  unfold AuthUser.fromRequestParts at huser
  cases hservice : s.service with
  | none =>
      rw [hservice] at huser
      cases huser
  | some current =>
      refine ⟨current, rfl, ?_⟩
      cases htoken : presentedToken headers with
      | none =>
          simp only [hservice, htoken] at huser
          cases huser
      | some token =>
          cases hverify : current.verifyToken jwt s.now token with
          | none =>
              simp only [hservice, htoken, hverify] at huser
              cases huser
          | some claims =>
              simp only [hservice, htoken, hverify] at huser
              obtain ⟨hdecode, _⟩ := Option.filter_eq_some_iff.mp hverify
              obtain ⟨issued, hmem, hsecret, rfl⟩ :=
                hgenuine token htoken current hservice claims hdecode
              have hsigned := (hs.issued issued hmem).2
              rw [verifyToken_issued hsigned hsecret.symm] at hverify
              split at hverify
              · rename_i hlive
                obtain rfl := Option.some.inj hverify
                rw [fromClaims_claimsOf] at huser
                split at huser
                · have hmod := Nat.mod_le (issued.iat + issued.reading.service.ttl_secs) (2 ^ 64)
                  exact ⟨issued, hmem, hsecret, hlive.2, Except.ok.inj huser, by omega⟩
                · cases huser
              · cases hverify

/-- **How stale a token may be**: whoever a request is taken for was an account with that id,
that name and that role at some moment of the run, and that moment is no further back than a
request may take, a token lives and the clocks may differ. -/
theorem account_of_access {start s : AccessState} {labels : List AccessLabel}
    (hfresh : start.Fresh)
    (hrun : run (accessStep jwt hash min_password_len) start labels = some s)
    {headers : HeaderMap} {user : AuthUser}
    (hgenuine : ∀ token ∈ presentedToken headers, Genuine jwt s token)
    (huser : AuthUser.fromRequestParts jwt s.service s.now headers = .ok user) :
    ∃ pre u account service, pre <+: labels ∧
      run (accessStep jwt hash min_password_len) start pre = some u ∧
      account ∈ u.db.users.rows ∧ identityOf account = user ∧ u.service = some service ∧
      s.service.map JwtService.secret = some service.secret ∧
      ∀ secs ∈ u.budget, s.now ≤ u.now + secs + service.ttl_secs + tokenLeewaySecs := by
  have hs := signed_run hfresh hrun
  obtain ⟨current, hservice, issued, hmem, hsecret, _, hidentity, hlive⟩ :=
    issued_of_fromRequestParts hs hgenuine huser
  have hreading : issued.reading ∈ s.readings :=
    List.mem_append_right _ (List.mem_map_of_mem hmem)
  have hlogged : ∀ s a t, accessStep jwt hash min_password_len s a = some t →
      ∀ b ∈ t.readings, b ∈ s.readings ∨ s.HasRead b := fun _ _ _ h => readings_accessStep h
  rcases exists_prefix_of_logged _ hlogged hrun hreading with
    hstart | ⟨pre, u, hpre, hu, haccount, hread_at, huservice, hbudget⟩
  · rw [hfresh.readings] at hstart
    exact absurd hstart List.not_mem_nil
  · refine ⟨pre, u, issued.reading.account, issued.reading.service, hpre, hu, haccount,
      hidentity, huservice, ?_, ?_⟩
    · rw [hservice, hsecret]
      rfl
    · intro secs hsecs
      have hiat := (hs.issued issued hmem).1 secs (hbudget ▸ hsecs)
      omega

/-- The request of a client that sends its token in the header. -/
def bearerHeaders (token : Token) : HeaderMap :=
  [("authorization".toList, octets ("Bearer ".toList ++ token.text))]

theorem presentedToken_bearerHeaders (token : Token) :
    presentedToken (bearerHeaders token) = some token.text := by
  have hvisible : ("Bearer ".toList ++ token.text).all isVisible = true := by
    rw [List.all_append, List.all_eq_true.mpr fun c hc => isVisible_of_isTokenChar (token.chars c hc)]
    decide
  have htext : (bearerHeaders token).text "authorization" =
      some ("Bearer ".toList ++ token.text) := toStr_octets hvisible
  have hbearer : bearerToken (bearerHeaders token) = some token.text := by
    unfold bearerToken
    rw [htext, Option.bind_some, if_pos (List.isPrefixOf_iff_prefix.mpr (List.prefix_append _ _))]
    rfl
  unfold presentedToken
  rw [hbearer, Option.some_or]

/-- A signed token, sent back. -/
theorem fromRequestParts_bearerHeaders {service current : JwtService} {user : ℕ × User}
    {iat : ℕ} {token : Token} (hissued : service.issueTokenAt jwt user iat = some token)
    (hsecret : current.secret = service.secret) (now : ℕ) :
    AuthUser.fromRequestParts jwt (some current) now (bearerHeaders token) =
      if now ≤ (iat + service.ttl_secs) % 2 ^ 64 + tokenLeewaySecs ∧
          service.issuer = current.issuer then
        if user.1 < 2 ^ 63 then .ok (identityOf user)
        else .error (.unauthorized "invalid token subject")
      else .error (.unauthorized "invalid or expired token") := by
  have hverify := verifyToken_issued hissued hsecret now
  unfold AuthUser.fromRequestParts
  simp only [presentedToken_bearerHeaders]
  split at hverify
  · rename_i hlive
    rw [if_pos hlive]
    simp only [hverify, fromClaims_claimsOf]
  · rename_i hlive
    rw [if_neg hlive]
    simp only [hverify]

/-- **What a token says**, whatever has become of the account: in every state of a run that
still has its key, a token speaks for the row it was signed for until its time is up, and for
nobody from then on. -/
theorem issued_speaks {start s : AccessState} {labels : List AccessLabel}
    (hfresh : start.Fresh)
    (hrun : run (accessStep jwt hash min_password_len) start labels = some s)
    {issued : SignedToken} (hissued : issued ∈ s.issued) {current : JwtService}
    (hservice : s.service = some current)
    (hsecret : current.secret = issued.reading.service.secret) :
    AuthUser.fromRequestParts jwt s.service s.now (bearerHeaders issued.token) =
      if s.now ≤ (issued.iat + issued.reading.service.ttl_secs) % 2 ^ 64 + tokenLeewaySecs ∧
          issued.reading.service.issuer = current.issuer then
        if issued.reading.account.1 < 2 ^ 63 then .ok (identityOf issued.reading.account)
        else .error (.unauthorized "invalid token subject")
      else .error (.unauthorized "invalid or expired token") := by
  rw [hservice]
  exact fromRequestParts_bearerHeaders ((signed_run hfresh hrun).issued issued hissued).2
    hsecret s.now

end

/-! ## A demotion between the row and the token -/

def sampleService : JwtService :=
  ⟨"unit-test-secret-0123456789abcdef0123456789".toList, "wallermax-server", 3600⟩

/-- `ada`, the administrator, as she is read. -/
def adaReading : Reading where
  account := (1, sampleUser "ada" .admin)
  read_at := 1000
  started := 1000
  service := sampleService
  budget := some 30

def adaToken : Token where
  text := ("eyJ0eXAiOiJKV1QiLCJhbGciOiJIUzI1NiJ9" ++
    ".eyJzdWIiOiIxIiwidXNlcm5hbWUiOiJhZGEiLCJyb2xlIjoiYWRtaW4iLCJp" ++
    "YXQiOjEwMDAsImV4cCI6NDYwMCwiaXNzIjoid2FsbGVybWF4LXNlcnZlciJ9" ++
    ".xdjtA4HKofxy13xyrY0OxGX0ntC4ZJDGEk1AcvBaHh4").toList
  ne_nil := by decide +kernel
  chars := List.all_eq_true.mp (by decide +kernel)

/-- The crate on the one input of the run below. -/
def sampleJwt : Jwt where
  encode key claims :=
    if key = sampleService.secret ∧ claims = sampleService.claimsOf adaReading.account 1000 then
      some adaToken
    else none
  decode key token :=
    if key = sampleService.secret ∧ token = adaToken.text then
      some (sampleService.claimsOf adaReading.account 1000)
    else none
  decode_encode := by
    intro key claims token h
    split at h
    · rename_i hinput
      obtain rfl := Option.some.inj h
      rw [hinput.1, hinput.2, if_pos ⟨rfl, rfl⟩]
    · cases h

def adaStart : AccessState where
  db := samplePanel
  service := some sampleService
  budget := some 30
  now := 1000
  pending := []
  issued := []

/-- The token is out, whatever has become of the tables. -/
def adaSigned (db : PanelDb) : AccessState where
  db := db
  service := some sampleService
  budget := some 30
  now := 1000
  pending := []
  issued := [⟨adaReading, 1000, adaToken⟩]

def adaDemotion : AccountWrite := .call (.updateRole 1 .user fun _ => true)

def demotedPanel : PanelDb := (setAccountRole samplePanel 1 .user fun _ => true).1

theorem adaToken_issued :
    sampleService.issueTokenAt sampleJwt adaReading.account 1000 = some adaToken := by
  unfold JwtService.issueTokenAt sampleJwt
  simp only [and_self, if_true]

theorem sign_ada (hash : String → Option String) (min_password_len : ℕ) (db : PanelDb) :
    accessStep sampleJwt hash min_password_len
      { adaStart with db := db, pending := [adaReading] } (.sign adaReading) =
        some (adaSigned db) := by
  have hissued : adaReading.service.issueTokenAt sampleJwt adaReading.account adaStart.now =
      some adaToken := adaToken_issued
  simp only [accessStep]
  rw [if_pos ⟨List.mem_singleton_self _, rfl⟩, hissued, List.erase_cons_head]
  rfl

theorem run_ada (hash : String → Option String) (min_password_len : ℕ) :
    run (accessStep sampleJwt hash min_password_len) adaStart
      [.readById 1 1000, .sign adaReading] = some (adaSigned samplePanel) :=
  sign_ada hash min_password_len samplePanel

theorem run_ada_demoted (hash : String → Option String) (min_password_len : ℕ) :
    run (accessStep sampleJwt hash min_password_len) adaStart
      [.readById 1 1000, .write adaDemotion, .sign adaReading] = some (adaSigned demotedPanel) :=
  sign_ada hash min_password_len demotedPanel

theorem genuine_ada (db : PanelDb) (token : Text) : Genuine sampleJwt (adaSigned db) token := by
  intro service _ claims hdecode
  unfold sampleJwt at hdecode
  dsimp only at hdecode
  split at hdecode
  · rename_i hinput
    exact ⟨⟨adaReading, 1000, adaToken⟩, List.mem_singleton_self _, hinput.1.symm,
      hinput.2.symm⟩
  · cases hdecode

theorem ada_speaks (db : PanelDb) :
    AuthUser.fromRequestParts sampleJwt (adaSigned db).service (adaSigned db).now
      (bearerHeaders adaToken) = .ok ⟨1, "ada", .admin⟩ :=
  (fromRequestParts_bearerHeaders adaToken_issued rfl 1000).trans (by decide +kernel)

/-- Demoted since, and still taken for an administrator. -/
theorem account_of_access_ada : ∃ pre u account service,
    pre <+: [.readById 1 1000, .write adaDemotion, .sign adaReading] ∧
      run (accessStep sampleJwt some 8) adaStart pre = some u ∧
      account ∈ u.db.users.rows ∧ identityOf account = ⟨1, "ada", .admin⟩ ∧
      u.service = some service ∧
      (adaSigned demotedPanel).service.map JwtService.secret = some service.secret ∧
      ∀ secs ∈ u.budget,
        (adaSigned demotedPanel).now ≤ u.now + secs + service.ttl_secs + tokenLeewaySecs :=
  account_of_access ⟨rfl, rfl⟩ (run_ada_demoted some 8)
    (fun token _ => genuine_ada demotedPanel token) (ada_speaks demotedPanel)

theorem issued_speaks_ada :
    AuthUser.fromRequestParts sampleJwt (adaSigned demotedPanel).service
      (adaSigned demotedPanel).now (bearerHeaders adaToken) =
        if 1000 ≤ (1000 + 3600) % 2 ^ 64 + tokenLeewaySecs ∧
            sampleService.issuer = sampleService.issuer then
          if 1 < 2 ^ 63 then .ok (identityOf adaReading.account)
          else .error (.unauthorized "invalid token subject")
        else .error (.unauthorized "invalid or expired token") :=
  issued_speaks ⟨rfl, rfl⟩ (run_ada_demoted some 8) (List.mem_singleton_self _) rfl rfl

def adaRequest : GuardedRequest := ⟨bearerHeaders adaToken, "/admin".toList, "cms"⟩

def adaUser : AuthUser := ⟨1, "ada", .admin⟩

theorem cmsEditor_ada :
    cmsEditor sampleJwt (adaSigned samplePanel).service (adaSigned samplePanel).now
      (adaSigned samplePanel).db adaRequest true = .pass adaUser adaRequest.organization := by
  have hmember : (memberRole (adaSigned samplePanel).db adaUser.user_id
      adaRequest.organization).any UserRole.isEditor = true := by decide +kernel
  have hspeaks : AuthUser.fromRequestParts sampleJwt (adaSigned samplePanel).service
      (adaSigned samplePanel).now adaRequest.headers = .ok adaUser := ada_speaks samplePanel
  exact guardMember_pass hspeaks hmember

end Wallermax.Auth
