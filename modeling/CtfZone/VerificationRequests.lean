/-
# Verified email addresses

The requests that send, confirm and withdraw the verification of an email address (`mail.rs`),
and those that write the address (`user_accounts.rs`, `browser_auth.rs`), statement by statement.

A request that is refused for anything else it carries, for its session or for its rate ends
like one that is given up.  Of an account the address and its verification are read and written.
The journal has what the commits have done; nothing reads it.

* `sendSelfVerificationEmail`, `confirmEmail`, `invalidateUndelivered` : the mails;
* `updateUser`, `insertUser`, `deleteUser` : the accounts;
* `Entry` : what is in the journal.
-/
import CtfZone.SharedLocks
import CtfZone.Submissions
import CtfZone.CanonicalDigest
import CtfZone.KeyedTables

namespace CtfZone.Verification

open Locking.Program SharedLocks
open Submissions (required)
open Creation (asBytes)

/-! ## Tables -/

/-- A row of `users`. -/
structure UserRow where
  id : ℕ
  email : Option String
  verified : Bool
  deriving DecidableEq

/-- A row of `email_verification_tokens`. -/
structure TokenRow where
  id : ℕ
  tokenHash : List UInt8
  userId : ℕ
  email : String
  requestedByIp : String
  createdAt : Time
  expiresAt : Time
  usedAt : Option Time
  invalidatedAt : Option Time
  deriving DecidableEq

/-- What a commit has done. -/
inductive Entry
  /-- A token is issued, and its text is sent. -/
  | issued (token : TokenRow) (text : String)
  /-- The mail with a token could not be sent. -/
  | undelivered (tokenIds : List ℕ)
  /-- A token is confirmed that has been presented. -/
  | confirmed (token : TokenRow) (presented : String) (consumedAt : Time)
  /-- The address of an account is changed. -/
  | emailChanged (userId : ℕ)
  deriving DecidableEq

/-- The tables, and the journal with the newest entry first. -/
structure MailTables where
  users : List UserRow
  tokens : List TokenRow
  journal : List Entry
  deriving DecidableEq

/-- The locks: those of rows, and the entries of the index of the hashes. -/
inductive LockKey
  | user (id : ℕ)
  | token (id : ℕ)
  | tokenHash (hash : List UInt8)
  deriving DecidableEq

instance : Lockable LockKey where
  conflict key key' := key = key'
  symm key key' := by simp only [eq_comm]

/-- The ids of the accounts, and those that are given by `gen_random_uuid`. -/
inductive Sequence
  | users
  | tokens
  deriving DecidableEq

/-- What a request does in its transaction; the answer is what it has recorded. -/
abbrev Transaction := Locking.Program MailTables LockKey Sequence String

/-- The token has been neither used nor invalidated. -/
def TokenRow.pending (token : TokenRow) : Bool := token.usedAt.isNone && token.invalidatedAt.isNone

namespace MailTables

variable (t : MailTables)

/-- The account with an id. -/
def user (id : ℕ) : Option UserRow := t.users.find? (·.id = id)

/-- The token with an id. -/
def token (id : ℕ) : Option TokenRow := t.tokens.find? (·.id = id)

/-- The condition of `require_email_verification_proof`: a token has been used for the address. -/
def proof (userId : ℕ) (email : Option String) : Bool :=
  t.tokens.any fun token => token.userId = userId && email = some token.email &&
    token.invalidatedAt.isNone &&
    token.usedAt.any fun usedAt => token.createdAt ≤ usedAt && usedAt < token.expiresAt

end MailTables

/-! ## Texts -/

/-- What the service calls that is not its own. -/
structure Platform where
  /-- `Sha256::digest` -/
  sha256 : List UInt8 → List UInt8
  /-- `URL_SAFE_NO_PAD.encode` -/
  encode : List UInt8 → String
  /-- `URL_SAFE_NO_PAD.decode` -/
  decode : String → Option (List UInt8)
  emailVerificationTtlSeconds : ℤ

variable (p : Platform)

/-- `verification_token_hash`. -/
def verificationTokenHash (token : String) : Option (List UInt8) := do
  let decoded ← p.decode token
  if decoded.length ≠ 32 || p.encode decoded ≠ token then none
  else some (p.sha256 (asBytes token))

/-- `VERIFICATION_RESEND_COOLDOWN_SECONDS`. -/
def verificationResendCooldownSeconds : ℤ := 60

/-- `VERIFICATION_SENDS_PER_USER_PER_HOUR`. -/
def verificationSendsPerUserPerHour : ℕ := 5

/-- `VERIFICATION_SENDS_PER_IP_PER_HOUR`. -/
def verificationSendsPerIpPerHour : ℕ := 25

/-- The text of `invalid_verification_token`. -/
def invalidVerificationToken : String := "This verification link is invalid or has expired"

/-! ## Statements -/

/-- The statements that follow put what they have done on record. -/
def record (entries : List Entry) : Transaction (List Entry) := do
  change fun t => { t with journal := entries ++ t.journal }
  pure entries

/-- The tokens are invalidated that match and are pending; the answer are their ids. -/
def invalidateTokens (condition : TokenRow → Bool) (now : Time) : Transaction (List ℕ) := do
  let ids ← select fun t => (t.tokens.filter fun r => condition r && r.pending).map TokenRow.id
  acquireAll (ids.map LockKey.token)
  change fun t => { t with
    tokens := Tables.update (fun r => ids.contains r.id && r.pending)
      (fun r => { r with invalidatedAt := some now }) t.tokens }
  pure ids

/-- The tokens are deleted that match. -/
def deleteTokens (candidates : List TokenRow → List TokenRow) : Transaction Unit := do
  let ids ← select fun t => (candidates t.tokens).map TokenRow.id
  acquireAll (ids.map LockKey.token)
  change fun t => { t with tokens := t.tokens.filter fun r => ! ids.contains r.id }

/-- The tokens that are cleaned up: a thousand of those that have been over for a month. -/
def outdated (now : Time) (tokens : List TokenRow) : List TokenRow :=
  ((tokens.filter fun r => r.createdAt < now - seconds (30 * 24 * 3600) &&
    (r.usedAt.isSome || r.invalidatedAt.isSome || r.expiresAt < now)).mergeSort
      fun r r' => r.createdAt ≤ r'.createdAt).take 1000

/-! ## Mails -/

/-- `send_self_verification_email` up to its commit: the transaction begins at `now`, and the
clock is read at `clock`. -/
def sendSelfVerificationEmail (userId : ℕ) (requestIp : String) (random : List UInt8)
    (now clock : Time) : Transaction (List Entry) := do
  deleteTokens (outdated now)
  acquire (.user userId)
  let target ← fetchOne (·.user userId) "Authenticated user no longer exists"
  let recipient ← liftExcept (required (target.email.filter (trim · ≠ ""))
    "Your account does not have an email address")
  check (! target.verified) "Your current email address is already verified"
  let (lastCreated, userHourCount) ← select fun t =>
    let rows := t.tokens.filter (·.userId = userId)
    ((rows.map TokenRow.createdAt).max?, rows.countP fun r => now - seconds 3600 < r.createdAt)
  let ipHourCount ← select fun t =>
    t.tokens.countP fun r => r.requestedByIp = requestIp && now - seconds 3600 < r.createdAt
  check (! ((lastCreated.any fun created =>
      (clock - created).tdiv 1000000 < verificationResendCooldownSeconds) ||
    verificationSendsPerUserPerHour ≤ userHourCount ||
    verificationSendsPerIpPerHour ≤ ipHourCount))
    "A verification email was sent recently; try again later"
  let rawToken := p.encode random
  let tokenHash ← liftExcept (required (verificationTokenHash p rawToken)
    "fresh verification tokens always have the required format")
  let _ ← invalidateTokens (·.userId = userId) now
  let id ← nextval .tokens
  let token : TokenRow :=
    { id, tokenHash, userId, email := recipient, requestedByIp := requestIp, createdAt := now
      expiresAt := now + seconds p.emailVerificationTtlSeconds, usedAt := none
      invalidatedAt := none }
  acquire (.tokenHash tokenHash)
  let taken ← select (·.tokens.any (·.tokenHash = tokenHash))
  check (! taken && token.createdAt < token.expiresAt) "The token could not be stored"
  change fun t => { t with tokens := t.tokens ++ [token] }
  record [.issued token rawToken]

/-- What `send_self_verification_email` does when the mail is not delivered. -/
def invalidateUndelivered (tokenHash : List UInt8) (now : Time) : Transaction (List Entry) := do
  let ids ← invalidateTokens (·.tokenHash = tokenHash) now
  record [.undelivered ids]

/-- `confirm_email`; the transaction begins at `now`, and the token is consumed at `consumedAt`. -/
def confirmEmail (text : String) (now consumedAt : Time) : Transaction (List Entry) := do
  let presented := trim text
  let tokenHash ← liftExcept (required (verificationTokenHash p presented) invalidVerificationToken)
  let tokenOwner ← fetchOne (fun t => (t.tokens.find? (·.tokenHash = tokenHash)).map
    TokenRow.userId) invalidVerificationToken
  acquire (.user tokenOwner)
  let currentEmail ← fetchOne (fun t => (t.user tokenOwner).bind UserRow.email)
    invalidVerificationToken
  let found ← fetchOne (·.tokens.find? (·.tokenHash = tokenHash)) invalidVerificationToken
  acquire (.token found.id)
  let token ← fetchOne (·.token found.id) invalidVerificationToken
  check (token.tokenHash = tokenHash && token.userId = tokenOwner && token.email = currentEmail &&
    token.pending) invalidVerificationToken
  check (token.createdAt ≤ consumedAt && consumedAt < token.expiresAt) invalidVerificationToken
  change fun t => { t with
    tokens := Tables.update (fun r => r.id = token.id && r.pending)
      (fun r => { r with usedAt := some consumedAt }) t.tokens }
  let proven ← select (·.proof token.userId (some token.email))
  check proven "verified email requires a consumed verification token for the current address"
  let updated ← select (·.users.any fun u => u.id = token.userId && u.email = some token.email)
  check updated invalidVerificationToken
  change fun t => { t with
    users := Tables.update (fun u => u.id = token.userId && u.email = some token.email)
      (fun u => { u with verified := true }) t.users }
  let _ ← invalidateTokens (fun r => r.userId = token.userId && r.id ≠ token.id) now
  record [.confirmed token presented consumedAt]

/-! ## Accounts -/

/-- What `update` writes of an account; a new address is not verified. -/
def setEmail (email : Option String) (u : UserRow) : UserRow :=
  { u with
    email := email.or u.email
    verified := if email.isSome && email ≠ u.email then false else u.verified }

/-- `update` in `user_accounts.rs`. -/
def updateUser (userId : ℕ) (email : Option String) (now : Time) : Transaction (List Entry) := do
  acquire (.user userId)
  let previous ← fetchOne (·.user userId) "User not found"
  let emailChanged := email.isSome && previous.email ≠ email
  change fun t => { t with users := Tables.update (·.id = userId) (setEmail email) t.users }
  if emailChanged then do
    let _ ← invalidateTokens (·.userId = userId) now
    record [.emailChanged userId]
  else record []

/-- `new_account_email_verified`. -/
def newAccountEmailVerified : Bool := false

/-- The insertion of an account by the setup, a registration or an administrator. -/
def insertUser (email : String) : Transaction (List Entry) := do
  let id ← nextval .users
  change fun t => { t with
    users := t.users ++ [⟨id, some email, newAccountEmailVerified⟩] }
  record []

/-- `delete` in `user_accounts.rs`; the tokens of the account go with it. -/
def deleteUser (userId : ℕ) : Transaction (List Entry) := do
  acquire (.user userId)
  deleteTokens (List.filter (·.userId = userId))
  change fun t => { t with users := t.users.filter (·.id ≠ userId) }
  record []

/-! ## The system -/

/-- The requests. -/
inductive Request
  | sendVerification (userId : ℕ) (requestIp : String) (random : List UInt8) (now clock : Time)
  | undelivered (tokenHash : List UInt8) (now : Time)
  | confirm (text : String) (now consumedAt : Time)
  | updateUser (userId : ℕ) (email : Option String) (now : Time)
  | insertUser (email : String)
  | deleteUser (userId : ℕ)

/-- The transaction of a request. -/
def Request.transaction : Request → Transaction (List Entry)
  | .sendVerification userId requestIp random now clock =>
    sendSelfVerificationEmail p userId requestIp random now clock
  | .undelivered tokenHash now => invalidateUndelivered tokenHash now
  | .confirm text now consumedAt => confirmEmail p text now consumedAt
  | .updateUser userId email now => Verification.updateUser userId email now
  | .insertUser email => Verification.insertUser email
  | .deleteUser userId => Verification.deleteUser userId

/-- The tables with the requests in flight. -/
abbrev Service := SharedLocks.System MailTables LockKey Sequence String (List Entry)

/-- One step of the service. -/
def mailStep : Locking.Label Request Empty → Service → Option Service :=
  SharedLocks.step (Request.transaction p) nofun

/-- Nothing has happened yet. -/
structure Initial (s : Service) : Prop where
  users : s.store.users = []
  tokens : s.store.tokens = []
  journal : s.store.journal = []
  running : s.running = []

end CtfZone.Verification
