/-
# The configuration of the portal

The settings (`configuration.rs`) and the requests that change them, statement by statement:
the routes of the administration (`administration.rs`), the first setup (`browser_auth.rs`,
`setup.rs`) and the change of the mode (`user_mode_transition.rs`).

* `settings` : what can be configured, and of which kind;
* `normalizeValue` : what is saved for a value of a request;
* `validateCrossFields` : what the settings have to agree on;
* `Request.transaction` : the requests; the lock of the configuration is exclusive here.
-/
import CtfZone.SettingTexts
import CtfZone.SharedLocks
import Mathlib.Logic.Function.Basic

namespace CtfZone.Configuration

open Locking Locking.Program SharedLocks
open Accounts (toAsciiLowercase)
open Journal (isWhitespace)
open Scoreboard (parseI64)
open Submissions (required)

/-! ## Settings -/

/-- `SettingKind`; of the options, only their values. -/
inductive SettingKind
  | string | text | boolean
  | integer (min max : ℤ)
  | dateTime
  | select (options : List String)
  | secret
  deriving DecidableEq

/-- `SettingDefinition`, without what is only shown. -/
structure SettingDefinition where
  key : String
  label : String
  kind : SettingKind
  readOnly : Bool
  deriving DecidableEq

/-- `USER_MODES`. -/
def userModes : List String := ["users", "teams"]

/-- `VISIBILITY`. -/
def visibility : List String := ["public", "private", "admins"]

/-- `REGISTRATION_VISIBILITY`. -/
def registrationVisibility : List String := ["public", "private"]

/-- `REGISTRATION_MODES`. -/
def registrationModes : List String := ["open", "domain_rules", "access_code", "email_allowlist"]

/-- `ATTEMPT_BEHAVIORS`. -/
def attemptBehaviors : List String := ["lockout", "timeout"]

/-- `RATING_MODES`. -/
def ratingModes : List String := ["public", "private", "disabled"]

/-- `TEAM_DISBANDING`. -/
def teamDisbanding : List String := ["inactive_only", "disabled"]

/-- `MAIL_PROVIDERS`. -/
def mailProviders : List String := ["auto", "disabled", "smtp", "mailgun"]

/-- `SETTINGS`. -/
def settings : List SettingDefinition := [
  ⟨"ctf_name", "CTF name", .string, false⟩,
  ⟨"ctf_description", "Description", .text, false⟩,
  ⟨"player_frontend", "Player frontend", .string, false⟩,
  ⟨"user_mode", "Competition mode", .select userModes, false⟩,
  ⟨"start", "Start time", .dateTime, false⟩,
  ⟨"end", "End time", .dateTime, false⟩,
  ⟨"freeze", "Scoreboard freeze", .dateTime, false⟩,
  ⟨"paused", "Pause submissions", .boolean, false⟩,
  ⟨"view_after_ctf", "View challenges after event", .boolean, false⟩,
  ⟨"account_visibility", "Account visibility", .select visibility, false⟩,
  ⟨"registration_visibility", "Registration status", .select registrationVisibility, false⟩,
  ⟨"registration_access_mode", "Admission policy", .select registrationModes, false⟩,
  ⟨"registration_code", "Registration code", .secret, false⟩,
  ⟨"domain_whitelist", "Allowed email domains", .text, false⟩,
  ⟨"domain_blacklist", "Denied email domains", .text, false⟩,
  ⟨"num_users", "Participant limit", .integer 0 10000000, false⟩,
  ⟨"password_min_length", "Minimum password length", .integer 0 128, false⟩,
  ⟨"name_changes", "Allow name changes", .boolean, false⟩,
  ⟨"team_creation", "Allow participant team creation", .boolean, false⟩,
  ⟨"team_size", "Maximum team size", .integer 0 10000000, false⟩,
  ⟨"num_teams", "Maximum number of teams", .integer 0 10000000, false⟩,
  ⟨"team_disbanding", "Allow team disbanding", .select teamDisbanding, false⟩,
  ⟨"verify_emails", "Require verified email", .boolean, false⟩,
  ⟨"incorrect_submissions_per_min", "Incorrect submissions per minute", .integer 1 10000, false⟩,
  ⟨"max_attempts_behavior", "Maximum-attempt behavior", .select attemptBehaviors, false⟩,
  ⟨"max_attempts_timeout", "Attempt timeout", .integer 1 31536000, false⟩,
  ⟨"challenge_ratings", "Challenge ratings", .select ratingModes, false⟩,
  ⟨"hints_free_public_access", "Free hints for guests", .boolean, false⟩,
  ⟨"view_self_submissions", "View own submissions", .boolean, false⟩,
  ⟨"mail_provider", "Email provider", .select mailProviders, false⟩,
  ⟨"mail_server", "SMTP server", .string, false⟩,
  ⟨"mail_port", "SMTP port", .integer 1 65535, false⟩,
  ⟨"mail_username", "SMTP username", .string, false⟩,
  ⟨"mail_password", "SMTP password", .secret, false⟩,
  ⟨"mail_ssl", "Implicit TLS", .boolean, false⟩,
  ⟨"mail_tls", "STARTTLS", .boolean, false⟩,
  ⟨"mailfrom_addr", "Sender address", .string, false⟩,
  ⟨"user_creation_email_subject", "Email subject", .string, false⟩,
  ⟨"mailgun_base_url", "Mailgun API base URL", .string, false⟩,
  ⟨"mailgun_api_key", "Mailgun API key", .secret, false⟩]

/-- `setting`. -/
def setting (key : String) : Option SettingDefinition := settings.find? (·.key = key)

/-- `COMPLETED_MARKER_KEY`. -/
def completedMarkerKey : String := "setup"

/-- `SENSITIVE_KEYS`. -/
def sensitiveKeys : List String := ["registration_code", "mail_password", "mailgun_api_key"]

/-- `is_sensitive_key`. -/
def isSensitiveKey (key : String) : Bool :=
  let key := toAsciiLowercase key
  sensitiveKeys.contains key || ["_password", "_secret", "_token", "_api_key"].any fun suffix =>
    suffix.toList.isSuffixOf key.toList

/-- `PublicConfig`, without the id. -/
structure PublicConfig where
  key : String
  value : Option String
  sensitive : Bool
  configured : Bool
  deriving DecidableEq

/-- `PublicConfig::from`. -/
def PublicConfig.of (key value : String) : PublicConfig where
  key := key
  value := if isSensitiveKey key then none else some value
  sensitive := isSensitiveKey key
  configured := value ≠ ""

/-- `parse_stored_value`. -/
def parseStoredValue (kind : SettingKind) (value : String) : Option Json :=
  match kind with
  | .boolean => (parseBoolText value).map .bool
  | .integer _ _ | .dateTime => if value = "" then none else (parseI64 value).map .ofInt
  | _ => some (.string value)

/-! ## Values -/

/-- What is not in the repository: `reqwest::Url::parse`, with the scheme and the host of an
address, and `lettre`'s reading of a mailbox. -/
structure Formats where
  url : String → Option (String × Option String)
  mailbox : String → Bool

/-- `validate_key`. -/
def validateKey (key : String) : Except String Unit :=
  ensure (key ≠ "" && key.utf8ByteSize ≤ 128 &&
    key.toList.all fun c => c.isAlphanum || c ∈ ['.', '_', '-']) "Configuration key is invalid"

/-- `text_value`. -/
def textValue (value : Json) (label : String) : Except String String :=
  match value with
  | .string text => .ok (trim text)
  | _ => .error (label ++ " must be text")

/-- What the keys ask of their texts. -/
def acceptText (formats : Formats) (key value : String) : Except String String :=
  if key = "ctf_name" then normalizeCtfName value
  else if key = "domain_whitelist" ∨ key = "domain_blacklist" then normalizeDomainRules value
  else if key = "player_frontend" then (validatePlayerFrontend value).map fun _ => value
  else if key = "mailgun_base_url" ∧ value ≠ "" then
    match formats.url value with
    | none => .error "Mailgun API base URL is invalid"
    | some (scheme, host) =>
      if (scheme = "http" ∨ scheme = "https") ∧ host.isSome then .ok value
      else .error "Mailgun API base URL must use HTTP or HTTPS and include a host"
  else if key = "mail_server" ∧ value ≠ "" ∧
      (255 < value.utf8ByteSize ∨ value.toList.any isWhitespace) then
    .error "SMTP server name is invalid"
  else if key = "mailfrom_addr" ∧ value ≠ "" ∧ formats.mailbox value = false then
    .error "Email sender address is invalid"
  else .ok value

/-- The texts among the kinds. -/
def normalizeText (formats : Formats) (key : String) (value : Json) (label : String)
    (isString : Bool) : Except String String := do
  let value ← textValue value label
  ensure (! (value.toList.contains '\x00' || (value.toList.any isControl && isString)))
    (label ++ " contains control characters")
  ensure (value.utf8ByteSize ≤ 100000) (label ++ " is too long")
  acceptText formats key value

/-- The secrets; an empty text keeps what there is. -/
def normalizeSecret (value : Json) (label : String) (current : Option String) :
    Except String String :=
  match value with
  | .null => .ok ""
  | .string text =>
    if text = "" then .ok (current.getD "")
    else if text.utf8ByteSize ≤ 10000 ∧ text.toList.any isControl = false then .ok text
    else .error (label ++ " is invalid")
  | _ => .error (label ++ " must be text or null")

/-- The integers. -/
def normalizeInteger (value : Json) (label : String) (min max : ℤ) : Except String String := do
  let integer ← required (← parseInteger value false) (label ++ " must be an integer")
  ensure (min ≤ integer && integer ≤ max)
    (label ++ " must be between " ++ toString min ++ " and " ++ toString max)
  pure (toString integer)

/-- The points in time, as Unix timestamps, or none. -/
def normalizeDateTime (value : Json) (label : String) : Except String String := do
  let timestamp ← parseInteger value true
  ensure (timestamp.all fun n => 0 ≤ n && n ≤ 253402300799)
    (label ++ " must be a Unix timestamp between 0 and year 9999")
  pure ((timestamp.map toString).getD "")

/-- The choices. -/
def normalizeSelect (value : Json) (label : String) (options : List String) :
    Except String String := do
  let value ← textValue value label
  ensure (options.contains value) (label ++ " has an unsupported value")
  pure value

/-- `normalize_value`. -/
def normalizeValue (formats : Formats) (key : String) (value : Json) (current : Option String) :
    Except String String := do
  validateKey key
  ensure (key ≠ completedMarkerKey)
    "The setup completion marker cannot be changed through configuration"
  let definition ← required (setting key) "Unknown configuration setting"
  ensure (! definition.readOnly) (definition.label ++ " is read-only")
  match definition.kind with
  | .string => normalizeText formats key value definition.label true
  | .text => normalizeText formats key value definition.label false
  | .secret => normalizeSecret value definition.label current
  | .boolean => (parseBool value).map boolText
  | .integer min max => normalizeInteger value definition.label min max
  | .dateTime => normalizeDateTime value definition.label
  | .select options => normalizeSelect value definition.label options

/-! ## Settings that belong together -/

/-- What is saved under the keys. -/
abbrev Values := String → Option String

/-- A point in time that is configured. -/
def Values.integer (values : Values) (key : String) : Option ℤ :=
  ((values key).filter (· ≠ "")).bind parseI64

/-- A switch that is on. -/
def Values.enabled (values : Values) (key : String) : Bool :=
  ((values key).bind parseBoolText).getD false

/-- A text that is not blank. -/
def Values.provided (values : Values) (key : String) : Bool :=
  (values key).any (trim · ≠ "")

/-- The provider is complete that is selected. -/
def Values.providerReady (values : Values) : Bool :=
  let mailgunReady := values.provided "mailgun_base_url" && values.provided "mailgun_api_key"
  let smtpReady := values.provided "mail_server"
  match values "mail_provider" with
  | none => mailgunReady || smtpReady
  | some provider =>
    if provider = "smtp" then smtpReady
    else if provider = "mailgun" then mailgunReady
    else if provider = "auto" then mailgunReady || smtpReady
    else false

/-- `validate_cross_fields`. -/
def validateCrossFields (values : Values) : Except String Unit := do
  let start := values.integer "start"
  let stop := values.integer "end"
  let freeze := values.integer "freeze"
  ensure (start.all fun s => stop.all (s < ·)) "Event end time must be after its start time"
  ensure (freeze.all fun f => start.all (· ≤ f) && stop.all (f ≤ ·))
    "Scoreboard freeze must be within the configured event window"
  ensure (! (values.enabled "mail_ssl" && values.enabled "mail_tls"))
    "Email cannot enable both implicit TLS and STARTTLS"
  ensure (values "registration_access_mode" ≠ some "access_code" ||
      (values "registration_code").any (· ≠ ""))
    "Registration code is required for access-code registration"
  ensure (! values.enabled "verify_emails" || values.provided "mailfrom_addr")
    "Email sender is required when email verification is enabled"
  ensure (! values.enabled "verify_emails" || values.providerReady)
    "A working SMTP or Mailgun configuration is required when email verification is enabled"
  ensure (values "mail_provider" ≠ some "smtp" || values.provided "mail_server")
    "SMTP server is required when SMTP is selected"
  ensure (values "mail_provider" ≠ some "mailgun" ||
      (values.provided "mailgun_base_url" && values.provided "mailgun_api_key"))
    "Mailgun base URL and API key are required when Mailgun is selected"

/-! ## Tables -/

/-- The rows of `config` by their keys, without their ids, and the ids of the accounts that
administer the portal. -/
structure ConfigTables where
  config : String → Option (Option String)
  admins : List ℤ

/-- The advisory locks. -/
inductive LockKey
  | configuration
  | setupInvariant
  deriving DecidableEq

instance : Lockable LockKey where
  conflict key key' := key = key'
  symm key key' := by simp only [eq_comm]

/-- What a request answers that commits. -/
inductive Answer
  | configured (shown : Option PublicConfig)
  | setUp
  | transitioned
  deriving DecidableEq

/-- What a request does in its transaction. -/
abbrev Transaction := Program ConfigTables LockKey Empty String

/-- `btrim`, which strips blanks only. -/
def btrim (text : String) : String :=
  String.ofList ((text.toList.dropWhile (· = ' ')).rdropWhile (· = ' '))

namespace ConfigTables

variable (t : ConfigTables)

/-- What is saved, a NULL as the empty text. -/
def values : Values := fun key => (t.config key).map (·.getD "")

/-- `INSERT INTO ctfzone.config … ON CONFLICT (key) DO UPDATE`. -/
def upsert (key value : String) : ConfigTables :=
  { t with config := Function.update t.config key (some (some value)) }

/-- The marker of a setup that is done. -/
def markerExists : Bool :=
  (t.values completedMarkerKey).any fun value =>
    toAsciiLowercase (btrim value) ∈ ["1", "true", "yes", "on"]

/-- `completion_state`. -/
def isComplete : Bool := ! t.admins.isEmpty || t.markerExists

/-- `transaction_user_mode`. -/
def transactionUserMode : String :=
  ((t.config "user_mode").join.filter fun value => trim value ≠ "").getD "users"

/-- The mode in `load_snapshot`. -/
def sourceMode : String :=
  (((t.config "user_mode").join.map btrim).filter (· ≠ "")).getD "users"

end ConfigTables

/-! ## Statements -/

/-- `require_admin`, of the account that the request is made with. -/
def requireAdmin (userId : ℤ) : Transaction Unit := do
  let administers ← select (·.admins.contains userId)
  check administers "Administrator access is required"

/-- `upsert_normalized`, `upsert_config` and `upsert_setup_config`. -/
def upsertConfig (key value : String) : Transaction Unit := change (·.upsert key value)

/-- The loop over the mutations. -/
def upsertAll : List (String × String) → Transaction Unit
  | [] => pure ⟨⟩
  | (key, value) :: normalized => do
    upsertConfig key value
    upsertAll normalized

/-- The loop of `normalize_mutations`: what there will be, and what is new of it. -/
def normalizeAll (formats : Formats) (merged : Values) :
    List (String × Json) → Except String (Values × List (String × String))
  | [] => .ok (merged, [])
  | (key, value) :: proposed => do
    let value ← normalizeValue formats key value (merged key)
    let (merged, normalized) ←
      normalizeAll formats (Function.update merged key (some value)) proposed
    pure (merged, (key, value) :: normalized)

/-- The value that a mutation gives the mode. -/
def requestedMode (normalized : List (String × String)) : Option String :=
  (normalized.find? (·.1 = "user_mode")).map Prod.snd

/-- `validate_user_mode_transition`. -/
def validateUserModeTransition (merged : Values) (normalized : List (String × String)) :
    Transaction Unit :=
  onlyIf (requestedMode normalized).isSome do
    let previous ← select fun t => (t.config "user_mode").join.getD "users"
    check (previous = (merged "user_mode").getD "users")
      "Competition mode changes require the dedicated impact preview and confirmation flow"

/-- `normalize_mutations`. -/
def normalizeMutations (formats : Formats) (request : List (String × Json)) :
    Transaction (List (String × String)) := do
  acquire .configuration
  let current ← select (·.values)
  let (merged, normalized) ← liftExcept (normalizeAll formats current request)
  liftExcept (validateCrossFields merged)
  validateUserModeTransition merged normalized
  pure normalized

/-- `direct_user_mode_change_error`. -/
def directUserModeChangeError : String :=
  "Competition mode must be changed through the account-mode transition endpoint"

/-- `reject_direct_user_mode_change`. -/
def rejectDirectUserModeChange (normalized : List (String × String)) : Transaction Unit :=
  match requestedMode normalized with
  | none => pure ⟨⟩
  | some requested => do
    let current ← select (·.transactionUserMode)
    check (requested = current) directUserModeChangeError

/-- The value of the only mutation. -/
def storedValue (normalized : List (String × String)) : Except String String :=
  required (normalized.head?.map Prod.snd) "Configuration mutation is empty"

/-! ## Requests -/

/-- `create_config`. -/
def createConfig (formats : Formats) (userId : ℤ) (key : String) (value : Json) :
    Transaction Answer := do
  requireAdmin userId
  check (key ≠ "user_mode") directUserModeChangeError
  let normalized ← normalizeMutations formats [(key, value)]
  let stored ← liftExcept (storedValue normalized)
  -- The key is unique.
  let saved ← select fun t => (t.config key).isSome
  check (! saved) "A record with these values already exists"
  upsertConfig key stored
  pure (.configured (some (.of key stored)))

/-- `patch_configs`; the keys of a JSON object are distinct. -/
def patchConfigs (formats : Formats) (userId : ℤ) (request : List (String × Json)) :
    Transaction Answer := do
  requireAdmin userId
  let normalized ← normalizeMutations formats request
  rejectDirectUserModeChange normalized
  upsertAll normalized
  pure (.configured none)

/-- `update_config`. -/
def updateConfig (formats : Formats) (userId : ℤ) (key : String) (value : Json) :
    Transaction Answer := do
  requireAdmin userId
  let normalized ← normalizeMutations formats [(key, value)]
  rejectDirectUserModeChange normalized
  let stored ← liftExcept (storedValue normalized)
  upsertConfig key stored
  pure (.configured (some (.of key stored)))

/-- What the setup saves. -/
def setupConfig (ctfName playerFrontend : String) : List (String × String) :=
  [("ctf_name", ctfName), ("player_frontend", playerFrontend), ("ctf_description", ""),
    ("user_mode", "users"), ("num_users", "0"), ("password_min_length", "0"),
    ("name_changes", "true"), ("team_creation", "true"), ("team_size", "0"), ("num_teams", "0"),
    ("team_disbanding", "inactive_only"), ("challenge_visibility", "private"),
    ("score_visibility", "public"), ("account_visibility", "public"),
    ("registration_visibility", "public"), ("registration_access_mode", "open"),
    ("verify_emails", "false"), ("paused", "false"), ("start", ""), ("end", ""), ("freeze", "")]

/-- `setup`, as far as the settings go; `userId` is the id of the account that it creates. -/
def setup (userId : ℤ) (ctfName playerFrontend : Option String) : Transaction Answer := do
  let ctfName ← liftExcept (normalizeCtfName (ctfName.getD "CTFZone"))
  let playerFrontend := playerFrontend.getD "terminal"
  liftExcept (validatePlayerFrontend playerFrontend)
  acquire .setupInvariant
  let complete ← select (·.isComplete)
  check (! complete) "CTFZone setup has already been completed"
  change fun t => { t with admins := t.admins ++ [userId] }
  upsertAll (setupConfig ctfName playerFrontend)
  upsertConfig completedMarkerKey "true"
  pure .setUp

/-- `parse_mode`. -/
def parseMode (value : String) : Except String String :=
  let mode := toAsciiLowercase (trim value)
  if mode = "users" then .ok "users"
  else if mode = "teams" then .ok "teams"
  else .error "Target mode must be either users or teams"

/-- `confirmation_phrase`. -/
def confirmationPhrase (targetMode : String) : String :=
  "SWITCH TO " ++ String.ofList (targetMode.toList.map Char.toUpper)

/-- `execute` in `user_mode_transition.rs`, as far as the settings go; what else refuses it
aborts it. -/
def execute (userId : ℤ) (targetMode confirmation : String) : Transaction Answer := do
  requireAdmin userId
  let targetMode ← liftExcept (parseMode targetMode)
  check (trim confirmation = confirmationPhrase targetMode)
    ("Type " ++ confirmationPhrase targetMode ++ " to confirm this destructive transition")
  acquire .configuration
  requireAdmin userId
  let sourceMode ← select (·.sourceMode)
  check (sourceMode ≠ targetMode) "The requested competition mode is already active"
  upsertConfig "user_mode" targetMode
  pure .transitioned

/-! ## The portal -/

/-- The requests. -/
inductive Request
  | createConfig (userId : ℤ) (key : String) (value : Json)
  | patchConfigs (userId : ℤ) (request : List (String × Json))
  | updateConfig (userId : ℤ) (key : String) (value : Json)
  | setup (userId : ℤ) (ctfName playerFrontend : Option String)
  | execute (userId : ℤ) (targetMode confirmation : String)

/-- The transaction of a request. -/
def Request.transaction (formats : Formats) : Request → Transaction Answer
  | .createConfig userId key value => Configuration.createConfig formats userId key value
  | .patchConfigs userId request => Configuration.patchConfigs formats userId request
  | .updateConfig userId key value => Configuration.updateConfig formats userId key value
  | .setup userId ctfName playerFrontend => Configuration.setup userId ctfName playerFrontend
  | .execute userId targetMode confirmation =>
    Configuration.execute userId targetMode confirmation

/-- What else happens: the visibility of a page is saved (`sync_system_page_visibility`), or
administrators come and go, which takes an administrator. -/
inductive Event
  | visibility (scoreboard : Bool) (value : String)
  | admins (ids : List ℤ)

/-- What an event does. -/
def Event.apply : Event → ConfigTables → ConfigTables
  | .visibility scoreboard value, t =>
    let key := if scoreboard then "score_visibility" else "challenge_visibility"
    if (t.config key).isSome then t.upsert key value else t
  | .admins ids, t => if t.admins.isEmpty then t else { t with admins := ids }

/-- The tables with the requests in flight. -/
abbrev Portal := SharedLocks.System ConfigTables LockKey Empty String Answer

/-- One step of the portal. -/
def portalStep (formats : Formats) : Locking.Label Request Event → Portal → Option Portal :=
  SharedLocks.step (Request.transaction formats) Event.apply

/-- A portal that is not set up: nothing is saved. -/
structure Initial (s : Portal) : Prop where
  config : s.store.config = fun _ => none
  admins : s.store.admins = []
  running : s.running = []

end CtfZone.Configuration
