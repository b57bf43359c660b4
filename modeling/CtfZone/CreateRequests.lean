/-
# Creation with an idempotency key

The requests of the administrators that create categories, challenges and pages
(`administration.rs`, `challenges.rs`), each under an idempotency key
(`create_idempotency.rs`), and those that delete them.

A request that is refused for the credential of its administrator, by the unique index of a
name or an endpoint, by the gate of the private challenges or for what hangs on a challenge
ends like one that is given up, and so does one whose connection is lost.  The rows that hang
on a challenge are left out.  Ids of accounts are not given again, so that the row of a deleted
account is kept and marked.

* `lockAndReplay`, `complete`, `forgetResource` : the idempotency of a creation;
* `createCategory`, `createChallenge`, `createPage` : the creations;
* `Outcome` : what a commit has done; no request reads the journal of the outcomes.
-/
import CtfZone.CanonicalDigest
import CtfZone.SharedLocks
import CtfZone.Tables
import CtfZone.FlagPolicy

namespace CtfZone.Creation

open Locking.Program SharedLocks Tables

/-! ## Tables -/

/-- `CATEGORY_CREATE`, `CHALLENGE_CREATE`, `PAGE_CREATE`. -/
inductive Operation
  | category
  | challenge
  | page
  deriving DecidableEq

/-- The text of an operation. -/
def Operation.text : Operation → String
  | .category => "challenge-category.create"
  | .challenge => "challenge.create"
  | .page => "page.create"

/-- The primary key of a record. -/
structure Key where
  actorUserId : ℤ
  operation : Operation
  idempotencyKey : String
  deriving DecidableEq

/-- A row of `admin_create_idempotency`. -/
structure Record where
  key : Key
  requestSha256 : List UInt8
  resourceId : ℕ
  responseData : Json

/-- A row of `users`; a deleted one is not read. -/
structure AccountRow where
  id : ℤ
  deleted : Bool

/-- A row of `challenge_categories`. -/
structure CategoryRow where
  id : ℕ
  name : String
  logoKey : Option String
  logoColor : Option String
  iconObjectId : Option String

/-- The checked data of a challenge. -/
structure ChallengeInput where
  name : String
  description : String
  attribution : Option String
  connectionInfo : Option String
  nextId : Option ℤ
  maxAttempts : ℤ
  value : ℤ
  categoryId : ℕ
  challengeKind : String
  exposure : String
  challengeType : String
  state : String
  logic : String
  initial : Option ℤ
  minimum : Option ℤ
  decay : Option ℤ
  position : ℤ
  function : String

/-- A row of `challenges`. -/
structure ChallengeRow where
  id : ℕ
  input : ChallengeInput
  category : String

/-- A row of `pages`. -/
structure PageRow where
  id : ℕ
  label : String
  endpoint : String
  content : String
  pageType : String
  systemKey : Option String
  visibility : String
  navigationOrder : ℤ
  revision : ℕ
  createdAt : Time
  updatedAt : Time

/-- What a commit has done: it has created a resource, answered with the response of an earlier
creation, or deleted a resource or an account. -/
inductive Outcome
  | created (record : Record) (request : Json)
  | replayed (key : Key) (request responseData : Json)
  | deleted (operation : Operation) (resourceId : ℕ)
  | accountDeleted (id : ℤ)

/-- The tables, and the outcomes of the commits, newest first. -/
structure CreationTables where
  accounts : List AccountRow
  categories : List CategoryRow
  challenges : List ChallengeRow
  pages : List PageRow
  records : List Record
  journal : List Outcome

/-- The locks: advisory ones, under the bytes of their number, and those of rows. -/
inductive LockKey
  | advisory (number : List UInt8)
  | account (id : ℤ) (shared : Bool)
  | category (id : ℕ) (shared : Bool)
  | challenge (id : ℕ)
  | page (id : ℕ)
  deriving DecidableEq

/-- Which two of them are not held together. -/
def LockKey.conflict : LockKey → LockKey → Bool
  | .advisory n, .advisory n' => n = n'
  | .account id shared, .account id' shared' => id = id' && ! (shared && shared')
  | .category id shared, .category id' shared' => id = id' && ! (shared && shared')
  | .challenge id, .challenge id' => id = id'
  | .page id, .page id' => id = id'
  | _, _ => false

instance : Lockable LockKey where
  conflict := LockKey.conflict
  symm key key' := by
    cases key <;> cases key' <;> simp only [LockKey.conflict, eq_comm, Bool.and_comm]

/-- What a request does in its transaction; the ids of a table are drawn of its sequence. -/
abbrev Transaction := Locking.Program CreationTables LockKey Operation String

/-- What the service calls. -/
structure Platform where
  /-- `Sha256::digest` -/
  sha256 : List UInt8 → List UInt8
  /-- the checks of the payload of a challenge, which read nothing else -/
  challengeInput : Json → Except String ChallengeInput
  /-- `DateTime<Utc>` as a text -/
  dateTime : Time → String

namespace CreationTables

variable (t : CreationTables)

/-- The ids of the resources of a kind. -/
def ids : Operation → List ℕ
  | .category => t.categories.map CategoryRow.id
  | .challenge => t.challenges.map ChallengeRow.id
  | .page => t.pages.map PageRow.id

/-- The record of a key. -/
def record (key : Key) : Option Record := t.records.find? (·.key = key)

/-- The account is there. -/
def hasAccount (id : ℤ) : Bool := t.accounts.any fun u => u.id = id && ! u.deleted

end CreationTables

/-! ## The idempotency of a creation -/

/-- `HeaderValue::to_str`: visible characters and tabs. -/
def toStr (value : List UInt8) : Option String :=
  if value.all fun b => b = 9 || (32 ≤ b && b < 127) then
    some (String.ofList (value.map fun b => Char.ofNat b.toNat))
  else none

/-- `required_key`. -/
def requiredKey (header : Option (List UInt8)) : Except String String :=
  match header with
  | none => .error "Idempotency-Key header is required"
  | some bytes =>
    match toStr bytes with
    | none => .error "Invalid Idempotency-Key header"
    | some text =>
      let value := trim text
      if value = "" || 128 < value.utf8ByteSize || value.toList.any isControl then
        .error "Invalid Idempotency-Key header"
      else .ok value

/-- `i32::to_be_bytes`. -/
def be32 (n : ℤ) : List UInt8 :=
  let bits := (n % 2 ^ 32).toNat
  [.ofNat (bits / 2 ^ 24), .ofNat (bits / 2 ^ 16), .ofNat (bits / 2 ^ 8), .ofNat bits]

/-- `advisory_key`, as the eight bytes it is read off. -/
def Platform.advisoryKey (p : Platform) (key : Key) : List UInt8 :=
  (p.sha256 (asBytes "ctfzone/admin-create-idempotency-lock/v1" ++ be32 key.actorUserId ++
    asBytes key.operation.text ++ 0 :: asBytes key.idempotencyKey)).take 8

/-- `CreateRequest`. -/
structure CreateRequest where
  key : Key
  requestSha256 : List UInt8

/-- The record of a creation. -/
def CreateRequest.record (idempotency : CreateRequest) (resourceId : ℕ) (responseData : Json) :
    Record :=
  ⟨idempotency.key, idempotency.requestSha256, resourceId, responseData⟩

/-- `CreateRequest::lock_and_replay`. -/
def lockAndReplay (p : Platform) (header : Option (List UInt8)) (actorUserId : ℤ)
    (operation : Operation) (request : Json) : Transaction (CreateRequest × Option Json) := do
  let idempotencyKey ← liftExcept (requiredKey header)
  let key : Key := { actorUserId, operation, idempotencyKey }
  let requestSha256 := canonicalDigest p.sha256 request
  acquire (.advisory (p.advisoryKey key))
  let stored ← select (·.record key)
  match stored with
  | some record => do
    check (record.requestSha256 = requestSha256)
      "Idempotency-Key was already used for different create data"
    pure (⟨key, requestSha256⟩, some record.responseData)
  | none => pure (⟨key, requestSha256⟩, none)

/-- `CreateRequest::complete`; the foreign key locks the account. -/
def CreateRequest.complete (idempotency : CreateRequest) (resourceId : ℕ) (responseData : Json) :
    Transaction Unit := do
  acquire (.account idempotency.key.actorUserId true)
  let actor ← select (·.hasAccount idempotency.key.actorUserId)
  check actor "The database is temporarily unavailable"
  change fun t => { t with records := t.records ++ [idempotency.record resourceId responseData] }

/-- `forget_resource`. -/
def forgetResource (operation : Operation) (resourceId : ℕ) : Transaction Unit :=
  change fun t => { t with
    records := t.records.filter fun record =>
      ! (record.key.operation = operation && record.resourceId = resourceId) }

/-- The outcome of a request, which is entered in the journal. -/
def conclude (outcome : Outcome) : Transaction Outcome := do
  change fun t => { t with journal := outcome :: t.journal }
  pure outcome

/-! ## Categories -/

/-- `is_bidi_control`. -/
def isBidiControl (c : Char) : Bool :=
  c.toNat = 0x61c || c.toNat = 0x200e || c.toNat = 0x200f ||
    (0x202a ≤ c.toNat && c.toNat ≤ 0x202e) || (0x2066 ≤ c.toNat && c.toNat ≤ 0x2069)

/-- A label of at most 80 bytes without control characters. -/
def validateLabel (value error : String) : Except String String :=
  let value := trim value
  if value = "" || 80 < value.utf8ByteSize ||
      value.toList.any fun c => isControl c || isBidiControl c then .error error
  else .ok value

/-- `validate_challenge_category_name`. -/
def validateChallengeCategoryName (value : String) : Except String String :=
  validateLabel value "Category value is invalid"

/-- `validate_challenge_category_logo_key`. -/
def validateChallengeCategoryLogoKey : Option String → Except String (Option String)
  | none => .ok none
  | some value =>
    if ["web", "pwn", "crypto", "rev", "misc", "coding", "forensics"].contains value then
      .ok (some value)
    else .error "Category logo_key is not supported"

/-- `str::to_ascii_lowercase`. -/
def toAsciiLowercase (value : String) : String := String.ofList (value.toList.map Char.toLower)

/-- `u8::is_ascii_hexdigit`. -/
def isHexDigit (c : Char) : Bool :=
  c.isDigit || ('a' ≤ c && c ≤ 'f') || ('A' ≤ c && c ≤ 'F')

/-- `validate_challenge_category_logo_color`. -/
def validateChallengeCategoryLogoColor (value logoKey : Option String) :
    Except String (Option String) :=
  match logoKey with
  | none =>
    if value.isNone then .ok none else .error "Category logo_color requires a built-in logo"
  | some _ =>
    let value := toAsciiLowercase (value.getD "#34689c")
    if value.utf8ByteSize = 7 && value.toList.head? = some '#' && value.toList.tail.all isHexDigit
    then .ok (some value)
    else .error "Category logo_color must be a six-digit hexadecimal color"

/-- `ChallengeCategoryInput`. -/
structure ChallengeCategoryInput where
  name : String
  logoKey : Option String
  logoColor : Option String

/-- A text, or null. -/
def optionalText (value : Option String) : Json := .ofOption (value.map .string)

/-- A number, or null. -/
def optionalInt (value : Option ℤ) : Json := .ofOption (value.map .ofInt)

/-- The checks of a category: its data, and the body that is digested. -/
def categoryRequest (request : ChallengeCategoryInput) :
    Except String (ChallengeCategoryInput × Json) := do
  let name ← validateChallengeCategoryName request.name
  let logoKey ← validateChallengeCategoryLogoKey request.logoKey
  let logoColor ← validateChallengeCategoryLogoColor request.logoColor logoKey
  pure (⟨name, logoKey, logoColor⟩, .object [("name", .string name),
    ("logo_key", optionalText logoKey), ("logo_color", optionalText logoColor)])

/-- The response of the creation of a category. -/
def CategoryRow.response (row : CategoryRow) : Json :=
  .object [("id", .ofInt row.id), ("name", .string row.name),
    ("logo_key", optionalText row.logoKey), ("logo_color", optionalText row.logoColor),
    ("icon_object_id", optionalText row.iconObjectId), ("challenge_count", .ofInt 0)]

/-- `create_challenge_category`. -/
def createChallengeCategory (p : Platform) (actorUserId : ℤ) (header : Option (List UInt8))
    (request : ChallengeCategoryInput) : Transaction Outcome := do
  let (input, requestData) ← liftExcept (categoryRequest request)
  let (idempotency, replay) ← lockAndReplay p header actorUserId .category requestData
  match replay with
  | some responseData => conclude (.replayed idempotency.key requestData responseData)
  | none => do
    let id ← nextval .category
    let row : CategoryRow :=
      { id, name := input.name, logoKey := input.logoKey, logoColor := input.logoColor
        iconObjectId := none }
    change fun t => { t with categories := t.categories ++ [row] }
    idempotency.complete id row.response
    conclude (.created (idempotency.record id row.response) requestData)

/-- `delete_challenge_category`. -/
def deleteChallengeCategory (categoryId : ℕ) : Transaction Outcome := do
  acquire (.category categoryId false)
  let exists' ← select fun t => (t.ids .category).contains categoryId
  check exists' "Challenge category not found"
  let inUse ← select fun t => t.challenges.any fun c => c.input.categoryId = categoryId
  check (! inUse) "Challenge category is still used by a challenge"
  change fun t => { t with categories := t.categories.filter fun row => row.id ≠ categoryId }
  forgetResource .category categoryId
  conclude (.deleted .category categoryId)

/-! ## Challenges -/

/-- The response of the creation of a challenge. -/
def challengeResponse (id : ℕ) (input : ChallengeInput) (category : CategoryRow) : Json :=
  .object [("id", .ofInt id), ("name", .string input.name), ("value", .ofInt input.value),
    ("description", .string input.description), ("attribution", optionalText input.attribution),
    ("connection_info", optionalText input.connectionInfo), ("next_id", optionalInt input.nextId),
    ("category", .string category.name), ("category_id", .ofInt input.categoryId),
    ("category_logo_key", optionalText category.logoKey),
    ("category_logo_color", optionalText category.logoColor),
    ("category_icon_object_id", optionalText category.iconObjectId),
    ("challenge_type", .string input.challengeKind), ("exposure", .string input.exposure),
    ("state", .string input.state), ("max_attempts", .ofInt input.maxAttempts),
    ("position", .ofInt input.position), ("logic", .string input.logic),
    ("initial", optionalInt input.initial), ("decay", optionalInt input.decay),
    ("minimum", optionalInt input.minimum), ("function", .string input.function),
    ("type", .string input.challengeType)]

/-- `create` of a challenge. -/
def createChallenge (p : Platform) (actorUserId : ℤ) (header : Option (List UInt8))
    (payload : Json) : Transaction Outcome := do
  let input ← liftExcept (p.challengeInput payload)
  let (idempotency, replay) ← lockAndReplay p header actorUserId .challenge payload
  match replay with
  | some responseData => conclude (.replayed idempotency.key payload responseData)
  | none => do
    acquire (.category input.categoryId true)
    let category ← fetchOne (fun t => t.categories.find? (·.id = input.categoryId))
      "Select an existing challenge category"
    let id ← nextval .challenge
    change fun t => { t with
      challenges := t.challenges ++ [{ id, input, category := category.name }] }
    let responseData := challengeResponse id input category
    idempotency.complete id responseData
    conclude (.created (idempotency.record id responseData) payload)

/-- `delete_challenge`. -/
def deleteChallenge (challengeId : ℕ) : Transaction Outcome := do
  acquire (.challenge challengeId)
  let exists' ← select fun t => (t.ids .challenge).contains challengeId
  check exists' "Challenge not found"
  change fun t => { t with challenges := t.challenges.filter fun row => row.id ≠ challengeId }
  forgetResource .challenge challengeId
  conclude (.deleted .challenge challengeId)

/-! ## Pages -/

/-- `PageInput`. -/
structure PageInput where
  label : String
  endpoint : String
  content : String
  visibility : String
  navigationOrder : ℤ

/-- `value.replace("\r\n", "\n").replace('\r', "\n")`. -/
def normalizeLines : List Char → List Char
  | '\r' :: '\n' :: rest => '\n' :: normalizeLines rest
  | '\r' :: rest => '\n' :: normalizeLines rest
  | c :: rest => c :: normalizeLines rest
  | [] => []

/-- `validate_page_content`. -/
def validatePageContent (value : String) : Except String String :=
  let value := String.ofList (normalizeLines value.toList)
  if 262144 < value.utf8ByteSize || value.toList.contains (Char.ofNat 0) then
    .error "Page HTML must be no larger than 256 KiB and cannot contain NUL bytes"
  else .ok value

/-- `str::split` at a character. -/
def splitAt (c : Char) : List Char → List (List Char)
  | [] => [[]]
  | d :: rest =>
    match splitAt c rest with
    | [] => [[d]]
    | segment :: segments =>
      if d = c then [] :: segment :: segments else (d :: segment) :: segments

/-- The first segments of the endpoints that are no page. -/
def reservedEndpoints : List String :=
  ["admin", "api", "assets", "bff", "category-icons", "challenges", "confirm", "downloads",
    "healthz", "login", "logout", "profile", "register", "scoreboard", "settings", "setup", "team",
    "teams", "users"]

/-- A segment of an endpoint. -/
def validSegment (segment : List Char) : Bool :=
  segment.head?.any (fun c => c.isLower || c.isDigit) &&
    segment.all fun c => c.isLower || c.isDigit || c = '_' || c = '-'

/-- `contains("..")`. -/
def containsDots : List Char → Bool
  | '.' :: '.' :: _ => true
  | _ :: rest => containsDots rest
  | [] => false

/-- `validate_custom_page_endpoint`. -/
def validateCustomPageEndpoint (value : String) : Except String String :=
  let endpoint := toAsciiLowercase (String.ofList
    (((trim value).toList.dropWhile (· = '/')).rdropWhile (· = '/')))
  let segments := splitAt '/' endpoint.toList
  let valid := endpoint ≠ "" && endpoint.utf8ByteSize ≤ 128 && ! containsDots endpoint.toList &&
    segments.all validSegment
  let reserved := reservedEndpoints.contains (String.ofList (segments.headD []))
  if ! valid || reserved then .error "Page endpoint is invalid or reserved" else .ok endpoint

/-- `validate_page_visibility`. -/
def validatePageVisibility (value : String) : Except String String :=
  let value := toAsciiLowercase (trim value)
  if ["public", "private", "invisible"].contains value then .ok value
  else .error "Page visibility is invalid"

/-- `validate_page_navigation_order`. -/
def validatePageNavigationOrder (value : ℤ) (home : Bool) : Except String ℤ :=
  if (home && value = 0) || (! home && 1 ≤ value && value ≤ 10000) then .ok value
  else .error "Page navigation order is invalid"

/-- The checks of a page: its data, and the body that is digested. -/
def pageRequest (request : PageInput) : Except String (PageInput × Json) := do
  let label ← validateLabel request.label "Page label is invalid"
  let endpoint ← validateCustomPageEndpoint request.endpoint
  let content ← validatePageContent request.content
  let visibility ← validatePageVisibility request.visibility
  let navigationOrder ← validatePageNavigationOrder request.navigationOrder false
  pure (⟨label, endpoint, content, visibility, navigationOrder⟩, .object [("label", .string label),
    ("endpoint", .string endpoint), ("content", .string content),
    ("visibility", .string visibility), ("navigation_order", .ofInt navigationOrder)])

/-- `json!(&page)`. -/
def PageRow.response (p : Platform) (row : PageRow) : Json :=
  .object [("id", .ofInt row.id), ("label", .string row.label),
    ("endpoint", .string row.endpoint), ("content", .string row.content),
    ("page_type", .string row.pageType), ("system_key", optionalText row.systemKey),
    ("visibility", .string row.visibility), ("navigation_order", .ofInt row.navigationOrder),
    ("revision", .ofInt row.revision), ("created_at", .string (p.dateTime row.createdAt)),
    ("updated_at", .string (p.dateTime row.updatedAt))]

/-- `create_page`. -/
def createPage (p : Platform) (actorUserId : ℤ) (header : Option (List UInt8))
    (request : PageInput) (now : Time) : Transaction Outcome := do
  let (input, requestData) ← liftExcept (pageRequest request)
  let (idempotency, replay) ← lockAndReplay p header actorUserId .page requestData
  match replay with
  | some responseData => conclude (.replayed idempotency.key requestData responseData)
  | none => do
    let id ← nextval .page
    let row : PageRow :=
      { id, label := input.label, endpoint := input.endpoint, content := input.content
        pageType := "custom", systemKey := none, visibility := input.visibility
        navigationOrder := input.navigationOrder, revision := 1, createdAt := now, updatedAt := now }
    change fun t => { t with pages := t.pages ++ [row] }
    idempotency.complete id (row.response p)
    conclude (.created (idempotency.record id (row.response p)) requestData)

/-- `delete_page`. -/
def deletePage (pageId : ℕ) : Transaction Outcome := do
  acquire (.page pageId)
  let page ← fetchOne (fun t => t.pages.find? (·.id = pageId)) "Page not found"
  check (page.pageType = "custom") "Built-in pages cannot be deleted"
  change fun t => { t with pages := t.pages.filter fun row => row.id ≠ pageId }
  forgetResource .page pageId
  conclude (.deleted .page pageId)

/-! ## Accounts -/

/-- `delete` of a user: the foreign key of the records cascades. -/
def deleteUser (userId : ℤ) : Transaction Outcome := do
  acquire (.account userId false)
  let exists' ← select (·.hasAccount userId)
  check exists' "User not found"
  change fun t => { t with
    accounts := update (·.id = userId) (fun u => { u with deleted := true }) t.accounts
    records := t.records.filter fun record => record.key.actorUserId ≠ userId }
  conclude (.accountDeleted userId)

/-! ## The service -/

/-- The requests. -/
inductive Request
  | createCategory (actorUserId : ℤ) (header : Option (List UInt8))
      (request : ChallengeCategoryInput)
  | createChallenge (actorUserId : ℤ) (header : Option (List UInt8)) (payload : Json)
  | createPage (actorUserId : ℤ) (header : Option (List UInt8)) (request : PageInput) (now : Time)
  | deleteCategory (categoryId : ℕ)
  | deleteChallenge (challengeId : ℕ)
  | deletePage (pageId : ℕ)
  | deleteUser (userId : ℤ)

/-- The transaction of a request. -/
def Request.transaction (p : Platform) : Request → Transaction Outcome
  | .createCategory actorUserId header request =>
    createChallengeCategory p actorUserId header request
  | .createChallenge actorUserId header payload =>
    Creation.createChallenge p actorUserId header payload
  | .createPage actorUserId header request now =>
    Creation.createPage p actorUserId header request now
  | .deleteCategory categoryId => deleteChallengeCategory categoryId
  | .deleteChallenge challengeId => Creation.deleteChallenge challengeId
  | .deletePage pageId => Creation.deletePage pageId
  | .deleteUser userId => Creation.deleteUser userId

/-- The key and the body under which a request creates, if it passes its checks. -/
def Request.creation (p : Platform) : Request → Option (Key × Json)
  | .createCategory actorUserId header request => do
    let (_, requestData) ← (categoryRequest request).toOption
    let idempotencyKey ← (requiredKey header).toOption
    pure (⟨actorUserId, .category, idempotencyKey⟩, requestData)
  | .createChallenge actorUserId header payload => do
    let _ ← (p.challengeInput payload).toOption
    let idempotencyKey ← (requiredKey header).toOption
    pure (⟨actorUserId, .challenge, idempotencyKey⟩, payload)
  | .createPage actorUserId header request _ => do
    let (_, requestData) ← (pageRequest request).toOption
    let idempotencyKey ← (requiredKey header).toOption
    pure (⟨actorUserId, .page, idempotencyKey⟩, requestData)
  | _ => none

/-- The key and the body under which an outcome creates, or answers with a creation. -/
def Outcome.creation : Outcome → Option (Key × Json)
  | .created record request => some (record.key, request)
  | .replayed key request _ => some (key, request)
  | _ => none

/-- The requests whose body fits into memory. -/
def ReadRequest (p : Platform) : Type :=
  { request : Request // ∀ key body, request.creation p = some (key, body) → Fits body }

/-- The transaction of a request that has been read. -/
def ReadRequest.transaction (p : Platform) (request : ReadRequest p) : Transaction Outcome :=
  request.1.transaction p

/-- What else happens: an account is registered, and rows are edited. -/
inductive Event
  | register (id : ℤ)
  | editCategory (categoryId : ℕ) (f : CategoryRow → CategoryRow)
  | editChallenge (challengeId : ℕ) (f : ChallengeRow → ChallengeRow)
  | editPage (pageId : ℕ) (f : PageRow → PageRow)

/-- What it does to the tables: an id is given once, and edits leave it. -/
def Event.apply : Event → CreationTables → CreationTables
  | .register id, t =>
    if (t.accounts.map AccountRow.id).contains id then t
    else { t with accounts := t.accounts ++ [⟨id, false⟩] }
  | .editCategory categoryId f, t => { t with
      categories := update (·.id = categoryId) (fun row => { f row with id := row.id })
        t.categories }
  | .editChallenge challengeId f, t => { t with
      challenges := update (·.id = challengeId) (fun row => { f row with id := row.id })
        t.challenges }
  | .editPage pageId f, t => { t with
      pages := update (·.id = pageId) (fun row => { f row with id := row.id }) t.pages }

/-- The service and its database. -/
abbrev Service := SharedLocks.System CreationTables LockKey Operation String Outcome

/-- One step of the service. -/
def serviceStep (p : Platform) : Locking.Label (ReadRequest p) Event → Service → Option Service :=
  SharedLocks.step (ReadRequest.transaction p) Event.apply

/-- There are rows, and the sequences are past their ids; nothing has been created under an
idempotency key, and nothing is in flight. -/
structure Initial (s : Service) : Prop where
  accounts : (s.store.accounts.map AccountRow.id).Nodup
  drawn : ∀ operation, ∀ id ∈ s.store.ids operation, id < s.next operation
  records : s.store.records = []
  journal : s.store.journal = []
  running : s.running = []

end CtfZone.Creation
