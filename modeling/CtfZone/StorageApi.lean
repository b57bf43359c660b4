/-
# The storage routes of the API

`objects.rs`: the transactions of the API on objects and category icons.  Each
is a function of the tables; `completeUpload` is the one that waits for the
object store while it holds its locks, and is cut where it does.

The checks that only turn a request away (sessions, team membership, the access
to a challenge) are left out.

* `enforceStorageQuota`, `initiateUpload` : a grant for an upload;
* `beginComplete`, `checkPromoted`, `commitComplete` : its completion;
* `failUpload`, `scheduleDelete`, `deleteCategoryIcon` : what ends an object.
-/
import CtfZone.StorageTables

namespace CtfZone.Storage

open Tables

/-- `ObjectStorageConfig`, and the `StorageConfig` of the controller. -/
structure Config where
  maxUploadBytes : ℤ
  maxPendingObjects : ℤ
  maxPendingBytes : ℤ
  maxRetainedBytes : ℤ
  maxUploadsPerHour : ℤ
  presignTtl : Time
  maxAttempts : ℕ
  maxUploadDuration : Time
  staleClaimAfter : Time
  maintenanceInterval : Time

/-- What the object store keeps under a key. -/
structure Body where
  length : ℤ
  contentType : String
  deriving DecidableEq

/-! ## Grants -/

/-- `AuthorizationPrincipal`. -/
inductive Principal
  | target
  | user (id : ℤ)
  | team (id : ℤ)
  deriving DecidableEq

/-- `AuthorizationPrincipal::scope`. -/
def Principal.scope : Principal → Scope
  | .target => .target
  | .user _ => .user
  | .team _ => .team

/-- The team of a principal. -/
def Principal.teamId : Principal → Option ℤ
  | .target | .user _ => none
  | .team id => some id

/-- The objects a quota counts for a principal. -/
def Principal.owns (principal : Principal) (o : StoredObject) : Bool :=
  match principal with
  | .target => false
  | .user id => o.scope = .user && o.ownerUserId = some id
  | .team id => o.scope = .team && o.ownerTeamId = some id

/-- `UploadRequest`, with the target it has been validated for, what the
transaction reads of the user, the id drawn for the object and the instant its
expiry is counted from. -/
structure UploadRequest where
  objectId : Uuid
  userId : ℤ
  isAdmin : Bool
  teamMode : Bool
  teamId : Option ℤ
  purpose : Purpose
  target : Target
  filename : String
  contentType : String
  checksum : String
  size : ℤ
  idempotencyKey : String
  requestedAt : Time

/-- `authorization_principal_in_transaction`. -/
def UploadRequest.principal (request : UploadRequest) : Except String Principal :=
  if request.purpose.isAsset then .ok .target
  else if request.teamMode then
    match request.teamId with
    | some teamId => .ok (.team teamId)
    | none =>
      if request.isAdmin then .ok (.user request.userId)
      else .error "Join a team before uploading challenge data"
  else .ok (.user request.userId)

/-- The largest category icon: 256 KiB. -/
def categoryIconMaxBytes : ℤ := 262144

/-- `validate_upload_policy`. -/
def validateUploadPolicy (config : Config) (purpose : Purpose) (contentType : String)
    (size : ℤ) : Except String Unit := do
  ensure (! (purpose = .categoryIcon &&
      (! ["image/png", "image/svg+xml"].contains contentType || size ≤ 0 ||
        categoryIconMaxBytes < size)))
    "Category icons must be PNG or SVG files between 1 byte and 256 KiB"
  ensure (! (size < 0 || config.maxUploadBytes < size)) "Object size is outside the upload limit"

/-- `i64::MAX`. -/
def i64Max : ℤ := 2 ^ 63 - 1

/-- `saturating_add`, of two values that are not negative. -/
def saturatingAdd (a b : ℤ) : ℤ := min (a + b) i64Max

/-- The objects of a principal. -/
def Database.ownedBy (db : Database) (principal : Principal) : List StoredObject :=
  db.objects.filter principal.owns

/-- The pending objects of a principal. -/
def pendingObjects (db : Database) (principal : Principal) : List StoredObject :=
  (db.ownedBy principal).filter (·.status = .pending)

/-- The bytes of the pending objects. -/
def pendingBytes (db : Database) (principal : Principal) : ℤ :=
  ((pendingObjects db principal).map StoredObject.expectedSize).sum

/-- The objects whose bytes are retained. -/
def isRetained (db : Database) (o : StoredObject) : Bool :=
  match o.status with
  | .pending | .ready | .deleting => true
  | .failed => db.operations.any fun op => op.objectId = o.id && op.isOpen
  | .deleted => false

/-- The bytes a principal retains. -/
def retainedBytes (db : Database) (principal : Principal) : ℤ :=
  (((db.ownedBy principal).filter (isRetained db)).map fun o =>
    o.actualSize.getD o.expectedSize).sum

/-- The uploads of the last hour. -/
def uploadsLastHour (db : Database) (now : Time) (principal : Principal) : ℕ :=
  (db.ownedBy principal).countP fun o => now - seconds 3600 ≤ o.createdAt

/-- `enforce_storage_quota`; a sum that is no `bigint` fails the query. -/
def enforceStorageQuota (config : Config) (db : Database) (now : Time) (principal : Principal)
    (requestedSize : ℤ) : Except String Unit :=
  if principal = .target then .ok ⟨⟩
  else do
    let pending := pendingBytes db principal
    let retained := retainedBytes db principal
    ensure (pending ≤ i64Max && retained ≤ i64Max) "bigint out of range"
    ensure (! (config.maxPendingObjects ≤ (pendingObjects db principal).length ||
        config.maxPendingBytes < saturatingAdd pending requestedSize ||
        config.maxRetainedBytes < saturatingAdd retained requestedSize))
      "Object storage quota exceeded"
    ensure (! (config.maxUploadsPerHour ≤ uploadsLastHour db now principal))
      "Object upload rate limit exceeded"

/-- `require_same_upload`. -/
def requireSameUpload (o : StoredObject) (request : UploadRequest) (principal : Principal) :
    Except String Unit :=
  ensure (o.purpose = request.purpose && o.scope = principal.scope &&
      o.ownerTeamId = principal.teamId && o.target = request.target &&
      o.filename = request.filename &&
      o.contentType = request.contentType && o.expectedSize = request.size &&
      o.checksum = request.checksum)
    "Idempotency-Key was already used for a different upload"

/-- The row of an upload. -/
def UploadRequest.row (request : UploadRequest) (config : Config) (principal : Principal)
    (now : Time) (expectedIcon : Option Uuid) : StoredObject where
  id := request.objectId
  purpose := request.purpose
  status := .pending
  scope := principal.scope
  ownerUserId := some request.userId
  ownerTeamId := principal.teamId
  idempotencyKey := request.idempotencyKey
  target := request.target
  filename := request.filename
  contentType := request.contentType
  checksum := request.checksum
  expectedSize := request.size
  actualSize := none
  expectedIcon
  uploadExpiresAt := request.requestedAt + config.presignTtl
  createdAt := now
  revision := 1

/-- The icon of a category as an upload for it has to find it. -/
def expectedIconObjectId (db : Database) (request : UploadRequest) :
    Except String (Option Uuid) :=
  if request.purpose = .categoryIcon then
    match request.target.categoryId.bind db.category with
    | some category => .ok category.iconObjectId
    | none => .error "Object target not found"
  else .ok none

/-- The shape `stored_objects_target_check` gives to the target of each purpose. -/
def Target.fits (target : Target) : Purpose → Bool
  | .categoryIcon => target.categoryId.isSome && target.challengeId.isNone &&
      target.pageId.isNone && target.solutionId.isNone
  | .pageAsset => target.pageId.isSome && target.categoryId.isNone &&
      target.challengeId.isNone && target.solutionId.isNone
  | .solutionAsset => target.challengeId.isSome && target.solutionId.isSome &&
      target.categoryId.isNone && target.pageId.isNone
  | .challengeAsset | .submission | .patch | .program => target.challengeId.isSome &&
      target.categoryId.isNone && target.pageId.isNone && target.solutionId.isNone

/-- The checks of `initiate_upload` before its transaction, and of the target. -/
def validateUpload (config : Config) (request : UploadRequest) : Except String Unit := do
  ensure (! request.purpose.isAsset || request.isAdmin) "Administrator access is required"
  validateUploadPolicy config request.purpose request.contentType request.size
  ensure (request.target.fits request.purpose) "Object target not found"

/-- The quota of a request: administrators have none. -/
def checkQuota (config : Config) (db : Database) (now : Time) (principal : Principal)
    (request : UploadRequest) : Except String Unit :=
  if request.isAdmin then .ok ⟨⟩ else enforceStorageQuota config db now principal request.size

/-- The insertions of `initiate_upload`. -/
def Database.insertUpload (db : Database) (row : StoredObject) : Database :=
  { db with objects := db.objects ++ [row] }.enqueueOperation row.id .reconcile 1
    row.uploadExpiresAt

/-- The transaction of `initiate_upload`. -/
def initiateUpload (config : Config) (db : Database) (now : Time) (request : UploadRequest) :
    Except String Database := do
  validateUpload config request
  let principal ← request.principal
  let expectedIcon ← expectedIconObjectId db request
  match db.objects.find? fun o =>
      o.ownerUserId = some request.userId && o.idempotencyKey = request.idempotencyKey with
  | some existing =>
    requireSameUpload existing request principal
    ensure (existing.status = .pending || existing.status = .ready)
      "The idempotent upload is no longer available"
    pure db
  | none =>
    checkQuota config db now principal request
    let row := request.row config principal now expectedIcon
    ensure (now < row.uploadExpiresAt && ! db.objects.any (·.id = row.id))
      "The upload could not be stored"
    pure (db.insertUpload row)

/-! ## Completion -/

/-- What the metadata of a body has to be. -/
def metadataMatches (o : StoredObject) (body : Body) : Bool :=
  body.length = o.expectedSize && body.contentType = o.contentType

/-- How far a request has come. -/
inductive Progress
  | ended
  | failing
  | continuing
  deriving DecidableEq

/-- The first part of `complete_upload`, without a transaction; `valid` is the
verdict on the contents of an icon. -/
def inspectUpload (now : Time) (o : StoredObject) (staged : Option Body) (valid : Bool) :
    Progress :=
  if o.status ≠ .pending then .ended
  else if o.uploadExpiresAt < now then .failing
  else
    match staged with
    | none => .ended
    | some body =>
      if ! metadataMatches o body then .failing
      else if o.purpose = .categoryIcon && ! valid then .failing
      else .continuing

/-- The icon of the category of an object. -/
def attachedIcon (db : Database) (categoryId : Option ℤ) : Option Uuid :=
  (categoryId.bind db.category).bind Category.iconObjectId

/-- The second part of `complete_upload`, up to the copy, on the locked row; `target`
says that the row the object belongs to, when it is no category, exists. -/
def beginComplete (db : Database) (now : Time) (loaded current : StoredObject) (target : Bool) :
    Progress :=
  let targetExists :=
    if loaded.purpose = .categoryIcon then (loaded.target.categoryId.bind db.category).isSome
    else target
  if ! targetExists then .failing
  else if current.status ≠ .pending then .ended
  else if current.uploadExpiresAt < now then .failing
  else if current.purpose = .categoryIcon then
    if current.target.categoryId.isNone then .ended
    else if attachedIcon db current.target.categoryId ≠ current.expectedIcon then .failing
    else .continuing
  else .continuing

/-- The third part of `complete_upload`: the copied body is looked at. -/
def checkPromoted (current : StoredObject) (promoted : Option Body) (valid : Bool) : Progress :=
  match promoted with
  | none => .ended
  | some body =>
    if ! metadataMatches current body then .failing
    else if current.purpose = .categoryIcon && ! valid then .failing
    else .continuing

/-- `validate_challenge_category_icon`, the trigger on the icon of a category. -/
def validateChallengeCategoryIcon (db : Database) (categoryId : ℤ) (objectId : Uuid) : Bool :=
  (db.object objectId).any fun o =>
    o.iconCategory = some categoryId && o.status = .ready

/-- `UPDATE challenge_categories SET icon_object_id=$2 WHERE id=$1`. -/
def Database.setIcon (db : Database) (categoryId : ℤ) (icon : Option Uuid) : Database :=
  { db with
    categories := update (·.id = categoryId) (fun c => { c with iconObjectId := icon })
      db.categories }

/-- The uploads that an attachment supersedes. -/
def isPendingIcon (categoryId : ℤ) (o : StoredObject) : Bool :=
  o.iconCategory = some categoryId && o.status = .pending

/-- The icon of a category is replaced by a ready object: the object it names is
retired, and so is every other pending upload for the category. -/
def Database.attachIcon (db : Database) (now : Time) (current : StoredObject)
    (categoryId : ℤ) : Option Database :=
  match db.category categoryId with
  | none => none
  | some category =>
    if category.iconObjectId ≠ current.expectedIcon then none
    else if ! validateChallengeCategoryIcon db categoryId current.id then none
    else
      some <| (db.setIcon categoryId (some current.id)).retireWhere now fun o =>
        current.expectedIcon = some o.id || (isPendingIcon categoryId o && o.id ≠ current.id)

/-- The last part of `complete_upload`, with the size of the promoted body. -/
def commitComplete (db : Database) (now : Time) (current : StoredObject) (size : ℤ) :
    Option Database := do
  let row ← db.object current.id
  if row.status ≠ .pending ∨ row.revision ≠ current.revision then none
  else
    let ready := db.updateObject current fun o =>
      { o.moved .ready with actualSize := some size }
    let attached ← match current.iconCategory with
      | some categoryId => ready.attachIcon now current categoryId
      | none => some ready
    some ((attached.cancelOpen now current.id (· = .reconcile)).enqueueOperation current.id
      .deleteUpload (current.revision + 1) (stagingCleanupAt current.uploadExpiresAt))

/-! ## The end of an object -/

/-- `fail_upload`. -/
def failUpload (db : Database) (now : Time) (current : StoredObject) : Database :=
  if current.status ≠ .pending then db
  else
    ((((db.updateObject current (·.moved .failed)).cancelOpen now current.id fun _ => true)
      ).enqueueOperation current.id .delete (current.revision + 1) now
      ).enqueueOperation current.id .deleteUpload (current.revision + 1)
        (stagingCleanupAt current.uploadExpiresAt)

/-- `schedule_delete`. -/
def scheduleDelete (db : Database) (now : Time) (current : StoredObject) : Option Database :=
  if current.purpose = .categoryIcon && attachedIcon db current.target.categoryId = some current.id
  then none
  else some (db.retire now current)

/-- `delete_category_icon`. -/
def deleteCategoryIcon (db : Database) (now : Time) (categoryId : ℤ) (objectId : Uuid) :
    Option Database :=
  if attachedIcon db (some categoryId) ≠ some objectId then none
  else
    some <| (db.setIcon categoryId none).retireWhere now fun o =>
      o.iconCategory = some categoryId && (o.id = objectId || o.status = .pending)

/-- A statement that sets the icon of a category, under the trigger. -/
def assignIcon (db : Database) (categoryId : ℤ) (objectId : Uuid) : Option Database :=
  if validateChallengeCategoryIcon db categoryId objectId then
    some (db.setIcon categoryId (some objectId))
  else none

end CtfZone.Storage
