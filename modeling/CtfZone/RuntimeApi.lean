/-
# The runtime requests of the API

The transactions of `services/api/src/routes/runtimes.rs` that write the runtime
tables.  Each function is one committed transaction: it returns the response and
the tables after it, which are the tables before it when the transaction is
rolled back.

A request that the portal's own checks refuse (session, verification,
competition time, team, access to the challenge) does not reach these tables.
Identifiers drawn by `gen_random_uuid()` and the reading of the clock are
arguments.
-/
import CtfZone.RuntimeTables

namespace CtfZone

/-! ## Requests and responses -/

/-- The HTTP response, with the message of an error. -/
inductive ApiResponse
  | ok | accepted
  | badRequest (message : String)
  | forbidden (message : String)
  | notFound (message : String)
  | conflict (message : String)
  | serverError
  deriving DecidableEq

/-- The caller of a request. -/
structure CurrentUser where
  id : UserId
  isAdmin : Bool
  deriving DecidableEq

/-- The body of a launch, with the idempotency key after its checks. -/
structure EnsureRequest where
  ttlSeconds : Option ℤ
  idempotencyKey : Option String
  deriving DecidableEq

/-- What the tables of challenges and flags contribute to a launch. -/
structure LaunchFacts where
  challengeVisible : Bool
  challengePrivate : Bool
  flagValue : Option String
  deriving DecidableEq

/-- The body of an extension, with the idempotency key after its checks. -/
structure ExtendRequest where
  additionalSeconds : Option ℤ
  idempotencyKey : Option String
  deriving DecidableEq

/-! ## Commands -/

/-- A pending command at the generation and the revisions of an instance. -/
def RuntimeInstance.command (i : RuntimeInstance) (id : Uuid) (kind : CommandKind)
    (payload : CommandPayload) (requestedBy : Option UserId) (idempotencyKey : Option String)
    (now : Time) : RuntimeCommand where
  id := id
  instanceId := i.id
  kind := kind
  generation := i.generation
  settingRevision := i.privateChallengesRevision
  challengeRuntimeRevision := i.challengeRuntimeRevision
  payload := payload
  status := .pending
  requestedByUserId := requestedBy
  idempotencyKey := idempotencyKey
  availableAt := now
  createdAt := now
  claimedAt := none
  claimToken := none
  completedAt := none
  attempts := 0

/-- `map_runtime_database_error` for a refused command. -/
def refusedCommand (c : RuntimeCommand) (db : Database) : ApiResponse :=
  if db.commands.any fun d => clash d.idempotency c.idempotency then
    .conflict "The runtime request conflicts with existing state"
  else .serverError

/-! ## Launch -/

/-- The row a launch inserts. -/
def newInstance (now : Time) (id : Uuid) (user : CurrentUser) (config : ChallengeRuntimeConfig)
    (setting : RuntimeSetting) (flagValue : Option String) (ttl : ℤ) : RuntimeInstance where
  id := id
  ownerUserId := user.id
  challengeId := config.challengeId
  privateChallengesRevision := setting.revision
  challengeRuntimeRevision := config.revision
  deploymentSnapshot := ⟨config.deployment, flagValue, config.remotePool⟩
  active := true
  desiredState := .running
  observedState := .requested
  desiredExpiresAt := now + seconds ttl
  maximumExpiresAt := now + seconds config.maximumTtlSeconds
  observedExpiresAt := none
  expiresAt := now + seconds ttl
  remoteServerId := none
  remoteContainerId := none
  endpoint := ⟨none, none, none, none, some config.protocol, none, none⟩
  generation := 1
  observedGeneration := 0
  extensionCount := 0
  createdAt := now
  activatedAt := none
  readyAt := none
  lastObservedAt := none
  stoppedAt := none
  failureCode := none

/-- The end of `ensure_instance`, once nothing speaks against a new instance. -/
def insertLaunch (now : Time) (commandId : Uuid) (user : CurrentUser) (i : RuntimeInstance)
    (idempotencyKey : Option String) (db : Database) : ApiResponse × Database :=
  let start := i.command commandId .start .empty (some user.id) idempotencyKey now
  match db.insertInstance i with
  | none => (.conflict "The runtime request conflicts with existing state", db)
  | some inserted =>
    match (inserted.apiEvent i.id .requested user.id none).insertCommand start with
    | none => (refusedCommand start db, db)
    | some db' => (.accepted, db')

/-- `ensure_instance`. -/
def ensureInstance (now : Time) (instanceId commandId : Uuid) (user : CurrentUser)
    (challengeId : ChallengeId) (facts : LaunchFacts) (request : EnsureRequest)
    (db : Database) : ApiResponse × Database :=
  match db.findConfig challengeId with
  | none => (.conflict "Managed runtime configuration is unavailable", db)
  | some gate =>
    let ttl := request.ttlSeconds.getD gate.defaultTtlSeconds
    if ! user.isAdmin && ! facts.challengeVisible then (.notFound "Challenge not found", db)
    else if ! facts.challengePrivate || ! db.setting.enabled || ! gate.enabled ||
        ! gate.managed then
      (.conflict "This challenge does not currently provide a managed instance", db)
    else if ttl < 60 ∨ gate.maximumTtlSeconds < ttl then
      (.badRequest "Requested lifetime is outside the challenge limits", db)
    else
      match db.instances.find? fun i => i.ownerUserId = user.id && i.active with
      | some existing =>
        if existing.challengeId = challengeId then (.ok, db)
        else (.conflict ("You already have an active instance for challenge " ++
          toString existing.challengeId), db)
      | none =>
        insertLaunch now commandId user
          (newInstance now instanceId user gate db.setting facts.flagValue ttl)
          request.idempotencyKey db

/-! ## Extension -/

/-- `COALESCE(r.allow_extension,false)`. -/
def Database.allowExtension (challengeId : ChallengeId) (db : Database) : Bool :=
  (db.findConfig challengeId).elim false (·.allowExtension)

/-- `COALESCE(r.maximum_extensions,0)`: the maximum in force. -/
def Database.maximumExtensions (challengeId : ChallengeId) (db : Database) : ℤ :=
  (db.findConfig challengeId).elim 0 (·.maximumExtensions)

/-- `COALESCE(r.default_ttl_seconds,900)`. -/
def Database.defaultTtlSeconds (challengeId : ChallengeId) (db : Database) : ℤ :=
  (db.findConfig challengeId).elim 900 (·.defaultTtlSeconds)

/-- The extend command that already carries the key of the caller. -/
def Database.findExtension (user : CurrentUser) (idempotencyKey : Option String)
    (db : Database) : Option RuntimeCommand :=
  idempotencyKey.bind fun key =>
    db.commands.find? fun c => c.idempotency = some (user.id, key, .extend)

/-- The instance after a granted extension to a deadline. -/
def RuntimeInstance.extended (newExpiresAt : Time) (i : RuntimeInstance) : RuntimeInstance :=
  { i with
    desiredExpiresAt := newExpiresAt
    generation := i.generation + 1
    extensionCount := i.extensionCount + 1 }

/-- The end of `extend_instance`: the deadline moves and the command is queued. -/
def grantExtension (now : Time) (commandId : Uuid) (user : CurrentUser) (i : RuntimeInstance)
    (newExpiresAt : Time) (idempotencyKey : Option String) (db : Database) :
    ApiResponse × Database :=
  let extend := (i.extended newExpiresAt).command commandId .extend (.extension newExpiresAt)
    (some user.id) idempotencyKey now
  match (db.updateInstances (·.id = i.id) (·.extended newExpiresAt)).insertCommand extend with
  | none => (refusedCommand extend db, db)
  | some db' =>
    (.accepted, db'.apiEvent i.id .extensionRequested user.id (some commandId))

/-- `extend_instance`. -/
def extendInstance (now : Time) (commandId : Uuid) (user : CurrentUser) (instanceId : Uuid)
    (request : ExtendRequest) (db : Database) : ApiResponse × Database :=
  match db.findInstance instanceId with
  | none => (.notFound "Instance not found", db)
  | some row =>
    let additional := request.additionalSeconds.getD (db.defaultTtlSeconds row.challengeId)
    let newExpiresAt := min (row.desiredExpiresAt + seconds additional) row.maximumExpiresAt
    if ! user.isAdmin && row.ownerUserId ≠ user.id then (.notFound "Instance not found", db)
    else
      match db.findExtension user request.idempotencyKey with
      | some existing =>
        if existing.instanceId ≠ instanceId then
          (.conflict "Idempotency key was already used for another instance", db)
        else (.ok, db)
      | none =>
        if ! row.active || row.desiredState ≠ .running || row.observedState ≠ .ready ||
            row.expiresAt ≤ now then
          (.conflict "This instance cannot be extended", db)
        else if ! db.allowExtension row.challengeId ||
            db.maximumExtensions row.challengeId ≤ row.extensionCount then
          (.forbidden "No instance extensions remain", db)
        else if additional < 60 ∨ 86400 < additional then
          (.badRequest "Extension must be between 60 seconds and 24 hours", db)
        else if newExpiresAt ≤ row.desiredExpiresAt then
          (.conflict "The instance has reached its maximum lifetime", db)
        else grantExtension now commandId user row newExpiresAt request.idempotencyKey db

/-! ## Termination and reconciliation -/

/-- The instance once its termination is requested. -/
def RuntimeInstance.stopping (i : RuntimeInstance) : RuntimeInstance :=
  { i with desiredState := .stopped, generation := i.generation + 1 }

/-- `request_termination`, whose callers all pass the reason `user_requested`. -/
def requestTermination (now : Time) (commandId : Uuid) (user : CurrentUser)
    (instanceId : Uuid) (db : Database) : ApiResponse × Database :=
  match db.findInstance instanceId with
  | none => (.notFound "Instance not found", db)
  | some i =>
    if ! user.isAdmin && i.ownerUserId ≠ user.id then (.notFound "Instance not found", db)
    else if ! i.active || i.desiredState = .stopped then (.ok, db)
    else
      let terminate := i.stopping.command commandId .terminate
        (.termination .userRequested none) (some user.id) none now
      match (db.updateInstances (·.id = i.id) (·.stopping)).insertCommand terminate with
      | none => (refusedCommand terminate db, db)
      | some db' =>
        (.accepted, db'.apiEvent i.id .terminationRequested user.id (some commandId))

/-- `reconcile_instance`. -/
def reconcileInstance (now : Time) (commandId : Uuid) (user : CurrentUser)
    (instanceId : Uuid) (db : Database) : ApiResponse × Database :=
  if ! user.isAdmin then (.forbidden "Administrator access is required", db)
  else
    match db.findInstance instanceId with
    | none => (.notFound "Instance not found", db)
    | some i =>
      if i.remoteServerId.isNone then (.conflict "Instance has no assigned remote server", db)
      else
        let reconcile := i.command commandId .reconcile .empty (some user.id) none now
        match db.insertCommand reconcile with
        | none => (.accepted, db)
        | some db' =>
          (.accepted, db'.apiEvent i.id .reconciliationRequested user.id (some commandId))

/-! ## Settings and profiles -/

/-- `update_private_challenges_setting`. -/
def updatePrivateChallengesSetting (user : CurrentUser) (enabled : Bool) (db : Database) :
    ApiResponse × Database :=
  if ! user.isAdmin then (.forbidden "Administrator access is required", db)
  else (.ok, { db with setting := ⟨enabled, db.setting.revision + 1⟩ })

/-- `validate_runtime_config`, for the columns that are modelled. -/
def ChallengeRuntimeConfig.valid (config : ChallengeRuntimeConfig) : Bool :=
  60 ≤ config.defaultTtlSeconds && config.defaultTtlSeconds ≤ 86400 &&
    config.defaultTtlSeconds ≤ config.maximumTtlSeconds &&
    config.maximumTtlSeconds ≤ 604800 && 0 ≤ config.maximumExtensions

/-- `put_challenge_runtime` with `upsert_runtime_config`: the revision of a
profile that exists is counted up. -/
def putChallengeRuntime (user : CurrentUser) (config : ChallengeRuntimeConfig)
    (db : Database) : ApiResponse × Database :=
  if ! user.isAdmin then (.forbidden "Administrator access is required", db)
  else if ! config.valid then (.badRequest "Invalid runtime resource or lifetime limit", db)
  else
    match db.findConfig config.challengeId with
    | none => (.ok, { db with configs := db.configs ++ [{ config with revision := 1 }] })
    | some _ =>
      let replace (old : ChallengeRuntimeConfig) := { config with revision := old.revision + 1 }
      (.ok, { db with
        configs := Tables.update (·.challengeId = config.challengeId) replace db.configs })

end CtfZone
