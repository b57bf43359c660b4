/-
# The transactions of the controller

The statements of `services/controller/src/worker.rs` that change the runtime
tables, under the source's names.  A function returns the tables after its
transaction; `none` stands for an `Err`, after which the transaction has been
rolled back.  The `bool` of the source says whether the transaction committed.

The updates of `runtime_instances` are gathered in `Projection`: one constructor
for each statement, with the part of its `WHERE` clause that goes beyond the
identifier and the generation, and its `SET` clause.
-/
import CtfZone.HelperOperations
import CtfZone.RuntimeApi

namespace CtfZone

/-! ## What the controller carries and receives -/

/-- `CommandRow`: a command as it was claimed. -/
structure CommandRow where
  id : Uuid
  claimToken : Uuid
  instanceId : Uuid
  kind : CommandKind
  generation : ℤ
  settingRevision : ℤ
  challengeRuntimeRevision : ℤ
  payload : CommandPayload
  attempts : ℕ
  deriving DecidableEq

/-- `InstanceRow`: an instance as it was loaded. -/
structure InstanceRow where
  id : Uuid
  ownerUserId : UserId
  challengeId : ChallengeId
  deploymentSnapshot : DeploymentSnapshot
  desiredState : DesiredState
  desiredExpiresAt : Time
  maximumExpiresAt : Time
  expiresAt : Time
  remoteServerId : Option Uuid
  remoteContainerId : Option String
  generation : ℤ
  active : Bool
  deriving DecidableEq

/-- The columns `load_instance` selects. -/
def RuntimeInstance.row (i : RuntimeInstance) : InstanceRow where
  id := i.id
  ownerUserId := i.ownerUserId
  challengeId := i.challengeId
  deploymentSnapshot := i.deploymentSnapshot
  desiredState := i.desiredState
  desiredExpiresAt := i.desiredExpiresAt
  maximumExpiresAt := i.maximumExpiresAt
  expiresAt := i.expiresAt
  remoteServerId := i.remoteServerId
  remoteContainerId := i.remoteContainerId
  generation := i.generation
  active := i.active

/-- A claimed command together with the instance loaded for it. -/
structure Job where
  command : CommandRow
  row : InstanceRow
  loaded : row.id = command.instanceId
  deriving DecidableEq

/-- `RemoteResult`: the reply of the helper as the controller parses it. -/
structure RemoteResult where
  containerId : Option String
  endpoint : Endpoint
  effectiveExpiresAt : Option Time
  absent : Option Bool
  ready : Option Bool
  staleGeneration : Option Bool
  effectiveGeneration : Option ℤ
  deriving DecidableEq

/-- The fields of a reply, with its deadline. -/
def Helper.Reply.result (reply : Helper.Reply) (effectiveExpiresAt : Option Time) :
    RemoteResult where
  containerId := reply.containerId
  endpoint := ⟨reply.remoteIp, reply.containerPort, reply.publishedIp, reply.publishedPort,
    reply.protocol, reply.publicHostname, reply.endpointUrl⟩
  effectiveExpiresAt := effectiveExpiresAt
  absent := reply.absent
  ready := reply.ready
  staleGeneration := reply.staleGeneration
  effectiveGeneration := reply.effectiveGeneration

/-- `serde_json::from_slice`: a deadline that is not an RFC 3339 text with a
timezone makes the whole reply invalid. -/
def Helper.Reply.parse (reply : Helper.Reply) : Option RemoteResult :=
  match reply.effectiveExpiresAt with
  | .missing => some (reply.result none)
  | .instant t => some (reply.result (some t))
  | _ => none

/-- The settings of the controller that its transactions read. -/
structure Config where
  maxCommandAttempts : ℕ
  staleClaimAfter : ℕ
  reconciliationInterval : ℕ

/-! ## The claim on a command -/

/-- `id=$1 AND status='claimed' AND claim_token=$2`. -/
def CommandRow.holds (command : CommandRow) (c : RuntimeCommand) : Bool :=
  c.id = command.id && c.status = .claimed && c.claimToken = some command.claimToken

/-- `lock_command_claim`. -/
def lockCommandClaim (command : CommandRow) (db : Database) : Bool :=
  db.commands.any command.holds

/-- A command in a terminal status. -/
def RuntimeCommand.close (status : CommandStatus) (now : Time) (c : RuntimeCommand) :
    RuntimeCommand :=
  { c with status := status, claimedAt := none, claimToken := none, completedAt := some now }

/-- A command that is pending again. -/
def RuntimeCommand.release (availableAt : Time) (c : RuntimeCommand) : RuntimeCommand :=
  { c with status := .pending, claimedAt := none, claimToken := none, availableAt := availableAt }

/-- A command that is claimed. -/
def RuntimeCommand.claim (now : Time) (token : Uuid) (c : RuntimeCommand) : RuntimeCommand :=
  { c with
    status := .claimed
    claimedAt := some now
    claimToken := some token
    attempts := c.attempts + 1 }

/-- The columns `claim_command` returns. -/
def RuntimeCommand.row (token : Uuid) (c : RuntimeCommand) : CommandRow where
  id := c.id
  claimToken := token
  instanceId := c.instanceId
  kind := c.kind
  generation := c.generation
  settingRevision := c.settingRevision
  challengeRuntimeRevision := c.challengeRuntimeRevision
  payload := c.payload
  attempts := c.attempts

/-- `UPDATE runtime_commands SET status='claimed' …`, for a pending row. -/
def Database.claimRow (now : Time) (token : Uuid) (c : RuntimeCommand) (db : Database) :
    Database :=
  db.updateCommands (fun d => d.id = c.id && d.status = .pending) (·.claim now token)

/-- `claim_command`.  Rows locked by another worker are skipped, so that any
available command may be the one that is claimed. -/
def claimCommand (now : Time) (token id : Uuid) (db : Database) :
    Option (CommandRow × Database) :=
  match db.commands.find? fun c => c.id = id && c.status = .pending && c.availableAt ≤ now with
  | none => none
  | some c => some ((c.claim now token).row token, db.claimRow now token c)

/-- `recover_stale_claims`. -/
def recoverStaleClaims (config : Config) (now : Time) (db : Database) : Database :=
  db.updateCommands
    (fun c => c.status = .claimed && c.claimedAt.any (· < now - seconds config.staleClaimAfter))
    (·.release now)

/-- `recover_all_claims_on_startup`. -/
def recoverAllClaims (now : Time) (db : Database) : Database :=
  db.updateCommands (·.status = .claimed) (·.release now)

/-- `mark_command_completed` and `mark_command_cancelled`. -/
def markCommand (status : CommandStatus) (now : Time) (command : CommandRow) (db : Database) :
    Option Database :=
  if db.commands.countP command.holds = 1 then
    some (db.updateCommands command.holds (·.close status now))
  else none

/-- `cancel_command` and `complete_command`. -/
def closeCommand (status : CommandStatus) (now : Time) (command : CommandRow) (db : Database) :
    Database :=
  db.updateCommands command.holds (·.close status now)

/-! ## The updates of an instance -/

/-- The statements `UPDATE runtime_instances … WHERE id AND generation …`. -/
inductive Projection
  /-- `mark_starting`, `select_and_mark_starting` -/
  | starting (server : Uuid)
  /-- `finish_start` -/
  | started (server : Uuid) (effective : Time) (result : RemoteResult)
  /-- `mark_stopping` -/
  | stopping
  /-- `finish_termination` -/
  | terminated (expired : Bool)
  /-- `finish_extension` -/
  | extended (effective : Time)
  /-- `finish_inspection` of an absent workload -/
  | missing (expired : Bool)
  /-- `finish_inspection` of a workload that is not ready -/
  | notReady
  /-- `finish_inspection` of a ready workload -/
  | reconciled
  /-- `reject_start` -/
  | rejected
  /-- `expire_unstarted_instance` -/
  | expiredUnstarted
  /-- `schedule_retry` after the last attempt -/
  | commandFailed (state : ObservedState)
  deriving DecidableEq

/-- The `WHERE` clause beyond the identifier and the generation. -/
def Projection.admits : Projection → RuntimeInstance → Bool
  | .starting _, i => i.active && i.desiredState = .running
  | .started .., _ => true
  | .rejected, i => i.observedState = .requested && i.active
  | .expiredUnstarted, i => i.observedState = .requested && i.active
  | _, i => i.active

/-- The `SET` clause. -/
def Projection.set (now : Time) (generation : ℤ) (i : RuntimeInstance) :
    Projection → RuntimeInstance
  | .starting server =>
    { i with
      observedState := .starting
      remoteServerId := some server
      activatedAt := some (i.activatedAt.getD now)
      lastObservedAt := some now
      failureCode := none }
  | .started server effective result =>
    { i with
      observedState := .ready
      observedGeneration := generation
      observedExpiresAt := some effective
      expiresAt := effective
      remoteServerId := some server
      remoteContainerId := result.containerId
      endpoint := { result.endpoint with
        protocol := result.endpoint.protocol <|> i.endpoint.protocol }
      readyAt := some (i.readyAt.getD now)
      lastObservedAt := some now
      failureCode := none }
  | .stopping => { i with observedState := .stopping, lastObservedAt := some now }
  | .terminated expired =>
    { i with
      active := false
      desiredState := .stopped
      observedState := if expired then .expired else .terminated
      observedGeneration := generation
      lastObservedAt := some now
      stoppedAt := some now
      failureCode := none }
  | .extended effective =>
    { i with
      observedExpiresAt := some effective
      expiresAt := effective
      observedGeneration := generation
      lastObservedAt := some now
      failureCode := none }
  | .missing expired =>
    { i with
      active := false
      observedState := if expired then .expired else .failed
      stoppedAt := some now
      lastObservedAt := some now
      failureCode := if expired then none else some .remoteWorkloadMissing }
  | .notReady =>
    { i with
      observedState := .cleanupPending
      failureCode := some .remoteWorkloadNotReady
      lastObservedAt := some now }
  | .reconciled =>
    { i with observedState := .ready, lastObservedAt := some now, observedGeneration := generation }
  | .rejected =>
    { i with
      active := false
      desiredState := .stopped
      observedState := .failed
      stoppedAt := some now
      lastObservedAt := some now
      failureCode := some .runtimePolicyStale }
  | .expiredUnstarted =>
    { i with
      active := false
      desiredState := .stopped
      observedState := .expired
      observedGeneration := generation
      stoppedAt := some now
      lastObservedAt := some now
      failureCode := none }
  | .commandFailed state =>
    { i with
      observedState := state
      failureCode := some .commandFailed
      lastObservedAt := some now }

/-- The rows a projection at a generation updates. -/
def Projection.hits (p : Projection) (id : Uuid) (generation : ℤ) (i : RuntimeInstance) : Bool :=
  i.id = id && i.generation = generation && p.admits i

/-- Execute a projection. -/
def Database.project (now : Time) (id : Uuid) (generation : ℤ) (p : Projection)
    (db : Database) : Database :=
  db.updateInstances (p.hits id generation) (p.set now generation ·)

/-! ## Termination commands and inspections -/

/-- `create_termination_command_in_transaction`. -/
def createTermination (now : Time) (commandId instanceId : Uuid) (reason : TerminationReason)
    (db : Database) : Database :=
  match db.findInstance instanceId with
  | none => db
  | some i =>
    let alreadyQueued := db.commands.any fun c =>
      c.instanceId = instanceId && c.kind = .terminate && c.status.isOpen
    if ! i.active || alreadyQueued then db
    else
      let terminate := i.stopping.command commandId .terminate
        (.termination reason (some i.expiresAt)) none none now
      let stopped := db.updateInstances (·.id = instanceId) (·.stopping)
      -- on a conflict the generation stays counted up
      match stopped.insertCommand terminate with
      | none => stopped
      | some db' => db'.controllerEvent instanceId .terminationRequested commandId

/-- An instance that `enqueue_active_inspections` selects. -/
def dueForInspection (now : Time) (minimumAge : Option ℕ) (db : Database)
    (i : RuntimeInstance) : Bool :=
  i.active && i.desiredState = .running && now < i.expiresAt && i.remoteServerId.isSome &&
    (i.observedState = .ready || i.observedState = .starting || i.observedState = .unknown) &&
    (match minimumAge with
      | none => true
      | some age => i.lastObservedAt.getD i.createdAt ≤ now - seconds age) &&
    ! db.commands.any fun c => c.instanceId = i.id && c.status.isOpen

/-- `enqueue_active_inspections`, for one of the instances it selects. -/
def enqueueInspection (now : Time) (minimumAge : Option ℕ) (commandId instanceId : Uuid)
    (db : Database) : Database :=
  match db.findInstance instanceId with
  | none => db
  | some i =>
    if dueForInspection now minimumAge db i then
      (db.insertCommand (i.command commandId .inspect .empty none none now)).getD db
    else db

/-! ## Transactions of a command -/

/-- The body of the transactions that project the outcome of a command: nothing
happens when no row is hit, else the transaction goes on with `rest`. -/
def projectOrSkip (now : Time) (job : Job) (p : Projection) (rest : Database → Option Database)
    (db : Database) : Option (Bool × Database) :=
  if db.instances.any (p.hits job.row.id job.command.generation) then
    (rest (db.project now job.row.id job.command.generation p)).map (true, ·)
  else some (false, db)

/-- The same under the claim on the command; a lost claim is a `false`. -/
def projectUnderClaim (now : Time) (job : Job) (p : Projection)
    (rest : Database → Option Database) (db : Database) : Option (Bool × Database) :=
  if lockCommandClaim job.command db then projectOrSkip now job p rest db
  else some (false, db)

/-- Append an event of the command. -/
def Job.event (job : Job) (e : EventType) (db : Database) : Database :=
  db.controllerEvent job.row.id e job.command.id

/-- Append an event and complete the command. -/
def Job.complete (job : Job) (now : Time) (e : EventType) (db : Database) : Option Database :=
  markCommand .completed now job.command (job.event e db)

/-- `mark_starting`. -/
def markStarting (now : Time) (job : Job) (server : Uuid) :
    Database → Option (Bool × Database) :=
  projectUnderClaim now job (.starting server) fun db => some (job.event .starting db)

/-- A server `select_remote_server_locked` may return: the order of preference
does not bind, since locked rows are skipped. -/
def selectable (snapshot : DeploymentSnapshot) (db : Database) (server : RemoteServer) : Bool :=
  server.enabled && (snapshot.remotePool.isNone || server.pool = snapshot.remotePool) &&
    db.instances.countP (fun i => i.remoteServerId = some server.id && i.active) <
      server.capacity

/-- `select_and_mark_starting`, where `choice` is the server the selection
returns. -/
def selectAndMarkStarting (now : Time) (job : Job) (choice : Option Uuid) (db : Database) :
    Option (Option Uuid × Database) :=
  if lockCommandClaim job.command db then
    match db.servers.find? fun server =>
        choice = some server.id && selectable job.row.deploymentSnapshot db server with
    | none => none
    | some server =>
      (projectOrSkip now job (.starting server.id) (fun db => some (job.event .starting db)) db).map
        fun r => (if r.1 then some server.id else none, r.2)
  else some (none, db)

/-- `finish_start`; here a lost claim is an error. -/
def finishStart (now : Time) (job : Job) (server : Uuid) (result : RemoteResult)
    (db : Database) : Option (Bool × Database) :=
  let effective := result.effectiveExpiresAt.getD job.row.desiredExpiresAt
  if job.row.maximumExpiresAt < effective then none
  else if lockCommandClaim job.command db then
    projectOrSkip now job (.started server effective result) (job.complete now .ready) db
  else none

/-- `mark_stopping`. -/
def markStopping (now : Time) (job : Job) : Database → Option (Bool × Database) :=
  projectUnderClaim now job .stopping fun db => some (job.event .stopping db)

/-- `finish_termination`. -/
def finishTermination (now : Time) (job : Job) : Database → Option (Bool × Database) :=
  let expired := job.row.expiresAt ≤ now ||
    job.command.payload.reason = some .absoluteDeadlineReached
  projectUnderClaim now job (.terminated expired) fun db =>
    job.complete now .cleanupCompleted
      (job.event (if expired then .expired else .terminated) db)

/-- `finish_extension`. -/
def finishExtension (now : Time) (job : Job) (result : RemoteResult) (db : Database) :
    Option (Bool × Database) :=
  let effective := result.effectiveExpiresAt.getD job.row.desiredExpiresAt
  if job.row.maximumExpiresAt < effective ∨ effective ≤ now then none
  else projectUnderClaim now job (.extended effective) (job.complete now .extended) db

/-- `finish_inspection`. -/
def finishInspection (now : Time) (cleanupId : Uuid) (job : Job) (result : RemoteResult) :
    Database → Option (Bool × Database) :=
  if result.absent.getD false then
    let expired := job.row.expiresAt ≤ now || job.row.desiredState = .stopped
    projectUnderClaim now job (.missing expired)
      (job.complete now (if expired then .expired else .failed))
  else if result.ready ≠ some true then
    projectUnderClaim now job .notReady fun db =>
      markCommand .completed now job.command
        (createTermination now cleanupId job.row.id .remoteWorkloadNotReady
          (job.event .failed db))
  else projectUnderClaim now job .reconciled (job.complete now .reconciled)

/-- The common body of `reject_start` and `expire_unstarted_instance`: the
command is cancelled whether or not a row is hit. -/
def abandonStart (now : Time) (job : Job) (p : Projection) (e : EventType) (db : Database) :
    Option Database :=
  if lockCommandClaim job.command db then
    markCommand .cancelled now job.command
      (if db.instances.any (p.hits job.row.id job.command.generation) then
        job.event e (db.project now job.row.id job.command.generation p)
      else db)
  else some db

/-- `reject_start`. -/
def rejectStart (now : Time) (job : Job) : Database → Option Database :=
  abandonStart now job .rejected .failed

/-- `expire_unstarted_instance`. -/
def expireUnstartedInstance (now : Time) (job : Job) : Database → Option Database :=
  abandonStart now job .expiredUnstarted .expired

/-- `cancel_stale_command`. -/
def cancelStaleCommand (now : Time) (job : Job) (db : Database) : Option Database :=
  if lockCommandClaim job.command db then
    (markCommand .cancelled now job.command db).map (job.event .commandCancelled)
  else some db

/-- `retry_backoff_seconds`. -/
def retryBackoffSeconds (attempts : ℕ) : ℤ := min (5 * 2 ^ min (max attempts 1) 6) 300

/-- The observed state after the last attempt of a command. -/
def failedState : CommandKind → ObservedState
  | .extend => .ready
  | .inspect | .reconcile => .unknown
  | _ => .cleanupPending

/-- `schedule_retry`. -/
def scheduleRetry (config : Config) (now : Time) (cleanupId : Uuid) (command : CommandRow)
    (db : Database) : Database :=
  if config.maxCommandAttempts ≤ command.attempts then
    if lockCommandClaim command db then
      let failed := db.updateCommands command.holds (·.close .failed now)
      let p := Projection.commandFailed (failedState command.kind)
      if failed.instances.any (p.hits command.instanceId command.generation) then
        let projected := (failed.project now command.instanceId command.generation p)
          |>.controllerEvent command.instanceId .failed command.id
        if command.kind = .start then
          createTermination now cleanupId command.instanceId .startCommandFailed projected
        else projected
      else failed
    else db
  else
    db.updateCommands command.holds
      (·.release (now + seconds (retryBackoffSeconds command.attempts)))

end CtfZone
