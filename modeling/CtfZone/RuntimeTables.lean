/-
# The tables of the runtime control plane

The tables of `db/init/003-runtime-control-plane.sql`, with the columns the API
and the controller read or write, and the statements both sides share.

The columns of a runtime profile that only describe the container (image,
limits, health check) enter as the deployment that the helper's
`validate_deployment` makes of them.  The table of runtime hosts does not change
during a run.  The texts of `last_error`, `failure_message` and of the JSON
payloads of events, which no function reads back, are left out; an event keeps
the command its payload names.
-/
import CtfZone.HelperHost
import CtfZone.Tables

namespace CtfZone

/-- `users.id`. -/
abbrev UserId := ℤ

/-- `challenges.id`. -/
abbrev ChallengeId := ℤ

/-! ## Enumerations -/

/-- `runtime_instances.desired_state`. -/
inductive DesiredState
  | running | stopped
  deriving DecidableEq

/-- `runtime_instances.observed_state`. -/
inductive ObservedState
  | requested | starting | ready | stopping | cleanupPending
  | terminated | expired | failed | unknown
  deriving DecidableEq

/-- `runtime_instances.failure_code`. -/
inductive FailureCode
  | remoteWorkloadMissing | remoteWorkloadNotReady | runtimePolicyStale | commandFailed
  deriving DecidableEq

/-- `runtime_commands.kind`. -/
inductive CommandKind
  | start | terminate | extend | inspect | reconcile
  deriving DecidableEq

/-- `runtime_commands.status`. -/
inductive CommandStatus
  | pending | claimed | completed | failed | cancelled
  deriving DecidableEq

/-- `status IN ('pending','claimed')`. -/
def CommandStatus.isOpen : CommandStatus → Bool
  | .pending | .claimed => true
  | _ => false

/-- The `reason` of a terminate command. -/
inductive TerminationReason
  | userRequested | cleanupSafetyRetry | runtimePolicyDisabled | absoluteDeadlineReached
  | remoteWorkloadNotReady | startCommandFailed
  deriving DecidableEq

/-- `runtime_commands.payload`. -/
inductive CommandPayload
  | empty
  | termination (reason : TerminationReason) (deadline : Option Time)
  | extension (requestedExpiresAt : Time)
  deriving DecidableEq

/-- `payload.reason`. -/
def CommandPayload.reason : CommandPayload → Option TerminationReason
  | .termination reason _ => some reason
  | _ => none

/-- `runtime_instance_events.event_type`. -/
inductive EventType
  | requested | starting | ready | stopping | terminated | expired | failed | extended
  | reconciled | cleanupCompleted | terminationRequested | extensionRequested
  | reconciliationRequested | commandCancelled
  deriving DecidableEq

/-- `runtime_instance_events.source`. -/
inductive EventSource
  | api | controller
  deriving DecidableEq

/-! ## Rows -/

/-- The row `private_challenges` of `runtime_settings`. -/
structure RuntimeSetting where
  enabled : Bool
  revision : ℤ
  deriving DecidableEq

/-- A row of `challenge_runtime_configs`. -/
structure ChallengeRuntimeConfig where
  challengeId : ChallengeId
  managed : Bool
  enabled : Bool
  deployment : Option Deployment
  protocol : String
  defaultTtlSeconds : ℤ
  maximumTtlSeconds : ℤ
  allowExtension : Bool
  maximumExtensions : ℤ
  remotePool : Option String
  revision : ℤ
  deriving DecidableEq

/-- A row of `remote_servers`. -/
structure RemoteServer where
  id : Uuid
  pool : Option String
  capacity : ℕ
  enabled : Bool
  deriving DecidableEq

/-- `runtime_instances.deployment_snapshot`. -/
structure DeploymentSnapshot where
  deployment : Option Deployment
  flagValue : Option String
  remotePool : Option String
  deriving DecidableEq

/-- The columns in which `runtime_instances` keeps the endpoint. -/
structure Endpoint where
  remoteIp : Option String
  containerPort : Option ℕ
  publishedIp : Option String
  publishedPort : Option ℕ
  protocol : Option String
  publicHostname : Option String
  endpointUrl : Option String
  deriving DecidableEq

/-- A row of `runtime_instances`. -/
structure RuntimeInstance where
  id : Uuid
  ownerUserId : UserId
  challengeId : ChallengeId
  privateChallengesRevision : ℤ
  challengeRuntimeRevision : ℤ
  deploymentSnapshot : DeploymentSnapshot
  active : Bool
  desiredState : DesiredState
  observedState : ObservedState
  desiredExpiresAt : Time
  maximumExpiresAt : Time
  observedExpiresAt : Option Time
  expiresAt : Time
  remoteServerId : Option Uuid
  remoteContainerId : Option String
  endpoint : Endpoint
  generation : ℤ
  observedGeneration : ℤ
  extensionCount : ℤ
  createdAt : Time
  activatedAt : Option Time
  readyAt : Option Time
  lastObservedAt : Option Time
  stoppedAt : Option Time
  failureCode : Option FailureCode
  deriving DecidableEq

/-- A row of `runtime_commands`. -/
structure RuntimeCommand where
  id : Uuid
  instanceId : Uuid
  kind : CommandKind
  generation : ℤ
  settingRevision : ℤ
  challengeRuntimeRevision : ℤ
  payload : CommandPayload
  status : CommandStatus
  requestedByUserId : Option UserId
  idempotencyKey : Option String
  availableAt : Time
  createdAt : Time
  claimedAt : Option Time
  claimToken : Option Uuid
  completedAt : Option Time
  attempts : ℕ
  deriving DecidableEq

/-- A row of `runtime_instance_events`. -/
structure RuntimeEvent where
  instanceId : Uuid
  eventType : EventType
  source : EventSource
  actorUserId : Option UserId
  commandId : Option Uuid
  deriving DecidableEq

/-- The runtime tables. -/
structure Database where
  setting : RuntimeSetting
  configs : List ChallengeRuntimeConfig
  servers : List RemoteServer
  instances : List RuntimeInstance
  commands : List RuntimeCommand
  events : List RuntimeEvent

namespace Database

/-! ## Statements -/

/-- `SELECT … FROM runtime_instances WHERE id=$1`. -/
def findInstance (id : Uuid) (db : Database) : Option RuntimeInstance :=
  db.instances.find? (·.id = id)

/-- The profile of a challenge. -/
def findConfig (challenge : ChallengeId) (db : Database) : Option ChallengeRuntimeConfig :=
  db.configs.find? (·.challengeId = challenge)

/-- `UPDATE runtime_instances`. -/
def updateInstances (p : RuntimeInstance → Bool) (f : RuntimeInstance → RuntimeInstance)
    (db : Database) : Database :=
  { db with instances := Tables.update p f db.instances }

/-- `UPDATE runtime_commands`. -/
def updateCommands (p : RuntimeCommand → Bool) (f : RuntimeCommand → RuntimeCommand)
    (db : Database) : Database :=
  { db with commands := Tables.update p f db.commands }

/-- `append_event`. -/
def appendEvent (event : RuntimeEvent) (db : Database) : Database :=
  { db with events := db.events ++ [event] }

/-- An event of the controller that names a command. -/
def controllerEvent (instanceId : Uuid) (eventType : EventType) (commandId : Uuid)
    (db : Database) : Database :=
  db.appendEvent ⟨instanceId, eventType, .controller, none, some commandId⟩

/-- An event of the API. -/
def apiEvent (instanceId : Uuid) (eventType : EventType) (actor : UserId)
    (commandId : Option Uuid) (db : Database) : Database :=
  db.appendEvent ⟨instanceId, eventType, .api, some actor, commandId⟩

end Database

/-! ## Unique indexes -/

/-- The key of `runtime_instances_one_active_per_user`. -/
def RuntimeInstance.activeKey (i : RuntimeInstance) : Option UserId :=
  if i.active then some i.ownerUserId else none

/-- The key of `runtime_commands_idempotency`; a null column exempts the row. -/
def RuntimeCommand.idempotency (c : RuntimeCommand) : Option (UserId × String × CommandKind) :=
  match c.requestedByUserId, c.idempotencyKey with
  | some user, some key => some (user, key, c.kind)
  | _, _ => none

/-- The key of `runtime_commands_one_open_kind_generation`. -/
def RuntimeCommand.openKey (c : RuntimeCommand) : Option (Uuid × CommandKind × ℤ) :=
  if c.status.isOpen then some (c.instanceId, c.kind, c.generation) else none

/-- Two optional keys that a unique index does not let stand side by side. -/
def clash {κ : Type} [DecidableEq κ] (k k' : Option κ) : Bool :=
  k.isSome && k = k'

/-- A null key clashes with none. -/
theorem clash_none {κ : Type} [DecidableEq κ] (k : Option κ) : clash k none = false := by
  cases k <;> rfl

theorem clash_eq_false {κ : Type} [DecidableEq κ] {k k' : Option κ} (h : clash k k' = false) :
    ∀ x, k = some x → k' ≠ some x := by
  rintro x rfl rfl
  simp [clash] at h

namespace Database

/-- `INSERT INTO runtime_instances`; `none` when a unique index refuses. -/
def insertInstance (i : RuntimeInstance) (db : Database) : Option Database :=
  if db.instances.any fun j => clash j.activeKey i.activeKey then none
  else some { db with instances := db.instances ++ [i] }

/-- `INSERT INTO runtime_commands`; `none` when a unique index refuses. -/
def insertCommand (c : RuntimeCommand) (db : Database) : Option Database :=
  if db.commands.any fun d => clash d.idempotency c.idempotency || clash d.openKey c.openKey
  then none
  else some { db with commands := db.commands ++ [c] }

/-! ## What the statements leave alone -/

variable (db : Database) (event : RuntimeEvent) (p : RuntimeInstance → Bool)
  (f : RuntimeInstance → RuntimeInstance) (q : RuntimeCommand → Bool)
  (g : RuntimeCommand → RuntimeCommand)

@[simp] theorem appendEvent_instances : (db.appendEvent event).instances = db.instances := rfl

@[simp] theorem appendEvent_commands : (db.appendEvent event).commands = db.commands := rfl

@[simp] theorem controllerEvent_instances (u : Uuid) (e : EventType) (c : Uuid) :
    (db.controllerEvent u e c).instances = db.instances := rfl

@[simp] theorem controllerEvent_commands (u : Uuid) (e : EventType) (c : Uuid) :
    (db.controllerEvent u e c).commands = db.commands := rfl

@[simp] theorem apiEvent_instances (u : Uuid) (e : EventType) (a : UserId) (c : Option Uuid) :
    (db.apiEvent u e a c).instances = db.instances := rfl

@[simp] theorem apiEvent_commands (u : Uuid) (e : EventType) (a : UserId) (c : Option Uuid) :
    (db.apiEvent u e a c).commands = db.commands := rfl

@[simp] theorem updateInstances_instances :
    (db.updateInstances p f).instances = Tables.update p f db.instances := rfl

@[simp] theorem updateInstances_commands :
    (db.updateInstances p f).commands = db.commands := rfl

@[simp] theorem updateCommands_instances :
    (db.updateCommands q g).instances = db.instances := rfl

@[simp] theorem updateCommands_commands :
    (db.updateCommands q g).commands = Tables.update q g db.commands := rfl

end Database

/-- A row that was found is in the table and has the identifier. -/
theorem Database.findInstance_eq_some {id : Uuid} {db : Database} {i : RuntimeInstance}
    (h : db.findInstance id = some i) : i ∈ db.instances ∧ i.id = id :=
  ⟨List.mem_of_find?_eq_some h, by simpa using List.find?_some h⟩

/-- An inserted command stands behind the others and clashes with none. -/
theorem Database.insertCommand_eq_some {c : RuntimeCommand} {db db' : Database}
    (h : db.insertCommand c = some db') :
    db' = { db with commands := db.commands ++ [c] } ∧
      (∀ d ∈ db.commands, clash d.idempotency c.idempotency = false) ∧
      ∀ d ∈ db.commands, clash d.openKey c.openKey = false := by
  unfold Database.insertCommand at h
  split at h
  · cases h
  · rename_i hno
    cases h
    have hall : ∀ d ∈ db.commands,
        (clash d.idempotency c.idempotency || clash d.openKey c.openKey) = false := by
      simpa using hno
    refine ⟨rfl, fun d hd => ?_, fun d hd => ?_⟩
    · exact (Bool.or_eq_false_iff.mp (hall d hd)).1
    · exact (Bool.or_eq_false_iff.mp (hall d hd)).2

/-- An inserted instance stands behind the others and clashes with none. -/
theorem Database.insertInstance_eq_some {i : RuntimeInstance} {db db' : Database}
    (h : db.insertInstance i = some db') :
    db' = { db with instances := db.instances ++ [i] } ∧
      ∀ j ∈ db.instances, clash j.activeKey i.activeKey = false := by
  unfold Database.insertInstance at h
  split at h
  · cases h
  · rename_i hno
    cases h
    exact ⟨rfl, by simpa using hno⟩

end CtfZone
