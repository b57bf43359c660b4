/-
# What the controller writes and sends

The journal records and the helper requests of `execute_command`, of
`cleanup_overdue_without_database` and of `reconcile_database_acknowledgements`,
with their JSON payloads.  The rows a command loads are arguments; every other
answer of the outside world (PostgreSQL, the helper, the clock, the journal
file) is in `Answers`, where `none` is an error or the death of the process:
either ends the command, and `schedule_retry` writes no journal.

A `Ledger` keeps the journal, every byte string written to it or to the
temporary file of a compaction, and the requests sent.
-/
import CtfZone.DegradedCleanup
import CtfZone.TwinRuns

open Effects Effects.Prog

namespace CtfZone

open Journal

/-! ## JSON values -/

/-- The value of a field of an object. -/
def Json.field (name : String) : Json → Option Json
  | .object fields => (fields.find? (·.1 = name)).map Prod.snd
  | _ => none

/-- `as_object_mut` and `remove`: a value that is not an object stays. -/
def Json.removeField (name : String) : Json → Json
  | .object fields => .object (fields.filter (·.1 ≠ name))
  | value => value

/-- A removed field is not there. -/
theorem Json.field_removeField (name : String) (value : Json) :
    (value.removeField name).field name = none := by
  cases value with
  | object fields => simp [Json.removeField, Json.field]
  | null | bool | number | string | array => rfl

/-- `as_u64`. -/
def Json.asU64 : Json → Option ℕ
  | .number text => text.toNat?.filter (· < 2 ^ 64)
  | _ => none

namespace Controller

/-! ## The rows of a command -/

/-- `CommandRow`. -/
structure CommandRow where
  id : Uuid
  instanceId : Uuid
  kind : String
  generation : ℤ
  settingRevision : ℤ
  challengeRuntimeRevision : ℤ
  payload : Json

/-- `InstanceRow`. -/
structure InstanceRow where
  id : Uuid
  ownerUserId : ℤ
  challengeId : ℤ
  deploymentSnapshot : Json
  desiredState : String
  desiredExpiresAt : Time
  maximumExpiresAt : Time
  expiresAt : Time
  remoteServerId : Option Uuid
  remoteContainerId : Option String
  generation : ℤ
  active : Bool

/-- `RuntimeGate`. -/
structure RuntimeGate where
  settingEnabled : Bool
  settingRevision : ℤ
  runtimeEnabled : Bool
  runtimeRevision : ℤ

/-- `remote_payload`; identifiers and instants are written as numbers. -/
def remotePayload (command : CommandRow) (instance' : InstanceRow) (operation : RemoteOperation)
    (reason : String) : Json :=
  let deployment :=
    if operation = .ensureInstance then instance'.deploymentSnapshot
    else instance'.deploymentSnapshot.removeField "flag_value"
  .object [
    ("instance_id", .string (toString instance'.id)),
    ("owner_user_id", .number (toString instance'.ownerUserId)),
    ("challenge_id", .number (toString instance'.challengeId)),
    ("generation", .number (toString command.generation)),
    ("expires_at", .string (toString instance'.desiredExpiresAt)),
    ("maximum_expires_at", .string (toString instance'.maximumExpiresAt)),
    ("deployment", deployment),
    ("reason", .string reason),
    ("command_payload", command.payload),
    ("remote_container_id", (instance'.remoteContainerId.map Json.string).getD .null)]

theorem remotePayload_deployment (command : CommandRow) (row : InstanceRow) (reason : String) :
    (remotePayload command row .ensureInstance reason).field "deployment" =
      some row.deploymentSnapshot := by
  simp [remotePayload, Json.field]

theorem remotePayload_removed (command : CommandRow) (row : InstanceRow) (reason : String)
    {operation : RemoteOperation} (h : operation ≠ .ensureInstance) :
    (remotePayload command row operation reason).field "deployment" =
      some (row.deploymentSnapshot.removeField "flag_value") := by
  simp [remotePayload, Json.field, h]

/-! ## Checks of a request -/

/-- `MAX_FLAG_VALUE_BYTES`. -/
def maxFlagValueBytes : ℕ := 512

/-- `validate_flag_value`. -/
def validateFlagValue (operation : RemoteOperation) (payload : Json) : Bool :=
  match operation, (payload.field "deployment").bind (·.field "flag_value") with
  | _, none => true
  | .ensureInstance, some .null => true
  | .ensureInstance, some (.string value) =>
    value ≠ "" && value.utf8ByteSize ≤ maxFlagValueBytes && ! value.toList.contains '\x00'
  | _, some _ => false

/-- `validate_startup_timeout`, in whole seconds. -/
def validateStartupTimeout (operation : RemoteOperation) (payload : Json)
    (operationTimeout : ℕ) : Bool :=
  if operation ≠ .ensureInstance then true
  else
    let startupSeconds := ((((payload.field "deployment").bind (·.field "healthcheck")).bind
      (·.field "startup_timeout_seconds")).bind Json.asU64).getD 45
    min (startupSeconds + 5) (2 ^ 64 - 1) ≤ operationTimeout

/-! ## The ledger -/

/-- The journal, what has been written to it, and the requests sent. -/
structure Ledger where
  journal : Disk
  written : List ByteArray
  sent : List (RemoteOperation × Json)

/-- What an append writes: the line, and the file of a compaction. -/
def writes (codec : Codec) (s : Disk) (record : JournalRecord) : AppendOutcome → List ByteArray
  | .refused => []
  | .torn k => [(codec.lineBytes record).extract 0 k]
  | .returned sized _ =>
    let file := s.bytes ++ codec.lineBytes record
    let thresholdReached := sized && compactionThresholdBytes ≤ file.size
    codec.lineBytes record ::
      if record.immediate || thresholdReached then
        ((currentUnacknowledged codec (some file)).map (compacted codec)).toList
      else []

/-- `append`. -/
def Ledger.append (codec : Codec) (record : JournalRecord) (outcome : AppendOutcome)
    (l : Ledger) : Ledger :=
  { l with
    journal := l.journal.step codec (.append record outcome)
    written := l.written ++ writes codec l.journal record outcome }

/-- Everything the outside world decides while a command is executed or a
record is visited. -/
structure Answers where
  now : Time
  /-- whether and at which revision the policy lets a start through -/
  gate : Option RuntimeGate
  /-- `load_remote_server` -/
  server : Option Journal.RemoteServer
  /-- `select_and_mark_starting` -/
  placed : Option (Option Journal.RemoteServer)
  /-- `mark_starting`, `mark_stopping` -/
  marked : Option Bool
  /-- the projection of the result -/
  finished : Option Bool
  /-- the transaction that ends the command otherwise -/
  closed : Option PUnit
  /-- the query of a reconciliation -/
  databaseFinished : Option Bool
  /-- the server is valid and the SSH client starts -/
  starts : RemoteOperation → Bool
  operationTimeout : ℕ
  reply : RemoteOperation → Option Journal.RemoteResult
  updatedAt : JournalPhase → RemoteOperation → Time
  outcome : JournalPhase → RemoteOperation → AppendOutcome

/-- A program of the controller. -/
abbrev Control := Prog Answers PUnit Ledger

/-- Take an answer of the world; an error ends the program. -/
def ask {α : Type} (f : Answers → Option α) : Control α := fun a l =>
  match f a with
  | some x => (.done x, l)
  | none => (.raised ⟨⟩, l)

/-- Append a record with its time stamp; an error ends the program. -/
def record (codec : Codec) (operation : RemoteOperation) (phase : JournalPhase)
    (entry : Time → JournalRecord) : Control PUnit := fun a l =>
  let outcome := a.outcome phase operation
  let l' := l.append codec (entry (a.updatedAt phase operation)) outcome
  if outcome.isOk then (.done ⟨⟩, l') else (.raised ⟨⟩, l')

/-- `RemoteExecutor::execute` with the SSH driver. -/
def execute (operation : RemoteOperation) (payload : Json) :
    Control (Option Journal.RemoteResult) := fun a l =>
  if validateFlagValue operation payload && a.starts operation &&
      validateStartupTimeout operation payload a.operationTimeout then
    (.done (a.reply operation), { l with sent := l.sent ++ [(operation, payload)] })
  else (.done none, l)

/-- `execute(…).await?`. -/
def call (operation : RemoteOperation) (payload : Json) : Control Journal.RemoteResult := do
  match ← execute operation payload with
  | some result => pure result
  | none => raise ⟨⟩

/-! ## The records of a command -/

/-- A `JournalIntent` under way: the rows, the operation, the server and the
payload. -/
structure Intent where
  command : CommandRow
  row : InstanceRow
  operation : RemoteOperation
  server : Journal.RemoteServer
  payload : Json

/-- `intent`. -/
def Intent.opened (i : Intent) (updatedAt : Time) : JournalRecord where
  instanceId := i.row.id
  commandId := i.command.id
  generation := i.command.generation
  settingRevision := i.command.settingRevision
  challengeRuntimeRevision := i.command.challengeRuntimeRevision
  operation := i.operation
  phase := .intent
  remoteServer := some i.server
  effectiveExpiresAt := i.row.desiredExpiresAt
  remoteResult := none
  payload := some (redactPayload i.payload)
  updatedAt := updatedAt

/-- `remote_result`. -/
def Intent.answered (i : Intent) (result : Journal.RemoteResult) (updatedAt : Time) :
    JournalRecord :=
  { i.opened updatedAt with
    phase := .remoteResult
    effectiveExpiresAt := result.effectiveExpiresAt.getD i.row.desiredExpiresAt
    remoteResult := some result }

/-- `acknowledged`. -/
def Intent.acknowledged (i : Intent) (updatedAt : Time) : JournalRecord :=
  { i.opened updatedAt with
    phase := .databaseAcknowledged
    payload := none }

/-! ## The commands -/

variable (codec : Codec)

/-- The journalled call of the helper that every command makes: the intent is
written first, and the reply is journalled once `accept` has passed it. -/
def callJournalled (i : Intent) (accept : Journal.RemoteResult → Bool) :
    Control Journal.RemoteResult := do
  record codec i.operation .intent i.opened
  let result ← call i.operation i.payload
  if accept result then
    record codec i.operation .remoteResult (i.answered result)
    pure result
  else raise ⟨⟩

/-- `require_remote_generation`. -/
def requireRemoteGeneration (result : Journal.RemoteResult) (generation : ℤ) : Bool :=
  ! (result.staleGeneration = some true || result.effectiveGeneration ≠ some generation)

/-- `require_remote_removal`. -/
def requireRemoteRemoval (result : Journal.RemoteResult) : Bool :=
  result.staleGeneration ≠ some true && result.absent = some true

/-- The end of a command without a call of the helper. -/
def close : Control PUnit := ask (·.closed)

/-- The helper removes a workload whose start came too late. -/
def cleanUpStart (command : CommandRow) (row : InstanceRow) (server : Journal.RemoteServer) :
    Control PUnit := do
  let cleanup : Intent := ⟨command, row, .stopInstance, server,
    remotePayload command row .stopInstance "generation_changed_after_start"⟩
  let result ← callJournalled codec cleanup fun _ => true
  if requireRemoteRemoval result then
    close
    record codec .stopInstance .databaseAcknowledged cleanup.acknowledged
  else raise ⟨⟩

/-- `execute_start` from the placement on. -/
def startPlaced (command : CommandRow) (row : InstanceRow) (server : Journal.RemoteServer) :
    Control PUnit := do
  let start : Intent := ⟨command, row, .ensureInstance, server,
    remotePayload command row .ensureInstance "start"⟩
  let _ ← callJournalled codec start fun result =>
    requireRemoteGeneration result command.generation && result.absent ≠ some true &&
      result.containerId.isSome && result.ready = some true
  let committed ← ask (·.finished)
  if committed then pure ⟨⟩ else cleanUpStart codec command row server
  record codec .ensureInstance .databaseAcknowledged start.acknowledged

/-- The server a start runs on, and whether the instance is marked as
starting. -/
def placement (row : InstanceRow) : Control (Option (Journal.RemoteServer × Bool)) := do
  if row.remoteServerId.isSome then
    let server ← ask (·.server)
    let marked ← ask (·.marked)
    pure (some (server, marked))
  else
    let placed ← ask (·.placed)
    pure (placed.map (·, true))

/-- `execute_start`. -/
def executeStart (command : CommandRow) (row : InstanceRow) : Control PUnit := do
  if ! row.active || row.desiredState ≠ "running" then close
  else
    let now ← read (·.now)
    if row.desiredExpiresAt ≤ now then close
    else
      let gate ← ask (·.gate)
      if ! gate.settingEnabled || ! gate.runtimeEnabled ||
          command.settingRevision ≠ gate.settingRevision ||
          command.challengeRuntimeRevision ≠ gate.runtimeRevision then close
      else
        match ← placement row with
        | some (server, true) => startPlaced codec command row server
        | _ => close

/-- A command that makes one call and projects its result. -/
def executeCall (i : Intent) (accept require : Journal.RemoteResult → Bool) : Control PUnit := do
  let result ← callJournalled codec i accept
  if require result then
    let committed ← ask (·.finished)
    if committed then pure ⟨⟩ else close
    record codec i.operation .databaseAcknowledged i.acknowledged
  else raise ⟨⟩

/-- The server the instance is placed on, if any. -/
def homeServer (row : InstanceRow) : Control (Option Journal.RemoteServer) := do
  if row.remoteServerId.isSome then
    let server ← ask (·.server)
    pure (some server)
  else pure none

/-- `execute_terminate` once the instance is marked as stopping. -/
def terminateMarked (command : CommandRow) (row : InstanceRow) :
    Option Journal.RemoteServer → Control PUnit
  | some server =>
    executeCall codec ⟨command, row, .stopInstance, server,
      remotePayload command row .stopInstance "terminate"⟩ (fun _ => true) requireRemoteRemoval
  | none => do
    let committed ← ask (·.finished)
    if committed then pure ⟨⟩ else close

/-- `execute_terminate`. -/
def executeTerminate (command : CommandRow) (row : InstanceRow) : Control PUnit := do
  if ! row.active then close
  else
    let server ← homeServer row
    let marked ← ask (·.marked)
    if ! marked then close else terminateMarked codec command row server

/-- `execute_extend`. -/
def executeExtend (command : CommandRow) (row : InstanceRow) : Control PUnit := do
  let now ← read (·.now)
  if ! row.active || row.desiredState ≠ "running" || row.expiresAt ≤ now then close
  else if row.remoteServerId.isNone then raise ⟨⟩
  else
    let server ← ask (·.server)
    executeCall codec ⟨command, row, .updateDeadline, server,
      remotePayload command row .updateDeadline "extend"⟩ (fun _ => true)
      fun result => result.staleGeneration ≠ some true &&
        requireRemoteGeneration result command.generation

/-- `execute_inspect`. -/
def executeInspect (command : CommandRow) (row : InstanceRow) : Control PUnit := do
  if row.remoteServerId.isNone then close
  else
    let server ← ask (·.server)
    executeCall codec ⟨command, row, .inspectInstance, server,
      remotePayload command row .inspectInstance "inspect"⟩
      (fun result => result.absent = some true ||
        requireRemoteGeneration result command.generation) fun _ => true

/-- `execute_command`, once the instance is loaded. -/
def executeCommand (command : CommandRow) (row : InstanceRow) : Control PUnit :=
  if command.generation ≠ row.generation then close
  else
    match command.kind with
    | "start" => executeStart codec command row
    | "terminate" => executeTerminate codec command row
    | "extend" => executeExtend codec command row
    | "inspect" | "reconcile" => executeInspect codec command row
    | _ => raise ⟨⟩

/-! ## The loops over the journal -/

/-- The body of the loop in `cleanup_overdue_without_database`. -/
def cleanRecord (entry : JournalRecord) : Control PUnit := do
  let now ← read (·.now)
  if entry.phase = .degradedCleanup || now < entry.effectiveExpiresAt ||
      entry.remoteServer.isNone then pure ⟨⟩
  else
    match ← execute .stopInstance entry.stopPayload with
    | some result =>
      if result.absent = some true || result.staleGeneration = some true then
        record codec .stopInstance .degradedCleanup (entry.cleanedUp result)
      else pure ⟨⟩
    | none => pure ⟨⟩

/-- The body of the loop in `reconcile_database_acknowledgements`. -/
def reconcileRecord (entry : JournalRecord) : Control PUnit := do
  if ← ask (·.databaseFinished) then
    record codec entry.operation .databaseAcknowledged entry.acknowledgedAt
  else pure ⟨⟩

/-- A loop over records, which ends with the first error; each record has its
own answers. -/
def visitRecords (body : JournalRecord → Control PUnit) (records : Current)
    (answers : Key → Answers) : List Key → Ledger → Ledger
  | [], l => l
  | key :: keys, l =>
    match records.lookup key with
    | none => visitRecords body records answers keys l
    | some entry =>
      match body entry (answers key) l with
      | (.done _, l') => visitRecords body records answers keys l'
      | (_, l') => l'

/-! ## Runs -/

/-- What the controller does next.  `order` is the order in which the hash map
yields its keys. -/
inductive Event
  | openJournal
  | execute (command : CommandRow) (row : InstanceRow) (answers : Answers)
  | cleanup (order : List Key) (answers : Key → Answers)
  | reconcile (order : List Key) (answers : Key → Answers)

/-- The ledger after an event. -/
def Ledger.step (l : Ledger) : Event → Ledger
  | .openJournal => { l with journal := l.journal.step codec .openJournal }
  | .execute command row answers => (executeCommand codec command row answers l).2
  | .cleanup order answers =>
    match currentUnacknowledged codec l.journal.file with
    | none => l
    | some records => visitRecords (cleanRecord codec) records answers order l
  | .reconcile order answers =>
    match currentUnacknowledged codec l.journal.file with
    | none => l
    | some records => visitRecords (reconcileRecord codec) records answers order l

/-- The ledger after a run. -/
def Ledger.after (l : Ledger) (events : List Event) : Ledger :=
  events.foldl (Ledger.step codec) l

end Controller

end CtfZone
