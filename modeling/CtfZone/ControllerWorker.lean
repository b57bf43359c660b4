/-
# The controller workers

The control flow of `execute_command` in `services/controller/src/worker.rs`,
cut at every point where a worker can stall: between two transactions, before
and after a call of the helper.  `Pc` says where a worker stands and what it
carries; `advance` takes one step.

What the world decides during a step (the clock, a fresh identifier, a database
that fails, an operation journal that cannot be written) is a `Turn`.  The
journal is modelled on its own; here only its failures matter.  An `Err` of
`execute_command` leads to `schedule_retry`, and an error there ends the
session.
-/
import CtfZone.ControllerTransactions

open Effects

namespace CtfZone

/-! ## Calls of the helper -/

/-- Why the helper is called. -/
inductive Call
  /-- `ensure-instance` -/
  | start
  /-- `stop-instance` after a start that came too late -/
  | cleanup
  /-- `stop-instance` -/
  | terminate
  /-- `update-deadline` -/
  | extend
  /-- `inspect-instance` -/
  | inspect
  deriving DecidableEq

/-- A request on its way to a runtime host. -/
structure RemoteRequest where
  worker : ℕ
  job : Job
  server : Uuid
  call : Call
  deriving DecidableEq

/-- `remote_payload`: the flag goes out with `ensure-instance` only. -/
def RemoteRequest.payload (r : RemoteRequest) : Helper.Request where
  generation := .int r.job.command.generation
  expiresAt := .instant r.job.row.desiredExpiresAt
  deployment := r.job.row.deploymentSnapshot.deployment
  flagValue := if r.call = .start then r.job.row.deploymentSnapshot.flagValue else none

/-- The operation of the helper that serves a request. -/
def RemoteRequest.program (r : RemoteRequest) : Helper Helper.Reply :=
  match r.call with
  | .start => Helper.ensureInstance r.job.row.id r.payload
  | .cleanup => Helper.stopInstance r.job.row.id r.payload
  | .terminate => Helper.stopInstance r.job.row.id r.payload
  | .extend => Helper.updateDeadline r.job.row.id r.payload
  | .inspect => Helper.inspectResult .request r.job.row.id

/-! ## Where a worker stands -/

/-- The next thing a worker does. -/
inductive Pc
  | idle
  | load (command : CommandRow)
  | cancelStale (job : Job)
  | cancel (command : CommandRow)
  | complete (command : CommandRow)
  | gate (job : Job)
  | rejectStart (job : Job)
  | expireUnstarted (job : Job)
  | place (job : Job)
  | markStopping (job : Job)
  | finishTermination (job : Job)
  /-- write the journal and call the helper -/
  | send (r : RemoteRequest)
  /-- wait for the reply -/
  | await (r : RemoteRequest)
  /-- record the reply -/
  | finish (r : RemoteRequest) (result : RemoteResult)
  | retry (command : CommandRow)
  deriving DecidableEq

/-- The command a worker is at. -/
def Pc.command : Pc → Option CommandRow
  | .idle => none
  | .load command | .cancel command | .complete command | .retry command => some command
  | .cancelStale job | .gate job | .rejectStart job | .expireUnstarted job | .place job
  | .markStopping job | .finishTermination job => some job.command
  | .send r | .await r | .finish r _ => some r.job.command

/-- How the database answers a transaction. -/
inductive TxFault
  | none
  /-- the transaction is not committed, and the worker sees an error -/
  | beforeCommit
  /-- the transaction is committed, and the worker sees an error -/
  | afterCommit
  deriving DecidableEq

/-- What the worker sees of a transaction, and the tables after it. -/
def TxFault.run {α : Type} (fault : TxFault) (tx : Option (α × Database)) (db : Database) :
    Option α × Database :=
  match fault, tx with
  | .none, some (a, db') => (some a, db')
  | .afterCommit, some (_, db') => (Option.none, db')
  | _, _ => (Option.none, db)

/-- What the world decides during one step of a worker. -/
structure Turn where
  now : Time
  /-- the identifier of a command the step may queue -/
  commandId : Uuid
  /-- the server a selection returns -/
  server : Option Uuid
  fault : TxFault
  /-- the journal takes the record, and a call of the helper can be made -/
  proceeds : Bool
  /-- the journal takes the acknowledgement -/
  acknowledged : Bool
  deriving DecidableEq

/-! ## Decisions without a transaction -/

/-- `load_instance`. -/
def loadInstance (command : CommandRow) (db : Database) : Option Job :=
  match h : db.findInstance command.instanceId with
  | none => none
  | some i => some ⟨command, i.row, (Database.findInstance_eq_some h).2⟩

/-- The branches of `execute_command` up to the first transaction. -/
def dispatch (worker : ℕ) (now : Time) (job : Job) : Pc :=
  if job.command.generation ≠ job.row.generation then .cancelStale job
  else
    match job.command.kind with
    | .start =>
      if ! job.row.active || job.row.desiredState ≠ .running then .cancel job.command
      else if job.row.desiredExpiresAt ≤ now then .expireUnstarted job
      else .gate job
    | .terminate => if ! job.row.active then .complete job.command else .markStopping job
    | .extend =>
      if ! job.row.active || job.row.desiredState ≠ .running || job.row.expiresAt ≤ now then
        .cancel job.command
      else
        match job.row.remoteServerId with
        | none => .retry job.command
        | some server => .send ⟨worker, job, server, .extend⟩
    | .inspect | .reconcile =>
      match job.row.remoteServerId with
      | none => .cancel job.command
      | some server => .send ⟨worker, job, server, .inspect⟩

/-- The policy of `RuntimeGate` still allows the start. -/
def policyAllows (job : Job) (db : Database) : Bool :=
  match db.findConfig job.row.challengeId with
  | none => false
  | some config =>
    db.setting.enabled && config.enabled && config.managed &&
      job.command.settingRevision = db.setting.revision &&
      job.command.challengeRuntimeRevision = config.revision

/-- `require_remote_generation`. -/
def requireRemoteGeneration (result : RemoteResult) (generation : ℤ) : Bool :=
  result.staleGeneration ≠ some true && result.effectiveGeneration = some generation

/-- `require_remote_removal`. -/
def requireRemoteRemoval (result : RemoteResult) : Bool :=
  result.staleGeneration ≠ some true && result.absent = some true

/-- The checks of a reply before it is recorded. -/
def RemoteRequest.accepts (r : RemoteRequest) (result : RemoteResult) : Bool :=
  match r.call with
  | .start =>
    requireRemoteGeneration result r.job.command.generation && result.absent ≠ some true &&
      result.containerId.isSome && result.ready = some true
  | .cleanup | .terminate => requireRemoteRemoval result
  | .extend => requireRemoteGeneration result r.job.command.generation
  | .inspect =>
    result.absent = some true || requireRemoteGeneration result r.job.command.generation

/-- The worker after the reply of the helper: `none` is an exit status other
than 0 or a connection that broke. -/
def RemoteRequest.received (r : RemoteRequest) (reply : Option Helper.Reply) : Pc :=
  match reply.bind Helper.Reply.parse with
  | none => .retry r.job.command
  | some result => if r.accepts result then .finish r result else .retry r.job.command

/-! ## Steps -/

/-- The worker after a transaction that ends the command. -/
def Turn.done (turn : Turn) (command : CommandRow) : Pc :=
  if turn.acknowledged then .idle else .retry command

/-- The worker after a transaction: an `Err` is retried, `true` and `false` go
their ways. -/
def afterTx (command : CommandRow) (yes no : Pc) : Option Bool → Pc
  | none => .retry command
  | some true => yes
  | some false => no

/-- A step that runs a transaction and goes on. -/
def Turn.transact {α : Type} (turn : Turn) (tx : Option (α × Database)) (next : Option α → Pc)
    (db : Database) : Pc × Database × Option RemoteRequest :=
  let r := turn.fault.run tx db
  (next r.1, r.2, none)

/-- The step that records a reply. -/
def finishReply (turn : Turn) (r : RemoteRequest) (result : RemoteResult) (db : Database) :
    Pc × Database × Option RemoteRequest :=
  let command := r.job.command
  match r.call with
  | .start =>
    turn.transact (finishStart turn.now r.job r.server result db)
      (afterTx command (turn.done command) (.send { r with call := .cleanup })) db
  | .cleanup => (.cancel command, db, none)
  | .terminate =>
    turn.transact (finishTermination turn.now r.job db)
      (afterTx command (turn.done command) (.cancel command)) db
  | .extend =>
    turn.transact (finishExtension turn.now r.job result db)
      (afterTx command (turn.done command) (.cancel command)) db
  | .inspect =>
    turn.transact (finishInspection turn.now turn.commandId r.job result db)
      (afterTx command (turn.done command) (.cancel command)) db

/-- The step that places an instance: a placement that exists is reused. -/
def placeInstance (worker : ℕ) (turn : Turn) (job : Job) (db : Database) :
    Pc × Database × Option RemoteRequest :=
  match job.row.remoteServerId with
  | some server =>
    turn.transact (markStarting turn.now job server db)
      (afterTx job.command (.send ⟨worker, job, server, .start⟩) (.cancel job.command)) db
  | none =>
    turn.transact (selectAndMarkStarting turn.now job turn.server db)
      (fun
        | none => .retry job.command
        | some none => .cancel job.command
        | some (some server) => .send ⟨worker, job, server, .start⟩) db

/-- One step of a worker; `none` when it has nothing to do. -/
def advance (config : Config) (worker : ℕ) (turn : Turn) (db : Database) :
    Pc → Option (Pc × Database × Option RemoteRequest)
  | .idle => none
  | .load command =>
    match turn.fault, loadInstance command db with
    | .none, some job => some (dispatch worker turn.now job, db, none)
    | _, _ => some (.retry command, db, none)
  | .cancelStale job =>
    some (turn.transact ((cancelStaleCommand turn.now job db).map (true, ·))
      (afterTx job.command .idle .idle) db)
  | .cancel command =>
    some (turn.transact (some (true, closeCommand .cancelled turn.now command db))
      (afterTx command (turn.done command) .idle) db)
  | .complete command =>
    some (turn.transact (some (true, closeCommand .completed turn.now command db))
      (afterTx command .idle .idle) db)
  | .gate job =>
    some (if turn.fault ≠ .none then .retry job.command
      else if policyAllows job db then .place job else .rejectStart job, db, none)
  | .rejectStart job =>
    some (turn.transact ((rejectStart turn.now job db).map (true, ·))
      (afterTx job.command .idle .idle) db)
  | .expireUnstarted job =>
    some (turn.transact ((expireUnstartedInstance turn.now job db).map (true, ·))
      (afterTx job.command .idle .idle) db)
  | .place job => some (placeInstance worker turn job db)
  | .markStopping job =>
    some (turn.transact (markStopping turn.now job db)
      (afterTx job.command
        (match job.row.remoteServerId with
          | some server => .send ⟨worker, job, server, .terminate⟩
          | none => .finishTermination job)
        (.cancel job.command)) db)
  | .finishTermination job =>
    some (turn.transact (finishTermination turn.now job db)
      (afterTx job.command .idle (.cancel job.command)) db)
  | .send r => some (if turn.proceeds then (.await r, db, some r) else (.retry r.job.command, db, none))
  | .await r => some (.retry r.job.command, db, none)
  | .finish r result =>
    some (if turn.proceeds then finishReply turn r result db
      else (.retry r.job.command, db, none))
  | .retry command =>
    some (turn.transact
      (some (true, scheduleRetry config turn.now turn.commandId command db)) (fun _ => .idle) db)

end CtfZone
