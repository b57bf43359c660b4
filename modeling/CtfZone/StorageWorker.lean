/-
# The storage maintenance of the controller

`storage.rs`: the queue of maintenance operations and their execution.  Workers
claim operations for a lease, and every transaction that ends an operation
checks that its claim still holds.

* `recoverStaleClaims`, `claimOperation`, `scheduleRetry` : the queue;
* `desiredOperations` : what the scans find missing;
* `reconcileUpload` : an upload that was not completed in time;
* `beginDeleteUpload`, `finishDeleteUpload` : the deletion of a staging key, around
  the requests to the object store;
* `beginDelete`, `finishDelete` : the deletion of a final key.
-/
import CtfZone.StorageApi

namespace CtfZone.Storage

open Tables

/-! ## The queue -/

/-- `WHERE id=$1 AND status='claimed' AND claimed_by=$2`. -/
def ObjectOperation.holds (op row : ObjectOperation) : Bool :=
  row.id = op.id && row.status = .claimed && row.claimedBy = op.claimedBy

/-- `UPDATE object_operations SET …` of a claimed operation: `none` where no row is
affected. -/
def Database.updateClaimed (db : Database) (op : ObjectOperation)
    (f : ObjectOperation → ObjectOperation) : Option Database :=
  if db.operations.any op.holds then
    some { db with operations := update op.holds f db.operations }
  else none

/-- An operation that is pending again. -/
def ObjectOperation.requeued (availableAt : Time) (attempts : ℕ → ℕ) (op : ObjectOperation) :
    ObjectOperation :=
  { op with
    status := .pending
    claimedAt := none
    claimedBy := none
    availableAt
    attempts := attempts op.attempts }

/-- An operation that has come to its end. -/
def ObjectOperation.closed (status : OperationStatus) (now : Time) (op : ObjectOperation) :
    ObjectOperation :=
  { op with status, completedAt := some now }

/-- `recover_stale_claims`. -/
def recoverStaleClaims (config : Config) (db : Database) (now : Time) : Database :=
  { db with
    operations := update
      (fun op => op.status = .claimed && op.claimedAt.any (· < now - config.staleClaimAfter))
      (·.requeued now id) db.operations }

/-- `claim_operation`: which of the available operations is claimed depends on
what other workers have locked.  The worker keeps the row it has claimed. -/
def claimOperation (db : Database) (now : Time) (id worker : ℕ) :
    Option (ObjectOperation × Database) :=
  match db.operations.find? fun op => op.id = id && op.status = .pending && op.availableAt ≤ now with
  | none => none
  | some op =>
    let claimed := { op with
      status := .claimed
      claimedAt := some now
      claimedBy := some worker
      attempts := op.attempts + 1 }
    some (claimed, { db with operations := update (·.id = id) (fun _ => claimed) db.operations })

/-- `retry_backoff_seconds`. -/
def retryBackoffSeconds (attempts : ℕ) : ℤ := min (5 * 2 ^ min (max attempts 1) 6) 300

/-- `schedule_retry`: an operation whose attempts are used up fails. -/
def scheduleRetry (config : Config) (db : Database) (now : Time) (op : ObjectOperation) :
    Database :=
  if config.maxAttempts ≤ op.attempts then (db.updateClaimed op (·.closed .failed now)).getD db
  else
    (db.updateClaimed op
      (·.requeued (now + seconds (retryBackoffSeconds op.attempts)) id)).getD db

/-- `cancel_operation`. -/
def cancelOperation (db : Database) (now : Time) (op : ObjectOperation) : Option Database :=
  db.updateClaimed op (·.closed .cancelled now)

/-- `complete_operation`. -/
def completeOperation (db : Database) (now : Time) (op : ObjectOperation) : Option Database :=
  db.updateClaimed op (·.closed .completed now)

/-- An operation is put off without an attempt being counted. -/
def deferOperation (db : Database) (op : ObjectOperation) (availableAt : Time) :
    Option Database :=
  db.updateClaimed op (·.requeued availableAt (· - 1))

/-! ## Scans -/

/-- A row a scan is about to insert. -/
structure Desired where
  objectId : Uuid
  kind : Kind
  objectRevision : ℤ
  availableAt : Time
  deriving DecidableEq

/-- An operation of this kind has failed for the revision a short while ago. -/
def failedRecently (config : Config) (db : Database) (now : Time) (d : Desired) : Bool :=
  db.operations.any fun op => op.objectId = d.objectId && op.kind = d.kind &&
    op.status = .failed && op.objectRevision = d.objectRevision &&
    op.completedAt.any (now - config.maintenanceInterval < ·)

/-- The rows of `enqueue_expired_upload_reconciliation`. -/
def expiredReconciliations (config : Config) (db : Database) (now : Time) : List Desired :=
  ((db.objects.filter fun o => o.status = .pending && o.uploadExpiresAt ≤ now).map fun o =>
    ⟨o.id, .reconcile, o.revision, now⟩).filter fun d =>
      ! db.hasOpen d.objectId .reconcile && ! failedRecently config db now d

/-- A deletion of this kind has been completed, of a staging key for any revision. -/
def completedBefore (db : Database) (d : Desired) : Bool :=
  db.operations.any fun op => op.objectId = d.objectId && op.kind = d.kind &&
    op.status = .completed && (d.kind = .deleteUpload || op.objectRevision = d.objectRevision)

/-- The rows of `enqueue_missing_deletes`. -/
def missingDeletes (config : Config) (db : Database) (now : Time) : List Desired :=
  let uploads := (db.objects.filter fun o => o.status ≠ .pending).map fun o =>
    (⟨o.id, .deleteUpload, o.revision, max now (stagingCleanupAt o.uploadExpiresAt)⟩ : Desired)
  let finals := (db.objects.filter fun o => o.status = .failed || o.status = .deleting).map
    fun o => (⟨o.id, .delete, o.revision, now⟩ : Desired)
  (uploads ++ finals).filter fun d =>
    ! completedBefore db d && ! db.hasOpen d.objectId d.kind && ! failedRecently config db now d

/-- What a scan finds missing.  The rows are inserted one by one later, when the
objects they refer to are not locked. -/
def desiredOperations (config : Config) (db : Database) (now : Time) : List Desired :=
  expiredReconciliations config db now ++ missingDeletes config db now

/-! ## Execution -/

/-- How the transaction of an operation goes on: it commits, it sends a request,
or it is given up and the operation retried. -/
inductive Outcome
  | commit (db : Database)
  | send
  | retry

/-- A transaction that commits if its claim holds. -/
def Outcome.ofOption : Option Database → Outcome
  | some db => .commit db
  | none => .retry

/-- `reconcile_upload`. -/
def reconcileUpload (db : Database) (now : Time) (op : ObjectOperation) (o : StoredObject) :
    Outcome :=
  if o.revision ≠ op.objectRevision then .ofOption (cancelOperation db now op)
  else if o.status ≠ .pending then .ofOption (cancelOperation db now op)
  else if now < o.uploadExpiresAt then .commit ((deferOperation db op o.uploadExpiresAt).getD db)
  else
    .ofOption <| completeOperation
      (((db.updateObject o (·.moved .failed)).enqueueOperation o.id .deleteUpload (o.revision + 1)
        (stagingCleanupAt o.uploadExpiresAt)).enqueueOperation o.id .delete (o.revision + 1) now)
      now op

/-- `terminal_staging_cleanup_at`, with `UPLOAD_CLOCK_GRACE`. -/
def terminalStagingCleanupAt (config : Config) (uploadExpiresAt : Time) : Time :=
  uploadExpiresAt + (config.maxUploadDuration + seconds 5)

/-- `delete_upload` up to the `DELETE`. -/
def beginDeleteUpload (db : Database) (now : Time) (op : ObjectOperation) (o : StoredObject) :
    Outcome :=
  if o.revision ≠ op.objectRevision then .ofOption (cancelOperation db now op)
  else if o.status = .pending then .ofOption (cancelOperation db now op)
  else .send

/-- The end of `delete_upload`: a final deletion that waits for it may run at
once. -/
def finishDeleteUpload (db : Database) (now : Time) (op : ObjectOperation) (o : StoredObject) :
    Outcome :=
  match completeOperation db now op with
  | none => .retry
  | some completed =>
    .commit { completed with
      operations := update
        (fun row => row.objectId = o.id && row.kind = .delete && row.objectRevision = o.revision &&
          row.status = .pending)
        (fun row => { row with availableAt := min row.availableAt now }) completed.operations }

/-- `any_completed` of the gate: a deletion of the staging key has been completed. -/
def anyCompleted (db : Database) (objectId : Uuid) : Bool :=
  db.operations.any fun op =>
    op.objectId = objectId && op.kind = .deleteUpload && op.status = .completed

/-- When the staging cleanup of a row of the queue is to be looked at again. -/
def cleanupRetryAt (config : Config) (now : Time) (op : ObjectOperation) : Option Time :=
  match op.status with
  | .pending => some (max op.availableAt (now + seconds 1))
  | .claimed => some (max (op.claimedAt.getD now + config.staleClaimAfter) (now + seconds 1))
  | .failed => some (max (op.completedAt.getD now + config.maintenanceInterval) (now + seconds 1))
  | .completed | .cancelled => none

/-- `retry_at` of the gate. -/
def gateRetryAt (config : Config) (db : Database) (now : Time) (op : ObjectOperation) :
    Option Time :=
  ((db.operations.filter fun row => row.objectId = op.objectId && row.kind = .deleteUpload &&
    row.objectRevision = op.objectRevision).filterMap (cleanupRetryAt config now)).min?

/-- `staging_cleanup_retry_at`. -/
def stagingCleanupRetryAt (config : Config) (db : Database) (now : Time)
    (op : ObjectOperation) : Option Time :=
  if anyCompleted db op.objectId then none else gateRetryAt config db now op

/-- `delete_object` up to the `DELETE`. -/
def beginDelete (config : Config) (db : Database) (now : Time) (op : ObjectOperation)
    (o : StoredObject) : Outcome :=
  if o.revision ≠ op.objectRevision then .ofOption (cancelOperation db now op)
  else
    match o.status with
    | .deleted => .ofOption (completeOperation db now op)
    | .pending | .ready => .ofOption (cancelOperation db now op)
    | .failed => .send
    | .deleting =>
      match stagingCleanupRetryAt config db now op with
      | some cleanupReadyAt => .ofOption (deferOperation db op cleanupReadyAt)
      | none => .send

/-- The end of `delete_object`. -/
def finishDelete (db : Database) (now : Time) (op : ObjectOperation) (o : StoredObject) :
    Outcome :=
  if o.status = .deleting then
    if db.objects.any fun row =>
        row.id = o.id && row.revision = o.revision && row.status = .deleting then
      .ofOption (completeOperation (db.updateObject o (·.moved .deleted)) now op)
    else .retry
  else .ofOption (completeOperation db now op)

end CtfZone.Storage
