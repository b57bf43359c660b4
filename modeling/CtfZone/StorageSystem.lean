/-
# The object storage at work

The tables, the object store, and everything that is under way: requests to the
object store, completions of uploads in the API (`Call`), maintenance operations
in the controllers (`Job`), and rows that scans are about to insert.

A request to the object store takes effect at any time after it is sent, also
when nobody waits for it any more.  A copy first reads its source and later
writes the final key.  A transaction that waits for the object store holds the
row of its object, and of the category of an icon; what needs one of these rows
waits for it.  A caller may be gone at any time, and its transaction with it.
-/
import CtfZone.StorageWorker
import CtfZone.Runs

namespace CtfZone.Storage

open Tables

/-! ## What is under way -/

/-- What a request does; a copy that has read its source carries the body. -/
inductive Action
  | put (startedAt : Time) (body : Body)
  | copy (source : Option Body)
  | deleteUpload
  | deleteFinal
  deriving DecidableEq

/-- A request to the object store on the keys of an object, and its answer. -/
structure Request where
  id : ℕ
  objectId : Uuid
  action : Action
  answer : Option Bool
  deriving DecidableEq

/-- Where a completion is: about to call `fail_upload`, about to open its
transaction, waiting for the copy, about to commit with the size of the body. -/
inductive CallPhase
  | failing
  | checked
  | copying (request : ℕ)
  | copied (size : ℤ)
  deriving DecidableEq

/-- A run of `complete_upload`, with the row as it was last loaded. -/
structure Call where
  id : ℕ
  object : StoredObject
  phase : CallPhase
  deriving DecidableEq

/-- Where an operation is: claimed, about to be retried, or in its transaction
with the row that it has locked. -/
inductive JobPhase
  | claimed
  | retrying
  | deletingUpload (request : ℕ) (object : StoredObject)
  | uploadDeleted (object : StoredObject)
  | uploadAbsent (object : StoredObject)
  | deletingFinal (request : ℕ) (object : StoredObject)
  deriving DecidableEq

/-- The execution of a claimed operation. -/
structure Job where
  id : ℕ
  operation : ObjectOperation
  phase : JobPhase
  deriving DecidableEq

/-- The whole storage; `nextId` is the id of the next request, call or job. -/
structure System where
  now : Time
  db : Database
  staging : Uuid → Option Body
  final : Uuid → Option Body
  requests : List Request
  calls : List Call
  jobs : List Job
  desired : List Desired
  nextId : ℕ

/-! ## Locks -/

/-- A completion is in its transaction. -/
def Call.inTransaction (call : Call) : Bool :=
  match call.phase with
  | .failing | .checked => false
  | .copying _ | .copied _ => true

/-- A completion holds the row of an object. -/
def Call.holds (call : Call) (objectId : Uuid) : Bool :=
  call.inTransaction && call.object.id = objectId

/-- A completion holds the row of a category. -/
def Call.holdsCategory (call : Call) (categoryId : ℤ) : Bool :=
  call.inTransaction && call.object.iconCategory = some categoryId

/-- The row an operation has locked. -/
def JobPhase.object : JobPhase → Option StoredObject
  | .claimed | .retrying => none
  | .deletingUpload _ o | .uploadDeleted o | .uploadAbsent o | .deletingFinal _ o => some o

/-- An operation holds the row of an object. -/
def Job.holds (job : Job) (objectId : Uuid) : Bool :=
  job.phase.object.any (·.id = objectId)

/-- Nobody holds the row of an object. -/
def System.free (s : System) (objectId : Uuid) : Bool :=
  ! s.calls.any (·.holds objectId) && ! s.jobs.any (·.holds objectId)

/-- Nobody holds the row of a category. -/
def System.freeCategory (s : System) (categoryId : ℤ) : Bool :=
  ! s.calls.any (·.holdsCategory categoryId)

/-- Nobody holds a row of the objects that meet a condition. -/
def System.freeWhere (s : System) (p : StoredObject → Bool) : Bool :=
  (s.db.objects.filter p).all fun o => s.free o.id

/-! ## The object store -/

/-- A key is written, or emptied. -/
def setBody (bodies : Uuid → Option Body) (objectId : Uuid) (body : Option Body) :
    Uuid → Option Body :=
  fun id => if id = objectId then body else bodies id

/-- A request is sent. -/
def System.send (s : System) (objectId : Uuid) (action : Action) : System :=
  { s with
    requests := s.requests ++ [⟨s.nextId, objectId, action, none⟩]
    nextId := s.nextId + 1 }

/-- A request has come to its answer, or a copy to the body it carries. -/
def System.setRequest (s : System) (r : Request) : System :=
  { s with requests := update (·.id = r.id) (fun _ => r) s.requests }

/-- A request takes effect.  A `PUT` does so while its upload may last. -/
def serve (config : Config) (s : System) (r : Request) : Option System :=
  match r.action with
  | .put startedAt body =>
    if s.now ≤ startedAt + config.maxUploadDuration then
      some { s.setRequest { r with answer := some true } with
        staging := setBody s.staging r.objectId (some body) }
    else none
  | .copy none =>
    match s.staging r.objectId with
    | some body => some (s.setRequest { r with action := .copy (some body) })
    | none => some (s.setRequest { r with answer := some false })
  | .copy (some body) =>
    some { s.setRequest { r with answer := some true } with
      final := setBody s.final r.objectId (some body) }
  | .deleteUpload =>
    some { s.setRequest { r with answer := some true } with
      staging := setBody s.staging r.objectId none }
  | .deleteFinal =>
    some { s.setRequest { r with answer := some true } with
      final := setBody s.final r.objectId none }

/-- A request that has not been answered. -/
def System.openRequest (s : System) (id : ℕ) : Option Request :=
  s.requests.find? fun r => r.id = id && r.answer.isNone

/-- A request has been answered with success. -/
def System.answered (s : System) (id : ℕ) : Bool :=
  s.requests.any fun r => r.id = id && r.answer = some true

/-! ## Completions -/

/-- A completion goes on in another phase. -/
def System.setCall (s : System) (call : Call) : System :=
  { s with calls := update (·.id = call.id) (fun _ => call) s.calls }

/-- A completion is over. -/
def System.dropCall (s : System) (id : ℕ) : System :=
  { s with calls := s.calls.filter (·.id ≠ id) }

/-- Where a completion is after its first look at the staged body. -/
def Progress.phase : Progress → Option CallPhase
  | .ended => none
  | .failing => some .failing
  | .continuing => some .checked

/-- `complete_upload` is called and looks at the staged body; `valid` says that an
icon is one. -/
def startCall (s : System) (objectId : Uuid) (valid : Bool) : Option System := do
  let o ← s.db.object objectId
  let phase ← (inspectUpload s.now o (s.staging objectId) valid).phase
  some { s with
    calls := s.calls ++ [⟨s.nextId, o, phase⟩]
    nextId := s.nextId + 1 }

/-- The transaction is opened, the rows are locked, and the copy is sent. -/
def beginCall (s : System) (call : Call) (target : Bool) : Option System := do
  let current ← s.db.object call.object.id
  if call.phase = .checked ∧ s.free call.object.id ∧
      call.object.iconCategory.all s.freeCategory then
    match beginComplete s.db s.now call.object current target with
    | .ended => some (s.dropCall call.id)
    | .failing => some (s.setCall { call with phase := .failing })
    | .continuing =>
      some ((s.send current.id (.copy none)).setCall
        { call with object := current, phase := .copying s.nextId })
  else none

/-- The copy has succeeded and the final key is looked at. -/
def checkCall (s : System) (call : Call) (valid : Bool) : Option System :=
  match call.phase with
  | .copying request =>
    if s.answered request then
      let promoted := s.final call.object.id
      match checkPromoted call.object promoted valid with
      | .ended => some (s.dropCall call.id)
      | .failing => some (s.setCall { call with phase := .failing })
      | .continuing =>
        promoted.map fun body => s.setCall { call with phase := .copied body.length }
    else none
  | _ => none

/-- The objects an attachment retires. -/
def Call.retires (call : Call) (o : StoredObject) : Bool :=
  call.object.iconCategory.any fun categoryId =>
    (call.object.expectedIcon = some o.id || isPendingIcon categoryId o) && o.id ≠ call.object.id

/-- The transaction of a completion commits. -/
def commitCall (s : System) (call : Call) : Option System :=
  match call.phase with
  | .copied size =>
    if s.freeWhere call.retires then
      (commitComplete s.db s.now call.object size).map fun db =>
        { s.dropCall call.id with db }
    else none
  | _ => none

/-- A completion calls `fail_upload`. -/
def failCall (s : System) (call : Call) : Option System := do
  let current ← s.db.object call.object.id
  if call.phase = .failing ∧ s.free call.object.id then
    some { s.dropCall call.id with db := failUpload s.db s.now current }
  else none

/-! ## Operations -/

/-- An operation goes on in another phase. -/
def System.setJob (s : System) (job : Job) : System :=
  { s with jobs := update (·.id = job.id) (fun _ => job) s.jobs }

/-- An operation is over. -/
def System.dropJob (s : System) (id : ℕ) : System :=
  { s with jobs := s.jobs.filter (·.id ≠ id) }

/-- A worker claims an operation. -/
def startJob (s : System) (operation worker : ℕ) : Option System :=
  (claimOperation s.db s.now operation worker).map fun (claimed, db) =>
    { s with
      db
      jobs := s.jobs ++ [⟨s.nextId, claimed, .claimed⟩]
      nextId := s.nextId + 1 }

/-- How a transaction goes on; `sent` is the storage once it has sent its request. -/
def settle (s : System) (job : Job) (outcome : Outcome) (sent : System) : System :=
  match outcome with
  | .commit db => { s.dropJob job.id with db }
  | .send => sent
  | .retry => s.setJob { job with phase := .retrying }

/-- `execute_operation` up to its request to the object store. -/
def beginJob (config : Config) (s : System) (job : Job) : Option System := do
  let o ← s.db.object job.operation.objectId
  if job.phase = .claimed ∧ s.free o.id then
    match job.operation.kind with
    | .reconcile => some (settle s job (reconcileUpload s.db s.now job.operation o) s)
    | .deleteUpload =>
      some (settle s job (beginDeleteUpload s.db s.now job.operation o)
        ((s.send o.id .deleteUpload).setJob { job with phase := .deletingUpload s.nextId o }))
    | .delete =>
      some (settle s job (beginDelete config s.db s.now job.operation o)
        ((s.send o.id .deleteFinal).setJob { job with phase := .deletingFinal s.nextId o }))
  else none

/-- The `DELETE` of a staging key has succeeded: before the terminal cleanup the
operation is put off. -/
def afterDeleteUpload (config : Config) (s : System) (job : Job) (o : StoredObject) : System :=
  let terminal := terminalStagingCleanupAt config o.uploadExpiresAt
  if s.now < terminal then settle s job (.ofOption (deferOperation s.db job.operation terminal)) s
  else s.setJob { job with phase := .uploadDeleted o }

/-- An operation goes on once its request has succeeded. -/
def resumeJob (config : Config) (s : System) (job : Job) : Option System :=
  match job.phase with
  | .claimed | .retrying => none
  | .deletingUpload request o =>
    if s.answered request then some (afterDeleteUpload config s job o) else none
  | .uploadDeleted o =>
    -- `is_absent`
    if (s.staging o.id).isNone then some (s.setJob { job with phase := .uploadAbsent o })
    else some (s.setJob { job with phase := .retrying })
  | .uploadAbsent o => some (settle s job (finishDeleteUpload s.db s.now job.operation o) s)
  | .deletingFinal request o =>
    if s.answered request then some (settle s job (finishDelete s.db s.now job.operation o) s)
    else none

/-- `schedule_retry`. -/
def retryJob (config : Config) (s : System) (job : Job) : Option System :=
  if job.phase = .retrying then
    some { s.dropJob job.id with db := scheduleRetry config s.db s.now job.operation }
  else none

/-! ## Steps -/

/-- What happens, with what the environment chooses. -/
inductive Label
  | tick (d : ℕ)
  | initiate (request : UploadRequest)
  | startPut (objectId : Uuid) (body : Body)
  | serve (request : ℕ)
  | reject (request : ℕ)
  | startCall (objectId : Uuid) (valid : Bool)
  | beginCall (call : ℕ) (target : Bool)
  | checkCall (call : ℕ) (valid : Bool)
  | commitCall (call : ℕ)
  | failCall (call : ℕ)
  | dropCall (call : ℕ)
  | delete (objectId : Uuid)
  | removeIcon (categoryId : ℤ) (objectId : Uuid)
  | assignIcon (categoryId : ℤ) (objectId : Uuid)
  | deleteParent (parent : Parent)
  | switchMode (participant : ℤ → Bool)
  | recover
  | scan
  | enqueue (d : Desired)
  | startJob (operation worker : ℕ)
  | beginJob (job : ℕ)
  | resumeJob (job : ℕ)
  | breakJob (job : ℕ)
  | retryJob (job : ℕ)
  | dropJob (job : ℕ)

/-- The tables after a transaction. -/
def System.commit (s : System) (db : Option Database) : Option System :=
  db.map fun db => { s with db }

/-- The call or the job of an id. -/
def System.call (s : System) (id : ℕ) : Option Call := s.calls.find? (·.id = id)

def System.job (s : System) (id : ℕ) : Option Job := s.jobs.find? (·.id = id)

/-- The category an upload is an icon for. -/
def UploadRequest.iconCategory (request : UploadRequest) : Option ℤ :=
  if request.purpose = .categoryIcon then request.target.categoryId else none

/-- The category of an icon that a parent row is. -/
def Parent.category? : Parent → Option ℤ
  | .category id => some id
  | _ => none

/-- One step of the storage. -/
def step (config : Config) (label : Label) (s : System) : Option System :=
  match label with
  | .tick d => some { s with now := s.now + d }
  | .initiate request =>
    if request.iconCategory.all s.freeCategory ∧ request.requestedAt ≤ s.now then
      s.commit (initiateUpload config s.db s.now request).toOption
    else none
  | .startPut objectId body => do
    let o ← s.db.object objectId
    if s.now ≤ o.uploadExpiresAt then some (s.send objectId (.put s.now body)) else none
  | .serve request => do
    let r ← s.openRequest request
    Storage.serve config s r
  | .reject request => do
    let r ← s.openRequest request
    some (s.setRequest { r with answer := some false })
  | .startCall objectId valid => Storage.startCall s objectId valid
  | .beginCall id target => do Storage.beginCall s (← s.call id) target
  | .checkCall id valid => do Storage.checkCall s (← s.call id) valid
  | .commitCall id => do Storage.commitCall s (← s.call id)
  | .failCall id => do Storage.failCall s (← s.call id)
  | .dropCall id => some (s.dropCall id)
  | .delete objectId => do
    let current ← s.db.object objectId
    if s.free objectId ∧ current.iconCategory.all s.freeCategory then
      s.commit (scheduleDelete s.db s.now current)
    else none
  | .removeIcon categoryId objectId =>
    if s.freeCategory categoryId ∧ s.freeWhere fun o =>
        o.iconCategory = some categoryId && (o.id = objectId || o.status = .pending) then
      s.commit (deleteCategoryIcon s.db s.now categoryId objectId)
    else none
  | .assignIcon categoryId objectId =>
    if s.freeCategory categoryId ∧ s.free objectId then
      s.commit (Storage.assignIcon s.db categoryId objectId)
    else none
  | .deleteParent parent =>
    if parent.category?.all s.freeCategory ∧ s.freeWhere parent.links then
      s.commit (some (s.db.deleteParent s.now parent))
    else none
  | .switchMode participant =>
    if s.freeWhere (isCompetitionObject participant) then
      s.commit (some (s.db.scheduleUserCompetitionObjectDeletion s.now participant))
    else none
  | .recover => s.commit (some (recoverStaleClaims config s.db s.now))
  | .scan => some { s with desired := s.desired ++ desiredOperations config s.db s.now }
  | .enqueue d =>
    if d ∈ s.desired ∧ s.free d.objectId then
      some { s with
        db := s.db.enqueueOperation d.objectId d.kind d.objectRevision d.availableAt
        desired := s.desired.erase d }
    else none
  | .startJob operation worker => Storage.startJob s operation worker
  | .beginJob id => do Storage.beginJob config s (← s.job id)
  | .resumeJob id => do Storage.resumeJob config s (← s.job id)
  | .breakJob id => do some (s.setJob { (← s.job id) with phase := .retrying })
  | .retryJob id => do Storage.retryJob config s (← s.job id)
  | .dropJob id => some (s.dropJob id)

/-- A storage nobody has used. -/
def Initial (s : System) : Prop :=
  s.db.objects = [] ∧ s.db.operations = [] ∧
    Unique (fun c : Category => some c.id) s.db.categories ∧
    (∀ c ∈ s.db.categories, c.iconObjectId = none) ∧
    (∀ id, s.staging id = none) ∧ (∀ id, s.final id = none) ∧
    s.requests = [] ∧ s.calls = [] ∧ s.jobs = [] ∧ s.desired = []

end CtfZone.Storage
