/-
# Tables of the object storage

The rows of `stored_objects`, `object_operations` and `challenge_categories`,
and the statements every writer of them is made of.

The contents of an object live under two keys of the object store, a staging key
that a presigned `PUT` writes and a final key that it is copied to; the keys are
named by the id of the object.

* `enqueueOperation` : a maintenance operation, unless one of its kind is open;
* `retire` : an object that is to be deleted, with its two cleanups, as the API,
  the trigger on parent rows and the change of the user mode all write it.
-/
import CtfZone.Basic
import CtfZone.Tables

namespace CtfZone.Storage

open Tables

/-! ## Rows -/

/-- `Purpose`. -/
inductive Purpose
  | categoryIcon | challengeAsset | pageAsset | solutionAsset | submission | patch | program
  deriving DecidableEq

/-- `is_asset`. -/
def Purpose.isAsset : Purpose → Bool
  | .categoryIcon | .challengeAsset | .pageAsset | .solutionAsset => true
  | .submission | .patch | .program => false

/-- The status of an object. -/
inductive Status
  | pending | ready | failed | deleting | deleted
  deriving DecidableEq

/-- The `authorization_scope` of an object. -/
inductive Scope
  | target | user | team
  deriving DecidableEq

/-- `ValidatedTarget`: the rows an object belongs to. -/
structure Target where
  categoryId : Option ℤ := none
  challengeId : Option ℤ := none
  pageId : Option ℤ := none
  solutionId : Option ℤ := none
  deriving DecidableEq

/-- A row of `stored_objects`. -/
structure StoredObject where
  id : Uuid
  purpose : Purpose
  status : Status
  scope : Scope
  ownerUserId : Option ℤ
  ownerTeamId : Option ℤ
  idempotencyKey : String
  target : Target
  filename : String
  contentType : String
  checksum : String
  expectedSize : ℤ
  actualSize : Option ℤ
  expectedIcon : Option Uuid
  uploadExpiresAt : Time
  createdAt : Time
  revision : ℤ
  deriving DecidableEq

/-- The kind of a maintenance operation. -/
inductive Kind
  | reconcile | deleteUpload | delete
  deriving DecidableEq

/-- The status of a maintenance operation. -/
inductive OperationStatus
  | pending | claimed | completed | failed | cancelled
  deriving DecidableEq

/-- A row of `object_operations`. -/
structure ObjectOperation where
  id : ℕ
  objectId : Uuid
  kind : Kind
  objectRevision : ℤ
  status : OperationStatus
  attempts : ℕ
  availableAt : Time
  claimedAt : Option Time
  claimedBy : Option ℕ
  completedAt : Option Time
  deriving DecidableEq

/-- A row of `challenge_categories`. -/
structure Category where
  id : ℤ
  iconObjectId : Option Uuid
  deriving DecidableEq

/-- The tables; `nextOperation` is the id of the next operation. -/
structure Database where
  objects : List StoredObject
  operations : List ObjectOperation
  categories : List Category
  nextOperation : ℕ

/-! ## Statements -/

/-- The row of an object. -/
def Database.object (db : Database) (id : Uuid) : Option StoredObject :=
  db.objects.find? (·.id = id)

/-- The row of a category. -/
def Database.category (db : Database) (id : ℤ) : Option Category :=
  db.categories.find? (·.id = id)

/-- `status IN ('pending','claimed')`. -/
def ObjectOperation.isOpen (op : ObjectOperation) : Bool :=
  op.status = .pending || op.status = .claimed

/-- The icon of an object's category, for an object that is an icon. -/
def StoredObject.iconCategory (o : StoredObject) : Option ℤ :=
  if o.purpose = .categoryIcon then o.target.categoryId else none

/-- An object in its next status. -/
def StoredObject.moved (status : Status) (o : StoredObject) : StoredObject :=
  { o with status, revision := o.revision + 1 }

/-- `UPDATE stored_objects SET … WHERE id=$1 AND revision=$2`. -/
def Database.updateObject (db : Database) (current : StoredObject)
    (f : StoredObject → StoredObject) : Database :=
  { db with
    objects := update (fun o => o.id = current.id && o.revision = current.revision) f db.objects }

/-- The open operations of an object are cancelled, those of the kinds given. -/
def Database.cancelOpen (db : Database) (now : Time) (objectId : Uuid) (kinds : Kind → Bool) :
    Database :=
  { db with
    operations := update (fun op => op.objectId = objectId && op.isOpen && kinds op.kind)
      (fun op => { op with status := .cancelled, completedAt := some now }) db.operations }

/-- An operation of this kind is open for the object. -/
def Database.hasOpen (db : Database) (objectId : Uuid) (kind : Kind) : Bool :=
  db.operations.any fun op => op.objectId = objectId && op.kind = kind && op.isOpen

/-- `enqueue_operation`, and `INSERT … ON CONFLICT DO NOTHING` under the index
`uq_object_operations_open_kind`. -/
def Database.enqueueOperation (db : Database) (objectId : Uuid) (kind : Kind)
    (objectRevision : ℤ) (availableAt : Time) : Database :=
  if db.hasOpen objectId kind then db
  else
    { db with
      operations := db.operations ++
        [⟨db.nextOperation, objectId, kind, objectRevision, .pending, 0, availableAt, none, none,
          none⟩]
      nextOperation := db.nextOperation + 1 }

/-- `staging_cleanup_at`. -/
def stagingCleanupAt (uploadExpiresAt : Time) : Time := uploadExpiresAt + seconds 5

/-! ## Objects on their way out -/

/-- An object is to be deleted, unless it is already. -/
def Database.retire (db : Database) (now : Time) (current : StoredObject) : Database :=
  if current.status = .deleting ∨ current.status = .deleted then db
  else
    ((((db.updateObject current (·.moved .deleting)).cancelOpen now current.id fun _ => true)
      ).enqueueOperation current.id .deleteUpload (current.revision + 1)
        (stagingCleanupAt current.uploadExpiresAt)
      ).enqueueOperation current.id .delete (current.revision + 1) now

/-- The objects that meet a condition are to be deleted. -/
def Database.retireWhere (db : Database) (now : Time) (p : StoredObject → Bool) : Database :=
  (db.objects.filter p).foldl (fun db current => db.retire now current) db

/-- A row whose deletion detaches the objects linked to it. -/
inductive Parent
  | challenge (id : ℤ)
  | category (id : ℤ)
  | page (id : ℤ)
  | solution (id : ℤ)
  | user (id : ℤ)
  | team (id : ℤ)
  deriving DecidableEq

/-- The association columns and the scopes of the triggers. -/
def Parent.links (parent : Parent) (o : StoredObject) : Bool :=
  match parent with
  | .challenge id => o.target.challengeId = some id
  | .category id => o.target.categoryId = some id
  | .page id => o.target.pageId = some id
  | .solution id => o.target.solutionId = some id
  | .user id => o.ownerUserId = some id && o.scope = .user
  | .team id => o.ownerTeamId = some id && o.scope = .team

/-- `ON DELETE SET NULL` of a column. -/
def setNull {α : Type} [DecidableEq α] (value : α) (column : Option α) : Option α :=
  if column = some value then none else column

/-- The foreign keys of an object once its parent is gone. -/
def Parent.detach (parent : Parent) (o : StoredObject) : StoredObject :=
  match parent with
  | .challenge id =>
    { o with target := { o.target with challengeId := setNull id o.target.challengeId } }
  | .category id =>
    { o with target := { o.target with categoryId := setNull id o.target.categoryId } }
  | .page id => { o with target := { o.target with pageId := setNull id o.target.pageId } }
  | .solution id =>
    { o with target := { o.target with solutionId := setNull id o.target.solutionId } }
  | .user id => { o with ownerUserId := setNull id o.ownerUserId }
  | .team id => { o with ownerTeamId := setNull id o.ownerTeamId }

/-- The deletion of a parent row: `schedule_linked_object_deletion`, then the
foreign keys. -/
def Database.deleteParent (db : Database) (now : Time) (parent : Parent) : Database :=
  let retired := db.retireWhere now parent.links
  { retired with
    objects := retired.objects.map parent.detach
    categories := match parent with
      | .category id => retired.categories.filter (·.id ≠ id)
      | _ => retired.categories }

/-- `is_competition_purpose`, and what the change of the user mode selects. -/
def isCompetitionObject (participant : ℤ → Bool) (o : StoredObject) : Bool :=
  o.scope = .user && ! o.purpose.isAsset && o.ownerUserId.any participant

/-- `schedule_user_competition_object_deletion`; `participant` says that a user is
not an administrator. -/
def Database.scheduleUserCompetitionObjectDeletion (db : Database) (now : Time)
    (participant : ℤ → Bool) : Database :=
  db.retireWhere now (isCompetitionObject participant)

end CtfZone.Storage
