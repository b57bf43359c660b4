/-
# How the storage tables change

Every transaction on the storage tables is a sequence of a few changes
(`Change`): a row is inserted, an object is promoted, failed, retired or
finished, an operation is queued, reopened or closed.  What a row can become is
said once for each of them.

* `Becomes` : what a row of `stored_objects` may become, along `Edge`;
* `RowsKeep`, `OpsKeep` : the rows of the two tables that persist;
* `Database.Sound` : ids are unique, and an object on its way out has the
  cleanups it needs in the queue.
-/
import CtfZone.StorageSystem
import Mathlib.Data.List.Nodup
import Mathlib.Logic.Relation

namespace CtfZone.Storage

open Tables Relation

/-! ## The life of an object -/

/-- The status an object may have next. -/
def Status.Next : Status → Status → Prop
  | .pending, .ready | .pending, .failed | .pending, .deleting => True
  | .ready, .deleting | .failed, .deleting | .deleting, .deleted => True
  | _, _ => False

/-- One change of the status of an object, and of its revision. -/
inductive Edge : Status × ℤ → Status × ℤ → Prop
  | next {a b : Status} (h : a.Next b) (revision : ℤ) : Edge (a, revision) (b, revision + 1)

/-- A property of the status that every edge keeps. -/
theorem path_keeps {P : Status → Prop} (hP : ∀ a b : Status, a.Next b → P a → P b)
    {p q : Status × ℤ} (h : ReflTransGen Edge p q) (hp : P p.1) : P q.1 := by
  induction h with
  | refl => exact hp
  | tail _ hstep ih =>
      obtain ⟨hnext, revision⟩ := hstep
      exact hP _ _ hnext ih

/-- An object that is failed, to be deleted or deleted stays so. -/
def Status.Lost (status : Status) : Prop :=
  status = .failed ∨ status = .deleting ∨ status = .deleted

theorem path_lost {p q : Status × ℤ} (h : ReflTransGen Edge p q) (hp : p.1.Lost) : q.1.Lost := by
  refine path_keeps (fun a b hnext ha => ?_) h hp
  cases a <;> cases b <;> simp_all [Status.Next, Status.Lost]

/-- What a row may become: its identity stays, its status follows the edges, and
what it belongs to stays as long as it is not lost. -/
structure Becomes (o o' : StoredObject) : Prop where
  id : o'.id = o.id
  purpose : o'.purpose = o.purpose
  scope : o'.scope = o.scope
  uploadExpiresAt : o'.uploadExpiresAt = o.uploadExpiresAt
  expectedIcon : o'.expectedIcon = o.expectedIcon
  target : o'.status.Lost ∨ o'.target = o.target
  path : ReflTransGen Edge (o.status, o.revision) (o'.status, o'.revision)

theorem Becomes.refl (o : StoredObject) : Becomes o o :=
  ⟨rfl, rfl, rfl, rfl, rfl, .inr rfl, .refl⟩

theorem Becomes.trans {o o' o'' : StoredObject} (h : Becomes o o') (h' : Becomes o' o'') :
    Becomes o o'' := by
  refine ⟨h'.id.trans h.id, h'.purpose.trans h.purpose, h'.scope.trans h.scope,
    h'.uploadExpiresAt.trans h.uploadExpiresAt, h'.expectedIcon.trans h.expectedIcon, ?_,
    h.path.trans h'.path⟩
  rcases h'.target with hlost | htarget'
  · exact .inl hlost
  · rcases h.target with hlost | htarget
    · exact .inl (path_lost h'.path hlost)
    · exact .inr (htarget'.trans htarget)

/-- A row in its next status. -/
theorem Becomes.moved {o : StoredObject} {status : Status} (h : o.status.Next status) :
    Becomes o (o.moved status) :=
  ⟨rfl, rfl, rfl, rfl, rfl, .inr rfl, .single (.next h o.revision)⟩

/-- A path either stays where it is or raises the revision. -/
theorem path_revision {p q : Status × ℤ} (h : ReflTransGen Edge p q) : p = q ∨ p.2 < q.2 := by
  induction h with
  | refl => exact .inl rfl
  | tail _ hstep ih =>
      obtain ⟨-, revision⟩ := hstep
      right
      rcases ih with rfl | hlt
      · exact Int.lt_succ revision
      · exact Int.lt_trans hlt (Int.lt_succ revision)

/-- A property of the status that every edge keeps. -/
theorem Becomes.keeps {P : Status → Prop} (hP : ∀ a b : Status, a.Next b → P a → P b)
    {o o' : StoredObject} (h : Becomes o o') (ho : P o.status) : P o'.status :=
  path_keeps hP h.path ho

/-- An object that is no longer pending never is again. -/
theorem Becomes.not_pending {o o' : StoredObject} (h : Becomes o o')
    (ho : o.status ≠ .pending) : o'.status ≠ .pending := by
  refine h.keeps (P := (· ≠ .pending)) (fun a b hnext ha => ?_) ho
  cases a <;> cases b <;> simp_all [Status.Next]

theorem Becomes.lost {o o' : StoredObject} (h : Becomes o o') (ho : o.status.Lost) :
    o'.status.Lost :=
  path_lost h.path ho

theorem Status.Lost.not_pending {status : Status} (h : status.Lost) : status ≠ .pending := by
  rintro rfl
  rcases h with h | h | h <;> cases h

/-! ## Rows that persist -/

/-- The states of an object from its insertion on. -/
def StoredObject.Begun (o : StoredObject) : Prop :=
  ReflTransGen Edge (.pending, 1) (o.status, o.revision)

/-- Every object is still there, and every object that was not began as pending. -/
structure RowsKeep (db db' : Database) : Prop where
  persist : Persist Becomes db.objects db'.objects
  origin : ∀ o' ∈ db'.objects, (∃ o ∈ db.objects, Becomes o o') ∨
    o'.Begun ∧ ∀ o ∈ db.objects, o.id ≠ o'.id

theorem RowsKeep.of_objects {db db' : Database} (h : db'.objects = db.objects) :
    RowsKeep db db' := by
  constructor
  · rw [h]
    exact Persist.refl Becomes.refl db.objects
  · rw [h]
    exact fun o ho => .inl ⟨o, ho, Becomes.refl o⟩

theorem RowsKeep.trans {db db' db'' : Database} (h : RowsKeep db db') (h' : RowsKeep db' db'') :
    RowsKeep db db'' := by
  refine ⟨Persist.trans (R := Becomes) (fun _ _ _ => Becomes.trans) h.persist h'.persist,
    fun o'' ho'' => ?_⟩
  rcases h'.origin o'' ho'' with ⟨o', ho', hb'⟩ | ⟨hbegun, hnew⟩
  · rcases h.origin o' ho' with ⟨o, ho, hb⟩ | ⟨hbegun, hnew⟩
    · exact .inl ⟨o, ho, hb.trans hb'⟩
    · refine .inr ⟨hbegun.trans hb'.path, fun o ho => ?_⟩
      rw [hb'.id]
      exact hnew o ho
  · refine .inr ⟨hbegun, fun o ho heq => ?_⟩
    obtain ⟨o', ho', hb⟩ := h.persist o ho
    exact hnew o' ho' (hb.id.trans heq)

/-- Rows that are rewritten in place. -/
theorem RowsKeep.map {db db' : Database} {f : StoredObject → StoredObject}
    (h : db'.objects = db.objects.map f) (hf : ∀ o ∈ db.objects, Becomes o (f o)) :
    RowsKeep db db' := by
  constructor
  · intro o ho
    exact ⟨f o, by rw [h]; exact List.mem_map_of_mem ho, hf o ho⟩
  · intro o' ho'
    rw [h] at ho'
    obtain ⟨o, ho, rfl⟩ := List.mem_map.mp ho'
    exact .inl ⟨o, ho, hf o ho⟩

/-- What an operation is about. -/
def ObjectOperation.key (op : ObjectOperation) : ℕ × Uuid × Kind × ℤ :=
  (op.id, op.objectId, op.kind, op.objectRevision)

/-- Every operation is about what it was about, and new ones have new ids. -/
structure OpsKeep (db db' : Database) : Prop where
  nextOperation : db.nextOperation ≤ db'.nextOperation
  persist : Persist (fun op op' => op'.key = op.key) db.operations db'.operations
  origin : ∀ op' ∈ db'.operations, (∃ op ∈ db.operations, op'.key = op.key) ∨
    db.nextOperation ≤ op'.id

theorem OpsKeep.of_operations {db db' : Database} (h : db'.operations = db.operations)
    (hn : db'.nextOperation = db.nextOperation) : OpsKeep db db' := by
  refine ⟨Nat.le_of_eq hn.symm, ?_, ?_⟩
  · rw [h]
    exact fun op hop => ⟨op, hop, rfl⟩
  · rw [h]
    exact fun op hop => .inl ⟨op, hop, rfl⟩

theorem OpsKeep.trans {db db' db'' : Database} (h : OpsKeep db db') (h' : OpsKeep db' db'') :
    OpsKeep db db'' := by
  refine ⟨Nat.le_trans h.nextOperation h'.nextOperation,
    Persist.trans (fun _ _ _ hk hk' => hk'.trans hk) h.persist h'.persist, fun op'' hop'' => ?_⟩
  rcases h'.origin op'' hop'' with ⟨op', hop', hk'⟩ | hnew
  · rcases h.origin op' hop' with ⟨op, hop, hk⟩ | hnew
    · exact .inl ⟨op, hop, hk'.trans hk⟩
    · right
      have hid : op''.id = op'.id := congrArg Prod.fst hk'
      omega
  · right
    have := h.nextOperation
    omega

/-- An update that leaves what the operations are about. -/
theorem OpsKeep.update {db db' : Database} {p : ObjectOperation → Bool}
    {f : ObjectOperation → ObjectOperation}
    (h : db'.operations = Tables.update p f db.operations)
    (hn : db'.nextOperation = db.nextOperation)
    (hf : ∀ op ∈ db.operations, p op = true → (f op).key = op.key) : OpsKeep db db' := by
  refine ⟨Nat.le_of_eq hn.symm, ?_, ?_⟩
  · rw [h]
    exact Persist.update (fun _ => rfl) hf
  · rw [h]
    intro op' hop'
    obtain ⟨op, hop, ⟨hp, rfl⟩ | ⟨-, rfl⟩⟩ := mem_update.mp hop'
    · exact .inl ⟨op, hop, hf op hop hp⟩
    · exact .inl ⟨op, hop, rfl⟩

/-- The record of an operation that a worker keeps is about what the row is. -/
def Matches (db : Database) (op : ObjectOperation) : Prop :=
  op.id < db.nextOperation ∧ ∀ row ∈ db.operations, row.id = op.id → row.key = op.key

theorem Matches.keep {db db' : Database} {op : ObjectOperation} (h : Matches db op)
    (hkeep : OpsKeep db db') : Matches db' op := by
  refine ⟨Nat.lt_of_lt_of_le h.1 hkeep.nextOperation, fun row' hrow' hid => ?_⟩
  rcases hkeep.origin row' hrow' with ⟨row, hrow, hkey⟩ | hnew
  · have hid' : row'.id = row.id := congrArg Prod.fst hkey
    exact hkey.trans (h.2 row hrow (hid'.symm.trans hid))
  · have := h.1
    omega

/-! ## Changes -/

/-- Why operations are completed or given up, and objects finished. -/
structure Grounds where
  completes : ObjectOperation → Prop
  finishes : StoredObject → Prop
  givesUp : Database → ObjectOperation → Prop

/-- An operation that no longer fits its object: it was queued for another
revision, or for a status the object does not have. -/
def Outdated (db : Database) (op : ObjectOperation) : Prop :=
  ∃ o ∈ db.objects, o.id = op.objectId ∧ (o.revision ≠ op.objectRevision ∨
    match op.kind with
    | .reconcile => True
    | .deleteUpload => o.status = .pending
    | .delete => o.status = .pending ∨ o.status = .ready)

/-- The rows of an object that is failed. -/
def Database.fail (db : Database) (now : Time) (current : StoredObject) (cancel : Bool) :
    Database :=
  let failed := db.updateObject current (·.moved .failed)
  if cancel then
    ((failed.cancelOpen now current.id fun _ => true).enqueueOperation current.id .delete
      (current.revision + 1) now).enqueueOperation current.id .deleteUpload (current.revision + 1)
        (stagingCleanupAt current.uploadExpiresAt)
  else
    (failed.enqueueOperation current.id .deleteUpload (current.revision + 1)
      (stagingCleanupAt current.uploadExpiresAt)).enqueueOperation current.id .delete
        (current.revision + 1) now

/-- One change of the tables at an instant. -/
inductive Change (grounds : Grounds) (now : Time) (db : Database) : Database → Prop
  | insert (row : StoredObject) (status : row.status = .pending) (revision : row.revision = 1)
    (fresh : ∀ o ∈ db.objects, o.id ≠ row.id) :
    Change grounds now db { db with objects := db.objects ++ [row] }
  | enqueue (objectId : Uuid) (kind : Kind) (objectRevision : ℤ) (availableAt : Time)
    (fits : ∃ o ∈ db.objects, o.id = objectId ∧ (kind = .reconcile ∨ o.status ≠ .pending)) :
    Change grounds now db (db.enqueueOperation objectId kind objectRevision availableAt)
  | promote (current : StoredObject) (size : ℤ)
    (pending : ∀ o ∈ db.objects, o.id = current.id → o.revision = current.revision →
      o.status = .pending) :
    Change grounds now db
      (db.updateObject current fun o => { o.moved .ready with actualSize := some size })
  | fail (current : StoredObject) (cancel : Bool) (mem : current ∈ db.objects)
    (pending : current.status = .pending) : Change grounds now db (db.fail now current cancel)
  | retire (current : StoredObject)
    (mem : ∃ o ∈ db.objects, o.id = current.id ∧ o.status = current.status ∧
      o.revision = current.revision) : Change grounds now db (db.retire now current)
  | finish (current : StoredObject) (reason : grounds.finishes current)
    (deleting : ∀ o ∈ db.objects, o.id = current.id → o.revision = current.revision →
      o.status = .deleting) :
    Change grounds now db (db.updateObject current (·.moved .deleted))
  | detach (parent : Parent) (categories : List Category)
    (lost : ∀ o ∈ db.objects, parent.links o = true → o.status.Lost) :
    Change grounds now db { db with objects := db.objects.map parent.detach, categories }
  | icon (categories : List Category) : Change grounds now db { db with categories }
  | reopen (p : ObjectOperation → Bool) (f : ObjectOperation → ObjectOperation)
    (opened : ∀ op ∈ db.operations, p op = true →
      op.isOpen = true ∧ (f op).isOpen = true ∧ (f op).key = op.key) :
    Change grounds now db { db with operations := update p f db.operations }
  | cancel (p : ObjectOperation → Bool)
    (outdated : ∀ op ∈ db.operations, p op = true → op.isOpen = true ∧ Outdated db op) :
    Change grounds now db
      { db with operations := update p (·.closed .cancelled now) db.operations }
  | complete (op : ObjectOperation) (p : ObjectOperation → Bool) (reason : grounds.completes op)
    (held : ∀ row ∈ db.operations, p row = true → row.status = .claimed ∧ row.key = op.key) :
    Change grounds now db
      { db with operations := update p (·.closed .completed now) db.operations }
  | giveUp (op : ObjectOperation) (p : ObjectOperation → Bool) (reason : grounds.givesUp db op)
    (held : ∀ row ∈ db.operations, p row = true → row.status = .claimed ∧ row.key = op.key) :
    Change grounds now db
      { db with operations := update p (·.closed .failed now) db.operations }

/-- The changes of a transaction. -/
abbrev Changes (grounds : Grounds) (now : Time) : Database → Database → Prop :=
  ReflTransGen (Change grounds now)

/-! ## Statements and the rows they leave -/

@[simp] theorem enqueueOperation_objects (db : Database) (objectId : Uuid) (kind : Kind)
    (objectRevision : ℤ) (availableAt : Time) :
    (db.enqueueOperation objectId kind objectRevision availableAt).objects = db.objects := by
  unfold Database.enqueueOperation
  split <;> rfl

@[simp] theorem enqueueOperation_categories (db : Database) (objectId : Uuid) (kind : Kind)
    (objectRevision : ℤ) (availableAt : Time) :
    (db.enqueueOperation objectId kind objectRevision availableAt).categories =
      db.categories := by
  unfold Database.enqueueOperation
  split <;> rfl

@[simp] theorem cancelOpen_objects (db : Database) (now : Time) (objectId : Uuid)
    (kinds : Kind → Bool) : (db.cancelOpen now objectId kinds).objects = db.objects := rfl

@[simp] theorem updateObject_operations (db : Database) (current : StoredObject)
    (f : StoredObject → StoredObject) :
    (db.updateObject current f).operations = db.operations := rfl

/-- The queue after an insertion: one more row, unless one of its kind was open. -/
theorem enqueueOperation_cases (db : Database) (objectId : Uuid) (kind : Kind)
    (objectRevision : ℤ) (availableAt : Time) :
    db.hasOpen objectId kind = true ∧
        db.enqueueOperation objectId kind objectRevision availableAt = db ∨
      db.hasOpen objectId kind = false ∧
        (db.enqueueOperation objectId kind objectRevision availableAt).operations =
          db.operations ++ [⟨db.nextOperation, objectId, kind, objectRevision, .pending, 0,
            availableAt, none, none, none⟩] ∧
        (db.enqueueOperation objectId kind objectRevision availableAt).nextOperation =
          db.nextOperation + 1 := by
  unfold Database.enqueueOperation
  cases h : db.hasOpen objectId kind with
  | true => exact .inl ⟨rfl, rfl⟩
  | false => exact .inr ⟨rfl, rfl, rfl⟩

theorem OpsKeep.enqueueOperation (db : Database) (objectId : Uuid) (kind : Kind)
    (objectRevision : ℤ) (availableAt : Time) :
    OpsKeep db (db.enqueueOperation objectId kind objectRevision availableAt) := by
  rcases enqueueOperation_cases db objectId kind objectRevision availableAt with
    ⟨-, heq⟩ | ⟨-, hops, hnext⟩
  · rw [heq]
    exact .of_operations rfl rfl
  · refine ⟨by omega, ?_, ?_⟩
    · rw [hops]
      exact fun op hop => ⟨op, List.mem_append_left _ hop, rfl⟩
    · rw [hops]
      intro op hop
      rcases List.mem_append.mp hop with hop | hop
      · exact .inl ⟨op, hop, rfl⟩
      · rw [List.mem_singleton.mp hop]
        exact .inr (Nat.le_refl db.nextOperation)

theorem OpsKeep.cancelOpen (db : Database) (now : Time) (objectId : Uuid) (kinds : Kind → Bool) :
    OpsKeep db (db.cancelOpen now objectId kinds) :=
  .update rfl rfl fun _ _ _ => rfl

/-- A row that an update by id and revision does not match stays; one that it
matches is rewritten. -/
theorem mem_updateObject {db : Database} {current o' : StoredObject}
    {f : StoredObject → StoredObject} :
    o' ∈ (db.updateObject current f).objects ↔ ∃ o ∈ db.objects,
      (o.id = current.id ∧ o.revision = current.revision) ∧ f o = o' ∨
        ¬ (o.id = current.id ∧ o.revision = current.revision) ∧ o = o' := by
  unfold Database.updateObject
  rw [mem_update]
  refine exists_congr fun o => and_congr_right fun _ => ?_
  simp only [Bool.and_eq_true, decide_eq_true_eq, Bool.and_eq_false_iff, decide_eq_false_iff_not,
    not_and_or]

theorem RowsKeep.updateObject {db : Database} {current : StoredObject}
    {f : StoredObject → StoredObject}
    (hf : ∀ o ∈ db.objects, o.id = current.id → o.revision = current.revision →
      Becomes o (f o)) : RowsKeep db (db.updateObject current f) := by
  refine .map (f := updateRow (fun o => o.id = current.id && o.revision = current.revision) f)
    rfl fun o ho => ?_
  rcases updateRow_cases (fun o : StoredObject =>
    decide (o.id = current.id) && decide (o.revision = current.revision)) f o with
    ⟨-, heq⟩ | ⟨hp, heq⟩
  · rw [heq]
    exact Becomes.refl o
  · rw [heq]
    simp only [Bool.and_eq_true, decide_eq_true_eq] at hp
    exact hf o ho hp.1 hp.2

@[simp] theorem setNull_eq_some {α : Type} [DecidableEq α] {value a : α} {column : Option α} :
    setNull value column = some a ↔ column = some a ∧ a ≠ value := by
  unfold setNull
  split
  · rename_i h
    rw [h]
    simp [eq_comm]
  · rename_i h
    refine ⟨fun ha => ⟨ha, ?_⟩, And.left⟩
    rintro rfl
    exact h ha

/-- What a detached row keeps. -/
theorem detach_fields (parent : Parent) (o : StoredObject) :
    (parent.detach o).id = o.id ∧ (parent.detach o).purpose = o.purpose ∧
      (parent.detach o).scope = o.scope ∧ (parent.detach o).status = o.status ∧ (parent.detach o).revision = o.revision ∧
      (parent.detach o).uploadExpiresAt = o.uploadExpiresAt ∧
      (parent.detach o).expectedIcon = o.expectedIcon := by
  cases parent <;> exact ⟨rfl, rfl, rfl, rfl, rfl, rfl, rfl⟩

/-- A row without a link to the parent keeps what it belongs to. -/
theorem detach_target {parent : Parent} {o : StoredObject} (h : parent.links o = false) :
    (parent.detach o).target = o.target := by
  cases parent <;> simp_all [Parent.links, Parent.detach, setNull]

theorem Becomes.detach {parent : Parent} {o : StoredObject}
    (hlost : parent.links o = true → o.status.Lost) : Becomes o (parent.detach o) := by
  obtain ⟨hid, hpurpose, hscope, hstatus, hrevision, hexpires, hicon⟩ := detach_fields parent o
  refine ⟨hid, hpurpose, hscope, hexpires, hicon, ?_, by rw [hstatus, hrevision]⟩
  cases hlinks : parent.links o with
  | true =>
      rw [hstatus]
      exact .inl (hlost hlinks)
  | false => exact .inr (detach_target hlinks)

/-! ## Sound tables -/

/-- An operation serves an object at the revision it has. -/
structure ObjectOperation.Serves (op : ObjectOperation) (o : StoredObject) (kind : Kind) :
    Prop where
  objectId : op.objectId = o.id
  kind : op.kind = kind
  objectRevision : op.objectRevision = o.revision
  status : op.status ≠ .cancelled

/-- Ids are unique, and operations belong to objects; a pending object has only
been queued for reconciliation. -/
structure Database.Indexed (db : Database) : Prop where
  objects : (db.objects.map StoredObject.id).Nodup
  operations : Unique (fun op : ObjectOperation => some op.id) db.operations
  next : ∀ op ∈ db.operations, op.id < db.nextOperation
  known : ∀ op ∈ db.operations, ∃ o ∈ db.objects, o.id = op.objectId
  fresh : ∀ o ∈ db.objects, o.status = .pending → ∀ op ∈ db.operations, op.objectId = o.id →
    op.kind = .reconcile

/-- An object that is failed or to be deleted has the cleanups for it. -/
structure Database.Served (db : Database) : Prop where
  upload : ∀ o ∈ db.objects, o.status = .failed ∨ o.status = .deleting →
    ∃ op ∈ db.operations, op.Serves o .deleteUpload
  final : ∀ o ∈ db.objects, o.status = .failed → ∃ op ∈ db.operations, op.Serves o .delete

/-- Tables as the transactions keep them. -/
structure Database.Sound (db : Database) : Prop extends db.Indexed, db.Served

theorem Database.Indexed.eq_of_id {db : Database} (h : db.Indexed) {o o' : StoredObject}
    (ho : o ∈ db.objects) (ho' : o' ∈ db.objects) (hid : o.id = o'.id) : o = o' :=
  List.inj_on_of_nodup_map h.objects ho ho' hid

theorem Database.Indexed.op_eq_of_id {db : Database} (h : db.Indexed) {op op' : ObjectOperation}
    (hop : op ∈ db.operations) (hop' : op' ∈ db.operations) (hid : op.id = op'.id) : op = op' :=
  h.operations op hop op' hop' op.id rfl (congrArg some hid.symm)

/-- Rows rewritten in place stay unique, and what is pending was. -/
theorem Database.Indexed.map {db db' : Database} (h : db.Indexed)
    {f : StoredObject → StoredObject} (hobjects : db'.objects = db.objects.map f)
    (hops : db'.operations = db.operations) (hnext : db'.nextOperation = db.nextOperation)
    (hid : ∀ o ∈ db.objects, (f o).id = o.id)
    (hpending : ∀ o ∈ db.objects, (f o).status = .pending → o.status = .pending) :
    db'.Indexed where
  objects := by
    have hids : db'.objects.map StoredObject.id = db.objects.map StoredObject.id := by
      rw [hobjects, List.map_map]
      exact List.map_congr_left hid
    rw [hids]
    exact h.objects
  operations := by
    rw [hops]
    exact h.operations
  next := by
    rw [hops, hnext]
    exact h.next
  known := by
    rw [hops, hobjects]
    intro op hop
    obtain ⟨o, ho, heq⟩ := h.known op hop
    exact ⟨f o, List.mem_map_of_mem ho, (hid o ho).trans heq⟩
  fresh := by
    rw [hops, hobjects]
    intro o' ho' hstatus op hop heq
    obtain ⟨o, ho, rfl⟩ := List.mem_map.mp ho'
    exact h.fresh o ho (hpending o ho hstatus) op hop (heq.trans (hid o ho))

/-- Operations rewritten in place, about what they were about. -/
theorem Database.Indexed.updateOperations {db : Database} (h : db.Indexed)
    {p : ObjectOperation → Bool} {f : ObjectOperation → ObjectOperation}
    (hf : ∀ op ∈ db.operations, p op = true → (f op).key = op.key) :
    Database.Indexed { db with operations := update p f db.operations } := by
  have horigin : ∀ op' ∈ update p f db.operations, ∃ op ∈ db.operations, op'.key = op.key := by
    intro op' hop'
    obtain ⟨op, hop, ⟨hp, rfl⟩ | ⟨-, rfl⟩⟩ := mem_update.mp hop'
    · exact ⟨op, hop, hf op hop hp⟩
    · exact ⟨op, hop, rfl⟩
  refine ⟨h.objects, h.operations.update fun op hop hp k hk => ?_, fun op' hop' => ?_,
    fun op' hop' => ?_, fun o ho hstatus op' hop' heq => ?_⟩
  · have hid : (f op).id = op.id := congrArg Prod.fst (hf op hop hp)
    rwa [hid] at hk
  · obtain ⟨op, hop, hkey⟩ := horigin op' hop'
    have hid : op'.id = op.id := congrArg Prod.fst hkey
    rw [hid]
    exact h.next op hop
  · obtain ⟨op, hop, hkey⟩ := horigin op' hop'
    obtain ⟨o, ho, heq⟩ := h.known op hop
    exact ⟨o, ho, heq.trans (congrArg (·.2.1) hkey).symm⟩
  · obtain ⟨op, hop, hkey⟩ := horigin op' hop'
    have hkind : op'.kind = op.kind := congrArg (·.2.2.1) hkey
    rw [hkind]
    exact h.fresh o ho hstatus op hop ((congrArg (·.2.1) hkey).symm.trans heq)

/-- An operation is queued for an object it fits. -/
theorem Database.Indexed.enqueueOperation {db : Database} (h : db.Indexed) {objectId : Uuid}
    {kind : Kind} {objectRevision : ℤ} {availableAt : Time}
    (hfits : ∃ o ∈ db.objects, o.id = objectId ∧ (kind = .reconcile ∨ o.status ≠ .pending)) :
    (db.enqueueOperation objectId kind objectRevision availableAt).Indexed := by
  rcases enqueueOperation_cases db objectId kind objectRevision availableAt with
    ⟨-, heq⟩ | ⟨-, hops, hnext⟩
  · rwa [heq]
  · obtain ⟨o, ho, hid, hkind⟩ := hfits
    refine ⟨by simpa using h.objects, ?_, ?_, ?_, ?_⟩
    · rw [hops]
      refine h.operations.insert fun op hop k hk hnew => ?_
      have hlt := h.next op hop
      have : op.id = db.nextOperation := Option.some.inj (hk.trans hnew.symm)
      omega
    · rw [hops, hnext]
      intro op hop
      rcases List.mem_append.mp hop with hop | hop
      · have := h.next op hop
        omega
      · rw [List.mem_singleton.mp hop]
        exact Nat.lt_succ_self db.nextOperation
    · rw [hops, enqueueOperation_objects]
      intro op hop
      rcases List.mem_append.mp hop with hop | hop
      · exact h.known op hop
      · rw [List.mem_singleton.mp hop]
        exact ⟨o, ho, hid⟩
    · rw [hops, enqueueOperation_objects]
      intro o' ho' hstatus op hop heq
      rcases List.mem_append.mp hop with hop | hop
      · exact h.fresh o' ho' hstatus op hop heq
      · rw [List.mem_singleton.mp hop] at heq ⊢
        have hsame : o = o' := h.eq_of_id ho ho' (hid.trans heq)
        rcases hkind with hkind | hkind
        · exact hkind
        · exact absurd (hsame ▸ hstatus) hkind

/-- A row updated by id and revision. -/
theorem Database.Indexed.updateObject {db : Database} (h : db.Indexed) {current : StoredObject}
    {f : StoredObject → StoredObject} (hid : ∀ o, (f o).id = o.id)
    (hpending : ∀ o, (f o).status ≠ .pending) : (db.updateObject current f).Indexed := by
  refine h.map (f := updateRow (fun o => o.id = current.id && o.revision = current.revision) f)
    rfl rfl rfl (fun o _ => ?_) fun o _ hstatus => ?_
  · rcases updateRow_cases (fun o : StoredObject =>
      decide (o.id = current.id) && decide (o.revision = current.revision)) f o with
      ⟨-, heq⟩ | ⟨-, heq⟩
    · rw [heq]
    · rw [heq, hid]
  · rcases updateRow_cases (fun o : StoredObject =>
      decide (o.id = current.id) && decide (o.revision = current.revision)) f o with
      ⟨-, heq⟩ | ⟨-, heq⟩
    · rwa [heq] at hstatus
    · rw [heq] at hstatus
      exact absurd hstatus (hpending o)

/-- The cleanups of an object that stays as it is stay in the queue, and an
object whose status changes has them queued. -/
theorem Database.Served.step {db db' : Database} (h : db.Served)
    (hrows : ∀ o' ∈ db'.objects, o'.status = .failed ∨ o'.status = .deleting →
      (∃ o ∈ db.objects, o.id = o'.id ∧ o.status = o'.status ∧ o.revision = o'.revision ∧
        ∀ op ∈ db.operations, ∀ kind, op.Serves o kind →
          kind = .deleteUpload ∨ kind = .delete ∧ o.status = .failed →
          ∃ op' ∈ db'.operations, op'.key = op.key ∧ op'.status ≠ .cancelled) ∨
      (∃ op ∈ db'.operations, op.Serves o' .deleteUpload) ∧
        ∃ op ∈ db'.operations, op.Serves o' .delete) : db'.Served := by
  have hserves {op op' : ObjectOperation} {o o' : StoredObject} {kind : Kind}
      (hs : op.Serves o kind) (hid : o.id = o'.id) (hrevision : o.revision = o'.revision)
      (hkey : op'.key = op.key) (hstatus : op'.status ≠ .cancelled) : op'.Serves o' kind :=
    ⟨(congrArg (·.2.1) hkey).trans (hs.objectId.trans hid),
      (congrArg (·.2.2.1) hkey).trans hs.kind,
      (congrArg (·.2.2.2) hkey).trans (hs.objectRevision.trans hrevision), hstatus⟩
  constructor
  · intro o' ho' hstatus
    rcases hrows o' ho' hstatus with ⟨o, ho, hid, hst, hrevision, hkeep⟩ | ⟨hupload, -⟩
    · rw [← hst] at hstatus
      obtain ⟨op, hop, hs⟩ := h.upload o ho hstatus
      obtain ⟨op', hop', hkey, hopen⟩ := hkeep op hop .deleteUpload hs (.inl rfl)
      exact ⟨op', hop', hserves hs hid hrevision hkey hopen⟩
    · exact hupload
  · intro o' ho' hstatus
    rcases hrows o' ho' (.inl hstatus) with ⟨o, ho, hid, hst, hrevision, hkeep⟩ | ⟨-, hfinal⟩
    · rw [← hst] at hstatus
      obtain ⟨op, hop, hs⟩ := h.final o ho hstatus
      obtain ⟨op', hop', hkey, hopen⟩ := hkeep op hop .delete hs (.inr ⟨rfl, hstatus⟩)
      exact ⟨op', hop', hserves hs hid hrevision hkey hopen⟩
    · exact hfinal

/-- Both cleanups are queued where none of them is open. -/
theorem enqueue_serves {db : Database} (o : StoredObject) {k k' : Kind} (t t' : Time)
    (hk : k ≠ k') (hopen : db.hasOpen o.id k = false) (hopen' : db.hasOpen o.id k' = false) :
    let queued := (db.enqueueOperation o.id k o.revision t).enqueueOperation o.id k' o.revision t'
    (∃ op ∈ queued.operations, op.Serves o k) ∧ (∃ op ∈ queued.operations, op.Serves o k') ∧
      ∀ op ∈ db.operations, op ∈ queued.operations := by
  intro queued
  rcases enqueueOperation_cases db o.id k o.revision t with ⟨h, -⟩ | ⟨-, hops, -⟩
  · rw [hopen] at h
    cases h
  rcases enqueueOperation_cases (db.enqueueOperation o.id k o.revision t) o.id k' o.revision t'
    with ⟨h, -⟩ | ⟨-, hops', -⟩
  · -- the row that has just been queued is of the other kind
    obtain ⟨op, hop, hp⟩ := List.any_eq_true.mp h
    simp only [Bool.and_eq_true, decide_eq_true_eq] at hp
    rw [hops] at hop
    rcases List.mem_append.mp hop with hop | hop
    · have : db.hasOpen o.id k' = true :=
        List.any_eq_true.mpr ⟨op, hop, by simpa using hp⟩
      rw [hopen'] at this
      cases this
    · rw [List.mem_singleton.mp hop] at hp
      exact absurd hp.1.2 hk
  · refine ⟨?_, ?_, ?_⟩
    · refine ⟨⟨db.nextOperation, o.id, k, o.revision, .pending, 0, t, none, none, none⟩, ?_,
        ⟨rfl, rfl, rfl, by simp⟩⟩
      rw [show queued.operations = _ from hops', hops]
      simp
    · refine ⟨⟨(db.enqueueOperation o.id k o.revision t).nextOperation, o.id, k', o.revision,
        .pending, 0, t', none, none, none⟩, ?_, ⟨rfl, rfl, rfl, by simp⟩⟩
      rw [show queued.operations = _ from hops']
      simp
    · intro op hop
      rw [show queued.operations = _ from hops', hops]
      simp [hop]

/-- What a row is after it has been moved on by its id and revision. -/
theorem mem_moved {db : Database} (h : db.Indexed) {current row o' : StoredObject}
    {status : Status} (hrow : row ∈ db.objects) (hid : row.id = current.id)
    (hrevision : row.revision = current.revision)
    (ho' : o' ∈ (db.updateObject current (·.moved status)).objects) :
    (o' = row.moved status ∧ o'.id = current.id ∧ o'.revision = current.revision + 1) ∨
      o' ∈ db.objects ∧ o'.id ≠ current.id := by
  obtain ⟨o, ho, ⟨⟨hoid, -⟩, rfl⟩ | ⟨hne, rfl⟩⟩ := mem_updateObject.mp ho'
  · have heq : o = row := h.eq_of_id ho hrow (hoid.trans hid.symm)
    rw [heq]
    exact .inl ⟨rfl, hid, congrArg (· + 1) hrevision⟩
  · refine .inr ⟨ho, fun hoid => hne ⟨hoid, ?_⟩⟩
    rw [h.eq_of_id ho hrow (hoid.trans hid.symm)]
    exact hrevision

/-- An object leaves with both cleanups queued. -/
theorem Database.Sound.exit {db db' : Database} (h : db.Sound) (status : Status)
    {current row : StoredObject} (hrow : row ∈ db.objects) (hid : row.id = current.id)
    (hrevision : row.revision = current.revision)
    (hobjects : db'.objects = (db.updateObject current (·.moved status)).objects)
    (hupload : ∃ op ∈ db'.operations, op.Serves (row.moved status) .deleteUpload)
    (hfinal : ∃ op ∈ db'.operations, op.Serves (row.moved status) .delete)
    (hothers : ∀ op ∈ db.operations, op.objectId ≠ current.id → op ∈ db'.operations) :
    db'.Served := by
  refine h.toServed.step fun o' ho' _ => ?_
  rw [hobjects] at ho'
  rcases mem_moved h.toIndexed hrow hid hrevision ho' with ⟨rfl, -, -⟩ | ⟨ho, hne⟩
  · exact .inr ⟨hupload, hfinal⟩
  · refine .inl ⟨o', ho, rfl, rfl, rfl, fun op hop kind hs _ => ⟨op, hothers op hop ?_, rfl,
      hs.status⟩⟩
    rw [hs.objectId]
    exact hne

/-- No operation of an object is open once all of them are cancelled. -/
theorem hasOpen_cancelOpen (db : Database) (now : Time) (objectId : Uuid) (kind : Kind) :
    (db.cancelOpen now objectId fun _ => true).hasOpen objectId kind = false := by
  rw [← Bool.not_eq_true]
  intro hopen
  obtain ⟨op, hop, hp⟩ := List.any_eq_true.mp hopen
  simp only [Bool.and_eq_true, decide_eq_true_eq] at hp
  obtain ⟨row, -, ⟨-, rfl⟩ | ⟨hrow, rfl⟩⟩ := mem_update.mp hop
  · exact absurd hp.2 (by simp [ObjectOperation.isOpen])
  · simp [hp.1.1, hp.2] at hrow

/-- The operations of other objects are not cancelled. -/
theorem mem_cancelOpen {db : Database} {now : Time} {objectId : Uuid} {kinds : Kind → Bool}
    {op : ObjectOperation} (hop : op ∈ db.operations) (hne : op.objectId ≠ objectId) :
    op ∈ (db.cancelOpen now objectId kinds).operations :=
  mem_update.mpr ⟨op, hop, .inr ⟨by simp [hne], rfl⟩⟩

theorem Database.Indexed.cancelOpen {db : Database} (h : db.Indexed) (now : Time)
    (objectId : Uuid) (kinds : Kind → Bool) : (db.cancelOpen now objectId kinds).Indexed :=
  h.updateOperations fun _ _ _ => rfl

theorem Database.Indexed.moved {db : Database} (h : db.Indexed) (current : StoredObject)
    {status : Status} (hstatus : status ≠ .pending) :
    (db.updateObject current (·.moved status)).Indexed :=
  h.updateObject (fun _ => rfl) fun _ => hstatus

/-- An object is moved on and both its cleanups are queued. -/
theorem Database.Sound.leave {db queue : Database} (h : db.Sound) (status : Status)
    {current row : StoredObject} {k k' : Kind} (hrow : row ∈ db.objects) (hid : row.id = current.id)
    (hrevision : row.revision = current.revision) (hstatus : status ≠ .pending)
    (hindexed : queue.Indexed)
    (hobjects : queue.objects = (db.updateObject current (·.moved status)).objects)
    (hopen : ∀ kind, kind ≠ .reconcile → queue.hasOpen current.id kind = false)
    (hothers : ∀ op ∈ db.operations, op.objectId ≠ current.id → op ∈ queue.operations)
    (hk : k = .deleteUpload ∧ k' = .delete ∨ k = .delete ∧ k' = .deleteUpload) (t t' : Time) :
    ((queue.enqueueOperation current.id k (current.revision + 1) t).enqueueOperation current.id k'
      (current.revision + 1) t').Sound := by
  have hmem : row.moved status ∈ queue.objects := by
    rw [hobjects]
    exact mem_updateObject.mpr ⟨row, hrow, .inl ⟨⟨hid, hrevision⟩, rfl⟩⟩
  have hserves : ∀ {op : ObjectOperation} {kind : Kind},
      op.Serves { current with revision := current.revision + 1 } kind →
        op.Serves (row.moved status) kind := fun hs =>
    ⟨hs.objectId.trans hid.symm, hs.kind,
      hs.objectRevision.trans (congrArg (· + 1) hrevision.symm), hs.status⟩
  have hne : k ≠ k' ∧ k ≠ .reconcile ∧ k' ≠ .reconcile := by
    rcases hk with ⟨rfl, rfl⟩ | ⟨rfl, rfl⟩ <;> exact ⟨by simp, by simp, by simp⟩
  obtain ⟨⟨op, hop, hs⟩, ⟨op', hop', hs'⟩, hkept⟩ :=
    enqueue_serves { current with revision := current.revision + 1 } t t' hne.1 (hopen k hne.2.1) (hopen k' hne.2.2)
  have hfits : ∃ o ∈ queue.objects, o.id = current.id ∧ o.status ≠ .pending :=
    ⟨_, hmem, hid, hstatus⟩
  obtain ⟨o, ho, hoid, hopending⟩ := hfits
  refine ⟨Indexed.enqueueOperation (Indexed.enqueueOperation hindexed ?_) ?_, ?_⟩
  · exact ⟨o, ho, hoid, .inr hopending⟩
  · exact ⟨o, by simpa using ho, hoid, .inr hopending⟩
  · refine h.exit status hrow hid hrevision (by simpa using hobjects) ?_ ?_
      fun op hop hne => hkept op (hothers op hop hne)
    · rcases hk with ⟨rfl, rfl⟩ | ⟨rfl, rfl⟩
      · exact ⟨op, hop, hserves hs⟩
      · exact ⟨op', hop', hserves hs'⟩
    · rcases hk with ⟨rfl, rfl⟩ | ⟨rfl, rfl⟩
      · exact ⟨op', hop', hserves hs'⟩
      · exact ⟨op, hop, hserves hs⟩

/-- A retired object leaves sound tables. -/
theorem Database.Sound.retire {db : Database} (h : db.Sound) (now : Time)
    {current row : StoredObject} (hrow : row ∈ db.objects) (hid : row.id = current.id)
    (hrevision : row.revision = current.revision) : (db.retire now current).Sound := by
  unfold Database.retire
  split
  · exact h
  · refine h.leave .deleting hrow hid hrevision (by simp)
      ((h.moved current (by simp)).cancelOpen _ _ _) rfl (fun kind _ => hasOpen_cancelOpen _ _ _ _)
      (fun op hop hne => mem_cancelOpen hop hne) (.inl ⟨rfl, rfl⟩) _ _

/-- A pending object has no cleanup in the queue. -/
theorem Database.Indexed.hasOpen_pending {db : Database} (h : db.Indexed) {o : StoredObject}
    (ho : o ∈ db.objects) (hstatus : o.status = .pending) {kind : Kind}
    (hkind : kind ≠ .reconcile) : db.hasOpen o.id kind = false := by
  rw [← Bool.not_eq_true]
  intro hopen
  obtain ⟨op, hop, hp⟩ := List.any_eq_true.mp hopen
  simp only [Bool.and_eq_true, decide_eq_true_eq] at hp
  exact hkind (hp.1.2.symm.trans (h.fresh o ho hstatus op hop hp.1.1))

/-- A failed object leaves sound tables. -/
theorem Database.Sound.fail {db : Database} (h : db.Sound) (now : Time) {current : StoredObject}
    (hmem : current ∈ db.objects) (hstatus : current.status = .pending) (cancel : Bool) :
    (db.fail now current cancel).Sound := by
  unfold Database.fail
  cases cancel with
  | true =>
      exact h.leave .failed hmem rfl rfl (by simp)
        ((h.moved current (by simp)).cancelOpen _ _ _) rfl
        (fun kind _ => hasOpen_cancelOpen _ _ _ _) (fun op hop hne => mem_cancelOpen hop hne)
        (.inr ⟨rfl, rfl⟩) _ _
  | false =>
      exact h.leave .failed hmem rfl rfl (by simp) (h.moved current (by simp)) rfl
        (fun kind hkind => h.hasOpen_pending hmem hstatus hkind) (fun op hop _ => hop)
        (.inl ⟨rfl, rfl⟩) _ _

/-- A new row is pending and no operation knows it. -/
theorem Database.Sound.insert {db : Database} (h : db.Sound) {row : StoredObject}
    (hstatus : row.status = .pending) (hfresh : ∀ o ∈ db.objects, o.id ≠ row.id) :
    Database.Sound { db with objects := db.objects ++ [row] } := by
  have hold : ∀ o ∈ db.objects, o ∈ db.objects ++ [row] := fun o => List.mem_append_left [row]
  refine ⟨⟨?_, h.operations, h.next, fun op hop => ?_,
    fun o ho hpending op hop heq => ?_⟩, h.toServed.step fun o' ho' hleft => ?_⟩
  · have hids : (db.objects ++ [row]).map StoredObject.id =
        (db.objects.map StoredObject.id).concat row.id := by simp
    rw [hids]
    refine List.Nodup.concat (fun hmem => ?_) h.objects
    obtain ⟨o, ho, hid⟩ := List.mem_map.mp hmem
    exact hfresh o ho hid
  · obtain ⟨o, ho, heq⟩ := h.known op hop
    exact ⟨o, hold o ho, heq⟩
  · rcases List.mem_append.mp ho with ho | ho
    · exact h.fresh o ho hpending op hop heq
    · obtain ⟨o', ho', heq'⟩ := h.known op hop
      rw [List.mem_singleton.mp ho] at heq
      exact absurd (heq'.trans heq) (hfresh o' ho')
  · rcases List.mem_append.mp ho' with ho | ho
    · exact .inl ⟨o', ho, rfl, rfl, rfl, fun op hop kind hs _ => ⟨op, hop, rfl, hs.status⟩⟩
    · rw [List.mem_singleton.mp ho, hstatus] at hleft
      rcases hleft with hleft | hleft <;> cases hleft

/-- An object moves on to a status without cleanups of its own. -/
theorem Database.Sound.updateObject {db : Database} (h : db.Sound) {current : StoredObject}
    {f : StoredObject → StoredObject} (hid : ∀ o, (f o).id = o.id)
    (hstatus : ∀ o, (f o).status = .ready ∨ (f o).status = .deleted) :
    (db.updateObject current f).Sound := by
  refine ⟨h.toIndexed.updateObject hid fun o hpending => ?_, h.toServed.step fun o' ho' hleft => ?_⟩
  · rcases hstatus o with hs | hs <;> rw [hs] at hpending <;> cases hpending
  · obtain ⟨o, ho, ⟨-, rfl⟩ | ⟨-, rfl⟩⟩ := mem_updateObject.mp ho'
    · rcases hstatus o with hs | hs <;> rw [hs] at hleft <;> rcases hleft with hleft | hleft <;>
        cases hleft
    · exact .inl ⟨o, ho, rfl, rfl, rfl, fun op hop kind hs _ => ⟨op, hop, rfl, hs.status⟩⟩

/-- Operations change, but none that serves an object is cancelled. -/
theorem Database.Sound.updateOperations {db : Database} (h : db.Sound)
    {p : ObjectOperation → Bool} {f : ObjectOperation → ObjectOperation}
    (hf : ∀ op ∈ db.operations, p op = true → (f op).key = op.key)
    (hserves : ∀ op ∈ db.operations, p op = true → ∀ o ∈ db.objects, ∀ kind, op.Serves o kind →
      o.status = .failed ∨ o.status = .deleting →
      kind = .deleteUpload ∨ kind = .delete ∧ o.status = .failed → (f op).status ≠ .cancelled) :
    Database.Sound { db with operations := update p f db.operations } := by
  refine ⟨h.toIndexed.updateOperations hf, h.toServed.step fun o ho hleft => .inl
    ⟨o, ho, rfl, rfl, rfl, fun op hop kind hs hkind => ?_⟩⟩
  refine ⟨updateRow p f op, List.mem_map_of_mem hop, ?_⟩
  rcases updateRow_cases p f op with ⟨-, heq⟩ | ⟨hp, heq⟩
  · rw [heq]
    exact ⟨rfl, hs.status⟩
  · rw [heq]
    exact ⟨hf op hop hp, hserves op hop hp o ho kind hs hleft hkind⟩

/-- An outdated operation serves no object on its way out. -/
theorem Outdated.not_serves {db : Database} (h : db.Indexed) {op : ObjectOperation}
    (hop : Outdated db op) {o : StoredObject} (ho : o ∈ db.objects) {kind : Kind}
    (hs : op.Serves o kind) (hleft : o.status = .failed ∨ o.status = .deleting)
    (hkind : kind = .deleteUpload ∨ kind = .delete ∧ o.status = .failed) : False := by
  obtain ⟨o', ho', hid, hreason⟩ := hop
  cases h.eq_of_id ho' ho (hid.trans hs.objectId)
  rcases hreason with hrevision | hreason
  · exact hrevision hs.objectRevision.symm
  · rw [hs.kind] at hreason
    rcases hkind with rfl | ⟨rfl, hfailed⟩
    · rw [show o.status = .pending from hreason] at hleft
      rcases hleft with h | h <;> cases h
    · rw [hfailed] at hreason
      rcases hreason with h | h <;> cases h

variable {grounds : Grounds} {now : Time} {db db' : Database}

/-- **Every change keeps the tables sound.** -/
theorem Change.sound (h : Change grounds now db db') (hs : db.Sound) : db'.Sound := by
  cases h with
  | insert row status revision fresh => exact hs.insert status fresh
  | enqueue objectId kind objectRevision availableAt fits =>
      refine ⟨hs.toIndexed.enqueueOperation fits, hs.toServed.step fun o ho _ => .inl
        ⟨o, by simpa using ho, rfl, rfl, rfl, fun op hop kind hserves _ => ?_⟩⟩
      refine ⟨op, ?_, rfl, hserves.status⟩
      rcases enqueueOperation_cases db objectId _ objectRevision availableAt with
        ⟨-, heq⟩ | ⟨-, hops, -⟩
      · rwa [heq]
      · rw [hops]
        exact List.mem_append_left _ hop
  | promote current size pending =>
      exact hs.updateObject (fun _ => rfl) fun _ => .inl rfl
  | fail current cancel mem pending => exact hs.fail now mem pending cancel
  | retire current mem =>
      obtain ⟨row, hrow, hid, -, hrevision⟩ := mem
      exact hs.retire now hrow hid hrevision
  | finish current reason deleting => exact hs.updateObject (fun _ => rfl) fun _ => .inr rfl
  | detach parent categories lost =>
      refine ⟨hs.toIndexed.map (f := parent.detach) rfl rfl rfl
        (fun o _ => (detach_fields parent o).1)
        (fun o _ hstatus => (detach_fields parent o).2.2.2.1.symm.trans hstatus),
        hs.toServed.step fun o' ho' _ => ?_⟩
      obtain ⟨o, ho, rfl⟩ := List.mem_map.mp ho'
      obtain ⟨hid, -, -, hstatus, hrevision, -⟩ := detach_fields parent o
      exact .inl ⟨o, ho, hid.symm, hstatus.symm, hrevision.symm,
        fun op hop kind hserves _ => ⟨op, hop, rfl, hserves.status⟩⟩
  | icon categories =>
      exact ⟨⟨hs.objects, hs.operations, hs.next, hs.known, hs.fresh⟩, ⟨hs.upload, hs.final⟩⟩
  | reopen p f opened =>
      refine hs.updateOperations (fun op hop hp => (opened op hop hp).2.2)
        fun op hop hp o _ kind _ _ _ => ?_
      have hopen := (opened op hop hp).2.1
      intro hcancelled
      simp [ObjectOperation.isOpen, hcancelled] at hopen
  | cancel p outdated =>
      refine hs.updateOperations (fun _ _ _ => rfl) fun op hop hp o ho kind hserves hleft hkind => ?_
      exact ((outdated op hop hp).2.not_serves hs.toIndexed ho hserves hleft hkind).elim
  | complete op p reason held =>
      exact hs.updateOperations (fun _ _ _ => rfl) fun op _ _ _ _ _ _ _ _ =>
        by simp [ObjectOperation.closed]
  | giveUp op p reason held =>
      exact hs.updateOperations (fun _ _ _ => rfl) fun op _ _ _ _ _ _ _ _ =>
        by simp [ObjectOperation.closed]

@[simp] theorem fail_objects (db : Database) (now : Time) (current : StoredObject)
    (cancel : Bool) :
    (db.fail now current cancel).objects = (db.updateObject current (·.moved .failed)).objects := by
  unfold Database.fail
  cases cancel <;> simp

theorem retire_objects (db : Database) (now : Time) (current : StoredObject) :
    (db.retire now current).objects =
      if current.status = .deleting ∨ current.status = .deleted then db.objects
      else (db.updateObject current (·.moved .deleting)).objects := by
  unfold Database.retire
  split <;> simp

/-- **What a change leaves of the objects.** -/
theorem Change.rows (h : Change grounds now db db') (hs : db.Indexed) : RowsKeep db db' := by
  cases h with
  | insert row status revision fresh =>
      refine ⟨Persist.insert Becomes.refl row, fun o ho => ?_⟩
      rcases List.mem_append.mp ho with ho | ho
      · exact .inl ⟨o, ho, Becomes.refl o⟩
      · rw [List.mem_singleton.mp ho]
        refine .inr ⟨?_, fresh⟩
        rw [StoredObject.Begun, status, revision]
  | enqueue => exact .of_objects (enqueueOperation_objects ..)
  | promote current size pending =>
      refine .updateObject fun o ho hid hrevision => ⟨rfl, rfl, rfl, rfl, rfl, .inr rfl, .single ?_⟩
      rw [pending o ho hid hrevision]
      exact .next (by trivial) o.revision
  | fail current cancel mem pending =>
      have hrows : RowsKeep db (db.updateObject current (·.moved .failed)) := by
        refine .updateObject fun o ho hid _ => .moved ?_
        rw [hs.eq_of_id ho mem hid, pending]
        trivial
      exact ⟨by simpa using hrows.persist, by simpa using hrows.origin⟩
  | retire current mem =>
      obtain ⟨row, hrow, hid, hstatus, -⟩ := mem
      by_cases hgone : current.status = .deleting ∨ current.status = .deleted
      · exact .of_objects (by rw [retire_objects, if_pos hgone])
      · have hrows : RowsKeep db (db.updateObject current (·.moved .deleting)) := by
          refine .updateObject fun o ho hoid _ => .moved ?_
          rw [hs.eq_of_id ho hrow (hoid.trans hid.symm), hstatus]
          revert hgone
          cases current.status <;> simp [Status.Next]
        have hobjects := retire_objects db now current
        rw [if_neg hgone] at hobjects
        exact ⟨by rw [hobjects]; exact hrows.persist, by rw [hobjects]; exact hrows.origin⟩
  | finish current reason deleting =>
      refine .updateObject fun o ho hid hrevision => .moved ?_
      rw [deleting o ho hid hrevision]
      trivial
  | detach parent categories lost => exact .map rfl fun o ho => Becomes.detach (lost o ho)
  | icon | reopen | cancel | complete | giveUp => exact .of_objects rfl

theorem OpsKeep.updateObject (db : Database) (current : StoredObject)
    (f : StoredObject → StoredObject) : OpsKeep db (db.updateObject current f) :=
  .of_operations rfl rfl

theorem OpsKeep.retire (db : Database) (now : Time) (current : StoredObject) :
    OpsKeep db (db.retire now current) := by
  unfold Database.retire
  split
  · exact .of_operations rfl rfl
  · exact (OpsKeep.updateObject db current _).trans ((OpsKeep.cancelOpen ..).trans
      ((OpsKeep.enqueueOperation ..).trans (OpsKeep.enqueueOperation ..)))

/-- What a change leaves of the operations. -/
theorem Change.ops (h : Change grounds now db db') : OpsKeep db db' := by
  cases h with
  | insert | promote | finish | detach | icon => exact .of_operations rfl rfl
  | enqueue => exact .enqueueOperation ..
  | fail current cancel =>
      unfold Database.fail
      cases cancel with
      | true =>
          exact (OpsKeep.updateObject db current _).trans ((OpsKeep.cancelOpen ..).trans
            ((OpsKeep.enqueueOperation ..).trans (OpsKeep.enqueueOperation ..)))
      | false =>
          exact (OpsKeep.updateObject db current _).trans
            ((OpsKeep.enqueueOperation ..).trans (OpsKeep.enqueueOperation ..))
  | retire current => exact .retire db now current
  | reopen p f opened => exact .update rfl rfl fun op hop hp => (opened op hop hp).2.2
  | cancel | complete | giveUp => exact .update rfl rfl fun _ _ _ => rfl

theorem Changes.sound (h : Changes grounds now db db') (hs : db.Sound) : db'.Sound := by
  induction h with
  | refl => exact hs
  | tail _ hchange ih => exact hchange.sound ih

theorem Changes.rows (h : Changes grounds now db db') (hs : db.Sound) : RowsKeep db db' := by
  induction h with
  | refl => exact .of_objects rfl
  | tail hbefore hchange ih => exact ih.trans (hchange.rows (Changes.sound hbefore hs).toIndexed)

theorem Changes.ops (h : Changes grounds now db db') : OpsKeep db db' := by
  induction h with
  | refl => exact .of_operations rfl rfl
  | tail _ hchange ih => exact ih.trans hchange.ops

/-! ## How operations end -/

/-- Operations are queued, reopened or cancelled, but none is completed or fails. -/
structure OpsQuiet (db db' : Database) : Prop where
  fate : ∀ op' ∈ db'.operations, op'.isOpen = true ∨ op'.status = .cancelled ∨
    ∃ op ∈ db.operations, op.key = op'.key ∧ op.status = op'.status

theorem OpsQuiet.of_operations {db db' : Database} (h : db'.operations = db.operations) :
    OpsQuiet db db' :=
  ⟨fun op hop => .inr (.inr ⟨op, h ▸ hop, rfl, rfl⟩)⟩

theorem OpsQuiet.trans {db db' db'' : Database} (h : OpsQuiet db db') (h' : OpsQuiet db' db'') :
    OpsQuiet db db'' := by
  refine ⟨fun op'' hop'' => ?_⟩
  rcases h'.fate op'' hop'' with hopen | hcancelled | ⟨op', hop', hkey', hstatus'⟩
  · exact .inl hopen
  · exact .inr (.inl hcancelled)
  · rcases h.fate op' hop' with hopen | hcancelled | ⟨op, hop, hkey, hstatus⟩
    · left
      simpa [ObjectOperation.isOpen, hstatus'] using hopen
    · exact .inr (.inl (hstatus'.symm.trans hcancelled))
    · exact .inr (.inr ⟨op, hop, hkey.trans hkey', hstatus.trans hstatus'⟩)

theorem OpsQuiet.enqueueOperation (db : Database) (objectId : Uuid) (kind : Kind)
    (objectRevision : ℤ) (availableAt : Time) :
    OpsQuiet db (db.enqueueOperation objectId kind objectRevision availableAt) := by
  rcases enqueueOperation_cases db objectId kind objectRevision availableAt with
    ⟨-, heq⟩ | ⟨-, hops, -⟩
  · exact .of_operations (by rw [heq])
  · refine ⟨fun op hop => ?_⟩
    rw [hops] at hop
    rcases List.mem_append.mp hop with hop | hop
    · exact .inr (.inr ⟨op, hop, rfl, rfl⟩)
    · rw [List.mem_singleton.mp hop]
      exact .inl rfl

theorem OpsQuiet.cancelOpen (db : Database) (now : Time) (objectId : Uuid)
    (kinds : Kind → Bool) : OpsQuiet db (db.cancelOpen now objectId kinds) := by
  refine ⟨fun op hop => ?_⟩
  obtain ⟨row, hrow, ⟨-, rfl⟩ | ⟨-, rfl⟩⟩ := mem_update.mp hop
  · exact .inr (.inl rfl)
  · exact .inr (.inr ⟨row, hrow, rfl, rfl⟩)

theorem OpsQuiet.updateObject (db : Database) (current : StoredObject)
    (f : StoredObject → StoredObject) : OpsQuiet db (db.updateObject current f) :=
  .of_operations (updateObject_operations db current f)

theorem OpsQuiet.exit {db db₁ : Database} {objectId objectId' : Uuid} {kind kind' : Kind}
    {revision revision' : ℤ} {t t' : Time} (h : OpsQuiet db db₁) :
    OpsQuiet db ((db₁.enqueueOperation objectId kind revision t).enqueueOperation objectId' kind'
      revision' t') :=
  h.trans ((OpsQuiet.enqueueOperation ..).trans (OpsQuiet.enqueueOperation ..))

/-- **How an operation ends in a change**: it is open or cancelled, it ended
before, or the change has grounds for its end. -/
theorem Change.fate (h : Change grounds now db db') : ∀ op' ∈ db'.operations,
    (op'.isOpen = true ∨ op'.status = .cancelled ∨
      ∃ op ∈ db.operations, op.key = op'.key ∧ op.status = op'.status) ∨
    (op'.status = .completed ∧ ∃ op, grounds.completes op ∧ op.key = op'.key) ∨
    (op'.status = .failed ∧ ∃ op, grounds.givesUp db op ∧ op.key = op'.key) := by
  have hquiet (hq : OpsQuiet db db') : ∀ op' ∈ db'.operations,
      (op'.isOpen = true ∨ op'.status = .cancelled ∨
        ∃ op ∈ db.operations, op.key = op'.key ∧ op.status = op'.status) ∨
      (op'.status = .completed ∧ ∃ op, grounds.completes op ∧ op.key = op'.key) ∨
      (op'.status = .failed ∧ ∃ op, grounds.givesUp db op ∧ op.key = op'.key) :=
    fun op hop => .inl (hq.fate op hop)
  cases h with
  | insert | promote | finish | detach | icon => exact hquiet (.of_operations rfl)
  | enqueue => exact hquiet (.enqueueOperation ..)
  | fail current cancel =>
      refine hquiet ?_
      unfold Database.fail
      cases cancel with
      | true => exact ((OpsQuiet.updateObject db current _).trans (.cancelOpen ..)).exit
      | false => exact (OpsQuiet.updateObject db current _).exit
  | retire current =>
      refine hquiet ?_
      unfold Database.retire
      split
      · exact .of_operations rfl
      · exact ((OpsQuiet.updateObject db current _).trans (.cancelOpen ..)).exit
  | reopen p f opened =>
      refine hquiet ⟨fun op hop => ?_⟩
      obtain ⟨row, hrow, ⟨hp, rfl⟩ | ⟨-, rfl⟩⟩ := mem_update.mp hop
      · exact .inl (opened row hrow hp).2.1
      · exact .inr (.inr ⟨row, hrow, rfl, rfl⟩)
  | cancel p =>
      refine hquiet ⟨fun op hop => ?_⟩
      obtain ⟨row, hrow, ⟨-, rfl⟩ | ⟨-, rfl⟩⟩ := mem_update.mp hop
      · exact .inr (.inl rfl)
      · exact .inr (.inr ⟨row, hrow, rfl, rfl⟩)
  | complete record p reason held =>
      intro op hop
      obtain ⟨row, hrow, ⟨hp, rfl⟩ | ⟨-, rfl⟩⟩ := mem_update.mp hop
      · exact .inr (.inl ⟨rfl, record, reason, (held row hrow hp).2.symm⟩)
      · exact .inl (.inr (.inr ⟨row, hrow, rfl, rfl⟩))
  | giveUp record p reason held =>
      intro op hop
      obtain ⟨row, hrow, ⟨hp, rfl⟩ | ⟨-, rfl⟩⟩ := mem_update.mp hop
      · exact .inr (.inr ⟨rfl, record, reason, (held row hrow hp).2.symm⟩)
      · exact .inl (.inr (.inr ⟨row, hrow, rfl, rfl⟩))

/-- A completed operation was completed before, or there were grounds for it. -/
theorem Changes.completed (h : Changes grounds now db db') {op' : ObjectOperation}
    (hop' : op' ∈ db'.operations) (hstatus : op'.status = .completed) :
    (∃ op ∈ db.operations, op.key = op'.key ∧ op.status = .completed) ∨
      ∃ op, grounds.completes op ∧ op.key = op'.key := by
  induction h generalizing op' with
  | refl => exact .inl ⟨op', hop', rfl, hstatus⟩
  | tail _ hchange ih =>
      rcases hchange.fate op' hop' with
        (hopen | hcancelled | ⟨op, hop, hkey, heq⟩) | ⟨-, hgrounds⟩ | ⟨hfailed, -⟩
      · simp [ObjectOperation.isOpen, hstatus] at hopen
      · rw [hstatus] at hcancelled
        cases hcancelled
      · rcases ih hop (heq.trans hstatus) with ⟨op₀, hop₀, hkey₀, h₀⟩ | ⟨op₀, h₀, hkey₀⟩
        · exact .inl ⟨op₀, hop₀, hkey₀.trans hkey, h₀⟩
        · exact .inr ⟨op₀, h₀, hkey₀.trans hkey⟩
      · exact .inr hgrounds
      · rw [hstatus] at hfailed
        cases hfailed

/-- An operation that has failed had failed before, or there were grounds to give it up. -/
theorem Changes.failed (h : Changes grounds now db db') {op' : ObjectOperation}
    (hop' : op' ∈ db'.operations) (hstatus : op'.status = .failed) :
    (∃ op ∈ db.operations, op.key = op'.key ∧ op.status = .failed) ∨
      ∃ before op, grounds.givesUp before op ∧ op.key = op'.key := by
  induction h generalizing op' with
  | refl => exact .inl ⟨op', hop', rfl, hstatus⟩
  | @tail before _ _ hchange ih =>
      rcases hchange.fate op' hop' with
        (hopen | hcancelled | ⟨op, hop, hkey, heq⟩) | ⟨hcompleted, -⟩ | ⟨-, op, hgrounds, hkey⟩
      · simp [ObjectOperation.isOpen, hstatus] at hopen
      · rw [hstatus] at hcancelled
        cases hcancelled
      · rcases ih hop (heq.trans hstatus) with ⟨op₀, hop₀, hkey₀, h₀⟩ | ⟨before, op₀, h₀, hkey₀⟩
        · exact .inl ⟨op₀, hop₀, hkey₀.trans hkey, h₀⟩
        · exact .inr ⟨before, op₀, h₀, hkey₀.trans hkey⟩
      · rw [hstatus] at hcompleted
        cases hcompleted
      · exact .inr ⟨before, op, hgrounds, hkey⟩

/-- A deleted object was deleted before, or there were grounds to finish it. -/
theorem Change.deleted (h : Change grounds now db db') {o' : StoredObject}
    (ho' : o' ∈ db'.objects) (hstatus : o'.status = .deleted) :
    (∃ o ∈ db.objects, o.id = o'.id ∧ o.status = .deleted) ∨
      ∃ current, grounds.finishes current ∧ current.id = o'.id := by
  have hsame (ho : o' ∈ db.objects) : ∃ o ∈ db.objects, o.id = o'.id ∧ o.status = .deleted :=
    ⟨o', ho, rfl, hstatus⟩
  cases h with
  | insert row hpending =>
      rcases List.mem_append.mp ho' with ho | ho
      · exact .inl (hsame ho)
      · rw [List.mem_singleton.mp ho, hpending] at hstatus
        cases hstatus
  | enqueue => exact .inl (hsame (by simpa using ho'))
  | promote current =>
      obtain ⟨o, ho, ⟨-, rfl⟩ | ⟨-, rfl⟩⟩ := mem_updateObject.mp ho'
      · cases hstatus
      · exact .inl (hsame ho)
  | fail current =>
      rw [fail_objects] at ho'
      obtain ⟨o, ho, ⟨-, rfl⟩ | ⟨-, rfl⟩⟩ := mem_updateObject.mp ho'
      · cases hstatus
      · exact .inl (hsame ho)
  | retire current =>
      rw [retire_objects] at ho'
      split at ho'
      · exact .inl (hsame ho')
      · obtain ⟨o, ho, ⟨-, rfl⟩ | ⟨-, rfl⟩⟩ := mem_updateObject.mp ho'
        · cases hstatus
        · exact .inl (hsame ho)
  | finish current reason =>
      obtain ⟨o, ho, ⟨hid, rfl⟩ | ⟨-, rfl⟩⟩ := mem_updateObject.mp ho'
      · exact .inr ⟨current, reason, hid.1.symm⟩
      · exact .inl (hsame ho)
  | detach parent =>
      obtain ⟨o, ho, rfl⟩ := List.mem_map.mp ho'
      obtain ⟨hid, -, -, hst, -⟩ := detach_fields parent o
      exact .inl ⟨o, ho, hid.symm, hst.symm.trans hstatus⟩
  | icon | reopen | cancel | complete | giveUp => exact .inl (hsame ho')

theorem Changes.deleted (h : Changes grounds now db db') {o' : StoredObject}
    (ho' : o' ∈ db'.objects) (hstatus : o'.status = .deleted) :
    (∃ o ∈ db.objects, o.id = o'.id ∧ o.status = .deleted) ∨
      ∃ current, grounds.finishes current ∧ current.id = o'.id := by
  induction h generalizing o' with
  | refl => exact .inl ⟨o', ho', rfl, hstatus⟩
  | tail _ hchange ih =>
      rcases hchange.deleted ho' hstatus with ⟨o, ho, hid, hdeleted⟩ | hgrounds
      · rcases ih ho hdeleted with ⟨o₀, ho₀, hid₀, h₀⟩ | ⟨o₀, h₀, hid₀⟩
        · exact .inl ⟨o₀, ho₀, hid₀.trans hid, h₀⟩
        · exact .inr ⟨o₀, h₀, hid₀.trans hid⟩
      · exact .inr hgrounds

end CtfZone.Storage
