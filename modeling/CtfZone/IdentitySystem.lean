/-
# The gateways and the queue of identity operations

The system of `identity.rs` and `ssh_hosts.rs`: any number of gateways claim operations, take the
lock of the host, ask whether the claim still stands, work on the identity directory, and report.
A worker may vanish at any point, with its lock; what it does under the lock is one step, which may
be cut off in the middle.  Sessions check the key pair of a host, or mark it for rotation, under
the same lock.

A `ssh-keygen` that outlives its gateway may go on at the pending names as long as their directory
is there, whoever has the lock.  No assumption is made on the clocks: the instants of the steps are
arbitrary.

* `System.step` : one step of anybody;
* `Promise` : what is known of the volumes, and what is promised beside a key;
* `Secure` : what holds of every state: what has been deleted is gone, and what is promised beside
  a key holds as long as the key is published.
-/
import CtfZone.IdentityQueue
import CtfZone.IdentityContracts
import CtfZone.Runs

namespace CtfZone.Ssh.Identity

open Effects Effects.Prog
open Tables Runs

/-! ## Workers -/

/-- Where a worker is with its operation. -/
inductive Phase
  | claimed
  /-- the lock of the host is held -/
  | locked
  /-- the lock is held, and the claim has been found to stand -/
  | authorized
  /-- the lock is released, and the result is to be reported -/
  | finished (result : Except String (Option IdentityMaterial))

/-- `process_operation`, of an operation that a gateway has claimed. -/
structure Worker where
  gateway : Uuid
  token : Uuid
  operationId : Uuid
  hostId : Uuid
  kind : OperationKind
  phase : Phase

/-- The worker holds the lock of its host. -/
def Worker.holdsLock (w : Worker) : Bool :=
  match w.phase with
  | .locked | .authorized => true
  | _ => false

/-- `operation_error_code`. -/
def operationErrorCode : OperationKind → String
  | .generate => "identity_generation_failed"
  | .delete => "identity_deletion_failed"

structure System where
  tables : IdentityTables
  volume : Uuid → Volume
  workers : List Worker
  /-- the claim tokens that have been drawn -/
  drawn : List Uuid

namespace System

variable (s : System)

def worker (token : Uuid) : Option Worker := s.workers.find? (·.token = token)

/-- Nobody holds the lock of a host. -/
def lockFree (hostId : Uuid) : Bool :=
  ! s.workers.any fun w => w.hostId = hostId && w.holdsLock

def setPhase (token : Uuid) (phase : Phase) : System :=
  { s with workers := update (·.token = token) (fun w => { w with phase }) s.workers }

def drop (token : Uuid) : System := { s with workers := s.workers.filter (·.token ≠ token) }

def setVolume (hostId : Uuid) (v : Volume) : System :=
  { s with volume := Function.update s.volume hostId v }

end System

/-! ## Steps -/

/-- The functions that the services call. -/
structure Tools where
  sha256 : List UInt8 → List UInt8
  /-- what `ssh-keygen -y` prints for the content of a private key -/
  derive : ByteArray → Option ByteArray

/-- A UUID as the gateways print it. -/
def hyphenated (id : Uuid) : BitVec 128 := BitVec.ofNat 128 id

/-- The requests of the administrators and of the sessions. -/
inductive HostRequest
  | createHost (hostId operationId : Uuid) (now : Time)
  | deleteHost (hostId operationId : Uuid) (now : Time)
  | retryIdentity (hostId operationId : Uuid) (now : Time)
  | reportIdentityInvalid (hostId : Uuid) (errorCode : String)

/-- The ids that a request draws are new. -/
def HostRequest.fresh (t : IdentityTables) : HostRequest → Bool
  | .createHost hostId operationId _ =>
    (t.hosts.all fun h => h.id ≠ hostId) && t.operations.all fun o => o.id ≠ operationId
  | .deleteHost _ operationId _ | .retryIdentity _ operationId _ =>
    t.operations.all fun o => o.id ≠ operationId
  | .reportIdentityInvalid _ _ => true

def HostRequest.apply (t : IdentityTables) : HostRequest → Except String IdentityTables
  | .createHost hostId operationId now => Identity.createHost hostId operationId now t
  | .deleteHost hostId operationId now => Identity.deleteHost hostId operationId now t
  | .retryIdentity hostId operationId now => Identity.retryIdentity hostId operationId now t
  | .reportIdentityInvalid hostId errorCode => Identity.reportIdentityInvalid hostId errorCode t

/-- What somebody does next. -/
inductive Label
  | request (request : HostRequest)
  | claim (gateway token : Uuid) (now : Time) (skipped : List Uuid)
  | lock (token : Uuid)
  | heartbeat (token : Uuid) (now : Time)
  | perform (token : Uuid) (env : Env)
  /-- a result is reported; `answered` says that the answer arrives -/
  | complete (token : Uuid) (now : Time) (answered : Bool)
  | fail (token : Uuid) (now : Time)
  | vanish (token : Uuid)
  | validate (hostId : Uuid) (expectedPublicKey expectedFingerprint : String) (env : Env)
  | mark (hostId : Uuid) (env : Env)
  /-- a `ssh-keygen` that has outlived its gateway -/
  | orphan (hostId : Uuid) (isPublic : Bool) (node : Option Node)

/-- The pending name that a `ssh-keygen` writes. -/
def pendingEntry (isPublic : Bool) : Entry :=
  if isPublic then .pendingPublicKey else .pendingPrivateKey

/-- What is done under the lock. -/
def operate (tools : Tools) (kind : OperationKind) (hostId : Uuid) :
    Gateway (Option IdentityMaterial) :=
  match kind with
  | .generate => do
    let material ← generateIdentityBlocking tools.sha256 tools.derive (hyphenated hostId)
    pure (some material)
  | .delete => do
    deleteIdentityBlocking
    pure none

/-- A worker reports its result. -/
def System.report (tools : Tools) (now : Time) (answered : Bool) (w : Worker)
    (result : Option IdentityMaterial) (s : System) : System :=
  match completeIdentityOperation tools.sha256 w.operationId w.gateway w.token
      (result.map (·.publicKey)) now s.tables with
  | .error error => s.setPhase w.token (.finished (.error error))
  | .ok t =>
    if answered then { s with tables := t }.drop w.token
    else { s with tables := t }.setPhase w.token (.finished (.error "request failed"))

/-- What a worker leaves when it has run. -/
def System.settle (w : Worker) (s : System) :
    Outcome String (Option IdentityMaterial) × Volume → System
  | (.done result, v) => (s.setVolume w.hostId v).setPhase w.token (.finished (.ok result))
  | (.raised error, v) => (s.setVolume w.hostId v).setPhase w.token (.finished (.error error))
  | (.halted, v) => (s.setVolume w.hostId v).drop w.token

/-- One step of the system. -/
@[simp] def System.step (tools : Tools) : Label → System → Option System
  | .request request, s =>
    if request.fresh s.tables then
      match request.apply s.tables with
      | .ok t => some { s with tables := t }
      | .error _ => some s
    else none
  | .claim gateway token now skipped, s =>
    if s.drawn.contains token then none
    else
      match claimIdentityOperation gateway token now skipped s.tables with
      | (none, t) => some { s with tables := t }
      | (some o, t) => some { s with
          tables := t, drawn := token :: s.drawn
          workers := s.workers ++ [{
            gateway, token, operationId := o.id, hostId := o.hostId, kind := o.kind
            phase := .claimed }] }
  | .lock token, s =>
    match s.worker token with
    | some { phase := .claimed, hostId, .. } =>
      if s.lockFree hostId then some (s.setPhase token .locked) else none
    | _ => none
  | .heartbeat token now, s =>
    match s.worker token with
    | some { phase := .locked, operationId, gateway, .. } =>
      match heartbeatIdentityOperation operationId gateway token now s.tables with
      | .ok t => some ({ s with tables := t }.setPhase token .authorized)
      | .error _ => some (s.drop token)
    | _ => none
  | .perform token env, s =>
    match s.worker token with
    | some w@{ phase := .authorized, .. } =>
      some (s.settle w (operate tools w.kind w.hostId env (s.volume w.hostId)))
    | _ => none
  | .complete token now answered, s =>
    match s.worker token with
    | some w@{ phase := .finished (.ok result), .. } => some (s.report tools now answered w result)
    | _ => none
  | .fail token now, s =>
    match s.worker token with
    | some { phase := .finished (.error _), operationId, gateway, kind, .. } =>
      match failIdentityOperation operationId gateway token (operationErrorCode kind) now
          s.tables with
      | .ok t => some ({ s with tables := t }.drop token)
      | .error _ => some (s.drop token)
    | _ => none
  | .vanish token, s => some (s.drop token)
  | .validate hostId expectedPublicKey expectedFingerprint env, s =>
    if s.lockFree hostId then
      some (s.setVolume hostId (validateIdentityBindingLocked tools.sha256 tools.derive
        (hyphenated hostId) expectedPublicKey expectedFingerprint env (s.volume hostId)).2)
    else none
  | .mark hostId env, s =>
    if s.lockFree hostId then
      some (s.setVolume hostId (markIdentityForRotationLocked env (s.volume hostId)).2)
    else none
  | .orphan hostId isPublic node, s =>
    some (s.setVolume hostId ((s.volume hostId).put (pendingEntry isPublic) node))

/-- There is nothing yet. -/
structure Initial (s : System) : Prop where
  hosts : s.tables.hosts = []
  operations : s.tables.operations = []
  workers : s.workers = []

/-! ## The invariant -/

/-- No generation is under way at a host. -/
def System.Idle (s : System) (hostId : Uuid) : Prop :=
  ∀ w ∈ s.workers, w.hostId = hostId → w.phase = .authorized → w.kind = .delete

/-- The claim of a worker stands. -/
def Worker.Current (w : Worker) (t : IdentityTables) : Prop :=
  ∃ o ∈ t.operations, o.id = w.operationId ∧ o.Holder w.token

/-- A host is not deleted. -/
def Visible (t : IdentityTables) (hostId : Uuid) : Prop :=
  ∃ h ∈ t.hosts, h.id = hostId ∧ h.deletedAt = none

/-- The workers have operations, claims are drawn once, and a lock is held once. -/
structure Consistent (s : System) : Prop where
  tables : Sound s.tables
  tokens : (s.workers.map Worker.token).Nodup
  drawn : ∀ w ∈ s.workers, w.token ∈ s.drawn
  matched : ∀ w ∈ s.workers, ∃ o ∈ s.tables.operations, o.id = w.operationId ∧
    o.hostId = w.hostId ∧ o.kind = w.kind
  claims : ∀ o ∈ s.tables.operations, ∀ token, o.Holder token → token ∈ s.drawn
  exclusive : ∀ w ∈ s.workers, ∀ w' ∈ s.workers, w.holdsLock = true → w'.holdsLock = true →
    w.hostId = w'.hostId → w.token = w'.token

/-- The identity of a host has been deleted, by a worker that is to report it or that has. -/
def Erasing (s : System) (hostId : Uuid) : Prop :=
  (∃ w ∈ s.workers, w.hostId = hostId ∧ w.kind = .delete ∧ ∃ r, w.phase = .finished (.ok r)) ∨
    ∃ o ∈ s.tables.operations, o.hostId = hostId ∧ o.kind = .delete ∧ o.state = .completed

/-- A key is published as the identity of a host, or a worker may still do so. -/
def Keeping (tools : Tools) (s : System) (hostId : Uuid) (blob : List UInt8) : Prop :=
  (∃ w ∈ s.workers, w.hostId = hostId ∧ w.kind = .generate ∧
      w.phase = .finished (.ok (some (materialOf tools.sha256 (hyphenated hostId) blob))) ∧
        w.Current s.tables ∧ Visible s.tables hostId) ∨
    ∃ h ∈ s.tables.hosts, h.id = hostId ∧ h.deletedAt = none ∧ h.identityState = .ready ∧
      h.sshPublicKey = some (bareText blob) ∧
        h.sshKeyFingerprint = some (fingerprint tools.sha256 blob)

/-- What is known of the volumes, and what is promised of a volume beside the key that a
generation returns: the operations keep the one and make the other. -/
structure Promise (tools : Tools) where
  before : Uuid → Volume → Prop
  after : Uuid → List UInt8 → Volume → Prop
  env : Env → Prop
  orphan : Option Node → Prop
  generate : ∀ hostId e, env e → Contract
    (generateIdentityBlocking tools.sha256 tools.derive (hyphenated hostId)) e (before hostId)
    (fun m v => before hostId v ∧ ∃ blob, validEd25519Blob blob = true ∧
      m = materialOf tools.sha256 (hyphenated hostId) blob ∧ after hostId blob v) (before hostId)
  delete : ∀ hostId e, Preserves deleteIdentityBlocking e (before hostId)
  marks : ∀ hostId, Marks (before hostId)
  marks' : ∀ hostId blob, Marks (after hostId blob)
  pending : ∀ hostId isPublic node v, orphan node → before hostId v →
    before hostId (v.put (pendingEntry isPublic) node)
  pending' : ∀ hostId blob isPublic node v, orphan node → after hostId blob v →
    after hostId blob (v.put (pendingEntry isPublic) node)

variable {tools : Tools} in
/-- What the environment and a `ssh-keygen` that is left behind may do. -/
def Promise.Allows (p : Promise tools) : Label → Prop
  | .perform _ env => p.env env
  | .orphan _ _ node => p.orphan node
  | _ => True

/-- **The invariant.** -/
structure Secure {tools : Tools} (p : Promise tools) (s : System) : Prop where
  consistent : Consistent s
  results : ∀ w ∈ s.workers, w.kind = .generate → ∀ r, w.phase = .finished (.ok r) →
    ∃ blob, validEd25519Blob blob = true ∧
      r = some (materialOf tools.sha256 (hyphenated w.hostId) blob)
  keys : ∀ h ∈ s.tables.hosts, h.deletedAt = none → h.identityState = .ready →
    ∃ blob, validEd25519Blob blob = true ∧ h.sshPublicKey = some (bareText blob) ∧
      h.sshKeyFingerprint = some (fingerprint tools.sha256 blob)
  erased : ∀ hostId, Erasing s hostId → s.volume hostId = .absent ∧ s.Idle hostId
  kept : ∀ hostId blob, Keeping tools s hostId blob →
    p.after hostId blob (s.volume hostId) ∧ s.Idle hostId
  volumes : ∀ hostId, p.before hostId (s.volume hostId)

end CtfZone.Ssh.Identity
