/-
# The identity directories of the SSH gateway

What `identity.rs` does to the directory of one host (`<root>/<uuid>`) while it holds the lock of
the host: a key pair is generated under pending names and published, it is validated, deleted, or
marked for rotation.

Every call that leaves the gateway is a `Step`: the environment lets it succeed, makes it fail, or
takes the process down with it, before or after it has taken effect.  A task that is dropped
while it holds the lock ends like a process that is taken down.  The directory of a host is a real
directory, or absent, or something that no path leads through.  What is written through a symbolic
link goes elsewhere.

* `generateIdentityBlocking`, `deleteIdentityBlocking`, `validateIdentityBindingLocked`,
  `markIdentityForRotationLocked` : the four operations.
-/
import CtfZone.Contracts
import CtfZone.TrustedKeys
import Mathlib

namespace CtfZone.Ssh.Identity

open Effects Effects.Prog

/-! ## Directories -/

/-- What stands at a path. -/
inductive Node
  | file (content : ByteArray) (mode : ℕ)
  | symlink
  /-- neither a regular file nor a link -/
  | folder
  deriving DecidableEq

def Node.isFolder : Node → Bool
  | .folder => true
  | _ => false

/-- The names of an identity directory. -/
inductive Entry
  /-- `id_ed25519` -/
  | privateKey
  /-- `id_ed25519.pub` -/
  | publicKey
  /-- `.id_ed25519.pending` -/
  | pendingPrivateKey
  /-- `.id_ed25519.pending.pub` -/
  | pendingPublicKey
  /-- `.rotation-required` -/
  | rotationRequired
  deriving DecidableEq

/-- An identity directory; `unexpected` says that it has an entry of another name. -/
structure Directory where
  node : Entry → Option Node
  unexpected : Bool

/-- What stands at the path of the directory. -/
inductive Volume
  | absent
  /-- not a real directory -/
  | obstructed
  | directory (d : Directory)

/-- A directory as `create_dir` leaves it. -/
def Directory.empty : Directory := { node := fun _ => none, unexpected := false }

/-- `read_dir` yields nothing. -/
def Directory.isEmpty (d : Directory) : Bool :=
  (d.node .privateKey).isNone && (d.node .publicKey).isNone && (d.node .pendingPrivateKey).isNone &&
    (d.node .pendingPublicKey).isNone && (d.node .rotationRequired).isNone && ! d.unexpected

namespace Volume

/-- The node of an entry. -/
def node (e : Entry) : Volume → Option Node
  | .directory d => d.node e
  | _ => none

/-- A directory with another node at one entry. -/
def put (e : Entry) (n : Option Node) : Volume → Volume
  | .directory d => .directory { d with node := fun e' => if e' = e then n else d.node e' }
  | v => v

/-- `symlink_metadata`; `none` stands for `NotFound`. -/
def lookup (e : Entry) : Volume → Except String (Option Node)
  | .obstructed => .error "Not a directory"
  | v => .ok (v.node e)

/-- `remove_file`, where `NotFound` is no error. -/
def unlink (e : Entry) (v : Volume) : Except String Volume :=
  match v.lookup e with
  | .error error => .error error
  | .ok none => .ok v
  | .ok (some .folder) => .error "Is a directory"
  | .ok (some _) => .ok (v.put e none)

/-- `set_permissions`. -/
def changeMode (e : Entry) (mode : ℕ) (v : Volume) : Except String Volume :=
  match v.node e with
  | some (.file content _) => .ok (v.put e (some (.file content mode)))
  | some _ => .ok v
  | none => .error "No such file or directory"

/-- `create_dir`. -/
def createDirectory : Volume → Except String Volume
  | .absent => .ok (.directory .empty)
  | _ => .error "File exists"

/-- `rename`; a folder and what is no folder do not replace each other. -/
def rename (source target : Entry) (v : Volume) : Except String Volume :=
  match v.node source with
  | none => .error "No such file or directory"
  | some n =>
    if (v.node target).any fun n' => n.isFolder != n'.isFolder then .error "Is a directory"
    else .ok ((v.put source none).put target (some n))

/-- `fs::write`; a file that is not there yet is created with `mode`. -/
def write (e : Entry) (mode : ℕ) (content : ByteArray) : Volume → Except String Volume
  | .directory d =>
    match d.node e with
    | none => .ok ((directory d).put e (some (.file content mode)))
    | some (.file _ mode) => .ok ((directory d).put e (some (.file content mode)))
    | some .symlink => .ok (directory d)
    | some .folder => .error "Is a directory"
  | .absent => .error "No such file or directory"
  | .obstructed => .error "Not a directory"

/-- `open` for writing with `O_NOFOLLOW`, and what is written then. -/
def writeNoFollow (e : Entry) (mode : ℕ) (content : ByteArray) (v : Volume) :
    Except String Volume :=
  match v.node e with
  | some .symlink => .error "Too many levels of symbolic links"
  | _ => v.write e mode content

/-- `remove_dir`. -/
def removeDirectory : Volume → Except String Volume
  | .directory d => if d.isEmpty then .ok .absent else .error "Directory not empty"
  | .absent => .error "No such file or directory"
  | .obstructed => .error "Not a directory"

end Volume

/-! ## The environment of one operation -/

/-- How a call ends; `took` says whether it took effect. -/
inductive Fault
  | none
  | error (took : Bool)
  | kill (took : Bool)
  deriving DecidableEq

/-- Where in an operation a call stands.  No operation makes one call twice in one stage. -/
inductive Stage
  | look | existing | clear | recover | publish | published | finish | delete | session
  deriving DecidableEq

/-- The calls that leave the gateway. -/
inductive Action
  | inspectDirectory | createDirectory | protectDirectory | listDirectory | removeDirectory
  | syncDirectory
  | inspect (e : Entry) | remove (e : Entry) | examine (e : Entry) | protect (e : Entry)
  | sync (e : Entry) | rename (target : Entry) | read (e : Entry) | create (e : Entry)
  | write (e : Entry) | derive | keygen
  deriving DecidableEq

/-- How `ssh-keygen` ends, where it is waited for. -/
inductive KeygenEnd
  | exited (success : Bool)
  | timedOut
  deriving DecidableEq

/-- What the outside world decides during one operation. -/
structure Env where
  fault : Stage → Action → Fault
  keygenEnd : KeygenEnd
  /-- what stands at the pending names when `ssh-keygen` has ended -/
  generated : Option Node × Option Node
  /-- the mode of a file that is created -/
  createMode : ℕ

/-- Nothing fails. -/
structure Env.Calm (env : Env) : Prop where
  fault : ∀ stage action, env.fault stage action = .none
  keygenEnd : env.keygenEnd = .exited true

/-- A part of the gateway, over the volume of one host. -/
abbrev Gateway := Prog Env String Volume

/-- The volume after a call that has failed. -/
def tookEffect (took : Bool) (effect : Volume → Except String Volume) (v : Volume) : Volume :=
  if took then
    match effect v with
    | .ok v' => v'
    | .error _ => v
  else v

/-- A call that changes the volume. -/
def call (stage : Stage) (action : Action) (effect : Volume → Except String Volume) :
    Gateway PUnit := fun env v =>
  match env.fault stage action with
  | .none =>
    match effect v with
    | .ok v' => (.done ⟨⟩, v')
    | .error error => (.raised error, v)
  | .error took => (.raised "i/o error", tookEffect took effect v)
  | .kill took => (.halted, tookEffect took effect v)

/-- A call that only looks at the volume. -/
def ask {α : Type} (stage : Stage) (action : Action) (f : Volume → Except String α) :
    Gateway α := fun env v =>
  match env.fault stage action with
  | .none =>
    match f v with
    | .ok a => (.done a, v)
    | .error error => (.raised error, v)
  | .error _ => (.raised "i/o error", v)
  | .kill _ => (.halted, v)

/-- `?` on a pure computation. -/
def lift {α : Type} : Except String α → Gateway α
  | .ok a => pure a
  | .error error => raise error

/-! ## Files -/

/-- A directory that is not there is created. -/
def makeDirectory : Volume → Gateway PUnit
  | .directory _ => pure ⟨⟩
  | .obstructed => raise "SSH identity path is not a real directory"
  | .absent => call .look .createDirectory Volume.createDirectory

/-- `ensure_private_directory`. -/
def ensurePrivateDirectory : Gateway PUnit := do
  let found ← ask .look .inspectDirectory .ok
  makeDirectory found
  call .look .protectDirectory .ok

/-- `path_entry_exists`. -/
def pathEntryExists (stage : Stage) (e : Entry) : Gateway Bool := do
  return (← ask stage (.inspect e) (·.lookup e)).isSome

/-- `regular_file_exists`. -/
def regularFileExists (stage : Stage) (e : Entry) : Gateway Bool := do
  match ← ask stage (.inspect e) (·.lookup e) with
  | some (.file _ _) => pure true
  | some _ => raise "SSH identity rotation marker is not a regular file"
  | none => pure false

/-- `remove_if_exists`. -/
def removeIfExists (stage : Stage) (e : Entry) : Gateway PUnit :=
  call stage (.remove e) (·.unlink e)

/-- `remove_file_entry_if_exists`. -/
def removeFileEntryIfExists (stage : Stage) (e : Entry) : Gateway PUnit := do
  match ← ask stage (.inspect e) (·.lookup e) with
  | some .folder => raise "refusing to remove non-file identity entry"
  | some _ => call stage (.remove e) (·.unlink e)
  | none => pure ⟨⟩

/-- `remove_regular_file_if_exists`. -/
def removeRegularFileIfExists (stage : Stage) (e : Entry) : Gateway PUnit := do
  match ← ask stage (.inspect e) (·.lookup e) with
  | some (.file _ _) => call stage (.remove e) (·.unlink e)
  | some _ => raise "refusing to remove non-regular identity entry"
  | none => pure ⟨⟩

/-- `protect_file`, with mode 600. -/
def protectFile (stage : Stage) (e : Entry) : Gateway PUnit := do
  match ← ask stage (.examine e) (·.lookup e) with
  | some (.file _ _) => call stage (.protect e) (·.changeMode e 0o600)
  | some _ => raise "SSH identity material is not a regular file"
  | none => raise "failed to inspect"

/-- `fsync_file_blocking`. -/
def fsyncFile (stage : Stage) (e : Entry) : Gateway PUnit :=
  ask stage (.sync e) fun v =>
    if (v.node e).isSome then .ok ⟨⟩ else .error "No such file or directory"

/-- `fsync_directory_blocking`. -/
def fsyncDirectory (stage : Stage) : Gateway PUnit := call stage .syncDirectory .ok

/-- `read_bounded` of the public key, where an error is nothing. -/
def readPublicKey (stage : Stage) : Gateway (Option String) :=
  attempt
    (ask stage (.read .publicKey) fun v =>
      match v.node .publicKey with
      | some (.file content _) =>
        if 1024 < content.size then .error "SSH public key file is too large"
        else .ok (String.fromUTF8? content)
      | _ => .error "SSH public key file cannot be read")
    fun _ => pure none

/-- `write_rotation_marker`. -/
def writeRotationMarker : Gateway PUnit := do
  call .session (.create .rotationRequired)
    (·.writeNoFollow .rotationRequired 0o600 ByteArray.empty)
  call .session (.write .rotationRequired)
    (·.writeNoFollow .rotationRequired 0o600 "rotate\n".toUTF8)
  fsyncFile .session .rotationRequired
  fsyncDirectory .session

/-! ## Operations -/

section Operations

variable (sha256 : List UInt8 → List UInt8)
  -- what `ssh-keygen -y` prints for the content of a private key
  (derive : ByteArray → Option ByteArray)

/-- `ssh-keygen -y`. -/
def derivePublicKey (stage : Stage) : Gateway String :=
  ask stage .derive fun v =>
    match v.node .privateKey with
    | some (.file content _) =>
      match derive content with
      | none => .error "stored SSH private key is invalid"
      | some output =>
        if 1024 < output.size then .error "stored SSH private key is invalid"
        else
          match String.fromUTF8? output with
          | none => .error "ssh-keygen returned a non-UTF-8 public key"
          | some derived => .ok derived
    | _ => .error "stored SSH private key is invalid"

/-- The public key file is written again where it does not hold the key. -/
def repairPublicKey (stage : Stage) (hostId : BitVec 128) (canonical : String) :
    Gateway PUnit := do
  let stored ← readPublicKey stage
  let current := stored.bind fun value => (canonicalPublicKey value hostId).toOption
  if current ≠ some canonical then do
    let mode ← read Env.createMode
    call stage (.write .publicKey) (·.write .publicKey mode (canonical ++ "\n").toUTF8)
    protectFile stage .publicKey
    fsyncFile stage .publicKey
    fsyncDirectory stage
  else pure ⟨⟩

/-- `validate_existing_identity`. -/
def validateExistingIdentity (stage : Stage) (hostId : BitVec 128) :
    Gateway IdentityMaterial := do
  protectFile stage .privateKey
  let derived ← derivePublicKey derive stage
  let canonical ← lift (canonicalPublicKey derived hostId)
  repairPublicKey stage hostId canonical
  lift (material sha256 canonical)

/-- `ssh-keygen -t ed25519`, spawned and waited for. -/
def spawnKeygen : Gateway KeygenEnd := do
  let generated ← read Env.generated
  call .publish .keygen fun v =>
    .ok ((v.put .pendingPrivateKey generated.1).put .pendingPublicKey generated.2)
  read Env.keygenEnd

/-- The pending files are removed, and the generation fails. -/
def abandonKeygen (error : String) : Gateway PUnit := do
  removeIfExists .recover .pendingPrivateKey
  removeIfExists .recover .pendingPublicKey
  raise error

/-- What is made of the end of `ssh-keygen`. -/
def checkKeygen : KeygenEnd → Gateway PUnit
  | .exited true => pure ⟨⟩
  | .exited false => abandonKeygen "ssh-keygen did not create an Ed25519 identity"
  | .timedOut => abandonKeygen "ssh-keygen timed out"

/-- The part of `generate_identity_blocking` that makes a new key pair. -/
def publishNewIdentity (hostId : BitVec 128) : Gateway IdentityMaterial := do
  removeFileEntryIfExists .clear .privateKey
  removeFileEntryIfExists .clear .publicKey
  removeIfExists .clear .pendingPrivateKey
  removeIfExists .clear .pendingPublicKey
  let ending ← spawnKeygen
  checkKeygen ending
  protectFile .publish .pendingPrivateKey
  protectFile .publish .pendingPublicKey
  fsyncFile .publish .pendingPrivateKey
  fsyncFile .publish .pendingPublicKey
  call .publish (.rename .publicKey) (·.rename .pendingPublicKey .publicKey)
  call .publish (.rename .privateKey) (·.rename .pendingPrivateKey .privateKey)
  fsyncDirectory .publish
  let material ← validateExistingIdentity sha256 derive .published hostId
  removeIfExists .finish .rotationRequired
  fsyncDirectory .finish
  pure material

/-- The identity that is there, where it may be kept and is valid. -/
def keepIdentity (hostId : BitVec 128) (keep : Bool) : Gateway (Option IdentityMaterial) :=
  if keep then
    attempt
      (do
        let material ← validateExistingIdentity sha256 derive .existing hostId
        pure (some material))
      fun _ => pure none
  else pure none

/-- `generate_identity_blocking`. -/
def generateIdentityBlocking (hostId : BitVec 128) : Gateway IdentityMaterial := do
  ensurePrivateDirectory
  let rotationRequired ← regularFileExists .look .rotationRequired
  let present ← pathEntryExists .look .privateKey
  match ← keepIdentity sha256 derive hostId (present && ! rotationRequired) with
  | some material => pure material
  | none => publishNewIdentity sha256 derive hostId

/-- `delete_identity_blocking`. -/
def deleteIdentityBlocking : Gateway PUnit := do
  match ← ask .delete .inspectDirectory .ok with
  | .absent => pure ⟨⟩
  | .obstructed => raise "SSH identity path is not a real directory"
  | .directory _ => do
    removeRegularFileIfExists .delete .privateKey
    removeRegularFileIfExists .delete .publicKey
    removeRegularFileIfExists .delete .pendingPrivateKey
    removeRegularFileIfExists .delete .pendingPublicKey
    removeRegularFileIfExists .delete .rotationRequired
    ask .delete .listDirectory fun v =>
      match v with
      | .directory d =>
        if d.isEmpty then .ok PUnit.unit
        else .error "SSH identity directory contains an unexpected entry"
      | _ => .error "No such file or directory"
    call .delete .removeDirectory Volume.removeDirectory
    fsyncDirectory .delete

/-- What a session finds of the private key. -/
def inspectPrivateKey : Gateway PrivateKey := do
  let found ← attempt
    (do
      match ← ask .session (.inspect .privateKey) (·.lookup .privateKey) with
      | some (.file _ mode) => pure (some (decide (mode &&& 0o077 = 0)))
      | some _ => pure (some false)
      | none => pure none)
    fun _ => pure (some false)
  match found with
  | none => pure .missing
  | some false => pure .invalid
  | some true =>
    attempt
      (do
        let derived ← derivePublicKey derive .session
        pure (.derives derived))
      fun _ => pure .invalid

/-- A key that is not missing is marked for rotation. -/
def markUnlessMissing (errorCode : String) : Gateway PUnit :=
  if errorCode ≠ "private_key_missing" then attempt writeRotationMarker fun _ => pure ⟨⟩
  else pure ⟨⟩

/-- `binding_failure`: whether the marker can be written makes no difference. -/
def bindingFailure (failure : IdentityBindingFailure) :
    Gateway (Except IdentityBindingFailure PUnit) := do
  markUnlessMissing failure.errorCode
  pure (.error failure)

/-- `validate_identity_binding` under the lock. -/
def validateIdentityBindingLocked (hostId : BitVec 128)
    (expectedPublicKey expectedFingerprint : String) :
    Gateway (Except IdentityBindingFailure PUnit) := do
  let privateKey ← inspectPrivateKey derive
  match validateIdentityBinding sha256 hostId privateKey expectedPublicKey expectedFingerprint with
  | .ok _ => pure (.ok ⟨⟩)
  | .error failure => bindingFailure failure

/-- `mark_identity_for_rotation` under the lock. -/
def markIdentityForRotationLocked : Gateway PUnit := do
  match ← ask .session .inspectDirectory .ok with
  | .directory _ => writeRotationMarker
  | .obstructed => raise "SSH identity path is not a real directory"
  | .absent => pure ⟨⟩

end Operations

end CtfZone.Ssh.Identity
