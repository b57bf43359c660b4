/-
# The queue of identity operations

The requests of `ssh_hosts.rs` that make, hand out and settle the operations on identities
(`ssh_host_identity_operations`).  Each is one transaction that locks the rows it decides on, and
is taken as one step; the instant is `now()`.  The claim of a row is kept in its state, which is
what the check constraint of the table says.

* `Sound` : a host has at most one open operation of a kind, none to generate an identity where
  it does not wait for one, and one to delete its identity only where it is deleted;
* `Benign` : what a request does that completes nothing;
* `benign_updateOperations`, `benign_updateHost`, `benign_insertHost`, `benign_enqueue` : the
  statements that such requests are made of.
-/
import CtfZone.KeyedTables
import CtfZone.TrustedKeys

namespace CtfZone.Ssh.Identity

open Tables
open Submissions (required required_eq_ok)

/-! ## Tables -/

/-- What is to be done to an identity. -/
inductive OperationKind
  | generate
  | delete
  deriving DecidableEq

/-- Who works on an operation, and until when. -/
structure Claim where
  gateway : Uuid
  token : Uuid
  expiresAt : Time
  deriving DecidableEq

inductive OperationState
  | pending
  | claimed (claim : Claim)
  | completed
  | failed
  | cancelled
  deriving DecidableEq

/-- A row of `ssh_host_identity_operations`. -/
structure OperationRow where
  id : Uuid
  hostId : Uuid
  kind : OperationKind
  state : OperationState
  attempts : ℕ
  availableAt : Time
  createdAt : Time
  lastError : Option String
  deriving DecidableEq

/-- The index `ssh_host_identity_operations_one_open_kind` covers the row. -/
def OperationRow.isOpen (o : OperationRow) : Bool :=
  match o.state with
  | .pending | .claimed _ => true
  | _ => false

structure IdentityTables where
  hosts : List HostRow
  operations : List OperationRow
  deriving DecidableEq

namespace IdentityTables

variable (t : IdentityTables)

/-- `host_for_update_any`. -/
def host (id : Uuid) : Option HostRow := t.hosts.find? (·.id = id)

/-- `visible_host_for_update`. -/
def visibleHost (id : Uuid) : Option HostRow :=
  t.hosts.find? fun h => h.id = id && h.deletedAt.isNone

/-- `operation_by_id`. -/
def operation (id : Uuid) : Option OperationRow := t.operations.find? (·.id = id)

/-- The host of an operation waits for an identity. -/
def waiting (hostId : Uuid) : Bool :=
  t.hosts.any fun h => h.id = hostId && h.deletedAt.isNone && h.identityState = .pending

/-- `UPDATE ctfzone.ssh_hosts`. -/
def updateHost (id : Uuid) (f : HostRow → HostRow) : IdentityTables :=
  { t with hosts := update (·.id = id) f t.hosts }

/-- `UPDATE ctfzone.ssh_host_identity_operations`. -/
def updateOperations (p : OperationRow → Bool) (f : OperationRow → OperationRow) :
    IdentityTables :=
  { t with operations := update p f t.operations }

end IdentityTables

/-- `enqueue_identity_operation`. -/
def enqueueIdentityOperation (id hostId : Uuid) (kind : OperationKind) (now : Time)
    (t : IdentityTables) : Except String IdentityTables := do
  ensure (! t.operations.any fun o => o.hostId = hostId && o.kind = kind && o.isOpen)
    "duplicate key value violates unique constraint"
  pure { t with operations := t.operations ++ [{
    id, hostId, kind, state := .pending, attempts := 0, availableAt := now, createdAt := now
    lastError := none }] }

/-! ## Rows that change -/

namespace OperationRow

variable (o : OperationRow)

/-- An operation to generate an identity is given up where the host is deleted. -/
def cancel : OperationRow := { o with state := .cancelled, lastError := some "host_deleted" }

/-- A claim that has expired is taken away. -/
def release (now : Time) : OperationRow := { o with state := .pending, availableAt := now }

def take (claim : Claim) : OperationRow :=
  { o with state := .claimed claim, attempts := o.attempts + 1 }

def renew (claim : Claim) : OperationRow := { o with state := .claimed claim }

def complete : OperationRow := { o with state := .completed, lastError := none }

def fail (errorCode : String) : OperationRow :=
  { o with state := .failed, lastError := some errorCode }

def putOff (errorCode : String) (availableAt : Time) : OperationRow :=
  { o with state := .pending, lastError := some errorCode, availableAt }

end OperationRow

/-- A host that is created. -/
def newHost (id : Uuid) : HostRow where
  id := id
  enabled := false
  identityState := .pending
  sshPublicKey := none
  sshKeyFingerprint := none
  identityErrorCode := none
  trustedHostPublicKey := none
  trustedHostKeyFingerprint := none
  authorizedKeyCleanupRequired := false
  revision := 1
  deletedAt := none

/-- A host that is deleted. -/
def deletedHost (now : Time) (h : HostRow) : HostRow :=
  { h with enabled := false, deletedAt := some now, revision := h.revision + 1 }

/-- A host that waits for an identity again. -/
def retriedHost (h : HostRow) : HostRow :=
  { h with identityState := .pending, identityErrorCode := none, revision := h.revision + 1 }

/-- A host whose identity is invalid. -/
def invalidHost (errorCode : String) (h : HostRow) : HostRow :=
  { h with
    enabled := false, identityState := .failed, sshPublicKey := none
    sshKeyFingerprint := none, identityErrorCode := some errorCode
    authorizedKeyCleanupRequired := true, revision := h.revision + 1 }

/-- A host whose identity is published. -/
def readyHost (key : CanonicalKey) (h : HostRow) : HostRow :=
  { h with
    identityState := .ready, sshPublicKey := some key.canonical
    sshKeyFingerprint := some key.fingerprint, identityErrorCode := none
    revision := h.revision + 1 }

/-- A host whose identity cannot be generated. -/
def failedHost (errorCode : String) (h : HostRow) : HostRow :=
  { h with
    identityState := .failed, identityErrorCode := some errorCode, revision := h.revision + 1 }

/-! ## Hosts -/

/-- `create_host`, with the ids that are drawn. -/
def createHost (hostId operationId : Uuid) (now : Time) (t : IdentityTables) :
    Except String IdentityTables :=
  enqueueIdentityOperation operationId hostId .generate now
    { t with hosts := t.hosts ++ [newHost hostId] }

/-- `delete_host`. -/
def deleteHost (hostId operationId : Uuid) (now : Time) (t : IdentityTables) :
    Except String IdentityTables := do
  let _ ← required (t.visibleHost hostId) "SSH host not found"
  let deleted := t.updateHost hostId (deletedHost now)
  let cancelled := deleted.updateOperations
    (fun o => o.hostId = hostId && o.kind = .generate && o.isOpen) OperationRow.cancel
  enqueueIdentityOperation operationId hostId .delete now cancelled

/-- `retry_identity`. -/
def retryIdentity (hostId operationId : Uuid) (now : Time) (t : IdentityTables) :
    Except String IdentityTables := do
  let current ← required (t.visibleHost hostId) "SSH host not found"
  ensure (current.identityState = .failed) "Only a failed SSH identity can be retried"
  enqueueIdentityOperation operationId hostId .generate now (t.updateHost hostId retriedHost)

/-- `report_identity_invalid`. -/
def reportIdentityInvalid (hostId : Uuid) (errorCode : String) (t : IdentityTables) :
    Except String IdentityTables := do
  ensure (["private_key_missing", "private_key_invalid", "identity_mismatch"].contains errorCode)
    "Invalid SSH identity validation report"
  let host ← required (t.host hostId) "SSH host not found"
  ensure host.deletedAt.isNone "SSH host was deleted"
  if host.identityState = .failed && host.identityErrorCode = some errorCode then pure t
  else do
    ensure (host.identityState = .ready)
      "SSH host does not have a published identity to invalidate"
    pure (t.updateHost hostId (invalidHost errorCode))

/-! ## Claims -/

/-- `IDENTITY_LEASE_SECONDS`. -/
def identityLeaseSeconds : ℤ := 60

/-- The first statement of `claim_identity_operation`. -/
def cancelDeleted (t : IdentityTables) : IdentityTables :=
  t.updateOperations
    (fun o => o.kind = .generate && o.isOpen &&
      t.hosts.any fun h => h.id = o.hostId && h.deletedAt.isSome) OperationRow.cancel

/-- The claim of a row has expired. -/
def OperationRow.expired (now : Time) (o : OperationRow) : Bool :=
  match o.state with
  | .claimed claim => claim.expiresAt ≤ now
  | _ => false

/-- The second statement of `claim_identity_operation`. -/
def releaseExpired (now : Time) (t : IdentityTables) : IdentityTables :=
  t.updateOperations (·.expired now) (·.release now)

/-- A row that may be claimed. -/
def claimable (t : IdentityTables) (now : Time) (o : OperationRow) : Bool :=
  o.state = .pending && o.availableAt ≤ now && (o.kind = .delete || t.waiting o.hostId)

/-- `ORDER BY` of `claim_identity_operation`. -/
def OperationRow.before (o o' : OperationRow) : Bool :=
  let rank (o : OperationRow) : ℕ := if o.kind = .delete then 0 else 1
  rank o < rank o' || (rank o = rank o' && (o.availableAt < o'.availableAt ||
    (o.availableAt = o'.availableAt && (o.createdAt < o'.createdAt ||
      (o.createdAt = o'.createdAt && o.id ≤ o'.id)))))

/-- The row that is claimed; `skipped` are the rows that somebody else has locked. -/
def claimCandidate (t : IdentityTables) (now : Time) (skipped : List Uuid) :
    Option OperationRow :=
  ((t.operations.filter fun o => claimable t now o && ! skipped.contains o.id).mergeSort
    OperationRow.before).head?

/-- `claim_identity_operation`, with the token that is drawn: the row that is claimed. -/
def claimIdentityOperation (gateway token : Uuid) (now : Time) (skipped : List Uuid)
    (t : IdentityTables) : Option OperationRow × IdentityTables :=
  let released := releaseExpired now (cancelDeleted t)
  match claimCandidate released now skipped with
  | none => (none, released)
  | some o =>
    (some o, released.updateOperations (·.id = o.id)
      (·.take { gateway, token, expiresAt := now + seconds identityLeaseSeconds }))

/-- The row is claimed by a gateway with a token, and the claim has not expired. -/
def OperationRow.claimedBy (gateway token : Uuid) (now : Time) (o : OperationRow) : Bool :=
  match o.state with
  | .claimed claim => claim.gateway = gateway && claim.token = token && now < claim.expiresAt
  | _ => false

/-- `heartbeat_identity_operation`. -/
def heartbeatIdentityOperation (operationId gateway token : Uuid) (now : Time)
    (t : IdentityTables) : Except String IdentityTables := do
  let matched (o : OperationRow) : Bool :=
    o.id = operationId && o.claimedBy gateway token now &&
      (o.kind = .delete || t.waiting o.hostId)
  ensure (t.operations.any matched) "This SSH identity operation is no longer claimable"
  pure (t.updateOperations matched
    (·.renew { gateway, token, expiresAt := now + seconds identityLeaseSeconds }))

/-- `claimed_operation_for_update`. -/
def claimedOperation (operationId gateway token : Uuid) (now : Time) (t : IdentityTables) :
    Except String OperationRow :=
  required (t.operations.find? fun o => o.id = operationId && o.claimedBy gateway token now)
    "SSH identity operation claim expired"

/-! ## Results -/

/-- The host of an operation to generate an identity is locked before the operation. -/
def lockedHost (operationId : Uuid) (t : IdentityTables) : Except String PUnit := do
  let preview ← required (t.operation operationId) "SSH identity operation not found"
  match preview.kind with
  | .generate => do
    let _ ← required (t.host preview.hostId) "SSH host not found"
    pure ⟨⟩
  | .delete => pure ⟨⟩

/-- `complete_operation_row`. -/
def completeOperationRow (operationId : Uuid) (t : IdentityTables) : IdentityTables :=
  t.updateOperations (fun o => o.id = operationId && (o.state ≠ .pending && o.isOpen))
    OperationRow.complete

/-- `complete_identity_operation`. -/
def completeIdentityOperation (sha256 : List UInt8 → List UInt8)
    (operationId gateway token : Uuid) (publicKey : Option String) (now : Time)
    (t : IdentityTables) : Except String IdentityTables := do
  lockedHost operationId t
  let operation ← claimedOperation operationId gateway token now t
  match operation.kind with
  | .generate => do
    let host ← required (t.host operation.hostId) "SSH host not found"
    ensure (host.deletedAt.isNone && host.identityState = .pending)
      "The SSH host no longer accepts identity generation"
    let supplied ← required publicKey "Generated public key is required"
    let key ← canonicalEd25519PublicKey sha256 supplied
    pure ((completeOperationRow operationId t).updateHost host.id (readyHost key))
  | .delete => do
    ensure publicKey.isNone "Delete completion must not include a public key"
    pure (completeOperationRow operationId t)

/-- `safe_code`. -/
def safeCode (value : String) : Bool :=
  value ≠ "" && value.utf8ByteSize ≤ 64 &&
    value.toList.all fun c => c.isLower || c.isDigit || c = '_' || c = '-' || c = '.'

/-- How long a deletion that has failed is put off. -/
def retryDelay (attempts : ℕ) : ℤ := (min (max attempts 1) 60 : ℕ) * 5

/-- `fail_identity_operation`. -/
def failIdentityOperation (operationId gateway token : Uuid) (errorCode : String) (now : Time)
    (t : IdentityTables) : Except String IdentityTables := do
  ensure (safeCode errorCode) "Invalid SSH identity error code"
  lockedHost operationId t
  let operation ← claimedOperation operationId gateway token now t
  match operation.kind with
  | .generate => do
    let host ← required (t.host operation.hostId) "SSH host not found"
    let failed := t.updateOperations (·.id = operationId) (·.fail errorCode)
    if host.deletedAt.isNone && host.identityState = .pending then
      pure (failed.updateHost host.id (failedHost errorCode))
    else pure failed
  | .delete =>
    pure (t.updateOperations (·.id = operationId)
      (·.putOff errorCode (now + seconds (retryDelay operation.attempts))))

/-! ## Invariants of the tables -/

/-- The row names the same operation. -/
structure OperationRow.Same (o o' : OperationRow) : Prop where
  id : o'.id = o.id
  hostId : o'.hostId = o.hostId
  kind : o'.kind = o.kind

/-- And it stays completed. -/
structure OperationRow.Later (o o' : OperationRow) : Prop extends o.Same o' where
  completed : o.state = .completed → o'.state = .completed

/-- What the constraints and the requests keep of the tables. -/
structure Sound (t : IdentityTables) : Prop where
  hosts : (t.hosts.map HostRow.id).Nodup
  operations : (t.operations.map OperationRow.id).Nodup
  oneOpen : ∀ o ∈ t.operations, ∀ o' ∈ t.operations, o.isOpen = true → o'.isOpen = true →
    o.hostId = o'.hostId → o.kind = o'.kind → o.id = o'.id
  hostOf : ∀ o ∈ t.operations, ∃ h ∈ t.hosts, h.id = o.hostId
  deletion : ∀ o ∈ t.operations, o.kind = .delete → ∀ h ∈ t.hosts, h.id = o.hostId →
    h.deletedAt ≠ none
  closed : ∀ h ∈ t.hosts, h.identityState ≠ .pending → ∀ o ∈ t.operations, o.hostId = h.id →
    o.kind = .generate → o.isOpen = false

/-- The operations, the claims that are not fresh, and the hosts of the operations that are not
deleted come from before. -/
structure Follows (fresh : Uuid → Prop) (t t' : IdentityTables) : Prop where
  row : Persist OperationRow.Later t.operations t'.operations
  claim : ∀ o' ∈ t'.operations, ∀ c', o'.state = .claimed c' → fresh c'.token ∨
    ∃ o ∈ t.operations, o.id = o'.id ∧ ∃ c, o.state = .claimed c ∧ c.token = c'.token
  visible : ∀ h' ∈ t'.hosts, h'.deletedAt = none → ∀ o ∈ t.operations, o.hostId = h'.id →
    ∃ h ∈ t.hosts, h.id = h'.id ∧ h.deletedAt = none

/-- No operation to delete is completed, and no identity is published. -/
structure Quiet (t t' : IdentityTables) : Prop where
  completed : ∀ o' ∈ t'.operations, o'.kind = .delete → o'.state = .completed →
    ∃ o ∈ t.operations, o.hostId = o'.hostId ∧ o.kind = .delete ∧ o.state = .completed
  ready : ∀ h' ∈ t'.hosts, h'.deletedAt = none → h'.identityState = .ready →
    ∃ h ∈ t.hosts, h.id = h'.id ∧ h.deletedAt = none ∧ h.identityState = .ready ∧
      h'.sshPublicKey = h.sshPublicKey ∧ h'.sshKeyFingerprint = h.sshKeyFingerprint

/-- A request that completes nothing. -/
structure Benign (fresh : Uuid → Prop) (t t' : IdentityTables) : Prop where
  sound : Sound t'
  follows : Follows fresh t t'
  quiet : Quiet t t'

/-- No claim is fresh. -/
def unclaimed : Uuid → Prop := fun _ => False

section Tables

variable {t t' t'' : IdentityTables} {fresh : Uuid → Prop}

theorem OperationRow.Later.refl (o : OperationRow) : o.Later o := ⟨⟨rfl, rfl, rfl⟩, fun h => h⟩

theorem OperationRow.Later.trans (o o' o'' : OperationRow) (h : o.Later o') (h' : o'.Later o'') :
    o.Later o'' :=
  ⟨⟨h'.id.trans h.id, h'.hostId.trans h.hostId, h'.kind.trans h.kind⟩,
    h'.completed ∘ h.completed⟩

theorem Follows.refl (t : IdentityTables) : Follows fresh t t where
  row := Persist.refl .refl _
  claim o ho c hc := .inr ⟨o, ho, rfl, c, hc, rfl⟩
  visible h hh hdeleted _ _ _ := ⟨h, hh, rfl, hdeleted⟩

theorem Follows.trans (h : Follows fresh t t') (h' : Follows fresh t' t'') :
    Follows fresh t t'' where
  row := Persist.trans .trans h.row h'.row
  claim o'' ho'' c'' hc'' := by
    rcases h'.claim o'' ho'' c'' hc'' with hfresh | ⟨o', ho', hid', c', hc', htoken'⟩
    · exact .inl hfresh
    · rcases h.claim o' ho' c' hc' with hfresh | ⟨o, ho, hid, c, hc, htoken⟩
      · rw [htoken'] at hfresh
        exact .inl hfresh
      · exact .inr ⟨o, ho, hid.trans hid', c, hc, htoken.trans htoken'⟩
  visible h'' hh'' hdeleted o ho hhost := by
    obtain ⟨o', ho', hlater⟩ := h.row o ho
    obtain ⟨h₁, hh₁, hid₁, hdeleted₁⟩ := h'.visible h'' hh'' hdeleted o' ho'
      (hlater.hostId.trans hhost)
    obtain ⟨h₀, hh₀, hid₀, hdeleted₀⟩ := h.visible h₁ hh₁ hdeleted₁ o ho (hhost.trans hid₁.symm)
    exact ⟨h₀, hh₀, hid₀.trans hid₁, hdeleted₀⟩

theorem Quiet.refl (t : IdentityTables) : Quiet t t where
  completed o ho hkind hstate := ⟨o, ho, rfl, hkind, hstate⟩
  ready h hh hdeleted hready := ⟨h, hh, rfl, hdeleted, hready, rfl, rfl⟩

theorem Quiet.trans (h : Quiet t t') (h' : Quiet t' t'') : Quiet t t'' where
  completed o'' ho'' hkind'' hstate'' := by
    obtain ⟨o', ho', hhost', hkind', hstate'⟩ := h'.completed o'' ho'' hkind'' hstate''
    obtain ⟨o, ho, hhost, hkind, hstate⟩ := h.completed o' ho' hkind' hstate'
    exact ⟨o, ho, hhost.trans hhost', hkind, hstate⟩
  ready h'' hh'' hdeleted'' hready'' := by
    obtain ⟨h', hh', hid', hdeleted', hready', hkey', hfingerprint'⟩ :=
      h'.ready h'' hh'' hdeleted'' hready''
    obtain ⟨h, hh, hid, hdeleted, hready, hkey, hfingerprint⟩ :=
      h.ready h' hh' hdeleted' hready'
    exact ⟨h, hh, hid.trans hid', hdeleted, hready, hkey'.trans hkey,
      hfingerprint'.trans hfingerprint⟩

theorem Benign.refl (h : Sound t) : Benign fresh t t := ⟨h, .refl t, .refl t⟩

theorem Benign.trans (h : Benign fresh t t') (h' : Benign fresh t' t'') : Benign fresh t t'' :=
  ⟨h'.sound, h.follows.trans h'.follows, h.quiet.trans h'.quiet⟩

/-! ### Rows that are updated -/

section Operations

variable {p : OperationRow → Bool} {f : OperationRow → OperationRow}
  (hsame : ∀ o : OperationRow, o.Same (f o))

/-- A row of updated operations is what a row has become. -/
theorem mem_updateOperations {o' : OperationRow}
    (ho' : o' ∈ (t.updateOperations p f).operations) :
    ∃ o ∈ t.operations, (p o = true ∧ o' = f o) ∨ (p o = false ∧ o' = o) := by
  obtain ⟨o, ho, ⟨hp, rfl⟩ | ⟨hp, rfl⟩⟩ := mem_update.mp ho'
  · exact ⟨o, ho, .inl ⟨hp, rfl⟩⟩
  · exact ⟨o, ho, .inr ⟨hp, rfl⟩⟩

include hsame

/-- An update may close operations, and not open them. -/
theorem Sound.updateOperations (h : Sound t)
    (hopen : ∀ o ∈ t.operations, p o = true → (f o).isOpen = true → o.isOpen = true) :
    Sound (t.updateOperations p f) := by
  have hback : ∀ o' ∈ (t.updateOperations p f).operations, ∃ o ∈ t.operations, o.Same o' ∧
      (o'.isOpen = true → o.isOpen = true) := by
    intro o' ho'
    obtain ⟨o, ho, ⟨hp, rfl⟩ | ⟨-, rfl⟩⟩ := mem_updateOperations ho'
    · exact ⟨o, ho, hsame o, hopen o ho hp⟩
    · exact ⟨o', ho, ⟨rfl, rfl, rfl⟩, fun h => h⟩
  refine ⟨h.hosts, nodup_update h.operations fun o => (hsame o).id, ?_, ?_, ?_, ?_⟩
  · intro o₁ ho₁ o₂ ho₂ hopen₁ hopen₂ hhost hkind
    obtain ⟨o₁', ho₁', hsame₁, hback₁⟩ := hback o₁ ho₁
    obtain ⟨o₂', ho₂', hsame₂, hback₂⟩ := hback o₂ ho₂
    have hid := h.oneOpen o₁' ho₁' o₂' ho₂' (hback₁ hopen₁) (hback₂ hopen₂)
      (by rw [← hsame₁.hostId, ← hsame₂.hostId, hhost])
      (by rw [← hsame₁.kind, ← hsame₂.kind, hkind])
    rw [hsame₁.id, hsame₂.id, hid]
  · intro o' ho'
    obtain ⟨o, ho, hsame, -⟩ := hback o' ho'
    rw [hsame.hostId]
    exact h.hostOf o ho
  · intro o' ho' hkind
    obtain ⟨o, ho, hsame, -⟩ := hback o' ho'
    rw [hsame.hostId]
    exact h.deletion o ho (hsame.kind.symm.trans hkind)
  · intro r hr hstate o' ho' hhost hkind
    obtain ⟨o, ho, hsame, hopen⟩ := hback o' ho'
    have hclosed := h.closed r hr hstate o ho (hsame.hostId.symm.trans hhost)
      (hsame.kind.symm.trans hkind)
    rw [← Bool.not_eq_true] at hclosed ⊢
    exact fun hopen' => hclosed (hopen hopen')

theorem follows_updateOperations
    (hcompleted : ∀ o ∈ t.operations, p o = true → o.state = .completed →
      (f o).state = .completed)
    (hclaim : ∀ o ∈ t.operations, p o = true → ∀ c', (f o).state = .claimed c' →
      fresh c'.token ∨ ∃ c, o.state = .claimed c ∧ c.token = c'.token) :
    Follows fresh t (t.updateOperations p f) where
  row := Persist.update .refl fun o ho hp => ⟨hsame o, hcompleted o ho hp⟩
  claim o' ho' c' hc' := by
    obtain ⟨o, ho, ⟨hp, rfl⟩ | ⟨-, rfl⟩⟩ := mem_updateOperations ho'
    · rcases hclaim o ho hp c' hc' with hfresh | ⟨c, hc, htoken⟩
      · exact .inl hfresh
      · exact .inr ⟨o, ho, (hsame o).id.symm, c, hc, htoken⟩
    · exact .inr ⟨o', ho, rfl, c', hc', rfl⟩
  visible h hh hdeleted _ _ _ := ⟨h, hh, rfl, hdeleted⟩

omit hsame in
theorem OperationRow.not_completed {o : OperationRow} (h : o.isOpen = true) :
    o.state ≠ .completed := by
  intro hstate
  rw [OperationRow.isOpen, hstate] at h
  cases h

/-- Open operations are updated, and not completed. -/
theorem benign_updateOperations (h : Sound t)
    (hopen : ∀ o ∈ t.operations, p o = true → o.isOpen = true)
    (hstate : ∀ o : OperationRow, (f o).state ≠ .completed)
    (hclaim : ∀ o ∈ t.operations, p o = true → ∀ c', (f o).state = .claimed c' →
      fresh c'.token ∨ ∃ c, o.state = .claimed c ∧ c.token = c'.token) :
    Benign fresh t (t.updateOperations p f) where
  sound := h.updateOperations hsame fun o ho hp _ => hopen o ho hp
  follows := follows_updateOperations hsame
    (fun o ho hp hdone => absurd hdone (o.not_completed (hopen o ho hp))) hclaim
  quiet := by
    refine ⟨fun o' ho' hkind hdone => ?_, fun r hr hnone hready => ?_⟩
    · obtain ⟨o, ho, ⟨-, rfl⟩ | ⟨-, rfl⟩⟩ := mem_updateOperations ho'
      · exact absurd hdone (hstate o)
      · exact ⟨o', ho, rfl, hkind, hdone⟩
    · exact ⟨r, hr, rfl, hnone, hready, rfl, rfl⟩

end Operations

section Hosts

variable {id : Uuid} {f : HostRow → HostRow} (hid : ∀ r : HostRow, (f r).id = r.id)
  (hdeleted : ∀ r : HostRow, (f r).deletedAt = none → r.deletedAt = none)

theorem mem_updateHost {h' : HostRow} (hh' : h' ∈ (t.updateHost id f).hosts) :
    ∃ h ∈ t.hosts, (h.id = id ∧ h' = f h) ∨ (h.id ≠ id ∧ h' = h) := by
  obtain ⟨h, hh, ⟨hp, rfl⟩ | ⟨hp, rfl⟩⟩ := mem_update.mp hh'
  · exact ⟨h, hh, .inl ⟨of_decide_eq_true hp, rfl⟩⟩
  · exact ⟨h, hh, .inr ⟨of_decide_eq_false hp, rfl⟩⟩

include hid hdeleted

/-- A host may stop waiting where it has no open operation to generate an identity, and a
deletion is for good. -/
theorem Sound.updateHost (h : Sound t)
    (hstate : ∀ r ∈ t.hosts, r.id = id → (f r).identityState ≠ .pending →
      ∀ o ∈ t.operations, o.hostId = id → o.kind = .generate → o.isOpen = false) :
    Sound (t.updateHost id f) := by
  refine ⟨nodup_update h.hosts hid, h.operations, h.oneOpen, ?_, ?_, ?_⟩
  · intro o ho
    obtain ⟨r, hr, hhost⟩ := h.hostOf o ho
    refine ⟨updateRow _ f r, List.mem_map_of_mem hr, ?_⟩
    exact (key_updateRow hid r).trans hhost
  · intro o ho hkind r' hr' hhost
    obtain ⟨r, hr, ⟨-, rfl⟩ | ⟨-, rfl⟩⟩ := mem_updateHost hr'
    · intro hnone
      exact h.deletion o ho hkind r hr ((hid r).symm.trans hhost) (hdeleted r hnone)
    · exact h.deletion o ho hkind r' hr hhost
  · intro r' hr' hpending o ho hhost hkind
    obtain ⟨r, hr, ⟨hmatch, rfl⟩ | ⟨-, rfl⟩⟩ := mem_updateHost hr'
    · exact hstate r hr hmatch hpending o ho (hhost.trans ((hid r).trans hmatch)) hkind
    · exact h.closed r' hr hpending o ho hhost hkind

theorem follows_updateHost : Follows fresh t (t.updateHost id f) where
  row := Persist.refl .refl _
  claim o ho c hc := .inr ⟨o, ho, rfl, c, hc, rfl⟩
  visible h' hh' hnone _ _ _ := by
    obtain ⟨h, hh, ⟨-, rfl⟩ | ⟨-, rfl⟩⟩ := mem_updateHost hh'
    · exact ⟨h, hh, (hid h).symm, hdeleted h hnone⟩
    · exact ⟨h', hh, rfl, hnone⟩

/-- A host is updated, and not made ready. -/
theorem benign_updateHost (h : Sound t)
    (hready : ∀ r : HostRow, (f r).deletedAt = none → (f r).identityState ≠ .ready)
    (hstate : ∀ r ∈ t.hosts, r.id = id → (f r).identityState ≠ .pending →
      ∀ o ∈ t.operations, o.hostId = id → o.kind = .generate → o.isOpen = false) :
    Benign fresh t (t.updateHost id f) where
  sound := h.updateHost hid hdeleted hstate
  follows := follows_updateHost hid hdeleted
  quiet := by
    refine ⟨fun o ho hkind hdone => ⟨o, ho, rfl, hkind, hdone⟩, fun r' hr' hnone hdone => ?_⟩
    obtain ⟨r, hr, ⟨-, rfl⟩ | ⟨-, rfl⟩⟩ := mem_updateHost hr'
    · exact absurd hdone (hready r hnone)
    · exact ⟨r', hr, rfl, hnone, hdone, rfl, rfl⟩

end Hosts

/-! ### Rows that are inserted -/

theorem nodup_insert {ρ : Type} {key : ρ → Uuid} {rows : List ρ} {x : ρ}
    (h : (rows.map key).Nodup) (hx : ∀ r ∈ rows, key r ≠ key x) :
    ((rows ++ [x]).map key).Nodup := by
  rw [List.map_append, List.nodup_append]
  refine ⟨h, List.nodup_singleton _, ?_⟩
  intro k hk k' hk' heq
  obtain ⟨r, hr, rfl⟩ := List.mem_map.mp hk
  exact hx r hr (heq.trans (List.mem_singleton.mp hk'))

/-- A host is inserted, and not ready. -/
theorem benign_insertHost (h : Sound t) {r : HostRow} (hfresh : ∀ r' ∈ t.hosts, r'.id ≠ r.id)
    (hready : r.identityState ≠ .ready) :
    Benign fresh t { t with hosts := t.hosts ++ [r] } := by
  have hnone : ∀ o ∈ t.operations, o.hostId ≠ r.id := by
    intro o ho heq
    obtain ⟨r', hr', hid⟩ := h.hostOf o ho
    exact hfresh r' hr' (hid.trans heq)
  have hfollows : Follows fresh t t := .refl t
  refine ⟨⟨nodup_insert h.hosts hfresh, h.operations, h.oneOpen, ?_, ?_, ?_⟩,
    ⟨hfollows.row, hfollows.claim, ?_⟩, (Quiet.refl t).completed, ?_⟩
  · intro o ho
    obtain ⟨r', hr', hid⟩ := h.hostOf o ho
    exact ⟨r', List.mem_append_left _ hr', hid⟩
  · intro o ho hkind
    exact forall_insert (h.deletion o ho hkind) fun hid => absurd hid.symm (hnone o ho)
  · exact forall_insert h.closed fun _ o ho hhost _ => absurd hhost (hnone o ho)
  · exact forall_insert hfollows.visible fun _ o ho heq => absurd heq (hnone o ho)
  · exact forall_insert (Quiet.refl t).ready fun _ hstate => absurd hstate hready

/-- An operation is enqueued for a host that is there: to generate an identity where the host
waits for one, or to delete it where the host is deleted. -/
theorem benign_enqueue {id hostId : Uuid} {kind : OperationKind} {now : Time} (h : Sound t)
    (henqueue : enqueueIdentityOperation id hostId kind now t = .ok t')
    (hfresh : ∀ o ∈ t.operations, o.id ≠ id) (hhost : ∃ r ∈ t.hosts, r.id = hostId)
    (hdelete : kind = .delete → ∀ r ∈ t.hosts, r.id = hostId → r.deletedAt ≠ none)
    (hgenerate : kind = .generate → ∀ r ∈ t.hosts, r.id = hostId → r.identityState = .pending) :
    Benign fresh t t' := by
  simp only [enqueueIdentityOperation, bind_eq_ok, ensure_eq_ok, exists_const] at henqueue
  obtain ⟨hnone, hok⟩ := henqueue
  obtain rfl := Except.ok.inj hok
  have hclosed : ∀ o ∈ t.operations, o.hostId = hostId → o.kind = kind → o.isOpen = false := by
    intro o ho hhost hkind
    rw [Bool.not_eq_true', List.any_eq_false] at hnone
    have hrow := hnone o ho
    rw [hhost, hkind] at hrow
    simpa using hrow
  have hfollows : Follows fresh t t := .refl t
  refine ⟨⟨h.hosts, nodup_insert h.operations hfresh, ?_, forall_insert h.hostOf hhost,
    forall_insert h.deletion hdelete, ?_⟩,
    ⟨Persist.insert .refl _, forall_insert hfollows.claim ?_, hfollows.visible⟩,
    forall_insert (Quiet.refl t).completed ?_, (Quiet.refl t).ready⟩
  · intro o₁ ho₁ o₂ ho₂ hopen₁ hopen₂ hsame hkinds
    rcases List.mem_append.mp ho₁ with ho₁ | ho₁ <;> rcases List.mem_append.mp ho₂ with ho₂ | ho₂
    · exact h.oneOpen o₁ ho₁ o₂ ho₂ hopen₁ hopen₂ hsame hkinds
    · rw [List.mem_singleton.mp ho₂] at hsame hkinds
      rw [hclosed o₁ ho₁ hsame hkinds] at hopen₁
      cases hopen₁
    · rw [List.mem_singleton.mp ho₁] at hsame hkinds
      rw [hclosed o₂ ho₂ hsame.symm hkinds.symm] at hopen₂
      cases hopen₂
    · rw [List.mem_singleton.mp ho₁, List.mem_singleton.mp ho₂]
  · intro r hr hstate
    refine forall_insert (h.closed r hr hstate) ?_
    intro hrow hkind
    exact absurd (hgenerate hkind r hr hrow.symm) hstate
  · intro c hc
    cases hc
  · intro _ hdone
    cases hdone

end Tables

end CtfZone.Ssh.Identity
