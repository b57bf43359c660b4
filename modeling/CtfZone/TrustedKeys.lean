/-
# Trusted host keys and published identities

What the gateways make of the keys that the API has stored: the host key that an
administrator trusts (`trusted_host_key`), and the identity that a gateway has published
(`validate_identity_binding`).

* `KeysKept` : the columns of a key hold what the parser of the API returns;
* `reach_keysKept` : they do in every run of the control plane;
* `keys_agree` : **the parsers accept the same blobs, and what is stored is accepted later**.
-/
import CtfZone.SshControl
import CtfZone.SshKeys

namespace CtfZone.Ssh

open Locking.Program SharedLocks Tables Runs Base64
open Submissions (required required_eq_ok)

/-! ## The gateways -/

section Gateway

variable (sha256 : List UInt8 → List UInt8)

/-- `TicketGrant`, as far as its keys go. -/
structure TicketGrant where
  identityPublicKey : String
  identityFingerprint : String
  trustedHostPublicKey : Option String
  trustedHostKeyFingerprint : Option String

/-- What `consume_ticket` answers of a host. -/
def HostRow.grant (host : HostRow) : Except String TicketGrant := do
  let identityPublicKey ← required host.sshPublicKey "SSH identity metadata is incomplete"
  let identityFingerprint ← required host.sshKeyFingerprint "SSH identity metadata is incomplete"
  pure {
    identityPublicKey, identityFingerprint
    trustedHostPublicKey := host.trustedHostPublicKey
    trustedHostKeyFingerprint := host.trustedHostKeyFingerprint }

/-- `trusted_host_key`. -/
def trustedHostKey (grant : TicketGrant) : Except String HostKey := do
  let publicKey ← required grant.trustedHostPublicKey "SSH host key has not been trusted"
  let key ← canonicalHostKey sha256 publicKey
  ensure (grant.trustedHostKeyFingerprint = some key.fingerprint)
    "trusted SSH host-key fingerprint is inconsistent"
  pure key

/-- `validate_existing_identity`, with what `ssh-keygen -y` derives from the private key.  The
file of the public key is repaired on the way. -/
def validateExistingIdentity (hostId : BitVec 128) (derived : String) :
    Except String IdentityMaterial := do
  ensure (derived.utf8ByteSize ≤ 1024) "stored SSH private key is invalid"
  let canonical ← canonicalPublicKey derived hostId
  material sha256 canonical

/-- The file of a private key: there is none, it cannot be used, or `ssh-keygen -y` derives
a public key from it. -/
inductive PrivateKey
  | missing
  | invalid
  | derives (publicKey : String)

/-- `IdentityBindingFailure`. -/
structure IdentityBindingFailure where
  errorCode : String
  observedFingerprint : Option String

/-- `validate_identity_binding`. -/
def validateIdentityBinding (hostId : BitVec 128) (privateKey : PrivateKey)
    (expectedPublicKey expectedFingerprint : String) : Except IdentityBindingFailure Unit :=
  match privateKey with
  | .missing => .error ⟨"private_key_missing", none⟩
  | .invalid => .error ⟨"private_key_invalid", none⟩
  | .derives derived =>
    if 1024 < derived.utf8ByteSize then .error ⟨"private_key_invalid", none⟩
    else
      match canonicalPublicKey derived hostId with
      | .error _ => .error ⟨"private_key_invalid", none⟩
      | .ok canonical =>
        match material sha256 canonical with
        | .error _ => .error ⟨"private_key_invalid", none⟩
        | .ok identity =>
          match canonicalPublicKey expectedPublicKey hostId with
          | .error _ => .error ⟨"identity_mismatch", some identity.fingerprint⟩
          | .ok expected =>
            ensure (canonical = expected && identity.fingerprint = expectedFingerprint)
              ⟨"identity_mismatch", some identity.fingerprint⟩

/-- The control plane with the parser of the API. -/
def Platform.withKeys (p : Platform) : Platform :=
  { p with
    canonicalKey := fun text =>
      match canonicalEd25519PublicKey sha256 text with
      | .ok key => some (key.canonical, key.fingerprint)
      | .error _ => none }

end Gateway

/-! ## The columns of keys -/

section Columns

variable {K : String → String → Prop}

/-- The columns of a key and of its fingerprint are empty, or hold what belongs together. -/
def Paired (K : String → String → Prop) : Option String → Option String → Prop
  | some key, some fingerprint => K key fingerprint
  | none, none => True
  | _, _ => False

/-- The keys of a host. -/
structure HostRow.Keyed (K : String → String → Prop) (h : HostRow) : Prop where
  identity : Paired K h.sshPublicKey h.sshKeyFingerprint
  trusted : Paired K h.trustedHostPublicKey h.trustedHostKeyFingerprint

/-- The columns of every key hold what belongs together. -/
structure KeysKept (K : String → String → Prop) (t : SshTables) : Prop where
  hosts : ∀ h ∈ t.hosts, h.Keyed K
  candidates : ∀ c ∈ t.candidates, K c.publicKey c.fingerprint

/-- Writes that keep the columns. -/
abbrev KeepsKeys (K : String → String → Prop) (f : SshTables → SshTables) : Prop :=
  ∀ t, KeysKept K t → KeysKept K (f t)

theorem keeps_elsewhere {f : SshTables → SshTables} (hhosts : ∀ t, (f t).hosts = t.hosts)
    (hcandidates : ∀ t, (f t).candidates = t.candidates) : KeepsKeys K f := by
  intro t ht
  refine ⟨?_, ?_⟩
  · rw [hhosts]
    exact ht.hosts
  · rw [hcandidates]
    exact ht.candidates

theorem writes_updateHost (hostId : Uuid) {f : HostRow → HostRow}
    (hf : ∀ h : HostRow, h.Keyed K → (f h).Keyed K) :
    (updateHost hostId f).Writes (KeepsKeys K) := by
  refine ⟨fun t ht => ⟨?_, ht.candidates⟩, trivial⟩
  intro h hh
  obtain ⟨h', hh', ⟨-, rfl⟩ | ⟨-, rfl⟩⟩ := mem_update.mp hh
  · exact hf h' (ht.hosts h' hh')
  · exact ht.hosts _ hh'

theorem writes_revokeTickets (hostId : Uuid) (reason : String) (now : Time) :
    (revokeTickets hostId reason now).Writes (KeepsKeys K) :=
  ⟨keeps_elsewhere (fun _ => rfl) fun _ => rfl, trivial⟩

theorem writes_closeSessions (q : SessionRow → Bool) (reason : SessionRow → String) (now : Time) :
    (closeSessions q reason now).Writes (KeepsKeys K) :=
  ⟨keeps_elsewhere (fun _ => rfl) fun _ => rfl, trivial⟩

theorem writes_check (condition : Bool) (error : String) :
    (check condition error : Transaction Unit).Writes (KeepsKeys K) := by
  unfold check
  split <;> trivial

theorem writes_fetchOne {α : Type} (row : SshTables → Option α) (error : String) :
    (fetchOne row error : Transaction α).Writes (KeepsKeys K) := by
  intro t
  dsimp only
  split <;> trivial

theorem writes_onlyIf {condition : Bool} {statement : Transaction Unit}
    (h : statement.Writes (KeepsKeys K)) : (onlyIf condition statement).Writes (KeepsKeys K) := by
  unfold onlyIf
  split
  · exact h
  · trivial

theorem writes_acquireAll (keys : List LockKey) :
    (acquireAll keys : Transaction Unit).Writes (KeepsKeys K) := by
  induction keys with
  | nil => trivial
  | cons key keys ih => exact ih

theorem writes_hostForUpdate (hostId : Uuid) : (hostForUpdate hostId).Writes (KeepsKeys K) :=
  writes_bind trivial fun _ => writes_fetchOne _ _

theorem writes_visibleHostForUpdate (hostId : Uuid) :
    (visibleHostForUpdate hostId).Writes (KeepsKeys K) :=
  writes_bind trivial fun _ => writes_fetchOne _ _

/-! ## The requests -/

theorem createHost_writes : createHost.Writes (KeepsKeys K) := by
  refine writes_bind (fun _ => trivial) fun id => ?_
  refine writes_bind ⟨fun t ht => ⟨?_, ht.candidates⟩, trivial⟩ fun _ => trivial
  intro h hh
  rcases List.mem_append.mp hh with hh | hh
  · exact ht.hosts h hh
  · rw [List.mem_singleton.mp hh]
    exact ⟨trivial, trivial⟩

theorem deleteHost_writes (hostId : Uuid) (now : Time) :
    (deleteHost hostId now).Writes (KeepsKeys K) := by
  refine writes_bind (writes_visibleHostForUpdate hostId) fun _ => ?_
  refine writes_bind (writes_updateHost hostId fun h hh => ⟨hh.identity, hh.trusted⟩) fun _ => ?_
  refine writes_bind (writes_revokeTickets _ _ _) fun _ => ?_
  exact writes_bind (writes_closeSessions _ _ _) fun _ => trivial

theorem retryIdentity_writes (hostId : Uuid) : (retryIdentity hostId).Writes (KeepsKeys K) := by
  refine writes_bind (writes_visibleHostForUpdate hostId) fun _ => ?_
  refine writes_bind (writes_check _ _) fun _ => ?_
  exact writes_bind (writes_updateHost hostId fun h hh => ⟨hh.identity, hh.trusted⟩) fun _ => trivial

theorem failGeneration_writes (hostId : Uuid) (errorCode : String) :
    (failGeneration hostId errorCode).Writes (KeepsKeys K) := by
  refine writes_bind (writes_hostForUpdate hostId) fun _ => ?_
  exact writes_bind (writes_onlyIf (writes_updateHost hostId fun h hh => ⟨hh.identity, hh.trusted⟩))
    fun _ => trivial

theorem reportIdentityInvalid_writes (hostId : Uuid) (errorCode : String) (now : Time) :
    (reportIdentityInvalid hostId errorCode now).Writes (KeepsKeys K) := by
  refine writes_bind (writes_check _ _) fun _ => ?_
  refine writes_bind (writes_hostForUpdate hostId) fun _ => ?_
  refine writes_bind (writes_check _ _) fun _ => ?_
  split
  · trivial
  · refine writes_bind (writes_check _ _) fun _ => ?_
    -- the columns of the identity are emptied together
    refine writes_bind (writes_updateHost hostId fun h hh => ⟨trivial, hh.trusted⟩) fun _ => ?_
    refine writes_bind (writes_revokeTickets _ _ _) fun _ => ?_
    exact writes_bind (writes_closeSessions _ _ _) fun _ => trivial

section Parser

variable {p : Platform}
  (hK : ∀ text key fingerprint, p.canonicalKey text = some (key, fingerprint) → K key fingerprint)
include hK

theorem completeGeneration_writes (hostId : Uuid) (publicKey : String) :
    (completeGeneration p hostId publicKey).Writes (KeepsKeys K) := by
  refine writes_bind (writes_hostForUpdate hostId) fun _ => ?_
  refine writes_bind (writes_check _ _) fun _ => ?_
  split
  · trivial
  · rename_i canonical fingerprint hkey
    exact writes_bind (writes_updateHost hostId fun h hh => ⟨hK _ _ _ hkey, hh.trusted⟩)
      fun _ => trivial

theorem reportHostKeyCandidate_writes (hostId ticketId gateway : Uuid) (publicKey : String)
    (now : Time) :
    (reportHostKeyCandidate p hostId ticketId gateway publicKey now).Writes (KeepsKeys K) := by
  unfold reportHostKeyCandidate
  split
  · trivial
  · rename_i canonical fingerprint hkey
    refine writes_bind (writes_hostForUpdate hostId) fun _ => ?_
    refine writes_bind (writes_check _ _) fun _ => ?_
    refine writes_bind (fun _ => trivial) fun _ => ?_
    refine writes_bind (writes_check _ _) fun _ => ?_
    refine writes_bind (fun _ => trivial) fun id => ?_
    refine writes_bind ⟨fun t ht => ?_, trivial⟩ fun _ => ?_
    · dsimp only
      split
      · -- the key is replaced where the fingerprint is the same
        refine ⟨ht.hosts, fun c hc => ?_⟩
        obtain ⟨c', hc', ⟨hmatch, rfl⟩ | ⟨-, rfl⟩⟩ := mem_update.mp hc
        · rw [Bool.and_eq_true, decide_eq_true_eq, decide_eq_true_eq] at hmatch
          rw [hmatch.2]
          exact hK _ _ _ hkey
        · exact ht.candidates _ hc'
      · refine ⟨ht.hosts, fun c hc => ?_⟩
        rcases List.mem_append.mp hc with hc | hc
        · exact ht.candidates c hc
        · rw [List.mem_singleton.mp hc]
          exact hK _ _ _ hkey
    · exact writes_bind (writes_updateHost hostId fun h hh => ⟨hh.identity, hh.trusted⟩)
        fun _ => trivial

end Parser

theorem issueTicket_writes {p : Platform} (userId : ℤ) (browserSessionId requestIp : String)
    (hostId : Uuid) (purpose : TicketPurpose) (ticket : String) (now : Time) :
    (issueTicket p userId browserSessionId requestIp hostId purpose ticket now).Writes
      (KeepsKeys K) := by
  unfold issueTicket
  split
  · trivial
  · refine writes_bind (fun _ => trivial) fun _ => ?_
    refine writes_bind (writes_check _ _) fun _ => ?_
    refine writes_bind (writes_visibleHostForUpdate hostId) fun _ => ?_
    refine writes_bind (writes_bind (writes_check _ _) fun _ => writes_check _ _) fun _ => ?_
    refine writes_bind (fun _ => trivial) fun _ => ?_
    refine writes_bind (fun _ => trivial) fun _ => ?_
    refine writes_bind (writes_check _ _) fun _ => ?_
    refine writes_bind (fun _ => trivial) fun _ => ?_
    exact writes_bind ⟨keeps_elsewhere (fun _ => rfl) fun _ => rfl, trivial⟩ fun _ => trivial

theorem makeRoom_writes (hostId : Uuid) (userId : ℤ) (now : Time) :
    (makeRoom hostId userId now).Writes (KeepsKeys K) := by
  refine writes_bind (fun _ => trivial) fun _ => ?_
  refine writes_bind (writes_acquireAll _) fun _ => ?_
  refine writes_bind (writes_closeSessions _ _ _) fun _ => ?_
  exact writes_bind (fun _ => trivial) fun _ => writes_check _ _

theorem openTerminal_writes (host : HostRow) (ticket : TicketRow) (gateway : Uuid) (now : Time) :
    (openTerminal host ticket gateway now).Writes (KeepsKeys K) := by
  unfold openTerminal
  split
  · trivial
  · refine writes_bind (fun _ => trivial) fun _ => ?_
    exact ⟨keeps_elsewhere (fun _ => rfl) fun _ => rfl, trivial⟩

theorem consumeTicket_writes {p : Platform} (request : ConsumeTicketRequest) (now clock : Time) :
    (consumeTicket p request now clock).Writes (KeepsKeys K) := by
  unfold consumeTicket
  split
  · trivial
  · refine writes_bind (writes_check _ _) fun _ => ?_
    refine writes_bind (writes_fetchOne _ _) fun _ => ?_
    refine writes_bind (writes_hostForUpdate _) fun _ => ?_
    refine writes_bind trivial fun _ => ?_
    refine writes_bind (writes_fetchOne _ _) fun _ => ?_
    refine writes_bind (writes_check _ _) fun _ => ?_
    refine writes_bind (writes_check _ _) fun _ => ?_
    refine writes_bind (writes_check _ _) fun _ => ?_
    refine writes_bind (fun _ => trivial) fun _ => ?_
    refine writes_bind (writes_check _ _) fun _ => ?_
    refine writes_bind (writes_onlyIf (makeRoom_writes _ _ _)) fun _ => ?_
    refine writes_bind (writes_check _ _) fun _ => ?_
    refine writes_bind ⟨keeps_elsewhere (fun _ => rfl) fun _ => rfl, trivial⟩ fun _ => ?_
    exact writes_bind (writes_onlyIf (openTerminal_writes _ _ _ _)) fun _ => trivial

theorem sessionConnected_writes {p : Platform} (sessionId gateway : Uuid) (now : Time) :
    (sessionConnected p sessionId gateway now).Writes (KeepsKeys K) := by
  refine writes_bind (writes_fetchOne _ _) fun _ => ?_
  refine writes_bind (writes_hostForUpdate _) fun _ => ?_
  refine writes_bind (fun _ => trivial) fun _ => ?_
  refine writes_bind trivial fun _ => ?_
  split
  · refine writes_bind (fun _ => trivial) fun _ => ?_
    refine writes_bind (writes_check _ _) fun _ => ?_
    exact writes_bind ⟨keeps_elsewhere (fun _ => rfl) fun _ => rfl, trivial⟩ fun _ => trivial
  · exact writes_bind (writes_closeSessions _ _ _) fun _ => trivial

theorem heartbeat_writes {p : Platform} (sessionId gateway : Uuid) (now : Time) :
    (heartbeat p sessionId gateway now).Writes (KeepsKeys K) := by
  refine writes_bind trivial fun _ => ?_
  refine writes_bind ⟨fun t ht => ?_, trivial⟩ fun _ => trivial
  dsimp only
  split
  · exact ⟨ht.hosts, ht.candidates⟩
  · exact ⟨ht.hosts, ht.candidates⟩

theorem closeRefused_writes (refusal : Refusal) (now : Time) :
    (closeRefused refusal now).Writes (KeepsKeys K) := by
  refine writes_bind trivial fun _ => ?_
  refine writes_bind ⟨fun t ht => ?_, trivial⟩ fun _ => trivial
  dsimp only
  split
  · exact ⟨ht.hosts, ht.candidates⟩
  · exact ht

theorem sessionClosed_writes (sessionId gateway : Uuid) (reason : String) (now : Time) :
    (sessionClosed sessionId gateway reason now).Writes (KeepsKeys K) := by
  refine writes_bind (writes_fetchOne _ _) fun _ => ?_
  refine writes_bind (writes_check _ _) fun _ => ?_
  refine writes_bind trivial fun _ => ?_
  exact writes_bind (writes_closeSessions _ _ _) fun _ => trivial

/-- The columns are kept, and nothing else is promised. -/
abbrev keyPromises (K : String → String → Prop) : Protocol SshTables LockKey Sequence Answer :=
  .ofInv _ _ _ (KeysKept K)

/-- A transaction keeps the columns, whatever the others do between its statements. -/
def KeysMet (K : String → String → Prop) (x : Transaction Answer) : Prop :=
  ∀ t, KeysKept K t →
    Meets (keyPromises K) x ⟨[], id, t⟩ fun answer l => l.Commits (keyPromises K) answer

theorem keysMet_of_writes {x : Transaction Answer} (h : x.Writes (KeepsKeys K)) : KeysMet K x :=
  fun _ _ => Protocol.meets_ofInv h fun _ => id

/-- The key of a candidate is trusted as it was reported. -/
theorem trustHostKey_met (hostId candidateId : Uuid) (fingerprint : String) (revision : ℕ)
    (now : Time) : KeysMet K (trustHostKey hostId candidateId fingerprint revision now) := by
  intro t ht
  simp only [trustHostKey, visibleHostForUpdate, meets_bind, meets_acquire, meets_fetchOne,
    meets_check]
  intro s₁ h₁ s₂ h₂ host hhost _ _ s₃ h₃ candidate hcandidate _
  have hkey : K candidate.publicKey candidate.fingerprint :=
    h₃.inv.candidates candidate (List.mem_of_find?_eq_some hcandidate)
  simp only [← meets_bind]
  refine Protocol.meets_ofInv ?_ fun _ => id
  refine writes_bind (writes_revokeTickets _ _ _) fun _ => ?_
  refine writes_bind (writes_closeSessions _ _ _) fun _ => ?_
  exact writes_bind (writes_updateHost hostId fun h hh => ⟨hh.identity, hkey⟩) fun _ => trivial

/-- **Every request keeps the columns of keys.** -/
theorem request_met {p : Platform}
    (hK : ∀ text key fingerprint, p.canonicalKey text = some (key, fingerprint) → K key fingerprint)
    (r : Request) : KeysMet K (r.transaction p) := by
  cases r with
  | createHost => exact keysMet_of_writes createHost_writes
  | deleteHost hostId now => exact keysMet_of_writes (deleteHost_writes hostId now)
  | retryIdentity hostId => exact keysMet_of_writes (retryIdentity_writes hostId)
  | completeGeneration hostId publicKey =>
      exact keysMet_of_writes (completeGeneration_writes hK hostId publicKey)
  | failGeneration hostId errorCode =>
      exact keysMet_of_writes (failGeneration_writes hostId errorCode)
  | trustHostKey hostId candidateId fingerprint revision now =>
      exact trustHostKey_met hostId candidateId fingerprint revision now
  | reportHostKeyCandidate hostId ticketId gateway publicKey now =>
      exact keysMet_of_writes
        (reportHostKeyCandidate_writes hK hostId ticketId gateway publicKey now)
  | reportIdentityInvalid hostId errorCode now =>
      exact keysMet_of_writes (reportIdentityInvalid_writes hostId errorCode now)
  | issueTicket userId browserSessionId requestIp hostId purpose ticket now =>
      exact keysMet_of_writes
        (issueTicket_writes userId browserSessionId requestIp hostId purpose ticket now)
  | consumeTicket request now clock =>
      exact keysMet_of_writes (consumeTicket_writes request now clock)
  | sessionConnected sessionId gateway now =>
      exact keysMet_of_writes (sessionConnected_writes sessionId gateway now)
  | heartbeat sessionId gateway now =>
      exact keysMet_of_writes (heartbeat_writes sessionId gateway now)
  | closeRefused refusal now => exact keysMet_of_writes (closeRefused_writes refusal now)
  | sessionClosed sessionId gateway reason now =>
      exact keysMet_of_writes (sessionClosed_writes sessionId gateway reason now)

/-- There is no host and no candidate, and nothing in flight. -/
structure Keyless (s : ControlPlane) : Prop where
  hosts : s.store.hosts = []
  candidates : s.store.candidates = []
  running : s.running = []

/-- **The columns of keys are kept in every run.** -/
theorem reach_keysKept {p : Platform}
    (hK : ∀ text key fingerprint, p.canonicalKey text = some (key, fingerprint) → K key fingerprint)
    {guard : ControlPlane → Locking.Label Request Event → Prop} {s : ControlPlane}
    (h : Reach (controlStep p) guard Keyless s) : KeysKept K s.store := by
  refine (Protocol.invariant (P := keyPromises K) (request_met hK) ?_ ?_ h).inv
  · rintro ⟨browser⟩ t ht
    exact Protocol.guarantee_ofInv ⟨ht.hosts, ht.candidates⟩
  · intro s₀ hs₀
    refine Protocol.Sound.idle ⟨?_, ?_⟩ (fun _ _ _ => trivial) hs₀.running
    · rw [hs₀.hosts]
      exact List.forall_mem_nil _
    · rw [hs₀.candidates]
      exact List.forall_mem_nil _

end Columns

/-! ## What the gateways accept later -/

variable {sha256 : List UInt8 → List UInt8} {blob : List UInt8}

/-- A key and its fingerprint as the parser of the API returns them. -/
def Canonical (sha256 : List UInt8 → List UInt8) (key keyFingerprint : String) : Prop :=
  ∃ blob, validEd25519Blob blob = true ∧ key = bareText blob ∧
    keyFingerprint = fingerprint sha256 blob

theorem canonicalKey_canonical {p : Platform} (text key keyFingerprint : String)
    (h : (p.withKeys sha256).canonicalKey text = some (key, keyFingerprint)) :
    Canonical sha256 key keyFingerprint := by
  simp only [Platform.withKeys] at h
  split at h
  · rename_i parsed hparsed
    obtain ⟨-, blob, hcarries, rfl⟩ := canonicalEd25519PublicKey_iff.mp hparsed
    obtain ⟨rfl, rfl⟩ := Prod.ext_iff.mp (Option.some.inj h)
    exact ⟨blob, hcarries.valid, rfl, rfl⟩
  · cases h

section Valid

variable (hvalid : validEd25519Blob blob = true)
include hvalid

theorem canonicalEd25519PublicKey_bareText : canonicalEd25519PublicKey sha256 (bareText blob) =
    .ok ⟨bareText blob, fingerprint sha256 blob⟩ :=
  canonicalEd25519PublicKey_iff.mpr ⟨plain_bareText hvalid, blob, carries_bareText hvalid, rfl⟩

theorem length_bareText : (splitWhitespace (bareText blob)).length = 2 := by
  rw [splitWhitespace_bareText hvalid]
  rfl

theorem canonicalHostKey_bareText : canonicalHostKey sha256 (bareText blob) =
    .ok ⟨bareText blob, fingerprint sha256 blob⟩ :=
  canonicalHostKey_iff.mpr ⟨length_bareText hvalid, blob, carries_bareText hvalid, rfl⟩

theorem canonicalPublicKey_bareText (hostId : BitVec 128) :
    canonicalPublicKey (bareText blob) hostId = .ok (identityText blob hostId) :=
  canonicalPublicKey_iff.mpr
    ⟨(length_bareText hvalid).le.trans (by decide), blob, carries_bareText hvalid, rfl⟩

theorem material_identityText (hostId : BitVec 128) :
    material sha256 (identityText blob hostId) = .ok
      ⟨identityText blob hostId, fingerprint sha256 blob,
        "restrict,pty " ++ identityText blob hostId⟩ := by
  rw [material, splitWhitespace_identityText hvalid]
  simp only [bind_eq_ok, required_eq_ok, standard.decode_iff]
  exact ⟨standard.encode blob, rfl, blob, rfl, rfl⟩

/-- What the API has stored of a key passes the check of the gateways. -/
theorem trustedHostKey_stored {grant : TicketGrant}
    (hkey : grant.trustedHostPublicKey = some (bareText blob))
    (hfingerprint : grant.trustedHostKeyFingerprint = some (fingerprint sha256 blob)) :
    trustedHostKey sha256 grant = .ok ⟨bareText blob, fingerprint sha256 blob⟩ := by
  simp only [trustedHostKey, bind_eq_ok, required_eq_ok, ensure_eq_ok, decide_eq_true_eq,
    exists_const]
  exact ⟨_, hkey, _, canonicalHostKey_bareText hvalid, hfingerprint, rfl⟩

/-- **The private keys of the blob are recognised, and no others.** -/
theorem validateIdentityBinding_iff {hostId : BitVec 128} {derived : String} :
    validateIdentityBinding sha256 hostId (.derives derived) (bareText blob)
      (fingerprint sha256 blob) = .ok ⟨⟩ ↔
        derived.utf8ByteSize ≤ 1024 ∧ (splitWhitespace derived).length ≤ 3 ∧
          Carries derived blob := by
  rw [validateIdentityBinding]
  by_cases hsize : 1024 < derived.utf8ByteSize
  · rw [if_pos hsize]
    exact ⟨nofun, fun h => absurd h.1 (not_le.mpr hsize)⟩
  rw [if_neg hsize]
  cases hderived : canonicalPublicKey derived hostId with
  | error e =>
      refine ⟨nofun, fun h => ?_⟩
      rw [canonicalPublicKey_iff.mpr ⟨h.2.1, blob, h.2.2, rfl⟩] at hderived
      cases hderived
  | ok canonical =>
      obtain ⟨hlength, blob', hcarries, rfl⟩ := canonicalPublicKey_iff.mp hderived
      dsimp only
      rw [material_identityText hcarries.valid, canonicalPublicKey_bareText hvalid]
      simp only [ensure_eq_ok, Bool.and_eq_true, decide_eq_true_eq]
      constructor
      · rintro ⟨htext, -⟩
        have hblob : blob' = blob := by
          refine (carries_identityText hcarries.valid hostId).unique ?_
          rw [htext]
          exact carries_identityText hvalid hostId
        rw [← hblob]
        exact ⟨not_lt.mp hsize, hlength, hcarries⟩
      · intro h
        rw [hcarries.unique h.2.2]
        exact ⟨rfl, rfl⟩

end Valid

/-- What a gateway publishes. -/
theorem validateExistingIdentity_iff {hostId : BitVec 128} {derived : String}
    {m : IdentityMaterial} : validateExistingIdentity sha256 hostId derived = .ok m ↔
      derived.utf8ByteSize ≤ 1024 ∧ (splitWhitespace derived).length ≤ 3 ∧
        ∃ blob, Carries derived blob ∧ m = ⟨identityText blob hostId, fingerprint sha256 blob,
          "restrict,pty " ++ identityText blob hostId⟩ := by
  simp only [validateExistingIdentity, bind_eq_ok, ensure_eq_ok, decide_eq_true_eq, exists_const,
    canonicalPublicKey_iff]
  constructor
  · rintro ⟨hsize, _, ⟨hlength, blob, hcarries, rfl⟩, hm⟩
    rw [material_identityText hcarries.valid] at hm
    exact ⟨hsize, hlength, blob, hcarries, (Except.ok.inj hm).symm⟩
  · rintro ⟨hsize, hlength, blob, hcarries, rfl⟩
    exact ⟨hsize, _, ⟨hlength, blob, hcarries, rfl⟩, material_identityText hcarries.valid hostId⟩

/-! ## Agreement -/

/-- The services agree on keys. -/
structure Agreement (sha256 : List UInt8 → List UInt8) (p : Platform) : Prop where
  /-- Each parser accepts the texts that carry a valid blob and keep to its own rules on the
  rest of the text, and each tells the same fingerprint of a blob. -/
  api : ∀ value key, canonicalEd25519PublicKey sha256 value = .ok key ↔ Plain value ∧
    ∃ blob, Carries value blob ∧ key = ⟨bareText blob, fingerprint sha256 blob⟩
  hostKey : ∀ value key, canonicalHostKey sha256 value = .ok key ↔
    (splitWhitespace value).length = 2 ∧
      ∃ blob, Carries value blob ∧ key = ⟨bareText blob, fingerprint sha256 blob⟩
  publicKey : ∀ value hostId text, canonicalPublicKey value hostId = .ok text ↔
    (splitWhitespace value).length ≤ 3 ∧
      ∃ blob, Carries value blob ∧ text = identityText blob hostId
  material : ∀ blob hostId, validEd25519Blob blob = true →
    material sha256 (identityText blob hostId) = .ok ⟨identityText blob hostId,
      fingerprint sha256 blob, "restrict,pty " ++ identityText blob hostId⟩
  /-- Every parser accepts every valid blob by itself. -/
  bare : ∀ blob, validEd25519Blob blob = true → Plain (bareText blob) ∧
    (splitWhitespace (bareText blob)).length = 2 ∧ Carries (bareText blob) blob
  /-- What the API returns is canonical. -/
  fixed : ∀ value key, canonicalEd25519PublicKey sha256 value = .ok key →
    canonicalEd25519PublicKey sha256 key.canonical = .ok key ∧
      canonicalHostKey sha256 key.canonical = .ok ⟨key.canonical, key.fingerprint⟩
  /-- In every run, the host key that is trusted passes the check of the gateways. -/
  trusted : ∀ s, Reach (controlStep (p.withKeys sha256)) anyStep Keyless s →
    ∀ h ∈ s.store.hosts, ∀ grant, h.grant = .ok grant →
      ∀ publicKey, grant.trustedHostPublicKey = some publicKey →
        ∃ key, trustedHostKey sha256 grant = .ok key ∧ key.publicKey = publicKey
  /-- In every run, the private keys of the blob that is stored are recognised. -/
  recognised : ∀ s, Reach (controlStep (p.withKeys sha256)) anyStep Keyless s →
    ∀ h ∈ s.store.hosts, ∀ grant, h.grant = .ok grant → ∃ blob,
      Carries grant.identityPublicKey blob ∧ ∀ hostId derived,
        validateIdentityBinding sha256 hostId (.derives derived) grant.identityPublicKey
          grant.identityFingerprint = .ok ⟨⟩ ↔
            derived.utf8ByteSize ≤ 1024 ∧ (splitWhitespace derived).length ≤ 3 ∧
              Carries derived blob
  /-- The API accepts what a gateway publishes, and the gateway recognises its private key. -/
  published : ∀ hostId derived m, validateExistingIdentity sha256 hostId derived = .ok m →
    ∃ key, canonicalEd25519PublicKey sha256 m.publicKey = .ok key ∧
      key.fingerprint = m.fingerprint ∧
        validateIdentityBinding sha256 hostId (.derives derived) key.canonical key.fingerprint =
          .ok ⟨⟩

/-- The keys of a grant are canonical. -/
theorem grant_canonical {h : HostRow} (hkeyed : h.Keyed (Canonical sha256)) {grant : TicketGrant}
    (hgrant : h.grant = .ok grant) :
    Canonical sha256 grant.identityPublicKey grant.identityFingerprint ∧
      Paired (Canonical sha256) grant.trustedHostPublicKey grant.trustedHostKeyFingerprint := by
  simp only [HostRow.grant, bind_eq_ok, required_eq_ok] at hgrant
  obtain ⟨key, hkey, keyFingerprint, hfingerprint, hok⟩ := hgrant
  obtain rfl := Except.ok.inj hok
  have hidentity := hkeyed.identity
  rw [hkey, hfingerprint] at hidentity
  exact ⟨hidentity, hkeyed.trusted⟩

/-- **The services agree on keys**, whatever the digest is. -/
theorem keys_agree (sha256 : List UInt8 → List UInt8) (p : Platform) : Agreement sha256 p where
  api _ _ := canonicalEd25519PublicKey_iff
  hostKey _ _ := canonicalHostKey_iff
  publicKey _ _ _ := canonicalPublicKey_iff
  material _ hostId hvalid := material_identityText hvalid hostId
  bare _ hvalid := ⟨plain_bareText hvalid, length_bareText hvalid, carries_bareText hvalid⟩
  fixed value key h := by
    obtain ⟨-, blob, hcarries, rfl⟩ := canonicalEd25519PublicKey_iff.mp h
    exact ⟨canonicalEd25519PublicKey_bareText hcarries.valid,
      canonicalHostKey_bareText hcarries.valid⟩
  trusted s hs h hh grant hgrant publicKey hkey := by
    obtain ⟨-, htrusted⟩ :=
      grant_canonical ((reach_keysKept canonicalKey_canonical hs).hosts h hh) hgrant
    rw [hkey] at htrusted
    cases hfingerprint : grant.trustedHostKeyFingerprint with
    | none =>
        rw [hfingerprint] at htrusted
        exact htrusted.elim
    | some keyFingerprint =>
        rw [hfingerprint] at htrusted
        obtain ⟨blob, hvalid, rfl, rfl⟩ := htrusted
        exact ⟨_, trustedHostKey_stored hvalid hkey hfingerprint, rfl⟩
  recognised s hs h hh grant hgrant := by
    obtain ⟨⟨blob, hvalid, hkey, hfingerprint⟩, -⟩ :=
      grant_canonical ((reach_keysKept canonicalKey_canonical hs).hosts h hh) hgrant
    rw [hkey, hfingerprint]
    exact ⟨blob, carries_bareText hvalid, fun _ _ => validateIdentityBinding_iff hvalid⟩
  published hostId derived m h := by
    obtain ⟨hsize, hlength, blob, hcarries, rfl⟩ := validateExistingIdentity_iff.mp h
    have hvalid := hcarries.valid
    refine ⟨⟨bareText blob, fingerprint sha256 blob⟩, ?_, rfl, ?_⟩
    · exact canonicalEd25519PublicKey_iff.mpr
        ⟨plain_identityText hvalid hostId, blob, carries_identityText hvalid hostId, rfl⟩
    · exact (validateIdentityBinding_iff hvalid).mpr ⟨hsize, hlength, hcarries⟩

/-- A blob. -/
def sampleBlob : List UInt8 := blobStart ++ List.replicate 32 7

/-- A key with a comment, as `ssh-keygen` writes it. -/
def commentedKey : String := bareText sampleBlob ++ " root@ctf"

/-- **The comment of a key tells the parsers apart.**  The API and the parser of identities
accept the text, and the parser of host keys does not. -/
theorem comment_refused :
    (∃ key, canonicalEd25519PublicKey id commentedKey = .ok key) ∧
      (∃ text, canonicalPublicKey commentedKey 0 = .ok text) ∧
        ∀ key, canonicalHostKey id commentedKey ≠ .ok key := by
  have hvalid : validEd25519Blob sampleBlob = true := by decide
  have hcomment : Fields.fields Journal.isWhitespace " root@ctf".toList = ["root@ctf".toList] := by
    decide
  have hfields : splitWhitespace commentedKey =
      ["ssh-ed25519", standard.encode sampleBlob, "root@ctf"] := by
    rw [splitWhitespace, commentedKey, String.toList_append,
      fields_key hvalid (by rintro c ⟨⟩; decide), hcomment]
    simp only [List.map_cons, List.map_nil, String.ofList_toList]
  have hcarries : Carries commentedKey sampleBlob := ⟨hvalid, by rw [hfields]; rfl⟩
  have hplain : Plain commentedKey :=
    plain_append hvalid (by decide) (List.all_iff_forall_prop.mp (by decide))
  refine ⟨⟨_, canonicalEd25519PublicKey_iff.mpr ⟨hplain, _, hcarries, rfl⟩⟩,
    ⟨_, canonicalPublicKey_iff.mpr ⟨?_, _, hcarries, rfl⟩⟩, ?_⟩
  · rw [hfields]
    decide
  · intro key hkey
    have hlength := (canonicalHostKey_iff.mp hkey).1
    rw [hfields] at hlength
    exact absurd hlength (by decide)

end CtfZone.Ssh
