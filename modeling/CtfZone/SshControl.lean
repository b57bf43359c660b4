/-
# SSH hosts, tickets and terminal sessions

The requests on SSH hosts (`ssh_hosts.rs`), statement by statement: those of the
administrators, and the callbacks of the gateways.

A request that is refused for its rate, or for the credential of an administrator whose
session is not bound to anything, ends like one that is given up, and so does one whose
connection is lost.  The locks of rows are those that a later statement of the transaction
relies on.  The instants are `now()`, when the transaction begins, and the clock of the API.
The operations on identities are left to the gateways: whoever holds a claim may publish an
identity of a host that waits for one, or give up on it.

* `heartbeat`, `closeRefused` : the two statements of a heartbeat commit by themselves, and a
  handler between them is a row of `refusals`.
-/
import CtfZone.SharedLocks
import CtfZone.Tables
import CtfZone.Basic

namespace CtfZone.Ssh

open Locking.Program SharedLocks Tables

/-! ## Tables -/

/-- The state of the access identity of a host. -/
inductive IdentityState
  | pending
  | ready
  | failed
  deriving DecidableEq

/-- What a ticket is for. -/
inductive TicketPurpose
  | probe
  | terminal
  deriving DecidableEq

/-- The state of a terminal session. -/
inductive SessionState
  | connecting
  | active
  | closed
  deriving DecidableEq

/-- A row of `ssh_hosts`. -/
structure HostRow where
  id : Uuid
  enabled : Bool
  identityState : IdentityState
  sshPublicKey : Option String
  sshKeyFingerprint : Option String
  identityErrorCode : Option String
  trustedHostPublicKey : Option String
  trustedHostKeyFingerprint : Option String
  authorizedKeyCleanupRequired : Bool
  revision : ℕ
  deletedAt : Option Time
  deriving DecidableEq

/-- A row of `ssh_host_tickets`. -/
structure TicketRow where
  id : Uuid
  hostId : Uuid
  purpose : TicketPurpose
  tokenSha256 : String
  issuedToUserId : ℤ
  browserSessionId : String
  requestIp : String
  issuedAt : Time
  expiresAt : Time
  consumedAt : Option Time
  consumedByGateway : Option Uuid
  revokedAt : Option Time
  revocationReason : Option String
  deriving DecidableEq

/-- A row of `ssh_terminal_sessions`. -/
structure SessionRow where
  id : Uuid
  ticketId : Uuid
  hostId : Uuid
  adminUserId : ℤ
  browserSessionId : String
  gatewayInstanceId : Uuid
  hostRevision : ℕ
  trustedHostKeyFingerprint : String
  state : SessionState
  createdAt : Time
  connectedAt : Option Time
  lastHeartbeatAt : Option Time
  closedAt : Option Time
  closeReason : Option String
  deriving DecidableEq

/-- A row of `ssh_host_key_candidates`. -/
structure CandidateRow where
  id : Uuid
  hostId : Uuid
  ticketId : Uuid
  publicKey : String
  fingerprint : String
  observationCount : ℕ
  reportedByGateway : Uuid
  deriving DecidableEq

/-- A row of `user_sessions`. -/
structure BrowserSessionRow where
  id : String
  userId : ℤ
  revoked : Bool
  lastSeen : Time
  deriving DecidableEq

/-- A row of `users`, with the ban of its team. -/
structure AccountRow where
  id : ℤ
  admin : Bool
  banned : Bool
  changePassword : Bool
  teamBanned : Bool
  deriving DecidableEq

/-- The browser sessions, and the accounts they are of. -/
structure BrowserTables where
  sessions : List BrowserSessionRow
  accounts : List AccountRow
  deriving DecidableEq

/-- A handler of a heartbeat whose first statement has matched no row, and the browser
sessions as that statement has seen them. -/
structure Refusal where
  sessionId : Uuid
  gatewayInstanceId : Uuid
  browser : BrowserTables
  now : Time
  deriving DecidableEq

/-- The tables. -/
structure SshTables where
  hosts : List HostRow
  tickets : List TicketRow
  sessions : List SessionRow
  candidates : List CandidateRow
  browser : BrowserTables
  refusals : List Refusal
  deriving DecidableEq

/-- The locks of rows. -/
inductive LockKey
  | host (id : Uuid)
  | ticket (id : Uuid)
  | session (id : Uuid)
  deriving DecidableEq

instance : Lockable LockKey where
  conflict key key' := key = key'
  symm key key' := by simp only [eq_comm]

/-- The sequences of the ids. -/
inductive Sequence
  | hosts
  | tickets
  | sessions
  | candidates
  deriving DecidableEq

/-- A ticket is consumed: who presents it, when, and the browser sessions as the request
has seen them. -/
structure Consumption where
  ticketId : Uuid
  gatewayInstanceId : Uuid
  clientIp : String
  now : Time
  clock : Time
  browser : BrowserTables

/-- What a commit has done. -/
inductive Answer
  | consumed (consumption : Consumption)
  | observed (hostId : Uuid)
  | trusted (hostId : Uuid) (fingerprint : String)
  | connected
  | refused (sessionId : Uuid) (browser : BrowserTables) (now : Time)
  | heartbeat (sessionId : Uuid)
  | closedRefused (refusal : Refusal)
  | reported (sessionId gatewayInstanceId : Uuid)
  | done

/-- What a request does in its transaction. -/
abbrev Transaction := Locking.Program SshTables LockKey Sequence String

/-- What the service is configured with, and the functions it calls. -/
structure Platform where
  /-- `Sha256::digest` -/
  sha256 : String → String
  /-- `canonical_ip` -/
  canonicalIp : String → Option String
  /-- `canonical_ed25519_public_key`: the canonical text and the fingerprint -/
  canonicalKey : String → Option (String × String)
  siteOrigin : String
  sessionLifetimeSeconds : ℤ

/-! ## Queries -/

/-- `ticket_session_is_valid`. -/
def Platform.ticketSessionIsValid (p : Platform) (b : BrowserTables) (browserSessionId : String)
    (userId : ℤ) (now : Time) : Bool :=
  b.sessions.any fun session =>
    session.id = browserSessionId && session.userId = userId && ! session.revoked &&
      now - seconds p.sessionLifetimeSeconds ≤ session.lastSeen &&
      b.accounts.any fun account => account.id = userId && account.admin && ! account.banned &&
        ! account.changePassword && ! account.teamBanned

/-- `state IN ('connecting','active')`. -/
def SessionRow.isOpen (x : SessionRow) : Bool := x.state ≠ .closed

/-- `COALESCE(last_heartbeat_at,connected_at,created_at)`. -/
def SessionRow.lastBeat (x : SessionRow) : Time :=
  (x.lastHeartbeatAt.orElse fun _ => x.connectedAt).getD x.createdAt

/-- A connecting session of more than 30 seconds, or an active one without a heartbeat for
more than 45. -/
def SessionRow.stale (now : Time) (x : SessionRow) : Bool :=
  (x.state = .connecting && x.createdAt < now - seconds 30) ||
    (x.state = .active && x.lastBeat < now - seconds 45)

namespace SshTables

variable (t : SshTables)

/-- `host_for_update_any`. -/
def host (id : Uuid) : Option HostRow := t.hosts.find? (·.id = id)

/-- `visible_host_for_update`. -/
def visibleHost (id : Uuid) : Option HostRow :=
  t.hosts.find? fun h => h.id = id && h.deletedAt.isNone

/-- `ticket_by_digest`. -/
def ticketByDigest (digest : String) : Option TicketRow := t.tickets.find? (·.tokenSha256 = digest)

/-- `session_by_id`. -/
def session (id : Uuid) : Option SessionRow := t.sessions.find? (·.id = id)

/-- `ACTIVE_TERMINAL_FOR_ACTOR_QUERY`. -/
def activeTerminals (hostId : Uuid) (userId : ℤ) : ℕ :=
  t.sessions.countP fun x => x.hostId = hostId && x.adminUserId = userId && x.isOpen

/-- The tickets of the last hour. -/
def issuedLastHour (userId : ℤ) (now : Time) : ℕ :=
  t.tickets.countP fun k => k.issuedToUserId = userId && now - seconds 3600 < k.issuedAt

/-- The tickets that can be consumed. -/
def openForHost (hostId : Uuid) (userId : ℤ) (now : Time) : ℕ :=
  t.tickets.countP fun k => k.issuedToUserId = userId && k.hostId = hostId &&
    k.consumedAt.isNone && k.revokedAt.isNone && now < k.expiresAt

end SshTables

/-! ## Statements -/

/-- `UPDATE ctfzone.ssh_hosts`. -/
def updateHost (hostId : Uuid) (f : HostRow → HostRow) : Transaction Unit :=
  change fun t => { t with hosts := update (·.id = hostId) f t.hosts }

/-- `UPDATE ctfzone.ssh_host_tickets SET revoked_at=now(), …`. -/
def revokeTickets (hostId : Uuid) (reason : String) (now : Time) : Transaction Unit :=
  change fun t => { t with
    tickets := update (fun k => k.hostId = hostId && k.consumedAt.isNone && k.revokedAt.isNone)
      (fun k => { k with revokedAt := some now, revocationReason := some reason }) t.tickets }

/-- A session that is closed. -/
def SessionRow.close (reason : String) (now : Time) (x : SessionRow) : SessionRow :=
  { x with state := .closed, closedAt := some now, closeReason := some reason }

/-- `UPDATE ctfzone.ssh_terminal_sessions SET state='closed', …`. -/
def closeSessions (p : SessionRow → Bool) (reason : SessionRow → String) (now : Time) :
    Transaction Unit :=
  change fun t => { t with
    sessions := update (fun x => p x && x.isOpen) (fun x => x.close (reason x) now) t.sessions }

/-- The row of a host, locked. -/
def hostForUpdate (hostId : Uuid) : Transaction HostRow := do
  acquire (.host hostId)
  fetchOne (·.host hostId) "SSH host not found"

/-- The row of a host that is not deleted, locked. -/
def visibleHostForUpdate (hostId : Uuid) : Transaction HostRow := do
  acquire (.host hostId)
  fetchOne (·.visibleHost hostId) "SSH host not found"

/-! ## Hosts -/

/-- `create_host`. -/
def createHost : Transaction Answer := do
  let id ← nextval .hosts
  change fun t => { t with hosts := t.hosts ++ [{
    id, enabled := false, identityState := .pending, sshPublicKey := none
    sshKeyFingerprint := none, identityErrorCode := none, trustedHostPublicKey := none
    trustedHostKeyFingerprint := none, authorizedKeyCleanupRequired := false, revision := 1
    deletedAt := none }] }
  pure .done

/-- `delete_host`. -/
def deleteHost (hostId : Uuid) (now : Time) : Transaction Answer := do
  let _ ← visibleHostForUpdate hostId
  updateHost hostId fun h =>
    { h with enabled := false, deletedAt := some now, revision := h.revision + 1 }
  revokeTickets hostId "host_deleted" now
  closeSessions (·.hostId = hostId) (fun _ => "host_deleted") now
  pure .done

/-- `retry_identity`. -/
def retryIdentity (hostId : Uuid) : Transaction Answer := do
  let current ← visibleHostForUpdate hostId
  check (current.identityState = .failed) "Only a failed SSH identity can be retried"
  updateHost hostId fun h =>
    { h with identityState := .pending, identityErrorCode := none, revision := h.revision + 1 }
  pure .done

/-- `complete_identity_operation` of a generation, with a valid claim. -/
def completeGeneration (p : Platform) (hostId : Uuid) (publicKey : String) :
    Transaction Answer := do
  let host ← hostForUpdate hostId
  check (host.deletedAt.isNone && host.identityState = .pending)
    "The SSH host no longer accepts identity generation"
  match p.canonicalKey publicKey with
  | none => .fail "Invalid Ed25519 SSH public key"
  | some (canonical, fingerprint) => do
    updateHost hostId fun h =>
      { h with
        identityState := .ready, sshPublicKey := some canonical
        sshKeyFingerprint := some fingerprint, identityErrorCode := none
        revision := h.revision + 1 }
    pure .done

/-- `fail_identity_operation` of a generation, with a valid claim. -/
def failGeneration (hostId : Uuid) (errorCode : String) : Transaction Answer := do
  let host ← hostForUpdate hostId
  onlyIf (host.deletedAt.isNone && host.identityState = .pending)
    (updateHost hostId fun h =>
      { h with
        identityState := .failed, identityErrorCode := some errorCode
        revision := h.revision + 1 })
  pure .done

/-- `trust_host_key`. -/
def trustHostKey (hostId candidateId : Uuid) (fingerprint : String) (revision : ℕ) (now : Time) :
    Transaction Answer := do
  let current ← visibleHostForUpdate hostId
  check (current.revision = revision) "The SSH host changed; reload before trusting its key"
  check (current.identityState = .ready) "The SSH access identity is not ready"
  let candidate ← fetchOne
    (fun t => t.candidates.find? fun c => c.id = candidateId && c.hostId = hostId)
    "SSH host-key candidate not found"
  check (candidate.fingerprint = fingerprint)
    "The confirmed fingerprint does not match this candidate"
  revokeTickets hostId "host_key_changed" now
  closeSessions (·.hostId = hostId) (fun _ => "host_key_changed") now
  updateHost hostId fun h =>
    { h with
      trustedHostPublicKey := some candidate.publicKey
      trustedHostKeyFingerprint := some candidate.fingerprint
      enabled := true, revision := h.revision + 1 }
  pure (.trusted hostId candidate.fingerprint)

/-- `report_host_key_candidate`. -/
def reportHostKeyCandidate (p : Platform) (hostId ticketId gateway : Uuid) (publicKey : String)
    (now : Time) : Transaction Answer :=
  match p.canonicalKey publicKey with
  | none => .fail "Invalid Ed25519 SSH public key"
  | some (canonical, fingerprint) => do
    let host ← hostForUpdate hostId
    check (host.deletedAt.isNone && host.identityState = .ready)
      "This SSH host cannot accept a key candidate"
    let validProbe ← select fun t => t.tickets.any fun k =>
      k.id = ticketId && k.hostId = hostId && k.purpose = .probe &&
        k.consumedByGateway = some gateway && k.consumedAt.any (now - seconds 120 < ·) &&
        k.revokedAt.isNone
    check validProbe "Invalid SSH probe report"
    let id ← nextval .candidates
    change fun t =>
      if t.candidates.any fun c => c.hostId = hostId && c.fingerprint = fingerprint then
        { t with
          candidates := update (fun c => c.hostId = hostId && c.fingerprint = fingerprint)
            (fun c => { c with
              ticketId, publicKey := canonical, observationCount := c.observationCount + 1
              reportedByGateway := gateway }) t.candidates }
      else
        { t with
          candidates := t.candidates ++ [{
            id, hostId, ticketId, publicKey := canonical, fingerprint, observationCount := 1
            reportedByGateway := gateway }] }
    updateHost hostId fun h => { h with revision := h.revision + 1 }
    pure (.observed hostId)

/-- `report_identity_invalid`. -/
def reportIdentityInvalid (hostId : Uuid) (errorCode : String) (now : Time) :
    Transaction Answer := do
  check (["private_key_missing", "private_key_invalid", "identity_mismatch"].contains errorCode)
    "Invalid SSH identity validation report"
  let host ← hostForUpdate hostId
  check host.deletedAt.isNone "SSH host was deleted"
  if host.identityState = .failed && host.identityErrorCode = some errorCode then pure .done
  else do
    check (host.identityState = .ready)
      "SSH host does not have a published identity to invalidate"
    updateHost hostId fun h =>
      { h with
        enabled := false, identityState := .failed, sshPublicKey := none
        sshKeyFingerprint := none, identityErrorCode := some errorCode
        authorizedKeyCleanupRequired := true, revision := h.revision + 1 }
    revokeTickets hostId "identity_invalid" now
    closeSessions (·.hostId = hostId) (fun _ => "identity_invalid") now
    pure .done

/-! ## Tickets -/

/-- `validate_ticket_host`. -/
def validateTicketHost (host : HostRow) (purpose : TicketPurpose) : Transaction Unit := do
  check (host.identityState = .ready) "The SSH access identity is not ready"
  check (! (purpose = .terminal && (! host.enabled || host.trustedHostPublicKey.isNone)))
    "Trust the SSH host key before opening a terminal"

/-- `issue_ticket`, with the ticket that is drawn. -/
def issueTicket (p : Platform) (userId : ℤ) (browserSessionId requestIp : String) (hostId : Uuid)
    (purpose : TicketPurpose) (ticket : String) (now : Time) : Transaction Answer :=
  match p.canonicalIp requestIp with
  | none => .fail "SSH tickets require a validated browser client IP"
  | some requestIp => do
    let browser ← select (·.browser)
    check (p.ticketSessionIsValid browser browserSessionId userId now)
      "This credential has expired or been revoked"
    let host ← visibleHostForUpdate hostId
    validateTicketHost host purpose
    let issuedLastHour ← select (·.issuedLastHour userId now)
    let openForHost ← select (·.openForHost hostId userId now)
    check (! (60 ≤ issuedLastHour || 3 ≤ openForHost)) "Too many active SSH tickets"
    let id ← nextval .tickets
    change fun t => { t with tickets := t.tickets ++ [{
      id, hostId, purpose, tokenSha256 := p.sha256 ticket, issuedToUserId := userId
      browserSessionId, requestIp, issuedAt := now, expiresAt := now + seconds 30
      consumedAt := none, consumedByGateway := none, revokedAt := none
      revocationReason := none }] }
    pure .done

/-- `valid_ticket_text`. -/
def validTicketText (value : String) : Bool :=
  40 ≤ value.utf8ByteSize && value.utf8ByteSize ≤ 64 &&
    value.toList.all fun c => c.isAlphanum || c = '_' || c = '-'

/-- `invalid_ticket`. -/
def invalidTicket : String := "Invalid or expired SSH ticket"

/-- The terminal session of a ticket, opened. -/
def openTerminal (host : HostRow) (ticket : TicketRow) (gateway : Uuid) (now : Time) :
    Transaction Unit :=
  match host.trustedHostKeyFingerprint with
  | none => .fail "terminal tickets require a trusted host key"
  | some fingerprint => do
    let id ← nextval .sessions
    change fun t => { t with sessions := t.sessions ++ [{
      id, ticketId := ticket.id, hostId := host.id, adminUserId := ticket.issuedToUserId
      browserSessionId := ticket.browserSessionId, gatewayInstanceId := gateway
      hostRevision := host.revision, trustedHostKeyFingerprint := fingerprint
      state := .connecting, createdAt := now, connectedAt := none, lastHeartbeatAt := none
      closedAt := none, closeReason := none }] }

/-- The stale sessions of a host are locked and closed, and the administrator has no other
one. -/
def makeRoom (hostId : Uuid) (userId : ℤ) (now : Time) : Transaction Unit := do
  let stale ← select fun t =>
    (t.sessions.filter fun x => x.hostId = hostId && x.stale now).map SessionRow.id
  acquireAll (stale.map LockKey.session)
  closeSessions (fun x => stale.contains x.id && x.stale now)
    (fun x => if x.state = .connecting then "connect_timeout" else "heartbeat_timeout") now
  let active ← select (·.activeTerminals hostId userId)
  check (active = 0) "This administrator already has an active terminal for the host"

/-- A request to consume a ticket. -/
structure ConsumeTicketRequest where
  ticket : String
  gatewayInstanceId : Uuid
  clientIp : String
  origin : String

/-- `consume_ticket`. -/
def consumeTicket (p : Platform) (request : ConsumeTicketRequest) (now clock : Time) :
    Transaction Answer :=
  match p.canonicalIp request.clientIp with
  | none => .fail invalidTicket
  | some clientIp => do
    check (validTicketText request.ticket && request.origin = p.siteOrigin) invalidTicket
    let digest := p.sha256 request.ticket
    let preview ← fetchOne (·.ticketByDigest digest) invalidTicket
    let host ← hostForUpdate preview.hostId
    acquire (.ticket preview.id)
    let ticket ← fetchOne (·.ticketByDigest digest) invalidTicket
    check (ticket.id = preview.id && ticket.consumedAt.isNone && ticket.revokedAt.isNone &&
      clock < ticket.expiresAt && ticket.requestIp = clientIp) invalidTicket
    check (host.deletedAt.isNone && host.identityState = .ready) invalidTicket
    check (! (ticket.purpose = .terminal && (! host.enabled || host.trustedHostPublicKey.isNone)))
      invalidTicket
    let browser ← select (·.browser)
    check (p.ticketSessionIsValid browser ticket.browserSessionId ticket.issuedToUserId now)
      invalidTicket
    onlyIf (ticket.purpose = .terminal) (makeRoom host.id ticket.issuedToUserId now)
    check (now < ticket.expiresAt) invalidTicket
    change fun t => { t with
      tickets := update (fun k => k.id = ticket.id && k.consumedAt.isNone &&
          k.revokedAt.isNone && now < k.expiresAt)
        (fun k => { k with
          consumedAt := some now, consumedByGateway := some request.gatewayInstanceId })
        t.tickets }
    onlyIf (ticket.purpose = .terminal) (openTerminal host ticket request.gatewayInstanceId now)
    pure (.consumed {
      ticketId := ticket.id, gatewayInstanceId := request.gatewayInstanceId, clientIp, now, clock
      browser })

/-! ## Sessions -/

/-- A session is authorized as it was when it was opened. -/
def authorized (host : HostRow) (x : SessionRow) : Bool :=
  host.deletedAt.isNone && host.enabled && host.revision = x.hostRevision &&
    host.trustedHostKeyFingerprint = some x.trustedHostKeyFingerprint

/-- `session_connected`. -/
def sessionConnected (p : Platform) (sessionId gateway : Uuid) (now : Time) :
    Transaction Answer := do
  let preview ← fetchOne (·.session sessionId) "SSH session not found"
  let host ← hostForUpdate preview.hostId
  let browser ← select (·.browser)
  let browserValid :=
    p.ticketSessionIsValid browser preview.browserSessionId preview.adminUserId now
  acquire (.session sessionId)
  if authorized host preview && browserValid then do
    let connecting ← select fun t => t.sessions.any fun x =>
      x.id = sessionId && x.gatewayInstanceId = gateway && x.state = .connecting
    check connecting "This SSH session cannot be connected"
    change fun t => { t with
      sessions := update
        (fun x => x.id = sessionId && x.gatewayInstanceId = gateway && x.state = .connecting)
        (fun x => { x with
          state := .active, connectedAt := some now, lastHeartbeatAt := some now }) t.sessions }
    pure .connected
  else do
    closeSessions (·.id = sessionId) (fun _ => "authorization_revoked") now
    pure (.refused sessionId browser now)

/-- The row that the first statement of a heartbeat matches. -/
def heartbeatMatches (p : Platform) (t : SshTables) (sessionId gateway : Uuid) (now : Time)
    (x : SessionRow) : Bool :=
  x.id = sessionId && x.gatewayInstanceId = gateway && x.state = .active &&
    (t.hosts.any fun h => h.id = x.hostId && authorized h x) &&
    p.ticketSessionIsValid t.browser x.browserSessionId x.adminUserId now

/-- The first statement of `session_heartbeat`. -/
def heartbeat (p : Platform) (sessionId gateway : Uuid) (now : Time) : Transaction Answer := do
  acquire (.session sessionId)
  change fun t =>
    if t.sessions.any (heartbeatMatches p t sessionId gateway now) then
      { t with
        sessions := update (heartbeatMatches p t sessionId gateway now)
          (fun x => { x with lastHeartbeatAt := some now }) t.sessions }
    else
      { t with
        refusals := { sessionId, gatewayInstanceId := gateway, browser := t.browser, now } ::
          t.refusals }
  pure (.heartbeat sessionId)

/-- The second statement of `session_heartbeat`, where the first one has matched no row. -/
def closeRefused (refusal : Refusal) (now : Time) : Transaction Answer := do
  acquire (.session refusal.sessionId)
  change fun t =>
    if refusal ∈ t.refusals then
      { t with
        sessions := update
          (fun x => x.id = refusal.sessionId && x.gatewayInstanceId = refusal.gatewayInstanceId &&
            x.state = .active)
          (SessionRow.close "authorization_revoked" now) t.sessions
        refusals := t.refusals.erase refusal }
    else t
  pure (.closedRefused refusal)

/-- `session_closed`. -/
def sessionClosed (sessionId gateway : Uuid) (reason : String) (now : Time) :
    Transaction Answer := do
  let preview ← fetchOne (·.session sessionId) "SSH session not found"
  check (preview.gatewayInstanceId = gateway) "SSH session belongs to another gateway"
  acquire (.session sessionId)
  closeSessions (fun x => x.id = sessionId && x.gatewayInstanceId = gateway) (fun _ => reason) now
  pure (.reported sessionId gateway)

/-! ## The control plane -/

/-- The requests. -/
inductive Request
  | createHost
  | deleteHost (hostId : Uuid) (now : Time)
  | retryIdentity (hostId : Uuid)
  | completeGeneration (hostId : Uuid) (publicKey : String)
  | failGeneration (hostId : Uuid) (errorCode : String)
  | trustHostKey (hostId candidateId : Uuid) (fingerprint : String) (revision : ℕ) (now : Time)
  | reportHostKeyCandidate (hostId ticketId gateway : Uuid) (publicKey : String) (now : Time)
  | reportIdentityInvalid (hostId : Uuid) (errorCode : String) (now : Time)
  | issueTicket (userId : ℤ) (browserSessionId requestIp : String) (hostId : Uuid)
      (purpose : TicketPurpose) (ticket : String) (now : Time)
  | consumeTicket (request : ConsumeTicketRequest) (now clock : Time)
  | sessionConnected (sessionId gateway : Uuid) (now : Time)
  | heartbeat (sessionId gateway : Uuid) (now : Time)
  | closeRefused (refusal : Refusal) (now : Time)
  | sessionClosed (sessionId gateway : Uuid) (reason : String) (now : Time)

/-- The transaction of a request. -/
def Request.transaction (p : Platform) : Request → Transaction Answer
  | .createHost => Ssh.createHost
  | .deleteHost hostId now => Ssh.deleteHost hostId now
  | .retryIdentity hostId => Ssh.retryIdentity hostId
  | .completeGeneration hostId publicKey => Ssh.completeGeneration p hostId publicKey
  | .failGeneration hostId errorCode => Ssh.failGeneration hostId errorCode
  | .trustHostKey hostId candidateId fingerprint revision now =>
    Ssh.trustHostKey hostId candidateId fingerprint revision now
  | .reportHostKeyCandidate hostId ticketId gateway publicKey now =>
    Ssh.reportHostKeyCandidate p hostId ticketId gateway publicKey now
  | .reportIdentityInvalid hostId errorCode now => Ssh.reportIdentityInvalid hostId errorCode now
  | .issueTicket userId browserSessionId requestIp hostId purpose ticket now =>
    Ssh.issueTicket p userId browserSessionId requestIp hostId purpose ticket now
  | .consumeTicket request now clock => Ssh.consumeTicket p request now clock
  | .sessionConnected sessionId gateway now => Ssh.sessionConnected p sessionId gateway now
  | .heartbeat sessionId gateway now => Ssh.heartbeat p sessionId gateway now
  | .closeRefused refusal now => Ssh.closeRefused refusal now
  | .sessionClosed sessionId gateway reason now => Ssh.sessionClosed sessionId gateway reason now

/-- Something else changes the browser sessions and the accounts. -/
inductive Event
  | browser (tables : BrowserTables)

/-- What it does to the tables. -/
def Event.apply : Event → SshTables → SshTables
  | .browser tables, t => { t with browser := tables }

/-- The tables with the requests in flight. -/
abbrev ControlPlane := SharedLocks.System SshTables LockKey Sequence String Answer

/-- One step of the control plane. -/
def controlStep (p : Platform) : Locking.Label Request Event → ControlPlane → Option ControlPlane :=
  SharedLocks.step (Request.transaction p) Event.apply

/-- There is no host, and nothing in flight. -/
structure Initial (s : ControlPlane) : Prop where
  hosts : s.store.hosts = []
  tickets : s.store.tickets = []
  sessions : s.store.sessions = []
  refusals : s.store.refusals = []
  running : s.running = []

end CtfZone.Ssh
