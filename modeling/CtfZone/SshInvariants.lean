/-
# What the control plane of SSH keeps

The promises of the transactions on SSH hosts: an invariant of the tables, how tickets and
sessions evolve, and what the locks of a host and of a session protect.

* `Control` : every open session is of a host that it fits, and an administrator has at most
  one on a host;
* `Fenced` : the active sessions are of the present revision of their hosts;
* `Effect` : what a commit has done;
* `Moves` : the changes that the locks of a transaction allow.
-/
import CtfZone.SshControl
import CtfZone.KeyedTables

namespace CtfZone.Ssh

open Locking.Program SharedLocks Tables
open Locking (Hold)

/-! ## The invariant -/

/-- The host is as a session on it needs it. -/
structure HostFits (h : HostRow) (x : SessionRow) : Prop where
  deletedAt : h.deletedAt = none
  enabled : h.enabled = true
  identityState : h.identityState = .ready
  fingerprint : h.trustedHostKeyFingerprint = some x.trustedHostKeyFingerprint

/-- The tables of the control plane are well formed. -/
structure Control (t : SshTables) : Prop where
  hosts : (t.hosts.map HostRow.id).Nodup
  tickets : (t.tickets.map TicketRow.id).Nodup
  sessions : (t.sessions.map SessionRow.id).Nodup
  fits : ∀ x ∈ t.sessions, x.isOpen = true → ∃ h ∈ t.hosts, h.id = x.hostId ∧ HostFits h x
  single : ∀ x ∈ t.sessions, ∀ y ∈ t.sessions, x.isOpen = true → y.isOpen = true →
    x.hostId = y.hostId → x.adminUserId = y.adminUserId → x = y

/-- No session on the host is active. -/
def SshTables.Inactive (t : SshTables) (hostId : Uuid) : Prop :=
  ∀ x ∈ t.sessions, x.hostId = hostId → x.state ≠ .active

/-- The refusal of a heartbeat does not concern a session that is to stay. -/
def Refusal.Warranted (p : Platform) (t : SshTables) (f : Refusal) : Prop :=
  ∃ x ∈ t.sessions, x.id = f.sessionId ∧ x.state ≠ .connecting ∧
    (x.state = .active → x.gatewayInstanceId = f.gatewayInstanceId →
      p.ticketSessionIsValid f.browser x.browserSessionId x.adminUserId f.now = false)

/-- The active sessions are of the present revision of their hosts. -/
structure Fenced (p : Platform) (t : SshTables) : Prop where
  revision : ∀ x ∈ t.sessions, x.state = .active → ∀ h ∈ t.hosts, h.id = x.hostId →
    h.revision = x.hostRevision
  refusals : ∀ f ∈ t.refusals, f.Warranted p t

/-! ## How rows evolve -/

/-- A ticket at a later moment. -/
structure TicketLater (k k' : TicketRow) : Prop where
  fixed : k' = { k with
    consumedAt := k'.consumedAt, consumedByGateway := k'.consumedByGateway
    revokedAt := k'.revokedAt, revocationReason := k'.revocationReason }
  consumed : k.consumedAt ≠ none → k'.consumedAt = k.consumedAt

/-- A session at a later moment. -/
structure SessionLater (x x' : SessionRow) : Prop where
  fixed : x' = { x with
    state := x'.state, connectedAt := x'.connectedAt, lastHeartbeatAt := x'.lastHeartbeatAt
    closedAt := x'.closedAt, closeReason := x'.closeReason }
  state : x'.state = x.state ∨ x.state = .connecting ∧ x'.state = .active ∨ x'.state = .closed

theorem TicketLater.refl (k : TicketRow) : TicketLater k k := ⟨rfl, fun _ => rfl⟩

theorem TicketLater.trans {k k' k'' : TicketRow} (h : TicketLater k k')
    (h' : TicketLater k' k'') : TicketLater k k'' := by
  refine ⟨?_, fun hk => ?_⟩
  · rw [h'.fixed, h.fixed]
  · have hk' := h.consumed hk
    exact (h'.consumed (hk' ▸ hk)).trans hk'

theorem SessionLater.refl (x : SessionRow) : SessionLater x x := ⟨rfl, .inl rfl⟩

theorem SessionLater.trans {x x' x'' : SessionRow} (h : SessionLater x x')
    (h' : SessionLater x' x'') : SessionLater x x'' := by
  refine ⟨?_, ?_⟩
  · rw [h'.fixed, h.fixed]
  · rcases h'.state with heq | ⟨hc, ha⟩ | hclosed
    · rw [heq]
      exact h.state
    · rcases h.state with heq | ⟨-, heq⟩ | heq
      · exact .inr (.inl ⟨heq ▸ hc, ha⟩)
      · rw [heq] at hc
        cases hc
      · rw [heq] at hc
        cases hc
    · exact .inr (.inr hclosed)

theorem isOpen_iff {x : SessionRow} : x.isOpen = true ↔ x.state ≠ .closed := by
  simp [SessionRow.isOpen]

namespace SessionLater

variable {x x' : SessionRow} (h : SessionLater x x')
include h

theorem hostId : x'.hostId = x.hostId := by rw [h.fixed]

theorem adminUserId : x'.adminUserId = x.adminUserId := by rw [h.fixed]

theorem hostRevision : x'.hostRevision = x.hostRevision := by rw [h.fixed]

theorem gatewayInstanceId : x'.gatewayInstanceId = x.gatewayInstanceId := by rw [h.fixed]

theorem browserSessionId : x'.browserSessionId = x.browserSessionId := by rw [h.fixed]

theorem fingerprint : x'.trustedHostKeyFingerprint = x.trustedHostKeyFingerprint := by
  rw [h.fixed]

/-- A session that is open has been open. -/
theorem isOpen (hopen : x'.isOpen = true) : x.isOpen = true := by
  rw [isOpen_iff] at hopen ⊢
  intro hclosed
  rcases h.state with heq | ⟨heq, -⟩ | heq
  · exact hopen (heq.trans hclosed)
  · rw [hclosed] at heq
    cases heq
  · exact hopen heq

/-- A host that fits the session has fitted it before. -/
theorem fits {host : HostRow} (hfits : HostFits host x) : HostFits host x' :=
  ⟨hfits.deletedAt, hfits.enabled, hfits.identityState, h.fingerprint ▸ hfits.fingerprint⟩

end SessionLater

/-! ## The promises -/

/-- Tickets and sessions persist. -/
structure Later (t t' : SshTables) : Prop where
  tickets : ∀ k ∈ t.tickets, ∃ k' ∈ t'.tickets, k'.id = k.id ∧ TicketLater k k'
  sessions : ∀ x ∈ t.sessions, ∃ x' ∈ t'.sessions, x'.id = x.id ∧ SessionLater x x'

/-- What holds while a host is locked: its row and its tickets stay, and its sessions are
not opened or connected. -/
structure KeepHost (id : Uuid) (t t' : SshTables) : Prop where
  host : ∀ h ∈ t.hosts, h.id = id → h ∈ t'.hosts
  tickets : ∀ k ∈ t.tickets, k.hostId = id → k ∈ t'.tickets
  sessions : ∀ x' ∈ t'.sessions, x'.hostId = id → x'.isOpen = true →
    ∃ x ∈ t.sessions, x'.id = x.id ∧ SessionLater x x' ∧ x'.state = x.state

/-- What holds while a session is locked: its row stays, or it is closed. -/
def KeepSession (id : Uuid) (t t' : SshTables) : Prop :=
  ∀ x ∈ t.sessions, x.id = id →
    x ∈ t'.sessions ∨ ∃ x' ∈ t'.sessions, x'.id = id ∧ x'.state = .closed

/-- What the holder of a lock can rely on. -/
def Keep : LockKey → SshTables → SshTables → Prop
  | .host id => KeepHost id
  | .ticket _ => fun _ _ => True
  | .session id => KeepSession id

/-- No row has the number. -/
def Unused (q : Sequence) (n : ℕ) (t : SshTables) : Prop :=
  match q with
  | .hosts => ∀ h ∈ t.hosts, h.id ≠ n
  | .tickets => ∀ k ∈ t.tickets, k.id ≠ n
  | .sessions => ∀ x ∈ t.sessions, x.id ≠ n
  | .candidates => True

/-- A ticket is consumed as its request has seen it. -/
structure Consumed (p : Platform) (c : Consumption) (k k' : TicketRow) : Prop where
  ticket : c.ticketId = k.id
  revokedAt : k.revokedAt = none
  expiry : c.now < k.expiresAt
  clock : c.clock < k.expiresAt
  clientIp : k.requestIp = c.clientIp
  browser : p.ticketSessionIsValid c.browser k.browserSessionId k.issuedToUserId c.now = true
  consumedAt : k'.consumedAt = some c.now
  gateway : k'.consumedByGateway = some c.gatewayInstanceId

/-- The condition on a commit under which the active sessions stay fenced. -/
def Considerate (t : SshTables) : Answer → Prop
  | .observed hostId => t.Inactive hostId
  | .trusted hostId fingerprint =>
    (∃ h ∈ t.hosts, h.id = hostId ∧ h.trustedHostKeyFingerprint = some fingerprint) →
      t.Inactive hostId
  | .heartbeat sessionId => ∃ x ∈ t.sessions, x.id = sessionId ∧ x.state ≠ .connecting
  | _ => True

/-- Why a commit closes an active session: its host is not what it needs any more, its
heartbeat is overdue, its browser session is not valid, or its gateway reports that it is
over. -/
inductive Justified (p : Platform) (refusals : List Refusal) (hosts : List HostRow)
    (x : SessionRow) : Answer → Prop
  | host (answer : Answer) (h : HostRow) : h ∈ hosts → h.id = x.hostId → ¬ HostFits h x →
    Justified p refusals hosts x answer
  | overdue (c : Consumption) : x.lastBeat < c.now - seconds 45 →
    Justified p refusals hosts x (.consumed c)
  | refused (browser : BrowserTables) (now : Time) :
    p.ticketSessionIsValid browser x.browserSessionId x.adminUserId now = false →
    Justified p refusals hosts x (.refused x.id browser now)
  | closedRefused (f : Refusal) : f ∈ refusals → f.sessionId = x.id →
    p.ticketSessionIsValid f.browser x.browserSessionId x.adminUserId f.now = false →
    Justified p refusals hosts x (.closedRefused f)
  | reported : Justified p refusals hosts x (.reported x.id x.gatewayInstanceId)

/-- What a commit has done. -/
structure Effect (p : Platform) (answer : Answer) (t t' : SshTables) : Prop where
  consumed : ∀ k ∈ t.tickets, ∀ k' ∈ t'.tickets, k'.id = k.id → k.consumedAt = none →
    k'.consumedAt ≠ none → ∃ c, answer = .consumed c ∧ Consumed p c k k'
  issued : ∀ k' ∈ t'.tickets, (∃ k ∈ t.tickets, k'.id = k.id) ∨ k'.consumedAt = none
  opened : ∀ x' ∈ t'.sessions, (∃ x ∈ t.sessions, x'.id = x.id) ∨ x'.state = .connecting
  refused : ∀ f ∈ t'.refusals, f ∈ t.refusals ∨ f.browser = t.browser
  fenced : Fenced p t → Considerate t answer → Fenced p t'
  closed : Fenced p t → Considerate t answer → ∀ x ∈ t.sessions, ∀ x' ∈ t'.sessions, x'.id = x.id →
    x.state = .active → x'.state = .closed → Justified p t.refusals t'.hosts x answer

theorem Later.refl (t : SshTables) : Later t t :=
  ⟨fun k hk => ⟨k, hk, rfl, .refl k⟩, fun x hx => ⟨x, hx, rfl, .refl x⟩⟩

theorem Later.trans {t t' t'' : SshTables} (h : Later t t') (h' : Later t' t'') : Later t t'' := by
  refine ⟨?_, ?_⟩
  · intro k hk
    obtain ⟨k', hk', hid, hlater⟩ := h.tickets k hk
    obtain ⟨k'', hk'', hid', hlater'⟩ := h'.tickets k' hk'
    exact ⟨k'', hk'', hid'.trans hid, hlater.trans hlater'⟩
  · intro x hx
    obtain ⟨x', hx', hid, hlater⟩ := h.sessions x hx
    obtain ⟨x'', hx'', hid', hlater'⟩ := h'.sessions x' hx'
    exact ⟨x'', hx'', hid'.trans hid, hlater.trans hlater'⟩

theorem KeepHost.trans {id : Uuid} {t t' t'' : SshTables} (h : KeepHost id t t')
    (h' : KeepHost id t' t'') : KeepHost id t t'' := by
  refine ⟨?_, ?_, ?_⟩
  · intro host hhost hid
    exact h'.host host (h.host host hhost hid) hid
  · intro k hk hid
    exact h'.tickets k (h.tickets k hk hid) hid
  · intro x'' hx'' hid hopen
    obtain ⟨x', hx', hid', hlater', hstate'⟩ := h'.sessions x'' hx'' hid hopen
    obtain ⟨x, hx, hid₀, hlater, hstate⟩ :=
      h.sessions x' hx' (hlater'.hostId.symm.trans hid) (hlater'.isOpen hopen)
    exact ⟨x, hx, hid'.trans hid₀, hlater.trans hlater', hstate'.trans hstate⟩

theorem KeepSession.trans {id : Uuid} {t t' t'' : SshTables} (h : KeepSession id t t')
    (h' : KeepSession id t' t'') : KeepSession id t t'' := by
  intro x hx hid
  rcases h x hx hid with hx' | ⟨x', hx', hid', hclosed⟩
  · exact h' x hx' hid
  · rcases h' x' hx' hid' with hx'' | hclosed'
    · exact .inr ⟨x', hx'', hid', hclosed⟩
    · exact .inr hclosed'

theorem keep_refl (k : LockKey) (t : SshTables) : Keep k t t := by
  cases k with
  | host id => exact ⟨fun _ h _ => h, fun _ h _ => h, fun x hx _ _ => ⟨x, hx, rfl, .refl x, rfl⟩⟩
  | ticket id => trivial
  | session id => exact fun _ h _ => .inl h

theorem keep_trans {k : LockKey} {t t' t'' : SshTables} (h : Keep k t t') (h' : Keep k t' t'') :
    Keep k t t'' := by
  cases k with
  | host id => exact h.trans h'
  | ticket id => trivial
  | session id => exact KeepSession.trans h h'

/-- What the transactions of the control plane keep. -/
def promises (p : Platform) : Protocol SshTables LockKey Sequence Answer where
  Inv := Control
  Always := Later
  Keep := Keep
  Unused := Unused
  Effect := Effect p
  always_refl := Later.refl
  always_trans := Later.trans
  keep_refl := keep_refl
  keep_trans := keep_trans

/-! ## What the locks allow -/

/-- What becomes of a session. -/
structure SessionMoves (held : List (Hold LockKey Sequence)) (x x' : SessionRow) : Prop where
  later : SessionLater x x'
  state : x'.isOpen = true → x'.state = x.state ∨ .lock (.host x.hostId) ∈ held
  row : x'.isOpen = true → x' = x ∨ .lock (.session x.id) ∈ held

/-- The changes that the locks allow. -/
structure Moves (held : List (Hold LockKey Sequence)) (t t' : SshTables) : Prop where
  hosts : Evolves HostRow.id (fun h h' => h' = h ∨ .lock (.host h.id) ∈ held)
    (fun h' => .number .hosts h'.id ∈ held) t.hosts t'.hosts
  tickets : Evolves TicketRow.id
    (fun k k' => TicketLater k k' ∧ (k' = k ∨ .lock (.host k.hostId) ∈ held))
    (fun k' => .number .tickets k'.id ∈ held ∧ k'.consumedAt = none) t.tickets t'.tickets
  sessions : Evolves SessionRow.id (SessionMoves held)
    (fun x' => .number .sessions x'.id ∈ held ∧ .lock (.host x'.hostId) ∈ held ∧
      x'.state = .connecting) t.sessions t'.sessions

theorem SessionMoves.refl {held : List (Hold LockKey Sequence)} (x : SessionRow) :
    SessionMoves held x x := ⟨.refl x, fun _ => .inl rfl, fun _ => .inl rfl⟩

/-- A session that is closed. -/
theorem SessionMoves.close {held : List (Hold LockKey Sequence)} {reason : String} {now : Time}
    (x : SessionRow) : SessionMoves held x (x.close reason now) :=
  ⟨⟨rfl, .inr (.inr rfl)⟩, nofun, nofun⟩

namespace Moves

variable {p : Platform} {held : List (Hold LockKey Sequence)} {t t' : SshTables}

/-- What is locked, or drawn, is held by nobody else. -/
theorem apart {h : Hold LockKey Sequence} (hapart : ∀ h' ∈ held, ¬ Conflict h h') : h ∉ held := by
  intro hmem
  refine hapart h hmem ?_
  cases h with
  | lock key => exact decide_eq_true rfl
  | number q n => exact ⟨rfl, rfl⟩

/-- **They respect whatever somebody else holds.** -/
theorem guarantee (h : Moves held t t') (hinv : Control t') : (promises p).Guarantee held t t' := by
  refine ⟨hinv, ⟨?_, ?_⟩, ?_⟩
  · intro k hk
    obtain ⟨k', hk', hid, hlater, -⟩ := h.tickets.forth k hk
    exact ⟨k', hk', hid, hlater⟩
  · intro x hx
    obtain ⟨x', hx', hid, hmoves⟩ := h.sessions.forth x hx
    exact ⟨x', hx', hid, hmoves.later⟩
  · intro hold hapart
    have hfree := apart hapart
    rcases hold with (id | id | id) | ⟨_ | _ | _ | _, n⟩
    · refine ⟨?_, ?_, ?_⟩
      · rintro host hhost rfl
        obtain ⟨host', hhost', -, rfl | hheld⟩ := h.hosts.forth host hhost
        · exact hhost'
        · exact absurd hheld hfree
      · rintro k hk rfl
        obtain ⟨k', hk', -, -, rfl | hheld⟩ := h.tickets.forth k hk
        · exact hk'
        · exact absurd hheld hfree
      · rintro x' hx' rfl hopen
        rcases h.sessions.back x' hx' with ⟨x, hx, hid, hmoves⟩ | ⟨-, hheld, -⟩
        · refine ⟨x, hx, hid, hmoves.later, (hmoves.state hopen).resolve_right fun hheld => ?_⟩
          exact hfree (hmoves.later.hostId ▸ hheld)
        · exact absurd hheld hfree
    · trivial
    · rintro x hx rfl
      obtain ⟨x', hx', hid, hmoves⟩ := h.sessions.forth x hx
      by_cases hopen : x'.isOpen = true
      · obtain rfl := (hmoves.row hopen).resolve_right hfree
        exact .inl hx'
      · rw [isOpen_iff, not_not] at hopen
        exact .inr ⟨x', hx', hid, hopen⟩
    · rintro hunused host' hhost' rfl
      rcases h.hosts.back host' hhost' with ⟨host, hhost, hid, -⟩ | hheld
      · exact hunused host hhost hid.symm
      · exact hfree hheld
    · rintro hunused k' hk' rfl
      rcases h.tickets.back k' hk' with ⟨k, hk, hid, -⟩ | ⟨hheld, -⟩
      · exact hunused k hk hid.symm
      · exact hfree hheld
    · rintro hunused x' hx' rfl
      rcases h.sessions.back x' hx' with ⟨x, hx, hid, -⟩ | ⟨hheld, -⟩
      · exact hunused x hx hid.symm
      · exact hfree hheld
    · exact id

/-- What is issued is not consumed. -/
theorem issued (h : Moves held t t') :
    ∀ k' ∈ t'.tickets, (∃ k ∈ t.tickets, k'.id = k.id) ∨ k'.consumedAt = none := by
  intro k' hk'
  rcases h.tickets.back k' hk' with ⟨k, hk, hid, -⟩ | ⟨-, hnone⟩
  · exact .inl ⟨k, hk, hid⟩
  · exact .inr hnone

/-- What is opened is connecting. -/
theorem opened (h : Moves held t t') :
    ∀ x' ∈ t'.sessions, (∃ x ∈ t.sessions, x'.id = x.id) ∨ x'.state = .connecting := by
  intro x' hx'
  rcases h.sessions.back x' hx' with ⟨x, hx, hid, -⟩ | ⟨-, -, hconnecting⟩
  · exact .inl ⟨x, hx, hid⟩
  · exact .inr hconnecting

/-- They keep the invariant where the hosts still fit, and what is opened is the only open
session of its administrator on a host that it fits. -/
theorem control (h : Moves held t t') (hs : Control t)
    (hhosts : ∀ host ∈ t.hosts, ∀ host' ∈ t'.hosts, host'.id = host.id → ∀ x' ∈ t'.sessions,
      x'.hostId = host.id → x'.isOpen = true → HostFits host x' → HostFits host' x')
    (hnew : ∀ x' ∈ t'.sessions, x'.isOpen = true → (∃ x ∈ t.sessions, x'.id = x.id) ∨
      (∃ host' ∈ t'.hosts, host'.id = x'.hostId ∧ HostFits host' x') ∧
        ∀ y ∈ t'.sessions, y.isOpen = true → y.hostId = x'.hostId →
          y.adminUserId = x'.adminUserId → y = x') : Control t' := by
  refine ⟨h.hosts.nodup, h.tickets.nodup, h.sessions.nodup, ?_, ?_⟩
  · intro x' hx' hopen
    rcases hnew x' hx' hopen with ⟨x, hx, hid⟩ | ⟨hfits, -⟩
    · have hlater := (h.sessions.rel hx hx' hid).later
      obtain ⟨host, hhost, hhid, hfits⟩ := hs.fits x hx (hlater.isOpen hopen)
      obtain ⟨host', hhost', hhid', -⟩ := h.hosts.forth host hhost
      have hx'host : x'.hostId = host.id := hlater.hostId.trans hhid.symm
      exact ⟨host', hhost', hhid'.trans hx'host.symm,
        hhosts host hhost host' hhost' hhid' x' hx' hx'host hopen (hlater.fits hfits)⟩
    · exact hfits
  · intro x' hx' y' hy' hopen hopen' hhost hadmin
    rcases hnew x' hx' hopen with ⟨x, hx, hid⟩ | ⟨-, hunique⟩
    · rcases hnew y' hy' hopen' with ⟨y, hy, hid'⟩ | ⟨-, hunique⟩
      · have hlater := (h.sessions.rel hx hx' hid).later
        have hlater' := (h.sessions.rel hy hy' hid').later
        have hxy : x = y := hs.single x hx y hy (hlater.isOpen hopen) (hlater'.isOpen hopen')
          (hlater.hostId.symm.trans (hhost.trans hlater'.hostId))
          (hlater.adminUserId.symm.trans (hadmin.trans hlater'.adminUserId))
        exact h.sessions.eq_of_key hx' hy' (hid.trans ((congrArg SessionRow.id hxy).trans hid'.symm))
      · exact hunique x' hx' hopen hhost hadmin
    · exact (hunique y' hy' hopen' hhost.symm hadmin.symm).symm

/-- They keep the active sessions fenced where no host with an active session changes its
revision, and what becomes active is of the present one. -/
theorem fenced (h : Moves held t t') (hs : Control t) (hf : Fenced p t)
    (hhosts : ∀ host ∈ t.hosts, ∀ host' ∈ t'.hosts, host'.id = host.id →
      host'.revision = host.revision ∨ t'.Inactive host.id)
    (hactive : ∀ x ∈ t.sessions, ∀ x' ∈ t'.sessions, x'.id = x.id → x'.state = .active →
      x.state = .active ∨ ∃ host ∈ t.hosts, host.id = x.hostId ∧ host.revision = x.hostRevision)
    (hrefusals : ∀ f ∈ t'.refusals, f ∈ t.refusals ∨ f.Warranted p t') : Fenced p t' := by
  refine ⟨?_, ?_⟩
  · intro x' hx' hstate host' hhost' hid'
    rcases h.sessions.back x' hx' with ⟨x, hx, hid, hmoves⟩ | ⟨-, -, hconnecting⟩
    · have hlater := hmoves.later
      have hopen : x'.isOpen = true := isOpen_iff.mpr (by rw [hstate]; decide)
      obtain ⟨host, hhost, hhid, -⟩ := hs.fits x hx (hlater.isOpen hopen)
      have hhosts' := hhosts host hhost host' hhost' (hid'.trans (hlater.hostId.trans hhid.symm))
      have hrevision : host.revision = x.hostRevision := by
        rcases hactive x hx x' hx' hid hstate with hact | ⟨host₀, hhost₀, hid₀, hrev⟩
        · exact hf.revision x hx hact host hhost hhid
        · rwa [List.inj_on_of_nodup_map hs.hosts hhost hhost₀ (hhid.trans hid₀.symm)]
      rcases hhosts' with heq | hinactive
      · rw [heq, hlater.hostRevision, hrevision]
      · exact absurd hstate (hinactive x' hx' (hlater.hostId.trans hhid.symm))
    · rw [hconnecting] at hstate
      cases hstate
  · intro f hmem
    rcases hrefusals f hmem with hold | hnew
    · -- a refusal stays warranted: a closed session is not opened again
      obtain ⟨x, hx, hid, hstate, hwarranted⟩ := hf.refusals f hold
      obtain ⟨x', hx', hid', hmoves⟩ := h.sessions.forth x hx
      have hlater := hmoves.later
      refine ⟨x', hx', hid'.trans hid, ?_, ?_⟩
      · rcases hlater.state with heq | ⟨hconn, -⟩ | hclosed
        · rwa [heq]
        · exact absurd hconn hstate
        · rw [hclosed]
          decide
      · intro hact hgateway
        rcases hlater.state with heq | ⟨hconn, -⟩ | hclosed
        · rw [hlater.browserSessionId, hlater.adminUserId]
          exact hwarranted (heq ▸ hact) (hlater.gatewayInstanceId ▸ hgateway)
        · exact absurd hconn hstate
        · rw [hclosed] at hact
          cases hact
    · exact hnew

end Moves

/-! ## What a transaction knows -/

section Known

variable {p : Platform} {l : Local SshTables LockKey Sequence} {t : SshTables}

theorem host_eq {id : Uuid} {h : HostRow} (heq : t.host id = some h) :
    h ∈ t.hosts ∧ h.id = id := by
  have hp := List.find?_some heq
  exact ⟨List.mem_of_find?_eq_some heq, of_decide_eq_true hp⟩

theorem visibleHost_eq {id : Uuid} {h : HostRow} (heq : t.visibleHost id = some h) :
    h ∈ t.hosts ∧ h.id = id ∧ h.deletedAt = none := by
  have hp := List.find?_some heq
  rw [Bool.and_eq_true, decide_eq_true_eq, Option.isNone_iff_eq_none] at hp
  exact ⟨List.mem_of_find?_eq_some heq, hp⟩

theorem ticketByDigest_eq {digest : String} {k : TicketRow}
    (heq : t.ticketByDigest digest = some k) : k ∈ t.tickets := List.mem_of_find?_eq_some heq

theorem session_eq {id : Uuid} {x : SessionRow} (heq : t.session id = some x) :
    x ∈ t.sessions ∧ x.id = id := by
  have hp := List.find?_some heq
  exact ⟨List.mem_of_find?_eq_some heq, of_decide_eq_true hp⟩

variable (h : l.After (promises p) t)
include h

theorem After.host {id : Uuid} (hheld : .lock (.host id) ∈ l.held) : KeepHost id l.store t :=
  h.rely.respects _ hheld

theorem After.session {id : Uuid} (hheld : .lock (.session id) ∈ l.held) :
    KeepSession id l.store t := h.rely.respects _ hheld

theorem After.unused {q : Sequence} {n : ℕ} (hheld : .number q n ∈ l.held)
    (hn : Unused q n l.store) : Unused q n t := h.rely.respects _ hheld hn

end Known

/-! ## Commits -/

section Commits

variable {p : Platform} {held : List (Hold LockKey Sequence)} {t : SshTables} {answer : Answer}

/-- A commit does what its answer says, and keeps the promises. -/
def Commits (p : Platform) (held : List (Hold LockKey Sequence)) (answer : Answer)
    (t t' : SshTables) : Prop :=
  Effect p answer t t' ∧ (promises p).Guarantee held t t'

/-- A host that is not ready has no active session. -/
theorem Control.inactive (hs : Control t) {host : HostRow} (hhost : host ∈ t.hosts)
    (hstate : host.identityState ≠ .ready) : t.Inactive host.id := by
  intro x hx hid hactive
  have hopen : x.isOpen = true := isOpen_iff.mpr (by rw [hactive]; decide)
  obtain ⟨host', hhost', hid', hfits⟩ := hs.fits x hx hopen
  rw [List.inj_on_of_nodup_map hs.hosts hhost' hhost (hid'.trans hid)] at hfits
  exact hstate hfits.identityState

section Hosts

variable {hostId : Uuid} {f : HostRow → HostRow}

/-- The row of a host is updated. -/
theorem hosts_evolve (hs : Control t) (hheld : .lock (.host hostId) ∈ held)
    (hid : ∀ h, (f h).id = h.id) {New : HostRow → Prop} :
    Evolves HostRow.id (fun h h' => h' = h ∨ .lock (.host h.id) ∈ held) New t.hosts
      (update (·.id = hostId) f t.hosts) := by
  refine .update hs.hosts hid (fun h _ => .inl rfl) fun h _ hp => .inr ?_
  rwa [of_decide_eq_true hp]

/-- The row of a host in the updated table. -/
theorem updated_host (hs : Control t) (hid : ∀ h, (f h).id = h.id) {host host' : HostRow}
    (hhost : host ∈ t.hosts) (hhost' : host' ∈ update (·.id = hostId) f t.hosts)
    (heq : host'.id = host.id) :
    host' = host ∧ host.id ≠ hostId ∨ host' = f host ∧ host.id = hostId := by
  rcases updated hs.hosts hid hhost hhost' heq with ⟨hp, hr⟩ | ⟨hp, hr⟩
  · exact .inl ⟨hr, of_decide_eq_false hp⟩
  · exact .inr ⟨hr, of_decide_eq_true hp⟩

/-- A host changes, and its sessions stay. -/
theorem commits_changed (hs : Control t) (hheld : .lock (.host hostId) ∈ held)
    (hid : ∀ h, (f h).id = h.id) {candidates : List CandidateRow}
    (hfits : ∀ h ∈ t.hosts, h.id = hostId → ∀ x, HostFits h x → HostFits (f h) x)
    (hinactive : Considerate t answer → t.Inactive hostId) :
    Commits p held answer t { t with hosts := update (·.id = hostId) f t.hosts, candidates } := by
  have hmoves : Moves held t { t with hosts := update (·.id = hostId) f t.hosts, candidates } :=
    ⟨hosts_evolve hs hheld hid, .refl hs.tickets fun k _ => ⟨.refl k, .inl rfl⟩,
      .refl hs.sessions fun x _ => .refl x⟩
  refine ⟨⟨?_, hmoves.issued, hmoves.opened, fun _ => .inl, ?_, ?_⟩,
    hmoves.guarantee (hmoves.control hs ?_ ?_)⟩
  · intro k hk k' hk' heq hnone hsome
    rw [List.inj_on_of_nodup_map hs.tickets hk' hk heq] at hsome
    exact absurd hnone hsome
  · intro hf hconsiderate
    refine hmoves.fenced hs hf ?_ ?_ fun _ => .inl
    · intro host hhost host' hhost' heq
      rcases updated_host hs hid hhost hhost' heq with ⟨rfl, -⟩ | ⟨-, rfl⟩
      · exact .inl rfl
      · exact .inr (hinactive hconsiderate)
    · intro x hx x' hx' heq hstate
      rw [List.inj_on_of_nodup_map hs.sessions hx' hx heq] at hstate
      exact .inl hstate
  · intro _ _ x hx x' hx' heq hactive hclosed
    rw [List.inj_on_of_nodup_map hs.sessions hx' hx heq, hactive] at hclosed
    cases hclosed
  · intro host hhost host' hhost' heq x' _ _ _ hhost_fits
    rcases updated_host hs hid hhost hhost' heq with ⟨rfl, -⟩ | ⟨rfl, heq'⟩
    · exact hhost_fits
    · exact hfits host hhost heq' x' hhost_fits
  · exact fun x' hx' _ => .inl ⟨x', hx', rfl⟩

/-- A host changes, its tickets are revoked and its sessions are closed. -/
theorem commits_shut (hs : Control t) (hheld : .lock (.host hostId) ∈ held)
    (hid : ∀ h, (f h).id = h.id) {reason reason' : String} {now now' : Time}
    (hunfit : Considerate t answer → ∀ h ∈ t.hosts, h.id = hostId → ∀ x ∈ t.sessions,
      x.hostId = hostId → x.state = .active → HostFits h x → ¬ HostFits (f h) x) :
    Commits p held answer t { t with
      hosts := update (·.id = hostId) f t.hosts
      tickets := update (fun k => k.hostId = hostId && k.consumedAt.isNone && k.revokedAt.isNone)
        (fun k => { k with revokedAt := some now, revocationReason := some reason }) t.tickets
      sessions := update (fun x => decide (x.hostId = hostId) && x.isOpen)
        (fun x => x.close reason' now') t.sessions } := by
  have hsid : ∀ x : SessionRow, (x.close reason' now').id = x.id := fun _ => rfl
  have hkid : ∀ k : TicketRow,
      ({ k with revokedAt := some now, revocationReason := some reason } : TicketRow).id = k.id :=
    fun _ => rfl
  have hshut : ∀ x' ∈ update (fun x => decide (x.hostId = hostId) && x.isOpen)
      (fun x => x.close reason' now') t.sessions, x'.hostId = hostId → x'.state = .closed := by
    intro x' hx' heq
    obtain ⟨x, -, ⟨-, rfl⟩ | ⟨hp, rfl⟩⟩ := mem_update.mp hx'
    · rfl
    · by_contra hopen
      rw [decide_eq_true heq, isOpen_iff.mpr hopen] at hp
      cases hp
  have hmoves : Moves held t { t with
      hosts := update (·.id = hostId) f t.hosts
      tickets := update (fun k => k.hostId = hostId && k.consumedAt.isNone && k.revokedAt.isNone)
        (fun k => { k with revokedAt := some now, revocationReason := some reason }) t.tickets
      sessions := update (fun x => decide (x.hostId = hostId) && x.isOpen)
        (fun x => x.close reason' now') t.sessions } := by
    refine ⟨hosts_evolve hs hheld hid, ?_, ?_⟩
    · refine .update hs.tickets hkid (fun k _ => ⟨.refl k, .inl rfl⟩) fun k _ hp => ?_
      simp only [Bool.and_eq_true, decide_eq_true_eq] at hp
      exact ⟨⟨rfl, fun _ => rfl⟩, .inr (hp.1.1 ▸ hheld)⟩
    · exact .update hs.sessions hsid (fun x _ => .refl x) fun x _ _ => .close x
  refine ⟨⟨?_, hmoves.issued, hmoves.opened, fun _ => .inl, ?_, ?_⟩,
    hmoves.guarantee (hmoves.control hs ?_ ?_)⟩
  · intro k hk k' hk' heq hnone hsome
    rcases updated hs.tickets hkid hk hk' heq with ⟨-, rfl⟩ | ⟨-, rfl⟩
    · exact absurd hnone hsome
    · exact absurd hnone hsome
  · intro hf _
    refine hmoves.fenced hs hf ?_ ?_ fun _ => .inl
    · intro host hhost host' hhost' heq
      rcases updated_host hs hid hhost hhost' heq with ⟨rfl, -⟩ | ⟨-, heq'⟩
      · exact .inl rfl
      · refine .inr fun x' hx' hx'host hactive => ?_
        have hclosed := hshut x' hx' (hx'host.trans heq')
        rw [hactive] at hclosed
        cases hclosed
    · intro x hx x' hx' heq hactive
      rcases updated hs.sessions hsid hx hx' heq with ⟨-, rfl⟩ | ⟨-, rfl⟩
      · exact .inl hactive
      · cases hactive
  · intro _ hconsiderate x hx x' hx' heq hactive hclosed
    rcases updated hs.sessions hsid hx hx' heq with ⟨-, rfl⟩ | ⟨hp, -⟩
    · rw [hactive] at hclosed
      cases hclosed
    · obtain ⟨host, hhost, hhid, hfits⟩ := hs.fits x hx (Bool.and_eq_true_iff.mp hp).2
      have hxhost : x.hostId = hostId := of_decide_eq_true (Bool.and_eq_true_iff.mp hp).1
      refine .host _ (f host) ?_ ((hid host).trans hhid) ?_
      · exact mem_update.mpr ⟨host, hhost, .inl ⟨decide_eq_true (hhid.trans hxhost), rfl⟩⟩
      · exact hunfit hconsiderate host hhost (hhid.trans hxhost) x hx hxhost hactive hfits
  · intro host hhost host' hhost' heq x' hx' hx'host hopen hhost_fits
    rcases updated_host hs hid hhost hhost' heq with ⟨rfl, -⟩ | ⟨-, heq'⟩
    · exact hhost_fits
    · exact absurd (hshut x' hx' (hx'host.trans heq')) (isOpen_iff.mp hopen)
  · intro x' hx' _
    obtain ⟨x, hx, ⟨-, rfl⟩ | ⟨-, rfl⟩⟩ := mem_update.mp hx'
    · exact .inl ⟨_, hx, rfl⟩
    · exact .inl ⟨_, hx, rfl⟩

end Hosts

/-- Rows of hosts and tickets are added, and those that were there stay. -/
theorem commits_added {t' : SshTables} (hs : Control t) (hmoves : Moves held t t')
    (hhosts : ∀ host ∈ t.hosts, ∀ host' ∈ t'.hosts, host'.id = host.id → host' = host)
    (htickets : ∀ k ∈ t.tickets, ∀ k' ∈ t'.tickets, k'.id = k.id → k' = k)
    (hsessions : t'.sessions = t.sessions) (hrefusals : t'.refusals = t.refusals) :
    Commits p held answer t t' := by
  have hsame : ∀ x ∈ t.sessions, ∀ x' ∈ t'.sessions, x'.id = x.id → x' = x := by
    intro x hx x' hx' heq
    rw [hsessions] at hx'
    exact List.inj_on_of_nodup_map hs.sessions hx' hx heq
  refine ⟨⟨?_, hmoves.issued, hmoves.opened, fun r hr => .inl (hrefusals ▸ hr), ?_, ?_⟩,
    hmoves.guarantee (hmoves.control hs ?_ ?_)⟩
  · intro k hk k' hk' heq hnone hsome
    rw [htickets k hk k' hk' heq] at hsome
    exact absurd hnone hsome
  · intro hf _
    refine hmoves.fenced hs hf ?_ ?_ ?_
    · intro host hhost host' hhost' heq
      exact .inl (congrArg HostRow.revision (hhosts host hhost host' hhost' heq))
    · intro x hx x' hx' heq hactive
      rw [hsame x hx x' hx' heq] at hactive
      exact .inl hactive
    · intro r hr
      rw [hrefusals] at hr
      exact .inl hr
  · intro _ _ x hx x' hx' heq hactive hclosed
    rw [hsame x hx x' hx' heq, hactive] at hclosed
    cases hclosed
  · intro host hhost host' hhost' heq _ _ _ _ hfits
    rwa [hhosts host hhost host' hhost' heq]
  · intro x' hx' _
    rw [hsessions] at hx'
    exact .inl ⟨x', hx', rfl⟩

/-- Nothing is written. -/
theorem commits_nothing (hs : Control t) : Commits p held answer t t := by
  refine commits_added hs ⟨?_, ?_, ?_⟩ ?_ ?_ rfl rfl
  · exact .refl hs.hosts fun h _ => .inl rfl
  · exact .refl hs.tickets fun k _ => ⟨.refl k, .inl rfl⟩
  · exact .refl hs.sessions fun x _ => .refl x
  · exact fun h hh h' hh' heq => List.inj_on_of_nodup_map hs.hosts hh' hh heq
  · exact fun k hk k' hk' heq => List.inj_on_of_nodup_map hs.tickets hk' hk heq

/-- A heartbeat is refused. -/
theorem commits_refusal (hs : Control t) {f : Refusal} (hbrowser : f.browser = t.browser)
    (hwarranted : Fenced p t → Considerate t answer → f.Warranted p t) :
    Commits p held answer t { t with refusals := f :: t.refusals } := by
  have hnothing : Commits p held answer t t := commits_nothing hs
  obtain ⟨heffect, hguarantee⟩ := hnothing
  refine ⟨⟨heffect.consumed, heffect.issued, heffect.opened, ?_, ?_, heffect.closed⟩, ?_⟩
  · intro r hr
    rcases List.mem_cons.mp hr with rfl | hr
    · exact .inr hbrowser
    · exact .inl hr
  · intro hf hconsiderate
    refine ⟨hf.revision, ?_⟩
    intro r hr
    rcases List.mem_cons.mp hr with rfl | hr
    · exact hwarranted hf hconsiderate
    · exact hf.refusals r hr
  · refine ⟨⟨hs.hosts, hs.tickets, hs.sessions, hs.fits, hs.single⟩, ?_, ?_⟩
    · exact ⟨hguarantee.always.tickets, hguarantee.always.sessions⟩
    · rintro (key | ⟨q, n⟩) hapart
      · have hkeep := hguarantee.respects _ hapart
        rcases key with id | id | id
        · exact ⟨hkeep.host, hkeep.tickets, hkeep.sessions⟩
        · trivial
        · exact hkeep
      · cases q <;> exact id

section Sessions

variable {q : SessionRow → Bool} {f : SessionRow → SessionRow}

/-- Sessions are updated. -/
theorem commits_sessions (hs : Control t) (hid : ∀ x, (f x).id = x.id) {refusals : List Refusal}
    (hrefusals : ∀ r ∈ refusals, r ∈ t.refusals)
    (hmove : ∀ x ∈ t.sessions, q x = true → SessionMoves held x (f x))
    (hactive : ∀ x ∈ t.sessions, q x = true → (f x).state = .active →
      x.state = .active ∨ ∃ host ∈ t.hosts, host.id = x.hostId ∧ host.revision = x.hostRevision)
    (hclosed : Fenced p t → ∀ x ∈ t.sessions, q x = true → x.state = .active →
      (f x).state = .closed → Justified p t.refusals t.hosts x answer) :
    Commits p held answer t { t with sessions := update q f t.sessions, refusals } := by
  have hmoves : Moves held t { t with sessions := update q f t.sessions, refusals } :=
    ⟨.refl hs.hosts fun h _ => .inl rfl, .refl hs.tickets fun k _ => ⟨.refl k, .inl rfl⟩,
      .update hs.sessions hid (fun x _ => .refl x) hmove⟩
  refine ⟨⟨?_, hmoves.issued, hmoves.opened, fun r hr => .inl (hrefusals r hr), ?_, ?_⟩,
    hmoves.guarantee (hmoves.control hs ?_ ?_)⟩
  · intro k hk k' hk' heq hnone hsome
    rw [List.inj_on_of_nodup_map hs.tickets hk' hk heq] at hsome
    exact absurd hnone hsome
  · intro hf _
    refine hmoves.fenced hs hf ?_ ?_ fun r hr => .inl (hrefusals r hr)
    · intro host hhost host' hhost' heq
      exact .inl (congrArg HostRow.revision (List.inj_on_of_nodup_map hs.hosts hhost' hhost heq))
    · intro x hx x' hx' heq hstate
      rcases updated hs.sessions hid hx hx' heq with ⟨-, rfl⟩ | ⟨hp, rfl⟩
      · exact .inl hstate
      · exact hactive x hx hp hstate
  · intro hf _ x hx x' hx' heq hstate hstate'
    rcases updated hs.sessions hid hx hx' heq with ⟨-, rfl⟩ | ⟨hp, rfl⟩
    · rw [hstate] at hstate'
      cases hstate'
    · exact hclosed hf x hx hp hstate hstate'
  · intro host hhost host' hhost' heq _ _ _ _ hfits
    rwa [List.inj_on_of_nodup_map hs.hosts hhost' hhost heq]
  · intro x' hx' _
    obtain ⟨x, hx, ⟨-, rfl⟩ | ⟨-, rfl⟩⟩ := mem_update.mp hx'
    · exact .inl ⟨x, hx, hid x⟩
    · exact .inl ⟨_, hx, rfl⟩

end Sessions

end Commits

end CtfZone.Ssh
