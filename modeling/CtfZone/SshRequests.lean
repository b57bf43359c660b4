/-
# The requests on SSH hosts keep their promises

Each request by itself keeps the invariant, does to the rows of others only what their locks
allow, and does what its answer says.

* `Keeps` : a request keeps its promises;
* `request_keeps` : all of them do;
* `reach_sound`, `reach_effect`, `reach_later` : what follows for every run.
-/
import CtfZone.SshInvariants

namespace CtfZone.Ssh

open Locking.Program SharedLocks Tables
open Locking (Hold)

variable {p : Platform}

/-- A request keeps its promises, whatever the others do between its statements. -/
def Keeps (p : Platform) (x : Transaction Answer) : Prop :=
  ∀ s, Control s → Meets (promises p) x ⟨[], id, s⟩ fun answer l => l.Commits (promises p) answer

/-! ## Hosts -/

theorem createHost_keeps : Keeps p createHost := by
  intro s hs
  simp only [createHost, meets_bind, meets_nextval, meets_change, meets_pure]
  intro s₁ n h₁ hn t ht
  have hc : Control t := ht.inv
  have hfree : Unused .hosts n t := After.unused ht List.mem_cons_self hn
  have hmoves : Moves [.number .hosts n] t { t with hosts := t.hosts ++ [{
      id := n, enabled := false, identityState := .pending, sshPublicKey := none
      sshKeyFingerprint := none, identityErrorCode := none, trustedHostPublicKey := none
      trustedHostKeyFingerprint := none, authorizedKeyCleanupRequired := false, revision := 1
      deletedAt := none }] } := by
    refine ⟨.insert (.refl hc.hosts fun h _ => .inl rfl) hfree List.mem_cons_self, ?_, ?_⟩
    · exact .refl hc.tickets fun k _ => ⟨.refl k, .inl rfl⟩
    · exact .refl hc.sessions fun x _ => .refl x
  refine commits_added hc hmoves ?_ ?_ rfl rfl
  · exact fun host hhost host' hhost' heq =>
      (hmoves.hosts.rel hhost hhost' heq).resolve_right (by simp)
  · exact fun k hk k' hk' heq => List.inj_on_of_nodup_map hc.tickets hk' hk heq

theorem deleteHost_keeps (hostId : Uuid) (now : Time) : Keeps p (deleteHost hostId now) := by
  intro s hs
  simp only [deleteHost, visibleHostForUpdate, updateHost, revokeTickets, closeSessions, meets_bind,
    meets_acquire, meets_fetchOne, meets_change, meets_pure]
  intro s₁ h₁ s₂ h₂ host hhost t ht
  refine commits_shut ht.inv List.mem_cons_self ?_ ?_
  · exact fun _ => rfl
  · intro _ h _ _ x _ _ _ _ hfits
    cases hfits.deletedAt

/-- A host that is not ready changes. -/
theorem commits_unready {held : List (Hold LockKey Sequence)} {t : SshTables} {answer : Answer}
    {hostId : Uuid} {host : HostRow} {f : HostRow → HostRow} (hs : Control t)
    (hheld : .lock (.host hostId) ∈ held) (hid : ∀ h, (f h).id = h.id) (hhost : host ∈ t.hosts)
    (hhid : host.id = hostId) (hstate : host.identityState ≠ .ready) :
    Commits p held answer t { t with hosts := update (·.id = hostId) f t.hosts } := by
  refine commits_changed hs hheld hid ?_ fun _ => hhid ▸ hs.inactive hhost hstate
  intro h hh heq x hfits
  rw [List.inj_on_of_nodup_map hs.hosts hh hhost (heq.trans hhid.symm)] at hfits
  exact absurd hfits.identityState hstate

theorem retryIdentity_keeps (hostId : Uuid) : Keeps p (retryIdentity hostId) := by
  intro s hs
  simp only [retryIdentity, visibleHostForUpdate, updateHost, meets_bind, meets_acquire,
    meets_fetchOne, meets_check, meets_change, meets_pure, decide_eq_true_eq]
  intro s₁ h₁ s₂ h₂ host hhost hfailed t ht
  obtain ⟨hmem, hid, -⟩ := visibleHost_eq hhost
  refine commits_unready ht.inv List.mem_cons_self (fun _ => rfl)
    ((After.host ht List.mem_cons_self).host host hmem hid) hid ?_
  rw [hfailed]
  decide

theorem completeGeneration_keeps (hostId : Uuid) (publicKey : String) :
    Keeps p (completeGeneration p hostId publicKey) := by
  intro s hs
  simp only [completeGeneration, hostForUpdate, updateHost, meets_bind, meets_acquire,
    meets_fetchOne, meets_check, Bool.and_eq_true, decide_eq_true_eq]
  rintro s₁ h₁ s₂ h₂ host hhost ⟨-, hpending⟩
  obtain ⟨hmem, hid⟩ := host_eq hhost
  split
  · trivial
  · intro t ht
    refine commits_unready ht.inv List.mem_cons_self (fun _ => rfl)
      ((After.host ht List.mem_cons_self).host host hmem hid) hid ?_
    rw [hpending]
    decide

theorem failGeneration_keeps (hostId : Uuid) (errorCode : String) :
    Keeps p (failGeneration hostId errorCode) := by
  intro s hs
  simp only [failGeneration, hostForUpdate, updateHost, meets_bind, meets_acquire, meets_fetchOne,
    meets_onlyIf, meets_change, meets_pure, Bool.and_eq_true, decide_eq_true_eq]
  intro s₁ h₁ s₂ h₂ host hhost
  obtain ⟨hmem, hid⟩ := host_eq hhost
  constructor
  · rintro ⟨-, hpending⟩ t ht
    refine commits_unready ht.inv List.mem_cons_self (fun _ => rfl)
      ((After.host ht List.mem_cons_self).host host hmem hid) hid ?_
    rw [hpending]
    decide
  · intro _ t ht
    exact commits_nothing ht.inv

theorem trustHostKey_keeps (hostId candidateId : Uuid) (fingerprint : String) (revision : ℕ)
    (now : Time) : Keeps p (trustHostKey hostId candidateId fingerprint revision now) := by
  intro s hs
  simp only [trustHostKey, visibleHostForUpdate, updateHost, revokeTickets, closeSessions,
    meets_bind, meets_acquire, meets_fetchOne, meets_check, meets_change, meets_pure]
  intro s₁ h₁ s₂ h₂ host hhost _ _ s₃ h₃ candidate _ _ t ht
  refine commits_shut ht.inv List.mem_cons_self ?_ ?_
  · exact fun _ => rfl
  · -- the session is active under the fingerprint that is trusted again
    intro hconsiderate h hh heq x hx hxhost hactive hfits hfits'
    refine hconsiderate ⟨h, hh, heq, ?_⟩ x hx hxhost hactive
    rw [hfits.fingerprint, ← hfits'.fingerprint]

theorem reportHostKeyCandidate_keeps (hostId ticketId gateway : Uuid) (publicKey : String)
    (now : Time) : Keeps p (reportHostKeyCandidate p hostId ticketId gateway publicKey now) := by
  intro s hs
  unfold reportHostKeyCandidate
  split
  · trivial
  · simp only [hostForUpdate, updateHost, meets_bind, meets_acquire, meets_fetchOne, meets_check,
      meets_select, meets_nextval, meets_change, meets_pure]
    intro s₁ h₁ s₂ h₂ host hhost _ s₃ h₃ _ s₄ n h₄ _ t ht
    have hcommits : ∀ candidates, Commits p [.number .candidates n, .lock (.host hostId)]
        (.observed hostId) t { t with
          hosts := update (·.id = hostId) (fun h => { h with revision := h.revision + 1 }) t.hosts
          candidates } := by
      intro candidates
      refine commits_changed ht.inv (List.mem_cons_of_mem _ List.mem_cons_self) ?_ ?_ ?_
      · exact fun _ => rfl
      · intro h _ _ x hfits
        exact ⟨hfits.deletedAt, hfits.enabled, hfits.identityState, hfits.fingerprint⟩
      · exact fun hinactive => hinactive
    simp only [Function.comp]
    split
    · exact hcommits _
    · exact hcommits _

theorem reportIdentityInvalid_keeps (hostId : Uuid) (errorCode : String) (now : Time) :
    Keeps p (reportIdentityInvalid hostId errorCode now) := by
  intro s hs
  simp only [reportIdentityInvalid, hostForUpdate, updateHost, revokeTickets, closeSessions,
    meets_bind, meets_acquire, meets_fetchOne, meets_check]
  intro _ s₁ h₁ s₂ h₂ host hhost _
  split
  · intro t ht
    exact commits_nothing ht.inv
  · simp only [meets_bind, meets_check, meets_change, meets_pure]
    intro _ t ht
    refine commits_shut ht.inv List.mem_cons_self ?_ ?_
    · exact fun _ => rfl
    · intro _ h _ _ x _ _ _ _ hfits
      cases hfits.enabled

/-! ## Tickets -/

theorem issueTicket_keeps (userId : ℤ) (browserSessionId requestIp : String) (hostId : Uuid)
    (purpose : TicketPurpose) (ticket : String) (now : Time) :
    Keeps p (issueTicket p userId browserSessionId requestIp hostId purpose ticket now) := by
  intro s hs
  unfold issueTicket
  split
  · trivial
  · rename_i requestIp' _
    simp only [visibleHostForUpdate, validateTicketHost, meets_bind, meets_acquire, meets_fetchOne,
      meets_check, meets_select, meets_nextval, meets_change, meets_pure]
    intro s₁ h₁ _ s₂ h₂ s₃ h₃ host hhost _ _ s₄ h₄ s₅ h₅ _ s₆ n h₆ hn t ht
    have hc : Control t := ht.inv
    have hfree : Unused .tickets n t := After.unused ht List.mem_cons_self hn
    have hmoves : Moves [.number .tickets n, .lock (.host hostId)] t { t with
        tickets := t.tickets ++ [{
          id := n, hostId, purpose, tokenSha256 := p.sha256 ticket, issuedToUserId := userId
          browserSessionId, requestIp := requestIp', issuedAt := now
          expiresAt := now + seconds 30, consumedAt := none, consumedByGateway := none
          revokedAt := none, revocationReason := none }] } := by
      refine ⟨.refl hc.hosts fun h _ => .inl rfl, ?_, .refl hc.sessions fun x _ => .refl x⟩
      exact .insert (.refl hc.tickets fun k _ => ⟨.refl k, .inl rfl⟩) hfree
        ⟨List.mem_cons_self, rfl⟩
    refine commits_added hc hmoves ?_ ?_ rfl rfl
    · exact fun h hh h' hh' heq => List.inj_on_of_nodup_map hc.hosts hh' hh heq
    · intro k hk k' hk' heq
      rcases List.mem_append.mp hk' with hk' | hk'
      · exact List.inj_on_of_nodup_map hc.tickets hk' hk heq
      · obtain rfl := List.mem_singleton.mp hk'
        exact absurd heq.symm (hfree k hk)

/-- The stale sessions are closed. -/
def closeStale (stale : List Uuid) (now : Time) (t : SshTables) : SshTables :=
  { t with
    sessions := update (fun x => (stale.contains x.id && x.stale now) && x.isOpen)
      (fun x => x.close
        (if x.state = .connecting then "connect_timeout" else "heartbeat_timeout") now)
      t.sessions }

/-- No open session of the administrator on the host is left. -/
def Vacant (hostId : Uuid) (userId : ℤ) (t : SshTables) : Prop :=
  ∀ x ∈ t.sessions, x.isOpen = true → x.hostId = hostId → x.adminUserId ≠ userId

/-- Where there is room, there is room at the commit: the others do not open a session on a
host that is locked, and a stale session that is locked stays stale. -/
theorem Vacant.later {l : Local SshTables LockKey Sequence} {t : SshTables} {hostId : Uuid}
    {userId : ℤ} {now : Time} {stale : List Uuid} (ht : l.After (promises p) t)
    (hlocked : ∀ id ∈ stale, .lock (.session id) ∈ l.held)
    (hheld : .lock (.host hostId) ∈ l.held)
    (h : Vacant hostId userId (closeStale stale now l.store)) :
    Vacant hostId userId (closeStale stale now t) := by
  intro x' hx' hopen hhost hadmin
  obtain ⟨x, hx, ⟨-, rfl⟩ | ⟨hmatch, rfl⟩⟩ := mem_update.mp hx'
  · cases hopen
  · obtain ⟨x₀, hx₀, hid, hlater, hstate⟩ := (After.host ht hheld).sessions x hx hhost hopen
    have hopen₀ : x₀.isOpen = true := hlater.isOpen hopen
    -- the session has not been closed before, either
    have hkept : x₀ ∈ (closeStale stale now l.store).sessions := by
      refine mem_update.mpr ⟨x₀, hx₀, .inr ⟨?_, rfl⟩⟩
      by_cases hstale : x₀.id ∈ stale
      · rcases After.session ht (hlocked _ hstale) x₀ hx₀ rfl with hsame | ⟨y, hy, hyid, hclosed⟩
        · rwa [List.inj_on_of_nodup_map ht.inv.sessions hsame hx hid.symm]
        · obtain rfl := List.inj_on_of_nodup_map ht.inv.sessions hy hx (hyid.trans hid.symm)
          exact absurd hclosed (isOpen_iff.mp hopen)
      · have hcontains : stale.contains x₀.id = false := by
          rw [List.contains_eq_mem, decide_eq_false hstale]
        rw [hcontains, Bool.false_and, Bool.false_and]
    exact h x₀ hkept hopen₀ (hlater.hostId.symm.trans hhost) (hlater.adminUserId.symm.trans hadmin)

/-- There is room where it has been made. -/
theorem meets_makeRoom {held : List (Hold LockKey Sequence)} {s : SshTables} {hostId : Uuid}
    {userId : ℤ} {now : Time} {Q : Unit → Local SshTables LockKey Sequence → Prop}
    (h : ∀ held' s' stale, Local.Extends (promises p) ⟨held, id, s⟩
        ⟨held', closeStale stale now, s'⟩ → Control s' →
      (∀ id ∈ stale, .lock (.session id) ∈ held') →
      Vacant hostId userId (closeStale stale now s') →
      Q ⟨⟩ ⟨held', closeStale stale now, s'⟩) :
    Meets (promises p) (makeRoom hostId userId now) ⟨held, id, s⟩ Q := by
  simp only [makeRoom, meets_bind, meets_select]
  intro s₁ h₁
  refine meets_acquireAll h₁.inv fun l' hext hpending _ hlocked => ?_
  obtain ⟨held', pending, s'⟩ := l'
  obtain rfl : pending = id := hpending
  simp only [closeSessions, meets_change, meets_check, decide_eq_true_eq]
  intro s₂ h₂ hnone
  refine h held' s₂ _ ?_ h₂.inv ?_ ?_
  · exact ((h₁.extends (fun _ => id) _).trans hext).trans
      (Local.After.extends (t := ⟨held', id, s'⟩) ⟨h₂.inv, h₂.rely⟩ (fun _ => id) _)
  · exact fun id hid => hlocked _ (List.mem_map_of_mem hid)
  · intro x hx hopen hhost hadmin
    refine List.countP_eq_zero.mp hnone x hx ?_
    rw [decide_eq_true hhost, decide_eq_true hadmin, hopen]
    rfl

/-- What is known, at the commit, of a ticket that is consumed. -/
structure Presented (p : Platform) (t : SshTables) (host : HostRow) (ticket : TicketRow)
    (c : Consumption) : Prop where
  isHost : host ∈ t.hosts
  isTicket : ticket ∈ t.tickets
  hostId : ticket.hostId = host.id
  id : c.ticketId = ticket.id
  consumedAt : ticket.consumedAt = none
  revokedAt : ticket.revokedAt = none
  expiry : c.now < ticket.expiresAt
  clock : c.clock < ticket.expiresAt
  clientIp : ticket.requestIp = c.clientIp
  browser : p.ticketSessionIsValid c.browser ticket.browserSessionId ticket.issuedToUserId c.now =
    true

/-- A ticket is consumed, and a session may be opened in place of stale ones. -/
theorem commits_consumed {held : List (Hold LockKey Sequence)} {t : SshTables} {host : HostRow}
    {ticket : TicketRow} {c : Consumption} {sessions : List SessionRow} (hc : Control t)
    (hpresented : Presented p t host ticket c) (hheld : .lock (.host host.id) ∈ held)
    (hsessions : Evolves SessionRow.id
      (fun x x' => SessionMoves held x x' ∧
        (x' = x ∨ x'.state = .closed ∧ (x.state = .active → x.lastBeat < c.now - seconds 45)))
      (fun x' => .number .sessions x'.id ∈ held ∧ .lock (.host x'.hostId) ∈ held ∧
        x'.state = .connecting) t.sessions sessions)
    (hnew : ∀ x' ∈ sessions, x'.isOpen = true → (∃ x ∈ t.sessions, x'.id = x.id) ∨
      (∃ host' ∈ t.hosts, host'.id = x'.hostId ∧ HostFits host' x') ∧
        ∀ y ∈ sessions, y.isOpen = true → y.hostId = x'.hostId →
          y.adminUserId = x'.adminUserId → y = x') :
    Commits p held (.consumed c) t { t with
      tickets := update (fun k => k.id = ticket.id && k.consumedAt.isNone &&
          k.revokedAt.isNone && c.now < k.expiresAt)
        (fun k => { k with
          consumedAt := some c.now, consumedByGateway := some c.gatewayInstanceId }) t.tickets
      sessions } := by
  have hid : ∀ k : TicketRow, ({ k with
      consumedAt := some c.now, consumedByGateway := some c.gatewayInstanceId } : TicketRow).id =
        k.id := fun _ => rfl
  have hthis : ∀ k ∈ t.tickets, (decide (k.id = ticket.id) && k.consumedAt.isNone &&
      k.revokedAt.isNone && decide (c.now < k.expiresAt)) = true → k = ticket := by
    intro k hk hmatch
    simp only [Bool.and_eq_true, decide_eq_true_eq] at hmatch
    exact List.inj_on_of_nodup_map hc.tickets hk hpresented.isTicket hmatch.1.1.1
  have hmoves : Moves held t { t with
      tickets := update (fun k => k.id = ticket.id && k.consumedAt.isNone &&
          k.revokedAt.isNone && c.now < k.expiresAt)
        (fun k => { k with
          consumedAt := some c.now, consumedByGateway := some c.gatewayInstanceId }) t.tickets
      sessions } := by
    refine ⟨.refl hc.hosts fun h _ => .inl rfl, ?_, ?_⟩
    · refine .update hc.tickets hid (fun k _ => ⟨.refl k, .inl rfl⟩) fun k hk hmatch => ?_
      obtain rfl := hthis k hk hmatch
      exact ⟨⟨rfl, fun hne => absurd hpresented.consumedAt hne⟩,
        .inr (hpresented.hostId ▸ hheld)⟩
    · refine ⟨hsessions.nodup, ?_, ?_⟩
      · intro x hx
        obtain ⟨x', hx', heq, hrel, -⟩ := hsessions.forth x hx
        exact ⟨x', hx', heq, hrel⟩
      · intro x' hx'
        exact (hsessions.back x' hx').imp_left fun ⟨x, hx, heq, hrel, _⟩ => ⟨x, hx, heq, hrel⟩
  have hsame : ∀ h ∈ t.hosts, ∀ h' ∈ t.hosts, h'.id = h.id → h' = h :=
    fun h hh h' hh' heq => List.inj_on_of_nodup_map hc.hosts hh' hh heq
  refine ⟨⟨?_, hmoves.issued, hmoves.opened, fun _ => .inl, ?_, ?_⟩,
    hmoves.guarantee (hmoves.control hc ?_ hnew)⟩
  · intro k hk k' hk' heq hnone hsome
    rcases updated hc.tickets hid hk hk' heq with ⟨-, rfl⟩ | ⟨hmatch, rfl⟩
    · exact absurd hnone hsome
    · obtain rfl := hthis k hk hmatch
      exact ⟨c, rfl, hpresented.id, hpresented.revokedAt, hpresented.expiry, hpresented.clock,
        hpresented.clientIp, hpresented.browser, rfl, rfl⟩
  · intro hf _
    refine hmoves.fenced hc hf ?_ ?_ fun _ => .inl
    · intro h hh h' hh' heq
      exact .inl (congrArg HostRow.revision (hsame h hh h' hh' heq))
    · intro x hx x' hx' heq hactive
      rcases (hsessions.rel hx hx' heq).2 with rfl | ⟨hclosed, -⟩
      · exact .inl hactive
      · exact absurd (hactive.symm.trans hclosed) (by decide)
  · intro _ _ x hx x' hx' heq hactive hclosed
    rcases (hsessions.rel hx hx' heq).2 with rfl | ⟨-, hstale⟩
    · exact absurd (hactive.symm.trans hclosed) (by decide)
    · exact .overdue c (hstale hactive)
  · intro h hh h' hh' heq _ _ _ _ hfits
    rwa [hsame h hh h' hh' heq]

theorem consumeTicket_keeps (request : ConsumeTicketRequest) (now clock : Time) :
    Keeps p (consumeTicket p request now clock) := by
  intro s hs
  unfold consumeTicket
  split
  · trivial
  · rename_i clientIp _
    simp only [hostForUpdate, meets_bind, meets_acquire, meets_fetchOne, meets_check, meets_select]
    intro _ s₁ h₁ preview hpreview s₂ h₂ s₃ h₃ host hhost s₄ h₄ s₅ h₅ ticket hticket hticketok
      hready hterminal s₆ h₆ hvalid
    obtain ⟨hhostmem, hhid⟩ := host_eq hhost
    have hpreviewmem := ticketByDigest_eq hpreview
    have hticketmem := ticketByDigest_eq hticket
    simp only [Bool.and_eq_true, decide_eq_true_eq, Option.isNone_iff_eq_none] at hticketok hready
    obtain ⟨⟨⟨⟨htid, hconsumed⟩, hrevoked⟩, hclock⟩, hip⟩ := hticketok
    -- the ticket is of the host that is locked
    have hthost : ticket.hostId = host.id := by
      have hlater : Later s₁ s₅ := (h₂.rely.always.trans h₃.rely.always).trans
        (h₄.rely.always.trans h₅.rely.always)
      obtain ⟨k, hk, hkid, hklater⟩ := hlater.tickets preview hpreviewmem
      obtain rfl := List.inj_on_of_nodup_map h₅.inv.tickets hk hticketmem (hkid.trans htid.symm)
      rw [hhid, hklater.fixed]
    -- what is known of the ticket stays so until the commit
    have hknown : ∀ t pending, Local.After (promises p)
        ⟨[.lock (.ticket preview.id), .lock (.host preview.hostId)], pending, s₆⟩ t →
        now < ticket.expiresAt → Presented p t host ticket {
          ticketId := ticket.id, gatewayInstanceId := request.gatewayInstanceId, clientIp, now
          clock, browser := s₆.browser } := by
      intro t pending ht hexpiry
      refine ⟨?_, ?_, hthost, rfl, hconsumed, hrevoked, hexpiry, hclock, hip, hvalid⟩
      · exact (After.host (h₄.before ((h₅.since h₆).since ht)) List.mem_cons_self).host
          host hhostmem hhid
      · exact (After.host (h₆.since ht) (List.mem_cons_of_mem _ List.mem_cons_self)).tickets
          ticket hticketmem (hthost.trans hhid)
    rw [meets_onlyIf]
    constructor
    · intro hpurpose
      refine meets_makeRoom fun held s' stale hext _ hlocked hvacant => ?_
      simp only [hpurpose, onlyIf, if_true, meets_change, decide_eq_true_eq]
      intro hexpiry
      unfold openTerminal
      split
      · trivial
      · rename_i fingerprint hfingerprint
        simp only [meets_bind, meets_nextval, meets_change, meets_pure]
        intro s₇ n h₇ hn t ht
        have hc : Control t := ht.inv
        have hfree : Unused .sessions n t := After.unused ht List.mem_cons_self hn
        have hheld : .lock (.host host.id) ∈ held := by
          rw [hhid]
          exact hext.held _ (List.mem_cons_of_mem _ List.mem_cons_self)
        have hsince := h₇.before ht
        have hroom : Vacant host.id ticket.issuedToUserId (closeStale stale now t) :=
          Vacant.later hsince hlocked hheld hvacant
        have hpresented := hknown t id (hext.after t ⟨hsince.inv, hsince.rely⟩) hexpiry
        refine commits_consumed hc hpresented (List.mem_cons_of_mem _ hheld) ?_ ?_
        · refine .insert (.update hc.sessions ?_ ?_ ?_) hfree ⟨?_, ?_, rfl⟩
          · exact fun _ => rfl
          · exact fun x _ => ⟨.refl x, .inl rfl⟩
          · intro x _ hmatch
            refine ⟨.close x, .inr ⟨rfl, fun hactive => ?_⟩⟩
            simp only [SessionRow.stale, hactive, Bool.and_eq_true, Bool.or_eq_true,
              decide_eq_true_eq] at hmatch
            rcases hmatch.1.2 with ⟨hconnecting, -⟩ | ⟨-, hstale⟩
            · cases hconnecting
            · exact hstale
          · exact List.mem_cons_self
          · exact List.mem_cons_of_mem _ hheld
        · intro x' hx' _
          rcases List.mem_append.mp hx' with hx' | hx'
          · obtain ⟨x, hx, ⟨-, rfl⟩ | ⟨-, rfl⟩⟩ := mem_update.mp hx'
            · exact .inl ⟨_, hx, rfl⟩
            · exact .inl ⟨_, hx, rfl⟩
          · obtain rfl := List.mem_singleton.mp hx'
            refine .inr ⟨⟨host, ?_, rfl, ?_⟩, ?_⟩
            · exact hpresented.isHost
            · simp only [hpurpose, Bool.true_and, Bool.not_or, Bool.not_not, Bool.and_eq_true]
                at hterminal
              exact ⟨hready.1, hterminal.1, hready.2, hfingerprint⟩
            · intro y hy hopen hhost hadmin
              rcases List.mem_append.mp hy with hy | hy
              · exact absurd hadmin (hroom y hy hopen hhost)
              · exact List.mem_singleton.mp hy
    · intro hpurpose
      simp only [hpurpose, onlyIf, meets_change, decide_eq_true_eq]
      intro hexpiry t ht
      have hc : Control t := ht.inv
      have hheld : (.lock (.host host.id) : Hold LockKey Sequence) ∈
          [.lock (.ticket preview.id), .lock (.host preview.hostId)] := by
        rw [hhid]
        exact List.mem_cons_of_mem _ List.mem_cons_self
      refine commits_consumed hc (hknown t _ ht hexpiry) hheld ?_ fun x hx _ => .inl ⟨x, hx, rfl⟩
      exact .refl hc.sessions fun x _ => ⟨.refl x, .inl rfl⟩

/-! ## Sessions -/

theorem sessionClosed_keeps (sessionId gateway : Uuid) (reason : String) (now : Time) :
    Keeps p (sessionClosed sessionId gateway reason now) := by
  intro s hs
  simp only [sessionClosed, closeSessions, meets_bind, meets_fetchOne, meets_check, meets_acquire,
    meets_change, meets_pure]
  intro s₁ h₁ preview hpreview _ s₂ h₂ t ht
  refine commits_sessions ht.inv ?_ (fun _ => id) ?_ ?_ ?_
  · exact fun _ => rfl
  · exact fun x _ _ => .close x
  · intro x _ _ hactive
    cases hactive
  · intro _ x hx hmatch _ _
    simp only [Bool.and_eq_true, decide_eq_true_eq] at hmatch
    rw [← hmatch.1.1, ← hmatch.1.2]
    exact .reported

theorem closeRefused_keeps (refusal : Refusal) (now : Time) :
    Keeps p (closeRefused refusal now) := by
  intro s hs
  simp only [closeRefused, meets_bind, meets_acquire, meets_change, meets_pure]
  intro s₁ h₁ t ht
  simp only [Function.comp, id]
  split
  · rename_i hmem
    refine commits_sessions ht.inv ?_ (fun r hr => List.mem_of_mem_erase hr) ?_ ?_ ?_
    · exact fun _ => rfl
    · exact fun x _ _ => .close x
    · intro x _ _ hactive
      cases hactive
    · intro hf x hx hmatch hactive _
      simp only [Bool.and_eq_true, decide_eq_true_eq] at hmatch
      obtain ⟨x', hx', hid, -, hwarranted⟩ := hf.refusals refusal hmem
      obtain rfl := List.inj_on_of_nodup_map ht.inv.sessions hx' hx (hid.trans hmatch.1.1.symm)
      exact .closedRefused refusal hmem hid.symm (hwarranted hactive hmatch.1.2)
  · exact commits_nothing ht.inv

theorem heartbeat_keeps (sessionId gateway : Uuid) (now : Time) :
    Keeps p (heartbeat p sessionId gateway now) := by
  intro s hs
  simp only [heartbeat, meets_bind, meets_acquire, meets_change, meets_pure]
  intro s₁ h₁ t ht
  have hc : Control t := ht.inv
  simp only [Function.comp, id]
  split
  · refine commits_sessions hc ?_ (fun _ => id) ?_ ?_ ?_
    · exact fun _ => rfl
    · intro x _ hmatch
      simp only [heartbeatMatches, Bool.and_eq_true, decide_eq_true_eq] at hmatch
      have hid : x.id = sessionId := hmatch.1.1.1.1
      refine ⟨⟨rfl, .inl rfl⟩, fun _ => .inl rfl, fun _ => .inr ?_⟩
      rw [hid]
      exact List.mem_cons_self
    · exact fun x _ _ hactive => .inl hactive
    · intro _ x _ _ hactive hclosed
      exact absurd (hactive.symm.trans hclosed) (by decide)
  · rename_i hnone
    refine commits_refusal hc rfl ?_
    rintro hf ⟨x, hx, hid, hstate⟩
    refine ⟨x, hx, hid, hstate, fun hactive hgateway => ?_⟩
    -- the host still fits the session, so that its browser session does not
    have hopen : x.isOpen = true := isOpen_iff.mpr (by rw [hactive]; decide)
    obtain ⟨host, hhost, hhid, hfits⟩ := hc.fits x hx hopen
    have hauthorized : authorized host x = true := by
      simp only [authorized, hfits.deletedAt, hfits.enabled, hfits.fingerprint,
        hf.revision x hx hactive host hhost hhid, Option.isNone_none, decide_true, Bool.and_self]
    have hhosts : (t.hosts.any fun h => h.id = x.hostId && authorized h x) = true := by
      refine List.any_eq_true.mpr ⟨host, hhost, ?_⟩
      rw [decide_eq_true hhid, hauthorized]
      rfl
    by_contra hvalid
    rw [Bool.not_eq_false] at hvalid
    refine hnone (List.any_eq_true.mpr ⟨x, hx, ?_⟩)
    rw [heartbeatMatches, decide_eq_true hid, decide_eq_true hgateway, decide_eq_true hactive,
      hhosts, hvalid]
    rfl

theorem sessionConnected_keeps (sessionId gateway : Uuid) (now : Time) :
    Keeps p (sessionConnected p sessionId gateway now) := by
  intro s hs
  simp only [sessionConnected, hostForUpdate, meets_bind, meets_fetchOne, meets_acquire,
    meets_select]
  intro s₁ h₁ preview hpreview s₂ h₂ s₃ h₃ host hhost s₄ h₄ s₅ h₅
  obtain ⟨hmem, hid⟩ := session_eq hpreview
  obtain ⟨hhostmem, hhid⟩ := host_eq hhost
  -- what is known of the host and of the session at the commit
  have hknown : ∀ t pending, Local.After (promises p)
      ⟨[.lock (.session sessionId), .lock (.host preview.hostId)], pending, s₅⟩ t →
      host ∈ t.hosts ∧ ∀ x ∈ t.sessions, x.id = sessionId → SessionLater preview x := by
    intro t pending ht
    have hlater : Later s₁ t :=
      (h₂.rely.always.trans h₃.rely.always).trans
        ((h₄.rely.always.trans h₅.rely.always).trans ht.rely.always)
    refine ⟨(After.host ((h₄.since h₅).before ht) List.mem_cons_self).host host hhostmem hhid, ?_⟩
    intro x hx hxid
    obtain ⟨x', hx', hid', hx'later⟩ := hlater.sessions preview hmem
    rwa [List.inj_on_of_nodup_map ht.inv.sessions hx hx' (hxid.trans (hid'.trans hid).symm)]
  split
  · rename_i hvalid
    simp only [meets_bind, meets_select, meets_check, meets_change, meets_pure]
    intro s₆ h₆ _ t ht
    obtain ⟨hhostmem', hpreview'⟩ := hknown t _ (h₆.since ht)
    simp only [authorized, Bool.and_eq_true, decide_eq_true_eq] at hvalid
    refine commits_sessions ht.inv ?_ (fun _ => id) ?_ ?_ ?_
    · exact fun _ => rfl
    · intro x hx hmatch
      simp only [Bool.and_eq_true, decide_eq_true_eq] at hmatch
      have hlater := hpreview' x hx hmatch.1.1
      refine ⟨⟨rfl, .inr (.inl ⟨hmatch.2, rfl⟩)⟩, fun _ => .inr ?_, fun _ => .inr ?_⟩
      · rw [hlater.hostId]
        exact List.mem_cons_of_mem _ List.mem_cons_self
      · rw [hmatch.1.1]
        exact List.mem_cons_self
    · intro x hx hmatch _
      simp only [Bool.and_eq_true, decide_eq_true_eq] at hmatch
      have hlater := hpreview' x hx hmatch.1.1
      refine .inr ⟨host, hhostmem', hhid.trans hlater.hostId.symm, ?_⟩
      rw [hlater.hostRevision]
      exact hvalid.1.1.2
    · intro _ x _ _ _ hclosed
      cases hclosed
  · rename_i hinvalid
    simp only [closeSessions, meets_bind, meets_change, meets_pure]
    intro t ht
    obtain ⟨hhostmem', hpreview'⟩ := hknown t _ ht
    refine commits_sessions ht.inv ?_ (fun _ => id) ?_ ?_ ?_
    · exact fun _ => rfl
    · exact fun x _ _ => .close x
    · intro x _ _ hactive
      cases hactive
    · intro hf x hx hmatch hactive _
      simp only [Bool.and_eq_true, decide_eq_true_eq] at hmatch
      have hlater := hpreview' x hx hmatch.1
      -- the host still fits the session, so that its browser session does not
      obtain ⟨host', hhost', hhid', hfits⟩ := ht.inv.fits x hx hmatch.2
      obtain rfl := List.inj_on_of_nodup_map ht.inv.hosts hhost' hhostmem'
        (hhid'.trans (hlater.hostId.trans hhid.symm))
      have hauthorized : authorized host' preview = true := by
        simp only [authorized, hfits.deletedAt, hfits.enabled, hfits.fingerprint,
          hf.revision x hx hactive host' hhost' hhid', hlater.hostRevision, hlater.fingerprint,
          Option.isNone_none, decide_true, Bool.and_self]
      rw [hauthorized, Bool.true_and, Bool.not_eq_true] at hinvalid
      rw [← hmatch.1]
      refine .refused _ _ ?_
      rwa [hlater.browserSessionId, hlater.adminUserId]

/-! ## All requests -/

/-- **Every request keeps its promises.** -/
theorem request_keeps (r : Request) : Keeps p (r.transaction p) := by
  cases r with
  | createHost => exact createHost_keeps
  | deleteHost hostId now => exact deleteHost_keeps hostId now
  | retryIdentity hostId => exact retryIdentity_keeps hostId
  | completeGeneration hostId publicKey => exact completeGeneration_keeps hostId publicKey
  | failGeneration hostId errorCode => exact failGeneration_keeps hostId errorCode
  | trustHostKey hostId candidateId fingerprint revision now =>
      exact trustHostKey_keeps hostId candidateId fingerprint revision now
  | reportHostKeyCandidate hostId ticketId gateway publicKey now =>
      exact reportHostKeyCandidate_keeps hostId ticketId gateway publicKey now
  | reportIdentityInvalid hostId errorCode now =>
      exact reportIdentityInvalid_keeps hostId errorCode now
  | issueTicket userId browserSessionId requestIp hostId purpose ticket now =>
      exact issueTicket_keeps userId browserSessionId requestIp hostId purpose ticket now
  | consumeTicket request now clock => exact consumeTicket_keeps request now clock
  | sessionConnected sessionId gateway now => exact sessionConnected_keeps sessionId gateway now
  | heartbeat sessionId gateway now => exact heartbeat_keeps sessionId gateway now
  | closeRefused refusal now => exact closeRefused_keeps refusal now
  | sessionClosed sessionId gateway reason now =>
      exact sessionClosed_keeps sessionId gateway reason now

/-- What else happens does not touch the tables of the control plane. -/
theorem event_guarantee (e : Event) (t : SshTables) (hs : Control t) :
    (promises p).Guarantee [] t (e.apply t) := by
  obtain ⟨browser⟩ := e
  have hnothing : Commits p [] .done t t := commits_nothing hs
  obtain ⟨-, hguarantee⟩ := hnothing
  refine ⟨⟨hs.hosts, hs.tickets, hs.sessions, hs.fits, hs.single⟩, ?_, ?_⟩
  · exact ⟨hguarantee.always.tickets, hguarantee.always.sessions⟩
  · rintro ((id | id | id) | ⟨_ | _ | _ | _, n⟩) hapart
    · have hkeep : KeepHost id t t := hguarantee.respects _ hapart
      exact ⟨hkeep.host, hkeep.tickets, hkeep.sessions⟩
    · trivial
    · exact fun x hx _ => .inl hx
    all_goals exact id

/-- There is no host, and nothing in flight. -/
theorem Initial.sound {s : ControlPlane} (h : Initial s) : (promises p).Sound s := by
  have hhosts : ∀ host, host ∉ s.store.hosts := by
    intro host hhost
    rw [h.hosts] at hhost
    cases hhost
  have htickets : ∀ k, k ∉ s.store.tickets := by
    intro k hk
    rw [h.tickets] at hk
    cases hk
  have hsessions : ∀ x, x ∉ s.store.sessions := by
    intro x hx
    rw [h.sessions] at hx
    cases hx
  have hcontrol : Control s.store := by
    refine ⟨?_, ?_, ?_, ?_, ?_⟩
    · rw [h.hosts]
      exact List.nodup_nil
    · rw [h.tickets]
      exact List.nodup_nil
    · rw [h.sessions]
      exact List.nodup_nil
    · exact fun x hx => absurd hx (hsessions x)
    · exact fun x hx => absurd hx (hsessions x)
  have hunused : ∀ q n, Unused q n s.store := by
    intro q n
    cases q with
    | hosts => exact fun host hhost => absurd hhost (hhosts host)
    | tickets => exact fun k hk => absurd hk (htickets k)
    | sessions => exact fun x hx => absurd hx (hsessions x)
    | candidates => exact trivial
  exact Protocol.Sound.idle hcontrol (fun q n _ => hunused q n) h.running

section Runs

variable {guard : ControlPlane → Locking.Label Request Event → Prop} {s s' : ControlPlane}

/-- **The control plane is well formed in every state of every run.** -/
theorem reach_sound (h : Runs.Reach (controlStep p) guard Initial s) : (promises p).Sound s :=
  Protocol.invariant request_keeps event_guarantee (fun _ hs => hs.sound) h

/-- What a step does to the store is what a commit has done, or something else has changed
the browser sessions. -/
theorem step_effect (h : Runs.Reach (controlStep p) guard Initial s)
    {l : Locking.Label Request Event} (hstep : controlStep p l s = some s') :
    s'.store = { s.store with browser := s'.store.browser } ∨
      ∃ i n a answer, l = .advance i n ∧ Slots.at' id s.running i = some a ∧
        a.program = .done answer ∧ Effect p answer s.store s'.store := by
  rcases SharedLocks.step_store hstep with heq | ⟨⟨browser⟩, -, heq⟩ |
    ⟨i, n, a, answer, hl, ha, hdone, heq⟩
  · rw [heq]
    exact .inl rfl
  · rw [heq]
    exact .inl rfl
  · rw [heq]
    exact .inr ⟨i, n, a, answer, hl, ha, hdone, (reach_sound h).effect ha hdone⟩

end Runs

end CtfZone.Ssh
