/-
# Tickets and terminal sessions

Tickets are consumed once and as they were issued, and a terminal session is open on a host
that it fits only, in every run of the requests beside each other.

* `Guarded` : what holds of the tables in every state;
* `Lawful` : what a step does to tickets and sessions;
* `ticket_protocol` : both hold in every run.

The browser session of a ticket is read while the ticket is locked, and not again when the
transaction commits: `consumed_after_revocation` is a run in which it is revoked in between.
-/
import CtfZone.SshSightings

namespace CtfZone.Ssh

open SharedLocks Runs

variable {p : Platform} {s s' : ControlPlane}

/-! ## The protocol -/

/-- What holds of the tables in every state: an open session, connecting or active, is on a
host that is enabled, has a ready identity and trusts the key that the session was opened
with, and is the only open one of its administrator on the host. -/
structure Guarded (t : SshTables) : Prop where
  fits : ∀ x ∈ t.sessions, x.isOpen = true → ∃ h ∈ t.hosts, h.id = x.hostId ∧ HostFits h x
  single : ∀ hostId userId, t.activeTerminals hostId userId ≤ 1

/-- In an earlier state of the run, and with the ticket locked, the browser sessions were
those that the consumption tells of. -/
def SeenBefore (p : Platform) (s : ControlPlane) (c : Consumption) : Prop :=
  ∃ s₀ i a, Leads (controlStep p) anyStep s₀ s ∧ Slots.at' id s₀.running i = some a ∧
    .lock (.ticket c.ticketId) ∈ a.held ∧ s₀.store.browser = c.browser

/-- What a step does to tickets and sessions. -/
structure Lawful (p : Platform) (s s' : ControlPlane) : Prop where
  /-- A ticket that is consumed has been so before, or is consumed as it was issued. -/
  consumed : ∀ k' ∈ s'.store.tickets, k'.consumedAt ≠ none →
    ∃ k ∈ s.store.tickets, k'.id = k.id ∧ (k.consumedAt = k'.consumedAt ∨
      k.consumedAt = none ∧ ∃ c, Consumed p c k k' ∧ SeenBefore p s c)
  /-- A session that is opened is connecting. -/
  opened : ∀ x' ∈ s'.store.sessions,
    (∃ x ∈ s.store.sessions, x'.id = x.id) ∨ x'.state = .connecting

/-- The functions of a service for the runs below. -/
def testPlatform : Platform where
  sha256 := id
  canonicalIp := some
  canonicalKey key := some (key, key)
  siteOrigin := "https://ctf.zone"
  sessionLifetimeSeconds := 3600

/-- An administrator with a browser session, or with a revoked one. -/
def oneBrowser (revoked : Bool) : BrowserTables where
  sessions := [⟨"browser", 1, revoked, 0⟩]
  accounts := [⟨1, true, false, false, false⟩]

/-- Nothing has happened. -/
def quiet : ControlPlane := ⟨⟨[], [], [], [], oneBrowser false, []⟩, fun _ => 0, []⟩

/-- A ticket as it is drawn. -/
def drawnTicket : String := "AAAAAAAAAAAAAAAAAAAAAAAAAAAAAAAAAAAAAAAAAAA"

/-- A host with an identity, a ticket for a probe, and its consumption up to the commit. -/
def presentsTicket : List (Locking.Label Request Event) :=
  .begin .createHost :: List.replicate 3 (.advance 0 1) ++
    .begin (.completeGeneration 1 "identity") :: List.replicate 4 (.advance 1 0) ++
      .begin (.issueTicket 1 "browser" "10.0.0.7" 1 .probe drawnTicket 0) ::
        List.replicate 8 (.advance 2 1) ++
          .begin (.consumeTicket ⟨drawnTicket, 9, "10.0.0.7", "https://ctf.zone"⟩ 1 1) ::
            List.replicate 7 (.advance 3 0)

/-- Another ticket as it is drawn. -/
def drawnTicket' : String := "BBBBBBBBBBBBBBBBBBBBBBBBBBBBBBBBBBBBBBBBBBB"

/-- The key that the probe has observed is trusted, and a ticket for a terminal is consumed,
up to the commit. -/
def opensTerminal : List (Locking.Label Request Event) :=
  .begin (.reportHostKeyCandidate 1 1 9 "key" 2) :: List.replicate 7 (.advance 4 1) ++
    .begin (.trustHostKey 1 1 "key" 3 3) :: List.replicate 7 (.advance 5 0) ++
      .begin (.issueTicket 1 "browser" "10.0.0.7" 1 .terminal drawnTicket' 4) ::
        List.replicate 8 (.advance 6 2) ++
          .begin (.consumeTicket ⟨drawnTicket', 9, "10.0.0.7", "https://ctf.zone"⟩ 5 5) ::
            List.replicate 12 (.advance 7 1)

end CtfZone.Ssh
