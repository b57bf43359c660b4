/-
# What the requests on SSH hosts have seen

A request reads the browser sessions once, and they may change before it commits.

* `Answer.browser` : the browser sessions that an answer tells of;
* `browser_seen` : they were so at a moment of its transaction.
-/
import CtfZone.SshRequests
import CtfZone.Sightings

namespace CtfZone.Ssh

open Locking.Program SharedLocks Runs
open Locking (Hold)

variable {p : Platform}

/-- The browser sessions that an answer tells of. -/
def Answer.browser : Answer → Option BrowserTables
  | .consumed c => some c.browser
  | .refused _ browser _ => some browser
  | _ => none

/-- The answer tells of browser sessions. -/
def Tells (answer : Answer) : Prop := ∃ b, answer.browser = some b

/-- The answer tells of the browser sessions as they are, and the ticket that is consumed is
locked. -/
def SeenBy (answer : Answer) (held : List (Hold LockKey Sequence)) (t : SshTables) : Prop :=
  answer.browser = some t.browser ∧
    ∀ c, answer = .consumed c → .lock (.ticket c.ticketId) ∈ held

/-- The browser sessions are read while the ticket is locked. -/
theorem consumeTicket_sees (request : ConsumeTicketRequest) (now clock : Time) :
    Sees (consumeTicket p request now clock) ⟨[], id, fun _ _ => False⟩ fun answer t =>
      Tells answer → ∃ held store, t.seen held store ∧ SeenBy answer held store := by
  unfold consumeTicket
  split
  · trivial
  · simp only [hostForUpdate, sees_bind, sees_acquire, sees_fetchOne, sees_check, sees_select]
    intro _ s₁ preview _ s₂ host _ s₃ ticket _ hticket _ _ s₄ _
    simp only [Bool.and_eq_true, decide_eq_true_eq] at hticket
    -- what follows does not read the browser sessions again
    refine Sees.any fun _ t hseen => ?_
    intro _
    refine Sees.any fun _ t' hseen' => ?_
    refine Sees.any fun _ t'' hseen'' => ?_
    rintro -
    refine ⟨_, s₄, hseen'' _ _ (hseen' _ _ (hseen _ _ (.inr ⟨rfl, rfl⟩))), ?_⟩
    refine ⟨rfl, ?_⟩
    intro c hc
    cases hc
    rw [hticket.1.1.1.1]
    exact List.mem_cons_self

/-- A request whose answers tell nothing. -/
theorem sees_nothing {x : Transaction Answer}
    (h : Sees x ⟨[], id, fun _ _ => False⟩ fun answer _ => answer.browser = none) :
    Sees x ⟨[], id, fun _ _ => False⟩ fun answer t =>
      Tells answer → ∃ held store, t.seen held store ∧ SeenBy answer held store :=
  h.mono (fun _ _ => id) fun _ _ _ _ _ _ hnone ⟨_, hb⟩ => absurd (hnone.symm.trans hb) nofun

/-- Every request has seen the browser sessions that it tells of. -/
theorem request_sees (r : Request) :
    Sees (r.transaction p) ⟨[], id, fun _ _ => False⟩ fun answer t =>
      Tells answer → ∃ held store, t.seen held store ∧ SeenBy answer held store := by
  cases r with
  | consumeTicket request now clock => exact consumeTicket_sees request now clock
  | completeGeneration hostId publicKey =>
      apply sees_nothing
      simp only [Request.transaction, Ssh.completeGeneration, hostForUpdate, sees_bind,
        sees_acquire, sees_fetchOne, sees_check]
      intro _ _ _ _
      split
      · trivial
      · simp [updateHost, Answer.browser]
  | reportHostKeyCandidate hostId ticketId gateway publicKey now =>
      apply sees_nothing
      simp only [Request.transaction, Ssh.reportHostKeyCandidate]
      split
      · trivial
      · simp [hostForUpdate, updateHost, Answer.browser]
  | reportIdentityInvalid hostId errorCode now =>
      apply sees_nothing
      simp only [Request.transaction, Ssh.reportIdentityInvalid, hostForUpdate, sees_bind,
        sees_acquire, sees_fetchOne, sees_check]
      intro _ _ _ _ _
      split
      · simp [Answer.browser]
      · simp [updateHost, revokeTickets, closeSessions, Answer.browser]
  | issueTicket userId browserSessionId requestIp hostId purpose ticket now =>
      apply sees_nothing
      simp only [Request.transaction, Ssh.issueTicket]
      split
      · trivial
      · simp [visibleHostForUpdate, validateTicketHost, Answer.browser]
  | sessionConnected sessionId gateway now =>
      simp only [Request.transaction, Ssh.sessionConnected, hostForUpdate, sees_bind, sees_acquire,
        sees_fetchOne, sees_select]
      intro _ _ _ _ _ _ s₃
      split
      · simp [Tells, Answer.browser]
      · simp only [closeSessions, sees_bind, sees_change, sees_pure]
        rintro -
        refine ⟨_, s₃, .inr ⟨rfl, rfl⟩, rfl, ?_⟩
        intro c hc
        cases hc
  | _ =>
      apply sees_nothing
      simp [Request.transaction, Ssh.createHost, Ssh.deleteHost, Ssh.retryIdentity,
        Ssh.failGeneration, Ssh.trustHostKey, Ssh.heartbeat, Ssh.closeRefused, Ssh.sessionClosed,
        hostForUpdate, visibleHostForUpdate, updateHost, revokeTickets, closeSessions, Answer.browser]

/-- **What an answer tells of the browser sessions was so in an earlier state of the run**, in
which the ticket that is consumed was locked. -/
theorem browser_seen {guard : ControlPlane → Locking.Label Request Event → Prop}
    {s : ControlPlane} (h : Reach (controlStep p) guard Initial s) {i : ℕ}
    {a : InFlight SshTables LockKey Sequence String Answer} (ha : Slots.at' id s.running i = some a)
    {answer : Answer} (hdone : a.program = .done answer) {b : BrowserTables}
    (hb : answer.browser = some b) :
    ∃ s₀ a₀, Leads (controlStep p) guard s₀ s ∧ Slots.at' id s₀.running i = some a₀ ∧
      s₀.store.browser = b ∧ ∀ c, answer = .consumed c → .lock (.ticket c.ticketId) ∈ a₀.held := by
  obtain ⟨held, store, ⟨s₀, -, hlead, rfl, a₀, ha₀, rfl⟩, hseen, hlocked⟩ :=
    sighting request_sees (fun _ hs => hs.running) h ha hdone ⟨b, hb⟩
  exact ⟨s₀, a₀, hlead, ha₀, Option.some.inj (hseen.symm.trans hb), hlocked⟩

end CtfZone.Ssh
