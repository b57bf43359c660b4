/-
# Why terminal sessions are closed

An active terminal session is closed for a cause, in every run in which no observed key
changes the revision of a host with an active session.

* `Heedful` : the condition on the steps of a run;
* `Cause` : why a commit closes an active session;
* `fenced_sessions` : a run that is heedful closes them for a cause only.

`report_host_key_candidate` counts the revision of the host up, and a heartbeat asks for the
revision that the session was opened at: `reobserved_key_closes` is a run in which a session
is closed after its own key has been observed again.
-/
import CtfZone.TicketProtocol

namespace CtfZone.Ssh

open SharedLocks Runs

variable {p : Platform} {s s' : ControlPlane}

/-- The answer that the next statement of the transaction at a place commits with. -/
def committing (s : ControlPlane) (i : ℕ) : Option Answer :=
  (Slots.at' id s.running i).bind fun a => match a.program with
    | .done answer => some answer
    | _ => none

theorem committing_eq {i : ℕ} {answer : Answer} :
    committing s i = some answer ↔
      ∃ a, Slots.at' id s.running i = some a ∧ a.program = .done answer := by
  rw [committing, Option.bind_eq_some_iff]
  refine exists_congr fun a => and_congr_right fun _ => ?_
  cases a.program <;> simp

/-- No key is observed on a host with an active session, none is trusted again on one, and a
gateway sends the heartbeats of sessions that have been connected. -/
def Heedful (s : ControlPlane) : Locking.Label Request Event → Prop
  | .advance i _ => ∀ answer ∈ committing s i, Considerate s.store answer
  | _ => True

/-- Why the commit of the transaction at a place closes an active session. -/
inductive Cause (p : Platform) (s s' : ControlPlane) (i : ℕ) (x : SessionRow) : Prop
  /-- The host is deleted or disabled, its identity is not ready, or it trusts another key. -/
  | host (h : HostRow) : h ∈ s'.store.hosts → h.id = x.hostId → ¬ HostFits h x → Cause p s s' i x
  /-- The gateway has not sent a heartbeat in time, and a terminal is opened. -/
  | overdue (c : Consumption) : committing s i = some (.consumed c) →
    x.lastBeat < c.now - seconds 45 → Cause p s s' i x
  /-- The browser session was not valid when the gateway reported the connection. -/
  | refused (s₀ : ControlPlane) (now : Time) : Leads (controlStep p) anyStep s₀ s →
    committing s i = some (.refused x.id s₀.store.browser now) →
    p.ticketSessionIsValid s₀.store.browser x.browserSessionId x.adminUserId now = false →
    Cause p s s' i x
  /-- The browser session was not valid at a heartbeat. -/
  | heartbeat (s₀ : ControlPlane) (f : Refusal) : Leads (controlStep p) anyStep s₀ s →
    committing s i = some (.closedRefused f) → f.browser = s₀.store.browser →
    p.ticketSessionIsValid s₀.store.browser x.browserSessionId x.adminUserId f.now = false →
    Cause p s s' i x
  /-- The gateway reports that the session is over. -/
  | reported : committing s i = some (.reported x.id x.gatewayInstanceId) → Cause p s s' i x

/-- What the handlers of refused heartbeats have seen was so in earlier states. -/
theorem refusals_seen (h : Reach (controlStep p) anyStep Initial s) :
    ∀ f ∈ s.store.refusals, ∃ s₀, Leads (controlStep p) anyStep s₀ s ∧
      f.browser = s₀.store.browser := by
  induction h with
  | init hs =>
      intro f hf
      rw [hs.refusals] at hf
      cases hf
  | @step s s' l hreach hg hstep ih =>
      have hlater : ∀ f ∈ s.store.refusals, ∃ s₀, Leads (controlStep p) anyStep s₀ s' ∧
          f.browser = s₀.store.browser := by
        intro f hf
        obtain ⟨s₀, hlead, hb⟩ := ih f hf
        exact ⟨s₀, .step l hlead hg hstep, hb⟩
      rcases step_effect hreach hstep with heq | ⟨i, n, a, answer, -, -, -, heffect⟩
      · rw [heq]
        exact hlater
      · intro f hf
        rcases heffect.refused f hf with hold | hnew
        · exact hlater f hold
        · exact ⟨s, .step l (.refl s) hg hstep, hnew⟩

/-- The active sessions are fenced in every state of a heedful run. -/
theorem reach_fenced (h : Reach (controlStep p) Heedful Initial s) : Fenced p s.store := by
  induction h with
  | init hs =>
      refine ⟨?_, ?_⟩
      · intro x hx
        rw [hs.sessions] at hx
        cases hx
      · intro f hf
        rw [hs.refusals] at hf
        cases hf
  | step l hreach hg hstep ih =>
      rcases step_effect hreach hstep with heq | ⟨i, n, a, answer, rfl, ha, hdone, heffect⟩
      · rw [heq]
        exact ⟨ih.revision, ih.refusals⟩
      · exact heffect.fenced ih (hg answer (committing_eq.mpr ⟨a, ha, hdone⟩))

/-- **An active session is closed for a cause only**, in every run whose steps are heedful: its
host is deleted, disabled or trusts another key, or its identity is not ready, its gateway is
late, its browser session was not valid, or its gateway reports that it is over. -/
theorem fenced_sessions (h : Reach (controlStep p) Heedful Initial s)
    {l : Locking.Label Request Event} (hg : Heedful s l) (hstep : controlStep p l s = some s')
    {x x' : SessionRow} (hx : x ∈ s.store.sessions) (hx' : x' ∈ s'.store.sessions)
    (hid : x'.id = x.id) (hactive : x.state = .active) (hclosed : x'.state = .closed) :
    ∃ i n, l = .advance i n ∧ Cause p s s' i x := by
  have hreach : Reach (controlStep p) anyStep Initial s := h.weaken fun _ _ _ => trivial
  rcases step_effect h hstep with heq | ⟨i, n, a, answer, rfl, ha, hdone, heffect⟩
  · have hsessions : s'.store.sessions = s.store.sessions := by rw [heq]
    rw [hsessions] at hx'
    have hc : Control s.store := (reach_sound h).inv
    rw [List.inj_on_of_nodup_map hc.sessions hx' hx hid, hactive] at hclosed
    cases hclosed
  · have hcommit : committing s i = some answer := committing_eq.mpr ⟨a, ha, hdone⟩
    refine ⟨i, n, rfl, ?_⟩
    rcases heffect.closed (reach_fenced h) (hg answer hcommit) x hx x' hx' hid hactive hclosed
      with ⟨_, host, hhost, hhid, hfits⟩ | ⟨c, hlate⟩ | ⟨browser, now, hinvalid⟩ |
        ⟨f, hf, -, hinvalid⟩ | _
    · exact .host host hhost hhid hfits
    · exact .overdue c hcommit hlate
    · obtain ⟨s₀, a₀, hlead, -, rfl, -⟩ := browser_seen hreach ha hdone rfl
      exact .refused s₀ now hlead hcommit hinvalid
    · obtain ⟨s₀, hlead, hb⟩ := refusals_seen hreach f hf
      exact .heartbeat s₀ f hlead hcommit hb (hb ▸ hinvalid)
    · exact .reported hcommit

/-! ## Two runs -/

instance (t : SshTables) (hostId : Uuid) : Decidable (t.Inactive hostId) :=
  inferInstanceAs (Decidable (∀ x ∈ t.sessions, x.hostId = hostId → x.state ≠ .active))

instance (t : SshTables) (answer : Answer) : Decidable (Considerate t answer) :=
  match answer with
  | .observed hostId => inferInstanceAs (Decidable (t.Inactive hostId))
  | .trusted hostId fingerprint => inferInstanceAs (Decidable
      ((∃ h ∈ t.hosts, h.id = hostId ∧ h.trustedHostKeyFingerprint = some fingerprint) →
        t.Inactive hostId))
  | .heartbeat sessionId => inferInstanceAs (Decidable
      (∃ x ∈ t.sessions, x.id = sessionId ∧ x.state ≠ .connecting))
  | .consumed _ | .connected | .refused .. | .closedRefused _ | .reported .. | .done =>
    inferInstanceAs (Decidable True)

instance (s : ControlPlane) (l : Locking.Label Request Event) : Decidable (Heedful s l) :=
  match l with
  | .advance i _ => inferInstanceAs (Decidable (∀ answer ∈ committing s i, Considerate s.store answer))
  | .begin _ | .abort _ | .other _ => inferInstanceAs (Decidable True)

/-- A terminal that is connected. -/
def connectsTerminal : List (Locking.Label Request Event) :=
  presentsTicket ++ .advance 3 0 :: opensTerminal ++ .advance 7 1 ::
    .begin (.sessionConnected 1 9 6) :: List.replicate 8 (.advance 8 0)

/-- The host is deleted, up to the commit. -/
def deletesHost : List (Locking.Label Request Event) :=
  connectsTerminal ++ .begin (.deleteHost 1 7) :: List.replicate 5 (.advance 9 0)

/-- The session is closed by the commit that deletes its host. -/
theorem fenced_sessions_deleted : ∃ s s' x, x ∈ s.store.sessions ∧ x.state = .active ∧
    controlStep testPlatform (.advance 9 0) s = some s' ∧
      (∃ x' ∈ s'.store.sessions, x'.id = x.id ∧ x'.state = .closed) ∧
        ∃ i n, (.advance 9 0 : Locking.Label Request Event) = .advance i n ∧
          Cause testPlatform s s' i x := by
  have hrun : ((runIf (controlStep testPlatform) Heedful deletesHost quiet).any fun s =>
      decide (Heedful s (.advance 9 0)) && (controlStep testPlatform (.advance 9 0) s).any fun s' =>
        decide (∃ x ∈ s.store.sessions, x.state = .active ∧
          ∃ x' ∈ s'.store.sessions, x'.id = x.id ∧ x'.state = .closed)) = true := by
    decide +kernel
  obtain ⟨s, hs, hfacts⟩ := (Option.any_eq_true _ _).mp hrun
  rw [Bool.and_eq_true, decide_eq_true_eq] at hfacts
  obtain ⟨s', hs', hclosing⟩ := (Option.any_eq_true _ _).mp hfacts.2
  obtain ⟨x, hx, hactive, x', hx', hid, hclosed⟩ := of_decide_eq_true hclosing
  refine ⟨s, s', x, hx, hactive, hs', ⟨x', hx', hid, hclosed⟩, ?_⟩
  exact fenced_sessions (reach_of_runIf _ (.init ⟨rfl, rfl, rfl, rfl, rfl⟩) hs) hfacts.1 hs' hx hx'
    hid hactive hclosed

/-- A third ticket as it is drawn. -/
def drawnTicket'' : String := "CCCCCCCCCCCCCCCCCCCCCCCCCCCCCCCCCCCCCCCCCCC"

/-- A probe observes the key that is trusted, and the next heartbeat is refused, up to the
commit that closes the session. -/
def reobservesKey : List (Locking.Label Request Event) :=
  connectsTerminal ++
    .begin (.issueTicket 1 "browser" "10.0.0.7" 1 .probe drawnTicket'' 7) ::
      List.replicate 8 (.advance 9 3) ++
        .begin (.consumeTicket ⟨drawnTicket'', 9, "10.0.0.7", "https://ctf.zone"⟩ 8 8) ::
          List.replicate 8 (.advance 10 0) ++
            .begin (.reportHostKeyCandidate 1 3 9 "key" 9) :: List.replicate 7 (.advance 11 2) ++
              .begin (.heartbeat 1 9 10) :: List.replicate 3 (.advance 12 0) ++
                .begin (.closeRefused ⟨1, 9, oneBrowser false, 10⟩ 11) ::
                  List.replicate 2 (.advance 13 0)

/-- **An observed key closes a healthy session.**  The session is active, its host and its
browser session are as they were when it was opened, its gateway has sent a heartbeat in
time, and it is closed without a cause. -/
theorem reobserved_key_closes : ∃ s s' : ControlPlane,
    Reach (controlStep testPlatform) anyStep Initial s ∧
      controlStep testPlatform (.advance 13 0) s = some s' ∧
        ∃ x ∈ s.store.sessions, ∃ x' ∈ s'.store.sessions, x'.id = x.id ∧ x.state = .active ∧
          x'.state = .closed ∧ ¬ Cause testPlatform s s' 13 x := by
  have hrun : ((run (controlStep testPlatform) reobservesKey quiet).any fun s =>
      ((committing s 13).any fun answer => match answer with
        | .closedRefused f => decide (f = ⟨1, 9, oneBrowser false, 10⟩)
        | _ => false) &&
      (controlStep testPlatform (.advance 13 0) s).any fun s' =>
        s.store.sessions.any fun x => s'.store.sessions.any fun x' =>
          decide (x'.id = x.id ∧ x.state = .active ∧ x'.state = .closed) &&
            testPlatform.ticketSessionIsValid (oneBrowser false) x.browserSessionId x.adminUserId
              10 &&
            decide (∀ h ∈ s'.store.hosts, h.deletedAt = none ∧ h.enabled = true ∧
              h.identityState = .ready ∧
              h.trustedHostKeyFingerprint = some x.trustedHostKeyFingerprint)) = true := by
    decide +kernel
  obtain ⟨s, hs, hfacts⟩ := (Option.any_eq_true _ _).mp hrun
  rw [Bool.and_eq_true] at hfacts
  obtain ⟨answer, hcommit, hrefused⟩ := (Option.any_eq_true _ _).mp hfacts.1
  obtain ⟨s', hs', hfacts'⟩ := (Option.any_eq_true _ _).mp hfacts.2
  obtain ⟨x, hx, hfacts''⟩ := List.any_eq_true.mp hfacts'
  obtain ⟨x', hx', hclosing⟩ := List.any_eq_true.mp hfacts''
  simp only [Bool.and_eq_true, decide_eq_true_eq] at hclosing
  obtain ⟨⟨⟨hid, hactive, hclosed⟩, hvalid⟩, hhosts⟩ := hclosing
  have hanswer : committing s 13 = some (.closedRefused ⟨1, 9, oneBrowser false, 10⟩) := by
    cases answer with
    | closedRefused f => rw [hcommit, of_decide_eq_true hrefused]
    | _ => cases hrefused
  refine ⟨s, s', reach_of_run _ ⟨rfl, rfl, rfl, rfl, rfl⟩ hs, hs', x, hx, x', hx', hid, hactive,
    hclosed, ?_⟩
  rintro (⟨h, hh, -, hunfit⟩ | ⟨c, hc, -⟩ | ⟨s₀, now, -, hc, -⟩ | ⟨s₀, f, -, hc, hb, hinvalid⟩ | hc)
  · obtain ⟨hdeleted, henabled, hready, hfingerprint⟩ := hhosts h hh
    exact hunfit ⟨hdeleted, henabled, hready, hfingerprint⟩
  · rw [hanswer] at hc
    cases hc
  · rw [hanswer] at hc
    cases hc
  · rw [hanswer] at hc
    cases hc
    rw [← hb, hvalid] at hinvalid
    cases hinvalid
  · rw [hanswer] at hc
    cases hc

end CtfZone.Ssh
