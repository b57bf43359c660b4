/-
# Acknowledged deadlines

`ensure_instance` and `update_deadline` report success for a generation and a
deadline once `schedule_timer` and `write_state` have returned.  The state file
then records both; but `schedule_timer` takes any active unit of the generation
for the requested one, whatever its deadline, so the timer in force is the
requested one only under a condition on the units that were active before.
-/
import CtfZone.HelperExpiry

open Effects Effects.Prog

namespace CtfZone

namespace Helper

variable {env : Env}

/-! ## Acknowledged deadlines -/

/-- The two operations that acknowledge a deadline. -/
inductive Setter
  | ensure | update
  deriving DecidableEq

/-- Run the operation. -/
def Setter.run (identifier : Uuid) (request : Request) : Setter → Helper Reply
  | .ensure => ensureInstance identifier request
  | .update => updateDeadline identifier request

/-- The state file records generation `g` and deadline `t`. -/
def Cell.Records (identifier : Uuid) (g : ℤ) (t : Time) (s : Cell) : Prop :=
  ∃ st, s.stateFile = .document st ∧ st.instanceId = identifier ∧ st.generation = .int g ∧
    st.expiresAt = .instant t

/-- The state file records `g` and `t`, and the timer of `g` is the old one, or
the one `t` asks for where there was none. -/
structure Cell.Acknowledges (identifier : Uuid) (g : ℤ) (t : Time) (s s' : Cell) : Prop where
  records : Cell.Records identifier g t s'
  timer : s'.timers (some g) = some ((s.timers (some g)).getD (calendarSecond t))

/-- What `schedule_timer` leaves behind when it succeeds. -/
theorem scheduleTimer_returns {p : Phase} {g : ℤ} {t : Time} {s s' : Cell}
    (h : Returns (scheduleTimer p g t) env s ⟨⟩ s') :
    s'.timers (some g) = some ((s.timers (some g)).getD (calendarSecond t)) := by
  have hactive : s'.timers (some g) ≠ none := (h.of_wp (scheduleTimer_done p g t s)).2 rfl
  rcases (h.of_wp (scheduleTimer_changes p g t s)).own with hold | ⟨hold, hnew⟩
  · rw [hold] at hactive ⊢
    obtain ⟨c, hc⟩ := Option.ne_none_iff_exists'.mp hactive
    rw [hc, Option.getD_some]
  · rw [hold, hnew, Option.getD_none]

/-- An inspection that does not report a stale generation changes nothing. -/
theorem inspectResult_returns {p : Phase} {identifier : Uuid} {s s' : Cell} {reply : Reply}
    (h : Returns (inspectResult p identifier) env s reply s')
    (hstale : reply.staleGeneration ≠ some true) : s' = s := by
  unfold inspectResult at h
  rw [returns_bind] at h
  obtain ⟨inspection, s₁, h₁, h⟩ := h
  obtain ⟨rfl, -⟩ := h₁.of_yields yields_inspectRaw
  cases inspection with
  | none => exact (returns_pure.mp h).2
  | some container =>
      dsimp only at h
      rw [returns_bind] at h
      obtain ⟨state, s₂, h₂, h⟩ := h
      obtain ⟨rfl, -⟩ := h₂.of_yields yields_readStateOrNone
      rw [returns_ite] at h
      obtain ⟨-, h⟩ | ⟨-, h⟩ := h
      · exact (returns_raise.mp h).elim
      cases state with
      | none =>
          dsimp only at h
          rw [returns_bind] at h
          obtain ⟨_, s₃, -, h⟩ := h
          rw [(returns_pure.mp h).1] at hstale
          exact absurd rfl hstale
      | some st =>
          dsimp only at h
          split at h
          · exact (returns_raise.mp h).elim
          · rw [returns_bind] at h
            obtain ⟨_, s₃, h₃, h⟩ := h
            rw [(returns_pure.mp h).2, (returns_read.mp h₃).2]

theorem switchDeadline_returns {identifier : Uuid} {previous g : ℤ} {t : Time}
    {st : InstanceState} {s s' : Cell}
    (h : Returns (switchDeadline previous g st) env s ⟨⟩ s') (hid : st.instanceId = identifier)
    (hg : st.generation = .int g) (ht : st.expiresAt = .instant t) :
    Cell.Records identifier g t s' ∧ s'.timers (some g) = s.timers (some g) := by
  unfold switchDeadline at h
  rw [returns_bind] at h
  obtain ⟨_, s₁, h₁, h₂⟩ := h
  obtain ⟨rfl, -⟩ := (returns_andReraise.mp h₁).of_wp (wp_replaceFile .request .state _ s)
  have hkeeps : Preserves (cancelOther .request (some g) (some previous)) env fun c =>
      Cell.Records identifier g t c ∧ c.timers (some g) = s.timers (some g) :=
    preserves_cancelOther fun c g' hne _ hc => ⟨hc.1, by
      rw [Cell.dropTimer_of_ne hne.symm]
      exact hc.2⟩
  exact h₂.of_wp (hkeeps _ ⟨⟨st, rfl, hid, hg, ht⟩, rfl⟩)

theorem updateDeadline_acknowledges {identifier : Uuid} {request : Request} {g : ℤ} {t : Time}
    {s s' : Cell} {reply : Reply} (hg : request.generation = .int g)
    (ht : request.expiresAt = .instant t)
    (h : Returns (updateDeadline identifier request) env s reply s')
    (hstale : reply.staleGeneration ≠ some true) : Cell.Acknowledges identifier g t s s' := by
  unfold updateDeadline at h
  rw [returns_bind] at h
  obtain ⟨g', s₁, h₁, h⟩ := h
  obtain ⟨rfl, hg', hpos⟩ := h₁.of_yields (yields_generation request)
  cases hg.symm.trans hg'
  rw [returns_bind] at h
  obtain ⟨t', s₂, h₂, h⟩ := h
  obtain ⟨rfl, ht'⟩ := h₂.of_yields (yields_parseDeadline _)
  cases ht.symm.trans ht'
  rw [returns_bind] at h
  obtain ⟨fenced, s₃, h₃, h⟩ := h
  obtain ⟨rfl, -⟩ := h₃.of_yields yields_readTombstone
  have hstaleReply {r : Reply} {c c' : Cell} (hr : r.staleGeneration = some true) :
      ¬ Returns (pure r : Helper Reply) env c reply c' := fun h =>
    hstale ((returns_pure.mp h).1 ▸ hr)
  cases fenced with
  | some n =>
      dsimp only at h
      rw [returns_bind] at h
      obtain ⟨_, s₄, -, h⟩ := h
      exact absurd h (hstaleReply rfl)
  | none =>
      dsimp only at h
      rw [returns_bind] at h
      obtain ⟨inspection, s₄, h₄, h⟩ := h
      obtain ⟨rfl, -⟩ := h₄.of_yields yields_inspectRaw
      rw [returns_bind] at h
      obtain ⟨state, s₅, h₅, h⟩ := h
      obtain ⟨rfl, hstate⟩ := h₅.of_yields yields_readStateOrNone
      rcases inspection with _ | container
      · exact (returns_raise.mp h).elim
      rcases state with _ | st
      · dsimp only at h
        rw [returns_bind] at h
        obtain ⟨_, s₆, -, h⟩ := h
        exact absurd h (hstaleReply rfl)
      dsimp only at h
      split at h
      · exact (returns_raise.mp h).elim
      rw [returns_ite] at h
      obtain ⟨-, h⟩ | ⟨-, h⟩ := h
      · exact absurd h (hstaleReply rfl)
      rw [returns_bind] at h
      obtain ⟨_, s₆, h₆, h⟩ := h
      obtain ⟨-, rfl⟩ := returns_read.mp h₆
      rw [returns_ite] at h
      obtain ⟨-, h⟩ | ⟨-, h⟩ := h
      · exact (returns_raise.mp h).elim
      rw [returns_bind] at h
      obtain ⟨_, s₇, h₇, h⟩ := h
      rw [returns_bind] at h
      obtain ⟨_, s₈, h₈, h⟩ := h
      obtain ⟨-, rfl⟩ := returns_pure.mp h
      obtain ⟨hrecords, htimer⟩ := switchDeadline_returns h₈ (hstate st rfl).2.1 rfl rfl
      exact ⟨hrecords, htimer.trans (scheduleTimer_returns h₇)⟩

theorem commitInstance_acknowledges {identifier : Uuid} {g : ℤ} {t : Time}
    {deployment : Deployment} {state : InstanceState} {previous : Option ℤ} {created : Bool}
    {s s' : Cell} {reply : Reply} (hid : state.instanceId = identifier)
    (hg : state.generation = .int g) (ht : state.expiresAt = .instant t)
    (h : Returns (commitInstance identifier g t deployment state previous created) env s reply s')
    (hstale : reply.staleGeneration ≠ some true) : Cell.Acknowledges identifier g t s s' := by
  unfold commitInstance at h
  rw [returns_andReraise, returns_bind] at h
  obtain ⟨_, s₁, h₁, h⟩ := h
  have htimer := scheduleTimer_returns h₁
  rw [returns_bind] at h
  obtain ⟨_, s₂, h₂, h⟩ := h
  obtain ⟨rfl, -⟩ := h₂.of_wp (wp_replaceFile .request .state _ s₁)
  rw [returns_bind] at h
  obtain ⟨_, s₃, h₃, h⟩ := h
  have hstop : Preserves (cancelOther .request (some g) previous) env
      (Cell.Acknowledges identifier g t s) :=
    preserves_cancelOther fun c g' hne _ hc => ⟨hc.records, by
      rw [Cell.dropTimer_of_ne hne.symm]
      exact hc.timer⟩
  have hacknowledged := h₃.of_wp (hstop _ ⟨⟨state, rfl, hid, hg, ht⟩, htimer⟩)
  have hdrift (c : Cell) (d : Drift) (hc : Cell.Acknowledges identifier g t s c) :
      Cell.Acknowledges identifier g t s (Cell.drift d c) := by
    cases d <;> exact ⟨hc.records, hc.timer⟩
  rw [returns_bind] at h
  obtain ⟨polls, s₄, h₄, h⟩ := h
  obtain ⟨-, rfl⟩ := returns_read.mp h₄
  rw [returns_bind] at h
  obtain ⟨_, s₅, h₅, h⟩ := h
  have hwaited := h₅.of_wp (preserves_waitForStartup hdrift deployment polls _ hacknowledged)
  rw [returns_bind] at h
  obtain ⟨d, s₆, h₆, h⟩ := h
  obtain ⟨-, rfl⟩ := returns_read.mp h₆
  rw [returns_bind] at h
  obtain ⟨_, s₇, h₇, h⟩ := h
  rw [returns_modify] at h₇
  rw [returns_bind] at h
  obtain ⟨result, s₈, h₈, h⟩ := h
  obtain ⟨rfl, rfl⟩ := returns_pure.mp h
  rw [inspectResult_returns h₈ hstale, h₇]
  exact hdrift _ d hwaited

theorem ensureUnfenced_acknowledges {identifier : Uuid} {g : ℤ} {t : Time}
    {deployment : Deployment} {flagValue : Option String} {s s' : Cell} {reply : Reply}
    (h : Returns (ensureUnfenced identifier g t deployment flagValue) env s reply s')
    (hstale : reply.staleGeneration ≠ some true) : Cell.Acknowledges identifier g t s s' := by
  have hstaleReply {r : Reply} {c c' : Cell} (hr : r.staleGeneration = some true) :
      ¬ Returns (pure r : Helper Reply) env c reply c' := fun h =>
    hstale ((returns_pure.mp h).1 ▸ hr)
  unfold ensureUnfenced at h
  rw [returns_bind] at h
  obtain ⟨fingerprint, s₁, h₁, h⟩ := h
  obtain ⟨rfl, -⟩ := h₁.of_yields (V := fun _ => True) fun c hc => ⟨hc, fun _ _ => trivial⟩
  rw [returns_bind] at h
  obtain ⟨existing, s₂, h₂, h⟩ := h
  obtain ⟨rfl, -⟩ := h₂.of_yields yields_inspectRaw
  rw [returns_bind] at h
  obtain ⟨previousState, s₃, h₃, h⟩ := h
  obtain ⟨rfl, -⟩ := h₃.of_yields yields_readStateOrNone
  rcases existing with _ | container
  · dsimp only at h
    rw [returns_ite] at h
    obtain ⟨-, h⟩ | ⟨-, h⟩ := h
    · exact absurd h (hstaleReply rfl)
    -- the network and the container are new, the timers are not
    rw [returns_bind] at h
    obtain ⟨_, s₄, h₄, h⟩ := h
    have hnetwork : Preserves ensureNetwork env fun c => c.timers = s₃.timers :=
      preserves_ensureNetwork fun _ hc => hc
    have h₄' : s₄.timers = s₃.timers := h₄.of_wp (hnetwork s₃ rfl)
    rw [returns_bind] at h
    obtain ⟨_, s₅, h₅, h⟩ := h
    have hcontainer : Preserves (runContainer identifier g) env
        fun c => c.timers = s₃.timers := by
      refine preserves_runContainer (fun c view hc => ?_) fun c hc => ?_
      · unfold Cell.createContainer
        split <;> exact hc
      · unfold Cell.dropNetwork
        split <;> exact hc
    have h₅' : s₅.timers = s₃.timers := h₅.of_wp (hcontainer s₄ h₄')
    obtain ⟨hrecords, htimer⟩ := commitInstance_acknowledges rfl rfl rfl h hstale
    rw [h₅'] at htimer
    exact ⟨hrecords, htimer⟩
  rcases previousState with _ | st
  · dsimp only at h
    rw [returns_bind] at h
    obtain ⟨_, s₄, -, h⟩ := h
    exact absurd h (hstaleReply rfl)
  dsimp only at h
  split at h
  · rw [returns_bind] at h
    obtain ⟨_, s₄, -, h⟩ := h
    exact absurd h (hstaleReply rfl)
  rw [returns_ite] at h
  obtain ⟨-, h⟩ | ⟨-, h⟩ := h
  · exact (returns_raise.mp h).elim
  rw [returns_ite] at h
  obtain ⟨-, h⟩ | ⟨-, h⟩ := h
  · exact absurd h (hstaleReply rfl)
  rw [returns_ite] at h
  obtain ⟨-, h⟩ | ⟨-, h⟩ := h
  · exact (returns_raise.mp h).elim
  exact commitInstance_acknowledges rfl rfl rfl h hstale

theorem ensureInstance_acknowledges {identifier : Uuid} {request : Request} {g : ℤ} {t : Time}
    {s s' : Cell} {reply : Reply} (hg : request.generation = .int g)
    (ht : request.expiresAt = .instant t)
    (h : Returns (ensureInstance identifier request) env s reply s')
    (hstale : reply.staleGeneration ≠ some true) : Cell.Acknowledges identifier g t s s' := by
  unfold ensureInstance at h
  rw [returns_bind] at h
  obtain ⟨g', s₁, h₁, h⟩ := h
  obtain ⟨rfl, hg', hpos⟩ := h₁.of_yields (yields_generation request)
  cases hg.symm.trans hg'
  rw [returns_bind] at h
  obtain ⟨fenced, s₃, h₃, h⟩ := h
  obtain ⟨rfl, -⟩ := h₃.of_yields yields_readTombstone
  have hstaleReply {r : Reply} {c c' : Cell} (hr : r.staleGeneration = some true) :
      ¬ Returns (pure r : Helper Reply) env c reply c' := fun h =>
    hstale ((returns_pure.mp h).1 ▸ hr)
  cases fenced with
  | some n =>
      dsimp only at h
      rw [returns_bind] at h
      obtain ⟨_, s₄, -, h⟩ := h
      exact absurd h (hstaleReply rfl)
  | none =>
      dsimp only at h
      rw [returns_bind] at h
      obtain ⟨t', s₂, h₂, h⟩ := h
      obtain ⟨rfl, ht'⟩ := h₂.of_yields (yields_parseDeadline _)
      cases ht.symm.trans ht'
      rw [returns_bind] at h
      obtain ⟨_, s₄, h₄, h⟩ := h
      obtain ⟨-, rfl⟩ := returns_read.mp h₄
      rw [returns_ite] at h
      obtain ⟨-, h⟩ | ⟨-, h⟩ := h
      · exact (returns_raise.mp h).elim
      cases hdeployment : request.deployment with
      | none =>
          rw [hdeployment] at h
          exact (returns_raise.mp h).elim
      | some deployment =>
          rw [hdeployment] at h
          exact ensureUnfenced_acknowledges h hstale

theorem Setter.run_acknowledges {identifier : Uuid} {request : Request} {op : Setter} {g : ℤ}
    {t : Time} {s s' : Cell} {reply : Reply} (hg : request.generation = .int g)
    (ht : request.expiresAt = .instant t) (h : Returns (op.run identifier request) env s reply s')
    (hstale : reply.staleGeneration ≠ some true) : Cell.Acknowledges identifier g t s s' := by
  cases op with
  | ensure => exact ensureInstance_acknowledges hg ht h hstale
  | update => exact updateDeadline_acknowledges hg ht h hstale

/-- **When an acknowledged deadline is the enforced one.**  After
`ensure_instance` or `update_deadline` reports success for generation `g` and
deadline `t`, the state file records both and the unit of `g` elapses in the
second of `t` exactly when no unit of `g` was active before, or one that already
elapsed then. -/
theorem acknowledged_deadline_enforced (identifier : Uuid) (env : Env) (op : Setter)
    (request : Request) (g : ℤ) (t : Time) (s s' : Cell) (reply : Reply)
    (hg : request.generation = .int g) (ht : request.expiresAt = .instant t)
    (h : Returns (op.run identifier request) env s reply s')
    (hstale : reply.staleGeneration ≠ some true) :
    Cell.Records identifier g t s' ∧ s'.timers (some g) = some (calendarSecond t) ↔
      s.timers (some g) = none ∨ s.timers (some g) = some (calendarSecond t) := by
  obtain ⟨hrecords, htimer⟩ := Setter.run_acknowledges hg ht h hstale
  rw [htimer]
  cases s.timers (some g) with
  | none => simp [hrecords]
  | some c => simp [hrecords]

/-- An environment in which nothing fails and a container starts at once. -/
def calm : Env := { faultAt .request .inspect .none with polls := [⟨.same, .none, false⟩] }

/-- An extension of the armed container to generation 2. -/
theorem acknowledged_deadline_enforced_armed :
    Cell.Records 1 2 (seconds 200) (updateDeadline 1 (requestOf 2 200) calm armed).2 ∧
      (updateDeadline 1 (requestOf 2 200) calm armed).2.timers (some 2) =
        some (calendarSecond (seconds 200)) ↔
    armed.timers (some 2) = none ∨
      armed.timers (some 2) = some (calendarSecond (seconds 200)) :=
  acknowledged_deadline_enforced 1 calm .update (requestOf 2 200) 2 (seconds 200) armed _
    { effectiveExpiresAt := .instant (seconds 200), effectiveGeneration := some 2,
      staleGeneration := some false, absent := some false } rfl rfl rfl (by simp)

/-- A second request for the same generation is acknowledged with its own
deadline, and the timer of the first one stays in force. -/
theorem acknowledged_deadline_not_enforced :
    ¬ ∀ (identifier : Uuid) (events : List Event) (env : Env) (op : Setter) (request : Request)
      (g : ℤ) (t : Time) (s' : Cell) (reply : Reply),
      request.generation = .int g → request.expiresAt = .instant t →
      Returns (op.run identifier request) env (after identifier events .pristine) reply s' →
      reply.staleGeneration ≠ some true →
      Cell.Records identifier g t s' ∧ s'.timers (some g) = some (calendarSecond t) := by
  intro h
  have htimer : (updateDeadline 1 (requestOf 1 100) calm
      (after 1 [.operation (.ensure (requestOf 1 200)) calm] .pristine)).2.timers (some 1) =
      some 200 := rfl
  obtain ⟨-, henforced⟩ := h 1 [.operation (.ensure (requestOf 1 200)) calm] calm .update
    (requestOf 1 100) 1 (seconds 100)
    (updateDeadline 1 (requestOf 1 100) calm
      (after 1 [.operation (.ensure (requestOf 1 200)) calm] .pristine)).2
    { effectiveExpiresAt := .instant (seconds 100), effectiveGeneration := some 1,
      staleGeneration := some false, absent := some false } rfl rfl rfl (by simp)
  exact absurd (htimer.symm.trans henforced) (by decide)

end Helper

end CtfZone
