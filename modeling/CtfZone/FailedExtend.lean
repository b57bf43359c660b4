/-
# A failed extension

An extension counts the generation of its instance up when it is requested, and
nothing ever counts it down again.  When the command fails for good before the
helper has applied it, the instance stays one generation ahead of its workload:
every later inspection asks for the new generation, the helper reports the old
one, and `require_remote_generation` refuses the reply until the last attempt
moves the instance to `unknown`.
-/
import CtfZone.HelperReplies
import CtfZone.SystemInvariants

open Effects Effects.Prog Runs Relation

namespace CtfZone

/-! ## What the helper reports -/

/-- The helper reports a running workload at a generation. -/
def Cell.Reports (g : ℤ) (s : Cell) : Prop :=
  ∃ c st, s.container = some c ∧ s.stateFile = .document st ∧
    Helper.stateGeneration (some st) (some c) = some g

/-- The recorded generation and the acknowledged deadline are those the helper
reports. -/
structure Described (i : RuntimeInstance) (s : Cell) : Prop where
  generation : Cell.Reports i.generation s
  deadline : ∃ st, s.stateFile = .document st ∧ st.expiresAt = .instant i.expiresAt

theorem Cell.Reports.unique {g g' : ℤ} {s : Cell} (h : Cell.Reports g s)
    (h' : Cell.Reports g' s) : g = g' := by
  obtain ⟨c, st, hc, hst, hg⟩ := h
  obtain ⟨c', st', hc', hst', hg'⟩ := h'
  cases hc.symm.trans hc'
  cases hst.symm.trans hst'
  exact Option.some.inj (hg.symm.trans hg')

/-- An inspection for another generation than the one the helper reports is
retried, unless it has removed the workload. -/
theorem inspection_refused {r : RemoteRequest} (hcall : r.call = .inspect) {env : Env} {s : Cell}
    {g : ℤ} (hreports : Cell.Reports g s) (hother : r.job.command.generation ≠ g) :
    r.received (replyOf (r.program env s).1) = .retry r.job.command ∨
      (r.program env s).2.container = none := by
  have hprogram : r.program = Helper.inspectResult .request r.job.row.id := by
    unfold RemoteRequest.program
    rw [hcall]
  rcases hrun : r.program env s with ⟨outcome, s'⟩
  cases outcome with
  | raised e => exact .inl rfl
  | halted => exact .inl rfl
  | done reply =>
      have hreturns : Returns (Helper.inspectResult .request r.job.row.id) env s reply s' := by
        rw [← hprogram]
        exact hrun
      rcases Helper.returns_inspectResult hreturns with ⟨-, hgone⟩ | ⟨habsent, -, -, hstate⟩
      · right
        rcases hgone with ⟨hnone, rfl⟩ | hremoved
        · exact hnone
        · exact hremoved.1
      · left
        obtain ⟨c, st, hc, hst, hgeneration⟩ := hstate
        obtain ⟨c', st', hc', hst', hg⟩ := hreports
        cases hc.symm.trans hc'
        cases hst.symm.trans hst'
        rw [hg] at hgeneration
        refine (r.received_cases (some reply)).resolve_right ?_
        rintro ⟨sent, effective, hsent, haccepts, -⟩
        cases hsent
        have hne : g ≠ r.job.command.generation := fun heq => hother heq.symm
        simp [RemoteRequest.accepts, hcall, requireRemoteGeneration, Helper.Reply.result, habsent,
          hgeneration, hne] at haccepts

/-- The last attempt of an inspection moves the instance to `unknown`. -/
theorem scheduleRetry_unknown {config : Config} {now : Time} {cleanupId : Uuid}
    {command : CommandRow} {db : Database} {i : RuntimeInstance}
    (hkind : command.kind = .inspect ∨ command.kind = .reconcile)
    (hlast : config.maxCommandAttempts ≤ command.attempts)
    (hheld : lockCommandClaim command db = true) (hi : i ∈ db.instances)
    (hid : i.id = command.instanceId) (hgeneration : i.generation = command.generation)
    (hactive : i.active = true) :
    ∃ i' ∈ (scheduleRetry config now cleanupId command db).instances,
      i'.id = i.id ∧ i'.observedState = .unknown := by
  have hstate : failedState command.kind = .unknown := by
    rcases hkind with h | h <;> rw [h] <;> rfl
  have hstart : command.kind ≠ .start := by
    rcases hkind with h | h <;> rw [h] <;> decide
  have hhits : (Projection.commandFailed .unknown).hits command.instanceId command.generation i =
      true := by
    simp [Projection.hits, Projection.admits, hid, hgeneration, hactive]
  have hany : db.instances.any
      ((Projection.commandFailed .unknown).hits command.instanceId command.generation) = true :=
    List.any_eq_true.mpr ⟨i, hi, hhits⟩
  unfold scheduleRetry
  dsimp only
  rw [if_pos hlast, if_pos hheld, hstate, Database.updateCommands_instances, if_pos hany,
    if_neg hstart]
  exact ⟨_, Tables.mem_update.mpr ⟨i, hi, .inl ⟨hhits, rfl⟩⟩, rfl, rfl⟩

/-! ## The extension stays ahead -/

/-- What the failure of an extension should leave behind, as long as the workload
keeps running at generation `g`: in every later state the instance is not
`unknown` and is described by what the helper reports. -/
def FailedExtendHeals (config : Config) : Prop :=
  ∀ s, Reach (System.step config) anyStep System.Initial s →
    ∀ c ∈ s.db.commands, c.kind = .extend → c.status = .failed ∨ c.status = .cancelled →
      ∀ g server, c.generation = g + 1 → Cell.Reports g (s.hosts server c.instanceId) →
        ∀ s', Leads (System.step config) anyStep s s' →
          Cell.Reports g (s'.hosts server c.instanceId) →
          ∀ i ∈ s'.db.instances, i.id = c.instanceId → i.active = true →
            i.observedState ≠ .unknown ∧ Described i (s'.hosts server c.instanceId)

/-- **A failed extension is never healed.**  From a reachable state in which an
extension to generation `g + 1` has failed for good or was cancelled, take any
later state in which the helper still reports generation `g`.

* The instance is not described by what the helper reports.
* Every inspection of the instance at its recorded generation that is delivered
  there is retried, unless it removes the workload.
* When the retried inspection was on its last attempt, the instance is
  `unknown` after the step. -/
theorem failed_extend_never_heals (config : Config) (s : System)
    (h : Reach (System.step config) anyStep System.Initial s) (c : RuntimeCommand)
    (hc : c ∈ s.db.commands) (_ : c.kind = .extend)
    (_ : c.status = .failed ∨ c.status = .cancelled) (g : ℤ)
    (hgeneration : c.generation = g + 1) (s' : System)
    (hleads : Leads (System.step config) anyStep s s') (server : Uuid)
    (hreports : Cell.Reports g (s'.hosts server c.instanceId)) (i : RuntimeInstance)
    (hi : i ∈ s'.db.instances) (hid : i.id = c.instanceId) :
    ¬ Described i (s'.hosts server c.instanceId) ∧
    (∀ r : RemoteRequest, r.call = .inspect → r.server = server → r.job.row.id = i.id →
      r.job.command.generation = i.generation → ∀ env,
        r.received (replyOf (r.program env (s'.hosts r.server r.job.row.id)).1) =
            .retry r.job.command ∨
          (r.program env (s'.hosts r.server r.job.row.id)).2.container = none) ∧
    (∀ w turn command s'', s'.workers w = .retry command →
      command.kind = .inspect ∨ command.kind = .reconcile → command.instanceId = i.id →
      command.generation = i.generation → config.maxCommandAttempts ≤ command.attempts →
      lockCommandClaim command s'.db = true → i.active = true → turn.fault = .none →
      System.step config (.work w turn) s' = some s'' →
      ∃ i' ∈ s''.db.instances, i'.id = i.id ∧ i'.observedState = .unknown) := by
  -- the instance has kept the generation the extension gave it
  have hahead : i.generation ≠ g := by
    obtain ⟨c', hc', hsame⟩ := (System.leads_later h hleads).commands c hc
    have hle := (System.reach_sound (h.leads hleads)).db.generation_le hc' hi
      (hid.trans hsame.instanceId.symm)
    rw [hsame.generation, hgeneration] at hle
    exact fun heq => absurd (heq ▸ hle) (by omega)
  refine ⟨fun hdescribed => hahead (hdescribed.generation.unique hreports),
    fun r hcall hserver hrow hcurrent env => ?_,
    fun w turn command s'' hw hcommand hinstance hcurrent hlast hheld hactive hfault hstep => ?_⟩
  · rw [hserver, hrow, hid]
    exact inspection_refused hcall hreports (hcurrent ▸ hahead)
  · obtain ⟨pc, db', sent, -, hadvance, rfl⟩ := System.work_eq_some hstep
    rw [hw, advance] at hadvance
    have htransact := Option.some.inj hadvance
    unfold Turn.transact at htransact
    rw [hfault] at htransact
    cases htransact
    exact scheduleRetry_unknown hcommand hlast hheld hi hinstance.symm hcurrent.symm hactive

/-- The launch of an instance succeeds; then an extension fails for good before
it reaches the helper. -/
def extendFailed : List Label :=
  launchSent ++ [.deliver 0 (quietEnv 0) false, .work 0 (quietTurn 0 8),
    .extend (seconds 1) 9 smallUser 1 ⟨none, none⟩, .claim 0 (seconds 1) 10 9,
    .work 0 (quietTurn (seconds 1) 11),
    .work 0 { quietTurn (seconds 1) 12 with proceeds := false },
    .work 0 (quietTurn (seconds 1) 13)]

/-- A periodic inspection of the instance afterwards, up to its last attempt. -/
def inspectedLater : List Label :=
  [.enqueueInspection (seconds 61) none 14 1, .claim 0 (seconds 61) 15 14,
   .work 0 (quietTurn (seconds 61) 16), .work 0 (quietTurn (seconds 61) 17),
   .deliver 0 (quietEnv (seconds 61)) false, .work 0 (quietTurn (seconds 61) 18)]

/-- The workload of the run is at generation 1. -/
def reportsFirst (s : System) : Bool :=
  match (s.hosts 100 1).container, (s.hosts 100 1).stateFile with
  | some c, .document st => Helper.stateGeneration (some st) (some c) = some 1
  | _, _ => false

theorem reports_of_reportsFirst {s : System} (h : reportsFirst s = true) :
    Cell.Reports 1 (s.hosts 100 1) := by
  unfold reportsFirst at h
  split at h
  · rename_i c st hc hst
    exact ⟨c, st, hc, hst, of_decide_eq_true h⟩
  · cases h

theorem extendFailed_eq_some : ∃ s, run (System.step ⟨1, 60, 60⟩) extendFailed smallSystem = some s ∧
    reportsFirst s = true ∧ (∃ c ∈ s.db.commands, c.instanceId = 1 ∧ c.kind = .extend ∧
      c.status = .failed ∧ c.generation = 2) ∧
    ∃ s', run (System.step ⟨1, 60, 60⟩) inspectedLater s = some s' ∧ reportsFirst s' = true ∧
      ∃ i ∈ s'.db.instances, i.id = 1 ∧ i.active = true ∧ i.observedState = .unknown := by
  have hrun : (run (System.step ⟨1, 60, 60⟩) extendFailed smallSystem).any (fun s =>
      reportsFirst s && (s.db.commands.any fun c => c.instanceId = 1 && c.kind = .extend &&
          c.status = .failed && c.generation = 2) &&
        (run (System.step ⟨1, 60, 60⟩) inspectedLater s).any (fun s' => reportsFirst s' &&
          s'.db.instances.any fun i => i.id = 1 && i.active && i.observedState = .unknown)) =
      true := by decide +kernel
  simpa [Option.any_eq_true, and_assoc] using hrun

/-- The instance of the run is not healed. -/
theorem failed_extend_never_heals_unknown :
    ∃ s s', run (System.step ⟨1, 60, 60⟩) extendFailed smallSystem = some s ∧
      run (System.step ⟨1, 60, 60⟩) inspectedLater s = some s' ∧
      ∃ i ∈ s'.db.instances, i.id = 1 ∧ ¬ Described i (s'.hosts 100 1) := by
  obtain ⟨s, hrun, -, ⟨c, hc, hinstance, hkind, hstatus, hgeneration⟩, s', hrun', hreports,
    i, hi, hid, -⟩ := extendFailed_eq_some
  refine ⟨s, s', hrun, hrun', i, hi, hid, ?_⟩
  have hleads := leads_of_run inspectedLater hrun'
  have hreports' := reports_of_reportsFirst hreports
  rw [← hinstance] at hreports' ⊢
  exact (failed_extend_never_heals ⟨1, 60, 60⟩ s (reach_of_run _ smallSystem_initial hrun) c hc hkind
    (.inl hstatus) 1 hgeneration s' hleads 100 hreports' i hi (hid.trans hinstance.symm)).1

/-- An extension that fails for good poisons a healthy instance: the next
periodic inspection moves it to `unknown`. -/
theorem failed_extend_poisons : ¬ FailedExtendHeals ⟨1, 60, 60⟩ := by
  intro hheals
  obtain ⟨s, hrun, hbefore, ⟨c, hc, hinstance, hkind, hstatus, hgeneration⟩, s', hrun', hafter,
    i, hi, hid, hactive, hunknown⟩ := extendFailed_eq_some
  have hbefore' := reports_of_reportsFirst hbefore
  have hafter' := reports_of_reportsFirst hafter
  rw [← hinstance] at hbefore' hafter'
  exact (hheals s (reach_of_run _ smallSystem_initial hrun) c hc hkind (.inl hstatus) 1 100
    hgeneration hbefore' s' (leads_of_run inspectedLater hrun') hafter' i hi
    (hid.trans hinstance.symm) hactive).1 hunknown

end CtfZone
