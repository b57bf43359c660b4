/-
# Cleanup is never abandoned

An instance that has to go is cleaned up by a terminate command.  The API and
the controller queue one when they stop an instance; whatever becomes of it, two
periodic scans of the controller queue another: `enqueue_policy_terminations`
for instances that are to stop or that the policy no longer allows, and
`enqueue_overdue_terminations` for instances past their deadline.

Both scans pass over an instance with an open terminate command, so they are of
use only because an open terminate command is never one that will be cancelled
as stale.  `Database.Terminating` is the invariant behind it: there is at most one,
and it is at the generation of its instance.
-/
import CtfZone.SystemInvariants

open Runs Relation

namespace CtfZone

/-! ## The scans -/

/-- An open terminate command of an instance. -/
def RuntimeCommand.opensTermination (instanceId : Uuid) (c : RuntimeCommand) : Bool :=
  c.instanceId = instanceId && c.kind = .terminate && c.status.isOpen

/-- A terminate command of an instance that failed after a time. -/
def RuntimeCommand.failedAfter (t : Time) (instanceId : Uuid) (c : RuntimeCommand) : Bool :=
  c.instanceId = instanceId && c.kind = .terminate && c.status = .failed &&
    c.completedAt.any (t < ·)

/-- What both scans ask of an instance: no terminate command is open, and none
has failed within the safety interval. -/
def Database.cleanupRetryDue (config : Config) (now : Time) (instanceId : Uuid)
    (db : Database) : Bool :=
  ! db.commands.any (·.opensTermination instanceId) &&
    ! db.commands.any (·.failedAfter (now - seconds config.reconciliationInterval) instanceId)

/-- The policy does not allow instances of a challenge. -/
def Database.policyDisabled (challengeId : ChallengeId) (db : Database) : Bool :=
  ! db.setting.enabled || (db.findConfig challengeId).elim true fun r => ! r.enabled || ! r.managed

/-- The instances `enqueue_policy_terminations` selects, each with the reason of
its termination. -/
def enqueuePolicyTerminations (config : Config) (now : Time) (db : Database) :
    List (Uuid × TerminationReason) :=
  (db.instances.filter fun i =>
    i.active && (i.desiredState = .stopped || db.policyDisabled i.challengeId) &&
      db.cleanupRetryDue config now i.id).map fun i =>
    (i.id, if i.desiredState = .stopped then .cleanupSafetyRetry else .runtimePolicyDisabled)

/-- The instances `enqueue_overdue_terminations` selects. -/
def enqueueOverdueTerminations (config : Config) (now : Time) (db : Database) : List Uuid :=
  (db.instances.filter fun i =>
    i.active && i.expiresAt ≤ now && db.cleanupRetryDue config now i.id).map (·.id)

/-! ## One open terminate command -/

/-- At most one terminate command of an instance is open; the instance is to stop
and at the generation of the command. -/
structure Database.Terminating (db : Database) : Prop where
  one : ∀ id, db.commands.countP (·.opensTermination id) ≤ 1
  current : ∀ c ∈ db.commands, c.kind = .terminate → c.status.isOpen = true →
    ∀ i ∈ db.instances, i.id = c.instanceId →
      i.desiredState = .stopped ∧ c.generation = i.generation

namespace Database.Terminating

variable {db db' : Database} {asked : Uuid → Prop} {ids : List Uuid} {command : CommandRow}
  {scope : Scope} {cleanupId : Uuid} {i : RuntimeInstance} {c : RuntimeCommand}

theorem of_eq (h : db.Terminating) (hi : db'.instances = db.instances)
    (hc : db'.commands = db.commands) : db'.Terminating :=
  ⟨hc ▸ h.one, hi ▸ hc ▸ h.current⟩

/-- An update of instances that keeps generations and starts nothing again. -/
theorem updateInstances (h : db.Terminating) {q : RuntimeInstance → Bool}
    {f : RuntimeInstance → RuntimeInstance} (hf : ∀ i, RuntimeInstance.Later i (f i))
    (hgeneration : ∀ i, (f i).generation = i.generation) :
    (db.updateInstances q f).Terminating where
  one := h.one
  current c hc hkind hopen i' hi' hid := by
    obtain ⟨i, hi, ⟨-, rfl⟩ | ⟨-, rfl⟩⟩ := Tables.mem_update.mp hi'
    · obtain ⟨hstopped, hcurrent⟩ := h.current c hc hkind hopen i hi ((hf i).id.symm.trans hid)
      refine ⟨?_, hcurrent.trans (hgeneration i).symm⟩
      cases hdesired : (f i).desiredState with
      | running => exact absurd ((hf i).running hdesired) (by rw [hstopped]; decide)
      | stopped => rfl
    · exact h.current c hc hkind hopen i hi hid

/-- An update of commands that opens none. -/
theorem updateCommands (h : db.Terminating) {q : RuntimeCommand → Bool}
    {g : RuntimeCommand → RuntimeCommand} (hg : ∀ c, RuntimeCommand.SameRequest c (g c))
    (hopen : ∀ c ∈ db.commands, q c = true → (g c).status.isOpen = true →
      c.status.isOpen = true) : (db.updateCommands q g).Terminating where
  one id := by
    refine le_trans ?_ (h.one id)
    rw [Database.updateCommands_commands, Tables.update, List.countP_map]
    refine List.countP_mono_left fun c hc hopens => ?_
    rw [Function.comp_apply] at hopens
    rcases Tables.updateRow_cases q g c with ⟨-, heq⟩ | ⟨hq, heq⟩
    · rwa [heq] at hopens
    · rw [heq] at hopens
      simp only [RuntimeCommand.opensTermination, Bool.and_eq_true, decide_eq_true_eq,
        (hg c).instanceId, (hg c).kind] at hopens ⊢
      exact ⟨hopens.1, hopen c hc hq hopens.2⟩
  current := by
    refine Tables.forall_update h.current fun c hc hq hcurrent hkind hstatus i hi hid => ?_
    rw [(hg c).kind] at hkind
    rw [(hg c).instanceId] at hid
    rw [(hg c).generation]
    exact hcurrent hkind (hopen c hc hq hstatus) i hi hid

/-- A queued command that terminates nothing. -/
theorem queue (h : db.Terminating) (hkind : c.kind ≠ .terminate)
    (hi : db'.instances = db.instances) (hc : db'.commands = db.commands ++ [c]) :
    db'.Terminating where
  one id := by
    rw [hc, List.countP_append, List.countP_singleton, if_neg]
    · exact h.one id
    · simp [RuntimeCommand.opensTermination, hkind]
  current := by
    rw [hc, hi]
    exact Tables.forall_insert h.current fun hterminate => absurd hterminate hkind

/-- An instance that is to run has no open terminate command. -/
theorem none_open (h : db.Terminating) (hi : i ∈ db.instances)
    (hunqueued : i.desiredState = .running ∨ ∀ d ∈ db.commands, d.instanceId = i.id →
      d.kind = .terminate → d.status.isOpen = false) :
    ∀ d ∈ db.commands, d.opensTermination i.id = false := by
  intro d hd
  rw [Bool.eq_false_iff]
  intro hopens
  simp only [RuntimeCommand.opensTermination, Bool.and_eq_true, decide_eq_true_eq] at hopens
  obtain ⟨⟨hinstance, hkind⟩, hopen⟩ := hopens
  rcases hunqueued with hrunning | hclosed
  · have hstopped := (h.current d hd hkind hopen i hi hinstance.symm).1
    rw [hrunning] at hstopped
    cases hstopped
  · rw [hclosed d hd hinstance hkind] at hopen
    cases hopen

/-- An instance without an open terminate command may change as it likes. -/
theorem updateRow (h : db.Terminating) {f : RuntimeInstance → RuntimeInstance}
    (hf : ∀ i, (f i).id = i.id)
    (hnone : ∀ d ∈ db.commands, d.opensTermination i.id = false) :
    (db.updateInstances (·.id = i.id) f).Terminating where
  one := h.one
  current d hd hkind hopen j' hj' hid := by
    obtain ⟨j, hj, ⟨hhit, rfl⟩ | ⟨-, rfl⟩⟩ := Tables.mem_update.mp hj'
    · have hinstance : d.instanceId = i.id :=
        hid.symm.trans ((hf j).trans (of_decide_eq_true hhit))
      have hclosed := hnone d hd
      simp [RuntimeCommand.opensTermination, hinstance, hkind, hopen] at hclosed
    · exact h.current d hd hkind hopen j hj hid

theorem stops {c : Option RuntimeCommand} (h : db.Terminating) (hsound : db.Sound)
    (hstops : Stops ids db i c db') : db'.Terminating := by
  have hnone := h.none_open hstops.mem hstops.unqueued
  have hstopped : (db.updateInstances (·.id = i.id) (·.stopping)).Terminating :=
    h.updateRow (fun _ => rfl) hnone
  have hc := hstops.commands
  cases c with
  | none =>
      rw [Option.toList_none, List.append_nil] at hc
      exact hstopped.of_eq hstops.instances hc
  | some c =>
      obtain ⟨hqueued, -, -⟩ := hstops.queued c rfl
      refine ⟨fun id => ?_, ?_⟩
      · rw [hc, Option.toList_some, List.countP_append, List.countP_singleton]
        split
        · rename_i hopens
          simp only [RuntimeCommand.opensTermination, Bool.and_eq_true, decide_eq_true_eq] at hopens
          have hid : i.id = id := hqueued.instanceId.symm.trans hopens.1.1
          rw [← hid, List.countP_eq_zero.mpr fun d hd => Bool.eq_false_iff.mp (hnone d hd)]
        · exact h.one id
      · rw [hc, hstops.instances]
        refine Tables.forall_insert hstopped.current fun _ _ j' hj' hid => ?_
        obtain ⟨j, hj, ⟨hhit, rfl⟩ | ⟨hmiss, rfl⟩⟩ := Tables.mem_update.mp hj'
        · rw [hsound.instance_eq hj hstops.mem (of_decide_eq_true hhit)]
          exact ⟨rfl, hqueued.generation⟩
        · exact absurd (hid.trans hqueued.instanceId) (of_decide_eq_false hmiss)

theorem request (h : db.Terminating) (hsound : db.Sound)
    (hfresh : ∀ id ∈ ids, ∀ i ∈ db.instances, i.id ≠ id)
    (hmove : RequestMove asked ids db db') : db'.Terminating := by
  cases hmove with
  | frame hi hc => exact h.of_eq hi hc
  | launch i c launched queued iid cid slot admits hi hc =>
      have hinserted : Database.Terminating { db with instances := db.instances ++ [i] } := by
        refine ⟨h.one, fun d hd hkind hopen => ?_⟩
        refine Tables.forall_insert (h.current d hd hkind hopen) fun hid => ?_
        obtain ⟨j, hj, hjid, -⟩ := hsound.references d hd
        exact absurd (hjid.trans hid.symm) (hfresh _ iid j hj)
      refine hinserted.queue ?_ hi hc
      rw [queued.kind]
      decide
  | extend id i t c cid hi hext =>
      have hextended : (db.updateInstances (·.id = i.id) (·.extended t)).Terminating :=
        h.updateRow (fun _ => rfl) (h.none_open hext.mem (.inl hext.running))
      refine hextended.queue ?_ hext.instances hext.commands
      rw [hext.queued.kind]
      decide
  | stop i c hstops => exact h.stops hsound hstops
  | enqueue i kind c mem hkind queued cid admits hi hc =>
      refine h.queue ?_ hi hc
      rw [queued.kind]
      rcases hkind with rfl | rfl <;> decide
  | release q t claimed hi hc =>
      have hreleased : (db.updateCommands q (·.release t)).Terminating :=
        h.updateCommands (RuntimeCommand.release_sameRequest t) fun c _ hq _ => by
          rw [claimed c hq]
          rfl
      exact hreleased.of_eq hi hc

theorem claimRow (h : db.Terminating) (now : Time) (token : Uuid) (c : RuntimeCommand) :
    (db.claimRow now token c).Terminating := by
  refine h.updateCommands (RuntimeCommand.claim_sameRequest now token) fun d _ hq _ => ?_
  simp only [Bool.and_eq_true, decide_eq_true_eq] at hq
  rw [hq.2]
  rfl

theorem move (h : db.Terminating) (hsound : db.Sound)
    (hmove : WorkMove command scope cleanupId db db') : db'.Terminating := by
  cases hmove with
  | event e => exact h.of_eq rfl rfl
  | close status now hclosed _ =>
      refine h.updateCommands (RuntimeCommand.close_sameRequest status now)
        fun c _ _ hopen => ?_
      exact absurd (hclosed.symm.trans hopen) (by decide)
  | release t =>
      refine h.updateCommands (RuntimeCommand.release_sameRequest t) fun c _ hheld _ => ?_
      simp only [CommandRow.holds, Bool.and_eq_true, decide_eq_true_eq] at hheld
      rw [hheld.1.2]
      rfl
  | project now p hp _ =>
      exact h.updateInstances (fun i => (p.set_projected now _ i).toLater)
        fun i => p.set_generation now _ i
  | terminate now reason _ =>
      rcases createTermination_cases now cleanupId command.instanceId reason db with
        hsame | ⟨i, c, -, hstops⟩
      · rwa [hsame]
      · exact h.stops hsound hstops

theorem work (h : db.Terminating) (hsound : db.Sound)
    (hprojects : ∃ i ∈ db.instances, i.id = command.instanceId ∧
      ∀ p, scope.projects p → p.Sound i.maximumExpiresAt)
    (hwork : Work command scope cleanupId db db') : db'.Terminating := by
  induction hwork with
  | refl => exact h
  | tail hwork hmove ih => exact ih.move (hsound.work hprojects hwork) hmove

theorem step {config : Config} {s s' : System} {l : Label} (h : s.db.Terminating)
    (hsound : s.Sound) (hmoved : Moved config s l s') : s'.db.Terminating := by
  cases hmoved with
  | request asked ids db' hasked fresh hmove happends =>
      refine h.request hsound.db (fun id hid i hi heq => ?_) hmove
      exact fresh id hid (heq ▸ hsound.drawn.db.instances i hi)
  | claim w now token c idle fresh mem hpending => exact h.claimRow now token c
  | work w turn pc db' sent hl fresh hadvance =>
      obtain ⟨command, hcommand⟩ := Pc.command_of_advance hadvance
      rcases advance_work hcommand (hsound.drawn.db.freshCommand fresh) hadvance with
        rfl | ⟨-, hwork⟩
      · exact h
      · exact h.work hsound.db (Pc.projections_sound hsound.db (hsound.known w) hcommand) hwork
  | _ => exact h

end Database.Terminating

theorem System.reach_terminating {config : Config} {guard : System → Label → Prop} {s : System}
    (h : Reach (System.step config) guard System.Initial s) : s.db.Terminating := by
  induction h with
  | init hinitial => exact ⟨by simp [hinitial.commands], by simp [hinitial.commands]⟩
  | step l hreach _ hstep ih =>
      exact ih.step (System.reach_sound hreach) (System.step_moved hstep)

/-! ## Every instance that has to go -/

/-- Exactly one terminate command of the instance is open, and it is at the
generation of the instance. -/
def Database.TerminationOpen (i : RuntimeInstance) (db : Database) : Prop :=
  db.commands.countP (·.opensTermination i.id) = 1 ∧
    ∀ c ∈ db.commands, c.opensTermination i.id = true → c.generation = i.generation

/-- The safety interval since the last terminate command of the instance failed
is over. -/
def Database.SafetyIntervalOver (config : Config) (now : Time) (i : RuntimeInstance)
    (db : Database) : Prop :=
  ∀ c ∈ db.commands, c.instanceId = i.id → c.kind = .terminate → c.status = .failed →
    ∀ t, c.completedAt = some t → t + seconds config.reconciliationInterval ≤ now

/-- A terminate command is open, or both scans may queue one as soon as the
safety interval is over. -/
theorem Database.Terminating.open_or_due {db : Database} (h : db.Terminating)
    {i : RuntimeInstance} (hi : i ∈ db.instances) (config : Config) :
    db.TerminationOpen i ∨ ∀ now, db.SafetyIntervalOver config now i →
      db.cleanupRetryDue config now i.id = true := by
  rcases Nat.eq_zero_or_pos (db.commands.countP (·.opensTermination i.id)) with hzero | hpos
  · refine .inr fun now hover => ?_
    have hnone := List.countP_eq_zero.mp hzero
    rw [cleanupRetryDue, Bool.and_eq_true, Bool.not_eq_true', Bool.not_eq_true',
      List.any_eq_false, List.any_eq_false]
    refine ⟨hnone, fun c hc hfailed => ?_⟩
    simp only [RuntimeCommand.failedAfter, Bool.and_eq_true, decide_eq_true_eq,
      Option.any_eq_true] at hfailed
    obtain ⟨⟨⟨hinstance, hkind⟩, hstatus⟩, t, hcompleted, hlater⟩ := hfailed
    exact absurd (hover c hc hinstance hkind hstatus t hcompleted)
      (Int.not_le.mpr (Int.lt_add_of_sub_right_lt hlater))
  · refine .inl ⟨Nat.le_antisymm (h.one i.id) hpos, fun c hc hopens => ?_⟩
    simp only [RuntimeCommand.opensTermination, Bool.and_eq_true, decide_eq_true_eq] at hopens
    exact (h.current c hc hopens.1.2 hopens.2 i hi hopens.1.1.symm).2

/-- What a scan selects is queued: the termination counts the generation up and
opens a terminate command at it. -/
theorem createTermination_due {config : Config} {now : Time} {commandId : Uuid}
    {reason : TerminationReason} {db : Database} {i : RuntimeInstance} (hsound : db.Sound)
    (hi : i ∈ db.instances) (hactive : i.active = true)
    (hdue : db.cleanupRetryDue config now i.id = true) :
    i.stopping ∈ (createTermination now commandId i.id reason db).instances ∧
      ∃ c ∈ (createTermination now commandId i.id reason db).commands, c.id = commandId ∧
        c.opensTermination i.id = true ∧ c.generation = i.stopping.generation := by
  simp only [Database.cleanupRetryDue, Bool.and_eq_true, Bool.not_eq_true'] at hdue
  have hfound : db.findInstance i.id = some i := by
    obtain ⟨j, hj⟩ : ∃ j, db.findInstance i.id = some j := by
      refine Option.isSome_iff_exists.mp (List.find?_isSome.mpr ⟨i, hi, decide_eq_true rfl⟩)
    obtain ⟨hmem, hid⟩ := Database.findInstance_eq_some hj
    rw [hj, hsound.instance_eq hmem hi hid]
  have hqueued : (db.commands.any fun c =>
      c.instanceId = i.id && c.kind = .terminate && c.status.isOpen) = false := hdue.1
  -- no open command stands in the way of the unique index
  have hinsert : ((db.updateInstances (·.id = i.id) (·.stopping)).insertCommand
      (i.stopping.command commandId .terminate (.termination reason (some i.expiresAt)) none none
        now)).isSome = true := by
    unfold Database.insertCommand
    rw [if_neg]
    · rfl
    · rw [Bool.not_eq_true, List.any_eq_false]
      intro d hd hclash
      rw [Bool.or_eq_true] at hclash
      rcases hclash with hkey | hopen
      · change clash d.idempotency none = true at hkey
        rw [clash_none] at hkey
        cases hkey
      · have hd := List.any_eq_false.mp hdue.1 d hd
        simp only [clash, RuntimeCommand.openKey, RuntimeInstance.command] at hopen
        simp only [RuntimeCommand.opensTermination] at hd
        split at hopen
        · simp_all [RuntimeInstance.stopping, CommandStatus.isOpen]
        · simp at hopen
  obtain ⟨db', hdb'⟩ := Option.isSome_iff_exists.mp hinsert
  obtain ⟨-, hinstances, hcommands⟩ := Database.insertCommand_admits hdb'
  unfold createTermination
  rw [hfound]
  simp only [hactive, hqueued, Bool.not_true, Bool.or_false, hdb']
  rw [if_neg (by decide), Database.controllerEvent_instances, Database.controllerEvent_commands,
    hinstances, hcommands]
  refine ⟨Tables.mem_update.mpr ⟨i, hi, .inl ⟨decide_eq_true rfl, rfl⟩⟩,
    _, List.mem_append_right _ List.mem_cons_self, rfl, ?_, rfl⟩
  simp [RuntimeCommand.opensTermination, RuntimeInstance.command, RuntimeInstance.stopping,
    CommandStatus.isOpen]

/-- **Cleanup is never abandoned.**  In every reachable state no instance has
more than one open terminate command.  An active instance that is to stop or
that the policy no longer allows has one at its generation, or
`enqueue_policy_terminations` selects it as soon as the safety interval is over;
an active instance past its deadline has one at its generation, or
`enqueue_overdue_terminations` selects it as soon as the safety interval is over. -/
theorem cleanup_never_abandoned (config : Config) (s : System)
    (h : Reach (System.step config) anyStep System.Initial s) :
    (∀ id, s.db.commands.countP (·.opensTermination id) ≤ 1) ∧
    ∀ i ∈ s.db.instances, i.active = true →
      (i.desiredState = .stopped ∨ s.db.policyDisabled i.challengeId = true →
        s.db.TerminationOpen i ∨ ∀ now, s.db.SafetyIntervalOver config now i →
          ∃ reason, (i.id, reason) ∈ enqueuePolicyTerminations config now s.db) ∧
      ∀ overdue, i.expiresAt ≤ overdue →
        s.db.TerminationOpen i ∨ ∀ now, overdue ≤ now → s.db.SafetyIntervalOver config now i →
          i.id ∈ enqueueOverdueTerminations config now s.db := by
  have hterminating := System.reach_terminating h
  refine ⟨hterminating.one, fun i hi hactive => ⟨fun hgone => ?_, fun overdue hexpired => ?_⟩⟩
  · refine (hterminating.open_or_due hi config).imp id fun hdue now hover => ?_
    refine ⟨_, List.mem_map.mpr ⟨i, List.mem_filter.mpr ⟨hi, ?_⟩, rfl⟩⟩
    simp [hactive, hgone, hdue now hover]
  · refine (hterminating.open_or_due hi config).imp id fun hdue now hlater hover => ?_
    refine List.mem_map.mpr ⟨i, List.mem_filter.mpr ⟨hi, ?_⟩, rfl⟩
    simp [hactive, Int.le_trans hexpired hlater, hdue now hover]

/-- The instance of the small deployment is launched; then an administrator
disables private challenges. -/
def policyChanged : List Label := launchSent ++ [.setting smallUser false]

/-- It is terminated, or due to be. -/
theorem cleanup_never_abandoned_policy :
    ∃ s, run (System.step ⟨5, 60, 60⟩) policyChanged smallSystem = some s ∧
      ∃ i ∈ s.db.instances, i.active = true ∧ s.db.policyDisabled i.challengeId = true ∧
        (s.db.TerminationOpen i ∨ ∀ now, s.db.SafetyIntervalOver ⟨5, 60, 60⟩ now i →
          ∃ reason, (i.id, reason) ∈ enqueuePolicyTerminations ⟨5, 60, 60⟩ now s.db) := by
  have hrun : (run (System.step ⟨5, 60, 60⟩) policyChanged smallSystem).any (fun s =>
      s.db.instances.any fun i => i.active && s.db.policyDisabled i.challengeId) = true := by
    decide +kernel
  obtain ⟨s, hs, hany⟩ := (Option.any_eq_true _ _).mp hrun
  obtain ⟨i, hi, hgone⟩ := List.any_eq_true.mp hany
  rw [Bool.and_eq_true] at hgone
  exact ⟨s, hs, i, hi, hgone.1, hgone.2, ((cleanup_never_abandoned ⟨5, 60, 60⟩ s
    (reach_of_run policyChanged smallSystem_initial hs)).2 i hi hgone.1).1 (.inr hgone.2)⟩

end CtfZone
