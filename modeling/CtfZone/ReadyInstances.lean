/-
# Ready instances

Three transactions make an instance `ready`: `finish_start`, which records the
container and the endpoint, an inspection of a ready workload, and the failure
of an extension.  An inspection that overtakes the start, or arrives after the
reply of the start was lost, makes an instance ready that has never been
populated; the start command may then be abandoned or left behind by an
extension.

`KeepsReady` excludes exactly these three kinds of step, and along every run
without them a ready instance is populated or its start is still to come.
-/
import CtfZone.SystemInvariants

open Runs Relation

namespace CtfZone

/-! ## Populated instances -/

/-- `finish_start` has recorded the container. -/
def RuntimeInstance.Populated (i : RuntimeInstance) : Prop :=
  i.remoteContainerId.isSome = true ∧ i.readyAt.isSome = true

/-- A start command at the generation of the instance is still open. -/
def Database.OpenStart (db : Database) (i : RuntimeInstance) : Prop :=
  ∃ c ∈ db.commands, c.kind = .start ∧ c.instanceId = i.id ∧ c.generation = i.generation ∧
    c.status.isOpen = true

/-- The instance is populated, or its start is still to come. -/
def Database.Accounted (db : Database) (i : RuntimeInstance) : Prop :=
  i.Populated ∨ db.OpenStart i

/-- An instance the users see as ready. -/
structure RuntimeInstance.Offered (i : RuntimeInstance) : Prop where
  active : i.active = true
  running : i.desiredState = .running
  ready : i.observedState = .ready

/-- Ready instances are accounted for, and extended ones are populated. -/
structure Database.ReadyAccounted (db : Database) : Prop where
  ready : ∀ i ∈ db.instances, i.Offered → db.Accounted i
  extended : ∀ c ∈ db.commands, c.kind = .extend → ∀ i ∈ db.instances, i.id = c.instanceId →
    i.Populated

variable {db db' : Database} {command : CommandRow} {scope : Scope} {cleanupId : Uuid}
  {now : Time} {generation : ℤ} {p : Projection} {i i' : RuntimeInstance}

theorem Database.OpenStart.mono (h : db.OpenStart i) (hid : i'.id = i.id)
    (hgeneration : i'.generation = i.generation)
    (hcommands : ∀ c ∈ db.commands, c.kind = .start → c.instanceId = i.id →
      c.generation = i.generation → c.status.isOpen = true →
      ∃ c' ∈ db'.commands, c.SameRequest c' ∧ c'.status.isOpen = true) : db'.OpenStart i' := by
  obtain ⟨c, hc, hkind, hinstance, hgen, hopen⟩ := h
  obtain ⟨c', hc', hsame, hopen'⟩ := hcommands c hc hkind hinstance hgen hopen
  exact ⟨c', hc', hsame.kind.trans hkind, hsame.instanceId.trans (hinstance.trans hid.symm),
    hsame.generation.trans (hgen.trans hgeneration.symm), hopen'⟩

/-- Commands that are all still there as they were. -/
theorem Database.OpenStart.of_subset (h : db.OpenStart i) (hid : i'.id = i.id)
    (hgeneration : i'.generation = i.generation) (hsub : ∀ c ∈ db.commands, c ∈ db'.commands) :
    db'.OpenStart i' :=
  h.mono hid hgeneration fun c hc _ _ _ hopen => ⟨c, hsub c hc, .refl c, hopen⟩

/-- An update of commands that closes none. -/
theorem Database.OpenStart.updateCommands (h : db.OpenStart i) {q : RuntimeCommand → Bool}
    {g : RuntimeCommand → RuntimeCommand} (hg : ∀ c, RuntimeCommand.SameRequest c (g c))
    (hopen : ∀ c ∈ db.commands, q c = true → c.kind = .start → c.instanceId = i.id →
      c.generation = i.generation → (g c).status.isOpen = true) :
    (db.updateCommands q g).OpenStart i := by
  refine h.mono rfl rfl fun c hc hkind hinstance hgen hstatus => ?_
  refine ⟨Tables.updateRow q g c, List.mem_map_of_mem hc, ?_⟩
  rcases Tables.updateRow_cases q g c with ⟨-, heq⟩ | ⟨hq, heq⟩
  · rw [heq]
    exact ⟨.refl c, hstatus⟩
  · rw [heq]
    exact ⟨hg c, hopen c hc hq hkind hinstance hgen⟩

/-! ## Projections -/

/-- A projection that records a start records a container. -/
def Projection.Populates : Projection → Prop
  | .started _ _ result => result.containerId.isSome = true
  | _ => True

theorem Projection.set_populated (hp : p.Populates) (h : i.Populated) :
    (p.set now generation i).Populated := by
  cases p with
  | started server effective result => exact ⟨hp, rfl⟩
  | _ => exact h

/-- An instance that a projection makes or leaves ready. -/
theorem Projection.set_offered (h : (p.set now generation i).Offered) :
    (∃ server effective result, p = .started server effective result) ∨ p = .reconciled ∨
      p = .commandFailed .ready ∨ (∃ effective, p = .extended effective) ∧ i.Offered := by
  obtain ⟨hactive, hrunning, hready⟩ := h
  cases p with
  | started server effective result => exact .inl ⟨server, effective, result, rfl⟩
  | reconciled => exact .inr (.inl rfl)
  | commandFailed state => exact .inr (.inr (.inl (congrArg Projection.commandFailed hready)))
  | extended effective => exact .inr (.inr (.inr ⟨⟨effective, rfl⟩, hactive, hrunning, hready⟩))
  | terminated expired | missing expired => cases hactive
  | starting | stopping | notReady | rejected | expiredUnstarted => cases hready

/-! ## Moves -/

theorem Database.ReadyAccounted.updateInstances (h : db.ReadyAccounted)
    {q : RuntimeInstance → Bool} {f : RuntimeInstance → RuntimeInstance}
    (hid : ∀ i, (f i).id = i.id) (hpopulated : ∀ i, i.Populated → (f i).Populated)
    (hready : ∀ i ∈ db.instances, q i = true → (f i).Offered → db.Accounted (f i)) :
    (db.updateInstances q f).ReadyAccounted where
  ready i' hi' hoffered := by
    obtain ⟨i, hi, ⟨hq, rfl⟩ | ⟨-, rfl⟩⟩ := Tables.mem_update.mp hi'
    · exact hready i hi hq hoffered
    · exact h.ready i hi hoffered
  extended c hc hkind i' hi' hrow := by
    obtain ⟨i, hi, ⟨hq, rfl⟩ | ⟨-, rfl⟩⟩ := Tables.mem_update.mp hi'
    · exact hpopulated i (h.extended c hc hkind i hi ((hid i).symm.trans hrow))
    · exact h.extended c hc hkind i hi hrow

theorem Database.ReadyAccounted.updateCommands (h : db.ReadyAccounted)
    {q : RuntimeCommand → Bool} {g : RuntimeCommand → RuntimeCommand}
    (hg : ∀ c, RuntimeCommand.SameRequest c (g c))
    (hopen : ∀ i ∈ db.instances, i.Offered → ¬ i.Populated → ∀ c ∈ db.commands, q c = true →
      c.kind = .start → c.instanceId = i.id → c.generation = i.generation →
      (g c).status.isOpen = true) :
    (db.updateCommands q g).ReadyAccounted where
  ready i hi hoffered := by
    by_cases hpopulated : i.Populated
    · exact .inl hpopulated
    · exact .inr (((h.ready i hi hoffered).resolve_left hpopulated).updateCommands hg
        (hopen i hi hoffered hpopulated))
  extended := by
    refine Tables.forall_update h.extended fun c _ _ hc hkind i hi hrow => ?_
    exact hc ((hg c).kind.symm.trans hkind) i hi (hrow.trans (hg c).instanceId)

/-- A queued command that is no extension. -/
theorem Database.ReadyAccounted.queue (h : db.ReadyAccounted) {c : RuntimeCommand}
    (hkind : c.kind ≠ .extend) (hi : db'.instances = db.instances)
    (hc : db'.commands = db.commands ++ [c]) : db'.ReadyAccounted where
  ready i hmem hoffered := by
    rw [hi] at hmem
    refine (h.ready i hmem hoffered).imp id fun hstart => hstart.of_subset rfl rfl fun d hd => ?_
    rw [hc]
    exact List.mem_append_left _ hd
  extended := by
    rw [hc, hi]
    exact Tables.forall_insert h.extended fun hextend => absurd hextend hkind

theorem Database.ReadyAccounted.stops {ids : List Uuid} {c : Option RuntimeCommand}
    (h : db.ReadyAccounted) (hstops : Stops ids db i c db') : db'.ReadyAccounted := by
  have hstopped : (db.updateInstances (·.id = i.id) (·.stopping)).ReadyAccounted :=
    h.updateInstances (fun _ => rfl) (fun _ hi => hi) fun _ _ _ hoffered => by
      cases hoffered.running
  have hc := hstops.commands
  cases c with
  | none =>
      rw [Option.toList_none, List.append_nil] at hc
      exact ⟨hstops.instances ▸ fun j hj hoffered =>
        (hstopped.ready j hj hoffered).imp id fun hstart =>
          hstart.of_subset rfl rfl fun d hd => hc ▸ hd,
        hstops.instances ▸ hc ▸ hstopped.extended⟩
  | some c =>
      refine hstopped.queue ?_ hstops.instances hc
      rw [(hstops.queued c rfl).1.kind]
      decide

theorem Database.ReadyAccounted.request {asked : Uuid → Prop} {ids : List Uuid}
    (h : db.ReadyAccounted) (hsound : db.Sound)
    (hfresh : ∀ id ∈ ids, ∀ i ∈ db.instances, i.id ≠ id)
    (hasked : ∀ i ∈ db.instances, asked i.id → i.Offered → i.Populated)
    (hmove : RequestMove asked ids db db') : db'.ReadyAccounted := by
  have hsame (hi : db'.instances = db.instances) (hc : db'.commands = db.commands) :
      db'.ReadyAccounted :=
    ⟨hi ▸ fun i hi hoffered => (h.ready i hi hoffered).imp id fun hstart =>
      hstart.of_subset rfl rfl fun c hmem => hc ▸ hmem, hi ▸ hc ▸ h.extended⟩
  cases hmove with
  | frame hi hc => exact hsame hi hc
  | launch i c launched queued iid cid slot admits hi hc =>
      have hinserted : Database.ReadyAccounted { db with instances := db.instances ++ [i] } := by
        refine ⟨Tables.forall_insert h.ready fun hoffered => ?_, fun d hd hkind =>
          Tables.forall_insert (h.extended d hd hkind) fun hrow => ?_⟩
        · cases launched.observedState.symm.trans hoffered.ready
        · obtain ⟨j, hj, hjid, -⟩ := hsound.references d hd
          exact absurd (hjid.trans hrow.symm) (hfresh _ iid j hj)
      refine hinserted.queue ?_ hi hc
      rw [queued.kind]
      decide
  | extend id i t c cid hi hext =>
      have hpopulated := hasked i hext.mem hi ⟨hext.active, hext.running, hext.ready⟩
      have hextended : (db.updateInstances (·.id = i.id) (·.extended t)).ReadyAccounted :=
        h.updateInstances (fun _ => rfl) (fun _ hj => hj) fun j hj hrow _ => by
          rw [hsound.instance_eq hj hext.mem (of_decide_eq_true hrow)]
          exact .inl hpopulated
      refine ⟨?_, ?_⟩
      · rw [hext.instances]
        exact fun j hj hoffered => (hextended.ready j hj hoffered).imp (fun hp => hp) fun hstart =>
          hstart.of_subset rfl rfl fun d hd => by
            rw [hext.commands]
            exact List.mem_append_left _ hd
      · rw [hext.commands, hext.instances]
        refine Tables.forall_insert hextended.extended fun _ j hj hrow => ?_
        obtain ⟨j₀, hj₀, ⟨-, rfl⟩ | ⟨hmiss, rfl⟩⟩ := Tables.mem_update.mp hj
        · rw [hsound.instance_eq hj₀ hext.mem (hrow.trans hext.queued.instanceId)]
          exact hpopulated
        · exact absurd (hrow.trans hext.queued.instanceId) (of_decide_eq_false hmiss)
  | stop i c hstops => exact h.stops hstops
  | enqueue i kind c mem hkind queued cid admits hi hc =>
      refine h.queue ?_ hi hc
      rw [queued.kind]
      rcases hkind with rfl | rfl <;> decide
  | release q t claimed hi hc =>
      have hreleased : (db.updateCommands q (·.release t)).ReadyAccounted :=
        h.updateCommands (RuntimeCommand.release_sameRequest t) fun _ _ _ _ _ _ _ _ _ _ => rfl
      exact ⟨hi ▸ fun i hi hoffered => (hreleased.ready i hi hoffered).imp id fun hstart =>
        hstart.of_subset rfl rfl fun c hmem => hc ▸ hmem, hi ▸ hc ▸ hreleased.extended⟩

/-! ## Steps of a worker -/

/-- What is known of the running instance of a worker's command, at its
generation, before the worker's step. -/
def Pc.Foresees (pc : Pc) (command : CommandRow) (db : Database) : Prop :=
  ∀ i ∈ db.instances, i.id = command.instanceId → i.generation = command.generation →
    i.active = true → i.desiredState = .running →
    match pc with
    | .cancelStale _ => command.kind ≠ .start
    | .cancel _ | .rejectStart _ | .expireUnstarted _ =>
      command.kind = .start → i.observedState = .ready → i.Populated
    | .finish r result =>
      r.call = .inspect → result.absent.getD false = false → result.ready = some true →
        db.Accounted i
    | _ => True

/-- A start command is closed only when its instance is not ready, or is
populated. -/
theorem Pc.Foresees.closes {pc : Pc} (h : pc.Foresees command db) (hfits : pc.Fits)
    (hcommand : pc.command = some command) {status : CommandStatus}
    (hcloses : pc.scope.closes status db) (hkind : command.kind = .start)
    (hi : i ∈ db.instances) (hid : i.id = command.instanceId)
    (hgeneration : i.generation = command.generation) (hoffered : i.Offered) : i.Populated := by
  have hforeseen := h i hi hid hgeneration hoffered.active hoffered.running
  cases pc with
  | cancelStale job => exact absurd hkind hforeseen
  | cancel c | rejectStart job | expireUnstarted job => exact hforeseen hkind hoffered.ready
  | complete c =>
      cases hcommand
      cases hfits.symm.trans hkind
  | finishTermination job =>
      cases hcommand
      cases hfits.2.1.symm.trans hkind
  | finish r result =>
      cases hcommand
      obtain ⟨⟨-, hfits⟩, haccepts⟩ := hfits
      obtain ⟨-, hclosings⟩ := hcloses
      unfold RemoteRequest.closings at hclosings
      cases hcall : r.call <;> rw [hcall] at hfits hclosings
      · obtain ⟨hcontainer, hready⟩ :=
          hclosings i hi (hid.trans r.job.loaded.symm) hgeneration
        simp only [RemoteRequest.accepts, hcall, Bool.and_eq_true] at haccepts
        exact ⟨hcontainer ▸ haccepts.1.2, hready⟩
      · exact hclosings.elim
      · cases hfits.1.symm.trans hkind
      · cases hfits.1.symm.trans hkind
      · rcases hfits.1 with hfits | hfits <;> cases hfits.symm.trans hkind
  | retry c =>
      cases hcommand
      have hstate := hcloses.2 i hi hid hgeneration hoffered.active
      rw [hkind, hoffered.ready] at hstate
      cases hstate
  | _ => exact hcloses.elim

/-- A row before a projection has the property that is foreseen, so the row
after it has. -/
theorem Pc.Foresees.project {pc : Pc} (h : pc.Foresees command db) (hfits : pc.Fits)
    (hcommand : pc.command = some command) (hp : pc.projections p) :
    pc.Foresees command (db.project now command.instanceId command.generation p) := by
  intro i' hi' hid hgeneration hactive hrunning
  obtain ⟨i, hi, ⟨hhit, rfl⟩ | ⟨-, rfl⟩⟩ := Tables.mem_update.mp hi'
  · have hlater := (p.set_projected now command.generation i).toLater
    rw [Projection.set_generation] at hgeneration
    have hforeseen := h i hi (hlater.id.symm.trans hid) hgeneration (hlater.active hactive)
      (hlater.running hrunning)
    cases pc with
    | rejectStart job | expireUnstarted job =>
        cases hp
        cases hactive
    | finish r result =>
        intro hcall habsent hready
        refine (hforeseen hcall habsent hready).imp (Projection.set_populated ?_) fun hstart =>
          hstart.of_subset hlater.id (Projection.set_generation ..) fun _ hc => hc
        simp only [Pc.projections, RemoteRequest.projections, hcall, habsent, hready] at hp
        obtain ⟨h, -⟩ | ⟨-, ⟨h, -⟩ | ⟨-, rfl⟩⟩ := hp
        · cases h
        · exact absurd rfl h
        · trivial
    | cancelStale job => exact hforeseen
    | cancel c => exact hp.elim
    | _ => trivial
  · exact h i hi hid hgeneration hactive hrunning

/-- Whatever a worker does before it is done, the instance stays foreseen. -/
theorem Pc.Foresees.move {pc : Pc} (h : pc.Foresees command db) (hfits : pc.Fits)
    (hcommand : pc.command = some command) (hsound : db.Sound) (hknown : command.Known db)
    (hmove : WorkMove command pc.scope cleanupId db db') : pc.Foresees command db' := by
  -- only an inspection foresees something of the commands, and it is no start
  have hcommands {g : RuntimeCommand → RuntimeCommand}
      (hg : ∀ c, RuntimeCommand.SameRequest c (g c)) :
      pc.Foresees command (db.updateCommands command.holds g) := by
    intro i hi hid hgeneration hactive hrunning
    have hforeseen := h i hi hid hgeneration hactive hrunning
    cases pc with
    | finish r result =>
        intro hcall habsent hready
        refine (hforeseen hcall habsent hready).imp id fun hstart =>
          hstart.updateCommands hg fun c hc hheld hkind _ _ => ?_
        cases hcommand
        have hfits' := hfits.1.2
        rw [hcall] at hfits'
        rw [(hknown.held hsound hc hheld).2.1] at hkind
        rcases hfits'.1 with hother | hother <;> cases hother.symm.trans hkind
    | _ => exact hforeseen
  cases hmove with
  | event e => exact h
  | close status now _ _ => exact hcommands (RuntimeCommand.close_sameRequest status now)
  | release t => exact hcommands (RuntimeCommand.release_sameRequest t)
  | project now p hp _ => exact h.project hfits hcommand hp
  | terminate now reason _ =>
      rcases createTermination_cases now cleanupId command.instanceId reason db with
        hsame | ⟨j, c, hjid, hstops⟩
      · rwa [hsame]
      · intro i' hi' hid hgeneration hactive hrunning
        rw [hstops.instances] at hi'
        obtain ⟨i, hi, ⟨-, rfl⟩ | ⟨hmiss, rfl⟩⟩ := Tables.mem_update.mp hi'
        · cases hrunning
        · exact absurd (hid.trans hjid.symm) (of_decide_eq_false hmiss)

/-- Only the recording of a start projects one, with a reply that names the
container. -/
theorem Pc.populates {pc : Pc} (hfits : pc.Fits) (hp : pc.projections p) : p.Populates := by
  cases p with
  | started server effective result =>
      cases pc with
      | finish r reply =>
          have haccepts := hfits.2
          rw [Pc.projections, RemoteRequest.projections] at hp
          rw [RemoteRequest.accepts] at haccepts
          cases hcall : r.call <;> rw [hcall] at hp haccepts
          · obtain ⟨_, -, heq⟩ := hp
            cases heq
            simp only [Bool.and_eq_true] at haccepts
            exact haccepts.1.2
          · exact hp.elim
          · obtain ⟨_, heq⟩ := hp
            cases heq
          · obtain ⟨_, -, heq⟩ := hp
            cases heq
          · rcases hp with ⟨-, _, heq⟩ | ⟨-, ⟨-, heq⟩ | ⟨-, heq⟩⟩ <;> cases heq
      | place job =>
          obtain ⟨_, heq, -⟩ := hp
          cases heq
      | finishTermination job =>
          obtain ⟨_, heq⟩ := hp
          cases heq
      | rejectStart job | expireUnstarted job | markStopping job | retry command => cases hp
      | idle | load _ | cancelStale _ | cancel _ | complete _ | gate _ | send _ | await _ =>
          exact hp.elim
  | _ => trivial

/-- An inspection of a ready workload is the only one to project `reconciled`. -/
theorem Pc.projections_reconciled {pc : Pc} (hp : pc.projections .reconciled) :
    ∃ r result, pc = .finish r result ∧ r.call = .inspect ∧
      result.absent.getD false = false ∧ result.ready = some true := by
  cases pc with
  | finish r result =>
      rw [Pc.projections, RemoteRequest.projections] at hp
      cases hcall : r.call <;> rw [hcall] at hp
      · obtain ⟨_, -, heq⟩ := hp
        cases heq
      · exact hp.elim
      · obtain ⟨_, heq⟩ := hp
        cases heq
      · obtain ⟨_, -, heq⟩ := hp
        cases heq
      · rcases hp with ⟨-, _, heq⟩ | ⟨habsent, ⟨-, heq⟩ | ⟨hready, -⟩⟩
        · cases heq
        · cases heq
        · exact ⟨r, result, rfl, hcall, habsent, hready⟩
  | place job =>
      obtain ⟨_, heq, -⟩ := hp
      cases heq
  | finishTermination job =>
      obtain ⟨_, heq⟩ := hp
      cases heq
  | rejectStart job | expireUnstarted job | markStopping job | retry command => cases hp
  | idle | load _ | cancelStale _ | cancel _ | complete _ | gate _ | send _ | await _ =>
      exact hp.elim

/-- Only an extension that fails for good is projected as ready. -/
theorem Pc.projections_failed_ready {pc : Pc} (hcommand : pc.command = some command)
    (hp : pc.projections (.commandFailed .ready)) : command.kind = .extend := by
  cases pc with
  | retry c =>
      cases hcommand
      have hstate : ObservedState.ready = failedState command.kind :=
        Projection.commandFailed.inj hp
      cases hkind : command.kind <;> rw [hkind] at hstate <;> first | rfl | cases hstate
  | finish r result =>
      rw [Pc.projections, RemoteRequest.projections] at hp
      cases hcall : r.call <;> rw [hcall] at hp
      · obtain ⟨_, -, heq⟩ := hp
        cases heq
      · exact hp.elim
      · obtain ⟨_, heq⟩ := hp
        cases heq
      · obtain ⟨_, -, heq⟩ := hp
        cases heq
      · rcases hp with ⟨-, _, heq⟩ | ⟨-, ⟨-, heq⟩ | ⟨-, heq⟩⟩ <;> cases heq
  | place job =>
      obtain ⟨_, heq, -⟩ := hp
      cases heq
  | finishTermination job =>
      obtain ⟨_, heq⟩ := hp
      cases heq
  | rejectStart job | expireUnstarted job | markStopping job => cases hp
  | idle | load _ | cancelStale _ | cancel _ | complete _ | gate _ | send _ | await _ =>
      exact hp.elim

/-- What a worker may project keeps ready instances accounted for. -/
theorem Database.ReadyAccounted.project {pc : Pc} (h : db.ReadyAccounted)
    (hforesees : pc.Foresees command db) (hfits : pc.Fits)
    (hcommand : pc.command = some command) (hknown : command.Known db)
    (hp : pc.projections p) :
    (db.project now command.instanceId command.generation p).ReadyAccounted := by
  have hpopulates := Pc.populates hfits hp
  refine h.updateInstances (fun i => (p.set_projected now _ i).id)
    (fun i => Projection.set_populated hpopulates) fun i hi hhit hoffered => ?_
  simp only [Projection.hits, Bool.and_eq_true, decide_eq_true_eq] at hhit
  have hlater := (p.set_projected now command.generation i).toLater
  have hkeeps : db.Accounted i → db.Accounted (p.set now command.generation i) := fun hi =>
    hi.imp (Projection.set_populated hpopulates) fun hstart =>
      hstart.of_subset hlater.id (Projection.set_generation ..) fun _ hc => hc
  rcases Projection.set_offered hoffered with ⟨server, effective, result, rfl⟩ | rfl | rfl |
    ⟨-, hbefore⟩
  · exact .inl ⟨hpopulates, rfl⟩
  · obtain ⟨r, result, rfl, hcall, habsent, hready⟩ := Pc.projections_reconciled hp
    exact hkeeps (hforesees i hi hhit.1.1 hhit.1.2 (hlater.active hoffered.active)
      (hlater.running hoffered.running) hcall habsent hready)
  · obtain ⟨c, hc, -, hinstance, hkind, -⟩ := hknown.columns
    exact hkeeps (.inl (h.extended c hc (hkind.trans (Pc.projections_failed_ready hcommand hp)) i hi
      (hhit.1.1.trans hinstance.symm)))
  · exact hkeeps (h.ready i hi hbefore)

/-- The same for every move of a worker. -/
theorem Database.ReadyAccounted.move {pc : Pc} (h : db.ReadyAccounted)
    (hforesees : pc.Foresees command db) (hfits : pc.Fits)
    (hcommand : pc.command = some command) (hsound : db.Sound) (hknown : command.Known db)
    (hmove : WorkMove command pc.scope cleanupId db db') : db'.ReadyAccounted := by
  cases hmove with
  | event e => exact ⟨h.ready, h.extended⟩
  | close status now hclosed hcloses =>
      refine h.updateCommands (RuntimeCommand.close_sameRequest status now)
        fun i hi hoffered hunpopulated c hc hheld hkind hinstance hgeneration => ?_
      obtain ⟨hinstance', hkind', hgeneration'⟩ := hknown.held hsound hc hheld
      exact absurd (hforesees.closes hfits hcommand hcloses (hkind'.symm.trans hkind) hi
        (hinstance.symm.trans hinstance') (hgeneration.symm.trans hgeneration') hoffered)
        hunpopulated
  | release t =>
      exact h.updateCommands (RuntimeCommand.release_sameRequest t) fun _ _ _ _ _ _ _ _ _ _ => rfl
  | project now p hp _ => exact h.project hforesees hfits hcommand hknown hp
  | terminate now reason _ =>
      rcases createTermination_cases now cleanupId command.instanceId reason db with
        hsame | ⟨i, c, -, hstops⟩
      · rwa [hsame]
      · exact h.stops hstops

/-- And for a whole step. -/
theorem Database.ReadyAccounted.work {pc : Pc} (h : db.ReadyAccounted)
    (hforesees : pc.Foresees command db) (hfits : pc.Fits)
    (hcommand : pc.command = some command) (hsound : db.Sound) (hknown : pc.Known db)
    (hwork : Work command pc.scope cleanupId db db') :
    db'.ReadyAccounted ∧ pc.Foresees command db' := by
  induction hwork with
  | refl => exact ⟨h, hforesees⟩
  | tail hwork hmove ih =>
      have hsound' := hsound.work (Pc.projections_sound hsound hknown hcommand) hwork
      have hknown' := (hknown.command command hcommand).mono (Work.later hwork)
      exact ⟨ih.1.move ih.2 hfits hcommand hsound' hknown' hmove,
        ih.2.move hfits hcommand hsound' hknown' hmove⟩

/-! ## Runs -/

/-- Neither does the step of the worker make an instance ready that is not
accounted for, nor does it close the start command that an instance that is
ready but not populated still waits for. -/
def Pc.KeepsReady (db : Database) : Pc → Prop
  | .finish r result =>
    r.call = .inspect → result.absent.getD false = false → result.ready = some true →
      lockCommandClaim r.job.command db = true →
      ∀ i ∈ db.instances, i.id = r.job.row.id → i.generation = r.job.command.generation →
        i.active = true → i.desiredState = .running → db.Accounted i
  | .rejectStart job | .expireUnstarted job =>
    lockCommandClaim job.command db = true → ∀ i ∈ db.instances, i.id = job.row.id →
      i.generation = job.command.generation → i.Offered → i.Populated
  | .cancel command =>
    command.kind = .start → lockCommandClaim command db = true →
      ∀ i ∈ db.instances, i.id = command.instanceId → i.generation = command.generation →
        i.Offered → i.Populated
  | _ => True

/-- The step keeps ready instances accounted for:

* no inspection of a ready workload is recorded for a running instance that is
  neither populated nor waiting for its start;
* no extension is asked for an instance that is ready but not populated;
* no start command is rejected, expired or cancelled while its instance is
  ready but not populated. -/
def KeepsReady (s : System) : Label → Prop
  | .extend _ _ _ instanceId _ =>
    ∀ i ∈ s.db.instances, i.id = instanceId → i.Offered → i.Populated
  | .work w _ => (s.workers w).KeepsReady s.db
  | _ => True

/-- A start command is not stale as long as its instance is at its generation. -/
theorem Job.Known.start_current {job : Job} (h : job.Known db) (hsound : db.Sound)
    (hkind : job.command.kind = .start) (hi : i ∈ db.instances)
    (hid : i.id = job.command.instanceId) (hgeneration : i.generation = job.command.generation) :
    job.command.generation = job.row.generation := by
  obtain ⟨i', hi', j, hj, hlater, hrow⟩ := h.row
  have hrowId : j.id = job.row.id := by
    rw [hrow]
    rfl
  have hsame : i' = i := hsound.instance_eq hi' hi (hlater.id.trans
    (hrowId.trans (job.loaded.trans hid.symm)))
  have hrowGeneration : job.row.generation = j.generation := by
    rw [hrow]
    rfl
  have hstart : job.command.generation = 1 := by
    obtain ⟨c, hc, -, -, hckind, hcgeneration⟩ := h.command.columns
    rw [← hcgeneration]
    exact (hsound.commands c hc).start (hckind.trans hkind)
  have hle := hsame ▸ hlater.generation
  have hpos := hj.generation
  omega

/-- The guard is what a worker under its claim foresees. -/
theorem Pc.KeepsReady.foresees {pc : Pc} (hsound : db.Sound) (hfits : pc.Fits)
    (hknown : pc.Known db) (hguard : pc.KeepsReady db) (hcommand : pc.command = some command)
    (hlock : lockCommandClaim command db = true) : pc.Foresees command db := by
  intro i hi hid hgeneration hactive hrunning
  cases pc with
  | finish r result =>
      cases hcommand
      exact fun hcall habsent hready =>
        hguard hcall habsent hready hlock i hi (hid.trans r.job.loaded.symm) hgeneration hactive
          hrunning
  | rejectStart job | expireUnstarted job =>
      cases hcommand
      exact fun _ hready =>
        hguard hlock i hi (hid.trans job.loaded.symm) hgeneration ⟨hactive, hrunning, hready⟩
  | cancel c =>
      cases hcommand
      exact fun hkind hready =>
        hguard hkind hlock i hi hid hgeneration ⟨hactive, hrunning, hready⟩
  | cancelStale job =>
      cases hcommand
      exact fun hkind =>
        hfits ((hknown.of_job rfl).start_current hsound hkind hi hid hgeneration)
  | _ => trivial

instance (i : RuntimeInstance) : Decidable i.Offered :=
  decidable_of_iff (i.active = true ∧ i.desiredState = .running ∧ i.observedState = .ready)
    ⟨fun h => ⟨h.1, h.2.1, h.2.2⟩, fun h => ⟨h.active, h.running, h.ready⟩⟩

instance (i : RuntimeInstance) : Decidable i.Populated :=
  inferInstanceAs (Decidable (_ ∧ _))

instance (db : Database) (i : RuntimeInstance) : Decidable (db.Accounted i) :=
  inferInstanceAs (Decidable (i.Populated ∨ ∃ c ∈ db.commands, c.kind = .start ∧
    c.instanceId = i.id ∧ c.generation = i.generation ∧ c.status.isOpen = true))

instance (db : Database) (pc : Pc) : Decidable (pc.KeepsReady db) := by
  cases pc <;> unfold Pc.KeepsReady
  case finish =>
    refine @instDecidableForall _ _ _ (@instDecidableForall _ _ _ (@instDecidableForall _ _ _ ?_))
    infer_instance
  all_goals infer_instance

instance (s : System) (l : Label) : Decidable (KeepsReady s l) := by
  cases l <;> unfold KeepsReady <;> infer_instance

/-- Every step that keeps ready instances keeps them accounted for. -/
theorem Database.ReadyAccounted.step {config : Config} {s s' : System} {l : Label}
    (h : s.db.ReadyAccounted) (hsound : s.Sound) (hguard : KeepsReady s l)
    (hmoved : Moved config s l s') : s'.db.ReadyAccounted := by
  cases hmoved with
  | request asked ids db' hasked fresh hmove happends =>
      refine h.request hsound.db (fun id hid i hi heq => ?_) (fun i hi hask hoffered => ?_) hmove
      · exact fresh id hid (heq ▸ hsound.drawn.db.instances i hi)
      · obtain ⟨now, id, user, request, rfl⟩ := hasked i.id hask
        exact hguard i hi rfl hoffered
  | claim w now token c idle fresh mem hpending =>
      exact h.updateCommands (RuntimeCommand.claim_sameRequest now token)
        fun _ _ _ _ _ _ _ _ _ _ => rfl
  | work w turn pc db' sent hl fresh hadvance =>
      obtain ⟨command, hcommand⟩ := Pc.command_of_advance hadvance
      rcases advance_work hcommand (hsound.drawn.db.freshCommand fresh) hadvance with
        rfl | ⟨hlock, hwork⟩
      · exact h
      · subst hl
        have hknown := hsound.known w
        have hforesees := Pc.KeepsReady.foresees hsound.db (hsound.fits w) hknown hguard hcommand
          hlock
        exact (h.work hforesees (hsound.fits w) hcommand hsound.db hknown hwork).1
  | _ => exact h

theorem System.reach_readyAccounted {config : Config} {s : System}
    (h : Reach (System.step config) KeepsReady System.Initial s) : s.db.ReadyAccounted := by
  induction h with
  | init hinitial => exact ⟨by simp [hinitial.instances], by simp [hinitial.commands]⟩
  | step l hreach hguard hstep ih =>
      exact ih.step (System.reach_sound hreach) hguard (System.step_moved hstep)

/-- **Ready instances are populated.**  In every run that keeps ready instances
accounted for, an active instance that is desired to run and observed as ready
has a recorded container and a time since which it is ready, or a start command
at its generation is still open. -/
theorem ready_accounted (config : Config) (s : System)
    (h : Reach (System.step config) KeepsReady System.Initial s) (i : RuntimeInstance)
    (hi : i ∈ s.db.instances) (hactive : i.active = true) (hrunning : i.desiredState = .running)
    (hready : i.observedState = .ready) :
    (i.remoteContainerId.isSome = true ∧ i.readyAt.isSome = true) ∨
      ∃ c ∈ s.db.commands, c.kind = .start ∧ c.instanceId = i.id ∧
        c.generation = i.generation ∧ c.status.isOpen = true :=
  (System.reach_readyAccounted h).ready i hi ⟨hactive, hrunning, hready⟩

/-- The reply of the `ensure-instance` request is delivered and recorded. -/
def launchFinished : List Label :=
  launchSent ++ [.deliver 0 (quietEnv 0) false, .work 0 (quietTurn 0 8)]

/-- An instance whose launch succeeds is populated. -/
theorem ready_accounted_launched :
    ∃ s, runIf (System.step ⟨5, 60, 60⟩) KeepsReady launchFinished smallSystem = some s ∧
      ∃ i ∈ s.db.instances, i.observedState = .ready ∧
        ((i.remoteContainerId.isSome = true ∧ i.readyAt.isSome = true) ∨
          ∃ c ∈ s.db.commands, c.kind = .start ∧ c.instanceId = i.id ∧
            c.generation = i.generation ∧ c.status.isOpen = true) := by
  have hrun : (runIf (System.step ⟨5, 60, 60⟩) KeepsReady launchFinished smallSystem).any (fun s =>
      s.db.instances.any fun i => decide i.Offered) = true := by decide +kernel
  obtain ⟨s, hs, hany⟩ := (Option.any_eq_true _ _).mp hrun
  obtain ⟨i, hi, hoffered⟩ := List.any_eq_true.mp hany
  have hoffered' := of_decide_eq_true hoffered
  exact ⟨s, hs, i, hi, hoffered'.ready, ready_accounted ⟨5, 60, 60⟩ s
    (reach_of_runIf launchFinished (.init smallSystem_initial) hs) i hi hoffered'.active
    hoffered'.running hoffered'.ready⟩

/-- The reply of the launch is lost and the start is to be retried; an
inspection that an administrator asks for finds the workload ready; then the
lifetime of the instance is extended. -/
def inspectedFirst : List Label :=
  launchSent ++ [.deliver 0 (quietEnv 0) true, .work 0 (quietTurn 0 9), .work 0 (quietTurn 0 10),
    .reconcile (seconds 1) 11 smallUser 1, .claim 0 (seconds 1) 12 11,
    .work 0 (quietTurn (seconds 1) 13), .work 0 (quietTurn (seconds 1) 14),
    .deliver 0 (quietEnv (seconds 1)) false, .work 0 (quietTurn (seconds 1) 15),
    .extend (seconds 1) 16 smallUser 1 ⟨none, none⟩]

/-- An inspection makes an instance ready that no start will ever populate. -/
theorem ready_unpopulated : ¬ ∀ s, Reach (System.step ⟨5, 60, 60⟩) anyStep System.Initial s →
    ∀ i ∈ s.db.instances, i.active = true → i.desiredState = .running →
      i.observedState = .ready →
        (i.remoteContainerId.isSome = true ∧ i.readyAt.isSome = true) ∨
          ∃ c ∈ s.db.commands, c.kind = .start ∧ c.instanceId = i.id ∧
            c.generation = i.generation ∧ c.status.isOpen = true := by
  intro hall
  have hrun : (run (System.step ⟨5, 60, 60⟩) inspectedFirst smallSystem).any (fun s =>
      s.db.instances.any fun i => decide (i.Offered ∧ ¬ s.db.Accounted i)) = true := by
    decide +kernel
  obtain ⟨s, hs, hany⟩ := (Option.any_eq_true _ _).mp hrun
  obtain ⟨i, hi, hlost⟩ := List.any_eq_true.mp hany
  obtain ⟨hoffered, hunaccounted⟩ := of_decide_eq_true hlost
  exact hunaccounted (hall s (reach_of_run _ smallSystem_initial hs) i hi hoffered.active
    hoffered.running hoffered.ready)

end CtfZone
