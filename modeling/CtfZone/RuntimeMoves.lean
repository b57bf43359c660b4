/-
# What a request can change

The transactions of the API and of the housekeeping as moves of the runtime
tables (`RequestMove`): a launch, an extension, a termination, a queued
inspection, commands that become pending again, or nothing that concerns
instances and commands.  One inversion lemma for each transaction says which
move it makes.
-/
import CtfZone.ControllerTransactions

namespace CtfZone

/-! ## Moves -/

/-- A row as a launch inserts it. -/
structure RuntimeInstance.Launched (i : RuntimeInstance) : Prop where
  active : i.active = true
  desiredState : i.desiredState = .running
  observedState : i.observedState = .requested
  generation : i.generation = 1
  unplaced : i.remoteServerId = none
  unreached : i.observedExpiresAt = none
  extensionCount : i.extensionCount = 0
  expiresAt : i.expiresAt = i.desiredExpiresAt
  maximum : i.desiredExpiresAt ≤ i.maximumExpiresAt

/-- A pending command of a kind at the generation of an instance. -/
structure RuntimeCommand.QueuedFor (i : RuntimeInstance) (kind : CommandKind)
    (c : RuntimeCommand) : Prop where
  instanceId : c.instanceId = i.id
  kind : c.kind = kind
  generation : c.generation = i.generation
  status : c.status = .pending
  claimToken : c.claimToken = none

/-- A command clashes with no row on a unique index. -/
structure Database.Admits (db : Database) (c : RuntimeCommand) : Prop where
  idempotency : ∀ d ∈ db.commands, clash d.idempotency c.idempotency = false
  openKey : ∀ d ∈ db.commands, clash d.openKey c.openKey = false

/-- A granted extension of an instance. -/
structure Extends (commandId : Uuid) (db : Database) (i : RuntimeInstance) (newExpiresAt : Time)
    (c : RuntimeCommand) (db' : Database) : Prop where
  mem : i ∈ db.instances
  active : i.active = true
  running : i.desiredState = .running
  ready : i.observedState = .ready
  count : i.extensionCount < db.maximumExtensions i.challengeId
  later : i.desiredExpiresAt < newExpiresAt
  maximum : newExpiresAt ≤ i.maximumExpiresAt
  queued : c.QueuedFor (i.extended newExpiresAt) .extend
  id : c.id = commandId
  admits : db.Admits c
  instances : db'.instances = Tables.update (·.id = i.id) (·.extended newExpiresAt) db.instances
  commands : db'.commands = db.commands ++ [c]

/-- An instance is to stop, which it either was not before or no open command
says any more; the command that says so is queued behind the change, unless a
unique index refuses it. -/
structure Stops (ids : List Uuid) (db : Database) (i : RuntimeInstance)
    (c : Option RuntimeCommand) (db' : Database) : Prop where
  mem : i ∈ db.instances
  active : i.active = true
  unqueued : i.desiredState = .running ∨ ∀ d ∈ db.commands, d.instanceId = i.id →
    d.kind = .terminate → d.status.isOpen = false
  queued : ∀ d, c = some d → d.QueuedFor i.stopping .terminate ∧ d.id ∈ ids ∧ db.Admits d
  instances : db'.instances = Tables.update (·.id = i.id) (·.stopping) db.instances
  commands : db'.commands = db.commands ++ c.toList

/-- A move of the API or of the housekeeping that draws the UUIDs `ids`; `asked`
are the instances for which an extension is asked. -/
inductive RequestMove (asked : Uuid → Prop) (ids : List Uuid) (db : Database) : Database → Prop
  | frame {db' : Database} (hi : db'.instances = db.instances) (hc : db'.commands = db.commands) :
    RequestMove asked ids db db'
  | launch {db' : Database} (i : RuntimeInstance) (c : RuntimeCommand) (launched : i.Launched)
    (queued : c.QueuedFor i .start) (iid : i.id ∈ ids) (cid : c.id ∈ ids)
    (slot : ∀ j ∈ db.instances, clash j.activeKey i.activeKey = false) (admits : db.Admits c)
    (hi : db'.instances = db.instances ++ [i]) (hc : db'.commands = db.commands ++ [c]) :
    RequestMove asked ids db db'
  | extend {db' : Database} (id : Uuid) (i : RuntimeInstance) (newExpiresAt : Time)
    (c : RuntimeCommand) (cid : id ∈ ids) (hasked : asked i.id)
    (h : Extends id db i newExpiresAt c db') :
    RequestMove asked ids db db'
  | stop {db' : Database} (i : RuntimeInstance) (c : Option RuntimeCommand)
    (h : Stops ids db i c db') : RequestMove asked ids db db'
  | enqueue {db' : Database} (i : RuntimeInstance) (kind : CommandKind) (c : RuntimeCommand)
    (mem : i ∈ db.instances) (hkind : kind = .inspect ∨ kind = .reconcile)
    (queued : c.QueuedFor i kind) (cid : c.id ∈ ids) (admits : db.Admits c)
    (hi : db'.instances = db.instances) (hc : db'.commands = db.commands ++ [c]) :
    RequestMove asked ids db db'
  | release {db' : Database} (p : RuntimeCommand → Bool) (availableAt : Time)
    (claimed : ∀ c, p c = true → c.status = .claimed) (hi : db'.instances = db.instances)
    (hc : db'.commands = Tables.update p (·.release availableAt) db.commands) :
    RequestMove asked ids db db'

variable {asked : Uuid → Prop} {ids : List Uuid} {db db' : Database} {now : Time} {commandId instanceId : Uuid}
  {user : CurrentUser}

theorem RequestMove.same : RequestMove asked ids db db := .frame rfl rfl

theorem RuntimeInstance.command_queuedFor (i : RuntimeInstance) (id : Uuid) (kind : CommandKind)
    (payload : CommandPayload) (requestedBy : Option UserId) (key : Option String) (now : Time) :
    (i.command id kind payload requestedBy key now).QueuedFor i kind :=
  ⟨rfl, rfl, rfl, rfl, rfl⟩

/-- What an insertion of a command says about the tables. -/
theorem Database.insertCommand_admits {c : RuntimeCommand} (h : db.insertCommand c = some db') :
    db.Admits c ∧ db'.instances = db.instances ∧ db'.commands = db.commands ++ [c] := by
  obtain ⟨rfl, hkey, hopen⟩ := Database.insertCommand_eq_some h
  exact ⟨⟨hkey, hopen⟩, rfl, rfl⟩

/-! ## The transactions -/

theorem newInstance_launched (now : Time) (id : Uuid) (user : CurrentUser)
    (config : ChallengeRuntimeConfig) (setting : RuntimeSetting) (flagValue : Option String)
    {ttl : ℤ} (httl : ttl ≤ config.maximumTtlSeconds) :
    (newInstance now id user config setting flagValue ttl).Launched where
  active := rfl
  desiredState := rfl
  observedState := rfl
  generation := rfl
  unplaced := rfl
  unreached := rfl
  extensionCount := rfl
  expiresAt := rfl
  maximum := Int.add_le_add_left (Int.mul_le_mul_of_nonneg_right httl (by decide)) now

theorem insertLaunch_move {i : RuntimeInstance} (hi : i.Launched) (hid : i.id = instanceId)
    (key : Option String) :
    RequestMove asked [instanceId, commandId] db (insertLaunch now commandId user i key db).2 := by
  unfold insertLaunch
  dsimp only
  split
  · exact .same
  · rename_i inserted hinsert
    obtain ⟨rfl, hslot⟩ := Database.insertInstance_eq_some hinsert
    split
    · exact .same
    · rename_i db₁ hcommand
      obtain ⟨hadmits, hinstances, hcommands⟩ := Database.insertCommand_admits hcommand
      refine .launch i _ hi (i.command_queuedFor ..) ?_ ?_ hslot
        ⟨hadmits.idempotency, hadmits.openKey⟩ hinstances hcommands
      · rw [hid]
        exact List.mem_cons_self
      · exact List.mem_cons_of_mem _ List.mem_cons_self

theorem ensureInstance_move (challengeId : ChallengeId) (facts : LaunchFacts)
    (request : EnsureRequest) (db : Database) :
    RequestMove asked [instanceId, commandId] db
      (ensureInstance now instanceId commandId user challengeId facts request db).2 := by
  unfold ensureInstance
  split
  · exact .same
  · rename_i gate _
    dsimp only
    split_ifs with hvisible hgate httl
    · exact .same
    · exact .same
    · exact .same
    · split
      · split <;> exact .same
      · have httl : request.ttlSeconds.getD gate.defaultTtlSeconds ≤ gate.maximumTtlSeconds := by
          omega
        exact insertLaunch_move (newInstance_launched now instanceId user gate db.setting
          facts.flagValue httl) rfl _

/-- The end of `extend_instance` grants the extension, unless a unique index
refuses the command. -/
theorem grantExtension_cases {i : RuntimeInstance} {newExpiresAt : Time}
    (hmem : i ∈ db.instances)
    (hstate : i.active = true ∧ i.desiredState = .running ∧ i.observedState = .ready)
    (hcount : i.extensionCount < db.maximumExtensions i.challengeId)
    (hlater : i.desiredExpiresAt < newExpiresAt) (hmax : newExpiresAt ≤ i.maximumExpiresAt)
    (key : Option String) :
    (grantExtension now commandId user i newExpiresAt key db).1 ≠ .accepted ∧
        (grantExtension now commandId user i newExpiresAt key db).2 = db ∨
      (grantExtension now commandId user i newExpiresAt key db).1 = .accepted ∧
        ∃ c, c.requestedByUserId = some user.id ∧ c.idempotencyKey = key ∧
          Extends commandId db i newExpiresAt c
            (grantExtension now commandId user i newExpiresAt key db).2 := by
  unfold grantExtension
  dsimp only
  split
  · refine .inl ⟨?_, rfl⟩
    unfold refusedCommand
    split <;> simp
  · rename_i db₁ hinsert
    obtain ⟨hadmits, hinstances, hcommands⟩ := Database.insertCommand_admits hinsert
    refine .inr ⟨rfl, (i.extended newExpiresAt).command commandId .extend
      (.extension newExpiresAt) (some user.id) key now, rfl, rfl, ?_⟩
    exact {
      mem := hmem
      active := hstate.1
      running := hstate.2.1
      ready := hstate.2.2
      count := hcount
      later := hlater
      maximum := hmax
      queued := RuntimeInstance.command_queuedFor ..
      id := rfl
      admits := ⟨hadmits.idempotency, hadmits.openKey⟩
      instances := hinstances
      commands := hcommands }

/-- `extend_instance` grants an extension, or changes nothing. -/
theorem extendInstance_cases (now : Time) (commandId : Uuid) (user : CurrentUser)
    (instanceId : Uuid) (request : ExtendRequest) (db : Database) :
    (extendInstance now commandId user instanceId request db).1 ≠ .accepted ∧
        (extendInstance now commandId user instanceId request db).2 = db ∨
      (extendInstance now commandId user instanceId request db).1 = .accepted ∧
        ∃ i newExpiresAt c, i.id = instanceId ∧ c.requestedByUserId = some user.id ∧
          c.idempotencyKey = request.idempotencyKey ∧ Extends commandId db i newExpiresAt c
            (extendInstance now commandId user instanceId request db).2 := by
  unfold extendInstance
  split
  · exact .inl ⟨nofun, rfl⟩
  · rename_i row hrow
    obtain ⟨hmem, hid⟩ := Database.findInstance_eq_some hrow
    dsimp only
    split
    · exact .inl ⟨nofun, rfl⟩
    · split
      · split <;> exact .inl ⟨nofun, rfl⟩
      · split_ifs with hstate hcount hadditional hlater
        · exact .inl ⟨nofun, rfl⟩
        · exact .inl ⟨nofun, rfl⟩
        · exact .inl ⟨nofun, rfl⟩
        · exact .inl ⟨nofun, rfl⟩
        · simp only [Bool.or_eq_true, Bool.not_eq_true', decide_eq_true_eq, not_or,
            Bool.not_eq_false, ne_eq, not_not] at hstate hcount
          rcases grantExtension_cases hmem
              ⟨hstate.1.1.1, hstate.1.1.2, hstate.1.2⟩ (Int.not_le.mp hcount.2)
              (Int.not_le.mp hlater) (Int.min_le_right _ _) request.idempotencyKey with
            hrefused | ⟨haccepted, c, hc⟩
          · exact .inl hrefused
          · exact .inr ⟨haccepted, row, _, c, hid, hc⟩

theorem extendInstance_move (now : Time) (commandId : Uuid) (user : CurrentUser)
    (instanceId : Uuid) (request : ExtendRequest) (db : Database) :
    RequestMove (· = instanceId) [commandId] db
      (extendInstance now commandId user instanceId request db).2 := by
  rcases extendInstance_cases now commandId user instanceId request db with
    ⟨-, hsame⟩ | ⟨-, i, newExpiresAt, c, hid, -, -, h⟩
  · rw [hsame]
    exact .same
  · exact .extend commandId i newExpiresAt c List.mem_cons_self hid h

/-- A termination command queued behind the change of its instance. -/
theorem stops_of_insert {i : RuntimeInstance} (hmem : i ∈ db.instances)
    (hactive : i.active = true)
    (hunqueued : i.desiredState = .running ∨ ∀ d ∈ db.commands, d.instanceId = i.id →
      d.kind = .terminate → d.status.isOpen = false)
    {payload : CommandPayload} {requestedBy : Option UserId}
    (h : (db.updateInstances (·.id = i.id) (·.stopping)).insertCommand
      (i.stopping.command commandId .terminate payload requestedBy none now) = some db')
    (e : RuntimeEvent) : ∃ c, Stops [commandId] db i c (db'.appendEvent e) := by
  obtain ⟨hadmits, hinstances, hcommands⟩ := Database.insertCommand_admits h
  refine ⟨some _, hmem, hactive, hunqueued, fun c hc => ?_, hinstances, hcommands⟩
  cases hc
  exact ⟨RuntimeInstance.command_queuedFor .., List.mem_cons_self,
    ⟨hadmits.idempotency, hadmits.openKey⟩⟩

theorem requestTermination_move (db : Database) :
    RequestMove asked [commandId] db (requestTermination now commandId user instanceId db).2 := by
  unfold requestTermination
  split
  · exact .same
  · rename_i i hi
    split_ifs with howner hdone
    · exact .same
    · exact .same
    · dsimp only
      split
      · exact .same
      · rename_i db₁ hinsert
        simp only [Bool.or_eq_true, Bool.not_eq_true', decide_eq_true_eq, not_or,
          Bool.not_eq_false] at hdone
        have hrunning : i.desiredState = .running := by
          cases hdesired : i.desiredState with
          | running => rfl
          | stopped => exact absurd hdesired hdone.2
        obtain ⟨c, hstops⟩ :=
          stops_of_insert (Database.findInstance_eq_some hi).1 hdone.1 (.inl hrunning) hinsert _
        exact .stop i c hstops

/-- `create_termination_command_in_transaction` stops an instance, or changes
nothing. -/
theorem createTermination_cases (now : Time) (commandId instanceId : Uuid)
    (reason : TerminationReason) (db : Database) :
    createTermination now commandId instanceId reason db = db ∨
      ∃ i c, i.id = instanceId ∧
        Stops [commandId] db i c (createTermination now commandId instanceId reason db) := by
  unfold createTermination
  split
  · exact .inl rfl
  · rename_i i hi
    obtain ⟨hmem, rfl⟩ := Database.findInstance_eq_some hi
    dsimp only
    split_ifs with hdone
    · exact .inl rfl
    · right
      simp only [Bool.or_eq_true, Bool.not_eq_true', not_or, Bool.not_eq_false,
        Bool.not_eq_true, List.any_eq_false, Bool.and_eq_true, decide_eq_true_eq, not_and] at hdone
      obtain ⟨hactive, hnone⟩ := hdone
      have hunqueued : ∀ d ∈ db.commands, d.instanceId = i.id → d.kind = .terminate →
          d.status.isOpen = false := fun d hd hinstance hkind =>
            hnone d hd ⟨hinstance, hkind⟩
      split
      · exact ⟨i, none, rfl, hmem, hactive, .inr hunqueued, fun _ hnone => (by cases hnone), rfl,
          (List.append_nil _).symm⟩
      · rename_i db₁ hinsert
        obtain ⟨c, hstops⟩ := stops_of_insert hmem hactive (.inr hunqueued) hinsert _
        exact ⟨i, c, rfl, hstops⟩

theorem createTermination_move (reason : TerminationReason) (db : Database) :
    RequestMove (fun _ => False) [commandId] db
      (createTermination now commandId instanceId reason db) := by
  rcases createTermination_cases now commandId instanceId reason db with
    hsame | ⟨i, c, -, hstops⟩
  · rw [hsame]
    exact .same
  · exact .stop i c hstops

theorem reconcileInstance_move (db : Database) :
    RequestMove asked [commandId] db (reconcileInstance now commandId user instanceId db).2 := by
  unfold reconcileInstance
  split
  · exact .same
  · split
    · exact .same
    · rename_i i hi
      split
      · exact .same
      · dsimp only
        split
        · exact .same
        · rename_i db₁ hinsert
          obtain ⟨hadmits, hinstances, hcommands⟩ := Database.insertCommand_admits hinsert
          exact .enqueue i .reconcile _ (Database.findInstance_eq_some hi).1 (.inr rfl)
            (i.command_queuedFor ..) List.mem_cons_self hadmits hinstances hcommands

theorem enqueueInspection_move (minimumAge : Option ℕ) (db : Database) :
    RequestMove asked [commandId] db (enqueueInspection now minimumAge commandId instanceId db) := by
  unfold enqueueInspection
  split
  · exact .same
  · rename_i i hi
    split
    · cases hinsert : db.insertCommand (i.command commandId .inspect .empty none none now) with
      | none => exact .same
      | some db₁ =>
          obtain ⟨hadmits, hinstances, hcommands⟩ := Database.insertCommand_admits hinsert
          exact .enqueue i .inspect _ (Database.findInstance_eq_some hi).1 (.inl rfl)
            (i.command_queuedFor ..) List.mem_cons_self hadmits hinstances hcommands
    · exact .same

theorem updatePrivateChallengesSetting_move (enabled : Bool) (db : Database) :
    RequestMove asked [] db (updatePrivateChallengesSetting user enabled db).2 := by
  unfold updatePrivateChallengesSetting
  split <;> exact .frame rfl rfl

theorem putChallengeRuntime_move (config : ChallengeRuntimeConfig) (db : Database) :
    RequestMove asked [] db (putChallengeRuntime user config db).2 := by
  unfold putChallengeRuntime
  split_ifs
  · exact .same
  · exact .same
  · split <;> exact .frame rfl rfl

theorem recoverStaleClaims_move (config : Config) (now : Time) (db : Database) :
    RequestMove asked [] db (recoverStaleClaims config now db) := by
  have hclaimed (c : RuntimeCommand)
      (hc : (c.status = .claimed &&
        c.claimedAt.any (· < now - seconds config.staleClaimAfter)) = true) :
      c.status = .claimed := by
    rw [Bool.and_eq_true, decide_eq_true_eq] at hc
    exact hc.1
  exact .release _ now hclaimed rfl rfl

theorem recoverAllClaims_move (now : Time) (db : Database) :
    RequestMove asked [] db (recoverAllClaims now db) :=
  .release _ now (fun c hc => by simpa using hc) rfl rfl

/-! ## Events of a request -/

/-- A request appends events of the API; the housekeeping appends one when it
requests a termination. -/
def Appends (db db' : Database) : Prop :=
  ∃ new, db'.events = db.events ++ new ∧
    ∀ e ∈ new, e.source = .api ∨ e.eventType = .terminationRequested

theorem Appends.same (h : db'.events = db.events) : Appends db db' :=
  ⟨[], by rw [h, List.append_nil], by simp⟩

theorem Appends.event {e : RuntimeEvent} (h : db'.events = db.events ++ [e])
    (he : e.source = .api ∨ e.eventType = .terminationRequested) : Appends db db' :=
  ⟨[e], h, fun e' h' => by rwa [List.mem_singleton.mp h']⟩

theorem Database.insertCommand_events {c : RuntimeCommand} (h : db.insertCommand c = some db') :
    db'.events = db.events := by
  obtain ⟨rfl, -⟩ := Database.insertCommand_eq_some h
  rfl

/-- An event behind a queued command. -/
theorem Appends.queued {db₀ : Database} {c : RuntimeCommand} {e : RuntimeEvent}
    (h : db₀.insertCommand c = some db') (h₀ : db₀.events = db.events)
    (he : e.source = .api ∨ e.eventType = .terminationRequested) :
    Appends db (db'.appendEvent e) :=
  .event (congrArg (· ++ [e]) ((Database.insertCommand_events h).trans h₀)) he

theorem insertLaunch_appends (i : RuntimeInstance) (key : Option String) (db : Database) :
    Appends db (insertLaunch now commandId user i key db).2 := by
  unfold insertLaunch
  dsimp only
  split
  · exact .same rfl
  · rename_i inserted hinsert
    obtain ⟨rfl, -⟩ := Database.insertInstance_eq_some hinsert
    split
    · exact .same rfl
    · rename_i db₁ hcommand
      exact .event (Database.insertCommand_events hcommand) (.inl rfl)

theorem ensureInstance_appends (challengeId : ChallengeId) (facts : LaunchFacts)
    (request : EnsureRequest) (db : Database) :
    Appends db
      (ensureInstance now instanceId commandId user challengeId facts request db).2 := by
  unfold ensureInstance
  split
  · exact .same rfl
  · dsimp only
    split_ifs
    · exact .same rfl
    · exact .same rfl
    · exact .same rfl
    · split
      · split <;> exact .same rfl
      · exact insertLaunch_appends ..

theorem grantExtension_appends (i : RuntimeInstance) (newExpiresAt : Time) (key : Option String)
    (db : Database) : Appends db (grantExtension now commandId user i newExpiresAt key db).2 := by
  unfold grantExtension
  dsimp only
  split
  · exact .same rfl
  · rename_i db₁ hinsert
    exact .queued hinsert rfl (.inl rfl)

theorem extendInstance_appends (request : ExtendRequest) (db : Database) :
    Appends db (extendInstance now commandId user instanceId request db).2 := by
  unfold extendInstance
  split
  · exact .same rfl
  · dsimp only
    split
    · exact .same rfl
    · split
      · split <;> exact .same rfl
      · split_ifs
        all_goals first
          | exact .same rfl
          | exact grantExtension_appends ..

theorem requestTermination_appends (db : Database) :
    Appends db (requestTermination now commandId user instanceId db).2 := by
  unfold requestTermination
  split
  · exact .same rfl
  · split_ifs
    · exact .same rfl
    · exact .same rfl
    · dsimp only
      split
      · exact .same rfl
      · rename_i db₁ hinsert
        exact .queued hinsert rfl (.inl rfl)

theorem createTermination_appends (reason : TerminationReason) (db : Database) :
    Appends db (createTermination now commandId instanceId reason db) := by
  unfold createTermination
  split
  · exact .same rfl
  · dsimp only
    split_ifs
    · exact .same rfl
    · split
      · exact .same rfl
      · rename_i db₁ hinsert
        exact .queued hinsert rfl (.inr rfl)

theorem reconcileInstance_appends (db : Database) :
    Appends db (reconcileInstance now commandId user instanceId db).2 := by
  unfold reconcileInstance
  split
  · exact .same rfl
  · split
    · exact .same rfl
    · split
      · exact .same rfl
      · dsimp only
        split
        · exact .same rfl
        · rename_i db₁ hinsert
          exact .queued hinsert rfl (.inl rfl)

theorem enqueueInspection_appends (minimumAge : Option ℕ) (db : Database) :
    Appends db (enqueueInspection now minimumAge commandId instanceId db) := by
  unfold enqueueInspection
  split
  · exact .same rfl
  · rename_i i _
    split
    · cases hinsert : db.insertCommand (i.command commandId .inspect .empty none none now) with
      | none => exact .same rfl
      | some db₁ => exact .same (Database.insertCommand_events hinsert)
    · exact .same rfl

theorem updatePrivateChallengesSetting_appends (enabled : Bool) (db : Database) :
    Appends db (updatePrivateChallengesSetting user enabled db).2 := by
  unfold updatePrivateChallengesSetting
  split <;> exact .same rfl

theorem putChallengeRuntime_appends (config : ChallengeRuntimeConfig) (db : Database) :
    Appends db (putChallengeRuntime user config db).2 := by
  unfold putChallengeRuntime
  split_ifs
  · exact .same rfl
  · exact .same rfl
  · split <;> exact .same rfl

end CtfZone
