/-
# What a transaction of the controller can change

Every transaction that works on a claimed command is a chain of elementary
moves (`WorkMove`): an event, a change of the command's own row, a projection of
its instance, or a termination command for its instance.  `Pc.scope` lists the
projections a worker can make where it stands, and what the tables say when it
closes its command there; `advance_work` says that a step changes the tables
only under the claim on the command and by such a chain.
-/
import CtfZone.ControllerWorker
import Mathlib.Logic.Relation

open Relation

namespace CtfZone

/-! ## Moves -/

/-- No command carries the identifier. -/
def Database.FreshCommand (id : Uuid) (db : Database) : Prop := ∀ c ∈ db.commands, c.id ≠ id

/-- A property of the instance with an identifier while it is at a generation. -/
def Database.Row (db : Database) (id : Uuid) (generation : ℤ) (P : RuntimeInstance → Prop) :
    Prop :=
  ∀ i ∈ db.instances, i.id = id → i.generation = generation → P i

/-- What a worker may do to its instance and its command: the projections it can
make, and the tables in which it closes the command with a status. -/
structure Scope where
  projects : Projection → Prop
  closes : CommandStatus → Database → Prop

/-- An elementary change a worker makes for the command it has claimed;
`cleanupId` is the identifier of a command it may queue. -/
inductive WorkMove (command : CommandRow) (scope : Scope) (cleanupId : Uuid) :
    Database → Database → Prop
  | event (db : Database) (e : EventType) :
    WorkMove command scope cleanupId db (db.controllerEvent command.instanceId e command.id)
  | close (db : Database) (status : CommandStatus) (now : Time) (hclosed : status.isOpen = false)
    (h : scope.closes status db) :
    WorkMove command scope cleanupId db (db.updateCommands command.holds (·.close status now))
  | release (db : Database) (availableAt : Time) :
    WorkMove command scope cleanupId db (db.updateCommands command.holds (·.release availableAt))
  | project (db : Database) (now : Time) (p : Projection) (hp : scope.projects p)
    (hheld : lockCommandClaim command db = true) :
    WorkMove command scope cleanupId db (db.project now command.instanceId command.generation p)
  | terminate (db : Database) (now : Time) (reason : TerminationReason)
    (hid : db.FreshCommand cleanupId) :
    WorkMove command scope cleanupId db (createTermination now cleanupId command.instanceId reason db)

/-- A chain of moves. -/
abbrev Work (command : CommandRow) (scope : Scope) (cleanupId : Uuid) :
    Database → Database → Prop :=
  ReflTransGen (WorkMove command scope cleanupId)

/-- The tables change under the claim on a command, by moves for it, or not at
all. -/
abbrev UnderClaim (command : CommandRow) (scope : Scope) (cleanupId : Uuid)
    (db db' : Database) : Prop :=
  db' = db ∨ lockCommandClaim command db = true ∧ Work command scope cleanupId db db'

/-- The projections a worker can make with a reply. -/
def RemoteRequest.projections (r : RemoteRequest) (result : RemoteResult) (p : Projection) : Prop :=
  match r.call with
  | .start => ∃ effective, effective ≤ r.job.row.maximumExpiresAt ∧
      p = .started r.server effective result
  | .cleanup => False
  | .terminate => ∃ expired, p = .terminated expired
  | .extend => ∃ effective, effective ≤ r.job.row.maximumExpiresAt ∧ p = .extended effective
  | .inspect =>
    result.absent.getD false = true ∧ (∃ expired, p = .missing expired) ∨
      result.absent.getD false = false ∧
        (result.ready ≠ some true ∧ p = .notReady ∨ result.ready = some true ∧ p = .reconciled)

/-- The projections a worker can make where it stands. -/
def Pc.projections : Pc → Projection → Prop
  | .place job, p => ∃ server, p = .starting server ∧
      ∀ placed, job.row.remoteServerId = some placed → server = placed
  | .rejectStart _, p => p = .rejected
  | .expireUnstarted _, p => p = .expiredUnstarted
  | .markStopping _, p => p = .stopping
  | .finishTermination _, p => ∃ expired, p = .terminated expired
  | .finish r result, p => r.projections result p
  | .retry command, p => p = .commandFailed (failedState command.kind)
  | _, _ => False

/-- What the tables say of the instance when a reply completes the command. -/
def RemoteRequest.closings (r : RemoteRequest) (result : RemoteResult) (db : Database) : Prop :=
  match r.call with
  | .start => db.Row r.job.row.id r.job.command.generation fun i =>
      i.remoteContainerId = result.containerId ∧ i.readyAt.isSome = true
  | .cleanup => False
  | .terminate => db.Row r.job.row.id r.job.command.generation fun i => i.active = false
  | _ => True

/-- What the tables say of the instance when a worker closes its command. -/
def Pc.closings : Pc → CommandStatus → Database → Prop
  | .cancelStale _, status, _ | .cancel _, status, _ | .rejectStart _, status, _
  | .expireUnstarted _, status, _ => status = .cancelled
  | .complete _, status, _ => status = .completed
  | .finishTermination job, status, db => status = .completed ∧
      db.Row job.row.id job.command.generation fun i => i.active = false
  | .finish r result, status, db => status = .completed ∧ r.closings result db
  | .retry command, status, db => status = .failed ∧
      db.Row command.instanceId command.generation fun i =>
        i.active = true → i.observedState = failedState command.kind
  | _, _, _ => False

/-- What a worker may do where it stands. -/
def Pc.scope (pc : Pc) : Scope := ⟨pc.projections, pc.closings⟩

theorem RemoteRequest.projects {r : RemoteRequest} {result : RemoteResult} {p : Projection}
    (h : r.projections result p) : (Pc.finish r result).scope.projects p := h

theorem RemoteRequest.closes {r : RemoteRequest} {result : RemoteResult} {db : Database}
    (h : r.closings result db) : (Pc.finish r result).scope.closes .completed db := ⟨rfl, h⟩

variable {command : CommandRow} {scope : Scope} {db db' : Database} {job : Job}
  {now : Time} {b : Bool} {p : Projection} {cleanupId : Uuid}

theorem Database.FreshCommand.update {id : Uuid} (h : db.FreshCommand id)
    {q : RuntimeCommand → Bool} {g : RuntimeCommand → RuntimeCommand} (hg : ∀ c, (g c).id = c.id) :
    (db.updateCommands q g).FreshCommand id :=
  Tables.forall_update h fun c _ _ hc => by rwa [hg]

/-! ## Inversion of the transactions -/

theorem markCommand_eq_some {status : CommandStatus}
    (h : markCommand status now command db = some db') :
    db' = db.updateCommands command.holds (·.close status now) := by
  unfold markCommand at h
  split at h
  · exact (Option.some.inj h).symm
  · cases h

theorem projectOrSkip_eq_some {rest : Database → Option Database}
    (h : projectOrSkip now job p rest db = some (b, db')) :
    b = false ∧ db' = db ∧
        db.instances.any (p.hits job.row.id job.command.generation) = false ∨
      b = true ∧ db.instances.any (p.hits job.row.id job.command.generation) = true ∧
        rest (db.project now job.row.id job.command.generation p) = some db' := by
  unfold projectOrSkip at h
  split at h
  · rename_i hhit
    obtain ⟨db₁, hrest, heq⟩ := Option.map_eq_some_iff.mp h
    cases heq
    exact .inr ⟨rfl, hhit, hrest⟩
  · rename_i hmiss
    cases h
    exact .inl ⟨rfl, rfl, by simpa using hmiss⟩

theorem projectUnderClaim_eq_some {rest : Database → Option Database}
    (h : projectUnderClaim now job p rest db = some (b, db')) :
    b = false ∧ db' = db ∧ (lockCommandClaim job.command db = false ∨
        db.instances.any (p.hits job.row.id job.command.generation) = false) ∨
      b = true ∧ lockCommandClaim job.command db = true ∧
        db.instances.any (p.hits job.row.id job.command.generation) = true ∧
        rest (db.project now job.row.id job.command.generation p) = some db' := by
  unfold projectUnderClaim at h
  split at h
  · rename_i hlock
    rcases projectOrSkip_eq_some h with ⟨hb, hdb, hmiss⟩ | ⟨hb, hhit, hrest⟩
    · exact .inl ⟨hb, hdb, .inr hmiss⟩
    · exact .inr ⟨hb, hlock, hhit, hrest⟩
  · rename_i hlock
    cases h
    exact .inl ⟨rfl, rfl, .inl (by simpa using hlock)⟩

/-- What a worker sees of a transaction is what it did, or an error. -/
theorem TxFault.run_cases {α : Type} (fault : TxFault) (tx : Option (α × Database))
    (db : Database) :
    (fault.run tx db).1 = Option.none ∧ (fault.run tx db).2 = db ∨
      ∃ a, tx = some (a, (fault.run tx db).2) ∧
        ((fault.run tx db).1 = Option.none ∨ (fault.run tx db).1 = some a) := by
  rcases tx with _ | ⟨a, db'⟩
  · cases fault <;> exact .inl ⟨rfl, rfl⟩
  · cases fault with
    | none => exact .inr ⟨a, rfl, .inr rfl⟩
    | beforeCommit => exact .inl ⟨rfl, rfl⟩
    | afterCommit => exact .inr ⟨a, rfl, .inl rfl⟩

/-! ## Transactions as chains of moves -/

theorem work_event (job : Job) (e : EventType) (db : Database) :
    WorkMove job.command scope cleanupId db (job.event e db) := by
  unfold Job.event
  rw [job.loaded]
  exact .event db e

theorem work_markCommand {status : CommandStatus} (hs : status.isOpen = false)
    (hclose : scope.closes status db) (h : markCommand status now command db = some db') :
    WorkMove command scope cleanupId db db' := by
  rw [markCommand_eq_some h]
  exact .close db status now hs hclose

theorem work_project (job : Job) (hp : scope.projects p) (hheld : lockCommandClaim job.command db = true) :
    WorkMove job.command scope cleanupId db (db.project now job.row.id job.command.generation p) := by
  rw [job.loaded]
  exact .project db now p hp hheld

theorem work_complete {e : EventType} (hclose : scope.closes .completed (job.event e db))
    (h : job.complete now e db = some db') : Work job.command scope cleanupId db db' :=
  (ReflTransGen.single (work_event job e db)).tail (work_markCommand rfl hclose h)

/-- What a projection leaves behind in its row. -/
theorem Database.row_project {P : RuntimeInstance → Prop} {id : Uuid} {generation : ℤ}
    (hset : ∀ i, p.admits i = true → P (p.set now generation i))
    (hmiss : ∀ i, p.admits i = false → P i) (db : Database) :
    (db.project now id generation p).Row id generation P := by
  intro i hi hid hgeneration
  obtain ⟨i₀, -, ⟨hhit, rfl⟩ | ⟨hmissed, rfl⟩⟩ := Tables.mem_update.mp hi
  · simp only [Projection.hits, Bool.and_eq_true] at hhit
    exact hset i₀ hhit.2
  · simp only [Projection.hits, hid, hgeneration, decide_true, Bool.true_and] at hmissed
    exact hmiss i₀ hmissed

/-- A transaction under the claim does nothing, or is a chain of moves that
starts with its projection. -/
theorem work_projectUnderClaim {rest : Database → Option Database} (hp : scope.projects p)
    (hrest : ∀ {db₁ db₂}, db₁ = db.project now job.row.id job.command.generation p →
      rest db₁ = some db₂ → Work job.command scope cleanupId db₁ db₂)
    (h : projectUnderClaim now job p rest db = some (b, db')) :
    UnderClaim job.command scope cleanupId db db' := by
  rcases projectUnderClaim_eq_some h with ⟨-, hdb, -⟩ | ⟨-, hlock, -, hdone⟩
  · exact .inl hdb
  · exact .inr ⟨hlock, .head (work_project job hp hlock) (hrest rfl hdone)⟩

theorem work_projectOrSkip {rest : Database → Option Database} (hp : scope.projects p)
    (hlock : lockCommandClaim job.command db = true)
    (hrest : ∀ {db₁ db₂}, db₁ = db.project now job.row.id job.command.generation p →
      rest db₁ = some db₂ → Work job.command scope cleanupId db₁ db₂)
    (h : projectOrSkip now job p rest db = some (b, db')) :
    UnderClaim job.command scope cleanupId db db' := by
  rcases projectOrSkip_eq_some h with ⟨-, hdb, -⟩ | ⟨-, -, hdone⟩
  · exact .inl hdb
  · exact .inr ⟨hlock, .head (work_project job hp hlock) (hrest rfl hdone)⟩

/-- An update of the command's own row does nothing without the claim. -/
theorem updateCommands_of_lost (h : lockCommandClaim command db = false)
    (g : RuntimeCommand → RuntimeCommand) : db.updateCommands command.holds g = db := by
  have hnone : ∀ c ∈ db.commands, command.holds c = false := by
    simpa [lockCommandClaim] using h
  unfold Database.updateCommands
  rw [Tables.update_of_none hnone]

theorem work_updateCommands {g : RuntimeCommand → RuntimeCommand}
    (hmove : WorkMove command scope cleanupId db (db.updateCommands command.holds g)) :
    UnderClaim command scope cleanupId db (db.updateCommands command.holds g) := by
  cases hlock : lockCommandClaim command db with
  | false => exact .inl (updateCommands_of_lost hlock g)
  | true => exact .inr ⟨hlock, .single hmove⟩

theorem work_abandonStart {e : EventType} (hp : scope.projects p)
    (hclose : ∀ db, scope.closes .cancelled db) (h : abandonStart now job p e db = some db') :
    UnderClaim job.command scope cleanupId db db' := by
  unfold abandonStart at h
  split at h
  · rename_i hlock
    refine .inr ⟨hlock, ?_⟩
    split at h
    · exact ((ReflTransGen.single (work_project job hp hlock)).tail (work_event job e _)).tail
        (work_markCommand rfl (hclose _) h)
    · exact .single (work_markCommand rfl (hclose _) h)
  · exact .inl (Option.some.inj h).symm

theorem work_cancelStaleCommand (hclose : scope.closes .cancelled db)
    (h : cancelStaleCommand now job db = some db') :
    UnderClaim job.command scope cleanupId db db' := by
  unfold cancelStaleCommand at h
  split at h
  · rename_i hlock
    obtain ⟨db₁, hmark, rfl⟩ := Option.map_eq_some_iff.mp h
    exact .inr ⟨hlock, (ReflTransGen.single (work_markCommand rfl hclose hmark)).tail
      (work_event job _ db₁)⟩
  · exact .inl (Option.some.inj h).symm

theorem work_scheduleRetry {config : Config} (hid : db.FreshCommand cleanupId)
    (hp : scope.projects (.commandFailed (failedState command.kind)))
    (hclose : ∀ db : Database, db.Row command.instanceId command.generation
      (fun i => i.active = true → i.observedState = failedState command.kind) →
      scope.closes .failed db) :
    UnderClaim command scope cleanupId db (scheduleRetry config now cleanupId command db) := by
  have hset : (db.project now command.instanceId command.generation
      (.commandFailed (failedState command.kind))).Row command.instanceId command.generation
      fun i => i.active = true → i.observedState = failedState command.kind := by
    refine db.row_project (fun i _ _ => rfl) fun i hmiss hactive => ?_
    cases hactive.symm.trans hmiss
  unfold scheduleRetry
  split
  · split
    · rename_i hlock
      refine .inr ⟨hlock, ?_⟩
      dsimp only
      split
      · -- the two updates commute, so that the row is projected under the claim
        have hfailed : Work command scope cleanupId db _ :=
          ((ReflTransGen.single (.project db now _ hp hlock)).tail
            (.close _ .failed now rfl (hclose _ hset))).tail (.event _ .failed)
        split
        · exact hfailed.tail (.terminate _ now .startCommandFailed (hid.update fun _ => rfl))
        · exact hfailed
      · rename_i hmiss
        refine .single (.close db .failed now rfl (hclose db fun i hi hrow hgeneration hactive => ?_))
        refine absurd (List.any_eq_true.mpr ⟨i, hi, ?_⟩) hmiss
        simp [Projection.hits, Projection.admits, hrow, hgeneration, hactive]
    · exact .inl rfl
  · exact work_updateCommands (.release db _)

/-! ## Steps of a worker -/

theorem work_finishInspection {r : RemoteRequest} {result : RemoteResult}
    (hid : db.FreshCommand cleanupId) (hcall : r.call = .inspect)
    (h : finishInspection now cleanupId r.job result db = some (b, db')) :
    UnderClaim r.job.command (Pc.finish r result).scope cleanupId db db' := by
  have hclose (db : Database) : (Pc.finish r result).scope.closes .completed db := by
    refine RemoteRequest.closes ?_
    rw [RemoteRequest.closings, hcall]
    trivial
  unfold finishInspection at h
  split at h
  · rename_i habsent
    refine work_projectUnderClaim (RemoteRequest.projects ?_)
      (fun _ => work_complete (hclose _)) h
    rw [RemoteRequest.projections, hcall]
    exact .inl ⟨habsent, _, rfl⟩
  · rename_i habsent
    rw [Bool.not_eq_true] at habsent
    split at h
    · rename_i hready
      refine work_projectUnderClaim (RemoteRequest.projects ?_) (fun {db₁ _} hdb hmark => ?_) h
      · rw [RemoteRequest.projections, hcall]
        exact .inr ⟨habsent, .inl ⟨hready, rfl⟩⟩
      · have hterminate : WorkMove r.job.command (Pc.finish r result).scope cleanupId
            (r.job.event .failed db₁) (createTermination now cleanupId r.job.command.instanceId
              .remoteWorkloadNotReady (r.job.event .failed db₁)) :=
          .terminate _ now _ (by subst hdb; exact hid)
        rw [← r.job.loaded] at hterminate
        exact ((ReflTransGen.single (work_event r.job .failed db₁)).tail hterminate).tail
          (work_markCommand rfl (hclose _) hmark)
    · rename_i hready
      refine work_projectUnderClaim (RemoteRequest.projects ?_)
        (fun _ => work_complete (hclose _)) h
      rw [RemoteRequest.projections, hcall]
      exact .inr ⟨habsent, .inr ⟨by simpa using hready, rfl⟩⟩

/-- What `select_and_mark_starting` returns: a server, once it has marked the
instance. -/
theorem selectAndMarkStarting_eq_some {choice server : Option Uuid}
    (h : selectAndMarkStarting now job choice db = some (server, db')) :
    server = none ∧ db' = db ∨ ∃ placed b, lockCommandClaim job.command db = true ∧
      projectOrSkip now job (.starting placed) (fun db => some (job.event .starting db)) db =
        some (b, db') ∧ server = if b then some placed else none := by
  unfold selectAndMarkStarting at h
  split at h
  · rename_i hlock
    split at h
    · cases h
    · rename_i chosen _
      obtain ⟨⟨b, db₁⟩, htx, heq⟩ := Option.map_eq_some_iff.mp h
      cases heq
      exact .inr ⟨chosen.id, b, hlock, htx, rfl⟩
  · cases h
    exact .inl ⟨rfl, rfl⟩

theorem work_finishTermination (hp : ∀ expired, scope.projects (.terminated expired))
    (hclose : ∀ db : Database,
      (db.Row job.row.id job.command.generation fun i => i.active = false) →
      scope.closes .completed db)
    (h : finishTermination now job db = some (b, db')) :
    UnderClaim job.command scope cleanupId db db' := by
  refine work_projectUnderClaim (hp _) (fun hdb hdone => ?_) h
  refine .head (work_event job _ _) (work_complete (hclose _ ?_) hdone)
  rw [hdb]
  exact db.row_project (fun i _ => rfl) fun i hmiss => hmiss

/-- A step that runs a transaction changes the tables as the transaction does. -/
theorem transact_cases {α : Type} {turn : Turn} {tx : Option (α × Database)}
    {next : Option α → Pc} {pc : Pc} {sent : Option RemoteRequest}
    (h : turn.transact tx next db = (pc, db', sent)) :
    sent = none ∧ ((db' = db ∧ pc = next none) ∨
      ∃ a, tx = some (a, db') ∧ (pc = next none ∨ pc = next (some a))) := by
  unfold Turn.transact at h
  cases h
  refine ⟨rfl, ?_⟩
  rcases turn.fault.run_cases tx db with ⟨hseen, hdb⟩ | ⟨a, htx, hseen⟩
  · exact .inl ⟨hdb, by rw [hseen]⟩
  · refine .inr ⟨a, htx, ?_⟩
    rcases hseen with hseen | hseen
    · exact .inl (by rw [hseen])
    · exact .inr (by rw [hseen])

/-- What a transaction does, a step that runs it does. -/
theorem work_transact {α : Type} {turn : Turn} {tx : Option (α × Database)}
    {next : Option α → Pc} {pc : Pc} {sent : Option RemoteRequest}
    (h : turn.transact tx next db = (pc, db', sent))
    (htx : ∀ a db', tx = some (a, db') → UnderClaim command scope cleanupId db db') :
    UnderClaim command scope cleanupId db db' := by
  rcases (transact_cases h).2 with ⟨rfl, -⟩ | ⟨a, ha, -⟩
  · exact .inl rfl
  · exact htx a db' ha

/-- The transactions that record a reply. -/
theorem work_finishReply {turn : Turn} {r : RemoteRequest} {result : RemoteResult} {pc : Pc}
    {sent : Option RemoteRequest} (hid : db.FreshCommand turn.commandId)
    (h : finishReply turn r result db = (pc, db', sent)) :
    UnderClaim r.job.command (Pc.finish r result).scope turn.commandId db db' := by
  unfold finishReply at h
  dsimp only at h
  split at h
  · rename_i hcall
    refine work_transact h fun a db₁ ha => ?_
    unfold finishStart at ha
    dsimp only at ha
    split at ha
    · cases ha
    · rename_i hmax
      split at ha
      · rename_i hlock
        refine work_projectOrSkip (RemoteRequest.projects ?_) hlock (fun hdb hdone => ?_) ha
        · rw [RemoteRequest.projections, hcall]
          exact ⟨_, Int.not_lt.mp hmax, rfl⟩
        · refine work_complete (RemoteRequest.closes ?_) hdone
          rw [RemoteRequest.closings, hcall, hdb]
          exact db.row_project (fun i _ => ⟨rfl, rfl⟩) fun i hmiss => by cases hmiss
      · cases ha
  · cases h
    exact .inl rfl
  · rename_i hcall
    refine work_transact h fun a db₁ ha => work_finishTermination
      (fun _ => RemoteRequest.projects ?_) (fun db hdone => RemoteRequest.closes ?_) ha
    · rw [RemoteRequest.projections, hcall]
      exact ⟨_, rfl⟩
    · rw [RemoteRequest.closings, hcall]
      exact hdone
  · rename_i hcall
    refine work_transact h fun a db₁ ha => ?_
    unfold finishExtension at ha
    dsimp only at ha
    split at ha
    · cases ha
    · rename_i hmax
      refine work_projectUnderClaim (RemoteRequest.projects ?_)
        (fun _ => work_complete (RemoteRequest.closes ?_)) ha
      · rw [RemoteRequest.projections, hcall]
        exact ⟨_, Int.not_lt.mp fun hlt => hmax (.inl hlt), rfl⟩
      · rw [RemoteRequest.closings, hcall]
        trivial
  · rename_i hcall
    exact work_transact h fun a db₁ ha => work_finishInspection hid hcall ha

/-- **What a worker can change.**  A step changes the tables only under the
claim on the worker's command, by moves for that command. -/
theorem advance_work {config : Config} {worker : ℕ} {turn : Turn} {pc pc' : Pc}
    {sent : Option RemoteRequest} (hcommand : pc.command = some command)
    (hid : db.FreshCommand turn.commandId)
    (h : advance config worker turn db pc = some (pc', db', sent)) :
    UnderClaim command pc.scope turn.commandId db db' := by
  cases pc with
  | idle => cases h
  | load c =>
      rw [advance] at h
      split at h <;> cases h <;> exact .inl rfl
  | cancelStale job =>
      cases hcommand
      refine work_transact (Option.some.inj h) fun a db₁ ha => ?_
      obtain ⟨_, htx, heq⟩ := Option.map_eq_some_iff.mp ha
      cases heq
      exact work_cancelStaleCommand rfl htx
  | cancel c =>
      cases hcommand
      refine work_transact (Option.some.inj h) fun a db₁ ha => ?_
      cases ha
      exact work_updateCommands (.close db _ _ rfl rfl)
  | complete c =>
      cases hcommand
      refine work_transact (Option.some.inj h) fun a db₁ ha => ?_
      cases ha
      exact work_updateCommands (.close db _ _ rfl rfl)
  | gate job =>
      cases h
      exact .inl rfl
  | rejectStart job =>
      cases hcommand
      refine work_transact (Option.some.inj h) fun a db₁ ha => ?_
      obtain ⟨_, htx, heq⟩ := Option.map_eq_some_iff.mp ha
      cases heq
      exact work_abandonStart rfl (fun _ => rfl) htx
  | expireUnstarted job =>
      cases hcommand
      refine work_transact (Option.some.inj h) fun a db₁ ha => ?_
      obtain ⟨_, htx, heq⟩ := Option.map_eq_some_iff.mp ha
      cases heq
      exact work_abandonStart rfl (fun _ => rfl) htx
  | place job =>
      cases hcommand
      have hplace := Option.some.inj h
      unfold placeInstance at hplace
      split at hplace
      · rename_i server hserver
        refine work_transact hplace fun a db₁ ha => ?_
        refine work_projectUnderClaim ⟨server, rfl, fun placed hplaced => ?_⟩ (fun _ hdone => ?_) ha
        · rw [hserver] at hplaced
          exact Option.some.inj hplaced
        · cases hdone
          exact .single (work_event job .starting _)
      · rename_i hserver
        refine work_transact hplace fun a db₁ ha => ?_
        rcases selectAndMarkStarting_eq_some ha with ⟨-, hdb⟩ | ⟨server, b, hlock, htx, -⟩
        · exact .inl hdb
        · refine work_projectOrSkip ⟨server, rfl, fun placed hplaced => ?_⟩ hlock
            (fun _ hdone => ?_) htx
          · rw [hserver] at hplaced
            cases hplaced
          · cases hdone
            exact .single (work_event job .starting _)
  | markStopping job =>
      cases hcommand
      refine work_transact (Option.some.inj h) fun a db₁ ha => ?_
      refine work_projectUnderClaim rfl (fun _ hdone => ?_) ha
      cases hdone
      exact .single (work_event job .stopping _)
  | finishTermination job =>
      cases hcommand
      exact work_transact (Option.some.inj h) fun a db₁ ha =>
        work_finishTermination (fun _ => ⟨_, rfl⟩) (fun _ hdone => ⟨rfl, hdone⟩) ha
  | send r =>
      rw [advance] at h
      split at h <;> cases h <;> exact .inl rfl
  | await r =>
      cases h
      exact .inl rfl
  | finish r result =>
      cases hcommand
      have hfinish := Option.some.inj h
      split at hfinish
      · exact work_finishReply hid hfinish
      · cases hfinish
        exact .inl rfl
  | retry c =>
      cases hcommand
      refine work_transact (Option.some.inj h) fun a db₁ ha => ?_
      cases ha
      exact work_scheduleRetry hid rfl fun _ hrow => ⟨rfl, hrow⟩

/-! ## Where a worker goes -/

/-- Where a step takes a worker, with what it says about the tables before and
after it and the request it sends. -/
inductive Pc.Next (worker : ℕ) (db db' : Database) : Pc → Pc → Option RemoteRequest → Prop
  /-- the work on the command ends, is retried or is cancelled -/
  | ended {pc pc' : Pc} (h : pc' = .idle ∨
      ∃ command, pc.command = some command ∧ (pc' = .retry command ∨ pc' = .cancel command)) :
    Next worker db db' pc pc' none
  | loaded (command : CommandRow) (job : Job) (now : Time)
    (hjob : loadInstance command db = some job) (hdb : db' = db) :
    Next worker db db' (.load command) (dispatch worker now job) none
  | admitted (job : Job) : Next worker db db' (.gate job) (.place job) none
  | refused (job : Job) : Next worker db db' (.gate job) (.rejectStart job) none
  | placed (job : Job) (server : Uuid) (now : Time)
    (hlock : lockCommandClaim job.command db = true)
    (hplaced : ∀ placed, job.row.remoteServerId = some placed → server = placed)
    (hhit : db.instances.any
      ((Projection.starting server).hits job.row.id job.command.generation) = true)
    (hdb : db' = job.event .starting
      (db.project now job.row.id job.command.generation (.starting server))) :
    Next worker db db' (.place job) (.send ⟨worker, job, server, .start⟩) none
  | stopping (job : Job) (server : Uuid) (hserver : job.row.remoteServerId = some server) :
    Next worker db db' (.markStopping job) (.send ⟨worker, job, server, .terminate⟩) none
  | unplaced (job : Job) (hserver : job.row.remoteServerId = none) :
    Next worker db db' (.markStopping job) (.finishTermination job) none
  | sent (r : RemoteRequest) (hdb : db' = db) :
    Next worker db db' (.send r) (.await r) (some r)
  | late (r : RemoteRequest) (result : RemoteResult) (hcall : r.call = .start) :
    Next worker db db' (.finish r result) (.send { r with call := .cleanup }) none

section

variable {worker : ℕ} {turn : Turn} {pc pc' : Pc} {sent : Option RemoteRequest}

theorem Pc.Next.retry (h : pc.command = some command) :
    Pc.Next worker db db' pc (.retry command) none :=
  .ended (.inr ⟨command, h, .inl rfl⟩)

theorem Pc.Next.cancel (h : pc.command = some command) :
    Pc.Next worker db db' pc (.cancel command) none :=
  .ended (.inr ⟨command, h, .inr rfl⟩)

theorem Pc.Next.done (h : pc.command = some command) :
    Pc.Next worker db db' pc (turn.done command) none := by
  unfold Turn.done
  split
  · exact .ended (.inl rfl)
  · exact .retry h

/-- The step after a transaction that answers `true` or `false`. -/
theorem next_transact {tx : Option (Bool × Database)} {yes no : Pc}
    (hcommand : pc.command = some command)
    (hyes : tx = some (true, db') → Pc.Next worker db db' pc yes none)
    (hno : tx = some (false, db') → Pc.Next worker db db' pc no none)
    (h : turn.transact tx (afterTx command yes no) db = (pc', db', sent)) :
    Pc.Next worker db db' pc pc' sent := by
  obtain ⟨rfl, ⟨-, rfl⟩ | ⟨b, htx, rfl | rfl⟩⟩ := transact_cases h
  · exact .retry hcommand
  · exact .retry hcommand
  · cases b with
    | true => exact hyes htx
    | false => exact hno htx

theorem next_place {job : Job} (h : placeInstance worker turn job db = (pc', db', sent)) :
    Pc.Next worker db db' (.place job) pc' sent := by
  unfold placeInstance at h
  split at h
  · rename_i server hserver
    refine next_transact rfl (fun htx => ?_) (fun _ => .cancel rfl) h
    rcases projectUnderClaim_eq_some htx with ⟨hb, -⟩ | ⟨-, hlock, hhit, hdone⟩
    · cases hb
    · refine .placed job server turn.now hlock (fun placed hplaced => ?_) hhit
        (Option.some.inj hdone).symm
      rw [hserver] at hplaced
      exact Option.some.inj hplaced
  · rename_i hserver
    obtain ⟨rfl, ⟨-, rfl⟩ | ⟨chosen, htx, rfl | rfl⟩⟩ := transact_cases h
    · exact .retry rfl
    · exact .retry rfl
    · rcases selectAndMarkStarting_eq_some htx with ⟨rfl, -⟩ | ⟨server, b, hlock, hproject, rfl⟩
      · exact .cancel rfl
      · rcases projectOrSkip_eq_some hproject with ⟨rfl, -, -⟩ | ⟨rfl, hhit, hdone⟩
        · exact .cancel rfl
        · refine .placed job server turn.now hlock (fun placed hplaced => ?_) hhit
            (Option.some.inj hdone).symm
          rw [hserver] at hplaced
          cases hplaced

theorem next_finishReply {r : RemoteRequest} {result : RemoteResult}
    (h : finishReply turn r result db = (pc', db', sent)) :
    Pc.Next worker db db' (.finish r result) pc' sent := by
  unfold finishReply at h
  dsimp only at h
  split at h
  · rename_i hcall
    exact next_transact rfl (fun _ => .done rfl) (fun _ => .late r result hcall) h
  · cases h
    exact .cancel rfl
  · exact next_transact rfl (fun _ => .done rfl) (fun _ => .cancel rfl) h
  · exact next_transact rfl (fun _ => .done rfl) (fun _ => .cancel rfl) h
  · exact next_transact rfl (fun _ => .done rfl) (fun _ => .cancel rfl) h

/-- **Where a step takes a worker.** -/
theorem advance_next {config : Config}
    (h : advance config worker turn db pc = some (pc', db', sent)) :
    Pc.Next worker db db' pc pc' sent := by
  cases pc with
  | idle => cases h
  | load c =>
      rw [advance] at h
      split at h
      · rename_i job _ hjob
        cases h
        exact .loaded c job turn.now hjob rfl
      · cases h
        exact .retry rfl
  | cancelStale job =>
      exact next_transact rfl (fun _ => .ended (.inl rfl)) (fun _ => .ended (.inl rfl))
        (Option.some.inj h)
  | cancel c =>
      exact next_transact rfl (fun _ => .done rfl) (fun _ => .ended (.inl rfl)) (Option.some.inj h)
  | complete c =>
      exact next_transact rfl (fun _ => .ended (.inl rfl)) (fun _ => .ended (.inl rfl))
        (Option.some.inj h)
  | gate job =>
      cases h
      split_ifs
      · exact .retry rfl
      · exact .admitted job
      · exact .refused job
  | rejectStart job =>
      exact next_transact rfl (fun _ => .ended (.inl rfl)) (fun _ => .ended (.inl rfl))
        (Option.some.inj h)
  | expireUnstarted job =>
      exact next_transact rfl (fun _ => .ended (.inl rfl)) (fun _ => .ended (.inl rfl))
        (Option.some.inj h)
  | place job => exact next_place (Option.some.inj h)
  | markStopping job =>
      refine next_transact rfl (fun _ => ?_) (fun _ => .cancel rfl) (Option.some.inj h)
      split
      · rename_i server hserver
        exact .stopping job server hserver
      · rename_i hserver
        exact .unplaced job hserver
  | finishTermination job =>
      exact next_transact rfl (fun _ => .ended (.inl rfl)) (fun _ => .cancel rfl)
        (Option.some.inj h)
  | send r =>
      rw [advance] at h
      split at h
      · cases h
        exact .sent r rfl
      · cases h
        exact .retry rfl
  | await r =>
      cases h
      exact .retry rfl
  | finish r result =>
      have hfinish := Option.some.inj h
      split at hfinish
      · exact next_finishReply hfinish
      · cases hfinish
        exact .retry rfl
  | retry c =>
      obtain ⟨rfl, ⟨-, rfl⟩ | ⟨_, _, rfl | rfl⟩⟩ := transact_cases (Option.some.inj h)
      all_goals exact .ended (.inl rfl)

end

theorem Pc.command_dispatch (worker : ℕ) (now : Time) (job : Job) :
    (dispatch worker now job).command = some job.command := by
  unfold dispatch
  split
  · rfl
  · cases job.command.kind with
    | start => dsimp only; split_ifs <;> rfl
    | terminate => dsimp only; split_ifs <;> rfl
    | extend =>
        dsimp only
        split_ifs
        · rfl
        · cases job.row.remoteServerId <;> rfl
    | inspect => cases job.row.remoteServerId <;> rfl
    | reconcile => cases job.row.remoteServerId <;> rfl

theorem RemoteRequest.command_received (r : RemoteRequest) (reply : Option Helper.Reply) :
    (r.received reply).command = some r.job.command := by
  unfold RemoteRequest.received
  split
  · rfl
  · split <;> rfl

/-- A worker records a reply only when it is accepted, and retries otherwise. -/
theorem RemoteRequest.received_cases (r : RemoteRequest) (reply : Option Helper.Reply) :
    r.received reply = .retry r.job.command ∨
      ∃ sent effective, reply = some sent ∧ r.accepts (sent.result effective) = true ∧
        r.received reply = .finish r (sent.result effective) := by
  unfold RemoteRequest.received
  cases reply with
  | none => exact .inl rfl
  | some sent =>
      cases hparse : sent.parse with
      | none => simp [hparse]
      | some result =>
          obtain ⟨effective, rfl⟩ : ∃ effective, result = sent.result effective := by
            unfold Helper.Reply.parse at hparse
            split at hparse
            · exact ⟨none, (Option.some.inj hparse).symm⟩
            · exact ⟨_, (Option.some.inj hparse).symm⟩
            · cases hparse
          cases haccepts : r.accepts (sent.result effective) with
          | false => simp [hparse, haccepts]
          | true => exact .inr ⟨sent, effective, rfl, haccepts, by simp [hparse, haccepts]⟩

/-- A job carries the command it was loaded for, and a row of the table. -/
theorem loadInstance_eq_some (h : loadInstance command db = some job) :
    job.command = command ∧ ∃ i ∈ db.instances, i.id = command.instanceId ∧ job.row = i.row := by
  unfold loadInstance at h
  split at h
  · cases h
  · rename_i i hi
    cases h
    exact ⟨rfl, i, (Database.findInstance_eq_some hi).1, (Database.findInstance_eq_some hi).2, rfl⟩

/-- A worker that is still at work is at the same command. -/
theorem Pc.Next.keepsCommand {worker : ℕ} {pc pc' : Pc} {sent : Option RemoteRequest}
    (h : Pc.Next worker db db' pc pc' sent) :
    pc' = .idle ∨ pc'.command = pc.command := by
  cases h with
  | ended h =>
      rcases h with rfl | ⟨command, hcommand, rfl | rfl⟩
      · exact .inl rfl
      · exact .inr hcommand.symm
      · exact .inr hcommand.symm
  | loaded command job now hjob =>
      right
      rw [Pc.command_dispatch, (loadInstance_eq_some hjob).1]
      rfl
  | _ => exact .inr rfl

end CtfZone
