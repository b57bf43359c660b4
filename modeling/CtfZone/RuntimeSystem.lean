/-
# The runtime system

The API, any number of controller workers, the requests under way and the
runtime hosts as one transition system.  A label names what happens next and
everything the outside decides about it.

* A worker takes one step of `advance` at a time, so that it can stall anywhere
  while others run; it may claim a command whenever one is available, so that a
  worker that has lost the lease is just a worker that is slow.
* A request that was sent stays in the network until it is delivered, however
  late; its reply reaches the worker only if the worker still waits for it.
* The operations of a host on one UUID exclude one another, so that a delivery
  runs a whole operation of the helper.
* `drawn` are the UUIDs that `gen_random_uuid()` has returned; it never returns
  one twice.
-/
import CtfZone.ControllerWorker
import CtfZone.HelperFence
import CtfZone.Runs
import Mathlib.Logic.Function.Basic

open Effects Runs

namespace CtfZone

/-- The whole system.  `hosts server uuid` is what a runtime host has of one
UUID. -/
structure System where
  db : Database
  workers : ℕ → Pc
  network : List RemoteRequest
  hosts : Uuid → Uuid → Cell
  drawn : List Uuid

namespace System

/-- Nothing has been requested yet. -/
structure Initial (s : System) : Prop where
  instances : s.db.instances = []
  commands : s.db.commands = []
  events : s.db.events = []
  workers : ∀ w, s.workers w = .idle
  network : s.network = []
  hosts : ∀ server u, s.hosts server u = Cell.pristine

/-- Let a worker stand elsewhere. -/
def setWorker (w : ℕ) (pc : Pc) (s : System) : System :=
  { s with workers := Function.update s.workers w pc }

/-- Change what a host has of a UUID. -/
def setHost (server u : Uuid) (cell : Cell) (s : System) : System :=
  { s with
    hosts := Function.update s.hosts server (Function.update (s.hosts server) u cell) }

/-- Draw a UUID. -/
def draw (id : Uuid) (s : System) : Option System :=
  if id ∈ s.drawn then none else some { s with drawn := id :: s.drawn }

end System

/-- What a runtime host does by itself. -/
inductive HostEvent
  | expire (expectedGeneration : ℤ) (env : Env)
  | sweep (env : Env)
  | drift (d : Drift)
  | timersLost (kept : Option ℤ → Bool)

/-- The event on the host. -/
def HostEvent.event : HostEvent → Helper.Event
  | .expire g env => .operation (.expire g) env
  | .sweep env => .operation .sweep env
  | .drift d => .drift d
  | .timersLost kept => .timersLost kept

/-- The request of `cleanup_overdue_without_database`. -/
def degradedRequest (c : RuntimeCommand) : Helper.Request where
  generation := .int c.generation
  expiresAt := .missing
  deployment := none
  flagValue := none

/-- The reply a worker sees of an operation that ended. -/
def replyOf : Outcome Exc Helper.Reply → Option Helper.Reply
  | .done reply => some reply
  | _ => none

/-- What happens next. -/
inductive Label
  | ensure (now : Time) (instanceId commandId : Uuid) (user : CurrentUser)
      (challengeId : ChallengeId) (facts : LaunchFacts) (request : EnsureRequest)
  | extend (now : Time) (commandId : Uuid) (user : CurrentUser) (instanceId : Uuid)
      (request : ExtendRequest)
  | terminate (now : Time) (commandId : Uuid) (user : CurrentUser) (instanceId : Uuid)
  | reconcile (now : Time) (commandId : Uuid) (user : CurrentUser) (instanceId : Uuid)
  | setting (user : CurrentUser) (enabled : Bool)
  | profile (user : CurrentUser) (config : ChallengeRuntimeConfig)
  | recoverStale (now : Time)
  | recoverAll (now : Time)
  /-- `enqueue_policy_terminations` and `enqueue_overdue_terminations`; the query
  that selected the instance may be out of date -/
  | createTermination (now : Time) (commandId instanceId : Uuid) (reason : TerminationReason)
  | enqueueInspection (now : Time) (minimumAge : Option ℕ) (commandId instanceId : Uuid)
  | claim (worker : ℕ) (now : Time) (token commandId : Uuid)
  | work (worker : ℕ) (turn : Turn)
  /-- a session ends, with the worker wherever it stands -/
  | crash (worker : ℕ)
  /-- the `k`-th request under way reaches its host; `lost` says that the reply
  does not reach the worker -/
  | deliver (k : ℕ) (env : Env) (lost : Bool)
  /-- `cleanup_overdue_without_database`, for a command in the journal -/
  | degradedCleanup (commandId server : Uuid) (env : Env)
  | host (server u : Uuid) (e : HostEvent)

namespace System

/-- One transaction of the API or of the housekeeping, which may draw UUIDs. -/
def transact (ids : List Uuid) (tx : Database → Database) (s : System) : Option System :=
  if ids.any (· ∈ s.drawn) then none
  else some { s with db := tx s.db, drawn := ids ++ s.drawn }

/-- A request reaches its host. -/
def deliver (k : ℕ) (env : Env) (lost : Bool) (s : System) : Option System :=
  match s.network[k]? with
  | none => none
  | some r =>
    let ended := r.program env (s.hosts r.server r.job.row.id)
    let served := setHost r.server r.job.row.id ended.2
      { s with network := s.network.eraseIdx k }
    some (if s.workers r.worker = .await r ∧ lost = false then
      served.setWorker r.worker (r.received (replyOf ended.1)) else served)

/-- A worker claims a command. -/
def claim (w : ℕ) (now : Time) (token commandId : Uuid) (s : System) : Option System :=
  if s.workers w ≠ .idle ∨ token ∈ s.drawn then none
  else
    match claimCommand now token commandId s.db with
    | none => none
    | some (command, db') =>
      some ({ s with db := db', drawn := token :: s.drawn }.setWorker w (.load command))

/-- A worker takes a step. -/
def work (config : Config) (w : ℕ) (turn : Turn) (s : System) : Option System :=
  if turn.commandId ∈ s.drawn then none
  else
    match advance config w turn s.db (s.workers w) with
    | none => none
    | some (pc, db', sent) =>
      some ({ s with
        db := db'
        network := s.network ++ sent.toList
        drawn := turn.commandId :: s.drawn }.setWorker w pc)

/-- The degraded cleanup of an instance placed on a server. -/
def degradedCleanup (commandId server : Uuid) (env : Env) (s : System) : Option System :=
  match s.db.commands.find? (·.id = commandId) with
  | none => none
  | some c =>
    if s.db.instances.any fun i => i.id = c.instanceId && i.remoteServerId = some server then
      some (setHost server c.instanceId
        (Helper.stopInstance c.instanceId (degradedRequest c) env
          (s.hosts server c.instanceId)).2 s)
    else none

/-- The transition function. -/
def step (config : Config) : Label → System → Option System
  | .ensure now instanceId commandId user challengeId facts request =>
    transact [instanceId, commandId] fun db =>
      (ensureInstance now instanceId commandId user challengeId facts request db).2
  | .extend now commandId user instanceId request =>
    transact [commandId] fun db => (extendInstance now commandId user instanceId request db).2
  | .terminate now commandId user instanceId =>
    transact [commandId] fun db => (requestTermination now commandId user instanceId db).2
  | .reconcile now commandId user instanceId =>
    transact [commandId] fun db => (reconcileInstance now commandId user instanceId db).2
  | .setting user enabled =>
    transact [] fun db => (updatePrivateChallengesSetting user enabled db).2
  | .profile user config => transact [] fun db => (putChallengeRuntime user config db).2
  | .recoverStale now => transact [] (recoverStaleClaims config now)
  | .recoverAll now => transact [] (recoverAllClaims now)
  | .createTermination now commandId instanceId reason =>
    transact [commandId] (createTermination now commandId instanceId reason)
  | .enqueueInspection now minimumAge commandId instanceId =>
    transact [commandId] (enqueueInspection now minimumAge commandId instanceId)
  | .claim w now token commandId => claim w now token commandId
  | .work w turn => work config w turn
  | .crash w => fun s => some (s.setWorker w .idle)
  | .deliver k env lost => deliver k env lost
  | .degradedCleanup commandId server env => degradedCleanup commandId server env
  | .host server u e => fun s =>
    some (s.setHost server u (e.event.apply u (s.hosts server u)))

attribute [simp] step

end System

/-! ## A small deployment -/

/-- One challenge with a runtime profile and one runtime host, before the first
request. -/
def smallSystem : System where
  db := {
    setting := ⟨true, 1⟩
    configs := [{
      challengeId := 1
      managed := true
      enabled := true
      deployment := some ⟨31337, "tcp", none, none⟩
      protocol := "tcp"
      defaultTtlSeconds := 1800
      maximumTtlSeconds := 3600
      allowExtension := true
      maximumExtensions := 2
      remotePool := none
      revision := 1 }]
    servers := [⟨100, none, 10, true⟩]
    instances := []
    commands := []
    events := [] }
  workers := fun _ => .idle
  network := []
  hosts := fun _ _ => Cell.pristine
  drawn := []

theorem smallSystem_initial : smallSystem.Initial :=
  ⟨rfl, rfl, rfl, fun _ => rfl, rfl, fun _ _ => rfl⟩

/-- An administrator. -/
def smallUser : CurrentUser := ⟨7, true⟩

/-- An operation of the helper in which nothing fails and the container starts
at once. -/
def quietEnv (t : Time) : Env where
  fault _ _ := .none
  now := t
  delay := fun _ => 0
  polls := [⟨.same, .none, false⟩]
  settled := .same
  created := ⟨"c", ⟨some .running, true, none⟩, none, ⟨none, none⟩⟩
  sha256 := id
  publicHostname := none

/-- A step of a worker in which nothing fails. -/
def quietTurn (t : Time) (id : Uuid) : Turn := ⟨t, id, some 100, .none, true, true⟩

/-- Instance 1 is launched by command 2, and worker 0 has claimed the command
and sent the `ensure-instance` request. -/
def launchSent : List Label :=
  [.ensure 0 1 2 smallUser 1 ⟨true, true, none⟩ ⟨none, none⟩, .claim 0 0 3 2,
   .work 0 (quietTurn 0 4), .work 0 (quietTurn 0 5), .work 0 (quietTurn 0 6),
   .work 0 (quietTurn 0 7)]

end CtfZone
