/-
# Cleanup without the database

`cleanup_overdue_without_database` and `reconcile_database_acknowledgements` of
`journal.rs`, beside the running system.  An `Outage` is the system, one
operation journal, and where the controller that owns the journal stands in its
loop over the records.

The system, the hosts and the journal may move in any way between two records:
what the loop has read can be out of date, and another controller or a late
request can reach the host first.  The order of a loop is the order in which the
hash map yields its keys, which is any order.
-/
import CtfZone.HelperReplies
import CtfZone.JournalReplay
import CtfZone.SystemInvariants

open Effects Effects.Prog Runs

namespace CtfZone

open Journal

/-! ## The loops -/

/-- Where the controller stands: the records it has read and the keys it has
still to visit. -/
inductive Loop
  | idle
  | cleaning (records : Current) (pending : List Key)
  | reconciling (records : Current) (pending : List Key)

/-- The system and a controller that is cut off from its database, or has just
got it back. -/
structure Outage where
  system : System
  journal : Disk
  loop : Loop

/-- Nothing has been requested yet; the hosts and the journal are in any
state. -/
structure Outage.Initial (s : Outage) : Prop where
  system : { s.system with hosts := fun _ _ => Cell.pristine }.Initial
  loop : s.loop = .idle

/-- What the world decides while a record is cleaned up. -/
structure Visit where
  now : Time
  env : Env
  /-- the call reaches the helper -/
  reaches : Bool
  /-- the reply reaches the controller -/
  answers : Bool
  updatedAt : Time
  outcome : AppendOutcome

/-- What the world decides while a record is reconciled. -/
structure Reconciliation where
  /-- the query succeeds -/
  answers : Bool
  updatedAt : Time
  outcome : AppendOutcome

/-- The request of `cleanup_overdue_without_database`; the helper reads nothing
else of it. -/
def Journal.JournalRecord.stopRequest (record : JournalRecord) : Helper.Request where
  generation := .int record.generation
  expiresAt := .missing
  deployment := none
  flagValue := none

/-- The payload of the request; a UUID is written as its number. -/
def Journal.JournalRecord.stopPayload (record : JournalRecord) : Json :=
  .object [("instance_id", .string (toString record.instanceId)),
    ("generation", .number (toString record.generation)),
    ("reason", .string "degraded_deadline_recovery")]

/-- The reply of `stop-instance`, which reports no status, as it is journalled. -/
def Helper.Reply.journalled (reply : Helper.Reply) (effectiveExpiresAt : Option Time) :
    Journal.RemoteResult where
  containerId := reply.containerId
  remoteIp := reply.remoteIp
  containerPort := reply.containerPort.map Int.ofNat
  publishedIp := reply.publishedIp
  publishedPort := reply.publishedPort.map Int.ofNat
  protocol := reply.protocol
  publicHostname := reply.publicHostname
  endpointUrl := reply.endpointUrl
  effectiveExpiresAt := effectiveExpiresAt
  absent := reply.absent
  ready := reply.ready
  runtimeStatus := none
  healthStatus := none
  staleGeneration := reply.staleGeneration
  effectiveGeneration := reply.effectiveGeneration

/-- The record of a cleanup that the helper has confirmed. -/
def Journal.JournalRecord.cleanedUp (record : JournalRecord) (result : Journal.RemoteResult)
    (updatedAt : Time) : JournalRecord :=
  { record with
    phase := .degradedCleanup
    remoteResult := some result
    payload := some record.stopPayload
    updatedAt := updatedAt }

/-- The record of an operation that the database has finished. -/
def Journal.JournalRecord.acknowledgedAt (record : JournalRecord) (updatedAt : Time) :
    JournalRecord :=
  { record with
    phase := .databaseAcknowledged
    remoteResult := none
    payload := none
    updatedAt := updatedAt }

/-- An append returns `Ok`. -/
def Journal.AppendOutcome.isOk : AppendOutcome → Bool
  | .returned _ _ => true
  | _ => false

/-- The result `execute` returns. -/
def Visit.result (v : Visit) (ended : Outcome Exc Helper.Reply) : Option Journal.RemoteResult :=
  if v.answers then
    (replyOf ended).bind fun reply => reply.parse.map fun r => reply.journalled r.effectiveExpiresAt
  else none

namespace Outage

variable (codec : Codec)

/-- Append a record and go on; an append that fails ends the loop. -/
def append (record : JournalRecord) (outcome : AppendOutcome) (next : Loop) (s : Outage) :
    Outage :=
  { s with
    journal := s.journal.step codec (.append record outcome)
    loop := if outcome.isOk then next else .idle }

/-- The body of the loop in `cleanup_overdue_without_database`. -/
def cleanUp (record : JournalRecord) (v : Visit) (next : Loop) (s : Outage) : Outage :=
  if record.phase = .degradedCleanup then { s with loop := next }
  else if v.now < record.effectiveExpiresAt then { s with loop := next }
  else
    match record.remoteServer with
    | none => { s with loop := next }
    | some server =>
      if v.reaches then
        let ended := Helper.stopInstance record.instanceId record.stopRequest v.env
          (s.system.hosts server.id record.instanceId)
        let stopped : Outage :=
          { s with system := s.system.setHost server.id record.instanceId ended.2, loop := next }
        match v.result ended.1 with
        | none => stopped
        | some result =>
          if result.absent = some true ∨ result.staleGeneration = some true then
            stopped.append codec (record.cleanedUp result v.updatedAt) v.outcome next
          else stopped
      else { s with loop := next }

/-- What the database says of the operation of a record. -/
def databaseFinished (db : Database) (record : JournalRecord) : Bool :=
  match db.commands.find? fun c => c.id = record.commandId && c.instanceId = record.instanceId with
  | none => true
  | some c =>
    match db.instances.find? (·.id = c.instanceId) with
    | none => true
    | some i =>
      ! c.status.isOpen || c.generation ≠ record.generation ||
        (i.generation ≠ record.generation && c.status ≠ .claimed)

/-- The body of the loop in `reconcile_database_acknowledgements`. -/
def reconcile (record : JournalRecord) (r : Reconciliation) (next : Loop) (s : Outage) : Outage :=
  if r.answers then
    if databaseFinished s.system.db record then
      s.append codec (record.acknowledgedAt r.updatedAt) r.outcome next
    else { s with loop := next }
  else { s with loop := .idle }

end Outage

/-! ## The transition system -/

/-- What happens next. -/
inductive OutageLabel
  | system (l : Label)
  | journal (a : Action)
  /-- `cleanup_overdue_without_database` reads the journal -/
  | clean (order : List Key)
  | visit (v : Visit)
  /-- `reconcile_database_acknowledgements` reads the journal -/
  | reconcile (order : List Key)
  | settle (r : Reconciliation)
  /-- the controller stops, or its loop ends -/
  | leave

/-- The transition function. -/
def Outage.step (config : Config) (codec : Codec) : OutageLabel → Outage → Option Outage
  | .system l, s => (s.system.step config l).map fun system => { s with system := system }
  | .journal a, s => some { s with journal := s.journal.step codec a }
  | .clean order, s =>
    (currentUnacknowledged codec s.journal.file).map fun records =>
      { s with loop := .cleaning records order }
  | .visit v, s =>
    match s.loop with
    | .cleaning records (key :: pending) =>
      match records.lookup key with
      | none => some { s with loop := .cleaning records pending }
      | some record => some (s.cleanUp codec record v (.cleaning records pending))
    | _ => none
  | .reconcile order, s =>
    (currentUnacknowledged codec s.journal.file).map fun records =>
      { s with loop := .reconciling records order }
  | .settle r, s =>
    match s.loop with
    | .reconciling records (key :: pending) =>
      match records.lookup key with
      | none => some { s with loop := .reconciling records pending }
      | some record => some (s.reconcile codec record r (.reconciling records pending))
    | _ => none
  | .leave, s => some { s with loop := .idle }

/-! ## What the helper removes -/

/-- The state file as a request can read it: `none` when there is none, when it
is corrupt or belongs to another instance, and when reading it fails. -/
def Cell.readableState (identifier : Uuid) (env : Env) (s : Cell) : Option InstanceState :=
  match env.fault .request .readState, s.stateFile with
  | .none, .document st => if st.instanceId = identifier then some st else none
  | _, _ => none

/-- A container whose state the helper cannot read. -/
def Cell.Irrecoverable (identifier : Uuid) (env : Env) (s : Cell) : Prop :=
  s.container.isSome ∧ s.readableState identifier env = none

/-- `stop-instance` of a generation finds nothing newer, or nothing it can
read. -/
def Cell.Removable (identifier : Uuid) (env : Env) (g : ℤ) (s : Cell) : Prop :=
  s.Irrecoverable identifier env ∨
    ∀ n, Helper.stateGeneration (s.readableState identifier env) s.container = some n → n ≤ g

namespace Helper

variable {identifier : Uuid} {env : Env}

/-- Behind `except HelperError` reading returns what can be read. -/
theorem yields_readableState {s : Cell} :
    Yields (readStateOrNone .request identifier) env (· = s) fun state =>
      state = s.readableState identifier env := by
  rintro s rfl
  unfold readStateOrNone onHelperError readState
  rw [wp_attempt, wp_bind]
  unfold Cell.readableState wp readJson
  rcases env.fault .request .readState with _ | took | took | took | took
  · cases hfile : s.stateFile with
    | document st => by_cases hid : st.instanceId = identifier <;> simp [hfile, hid]
    | missing | undecodable | malformed | notObject => simp [hfile]
  all_goals simp

/-- `stop-instance` leaves the host alone, or finds nothing newer. -/
theorem stopInstance_spares (identifier : Uuid) (env : Env) (s : Cell) {request : Request} {g : ℤ}
    (hg : request.generation = .int g) :
    wp (stopInstance identifier request) env s fun _ s' =>
      s' = s ∨ s.Removable identifier env g := by
  unfold stopInstance
  refine (yields_generation (P := (· = s)) request).wp_bind (fun n hn => ?_) fun _ _ => .inl rfl
  obtain rfl : g = n := by simpa [hg] using hn.1
  refine yields_inspectRaw.wp_bind (fun inspection hinspection => ?_) fun _ _ => .inl rfl
  obtain ⟨rfl, -⟩ := hinspection
  refine yields_readableState.wp_bind (fun state hstate => ?_) fun _ _ => .inl rfl
  subst hstate
  dsimp only
  split
  · rename_i container hcontainer hstate
    have hirrecoverable : s.Irrecoverable identifier env := ⟨by simp [hcontainer], hstate⟩
    exact wp_mono (Q := fun _ _ => True) trivial fun _ _ _ => .inr (.inl hirrecoverable)
  · rw [wp_ite, wp_pure]
    refine ⟨fun _ => .inl rfl, fun hold => ?_⟩
    refine wp_mono (Q := fun _ _ => True) trivial fun _ _ _ => .inr (.inr fun n hn => ?_)
    rw [hn] at hold
    simpa using hold

end Helper

/-! ## What a step does -/

theorem System.setHost_self (server u : Uuid) (s : System) :
    s.setHost server u (s.hosts server u) = s := by
  simp [System.setHost]

theorem System.setHost_of_ne {s : System} {server u server' u' : Uuid} {cell : Cell}
    (h : (s.setHost server u cell).hosts server' u' ≠ s.hosts server' u') :
    server' = server ∧ u' = u := by
  by_contra hne
  refine h (setHost_cases (P := fun server' u' c => ¬ (server' = server ∧ u' = u) →
    c = s.hosts server' u') (fun _ _ _ => rfl) (fun h => absurd ⟨rfl, rfl⟩ h) server' u' hne)

namespace Outage

variable {config : Config} {codec : Codec} {s s' : Outage} {l : OutageLabel}

/-- The record the controller is at, in the loop `enter`. -/
def At (s : Outage) (enter : Current → List Key → Loop) (record : JournalRecord) : Prop :=
  ∃ records key pending, s.loop = enter records (key :: pending) ∧
    records.lookup key = some record

/-- The controller is at an overdue record of the instance, which is not yet
cleaned up and names the server, and `stop-instance` finds nothing newer. -/
def Overdue (s : Outage) (v : Visit) (server u : Uuid) : Prop :=
  ∃ record remote, s.At .cleaning record ∧ record.instanceId = u ∧
    record.remoteServer = some remote ∧ remote.id = server ∧
    record.phase ≠ .degradedCleanup ∧ record.effectiveExpiresAt ≤ v.now ∧
    (s.system.hosts server u).Removable u v.env record.generation

/-- A record is skipped, or the helper is called for an overdue one. -/
theorem cleanUp_system (codec : Codec) (record : JournalRecord) (v : Visit) (next : Loop) (s : Outage) :
    (s.cleanUp codec record v next).system = s.system ∨
      ∃ remote, record.remoteServer = some remote ∧ record.phase ≠ .degradedCleanup ∧
        record.effectiveExpiresAt ≤ v.now ∧
        (s.cleanUp codec record v next).system =
          s.system.setHost remote.id record.instanceId
            (Helper.stopInstance record.instanceId record.stopRequest v.env
              (s.system.hosts remote.id record.instanceId)).2 := by
  unfold cleanUp
  split
  · exact .inl rfl
  · rename_i hphase
    split
    · exact .inl rfl
    · rename_i hexpired
      split
      · exact .inl rfl
      · rename_i remote hremote
        split
        · refine .inr ⟨remote, hremote, hphase, not_lt.mp hexpired, ?_⟩
          dsimp only
          split
          · rfl
          · split <;> rfl
        · exact .inl rfl

/-- The journal is reconciled without a change of the system, and a record is
appended only for an operation that the database has finished. -/
theorem reconcile_system (codec : Codec) (record : JournalRecord) (r : Reconciliation) (next : Loop)
    (s : Outage) :
    (s.reconcile codec record r next).system = s.system ∧
      ((s.reconcile codec record r next).journal ≠ s.journal →
        databaseFinished s.system.db record = true) := by
  unfold reconcile
  split
  · split
    · rename_i hfinished
      exact ⟨rfl, fun _ => hfinished⟩
    · exact ⟨rfl, fun h => absurd rfl h⟩
  · exact ⟨rfl, fun h => absurd rfl h⟩

/-- A visit changes at most one host, and only for an overdue record. -/
theorem visit_spares {v : Visit} (hstep : step config codec (.visit v) s = some s') :
    s'.system = s.system ∨ ∃ server u, s.Overdue v server u ∧
      ∃ cell, Tamed u (s.system.hosts server u) cell ∧
        s'.system = s.system.setHost server u cell := by
  unfold step at hstep
  dsimp only at hstep
  split at hstep
  · rename_i records key pending hloop
    split at hstep
    · cases hstep
      exact .inl rfl
    · rename_i record hrecord
      cases hstep
      rcases cleanUp_system codec record v (.cleaning records pending) s with
        hsame | ⟨remote, hremote, hphase, hexpired, hsystem⟩
      · exact .inl hsame
      · have hgeneration : record.stopRequest.generation = .int record.generation := rfl
        have hspares := Helper.stopInstance_spares record.instanceId v.env
          (s.system.hosts remote.id record.instanceId) hgeneration
        rcases hspares with hsame | hremovable
        · left
          rw [hsystem, hsame]
          exact System.setHost_self _ _ _
        · exact .inr ⟨remote.id, record.instanceId,
            ⟨record, remote, ⟨records, key, pending, hloop, hrecord⟩, rfl, hremote, rfl, hphase,
              hexpired, hremovable⟩, _, ⟨.operation (.stop record.stopRequest) v.env, rfl, rfl⟩,
            hsystem⟩
  · cases hstep

/-- Reconciling a record reads the database and writes the journal. -/
theorem settle_reads {r : Reconciliation} (hstep : step config codec (.settle r) s = some s') :
    s'.system = s.system ∧ (s'.journal ≠ s.journal →
      ∃ record, s.At .reconciling record ∧ databaseFinished s.system.db record = true) := by
  unfold step at hstep
  dsimp only at hstep
  split at hstep
  · rename_i records key pending hloop
    split at hstep
    · cases hstep
      exact ⟨rfl, fun h => absurd rfl h⟩
    · rename_i record hrecord
      cases hstep
      obtain ⟨hsystem, hjournal⟩ :=
        reconcile_system codec record r (.reconciling records pending) s
      exact ⟨hsystem, fun h => ⟨record, ⟨records, key, pending, hloop, hrecord⟩, hjournal h⟩⟩
  · cases hstep

/-- The system moves as it does by itself. -/
theorem step_moved (hstep : step config codec l s = some s') :
    s'.system = s.system ∨ ∃ l', Moved config s.system l' s'.system := by
  cases l with
  | system l =>
      obtain ⟨system, hsystem, rfl⟩ := Option.map_eq_some_iff.mp hstep
      exact .inr ⟨l, System.step_moved hsystem⟩
  | visit v =>
      rcases visit_spares hstep with hsame | ⟨server, u, -, cell, htamed, hsystem⟩
      · exact .inl hsame
      · refine .inr ⟨.recoverAll 0, ?_⟩
        rw [hsystem]
        exact .host server u cell htamed
  | settle r => exact .inl (settle_reads hstep).1
  | clean order | reconcile order =>
      obtain ⟨records, -, rfl⟩ := Option.map_eq_some_iff.mp hstep
      exact .inl rfl
  | journal a | leave =>
      cases hstep
      exact .inl rfl

theorem reach_sound (h : Reach (step config codec) anyStep Initial s) : s.system.Sound := by
  induction h with
  | init hs =>
      have hsound := hs.system.sound
      exact ⟨hsound.db, ⟨hsound.drawn.db, hsound.drawn.workers⟩, hsound.fits, hsound.known,
      hsound.exclusive, hsound.network⟩
  | step l _ _ hstep hsound =>
      rcases step_moved hstep with hsame | ⟨l', hmoved⟩
      · rw [hsame]
        exact hsound
      · exact hsound.step hmoved

theorem leads_later (hr : Reach (step config codec) anyStep Initial s)
    (h : Leads (step config codec) anyStep s s') : s.system.db.Later s'.system.db := by
  refine h.rel (R := fun s s' => s.system.db.Later s'.system.db) (fun s => .refl _)
    (fun _ _ _ h₁ h₂ => h₁.trans h₂) (fun s l s' hreach _ hstep => ?_) hr
  rcases step_moved hstep with hsame | ⟨l', hmoved⟩
  · rw [hsame]
    exact .refl _
  · exact hmoved.later (reach_sound hreach).drawn

/-- The loop has its records from the journal. -/
def Read (config : Config) (codec : Codec) (s : Outage) : Prop :=
  ∀ records pending, s.loop = .cleaning records pending →
    ∃ s₀, Reach (step config codec) anyStep Initial s₀ ∧ Leads (step config codec) anyStep s₀ s ∧
      currentUnacknowledged codec s₀.journal.file = some records

theorem append_loop (record : JournalRecord) (outcome : AppendOutcome) (next : Loop) (s : Outage) :
    (s.append codec record outcome next).loop = next ∨
      (s.append codec record outcome next).loop = .idle := by
  unfold append
  dsimp only
  split
  · exact .inl rfl
  · exact .inr rfl

theorem cleanUp_loop (codec : Codec) (record : JournalRecord) (v : Visit) (next : Loop) (s : Outage) :
    (s.cleanUp codec record v next).loop = next ∨
      (s.cleanUp codec record v next).loop = .idle := by
  unfold cleanUp
  split
  · exact .inl rfl
  · split
    · exact .inl rfl
    · split
      · exact .inl rfl
      · split
        · dsimp only
          split
          · exact .inl rfl
          · split
            · exact append_loop ..
            · exact .inl rfl
        · exact .inl rfl

theorem reconcile_loop (codec : Codec) (record : JournalRecord) (r : Reconciliation) (next : Loop) (s : Outage) :
    (s.reconcile codec record r next).loop = next ∨
      (s.reconcile codec record r next).loop = .idle := by
  unfold reconcile
  split
  · split
    · exact append_loop ..
    · exact .inl rfl
  · exact .inr rfl

/-- The records of a loop were read when it began. -/
theorem cleaning_before {records : Current} {pending : List Key}
    (hstep : step config codec l s = some s') (hloop : s'.loop = .cleaning records pending) :
    currentUnacknowledged codec s.journal.file = some records ∨
      ∃ pending', s.loop = .cleaning records pending' := by
  cases l with
  | system l =>
      obtain ⟨system, -, rfl⟩ := Option.map_eq_some_iff.mp hstep
      exact .inr ⟨pending, hloop⟩
  | journal a =>
      cases hstep
      exact .inr ⟨pending, hloop⟩
  | clean order =>
      obtain ⟨records', hread, rfl⟩ := Option.map_eq_some_iff.mp hstep
      cases hloop
      exact .inl hread
  | visit v =>
      unfold step at hstep
      dsimp only at hstep
      split at hstep
      · rename_i records' key pending' hbefore
        split at hstep
        · cases hstep
          cases hloop
          exact .inr ⟨_, hbefore⟩
        · rename_i record _
          cases hstep
          rcases cleanUp_loop codec record v (.cleaning records' pending') s with
            hnext | hidle
          · rw [hnext] at hloop
            cases hloop
            exact .inr ⟨_, hbefore⟩
          · rw [hidle] at hloop
            cases hloop
      · cases hstep
  | reconcile order =>
      obtain ⟨records', -, rfl⟩ := Option.map_eq_some_iff.mp hstep
      cases hloop
  | settle r =>
      unfold step at hstep
      dsimp only at hstep
      split at hstep
      · rename_i records' key pending' hbefore
        split at hstep
        · cases hstep
          cases hloop
        · rename_i record _
          cases hstep
          rcases reconcile_loop codec record r (.reconciling records' pending') s with
            hnext | hidle
          · rw [hnext] at hloop
            cases hloop
          · rw [hidle] at hloop
            cases hloop
      · cases hstep
  | leave =>
      cases hstep
      cases hloop

theorem reach_read (h : Reach (step config codec) anyStep Initial s) : Read config codec s := by
  induction h with
  | init h =>
      intro records pending hloop
      rw [h.loop] at hloop
      cases hloop
  | step l hreach _ hstep ih =>
      intro records pending hloop
      rcases cleaning_before hstep hloop with hread | ⟨pending', hbefore⟩
      · exact ⟨_, hreach, .step l (.refl _) trivial hstep, hread⟩
      · obtain ⟨s₀, hs₀, hleads, hread⟩ := ih records pending' hbefore
        exact ⟨s₀, hs₀, .step l hleads trivial hstep, hread⟩

end Outage

/-- **Degraded cleanup is safe.**  Whatever the journal and the hosts are like,
a step of `cleanup_overdue_without_database` leaves the tables alone and changes
a host only for an instance of which the journal, as it was read when the loop
began, has a record whose deadline has passed, and on which the helper finds no
newer generation, or nothing it can read.  Reconciliation only acknowledges
records of operations that the database has finished, and an instance that has
been released stays released. -/
theorem degraded_cleanup_safe (config : Config) (codec : Codec) (s : Outage)
    (hreach : Reach (Outage.step config codec) anyStep Outage.Initial s) :
    (∀ records pending, s.loop = .cleaning records pending → ∃ s₀,
      Reach (Outage.step config codec) anyStep Outage.Initial s₀ ∧
      Leads (Outage.step config codec) anyStep s₀ s ∧
      currentUnacknowledged codec s₀.journal.file = some records) ∧
    (∀ v s', Outage.step config codec (.visit v) s = some s' →
      s'.system.db = s.system.db ∧ ∀ server u,
        s'.system.hosts server u ≠ s.system.hosts server u → s.Overdue v server u) ∧
    (∀ r s', Outage.step config codec (.settle r) s = some s' →
      s'.system = s.system ∧ (s'.journal ≠ s.journal → ∃ record, s.At .reconciling record ∧
        Outage.databaseFinished s.system.db record = true)) ∧
    ∀ s', Leads (Outage.step config codec) anyStep s s' →
      ∀ i ∈ s.system.db.instances, i.active = false →
      ∀ i' ∈ s'.system.db.instances, i'.id = i.id → i'.active = false := by
  refine ⟨Outage.reach_read hreach, fun v s' hstep => ?_, fun r s' hstep => Outage.settle_reads hstep,
    fun s' hleads i hi hinactive i' hi' hid => ?_⟩
  · rcases Outage.visit_spares hstep with hsame | ⟨server, u, hoverdue, cell, -, hsystem⟩
    · rw [hsame]
      exact ⟨rfl, fun _ _ h => absurd rfl h⟩
    · rw [hsystem]
      refine ⟨rfl, fun server' u' hchanged => ?_⟩
      obtain ⟨rfl, rfl⟩ := System.setHost_of_ne hchanged
      exact hoverdue
  · obtain ⟨i'', hi'', hlater⟩ := (Outage.leads_later hreach hleads).instances i hi
    have hsound := Outage.reach_sound (hreach.leads hleads)
    obtain rfl := hsound.db.instance_eq hi'' hi' (hlater.id.trans hid.symm)
    cases hactive : i''.active with
    | true => exact absurd (hlater.active hactive) (by simp [hinactive])
    | false => rfl

/-! ## An extended workload -/

/-- The runtime host of the small deployment, as the journal names it. -/
def smallServer : Journal.RemoteServer where
  id := 100
  name := "a"
  hostname := "a.invalid"
  sshPort := 22
  sshUser := "ctf"
  helperPath := "/helper"
  identityFile := none
  hostKeyAlias := none
  pool := none
  capacity := 10

/-- The intent to launch instance 1, which the journal still has. -/
def overdueRecord : JournalRecord where
  instanceId := 1
  commandId := 2
  generation := 1
  settingRevision := 1
  challengeRuntimeRevision := 1
  operation := .ensureInstance
  phase := .intent
  remoteServer := some smallServer
  effectiveExpiresAt := seconds 1800
  remoteResult := none
  payload := some (.object [])
  updatedAt := seconds 0

/-- The reply to the cleanup. -/
def removedReply : Helper.Reply :=
  { absent := some true, staleGeneration := some false, effectiveGeneration := some 1 }

/-- The records of the run, in the order in which they are appended. -/
def outageRecord : JournalPhase → JournalRecord
  | .intent | .remoteResult => overdueRecord
  | .degradedCleanup => overdueRecord.cleanedUp (removedReply.journalled none) (seconds 3000)
  | .databaseAcknowledged =>
    (overdueRecord.cleanedUp (removedReply.journalled none) (seconds 3000)).acknowledgedAt
      (seconds 3001)

/-- The fields of a record up to the name of its phase. -/
def outageFields : List String :=
  ["\"instance_id\":\"00000000-0000-0000-0000-000000000001\",",
   "\"command_id\":\"00000000-0000-0000-0000-000000000002\",",
   "\"generation\":1,", "\"setting_revision\":1,", "\"challenge_runtime_revision\":1,",
   "\"operation\":\"ensure_instance\",", "\"phase\":\""]

/-- The server, as each record names it. -/
def serverFields : List String :=
  ["\",\"remote_server\":\x7b\"id\":\"00000000-0000-0000-0000-000000000064\",",
   "\"name\":\"a\",\"hostname\":\"a.invalid\",\"ssh_port\":22,\"ssh_user\":\"ctf\",",
   "\"helper_path\":\"/helper\",\"identity_file\":null,\"host_key_alias\":null,\"pool\":null,",
   "\"capacity\":10\x7d,\"effective_expires_at\":\"1970-01-01T00:30:00Z\",\"remote_result\":"]

/-- The name of a phase. -/
def phaseName : JournalPhase → List Char
  | .intent => 'i' :: "ntent".toList
  | .remoteResult => 'r' :: "emote_result".toList
  | .degradedCleanup => 'd' :: 'e' :: "graded_cleanup".toList
  | .databaseAcknowledged => 'd' :: 'a' :: "tabase_acknowledged".toList

/-- The fields behind the server. -/
def resultFields : JournalPhase → List String
  | .intent | .remoteResult =>
    ["null,\"payload\":\x7b\x7d,\"updated_at\":\"1970-01-01T00:00:00Z\"\x7d"]
  | .degradedCleanup =>
    ["\x7b\"container_id\":null,", "\"remote_ip\":null,", "\"container_port\":null,",
     "\"published_ip\":null,", "\"published_port\":null,", "\"protocol\":null,",
     "\"public_hostname\":null,", "\"endpoint_url\":null,", "\"effective_expires_at\":null,",
     "\"absent\":true,", "\"ready\":null,", "\"runtime_status\":null,", "\"health_status\":null,",
     "\"stale_generation\":false,", "\"effective_generation\":1\x7d,",
     "\"payload\":\x7b\"generation\":1,", "\"instance_id\":",
     "\"00000000-0000-0000-0000-000000000001\",", "\"reason\":",
     "\"degraded_deadline_recovery\"\x7d,", "\"updated_at\":\"1970-01-01T00:50:00Z\"\x7d"]
  | .databaseAcknowledged =>
    ["null,\"payload\":null,\"updated_at\":\"1970-01-01T00:50:01Z\"\x7d"]

/-- What `serde_json` writes for a record of the run. -/
def outageText (phase : JournalPhase) : List Char :=
  '{' :: (outageFields.flatMap String.toList ++
    (phaseName phase ++ (serverFields ++ resultFields phase).flatMap String.toList))

/-- `serde_json` on the records of the run. -/
def outageCodec : Codec where
  encode record := outageText record.phase
  decode text :=
    ([.intent, .degradedCleanup, .databaseAcknowledged].find? (outageText · = text)).map
      outageRecord

/-- No text is the beginning of another. -/
theorem outageText_onset {phase phase' : JournalPhase}
    (h : outageText phase <+: outageText phase') : phase = phase' := by
  have hphase := (List.prefix_append_right_inj _).mp (List.cons_prefix_cons.mp h).2
  cases phase <;> cases phase' <;> first | rfl | simp [phaseName] at hphase

theorem outageText_inj {phase phase' : JournalPhase} :
    outageText phase = outageText phase' ↔ phase = phase' := by
  refine ⟨fun h => outageText_onset ?_, fun h => ?_⟩
  · exact ⟨[], by rw [List.append_nil, h]⟩
  · rw [h]

theorem outageText_printable (phase : JournalPhase) : ∀ c ∈ outageText phase, ' ' ≤ c := by
  have hcommon : ∀ field ∈ outageFields ++ serverFields, field.toList.all (' ' ≤ ·) = true := by
    repeat refine List.forall_mem_cons.mpr ⟨all_ofList rfl, ?_⟩
    exact List.forall_mem_nil _
  have hname : (phaseName phase).all (' ' ≤ ·) = true := by
    cases phase <;> exact all_ofList rfl
  have hresult : ∀ field ∈ resultFields phase, field.toList.all (' ' ≤ ·) = true := by
    cases phase
    all_goals
      repeat refine List.forall_mem_cons.mpr ⟨all_ofList rfl, ?_⟩
      exact List.forall_mem_nil _
  simp only [List.all_eq_true, decide_eq_true_eq, List.mem_append] at hcommon hname hresult
  intro c hc
  simp only [outageText, List.mem_cons, List.mem_append, List.mem_flatMap] at hc
  rcases hc with rfl | ⟨field, hfield, hmem⟩ | hmem | ⟨field, hfield, hmem⟩
  · decide
  · exact hcommon field (.inl hfield) c hmem
  · exact hname c hmem
  · rcases hfield with hfield | hfield
    · exact hcommon field (.inr hfield) c hmem
    · exact hresult field hfield c hmem

theorem outageCodec_decode {text : List Char} {record : JournalRecord}
    (h : outageCodec.decode text = some record) : ∃ phase, outageText phase = text := by
  obtain ⟨phase, hphase, -⟩ := Option.map_eq_some_iff.mp h
  exact ⟨phase, by simpa using List.find?_some hphase⟩

theorem outageCodec_serializes {phase : JournalPhase} (h : phase ≠ .remoteResult) :
    outageCodec.Serializes (outageRecord phase) := by
  have hencode : outageCodec.encode (outageRecord phase) = outageText phase := by
    cases phase with
    | remoteResult => exact absurd rfl h
    | intent | degradedCleanup | databaseAcknowledged => rfl
  refine ⟨?_, ?_, ?_, fun text hopens hne => ?_⟩
  · rw [hencode]
    unfold outageCodec
    simp only [outageText_inj]
    cases phase with
    | remoteResult => exact absurd rfl h
    | intent | degradedCleanup | databaseAcknowledged => rfl
  · rw [hencode]
    exact ⟨_, rfl⟩
  · rw [hencode]
    exact outageText_printable phase
  · rw [hencode] at hopens hne
    cases hdecode : outageCodec.decode text with
    | none => rfl
    | some record =>
        obtain ⟨phase', rfl⟩ := outageCodec_decode hdecode
        exact absurd (outageText_inj.mpr (outageText_onset hopens)) hne

/-- What the run appends. -/
def outageAppend (phase : JournalPhase) : Action :=
  .append (outageRecord phase) (.returned false .beforeRename)

/-- The journal after the given appends. -/
def outageJournal (phases : List JournalPhase) : Disk :=
  phases.foldl (fun s phase => s.step outageCodec (outageAppend phase)) .fresh

theorem outageJournal_concat (phases : List JournalPhase) (phase : JournalPhase) :
    outageJournal (phases ++ [phase]) =
      (outageJournal phases).step outageCodec (outageAppend phase) := by
  rw [outageJournal, List.foldl_append]
  rfl

/-- The record is stored as it is. -/
theorem outageRecord_persisted (phase : JournalPhase) :
    (outageRecord phase).persisted = outageRecord phase := by
  cases phase <;> rfl

theorem outageJournal_intact (phases : List JournalPhase) (h : .remoteResult ∉ phases) :
    Intact outageCodec (outageJournal phases) (phases.map outageRecord) [] := by
  induction phases using List.reverseRecOn with
  | nil => exact ⟨rfl, fun r hr => absurd hr List.not_mem_nil, .inl rfl, fun _ => rfl⟩
  | append_singleton phases phase ih =>
      have hserializes : outageCodec.Serializes (outageRecord phase).persisted := by
        rw [outageRecord_persisted]
        exact outageCodec_serializes fun heq => h (by simp [heq])
      have happend := (ih fun hmem => h (List.mem_append_left _ hmem)).append hserializes
      rw [outageRecord_persisted] at happend
      have hfile : outageJournal (phases ++ [phase]) =
          { file := some ((outageJournal phases).bytes ++ outageCodec.lineBytes (outageRecord phase))
            returned := (outageJournal phases).returned ++ [outageRecord phase] } := by
        rw [outageJournal_concat, outageAppend, Disk.step, outageRecord_persisted]
        simp [compact]
      rw [hfile, List.map_append]
      exact happend

/-- The instance is launched and extended; both commands complete. -/
def launchedAndExtended : List Label :=
  launchSent ++ [.deliver 0 (quietEnv 0) false, .work 0 (quietTurn 0 8),
    .extend (seconds 1) 9 smallUser 1 ⟨none, none⟩, .claim 0 (seconds 1) 10 9,
    .work 0 (quietTurn (seconds 1) 11), .work 0 (quietTurn (seconds 1) 12),
    .deliver 0 (quietEnv (seconds 1)) false, .work 0 (quietTurn (seconds 1) 13)]

/-- The call reaches the helper, which is refused the state file. -/
def refusedVisit : Visit where
  now := seconds 3000
  env := Helper.faultAt .request .readState (.exit false)
  reaches := true
  answers := true
  updatedAt := seconds 3000
  outcome := .returned false .beforeRename

/-- The record is acknowledged. -/
def quietReconciliation : Reconciliation where
  answers := true
  updatedAt := seconds 3001
  outcome := .returned false .beforeRename

/-- The state file records the second generation. -/
def recordsSecond (file : File InstanceState) : Bool :=
  match file with
  | .document st => st.generation = .int 2
  | _ => false

/-- The helper has answered that the workload is gone, and it is. -/
def answersRemoved (result : Effects.Outcome Exc Helper.Reply × Cell) : Bool :=
  match result with
  | (.done reply, cell) => reply = removedReply && cell.container.isNone
  | _ => false

/-- The workload of the run, and what a cleanup of the first generation does to
it when the state file cannot be read. -/
theorem launchedAndExtended_eq_some :
    ∃ s, run (System.step ⟨5, 60, 60⟩) launchedAndExtended smallSystem = some s ∧
      (∃ i ∈ s.db.instances, i.id = 1 ∧ i.active = true) ∧
      Outage.databaseFinished s.db overdueRecord = true ∧
      (∃ st, (s.hosts 100 1).stateFile = .document st ∧ st.generation = .int 2) ∧
      (s.hosts 100 1).container.isSome ∧
      ∃ cell, Helper.stopInstance 1 overdueRecord.stopRequest refusedVisit.env (s.hosts 100 1) =
        (.done removedReply, cell) ∧ cell.container = none := by
  have hrun : (run (System.step ⟨5, 60, 60⟩) launchedAndExtended smallSystem).any (fun s =>
      (s.db.instances.any fun i => i.id = 1 && i.active) &&
      Outage.databaseFinished s.db overdueRecord &&
      recordsSecond (s.hosts 100 1).stateFile && (s.hosts 100 1).container.isSome &&
      answersRemoved (Helper.stopInstance 1 overdueRecord.stopRequest refusedVisit.env
        (s.hosts 100 1))) = true := by decide +kernel
  simp only [Option.any_eq_true, List.any_eq_true, Bool.and_eq_true, decide_eq_true_eq] at hrun
  obtain ⟨s, hs, ⟨⟨⟨⟨i, hi, hid, hactive⟩, hfinished⟩, hstate⟩, hcontainer⟩, hstop⟩ := hrun
  refine ⟨s, hs, ⟨i, hi, hid, hactive⟩, hfinished, ?_, hcontainer, ?_⟩
  · unfold recordsSecond at hstate
    split at hstate
    · rename_i st hst
      exact ⟨st, hst, of_decide_eq_true hstate⟩
    · cases hstate
  · unfold answersRemoved at hstop
    split at hstop
    · rename_i reply cell hended
      simp only [Bool.and_eq_true, decide_eq_true_eq, Option.isNone_iff_eq_none] at hstop
      exact ⟨cell, hstop.1 ▸ hended, hstop.2⟩
    · cases hstop

/-- A run of the system is a run beside the journal. -/
theorem Outage.leads_system {config : Config} (codec : Codec) (ls : List Label) {s : Outage}
    {system : System} (h : run (System.step config) ls s.system = some system) :
    Leads (Outage.step config codec) anyStep s { s with system := system } := by
  have hruns : run (Outage.step config codec) (ls.map .system) s =
      some { s with system := system } := by
    induction ls generalizing s with
    | nil =>
        cases h
        rfl
    | cons l ls ih =>
        rw [run, Option.bind_eq_some_iff] at h
        obtain ⟨system₁, hstep, hrest⟩ := h
        rw [List.map_cons, run, Outage.step, hstep]
        exact ih (s := { s with system := system₁ }) hrest
  exact leads_of_run _ hruns

/-- The database is lost long after the first deadline; the extended workload
is removed, and once the database is back the record is acknowledged. -/
theorem outage_run : ∃ s s' t t',
    Reach (Outage.step ⟨5, 60, 60⟩ outageCodec) anyStep Outage.Initial s ∧
    Outage.step ⟨5, 60, 60⟩ outageCodec (.visit refusedVisit) s = some s' ∧
    (∀ record, s.At .cleaning record → record = overdueRecord) ∧
    (∃ st, (s.system.hosts 100 1).stateFile = .document st ∧ st.generation = .int 2) ∧
    (s.system.hosts 100 1).container.isSome ∧ (s'.system.hosts 100 1).container = none ∧
    Reach (Outage.step ⟨5, 60, 60⟩ outageCodec) anyStep Outage.Initial t ∧
    Outage.step ⟨5, 60, 60⟩ outageCodec (.settle quietReconciliation) t = some t' ∧
    t.At .reconciling (outageRecord .degradedCleanup) ∧ t'.journal ≠ t.journal ∧
    ∃ i ∈ t'.system.db.instances, i.id = 1 ∧ i.active = true := by
  obtain ⟨system, hrun, hinstance, hfinished, hstate, hcontainer, cell, hstop, hgone⟩ :=
    launchedAndExtended_eq_some
  obtain ⟨records, hrecords, hintent⟩ := (outageJournal_intact [.intent] (by simp)).read
  obtain ⟨records', hrecords', hdegraded⟩ :=
    (outageJournal_intact [.intent, .degradedCleanup] (by simp)).read
  have hinitial : Outage.Initial ⟨smallSystem, .fresh, .idle⟩ := ⟨smallSystem_initial, rfl⟩
  have hfirst : records.lookup (1, 2) = some overdueRecord := hintent (1, 2)
  have hsecond : records'.lookup (1, 2) = some (outageRecord .degradedCleanup) := hdegraded (1, 2)
  let s : Outage := ⟨system, outageJournal [.intent], .cleaning records [(1, 2)]⟩
  let s' : Outage := ⟨system.setHost 100 1 cell, outageJournal [.intent, .degradedCleanup],
    .cleaning records []⟩
  let t : Outage := { s' with loop := .reconciling records' [(1, 2)] }
  let t' : Outage := ⟨s'.system, outageJournal [.intent, .degradedCleanup, .databaseAcknowledged],
    .reconciling records' []⟩
  have hs : Reach (Outage.step ⟨5, 60, 60⟩ outageCodec) anyStep Outage.Initial s := by
    have hlaunched := (Reach.init hinitial).leads
      (Outage.leads_system outageCodec launchedAndExtended hrun)
    have hintended := Reach.step (.journal (outageAppend .intent)) hlaunched trivial rfl
    change Reach (Outage.step ⟨5, 60, 60⟩ outageCodec) anyStep Outage.Initial
      ⟨system, Disk.step outageCodec (outageJournal []) (outageAppend .intent), .idle⟩
      at hintended
    rw [← outageJournal_concat, List.nil_append] at hintended
    exact .step (.clean [(1, 2)]) hintended trivial (by rw [Outage.step, hrecords]; rfl)
  have hvisit : Outage.step ⟨5, 60, 60⟩ outageCodec (.visit refusedVisit) s = some s' := by
    have hexpired : ¬ refusedVisit.now < overdueRecord.effectiveExpiresAt := by decide
    have hcall : Helper.stopInstance overdueRecord.instanceId overdueRecord.stopRequest
        refusedVisit.env (system.hosts smallServer.id overdueRecord.instanceId) =
        (.done removedReply, cell) := hstop
    have hresult : refusedVisit.result (.done removedReply) = some (removedReply.journalled none) :=
      rfl
    have happend := outageJournal_concat [.intent] .degradedCleanup
    have hphase : overdueRecord.phase ≠ .degradedCleanup := by decide
    have hremote : overdueRecord.remoteServer = some smallServer := rfl
    have hreaches : refusedVisit.reaches = true := rfl
    simp only [Outage.step, s, s', hfirst, Outage.cleanUp, hphase, hexpired, hremote, hreaches,
      hcall, hresult, if_true, if_false, Outage.append, Option.some.injEq]
    rw [if_pos (.inl rfl)]
    change _ = Outage.mk _ (outageJournal ([.intent] ++ [.degradedCleanup])) _
    rw [happend]
    rfl
  have ht : Reach (Outage.step ⟨5, 60, 60⟩ outageCodec) anyStep Outage.Initial t :=
    .step (.reconcile [(1, 2)]) (.step (.visit refusedVisit) hs trivial hvisit) trivial
      (by rw [Outage.step, hrecords']; rfl)
  have hsettle : Outage.step ⟨5, 60, 60⟩ outageCodec (.settle quietReconciliation) t = some t' := by
    have happend := outageJournal_concat [.intent, .degradedCleanup] .databaseAcknowledged
    have hdone : Outage.databaseFinished (system.setHost 100 1 cell).db
        (outageRecord .degradedCleanup) = true := hfinished
    have hanswers : quietReconciliation.answers = true := rfl
    simp only [Outage.step, t, t', s', hsecond, Outage.reconcile, hanswers, hdone, if_true,
      Outage.append, Option.some.injEq]
    change _ = Outage.mk _
      (outageJournal ([.intent, .degradedCleanup] ++ [.databaseAcknowledged])) _
    rw [happend]
    rfl
  refine ⟨s, s', t, t', hs, hvisit, ?_, hstate, hcontainer, ?_, ht, hsettle, ?_, ?_, hinstance⟩
  · rintro record ⟨records₁, key, pending, hloop, hlookup⟩
    cases hloop
    rw [hfirst] at hlookup
    exact (Option.some.inj hlookup).symm
  · simp [s', System.setHost, hgone]
  · exact ⟨records', (1, 2), [], rfl, hsecond⟩
  · intro hsame
    have hreturned := congrArg (·.returned.length) hsame
    dsimp only [t, t', s'] at hreturned
    rw [show outageJournal [.intent, .degradedCleanup, .databaseAcknowledged] = _ from
      outageJournal_concat [.intent, .degradedCleanup] .databaseAcknowledged] at hreturned
    simp [Disk.step, outageAppend] at hreturned

/-- A cleanup that removes a workload was due. -/
theorem degraded_cleanup_safe_visited :
    ∃ s s', Outage.step ⟨5, 60, 60⟩ outageCodec (.visit refusedVisit) s = some s' ∧
      (s'.system.hosts 100 1).container = none ∧ s.Overdue refusedVisit 100 1 := by
  obtain ⟨s, s', -, -, hs, hvisit, -, -, hthere, hgone, -⟩ := outage_run
  have hchanged : s'.system.hosts 100 1 ≠ s.system.hosts 100 1 := by
    intro hsame
    rw [← hsame, hgone] at hthere
    cases hthere
  exact ⟨s, s', hvisit, hgone,
    ((degraded_cleanup_safe ⟨5, 60, 60⟩ outageCodec s hs).2.1 refusedVisit s' hvisit).2 100 1
      hchanged⟩

/-- A workload that was extended is removed when the helper is refused its
state file, and the record of the cleanup is acknowledged without a projection
of the instance. -/
theorem degraded_cleanup_removes_extended :
    (¬ ∀ (codec : Codec) s, Reach (Outage.step ⟨5, 60, 60⟩ codec) anyStep Outage.Initial s →
      ∀ v s', Outage.step ⟨5, 60, 60⟩ codec (.visit v) s = some s' → ∀ server u,
        (s.system.hosts server u).container.isSome → (s'.system.hosts server u).container = none →
        ∀ st n, (s.system.hosts server u).stateFile = .document st → st.generation = .int n →
          ∃ record, s.At .cleaning record ∧ n ≤ record.generation) ∧
    ¬ ∀ (codec : Codec) s, Reach (Outage.step ⟨5, 60, 60⟩ codec) anyStep Outage.Initial s →
      ∀ r s', Outage.step ⟨5, 60, 60⟩ codec (.settle r) s = some s' →
        ∀ record, s.At .reconciling record → record.phase = .degradedCleanup →
          s'.journal ≠ s.journal →
          ∀ i ∈ s'.system.db.instances, i.id = record.instanceId → i.active = false := by
  obtain ⟨s, s', t, t', hs, hvisit, honly, ⟨st, hst, hgeneration⟩, hthere, hgone, ht, hsettle,
    hat, hjournal, i, hi, hid, hactive⟩ := outage_run
  refine ⟨fun hall => ?_, fun hall => ?_⟩
  · obtain ⟨record, hrecord, hle⟩ :=
      hall outageCodec s hs refusedVisit s' hvisit 100 1 hthere hgone st 2 hst hgeneration
    rw [honly record hrecord] at hle
    exact absurd hle (by decide)
  · have hinactive := hall outageCodec t ht quietReconciliation t' hsettle _ hat rfl hjournal i hi hid
    rw [hactive] at hinactive
    cases hinactive

end CtfZone
