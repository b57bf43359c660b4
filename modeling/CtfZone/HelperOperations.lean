/-
# The operations of the runtime helper

The functions of `remote-helper/ctfzone-runtime-helper` that touch one UUID,
under the source's names: the state and tombstone files, the expiry timers, the
verified removals, and the operations `ensure-instance`, `inspect-instance`,
`stop-instance`, `update-deadline`, `expire-instance` and one round of
`sweep-instances`.

`validate_deployment` and the parsing of the request stand outside: a request
carries the deployment after validation (`none` when the validation raises) and
its deadline as the reader of `expires_at` finds it.  The arguments of the
engine's `run` command that set limits are left out, since nothing the helper
does later depends on them.
-/
import CtfZone.HelperHost

open Effects Effects.Prog

namespace CtfZone.Helper

/-! ## Requests and replies -/

/-- The request of an operation.  `deployment` is `none` when
`validate_deployment` raises on it. -/
structure Request where
  generation : Raw
  expiresAt : DeadlineText
  deployment : Option Deployment
  flagValue : Option String
  deriving DecidableEq

/-- The object an operation prints; `none` stands for a missing field and for
`null`. -/
structure Reply where
  containerId : Option String := none
  remoteIp : Option String := none
  containerPort : Option ℕ := none
  publishedIp : Option String := none
  publishedPort : Option ℕ := none
  protocol : Option String := none
  publicHostname : Option String := none
  endpointUrl : Option String := none
  effectiveExpiresAt : DeadlineText := .missing
  effectiveGeneration : Option ℤ := none
  absent : Option Bool := none
  ready : Option Bool := none
  runtimeStatus : Option RuntimeStatus := none
  healthStatus : Option HealthStatus := none
  staleGeneration : Option Bool := none
  deriving DecidableEq

/-- `generation(request)`: a positive integer that is not a boolean. -/
def generation (request : Request) : Helper ℤ :=
  match request.generation with
  | .int n => if 0 < n then pure n else raise (.helperError "generation is invalid")
  | _ => raise (.helperError "generation is invalid")

/-- `parse_deadline`. -/
def parseDeadline : DeadlineText → Helper Time
  | .missing => raise (.helperError "expires_at is required")
  | .malformed => raise (.helperError "expires_at is invalid")
  | .naive => raise (.helperError "expires_at must include a timezone")
  | .outOfRange => raise .other
  | .instant t => pure t

/-- `except HelperError: …`, which lets every other exception through. -/
def onHelperError {α : Type} (m : Helper α) (handler : Helper α) : Helper α :=
  attempt m fun e =>
    match e with
    | .helperError _ => handler
    | e => raise e

/-- `except Exception: …; raise`. -/
def andReraise {α : Type} (m : Helper α) (handler : Helper PUnit) : Helper α :=
  attempt m fun e => do handler; raise e

/-! ## State and tombstone files -/

/-- `read_state`. -/
def readState (p : Phase) (identifier : Uuid) : Helper (Option InstanceState) := do
  let data ← readJson p .readState (·.stateFile) "instance state is unreadable"
    "instance state is corrupt"
  match data with
  | none => pure none
  | some state =>
    if state.instanceId ≠ identifier then raise (.helperError "instance state is corrupt")
    else pure (some state)

/-- `read_state` behind `except HelperError: state = None`. -/
def readStateOrNone (p : Phase) (identifier : Uuid) : Helper (Option InstanceState) :=
  onHelperError (readState p identifier) (pure none)

/-- The common body of `write_state` and `write_tombstone`: a temporary file is
written, synced and renamed over the target, then the directory is synced. -/
def replaceFile (p : Phase) (file : FileKind) (install : Cell → Cell) : Helper PUnit := do
  fileCall p (.makeDirectory file) id
  fileCall p (.makeTemporary file) id
  always
    (do
      fileCall p (.writeTemporary file) id
      fileCall p (.changeMode file) id
      fileCall p (.replace file) install
      fileCall p (.openDirectory file) id
      fileCall p (.syncDirectory file) id)
    (fileCall p (.unlinkTemporary file) id)

/-- `write_state`. -/
def writeState (p : Phase) (state : InstanceState) : Helper PUnit :=
  replaceFile p .state fun s => { s with stateFile := .document state }

/-- `remove_state`. -/
def removeState (p : Phase) : Helper PUnit :=
  fileCall p .unlinkState fun s => { s with stateFile := .missing }

/-- The generation of a tombstone that `read_tombstone` accepts. -/
def Tombstone.validGeneration (identifier : Uuid) (t : Tombstone) : Option ℤ :=
  if t.instanceId ≠ identifier ∨ t.blocked ≠ .bool true then none
  else
    match t.generation with
    | .int n => if 0 < n then some n else none
    | _ => none

/-- `read_tombstone`, which returns the generation of the tombstone. -/
def readTombstone (p : Phase) (st : Step) (identifier : Uuid) : Helper (Option ℤ) := do
  let data ← readJson p st (·.tombstoneFile) "instance tombstone is unreadable"
    "instance tombstone is corrupt"
  match data with
  | none => pure none
  | some tombstone =>
    match Tombstone.validGeneration identifier tombstone with
    | some n => pure (some n)
    | none => raise (.helperError "instance tombstone is corrupt")

/-- `write_tombstone`: a tombstone that cannot be read is replaced. -/
def writeTombstone (p : Phase) (identifier : Uuid) (stoppedGeneration : ℤ) :
    Helper PUnit :=
  if stoppedGeneration ≤ 0 then raise (.helperError "tombstone generation is invalid")
  else do
    let existing ← onHelperError (readTombstone p .readExisting identifier) (pure none)
    let highestGeneration := max stoppedGeneration (existing.getD 0)
    replaceFile p .tombstone fun s =>
      { s with tombstoneFile :=
          .document ⟨identifier, .int highestGeneration, .bool true⟩ }

/-! ## Expiry timers -/

/-- The unit is stopped. -/
def Cell.dropTimer (unit : Option ℤ) (s : Cell) : Cell :=
  { s with timers := Function.update s.timers unit none }

@[simp] theorem Cell.dropTimer_container (u : Option ℤ) (s : Cell) :
    (Cell.dropTimer u s).container = s.container := rfl

@[simp] theorem Cell.dropTimer_stateFile (u : Option ℤ) (s : Cell) :
    (Cell.dropTimer u s).stateFile = s.stateFile := rfl

@[simp] theorem Cell.dropTimer_tombstoneFile (u : Option ℤ) (s : Cell) :
    (Cell.dropTimer u s).tombstoneFile = s.tombstoneFile := rfl

@[simp] theorem Cell.dropTimer_self (u : Option ℤ) (s : Cell) :
    (Cell.dropTimer u s).timers u = none := Function.update_self ..

theorem Cell.dropTimer_of_ne {u v : Option ℤ} (h : v ≠ u) (s : Cell) :
    (Cell.dropTimer u s).timers v = s.timers v := Function.update_of_ne h ..

/-- `cancel_timer`: no exit status is checked. -/
def cancelTimer (p : Phase) (unit : Option ℤ) : Helper PUnit := do
  let _ ← command p (.timerStop unit) (Cell.dropTimer unit) fun _ => true
  let _ ← command p (.timerReset unit) id fun _ => true

/-- `if generation is not None and generation != kept: cancel_timer(…)`. -/
def cancelOther (p : Phase) (kept : Option ℤ) : Option ℤ → Helper PUnit
  | none => pure ⟨⟩
  | some g => if some g ≠ kept then cancelTimer p (some g) else pure ⟨⟩

/-- `timer_is_active`. -/
def timerIsActive (p : Phase) (st : Step) (g : ℤ) : Helper Bool :=
  command p st id fun s => (s.timers (some g)).isSome

/-- A transient unit is created; an active unit of the same name is left
alone, and the command fails. -/
def Cell.installTimer (g : ℤ) (calendar : ℤ) (s : Cell) : Cell :=
  if (s.timers (some g)).isSome then s
  else { s with timers := Function.update s.timers (some g) (some calendar) }

@[simp] theorem Cell.installTimer_container (g calendar : ℤ) (s : Cell) :
    (Cell.installTimer g calendar s).container = s.container := by
  unfold Cell.installTimer
  split <;> rfl

@[simp] theorem Cell.installTimer_stateFile (g calendar : ℤ) (s : Cell) :
    (Cell.installTimer g calendar s).stateFile = s.stateFile := by
  unfold Cell.installTimer
  split <;> rfl

@[simp] theorem Cell.installTimer_tombstoneFile (g calendar : ℤ) (s : Cell) :
    (Cell.installTimer g calendar s).tombstoneFile = s.tombstoneFile := by
  unfold Cell.installTimer
  split <;> rfl

@[simp] theorem Cell.installTimer_self (g calendar : ℤ) (s : Cell) :
    (Cell.installTimer g calendar s).timers (some g) =
      some ((s.timers (some g)).getD calendar) := by
  unfold Cell.installTimer
  split
  · rename_i h
    obtain ⟨c, hc⟩ := Option.isSome_iff_exists.mp h
    simp [hc]
  · rename_i h
    rw [Option.not_isSome_iff_eq_none] at h
    simp [h, Function.update_self]

theorem Cell.installTimer_of_ne {g : ℤ} {u : Option ℤ} (h : u ≠ some g) (calendar : ℤ)
    (s : Cell) : (Cell.installTimer g calendar s).timers u = s.timers u := by
  unfold Cell.installTimer
  split
  · rfl
  · exact Function.update_of_ne h ..

/-- `schedule_timer`; no caller passes `previous_generation`. -/
def scheduleTimer (p : Phase) (expectedGeneration : ℤ) (expiresAt : Time) :
    Helper PUnit := do
  let now ← read (·.clock .schedule)
  if expiresAt ≤ now then
    raise (.helperError "cannot schedule an elapsed expiry deadline")
  else do
    if ← timerIsActive p .timerProbe expectedGeneration then
      cancelTimer p none
    else do
      let started ← command p .timerInstall
        (Cell.installTimer expectedGeneration (calendarSecond expiresAt))
        fun s => (s.timers (some expectedGeneration)).isNone
      if started then do
        if ← timerIsActive p .timerReprobe expectedGeneration then
          cancelTimer p none
        else raise (.helperError "expiry timer was not activated")
      else raise (.helperError "command failed: systemd-run")

/-! ## Inspection and removal -/

/-- `inspect_raw`. -/
def inspectRaw (p : Phase) (st : Step) : Helper (Option Container) :=
  query p st (·.container) "container inspection failed"

/-- `network_exists`. -/
def networkExists (p : Phase) (st : Step) : Helper Bool :=
  query p st (·.network) "challenge network inspection failed"

/-- `state_generation`: the generation of the state, else the label. -/
def stateGeneration (state : Option InstanceState) (inspection : Option Container) :
    Option ℤ :=
  match state.map InstanceState.generation with
  | some (Raw.int n) => if 0 < n then some n else labelGeneration inspection
  | _ => labelGeneration inspection
where
  labelGeneration (inspection : Option Container) : Option ℤ :=
    (inspection.bind (·.generationLabel)).filter (0 < ·)

/-- `remove_container_verified`. -/
def removeContainerVerified (p : Phase) : Helper PUnit := do
  let _ ← command p .remove (fun s => { s with container := none }) fun _ => true
  if (← inspectRaw p .confirmRemoved).isSome then
    raise (.helperError "container still exists after forced removal")
  else pure ⟨⟩

/-- A network with a container attached cannot be removed. -/
def Cell.dropNetwork (s : Cell) : Cell :=
  if s.container.isNone then { s with network := false } else s

/-- `remove_network_verified`. -/
def removeNetworkVerified (p : Phase) : Helper PUnit := do
  let _ ← command p .networkRemove Cell.dropNetwork fun s => s.container.isNone
  if ← networkExists p .networkConfirm then
    raise (.helperError "per-instance challenge network still exists after removal")
  else pure ⟨⟩

/-- `remove_workload_verified`. -/
def removeWorkloadVerified (p : Phase) : Helper PUnit := do
  removeContainerVerified p
  removeNetworkVerified p

/-- `remove_irrecoverable_instance_unlocked`. -/
def removeIrrecoverable (p : Phase) (identifier : Uuid) (inspection : Container) :
    Helper PUnit := do
  let blockedGeneration := (stateGeneration none (some inspection)).getD 1
  writeTombstone p identifier blockedGeneration
  removeWorkloadVerified p
  cancelTimer p (some blockedGeneration)
  cancelTimer p none
  removeState p

/-! ## Startup -/

/-- The container changes or disappears by itself. -/
def Cell.drift (d : Drift) (s : Cell) : Cell :=
  match d with
  | .same => s
  | .becomes runtime =>
    { s with container := s.container.map fun c =>
        { c with view := { c.view with runtime := runtime } } }
  | .gone => { s with container := none }

/-- The text of a terminal status. -/
def terminalStatusText : RuntimeStatus → Option String
  | .dead => some "dead"
  | .exited => some "exited"
  | .removing => some "removing"
  | _ => none

/-- The error of a startup that takes too long. -/
def startupTimeout (deployment : Deployment) : Exc :=
  .helperError ("container did not become " ++
    (if deployment.expectsHealth then "healthy" else "running") ++ " within " ++
    toString (match deployment.startupTimeoutSeconds with
      | some (n + 1) => n + 1
      | _ => 45) ++ " seconds")

/-- `wait_for_startup`, one round for each entry of the list. -/
def waitForStartup (deployment : Deployment) : List Poll → Helper PUnit
  | [] => raise (startupTimeout deployment)
  | poll :: rest => do
    modify (Cell.drift poll.drift)
    let inspection ← pollInspect poll
    match inspection with
    | none => raise (.helperError "container disappeared during startup")
    | some c =>
      let runtime := c.view.runtime
      match runtime.running, runtime.status.bind terminalStatusText with
      | false, some text =>
        raise (.helperError ("container entered terminal startup state: " ++ text))
      | _, _ =>
        if runtime.running ∧
            (¬ deployment.expectsHealth ∨ runtime.health = some .healthy) then pure ⟨⟩
        else if poll.elapsed then raise (startupTimeout deployment)
        else waitForStartup deployment rest
where
  /-- `inspect_raw` with the fault of the round. -/
  pollInspect (poll : Poll) : Helper (Option Container) := fun env =>
    inspectRaw .request .inspect { env with fault := fun _ _ => poll.fault }

/-- The text of `endpoint_url`. -/
def endpointUrl (protocol : String) (publicHostname publishedIp : Option String)
    (publishedPort : Option ℕ) : Option String :=
  if protocol = "http" ∨ protocol = "https" then
    match publicHostname <|> publishedIp, publishedPort with
    | some host, some port =>
      if host = "0.0.0.0" ∨ host = "::" then none
      else some (protocol ++ "://" ++ host ++ ":" ++ toString port)
    | _, _ => none
  else none

/-- `inspect_result`. -/
def inspectResult (p : Phase) (identifier : Uuid) : Helper Reply := do
  match ← inspectRaw p .inspect with
  | none => pure { absent := some true }
  | some inspection => do
    let state ← readStateOrNone p identifier
    if inspection.instanceLabel ≠ some identifier then
      raise (.helperError "container identity label does not match")
    else
      match state with
      | none => do
        let effectiveGeneration := (stateGeneration none (some inspection)).getD 1
        removeIrrecoverable p identifier inspection
        pure { absent := some true, staleGeneration := some true,
               effectiveGeneration := some effectiveGeneration, ready := some false }
      | some st =>
        match st.deployment with
        | none => raise .other
        | some deployment => do
          let hostname ← read (·.publicHostname)
          let view := inspection.view
          let ready := view.runtime.running &&
            (! deployment.expectsHealth || view.runtime.health = some .healthy)
          pure {
            containerId := some view.id
            remoteIp := view.remoteIp
            containerPort := some deployment.containerPort
            publishedIp := view.binding.hostIp
            publishedPort := view.binding.hostPort
            protocol := some deployment.protocol
            publicHostname := hostname
            endpointUrl := endpointUrl deployment.protocol hostname view.binding.hostIp
              view.binding.hostPort
            effectiveExpiresAt := st.expiresAt
            effectiveGeneration := stateGeneration (some st) (some inspection)
            absent := some false
            ready := some ready
            runtimeStatus := view.runtime.status
            healthStatus := view.runtime.health }

/-! ## The operations -/

/-- `flag_fingerprint`. -/
def flagFingerprint (flagValue : Option String) : Helper (Option String) := do
  let sha256 ← read (·.sha256)
  pure (flagValue.map sha256)

/-- `same_flag_configuration`: a stored fingerprint is 64 lowercase hex digits
or absent. -/
def sameFlagConfiguration (state : InstanceState) (fingerprint : Option String) : Bool :=
  match state.flagFingerprint with
  | .null => fingerprint.getD "" = ""
  | .text stored =>
    stored.length = 64 && stored.toList.all ("0123456789abcdef".toList.contains ·) &&
      stored = fingerprint.getD ""
  | _ => false

/-- `ensure_network`. -/
def ensureNetwork : Helper PUnit := do
  if ← networkExists .request .networkProbe then pure ⟨⟩
  else do
    let created ← command .request .networkCreate (fun s => { s with network := true })
      fun s => ! s.network
    if created then pure ⟨⟩
    else if ← networkExists .request .networkReprobe then pure ⟨⟩
    else raise (.helperError "challenge network creation failed")

/-- The engine creates the container with the labels of the request, unless the
name is taken or the network is missing. -/
def Cell.createContainer (identifier : Uuid) (g : ℤ) (view : EngineView) (s : Cell) : Cell :=
  if s.container.isNone ∧ s.network then
    { s with container := some ⟨some identifier, some g, view⟩ }
  else s

/-- The engine's `run` command; when it fails, the network is removed. -/
def runContainer (identifier : Uuid) (g : ℤ) : Helper PUnit := do
  let view ← read (·.created)
  andReraise
    (do
      let started ← command .request .runContainer (Cell.createContainer identifier g view)
        fun s => s.container.isNone && s.network
      if started then pure ⟨⟩ else raise (.helperError "command failed: run"))
    (removeNetworkVerified .recovery)

/-- The new state of `ensure_instance`. -/
def newState (identifier : Uuid) (g : ℤ) (expiresAt : Time) (deployment : Deployment)
    (fingerprint : Option String) : InstanceState where
  instanceId := identifier
  generation := .int g
  expiresAt := .instant expiresAt
  deployment := some deployment
  flagFingerprint := fingerprint.elim .null .text

/-- The last part of `ensure_instance`: timer, state and startup, undone when
the container is new. -/
def commitInstance (identifier : Uuid) (g : ℤ) (expiresAt : Time) (deployment : Deployment)
    (state : InstanceState) (previousGeneration : Option ℤ) (created : Bool) :
    Helper Reply :=
  andReraise
    (do
      scheduleTimer .request g expiresAt
      writeState .request state
      cancelOther .request (some g) previousGeneration
      let polls ← read (·.polls)
      waitForStartup deployment polls
      let settled ← read (·.settled)
      modify (Cell.drift settled)
      let result ← inspectResult .result identifier
      pure { result with effectiveGeneration := some g })
    (if created then do
      removeWorkloadVerified .recovery
      cancelTimer .recovery (some g)
      removeState .recovery
    else pure ⟨⟩)

/-- `ensure_instance` once the request has passed its checks and no tombstone
was found. -/
def ensureUnfenced (identifier : Uuid) (g : ℤ) (expiresAt : Time) (deployment : Deployment)
    (flagValue : Option String) : Helper Reply := do
  let fingerprint ← flagFingerprint flagValue
  let existing ← inspectRaw .request .inspect
  let previousState ← readStateOrNone .request identifier
  let previousGeneration := stateGeneration previousState existing
  let state := newState identifier g expiresAt deployment fingerprint
  match existing, previousState with
  | some container, none => do
    removeIrrecoverable .request identifier container
    pure { absent := some true, staleGeneration := some true,
           effectiveGeneration := some ((stateGeneration none (some container)).getD g) }
  | some container, some existingState =>
    match previousGeneration with
    | none => do
      removeIrrecoverable .request identifier container
      pure { absent := some true, staleGeneration := some true,
             effectiveGeneration := some g }
    | some previous =>
      if ¬ sameFlagConfiguration existingState fingerprint then
        raise (.helperError "existing container flag configuration does not match request")
      else if previous ≠ g then
        -- newer or older: immutable labels and environment cannot be advanced
        pure { absent := some false, staleGeneration := some true,
               effectiveGeneration := some previous }
      else if container.instanceLabel ≠ some identifier then
        raise (.helperError "existing container has an invalid identity label")
      else commitInstance identifier g expiresAt deployment state previousGeneration false
  | none, _ =>
    if previousGeneration.any (g < ·) then
      pure { absent := some false, staleGeneration := some true,
             effectiveGeneration := previousGeneration }
    else do
      ensureNetwork
      runContainer identifier g
      commitInstance identifier g expiresAt deployment state previousGeneration true

/-- `ensure_instance`. -/
def ensureInstance (identifier : Uuid) (request : Request) : Helper Reply := do
  let g ← generation request
  match ← readTombstone .request .readTombstone identifier with
  | some fenced => do
    let container ← inspectRaw .request .inspect
    pure { absent := some container.isNone, staleGeneration := some true,
           effectiveGeneration := some fenced }
  | none => do
    let expiresAt ← parseDeadline request.expiresAt
    let now ← read (·.clock .check)
    if expiresAt ≤ now then
      raise (.helperError "cannot start an instance with an elapsed deadline")
    else
      match request.deployment with
      | none => raise (.helperError "deployment is invalid")
      | some deployment => ensureUnfenced identifier g expiresAt deployment request.flagValue

/-- `stop_instance`. -/
def stopInstance (identifier : Uuid) (request : Request) : Helper Reply := do
  let g ← generation request
  let inspection ← inspectRaw .request .inspect
  let state ← readStateOrNone .request identifier
  let effectiveGeneration := stateGeneration state inspection
  match inspection, state with
  | some container, none => do
    removeIrrecoverable .request identifier container
    pure { absent := some true, staleGeneration := some false,
           effectiveGeneration := some (effectiveGeneration.getD g) }
  | _, _ =>
    if effectiveGeneration.any (g < ·) then
      pure { absent := some false, staleGeneration := some true,
             effectiveGeneration := effectiveGeneration }
    else do
      writeTombstone .request identifier (max g (effectiveGeneration.getD g))
      removeWorkloadVerified .request
      cancelOther .request none effectiveGeneration
      cancelTimer .request none
      removeState .request
      pure { absent := some true, staleGeneration := some false,
             effectiveGeneration := some (effectiveGeneration.getD g) }

/-- The part of `update_deadline` that makes a new generation durable: the
state switch, undone by cancelling the new timer when it raises, and the end of
the old timer. -/
def switchDeadline (previous g : ℤ) (state : InstanceState) : Helper PUnit := do
  andReraise (writeState .request state)
    (if g ≠ previous then cancelTimer .recovery (some g) else pure ⟨⟩)
  cancelOther .request (some g) (some previous)

/-- `update_deadline`. -/
def updateDeadline (identifier : Uuid) (request : Request) : Helper Reply := do
  let g ← generation request
  let expiresAt ← parseDeadline request.expiresAt
  match ← readTombstone .request .readTombstone identifier with
  | some fenced => do
    let container ← inspectRaw .request .inspect
    pure { effectiveGeneration := some fenced, staleGeneration := some true,
           absent := some container.isNone }
  | none => do
    let inspection ← inspectRaw .request .inspect
    let state ← readStateOrNone .request identifier
    match inspection, state with
    | some container, none => do
      removeIrrecoverable .request identifier container
      pure { effectiveGeneration := some ((stateGeneration none (some container)).getD g),
             staleGeneration := some true, absent := some true }
    | some container, some st =>
      match stateGeneration (some st) (some container) with
      | none =>
        raise (.helperError "cannot extend an instance with invalid generation state")
      | some previous =>
        if g < previous then
          pure { effectiveExpiresAt := st.expiresAt, effectiveGeneration := some previous,
                 staleGeneration := some true, absent := some false }
        else do
          let now ← read (·.clock .check)
          if expiresAt ≤ now then
            raise (.helperError "cannot extend an instance to an elapsed deadline")
          else do
            scheduleTimer .request g expiresAt
            switchDeadline previous g
              { st with generation := .int g, expiresAt := .instant expiresAt }
            pure { effectiveExpiresAt := .instant expiresAt, effectiveGeneration := some g,
                   staleGeneration := some false, absent := some false }
    | none, _ => raise (.helperError "cannot extend an absent instance")

/-- `expire_instance_unlocked`. -/
def expireInstance (p : Phase) (identifier : Uuid) (expectedGeneration : ℤ) :
    Helper PUnit :=
  if expectedGeneration ≤ 0 then raise (.helperError "timer invocation is invalid")
  else do
    match ← readState p identifier with
    | none => pure ⟨⟩
    | some state =>
      if ¬ state.generation.equalsInt expectedGeneration then pure ⟨⟩
      else do
        let expiresAt ← parseDeadline state.expiresAt
        let now ← read (·.clock .expire)
        if now + seconds 1 < expiresAt then scheduleTimer p expectedGeneration expiresAt
        else do
          writeTombstone p identifier expectedGeneration
          removeWorkloadVerified p
          removeState p

/-- What one round of the sweep counts. -/
inductive Swept
  | kept | removed | rearmed
  deriving DecidableEq

/-- The round of `sweep_instances` for one UUID, inside its lock.  `now` is read
once for the whole sweep. -/
def sweepInstance (identifier : Uuid) : Helper Swept := do
  let now ← read (·.now)
  let inspection ← inspectRaw .request .inspect
  let state ← readStateOrNone .request identifier
  let tombstone ← onHelperError (readTombstone .request .readTombstone identifier) (do
    let blockedGeneration := (stateGeneration state inspection).getD 1
    writeTombstone .request identifier blockedGeneration
    pure (some blockedGeneration))
  match tombstone with
  | some fenced => do
    removeWorkloadVerified .request
    cancelTimer .request (some fenced)
    cancelOther .request (some fenced) (stateGeneration state none)
    cancelTimer .request none
    removeState .request
    pure (if inspection.isSome then .removed else .kept)
  | none =>
    match inspection with
    | none => do
      fenceKnown identifier (stateGeneration state none)
      removeNetworkVerified .request
      removeState .request
      cancelOther .request none (stateGeneration state none)
      cancelTimer .request none
      pure .kept
    | some container =>
      if container.instanceLabel ≠ some identifier then
        raise (.helperError "managed container has an invalid identity label")
      else
        match state with
        | none => do
          removeIrrecoverable .request identifier container
          pure .removed
        | some st =>
          match stateGeneration (some st) (some container) with
          | none => do
            removeIrrecoverable .request identifier container
            pure .removed
          | some effectiveGeneration =>
            sweepReadable now identifier container st effectiveGeneration
where
  /-- `if generation is not None: write_tombstone(…)`. -/
  fenceKnown (identifier : Uuid) : Option ℤ → Helper PUnit
    | some g => writeTombstone .request identifier g
    | none => pure ⟨⟩
  /-- The round for a container with a readable state and a generation. -/
  sweepReadable (now : Time) (identifier : Uuid) (container : Container)
      (st : InstanceState) (effectiveGeneration : ℤ) : Helper Swept := do
    let deadline ← onHelperError (some <$> parseDeadline st.expiresAt) (pure none)
    match deadline with
    | none => do
      removeIrrecoverable .request identifier container
      pure .removed
    | some expiresAt =>
      if expiresAt ≤ now then do
        expireInstance .result identifier effectiveGeneration
        pure .removed
      else if ← timerIsActive .request .sweepProbe effectiveGeneration then pure .kept
      else do
        scheduleTimer .request effectiveGeneration expiresAt
        pure .rearmed

end CtfZone.Helper
