/-
# Transactions on flag definitions

The requests that write flag definitions, statement by statement: challenges
are created, edited and deleted (`challenges.rs`), flags are created, edited,
moved and deleted (`administration.rs`), and participants launch instances
(`runtimes.rs`, `flag_policy.rs`).  Every query reads by itself what is
committed at that moment.

A request that is refused for anything else it carries ends like one that is
given up, and so does one whose connection is lost.
-/
import CtfZone.LockedTransactions
import CtfZone.SubmissionHistory
import Mathlib.Data.List.MinMax
import Mathlib.Data.List.Sort

namespace CtfZone.FlagDefinitions

open Journal Locking Locking.Program Tables
open Submissions (saveFlag generatedUnique definitionChanged FlagPatch required)

variable {crates : Crates}

/-! ## Tables -/

/-- A row of `challenges`. -/
structure Challenge where
  id : ℤ
  exposure : String
  state : String

/-- A row of `challenge_runtime_configs`. -/
structure RuntimeConfigRow extends RuntimeConfigInput where
  challengeId : ℤ

/-- A row of `runtime_instances`. -/
structure InstanceRow where
  ownerUserId : ℤ
  challengeId : ℤ
  deploymentSnapshot : Json
  active : Bool

/-- The tables the requests read; `gateEnabled` is the setting `private_challenges`. -/
structure FlagTables (crates : Crates) where
  challenges : List Challenge
  flags : List (SavedFlag crates)
  userChallengeFlags : List UserChallengeFlag
  runtimeConfigs : List RuntimeConfigRow
  runtimeInstances : List InstanceRow
  gateEnabled : Bool

/-- The keys of the advisory locks, in the name space of challenges and in that of
generated flags. -/
inductive LockKey
  | challengeFlag (challengeId : ℤ)
  | generatedFlag (flagId : ℤ)
  deriving DecidableEq

/-- The sequences of the ids. -/
inductive Sequence
  | challenges
  | flags
  deriving DecidableEq

/-- What a request does in its transaction. -/
abbrev Transaction (crates : Crates) := Program (FlagTables crates) LockKey Sequence String

namespace FlagTables

variable (t : FlagTables crates)

/-- The row of a challenge. -/
def challenge (challengeId : ℤ) : Option Challenge := t.challenges.find? (·.id = challengeId)

/-- The row of a flag. -/
def flag (flagId : ℤ) : Option (SavedFlag crates) := t.flags.find? (·.id = flagId)

/-- `SELECT COUNT(*) FROM ctfzone.flags WHERE challenge_id=$1`. -/
def flagCount (challengeId : ℤ) : ℕ := t.flags.countP (·.challengeId = challengeId)

/-- The generated flags of a challenge. -/
def generatedFlags (challengeId : ℤ) : List (SavedFlag crates) :=
  t.flags.filter fun flag => flag.challengeId = challengeId && flag.flagType = "generated"

/-- Some user holds a value of the flag. -/
def assigned (flagId : ℤ) : Bool := t.userChallengeFlags.any (·.flagId = flagId)

/-- `challenge_has_active_runtime`. -/
def active (challengeId : ℤ) : Bool :=
  t.runtimeInstances.any fun row => row.challengeId = challengeId && row.active

/-- The configuration of the runtime of a challenge. -/
def runtimeConfig (challengeId : ℤ) : Option RuntimeConfigRow :=
  t.runtimeConfigs.find? (·.challengeId = challengeId)

end FlagTables

/-! ## Statements -/

/-- A check between two statements. -/
def check (condition : Bool) (error : String) : Transaction crates Unit :=
  liftExcept (ensure condition error)

/-- A query for one row. -/
def fetchOne {α : Type} (row : FlagTables crates → Option α) (error : String) :
    Transaction crates α := do
  let row ← select row
  liftExcept (required row error)

/-- `lock_challenge_definition`. -/
def lockChallengeDefinition (challengeId : ℤ) : Transaction crates Unit :=
  acquire (.challengeFlag challengeId)

/-- The locks of several challenges, one after another. -/
def lockChallengeDefinitions : List ℤ → Transaction crates Unit
  | [] => pure ⟨⟩
  | challengeId :: ids => do
    lockChallengeDefinition challengeId
    lockChallengeDefinitions ids

/-- `INSERT INTO ctfzone.flags`, under the index of generated flags. -/
def insertFlag (flag : SavedFlag crates) : Transaction crates (SavedFlag crates) := do
  let id ← nextval .flags
  let row : SavedFlag crates := { flag with id := id }
  let unique ← select fun t => generatedUnique t.flags row
  check unique "The challenge already has a generated flag"
  change fun t => { t with flags := t.flags ++ [row] }
  pure row

/-- `prepare_private_challenge_gate`. -/
def preparePrivateChallengeGate (enable : Bool) : Transaction crates Bool := do
  let currentlyEnabled ← select FlagTables.gateEnabled
  if currentlyEnabled || ! enable then pure currentlyEnabled
  else
    change fun t => { t with gateEnabled := true }
    pure true

/-! ## Challenges -/

/-- The configuration of the runtime in the body of `create`. -/
structure RuntimeInput extends RuntimeConfigInput where
  enableGlobalGate : Bool

/-- The body of `create`. -/
structure ChallengeInput where
  exposure : String
  flagType : String
  content : String
  data : Json
  runtime : Option RuntimeInput
  state : Option String

/-- The configuration goes with the exposure. -/
def checkRuntime (exposure : String) : Option RuntimeInput → Except String Unit
  | some runtime => do
    ensure (exposure = "private") "Public challenges cannot define managed runtime configuration"
    ensure (runtime.runtimeMode = "managed") "Private challenges require a managed runtime"
  | none => ensure (exposure ≠ "private") "Private challenges require runtime configuration"

/-- The gate of a challenge with a runtime that is created. -/
def checkGate (state : String) : Option RuntimeInput → Transaction crates Unit
  | some runtime => do
    check (state = "hidden" || runtime.enabled)
      "Visible private challenges require an enabled managed runtime"
    let gateEnabled ← preparePrivateChallengeGate runtime.enableGlobalGate
    check (gateEnabled || state = "hidden")
      "Enable private challenge launches globally or save this challenge as hidden"
  | none => pure ⟨⟩

/-- `upsert_runtime_config` for a new challenge. -/
def insertRuntimeConfig (challengeId : ℤ) : Option RuntimeInput → Transaction crates Unit
  | some runtime => do
    let config ← liftExcept (upsertRuntimeConfig runtime.toRuntimeConfigInput)
    change fun t => { t with runtimeConfigs := t.runtimeConfigs ++ [⟨config, challengeId⟩] }
  | none => pure ⟨⟩

/-- `create`. -/
def createChallenge (input : ChallengeInput) : Transaction crates ℤ := do
  check (["public", "private"].contains input.exposure)
    "Challenge exposure must be public or private"
  let flag ← liftExcept
    (saveFlag crates 0 0 1 input.flagType input.content input.data input.exposure)
  liftExcept (checkRuntime input.exposure input.runtime)
  let state := input.state.getD "visible"
  check (["visible", "hidden", "locked"].contains state) "Unsupported challenge state"
  checkGate state input.runtime
  let n ← nextval .challenges
  let id : ℤ := n
  change fun t => { t with challenges := t.challenges ++ [⟨id, input.exposure, state⟩] }
  let _ ← insertFlag { flag with challengeId := id }
  insertRuntimeConfig id input.runtime
  pure id

/-- What the body of `update` says of the exposure and the state of a challenge. -/
structure ChallengePatch where
  exposure : Option String
  state : Option String
  enableGlobalGate : Option Bool

/-- `private_gate_enable_requested`. -/
def privateGateEnableRequested (patch : ChallengePatch) (exposure : String) :
    Except String Bool :=
  match patch.enableGlobalGate with
  | none => .ok false
  | some enable => do
    ensure (exposure = "private")
      "enable_global_gate is available only for private challenges"
    pure enable

/-- What `update` checks and does where the exposure changes. -/
def changeExposure (challengeId : ℤ) (current exposure : String) : Transaction crates Unit :=
  if exposure = current then pure ⟨⟩
  else do
    let active ← select (·.active challengeId)
    check (! active) "Stop the active challenge instances before changing exposure"
    if exposure = "private" then
      let managed ← select fun t => t.runtimeConfigs.any fun row =>
        row.challengeId = challengeId && row.runtimeMode = "managed"
      check managed "Configure a managed runtime before making the challenge private"
    else
      let generated ← select fun t => ! (t.generatedFlags challengeId).isEmpty
      check (! generated) "Replace the generated flag before making the challenge public"
      change fun t => { t with
        runtimeConfigs := t.runtimeConfigs.filter (·.challengeId ≠ challengeId) }

/-- The gate is opened if that is asked for. -/
def enableGate (enable : Bool) : Transaction crates Unit :=
  if enable then do
    let _ ← preparePrivateChallengeGate true
    pure ⟨⟩
  else pure ⟨⟩

/-- A private challenge that is shown can be launched. -/
def checkLaunchable (challengeId : ℤ) (exposure state : String) : Transaction crates Unit :=
  if exposure = "private" ∧ state ≠ "hidden" then do
    let launchable ← select fun t => t.gateEnabled && t.runtimeConfigs.any fun row =>
      row.challengeId = challengeId && row.enabled && row.runtimeMode = "managed"
    check launchable "Enable the private runtime and global launch gate before publishing"
  else pure ⟨⟩

/-- `update`. -/
def updateChallenge (challengeId : ℤ) (patch : ChallengePatch) : Transaction crates Unit := do
  lockChallengeDefinition challengeId
  let current ← fetchOne (·.challenge challengeId) "Challenge not found"
  let exposure := patch.exposure.getD current.exposure
  check (["public", "private"].contains exposure) "Challenge exposure must be public or private"
  let enableGlobalGate ← liftExcept (privateGateEnableRequested patch exposure)
  changeExposure challengeId current.exposure exposure
  let state := patch.state.getD current.state
  check (["visible", "hidden", "locked"].contains state) "Unsupported challenge state"
  enableGate enableGlobalGate
  checkLaunchable challengeId exposure state
  change fun t => { t with
    challenges := update (·.id = challengeId) (fun row => { row with exposure, state })
      t.challenges }

/-- The rows that go with a challenge, by the foreign keys. -/
def FlagTables.withoutChallenge (challengeId : ℤ) (t : FlagTables crates) : FlagTables crates :=
  { t with
    challenges := t.challenges.filter (·.id ≠ challengeId)
    flags := t.flags.filter (·.challengeId ≠ challengeId)
    userChallengeFlags := t.userChallengeFlags.filter (·.challengeId ≠ challengeId)
    runtimeConfigs := t.runtimeConfigs.filter (·.challengeId ≠ challengeId) }

/-- `delete_challenge`. -/
def deleteChallenge (challengeId : ℤ) : Transaction crates Unit := do
  lockChallengeDefinition challengeId
  let _ ← fetchOne (·.challenge challengeId) "Challenge not found"
  let (active, assignments) ← select fun t =>
    (t.active challengeId, t.userChallengeFlags.any (·.challengeId = challengeId))
  check (! active) "Stop the active challenge instances before deleting the challenge"
  check (! assignments) "Challenges with allocated per-user flags cannot be deleted"
  change (·.withoutChallenge challengeId)

/-! ## Flags -/

/-- `FlagInput`. -/
structure FlagInput where
  challengeId : ℤ
  flagType : String
  content : String
  data : Json

/-- `create_flag`. -/
def createFlag (input : FlagInput) : Transaction crates (SavedFlag crates) := do
  lockChallengeDefinition input.challengeId
  let challenge ← fetchOne (·.challenge input.challengeId) "Challenge not found"
  let active ← select (·.active input.challengeId)
  check (! active) "Stop the active challenge instances before changing flags"
  let flag ← liftExcept (saveFlag crates 0 input.challengeId 1 input.flagType input.content
    input.data challenge.exposure)
  insertFlag flag

/-- The ids of the challenges an edit locks, in their order. -/
def lockedIds (initialChallengeId requestedChallengeId : ℤ) : List ℤ :=
  if initialChallengeId = requestedChallengeId then [initialChallengeId]
  else [initialChallengeId, requestedChallengeId].insertionSort (· ≤ ·)

/-- A flag moves only from a challenge that keeps another one. -/
def checkSource (current flag : StoredFlag) : Transaction crates Unit :=
  if flag.challengeId = current.challengeId then pure ⟨⟩
  else do
    let sourceFlagCount ← select (·.flagCount current.challengeId)
    check (1 < sourceFlagCount) "A challenge must retain at least one flag definition"

/-- A flag moves only to a challenge without active instances. -/
def checkTarget (current flag : StoredFlag) : Transaction crates Unit :=
  if flag.challengeId = current.challengeId then pure ⟨⟩
  else do
    let active ← select (·.active flag.challengeId)
    check (! active) "Stop the active challenge instances before changing flags"

/-- What `update_flag` checks of a definition that changes. -/
def checkChange (changed : Bool) (current flag : StoredFlag) : Transaction crates Unit :=
  if changed then do
    checkSource current flag
    let assignments ← select (·.assigned current.id)
    check (! assignments) "Generated flag definitions cannot change after allocation"
    let active ← select (·.active current.challengeId)
    check (! active) "Stop the active challenge instances before changing flags"
    checkTarget current flag
  else pure ⟨⟩

/-- `update_flag`. -/
def updateFlag (flagId : ℤ) (patch : FlagPatch) : Transaction crates (SavedFlag crates) := do
  let initial ← fetchOne (·.flag flagId) "Flag not found"
  lockChallengeDefinitions
    (lockedIds initial.challengeId (patch.challengeId.getD initial.challengeId))
  let current ← fetchOne (·.flag flagId) "Flag not found"
  check (current.challengeId = initial.challengeId)
    "The flag changed concurrently; reload it and try again"
  let challengeId := patch.challengeId.getD current.challengeId
  let challenge ← fetchOne (·.challenge challengeId) "Challenge not found"
  let flag ← liftExcept (saveFlag crates flagId challengeId current.revision
    (patch.flagType.getD current.flagType) (patch.content.getD current.content)
    (patch.data.getD current.data) challenge.exposure)
  let changed := definitionChanged current.toStoredFlag flag.toStoredFlag
  checkChange changed current.toStoredFlag flag.toStoredFlag
  let saved : SavedFlag crates :=
    { flag with revision := if changed then current.revision + 1 else current.revision }
  let unique ← select fun t => generatedUnique (t.flags.filter (·.id ≠ flagId)) saved
  check unique "The challenge already has a generated flag"
  change fun t => { t with flags := update (·.id = flagId) (fun _ => saved) t.flags }
  pure saved

/-- `delete_flag`; the allocations of a flag go with it. -/
def deleteFlag (flagId : ℤ) : Transaction crates Unit := do
  let initial ← fetchOne (·.flag flagId) "Flag not found"
  lockChallengeDefinition initial.challengeId
  let current ← fetchOne (·.flag flagId) "Flag not found"
  check (current.challengeId = initial.challengeId)
    "The flag changed concurrently; reload it and try again"
  let assignments ← select (·.assigned flagId)
  check (! assignments) "Generated flags cannot be deleted after allocation"
  let flagCount ← select (·.flagCount current.challengeId)
  check (1 < flagCount) "A challenge must retain at least one flag definition"
  let active ← select (·.active current.challengeId)
  check (! active) "Stop the active challenge instances before changing flags"
  change fun t => { t with
    flags := t.flags.filter (·.id ≠ flagId)
    userChallengeFlags := t.userChallengeFlags.filter (·.flagId ≠ flagId) }

/-! ## Launches -/

/-- A participant, the lifetime asked for, and what is drawn for an allocation. -/
structure LaunchRequest where
  challengeId : ℤ
  userId : ℤ
  admin : Bool
  ttlSeconds : Option ℤ
  secretKey : String
  draws : Draws

/-- `LaunchGate`; a challenge may have no runtime. -/
structure LaunchGate where
  challengeState : String
  exposure : String
  settingEnabled : Bool
  runtime : Option RuntimeConfigInput

/-- `load_launch_gate`. -/
def loadLaunchGate (t : FlagTables crates) (challengeId : ℤ) : Option LaunchGate := do
  let challenge ← t.challenge challengeId
  pure ⟨challenge.state, challenge.exposure, t.gateEnabled,
    (t.runtimeConfig challengeId).map RuntimeConfigRow.toRuntimeConfigInput⟩

/-- `load_launch_gate_tx`. -/
def loadLaunchGateTx (t : FlagTables crates) (challengeId : ℤ) : Option LaunchGate := do
  let gate ← loadLaunchGate t challengeId
  if gate.runtime.isSome then some gate else none

/-- The gate lets a user through: its runtime. -/
def LaunchGate.checkAccess (gate : LaunchGate) (admin : Bool) :
    Except String RuntimeConfigInput := do
  ensure (admin || gate.challengeState = "visible") "Challenge not found"
  ensure (gate.exposure = "private" && gate.settingEnabled &&
      gate.runtime.any fun runtime => runtime.enabled && runtime.runtimeMode = "managed")
    "This challenge does not currently provide a managed instance"
  required gate.runtime "This challenge does not currently provide a managed instance"

/-- The lifetime asked for is within the limits. -/
def checkLifetime (runtime : RuntimeConfigInput) (ttlSeconds : Option ℤ) : Except String Unit :=
  let ttl := ttlSeconds.getD runtime.defaultTtlSeconds
  ensure (60 ≤ ttl && ttl ≤ runtime.maximumTtlSeconds)
    "Requested lifetime is outside the challenge limits"

/-- `next_available_leet_mask`. -/
def nextAvailableLeetMask (flag : StoredFlag) : Transaction crates ℕ := do
  let capacity := 2 ^ (leetPositions flag.content.toList).length - 1
  let assigned ← select fun t => t.userChallengeFlags.countP (·.flagId = flag.id)
  check (assigned < capacity) "The leet variation space for this challenge is exhausted"
  fetchOne
    (fun t => ((List.range (min capacity (assigned + 1))).map (· + 1)).find? fun candidate =>
      ! t.userChallengeFlags.any fun row =>
        row.flagId = flag.id && row.leetMask = some candidate)
    "no rows returned by a query that expected to return at least one row"

/-- The leet mask of a new allocation. -/
def drawLeetMask (flag : StoredFlag) (policy : FlagPolicyData) (hasToken : Bool) (draws : Draws) :
    Transaction crates (Option ℕ) :=
  if policy.leetVariation && ! hasToken then do
    let mask ← nextAvailableLeetMask flag
    pure (some mask)
  else if policy.leetVariation then
    pure (some (draws.mask % (2 ^ (leetPositions flag.content.toList).length - 1) + 1))
  else pure none

/-- `INSERT INTO ctfzone.user_challenge_flags`, under its keys. -/
def insertUserChallengeFlag (row : UserChallengeFlag) : Transaction crates Unit := do
  let taken ← select fun t => t.userChallengeFlags.any fun other =>
    (other.flagId = row.flagId && other.userId = row.userId) ||
      (other.challengeId = row.challengeId &&
        @decide (other.matchTag = row.matchTag) (ByteArray.instDecidableEq _ _))
  check (! taken) "A unique flag could not be allocated; review the flag template"
  change fun t => { t with userChallengeFlags := row :: t.userChallengeFlags }

/-- `materialize_flag`. -/
def materializeFlag (request : LaunchRequest) (flag : StoredFlag) :
    Transaction crates String := do
  let template := flag.content.toList
  acquire (.generatedFlag flag.id)
  let existing ← select fun t => t.userChallengeFlags.find? fun row =>
    row.flagId = flag.id && row.userId = request.userId
  match existing with
  | some row =>
    check (row.definitionRevision = flag.revision)
      "The generated flag definition changed after allocation"
    pure (.ofList (renderGeneratedFlag template row.randomToken row.leetMask))
  | none =>
    let policy ← liftExcept (parsePolicy flag.data)
    let hasToken := ! (tokenIndices 0 0 template).isEmpty
    let leetMask ← drawLeetMask flag policy hasToken request.draws
    let randomToken := if hasToken then some request.draws.token else none
    let rendered := String.ofList (renderGeneratedFlag template randomToken leetMask)
    let tag := matchTag crates request.secretKey request.challengeId rendered policy.caseSensitive
    insertUserChallengeFlag ⟨flag.id, request.challengeId, request.userId, flag.revision, tag,
      randomToken, leetMask⟩
    pure rendered

/-- `materialize_for_launch`. -/
def materializeForLaunch (request : LaunchRequest) : Transaction crates (Option String) := do
  lockChallengeDefinition request.challengeId
  -- the order of the identifiers that can be executed, not the complete one
  let flag ← select fun t => @List.argmin _ _ Int.instLinearOrder.toPreorder inferInstance
    (·.id) (t.generatedFlags request.challengeId)
  match flag with
  | none => pure none
  | some flag =>
    let rendered ← materializeFlag request flag.toStoredFlag
    pure (some rendered)

/-- `INSERT INTO ctfzone.runtime_instances`, under the index of active instances. -/
def insertInstance (row : InstanceRow) : Transaction crates Unit := do
  let taken ← select fun t => t.runtimeInstances.any fun other =>
    other.ownerUserId = row.ownerUserId && other.active
  check (! taken) "The runtime request conflicts with existing state"
  change fun t => { t with runtimeInstances := t.runtimeInstances ++ [row] }

/-- `ensure_instance`: the challenge of the active instance of the user. -/
def ensureInstance (request : LaunchRequest) : Transaction crates ℤ := do
  let gate ← fetchOne (loadLaunchGate · request.challengeId) "Challenge not found"
  let _ ← liftExcept (gate.checkAccess request.admin)
  lockChallengeDefinition request.challengeId
  let gate ← fetchOne (loadLaunchGateTx · request.challengeId)
    "Managed runtime configuration is unavailable"
  let runtime ← liftExcept (gate.checkAccess request.admin)
  liftExcept (checkLifetime runtime request.ttlSeconds)
  let existing ← select fun t => t.runtimeInstances.find? fun row =>
    row.ownerUserId = request.userId && row.active
  match existing with
  | some row =>
    check (row.challengeId = request.challengeId)
      ("You already have an active instance for challenge " ++ toString row.challengeId)
    pure row.challengeId
  | none =>
    let flagValue ← materializeForLaunch request
    insertInstance
      ⟨request.userId, request.challengeId, deploymentSnapshot runtime flagValue, true⟩
    pure request.challengeId

/-! ## Steps -/

/-- A request. -/
inductive Request
  | createChallenge (input : ChallengeInput)
  | updateChallenge (challengeId : ℤ) (patch : ChallengePatch)
  | deleteChallenge (challengeId : ℤ)
  | createFlag (input : FlagInput)
  | updateFlag (flagId : ℤ) (patch : FlagPatch)
  | deleteFlag (flagId : ℤ)
  | ensureInstance (request : LaunchRequest)

/-- The transaction of a request; its answer goes to the client. -/
def Request.program : Request → Transaction crates Unit
  | .createChallenge input => do let _ ← FlagDefinitions.createChallenge input
  | .updateChallenge challengeId patch => FlagDefinitions.updateChallenge challengeId patch
  | .deleteChallenge challengeId => FlagDefinitions.deleteChallenge challengeId
  | .createFlag input => do let _ ← FlagDefinitions.createFlag input
  | .updateFlag flagId patch => do let _ ← FlagDefinitions.updateFlag flagId patch
  | .deleteFlag flagId => FlagDefinitions.deleteFlag flagId
  | .ensureInstance request => do let _ ← FlagDefinitions.ensureInstance request

/-- What else happens to the tables: an instance ends, the runtimes are configured, and a
change of the mode takes the allocations away. -/
inductive Event
  | stop (i : ℕ)
  | configure (runtimeConfigs : List RuntimeConfigRow) (gateEnabled : Bool)
  | clearAllocations

/-- The tables after an event. -/
def Event.apply (t : FlagTables crates) : Event → FlagTables crates
  | .stop i =>
    { t with runtimeInstances := t.runtimeInstances.modify i fun row => { row with active := false } }
  | .configure runtimeConfigs gateEnabled => { t with runtimeConfigs, gateEnabled }
  | .clearAllocations => { t with userChallengeFlags := [] }

/-- The portal with the requests in flight. -/
abbrev Portal (crates : Crates) := Locking.System (FlagTables crates) LockKey Sequence String

/-- One statement of a request, or one event. -/
def portalStep : Locking.Label Request Event → Portal crates → Option (Portal crates) :=
  Locking.step Request.program fun e t => e.apply t

/-- No challenge has been created, and no request is in flight. -/
def Initial (s : Portal crates) : Prop :=
  s.store.challenges = [] ∧ s.store.flags = [] ∧ s.store.userChallengeFlags = [] ∧
    s.store.runtimeInstances = [] ∧ s.running = []

end CtfZone.FlagDefinitions
