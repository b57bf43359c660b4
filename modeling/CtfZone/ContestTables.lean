/-
# The tables of a contest

What the scores of a contest rest on beside the submissions: the accounts and who
belongs to which team (`user_accounts.rs`, `team_accounts.rs`), the scoring of the
challenges (`challenges.rs`), the submissions an administrator enters
(`administration.rs`) and the mode (`user_mode_transition.rs`).  Each function is
what one transaction does to the tables.

* `Contest.removeMember`, `Contest.updateUser` : two ways out of a team;
* `Contest.createSubmission`, `Contest.updateSubmission` : the administrator's part
  in submissions and solves;
* `dynamicValue` : the value of a challenge from its number of solves.
-/
import CtfZone.AllChallenges

namespace CtfZone.Contests

open Journal Tables Submissions

/-! ## Tables -/

/-- A row of `teams`. -/
structure TeamRow where
  id : ℤ
  hidden : Bool
  banned : Bool
  deriving DecidableEq

/-- The columns of a row of `users` that restrict the account. -/
structure ProfileRow where
  userId : ℤ
  hidden : Bool
  banned : Bool
  changePassword : Bool
  deriving DecidableEq

/-- What the value of a challenge is computed from, and the value.  The columns of
`dynamic_challenge` are those of `challenges` wherever a challenge has both. -/
structure ScoringRow where
  challengeId : ℤ
  function : Option String
  initial : Option ℤ
  minimum : Option ℤ
  decay : Option ℤ
  value : Option ℤ
  deriving DecidableEq

/-- The settings of the schedule, in seconds since the epoch. -/
structure Schedule where
  startTime : ℤ
  endTime : ℤ
  viewAfterCtf : Bool

/-- The tables of a contest. -/
structure Contest (crates : Crates) where
  portal : Portal crates
  teams : List TeamRow
  profiles : List ProfileRow
  scoring : List ScoringRow
  schedule : Schedule

variable {crates : Crates}

namespace Contest

variable (contest : Contest crates)

/-- A row of `users`. -/
def user (userId : ℤ) : Option UserRow := contest.portal.users.find? (·.id = userId)

/-- A row of `teams`. -/
def team (teamId : ℤ) : Option TeamRow := contest.teams.find? (·.id = teamId)

/-- The scoring of a challenge. -/
def scoringOf (challengeId : ℤ) : Option ScoringRow :=
  contest.scoring.find? (·.challengeId = challengeId)

/-- `UPDATE ctfzone.users SET team_id`. -/
def setTeam (userId : ℤ) (teamId : Option ℤ) : Contest crates :=
  { contest with portal := { contest.portal with
      users := update (·.id = userId) (fun user => { user with teamId }) contest.portal.users } }

/-- `DELETE FROM ctfzone.submissions`; the solves of the rows go with them. -/
def deleteSubmissions (p : SubmissionRow → Bool) : Contest crates :=
  { contest with portal := { contest.portal with
      submissions := contest.portal.submissions.filter (! p ·)
      solves := contest.portal.solves.filter fun solve =>
        ! contest.portal.submissions.any fun row => p row && row.id = solve.id } }

/-- `DELETE FROM ctfzone.solves`. -/
def deleteSolves (p : SolveRow → Bool) : Contest crates :=
  { contest with portal := { contest.portal with
      solves := contest.portal.solves.filter (! p ·) } }

/-! ## Teams -/

/-- `require_team_mode_in_transaction`. -/
def requireTeamMode : Except String Unit :=
  ensure contest.portal.teamMode "Team mode is disabled"

/-- The checks of `add_member`, `join_current` and `create_current` on the participant,
with the text each of them answers with. -/
def requireUnassigned (userId : ℤ) (notUser joined : String) : Except String Unit := do
  contest.requireTeamMode
  let user ← required (contest.user userId) "User not found"
  ensure (user.userType = "user") notUser
  ensure (user.teamId.isNone) joined

/-- `add_member`. -/
def addMember (teamId userId : ℤ) : Except String (Contest crates) := do
  contest.requireUnassigned userId "Only participant accounts can be team members"
    "User has already joined a team"
  ensure (contest.team teamId).isSome "Team not found"
  pure (contest.setTeam userId (some teamId))

/-- `join_current`; `invited` says that the invite is valid and the team not full. -/
def joinTeam (teamId userId : ℤ) (invited : Bool) : Except String (Contest crates) := do
  contest.requireUnassigned userId "Only participant accounts can create or join teams"
    "You have already joined a team"
  ensure (invited && (contest.team teamId).any (! ·.banned)) "The team invite is invalid or has expired"
  pure (contest.setTeam userId (some teamId))

/-- `create_current`; `allowed` says that participants may create another team. -/
def createTeam (teamId userId : ℤ) (allowed : Bool) : Except String (Contest crates) := do
  contest.requireUnassigned userId "Only participant accounts can create or join teams"
    "You have already joined a team"
  ensure (allowed && (contest.team teamId).isNone) "The team name is already in use"
  let created : Contest crates := { contest with teams := contest.teams ++ [⟨teamId, false, false⟩] }
  pure (created.setTeam userId (some teamId))

/-- `remove_member`: what the member has submitted goes with them. -/
def removeMember (teamId userId : ℤ) : Except String (Contest crates) := do
  contest.requireTeamMode
  ensure (contest.team teamId).isSome "Team not found"
  ensure ((contest.user userId).any (·.teamId = some teamId)) "User is not part of this team"
  pure ((contest.setTeam userId none).deleteSubmissions (·.userId = some userId))

/-- `delete_team`; `allowed` says that the captain may disband it. -/
def deleteTeam (teamId : ℤ) (allowed : Bool) : Except String (Contest crates) := do
  contest.requireTeamMode
  ensure (contest.team teamId).isSome "Team not found"
  ensure allowed "You cannot disband a team that has participated in the event"
  let left : Contest crates := { contest with
    portal := { contest.portal with
      users := update (·.teamId = some teamId) (fun user => { user with teamId := none })
        contest.portal.users }
    teams := contest.teams.filter (·.id ≠ teamId) }
  pure ((left.deleteSubmissions (·.teamId = some teamId)).deleteSolves (·.teamId = some teamId))

/-! ## Users -/

/-- The fields of `PatchUser` that contests depend on. -/
structure PatchUser where
  userType : Option String := none
  teamId : Option (Option ℤ) := none
  hidden : Option Bool := none
  banned : Option Bool := none
  changePassword : Option Bool := none

/-- `update`, as an administrator calls it: an account that is no participant leaves
its team.  `allowed` says that another administrator is left. -/
def updateUser (userId : ℤ) (request : PatchUser) (allowed : Bool) :
    Except String (Contest crates) := do
  ensure allowed "At least one active administrator is required"
  ensure (request.userType.all fun userType => ["user", "admin"].contains userType)
    "User type must be user or admin"
  let previous ← required (contest.user userId) "User not found"
  let intendedType := request.userType.getD previous.userType
  ensure (intendedType = "user" || request.teamId.join.isNone)
    "Administrator accounts cannot be assigned to a team"
  let teamId := if intendedType ≠ "user" && previous.teamId.isSome then some none
    else request.teamId
  ensure ((teamId.getD previous.teamId).isNone || contest.portal.teamMode)
    "Users can only be assigned to teams while competition mode is teams"
  ensure (teamId.join.all fun teamId => (contest.team teamId).isSome)
    "Please provide a valid team id"
  pure { contest with
    portal := { contest.portal with
      users := update (·.id = userId) (fun user => { user with
        userType := intendedType
        teamId := teamId.getD user.teamId }) contest.portal.users }
    profiles := update (·.userId = userId) (fun profile => { profile with
      hidden := request.hidden.getD profile.hidden
      banned := request.banned.getD profile.banned
      changePassword := request.changePassword.getD profile.changePassword }) contest.profiles }

/-- `create`, of a user. -/
def createUser (userId : ℤ) (userType : String) (hidden banned changePassword : Bool) :
    Except String (Contest crates) := do
  ensure (["user", "admin"].contains userType) "User type must be user or admin"
  ensure (contest.user userId).isNone "The user name or email is already in use"
  pure { contest with
    portal := { contest.portal with
      users := contest.portal.users ++ [⟨userId, userType, none⟩] }
    profiles := contest.profiles ++ [⟨userId, hidden, banned, changePassword⟩] }

/-- `delete`, of a user; `allowed` says that another administrator is left. -/
def deleteUser (userId : ℤ) (allowed : Bool) : Except String (Contest crates) := do
  ensure allowed "At least one active administrator is required"
  ensure (! contest.portal.userChallengeFlags.any (·.userId = userId))
    "This user owns personalized challenge flags and cannot be deleted"
  let left : Contest crates := { contest with
    portal := { contest.portal with users := contest.portal.users.filter (·.id ≠ userId) }
    profiles := contest.profiles.filter (·.userId ≠ userId) }
  pure ((left.deleteSubmissions (·.userId = some userId)).deleteSolves (·.userId = some userId))

/-- `update`, of a team. -/
def updateTeam (teamId : ℤ) (hidden banned : Option Bool) : Except String (Contest crates) := do
  contest.requireTeamMode
  ensure (contest.team teamId).isSome "Team not found"
  pure { contest with
    teams := update (·.id = teamId) (fun team => { team with
      hidden := hidden.getD team.hidden
      banned := banned.getD team.banned }) contest.teams }

/-! ## Attempts -/

/-- What `revalidate_current_credential` asks of the account. -/
def credentialValid (userId : ℤ) : Bool :=
  (contest.user userId).any fun user =>
    ((contest.profiles.find? (·.userId = userId)).all fun profile =>
      ! profile.banned && ! profile.changePassword) &&
    ((user.teamId.bind contest.team).all fun team => ! team.banned)

/-- `attempt`, with a credential that is valid apart from the account. -/
def attempt (request : AttemptRequest) :
    Except String (AttemptResponse × Contest crates × Option Judgement) := do
  ensure (contest.credentialValid request.userId) "This credential has expired or been revoked"
  let (response, portal, judgement) ← Submissions.attempt contest.portal request
  pure (response, { contest with portal }, judgement)

/-! ## Submissions of an administrator -/

/-- The values of `validate_submission_type`. -/
def submissionTypes : List String := ["correct", "incorrect", "partial", "discard", "ratelimited"]

/-- `canonical_account_team_id`. -/
def canonicalAccountTeamId (userId : ℤ) (requestedTeamId : Option ℤ) (recordKind : String) :
    Except String (Option ℤ) :=
  let participant := (contest.user userId).filter (·.userType = "user")
  if ! contest.portal.teamMode then do
    ensure requestedTeamId.isNone
      ("A " ++ recordKind ++ " cannot target a team while competition mode is users")
    ensure participant.isSome ("The " ++ recordKind ++ " user is not a participant")
    pure none
  else do
    let assignedTeamId ← required (participant.bind UserRow.teamId)
      ("The " ++ recordKind ++ " user does not belong to a team")
    ensure (requestedTeamId.all (· = assignedTeamId))
      ("The " ++ recordKind ++ " team does not match the user's current team")
    pure (some assignedTeamId)

/-- The rows a row of `submissions` or `solves` refers to exist. -/
def refers (challengeId : ℤ) (userId teamId : Option ℤ) : Bool :=
  contest.portal.challenges.any (·.id = challengeId) &&
    userId.all (fun userId => (contest.user userId).isSome) &&
    teamId.all fun teamId => (contest.team teamId).isSome

/-- `INSERT INTO ctfzone.submissions`: the id of the row, and the tables with it. -/
def insertSubmission (challengeId : ℤ) (userId teamId : Option ℤ) (provided : Option String)
    (submissionType : String) (date : Time) : ℤ × Contest crates :=
  (contest.portal.nextSubmissionId,
    { contest with portal := { contest.portal with
        submissions := contest.portal.submissions ++ [⟨contest.portal.nextSubmissionId, challengeId,
          userId, teamId, provided, submissionType, date⟩]
        nextSubmissionId := contest.portal.nextSubmissionId + 1 } })

/-- The constraints `solves_challenge_id_user_id_key` and `solves_challenge_id_team_id_key`. -/
def solveConflict (solves : List SolveRow) (challengeId : ℤ) (userId teamId : Option ℤ) : Bool :=
  solves.any fun solve => solve.challengeId = challengeId &&
    ((userId.isSome && solve.userId = userId) || (teamId.isSome && solve.teamId = teamId))

/-- `INSERT INTO ctfzone.solves`. -/
def insertSolve (id challengeId : ℤ) (userId teamId : Option ℤ) : Except String (Contest crates) := do
  ensure (! solveConflict contest.portal.solves challengeId userId teamId)
    "A record with these values already exists"
  pure { contest with portal := { contest.portal with
    solves := contest.portal.solves ++ [⟨id, challengeId, userId, teamId⟩] } }

/-- `SubmissionInput`. -/
structure SubmissionInput where
  challengeId : ℤ
  userId : ℤ
  teamId : Option ℤ
  provided : String
  submissionType : String
  date : Option Time

/-- `create_submission`. -/
def createSubmission (request : SubmissionInput) (now : Time) : Except String (Contest crates) := do
  ensure (submissionTypes.contains request.submissionType) "Submission type is invalid"
  let teamId ← contest.canonicalAccountTeamId request.userId request.teamId "submission"
  ensure (contest.refers request.challengeId (some request.userId) teamId) "Database error"
  let (id, inserted) := contest.insertSubmission request.challengeId (some request.userId) teamId
    (some request.provided) request.submissionType (request.date.getD now)
  if request.submissionType = "correct" then
    inserted.insertSolve id request.challengeId (some request.userId) teamId
  else pure inserted

/-- `SubmissionPatch`. -/
structure SubmissionPatch where
  submissionType : Option String := none
  provided : Option String := none

/-- The writes of `update_submission` to the row itself. -/
def patchSubmission (submissionId : ℤ) (submissionType : String) (provided : Option String) :
    Contest crates :=
  { contest with portal := { contest.portal with
      submissions := update (·.id = submissionId) (fun row => { row with
        submissionType
        provided := provided.or row.provided }) contest.portal.submissions } }

/-- `update_submission`.  A row that becomes correct is replaced by a new one. -/
def updateSubmission (submissionId : ℤ) (request : SubmissionPatch) : Except String (Contest crates) := do
  let current ← required (contest.portal.submissions.find? (·.id = submissionId))
    "Submission not found"
  let requestedType := request.submissionType.getD current.submissionType
  ensure (submissionTypes.contains requestedType) "Submission type is invalid"
  let teamId ← contest.canonicalAccountTeamId (current.userId.getD 0) current.teamId "submission"
  if current.submissionType ≠ "correct" && requestedType = "correct" then do
    let userId := some (current.userId.getD 0)
    ensure (contest.refers current.challengeId userId teamId) "Database error"
    let (id, inserted) := contest.insertSubmission current.challengeId userId teamId
      (some ((request.provided.or current.provided).getD "")) "correct" current.date
    let solved ← inserted.insertSolve id current.challengeId userId teamId
    pure (solved.patchSubmission submissionId "discard" none)
  else
    let unsolved := if current.submissionType = "correct" && requestedType ≠ "correct" then
      contest.deleteSolves (·.id = submissionId) else contest
    pure (unsolved.patchSubmission submissionId requestedType request.provided)

/-- `delete_submission`. -/
def deleteSubmission (submissionId : ℤ) : Except String (Contest crates) := do
  ensure (contest.portal.submissions.any (·.id = submissionId)) "Record not found"
  pure (contest.deleteSubmissions (·.id = submissionId))

/-- `delete_challenge`; `idle` says that no instance is active. -/
def deleteChallenge (challengeId : ℤ) (idle : Bool) : Except String (Contest crates) := do
  ensure (contest.portal.challenges.any (·.id = challengeId)) "Challenge not found"
  ensure idle "Stop the active challenge instances before deleting the challenge"
  ensure (! contest.portal.userChallengeFlags.any (·.challengeId = challengeId))
    "Challenges with allocated per-user flags cannot be deleted"
  let left : Contest crates := { contest with
    portal := { contest.portal with
      challenges := contest.portal.challenges.filter (·.id ≠ challengeId)
      flags := contest.portal.flags.filter (·.challengeId ≠ challengeId) }
    scoring := contest.scoring.filter (·.challengeId ≠ challengeId) }
  pure ((left.deleteSubmissions (·.challengeId = challengeId)).deleteSolves
    (·.challengeId = challengeId))

/-! ## The mode -/

/-- `prepare_transition`; `idle` says that no runtime is active. -/
def switchMode (teamMode idle : Bool) : Except String (Contest crates) := do
  ensure idle "Terminate every active challenge runtime before changing competition mode"
  ensure (contest.portal.teamMode ≠ teamMode) "The requested competition mode is already active"
  let dynamic := fun challengeId => contest.portal.challenges.any fun challenge =>
    challenge.id = challengeId && challenge.challengeType = some "dynamic"
  pure { contest with
    portal := { contest.portal with
      flagSharingEvents := []
      userChallengeFlags := []
      submissions := []
      solves := []
      users := contest.portal.users.map fun user => { user with teamId := none }
      teamMode }
    scoring := update (fun row => dynamic row.challengeId)
      (fun row => { row with value := row.initial.or row.value }) contest.scoring
    teams := [] }

end Contest

/-! ## Values -/

/-- `ceil`, and the conversion of the result by `as i32`. -/
def ceilAsI32 (x : Float) : ℤ :=
  let bits : ℕ := x.toBits.toNat
  let negative := bits / 2 ^ 63 = 1
  let exponent : ℕ := bits / 2 ^ 52 % 2 ^ 11
  let fraction : ℕ := bits % 2 ^ 52
  if exponent = 2047 then
    if fraction ≠ 0 then 0 else if negative then -2 ^ 31 else 2 ^ 31 - 1
  else
    -- the value is `m` times two to the power of `e - 1075`
    let m : ℤ := if exponent = 0 then fraction else 2 ^ 52 + fraction
    let m := if negative then -m else m
    let e := max exponent 1
    let ceil := if 1075 ≤ e then m * 2 ^ (e - 1075) else -(-m / 2 ^ (1075 - e))
    max (-2 ^ 31) (min (2 ^ 31 - 1) ceil)

/-- The value of a challenge that `solveCount` visible accounts have solved. -/
def dynamicValue (function : String) (initial minimum decay : ℤ) (solveCount : ℕ) : ℤ :=
  let adjusted := Float.ofNat (solveCount - 1)
  let calculated :=
    if function = "linear" then Float.ofInt initial - Float.ofInt decay * adjusted
    else
      Float.ofInt (minimum - initial) / (Float.ofInt decay * Float.ofInt decay) *
        (adjusted * adjusted) + Float.ofInt initial
  max (ceilAsI32 calculated) minimum

/-- The value `recalculate_dynamic_value` stores, if it stores one. -/
def ScoringRow.recalculated (row : ScoringRow) (solveCount : ℕ) : Option ℤ :=
  let function := row.function.getD "static"
  if function = "static" then none
  else some (dynamicValue function (row.initial.getD 0) (row.minimum.getD 0)
    (max (row.decay.getD 1) 1) solveCount)

namespace Contest

variable (contest : Contest crates)

/-- An account that is neither hidden nor banned. -/
def visible (account : Account) : Bool :=
  match account with
  | .user id => (contest.user id).isSome &&
    (contest.profiles.find? (·.userId = id)).all fun profile => ! profile.hidden && ! profile.banned
  | .team id => (contest.team id).any fun team => ! team.hidden && ! team.banned

/-- The account a solve counts for. -/
def accountOf (teamMode : Bool) (solve : SolveRow) : Option Account :=
  if teamMode then solve.teamId.map .team else solve.userId.map .user

/-- The solves of a challenge by visible accounts. -/
def visibleSolves (challengeId : ℤ) : ℕ :=
  (contest.portal.solves.filter fun solve => solve.challengeId = challengeId &&
    (accountOf contest.portal.teamMode solve).any contest.visible).length

/-- `UPDATE ctfzone.challenges SET value`. -/
def setValue (challengeId : ℤ) (value : ℤ) : Contest crates :=
  { contest with
    scoring := update (·.challengeId = challengeId) (fun row => { row with value := some value })
      contest.scoring }

/-- The scoring fields of `PatchChallenge`; an outer `none` is a field that is absent. -/
structure ScoringPatch where
  function : Option String := none
  initial : Option (Option ℤ) := none
  minimum : Option (Option ℤ) := none
  decay : Option (Option ℤ) := none
  value : Option (Option ℤ) := none

/-- The scoring of a challenge as `update` writes it, before it recalculates the value. -/
def patchScoring (challengeType : Option String) (row : ScoringRow) (patch : ScoringPatch) :
    Except String ScoringRow := do
  let dynamic := challengeType = some "dynamic"
  let function ← required (patch.function.or row.function) "Challenge function is required"
  ensure ((dynamic || function = "static") && (! dynamic || ["linear", "logarithmic"].contains
    function)) "Scoring type and decay function do not match"
  if ! dynamic then do
    ensure (patch.initial.isNone && patch.minimum.isNone && patch.decay.isNone)
      "Standard scoring cannot define dynamic scoring fields"
    let value ← required (patch.value.getD row.value) "Challenge value is required"
    ensure (0 ≤ value) "Challenge value cannot be negative"
    pure { row with
      function := some function
      initial := none
      minimum := none
      decay := none
      value := some value }
  else do
    let missing := "Dynamic challenges require initial, minimum, and decay"
    let initial ← required (patch.initial.getD row.initial) missing
    let minimum ← required (patch.minimum.getD row.minimum) missing
    let decay ← required (patch.decay.getD row.decay) missing
    ensure (0 ≤ minimum && minimum ≤ initial && 0 < decay)
      "Dynamic scoring requires initial >= minimum >= 0 and decay > 0"
    ensure (patch.value.join.all (· = initial)) "Dynamic value must match the initial score"
    pure { row with
      function := some function
      initial := some initial
      minimum := some minimum
      decay := some decay
      value := some initial }

/-- What `update` of a challenge writes: the fields an attempt reads, and the scoring with
the value for the present number of solves. -/
def editedRows (challengeId : ℤ) (patch : ChallengePatch) (scoring : ScoringPatch) :
    Except String (ChallengeRow × ScoringRow) := do
  let portal ← Submissions.updateChallenge contest.portal challengeId patch
  let challenge ← required (portal.challenges.find? (·.id = challengeId)) "Challenge not found"
  let current ← required (contest.scoringOf challengeId) "Challenge not found"
  let row ← patchScoring challenge.challengeType current scoring
  let value := row.recalculated (contest.visibleSolves challengeId)
  pure (challenge, { row with value := value.or row.value })

/-- `UPDATE ctfzone.challenges`. -/
def writeRows (challengeId : ℤ) (rows : ChallengeRow × ScoringRow) : Contest crates :=
  { contest with
    portal := { contest.portal with
      challenges := update (·.id = challengeId) (fun _ => rows.1) contest.portal.challenges }
    scoring := update (·.challengeId = challengeId) (fun _ => rows.2) contest.scoring }

/-- `update`, of a challenge. -/
def editChallenge (challengeId : ℤ) (patch : ChallengePatch) (scoring : ScoringPatch) :
    Except String (Contest crates) := do
  let rows ← contest.editedRows challengeId patch scoring
  pure (contest.writeRows challengeId rows)

end Contest

/-! ## Operations -/

/-- The requests of administrators and of the members of teams. -/
inductive Operation
  | addMember (teamId userId : ℤ)
  | joinTeam (teamId userId : ℤ) (invited : Bool)
  | createTeam (teamId userId : ℤ) (allowed : Bool)
  | removeMember (teamId userId : ℤ)
  | deleteTeam (teamId : ℤ) (allowed : Bool)
  | updateTeam (teamId : ℤ) (hidden banned : Option Bool)
  | updateUser (userId : ℤ) (request : Contest.PatchUser) (allowed : Bool)
  | createUser (userId : ℤ) (userType : String) (hidden banned changePassword : Bool)
  | deleteUser (userId : ℤ) (allowed : Bool)
  | createSubmission (request : Contest.SubmissionInput) (now : Time)
  | updateSubmission (submissionId : ℤ) (request : Contest.SubmissionPatch)
  | deleteSubmission (submissionId : ℤ)
  | deleteChallenge (challengeId : ℤ) (idle : Bool)
  | switchMode (teamMode idle : Bool)
  | configure (settings : Settings) (schedule : Schedule)

/-- What a request does to the tables. -/
def Operation.change (contest : Contest crates) : Operation → Except String (Contest crates)
  | .addMember teamId userId => contest.addMember teamId userId
  | .joinTeam teamId userId invited => contest.joinTeam teamId userId invited
  | .createTeam teamId userId allowed => contest.createTeam teamId userId allowed
  | .removeMember teamId userId => contest.removeMember teamId userId
  | .deleteTeam teamId allowed => contest.deleteTeam teamId allowed
  | .updateTeam teamId hidden banned => contest.updateTeam teamId hidden banned
  | .updateUser userId request allowed => contest.updateUser userId request allowed
  | .createUser userId userType hidden banned changePassword =>
    contest.createUser userId userType hidden banned changePassword
  | .deleteUser userId allowed => contest.deleteUser userId allowed
  | .createSubmission request now => contest.createSubmission request now
  | .updateSubmission submissionId request => contest.updateSubmission submissionId request
  | .deleteSubmission submissionId => contest.deleteSubmission submissionId
  | .deleteChallenge challengeId idle => contest.deleteChallenge challengeId idle
  | .switchMode teamMode idle => contest.switchMode teamMode idle
  | .configure settings schedule =>
    pure { contest with portal := { contest.portal with settings }, schedule }

end CtfZone.Contests
