/-
# Accounts and teams

The requests that write accounts, teams and the settings they are bound by, statement by
statement: the setup, the registration and the login (`browser_auth.rs`), the accounts
(`user_accounts.rs`, `setup.rs`), the teams (`team_accounts.rs`) and the change of the
competition mode (`user_mode_transition.rs`).

A request that is refused for anything else it carries, by a policy, by a limit of its
rate, or for its session, ends like one that is given up, and so does one whose connection
is lost.  The lock of a row is taken where the source says `FOR UPDATE`, and the lock of
an index where a row comes to have a key.
-/
import CtfZone.SharedLocks
import CtfZone.Submissions
import Mathlib.Data.List.Sort

namespace CtfZone.Accounts

open Journal Locking Locking.Program SharedLocks Tables
open Submissions (required)

/-! ## Tables -/

/-- The type of an account. -/
inductive UserType
  | user
  | admin
  deriving DecidableEq

/-- The competition mode. -/
inductive UserMode
  | users
  | teams
  deriving DecidableEq

/-- A row of `users`; every request writes the nullable columns it has. -/
structure UserRow where
  id : ℤ
  name : String
  email : String
  userType : UserType
  hidden : Bool
  banned : Bool
  changePassword : Bool
  teamId : Option ℤ
  deriving DecidableEq

/-- A row of `teams`. -/
structure TeamRow where
  id : ℤ
  captainId : Option ℤ
  hidden : Bool
  banned : Bool
  deriving DecidableEq

/-- The settings that accounts and teams are bound by. -/
structure Settings where
  userMode : UserMode
  participantLimit : ℤ
  emailAllowlist : Bool
  teamCreation : Bool
  teamSize : ℤ
  numTeams : ℤ
  teamDisbanding : Bool
  deriving DecidableEq

/-- The tables; `setupMarker` is the setting `setup`, and `transitions` counts the rows of
`user_mode_transitions`. -/
structure AccountTables where
  users : List UserRow
  teams : List TeamRow
  settings : Settings
  setupMarker : Bool
  transitions : ℕ
  deriving DecidableEq

/-- The locks: the advisory ones, those of rows, and those of the unique indexes. -/
inductive LockKey
  | configuration (exclusive : Bool)
  | registrationCapacity
  | teamCapacity
  | teamMembership
  | setupInvariant
  | user (id : ℤ)
  | team (id : ℤ)
  | userName (name : String)
  | userEmail (email : String)
  deriving DecidableEq

instance : Lockable LockKey where
  conflict
    | .configuration e, .configuration e' => e || e'
    | key, key' => key = key'
  symm key key' := by
    cases key with
    | configuration e =>
        cases key' with
        | configuration e' => exact Bool.or_comm e e'
        | _ => rfl
    | _ => cases key' <;> simp only [eq_comm, reduceCtorEq]

/-- The sequences of the ids. -/
inductive Sequence
  | users
  | teams
  deriving DecidableEq

/-- What a commit did for teams. -/
inductive Answer
  | joined (teamId : ℤ)
  | created
  | done

/-- What a request does in its transaction. -/
abbrev Transaction := Program AccountTables LockKey Sequence String

/-- The identity of a request, `CurrentUser`. -/
structure CurrentUser where
  id : ℤ
  userType : UserType
  teamId : Option ℤ

/-! ## Texts -/

/-- `split_once('@')`. -/
def splitOnceAt (text : List Char) : Option (List Char × List Char) :=
  if text.contains '@' then
    some (text.takeWhile (· ≠ '@'), (text.dropWhile (· ≠ '@')).tail)
  else none

/-- `valid_email`. -/
def validEmail (value : String) : Bool :=
  value.utf8ByteSize ≤ 128 && ! value.toList.any isWhitespace &&
    (splitOnceAt value.toList).any fun (mailbox, domain) =>
      ! mailbox.isEmpty && domain.contains '.' && domain.getLast? ≠ some '.'

/-- `to_ascii_lowercase`. -/
def toAsciiLowercase (value : String) : String := String.ofList (value.toList.map Char.toLower)

/-- `validate_name`. -/
def validateName (value : String) : Except String String := do
  let name := trim value
  ensure (name ≠ "" && name.length ≤ 128) "User names must not be empty"
  pure name

/-- `validate_email`. -/
def validateEmail (value : String) : Except String String := do
  let email := trim value
  ensure (email.utf8ByteSize ≤ 128 && (splitOnceAt email.toList).any fun (mailbox, domain) =>
    ! mailbox.isEmpty && domain.contains '.') "Emails must be a properly formatted email address"
  pure email

/-- An optional field of a request, checked. -/
def checkField {α β : Type} (validate : α → Except String β) :
    Option α → Except String (Option β)
  | none => .ok none
  | some value => (validate value).map some

/-! ## Queries -/

namespace AccountTables

variable (t : AccountTables)

/-- The row of an account. -/
def user (id : ℤ) : Option UserRow := t.users.find? (·.id = id)

/-- The row of a team. -/
def team (id : ℤ) : Option TeamRow := t.teams.find? (·.id = id)

/-- The team of an account is banned. -/
def teamBanned (u : UserRow) : Bool := t.teams.any fun team => u.teamId = some team.id && team.banned

/-- `completion_state`. -/
def isComplete : Bool := t.users.any (·.userType = .admin) || t.setupMarker

/-- The members of a team. -/
def memberCount (teamId : ℤ) : ℕ := t.users.countP (·.teamId = some teamId)

/-- The teams that are counted. -/
def activeTeams : ℕ := t.teams.countP fun team => ! team.banned && ! team.hidden

/-- The accounts that are counted. -/
def activeUsers : ℕ := t.users.countP fun u => ! u.banned && ! u.hidden

/-- The account of a credential is as it was. -/
def credentialValid (actor : CurrentUser) : Bool :=
  t.users.any fun u => u.id = actor.id && u.userType = actor.userType && ! u.banned &&
    ! u.changePassword && ! t.teamBanned u

/-- Another administrator is active. -/
def anotherActiveAdmin (excludedUserId : ℤ) : Bool :=
  t.users.any fun u => u.id ≠ excludedUserId && u.userType = .admin && ! u.banned

end AccountTables

/-! ## Statements -/

/-- `lock_configuration_shared`. -/
def lockConfigurationShared : Transaction Unit := acquire (.configuration false)

/-- `revalidate_current_credential`. -/
def revalidateCurrentCredential (actor : CurrentUser) : Transaction Unit := do
  let valid ← select (·.credentialValid actor)
  check valid "This credential has expired or been revoked"

/-- `require_team_mode_in_transaction`. -/
def requireTeamMode : Transaction Unit := do
  let mode ← select (·.settings.userMode)
  check (mode = .teams) "Team mode is disabled"

/-- `UPDATE ctfzone.users`. -/
def updateUsers (p : UserRow → Bool) (f : UserRow → UserRow) : Transaction Unit :=
  change fun t => { t with users := update p f t.users }

/-- `UPDATE ctfzone.teams`. -/
def updateTeams (p : TeamRow → Bool) (f : TeamRow → TeamRow) : Transaction Unit :=
  change fun t => { t with teams := update p f t.teams }

section Lower

variable (lower : String → String)

/-- The unique index of names. -/
def claimName (userId : ℤ) (name : String) : Transaction Unit := do
  acquire (.userName name)
  let taken ← select fun t => t.users.any fun u => u.name = name && u.id ≠ userId
  check (! taken) "The user name or email is already in use"

/-- The unique index of emails. -/
def claimEmail (userId : ℤ) (email : String) : Transaction Unit := do
  acquire (.userEmail (lower email))
  let taken ← select fun t => t.users.any fun u => lower u.email = lower email && u.id ≠ userId
  check (! taken) "The user name or email is already in use"

/-- `INSERT INTO ctfzone.users`. -/
def insertUser (row : ℤ → UserRow) : Transaction Unit := do
  let id ← nextval .users
  claimName id (row id).name
  claimEmail lower id (row id).email
  change fun t => { t with users := t.users ++ [row id] }

/-- `SELECT EXISTS(SELECT 1 FROM ctfzone.users WHERE name=$1 OR lower(email)=lower($2))`. -/
def identityTaken (name email : String) (t : AccountTables) : Bool :=
  t.users.any fun u => u.name = name || lower u.email = lower email

/-- `reject_duplicate_identity`. -/
def rejectDuplicateIdentity (userId : Option ℤ) (name email : String) : Transaction Unit := do
  let (nameTaken, emailTaken) ← select fun t =>
    (t.users.any fun u => u.name = name && userId.all (u.id ≠ ·),
      t.users.any fun u => lower u.email = lower email && userId.all (u.id ≠ ·))
  check (! nameTaken) "User name has already been taken"
  check (! emailTaken) "Email address has already been used"

/-! ## Setup, registration and login -/

/-- The settings that the setup writes. -/
def setupSettings : Settings where
  userMode := .users
  participantLimit := 0
  emailAllowlist := false
  teamCreation := true
  teamSize := 0
  numTeams := 0
  teamDisbanding := true

/-- `setup`. -/
def setup (name email : String) : Transaction Answer := do
  let name := trim name
  let email := toAsciiLowercase (trim email)
  check (name ≠ "" && name.utf8ByteSize ≤ 128 && ! validEmail name && validEmail email)
    "A valid name, email address, and password are required"
  acquire .setupInvariant
  let complete ← select (·.isComplete)
  check (! complete) "CTFZone setup has already been completed"
  let taken ← select (identityTaken lower name email)
  check (! taken) "The setup administrator name or email is already in use"
  insertUser lower fun id =>
    { id, name, email, userType := .admin, hidden := true, banned := false
      changePassword := false, teamId := none }
  change fun t => { t with settings := setupSettings, setupMarker := true }
  pure .done

/-- `register`. -/
def register (name email : String) : Transaction Answer := do
  let complete ← select (·.isComplete)
  check complete "Complete CTFZone setup before registering users"
  lockConfigurationShared
  let settings ← select (·.settings)
  let name := trim name
  let email := toAsciiLowercase (trim email)
  check (name ≠ "" && name.utf8ByteSize ≤ 128 && ! validEmail name && validEmail email)
    "invalid_input"
  let taken ← select (identityTaken lower name email)
  check (! taken) "identity_taken"
  onlyIf (! settings.emailAllowlist && 0 < settings.participantLimit) do
    acquire .registrationCapacity
    let users ← select (·.activeUsers)
    check ((users : ℤ) < settings.participantLimit) "user_limit_reached"
  insertUser lower fun id =>
    { id, name, email, userType := .user, hidden := false, banned := false
      changePassword := false, teamId := none }
  pure .done

/-- An account matches an identity, `WHERE lower(u.email)=lower($1) OR u.name=$1`. -/
def matchesIdentity (identity : String) (u : UserRow) : Bool :=
  lower u.email = lower identity || u.name = identity

/-- `ORDER BY CASE WHEN lower(u.email)=lower($1) THEN 0 ELSE 1 END,u.id`. -/
def loginBefore (identity : String) (u v : UserRow) : Bool :=
  let byEmail := fun w : UserRow => decide (lower w.email = lower identity)
  if byEmail u = byEmail v then u.id ≤ v.id else byEmail u

/-- The account that `login` selects for what a visitor types. -/
def loginUser (t : AccountTables) (typed : String) : Option UserRow :=
  let identity := trim typed
  if identity = "" then none
  else ((t.users.filter (matchesIdentity lower identity)).insertionSort
    fun u v => loginBefore lower identity u v = true).head?

/-! ## Accounts -/

/-- `CreateUser`. -/
structure CreateUser where
  name : String
  email : String
  userType : UserType
  hidden : Bool
  banned : Bool
  changePassword : Bool

/-- `PatchUser`. -/
structure PatchUser where
  name : Option String
  email : Option String
  userType : Option UserType
  hidden : Option Bool
  banned : Option Bool
  changePassword : Option Bool
  teamId : Option (Option ℤ)

/-- `create` in `user_accounts.rs`. -/
def createUser (admin : CurrentUser) (request : CreateUser) : Transaction Answer := do
  check (admin.userType = .admin) "Administrator access is required"
  let name ← liftExcept (validateName request.name)
  let email ← liftExcept (validateEmail request.email)
  lockConfigurationShared
  revalidateCurrentCredential admin
  rejectDuplicateIdentity lower none name email
  onlyIf (! request.hidden && ! request.banned) (acquire .registrationCapacity)
  insertUser lower fun id =>
    { id, name, email, userType := request.userType, hidden := request.hidden
      banned := request.banned, changePassword := request.changePassword, teamId := none }
  pure .done

/-- `require_another_active_admin`. -/
def requireAnotherActiveAdmin (excludedUserId : ℤ) : Transaction Unit := do
  let exists' ← select (·.anotherActiveAdmin excludedUserId)
  check exists' "At least one active administrator is required"

/-- `would_deactivate_admin`. -/
def wouldDeactivateAdmin (current : UserRow) (requestedType : Option UserType)
    (requestedBanned : Option Bool) : Bool :=
  current.userType = .admin && ! current.banned &&
    (requestedType.getD current.userType ≠ .admin || requestedBanned.getD current.banned)

/-- `guard_admin_update`. -/
def guardAdminUpdate (userId : ℤ) (requestedType : Option UserType)
    (requestedBanned : Option Bool) : Transaction Unit := do
  acquire .setupInvariant
  let current ← select (·.user userId)
  onlyIf (current.any (wouldDeactivateAdmin · requestedType requestedBanned))
    (requireAnotherActiveAdmin userId)

/-- `guard_admin_delete`. -/
def guardAdminDelete (userId : ℤ) : Transaction Unit := do
  acquire .setupInvariant
  let isActiveAdmin ← select fun t =>
    t.users.any fun u => u.id = userId && u.userType = .admin && ! u.banned
  onlyIf isActiveAdmin (requireAnotherActiveAdmin userId)

/-- `team_assignment_allowed`. -/
def teamAssignmentAllowed (mode : UserMode) (teamId : Option ℤ) : Bool :=
  teamId.isNone || mode = .teams

/-- The columns that `update` writes. -/
def PatchUser.apply (request : PatchUser) (name email : Option String)
    (teamId : Option (Option ℤ)) (u : UserRow) : UserRow :=
  { u with
    name := name.getD u.name
    email := email.getD u.email
    userType := request.userType.getD u.userType
    hidden := request.hidden.getD u.hidden
    banned := request.banned.getD u.banned
    changePassword := request.changePassword.getD u.changePassword
    teamId := teamId.getD u.teamId }

/-- The captain of a team steps down where he is the account. -/
def clearCaptain (teamId userId : ℤ) : Transaction Unit :=
  updateTeams (fun team => team.id = teamId && team.captainId = some userId)
    fun team => { team with captainId := none }

/-- The locks and the guard of `update` before the row is read. -/
def openUpdate (actor : CurrentUser) (userId : ℤ) (request : PatchUser) (admin : Bool) :
    Transaction Unit := do
  lockConfigurationShared
  revalidateCurrentCredential actor
  onlyIf (admin && (request.userType.isSome || request.hidden.isSome || request.banned.isSome))
    (acquire .registrationCapacity)
  onlyIf (request.teamId.isSome || (admin && request.userType.isSome)) do
    check admin "Team membership can only be changed by an administrator"
    acquire .teamMembership
  onlyIf admin (guardAdminUpdate userId request.userType request.banned)

/-- The team that `update` writes, and what leaves the previous one. -/
def moveTeam (userId : ℤ) (request : PatchUser) (admin : Bool) (previous : UserRow) :
    Transaction (Option (Option ℤ)) := do
  let intendedType := request.userType.getD previous.userType
  check (intendedType = .user || request.teamId.join.isNone)
    "Administrator accounts cannot be assigned to a team"
  let teamId :=
    if intendedType ≠ .user && previous.teamId.isSome then some none else request.teamId
  onlyIf admin do
    let mode ← select (·.settings.userMode)
    check (teamAssignmentAllowed mode (teamId.getD previous.teamId))
      "Users can only be assigned to teams while competition mode is teams"
  match previous.teamId with
  | some previousTeamId =>
    onlyIf (teamId.isSome && teamId.join ≠ previous.teamId) do
      acquire (.team previousTeamId)
      clearCaptain previousTeamId userId
  | none => pure ⟨⟩
  pure teamId

/-- The team of a request is there. -/
def requireTeam (teamId : Option (Option ℤ)) : Transaction Unit :=
  match teamId with
  | some (some id) => do
    acquire (.team id)
    let _ ← fetchOne (·.team id) "Please provide a valid team id"
    pure ⟨⟩
  | _ => pure ⟨⟩

/-- The index of a column that may be written. -/
def claimField (claim : String → Transaction Unit) : Option String → Transaction Unit
  | some value => claim value
  | none => pure ⟨⟩

/-- `update` in `user_accounts.rs`. -/
def updateUser (actor : CurrentUser) (userId : ℤ) (request : PatchUser) (admin : Bool) :
    Transaction Answer := do
  let name ← liftExcept (checkField validateName request.name)
  let email ← liftExcept (checkField validateEmail request.email)
  openUpdate actor userId request admin
  acquire (.user userId)
  let previous ← fetchOne (·.user userId) "User not found"
  let teamId ← moveTeam userId request admin previous
  rejectDuplicateIdentity lower (some userId) (name.getD previous.name)
    (email.getD previous.email)
  requireTeam teamId
  claimField (claimName userId) name
  claimField (claimEmail lower userId) email
  updateUsers (·.id = userId) (request.apply name email teamId)
  pure .done

/-- `update_admin` in `user_accounts.rs`. -/
def updateAdmin (admin : CurrentUser) (userId : ℤ) (request : PatchUser) : Transaction Answer := do
  check (admin.userType = .admin) "Administrator access is required"
  check (! (admin.id = userId && request.banned = some true)) "You cannot ban yourself"
  updateUser lower admin userId request true

/-- `update_self`. -/
def updateSelf (user : CurrentUser) (request : PatchUser) : Transaction Answer :=
  updateUser lower user user.id
    { request with
      userType := none, hidden := none, banned := none, changePassword := none, teamId := none }
    false

end Lower

/-- `delete` in `user_accounts.rs`; the captain of a team is set null with his account. -/
def deleteUser (admin : CurrentUser) (userId : ℤ) : Transaction Answer := do
  check (admin.userType = .admin) "Administrator access is required"
  check (admin.id ≠ userId) "You cannot delete yourself"
  lockConfigurationShared
  revalidateCurrentCredential admin
  acquire .registrationCapacity
  acquire .teamMembership
  guardAdminDelete userId
  acquire (.user userId)
  change fun t =>
    { t with
      users := t.users.filter (·.id ≠ userId)
      teams := update (·.captainId = some userId) (fun team => { team with captainId := none })
        t.teams }
  pure .done

/-! ## Teams -/

/-- `create` in `team_accounts.rs`. -/
def createTeam (admin : CurrentUser) (hidden banned : Bool) : Transaction Answer := do
  requireTeamMode
  check (admin.userType = .admin) "Administrator access is required"
  lockConfigurationShared
  revalidateCurrentCredential admin
  requireTeamMode
  acquire .teamCapacity
  let id ← nextval .teams
  change fun t => { t with teams := t.teams ++ [{ id, captainId := none, hidden, banned }] }
  pure .done

/-- `lock_participant`. -/
def lockParticipant (userId : ℤ) : Transaction (Option ℤ) := do
  acquire (.user userId)
  let row ← fetchOne (·.user userId) "The authenticated account no longer exists"
  check (row.userType = .user) "Only participant accounts can create or join teams"
  pure row.teamId

/-- `UPDATE ctfzone.users SET team_id=$1 WHERE id=$2 AND team_id IS NULL AND type='user'`. -/
def assignTeam (teamId userId : ℤ) : Transaction Unit := do
  let free : UserRow → Bool := fun u => u.id = userId && u.teamId.isNone && u.userType = .user
  let assigned ← select fun t => t.users.any free
  check assigned "You have already joined a team"
  updateUsers free fun u => { u with teamId := some teamId }

/-- `create_current`. -/
def createCurrent (user : CurrentUser) : Transaction Answer := do
  check (user.userType = .user) "Only participant accounts can create or join teams"
  lockConfigurationShared
  revalidateCurrentCredential user
  requireTeamMode
  acquire .teamCapacity
  acquire .teamMembership
  let currentTeamId ← lockParticipant user.id
  check currentTeamId.isNone "You have already joined a team"
  let settings ← select (·.settings)
  check settings.teamCreation
    "Participant team creation is currently disabled; join an existing team instead"
  onlyIf (0 < settings.numTeams) do
    let activeTeams ← select (·.activeTeams)
    check ((activeTeams : ℤ) < settings.numTeams) "The maximum number of teams has been reached"
  let id ← nextval .teams
  change fun t =>
    { t with teams := t.teams ++ [{ id, captainId := some user.id, hidden := false, banned := false }] }
  assignTeam id user.id
  pure .created

/-- `load_team_for_update`. -/
def loadTeamForUpdate (teamId : ℤ) (error : String) : Transaction TeamRow := do
  acquire (.team teamId)
  fetchOne (·.team teamId) error

/-- `join_current`, with an invite of a team. -/
def joinCurrent (user : CurrentUser) (teamId : ℤ) : Transaction Answer := do
  check (user.userType = .user) "Only participant accounts can create or join teams"
  lockConfigurationShared
  revalidateCurrentCredential user
  requireTeamMode
  acquire .teamMembership
  let currentTeamId ← lockParticipant user.id
  check currentTeamId.isNone "You have already joined a team"
  let record ← loadTeamForUpdate teamId "The team invite is invalid or has expired"
  check (! record.banned) "The team invite is invalid or has expired"
  let maximumMembers ← select (·.settings.teamSize)
  onlyIf (0 < maximumMembers) do
    let memberCount ← select (·.memberCount record.id)
    check ((memberCount : ℤ) < maximumMembers) "This team has reached its maximum size"
  assignTeam record.id user.id
  pure (.joined record.id)

/-- `add_member`. -/
def addMember (admin : CurrentUser) (teamId userId : ℤ) : Transaction Answer := do
  requireTeamMode
  check (admin.userType = .admin) "Administrator access is required"
  lockConfigurationShared
  revalidateCurrentCredential admin
  requireTeamMode
  acquire .teamMembership
  acquire (.user userId)
  let participant ← fetchOne (·.user userId) "User not found"
  check (participant.userType = .user) "Only participant accounts can be team members"
  check participant.teamId.isNone "User has already joined a team"
  let _ ← loadTeamForUpdate teamId "Team not found"
  updateUsers (·.id = userId) fun u => { u with teamId := some teamId }
  pure .done

/-- `remove_member`. -/
def removeMember (admin : CurrentUser) (teamId userId : ℤ) : Transaction Answer := do
  requireTeamMode
  check (admin.userType = .admin) "Administrator access is required"
  lockConfigurationShared
  revalidateCurrentCredential admin
  requireTeamMode
  acquire .teamMembership
  acquire (.user userId)
  let memberTeamId ← select fun t => (t.user userId).bind UserRow.teamId
  let _ ← loadTeamForUpdate teamId "Team not found"
  check (memberTeamId = some teamId) "User is not part of this team"
  updateUsers (·.id = userId) fun u => { u with teamId := none }
  clearCaptain teamId userId
  pure .done

/-- `PatchTeam`. -/
structure PatchTeam where
  hidden : Option Bool
  banned : Option Bool
  captainId : Option (Option ℤ)

/-- The captain of a request is a member. -/
def requireMember (teamId : ℤ) (captainId : Option (Option ℤ)) : Transaction Unit :=
  match captainId with
  | some (some userId) => do
    let member ← select fun t => t.users.any fun u => u.id = userId && u.teamId = some teamId
    check member "Only team members can be captain"
  | _ => pure ⟨⟩

/-- `update` in `team_accounts.rs`. -/
def updateTeam (actor : CurrentUser) (teamId : ℤ) (request : PatchTeam) (admin : Bool) :
    Transaction Answer := do
  let _ ← fetchOne (·.team teamId) "Team not found"
  lockConfigurationShared
  revalidateCurrentCredential actor
  requireTeamMode
  onlyIf (! admin) do
    acquire .teamMembership
    let actorTeamId ← lockParticipant actor.id
    check (actorTeamId = some teamId) "You are not a member of this team"
    let lockedTeam ← loadTeamForUpdate teamId "Team not found"
    check (lockedTeam.captainId = some actor.id) "Only team captains can edit team information"
  onlyIf (request.hidden.isSome || request.banned.isSome) (acquire .teamCapacity)
  onlyIf request.captainId.isSome (acquire .teamMembership)
  requireMember teamId request.captainId
  updateTeams (·.id = teamId) fun team =>
    { team with
      hidden := request.hidden.getD team.hidden
      banned := request.banned.getD team.banned
      captainId := request.captainId.getD team.captainId }
  pure .done

/-- `update_admin` in `team_accounts.rs`. -/
def updateTeamAdmin (admin : CurrentUser) (teamId : ℤ) (request : PatchTeam) :
    Transaction Answer := do
  requireTeamMode
  check (admin.userType = .admin) "Administrator access is required"
  updateTeam admin teamId request true

/-- `update_current`. -/
def updateCurrent (user : CurrentUser) (request : PatchTeam) : Transaction Answer := do
  requireTeamMode
  let teamId ← liftExcept (required user.teamId "You are not a member of a team")
  updateTeam user teamId { request with hidden := none, banned := none } false

/-- `delete_team`. -/
def deleteTeam (actor : CurrentUser) (teamId : ℤ) (participantActor : Option ℤ) :
    Transaction Answer := do
  lockConfigurationShared
  revalidateCurrentCredential actor
  requireTeamMode
  acquire .teamCapacity
  acquire .teamMembership
  match participantActor with
  | some actorId => do
    let actorTeamId ← lockParticipant actorId
    check (actorTeamId = some teamId) "You are not a member of this team"
  | none => pure ⟨⟩
  let team ← loadTeamForUpdate teamId "Team not found"
  match participantActor with
  | some actorId => do
    check (team.captainId = some actorId) "Only team captains can disband their team"
    let disbanding ← select (·.settings.teamDisbanding)
    check disbanding "Team disbanding is currently disabled"
  | none => pure ⟨⟩
  updateUsers (·.teamId = some teamId) fun u => { u with teamId := none }
  change fun t => { t with teams := t.teams.filter (·.id ≠ teamId) }
  pure .done

/-- `delete_admin`. -/
def deleteAdmin (admin : CurrentUser) (teamId : ℤ) : Transaction Answer := do
  requireTeamMode
  check (admin.userType = .admin) "Administrator access is required"
  deleteTeam admin teamId none

/-- `delete_current`. -/
def deleteCurrent (user : CurrentUser) : Transaction Answer := do
  requireTeamMode
  let teamId ← liftExcept (required user.teamId "You are not a member of a team")
  deleteTeam user teamId (some user.id)

/-! ## Settings -/

/-- A change of settings, `patch_configs`; the mode is not changed by it. -/
def patchConfigs (settings : Settings) : Transaction Answer := do
  acquire (.configuration true)
  change fun t => { t with settings := { settings with userMode := t.settings.userMode } }
  pure .done

/-- `execute` in `user_mode_transition.rs`, as far as accounts and teams go. -/
def changeMode (user : CurrentUser) (targetMode : UserMode) : Transaction Answer := do
  check (user.userType = .admin) "Administrator access is required"
  acquire (.configuration true)
  revalidateCurrentCredential user
  let sourceMode ← select (·.settings.userMode)
  check (sourceMode ≠ targetMode) "The requested competition mode is already active"
  updateUsers (·.teamId.isSome) fun u => { u with teamId := none }
  change fun t =>
    { t with
      teams := []
      settings := { t.settings with userMode := targetMode }
      transitions := t.transitions + 1 }
  pure .done

/-! ## The portal -/

/-- The requests. -/
inductive Request
  | setup (name email : String)
  | register (name email : String)
  | createUser (admin : CurrentUser) (request : CreateUser)
  | updateAdmin (admin : CurrentUser) (userId : ℤ) (request : PatchUser)
  | updateSelf (user : CurrentUser) (request : PatchUser)
  | deleteUser (admin : CurrentUser) (userId : ℤ)
  | createTeam (admin : CurrentUser) (hidden banned : Bool)
  | createCurrent (user : CurrentUser)
  | joinCurrent (user : CurrentUser) (teamId : ℤ)
  | addMember (admin : CurrentUser) (teamId userId : ℤ)
  | removeMember (admin : CurrentUser) (teamId userId : ℤ)
  | updateTeamAdmin (admin : CurrentUser) (teamId : ℤ) (request : PatchTeam)
  | updateCurrent (user : CurrentUser) (request : PatchTeam)
  | deleteAdmin (admin : CurrentUser) (teamId : ℤ)
  | deleteCurrent (user : CurrentUser)
  | patchConfigs (settings : Settings)
  | changeMode (user : CurrentUser) (targetMode : UserMode)

/-- The transaction of a request. -/
def Request.transaction (lower : String → String) : Request → Transaction Answer
  | .setup name email => Accounts.setup lower name email
  | .register name email => Accounts.register lower name email
  | .createUser admin request => Accounts.createUser lower admin request
  | .updateAdmin admin userId request => Accounts.updateAdmin lower admin userId request
  | .updateSelf user request => Accounts.updateSelf lower user request
  | .deleteUser admin userId => Accounts.deleteUser admin userId
  | .createTeam admin hidden banned => Accounts.createTeam admin hidden banned
  | .createCurrent user => Accounts.createCurrent user
  | .joinCurrent user teamId => Accounts.joinCurrent user teamId
  | .addMember admin teamId userId => Accounts.addMember admin teamId userId
  | .removeMember admin teamId userId => Accounts.removeMember admin teamId userId
  | .updateTeamAdmin admin teamId request => Accounts.updateTeamAdmin admin teamId request
  | .updateCurrent user request => Accounts.updateCurrent user request
  | .deleteAdmin admin teamId => Accounts.deleteAdmin admin teamId
  | .deleteCurrent user => Accounts.deleteCurrent user
  | .patchConfigs settings => Accounts.patchConfigs settings
  | .changeMode user targetMode => Accounts.changeMode user targetMode

/-- The tables with the requests in flight. -/
abbrev Portal := SharedLocks.System AccountTables LockKey Sequence String Answer

/-- One step of the portal. -/
def portalStep (lower : String → String) :
    Locking.Label Request Empty → Portal → Option Portal :=
  SharedLocks.step (Request.transaction lower) nofun

/-- A portal that is not set up. -/
structure Initial (s : Portal) : Prop where
  users : s.store.users = []
  teams : s.store.teams = []
  marker : s.store.setupMarker = false
  running : s.running = []

end CtfZone.Accounts
