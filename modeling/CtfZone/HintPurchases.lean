/-
# Hints and what they cost

The hints of a challenge (`content.rs`): how they are stored, who gets to see their content, and
the request that unlocks one and charges for it, statement by statement.

The score of an account is the sum of its solves and awards; a hint that is unlocked is charged
as a negative award.  A request that is refused for the credential of its user ends like one
that is given up.  The gates in front of a challenge are read at once.  What else happens leaves
the unlocks and the user mode, and may change everything else.

* `unlock` : the purchase;
* `Purchase` : what its commit has done;
* `getHint`, `detailHints` : the two routes that return the content of a hint.
-/
import CtfZone.SharedLocks
import CtfZone.ChallengeAccess
import CtfZone.Scoreboard

namespace CtfZone.Hints

open Journal Submissions Challenges
open Locking.Program SharedLocks

variable {crates : Crates}

/-! ## Tables -/

/-- A row of `hints`. -/
structure HintRow where
  id : ℤ
  title : Option String
  hintType : Option String
  challengeId : Option ℤ
  content : Option String
  cost : Option ℤ
  requirements : Option Json

/-- A row of `solutions`. -/
structure SolutionRow where
  id : ℤ
  challengeId : Option ℤ

/-- A row of `awards`. -/
structure AwardRow where
  id : ℕ
  userId : Option ℤ
  teamId : Option ℤ
  awardType : String
  name : String
  description : String
  date : Time
  value : Option ℤ
  category : String

/-- A row of `unlocks`. -/
structure UnlockRow where
  id : ℕ
  userId : Option ℤ
  teamId : Option ℤ
  target : ℤ
  date : Time
  unlockType : String
  deriving DecidableEq

/-- The tables and the configuration that purchases read and write. -/
structure HintTables (crates : Crates) where
  portal : Portal crates
  access : AccessConfig
  hintsFreePublicAccess : Bool
  values : List Scoreboard.ValueRow
  hints : List HintRow
  solutions : List SolutionRow
  awards : List AwardRow
  unlocks : List UnlockRow

/-- The locks: the membership of teams, the advisory lock of an account, which is negated for
a team, and the entries of the two unique indexes of the unlocks. -/
inductive LockKey
  | membership
  | account (number : ℤ)
  | userEntry (unlockType : String) (target userId : ℤ)
  | teamEntry (unlockType : String) (target teamId : ℤ)
  deriving DecidableEq

instance : Lockable LockKey where
  conflict key key' := key = key'
  symm key key' := by simp only [eq_comm]

/-- The sequences of the ids. -/
inductive Sequence
  | awards
  | unlocks
  deriving DecidableEq

/-- What the commit of a purchase has done. -/
structure Purchase where
  account : Account
  cost : ℤ
  row : UnlockRow
  awards : List AwardRow

/-- What a request does in its transaction. -/
abbrev Transaction (crates : Crates) := Locking.Program (HintTables crates) LockKey Sequence String

/-- The row is of the account, and of the target. -/
def UnlockRow.covers (row : UnlockRow) (account : Account) (unlockType : String) (target : ℤ) :
    Bool :=
  row.target = target && row.unlockType = unlockType && account.owns row.userId row.teamId

namespace HintTables

variable (t : HintTables crates)

/-- What a solve counts; the values of a challenge without one are left out. -/
def solveValue (row : SubmissionRow) : Option ℤ :=
  if t.portal.solves.any (·.id = row.id) then
    (t.values.find? (·.challengeId = row.challengeId)).bind Scoreboard.ValueRow.value
  else none

/-- `account_score`. -/
def accountScore (account : Account) : ℤ :=
  ((t.portal.submissions.filter fun row => account.owns row.userId row.teamId).filterMap
    t.solveValue).sum +
  ((t.awards.filter fun row => account.owns row.userId row.teamId).filterMap AwardRow.value).sum

/-- The account has unlocked the target. -/
def unlocked (account : Account) (unlockType : String) (target : ℤ) : Bool :=
  t.unlocks.any (·.covers account unlockType target)

/-- The account of an id in the user mode. -/
def account (id : ℤ) : Account := if t.portal.teamMode then .team id else .user id

/-- The team of a participant. -/
def participantTeam (userId : ℤ) : Option ℤ :=
  (t.portal.users.find? fun u => u.id = userId && u.userType = "user").bind UserRow.teamId

/-- `load_hint`. -/
def loadHint (hintId : ℤ) : Except String HintRow :=
  required (t.hints.find? (·.id = hintId)) "Hint not found"

end HintTables

/-! ## Authoring -/

/-- The body of the creation of a hint. -/
structure HintInput where
  title : Option String
  hintType : Option String
  challengeId : ℤ
  content : String
  cost : ℤ
  requirements : Option Json

/-- The body of an edit of a hint. -/
structure HintPatch where
  title : Option String
  hintType : Option String
  challengeId : Option ℤ
  content : Option String
  cost : Option ℤ
  requirements : Option Json

/-- The document is an object. -/
def isObject : Json → Bool
  | .object _ => true
  | _ => false

/-- `validate_hint`. -/
def validateHint (cost : ℤ) (requirements : Option Json) : Except String Unit :=
  ensure (! (cost < 0 || requirements.any fun value => ! isObject value))
    "Invalid hint cost or requirements"

/-- `create_hint`, with the id that the sequence gives. -/
def createHint (request : HintInput) (id : ℤ) (t : HintTables crates) :
    Except String (HintTables crates) := do
  validateHint request.cost request.requirements
  pure { t with
    hints := t.hints ++ [{
      id, title := request.title, hintType := some (request.hintType.getD "standard")
      challengeId := some request.challengeId, content := some request.content
      cost := some request.cost, requirements := request.requirements }] }

/-- The fields of a patch that are there. -/
def HintPatch.apply (request : HintPatch) (hint : HintRow) : HintRow :=
  { hint with
    title := request.title.or hint.title, hintType := request.hintType.or hint.hintType
    challengeId := request.challengeId.or hint.challengeId
    content := request.content.or hint.content, cost := request.cost.or hint.cost
    requirements := request.requirements.or hint.requirements }

/-- `update_hint`. -/
def updateHint (hintId : ℤ) (request : HintPatch) (t : HintTables crates) :
    Except String (HintTables crates) := do
  ensure (! request.cost.any (· < 0)) "Hint cost cannot be negative"
  let _ ← t.loadHint hintId
  pure { t with hints := Tables.update (·.id = hintId) request.apply t.hints }

/-! ## Disclosure -/

/-- `has_unlock`. -/
def hasUnlock (t : HintTables crates) (user : Viewer) (unlockType : String) (target : ℤ) : Bool :=
  (viewerAccount t.portal.teamMode (some user.id) user.teamId).any (t.unlocked · unlockType target)

/-- `get_hint`. -/
def getHint (t : HintTables crates) (now : Time) (user : Option Viewer) (hintId : ℤ) :
    Except String HintRow := do
  let hint ← t.loadHint hintId
  let challengeId ← required hint.challengeId "Hint not found"
  let _ ← requireFullChallengeAccess t.access t.portal now user challengeId
  let unlocked :=
    match user with
    | some current => current.isAdmin || hasUnlock t current "hints" hintId
    | none => hint.cost.getD 0 = 0 && t.hintsFreePublicAccess
  pure (if unlocked then hint else { hint with content := none })

/-- `HintRenderRow`. -/
structure HintRenderRow where
  id : ℤ
  title : Option String
  cost : Option ℤ
  content : Option String
  unlocked : Bool
  deriving DecidableEq

/-- `ctf_ended`. -/
def ctfEnded (t : HintTables crates) (now : Time) : Bool :=
  0 < t.access.schedule.endTime && t.access.schedule.endTime < now / 1000000

/-- `unlocked_hint_ids`. -/
def unlockedHintIds (t : HintTables crates) (account : Account) : List ℤ :=
  (t.unlocks.filter fun row =>
    row.unlockType = "hints" && account.owns row.userId row.teamId).map UnlockRow.target

/-- The hints of `detail_data`, where the challenge is not a preview. -/
def detailHints (t : HintTables crates) (now : Time) (user : Option Viewer) (challengeId : ℤ) :
    Except String (List HintRenderRow) := do
  let _ ← challengeAccessContext t.access t.portal now user challengeId
  let account := user.bind fun current =>
    viewerAccount t.portal.teamMode (some current.id) current.teamId
  let unlocked := account.elim [] (unlockedHintIds t)
  pure ((t.hints.filter fun hint => hint.challengeId = some challengeId).map fun hint =>
    if ctfEnded t now || unlocked.contains hint.id || viewerIsAdmin user then
      ⟨hint.id, hint.title, hint.cost, hint.content, true⟩
    else ⟨hint.id, hint.title, hint.cost, none, false⟩)

/-! ## Purchases -/

/-- `UnlockInput`. -/
structure UnlockInput where
  target : ℤ
  targetType : String

/-- The team of a user, read under the lock of the membership. -/
def currentTeam (user : Viewer) : Transaction crates (Option ℤ) := do
  acquire .membership
  select (·.participantTeam user.id)

/-- The account that buys: its team, if the mode has teams, and its id. -/
def buyer (user : Viewer) (teamMode : Bool) : Transaction crates (Option ℤ × ℤ) :=
  if teamMode then do
    let currentTeamId ← currentTeam user
    let accountId ← liftExcept
      (required currentTeamId "Join a team before unlocking content")
    pure (currentTeamId, accountId)
  else pure (none, user.id)

/-- The challenge of a target, and the title and the cost of a hint. -/
def loadTarget (request : UnlockInput) :
    Transaction crates (ℤ × Option (Option String × Option ℤ)) :=
  if request.targetType = "hints" then do
    let hint ← fetchOne (fun t => t.hints.find? (·.id = request.target)) "Hint not found"
    let challengeId ← liftExcept (required hint.challengeId "Hint not found")
    pure (challengeId, some (hint.title, hint.cost))
  else do
    let challengeId ← fetchOne (fun t => (t.solutions.find? (·.id = request.target)).bind
      SolutionRow.challengeId) "Solution not found"
    pure (challengeId, none)

/-- The award of a charge. -/
def chargeAward (id : ℕ) (user : Viewer) (currentTeamId : Option ℤ) (request : UnlockInput)
    (title : Option String) (challengeId cost : ℤ) (now : Time) : AwardRow where
  id := id
  userId := some user.id
  teamId := currentTeamId
  awardType := "standard"
  name := title.getD ("Hint " ++ toString request.target)
  description := "Hint for challenge " ++ toString challengeId
  date := now
  value := some (-cost)
  category := "hints"

/-- The charge for a hint: what it costs, and the awards that are inserted for it. -/
def charge (user : Viewer) (currentTeamId : Option ℤ) (account : Account) (request : UnlockInput)
    (challengeId : ℤ) (hint : Option (Option String × Option ℤ)) (now : Time) :
    Transaction crates (ℤ × List AwardRow) :=
  match hint with
  | none => pure (0, [])
  | some (title, configuredCost) => do
    let score ← select (·.accountScore account)
    let cost := configuredCost.getD 0
    check (cost ≤ score) "You do not have enough points to unlock this hint"
    if 0 < cost then do
      let id ← nextval .awards
      let award := chargeAward id user currentTeamId request title challengeId cost now
      change fun t => { t with awards := t.awards ++ [award] }
      pure (cost, [award])
    else pure (cost, [])

/-- `INSERT INTO ctfzone.unlocks … ON CONFLICT DO NOTHING`. -/
def insertUnlock (row : UnlockRow) (userId : ℤ) : Transaction crates Unit := do
  acquire (.userEntry row.unlockType row.target userId)
  acquireAll ((row.teamId.map (LockKey.teamEntry row.unlockType row.target)).toList)
  let taken ← select fun t => t.unlocks.any fun other =>
    other.unlockType = row.unlockType && other.target = row.target &&
      (other.userId = row.userId || (row.teamId.isSome && other.teamId = row.teamId))
  check (! taken) "This content is already unlocked"
  change fun t => { t with unlocks := t.unlocks ++ [row] }

/-- `unlock`. -/
def unlock (user : Viewer) (request : UnlockInput) (now : Time) :
    Transaction crates Purchase := do
  let access ← select (·.access)
  liftExcept (requireCtfTime access now (some user))
  let access ← select (·.access)
  liftExcept (requireVerified access (some user))
  check (request.targetType = "hints" || request.targetType = "solutions")
    "Unsupported unlock type"
  let teamMode ← select (·.portal.teamMode)
  let (currentTeamId, accountId) ← buyer user teamMode
  acquire (.account (if teamMode then -accountId else accountId))
  let account : Account := if teamMode then .team accountId else .user accountId
  let (challengeId, hint) ← loadTarget request
  let gate ← select fun t =>
    requireFullChallengeAccess t.access t.portal now (some user) challengeId
  let _ ← liftExcept gate
  let existing ← select (·.unlocked account request.targetType request.target)
  check (! existing) "This content is already unlocked"
  let (cost, awards) ← charge user currentTeamId account request challengeId hint now
  let id ← nextval .unlocks
  let row : UnlockRow :=
    { id, userId := some user.id, teamId := currentTeamId, target := request.target, date := now
      unlockType := request.targetType }
  insertUnlock row user.id
  pure { account, cost, row, awards }

/-! ## The system -/

/-- A request to unlock. -/
structure Request where
  user : Viewer
  request : UnlockInput
  now : Time

/-- The transaction of a request. -/
def Request.transaction (crates : Crates) (r : Request) : Transaction crates Purchase :=
  unlock r.user r.request r.now

/-- A change of the other tables. -/
structure Beside (crates : Crates) where
  apply : HintTables crates → HintTables crates
  unlocks : ∀ t, (apply t).unlocks = t.unlocks
  teamMode : ∀ t, (apply t).portal.teamMode = t.portal.teamMode

/-- What else happens: hints are written, and everything else. -/
inductive Event (crates : Crates)
  | createHint (request : HintInput) (id : ℤ)
  | updateHint (hintId : ℤ) (request : HintPatch)
  | beside (change : Beside crates)

/-- What it does to the tables; a request that fails leaves them. -/
def Event.apply : Event crates → HintTables crates → HintTables crates
  | .createHint request id, t => ((Hints.createHint request id t).toOption).getD t
  | .updateHint hintId request, t => ((Hints.updateHint hintId request t).toOption).getD t
  | .beside change, t => change.apply t

/-- The service and its database. -/
abbrev Service (crates : Crates) :=
  SharedLocks.System (HintTables crates) LockKey Sequence String Purchase

/-- One step of the service. -/
def hintStep (crates : Crates) :
    Locking.Label Request (Event crates) → Service crates → Option (Service crates) :=
  SharedLocks.step (Request.transaction crates) Event.apply

/-- Nothing is in flight. -/
def Initial (s : Service crates) : Prop := s.running = []

end CtfZone.Hints
