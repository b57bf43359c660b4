/-
# Flag submissions

`challenges.rs` and `flag_policy.rs`: an attempt on a challenge, from the text
of the request to the rows it leaves.

An attempt is one transaction under the lock of its account and challenge.  The
gates that only turn a request away before its text is looked at (visibility,
the time of the event, verified addresses, the request limiter) are left out.

* `compareSubmission` : the verdict on a submission;
* `attempt` : the whole request, with the `Judgement` it has come to.
-/
import CtfZone.FlagPolicy

namespace CtfZone.Submissions

open Journal

/-! ## Tables -/

/-- `Account`. -/
inductive Account
  | user (id : ℤ)
  | team (id : ℤ)
  deriving DecidableEq

/-- A row of `challenges`, as `ChallengeAttemptRow` and the flag routes read it. -/
structure ChallengeRow where
  id : ℤ
  challengeType : Option String
  state : String
  logic : String
  maxAttempts : Option ℤ
  exposure : String
  requirements : Option Json

/-- A row of `submissions`. -/
structure SubmissionRow where
  id : ℤ
  challengeId : ℤ
  userId : Option ℤ
  teamId : Option ℤ
  provided : Option String
  submissionType : String
  date : Time
  deriving DecidableEq

/-- A row of `solves`. -/
structure SolveRow where
  id : ℤ
  challengeId : ℤ
  userId : Option ℤ
  teamId : Option ℤ
  deriving DecidableEq

/-- A row of `users`. -/
structure UserRow where
  id : ℤ
  userType : String
  teamId : Option ℤ

/-- `SharedFlagEvidence`. -/
structure SharedFlagEvidence where
  flagId : ℤ
  sourceUserId : ℤ
  accepted : Bool
  matchTag : ByteArray

/-- A row of `flag_sharing_events`. -/
structure FlagSharingEvent where
  submissionId : ℤ
  challengeId : ℤ
  submittingUserId : ℤ
  teamIdSnapshot : Option ℤ
  evidence : SharedFlagEvidence

/-- The configuration an attempt reads. -/
structure Settings where
  ctfName : Option String
  paused : Bool
  incorrectLimit : ℤ
  maxBehavior : String
  maxTimeout : ℤ

/-- The tables and the configuration that submissions read and write.  The
flags are in the order of their ids. -/
structure Portal (crates : Crates) where
  challenges : List ChallengeRow
  flags : List (SavedFlag crates)
  userChallengeFlags : List UserChallengeFlag
  submissions : List SubmissionRow
  solves : List SolveRow
  flagSharingEvents : List FlagSharingEvent
  users : List UserRow
  nextSubmissionId : ℤ
  nextFlagId : ℤ
  teamMode : Bool
  settings : Settings
  secretKey : String

variable {crates : Crates}

/-- The rows of an account. -/
def Account.owns (account : Account) (userId teamId : Option ℤ) : Bool :=
  match account with
  | .user id => userId = some id
  | .team id => teamId = some id

/-! ## Matching -/

/-- `FlagEvaluation`. -/
structure FlagEvaluation where
  matched : Bool
  shared : Option SharedFlagEvidence

/-- `flag_matches_literal`. -/
def flagMatchesLiteral (crates : Crates) (saved provided : String) (caseSensitive : Bool) : Bool :=
  if caseSensitive then saved = provided
  else crates.toLowercase saved = crates.toLowercase provided

/-- `flag_matches_regex`. -/
def flagMatchesRegex (crates : Crates) (pattern provided : String) (caseSensitive : Bool) :
    Except String Bool :=
  (compileRegex crates pattern caseSensitive).map (· provided)

/-- `FlagMatch`. -/
inductive FlagMatch
  | no
  | own
  | other (evidence : SharedFlagEvidence)

/-- `generated_flag_match`. -/
def generatedFlagMatch (crates : Crates) (rows : List UserChallengeFlag) (secretKey : String)
    (challengeId userId : ℤ) (flag : StoredFlag) (provided : String) :
    Except String FlagMatch := do
  let policy ← parsePolicy flag.data
  let tag := matchTag crates secretKey challengeId provided policy.caseSensitive
  match rows.find? fun row => row.challengeId = challengeId &&
      @decide (row.matchTag = tag) (ByteArray.instDecidableEq _ _) with
  | none => pure .no
  | some owner =>
    if owner.flagId ≠ flag.id then pure .no
    else if owner.userId = userId then pure .own
    else pure (.other ⟨flag.id, owner.userId, policy.acceptOtherUsers, tag⟩)

/-- What `flag_matches` reads beside the flag and the text. -/
structure Context where
  crates : Crates
  rows : List UserChallengeFlag
  secretKey : String
  challengeId : ℤ
  userId : ℤ

/-- `flag_matches`. -/
def flagMatches (context : Context) (flag : StoredFlag) (provided : String) :
    Except String FlagEvaluation :=
  match FlagPolicyData.fromValue flag.data with
  | none => .error "Stored flag options are invalid"
  | some policy =>
    match flag.flagType with
    | "static" =>
      .ok ⟨flagMatchesLiteral context.crates flag.content provided policy.caseSensitive, none⟩
    | "regex" =>
      (flagMatchesRegex context.crates flag.content provided policy.caseSensitive).map
        fun matched => ⟨matched, none⟩
    | "generated" => do
      match ← generatedFlagMatch context.crates context.rows context.secretKey
          context.challengeId context.userId flag provided with
      | .no => pure ⟨false, none⟩
      | .own => pure ⟨true, none⟩
      | .other evidence => pure ⟨evidence.accepted, some evidence⟩
    | _ => .error ("Unsupported flag type on flag " ++ toString flag.id)

/-! ## The verdict -/

/-- `FlagResult`. -/
inductive FlagResult
  | correct
  | partially
  | incorrect (message : String)
  deriving DecidableEq

/-- `ComparisonResult`. -/
structure ComparisonResult where
  outcome : FlagResult
  shared : Option SharedFlagEvidence

/-- The loop over the flags that stops at the first one the submission matches. -/
def firstMatch (context : Context) (submission : String) (shared : Option SharedFlagEvidence) :
    List StoredFlag → Except String (Bool × Option SharedFlagEvidence)
  | [] => .ok (false, shared)
  | flag :: flags => do
    let evaluation ← flagMatches context flag submission
    if evaluation.matched then pure (true, evaluation.shared.or shared)
    else firstMatch context submission (evaluation.shared.or shared) flags

/-- The loop over the stored part of `provided` for one flag. -/
def matchedByStored (context : Context) (flag : StoredFlag) : List String → Except String Bool
  | [] => .ok false
  | candidate :: stored => do
    let evaluation ← flagMatches context flag candidate
    if evaluation.matched then pure true else matchedByStored context flag stored

/-- The loop of the logic `all` over the flags.  The submission is the last
candidate for each of them. -/
def allMatched (context : Context) (stored : List String) (submission : String)
    (shared : Option SharedFlagEvidence) :
    List StoredFlag → Except String (Bool × Option SharedFlagEvidence)
  | [] => .ok (true, shared)
  | flag :: flags => do
    if ← matchedByStored context flag stored then
      allMatched context stored submission shared flags
    else
      let evaluation ← flagMatches context flag submission
      if evaluation.matched then
        allMatched context stored submission (evaluation.shared.or shared) flags
      else pure (false, evaluation.shared.or shared)

/-- The stored partial submissions of an account. -/
def storedPartials (portal : Portal crates) (account : Account) (challengeId : ℤ) :
    List SubmissionRow :=
  portal.submissions.filter fun row =>
    account.owns row.userId row.teamId && row.challengeId = challengeId &&
      row.submissionType = "partial"

/-- The strings of the stored partial submissions. -/
def storedProvided (portal : Portal crates) (account : Account) (challengeId : ℤ) : List String :=
  (storedPartials portal account challengeId).filterMap SubmissionRow.provided

/-- Every member of the team has submitted a flag. -/
def allMembersSubmitted (portal : Portal crates) (account : Account) (challengeId userId : ℤ) : Bool :=
  let submitters :=
    userId :: (storedPartials portal account challengeId).filterMap SubmissionRow.userId
  let members := (portal.users.filter fun user => account.owns none user.teamId).map UserRow.id
  submitters.all (members.contains ·) && members.all (submitters.contains ·)

/-- `compare_submission`. -/
def compareSubmission (context : Context) (portal : Portal crates) (account : Account)
    (challenge : ChallengeRow) (flags : List StoredFlag) (submission : String) :
    Except String ComparisonResult :=
  if flags.isEmpty then .ok ⟨.incorrect "Incorrect", none⟩
  else if challenge.logic = "all" then do
    let stored := storedProvided portal account challenge.id
    let (matched, shared) ← allMatched context stored submission none flags
    if matched then pure ⟨.correct, shared⟩
    else
      let (matched, shared) ← firstMatch context submission shared flags
      pure ⟨if matched then .partially else .incorrect "Incorrect", shared⟩
  else if challenge.logic = "team" && portal.teamMode then do
    let (matched, shared) ← firstMatch context submission none flags
    if ! matched then pure ⟨.incorrect "Incorrect", shared⟩
    else if allMembersSubmitted portal account challenge.id context.userId then
      pure ⟨.correct, shared⟩
    else pure ⟨.partially, shared⟩
  else do
    let (matched, shared) ← firstMatch context submission none flags
    pure ⟨if matched then .correct else .incorrect "Incorrect", shared⟩

/-! ## The request -/

/-- An attempt: the user it is from, its body, and the instant it is handled. -/
structure AttemptRequest where
  userId : ℤ
  isAdmin : Bool
  preview : Bool
  challengeId : ℤ
  submission : String
  now : Time

/-- An administrator asked for a verdict that is not recorded. -/
def AttemptRequest.isPreview (request : AttemptRequest) : Bool :=
  request.isAdmin && request.preview

/-- A response: the status code, and the `status` and `message` of the body. -/
structure AttemptResponse where
  code : ℕ
  status : String
  message : Option String

/-- `as_i64` of a prerequisite, where it is the id of a challenge. -/
def prerequisiteId (value : Json) : Option ℤ :=
  value.asI64.filter fun n => -2 ^ 31 ≤ n ∧ n < 2 ^ 31

/-- `requirements_met`. -/
def requirementsMet (requirements : Option Json) (solved : List ℤ) : Bool :=
  match requirements.bind (·.field "prerequisites") with
  | some (.array prerequisites) => (prerequisites.filterMap prerequisiteId).all (solved.contains ·)
  | _ => true

/-- The challenges an account has solved. -/
def solvedIds (portal : Portal crates) (account : Account) : List ℤ :=
  (portal.solves.filter fun row => account.owns row.userId row.teamId).map SolveRow.challengeId

/-- `has_solved`. -/
def hasSolved (portal : Portal crates) (account : Account) (challengeId : ℤ) : Bool :=
  (solvedIds portal account).contains challengeId

/-- The team a user submits for. -/
def submissionTeamId (portal : Portal crates) (userId : ℤ) : Except String (Option ℤ) :=
  if portal.teamMode then
    match (portal.users.find? fun user => user.id = userId && user.userType = "user").bind
        UserRow.teamId with
    | some teamId => .ok (some teamId)
    | none => .error "Join a team before submitting flags"
  else .ok none

/-- A value that a query has to return. -/
def required {α : Type} (value : Option α) (error : String) : Except String α :=
  match value with
  | some a => .ok a
  | none => .error error

theorem required_eq_ok {α : Type} {value : Option α} {error : String} {a : α} :
    required value error = .ok a ↔ value = some a := by
  cases value with
  | none => exact ⟨nofun, nofun⟩
  | some b => exact ⟨fun h => congrArg some (Except.ok.inj h), fun h => congrArg _ (Option.some.inj h)⟩

/-- What an attempt has read when its flags are compared. -/
structure OpenAttempt where
  submission : String
  teamId : Option ℤ
  account : Account
  challenge : ChallengeRow
  flags : List StoredFlag

/-- The first part of `attempt`, up to the flags. -/
def openAttempt (portal : Portal crates) (request : AttemptRequest) : Except String OpenAttempt := do
  let submission := trim request.submission
  ensure (submission ≠ "" && submission.utf8ByteSize ≤ 4096 &&
    ! submission.toList.contains '\x00') "A submission between 1 and 4096 bytes is required"
  let teamId ← submissionTeamId portal request.userId
  let account := teamId.elim (.user request.userId) .team
  let challenge ← required (portal.challenges.find? (·.id = request.challengeId))
    "Challenge not found"
  ensure (challenge.challengeType = some "standard" || challenge.challengeType = some "dynamic")
    "Unsupported challenge type"
  ensure (request.isPreview || challenge.state ≠ "hidden") "Challenge not found"
  ensure (request.isPreview || challenge.state ≠ "locked") "Challenge is locked"
  ensure (request.isPreview ||
    requirementsMet challenge.requirements (solvedIds portal account))
    "Challenge prerequisites are not satisfied"
  let flags := (portal.flags.map SavedFlag.toStoredFlag).filter (·.challengeId = challenge.id)
  ensure (! flags.isEmpty) "The challenge has no flag definition"
  pure ⟨submission, teamId, account, challenge, flags⟩

/-- What `flag_matches` reads in an attempt. -/
def OpenAttempt.context (portal : Portal crates) (request : AttemptRequest)
    (opened : OpenAttempt) : Context :=
  ⟨crates, portal.userChallengeFlags, portal.secretKey, opened.challenge.id, request.userId⟩

/-! ## Limits -/

/-- The incorrect submissions of an account on a challenge, or on any, since an
instant, or ever. -/
def incorrectSubmissions (portal : Portal crates) (account : Account) (challengeId : Option ℤ)
    (since : Option Time) : List SubmissionRow :=
  portal.submissions.filter fun row =>
    row.submissionType = "incorrect" && account.owns row.userId row.teamId &&
      challengeId.all (row.challengeId = ·) && since.all (· ≤ row.date)

/-- `seconds_remaining`, from the `oldest_submission` of the rows. -/
def secondsRemaining (rows : List SubmissionRow) (now : Time) (window : ℤ) : ℤ :=
  match (rows.map SubmissionRow.date).min? with
  | some date => max (window - (now - date).tdiv 1000000) 1
  | none => window

/-- `insert_submission`: the id of the row, and the tables with it. -/
def insertSubmission (portal : Portal crates) (request : AttemptRequest) (opened : OpenAttempt)
    (submissionType : String) : ℤ × Portal crates :=
  (portal.nextSubmissionId,
    { portal with
      submissions := portal.submissions ++
        [⟨portal.nextSubmissionId, opened.challenge.id, some request.userId, opened.teamId,
          some opened.submission, submissionType, request.now⟩]
      nextSubmissionId := portal.nextSubmissionId + 1 })

/-- The limits of an attempt: the response where one of them is reached, and
whether it is recorded. -/
def limitReached (portal : Portal crates) (request : AttemptRequest) (opened : OpenAttempt) :
    Option (AttemptResponse × Bool) :=
  let maxAttempts := opened.challenge.maxAttempts.getD 0
  let timeout := portal.settings.maxBehavior = "timeout"
  let since := if timeout then some (request.now - seconds portal.settings.maxTimeout) else none
  let fails := incorrectSubmissions portal opened.account (some opened.challenge.id) since
  let recent := incorrectSubmissions portal opened.account none (some (request.now - seconds 60))
  if 0 < maxAttempts && maxAttempts ≤ fails.length then
    if timeout then
      let wait := secondsRemaining fails request.now portal.settings.maxTimeout
      some (⟨429, "ratelimited",
        some ("Not accepted. Try again in " ++ toString wait ++ " seconds")⟩, true)
    else some (⟨403, "ratelimited", some "Not accepted. You have 0 tries remaining"⟩, false)
  else if portal.settings.incorrectLimit ≤ recent.length then
    let wait := secondsRemaining recent request.now 60
    some (⟨429, "ratelimited", some ("You're submitting flags too fast. Try again in " ++
      toString wait ++ " seconds.")⟩, true)
  else none

/-! ## The record -/

/-- A verdict, with what it rests on and the row it is recorded in. -/
structure Judgement where
  request : AttemptRequest
  submission : String
  challengeId : ℤ
  flags : List StoredFlag
  context : Context
  outcome : FlagResult
  submissionId : Option ℤ

/-- `record_shared_flag_evidence`. -/
def recordSharedFlagEvidence (portal : Portal crates) (submissionId : ℤ) (request : AttemptRequest)
    (opened : OpenAttempt) (shared : Option SharedFlagEvidence) : Portal crates :=
  match shared with
  | none => portal
  | some evidence =>
    { portal with
      flagSharingEvents := portal.flagSharingEvents ++
        [⟨submissionId, opened.challenge.id, request.userId, opened.teamId, evidence⟩] }

/-- The insertion into `solves`. -/
def insertSolve (portal : Portal crates) (submissionId : ℤ) (request : AttemptRequest)
    (opened : OpenAttempt) : Portal crates :=
  { portal with
    solves := portal.solves ++
      [⟨submissionId, opened.challenge.id, some request.userId, opened.teamId⟩] }

/-- The type a verdict is recorded with. -/
def FlagResult.submissionType : FlagResult → String
  | .correct => "correct"
  | .partially => "partial"
  | .incorrect _ => "incorrect"

/-- The response to a verdict; `team` says that all members have to submit. -/
def FlagResult.response (team : Bool) : FlagResult → AttemptResponse
  | .correct => ⟨200, "correct", some "Correct"⟩
  | .partially => ⟨200, "partial", some (if team then
      "Correct but all team members must submit a flag"
    else "Correct but more flags are required")⟩
  | .incorrect message => ⟨200, "incorrect", some message⟩

/-- The last part of `attempt`: the verdict is recorded. -/
def recordVerdict (portal : Portal crates) (request : AttemptRequest) (opened : OpenAttempt)
    (comparison : ComparisonResult) : AttemptResponse × ℤ × Portal crates :=
  if hasSolved portal opened.account opened.challenge.id then
    let (id, recorded) := insertSubmission portal request opened "discard"
    (⟨200, "already_solved", some "Correct but you already solved this"⟩, id,
      recordSharedFlagEvidence recorded id request opened comparison.shared)
  else
    let (id, recorded) :=
      insertSubmission portal request opened comparison.outcome.submissionType
    let evident := recordSharedFlagEvidence recorded id request opened comparison.shared
    (comparison.outcome.response (opened.challenge.logic = "team" && portal.teamMode), id,
      if comparison.outcome = .correct then insertSolve evident id request opened else evident)

/-- The verdict of an attempt that no limit stops. -/
def judgeAttempt (portal : Portal crates) (request : AttemptRequest)
    (opened : OpenAttempt) : Except String (AttemptResponse × Portal crates × Option Judgement) := do
  let context := opened.context portal request
  let comparison ← compareSubmission context portal opened.account opened.challenge opened.flags
    opened.submission
  let judgement : Option ℤ → Judgement := fun submissionId =>
    ⟨request, opened.submission, opened.challenge.id, opened.flags, context, comparison.outcome,
      submissionId⟩
  if request.isPreview then
    pure (comparison.outcome.response false, portal, some (judgement none))
  else
    let (response, id, recorded) := recordVerdict portal request opened comparison
    pure (response, recorded, some (judgement (some id)))

/-- `attempt`. -/
def attempt (portal : Portal crates) (request : AttemptRequest) :
    Except String (AttemptResponse × Portal crates × Option Judgement) :=
  if ! request.isPreview && portal.settings.paused then
    .ok (⟨403, "paused", some (portal.settings.ctfName.getD "CTFZone" ++ " is paused")⟩, portal, none)
  else do
    let opened ← openAttempt portal request
    match (if request.isPreview then none else limitReached portal request opened) with
    | some (response, recorded) =>
      pure (response,
        if recorded then (insertSubmission portal request opened "ratelimited").2 else portal, none)
    | none => judgeAttempt portal request opened

end CtfZone.Submissions
