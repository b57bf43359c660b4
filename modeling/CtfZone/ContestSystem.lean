/-
# Attempts in flight

The attempts of a contest beside each other and beside the requests of
administrators.  An attempt passes the gates, waits for its locks, reads its challenge,
and then goes on statement by statement: each of them reads the rows that are committed
at that moment, and what it inserts is seen by nobody else before the commit.

* an attempt holds the lock of its account and challenge from `acquire` to the end,
  and in team mode the one lock of all teams;
* the mode and the settings do not change while it does;
* the rows it has inserted keep the rows they refer to from being deleted or edited,
  and keep a second row with the same key waiting;
* the edit of a challenge holds the row of the challenge until it is committed.

* `Attempt` : how far an attempt has come;
* `Service` : the committed tables and what is in flight;
* `serviceStep` : one statement, or one request that is a single step;
* `Locked` : what the locks rule out.
-/
import CtfZone.ContestWrites
import CtfZone.Slots

namespace CtfZone.Contests

open Journal Runs Tables Submissions

variable {crates : Crates}

/-! ## Attempts -/

/-- What an attempt has read under its locks; the settings are those of the gates. -/
structure Opened where
  request : AttemptRequest
  settings : Settings
  startedAt : Time
  opened : OpenAttempt
  scoring : Option ScoringRow

/-- An attempt that no limit has stopped; `onTime` says whether the competition was on. -/
structure Admitted extends Opened where
  now : Time
  onTime : Bool

/-- An attempt with its verdict. -/
structure Judged extends Admitted where
  comparison : ComparisonResult

/-- An attempt whose rows are inserted; `solved` says that the account had solved the
challenge before. -/
structure Entered extends Judged where
  solved : Bool
  id : ℤ

namespace Entered

variable (a : Entered)

/-- The attempt solves the challenge. -/
def solves : Bool := ! a.solved && a.comparison.outcome = .correct

/-- The type of the row. -/
def submissionType : String :=
  if a.solved then "discard" else a.comparison.outcome.submissionType

/-- The row of `submissions`. -/
def row : SubmissionRow :=
  ⟨a.id, a.opened.challenge.id, some a.request.userId, a.opened.teamId, some a.opened.submission,
    a.submissionType, a.startedAt⟩

/-- The row of `solves`. -/
def solveRow : SolveRow :=
  ⟨a.id, a.opened.challenge.id, some a.request.userId, a.opened.teamId⟩

/-- The rows of `solves` the attempt inserts. -/
def solveRows : List SolveRow := if a.solves then [a.solveRow] else []

/-- The response. -/
def response (teamMode : Bool) : AttemptResponse :=
  if a.solved then ⟨200, "already_solved", some "Correct but you already solved this"⟩
  else a.comparison.outcome.response (a.opened.challenge.logic = "team" && teamMode)

end Entered

/-- Why an attempt has failed. -/
inductive Failure
  | rejected (error : String)
  | missingRow
  | uniqueViolation
  | aborted
  deriving DecidableEq

/-- How far an attempt has come. -/
inductive Attempt
  | gated (request : AttemptRequest) (settings : Settings) (gatedAt : Time)
  | opened (a : Opened)
  | admitted (a : Admitted)
  | compared (a : Judged)
  | checked (a : Judged) (solved : Bool)
  | recorded (a : Entered)
  | scored (a : Entered) (value : Option ℤ)
  | committed (a : Entered) (value : Option ℤ) (response : AttemptResponse)
  | answered (response : AttemptResponse)
  | failed (failure : Failure)

namespace Attempt

/-- The attempt holds the locks of what it has opened. -/
def locks : Attempt → Option Opened
  | .opened a => some a
  | .admitted a => some a.toOpened
  | .compared a => some a.toOpened
  | .checked a _ => some a.toOpened
  | .recorded a => some a.toOpened
  | .scored a _ => some a.toOpened
  | _ => none

/-- The attempt has inserted rows that are not committed. -/
def pending : Attempt → Option Entered
  | .recorded a => some a
  | .scored a _ => some a
  | _ => none

/-- The attempt is over. -/
def ended : Attempt → Bool
  | .committed .. | .answered _ | .failed _ => true
  | _ => false

/-- The attempt is about to write a value, and holds the lock of the value. -/
def valued : Attempt → Option (Entered × ℤ)
  | .scored a (some value) => some (a, value)
  | _ => none

end Attempt

/-- The edit of a challenge that is not committed. -/
structure Edit where
  challengeId : ℤ
  rows : ChallengeRow × ScoringRow

/-- The committed tables, and what is in flight. -/
structure Service (crates : Crates) where
  contest : Contest crates
  attempts : List Attempt
  edits : List Edit
  clock : Time

/-! ## The gates -/

/-- `CtfTimeAccess`. -/
inductive CtfTimeAccess
  | allowed
  | notStarted
  | ended
  deriving DecidableEq

/-- `ctf_time_access`. -/
def ctfTimeAccess (now start end' : ℤ) (viewAfterCtf : Bool) : CtfTimeAccess :=
  let inTime := (start = 0 || start < now) && (end' = 0 || now < end')
  if inTime || (end' ≠ 0 && end' < now && viewAfterCtf) then .allowed
  else if start ≠ 0 && now ≤ start then .notStarted
  else .ended

/-- The access of a participant at an instant; `timestamp` counts whole seconds. -/
def Schedule.access (schedule : Schedule) (now : Time) : CtfTimeAccess :=
  ctfTimeAccess (now / 1000000) schedule.startTime schedule.endTime schedule.viewAfterCtf

/-- The competition has started, has not ended and is not paused. -/
def Contest.running (contest : Contest crates) (now : Time) : Bool :=
  (contest.schedule.startTime = 0 || seconds contest.schedule.startTime ≤ now) &&
    (contest.schedule.endTime = 0 || now < seconds contest.schedule.endTime) &&
    ! contest.portal.settings.paused

namespace Service

variable (s : Service crates)

/-- The gates of `attempt`. -/
def gate (request : AttemptRequest) : Attempt :=
  match if request.isAdmin then .allowed else s.contest.schedule.access s.clock with
  | .notStarted => .failed (.rejected "CTFZone has not started yet")
  | .ended => .failed (.rejected "CTFZone has ended")
  | .allowed =>
    if ! request.isPreview && s.contest.portal.settings.paused then
      .answered ⟨403, "paused",
        some (s.contest.portal.settings.ctfName.getD "CTFZone" ++ " is paused")⟩
    else .gated request s.contest.portal.settings s.clock

/-! ## Statements -/

/-- The other attempts. -/
def others (i : ℕ) : List Attempt := s.attempts.eraseIdx i

/-- Another attempt holds the lock of the account and the challenge. -/
def locked (i : ℕ) (account : Account) (challengeId : ℤ) : Bool :=
  (s.others i).any fun other => other.locks.any fun a =>
    a.opened.account = account && a.request.challengeId = challengeId

/-- An edit holds the row of the challenge. -/
def editing (challengeId : ℤ) : Bool := s.edits.any (·.challengeId = challengeId)

/-- The locks, and the reads up to the flags. -/
def acquire (i : ℕ) (request : AttemptRequest) (settings : Settings) (startedAt : Time) :
    Option Attempt :=
  let portal := s.contest.portal
  if ! s.contest.credentialValid request.userId then
    some (.failed (.rejected "This credential has expired or been revoked"))
  else if portal.teamMode && (s.others i).any (·.locks.isSome) then none
  else
    match submissionTeamId portal request.userId with
    | .error error => some (.failed (.rejected error))
    | .ok teamId =>
      if s.locked i (teamId.elim (.user request.userId) .team) request.challengeId then none
      else
        match openAttempt portal request with
        | .error error => some (.failed (.rejected error))
        | .ok opened =>
          some (.opened ⟨request, settings, startedAt, opened,
            s.contest.scoringOf request.challengeId⟩)

/-- The limits, at the instant `now` is read. -/
def limit (a : Opened) : Option (Contest crates × Attempt) :=
  let admitted := (s.contest, .admitted ⟨a, s.clock, s.contest.running s.clock⟩)
  if a.request.isPreview then some admitted
  else
    match limitReached { s.contest.portal with settings := a.settings }
        { a.request with now := s.clock } a.opened with
    | none => some admitted
    | some (response, false) => some (s.contest, .answered response)
    | some (response, true) =>
      if s.editing a.opened.challenge.id then none
      else if s.contest.refers a.opened.challenge.id (some a.request.userId) a.opened.teamId then
        some ((s.contest.insertSubmission a.opened.challenge.id (some a.request.userId)
          a.opened.teamId (some a.opened.submission) "ratelimited" a.startedAt).2,
          .answered response)
      else some (s.contest, .failed .missingRow)

/-- `compare_submission`; a preview is answered with its verdict. -/
def compare (a : Admitted) : Attempt :=
  let portal := s.contest.portal
  match compareSubmission (a.opened.context portal a.request) portal a.opened.account
      a.opened.challenge a.opened.flags a.opened.submission with
  | .error error => .failed (.rejected error)
  | .ok comparison =>
    if a.request.isPreview then .answered (comparison.outcome.response false)
    else .compared ⟨a, comparison⟩

/-- The id of the next row is drawn. -/
def drawn : Contest crates :=
  { s.contest with portal := { s.contest.portal with
      nextSubmissionId := s.contest.portal.nextSubmissionId + 1 } }

/-- Another attempt has inserted a row of `solves` with the same key. -/
def solvePending (attempts : List Attempt) (challengeId : ℤ) (userId teamId : Option ℤ) : Bool :=
  Contest.solveConflict (attempts.flatMap fun other => other.pending.elim [] Entered.solveRows)
    challengeId userId teamId

/-- The rows of the verdict. -/
def record (i : ℕ) (a : Judged) (solved : Bool) : Option (Contest crates × Attempt) :=
  let entered : Entered := ⟨a, solved, s.contest.portal.nextSubmissionId⟩
  let challengeId := a.opened.challenge.id
  if s.editing challengeId then none
  else if ! s.contest.refers challengeId (some a.request.userId) a.opened.teamId then
    some (s.drawn, .failed .missingRow)
  else if ! entered.solves then some (s.drawn, .recorded entered)
  else if solvePending (s.others i) challengeId (some a.request.userId) a.opened.teamId then none
  else if Contest.solveConflict s.contest.portal.solves challengeId (some a.request.userId)
      a.opened.teamId then some (s.drawn, .failed .uniqueViolation)
  else some (s.drawn, .recorded entered)

/-- The tables as an attempt sees them that has inserted its rows. -/
def seenBy (a : Entered) : Contest crates :=
  { s.contest with portal := { s.contest.portal with
      solves := s.contest.portal.solves ++ a.solveRows } }

/-- `recalculate_dynamic_value`, after a solve. -/
def score (i : ℕ) (a : Entered) : Option Attempt :=
  let challengeId := a.opened.challenge.id
  let value := if a.solves then
    a.scoring.bind (·.recalculated ((s.seenBy a).visibleSolves challengeId)) else none
  if value.isSome && (s.others i).any fun other =>
      other.valued.any fun (b, _) => b.opened.challenge.id = challengeId then none
  else some (.scored a value)

/-- The rows and the value are committed. -/
def commit (a : Entered) (value : Option ℤ) : Contest crates :=
  let inserted : Contest crates := { s.contest with
    portal := recordSharedFlagEvidence { s.contest.portal with
      submissions := s.contest.portal.submissions ++ [a.row]
      solves := s.contest.portal.solves ++ a.solveRows } a.id a.request a.opened a.comparison.shared }
  value.elim inserted (inserted.setValue a.opened.challenge.id)

end Service

/-- What an attempt does next. -/
inductive Progress
  | acquire (startedAt : Time)
  | limit
  | compare
  | check
  | record
  | score
  | commit
  | abort

/-- The next statement of an attempt; `none` says that it waits. -/
def Service.progress (s : Service crates) (i : ℕ) :
    Progress → Attempt → Option (Contest crates × Attempt)
  | .acquire startedAt, .gated request settings gatedAt =>
    if gatedAt ≤ startedAt ∧ startedAt ≤ s.clock then
      (s.acquire i request settings startedAt).map (s.contest, ·)
    else none
  | .limit, .opened a => s.limit a
  | .compare, .admitted a => some (s.contest, s.compare a)
  | .check, .compared a => some (s.contest, .checked a
      (hasSolved s.contest.portal a.opened.account a.opened.challenge.id))
  | .record, .checked a solved => s.record i a solved
  | .score, .recorded a => (s.score i a).map (s.contest, ·)
  | .commit, .scored a value => some (s.commit a value,
      .committed a value (a.response s.contest.portal.teamMode))
  | .abort, a => if a.ended then none else some (s.contest, .failed .aborted)
  | _, _ => none

/-! ## Requests that are one step -/

namespace Service

variable (s : Service crates)

/-- An attempt holds the lock of the teams. -/
def teamsLocked : Bool := s.contest.portal.teamMode && s.attempts.any (·.locks.isSome)

/-- An attempt has inserted rows that refer to the user. -/
def userPending (userId : ℤ) : Bool :=
  s.attempts.any fun attempt => attempt.pending.any (·.request.userId = userId)

/-- An attempt has inserted rows that refer to the challenge. -/
def challengePending (challengeId : ℤ) : Bool :=
  s.attempts.any fun attempt => attempt.pending.any (·.opened.challenge.id = challengeId)

/-- What an administrator inserts for the challenge and the user has to wait; `solves`
says that it includes a row of `solves`. -/
def insertWaits (challengeId userId : ℤ) (solves : Bool) : Bool :=
  s.editing challengeId || (solves && solvePending s.attempts challengeId (some userId) none)

/-- A request waits for what is in flight. -/
def waits : Operation → Bool
  | .addMember .. | .joinTeam .. | .createTeam .. | .removeMember .. | .deleteTeam .. =>
    s.teamsLocked
  | .updateUser userId request _ => s.userPending userId ||
    ((request.teamId.isSome || request.userType.isSome) && s.teamsLocked)
  | .deleteUser userId _ => s.teamsLocked || s.userPending userId
  | .createSubmission request _ => s.teamsLocked ||
    s.insertWaits request.challengeId request.userId (request.submissionType = "correct")
  | .updateSubmission submissionId request => s.teamsLocked ||
    ((s.contest.portal.submissions.find? (·.id = submissionId)).any fun row =>
      row.submissionType ≠ "correct" && request.submissionType = some "correct" &&
        s.insertWaits row.challengeId (row.userId.getD 0) true)
  | .deleteChallenge challengeId _ => s.challengePending challengeId || s.editing challengeId
  | .switchMode .. | .configure .. => s.attempts.any (·.locks.isSome) || ! s.edits.isEmpty
  | .updateTeam .. | .createUser .. | .deleteSubmission _ => false

/-- A request; one that fails changes nothing. -/
def operate (op : Operation) : Option (Service crates) :=
  if s.waits op then none
  else
    match op.change s.contest with
    | .ok contest => some { s with contest }
    | .error _ => some s

/-- The first part of the edit of a challenge. -/
def edit (challengeId : ℤ) (patch : ChallengePatch) (scoring : Contest.ScoringPatch) :
    Option (Service crates) :=
  if s.editing challengeId || s.challengePending challengeId then none
  else
    match s.contest.editedRows challengeId patch scoring with
    | .ok rows => some { s with edits := s.edits ++ [⟨challengeId, rows⟩] }
    | .error _ => some s

/-- The edit of a challenge is committed. -/
def commitEdit (i : ℕ) : Option (Service crates) := do
  let edit ← s.edits[i]?
  pure { s with
    contest := s.contest.writeRows edit.challengeId edit.rows
    edits := s.edits.eraseIdx i }

end Service

/-! ## Steps -/

/-- What happens at the service. -/
inductive ServiceLabel
  | tick (elapsed : ℕ)
  | submit (request : AttemptRequest)
  | attempt (i : ℕ) (progress : Progress)
  | operate (op : Operation)
  | edit (challengeId : ℤ) (patch : ChallengePatch) (scoring : Contest.ScoringPatch)
  | commitEdit (i : ℕ)

/-- One step of an attempt. -/
def Service.advance (s : Service crates) (i : ℕ) (p : Progress) : Option (Service crates) := do
  let a ← s.attempts[i]?
  let (contest, a') ← s.progress i p a
  pure { s with contest, attempts := s.attempts.set i a' }

/-- One step. -/
def serviceStep (label : ServiceLabel) (s : Service crates) : Option (Service crates) :=
  match label with
  | .tick elapsed => some { s with clock := s.clock + elapsed }
  | .submit request => some { s with attempts := s.attempts ++ [s.gate request] }
  | .attempt i p => s.advance i p
  | .operate op => s.operate op
  | .edit challengeId patch scoring => s.edit challengeId patch scoring
  | .commitEdit i => s.commitEdit i

/-! ## What a statement does -/

/-- What the next statement of an attempt can come to. -/
inductive Advances (s : Service crates) (i : ℕ) : Attempt → Contest crates → Attempt → Prop
  | rejects {a : Attempt} {failure : Failure} (running : a.ended = false)
    (other : failure ≠ .uniqueViolation) : Advances s i a s.contest (.failed failure)
  | opens {request : AttemptRequest} {settings : Settings} {gatedAt startedAt : Time}
    {teamId : Option ℤ} {opened : OpenAttempt} (after : gatedAt ≤ startedAt)
    (before : startedAt ≤ s.clock)
    (alone : s.contest.portal.teamMode = true → ∀ other ∈ s.others i, other.locks = none)
    (team : submissionTeamId s.contest.portal request.userId = .ok teamId)
    (free : s.locked i (teamId.elim (.user request.userId) .team) request.challengeId = false)
    (reads : openAttempt s.contest.portal request = .ok opened) :
    Advances s i (.gated request settings gatedAt) s.contest (.opened
      ⟨request, settings, startedAt, opened, s.contest.scoringOf request.challengeId⟩)
  | admits {a : Opened} (passes : a.request.isPreview = false →
      limitReached { s.contest.portal with settings := a.settings }
        { a.request with now := s.clock } a.opened = none) :
    Advances s i (.opened a) s.contest
      (.admitted ⟨a, s.clock, s.contest.running s.clock⟩)
  | limits {a : Opened} {response : AttemptResponse} {recorded : Bool}
    (limit : limitReached { s.contest.portal with settings := a.settings }
      { a.request with now := s.clock } a.opened = some (response, recorded))
    (unrecorded : recorded = false) : Advances s i (.opened a) s.contest (.answered response)
  | ratelimits {a : Opened} {response : AttemptResponse} {recorded : Bool}
    (limit : limitReached { s.contest.portal with settings := a.settings }
      { a.request with now := s.clock } a.opened = some (response, recorded))
    (refers : s.contest.refers a.opened.challenge.id (some a.request.userId) a.opened.teamId = true) :
    Advances s i (.opened a) (s.contest.insertSubmission a.opened.challenge.id
      (some a.request.userId) a.opened.teamId (some a.opened.submission) "ratelimited" a.startedAt).2
      (.answered response)
  | compares {a : Admitted} {comparison : ComparisonResult}
    (shown : a.request.isPreview = false)
    (verdict : compareSubmission (a.opened.context s.contest.portal a.request) s.contest.portal
      a.opened.account a.opened.challenge a.opened.flags a.opened.submission = .ok comparison) :
    Advances s i (.admitted a) s.contest (.compared ⟨a, comparison⟩)
  | previews {a : Admitted} {response : AttemptResponse} (shown : a.request.isPreview = true) :
    Advances s i (.admitted a) s.contest (.answered response)
  | checks {a : Judged} : Advances s i (.compared a) s.contest
      (.checked a (hasSolved s.contest.portal a.opened.account a.opened.challenge.id))
  | loses {a : Judged} {solved : Bool} :
    Advances s i (.checked a solved) s.drawn (.failed .missingRow)
  | violates {a : Judged} {solved : Bool}
    (solves : Entered.solves ⟨a, solved, s.contest.portal.nextSubmissionId⟩ = true)
    (conflict : Contest.solveConflict s.contest.portal.solves a.opened.challenge.id
      (some a.request.userId) a.opened.teamId = true) :
    Advances s i (.checked a solved) s.drawn (.failed .uniqueViolation)
  | records {a : Judged} {solved : Bool} (unedited : s.editing a.opened.challenge.id = false)
    (refers : s.contest.refers a.opened.challenge.id (some a.request.userId) a.opened.teamId = true)
    (free : Entered.solves ⟨a, solved, s.contest.portal.nextSubmissionId⟩ = true →
      Service.solvePending (s.others i) a.opened.challenge.id (some a.request.userId)
        a.opened.teamId = false ∧
      Contest.solveConflict s.contest.portal.solves a.opened.challenge.id (some a.request.userId)
        a.opened.teamId = false) :
    Advances s i (.checked a solved) s.drawn
      (.recorded ⟨a, solved, s.contest.portal.nextSubmissionId⟩)
  | scores {a : Entered} {value : Option ℤ}
    (computed : value = if a.solves then a.scoring.bind
      (·.recalculated ((s.seenBy a).visibleSolves a.opened.challenge.id)) else none)
    (free : value.isSome → ∀ other ∈ s.others i, ∀ b ∈ other.valued,
      b.1.opened.challenge.id ≠ a.opened.challenge.id) :
    Advances s i (.recorded a) s.contest (.scored a value)
  | commits {a : Entered} {value : Option ℤ} : Advances s i (.scored a value) (s.commit a value)
      (.committed a value (a.response s.contest.portal.teamMode))

theorem acquire_advances {s : Service crates} {i : ℕ} {request : AttemptRequest}
    {settings : Settings} {gatedAt startedAt : Time} {a' : Attempt} (hafter : gatedAt ≤ startedAt)
    (hbefore : startedAt ≤ s.clock) (h : s.acquire i request settings startedAt = some a') :
    Advances s i (.gated request settings gatedAt) s.contest a' := by
  have hreject (error : String) : Advances s i (.gated request settings gatedAt) s.contest
      (.failed (.rejected error)) := .rejects rfl (by simp)
  unfold Service.acquire at h
  dsimp only at h
  split at h
  · cases h
    exact hreject _
  · split at h
    · cases h
    · rename_i hteams
      split at h
      · cases h
        exact hreject _
      · rename_i teamId hteam
        split at h
        · cases h
        · rename_i hfree
          split at h
          · cases h
            exact hreject _
          · rename_i opened hopened
            cases h
            refine .opens hafter hbefore (fun hmode other hother => ?_) hteam
              (Bool.not_eq_true _ ▸ hfree) hopened
            by_contra hlocks
            refine hteams ?_
            rw [hmode, Bool.true_and, List.any_eq_true]
            exact ⟨other, hother, Option.isSome_iff_ne_none.mpr hlocks⟩

theorem limit_advances {s : Service crates} {i : ℕ} {a : Opened} {contest : Contest crates}
    {a' : Attempt} (h : s.limit a = some (contest, a')) :
    Advances s i (.opened a) contest a' := by
  unfold Service.limit at h
  dsimp only at h
  split at h
  · rename_i hpreview
    cases h
    exact .admits fun hshown => absurd (hpreview.symm.trans hshown) (by simp)
  · split at h
    · rename_i hlimit
      cases h
      exact .admits fun _ => hlimit
    · rename_i response hlimit
      cases h
      exact .limits hlimit rfl
    · rename_i response hlimit
      split at h
      · cases h
      · split at h
        · rename_i hrefers
          cases h
          exact .ratelimits hlimit hrefers
        · cases h
          exact .rejects rfl (by simp)

theorem compare_advances {s : Service crates} {i : ℕ} {a : Admitted} :
    Advances s i (.admitted a) s.contest (s.compare a) := by
  unfold Service.compare
  dsimp only
  split
  · exact .rejects rfl (by simp)
  · rename_i comparison hverdict
    split
    · rename_i hpreview
      exact .previews hpreview
    · rename_i hpreview
      exact .compares (Bool.not_eq_true _ ▸ hpreview) hverdict

theorem record_advances {s : Service crates} {i : ℕ} {a : Judged} {solved : Bool}
    {contest : Contest crates} {a' : Attempt} (h : s.record i a solved = some (contest, a')) :
    Advances s i (.checked a solved) contest a' := by
  unfold Service.record at h
  dsimp only at h
  split at h
  · cases h
  · rename_i hediting
    rw [Bool.not_eq_true] at hediting
    split at h
    · cases h
      exact .loses
    · rename_i hrefers
      rw [Bool.not_eq_true', Bool.not_eq_false] at hrefers
      split at h
      · rename_i hsolves
        cases h
        refine .records hediting hrefers fun hs => ?_
        rw [hs] at hsolves
        cases hsolves
      · rename_i hsolves
        rw [Bool.not_eq_true', Bool.not_eq_false] at hsolves
        split at h
        · cases h
        · rename_i hpending
          split at h
          · rename_i hconflict
            cases h
            exact .violates hsolves hconflict
          · rename_i hconflict
            cases h
            exact .records hediting hrefers fun _ =>
              ⟨Bool.not_eq_true _ ▸ hpending, Bool.not_eq_true _ ▸ hconflict⟩

theorem score_advances {s : Service crates} {i : ℕ} {a : Entered} {a' : Attempt}
    (h : s.score i a = some a') : Advances s i (.recorded a) s.contest a' := by
  unfold Service.score at h
  dsimp only at h
  generalize hvalue : (if a.solves = true then a.scoring.bind (·.recalculated
    ((s.seenBy a).visibleSolves a.opened.challenge.id)) else none) = value at h
  split at h
  · cases h
  · rename_i hfree
    cases h
    refine .scores hvalue.symm fun hsome other hother b hb heq => hfree ?_
    rw [hsome, Bool.true_and, List.any_eq_true]
    refine ⟨other, hother, ?_⟩
    rw [Option.mem_def.mp hb]
    exact decide_eq_true heq

/-- **What a statement does.** -/
theorem progress_advances {s : Service crates} {i : ℕ} {p : Progress} {a a' : Attempt}
    {contest : Contest crates} (h : s.progress i p a = some (contest, a')) :
    Advances s i a contest a' := by
  unfold Service.progress at h
  split at h
  · split at h
    · rename_i htimes
      obtain ⟨a', hacquire, h⟩ := Option.map_eq_some_iff.mp h
      cases h
      exact acquire_advances htimes.1 htimes.2 hacquire
    · cases h
  · exact limit_advances h
  · cases h
    exact compare_advances
  · cases h
    exact .checks
  · exact record_advances h
  · obtain ⟨a', hscore, h⟩ := Option.map_eq_some_iff.mp h
    cases h
    exact score_advances hscore
  · cases h
    exact .commits
  · split at h
    · cases h
    · rename_i hover
      cases h
      exact .rejects (Bool.not_eq_true _ ▸ hover) (by simp)
  · cases h

theorem advance_advances {s s' : Service crates} {i : ℕ} {p : Progress}
    (h : s.advance i p = some s') :
    ∃ a contest a', s.attempts[i]? = some a ∧ Advances s i a contest a' ∧
      s' = { s with contest, attempts := s.attempts.set i a' } := by
  obtain ⟨a, ha, h⟩ := Option.bind_eq_some_iff.mp h
  obtain ⟨⟨contest, a'⟩, hprogress, h⟩ := Option.bind_eq_some_iff.mp h
  cases h
  exact ⟨a, contest, a', ha, progress_advances hprogress, rfl⟩

/-! ## The tables after a commit -/

section Commit

variable (s : Service crates) (a : Entered) (value : Option ℤ)

@[simp] theorem commit_submissions :
    (s.commit a value).portal.submissions = s.contest.portal.submissions ++ [a.row] := by
  cases value <;> exact recordSharedFlagEvidence_submissions ..

@[simp] theorem commit_solves :
    (s.commit a value).portal.solves = s.contest.portal.solves ++ a.solveRows := by
  cases value <;> exact recordSharedFlagEvidence_solves ..

/-- What a commit leaves as it is. -/
theorem commit_frame : (s.commit a value).teams = s.contest.teams ∧
    (s.commit a value).profiles = s.contest.profiles ∧
    (s.commit a value).schedule = s.contest.schedule ∧
    (s.commit a value).portal.users = s.contest.portal.users ∧
    (s.commit a value).portal.challenges = s.contest.portal.challenges ∧
    (s.commit a value).portal.settings = s.contest.portal.settings ∧
    (s.commit a value).portal.teamMode = s.contest.portal.teamMode ∧
    (s.commit a value).portal.nextSubmissionId = s.contest.portal.nextSubmissionId := by
  unfold Service.commit recordSharedFlagEvidence
  cases value <;> cases a.comparison.shared <;> exact ⟨rfl, rfl, rfl, rfl, rfl, rfl, rfl, rfl⟩

theorem commit_scoring : (s.commit a value).scoring = value.elim s.contest.scoring fun value =>
    update (·.challengeId = a.opened.challenge.id) (fun row => { row with value := some value })
      s.contest.scoring := by
  cases value <;> rfl

end Commit

/-- What the statements of an attempt leave as it is. -/
theorem Advances.frame {s : Service crates} {i : ℕ} {a a' : Attempt} {contest : Contest crates}
    (h : Advances s i a contest a') : contest.teams = s.contest.teams ∧
    contest.profiles = s.contest.profiles ∧ contest.schedule = s.contest.schedule ∧
    contest.portal.users = s.contest.portal.users ∧
    contest.portal.challenges = s.contest.portal.challenges ∧
    contest.portal.settings = s.contest.portal.settings ∧
    contest.portal.teamMode = s.contest.portal.teamMode ∧
    s.contest.portal.nextSubmissionId ≤ contest.portal.nextSubmissionId := by
  have hnext : s.contest.portal.nextSubmissionId ≤ s.contest.portal.nextSubmissionId + 1 := by omega
  cases h with
  | ratelimits | loses | violates | records => exact ⟨rfl, rfl, rfl, rfl, rfl, rfl, rfl, hnext⟩
  | @commits a value =>
      obtain ⟨h₁, h₂, h₃, h₄, h₅, h₆, h₇, h₈⟩ := commit_frame s a value
      exact ⟨h₁, h₂, h₃, h₄, h₅, h₆, h₇, h₈.ge⟩
  | _ => exact ⟨rfl, rfl, rfl, rfl, rfl, rfl, rfl, le_refl _⟩

/-! ## Locks -/

/-- What has been opened belongs to its request and to the mode. -/
structure Opened.Sound (a : Opened) (teamMode : Bool) : Prop where
  team : a.opened.teamId.isSome = teamMode
  account : a.opened.account = a.opened.teamId.elim (.user a.request.userId) .team
  challenge : a.opened.challenge.id = a.request.challengeId

/-- Two attempts hold different locks. -/
def Opened.Differs (a b : Opened) : Prop :=
  ¬ (a.opened.account = b.opened.account ∧ a.request.challengeId = b.request.challengeId)

/-- What the locks rule out. -/
structure Locked (s : Service crates) : Prop where
  apart : Slots.Apart Attempt.locks Opened.Differs s.attempts
  alone : s.contest.portal.teamMode = true →
    Slots.Apart Attempt.locks (fun _ _ => False) s.attempts
  sound : ∀ attempt ∈ s.attempts, ∀ a ∈ attempt.locks, a.Sound s.contest.portal.teamMode
  valued : Slots.Apart Attempt.valued
    (fun a b => a.1.opened.challenge.id ≠ b.1.opened.challenge.id) s.attempts
  edited : ∀ edit ∈ s.edits, ∀ attempt ∈ s.attempts, ∀ a ∈ attempt.pending,
    a.opened.challenge.id ≠ edit.challengeId
  edits : s.edits.Pairwise fun e e' => e.challengeId ≠ e'.challengeId

theorem submissionTeamId_isSome {portal : Portal crates} {userId : ℤ} {teamId : Option ℤ}
    (h : submissionTeamId portal userId = .ok teamId) : teamId.isSome = portal.teamMode := by
  unfold submissionTeamId at h
  split at h
  · rename_i hmode
    split at h
    · cases h
      rw [hmode]
      rfl
    · cases h
  · rename_i hmode
    cases h
    rw [Bool.not_eq_true] at hmode
    rw [hmode]
    rfl

/-- What holds a lock after a statement held it before, or has just been opened. -/
theorem Advances.locks {s : Service crates} {i : ℕ} {a a' : Attempt} {contest : Contest crates}
    (h : Advances s i a contest a') {b : Opened} (hb : a'.locks = some b) :
    a.locks = some b ∨ b.Sound s.contest.portal.teamMode ∧
      (s.contest.portal.teamMode = true → ∀ other ∈ s.others i, other.locks = none) ∧
      ∀ other ∈ s.others i, ∀ c ∈ other.locks, b.Differs c := by
  cases h with
  | @opens request settings gatedAt startedAt teamId opened after before alone team free reads =>
      cases hb
      obtain ⟨-, hteam, haccount, hchallenge, -, -⟩ := openAttempt_eq reads
      have hteamId : opened.teamId = teamId := Except.ok.inj (hteam.symm.trans team)
      refine .inr ⟨⟨?_, haccount, ?_⟩, alone, fun other hother c hc hsame => ?_⟩
      · rw [hteamId]
        exact submissionTeamId_isSome team
      · exact of_decide_eq_true (List.find?_some
          (p := fun c : ChallengeRow => decide (c.id = request.challengeId)) hchallenge)
      · unfold Service.locked at free
        rw [List.any_eq_false] at free
        refine free other hother ?_
        rw [Option.mem_def.mp hc]
        have hsameAccount : opened.account = c.opened.account := hsame.1
        have hsameChallenge : request.challengeId = c.request.challengeId := hsame.2
        rw [haccount, hteamId] at hsameAccount
        simp [hsameAccount, hsameChallenge]
  | rejects | limits | ratelimits | previews | loses | violates | commits => cases hb
  | _ => exact .inl hb

/-- What is pending after a statement was pending before, or is about to be. -/
theorem Advances.pending {s : Service crates} {i : ℕ} {a a' : Attempt} {contest : Contest crates}
    (h : Advances s i a contest a') {b : Entered} (hb : a'.pending = some b) :
    a.pending = some b ∨ s.editing b.opened.challenge.id = false := by
  cases h with
  | records unedited refers free =>
      cases hb
      exact .inr unedited
  | scores =>
      cases hb
      exact .inl rfl
  | _ => cases hb

theorem Advances.valued {s : Service crates} {i : ℕ} {a a' : Attempt} {contest : Contest crates}
    (h : Advances s i a contest a') {b : Entered × ℤ} (hb : a'.valued = some b) :
    ∀ other ∈ s.others i, ∀ c ∈ other.valued,
      b.1.opened.challenge.id ≠ c.1.opened.challenge.id := by
  cases h with
  | @scores a value computed free =>
      cases value with
      | none => cases hb
      | some value =>
          cases hb
          exact fun other hother c hc heq => free rfl other hother c hc heq.symm
  | _ => cases hb

section Advance

variable {s : Service crates} {i : ℕ} {a a' : Attempt} {contest : Contest crates}

theorem lock_none {attempts : List Attempt} {j : ℕ} {c : Opened}
    (hc : Slots.at' Attempt.locks attempts j = some c)
    (h : ∀ other ∈ attempts.eraseIdx i, other.locks = none) (hj : j ≠ i) : False := by
  obtain ⟨other, hother, hlocks⟩ := Slots.exists_other hj hc
  rw [h other hother] at hlocks
  cases hlocks

/-- A statement of an attempt keeps what the locks rule out. -/
theorem Locked.advance (hs : Locked s) (ha : s.attempts[i]? = some a)
    (h : Advances s i a contest a') :
    Locked { s with contest, attempts := s.attempts.set i a' } := by
  obtain ⟨-, -, -, -, -, -, hmode, -⟩ := h.frame
  have hmem : a ∈ s.attempts := List.mem_of_getElem? ha
  refine ⟨?_, fun hteams => ?_, ?_, ?_, fun e he attempt hattempt b hb => ?_, hs.edits⟩
  · refine hs.apart.set (fun b c hbc hcb => hbc ⟨hcb.1.symm, hcb.2.symm⟩) ha
      fun b hb j c hj hc => ?_
    rcases h.locks hb with hold | ⟨-, -, hnew⟩
    · exact hs.apart i j b c (Ne.symm hj) ((Slots.at'_eq ha).trans hold) hc
    · obtain ⟨other, hother, hlocks⟩ := Slots.exists_other hj hc
      exact hnew other hother c hlocks
  · have hteams : s.contest.portal.teamMode = true := hmode ▸ hteams
    refine (hs.alone hteams).set (fun _ _ h => h) ha fun b hb j c hj hc => ?_
    rcases h.locks hb with hold | ⟨-, hnew, -⟩
    · exact hs.alone hteams i j b c (Ne.symm hj) ((Slots.at'_eq ha).trans hold) hc
    · exact lock_none hc (hnew hteams) hj
  · intro attempt hattempt b hb
    show b.Sound contest.portal.teamMode
    rw [hmode]
    rcases List.mem_or_eq_of_mem_set hattempt with hold | rfl
    · exact hs.sound attempt hold b hb
    · rcases h.locks hb with hold | ⟨hsound, -, -⟩
      · exact hs.sound a hmem b hold
      · exact hsound
  · refine hs.valued.set (fun _ _ h => h.symm) ha fun b hb j c hj hc => ?_
    obtain ⟨other, hother, hvalued⟩ := Slots.exists_other hj hc
    exact h.valued hb other hother c hvalued
  · rcases List.mem_or_eq_of_mem_set hattempt with hold | rfl
    · exact hs.edited e he attempt hold b hb
    · rcases h.pending hb with hold | hunedited
      · exact hs.edited e he a hmem b hold
      · unfold Service.editing at hunedited
        rw [List.any_eq_false] at hunedited
        exact fun heq => hunedited e he (decide_eq_true heq.symm)

end Advance

/-- A service nobody has submitted to. -/
def InitialService (s : Service crates) : Prop := s.attempts = [] ∧ s.edits = []

theorem InitialService.locked {s : Service crates} (h : InitialService s) : Locked s := by
  obtain ⟨hattempts, hedits⟩ := h
  refine ⟨?_, fun _ => ?_, ?_, ?_, ?_, ?_⟩
  · rw [hattempts]
    exact .nil
  · rw [hattempts]
    exact .nil
  · rw [hattempts]
    exact fun _ h => absurd h List.not_mem_nil
  · rw [hattempts]
    exact .nil
  · rw [hedits]
    exact fun _ h => absurd h List.not_mem_nil
  · rw [hedits]
    exact List.Pairwise.nil

/-- A service with no submissions yet. -/
def NewService (s : Service crates) : Prop :=
  InitialService s ∧ s.contest.portal.submissions = [] ∧ s.contest.portal.solves = []

/-- What passes the gates holds no lock yet. -/
theorem gate_locks (s : Service crates) (request : AttemptRequest) :
    (s.gate request).locks = none ∧ (s.gate request).pending = none ∧
      (s.gate request).valued = none := by
  unfold Service.gate
  split
  · exact ⟨rfl, rfl, rfl⟩
  · exact ⟨rfl, rfl, rfl⟩
  · split <;> exact ⟨rfl, rfl, rfl⟩

/-- What holds locks while a request is handled, does so in the same mode afterwards. -/
theorem operate_cases {s s' : Service crates} {op : Operation} (h : s.operate op = some s') :
    ∃ contest, s' = { s with contest } ∧
      (contest = s.contest ∨ s.waits op = false ∧ op.change s.contest = .ok contest) ∧
      (contest.portal.teamMode = s.contest.portal.teamMode ∨
        (∀ attempt ∈ s.attempts, attempt.locks = none) ∧ contest.portal.submissions = [] ∧
          contest.portal.solves = []) := by
  unfold Service.operate at h
  split at h
  · cases h
  · rename_i hwaits
    rw [Bool.not_eq_true] at hwaits
    split at h
    · rename_i contest hchange
      cases h
      refine ⟨contest, rfl, .inr ⟨hwaits, hchange⟩, ?_⟩
      by_cases hop : ∃ teamMode idle, op = .switchMode teamMode idle
      · obtain ⟨teamMode, idle, rfl⟩ := hop
        right
        unfold Service.waits at hwaits
        rw [Bool.or_eq_false_iff, List.any_eq_false] at hwaits
        obtain ⟨⟨⟩, -, hchange⟩ := bind_eq_ok.mp hchange
        obtain ⟨⟨⟩, -, hchange⟩ := bind_eq_ok.mp hchange
        cases hchange
        exact ⟨fun attempt hattempt => by simpa using hwaits.1 attempt hattempt, rfl, rfl⟩
      · push Not at hop
        exact .inl (Operation.change_teamMode hchange hop)
    · cases h
      exact ⟨s.contest, rfl, .inl rfl, .inl rfl⟩

theorem edit_cases {s s' : Service crates} {challengeId : ℤ} {patch : ChallengePatch}
    {scoring : Contest.ScoringPatch} (h : s.edit challengeId patch scoring = some s') :
    s' = s ∨ ∃ rows, s.contest.editedRows challengeId patch scoring = .ok rows ∧
      s.editing challengeId = false ∧ s.challengePending challengeId = false ∧
      s' = { s with edits := s.edits ++ [⟨challengeId, rows⟩] } := by
  unfold Service.edit at h
  split at h
  · cases h
  · rename_i hfree
    rw [Bool.not_eq_true, Bool.or_eq_false_iff] at hfree
    split at h
    · rename_i rows hrows
      cases h
      exact .inr ⟨rows, hrows, hfree.1, hfree.2, rfl⟩
    · cases h
      exact .inl rfl

theorem commitEdit_cases {s s' : Service crates} {i : ℕ} (h : s.commitEdit i = some s') :
    ∃ e, s.edits[i]? = some e ∧ s' = { s with
      contest := s.contest.writeRows e.challengeId e.rows
      edits := s.edits.eraseIdx i } := by
  obtain ⟨e, he, h⟩ := Option.bind_eq_some_iff.mp h
  cases h
  exact ⟨e, he, rfl⟩

theorem serviceStep_locked {s s' : Service crates} {label : ServiceLabel} (hs : Locked s)
    (h : serviceStep label s = some s') : Locked s' := by
  cases label with
  | tick elapsed =>
      cases h
      exact ⟨hs.apart, hs.alone, hs.sound, hs.valued, hs.edited, hs.edits⟩
  | submit request =>
      cases h
      obtain ⟨hlocks, hpending, hvalued⟩ := gate_locks s request
      refine ⟨hs.apart.append hlocks, fun hmode => (hs.alone hmode).append hlocks,
        fun attempt hattempt a ha => ?_, hs.valued.append hvalued,
        fun e he attempt hattempt a ha => ?_, hs.edits⟩
      · rcases List.mem_append.mp hattempt with hold | hnew
        · exact hs.sound attempt hold a ha
        · rw [List.mem_singleton.mp hnew, hlocks] at ha
          cases ha
      · rcases List.mem_append.mp hattempt with hold | hnew
        · exact hs.edited e he attempt hold a ha
        · rw [List.mem_singleton.mp hnew, hpending] at ha
          cases ha
  | attempt i p =>
      obtain ⟨a, contest, a', ha, hadvances, rfl⟩ := advance_advances h
      exact hs.advance ha hadvances
  | operate op =>
      obtain ⟨contest, rfl, -, hmode | ⟨hnone, -⟩⟩ := operate_cases h
      · refine ⟨hs.apart, fun hteams => hs.alone (hmode ▸ hteams), fun attempt hattempt a ha => ?_,
          hs.valued, hs.edited, hs.edits⟩
        show a.Sound contest.portal.teamMode
        rw [hmode]
        exact hs.sound attempt hattempt a ha
      · refine ⟨hs.apart, fun _ i j b c _ hb _ => ?_, fun attempt hattempt a ha => ?_, hs.valued,
          hs.edited, hs.edits⟩
        · obtain ⟨attempt, hattempt, hlocks⟩ := Slots.at'_some.mp hb
          rw [hnone attempt (List.mem_of_getElem? hattempt)] at hlocks
          cases hlocks
        · rw [hnone attempt hattempt] at ha
          cases ha
  | edit challengeId patch scoring =>
      rcases edit_cases h with rfl | ⟨rows, -, hfree, hpending, rfl⟩
      · exact hs
      · refine ⟨hs.apart, hs.alone, hs.sound, hs.valued, fun e he attempt hattempt a ha => ?_, ?_⟩
        · rcases List.mem_append.mp he with hold | hnew
          · exact hs.edited e hold attempt hattempt a ha
          · rw [List.mem_singleton.mp hnew]
            unfold Service.challengePending at hpending
            rw [List.any_eq_false] at hpending
            refine fun heq => hpending attempt hattempt ?_
            rw [Option.mem_def.mp ha]
            exact decide_eq_true heq
        · unfold Service.editing at hfree
          rw [List.any_eq_false] at hfree
          refine List.pairwise_append.mpr ⟨hs.edits, List.pairwise_singleton _ _, ?_⟩
          intro e he e' he'
          rw [List.mem_singleton.mp he']
          exact fun heq => hfree e he (decide_eq_true heq)
  | commitEdit i =>
      obtain ⟨e, he, rfl⟩ := commitEdit_cases h
      refine ⟨hs.apart, hs.alone, hs.sound, hs.valued, fun e' he' => ?_, ?_⟩
      · exact hs.edited e' (List.mem_of_mem_eraseIdx he')
      · exact hs.edits.sublist (List.eraseIdx_sublist _ _)

/-- **The locks hold**, whatever happens at the service. -/
theorem locked_reach {guard : Service crates → ServiceLabel → Prop}
    {init : Service crates → Prop} (hinit : ∀ s, init s → InitialService s) {s : Service crates}
    (hr : Reach serviceStep guard init s) : Locked s :=
  hr.invariant (fun s h => (hinit s h).locked) fun _ _ _ hs _ hstep => serviceStep_locked hs hstep

/-! ## A practice -/

/-- The users 7 and 8, and two challenges with the flag `A`, the second of which loses
twenty points with each solve. -/
def practice : Service plainCrates where
  contest :=
    { portal :=
        { challenges := [⟨1, some "standard", "visible", "any", none, "public", none⟩,
            ⟨2, some "dynamic", "visible", "any", none, "public", none⟩]
          flags := [1, 2].filterMap fun id =>
            (saveFlag plainCrates id id 1 "static" "A" .null "public").toOption
          userChallengeFlags := []
          submissions := []
          solves := []
          flagSharingEvents := []
          users := [⟨7, "user", none⟩, ⟨8, "user", none⟩]
          nextSubmissionId := 1
          nextFlagId := 3
          teamMode := false
          settings := ⟨none, false, 1, "lockout", 300⟩
          secretKey := "key" }
      teams := []
      profiles := [⟨7, false, false, false⟩, ⟨8, false, false, false⟩]
      scoring := [⟨1, some "static", none, none, none, some 100⟩,
        ⟨2, some "linear", some 100, some 10, some 20, some 100⟩]
      schedule := ⟨0, 0, false⟩ }
  attempts := []
  edits := []
  clock := 0

/-- A user submits a string to a challenge. -/
def submits (userId challengeId : ℤ) (submission : String) : ServiceLabel :=
  .submit ⟨userId, false, false, challengeId, submission, 0⟩

/-- The attempt at a place goes on, up to its commit. -/
def finishes (i : ℕ) : List ServiceLabel :=
  [.compare, .check, .record, .score, .commit].map (.attempt i)

theorem practice_new : NewService practice :=
  ⟨⟨rfl, rfl⟩, rfl, rfl⟩

end CtfZone.Contests
