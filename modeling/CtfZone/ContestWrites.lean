/-
# What requests write to submissions and solves

The requests of administrators and members of teams change the two tables in few ways:
rows go, together with the solves that belong to them; a row is entered, with its solve
where it is correct; a row changes its type.

* `Writes` : these ways;
* `Operation.change_writes` : no request writes anything else.
-/
import CtfZone.ContestTables

namespace CtfZone.Contests

open Journal Runs Tables Submissions

variable {crates : Crates}

/-! ## Ways to write -/

/-- The tables with one more row, and its solve where it is correct. -/
def Entry (contest after : Contest crates) (row : SubmissionRow) : Prop :=
  row.id = contest.portal.nextSubmissionId ∧
  after.portal.submissions = contest.portal.submissions ++ [row] ∧
  after.portal.solves = contest.portal.solves ++
    (if row.submissionType = "correct" then [⟨row.id, row.challengeId, row.userId, row.teamId⟩]
      else []) ∧
  (row.submissionType = "correct" → Contest.solveConflict contest.portal.solves row.challengeId
    row.userId row.teamId = false) ∧
  row.teamId.isSome = contest.portal.teamMode ∧
  after.portal.nextSubmissionId = contest.portal.nextSubmissionId + 1

/-- What a request writes to submissions and solves. -/
inductive Writes (contest after : Contest crates) : Prop
  | keeps (submissions : after.portal.submissions = contest.portal.submissions)
    (solves : after.portal.solves = contest.portal.solves)
    (next : after.portal.nextSubmissionId = contest.portal.nextSubmissionId)
  | deletes (p : SubmissionRow → Bool) (q : SolveRow → Bool)
    (mirrored : ∀ (row : SubmissionRow) (solve : SolveRow), solve.challengeId = row.challengeId →
      solve.userId = row.userId → solve.teamId = row.teamId → q solve = true → p row = true)
    (submissions : after.portal.submissions = contest.portal.submissions.filter (! p ·))
    (solves : after.portal.solves = (contest.portal.solves.filter fun solve =>
      ! contest.portal.submissions.any fun row => p row && row.id = solve.id).filter (! q ·))
    (next : after.portal.nextSubmissionId = contest.portal.nextSubmissionId)
  | enters (row : SubmissionRow) (entry : Entry contest after row)
  | replaces (middle : Contest crates) (row current : SubmissionRow)
    (entry : Entry contest middle row) (correct : row.submissionType = "correct")
    (found : contest.portal.submissions.find? (·.id = current.id) = some current)
    (before : current.submissionType ≠ "correct")
    (submissions : after.portal.submissions = update (·.id = current.id)
      (fun row => { row with submissionType := "discard", provided := row.provided })
      middle.portal.submissions)
    (solves : after.portal.solves = middle.portal.solves)
    (next : after.portal.nextSubmissionId = middle.portal.nextSubmissionId)
  | patches (current : SubmissionRow) (submissionType : String) (provided : Option String)
    (found : contest.portal.submissions.find? (·.id = current.id) = some current)
    (kind : submissionType = "correct" → current.submissionType = "correct")
    (submissions : after.portal.submissions = update (·.id = current.id)
      (fun row => { row with submissionType, provided := provided.or row.provided })
      contest.portal.submissions)
    (solves : after.portal.solves =
      if current.submissionType = "correct" ∧ submissionType ≠ "correct" then
        contest.portal.solves.filter fun solve => ! decide (solve.id = current.id)
      else contest.portal.solves)
    (next : after.portal.nextSubmissionId = contest.portal.nextSubmissionId)
  | clears (submissions : after.portal.submissions = []) (solves : after.portal.solves = [])
    (next : after.portal.nextSubmissionId = contest.portal.nextSubmissionId)

theorem filter_false {ρ : Type} (t : List ρ) : t.filter (fun _ => ! false) = t :=
  List.filter_eq_self.mpr fun _ _ => rfl

/-! ## Requests -/

/-- What submissions refer to is the same. -/
structure SameAccounts (contest after : Contest crates) : Prop where
  users : after.portal.users = contest.portal.users
  challenges : after.portal.challenges = contest.portal.challenges
  teams : after.teams = contest.teams
  profiles : after.profiles = contest.profiles
  teamMode : after.portal.teamMode = contest.portal.teamMode

theorem insertSolve_accounts {contest after : Contest crates} {id challengeId : ℤ}
    {userId teamId : Option ℤ} (h : contest.insertSolve id challengeId userId teamId = .ok after) :
    SameAccounts contest after := by
  obtain ⟨⟨⟩, -, h⟩ := bind_eq_ok.mp h
  cases h
  exact ⟨rfl, rfl, rfl, rfl, rfl⟩

theorem createSubmission_accounts {contest after : Contest crates}
    {request : Contest.SubmissionInput} {now : Time}
    (h : contest.createSubmission request now = .ok after) : SameAccounts contest after := by
  obtain ⟨⟨⟩, -, h⟩ := bind_eq_ok.mp h
  obtain ⟨teamId, -, h⟩ := bind_eq_ok.mp h
  obtain ⟨⟨⟩, -, h⟩ := bind_eq_ok.mp h
  dsimp only at h
  split at h
  · obtain ⟨husers, hchallenges, hteams, hprofiles, hmode⟩ := insertSolve_accounts h
    exact ⟨husers, hchallenges, hteams, hprofiles, hmode⟩
  · cases h
    exact ⟨rfl, rfl, rfl, rfl, rfl⟩

theorem updateSubmission_accounts {contest after : Contest crates} {submissionId : ℤ}
    {request : Contest.SubmissionPatch}
    (h : contest.updateSubmission submissionId request = .ok after) :
    SameAccounts contest after := by
  obtain ⟨current, -, h⟩ := bind_eq_ok.mp h
  obtain ⟨⟨⟩, -, h⟩ := bind_eq_ok.mp h
  obtain ⟨teamId, -, h⟩ := bind_eq_ok.mp h
  dsimp only at h
  split at h
  · obtain ⟨⟨⟩, -, h⟩ := bind_eq_ok.mp h
    obtain ⟨solved, hsolved, h⟩ := bind_eq_ok.mp h
    cases h
    obtain ⟨husers, hchallenges, hteams, hprofiles, hmode⟩ := insertSolve_accounts hsolved
    exact ⟨husers, hchallenges, hteams, hprofiles, hmode⟩
  · cases h
    split <;> exact ⟨rfl, rfl, rfl, rfl, rfl⟩

/-- Only the change of the mode changes the mode. -/
theorem Operation.change_teamMode {contest after : Contest crates} {op : Operation}
    (h : op.change contest = .ok after) (hop : ∀ teamMode idle, op ≠ .switchMode teamMode idle) :
    after.portal.teamMode = contest.portal.teamMode := by
  cases op with
  | addMember | joinTeam | createTeam | updateTeam | createUser | deleteUser =>
      obtain ⟨⟨⟩, -, h⟩ := bind_eq_ok.mp h
      obtain ⟨⟨⟩, -, h⟩ := bind_eq_ok.mp h
      cases h
      rfl
  | removeMember | deleteTeam | deleteChallenge =>
      obtain ⟨⟨⟩, -, h⟩ := bind_eq_ok.mp h
      obtain ⟨⟨⟩, -, h⟩ := bind_eq_ok.mp h
      obtain ⟨⟨⟩, -, h⟩ := bind_eq_ok.mp h
      cases h
      rfl
  | updateUser =>
      obtain ⟨⟨⟩, -, h⟩ := bind_eq_ok.mp h
      obtain ⟨⟨⟩, -, h⟩ := bind_eq_ok.mp h
      obtain ⟨previous, -, h⟩ := bind_eq_ok.mp h
      obtain ⟨⟨⟩, -, h⟩ := bind_eq_ok.mp h
      obtain ⟨⟨⟩, -, h⟩ := bind_eq_ok.mp h
      obtain ⟨⟨⟩, -, h⟩ := bind_eq_ok.mp h
      cases h
      rfl
  | createSubmission => exact (createSubmission_accounts h).teamMode
  | updateSubmission => exact (updateSubmission_accounts h).teamMode
  | deleteSubmission =>
      obtain ⟨⟨⟩, -, h⟩ := bind_eq_ok.mp h
      cases h
      rfl
  | switchMode teamMode idle => exact absurd rfl (hop teamMode idle)
  | configure =>
      cases h
      rfl

theorem canonicalAccountTeamId_isSome {contest : Contest crates} {userId : ℤ}
    {requestedTeamId teamId : Option ℤ} {recordKind : String}
    (h : contest.canonicalAccountTeamId userId requestedTeamId recordKind = .ok teamId) :
    teamId.isSome = contest.portal.teamMode := by
  unfold Contest.canonicalAccountTeamId at h
  dsimp only at h
  split at h
  · rename_i hmode
    obtain ⟨⟨⟩, -, h⟩ := bind_eq_ok.mp h
    obtain ⟨⟨⟩, -, h⟩ := bind_eq_ok.mp h
    cases h
    rw [Bool.not_eq_true'] at hmode
    rw [hmode]
    rfl
  · rename_i hmode
    obtain ⟨assigned, -, h⟩ := bind_eq_ok.mp h
    obtain ⟨⟨⟩, -, h⟩ := bind_eq_ok.mp h
    cases h
    rw [Bool.not_eq_true', Bool.not_eq_false] at hmode
    rw [hmode]
    rfl

/-- The insertion of a row, and of its solve where it is correct. -/
theorem insert_entry {contest after : Contest crates} (challengeId : ℤ)
    (userId teamId : Option ℤ) (provided : Option String) (submissionType : String) (date : Time)
    (hteam : teamId.isSome = contest.portal.teamMode)
    (h : (if submissionType = "correct" then
      (contest.insertSubmission challengeId userId teamId provided submissionType date).2.insertSolve
        contest.portal.nextSubmissionId challengeId userId teamId
      else .ok (contest.insertSubmission challengeId userId teamId provided submissionType date).2) =
        .ok after) :
    Entry contest after ⟨contest.portal.nextSubmissionId, challengeId, userId, teamId, provided,
      submissionType, date⟩ := by
  split at h
  · rename_i hcorrect
    obtain ⟨⟨⟩, hfree, h⟩ := bind_eq_ok.mp h
    cases h
    refine ⟨rfl, rfl, ?_, fun _ => ?_, hteam, rfl⟩
    · rw [if_pos hcorrect]
      rfl
    · have hnone : Contest.solveConflict (contest.insertSubmission challengeId userId teamId provided
          submissionType date).2.portal.solves challengeId userId teamId = false := by
        simpa using hfree
      exact hnone
  · rename_i hcorrect
    cases h
    refine ⟨rfl, rfl, ?_, fun hc => absurd hc hcorrect, hteam, rfl⟩
    rw [if_neg hcorrect, List.append_nil]
    rfl

theorem createSubmission_writes {contest after : Contest crates}
    {request : Contest.SubmissionInput} {now : Time}
    (h : contest.createSubmission request now = .ok after) : Writes contest after := by
  obtain ⟨⟨⟩, -, h⟩ := bind_eq_ok.mp h
  obtain ⟨teamId, hteam, h⟩ := bind_eq_ok.mp h
  obtain ⟨⟨⟩, -, h⟩ := bind_eq_ok.mp h
  exact .enters _ (insert_entry _ _ _ _ _ _ (canonicalAccountTeamId_isSome hteam) h)

theorem updateSubmission_writes {contest after : Contest crates} {submissionId : ℤ}
    {request : Contest.SubmissionPatch}
    (h : contest.updateSubmission submissionId request = .ok after) : Writes contest after := by
  obtain ⟨current, hcurrent, h⟩ := bind_eq_ok.mp h
  obtain ⟨⟨⟩, -, h⟩ := bind_eq_ok.mp h
  obtain ⟨teamId, hteam, h⟩ := bind_eq_ok.mp h
  have hfound : contest.portal.submissions.find? (·.id = submissionId) = some current := by
    unfold required at hcurrent
    split at hcurrent
    · cases hcurrent
      assumption
    · cases hcurrent
  have hid : current.id = submissionId := of_decide_eq_true
    (List.find?_some (p := fun row : SubmissionRow => decide (row.id = submissionId)) hfound)
  subst hid
  dsimp only at h
  split at h
  · rename_i hkind
    rw [Bool.and_eq_true, decide_eq_true_eq, decide_eq_true_eq] at hkind
    obtain ⟨⟨⟩, -, h⟩ := bind_eq_ok.mp h
    obtain ⟨solved, hsolved, h⟩ := bind_eq_ok.mp h
    cases h
    have hentry := insert_entry current.challengeId (some (current.userId.getD 0)) teamId
      (some ((request.provided.or current.provided).getD "")) "correct" current.date
      (canonicalAccountTeamId_isSome hteam) ((if_pos rfl).trans hsolved)
    exact .replaces solved _ current hentry rfl hfound hkind.1 rfl rfl rfl
  · rename_i hkind
    cases h
    refine .patches current (request.submissionType.getD current.submissionType) request.provided
      hfound (fun hcorrect => ?_) ?_ ?_ ?_
    · by_contra hother
      exact hkind (by simp [hother, hcorrect])
    · split <;> rfl
    · by_cases hunsolve : current.submissionType = "correct" ∧
          request.submissionType.getD current.submissionType ≠ "correct"
      · rw [if_pos hunsolve, if_pos (by simpa using hunsolve)]
        rfl
      · rw [if_neg hunsolve, if_neg (by simpa using hunsolve)]
        rfl
    · split <;> rfl

/-- Rows that go with the solves of the same rows. -/
theorem deleteSubmissions_writes {contest left : Contest crates} {p : SubmissionRow → Bool}
    (hsubmissions : left.portal.submissions = contest.portal.submissions)
    (hsolves : left.portal.solves = contest.portal.solves)
    (hnext : left.portal.nextSubmissionId = contest.portal.nextSubmissionId) :
    Writes contest (left.deleteSubmissions p) := by
  refine .deletes p (fun _ => false) (fun _ _ _ _ _ h => by cases h) ?_ ?_ hnext
  · rw [← hsubmissions]
    rfl
  · rw [filter_false, ← hsubmissions, ← hsolves]
    rfl

theorem deleteBoth_writes {contest left : Contest crates} {p : SubmissionRow → Bool}
    {q : SolveRow → Bool}
    (hmirrored : ∀ (row : SubmissionRow) (solve : SolveRow), solve.challengeId = row.challengeId →
      solve.userId = row.userId → solve.teamId = row.teamId → q solve = true → p row = true)
    (hsubmissions : left.portal.submissions = contest.portal.submissions)
    (hsolves : left.portal.solves = contest.portal.solves)
    (hnext : left.portal.nextSubmissionId = contest.portal.nextSubmissionId) :
    Writes contest ((left.deleteSubmissions p).deleteSolves q) := by
  refine .deletes p q hmirrored ?_ ?_ hnext
  · rw [← hsubmissions]
    rfl
  · rw [← hsubmissions, ← hsolves]
    rfl

/-- **What requests write to submissions and solves.** -/
theorem Operation.change_writes {contest after : Contest crates} {op : Operation}
    (h : op.change contest = .ok after) : Writes contest after := by
  cases op with
  | addMember teamId userId | joinTeam teamId userId invited | createTeam teamId userId allowed =>
      obtain ⟨⟨⟩, -, h⟩ := bind_eq_ok.mp h
      obtain ⟨⟨⟩, -, h⟩ := bind_eq_ok.mp h
      cases h
      exact .keeps rfl rfl rfl
  | removeMember teamId userId =>
      obtain ⟨⟨⟩, -, h⟩ := bind_eq_ok.mp h
      obtain ⟨⟨⟩, -, h⟩ := bind_eq_ok.mp h
      obtain ⟨⟨⟩, -, h⟩ := bind_eq_ok.mp h
      cases h
      exact deleteSubmissions_writes rfl rfl rfl
  | deleteTeam teamId allowed =>
      obtain ⟨⟨⟩, -, h⟩ := bind_eq_ok.mp h
      obtain ⟨⟨⟩, -, h⟩ := bind_eq_ok.mp h
      obtain ⟨⟨⟩, -, h⟩ := bind_eq_ok.mp h
      cases h
      refine deleteBoth_writes (fun row solve _ _ hteam hq => ?_) rfl rfl rfl
      rwa [hteam] at hq
  | updateTeam teamId hidden banned =>
      obtain ⟨⟨⟩, -, h⟩ := bind_eq_ok.mp h
      obtain ⟨⟨⟩, -, h⟩ := bind_eq_ok.mp h
      cases h
      exact .keeps rfl rfl rfl
  | updateUser userId request allowed =>
      obtain ⟨⟨⟩, -, h⟩ := bind_eq_ok.mp h
      obtain ⟨⟨⟩, -, h⟩ := bind_eq_ok.mp h
      obtain ⟨previous, -, h⟩ := bind_eq_ok.mp h
      obtain ⟨⟨⟩, -, h⟩ := bind_eq_ok.mp h
      obtain ⟨⟨⟩, -, h⟩ := bind_eq_ok.mp h
      obtain ⟨⟨⟩, -, h⟩ := bind_eq_ok.mp h
      cases h
      exact .keeps rfl rfl rfl
  | createUser userId userType hidden banned changePassword =>
      obtain ⟨⟨⟩, -, h⟩ := bind_eq_ok.mp h
      obtain ⟨⟨⟩, -, h⟩ := bind_eq_ok.mp h
      cases h
      exact .keeps rfl rfl rfl
  | deleteUser userId allowed =>
      obtain ⟨⟨⟩, -, h⟩ := bind_eq_ok.mp h
      obtain ⟨⟨⟩, -, h⟩ := bind_eq_ok.mp h
      cases h
      refine deleteBoth_writes (fun row solve _ huser _ hq => ?_) rfl rfl rfl
      rwa [huser] at hq
  | createSubmission request now => exact createSubmission_writes h
  | updateSubmission submissionId request => exact updateSubmission_writes h
  | deleteSubmission submissionId =>
      obtain ⟨⟨⟩, -, h⟩ := bind_eq_ok.mp h
      cases h
      exact deleteSubmissions_writes rfl rfl rfl
  | deleteChallenge challengeId idle =>
      obtain ⟨⟨⟩, -, h⟩ := bind_eq_ok.mp h
      obtain ⟨⟨⟩, -, h⟩ := bind_eq_ok.mp h
      obtain ⟨⟨⟩, -, h⟩ := bind_eq_ok.mp h
      cases h
      refine deleteBoth_writes (fun row solve hchallenge _ _ hq => ?_) rfl rfl rfl
      rwa [hchallenge] at hq
  | switchMode teamMode idle =>
      obtain ⟨⟨⟩, -, h⟩ := bind_eq_ok.mp h
      obtain ⟨⟨⟩, -, h⟩ := bind_eq_ok.mp h
      cases h
      exact .clears rfl rfl rfl
  | configure settings schedule =>
      cases h
      exact .keeps rfl rfl rfl

end CtfZone.Contests
