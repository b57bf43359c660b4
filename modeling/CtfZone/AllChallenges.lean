/-
# Challenges of the logic `all`

Each flag of such a challenge has to be submitted, by whichever members of an
account and in whatever order.  What was submitted before is matched again for the
member who submits now, and a generated flag matches for its owner alone, so that
the order does not matter only where a stored submission matches the same flags
for the present member as for the one it is from.

* `compareSubmission_all` : the verdict of the logic `all`;
* `Collected` : what the submissions of a run have collected;
* `all_order_independent` : two orders of the same submissions.
-/
import CtfZone.SubmissionHistory

namespace CtfZone.Submissions

open Journal Runs Tables

variable {crates : Crates}

/-! ## The verdict -/

theorem firstMatch_false {context : Context} {submission : String} {flags : List StoredFlag}
    {shared found : Option SharedFlagEvidence}
    (h : firstMatch context submission shared flags = .ok (false, found)) :
    ∀ flag ∈ flags, matchesFlag context submission flag = false := by
  induction flags generalizing shared with
  | nil => exact fun flag hflag => absurd hflag List.not_mem_nil
  | cons flag flags ih =>
      obtain ⟨evaluation, heval, h⟩ := bind_eq_ok.mp h
      split at h
      · cases h
      · rename_i hm
        exact List.forall_mem_cons.mpr
          ⟨(matchesFlag_of_ok heval).trans (Bool.not_eq_true _ ▸ hm), ih h⟩

theorem matchedByStored_false {context : Context} {flag : StoredFlag} {stored : List String}
    (h : matchedByStored context flag stored = .ok false) :
    ∀ text ∈ stored, matchesFlag context text flag = false := by
  induction stored with
  | nil => exact fun text htext => absurd htext List.not_mem_nil
  | cons candidate stored ih =>
      obtain ⟨evaluation, heval, h⟩ := bind_eq_ok.mp h
      split at h
      · cases h
      · rename_i hm
        exact List.forall_mem_cons.mpr
          ⟨(matchesFlag_of_ok heval).trans (Bool.not_eq_true _ ▸ hm), ih h⟩

/-- The loop over the flags ends early at one that nothing matches. -/
theorem allMatched_false {context : Context} {stored : List String} {submission : String}
    {flags : List StoredFlag} {shared found : Option SharedFlagEvidence}
    (h : allMatched context stored submission shared flags = .ok (false, found)) :
    ∃ flag ∈ flags, (∀ text ∈ stored, matchesFlag context text flag = false) ∧
      matchesFlag context submission flag = false := by
  induction flags generalizing shared with
  | nil => cases h
  | cons flag flags ih =>
      have hlater {shared : Option SharedFlagEvidence}
          (h : allMatched context stored submission shared flags = .ok (false, found)) :
          ∃ flag' ∈ flag :: flags, (∀ text ∈ stored, matchesFlag context text flag' = false) ∧
            matchesFlag context submission flag' = false := by
        obtain ⟨flag', hflag', hnone⟩ := ih h
        exact ⟨flag', List.mem_cons_of_mem flag hflag', hnone⟩
      obtain ⟨byStored, hstored, h⟩ := bind_eq_ok.mp h
      cases byStored with
      | true => exact hlater h
      | false =>
          obtain ⟨evaluation, heval, h⟩ := bind_eq_ok.mp h
          by_cases hm : evaluation.matched = true
          · rw [if_pos hm] at h
            exact hlater h
          · exact ⟨flag, List.mem_cons_self, matchedByStored_false hstored,
              (matchesFlag_of_ok heval).trans (Bool.not_eq_true _ ▸ hm)⟩

/-- A flag is matched by a stored submission or by the new one. -/
def matchedAmong (context : Context) (stored : List String) (submission : String)
    (flag : StoredFlag) : Bool :=
  stored.any (matchesFlag context · flag) || matchesFlag context submission flag

/-- **The verdict of the logic `all`.**  It is correct where every flag is matched by
a stored submission or the new one, else partial where the new one matches a flag. -/
theorem compareSubmission_all {context : Context} {portal : Portal crates} {account : Account}
    {challenge : ChallengeRow} {flags : List StoredFlag} {submission : String}
    {comparison : ComparisonResult} (hflags : flags ≠ []) (hall : challenge.logic = "all")
    (h : compareSubmission context portal account challenge flags submission = .ok comparison) :
    (comparison.outcome = .correct ↔ flags.all
      (matchedAmong context (storedProvided portal account challenge.id) submission) = true) ∧
    (comparison.outcome ≠ .correct → (comparison.outcome = .partially ↔
      flags.any (matchesFlag context submission) = true)) := by
  unfold compareSubmission at h
  rw [if_neg (by simpa using hflags), if_pos hall] at h
  obtain ⟨⟨matched, shared⟩, hmatched, h⟩ := bind_eq_ok.mp h
  cases matched with
  | true =>
      cases h
      refine ⟨iff_of_true rfl (List.all_eq_true.mpr fun flag hflag => ?_), absurd rfl⟩
      rw [matchedAmong, Bool.or_eq_true, List.any_eq_true]
      exact allMatched_true hmatched flag hflag
  | false =>
      obtain ⟨flag, hflag, hstored, hsubmission⟩ := allMatched_false hmatched
      obtain ⟨⟨found, shared'⟩, hfound, h⟩ := bind_eq_ok.mp h
      have hincorrect : ¬ flags.all
          (matchedAmong context (storedProvided portal account challenge.id) submission) = true := by
        rw [List.all_eq_true]
        intro hevery
        have := hevery flag hflag
        rw [matchedAmong, hsubmission, Bool.or_false, List.any_eq_true] at this
        obtain ⟨text, htext, hm⟩ := this
        rw [hstored text htext] at hm
        cases hm
      cases found with
      | true =>
          cases h
          exact ⟨iff_of_false (by simp) hincorrect,
            fun _ => iff_of_true rfl (List.any_eq_true.mpr (firstMatch_true hfound))⟩
      | false =>
          cases h
          refine ⟨iff_of_false (by simp) hincorrect, fun _ => iff_of_false (by simp) ?_⟩
          rw [List.any_eq_true]
          rintro ⟨flag, hflag, hm⟩
          rw [firstMatch_false hfound flag hflag] at hm
          cases hm

/-! ## Submissions of an account -/

/-- The flags of a challenge. -/
def flagsOf (portal : Portal crates) (challengeId : ℤ) : List StoredFlag :=
  (portal.flags.map SavedFlag.toStoredFlag).filter (·.challengeId = challengeId)

/-- What `flag_matches` reads for a member. -/
def memberContext (portal : Portal crates) (challengeId userId : ℤ) : Context :=
  ⟨crates, portal.userChallengeFlags, portal.secretKey, challengeId, userId⟩

/-- A row matches a flag for the member it is from. -/
def SubmissionRow.matchesFor (portal : Portal crates) (row : SubmissionRow) (flag : StoredFlag) :
    Bool :=
  row.userId.any fun userId =>
    row.provided.any (matchesFlag (memberContext portal row.challengeId userId) · flag)

/-- The rows of an account that were accepted on a challenge. -/
def acceptedRows (portal : Portal crates) (account : Account) (challengeId : ℤ) :
    List SubmissionRow :=
  portal.submissions.filter fun row =>
    account.owns row.userId row.teamId && row.challengeId = challengeId &&
      (row.submissionType = "partial" || row.submissionType = "correct")

/-- The flags an account is credited with: those that one of its accepted
submissions matches for the member it is from. -/
def credited (portal : Portal crates) (account : Account) (challengeId : ℤ) : List StoredFlag :=
  (flagsOf portal challengeId).filter fun flag =>
    (acceptedRows portal account challengeId).any (·.matchesFor portal flag)

/-- A member of the account submits to the challenge. -/
structure Submits (portal : Portal crates) (account : Account) (challengeId : ℤ)
    (request : AttemptRequest) : Prop where
  challenge : request.challengeId = challengeId
  participant : request.isPreview = false
  member : ∃ teamId, submissionTeamId portal request.userId = .ok teamId ∧
    teamId.elim (.user request.userId) Account.team = account

/-- An attempt that is judged: no gate and no limit has turned it away. -/
def judgedAttempt (request : AttemptRequest) (portal : Portal crates) : Option (Portal crates) :=
  match attempt portal request with
  | .ok (_, after, some _) => some after
  | _ => none

/-- Every stored partial submission of the account matches the same flags for the
member who submits as for the one it is from. -/
def Rematched (account : Account) (challengeId : ℤ) (portal : Portal crates)
    (request : AttemptRequest) : Prop :=
  ∀ row ∈ storedPartials portal account challengeId, ∀ flag ∈ flagsOf portal challengeId,
    row.provided.any (matchesFlag (memberContext portal challengeId request.userId) · flag) =
      row.matchesFor portal flag

instance (account : Account) (challengeId : ℤ) (portal : Portal crates)
    (request : AttemptRequest) : Decidable (Rematched account challengeId portal request) :=
  inferInstanceAs (Decidable (∀ row ∈ _, ∀ flag ∈ _, _ = _))

/-! ## One submission -/

/-- What no submission changes. -/
structure SameChallenge (portal after : Portal crates) : Prop where
  challenges : after.challenges = portal.challenges
  flags : after.flags = portal.flags
  rows : after.userChallengeFlags = portal.userChallengeFlags
  secretKey : after.secretKey = portal.secretKey
  users : after.users = portal.users
  teamMode : after.teamMode = portal.teamMode

theorem SameChallenge.refl (portal : Portal crates) : SameChallenge portal portal :=
  ⟨rfl, rfl, rfl, rfl, rfl, rfl⟩

theorem SameChallenge.trans {portal after later : Portal crates}
    (h : SameChallenge portal after) (h' : SameChallenge after later) :
    SameChallenge portal later :=
  ⟨h'.challenges.trans h.challenges, h'.flags.trans h.flags, h'.rows.trans h.rows,
    h'.secretKey.trans h.secretKey, h'.users.trans h.users, h'.teamMode.trans h.teamMode⟩

theorem SameChallenge.flagsOf {portal after : Portal crates} (h : SameChallenge portal after)
    (challengeId : ℤ) : flagsOf after challengeId = flagsOf portal challengeId := by
  rw [Submissions.flagsOf, Submissions.flagsOf, h.flags]

theorem SameChallenge.memberContext {portal after : Portal crates}
    (h : SameChallenge portal after) (challengeId userId : ℤ) :
    memberContext after challengeId userId = memberContext portal challengeId userId := by
  rw [Submissions.memberContext, Submissions.memberContext, h.rows, h.secretKey]

theorem SameChallenge.matchesFor {portal after : Portal crates} (h : SameChallenge portal after)
    (row : SubmissionRow) (flag : StoredFlag) :
    row.matchesFor after flag = row.matchesFor portal flag := by
  unfold SubmissionRow.matchesFor
  simp only [h.memberContext]

theorem SameChallenge.submits {portal after : Portal crates} (h : SameChallenge portal after)
    {account : Account} {challengeId : ℤ} {request : AttemptRequest}
    (hs : Submits portal account challengeId request) :
    Submits after account challengeId request := by
  refine ⟨hs.challenge, hs.participant, ?_⟩
  have hteam : submissionTeamId after request.userId = submissionTeamId portal request.userId := by
    rw [submissionTeamId, submissionTeamId, h.teamMode, h.users]
  rw [hteam]
  exact hs.member

/-- What an attempt has opened. -/
theorem openAttempt_eq {portal : Portal crates} {request : AttemptRequest} {opened : OpenAttempt}
    (h : openAttempt portal request = .ok opened) :
    opened.submission = trim request.submission ∧
    submissionTeamId portal request.userId = .ok opened.teamId ∧
    opened.account = opened.teamId.elim (.user request.userId) Account.team ∧
    portal.challenges.find? (·.id = request.challengeId) = some opened.challenge ∧
    opened.flags = flagsOf portal opened.challenge.id ∧ opened.flags ≠ [] := by
  obtain ⟨⟨⟩, -, h⟩ := bind_eq_ok.mp h
  obtain ⟨teamId, hteam, h⟩ := bind_eq_ok.mp h
  obtain ⟨challenge, hchallenge, h⟩ := bind_eq_ok.mp h
  obtain ⟨⟨⟩, -, h⟩ := bind_eq_ok.mp h
  obtain ⟨⟨⟩, -, h⟩ := bind_eq_ok.mp h
  obtain ⟨⟨⟩, -, h⟩ := bind_eq_ok.mp h
  obtain ⟨⟨⟩, -, h⟩ := bind_eq_ok.mp h
  obtain ⟨⟨⟩, hflags, h⟩ := bind_eq_ok.mp h
  cases h
  refine ⟨rfl, hteam, rfl, ?_, rfl, ?_⟩
  · unfold required at hchallenge
    split at hchallenge
    · cases hchallenge
      assumption
    · cases hchallenge
  · simpa using hflags

/-- A judged attempt has compared its submission and recorded the verdict. -/
theorem judgedAttempt_eq {portal after : Portal crates} {request : AttemptRequest}
    (hpreview : request.isPreview = false) (h : judgedAttempt request portal = some after) :
    ∃ opened comparison, openAttempt portal request = .ok opened ∧
      compareSubmission (opened.context portal request) portal opened.account opened.challenge
        opened.flags opened.submission = .ok comparison ∧
      after = (recordVerdict portal request opened comparison).2.2 := by
  unfold judgedAttempt at h
  split at h
  · rename_i response after' judgement hattempt
    cases h
    unfold attempt at hattempt
    split at hattempt
    · cases hattempt
    · obtain ⟨opened, hopened, hattempt⟩ := bind_eq_ok.mp hattempt
      split at hattempt
      · cases hattempt
      · obtain ⟨comparison, hcomparison, hattempt⟩ := bind_eq_ok.mp hattempt
        dsimp only at hattempt
        rw [hpreview, if_neg (by simp)] at hattempt
        cases hattempt
        exact ⟨opened, comparison, hopened, hcomparison, rfl⟩
  · cases h

/-- The rows a verdict leaves: one submission, and a solve where it is the first
correct one. -/
theorem recordVerdict_rows (portal : Portal crates) (request : AttemptRequest)
    (opened : OpenAttempt) (comparison : ComparisonResult) :
    let after := (recordVerdict portal request opened comparison).2.2
    let solved := hasSolved portal opened.account opened.challenge.id
    SameChallenge portal after ∧
    after.submissions = portal.submissions ++ [⟨portal.nextSubmissionId, opened.challenge.id,
      some request.userId, opened.teamId, some opened.submission,
      if solved then "discard" else comparison.outcome.submissionType, request.now⟩] ∧
    after.solves = portal.solves ++ (if ! solved && comparison.outcome = .correct then
      [⟨portal.nextSubmissionId, opened.challenge.id, some request.userId, opened.teamId⟩]
      else []) := by
  have hsame (after : Portal crates) (id : ℤ) (shared : Option SharedFlagEvidence)
      (h : SameChallenge portal after) :
      SameChallenge portal (recordSharedFlagEvidence after id request opened shared) := by
    cases shared with
    | none => exact h
    | some evidence => exact h.trans ⟨rfl, rfl, rfl, rfl, rfl, rfl⟩
  have hinsert (type : String) :
      SameChallenge portal (insertSubmission portal request opened type).2 :=
    ⟨rfl, rfl, rfl, rfl, rfl, rfl⟩
  unfold recordVerdict
  by_cases hsolved : hasSolved portal opened.account opened.challenge.id = true
  · simp only [hsolved, if_true]
    exact ⟨hsame _ _ _ (hinsert _), by simp [insertSubmission], by simp [insertSubmission]⟩
  · rw [Bool.not_eq_true] at hsolved
    by_cases hcorrect : comparison.outcome = .correct
    · simp only [hsolved, hcorrect]
      refine ⟨?_, by simp [insertSolve, insertSubmission], by simp [insertSolve, insertSubmission]⟩
      exact (hsame _ _ _ (hinsert _)).trans ⟨rfl, rfl, rfl, rfl, rfl, rfl⟩
    · simp only [hsolved, hcorrect]
      exact ⟨hsame _ _ _ (hinsert _), by simp [insertSubmission], by simp [insertSubmission]⟩

/-! ## What a run collects -/

/-- A stored partial submission matches a flag for the member it is from. -/
def storedFor (portal : Portal crates) (account : Account) (challengeId : ℤ)
    (flag : StoredFlag) : Bool :=
  (storedPartials portal account challengeId).any (·.matchesFor portal flag)

/-- An accepted submission matches a flag for the member it is from. -/
def creditedFor (portal : Portal crates) (account : Account) (challengeId : ℤ)
    (flag : StoredFlag) : Bool :=
  (acceptedRows portal account challengeId).any (·.matchesFor portal flag)

/-- A request matches a flag for the member it is from. -/
def AttemptRequest.matchesFor (portal : Portal crates) (challengeId : ℤ)
    (request : AttemptRequest) (flag : StoredFlag) : Bool :=
  matchesFlag (memberContext portal challengeId request.userId) (trim request.submission) flag

/-- The stored part of the verdict is what is stored, where it is matched again for
the member who submits as it was matched before. -/
theorem matchedAmong_eq {portal : Portal crates} {account : Account} {challengeId : ℤ}
    {request : AttemptRequest} (h : Rematched account challengeId portal request)
    {flag : StoredFlag} (hflag : flag ∈ flagsOf portal challengeId) :
    matchedAmong (memberContext portal challengeId request.userId)
        (storedProvided portal account challengeId) (trim request.submission) flag =
      (storedFor portal account challengeId flag || request.matchesFor portal challengeId flag) := by
  have hstored : (storedProvided portal account challengeId).any
      (matchesFlag (memberContext portal challengeId request.userId) · flag) =
        storedFor portal account challengeId flag := by
    rw [storedProvided, List.any_filterMap]
    refine Bool.eq_iff_iff.mpr ?_
    rw [storedFor, List.any_eq_true, List.any_eq_true]
    refine exists_congr fun row => and_congr_right fun hrow => ?_
    rw [← h row hrow flag hflag]
    cases row.provided <;> simp
  rw [matchedAmong, hstored]
  rfl

/-- The row a request leaves. -/
def AttemptRequest.row (request : AttemptRequest) (id challengeId : ℤ) (teamId : Option ℤ)
    (submissionType : String) : SubmissionRow :=
  ⟨id, challengeId, some request.userId, teamId, some (trim request.submission), submissionType,
    request.now⟩

/-- A judged submission of a member of the account: what it is compared with, and the
rows it leaves. -/
theorem judgedAttempt_compares {portal after : Portal crates} {account : Account}
    {challengeId : ℤ} {request : AttemptRequest} {challenge : ChallengeRow}
    (hs : Submits portal account challengeId request)
    (hchallenge : portal.challenges.find? (·.id = challengeId) = some challenge)
    (h : judgedAttempt request portal = some after) :
    SameChallenge portal after ∧ ∃ (comparison : ComparisonResult) (teamId : Option ℤ),
      account.owns (some request.userId) teamId = true ∧ flagsOf portal challengeId ≠ [] ∧
      challenge.id = challengeId ∧
      compareSubmission (memberContext portal challengeId request.userId) portal account challenge
        (flagsOf portal challengeId) (trim request.submission) = .ok comparison ∧
      after.submissions = portal.submissions ++ [request.row portal.nextSubmissionId challengeId
        teamId (if hasSolved portal account challengeId then "discard"
          else comparison.outcome.submissionType)] ∧
      after.solves = portal.solves ++
        (if ! hasSolved portal account challengeId && comparison.outcome = .correct then
          [⟨portal.nextSubmissionId, challengeId, some request.userId, teamId⟩] else []) := by
  obtain ⟨opened, comparison, hopened, hcomparison, rfl⟩ := judgedAttempt_eq hs.participant h
  obtain ⟨hsubmission, hteam, haccount, hfound, hflags, hne⟩ := openAttempt_eq hopened
  obtain ⟨teamId, hteam', hmember⟩ := hs.member
  cases Except.ok.inj (hteam.symm.trans hteam')
  rw [hmember] at haccount
  rw [hs.challenge, hchallenge] at hfound
  cases Option.some.inj hfound
  have hid : opened.challenge.id = challengeId :=
    of_decide_eq_true (List.find?_some (p := fun c : ChallengeRow => decide (c.id = challengeId))
      hchallenge)
  obtain ⟨hsame, hsubmissions, hsolves⟩ := recordVerdict_rows portal request opened comparison
  have hcontext : opened.context portal request = memberContext portal challengeId request.userId :=
    by rw [← hid]; rfl
  rw [hflags, haccount, hsubmission, hid, hcontext] at hcomparison
  rw [haccount, hid] at hsolves
  rw [haccount, hid, hsubmission] at hsubmissions
  rw [hflags, hid] at hne
  refine ⟨hsame, comparison, opened.teamId, ?_, hne, hid, hcomparison, hsubmissions, hsolves⟩
  rw [← hmember]
  cases opened.teamId <;> simp [Account.owns]

/-- A judged submission to a challenge of the logic `all`, with the rows it leaves. -/
theorem judgedAttempt_rows {portal after : Portal crates} {account : Account} {challengeId : ℤ}
    {request : AttemptRequest} {challenge : ChallengeRow}
    (hs : Submits portal account challengeId request)
    (hchallenge : portal.challenges.find? (·.id = challengeId) = some challenge)
    (hall : challenge.logic = "all") (h : judgedAttempt request portal = some after) :
    SameChallenge portal after ∧ ∃ (outcome : FlagResult) (teamId : Option ℤ),
      account.owns (some request.userId) teamId = true ∧
      (outcome = .correct ↔ (flagsOf portal challengeId).all
        (matchedAmong (memberContext portal challengeId request.userId)
          (storedProvided portal account challengeId) (trim request.submission)) = true) ∧
      (outcome ≠ .correct → (outcome = .partially ↔
        (flagsOf portal challengeId).any (request.matchesFor portal challengeId) = true)) ∧
      after.submissions = portal.submissions ++ [request.row portal.nextSubmissionId challengeId
        teamId (if hasSolved portal account challengeId then "discard"
          else outcome.submissionType)] ∧
      after.solves = portal.solves ++
        (if ! hasSolved portal account challengeId && outcome = .correct then
          [⟨portal.nextSubmissionId, challengeId, some request.userId, teamId⟩] else []) := by
  obtain ⟨hsame, comparison, teamId, howns, hne, hid, hcomparison, hsubmissions, hsolves⟩ :=
    judgedAttempt_compares hs hchallenge h
  obtain ⟨hcorrect, hstored⟩ := compareSubmission_all hne hall hcomparison
  rw [hid] at hcorrect
  exact ⟨hsame, comparison.outcome, teamId, howns, hcorrect, hstored, hsubmissions, hsolves⟩

theorem hasSolved_eq (portal : Portal crates) (account : Account) (challengeId : ℤ) :
    hasSolved portal account challengeId = portal.solves.any fun row =>
      account.owns row.userId row.teamId && row.challengeId = challengeId := by
  rw [hasSolved, solvedIds]
  refine Bool.eq_iff_iff.mpr ?_
  rw [List.contains_iff_mem, List.mem_map, List.any_eq_true]
  constructor
  · rintro ⟨row, hrow, hid⟩
    obtain ⟨hrow, howns⟩ := List.mem_filter.mp hrow
    exact ⟨row, hrow, by rw [howns, hid]; simp⟩
  · rintro ⟨row, hrow, howns⟩
    rw [Bool.and_eq_true, decide_eq_true_eq] at howns
    exact ⟨row, List.mem_filter.mpr ⟨hrow, howns.1⟩, howns.2⟩

section OneMore

variable {portal after : Portal crates} {account : Account} {challengeId : ℤ}
  {request : AttemptRequest} {teamId : Option ℤ} {submissionType : String}

/-- The row of a member matches what the request matches. -/
theorem row_matchesFor (hsame : SameChallenge portal after) (request : AttemptRequest)
    (id challengeId : ℤ) (teamId : Option ℤ) (submissionType : String) (flag : StoredFlag) :
    (request.row id challengeId teamId submissionType).matchesFor after flag =
      request.matchesFor portal challengeId flag := by
  rw [hsame.matchesFor]
  rfl

theorem storedFor_append (hsame : SameChallenge portal after)
    (howns : account.owns (some request.userId) teamId = true) {id : ℤ}
    (h : after.submissions = portal.submissions ++ [request.row id challengeId teamId
      submissionType]) (flag : StoredFlag) :
    storedFor after account challengeId flag = (storedFor portal account challengeId flag ||
      (submissionType = "partial" && request.matchesFor portal challengeId flag)) := by
  have hrow (row : SubmissionRow) : row.matchesFor after flag = row.matchesFor portal flag :=
    hsame.matchesFor row flag
  have hnew := row_matchesFor hsame request id challengeId teamId submissionType flag
  rw [storedFor, storedFor, storedPartials, storedPartials, h, List.filter_append, List.any_append]
  simp only [hrow] at hnew ⊢
  by_cases htype : submissionType = "partial"
  · simp [AttemptRequest.row, howns, htype] at hnew ⊢
    rw [hnew]
  · simp [AttemptRequest.row, htype]

theorem creditedFor_append (hsame : SameChallenge portal after)
    (howns : account.owns (some request.userId) teamId = true) {id : ℤ}
    (h : after.submissions = portal.submissions ++ [request.row id challengeId teamId
      submissionType]) (flag : StoredFlag) :
    creditedFor after account challengeId flag = (creditedFor portal account challengeId flag ||
      ((submissionType = "partial" || submissionType = "correct") &&
        request.matchesFor portal challengeId flag)) := by
  have hrow (row : SubmissionRow) : row.matchesFor after flag = row.matchesFor portal flag :=
    hsame.matchesFor row flag
  have hnew := row_matchesFor hsame request id challengeId teamId submissionType flag
  rw [creditedFor, creditedFor, acceptedRows, acceptedRows, h, List.filter_append, List.any_append]
  simp only [hrow] at hnew ⊢
  by_cases htype : submissionType = "partial" ∨ submissionType = "correct"
  · rcases htype with rfl | rfl <;> simp [AttemptRequest.row, howns] at hnew ⊢ <;> rw [hnew]
  · push Not at htype
    simp [AttemptRequest.row, htype]

end OneMore

theorem creditedFor_of_storedFor {portal : Portal crates} {account : Account} {challengeId : ℤ}
    {flag : StoredFlag} (h : storedFor portal account challengeId flag = true) :
    creditedFor portal account challengeId flag = true := by
  obtain ⟨row, hrow, hm⟩ := List.any_eq_true.mp h
  obtain ⟨hrow, hstored⟩ := List.mem_filter.mp hrow
  refine List.any_eq_true.mpr ⟨row, List.mem_filter.mpr ⟨hrow, ?_⟩, hm⟩
  simp only [Bool.and_eq_true, decide_eq_true_eq] at hstored
  simp [hstored]

/-- What one submission does: it solves the challenge, or it is collected. -/
inductive Collects (portal after : Portal crates) (account : Account) (challengeId : ℤ)
    (request : AttemptRequest) : Prop
  | solves (solved : hasSolved after account challengeId = true)
    (covered : ∀ flag ∈ flagsOf portal challengeId, storedFor portal account challengeId flag ||
      request.matchesFor portal challengeId flag)
    (credits : ∀ flag ∈ flagsOf portal challengeId, creditedFor after account challengeId flag)
  | stores (unsolved : hasSolved after account challengeId = false)
    (uncovered : ∃ flag ∈ flagsOf portal challengeId, storedFor portal account challengeId flag = false ∧
      request.matchesFor portal challengeId flag = false)
    (stores : ∀ flag ∈ flagsOf portal challengeId, storedFor after account challengeId flag =
      (storedFor portal account challengeId flag || request.matchesFor portal challengeId flag))
    (credits : ∀ flag ∈ flagsOf portal challengeId, creditedFor after account challengeId flag =
      (creditedFor portal account challengeId flag || request.matchesFor portal challengeId flag))

theorem judgedAttempt_collects {portal after : Portal crates} {account : Account}
    {challengeId : ℤ} {request : AttemptRequest} {challenge : ChallengeRow}
    (hs : Submits portal account challengeId request)
    (hchallenge : portal.challenges.find? (·.id = challengeId) = some challenge)
    (hall : challenge.logic = "all") (hunsolved : hasSolved portal account challengeId = false)
    (hre : Rematched account challengeId portal request)
    (h : judgedAttempt request portal = some after) :
    Collects portal after account challengeId request := by
  obtain ⟨hsame, outcome, teamId, howns, hcorrect, hstored, hsubmissions, hsolves⟩ :=
    judgedAttempt_rows hs hchallenge hall h
  have hcorrect : outcome = .correct ↔ ∀ flag ∈ flagsOf portal challengeId,
      (storedFor portal account challengeId flag ||
        request.matchesFor portal challengeId flag) = true := by
    rw [hcorrect, List.all_eq_true]
    refine forall₂_congr fun flag hflag => ?_
    rw [matchedAmong_eq hre hflag]
  simp only [hunsolved, Bool.false_eq_true, if_false, Bool.not_false, Bool.true_and,
    decide_eq_true_eq] at hsubmissions hsolves
  have hsolved : hasSolved after account challengeId = decide (outcome = .correct) := by
    rw [hasSolved_eq, hsolves, List.any_append, ← hasSolved_eq, hunsolved]
    by_cases hc : outcome = .correct
    · simp [hc, howns]
    · simp [hc]
  have hstores := storedFor_append hsame howns hsubmissions
  have hcredits := creditedFor_append hsame howns hsubmissions
  by_cases hc : outcome = .correct
  · have hcovered := hcorrect.mp hc
    refine .solves (by rw [hsolved, hc]; rfl) hcovered fun flag hflag => ?_
    rw [hcredits flag, hc]
    rcases (Bool.or_eq_true _ _).mp (hcovered flag hflag) with hstored | hm
    · rw [creditedFor_of_storedFor hstored, Bool.true_or]
    · rw [hm]
      simp [FlagResult.submissionType]
  · -- a submission that is not accepted matches no flag
    have htype : ∀ flag ∈ flagsOf portal challengeId,
        (decide (outcome.submissionType = "partial") &&
          request.matchesFor portal challengeId flag) = request.matchesFor portal challengeId flag := by
      intro flag hflag
      cases outcome with
      | correct => exact absurd rfl hc
      | partially => simp [FlagResult.submissionType]
      | incorrect message =>
          have hnone : ¬ (flagsOf portal challengeId).any
              (request.matchesFor portal challengeId) = true := fun hany => by
            cases (hstored hc).mpr hany
          rw [List.any_eq_true] at hnone
          have hm : request.matchesFor portal challengeId flag = false :=
            Bool.eq_false_iff.mpr fun hm => hnone ⟨flag, hflag, hm⟩
          rw [hm, Bool.and_false]
    have hnot : outcome.submissionType ≠ "correct" := by
      cases outcome with
      | correct => exact absurd rfl hc
      | partially | incorrect => simp [FlagResult.submissionType]
    refine .stores (by rw [hsolved]; exact decide_eq_false hc) ?_ (fun flag hflag => ?_)
      fun flag hflag => ?_
    · have hsome := mt hcorrect.mpr hc
      push Not at hsome
      obtain ⟨flag, hflag, hnone⟩ := hsome
      rw [ne_eq, Bool.not_eq_true, Bool.or_eq_false_iff] at hnone
      exact ⟨flag, hflag, hnone⟩
    · rw [hstores flag, htype flag hflag]
    · rw [hcredits flag, decide_eq_false hnot, Bool.or_false, htype flag hflag]

/-- A submission once the challenge is solved. -/
theorem judgedAttempt_solved {portal after : Portal crates} {account : Account}
    {challengeId : ℤ} {request : AttemptRequest} {challenge : ChallengeRow}
    (hs : Submits portal account challengeId request)
    (hchallenge : portal.challenges.find? (·.id = challengeId) = some challenge)
    (hall : challenge.logic = "all") (hsolved : hasSolved portal account challengeId = true)
    (h : judgedAttempt request portal = some after) :
    hasSolved after account challengeId = true ∧
      ∀ flag, creditedFor after account challengeId flag =
        creditedFor portal account challengeId flag := by
  obtain ⟨hsame, outcome, teamId, howns, -, -, hsubmissions, hsolves⟩ :=
    judgedAttempt_rows hs hchallenge hall h
  simp only [hsolved, Bool.not_true, Bool.false_and, Bool.false_eq_true, if_false,
    List.append_nil, if_true] at hsubmissions hsolves
  refine ⟨by rw [hasSolved_eq, hsolves, ← hasSolved_eq, hsolved], fun flag => ?_⟩
  rw [creditedFor_append hsame howns hsubmissions flag]
  simp

/-! ## Runs -/

/-- Some request of a list matches a flag for the member it is from. -/
def anyMatches (portal : Portal crates) (challengeId : ℤ) (requests : List AttemptRequest)
    (flag : StoredFlag) : Bool :=
  requests.any (·.matchesFor portal challengeId flag)

theorem SameChallenge.requestMatchesFor {portal after : Portal crates}
    (h : SameChallenge portal after) (challengeId : ℤ) (request : AttemptRequest)
    (flag : StoredFlag) :
    request.matchesFor after challengeId flag = request.matchesFor portal challengeId flag := by
  rw [AttemptRequest.matchesFor, AttemptRequest.matchesFor, h.memberContext]

theorem SameChallenge.anyMatches {portal after : Portal crates} (h : SameChallenge portal after)
    (challengeId : ℤ) (requests : List AttemptRequest) (flag : StoredFlag) :
    anyMatches after challengeId requests flag = anyMatches portal challengeId requests flag := by
  unfold Submissions.anyMatches
  simp only [h.requestMatchesFor]

/-- What a run of submissions does: it solves the challenge, or they are collected. -/
inductive Collected (portal after : Portal crates) (account : Account) (challengeId : ℤ)
    (requests : List AttemptRequest) : Prop
  | solved (solved : hasSolved after account challengeId = true) (some : requests ≠ [])
    (covered : ∀ flag ∈ flagsOf portal challengeId, storedFor portal account challengeId flag ||
      anyMatches portal challengeId requests flag)
    (credits : ∀ flag ∈ flagsOf portal challengeId, creditedFor after account challengeId flag)
  | stored (unsolved : hasSolved after account challengeId = false)
    (uncovered : requests ≠ [] → ∃ flag ∈ flagsOf portal challengeId,
      storedFor portal account challengeId flag = false ∧
        anyMatches portal challengeId requests flag = false)
    (credits : ∀ flag ∈ flagsOf portal challengeId, creditedFor after account challengeId flag =
      (creditedFor portal account challengeId flag || anyMatches portal challengeId requests flag))

/-- The challenge of a run, and who takes part in it. -/
structure Contest (portal : Portal crates) (account : Account) (challengeId : ℤ)
    (requests : List AttemptRequest) : Prop where
  challenge : ∃ challenge, portal.challenges.find? (·.id = challengeId) = some challenge ∧
    challenge.logic = "all"
  submits : ∀ request ∈ requests, Submits portal account challengeId request

theorem Contest.next {portal after : Portal crates} {account : Account} {challengeId : ℤ}
    {request : AttemptRequest} {requests : List AttemptRequest}
    (hc : Contest portal account challengeId (request :: requests))
    (hsame : SameChallenge portal after) : Contest after account challengeId requests := by
  obtain ⟨challenge, hfound, hall⟩ := hc.challenge
  refine ⟨⟨challenge, by rw [hsame.challenges]; exact hfound, hall⟩, fun request' h => ?_⟩
  exact hsame.submits (hc.submits request' (List.mem_cons_of_mem request h))

/-- The first step of a run, and the rest. -/
theorem Contest.first {portal after : Portal crates} {account : Account} {challengeId : ℤ}
    {request : AttemptRequest} {requests : List AttemptRequest}
    (hc : Contest portal account challengeId (request :: requests))
    (h : judgedAttempt request portal = some after) :
    SameChallenge portal after ∧ Contest after account challengeId requests := by
  obtain ⟨challenge, hfound, hall⟩ := hc.challenge
  obtain ⟨hsame, -⟩ := judgedAttempt_rows (hc.submits request List.mem_cons_self) hfound hall h
  exact ⟨hsame, hc.next hsame⟩

theorem run_solved {portal after : Portal crates} {account : Account} {challengeId : ℤ}
    {requests : List AttemptRequest} {guard : Portal crates → AttemptRequest → Prop}
    [∀ portal request, Decidable (guard portal request)]
    (hc : Contest portal account challengeId requests)
    (hsolved : hasSolved portal account challengeId = true)
    (h : runIf judgedAttempt guard requests portal = some after) :
    SameChallenge portal after ∧ hasSolved after account challengeId = true ∧
      ∀ flag, creditedFor after account challengeId flag =
        creditedFor portal account challengeId flag := by
  induction requests generalizing portal with
  | nil =>
      cases h
      exact ⟨.refl _, hsolved, fun _ => rfl⟩
  | cons request requests ih =>
      rw [runIf] at h
      split at h
      · obtain ⟨mid, hmid, h⟩ := Option.bind_eq_some_iff.mp h
        obtain ⟨hsame, hnext⟩ := hc.first hmid
        obtain ⟨challenge, hfound, hall⟩ := hc.challenge
        obtain ⟨hsolved', hcredits⟩ :=
          judgedAttempt_solved (hc.submits request List.mem_cons_self) hfound hall hsolved hmid
        obtain ⟨hsame', hafter, hcredits'⟩ := ih hnext hsolved' h
        exact ⟨hsame.trans hsame', hafter, fun flag => (hcredits' flag).trans (hcredits flag)⟩
      · cases h

/-- **What a run collects.** -/
theorem run_collects {portal after : Portal crates} {account : Account} {challengeId : ℤ}
    {requests : List AttemptRequest} (hc : Contest portal account challengeId requests)
    (hunsolved : hasSolved portal account challengeId = false)
    (h : runIf judgedAttempt (Rematched account challengeId) requests portal = some after) :
    SameChallenge portal after ∧ Collected portal after account challengeId requests := by
  induction requests generalizing portal with
  | nil =>
      cases h
      exact ⟨.refl _, .stored hunsolved (absurd rfl) fun flag _ => (Bool.or_false _).symm⟩
  | cons request requests ih =>
      rw [runIf] at h
      split at h
      · rename_i hre
        obtain ⟨mid, hmid, h⟩ := Option.bind_eq_some_iff.mp h
        obtain ⟨hsame, hnext⟩ := hc.first hmid
        obtain ⟨challenge, hfound, hall⟩ := hc.challenge
        have hany (flag : StoredFlag) : anyMatches portal challengeId (request :: requests) flag =
            (request.matchesFor portal challengeId flag ||
              anyMatches portal challengeId requests flag) := rfl
        cases judgedAttempt_collects (hc.submits request List.mem_cons_self) hfound hall hunsolved
          hre hmid with
        | solves solved covered credits =>
            obtain ⟨hsame', hafter, hcredits⟩ := run_solved hnext solved h
            refine ⟨hsame.trans hsame', .solved hafter (List.cons_ne_nil _ _)
              (fun flag hflag => ?_) fun flag hflag => ?_⟩
            · have := covered flag hflag
              rw [hany, ← Bool.or_assoc, this, Bool.true_or]
            · rw [hcredits flag]
              exact credits flag hflag
        | stores unsolved uncovered stores credits =>
            obtain ⟨hsame', hcollected⟩ := ih hnext unsolved h
            refine ⟨hsame.trans hsame', ?_⟩
            have hflags := hsame.flagsOf challengeId
            have hstored (flag : StoredFlag) (hflag : flag ∈ flagsOf portal challengeId) :
                (storedFor mid account challengeId flag ||
                  anyMatches mid challengeId requests flag) =
                  (storedFor portal account challengeId flag ||
                    anyMatches portal challengeId (request :: requests) flag) := by
              rw [stores flag hflag, hsame.anyMatches, hany, Bool.or_assoc]
            cases hcollected with
            | solved solved some covered credits' =>
                refine .solved solved (List.cons_ne_nil _ _) (fun flag hflag => ?_)
                  fun flag hflag => credits' flag (hflags ▸ hflag)
                rw [← hstored flag hflag]
                exact covered flag (hflags ▸ hflag)
            | stored unsolved' uncovered' credits' =>
                refine .stored unsolved' (fun _ => ?_) fun flag hflag => ?_
                · cases requests with
                  | nil =>
                      obtain ⟨flag, hflag, hstored, hm⟩ := uncovered
                      exact ⟨flag, hflag, hstored, by rw [hany, hm]; rfl⟩
                  | cons next requests =>
                      obtain ⟨flag, hflag, hnone⟩ := uncovered' (List.cons_ne_nil _ _)
                      refine ⟨flag, hflags ▸ hflag, ?_⟩
                      rw [← Bool.or_eq_false_iff, ← hstored flag (hflags ▸ hflag),
                        Bool.or_eq_false_iff]
                      exact hnone
                · rw [credits' flag (hflags ▸ hflag), credits flag hflag, hsame.anyMatches, hany,
                    Bool.or_assoc]
      · cases h

/-- The member and the string of a request. -/
def AttemptRequest.pair (request : AttemptRequest) : ℤ × String :=
  (request.userId, request.submission)

theorem anyMatches_perm {portal : Portal crates} {challengeId : ℤ}
    {requests requests' : List AttemptRequest}
    (h : (requests.map AttemptRequest.pair).Perm (requests'.map AttemptRequest.pair))
    (flag : StoredFlag) : anyMatches portal challengeId requests flag =
      anyMatches portal challengeId requests' flag := by
  have hpair (l : List AttemptRequest) : anyMatches portal challengeId l flag =
      (l.map AttemptRequest.pair).any fun p =>
        matchesFlag (memberContext portal challengeId p.1) (trim p.2) flag := by
    rw [List.any_map]
    rfl
  rw [hpair, hpair]
  refine Bool.eq_iff_iff.mpr ?_
  rw [List.any_eq_true, List.any_eq_true]
  exact exists_congr fun p => and_congr_left fun _ => h.mem_iff

/-- **The order of the submissions.**  Where every stored submission is matched again
as it was matched for the member it is from, two orders of the same submissions
credit the account with the same flags, and solve the challenge or leave it open. -/
theorem all_order_independent {portal after after' : Portal crates} {account : Account}
    {challengeId : ℤ} {requests requests' : List AttemptRequest}
    (hc : Contest portal account challengeId requests)
    (hc' : Contest portal account challengeId requests')
    (hperm : (requests.map AttemptRequest.pair).Perm (requests'.map AttemptRequest.pair))
    (h : runIf judgedAttempt (Rematched account challengeId) requests portal = some after)
    (h' : runIf judgedAttempt (Rematched account challengeId) requests' portal = some after') :
    credited after account challengeId = credited after' account challengeId ∧
      hasSolved after account challengeId = hasSolved after' account challengeId := by
  have hcredited {later : Portal crates} (hsame : SameChallenge portal later) :
      credited later account challengeId =
        (flagsOf portal challengeId).filter (creditedFor later account challengeId) := by
    rw [credited, hsame.flagsOf]
    rfl
  cases hsolved : hasSolved portal account challengeId with
  | true =>
      obtain ⟨hsame, hafter, hcredits⟩ := run_solved hc hsolved h
      obtain ⟨hsame', hafter', hcredits'⟩ := run_solved hc' hsolved h'
      rw [hcredited hsame, hcredited hsame', hafter, hafter']
      refine ⟨List.filter_congr fun flag _ => ?_, rfl⟩
      rw [hcredits, hcredits']
  | false =>
      obtain ⟨hsame, hcollected⟩ := run_collects hc hsolved h
      obtain ⟨hsame', hcollected'⟩ := run_collects hc' hsolved h'
      have hnil : requests = [] ↔ requests' = [] := by
        have hlength := hperm.length_eq
        rw [List.length_map, List.length_map] at hlength
        rw [← List.length_eq_zero_iff, ← List.length_eq_zero_iff, hlength]
      rw [hcredited hsame, hcredited hsame']
      cases hcollected with
      | solved solved some covered credits =>
          cases hcollected' with
          | solved solved' some' covered' credits' =>
              refine ⟨List.filter_congr fun flag hflag => ?_, solved.trans solved'.symm⟩
              rw [credits flag hflag, credits' flag hflag]
          | stored unsolved' uncovered' credits' =>
              obtain ⟨flag, hflag, hstored, hm⟩ := uncovered' (mt hnil.mpr some)
              have hcover := covered flag hflag
              rw [hstored, anyMatches_perm hperm flag, hm] at hcover
              cases hcover
      | stored unsolved uncovered credits =>
          cases hcollected' with
          | solved solved' some' covered' credits' =>
              obtain ⟨flag, hflag, hstored, hm⟩ := uncovered (mt hnil.mp some')
              have hcover := covered' flag hflag
              rw [hstored, ← anyMatches_perm hperm flag, hm] at hcover
              cases hcover
          | stored unsolved' uncovered' credits' =>
              refine ⟨List.filter_congr fun flag hflag => ?_, unsolved.trans unsolved'.symm⟩
              rw [credits flag hflag, credits' flag hflag, anyMatches_perm hperm flag]

/-! ## A team of two -/

/-- The flags `A` and `f` with a random token. -/
def ownFlags : List (SavedFlag plainCrates) :=
  [(saveFlag plainCrates 1 1 1 "static" "A" .null "private").toOption,
    (saveFlag plainCrates 2 1 1 "generated" "f\x7b\x7bRANDOM_TOKEN\x7d\x7d" .null
      "private").toOption].filterMap id

/-- The value of the generated flag for the member 7, and its row. -/
def ownValue : Option (Option String × List UserChallengeFlag) :=
  (materializeForLaunch plainCrates ownFlags [] 1 7 "key" ⟨0, 0⟩).toOption

/-- The members 7 and 8 of the team 1, and a challenge with both flags. -/
def teamOfTwo : Portal plainCrates where
  challenges := [⟨1, some "standard", "visible", "all", none, "private", none⟩]
  flags := ownFlags
  userChallengeFlags := (ownValue.map Prod.snd).getD []
  submissions := []
  solves := []
  flagSharingEvents := []
  users := [⟨7, "user", some 1⟩, ⟨8, "user", some 1⟩]
  nextSubmissionId := 1
  nextFlagId := 3
  teamMode := true
  settings := ⟨none, false, 10, "lockout", 300⟩
  secretKey := "key"

/-- A member submits a string. -/
def memberSubmits (userId : ℤ) (submission : String) : AttemptRequest :=
  ⟨userId, false, false, 1, submission, 0⟩

/-- The member 7 submits the value of the generated flag that is theirs. -/
def ownSubmission : AttemptRequest :=
  memberSubmits 7 ((ownValue.bind Prod.fst).getD "")

theorem teamOfTwo_contest (requests : List AttemptRequest)
    (h : ∀ request ∈ requests, ∃ submission, request = memberSubmits 7 submission ∨
      request = memberSubmits 8 submission) : Contest teamOfTwo (.team 1) 1 requests := by
  refine ⟨⟨_, rfl, rfl⟩, fun request hrequest => ?_⟩
  obtain ⟨submission, rfl | rfl⟩ := h request hrequest
  · exact ⟨rfl, rfl, some 1, rfl, rfl⟩
  · exact ⟨rfl, rfl, some 1, rfl, rfl⟩

/-- The member 7 submits both parts, in either order. -/
theorem all_order_independent_teamOfTwo : ∃ after after',
    runIf judgedAttempt (Rematched (.team 1) 1) [memberSubmits 7 "A", ownSubmission] teamOfTwo =
      some after ∧
    runIf judgedAttempt (Rematched (.team 1) 1) [ownSubmission, memberSubmits 7 "A"] teamOfTwo =
      some after' ∧
    credited after (.team 1) 1 = credited after' (.team 1) 1 ∧
    hasSolved after (.team 1) 1 = hasSolved after' (.team 1) 1 := by
  have hrun : (runIf judgedAttempt (Rematched (.team 1) 1)
      [memberSubmits 7 "A", ownSubmission] teamOfTwo).isSome = true ∧
      (runIf judgedAttempt (Rematched (.team 1) 1)
        [ownSubmission, memberSubmits 7 "A"] teamOfTwo).isSome = true := by
    decide +kernel
  obtain ⟨after, hafter⟩ := Option.isSome_iff_exists.mp hrun.1
  obtain ⟨after', hafter'⟩ := Option.isSome_iff_exists.mp hrun.2
  have hperm : ([memberSubmits 7 "A", ownSubmission].map AttemptRequest.pair).Perm
      ([ownSubmission, memberSubmits 7 "A"].map AttemptRequest.pair) := .swap _ _ _
  refine ⟨after, after', hafter, hafter', all_order_independent (teamOfTwo_contest _ ?_)
    (teamOfTwo_contest _ ?_) hperm hafter hafter'⟩
  · simp [ownSubmission, memberSubmits]
  · simp [ownSubmission, memberSubmits]

/-- The member 7 submits the value that is theirs and the member 8 submits `A`: the
challenge is solved where the member 7 is the last, and is left open otherwise. -/
theorem all_order_dependent :
    ¬ ∀ (crates : Crates) (portal after after' : Portal crates) (account : Account)
      (challengeId : ℤ) (requests requests' : List AttemptRequest),
      Contest portal account challengeId requests →
      Contest portal account challengeId requests' →
      (requests.map AttemptRequest.pair).Perm (requests'.map AttemptRequest.pair) →
      run judgedAttempt requests portal = some after →
      run judgedAttempt requests' portal = some after' →
      credited after account challengeId = credited after' account challengeId ∧
        hasSolved after account challengeId = hasSolved after' account challengeId := by
  have hrun : ((run judgedAttempt [ownSubmission, memberSubmits 8 "A"] teamOfTwo).any
      fun after => ! hasSolved after (.team 1) 1) = true ∧
      ((run judgedAttempt [memberSubmits 8 "A", ownSubmission] teamOfTwo).any
        fun after => hasSolved after (.team 1) 1) = true := by
    decide +kernel
  obtain ⟨after, hafter, hopen⟩ := (Option.any_eq_true _ _).mp hrun.1
  obtain ⟨after', hafter', hsolved⟩ := (Option.any_eq_true _ _).mp hrun.2
  intro hall
  have := (hall plainCrates teamOfTwo after after' (.team 1) 1
    [ownSubmission, memberSubmits 8 "A"] [memberSubmits 8 "A", ownSubmission]
    (teamOfTwo_contest _ (by simp [ownSubmission, memberSubmits]))
    (teamOfTwo_contest _ (by simp [ownSubmission, memberSubmits])) (.swap _ _ _) hafter hafter').2
  rw [hsolved] at this
  rw [this] at hopen
  cases hopen

end CtfZone.Submissions
