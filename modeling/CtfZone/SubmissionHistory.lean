/-
# Histories of submissions

What happens to a challenge between two attempts: administrators create, edit
and delete its flags (`administration.rs`) and change its logic
(`challenges.rs`), instances are launched, users change teams.  `step` lets all
of it happen in any order.

* `compareSubmission_accepted` : why a submission is accepted;
* `compareSubmission_covered` : where the stored partial submissions match every
  flag of a challenge of the logic `all`, every string is judged correct;
* `History.Sound` : what is accepted and recorded matched a flag.
-/
import CtfZone.Submissions
import CtfZone.Runs
import CtfZone.Tables

namespace CtfZone.Submissions

open Journal Runs Tables

variable {crates : Crates}

/-! ## Flags -/

/-- A definition as a row of `flags`. -/
def saveFlag (crates : Crates) (id challengeId revision : ℤ) (flagType content : String)
    (data : Json) (exposure : String) : Except String (SavedFlag crates) :=
  match h : normalizeDefinition crates flagType content data exposure with
  | .ok (savedType, savedContent, savedData) =>
    .ok ⟨⟨id, challengeId, savedType, savedContent, savedData, revision⟩,
      flagType, content, data, exposure, h⟩
  | .error error => .error error

/-- The index `idx_flags_one_generated_per_challenge`. -/
def generatedUnique (others : List (SavedFlag crates)) (flag : SavedFlag crates) : Bool :=
  ! (flag.flagType = "generated" && others.any fun other =>
    other.challengeId = flag.challengeId && other.flagType = "generated")

/-- The exposure of a challenge. -/
def exposureOf (portal : Portal crates) (challengeId : ℤ) : Except String String :=
  (required (portal.challenges.find? (·.id = challengeId)) "Challenge not found").map
    ChallengeRow.exposure

/-- `create_flag`; `active` says that the challenge has an active runtime. -/
def createFlag (portal : Portal crates) (challengeId : ℤ) (flagType content : String)
    (data : Json) (active : Bool) : Except String (Portal crates) := do
  let exposure ← exposureOf portal challengeId
  ensure (! active) "Stop the active challenge instances before changing flags"
  let flag ← saveFlag crates portal.nextFlagId challengeId 1 flagType content data exposure
  ensure (generatedUnique portal.flags flag) "The challenge already has a generated flag"
  pure { portal with
    flags := portal.flags ++ [flag]
    nextFlagId := portal.nextFlagId + 1 }

/-- `FlagPatch`. -/
structure FlagPatch where
  challengeId : Option ℤ
  flagType : Option String
  content : Option String
  data : Option Json

/-- The flags of a challenge are counted. -/
def flagCount (portal : Portal crates) (challengeId : ℤ) : ℕ :=
  portal.flags.countP (·.challengeId = challengeId)

/-- A user has been given a value of the flag. -/
def hasAssignments (portal : Portal crates) (flagId : ℤ) : Bool :=
  portal.userChallengeFlags.any (·.flagId = flagId)

/-- Two definitions differ; saved options are equal where they are read alike. -/
def definitionChanged (current flag : StoredFlag) : Bool :=
  flag.challengeId ≠ current.challengeId || flag.flagType ≠ current.flagType ||
    flag.content ≠ current.content ||
    FlagPolicyData.fromValue flag.data ≠ FlagPolicyData.fromValue current.data

/-- The checks of a definition that changes. -/
def checkChange (portal : Portal crates) (current flag : StoredFlag) (active : ℤ → Bool) :
    Except String Unit := do
  ensure (flag.challengeId = current.challengeId || 1 < flagCount portal current.challengeId)
    "A challenge must retain at least one flag definition"
  ensure (! hasAssignments portal current.id)
    "Generated flag definitions cannot change after allocation"
  ensure (! (active current.challengeId || active flag.challengeId))
    "Stop the active challenge instances before changing flags"

/-- `update_flag`. -/
def updateFlag (portal : Portal crates) (flagId : ℤ) (patch : FlagPatch) (active : ℤ → Bool) :
    Except String (Portal crates) := do
  let current ← required (portal.flags.find? (·.id = flagId)) "Flag not found"
  let challengeId := patch.challengeId.getD current.challengeId
  let exposure ← exposureOf portal challengeId
  let flag ← saveFlag crates flagId challengeId current.revision
    (patch.flagType.getD current.flagType) (patch.content.getD current.content)
    (patch.data.getD current.data) exposure
  let changed := definitionChanged current.toStoredFlag flag.toStoredFlag
  if changed then checkChange portal current.toStoredFlag flag.toStoredFlag active else pure ⟨⟩
  let saved : SavedFlag crates :=
    { flag with revision := if changed then current.revision + 1 else current.revision }
  ensure (generatedUnique (portal.flags.filter (·.id ≠ flagId)) saved)
    "The challenge already has a generated flag"
  pure { portal with flags := update (·.id = flagId) (fun _ => saved) portal.flags }

/-- `delete_flag`. -/
def deleteFlag (portal : Portal crates) (flagId : ℤ) (active : Bool) :
    Except String (Portal crates) := do
  let current ← required (portal.flags.find? (·.id = flagId)) "Flag not found"
  ensure (! hasAssignments portal flagId) "Generated flags cannot be deleted after allocation"
  ensure (1 < flagCount portal current.challengeId)
    "A challenge must retain at least one flag definition"
  ensure (! active) "Stop the active challenge instances before changing flags"
  pure { portal with flags := portal.flags.filter (·.id ≠ flagId) }

/-! ## Challenges -/

/-- The fields of a challenge an attempt reads, as the body of `update` gives
them; an absent one keeps its value. -/
structure ChallengePatch where
  state : Option String
  logic : Option String
  maxAttempts : Option (Option ℤ)
  requirements : Option (Option Json)

/-- `validate_requirements`. -/
def validateRequirements : Option Json → Except String Unit
  | none => .ok ⟨⟩
  | some (.object fields) =>
    match (Json.object fields).field "prerequisites" with
    | none => .ok ⟨⟩
    | some (.array values) =>
      ensure (values.all (·.asI64.isSome)) "Challenge prerequisites must contain integer IDs"
    | some _ => .error "Challenge prerequisites must be an array"
  | some _ => .error "Challenge requirements must be an object"

/-- What `update` in `challenges.rs` does to these fields. -/
def updateChallenge (portal : Portal crates) (challengeId : ℤ) (patch : ChallengePatch) :
    Except String (Portal crates) := do
  let current ← required (portal.challenges.find? (·.id = challengeId)) "Challenge not found"
  let maxAttempts := (patch.maxAttempts.getD current.maxAttempts).getD 0
  ensure (0 ≤ maxAttempts) "Challenge max_attempts cannot be negative"
  let state := patch.state.getD current.state
  ensure (["visible", "hidden", "locked"].contains state) "Unsupported challenge state"
  let logic := patch.logic.getD current.logic
  ensure (["any", "all", "team"].contains logic) "Unsupported challenge logic"
  let requirements := patch.requirements.getD current.requirements
  validateRequirements requirements
  pure { portal with
    challenges := update (·.id = challengeId)
      (fun row => { row with state, logic, maxAttempts := some maxAttempts, requirements })
      portal.challenges }

/-! ## Steps -/

/-- The portal, and every verdict its attempts have come to. -/
structure History (crates : Crates) where
  portal : Portal crates
  judged : List Judgement

/-- What happens, with what the environment chooses. -/
inductive Label
  | attempt (request : AttemptRequest)
  | createFlag (challengeId : ℤ) (flagType content : String) (data : Json) (active : Bool)
  | updateFlag (flagId : ℤ) (patch : FlagPatch) (active : ℤ → Bool)
  | deleteFlag (flagId : ℤ) (active : Bool)
  | updateChallenge (challengeId : ℤ) (patch : ChallengePatch)
  | launch (challengeId userId : ℤ) (draws : Draws)
  | changeTeam (userId : ℤ) (teamId : Option ℤ)
  | configure (settings : Settings)

/-- The change of the portal a label other than an attempt stands for. -/
def Label.change (portal : Portal crates) : Label → Except String (Portal crates)
  | .attempt _ => .ok portal
  | .createFlag challengeId flagType content data active =>
    Submissions.createFlag portal challengeId flagType content data active
  | .updateFlag flagId patch active => Submissions.updateFlag portal flagId patch active
  | .deleteFlag flagId active => Submissions.deleteFlag portal flagId active
  | .updateChallenge challengeId patch => Submissions.updateChallenge portal challengeId patch
  | .launch challengeId userId draws =>
    (materializeForLaunch crates portal.flags portal.userChallengeFlags challengeId userId
      portal.secretKey draws).map fun (_, rows) => { portal with userChallengeFlags := rows }
  | .changeTeam userId teamId =>
    .ok { portal with
      users := update (·.id = userId) (fun user => { user with teamId }) portal.users }
  | .configure settings => .ok { portal with settings }

/-- One step of a history; a request that fails changes nothing. -/
def step (label : Label) (s : History crates) : Option (History crates) :=
  match label with
  | .attempt request =>
    match attempt s.portal request with
    | .ok (_, portal, judgement) => some ⟨portal, s.judged ++ judgement.toList⟩
    | .error _ => none
  | label =>
    match label.change s.portal with
    | .ok portal => some { s with portal }
    | .error _ => none

/-- A portal nobody has submitted to. -/
def Initial (s : History crates) : Prop :=
  s.portal.submissions = [] ∧ s.portal.solves = [] ∧ s.judged = []

/-! ## Accepted submissions -/

/-- `flag_matches` says that a text matches a flag. -/
def matchesFlag (context : Context) (text : String) (flag : StoredFlag) : Bool :=
  match flagMatches context flag text with
  | .ok evaluation => evaluation.matched
  | .error _ => false

theorem matchesFlag_of_ok {context : Context} {text : String} {flag : StoredFlag}
    {evaluation : FlagEvaluation} (h : flagMatches context flag text = .ok evaluation) :
    matchesFlag context text flag = evaluation.matched := by
  rw [matchesFlag, h]

/-- The search for a flag finds one that the submission matches. -/
theorem firstMatch_true {context : Context} {submission : String} {flags : List StoredFlag}
    {shared found : Option SharedFlagEvidence}
    (h : firstMatch context submission shared flags = .ok (true, found)) :
    ∃ flag ∈ flags, matchesFlag context submission flag = true := by
  induction flags generalizing shared with
  | nil => cases h
  | cons flag flags ih =>
      obtain ⟨evaluation, heval, h⟩ := bind_eq_ok.mp h
      by_cases hm : evaluation.matched = true
      · exact ⟨flag, List.mem_cons_self, (matchesFlag_of_ok heval).trans hm⟩
      · rw [if_neg hm] at h
        obtain ⟨found, hmem, hfound⟩ := ih h
        exact ⟨found, List.mem_cons_of_mem flag hmem, hfound⟩

theorem matchedByStored_true {context : Context} {flag : StoredFlag} {stored : List String}
    (h : matchedByStored context flag stored = .ok true) :
    ∃ text ∈ stored, matchesFlag context text flag = true := by
  induction stored with
  | nil => cases h
  | cons candidate stored ih =>
      obtain ⟨evaluation, heval, h⟩ := bind_eq_ok.mp h
      by_cases hm : evaluation.matched = true
      · exact ⟨candidate, List.mem_cons_self, (matchesFlag_of_ok heval).trans hm⟩
      · rw [if_neg hm] at h
        obtain ⟨text, hmem, htext⟩ := ih h
        exact ⟨text, List.mem_cons_of_mem candidate hmem, htext⟩

/-- The logic `all` asks for each flag whether a stored submission or the new
one matches it. -/
theorem allMatched_true {context : Context} {stored : List String} {submission : String}
    {flags : List StoredFlag} {shared found : Option SharedFlagEvidence}
    (h : allMatched context stored submission shared flags = .ok (true, found)) :
    ∀ flag ∈ flags, (∃ text ∈ stored, matchesFlag context text flag = true) ∨
      matchesFlag context submission flag = true := by
  induction flags generalizing shared with
  | nil => exact fun _ h => absurd h List.not_mem_nil
  | cons flag flags ih =>
      obtain ⟨byStored, hstored, h⟩ := bind_eq_ok.mp h
      cases byStored with
      | true => exact List.forall_mem_cons.mpr ⟨.inl (matchedByStored_true hstored), ih h⟩
      | false =>
          obtain ⟨evaluation, heval, h⟩ := bind_eq_ok.mp h
          by_cases hm : evaluation.matched = true
          · rw [if_pos hm] at h
            exact List.forall_mem_cons.mpr ⟨.inr ((matchesFlag_of_ok heval).trans hm), ih h⟩
          · rw [if_neg hm] at h
            cases h

/-- A submission is judged correct or partial. -/
def FlagResult.Accepted (outcome : FlagResult) : Prop :=
  outcome = .correct ∨ outcome = .partially

theorem FlagResult.not_accepted_incorrect {message : String} :
    ¬ (FlagResult.incorrect message).Accepted := by
  rintro (h | h) <;> cases h

/-- Only an accepted submission is recorded with one of these types. -/
theorem FlagResult.accepted_of_submissionType {outcome : FlagResult}
    (h : outcome.submissionType = "correct" ∨ outcome.submissionType = "partial") :
    outcome.Accepted := by
  cases outcome with
  | correct => exact .inl rfl
  | partially => exact .inr rfl
  | incorrect message =>
      have hne : "incorrect" ≠ "correct" ∧ "incorrect" ≠ "partial" := by decide
      rcases h with h | h
      · exact absurd h hne.1
      · exact absurd h hne.2

/-- The stored submissions match every flag, without the new one. -/
def coveredByStored (context : Context) (stored : List String) (flags : List StoredFlag) : Bool :=
  flags.all fun flag => stored.any fun text => matchesFlag context text flag

/-- **Why a submission is accepted**: it matches a flag, or the logic is `all`
and the stored submissions match every flag without it. -/
theorem compareSubmission_accepted {context : Context} {portal : Portal crates}
    {account : Account} {challenge : ChallengeRow} {flags : List StoredFlag}
    {submission : String} {comparison : ComparisonResult}
    (h : compareSubmission context portal account challenge flags submission = .ok comparison)
    (haccepted : comparison.outcome.Accepted) :
    flags.any (matchesFlag context submission) = true ∨
      challenge.logic = "all" ∧
        coveredByStored context (storedProvided portal account challenge.id) flags = true := by
  have hfirst {shared found : Option SharedFlagEvidence}
      (h : firstMatch context submission shared flags = .ok (true, found)) :
      flags.any (matchesFlag context submission) = true :=
    List.any_eq_true.mpr (firstMatch_true h)
  unfold compareSubmission at h
  split at h
  · cases h
    exact absurd haccepted FlagResult.not_accepted_incorrect
  · split at h
    · rename_i hall
      obtain ⟨⟨matched, shared⟩, hmatched, h⟩ := bind_eq_ok.mp h
      cases matched with
      | true =>
          by_cases hsub : flags.any (matchesFlag context submission) = true
          · exact .inl hsub
          · refine .inr ⟨hall, List.all_eq_true.mpr fun flag hflag => List.any_eq_true.mpr ?_⟩
            rcases allMatched_true hmatched flag hflag with hstored | hflagSub
            · exact hstored
            · exact absurd (List.any_eq_true.mpr ⟨flag, hflag, hflagSub⟩) hsub
      | false =>
          obtain ⟨⟨matched, shared'⟩, hmatched, h⟩ := bind_eq_ok.mp h
          cases matched with
          | true => exact .inl (hfirst hmatched)
          | false =>
              cases h
              exact absurd haccepted FlagResult.not_accepted_incorrect
    · split at h
      · obtain ⟨⟨matched, shared⟩, hmatched, h⟩ := bind_eq_ok.mp h
        cases matched with
        | true => exact .inl (hfirst hmatched)
        | false =>
            cases h
            exact absurd haccepted FlagResult.not_accepted_incorrect
      · obtain ⟨⟨matched, shared⟩, hmatched, h⟩ := bind_eq_ok.mp h
        cases matched with
        | true => exact .inl (hfirst hmatched)
        | false =>
            cases h
            exact absurd haccepted FlagResult.not_accepted_incorrect

/-- Where the stored partial submissions match every flag of a challenge of the
logic `all`, every string is judged correct. -/
theorem compareSubmission_covered {context : Context} {portal : Portal crates}
    {account : Account} {challenge : ChallengeRow} {flags : List StoredFlag}
    (hflags : flags ≠ []) (hall : challenge.logic = "all")
    (hcovered : ∀ flag ∈ flags,
      matchedByStored context flag (storedProvided portal account challenge.id) = .ok true)
    (submission : String) :
    compareSubmission context portal account challenge flags submission =
      .ok ⟨.correct, none⟩ := by
  have hloop : ∀ rest : List StoredFlag, (∀ flag ∈ rest, flag ∈ flags) →
      allMatched context (storedProvided portal account challenge.id) submission none rest =
        .ok (true, none) := by
    intro rest
    induction rest with
    | nil => exact fun _ => rfl
    | cons flag rest ih =>
        intro hrest
        obtain ⟨hflag, hrest⟩ := List.forall_mem_cons.mp hrest
        exact bind_eq_ok.mpr ⟨true, hcovered flag hflag, ih hrest⟩
  unfold compareSubmission
  rw [if_neg (by simpa using hflags), if_pos hall]
  exact bind_eq_ok.mpr ⟨(true, none), hloop flags fun _ h => h, rfl⟩

/-! ## What an attempt leaves -/

/-- The string of a verdict matches a flag the challenge had. -/
def Judgement.Matched (judgement : Judgement) : Prop :=
  judgement.flags.any (matchesFlag judgement.context judgement.submission) = true

instance (judgement : Judgement) : Decidable judgement.Matched :=
  inferInstanceAs (Decidable (_ = true))

/-- A row of `submissions` is the record of a verdict. -/
def RecordOf (judgement : Judgement) (row : SubmissionRow) : Prop :=
  judgement.submissionId = some row.id ∧ row.provided = some judgement.submission ∧
    row.challengeId = judgement.challengeId

/-- A row of `solves` is the record of a verdict. -/
def SolveOf (judgement : Judgement) (row : SolveRow) : Prop :=
  judgement.submissionId = some row.id ∧ row.challengeId = judgement.challengeId

/-- What an accepted verdict of an attempt rests on. -/
def Earned (portal : Portal crates) (request : AttemptRequest) (judgement : Judgement) : Prop :=
  ∃ opened, openAttempt portal request = .ok opened ∧
    judgement.flags = opened.flags ∧ judgement.submission = opened.submission ∧
    judgement.context = opened.context portal request ∧
    (judgement.outcome.Accepted → judgement.Matched ∨ opened.challenge.logic = "all" ∧
      coveredByStored judgement.context
        (storedProvided portal opened.account opened.challenge.id) opened.flags = true)

/-- The rows an attempt may add, given its verdict. -/
structure Adds (portal after : Portal crates) (judgement : Option Judgement) : Prop where
  submissions : ∀ row ∈ after.submissions, row ∈ portal.submissions ∨
    (row.submissionType = "correct" ∨ row.submissionType = "partial" →
      ∃ j ∈ judgement, RecordOf j row ∧ j.outcome.Accepted)
  solves : ∀ row ∈ after.solves, row ∈ portal.solves ∨
    ∃ j ∈ judgement, SolveOf j row ∧ j.outcome.Accepted

theorem Adds.refl (portal : Portal crates) (judgement : Option Judgement) :
    Adds portal portal judgement :=
  ⟨fun _ => .inl, fun _ => .inl⟩

@[simp] theorem recordSharedFlagEvidence_submissions (portal : Portal crates) (id : ℤ)
    (request : AttemptRequest) (opened : OpenAttempt) (shared : Option SharedFlagEvidence) :
    (recordSharedFlagEvidence portal id request opened shared).submissions =
      portal.submissions := by
  cases shared <;> rfl

@[simp] theorem recordSharedFlagEvidence_solves (portal : Portal crates) (id : ℤ)
    (request : AttemptRequest) (opened : OpenAttempt) (shared : Option SharedFlagEvidence) :
    (recordSharedFlagEvidence portal id request opened shared).solves = portal.solves := by
  cases shared <;> rfl

/-- A row of a type that says nothing about a flag. -/
theorem insertSubmission_adds (portal : Portal crates) (request : AttemptRequest)
    (opened : OpenAttempt) (submissionType : String) (judgement : Option Judgement)
    (htype : submissionType ≠ "correct" ∧ submissionType ≠ "partial") :
    Adds portal (insertSubmission portal request opened submissionType).2 judgement := by
  refine ⟨fun row hrow => ?_, fun _ => .inl⟩
  rcases List.mem_append.mp hrow with hrow | hrow
  · exact .inl hrow
  · rw [List.mem_singleton.mp hrow]
    right
    rintro (h | h)
    · exact absurd h htype.1
    · exact absurd h htype.2

/-- The record of a verdict. -/
theorem recordVerdict_adds (portal : Portal crates) (request : AttemptRequest)
    (opened : OpenAttempt) (comparison : ComparisonResult) {judgement : Judgement}
    (hchallenge : judgement.challengeId = opened.challenge.id)
    (hsubmission : judgement.submission = opened.submission)
    (houtcome : judgement.outcome = comparison.outcome)
    (hid : judgement.submissionId = some (recordVerdict portal request opened comparison).2.1) :
    Adds portal (recordVerdict portal request opened comparison).2.2 (some judgement) := by
  unfold recordVerdict at hid ⊢
  split
  · have := insertSubmission_adds portal request opened "discard" (some judgement)
      ⟨by decide, by decide⟩
    exact ⟨by simpa using this.submissions, by simpa using this.solves⟩
  · rename_i hsolved
    rw [if_neg hsolved] at hid
    have hid : judgement.submissionId = some portal.nextSubmissionId := hid
    refine ⟨fun row hrow => ?_, fun row hrow => ?_⟩
    · have hrow : row ∈ portal.submissions ++
          [⟨portal.nextSubmissionId, opened.challenge.id, some request.userId, opened.teamId,
            some opened.submission, comparison.outcome.submissionType, request.now⟩] := by
        dsimp only at hrow
        split at hrow <;> simpa [insertSolve, insertSubmission] using hrow
      rcases List.mem_append.mp hrow with hrow | hrow
      · exact .inl hrow
      · rw [List.mem_singleton.mp hrow]
        right
        intro htype
        refine ⟨judgement, rfl, ⟨hid, congrArg some hsubmission.symm, hchallenge.symm⟩, ?_⟩
        rw [houtcome]
        exact FlagResult.accepted_of_submissionType htype
    · dsimp only at hrow
      split at hrow
      · rename_i hcorrect
        have hrow : row ∈ portal.solves ++
            [⟨portal.nextSubmissionId, opened.challenge.id, some request.userId,
              opened.teamId⟩] := by
          simpa [insertSolve, insertSubmission] using hrow
        rcases List.mem_append.mp hrow with hrow | hrow
        · exact .inl hrow
        · rw [List.mem_singleton.mp hrow]
          exact .inr ⟨judgement, rfl, ⟨hid, hchallenge.symm⟩, .inl (houtcome.trans hcorrect)⟩
      · exact .inl (by simpa [insertSubmission] using hrow)

/-- **What an attempt leaves**: its verdict rests on a match or on the stored
submissions, and the rows it adds are those of the verdict. -/
theorem attempt_adds {portal after : Portal crates} {request : AttemptRequest}
    {response : AttemptResponse} {judgement : Option Judgement}
    (h : attempt portal request = .ok (response, after, judgement)) :
    Adds portal after judgement ∧ ∀ j ∈ judgement, Earned portal request j := by
  unfold attempt at h
  split at h
  · cases h
    exact ⟨.refl portal none, fun j hj => absurd hj (Option.not_mem_none j)⟩
  · obtain ⟨opened, hopened, h⟩ := bind_eq_ok.mp h
    split at h
    · rename_i recorded _
      cases h
      refine ⟨?_, fun j hj => absurd hj (Option.not_mem_none j)⟩
      cases recorded with
      | true =>
          exact insertSubmission_adds portal request opened "ratelimited" none
            ⟨by decide, by decide⟩
      | false => exact .refl portal none
    · obtain ⟨comparison, hcompare, h⟩ := bind_eq_ok.mp h
      have hearned : ∀ id, Earned portal request ⟨request, opened.submission,
          opened.challenge.id, opened.flags, opened.context portal request, comparison.outcome,
          id⟩ := fun id =>
        ⟨opened, hopened, rfl, rfl, rfl, compareSubmission_accepted hcompare⟩
      dsimp only at h
      split at h
      · cases h
        refine ⟨.refl portal _, ?_⟩
        rintro j ⟨⟩
        exact hearned none
      · cases h
        refine ⟨recordVerdict_adds portal request opened comparison rfl rfl rfl rfl, ?_⟩
        rintro j ⟨⟩
        exact hearned _

/-! ## Soundness -/

/-- What is accepted and what is recorded as accepted or solved matched a flag. -/
structure History.Sound (s : History crates) : Prop where
  judged : ∀ j ∈ s.judged, j.outcome.Accepted → j.Matched
  recorded : ∀ row ∈ s.portal.submissions,
    row.submissionType = "correct" ∨ row.submissionType = "partial" →
      ∃ j ∈ s.judged, RecordOf j row ∧ j.Matched
  solved : ∀ row ∈ s.portal.solves, ∃ j ∈ s.judged, SolveOf j row ∧ j.Matched

/-- An attempt on an `all` challenge with a string that matches no flag, while
the stored partial submissions match every flag without it. -/
def completeWithout (portal : Portal crates) (request : AttemptRequest) : Bool :=
  match openAttempt portal request with
  | .ok opened =>
    let context := opened.context portal request
    opened.challenge.logic = "all" &&
      coveredByStored context (storedProvided portal opened.account opened.challenge.id)
        opened.flags &&
      ! opened.flags.any (matchesFlag context opened.submission)
  | .error _ => false

/-- Every attempt of a history finds a flag for the new submission to match, or
a string that matches one. -/
def Supported (s : History crates) : Label → Prop
  | .attempt request => completeWithout s.portal request = false
  | _ => True

instance (s : History crates) (label : Label) : Decidable (Supported s label) :=
  match label with
  | .attempt _ => inferInstanceAs (Decidable (_ = false))
  | .createFlag .. | .updateFlag .. | .deleteFlag .. | .updateChallenge .. | .launch ..
  | .changeTeam .. | .configure .. => inferInstanceAs (Decidable True)

/-- An accepted submission matches a flag where the step is supported. -/
theorem Earned.matched {s : History crates} {request : AttemptRequest} {judgement : Judgement}
    (h : Earned s.portal request judgement) (hs : Supported s (.attempt request))
    (haccepted : judgement.outcome.Accepted) : judgement.Matched := by
  obtain ⟨opened, hopened, hflags, hsubmission, hcontext, hrests⟩ := h
  rcases hrests haccepted with hmatched | ⟨hall, hcovered⟩
  · exact hmatched
  · have hs : completeWithout s.portal request = false := hs
    rw [completeWithout, hopened] at hs
    rw [hcontext] at hcovered
    simp only [hall, hcovered, decide_true, Bool.and_self, Bool.true_and,
      Bool.not_eq_false'] at hs
    rw [Judgement.Matched, hflags, hsubmission, hcontext]
    exact hs

/-- Administrators, launches and moves between teams touch neither submissions
nor solves. -/
theorem Label.change_frame {label : Label} {portal after : Portal crates}
    (h : label.change portal = .ok after) :
    after.submissions = portal.submissions ∧ after.solves = portal.solves := by
  cases label with
  | attempt request =>
      cases h
      exact ⟨rfl, rfl⟩
  | createFlag challengeId flagType content data active =>
      obtain ⟨exposure, _, h⟩ := bind_eq_ok.mp h
      obtain ⟨_, _, h⟩ := bind_eq_ok.mp h
      obtain ⟨flag, _, h⟩ := bind_eq_ok.mp h
      obtain ⟨_, _, h⟩ := bind_eq_ok.mp h
      cases h
      exact ⟨rfl, rfl⟩
  | updateFlag flagId patch active =>
      obtain ⟨current, _, h⟩ := bind_eq_ok.mp h
      obtain ⟨exposure, _, h⟩ := bind_eq_ok.mp h
      obtain ⟨flag, _, h⟩ := bind_eq_ok.mp h
      dsimp only at h
      split at h
      · obtain ⟨_, _, h⟩ := bind_eq_ok.mp h
        obtain ⟨_, _, h⟩ := bind_eq_ok.mp h
        cases h
        exact ⟨rfl, rfl⟩
      · obtain ⟨_, _, h⟩ := bind_eq_ok.mp h
        cases h
        exact ⟨rfl, rfl⟩
  | deleteFlag flagId active =>
      obtain ⟨current, _, h⟩ := bind_eq_ok.mp h
      obtain ⟨_, _, h⟩ := bind_eq_ok.mp h
      obtain ⟨_, _, h⟩ := bind_eq_ok.mp h
      obtain ⟨_, _, h⟩ := bind_eq_ok.mp h
      cases h
      exact ⟨rfl, rfl⟩
  | updateChallenge challengeId patch =>
      obtain ⟨current, _, h⟩ := bind_eq_ok.mp h
      obtain ⟨_, _, h⟩ := bind_eq_ok.mp h
      obtain ⟨_, _, h⟩ := bind_eq_ok.mp h
      obtain ⟨_, _, h⟩ := bind_eq_ok.mp h
      obtain ⟨_, _, h⟩ := bind_eq_ok.mp h
      cases h
      exact ⟨rfl, rfl⟩
  | launch challengeId userId draws =>
      rw [Label.change] at h
      cases hrows : materializeForLaunch crates portal.flags portal.userChallengeFlags challengeId
          userId portal.secretKey draws with
      | error error =>
          rw [hrows] at h
          cases h
      | ok rows =>
          rw [hrows] at h
          cases h
          exact ⟨rfl, rfl⟩
  | changeTeam userId teamId =>
      cases h
      exact ⟨rfl, rfl⟩
  | configure settings =>
      cases h
      exact ⟨rfl, rfl⟩

/-- An attempt whose verdict is earned keeps the history sound. -/
theorem History.Sound.attempted {s : History crates} (hs : s.Sound) {after : Portal crates}
    {judgement : Option Judgement} (hadds : Adds s.portal after judgement)
    (hmatched : ∀ j ∈ judgement, j.outcome.Accepted → j.Matched) :
    History.Sound ⟨after, s.judged ++ judgement.toList⟩ := by
  have hold : ∀ j ∈ s.judged, j ∈ s.judged ++ judgement.toList :=
    fun j hj => List.mem_append_left _ hj
  have hnew : ∀ j ∈ judgement, j ∈ s.judged ++ judgement.toList :=
    fun j hj => List.mem_append_right _ (Option.mem_toList.mpr hj)
  refine ⟨fun j hj => ?_, fun row hrow htype => ?_, fun row hrow => ?_⟩
  · rcases List.mem_append.mp hj with hj | hj
    · exact hs.judged j hj
    · exact hmatched j (Option.mem_toList.mp hj)
  · rcases hadds.submissions row hrow with hrow | hrow
    · obtain ⟨j, hj, hrecord, hm⟩ := hs.recorded row hrow htype
      exact ⟨j, hold j hj, hrecord, hm⟩
    · obtain ⟨j, hj, hrecord, haccepted⟩ := hrow htype
      exact ⟨j, hnew j hj, hrecord, hmatched j hj haccepted⟩
  · rcases hadds.solves row hrow with hrow | hrow
    · obtain ⟨j, hj, hsolve, hm⟩ := hs.solved row hrow
      exact ⟨j, hold j hj, hsolve, hm⟩
    · obtain ⟨j, hj, hsolve, haccepted⟩ := hrow
      exact ⟨j, hnew j hj, hsolve, hmatched j hj haccepted⟩

/-- A step that is not an unearned verdict keeps the history sound. -/
theorem step_sound {s s' : History crates} {label : Label} (hs : s.Sound)
    (hguard : Supported s label) (h : step label s = some s') : s'.Sound := by
  cases label with
  | attempt request =>
      rw [step] at h
      split at h
      · rename_i response after judgement hattempt
        cases h
        obtain ⟨hadds, hearned⟩ := attempt_adds hattempt
        exact hs.attempted hadds fun j hj => (hearned j hj).matched hguard
      · cases h
  | createFlag | updateFlag | deleteFlag | updateChallenge | launch | changeTeam | configure =>
      simp only [step] at h
      split at h
      · rename_i portal hchange
        cases h
        obtain ⟨hsubmissions, hsolves⟩ := Label.change_frame hchange
        exact ⟨hs.judged, by rw [hsubmissions]; exact hs.recorded,
          by rw [hsolves]; exact hs.solved⟩
      · cases h

/-- **A history without unearned verdicts is sound**: whatever its attempts have
accepted, recorded as correct or partial, or entered as a solve matched a flag
the challenge had at that moment. -/
theorem history_sound {s : History crates} (h : Reach step Supported Initial s) : s.Sound := by
  refine h.invariant (fun s hs => ?_) fun s label s' hs hguard hstep =>
    step_sound hs hguard hstep
  obtain ⟨hsubmissions, hsolves, hjudged⟩ := hs
  refine ⟨?_, ?_, ?_⟩
  · rw [hjudged]
    exact fun j hj => absurd hj List.not_mem_nil
  · rw [hsubmissions]
    exact fun row hrow => absurd hrow List.not_mem_nil
  · rw [hsolves]
    exact fun row hrow => absurd hrow List.not_mem_nil

/-! ## A challenge with two flags -/

/-- A challenge with the flags `A` and `B`, both of which are required. -/
def twoFlags : History plainCrates where
  portal :=
    { challenges := [⟨1, some "standard", "visible", "all", none, "public", none⟩]
      flags := [(1, "A"), (2, "B")].filterMap fun (id, content) =>
        (saveFlag plainCrates id 1 1 "static" content .null "public").toOption
      userChallengeFlags := []
      submissions := []
      solves := []
      flagSharingEvents := []
      users := [⟨7, "user", none⟩]
      nextSubmissionId := 1
      nextFlagId := 3
      teamMode := false
      settings := ⟨none, false, 10, "lockout", 300⟩
      secretKey := "key" }
  judged := []

/-- The user submits a string. -/
def submit (submission : String) (now : Time) : Label :=
  .attempt ⟨7, false, false, 1, submission, now⟩

theorem twoFlags_initial : Initial twoFlags := ⟨rfl, rfl, rfl⟩

theorem history_sound_twoFlags :
    ∃ s, runIf step Supported [submit "A" 0, submit "C" 1, submit "B" 2] twoFlags = some s ∧
      s.Sound ∧ s.portal.solves = [⟨3, 1, some 7, none⟩] := by
  have hrun : (runIf step Supported [submit "A" 0, submit "C" 1, submit "B" 2] twoFlags).any
      (fun s => s.portal.solves = [⟨3, 1, some 7, none⟩]) = true := by decide +kernel
  obtain ⟨s, hs, hsolves⟩ := (Option.any_eq_true _ _).mp hrun
  exact ⟨s, hs, history_sound (reach_of_runIf _ (.init twoFlags_initial) hs),
    of_decide_eq_true hsolves⟩

/-- The user has submitted `A` when the flag `B` is deleted: what the user
submits next is judged correct, whatever it is. -/
theorem history_unsound :
    ¬ ∀ (crates : Crates) (s : History crates), Reach step anyStep Initial s → s.Sound := by
  have hrun : (run step [submit "A" 0, .deleteFlag 2 false, submit "C" 1] twoFlags).any
      (fun s => s.judged.any fun j => j.outcome = .correct ∧ ¬ j.Matched) = true := by
    decide +kernel
  obtain ⟨s, hs, hjudged⟩ := (Option.any_eq_true _ _).mp hrun
  obtain ⟨j, hj, hcorrect⟩ := List.any_eq_true.mp hjudged
  obtain ⟨hcorrect, hunmatched⟩ := of_decide_eq_true hcorrect
  intro hsound
  exact hunmatched ((hsound plainCrates s (reach_of_run _ twoFlags_initial hs)).judged j hj
    (.inl hcorrect))

end CtfZone.Submissions
