/-
# Limits under concurrency

Two limits are checked by counting committed rows: the attempts of an account on a
challenge, and its incorrect submissions within a minute.  The lock of an attempt is that
of its account and its challenge.  It makes the first count exact; the second one misses
what the account has in flight on other challenges, and takes the date of a row for the
moment its submission was evaluated.

* `Attempt.incorrect` : a submission that is evaluated as incorrect;
* `Tallied` : what the counts rest on;
* `Spaced` : no count misses what has been evaluated within the minute;
* `attempt_limits` : the two limits, and what an attempt beyond them is told.
-/
import CtfZone.SolveUniqueness

namespace CtfZone.Contests

open Journal Runs Tables Submissions

variable {crates : Crates}

/-! ## What is counted -/

/-- A submission that is evaluated as incorrect, in flight or recorded.  The submission of an
account that has solved the challenge is none: it is discarded, whatever the verdict. -/
def Attempt.incorrect : Attempt → Option Admitted
  | .compared a =>
    if a.comparison.outcome.submissionType = "incorrect" then some a.toAdmitted else none
  | .checked a solved =>
    if ! solved && a.comparison.outcome.submissionType = "incorrect" then some a.toAdmitted else none
  | .recorded a => if a.submissionType = "incorrect" then some a.toAdmitted else none
  | .scored a _ => if a.submissionType = "incorrect" then some a.toAdmitted else none
  | .committed a _ _ => if a.submissionType = "incorrect" then some a.toAdmitted else none
  | _ => none

/-- A submission that has passed the limits, and is in flight or recorded as incorrect. -/
def Attempt.evaluated : Attempt → Option Admitted
  | .admitted a => if a.request.isPreview then none else some a
  | .compared a => some a.toAdmitted
  | .checked a _ => some a.toAdmitted
  | .recorded a => some a.toAdmitted
  | .scored a _ => some a.toAdmitted
  | .committed a _ _ => if a.submissionType = "incorrect" then some a.toAdmitted else none
  | _ => none

/-- The row of an incorrect submission that is committed. -/
def Attempt.failedRow : Attempt → Option SubmissionRow
  | .committed a _ _ => if a.submissionType = "incorrect" then some a.row else none
  | _ => none

/-- The settings an attempt has read. -/
def Attempt.settings : Attempt → Option Settings
  | .gated _ settings _ => some settings
  | .opened a => some a.settings
  | _ => none

/-- An attempt that has come to its limits. -/
def Attempt.opening : Attempt → Option Opened
  | .opened a => some a
  | _ => none

/-- The number of incorrect rows that meet a test. -/
def failedRows (submissions : List SubmissionRow) (q : SubmissionRow → Bool) : ℕ :=
  submissions.countP fun row => row.submissionType = "incorrect" && q row

/-- What the counts rest on. -/
structure Tallied (s : Service crates) : Prop where
  settings : ∀ attempt ∈ s.attempts, ∀ settings ∈ attempt.settings,
    settings = s.contest.portal.settings
  challenge : ∀ attempt ∈ s.attempts, ∀ a ∈ attempt.opening,
    s.contest.portal.challenges.find? (·.id = a.request.challengeId) = some a.opened.challenge
  sound : ∀ attempt ∈ s.attempts, ∀ a ∈ attempt.evaluated, a.Sound s.contest.portal.teamMode
  past : ∀ attempt ∈ s.attempts, ∀ a ∈ attempt.evaluated, a.now ≤ s.clock
  rows : ∀ q, failedRows s.contest.portal.submissions q =
    Slots.count Attempt.failedRow q s.attempts

theorem incorrect_evaluated {attempt : Attempt} {a : Admitted} (h : attempt.incorrect = some a) :
    attempt.evaluated = some a := by
  cases attempt with
  | committed e value response => exact h
  | compared | checked | recorded | scored =>
      simp only [Attempt.incorrect] at h
      split at h
      · exact h
      · cases h
  | _ => cases h

theorem failedRow_evaluated {attempt : Attempt} {row : SubmissionRow}
    (h : attempt.failedRow = some row) :
    ∃ e : Entered, attempt.evaluated = some e.toAdmitted ∧ row = e.row := by
  cases attempt with
  | committed e value response =>
      simp only [Attempt.failedRow] at h
      split at h
      · rename_i hincorrect
        cases h
        exact ⟨e, if_pos hincorrect, rfl⟩
      · cases h
  | _ => cases h

/-! ## Statements -/

/-- What has been evaluated after a statement was so before, or has just passed the limits. -/
theorem Advances.evaluated {s : Service crates} {i : ℕ} {a a' : Attempt} {contest : Contest crates}
    (h : Advances s i a contest a') {b : Admitted} (hb : a'.evaluated = some b) :
    a.evaluated = some b ∨ ∃ o : Opened, a = .opened o ∧
      b = ⟨o, s.clock, s.contest.running s.clock⟩ ∧ contest = s.contest ∧
      o.request.isPreview = false ∧
      limitReached { s.contest.portal with settings := o.settings }
        { o.request with now := s.clock } o.opened = none := by
  cases h with
  | @admits o passes =>
      simp only [Attempt.evaluated] at hb
      split at hb
      · cases hb
      · rename_i hshown
        rw [Bool.not_eq_true] at hshown
        cases hb
        exact .inr ⟨o, rfl, rfl, rfl, hshown, passes hshown⟩
  | @compares a comparison shown verdict =>
      left
      cases hb
      exact if_neg (by rw [shown]; decide)
  | @commits a value =>
      left
      simp only [Attempt.evaluated] at hb
      split at hb
      · exact hb
      · cases hb
  | checks | records | scores => exact .inl hb
  | _ => cases hb

/-- What a statement does to the rows that are counted. -/
theorem Advances.failedRow {s : Service crates} {i : ℕ} {a a' : Attempt} {contest : Contest crates}
    (h : Advances s i a contest a') : a.failedRow = none ∧ ∀ q,
      failedRows contest.portal.submissions q = failedRows s.contest.portal.submissions q +
        if a'.failedRow.any q then 1 else 0 := by
  have hsame (q : SubmissionRow → Bool) : failedRows s.contest.portal.submissions q =
      failedRows s.contest.portal.submissions q +
        if (none : Option SubmissionRow).any q then 1 else 0 := rfl
  cases h with
  | rejects running other =>
      refine ⟨?_, hsame⟩
      cases a with
      | committed => cases running
      | _ => rfl
  | ratelimits limit refers =>
      refine ⟨rfl, fun q => ?_⟩
      show (_ ++ [_]).countP _ = _
      rw [List.countP_append]
      rfl
  | @commits a value =>
      refine ⟨rfl, fun q => ?_⟩
      rw [commit_submissions]
      show (_ ++ [_]).countP _ = _
      rw [List.countP_append, List.countP_singleton]
      show _ + (if (decide (a.submissionType = "incorrect") && q a.row) = true then 1 else 0) =
        _ + if (if a.submissionType = "incorrect" then some a.row else none).any q then 1 else 0
      by_cases hincorrect : a.submissionType = "incorrect"
      · rw [if_pos hincorrect, decide_eq_true hincorrect, Bool.true_and]
        rfl
      · rw [if_neg hincorrect, decide_eq_false hincorrect, Bool.false_and]
        rfl
  | _ => exact ⟨rfl, hsame⟩

/-- What an attempt has read after a statement. -/
theorem Advances.reads {s : Service crates} {i : ℕ} {a a' : Attempt} {contest : Contest crates}
    (h : Advances s i a contest a') :
    (∀ settings ∈ a'.settings, settings ∈ a.settings) ∧
    ∀ o ∈ a'.opening, s.contest.portal.challenges.find? (·.id = o.request.challengeId) =
      some o.opened.challenge := by
  cases h with
  | opens after before alone team free reads =>
      refine ⟨fun _ h => h, fun o ho => ?_⟩
      cases ho
      obtain ⟨-, -, -, hfound, -, -⟩ := openAttempt_eq reads
      exact hfound
  | _ => exact ⟨fun _ h => absurd h (Option.not_mem_none _),
      fun _ h => absurd h (Option.not_mem_none _)⟩

/-- A statement keeps what the counts rest on. -/
theorem Tallied.advance {s : Service crates} {i : ℕ} {a a' : Attempt} {contest : Contest crates}
    (hl : Locked s) (hs : Tallied s) (ha : s.attempts[i]? = some a)
    (h : Advances s i a contest a') :
    Tallied { s with contest, attempts := s.attempts.set i a' } := by
  obtain ⟨-, -, -, -, hchallenges, hsettings, hmode, -⟩ := h.frame
  obtain ⟨hnone, hrows⟩ := h.failedRow
  obtain ⟨hread, hopening⟩ := h.reads
  have hmem : a ∈ s.attempts := List.mem_of_getElem? ha
  refine ⟨fun attempt hattempt settings hset => ?_, fun attempt hattempt o ho => ?_,
    fun attempt hattempt b hb => ?_, fun attempt hattempt b hb => ?_, fun q => ?_⟩
  · show settings = contest.portal.settings
    rw [hsettings]
    rcases List.mem_or_eq_of_mem_set hattempt with hold | rfl
    · exact hs.settings attempt hold settings hset
    · exact hs.settings a hmem settings (hread settings hset)
  · show contest.portal.challenges.find? _ = _
    rw [hchallenges]
    rcases List.mem_or_eq_of_mem_set hattempt with hold | rfl
    · exact hs.challenge attempt hold o ho
    · exact hopening o ho
  · show b.Sound contest.portal.teamMode
    rw [hmode]
    rcases List.mem_or_eq_of_mem_set hattempt with hold | rfl
    · exact hs.sound attempt hold b hb
    · rcases h.evaluated hb with hold | ⟨o, rfl, rfl, -, -, -⟩
      · exact hs.sound a hmem b hold
      · exact hl.sound _ hmem o rfl
  · rcases List.mem_or_eq_of_mem_set hattempt with hold | rfl
    · exact hs.past attempt hold b hb
    · rcases h.evaluated hb with hold | ⟨o, rfl, rfl, -, -, -⟩
      · exact hs.past a hmem b hold
      · exact le_refl _
  · show failedRows contest.portal.submissions q =
      Slots.count Attempt.failedRow q (s.attempts.set i a')
    have hset := Slots.count_set (f := Attempt.failedRow) (q := q) ha a'
    rw [hnone] at hset
    rw [hrows q, hs.rows q]
    exact hset.symm

/-! ## Runs of attempts -/

/-- A request that leaves submissions, challenges and settings alone: members join and move,
and accounts are made, hidden and banned. -/
def Operation.aside : Operation → Bool
  | .addMember .. | .joinTeam .. | .createTeam .. | .updateTeam .. | .updateUser ..
  | .createUser .. => true
  | _ => false

/-- Nothing but attempts happens, and what leaves the limits alone. -/
def ServiceLabel.attempts : ServiceLabel → Bool
  | .tick _ | .submit _ | .attempt .. => true
  | .operate op => op.aside
  | .edit .. | .commitEdit _ => false

/-- Runs of attempts. -/
def AttemptsOnly (_ : Service crates) (label : ServiceLabel) : Prop := label.attempts = true

instance (s : Service crates) (label : ServiceLabel) : Decidable (AttemptsOnly s label) :=
  inferInstanceAs (Decidable (_ = true))

theorem Operation.aside_same {contest after : Contest crates} {op : Operation}
    (haside : op.aside = true) (h : op.change contest = .ok after) :
    after.portal.submissions = contest.portal.submissions ∧
    after.portal.challenges = contest.portal.challenges ∧
    after.portal.settings = contest.portal.settings ∧
    after.portal.teamMode = contest.portal.teamMode := by
  cases op with
  | addMember | joinTeam | createTeam | updateTeam | createUser =>
      obtain ⟨⟨⟩, -, h⟩ := bind_eq_ok.mp h
      obtain ⟨⟨⟩, -, h⟩ := bind_eq_ok.mp h
      cases h
      exact ⟨rfl, rfl, rfl, rfl⟩
  | updateUser =>
      obtain ⟨⟨⟩, -, h⟩ := bind_eq_ok.mp h
      obtain ⟨⟨⟩, -, h⟩ := bind_eq_ok.mp h
      obtain ⟨previous, -, h⟩ := bind_eq_ok.mp h
      obtain ⟨⟨⟩, -, h⟩ := bind_eq_ok.mp h
      obtain ⟨⟨⟩, -, h⟩ := bind_eq_ok.mp h
      obtain ⟨⟨⟩, -, h⟩ := bind_eq_ok.mp h
      cases h
      exact ⟨rfl, rfl, rfl, rfl⟩
  | _ => cases haside

/-- What an attempt shows when it has passed the gates. -/
theorem gate_shows (s : Service crates) (request : AttemptRequest) :
    (s.gate request).evaluated = none ∧ (s.gate request).failedRow = none ∧
      (s.gate request).opening = none ∧
      ∀ settings ∈ (s.gate request).settings, settings = s.contest.portal.settings := by
  have hnothing (settings : Settings) (h : settings ∈ (none : Option Settings)) :
      settings = s.contest.portal.settings := absurd h (Option.not_mem_none _)
  unfold Service.gate
  split
  · exact ⟨rfl, rfl, rfl, hnothing⟩
  · exact ⟨rfl, rfl, rfl, hnothing⟩
  · split
    · exact ⟨rfl, rfl, rfl, hnothing⟩
    · refine ⟨rfl, rfl, rfl, fun settings h => ?_⟩
      cases h
      rfl

/-- What happens in a run of attempts: a statement of one of them, or nothing that counts. -/
theorem attempts_cases {s s' : Service crates} {label : ServiceLabel}
    (hattempts : label.attempts = true) (h : serviceStep label s = some s') :
    (∃ i p a contest a', label = .attempt i p ∧ s.attempts[i]? = some a ∧
      s.progress i p a = some (contest, a') ∧
      s' = { s with contest, attempts := s.attempts.set i a' }) ∨
    s.clock ≤ s'.clock ∧ s'.contest.portal.submissions = s.contest.portal.submissions ∧
      s'.contest.portal.challenges = s.contest.portal.challenges ∧
      s'.contest.portal.settings = s.contest.portal.settings ∧
      s'.contest.portal.teamMode = s.contest.portal.teamMode ∧
      (s'.attempts = s.attempts ∨ ∃ request, s'.attempts = s.attempts ++ [s.gate request]) := by
  cases label with
  | tick elapsed =>
      cases h
      exact .inr ⟨Int.le_add_of_nonneg_right (Int.natCast_nonneg elapsed), rfl, rfl, rfl, rfl, .inl rfl⟩
  | submit request =>
      cases h
      exact .inr ⟨le_refl _, rfl, rfl, rfl, rfl, .inr ⟨request, rfl⟩⟩
  | attempt i p =>
      obtain ⟨a, ha, h⟩ := Option.bind_eq_some_iff.mp h
      obtain ⟨⟨contest, a'⟩, hprogress, h⟩ := Option.bind_eq_some_iff.mp h
      cases h
      exact .inl ⟨i, p, a, contest, a', rfl, ha, hprogress, rfl⟩
  | operate op =>
      obtain ⟨contest, rfl, rfl | ⟨-, hchange⟩, -⟩ := operate_cases h
      · exact .inr ⟨le_refl _, rfl, rfl, rfl, rfl, .inl rfl⟩
      · obtain ⟨hsubmissions, hchallenges, hsettings, hmode⟩ := op.aside_same hattempts hchange
        exact .inr ⟨le_refl _, hsubmissions, hchallenges, hsettings, hmode, .inl rfl⟩
  | edit | commitEdit => cases hattempts

/-- What one of the attempts shows was shown before. -/
theorem shown_before {α : Type} {f : Attempt → Option α} {s : Service crates}
    {attempts : List Attempt} (hattempts : attempts = s.attempts ∨
      ∃ request, attempts = s.attempts ++ [s.gate request])
    (hgate : ∀ request, f (s.gate request) = none) {attempt : Attempt} (h : attempt ∈ attempts)
    {x : α} (hx : f attempt = some x) : attempt ∈ s.attempts := by
  rcases hattempts with rfl | ⟨request, rfl⟩
  · exact h
  · rcases List.mem_append.mp h with hold | hnew
    · exact hold
    · rw [List.mem_singleton.mp hnew, hgate] at hx
      cases hx

theorem count_before {α : Type} {f : Attempt → Option α} {q : α → Bool} {s : Service crates}
    {attempts : List Attempt} (hattempts : attempts = s.attempts ∨
      ∃ request, attempts = s.attempts ++ [s.gate request])
    (hgate : ∀ request, f (s.gate request) = none) :
    Slots.count f q attempts = Slots.count f q s.attempts := by
  rcases hattempts with rfl | ⟨request, rfl⟩
  · rfl
  · exact Slots.count_append (hgate request)

theorem serviceStep_tallied {s s' : Service crates} {label : ServiceLabel} (hl : Locked s)
    (hs : Tallied s) (hattempts : label.attempts = true) (h : serviceStep label s = some s') :
    Tallied s' := by
  rcases attempts_cases hattempts h with ⟨i, p, a, contest, a', -, ha, hprogress, rfl⟩ |
    ⟨hclock, hsubmissions, hchallenges, hsettings, hmode, hbefore⟩
  · exact hs.advance hl ha (progress_advances hprogress)
  · refine ⟨fun attempt hattempt settings hset => ?_, fun attempt hattempt o ho => ?_,
      fun attempt hattempt b hb => ?_, fun attempt hattempt b hb => ?_, fun q => ?_⟩
    · rw [hsettings]
      rcases hbefore with hsame | ⟨request, hnew⟩
      · exact hs.settings attempt (hsame ▸ hattempt) settings hset
      · rw [hnew] at hattempt
        rcases List.mem_append.mp hattempt with hold | hnew
        · exact hs.settings attempt hold settings hset
        · rw [List.mem_singleton.mp hnew] at hset
          exact (gate_shows s request).2.2.2 settings hset
    · rw [hchallenges]
      exact hs.challenge attempt
        (shown_before hbefore (fun request => (gate_shows s request).2.2.1) hattempt ho) o ho
    · rw [hmode]
      exact hs.sound attempt
        (shown_before hbefore (fun request => (gate_shows s request).1) hattempt hb) b hb
    · exact le_trans (hs.past attempt
        (shown_before hbefore (fun request => (gate_shows s request).1) hattempt hb) b hb) hclock
    · rw [hsubmissions, hs.rows q]
      exact (count_before hbefore fun request => (gate_shows s request).2.1).symm

theorem NewService.tallied {s : Service crates} (h : NewService s) : Tallied s := by
  obtain ⟨⟨hattempts, -⟩, hsubmissions, -⟩ := h
  have hnone (attempt : Attempt) (h : attempt ∈ s.attempts) : False := by
    rw [hattempts] at h
    exact List.not_mem_nil h
  refine ⟨fun attempt h => (hnone attempt h).elim, fun attempt h => (hnone attempt h).elim,
    fun attempt h => (hnone attempt h).elim, fun attempt h => (hnone attempt h).elim, fun q => ?_⟩
  rw [hattempts, hsubmissions]
  rfl

theorem tallied_reach {s : Service crates} (hr : Reach serviceStep AttemptsOnly NewService s) :
    Tallied s := by
  have hlocked (t : Service crates) (ht : Reach serviceStep AttemptsOnly NewService t) :
      Locked t := locked_reach (fun _ h => h.1) ht
  exact hr.invariant_with hlocked (fun t ht => ht.tallied)
    fun t label t' hl hs hattempts hstep => serviceStep_tallied hl hs hattempts hstep

/-! ## The limits -/

theorem incorrectSubmissions_length (portal : Portal crates) (account : Account)
    (challengeId : Option ℤ) (since : Option Time) :
    (incorrectSubmissions portal account challengeId since).length =
      failedRows portal.submissions fun row => account.owns row.userId row.teamId &&
        challengeId.all (row.challengeId = ·) && since.all (· ≤ row.date) := by
  unfold incorrectSubmissions failedRows
  rw [List.countP_eq_length_filter]
  simp only [Bool.and_assoc]

/-- What an attempt that passes the limits has counted. -/
theorem limitReached_none {portal : Portal crates} {request : AttemptRequest}
    {opened : OpenAttempt} (h : limitReached portal request opened = none) :
    (∀ maxAttempts, opened.challenge.maxAttempts = some maxAttempts → 0 < maxAttempts →
      portal.settings.maxBehavior ≠ "timeout" →
      (failedRows portal.submissions fun row => opened.account.owns row.userId row.teamId &&
        decide (row.challengeId = opened.challenge.id) : ℤ) < maxAttempts) ∧
    (failedRows portal.submissions fun row => opened.account.owns row.userId row.teamId &&
      decide (request.now - seconds 60 ≤ row.date) : ℤ) < portal.settings.incorrectLimit := by
  unfold limitReached at h
  dsimp only at h
  rw [incorrectSubmissions_length, incorrectSubmissions_length] at h
  generalize hsince : (if portal.settings.maxBehavior = "timeout" then
    some (request.now - seconds portal.settings.maxTimeout) else none) = since at h
  split at h
  · split at h <;> cases h
  · rename_i hattempts
    split at h
    · cases h
    · rename_i hrecent
      refine ⟨fun maxAttempts hmax hpos hlockout => ?_, ?_⟩
      · rw [if_neg hlockout] at hsince
        subst hsince
        rw [hmax, Bool.and_eq_true, decide_eq_true_eq, decide_eq_true_eq, not_and] at hattempts
        simpa using lt_of_not_ge (hattempts hpos)
      · simpa using hrecent

/-- The account of a row. -/
theorem owns_iff {a b : Opened} {teamMode : Bool} (ha : a.Sound teamMode) (hb : b.Sound teamMode) :
    a.opened.account.owns (some b.request.userId) b.opened.teamId = true ↔
      b.opened.account = a.opened.account := by
  have hteams : a.opened.teamId.isSome = b.opened.teamId.isSome := ha.team.trans hb.team.symm
  rw [ha.account, hb.account]
  cases hteam : a.opened.teamId with
  | none =>
      cases hteam' : b.opened.teamId with
      | none => simp [Account.owns]
      | some teamId' => simp [hteam, hteam'] at hteams
  | some teamId =>
      cases hteam' : b.opened.teamId with
      | none => simp [hteam, hteam'] at hteams
      | some teamId' => simp [Account.owns]

/-- An attempt of an account on a challenge. -/
def ofChallenge (account : Account) (challengeId : ℤ) (a : Admitted) : Bool :=
  a.opened.account = account && a.opened.challenge.id = challengeId

/-- An attempt of an account that was evaluated in the minute up to an instant. -/
def withinMinute (account : Account) (t : Time) (a : Admitted) : Bool :=
  a.opened.account = account && (t - seconds 60 ≤ a.now && a.now ≤ t)

/-- The count of the attempts of an account on a challenge is exact. -/
def Lockout (s : Service crates) : Prop :=
  ∀ account challengeId challenge maxAttempts,
    s.contest.portal.challenges.find? (·.id = challengeId) = some challenge →
    challenge.maxAttempts = some maxAttempts → 0 < maxAttempts →
    s.contest.portal.settings.maxBehavior ≠ "timeout" →
    (Slots.count Attempt.evaluated (ofChallenge account challengeId) s.attempts : ℤ) ≤ maxAttempts

/-- No count misses what has been evaluated within the minute: every other attempt of the
account is committed by then, and with a date within the minute. -/
def Service.spaced (s : Service crates) : ServiceLabel → Bool
  | .attempt i .limit => (s.attempts[i]?.bind Attempt.opening).all fun a =>
    a.request.isPreview || s.attempts.all fun other => other.evaluated.all fun b =>
      b.opened.account ≠ a.opened.account || b.now < s.clock - seconds 60 ||
        other.failedRow.any (s.clock - seconds 60 ≤ ·.date)
  | _ => true

/-- Runs of attempts whose counts miss nothing. -/
def Spaced (s : Service crates) (label : ServiceLabel) : Prop :=
  label.attempts = true ∧ s.spaced label = true

instance (s : Service crates) (label : ServiceLabel) : Decidable (Spaced s label) :=
  inferInstanceAs (Decidable (_ = true ∧ _ = true))

/-- The minutes of an account keep to the limit. -/
def Minutes (s : Service crates) : Prop :=
  ∀ account t, (Slots.count Attempt.evaluated (withinMinute account t) s.attempts : ℤ) ≤
    max 0 s.contest.portal.settings.incorrectLimit

/-- What is evaluated holds its lock, or has left a row. -/
theorem evaluated_cases {attempt : Attempt} {a : Admitted} (h : attempt.evaluated = some a) :
    attempt.locks = some a.toOpened ∨
      ∃ e : Entered, attempt.failedRow = some e.row ∧ e.toAdmitted = a := by
  cases attempt with
  | admitted b =>
      simp only [Attempt.evaluated] at h
      split at h
      · cases h
      · cases h
        exact .inl rfl
  | committed e value response =>
      simp only [Attempt.evaluated] at h
      split at h
      · rename_i hincorrect
        cases h
        exact .inr ⟨e, if_pos hincorrect, rfl⟩
      · cases h
  | compared | checked | recorded | scored =>
      cases h
      exact .inl rfl
  | _ => cases h

section Limit

variable {s : Service crates} {i : ℕ} {o : Opened}

/-- The rows of the account on the challenge are all there is of it. -/
theorem challenge_count_le (hl : Locked s) (hs : Tallied s)
    (hopen : s.attempts[i]? = some (.opened o)) :
    Slots.count Attempt.evaluated (ofChallenge o.opened.account o.opened.challenge.id) s.attempts ≤
      failedRows s.contest.portal.submissions fun row => o.opened.account.owns row.userId row.teamId &&
        decide (row.challengeId = o.opened.challenge.id) := by
  have hsound := hl.sound _ (List.mem_of_getElem? hopen) o rfl
  rw [hs.rows]
  refine Slots.count_le fun attempt hattempt hcounted => ?_
  obtain ⟨b, hb, hof⟩ := (Option.any_eq_true _ _).mp hcounted
  unfold ofChallenge at hof
  rw [Bool.and_eq_true, decide_eq_true_eq, decide_eq_true_eq] at hof
  have hsound' := hs.sound attempt hattempt b hb
  obtain ⟨j, hj⟩ := List.mem_iff_getElem?.mp hattempt
  have hij : i ≠ j := by
    rintro rfl
    cases hopen.symm.trans hj
    cases hb
  rcases evaluated_cases hb with hlocks | ⟨e, hrow, rfl⟩
  · refine absurd ⟨hof.1.symm, ?_⟩ (hl.apart i j o b.toOpened hij (Slots.at'_eq hopen)
      ((Slots.at'_eq hj).trans hlocks))
    exact hsound.challenge.symm.trans (hof.2.symm.trans hsound'.challenge)
  · rw [hrow, Option.any_some, Bool.and_eq_true, decide_eq_true_eq]
    exact ⟨(owns_iff hsound hsound').mpr hof.1, hof.2⟩

/-- The rows of the account within the minute are all there is of it, where none is missed. -/
theorem minute_count_le (hl : Locked s) (hs : Tallied s)
    (hopen : s.attempts[i]? = some (.opened o)) (hshown : o.request.isPreview = false)
    (hspaced : s.spaced (.attempt i .limit) = true) {t : Time} (hend : s.clock ≤ t) :
    Slots.count Attempt.evaluated (withinMinute o.opened.account t) s.attempts ≤
      failedRows s.contest.portal.submissions fun row => o.opened.account.owns row.userId row.teamId &&
        decide (s.clock - seconds 60 ≤ row.date) := by
  have hsound := hl.sound _ (List.mem_of_getElem? hopen) o rfl
  have hall : (s.attempts.all fun other => other.evaluated.all fun b =>
      b.opened.account ≠ o.opened.account || b.now < s.clock - seconds 60 ||
        other.failedRow.any (s.clock - seconds 60 ≤ ·.date)) = true := by
    simp only [Service.spaced, hopen] at hspaced
    simpa [Attempt.opening, hshown] using hspaced
  rw [List.all_eq_true] at hall
  rw [hs.rows]
  refine Slots.count_le fun attempt hattempt hcounted => ?_
  obtain ⟨b, hb, hof⟩ := (Option.any_eq_true _ _).mp hcounted
  unfold withinMinute at hof
  rw [Bool.and_eq_true, Bool.and_eq_true, decide_eq_true_eq, decide_eq_true_eq,
    decide_eq_true_eq] at hof
  obtain ⟨haccount, hafter, -⟩ := hof
  have hrecent : s.clock - seconds 60 ≤ b.now := le_trans (Int.sub_le_sub_right hend _) hafter
  have hrow := hall attempt hattempt
  rw [hb, Option.all_some, Bool.or_eq_true, Bool.or_eq_true, decide_eq_true_eq,
    decide_eq_true_eq] at hrow
  rcases hrow with (hother | hpast) | hrow
  · exact absurd haccount hother
  · exact absurd hrecent (not_le.mpr hpast)
  · obtain ⟨row, hfailed, hdate⟩ := (Option.any_eq_true _ _).mp hrow
    obtain ⟨e, he, rfl⟩ := failedRow_evaluated hfailed
    cases hb.symm.trans he
    rw [hfailed, Option.any_some, Bool.and_eq_true]
    exact ⟨(owns_iff hsound (hs.sound attempt hattempt e.toAdmitted he)).mpr haccount, hdate⟩

end Limit

theorem progress_opened {s : Service crates} {i : ℕ} {p : Progress} {o : Opened} {a' : Attempt}
    {contest : Contest crates} (h : s.progress i p (.opened o) = some (contest, a'))
    {b : Admitted} (hb : a'.evaluated = some b) : p = .limit := by
  cases p with
  | limit => rfl
  | abort =>
      cases h
      cases hb
  | _ => cases h

theorem serviceStep_lockout {s s' : Service crates} {label : ServiceLabel}
    (haux : Locked s ∧ Tallied s) (hs : Lockout s) (hattempts : label.attempts = true)
    (h : serviceStep label s = some s') : Lockout s' := by
  obtain ⟨hl, ht⟩ := haux
  intro account challengeId challenge maxAttempts hfound hmax hpos hlockout
  rcases attempts_cases hattempts h with ⟨i, p, a, contest, a', -, ha, hprogress, rfl⟩ |
    ⟨-, -, hchallenges, hsettings, -, hbefore⟩
  · have hadvances := progress_advances hprogress
    obtain ⟨-, -, -, -, hchallenges, hsettings, -, -⟩ := hadvances.frame
    have hfound : contest.portal.challenges.find? (·.id = challengeId) = some challenge := hfound
    have hlockout : contest.portal.settings.maxBehavior ≠ "timeout" := hlockout
    rw [hchallenges] at hfound
    rw [hsettings] at hlockout
    have hold := hs account challengeId challenge maxAttempts hfound hmax hpos hlockout
    show (Slots.count Attempt.evaluated (ofChallenge account challengeId) (s.attempts.set i a') : ℤ) ≤ _
    by_cases hkeep : ∀ b, a'.evaluated = some b → a.evaluated = some b
    · exact le_trans (Int.ofNat_le.mpr (Slots.count_keep ha hkeep)) hold
    · push Not at hkeep
      obtain ⟨b, hb, hnew⟩ := hkeep
      rcases hadvances.evaluated hb with hsame | ⟨o, rfl, rfl, rfl, -, hpasses⟩
      · exact absurd hsame hnew
      · rw [Slots.count_new ha rfl hb]
        by_cases hof : ofChallenge account challengeId ⟨o, s.clock, s.contest.running s.clock⟩ = true
        · rw [if_pos hof]
          unfold ofChallenge at hof
          rw [Bool.and_eq_true, decide_eq_true_eq, decide_eq_true_eq] at hof
          obtain ⟨rfl, rfl⟩ := hof
          have hmem := List.mem_of_getElem? ha
          have hown := ht.challenge _ hmem o rfl
          rw [← (hl.sound _ hmem o rfl).challenge] at hown
          cases hfound.symm.trans hown
          have hrows := (limitReached_none hpasses).1 maxAttempts hmax hpos
            (by rw [ht.settings _ hmem o.settings rfl]; exact hlockout)
          have hcount := challenge_count_le hl ht ha
          push_cast
          exact Int.add_one_le_iff.mpr (lt_of_le_of_lt (Int.ofNat_le.mpr hcount) hrows)
        · rw [if_neg hof]
          exact hold
  · rw [hchallenges] at hfound
    rw [hsettings] at hlockout
    rw [count_before hbefore fun request => (gate_shows s request).1]
    exact hs account challengeId challenge maxAttempts hfound hmax hpos hlockout

theorem serviceStep_minutes {s s' : Service crates} {label : ServiceLabel}
    (haux : Locked s ∧ Tallied s) (hs : Minutes s) (hspaced : Spaced s label)
    (h : serviceStep label s = some s') : Minutes s' := by
  obtain ⟨hl, ht⟩ := haux
  intro account t
  rcases attempts_cases hspaced.1 h with ⟨i, p, a, contest, a', rfl, ha, hprogress, rfl⟩ |
    ⟨-, -, -, hsettings, -, hbefore⟩
  · have hadvances := progress_advances hprogress
    obtain ⟨-, -, -, -, -, hsettings, -, -⟩ := hadvances.frame
    show (Slots.count Attempt.evaluated (withinMinute account t) (s.attempts.set i a') : ℤ) ≤
      max 0 contest.portal.settings.incorrectLimit
    rw [hsettings]
    by_cases hkeep : ∀ b, a'.evaluated = some b → a.evaluated = some b
    · exact le_trans (Int.ofNat_le.mpr (Slots.count_keep ha hkeep)) (hs account t)
    · push Not at hkeep
      obtain ⟨b, hb, hnew⟩ := hkeep
      rcases hadvances.evaluated hb with hsame | ⟨o, rfl, rfl, rfl, hshown, hpasses⟩
      · exact absurd hsame hnew
      · rw [Slots.count_new ha rfl hb]
        by_cases hof : withinMinute account t ⟨o, s.clock, s.contest.running s.clock⟩ = true
        · rw [if_pos hof]
          unfold withinMinute at hof
          rw [Bool.and_eq_true, Bool.and_eq_true, decide_eq_true_eq, decide_eq_true_eq,
            decide_eq_true_eq] at hof
          obtain ⟨rfl, -, hend⟩ := hof
          have hmem := List.mem_of_getElem? ha
          cases progress_opened hprogress hb
          have hrows := (limitReached_none hpasses).2
          have hcount := minute_count_le hl ht ha hshown hspaced.2 hend
          push_cast
          refine le_trans (Int.add_one_le_iff.mpr ?_) (le_max_right _ _)
          rw [← ht.settings _ hmem o.settings rfl]
          exact lt_of_le_of_lt (Int.ofNat_le.mpr hcount) hrows
        · rw [if_neg hof]
          exact hs account t
  · rw [hsettings, count_before hbefore fun request => (gate_shows s request).1]
    exact hs account t

/-! ## Beyond a limit -/

/-- The same attempt with another string. -/
def Opened.withString (a : Opened) (submission : String) : Opened :=
  { a with
    request := { a.request with submission }
    opened := { a.opened with submission } }

theorem limitReached_status {portal : Portal crates} {request : AttemptRequest}
    {opened : OpenAttempt} {response : AttemptResponse} {recorded : Bool}
    (h : limitReached portal request opened = some (response, recorded)) :
    response.status = "ratelimited" := by
  unfold limitReached at h
  dsimp only at h
  generalize (if portal.settings.maxBehavior = "timeout" then
    some (request.now - seconds portal.settings.maxTimeout) else none) = since at h
  split at h
  · split at h
    · cases h
      rfl
    · cases h
      rfl
  · split at h
    · cases h
      rfl
    · cases h

/-- The response beyond a limit is the same for every string. -/
theorem limit_string {s : Service crates} {a : Opened} {contest : Contest crates}
    {response : AttemptResponse} (h : s.limit a = some (contest, .answered response))
    (attempts : List Attempt) (submission : String) : response.status = "ratelimited" ∧
      ∃ contest', Service.limit { s with attempts } (a.withString submission) =
        some (contest', .answered response) := by
  unfold Service.limit at h ⊢
  dsimp only at h ⊢
  have hsame : limitReached { s.contest.portal with settings := (a.withString submission).settings }
      { (a.withString submission).request with now := s.clock } (a.withString submission).opened =
      limitReached { s.contest.portal with settings := a.settings }
        { a.request with now := s.clock } a.opened := rfl
  rw [hsame]
  split at h
  · cases h
  · rename_i hshown
    have hpreview : (a.withString submission).request.isPreview = a.request.isPreview := rfl
    rw [hpreview, if_neg hshown]
    split at h
    · cases h
    · rename_i limited hlimit
      cases h
      rw [hlimit]
      exact ⟨limitReached_status hlimit, _, rfl⟩
    · rename_i limited hlimit
      split at h
      · cases h
      · rename_i hediting
        split at h
        · rename_i hrefers
          cases h
          rw [hlimit]
          exact ⟨limitReached_status hlimit, _, (if_neg hediting).trans (if_pos hrefers)⟩
        · cases h

/-- **The limits of an attempt.**  However the attempts of an account on any challenges
interleave, and whoever joins or moves meanwhile, no more than `maxAttempts` submissions are
evaluated as incorrect for an account and a challenge in the mode `lockout`.  Where no count
misses what the account has had evaluated within the minute, no more than
`incorrectLimit` of an account are evaluated as incorrect in any minute.  And an attempt
that is stopped by a limit gets the same response for every string. -/
theorem attempt_limits {s : Service crates} :
    (Reach serviceStep AttemptsOnly NewService s →
      ∀ account challengeId challenge maxAttempts,
        s.contest.portal.challenges.find? (·.id = challengeId) = some challenge →
        challenge.maxAttempts = some maxAttempts → 0 < maxAttempts →
        s.contest.portal.settings.maxBehavior ≠ "timeout" →
        (Slots.count Attempt.incorrect (ofChallenge account challengeId) s.attempts : ℤ) ≤
          maxAttempts) ∧
    (Reach serviceStep Spaced NewService s → ∀ account t,
      (Slots.count Attempt.incorrect (withinMinute account t) s.attempts : ℤ) ≤
        max 0 s.contest.portal.settings.incorrectLimit) ∧
    ∀ (i : ℕ) (a : Opened) (s' : Service crates), s.attempts[i]? = some (.opened a) →
      serviceStep (.attempt i .limit) s = some s' →
      (∃ b, s'.attempts[i]? = some (.admitted b)) ∨
        s'.attempts[i]? = some (.failed .missingRow) ∨
        ∃ response, s'.attempts[i]? = some (.answered response) ∧ response.status = "ratelimited" ∧
          ∀ submission, ∃ other, serviceStep (.attempt i .limit)
              { s with attempts := s.attempts.set i (.opened (a.withString submission)) } =
                some other ∧
            other.attempts[i]? = some (.answered response) := by
  have hcount (q : Admitted → Bool) : (Slots.count Attempt.incorrect q s.attempts : ℤ) ≤
      Slots.count Attempt.evaluated q s.attempts := by
    refine Int.ofNat_le.mpr (Slots.count_le fun attempt _ h => ?_)
    obtain ⟨a, ha, hq⟩ := (Option.any_eq_true _ _).mp h
    rw [incorrect_evaluated ha]
    exact hq
  have haux {guard : Service crates → ServiceLabel → Prop}
      (hguard : ∀ t label, guard t label → label.attempts = true) (t : Service crates)
      (ht : Reach serviceStep guard NewService t) : Locked t ∧ Tallied t :=
    ⟨locked_reach (fun _ h => h.1) ht, tallied_reach (ht.weaken hguard)⟩
  refine ⟨fun hr account challengeId challenge maxAttempts hfound hmax hpos hlockout => ?_,
    fun hr account t => ?_, fun i a s' ha hstep => ?_⟩
  · have hreach : Lockout s := by
      refine hr.invariant_with (haux fun _ _ h => h) (fun t ht => ?_)
        fun t label t' haux hs hattempts hstep => serviceStep_lockout haux hs hattempts hstep
      intro account challengeId challenge maxAttempts _ _ hpos _
      rw [ht.1.1]
      exact le_of_lt hpos
    exact le_trans (hcount _) (hreach account challengeId challenge maxAttempts hfound hmax hpos
      hlockout)
  · have hreach : Minutes s := by
      refine hr.invariant_with (haux fun _ _ h => h.1) (fun t ht => ?_)
        fun t label t' haux hs hspaced hstep => serviceStep_minutes haux hs hspaced hstep
      intro account t'
      rw [ht.1.1]
      exact le_max_left _ _
    exact le_trans (hcount _) (hreach account t)
  · have hi : i < s.attempts.length := (List.getElem?_eq_some_iff.mp ha).1
    obtain ⟨x, hx, hstep⟩ := Option.bind_eq_some_iff.mp hstep
    cases ha.symm.trans hx
    obtain ⟨⟨contest, a'⟩, hlimit, hstep⟩ := Option.bind_eq_some_iff.mp hstep
    cases hstep
    have hself : (s.attempts.set i a')[i]? = some a' := List.getElem?_set_self hi
    have hlimit : s.limit a = some (contest, a') := hlimit
    have hshape : (∃ b, a' = .admitted b) ∨ a' = .failed .missingRow ∨
        ∃ response, a' = .answered response := by
      unfold Service.limit at hlimit
      dsimp only at hlimit
      split at hlimit
      · cases hlimit
        exact .inl ⟨_, rfl⟩
      · split at hlimit
        · cases hlimit
          exact .inl ⟨_, rfl⟩
        · cases hlimit
          exact .inr (.inr ⟨_, rfl⟩)
        · split at hlimit
          · cases hlimit
          · split at hlimit
            · cases hlimit
              exact .inr (.inr ⟨_, rfl⟩)
            · cases hlimit
              exact .inr (.inl rfl)
    rcases hshape with ⟨b, rfl⟩ | rfl | ⟨response, rfl⟩
    · exact .inl ⟨b, hself⟩
    · exact .inr (.inl hself)
    · refine .inr (.inr ⟨response, hself, (limit_string hlimit s.attempts "").1,
        fun submission => ?_⟩)
      obtain ⟨-, contest', hother⟩ := limit_string hlimit
        (s.attempts.set i (.opened (a.withString submission))) submission
      let changed : Service crates :=
        { s with attempts := s.attempts.set i (.opened (a.withString submission)) }
      have hopen : changed.attempts[i]? = some (.opened (a.withString submission)) :=
        List.getElem?_set_self hi
      refine ⟨{ changed with
        contest := contest'
        attempts := changed.attempts.set i (.answered response) }, ?_, ?_⟩
      · show changed.advance i .limit = _
        unfold Service.advance
        rw [hopen]
        show ((changed.limit (a.withString submission)).bind _ : Option (Service crates)) = _
        rw [hother]
        rfl
      · exact List.getElem?_set_self (List.getElem?_eq_some_iff.mp hopen).1

/-- The practice with one attempt at the challenge 1. -/
def limitedPractice : Service plainCrates :=
  { practice with contest := { practice.contest with
      portal := { practice.contest.portal with
        challenges := [⟨1, some "standard", "visible", "any", some 1, "public", none⟩,
          ⟨2, some "dynamic", "visible", "any", none, "public", none⟩] } } }

/-- The user 7 fails at a challenge, and is stopped at it and at another one. -/
theorem attempt_limits_practice : ∃ s : Service plainCrates,
    Reach serviceStep Spaced NewService s ∧
    Slots.count Attempt.incorrect (ofChallenge (.user 7) 1) s.attempts = 1 ∧
    (Slots.count Attempt.incorrect (ofChallenge (.user 7) 1) s.attempts : ℤ) ≤ 1 ∧
    (Slots.count Attempt.incorrect (withinMinute (.user 7) 0) s.attempts : ℤ) ≤
      max 0 s.contest.portal.settings.incorrectLimit := by
  have hrun : ((runIf serviceStep Spaced (submits 7 1 "B" :: .attempt 0 (.acquire 0) ::
      .attempt 0 .limit :: (finishes 0 ++ submits 7 1 "B" :: .attempt 1 (.acquire 0) ::
        .attempt 1 .limit :: submits 7 2 "B" :: .attempt 2 (.acquire 0) :: [.attempt 2 .limit]))
      limitedPractice).any fun s =>
      decide (Slots.count Attempt.incorrect (ofChallenge (.user 7) 1) s.attempts = 1) &&
      (s.contest.portal.challenges.find? (·.id = 1)).any (·.maxAttempts = some 1) &&
      decide (s.contest.portal.settings.maxBehavior ≠ "timeout")) = true := by
    decide +kernel
  obtain ⟨s, hs, hfacts⟩ := (Option.any_eq_true _ _).mp hrun
  rw [Bool.and_eq_true, Bool.and_eq_true, decide_eq_true_eq, decide_eq_true_eq] at hfacts
  obtain ⟨⟨hcount, hchallenge⟩, hlockout⟩ := hfacts
  obtain ⟨challenge, hfound, hmax⟩ := (Option.any_eq_true _ _).mp hchallenge
  have hr : Reach serviceStep Spaced NewService s :=
    reach_of_runIf _ (.init ⟨⟨rfl, rfl⟩, rfl, rfl⟩) hs
  refine ⟨s, hr, hcount, ?_, attempt_limits.2.1 hr (.user 7) 0⟩
  exact attempt_limits.1 (hr.weaken fun _ _ h => h.1) (.user 7) 1 challenge 1 hfound
    (of_decide_eq_true hmax) (by decide) hlockout

/-- The user 7 submits to two challenges at once: both attempts count before either is
committed, and both submissions are evaluated where one a minute is allowed. -/
theorem two_challenges_pass_the_limit :
    ¬ ∀ (crates : Crates) (s : Service crates), Reach serviceStep AttemptsOnly NewService s →
      ∀ account t, (Slots.count Attempt.incorrect (withinMinute account t) s.attempts : ℤ) ≤
        max 0 s.contest.portal.settings.incorrectLimit := by
  have hrun : ((runIf serviceStep AttemptsOnly [submits 7 1 "B", submits 7 2 "B",
      .attempt 0 (.acquire 0), .attempt 1 (.acquire 0), .attempt 0 .limit, .attempt 1 .limit,
      .attempt 0 .compare, .attempt 1 .compare] practice).any fun s =>
      decide ((Slots.count Attempt.incorrect (withinMinute (.user 7) 0) s.attempts : ℤ) = 2) &&
      decide (s.contest.portal.settings.incorrectLimit = 1)) = true := by
    decide +kernel
  obtain ⟨s, hs, hfacts⟩ := (Option.any_eq_true _ _).mp hrun
  rw [Bool.and_eq_true, decide_eq_true_eq, decide_eq_true_eq] at hfacts
  intro hall
  have hle := hall plainCrates s (reach_of_runIf _ (.init practice_new) hs) (.user 7) 0
  rw [hfacts.1, hfacts.2] at hle
  exact absurd hle (by decide)

end CtfZone.Contests
