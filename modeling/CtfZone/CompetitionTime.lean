/-
# The time of the competition

The gates of an attempt read the schedule and the pause before its transaction begins, and
they are those of the challenge pages: with `view_after_ctf` they stay open after the end.
What passes them is not looked at again.

* `Attempt.waiting` : past the gates, and not compared yet;
* `Service.punctual` : the gates are those of submissions, and nothing ends the competition
  while an attempt waits;
* `competition_time` : what attempts change is evaluated while the competition is on.
-/
import CtfZone.AttemptLimits

namespace CtfZone.Contests

open Journal Runs Tables Submissions

variable {crates : Crates}

/-- The request of an attempt that is past the gates, and not compared yet. -/
def Attempt.waiting : Attempt → Option AttemptRequest
  | .gated request _ _ => some request
  | .opened a => some a.request
  | .admitted a => some a.request
  | _ => none

/-- How an attempt has been evaluated. -/
def Attempt.evaluation : Attempt → Option Admitted
  | .admitted a => some a
  | .compared a => some a.toAdmitted
  | .checked a _ => some a.toAdmitted
  | .recorded a => some a.toAdmitted
  | .scored a _ => some a.toAdmitted
  | .committed a _ _ => some a.toAdmitted
  | _ => none

/-- The rows of partial submissions. -/
def partialRows (contest : Contest crates) : List SubmissionRow :=
  contest.portal.submissions.filter (·.submissionType = "partial")

/-- No participant waits past the gates, unless the competition is on in what follows. -/
def Service.idleUnless (s : Service crates) (running : Bool) : Bool :=
  s.attempts.all fun attempt => attempt.waiting.all fun request => request.isAdmin || running

/-- An attempt of a participant does not come after the end, where `view_after_ctf` lets it
pass; and while one is past the gates and not compared, the competition does not end and is not
paused. -/
def Service.punctual (s : Service crates) : ServiceLabel → Bool
  | .submit request => request.isAdmin || ! (s.contest.schedule.endTime ≠ 0 &&
    s.contest.schedule.endTime < s.clock / 1000000 && s.contest.schedule.viewAfterCtf)
  | .tick elapsed => s.idleUnless (s.contest.running (s.clock + elapsed))
  | .operate (.configure settings schedule) =>
    let configured : Contest crates :=
      { s.contest with portal := { s.contest.portal with settings }, schedule }
    s.idleUnless (configured.running s.clock)
  | _ => true

/-- Every step is punctual. -/
def Punctual (s : Service crates) (label : ServiceLabel) : Prop := s.punctual label = true

instance (s : Service crates) (label : ServiceLabel) : Decidable (Punctual s label) :=
  inferInstanceAs (Decidable (_ = true))

/-! ## The gates -/

theorem seconds_le {n now : ℤ} (h : n < now / 1000000) : seconds n ≤ now := by
  show n * 1000000 ≤ now
  omega

theorem lt_seconds {n now : ℤ} (h : now / 1000000 < n) : now < seconds n := by
  show now < n * 1000000
  omega

theorem running_same {contest after : Contest crates} (hschedule : after.schedule = contest.schedule)
    (hsettings : after.portal.settings = contest.portal.settings) (now : Time) :
    after.running now = contest.running now := by
  unfold Contest.running
  rw [hschedule, hsettings]

/-- A participant who passes the gates does so while the competition is on, unless it is after
the end. -/
theorem gate_running {s : Service crates} {request waiting : AttemptRequest}
    (hpunctual : s.punctual (.submit request) = true)
    (h : (s.gate request).waiting = some waiting) (hadmin : waiting.isAdmin = false) :
    s.contest.running s.clock = true := by
  unfold Service.gate at h
  split at h
  · cases h
  · cases h
  · rename_i haccess
    split at h
    · cases h
    · rename_i hpaused
      cases h
      have hshown : request.isPreview = false := by
        unfold AttemptRequest.isPreview
        rw [hadmin, Bool.false_and]
      rw [hadmin] at haccess
      simp only [Service.punctual, hadmin, Bool.false_or, Bool.not_eq_true'] at hpunctual
      have hunpaused : s.contest.portal.settings.paused = false := by
        simpa [hshown] using hpaused
      have htime : ((s.contest.schedule.startTime = 0 ||
            s.contest.schedule.startTime < s.clock / 1000000) &&
          (s.contest.schedule.endTime = 0 ||
            s.clock / 1000000 < s.contest.schedule.endTime)) = true := by
        by_contra hnot
        rw [Bool.not_eq_true] at hnot
        have haccess : ctfTimeAccess (s.clock / 1000000) s.contest.schedule.startTime
            s.contest.schedule.endTime s.contest.schedule.viewAfterCtf = .allowed := haccess
        unfold ctfTimeAccess at haccess
        dsimp only at haccess
        rw [hnot, hpunctual, Bool.or_false, if_neg (by decide)] at haccess
        split at haccess <;> cases haccess
      unfold Contest.running
      rw [hunpaused]
      simp only [Bool.and_eq_true, Bool.or_eq_true, decide_eq_true_eq] at htime ⊢
      exact ⟨⟨htime.1.imp_right seconds_le, htime.2.imp_right lt_seconds⟩, rfl⟩

/-! ## Runs -/

/-- Participants are evaluated while the competition is on. -/
structure OnTime (s : Service crates) : Prop where
  waiting : ∀ attempt ∈ s.attempts, ∀ request ∈ attempt.waiting, request.isAdmin = false →
    s.contest.running s.clock = true
  evaluated : ∀ attempt ∈ s.attempts, ∀ a ∈ attempt.evaluation, a.request.isAdmin = false →
    a.onTime = true

/-- Only the configuration changes the schedule and the settings. -/
theorem Operation.change_schedule {contest after : Contest crates} {op : Operation}
    (h : op.change contest = .ok after) (hop : ∀ settings schedule, op ≠ .configure settings schedule) :
    after.schedule = contest.schedule ∧ after.portal.settings = contest.portal.settings := by
  cases op with
  | addMember | joinTeam | createTeam | updateTeam | createUser | deleteUser | switchMode =>
      obtain ⟨⟨⟩, -, h⟩ := bind_eq_ok.mp h
      obtain ⟨⟨⟩, -, h⟩ := bind_eq_ok.mp h
      cases h
      exact ⟨rfl, rfl⟩
  | removeMember | deleteTeam | deleteChallenge =>
      obtain ⟨⟨⟩, -, h⟩ := bind_eq_ok.mp h
      obtain ⟨⟨⟩, -, h⟩ := bind_eq_ok.mp h
      obtain ⟨⟨⟩, -, h⟩ := bind_eq_ok.mp h
      cases h
      exact ⟨rfl, rfl⟩
  | updateUser =>
      obtain ⟨⟨⟩, -, h⟩ := bind_eq_ok.mp h
      obtain ⟨⟨⟩, -, h⟩ := bind_eq_ok.mp h
      obtain ⟨previous, -, h⟩ := bind_eq_ok.mp h
      obtain ⟨⟨⟩, -, h⟩ := bind_eq_ok.mp h
      obtain ⟨⟨⟩, -, h⟩ := bind_eq_ok.mp h
      obtain ⟨⟨⟩, -, h⟩ := bind_eq_ok.mp h
      cases h
      exact ⟨rfl, rfl⟩
  | createSubmission =>
      obtain ⟨⟨⟩, -, h⟩ := bind_eq_ok.mp h
      obtain ⟨teamId, -, h⟩ := bind_eq_ok.mp h
      obtain ⟨⟨⟩, -, h⟩ := bind_eq_ok.mp h
      dsimp only at h
      split at h
      · obtain ⟨⟨⟩, -, h⟩ := bind_eq_ok.mp h
        cases h
        exact ⟨rfl, rfl⟩
      · cases h
        exact ⟨rfl, rfl⟩
  | updateSubmission =>
      obtain ⟨current, -, h⟩ := bind_eq_ok.mp h
      obtain ⟨⟨⟩, -, h⟩ := bind_eq_ok.mp h
      obtain ⟨teamId, -, h⟩ := bind_eq_ok.mp h
      dsimp only at h
      split at h
      · obtain ⟨⟨⟩, -, h⟩ := bind_eq_ok.mp h
        obtain ⟨solved, hsolved, h⟩ := bind_eq_ok.mp h
        obtain ⟨⟨⟩, -, hsolved⟩ := bind_eq_ok.mp hsolved
        cases hsolved
        cases h
        exact ⟨rfl, rfl⟩
      · cases h
        split <;> exact ⟨rfl, rfl⟩
  | deleteSubmission =>
      obtain ⟨⟨⟩, -, h⟩ := bind_eq_ok.mp h
      cases h
      exact ⟨rfl, rfl⟩
  | configure settings schedule => exact absurd rfl (hop settings schedule)

/-- Who waits after a statement waited before. -/
theorem Advances.waiting {s : Service crates} {i : ℕ} {a a' : Attempt} {contest : Contest crates}
    (h : Advances s i a contest a') {request : AttemptRequest} (hr : a'.waiting = some request) :
    a.waiting = some request := by
  cases h with
  | opens | admits => exact hr
  | _ => cases hr

/-- What is evaluated after a statement was so before, or is evaluated now. -/
theorem Advances.evaluation {s : Service crates} {i : ℕ} {a a' : Attempt} {contest : Contest crates}
    (h : Advances s i a contest a') {b : Admitted} (hb : a'.evaluation = some b) :
    a.evaluation = some b ∨
      a.waiting = some b.request ∧ b.onTime = s.contest.running s.clock := by
  cases h with
  | admits =>
      cases hb
      exact .inr ⟨rfl, rfl⟩
  | compares | checks | records | scores | commits => exact .inl hb
  | _ => cases hb

theorem idleUnless_eq {s : Service crates} {running : Bool} (h : s.idleUnless running = true)
    {attempt : Attempt} (hattempt : attempt ∈ s.attempts) {request : AttemptRequest}
    (hr : attempt.waiting = some request) (hadmin : request.isAdmin = false) : running = true := by
  unfold Service.idleUnless at h
  have hone := List.all_eq_true.mp h attempt hattempt
  rwa [hr, Option.all_some, hadmin, Bool.false_or] at hone

theorem serviceStep_onTime {s s' : Service crates} {label : ServiceLabel} (hs : OnTime s)
    (hpunctual : Punctual s label) (h : serviceStep label s = some s') : OnTime s' := by
  cases label with
  | tick elapsed =>
      cases h
      refine ⟨fun attempt hattempt request hr hadmin => ?_, hs.evaluated⟩
      exact idleUnless_eq hpunctual hattempt hr hadmin
  | submit request =>
      cases h
      refine ⟨fun attempt hattempt waiting hr hadmin => ?_, fun attempt hattempt a ha => ?_⟩
      · rcases List.mem_append.mp hattempt with hold | hnew
        · exact hs.waiting attempt hold waiting hr hadmin
        · rw [List.mem_singleton.mp hnew] at hr
          exact gate_running hpunctual hr hadmin
      · rcases List.mem_append.mp hattempt with hold | hnew
        · exact hs.evaluated attempt hold a ha
        · rw [List.mem_singleton.mp hnew] at ha
          have hnone : (s.gate request).evaluation = none := by
            unfold Service.gate
            split
            · rfl
            · rfl
            · split <;> rfl
          rw [hnone] at ha
          cases ha
  | attempt i p =>
      obtain ⟨a, contest, a', ha, hadvances, rfl⟩ := advance_advances h
      have hmem : a ∈ s.attempts := List.mem_of_getElem? ha
      obtain ⟨-, -, hschedule, -, -, hsettings, -, -⟩ := hadvances.frame
      refine ⟨fun attempt hattempt request hr hadmin => ?_, fun attempt hattempt b hb hadmin => ?_⟩
      · show contest.running s.clock = true
        rw [running_same hschedule hsettings]
        rcases List.mem_or_eq_of_mem_set hattempt with hold | rfl
        · exact hs.waiting attempt hold request hr hadmin
        · exact hs.waiting a hmem request (hadvances.waiting hr) hadmin
      · rcases List.mem_or_eq_of_mem_set hattempt with hold | rfl
        · exact hs.evaluated attempt hold b hb hadmin
        · rcases hadvances.evaluation hb with hold | ⟨hwaits, hnow⟩
          · exact hs.evaluated a hmem b hold hadmin
          · rw [hnow]
            exact hs.waiting a hmem b.request hwaits hadmin
  | operate op =>
      obtain ⟨contest, rfl, rfl | ⟨-, hchange⟩, -⟩ := operate_cases h
      · exact hs
      · refine ⟨fun attempt hattempt request hr hadmin => ?_, hs.evaluated⟩
        show contest.running s.clock = true
        by_cases hop : ∃ settings schedule, op = .configure settings schedule
        · obtain ⟨settings, schedule, rfl⟩ := hop
          cases hchange
          exact idleUnless_eq hpunctual hattempt hr hadmin
        · push Not at hop
          obtain ⟨hschedule, hsettings⟩ := Operation.change_schedule hchange hop
          rw [running_same hschedule hsettings]
          exact hs.waiting attempt hattempt request hr hadmin
  | edit challengeId patch scoring =>
      rcases edit_cases h with rfl | ⟨rows, -, -, -, rfl⟩
      · exact hs
      · exact ⟨hs.waiting, hs.evaluated⟩
  | commitEdit i =>
      obtain ⟨e, -, rfl⟩ := commitEdit_cases h
      exact ⟨hs.waiting, hs.evaluated⟩

theorem onTime_reach {s : Service crates} (hr : Reach serviceStep Punctual InitialService s) :
    OnTime s := by
  refine hr.invariant (fun s hs => ?_) fun _ _ _ hs hpunctual hstep =>
    serviceStep_onTime hs hpunctual hstep
  have hnone (attempt : Attempt) (h : attempt ∈ s.attempts) : False := by
    rw [hs.1] at h
    exact List.not_mem_nil h
  exact ⟨fun attempt h => (hnone attempt h).elim, fun attempt h => (hnone attempt h).elim⟩

/-- A statement that is no commit leaves solves, partial submissions and values as they are. -/
theorem Advances.quiet {s : Service crates} {i : ℕ} {a a' : Attempt} {contest : Contest crates}
    (h : Advances s i a contest a') : (contest.portal.solves = s.contest.portal.solves ∧
      partialRows contest = partialRows s.contest ∧ contest.scoring = s.contest.scoring) ∨
    ∃ b, a.evaluation = some b := by
  cases h with
  | ratelimits limit refers =>
      refine .inl ⟨rfl, ?_, rfl⟩
      show (_ ++ [_]).filter _ = _
      rw [List.filter_append]
      exact List.append_nil _
  | commits => exact .inr ⟨_, rfl⟩
  | _ => exact .inl ⟨rfl, rfl, rfl⟩

/-- **No solve outside the competition.**  Where the gates do not open after the end, and
nothing ends or pauses the competition while an attempt waits, the attempt of a participant is
compared while the competition is on; and a statement of an attempt leaves the solves, the
partial submissions and the values of all challenges as they are, unless the attempt is an
administrator's or passed its limits while the competition was on. -/
theorem competition_time {s : Service crates} (hr : Reach serviceStep Punctual InitialService s) :
    (∀ (i : ℕ) (a : Admitted), s.attempts[i]? = some (.admitted a) → a.request.isAdmin = false →
      s.contest.running s.clock = true) ∧
    ∀ (i : ℕ) (p : Progress) (s' : Service crates), serviceStep (.attempt i p) s = some s' →
      (s'.contest.portal.solves = s.contest.portal.solves ∧
        partialRows s'.contest = partialRows s.contest ∧
        s'.contest.scoring = s.contest.scoring) ∨
      ∃ a, s.attempts[i]?.bind Attempt.evaluation = some a ∧
        (a.request.isAdmin = true ∨ a.onTime = true) := by
  have hs := onTime_reach hr
  refine ⟨fun i a ha hadmin => hs.waiting _ (List.mem_of_getElem? ha) a.request rfl hadmin,
    fun i p s' hstep => ?_⟩
  obtain ⟨a, contest, a', ha, hadvances, rfl⟩ := advance_advances hstep
  rcases hadvances.quiet with hquiet | ⟨b, hb⟩
  · exact .inl hquiet
  · refine .inr ⟨b, (Slots.at'_eq (f := Attempt.evaluation) ha).trans hb, ?_⟩
    cases hadmin : b.request.isAdmin with
    | true => exact .inl rfl
    | false => exact .inr (hs.evaluated a (List.mem_of_getElem? ha) b hb hadmin)

/-- The user 7 solves a challenge during the competition. -/
theorem competition_time_practice : ∃ s s' : Service plainCrates,
    Reach serviceStep Punctual InitialService s ∧ serviceStep (.attempt 0 .commit) s = some s' ∧
    s'.contest.portal.solves ≠ s.contest.portal.solves ∧
    ∃ a, s.attempts[0]?.bind Attempt.evaluation = some a ∧
      (a.request.isAdmin = true ∨ a.onTime = true) := by
  have hrun : ((runIf serviceStep Punctual (submits 7 1 "A" :: .attempt 0 (.acquire 0) ::
      .attempt 0 .limit :: [.compare, .check, .record, .score].map (.attempt 0)) practice).any
      fun s => (serviceStep (.attempt 0 .commit) s).any fun s' =>
        decide (s'.contest.portal.solves ≠ s.contest.portal.solves)) = true := by
    decide +kernel
  obtain ⟨s, hs, hfacts⟩ := (Option.any_eq_true _ _).mp hrun
  obtain ⟨s', hs', hsolves⟩ := (Option.any_eq_true _ _).mp hfacts
  have hchanged := of_decide_eq_true hsolves
  have hr : Reach serviceStep Punctual InitialService s :=
    reach_of_runIf _ (.init practice_new.1) hs
  refine ⟨s, s', hr, hs', hchanged, ?_⟩
  rcases (competition_time hr).2 0 .commit s' hs' with hquiet | hevaluated
  · exact absurd hquiet.1 hchanged
  · exact hevaluated

/-- The practice ends after ten seconds, and its challenges can be seen afterwards. -/
def endedPractice : Service plainCrates :=
  { practice with
    contest := { practice.contest with schedule := ⟨0, 10, true⟩ }
    clock := seconds 20 }

/-- After the end the user 7 submits the flag of a challenge, and has solved it. -/
theorem solve_after_end :
    ¬ ∀ (crates : Crates) (s s' : Service crates) (i : ℕ) (p : Progress) (a : Admitted),
      Reach serviceStep anyStep InitialService s →
      s.attempts[i]?.bind Attempt.evaluation = some a → a.request.isAdmin = false →
      a.onTime = false → serviceStep (.attempt i p) s = some s' →
      s'.contest.portal.solves = s.contest.portal.solves := by
  have hrun : ((run serviceStep (submits 7 1 "A" :: .attempt 0 (.acquire (seconds 20)) ::
      .attempt 0 .limit :: [.compare, .check, .record, .score].map (.attempt 0))
      endedPractice).any fun s =>
      ((s.attempts[0]?.bind Attempt.evaluation).any fun a => ! a.request.isAdmin && ! a.onTime) &&
      (serviceStep (.attempt 0 .commit) s).any fun s' =>
        decide (s'.contest.portal.solves ≠ s.contest.portal.solves)) = true := by
    decide +kernel
  obtain ⟨s, hs, hfacts⟩ := (Option.any_eq_true _ _).mp hrun
  rw [Bool.and_eq_true] at hfacts
  obtain ⟨a, ha, hlate⟩ := (Option.any_eq_true _ _).mp hfacts.1
  rw [Bool.and_eq_true, Bool.not_eq_true', Bool.not_eq_true'] at hlate
  obtain ⟨s', hs', hsolves⟩ := (Option.any_eq_true _ _).mp hfacts.2
  intro hall
  exact of_decide_eq_true hsolves (hall plainCrates s s' 0 .commit a
    (reach_of_run _ ⟨rfl, rfl⟩ hs) ha hlate.1 hlate.2 hs')

end CtfZone.Contests
