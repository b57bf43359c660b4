/-
# Challenges of the logic `team`

Such a challenge is solved when every member of the team has submitted a flag.  The
verdict compares the users of the stored partial submissions with the members, and
who was moved to another team, or made an administrator, leaves stored submissions
behind: the two sets then differ for good.  They also do where a member who has not
submitted is banned.

Attempts, moves and the edits of accounts hold one lock for the whole of their
transaction in team mode, and each request is a single step here.

* `compareSubmission_team` : the verdict of the logic `team`;
* `LeftBehind` : a stored submission of somebody who is no member;
* `Barred` : a member who has not submitted and has no valid credential;
* `team_verdict` : the verdict is right unless one of the two is so when everyone has
  submitted, and nothing else keeps a team from solving the challenge.
-/
import CtfZone.ContestWrites

namespace CtfZone.Contests

open Journal Runs Tables Submissions

variable {crates : Crates}

/-! ## Histories -/

/-- What happens to a contest. -/
inductive ContestLabel
  | attempt (request : AttemptRequest)
  | operation (op : Operation)
  | editChallenge (challengeId : ℤ) (patch : ChallengePatch) (scoring : Contest.ScoringPatch)

/-- What a request does to the tables. -/
def ContestLabel.change (contest : Contest crates) :
    ContestLabel → Except String (Contest crates)
  | .attempt request => do
    let (_, after, _) ← contest.attempt request
    pure after
  | .operation op => op.change contest
  | .editChallenge challengeId patch scoring => contest.editChallenge challengeId patch scoring

/-- One request; one that fails changes nothing. -/
def contestStep (label : ContestLabel) (contest : Contest crates) : Option (Contest crates) :=
  (label.change contest).toOption

/-- Who belongs to a team is a participant. -/
structure Members (portal : Portal crates) : Prop where
  unique : (portal.users.map UserRow.id).Nodup
  participant : ∀ user ∈ portal.users, user.teamId.isSome → user.userType = "user"

/-- A contest whose teams have participants as their members. -/
def ContestMembers (contest : Contest crates) : Prop :=
  Members contest.portal

/-! ## Members -/

theorem Members.eq_of_id {portal : Portal crates} (h : Members portal) {user user' : UserRow}
    (hu : user ∈ portal.users) (hu' : user' ∈ portal.users) (hid : user.id = user'.id) :
    user = user' :=
  List.inj_on_of_nodup_map h.unique hu hu' hid

/-- Rows of `users` rewritten in place. -/
theorem Members.update {portal after : Portal crates} (h : Members portal)
    {p : UserRow → Bool} {f : UserRow → UserRow}
    (husers : after.users = Tables.update p f portal.users) (hid : ∀ user, (f user).id = user.id)
    (hparticipant : ∀ user ∈ portal.users, p user = true → (f user).teamId.isSome →
      (f user).userType = "user") : Members after := by
  refine ⟨?_, fun user hu hteam => ?_⟩
  · have hids : (Tables.update p f portal.users).map UserRow.id = portal.users.map UserRow.id := by
      rw [Tables.update, List.map_map]
      refine List.map_congr_left fun user _ => ?_
      rcases updateRow_cases p f user with ⟨-, heq⟩ | ⟨-, heq⟩
      · exact congrArg UserRow.id heq
      · exact (congrArg UserRow.id heq).trans (hid user)
    rw [husers, hids]
    exact h.unique
  · rw [husers] at hu
    obtain ⟨row, hrow, ⟨hp, rfl⟩ | ⟨-, rfl⟩⟩ := mem_update.mp hu
    · exact hparticipant row hrow hp hteam
    · exact h.participant row hrow hteam

theorem Members.sublist {portal after : Portal crates} (h : Members portal)
    (husers : after.users.Sublist portal.users) : Members after :=
  ⟨h.unique.sublist (husers.map UserRow.id), fun user hu => h.participant user (husers.subset hu)⟩

theorem Members.same {portal after : Portal crates} (h : Members portal)
    (husers : after.users = portal.users) : Members after :=
  h.sublist (husers ▸ List.Sublist.refl _)

theorem user_mem {contest : Contest crates} {userId : ℤ} {user : UserRow}
    (h : contest.user userId = some user) : user ∈ contest.portal.users ∧ user.id = userId :=
  ⟨List.mem_of_find?_eq_some h,
    of_decide_eq_true (List.find?_some (p := fun u : UserRow => decide (u.id = userId)) h)⟩

/-- The participant who is to join a team. -/
theorem requireUnassigned_user {contest : Contest crates} {userId : ℤ} {notUser joined : String}
    (h : contest.requireUnassigned userId notUser joined = .ok ()) :
    ∃ user ∈ contest.portal.users, user.id = userId ∧ user.userType = "user" := by
  obtain ⟨⟨⟩, -, h⟩ := bind_eq_ok.mp h
  obtain ⟨user, huser, h⟩ := bind_eq_ok.mp h
  obtain ⟨⟨⟩, htype, -⟩ := bind_eq_ok.mp h
  obtain ⟨hmem, hid⟩ := user_mem (required_eq_ok.mp huser)
  exact ⟨user, hmem, hid, by simpa using htype⟩

theorem Members.setTeam {contest : Contest crates} (h : Members contest.portal) {userId : ℤ}
    (teamId : Option ℤ)
    (huser : ∃ user ∈ contest.portal.users, user.id = userId ∧ user.userType = "user") :
    Members (contest.setTeam userId teamId).portal := by
  obtain ⟨user, hmem, hid, htype⟩ := huser
  refine h.update rfl (fun _ => rfl) fun row hrow hp _ => ?_
  rw [h.eq_of_id hrow hmem ((of_decide_eq_true hp).trans hid.symm)]
  exact htype

theorem Members.clearTeam {contest : Contest crates} (h : Members contest.portal) (userId : ℤ) :
    Members (contest.setTeam userId none).portal :=
  h.update rfl (fun _ => rfl) fun _ _ _ hteam => by cases hteam

theorem attempt_same {portal after : Portal crates} {request : AttemptRequest}
    {response : AttemptResponse} {judgement : Option Judgement}
    (h : Submissions.attempt portal request = .ok (response, after, judgement)) :
    SameChallenge portal after := by
  unfold Submissions.attempt at h
  split at h
  · cases h
    exact .refl portal
  · obtain ⟨opened, -, h⟩ := bind_eq_ok.mp h
    split at h
    · rename_i recorded _
      cases h
      cases recorded with
      | true => exact ⟨rfl, rfl, rfl, rfl, rfl, rfl⟩
      | false => exact .refl portal
    · obtain ⟨comparison, -, h⟩ := bind_eq_ok.mp h
      dsimp only at h
      split at h
      · cases h
        exact .refl portal
      · cases h
        exact (recordVerdict_rows portal request opened comparison).1

/-- **Members are participants**, whatever administrators and members of teams do. -/
theorem Operation.change_members {contest after : Contest crates} {operation : Operation}
    (hm : ContestMembers contest) (h : operation.change contest = .ok after) :
    ContestMembers after := by
  cases operation with
  | addMember teamId userId =>
      obtain ⟨⟨⟩, huser, h⟩ := bind_eq_ok.mp h
      obtain ⟨⟨⟩, -, h⟩ := bind_eq_ok.mp h
      cases h
      exact Members.setTeam hm _ (requireUnassigned_user huser)
  | joinTeam teamId userId invited =>
      obtain ⟨⟨⟩, huser, h⟩ := bind_eq_ok.mp h
      obtain ⟨⟨⟩, -, h⟩ := bind_eq_ok.mp h
      cases h
      exact Members.setTeam hm _ (requireUnassigned_user huser)
  | createTeam teamId userId allowed =>
      obtain ⟨⟨⟩, huser, h⟩ := bind_eq_ok.mp h
      obtain ⟨⟨⟩, -, h⟩ := bind_eq_ok.mp h
      cases h
      let created : Contest crates :=
        { contest with teams := contest.teams ++ [⟨teamId, false, false⟩] }
      have hcreated : Members created.portal := hm
      exact hcreated.setTeam _ (requireUnassigned_user huser)
  | removeMember teamId userId =>
      obtain ⟨⟨⟩, -, h⟩ := bind_eq_ok.mp h
      obtain ⟨⟨⟩, -, h⟩ := bind_eq_ok.mp h
      obtain ⟨⟨⟩, -, h⟩ := bind_eq_ok.mp h
      cases h
      exact (Members.clearTeam hm userId).same rfl
  | deleteTeam teamId allowed =>
      obtain ⟨⟨⟩, -, h⟩ := bind_eq_ok.mp h
      obtain ⟨⟨⟩, -, h⟩ := bind_eq_ok.mp h
      obtain ⟨⟨⟩, -, h⟩ := bind_eq_ok.mp h
      cases h
      exact Members.update hm rfl (fun _ => rfl) fun _ _ _ hteam => by cases hteam
  | updateTeam teamId hidden banned =>
      obtain ⟨⟨⟩, -, h⟩ := bind_eq_ok.mp h
      obtain ⟨⟨⟩, -, h⟩ := bind_eq_ok.mp h
      cases h
      exact Members.same hm rfl
  | updateUser userId request allowed =>
      obtain ⟨⟨⟩, -, h⟩ := bind_eq_ok.mp h
      obtain ⟨⟨⟩, -, h⟩ := bind_eq_ok.mp h
      obtain ⟨previous, hprevious, h⟩ := bind_eq_ok.mp h
      obtain ⟨⟨⟩, hassign, h⟩ := bind_eq_ok.mp h
      obtain ⟨⟨⟩, -, h⟩ := bind_eq_ok.mp h
      obtain ⟨⟨⟩, -, h⟩ := bind_eq_ok.mp h
      cases h
      refine Members.update hm rfl (fun _ => rfl) fun row hrow hp hteam => ?_
      obtain ⟨hmem, hid⟩ := user_mem (required_eq_ok.mp hprevious)
      rw [Members.eq_of_id hm hrow hmem ((of_decide_eq_true hp).trans hid.symm)] at hteam
      show request.userType.getD previous.userType = "user"
      by_contra htype
      have hnone : request.teamId.join = none := by simpa [htype] using hassign
      cases hprevteam : previous.teamId with
      | none =>
          cases hrequest : request.teamId with
          | none => simp [htype, hprevteam, hrequest] at hteam
          | some requested =>
              cases requested with
              | none => simp [htype, hprevteam, hrequest] at hteam
              | some _ => simp [hrequest] at hnone
      | some _ => simp [htype, hprevteam] at hteam
  | createUser userId userType hidden banned changePassword =>
      obtain ⟨⟨⟩, -, h⟩ := bind_eq_ok.mp h
      obtain ⟨⟨⟩, hfresh, h⟩ := bind_eq_ok.mp h
      cases h
      refine ⟨?_, fun user hu hteam => ?_⟩
      · show ((contest.portal.users ++ [(⟨userId, userType, none⟩ : UserRow)]).map UserRow.id).Nodup
        rw [List.map_append, List.nodup_append]
        refine ⟨hm.unique, List.nodup_singleton _, fun id hid id' hid' heq => ?_⟩
        obtain ⟨user, hu, rfl⟩ := List.mem_map.mp hid
        rw [List.map_singleton, List.mem_singleton] at hid'
        have hnone : contest.user userId = none := by simpa using hfresh
        exact absurd (heq.trans hid') (by simpa using List.find?_eq_none.mp hnone user hu)
      · rcases List.mem_append.mp hu with hu | hu
        · exact hm.participant user hu hteam
        · rw [List.mem_singleton.mp hu] at hteam
          cases hteam
  | deleteUser userId allowed =>
      obtain ⟨⟨⟩, -, h⟩ := bind_eq_ok.mp h
      obtain ⟨⟨⟩, -, h⟩ := bind_eq_ok.mp h
      cases h
      exact Members.sublist hm List.filter_sublist
  | createSubmission request now => exact Members.same hm (createSubmission_accounts h).users
  | updateSubmission submissionId request => exact Members.same hm (updateSubmission_accounts h).users
  | deleteSubmission submissionId =>
      obtain ⟨⟨⟩, -, h⟩ := bind_eq_ok.mp h
      cases h
      exact Members.same hm rfl
  | deleteChallenge challengeId idle =>
      obtain ⟨⟨⟩, -, h⟩ := bind_eq_ok.mp h
      obtain ⟨⟨⟩, -, h⟩ := bind_eq_ok.mp h
      obtain ⟨⟨⟩, -, h⟩ := bind_eq_ok.mp h
      cases h
      exact Members.same hm rfl
  | switchMode teamMode idle =>
      obtain ⟨⟨⟩, -, h⟩ := bind_eq_ok.mp h
      obtain ⟨⟨⟩, -, h⟩ := bind_eq_ok.mp h
      cases h
      refine Members.update (p := fun _ => true) (f := fun user => { user with teamId := none }) hm
        (List.map_congr_left fun _ _ => rfl) (fun _ => rfl) fun _ _ _ hteam => by cases hteam
  | configure settings schedule =>
      cases h
      exact Members.same hm rfl

theorem contestStep_members {contest after : Contest crates} {label : ContestLabel}
    (hm : ContestMembers contest) (h : contestStep label contest = some after) :
    ContestMembers after := by
  unfold contestStep at h
  cases hchange : label.change contest with
  | error error =>
      rw [hchange] at h
      cases h
  | ok changed =>
      rw [hchange] at h
      cases h
      cases label with
      | attempt request =>
          obtain ⟨⟨response, changed, judgement⟩, hattempt, h⟩ := bind_eq_ok.mp hchange
          cases h
          obtain ⟨⟨⟩, -, hattempt⟩ := bind_eq_ok.mp hattempt
          obtain ⟨⟨response, portal, judgement⟩, hattempt, h⟩ := bind_eq_ok.mp hattempt
          cases h
          exact Members.same hm (attempt_same hattempt).users
      | operation op => exact op.change_members hm hchange
      | editChallenge challengeId patch scoring =>
          obtain ⟨rows, -, h⟩ := bind_eq_ok.mp hchange
          cases h
          exact Members.same hm rfl

/-- Who belongs to a team is a participant. -/
theorem members_reach {contest : Contest crates}
    (hr : Reach contestStep anyStep ContestMembers contest) : ContestMembers contest :=
  hr.invariant (fun _ h => h) fun _ _ _ hm _ hstep => contestStep_members hm hstep

/-! ## The verdict -/

/-- The members of an account. -/
def members (portal : Portal crates) (account : Account) : List UserRow :=
  portal.users.filter fun user => account.owns none user.teamId

/-- The users of the stored partial submissions of an account. -/
def submitters (portal : Portal crates) (account : Account) (challengeId : ℤ) : List ℤ :=
  (storedPartials portal account challengeId).filterMap SubmissionRow.userId

/-- The string of a request matches a flag of the challenge. -/
def Matches (portal : Portal crates) (request : AttemptRequest) : Prop :=
  (flagsOf portal request.challengeId).any (request.matchesFor portal request.challengeId) = true

instance (portal : Portal crates) (request : AttemptRequest) :
    Decidable (Matches portal request) :=
  inferInstanceAs (Decidable (_ = true))

/-- A stored partial submission is from somebody who is no member. -/
def LeftBehind (portal : Portal crates) (account : Account) (challengeId : ℤ) : Prop :=
  ∃ userId ∈ submitters portal account challengeId,
    ∀ user ∈ members portal account, user.id ≠ userId

instance (portal : Portal crates) (account : Account) (challengeId : ℤ) :
    Decidable (LeftBehind portal account challengeId) :=
  inferInstanceAs (Decidable (∃ userId ∈ submitters portal account challengeId,
    ∀ user ∈ members portal account, user.id ≠ userId))

/-- A member may submit: they are a participant, and their credential is valid. -/
def Contest.canSubmit (contest : Contest crates) (user : UserRow) : Bool :=
  user.userType = "user" && contest.credentialValid user.id

/-- Every member who may submit has done so, or is the one who does. -/
def EveryoneSubmitted (contest : Contest crates) (account : Account) (challengeId userId : ℤ) :
    Prop :=
  ∀ user ∈ members contest.portal account, contest.canSubmit user = true →
    user.id = userId ∨ user.id ∈ submitters contest.portal account challengeId

instance (contest : Contest crates) (account : Account) (challengeId userId : ℤ) :
    Decidable (EveryoneSubmitted contest account challengeId userId) :=
  inferInstanceAs (Decidable (∀ user ∈ members contest.portal account, contest.canSubmit user = true →
    user.id = userId ∨ user.id ∈ submitters contest.portal account challengeId))

/-- A member without a stored submission has no valid credential. -/
def Barred (contest : Contest crates) (account : Account) (challengeId userId : ℤ) : Prop :=
  ∃ user ∈ members contest.portal account, contest.credentialValid user.id = false ∧
    user.id ≠ userId ∧ user.id ∉ submitters contest.portal account challengeId

instance (contest : Contest crates) (account : Account) (challengeId userId : ℤ) :
    Decidable (Barred contest account challengeId userId) :=
  inferInstanceAs (Decidable (∃ user ∈ members contest.portal account,
    contest.credentialValid user.id = false ∧ user.id ≠ userId ∧
      user.id ∉ submitters contest.portal account challengeId))

theorem allMembersSubmitted_iff {portal : Portal crates} {account : Account}
    {challengeId userId : ℤ} (hmember : ∃ user ∈ members portal account, user.id = userId) :
    allMembersSubmitted portal account challengeId userId = true ↔
      ¬ LeftBehind portal account challengeId ∧ ∀ user ∈ members portal account,
        user.id = userId ∨ user.id ∈ submitters portal account challengeId := by
  have hids (id : ℤ) : ((members portal account).map UserRow.id).contains id = true ↔
      ∃ user ∈ members portal account, user.id = id := by
    rw [List.contains_iff_mem, List.mem_map]
  unfold allMembersSubmitted
  rw [Bool.and_eq_true, List.all_eq_true, List.all_eq_true]
  refine and_congr ⟨fun h => ?_, fun h id hid => ?_⟩ ⟨fun h user huser => ?_, fun h id hid => ?_⟩
  · rintro ⟨id, hid, hnone⟩
    obtain ⟨user, huser, heq⟩ := (hids id).mp (h id (List.mem_cons_of_mem _ hid))
    exact hnone user huser heq
  · refine (hids id).mpr ?_
    rcases List.mem_cons.mp hid with rfl | hid
    · exact hmember
    · by_contra hnone
      exact h ⟨id, hid, fun user huser heq => hnone ⟨user, huser, heq⟩⟩
  · have := h user.id (List.mem_map_of_mem huser)
    rw [List.contains_iff_mem] at this
    exact List.mem_cons.mp this
  · obtain ⟨user, huser, rfl⟩ := List.mem_map.mp hid
    rw [List.contains_iff_mem]
    exact List.mem_cons.mpr (h user huser)

/-- **The verdict of the logic `team`.** -/
theorem compareSubmission_team {context : Context} {portal : Portal crates} {account : Account}
    {challenge : ChallengeRow} {flags : List StoredFlag} {submission : String}
    {comparison : ComparisonResult} (hflags : flags ≠ []) (hteam : challenge.logic = "team")
    (hmode : portal.teamMode = true)
    (h : compareSubmission context portal account challenge flags submission = .ok comparison) :
    (comparison.outcome = .correct ↔ flags.any (matchesFlag context submission) = true ∧
      allMembersSubmitted portal account challenge.id context.userId = true) ∧
    (comparison.outcome ≠ .correct → (comparison.outcome = .partially ↔
      flags.any (matchesFlag context submission) = true)) := by
  unfold compareSubmission at h
  rw [if_neg (by simpa using hflags), if_neg (by rw [hteam]; decide),
    if_pos (by simp [hteam, hmode])] at h
  obtain ⟨⟨matched, shared⟩, hmatched, h⟩ := bind_eq_ok.mp h
  cases matched with
  | false =>
      cases h
      have hnone : ¬ flags.any (matchesFlag context submission) = true := by
        rw [List.any_eq_true]
        rintro ⟨flag, hflag, hm⟩
        rw [firstMatch_false hmatched flag hflag] at hm
        cases hm
      exact ⟨iff_of_false (by simp) fun hc => hnone hc.1, fun _ => iff_of_false (by simp) hnone⟩
  | true =>
      have hany : flags.any (matchesFlag context submission) = true :=
        List.any_eq_true.mpr (firstMatch_true hmatched)
      dsimp only at h
      rw [if_neg (by simp)] at h
      split at h
      · rename_i hall
        cases h
        exact ⟨iff_of_true rfl ⟨hany, hall⟩, absurd rfl⟩
      · rename_i hall
        cases h
        exact ⟨iff_of_false (by simp) fun hc => hall hc.2, fun _ => iff_of_true rfl hany⟩

/-- What a verdict of an attempt rests on. -/
theorem attempt_judgement {portal after : Portal crates} {request : AttemptRequest}
    {response : AttemptResponse} {judgement : Judgement}
    (h : Submissions.attempt portal request = .ok (response, after, some judgement)) :
    ∃ opened comparison, openAttempt portal request = .ok opened ∧
      compareSubmission (opened.context portal request) portal opened.account opened.challenge
        opened.flags opened.submission = .ok comparison ∧
      judgement.outcome = comparison.outcome := by
  unfold Submissions.attempt at h
  split at h
  · cases h
  · obtain ⟨opened, hopened, h⟩ := bind_eq_ok.mp h
    split at h
    · cases h
    · obtain ⟨comparison, hcomparison, h⟩ := bind_eq_ok.mp h
      dsimp only at h
      split at h <;> cases h <;> exact ⟨opened, comparison, hopened, hcomparison, rfl⟩

/-- Who submits for a team is a member. -/
theorem submissionTeamId_member {portal : Portal crates} {userId teamId : ℤ}
    (h : submissionTeamId portal userId = .ok (some teamId)) :
    portal.teamMode = true ∧ ∃ user ∈ members portal (.team teamId), user.id = userId := by
  unfold submissionTeamId at h
  split at h
  · rename_i hmode
    refine ⟨hmode, ?_⟩
    split at h
    · rename_i found hfound
      cases h
      obtain ⟨user, huser, hteam⟩ := Option.bind_eq_some_iff.mp hfound
      have hp := List.find?_some (p := fun u : UserRow =>
        decide (u.id = userId) && decide (u.userType = "user")) (by simpa using huser)
      rw [Bool.and_eq_true, decide_eq_true_eq] at hp
      exact ⟨user, List.mem_filter.mpr ⟨List.mem_of_find?_eq_some huser, by simp [Account.owns, hteam]⟩,
        hp.1⟩
    · cases h
  · cases h

/-- Who submits has matched a flag, and everyone has submitted once they have. -/
theorem attempt_correct_iff {contest after : Contest crates} {request : AttemptRequest}
    {response : AttemptResponse} {judgement : Judgement} {challenge : ChallengeRow} {teamId : ℤ}
    (hchallenge : contest.portal.challenges.find? (·.id = request.challengeId) = some challenge)
    (hlogic : challenge.logic = "team")
    (hteam : submissionTeamId contest.portal request.userId = .ok (some teamId))
    (h : contest.attempt request = .ok (response, after, some judgement)) :
    judgement.outcome = .correct ↔ Matches contest.portal request ∧
      ¬ LeftBehind contest.portal (.team teamId) request.challengeId ∧
      ∀ user ∈ members contest.portal (.team teamId), user.id = request.userId ∨
        user.id ∈ submitters contest.portal (.team teamId) request.challengeId := by
  obtain ⟨⟨⟩, -, h⟩ := bind_eq_ok.mp h
  obtain ⟨⟨response, portal, judged⟩, hattempt, h⟩ := bind_eq_ok.mp h
  cases h
  obtain ⟨opened, comparison, hopened, hcomparison, houtcome⟩ := attempt_judgement hattempt
  obtain ⟨hsubmission, hteam', haccount, hfound, hflags, hne⟩ := openAttempt_eq hopened
  obtain ⟨hmode, hmember⟩ := submissionTeamId_member hteam
  have hteamId : opened.teamId = some teamId := Except.ok.inj (hteam'.symm.trans hteam)
  have hopenedChallenge : opened.challenge = challenge :=
    Option.some.inj (hfound.symm.trans hchallenge)
  have hid : challenge.id = request.challengeId :=
    of_decide_eq_true (List.find?_some
      (p := fun c : ChallengeRow => decide (c.id = request.challengeId)) hchallenge)
  have hcontext : opened.context contest.portal request =
      memberContext contest.portal request.challengeId request.userId := by
    rw [← hid, ← hopenedChallenge]
    rfl
  rw [hteamId] at haccount
  rw [haccount, hcontext, hopenedChallenge, hsubmission] at hcomparison
  rw [houtcome, (compareSubmission_team hne hlogic hmode hcomparison).1, hid,
    ← allMembersSubmitted_iff hmember, hflags, hopenedChallenge, hid]
  rfl

/-! ## A team that has submitted -/

theorem submitters_append {portal after : Portal crates} {account : Account} {challengeId : ℤ}
    {row : SubmissionRow} (h : after.submissions = portal.submissions ++ [row])
    (howns : account.owns row.userId row.teamId = true) (hid : row.challengeId = challengeId)
    (htype : row.submissionType = "partial") :
    submitters after account challengeId =
      submitters portal account challengeId ++ row.userId.toList := by
  have hrow : [row].filterMap SubmissionRow.userId = row.userId.toList := by
    cases hu : row.userId <;> simp [hu]
  rw [submitters, submitters, storedPartials, storedPartials, h, List.filter_append,
    List.filterMap_append]
  congr 1
  rw [← hrow]
  simp [howns, hid, htype]

theorem hasSolved_append {portal after : Portal crates} {account : Account} {challengeId : ℤ}
    {rows : List SolveRow} (h : after.solves = portal.solves ++ rows) :
    hasSolved after account challengeId = (hasSolved portal account challengeId ||
      rows.any fun row => account.owns row.userId row.teamId && row.challengeId = challengeId) := by
  rw [hasSolved_eq, hasSolved_eq, h, List.any_append]

/-- The members of a team submit to a challenge of the logic `team`. -/
structure TeamRun (portal : Portal crates) (teamId challengeId : ℤ)
    (requests : List AttemptRequest) : Prop where
  challenge : ∃ challenge, portal.challenges.find? (·.id = challengeId) = some challenge ∧
    challenge.logic = "team"
  teamMode : portal.teamMode = true
  submits : ∀ request ∈ requests, Submits portal (.team teamId) challengeId request ∧
    Matches portal request

theorem matches_same {portal after : Portal crates} (h : SameChallenge portal after)
    (request : AttemptRequest) : Matches after request ↔ Matches portal request := by
  unfold Matches AttemptRequest.matchesFor
  rw [h.flagsOf, h.memberContext]

theorem TeamRun.next {portal after : Portal crates} {teamId challengeId : ℤ}
    {request : AttemptRequest} {requests : List AttemptRequest}
    (h : TeamRun portal teamId challengeId (request :: requests))
    (hsame : SameChallenge portal after) : TeamRun after teamId challengeId requests := by
  obtain ⟨challenge, hfound, hlogic⟩ := h.challenge
  refine ⟨⟨challenge, by rw [hsame.challenges]; exact hfound, hlogic⟩,
    hsame.teamMode.trans h.teamMode, fun request' hrequest => ?_⟩
  obtain ⟨hsubmits, hmatches⟩ := h.submits request' (List.mem_cons_of_mem request hrequest)
  exact ⟨hsame.submits hsubmits, (matches_same hsame request').mpr hmatches⟩

theorem submits_team {portal : Portal crates} {teamId challengeId : ℤ}
    {request : AttemptRequest} (h : Submits portal (.team teamId) challengeId request) :
    submissionTeamId portal request.userId = .ok (some teamId) := by
  obtain ⟨found, hteam, haccount⟩ := h.member
  cases found with
  | none => cases haccount
  | some id =>
      cases haccount
      exact hteam

theorem submits_member {portal : Portal crates} {teamId challengeId : ℤ}
    {request : AttemptRequest} (h : Submits portal (.team teamId) challengeId request) :
    ∃ user ∈ members portal (.team teamId), user.id = request.userId :=
  (submissionTeamId_member (submits_team h)).2

theorem submits_teamMode {portal : Portal crates} {teamId challengeId : ℤ}
    {request : AttemptRequest} (h : Submits portal (.team teamId) challengeId request) :
    portal.teamMode = true :=
  (submissionTeamId_member (submits_team h)).1

/-- What one submission of a member does: it solves the challenge, or it is stored. -/
theorem judgedAttempt_team {portal after : Portal crates} {teamId challengeId : ℤ}
    {request : AttemptRequest} {requests : List AttemptRequest}
    (hrun : TeamRun portal teamId challengeId (request :: requests))
    (hnobody : ¬ LeftBehind portal (.team teamId) challengeId)
    (h : judgedAttempt request portal = some after) :
    SameChallenge portal after ∧ (hasSolved after (.team teamId) challengeId = true ∨
      submitters after (.team teamId) challengeId =
        submitters portal (.team teamId) challengeId ++ [request.userId] ∧
      ∃ user ∈ members portal (.team teamId), user.id ≠ request.userId ∧
        user.id ∉ submitters portal (.team teamId) challengeId) := by
  obtain ⟨challenge, hfound, hlogic⟩ := hrun.challenge
  obtain ⟨hsubmits, hmatches⟩ := hrun.submits request List.mem_cons_self
  obtain ⟨hsame, comparison, team, howns, hne, hid, hcomparison, hsubmissions, hsolves⟩ :=
    judgedAttempt_compares hsubmits hfound h
  refine ⟨hsame, ?_⟩
  rw [hasSolved_append hsolves]
  cases hsolved : hasSolved portal (.team teamId) challengeId with
  | true => exact .inl rfl
  | false =>
      have hany : (flagsOf portal challengeId).any (matchesFlag
          (memberContext portal challengeId request.userId) (trim request.submission)) = true := by
        rw [← hsubmits.challenge]
        exact hmatches
      obtain ⟨hcorrect, hkept⟩ := compareSubmission_team hne hlogic hrun.teamMode hcomparison
      rw [hid] at hcorrect
      by_cases houtcome : comparison.outcome = .correct
      · left
        simp [houtcome, howns]
      · right
        have hpartially := (hkept houtcome).mpr hany
        rw [hsolved, hpartially] at hsubmissions
        refine ⟨submitters_append hsubmissions howns rfl rfl, ?_⟩
        by_contra hnone
        push Not at hnone
        refine houtcome (hcorrect.mpr ⟨hany, (allMembersSubmitted_iff (submits_member hsubmits)).mpr
          ⟨hnobody, fun user huser => ?_⟩⟩)
        exact or_iff_not_imp_left.mpr (hnone user huser)

/-- A solved challenge stays solved. -/
theorem run_solves {portal after : Portal crates} {teamId challengeId : ℤ}
    {requests : List AttemptRequest} (hrun : TeamRun portal teamId challengeId requests)
    (hsolved : hasSolved portal (.team teamId) challengeId = true)
    (h : run judgedAttempt requests portal = some after) :
    hasSolved after (.team teamId) challengeId = true := by
  induction requests generalizing portal with
  | nil =>
      cases h
      exact hsolved
  | cons request requests ih =>
      obtain ⟨mid, hmid, h⟩ := Option.bind_eq_some_iff.mp h
      obtain ⟨challenge, hfound, -⟩ := hrun.challenge
      obtain ⟨hsame, comparison, team, -, -, -, -, -, hsolves⟩ :=
        judgedAttempt_compares (hrun.submits request List.mem_cons_self).1 hfound hmid
      refine ih (hrun.next hsame) ?_ h
      rw [hasSolved_append hsolves, hsolved, Bool.true_or]

/-- **A team that has submitted has solved the challenge**, where nobody is left
behind. -/
theorem run_completes {portal after : Portal crates} {teamId challengeId : ℤ}
    {requests : List AttemptRequest} (hrun : TeamRun portal teamId challengeId requests)
    (hnobody : ¬ LeftBehind portal (.team teamId) challengeId) (hne : requests ≠ [])
    (hcover : ∀ user ∈ members portal (.team teamId),
      user.id ∈ submitters portal (.team teamId) challengeId ∨
        ∃ request ∈ requests, request.userId = user.id)
    (h : run judgedAttempt requests portal = some after) :
    hasSolved after (.team teamId) challengeId = true := by
  induction requests generalizing portal with
  | nil => exact absurd rfl hne
  | cons request requests ih =>
      obtain ⟨mid, hmid, h⟩ := Option.bind_eq_some_iff.mp h
      obtain ⟨hsame, hsolved | ⟨hstored, user, huser, hother, hmissing⟩⟩ :=
        judgedAttempt_team hrun hnobody hmid
      · exact run_solves (hrun.next hsame) hsolved h
      · have hmembers : members mid (.team teamId) = members portal (.team teamId) := by
          rw [members, members, hsame.users]
        refine ih (hrun.next hsame) ?_ ?_ ?_ h
        · rintro ⟨id, hid, hnone⟩
          rw [hstored, List.mem_append, List.mem_singleton] at hid
          rw [hmembers] at hnone
          rcases hid with hid | rfl
          · exact hnobody ⟨id, hid, hnone⟩
          · obtain ⟨member, hmember, heq⟩ :=
              submits_member (hrun.submits request List.mem_cons_self).1
            exact hnone member hmember heq
        · rintro rfl
          obtain hin | ⟨request', hrequest, heq⟩ := hcover user huser
          · exact hmissing hin
          · rw [List.mem_singleton.mp hrequest] at heq
            exact hother heq.symm
        · rw [hmembers, hstored]
          intro member hmember
          obtain hin | ⟨request', hrequest, heq⟩ := hcover member hmember
          · exact .inl (List.mem_append_left _ hin)
          · rcases List.mem_cons.mp hrequest with rfl | hrequest
            · exact .inl (List.mem_append_right _ (List.mem_singleton.mpr heq.symm))
            · exact .inr ⟨request', hrequest, heq⟩

/-- **Challenges of the logic `team`.**  In a contest however it came about, an attempt
is judged correct exactly when its string matches a flag and every member who may
submit has submitted, unless that is so while a stored submission is from somebody who
is no member, or a member without one has no valid credential.  Where neither is the
case, a team whose members submit what matches solves the challenge. -/
theorem team_verdict {contest : Contest crates} {teamId challengeId : ℤ}
    {challenge : ChallengeRow} (hr : Reach contestStep anyStep ContestMembers contest)
    (hchallenge : contest.portal.challenges.find? (·.id = challengeId) = some challenge)
    (hlogic : challenge.logic = "team") :
    (∀ (request : AttemptRequest) (response : AttemptResponse) (after : Contest crates)
        (judgement : Judgement),
      request.challengeId = challengeId →
      submissionTeamId contest.portal request.userId = .ok (some teamId) →
      contest.attempt request = .ok (response, after, some judgement) →
      ((judgement.outcome = .correct ↔ Matches contest.portal request ∧
          EveryoneSubmitted contest (.team teamId) challengeId request.userId) ↔
        ¬ (Matches contest.portal request ∧
          EveryoneSubmitted contest (.team teamId) challengeId request.userId ∧
          (LeftBehind contest.portal (.team teamId) challengeId ∨
            Barred contest (.team teamId) challengeId request.userId)))) ∧
    ∀ (requests : List AttemptRequest) (after : Portal crates),
      requests ≠ [] →
      (∀ request ∈ requests, Submits contest.portal (.team teamId) challengeId request ∧
        Matches contest.portal request) →
      (∀ user ∈ members contest.portal (.team teamId), contest.canSubmit user = true →
        user.id ∈ submitters contest.portal (.team teamId) challengeId ∨
          ∃ request ∈ requests, request.userId = user.id) →
      ¬ LeftBehind contest.portal (.team teamId) challengeId →
      (∀ request ∈ requests, ¬ Barred contest (.team teamId) challengeId request.userId) →
      run judgedAttempt requests contest.portal = some after →
      hasSolved after (.team teamId) challengeId = true := by
  have hmembers := members_reach hr
  have hvalid {user : UserRow} (huser : user ∈ members contest.portal (.team teamId)) :
      contest.canSubmit user = contest.credentialValid user.id := by
    obtain ⟨huser, hteam⟩ := List.mem_filter.mp huser
    have hsome : user.teamId.isSome := by
      rw [of_decide_eq_true hteam]
      rfl
    rw [Contest.canSubmit, hmembers.participant user huser hsome]
    rfl
  constructor
  · rintro request response after judgement rfl hteam h
    rw [attempt_correct_iff hchallenge hlogic hteam h]
    have hevery : (∀ user ∈ members contest.portal (.team teamId), user.id = request.userId ∨
        user.id ∈ submitters contest.portal (.team teamId) request.challengeId) ↔
        EveryoneSubmitted contest (.team teamId) request.challengeId request.userId ∧
          ¬ Barred contest (.team teamId) request.challengeId request.userId := by
      constructor
      · refine fun hall => ⟨fun user huser _ => hall user huser, ?_⟩
        rintro ⟨user, huser, -, hother, hmissing⟩
        exact (hall user huser).elim hother hmissing
      · rintro ⟨hevery, hbarred⟩ user huser
        by_cases hcan : contest.canSubmit user = true
        · exact hevery user huser hcan
        · rw [hvalid huser, Bool.not_eq_true] at hcan
          by_contra hmissing
          push Not at hmissing
          exact hbarred ⟨user, huser, hcan, hmissing.1, hmissing.2⟩
    rw [hevery]
    tauto
  · intro requests after hne hsubmits hcover hnobody hbarred h
    obtain ⟨request, hrequest⟩ := List.exists_mem_of_ne_nil requests hne
    refine run_completes ⟨⟨challenge, hchallenge, hlogic⟩,
      submits_teamMode (hsubmits request hrequest).1, hsubmits⟩ hnobody hne (fun user huser => ?_) h
    by_cases hcan : contest.canSubmit user = true
    · exact hcover user huser hcan
    · rw [hvalid huser, Bool.not_eq_true] at hcan
      by_contra hmissing
      push Not at hmissing
      exact hbarred request hrequest
        ⟨user, huser, hcan, fun heq => hmissing.2 request hrequest heq.symm, hmissing.1⟩

/-! ## A team of three -/

/-- The members 7, 8 and 9 of the team 1, another team, and a challenge with the flag
`A`. -/
def teamOfThree : Contest plainCrates where
  portal :=
    { challenges := [⟨1, some "standard", "visible", "team", none, "public", none⟩]
      flags := [(saveFlag plainCrates 1 1 1 "static" "A" .null "public").toOption].filterMap id
      userChallengeFlags := []
      submissions := []
      solves := []
      flagSharingEvents := []
      users := [⟨7, "user", some 1⟩, ⟨8, "user", some 1⟩, ⟨9, "user", some 1⟩]
      nextSubmissionId := 1
      nextFlagId := 2
      teamMode := true
      settings := ⟨none, false, 10, "lockout", 300⟩
      secretKey := "key" }
  teams := [⟨1, false, false⟩, ⟨2, false, false⟩]
  profiles := [⟨7, false, false, false⟩, ⟨8, false, false, false⟩, ⟨9, false, false, false⟩]
  scoring := []
  schedule := ⟨0, 0, false⟩

theorem teamOfThree_members : ContestMembers teamOfThree := by
  refine ⟨by decide, fun user huser _ => ?_⟩
  simp only [teamOfThree, List.mem_cons, List.not_mem_nil, or_false] at huser
  rcases huser with rfl | rfl | rfl <;> rfl

/-- The verdict of an attempt. -/
def Contest.verdict (contest : Contest crates) (request : AttemptRequest) : Option FlagResult :=
  match contest.attempt request with
  | .ok (_, _, judgement) => judgement.map Judgement.outcome
  | .error _ => none

theorem Contest.verdict_eq {contest : Contest crates} {request : AttemptRequest}
    {outcome : FlagResult} (h : contest.verdict request = some outcome) :
    ∃ response after judgement, contest.attempt request = .ok (response, after, some judgement) ∧
      judgement.outcome = outcome := by
  unfold verdict at h
  split at h
  · rename_i response after judgement hattempt
    obtain ⟨judgement, rfl, hj⟩ := Option.map_eq_some_iff.mp h
    exact ⟨response, after, judgement, hattempt, hj⟩
  · cases h

/-- The last of the three members is judged correct. -/
theorem team_verdict_last : ∃ contest response after judgement,
    run contestStep [.attempt (memberSubmits 7 "A"), .attempt (memberSubmits 8 "A")]
      teamOfThree = some contest ∧
    contest.attempt (memberSubmits 9 "A") = .ok (response, after, some judgement) ∧
    judgement.outcome = .correct := by
  have hrun : ((run contestStep [.attempt (memberSubmits 7 "A"), .attempt (memberSubmits 8 "A")]
      teamOfThree).any fun contest => (contest.verdict (memberSubmits 9 "A")).isSome &&
        decide (Matches contest.portal (memberSubmits 9 "A")) &&
        decide (EveryoneSubmitted contest (.team 1) 1 9) &&
        decide (¬ LeftBehind contest.portal (.team 1) 1) &&
        decide (¬ Barred contest (.team 1) 1 9) &&
        decide (submissionTeamId contest.portal 9 = .ok (some 1)) &&
        (contest.portal.challenges.find? (·.id = 1)).any (·.logic = "team")) = true := by
    decide +kernel
  obtain ⟨contest, hcontest, hfacts⟩ := (Option.any_eq_true _ _).mp hrun
  simp only [Bool.and_eq_true, decide_eq_true_eq] at hfacts
  obtain ⟨⟨⟨⟨⟨⟨hjudged, hmatches⟩, hevery⟩, hnobody⟩, hbarred⟩, hteam⟩, hlogic⟩ := hfacts
  obtain ⟨outcome, houtcome⟩ := Option.isSome_iff_exists.mp hjudged
  obtain ⟨response, after, judgement, hattempt, -⟩ := Contest.verdict_eq houtcome
  obtain ⟨challenge, hchallenge, hlogic⟩ := (Option.any_eq_true _ _).mp hlogic
  refine ⟨contest, response, after, judgement, hcontest, hattempt, ?_⟩
  exact (((team_verdict (reach_of_run _ teamOfThree_members hcontest) hchallenge
    (of_decide_eq_true hlogic)).1 (memberSubmits 9 "A") response after judgement rfl hteam
    hattempt).mpr fun hblocked => hblocked.2.2.elim hnobody hbarred).mpr ⟨hmatches, hevery⟩

/-- The member 9 submits and is moved to another team: the two who are left have both
submitted, and the verdict is partial. -/
theorem moved_member_blocks_team :
    ¬ ∀ (crates : Crates) (contest after : Contest crates) (teamId challengeId : ℤ)
      (challenge : ChallengeRow) (request : AttemptRequest) (response : AttemptResponse)
      (judgement : Judgement), Reach contestStep anyStep ContestMembers contest →
      contest.portal.challenges.find? (·.id = challengeId) = some challenge →
      challenge.logic = "team" → request.challengeId = challengeId →
      submissionTeamId contest.portal request.userId = .ok (some teamId) →
      contest.attempt request = .ok (response, after, some judgement) →
      (judgement.outcome = .correct ↔ Matches contest.portal request ∧
        EveryoneSubmitted contest (.team teamId) challengeId request.userId) := by
  have hrun : ((run contestStep [.attempt (memberSubmits 9 "A"),
      .operation (.updateUser 9 { teamId := some (some 2) } true), .attempt (memberSubmits 7 "A")]
      teamOfThree).any fun contest =>
        contest.verdict (memberSubmits 8 "A") = some .partially &&
        decide (Matches contest.portal (memberSubmits 8 "A")) &&
        decide (EveryoneSubmitted contest (.team 1) 1 8) &&
        decide (submissionTeamId contest.portal 8 = .ok (some 1)) &&
        (contest.portal.challenges.find? (·.id = 1)).any (·.logic = "team")) = true := by
    decide +kernel
  obtain ⟨contest, hcontest, hfacts⟩ := (Option.any_eq_true _ _).mp hrun
  simp only [Bool.and_eq_true, decide_eq_true_eq] at hfacts
  obtain ⟨⟨⟨⟨hverdict, hmatches⟩, hevery⟩, hteam⟩, hlogic⟩ := hfacts
  obtain ⟨response, after, judgement, hattempt, houtcome⟩ := Contest.verdict_eq hverdict
  obtain ⟨challenge, hchallenge, hlogic⟩ := (Option.any_eq_true _ _).mp hlogic
  intro hall
  have := (hall plainCrates contest after 1 1 challenge (memberSubmits 8 "A") response judgement
    (reach_of_run _ teamOfThree_members hcontest) hchallenge (of_decide_eq_true hlogic) rfl hteam
    hattempt).mpr ⟨hmatches, hevery⟩
  rw [houtcome] at this
  cases this

end CtfZone.Contests
