/-
# Reported attempts

The page of a challenge shows how many attempts an account has made (`challenge_attempt_count`),
beside the limit that `attempt` enforces.  Both count in the same window, but not the same rows:
the limit counts what was incorrect, and the page everything that was evaluated, so correct and
partial submissions as well.

* `challengeAttemptCount` : the number that is shown;
* `RejectedByLimit` : a further attempt is turned away;
* `Agrees` : the two say the same, and `reported_attempts_agree_iff` : when they do.
-/
import CtfZone.SubmissionHistory

namespace CtfZone.Submissions

open Journal

variable {crates : Crates}

/-! ## What is shown -/

/-- The account of a user, as the page of a challenge has it. -/
def detailAccount (portal : Portal crates) (userId : ℤ) : Option Account :=
  if portal.teamMode then
    ((portal.users.find? (·.id = userId)).bind UserRow.teamId).map .team
  else some (.user userId)

/-- The rows that are counted for an account, since `timeoutSeconds` ago or ever. -/
def inWindow (account : Account) (challengeId : ℤ) (now : Time) (timeoutSeconds : Option ℤ)
    (row : SubmissionRow) : Bool :=
  account.owns row.userId row.teamId && row.challengeId = challengeId &&
    timeoutSeconds.all fun timeout => now - seconds timeout ≤ row.date

/-- `challenge_attempt_count`. -/
def challengeAttemptCount (portal : Portal crates) (account : Account) (challengeId : ℤ)
    (now : Time) (timeoutSeconds : Option ℤ) : ℕ :=
  portal.submissions.countP fun row =>
    inWindow account challengeId now timeoutSeconds row &&
      ! ["discard", "ratelimited"].contains row.submissionType

/-- The window of the limits, in seconds. -/
def Settings.window (settings : Settings) : Option ℤ :=
  if settings.maxBehavior = "timeout" then some settings.maxTimeout else none

/-- The attempts that `detail` shows. -/
def detailAttempts (portal : Portal crates) (userId challengeId : ℤ) (now : Time) : ℕ :=
  match detailAccount portal userId with
  | some account => challengeAttemptCount portal account challengeId now portal.settings.window
  | none => 0

/-! ## What is enforced -/

/-- The attempts that the limit counts. -/
def enforcedAttempts (portal : Portal crates) (account : Account) (challengeId : ℤ) (now : Time) :
    ℕ :=
  portal.submissions.countP fun row =>
    inWindow account challengeId now portal.settings.window row &&
      row.submissionType = "incorrect"

/-- A response of the limit of a challenge. -/
def AttemptResponse.notAccepted (response : AttemptResponse) : Bool :=
  response.message.any fun message => "Not accepted".toList.isPrefixOf message.toList

/-- A further attempt is turned away by the limit of the challenge. -/
def RejectedByLimit (portal : Portal crates) (request : AttemptRequest) (opened : OpenAttempt) :
    Prop :=
  ∃ answer ∈ limitReached portal request opened, answer.1.notAccepted = true

/-- The two say the same of an account that goes on to a further attempt. -/
structure Agrees (portal : Portal crates) (request : AttemptRequest) (opened : OpenAttempt)
    (maxAttempts : ℤ) : Prop where
  count : detailAttempts portal request.userId opened.challenge.id request.now =
    enforcedAttempts portal opened.account opened.challenge.id request.now
  exhausted : maxAttempts ≤ detailAttempts portal request.userId opened.challenge.id request.now ↔
    RejectedByLimit portal request opened

section Limits

variable {portal : Portal crates} {request : AttemptRequest} {opened : OpenAttempt}

theorem length_incorrectSubmissions :
    (incorrectSubmissions portal opened.account (some opened.challenge.id)
      (if portal.settings.maxBehavior = "timeout" then
        some (request.now - seconds portal.settings.maxTimeout) else none)).length =
      enforcedAttempts portal opened.account opened.challenge.id request.now := by
  rw [enforcedAttempts, List.countP_eq_length_filter, incorrectSubmissions]
  congr 2
  funext row
  rw [inWindow, Settings.window]
  by_cases htimeout : portal.settings.maxBehavior = "timeout"
  · rw [if_pos htimeout, if_pos htimeout, Bool.eq_iff_iff]
    simp only [Option.all_some, Bool.and_eq_true, decide_eq_true_eq]
    tauto
  · rw [if_neg htimeout, if_neg htimeout, Bool.eq_iff_iff]
    simp only [Option.all_some, Option.all_none, Bool.and_eq_true, decide_eq_true_eq]
    tauto

/-- The limit of the minute has a message of its own. -/
theorem not_notAccepted (wait : ℤ) (code : ℕ) (status : String) :
    (⟨code, status, some ("You're submitting flags too fast. Try again in " ++ toString wait ++
      " seconds.")⟩ : AttemptResponse).notAccepted = false := by
  show "Not accepted".toList.isPrefixOf _ = false
  rw [String.toList_append, String.toList_append]
  rfl

/-- **A further attempt is turned away exactly when the incorrect ones reach the limit.** -/
theorem rejectedByLimit_iff {maxAttempts : ℤ}
    (hmax : opened.challenge.maxAttempts = some maxAttempts) (hpos : 0 < maxAttempts) :
    RejectedByLimit portal request opened ↔
      maxAttempts ≤ enforcedAttempts portal opened.account opened.challenge.id request.now := by
  rw [← length_incorrectSubmissions, RejectedByLimit, limitReached, hmax, Option.getD_some]
  simp only [decide_eq_true hpos, Bool.true_and, decide_eq_true_eq]
  constructor
  · rintro ⟨answer, hanswer, haccepted⟩
    by_contra hfew
    rw [if_neg hfew] at hanswer
    split at hanswer
    · obtain rfl := Option.some.inj hanswer
      rw [not_notAccepted] at haccepted
      cases haccepted
    · cases hanswer
  · intro hmany
    rw [if_pos hmany]
    by_cases htimeout : portal.settings.maxBehavior = "timeout"
    · rw [if_pos htimeout]
      refine ⟨_, rfl, ?_⟩
      show "Not accepted".toList.isPrefixOf _ = true
      rw [String.toList_append, String.toList_append]
      rfl
    · rw [if_neg htimeout]
      exact ⟨_, rfl, by decide⟩

end Limits

/-! ## When they agree -/

/-- An attempt is made for the account that the page is shown to. -/
theorem detailAccount_eq {portal : Portal crates} {request : AttemptRequest}
    {opened : OpenAttempt} (hids : (portal.users.map UserRow.id).Nodup)
    (hopen : openAttempt portal request = .ok opened) :
    detailAccount portal request.userId = some opened.account := by
  simp only [openAttempt, bind_eq_ok, pure, Except.pure, Except.ok.injEq] at hopen
  obtain ⟨_, -, teamId, hteam, _, -, _, -, _, -, _, -, _, -, _, -, rfl⟩ := hopen
  unfold submissionTeamId at hteam
  unfold detailAccount
  by_cases hmode : portal.teamMode = true
  · rw [if_pos hmode] at hteam ⊢
    rcases hfind : portal.users.find? fun user =>
      user.id = request.userId && user.userType = "user" with _ | user
    · rw [hfind] at hteam
      cases hteam
    · -- the row of the user is the only one with the id
      have hkeys := List.find?_some hfind
      rw [Bool.and_eq_true, decide_eq_true_eq] at hkeys
      have hmem := List.mem_of_find?_eq_some hfind
      have hrow : portal.users.find? (·.id = request.userId) = some user := by
        rcases hother : portal.users.find? (·.id = request.userId) with _ | other
        · exact absurd (decide_eq_true hkeys.1) (List.find?_eq_none.mp hother user hmem)
        · have hid : other.id = request.userId := by
            have := List.find?_some hother
            exact of_decide_eq_true this
          rw [hother, List.inj_on_of_nodup_map hids (List.mem_of_find?_eq_some hother) hmem
            (hid.trans hkeys.1.symm)]
      rw [hfind, Option.bind_some] at hteam
      rw [hrow, Option.bind_some]
      rcases hid : user.teamId with _ | id
      · rw [hid] at hteam
        cases hteam
      · rw [hid] at hteam
        obtain rfl := Except.ok.inj hteam
        rfl
  · rw [if_neg hmode] at hteam ⊢
    obtain rfl := Except.ok.inj hteam
    rfl

/-- Two counts of one list, the second of a kind of what the first one counts. -/
theorem countP_eq_iff {α : Type} {p q : α → Bool} (hsub : ∀ a, q a = true → p a = true)
    (l : List α) : l.countP p = l.countP q ↔ ∀ a ∈ l, p a = true → q a = true := by
  induction l with
  | nil => simp
  | cons a l ih =>
    have hle : l.countP q ≤ l.countP p := List.countP_mono_left fun b _ => hsub b
    rw [List.countP_cons, List.countP_cons, List.forall_mem_cons, ← ih]
    by_cases hp : p a = true
    · by_cases hq : q a = true
      · simp [hp, hq]
      · simp only [hp, hq, if_true, Bool.false_eq_true, if_false, true_imp_iff, false_and,
          iff_false]
        omega
    · have hq : ¬ q a = true := fun hq => hp (hsub a hq)
      simp [hp, hq]

/-- **The attempts that are shown are those that are enforced exactly when every submission of
the account on the challenge in the window was incorrect, discarded or limited.** -/
theorem reported_attempts_agree_iff {portal : Portal crates} {request : AttemptRequest}
    {opened : OpenAttempt} {maxAttempts : ℤ} (hids : (portal.users.map UserRow.id).Nodup)
    (hopen : openAttempt portal request = .ok opened)
    (hmax : opened.challenge.maxAttempts = some maxAttempts) (hpos : 0 < maxAttempts) :
    Agrees portal request opened maxAttempts ↔ ∀ row ∈ portal.submissions,
      inWindow opened.account opened.challenge.id request.now portal.settings.window row = true →
        row.submissionType ∈ ["incorrect", "discard", "ratelimited"] := by
  have hshown : detailAttempts portal request.userId opened.challenge.id request.now =
      challengeAttemptCount portal opened.account opened.challenge.id request.now
        portal.settings.window := by
    rw [detailAttempts, detailAccount_eq hids hopen]
  have hcount : challengeAttemptCount portal opened.account opened.challenge.id request.now
      portal.settings.window =
        enforcedAttempts portal opened.account opened.challenge.id request.now ↔
      ∀ row ∈ portal.submissions,
        inWindow opened.account opened.challenge.id request.now portal.settings.window row = true →
          row.submissionType ∈ ["incorrect", "discard", "ratelimited"] := by
    rw [challengeAttemptCount, enforcedAttempts, countP_eq_iff]
    · refine forall_congr' fun row => forall_congr' fun _ => ?_
      simp only [Bool.and_eq_true, Bool.not_eq_true', decide_eq_true_eq,
        List.contains_eq_mem, decide_eq_false_iff_not, List.mem_cons, List.not_mem_nil, or_false]
      constructor
      · intro h hin
        by_cases hskip : row.submissionType = "discard" ∨ row.submissionType = "ratelimited"
        · exact .inr hskip
        · exact .inl (h ⟨hin, hskip⟩).2
      · rintro h ⟨hin, hskip⟩
        exact ⟨hin, (h hin).resolve_right hskip⟩
    · intro row hrow
      rw [Bool.and_eq_true, decide_eq_true_eq] at hrow
      rw [hrow.1, hrow.2]
      rfl
  constructor
  · intro h
    exact hcount.mp (hshown.symm.trans h.count)
  · intro h
    have heq := hshown.trans (hcount.mpr h)
    refine ⟨heq, ?_⟩
    rw [heq]
    exact (rejectedByLimit_iff hmax hpos).symm

/-! ## A challenge with one try -/

/-- Both flags are required, and there is one try. -/
def oneTry : Portal plainCrates :=
  { twoFlags.portal with
    challenges := [⟨1, some "standard", "visible", "all", some 1, "public", none⟩] }

/-- The user submits a string. -/
def tries (submission : String) : AttemptRequest := ⟨7, false, false, 1, submission, 0⟩

/-- The portal after a submission. -/
def tried (submission : String) : Portal plainCrates :=
  ((attempt oneTry (tries submission)).toOption.map fun answer => answer.2.1).getD oneTry

theorem ok_of_toOption {ε α : Type} {x : Except ε α} {a : α} (h : x.toOption = some a) :
    x = .ok a := by
  rcases x with e | b
  · cases h
  · rw [Option.some.inj h]

theorem reported_attempts_agree_tried : ∃ opened,
    openAttempt (tried "C") (tries "A") = .ok opened ∧
      Agrees (tried "C") (tries "A") opened 1 := by
  have hopen : ((openAttempt (tried "C") (tries "A")).toOption.any fun opened =>
      decide (opened.challenge.maxAttempts = some 1)) = true := by decide +kernel
  obtain ⟨opened, hopened, hmax⟩ := (Option.any_eq_true _ _).mp hopen
  have hok := ok_of_toOption hopened
  have hall : ((tried "C").submissions.all fun row =>
      ["incorrect", "discard", "ratelimited"].contains row.submissionType) = true := by
    decide +kernel
  refine ⟨opened, hok, ?_⟩
  refine (reported_attempts_agree_iff (by decide +kernel) hok (of_decide_eq_true hmax)
    (by decide)).mpr fun row hrow _ => ?_
  exact List.contains_iff_mem.mp (List.all_eq_true.mp hall row hrow)

/-- The user submits one of two flags.  The page shows one attempt of one, and the next
submission is accepted. -/
theorem partial_exhausts_the_page :
    ¬ ∀ (crates : Crates) (portal : Portal crates) (request : AttemptRequest)
      (opened : OpenAttempt) (maxAttempts : ℤ), (portal.users.map UserRow.id).Nodup →
        openAttempt portal request = .ok opened →
        opened.challenge.maxAttempts = some maxAttempts → 0 < maxAttempts →
        (maxAttempts ≤ detailAttempts portal request.userId opened.challenge.id request.now ↔
          RejectedByLimit portal request opened) := by
  intro h
  have hopen : ((openAttempt (tried "A") (tries "B")).toOption.any fun opened =>
      decide (opened.challenge.maxAttempts = some 1) &&
        decide (1 ≤ detailAttempts (tried "A") 7 opened.challenge.id 0) &&
        decide (enforcedAttempts (tried "A") opened.account opened.challenge.id 0 = 0)) = true := by
    decide +kernel
  obtain ⟨opened, hopened, hfacts⟩ := (Option.any_eq_true _ _).mp hopen
  simp only [Bool.and_eq_true, decide_eq_true_eq] at hfacts
  obtain ⟨⟨hmax, hshown⟩, henforced⟩ := hfacts
  have hok := ok_of_toOption hopened
  have hrejected := (h plainCrates (tried "A") (tries "B") opened 1 (by decide +kernel) hok hmax
    (by decide)).mp (by exact_mod_cast hshown)
  rw [rejectedByLimit_iff hmax (by decide)] at hrejected
  have hnone : enforcedAttempts (tried "A") opened.account opened.challenge.id
      (tries "B").now = 0 := henforced
  rw [hnone] at hrejected
  exact absurd hrejected (by decide)

end CtfZone.Submissions
