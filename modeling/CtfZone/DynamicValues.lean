/-
# Values of dynamic challenges

The value of a dynamic challenge is stored beside its parameters.  An attempt that solves the
challenge counts the solves of visible accounts, its own included, under a lock of the
challenge that it keeps until the commit; what an administrator removes, hides or bans is
counted at the next solve.

* `Consistent` : the stored value is that of the parameters and the solves;
* `Tracks` : what attempts keep, from a moment at which nothing is in flight;
* `dynamic_values` : the next solve makes the value right, and attempts keep it so.
-/
import CtfZone.CompetitionTime

namespace CtfZone.Contests

open Journal Runs Tables Submissions

variable {crates : Crates}

/-- The scoring of a challenge without its value. -/
def ScoringRow.params (row : ScoringRow) : ScoringRow := { row with value := none }

/-- The value of a challenge changes with its solves. -/
def ScoringRow.isDynamic (row : ScoringRow) : Bool := row.function.getD "static" ≠ "static"

/-- The stored value of a dynamic challenge is that of its parameters and its solves. -/
def Consistent (contest : Contest crates) (challengeId : ℤ) : Prop :=
  ∀ row, contest.scoringOf challengeId = some row → row.isDynamic = true →
    row.value = row.recalculated (contest.visibleSolves challengeId)

/-- The solves of a challenge. -/
def solvesOf (contest : Contest crates) (challengeId : ℤ) : ℕ :=
  (contest.portal.solves.filter (·.challengeId = challengeId)).length

/-- Nothing is in flight. -/
def Service.Quiet (s : Service crates) : Prop :=
  (∀ attempt ∈ s.attempts, attempt.ended = true) ∧ s.edits = []

/-- Nothing but submissions happens. -/
def SubmissionsOnly (_ : Service crates) : ServiceLabel → Prop
  | .tick _ | .submit _ | .attempt .. => True
  | _ => False

/-! ## Counting -/

theorem recalculated_params (row : ScoringRow) (solveCount : ℕ) :
    row.recalculated solveCount = row.params.recalculated solveCount := rfl

theorem recalculated_isSome {row : ScoringRow} (h : row.isDynamic = true) (solveCount : ℕ) :
    (row.recalculated solveCount).isSome = true := by
  have hfunction : row.function.getD "static" ≠ "static" := of_decide_eq_true h
  unfold ScoringRow.recalculated
  dsimp only
  rw [if_neg hfunction]
  rfl

/-- Visible accounts are the same. -/
structure SameVisible (contest after : Contest crates) : Prop where
  users : after.portal.users = contest.portal.users
  teams : after.teams = contest.teams
  profiles : after.profiles = contest.profiles
  teamMode : after.portal.teamMode = contest.portal.teamMode

theorem SameVisible.visible {contest after : Contest crates} (h : SameVisible contest after) :
    after.visible = contest.visible := by
  funext account
  cases account with
  | user id =>
      unfold Contest.visible Contest.user
      dsimp only
      rw [h.users, h.profiles]
  | team id =>
      unfold Contest.visible Contest.team
      dsimp only
      rw [h.teams]

/-- The rows of a challenge by visible accounts, among some rows. -/
def visibleAmong (contest : Contest crates) (rows : List SolveRow) (challengeId : ℤ) : ℕ :=
  (rows.filter fun solve => solve.challengeId = challengeId &&
    (Contest.accountOf contest.portal.teamMode solve).any contest.visible).length

theorem visibleSolves_eq (contest : Contest crates) (challengeId : ℤ) :
    contest.visibleSolves challengeId = visibleAmong contest contest.portal.solves challengeId := rfl

theorem SameVisible.among {contest after : Contest crates} (h : SameVisible contest after)
    (rows : List SolveRow) (challengeId : ℤ) :
    visibleAmong after rows challengeId = visibleAmong contest rows challengeId := by
  unfold visibleAmong
  rw [h.visible, h.teamMode]

theorem visibleAmong_append (contest : Contest crates) (rows rows' : List SolveRow)
    (challengeId : ℤ) : visibleAmong contest (rows ++ rows') challengeId =
      visibleAmong contest rows challengeId + visibleAmong contest rows' challengeId := by
  unfold visibleAmong
  rw [List.filter_append, List.length_append]

theorem Advances.visible {s : Service crates} {i : ℕ} {a a' : Attempt} {contest : Contest crates}
    (h : Advances s i a contest a') : SameVisible s.contest contest := by
  obtain ⟨hteams, hprofiles, -, husers, -, -, hmode, -⟩ := h.frame
  exact ⟨husers, hteams, hprofiles, hmode⟩

theorem solveRows_challenge {a : Entered} {solve : SolveRow} (h : solve ∈ a.solveRows) :
    a.solves = true ∧ solve.challengeId = a.opened.challenge.id := by
  unfold Entered.solveRows at h
  split at h
  · rename_i hsolves
    rw [List.mem_singleton.mp h]
    exact ⟨hsolves, rfl⟩
  · exact absurd h List.not_mem_nil

/-- What is no solve of the challenge does not count. -/
theorem filter_solveRows {a : Entered} {challengeId : ℤ} (p : SolveRow → Bool)
    (h : ¬ (a.solves = true ∧ a.opened.challenge.id = challengeId)) :
    a.solveRows.filter (fun solve => solve.challengeId = challengeId && p solve) = [] := by
  rw [List.filter_eq_nil_iff]
  intro solve hsolve hp
  obtain ⟨hsolves, hchallenge⟩ := solveRows_challenge hsolve
  rw [Bool.and_eq_true, decide_eq_true_eq] at hp
  exact h ⟨hsolves, hchallenge.symm.trans hp.1⟩

theorem seenBy_visibleSolves (s : Service crates) (a : Entered) (challengeId : ℤ) :
    (s.seenBy a).visibleSolves challengeId =
      s.contest.visibleSolves challengeId + visibleAmong s.contest a.solveRows challengeId := by
  have hsame : SameVisible s.contest (s.seenBy a) := ⟨rfl, rfl, rfl, rfl⟩
  rw [visibleSolves_eq, hsame.among]
  exact visibleAmong_append s.contest s.contest.portal.solves a.solveRows challengeId

theorem commit_visible (s : Service crates) (a : Entered) (value : Option ℤ) :
    SameVisible s.contest (s.commit a value) := by
  obtain ⟨hteams, hprofiles, -, husers, -, -, hmode, -⟩ := commit_frame s a value
  exact ⟨husers, hteams, hprofiles, hmode⟩

/-- After the commit everybody sees what the attempt has seen. -/
theorem commit_visibleSolves (s : Service crates) (a : Entered) (value : Option ℤ)
    (challengeId : ℤ) :
    (s.commit a value).visibleSolves challengeId = (s.seenBy a).visibleSolves challengeId := by
  rw [visibleSolves_eq, (commit_visible s a value).among, commit_solves, visibleAmong_append,
    seenBy_visibleSolves]
  rfl

/-! ## What attempts keep -/

/-- What attempts keep of a challenge, from a moment at which it had been solved `before`
times; `right` says that its value was right. -/
structure Tracks (s : Service crates) (challengeId : ℤ) (params : ScoringRow) (before : ℕ)
    (right : Prop) : Prop where
  same : (s.contest.scoringOf challengeId).map ScoringRow.params = some params
  opened : ∀ attempt ∈ s.attempts, ∀ a ∈ attempt.locks, a.opened.challenge.id = challengeId →
    a.scoring.map ScoringRow.params = some params
  scored : ∀ attempt ∈ s.attempts, ∀ a value, attempt = .scored a value →
    a.opened.challenge.id = challengeId → value = if a.solves then
      params.recalculated ((s.seenBy a).visibleSolves challengeId) else none
  grows : before ≤ solvesOf s.contest challengeId
  value : right ∨ before < solvesOf s.contest challengeId →
    (s.contest.scoringOf challengeId).bind ScoringRow.value =
      params.recalculated (s.contest.visibleSolves challengeId)

theorem scoringOf_update {rows : List ScoringRow} (challengeId : ℤ) (p : ScoringRow → Bool)
    (f : ScoringRow → ScoringRow) (hid : ∀ row, (f row).challengeId = row.challengeId)
    {row : ScoringRow} (h : rows.find? (·.challengeId = challengeId) = some row) :
    (Tables.update p f rows).find? (·.challengeId = challengeId) =
      some (if p row then f row else row) := by
  induction rows with
  | nil => cases h
  | cons first rows ih =>
      have hfirst : (if p first then f first else first).challengeId = first.challengeId := by
        split
        · exact hid first
        · rfl
      show ((if p first then f first else first) :: Tables.update p f rows).find? _ = _
      rw [List.find?_cons] at h ⊢
      rw [hfirst]
      split at h
      · cases h
        rfl
      · exact ih h

/-- A statement that commits nothing leaves solves and scoring as they are. -/
theorem Advances.uncommitted {s : Service crates} {i : ℕ} {a a' : Attempt} {contest : Contest crates}
    (h : Advances s i a contest a') :
    contest.portal.solves = s.contest.portal.solves ∧ contest.scoring = s.contest.scoring ∨
    ∃ e value response, a = .scored e value ∧ contest = s.commit e value ∧
      a' = .committed e value response := by
  cases h with
  | commits => exact .inr ⟨_, _, _, rfl, rfl, rfl⟩
  | _ => exact .inl ⟨rfl, rfl⟩

/-- The scoring an attempt has read is what is stored. -/
theorem Advances.scoring {s : Service crates} {i : ℕ} {a a' : Attempt} {contest : Contest crates}
    (h : Advances s i a contest a') {b : Opened} (hb : a'.locks = some b) :
    a.locks = some b ∨ b.scoring = s.contest.scoringOf b.request.challengeId := by
  cases h with
  | opens after before alone team free reads =>
      cases hb
      exact .inr rfl
  | rejects | limits | ratelimits | previews | loses | violates | commits => cases hb
  | _ => exact .inl hb

/-- The value an attempt is about to store. -/
theorem Advances.scored {s : Service crates} {i : ℕ} {a : Attempt} {contest : Contest crates}
    {e : Entered} {value : Option ℤ} (h : Advances s i a contest (.scored e value)) :
    a = .recorded e ∧ value = if e.solves then
      e.scoring.bind (·.recalculated ((s.seenBy e).visibleSolves e.opened.challenge.id)) else none := by
  cases h with
  | scores computed free => exact ⟨rfl, computed⟩

section Advance

variable {s : Service crates} {i : ℕ} {a a' : Attempt} {contest : Contest crates}
  {challengeId : ℤ} {params : ScoringRow} {before : ℕ} {right : Prop}

/-- A statement that commits nothing keeps what is tracked. -/
theorem Tracks.uncommitted (hs : Tracks s challengeId params before right)
    (ha : s.attempts[i]? = some a) (h : Advances s i a contest a')
    (hsolves : contest.portal.solves = s.contest.portal.solves)
    (hscoring : contest.scoring = s.contest.scoring) :
    Tracks { s with contest, attempts := s.attempts.set i a' } challengeId params before right := by
  have hmem : a ∈ s.attempts := List.mem_of_getElem? ha
  have hsame : contest.scoringOf challengeId = s.contest.scoringOf challengeId := by
    unfold Contest.scoringOf
    rw [hscoring]
  have hcount (solves : List SolveRow) :
      visibleAmong contest solves challengeId = visibleAmong s.contest solves challengeId :=
    h.visible.among solves challengeId
  have hvisible : contest.visibleSolves challengeId = s.contest.visibleSolves challengeId := by
    rw [visibleSolves_eq, visibleSolves_eq, hcount, hsolves]
  have hseen (e : Entered) : Contest.visibleSolves
      (Service.seenBy { s with contest, attempts := s.attempts.set i a' } e) challengeId =
        (s.seenBy e).visibleSolves challengeId := by
    rw [seenBy_visibleSolves, seenBy_visibleSolves]
    show contest.visibleSolves challengeId + visibleAmong contest e.solveRows challengeId = _
    rw [hvisible, hcount]
  have hsolvesOf : solvesOf contest challengeId = solvesOf s.contest challengeId := by
    unfold solvesOf
    rw [hsolves]
  refine ⟨?_, fun attempt hattempt b hb hchallenge => ?_,
    fun attempt hattempt e value hscored hchallenge => ?_, ?_, fun hgrown => ?_⟩
  · show (contest.scoringOf challengeId).map _ = _
    rw [hsame]
    exact hs.same
  · rcases List.mem_or_eq_of_mem_set hattempt with hold | rfl
    · exact hs.opened attempt hold b hb hchallenge
    · rcases h.scoring hb with hold | hread
      · exact hs.opened a hmem b hold hchallenge
      · rcases h.locks hb with hold | ⟨hsound, -, -⟩
        · exact hs.opened a hmem b hold hchallenge
        · rw [hread, ← hsound.challenge, hchallenge]
          exact hs.same
  · rw [hseen]
    rcases List.mem_or_eq_of_mem_set hattempt with hold | rfl
    · exact hs.scored attempt hold e value hscored hchallenge
    · subst hscored
      obtain ⟨rfl, hvalue⟩ := h.scored
      have hopened := hs.opened _ hmem e.toOpened rfl hchallenge
      obtain ⟨row, hrow, hparams⟩ := Option.map_eq_some_iff.mp hopened
      rw [hvalue, hrow, ← hparams, hchallenge]
      rfl
  · show before ≤ solvesOf contest challengeId
    rw [hsolvesOf]
    exact hs.grows
  · show (contest.scoringOf challengeId).bind _ = params.recalculated (contest.visibleSolves challengeId)
    rw [hsame, hvisible]
    refine hs.value (hgrown.imp_right fun hlt => ?_)
    have hlt : before < solvesOf contest challengeId := hlt
    rwa [hsolvesOf] at hlt

theorem commit_scoringOf (e : Entered) (value : Option ℤ) {row : ScoringRow}
    (hrow : s.contest.scoringOf challengeId = some row) :
    (s.commit e value).scoringOf challengeId = some (value.elim row fun value =>
      if challengeId = e.opened.challenge.id then { row with value := some value } else row) := by
  have hid : row.challengeId = challengeId := of_decide_eq_true (List.find?_some
    (p := fun row : ScoringRow => decide (row.challengeId = challengeId)) hrow)
  unfold Contest.scoringOf
  rw [commit_scoring]
  cases value with
  | none => exact hrow
  | some value =>
      have hupdate := scoringOf_update challengeId
        (fun row => decide (row.challengeId = e.opened.challenge.id))
        (fun row => { row with value := some value }) (fun _ => rfl) hrow
      subst hid
      simp only [decide_eq_true_eq] at hupdate
      exact hupdate

theorem commit_solvesOf (e : Entered) (value : Option ℤ) : solvesOf (s.commit e value) challengeId =
    solvesOf s.contest challengeId +
      (e.solveRows.filter fun solve => solve.challengeId = challengeId).length := by
  unfold solvesOf
  rw [commit_solves, List.filter_append, List.length_append]

/-- A commit keeps what is tracked, and makes the value right where it solves the challenge. -/
theorem Tracks.commit (hl : Locked s) (hdynamic : params.isDynamic = true)
    (hs : Tracks s challengeId params before right) {e : Entered} {value : Option ℤ}
    {response : AttemptResponse} (ha : s.attempts[i]? = some (.scored e value)) :
    Tracks { s with
      contest := s.commit e value
      attempts := s.attempts.set i (.committed e value response) }
      challengeId params before right := by
  have hmem : .scored e value ∈ s.attempts := List.mem_of_getElem? ha
  have hvalue := hs.scored _ hmem e value rfl
  obtain ⟨row, hrow, hparams⟩ := Option.map_eq_some_iff.mp hs.same
  have hscoringOf := commit_scoringOf e value hrow
  refine ⟨?_, fun attempt hattempt b hb hchallenge => ?_,
    fun attempt hattempt b w hscored hchallenge => ?_, ?_, fun hgrown => ?_⟩
  · show ((s.commit e value).scoringOf challengeId).map _ = _
    rw [hscoringOf]
    refine Eq.trans ?_ (congrArg some hparams)
    cases value with
    | none => rfl
    | some value =>
        show some (ScoringRow.params (if _ then _ else _)) = _
        split <;> rfl
  · rcases List.mem_or_eq_of_mem_set hattempt with hold | rfl
    · exact hs.opened attempt hold b hb hchallenge
    · cases hb
  · obtain ⟨j, hj⟩ := List.mem_iff_getElem?.mp hattempt
    have hij : j ≠ i := by
      rintro rfl
      rw [List.getElem?_set_self (List.getElem?_eq_some_iff.mp ha).1] at hj
      cases hj
      cases hscored
    rw [List.getElem?_set_ne (Ne.symm hij)] at hj
    subst hscored
    have hold := hs.scored _ (List.mem_of_getElem? hj) b w rfl hchallenge
    by_cases hother : e.solves = true ∧ e.opened.challenge.id = challengeId
    · -- the lock of the value keeps a second solve of the challenge waiting
      cases hb : b.solves with
      | false =>
          rw [hold, hb, if_neg (by decide), if_neg (by decide)]
      | true =>
          have hsome := recalculated_isSome hdynamic ((s.seenBy e).visibleSolves challengeId)
          have hsome' := recalculated_isSome hdynamic ((s.seenBy b).visibleSolves challengeId)
          rw [hb, if_pos rfl] at hold
          rw [hother.1, if_pos rfl] at hvalue
          rw [← hvalue hother.2] at hsome
          rw [← hold] at hsome'
          obtain ⟨v, rfl⟩ := Option.isSome_iff_exists.mp hsome
          obtain ⟨v', rfl⟩ := Option.isSome_iff_exists.mp hsome'
          exact absurd (hother.2.trans hchallenge.symm) (hl.valued i j (e, v) (b, v') (Ne.symm hij)
            ((Slots.at'_eq ha).trans rfl) ((Slots.at'_eq hj).trans rfl))
    · rw [hold]
      have hseen : (s.commit e value).visibleSolves challengeId +
          visibleAmong (s.commit e value) b.solveRows challengeId =
            (s.seenBy b).visibleSolves challengeId := by
        rw [commit_visibleSolves, seenBy_visibleSolves, seenBy_visibleSolves,
          (commit_visible s e value).among]
        unfold visibleAmong
        rw [filter_solveRows _ hother]
        rfl
      rw [← hseen, seenBy_visibleSolves]
  · show before ≤ solvesOf (s.commit e value) challengeId
    rw [commit_solvesOf]
    exact Nat.le_add_right_of_le hs.grows
  · show ((s.commit e value).scoringOf challengeId).bind _ =
      params.recalculated ((s.commit e value).visibleSolves challengeId)
    have hgrown : right ∨ before < solvesOf (s.commit e value) challengeId := hgrown
    rw [hscoringOf, commit_visibleSolves]
    by_cases hsolving : e.solves = true ∧ e.opened.challenge.id = challengeId
    · have hsome := recalculated_isSome hdynamic ((s.seenBy e).visibleSolves challengeId)
      rw [hsolving.1, if_pos rfl] at hvalue
      rw [← hvalue hsolving.2] at hsome ⊢
      obtain ⟨v, rfl⟩ := Option.isSome_iff_exists.mp hsome
      show (if challengeId = e.opened.challenge.id then { row with value := some v }
        else row : ScoringRow).value = _
      rw [if_pos hsolving.2.symm]
    · have hnone := filter_solveRows (a := e) (fun _ => true) hsolving
      simp only [Bool.and_true] at hnone
      rw [commit_solvesOf, hnone] at hgrown
      have hseen : (s.seenBy e).visibleSolves challengeId = s.contest.visibleSolves challengeId := by
        rw [seenBy_visibleSolves]
        unfold visibleAmong
        rw [filter_solveRows _ hsolving]
        rfl
      have hkept := hs.value hgrown
      rw [hrow] at hkept
      rw [hseen, ← hkept]
      cases value with
      | none => rfl
      | some v =>
          show (if challengeId = e.opened.challenge.id then { row with value := some v }
            else row : ScoringRow).value = _
          rw [if_neg fun heq => ?_]
          · rfl
          · have hunsolved : ¬ e.solves = true := fun h => hsolving ⟨h, heq.symm⟩
            rw [if_neg hunsolved] at hvalue
            cases hvalue heq.symm

end Advance

theorem serviceStep_tracks {s s' : Service crates} {label : ServiceLabel} {challengeId : ℤ}
    {params : ScoringRow} {before : ℕ} {right : Prop} (hl : Locked s)
    (hdynamic : params.isDynamic = true) (hs : Tracks s challengeId params before right)
    (honly : SubmissionsOnly s label) (h : serviceStep label s = some s') :
    Tracks s' challengeId params before right := by
  cases label with
  | tick elapsed =>
      cases h
      exact ⟨hs.same, hs.opened, hs.scored, hs.grows, hs.value⟩
  | submit request =>
      cases h
      obtain ⟨hlocks, -, -⟩ := gate_locks s request
      refine ⟨hs.same, fun attempt hattempt a ha => ?_, fun attempt hattempt a value hscored => ?_,
        hs.grows, hs.value⟩
      · rcases List.mem_append.mp hattempt with hold | hnew
        · exact hs.opened attempt hold a ha
        · rw [List.mem_singleton.mp hnew, hlocks] at ha
          cases ha
      · rcases List.mem_append.mp hattempt with hold | hnew
        · exact hs.scored attempt hold a value hscored
        · rw [← List.mem_singleton.mp hnew, hscored] at hlocks
          cases hlocks
  | attempt i p =>
      obtain ⟨a, contest, a', ha, hadvances, rfl⟩ := advance_advances h
      rcases hadvances.uncommitted with ⟨hsolves, hscoring⟩ | ⟨e, value, response, rfl, rfl, rfl⟩
      · exact hs.uncommitted ha hadvances hsolves hscoring
      · exact hs.commit hl hdynamic ha
  | _ => exact honly.elim

theorem leads_tracks {s s' : Service crates} {challengeId : ℤ} {params : ScoringRow} {before : ℕ}
    {right : Prop} (hl : Locked s) (hdynamic : params.isDynamic = true)
    (hs : Tracks s challengeId params before right) (h : Leads serviceStep SubmissionsOnly s s') :
    Locked s' ∧ Tracks s' challengeId params before right := by
  induction h with
  | refl => exact ⟨hl, hs⟩
  | step label _ honly hstep ih =>
      exact ⟨serviceStep_locked ih.1 hstep, serviceStep_tracks ih.1 hdynamic ih.2 honly hstep⟩

/-- When nothing is in flight, what is stored is all there is to track. -/
theorem tracks_quiet {s : Service crates} (hquiet : s.Quiet) {challengeId : ℤ} {row : ScoringRow}
    (hrow : s.contest.scoringOf challengeId = some row) (hdynamic : row.isDynamic = true) :
    Tracks s challengeId row.params (solvesOf s.contest challengeId)
      (Consistent s.contest challengeId) := by
  have hover (attempt : Attempt) (h : attempt ∈ s.attempts) : attempt.locks = none := by
    have hdone := hquiet.1 attempt h
    cases attempt with
    | committed | answered | failed => rfl
    | _ => cases hdone
  refine ⟨by rw [hrow]; rfl, fun attempt hattempt a ha => ?_,
    fun attempt hattempt a value hscored => ?_, le_refl _, fun hright => ?_⟩
  · rw [hover attempt hattempt] at ha
    cases ha
  · have hlocks := hover attempt hattempt
    rw [hscored] at hlocks
    cases hlocks
  · rw [hrow]
    rcases hright with hright | hlt
    · exact hright row hrow hdynamic
    · exact absurd hlt (lt_irrefl _)

/-- **Values of dynamic challenges.**  After any run, whatever administrators have edited,
removed, hidden or banned and however attempts interleaved with it: once nothing is in
flight, submissions, in any order, keep the value of a dynamic challenge right if it is so,
and the next solve of the challenge makes it right. -/
theorem dynamic_values {s s' : Service crates} {challengeId : ℤ} {row : ScoringRow}
    (hr : Reach serviceStep anyStep InitialService s) (hquiet : s.Quiet)
    (hrow : s.contest.scoringOf challengeId = some row) (hdynamic : row.isDynamic = true)
    (h : Leads serviceStep SubmissionsOnly s s')
    (hnext : Consistent s.contest challengeId ∨
      solvesOf s.contest challengeId < solvesOf s'.contest challengeId) :
    Consistent s'.contest challengeId := by
  have hparams : row.params.isDynamic = true := hdynamic
  obtain ⟨-, htracks⟩ := leads_tracks (locked_reach (fun _ h => h) hr) hparams
    (tracks_quiet hquiet hrow hdynamic) h
  intro row' hrow' _
  have hsame := htracks.same
  have hvalue := htracks.value hnext
  rw [hrow'] at hsame hvalue
  rw [recalculated_params, Option.some.inj hsame]
  exact hvalue

instance (s : Service crates) (label : ServiceLabel) : Decidable (SubmissionsOnly s label) :=
  match label with
  | .tick _ | .submit _ | .attempt .. => .isTrue trivial
  | .operate _ | .edit .. | .commitEdit _ => .isFalse id

/-- The users 7 and 8 solve a challenge that loses twenty points with the second solve. -/
theorem dynamic_values_practice : ∃ s' : Service plainCrates,
    Leads serviceStep SubmissionsOnly practice s' ∧ Consistent s'.contest 2 ∧
    (s'.contest.scoringOf 2).bind ScoringRow.value = some 80 := by
  have hrun : ((runIf serviceStep SubmissionsOnly (submits 7 2 "A" :: submits 8 2 "A" ::
      .attempt 0 (.acquire 0) :: .attempt 1 (.acquire 0) :: .attempt 0 .limit ::
        .attempt 1 .limit :: (finishes 0 ++ finishes 1)) practice).any fun s' =>
      decide ((s'.contest.scoringOf 2).bind ScoringRow.value = some 80) &&
      decide (solvesOf practice.contest 2 < solvesOf s'.contest 2)) = true := by
    decide +kernel
  obtain ⟨s', hs', hfacts⟩ := (Option.any_eq_true _ _).mp hrun
  rw [Bool.and_eq_true, decide_eq_true_eq, decide_eq_true_eq] at hfacts
  have hleads := leads_of_runIf _ hs'
  have hrow : practice.contest.scoringOf 2 =
      some ⟨2, some "linear", some 100, some 10, some 20, some 100⟩ := rfl
  exact ⟨s', hleads, dynamic_values (.init ⟨rfl, rfl⟩) ⟨fun _ h => absurd h List.not_mem_nil, rfl⟩
    hrow (by decide) hleads (.inr hfacts.2), hfacts.1⟩

end CtfZone.Contests
