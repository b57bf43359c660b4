/-
# One solve for each account and challenge

An attempt looks for a solve of its account before it enters one, and the database keeps
the users and the teams of the solves of a challenge apart.  The two agree as long as a
user has solved nothing for another team: somebody who is moved takes the solves of the
old team along, and the key of the user then stops what the account has not solved yet.

* `SolveKeys` : the keys of `solves`, with the rows in flight;
* `Clear` : what an attempt has found still holds when its rows are inserted;
* `Settles` : how an attempt goes on that has been judged correct;
* `solve_once` : one solve for each account and challenge, and none that is lost.
-/
import CtfZone.SolveMirror

namespace CtfZone.Contests

open Journal Runs Tables Submissions

variable {crates : Crates}

/-! ## Keys -/

/-- Two rows of `solves` have a key in common. -/
def SolveRow.Clashes (row row' : SolveRow) : Prop :=
  row.challengeId = row'.challengeId ∧
    (row.userId.isSome ∧ row.userId = row'.userId ∨ row.teamId.isSome ∧ row.teamId = row'.teamId)

theorem Clashes.symm {row row' : SolveRow} (h : SolveRow.Clashes row row') :
    SolveRow.Clashes row' row := by
  obtain ⟨hchallenge, ⟨hsome, huser⟩ | ⟨hsome, hteam⟩⟩ := h
  · exact ⟨hchallenge.symm, .inl ⟨huser ▸ hsome, huser.symm⟩⟩
  · exact ⟨hchallenge.symm, .inr ⟨hteam ▸ hsome, hteam.symm⟩⟩

/-- No row has a key in common with a new one. -/
def Fresh (solves : List SolveRow) (row : SolveRow) : Prop :=
  ∀ solve ∈ solves, ¬ SolveRow.Clashes solve row

theorem solveConflict_eq_false {solves : List SolveRow} (row : SolveRow) :
    Contest.solveConflict solves row.challengeId row.userId row.teamId = false ↔
      Fresh solves row := by
  unfold Contest.solveConflict
  rw [List.any_eq_false]
  refine forall_congr' fun solve => imp_congr_right fun _ => not_congr ?_
  rw [Bool.and_eq_true, Bool.or_eq_true, Bool.and_eq_true, Bool.and_eq_true, decide_eq_true_eq,
    decide_eq_true_eq, decide_eq_true_eq]
  constructor
  · rintro ⟨hchallenge, ⟨hsome, huser⟩ | ⟨hsome, hteam⟩⟩
    · exact ⟨hchallenge, .inl ⟨huser ▸ hsome, huser⟩⟩
    · exact ⟨hchallenge, .inr ⟨hteam ▸ hsome, hteam⟩⟩
  · rintro ⟨hchallenge, ⟨hsome, huser⟩ | ⟨hsome, hteam⟩⟩
    · exact ⟨hchallenge, .inl ⟨huser ▸ hsome, huser⟩⟩
    · exact ⟨hchallenge, .inr ⟨hteam ▸ hsome, hteam⟩⟩

/-- The row of `solves` an attempt has inserted and not committed. -/
def Attempt.solving (attempt : Attempt) : Option SolveRow :=
  attempt.pending.bind fun a => if a.solves then some a.solveRow else none

theorem solving_toList (attempt : Attempt) :
    attempt.pending.elim [] Entered.solveRows = attempt.solving.toList := by
  unfold Attempt.solving Entered.solveRows
  cases attempt.pending with
  | none => rfl
  | some a =>
      show (if a.solves then [a.solveRow] else []) =
        (if a.solves then some a.solveRow else none).toList
      split <;> rfl

theorem solvePending_eq_false {attempts : List Attempt} (row : SolveRow) :
    Service.solvePending attempts row.challengeId row.userId row.teamId = false ↔
      ∀ attempt ∈ attempts, ∀ solve ∈ attempt.solving, ¬ SolveRow.Clashes solve row := by
  unfold Service.solvePending
  rw [solveConflict_eq_false]
  constructor
  · intro h attempt hattempt solve hsolve
    refine h solve (List.mem_flatMap.mpr ⟨attempt, hattempt, ?_⟩)
    rw [solving_toList]
    exact Option.mem_toList.mpr hsolve
  · intro h solve hsolve
    obtain ⟨attempt, hattempt, hsolve⟩ := List.mem_flatMap.mp hsolve
    rw [solving_toList] at hsolve
    exact h attempt hattempt solve (Option.mem_toList.mp hsolve)

/-- The keys of `solves`, with the rows in flight. -/
structure SolveKeys (s : Service crates) : Prop where
  committed : s.contest.portal.solves.Pairwise fun row row' => ¬ SolveRow.Clashes row row'
  solving : ∀ attempt ∈ s.attempts, ∀ row ∈ attempt.solving, Fresh s.contest.portal.solves row
  apart : Slots.Apart Attempt.solving (fun row row' => ¬ SolveRow.Clashes row row') s.attempts

/-- An account has solved a challenge at most once. -/
theorem solves_length_le {solves : List SolveRow}
    (h : solves.Pairwise fun row row' => ¬ SolveRow.Clashes row row') (account : Account)
    (challengeId : ℤ) : (solves.filter fun row =>
      account.owns row.userId row.teamId && row.challengeId = challengeId).length ≤ 1 := by
  have hclash (row row' : SolveRow)
      (hrow : (account.owns row.userId row.teamId && row.challengeId = challengeId) = true)
      (hrow' : (account.owns row'.userId row'.teamId && row'.challengeId = challengeId) = true) :
      SolveRow.Clashes row row' := by
    rw [Bool.and_eq_true, decide_eq_true_eq] at hrow hrow'
    refine ⟨hrow.2.trans hrow'.2.symm, ?_⟩
    cases account with
    | user userId =>
        have hu : row.userId = some userId := of_decide_eq_true hrow.1
        have hu' : row'.userId = some userId := of_decide_eq_true hrow'.1
        exact .inl ⟨by rw [hu]; rfl, hu.trans hu'.symm⟩
    | team teamId =>
        have ht : row.teamId = some teamId := of_decide_eq_true hrow.1
        have ht' : row'.teamId = some teamId := of_decide_eq_true hrow'.1
        exact .inr ⟨by rw [ht]; rfl, ht.trans ht'.symm⟩
  generalize hrows : (solves.filter fun row =>
    account.owns row.userId row.teamId && row.challengeId = challengeId) = rows
  have hmem (row : SolveRow) (hrow : row ∈ rows) :
      (account.owns row.userId row.teamId && row.challengeId = challengeId) = true := by
    rw [← hrows] at hrow
    exact (List.mem_filter.mp hrow).2
  have hpairwise : rows.Pairwise fun row row' => ¬ SolveRow.Clashes row row' :=
    hrows ▸ h.sublist List.filter_sublist
  match rows with
  | [] | [_] => simp
  | row :: row' :: rest =>
      have hrest : row' ∈ row' :: rest := List.mem_cons_self
      exact absurd (hclash row row' (hmem row List.mem_cons_self)
        (hmem row' (List.mem_cons_of_mem row hrest))) (List.rel_of_pairwise_cons hpairwise hrest)

/-! ## Requests of administrators -/

/-- The challenge and the user a request enters a solve for. -/
def Operation.solveEntered (contest : Contest crates) : Operation → Option (ℤ × ℤ)
  | .createSubmission request _ =>
    if request.submissionType = "correct" then some (request.challengeId, request.userId) else none
  | .updateSubmission submissionId request =>
    (contest.portal.submissions.find? (·.id = submissionId)).bind fun current =>
      if current.submissionType ≠ "correct" && request.submissionType = some "correct" then
        some (current.challengeId, current.userId.getD 0)
      else none
  | _ => none

theorem insertSolve_fresh {contest after : Contest crates} {id challengeId : ℤ}
    {userId teamId : Option ℤ} (h : contest.insertSolve id challengeId userId teamId = .ok after) :
    Fresh contest.portal.solves ⟨id, challengeId, userId, teamId⟩ ∧
      after.portal.solves = contest.portal.solves ++ [⟨id, challengeId, userId, teamId⟩] := by
  obtain ⟨⟨⟩, hfree, h⟩ := bind_eq_ok.mp h
  cases h
  refine ⟨(solveConflict_eq_false ⟨id, challengeId, userId, teamId⟩).mp ?_, rfl⟩
  simpa using hfree

/-- Requests take solves away, or enter one. -/
theorem Operation.change_solves {contest after : Contest crates} {op : Operation}
    (h : op.change contest = .ok after) :
    after.portal.solves.Sublist contest.portal.solves ∨
      ∃ challengeId userId id teamId, op.solveEntered contest = some (challengeId, userId) ∧
        teamId.isSome = contest.portal.teamMode ∧
        Fresh contest.portal.solves ⟨id, challengeId, some userId, teamId⟩ ∧
        after.portal.solves = contest.portal.solves ++ [⟨id, challengeId, some userId, teamId⟩] := by
  have hw := Operation.change_writes h
  cases op with
  | createSubmission request now =>
      obtain ⟨⟨⟩, -, h⟩ := bind_eq_ok.mp h
      obtain ⟨teamId, hteam, h⟩ := bind_eq_ok.mp h
      obtain ⟨⟨⟩, -, h⟩ := bind_eq_ok.mp h
      dsimp only at h
      split at h
      · rename_i hcorrect
        obtain ⟨hfresh, hsolves⟩ := insertSolve_fresh h
        exact .inr ⟨_, _, _, teamId, if_pos hcorrect, canonicalAccountTeamId_isSome hteam, hfresh,
          hsolves⟩
      · cases h
        exact .inl (List.Sublist.refl _)
  | updateSubmission submissionId request =>
      obtain ⟨current, hcurrent, h⟩ := bind_eq_ok.mp h
      obtain ⟨⟨⟩, -, h⟩ := bind_eq_ok.mp h
      obtain ⟨teamId, hteam, h⟩ := bind_eq_ok.mp h
      dsimp only at h
      split at h
      · rename_i hkind
        obtain ⟨⟨⟩, -, h⟩ := bind_eq_ok.mp h
        obtain ⟨solved, hsolved, h⟩ := bind_eq_ok.mp h
        cases h
        obtain ⟨hfresh, hsolves⟩ := insertSolve_fresh hsolved
        refine .inr ⟨current.challengeId, current.userId.getD 0, _, teamId, ?_,
          canonicalAccountTeamId_isSome hteam, hfresh, hsolves⟩
        have hfound : contest.portal.submissions.find? (·.id = submissionId) = some current := by
          unfold required at hcurrent
          split at hcurrent
          · cases hcurrent
            assumption
          · cases hcurrent
        rw [Operation.solveEntered, hfound]
        refine if_pos ?_
        rw [Bool.and_eq_true, decide_eq_true_eq, decide_eq_true_eq] at hkind ⊢
        refine ⟨hkind.1, ?_⟩
        -- the type stays what it was where none is asked for
        cases hrequest : request.submissionType with
        | none =>
            rw [hrequest] at hkind
            exact absurd hkind.2 hkind.1
        | some submissionType =>
            rw [hrequest] at hkind
            exact congrArg some hkind.2
      · cases h
        left
        split
        · exact List.filter_sublist
        · exact List.Sublist.refl _
  | addMember | joinTeam | createTeam | updateTeam | createUser =>
      obtain ⟨⟨⟩, -, h⟩ := bind_eq_ok.mp h
      obtain ⟨⟨⟩, -, h⟩ := bind_eq_ok.mp h
      cases h
      exact .inl (List.Sublist.refl _)
  | removeMember =>
      obtain ⟨⟨⟩, -, h⟩ := bind_eq_ok.mp h
      obtain ⟨⟨⟩, -, h⟩ := bind_eq_ok.mp h
      obtain ⟨⟨⟩, -, h⟩ := bind_eq_ok.mp h
      cases h
      exact .inl List.filter_sublist
  | deleteTeam | deleteChallenge =>
      obtain ⟨⟨⟩, -, h⟩ := bind_eq_ok.mp h
      obtain ⟨⟨⟩, -, h⟩ := bind_eq_ok.mp h
      obtain ⟨⟨⟩, -, h⟩ := bind_eq_ok.mp h
      cases h
      exact .inl (List.filter_sublist.trans List.filter_sublist)
  | deleteUser =>
      obtain ⟨⟨⟩, -, h⟩ := bind_eq_ok.mp h
      obtain ⟨⟨⟩, -, h⟩ := bind_eq_ok.mp h
      cases h
      exact .inl (List.filter_sublist.trans List.filter_sublist)
  | deleteSubmission =>
      obtain ⟨⟨⟩, -, h⟩ := bind_eq_ok.mp h
      cases h
      exact .inl List.filter_sublist
  | updateUser =>
      obtain ⟨⟨⟩, -, h⟩ := bind_eq_ok.mp h
      obtain ⟨⟨⟩, -, h⟩ := bind_eq_ok.mp h
      obtain ⟨previous, -, h⟩ := bind_eq_ok.mp h
      obtain ⟨⟨⟩, -, h⟩ := bind_eq_ok.mp h
      obtain ⟨⟨⟩, -, h⟩ := bind_eq_ok.mp h
      obtain ⟨⟨⟩, -, h⟩ := bind_eq_ok.mp h
      cases h
      exact .inl (List.Sublist.refl _)
  | switchMode =>
      obtain ⟨⟨⟩, -, h⟩ := bind_eq_ok.mp h
      obtain ⟨⟨⟩, -, h⟩ := bind_eq_ok.mp h
      cases h
      exact .inl (List.nil_sublist _)
  | configure =>
      cases h
      exact .inl (List.Sublist.refl _)

/-- A request that enters a solve waits for the teams, and for the rows in flight. -/
theorem waits_solving {s : Service crates} {op : Operation} {challengeId userId : ℤ}
    (hwaits : s.waits op = false)
    (h : op.solveEntered s.contest = some (challengeId, userId)) :
    s.teamsLocked = false ∧ ∀ id, ∀ attempt ∈ s.attempts, ∀ solve ∈ attempt.solving,
      ¬ SolveRow.Clashes solve ⟨id, challengeId, some userId, none⟩ := by
  have hpending (challengeId userId : ℤ)
      (hfree : s.insertWaits challengeId userId true = false) (id : ℤ) :
      ∀ attempt ∈ s.attempts, ∀ solve ∈ attempt.solving,
        ¬ SolveRow.Clashes solve ⟨id, challengeId, some userId, none⟩ := by
    unfold Service.insertWaits at hfree
    rw [Bool.true_and, Bool.or_eq_false_iff] at hfree
    exact (solvePending_eq_false ⟨id, challengeId, some userId, none⟩).mp hfree.2
  cases op with
  | createSubmission request now =>
      simp only [Operation.solveEntered] at h
      split at h
      · rename_i hcorrect
        cases h
        simp only [Service.waits] at hwaits
        rw [Bool.or_eq_false_iff, hcorrect] at hwaits
        exact ⟨hwaits.1, hpending _ _ hwaits.2⟩
      · cases h
  | updateSubmission submissionId request =>
      simp only [Operation.solveEntered] at h
      obtain ⟨current, hfound, h⟩ := Option.bind_eq_some_iff.mp h
      split at h
      · rename_i hkind
        cases h
        simp only [Service.waits] at hwaits
        rw [hfound, Bool.or_eq_false_iff, Option.any_some, hkind, Bool.true_and] at hwaits
        exact ⟨hwaits.1, hpending _ _ hwaits.2⟩
      · cases h
  | _ => cases h

/-! ## Attempts -/

/-- What an attempt has inserted after a statement it had inserted before, or the row has no
key in common with any other. -/
theorem Advances.solving {s : Service crates} {i : ℕ} {a a' : Attempt} {contest : Contest crates}
    (h : Advances s i a contest a') {row : SolveRow} (hrow : a'.solving = some row) :
    a.solving = some row ∨ Fresh s.contest.portal.solves row ∧
      ∀ other ∈ s.others i, ∀ solve ∈ other.solving, ¬ SolveRow.Clashes solve row := by
  cases h with
  | @records a solved unedited refers free =>
      right
      unfold Attempt.solving at hrow
      obtain ⟨entered, hentered, hrow⟩ := Option.bind_eq_some_iff.mp hrow
      cases hentered
      split at hrow
      · rename_i hsolves
        cases hrow
        obtain ⟨hpending, hconflict⟩ := free hsolves
        exact ⟨(solveConflict_eq_false _).mp hconflict, (solvePending_eq_false _).mp hpending⟩
      · cases hrow
  | scores computed free => exact .inl hrow
  | _ => cases hrow

/-- The solves after a statement: those from before, and the one that is committed. -/
theorem Advances.solves {s : Service crates} {i : ℕ} {a a' : Attempt} {contest : Contest crates}
    (h : Advances s i a contest a') : contest.portal.solves = s.contest.portal.solves ∨
      ∃ row, a.solving = some row ∧ a'.solving = none ∧
        contest.portal.solves = s.contest.portal.solves ++ [row] := by
  cases h with
  | @commits a value =>
      rw [commit_solves]
      have hrows := solving_toList (.scored a value)
      cases hsolving : Attempt.solving (.scored a value) with
      | none =>
          rw [hsolving] at hrows
          left
          rw [show a.solveRows = [] from hrows, List.append_nil]
      | some row =>
          rw [hsolving] at hrows
          exact .inr ⟨row, rfl, rfl, by rw [show a.solveRows = [row] from hrows]⟩
  | _ => exact .inl rfl

/-- A statement of an attempt keeps the keys apart. -/
theorem SolveKeys.advance {s : Service crates} {i : ℕ} {a a' : Attempt} {contest : Contest crates}
    (hs : SolveKeys s) (ha : s.attempts[i]? = some a) (h : Advances s i a contest a') :
    SolveKeys { s with contest, attempts := s.attempts.set i a' } := by
  have hmem : a ∈ s.attempts := List.mem_of_getElem? ha
  have happly : Slots.Apart Attempt.solving (fun row row' => ¬ SolveRow.Clashes row row')
      (s.attempts.set i a') := by
    refine hs.apart.set (fun _ _ hclear h => hclear (Clashes.symm h)) ha
      fun row hrow j solve hj hsolve => ?_
    rcases h.solving hrow with hold | ⟨-, hothers⟩
    · exact hs.apart i j row solve (Ne.symm hj) ((Slots.at'_eq ha).trans hold) hsolve
    · obtain ⟨other, hother, hsolving⟩ := Slots.exists_other hj hsolve
      exact fun hclash => hothers other hother solve hsolving (Clashes.symm hclash)
  refine ⟨?_, fun attempt hattempt row hrow => ?_, happly⟩
  · show contest.portal.solves.Pairwise _
    rcases h.solves with hsame | ⟨row, hsolving, -, hsolves⟩
    · rw [hsame]
      exact hs.committed
    · rw [hsolves]
      refine List.pairwise_append.mpr ⟨hs.committed, List.pairwise_singleton _ _, ?_⟩
      intro solve hsolve row' hrow'
      rw [List.mem_singleton.mp hrow']
      exact hs.solving a hmem row hsolving solve hsolve
  · show Fresh contest.portal.solves row
    obtain ⟨j, hj⟩ := List.mem_iff_getElem?.mp hattempt
    have hold : Fresh s.contest.portal.solves row := by
      rcases List.mem_or_eq_of_mem_set hattempt with hother | rfl
      · exact hs.solving attempt hother row hrow
      · rcases h.solving hrow with hsolving | ⟨hfresh, -⟩
        · exact hs.solving a hmem row hsolving
        · exact hfresh
    rcases h.solves with hsame | ⟨entered, hsolving, hnone, hsolves⟩
    · rw [hsame]
      exact hold
    · rw [hsolves]
      intro solve hsolve
      rcases List.mem_append.mp hsolve with hsolve | hsolve
      · exact hold solve hsolve
      · rw [List.mem_singleton.mp hsolve]
        have hij : j ≠ i := by
          rintro rfl
          rw [List.getElem?_set_self (List.getElem?_eq_some_iff.mp ha).1] at hj
          cases hj
          rw [hnone] at hrow
          cases hrow
        rw [List.getElem?_set_ne (Ne.symm hij)] at hj
        exact hs.apart i j entered row (Ne.symm hij) ((Slots.at'_eq ha).trans hsolving)
          ((Slots.at'_eq hj).trans hrow)

theorem solving_locks {attempt : Attempt} {row : SolveRow} (h : attempt.solving = some row) :
    attempt.locks.isSome = true := by
  obtain ⟨a, ha, -⟩ := Option.bind_eq_some_iff.mp h
  cases attempt with
  | recorded | scored => rfl
  | _ => cases ha

theorem teamsLocked_eq_false {s : Service crates} (hmode : s.contest.portal.teamMode = true)
    (h : s.teamsLocked = false) : ∀ attempt ∈ s.attempts, attempt.locks = none := by
  intro attempt hattempt
  unfold Service.teamsLocked at h
  rw [hmode, Bool.true_and, List.any_eq_false] at h
  exact Option.not_isSome_iff_eq_none.mp (h attempt hattempt)

/-- What a request enters has no key in common with the rows in flight. -/
theorem operate_solving {s : Service crates} {op : Operation} {challengeId userId id : ℤ}
    {teamId : Option ℤ} (hwaits : s.waits op = false)
    (hentered : op.solveEntered s.contest = some (challengeId, userId))
    (hteam : teamId.isSome = s.contest.portal.teamMode) :
    ∀ attempt ∈ s.attempts, ∀ solve ∈ attempt.solving,
      ¬ SolveRow.Clashes solve ⟨id, challengeId, some userId, teamId⟩ := by
  obtain ⟨hteams, hothers⟩ := waits_solving hwaits hentered
  intro attempt hattempt solve hsolve
  cases teamId with
  | none => exact hothers id attempt hattempt solve hsolve
  | some teamId =>
      have hlocks := solving_locks hsolve
      rw [teamsLocked_eq_false hteam.symm hteams attempt hattempt] at hlocks
      cases hlocks

theorem Fresh.sublist {solves solves' : List SolveRow} {row : SolveRow} (h : Fresh solves row)
    (hsub : solves'.Sublist solves) : Fresh solves' row :=
  fun solve hsolve => h solve (hsub.subset hsolve)

theorem serviceStep_keys {s s' : Service crates} {label : ServiceLabel} (hs : SolveKeys s)
    (h : serviceStep label s = some s') : SolveKeys s' := by
  cases label with
  | tick elapsed =>
      cases h
      exact ⟨hs.committed, hs.solving, hs.apart⟩
  | submit request =>
      cases h
      obtain ⟨-, hpending, -⟩ := gate_locks s request
      have hnone : (s.gate request).solving = none := by
        rw [Attempt.solving, hpending]
        rfl
      refine ⟨hs.committed, fun attempt hattempt row hrow => ?_, hs.apart.append hnone⟩
      rcases List.mem_append.mp hattempt with hold | hnew
      · exact hs.solving attempt hold row hrow
      · rw [List.mem_singleton.mp hnew, hnone] at hrow
        cases hrow
  | attempt i p =>
      obtain ⟨a, contest, a', ha, hadvances, rfl⟩ := advance_advances h
      exact hs.advance ha hadvances
  | operate op =>
      obtain ⟨contest, rfl, rfl | ⟨hwaits, hchange⟩, -⟩ := operate_cases h
      · exact hs
      · rcases op.change_solves hchange with hsub |
          ⟨challengeId, userId, id, teamId, hentered, hteam, hfresh, hsolves⟩
        · exact ⟨hs.committed.sublist hsub,
            fun attempt hattempt row hrow => (hs.solving attempt hattempt row hrow).sublist hsub,
            hs.apart⟩
        · refine ⟨?_, fun attempt hattempt row hrow => ?_, hs.apart⟩
          · show contest.portal.solves.Pairwise _
            rw [hsolves]
            refine List.pairwise_append.mpr ⟨hs.committed, List.pairwise_singleton _ _, ?_⟩
            intro solve hsolve row hrow
            rw [List.mem_singleton.mp hrow]
            exact hfresh solve hsolve
          · show Fresh contest.portal.solves row
            rw [hsolves]
            intro solve hsolve
            rcases List.mem_append.mp hsolve with hsolve | hsolve
            · exact hs.solving attempt hattempt row hrow solve hsolve
            · rw [List.mem_singleton.mp hsolve]
              exact fun hclash => operate_solving hwaits hentered hteam attempt hattempt row hrow
                (Clashes.symm hclash)
  | edit challengeId patch scoring =>
      rcases edit_cases h with rfl | ⟨rows, -, -, -, rfl⟩
      · exact hs
      · exact ⟨hs.committed, hs.solving, hs.apart⟩
  | commitEdit i =>
      obtain ⟨e, -, rfl⟩ := commitEdit_cases h
      exact ⟨hs.committed, hs.solving, hs.apart⟩

theorem NewService.keys {s : Service crates} (h : NewService s) : SolveKeys s := by
  obtain ⟨⟨hattempts, -⟩, -, hsolves⟩ := h
  refine ⟨?_, ?_, ?_⟩
  · rw [hsolves]
    exact List.Pairwise.nil
  · rw [hattempts]
    exact fun _ h => absurd h List.not_mem_nil
  · rw [hattempts]
    exact .nil

theorem keys_reach {guard : Service crates → ServiceLabel → Prop} {s : Service crates}
    (hr : Reach serviceStep guard NewService s) : SolveKeys s :=
  hr.invariant (fun _ h => h.keys) fun _ _ _ hs _ hstep => serviceStep_keys hs hstep

/-! ## What an attempt has found -/

/-- An attempt judged correct that has found no solve of its account. -/
def Attempt.earning : Attempt → Option Judged
  | .checked a false => if a.comparison.outcome = .correct then some a else none
  | _ => none

/-- The row of `solves` that is to be inserted, but for its id. -/
def Judged.claim (a : Judged) : SolveRow :=
  ⟨0, a.opened.challenge.id, some a.request.userId, a.opened.teamId⟩

/-- The attempt at a place that has its verdict, and looks for a solve next. -/
def Service.judged (s : Service crates) (i : ℕ) : Option Judged :=
  s.attempts[i]?.bind fun
    | .compared a => some a
    | _ => none

/-- Nothing stands in the way of what has been judged correct: the user has solved the
challenge for no other team, the rows it refers to are there, and nobody enters the solve
in its place. -/
def Service.unobstructed (s : Service crates) : ServiceLabel → Bool
  | .attempt i .check => (s.judged i).all fun a => a.comparison.outcome ≠ .correct ||
    ! hasSolved s.contest.portal (.user a.request.userId) a.opened.challenge.id ||
    hasSolved s.contest.portal a.opened.account a.opened.challenge.id
  | .attempt i .record =>
    match s.attempts[i]? with
    | some (.checked a _) => a.comparison.outcome ≠ .correct ||
      s.contest.refers a.opened.challenge.id (some a.request.userId) a.opened.teamId
    | _ => true
  | .operate op => (op.solveEntered s.contest).all fun (challengeId, userId) =>
    s.attempts.all fun attempt => attempt.earning.all fun a =>
      a.opened.challenge.id ≠ challengeId || a.request.userId ≠ userId
  | _ => true

/-- Every step is unobstructed. -/
def Unobstructed (s : Service crates) (label : ServiceLabel) : Prop := s.unobstructed label = true

instance (s : Service crates) (label : ServiceLabel) : Decidable (Unobstructed s label) :=
  inferInstanceAs (Decidable (_ = true))

/-- What an attempt has found still holds. -/
def Clear (s : Service crates) : Prop :=
  ∀ attempt ∈ s.attempts, ∀ a ∈ attempt.earning, Fresh s.contest.portal.solves a.claim

theorem judged_eq {s : Service crates} {i : ℕ} {a : Judged} :
    s.judged i = some a ↔ s.attempts[i]? = some (.compared a) := by
  unfold Service.judged
  rw [Option.bind_eq_some_iff]
  constructor
  · rintro ⟨attempt, hattempt, h⟩
    rw [hattempt]
    cases attempt with
    | compared b => exact congrArg (fun b => some (Attempt.compared b)) (Option.some.inj h)
    | _ => cases h
  · exact fun h => ⟨_, h, rfl⟩

theorem hasSolved_iff {portal : Portal crates} {account : Account} {challengeId : ℤ} :
    hasSolved portal account challengeId = true ↔ ∃ solve ∈ portal.solves,
      account.owns solve.userId solve.teamId = true ∧ solve.challengeId = challengeId := by
  rw [hasSolved_eq, List.any_eq_true]
  simp only [Bool.and_eq_true, decide_eq_true_eq]

theorem progress_earning {s : Service crates} {i : ℕ} {p : Progress} {a a' : Attempt}
    {contest : Contest crates} (h : s.progress i p a = some (contest, a')) {b : Judged}
    (hb : a'.earning = some b) : p = .check ∧ a = .compared b ∧ b.comparison.outcome = .correct ∧
      hasSolved s.contest.portal b.opened.account b.opened.challenge.id = false ∧
      contest = s.contest := by
  have hchecked : ∃ solved, a' = .checked b solved ∧ solved = false ∧
      b.comparison.outcome = .correct := by
    cases a' with
    | checked c solved =>
        cases solved with
        | true => cases hb
        | false =>
            simp only [Attempt.earning] at hb
            split at hb
            · rename_i hcorrect
              cases hb
              exact ⟨false, rfl, rfl, hcorrect⟩
            · cases hb
    | _ => cases hb
  obtain ⟨solved, rfl, hsolved, hcorrect⟩ := hchecked
  have hadvances := progress_advances h
  cases hadvances with
  | checks =>
      refine ⟨?_, rfl, hcorrect, hsolved, rfl⟩
      cases p with
      | check => rfl
      | abort => cases h
      | _ => cases h

/-- The row is new where the account has not solved the challenge, nor the user. -/
theorem claim_fresh {s : Service crates} {a : Judged}
    (hsound : a.Sound s.contest.portal.teamMode)
    (haccount : hasSolved s.contest.portal a.opened.account a.opened.challenge.id = false)
    (huser : hasSolved s.contest.portal (.user a.request.userId) a.opened.challenge.id = false) :
    Fresh s.contest.portal.solves a.claim := by
  rintro solve hsolve ⟨hchallenge, ⟨-, hsame⟩ | ⟨hsome, hsame⟩⟩
  · rw [← Bool.not_eq_true, hasSolved_iff] at huser
    exact huser ⟨solve, hsolve, decide_eq_true hsame, hchallenge⟩
  · rw [← Bool.not_eq_true, hasSolved_iff] at haccount
    refine haccount ⟨solve, hsolve, ?_, hchallenge⟩
    have hsame : solve.teamId = a.opened.teamId := hsame
    rw [hsound.account, ← hsame]
    obtain ⟨teamId, hteam⟩ := Option.isSome_iff_exists.mp hsome
    rw [hteam]
    exact decide_eq_true rfl

theorem earning_locks {attempt : Attempt} {a : Judged} (h : attempt.earning = some a) :
    attempt.locks = some a.toOpened := by
  cases attempt with
  | checked b solved =>
      cases solved with
      | true => cases h
      | false =>
          simp only [Attempt.earning] at h
          split at h
          · cases h
            rfl
          · cases h
  | _ => cases h

/-- What another attempt commits leaves the row new: the locks keep the two apart. -/
theorem claim_other {s : Service crates} (hl : Locked s) {i j : ℕ} (hij : i ≠ j)
    {a b : Attempt} (ha : s.attempts[i]? = some a) (hb : s.attempts[j]? = some b)
    {row : SolveRow} (hrow : a.solving = some row) {claimant : Judged}
    (hclaim : b.earning = some claimant) : ¬ SolveRow.Clashes row claimant.claim := by
  obtain ⟨entered, hentered, hsolving⟩ := Option.bind_eq_some_iff.mp hrow
  have hlocks : a.locks = some entered.toOpened := by
    cases a with
    | recorded | scored =>
        cases hentered
        rfl
    | _ => cases hentered
  have hlocks' := earning_locks hclaim
  have hat := (Slots.at'_eq ha).trans hlocks
  have hat' := (Slots.at'_eq hb).trans hlocks'
  have hsound := hl.sound a (List.mem_of_getElem? ha) entered.toOpened hlocks
  have hsound' := hl.sound b (List.mem_of_getElem? hb) claimant.toOpened hlocks'
  split at hsolving
  · cases hsolving
    rintro ⟨hchallenge, hsame⟩
    cases hmode : s.contest.portal.teamMode with
    | true => exact hl.alone hmode i j _ _ hij hat hat'
    | false =>
        -- in the mode `users` the rows have no team, and the account is the user
        have hnone : entered.opened.teamId = none :=
          Option.not_isSome_iff_eq_none.mp (by rw [hsound.team, hmode]; decide)
        have hnone' : claimant.opened.teamId = none :=
          Option.not_isSome_iff_eq_none.mp (by rw [hsound'.team, hmode]; decide)
        obtain ⟨-, huser⟩ | ⟨hsome, -⟩ := hsame
        · refine hl.apart i j _ _ hij hat hat' ⟨?_, ?_⟩
          · have huser : some entered.request.userId = some claimant.request.userId := huser
            rw [hsound.account, hsound'.account, hnone, hnone', Option.some.inj huser]
          · exact hsound.challenge.symm.trans (Eq.trans hchallenge hsound'.challenge)
        · have hsome : entered.opened.teamId.isSome = true := hsome
          rw [hnone] at hsome
          cases hsome
  · cases hsolving

theorem Clear.same {s s' : Service crates} (hs : Clear s)
    (hsolves : s'.contest.portal.solves = s.contest.portal.solves)
    (hattempts : s'.attempts = s.attempts) : Clear s' := by
  intro attempt hattempt a ha
  rw [hsolves]
  rw [hattempts] at hattempt
  exact hs attempt hattempt a ha

theorem serviceStep_clear {s s' : Service crates} {label : ServiceLabel} (hl : Locked s)
    (hs : Clear s) (hguard : Unobstructed s label) (h : serviceStep label s = some s') :
    Clear s' := by
  cases label with
  | tick elapsed =>
      cases h
      exact hs.same rfl rfl
  | submit request =>
      cases h
      obtain ⟨hlocks, -, -⟩ := gate_locks s request
      intro attempt hattempt a ha
      rcases List.mem_append.mp hattempt with hold | hnew
      · exact hs attempt hold a ha
      · have hearning := earning_locks ha
        rw [List.mem_singleton.mp hnew, hlocks] at hearning
        cases hearning
  | attempt i p =>
      obtain ⟨a, ha, h⟩ := Option.bind_eq_some_iff.mp h
      obtain ⟨⟨contest, a'⟩, hprogress, h⟩ := Option.bind_eq_some_iff.mp h
      cases h
      have hmem : a ∈ s.attempts := List.mem_of_getElem? ha
      have hadvances := progress_advances hprogress
      intro attempt hattempt b hb
      show Fresh contest.portal.solves b.claim
      obtain ⟨j, hj⟩ := List.mem_iff_getElem?.mp hattempt
      by_cases hij : j = i
      · subst hij
        rw [List.getElem?_set_self (List.getElem?_eq_some_iff.mp ha).1] at hj
        cases hj
        obtain ⟨rfl, rfl, hcorrect, hunsolved, rfl⟩ := progress_earning hprogress hb
        refine claim_fresh (hl.sound _ hmem b.toOpened rfl) hunsolved ?_
        simp only [Unobstructed, Service.unobstructed, Service.judged, ha] at hguard
        simpa [hcorrect, hunsolved] using hguard
      · rw [List.getElem?_set_ne (Ne.symm hij)] at hj
        have hold := hs attempt (List.mem_of_getElem? hj) b hb
        rcases hadvances.solves with hsame | ⟨row, hsolving, -, hsolves⟩
        · rw [hsame]
          exact hold
        · rw [hsolves]
          intro solve hsolve
          rcases List.mem_append.mp hsolve with hsolve | hsolve
          · exact hold solve hsolve
          · rw [List.mem_singleton.mp hsolve]
            exact claim_other hl (Ne.symm hij) ha hj hsolving hb
  | operate op =>
      obtain ⟨contest, rfl, rfl | ⟨hwaits, hchange⟩, -⟩ := operate_cases h
      · exact hs
      · intro attempt hattempt a ha
        show Fresh contest.portal.solves a.claim
        have hold := hs attempt hattempt a ha
        rcases op.change_solves hchange with hsub |
          ⟨challengeId, userId, id, teamId, hentered, hteam, -, hsolves⟩
        · exact hold.sublist hsub
        · rw [hsolves]
          intro solve hsolve
          rcases List.mem_append.mp hsolve with hsolve | hsolve
          · exact hold solve hsolve
          · rw [List.mem_singleton.mp hsolve]
            have hguard : (op.solveEntered s.contest).all (fun (challengeId, userId) =>
                s.attempts.all fun attempt => attempt.earning.all fun a =>
                  a.opened.challenge.id ≠ challengeId || a.request.userId ≠ userId) = true := hguard
            rw [hentered, Option.all_some, List.all_eq_true] at hguard
            have hothers := hguard attempt hattempt
            rw [Option.mem_def.mp ha, Option.all_some, Bool.or_eq_true, decide_eq_true_eq,
              decide_eq_true_eq] at hothers
            have hlocks := earning_locks ha
            cases teamId with
            | some teamId =>
                rw [teamsLocked_eq_false hteam.symm (waits_solving hwaits hentered).1 attempt
                  hattempt] at hlocks
                cases hlocks
            | none =>
                rintro ⟨hchallenge, ⟨-, huser⟩ | ⟨hsome, -⟩⟩
                · exact hothers.elim (absurd hchallenge.symm) (absurd (Option.some.inj huser).symm)
                · cases hsome
  | edit challengeId patch scoring =>
      rcases edit_cases h with rfl | ⟨rows, -, -, -, rfl⟩
      · exact hs
      · exact hs.same rfl rfl
  | commitEdit i =>
      obtain ⟨e, -, rfl⟩ := commitEdit_cases h
      exact hs.same rfl rfl

theorem clear_reach {s : Service crates} (hr : Reach serviceStep Unobstructed NewService s) :
    Clear s := by
  have hlocked (t : Service crates) (ht : Reach serviceStep Unobstructed NewService t) :
      Locked t := locked_reach (fun _ h => h.1) ht
  refine hr.invariant_with hlocked (fun t ht => ?_)
    fun t label t' hl hs hguard hstep => serviceStep_clear hl hs hguard hstep
  intro attempt hattempt
  rw [ht.1.1] at hattempt
  exact absurd hattempt List.not_mem_nil

/-! ## Attempts judged correct -/

/-- The response to what is judged correct; `solved` says that the account had solved the
challenge before. -/
def earnedResponse (solved : Bool) : AttemptResponse :=
  if solved then ⟨200, "already_solved", some "Correct but you already solved this"⟩
  else ⟨200, "correct", some "Correct"⟩

/-- How an attempt goes on that has been judged correct. -/
def Settles (a : Judged) (solved : Bool) : Attempt → Prop
  | .checked b known => b = a ∧ known = solved
  | .recorded e => e.toJudged = a ∧ e.solved = solved
  | .scored e _ => e.toJudged = a ∧ e.solved = solved
  | .committed e _ response => e.toJudged = a ∧ e.solved = solved ∧ response = earnedResponse solved
  | .failed failure => failure = .aborted
  | _ => False

theorem record_entered {s : Service crates} {i : ℕ} {a : Judged} {solved : Bool}
    {contest : Contest crates} {a' : Attempt} (h : s.record i a solved = some (contest, a'))
    (hrefers : s.contest.refers a.opened.challenge.id (some a.request.userId) a.opened.teamId = true)
    (hfree : Entered.solves ⟨a, solved, s.contest.portal.nextSubmissionId⟩ = true →
      Fresh s.contest.portal.solves a.claim) :
    a' = .recorded ⟨a, solved, s.contest.portal.nextSubmissionId⟩ := by
  unfold Service.record at h
  dsimp only at h
  rw [hrefers] at h
  split at h
  · cases h
  · split at h
    · rename_i hmissing
      cases hmissing
    · split at h
      · cases h
        rfl
      · rename_i hsolves
        rw [Bool.not_eq_true', Bool.not_eq_false] at hsolves
        split at h
        · cases h
        · have hconflict : Contest.solveConflict s.contest.portal.solves a.opened.challenge.id
              (some a.request.userId) a.opened.teamId = false :=
            (solveConflict_eq_false a.claim).mpr (hfree hsolves)
          rw [if_neg (by rw [hconflict]; decide)] at h
          cases h
          rfl

theorem score_scored {s : Service crates} {i : ℕ} {a : Entered} {a' : Attempt}
    (h : s.score i a = some a') : ∃ value, a' = .scored a value := by
  unfold Service.score at h
  dsimp only at h
  generalize (if a.solves = true then a.scoring.bind (·.recalculated
    ((s.seenBy a).visibleSolves a.opened.challenge.id)) else none) = value at h
  split at h
  · cases h
  · cases h
    exact ⟨value, rfl⟩

theorem earned_response {e : Entered} {teamMode : Bool}
    (hcorrect : e.comparison.outcome = .correct) :
    e.response teamMode = earnedResponse e.solved := by
  unfold Entered.response earnedResponse
  rw [hcorrect]
  rfl

theorem progress_settles {s : Service crates} {i : ℕ} {p : Progress} {x x' : Attempt}
    {contest : Contest crates} {a : Judged} {solved : Bool}
    (hcorrect : a.comparison.outcome = .correct) (hclear : Clear s)
    (hguard : Unobstructed s (.attempt i p)) (hx : s.attempts[i]? = some x)
    (hs : Settles a solved x) (h : s.progress i p x = some (contest, x')) :
    Settles a solved x' := by
  cases x with
  | checked b known =>
      obtain ⟨rfl, rfl⟩ := hs
      cases p with
      | record =>
          have hrefers : s.contest.refers b.opened.challenge.id (some b.request.userId)
              b.opened.teamId = true := by
            simp only [Unobstructed, Service.unobstructed, hx] at hguard
            simpa [hcorrect] using hguard
          rw [record_entered h hrefers fun hsolves => ?_]
          · exact ⟨rfl, rfl⟩
          · have hknown : known = false := by
              unfold Entered.solves at hsolves
              rw [Bool.and_eq_true, Bool.not_eq_true'] at hsolves
              exact hsolves.1
            subst hknown
            exact hclear _ (List.mem_of_getElem? hx) b (if_pos hcorrect)
      | abort =>
          cases h
          exact rfl
      | _ => cases h
  | recorded e =>
      cases p with
      | score =>
          obtain ⟨x', hscore, h⟩ := Option.map_eq_some_iff.mp h
          cases h
          obtain ⟨value, rfl⟩ := score_scored hscore
          exact hs
      | abort =>
          cases h
          exact rfl
      | _ => cases h
  | scored e value =>
      obtain ⟨rfl, rfl⟩ := hs
      cases p with
      | commit =>
          cases h
          exact ⟨rfl, rfl, earned_response hcorrect⟩
      | abort =>
          cases h
          exact rfl
      | _ => cases h
  | committed e value response => cases p <;> cases h
  | failed failure => cases p <;> cases h
  | _ => exact absurd hs id

/-- What has been judged correct goes on as `Settles` says, whatever else happens. -/
theorem serviceStep_settles {s s' : Service crates} {label : ServiceLabel} {i : ℕ} {a : Judged}
    {solved : Bool} (hcorrect : a.comparison.outcome = .correct) (hclear : Clear s)
    (hguard : Unobstructed s label) (hs : ∃ x, s.attempts[i]? = some x ∧ Settles a solved x)
    (h : serviceStep label s = some s') : ∃ x, s'.attempts[i]? = some x ∧ Settles a solved x := by
  obtain ⟨x, hx, hsettles⟩ := hs
  cases label with
  | tick elapsed =>
      cases h
      exact ⟨x, hx, hsettles⟩
  | submit request =>
      cases h
      refine ⟨x, ?_, hsettles⟩
      show (s.attempts ++ [s.gate request])[i]? = some x
      rw [List.getElem?_append_left (List.getElem?_eq_some_iff.mp hx).1]
      exact hx
  | attempt j p =>
      obtain ⟨y, hy, h⟩ := Option.bind_eq_some_iff.mp h
      obtain ⟨⟨contest, y'⟩, hprogress, h⟩ := Option.bind_eq_some_iff.mp h
      cases h
      by_cases hij : j = i
      · subst hij
        cases hx.symm.trans hy
        refine ⟨y', List.getElem?_set_self (List.getElem?_eq_some_iff.mp hx).1, ?_⟩
        exact progress_settles hcorrect hclear hguard hx hsettles hprogress
      · exact ⟨x, (List.getElem?_set_ne hij).trans hx, hsettles⟩
  | operate op =>
      obtain ⟨contest, rfl, -, -⟩ := operate_cases h
      exact ⟨x, hx, hsettles⟩
  | edit challengeId patch scoring =>
      rcases edit_cases h with rfl | ⟨rows, -, -, -, rfl⟩
      · exact ⟨x, hx, hsettles⟩
      · exact ⟨x, hx, hsettles⟩
  | commitEdit j =>
      obtain ⟨e, -, rfl⟩ := commitEdit_cases h
      exact ⟨x, hx, hsettles⟩

theorem leads_settles {s s' : Service crates} {i : ℕ} {a : Judged} {solved : Bool}
    (hr : Reach serviceStep Unobstructed NewService s)
    (hcorrect : a.comparison.outcome = .correct)
    (hs : ∃ x, s.attempts[i]? = some x ∧ Settles a solved x)
    (h : Leads serviceStep Unobstructed s s') :
    ∃ x, s'.attempts[i]? = some x ∧ Settles a solved x := by
  induction h with
  | refl => exact hs
  | step l hl hguard hstep ih =>
      exact serviceStep_settles hcorrect (clear_reach (hr.leads hl)) hguard ih hstep

/-- **One solve for each account and challenge.**  Whatever happens at the service, no
account has solved a challenge twice.  And as long as nothing stands in the way (the user of
an attempt that is judged correct has solved the challenge for no other team, the rows the
attempt refers to are there when it is recorded, and no administrator enters the solve in its
place), an attempt that is judged correct comes to no end but its commit, unless the
connection breaks: it then enters the solve of its account where the account had none, and
is answered as already solved where it had. -/
theorem solve_once {s : Service crates} :
    (Reach serviceStep anyStep NewService s → ∀ (account : Account) (challengeId : ℤ),
      (s.contest.portal.solves.filter fun row => account.owns row.userId row.teamId &&
        row.challengeId = challengeId).length ≤ 1) ∧
    (Reach serviceStep Unobstructed NewService s →
      ∀ (i : ℕ) (a : Judged) (solved : Bool) (checked s' : Service crates),
        s.attempts[i]? = some (.compared a) → a.comparison.outcome = .correct →
        hasSolved s.contest.portal a.opened.account a.opened.challenge.id = solved →
        Unobstructed s (.attempt i .check) →
        serviceStep (.attempt i .check) s = some checked →
        Leads serviceStep Unobstructed checked s' →
        (∃ x, s'.attempts[i]? = some x ∧ Settles a solved x) ∧
        ∀ committed, serviceStep (.attempt i .commit) s' = some committed →
          (∃ e value, committed.attempts[i]? =
            some (.committed e value (earnedResponse solved))) ∧
          ∃ id teamId, a.opened.account.owns (some a.request.userId) teamId = true ∧
            committed.contest.portal.solves = s'.contest.portal.solves ++
              if solved then []
              else [⟨id, a.opened.challenge.id, some a.request.userId, teamId⟩]) := by
  refine ⟨fun hr account challengeId => solves_length_le (keys_reach hr).committed account
    challengeId, ?_⟩
  rintro hr i a solved checked s' ha hcorrect rfl hguard hcheck hleads
  have hr' : Reach serviceStep Unobstructed NewService checked := .step _ hr hguard hcheck
  have hchecked : ∃ x, checked.attempts[i]? = some x ∧ Settles a
      (hasSolved s.contest.portal a.opened.account a.opened.challenge.id) x := by
    obtain ⟨x, hx, hcheck⟩ := Option.bind_eq_some_iff.mp hcheck
    cases ha.symm.trans hx
    cases hcheck
    exact ⟨_, List.getElem?_set_self (List.getElem?_eq_some_iff.mp ha).1, rfl, rfl⟩
  obtain ⟨x, hx, hsettles⟩ := leads_settles hr' hcorrect hchecked hleads
  refine ⟨⟨x, hx, hsettles⟩, fun committed hcommit => ?_⟩
  obtain ⟨y, hy, hcommit⟩ := Option.bind_eq_some_iff.mp hcommit
  cases hx.symm.trans hy
  obtain ⟨⟨contest, x'⟩, hprogress, hcommit⟩ := Option.bind_eq_some_iff.mp hcommit
  cases hcommit
  cases x with
  | scored e value =>
      cases hprogress
      obtain ⟨rfl, hsolved⟩ := hsettles
      have hsound := (locked_reach (fun _ h => h.1) (hr'.leads hleads)).sound _
        (List.mem_of_getElem? hx) e.toOpened rfl
      refine ⟨⟨e, value, ?_⟩, e.id, e.opened.teamId, ?_, ?_⟩
      · show (s'.attempts.set i _)[i]? = _
        rw [List.getElem?_set_self (List.getElem?_eq_some_iff.mp hx).1, earned_response hcorrect,
          hsolved]
      · rw [hsound.account]
        cases e.opened.teamId with
        | none => exact decide_eq_true rfl
        | some teamId => exact decide_eq_true rfl
      · show (s'.commit e value).portal.solves = _
        rw [commit_solves, ← hsolved]
        unfold Entered.solveRows Entered.solves
        rw [hcorrect]
        cases e.solved <;> rfl
  | _ => cases hprogress

/-- The user 7 solves a challenge, and is answered so. -/
theorem solve_once_practice : ∃ s' committed : Service plainCrates,
    Reach serviceStep Unobstructed NewService s' ∧
    serviceStep (.attempt 0 .commit) s' = some committed ∧
    (∃ e value, committed.attempts[0]? = some (.committed e value (earnedResponse false))) ∧
    (committed.contest.portal.solves.filter fun row =>
      Account.owns (.user 7) row.userId row.teamId && row.challengeId = 1).length ≤ 1 := by
  have hrun : ((runIf serviceStep Unobstructed (submits 7 1 "A" :: .attempt 0 (.acquire 0) ::
      .attempt 0 .limit :: [.attempt 0 .compare]) practice).any fun s =>
      ((s.judged 0).any fun a => a.comparison.outcome = .correct &&
        ! hasSolved s.contest.portal a.opened.account a.opened.challenge.id) &&
      decide (Unobstructed s (.attempt 0 .check)) &&
      (serviceStep (.attempt 0 .check) s).any fun checked =>
        (runIf serviceStep Unobstructed [.attempt 0 .record, .attempt 0 .score] checked).any
          fun s' => (serviceStep (.attempt 0 .commit) s').isSome) = true := by
    decide +kernel
  obtain ⟨s, hs, hfacts⟩ := (Option.any_eq_true _ _).mp hrun
  rw [Bool.and_eq_true, Bool.and_eq_true, decide_eq_true_eq] at hfacts
  obtain ⟨⟨hjudged, hguard⟩, hafter⟩ := hfacts
  obtain ⟨a, ha, hjudged⟩ := (Option.any_eq_true _ _).mp hjudged
  rw [Bool.and_eq_true, decide_eq_true_eq, Bool.not_eq_true'] at hjudged
  obtain ⟨checked, hchecked, hafter⟩ := (Option.any_eq_true _ _).mp hafter
  obtain ⟨s', hs', hcommit⟩ := (Option.any_eq_true _ _).mp hafter
  obtain ⟨committed, hcommitted⟩ := Option.isSome_iff_exists.mp hcommit
  have hr : Reach serviceStep Unobstructed NewService s := reach_of_runIf _ (.init practice_new) hs
  have hleads := leads_of_runIf _ hs'
  have hr' : Reach serviceStep Unobstructed NewService checked := .step _ hr hguard hchecked
  refine ⟨s', committed, hr'.leads hleads, hcommitted, ?_, ?_⟩
  · exact ((solve_once.2 hr 0 a false checked s' (judged_eq.mp ha) hjudged.1 hjudged.2 hguard
      hchecked hleads).2 committed hcommitted).1
  · exact solve_once.1 (.step _ ((hr'.leads hleads).weaken fun _ _ _ => trivial) trivial
      hcommitted) (.user 7) 1

/-! ## A user who is moved -/

/-- The practice in the mode `teams`, with a team for each user. -/
def teamPractice : Service plainCrates :=
  { practice with contest := { practice.contest with
      portal := { practice.contest.portal with
        users := [⟨7, "user", some 1⟩, ⟨8, "user", some 2⟩]
        teamMode := true }
      teams := [⟨1, false, false⟩, ⟨2, false, false⟩] } }

/-- Why an attempt has failed, if it has. -/
def Attempt.failure : Attempt → Option Failure
  | .failed failure => some failure
  | _ => none

/-- The user 7 solves a challenge for the team 1 and is moved to the team 2, which has not
solved it: the same string is judged correct again, and fails on the key of the user. -/
theorem moved_user_is_rejected :
    ¬ ∀ (crates : Crates) (s s' : Service crates) (i : ℕ) (a : Judged),
      Reach serviceStep anyStep NewService s →
      s.attempts[i]?.bind Attempt.earning = some a →
      serviceStep (.attempt i .record) s = some s' →
      s'.attempts[i]?.bind Attempt.failure ≠ some .uniqueViolation := by
  have hrun : ((run serviceStep (submits 7 1 "A" :: .attempt 0 (.acquire 0) :: .attempt 0 .limit ::
      (finishes 0 ++ .operate (.updateUser 7 { teamId := some (some 2) } true) ::
        submits 7 1 "A" :: .attempt 1 (.acquire 0) ::
        [.limit, .compare, .check].map (.attempt 1))) teamPractice).any fun s =>
      (s.attempts[1]?.bind Attempt.earning).isSome &&
      (serviceStep (.attempt 1 .record) s).any fun s' =>
        s'.attempts[1]?.bind Attempt.failure = some .uniqueViolation) = true := by
    decide +kernel
  obtain ⟨s, hs, hfacts⟩ := (Option.any_eq_true _ _).mp hrun
  rw [Bool.and_eq_true] at hfacts
  obtain ⟨a, ha⟩ := Option.isSome_iff_exists.mp hfacts.1
  obtain ⟨s', hs', hfails⟩ := (Option.any_eq_true _ _).mp hfacts.2
  intro hall
  exact hall plainCrates s s' 1 a (reach_of_run _ ⟨⟨rfl, rfl⟩, rfl, rfl⟩ hs) ha hs'
    (of_decide_eq_true hfails)

end CtfZone.Contests
