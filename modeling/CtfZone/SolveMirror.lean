/-
# Solves and correct submissions

The scores are read from `solves`, the history from `submissions`.  The two are kept in
step: a row of `solves` is there exactly for a correct row of `submissions`, with its
challenge, user and team.

* `Mirrored` : the two tables agree, and ids are given once;
* `Writes.mirrored`, `Advances.mirrored` : requests and attempts keep them in step;
* `solves_mirror_submissions` : they agree at every moment.
-/
import CtfZone.ContestSystem

namespace CtfZone.Contests

open Journal Runs Tables Submissions

variable {crates : Crates}

/-! ## Tables in step -/

/-- The row of `solves` that belongs to a row of `submissions`. -/
def SubmissionRow.solve (row : SubmissionRow) : SolveRow :=
  ⟨row.id, row.challengeId, row.userId, row.teamId⟩

/-- The key of `submissions`. -/
def submissionKey (row : SubmissionRow) : Option ℤ := some row.id

/-- The two tables agree. -/
structure Mirrored (contest : Contest crates) : Prop where
  unique : Unique submissionKey contest.portal.submissions
  fresh : ∀ row ∈ contest.portal.submissions, row.id < contest.portal.nextSubmissionId
  solves : ∀ solve, solve ∈ contest.portal.solves ↔ ∃ row ∈ contest.portal.submissions,
    row.submissionType = "correct" ∧ SubmissionRow.solve row = solve
  team : ∀ row ∈ contest.portal.submissions, row.teamId.isSome = contest.portal.teamMode

theorem Mirrored.eq_of_id {contest : Contest crates} (h : Mirrored contest)
    {row row' : SubmissionRow} (hrow : row ∈ contest.portal.submissions)
    (hrow' : row' ∈ contest.portal.submissions) (hid : row.id = row'.id) : row = row' :=
  h.unique row hrow row' hrow' row.id rfl (congrArg some hid.symm)

theorem Mirrored.empty {contest : Contest crates} (hsubmissions : contest.portal.submissions = [])
    (hsolves : contest.portal.solves = []) : Mirrored contest := by
  refine ⟨?_, ?_, fun solve => ?_, ?_⟩
  · rw [hsubmissions]
    exact .nil _
  · rw [hsubmissions]
    exact fun _ h => absurd h List.not_mem_nil
  · rw [hsubmissions, hsolves]
    simp
  · rw [hsubmissions]
    exact fun _ h => absurd h List.not_mem_nil

theorem Mirrored.same {contest after : Contest crates} (h : Mirrored contest)
    (hsubmissions : after.portal.submissions = contest.portal.submissions)
    (hsolves : after.portal.solves = contest.portal.solves)
    (hnext : contest.portal.nextSubmissionId ≤ after.portal.nextSubmissionId)
    (hmode : after.portal.teamMode = contest.portal.teamMode) : Mirrored after := by
  refine ⟨?_, fun row hrow => ?_, ?_, ?_⟩
  · rw [hsubmissions]
    exact h.unique
  · rw [hsubmissions] at hrow
    exact lt_of_lt_of_le (h.fresh row hrow) hnext
  · rw [hsubmissions, hsolves]
    exact h.solves
  · rw [hsubmissions, hmode]
    exact h.team

/-- A row is entered, with its solve where it is correct. -/
theorem Mirrored.enter {contest after : Contest crates} (h : Mirrored contest) (row : SubmissionRow)
    (hfresh : ∀ other ∈ contest.portal.submissions, other.id ≠ row.id)
    (hnext : row.id < after.portal.nextSubmissionId)
    (hlater : contest.portal.nextSubmissionId ≤ after.portal.nextSubmissionId)
    (hmode : after.portal.teamMode = contest.portal.teamMode)
    (hteam : row.teamId.isSome = contest.portal.teamMode)
    (hsubmissions : after.portal.submissions = contest.portal.submissions ++ [row])
    (hsolves : after.portal.solves = contest.portal.solves ++
      if row.submissionType = "correct" then [SubmissionRow.solve row] else []) :
    Mirrored after := by
  refine ⟨?_, ?_, fun solve => ?_, ?_⟩
  · rw [hsubmissions]
    refine h.unique.insert fun other hother id hid heq => hfresh other hother ?_
    exact Option.some.inj (hid.trans heq.symm)
  · rw [hsubmissions]
    exact forall_insert (fun other hother => lt_of_lt_of_le (h.fresh other hother) hlater) hnext
  · rw [hsubmissions, hsolves, List.mem_append, h.solves]
    constructor
    · rintro (⟨other, hother, hcorrect, heq⟩ | hnew)
      · exact ⟨other, List.mem_append_left _ hother, hcorrect, heq⟩
      · split at hnew
        · rename_i hcorrect
          exact ⟨row, List.mem_append_right _ (List.mem_singleton.mpr rfl), hcorrect,
            (List.mem_singleton.mp hnew).symm⟩
        · exact absurd hnew List.not_mem_nil
    · rintro ⟨other, hother, hcorrect, rfl⟩
      rcases List.mem_append.mp hother with hold | hnew
      · exact .inl ⟨other, hold, hcorrect, rfl⟩
      · rw [List.mem_singleton.mp hnew] at hcorrect ⊢
        right
        rw [if_pos hcorrect]
        exact List.mem_singleton.mpr rfl
  · rw [hsubmissions, hmode]
    exact forall_insert h.team hteam

/-- Rows go, and the solves with them. -/
theorem Mirrored.delete {contest after : Contest crates} (h : Mirrored contest)
    {p : SubmissionRow → Bool} {q : SolveRow → Bool}
    (hmirrored : ∀ (row : SubmissionRow) (solve : SolveRow), solve.challengeId = row.challengeId →
      solve.userId = row.userId → solve.teamId = row.teamId → q solve = true → p row = true)
    (hsubmissions : after.portal.submissions = contest.portal.submissions.filter (! p ·))
    (hsolves : after.portal.solves = (contest.portal.solves.filter fun solve =>
      ! contest.portal.submissions.any fun row => p row && row.id = solve.id).filter (! q ·))
    (hnext : after.portal.nextSubmissionId = contest.portal.nextSubmissionId)
    (hmode : after.portal.teamMode = contest.portal.teamMode) : Mirrored after := by
  have hmem (row : SubmissionRow) : row ∈ after.portal.submissions ↔
      row ∈ contest.portal.submissions ∧ p row = false := by
    rw [hsubmissions, List.mem_filter, Bool.not_eq_true']
  refine ⟨fun row hrow row' hrow' => ?_, fun row hrow => ?_, fun solve => ?_, fun row hrow => ?_⟩
  · exact h.unique row ((hmem row).mp hrow).1 row' ((hmem row').mp hrow').1
  · rw [hnext]
    exact h.fresh row ((hmem row).mp hrow).1
  · have hgone : contest.portal.submissions.any (fun row => p row && row.id = solve.id) = true ↔
        ∃ row ∈ contest.portal.submissions, p row = true ∧ row.id = solve.id := by
      simp [List.any_eq_true]
    rw [hsolves, List.mem_filter, List.mem_filter, Bool.not_eq_true', Bool.not_eq_true', h.solves,
      ← Bool.not_eq_true, hgone]
    constructor
    · rintro ⟨⟨⟨row, hrow, hcorrect, rfl⟩, hstays⟩, -⟩
      refine ⟨row, (hmem row).mpr ⟨hrow, ?_⟩, hcorrect, rfl⟩
      rw [← Bool.not_eq_true]
      exact fun hp => hstays ⟨row, hrow, hp, rfl⟩
    · rintro ⟨row, hrow, hcorrect, rfl⟩
      obtain ⟨hrow, hp⟩ := (hmem row).mp hrow
      refine ⟨⟨⟨row, hrow, hcorrect, rfl⟩, ?_⟩, ?_⟩
      · rintro ⟨row', hrow', hp', hid⟩
        rw [h.eq_of_id hrow' hrow hid, hp] at hp'
        cases hp'
      · rw [← Bool.not_eq_true]
        intro hq
        rw [hmirrored row _ rfl rfl rfl hq] at hp
        cases hp
  · rw [hmode]
    exact h.team row ((hmem row).mp hrow).1

/-- A row changes its type, and its solve goes where it is no longer correct. -/
theorem Mirrored.patch {contest after : Contest crates} (h : Mirrored contest)
    {current : SubmissionRow} (hcurrent : current ∈ contest.portal.submissions)
    (f : SubmissionRow → SubmissionRow) (submissionType : String)
    (hf : ∀ row, SubmissionRow.solve (f row) = SubmissionRow.solve row ∧
      (f row).submissionType = submissionType)
    (hkind : submissionType = "correct" → current.submissionType = "correct")
    (hsubmissions : after.portal.submissions =
      update (·.id = current.id) f contest.portal.submissions)
    (hsolves : after.portal.solves =
      if current.submissionType = "correct" ∧ submissionType ≠ "correct" then
        contest.portal.solves.filter fun solve => ! decide (solve.id = current.id)
      else contest.portal.solves)
    (hnext : after.portal.nextSubmissionId = contest.portal.nextSubmissionId)
    (hmode : after.portal.teamMode = contest.portal.teamMode) : Mirrored after := by
  have hid (row : SubmissionRow) : (f row).id = row.id := congrArg SolveRow.id (hf row).1
  have hfteam (row : SubmissionRow) : (f row).teamId = row.teamId :=
    congrArg SolveRow.teamId (hf row).1
  refine ⟨?_, ?_, fun solve => ?_, ?_⟩
  · rw [hsubmissions]
    refine h.unique.update fun row _ _ id hkey => ?_
    rwa [submissionKey, hid] at hkey
  · rw [hsubmissions, hnext]
    refine Tables.forall_update h.fresh fun row _ _ hlt => ?_
    rwa [hid]
  · have hrows : (∃ row ∈ after.portal.submissions, row.submissionType = "correct" ∧
        SubmissionRow.solve row = solve) ↔ ∃ row ∈ contest.portal.submissions,
        row.submissionType = "correct" ∧ SubmissionRow.solve row = solve ∧
          (row.id = current.id → submissionType = "correct") := by
      rw [hsubmissions]
      constructor
      · rintro ⟨patched, hpatched, hcorrect, rfl⟩
        obtain ⟨row, hrow, ⟨hp, rfl⟩ | ⟨hp, rfl⟩⟩ := mem_update.mp hpatched
        · rw [(hf row).2] at hcorrect
          have hrowCurrent := h.eq_of_id hrow hcurrent (of_decide_eq_true hp)
          exact ⟨row, hrow, hrowCurrent ▸ hkind hcorrect, (hf row).1.symm, fun _ => hcorrect⟩
        · exact ⟨row, hrow, hcorrect, rfl, fun heq => absurd heq (of_decide_eq_false hp)⟩
      · rintro ⟨row, hrow, hcorrect, rfl, hstays⟩
        by_cases heq : row.id = current.id
        · refine ⟨f row, mem_update.mpr ⟨row, hrow, .inl ⟨decide_eq_true heq, rfl⟩⟩, ?_, (hf row).1⟩
          rw [(hf row).2]
          exact hstays heq
        · exact ⟨row, mem_update.mpr ⟨row, hrow, .inr ⟨decide_eq_false heq, rfl⟩⟩, hcorrect, rfl⟩
    rw [hrows, hsolves]
    split
    · rename_i hunsolved
      rw [List.mem_filter, h.solves]
      simp only [Bool.not_eq_true', decide_eq_false_iff_not]
      constructor
      · rintro ⟨⟨row, hrow, hcorrect, rfl⟩, hother⟩
        exact ⟨row, hrow, hcorrect, rfl, fun heq => absurd heq hother⟩
      · rintro ⟨row, hrow, hcorrect, rfl, hstays⟩
        exact ⟨⟨row, hrow, hcorrect, rfl⟩, fun heq => hunsolved.2 (hstays heq)⟩
    · rename_i hkept
      rw [h.solves]
      refine exists_congr fun row => and_congr_right fun hrow => and_congr_right fun hcorrect =>
        ⟨fun heq => ⟨heq, fun hsame => ?_⟩, fun heq => heq.1⟩
      by_contra hother
      exact hkept ⟨h.eq_of_id hrow hcurrent hsame ▸ hcorrect, hother⟩
  · rw [hsubmissions, hmode]
    refine Tables.forall_update h.team fun row _ _ hteam => ?_
    rwa [hfteam]

/-! ## Requests -/

theorem Entry.mirrored {contest after : Contest crates} {row : SubmissionRow} (h : Mirrored contest)
    (he : Entry contest after row) (hmode : after.portal.teamMode = contest.portal.teamMode) :
    Mirrored after := by
  obtain ⟨hid, hsubmissions, hsolves, -, hteam, hnext⟩ := he
  refine h.enter row (fun other hother heq => ?_) ?_ ?_ hmode hteam hsubmissions hsolves
  · have := h.fresh other hother
    omega
  · omega
  · omega

/-- A request keeps the tables in step. -/
theorem Writes.mirrored {contest after : Contest crates} (h : Mirrored contest)
    (hw : Writes contest after) (hmode : after.portal.teamMode = contest.portal.teamMode ∨
      after.portal.submissions = [] ∧ after.portal.solves = []) : Mirrored after := by
  rcases hmode with hmode | hnone
  · cases hw with
    | keeps submissions solves next => exact h.same submissions solves next.ge hmode
    | deletes p q mirrored submissions solves next =>
        exact h.delete mirrored submissions solves next hmode
    | enters row entry => exact entry.mirrored h hmode
    | replaces middle row current entry correct found before submissions solves next =>
        let entered : Contest crates := { middle with
          portal := { middle.portal with teamMode := contest.portal.teamMode } }
        have hentered : Mirrored entered :=
          Entry.mirrored h (show Entry contest entered row from entry) rfl
        have hcurrent : current ∈ entered.portal.submissions := by
          show current ∈ middle.portal.submissions
          rw [entry.2.1]
          exact List.mem_append_left _ (List.mem_of_find?_eq_some found)
        refine hentered.patch hcurrent
          (fun row => { row with submissionType := "discard", provided := row.provided }) "discard"
          (fun _ => ⟨rfl, rfl⟩) (fun hc => absurd hc (by decide)) submissions ?_ next hmode
        rw [if_neg fun hc => before hc.1]
        exact solves
    | patches current submissionType provided found kind submissions solves next =>
        exact h.patch (List.mem_of_find?_eq_some found)
          (fun row => { row with submissionType, provided := provided.or row.provided })
          submissionType (fun _ => ⟨rfl, rfl⟩) kind submissions solves next hmode
    | clears submissions solves next => exact .empty submissions solves
  · exact .empty hnone.1 hnone.2

/-- The rows after a request are rows from before, changed in place, or one with a new id. -/
theorem Writes.ids {contest after : Contest crates} (hw : Writes contest after) :
    contest.portal.nextSubmissionId ≤ after.portal.nextSubmissionId ∧
    ∀ row ∈ after.portal.submissions, row.id = contest.portal.nextSubmissionId ∨
      ∃ old ∈ contest.portal.submissions, old.id = row.id := by
  have hentry {middle : Contest crates} {row : SubmissionRow} (he : Entry contest middle row) :
      contest.portal.nextSubmissionId ≤ middle.portal.nextSubmissionId ∧
      ∀ row ∈ middle.portal.submissions, row.id = contest.portal.nextSubmissionId ∨
        ∃ old ∈ contest.portal.submissions, old.id = row.id := by
    obtain ⟨hid, hsubmissions, -, -, -, hnext⟩ := he
    refine ⟨by omega, fun other hother => ?_⟩
    rw [hsubmissions] at hother
    rcases List.mem_append.mp hother with hold | hnew
    · exact .inr ⟨other, hold, rfl⟩
    · rw [List.mem_singleton.mp hnew]
      exact .inl hid
  cases hw with
  | keeps submissions solves next =>
      exact ⟨next.ge, fun row hrow => .inr ⟨row, submissions ▸ hrow, rfl⟩⟩
  | deletes p q mirrored submissions solves next =>
      refine ⟨next.ge, fun row hrow => ?_⟩
      rw [submissions] at hrow
      exact .inr ⟨row, (List.mem_filter.mp hrow).1, rfl⟩
  | enters row entry => exact hentry entry
  | replaces middle row current entry correct found before submissions solves next =>
      refine ⟨next ▸ (hentry entry).1, fun other hother => ?_⟩
      rw [submissions] at hother
      obtain ⟨old, hold, ⟨-, rfl⟩ | ⟨-, rfl⟩⟩ := mem_update.mp hother
      · exact (hentry entry).2 old hold
      · exact (hentry entry).2 old hold
  | patches current submissionType provided found kind submissions solves next =>
      refine ⟨next.ge, fun other hother => .inr ?_⟩
      rw [submissions] at hother
      obtain ⟨old, hold, ⟨-, rfl⟩ | ⟨-, rfl⟩⟩ := mem_update.mp hother
      · exact ⟨old, hold, rfl⟩
      · exact ⟨old, hold, rfl⟩
  | clears submissions solves next =>
      refine ⟨next.ge, fun row hrow => ?_⟩
      rw [submissions] at hrow
      exact absurd hrow List.not_mem_nil

/-! ## Attempts -/

/-- The committed tables agree, and the rows in flight have ids of their own. -/
structure MirroredService (s : Service crates) : Prop where
  contest : Mirrored s.contest
  pending : ∀ attempt ∈ s.attempts, ∀ a ∈ attempt.pending,
    a.id < s.contest.portal.nextSubmissionId ∧ ∀ row ∈ s.contest.portal.submissions, row.id ≠ a.id
  apart : Slots.Apart Attempt.pending (fun a b => a.id ≠ b.id) s.attempts

theorem entered_solve (a : Entered) : a.solveRows =
    if a.row.submissionType = "correct" then [SubmissionRow.solve a.row] else [] := by
  have hkind : a.row.submissionType = "correct" ↔ a.solves = true := by
    unfold Entered.row Entered.submissionType Entered.solves
    cases a.solved with
    | true => simp
    | false => cases a.comparison.outcome <;> simp [FlagResult.submissionType]
  unfold Entered.solveRows
  by_cases hsolves : a.solves = true
  · rw [if_pos hsolves, if_pos (hkind.mpr hsolves)]
    rfl
  · rw [if_neg hsolves, if_neg (mt hkind.mp hsolves)]

/-- A statement of an attempt keeps the tables in step. -/
theorem Advances.mirrored {s : Service crates} {i : ℕ} {a a' : Attempt} {contest : Contest crates}
    (hs : MirroredService s) (hl : Locked s) (ha : s.attempts[i]? = some a)
    (h : Advances s i a contest a') : Mirrored contest := by
  have hmem : a ∈ s.attempts := List.mem_of_getElem? ha
  obtain ⟨-, -, -, -, -, -, hmode, hnext⟩ := h.frame
  cases h with
  | @ratelimits a response recorded limit refers =>
      have hsound := hl.sound _ hmem a rfl
      refine hs.contest.enter (⟨s.contest.portal.nextSubmissionId, a.opened.challenge.id,
        some a.request.userId, a.opened.teamId, some a.opened.submission, "ratelimited",
        a.startedAt⟩ : SubmissionRow) (fun other hother heq => ?_) (Int.lt_add_one_iff.mpr (le_refl _)) hnext rfl
        hsound.team rfl ?_
      · have := hs.contest.fresh other hother
        have heq : other.id = s.contest.portal.nextSubmissionId := heq
        omega
      · rw [if_neg (by decide : ¬ "ratelimited" = "correct"), List.append_nil]
        rfl
  | @commits a value =>
      obtain ⟨hfresh, hother⟩ := hs.pending _ hmem a rfl
      have hsound := hl.sound _ hmem a.toOpened rfl
      exact hs.contest.enter a.row hother (lt_of_lt_of_le hfresh hnext) hnext hmode
        hsound.team (commit_submissions s a value)
        ((commit_solves s a value).trans (congrArg _ (entered_solve a)))
  | loses | violates | records =>
      exact hs.contest.same rfl rfl (Int.le_add_one (le_refl _)) rfl
  | _ => exact hs.contest

/-- What becomes of the ids in flight. -/
theorem Advances.pending_ids {s : Service crates} {i : ℕ} {a a' : Attempt}
    {contest : Contest crates} (h : Advances s i a contest a') :
    (∀ b ∈ a'.pending, b ∈ a.pending ∨ b.id = s.contest.portal.nextSubmissionId ∧
      contest.portal.nextSubmissionId = s.contest.portal.nextSubmissionId + 1 ∧
      contest.portal.submissions = s.contest.portal.submissions) ∧
    ∀ row ∈ contest.portal.submissions, row ∈ s.contest.portal.submissions ∨
      row.id = s.contest.portal.nextSubmissionId ∨
      a'.pending = none ∧ ∃ b ∈ a.pending, b.id = row.id := by
  cases h with
  | ratelimits limit refers =>
      refine ⟨fun b hb => absurd hb (Option.not_mem_none b), fun row hrow => ?_⟩
      rcases List.mem_append.mp hrow with hold | hnew
      · exact .inl hold
      · rw [List.mem_singleton.mp hnew]
        exact .inr (.inl rfl)
  | @commits a value =>
      refine ⟨fun b hb => absurd hb (Option.not_mem_none b), fun row hrow => ?_⟩
      rw [commit_submissions] at hrow
      rcases List.mem_append.mp hrow with hold | hnew
      · exact .inl hold
      · rw [List.mem_singleton.mp hnew]
        exact .inr (.inr ⟨rfl, a, rfl, rfl⟩)
  | records unedited refers free =>
      refine ⟨fun b hb => ?_, fun row hrow => .inl hrow⟩
      cases hb
      exact .inr ⟨rfl, rfl, rfl⟩
  | scores computed free => exact ⟨fun b hb => .inl hb, fun row hrow => .inl hrow⟩
  | _ => exact ⟨fun b hb => absurd hb (Option.not_mem_none b), fun row hrow => .inl hrow⟩

/-- The rows in flight of the others. -/
theorem MirroredService.advance {s : Service crates} {i : ℕ} {a a' : Attempt}
    {contest : Contest crates} (hs : MirroredService s) (hl : Locked s)
    (ha : s.attempts[i]? = some a) (h : Advances s i a contest a') :
    MirroredService { s with contest, attempts := s.attempts.set i a' } := by
  obtain ⟨-, -, -, -, -, -, -, hnext⟩ := h.frame
  obtain ⟨hids, hrows⟩ := h.pending_ids
  have hmem : a ∈ s.attempts := List.mem_of_getElem? ha
  refine ⟨h.mirrored hs hl ha, fun attempt hattempt b hb => ?_, ?_⟩
  · obtain ⟨j, hj⟩ := List.mem_iff_getElem?.mp hattempt
    by_cases hij : j = i
    · subst hij
      rw [List.getElem?_set_self (List.getElem?_eq_some_iff.mp ha).1] at hj
      cases hj
      rcases hids b hb with hold | ⟨hid, hlater, hsame⟩
      · obtain ⟨hfresh, hother⟩ := hs.pending a hmem b hold
        refine ⟨lt_of_lt_of_le hfresh hnext, fun row hrow heq => ?_⟩
        rcases hrows row hrow with hrow | hrow | ⟨hnone, -⟩
        · exact hother row hrow heq
        · rw [hrow] at heq
          rw [heq] at hfresh
          exact lt_irrefl _ hfresh
        · rw [hnone] at hb
          cases hb
      · refine ⟨?_, fun row hrow heq => ?_⟩
        · show b.id < contest.portal.nextSubmissionId
          rw [hid, hlater]
          exact Int.lt_add_one_iff.mpr (le_refl _)
        · have hrow : row ∈ s.contest.portal.submissions := hsame ▸ hrow
          have hfresh := hs.contest.fresh row hrow
          rw [heq, hid] at hfresh
          exact lt_irrefl _ hfresh
    · rw [List.getElem?_set_ne (Ne.symm hij)] at hj
      obtain ⟨hfresh, hother⟩ := hs.pending attempt (List.mem_of_getElem? hj) b hb
      refine ⟨lt_of_lt_of_le hfresh hnext, fun row hrow heq => ?_⟩
      rcases hrows row hrow with hrow | hrow | ⟨-, c, hc, hid⟩
      · exact hother row hrow heq
      · rw [hrow] at heq
        rw [heq] at hfresh
        exact lt_irrefl _ hfresh
      · exact hs.apart i j c b (Ne.symm hij) ((Slots.at'_eq ha).trans hc)
          ((Slots.at'_eq hj).trans hb) (hid.trans heq)
  · refine hs.apart.set (fun _ _ h => h.symm) ha fun b hb j c hj hc => ?_
    rcases hids b hb with hold | ⟨hid, -, -⟩
    · exact hs.apart i j b c (Ne.symm hj) ((Slots.at'_eq ha).trans hold) hc
    · obtain ⟨attempt, hattempt, hpending⟩ := Slots.at'_some.mp hc
      obtain ⟨hfresh, -⟩ := hs.pending attempt (List.mem_of_getElem? hattempt) c hpending
      rw [hid]
      exact fun heq => lt_irrefl _ (heq ▸ hfresh)

/-! ## The service -/

theorem serviceStep_mirrored {s s' : Service crates} {label : ServiceLabel} (hl : Locked s)
    (hs : MirroredService s) (h : serviceStep label s = some s') : MirroredService s' := by
  cases label with
  | tick elapsed =>
      cases h
      exact ⟨hs.contest, hs.pending, hs.apart⟩
  | submit request =>
      cases h
      obtain ⟨-, hpending, -⟩ := gate_locks s request
      refine ⟨hs.contest, fun attempt hattempt a ha => ?_, hs.apart.append hpending⟩
      rcases List.mem_append.mp hattempt with hold | hnew
      · exact hs.pending attempt hold a ha
      · rw [List.mem_singleton.mp hnew, hpending] at ha
        cases ha
  | attempt i p =>
      obtain ⟨a, contest, a', ha, hadvances, rfl⟩ := advance_advances h
      exact hs.advance hl ha hadvances
  | operate op =>
      obtain ⟨contest, rfl, rfl | ⟨-, hchange⟩, hmode⟩ := operate_cases h
      · exact hs
      · have hw := Operation.change_writes hchange
        obtain ⟨hnext, hids⟩ := hw.ids
        refine ⟨hw.mirrored hs.contest (hmode.imp_right And.right), fun attempt hattempt a ha => ?_,
          hs.apart⟩
        obtain ⟨hfresh, hother⟩ := hs.pending attempt hattempt a ha
        refine ⟨lt_of_lt_of_le hfresh hnext, fun row hrow heq => ?_⟩
        rcases hids row hrow with hnew | ⟨old, hold, hid⟩
        · rw [heq] at hnew
          exact lt_irrefl _ (hnew ▸ hfresh)
        · exact hother old hold (hid.trans heq)
  | edit challengeId patch scoring =>
      rcases edit_cases h with rfl | ⟨rows, -, -, -, rfl⟩
      · exact hs
      · exact ⟨hs.contest, hs.pending, hs.apart⟩
  | commitEdit i =>
      obtain ⟨e, -, rfl⟩ := commitEdit_cases h
      exact ⟨hs.contest.same rfl rfl (le_refl _) rfl, hs.pending, hs.apart⟩

theorem mirrored_reach {s : Service crates} (hr : Reach serviceStep anyStep NewService s) :
    MirroredService s := by
  have hlocked (t : Service crates) (ht : Reach serviceStep anyStep NewService t) : Locked t :=
    locked_reach (fun _ h => h.1) ht
  refine hr.invariant_with hlocked (fun t ht => ?_)
    fun t label t' hl hs _ hstep => serviceStep_mirrored hl hs hstep
  obtain ⟨⟨hattempts, -⟩, hsubmissions, hsolves⟩ := ht
  refine ⟨.empty hsubmissions hsolves, ?_, ?_⟩
  · rw [hattempts]
    exact fun _ h => absurd h List.not_mem_nil
  · rw [hattempts]
    exact .nil

/-- **Solves mirror correct submissions.**  Whatever attempts, administrators and members
of teams do at once, a row of `solves` with an id is there exactly when the submission with
that id is there and correct; the two name the same challenge, user and team, which is a
team in team mode and none otherwise; and an update of a submission that fails changes
neither table. -/
theorem solves_mirror_submissions {s : Service crates}
    (hr : Reach serviceStep anyStep NewService s) :
    (∀ id, (∃ solve ∈ s.contest.portal.solves, solve.id = id) ↔
      ∃ row ∈ s.contest.portal.submissions, row.id = id ∧ row.submissionType = "correct") ∧
    (∀ solve ∈ s.contest.portal.solves, ∀ row ∈ s.contest.portal.submissions, row.id = solve.id →
      row.challengeId = solve.challengeId ∧ row.userId = solve.userId ∧
        row.teamId = solve.teamId) ∧
    (∀ solve ∈ s.contest.portal.solves, solve.teamId.isSome = s.contest.portal.teamMode) ∧
    ∀ (submissionId : ℤ) (request : Contest.SubmissionPatch) (error : String) (s' : Service crates),
      s.contest.updateSubmission submissionId request = .error error →
      serviceStep (.operate (.updateSubmission submissionId request)) s = some s' →
      s'.contest.portal.submissions = s.contest.portal.submissions ∧
        s'.contest.portal.solves = s.contest.portal.solves := by
  obtain ⟨hm, -, -⟩ := mirrored_reach hr
  refine ⟨fun id => ⟨?_, ?_⟩, fun solve hsolve row hrow hid => ?_, fun solve hsolve => ?_,
    fun submissionId request error s' herror hstep => ?_⟩
  · rintro ⟨solve, hsolve, rfl⟩
    obtain ⟨row, hrow, hcorrect, rfl⟩ := (hm.solves solve).mp hsolve
    exact ⟨row, hrow, rfl, hcorrect⟩
  · rintro ⟨row, hrow, rfl, hcorrect⟩
    exact ⟨SubmissionRow.solve row, (hm.solves _).mpr ⟨row, hrow, hcorrect, rfl⟩, rfl⟩
  · obtain ⟨own, hown, -, rfl⟩ := (hm.solves solve).mp hsolve
    rw [hm.eq_of_id hrow hown hid]
    exact ⟨rfl, rfl, rfl⟩
  · obtain ⟨own, hown, -, rfl⟩ := (hm.solves solve).mp hsolve
    exact hm.team own hown
  · obtain ⟨contest, rfl, rfl | ⟨-, hchange⟩, -⟩ := operate_cases hstep
    · exact ⟨rfl, rfl⟩
    · cases herror.symm.trans hchange

/-- The user 7 solves a challenge, and an administrator takes the solve back. -/
theorem solves_mirror_practice : ∃ solved taken,
    run serviceStep (submits 7 1 "A" :: .attempt 0 (.acquire 0) :: .attempt 0 .limit :: finishes 0)
      practice = some solved ∧
    serviceStep (.operate (.updateSubmission 1 { submissionType := some "incorrect" })) solved =
      some taken ∧
    (∃ solve ∈ solved.contest.portal.solves, solve.id = 1) ∧
    ¬ ∃ solve ∈ taken.contest.portal.solves, solve.id = 1 := by
  have hrun : ((run serviceStep
      (submits 7 1 "A" :: .attempt 0 (.acquire 0) :: .attempt 0 .limit :: finishes 0)
      practice).any fun solved =>
      (solved.contest.portal.submissions.any fun row => row.id = 1 && row.submissionType = "correct") &&
      (serviceStep (.operate (.updateSubmission 1 { submissionType := some "incorrect" })) solved).any
        fun taken => taken.contest.portal.submissions.all fun row =>
          ! (row.id = 1 && row.submissionType = "correct")) = true := by
    decide +kernel
  obtain ⟨solved, hsolved, hfacts⟩ := (Option.any_eq_true _ _).mp hrun
  rw [Bool.and_eq_true] at hfacts
  obtain ⟨hcorrect, hafter⟩ := hfacts
  obtain ⟨taken, htaken, hnone⟩ := (Option.any_eq_true _ _).mp hafter
  have hr : Reach serviceStep anyStep NewService solved := reach_of_run _ practice_new hsolved
  refine ⟨solved, taken, hsolved, htaken, ((solves_mirror_submissions hr).1 1).mpr ?_, ?_⟩
  · simpa [List.any_eq_true] using hcorrect
  · rw [(solves_mirror_submissions (.step _ hr trivial htaken)).1 1]
    rintro ⟨row, hrow, hid, hkind⟩
    have := List.all_eq_true.mp hnone row hrow
    simp [hid, hkind] at this

end CtfZone.Contests
