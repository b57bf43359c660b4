/-
# Profiles against the scoreboard

The two readings of the tables come to the same rows: a solve has the account and the
challenge of its submission, so that the groups of the profile and of the standings are
the same, and what they leave to choose is which of two rows with the same keys is first.

* `Database.Keyed`, `Database.Mirrors`, `Database.IntegerFreeze` : the tables;
* `points_perm` : the points of the standings, from the rows of a profile;
* `totals_eq`, `score_eq` : the groups and the score;
* `profile_agrees` : score and place of a profile.
-/
import CtfZone.Profiles
import CtfZone.SolveMirror
import Mathlib.Algebra.BigOperators.Group.List.Basic

namespace CtfZone.Scoreboard

open Journal Submissions Rankings

/-! ## The tables -/

namespace Database

/-- The primary keys. -/
structure Keyed (database : Database) : Prop where
  users : (database.users.map AccountRow.id).Nodup
  teams : (database.teams.map AccountRow.id).Nodup
  submissions : (database.submissions.map SubmissionRow.id).Nodup
  solves : (database.solves.map SolveRow.id).Nodup

/-- A row of `solves` has the challenge, the user and the team of its submission. -/
def Mirrors (database : Database) : Prop :=
  ∀ solve ∈ database.solves, ∀ submission ∈ database.submissions, submission.id = solve.id →
    Contests.SubmissionRow.solve submission = solve

/-- The setting `freeze` is empty or an integer. -/
def IntegerFreeze (database : Database) : Prop :=
  ∀ text, database.freeze = some text → text = "" ∨ ∃ n, parseI64 text = some n

end Database

/-- The requests of the portal keep the two tables so. -/
theorem mirrors_of_mirrored {crates : Crates} {contest : Contests.Contest crates}
    (h : Contests.Mirrored contest) {database : Database}
    (hsubmissions : database.submissions = contest.portal.submissions)
    (hsolves : database.solves = contest.portal.solves) : database.Mirrors := by
  intro solve hsolve submission hsubmission hid
  rw [hsolves] at hsolve
  rw [hsubmissions] at hsubmission
  obtain ⟨row, hrow, -, rfl⟩ := (h.solves solve).mp hsolve
  rw [h.eq_of_id hsubmission hrow hid]

/-! ## The freeze -/

theorem parseI64_empty : parseI64 "" = none := rfl

/-- An integer is read in the same way on both sides. -/
theorem freeze_eq {double : DoublePrecision} (hreads : double.Reads) {database : Database}
    (hfreeze : database.IntegerFreeze) :
    database.freezeConfig double = Database.cutoff double database.profileFreeze := by
  unfold Database.freezeConfig Database.profileFreeze
  rcases htext : database.freeze with _ | text
  · rfl
  · by_cases hempty : text = ""
    · subst hempty
      rw [Option.bind_some, parseI64_empty]
      rfl
    · obtain ⟨n, hn⟩ := (hfreeze text htext).resolve_left hempty
      rw [Option.bind_some, hn, Option.filter_some_pos (by exact decide_eq_true hempty)]
      unfold Database.cutoff
      dsimp only
      rw [hreads text n hn]
      rfl

/-! ## The rows of a profile -/

/-- The rows a profile is added up from. -/
def Database.scored (database : Database) (kind : Kind) : List Scored :=
  database.solves.filterMap (database.scoredSolve kind) ++
    database.awards.map (Database.scoredAward kind)

theorem find?_eq_some_of_nodup {α : Type} (key : α → ℤ) {l : List α} (h : (l.map key).Nodup)
    {a : α} (ha : a ∈ l) : l.find? (key · = key a) = some a := by
  induction l with
  | nil => exact absurd ha List.not_mem_nil
  | cons b l ih =>
      rw [List.map_cons, List.nodup_cons] at h
      rcases List.mem_cons.mp ha with rfl | ha'
      · rw [List.find?_cons_of_pos (by exact decide_eq_true rfl)]
      · have hb : key b ≠ key a := fun hkey => h.1 (hkey ▸ List.mem_map_of_mem ha')
        rw [List.find?_cons_of_neg (by rw [decide_eq_true_eq]; exact hb)]
        exact ih h.2 ha'

theorem column_kindOf (database : Database) (freeze : Option Time) (userId teamId : Option ℤ) :
    (database.board freeze).accountColumn userId teamId =
      database.kindOf.column userId teamId := by
  show (if database.teamMode then teamId else userId) = _
  unfold Database.kindOf
  cases database.teamMode with
  | true => rfl
  | false => rfl

/-- The points of an award. -/
theorem awardPoints_eq (database : Database) (freeze : Option Time) (award : AwardRow) :
    (database.board freeze).awardPoints false award =
      (Database.scoredAward database.kindOf award).points freeze := by
  unfold Board.awardPoints Scored.points
  rw [column_kindOf]
  rfl

theorem points_eq_some {freeze : Option Time} {row : Scored} {points : Points} :
    row.points freeze = some points ↔ ∃ accountId value, row.accountId = some accountId ∧
      row.value = some value ∧ value ≠ 0 ∧ row.shown freeze = true ∧
        points = ⟨accountId, value, row.id, row.date⟩ := by
  unfold Scored.points
  constructor
  · intro h
    obtain ⟨accountId, haccount, h⟩ := Option.bind_eq_some_iff.mp h
    obtain ⟨value, hvalue, h⟩ := Option.bind_eq_some_iff.mp h
    split at h
    · rename_i hp
      rw [Bool.and_eq_true, decide_eq_true_eq] at hp
      exact ⟨accountId, value, haccount, hvalue, hp.1, hp.2, (Option.some.inj h).symm⟩
    · exact absurd h (by simp)
  · rintro ⟨accountId, value, haccount, hvalue, hne, hshown, rfl⟩
    simp [haccount, hvalue, hne, hshown]

theorem solvePoints_eq_some {database : Database} {freeze : Option Time} {row : SubmissionRow}
    {points : Points} : (database.board freeze).solvePoints false row = some points ↔
      ∃ accountId value, database.kindOf.column row.userId row.teamId = some accountId ∧
        (database.board freeze).valueOf row.challengeId = some value ∧ value ≠ 0 ∧
          (database.board freeze).solved row.id = true ∧ freeze.all (row.date < ·) = true ∧
            points = ⟨accountId, value, row.id, row.date⟩ := by
  unfold Board.solvePoints
  rw [column_kindOf]
  constructor
  · intro h
    obtain ⟨accountId, haccount, h⟩ := Option.bind_eq_some_iff.mp h
    obtain ⟨value, hvalue, h⟩ := Option.bind_eq_some_iff.mp h
    split at h
    · rename_i hp
      rw [Bool.and_eq_true, Bool.and_eq_true, decide_eq_true_eq, Bool.false_or] at hp
      exact ⟨accountId, value, haccount, hvalue, hp.1.2, hp.1.1, hp.2, (Option.some.inj h).symm⟩
    · exact absurd h (by simp)
  · rintro ⟨accountId, value, haccount, hvalue, hne, hsolved, hshown, rfl⟩
    have hshown' : (database.board freeze).shown row.date = true := hshown
    simp [haccount, hvalue, hne, hsolved, hshown']

theorem scoredSolve_eq_some {database : Database} {kind : Kind} {solve : SolveRow} {row : Scored} :
    database.scoredSolve kind solve = some row ↔ ∃ challenge submission,
      database.challenges.find? (·.challengeId = solve.challengeId) = some challenge ∧
        database.submissions.find? (·.id = solve.id) = some submission ∧
          row = ⟨kind.column solve.userId solve.teamId, challenge.value, solve.id,
            submission.date⟩ := by
  unfold Database.scoredSolve
  constructor
  · intro h
    obtain ⟨challenge, hchallenge, h⟩ := Option.bind_eq_some_iff.mp h
    obtain ⟨submission, hsubmission, h⟩ := Option.bind_eq_some_iff.mp h
    exact ⟨challenge, submission, hchallenge, hsubmission, (Option.some.inj h).symm⟩
  · rintro ⟨challenge, submission, hchallenge, hsubmission, rfl⟩
    simp only [hchallenge, hsubmission, Option.bind_eq_bind, Option.bind_some]

/-- What the points of a solve come from, on both sides. -/
theorem mem_solvePoints {database : Database} (hkeys : database.Keyed)
    (hmirrors : database.Mirrors) (freeze : Option Time) (points : Points) :
    points ∈ database.submissions.filterMap ((database.board freeze).solvePoints false) ↔
      points ∈ (database.solves.filterMap (database.scoredSolve database.kindOf)).filterMap
        (Scored.points freeze) := by
  simp only [List.mem_filterMap]
  constructor
  · rintro ⟨row, hrow, hpoints⟩
    obtain ⟨accountId, value, haccount, hvalue, hne, hsolved, hshown, rfl⟩ :=
      solvePoints_eq_some.mp hpoints
    obtain ⟨solve, hsolve, hid⟩ := List.any_eq_true.mp hsolved
    have hsolve' := hmirrors solve hsolve row hrow (of_decide_eq_true hid).symm
    obtain ⟨challenge, hchallenge, hvalue⟩ := Option.bind_eq_some_iff.mp hvalue
    subst hsolve'
    refine ⟨⟨database.kindOf.column row.userId row.teamId, challenge.value, row.id, row.date⟩,
      ⟨_, hsolve, scoredSolve_eq_some.mpr ⟨challenge, row, hchallenge, ?_, rfl⟩⟩, ?_⟩
    · exact find?_eq_some_of_nodup SubmissionRow.id hkeys.submissions hrow
    · exact points_eq_some.mpr ⟨accountId, value, haccount, hvalue, hne, hshown, rfl⟩
  · rintro ⟨scored, ⟨solve, hsolve, hscored⟩, hpoints⟩
    obtain ⟨challenge, row, hchallenge, hrow, rfl⟩ := scoredSolve_eq_some.mp hscored
    obtain ⟨accountId, value, haccount, hvalue, hne, hshown, rfl⟩ := points_eq_some.mp hpoints
    have hid : row.id = solve.id := by
      have hp := List.find?_some hrow
      exact of_decide_eq_true hp
    have hmem : row ∈ database.submissions := List.mem_of_find?_eq_some hrow
    have hsolve' := hmirrors solve hsolve row hmem hid
    subst hsolve'
    refine ⟨row, hmem, solvePoints_eq_some.mpr ⟨accountId, value, haccount, ?_, hne, ?_, hshown,
      rfl⟩⟩
    · exact Option.bind_eq_some_iff.mpr ⟨challenge, hchallenge, hvalue⟩
    · exact List.any_eq_true.mpr ⟨_, hsolve, decide_eq_true rfl⟩

theorem nodup_solvePoints {database : Database} (hkeys : database.Keyed)
    (freeze : Option Time) :
    (database.submissions.filterMap ((database.board freeze).solvePoints false)).Nodup := by
  have hids : database.submissions.Pairwise fun a b => a.id ≠ b.id :=
    List.pairwise_map.mp hkeys.submissions
  apply List.Pairwise.filterMap _ _ hids
  intro row row' hid points hpoints points' hpoints' heq
  obtain ⟨_, _, -, -, -, -, -, rfl⟩ := solvePoints_eq_some.mp hpoints
  obtain ⟨_, _, -, -, -, -, -, rfl⟩ := solvePoints_eq_some.mp hpoints'
  exact hid (congrArg Points.id heq)

theorem nodup_scored {database : Database} (hkeys : database.Keyed) (kind : Kind)
    (freeze : Option Time) :
    ((database.solves.filterMap (database.scoredSolve kind)).filterMap
      (Scored.points freeze)).Nodup := by
  have hids : database.solves.Pairwise fun a b => a.id ≠ b.id := List.pairwise_map.mp hkeys.solves
  have hscored : (database.solves.filterMap (database.scoredSolve kind)).Pairwise
      fun a b => a.id ≠ b.id := by
    apply List.Pairwise.filterMap _ _ hids
    intro solve solve' hid row hrow row' hrow' heq
    obtain ⟨_, _, -, -, rfl⟩ := scoredSolve_eq_some.mp hrow
    obtain ⟨_, _, -, -, rfl⟩ := scoredSolve_eq_some.mp hrow'
    exact hid heq
  apply List.Pairwise.filterMap _ _ hscored
  intro row row' hid points hpoints points' hpoints' heq
  obtain ⟨_, _, -, -, -, -, rfl⟩ := points_eq_some.mp hpoints
  obtain ⟨_, _, -, -, -, -, rfl⟩ := points_eq_some.mp hpoints'
  exact hid (congrArg Points.id heq)

/-- The points of the standings are those of the rows of a profile. -/
theorem points_perm {database : Database} (hkeys : database.Keyed) (hmirrors : database.Mirrors)
    (freeze : Option Time) : ((database.board freeze).points false).Perm
      ((database.scored database.kindOf).filterMap (Scored.points freeze)) := by
  unfold Board.points Database.scored
  rw [List.filterMap_append, List.filterMap_map]
  apply List.Perm.append
  · exact (List.perm_ext_iff_of_nodup (nodup_solvePoints hkeys freeze)
      (nodup_scored hkeys database.kindOf freeze)).mpr (mem_solvePoints hkeys hmirrors freeze)
  · rw [List.filterMap_congr fun award _ => awardPoints_eq database freeze award]
    rfl

/-! ## Groups -/

/-- A group by its sum and its greatest values. -/
theorem totalOf_eq (points : List Points) (accountId : ℤ) :
    totalOf points accountId =
      ((points.filter (·.accountId = accountId)).map Points.date).max?.bind fun lastDate =>
        ((points.filter (·.accountId = accountId)).map Points.id).max?.map fun lastId =>
          ⟨((points.filter (·.accountId = accountId)).map Points.value).sum, lastDate, lastId⟩ := by
  unfold totalOf
  split
  · rename_i hrows
    rw [hrows]
    rfl
  · rename_i row rows hrows
    rw [hrows]
    rfl

/-- A group does not depend on the order of the rows. -/
theorem totalOf_perm {points points' : List Points} (h : points.Perm points') (accountId : ℤ) :
    totalOf points accountId = totalOf points' accountId := by
  have hrows := h.filter (·.accountId = accountId)
  rw [totalOf_eq, totalOf_eq, max?_perm (hrows.map Points.date), max?_perm (hrows.map Points.id),
    (hrows.map Points.value).sum_eq]

/-- The groups of two branches, grouped again. -/
theorem totalOf_append (points points' : List Points) (accountId : ℤ) :
    totalOf (points ++ points') accountId =
      mergeTotals (totalOf points accountId) (totalOf points' accountId) := by
  rcases hl : points.filter (·.accountId = accountId) with _ | ⟨row, rows⟩
  · have hnone : totalOf points accountId = none := by rw [totalOf_eq, hl]; rfl
    rw [hnone, totalOf_eq, totalOf_eq, List.filter_append, hl, List.nil_append]
    rfl
  · rcases hl' : points'.filter (·.accountId = accountId) with _ | ⟨row', rows'⟩
    · have hnone : totalOf points' accountId = none := by rw [totalOf_eq, hl']; rfl
      rw [hnone, totalOf_eq, totalOf_eq, List.filter_append, hl, hl', List.append_nil]
      rfl
    · simp only [totalOf_eq, List.filter_append, hl, hl', List.map_append, List.map_cons,
        List.sum_append, List.max?_cons', Option.bind_some, Option.map_some, mergeTotals,
        max?_append (List.max?_cons' (x := row.date)) (List.max?_cons' (x := row'.date)),
        max?_append (List.max?_cons' (x := row.id)) (List.max?_cons' (x := row'.id))]

/-- The group of an account in a profile is that of the standings. -/
theorem totals_eq {database : Database} (hkeys : database.Keyed) (hmirrors : database.Mirrors)
    (freeze : Option Time) (accountId : ℤ) :
    database.totals database.kindOf freeze accountId =
      totalOf ((database.board freeze).points false) accountId := by
  unfold Database.totals
  rw [← totalOf_append, ← List.filterMap_append]
  exact (totalOf_perm (points_perm hkeys hmirrors freeze) accountId).symm

theorem accounts_board (database : Database) (freeze : Option Time) :
    (database.board freeze).accounts = database.kindOf.accounts database := by
  show (if database.teamMode then database.teams else database.users) = _
  unfold Database.kindOf
  cases database.teamMode with
  | true => rfl
  | false => rfl

/-- The rows that are numbered for a profile are those of the standings. -/
theorem contenders_eq {database : Database} (hkeys : database.Keyed) (hmirrors : database.Mirrors)
    (freeze : Option Time) : database.ranked database.kindOf freeze =
      (database.board freeze).contenders none false := by
  unfold Database.ranked Board.contenders
  rw [accounts_board]
  congr 1
  · funext account
    rw [totals_eq hkeys hmirrors]
  · apply List.filter_congr
    intro account _
    rw [Option.all_none, Bool.and_true, Bool.false_or]

/-! ## Scores -/

/-- A score leaves out rows without points as well. -/
theorem scoreOf_eq (freeze : Option Time) (accountId : ℤ) (rows : List Scored) :
    Database.scoreOf freeze accountId rows =
      (((rows.filterMap (Scored.points freeze)).filter (·.accountId = accountId)).map
        Points.value).sum := by
  unfold Database.scoreOf
  induction rows with
  | nil => rfl
  | cons row rows ih =>
      rcases hpoints : row.points freeze with _ | points
      · rw [List.filterMap_cons_none hpoints, ← ih, List.filter_cons]
        split
        · rename_i hp
          rw [Bool.and_eq_true, decide_eq_true_eq] at hp
          have hzero : row.value.getD 0 = 0 := by
            rcases hvalue : row.value with _ | value
            · rfl
            · by_contra hne
              have := points_eq_some.mpr ⟨accountId, value, hp.1, hvalue, hne, hp.2, rfl⟩
              rw [hpoints] at this
              exact absurd this (by simp)
          rw [List.map_cons, List.sum_cons, hzero, zero_add]
        · rfl
      · rw [List.filterMap_cons_some hpoints]
        obtain ⟨account, value, haccount, hvalue, -, hshown, rfl⟩ := points_eq_some.mp hpoints
        by_cases hid : account = accountId
        · subst hid
          rw [List.filter_cons_of_pos (by rw [haccount, hshown]; simp),
            List.filter_cons_of_pos (by simp), List.map_cons, List.map_cons, List.sum_cons,
            List.sum_cons, ih, hvalue]
          rfl
        · rw [List.filter_cons_of_neg (by rw [haccount]; simp [hid]),
            List.filter_cons_of_neg (by simp [hid]), ih]

theorem sum_totalOf (points : List Points) (accountId : ℤ) :
    ((points.filter (·.accountId = accountId)).map Points.value).sum =
      (totalOf points accountId).elim 0 Total.score := by
  unfold totalOf
  split
  · rename_i hrows
    rw [hrows]
    rfl
  · rename_i row rows hrows
    rw [hrows]
    rfl

/-- The score of a profile is that of the group, and zero where there is none. -/
theorem score_eq {database : Database} (hkeys : database.Keyed) (hmirrors : database.Mirrors)
    (freeze : Option Time) (accountId : ℤ) :
    database.score database.kindOf freeze accountId =
      (totalOf ((database.board freeze).points false) accountId).elim 0 Total.score := by
  unfold Database.score
  rw [scoreOf_eq, scoreOf_eq, ← List.sum_append, ← List.map_append, ← List.filter_append,
    ← List.filterMap_append, sum_totalOf, totalOf_perm (points_perm hkeys hmirrors freeze)]
  rfl

/-! ## Places -/

/-- The places that the keys leave to an account. -/
def Places (rows : List Contender) (accountId : ℤ) (place : ℕ) : Prop :=
  ∃ row ∈ rows, row.1.id = accountId ∧ ahead Contender.leads rows row < place ∧
    place ≤ ahead Contender.leads rows row + level Contender.leads rows row

/-- No other account has the score, the last date and the last id of this one. -/
def Untied (rows : List Contender) (accountId : ℤ) : Prop :=
  ∀ row ∈ rows, ∀ row' ∈ rows, row.1.id = accountId → row'.2 = row.2 → row'.1.id = accountId

theorem mem_contenders {board : Board} {row : Contender} :
    row ∈ board.contenders none false ↔ row.1 ∈ board.accounts ∧ row.1.visible = true ∧
      totalOf (board.points false) row.1.id = some row.2 := by
  unfold Board.contenders
  rw [List.mem_filterMap]
  constructor
  · rintro ⟨account, haccount, hrow⟩
    obtain ⟨total, htotal, rfl⟩ := Option.map_eq_some_iff.mp hrow
    obtain ⟨hmem, hp⟩ := List.mem_filter.mp haccount
    rw [Option.all_none, Bool.and_true, Bool.false_or] at hp
    exact ⟨hmem, hp, htotal⟩
  · rintro ⟨hmem, hvisible, htotal⟩
    refine ⟨row.1, List.mem_filter.mpr ⟨hmem, ?_⟩, ?_⟩
    · rw [hvisible]
      rfl
    · rw [htotal]
      rfl

theorem nodup_kind {database : Database} (hkeys : database.Keyed) (kind : Kind) :
    ((kind.accounts database).map AccountRow.id).Nodup := by
  cases kind with
  | user => exact hkeys.users
  | team => exact hkeys.teams

theorem nodup_accounts {database : Database} (hkeys : database.Keyed) (freeze : Option Time) :
    ((database.board freeze).accounts.map AccountRow.id).Nodup := by
  rw [accounts_board]
  exact nodup_kind hkeys database.kindOf

/-- An account has one row. -/
theorem contender_eq {board : Board} (hkeys : (board.accounts.map AccountRow.id).Nodup)
    {row row' : Contender} (hrow : row ∈ board.contenders none false)
    (hrow' : row' ∈ board.contenders none false) (hid : row.1.id = row'.1.id) : row = row' := by
  obtain ⟨hmem, -, htotal⟩ := mem_contenders.mp hrow
  obtain ⟨hmem', -, htotal'⟩ := mem_contenders.mp hrow'
  have haccount : row.1 = row'.1 := List.inj_on_of_nodup_map hkeys hmem hmem' hid
  rw [haccount, htotal'] at htotal
  exact Prod.ext haccount (Option.some.inj htotal).symm

theorem nodup_contenders {board : Board} (hkeys : (board.accounts.map AccountRow.id).Nodup) :
    (board.contenders none false).Nodup := by
  have hids : board.accounts.Pairwise fun a b => a.id ≠ b.id := List.pairwise_map.mp hkeys
  apply List.Pairwise.filterMap _ _ (hids.filter _)
  intro account account' hid row hrow row' hrow' heq
  obtain ⟨_, -, rfl⟩ := Option.map_eq_some_iff.mp hrow
  obtain ⟨_, -, rfl⟩ := Option.map_eq_some_iff.mp hrow'
  exact hid (congrArg (fun row : Contender => row.1.id) heq)

/-- A row that no other one ties with is on a level with itself only. -/
theorem level_eq_one {board : Board} (hkeys : (board.accounts.map AccountRow.id).Nodup)
    {row : Contender} (hrow : row ∈ board.contenders none false)
    (huntied : Untied (board.contenders none false) row.1.id) :
    level Contender.leads (board.contenders none false) row = 1 := by
  rw [← List.count_eq_one_of_mem (nodup_contenders hkeys) hrow]
  apply List.countP_congr
  intro row' hrow'
  rw [Bool.and_eq_true, beq_iff_eq]
  constructor
  · rintro ⟨hleads, hleads'⟩
    have htotal : row'.2 = row.2 := Total.leads_antisymm hleads' hleads
    exact contender_eq hkeys hrow' hrow (huntied row hrow row' hrow' rfl htotal)
  · rintro rfl
    exact ⟨Total.leads_refl _, Total.leads_refl _⟩

/-- A row of an ordered answer has one of its places. -/
theorem places_of_getElem {rows answer : List Contender}
    (h : OrderedBy Contender.leads rows answer) {i : ℕ} (hi : i < answer.length) :
    Places rows answer[i].1.id (i + 1) := by
  obtain ⟨hahead, hlevel⟩ := h.position (fun row => Total.leads_refl row.2) hi
  refine ⟨answer[i], h.perm.mem_iff.mp (List.getElem_mem hi), rfl, ?_, ?_⟩
  · omega
  · omega

/-- An account that nobody ties with has one place. -/
theorem Places.eq {board : Board} (hkeys : (board.accounts.map AccountRow.id).Nodup)
    {accountId : ℤ} (huntied : Untied (board.contenders none false) accountId) {place place' : ℕ}
    (h : Places (board.contenders none false) accountId place)
    (h' : Places (board.contenders none false) accountId place') : place = place' := by
  obtain ⟨row, hrow, rfl, hlow, hhigh⟩ := h
  obtain ⟨row', hrow', hid, hlow', hhigh'⟩ := h'
  have heq := contender_eq hkeys hrow' hrow hid
  subst heq
  rw [level_eq_one hkeys hrow huntied] at hhigh hhigh'
  omega

/-! ## Answers -/

/-- What the list of the scoreboard answers with. -/
theorem list_ok {double : DoublePrecision} {database : Database} {sorter : Sorter Contender.leads}
    {user : Option CurrentUser} {bracketId : Option ℤ} {entries : List ListEntry}
    (h : database.list double sorter user bracketId = .ok entries) :
    scoresAndAccountsVisible (database.board none).config user = true ∧
      ∃ freeze, database.freezeConfig double = .ok freeze ∧
        ∀ entry, entry ∈ entries ↔ ∃ i,
          ∃ hi : i < (sorter.order ((database.board freeze).contenders bracketId false)).length,
            entry = ⟨i + 1,
              (database.board freeze).accountUrl
                (sorter.order ((database.board freeze).contenders bracketId false))[i].1.id,
              if database.teamMode then "team" else "user",
              (database.board freeze).standing
                (sorter.order ((database.board freeze).contenders bracketId false))[i],
              if database.teamMode then some ((database.board freeze).teamMembers
                (sorter.order ((database.board freeze).contenders bracketId false))[i].1.id)
              else none⟩ := by
  obtain ⟨_, hvisible, h⟩ := bind_eq_ok.mp h
  obtain ⟨freeze, hfreeze, h⟩ := bind_eq_ok.mp h
  refine ⟨ensure_eq_ok.mp hvisible, freeze, hfreeze, fun entry => ?_⟩
  obtain rfl := Except.ok.inj h
  rw [List.mem_mapIdx]
  unfold Board.standingsBy
  simp only [Option.elim_none, List.length_map, List.getElem_map]
  constructor
  · rintro ⟨i, hi, rfl⟩
    exact ⟨i, hi, rfl⟩
  · rintro ⟨i, hi, rfl⟩
    exact ⟨i, hi, rfl⟩

/-- Whoever sees the scoreboard sees profiles with their scores. -/
theorem visible_profiles {config : BoardConfig} {user : Option CurrentUser}
    (h : scoresAndAccountsVisible config user = true) :
    scoresVisible config.scoreVisibility user = true ∧
      requireAccountVisibility config.accountVisibility user = .ok () := by
  rw [scoresAndAccountsVisible, Bool.and_eq_true] at h
  refine ⟨h.1, ?_⟩
  have haccounts := h.2
  unfold visibilityValue at haccounts
  unfold requireAccountVisibility
  split at haccounts
  · rename_i hsetting
    rw [hsetting]
    rfl
  · rename_i hsetting
    rw [hsetting]
    exact ensure_eq_ok.mpr haccounts
  · rename_i hsetting
    rw [hsetting]
    exact ensure_eq_ok.mpr haccounts
  · exact absurd haccounts (by decide)
  · rename_i hpublic hprivate hadmins _
    split
    · rfl
    · rename_i hsetting
      exact absurd hsetting hprivate
    · rename_i hsetting
      exact absurd hsetting hadmins
    · rfl

/-- The place of a profile is one of an account's places, and is there with its row. -/
theorem place_spec {database : Database} (hkeys : database.Keyed) (hmirrors : database.Mirrors)
    (sorter : Sorter Contender.leads) (freeze : Option Time) (accountId : ℤ) :
    (∀ place, database.place database.kindOf sorter freeze accountId = some place →
      Places ((database.board freeze).contenders none false) accountId place) ∧
    (database.place database.kindOf sorter freeze accountId = none ↔
      ∀ row ∈ (database.board freeze).contenders none false, row.1.id ≠ accountId) := by
  unfold Database.place
  rw [contenders_eq hkeys hmirrors]
  have hordered := sorter.ordered ((database.board freeze).contenders none false)
  constructor
  · intro place hplace
    obtain ⟨i, hi, rfl⟩ := Option.map_eq_some_iff.mp hplace
    obtain ⟨hlt, hid, -⟩ := List.findIdx?_eq_some_iff_getElem.mp hi
    have hplaces := places_of_getElem hordered hlt
    rw [of_decide_eq_true hid] at hplaces
    exact hplaces
  · rw [Option.map_eq_none_iff, List.findIdx?_eq_none_iff]
    constructor
    · intro hnone row hrow
      exact of_decide_eq_false (hnone row (hordered.perm.mem_iff.mpr hrow))
    · intro hnone row hrow
      exact decide_eq_false (hnone row (hordered.perm.mem_iff.mp hrow))

/-- The profile of a visible account. -/
theorem detail_eq {double : DoublePrecision} {database : Database} (hkeys : database.Keyed)
    (kind : Kind) (sorter : Sorter Contender.leads) {freeze : Option Time}
    (hcutoff : Database.cutoff double database.profileFreeze = .ok freeze)
    {user : Option CurrentUser} (hscores : scoresVisible database.scoreVisibility user = true)
    (haccounts : requireAccountVisibility database.accountVisibility user = .ok ())
    {account : AccountRow} (haccount : account ∈ kind.accounts database)
    (hvisible : account.visible = true) :
    database.detail kind double sorter user account.id =
      .ok ⟨account.id, account.name, some (database.score kind freeze account.id),
        (database.place kind sorter freeze account.id).map ordinalize⟩ := by
  have hfind : (kind.accounts database).find? (·.id = account.id) = some account :=
    find?_eq_some_of_nodup AccountRow.id (nodup_kind hkeys kind) haccount
  unfold Database.detail Database.scoreAndPlace
  rw [haccounts, hfind, hscores, hcutoff]
  show (do
    ensure (user.any CurrentUser.isAdmin || account.visible) kind.notFound
    pure _ : Except String Profile) = _
  rw [hvisible, Bool.or_true]
  rfl

theorem profile_eq {double : DoublePrecision} {database : Database} (hkeys : database.Keyed)
    (sorter : Sorter Contender.leads) {freeze : Option Time}
    (hcutoff : Database.cutoff double database.profileFreeze = .ok freeze)
    {user : Option CurrentUser} (hscores : scoresVisible database.scoreVisibility user = true)
    (haccounts : requireAccountVisibility database.accountVisibility user = .ok ())
    {account : AccountRow} (haccount : account ∈ database.kindOf.accounts database)
    (hvisible : account.visible = true) :
    database.profile double sorter user account.id =
      .ok ⟨account.id, account.name, some (database.score database.kindOf freeze account.id),
        (database.place database.kindOf sorter freeze account.id).map ordinalize⟩ := by
  have hdetail := detail_eq hkeys database.kindOf sorter hcutoff hscores haccounts haccount hvisible
  unfold Database.profile Database.teamDetail Database.userDetail
  cases hmode : database.teamMode with
  | true =>
      have hkind : database.kindOf = .team := by unfold Database.kindOf; rw [hmode]; rfl
      rw [hkind] at hdetail ⊢
      exact hdetail
  | false =>
      have hkind : database.kindOf = .user := by unfold Database.kindOf; rw [hmode]; rfl
      rw [hkind] at hdetail ⊢
      exact hdetail

/-- **Profiles agree with the scoreboard.**  Whoever is shown the scoreboard is shown the
profile of every visible account.  An account in the list has the score of its entry, and
both its place and its position are among the places the keys leave to it: they are the same
where no other account has the same keys.  An account that is not in the list has no place. -/
theorem profile_agrees {double : DoublePrecision} (hreads : double.Reads) {database : Database}
    (hkeys : database.Keyed) (hmirrors : database.Mirrors) (hfreeze : database.IntegerFreeze)
    {sorter : Sorter Contender.leads} (sorter' : Sorter Contender.leads)
    {user : Option CurrentUser} {entries : List ListEntry}
    (hlist : database.list double sorter user none = .ok entries) {account : AccountRow}
    (haccount : account ∈ database.kindOf.accounts database)
    (hvisible : account.visible = true) :
    ∃ freeze profile score, database.freezeConfig double = .ok freeze ∧
      database.profile double sorter' user account.id = .ok profile ∧
      profile.score = some score ∧
      (∀ entry ∈ entries, entry.standing.accountId = account.id →
        score = entry.standing.score ∧ ∃ place, profile.place = some (ordinalize place) ∧
          Places ((database.board freeze).contenders none false) account.id entry.pos ∧
          Places ((database.board freeze).contenders none false) account.id place ∧
          (Untied ((database.board freeze).contenders none false) account.id →
            place = entry.pos)) ∧
      ((∀ entry ∈ entries, entry.standing.accountId ≠ account.id) ↔ profile.place = none) ∧
      (profile.place = none → score = 0) := by
  obtain ⟨hshown, freeze, hepoch, hentries⟩ := list_ok hlist
  obtain ⟨hscores, haccounts⟩ := visible_profiles hshown
  have hcutoff : Database.cutoff double database.profileFreeze = .ok freeze := by
    rw [← freeze_eq hreads hfreeze, hepoch]
  obtain ⟨hplace, hnone⟩ := place_spec hkeys hmirrors sorter' freeze account.id
  have hordered := sorter.ordered ((database.board freeze).contenders none false)
  refine ⟨freeze, _, database.score database.kindOf freeze account.id, hepoch,
    profile_eq hkeys sorter' hcutoff hscores haccounts haccount hvisible, rfl, ?_, ?_, ?_⟩
  · intro entry hentry hid
    obtain ⟨i, hi, rfl⟩ := (hentries entry).mp hentry
    have hrow := hordered.perm.mem_iff.mp (List.getElem_mem hi)
    have hplaces := places_of_getElem hordered hi
    obtain ⟨-, -, htotal⟩ := mem_contenders.mp hrow
    rw [show (sorter.order _)[i].1.id = account.id from hid] at hplaces htotal
    constructor
    · rw [score_eq hkeys hmirrors, htotal]
      rfl
    · rcases hcase : database.place database.kindOf sorter' freeze account.id with _ | place
      · exact absurd hid (hnone.mp hcase _ hrow)
      · refine ⟨place, rfl, hplaces, hplace place hcase, fun huntied => ?_⟩
        exact (hplace place hcase).eq (nodup_accounts hkeys freeze) huntied hplaces
  · show _ ↔ (database.place _ _ _ _).map ordinalize = none
    rw [Option.map_eq_none_iff, hnone]
    constructor
    · intro hall row hrow hid
      obtain ⟨i, hi, rfl⟩ := List.getElem_of_mem (hordered.perm.mem_iff.mpr hrow)
      exact hall _ ((hentries _).mpr ⟨i, hi, rfl⟩) hid
    · intro hall entry hentry
      obtain ⟨i, hi, rfl⟩ := (hentries entry).mp hentry
      exact hall _ (hordered.perm.mem_iff.mp (List.getElem_mem hi))
  · intro habsent
    have hunlisted := hnone.mp (Option.map_eq_none_iff.mp habsent)
    rw [score_eq hkeys hmirrors]
    rcases htotal : totalOf ((database.board freeze).points false) account.id with _ | total
    · rfl
    · have hmem : account ∈ (database.board freeze).accounts := by
        rw [accounts_board]
        exact haccount
      exact absurd rfl (hunlisted (account, total) (mem_contenders.mpr ⟨hmem, hvisible, htotal⟩))

/-! ## Two players -/

/-- Instants in microseconds; of the texts that are no integers, one is read. -/
def microseconds : DoublePrecision where
  Value := Time
  read text := if text = "10.5" then some 10500000 else (parseI64 text).map seconds
  ofBigint := seconds
  toTimestamp := some

theorem microseconds_reads : microseconds.Reads := by
  intro text n hn
  have hfraction : parseI64 "10.5" = none := rfl
  show (if text = "10.5" then some 10500000 else (parseI64 text).map seconds) = some (seconds n)
  by_cases htext : text = "10.5"
  · subst htext
    rw [hfraction] at hn
    exact absurd hn (by simp)
  · rw [if_neg htext, hn]
    rfl

/-- A player has solved the challenge in the fifth second, and another one has an award with
the same points. -/
def twoPlayers : Database where
  freeze := some "10"
  teamMode := false
  scoreVisibility := none
  accountVisibility := none
  users := [⟨1, some "ada", false, false, none, none⟩, ⟨2, some "bob", false, false, none, none⟩]
  teams := []
  brackets := []
  challenges := [⟨1, some 100⟩]
  submissions := [⟨1, 1, some 1, none, some "A", "correct", seconds 5⟩]
  solves := [⟨1, 1, some 1, none⟩]
  awards := [⟨2, some 2, none, some 100, seconds 6⟩]

/-- The award has the id and the instant of the solve. -/
def tiedPlayers : Database := { twoPlayers with awards := [⟨1, some 2, none, some 100, seconds 5⟩] }

/-- The freeze is not at a whole second, and the solve is from after it. -/
def lateSolve : Database :=
  { twoPlayers with
    freeze := some "10.5"
    submissions := [⟨1, 1, some 1, none, some "A", "correct", seconds 20⟩] }

/-- The solve is not that of the player of the submission. -/
def strayedSolve : Database := { twoPlayers with solves := [⟨1, 1, some 2, none⟩] }

theorem twoPlayers_integer : twoPlayers.IntegerFreeze := by
  intro text htext
  obtain rfl := Option.some.inj htext
  exact .inr ⟨10, by decide +kernel⟩

theorem twoPlayers_mirrors : twoPlayers.Mirrors := by
  intro solve hsolve submission hsubmission _
  obtain rfl := List.mem_singleton.mp hsolve
  obtain rfl := List.mem_singleton.mp hsubmission
  rfl

theorem twoPlayers_keyed : twoPlayers.Keyed := by
  constructor <;> decide

/-- Both players see their places. -/
theorem profile_agrees_twoPlayers : ∃ entries,
    twoPlayers.list microseconds inserted none none = .ok entries ∧
    ∃ freeze profile score, twoPlayers.freezeConfig microseconds = .ok freeze ∧
      twoPlayers.profile microseconds inserted none 1 = .ok profile ∧
      profile.score = some score ∧
      (∀ entry ∈ entries, entry.standing.accountId = 1 →
        score = entry.standing.score ∧ ∃ place, profile.place = some (ordinalize place) ∧
          Places ((twoPlayers.board freeze).contenders none false) 1 entry.pos ∧
          Places ((twoPlayers.board freeze).contenders none false) 1 place ∧
          (Untied ((twoPlayers.board freeze).contenders none false) 1 → place = entry.pos)) ∧
      ((∀ entry ∈ entries, entry.standing.accountId ≠ 1) ↔ profile.place = none) ∧
      (profile.place = none → score = 0) := by
  have hlist : twoPlayers.list microseconds inserted none none =
      .ok [⟨1, "/users/1", "user", ⟨1, some "ada", 100, none, none⟩, none⟩,
        ⟨2, "/users/2", "user", ⟨2, some "bob", 100, none, none⟩, none⟩] := by decide +kernel
  have hada : (⟨1, some "ada", false, false, none, none⟩ : AccountRow) ∈
      twoPlayers.kindOf.accounts twoPlayers := List.mem_cons_self
  refine ⟨_, hlist, ?_⟩
  exact profile_agrees microseconds_reads twoPlayers_keyed twoPlayers_mirrors twoPlayers_integer
    inserted hlist hada rfl

/-- A profile has exactly the score and the position of the list. -/
def Agree (database : Database) (sorter sorter' : Sorter Contender.leads) (accountId : ℤ) : Prop :=
  ∃ entries profile, database.list microseconds sorter none none = .ok entries ∧
    database.profile microseconds sorter' none accountId = .ok profile ∧
    (∀ entry ∈ entries, entry.standing.accountId = accountId →
      profile.score = some entry.standing.score ∧ profile.place = some (ordinalize entry.pos)) ∧
    ((∀ entry ∈ entries, entry.standing.accountId ≠ accountId) ↔ profile.place = none)

/-- Neither holds where two accounts have the same keys, where the freeze is a fraction, or
where a solve has strayed from its submission. -/
theorem profile_differs :
    (tiedPlayers.Keyed ∧ tiedPlayers.Mirrors ∧ tiedPlayers.IntegerFreeze ∧
      ¬ Agree tiedPlayers inserted inserted.reversed 1) ∧
    (lateSolve.Keyed ∧ lateSolve.Mirrors ∧ ¬ Agree lateSolve inserted inserted 1) ∧
    (strayedSolve.Keyed ∧ strayedSolve.IntegerFreeze ∧
      ¬ Agree strayedSolve inserted inserted 2) := by
  refine ⟨⟨?_, twoPlayers_mirrors, twoPlayers_integer, ?_⟩, ⟨?_, ?_, ?_⟩, ?_, twoPlayers_integer, ?_⟩
  · constructor <;> decide
  · rintro ⟨entries, profile, hlist, hprofile, hentries, -⟩
    have hlist' : tiedPlayers.list microseconds inserted none none =
        .ok [⟨1, "/users/1", "user", ⟨1, some "ada", 100, none, none⟩, none⟩,
          ⟨2, "/users/2", "user", ⟨2, some "bob", 100, none, none⟩, none⟩] := by decide +kernel
    have hprofile' : tiedPlayers.profile microseconds inserted.reversed none 1 =
        .ok ⟨1, some "ada", some 100, some "2nd"⟩ := by decide +kernel
    obtain rfl := Except.ok.inj (hlist'.symm.trans hlist)
    obtain rfl := Except.ok.inj (hprofile'.symm.trans hprofile)
    exact absurd (hentries _ List.mem_cons_self rfl).2 (by decide +kernel)
  · constructor <;> decide
  · intro solve hsolve submission hsubmission _
    obtain rfl := List.mem_singleton.mp hsolve
    obtain rfl := List.mem_singleton.mp hsubmission
    rfl
  · rintro ⟨entries, profile, hlist, hprofile, -, habsent⟩
    have hlist' : lateSolve.list microseconds inserted none none =
        .ok [⟨1, "/users/2", "user", ⟨2, some "bob", 100, none, none⟩, none⟩] := by decide +kernel
    have hprofile' : lateSolve.profile microseconds inserted none 1 =
        .ok ⟨1, some "ada", some 100, some "2nd"⟩ := by decide +kernel
    obtain rfl := Except.ok.inj (hlist'.symm.trans hlist)
    obtain rfl := Except.ok.inj (hprofile'.symm.trans hprofile)
    exact absurd (habsent.mp (by decide)) (by decide)
  · constructor <;> decide
  · rintro ⟨entries, profile, hlist, hprofile, hentries, -⟩
    have hlist' : strayedSolve.list microseconds inserted none none =
        .ok [⟨1, "/users/1", "user", ⟨1, some "ada", 100, none, none⟩, none⟩,
          ⟨2, "/users/2", "user", ⟨2, some "bob", 100, none, none⟩, none⟩] := by decide +kernel
    have hprofile' : strayedSolve.profile microseconds inserted none 2 =
        .ok ⟨2, some "bob", some 200, some "1st"⟩ := by decide +kernel
    obtain rfl := Except.ok.inj (hlist'.symm.trans hlist)
    obtain rfl := Except.ok.inj (hprofile'.symm.trans hprofile)
    have hentry := hentries _ (List.mem_cons_of_mem _ List.mem_cons_self) rfl
    exact absurd hentry.1 (by decide)

end CtfZone.Scoreboard
