/-
# The scoreboard and its freeze

From the instant of the freeze on, changes of the scores are hidden from the scoreboard
(`scoreboard.rs`).  The standings and the timelines read the solves and the awards from
before it only; the points of the members of a team are added up over all of their solves.

* `Board` : what the scoreboard reads;
* `Board.list`, `Board.top` : the two endpoints;
* `AgreesBefore` : two boards that differ after the freeze only;
* `freeze_hides` : what the difference does to the answers.
-/
import CtfZone.Submissions
import Mathlib.Data.List.Sort

namespace CtfZone.Scoreboard

open Journal Submissions

/-! ## Tables -/

/-- A row of `users` or `teams`; a team has no team. -/
structure AccountRow where
  id : ℤ
  name : Option String
  hidden : Bool
  banned : Bool
  bracketId : Option ℤ
  teamId : Option ℤ
  deriving DecidableEq

/-- A row of `brackets`. -/
structure BracketRow where
  id : ℤ
  name : Option String
  deriving DecidableEq

/-- The value of a row of `challenges`. -/
structure ValueRow where
  challengeId : ℤ
  value : Option ℤ
  deriving DecidableEq

/-- A row of `awards`. -/
structure AwardRow where
  id : ℤ
  userId : Option ℤ
  teamId : Option ℤ
  value : Option ℤ
  date : Time
  deriving DecidableEq

/-- The configuration of the scoreboard. -/
structure BoardConfig where
  teamMode : Bool
  freeze : Option Time
  scoreVisibility : Option String
  accountVisibility : Option String
  deriving DecidableEq

/-- What the scoreboard reads. -/
structure Board where
  config : BoardConfig
  users : List AccountRow
  teams : List AccountRow
  brackets : List BracketRow
  challenges : List ValueRow
  submissions : List SubmissionRow
  solves : List SolveRow
  awards : List AwardRow

/-- `CurrentUser`. -/
structure CurrentUser where
  isAdmin : Bool

/-- `Standing`. -/
structure Standing where
  accountId : ℤ
  name : Option String
  score : ℤ
  bracketId : Option ℤ
  bracketName : Option String
  deriving DecidableEq

/-- `MemberScore`. -/
structure MemberScore where
  id : ℤ
  name : Option String
  score : ℤ
  bracketId : Option ℤ
  bracketName : Option String
  teamId : ℤ
  deriving DecidableEq

/-- `ScoreEvent`. -/
structure ScoreEvent where
  challengeId : Option ℤ
  accountId : ℤ
  teamId : Option ℤ
  userId : Option ℤ
  value : ℤ
  date : Time
  deriving DecidableEq

/-! ## Visibility -/

/-- `visibility_value`. -/
def visibilityValue (setting : Option String) (user : Option CurrentUser) (default : String) :
    Bool :=
  match setting.getD default with
  | "public" => true
  | "private" => user.isSome
  | "admins" => user.any CurrentUser.isAdmin
  | "hidden" => false
  | _ => true

/-- `scores_and_accounts_visible`. -/
def scoresAndAccountsVisible (config : BoardConfig) (user : Option CurrentUser) : Bool :=
  visibilityValue config.scoreVisibility user "public" &&
    visibilityValue config.accountVisibility user "public"

/-- `require_visible`. -/
def requireVisible (config : BoardConfig) (user : Option CurrentUser) : Except String Unit :=
  ensure (scoresAndAccountsVisible config user) "The scoreboard is not available"

/-- An account that is neither hidden nor banned. -/
def AccountRow.visible (account : AccountRow) : Bool := ! account.banned && ! account.hidden

namespace Board

variable (board : Board)

/-- The condition on the date of a row. -/
def shown (date : Time) : Bool := board.config.freeze.all (date < ·)

/-- A submission has a row of `solves`. -/
def solved (id : ℤ) : Bool := board.solves.any (·.id = id)

/-- The value of a challenge. -/
def valueOf (challengeId : ℤ) : Option ℤ :=
  (board.challenges.find? (·.challengeId = challengeId)).bind ValueRow.value

/-- `account_column`. -/
def accountColumn (userId teamId : Option ℤ) : Option ℤ :=
  if board.config.teamMode then teamId else userId

/-- The name of a bracket. -/
def bracketName (bracketId : Option ℤ) : Option String :=
  bracketId.bind fun id => (board.brackets.find? (·.id = id)).bind BracketRow.name

/-! ## Standings -/

end Board

/-- A row of `score_events`, in `load_standings`. -/
structure Points where
  accountId : ℤ
  value : ℤ
  id : ℤ
  date : Time
  deriving DecidableEq

/-- A row of `totals`. -/
structure Total where
  score : ℤ
  lastDate : Time
  lastId : ℤ
  deriving DecidableEq

namespace Board

variable (board : Board)

/-- The points of a solve; `admin` sees what is frozen. -/
def solvePoints (admin : Bool) (row : SubmissionRow) : Option Points := do
  let accountId ← board.accountColumn row.userId row.teamId
  let value ← board.valueOf row.challengeId
  if board.solved row.id && value ≠ 0 && (admin || board.shown row.date) then
    some ⟨accountId, value, row.id, row.date⟩
  else none

/-- The points of an award. -/
def awardPoints (admin : Bool) (row : AwardRow) : Option Points := do
  let accountId ← board.accountColumn row.userId row.teamId
  let value ← row.value
  if value ≠ 0 && (admin || board.shown row.date) then some ⟨accountId, value, row.id, row.date⟩
  else none

/-- `score_events`, in `load_standings`. -/
def points (admin : Bool) : List Points :=
  board.submissions.filterMap (board.solvePoints admin) ++
    board.awards.filterMap (board.awardPoints admin)

end Board

/-- `totals`. -/
def totalOf (points : List Points) (accountId : ℤ) : Option Total :=
  match points.filter (·.accountId = accountId) with
  | [] => none
  | row :: rows => some
    ⟨((row :: rows).map Points.value).sum, (rows.map Points.date).foldl max row.date,
      (rows.map Points.id).foldl max row.id⟩

/-- `ORDER BY totals.score DESC, totals.last_date, totals.last_id`. -/
def Total.leads (a b : Total) : Bool :=
  b.score < a.score || (a.score = b.score &&
    (a.lastDate < b.lastDate || (a.lastDate = b.lastDate && a.lastId ≤ b.lastId)))

namespace Board

variable (board : Board)

/-- `account_table`. -/
def accounts : List AccountRow := if board.config.teamMode then board.teams else board.users

/-- `load_standings`. -/
def loadStandings (bracketId : Option ℤ) (limit : Option ℕ) (admin : Bool) : List Standing :=
  let rows := (board.accounts.filter fun account => (admin || account.visible) &&
    bracketId.all (account.bracketId = some ·)).filterMap fun account =>
      (totalOf (board.points admin) account.id).map (account, ·)
  let ordered := rows.insertionSort fun a b => a.2.leads b.2 = true
  let standings := ordered.map fun (account, total) =>
    (⟨account.id, account.name, total.score, account.bracketId,
      board.bracketName account.bracketId⟩ : Standing)
  limit.elim standings standings.take

/-- The points of a submission for its user. -/
def contribution (userId : ℤ) (row : SubmissionRow) : ℤ :=
  if row.userId = some userId && board.solved row.id then (board.valueOf row.challengeId).getD 0
  else 0

/-- A row of `team_members`. -/
def memberScore (member : AccountRow) (teamId : ℤ) : MemberScore :=
  ⟨member.id, member.name, (board.submissions.map (board.contribution member.id)).sum,
    member.bracketId, board.bracketName member.bracketId, teamId⟩

/-- `team_members`, of one team. -/
def teamMembers (teamId : ℤ) : List MemberScore :=
  ((board.users.filter fun member => member.teamId = some teamId && member.visible).insertionSort
    fun a b => a.id ≤ b.id).map (board.memberScore · teamId)

/-- `account_url`. -/
def accountUrl (accountId : ℤ) : String :=
  "/" ++ (if board.config.teamMode then "teams" else "users") ++ "/" ++ toString accountId

end Board

/-- An entry of the list. -/
structure ListEntry where
  pos : ℕ
  accountUrl : String
  accountType : String
  standing : Standing
  members : Option (List MemberScore)
  deriving DecidableEq

/-- An entry of the top. -/
structure TopEntry where
  place : ℕ
  accountUrl : String
  standing : Standing
  solves : List ScoreEvent
  deriving DecidableEq

namespace Board

variable (board : Board)

/-- `list`. -/
def list (user : Option CurrentUser) (bracketId : Option ℤ) : Except String (List ListEntry) := do
  requireVisible board.config user
  pure ((board.loadStandings bracketId none false).mapIdx fun index standing =>
    ⟨index + 1, board.accountUrl standing.accountId,
      if board.config.teamMode then "team" else "user", standing,
      if board.config.teamMode then some (board.teamMembers standing.accountId) else none⟩)

/-! ## Timelines -/

/-- A solve on a timeline, with the value as it is stored. -/
def solveEvent (accountIds : List ℤ) (row : SubmissionRow) :
    Option (Option ℤ × (ℤ → ScoreEvent)) := do
  let accountId ← board.accountColumn row.userId row.teamId
  if board.solved row.id && (board.challenges.any (·.challengeId = row.challengeId)) &&
      accountIds.contains accountId && board.shown row.date then
    some (board.valueOf row.challengeId, fun value =>
      ⟨some row.challengeId, accountId, row.teamId, row.userId, value, row.date⟩)
  else none

/-- An award on a timeline. -/
def awardEvent (accountIds : List ℤ) (row : AwardRow) :
    Option (Option ℤ × (ℤ → ScoreEvent)) := do
  let accountId ← board.accountColumn row.userId row.teamId
  if accountIds.contains accountId && board.shown row.date then
    some (row.value, fun value => ⟨none, accountId, row.teamId, row.userId, value, row.date⟩)
  else none

/-- `score_events`; a row without a value cannot be decoded. -/
def scoreEvents (accountIds : List ℤ) : Except String (List ScoreEvent) := do
  let rows := board.submissions.filterMap (board.solveEvent accountIds) ++
    board.awards.filterMap (board.awardEvent accountIds)
  let events ← rows.mapM fun (value, event) => do
    let value ← required value "Database error"
    pure (event value)
  pure (events.insertionSort fun a b => a.date ≤ b.date)

/-- `top`. -/
def top (user : Option CurrentUser) (count : ℤ) (bracketId : Option ℤ) :
    Except String (List TopEntry) := do
  requireVisible board.config user
  let standings := board.loadStandings bracketId (some (max 1 (min count 50)).toNat) false
  let events ← board.scoreEvents (standings.map Standing.accountId)
  pure (standings.mapIdx fun index standing =>
    ⟨index + 1, board.accountUrl standing.accountId, standing,
      events.filter (·.accountId = standing.accountId)⟩)

end Board

/-! ## Before the freeze -/

/-- Two boards that differ in solves, in awards and in submissions from after the freeze
only. -/
structure AgreesBefore (board other : Board) : Prop where
  config : other.config = board.config
  users : other.users = board.users
  teams : other.teams = board.teams
  brackets : other.brackets = board.brackets
  challenges : other.challenges = board.challenges
  submissions : (other.submissions.filter fun row => board.shown row.date) =
    board.submissions.filter fun row => board.shown row.date
  solved : ∀ row ∈ board.submissions, board.shown row.date = true →
    other.solved row.id = board.solved row.id
  awards : (other.awards.filter fun row => board.shown row.date) =
    board.awards.filter fun row => board.shown row.date

theorem filterMap_filter_eq {α β : Type} {f : α → Option β} {p : α → Bool} (l : List α)
    (hf : ∀ a, p a = false → f a = none) : (l.filter p).filterMap f = l.filterMap f := by
  induction l with
  | nil => rfl
  | cons a l ih =>
      cases hp : p a with
      | true =>
          rw [List.filter_cons_of_pos hp, List.filterMap_cons, List.filterMap_cons, ih]
      | false =>
          rw [List.filter_cons_of_neg (by rw [hp]; decide), ih, List.filterMap_cons, hf a hp]

/-- What is collected from the rows before the freeze is the same. -/
theorem filterMap_agree {α β : Type} {f g : α → Option β} {p : α → Bool} {l l' : List α}
    (hrows : l'.filter p = l.filter p) (hf : ∀ a, p a = false → f a = none)
    (hg : ∀ a, p a = false → g a = none) (hfg : ∀ a ∈ l, p a = true → g a = f a) :
    l'.filterMap g = l.filterMap f := by
  calc l'.filterMap g = (l'.filter p).filterMap g := (filterMap_filter_eq l' hg).symm
    _ = (l.filter p).filterMap g := by rw [hrows]
    _ = (l.filter p).filterMap f := by
        apply List.filterMap_congr
        intro a ha
        obtain ⟨hmem, hp⟩ := List.mem_filter.mp ha
        exact hfg a hmem hp
    _ = l.filterMap f := filterMap_filter_eq l hf

section Agree

variable {board other : Board} (h : AgreesBefore board other)
include h

theorem AgreesBefore.shown : other.shown = board.shown := by
  funext date
  unfold Board.shown
  rw [h.config]

theorem AgreesBefore.valueOf : other.valueOf = board.valueOf := by
  funext challengeId
  unfold Board.valueOf
  rw [h.challenges]

theorem AgreesBefore.accountColumn : other.accountColumn = board.accountColumn := by
  funext userId teamId
  unfold Board.accountColumn
  rw [h.config]

theorem AgreesBefore.bracketName : other.bracketName = board.bracketName := by
  funext bracketId
  unfold Board.bracketName
  rw [h.brackets]

theorem AgreesBefore.accountUrl : other.accountUrl = board.accountUrl := by
  funext accountId
  unfold Board.accountUrl
  rw [h.config]

theorem AgreesBefore.accounts : other.accounts = board.accounts := by
  unfold Board.accounts
  rw [h.config, h.users, h.teams]

end Agree

theorem solvePoints_hidden (board : Board) (row : SubmissionRow)
    (hdate : board.shown row.date = false) : board.solvePoints false row = none := by
  unfold Board.solvePoints
  cases board.accountColumn row.userId row.teamId with
  | none => rfl
  | some accountId =>
      cases board.valueOf row.challengeId with
      | none => rfl
      | some value => simp [hdate]

theorem awardPoints_hidden (board : Board) (row : AwardRow)
    (hdate : board.shown row.date = false) : board.awardPoints false row = none := by
  unfold Board.awardPoints
  cases board.accountColumn row.userId row.teamId with
  | none => rfl
  | some accountId =>
      cases row.value with
      | none => rfl
      | some value => simp [hdate]

theorem solveEvent_hidden (board : Board) (accountIds : List ℤ) (row : SubmissionRow)
    (hdate : board.shown row.date = false) : board.solveEvent accountIds row = none := by
  unfold Board.solveEvent
  cases board.accountColumn row.userId row.teamId with
  | none => rfl
  | some accountId => simp [hdate]

theorem awardEvent_hidden (board : Board) (accountIds : List ℤ) (row : AwardRow)
    (hdate : board.shown row.date = false) : board.awardEvent accountIds row = none := by
  unfold Board.awardEvent
  cases board.accountColumn row.userId row.teamId with
  | none => rfl
  | some accountId => simp [hdate]

/-- The points of the standings do not depend on what comes after the freeze. -/
theorem AgreesBefore.points {board other : Board} (h : AgreesBefore board other) :
    other.points false = board.points false := by
  unfold Board.points
  congr 1
  · refine filterMap_agree h.submissions (solvePoints_hidden board) (fun row hrow => ?_)
      fun row hrow hdate => ?_
    · exact solvePoints_hidden other row (by rw [h.shown]; exact hrow)
    · unfold Board.solvePoints
      rw [h.accountColumn, h.valueOf, h.shown, h.solved row hrow hdate]
  · refine filterMap_agree h.awards (awardPoints_hidden board) (fun row hrow => ?_)
      fun row hrow hdate => ?_
    · exact awardPoints_hidden other row (by rw [h.shown]; exact hrow)
    · unfold Board.awardPoints
      rw [h.accountColumn, h.shown]

theorem AgreesBefore.loadStandings {board other : Board} (h : AgreesBefore board other)
    (bracketId : Option ℤ) (limit : Option ℕ) :
    other.loadStandings bracketId limit false = board.loadStandings bracketId limit false := by
  unfold Board.loadStandings
  rw [h.accounts, h.points, h.bracketName]

/-- Nor do the timelines. -/
theorem AgreesBefore.scoreEvents {board other : Board} (h : AgreesBefore board other) :
    other.scoreEvents = board.scoreEvents := by
  funext accountIds
  have hsolves : other.submissions.filterMap (other.solveEvent accountIds) =
      board.submissions.filterMap (board.solveEvent accountIds) := by
    refine filterMap_agree h.submissions (solveEvent_hidden board accountIds)
      (fun row hrow => ?_) fun row hrow hdate => ?_
    · exact solveEvent_hidden other accountIds row (by rw [h.shown]; exact hrow)
    · unfold Board.solveEvent
      rw [h.accountColumn, h.valueOf, h.shown, h.challenges, h.solved row hrow hdate]
  have hawards : other.awards.filterMap (other.awardEvent accountIds) =
      board.awards.filterMap (board.awardEvent accountIds) := by
    refine filterMap_agree h.awards (awardEvent_hidden board accountIds)
      (fun row hrow => ?_) fun row hrow hdate => ?_
    · exact awardEvent_hidden other accountIds row (by rw [h.shown]; exact hrow)
    · unfold Board.awardEvent
      rw [h.accountColumn, h.shown]
  unfold Board.scoreEvents
  rw [hsolves, hawards]

theorem AgreesBefore.top {board other : Board} (h : AgreesBefore board other)
    (user : Option CurrentUser) (count : ℤ) (bracketId : Option ℤ) :
    other.top user count bracketId = board.top user count bracketId := by
  unfold Board.top
  rw [h.config, h.loadStandings, h.scoreEvents, h.accountUrl]

/-! ## Members -/

/-- The points of a member from after the freeze. -/
def lateScore (board : Board) (userId : ℤ) : ℤ :=
  ((board.submissions.filter fun row => ! board.shown row.date).map
    (board.contribution userId)).sum

/-- A team of the list: it is visible and of the bracket, and has points from before the
freeze. -/
def Listed (board : Board) (bracketId : Option ℤ) (team : AccountRow) : Prop :=
  team ∈ board.teams ∧ team.visible = true ∧ bracketId.all (team.bracketId = some ·) = true ∧
    ∃ points ∈ board.points false, points.accountId = team.id

theorem sum_filter_add {α : Type} (l : List α) (p : α → Bool) (f : α → ℤ) :
    (l.map f).sum = ((l.filter p).map f).sum + ((l.filter (! p ·)).map f).sum := by
  induction l with
  | nil => rfl
  | cons a l ih =>
      rw [List.map_cons, List.sum_cons, ih]
      cases hp : p a with
      | true =>
          rw [List.filter_cons_of_pos hp, List.filter_cons_of_neg (by rw [hp]; decide),
            List.map_cons, List.sum_cons]
          omega
      | false =>
          rw [List.filter_cons_of_neg (by rw [hp]; decide), List.filter_cons_of_pos (by rw [hp]; rfl),
            List.map_cons, List.sum_cons]
          omega

/-- The points of a member: what is from before the freeze is the same. -/
theorem AgreesBefore.score_eq_iff {board other : Board} (h : AgreesBefore board other)
    (userId : ℤ) : (other.submissions.map (other.contribution userId)).sum =
      (board.submissions.map (board.contribution userId)).sum ↔
        lateScore other userId = lateScore board userId := by
  have hearly : ((other.submissions.filter fun row => board.shown row.date).map
      (other.contribution userId)).sum =
        ((board.submissions.filter fun row => board.shown row.date).map
          (board.contribution userId)).sum := by
    rw [h.submissions]
    congr 1
    apply List.map_congr_left
    intro row hrow
    obtain ⟨hmem, hdate⟩ := List.mem_filter.mp hrow
    unfold Board.contribution
    rw [h.valueOf, h.solved row hmem hdate]
  unfold lateScore
  rw [sum_filter_add other.submissions (fun row => board.shown row.date),
    sum_filter_add board.submissions (fun row => board.shown row.date), hearly, h.shown]
  constructor
  · intro heq
    omega
  · intro heq
    omega

/-- The members of a team are listed with the same points, where theirs from after the freeze
are the same. -/
theorem AgreesBefore.teamMembers_eq_iff {board other : Board} (h : AgreesBefore board other)
    (teamId : ℤ) : other.teamMembers teamId = board.teamMembers teamId ↔
      ∀ member ∈ board.users, member.teamId = some teamId → member.visible = true →
        lateScore other member.id = lateScore board member.id := by
  unfold Board.teamMembers
  rw [h.users, List.map_inj_left]
  have hscore (member : AccountRow) : other.memberScore member teamId =
      board.memberScore member teamId ↔ lateScore other member.id = lateScore board member.id := by
    rw [← h.score_eq_iff]
    unfold Board.memberScore
    rw [h.bracketName]
    constructor
    · intro heq
      exact congrArg MemberScore.score heq
    · intro heq
      rw [heq]
  constructor
  · intro hall member hmember hteam hvisible
    refine (hscore member).mp (hall member ((List.mem_insertionSort _).mpr (List.mem_filter.mpr
      ⟨hmember, ?_⟩)))
    simp [hteam, hvisible]
  · intro hall member hmember
    obtain ⟨hmember, hp⟩ := List.mem_filter.mp ((List.mem_insertionSort _).mp hmember)
    rw [Bool.and_eq_true, decide_eq_true_eq] at hp
    exact (hscore member).mpr (hall member hmember hp.1 hp.2)

theorem totalOf_isSome {points : List Points} {accountId : ℤ} :
    (totalOf points accountId).isSome = true ↔ ∃ row ∈ points, row.accountId = accountId := by
  unfold totalOf
  constructor
  · intro hsome
    split at hsome
    · cases hsome
    · rename_i row rows hrows
      have hmem : row ∈ points.filter (·.accountId = accountId) := by
        rw [hrows]
        exact List.mem_cons_self
      obtain ⟨hmem, hp⟩ := List.mem_filter.mp hmem
      exact ⟨row, hmem, of_decide_eq_true hp⟩
  · rintro ⟨row, hrow, hid⟩
    have hmem : row ∈ points.filter (·.accountId = accountId) :=
      List.mem_filter.mpr ⟨hrow, decide_eq_true hid⟩
    split
    · rename_i hnone
      rw [hnone] at hmem
      exact absurd hmem List.not_mem_nil
    · rfl

/-- Which teams are in the list. -/
theorem mem_standings_iff {board : Board} (hmode : board.config.teamMode = true)
    (bracketId : Option ℤ) (teamId : ℤ) :
    (∃ standing ∈ board.loadStandings bracketId none false, standing.accountId = teamId) ↔
      ∃ team, Listed board bracketId team ∧ team.id = teamId := by
  unfold Board.loadStandings Board.accounts
  rw [hmode, if_pos rfl]
  constructor
  · rintro ⟨standing, hstanding, rfl⟩
    obtain ⟨⟨team, total⟩, hrow, rfl⟩ := List.mem_map.mp hstanding
    obtain ⟨team', hteam, htotal⟩ := List.mem_filterMap.mp ((List.mem_insertionSort _).mp hrow)
    obtain ⟨total', htotal', heq⟩ := Option.map_eq_some_iff.mp htotal
    cases heq
    obtain ⟨hteam, hp⟩ := List.mem_filter.mp hteam
    rw [Bool.and_eq_true, Bool.false_or] at hp
    refine ⟨team, ⟨hteam, hp.1, hp.2, totalOf_isSome.mp ?_⟩, rfl⟩
    rw [htotal']
    rfl
  · rintro ⟨team, ⟨hteam, hvisible, hbracket, hpoints⟩, rfl⟩
    obtain ⟨total, htotal⟩ := Option.isSome_iff_exists.mp (totalOf_isSome.mpr hpoints)
    have hmem : team ∈ board.teams.filter fun account => (false || account.visible) &&
        bracketId.all (account.bracketId = some ·) := by
      apply List.mem_filter.mpr
      rw [hvisible, hbracket]
      exact ⟨hteam, rfl⟩
    refine ⟨⟨team.id, team.name, total.score, team.bracketId, board.bracketName team.bracketId⟩,
      List.mem_map.mpr ⟨(team, total), (List.mem_insertionSort _).mpr (List.mem_filterMap.mpr
        ⟨team, hmem, ?_⟩), rfl⟩, rfl⟩
    rw [htotal]
    rfl

theorem mapIdx_inj {α β : Type} {f g : ℕ → α → β} (l : List α) :
    l.mapIdx f = l.mapIdx g ↔ ∀ i (hi : i < l.length), f i l[i] = g i l[i] := by
  constructor
  · intro heq i hi
    have hi' : i < (l.mapIdx f).length := by rwa [List.length_mapIdx]
    have := List.getElem_of_eq heq hi'
    rwa [List.getElem_mapIdx, List.getElem_mapIdx] at this
  · intro hall
    apply List.ext_getElem
    · rw [List.length_mapIdx, List.length_mapIdx]
    · intro i hi _
      rw [List.length_mapIdx] at hi
      rw [List.getElem_mapIdx, List.getElem_mapIdx]
      exact hall i hi

/-- **What the freeze hides.**  The top of the scoreboard is the same for two boards that
differ after the freeze only.  The list is the same as well, where it is shown at all in team
mode, exactly when the visible members of every listed team have the same points from after
the freeze. -/
theorem freeze_hides {board other : Board} (h : AgreesBefore board other)
    (user : Option CurrentUser) (bracketId : Option ℤ) :
    (∀ count, other.top user count bracketId = board.top user count bracketId) ∧
    (other.list user bracketId = board.list user bracketId ↔
      (scoresAndAccountsVisible board.config user = true → board.config.teamMode = true →
        ∀ team, Listed board bracketId team → ∀ member ∈ board.users,
          member.teamId = some team.id → member.visible = true →
            lateScore other member.id = lateScore board member.id)) := by
  refine ⟨fun count => h.top user count bracketId, ?_⟩
  unfold Board.list requireVisible
  rw [h.config, h.loadStandings, h.accountUrl]
  cases hshown : scoresAndAccountsVisible board.config user with
  | false => exact iff_of_true rfl fun hc => by cases hc
  | true =>
      have hok (entries entries' : List ListEntry) : (do
          ensure true "The scoreboard is not available"
          pure entries : Except String (List ListEntry)) = (do
          ensure true "The scoreboard is not available"
          pure entries') ↔ entries = entries' :=
        ⟨fun heq => Except.ok.inj heq, fun heq => by rw [heq]⟩
      rw [hok, mapIdx_inj]
      cases hmode : board.config.teamMode with
      | false => exact iff_of_true (fun _ _ => rfl) fun _ hc => by cases hc
      | true =>
          constructor
          · intro hall _ _ team hlisted member hmember hteam hvisible
            obtain ⟨standing, hstanding, hid⟩ :=
              (mem_standings_iff hmode bracketId team.id).mpr ⟨team, hlisted, rfl⟩
            obtain ⟨i, hi, rfl⟩ := List.getElem_of_mem hstanding
            have hmembers := congrArg ListEntry.members (hall i hi)
            simp only [if_true, Option.some.injEq] at hmembers
            rw [hid] at hmembers
            exact (h.teamMembers_eq_iff team.id).mp hmembers member hmember hteam hvisible
          · intro hall i hi
            obtain ⟨team, hlisted, hid⟩ := (mem_standings_iff hmode bracketId _).mp
              ⟨_, List.getElem_mem hi, rfl⟩
            have hmembers := (h.teamMembers_eq_iff team.id).mpr fun member hmember hteam hvisible =>
              hall rfl rfl team hlisted member hmember hteam hvisible
            rw [hid] at hmembers
            rw [hmembers]

/-! ## A frozen board -/

/-- The team 1 with the members 7 and 8; the first has solved a challenge, and the board is
frozen from the tenth second on. -/
def frozenBoard : Board where
  config := ⟨true, some (seconds 10), none, none⟩
  users := [⟨7, some "ada", false, false, none, some 1⟩, ⟨8, some "bob", false, false, none, some 1⟩]
  teams := [⟨1, some "team", false, false, none, none⟩]
  brackets := []
  challenges := [⟨1, some 100⟩, ⟨2, some 50⟩]
  submissions := [⟨1, 1, some 7, some 1, some "A", "correct", seconds 5⟩]
  solves := [⟨1, 1, some 7, some 1⟩]
  awards := []

/-- The same board after a solve in the twentieth second. -/
def lateBoard : Board :=
  { frozenBoard with
    submissions := frozenBoard.submissions ++
      [⟨2, 2, some 8, some 1, some "A", "correct", seconds 20⟩]
    solves := frozenBoard.solves ++ [⟨2, 2, some 8, some 1⟩] }

theorem lateBoard_agrees : AgreesBefore frozenBoard lateBoard := by
  refine ⟨rfl, rfl, rfl, rfl, rfl, by decide, fun row hrow _ => ?_, rfl⟩
  rw [List.mem_singleton.mp hrow]
  decide

/-- The solve after the freeze is not in the top, and is in the points of its member. -/
theorem freeze_hides_late :
    (∀ count, lateBoard.top none count none = frozenBoard.top none count none) ∧
    lateBoard.list none none ≠ frozenBoard.list none none := by
  refine ⟨(freeze_hides lateBoard_agrees none none).1, fun hlist => ?_⟩
  have hlisted : Listed frozenBoard none ⟨1, some "team", false, false, none, none⟩ :=
    ⟨List.mem_singleton.mpr rfl, rfl, rfl, ⟨1, 100, 1, seconds 5⟩, by decide, rfl⟩
  have hlate := (freeze_hides lateBoard_agrees none none).2.mp hlist rfl rfl _ hlisted
    ⟨8, some "bob", false, false, none, some 1⟩ (by decide) rfl rfl
  exact absurd hlate (by decide)

/-- The list tells of a solve after the freeze. -/
theorem list_tells_late_solves :
    ¬ ∀ (board other : Board) (user : Option CurrentUser) (bracketId : Option ℤ),
      AgreesBefore board other → user.any CurrentUser.isAdmin = false →
      other.list user bracketId = board.list user bracketId := by
  intro hall
  have hlists := hall frozenBoard lateBoard none none lateBoard_agrees rfl
  have hdiffer : lateBoard.list none none ≠ frozenBoard.list none none := by
    decide +kernel
  exact hdiffer hlists

end CtfZone.Scoreboard
