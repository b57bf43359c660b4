/-
# Scores and places on public profiles

The profile of a user or a team has a score and a place (`user_accounts.rs`,
`team_accounts.rs`, `users.rs`).  They are not read off the standings of the scoreboard:
other queries start from `solves` instead of `submissions`, add up solves and awards apart,
number the rows themselves, and read the freeze in another way.

* `Database` : what the scoreboard and the profiles are read from;
* `DoublePrecision` : how the database reads a number;
* `Database.list` : the scoreboard, with the order its keys leave open;
* `scoreAndPlace`, `detail` : a public profile.
-/
import CtfZone.Scoreboard
import CtfZone.Rankings

namespace CtfZone.Scoreboard

open Journal Submissions Rankings

/-! ## Settings -/

/-- The magnitude of a text of decimal digits. -/
def digitsValue (digits : List Char) : Option ℤ :=
  if digits ≠ [] ∧ digits.all Char.isDigit then some (Nat.ofDigitChars 10 digits 0 : ℤ) else none

/-- `str::parse::<i64>`. -/
def parseI64 (text : String) : Option ℤ :=
  let value := match text.toList with
    | '-' :: digits => (digitsValue digits).map fun n => -n
    | '+' :: digits => digitsValue digits
    | digits => digitsValue digits
  value.filter fun n => -2 ^ 63 ≤ n ∧ n < 2 ^ 63

/-- `double precision`: its values, the casts of a text and of a `bigint` to it, and
`to_timestamp(…) AT TIME ZONE 'UTC'`. -/
structure DoublePrecision where
  Value : Type
  read : String → Option Value
  ofBigint : ℤ → Value
  toTimestamp : Value → Option Time

/-- The text of a `bigint` is cast to the value that the number is cast to. -/
def DoublePrecision.Reads (double : DoublePrecision) : Prop :=
  ∀ text n, parseI64 text = some n → double.read text = some (double.ofBigint n)

/-- What the scoreboard and the profiles are read from; `freeze` is the text of the setting. -/
structure Database where
  freeze : Option String
  teamMode : Bool
  scoreVisibility : Option String
  accountVisibility : Option String
  users : List AccountRow
  teams : List AccountRow
  brackets : List BracketRow
  challenges : List ValueRow
  submissions : List SubmissionRow
  solves : List SolveRow
  awards : List AwardRow

/-- A row of the standings before they are ordered. -/
abbrev Contender := AccountRow × Total

/-- `ORDER BY totals.score DESC, totals.last_date, totals.last_id`. -/
def Contender.leads (a b : Contender) : Bool := a.2.leads b.2

namespace Database

variable (database : Database)

/-- The tables, with what a query takes for the freeze. -/
def board (freeze : Option Time) : Board where
  config := ⟨database.teamMode, freeze, database.scoreVisibility, database.accountVisibility⟩
  users := database.users
  teams := database.teams
  brackets := database.brackets
  challenges := database.challenges
  submissions := database.submissions
  solves := database.solves
  awards := database.awards

/-! ## The scoreboard -/

/-- `freeze_config`. -/
def freezeConfig (double : DoublePrecision) : Except String (Option Time) :=
  match database.freeze.filter (· ≠ "") with
  | none => pure none
  | some text => do
    let epoch ← required (double.read text) "Database error"
    let time ← required (double.toTimestamp epoch) "Database error"
    pure (some time)

end Database

namespace Board

variable (board : Board)

/-- The rows that `load_standings` orders. -/
def contenders (bracketId : Option ℤ) (admin : Bool) : List Contender :=
  (board.accounts.filter fun account => (admin || account.visible) &&
    bracketId.all (account.bracketId = some ·)).filterMap fun account =>
      (totalOf (board.points admin) account.id).map (account, ·)

/-- A row of the standings. -/
def standing (row : Contender) : Standing :=
  ⟨row.1.id, row.1.name, row.2.score, row.1.bracketId, board.bracketName row.1.bracketId⟩

/-- `load_standings`, in an order its keys allow. -/
def standingsBy (sorter : Sorter Contender.leads) (bracketId : Option ℤ) (limit : Option ℕ)
    (admin : Bool) : List Standing :=
  let standings := (sorter.order (board.contenders bracketId admin)).map board.standing
  limit.elim standings standings.take

end Board

namespace Database

variable (database : Database)

/-- `list`, of the scoreboard. -/
def list (double : DoublePrecision) (sorter : Sorter Contender.leads) (user : Option CurrentUser)
    (bracketId : Option ℤ) : Except String (List ListEntry) := do
  requireVisible (database.board none).config user
  let freeze ← database.freezeConfig double
  let board := database.board freeze
  pure ((board.standingsBy sorter bracketId none false).mapIdx fun index standing =>
    ⟨index + 1, board.accountUrl standing.accountId,
      if database.teamMode then "team" else "user", standing,
      if database.teamMode then some (board.teamMembers standing.accountId) else none⟩)

end Database

/-! ## Profiles -/

/-- Whose profile is read. -/
inductive Kind where
  | user
  | team
  deriving DecidableEq

/-- The column of the account. -/
def Kind.column (kind : Kind) (userId teamId : Option ℤ) : Option ℤ :=
  match kind with
  | .user => userId
  | .team => teamId

/-- The table of the accounts. -/
def Kind.accounts (kind : Kind) (database : Database) : List AccountRow :=
  match kind with
  | .user => database.users
  | .team => database.teams

/-- What is answered where there is no account. -/
def Kind.notFound : Kind → String
  | .user => "User not found"
  | .team => "Team not found"

/-- A row that a score is added up from. -/
structure Scored where
  accountId : Option ℤ
  value : Option ℤ
  id : ℤ
  date : Time
  deriving DecidableEq

/-- The row is not hidden by the freeze. -/
def Scored.shown (freeze : Option Time) (row : Scored) : Bool := freeze.all (row.date < ·)

/-- A row of the places: it has an account and points, and is not hidden. -/
def Scored.points (freeze : Option Time) (row : Scored) : Option Points := do
  let accountId ← row.accountId
  let value ← row.value
  if value ≠ 0 && row.shown freeze then some ⟨accountId, value, row.id, row.date⟩ else none

/-- `ordinalize`. -/
def ordinalize (value : ℕ) : String :=
  let suffix := if 11 ≤ value % 100 ∧ value % 100 ≤ 13 then "th" else
    match value % 10 with
    | 1 => "st"
    | 2 => "nd"
    | 3 => "rd"
    | _ => "th"
  toString value ++ suffix

/-- The rows of an account in the two branches of `events`, grouped again. -/
def mergeTotals : Option Total → Option Total → Option Total
  | some a, some b => some
    ⟨a.score + b.score, max a.lastDate b.lastDate, max a.lastId b.lastId⟩
  | some a, none => some a
  | none, b => b

/-- `score_visibility`, in `scores_visible`. -/
def scoresVisible (setting : Option String) (user : Option CurrentUser) : Bool :=
  match setting.getD "public" with
  | "public" => true
  | "private" => user.isSome
  | "admins" => user.any CurrentUser.isAdmin
  | "hidden" => false
  | _ => true

/-- `require_account_visibility`. -/
def requireAccountVisibility (setting : Option String) (user : Option CurrentUser) :
    Except String Unit :=
  match setting.getD "public" with
  | "public" => pure ()
  | "private" => ensure user.isSome "Authentication required"
  | "admins" => ensure (user.any CurrentUser.isAdmin) "Accounts are not available"
  | _ => pure ()

/-- The fields of a profile that tell who it is of and how it scores. -/
structure Profile where
  id : ℤ
  name : Option String
  score : Option ℤ
  place : Option String
  deriving DecidableEq

namespace Database

variable (database : Database) (kind : Kind)

/-- `solves` with its challenge and its submission. -/
def scoredSolve (solve : SolveRow) : Option Scored := do
  let challenge ← database.challenges.find? (·.challengeId = solve.challengeId)
  let submission ← database.submissions.find? (·.id = solve.id)
  some ⟨kind.column solve.userId solve.teamId, challenge.value, solve.id, submission.date⟩

/-- A row of `awards`. -/
def scoredAward (award : AwardRow) : Scored :=
  ⟨kind.column award.userId award.teamId, award.value, award.id, award.date⟩

/-- `COALESCE(SUM(value), 0)`, of an account. -/
def scoreOf (freeze : Option Time) (accountId : ℤ) (rows : List Scored) : ℤ :=
  ((rows.filter fun row => row.accountId = some accountId && row.shown freeze).map
    fun row => row.value.getD 0).sum

/-- The score of an account. -/
def score (freeze : Option Time) (accountId : ℤ) : ℤ :=
  scoreOf freeze accountId (database.solves.filterMap (database.scoredSolve kind)) +
    scoreOf freeze accountId (database.awards.map (scoredAward kind))

/-- `totals`, of an account. -/
def totals (freeze : Option Time) (accountId : ℤ) : Option Total :=
  mergeTotals
    (totalOf ((database.solves.filterMap (database.scoredSolve kind)).filterMap
      (Scored.points freeze)) accountId)
    (totalOf ((database.awards.map (scoredAward kind)).filterMap (Scored.points freeze)) accountId)

/-- `ranked`, before it is ordered. -/
def ranked (freeze : Option Time) : List Contender :=
  ((kind.accounts database).filter AccountRow.visible).filterMap fun account =>
    (database.totals kind freeze account.id).map (account, ·)

/-- The place of an account, by `ROW_NUMBER`. -/
def place (sorter : Sorter Contender.leads) (freeze : Option Time) (accountId : ℤ) : Option ℕ :=
  ((sorter.order (database.ranked kind freeze)).findIdx? (·.1.id = accountId)).map (· + 1)

/-- `user_place`. -/
def userPlace := database.place .user

/-- What the profiles take for the freeze. -/
def profileFreeze : Option ℤ := database.freeze.bind parseI64

/-- `to_timestamp($1::double precision)`. -/
def cutoff (double : DoublePrecision) (freeze : Option ℤ) : Except String (Option Time) :=
  match freeze with
  | none => pure none
  | some n => do
    let time ← required (double.toTimestamp (double.ofBigint n)) "Database error"
    pure (some time)

/-- `score_and_place`; a team sees its own score as it is (`current_team`). -/
def scoreAndPlace (double : DoublePrecision) (sorter : Sorter Contender.leads) (accountId : ℤ)
    (current : Bool) : Except String (ℤ × Option String) := do
  let freeze ← cutoff double database.profileFreeze
  let score := database.score kind (if current then none else freeze) accountId
  pure (score, (database.place kind sorter freeze accountId).map ordinalize)

/-- The profile of an account, for everybody. -/
def detail (double : DoublePrecision) (sorter : Sorter Contender.leads) (user : Option CurrentUser)
    (accountId : ℤ) : Except String Profile := do
  requireAccountVisibility database.accountVisibility user
  let record ← required ((kind.accounts database).find? (·.id = accountId)) kind.notFound
  ensure (user.any CurrentUser.isAdmin || record.visible) kind.notFound
  if scoresVisible database.scoreVisibility user then do
    let (score, place) ← database.scoreAndPlace kind double sorter record.id false
    pure ⟨record.id, record.name, some score, place⟩
  else pure ⟨record.id, record.name, none, none⟩

/-- `detail`, of a user. -/
def userDetail := database.detail .user

/-- `detail`, of a team. -/
def teamDetail (double : DoublePrecision) (sorter : Sorter Contender.leads) (user : Option CurrentUser)
    (teamId : ℤ) : Except String Profile := do
  ensure database.teamMode "Team mode is disabled"
  database.detail .team double sorter user teamId

/-- The accounts of the competition. -/
def kindOf : Kind := if database.teamMode then .team else .user

/-- The profile of an account of the competition. -/
def profile (double : DoublePrecision) (sorter : Sorter Contender.leads) (user : Option CurrentUser)
    (accountId : ℤ) : Except String Profile :=
  if database.teamMode then database.teamDetail double sorter user accountId
  else database.userDetail double sorter user accountId

end Database

/-! ## Orders -/

theorem Total.leads_iff {a b : Total} : a.leads b = true ↔ b.score < a.score ∨
    (a.score = b.score ∧ (a.lastDate < b.lastDate ∨
      (a.lastDate = b.lastDate ∧ a.lastId ≤ b.lastId))) := by
  simp [Total.leads]

theorem Total.leads_total (a b : Total) : a.leads b = true ∨ b.leads a = true := by
  have hkeys (s d i s' d' i' : ℤ) : (s' < s ∨ (s = s' ∧ (d < d' ∨ (d = d' ∧ i ≤ i')))) ∨
      (s < s' ∨ (s' = s ∧ (d' < d ∨ (d' = d ∧ i' ≤ i)))) := by omega
  rw [leads_iff, leads_iff]
  exact hkeys a.score a.lastDate a.lastId b.score b.lastDate b.lastId

theorem Total.leads_trans {a b c : Total} (hab : a.leads b = true) (hbc : b.leads c = true) :
    a.leads c = true := by
  have hkeys (s d i s' d' i' s'' d'' i'' : ℤ)
      (h : s' < s ∨ (s = s' ∧ (d < d' ∨ (d = d' ∧ i ≤ i'))))
      (h' : s'' < s' ∨ (s' = s'' ∧ (d' < d'' ∨ (d' = d'' ∧ i' ≤ i'')))) :
      s'' < s ∨ (s = s'' ∧ (d < d'' ∨ (d = d'' ∧ i ≤ i''))) := by omega
  exact leads_iff.mpr (hkeys _ _ _ _ _ _ _ _ _ (leads_iff.mp hab) (leads_iff.mp hbc))

theorem Total.leads_antisymm {a b : Total} (hab : a.leads b = true) (hba : b.leads a = true) :
    a = b := by
  have hkeys (s d i s' d' i' : ℤ) (h : s' < s ∨ (s = s' ∧ (d < d' ∨ (d = d' ∧ i ≤ i'))))
      (h' : s < s' ∨ (s' = s ∧ (d' < d ∨ (d' = d ∧ i' ≤ i)))) : s = s' ∧ d = d' ∧ i = i' := by omega
  obtain ⟨hscore, hdate, hid⟩ := hkeys _ _ _ _ _ _ (leads_iff.mp hab) (leads_iff.mp hba)
  obtain ⟨score, lastDate, lastId⟩ := a
  rw [Total.mk.injEq]
  exact ⟨hscore, hdate, hid⟩

theorem Total.leads_refl (a : Total) : a.leads a = true :=
  leads_iff.mpr (.inr ⟨rfl, .inr ⟨rfl, le_refl a.lastId⟩⟩)

/-- The order of `load_standings`. -/
def inserted : Sorter Contender.leads :=
  Sorter.insertion Contender.leads (fun a b => Total.leads_total a.2 b.2)
    fun _ _ _ hab hbc => Total.leads_trans hab hbc

/-- The list of the scoreboard is one of the answers. -/
theorem Database.list_inserted (database : Database) (double : DoublePrecision)
    (user : Option CurrentUser) (bracketId : Option ℤ) {freeze : Option Time}
    (hfreeze : database.freezeConfig double = .ok freeze) :
    database.list double inserted user bracketId = (database.board freeze).list user bracketId := by
  unfold Database.list Board.list
  rw [hfreeze]
  rfl

end CtfZone.Scoreboard
