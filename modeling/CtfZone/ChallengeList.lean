/-
# The list of the challenges

`list_data` in `challenges.rs`.  A challenge whose prerequisites the viewer has not met is
listed without its columns when it is anonymized, but the query filters, searches and
orders the rows before they are rewritten.

* `Catalogue` : the tables that the list reads;
* `selected` : the conditions of the query;
* `listData` : the answer;
* `Differ`, `Concealed` : two catalogues that a viewer should not tell apart;
* `listData_eq_iff` : when the viewer does not.
-/
import CtfZone.ChallengeAccess
import CtfZone.Scoreboard
import Mathlib.Data.String.Basic

namespace CtfZone.Challenges

open Journal Submissions

/-! ## Texts -/

/-- How the database compares texts: the order of its collation, and `lower`. -/
structure Collation where
  le : String → String → Bool
  le_total : ∀ a b, le a b = true ∨ le b a = true
  le_trans : ∀ a b c, le a b = true → le b c = true → le a c = true
  le_antisymm : ∀ a b, le a b = true → le b a = true → a = b
  lower : String → String

/-- `LIKE`, with the pattern and the text as lists. -/
def like : List Char → List Char → Bool
  | [], text => text.isEmpty
  | '%' :: pattern, text => text.tails.any (like pattern)
  | '_' :: pattern, text =>
    match text with
    | [] => false
    | _ :: text => like pattern text
  | '\\' :: c :: pattern, text =>
    match text with
    | [] => false
    | d :: text => c = d && like pattern text
  | c :: pattern, text =>
    match text with
    | [] => false
    | d :: text => c = d && like pattern text

/-- `ILIKE`. -/
def Collation.ilike (k : Collation) (pattern text : String) : Bool :=
  like (k.lower pattern).toList (k.lower text).toList

/-! ## Tables -/

/-- A row of `challenges`, with the columns that the list reads. -/
structure ChallengeRecord where
  id : ℤ
  name : Option String
  description : Option String
  maxAttempts : Option ℤ
  value : Option ℤ
  category : String
  categoryId : ℤ
  challengeKind : String
  exposure : String
  connectionInfo : Option String
  challengeType : Option String
  state : String
  position : ℤ
  requirements : Option Json

/-- A row of `challenge_categories`. -/
structure CategoryRow where
  id : ℤ
  logoKey : Option String
  logoColor : Option String
  iconObjectId : Option Uuid

/-- A row of `tags`. -/
structure TagRow where
  challengeId : ℤ
  value : Option String

/-- A row of `challenge_runtime_configs`. -/
structure RuntimeConfigRow where
  challengeId : ℤ
  enabled : Bool
  runtimeMode : String

/-- The configuration that the list reads. -/
structure ListConfig where
  access : AccessConfig
  board : Scoreboard.BoardConfig

/-- The tables that the list reads.  The tags are in the order of their ids; `runtimeSetting`
is the setting of private challenges.  The ids of the challenges are a primary key, and
the category of a challenge is a foreign key. -/
structure Catalogue where
  config : ListConfig
  challenges : List ChallengeRecord
  categories : List CategoryRow
  tags : List TagRow
  runtimeConfigs : List RuntimeConfigRow
  runtimeSetting : Option Bool
  solves : List SolveRow
  users : List Scoreboard.AccountRow
  teams : List Scoreboard.AccountRow
  ids_nodup : (challenges.map ChallengeRecord.id).Nodup
  categorised : ∀ row ∈ challenges, ∃ category ∈ categories, category.id = row.categoryId

/-! ## The query -/

/-- `ChallengeListQuery`. -/
structure ChallengeListQuery where
  name : Option String
  maxAttempts : Option ℤ
  value : Option ℤ
  category : Option String
  categoryId : Option ℤ
  challengeType : Option String
  state : Option String
  q : Option String
  field : Option String
  view : Option String

/-- A column that is searched, and the pattern. -/
structure Search where
  column : ChallengeRecord → Option String
  pattern : String

/-- The search of a query. -/
def searchOf (query : ChallengeListQuery) : Except String (Option Search) :=
  match query.q.filter (trim · ≠ "") with
  | none => .ok none
  | some q =>
    let pattern := "%" ++ trim q ++ "%"
    match query.field.getD "name" with
    | "name" => .ok (some ⟨ChallengeRecord.name, pattern⟩)
    | "description" => .ok (some ⟨ChallengeRecord.description, pattern⟩)
    | "category" => .ok (some ⟨fun row => some row.category, pattern⟩)
    | "type" => .ok (some ⟨ChallengeRecord.challengeType, pattern⟩)
    | "state" => .ok (some ⟨fun row => some row.state, pattern⟩)
    | _ => .error "Unsupported challenge search field"

/-- The texts that are bound to the query. -/
def boundTexts (query : ChallengeListQuery) (search : Option Search) : List String :=
  query.name.toList ++ query.category.toList ++ query.challengeType.toList ++
    query.state.toList ++ (search.map Search.pattern).toList

/-- The conditions of the query, `WHERE`. -/
def selected (k : Collation) (adminView : Bool) (query : ChallengeListQuery)
    (search : Option Search) (row : ChallengeRecord) : Bool :=
  (adminView || row.state = "visible") &&
  query.name.all (row.name = some ·) &&
  query.maxAttempts.all (row.maxAttempts = some ·) &&
  query.value.all (row.value = some ·) &&
  query.category.all (row.category = ·) &&
  query.categoryId.all (row.categoryId = ·) &&
  query.challengeType.all (row.challengeType = some ·) &&
  query.state.all (row.state = ·) &&
  search.all fun search => (search.column row).any (k.ilike search.pattern)

/-- `ORDER BY c.category, c.position, c.id`. -/
def precedes (k : Collation) (a b : ChallengeRecord) : Bool :=
  if a.category ≠ b.category then k.le a.category b.category
  else if a.position ≠ b.position then a.position < b.position
  else a.id ≤ b.id

/-! ## The answer -/

/-- An anonymized challenge; `type` is `hidden`, `solves` is null, and it is neither solved
nor has it a runtime. -/
structure HiddenEntry where
  id : ℤ
  name : Option String
  value : Option ℤ
  category : Option String
  categoryId : Option ℤ
  categoryLogoKey : Option String
  categoryLogoColor : Option String
  categoryIconObjectId : Option Uuid
  tags : List String
  deriving DecidableEq

/-- A challenge as it is. -/
structure FullEntry where
  id : ℤ
  challengeType : String
  name : Option String
  value : Option ℤ
  position : ℤ
  solves : Option ℕ
  solvedByMe : Bool
  category : String
  categoryId : ℤ
  categoryLogoKey : Option String
  categoryLogoColor : Option String
  categoryIconObjectId : Option Uuid
  challengeKind : String
  exposure : String
  connectionInfo : Option String
  tags : List String
  runtimeAvailable : Bool
  deriving DecidableEq

/-- An entry of the list. -/
inductive ListEntry
  | hidden (entry : HiddenEntry)
  | full (entry : FullEntry)
  deriving DecidableEq

/-- The id of an entry. -/
def ListEntry.id : ListEntry → ℤ
  | .hidden entry => entry.id
  | .full entry => entry.id

namespace Catalogue

variable (db : Catalogue)

/-- `is_team_mode`. -/
def teamMode : Bool := db.config.board.teamMode

/-- The team of a viewer, as it is read for the solves. -/
def teamIdOf (user : Option Viewer) : Option ℤ :=
  user.bind fun current =>
    (db.users.find? (·.id = current.id)).bind Scoreboard.AccountRow.teamId

/-- `solved_challenge_ids`. -/
def solved (user : Option Viewer) : List ℤ :=
  (viewerAccount db.teamMode (user.map Viewer.id) (db.teamIdOf user)).elim [] fun account =>
    (db.solves.filter fun row => account.owns row.userId row.teamId).map SolveRow.challengeId

/-- `scores_and_accounts_visible`. -/
def scoresVisible (user : Option Viewer) : Bool :=
  Scoreboard.scoresAndAccountsVisible db.config.board (user.map fun current => ⟨current.isAdmin⟩)

/-- The solve counts for an account. -/
def counts (adminView : Bool) (accountId : ℤ) : Bool :=
  (if db.teamMode then db.teams else db.users).any fun account =>
    account.id = accountId && (adminView || account.visible)

/-- `solve_counts`, of one challenge. -/
def solveCount (adminView : Bool) (challengeId : ℤ) : ℕ :=
  db.solves.countP fun row => row.challengeId = challengeId &&
    (if db.teamMode then row.teamId else row.userId).any (db.counts adminView)

/-- `tags_for_challenges`, of one challenge. -/
def tagsOf (challengeId : ℤ) : List String :=
  (db.tags.filter (·.challengeId = challengeId)).filterMap TagRow.value

/-- The category that a row is joined with. -/
def categoryOf (row : ChallengeRecord) : Option CategoryRow :=
  db.categories.find? (·.id = row.categoryId)

/-- `runtime_available`. -/
def runtimeAvailable (row : ChallengeRecord) : Bool :=
  db.runtimeSetting.getD false &&
    (db.runtimeConfigs.find? (·.challengeId = row.id)).any fun config =>
      config.enabled && config.runtimeMode = "managed"

/-- The rewrite of a row that is anonymized. -/
def hiddenEntry (preview : Bool) (row : ChallengeRecord) : HiddenEntry :=
  if preview then
    { id := row.id, name := row.name, value := row.value, category := some row.category
      categoryId := some row.categoryId
      categoryLogoKey := (db.categoryOf row).bind CategoryRow.logoKey
      categoryLogoColor := (db.categoryOf row).bind CategoryRow.logoColor
      categoryIconObjectId := (db.categoryOf row).bind CategoryRow.iconObjectId
      tags := db.tagsOf row.id }
  else
    { id := row.id, name := some "???", value := some 0, category := some "???"
      categoryId := none, categoryLogoKey := none, categoryLogoColor := none
      categoryIconObjectId := none, tags := [] }

/-- A row as it is. -/
def fullEntry (adminView : Bool) (user : Option Viewer) (challengeType : String)
    (row : ChallengeRecord) : FullEntry :=
  { id := row.id, challengeType, name := row.name, value := row.value, position := row.position
    solves := if db.scoresVisible user then some (db.solveCount adminView row.id) else none
    solvedByMe := (db.solved user).contains row.id
    category := row.category, categoryId := row.categoryId
    categoryLogoKey := (db.categoryOf row).bind CategoryRow.logoKey
    categoryLogoColor := (db.categoryOf row).bind CategoryRow.logoColor
    categoryIconObjectId := (db.categoryOf row).bind CategoryRow.iconObjectId
    challengeKind := row.challengeKind, exposure := row.exposure
    connectionInfo := row.connectionInfo, tags := db.tagsOf row.id
    runtimeAvailable := db.runtimeAvailable row }

/-- What the list says of a row, if anything. -/
def entry (adminView : Bool) (user : Option Viewer) (row : ChallengeRecord) : Option ListEntry :=
  if ! requirementsMet row.requirements (db.solved user) && ! adminView then
    (anonymize row.requirements).map fun value =>
      .hidden (db.hiddenEntry (asStr value = some "preview") row)
  else
    let challengeType := row.challengeType.getD "standard"
    if challengeType ≠ "standard" ∧ challengeType ≠ "dynamic" then none
    else some (.full (db.fullEntry adminView user challengeType row))

end Catalogue

/-- The administrator asks for everything. -/
def isAdminView (user : Option Viewer) (query : ChallengeListQuery) : Bool :=
  viewerIsAdmin user && query.view = some "admin"

/-- What the list checks before the query is run, and the search. -/
def listAdmission (config : ListConfig) (now : Time) (user : Option Viewer)
    (query : ChallengeListQuery) : Except String (Option Search) := do
  requireChallengeVisibility config.access user
  requireCtfTime config.access now user
  requireVerified config.access user
  ensure (! teamMembershipMissing config.board.teamMode
    (user.map fun current => (current.isAdmin, current.teamId)))
    "Join a team before viewing challenges"
  let search ← searchOf query
  -- a text with a NUL is refused by the database
  ensure ((boundTexts query search).all (! ·.toList.contains '\x00'))
    "The database is temporarily unavailable"
  pure search

/-- The rows that the query returns, in its order; no row is lost in the join with the
categories. -/
def queryRows (k : Collation) (db : Catalogue) (adminView : Bool) (query : ChallengeListQuery)
    (search : Option Search) : List ChallengeRecord :=
  (db.challenges.filter fun row => (db.categoryOf row).isSome &&
    selected k adminView query search row).insertionSort fun a b => precedes k a b = true

/-- `list_data`. -/
def listData (k : Collation) (db : Catalogue) (now : Time) (user : Option Viewer)
    (query : ChallengeListQuery) : Except String (List ListEntry) := do
  let search ← listAdmission db.config now user query
  let adminView := isAdminView user query
  pure ((queryRows k db adminView query search).filterMap (db.entry adminView user))

/-! ## Sorted lists -/

section Sorting

variable {α : Type} {r : α → α → Bool}

/-- The order of a total and transitive test, for the sort. -/
theorem sorted_insertionSort (total : ∀ a b, r a b = true ∨ r b a = true)
    (trans : ∀ a b c, r a b = true → r b c = true → r a c = true) (l : List α) :
    (l.insertionSort fun a b => r a b = true).Pairwise fun a b => r a b = true := by
  have : Std.Total fun a b => r a b = true := ⟨total⟩
  have : IsTrans α fun a b => r a b = true := ⟨trans⟩
  exact List.pairwise_insertionSort _ l

/-- Lists with the same elements are sorted alike. -/
theorem insertionSort_eq_of_perm (total : ∀ a b, r a b = true ∨ r b a = true)
    (trans : ∀ a b c, r a b = true → r b c = true → r a c = true) {l l' : List α}
    (anti : ∀ a ∈ l, ∀ b ∈ l, r a b = true → r b a = true → a = b) (h : l.Perm l') :
    l.insertionSort (fun a b => r a b = true) = l'.insertionSort fun a b => r a b = true := by
  refine List.Perm.eq_of_pairwise (fun a b ha hb => ?_) (sorted_insertionSort total trans l)
    (sorted_insertionSort total trans l') ?_
  · exact anti a ((List.mem_insertionSort _).mp ha) b
      (h.mem_iff.mpr ((List.mem_insertionSort _).mp hb))
  · exact (List.perm_insertionSort _ l).trans (h.trans (List.perm_insertionSort _ l').symm)

/-- A sorted list splits at each of its elements. -/
theorem insertionSort_split (total : ∀ a b, r a b = true ∨ r b a = true)
    (trans : ∀ a b c, r a b = true → r b c = true → r a c = true) {l rest : List α} {c : α}
    (anti : ∀ a ∈ l, ∀ b ∈ l, r a b = true → r b a = true → a = b) (h : l.Perm (c :: rest)) :
    l.insertionSort (fun a b => r a b = true) =
      (rest.insertionSort fun a b => r a b = true).filter (r · c) ++
        c :: (rest.insertionSort fun a b => r a b = true).filter fun a => ! r a c := by
  have hsorted := sorted_insertionSort total trans rest
  have hperm : ((rest.insertionSort fun a b => r a b = true).filter (r · c) ++
      c :: (rest.insertionSort fun a b => r a b = true).filter fun a => ! r a c).Perm l := by
    refine List.perm_middle.trans (List.Perm.trans ?_ h.symm)
    refine List.Perm.cons c ((List.filter_append_perm _ _).trans (List.perm_insertionSort _ rest))
  refine List.Perm.eq_of_pairwise (fun a b ha hb => ?_) (sorted_insertionSort total trans l) ?_
    ((List.perm_insertionSort _ l).trans hperm.symm)
  · exact anti a ((List.mem_insertionSort _).mp ha) b (hperm.mem_iff.mp hb)
  · refine List.pairwise_append.mpr ⟨hsorted.filter _, List.pairwise_cons.mpr
      ⟨fun b hb => ?_, hsorted.filter _⟩, fun a ha b hb => ?_⟩
    · -- what does not come before `c` comes after it
      have hb := (List.mem_filter.mp hb).2
      rcases total b c with hbc | hcb
      · rw [hbc] at hb
        cases hb
      · exact hcb
    · have hac := (List.mem_filter.mp ha).2
      rcases List.mem_cons.mp hb with rfl | hb
      · exact hac
      · have hb := (List.mem_filter.mp hb).2
        rcases total b c with hbc | hcb
        · rw [hbc] at hb
          cases hb
        · exact trans a c b hac hcb

end Sorting

/-! ## The order of the rows -/

theorem precedes_total (k : Collation) (a b : ChallengeRecord) :
    precedes k a b = true ∨ precedes k b a = true := by
  unfold precedes
  by_cases hcategory : a.category = b.category
  · by_cases hposition : a.position = b.position
    · simp only [hcategory, hposition, ne_eq, not_true_eq_false, if_false, decide_eq_true_eq]
      omega
    · simp only [hcategory, hposition, Ne.symm hposition, ne_eq, not_true_eq_false, if_false,
        not_false_eq_true, if_true, decide_eq_true_eq]
      omega
  · rw [if_pos hcategory, if_pos (Ne.symm hcategory)]
    exact k.le_total _ _

/-- What stands before a row of another category, of the same category with another
position, and of the same position. -/
theorem precedes_iff {k : Collation} {a b : ChallengeRecord} :
    precedes k a b = true ↔ k.le a.category b.category = true ∧ (a.category = b.category →
      a.position < b.position ∨ (a.position = b.position ∧ a.id ≤ b.id)) := by
  unfold precedes
  have hrefl := k.le_total a.category a.category
  by_cases hcategory : a.category = b.category
  · rw [← hcategory, if_neg (not_not.mpr rfl)]
    by_cases hposition : a.position = b.position
    · rw [if_neg (not_not.mpr hposition), decide_eq_true_eq]
      constructor
      · intro h
        exact ⟨hrefl.elim id id, fun _ => .inr ⟨hposition, h⟩⟩
      · rintro ⟨-, h⟩
        have h := h rfl
        omega
    · rw [if_pos hposition, decide_eq_true_eq]
      constructor
      · intro h
        exact ⟨hrefl.elim id id, fun _ => .inl h⟩
      · rintro ⟨-, h⟩
        have h := h rfl
        omega
  · rw [if_pos hcategory]
    exact ⟨fun h => ⟨h, fun heq => absurd heq hcategory⟩, fun h => h.1⟩

theorem precedes_trans (k : Collation) (a b c : ChallengeRecord) (hab : precedes k a b = true)
    (hbc : precedes k b c = true) : precedes k a c = true := by
  rw [precedes_iff] at hab hbc ⊢
  refine ⟨k.le_trans _ _ _ hab.1 hbc.1, fun heq => ?_⟩
  -- equal ends leave no room for another category between them
  have hb : a.category = b.category :=
    k.le_antisymm _ _ hab.1 (heq ▸ hbc.1)
  have h := hab.2 hb
  have h' := hbc.2 (hb.symm.trans heq)
  omega

theorem precedes_antisymm {k : Collation} {a b : ChallengeRecord} (hab : precedes k a b = true)
    (hba : precedes k b a = true) : a.id = b.id := by
  rw [precedes_iff] at hab hba
  have heq := k.le_antisymm _ _ hab.1 hba.1
  have h := hab.2 heq
  have h' := hba.2 heq.symm
  omega

/-! ## One row apart -/

/-- Rows with distinct ids are one of them and the others. -/
theorem perm_cons_filter {rows : List ChallengeRecord} {c : ChallengeRecord}
    (hnodup : (rows.map ChallengeRecord.id).Nodup) (hc : c ∈ rows) :
    rows.Perm (c :: rows.filter (·.id ≠ c.id)) := by
  induction rows with
  | nil => cases hc
  | cons row rows ih =>
      rw [List.map_cons, List.nodup_cons] at hnodup
      by_cases h : row.id = c.id
      · have hrow : row = c := by
          rcases List.mem_cons.mp hc with rfl | hc
          · rfl
          · exact absurd (List.mem_map.mpr ⟨c, hc, h.symm⟩) hnodup.1
        have hrest : rows.filter (·.id ≠ c.id) = rows := by
          refine List.filter_eq_self.mpr fun other hother => ?_
          rw [decide_eq_true_eq, ← h]
          exact fun heq => hnodup.1 (heq ▸ List.mem_map_of_mem hother)
        rw [List.filter_cons_of_neg (by simpa using h), hrest, hrow]
      · have hc : c ∈ rows := (List.mem_cons.mp hc).resolve_left fun heq => h (heq ▸ rfl)
        rw [List.filter_cons_of_pos (by simpa using h)]
        exact ((ih hnodup.2 hc).cons row).trans (List.Perm.swap c row _)

namespace Catalogue

variable {db : Catalogue}

/-- The rows other than one. -/
def others (db : Catalogue) (id : ℤ) : List ChallengeRecord := db.challenges.filter (·.id ≠ id)

theorem eq_of_id {a b : ChallengeRecord} (ha : a ∈ db.challenges) (hb : b ∈ db.challenges)
    (h : a.id = b.id) : a = b :=
  List.inj_on_of_nodup_map db.ids_nodup ha hb h

/-- The table is a row and the others. -/
theorem perm_others {c : ChallengeRecord} (hc : c ∈ db.challenges) :
    db.challenges.Perm (c :: db.others c.id) :=
  perm_cons_filter db.ids_nodup hc

/-- Every row is joined with its category. -/
theorem categoryOf_isSome {row : ChallengeRecord} (h : row ∈ db.challenges) :
    (db.categoryOf row).isSome = true := by
  obtain ⟨category, hmem, hid⟩ := db.categorised row h
  exact List.find?_isSome.mpr ⟨category, hmem, decide_eq_true hid⟩

end Catalogue

/-- The rows that the query returns beside a row. -/
def otherRows (k : Collation) (db : Catalogue) (adminView : Bool) (query : ChallengeListQuery)
    (search : Option Search) (id : ℤ) : List ChallengeRecord :=
  ((db.others id).filter (selected k adminView query search)).insertionSort
    fun a b => precedes k a b = true

section Rows

variable {k : Collation} {db : Catalogue} {adminView : Bool} {query : ChallengeListQuery}
  {search : Option Search} {c row : ChallengeRecord}

theorem mem_otherRows {id : ℤ} : row ∈ otherRows k db adminView query search id ↔
    (row ∈ db.challenges ∧ row.id ≠ id) ∧ selected k adminView query search row = true := by
  simp only [otherRows, List.mem_insertionSort, List.mem_filter, Catalogue.others, ne_eq,
    decide_not, Bool.not_eq_true', decide_eq_false_iff_not]

/-- The join loses no row. -/
theorem queryRows_eq : queryRows k db adminView query search =
    (db.challenges.filter (selected k adminView query search)).insertionSort
      fun a b => precedes k a b = true := by
  have hjoin : (db.challenges.filter fun row => (db.categoryOf row).isSome &&
      selected k adminView query search row) =
      db.challenges.filter (selected k adminView query search) := by
    refine List.filter_congr fun row hrow => ?_
    rw [Catalogue.categoryOf_isSome hrow, Bool.true_and]
  rw [queryRows, hjoin]

theorem selected_anti : ∀ a ∈ db.challenges.filter (selected k adminView query search),
    ∀ b ∈ db.challenges.filter (selected k adminView query search),
    precedes k a b = true → precedes k b a = true → a = b :=
  fun _ ha _ hb hab hba => Catalogue.eq_of_id (List.mem_filter.mp ha).1 (List.mem_filter.mp hb).1
    (precedes_antisymm hab hba)

/-- A row that is not selected does not change what the query returns. -/
theorem queryRows_of_not_selected (hc : c ∈ db.challenges)
    (h : selected k adminView query search c = false) :
    queryRows k db adminView query search = otherRows k db adminView query search c.id := by
  rw [queryRows_eq]
  refine insertionSort_eq_of_perm (precedes_total k) (precedes_trans k) selected_anti ?_
  have hperm := (Catalogue.perm_others hc).filter (selected k adminView query search)
  rwa [List.filter_cons_of_neg (by rw [h]; exact Bool.false_ne_true)] at hperm

/-- A row that is selected stands between those before it and those after it. -/
theorem queryRows_of_selected (hc : c ∈ db.challenges)
    (h : selected k adminView query search c = true) :
    queryRows k db adminView query search =
      (otherRows k db adminView query search c.id).filter (precedes k · c) ++
        c :: (otherRows k db adminView query search c.id).filter fun row => ! precedes k row c := by
  rw [queryRows_eq]
  refine insertionSort_split (precedes_total k) (precedes_trans k) selected_anti ?_
  have hperm := (Catalogue.perm_others hc).filter (selected k adminView query search)
  rwa [List.filter_cons_of_pos h] at hperm

end Rows

/-! ## What is listed -/

/-- The list says something of a row. -/
def listed (db : Catalogue) (adminView : Bool) (user : Option Viewer) (row : ChallengeRecord) :
    Bool :=
  if ! requirementsMet row.requirements (db.solved user) && ! adminView then
    (anonymize row.requirements).isSome
  else ["standard", "dynamic"].contains (row.challengeType.getD "standard")

theorem entry_isSome (db : Catalogue) (adminView : Bool) (user : Option Viewer)
    (row : ChallengeRecord) :
    (db.entry adminView user row).isSome = listed db adminView user row := by
  unfold Catalogue.entry listed
  split
  · rw [Option.isSome_map]
  · dsimp only
    split
    · rename_i h
      simp [h.1, h.2]
    · rename_i h
      rw [not_and_or, not_not, not_not] at h
      rcases h with h | h <;> simp [h]

/-- An entry has the id of its row. -/
theorem entry_id {db : Catalogue} {adminView : Bool} {user : Option Viewer}
    {row : ChallengeRecord} {e : ListEntry} (h : db.entry adminView user row = some e) :
    e.id = row.id := by
  unfold Catalogue.entry at h
  split at h
  · obtain ⟨value, -, rfl⟩ := Option.map_eq_some_iff.mp h
    show (db.hiddenEntry _ row).id = row.id
    unfold Catalogue.hiddenEntry
    split <;> rfl
  · dsimp only at h
    split at h
    · cases h
    · rw [← Option.some.inj h]
      rfl

/-! ## Two catalogues -/

/-- Two catalogues that differ in one challenge only, in its tags and in its runtime;
a preview shows the name, the value, the category and the tags, and these agree. -/
structure Differ (preview : Bool) (db db' : Catalogue) (c c' : ChallengeRecord) : Prop where
  mem : c ∈ db.challenges
  mem' : c' ∈ db'.challenges
  id : c'.id = c.id
  others : db'.others c.id = db.others c.id
  tags : db'.tags.filter (·.challengeId ≠ c.id) = db.tags.filter (·.challengeId ≠ c.id)
  runtimeConfigs : db'.runtimeConfigs.filter (·.challengeId ≠ c.id) =
    db.runtimeConfigs.filter (·.challengeId ≠ c.id)
  config : db'.config = db.config
  categories : db'.categories = db.categories
  runtimeSetting : db'.runtimeSetting = db.runtimeSetting
  solves : db'.solves = db.solves
  users : db'.users = db.users
  teams : db'.teams = db.teams
  shown : preview = true → c'.name = c.name ∧ c'.value = c.value ∧ c'.category = c.category ∧
    c'.categoryId = c.categoryId ∧ db'.tagsOf c.id = db.tagsOf c.id

/-- A visible challenge that is anonymized for a viewer, who has not met its requirements. -/
structure Concealed (db : Catalogue) (user : Option Viewer) (preview : Bool)
    (c : ChallengeRecord) : Prop where
  visible : c.state = "visible"
  unmet : requirementsMet c.requirements (db.solved user) = false
  anonymized : (anonymize c.requirements).map (fun value => decide (asStr value = some "preview")) =
    some preview

/-- The query treats two rows alike: it selects both or none, and puts them at the same
place among the rows that are listed. -/
def Alike (k : Collation) (db : Catalogue) (user : Option Viewer) (query : ChallengeListQuery)
    (search : Option Search) (c c' : ChallengeRecord) : Prop :=
  selected k false query search c' = selected k false query search c ∧
  (selected k false query search c = true → ∀ row ∈ db.challenges, row.id ≠ c.id →
    selected k false query search row = true → listed db false user row = true →
      precedes k row c' = precedes k row c)

theorem Concealed.entry {db : Catalogue} {user : Option Viewer} {preview : Bool}
    {c : ChallengeRecord} (h : Concealed db user preview c) :
    db.entry false user c = some (.hidden (db.hiddenEntry preview c)) := by
  obtain ⟨value, hvalue, hpreview⟩ := Option.map_eq_some_iff.mp h.anonymized
  rw [Catalogue.entry, h.unmet, hvalue, Option.map_some, hpreview]
  rfl

section Twins

variable {k : Collation} {preview : Bool} {db db' : Catalogue} {c c' row : ChallengeRecord}
  {user : Option Viewer} {query : ChallengeListQuery} {search : Option Search}

theorem Differ.solved (h : Differ preview db db' c c') : db'.solved user = db.solved user := by
  simp only [Catalogue.solved, Catalogue.teamMode, Catalogue.teamIdOf, h.config, h.users, h.solves]

theorem Differ.tagsOf (h : Differ preview db db' c c') {id : ℤ} (hid : id ≠ c.id) :
    db'.tagsOf id = db.tagsOf id := by
  have hrest : ∀ tags : List TagRow, tags.filter (·.challengeId = id) =
      (tags.filter (·.challengeId ≠ c.id)).filter (·.challengeId = id) := by
    intro tags
    rw [List.filter_filter]
    refine List.filter_congr fun tag _ => ?_
    by_cases htag : tag.challengeId = id
    · simp [htag, hid]
    · simp [htag]
  rw [Catalogue.tagsOf, Catalogue.tagsOf, hrest, h.tags, ← hrest]

theorem Differ.runtimeAvailable (h : Differ preview db db' c c') (hid : row.id ≠ c.id) :
    db'.runtimeAvailable row = db.runtimeAvailable row := by
  have hrest : ∀ configs : List RuntimeConfigRow, configs.find? (·.challengeId = row.id) =
      (configs.filter (·.challengeId ≠ c.id)).find? (·.challengeId = row.id) := by
    intro configs
    rw [List.find?_filter]
    refine congrArg (List.find? · configs) (funext fun config => ?_)
    by_cases hconfig : config.challengeId = row.id
    · simp [hconfig, hid]
    · simp [hconfig]
  rw [Catalogue.runtimeAvailable, Catalogue.runtimeAvailable, hrest, h.runtimeConfigs, ← hrest,
    h.runtimeSetting]

theorem Differ.counts (h : Differ preview db db' c c') : db'.counts false = db.counts false := by
  funext accountId
  rw [Catalogue.counts, Catalogue.counts, Catalogue.teamMode, Catalogue.teamMode, h.config,
    h.users, h.teams]

/-- What the list says of the other rows is the same. -/
theorem Differ.entry (h : Differ preview db db' c c') (hid : row.id ≠ c.id) :
    db'.entry false user row = db.entry false user row := by
  have hcategory : db'.categoryOf row = db.categoryOf row := by
    rw [Catalogue.categoryOf, h.categories]
    rfl
  have hfull : ∀ challengeType, db'.fullEntry false user challengeType row =
      db.fullEntry false user challengeType row := by
    intro challengeType
    simp only [Catalogue.fullEntry, Catalogue.scoresVisible, Catalogue.solveCount,
      Catalogue.teamMode, h.config, h.solves, h.counts, h.solved, hcategory, h.tagsOf hid,
      h.runtimeAvailable hid]
    rfl
  have hhidden : ∀ shown, db'.hiddenEntry shown row = db.hiddenEntry shown row := by
    intro shown
    simp only [Catalogue.hiddenEntry, hcategory, h.tagsOf hid]
  simp only [Catalogue.entry, h.solved, hfull, hhidden]

/-- What the list says of the challenge is the same. -/
theorem Differ.hiddenEntry (h : Differ preview db db' c c') :
    db'.hiddenEntry preview c' = db.hiddenEntry preview c := by
  cases preview with
  | false => simp only [Catalogue.hiddenEntry, h.id, Bool.false_eq_true, if_false]
  | true =>
      obtain ⟨hname, hvalue, hcategory, hcategoryId, htags⟩ := h.shown rfl
      simp only [Catalogue.hiddenEntry, Catalogue.categoryOf, h.id, hname, hvalue, hcategory,
        hcategoryId, htags, h.categories, if_true]

theorem Differ.otherRows (h : Differ preview db db' c c') :
    otherRows k db' false query search c'.id = otherRows k db false query search c.id := by
  rw [Challenges.otherRows, Challenges.otherRows, h.id, h.others]

/-- The other rows have the same entries. -/
theorem Differ.entries (h : Differ preview db db' c c') {rows : List ChallengeRecord}
    (hrows : rows ⊆ Challenges.otherRows k db false query search c.id) :
    rows.filterMap (db'.entry false user) = rows.filterMap (db.entry false user) :=
  List.filterMap_congr fun _ hrow => h.entry (mem_otherRows.mp (hrows hrow)).1.2

/-- The entry of the challenge is none of theirs. -/
theorem hiddenEntry_notMem {rows : List ChallengeRecord}
    (hrows : rows ⊆ otherRows k db false query search c.id) :
    ListEntry.hidden (db.hiddenEntry preview c) ∉ rows.filterMap (db.entry false user) := by
  intro hmem
  obtain ⟨row, hrow, hentry⟩ := List.mem_filterMap.mp hmem
  have hc : (ListEntry.hidden (db.hiddenEntry preview c)).id = c.id := by
    show (db.hiddenEntry preview c).id = c.id
    unfold Catalogue.hiddenEntry
    split <;> rfl
  exact (mem_otherRows.mp (hrows hrow)).1.2 ((entry_id hentry).symm.trans hc)

/-- Conditions that agree on the listed rows leave the same entries. -/
theorem filterMap_filter_congr {rows : List ChallengeRecord} {p q : ChallengeRecord → Bool}
    (h : ∀ row ∈ rows, listed db false user row = true → p row = q row) :
    (rows.filter p).filterMap (db.entry false user) =
      (rows.filter q).filterMap (db.entry false user) := by
  rw [List.filterMap_filter, List.filterMap_filter]
  refine List.filterMap_congr fun row hrow => ?_
  by_cases hlisted : listed db false user row = true
  · rw [h row hrow hlisted]
  · have hnone : db.entry false user row = none := by
      rw [← Option.not_isSome_iff_eq_none, entry_isSome]
      exact hlisted
    rw [hnone, ite_self, ite_self]

/-- Conditions that leave the same entries agree on the listed rows: the entry of a row
tells the row. -/
theorem eq_of_filterMap_filter {p q : ChallengeRecord → Bool}
    (h : ((otherRows k db false query search c.id).filter p).filterMap (db.entry false user) =
      ((otherRows k db false query search c.id).filter q).filterMap (db.entry false user))
    (hrow : row ∈ otherRows k db false query search c.id)
    (hlisted : listed db false user row = true) : p row = q row := by
  obtain ⟨e, he⟩ := Option.isSome_iff_exists.mp ((entry_isSome db false user row).trans hlisted)
  have hmem : ∀ p' : ChallengeRecord → Bool, p' row = true ↔
      e ∈ ((otherRows k db false query search c.id).filter p').filterMap
        (db.entry false user) := by
    intro p'
    constructor
    · intro hp
      exact List.mem_filterMap.mpr ⟨row, List.mem_filter.mpr ⟨hrow, hp⟩, he⟩
    · intro he'
      obtain ⟨row', hrow', hentry⟩ := List.mem_filterMap.mp he'
      obtain ⟨hrow', hp⟩ := List.mem_filter.mp hrow'
      obtain rfl : row' = row := Catalogue.eq_of_id (mem_otherRows.mp hrow').1.1
        (mem_otherRows.mp hrow).1.1 ((entry_id hentry).symm.trans (entry_id he))
      exact hp
  rw [Bool.eq_iff_iff, hmem p, hmem q, h]

/-- **The rows of a query are listed alike if and only if it treats the two challenges
alike.** -/
theorem entries_eq_iff (h : Differ preview db db' c c') (hc : Concealed db user preview c)
    (hc' : Concealed db' user preview c') :
    (queryRows k db' false query search).filterMap (db'.entry false user) =
        (queryRows k db false query search).filterMap (db.entry false user) ↔
      Alike k db user query search c c' := by
  have hshown : db'.entry false user c' = some (.hidden (db.hiddenEntry preview c)) := by
    rw [hc'.entry, h.hiddenEntry]
  have hself := List.Subset.refl (otherRows k db false query search c.id)
  have hnone : ListEntry.hidden (db.hiddenEntry preview c) ∉
      (otherRows k db false query search c.id).filterMap (db.entry false user) :=
    hiddenEntry_notMem hself
  have hfilter : ∀ p : ChallengeRecord → Bool,
      (otherRows k db false query search c.id).filter p ⊆ otherRows k db false query search c.id :=
    fun _ => List.filter_subset_self _
  by_cases hsel : selected k false query search c = true
  · have hrows := queryRows_of_selected h.mem hsel
    by_cases hsel' : selected k false query search c' = true
    · have hrows' := queryRows_of_selected h.mem' hsel'
      rw [h.otherRows] at hrows'
      rw [hrows, hrows', List.filterMap_append, List.filterMap_append,
        List.filterMap_cons_some hshown, List.filterMap_cons_some hc.entry,
        h.entries (hfilter _), h.entries (hfilter _), List.append_cons_inj_of_notMem
          (hiddenEntry_notMem (hfilter _)) (hiddenEntry_notMem (hfilter _))]
      constructor
      · rintro ⟨hbefore, -, -⟩
        refine ⟨hsel'.trans hsel.symm, fun _ row hrow hid hrowsel hlisted => ?_⟩
        exact eq_of_filterMap_filter hbefore (mem_otherRows.mpr ⟨⟨hrow, hid⟩, hrowsel⟩) hlisted
      · rintro ⟨-, halike⟩
        have hall : ∀ row ∈ otherRows k db false query search c.id,
            listed db false user row = true → precedes k row c' = precedes k row c := by
          intro row hrow hlisted
          obtain ⟨⟨hmem, hid⟩, hrowsel⟩ := mem_otherRows.mp hrow
          exact halike hsel row hmem hid hrowsel hlisted
        exact ⟨filterMap_filter_congr hall, rfl, filterMap_filter_congr
          fun row hrow hlisted => congrArg not (hall row hrow hlisted)⟩
    · -- only the first list has an entry for the challenge
      have hrows' := queryRows_of_not_selected h.mem' (Bool.eq_false_iff.mpr hsel')
      rw [hrows', h.otherRows, h.entries hself]
      constructor
      · intro heq
        refine absurd ?_ hnone
        rw [heq, hrows]
        exact List.mem_filterMap.mpr ⟨c, List.mem_append_right _ List.mem_cons_self, hc.entry⟩
      · intro halike
        exact absurd (halike.1.trans hsel) hsel'
  · have hrows := queryRows_of_not_selected h.mem (Bool.eq_false_iff.mpr hsel)
    by_cases hsel' : selected k false query search c' = true
    · have hrows' := queryRows_of_selected h.mem' hsel'
      rw [hrows]
      constructor
      · intro heq
        refine absurd ?_ hnone
        rw [← heq, hrows']
        exact List.mem_filterMap.mpr ⟨c', List.mem_append_right _ List.mem_cons_self, hshown⟩
      · intro halike
        exact absurd (halike.1.symm.trans hsel') hsel
    · have hrows' := queryRows_of_not_selected h.mem' (Bool.eq_false_iff.mpr hsel')
      rw [hrows, hrows', h.otherRows, h.entries hself]
      refine ⟨fun _ => ⟨?_, fun hc => absurd hc hsel⟩, fun _ => rfl⟩
      rw [Bool.eq_false_iff.mpr hsel, Bool.eq_false_iff.mpr hsel']

/-- **The list tells nothing of an anonymized challenge if and only if the request is refused
before the query, or the query treats the two challenges alike.** -/
theorem listData_eq_iff (k : Collation) (now : Time) (h : Differ preview db db' c c')
    (hc : Concealed db user preview c) (hc' : Concealed db' user preview c')
    (hview : isAdminView user query = false) :
    listData k db' now user query = listData k db now user query ↔
      ∀ search, listAdmission db.config now user query = .ok search →
        Alike k db user query search c c' := by
  unfold listData
  rw [h.config]
  cases hadmit : listAdmission db.config now user query with
  | error e =>
      constructor
      · intro _ search hsearch
        cases hsearch
      · intro _
        rfl
  | ok search =>
      have hlists : (queryRows k db' false query search).filterMap (db'.entry false user) =
          (queryRows k db false query search).filterMap (db.entry false user) ↔
            Alike k db user query search c c' := entries_eq_iff h hc hc'
      rw [hview]
      constructor
      · intro heq search' hsearch
        rw [← Except.ok.inj hsearch]
        exact hlists.mp (Except.ok.inj heq)
      · intro hall
        exact congrArg Except.ok (hlists.mpr (hall search rfl))

end Twins

/-- The order of the code points. -/
def codePoints : Collation where
  le a b := decide (a ≤ b)
  le_total a b := by simpa only [decide_eq_true_eq] using le_total a b
  le_trans a b c hab hbc := decide_eq_true ((of_decide_eq_true hab).trans (of_decide_eq_true hbc))
  le_antisymm a b hab hba := (of_decide_eq_true hab).antisymm (of_decide_eq_true hba)
  lower := String.toLower

/-- An anonymized challenge behind one that is not there. -/
def vault (name : String) : ChallengeRecord :=
  { id := 1, name := some name, description := none, maxAttempts := none, value := some 100
    category := "misc", categoryId := 1, challengeKind := "jeopardy", exposure := "public"
    connectionInfo := none, challengeType := some "standard", state := "visible", position := 0
    requirements := some (.object [("prerequisites", .array [.ofInt 2]), ("anonymize", .bool true)]) }

/-- A public contest with this challenge only. -/
def vaultCatalogue (name : String) : Catalogue where
  config := ⟨⟨some "public", ⟨0, 0, false⟩, false⟩, ⟨false, none, none, none⟩⟩
  challenges := [vault name]
  categories := [⟨1, none, none, none⟩]
  tags := []
  runtimeConfigs := []
  runtimeSetting := none
  solves := []
  users := []
  teams := []
  ids_nodup := List.nodup_singleton 1
  categorised row h := ⟨_, List.mem_singleton_self _, by rw [List.mem_singleton.mp h]; rfl⟩

theorem vault_differ (name name' : String) :
    Differ false (vaultCatalogue name) (vaultCatalogue name') (vault name) (vault name') where
  mem := List.mem_singleton_self _
  mem' := List.mem_singleton_self _
  id := rfl
  others := rfl
  tags := rfl
  runtimeConfigs := rfl
  config := rfl
  categories := rfl
  runtimeSetting := rfl
  solves := rfl
  users := rfl
  teams := rfl
  shown := nofun

theorem vault_concealed (name : String) :
    Concealed (vaultCatalogue name) none false (vault name) where
  visible := rfl
  unmet := by
    refine Bool.eq_false_iff.mpr fun hmet => ?_
    have hmem : (2 : ℤ) ∈ prerequisiteIds (vault name).requirements :=
      mem_prerequisiteIds.mpr ⟨.ofInt 2, List.mem_singleton_self _, Json.asInt_ofInt 2⟩
    cases requirementsMet_iff_forall_mem.mp hmet 2 hmem (by decide)
  anonymized := rfl

/-- A query without conditions. -/
def plainQuery : ChallengeListQuery := ⟨none, none, none, none, none, none, none, none, none, none⟩

theorem listData_plain : listData codePoints (vaultCatalogue "beta") 0 none plainQuery =
    listData codePoints (vaultCatalogue "alpha") 0 none plainQuery := by
  refine (listData_eq_iff codePoints 0 (vault_differ "alpha" "beta") (vault_concealed "alpha")
    (vault_concealed "beta") rfl).mpr fun search hsearch => ?_
  obtain rfl : none = search := Except.ok.inj hsearch
  refine ⟨rfl, fun _ row hrow hid => ?_⟩
  rw [List.mem_singleton.mp hrow] at hid
  exact absurd rfl hid

/-- The filter on the name tells the name of an anonymized challenge. -/
theorem name_filter_tells :
    Differ false (vaultCatalogue "alpha") (vaultCatalogue "beta") (vault "alpha") (vault "beta") ∧
      Concealed (vaultCatalogue "alpha") none false (vault "alpha") ∧
      Concealed (vaultCatalogue "beta") none false (vault "beta") ∧
      listData codePoints (vaultCatalogue "beta") 0 none { plainQuery with name := some "alpha" } ≠
        listData codePoints (vaultCatalogue "alpha") 0 none
          { plainQuery with name := some "alpha" } := by
  refine ⟨vault_differ _ _, vault_concealed _, vault_concealed _, fun h => ?_⟩
  have hempty : listData codePoints (vaultCatalogue "beta") 0 none
      { plainQuery with name := some "alpha" } = .ok [] := rfl
  have hshown : listData codePoints (vaultCatalogue "alpha") 0 none
      { plainQuery with name := some "alpha" } =
      .ok [.hidden ((vaultCatalogue "alpha").hiddenEntry false (vault "alpha"))] :=
    congrArg Except.ok (List.filterMap_cons_some (vault_concealed "alpha").entry)
  rw [hempty, hshown] at h
  cases h

end CtfZone.Challenges
