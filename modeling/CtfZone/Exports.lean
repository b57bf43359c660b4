/-
# Backups

A backup holds all tables of the database (`exports.rs`).  Each table is read by a statement of
its own, outside of any transaction, so that other requests commit between two of them.

* `loadTable`, `buildArchive` : what is read, and what is made of it;
* `Service`, `step` : the backups under way, with the commits of other requests;
* `Undisturbed` : a commit that does no harm to the backups under way;
* `backup_consistent` : when the tables of a backup are from one state of the database.
-/
import CtfZone.Journal
import CtfZone.Submissions
import CtfZone.Runs
import CtfZone.Snapshots

namespace CtfZone.Exports

open Runs Submissions

/-! ## Tables -/

/-- `information_schema`: the base tables with their columns, ordered by name. -/
structure Schema where
  tables : List (String × List String)
  nodup : (tables.map Prod.fst).Nodup

/-- The names of the tables. -/
def Schema.names (schema : Schema) : List String := schema.tables.map Prod.fst

/-- The columns of a table. -/
def Schema.columns (schema : Schema) (table : String) : List String :=
  ((schema.tables.find? (·.1 = table)).map Prod.snd).getD []

/-- The rows of every table, `to_jsonb`. -/
abbrev Contents := String → List Json

/-- `ExportTable`. -/
structure ExportTable where
  name : String
  columns : List String
  rows : List Json

/-- `load_table`. -/
def loadTable (schema : Schema) (contents : Contents) (requested : String) :
    Except String ExportTable := do
  ensure (requested ≠ "" && requested.toList.all fun c => c.isAlphanum || c = '_')
    "Export table not found"
  let columns := schema.columns requested
  ensure (columns ≠ []) "Export table not found"
  pure ⟨requested, columns, contents requested⟩

/-- The document of a table in the archive. -/
def document (table : ExportTable) : Json :=
  .object [("count", .number (toString table.rows.length)), ("meta", .object []),
    ("results", .array table.rows)]

/-- `build_archive`: the files with their contents. -/
def buildArchive (tables : List ExportTable) : List (String × Json) :=
  tables.map fun table => ("db/" ++ table.name ++ ".json", document table)

/-- The rows in the file of a table. -/
def archivedRows (archive : List (String × Json)) : Contents := fun table =>
  match archive.find? (·.1 = "db/" ++ table ++ ".json") with
  | some (_, .object [_, _, (_, .array rows)]) => rows
  | _ => []

/-! ## Requests -/

/-- `CurrentUser`. -/
structure CurrentUser where
  isAdmin : Bool

/-- The tables that `raw` reads for an export; the export of one table to CSV has no
archive. -/
def backupTables (schema : Schema) (user : CurrentUser) (exportType : String) :
    Except String (List String) := do
  ensure user.isAdmin "Administrator access is required"
  ensure (exportType = "_" || exportType = "zip" || exportType = "backup")
    "Unsupported export type"
  pure schema.names

/-- A backup under way: the tables that are loaded, and those that are still to be. -/
structure Backup where
  tables : List ExportTable
  pending : List String

/-- The archive of a backup whose tables are all loaded. -/
def Backup.archive (backup : Backup) : Option (List (String × Json)) :=
  if backup.pending = [] then some (buildArchive backup.tables) else none

/-- The database, the states that were committed, and the backups under way. -/
structure Service where
  database : Contents
  committed : List Contents
  backups : List Backup

/-- A commit of another request, the start of a backup, and the statement it runs next. -/
inductive Label
  | commit (contents : Contents)
  | raw (user : CurrentUser) (exportType : String)
  | load (i : ℕ)

/-- The next table is loaded. -/
def Backup.load (schema : Schema) (contents : Contents) (backup : Backup) : Option Backup :=
  match backup.pending with
  | [] => none
  | name :: names => (loadTable schema contents name).toOption.map fun table =>
    ⟨backup.tables ++ [table], names⟩

/-- One step; a backup that fails ends there. -/
def step (schema : Schema) : Label → Service → Option Service
  | .commit contents, s => some
    { s with database := contents, committed := contents :: s.committed }
  | .raw user exportType, s => (backupTables schema user exportType).toOption.map fun names =>
    { s with backups := s.backups ++ [⟨[], names⟩] }
  | .load i, s => do
    let backup ← s.backups[i]?
    let backup ← backup.load schema s.database
    some { s with backups := s.backups.set i backup }

/-- No backup is under way. -/
structure Initial (s : Service) : Prop where
  committed : s.committed = [s.database]
  backups : s.backups = []

/-! ## One state of the database -/

/-- A backup as a reading of the tables. -/
def Backup.reading (backup : Backup) : Snapshots.Reading String (List Json) :=
  ⟨backup.tables.map fun table => (table.name, table.rows), backup.pending⟩

/-- A commit leaves the tables a backup has loaded as they were loaded, or those it is still to
load as they are. -/
def Undisturbed (s : Service) (l : Label) : Prop :=
  ∀ contents, l = .commit contents → ∀ backup ∈ s.backups,
    Snapshots.Undisturbed s.database contents backup.reading

/-- A backup is taken from one committed state, and has the tables in their order. -/
structure Consistent (schema : Schema) (s : Service) (backup : Backup) : Prop where
  taken : ∃ contents ∈ s.committed,
    Snapshots.TakenFrom contents s.database backup.reading
  names : backup.tables.map ExportTable.name ++ backup.pending = schema.names

theorem loadTable_eq_ok {schema : Schema} {contents : Contents} {name : String}
    {table : ExportTable} (h : loadTable schema contents name = .ok table) :
    table.name = name ∧ table.rows = contents name := by
  obtain ⟨_, -, h⟩ := bind_eq_ok.mp h
  obtain ⟨_, -, h⟩ := bind_eq_ok.mp h
  rw [← Except.ok.inj h]
  exact ⟨rfl, rfl⟩

/-- The next table is loaded from the database as it is now. -/
theorem Consistent.load {schema : Schema} {s : Service} {backup backup' : Backup}
    (h : Consistent schema s backup) (hload : backup.load schema s.database = some backup') :
    Consistent schema s backup' := by
  obtain ⟨⟨contents, hmem, htaken⟩, hnames⟩ := h
  obtain ⟨tables, pending⟩ := backup
  rcases pending with _ | ⟨name, names⟩
  · cases hload
  · obtain ⟨table, htable, rfl⟩ := Option.map_eq_some_iff.mp hload
    have htable' : loadTable schema s.database name = .ok table := by
      rcases hresult : loadTable schema s.database name with e | table'
      · rw [hresult] at htable
        cases htable
      · rw [hresult] at htable
        rw [Option.some.inj htable]
    obtain ⟨hname, hrows⟩ := loadTable_eq_ok htable'
    constructor
    · refine ⟨contents, hmem, ?_⟩
      have hread := htaken.read
      unfold Backup.reading
      rw [List.map_append, List.map_singleton, hname, hrows]
      exact hread
    · show (tables ++ [table]).map ExportTable.name ++ names = schema.names
      rw [List.map_append, List.map_singleton, hname, List.append_assoc]
      exact hnames

/-- The backups under way stay consistent. -/
theorem step_consistent {schema : Schema} {s s' : Service} {l : Label}
    (h : s.database ∈ s.committed ∧ ∀ backup ∈ s.backups, Consistent schema s backup)
    (hquiet : Undisturbed s l) (hstep : step schema l s = some s') :
    s'.database ∈ s'.committed ∧ ∀ backup ∈ s'.backups, Consistent schema s' backup := by
  obtain ⟨hdatabase, hbackups⟩ := h
  rcases l with contents | ⟨user, exportType⟩ | i
  · obtain rfl := Option.some.inj hstep
    refine ⟨List.mem_cons_self, fun backup hbackup => ?_⟩
    obtain ⟨⟨taken, hmem, htaken⟩, hnames⟩ := hbackups backup hbackup
    refine ⟨?_, hnames⟩
    rcases htaken.written (hquiet contents rfl backup hbackup) with hthen | hnow
    · exact ⟨taken, List.mem_cons_of_mem _ hmem, hthen⟩
    · exact ⟨contents, List.mem_cons_self, hnow⟩
  · obtain ⟨names, hnames, rfl⟩ := Option.map_eq_some_iff.mp hstep
    refine ⟨hdatabase, fun backup hbackup => ?_⟩
    rcases List.mem_append.mp hbackup with hold | hnew
    · exact ⟨(hbackups backup hold).taken, (hbackups backup hold).names⟩
    · obtain rfl := List.mem_singleton.mp hnew
      refine ⟨⟨s.database, hdatabase, Snapshots.TakenFrom.start s.database names⟩, ?_⟩
      show names = schema.names
      rcases hresult : backupTables schema user exportType with e | names'
      · rw [hresult] at hnames
        cases hnames
      · rw [hresult] at hnames
        obtain rfl := Option.some.inj hnames
        obtain ⟨_, -, hresult⟩ := bind_eq_ok.mp hresult
        obtain ⟨_, -, hresult⟩ := bind_eq_ok.mp hresult
        exact (Except.ok.inj hresult).symm
  · obtain ⟨backup, hget, hstep⟩ := Option.bind_eq_some_iff.mp hstep
    obtain ⟨backup', hload, hstep⟩ := Option.bind_eq_some_iff.mp hstep
    obtain rfl := Option.some.inj hstep
    refine ⟨hdatabase, fun other hother => ?_⟩
    have hkeep : ∀ b, Consistent schema s b → Consistent schema
        { s with backups := s.backups.set i backup' } b := fun b hb => ⟨hb.taken, hb.names⟩
    rcases List.mem_or_eq_of_mem_set hother with hold | rfl
    · exact hkeep other (hbackups other hold)
    · exact hkeep _ ((hbackups backup (List.mem_of_getElem? hget)).load hload)

theorem reach_consistent {schema : Schema} {s : Service}
    (h : Reach (step schema) Undisturbed Initial s) :
    s.database ∈ s.committed ∧ ∀ backup ∈ s.backups, Consistent schema s backup := by
  induction h with
  | init hs =>
      rw [hs.committed, hs.backups]
      exact ⟨List.mem_singleton.mpr rfl, nofun⟩
  | step l _ hquiet hstep ih => exact step_consistent ih hquiet hstep

/-! ## Archives -/

theorem fileName_inj {a b : String} (h : "db/" ++ a ++ ".json" = "db/" ++ b ++ ".json") : a = b := by
  have hlists := congrArg String.toList h
  simp only [String.toList_append, List.append_assoc] at hlists
  exact String.toList_inj.mp (List.append_cancel_right (List.append_cancel_left hlists))

/-- A file of the archive has the rows of its table. -/
theorem archivedRows_buildArchive {tables : List ExportTable}
    (hnodup : (tables.map ExportTable.name).Nodup) {table : ExportTable} (h : table ∈ tables) :
    archivedRows (buildArchive tables) table.name = table.rows := by
  induction tables with
  | nil => exact absurd h List.not_mem_nil
  | cons first tables ih =>
      rw [List.map_cons, List.nodup_cons] at hnodup
      unfold archivedRows buildArchive at ih ⊢
      rw [List.map_cons]
      rcases List.mem_cons.mp h with rfl | h'
      · rw [List.find?_cons_of_pos (by exact decide_eq_true rfl)]
        rfl
      · have hne : "db/" ++ first.name ++ ".json" ≠ "db/" ++ table.name ++ ".json" := by
          intro heq
          rw [fileName_inj heq] at hnodup
          exact hnodup.1 (List.mem_map_of_mem h')
        rw [List.find?_cons_of_neg (by rw [decide_eq_true_eq]; exact hne)]
        exact ih hnodup.2 h'

/-- A constraint looks at the tables of the database only. -/
def LooksAt (schema : Schema) (constraint : Contents → Prop) : Prop :=
  ∀ contents contents', (∀ table ∈ schema.names, contents table = contents' table) →
    constraint contents → constraint contents'

/-- **Backups are consistent** where no commit disturbs them: in every run whose commits leave
the tables a backup has loaded as they were loaded, or those it is still to load as they are,
every archive holds one committed state, and satisfies the constraints that state does. -/
theorem backup_consistent {schema : Schema} {s : Service}
    (h : Reach (step schema) Undisturbed Initial s) {backup : Backup} (hbackup : backup ∈ s.backups)
    {archive : List (String × Json)} (harchive : backup.archive = some archive) :
    ∃ contents ∈ s.committed,
      (∀ table ∈ schema.names, archivedRows archive table = contents table) ∧
      ∀ constraint, LooksAt schema constraint → constraint contents →
        constraint (archivedRows archive) := by
  obtain ⟨⟨contents, hmem, htaken⟩, hnames⟩ := (reach_consistent h).2 backup hbackup
  unfold Backup.archive at harchive
  split at harchive
  · rename_i hpending
    obtain rfl := Option.some.inj harchive
    rw [hpending, List.append_nil] at hnames
    have hrows : ∀ table ∈ schema.names, archivedRows (buildArchive backup.tables) table =
        contents table := by
      intro name hname
      rw [← hnames] at hname
      obtain ⟨table, htable, rfl⟩ := List.mem_map.mp hname
      have hnodup : (backup.tables.map ExportTable.name).Nodup := by
        rw [hnames]
        exact schema.nodup
      rw [archivedRows_buildArchive hnodup htable]
      exact htaken.done (table.name, table.rows) (List.mem_map_of_mem htable)
    refine ⟨contents, hmem, hrows, fun constraint hlooks hholds => ?_⟩
    exact hlooks contents _ (fun table htable => (hrows table htable).symm) hholds
  · cases harchive

/-! ## A submission that is deleted -/

/-- Two tables. -/
def twoTables : Schema where
  tables := [("solves", ["id"]), ("submissions", ["id"])]
  nodup := by decide

/-- Some solves and some submissions. -/
def withRows (solves submissions : List Json) : Contents := fun table =>
  if table = "solves" then solves else if table = "submissions" then submissions else []

/-- A database with no backup. -/
def idle (contents : Contents) : Service := ⟨contents, [contents], []⟩

/-- Another commit comes between the two tables of a backup. -/
def between (contents : Contents) : List Label :=
  [.raw ⟨true⟩ "backup", .load 0, .commit contents, .load 0]

theorem run_between (solves submissions solves' submissions' : List Json) :
    run (step twoTables) (between (withRows solves' submissions'))
      (idle (withRows solves submissions)) =
    some ⟨withRows solves' submissions',
      [withRows solves' submissions', withRows solves submissions],
      [⟨[⟨"solves", ["id"], solves⟩, ⟨"submissions", ["id"], submissions'⟩], []⟩]⟩ := by
  rfl

/-- The id 1 in a row. -/
def rowOne : Json := .object [("id", .number "1")]

/-- The id 2 in a row. -/
def rowTwo : Json := .object [("id", .number "2")]

/-- A wrong submission is committed after the solves are loaded; the archive has it. -/
theorem backup_consistent_beside : ∃ contents ∈ [withRows [rowOne] [rowOne, rowTwo],
      withRows [rowOne] [rowOne]],
    (∀ table ∈ twoTables.names, archivedRows
      (buildArchive [⟨"solves", ["id"], [rowOne]⟩, ⟨"submissions", ["id"], [rowOne, rowTwo]⟩]) table =
        contents table) ∧
    ∀ constraint, LooksAt twoTables constraint → constraint contents → constraint (archivedRows
      (buildArchive [⟨"solves", ["id"], [rowOne]⟩, ⟨"submissions", ["id"], [rowOne, rowTwo]⟩])) := by
  have hcalm (s : Service) (l : Label) (hl : ∀ contents, l ≠ .commit contents) :
      Undisturbed s l := fun contents heq => absurd heq (hl contents)
  have hinit : Reach (step twoTables) Undisturbed Initial (idle (withRows [rowOne] [rowOne])) :=
    .init ⟨rfl, rfl⟩
  have hraw : Reach (step twoTables) Undisturbed Initial
      { idle (withRows [rowOne] [rowOne]) with backups := [⟨[], ["solves", "submissions"]⟩] } :=
    .step (.raw ⟨true⟩ "backup") hinit (hcalm _ _ nofun) rfl
  have hload : Reach (step twoTables) Undisturbed Initial
      { idle (withRows [rowOne] [rowOne]) with
        backups := [⟨[⟨"solves", ["id"], [rowOne]⟩], ["submissions"]⟩] } :=
    .step (.load 0) hraw (hcalm _ _ nofun) rfl
  have hquiet : Undisturbed
      { idle (withRows [rowOne] [rowOne]) with
        backups := [⟨[⟨"solves", ["id"], [rowOne]⟩], ["submissions"]⟩] }
      (.commit (withRows [rowOne] [rowOne, rowTwo])) := by
    intro contents heq backup hbackup
    obtain rfl := Label.commit.inj heq
    obtain rfl := List.mem_singleton.mp hbackup
    left
    intro p hp
    rw [List.mem_singleton.mp hp]
    rfl
  have hdone := Reach.step (.load 0) (Reach.step _ hload hquiet rfl) (hcalm _ _ nofun) rfl
  exact backup_consistent hdone (List.mem_singleton.mpr rfl) rfl

/-- Every solve has its submission. -/
def SolvesResolve (contents : Contents) : Prop :=
  ∀ row ∈ contents "solves", row ∈ contents "submissions"

/-- A submission is deleted with its solve after the solves are loaded: the archive has the
solve without the submission, and is no state of the database. -/
theorem backup_torn :
    (¬ ∀ (schema : Schema) (s : Service) (backup : Backup) (archive : List (String × Json)),
      Reach (step schema) anyStep Initial s → backup ∈ s.backups → backup.archive = some archive →
      ∃ contents ∈ s.committed, ∀ table ∈ schema.names, archivedRows archive table = contents table) ∧
    ¬ ∀ (schema : Schema) (s : Service) (backup : Backup) (archive : List (String × Json)),
      Reach (step schema) anyStep Initial s → backup ∈ s.backups → backup.archive = some archive →
      (∀ contents ∈ s.committed, SolvesResolve contents) → SolvesResolve (archivedRows archive) := by
  have hreach := reach_of_run (between (withRows [] []))
    (show Initial (idle (withRows [rowOne] [rowOne])) from ⟨rfl, rfl⟩)
    (run_between [rowOne] [rowOne] [] [])
  constructor
  · intro hall
    obtain ⟨contents, hmem, htables⟩ :=
      hall twoTables _ _ _ hreach (List.mem_singleton.mpr rfl) rfl
    have hsolves : [rowOne] = contents "solves" := htables "solves" (by decide)
    have hsubmissions : [] = contents "submissions" := htables "submissions" (by decide)
    rcases List.mem_cons.mp hmem with rfl | hmem'
    · cases hsolves
    · obtain rfl := List.mem_singleton.mp hmem'
      cases hsubmissions
  · intro hall
    have hresolve : ∀ contents ∈ [withRows [] [], withRows [rowOne] [rowOne]],
        SolvesResolve contents := by
      intro contents hmem row hrow
      rcases List.mem_cons.mp hmem with rfl | hmem'
      · cases hrow
      · obtain rfl := List.mem_singleton.mp hmem'
        exact hrow
    have hrow := hall twoTables _ _ _ hreach (List.mem_singleton.mpr rfl) rfl hresolve rowOne
      (show rowOne ∈ [rowOne] from List.mem_singleton.mpr rfl)
    exact absurd (show rowOne ∈ [] from hrow) List.not_mem_nil

end CtfZone.Exports
