/-
# The life of an object

Whatever requests, parent deletions and controllers do, and in whatever order, an
object goes from `pending` to `ready`, `failed` or `deleting`, and from there to
`deleting` and `deleted`; each change of its status raises its revision.  What the
controller knows of an older revision changes nothing, and a request that empties
a final key is only ever sent for an object that is lost.

* `objects_lead` : every run;
* `stale_execution` : an operation of another revision;
* `deletes_lost` : who is deleted;
* `object_lifecycle` : the three together.
-/
import CtfZone.StorageFrame

namespace CtfZone.Storage

open Tables Relation Runs

variable {config : Config} {label : Label} {s s' : System}

/-! ## Objects along a run -/

/-- Objects persist along a run, and follow the edges. -/
theorem objects_lead (hr : Reach (step config) anyStep Initial s)
    (h : Leads (step config) anyStep s s') : Persist Becomes s.db.objects s'.db.objects := by
  refine h.rel (R := fun s s' => Persist Becomes s.db.objects s'.db.objects)
    (fun s => Persist.refl Becomes.refl s.db.objects)
    (fun _ _ _ => Persist.trans (R := Becomes) fun _ _ _ => Becomes.trans)
    (fun s l s' hs _ hstep => ?_) hr
  have hsound := reach_sound hs
  exact ((step_changes hstep hsound).rows hsound.tables).persist

/-- Every object began as pending. -/
def ObjectsBegun (s : System) : Prop := ∀ o ∈ s.db.objects, o.Begun

theorem objects_begun (hr : Reach (step config) anyStep Initial s) : ObjectsBegun s := by
  refine hr.invariant_with (fun _ => reach_sound) (fun s hs => ?_)
    fun s l s' hs hbegun _ hstep => ?_
  · rw [ObjectsBegun, hs.1]
    exact fun o ho => absurd ho List.not_mem_nil
  · intro o' ho'
    rcases ((step_changes hstep hs).rows hs.tables).origin o' ho' with ⟨o, ho, hb⟩ | ⟨hnew, -⟩
    · exact (hbegun o ho).trans hb.path
    · exact hnew

/-! ## Executions -/

/-- What an execution has loaded: the row at the revision of its operation, which
has gone on at most since. -/
structure Job.Loaded (s : System) (job : Job) (o : StoredObject) : Prop where
  objectId : o.id = job.operation.objectId
  revision : o.revision = job.operation.objectRevision
  row : ∃ row ∈ s.db.objects, Becomes o row

/-- Every execution that holds a row has loaded it. -/
def JobsLoaded (s : System) : Prop :=
  ∀ job ∈ s.jobs, ∀ o, job.phase.object = some o → job.Loaded s o

theorem jobsLoaded_step (h : step config label s = some s') (hs : s.Sound)
    (hloaded : JobsLoaded s) : JobsLoaded s' := by
  have hrows := (step_changes h hs).rows hs.tables
  have hkeep {job : Job} (hjob : job ∈ s.jobs) {o : StoredObject}
      (ho : job.phase.object = some o) {job' : Job} (heq : job'.operation = job.operation) :
      job'.Loaded s' o := by
    obtain ⟨hid, hrevision, row, hrow, hb⟩ := hloaded job hjob o ho
    obtain ⟨row', hrow', hb'⟩ := hrows.persist row hrow
    exact ⟨heq ▸ hid, heq ▸ hrevision, row', hrow', hb.trans hb'⟩
  have hfirst {job job' : Job} {o : StoredObject} (hrow : s.db.object job.operation.objectId = some o)
      (hrevision : o.revision = job.operation.objectRevision)
      (heq : job'.operation = job.operation) : job'.Loaded s' o := by
    obtain ⟨ho, hid⟩ := object_mem hrow
    exact ⟨heq ▸ hid, heq ▸ hrevision, hrows.persist o ho⟩
  intro job' hjob' o ho
  cases (step_frame h hs.tables).jobs job' hjob' with
  | same mem => exact hkeep mem ho rfl
  | retry job mem eq =>
      rw [eq] at ho
      cases ho
  | new claimed matched =>
      rw [claimed] at ho
      cases ho
  | deletingUpload job row mem kind hrow revision status eq =>
      rw [eq] at ho
      cases ho
      exact hfirst hrow revision (by rw [eq])
  | deletingFinal job row mem kind hrow revision status sent eq =>
      rw [eq] at ho
      cases ho
      exact hfirst hrow revision (by rw [eq])
  | uploadDeleted job request row mem phase terminal eq =>
      rw [eq] at ho
      cases ho
      exact hkeep mem (by rw [phase]; rfl) (by rw [eq])
  | uploadAbsent job row mem phase absent eq =>
      rw [eq] at ho
      cases ho
      exact hkeep mem (by rw [phase]; rfl) (by rw [eq])

theorem jobsLoaded_of_initial (hs : Initial s) : JobsLoaded s := by
  obtain ⟨-, -, -, -, -, -, -, -, hjobs, -⟩ := hs
  rw [JobsLoaded, hjobs]
  exact fun job hjob => absurd hjob List.not_mem_nil

theorem jobsLoaded_reach {guard : System → Label → Prop}
    (h : Reach (step config) guard Initial s) : JobsLoaded s :=
  h.invariant_with (fun _ => reach_sound) (fun _ => jobsLoaded_of_initial)
    fun _ _ _ hs hloaded _ hstep => jobsLoaded_step hstep hs hloaded

/-- The execution a step is about. -/
def Label.job : Label → Option ℕ
  | .beginJob id | .resumeJob id | .breakJob id | .retryJob id | .dropJob id => some id
  | _ => none

theorem updateClaimed_objects {db db' : Database} {op : ObjectOperation}
    {f : ObjectOperation → ObjectOperation} (h : db.updateClaimed op f = some db') :
    db'.objects = db.objects := by
  obtain ⟨-, rfl⟩ := updateClaimed_eq h
  rfl

theorem getD_updateClaimed_objects {db : Database} {op : ObjectOperation}
    {f : ObjectOperation → ObjectOperation} :
    ((db.updateClaimed op f).getD db).objects = db.objects := by
  cases hdb : db.updateClaimed op f with
  | none => rfl
  | some db' => exact updateClaimed_objects hdb

theorem scheduleRetry_objects {db : Database} {now : Time} {op : ObjectOperation} :
    (scheduleRetry config db now op).objects = db.objects := by
  unfold scheduleRetry
  split <;> exact getD_updateClaimed_objects

/-- A transaction that at most ends its operation. -/
theorem settle_objects {job : Job} {outcome : Outcome} {sent : System}
    (hsent : sent.db = s.db) (h : ∀ db, outcome = .commit db → db.objects = s.db.objects) :
    (settle s job outcome sent).db.objects = s.db.objects := by
  cases outcome with
  | commit db => exact h db rfl
  | send =>
      show sent.db.objects = s.db.objects
      rw [hsent]
  | retry => rfl

theorem settle_updateClaimed {job : Job} {f : ObjectOperation → ObjectOperation} {sent : System}
    (hsent : sent.db = s.db) :
    (settle s job (.ofOption (s.db.updateClaimed job.operation f)) sent).db.objects =
      s.db.objects :=
  settle_objects hsent fun _ hdb => updateClaimed_objects (Outcome.ofOption_eq hdb)

theorem beginJob_stale {job : Job} {row : StoredObject} (hs : s.Sound)
    (hrow : row ∈ s.db.objects) (hid : row.id = job.operation.objectId)
    (hstale : row.revision ≠ job.operation.objectRevision)
    (h : beginJob config s job = some s') : s'.db.objects = s.db.objects := by
  obtain ⟨o, ho, h⟩ := Option.bind_eq_some_iff.mp h
  obtain ⟨hmem, hoid⟩ := object_mem ho
  have hrevision : o.revision ≠ job.operation.objectRevision := by
    rw [hs.tables.eq_of_id hmem hrow (hoid.trans hid.symm)]
    exact hstale
  split at h
  · split at h <;> cases h
    · rw [reconcileUpload, if_pos hrevision]
      exact settle_updateClaimed rfl
    · rw [beginDeleteUpload, if_pos hrevision]
      exact settle_updateClaimed rfl
    · rw [beginDelete, if_pos hrevision]
      exact settle_updateClaimed rfl
  · cases h

theorem finishDelete_stale {db db' : Database} {now : Time} {op : ObjectOperation}
    {o row : StoredObject} (hs : db.Sound) (hrow : row ∈ db.objects) (hid : row.id = o.id)
    (hstale : row.revision ≠ o.revision) (h : finishDelete db now op o = .commit db') :
    db'.objects = db.objects := by
  unfold finishDelete at h
  split at h
  · split at h
    · -- the row is not at the revision that was loaded
      rename_i hany
      obtain ⟨row', hrow', hp⟩ := List.any_eq_true.mp hany
      simp only [Bool.and_eq_true, decide_eq_true_eq] at hp
      rw [hs.eq_of_id hrow' hrow (hp.1.1.trans hid.symm)] at hp
      exact absurd hp.1.2 hstale
    · cases h
  · exact updateClaimed_objects (Outcome.ofOption_eq h)

theorem resumeJob_stale {job : Job} {row : StoredObject} (hs : s.Sound) (hloaded : JobsLoaded s)
    (hjob : job ∈ s.jobs) (hrow : row ∈ s.db.objects) (hid : row.id = job.operation.objectId)
    (hstale : row.revision ≠ job.operation.objectRevision)
    (h : resumeJob config s job = some s') : s'.db.objects = s.db.objects := by
  unfold resumeJob at h
  split at h
  · cases h
  · cases h
  · split at h
    · cases h
      unfold afterDeleteUpload
      dsimp only
      split
      · exact settle_updateClaimed rfl
      · rfl
    · cases h
  · split at h <;> cases h <;> rfl
  · cases h
    refine settle_objects rfl fun db hdb => ?_
    unfold finishDeleteUpload at hdb
    split at hdb
    · cases hdb
    · rename_i completed hcompleted
      cases hdb
      have hobjects : completed.objects = s.db.objects := updateClaimed_objects hcompleted
      exact hobjects
  · rename_i request o hphase
    obtain ⟨hoid, hrevision, -⟩ := hloaded job hjob o (by rw [hphase]; rfl)
    split at h
    · cases h
      exact settle_objects rfl fun db hdb => finishDelete_stale hs.tables hrow
        (hid.trans hoid.symm) (by rwa [hrevision]) hdb
    · cases h

/-- **An operation of another revision has no effect on the objects.** -/
theorem stale_execution (hs : s.Sound) (hloaded : JobsLoaded s)
    (h : step config label s = some s') {id : ℕ} (hlabel : label.job = some id) {job : Job}
    (hjob : s.job id = some job) {row : StoredObject} (hrow : row ∈ s.db.objects)
    (hid : row.id = job.operation.objectId)
    (hstale : row.revision ≠ job.operation.objectRevision) : s'.db.objects = s.db.objects := by
  cases label <;> cases hlabel
  case beginJob =>
    rw [step, hjob] at h
    exact beginJob_stale hs hrow hid hstale h
  case resumeJob =>
    rw [step, hjob] at h
    exact resumeJob_stale hs hloaded (job_mem hjob) hrow hid hstale h
  case breakJob =>
    rw [step, hjob] at h
    cases h
    rfl
  case retryJob =>
    rw [step, hjob] at h
    have h : retryJob config s job = some s' := h
    unfold retryJob at h
    split at h
    · cases h
      exact scheduleRetry_objects
    · cases h
  case dropJob =>
    cases h
    rfl

/-! ## Who is deleted -/

/-- Whoever empties a final key: its object is lost. -/
def DeletesLost (s : System) : Prop :=
  ∀ r ∈ s.requests, r.action = .deleteFinal →
    ∃ o ∈ s.db.objects, o.id = r.objectId ∧ o.status.Lost

theorem deletesLost_step (h : step config label s = some s') (hs : s.Sound)
    (hlost : DeletesLost s) : DeletesLost s' := by
  have hrows := (step_changes h hs).rows hs.tables
  intro r' hr' haction
  have hkeep {objectId : Uuid} (ho : ∃ o ∈ s.db.objects, o.id = objectId ∧ o.status.Lost) :
      ∃ o ∈ s'.db.objects, o.id = objectId ∧ o.status.Lost := by
    obtain ⟨o, ho, hid, hstatus⟩ := ho
    obtain ⟨o', ho', hb⟩ := hrows.persist o ho
    exact ⟨o', ho', hb.id.trans hid, hb.lost hstatus⟩
  cases (step_frame h hs.tables).requests r' hr' with
  | same mem => exact hkeep (hlost r' mem haction)
  | failed r mem _ eq | served r mem _ _ _ eq =>
      rw [eq] at haction ⊢
      exact hkeep (hlost r mem haction)
  | read r body mem _ _ _ eq =>
      rw [eq] at haction
      cases haction
  | new id fresh unanswered sent =>
      rw [NewRequest, haction] at sent
      exact hkeep sent

theorem deletesLost_reach {guard : System → Label → Prop}
    (h : Reach (step config) guard Initial s) : DeletesLost s := by
  refine h.invariant_with (fun _ => reach_sound) (fun s hs r hr => ?_)
    fun s l s' hs hlost _ hstep => deletesLost_step hstep hs hlost
  obtain ⟨-, -, -, -, -, -, hrequests, -⟩ := hs
  rw [hrequests] at hr
  exact absurd hr List.not_mem_nil

/-- **No step empties the final key of a ready object.** -/
theorem ready_body (h : step config label s = some s') (hs : s.Sound) (hlost : DeletesLost s)
    {o : StoredObject} (ho : o ∈ s.db.objects) (hstatus : o.status = .ready)
    (hbody : s.final o.id ≠ none) : s'.final o.id ≠ none := by
  rcases (step_frame h hs.tables).final o.id with heq |
    ⟨r, hr, -, hid, -, ⟨haction, -⟩ | ⟨body, -, heq⟩⟩
  · rwa [heq]
  · obtain ⟨row, hrow, hrid, hrlost⟩ := hlost r hr haction
    rw [hs.tables.eq_of_id hrow ho (hrid.trans hid), hstatus] at hrlost
    rcases hrlost with hl | hl | hl <;> cases hl
  · rw [heq]
    exact Option.some_ne_none body

/-- **The life of an object.**  Every object began as pending and follows the
edges along every run, so that its revision has risen whenever its status has
changed; an execution of an operation of an older revision leaves the objects as
they are; and no step empties the final key of a ready object. -/
theorem object_lifecycle (hr : Reach (step config) anyStep Initial s) :
    (∀ o ∈ s.db.objects, ReflTransGen Edge (.pending, 1) (o.status, o.revision)) ∧
    (∀ s', Leads (step config) anyStep s s' → ∀ o ∈ s.db.objects, ∃ o' ∈ s'.db.objects,
      o'.id = o.id ∧ ReflTransGen Edge (o.status, o.revision) (o'.status, o'.revision) ∧
        (o'.status ≠ o.status → o.revision < o'.revision)) ∧
    (∀ label s', step config label s = some s' → ∀ id job row, label.job = some id →
      s.job id = some job → row ∈ s.db.objects → row.id = job.operation.objectId →
      job.operation.objectRevision < row.revision → s'.db.objects = s.db.objects) ∧
    ∀ label s', step config label s = some s' → ∀ o ∈ s.db.objects, o.status = .ready →
      s.final o.id ≠ none → s'.final o.id ≠ none := by
  have hs := reach_sound hr
  refine ⟨objects_begun hr, fun s' hlead o ho => ?_,
    fun label s' h id job row hlabel hjob hrow hid hstale => ?_, fun label s' h o ho hstatus => ?_⟩
  · obtain ⟨o', ho', hb⟩ := objects_lead hr hlead o ho
    refine ⟨o', ho', hb.id, hb.path, fun hne => ?_⟩
    rcases path_revision hb.path with heq | hlt
    · exact absurd (congrArg Prod.fst heq).symm hne
    · exact hlt
  · exact stale_execution hs (jobsLoaded_reach hr) h hlabel hjob hrow hid (Int.ne_of_gt hstale)
  · exact ready_body h hs (deletesLost_reach hr) ho hstatus

/-! ## A submission -/

/-- The settings of the installation, with one attempt for each operation. -/
def oneAttempt : Config where
  maxUploadBytes := 536870912
  maxPendingObjects := 8
  maxPendingBytes := 1073741824
  maxRetainedBytes := 10737418240
  maxUploadsPerHour := 60
  presignTtl := seconds 900
  maxAttempts := 1
  maxUploadDuration := seconds 900
  staleClaimAfter := seconds 300
  maintenanceInterval := seconds 30

/-- A storage with two categories and nothing in it. -/
def unused : System where
  now := 0
  db := ⟨[], [], [⟨1, none⟩, ⟨2, none⟩], 0⟩
  staging := fun _ => none
  final := fun _ => none
  requests := []
  calls := []
  jobs := []
  desired := []
  nextId := 0

theorem unused_initial : Initial unused := by
  refine ⟨rfl, rfl, ?_, by simp [unused], fun _ => rfl, fun _ => rfl, rfl, rfl, rfl, rfl⟩
  intro c hc c' hc' id hid hid'
  simp only [unused, List.mem_cons, List.not_mem_nil, or_false] at hc hc'
  rcases hc with rfl | rfl <;> rcases hc' with rfl | rfl <;> simp_all

/-- The user 7 submits ten bytes to the challenge 1. -/
def submission (objectId : Uuid) (idempotencyKey : String) (requestedAt : Time) :
    UploadRequest where
  objectId
  userId := 7
  isAdmin := false
  teamMode := false
  teamId := none
  purpose := .submission
  target := { challengeId := some 1 }
  filename := "a"
  contentType := "text/plain"
  checksum := "00"
  size := 10
  idempotencyKey
  requestedAt

/-- The bytes of a submission. -/
def tenBytes : Body := ⟨10, "text/plain"⟩

/-- A submission is uploaded and completed. -/
def completedSubmission : List Label :=
  [.initiate (submission 1 "k" 0), .startPut 1 tenBytes, .serve 0, .startCall 1 true,
    .beginCall 1 true, .serve 2, .serve 2, .checkCall 1 true, .commitCall 1]

theorem object_lifecycle_completed : ∃ s, run (step oneAttempt) completedSubmission unused = some s ∧
    ∀ label s', step oneAttempt label s = some s' → s'.final 1 ≠ none := by
  have hrun : (run (step oneAttempt) completedSubmission unused).any (fun s =>
      (s.final 1).isSome && s.db.objects.any fun o => o.id = 1 && o.status = .ready) = true := by
    decide +kernel
  obtain ⟨s, hs, hready⟩ := (Option.any_eq_true _ _).mp hrun
  rw [Bool.and_eq_true] at hready
  obtain ⟨hbody, hany⟩ := hready
  obtain ⟨o, ho, hstatus⟩ := List.any_eq_true.mp hany
  simp only [Bool.and_eq_true, decide_eq_true_eq] at hstatus
  obtain ⟨-, -, -, hkeeps⟩ := object_lifecycle (reach_of_run completedSubmission unused_initial hs)
  refine ⟨s, hs, fun label s' hstep => ?_⟩
  rw [← hstatus.1] at hbody ⊢
  exact hkeeps label s' hstep o ho hstatus.2 (Option.isSome_iff_ne_none.mp hbody)

end CtfZone.Storage
