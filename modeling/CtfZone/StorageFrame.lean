/-
# What one step of the storage does

A step changes the tables as its transaction does, and everything else a little:
one request comes into being or goes on, one operation goes on, one key of the
object store is written.  Every invariant of the storage is read off these facts.

* `step_changes` : the tables, with the grounds a step has for what it completes,
  finishes and gives up;
* `step_frame` : requests, operations, keys and what the scans have found.
-/
import CtfZone.StorageTransactions

namespace CtfZone.Storage

open Tables Relation

variable {config : Config} {label : Label} {s s' : System}

/-! ## Requests -/

/-- What a new request was sent for. -/
def NewRequest (s : System) (r : Request) : Prop :=
  match r.action with
  | .put startedAt _ => startedAt = s.now ∧ ∃ o ∈ s.db.objects, o.id = r.objectId ∧
      s.now ≤ o.uploadExpiresAt
  | .copy source => source = none ∧ ∃ o ∈ s.db.objects, o.id = r.objectId ∧ o.status = .pending
  | .deleteUpload => True
  | .deleteFinal => ∃ o ∈ s.db.objects, o.id = r.objectId ∧ o.status.Lost

/-- Where a request comes from. -/
inductive RequestOrigin (label : Label) (s s' : System) (r' : Request) : Prop
  | same (mem : r' ∈ s.requests)
  | failed (r : Request) (mem : r ∈ s.requests) (unanswered : r.answer = none)
    (eq : r' = { r with answer := some false })
  | served (r : Request) (mem : r ∈ s.requests) (unanswered : r.answer = none)
    (now : label = .serve r.id ∧ s.openRequest r.id = some r)
    (emptied : r.action = .deleteFinal → s'.final r.objectId = none)
    (eq : r' = { r with answer := some true })
  | read (r : Request) (body : Body) (mem : r ∈ s.requests) (unanswered : r.answer = none)
    (unread : r.action = .copy none) (staged : s.staging r.objectId = some body)
    (eq : r' = { r with action := .copy (some body) })
  | new (id : r'.id = s.nextId) (fresh : s.nextId < s'.nextId) (unanswered : r'.answer = none)
    (sent : NewRequest s r')

/-- What is under a staging key after a step. -/
def StagingOrigin (config : Config) (s s' : System) (objectId : Uuid) : Prop :=
  s'.staging objectId = s.staging objectId ∨ s'.staging objectId = none ∨
    ∃ r ∈ s.requests, r.answer = none ∧ r.objectId = objectId ∧
      ∃ startedAt body, r.action = .put startedAt body ∧
        s.now ≤ startedAt + config.maxUploadDuration

/-- What is under a final key after a step. -/
def FinalOrigin (label : Label) (s s' : System) (objectId : Uuid) : Prop :=
  s'.final objectId = s.final objectId ∨
    ∃ r ∈ s.requests, r.answer = none ∧ r.objectId = objectId ∧
      (label = .serve r.id ∧ s.openRequest r.id = some r) ∧
      (r.action = .deleteFinal ∧ s'.final objectId = none ∨
        ∃ body, r.action = .copy (some body) ∧ s'.final objectId = some body)

theorem openRequest_mem {id : ℕ} {r : Request} (h : s.openRequest id = some r) :
    r ∈ s.requests ∧ r.id = id ∧ r.answer = none := by
  have hp := List.find?_some (p := fun r : Request => decide (r.id = id) && r.answer.isNone) h
  simp only [Bool.and_eq_true, decide_eq_true_eq, Option.isNone_iff_eq_none] at hp
  exact ⟨List.mem_of_find?_eq_some h, hp.1, hp.2⟩

/-- The requests after one of them has gone on. -/
theorem mem_setRequest {r r' : Request} (h : r' ∈ (s.setRequest r).requests) :
    r' = r ∨ r' ∈ s.requests := by
  obtain ⟨r₀, hr₀, ⟨-, rfl⟩ | ⟨-, rfl⟩⟩ := mem_update.mp h
  · exact .inl rfl
  · exact .inr hr₀

theorem setBody_cases (bodies : Uuid → Option Body) (objectId id : Uuid) (body : Option Body) :
    setBody bodies objectId body id = bodies id ∨
      objectId = id ∧ setBody bodies objectId body id = body := by
  unfold setBody
  split
  · rename_i h
    exact .inr ⟨h.symm, rfl⟩
  · exact .inl rfl

/-! ## Operations -/

/-- Where the execution of an operation comes from. -/
inductive JobOrigin (config : Config) (s s' : System) (job' : Job) : Prop
  | same (mem : job' ∈ s.jobs)
  | retry (job : Job) (mem : job ∈ s.jobs) (eq : job' = { job with phase := .retrying })
  | new (claimed : job'.phase = .claimed) (matched : Matches s'.db job'.operation)
  | deletingUpload (job : Job) (o : StoredObject) (mem : job ∈ s.jobs)
    (kind : job.operation.kind = .deleteUpload) (row : s.db.object job.operation.objectId = some o)
    (revision : o.revision = job.operation.objectRevision) (status : o.status ≠ .pending)
    (eq : job' = { job with phase := .deletingUpload s.nextId o })
  | deletingFinal (job : Job) (o : StoredObject) (mem : job ∈ s.jobs)
    (kind : job.operation.kind = .delete) (row : s.db.object job.operation.objectId = some o)
    (revision : o.revision = job.operation.objectRevision)
    (status : o.status = .failed ∨
      o.status = .deleting ∧ stagingCleanupRetryAt config s.db s.now job.operation = none)
    (sent : s'.requests = s.requests ++ [⟨s.nextId, o.id, .deleteFinal, none⟩])
    (eq : job' = { job with phase := .deletingFinal s.nextId o })
  | uploadDeleted (job : Job) (request : ℕ) (o : StoredObject) (mem : job ∈ s.jobs)
    (phase : job.phase = .deletingUpload request o)
    (terminal : terminalStagingCleanupAt config o.uploadExpiresAt ≤ s.now)
    (eq : job' = { job with phase := .uploadDeleted o })
  | uploadAbsent (job : Job) (o : StoredObject) (mem : job ∈ s.jobs)
    (phase : job.phase = .uploadDeleted o) (absent : s.staging o.id = none)
    (eq : job' = { job with phase := .uploadAbsent o })

theorem job_mem {id : ℕ} {job : Job} (h : s.job id = some job) : job ∈ s.jobs :=
  List.mem_of_find?_eq_some h

/-- The operations after one of them has gone on. -/
theorem mem_setJob {job job' : Job} (h : job' ∈ (s.setJob job).jobs) :
    job' = job ∨ job' ∈ s.jobs := by
  obtain ⟨job₀, hjob₀, ⟨-, rfl⟩ | ⟨-, rfl⟩⟩ := mem_update.mp h
  · exact .inl rfl
  · exact .inr hjob₀

/-! ## The frame of a step -/

/-- What a step leaves of everything but the tables and the completions. -/
structure Frame (config : Config) (label : Label) (s s' : System) : Prop where
  now : s.now ≤ s'.now
  nextId : s.nextId ≤ s'.nextId
  requests : ∀ r ∈ s'.requests, RequestOrigin label s s' r
  jobs : ∀ job ∈ s'.jobs, JobOrigin config s s' job
  staging : ∀ id, StagingOrigin config s s' id
  final : ∀ id, FinalOrigin label s s' id
  desired : ∀ d ∈ s'.desired, d ∈ s.desired ∨ d ∈ desiredOperations config s.db s.now

/-- A step that leaves the requests, the operations and the keys. -/
theorem Frame.still (hnow : s.now ≤ s'.now) (hnext : s.nextId ≤ s'.nextId)
    (hrequests : s'.requests = s.requests) (hjobs : s'.jobs = s.jobs)
    (hstaging : s'.staging = s.staging) (hfinal : s'.final = s.final)
    (hdesired : s'.desired = s.desired) : Frame config label s s' where
  now := hnow
  nextId := hnext
  requests := fun _ hr => .same (hrequests ▸ hr)
  jobs := fun _ hjob => .same (hjobs ▸ hjob)
  staging := fun id => .inl (congrFun hstaging id)
  final := fun id => .inl (congrFun hfinal id)
  desired := fun _ hd => .inl (hdesired ▸ hd)

theorem Frame.commit {db : Option Database} (h : s.commit db = some s') :
    Frame config label s s' := by
  obtain ⟨after, -, rfl⟩ := Option.map_eq_some_iff.mp h
  exact .still (Int.le_refl s.now) (Nat.le_refl s.nextId) rfl rfl rfl rfl rfl

/-- A step that moves one execution on, or ends it. -/
theorem Frame.job (hnow : s'.now = s.now) (hnext : s.nextId ≤ s'.nextId)
    (hrequests : s'.requests = s.requests) (hjobs : ∀ job ∈ s'.jobs, JobOrigin config s s' job)
    (hstaging : s'.staging = s.staging) (hfinal : s'.final = s.final)
    (hdesired : s'.desired = s.desired) : Frame config label s s' where
  now := Int.le_of_eq hnow.symm
  nextId := hnext
  requests := fun _ hr => .same (hrequests ▸ hr)
  jobs := hjobs
  staging := fun id => .inl (congrFun hstaging id)
  final := fun id => .inl (congrFun hfinal id)
  desired := fun _ hd => .inl (hdesired ▸ hd)

/-- A request is sent, and nothing else happens to the store. -/
theorem Frame.send (objectId : Uuid) (action : Action)
    (hnew : NewRequest s ⟨s.nextId, objectId, action, none⟩) (hnow : s'.now = s.now)
    (hnext : s'.nextId = s.nextId + 1)
    (hrequests : s'.requests = s.requests ++ [⟨s.nextId, objectId, action, none⟩])
    (hjobs : ∀ job ∈ s'.jobs, JobOrigin config s s' job)
    (hstaging : s'.staging = s.staging) (hfinal : s'.final = s.final)
    (hdesired : s'.desired = s.desired) : Frame config label s s' where
  now := Int.le_of_eq hnow.symm
  nextId := by omega
  requests := by
    intro r hr
    rw [hrequests] at hr
    rcases List.mem_append.mp hr with hr | hr
    · exact .same hr
    · rw [List.mem_singleton.mp hr]
      exact .new rfl (by omega) rfl hnew
  jobs := hjobs
  staging := fun id => .inl (congrFun hstaging id)
  final := fun id => .inl (congrFun hfinal id)
  desired := fun _ hd => .inl (hdesired ▸ hd)

/-! ## The object store -/

/-- A request takes effect. -/
theorem Frame.serve {id : ℕ} {r : Request} (hr : s.openRequest id = some r)
    (h : serve config s r = some s') : Frame config (.serve id) s s' := by
  obtain ⟨hmem, rfl, hopen⟩ := openRequest_mem hr
  have horigin {s₁ : System} {r₁ : Request} (h₁ : s₁.requests = (s.setRequest r₁).requests)
      (hr₁ : RequestOrigin (.serve r.id) s s₁ r₁) :
      ∀ r' ∈ s₁.requests, RequestOrigin (.serve r.id) s s₁ r' := by
    intro r' hr'
    rw [h₁] at hr'
    rcases mem_setRequest hr' with rfl | hr'
    · exact hr₁
    · exact .same hr'
  unfold Storage.serve at h
  split at h
  · rename_i startedAt body haction
    split at h
    · rename_i hlasts
      cases h
      refine ⟨Int.le_refl _, Nat.le_refl _, horigin rfl (.served r hmem hopen ⟨rfl, hr⟩ ?_ rfl),
        fun _ hjob => .same hjob, fun id => ?_, fun _ => .inl rfl, fun _ hd => .inl hd⟩
      · rw [haction]
        intro hne
        cases hne
      · rcases setBody_cases s.staging r.objectId id (some body) with heq | ⟨hid, -⟩
        · exact .inl heq
        · exact .inr (.inr ⟨r, hmem, hopen, hid, startedAt, body, haction, hlasts⟩)
    · cases h
  · rename_i haction
    split at h
    · rename_i body hbody
      cases h
      exact ⟨Int.le_refl _, Nat.le_refl _, horigin rfl (.read r body hmem hopen haction hbody rfl),
        fun _ hjob => .same hjob, fun _ => .inl rfl, fun _ => .inl rfl, fun _ hd => .inl hd⟩
    · cases h
      exact ⟨Int.le_refl _, Nat.le_refl _, horigin rfl (.failed r hmem hopen rfl),
        fun _ hjob => .same hjob, fun _ => .inl rfl, fun _ => .inl rfl, fun _ hd => .inl hd⟩
  · rename_i body haction
    cases h
    refine ⟨Int.le_refl _, Nat.le_refl _, horigin rfl (.served r hmem hopen ⟨rfl, hr⟩ ?_ rfl),
      fun _ hjob => .same hjob, fun _ => .inl rfl, fun id => ?_, fun _ hd => .inl hd⟩
    · rw [haction]
      intro hne
      cases hne
    · rcases setBody_cases s.final r.objectId id (some body) with heq | ⟨hid, heq⟩
      · exact .inl heq
      · exact .inr ⟨r, hmem, hopen, hid, ⟨rfl, hr⟩, .inr ⟨body, haction, heq⟩⟩
  · rename_i haction
    cases h
    refine ⟨Int.le_refl _, Nat.le_refl _, horigin rfl (.served r hmem hopen ⟨rfl, hr⟩ ?_ rfl),
      fun _ hjob => .same hjob, fun id => ?_, fun _ => .inl rfl, fun _ hd => .inl hd⟩
    · rw [haction]
      intro hne
      cases hne
    · rcases setBody_cases s.staging r.objectId id none with heq | ⟨-, heq⟩
      · exact .inl heq
      · exact .inr (.inl heq)
  · rename_i haction
    cases h
    refine ⟨Int.le_refl _, Nat.le_refl _, horigin rfl (.served r hmem hopen ⟨rfl, hr⟩ ?_ rfl),
      fun _ hjob => .same hjob, fun _ => .inl rfl, fun id => ?_, fun _ hd => .inl hd⟩
    · intro _
      simp [setBody]
    · rcases setBody_cases s.final r.objectId id none with heq | ⟨hid, heq⟩
      · exact .inl heq
      · exact .inr ⟨r, hmem, hopen, hid, ⟨rfl, hr⟩, .inl ⟨haction, heq⟩⟩

theorem Frame.reject {id : ℕ} {r : Request} (hr : s.openRequest id = some r) :
    Frame config label s (s.setRequest { r with answer := some false }) := by
  obtain ⟨hmem, -, hopen⟩ := openRequest_mem hr
  refine ⟨Int.le_refl _, Nat.le_refl _, fun r' hr' => ?_, fun _ hjob => .same hjob,
    fun _ => .inl rfl, fun _ => .inl rfl, fun _ hd => .inl hd⟩
  rcases mem_setRequest hr' with rfl | hr'
  · exact .failed r hmem hopen rfl
  · exact .same hr'

/-! ## Completions -/

theorem beginComplete_continuing {db : Database} {now : Time} {loaded current : StoredObject}
    {target : Bool} (h : beginComplete db now loaded current target = .continuing) :
    current.status = .pending ∧ (current.purpose = .categoryIcon →
      attachedIcon db current.target.categoryId = current.expectedIcon) := by
  unfold beginComplete at h
  extract_lets targetExists at h
  split at h
  · cases h
  split at h
  · cases h
  rename_i hpending
  split at h
  · cases h
  refine ⟨not_not.mp hpending, fun hicon => ?_⟩
  rw [if_pos hicon] at h
  split at h
  · cases h
  split at h
  · cases h
  · rename_i hattached
    exact not_not.mp hattached

theorem Frame.beginCall {call : Call} {target : Bool} (h : beginCall s call target = some s') :
    Frame config label s s' := by
  obtain ⟨current, hcurrent, h⟩ := Option.bind_eq_some_iff.mp h
  obtain ⟨hmem, -⟩ := object_mem hcurrent
  split at h
  · split at h
    · cases h
      exact .still (Int.le_refl _) (Nat.le_refl _) rfl rfl rfl rfl rfl
    · cases h
      exact .still (Int.le_refl _) (Nat.le_refl _) rfl rfl rfl rfl rfl
    · rename_i hcontinuing
      cases h
      exact .send current.id (.copy none) ⟨rfl, current, hmem, rfl, (beginComplete_continuing hcontinuing).1⟩ rfl rfl rfl
        (fun _ hjob => .same hjob) rfl rfl rfl
  · cases h

/-- Looking at the copy changes nothing but the completion. -/
theorem checkCall_eq {call : Call} {valid : Bool} (h : checkCall s call valid = some s') :
    ∃ calls, s' = { s with calls } := by
  unfold checkCall at h
  split at h
  · split at h
    · dsimp only at h
      split at h
      · cases h
        exact ⟨_, rfl⟩
      · cases h
        exact ⟨_, rfl⟩
      · obtain ⟨body, -, rfl⟩ := Option.map_eq_some_iff.mp h
        exact ⟨_, rfl⟩
    · cases h
  · cases h

/-! ## Operations -/

theorem Frame.setJob {job : Job} (h : ∀ s' : System, JobOrigin config s s' job) :
    Frame config label s (s.setJob job) := by
  refine .job rfl (Nat.le_refl _) rfl (fun job' hjob' => ?_) rfl rfl rfl
  rcases mem_setJob hjob' with rfl | hjob'
  · exact h _
  · exact .same hjob'

theorem Frame.settle {job : Job} {outcome : Outcome} {sent : System} (hjob : job ∈ s.jobs)
    (hsent : outcome = .send → Frame config label s sent) :
    Frame config label s (settle s job outcome sent) := by
  cases outcome with
  | commit db =>
      exact .job rfl (Nat.le_refl _) rfl (fun _ h => .same (List.mem_of_mem_filter h)) rfl rfl rfl
  | send => exact hsent rfl
  | retry => exact .setJob fun _ => .retry job hjob rfl

/-- A transaction that has nothing to send. -/
theorem Frame.settle_ofOption {job : Job} {after : Option Database} (hjob : job ∈ s.jobs) :
    Frame config label s (Storage.settle s job (.ofOption after) s) :=
  .settle hjob fun h => by cases after <;> cases h

theorem beginDeleteUpload_send {db : Database} {now : Time} {op : ObjectOperation}
    {o : StoredObject} (h : beginDeleteUpload db now op o = .send) :
    o.revision = op.objectRevision ∧ o.status ≠ .pending := by
  unfold beginDeleteUpload at h
  split at h
  · cases hdb : cancelOperation db now op <;> rw [hdb] at h <;> cases h
  · rename_i hrevision
    split at h
    · cases hdb : cancelOperation db now op <;> rw [hdb] at h <;> cases h
    · rename_i hpending
      exact ⟨not_not.mp hrevision, hpending⟩

theorem Outcome.ofOption_ne_send (after : Option Database) : Outcome.ofOption after ≠ .send := by
  cases after <;> exact fun h => by cases h

theorem beginDelete_send {db : Database} {now : Time} {op : ObjectOperation} {o : StoredObject}
    (h : beginDelete config db now op o = .send) : o.revision = op.objectRevision ∧
      (o.status = .failed ∨
        o.status = .deleting ∧ stagingCleanupRetryAt config db now op = none) := by
  unfold beginDelete at h
  split at h
  · exact absurd h (Outcome.ofOption_ne_send _)
  · rename_i hrevision
    refine ⟨not_not.mp hrevision, ?_⟩
    split at h
    · exact absurd h (Outcome.ofOption_ne_send _)
    · exact absurd h (Outcome.ofOption_ne_send _)
    · exact absurd h (Outcome.ofOption_ne_send _)
    · rename_i hstatus
      exact .inl hstatus
    · rename_i hstatus
      split at h
      · exact absurd h (Outcome.ofOption_ne_send _)
      · rename_i hgate
        exact .inr ⟨hstatus, hgate⟩

theorem Frame.beginJob {job : Job} (hjob : job ∈ s.jobs) (h : beginJob config s job = some s') :
    Frame config label s s' := by
  obtain ⟨o, ho, h⟩ := Option.bind_eq_some_iff.mp h
  obtain ⟨hmem, hid⟩ := object_mem ho
  split at h
  · split at h
    · cases h
      refine .settle hjob fun hsend => ?_
      unfold reconcileUpload at hsend
      repeat' split at hsend
      all_goals first | exact absurd hsend (Outcome.ofOption_ne_send _) | cases hsend
    · rename_i hkind
      cases h
      refine .settle hjob fun hsend => ?_
      obtain ⟨hrevision, hstatus⟩ := beginDeleteUpload_send hsend
      refine .send o.id .deleteUpload trivial rfl rfl rfl
        (fun job' hjob' => ?_) rfl rfl rfl
      rcases mem_setJob hjob' with rfl | hjob'
      · exact .deletingUpload job o hjob hkind ho hrevision hstatus rfl
      · exact .same hjob'
    · rename_i hkind
      cases h
      refine .settle hjob fun hsend => ?_
      obtain ⟨hrevision, hstatus⟩ := beginDelete_send hsend
      refine .send o.id .deleteFinal ⟨o, hmem, rfl, hstatus.imp id fun h => .inl h.1⟩ rfl rfl rfl (fun job' hjob' => ?_)
        rfl rfl rfl
      rcases mem_setJob hjob' with rfl | hjob'
      · exact .deletingFinal job o hjob hkind ho hrevision hstatus rfl rfl
      · exact .same hjob'
  · cases h

theorem Frame.resumeJob {job : Job} (hjob : job ∈ s.jobs) (h : resumeJob config s job = some s') :
    Frame config label s s' := by
  unfold Storage.resumeJob at h
  split at h
  · cases h
  · cases h
  · rename_i request o hphase
    split at h
    · cases h
      unfold afterDeleteUpload
      dsimp only
      split
      · exact .settle_ofOption hjob
      · rename_i hterminal
        exact .setJob fun _ => .uploadDeleted job request o hjob hphase (Int.not_lt.mp hterminal) rfl
    · cases h
  · rename_i o hphase
    split at h
    · rename_i habsent
      cases h
      exact .setJob fun _ => .uploadAbsent job o hjob hphase (Option.isNone_iff_eq_none.mp habsent)
        rfl
    · cases h
      exact .setJob fun _ => .retry job hjob rfl
  · cases h
    refine .settle hjob fun hsend => ?_
    unfold finishDeleteUpload at hsend
    split at hsend <;> cases hsend
  · split at h
    · cases h
      refine .settle hjob fun hsend => ?_
      unfold finishDelete at hsend
      repeat' split at hsend
      all_goals first | exact absurd hsend (Outcome.ofOption_ne_send _) | cases hsend
    · cases h

/-- What a grant does to the tables. -/
theorem step_initiate {request : UploadRequest} (h : step config (.initiate request) s = some s') :
    ∃ db, initiateUpload config s.db s.now request = .ok db ∧ s' = { s with db } := by
  unfold step at h
  dsimp only at h
  split at h
  · obtain ⟨db, hdb, rfl⟩ := Option.map_eq_some_iff.mp h
    cases hresult : initiateUpload config s.db s.now request with
    | error =>
        rw [hresult] at hdb
        cases hdb
    | ok after =>
        rw [hresult] at hdb
        cases hdb
        exact ⟨_, rfl, rfl⟩
  · cases h

/-! ## Steps -/

/-- **The frame of a step.** -/
theorem step_frame (h : step config label s = some s') (hs : s.db.Sound) :
    Frame config label s s' := by
  cases label with
  | tick d =>
      cases h
      exact .still (Int.le_add_of_nonneg_right (Int.natCast_nonneg d)) (Nat.le_refl _) rfl rfl rfl rfl rfl
  | initiate request =>
      unfold step at h
      dsimp only at h
      split at h
      · exact .commit h
      · cases h
  | startPut objectId body =>
      obtain ⟨o, ho, h⟩ := Option.bind_eq_some_iff.mp h
      obtain ⟨hmem, hid⟩ := object_mem ho
      split at h
      · rename_i hexpires
        cases h
        exact .send objectId (.put s.now body) ⟨rfl, o, hmem, hid, hexpires⟩ rfl rfl rfl (fun _ hjob => .same hjob) rfl rfl rfl
      · cases h
  | serve request =>
      obtain ⟨r, hr, h⟩ := Option.bind_eq_some_iff.mp h
      exact .serve hr h
  | reject request =>
      obtain ⟨r, hr, h⟩ := Option.bind_eq_some_iff.mp h
      cases h
      exact .reject hr
  | startCall objectId valid =>
      obtain ⟨o, -, h⟩ := Option.bind_eq_some_iff.mp h
      obtain ⟨phase, -, h⟩ := Option.bind_eq_some_iff.mp h
      cases h
      exact .still (Int.le_refl _) (Nat.le_succ _) rfl rfl rfl rfl rfl
  | beginCall id target =>
      obtain ⟨call, -, h⟩ := Option.bind_eq_some_iff.mp h
      exact .beginCall h
  | checkCall id valid =>
      obtain ⟨call, -, h⟩ := Option.bind_eq_some_iff.mp h
      obtain ⟨calls, rfl⟩ := checkCall_eq h
      exact .still (Int.le_refl _) (Nat.le_refl _) rfl rfl rfl rfl rfl
  | commitCall id =>
      obtain ⟨call, -, h⟩ := Option.bind_eq_some_iff.mp h
      unfold commitCall at h
      split at h
      · split at h
        · obtain ⟨db, -, rfl⟩ := Option.map_eq_some_iff.mp h
          exact .still (Int.le_refl _) (Nat.le_refl _) rfl rfl rfl rfl rfl
        · cases h
      · cases h
  | failCall id =>
      obtain ⟨call, -, h⟩ := Option.bind_eq_some_iff.mp h
      obtain ⟨current, -, h⟩ := Option.bind_eq_some_iff.mp h
      split at h
      · cases h
        exact .still (Int.le_refl _) (Nat.le_refl _) rfl rfl rfl rfl rfl
      · cases h
  | dropCall id =>
      cases h
      exact .still (Int.le_refl _) (Nat.le_refl _) rfl rfl rfl rfl rfl
  | delete objectId =>
      obtain ⟨current, -, h⟩ := Option.bind_eq_some_iff.mp h
      split at h
      · exact .commit h
      · cases h
  | removeIcon categoryId objectId =>
      unfold step at h
      dsimp only at h
      split at h
      · exact .commit h
      · cases h
  | assignIcon categoryId objectId =>
      unfold step at h
      dsimp only at h
      split at h
      · exact .commit h
      · cases h
  | deleteParent parent =>
      unfold step at h
      dsimp only at h
      split at h
      · exact .commit h
      · cases h
  | switchMode participant =>
      unfold step at h
      dsimp only at h
      split at h
      · exact .commit h
      · cases h
  | recover => exact .commit h
  | scan =>
      cases h
      exact ⟨Int.le_refl _, Nat.le_refl _, fun _ hr => .same hr, fun _ hjob => .same hjob,
        fun _ => .inl rfl, fun _ => .inl rfl, fun d hd => List.mem_append.mp hd⟩
  | enqueue d =>
      unfold step at h
      dsimp only at h
      split at h
      · cases h
        exact ⟨Int.le_refl _, Nat.le_refl _, fun _ hr => .same hr, fun _ hjob => .same hjob,
          fun _ => .inl rfl, fun _ => .inl rfl, fun d hd => .inl (List.mem_of_mem_erase hd)⟩
      · cases h
  | startJob operation worker =>
      obtain ⟨⟨claimed, db⟩, hclaim, rfl⟩ := Option.map_eq_some_iff.mp h
      refine .job rfl (Nat.le_succ _) rfl (fun job hjob => ?_) rfl rfl rfl
      rcases List.mem_append.mp hjob with hjob | hjob
      · exact .same hjob
      · rw [List.mem_singleton.mp hjob]
        exact .new rfl (.claimOperation hs hclaim)
  | beginJob id =>
      obtain ⟨job, hjob, h⟩ := Option.bind_eq_some_iff.mp h
      exact .beginJob (job_mem hjob) h
  | resumeJob id =>
      obtain ⟨job, hjob, h⟩ := Option.bind_eq_some_iff.mp h
      exact .resumeJob (job_mem hjob) h
  | breakJob id =>
      obtain ⟨job, hjob, h⟩ := Option.bind_eq_some_iff.mp h
      cases h
      exact .setJob fun _ => .retry job (job_mem hjob) rfl
  | retryJob id =>
      obtain ⟨job, hjob, h⟩ := Option.bind_eq_some_iff.mp h
      unfold retryJob at h
      split at h
      · cases h
        exact .job rfl (Nat.le_refl _) rfl (fun _ hjob => .same (List.mem_of_mem_filter hjob))
          rfl rfl rfl
      · cases h
  | dropJob id =>
      cases h
      exact .job rfl (Nat.le_refl _) rfl (fun _ hjob => .same (List.mem_of_mem_filter hjob))
        rfl rfl rfl

/-! ## The tables of a step -/

/-- The operation that a step gives up: it is retried with no attempt left. -/
def System.givesUp (config : Config) (label : Label) (s : System) : Option ObjectOperation :=
  match label with
  | .retryJob id => (s.job id).bind fun job =>
    if job.phase = .retrying ∧ config.maxAttempts ≤ job.operation.attempts ∧
        s.db.operations.any job.operation.holds then some job.operation
    else none
  | _ => none

/-- An operation may be completed from where its execution is. -/
def Job.mayComplete (s : System) (job : Job) : Prop :=
  match job.phase with
  | .claimed => job.operation.kind = .reconcile ∨
      job.operation.kind = .delete ∧
        ∃ o ∈ s.db.objects, o.id = job.operation.objectId ∧ o.status = .deleted
  | .uploadAbsent _ => True
  | .deletingFinal request _ => s.answered request = true
  | .retrying | .deletingUpload _ _ | .uploadDeleted _ => False

/-- The grounds of a step for what it does. -/
def System.grounds (config : Config) (label : Label) (s : System) : Grounds where
  completes op := ∃ job ∈ s.jobs, job.operation = op ∧ job.mayComplete s
  finishes o := ∃ job ∈ s.jobs, ∃ request, job.phase = .deletingFinal request o ∧
    s.answered request = true ∧ o.status = .deleting
  givesUp db op := db = s.db ∧ s.givesUp config label = some op

/-- What every transaction of a run finds. -/
structure System.Sound (s : System) : Prop where
  tables : s.db.Sound
  jobs : ∀ job ∈ s.jobs, Matches s.db job.operation
  desired : ∀ d ∈ s.desired, ∃ o ∈ s.db.objects, o.id = d.objectId ∧
    (d.kind = .reconcile ∨ o.status ≠ .pending)
  requests : ∀ r ∈ s.requests, r.id < s.nextId

/-- How an outcome leaves the tables. -/
theorem settle_changes {grounds : Grounds} {job : Job} {outcome : Outcome} {sent : System}
    (hsent : sent.db = s.db)
    (h : ∀ db, outcome = .commit db → Changes grounds s.now s.db db) :
    Changes grounds s.now s.db (settle s job outcome sent).db := by
  cases outcome with
  | commit db => exact h db rfl
  | send =>
      show Changes grounds s.now s.db sent.db
      rw [hsent]
  | retry => exact .refl

theorem beginJob_changes {job : Job} (hs : s.Sound) (hjob : job ∈ s.jobs)
    (h : beginJob config s job = some s') :
    Changes (s.grounds config label) s.now s.db s'.db := by
  obtain ⟨o, ho, h⟩ := Option.bind_eq_some_iff.mp h
  obtain ⟨hmem, hid⟩ := object_mem ho
  have hm := hs.jobs job hjob
  split at h
  · rename_i hphase
    have hreason (hmay : job.operation.kind = .reconcile ∨ job.operation.kind = .delete ∧
        ∃ o ∈ s.db.objects, o.id = job.operation.objectId ∧ o.status = .deleted) :
        (s.grounds config label).completes job.operation :=
      ⟨job, hjob, rfl, by rw [Job.mayComplete, hphase.1]; exact hmay⟩
    split at h
    · rename_i hkind
      cases h
      exact settle_changes rfl fun db hdb =>
        .reconcileUpload hmem hid hm hkind (hreason (.inl hkind)) hdb
    · rename_i hkind
      cases h
      exact settle_changes rfl fun db hdb => .beginDeleteUpload hmem hid hm hkind hdb
    · rename_i hkind
      cases h
      exact settle_changes rfl fun db hdb => .beginDelete hmem hid hm hkind
        (fun hdeleted => hreason (.inr ⟨hkind, o, hmem, hid, hdeleted⟩)) hdb
  · cases h

theorem resumeJob_changes {job : Job} (hs : s.Sound) (hjob : job ∈ s.jobs)
    (h : resumeJob config s job = some s') :
    Changes (s.grounds config label) s.now s.db s'.db := by
  have hm := hs.jobs job hjob
  unfold resumeJob at h
  split at h
  · cases h
  · cases h
  · split at h
    · cases h
      unfold afterDeleteUpload
      dsimp only
      split
      · exact settle_changes rfl fun db hdb => .deferOperation hm (Outcome.ofOption_eq hdb)
      · exact .refl
    · cases h
  · split at h
    · cases h
      exact .refl
    · cases h
      exact .refl
  · rename_i o hphase
    cases h
    exact settle_changes rfl fun db hdb => .finishDeleteUpload hm
      ⟨job, hjob, rfl, by rw [Job.mayComplete, hphase]; trivial⟩ hdb
  · rename_i request o hphase
    split at h
    · rename_i hanswered
      cases h
      exact settle_changes rfl fun db hdb => .finishDelete hs.tables hm
        ⟨job, hjob, rfl, by rw [Job.mayComplete, hphase]; exact hanswered⟩
        (fun hdeleting => ⟨job, hjob, request, hphase, hanswered, hdeleting⟩) hdb
    · cases h

/-- What a scan finds missing belongs to an object that is there. -/
theorem desiredOperations_fits {db : Database} {now : Time} {d : Desired}
    (h : d ∈ desiredOperations config db now) : ∃ o ∈ db.objects, o.id = d.objectId ∧
      (d.kind = .reconcile ∨ o.status ≠ .pending) := by
  rcases List.mem_append.mp h with h | h
  · obtain ⟨o, ho, rfl⟩ := List.mem_map.mp (List.mem_of_mem_filter h)
    exact ⟨o, List.mem_of_mem_filter ho, rfl, .inl rfl⟩
  · rcases List.mem_append.mp (List.mem_of_mem_filter h) with h | h
    · obtain ⟨o, ho, rfl⟩ := List.mem_map.mp h
      obtain ⟨ho, hstatus⟩ := List.mem_filter.mp ho
      exact ⟨o, ho, rfl, .inr (of_decide_eq_true hstatus)⟩
    · obtain ⟨o, ho, rfl⟩ := List.mem_map.mp h
      obtain ⟨ho, hstatus⟩ := List.mem_filter.mp ho
      refine ⟨o, ho, rfl, .inr fun hpending => ?_⟩
      simp [hpending] at hstatus

/-- **The tables of a step**: its transaction is a sequence of changes. -/
theorem step_changes (h : step config label s = some s') (hs : s.Sound) :
    Changes (s.grounds config label) s.now s.db s'.db := by
  have hnodup := hs.tables.objects
  cases label with
  | tick | dropCall | scan | dropJob =>
      cases h
      exact .refl
  | initiate request =>
      unfold step at h
      dsimp only at h
      split at h
      · obtain ⟨db, hdb, rfl⟩ := Option.map_eq_some_iff.mp h
        cases hresult : initiateUpload config s.db s.now request with
        | error =>
            rw [hresult] at hdb
            cases hdb
        | ok =>
            rw [hresult] at hdb
            cases hdb
            exact .initiateUpload hresult
      · cases h
  | startPut objectId body =>
      obtain ⟨o, -, h⟩ := Option.bind_eq_some_iff.mp h
      split at h
      · cases h
        exact .refl
      · cases h
  | serve request =>
      obtain ⟨r, -, h⟩ := Option.bind_eq_some_iff.mp h
      unfold Storage.serve at h
      repeat' split at h
      all_goals cases h
      all_goals exact .refl
  | reject request =>
      obtain ⟨r, -, h⟩ := Option.bind_eq_some_iff.mp h
      cases h
      exact .refl
  | startCall objectId valid =>
      obtain ⟨o, -, h⟩ := Option.bind_eq_some_iff.mp h
      obtain ⟨phase, -, h⟩ := Option.bind_eq_some_iff.mp h
      cases h
      exact .refl
  | beginCall id target =>
      obtain ⟨call, -, h⟩ := Option.bind_eq_some_iff.mp h
      obtain ⟨current, -, h⟩ := Option.bind_eq_some_iff.mp h
      repeat' split at h
      all_goals cases h
      all_goals exact .refl
  | checkCall id valid =>
      obtain ⟨call, -, h⟩ := Option.bind_eq_some_iff.mp h
      obtain ⟨calls, rfl⟩ := checkCall_eq h
      exact .refl
  | commitCall id =>
      obtain ⟨call, -, h⟩ := Option.bind_eq_some_iff.mp h
      unfold commitCall at h
      split at h
      · split at h
        · obtain ⟨db, hdb, rfl⟩ := Option.map_eq_some_iff.mp h
          exact .commitComplete hs.tables hdb
        · cases h
      · cases h
  | failCall id =>
      obtain ⟨call, -, h⟩ := Option.bind_eq_some_iff.mp h
      obtain ⟨current, hcurrent, h⟩ := Option.bind_eq_some_iff.mp h
      split at h
      · cases h
        exact .failUpload (object_mem hcurrent).1
      · cases h
  | delete objectId =>
      obtain ⟨current, hcurrent, h⟩ := Option.bind_eq_some_iff.mp h
      split at h
      · obtain ⟨db, hdb, rfl⟩ := Option.map_eq_some_iff.mp h
        exact .scheduleDelete (object_mem hcurrent).1 hdb
      · cases h
  | removeIcon categoryId objectId =>
      unfold step at h
      dsimp only at h
      split at h
      · obtain ⟨db, hdb, rfl⟩ := Option.map_eq_some_iff.mp h
        exact .deleteCategoryIcon hnodup hdb
      · cases h
  | assignIcon categoryId objectId =>
      unfold step at h
      dsimp only at h
      split at h
      · obtain ⟨db, hdb, rfl⟩ := Option.map_eq_some_iff.mp h
        exact .assignIcon hdb
      · cases h
  | deleteParent parent =>
      unfold step at h
      dsimp only at h
      split at h
      · cases h
        exact .deleteParent hnodup parent
      · cases h
  | switchMode participant =>
      unfold step at h
      dsimp only at h
      split at h
      · cases h
        exact .retireWhere hnodup _
      · cases h
  | recover =>
      cases h
      exact .recoverStaleClaims
  | enqueue d =>
      unfold step at h
      dsimp only at h
      split at h
      · rename_i hd
        cases h
        exact .single (.enqueue _ _ _ _ (hs.desired d hd.1))
      · cases h
  | startJob operation worker =>
      obtain ⟨⟨claimed, db⟩, hclaim, rfl⟩ := Option.map_eq_some_iff.mp h
      exact .claimOperation hs.tables hclaim
  | beginJob id =>
      obtain ⟨job, hjob, h⟩ := Option.bind_eq_some_iff.mp h
      exact beginJob_changes hs (job_mem hjob) h
  | resumeJob id =>
      obtain ⟨job, hjob, h⟩ := Option.bind_eq_some_iff.mp h
      exact resumeJob_changes hs (job_mem hjob) h
  | breakJob id =>
      obtain ⟨job, -, h⟩ := Option.bind_eq_some_iff.mp h
      cases h
      exact .refl
  | retryJob id =>
      obtain ⟨job, hjob, h⟩ := Option.bind_eq_some_iff.mp h
      unfold retryJob at h
      split at h
      · rename_i hphase
        cases h
        refine .scheduleRetry (hs.jobs job (job_mem hjob)) fun hattempts hheld => ⟨rfl, ?_⟩
        simp [System.givesUp, hjob, hphase, hattempts, hheld]
      · cases h

/-! ## Runs -/

/-- **Every step keeps what the transactions find.** -/
theorem step_sound (h : step config label s = some s') (hs : s.Sound) : s'.Sound := by
  have hframe := step_frame h hs.tables
  have hchanges := step_changes h hs
  have hrows := hchanges.rows hs.tables
  refine ⟨hchanges.sound hs.tables, fun job' hjob' => ?_, fun d hd => ?_, fun r' hr' => ?_⟩
  · have hkeep {job : Job} (hjob : job ∈ s.jobs) (heq : job'.operation = job.operation) :
        Matches s'.db job'.operation := heq ▸ (hs.jobs job hjob).keep hchanges.ops
    cases hframe.jobs job' hjob' with
    | same mem => exact hkeep mem rfl
    | new claimed matched => exact matched
    | retry job mem eq | deletingUpload job _ mem _ _ _ _ eq | deletingFinal job _ mem _ _ _ _ _ eq
    | uploadDeleted job _ _ mem _ _ eq | uploadAbsent job _ mem _ _ eq =>
        exact hkeep mem (by rw [eq])
  · have hfits : ∃ o ∈ s.db.objects, o.id = d.objectId ∧ (d.kind = .reconcile ∨ o.status ≠ .pending) :=
      (hframe.desired d hd).elim (hs.desired d) desiredOperations_fits
    obtain ⟨o, ho, hid, hkind⟩ := hfits
    obtain ⟨o', ho', hbecomes⟩ := hrows.persist o ho
    exact ⟨o', ho', hbecomes.id.trans hid, hkind.imp id hbecomes.not_pending⟩
  · have hnext := hframe.nextId
    have hlt {r : Request} (hr : r ∈ s.requests) (hid : r'.id = r.id) : r'.id < s'.nextId := by
      have := hs.requests r hr
      omega
    cases hframe.requests r' hr' with
    | same mem => exact hlt mem rfl
    | new id fresh => omega
    | failed r mem _ eq | served r mem _ _ _ eq | read r _ mem _ _ _ eq => exact hlt mem (by rw [eq])

theorem sound_of_initial (h : Initial s) : s.Sound := by
  obtain ⟨hobjects, hoperations, -, -, -, -, hrequests, -, hjobs, hdesired⟩ := h
  refine ⟨⟨⟨?_, ?_, ?_, ?_, ?_⟩, ⟨?_, ?_⟩⟩, ?_, ?_, ?_⟩ <;>
    simp [hobjects, hoperations, hrequests, hjobs, hdesired, Unique.nil]

open Runs in
/-- What every transaction finds, in every state reached. -/
theorem reach_sound {guard : System → Label → Prop}
    (h : Reach (step config) guard Initial s) : s.Sound :=
  h.invariant (fun _ => sound_of_initial) fun _ _ _ hs _ hstep => step_sound hstep hs

end CtfZone.Storage
