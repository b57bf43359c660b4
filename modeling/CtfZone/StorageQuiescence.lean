/-
# Keys that stay empty

The staging key of an object is quiet once it is empty and the last upload that
could have been granted for it is over; the final key is quiet once it is empty and
no copy of the object can land any more.  Both stay so for ever.  The deletion of a
staging key waits until the key is quiet.  The deletion of a final key waits for
the staging key, but for no copy: a copy whose completion is gone may have read its
source and land after the deletion.

* `StagingQuiet`, `FinalQuiet` : kept by every step;
* `Quiescent` : what the operations have established when they complete;
* `staging_quiescence` : runs in which no copy lands between the deletion of a final
  key and the commit that follows it;
* `deleted_final_empty` : runs in which no copy is about to land when a final key is
  deleted.
-/
import CtfZone.StorageLifecycle

namespace CtfZone.Storage

open Tables Relation Runs

variable {config : Config} {label : Label} {s s' : System}

/-! ## Quiet keys -/

/-- The staging key of an object is empty and its uploads are over. -/
def StagingQuiet (config : Config) (s : System) (objectId : Uuid) : Prop :=
  s.staging objectId = none ∧ ∃ o ∈ s.db.objects, o.id = objectId ∧
    o.uploadExpiresAt + config.maxUploadDuration < s.now

instance (objectId : Uuid) : Decidable (StagingQuiet config s objectId) :=
  inferInstanceAs (Decidable (_ ∧ _))

/-- A request cannot bring a body under the final key of an object any more. -/
def Request.harmless (config : Config) (s : System) (objectId : Uuid) (r : Request) : Bool :=
  r.objectId ≠ objectId || r.answer.isSome ||
    match r.action with
    | .copy none => decide (StagingQuiet config s objectId)
    | .copy (some _) => false
    | .put _ _ | .deleteUpload | .deleteFinal => true

/-- No copy of an object can land any more. -/
def copiesQuiet (config : Config) (s : System) (objectId : Uuid) : Bool :=
  s.requests.all (·.harmless config s objectId)

/-- The final key of an object is empty, and nothing can come under it. -/
structure FinalQuiet (config : Config) (s : System) (objectId : Uuid) : Prop where
  empty : s.final objectId = none
  settled : ∃ o ∈ s.db.objects, o.id = objectId ∧ o.status ≠ .pending
  copies : copiesQuiet config s objectId = true

theorem copiesQuiet_iff {objectId : Uuid} : copiesQuiet config s objectId = true ↔
    ∀ r ∈ s.requests, r.objectId = objectId → r.answer = none → ∀ source, r.action = .copy source →
      source = none ∧ StagingQuiet config s objectId := by
  unfold copiesQuiet
  rw [List.all_eq_true]
  refine forall₂_congr fun r _ => ?_
  obtain ⟨id, object, action, answer⟩ := r
  cases action with
  | copy source =>
      cases source with
      | none => cases answer <;> simp [Request.harmless, ← imp_iff_not_or]
      | some => cases answer <;> simp [Request.harmless]
  | put | deleteUpload | deleteFinal => simp [Request.harmless]

/-- Every upload was started before its grant had run out. -/
def PutsTimely (s : System) : Prop :=
  ∀ r ∈ s.requests, ∀ startedAt body, r.action = .put startedAt body →
    ∃ o ∈ s.db.objects, o.id = r.objectId ∧ startedAt ≤ o.uploadExpiresAt

theorem putsTimely_step (h : step config label s = some s') (hs : s.Sound)
    (hputs : PutsTimely s) : PutsTimely s' := by
  have hrows := (step_changes h hs).rows hs.tables
  intro r' hr' startedAt body haction
  have hkeep {objectId : Uuid}
      (ho : ∃ o ∈ s.db.objects, o.id = objectId ∧ startedAt ≤ o.uploadExpiresAt) :
      ∃ o ∈ s'.db.objects, o.id = objectId ∧ startedAt ≤ o.uploadExpiresAt := by
    obtain ⟨o, ho, hid, htime⟩ := ho
    obtain ⟨o', ho', hb⟩ := hrows.persist o ho
    exact ⟨o', ho', hb.id.trans hid, by rw [hb.uploadExpiresAt]; exact htime⟩
  cases (step_frame h hs.tables).requests r' hr' with
  | same mem => exact hkeep (hputs r' mem startedAt body haction)
  | failed r mem _ eq | served r mem _ _ _ eq =>
      rw [eq] at haction ⊢
      exact hkeep (hputs r mem startedAt body haction)
  | read r body mem _ _ _ eq =>
      rw [eq] at haction
      cases haction
  | new id fresh unanswered sent =>
      rw [NewRequest, haction] at sent
      obtain ⟨rfl, hexpires⟩ := sent
      exact hkeep hexpires

/-- **A quiet staging key stays quiet.** -/
theorem stagingQuiet_step (h : step config label s = some s') (hs : s.Sound)
    (hputs : PutsTimely s) {objectId : Uuid} (hquiet : StagingQuiet config s objectId) :
    StagingQuiet config s' objectId := by
  have hframe := step_frame h hs.tables
  obtain ⟨hempty, o, ho, hid, hover⟩ := hquiet
  obtain ⟨o', ho', hb⟩ := ((step_changes h hs).rows hs.tables).persist o ho
  refine ⟨?_, o', ho', hb.id.trans hid, ?_⟩
  rotate_left
  · rw [hb.uploadExpiresAt]
    exact Int.lt_of_lt_of_le hover hframe.now
  rcases hframe.staging objectId with heq | heq | ⟨r, hr, -, hrid, startedAt, body, haction, hlasts⟩
  · rwa [heq]
  · exact heq
  · -- an upload that is still going on was granted for longer than the row says
    obtain ⟨row, hrow, hrowid, hstarted⟩ := hputs r hr startedAt body haction
    rw [hs.tables.eq_of_id hrow ho (hrowid.trans (hrid.trans hid.symm))] at hstarted
    exact absurd (Int.le_trans hlasts (Int.add_le_add_right hstarted config.maxUploadDuration))
      (Int.not_le.mpr hover)

/-- No copy can land that could not before. -/
theorem copiesQuiet_step (h : step config label s = some s') (hs : s.Sound)
    (hputs : PutsTimely s) {objectId : Uuid} (hcopies : copiesQuiet config s objectId = true)
    (hsettled : ∃ o ∈ s.db.objects, o.id = objectId ∧ o.status ≠ .pending) :
    copiesQuiet config s' objectId = true := by
  have hframe := step_frame h hs.tables
  obtain ⟨o, ho, hid, hstatus⟩ := hsettled
  rw [copiesQuiet_iff] at hcopies
  refine copiesQuiet_iff.mpr fun r' hr' hrid hopen source haction => ?_
  cases hframe.requests r' hr' with
  | same mem =>
      obtain ⟨hsource, hstaging⟩ := hcopies r' mem hrid hopen source haction
      exact ⟨hsource, stagingQuiet_step h hs hputs hstaging⟩
  | failed r _ _ eq | served r _ _ _ _ eq =>
      rw [eq] at hopen
      cases hopen
  | read r body mem unanswered unread staged eq =>
      rw [eq] at hrid
      have hrid : r.objectId = objectId := hrid
      obtain ⟨-, habsent, -⟩ := hcopies r mem hrid unanswered none unread
      rw [hrid, habsent] at staged
      cases staged
  | new id fresh unanswered sent =>
      -- a new copy is of a pending object
      rw [NewRequest, haction] at sent
      obtain ⟨-, row, hrow, hrowid, hpending⟩ := sent
      rw [hs.tables.eq_of_id hrow ho (hrowid.trans (hrid.trans hid.symm))] at hpending
      exact absurd hpending hstatus

/-- **A quiet final key stays quiet.** -/
theorem finalQuiet_step (h : step config label s = some s') (hs : s.Sound)
    (hputs : PutsTimely s) {objectId : Uuid} (hquiet : FinalQuiet config s objectId) :
    FinalQuiet config s' objectId := by
  obtain ⟨hempty, ⟨o, ho, hid, hstatus⟩, hcopies⟩ := hquiet
  obtain ⟨o', ho', hb⟩ := ((step_changes h hs).rows hs.tables).persist o ho
  refine ⟨?_, ⟨o', ho', hb.id.trans hid, hb.not_pending hstatus⟩,
    copiesQuiet_step h hs hputs hcopies ⟨o, ho, hid, hstatus⟩⟩
  rcases (step_frame h hs.tables).final objectId with heq |
    ⟨r, hr, hropen, hrid, -, ⟨-, heq⟩ | ⟨body, haction, -⟩⟩
  · rwa [heq]
  · exact heq
  · cases (copiesQuiet_iff.mp hcopies r hr hrid hropen (some body) haction).1

/-! ## What the operations have established -/

/-- What is known of an execution from where it is. -/
structure Job.Established (config : Config) (s : System) (job : Job) : Prop where
  uploads : ∀ o, (job.phase = .uploadDeleted o ∨ job.phase = .uploadAbsent o ∨
    ∃ request, job.phase = .deletingUpload request o) → job.operation.kind = .deleteUpload
  due : ∀ o, job.phase = .uploadDeleted o →
    terminalStagingCleanupAt config o.uploadExpiresAt ≤ s.now
  absent : ∀ o, job.phase = .uploadAbsent o → StagingQuiet config s o.id
  finals : ∀ request o, job.phase = .deletingFinal request o → job.operation.kind = .delete ∧
    request < s.nextId ∧ (o.status = .failed ∨ o.status = .deleting) ∧
    (o.status = .deleting → StagingQuiet config s o.id) ∧
    ∀ r ∈ s.requests, r.id = request → r.objectId = o.id ∧ r.action = .deleteFinal

/-- What the operations have established. -/
structure Quiescent (config : Config) (s : System) : Prop where
  puts : PutsTimely s
  loaded : JobsLoaded s
  jobs : ∀ job ∈ s.jobs, job.Established config s
  completed : ∀ op ∈ s.db.operations, op.kind = .deleteUpload → op.status = .completed →
    StagingQuiet config s op.objectId

/-- Facts about the rows and the clock that every step keeps, of one execution. -/
theorem Job.Established.step (h : step config label s = some s') (hs : s.Sound)
    (hputs : PutsTimely s) {job : Job} (hjob : job.Established config s) :
    job.Established config s' := by
  have hframe := step_frame h hs.tables
  have hnext := hframe.nextId
  refine ⟨hjob.uploads, fun o hphase => Int.le_trans (hjob.due o hphase) hframe.now,
    fun o hphase => stagingQuiet_step h hs hputs (hjob.absent o hphase),
    fun request o hphase => ?_⟩
  obtain ⟨hkind, hlt, hstatus, hstaging, hidentity⟩ := hjob.finals request o hphase
  refine ⟨hkind, by omega, hstatus, fun hdeleting => stagingQuiet_step h hs hputs (hstaging hdeleting),
    fun r' hr' hid => ?_⟩
  cases hframe.requests r' hr' with
  | same mem => exact hidentity r' mem hid
  | failed r mem _ eq | served r mem _ _ _ eq =>
      rw [eq] at hid ⊢
      exact hidentity r mem hid
  | read r body mem _ unread _ eq =>
      rw [eq] at hid
      have hfinal := (hidentity r mem hid).2
      rw [unread] at hfinal
      cases hfinal
  | new id => omega

/-- The gate of a final deletion: with no cleanup of the staging key left to wait
for, one has been completed. -/
theorem gate_completed {db : Database} {now : Time} {op : ObjectOperation} (hs : db.Sound)
    {o : StoredObject} (ho : o ∈ db.objects) (hid : o.id = op.objectId)
    (hrevision : o.revision = op.objectRevision) (hstatus : o.status = .deleting)
    (hgate : stagingCleanupRetryAt config db now op = none) :
    ∃ row ∈ db.operations, row.objectId = o.id ∧ row.kind = .deleteUpload ∧
      row.status = .completed := by
  unfold stagingCleanupRetryAt at hgate
  split at hgate
  · rename_i hany
    obtain ⟨row, hrow, hp⟩ := List.any_eq_true.mp hany
    simp only [Bool.and_eq_true, decide_eq_true_eq] at hp
    exact ⟨row, hrow, hp.1.1.trans hid.symm, hp.1.2, hp.2⟩
  · -- the cleanup that serves the object is not to be looked at again
    obtain ⟨row, hrow, hserves⟩ := hs.upload o ho (.inr hstatus)
    have hretry : cleanupRetryAt config now row = none := by
      by_contra hne
      obtain ⟨t, ht⟩ := Option.ne_none_iff_exists'.mp hne
      have hmem : t ∈ (db.operations.filter fun row => row.objectId = op.objectId &&
          row.kind = .deleteUpload && row.objectRevision = op.objectRevision).filterMap
            (cleanupRetryAt config now) := by
        refine List.mem_filterMap.mpr ⟨row, List.mem_filter.mpr ⟨hrow, ?_⟩, ht⟩
        simp [hserves.objectId, hserves.kind, hserves.objectRevision, hid, hrevision]
      rw [gateRetryAt, List.min?_eq_none_iff] at hgate
      rw [hgate] at hmem
      exact List.not_mem_nil hmem
    refine ⟨row, hrow, hserves.objectId, hserves.kind, ?_⟩
    have hopen := hserves.status
    revert hretry hopen
    unfold cleanupRetryAt
    cases row.status <;> simp

/-- An execution that goes on, with what it establishes. -/
theorem JobOrigin.established (h : step config label s = some s') (hs : s.Sound)
    (hq : Quiescent config s) {job' : Job} (horigin : JobOrigin config s s' job') :
    job'.Established config s' := by
  have hframe := step_frame h hs.tables
  cases horigin with
  | same mem => exact (hq.jobs job' mem).step h hs hq.puts
  | retry job mem eq =>
      rw [eq]
      exact ⟨by simp, by simp, by simp, by simp⟩
  | new claimed matched =>
      refine ⟨?_, ?_, ?_, ?_⟩ <;> simp [claimed]
  | deletingUpload job o mem kind row revision status eq =>
      rw [eq]
      exact ⟨fun _ _ => kind, by simp, by simp, by simp⟩
  | uploadDeleted job request o mem phase terminal eq =>
      rw [eq]
      refine ⟨fun _ _ => (hq.jobs job mem).uploads o (.inr (.inr ⟨request, phase⟩)), ?_, by simp,
        by simp⟩
      intro o' ho'
      cases ho'
      exact Int.le_trans terminal hframe.now
  | uploadAbsent job o mem phase absent eq =>
      rw [eq]
      refine ⟨fun _ _ => (hq.jobs job mem).uploads o (.inl phase), by simp, ?_, by simp⟩
      intro o' ho'
      cases ho'
      refine stagingQuiet_step h hs hq.puts ⟨absent, ?_⟩
      obtain ⟨-, -, row, hrow, hb⟩ := hq.loaded job mem o (by rw [phase]; rfl)
      refine ⟨row, hrow, hb.id, ?_⟩
      rw [hb.uploadExpiresAt]
      have hgrace : config.maxUploadDuration < config.maxUploadDuration + seconds 5 :=
        Int.lt_add_of_pos_right _ (by decide)
      exact Int.lt_of_lt_of_le (Int.add_lt_add_left hgrace o.uploadExpiresAt)
        ((hq.jobs job mem).due o phase)
  | deletingFinal job o mem kind row revision status sent eq =>
      rw [eq]
      refine ⟨by simp, by simp, by simp, ?_⟩
      intro request o' hphase
      cases hphase
      obtain ⟨hmem, hid⟩ := object_mem row
      refine ⟨kind, ?_, status.imp id And.left, fun hdeleting => ?_, fun r hr hrid => ?_⟩
      · have hnew : (⟨s.nextId, o.id, .deleteFinal, none⟩ : Request) ∈ s'.requests := by
          rw [sent]
          simp
        have hsound := step_sound h hs
        exact hsound.requests _ hnew
      · rcases status with hfailed | ⟨-, hgate⟩
        · rw [hfailed] at hdeleting
          cases hdeleting
        · obtain ⟨op, hop, hobject, hkind, hcompleted⟩ :=
            gate_completed hs.tables hmem hid revision hdeleting hgate
          rw [← hobject]
          exact stagingQuiet_step h hs hq.puts (hq.completed op hop hkind hcompleted)
      · rw [sent] at hr
        rcases List.mem_append.mp hr with hr | hr
        · have := hs.requests r hr
          omega
        · rw [List.mem_singleton.mp hr]
          exact ⟨rfl, rfl⟩

/-- **Every step keeps what the operations have established.** -/
theorem quiescent_step (h : step config label s = some s') (hs : s.Sound)
    (hq : Quiescent config s) : Quiescent config s' := by
  refine ⟨putsTimely_step h hs hq.puts, jobsLoaded_step h hs hq.loaded,
    fun job' hjob' => ((step_frame h hs.tables).jobs job' hjob').established h hs hq,
    fun op' hop' hkind hstatus => stagingQuiet_step h hs hq.puts ?_⟩
  rcases (step_changes h hs).completed hop' hstatus with
    ⟨op, hop, hkey, hcompleted⟩ | ⟨op, ⟨job, hjob, rfl, hmay⟩, hkey⟩
  · have hobject : op.objectId = op'.objectId := congrArg (·.2.1) hkey
    have hkinds : op.kind = op'.kind := congrArg (·.2.2.1) hkey
    rw [← hobject]
    exact hq.completed op hop (hkinds.trans hkind) hcompleted
  · have hobject : job.operation.objectId = op'.objectId := congrArg (·.2.1) hkey
    have hkinds : job.operation.kind = op'.kind := congrArg (·.2.2.1) hkey
    rw [hkind] at hkinds
    unfold Job.mayComplete at hmay
    split at hmay
    · rw [hkinds] at hmay
      rcases hmay with hreconcile | ⟨hdelete, -⟩
      · cases hreconcile
      · cases hdelete
    · rename_i o hphase
      obtain ⟨hid, -, -⟩ := hq.loaded job hjob o (by rw [hphase]; rfl)
      rw [← hobject, ← hid]
      exact (hq.jobs job hjob).absent o hphase
    · rename_i request o hphase
      rw [((hq.jobs job hjob).finals request o hphase).1] at hkinds
      cases hkinds
    · exact hmay.elim
    · exact hmay.elim
    · exact hmay.elim

theorem quiescent_reach {guard : System → Label → Prop}
    (h : Reach (step config) guard Initial s) : Quiescent config s := by
  refine h.invariant_with (fun _ => reach_sound) (fun s hs => ?_)
    fun s l s' hs hq _ hstep => quiescent_step hstep hs hq
  have hloaded : JobsLoaded s := jobsLoaded_of_initial hs
  obtain ⟨-, hoperations, -, -, -, -, hrequests, -, hjobs, -⟩ := hs
  refine ⟨?_, hloaded, ?_, ?_⟩
  · rw [PutsTimely, hrequests]
    exact fun r hr => absurd hr List.not_mem_nil
  · rw [hjobs]
    exact fun job hjob => absurd hjob List.not_mem_nil
  · rw [hoperations]
    exact fun op hop => absurd hop List.not_mem_nil

/-- A key that is quiet stays so along every run. -/
theorem stagingQuiet_leads {guard : System → Label → Prop}
    (hr : Reach (step config) guard Initial s) {objectId : Uuid}
    (hquiet : StagingQuiet config s objectId) (h : Leads (step config) anyStep s s') :
    StagingQuiet config s' objectId := by
  have hr : Reach (step config) anyStep Initial s := hr.weaken fun _ _ _ => trivial
  exact h.rel (R := fun s s' => StagingQuiet config s objectId → StagingQuiet config s' objectId)
    (fun _ => id) (fun _ _ _ h h' => h' ∘ h)
    (fun _ _ _ hs _ hstep => stagingQuiet_step hstep (reach_sound hs) (quiescent_reach hs).puts)
    hr hquiet

theorem finalQuiet_leads {guard : System → Label → Prop}
    (hr : Reach (step config) guard Initial s) {objectId : Uuid}
    (hquiet : FinalQuiet config s objectId) (h : Leads (step config) anyStep s s') :
    FinalQuiet config s' objectId := by
  have hr : Reach (step config) anyStep Initial s := hr.weaken fun _ _ _ => trivial
  exact h.rel (R := fun s s' => FinalQuiet config s objectId → FinalQuiet config s' objectId)
    (fun _ => id) (fun _ _ _ h h' => h' ∘ h)
    (fun _ _ _ hs _ hstep => finalQuiet_step hstep (reach_sound hs) (quiescent_reach hs).puts)
    hr hquiet

/-! ## The deletion of a final key -/

/-- The execution that waits for a deletion of a final key, if the status with
which it has loaded its object is one of those given. -/
def Job.awaits (p : Status → Bool) (request : ℕ) (job : Job) : Bool :=
  match job.phase with
  | .deletingFinal id o => id = request && p o.status
  | _ => false

/-- Where a final key is deleted for an execution that waits for it, no copy of the
object can land any more. -/
def deletesQuiet (config : Config) (p : Status → Bool) (s : System) (label : Label) : Bool :=
  match label with
  | .serve id => (s.openRequest id).all fun r =>
      ! (r.action = .deleteFinal && s.jobs.any (·.awaits p id)) || copiesQuiet config s r.objectId
  | _ => true

/-- An execution whose deletion has been answered has left a quiet key. -/
def AnsweredQuiet (config : Config) (p : Status → Bool) (s : System) : Prop :=
  ∀ job ∈ s.jobs, ∀ request o, job.phase = .deletingFinal request o → p o.status = true →
    s.answered request = true → FinalQuiet config s o.id

/-- Where an execution that waits for a deletion comes from. -/
theorem JobOrigin.deletingFinal_eq {job' : Job} {request : ℕ} {o : StoredObject}
    (h : JobOrigin config s s' job') (hphase : job'.phase = .deletingFinal request o) :
    job' ∈ s.jobs ∨ request = s.nextId ∧
      s'.requests = s.requests ++ [⟨s.nextId, o.id, .deleteFinal, none⟩] := by
  cases h with
  | same mem => exact .inl mem
  | new claimed =>
      rw [claimed] at hphase
      cases hphase
  | deletingFinal job row mem kind hrow revision status sent eq =>
      rw [eq] at hphase
      cases hphase
      exact .inr ⟨rfl, sent⟩
  | retry job mem eq | deletingUpload job row mem kind hrow revision status eq
  | uploadDeleted job request row mem phase terminal eq | uploadAbsent job row mem phase absent eq =>
      rw [eq] at hphase
      cases hphase

theorem answered_iff {request : ℕ} :
    s.answered request = true ↔ ∃ r ∈ s.requests, r.id = request ∧ r.answer = some true := by
  simp [System.answered, List.any_eq_true]

/-- A deletion is answered when it takes effect, and then only. -/
theorem answered_step (h : step config label s = some s') (hs : s.Sound)
    (hq : Quiescent config s) {job : Job} (hjob : job ∈ s'.jobs) {request : ℕ} {o : StoredObject}
    (hphase : job.phase = .deletingFinal request o) (hanswered : s'.answered request = true) :
    job ∈ s.jobs ∧ (s.answered request = true ∨ ∃ r, label = .serve request ∧
      s.openRequest request = some r ∧ r.objectId = o.id ∧ r.action = .deleteFinal ∧
      s'.final o.id = none) := by
  have hframe := step_frame h hs.tables
  obtain ⟨r', hr', hid, hanswer⟩ := answered_iff.mp hanswered
  rcases (hframe.jobs job hjob).deletingFinal_eq hphase with hjob | ⟨rfl, hsent⟩
  · refine ⟨hjob, ?_⟩
    obtain ⟨-, hlt, -, -, hidentity⟩ := (hq.jobs job hjob).finals request o hphase
    cases hframe.requests r' hr' with
    | same mem => exact .inl (answered_iff.mpr ⟨r', mem, hid, hanswer⟩)
    | served r mem unanswered now emptied eq =>
        rw [eq] at hid
        obtain ⟨hobject, haction⟩ := hidentity r mem hid
        have hid : r.id = request := hid
        rw [hid] at now
        exact .inr ⟨r, now.1, now.2, hobject, haction, hobject ▸ emptied haction⟩
    | failed r mem _ eq | read r body mem unanswered unread staged eq =>
        rw [eq] at hanswer
        first
          | cases hanswer
          | exact absurd (unanswered.symm.trans hanswer) (by simp)
    | new id fresh unanswered =>
        rw [unanswered] at hanswer
        cases hanswer
  · -- a request that is sent in this very step has no answer
    rw [hsent] at hr'
    rcases List.mem_append.mp hr' with hr' | hr'
    · have := hs.requests r' hr'
      omega
    · rw [List.mem_singleton.mp hr'] at hanswer
      cases hanswer

theorem answeredQuiet_step {p : Status → Bool} (h : step config label s = some s') (hs : s.Sound)
    (hq : Quiescent config s) (hguard : deletesQuiet config p s label = true)
    (hquiet : AnsweredQuiet config p s) : AnsweredQuiet config p s' := by
  intro job hjob request o hphase hp hanswered
  obtain ⟨hjob, hbefore | ⟨r, rfl, hr, hobject, haction, hempty⟩⟩ :=
    answered_step h hs hq hjob hphase hanswered
  · exact finalQuiet_step h hs hq.puts (hquiet job hjob request o hphase hp hbefore)
  · obtain ⟨-, -, hstatus, -⟩ := (hq.jobs job hjob).finals request o hphase
    obtain ⟨-, -, row, hrow, hb⟩ := hq.loaded job hjob o (by rw [hphase]; rfl)
    have hsettled : ∃ o' ∈ s.db.objects, o'.id = o.id ∧ o'.status ≠ .pending :=
      ⟨row, hrow, hb.id, hb.not_pending (by rcases hstatus with h | h <;> simp [h])⟩
    have hawaits : s.jobs.any (·.awaits p request) = true :=
      List.any_eq_true.mpr ⟨job, hjob, by simp [Job.awaits, hphase, hp]⟩
    have hcopies : copiesQuiet config s o.id = true := by
      simpa [deletesQuiet, hr, haction, hawaits, hobject] using hguard
    obtain ⟨row', hrow', hb'⟩ := ((step_changes h hs).rows hs.tables).persist row hrow
    exact ⟨hempty, ⟨row', hrow', hb'.id.trans hb.id, hb'.not_pending
      (hb.not_pending (by rcases hstatus with h | h <;> simp [h]))⟩,
      copiesQuiet_step h hs hq.puts hcopies hsettled⟩

/-- A deleted object has a quiet final key. -/
def DeletedQuiet (config : Config) (s : System) : Prop :=
  ∀ o ∈ s.db.objects, o.status = .deleted → FinalQuiet config s o.id

/-- Which deletions are awaited for an object that is to be deleted. -/
def isDeleting (status : Status) : Bool := status = .deleting

theorem deletedQuiet_step {p : Status → Bool} (hp : p .deleting = true)
    (h : step config label s = some s') (hs : s.Sound) (hq : Quiescent config s)
    (hanswered : AnsweredQuiet config p s) (hdeleted : DeletedQuiet config s) :
    DeletedQuiet config s' := by
  intro o' ho' hstatus
  refine finalQuiet_step h hs hq.puts ?_
  rcases (step_changes h hs).deleted ho' hstatus with ⟨o, ho, hid, hgone⟩ |
    ⟨current, ⟨job, hjob, request, hphase, hanswer, hdeleting⟩, hid⟩
  · exact hid ▸ hdeleted o ho hgone
  · exact hid ▸ hanswered job hjob request current hphase (by rw [hdeleting, hp]) hanswer

/-- What a run has in which awaited deletions find no copy about to land. -/
theorem answeredQuiet_reach {p : Status → Bool} {guard : System → Label → Prop}
    (hguard : ∀ s label, guard s label → deletesQuiet config p s label = true)
    (h : Reach (step config) guard Initial s) : AnsweredQuiet config p s := by
  refine h.invariant_with (fun _ hr => And.intro (reach_sound hr) (quiescent_reach hr))
    (fun s hs => ?_) fun s l s' hs hanswered hg hstep =>
      answeredQuiet_step hstep hs.1 hs.2 (hguard s l hg) hanswered
  obtain ⟨-, -, -, -, -, -, -, -, hjobs, -⟩ := hs
  rw [AnsweredQuiet, hjobs]
  exact fun job hjob => absurd hjob List.not_mem_nil

theorem deletedQuiet_reach {p : Status → Bool} (hp : p .deleting = true)
    {guard : System → Label → Prop}
    (hguard : ∀ s label, guard s label → deletesQuiet config p s label = true)
    (h : Reach (step config) guard Initial s) : DeletedQuiet config s := by
  refine h.invariant_with
    (fun _ hr => And.intro (And.intro (reach_sound hr) (quiescent_reach hr))
      (answeredQuiet_reach hguard hr))
    (fun s hs => ?_) fun s l s' hs hdeleted _ hstep =>
      deletedQuiet_step hp hstep hs.1.1 hs.1.2 hs.2 hdeleted
  rw [DeletedQuiet, hs.1]
  exact fun o ho => absurd ho List.not_mem_nil

/-- No copy of an object is about to land when its final key is deleted for an
execution that is to end the object. -/
def CopiesDone (config : Config) (s : System) (label : Label) : Prop :=
  deletesQuiet config isDeleting s label = true

instance (s : System) (label : Label) : Decidable (CopiesDone config s label) :=
  inferInstanceAs (Decidable (_ = true))

/-- **The final key of a deleted object stays empty**, in a run in which no copy is
about to land when a final key is deleted, and ever after. -/
theorem deleted_final_empty (h : Reach (step config) (CopiesDone config) Initial s) :
    ∀ o ∈ s.db.objects, o.status = .deleted →
      ∀ s', Leads (step config) anyStep s s' → s'.final o.id = none := by
  intro o ho hstatus s' hlead
  have hdeleted := deletedQuiet_reach (p := isDeleting) rfl (fun _ _ hg => hg) h
  exact (finalQuiet_leads h (hdeleted o ho hstatus) hlead).empty

/-- A submission that was completed is deleted, and its keys with it. -/
def deletedSubmission : List Label :=
  completedSubmission ++
    [.delete 1, .tick 1805000000, .startJob 2 0, .beginJob 3, .serve 4, .resumeJob 3,
      .resumeJob 3, .resumeJob 3, .startJob 3 0, .beginJob 5, .serve 6, .resumeJob 5]

theorem deleted_final_empty_submission :
    ∃ s, runIf (step oneAttempt) (CopiesDone oneAttempt) deletedSubmission unused = some s ∧
      ∀ s', Leads (step oneAttempt) anyStep s s' → s'.final 1 = none := by
  have hrun : (runIf (step oneAttempt) (CopiesDone oneAttempt) deletedSubmission unused).any
      (fun s => s.db.objects.any fun o => o.id = 1 && o.status = .deleted) = true := by
    decide +kernel
  obtain ⟨s, hs, hany⟩ := (Option.any_eq_true _ _).mp hrun
  obtain ⟨o, ho, hp⟩ := List.any_eq_true.mp hany
  simp only [Bool.and_eq_true, decide_eq_true_eq] at hp
  refine ⟨s, hs, fun s' hlead => ?_⟩
  rw [← hp.1]
  exact deleted_final_empty (reach_of_runIf _ (.init unused_initial) hs) o ho hp.2 s' hlead

/-- The client of a completion is gone after the copy has read its source, and the
object is deleted: `late` is what happens before the copy lands. -/
def lateCopy (late : List Label) : List Label :=
  [.initiate (submission 1 "k" 0), .startPut 1 tenBytes, .serve 0, .startCall 1 true,
    .beginCall 1 true, .serve 2, .dropCall 1, .delete 1, .tick 1805000000, .startJob 1 0,
    .beginJob 3, .serve 4, .resumeJob 3, .resumeJob 3, .resumeJob 3, .startJob 2 0, .beginJob 5,
    .serve 6] ++ late ++ [.serve 2]

/-- A copy that lands after the deletion of an object is completed leaves a body
under its final key. -/
theorem deleted_final_refilled :
    ¬ ∀ (config : Config) (s : System), Reach (step config) anyStep Initial s →
      ∀ o ∈ s.db.objects, o.status = .deleted →
        ∀ s', Leads (step config) anyStep s s' → s'.final o.id = none := by
  have hrun : (run (step oneAttempt) (lateCopy [.resumeJob 5]) unused).any
      (fun s => (s.final 1).isSome && s.db.objects.any fun o =>
        o.id = 1 && o.status = .deleted) = true := by decide +kernel
  obtain ⟨s, hs, hp⟩ := (Option.any_eq_true _ _).mp hrun
  obtain ⟨hbody, hany⟩ := Bool.and_eq_true_iff.mp hp
  obtain ⟨o, ho, ho'⟩ := List.any_eq_true.mp hany
  simp only [Bool.and_eq_true, decide_eq_true_eq] at ho'
  intro hempty
  have hnone := hempty oneAttempt s (reach_of_run _ unused_initial hs) o ho ho'.2 s (.refl s)
  rw [ho'.1] at hnone
  rw [hnone] at hbody
  cases hbody

/-! ## What is empty when an object is deleted -/

/-- The next effect of an action is to write the final key. -/
def Action.lands : Action → Bool
  | .copy (some _) => true
  | _ => false

/-- An execution is about to commit the end of an object. -/
def Job.commits (s : System) (objectId : Uuid) (job : Job) : Bool :=
  match job.phase with
  | .deletingFinal request o => o.id = objectId && o.status = .deleting && s.answered request
  | _ => false

/-- No copy lands between the answer to an awaited deletion of a final key and the
commit of the operation that waited for it. -/
def CommitsQuiet (s : System) (label : Label) : Prop :=
  match label with
  | .serve id => (s.openRequest id).all (fun r =>
      ! (r.action.lands && s.jobs.any (·.commits s r.objectId))) = true
  | _ => True

instance (s : System) (label : Label) : Decidable (CommitsQuiet s label) := by
  unfold CommitsQuiet
  cases label <;> infer_instance

/-- An execution whose deletion has been answered finds an empty key. -/
def AnsweredEmpty (s : System) : Prop :=
  ∀ job ∈ s.jobs, ∀ request o, job.phase = .deletingFinal request o → o.status = .deleting →
    s.answered request = true → s.final o.id = none

/-- An empty key that no copy fills in a step. -/
theorem final_empty_step (h : step config label s = some s') (hs : s.Sound)
    (hguard : CommitsQuiet s label) {job : Job} (hjob : job ∈ s.jobs) {request : ℕ}
    {o : StoredObject} (hphase : job.phase = .deletingFinal request o)
    (hstatus : o.status = .deleting) (hanswered : s.answered request = true)
    (hempty : s.final o.id = none) : s'.final o.id = none := by
  rcases (step_frame h hs.tables).final o.id with heq |
    ⟨r, hr, hropen, hrid, ⟨rfl, hopen⟩, ⟨-, heq⟩ | ⟨body, haction, -⟩⟩
  · rwa [heq]
  · exact heq
  · have hcommits : s.jobs.any (·.commits s r.objectId) = true :=
      List.any_eq_true.mpr ⟨job, hjob, by simp [Job.commits, hphase, hrid, hstatus, hanswered]⟩
    simp [CommitsQuiet, hopen, haction, Action.lands, hcommits] at hguard

theorem answeredEmpty_step (h : step config label s = some s') (hs : s.Sound)
    (hq : Quiescent config s) (hguard : CommitsQuiet s label) (hempty : AnsweredEmpty s) :
    AnsweredEmpty s' := by
  intro job hjob request o hphase hstatus hanswered
  obtain ⟨hjob, hbefore | ⟨r, -, -, -, -, hnone⟩⟩ := answered_step h hs hq hjob hphase hanswered
  · exact final_empty_step h hs hguard hjob hphase hstatus hbefore
      (hempty job hjob request o hphase hstatus hbefore)
  · exact hnone

theorem answeredEmpty_reach (h : Reach (step config) CommitsQuiet Initial s) :
    AnsweredEmpty s := by
  refine h.invariant_with (fun _ hr => And.intro (reach_sound hr) (quiescent_reach hr))
    (fun s hs => ?_) fun s l s' hs hempty hg hstep => answeredEmpty_step hstep hs.1 hs.2 hg hempty
  obtain ⟨-, -, -, -, -, -, -, -, hjobs, -⟩ := hs
  rw [AnsweredEmpty, hjobs]
  exact fun job hjob => absurd hjob List.not_mem_nil

/-- **Staging quiescence.**  Once a deletion of a staging key is completed the key
stays empty; and where no copy lands between the deletion of a final key and the
commit that follows it, a step that deletes an object leaves both its keys empty. -/
theorem staging_quiescence (h : Reach (step config) CommitsQuiet Initial s) :
    (∀ op ∈ s.db.operations, op.kind = .deleteUpload → op.status = .completed →
      ∀ s', Leads (step config) anyStep s s' → s'.staging op.objectId = none) ∧
    ∀ label s', CommitsQuiet s label → step config label s = some s' →
      ∀ o' ∈ s'.db.objects, o'.status = .deleted →
      (∀ o ∈ s.db.objects, o.id = o'.id → o.status ≠ .deleted) →
      s'.staging o'.id = none ∧ s'.final o'.id = none := by
  have hs := reach_sound h
  have hq := quiescent_reach h
  refine ⟨fun op hop hkind hstatus s' hlead =>
    (stagingQuiet_leads h (hq.completed op hop hkind hstatus) hlead).1,
    fun label s' hguard hstep o' ho' hstatus hnew => ?_⟩
  rcases (step_changes hstep hs).deleted ho' hstatus with ⟨o, ho, hid, hgone⟩ |
    ⟨current, ⟨job, hjob, request, hphase, hanswered, hdeleting⟩, hid⟩
  · exact absurd hgone (hnew o ho hid)
  · obtain ⟨-, -, -, hstaging, -⟩ := (hq.jobs job hjob).finals request current hphase
    rw [← hid]
    refine ⟨(stagingQuiet_step hstep hs hq.puts (hstaging hdeleting)).1, ?_⟩
    exact final_empty_step hstep hs hguard hjob hphase hdeleting hanswered
      (answeredEmpty_reach h job hjob request current hphase hdeleting hanswered)

theorem staging_quiescence_submission :
    ∃ s s', runIf (step oneAttempt) CommitsQuiet deletedSubmission.dropLast unused = some s ∧
      step oneAttempt (.resumeJob 5) s = some s' ∧ s'.staging 1 = none ∧ s'.final 1 = none := by
  have hrun : (runIf (step oneAttempt) CommitsQuiet deletedSubmission.dropLast unused).any
      (fun s => (s.db.objects.all fun o => o.status ≠ .deleted) &&
        (step oneAttempt (.resumeJob 5) s).any fun s' =>
          s'.db.objects.any fun o => o.id = 1 && o.status = .deleted) = true := by decide +kernel
  obtain ⟨s, hs, hp⟩ := (Option.any_eq_true _ _).mp hrun
  obtain ⟨hbefore, hafter⟩ := Bool.and_eq_true_iff.mp hp
  obtain ⟨s', hstep, hany⟩ := (Option.any_eq_true _ _).mp hafter
  obtain ⟨o, ho, ho'⟩ := List.any_eq_true.mp hany
  simp only [Bool.and_eq_true, decide_eq_true_eq] at ho'
  have hempty := (staging_quiescence (reach_of_runIf _ (.init unused_initial) hs)).2
    (.resumeJob 5) s' trivial hstep o ho ho'.2
    (fun o₀ ho₀ _ => of_decide_eq_true (List.all_eq_true.mp hbefore o₀ ho₀))
  rw [ho'.1] at hempty
  exact ⟨s, s', hs, hstep, hempty⟩

/-- A copy that lands before the deletion of its object commits: the object is
deleted with a body under its final key. -/
theorem staging_quiescence_late :
    ¬ ∀ (config : Config) (s : System), Reach (step config) anyStep Initial s →
      ∀ label s', step config label s = some s' → ∀ o' ∈ s'.db.objects, o'.status = .deleted →
        (∀ o ∈ s.db.objects, o.id = o'.id → o.status ≠ .deleted) →
        s'.staging o'.id = none ∧ s'.final o'.id = none := by
  have hrun : (run (step oneAttempt) (lateCopy []) unused).any
      (fun s => (s.db.objects.all fun o => o.status ≠ .deleted) &&
        (step oneAttempt (.resumeJob 5) s).any fun s' => (s'.final 1).isSome &&
          s'.db.objects.any fun o => o.id = 1 && o.status = .deleted) = true := by decide +kernel
  obtain ⟨s, hs, hp⟩ := (Option.any_eq_true _ _).mp hrun
  obtain ⟨hbefore, hafter⟩ := Bool.and_eq_true_iff.mp hp
  obtain ⟨s', hstep, hp'⟩ := (Option.any_eq_true _ _).mp hafter
  obtain ⟨hbody, hany⟩ := Bool.and_eq_true_iff.mp hp'
  obtain ⟨o, ho, ho'⟩ := List.any_eq_true.mp hany
  simp only [Bool.and_eq_true, decide_eq_true_eq] at ho'
  intro hempty
  have hnone := (hempty oneAttempt s (reach_of_run _ unused_initial hs) (.resumeJob 5) s' hstep o
    ho ho'.2 fun o₀ ho₀ _ => of_decide_eq_true (List.all_eq_true.mp hbefore o₀ ho₀)).2
  rw [ho'.1] at hnone
  rw [hnone] at hbody
  cases hbody

end CtfZone.Storage
