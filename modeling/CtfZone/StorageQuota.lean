/-
# The storage quota

A grant compares what a principal keeps with its quotas.  The sum over what is
retained leaves out deleted objects, and failed objects none of whose operations is
open, because their bodies are gone; they are, unless a deletion was given up, or a
copy landed after the deletion of the final key.

* `enforceStorageQuota_bounds` : the quotas of one grant;
* `FailedQuiet`, `NotGivenUp` : what the completed and the failed operations of an
  object say about its bodies;
* `uncounted_empty` : what the sum leaves out has no body;
* `quota_sound` : every grant of a run.
-/
import CtfZone.StorageQuiescence

namespace CtfZone.Storage

open Tables Relation Runs

variable {config : Config} {label : Label} {s s' : System}

/-! ## One grant -/

/-- No sum of a grant saturates at a quota that is the largest integer. -/
def unsaturated (config : Config) (db : Database) (principal : Principal) (size : ℤ) : Bool :=
  (config.maxPendingBytes < i64Max || pendingBytes db principal + size ≤ i64Max) &&
    (config.maxRetainedBytes < i64Max || retainedBytes db principal + size ≤ i64Max)

/-- What a principal keeps is within its quotas. -/
structure WithinQuotas (config : Config) (db : Database) (principal : Principal) : Prop where
  pendingObjects : (pendingObjects db principal).length ≤ config.maxPendingObjects
  pendingBytes : pendingBytes db principal ≤ config.maxPendingBytes
  retainedBytes : retainedBytes db principal ≤ config.maxRetainedBytes

/-- A saturated sum below a quota is the sum. -/
theorem le_of_saturatingAdd_le {a b quota : ℤ} (h : saturatingAdd a b ≤ quota)
    (hquota : quota < i64Max ∨ a + b ≤ i64Max) : a + b ≤ quota := by
  unfold saturatingAdd at h
  omega

/-- What the quotas of a grant say about the sums with the new object. -/
theorem enforceStorageQuota_bounds {db : Database} {now : Time} {principal : Principal} {size : ℤ}
    (hprincipal : principal ≠ .target)
    (h : enforceStorageQuota config db now principal size = .ok ⟨⟩)
    (hsums : unsaturated config db principal size = true) :
    (pendingObjects db principal).length + 1 ≤ config.maxPendingObjects ∧
      pendingBytes db principal + size ≤ config.maxPendingBytes ∧
      retainedBytes db principal + size ≤ config.maxRetainedBytes := by
  unfold enforceStorageQuota at h
  rw [if_neg hprincipal] at h
  obtain ⟨-, -, h⟩ := bind_eq_ok.mp h
  obtain ⟨⟨⟩, hquota, -⟩ := bind_eq_ok.mp h
  have hquota := ensure_eq_ok.mp hquota
  simp only [Bool.not_eq_true', Bool.or_eq_false_iff, decide_eq_false_iff_not, Int.not_le,
    Int.not_lt] at hquota
  simp only [unsaturated, Bool.and_eq_true, Bool.or_eq_true, decide_eq_true_eq] at hsums
  obtain ⟨⟨hobjects, hpending⟩, hretained⟩ := hquota
  exact ⟨hobjects, le_of_saturatingAdd_le hpending hsums.1,
    le_of_saturatingAdd_le hretained hsums.2⟩

/-- The principal of a participant is a team, or the user itself. -/
theorem principal_cases {request : UploadRequest} {principal : Principal}
    (hasset : request.purpose.isAsset = false) (h : request.principal = .ok principal) :
    (∃ teamId, principal = .team teamId) ∨ principal = .user request.userId := by
  unfold UploadRequest.principal at h
  rw [if_neg (by simp [hasset])] at h
  split at h
  · split at h
    · rename_i teamId _
      cases h
      exact .inl ⟨teamId, rfl⟩
    · split at h <;> cases h
      exact .inr rfl
  · cases h
    exact .inr rfl

/-- A participant owns what it uploads. -/
theorem principal_owns {request : UploadRequest} {principal : Principal}
    (hprincipal : (∃ teamId, principal = .team teamId) ∨ principal = .user request.userId)
    (now : Time) (expectedIcon : Option Uuid) :
    principal.owns (request.row config principal now expectedIcon) = true := by
  rcases hprincipal with ⟨teamId, rfl⟩ | rfl <;>
    simp [Principal.owns, UploadRequest.row, Principal.scope, Principal.teamId]

@[simp] theorem insertUpload_objects (db : Database) (row : StoredObject) :
    (db.insertUpload row).objects = db.objects ++ [row] :=
  enqueueOperation_objects ..

/-- The operations of the other objects are as they were. -/
theorem isRetained_insertUpload {db : Database} {row o : StoredObject} (hne : o.id ≠ row.id) :
    isRetained (db.insertUpload row) o = isRetained db o := by
  have hany : (db.insertUpload row).operations.any (fun op => op.objectId = o.id && op.isOpen) =
      db.operations.any fun op => op.objectId = o.id && op.isOpen := by
    unfold Database.insertUpload
    rcases enqueueOperation_cases { db with objects := db.objects ++ [row] } row.id .reconcile 1
      row.uploadExpiresAt with ⟨-, heq⟩ | ⟨-, hops, -⟩
    · rw [heq]
    · rw [hops, List.any_append]
      simp [Ne.symm hne]
  unfold isRetained
  rw [hany]

/-- What a principal keeps once it has been granted an upload. -/
theorem insertUpload_sums {db : Database} {row : StoredObject} {principal : Principal}
    (howns : principal.owns row = true) (hstatus : row.status = .pending)
    (hactual : row.actualSize = none) (hfresh : ∀ o ∈ db.objects, o.id ≠ row.id) :
    (pendingObjects (db.insertUpload row) principal).length =
        (pendingObjects db principal).length + 1 ∧
      pendingBytes (db.insertUpload row) principal =
        pendingBytes db principal + row.expectedSize ∧
      retainedBytes (db.insertUpload row) principal =
        retainedBytes db principal + row.expectedSize := by
  have howned : (db.insertUpload row).ownedBy principal = db.ownedBy principal ++ [row] := by
    simp [Database.ownedBy, howns]
  have hpending : pendingObjects (db.insertUpload row) principal =
      pendingObjects db principal ++ [row] := by
    unfold pendingObjects
    rw [howned]
    simp [hstatus]
  have hretained : ((db.insertUpload row).ownedBy principal).filter
      (isRetained (db.insertUpload row)) = (db.ownedBy principal).filter (isRetained db) ++ [row] := by
    rw [howned, List.filter_append]
    congr 1
    · refine List.filter_congr fun o ho => isRetained_insertUpload (hfresh o ?_)
      exact List.mem_of_mem_filter ho
    · simp [isRetained, hstatus]
  refine ⟨by rw [hpending]; simp, ?_, ?_⟩
  · unfold pendingBytes
    rw [hpending]
    simp
  · unfold retainedBytes
    rw [hretained]
    simp [hactual]

/-! ## Operations that have come to their end -/

/-- An object that is not pending or failed never will be. -/
theorem Becomes.left {o o' : StoredObject} (h : Becomes o o')
    (ho : o.status ≠ .pending ∧ o.status ≠ .failed) :
    o'.status ≠ .pending ∧ o'.status ≠ .failed := by
  refine h.keeps (P := fun status => status ≠ .pending ∧ status ≠ .failed)
    (fun a b hnext ha => ?_) ho
  cases a <;> cases b <;> simp_all [Status.Next]

/-- Deleted objects have quiet staging keys. -/
def DeletedStaging (config : Config) (s : System) : Prop :=
  ∀ o ∈ s.db.objects, o.status = .deleted → StagingQuiet config s o.id

theorem deletedStaging_step (h : step config label s = some s') (hs : s.Sound)
    (hq : Quiescent config s) (hdeleted : DeletedStaging config s) : DeletedStaging config s' := by
  intro o' ho' hstatus
  refine stagingQuiet_step h hs hq.puts ?_
  rcases (step_changes h hs).deleted ho' hstatus with ⟨o, ho, hid, hgone⟩ |
    ⟨current, ⟨job, hjob, request, hphase, -, hdeleting⟩, hid⟩
  · exact hid ▸ hdeleted o ho hgone
  · obtain ⟨-, -, -, hstaging, -⟩ := (hq.jobs job hjob).finals request current hphase
    exact hid ▸ hstaging hdeleting

theorem deletedStaging_reach {guard : System → Label → Prop}
    (h : Reach (step config) guard Initial s) : DeletedStaging config s := by
  refine h.invariant_with (fun _ hr => And.intro (reach_sound hr) (quiescent_reach hr))
    (fun s hs => ?_) fun s l s' hs hdeleted _ hstep =>
      deletedStaging_step hstep hs.1 hs.2 hdeleted
  rw [DeletedStaging, hs.1]
  exact fun o ho => absurd ho List.not_mem_nil

/-- The deletion of the final key of a failed object, once completed, has left it
quiet. -/
def FailedQuiet (config : Config) (s : System) : Prop :=
  ∀ o ∈ s.db.objects, o.status = .failed → ∀ op ∈ s.db.operations, op.objectId = o.id →
    op.kind = .delete → op.status = .completed → FinalQuiet config s o.id

theorem failedQuiet_step (h : step config label s = some s') (hs : s.Sound)
    (hq : Quiescent config s) (hanswered : AnsweredQuiet config (fun _ => true) s)
    (hfailed : FailedQuiet config s) : FailedQuiet config s' := by
  intro o' ho' hstatus op' hop' hobject hkind hcompleted
  have hchanges := step_changes h hs
  -- the object a completed operation is about was there, and had failed
  have hbefore {op : ObjectOperation} (hop : op.objectId = o'.id)
      (hknown : ∃ o ∈ s.db.objects, o.id = op.objectId ∧ o.status ≠ .pending) :
      ∃ o ∈ s.db.objects, o.id = o'.id ∧ o.status = .failed := by
    obtain ⟨o, ho, hid, hpending⟩ := hknown
    obtain ⟨row, hrow, hb⟩ := (hchanges.rows hs.tables).persist o ho
    have hsame : row = o' := (hchanges.sound hs.tables).eq_of_id hrow ho'
      (hb.id.trans (hid.trans hop))
    refine ⟨o, ho, hid.trans hop, ?_⟩
    by_contra hne
    exact (hb.left ⟨hpending, hne⟩).2 (hsame ▸ hstatus)
  refine finalQuiet_step h hs hq.puts ?_
  rcases hchanges.completed hop' hcompleted with
    ⟨op, hop, hkey, hdone⟩ | ⟨op, ⟨job, hjob, rfl, hmay⟩, hkey⟩
  · have hid : op.objectId = o'.id := (congrArg (·.2.1) hkey).trans hobject
    have hkinds : op.kind = .delete := (congrArg (·.2.2.1) hkey).trans hkind
    obtain ⟨o, ho, hoid⟩ := hs.tables.known op hop
    have hpending : o.status ≠ .pending := fun hpending => by
      have hreconcile := hs.tables.fresh o ho hpending op hop hoid.symm
      rw [hkinds] at hreconcile
      cases hreconcile
    obtain ⟨o, ho, hoid, hofailed⟩ := hbefore hid ⟨o, ho, hoid, hpending⟩
    exact hoid ▸ hfailed o ho hofailed op hop (hid.trans hoid.symm) hkinds hdone
  · have hid : job.operation.objectId = o'.id := (congrArg (·.2.1) hkey).trans hobject
    have hkinds : job.operation.kind = .delete := (congrArg (·.2.2.1) hkey).trans hkind
    unfold Job.mayComplete at hmay
    split at hmay
    · rw [hkinds] at hmay
      rcases hmay with hreconcile | ⟨-, o, ho, hoid, hdeleted⟩
      · cases hreconcile
      · obtain ⟨row, hrow, hrowid, hrowfailed⟩ :=
          hbefore hid ⟨o, ho, hoid, by simp [hdeleted]⟩
        rw [hs.tables.eq_of_id hrow ho (hrowid.trans (hid.symm.trans hoid.symm)), hdeleted]
          at hrowfailed
        cases hrowfailed
    · rename_i o hphase
      rw [(hq.jobs job hjob).uploads o (.inr (.inl hphase))] at hkinds
      cases hkinds
    · rename_i request o hphase
      obtain ⟨hoid, -, -⟩ := hq.loaded job hjob o (by rw [hphase]; rfl)
      rw [← hid, ← hoid]
      exact hanswered job hjob request o hphase rfl hmay
    · exact hmay.elim
    · exact hmay.elim
    · exact hmay.elim

/-- A deletion that was given up is not of a failed object. -/
def NotGivenUp (s : System) : Prop :=
  ∀ op ∈ s.db.operations, op.kind ≠ .reconcile → op.status = .failed →
    ∃ o ∈ s.db.objects, o.id = op.objectId ∧ o.status ≠ .pending ∧ o.status ≠ .failed

/-- What a step gives up is no deletion of a failed object. -/
def givesUpNone (config : Config) (s : System) (label : Label) : Bool :=
  (s.givesUp config label).all fun op => op.kind = .reconcile ||
    s.db.objects.all fun o => ! (o.id = op.objectId && o.status = .failed)

theorem givesUp_held {op : ObjectOperation} (h : s.givesUp config label = some op) :
    (∃ job ∈ s.jobs, job.operation = op) ∧ ∃ row ∈ s.db.operations, op.holds row = true := by
  unfold System.givesUp at h
  split at h
  · obtain ⟨job, hjob, h⟩ := Option.bind_eq_some_iff.mp h
    split at h
    · rename_i hgives
      cases h
      exact ⟨⟨job, job_mem hjob, rfl⟩, List.any_eq_true.mp hgives.2.2⟩
    · cases h
  · cases h

theorem notGivenUp_step (h : step config label s = some s') (hs : s.Sound)
    (hguard : givesUpNone config s label = true) (hgiven : NotGivenUp s) : NotGivenUp s' := by
  intro op' hop' hkind hstatus
  have hchanges := step_changes h hs
  have hkeep {objectId : Uuid} (ho : ∃ o ∈ s.db.objects, o.id = objectId ∧
      o.status ≠ .pending ∧ o.status ≠ .failed) :
      ∃ o ∈ s'.db.objects, o.id = objectId ∧ o.status ≠ .pending ∧ o.status ≠ .failed := by
    obtain ⟨o, ho, hid, hleft⟩ := ho
    obtain ⟨o', ho', hb⟩ := (hchanges.rows hs.tables).persist o ho
    exact ⟨o', ho', hb.id.trans hid, hb.left hleft⟩
  rcases hchanges.failed hop' hstatus with ⟨op, hop, hkey, hfailed⟩ | ⟨-, op, ⟨-, hgives⟩, hkey⟩
  · have hobject : op.objectId = op'.objectId := congrArg (·.2.1) hkey
    have hkinds : op.kind = op'.kind := congrArg (·.2.2.1) hkey
    rw [← hobject]
    exact hkeep (hgiven op hop (hkinds ▸ hkind) hfailed)
  · have hobject : op.objectId = op'.objectId := congrArg (·.2.1) hkey
    have hkinds : op.kind = op'.kind := congrArg (·.2.2.1) hkey
    obtain ⟨⟨job, hjob, rfl⟩, row, hrow, hheld⟩ := givesUp_held hgives
    obtain ⟨-, hrowkey⟩ := (hs.jobs job hjob).held row hrow hheld
    have hrowobject : row.objectId = job.operation.objectId := congrArg (·.2.1) hrowkey
    have hrowkind : row.kind = job.operation.kind := congrArg (·.2.2.1) hrowkey
    obtain ⟨o, ho, hid⟩ := hs.tables.known row hrow
    refine hkeep ⟨o, ho, hid.trans (hrowobject.trans hobject), fun hpending => ?_, fun hofailed => ?_⟩
    · exact hkind (hkinds.symm.trans (hrowkind.symm.trans
        (hs.tables.fresh o ho hpending row hrow hid.symm)))
    · have hne : job.operation.kind ≠ .reconcile := hkinds ▸ hkind
      have hall : ∀ o ∈ s.db.objects, o.id = job.operation.objectId → o.status ≠ .failed := by
        simpa [givesUpNone, hgives, hne, imp_iff_not_or] using hguard
      exact hall o ho (hid.trans hrowobject) hofailed

/-! ## What the sum leaves out -/

/-- No deletion of a failed object is given up, no copy is about to land when a
final key is deleted, and no sum saturates at the largest quota. -/
def Accountable (config : Config) (s : System) (label : Label) : Prop :=
  deletesQuiet config (fun _ => true) s label = true ∧ givesUpNone config s label = true ∧
    match label with
    | .initiate request => (match request.principal with
        | .ok principal => unsaturated config s.db principal request.size
        | .error _ => true) = true
    | _ => True

instance (s : System) (label : Label) : Decidable (Accountable config s label) :=
  decidable_of_iff
    (deletesQuiet config (fun _ => true) s label = true ∧ givesUpNone config s label = true ∧
      (match label with
        | .initiate request => (match request.principal with
            | .ok principal => unsaturated config s.db principal request.size
            | .error _ => true)
        | _ => true) = true)
    (by cases label <;> simp [Accountable])

theorem notGivenUp_reach (h : Reach (step config) (Accountable config) Initial s) :
    NotGivenUp s := by
  refine h.invariant_with (fun _ => reach_sound) (fun s hs => ?_)
    fun s l s' hs hgiven hg hstep => notGivenUp_step hstep hs hg.2.1 hgiven
  rw [NotGivenUp, hs.2.1]
  exact fun op hop => absurd hop List.not_mem_nil

theorem failedQuiet_reach (h : Reach (step config) (Accountable config) Initial s) :
    FailedQuiet config s := by
  refine h.invariant_with
    (fun _ hr => And.intro (And.intro (reach_sound hr) (quiescent_reach hr))
      (answeredQuiet_reach (p := fun _ => true) (fun _ _ hg => hg.1) hr))
    (fun s hs => ?_) fun s l s' hs hfailed _ hstep =>
      failedQuiet_step hstep hs.1.1 hs.1.2 hs.2 hfailed
  rw [FailedQuiet, hs.1]
  exact fun o ho => absurd ho List.not_mem_nil

/-- An operation that serves a failed object and is not open has been completed. -/
theorem serves_completed {o : StoredObject} (hs : s.Sound) (hgiven : NotGivenUp s)
    (ho : o ∈ s.db.objects) (hstatus : o.status = .failed) {kind : Kind}
    (hkind : kind ≠ .reconcile) {op : ObjectOperation} (hop : op ∈ s.db.operations)
    (hserves : op.Serves o kind) (hclosed : op.isOpen = false) : op.status = .completed := by
  have hnotFailed : op.status ≠ .failed := fun hfailed => by
    obtain ⟨row, hrow, hid, -, hrowstatus⟩ := hgiven op hop (hserves.kind ▸ hkind) hfailed
    rw [hs.tables.eq_of_id hrow ho (hid.trans hserves.objectId)] at hrowstatus
    exact hrowstatus hstatus
  have hcancelled := hserves.status
  revert hnotFailed hcancelled hclosed
  unfold ObjectOperation.isOpen
  cases op.status <;> simp

/-- **What the sum of the retained bytes leaves out has no body.** -/
theorem uncounted_empty (h : Reach (step config) (Accountable config) Initial s)
    {o : StoredObject} (ho : o ∈ s.db.objects) (huncounted : isRetained s.db o = false) :
    s.staging o.id = none ∧ s.final o.id = none := by
  have hs := reach_sound h
  unfold isRetained at huncounted
  split at huncounted
  · cases huncounted
  · cases huncounted
  · cases huncounted
  · rename_i hstatus
    have hclosed : ∀ op ∈ s.db.operations, op.objectId = o.id → op.isOpen = false := by
      simpa [List.any_eq_false] using huncounted
    obtain ⟨upload, hupload, huploads⟩ := hs.tables.upload o ho (.inl hstatus)
    obtain ⟨final, hfinal, hfinals⟩ := hs.tables.final o ho hstatus
    have hgiven := notGivenUp_reach h
    have huploaded := serves_completed hs hgiven ho hstatus (by simp) hupload huploads
      (hclosed upload hupload huploads.objectId)
    have hdeleted := serves_completed hs hgiven ho hstatus (by simp) hfinal hfinals
      (hclosed final hfinal hfinals.objectId)
    refine ⟨?_, (failedQuiet_reach h o ho hstatus final hfinal hfinals.objectId hfinals.kind
      hdeleted).empty⟩
    rw [← huploads.objectId]
    exact ((quiescent_reach h).completed upload hupload huploads.kind huploaded).1
  · rename_i hstatus
    exact ⟨(deletedStaging_reach h o ho hstatus).1, (deletedQuiet_reach (p := fun _ => true) rfl
      (fun _ _ hg => hg.1) h o ho hstatus).empty⟩

/-! ## Every grant -/

/-- **The storage quota is sound**, in a run in which no deletion of a failed object
is given up and no copy is about to land when a final key is deleted: whatever a
participant is granted, what its principal keeps with the new object is within its
quotas, and what the sum of its retained bytes leaves out has no body. -/
theorem quota_sound (h : Reach (step config) (Accountable config) Initial s)
    {request : UploadRequest} (hguard : Accountable config s (.initiate request))
    (hstep : step config (.initiate request) s = some s') (hadmin : request.isAdmin = false) :
    ∃ principal, request.principal = .ok principal ∧ principal ≠ .target ∧
      ((∃ o ∈ s'.db.objects, o ∉ s.db.objects) → WithinQuotas config s'.db principal) ∧
      ∀ o ∈ s'.db.ownedBy principal, isRetained s'.db o = false →
        s'.staging o.id = none ∧ s'.final o.id = none := by
  obtain ⟨db, hdb, rfl⟩ := step_initiate hstep
  have hreach : Reach (step config) (Accountable config) Initial { s with db } :=
    .step _ h hguard hstep
  have huncounted (principal : Principal) : ∀ o ∈ db.ownedBy principal, isRetained db o = false →
      s.staging o.id = none ∧ s.final o.id = none := fun o ho hretained =>
    uncounted_empty hreach (List.mem_of_mem_filter ho) hretained
  obtain ⟨⟨⟩, hvalid, hrest⟩ := bind_eq_ok.mp hdb
  obtain ⟨principal, hprincipal, -⟩ := bind_eq_ok.mp hrest
  obtain ⟨⟨⟩, hasset, -⟩ := bind_eq_ok.mp hvalid
  have hasset : request.purpose.isAsset = false := by
    simpa [hadmin] using ensure_eq_ok.mp hasset
  have hcases := principal_cases hasset hprincipal
  have hne : principal ≠ .target := by
    rcases hcases with ⟨teamId, rfl⟩ | rfl <;> simp
  refine ⟨principal, hprincipal, hne, fun ⟨o, ho, hnew⟩ => ?_, huncounted principal⟩
  rcases initiateUpload_eq hdb with rfl |
    ⟨principal', expectedIcon, hprincipal', -, -, hquota, hfresh, rfl⟩
  · exact absurd ho hnew
  · cases hprincipal.symm.trans hprincipal'
    obtain ⟨-, -, hsums⟩ := hguard
    simp only [hprincipal] at hsums
    rw [checkQuota, hadmin, if_neg Bool.false_ne_true] at hquota
    obtain ⟨hobjects, hpending, hretained⟩ := enforceStorageQuota_bounds hne hquota hsums
    obtain ⟨hlength, hbytes, hkept⟩ :=
      insertUpload_sums (principal_owns hcases s.now expectedIcon) rfl rfl hfresh
    refine ⟨?_, ?_, ?_⟩
    · rw [hlength]
      exact_mod_cast hobjects
    · rw [hbytes]
      exact hpending
    · rw [hkept]
      exact hretained

theorem quota_sound_submission :
    ∃ s s', runIf (step oneAttempt) (Accountable oneAttempt) deletedSubmission unused = some s ∧
      step oneAttempt (.initiate (submission 2 "k2" 1805000000)) s = some s' ∧
      WithinQuotas oneAttempt s'.db (.user 7) ∧ s'.final 1 = none := by
  have hrun : (runIf (step oneAttempt) (Accountable oneAttempt) deletedSubmission unused).any
      (fun s => decide (Accountable oneAttempt s (.initiate (submission 2 "k2" 1805000000))) &&
        (step oneAttempt (.initiate (submission 2 "k2" 1805000000)) s).any fun s' =>
          (s'.db.objects.any fun o => decide (o ∉ s.db.objects)) &&
          (s'.db.ownedBy (.user 7)).any fun o => o.id = 1 && ! isRetained s'.db o) = true := by
    decide +kernel
  obtain ⟨s, hs, hp⟩ := (Option.any_eq_true _ _).mp hrun
  obtain ⟨hguard, hafter⟩ := Bool.and_eq_true_iff.mp hp
  obtain ⟨s', hstep, hp'⟩ := (Option.any_eq_true _ _).mp hafter
  obtain ⟨hnew, hgone⟩ := Bool.and_eq_true_iff.mp hp'
  obtain ⟨o, ho, ho'⟩ := List.any_eq_true.mp hnew
  obtain ⟨old, hold, hp⟩ := List.any_eq_true.mp hgone
  simp only [Bool.and_eq_true, decide_eq_true_eq, Bool.not_eq_true'] at hp
  obtain ⟨principal, hprincipal, -, hwithin, hempty⟩ :=
    quota_sound (reach_of_runIf _ (.init unused_initial) hs) (of_decide_eq_true hguard) hstep rfl
  cases hprincipal
  exact ⟨s, s', hs, hstep, hwithin ⟨o, ho, of_decide_eq_true ho'⟩,
    hp.1 ▸ (hempty old hold hp.2).2⟩

/-- An upload is not completed in time; the deletion of its staging key fails as
often as it may be tried. -/
def givenUpUpload : List Label :=
  [.initiate (submission 1 "k" 0), .startPut 1 tenBytes, .serve 0, .tick 900000000,
    .startJob 0 0, .beginJob 1, .startJob 2 0, .beginJob 2, .serve 3, .resumeJob 2, .tick 5000000,
    .startJob 1 0, .beginJob 4, .reject 5, .breakJob 4, .retryJob 4]

/-- An object whose deletion was given up is left out of the sum while its body is
still stored. -/
theorem quota_unsound :
    ¬ ∀ (config : Config) (s s' : System) (request : UploadRequest),
      Reach (step config) anyStep Initial s → step config (.initiate request) s = some s' →
      request.isAdmin = false → ∃ principal, request.principal = .ok principal ∧
        ∀ o ∈ s'.db.ownedBy principal, isRetained s'.db o = false →
          s'.staging o.id = none ∧ s'.final o.id = none := by
  have hrun : (run (step oneAttempt) givenUpUpload unused).any (fun s =>
      (step oneAttempt (.initiate (submission 2 "k2" 905000000)) s).any fun s' =>
        (s'.staging 1).isSome && (s'.db.ownedBy (.user 7)).any fun o =>
          o.id = 1 && ! isRetained s'.db o) = true := by decide +kernel
  obtain ⟨s, hs, hafter⟩ := (Option.any_eq_true _ _).mp hrun
  obtain ⟨s', hstep, hp⟩ := (Option.any_eq_true _ _).mp hafter
  obtain ⟨hbody, hany⟩ := Bool.and_eq_true_iff.mp hp
  obtain ⟨o, ho, ho'⟩ := List.any_eq_true.mp hany
  simp only [Bool.and_eq_true, decide_eq_true_eq, Bool.not_eq_true'] at ho'
  intro hsound
  obtain ⟨principal, hprincipal, hempty⟩ := hsound oneAttempt s s' _
    (reach_of_run _ unused_initial hs) hstep rfl
  cases hprincipal
  have hnone := (hempty o ho ho'.2).1
  rw [ho'.1] at hnone
  rw [hnone] at hbody
  cases hbody

end CtfZone.Storage
