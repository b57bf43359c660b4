/-
# The transactions of the storage

Each transaction of the API and of the controller, on the tables, as the changes
it is made of.

* `Changes.retireWhere` : the rows a statement selects are retired one by one;
* one lemma for every function of `StorageApi` and `StorageWorker` that writes.
-/
import CtfZone.StorageMoves

namespace CtfZone.Storage

open Tables Relation

variable {grounds : Grounds} {now : Time} {db db' : Database} {config : Config}

/-! ## Rows that are looked up -/

theorem object_mem {id : Uuid} {o : StoredObject} (h : db.object id = some o) :
    o ∈ db.objects ∧ o.id = id := by
  have hid := List.find?_some (p := fun o : StoredObject => decide (o.id = id)) h
  exact ⟨List.mem_of_find?_eq_some h, of_decide_eq_true hid⟩

theorem category_mem {id : ℤ} {c : Category} (h : db.category id = some c) :
    c ∈ db.categories ∧ c.id = id := by
  have hid := List.find?_some (p := fun c : Category => decide (c.id = id)) h
  exact ⟨List.mem_of_find?_eq_some h, of_decide_eq_true hid⟩

/-! ## Rows that are retired -/

/-- A row that is not the one retired stays as it is. -/
theorem mem_retire {current o : StoredObject} (ho : o ∈ db.objects) (hne : o.id ≠ current.id) :
    o ∈ (db.retire now current).objects := by
  rw [retire_objects]
  split
  · exact ho
  · exact mem_updateObject.mpr ⟨o, ho, .inr ⟨fun h => hne h.1, rfl⟩⟩

theorem Changes.retireAll {l : List StoredObject} (hnodup : (l.map StoredObject.id).Nodup)
    (hmem : ∀ o ∈ l, o ∈ db.objects) :
    Changes grounds now db (l.foldl (fun db current => db.retire now current) db) := by
  induction l generalizing db with
  | nil => exact .refl
  | cons current l ih =>
      rw [List.map_cons, List.nodup_cons] at hnodup
      have hcurrent : current ∈ db.objects := hmem current List.mem_cons_self
      refine .head (.retire current ⟨current, hcurrent, rfl, rfl, rfl⟩)
        (ih hnodup.2 fun o ho => mem_retire (hmem o (List.mem_cons_of_mem current ho)) ?_)
      intro hid
      exact hnodup.1 (hid ▸ List.mem_map_of_mem ho)

/-- **The rows that meet a condition are retired one by one.** -/
theorem Changes.retireWhere (hnodup : (db.objects.map StoredObject.id).Nodup)
    (p : StoredObject → Bool) : Changes grounds now db (db.retireWhere now p) :=
  Changes.retireAll (hnodup.sublist (List.filter_sublist.map StoredObject.id))
    fun _ ho => List.mem_of_mem_filter ho

/-- A row, retired if it meets a condition and is not on its way out. -/
def StoredObject.retired (p : StoredObject → Bool) (o : StoredObject) : StoredObject :=
  if p o = true ∧ ¬ (o.status = .deleting ∨ o.status = .deleted) then o.moved .deleting else o

@[simp] theorem retired_id (p : StoredObject → Bool) (o : StoredObject) :
    (o.retired p).id = o.id := by
  unfold StoredObject.retired
  split <;> rfl

/-- The rows after one of them has been retired. -/
theorem retire_objects_map (hnodup : (db.objects.map StoredObject.id).Nodup)
    {current : StoredObject} (hmem : current ∈ db.objects) :
    (db.retire now current).objects =
      db.objects.map (·.retired fun o => decide (o = current)) := by
  have heq {o : StoredObject} (ho : o ∈ db.objects) :
      o.id = current.id ∧ o.revision = current.revision ↔ o = current := by
    refine ⟨fun h => List.inj_on_of_nodup_map hnodup ho hmem h.1, ?_⟩
    rintro rfl
    exact ⟨rfl, rfl⟩
  rw [retire_objects]
  split
  · rename_i hgone
    refine ((List.map_congr_left fun o ho => ?_).trans (List.map_id _)).symm
    unfold StoredObject.retired
    rw [if_neg]
    · rfl
    · rintro ⟨hp, hne⟩
      rw [of_decide_eq_true hp] at hne
      exact hne hgone
  · rename_i hgone
    refine List.map_congr_left fun o ho => ?_
    unfold StoredObject.retired updateRow
    simp only [Bool.and_eq_true, decide_eq_true_eq, heq ho]
    by_cases h : o = current
    · rw [if_pos h, if_pos ⟨h, h ▸ hgone⟩]
    · rw [if_neg h, if_neg fun h' => h h'.1]

theorem retireAll_objects {l : List StoredObject} (hnodup : (db.objects.map StoredObject.id).Nodup)
    (hl : (l.map StoredObject.id).Nodup) (hmem : ∀ o ∈ l, o ∈ db.objects) :
    (l.foldl (fun db current => db.retire now current) db).objects =
      db.objects.map (·.retired fun o => decide (o ∈ l)) := by
  induction l generalizing db with
  | nil =>
      refine ((List.map_congr_left fun o _ => ?_).trans (List.map_id _)).symm
      simp [StoredObject.retired]
  | cons current l ih =>
      rw [List.map_cons, List.nodup_cons] at hl
      have hcurrent : current ∈ db.objects := hmem current List.mem_cons_self
      have hrows : (db.retire now current).objects = _ := retire_objects_map hnodup hcurrent
      have hids : ((db.retire now current).objects.map StoredObject.id).Nodup := by
        rw [hrows, List.map_map]
        have hsame : StoredObject.id ∘ (·.retired fun o => decide (o = current)) =
            StoredObject.id := by
          funext o
          exact retired_id _ o
        rw [hsame]
        exact hnodup
      have hne {o : StoredObject} (ho : o ∈ l) : o.id ≠ current.id := fun hid =>
        hl.1 (hid ▸ List.mem_map_of_mem ho)
      rw [List.foldl_cons, ih hids hl.2 fun o ho =>
        mem_retire (hmem o (List.mem_cons_of_mem current ho)) (hne ho), hrows, List.map_map]
      refine List.map_congr_left fun o ho => ?_
      by_cases h : o = current
      · -- the row just retired, or on its way out before, is not one of the others
        subst h
        have hout {o' : StoredObject} (hid : o'.id = o.id) : o' ∉ l := fun hin => hne hin hid
        unfold Function.comp StoredObject.retired
        by_cases hgone : o.status = .deleting ∨ o.status = .deleted
        · simp [hgone, hout rfl]
        · have : o.moved .deleting ∉ l := hout rfl
          simp [hgone, this]
      · unfold Function.comp StoredObject.retired
        simp [h]

/-- **The rows after the rows that meet a condition have been retired.** -/
theorem retireWhere_objects (hnodup : (db.objects.map StoredObject.id).Nodup)
    (p : StoredObject → Bool) :
    (db.retireWhere now p).objects = db.objects.map (·.retired p) := by
  unfold Database.retireWhere
  rw [retireAll_objects hnodup (hnodup.sublist (List.filter_sublist.map StoredObject.id))
    fun _ ho => List.mem_of_mem_filter ho]
  refine List.map_congr_left fun o ho => ?_
  unfold StoredObject.retired
  simp [List.mem_filter, ho]

/-- The icon of a category is set, and rows are retired. -/
theorem Changes.setIcon (hnodup : (db.objects.map StoredObject.id).Nodup) (categoryId : ℤ)
    (icon : Option Uuid) (p : StoredObject → Bool) :
    Changes grounds now db ((db.setIcon categoryId icon).retireWhere now p) := by
  have hnodup' : ((db.setIcon categoryId icon).objects.map StoredObject.id).Nodup := hnodup
  exact .head (.icon _) (Changes.retireWhere hnodup' p)

/-! ## The API -/

theorem Changes.insertUpload {row : StoredObject} (hstatus : row.status = .pending)
    (hrevision : row.revision = 1) (hfresh : ∀ o ∈ db.objects, o.id ≠ row.id) :
    Changes grounds now db (db.insertUpload row) := by
  have hinsert : Change grounds now db { db with objects := db.objects ++ [row] } :=
    .insert row hstatus hrevision hfresh
  refine .tail (.single hinsert) (.enqueue _ _ _ _ ⟨row, ?_, rfl, .inl rfl⟩)
  exact List.mem_append_right _ (List.mem_singleton_self row)

/-- What a granted upload has passed. -/
theorem initiateUpload_eq {request : UploadRequest}
    (h : initiateUpload config db now request = .ok db') :
    db' = db ∨ ∃ principal expectedIcon,
      request.principal = .ok principal ∧ expectedIconObjectId db request = .ok expectedIcon ∧
      request.target.fits request.purpose = true ∧
      checkQuota config db now principal request = .ok ⟨⟩ ∧
      (∀ o ∈ db.objects, o.id ≠ request.objectId) ∧
      db' = db.insertUpload (request.row config principal now expectedIcon) := by
  obtain ⟨⟨⟩, hvalid, h⟩ := bind_eq_ok.mp h
  obtain ⟨principal, hprincipal, h⟩ := bind_eq_ok.mp h
  obtain ⟨expectedIcon, hicon, h⟩ := bind_eq_ok.mp h
  split at h
  · obtain ⟨-, -, h⟩ := bind_eq_ok.mp h
    obtain ⟨-, -, h⟩ := bind_eq_ok.mp h
    cases h
    exact .inl rfl
  · obtain ⟨⟨⟩, hquota, h⟩ := bind_eq_ok.mp h
    obtain ⟨⟨⟩, hensure, h⟩ := bind_eq_ok.mp h
    cases h
    obtain ⟨-, -, hvalid⟩ := bind_eq_ok.mp hvalid
    obtain ⟨-, -, hvalid⟩ := bind_eq_ok.mp hvalid
    refine .inr ⟨principal, expectedIcon, hprincipal, hicon, ensure_eq_ok.mp hvalid, hquota, ?_,
      rfl⟩
    have hfresh := ensure_eq_ok.mp hensure
    simp only [Bool.and_eq_true, Bool.not_eq_true', List.any_eq_false, decide_eq_true_eq]
      at hfresh
    exact hfresh.2

theorem Changes.initiateUpload {request : UploadRequest}
    (h : initiateUpload config db now request = .ok db') : Changes grounds now db db' := by
  rcases initiateUpload_eq h with rfl | ⟨principal, icon, -, -, -, -, hfresh, rfl⟩
  · exact .refl
  · exact .insertUpload rfl rfl hfresh

theorem Changes.failUpload {current : StoredObject} (hmem : current ∈ db.objects) :
    Changes grounds now db (failUpload db now current) := by
  unfold Storage.failUpload
  split
  · exact .refl
  · rename_i hpending
    exact .single (.fail current true hmem (not_not.mp hpending))

theorem Changes.scheduleDelete {current : StoredObject} (hmem : current ∈ db.objects)
    (h : scheduleDelete db now current = some db') : Changes grounds now db db' := by
  unfold Storage.scheduleDelete at h
  split at h
  · cases h
  · cases h
    exact .single (.retire current ⟨current, hmem, rfl, rfl, rfl⟩)

theorem Changes.deleteCategoryIcon (hnodup : (db.objects.map StoredObject.id).Nodup)
    {categoryId : ℤ} {objectId : Uuid}
    (h : deleteCategoryIcon db now categoryId objectId = some db') :
    Changes grounds now db db' := by
  unfold Storage.deleteCategoryIcon at h
  split at h
  · cases h
  · cases h
    exact .setIcon hnodup categoryId none _

theorem Changes.assignIcon {categoryId : ℤ} {objectId : Uuid}
    (h : assignIcon db categoryId objectId = some db') : Changes grounds now db db' := by
  unfold Storage.assignIcon at h
  split at h
  · cases h
    exact .single (.icon _)
  · cases h

theorem Changes.deleteParent (hnodup : (db.objects.map StoredObject.id).Nodup)
    (parent : Parent) : Changes grounds now db (db.deleteParent now parent) := by
  refine .tail (Changes.retireWhere hnodup parent.links) (.detach parent _ fun o ho hlinks => ?_)
  rw [retireWhere_objects hnodup] at ho
  obtain ⟨row, -, rfl⟩ := List.mem_map.mp ho
  unfold StoredObject.retired at hlinks ⊢
  split
  · exact .inr (.inl rfl)
  · rename_i hretired
    rw [if_neg hretired] at hlinks
    by_contra hlost
    exact hretired ⟨hlinks, fun hgone => hlost (.inr hgone)⟩

/-- What an attachment has found. -/
theorem attachIcon_eq {current : StoredObject} {categoryId : ℤ}
    (h : db.attachIcon now current categoryId = some db') :
    ∃ category, db.category categoryId = some category ∧
      category.iconObjectId = current.expectedIcon ∧
      db' = (db.setIcon categoryId (some current.id)).retireWhere now fun o =>
        current.expectedIcon = some o.id || (isPendingIcon categoryId o && o.id ≠ current.id) := by
  unfold Database.attachIcon at h
  split at h
  · cases h
  · rename_i category hcategory
    split at h
    · cases h
    · rename_i hicon
      split at h
      · cases h
      · cases h
        exact ⟨category, hcategory, not_not.mp hicon, rfl⟩

theorem Changes.attachIcon (hnodup : (db.objects.map StoredObject.id).Nodup)
    {current : StoredObject} {categoryId : ℤ}
    (h : db.attachIcon now current categoryId = some db') : Changes grounds now db db' := by
  obtain ⟨-, -, -, rfl⟩ := attachIcon_eq h
  exact .setIcon hnodup categoryId (some current.id) _

/-- The rows of a promoted object. -/
def Database.promote (db : Database) (current : StoredObject) (size : ℤ) : Database :=
  db.updateObject current fun o => { o.moved .ready with actualSize := some size }

/-- What a completion has found, and the tables before the staging key is queued
for its cleanup. -/
theorem commitComplete_eq {current : StoredObject} {size : ℤ}
    (h : commitComplete db now current size = some db') :
    ∃ row attached, db.object current.id = some row ∧ row.status = .pending ∧
      row.revision = current.revision ∧
      (current.iconCategory = none ∧ attached = db.promote current size ∨
        ∃ categoryId, current.iconCategory = some categoryId ∧
          (db.promote current size).attachIcon now current categoryId = some attached) ∧
      db' = (attached.cancelOpen now current.id (· = .reconcile)).enqueueOperation current.id
        .deleteUpload (current.revision + 1) (stagingCleanupAt current.uploadExpiresAt) := by
  unfold Storage.commitComplete at h
  obtain ⟨row, hrow, h⟩ := Option.bind_eq_some_iff.mp h
  split at h
  · cases h
  · rename_i hcurrent
    push Not at hcurrent
    dsimp only at h
    split at h
    · rename_i categoryId hcategory
      obtain ⟨attached, hattached, h⟩ := Option.bind_eq_some_iff.mp h
      cases h
      exact ⟨row, attached, hrow, hcurrent.1, hcurrent.2, .inr ⟨categoryId, hcategory, hattached⟩,
        rfl⟩
    · rename_i hcategory
      cases h
      exact ⟨row, _, hrow, hcurrent.1, hcurrent.2, .inl ⟨hcategory, rfl⟩, rfl⟩

theorem Changes.commitComplete (hs : db.Sound) {current : StoredObject} {size : ℤ}
    (h : commitComplete db now current size = some db') : Changes grounds now db db' := by
  obtain ⟨row, attached, hfound, hstatus, hrevision, hattached, rfl⟩ := commitComplete_eq h
  obtain ⟨hrow, hid⟩ := object_mem hfound
  have hpromote : Change grounds now db (db.promote current size) :=
    .promote current size fun o ho hoid _ => by
      rw [hs.eq_of_id ho hrow (hoid.trans hid.symm), hstatus]
  have hpromoted : (db.promote current size).Sound := hpromote.sound hs
  have hattach : Changes grounds now (db.promote current size) attached := by
    rcases hattached with ⟨-, rfl⟩ | ⟨categoryId, -, h⟩
    · exact .refl
    · exact .attachIcon hpromoted.objects h
  -- the promoted row, wherever the attachment has left it
  have hready : { row.moved .ready with actualSize := some size } ∈
      (db.promote current size).objects :=
    mem_updateObject.mpr ⟨row, hrow, .inl ⟨⟨hid, hrevision⟩, rfl⟩⟩
  obtain ⟨o, ho, hbecomes⟩ := (hattach.rows hpromoted).persist _ hready
  have hoid : o.id = current.id := hbecomes.id.trans hid
  refine .tail (.tail (.head hpromote hattach) (.cancel
    (fun op => op.objectId = current.id && op.isOpen && decide (op.kind = .reconcile))
    fun op _ hp => ?_)) (.enqueue _ _ _ _ ⟨o, ho, hoid, .inr (hbecomes.not_pending (by simp [StoredObject.moved]))⟩)
  simp only [Bool.and_eq_true, decide_eq_true_eq] at hp
  refine ⟨hp.1.2, o, ho, hoid.trans hp.1.1.symm, .inr ?_⟩
  rw [hp.2]
  trivial

/-! ## The queue -/

theorem updateClaimed_eq {op : ObjectOperation} {f : ObjectOperation → ObjectOperation}
    (h : db.updateClaimed op f = some db') :
    (∃ row ∈ db.operations, op.holds row = true) ∧
      db' = { db with operations := update op.holds f db.operations } := by
  unfold Database.updateClaimed at h
  split at h
  · rename_i hany
    cases h
    exact ⟨List.any_eq_true.mp hany, rfl⟩
  · cases h

/-- The row a worker holds is about what its record is about. -/
theorem Matches.held {op : ObjectOperation} (h : Matches db op) :
    ∀ row ∈ db.operations, op.holds row = true → row.status = .claimed ∧ row.key = op.key := by
  intro row hrow hheld
  simp only [ObjectOperation.holds, Bool.and_eq_true, decide_eq_true_eq] at hheld
  exact ⟨hheld.1.2, h.2 row hrow hheld.1.1⟩

theorem Changes.recoverStaleClaims : Changes grounds now db (recoverStaleClaims config db now) := by
  refine .single (.reopen _ _ fun op _ hp => ?_)
  simp only [Bool.and_eq_true, decide_eq_true_eq] at hp
  exact ⟨by simp [ObjectOperation.isOpen, hp.1], rfl, rfl⟩

theorem Changes.claimOperation (hs : db.Sound) {id worker : ℕ} {op : ObjectOperation}
    (h : claimOperation db now id worker = some (op, db')) : Changes grounds now db db' := by
  unfold Storage.claimOperation at h
  split at h
  · cases h
  · rename_i row hfound
    have hrow := List.mem_of_find?_eq_some hfound
    have hp := List.find?_some hfound
    simp only [Bool.and_eq_true, decide_eq_true_eq] at hp
    cases h
    have hsame : ∀ op ∈ db.operations, decide (op.id = id) = true → op = row := fun op hop hid =>
      hs.op_eq_of_id hop hrow ((of_decide_eq_true hid).trans hp.1.1.symm)
    refine .single (.reopen _ _ fun op hop hid => ?_)
    rw [hsame op hop hid]
    exact ⟨by simp [ObjectOperation.isOpen, hp.1.2], by simp [ObjectOperation.isOpen], rfl⟩

/-- A claim leaves a record of the row, which is now claimed. -/
theorem Matches.claimOperation (hs : db.Sound) {id worker : ℕ} {op : ObjectOperation}
    (h : claimOperation db now id worker = some (op, db')) : Matches db' op := by
  unfold Storage.claimOperation at h
  split at h
  · cases h
  · rename_i row hfound
    have hp := List.find?_some hfound
    simp only [Bool.and_eq_true, decide_eq_true_eq] at hp
    cases h
    refine ⟨hs.next row (List.mem_of_find?_eq_some hfound), fun op' hop' hid => ?_⟩
    obtain ⟨op, hop, ⟨-, rfl⟩ | ⟨hne, rfl⟩⟩ := mem_update.mp hop'
    · rfl
    · have heq : op.id = row.id := hid
      simp [heq, hp.1.1] at hne

theorem Changes.deferOperation {op : ObjectOperation} {t : Time} (hm : Matches db op)
    (h : deferOperation db op t = some db') : Changes grounds now db db' := by
  obtain ⟨-, rfl⟩ := updateClaimed_eq h
  refine .single (.reopen _ _ fun row hrow hheld => ⟨?_, rfl, rfl⟩)
  simp [ObjectOperation.isOpen, (hm.held row hrow hheld).1]

theorem Changes.completeOperation {op : ObjectOperation} (hm : Matches db op)
    (hreason : grounds.completes op) (h : completeOperation db now op = some db') :
    Changes grounds now db db' := by
  obtain ⟨-, rfl⟩ := updateClaimed_eq h
  exact .single (.complete op _ hreason hm.held)

theorem Outdated.of_key {op row : ObjectOperation} (h : Outdated db op) (hkey : row.key = op.key) :
    Outdated db row := by
  obtain ⟨o, ho, hid, hreason⟩ := h
  have hobject : row.objectId = op.objectId := congrArg (·.2.1) hkey
  have hkind : row.kind = op.kind := congrArg (·.2.2.1) hkey
  have hrevision : row.objectRevision = op.objectRevision := congrArg (·.2.2.2) hkey
  exact ⟨o, ho, hid.trans hobject.symm, by rwa [hrevision, hkind]⟩

theorem Changes.cancelOperation {op : ObjectOperation} (hm : Matches db op)
    (hold : Outdated db op) (h : cancelOperation db now op = some db') :
    Changes grounds now db db' := by
  obtain ⟨-, rfl⟩ := updateClaimed_eq h
  refine .single (.cancel _ fun row hrow hheld => ?_)
  obtain ⟨hclaimed, hkey⟩ := hm.held row hrow hheld
  exact ⟨by simp [ObjectOperation.isOpen, hclaimed], hold.of_key hkey⟩

theorem Changes.scheduleRetry {op : ObjectOperation} (hm : Matches db op)
    (hreason : config.maxAttempts ≤ op.attempts → (∃ row ∈ db.operations, op.holds row = true) →
      grounds.givesUp db op) : Changes grounds now db (scheduleRetry config db now op) := by
  unfold Storage.scheduleRetry
  split
  · rename_i hattempts
    cases h : db.updateClaimed op (·.closed .failed now) with
    | none => exact .refl
    | some db' =>
        obtain ⟨hheld, rfl⟩ := updateClaimed_eq h
        exact .single (.giveUp op _ (hreason hattempts hheld) hm.held)
  · cases h : db.updateClaimed op
      (·.requeued (now + seconds (retryBackoffSeconds op.attempts)) id) with
    | none => exact .refl
    | some db' =>
        obtain ⟨-, rfl⟩ := updateClaimed_eq h
        refine .single (.reopen _ _ fun row hrow hheld => ⟨?_, rfl, rfl⟩)
        simp [ObjectOperation.isOpen, (hm.held row hrow hheld).1]

/-! ## Execution -/

theorem Outcome.ofOption_eq {after : Option Database} (h : Outcome.ofOption after = .commit db') :
    after = some db' := by
  cases after with
  | none => cases h
  | some =>
      cases h
      rfl

theorem Changes.reconcileUpload {op : ObjectOperation} {o : StoredObject} (ho : o ∈ db.objects)
    (hid : o.id = op.objectId) (hm : Matches db op) (hkind : op.kind = .reconcile)
    (hreason : grounds.completes op) (h : reconcileUpload db now op o = .commit db') :
    Changes grounds now db db' := by
  unfold Storage.reconcileUpload at h
  have hout : Outdated db op := ⟨o, ho, hid, .inr (by rw [hkind]; trivial)⟩
  split at h
  · exact .cancelOperation hm hout (Outcome.ofOption_eq h)
  · split at h
    · exact .cancelOperation hm hout (Outcome.ofOption_eq h)
    · rename_i hpending
      split at h
      · cases h
        cases hdefer : Storage.deferOperation db op o.uploadExpiresAt with
        | none => exact .refl
        | some => exact .deferOperation hm hdefer
      · have hfail : Change grounds now db (db.fail now o false) :=
          .fail o false ho (not_not.mp hpending)
        exact .head hfail (Changes.completeOperation (hm.keep hfail.ops) hreason (Outcome.ofOption_eq h))

theorem Changes.beginDeleteUpload {op : ObjectOperation} {o : StoredObject} (ho : o ∈ db.objects)
    (hid : o.id = op.objectId) (hm : Matches db op) (hkind : op.kind = .deleteUpload)
    (h : beginDeleteUpload db now op o = .commit db') : Changes grounds now db db' := by
  unfold Storage.beginDeleteUpload at h
  split at h
  · rename_i hrevision
    exact .cancelOperation hm ⟨o, ho, hid, .inl hrevision⟩ (Outcome.ofOption_eq h)
  · split at h
    · rename_i hpending
      exact .cancelOperation hm ⟨o, ho, hid, .inr (by rwa [hkind])⟩ (Outcome.ofOption_eq h)
    · cases h

theorem Changes.finishDeleteUpload {op : ObjectOperation} {o : StoredObject}
    (hm : Matches db op) (hreason : grounds.completes op)
    (h : finishDeleteUpload db now op o = .commit db') : Changes grounds now db db' := by
  unfold Storage.finishDeleteUpload at h
  split at h
  · cases h
  · rename_i completed hcompleted
    cases h
    refine ReflTransGen.tail (Changes.completeOperation hm hreason hcompleted) (.reopen _ _ fun row _ hp => ?_)
    simp only [Bool.and_eq_true, decide_eq_true_eq] at hp
    exact ⟨by simp [ObjectOperation.isOpen, hp.2], by simp [ObjectOperation.isOpen, hp.2], rfl⟩

theorem Changes.beginDelete {op : ObjectOperation} {o : StoredObject} (ho : o ∈ db.objects)
    (hid : o.id = op.objectId) (hm : Matches db op) (hkind : op.kind = .delete)
    (hreason : o.status = .deleted → grounds.completes op)
    (h : beginDelete config db now op o = .commit db') : Changes grounds now db db' := by
  have hout (hstatus : o.status = .pending ∨ o.status = .ready) : Outdated db op :=
    ⟨o, ho, hid, .inr (by rwa [hkind])⟩
  unfold Storage.beginDelete at h
  split at h
  · rename_i hrevision
    exact .cancelOperation hm ⟨o, ho, hid, .inl hrevision⟩ (Outcome.ofOption_eq h)
  · split at h
    · rename_i hstatus
      exact .completeOperation hm (hreason hstatus) (Outcome.ofOption_eq h)
    · rename_i hstatus
      exact .cancelOperation hm (hout (.inl hstatus)) (Outcome.ofOption_eq h)
    · rename_i hstatus
      exact .cancelOperation hm (hout (.inr hstatus)) (Outcome.ofOption_eq h)
    · cases h
    · split at h
      · exact .deferOperation hm (Outcome.ofOption_eq h)
      · cases h

theorem Changes.finishDelete (hs : db.Sound) {op : ObjectOperation} {o : StoredObject}
    (hm : Matches db op) (hcompletes : grounds.completes op)
    (hfinishes : o.status = .deleting → grounds.finishes o)
    (h : finishDelete db now op o = .commit db') : Changes grounds now db db' := by
  unfold Storage.finishDelete at h
  split at h
  · rename_i hdeleting
    split at h
    · rename_i hany
      obtain ⟨row, hrow, hp⟩ := List.any_eq_true.mp hany
      simp only [Bool.and_eq_true, decide_eq_true_eq] at hp
      have hfinish : Change grounds now db (db.updateObject o (·.moved .deleted)) :=
        .finish o (hfinishes hdeleting) fun o' ho' hid _ => by
          rw [hs.eq_of_id ho' hrow (hid.trans hp.1.1.symm), hp.2]
      exact .head hfinish
        (Changes.completeOperation (hm.keep hfinish.ops) hcompletes (Outcome.ofOption_eq h))
    · cases h
  · exact .completeOperation hm hcompletes (Outcome.ofOption_eq h)

end CtfZone.Storage
