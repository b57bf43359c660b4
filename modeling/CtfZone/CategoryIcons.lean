/-
# The icons of the categories

The icon of a category is changed by a completion, which compares it with the
snapshot the upload was given when it was initiated, and by a removal.  Either
retires every other pending upload for the category, so that a snapshot is never
compared with an icon that has come back.

* `Database.Icons` : an icon is a ready object of its category, a ready icon is
  attached, and a pending one carries the attached icon as its snapshot;
* `IconFrame` : what the steps do that leave the icons;
* `IconMove` : a step leaves the icons, attaches one or removes one;
* `category_icons` : every run.
-/
import CtfZone.StorageLifecycle

namespace CtfZone.Storage

open Tables Relation Runs

variable {config : Config} {label : Label} {s s' : System} {db db' : Database} {now : Time}

/-! ## Icons -/

theorem iconCategory_eq_some {o : StoredObject} {categoryId : ℤ} :
    o.iconCategory = some categoryId ↔
      o.purpose = .categoryIcon ∧ o.target.categoryId = some categoryId := by
  unfold StoredObject.iconCategory
  split <;> simp_all

/-- An icon belongs to a category and to nothing else. -/
def StoredObject.Shaped (o : StoredObject) : Prop :=
  o.purpose = .categoryIcon → o.scope = .target ∧ o.target.challengeId = none ∧
    o.target.pageId = none ∧ o.target.solutionId = none

/-- What the icons of a state have in common. -/
structure Database.Icons (db : Database) : Prop where
  unique : Unique (fun c : Category => some c.id) db.categories
  shaped : ∀ o ∈ db.objects, ¬ o.status.Lost → o.Shaped
  attached : ∀ c ∈ db.categories, ∀ x, c.iconObjectId = some x →
    ∃ o ∈ db.objects, o.id = x ∧ o.iconCategory = some c.id ∧ o.status = .ready
  ready : ∀ o ∈ db.objects, o.status = .ready → ∀ c ∈ db.categories,
    o.iconCategory = some c.id → c.iconObjectId = some o.id
  snapshot : ∀ o ∈ db.objects, o.status = .pending → ∀ c ∈ db.categories,
    o.iconCategory = some c.id → o.expectedIcon = c.iconObjectId

theorem Database.Icons.eq_of_id (h : db.Icons) {c c' : Category} (hc : c ∈ db.categories)
    (hc' : c' ∈ db.categories) (hid : c.id = c'.id) : c = c' :=
  h.unique c hc c' hc' c.id rfl (congrArg some hid.symm)

theorem not_lost_ready {status : Status} (h : status = .ready) : ¬ status.Lost := by
  rintro (hl | hl | hl) <;> rw [h] at hl <;> cases hl

theorem not_lost_pending {status : Status} (h : status = .pending) : ¬ status.Lost :=
  fun hl => hl.not_pending h

/-- An object that is not lost is the icon of what it was. -/
theorem Becomes.iconCategory {o o' : StoredObject} (h : Becomes o o') (hlost : ¬ o'.status.Lost) :
    o'.iconCategory = o.iconCategory := by
  unfold StoredObject.iconCategory
  rw [h.purpose, h.target.resolve_left hlost]

theorem Becomes.shaped {o o' : StoredObject} (h : Becomes o o') (hlost : ¬ o'.status.Lost)
    (ho : o.Shaped) : o'.Shaped := by
  unfold StoredObject.Shaped
  rw [h.purpose, h.scope, h.target.resolve_left hlost]
  exact ho

/-! ## Steps that leave the icons -/

/-- No icon of a category is attached or retired, and a new icon has the attached
one as its snapshot. -/
structure IconFrame (db db' : Database) : Prop where
  categories : ∀ c ∈ db'.categories, c ∈ db.categories
  ready : ∀ o ∈ db.objects, ∀ o' ∈ db'.objects, o'.id = o.id → ∀ c ∈ db'.categories,
    o.iconCategory = some c.id → (o'.status = .ready ↔ o.status = .ready)
  new : ∀ o' ∈ db'.objects, (∀ o ∈ db.objects, o.id ≠ o'.id) → o'.status ≠ .ready ∧ o'.Shaped ∧
    ∀ c ∈ db'.categories, o'.iconCategory = some c.id → o'.expectedIcon = c.iconObjectId

theorem Database.Icons.frame (h : db.Icons) (hframe : IconFrame db db') (hrows : RowsKeep db db') :
    db'.Icons where
  unique := fun c hc c' hc' =>
    h.unique c (hframe.categories c hc) c' (hframe.categories c' hc')
  shaped := by
    intro o' ho' hlost
    rcases hrows.origin o' ho' with ⟨o, ho, hb⟩ | ⟨-, hnew⟩
    · exact hb.shaped hlost (h.shaped o ho fun hl => hlost (hb.lost hl))
    · exact (hframe.new o' ho' hnew).2.1
  attached := by
    intro c hc x hx
    obtain ⟨o, ho, hid, hcategory, hready⟩ := h.attached c (hframe.categories c hc) x hx
    obtain ⟨o', ho', hb⟩ := hrows.persist o ho
    have hready' := (hframe.ready o ho o' ho' hb.id c hc hcategory).mpr hready
    refine ⟨o', ho', hb.id.trans hid, ?_, hready'⟩
    rw [hb.iconCategory (not_lost_ready hready')]
    exact hcategory
  ready := by
    intro o' ho' hready c hc hcategory
    rcases hrows.origin o' ho' with ⟨o, ho, hb⟩ | ⟨-, hnew⟩
    · rw [hb.iconCategory (not_lost_ready hready)] at hcategory
      rw [hb.id]
      exact h.ready o ho ((hframe.ready o ho o' ho' hb.id c hc hcategory).mp hready) c
        (hframe.categories c hc) hcategory
    · exact absurd hready (hframe.new o' ho' hnew).1
  snapshot := by
    intro o' ho' hpending c hc hcategory
    rcases hrows.origin o' ho' with ⟨o, ho, hb⟩ | ⟨-, hnew⟩
    · rw [hb.iconCategory (not_lost_pending hpending)] at hcategory
      rw [hb.expectedIcon]
      have ho' : o.status = .pending := by
        by_contra hne
        exact hb.not_pending hne hpending
      exact h.snapshot o ho ho' c (hframe.categories c hc) hcategory
    · exact (hframe.new o' ho' hnew).2.2 c hc hcategory

/-- Rows rewritten in place, the ready icons of each category being those they were. -/
theorem IconFrame.map (hs : db.Indexed) {f : StoredObject → StoredObject}
    (hobjects : db'.objects = db.objects.map f) (hid : ∀ o ∈ db.objects, (f o).id = o.id)
    (hcategories : ∀ c ∈ db'.categories, c ∈ db.categories)
    (hready : ∀ o ∈ db.objects, ∀ c ∈ db'.categories, o.iconCategory = some c.id →
      ((f o).status = .ready ↔ o.status = .ready)) : IconFrame db db' where
  categories := hcategories
  ready := by
    intro o ho o' ho' heq c hc hcategory
    rw [hobjects] at ho'
    obtain ⟨row, hrow, rfl⟩ := List.mem_map.mp ho'
    rw [hs.eq_of_id hrow ho ((hid row hrow).symm.trans heq)]
    exact hready o ho c hc hcategory
  new := by
    intro o' ho' hnew
    rw [hobjects] at ho'
    obtain ⟨row, hrow, rfl⟩ := List.mem_map.mp ho'
    exact absurd (hid row hrow).symm (hnew row hrow)

theorem IconFrame.same (hs : db.Indexed) (hobjects : db'.objects = db.objects)
    (hcategories : db'.categories = db.categories) : IconFrame db db' :=
  .map (f := id) hs (by rw [hobjects, List.map_id]) (fun _ _ => rfl) (fun _ hc => hcategories ▸ hc)
    fun _ _ _ _ _ => Iff.rfl

/-- A row updated by its id and revision, which is no ready icon before or after. -/
theorem IconFrame.updateObject (hs : db.Indexed) (current : StoredObject)
    {f : StoredObject → StoredObject} (hobjects : db'.objects = (db.updateObject current f).objects)
    (hcategories : db'.categories = db.categories) (hid : ∀ o, (f o).id = o.id)
    (hready : ∀ o ∈ db.objects, o.id = current.id → o.revision = current.revision →
      o.status ≠ .ready ∧ (f o).status ≠ .ready ∨ o.iconCategory = none) : IconFrame db db' := by
  refine .map (f := updateRow (fun o => o.id = current.id && o.revision = current.revision) f)
    hs hobjects (fun o _ => ?_) (fun _ hc => hcategories ▸ hc) fun o ho c _ hcategory => ?_
  · rcases updateRow_cases (fun o : StoredObject =>
      decide (o.id = current.id) && decide (o.revision = current.revision)) f o with
      ⟨-, heq⟩ | ⟨-, heq⟩
    · rw [heq]
    · rw [heq, hid]
  · rcases updateRow_cases (fun o : StoredObject =>
      decide (o.id = current.id) && decide (o.revision = current.revision)) f o with
      ⟨-, heq⟩ | ⟨hp, heq⟩
    · rw [heq]
    · rw [heq]
      simp only [Bool.and_eq_true, decide_eq_true_eq] at hp
      rcases hready o ho hp.1 hp.2 with ⟨hne, hne'⟩ | hnone
      · exact ⟨fun h => absurd h hne', fun h => absurd h hne⟩
      · rw [hnone] at hcategory
        cases hcategory

/-- Rows are retired, none of which is the ready icon of a category. -/
theorem retired_ready {p : StoredObject → Bool} {o : StoredObject}
    (h : o.status = .ready → p o = false) : (o.retired p).status = .ready ↔ o.status = .ready := by
  unfold StoredObject.retired
  split
  · rename_i hp
    refine ⟨fun hready => (by cases hready), fun hready => ?_⟩
    rw [h hready] at hp
    cases hp.1
  · exact Iff.rfl

/-! ### Maintenance -/

/-- What an execution does to the objects: at most one that is not ready moves on,
and does not become ready. -/
def Maintains (db db' : Database) : Prop :=
  db'.categories = db.categories ∧ (db'.objects = db.objects ∨
    ∃ (current : StoredObject) (status : Status),
      db'.objects = (db.updateObject current (·.moved status)).objects ∧ status ≠ .ready ∧
      ∀ o ∈ db.objects, o.id = current.id → o.revision = current.revision → o.status ≠ .ready)

theorem Maintains.refl (db : Database) : Maintains db db := ⟨rfl, .inl rfl⟩

theorem Maintains.frame (h : Maintains db db') (hs : db.Indexed) : IconFrame db db' := by
  obtain ⟨hcategories, hobjects | ⟨current, status, hobjects, hstatus, hready⟩⟩ := h
  · exact .same hs hobjects hcategories
  · exact .updateObject hs current hobjects hcategories (fun _ => rfl)
      fun o ho hid hrevision => .inl ⟨hready o ho hid hrevision, hstatus⟩

/-- The queue is not what the icons depend on. -/
theorem Maintains.operations {after : Database} (h : Maintains db db')
    (hobjects : after.objects = db'.objects) (hcategories : after.categories = db'.categories) :
    Maintains db after := by
  unfold Maintains
  rw [hobjects, hcategories]
  exact h

theorem Maintains.updateClaimed {before : Database} {op : ObjectOperation}
    {f : ObjectOperation → ObjectOperation} (h : Maintains before db)
    (hdb : db.updateClaimed op f = some db') : Maintains before db' := by
  obtain ⟨-, rfl⟩ := updateClaimed_eq hdb
  exact h.operations rfl rfl

theorem Maintains.getD_updateClaimed (op : ObjectOperation)
    (f : ObjectOperation → ObjectOperation) :
    Maintains db ((db.updateClaimed op f).getD db) := by
  cases hdb : db.updateClaimed op f with
  | none => exact .refl db
  | some db' => exact .updateClaimed (.refl db) hdb

theorem Maintains.settle {job : Job} {outcome : Outcome} {sent : System} (hsent : sent.db = s.db)
    (h : ∀ db, outcome = .commit db → Maintains s.db db) :
    Maintains s.db (settle s job outcome sent).db := by
  cases outcome with
  | commit db => exact h db rfl
  | send =>
      show Maintains s.db sent.db
      rw [hsent]
      exact .refl s.db
  | retry => exact .refl s.db

/-- A transaction that at most ends its operation. -/
theorem Maintains.ofOption {op : ObjectOperation} {f : ObjectOperation → ObjectOperation}
    (h : Outcome.ofOption (db.updateClaimed op f) = .commit db') : Maintains db db' :=
  .updateClaimed (.refl db) (Outcome.ofOption_eq h)

theorem Maintains.reconcileUpload {op : ObjectOperation} {o : StoredObject} (hs : db.Indexed)
    (ho : o ∈ db.objects) (h : reconcileUpload db now op o = .commit db') : Maintains db db' := by
  unfold Storage.reconcileUpload at h
  split at h
  · exact .ofOption h
  · split at h
    · exact .ofOption h
    · rename_i hpending
      split at h
      · cases h
        exact .getD_updateClaimed ..
      · refine .updateClaimed ?_ (Outcome.ofOption_eq h)
        refine ⟨by simp [Database.updateObject], .inr ⟨o, .failed, by simp, by simp,
          fun row hrow hid _ => ?_⟩⟩
        rw [hs.eq_of_id hrow ho hid, not_not.mp hpending]
        simp

theorem Maintains.beginDeleteUpload {op : ObjectOperation} {o : StoredObject}
    (h : beginDeleteUpload db now op o = .commit db') : Maintains db db' := by
  unfold Storage.beginDeleteUpload at h
  split at h
  · exact .ofOption h
  · split at h
    · exact .ofOption h
    · cases h

theorem Maintains.finishDeleteUpload {op : ObjectOperation} {o : StoredObject}
    (h : finishDeleteUpload db now op o = .commit db') : Maintains db db' := by
  unfold Storage.finishDeleteUpload at h
  split at h
  · cases h
  · rename_i completed hcompleted
    cases h
    have hdone : Maintains db completed := .updateClaimed (.refl db) hcompleted
    exact hdone.operations rfl rfl

theorem Maintains.beginDelete {op : ObjectOperation} {o : StoredObject}
    (h : beginDelete config db now op o = .commit db') : Maintains db db' := by
  unfold Storage.beginDelete at h
  split at h
  · exact .ofOption h
  · split at h
    · exact .ofOption h
    · exact .ofOption h
    · exact .ofOption h
    · cases h
    · split at h
      · exact .ofOption h
      · cases h

theorem Maintains.finishDelete {op : ObjectOperation} {o : StoredObject} (hs : db.Indexed)
    (h : finishDelete db now op o = .commit db') : Maintains db db' := by
  unfold Storage.finishDelete at h
  split at h
  · split at h
    · rename_i hany
      obtain ⟨row, hrow, hp⟩ := List.any_eq_true.mp hany
      simp only [Bool.and_eq_true, decide_eq_true_eq] at hp
      have hfinish : Maintains db (db.updateObject o (·.moved .deleted)) := by
        refine ⟨rfl, .inr ⟨o, .deleted, rfl, by simp, fun o' ho' hid _ => ?_⟩⟩
        rw [hs.eq_of_id ho' hrow (hid.trans hp.1.1.symm), hp.2]
        simp
      exact hfinish.updateClaimed (Outcome.ofOption_eq h)
    · cases h
  · exact .ofOption h

theorem beginJob_maintains {job : Job} (hs : s.Sound) (h : beginJob config s job = some s') :
    Maintains s.db s'.db := by
  obtain ⟨o, ho, h⟩ := Option.bind_eq_some_iff.mp h
  obtain ⟨hmem, -⟩ := object_mem ho
  split at h
  · split at h <;> cases h
    · exact .settle rfl fun _ hdb => .reconcileUpload hs.tables.toIndexed hmem hdb
    · exact .settle rfl fun _ hdb => .beginDeleteUpload hdb
    · exact .settle rfl fun _ hdb => .beginDelete hdb
  · cases h

theorem resumeJob_maintains {job : Job} (hs : s.Sound) (h : resumeJob config s job = some s') :
    Maintains s.db s'.db := by
  unfold resumeJob at h
  split at h
  · cases h
  · cases h
  · split at h
    · cases h
      unfold afterDeleteUpload
      dsimp only
      split
      · exact .settle rfl fun _ hdb => .ofOption hdb
      · exact .refl s.db
    · cases h
  · split at h <;> cases h <;> exact .refl s.db
  · cases h
    exact .settle rfl fun _ hdb => .finishDeleteUpload hdb
  · split at h
    · cases h
      exact .settle rfl fun _ hdb => .finishDelete hs.tables.toIndexed hdb
    · cases h

theorem scheduleRetry_maintains (op : ObjectOperation) :
    Maintains db (scheduleRetry config db now op) := by
  unfold scheduleRetry
  split <;> exact .getD_updateClaimed ..

/-! ## Steps that change an icon -/

/-- The rows an attachment or a removal leaves. -/
def Database.Replaces (db db' : Database) (categoryId : ℤ) (icon : Option Uuid)
    (p : StoredObject → Bool) : Prop :=
  db'.objects = db.objects.map (·.retired p) ∧
    db'.categories = update (·.id = categoryId) (fun c => { c with iconObjectId := icon })
      db.categories

theorem retired_of_false {p : StoredObject → Bool} {o : StoredObject} (h : p o = false) :
    o.retired p = o := by
  unfold StoredObject.retired
  rw [if_neg fun hp => by rw [h] at hp; cases hp.1]

/-- A row that is not lost has not been retired. -/
theorem retired_live {p : StoredObject → Bool} {o : StoredObject}
    (h : ¬ (o.retired p).status.Lost) : o.retired p = o ∧ p o = false := by
  unfold StoredObject.retired at h ⊢
  split at h
  · exact absurd (.inr (.inl rfl)) h
  · rename_i hp
    rw [if_neg hp]
    refine ⟨rfl, ?_⟩
    rw [← Bool.not_eq_true]
    exact fun hpo => hp ⟨hpo, fun hgone => h (.inr hgone)⟩

/-- The row of an object that is not lost, before the others were retired. -/
theorem Database.Replaces.live {categoryId : ℤ} {icon : Option Uuid} {p : StoredObject → Bool}
    (h : db.Replaces db' categoryId icon p) {o : StoredObject} (ho : o ∈ db'.objects)
    (hlost : ¬ o.status.Lost) : o ∈ db.objects ∧ p o = false := by
  rw [h.1] at ho
  obtain ⟨row, hrow, rfl⟩ := List.mem_map.mp ho
  obtain ⟨heq, hp⟩ := retired_live hlost
  rw [heq]
  exact ⟨hrow, hp⟩

theorem Database.Replaces.kept {categoryId : ℤ} {icon : Option Uuid} {p : StoredObject → Bool}
    (h : db.Replaces db' categoryId icon p) {o : StoredObject} (ho : o ∈ db.objects)
    (hp : p o = false) : o ∈ db'.objects := by
  rw [h.1, ← retired_of_false hp]
  exact List.mem_map_of_mem ho

theorem Database.Replaces.category {categoryId : ℤ} {icon : Option Uuid}
    {p : StoredObject → Bool} (h : db.Replaces db' categoryId icon p) {c : Category}
    (hc : c ∈ db'.categories) :
    c.id = categoryId ∧ c.iconObjectId = icon ∨ c ∈ db.categories ∧ c.id ≠ categoryId := by
  rw [h.2] at hc
  obtain ⟨c₀, hc₀, ⟨hp, rfl⟩ | ⟨hp, rfl⟩⟩ := mem_update.mp hc
  · exact .inl ⟨of_decide_eq_true hp, rfl⟩
  · exact .inr ⟨hc₀, of_decide_eq_false hp⟩

/-- An icon is replaced, where the pending uploads of its category and its ready
icon but the new one are retired, and nothing of another category is. -/
theorem Database.Replaces.icons {categoryId : ℤ} {icon : Option Uuid} {p : StoredObject → Bool}
    (h : db.Replaces db' categoryId icon p)
    (unique : Unique (fun c : Category => some c.id) db.categories)
    (shaped : ∀ o ∈ db.objects, ¬ o.status.Lost → o.Shaped)
    (own : ∀ x, icon = some x → ∃ o ∈ db.objects, o.id = x ∧ o.iconCategory = some categoryId ∧
      o.status = .ready ∧ p o = false)
    (ready : ∀ o ∈ db.objects, o.status = .ready → p o = false →
      o.iconCategory = some categoryId → icon = some o.id)
    (pending : ∀ o ∈ db.objects, o.status = .pending → o.iconCategory = some categoryId →
      p o = true)
    (attachedElse : ∀ c ∈ db.categories, c.id ≠ categoryId → ∀ x, c.iconObjectId = some x →
      ∃ o ∈ db.objects, o.id = x ∧ o.iconCategory = some c.id ∧ o.status = .ready ∧ p o = false)
    (readyElse : ∀ o ∈ db.objects, o.status = .ready → ∀ c ∈ db.categories, c.id ≠ categoryId →
      o.iconCategory = some c.id → c.iconObjectId = some o.id)
    (snapshotElse : ∀ o ∈ db.objects, o.status = .pending → ∀ c ∈ db.categories,
      c.id ≠ categoryId → o.iconCategory = some c.id → o.expectedIcon = c.iconObjectId) :
    db'.Icons where
  unique := by
    rw [h.2]
    exact unique.update fun _ _ _ _ hk => hk
  shaped := fun o ho hlost => shaped o (h.live ho hlost).1 hlost
  attached := by
    intro c hc x hx
    rcases h.category hc with ⟨hid, hicon⟩ | ⟨hc, hne⟩
    · obtain ⟨o, ho, hoid, hcategory, hready, hp⟩ := own x (hicon.symm.trans hx)
      exact ⟨o, h.kept ho hp, hoid, hid ▸ hcategory, hready⟩
    · obtain ⟨o, ho, hoid, hcategory, hready, hp⟩ := attachedElse c hc hne x hx
      exact ⟨o, h.kept ho hp, hoid, hcategory, hready⟩
  ready := by
    intro o ho hready c hc hcategory
    obtain ⟨ho, hp⟩ := h.live ho (not_lost_ready hready)
    rcases h.category hc with ⟨hid, hicon⟩ | ⟨hc, hne⟩
    · rw [hicon]
      exact ready o ho hready hp (hid ▸ hcategory)
    · exact readyElse o ho hready c hc hne hcategory
  snapshot := by
    intro o ho hpending c hc hcategory
    obtain ⟨ho, hp⟩ := h.live ho (not_lost_pending hpending)
    rcases h.category hc with ⟨hid, hicon⟩ | ⟨hc, hne⟩
    · rw [pending o ho hpending (hid ▸ hcategory)] at hp
      cases hp
    · exact snapshotElse o ho hpending c hc hne hcategory

/-- A removal. -/
theorem Database.Icons.remove (hicons : db.Icons) {categoryId : ℤ} {objectId : Uuid}
    {category : Category} (hknown : category ∈ db.categories) (hid : category.id = categoryId)
    (hcurrent : category.iconObjectId = some objectId)
    (h : db.Replaces db' categoryId none fun o =>
      o.iconCategory = some categoryId && (o.id = objectId || o.status = .pending)) :
    db'.Icons := by
  refine h.icons hicons.unique hicons.shaped (fun x hx => by cases hx)
    (fun o ho hready hp hcategory => ?_) (fun o ho hpending hcategory => by
      simp [hpending, hcategory])
    (fun c hc hne x hx => ?_) (fun o ho hready c hc _ => hicons.ready o ho hready c hc)
    fun o ho hpending c hc _ => hicons.snapshot o ho hpending c hc
  · -- the ready icon of the category is the one that is removed
    have hicon := hicons.ready o ho hready category hknown (by rw [hid]; exact hcategory)
    rw [hcurrent] at hicon
    simp [hcategory, (Option.some.inj hicon).symm] at hp
  · obtain ⟨o, ho, hoid, hcategory, hready⟩ := hicons.attached c hc x hx
    exact ⟨o, ho, hoid, hcategory, hready, by simp [hcategory, hne]⟩

/-- The rows once an upload has been promoted. -/
theorem mem_promote (hs : db.Indexed) {row current o : StoredObject} {size : ℤ}
    (hrow : row ∈ db.objects) (hid : row.id = current.id) (hrevision : row.revision = current.revision)
    (ho : o ∈ (db.promote current size).objects) :
    o = { row.moved .ready with actualSize := some size } ∨ o ∈ db.objects ∧ o.id ≠ row.id := by
  obtain ⟨o₀, ho₀, ⟨⟨hoid, -⟩, rfl⟩ | ⟨hne, rfl⟩⟩ := mem_updateObject.mp ho
  · rw [hs.eq_of_id ho₀ hrow (hoid.trans hid.symm)]
    exact .inl rfl
  · refine .inr ⟨ho₀, fun heq => hne ⟨heq.trans hid, ?_⟩⟩
    rw [hs.eq_of_id ho₀ hrow heq]
    exact hrevision

/-- An attachment. -/
theorem Database.Icons.attach (hicons : db.Icons) (hs : db.Indexed) {row current : StoredObject}
    {size categoryId : ℤ} {category : Category} (hrow : row ∈ db.objects)
    (hid : row.id = current.id) (hpending : row.status = .pending)
    (hrevision : row.revision = current.revision) (hrowicon : row.iconCategory = some categoryId)
    (hknown : category ∈ db.categories) (hcategoryId : category.id = categoryId)
    (hcurrent : category.iconObjectId = current.expectedIcon)
    (h : (db.promote current size).Replaces db' categoryId (some current.id) fun o =>
      current.expectedIcon = some o.id || (isPendingIcon categoryId o && o.id ≠ current.id)) :
    db'.Icons := by
  have hmem {o : StoredObject} (ho : o ∈ (db.promote current size).objects) :
      o = { row.moved .ready with actualSize := some size } ∨ o ∈ db.objects ∧ o.id ≠ row.id :=
    mem_promote hs hrow hid hrevision ho
  have hkept {o : StoredObject} (ho : o ∈ db.objects) (hne : o.id ≠ row.id) :
      o ∈ (db.promote current size).objects :=
    mem_updateObject.mpr ⟨o, ho, .inr ⟨fun heq => hne (heq.1.trans hid.symm), rfl⟩⟩
  have hreadyRow : { row.moved .ready with actualSize := some size } ∈
      (db.promote current size).objects :=
    mem_updateObject.mpr ⟨row, hrow, .inl ⟨⟨hid, hrevision⟩, rfl⟩⟩
  -- the icon of a category is ready, so that it is not the object that is promoted
  have hother {c : Category} (hc : c ∈ db.categories) {x : Uuid} (hx : c.iconObjectId = some x) :
      ∃ o ∈ db.objects, o.id = x ∧ o.iconCategory = some c.id ∧ o.status = .ready ∧
        o.id ≠ row.id := by
    obtain ⟨o, ho, hoid, hcategory, hready⟩ := hicons.attached c hc x hx
    refine ⟨o, ho, hoid, hcategory, hready, fun heq => ?_⟩
    rw [hs.eq_of_id ho hrow heq, hpending] at hready
    cases hready
  refine h.icons hicons.unique (fun o ho hlost => ?_) (fun x hx => ?_)
    (fun o ho hready hp hcategory => ?_) (fun o ho hopending hcategory => ?_)
    (fun c hc hne x hx => ?_) (fun o ho hready c hc hne hcategory => ?_)
    fun o ho hopending c hc hne hcategory => ?_
  · rcases hmem ho with rfl | ⟨ho, -⟩
    · exact hicons.shaped row hrow (not_lost_pending hpending)
    · exact hicons.shaped o ho hlost
  · cases hx
    refine ⟨_, hreadyRow, hid, hrowicon, rfl, ?_⟩
    have hne : current.expectedIcon ≠ some row.id := fun heq => by
      obtain ⟨o, -, hoid, -, -, hne⟩ := hother hknown (hcurrent.trans heq)
      exact hne hoid
    rw [hid] at hne
    simp [StoredObject.moved, hid, hne]
  · rcases hmem ho with rfl | ⟨ho, hne⟩
    · exact congrArg some hid.symm
    · have hicon := hicons.ready o ho hready category hknown (by rw [hcategoryId]; exact hcategory)
      simp [← hcurrent, hicon] at hp
  · rcases hmem ho with rfl | ⟨-, hne⟩
    · cases hopending
    · rw [hid] at hne
      simp [isPendingIcon, hcategory, hopending, hne]
  · obtain ⟨o, ho, hoid, hcategory, hready, hrowne⟩ := hother hc hx
    refine ⟨o, hkept ho hrowne, hoid, hcategory, hready, ?_⟩
    have hexpected : current.expectedIcon ≠ some o.id := fun heq => by
      obtain ⟨o', ho', hid', hcategory', -⟩ := hother hknown (hcurrent.trans heq)
      rw [hs.eq_of_id ho' ho hid', hcategory, hcategoryId] at hcategory'
      exact hne (Option.some.inj hcategory')
    simp [isPendingIcon, hready, hexpected]
  · rcases hmem ho with rfl | ⟨ho, -⟩
    · exact absurd (Option.some.inj (hrowicon.symm.trans hcategory)).symm hne
    · exact hicons.ready o ho hready c hc hcategory
  · rcases hmem ho with rfl | ⟨ho, -⟩
    · cases hopending
    · exact hicons.snapshot o ho hopending c hc hcategory

/-- What a step does to the icons. -/
inductive IconMove (label : Label) (s s' : System) : Prop
  | frame (h : IconFrame s.db s'.db)
  | attach (call : Call) (size categoryId : ℤ) (id : ℕ) (row : StoredObject) (category : Category)
    (label : label = .commitCall id ∧ s.call id = some call)
    (icon : call.object.iconCategory = some categoryId)
    (mem : row ∈ s.db.objects) (rowId : row.id = call.object.id) (pending : row.status = .pending)
    (revision : row.revision = call.object.revision)
    (known : category ∈ s.db.categories) (categoryIs : category.id = categoryId)
    (current : category.iconObjectId = call.object.expectedIcon)
    (replaces : (s.db.promote call.object size).Replaces s'.db categoryId (some call.object.id)
      fun o => call.object.expectedIcon = some o.id ||
        (isPendingIcon categoryId o && o.id ≠ call.object.id))
  | remove (categoryId : ℤ) (objectId : Uuid) (category : Category)
    (label : label = .removeIcon categoryId objectId)
    (known : category ∈ s.db.categories) (categoryIs : category.id = categoryId)
    (current : category.iconObjectId = some objectId)
    (replaces : s.db.Replaces s'.db categoryId none fun o =>
      o.iconCategory = some categoryId && (o.id = objectId || o.status = .pending))

theorem retireWhere_categories (db : Database) (now : Time) (p : StoredObject → Bool) :
    (db.retireWhere now p).categories = db.categories := by
  unfold Database.retireWhere
  generalize db.objects.filter p = l
  induction l generalizing db with
  | nil => rfl
  | cons current l ih =>
      rw [List.foldl_cons, ih]
      unfold Database.retire
      split
      · rfl
      · simp [Database.updateObject, Database.cancelOpen]

/-- The category of an attached icon. -/
theorem attachedIcon_eq_some {categoryId : ℤ} {x : Uuid}
    (h : attachedIcon db (some categoryId) = some x) :
    ∃ category ∈ db.categories, category.id = categoryId ∧ category.iconObjectId = some x := by
  obtain ⟨category, hcategory, hicon⟩ := Option.bind_eq_some_iff.mp h
  obtain ⟨hmem, hid⟩ := category_mem hcategory
  exact ⟨category, hmem, hid, hicon⟩

theorem Database.Icons.category_eq (h : db.Icons) {c : Category} (hc : c ∈ db.categories) :
    db.category c.id = some c := by
  cases hfound : db.category c.id with
  | none =>
      have := List.find?_eq_none.mp hfound c hc
      simp at this
  | some c' =>
      obtain ⟨hc', hid⟩ := category_mem hfound
      rw [h.eq_of_id hc' hc hid]

theorem Database.Icons.attachedIcon_eq (h : db.Icons) {c : Category} (hc : c ∈ db.categories) :
    attachedIcon db (some c.id) = c.iconObjectId := by
  simp [attachedIcon, h.category_eq hc]

/-- A direct assignment names the icon that is attached. -/
theorem assignIcon_same (h : db.Icons) {categoryId : ℤ} {objectId : Uuid}
    (hassign : assignIcon db categoryId objectId = some db') : db' = db := by
  unfold assignIcon at hassign
  split at hassign
  · rename_i hvalid
    cases hassign
    obtain ⟨o, ho, hready⟩ := (Option.any_eq_true _ _).mp hvalid
    obtain ⟨hmem, hid⟩ := object_mem ho
    simp only [Bool.and_eq_true, decide_eq_true_eq] at hready
    have hsame : update (fun c => decide (c.id = categoryId))
        (fun c : Category => { c with iconObjectId := some objectId }) db.categories =
          db.categories := by
      refine (List.map_congr_left fun c hc => ?_).trans (List.map_id _)
      rcases updateRow_cases (fun c : Category => decide (c.id = categoryId))
        (fun c => { c with iconObjectId := some objectId }) c with ⟨-, heq⟩ | ⟨hp, heq⟩
      · exact heq
      · have hcid : c.id = categoryId := of_decide_eq_true hp
        have hicon := h.ready o hmem hready.2 c hc (by rw [hcid]; exact hready.1)
        rw [heq, ← hid, ← hicon]
        rfl
    unfold Database.setIcon
    rw [hsame]
  · cases hassign

/-- The rows a parent has retired and detached. -/
theorem deleteParent_frame (hs : db.Sound) (hicons : db.Icons) (parent : Parent) :
    IconFrame db (db.deleteParent now parent) := by
  have hcategories : ∀ c ∈ (db.deleteParent now parent).categories, c ∈ db.categories ∧
      ∀ o : StoredObject, o.Shaped → o.iconCategory = some c.id → parent.links o = false := by
    intro c hc
    unfold Database.deleteParent at hc
    dsimp only at hc
    rw [retireWhere_categories] at hc
    have hlinks {o : StoredObject} (hshaped : o.Shaped) (hicon : o.iconCategory = some c.id) :=
      hshaped (iconCategory_eq_some.mp hicon).1
    cases parent with
    | category id =>
        obtain ⟨hc, hne⟩ := List.mem_filter.mp hc
        have hne : c.id ≠ id := of_decide_eq_true hne
        refine ⟨hc, fun o _ hicon => ?_⟩
        simp [Parent.links, (iconCategory_eq_some.mp hicon).2, hne]
    | challenge id => exact ⟨hc, fun o hsh hi => by simp [Parent.links, (hlinks hsh hi).2.1]⟩
    | page id => exact ⟨hc, fun o hsh hi => by simp [Parent.links, (hlinks hsh hi).2.2.1]⟩
    | solution id => exact ⟨hc, fun o hsh hi => by simp [Parent.links, (hlinks hsh hi).2.2.2]⟩
    | user id | team id => exact ⟨hc, fun o hsh hi => by simp [Parent.links, (hlinks hsh hi).1]⟩
  refine .map (f := fun o => parent.detach (o.retired parent.links)) hs.toIndexed ?_ (fun o _ => ?_)
    (fun c hc => (hcategories c hc).1) fun o ho c hc hcategory => ?_
  · unfold Database.deleteParent
    dsimp only
    rw [retireWhere_objects hs.objects, List.map_map]
    rfl
  · rw [(detach_fields parent _).1, retired_id]
  · rw [(detach_fields parent _).2.2.2.1]
    exact retired_ready fun hready => (hcategories c hc).2 o
      (hicons.shaped o ho (not_lost_ready hready)) hcategory

/-- The submissions of the participants are no icons. -/
theorem switchMode_frame (hs : db.Sound) (participant : ℤ → Bool) :
    IconFrame db (db.scheduleUserCompetitionObjectDeletion now participant) := by
  refine .map (f := (·.retired (isCompetitionObject participant))) hs.toIndexed
    (retireWhere_objects hs.objects _) (fun o _ => retired_id _ o)
    (fun c hc => (retireWhere_categories ..).symm ▸ hc) fun o _ c _ hcategory => ?_
  refine retired_ready fun _ => ?_
  simp [isCompetitionObject, (iconCategory_eq_some.mp hcategory).1, Purpose.isAsset]

/-! ## Completions -/

/-- The row a completion has loaded belongs to what it belonged to, as long as it is
pending. -/
def CallsKnown (s : System) : Prop :=
  ∀ call ∈ s.calls, ∃ row ∈ s.db.objects, row.id = call.object.id ∧
    (row.status = .pending → row.iconCategory = call.object.iconCategory ∧
      row.expectedIcon = call.object.expectedIcon)

theorem call_mem {id : ℕ} {call : Call} (h : s.call id = some call) : call ∈ s.calls :=
  List.mem_of_find?_eq_some h

theorem mem_setCall {call call' : Call} (h : call' ∈ (s.setCall call).calls) :
    call' = call ∨ call' ∈ s.calls := by
  obtain ⟨call₀, hcall₀, ⟨-, rfl⟩ | ⟨-, rfl⟩⟩ := mem_update.mp h
  · exact .inl rfl
  · exact .inr hcall₀

/-- Where the row of a completion comes from. -/
def CallOrigin (s : System) (call' : Call) : Prop :=
  (∃ call ∈ s.calls, call'.object = call.object) ∨ call'.object ∈ s.db.objects

theorem CallOrigin.same (h : s'.calls = s.calls) : ∀ call ∈ s'.calls, CallOrigin s call :=
  fun call hcall => .inl ⟨call, h ▸ hcall, rfl⟩

theorem settle_calls {job : Job} {outcome : Outcome} {sent : System}
    (hsent : sent.calls = s.calls) : (settle s job outcome sent).calls = s.calls := by
  cases outcome with
  | commit | retry => rfl
  | send => exact hsent

theorem beginCall_calls {call : Call} {target : Bool} (hcall : call ∈ s.calls)
    (h : beginCall s call target = some s') : ∀ call' ∈ s'.calls, CallOrigin s call' := by
  obtain ⟨current, hcurrent, h⟩ := Option.bind_eq_some_iff.mp h
  obtain ⟨hmem, -⟩ := object_mem hcurrent
  split at h
  · split at h
    · cases h
      exact fun call' hcall' => .inl ⟨call', List.mem_of_mem_filter hcall', rfl⟩
    · cases h
      intro call' hcall'
      rcases mem_setCall hcall' with rfl | hcall'
      · exact .inl ⟨call, hcall, rfl⟩
      · exact .inl ⟨call', hcall', rfl⟩
    · cases h
      intro call' hcall'
      rcases mem_setCall hcall' with rfl | hcall'
      · exact .inr hmem
      · exact .inl ⟨call', hcall', rfl⟩
  · cases h

theorem checkCall_calls {call : Call} {valid : Bool} (hcall : call ∈ s.calls)
    (h : checkCall s call valid = some s') : ∀ call' ∈ s'.calls, CallOrigin s call' := by
  have hset (phase : CallPhase) :
      ∀ call' ∈ (s.setCall { call with phase }).calls, CallOrigin s call' := by
    intro call' hcall'
    rcases mem_setCall hcall' with rfl | hcall'
    · exact .inl ⟨call, hcall, rfl⟩
    · exact .inl ⟨call', hcall', rfl⟩
  unfold checkCall at h
  split at h
  · split at h
    · dsimp only at h
      split at h
      · cases h
        exact fun call' hcall' => .inl ⟨call', List.mem_of_mem_filter hcall', rfl⟩
      · cases h
        exact hset _
      · obtain ⟨body, -, rfl⟩ := Option.map_eq_some_iff.mp h
        exact hset _
    · cases h
  · cases h

/-- Where the completions of a step come from. -/
theorem step_calls (h : step config label s = some s') : ∀ call ∈ s'.calls, CallOrigin s call := by
  cases label with
  | tick | scan | dropJob =>
      cases h
      exact .same rfl
  | initiate request =>
      obtain ⟨db, -, rfl⟩ := step_initiate h
      exact .same rfl
  | startPut objectId body =>
      obtain ⟨o, -, h⟩ := Option.bind_eq_some_iff.mp h
      split at h
      · cases h
        exact .same rfl
      · cases h
  | serve request =>
      obtain ⟨r, -, h⟩ := Option.bind_eq_some_iff.mp h
      unfold Storage.serve at h
      repeat' split at h
      all_goals cases h
      all_goals exact .same rfl
  | reject request =>
      obtain ⟨r, -, h⟩ := Option.bind_eq_some_iff.mp h
      cases h
      exact .same rfl
  | startCall objectId valid =>
      obtain ⟨o, ho, h⟩ := Option.bind_eq_some_iff.mp h
      obtain ⟨phase, -, h⟩ := Option.bind_eq_some_iff.mp h
      cases h
      intro call hcall
      rcases List.mem_append.mp hcall with hcall | hcall
      · exact .inl ⟨call, hcall, rfl⟩
      · rw [List.mem_singleton.mp hcall]
        exact .inr (object_mem ho).1
  | beginCall id target =>
      obtain ⟨call, hcall, h⟩ := Option.bind_eq_some_iff.mp h
      exact beginCall_calls (call_mem hcall) h
  | checkCall id valid =>
      obtain ⟨call, hcall, h⟩ := Option.bind_eq_some_iff.mp h
      exact checkCall_calls (call_mem hcall) h
  | commitCall id =>
      obtain ⟨call, -, h⟩ := Option.bind_eq_some_iff.mp h
      unfold commitCall at h
      split at h
      · split at h
        · obtain ⟨db, -, rfl⟩ := Option.map_eq_some_iff.mp h
          exact fun call' hcall' => .inl ⟨call', List.mem_of_mem_filter hcall', rfl⟩
        · cases h
      · cases h
  | failCall id =>
      obtain ⟨call, -, h⟩ := Option.bind_eq_some_iff.mp h
      obtain ⟨current, -, h⟩ := Option.bind_eq_some_iff.mp h
      split at h
      · cases h
        exact fun call' hcall' => .inl ⟨call', List.mem_of_mem_filter hcall', rfl⟩
      · cases h
  | dropCall id =>
      cases h
      exact fun call' hcall' => .inl ⟨call', List.mem_of_mem_filter hcall', rfl⟩
  | delete objectId =>
      obtain ⟨current, -, h⟩ := Option.bind_eq_some_iff.mp h
      split at h
      · obtain ⟨db, -, rfl⟩ := Option.map_eq_some_iff.mp h
        exact .same rfl
      · cases h
  | removeIcon | assignIcon | deleteParent | switchMode =>
      unfold step at h
      dsimp only at h
      split at h
      · obtain ⟨db, -, rfl⟩ := Option.map_eq_some_iff.mp h
        exact .same rfl
      · cases h
  | recover =>
      cases h
      exact .same rfl
  | enqueue d =>
      unfold step at h
      dsimp only at h
      split at h
      · cases h
        exact .same rfl
      · cases h
  | startJob operation worker =>
      obtain ⟨⟨claimed, db⟩, -, rfl⟩ := Option.map_eq_some_iff.mp h
      exact .same rfl
  | beginJob id =>
      obtain ⟨job, -, h⟩ := Option.bind_eq_some_iff.mp h
      obtain ⟨o, -, h⟩ := Option.bind_eq_some_iff.mp h
      split at h
      · split at h <;> cases h <;> exact .same (settle_calls rfl)
      · cases h
  | resumeJob id =>
      obtain ⟨job, -, h⟩ := Option.bind_eq_some_iff.mp h
      unfold resumeJob at h
      split at h
      · cases h
      · cases h
      · split at h
        · cases h
          unfold afterDeleteUpload
          dsimp only
          split
          · exact .same (settle_calls rfl)
          · exact .same rfl
        · cases h
      · split at h <;> cases h <;> exact .same rfl
      · cases h
        exact .same (settle_calls rfl)
      · split at h
        · cases h
          exact .same (settle_calls rfl)
        · cases h
  | breakJob id =>
      obtain ⟨job, -, h⟩ := Option.bind_eq_some_iff.mp h
      cases h
      exact .same rfl
  | retryJob id =>
      obtain ⟨job, -, h⟩ := Option.bind_eq_some_iff.mp h
      unfold retryJob at h
      split at h
      · cases h
        exact .same rfl
      · cases h

theorem callsKnown_step (h : step config label s = some s') (hs : s.Sound) (hknown : CallsKnown s) :
    CallsKnown s' := by
  have hrows := (step_changes h hs).rows hs.tables
  intro call' hcall'
  have hrow : ∃ row ∈ s.db.objects, row.id = call'.object.id ∧ (row.status = .pending →
      row.iconCategory = call'.object.iconCategory ∧
        row.expectedIcon = call'.object.expectedIcon) := by
    rcases step_calls h call' hcall' with ⟨call, hcall, hobject⟩ | hmem
    · rw [hobject]
      exact hknown call hcall
    · exact ⟨call'.object, hmem, rfl, fun _ => ⟨rfl, rfl⟩⟩
  obtain ⟨row, hrow, hid, hsame⟩ := hrow
  obtain ⟨row', hrow', hb⟩ := hrows.persist row hrow
  refine ⟨row', hrow', hb.id.trans hid, fun hpending => ?_⟩
  obtain ⟨hicon, hexpected⟩ := hsame (by
    by_contra hne
    exact hb.not_pending hne hpending)
  rw [hb.iconCategory (not_lost_pending hpending), hb.expectedIcon]
  exact ⟨hicon, hexpected⟩

/-! ## The icons of a step -/

/-- A new upload carries the attached icon as its snapshot. -/
theorem initiate_frame (hs : db.Indexed) (hicons : db.Icons) {request : UploadRequest}
    (h : initiateUpload config db now request = .ok db') : IconFrame db db' := by
  rcases initiateUpload_eq h with rfl | ⟨principal, icon, hprincipal, hicon, hfits, -, hfresh, rfl⟩
  · exact .same hs rfl rfl
  have hcategories : (db.insertUpload (request.row config principal now icon)).categories =
      db.categories := enqueueOperation_categories ..
  refine ⟨fun c hc => hcategories ▸ hc, fun o ho o' ho' hid c _ _ => ?_, fun o' ho' hnew => ?_⟩
  · rw [Database.insertUpload, enqueueOperation_objects] at ho'
    rcases List.mem_append.mp ho' with ho' | ho'
    · rw [hs.eq_of_id ho' ho hid]
    · rw [List.mem_singleton.mp ho'] at hid
      exact absurd hid.symm (hfresh o ho)
  · rw [Database.insertUpload, enqueueOperation_objects] at ho'
    rcases List.mem_append.mp ho' with ho' | ho'
    · exact absurd rfl (hnew o' ho')
    · rw [List.mem_singleton.mp ho']
      refine ⟨by simp [UploadRequest.row], fun hpurpose => ?_, fun c hc hcategory => ?_⟩
      · have hpurpose : request.purpose = .categoryIcon := hpurpose
        have htarget : principal = .target := by
          simpa [UploadRequest.principal, hpurpose, Purpose.isAsset, eq_comm] using hprincipal
        simp only [hpurpose, Target.fits, Bool.and_eq_true, Option.isNone_iff_eq_none] at hfits
        exact ⟨by rw [htarget]; rfl, hfits.1.1.2, hfits.1.2, hfits.2⟩
      · obtain ⟨hpurpose, htarget⟩ := iconCategory_eq_some.mp hcategory
        have hpurpose : request.purpose = .categoryIcon := hpurpose
        have htarget : request.target.categoryId = some c.id := htarget
        rw [hcategories] at hc
        rw [expectedIconObjectId, if_pos hpurpose, htarget] at hicon
        simp only [Option.bind_some, hicons.category_eq hc] at hicon
        exact (Except.ok.inj hicon).symm

theorem delete_frame (hs : db.Sound) (hicons : db.Icons) {current : StoredObject}
    (hmem : current ∈ db.objects) (h : scheduleDelete db now current = some db') :
    IconFrame db db' := by
  unfold scheduleDelete at h
  split at h
  · cases h
  · rename_i hattached
    cases h
    refine .map (f := (·.retired fun o => decide (o = current))) hs.toIndexed
      (retire_objects_map hs.objects hmem) (fun o _ => retired_id _ o) (fun c hc => ?_)
      fun o ho c hc hcategory => retired_ready fun hready => ?_
    · unfold Database.retire at hc
      split at hc
      · exact hc
      · simpa [Database.updateObject, Database.cancelOpen] using hc
    · have hc : c ∈ db.categories := by
        unfold Database.retire at hc
        split at hc
        · exact hc
        · simpa [Database.updateObject, Database.cancelOpen] using hc
      refine decide_eq_false fun heq => hattached ?_
      rw [heq] at hcategory hready
      obtain ⟨hpurpose, htarget⟩ := iconCategory_eq_some.mp hcategory
      rw [htarget, hicons.attachedIcon_eq hc, hicons.ready current hmem hready c hc hcategory]
      simp [hpurpose]

/-- A completion promotes its upload, and attaches it where it is an icon. -/
theorem commitCall_move {id : ℕ} {call : Call} (hs : s.Sound) (hknown : CallsKnown s)
    (hcall : s.call id = some call) (h : commitCall s call = some s') :
    IconMove (.commitCall id) s s' := by
  unfold commitCall at h
  split at h
  · rename_i size _
    split at h
    · obtain ⟨db, hdb, rfl⟩ := Option.map_eq_some_iff.mp h
      obtain ⟨row, attached, hfound, hstatus, hrevision, hattached, rfl⟩ := commitComplete_eq hdb
      obtain ⟨hrow, hid⟩ := object_mem hfound
      obtain ⟨row', hrow', hid', hsame⟩ := hknown call (call_mem hcall)
      rw [hs.tables.eq_of_id hrow' hrow (hid'.trans hid.symm)] at hsame
      rcases hattached with ⟨hnone, rfl⟩ | ⟨categoryId, hicon, hattach⟩
      · refine .frame (.updateObject hs.tables.toIndexed call.object
          (f := fun o => { o.moved .ready with actualSize := some size }) ?_ ?_ (fun _ => rfl)
          fun o ho hoid _ => .inr ?_)
        · simp [Database.promote]
        · simp [Database.promote, Database.updateObject, Database.cancelOpen]
        · rw [hs.tables.eq_of_id ho hrow (hoid.trans hid.symm), (hsame hstatus).1, hnone]
      · obtain ⟨category, hcategory, hcurrent, rfl⟩ := attachIcon_eq hattach
        obtain ⟨hcmem, hcid⟩ := category_mem hcategory
        have hnodup : (((s.db.promote call.object size).setIcon categoryId
            (some call.object.id)).objects.map StoredObject.id).Nodup := by
          have hpromote : Change ⟨fun _ => False, fun _ => False, fun _ _ => False⟩ s.now s.db
              (s.db.promote call.object size) :=
            .promote call.object size fun o ho hoid _ => by
              rw [hs.tables.eq_of_id ho hrow (hoid.trans hid.symm), hstatus]
          exact (hpromote.sound hs.tables).objects
        refine .attach call size categoryId id row category ⟨rfl, hcall⟩ hicon hrow hid hstatus
          hrevision hcmem hcid hcurrent ⟨?_, ?_⟩
        · rw [enqueueOperation_objects, cancelOpen_objects, retireWhere_objects hnodup]
          rfl
        · rw [enqueueOperation_categories]
          show ((Database.setIcon _ _ _).retireWhere s.now _).categories = _
          rw [retireWhere_categories]
          rfl
    · cases h
  · cases h

/-- **What a step does to the icons.** -/
theorem step_iconMove (h : step config label s = some s') (hs : s.Sound) (hicons : s.db.Icons)
    (hknown : CallsKnown s) : IconMove label s s' := by
  have hindexed := hs.tables.toIndexed
  cases label with
  | tick | scan | dropJob | dropCall =>
      cases h
      exact .frame (.same hindexed rfl rfl)
  | initiate request =>
      obtain ⟨db, hdb, rfl⟩ := step_initiate h
      exact .frame (initiate_frame hindexed hicons hdb)
  | startPut objectId body =>
      obtain ⟨o, -, h⟩ := Option.bind_eq_some_iff.mp h
      split at h
      · cases h
        exact .frame (.same hindexed rfl rfl)
      · cases h
  | serve request =>
      obtain ⟨r, -, h⟩ := Option.bind_eq_some_iff.mp h
      unfold Storage.serve at h
      repeat' split at h
      all_goals cases h
      all_goals exact .frame (.same hindexed rfl rfl)
  | reject request =>
      obtain ⟨r, -, h⟩ := Option.bind_eq_some_iff.mp h
      cases h
      exact .frame (.same hindexed rfl rfl)
  | startCall objectId valid =>
      obtain ⟨o, -, h⟩ := Option.bind_eq_some_iff.mp h
      obtain ⟨phase, -, h⟩ := Option.bind_eq_some_iff.mp h
      cases h
      exact .frame (.same hindexed rfl rfl)
  | beginCall id target =>
      obtain ⟨call, -, h⟩ := Option.bind_eq_some_iff.mp h
      obtain ⟨current, -, h⟩ := Option.bind_eq_some_iff.mp h
      repeat' split at h
      all_goals cases h
      all_goals exact .frame (.same hindexed rfl rfl)
  | checkCall id valid =>
      obtain ⟨call, -, h⟩ := Option.bind_eq_some_iff.mp h
      obtain ⟨calls, rfl⟩ := checkCall_eq h
      exact .frame (.same hindexed rfl rfl)
  | commitCall id =>
      obtain ⟨call, hcall, h⟩ := Option.bind_eq_some_iff.mp h
      exact commitCall_move hs hknown hcall h
  | failCall id =>
      obtain ⟨call, -, h⟩ := Option.bind_eq_some_iff.mp h
      obtain ⟨current, hcurrent, h⟩ := Option.bind_eq_some_iff.mp h
      split at h
      · cases h
        refine .frame ?_
        show IconFrame s.db (failUpload s.db s.now current)
        unfold failUpload
        split
        · exact .same hindexed rfl rfl
        · rename_i hpending
          refine .updateObject hindexed current (f := (·.moved .failed)) (by simp)
            (by simp [Database.updateObject, Database.cancelOpen]) (fun _ => rfl)
            fun o ho hid _ => .inl ⟨?_, by simp [StoredObject.moved]⟩
          rw [hindexed.eq_of_id ho (object_mem hcurrent).1 hid, not_not.mp hpending]
          simp
      · cases h
  | delete objectId =>
      obtain ⟨current, hcurrent, h⟩ := Option.bind_eq_some_iff.mp h
      split at h
      · obtain ⟨db, hdb, rfl⟩ := Option.map_eq_some_iff.mp h
        exact .frame (delete_frame hs.tables hicons (object_mem hcurrent).1 hdb)
      · cases h
  | removeIcon categoryId objectId =>
      unfold step at h
      dsimp only at h
      split at h
      · obtain ⟨db, hdb, rfl⟩ := Option.map_eq_some_iff.mp h
        unfold deleteCategoryIcon at hdb
        split at hdb
        · cases hdb
        · rename_i hattached
          cases hdb
          obtain ⟨category, hcategory, hcid, hcurrent⟩ := attachedIcon_eq_some (not_not.mp hattached)
          refine .remove categoryId objectId category rfl hcategory hcid hcurrent ⟨?_, ?_⟩
          · have hnodup : ((s.db.setIcon categoryId none).objects.map StoredObject.id).Nodup :=
              hs.tables.objects
            exact retireWhere_objects hnodup _
          · exact retireWhere_categories _ _ _
      · cases h
  | assignIcon categoryId objectId =>
      unfold step at h
      dsimp only at h
      split at h
      · obtain ⟨db, hdb, rfl⟩ := Option.map_eq_some_iff.mp h
        rw [assignIcon_same hicons hdb]
        exact .frame (.same hindexed rfl rfl)
      · cases h
  | deleteParent parent =>
      unfold step at h
      dsimp only at h
      split at h
      · cases h
        exact .frame (deleteParent_frame hs.tables hicons parent)
      · cases h
  | switchMode participant =>
      unfold step at h
      dsimp only at h
      split at h
      · cases h
        exact .frame (switchMode_frame hs.tables participant)
      · cases h
  | recover =>
      cases h
      exact .frame (.same hindexed rfl rfl)
  | enqueue d =>
      unfold step at h
      dsimp only at h
      split at h
      · cases h
        exact .frame (.same hindexed (enqueueOperation_objects ..) (enqueueOperation_categories ..))
      · cases h
  | startJob operation worker =>
      obtain ⟨⟨claimed, db⟩, hclaim, rfl⟩ := Option.map_eq_some_iff.mp h
      unfold claimOperation at hclaim
      split at hclaim
      · cases hclaim
      · cases hclaim
        exact .frame (.same hindexed rfl rfl)
  | beginJob id =>
      obtain ⟨job, -, h⟩ := Option.bind_eq_some_iff.mp h
      exact .frame ((beginJob_maintains hs h).frame hindexed)
  | resumeJob id =>
      obtain ⟨job, -, h⟩ := Option.bind_eq_some_iff.mp h
      exact .frame ((resumeJob_maintains hs h).frame hindexed)
  | breakJob id =>
      obtain ⟨job, -, h⟩ := Option.bind_eq_some_iff.mp h
      cases h
      exact .frame (.same hindexed rfl rfl)
  | retryJob id =>
      obtain ⟨job, -, h⟩ := Option.bind_eq_some_iff.mp h
      unfold retryJob at h
      split at h
      · cases h
        exact .frame ((scheduleRetry_maintains _).frame hindexed)
      · cases h

/-! ## Along a run -/

/-- The rows an attachment goes by are those of its category. -/
theorem CallsKnown.row {call : Call} {row : StoredObject} (hknown : CallsKnown s)
    (hs : s.db.Indexed) (hcall : call ∈ s.calls) (hrow : row ∈ s.db.objects)
    (hid : row.id = call.object.id) (hpending : row.status = .pending) :
    row.iconCategory = call.object.iconCategory ∧ row.expectedIcon = call.object.expectedIcon := by
  obtain ⟨row', hrow', hid', hsame⟩ := hknown call hcall
  rw [hs.eq_of_id hrow' hrow (hid'.trans hid.symm)] at hsame
  exact hsame hpending

theorem step_icons (h : step config label s = some s') (hs : s.Sound) (hknown : CallsKnown s)
    (hicons : s.db.Icons) : s'.db.Icons := by
  cases step_iconMove h hs hicons hknown with
  | frame hframe => exact hicons.frame hframe ((step_changes h hs).rows hs.tables)
  | attach call size categoryId id row category hlabel icon mem rowId pending revision known
      categoryIs current replaces =>
      have hrow := hknown.row hs.tables.toIndexed (call_mem hlabel.2) mem rowId pending
      exact hicons.attach hs.tables.toIndexed mem rowId pending revision (hrow.1.trans icon) known
        categoryIs current replaces
  | remove categoryId objectId category _ known categoryIs current replaces =>
      exact hicons.remove known categoryIs current replaces

/-- Completions know their rows, and the icons are sound. -/
def IconsKept (s : System) : Prop := CallsKnown s ∧ s.db.Icons

theorem iconsKept_of_initial (h : Initial s) : IconsKept s := by
  obtain ⟨hobjects, -, hunique, hnone, -, -, -, hcalls, -, -⟩ := h
  have hobject {o : StoredObject} {P : Prop} (ho : o ∈ s.db.objects) : P :=
    absurd (hobjects ▸ ho) List.not_mem_nil
  refine ⟨fun call hcall => ?_, hunique, fun o ho => hobject ho, fun c hc x hx => ?_,
    fun o ho => hobject ho, fun o ho => hobject ho⟩
  · rw [hcalls] at hcall
    exact absurd hcall List.not_mem_nil
  · rw [hnone c hc] at hx
    cases hx

theorem reach_icons (hr : Reach (step config) anyStep Initial s) : IconsKept s := by
  refine hr.invariant_with (fun _ => reach_sound) (fun s hs => iconsKept_of_initial hs)
    fun s l s' hs hkept _ hstep => ?_
  exact ⟨callsKnown_step hstep hs hkept.1, step_icons hstep hs hkept.1 hkept.2⟩

/-- Where a step changes the icon of a category, the other icons of the category
are lost. -/
theorem superseded_lost (h : step config label s = some s') (hs : s.Sound) (hkept : IconsKept s)
    {c c' : Category} (hc : c ∈ s.db.categories) (hc' : c' ∈ s'.db.categories) (hid : c'.id = c.id)
    (hchanged : c'.iconObjectId ≠ c.iconObjectId) {o o' : StoredObject}
    (hcategory : o.iconCategory = some c.id) (hother : c'.iconObjectId ≠ some o.id)
    (ho' : o' ∈ s'.db.objects) (hb : Becomes o o') : o'.status.Lost := by
  by_contra hlost
  have hicons' := step_icons h hs hkept.1 hkept.2
  have hcategory' : o'.iconCategory = some c'.id := by
    rw [hb.iconCategory hlost, hcategory, hid]
  have hnotready : o'.status ≠ .ready := fun hready =>
    hother ((hicons'.ready o' ho' hready c' hc' hcategory').trans (congrArg some hb.id))
  have hpending : o'.status = .pending := by
    unfold Status.Lost at hlost
    cases hstatus : o'.status <;> simp_all
  -- a category that was there before keeps its icon
  have hsame (hmem : c' ∈ s.db.categories) : False :=
    hchanged (congrArg Category.iconObjectId (hkept.2.eq_of_id hmem hc hid))
  cases step_iconMove h hs hkept.2 hkept.1 with
  | frame hframe => exact hsame (hframe.categories c' hc')
  | attach call size categoryId id row category hlabel icon mem rowId pending revision known
      categoryIs current replaces =>
      rcases replaces.category hc' with ⟨hcid, hicon⟩ | ⟨hmem, -⟩
      · have hnew : o'.id ≠ call.object.id := by
          rw [hb.id]
          rintro heq
          exact hother (heq ▸ hicon)
        have hp := (replaces.live ho' hlost).2
        rw [hcid] at hcategory'
        simp [isPendingIcon, hcategory', hpending, hnew] at hp
      · exact hsame hmem
  | remove categoryId objectId category _ known categoryIs current replaces =>
      rcases replaces.category hc' with ⟨hcid, -⟩ | ⟨hmem, -⟩
      · have hp := (replaces.live ho' hlost).2
        rw [hcid] at hcategory'
        simp [hcategory', hpending] at hp
      · exact hsame hmem

/-- What has been superseded is never attached. -/
theorem lost_unattached {t : System} (hr : Reach (step config) anyStep Initial s)
    (hleads : Leads (step config) anyStep s t) {o : StoredObject} (ho : o ∈ s.db.objects)
    (hlost : o.status.Lost) : ∀ c ∈ t.db.categories, c.iconObjectId ≠ some o.id := by
  intro c hc hicon
  have hr' := hr.leads hleads
  obtain ⟨ready, hready, hid, -, hstatus⟩ := (reach_icons hr').2.attached c hc o.id hicon
  obtain ⟨o', ho', hb⟩ := objects_lead hr hleads o ho
  have hsame := (reach_sound hr').tables.toIndexed.eq_of_id hready ho' (hid.trans hb.id.symm)
  rw [hsame] at hstatus
  exact not_lost_ready hstatus (hb.lost hlost)

/-- A step that sets the icon of a category: a completion attaches its object, and a
removal leaves none. -/
def Label.SetsIcon (s : System) (categoryId : ℤ) (icon : Option Uuid) : Label → Prop
  | .commitCall id => ∃ call, s.call id = some call ∧
      call.object.iconCategory = some categoryId ∧ icon = some call.object.id
  | .removeIcon id _ => id = categoryId ∧ icon = none
  | _ => False

/-- An icon before and after a step that sets it. -/
structure IconSet (db db' : Database) (categoryId : ℤ) (icon : Option Uuid) : Prop where
  before : ∃ c ∈ db.categories, c.id = categoryId ∧ c.iconObjectId ≠ icon
  after : ∃ c ∈ db'.categories, c.id = categoryId ∧ c.iconObjectId = icon

theorem mem_retireWhere_setIcon {c : Category} {icon : Option Uuid} {p : StoredObject → Bool}
    (hc : c ∈ db.categories) : { c with iconObjectId := icon } ∈
      ((db.setIcon c.id icon).retireWhere now p).categories := by
  rw [retireWhere_categories]
  exact mem_update.mpr ⟨c, hc, .inl ⟨decide_eq_true rfl, rfl⟩⟩

/-- A completion attaches an icon that was not attached. -/
theorem commitCall_sets {call : Call} {categoryId : ℤ} (hs : s.db.Indexed) (hicons : s.db.Icons)
    (h : commitCall s call = some s') (hicon : call.object.iconCategory = some categoryId) :
    IconSet s.db s'.db categoryId (some call.object.id) := by
  unfold commitCall at h
  split at h
  · split at h
    · obtain ⟨db, hdb, rfl⟩ := Option.map_eq_some_iff.mp h
      obtain ⟨row, attached, hfound, hpending, -, hattached, rfl⟩ := commitComplete_eq hdb
      obtain ⟨hrow, hid⟩ := object_mem hfound
      rcases hattached with ⟨hnone, -⟩ | ⟨categoryId', hicon', hattach⟩
      · rw [hnone] at hicon
        cases hicon
      · cases Option.some.inj (hicon.symm.trans hicon')
        obtain ⟨category, hcategory, -, rfl⟩ := attachIcon_eq hattach
        obtain ⟨hcmem, rfl⟩ := category_mem hcategory
        refine ⟨⟨category, hcmem, rfl, fun hsame => ?_⟩,
          { category with iconObjectId := some call.object.id }, ?_, rfl, rfl⟩
        · -- the attached icon is ready, and the upload is pending
          obtain ⟨o, ho, hoid, -, hready⟩ := hicons.attached category hcmem _ hsame
          rw [hs.eq_of_id ho hrow (hoid.trans hid.symm), hpending] at hready
          cases hready
        · rw [enqueueOperation_categories]
          exact mem_retireWhere_setIcon hcmem
    · cases h
  · cases h

/-- A removal takes away the icon that was attached. -/
theorem removeIcon_sets {categoryId : ℤ} {objectId : Uuid}
    (h : step config (.removeIcon categoryId objectId) s = some s') :
    IconSet s.db s'.db categoryId none := by
  unfold step at h
  dsimp only at h
  split at h
  · obtain ⟨db, hdb, rfl⟩ := Option.map_eq_some_iff.mp h
    unfold deleteCategoryIcon at hdb
    split at hdb
    · cases hdb
    · rename_i hattached
      cases hdb
      obtain ⟨category, hcmem, rfl, hcurrent⟩ := attachedIcon_eq_some (not_not.mp hattached)
      refine ⟨⟨category, hcmem, rfl, ?_⟩, _, mem_retireWhere_setIcon hcmem, rfl, rfl⟩
      rw [hcurrent]
      exact Option.some_ne_none objectId
  · cases h

theorem step_sets (h : step config label s = some s') (hs : s.Sound) (hicons : s.db.Icons)
    {categoryId : ℤ} {icon : Option Uuid} (hlabel : label.SetsIcon s categoryId icon) :
    IconSet s.db s'.db categoryId icon := by
  cases label with
  | commitCall id =>
      obtain ⟨call, hcall, hicon, rfl⟩ := hlabel
      obtain ⟨call', hcall', h⟩ := Option.bind_eq_some_iff.mp h
      cases Option.some.inj (hcall.symm.trans hcall')
      exact commitCall_sets hs.tables.toIndexed hicons h hicon
  | removeIcon id objectId =>
      obtain ⟨rfl, rfl⟩ := hlabel
      exact removeIcon_sets h
  | _ => exact hlabel.elim

/-- A direct assignment leaves the tables as they are. -/
theorem step_assignIcon {categoryId : ℤ} {objectId : Uuid} (hicons : s.db.Icons)
    (h : step config (.assignIcon categoryId objectId) s = some s') : s'.db = s.db := by
  unfold step at h
  dsimp only at h
  split at h
  · obtain ⟨db, hdb, rfl⟩ := Option.map_eq_some_iff.mp h
    exact assignIcon_same hicons hdb
  · cases h

/-- **Category icons.**  An icon is a ready object of its category; a pending upload
for a category carries the attached icon as its snapshot; a direct assignment names
the icon that is attached; and once an icon has been attached or removed, no other
icon of the category that was there is ever the icon again. -/
theorem category_icons (hr : Reach (step config) anyStep Initial s) :
    (∀ c ∈ s.db.categories, ∀ x, c.iconObjectId = some x →
      ∃ o ∈ s.db.objects, o.id = x ∧ o.iconCategory = some c.id ∧ o.status = .ready) ∧
    (∀ o ∈ s.db.objects, o.status = .pending → ∀ c ∈ s.db.categories,
      o.iconCategory = some c.id → o.expectedIcon = c.iconObjectId) ∧
    ∀ label s', step config label s = some s' →
      (∀ categoryId objectId, label = .assignIcon categoryId objectId → s'.db = s.db) ∧
      ∀ categoryId icon, label.SetsIcon s categoryId icon →
        IconSet s.db s'.db categoryId icon ∧
        ∀ o ∈ s.db.objects, o.iconCategory = some categoryId → icon ≠ some o.id →
          ∀ t, Leads (step config) anyStep s' t → ∀ c ∈ t.db.categories,
            c.iconObjectId ≠ some o.id := by
  have hs := reach_sound hr
  have hkept := reach_icons hr
  refine ⟨hkept.2.attached, hkept.2.snapshot, fun label s' hstep => ⟨?_, ?_⟩⟩
  · rintro categoryId objectId rfl
    exact step_assignIcon hkept.2 hstep
  · intro categoryId icon hlabel
    have hset := step_sets hstep hs hkept.2 hlabel
    refine ⟨hset, fun o ho hcategory hother t hleads => ?_⟩
    obtain ⟨c, hc, rfl, hbefore⟩ := hset.before
    obtain ⟨c', hc', hid, rfl⟩ := hset.after
    obtain ⟨o', ho', hb⟩ := ((step_changes hstep hs).rows hs.tables).persist o ho
    have hlost := superseded_lost hstep hs hkept hc hc' hid (Ne.symm hbefore) hcategory hother ho' hb
    rw [← hb.id]
    exact lost_unattached (hr.step label trivial hstep) hleads ho' hlost

/-- The administrator 7 uploads an icon for the category 1. -/
def iconUpload (objectId : Uuid) (idempotencyKey : String) : UploadRequest where
  objectId
  userId := 7
  isAdmin := true
  teamMode := false
  teamId := none
  purpose := .categoryIcon
  target := { categoryId := some 1 }
  filename := "a"
  contentType := "image/png"
  checksum := "00"
  size := 10
  idempotencyKey
  requestedAt := 0

/-- Two icons are uploaded for one category, and the first is about to be attached. -/
def iconRace : List Label :=
  [.initiate (iconUpload 1 "k"), .initiate (iconUpload 2 "l"), .startPut 1 ⟨10, "image/png"⟩,
    .serve 0, .startCall 1 true, .beginCall 1 true, .serve 2, .serve 2, .checkCall 1 true]

theorem category_icons_race : ∃ s s', run (step oneAttempt) iconRace unused = some s ∧
    step oneAttempt (.commitCall 1) s = some s' ∧
    ∀ t, Leads (step oneAttempt) anyStep s' t → ∀ c ∈ t.db.categories,
      c.iconObjectId ≠ some 2 := by
  have hrun : (run (step oneAttempt) iconRace unused).any (fun s =>
      (step oneAttempt (.commitCall 1) s).isSome &&
      (s.call 1).any (fun call => call.object.id = 1 && call.object.iconCategory = some 1) &&
      s.db.objects.any fun o => o.id = 2 && o.iconCategory = some 1) = true := by
    decide +kernel
  obtain ⟨s, hs, h⟩ := (Option.any_eq_true _ _).mp hrun
  simp only [Bool.and_eq_true] at h
  obtain ⟨⟨hstep, hcall⟩, hother⟩ := h
  obtain ⟨s', hstep⟩ := Option.isSome_iff_exists.mp hstep
  obtain ⟨call, hcall, hicon⟩ := (Option.any_eq_true _ _).mp hcall
  obtain ⟨o, ho, hother⟩ := List.any_eq_true.mp hother
  simp only [Bool.and_eq_true, decide_eq_true_eq] at hicon hother
  obtain ⟨-, -, hsteps⟩ := category_icons (reach_of_run iconRace unused_initial hs)
  obtain ⟨-, hlost⟩ := (hsteps (.commitCall 1) s' hstep).2 1 (some 1)
    ⟨call, hcall, hicon.2, congrArg some hicon.1.symm⟩
  refine ⟨s, s', hs, hstep, fun t hleads => ?_⟩
  rw [← hother.1]
  refine hlost o ho hother.2 (fun heq => ?_) t hleads
  rw [hother.1] at heq
  cases heq

end CtfZone.Storage
