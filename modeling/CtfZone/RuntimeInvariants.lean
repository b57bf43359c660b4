/-
# Invariants of the runtime tables

Two things hold of every transaction.

* `Database.Later`: rows persist.  A command keeps what was requested, and an
  instance keeps its owner and its maximum lifetime, never becomes active or
  desired to run again, and counts its generation up.
* `Database.Sound`: the unique indexes hold, a command refers to an instance at
  its generation or a later one, a start command is the only one of its instance
  and of generation 1, deadlines stay within the maximum, and an instance that
  is merely requested has no placement.  In particular the `CHECK` constraints
  of `runtime_instances` on deadlines never fire.
-/
import CtfZone.ControllerMoves
import CtfZone.RuntimeMoves

open Relation

namespace CtfZone

/-! ## Rows that persist -/

/-- The columns of a command that say what was requested. -/
structure RuntimeCommand.SameRequest (c c' : RuntimeCommand) : Prop where
  id : c'.id = c.id
  instanceId : c'.instanceId = c.instanceId
  kind : c'.kind = c.kind
  generation : c'.generation = c.generation
  settingRevision : c'.settingRevision = c.settingRevision
  challengeRuntimeRevision : c'.challengeRuntimeRevision = c.challengeRuntimeRevision
  payload : c'.payload = c.payload
  requestedByUserId : c'.requestedByUserId = c.requestedByUserId
  idempotencyKey : c'.idempotencyKey = c.idempotencyKey
  createdAt : c'.createdAt = c.createdAt

theorem RuntimeCommand.SameRequest.refl (c : RuntimeCommand) : c.SameRequest c :=
  ⟨rfl, rfl, rfl, rfl, rfl, rfl, rfl, rfl, rfl, rfl⟩

theorem RuntimeCommand.SameRequest.symm {c c' : RuntimeCommand} (h : c.SameRequest c') :
    c'.SameRequest c :=
  ⟨h.id.symm, h.instanceId.symm, h.kind.symm, h.generation.symm, h.settingRevision.symm,
    h.challengeRuntimeRevision.symm, h.payload.symm, h.requestedByUserId.symm,
    h.idempotencyKey.symm, h.createdAt.symm⟩

theorem RuntimeCommand.SameRequest.trans {c c' c'' : RuntimeCommand} (h : c.SameRequest c')
    (h' : c'.SameRequest c'') : c.SameRequest c'' where
  id := h'.id.trans h.id
  instanceId := h'.instanceId.trans h.instanceId
  kind := h'.kind.trans h.kind
  generation := h'.generation.trans h.generation
  settingRevision := h'.settingRevision.trans h.settingRevision
  challengeRuntimeRevision := h'.challengeRuntimeRevision.trans h.challengeRuntimeRevision
  payload := h'.payload.trans h.payload
  requestedByUserId := h'.requestedByUserId.trans h.requestedByUserId
  idempotencyKey := h'.idempotencyKey.trans h.idempotencyKey
  createdAt := h'.createdAt.trans h.createdAt

theorem RuntimeCommand.close_sameRequest (status : CommandStatus) (now : Time)
    (c : RuntimeCommand) : c.SameRequest (c.close status now) :=
  ⟨rfl, rfl, rfl, rfl, rfl, rfl, rfl, rfl, rfl, rfl⟩

theorem RuntimeCommand.release_sameRequest (t : Time) (c : RuntimeCommand) :
    c.SameRequest (c.release t) :=
  ⟨rfl, rfl, rfl, rfl, rfl, rfl, rfl, rfl, rfl, rfl⟩

theorem RuntimeCommand.claim_sameRequest (now : Time) (token : Uuid) (c : RuntimeCommand) :
    c.SameRequest (c.claim now token) :=
  ⟨rfl, rfl, rfl, rfl, rfl, rfl, rfl, rfl, rfl, rfl⟩

/-- How an instance may evolve. -/
structure RuntimeInstance.Later (i i' : RuntimeInstance) : Prop where
  id : i'.id = i.id
  ownerUserId : i'.ownerUserId = i.ownerUserId
  challengeId : i'.challengeId = i.challengeId
  deploymentSnapshot : i'.deploymentSnapshot = i.deploymentSnapshot
  maximumExpiresAt : i'.maximumExpiresAt = i.maximumExpiresAt
  generation : i.generation ≤ i'.generation
  active : i'.active = true → i.active = true
  running : i'.desiredState = .running → i.desiredState = .running

theorem RuntimeInstance.Later.refl (i : RuntimeInstance) : i.Later i :=
  ⟨rfl, rfl, rfl, rfl, rfl, Int.le_refl _, fun h => h, fun h => h⟩

theorem RuntimeInstance.Later.trans {i i' i'' : RuntimeInstance} (h : i.Later i')
    (h' : i'.Later i'') : i.Later i'' where
  id := h'.id.trans h.id
  ownerUserId := h'.ownerUserId.trans h.ownerUserId
  challengeId := h'.challengeId.trans h.challengeId
  deploymentSnapshot := h'.deploymentSnapshot.trans h.deploymentSnapshot
  maximumExpiresAt := h'.maximumExpiresAt.trans h.maximumExpiresAt
  generation := Int.le_trans h.generation h'.generation
  active := h.active ∘ h'.active
  running := h.running ∘ h'.running

/-- The slot of an instance is given up, never taken. -/
theorem RuntimeInstance.Later.activeKey {i i' : RuntimeInstance} (h : i.Later i') {k : UserId}
    (hk : i'.activeKey = some k) : i.activeKey = some k := by
  unfold RuntimeInstance.activeKey at hk ⊢
  split at hk
  · rename_i hactive
    rwa [if_pos (h.active hactive), ← h.ownerUserId]
  · cases hk

/-- What the controller may change of an instance: the columns of the request
stay as well. -/
structure RuntimeInstance.Projected (i i' : RuntimeInstance) : Prop extends i.Later i' where
  privateChallengesRevision : i'.privateChallengesRevision = i.privateChallengesRevision
  challengeRuntimeRevision : i'.challengeRuntimeRevision = i.challengeRuntimeRevision
  desiredExpiresAt : i'.desiredExpiresAt = i.desiredExpiresAt
  extensionCount : i'.extensionCount = i.extensionCount
  createdAt : i'.createdAt = i.createdAt

theorem RuntimeInstance.Projected.trans {i i' i'' : RuntimeInstance} (h : i.Projected i')
    (h' : i'.Projected i'') : i.Projected i'' where
  toLater := h.toLater.trans h'.toLater
  privateChallengesRevision := h'.privateChallengesRevision.trans h.privateChallengesRevision
  challengeRuntimeRevision := h'.challengeRuntimeRevision.trans h.challengeRuntimeRevision
  desiredExpiresAt := h'.desiredExpiresAt.trans h.desiredExpiresAt
  extensionCount := h'.extensionCount.trans h.extensionCount
  createdAt := h'.createdAt.trans h.createdAt

theorem Projection.set_projected (now : Time) (generation : ℤ) (i : RuntimeInstance)
    (p : Projection) : i.Projected (p.set now generation i) := by
  cases p
  all_goals exact ⟨⟨rfl, rfl, rfl, rfl, rfl, Int.le_refl _, by simp [Projection.set],
    by simp [Projection.set]⟩, rfl, rfl, rfl, rfl, rfl⟩

theorem Projection.set_generation (now : Time) (generation : ℤ) (i : RuntimeInstance)
    (p : Projection) : (p.set now generation i).generation = i.generation := by
  cases p <;> rfl

theorem RuntimeInstance.stopping_projected (i : RuntimeInstance) : i.Projected i.stopping :=
  ⟨⟨rfl, rfl, rfl, rfl, rfl, Int.le_add_of_nonneg_right (by decide), fun h => h,
    fun h => by cases h⟩, rfl, rfl, rfl, rfl, rfl⟩

theorem RuntimeInstance.extended_later (t : Time) (i : RuntimeInstance) :
    i.Later (i.extended t) :=
  ⟨rfl, rfl, rfl, rfl, rfl, Int.le_add_of_nonneg_right (by decide), fun h => h, fun h => h⟩

/-- Every row of earlier tables is still there, evolved. -/
structure Database.Later (db db' : Database) : Prop where
  instances : Tables.Persist RuntimeInstance.Later db.instances db'.instances
  commands : Tables.Persist RuntimeCommand.SameRequest db.commands db'.commands

section

variable {db db' db'' : Database} {asked : Uuid → Prop} {ids : List Uuid} {command : CommandRow}
  {scope : Scope} {cleanupId : Uuid}

theorem Database.Later.refl (db : Database) : db.Later db :=
  ⟨.refl RuntimeInstance.Later.refl _, .refl RuntimeCommand.SameRequest.refl _⟩

theorem Database.Later.trans (h : db.Later db') (h' : db'.Later db'') : db.Later db'' :=
  ⟨h.instances.trans (fun _ _ _ h₁ h₂ => h₁.trans h₂) h'.instances,
    h.commands.trans (fun _ _ _ h₁ h₂ => h₁.trans h₂) h'.commands⟩

theorem Database.Later.updateInstances {p : RuntimeInstance → Bool}
    {f : RuntimeInstance → RuntimeInstance} (hf : ∀ i, RuntimeInstance.Later i (f i)) :
    db.Later (db.updateInstances p f) :=
  ⟨.update RuntimeInstance.Later.refl fun i _ _ => hf i, .refl RuntimeCommand.SameRequest.refl _⟩

theorem Database.Later.updateCommands {q : RuntimeCommand → Bool}
    {g : RuntimeCommand → RuntimeCommand} (hg : ∀ c, RuntimeCommand.SameRequest c (g c)) :
    db.Later (db.updateCommands q g) :=
  ⟨.refl RuntimeInstance.Later.refl _, .update RuntimeCommand.SameRequest.refl fun c _ _ => hg c⟩

theorem Database.Later.insertCommand (c : RuntimeCommand) (hi : db'.instances = db.instances)
    (hc : db'.commands = db.commands ++ [c]) : db.Later db' :=
  ⟨hi ▸ .refl RuntimeInstance.Later.refl _, hc ▸ .insert RuntimeCommand.SameRequest.refl c⟩

theorem RequestMove.later (h : RequestMove asked ids db db') : db.Later db' := by
  cases h with
  | frame hi hc =>
      exact ⟨hi ▸ .refl RuntimeInstance.Later.refl _, hc ▸ .refl RuntimeCommand.SameRequest.refl _⟩
  | launch i c _ _ _ _ _ _ hi hc =>
      exact ⟨hi ▸ .insert RuntimeInstance.Later.refl i,
        hc ▸ .insert RuntimeCommand.SameRequest.refl c⟩
  | extend id i t c _ _ hext =>
      have hextended : db.Later (db.updateInstances (·.id = i.id) (·.extended t)) :=
        .updateInstances (RuntimeInstance.extended_later t)
      exact hextended.trans (.insertCommand c hext.instances hext.commands)
  | stop i c hstops =>
      have hstopped : db.Later (db.updateInstances (·.id = i.id) (·.stopping)) :=
        .updateInstances fun i => i.stopping_projected.toLater
      have hc := hstops.commands
      cases c with
      | none =>
          rw [Option.toList_none, List.append_nil] at hc
          exact ⟨hstops.instances ▸ hstopped.instances,
            hc ▸ .refl RuntimeCommand.SameRequest.refl _⟩
      | some c => exact hstopped.trans (.insertCommand c hstops.instances hc)
  | enqueue i kind c _ _ _ _ _ hi hc => exact .insertCommand c hi hc
  | release p t _ hi hc =>
      exact ⟨hi ▸ .refl RuntimeInstance.Later.refl _,
        hc ▸ .update RuntimeCommand.SameRequest.refl fun c _ _ => c.release_sameRequest t⟩

theorem Database.claimRow_later (now : Time) (token : Uuid) (c : RuntimeCommand)
    (db : Database) : db.Later (db.claimRow now token c) :=
  .updateCommands (RuntimeCommand.claim_sameRequest now token)

theorem WorkMove.later (h : WorkMove command scope cleanupId db db') : db.Later db' := by
  cases h with
  | event e => exact ⟨(Database.Later.refl db).instances, (Database.Later.refl db).commands⟩
  | close status now _ _ => exact .updateCommands (RuntimeCommand.close_sameRequest status now)
  | release t => exact .updateCommands (RuntimeCommand.release_sameRequest t)
  | project now p _ _ => exact .updateInstances fun i => (p.set_projected now _ i).toLater
  | terminate now reason _ => exact (createTermination_move reason db).later

theorem Work.later (h : Work command scope cleanupId db db') : db.Later db' := by
  induction h with
  | refl => exact .refl db
  | tail _ hmove ih => exact ih.trans hmove.later

end

/-! ## Soundness of the tables -/

/-- What every instance satisfies. -/
structure RuntimeInstance.Sound (i : RuntimeInstance) : Prop where
  generation : 1 ≤ i.generation
  desired : i.desiredExpiresAt ≤ i.maximumExpiresAt
  expires : i.expiresAt ≤ i.maximumExpiresAt
  observed : ∀ t, i.observedExpiresAt = some t → t ≤ i.maximumExpiresAt
  requested : i.observedState = .requested → i.remoteServerId = none

/-- What every command satisfies. -/
structure RuntimeCommand.Sound (c : RuntimeCommand) : Prop where
  start : c.kind = .start → c.generation = 1
  later : c.kind = .terminate ∨ c.kind = .extend → 2 ≤ c.generation

/-- An instance has one start command. -/
def RuntimeCommand.startKey (c : RuntimeCommand) : Option Uuid :=
  if c.kind = .start then some c.instanceId else none

/-- What every transaction preserves. -/
structure Database.Sound (db : Database) : Prop where
  instanceIds : Tables.Unique (fun i : RuntimeInstance => some i.id) db.instances
  commandIds : Tables.Unique (fun c : RuntimeCommand => some c.id) db.commands
  slots : Tables.Unique RuntimeInstance.activeKey db.instances
  keys : Tables.Unique RuntimeCommand.idempotency db.commands
  starts : Tables.Unique RuntimeCommand.startKey db.commands
  instances : ∀ i ∈ db.instances, i.Sound
  commands : ∀ c ∈ db.commands, c.Sound
  references : ∀ c ∈ db.commands, ∃ i ∈ db.instances,
    i.id = c.instanceId ∧ c.generation ≤ i.generation

namespace Database.Sound

variable {db db' : Database} {asked : Uuid → Prop} {ids : List Uuid} {command : CommandRow}
  {scope : Scope} {cleanupId : Uuid}

/-- Two rows with one identifier are one row. -/
theorem instance_eq (h : db.Sound) {i j : RuntimeInstance} (hi : i ∈ db.instances)
    (hj : j ∈ db.instances) (hid : i.id = j.id) : i = j :=
  h.instanceIds i hi j hj j.id (congrArg some hid) rfl

theorem command_eq (h : db.Sound) {c d : RuntimeCommand} (hc : c ∈ db.commands)
    (hd : d ∈ db.commands) (hid : c.id = d.id) : c = d :=
  h.commandIds c hc d hd d.id (congrArg some hid) rfl

/-- A command is not ahead of its instance. -/
theorem generation_le (h : db.Sound) {c : RuntimeCommand} {i : RuntimeInstance}
    (hc : c ∈ db.commands) (hi : i ∈ db.instances) (hid : i.id = c.instanceId) :
    c.generation ≤ i.generation := by
  obtain ⟨j, hj, hjid, hle⟩ := h.references c hc
  rwa [h.instance_eq hi hj (hid.trans hjid.symm)]

theorem of_eq (h : db.Sound) (hi : db'.instances = db.instances)
    (hc : db'.commands = db.commands) : db'.Sound :=
  ⟨hi ▸ h.instanceIds, hc ▸ h.commandIds, hi ▸ h.slots, hc ▸ h.keys, hc ▸ h.starts,
    hi ▸ h.instances, hc ▸ h.commands, hi ▸ hc ▸ h.references⟩

theorem updateInstances (h : db.Sound) {p : RuntimeInstance → Bool}
    {f : RuntimeInstance → RuntimeInstance} (hf : ∀ i, RuntimeInstance.Later i (f i))
    (hsound : ∀ i ∈ db.instances, p i = true → i.Sound → (f i).Sound) :
    (db.updateInstances p f).Sound where
  instanceIds := h.instanceIds.update fun i _ _ k hk => by rwa [(hf i).id] at hk
  commandIds := h.commandIds
  slots := h.slots.update fun i _ _ k hk => (hf i).activeKey hk
  keys := h.keys
  starts := h.starts
  instances := Tables.forall_update h.instances hsound
  commands := h.commands
  references c hc := by
    obtain ⟨i, hi, hid, hle⟩ := h.references c hc
    obtain ⟨i', hi', hlater⟩ := (Later.updateInstances hf).instances i hi
    exact ⟨i', hi', hlater.id.trans hid, Int.le_trans hle hlater.generation⟩

theorem updateCommands (h : db.Sound) {q : RuntimeCommand → Bool}
    {g : RuntimeCommand → RuntimeCommand} (hg : ∀ c, RuntimeCommand.SameRequest c (g c)) :
    (db.updateCommands q g).Sound where
  instanceIds := h.instanceIds
  commandIds := h.commandIds.update fun c _ _ k hk => by rwa [(hg c).id] at hk
  slots := h.slots
  keys := h.keys.update fun c _ _ k hk => by
    unfold RuntimeCommand.idempotency at hk ⊢
    rwa [(hg c).requestedByUserId, (hg c).idempotencyKey, (hg c).kind] at hk
  starts := h.starts.update fun c _ _ k hk => by
    unfold RuntimeCommand.startKey at hk ⊢
    rwa [(hg c).kind, (hg c).instanceId] at hk
  instances := h.instances
  commands := Tables.forall_update h.commands fun c _ _ hc =>
    ⟨fun hk => (hg c).generation ▸ hc.start ((hg c).kind ▸ hk),
      fun hk => (hg c).generation ▸ hc.later ((hg c).kind ▸ hk)⟩
  references := Tables.forall_update h.references fun c _ _ hc => by
    rwa [(hg c).instanceId, (hg c).generation]

/-- A command that may be queued for an instance. -/
theorem insertCommand (h : db.Sound) {c : RuntimeCommand} (i : RuntimeInstance)
    (kind : CommandKind) (hi : i ∈ db.instances) (hqueued : c.QueuedFor i kind)
    (hfresh : db.FreshCommand c.id) (hadmits : db.Admits c)
    (hstart : kind = .start → i.generation = 1 ∧ ∀ d ∈ db.commands, d.instanceId ≠ i.id)
    (hlater : kind = .terminate ∨ kind = .extend → 2 ≤ i.generation)
    (hinstances : db'.instances = db.instances) (hcommands : db'.commands = db.commands ++ [c]) :
    db'.Sound where
  instanceIds := hinstances ▸ h.instanceIds
  commandIds := by
    rw [hcommands]
    refine h.commandIds.insert fun d hd k hk hk' => hfresh d hd ?_
    exact Option.some.inj (hk.trans hk'.symm)
  slots := hinstances ▸ h.slots
  keys := by
    rw [hcommands]
    exact h.keys.insert fun d hd => clash_eq_false (hadmits.idempotency d hd)
  starts := by
    rw [hcommands]
    refine h.starts.insert fun d hd k hk hk' => ?_
    unfold RuntimeCommand.startKey at hk hk'
    rw [hqueued.kind] at hk'
    split at hk <;> split at hk'
    · rename_i _ hkind
      refine (hstart hkind).2 d hd ?_
      rw [← hqueued.instanceId]
      exact Option.some.inj (hk.trans hk'.symm)
    · cases hk'
    · cases hk
    · cases hk
  instances := hinstances ▸ h.instances
  commands := by
    rw [hcommands]
    refine Tables.forall_insert h.commands ⟨fun hkind => ?_, fun hkind => ?_⟩
    · rw [hqueued.generation]
      exact (hstart (hqueued.kind ▸ hkind)).1
    · rw [hqueued.generation]
      exact hlater (hqueued.kind ▸ hkind)
  references := by
    rw [hcommands, hinstances]
    exact Tables.forall_insert h.references
      ⟨i, hi, hqueued.instanceId.symm, Int.le_of_eq hqueued.generation⟩

end Database.Sound

/-! ## Soundness is preserved -/

theorem RuntimeInstance.Sound.stopping {i : RuntimeInstance} (h : i.Sound) : i.stopping.Sound :=
  ⟨Int.le_add_one h.generation, h.desired, h.expires, h.observed, h.requested⟩

theorem RuntimeInstance.Sound.extended {i : RuntimeInstance} {t : Time} (h : i.Sound)
    (ht : t ≤ i.maximumExpiresAt) : (i.extended t).Sound :=
  ⟨Int.le_add_one h.generation, ht, h.expires, h.observed, h.requested⟩

theorem RuntimeInstance.Launched.sound {i : RuntimeInstance} (h : i.Launched) : i.Sound where
  generation := Int.le_of_eq h.generation.symm
  desired := h.maximum
  expires := by
    rw [h.expiresAt]
    exact h.maximum
  observed t ht := by
    rw [h.unreached] at ht
    cases ht
  requested _ := h.unplaced

/-- A projection keeps an instance sound: deadlines are within the maximum, and
no instance is merely requested again. -/
def Projection.Sound (maximum : Time) : Projection → Prop
  | .started _ effective _ | .extended effective => effective ≤ maximum
  | .commandFailed state => state ≠ .requested
  | _ => True

theorem Projection.set_sound {now : Time} {generation : ℤ} {i : RuntimeInstance} (h : i.Sound) :
    ∀ {p : Projection}, p.Sound i.maximumExpiresAt → (p.set now generation i).Sound
  | .started .., hp => ⟨h.generation, h.desired, hp, fun _ ht => by cases ht; exact hp, nofun⟩
  | .extended _, hp =>
    ⟨h.generation, h.desired, hp, fun _ ht => by cases ht; exact hp, h.requested⟩
  | .commandFailed _, hp =>
    ⟨h.generation, h.desired, h.expires, h.observed, fun hrequested => absurd hrequested hp⟩
  | .terminated expired, _ | .missing expired, _ =>
    ⟨h.generation, h.desired, h.expires, h.observed,
      fun hrequested => by cases expired <;> cases hrequested⟩
  | .starting _, _ | .stopping, _ | .notReady, _ | .reconciled, _ | .rejected, _
  | .expiredUnstarted, _ =>
    ⟨h.generation, h.desired, h.expires, h.observed, fun hrequested => by cases hrequested⟩

theorem failedState_ne_requested (kind : CommandKind) : failedState kind ≠ .requested := by
  cases kind <;> decide

namespace Database.Sound

variable {db db' : Database} {asked : Uuid → Prop} {ids : List Uuid} {command : CommandRow}
  {scope : Scope} {cleanupId : Uuid}

theorem stops {i : RuntimeInstance} {c : Option RuntimeCommand} (h : db.Sound)
    (hfresh : ∀ id ∈ ids, db.FreshCommand id) (hstops : Stops ids db i c db') : db'.Sound := by
  have hstopped : (db.updateInstances (·.id = i.id) (·.stopping)).Sound :=
    h.updateInstances (fun i => i.stopping_projected.toLater) fun _ _ _ hi => hi.stopping
  have hc := hstops.commands
  cases c with
  | none =>
      rw [Option.toList_none, List.append_nil] at hc
      exact hstopped.of_eq hstops.instances hc
  | some c =>
      obtain ⟨hqueued, hid, hadmits⟩ := hstops.queued c rfl
      refine hstopped.insertCommand i.stopping .terminate ?_ hqueued
        (hfresh c.id hid) ⟨hadmits.idempotency, hadmits.openKey⟩ (fun hk => by cases hk)
        (fun _ => ?_) hstops.instances hc
      · exact Tables.mem_update.mpr ⟨i, hstops.mem, .inl ⟨decide_eq_true rfl, rfl⟩⟩
      · exact Int.add_le_add_right (h.instances i hstops.mem).generation 1

theorem request (h : db.Sound) (hinstances : ∀ id ∈ ids, ∀ i ∈ db.instances, i.id ≠ id)
    (hcommands : ∀ id ∈ ids, db.FreshCommand id) (hmove : RequestMove asked ids db db') :
    db'.Sound := by
  cases hmove with
  | frame hi hc => exact h.of_eq hi hc
  | launch i c launched queued iid cid slot admits hi hc =>
      have hnew : ∀ d ∈ db.commands, d.instanceId ≠ i.id := fun d hd hid => by
        obtain ⟨j, hj, hjid, -⟩ := h.references d hd
        exact hinstances _ iid j hj (hjid.trans hid)
      have hinserted : Database.Sound { db with instances := db.instances ++ [i] } := {
        instanceIds := h.instanceIds.insert fun j hj k hk hk' =>
          hinstances _ iid j hj (Option.some.inj (hk.trans hk'.symm))
        commandIds := h.commandIds
        slots := h.slots.insert fun j hj => clash_eq_false (slot j hj)
        keys := h.keys
        starts := h.starts
        instances := Tables.forall_insert h.instances launched.sound
        commands := h.commands
        references := fun d hd => by
          obtain ⟨j, hj, hjid⟩ := h.references d hd
          exact ⟨j, List.mem_append_left _ hj, hjid⟩ }
      exact hinserted.insertCommand i .start
        (List.mem_append_right _ List.mem_cons_self) queued (hcommands _ cid)
        ⟨admits.idempotency, admits.openKey⟩ (fun _ => ⟨launched.generation, hnew⟩)
        (fun hk => by rcases hk with hk | hk <;> cases hk) hi hc
  | extend id i t c cid hasked hext =>
      have hextended : (db.updateInstances (·.id = i.id) (·.extended t)).Sound := by
        refine h.updateInstances (RuntimeInstance.extended_later t) fun j hj hp hsound => ?_
        rw [h.instance_eq hj hext.mem (of_decide_eq_true hp)] at hsound ⊢
        exact hsound.extended hext.maximum
      refine hextended.insertCommand (i.extended t) .extend ?_ hext.queued
        (hcommands _ (hext.id ▸ cid)) ⟨hext.admits.idempotency, hext.admits.openKey⟩
        (fun hk => by cases hk) (fun _ => ?_) hext.instances hext.commands
      · exact Tables.mem_update.mpr ⟨i, hext.mem, .inl ⟨decide_eq_true rfl, rfl⟩⟩
      · exact Int.add_le_add_right (h.instances i hext.mem).generation 1
  | stop i c hstops => exact h.stops hcommands hstops
  | enqueue i kind c mem hkind queued cid admits hi hc =>
      refine h.insertCommand i kind mem queued (hcommands _ cid) admits (fun hk => ?_) (fun hk => ?_) hi hc
      · rcases hkind with rfl | rfl <;> cases hk
      · rcases hkind with rfl | rfl <;> rcases hk with hk | hk <;> cases hk
  | release p t _ hi hc =>
      exact (h.updateCommands (q := p) (RuntimeCommand.release_sameRequest t)).of_eq hi hc

theorem claimRow (h : db.Sound) (now : Time) (token : Uuid) (c : RuntimeCommand) :
    (db.claimRow now token c).Sound :=
  h.updateCommands (RuntimeCommand.claim_sameRequest now token)

/-- A move keeps the tables sound when its projections do for the instance of
the command. -/
theorem move (h : db.Sound) (hprojects : ∃ i ∈ db.instances, i.id = command.instanceId ∧
      ∀ p, scope.projects p → p.Sound i.maximumExpiresAt)
    (hmove : WorkMove command scope cleanupId db db') : db'.Sound := by
  cases hmove with
  | event e => exact h.of_eq rfl rfl
  | close status now _ _ => exact h.updateCommands (RuntimeCommand.close_sameRequest status now)
  | release t => exact h.updateCommands (RuntimeCommand.release_sameRequest t)
  | project now p hp _ =>
      obtain ⟨i, hi, hid, hsound⟩ := hprojects
      refine h.updateInstances (fun i => (p.set_projected now _ i).toLater)
        fun j hj hhit hsoundj => Projection.set_sound hsoundj ?_
      simp only [Projection.hits, Bool.and_eq_true, decide_eq_true_eq] at hhit
      rw [h.instance_eq hj hi (hhit.1.1.trans hid.symm)]
      exact hsound p hp
  | terminate now reason hid =>
      rcases createTermination_cases now cleanupId command.instanceId reason db with
        hsame | ⟨i, c, -, hstops⟩
      · rwa [hsame]
      · exact h.stops (fun id hmem => by rwa [List.mem_singleton.mp hmem]) hstops

theorem work (h : db.Sound) (hprojects : ∃ i ∈ db.instances, i.id = command.instanceId ∧
      ∀ p, scope.projects p → p.Sound i.maximumExpiresAt)
    (hwork : Work command scope cleanupId db db') : db'.Sound := by
  induction hwork with
  | refl => exact h
  | tail hwork hmove ih =>
      obtain ⟨i, hi, hid, hsound⟩ := hprojects
      obtain ⟨i', hi', hlater⟩ := (Work.later hwork).instances i hi
      refine ih.move ⟨i', hi', hlater.id.trans hid, ?_⟩ hmove
      rwa [hlater.maximumExpiresAt]

end Database.Sound

end CtfZone
