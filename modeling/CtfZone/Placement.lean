/-
# Placements are permanent

An instance is placed on a runtime host by its start command, and keeps the
placement for ever: only the worker that holds the claim on the start command
writes one, and it has loaded the instance under that claim.  An instance that
has left its first generation without a placement gets none.

Hence a container of an instance, and a start request for it, is never anywhere
but where the instance is placed (`System.Placements`).
-/
import CtfZone.ClaimFencing
import CtfZone.HelperReplies

open Effects Effects.Prog Runs Relation

namespace CtfZone

/-! ## How a placement evolves -/

/-- The instance is placed on the server. -/
def Database.PlacedAt (u server : Uuid) (db : Database) : Prop :=
  ∃ i ∈ db.instances, i.id = u ∧ i.remoteServerId = some server

/-- How the placement of an instance may evolve. -/
structure RuntimeInstance.Stays (i i' : RuntimeInstance) : Prop extends i.Later i' where
  kept : ∀ server, i.remoteServerId = some server → i'.remoteServerId = some server
  settled : 2 ≤ i.generation → i'.remoteServerId = i.remoteServerId

theorem RuntimeInstance.Stays.of_eq {i i' : RuntimeInstance} (h : i.Later i')
    (heq : i'.remoteServerId = i.remoteServerId) : i.Stays i' :=
  ⟨h, fun _ hserver => heq.trans hserver, fun _ => heq⟩

theorem RuntimeInstance.Stays.refl (i : RuntimeInstance) : i.Stays i := .of_eq (.refl i) rfl

theorem RuntimeInstance.Stays.trans {i i' i'' : RuntimeInstance} (h : i.Stays i')
    (h' : i'.Stays i'') : i.Stays i'' where
  toLater := h.toLater.trans h'.toLater
  kept server hserver := h'.kept server (h.kept server hserver)
  settled hgeneration :=
    (h'.settled (Int.le_trans hgeneration h.generation)).trans (h.settled hgeneration)

/-- Every placement is kept. -/
def Database.Anchors (db db' : Database) : Prop :=
  Tables.Persist RuntimeInstance.Stays db.instances db'.instances

theorem Database.Anchors.refl (db : Database) : db.Anchors db :=
  Tables.Persist.refl RuntimeInstance.Stays.refl _

/-- The server a projection records. -/
def Projection.server : Projection → Option Uuid
  | .starting server | .started server _ _ => some server
  | _ => none

section

variable {db db' : Database} {u server server' : Uuid} {command : CommandRow} {scope : Scope}
  {cleanupId : Uuid} {asked : Uuid → Prop} {ids : List Uuid} {p : Projection}

theorem Database.PlacedAt.mono (h : db.PlacedAt u server) (hanchors : db.Anchors db') :
    db'.PlacedAt u server := by
  obtain ⟨i, hi, hid, hserver⟩ := h
  obtain ⟨i', hi', hstays⟩ := hanchors i hi
  exact ⟨i', hi', hstays.id.trans hid, hstays.kept server hserver⟩

/-- An instance has one placement. -/
theorem Database.PlacedAt.unique (hsound : db.Sound) (h : db.PlacedAt u server)
    (h' : db.PlacedAt u server') : server = server' := by
  obtain ⟨i, hi, hid, hserver⟩ := h
  obtain ⟨i', hi', hid', hserver'⟩ := h'
  rw [hsound.instance_eq hi hi' (hid.trans hid'.symm), hserver'] at hserver
  exact (Option.some.inj hserver).symm

theorem Database.PlacedAt.of_mem (hsound : db.Sound) (h : db.PlacedAt u server)
    {i : RuntimeInstance} (hi : i ∈ db.instances) (hid : i.id = u) :
    i.remoteServerId = some server := by
  obtain ⟨i', hi', hid', hserver⟩ := h
  rwa [hsound.instance_eq hi hi' (hid.trans hid'.symm)]

/-! ## Which steps place an instance -/

theorem Projection.set_server (now : Time) (generation : ℤ) (i : RuntimeInstance)
    (p : Projection) :
    (p.set now generation i).remoteServerId = (p.server <|> i.remoteServerId) := by
  cases p <;> rfl

/-- A property of the rows that a request keeps. -/
theorem RequestMove.instances_persist {R : RuntimeInstance → RuntimeInstance → Prop}
    (hrefl : ∀ i, R i i) (hextended : ∀ i t, R i (i.extended t))
    (hstopping : ∀ i, R i i.stopping) (h : RequestMove asked ids db db') :
    Tables.Persist R db.instances db'.instances := by
  cases h with
  | frame hi hc => exact hi ▸ .refl hrefl _
  | launch i c launched queued iid cid slot admits hi hc => exact hi ▸ .insert hrefl i
  | extend id i t c cid hasked hext =>
      exact hext.instances ▸ .update hrefl fun j _ _ => hextended j t
  | stop i c hstops => exact hstops.instances ▸ .update hrefl fun j _ _ => hstopping j
  | enqueue i kind c mem hkind queued cid admits hi hc => exact hi ▸ .refl hrefl _
  | release p t claimed hi hc => exact hi ▸ .refl hrefl _

/-- A property of the rows that a chain of a worker's moves keeps. -/
theorem Work.instances_persist {R : RuntimeInstance → RuntimeInstance → Prop}
    (hrefl : ∀ i, R i i)
    (hproject : ∀ (db₁ : Database) i i₁ p now, Work command scope cleanupId db db₁ →
      i ∈ db.instances → i₁ ∈ db₁.instances → R i i₁ → scope.projects p →
      p.hits command.instanceId command.generation i₁ = true →
      R i (p.set now command.generation i₁))
    (hstopping : ∀ i i₁, R i i₁ → R i i₁.stopping)
    (hwork : Work command scope cleanupId db db') :
    Tables.Persist R db.instances db'.instances := by
  induction hwork with
  | refl => exact .refl hrefl _
  | @tail db₁ db₂ hwork hmove ih =>
      intro i hi
      obtain ⟨i₁, hi₁, hrel⟩ := ih i hi
      cases hmove with
      | event e => exact ⟨i₁, hi₁, hrel⟩
      | close status now _ _ => exact ⟨i₁, hi₁, hrel⟩
      | release t => exact ⟨i₁, hi₁, hrel⟩
      | project now p hp _ =>
          refine ⟨_, List.mem_map_of_mem hi₁, ?_⟩
          rcases Tables.updateRow_cases (p.hits command.instanceId command.generation)
            (p.set now command.generation ·) i₁ with ⟨-, heq⟩ | ⟨hhit, heq⟩
          · rwa [heq]
          · rw [heq]
            exact hproject db₁ i i₁ p now hwork hi hi₁ hrel hp hhit
      | terminate now reason _ =>
          rcases createTermination_cases now cleanupId command.instanceId reason db₁ with
            hsame | ⟨j, c, -, hstops⟩
          · rw [hsame]
            exact ⟨i₁, hi₁, hrel⟩
          · rw [hstops.instances]
            refine ⟨_, List.mem_map_of_mem hi₁, ?_⟩
            rcases Tables.updateRow_cases (fun k => k.id = j.id) (·.stopping) i₁ with
              ⟨-, heq⟩ | ⟨-, heq⟩
            · rwa [heq]
            · rw [heq]
              exact hstopping i i₁ hrel

theorem RequestMove.anchors (h : RequestMove asked ids db db') : db.Anchors db' :=
  h.instances_persist .refl (fun i t => .of_eq (i.extended_later t) rfl)
    fun i => .of_eq i.stopping_projected.toLater rfl

/-- What a worker that may place an instance has to know. -/
theorem Work.anchors (hp : ∀ p server, scope.projects p → p.server = some server →
      command.generation = 1 ∧ ∀ placed, db.PlacedAt command.instanceId placed → server = placed)
    (hwork : Work command scope cleanupId db db') : db.Anchors db' := by
  refine Work.instances_persist .refl (fun db₁ i i₁ p now _ hi _ hstays hprojects hhit => ?_)
    (fun i i₁ hstays => hstays.trans (.of_eq i₁.stopping_projected.toLater rfl)) hwork
  have hlater := hstays.toLater.trans (p.set_projected now command.generation i₁).toLater
  have hserver := p.set_server now command.generation i₁
  cases hplaces : p.server with
  | none =>
      rw [hplaces] at hserver
      exact hstays.trans (.of_eq (p.set_projected now command.generation i₁).toLater hserver)
  | some server =>
      rw [hplaces] at hserver
      obtain ⟨hgeneration, hsame⟩ := hp p server hprojects hplaces
      simp only [Projection.hits, Bool.and_eq_true, decide_eq_true_eq] at hhit
      refine ⟨hlater, fun placed hplaced => ?_, fun hleft => ?_⟩
      · rw [hserver, hsame placed ⟨i, hi, hstays.id.symm.trans hhit.1.1, hplaced⟩]
        rfl
      · have hle := hstays.generation
        rw [hhit.1.2, hgeneration] at hle
        exact absurd (Int.le_trans hleft hle) (by decide)

/-- A worker that places nothing leaves placements alone. -/
theorem Work.same_server (hp : ∀ p, scope.projects p → p.server = none)
    (hwork : Work command scope cleanupId db db') :
    Tables.Persist (fun i i' => i'.id = i.id ∧ i'.remoteServerId = i.remoteServerId)
      db.instances db'.instances := by
  refine Work.instances_persist (fun _ => ⟨rfl, rfl⟩)
    (fun db₁ i i₁ p now _ _ _ hsame hprojects _ => ?_) (fun _ _ hsame => hsame) hwork
  refine ⟨(p.set_projected now _ i₁).id.trans hsame.1, ?_⟩
  rw [p.set_server, hp p hprojects]
  exact hsame.2

/-- Nor does any worker for the instances of others. -/
theorem Work.same_server_of_ne (hwork : Work command scope cleanupId db db') :
    Tables.Persist (fun i i' => i'.id = i.id ∧
      (i.id ≠ command.instanceId → i'.remoteServerId = i.remoteServerId))
      db.instances db'.instances := by
  refine Work.instances_persist (fun _ => ⟨rfl, fun _ => rfl⟩)
    (fun db₁ i i₁ p now _ _ _ hsame _ hhit => ?_) (fun _ _ hsame => hsame) hwork
  refine ⟨(p.set_projected now _ i₁).id.trans hsame.1, fun hne => ?_⟩
  simp only [Projection.hits, Bool.and_eq_true, decide_eq_true_eq] at hhit
  exact absurd (hsame.1.symm.trans hhit.1.1) hne

end

/-! ## What workers and requests know of placements -/

/-- The tables have a version of the row that has kept its placement. -/
def InstanceRow.Anchored (row : InstanceRow) (db : Database) : Prop :=
  ∃ i ∈ db.instances, ∃ j : RuntimeInstance, j.Stays i ∧ row = j.row

/-- The request a worker is at. -/
def Pc.request : Pc → Option RemoteRequest
  | .send r | .await r | .finish r _ => some r
  | _ => none

/-- A start request goes where the instance is placed. -/
structure RemoteRequest.Placed (r : RemoteRequest) (db : Database) : Prop where
  start : r.call = .start → db.PlacedAt r.job.row.id r.server
  row : r.job.row.Anchored db

/-- The same for what a worker carries. -/
structure Pc.Placed (pc : Pc) (db : Database) : Prop where
  start : ∀ r, pc.request = some r → r.call = .start → db.PlacedAt r.job.row.id r.server
  row : ∀ job, pc.job = some job → job.row.Anchored db

/-- A worker that may still place its instance has loaded it as it is, as long as
its claim is valid. -/
def Pc.Views (pc : Pc) (db : Database) : Prop :=
  ∀ job, pc = .gate job ∨ pc = .place job → lockCommandClaim job.command db = true →
    ∀ i ∈ db.instances, i.id = job.row.id → i.remoteServerId = job.row.remoteServerId

/-- Containers and start requests are where their instances are placed. -/
structure System.Placements (s : System) : Prop where
  containers : ∀ server u, (s.hosts server u).container ≠ none → s.db.PlacedAt u server
  network : ∀ r ∈ s.network, r.Placed s.db
  workers : ∀ w, (s.workers w).Placed s.db
  views : ∀ w, (s.workers w).Views s.db

section

variable {db db' : Database} {row : InstanceRow} {r : RemoteRequest} {pc pc' : Pc}
  {command : CommandRow} {p : Projection} {server : Uuid}

theorem InstanceRow.Anchored.mono (h : row.Anchored db) (hanchors : db.Anchors db') :
    row.Anchored db' := by
  obtain ⟨i, hi, j, hstays, hrow⟩ := h
  obtain ⟨i', hi', hstays'⟩ := hanchors i hi
  exact ⟨i', hi', j, hstays.trans hstays', hrow⟩

/-- The placement of a row is the placement of its instance. -/
theorem InstanceRow.Anchored.placedAt (h : row.Anchored db)
    (hserver : row.remoteServerId = some server) : db.PlacedAt row.id server := by
  obtain ⟨i, hi, j, hstays, rfl⟩ := h
  exact ⟨i, hi, hstays.id, hstays.kept server hserver⟩

/-- A row that has left the first generation has the placement of its instance. -/
theorem InstanceRow.Anchored.settled (h : row.Anchored db) (hsound : db.Sound)
    (hgeneration : 2 ≤ row.generation) {i : RuntimeInstance} (hi : i ∈ db.instances)
    (hid : i.id = row.id) : i.remoteServerId = row.remoteServerId := by
  obtain ⟨i', hi', j, hstays, rfl⟩ := h
  rw [hsound.instance_eq hi hi' (hid.trans hstays.id.symm)]
  exact hstays.settled hgeneration

theorem RemoteRequest.Placed.mono (h : r.Placed db) (hanchors : db.Anchors db') : r.Placed db' :=
  ⟨fun hcall => (h.start hcall).mono hanchors, h.row.mono hanchors⟩

theorem Pc.Placed.mono (h : pc.Placed db) (hanchors : db.Anchors db') : pc.Placed db' :=
  ⟨fun r hr hcall => (h.start r hr hcall).mono hanchors,
    fun job hjob => (h.row job hjob).mono hanchors⟩

theorem Pc.Placed.idle (db : Database) : Pc.idle.Placed db :=
  ⟨fun _ hr => (by cases hr), fun _ hjob => (by cases hjob)⟩

theorem Pc.Views.of_other (hgate : ∀ job, pc ≠ .gate job) (hplace : ∀ job, pc ≠ .place job) :
    pc.Views db := by
  rintro job (rfl | rfl)
  · exact absurd rfl (hgate job)
  · exact absurd rfl (hplace job)

/-- A decision without a transaction sends no start request. -/
theorem Pc.request_dispatch {worker : ℕ} {now : Time} {job : Job}
    (h : (dispatch worker now job).request = some r) : r.call ≠ .start := by
  unfold dispatch at h
  split at h
  · cases h
  · cases hkind : job.command.kind <;> rw [hkind] at h <;> dsimp only at h
    · split_ifs at h <;> cases h
    · split_ifs at h <;> cases h
    · split_ifs at h
      · cases h
      · cases hserver : job.row.remoteServerId <;> rw [hserver] at h <;> cases h
        exact fun hcall => by cases hcall
    all_goals
      cases hserver : job.row.remoteServerId <;> rw [hserver] at h <;> cases h
      exact fun hcall => by cases hcall

/-- A worker comes to the sending of a start request by placing its instance. -/
theorem Pc.Next.start_sender {worker : ℕ} {sent : Option RemoteRequest}
    (h : Pc.Next worker db db' pc pc' sent) (hr : pc' = .send r) (hcall : r.call = .start) :
    pc = .place r.job ∧ lockCommandClaim r.job.command db = true ∧
      (∃ i ∈ db.instances, i.id = r.job.row.id ∧ i.active = true) ∧
      db'.PlacedAt r.job.row.id r.server := by
  cases h with
  | ended hover =>
      rcases hover with rfl | ⟨command, -, rfl | rfl⟩ <;> cases hr
  | loaded command job now hjob hdb =>
      exact absurd hcall (Pc.request_dispatch (congrArg Pc.request hr))
  | placed job server now hlock hplaced hhit hdb =>
      cases hr
      obtain ⟨i, hi, hhits⟩ := List.any_eq_true.mp hhit
      have hmatch := hhits
      simp only [Projection.hits, Projection.admits, Bool.and_eq_true, decide_eq_true_eq] at hmatch
      refine ⟨rfl, hlock, ⟨i, hi, hmatch.1.1, hmatch.2.1⟩, ?_⟩
      rw [hdb]
      exact ⟨_, Tables.mem_update.mpr ⟨i, hi, .inl ⟨hhits, rfl⟩⟩, hmatch.1.1, rfl⟩
  | stopping job server hserver | late r' result hcall' =>
      cases hr
      cases hcall
  | admitted job | refused job | unplaced job hserver | sent r' hdb => cases hr

/-- A start request a worker is at was already its own, or goes where the
instance has just been placed. -/
theorem Pc.Next.start_request {worker : ℕ} {sent : Option RemoteRequest}
    (h : Pc.Next worker db db' pc pc' sent) (hr : pc'.request = some r)
    (hcall : r.call = .start) : pc.request = some r ∨ db'.PlacedAt r.job.row.id r.server := by
  by_cases hsend : pc' = .send r
  · exact .inr (h.start_sender hsend hcall).2.2.2
  · cases h with
    | ended hover =>
        rcases hover with rfl | ⟨command, -, rfl | rfl⟩ <;> cases hr
    | loaded command job now hjob hdb => exact absurd hcall (Pc.request_dispatch hr)
    | sent r' hdb => exact .inl hr
    | placed | stopping | late =>
        cases hr
        exact absurd rfl hsend
    | admitted | refused | unplaced => cases hr

theorem Pc.Placed.next {worker : ℕ} {sent : Option RemoteRequest} (h : pc.Placed db)
    (hanchors : db.Anchors db') (hnext : Pc.Next worker db db' pc pc' sent) : pc'.Placed db' := by
  refine ⟨fun r hr hcall => ?_, fun job hjob => ?_⟩
  · rcases hnext.start_request hr hcall with hold | hplaced
    · exact (h.start r hold hcall).mono hanchors
    · exact hplaced
  · rcases hnext.job_cases hjob with hold | hload
    · exact (h.row job hold).mono hanchors
    · obtain ⟨-, i, hi, -, hrow⟩ := loadInstance_eq_some hload
      exact InstanceRow.Anchored.mono ⟨i, hi, i, .refl i, hrow⟩ hanchors

/-- Only the placing of an instance and the recording of a start write a
placement. -/
theorem Pc.places (hp : pc.projections p) (hserver : p.server = some server) :
    (∃ job, pc = .place job ∧ ∀ placed, job.row.remoteServerId = some placed → server = placed) ∨
      ∃ r result, pc = .finish r result ∧ r.call = .start ∧ server = r.server := by
  cases pc with
  | place job =>
      obtain ⟨chosen, rfl, hplaced⟩ := hp
      cases hserver
      exact .inl ⟨job, rfl, hplaced⟩
  | finish r result =>
      rw [Pc.projections, RemoteRequest.projections] at hp
      cases hcall : r.call <;> rw [hcall] at hp
      · obtain ⟨_, -, rfl⟩ := hp
        cases hserver
        exact .inr ⟨r, result, rfl, hcall, rfl⟩
      · exact hp.elim
      · obtain ⟨_, rfl⟩ := hp
        cases hserver
      · obtain ⟨_, -, rfl⟩ := hp
        cases hserver
      · rcases hp with ⟨-, _, rfl⟩ | ⟨-, ⟨-, rfl⟩ | ⟨-, rfl⟩⟩ <;> cases hserver
  | finishTermination job =>
      obtain ⟨_, rfl⟩ := hp
      cases hserver
  | rejectStart job | expireUnstarted job | markStopping job | retry command =>
      cases hp
      cases hserver
  | idle | load _ | cancelStale _ | cancel _ | complete _ | gate _ | send _ | await _ =>
      exact hp.elim

/-- A worker that writes a placement is at a start command. -/
theorem Pc.places_kind (hfits : pc.Fits) (hcommand : pc.command = some command)
    (hp : pc.projections p) (hserver : p.server = some server) : command.kind = .start := by
  rcases Pc.places hp hserver with ⟨job, rfl, -⟩ | ⟨r, result, rfl, hcall, -⟩
  · cases hcommand
    exact hfits.2
  · cases hcommand
    have hcallFits := hfits.1.2
    rw [hcall] at hcallFits
    exact hcallFits.1

end

/-! ## Placements over a step -/

namespace System.Placements

variable {config : Config} {s s' : System} {l : Label}

/-- What a worker under its claim writes is the placement the instance has. -/
theorem places (h : s.Placements) (hsound : s.Sound) {w : ℕ} {command : CommandRow}
    (hcommand : (s.workers w).command = some command)
    (hlock : lockCommandClaim command s.db = true) {p : Projection} {server : Uuid}
    (hp : (s.workers w).projections p) (hserver : p.server = some server) :
    command.generation = 1 ∧
      ∀ placed, s.db.PlacedAt command.instanceId placed → server = placed := by
  have hkind := Pc.places_kind (hsound.fits w) hcommand hp hserver
  refine ⟨?_, fun placed hplaced => ?_⟩
  · obtain ⟨c, hc, -, -, hckind, hgeneration⟩ := ((hsound.known w).command command hcommand).columns
    rw [← hgeneration]
    exact (hsound.db.commands c hc).start (hckind.trans hkind)
  · rcases Pc.places hp hserver with ⟨job, hpc, hrow⟩ | ⟨r, result, hpc, hcall, rfl⟩
    · rw [hpc] at hcommand
      cases hcommand
      have hviews := h.views w job (.inr hpc) hlock
      obtain ⟨i, hi, hid, hat⟩ := hplaced
      exact hrow placed ((hviews i hi (hid.trans job.loaded.symm)).symm.trans hat)
    · have hstart := (h.workers w).start r (by rw [hpc]; rfl) hcall
      rw [hpc] at hcommand
      cases hcommand
      rw [r.job.loaded] at hstart
      exact hstart.unique hsound.db hplaced

theorem anchors (h : s.Placements) (hsound : s.Sound) (hmoved : Moved config s l s') :
    s.db.Anchors s'.db := by
  cases hmoved with
  | request asked ids db' hasked fresh hmove happends => exact hmove.anchors
  | work w turn pc db' sent hl fresh hadvance =>
      obtain ⟨command, hcommand⟩ := Pc.command_of_advance hadvance
      rcases advance_work hcommand (hsound.drawn.db.freshCommand fresh) hadvance with
        rfl | ⟨hlock, hwork⟩
      · exact .refl _
      · exact Work.anchors (fun p server hp => h.places hsound hcommand hlock hp) hwork
  | _ => exact .refl _

/-- The placement of an instance whose start command another worker may hold. -/
theorem same_server (hsound : s.Sound) {w v : ℕ} (hne : w ≠ v) {job : Job}
    (hjob : (s.workers w).job = some job) (hkind : job.command.kind = .start)
    (hlock : lockCommandClaim job.command s.db = true) {command : CommandRow}
    (hcommand : (s.workers v).command = some command) {cleanupId : Uuid} {db' : Database}
    (hheld : lockCommandClaim command s.db = true)
    (hwork : Work command (s.workers v).scope cleanupId s.db db') :
    Tables.Persist (fun i i' => i'.id = i.id ∧
      (i.id = job.row.id → i'.remoteServerId = i.remoteServerId)) s.db.instances db'.instances := by
  by_cases hstart : command.kind = .start
  · by_cases hinstance : command.instanceId = job.row.id
    · -- the two workers would hold one claim
      obtain ⟨c, hc, hholds⟩ := List.any_eq_true.mp hlock
      obtain ⟨d, hd, hholds'⟩ := List.any_eq_true.mp hheld
      have hcommand' := Pc.command_of_job hjob
      obtain ⟨hcid, hckind, -⟩ := ((hsound.known w).command _ hcommand').held hsound.db hc hholds
      obtain ⟨hdid, hdkind, -⟩ := ((hsound.known v).command _ hcommand).held hsound.db hd hholds'
      have hstartKey {c : RuntimeCommand} (hk : c.kind = .start) :
          c.startKey = some c.instanceId := if_pos hk
      have hsame : c = d := hsound.db.starts c hc d hd c.instanceId
        (hstartKey (hckind.trans hkind)) (by
          rw [hstartKey (hdkind.trans hstart), hdid, hcid, hinstance, job.loaded])
      have htoken := (CommandRow.holds_eq_true hholds).2.2
      rw [hsame, (CommandRow.holds_eq_true hholds').2.2] at htoken
      exact absurd (hsound.exclusive w v _ _ hcommand' hcommand
        (Option.some.inj htoken).symm) hne
    · intro i hi
      obtain ⟨i', hi', hid, hsame⟩ := hwork.same_server_of_ne i hi
      exact ⟨i', hi', hid, fun heq => hsame (heq ▸ fun h => hinstance h.symm)⟩
  · intro i hi
    have hnone : ∀ p, (s.workers v).scope.projects p → p.server = none := fun p hp => by
      cases hserver : p.server with
      | none => rfl
      | some server => exact absurd (Pc.places_kind (hsound.fits v) hcommand hp hserver) hstart
    obtain ⟨i', hi', hid, hsame⟩ := hwork.same_server hnone i hi
    exact ⟨i', hi', hid, fun _ => hsame⟩

/-- What a worker views stays so over a step that leaves it where it is. -/
theorem views_kept (h : s.Placements) (hsound : s.Sound) (hsound' : s'.Sound)
    (hstep : System.step config l s = some s') {w : ℕ} (hw : s'.workers w = s.workers w)
    (hother : ∀ turn, l ≠ .work w turn) : (s'.workers w).Views s'.db := by
  intro job hpc hlock i' hi' hid
  rw [hw] at hpc
  have hjob : (s.workers w).job = some job := by
    rcases hpc with hpc | hpc <;> rw [hpc] <;> rfl
  have hkind : job.command.kind = .start := by
    have hfits := hsound.fits w
    rcases hpc with hpc | hpc <;> rw [hpc] at hfits <;> exact hfits.2
  have hcommand := Pc.command_of_job hjob
  have hbefore : lockCommandClaim job.command s.db = true := by
    by_contra hlost
    rw [Bool.not_eq_true] at hlost
    rw [lost_step hsound.drawn hstep (hsound.drawn.workers w _ hcommand) hlost] at hlock
    cases hlock
  obtain ⟨i, hi, j, hstays, hrow⟩ := (h.workers w).row job hjob
  have hi_id : i.id = job.row.id := by
    rw [hrow]
    exact hstays.id
  have hview := h.views w job hpc hbefore i hi hi_id
  -- the row after the step is the one that the row before has become
  have hfrom (hpersist : Tables.Persist (fun i i' => i'.id = i.id ∧
      (i.id = job.row.id → i'.remoteServerId = i.remoteServerId))
      s.db.instances s'.db.instances) : i'.remoteServerId = job.row.remoteServerId := by
    obtain ⟨i'', hi'', hid'', hsame⟩ := hpersist i hi
    rw [hsound'.db.instance_eq hi' hi'' (hid.trans (hid''.trans hi_id).symm), hsame hi_id, hview]
  have hrefl : Tables.Persist (fun i i' : RuntimeInstance => i'.id = i.id ∧
      (i.id = job.row.id → i'.remoteServerId = i.remoteServerId))
      s.db.instances s.db.instances := .refl (fun _ => ⟨rfl, fun _ => rfl⟩) _
  cases System.step_moved hstep with
  | request asked ids db' hasked fresh hmove happends =>
      exact hfrom (hmove.instances_persist (fun _ => ⟨rfl, fun _ => rfl⟩)
        (fun _ _ => ⟨rfl, fun _ => rfl⟩) fun _ => ⟨rfl, fun _ => rfl⟩)
  | work v turn pc db' sent hl fresh hadvance =>
      have hne : w ≠ v := fun heq => hother turn (heq ▸ hl)
      obtain ⟨command, hcommand'⟩ := Pc.command_of_advance hadvance
      rcases advance_work hcommand' (hsound.drawn.db.freshCommand fresh) hadvance with
        rfl | ⟨hheld, hwork⟩
      · exact hfrom hrefl
      · exact hfrom (same_server hsound hne hjob hkind hbefore hcommand' hheld hwork)
  | _ => exact hfrom hrefl

/-- What the acting worker views after its step, it has just loaded. -/
theorem views_next (h : s.Placements) (hsound : s.Sound) {w : ℕ} {turn : Turn} {pc : Pc}
    {db' : Database} {sent : Option RemoteRequest}
    (hadvance : advance config w turn s.db (s.workers w) = some (pc, db', sent)) :
    pc.Views db' := by
  intro job hpc hlock i hi hid
  have hnext := advance_next hadvance
  generalize hold : s.workers w = old at hadvance hnext
  cases hnext with
  | ended hover =>
      rcases hover with rfl | ⟨command, -, rfl | rfl⟩ <;> rcases hpc with hpc | hpc <;> cases hpc
  | loaded command loaded now hload hdb =>
      have hjob : loaded = job := by
        have hsent : (dispatch w now loaded).job = some job := by
          rcases hpc with hpc | hpc <;> rw [hpc] <;> rfl
        exact (Pc.job_dispatch hsent).symm
      obtain ⟨-, i₀, hi₀, -, hrow⟩ := loadInstance_eq_some hload
      rw [hdb] at hi
      rw [hjob] at hrow
      have hsame : i = i₀ := hsound.db.instance_eq hi hi₀ (by rw [hid, hrow]; rfl)
      rw [hsame, hrow]
      rfl
  | admitted job' =>
      have hdb : db' = s.db := by
        rw [advance] at hadvance
        exact (Prod.mk.inj (Prod.mk.inj (Option.some.inj hadvance)).2).1.symm
      rcases hpc with hpc | hpc
      · cases hpc
      · cases hpc
        rw [hdb] at hi hlock
        exact h.views w job (.inl hold) hlock i hi hid
  | _ => rcases hpc with hpc | hpc <;> cases hpc

/-- Only an `ensure-instance` creates a container. -/
theorem containers_perform {r : RemoteRequest} {env : Env} {cell : Cell}
    (hnone : cell.container = none) (hsome : (r.program env cell).2.container ≠ none) :
    r.call = .start := by
  by_contra hcall
  refine hsome ?_
  rw [RemoteRequest.program_perform]
  refine (Helper.removed_kept r.job.row.id env).perform hnone r.operation
    (fun request hop => hcall ?_) fun _ _ => trivial
  unfold RemoteRequest.operation at hop
  cases hc : r.call <;> rw [hc] at hop <;> first | rfl | cases hop

theorem views_step (h : s.Placements) (hsound : s.Sound) (hsound' : s'.Sound)
    (hstep : System.step config l s = some s') (w : ℕ) : (s'.workers w).Views s'.db := by
  by_cases hacts : ∃ turn, l = .work w turn
  · obtain ⟨turn, rfl⟩ := hacts
    obtain ⟨pc, db', sent, -, hadvance, rfl⟩ := System.work_eq_some hstep
    dsimp only
    rw [Function.update_self]
    exact h.views_next hsound hadvance
  · have hother : ∀ turn, l ≠ .work w turn := fun turn heq => hacts ⟨turn, heq⟩
    have hkept (hw : s'.workers w = s.workers w) : (s'.workers w).Views s'.db :=
      h.views_kept hsound hsound' hstep hw hother
    -- a worker that is moved stands where it places nothing
    have hmovedTo {v : ℕ} {pc : Pc} (hworkers : s'.workers = Function.update s.workers v pc)
        (hgate : ∀ job, pc ≠ .gate job) (hplace : ∀ job, pc ≠ .place job) :
        (s'.workers w).Views s'.db := by
      by_cases hw : w = v
      · rw [hworkers, hw, Function.update_self]
        exact .of_other hgate hplace
      · exact hkept (by rw [hworkers, Function.update_of_ne hw])
    cases System.step_moved hstep with
    | request asked ids db' hasked fresh hmove happends => exact hkept rfl
    | claim v now token c idle fresh mem hpending =>
        exact hmovedTo rfl (fun _ heq => by cases heq) fun _ heq => by cases heq
    | work v turn pc db' sent hl fresh hadvance =>
        refine hkept (Function.update_of_ne ?_ pc s.workers)
        rintro rfl
        exact hother turn hl
    | crash v => exact hmovedTo rfl (fun _ heq => by cases heq) fun _ heq => by cases heq
    | deliver k env lost r hl mem workers hworkers =>
        rcases hworkers with rfl | ⟨-, rfl⟩
        · exact hkept rfl
        · refine hmovedTo rfl (fun job heq => ?_) fun job heq => ?_
          all_goals
            rcases r.received_cases (replyOf (r.program env (s.hosts r.server r.job.row.id)).1) with
              hretry | ⟨reply, effective, -, -, hfinish⟩
            · rw [hretry] at heq
              cases heq
            · rw [hfinish] at heq
              cases heq
    | host server u cell htamed => exact hkept rfl

/-- Something tame creates no container. -/
theorem containers_tamed {u : Uuid} {cell cell' : Cell} (h : Tamed u cell cell')
    (hnone : cell.container = none) : cell'.container = none := by
  obtain ⟨e, htame, rfl⟩ := h
  cases e with
  | operation op env =>
      refine (Helper.removed_kept u env).perform hnone op (fun request hop => ?_)
        fun _ _ => trivial
      rw [hop] at htame
      cases htame
  | drift d =>
      cases d with
      | same => exact hnone
      | gone => rfl
      | becomes runtime => exact congrArg (Option.map _) hnone
  | timersLost kept => exact hnone

theorem step (h : s.Placements) (hsound : s.Sound) (hsound' : s'.Sound)
    (hstep : System.step config l s = some s') : s'.Placements := by
  have hviews := h.views_step hsound hsound' hstep
  have hmoved := System.step_moved hstep
  have hanchors := h.anchors hsound hmoved
  have hnetwork : ∀ r ∈ s.network, r.Placed s'.db := fun r hr => (h.network r hr).mono hanchors
  have hworkers : ∀ w, (s.workers w).Placed s'.db := fun w => (h.workers w).mono hanchors
  have hcontainers : ∀ server u, (s.hosts server u).container ≠ none → s'.db.PlacedAt u server :=
    fun server u hsome => (h.containers server u hsome).mono hanchors
  cases hmoved with
  | request asked ids db' hasked fresh hmove happends =>
      exact ⟨hcontainers, hnetwork, hworkers, hviews⟩
  | claim w now token c idle fresh mem hpending =>
      exact ⟨hcontainers, hnetwork, forall_update (Pc.Placed · _) hworkers
        ⟨fun _ hr => (by cases hr), fun _ hjob => (by cases hjob)⟩, hviews⟩
  | work w turn pc db' sent hl fresh hadvance =>
      have hnext := advance_next hadvance
      refine ⟨hcontainers, fun r hr => ?_, forall_update (Pc.Placed · _) hworkers
        ((h.workers w).next hanchors hnext), hviews⟩
      rcases List.mem_append.mp hr with hr | hr
      · exact hnetwork r hr
      · obtain rfl := Option.mem_toList.mp hr
        obtain ⟨hpc, -, -⟩ := hnext.sent_eq
        have hsender := hworkers w
        rw [hpc] at hsender
        exact ⟨hsender.start r rfl, hsender.row r.job rfl⟩
  | crash w =>
      exact ⟨hcontainers, hnetwork, forall_update (Pc.Placed · _) hworkers (.idle _), hviews⟩
  | deliver k env lost r hl mem workers hreply =>
      have hplaced := h.network r (List.mem_of_getElem? mem)
      refine ⟨?_, fun r' hr' => h.network r' (List.mem_of_mem_eraseIdx hr'), ?_, hviews⟩
      · refine setHost_cases (P := fun server u cell => cell.container ≠ none →
          s.db.PlacedAt u server) h.containers fun hsome => ?_
        by_cases hnone : (s.hosts r.server r.job.row.id).container = none
        · exact hplaced.start (containers_perform hnone hsome)
        · exact h.containers _ _ hnone
      · rcases hreply with rfl | ⟨-, rfl⟩
        · exact h.workers
        · refine forall_update (Pc.Placed · _) h.workers ⟨fun r' hr' => ?_, fun job hjob => ?_⟩
          · rcases r.received_cases (replyOf (r.program env (s.hosts r.server r.job.row.id)).1) with
              hretry | ⟨reply, effective, -, -, hfinish⟩
            · rw [hretry] at hr'
              cases hr'
            · rw [hfinish] at hr'
              cases hr'
              exact hplaced.start
          · rw [RemoteRequest.job_received hjob]
            exact hplaced.row
  | host server u cell htamed =>
      refine ⟨?_, h.network, h.workers, hviews⟩
      refine setHost_cases (P := fun server u cell => cell.container ≠ none →
        s.db.PlacedAt u server) h.containers fun hsome => ?_
      exact h.containers server u fun hnone => hsome (containers_tamed htamed hnone)

end System.Placements

theorem System.reach_placements {config : Config} {guard : System → Label → Prop} {s : System}
    (h : Reach (System.step config) guard System.Initial s) : s.Placements := by
  induction h with
  | init hinitial =>
      refine ⟨fun server u hsome => ?_, fun r hr => ?_, fun w => ?_, fun w => ?_⟩
      · rw [hinitial.hosts server u] at hsome
        exact absurd rfl hsome
      · rw [hinitial.network] at hr
        cases hr
      · rw [hinitial.workers w]
        exact .idle _
      · rw [hinitial.workers w]
        exact .of_other (fun _ heq => by cases heq) fun _ heq => by cases heq
  | step l hreach hguard hstep ih =>
      exact ih.step (System.reach_sound hreach)
        (System.reach_sound (.step l hreach hguard hstep)) hstep

end CtfZone
