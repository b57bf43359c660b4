/-
# Invariants of the system

What a worker carries and what a request carries was once in the tables, and
the tables still have a later version of it (`Known`).  Where a worker stands
says in addition what its command is (`Fits`).  Together with the soundness of
the tables this is `System.Sound`, which every step preserves.
-/
import CtfZone.RuntimeInvariants
import CtfZone.SystemMoves

open Runs Relation

namespace CtfZone

/-! ## What is carried is in the tables -/

/-- The tables have the command, with what was requested. -/
def CommandRow.Known (command : CommandRow) (db : Database) : Prop :=
  ∃ c ∈ db.commands, ∃ d : RuntimeCommand, d.SameRequest c ∧
    command = d.row command.claimToken

/-- The tables have a later version of the instance. -/
def InstanceRow.Known (row : InstanceRow) (db : Database) : Prop :=
  ∃ i ∈ db.instances, ∃ j : RuntimeInstance, j.Sound ∧ j.Later i ∧ row = j.row

/-- Both rows of a job are known. -/
structure Job.Known (job : Job) (db : Database) : Prop where
  command : job.command.Known db
  row : job.row.Known db

/-- The job a worker is at. -/
def Pc.job : Pc → Option Job
  | .cancelStale job | .gate job | .rejectStart job | .expireUnstarted job | .place job
  | .markStopping job | .finishTermination job => some job
  | .send r | .await r | .finish r _ => some r.job
  | _ => none

variable {db db' : Database} {command : CommandRow} {row : InstanceRow} {job : Job}

theorem CommandRow.Known.mono (h : command.Known db) (hlater : db.Later db') :
    command.Known db' := by
  obtain ⟨c, hc, d, hsame, hrow⟩ := h
  obtain ⟨c', hc', hsame'⟩ := hlater.commands c hc
  exact ⟨c', hc', d, hsame.trans hsame', hrow⟩

theorem InstanceRow.Known.mono (h : row.Known db) (hlater : db.Later db') : row.Known db' := by
  obtain ⟨i, hi, j, hsound, hold, hrow⟩ := h
  obtain ⟨i', hi', hnew⟩ := hlater.instances i hi
  exact ⟨i', hi', j, hsound, hold.trans hnew, hrow⟩

theorem Job.Known.mono (h : job.Known db) (hlater : db.Later db') : job.Known db' :=
  ⟨h.command.mono hlater, h.row.mono hlater⟩

/-- The row of a known command, by its columns. -/
theorem CommandRow.Known.columns (h : command.Known db) :
    ∃ c ∈ db.commands, c.id = command.id ∧ c.instanceId = command.instanceId ∧
      c.kind = command.kind ∧ c.generation = command.generation := by
  obtain ⟨c, hc, d, hsame, hrow⟩ := h
  rw [hrow]
  exact ⟨c, hc, hsame.id, hsame.instanceId, hsame.kind, hsame.generation⟩

theorem Pc.command_of_job {pc : Pc} (h : pc.job = some job) : pc.command = some job.command := by
  cases pc <;> cases h <;> rfl

/-- The row that is claimed for a command is the row of the command. -/
theorem CommandRow.Known.held (h : command.Known db) (hsound : db.Sound) {c : RuntimeCommand}
    (hc : c ∈ db.commands) (hheld : command.holds c = true) :
    c.instanceId = command.instanceId ∧ c.kind = command.kind ∧
      c.generation = command.generation := by
  obtain ⟨d, hd, hid, hinstance, hkind, hgeneration⟩ := h.columns
  simp only [CommandRow.holds, Bool.and_eq_true, decide_eq_true_eq] at hheld
  rw [hsound.command_eq hc hd (hheld.1.1.trans hid.symm)]
  exact ⟨hinstance, hkind, hgeneration⟩

/-- What a worker carries is known. -/
structure Pc.Known (pc : Pc) (db : Database) : Prop where
  command : ∀ command, pc.command = some command → command.Known db
  row : ∀ job, pc.job = some job → job.row.Known db

theorem Pc.Known.mono {pc : Pc} (h : pc.Known db) (hlater : db.Later db') : pc.Known db' :=
  ⟨fun command hcommand => (h.command command hcommand).mono hlater,
    fun job hjob => (h.row job hjob).mono hlater⟩

theorem Pc.Known.idle (db : Database) : Pc.idle.Known db :=
  ⟨fun _ hcommand => (by cases hcommand), fun _ hjob => (by cases hjob)⟩

theorem Pc.Known.of_job {pc : Pc} (h : pc.Known db) (hjob : pc.job = some job) : job.Known db :=
  ⟨h.command _ (Pc.command_of_job hjob), h.row job hjob⟩

theorem Pc.job_dispatch {worker : ℕ} {now : Time} {job' : Job}
    (h : (dispatch worker now job).job = some job') : job' = job := by
  unfold dispatch at h
  split at h
  · exact (Option.some.inj h).symm
  · cases hkind : job.command.kind <;> rw [hkind] at h <;> dsimp only at h
    · split_ifs at h
      · cases h
      · exact (Option.some.inj h).symm
      · exact (Option.some.inj h).symm
    · split_ifs at h
      · cases h
      · exact (Option.some.inj h).symm
    · split_ifs at h
      · cases h
      · cases hserver : job.row.remoteServerId <;> rw [hserver] at h
        · cases h
        · exact (Option.some.inj h).symm
    all_goals
      cases hserver : job.row.remoteServerId <;> rw [hserver] at h
      · cases h
      · exact (Option.some.inj h).symm

/-- A worker keeps its job, or has just loaded it. -/
theorem Pc.Next.job_cases {worker : ℕ} {pc pc' : Pc} {sent : Option RemoteRequest}
    (h : Pc.Next worker db db' pc pc' sent) (hjob : pc'.job = some job) :
    pc.job = some job ∨ loadInstance job.command db = some job := by
  cases h with
  | ended h =>
      rcases h with rfl | ⟨command, -, rfl | rfl⟩ <;> cases hjob
  | loaded command loaded now hload =>
      rw [Pc.job_dispatch hjob, (loadInstance_eq_some hload).1]
      exact .inr hload
  | _ => exact .inl hjob

theorem Pc.Known.next {worker : ℕ} {pc pc' : Pc} {sent : Option RemoteRequest}
    (h : pc.Known db) (hsound : db.Sound) (hlater : db.Later db')
    (hnext : Pc.Next worker db db' pc pc' sent) : pc'.Known db' := by
  refine ⟨fun command hcommand => ?_, fun job hjob => ?_⟩
  · rcases hnext.keepsCommand with rfl | hsame
    · cases hcommand
    · exact (h.command command (hsame ▸ hcommand)).mono hlater
  · rcases hnext.job_cases hjob with hold | hload
    · exact (h.row job hold).mono hlater
    · obtain ⟨-, i, hi, -, hrow⟩ := loadInstance_eq_some hload
      exact InstanceRow.Known.mono ⟨i, hi, i, hsound.instances i hi, .refl i, hrow⟩ hlater

/-- The request a worker sends is the one it stood at. -/
theorem Pc.Next.sent_eq {worker : ℕ} {pc pc' : Pc} {r : RemoteRequest}
    (h : Pc.Next worker db db' pc pc' (some r)) : pc = .send r ∧ pc' = .await r ∧ db' = db := by
  cases h with
  | sent r hdb => exact ⟨rfl, rfl, hdb⟩

theorem RemoteRequest.job_received {r : RemoteRequest} {reply : Option Helper.Reply}
    (h : (r.received reply).job = some job) : job = r.job := by
  unfold RemoteRequest.received at h
  split at h
  · cases h
  · split at h
    · exact (Option.some.inj h).symm
    · cases h

/-! ## Where a worker stands -/

/-- What the call of a request says about its command and its host. -/
def RemoteRequest.Fits (r : RemoteRequest) : Prop :=
  r.job.command.generation = r.job.row.generation ∧
    match r.call with
    | .start | .cleanup =>
      r.job.command.kind = .start ∧
        ∀ placed, r.job.row.remoteServerId = some placed → r.server = placed
    | .terminate => r.job.command.kind = .terminate ∧ r.job.row.remoteServerId = some r.server
    | .extend => r.job.command.kind = .extend ∧ r.job.row.remoteServerId = some r.server
    | .inspect =>
      (r.job.command.kind = .inspect ∨ r.job.command.kind = .reconcile) ∧
        r.job.row.remoteServerId = some r.server

/-- What the place of a worker says about its command. -/
def Pc.Fits : Pc → Prop
  | .cancelStale job => job.command.generation ≠ job.row.generation
  | .complete command => command.kind = .terminate
  | .gate job | .rejectStart job | .expireUnstarted job | .place job =>
    job.command.generation = job.row.generation ∧ job.command.kind = .start
  | .markStopping job =>
    job.command.generation = job.row.generation ∧ job.command.kind = .terminate
  | .finishTermination job =>
    job.command.generation = job.row.generation ∧ job.command.kind = .terminate ∧
      job.row.remoteServerId = none
  | .send r | .await r => r.Fits
  | .finish r result => r.Fits ∧ r.accepts result = true
  | _ => True

theorem Pc.fits_dispatch (worker : ℕ) (now : Time) (job : Job) :
    (dispatch worker now job).Fits := by
  unfold dispatch
  split
  · rename_i hgen
    exact hgen
  · rename_i hgen
    rw [not_not] at hgen
    cases hkind : job.command.kind with
    | start =>
        dsimp only
        split_ifs
        · trivial
        · exact ⟨hgen, hkind⟩
        · exact ⟨hgen, hkind⟩
    | terminate =>
        dsimp only
        split_ifs
        · exact hkind
        · exact ⟨hgen, hkind⟩
    | extend =>
        dsimp only
        split_ifs
        · trivial
        · cases hserver : job.row.remoteServerId with
          | none => trivial
          | some server => exact ⟨hgen, hkind, hserver⟩
    | inspect =>
        cases hserver : job.row.remoteServerId with
        | none => trivial
        | some server => exact ⟨hgen, .inl hkind, hserver⟩
    | reconcile =>
        cases hserver : job.row.remoteServerId with
        | none => trivial
        | some server => exact ⟨hgen, .inr hkind, hserver⟩

theorem Pc.Next.fits {worker : ℕ} {pc pc' : Pc} {sent : Option RemoteRequest} (h : pc.Fits)
    (hnext : Pc.Next worker db db' pc pc' sent) : pc'.Fits := by
  cases hnext with
  | ended hover => rcases hover with rfl | ⟨command, -, rfl | rfl⟩ <;> trivial
  | loaded command job now hjob hdb => exact Pc.fits_dispatch worker now job
  | admitted job => exact h
  | refused job => exact h
  | placed job server now hlock hplaced hhit hdb =>
      exact ⟨h.1, h.2, hplaced⟩
  | stopping job server hserver =>
      exact ⟨h.1, h.2, hserver⟩
  | unplaced job hserver => exact ⟨h.1, h.2, hserver⟩
  | sent r hdb => exact h
  | late r result hcall =>
      obtain ⟨⟨hgen, hfits⟩, -⟩ := h
      rw [hcall] at hfits
      exact ⟨hgen, hfits⟩

theorem RemoteRequest.fits_received {r : RemoteRequest} (h : r.Fits)
    (reply : Option Helper.Reply) : (r.received reply).Fits := by
  unfold RemoteRequest.received
  split
  · trivial
  · split
    · rename_i haccepts
      exact ⟨h, haccepts⟩
    · trivial

/-! ## Tokens of workers -/

/-- No two workers carry the same claim token. -/
def Exclusive (workers : ℕ → Pc) : Prop :=
  ∀ v w command command', (workers v).command = some command →
    (workers w).command = some command' → command.claimToken = command'.claimToken → v = w

theorem Exclusive.update {workers : ℕ → Pc} (h : Exclusive workers) {w : ℕ} {pc : Pc}
    (hpc : ∀ command, pc.command = some command → (workers w).command = some command ∨
      ∀ v other, (workers v).command = some other → other.claimToken ≠ command.claimToken) :
    Exclusive (Function.update workers w pc) := by
  -- a worker with the token of the one that moved is that one
  have hmoved (v : ℕ) (command other : CommandRow) (hcommand : pc.command = some command)
      (hother : (workers v).command = some other)
      (htoken : other.claimToken = command.claimToken) : v = w := by
    rcases hpc command hcommand with hold | hnew
    · exact h v w other command hother hold htoken
    · exact absurd htoken (hnew v other hother)
  intro v v' command command' hcommand hcommand' htoken
  by_cases hv : v = w <;> by_cases hv' : v' = w
  · exact hv.trans hv'.symm
  · rw [hv, Function.update_self] at hcommand
    rw [Function.update_of_ne hv'] at hcommand'
    rw [hv, hmoved v' command command' hcommand hcommand' htoken.symm]
  · rw [Function.update_of_ne hv] at hcommand
    rw [hv', Function.update_self] at hcommand'
    rw [hv', hmoved v command' command hcommand' hcommand htoken]
  · rw [Function.update_of_ne hv] at hcommand
    rw [Function.update_of_ne hv'] at hcommand'
    exact h v v' command command' hcommand hcommand' htoken

theorem Exclusive.keeps {workers : ℕ → Pc} (h : Exclusive workers) {w : ℕ} {pc : Pc}
    (hpc : pc = .idle ∨ pc.command = (workers w).command) :
    Exclusive (Function.update workers w pc) := by
  refine h.update fun command hcommand => .inl ?_
  rcases hpc with rfl | hsame
  · cases hcommand
  · exact hsame ▸ hcommand

/-! ## The system -/

/-- What holds of every state of the system. -/
structure System.Sound (s : System) : Prop where
  db : s.db.Sound
  drawn : s.Drawn
  fits : ∀ w, (s.workers w).Fits
  known : ∀ w, (s.workers w).Known s.db
  exclusive : Exclusive s.workers
  network : ∀ r ∈ s.network, r.Fits ∧ r.job.Known s.db

/-- Every instance a worker writes to gets sound values. -/
theorem Pc.projections_sound {pc : Pc} (hsound : db.Sound) (hknown : pc.Known db)
    (hcommand : pc.command = some command) :
    ∃ i ∈ db.instances, i.id = command.instanceId ∧
      ∀ p, pc.projections p → p.Sound i.maximumExpiresAt := by
  obtain ⟨c, hc, -, hinstance, -⟩ := (hknown.command command hcommand).columns
  obtain ⟨i, hi, hid, -⟩ := hsound.references c hc
  refine ⟨i, hi, hid.trans hinstance, fun p hp => ?_⟩
  -- the maximum of the loaded row is the one of the instance
  have hmax (job : Job) (hjob : pc.job = some job) :
      job.row.maximumExpiresAt = i.maximumExpiresAt := by
    obtain ⟨i', hi', j, -, hlater, hrow⟩ := hknown.row job hjob
    have hcommand' := Option.some.inj (hcommand.symm.trans (Pc.command_of_job hjob))
    have hid' : i'.id = i.id := by
      rw [hlater.id, hid, hinstance, hcommand', ← job.loaded, hrow]
      rfl
    rw [hsound.instance_eq hi' hi hid'] at hlater
    rw [hlater.maximumExpiresAt, hrow]
    rfl
  cases pc with
  | place job =>
      obtain ⟨server, rfl, -⟩ := hp
      trivial
  | finish r result =>
      have hmax := hmax r.job rfl
      rw [Pc.projections, RemoteRequest.projections] at hp
      cases hcall : r.call <;> rw [hcall] at hp
      · obtain ⟨effective, hle, rfl⟩ := hp
        exact hmax ▸ hle
      · cases hp
      · obtain ⟨expired, rfl⟩ := hp
        trivial
      · obtain ⟨effective, hle, rfl⟩ := hp
        exact hmax ▸ hle
      · rcases hp with ⟨-, expired, rfl⟩ | ⟨-, ⟨-, rfl⟩ | ⟨-, rfl⟩⟩ <;> trivial
  | rejectStart job | expireUnstarted job | markStopping job =>
      cases hp
      trivial
  | finishTermination job =>
      obtain ⟨expired, rfl⟩ := hp
      trivial
  | retry command =>
      cases hp
      exact failedState_ne_requested _
  | idle | load _ | cancelStale _ | cancel _ | complete _ | gate _ | send _ | await _ => cases hp

theorem advance_sound {config : Config} {w : ℕ} {turn : Turn} {pc pc' : Pc}
    {sent : Option RemoteRequest} (hsound : db.Sound) (hknown : pc.Known db)
    (hfresh : db.FreshCommand turn.commandId)
    (h : advance config w turn db pc = some (pc', db', sent)) : db'.Sound ∧ db.Later db' := by
  obtain ⟨command, hcommand⟩ := Pc.command_of_advance h
  rcases advance_work hcommand hfresh h with rfl | ⟨-, hwork⟩
  · exact ⟨hsound, .refl _⟩
  · exact ⟨hsound.work (Pc.projections_sound hsound hknown hcommand) hwork, Work.later hwork⟩

/-- Rows persist over every step. -/
theorem Moved.later {config : Config} {s s' : System} {l : Label} (hdrawn : s.Drawn)
    (h : Moved config s l s') : s.db.Later s'.db := by
  cases h with
  | request asked ids db' hasked fresh hmove happends => exact hmove.later
  | claim w now token c idle fresh mem hpending => exact s.db.claimRow_later now token c
  | work w turn pc db' sent hl fresh hadvance =>
      obtain ⟨command, hcommand⟩ := Pc.command_of_advance hadvance
      rcases advance_work hcommand (hdrawn.db.freshCommand fresh) hadvance with rfl | ⟨-, hwork⟩
      · exact .refl _
      · exact Work.later hwork
  | _ => exact .refl _

theorem System.Sound.step {config : Config} {s s' : System} {l : Label} (h : s.Sound)
    (hmoved : Moved config s l s') : s'.Sound := by
  have hlater := hmoved.later h.drawn
  have hdrawn := h.drawn.step hmoved
  have hnetwork : ∀ r ∈ s.network, r.Fits ∧ r.job.Known s'.db := fun r hr =>
    ⟨(h.network r hr).1, (h.network r hr).2.mono hlater⟩
  have hknown : ∀ w, (s.workers w).Known s'.db := fun w => (h.known w).mono hlater
  cases hmoved with
  | request asked ids db' hasked fresh hmove happends =>
      refine ⟨?_, hdrawn, h.fits, hknown, h.exclusive, hnetwork⟩
      refine h.db.request (fun id hid i hi heq => ?_)
        (fun id hid => h.drawn.db.freshCommand (fresh id hid)) hmove
      exact fresh id hid (heq ▸ h.drawn.db.instances i hi)
  | claim w now token c idle fresh mem hpending =>
      have hloads : (Pc.load ((c.claim now token).row token)).Known s.db := {
        command := fun command hcommand => by
          cases hcommand
          exact ⟨c, mem, c.claim now token, (c.claim_sameRequest now token).symm, rfl⟩
        row := fun job hjob => by cases hjob }
      refine ⟨h.db.claimRow now token c, hdrawn, forall_update Pc.Fits h.fits trivial,
        forall_update (Pc.Known · _) hknown (hloads.mono hlater),
        h.exclusive.update fun command hcommand => .inr fun v other hother htoken => ?_, hnetwork⟩
      cases hcommand
      have hdrawn' := h.drawn.workers v other hother
      rw [htoken] at hdrawn'
      exact fresh hdrawn'
  | work w turn pc db' sent hl fresh hadvance =>
      have hnext := advance_next hadvance
      have hsound := advance_sound h.db (h.known w) (h.drawn.db.freshCommand fresh) hadvance
      refine ⟨hsound.1, hdrawn, forall_update Pc.Fits h.fits (hnext.fits (h.fits w)),
        forall_update (Pc.Known · _) hknown ((h.known w).next h.db hsound.2 hnext),
        h.exclusive.keeps hnext.keepsCommand, fun r hr => ?_⟩
      rcases List.mem_append.mp hr with hr | hr
      · exact hnetwork r hr
      · obtain rfl := Option.mem_toList.mp hr
        obtain ⟨hpc, -, -⟩ := hnext.sent_eq
        have hfits := h.fits w
        rw [hpc] at hfits
        exact ⟨hfits, ((h.known w).of_job (by rw [hpc]; rfl)).mono hsound.2⟩
  | crash w =>
      exact ⟨h.db, hdrawn, forall_update Pc.Fits h.fits trivial,
        forall_update (Pc.Known · _) h.known (.idle s.db), h.exclusive.keeps (.inl rfl), h.network⟩
  | deliver k env lost r hl mem workers hworkers =>
      obtain ⟨hfits, hjob⟩ := h.network r (List.mem_of_getElem? mem)
      refine ⟨h.db, hdrawn, ?_, ?_, ?_, fun r' hr' => h.network r' (List.mem_of_mem_eraseIdx hr')⟩
      · rcases hworkers with rfl | ⟨-, rfl⟩
        · exact h.fits
        · exact forall_update Pc.Fits h.fits (RemoteRequest.fits_received hfits _)
      · rcases hworkers with rfl | ⟨-, rfl⟩
        · exact h.known
        · refine forall_update (Pc.Known · _) h.known ⟨fun command hcommand => ?_, fun job hjob' => ?_⟩
          · rw [RemoteRequest.command_received] at hcommand
            cases hcommand
            exact hjob.command
          · rw [RemoteRequest.job_received hjob']
            exact hjob.row
      · rcases hworkers with rfl | ⟨hwaits, rfl⟩
        · exact h.exclusive
        · refine h.exclusive.keeps (.inr ?_)
          rw [RemoteRequest.command_received, hwaits.1]
          rfl
  | host server u cell _ => exact ⟨h.db, hdrawn, h.fits, h.known, h.exclusive, h.network⟩

theorem Database.Sound.of_empty (hi : db.instances = []) (hc : db.commands = []) :
    db.Sound where
  instanceIds := hi ▸ .nil _
  commandIds := hc ▸ .nil _
  slots := hi ▸ .nil _
  keys := hc ▸ .nil _
  starts := hc ▸ .nil _
  instances := by simp [hi]
  commands := by simp [hc]
  references := by simp [hc]

theorem System.Initial.sound {s : System} (h : s.Initial) : s.Sound where
  db := .of_empty h.instances h.commands
  drawn := h.drawn
  fits w := by
    rw [h.workers w]
    trivial
  known w := by
    rw [h.workers w]
    exact .idle s.db
  exclusive v w command command' hcommand := by
    rw [h.workers v] at hcommand
    cases hcommand
  network := by simp [h.network]

/-- **Every reachable state is sound.** -/
theorem System.reach_sound {config : Config} {guard : System → Label → Prop} {s : System}
    (h : Reach (System.step config) guard System.Initial s) : s.Sound :=
  h.invariant (fun _ hinitial => hinitial.sound)
    fun _ _ _ hsound _ hstep => hsound.step (System.step_moved hstep)

/-- Rows persist along every run. -/
theorem System.leads_later {config : Config} {guard : System → Label → Prop} {s s' : System}
    (hr : Reach (System.step config) guard System.Initial s)
    (h : Leads (System.step config) guard s s') : s.db.Later s'.db :=
  h.rel (fun s => .refl s.db) (fun _ _ _ h₁ h₂ => h₁.trans h₂)
    (fun _ _ _ hreach _ hstep =>
      (System.step_moved hstep).later (System.reach_sound hreach).drawn) hr

end CtfZone
