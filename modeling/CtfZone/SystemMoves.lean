/-
# What a step of the system can do

`Moved` is the inversion of `System.step`: a request of the API or of the
housekeeping, a claim, a step of a worker, the end of a session, a delivery, or
something on a runtime host that starts no container.  The invariants of the
whole system are proved by cases on it.

`Drawn` is the first of them: every identifier and every claim token that the
system knows has been drawn, so that a UUID that is drawn later is new.
-/
import CtfZone.ControllerMoves
import CtfZone.RuntimeMoves
import CtfZone.RuntimeSystem

open Effects Runs Relation

namespace CtfZone

/-! ## Host operations behind a request -/

/-- The operation a request performs on its host. -/
def RemoteRequest.operation (r : RemoteRequest) : Helper.Operation :=
  match r.call with
  | .start => .ensure r.payload
  | .cleanup | .terminate => .stop r.payload
  | .extend => .update r.payload
  | .inspect => .inspect

theorem RemoteRequest.program_perform (r : RemoteRequest) (env : Env) (cell : Cell) :
    (r.program env cell).2 = r.operation.perform r.job.row.id env cell := by
  unfold RemoteRequest.program RemoteRequest.operation
  cases r.call <;> rfl

/-- The event is neither an `ensure-instance` nor an `update-deadline`. -/
def Helper.Event.tame : Helper.Event → Bool
  | .operation (.ensure _) _ | .operation (.update _) _ => false
  | _ => true

/-- Something happens on a host to one UUID that starts nothing and extends
nothing. -/
def Tamed (u : Uuid) (cell cell' : Cell) : Prop :=
  ∃ e : Helper.Event, e.tame = true ∧ cell' = e.apply u cell

/-- A property of every cell survives the change of one to a cell that has it. -/
theorem setHost_cases {s : System} {server u : Uuid} {cell : Cell}
    {P : Uuid → Uuid → Cell → Prop} (h : ∀ server u, P server u (s.hosts server u))
    (hcell : P server u cell) :
    ∀ server' u', P server' u' ((s.setHost server u cell).hosts server' u') := by
  intro server' u'
  unfold System.setHost
  dsimp only
  rcases eq_or_ne server' server with rfl | hserver
  · rw [Function.update_self]
    rcases eq_or_ne u' u with rfl | hu
    · rwa [Function.update_self]
    · rw [Function.update_of_ne hu]
      exact h server' u'
  · rw [Function.update_of_ne hserver]
    exact h server' u'

/-! ## Inversion of a step -/

/-- What a step does. -/
inductive Moved (config : Config) (s : System) (l : Label) : System → Prop
  | request (asked : Uuid → Prop) (ids : List Uuid) (db' : Database)
    (hasked : ∀ u, asked u → ∃ now id user request, l = .extend now id user u request) (fresh : ∀ id ∈ ids, id ∉ s.drawn)
    (h : RequestMove asked ids s.db db') (happends : Appends s.db db') :
    Moved config s l { s with db := db', drawn := ids ++ s.drawn }
  | claim (w : ℕ) (now : Time) (token : Uuid) (c : RuntimeCommand) (idle : s.workers w = .idle)
    (fresh : token ∉ s.drawn) (mem : c ∈ s.db.commands)
    (hpending : c.status = .pending) :
    Moved config s l { s with
      db := s.db.claimRow now token c
      workers := Function.update s.workers w (.load ((c.claim now token).row token))
      drawn := token :: s.drawn }
  | work (w : ℕ) (turn : Turn) (pc : Pc) (db' : Database) (sent : Option RemoteRequest)
    (hl : l = .work w turn) (fresh : turn.commandId ∉ s.drawn)
    (h : advance config w turn s.db (s.workers w) = some (pc, db', sent)) :
    Moved config s l { s with
      db := db'
      workers := Function.update s.workers w pc
      network := s.network ++ sent.toList
      drawn := turn.commandId :: s.drawn }
  | crash (w : ℕ) : Moved config s l { s with workers := Function.update s.workers w .idle }
  | deliver (k : ℕ) (env : Env) (lost : Bool) (r : RemoteRequest)
    (hl : l = .deliver k env lost) (mem : s.network[k]? = some r) (workers : ℕ → Pc)
    (hworkers : workers = s.workers ∨ (s.workers r.worker = .await r ∧ lost = false) ∧
      workers = Function.update s.workers r.worker
        (r.received (replyOf (r.program env (s.hosts r.server r.job.row.id)).1))) :
    Moved config s l { s.setHost r.server r.job.row.id
        (r.program env (s.hosts r.server r.job.row.id)).2 with
      workers := workers
      network := s.network.eraseIdx k }
  | host (server u : Uuid) (cell : Cell) (h : Tamed u (s.hosts server u) cell) :
    Moved config s l (s.setHost server u cell)

theorem claimCommand_eq_some {now : Time} {token id : Uuid} {db db' : Database}
    {command : CommandRow} (h : claimCommand now token id db = some (command, db')) :
    ∃ c ∈ db.commands, c.status = .pending ∧ command = (c.claim now token).row token ∧
      db' = db.claimRow now token c := by
  unfold claimCommand at h
  split at h
  · cases h
  · rename_i c hc
    cases h
    have hwhere := List.find?_some hc
    simp only [Bool.and_eq_true, decide_eq_true_eq] at hwhere
    exact ⟨c, List.mem_of_find?_eq_some hc, hwhere.1.2, rfl, rfl⟩

/-- Most requests ask for no extension. -/
theorem asksNothing {l : Label} (u : Uuid) (h : False) :
    ∃ now id user request, l = .extend now id user u request :=
  h.elim

theorem System.transact_moved {config : Config} {s s' : System} {l : Label} {ids : List Uuid}
    {asked : Uuid → Prop}
    (hasked : ∀ u, asked u → ∃ now id user request, l = .extend now id user u request)
    {tx : Database → Database} (hmove : RequestMove asked ids s.db (tx s.db))
    (happends : Appends s.db (tx s.db)) (h : s.transact ids tx = some s') : Moved config s l s' := by
  unfold System.transact at h
  split at h
  · cases h
  · rename_i hfresh
    cases h
    exact .request asked ids (tx s.db) hasked (by simpa using hfresh) hmove happends

theorem System.deliver_moved {config : Config} {s s' : System} {k : ℕ} {env : Env} {lost : Bool}
    (h : s.deliver k env lost = some s') : Moved config s (.deliver k env lost) s' := by
  unfold System.deliver at h
  split at h
  · cases h
  · rename_i r hr
    cases h
    split
    · rename_i hwaits
      exact .deliver k env lost r rfl hr _ (.inr ⟨hwaits, rfl⟩)
    · exact .deliver k env lost r rfl hr _ (.inl rfl)

/-- A step of a worker draws an identifier and advances the worker. -/
theorem System.work_eq_some {config : Config} {s s' : System} {w : ℕ} {turn : Turn}
    (h : System.step config (.work w turn) s = some s') :
    ∃ pc db' sent, turn.commandId ∉ s.drawn ∧
      advance config w turn s.db (s.workers w) = some (pc, db', sent) ∧
      s' = { s with
        db := db'
        workers := Function.update s.workers w pc
        network := s.network ++ sent.toList
        drawn := turn.commandId :: s.drawn } := by
  rw [System.step, System.work] at h
  split at h
  · cases h
  · rename_i hfresh
    split at h
    · cases h
    · rename_i pc db' sent hadvance
      cases h
      exact ⟨pc, db', sent, hfresh, hadvance, rfl⟩

/-- **The inversion of a step.** -/
theorem System.step_moved {config : Config} {s s' : System} {l : Label}
    (h : System.step config l s = some s') : Moved config s l s' := by
  cases l with
  | ensure =>
      rw [System.step] at h
      exact System.transact_moved asksNothing (ensureInstance_move ..) (ensureInstance_appends ..) h
  | extend now id user u request =>
      rw [System.step] at h
      refine System.transact_moved (fun _ hu => ?_) (extendInstance_move ..)
        (extendInstance_appends ..) h
      exact ⟨now, id, user, request, by rw [hu]⟩
  | terminate =>
      rw [System.step] at h
      exact System.transact_moved asksNothing (requestTermination_move _) (requestTermination_appends _) h
  | reconcile =>
      rw [System.step] at h
      exact System.transact_moved asksNothing (reconcileInstance_move _) (reconcileInstance_appends _) h
  | setting =>
      rw [System.step] at h
      exact System.transact_moved asksNothing (updatePrivateChallengesSetting_move _ _)
        (updatePrivateChallengesSetting_appends _ _) h
  | profile =>
      rw [System.step] at h
      exact System.transact_moved asksNothing (putChallengeRuntime_move _ _) (putChallengeRuntime_appends _ _) h
  | recoverStale =>
      rw [System.step] at h
      exact System.transact_moved asksNothing (recoverStaleClaims_move ..) (.same rfl) h
  | recoverAll =>
      rw [System.step] at h
      exact System.transact_moved asksNothing (recoverAllClaims_move ..) (.same rfl) h
  | createTermination =>
      rw [System.step] at h
      exact System.transact_moved asksNothing (createTermination_move _ _) (createTermination_appends _ _) h
  | enqueueInspection =>
      rw [System.step] at h
      exact System.transact_moved asksNothing (enqueueInspection_move _ _) (enqueueInspection_appends _ _) h
  | claim w now token id =>
      rw [System.step, System.claim] at h
      split at h
      · cases h
      · rename_i hready
        rw [not_or, not_not] at hready
        split at h
        · cases h
        · rename_i command db' hclaim
          obtain ⟨c, hc, hpending, rfl, rfl⟩ := claimCommand_eq_some hclaim
          cases h
          exact .claim w now token c hready.1 hready.2 hc hpending
  | work w turn =>
      obtain ⟨pc, db', sent, hfresh, hadvance, rfl⟩ := System.work_eq_some h
      exact .work w turn pc db' sent rfl hfresh hadvance
  | crash w =>
      cases h
      exact .crash w
  | deliver k env lost => exact System.deliver_moved h
  | degradedCleanup id server env =>
      rw [System.step, System.degradedCleanup] at h
      split at h
      · cases h
      · rename_i c _
        split at h
        · cases h
          exact .host server c.instanceId _
            ⟨.operation (.stop (degradedRequest c)) env, rfl, rfl⟩
        · cases h
  | host server u e =>
      cases h
      refine .host server u _ ⟨e.event, ?_, rfl⟩
      cases e <;> rfl

/-! ## Identifiers are drawn -/

theorem Moved.drawn_subset {config : Config} {s s' : System} {l : Label}
    (h : Moved config s l s') {id : Uuid} (hid : id ∈ s.drawn) : id ∈ s'.drawn := by
  cases h with
  | request _ ids => exact List.mem_append_right ids hid
  | claim w now token => exact List.mem_cons_of_mem token hid
  | work w turn => exact List.mem_cons_of_mem turn.commandId hid
  | _ => exact hid

/-- Every identifier and token of the tables has been drawn. -/
structure Database.Drawn (drawn : List Uuid) (db : Database) : Prop where
  instances : ∀ i ∈ db.instances, i.id ∈ drawn
  commands : ∀ c ∈ db.commands, c.id ∈ drawn
  tokens : ∀ c ∈ db.commands, ∀ t, c.claimToken = some t → t ∈ drawn

/-- The token of a worker has been drawn. -/
def Pc.Drawn (drawn : List Uuid) (pc : Pc) : Prop :=
  ∀ command, pc.command = some command → command.claimToken ∈ drawn

/-- So have those of the whole system. -/
structure System.Drawn (s : System) : Prop where
  db : s.db.Drawn s.drawn
  workers : ∀ w, (s.workers w).Drawn s.drawn

/-- A property of every worker survives the move of one that has it. -/
theorem forall_update (P : Pc → Prop) {workers : ℕ → Pc} (h : ∀ v, P (workers v)) {w : ℕ}
    {pc : Pc} (hpc : P pc) : ∀ v, P (Function.update workers w pc v) := by
  intro v
  rcases eq_or_ne v w with rfl | hne
  · rwa [Function.update_self]
  · rw [Function.update_of_ne hne]
    exact h v

namespace Database.Drawn

variable {asked : Uuid → Prop} {drawn ids : List Uuid} {db db' : Database}

theorem mono (h : db.Drawn drawn) (hsub : ∀ id ∈ drawn, id ∈ ids) : db.Drawn ids where
  instances i hi := hsub _ (h.instances i hi)
  commands c hc := hsub _ (h.commands c hc)
  tokens c hc t ht := hsub _ (h.tokens c hc t ht)

theorem freshCommand (h : db.Drawn drawn) {id : Uuid} (hid : id ∉ drawn) :
    db.FreshCommand id := by
  rintro c hc rfl
  exact hid (h.commands c hc)

/-- Updates that keep the identifiers and introduce no token. -/
theorem update (h : db.Drawn drawn) {p : RuntimeInstance → Bool}
    {f : RuntimeInstance → RuntimeInstance} {q : RuntimeCommand → Bool}
    {g : RuntimeCommand → RuntimeCommand} (hf : ∀ i, (f i).id = i.id)
    (hg : ∀ c, (g c).id = c.id) (ht : ∀ c t, (g c).claimToken = some t → t ∈ drawn)
    (hi : db'.instances = Tables.update p f db.instances)
    (hc : db'.commands = Tables.update q g db.commands) : db'.Drawn drawn where
  instances := by
    rw [hi]
    exact Tables.forall_update h.instances fun i _ _ hid => by rwa [hf]
  commands := by
    rw [hc]
    exact Tables.forall_update h.commands fun c _ _ hid => by rwa [hg]
  tokens := by
    rw [hc]
    exact Tables.forall_update h.tokens fun c _ _ _ => ht c

/-- A queued command with a drawn identifier. -/
theorem queue (h : db.Drawn drawn) {c : RuntimeCommand} (hid : c.id ∈ drawn)
    (ht : c.claimToken = none) (hi : db'.instances = db.instances)
    (hc : db'.commands = db.commands ++ [c]) : db'.Drawn drawn where
  instances := by
    rw [hi]
    exact h.instances
  commands := by
    rw [hc]
    exact Tables.forall_insert h.commands hid
  tokens := by
    rw [hc]
    refine Tables.forall_insert h.tokens fun t heq => ?_
    rw [ht] at heq
    cases heq

theorem updateInstances (h : db.Drawn drawn) {p : RuntimeInstance → Bool}
    {f : RuntimeInstance → RuntimeInstance} (hf : ∀ i, (f i).id = i.id) :
    (db.updateInstances p f).Drawn drawn where
  instances := Tables.forall_update h.instances fun i _ _ hid => by rwa [hf]
  commands := h.commands
  tokens := h.tokens

theorem updateCommands (h : db.Drawn drawn) {q : RuntimeCommand → Bool}
    {g : RuntimeCommand → RuntimeCommand} (hg : ∀ c, (g c).id = c.id)
    (ht : ∀ c t, (g c).claimToken = some t → t ∈ drawn) :
    (db.updateCommands q g).Drawn drawn where
  instances := h.instances
  commands := Tables.forall_update h.commands fun c _ _ hid => by rwa [hg]
  tokens := Tables.forall_update h.tokens fun c _ _ _ => ht c

theorem request (h : db.Drawn drawn) (hids : ∀ id ∈ ids, id ∈ drawn)
    (hmove : RequestMove asked ids db db') : db'.Drawn drawn := by
  cases hmove with
  | frame hi hc => exact ⟨hi ▸ h.instances, hc ▸ h.commands, hc ▸ h.tokens⟩
  | launch i c launched queued iid cid slot admits hi hc =>
      have hwith : Database.Drawn drawn { db with instances := db.instances ++ [i] } :=
        ⟨Tables.forall_insert h.instances (hids _ iid), h.commands, h.tokens⟩
      exact hwith.queue (hids _ cid) queued.claimToken hi hc
  | extend id i t c cid hasked hext =>
      have hextended : Database.Drawn drawn (db.updateInstances (·.id = i.id) (·.extended t)) :=
        h.updateInstances fun _ => rfl
      exact hextended.queue (hids _ (hext.id ▸ cid)) hext.queued.claimToken hext.instances
        hext.commands
  | stop i c hstops =>
      have hstopped : Database.Drawn drawn (db.updateInstances (·.id = i.id) (·.stopping)) :=
        h.updateInstances fun _ => rfl
      have hc := hstops.commands
      cases c with
      | none =>
          rw [Option.toList_none, List.append_nil] at hc
          exact ⟨hstops.instances ▸ hstopped.instances, hc ▸ h.commands, hc ▸ h.tokens⟩
      | some c =>
          obtain ⟨hqueued, hid, -⟩ := hstops.queued c rfl
          exact hstopped.queue (hids _ hid) hqueued.claimToken hstops.instances hc
  | enqueue i kind c mem hkind queued cid admits hi hc =>
      exact h.queue (hids _ cid) queued.claimToken hi hc
  | release p t claimed hi hc =>
      have hreleased := h.updateCommands (q := p) (g := (·.release t)) (fun _ => rfl)
        fun _ _ ht => by cases ht
      exact ⟨hi ▸ h.instances, hc ▸ hreleased.commands, hc ▸ hreleased.tokens⟩

theorem work {command : CommandRow} {scope : Scope} {cleanupId : Uuid}
    (h : db.Drawn drawn) (hid : cleanupId ∈ drawn)
    (hwork : Work command scope cleanupId db db') : db'.Drawn drawn := by
  induction hwork with
  | refl => exact h
  | tail _ hmove ih =>
      cases hmove with
      | event e => exact ⟨ih.instances, ih.commands, ih.tokens⟩
      | close status now _ _ => exact ih.updateCommands (fun _ => rfl) fun _ _ ht => by cases ht
      | release t => exact ih.updateCommands (fun _ => rfl) fun _ _ ht => by cases ht
      | project now p _ _ =>
          refine ih.updateInstances fun i => ?_
          cases p <;> rfl
      | terminate now reason _ =>
          exact ih.request (fun id hmem => by rwa [List.mem_singleton.mp hmem])
            (createTermination_move reason _)

end Database.Drawn

/-- A worker that can take a step is at a command. -/
theorem Pc.command_of_advance {config : Config} {w : ℕ} {turn : Turn} {pc : Pc} {db : Database}
    {r : Pc × Database × Option RemoteRequest} (h : advance config w turn db pc = some r) :
    ∃ command, pc.command = some command := by
  cases pc with
  | idle => cases h
  | _ => exact ⟨_, rfl⟩

theorem Pc.Drawn.mono {drawn ids : List Uuid} {pc : Pc} (h : pc.Drawn drawn)
    (hsub : ∀ id ∈ drawn, id ∈ ids) : pc.Drawn ids :=
  fun command hcommand => hsub _ (h command hcommand)

theorem Pc.Drawn.next {drawn : List Uuid} {w : ℕ} {db db' : Database} {pc pc' : Pc}
    {sent : Option RemoteRequest} (h : pc.Drawn drawn) (hnext : Pc.Next w db db' pc pc' sent) :
    pc'.Drawn drawn := by
  intro command hcommand
  rcases hnext.keepsCommand with rfl | hsame
  · cases hcommand
  · exact h command (hsame ▸ hcommand)

theorem System.Drawn.step {config : Config} {s s' : System} {l : Label} (h : s.Drawn)
    (hmoved : Moved config s l s') : s'.Drawn := by
  cases hmoved with
  | request asked ids db' hasked fresh hmove happends =>
      have hsub : ∀ id ∈ s.drawn, id ∈ ids ++ s.drawn := fun _ => List.mem_append_right ids
      exact ⟨(h.db.mono hsub).request (fun _ => List.mem_append_left s.drawn) hmove,
        fun w => (h.workers w).mono hsub⟩
  | claim w now token c idle fresh mem hpending =>
      have hsub : ∀ id ∈ s.drawn, id ∈ token :: s.drawn := fun _ => List.mem_cons_of_mem token
      refine ⟨(h.db.mono hsub).updateCommands (fun _ => rfl) fun _ t ht => ?_,
        forall_update (Pc.Drawn _) (fun v => (h.workers v).mono hsub) fun command hcommand => ?_⟩
      · cases ht
        exact List.mem_cons_self
      · cases hcommand
        exact List.mem_cons_self
  | work w turn pc db' sent hl fresh hadvance =>
      have hsub : ∀ id ∈ s.drawn, id ∈ turn.commandId :: s.drawn :=
        fun _ => List.mem_cons_of_mem turn.commandId
      refine ⟨?_, forall_update (Pc.Drawn _) (fun v => (h.workers v).mono hsub)
        (((h.workers w).mono hsub).next (advance_next hadvance))⟩
      obtain ⟨command, hcommand⟩ := Pc.command_of_advance hadvance
      rcases advance_work hcommand (h.db.freshCommand fresh) hadvance with rfl | ⟨-, hwork⟩
      · exact h.db.mono hsub
      · exact (h.db.mono hsub).work List.mem_cons_self hwork
  | crash w => exact ⟨h.db, forall_update (Pc.Drawn _) h.workers fun _ hcommand => by cases hcommand⟩
  | deliver k env lost r hl mem workers hworkers =>
      refine ⟨h.db, ?_⟩
      rcases hworkers with rfl | ⟨hwaits, rfl⟩
      · exact h.workers
      · refine forall_update (Pc.Drawn _) h.workers fun command hcommand => ?_
        rw [RemoteRequest.command_received] at hcommand
        exact h.workers r.worker command (by rw [hwaits.1]; exact hcommand)
  | host server u cell _ => exact ⟨h.db, h.workers⟩

theorem System.Initial.drawn {s : System} (h : s.Initial) : s.Drawn where
  db := by
    constructor
    · simp [h.instances]
    · simp [h.commands]
    · simp [h.commands]
  workers w command hcommand := by
    rw [h.workers w] at hcommand
    cases hcommand

end CtfZone
