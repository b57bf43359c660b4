/-
# The release of a slot

An instance holds the slot of its owner as long as it is active.  Four
transactions release it: `finish_termination`, `finish_inspection` of an absent
workload, `reject_start` and `expire_unstarted_instance`.  The last two concern
instances that were never placed; a termination is confirmed by a
`stop-instance` that has left a tombstone behind.

An inspection that finds nothing leaves no tombstone, so that a start that is
still outstanding can create the container afterwards.  `Decisive` excludes
exactly these inspections, and along every run without them no container is left
and none is created once the slot is released.
-/
import CtfZone.Placement

open Effects Effects.Prog Runs Relation

namespace CtfZone

/-! ## Hosts without a container -/

/-- No start request for the instance is on its way to the server. -/
structure System.NoStart (s : System) (server u : Uuid) : Prop where
  network : ∀ r ∈ s.network, r.call = .start → r.job.row.id = u → r.server ≠ server
  senders : ∀ w r, s.workers w = .send r → r.call = .start → r.job.row.id = u → r.server ≠ server

/-- There is no container, and none will be created: behind a tombstone, or
because no start request is on its way. -/
def System.Vacant (s : System) (server u : Uuid) : Prop :=
  Helper.Cell.Removed u (s.hosts server u) ∨
    (s.hosts server u).container = none ∧ s.NoStart server u

/-- No runtime host has a container of the instance or will have one. -/
def System.Settled (s : System) (u : Uuid) : Prop := ∀ server, s.Vacant server u

/-- The start of an instance is over: its command is closed and no request of it
is on its way. -/
structure System.StartOver (s : System) (u : Uuid) : Prop where
  commands : ∀ c ∈ s.db.commands, c.kind = .start → c.instanceId = u → c.status.isOpen = false
  network : ∀ r ∈ s.network, r.call = .start → r.job.row.id ≠ u
  senders : ∀ w r, s.workers w = .send r → r.call = .start → r.job.row.id ≠ u

/-- An inspection that finds neither a container nor a tombstone is answered only
when the start of the instance is over. -/
def Decisive (s : System) : Label → Prop
  | .deliver k _ false => ∀ r, s.network[k]? = some r → r.call = .inspect →
      s.workers r.worker = .await r → (s.hosts r.server r.job.row.id).container = none →
      Helper.Cell.tombstoneGeneration r.job.row.id (s.hosts r.server r.job.row.id) = none →
      s.StartOver r.job.row.id
  | _ => True

section

variable {config : Config} {s s' : System} {l : Label} {u server : Uuid} {r : RemoteRequest}
  {env : Env} {cell cell' : Cell}

/-! ## Cells -/

/-- A fence that leaves no container stays one. -/
theorem removed_of_fenced {honest : Prop} {n : ℤ} (h : cell.container = none)
    (hfenced : Helper.Fenced u honest cell n cell') : Helper.Cell.Removed u cell' := by
  obtain ⟨⟨n', hn', -⟩, hdescends⟩ := hfenced
  refine ⟨?_, n', hn'⟩
  cases hcontainer : cell'.container with
  | none => rfl
  | some c =>
      obtain ⟨c₀, hc₀, -⟩ := hdescends c hcontainer
      rw [h] at hc₀
      cases hc₀

theorem removed_perform (h : Helper.Cell.Removed r.job.row.id cell) :
    Helper.Cell.Removed r.job.row.id (r.program env cell).2 := by
  obtain ⟨hnone, n, hn⟩ := h
  rw [RemoteRequest.program_perform]
  exact removed_of_fenced hnone (r.operation.perform_fenced False.elim hn)

theorem removed_tamed (htamed : Tamed u cell cell') (h : Helper.Cell.Removed u cell) :
    Helper.Cell.Removed u cell' := by
  obtain ⟨hnone, n, hn⟩ := h
  obtain ⟨e, -, rfl⟩ := htamed
  exact removed_of_fenced hnone (Helper.Event.apply_fenced hn e)

/-- A removal behind a fence is permanent. -/
theorem Moved.removed (hmoved : Moved config s l s')
    (h : Helper.Cell.Removed u (s.hosts server u)) :
    Helper.Cell.Removed u (s'.hosts server u) := by
  -- the cell that changes is this one or another
  have hchange {server' u' : Uuid} {cell : Cell}
      (hcell : Helper.Cell.Removed u' (s.hosts server' u') → Helper.Cell.Removed u' cell) :
      Helper.Cell.Removed u ((s.setHost server' u' cell).hosts server u) := by
    refine setHost_cases (P := fun server u cell => Helper.Cell.Removed u (s.hosts server u) →
      Helper.Cell.Removed u cell) (fun _ _ => id) hcell server u h
  cases hmoved with
  | deliver k env lost r hl mem workers hworkers => exact hchange removed_perform
  | host server' u' cell htamed => exact hchange (removed_tamed htamed)
  | _ => exact h

/-! ## Start requests -/

/-- A worker comes to the sending of a start request only by placing an active
instance under its claim. -/
theorem Moved.start_sender (hmoved : Moved config s l s') {w : ℕ}
    (hw : s'.workers w = .send r) (hcall : r.call = .start) :
    s.workers w = .send r ∨ (∃ turn, l = .work w turn) ∧ s.workers w = .place r.job ∧
      lockCommandClaim r.job.command s.db = true ∧
      ∃ i ∈ s.db.instances, i.id = r.job.row.id ∧ i.active = true := by
  have hother {v : ℕ} {pc : Pc} (hpc : pc ≠ .send r)
      (hw : Function.update s.workers v pc w = .send r) : s.workers w = .send r := by
    by_cases hv : w = v
    · rw [hv, Function.update_self] at hw
      exact absurd hw hpc
    · rwa [Function.update_of_ne hv] at hw
  cases hmoved with
  | request => exact .inl hw
  | claim v now token c => exact .inl (hother (fun heq => by cases heq) hw)
  | work v turn pc db' sent hl fresh hadvance =>
      dsimp only at hw
      by_cases hv : w = v
      · rw [hv, Function.update_self] at hw
        obtain ⟨hpc, hlock, hactive, -⟩ := (advance_next hadvance).start_sender hw hcall
        exact .inr ⟨⟨turn, hv ▸ hl⟩, hv ▸ hpc, hlock, hactive⟩
      · exact .inl (by rwa [Function.update_of_ne hv] at hw)
  | crash v => exact .inl (hother (fun heq => by cases heq) hw)
  | deliver k env lost r' hl mem workers hworkers =>
      rcases hworkers with rfl | ⟨-, rfl⟩
      · exact .inl hw
      · refine .inl (hother (fun heq => ?_) hw)
        rcases r'.received_cases (replyOf (r'.program env (s.hosts r'.server r'.job.row.id)).1) with
          hretry | ⟨reply, effective, -, -, hfinish⟩
        · rw [hretry] at heq
          cases heq
        · rw [hfinish] at heq
          cases heq
  | host server u cell htamed => exact .inl hw

/-- A request under way was, or was about to be. -/
theorem Moved.network (hmoved : Moved config s l s') (hr : r ∈ s'.network) :
    r ∈ s.network ∨ ∃ w, s.workers w = .send r := by
  cases hmoved with
  | work w turn pc db' sent hl fresh hadvance =>
      rcases List.mem_append.mp hr with hr | hr
      · exact .inl hr
      · obtain rfl := Option.mem_toList.mp hr
        exact .inr ⟨w, (advance_next hadvance).sent_eq.1⟩
  | deliver k env lost r' hl mem workers hworkers => exact .inl (List.mem_of_mem_eraseIdx hr)
  | _ => exact .inl hr

/-- The step brings no worker to a start request of the instance. -/
def NoNewStart (s s' : System) (u : Uuid) : Prop :=
  ∀ w r, s'.workers w = .send r → r.call = .start → r.job.row.id = u → s.workers w = .send r

theorem System.NoStart.step (h : s.NoStart server u) (hmoved : Moved config s l s')
    (hnew : NoNewStart s s' u) : s'.NoStart server u where
  network r hr hcall hid := by
    rcases hmoved.network hr with hold | ⟨w, hw⟩
    · exact h.network r hold hcall hid
    · exact h.senders w r hw hcall hid
  senders w r hw hcall hid := h.senders w r (hnew w r hw hcall hid) hcall hid

/-- Where no start request arrives, no container appears. -/
theorem Moved.container_none (hmoved : Moved config s l s')
    (hnone : (s.hosts server u).container = none) (h : s.NoStart server u) :
    (s'.hosts server u).container = none := by
  have hchange {server' u' : Uuid} {cell : Cell}
      (hcell : server' = server → u' = u → (s.hosts server' u').container = none →
        cell.container = none) :
      ((s.setHost server' u' cell).hosts server u).container = none := by
    refine setHost_cases (P := fun server' u' cell => server' = server → u' = u →
      cell.container = none) (fun _ _ hserver hu => ?_) (fun hserver hu => ?_) server u rfl rfl
    · rw [hserver, hu]
      exact hnone
    · exact hcell hserver hu (by rw [hserver, hu]; exact hnone)
  cases hmoved with
  | deliver k env lost r hl mem workers hworkers =>
      refine hchange fun hserver hu hbefore => ?_
      by_contra hsome
      have hcall := System.Placements.containers_perform hbefore hsome
      exact h.network r (List.mem_of_getElem? mem) hcall hu hserver
  | host server' u' cell htamed =>
      exact hchange fun _ _ hbefore => System.Placements.containers_tamed htamed hbefore
  | _ => exact hnone

theorem System.Settled.step (h : s.Settled u) (hmoved : Moved config s l s')
    (hnew : NoNewStart s s' u) : s'.Settled u := by
  intro server
  rcases h server with hremoved | ⟨hnone, hstart⟩
  · exact .inl (hmoved.removed hremoved)
  · exact .inr ⟨hmoved.container_none hnone hstart, hstart.step hmoved hnew⟩

/-- An instance that is inactive is not placed any more. -/
theorem noNewStart_of_inactive (hsound : s.Sound) (hmoved : Moved config s l s')
    {i : RuntimeInstance} (hi : i ∈ s.db.instances) (hinactive : i.active = false) :
    NoNewStart s s' i.id := by
  intro w r hw hcall hid
  refine (hmoved.start_sender hw hcall).resolve_right ?_
  rintro ⟨-, -, -, j, hj, hjid, hactive⟩
  rw [hsound.db.instance_eq hj hi (hjid.trans hid), hinactive] at hactive
  cases hactive

/-! ## The start of an instance is over -/

theorem System.StartOver.noNewStart (h : s.StartOver u) (hsound : s.Sound)
    (hmoved : Moved config s l s') : NoNewStart s s' u := by
  intro w r hw hcall hid
  refine (hmoved.start_sender hw hcall).resolve_right ?_
  rintro ⟨-, hpc, hlock, -⟩
  -- the claim is on the start command of the instance, which is closed
  have hfits := hsound.fits w
  rw [hpc] at hfits
  obtain ⟨c, hc, hholds⟩ := List.any_eq_true.mp hlock
  obtain ⟨hinstance, hkind, -⟩ :=
    ((hsound.known w).command r.job.command (by rw [hpc]; rfl)).held hsound.db hc hholds
  have hclosed := h.commands c hc (hkind.trans hfits.2)
    (hinstance.trans (r.job.loaded.symm.trans hid))
  rw [(CommandRow.holds_eq_true hholds).2.1] at hclosed
  cases hclosed

/-- A start command that is closed stays closed over the moves of a worker. -/
theorem WorkMove.start_closed {command : CommandRow} {scope : Scope} {cleanupId : Uuid}
    {db db' : Database} (hmove : WorkMove command scope cleanupId db db')
    (h : ∀ c ∈ db.commands, c.kind = .start → c.instanceId = u → c.status.isOpen = false) :
    ∀ c ∈ db'.commands, c.kind = .start → c.instanceId = u → c.status.isOpen = false := by
  cases hmove with
  | event e => exact h
  | close status now hclosed _ => exact Tables.forall_update h fun _ _ _ _ _ _ => hclosed
  | release t =>
      refine Tables.forall_update h fun c hc hheld hclosed hkind hid => ?_
      have hopen := hclosed hkind hid
      rw [(CommandRow.holds_eq_true hheld).2.1] at hopen
      cases hopen
  | project now p _ _ => exact h
  | terminate now reason _ =>
      rcases createTermination_cases now cleanupId command.instanceId reason db with
        hsame | ⟨i, c, -, hstops⟩
      · rwa [hsame]
      · rw [hstops.commands]
        intro d hd hkind
        rcases List.mem_append.mp hd with hd | hd
        · exact h d hd hkind
        · rw [(hstops.queued d (Option.mem_toList.mp hd)).1.kind] at hkind
          cases hkind

theorem Work.start_closed {command : CommandRow} {scope : Scope} {cleanupId : Uuid}
    {db db' : Database} (hwork : Work command scope cleanupId db db')
    (h : ∀ c ∈ db.commands, c.kind = .start → c.instanceId = u → c.status.isOpen = false) :
    ∀ c ∈ db'.commands, c.kind = .start → c.instanceId = u → c.status.isOpen = false := by
  induction hwork with
  | refl => exact h
  | tail _ hmove ih => exact hmove.start_closed ih

/-- And over the requests of the API, as long as the instance is not new. -/
theorem RequestMove.start_closed {asked : Uuid → Prop} {ids : List Uuid} {db db' : Database}
    (hmove : RequestMove asked ids db db') (hold : u ∉ ids)
    (h : ∀ c ∈ db.commands, c.kind = .start → c.instanceId = u → c.status.isOpen = false) :
    ∀ c ∈ db'.commands, c.kind = .start → c.instanceId = u → c.status.isOpen = false := by
  have hqueued {c : RuntimeCommand} (hc : db'.commands = db.commands ++ [c])
      (hother : c.kind = .start → c.instanceId ≠ u) :
      ∀ c ∈ db'.commands, c.kind = .start → c.instanceId = u → c.status.isOpen = false := by
    rw [hc]
    exact Tables.forall_insert h fun hkind hid => absurd hid (hother hkind)
  cases hmove with
  | frame hi hc => exact hc ▸ h
  | launch i c launched queued iid cid slot admits hi hc =>
      refine hqueued hc fun _ hid => hold ?_
      rwa [← hid, queued.instanceId]
  | extend id i t c cid hasked hext =>
      refine hqueued hext.commands fun hkind => ?_
      cases hext.queued.kind.symm.trans hkind
  | stop i c hstops =>
      have hcommands := hstops.commands
      cases c with
      | none =>
          rw [Option.toList_none, List.append_nil] at hcommands
          exact hcommands ▸ h
      | some c =>
          refine hqueued hcommands fun hkind => ?_
          cases (hstops.queued c rfl).1.kind.symm.trans hkind
  | enqueue i kind c mem hkind queued cid admits hi hc =>
      refine hqueued hc fun hstart => ?_
      rcases hkind with rfl | rfl <;> cases queued.kind.symm.trans hstart
  | release p t claimed hi hc =>
      rw [hc]
      refine Tables.forall_update h fun c _ hp hclosed hkind hid => ?_
      have hopen := hclosed hkind hid
      rw [claimed c hp] at hopen
      cases hopen

theorem System.StartOver.step (h : s.StartOver u) (hsound : s.Sound)
    (hknown : ∃ i ∈ s.db.instances, i.id = u) (hmoved : Moved config s l s') :
    s'.StartOver u := by
  have hnew := h.noNewStart hsound hmoved
  refine ⟨?_, fun r hr hcall hid => ?_, fun w r hw hcall hid =>
    h.senders w r (hnew w r hw hcall hid) hcall hid⟩
  · cases hmoved with
    | request asked ids db' hasked fresh hmove happends =>
        refine hmove.start_closed (fun hmem => fresh u hmem ?_) h.commands
        obtain ⟨i, hi, rfl⟩ := hknown
        exact hsound.drawn.db.instances i hi
    | claim w now token c idle fresh mem hpending =>
        refine Tables.forall_update h.commands fun d _ hd hclosed hkind hid => ?_
        simp only [Bool.and_eq_true, decide_eq_true_eq] at hd
        have hopen := hclosed hkind hid
        rw [hd.2] at hopen
        cases hopen
    | work w turn pc db' sent hl fresh hadvance =>
        obtain ⟨command, hcommand⟩ := Pc.command_of_advance hadvance
        rcases advance_work hcommand (hsound.drawn.db.freshCommand fresh) hadvance with
          rfl | ⟨-, hwork⟩
        · exact h.commands
        · exact hwork.start_closed h.commands
    | _ => exact h.commands
  · rcases hmoved.network hr with hold | ⟨w, hw⟩
    · exact h.network r hold hcall hid
    · exact h.senders w r hw hcall hid

/-! ## Confirmed removals -/

/-- The workload a request asked about is gone for good. -/
def System.Gone (s : System) (r : RemoteRequest) : Prop :=
  Helper.Cell.Removed r.job.row.id (s.hosts r.server r.job.row.id) ∨
    s.StartOver r.job.row.id ∧ ∀ server, (s.hosts server r.job.row.id).container = none

theorem System.StartOver.noStart (h : s.StartOver u) (server : Uuid) : s.NoStart server u :=
  ⟨fun r hr hcall hid => absurd hid (h.network r hr hcall),
    fun w r hw hcall hid => absurd hid (h.senders w r hw hcall)⟩

theorem System.Gone.step (h : s.Gone r) (hsound : s.Sound)
    (hknown : ∃ i ∈ s.db.instances, i.id = r.job.row.id) (hmoved : Moved config s l s') :
    s'.Gone r := by
  rcases h with hremoved | ⟨hover, hnone⟩
  · exact .inl (hmoved.removed hremoved)
  · exact .inr ⟨hover.step hsound hknown hmoved, fun server =>
      hmoved.container_none (hnone server) (hover.noStart server)⟩

/-- A reply after which the slot of an instance may be released. -/
def RemoteRequest.Releases (r : RemoteRequest) (result : RemoteResult) : Prop :=
  r.call = .terminate ∨ r.call = .inspect ∧ result.absent.getD false = true

/-- A worker that may release a slot has seen the workload gone. -/
def System.Confirmed (s : System) : Prop :=
  ∀ w r result, s.workers w = .finish r result → r.Releases result → s.Gone r

theorem InstanceRow.Known.exists {row : InstanceRow} {db : Database} (h : row.Known db) :
    ∃ i ∈ db.instances, i.id = row.id := by
  obtain ⟨i, hi, j, -, hlater, rfl⟩ := h
  exact ⟨i, hi, hlater.id⟩

/-- A reply that releases a slot is true, and the host stays without a
container. -/
theorem gone_of_reply (hplacements : s.Placements) (hsound : s.Sound)
    (hmem : r ∈ s.network) {reply : Helper.Reply} {effective : Option Time}
    (hreply : replyOf (r.program env (s.hosts r.server r.job.row.id)).1 = some reply)
    (haccepts : r.accepts (reply.result effective) = true)
    (hreleases : r.Releases (reply.result effective))
    (hguard : r.call = .inspect → (s.hosts r.server r.job.row.id).container = none →
      Helper.Cell.tombstoneGeneration r.job.row.id (s.hosts r.server r.job.row.id) = none →
      s.StartOver r.job.row.id)
    (hmoved : Moved config s l s')
    (hhost : s'.hosts r.server r.job.row.id = (r.program env (s.hosts r.server r.job.row.id)).2) :
    s'.Gone r := by
  rcases hrun : r.program env (s.hosts r.server r.job.row.id) with ⟨outcome, cell⟩
  rw [hrun] at hreply hhost
  cases outcome with
  | raised e => cases hreply
  | halted => cases hreply
  | done reply' =>
      cases hreply
      rcases hreleases with hcall | ⟨hcall, habsent⟩
      · -- a stop that answers absent leaves a fence
        left
        rw [hhost]
        have hreturns : Returns (Helper.stopInstance r.job.row.id r.payload) env
            (s.hosts r.server r.job.row.id) reply cell := by
          have hprogram : r.program = Helper.stopInstance r.job.row.id r.payload := by
            unfold RemoteRequest.program
            rw [hcall]
          rw [← hprogram]
          exact hrun
        refine Helper.returns_stopInstance hreturns ?_
        unfold RemoteRequest.accepts at haccepts
        rw [hcall] at haccepts
        simp only [requireRemoteRemoval, Bool.and_eq_true, decide_eq_true_eq] at haccepts
        exact haccepts.2
      · have hreturns : Returns (Helper.inspectResult .request r.job.row.id) env
            (s.hosts r.server r.job.row.id) reply cell := by
          have hprogram : r.program = Helper.inspectResult .request r.job.row.id := by
            unfold RemoteRequest.program
            rw [hcall]
          rw [← hprogram]
          exact hrun
        rcases Helper.returns_inspectResult hreturns with
          ⟨-, ⟨hnone, hsame⟩ | hremoved⟩ | ⟨hpresent, -⟩
        · cases htombstone :
              Helper.Cell.tombstoneGeneration r.job.row.id (s.hosts r.server r.job.row.id) with
          | some n =>
              left
              rw [hhost, hsame]
              exact ⟨hnone, n, htombstone⟩
          | none =>
              -- nothing is on its way, and the other hosts never had the workload
              right
              have hover := hguard hcall hnone htombstone
              have hplaced : s.db.PlacedAt r.job.row.id r.server := by
                have hfits := (hsound.network r hmem).1.2
                rw [hcall] at hfits
                exact (hplacements.network r hmem).row.placedAt hfits.2
              have hnone' (server : Uuid) : (s.hosts server r.job.row.id).container = none := by
                by_contra hsome
                have hthere := hplacements.containers server _ hsome
                exact hsome (hplaced.unique hsound.db hthere ▸ hnone)
              exact ⟨hover.step hsound (hsound.network r hmem).2.row.exists hmoved, fun server =>
                hmoved.container_none (hnone' server) (hover.noStart server)⟩
        · exact .inl (hhost ▸ hremoved)
        · have hpresent' : (reply.result effective).absent = some false := hpresent
          rw [hpresent'] at habsent
          cases habsent

/-- A worker records a reply only when one was delivered. -/
theorem Pc.Next.ne_finish {worker : ℕ} {db db' : Database} {pc pc' : Pc}
    {sent : Option RemoteRequest} {result : RemoteResult}
    (h : Pc.Next worker db db' pc pc' sent) : pc' ≠ .finish r result := by
  intro heq
  cases h with
  | ended hover =>
      rcases hover with rfl | ⟨command, -, rfl | rfl⟩ <;> cases heq
  | loaded command job now hjob hdb =>
      unfold dispatch at heq
      split at heq
      · cases heq
      · cases hkind : job.command.kind <;> rw [hkind] at heq <;> dsimp only at heq
        · split_ifs at heq
        · split_ifs at heq
        · split_ifs at heq
          cases hserver : job.row.remoteServerId <;> rw [hserver] at heq <;> cases heq
        all_goals cases hserver : job.row.remoteServerId <;> rw [hserver] at heq <;> cases heq
  | _ => cases heq

theorem System.Confirmed.step (h : s.Confirmed) (hplacements : s.Placements) (hsound : s.Sound)
    (hguard : Decisive s l) (hmoved : Moved config s l s') : s'.Confirmed := by
  have hknown {w : ℕ} {r : RemoteRequest} {result : RemoteResult}
      (hw : s.workers w = .finish r result) : ∃ i ∈ s.db.instances, i.id = r.job.row.id :=
    ((hsound.known w).row r.job (by rw [hw]; rfl)).exists
  have hkept {w : ℕ} {r : RemoteRequest} {result : RemoteResult}
      (hw : s.workers w = .finish r result) (hreleases : r.Releases result) : s'.Gone r :=
    (h w r result hw hreleases).step hsound (hknown hw) hmoved
  have hother {v w : ℕ} {pc : Pc} {r : RemoteRequest} {result : RemoteResult}
      (hpc : pc ≠ .finish r result) (hreleases : r.Releases result)
      (hw : Function.update s.workers v pc w = .finish r result) : s'.Gone r := by
    by_cases hv : w = v
    · rw [hv, Function.update_self] at hw
      exact absurd hw hpc
    · rw [Function.update_of_ne hv] at hw
      exact hkept hw hreleases
  intro w r result hw hreleases
  have hmoved' := hmoved
  cases hmoved with
  | request => exact hkept hw hreleases
  | claim v now token c => exact hother (fun heq => by cases heq) hreleases hw
  | work v turn pc db' sent hl fresh hadvance =>
      exact hother (fun heq => (advance_next hadvance).ne_finish heq) hreleases hw
  | crash v => exact hother (fun heq => by cases heq) hreleases hw
  | deliver k env lost r' hl mem workers hworkers =>
      rcases hworkers with rfl | ⟨⟨hawaits, hlost⟩, rfl⟩
      · exact hkept hw hreleases
      · change Function.update s.workers r'.worker _ w = _ at hw
        by_cases hv : w = r'.worker
        · rw [hv, Function.update_self] at hw
          rcases r'.received_cases
              (replyOf (r'.program env (s.hosts r'.server r'.job.row.id)).1) with
            hretry | ⟨reply, effective, hreply, haccepts, hfinish⟩
          · cases hretry.symm.trans hw
          · cases hfinish.symm.trans hw
            subst hl hlost
            refine gone_of_reply hplacements hsound (List.mem_of_getElem? mem) hreply haccepts
              hreleases (fun hcall => hguard r mem hcall hawaits) hmoved' ?_
            simp [System.setHost]
        · rw [Function.update_of_ne hv] at hw
          exact hkept hw hreleases
  | host server u cell htamed => exact hkept hw hreleases

/-! ## Released slots -/

/-- The projection makes an instance inactive. -/
def Projection.releases : Projection → Bool
  | .terminated _ | .missing _ | .rejected | .expiredUnstarted => true
  | _ => false

/-- It does so for an instance that is merely requested. -/
def Projection.unstarted : Projection → Bool
  | .rejected | .expiredUnstarted => true
  | _ => false

theorem Projection.active_of_not_releases {p : Projection} (h : p.releases = false) (now : Time)
    (generation : ℤ) (i : RuntimeInstance) : (p.set now generation i).active = i.active := by
  cases p <;> cases h <;> rfl

/-- An instance that a worker has made inactive. -/
theorem Work.released {command : CommandRow} {scope : Scope} {cleanupId : Uuid}
    {db db' : Database} (hsound : db.Sound)
    (hprojects : ∃ i ∈ db.instances, i.id = command.instanceId ∧
      ∀ p, scope.projects p → p.Sound i.maximumExpiresAt)
    (hp : ∀ p server, scope.projects p → p.server = some server →
      command.generation = 1 ∧ ∀ placed, db.PlacedAt command.instanceId placed → server = placed)
    (hwork : Work command scope cleanupId db db') :
    Tables.Persist (fun i i' => i'.id = i.id ∧ (i'.active = false → i.active = false ∨
      i.id = command.instanceId ∧ ∃ p, scope.projects p ∧ p.releases = true ∧
        (p.unstarted = true → i.remoteServerId = none))) db.instances db'.instances := by
  refine Work.instances_persist (fun _ => ⟨rfl, .inl⟩)
    (fun db₁ i i₁ p now hbefore hi hi₁ hrel hprojects₁ hhit => ?_) (fun _ _ hrel => hrel) hwork
  obtain ⟨hid, hinactive⟩ := hrel
  refine ⟨(p.set_projected now _ i₁).id.trans hid, fun hreleased => ?_⟩
  cases hreleases : p.releases with
  | false => exact hinactive ((p.active_of_not_releases hreleases now _ i₁).symm.trans hreleased)
  | true =>
      simp only [Projection.hits, Bool.and_eq_true, decide_eq_true_eq] at hhit
      refine .inr ⟨hid.symm.trans hhit.1.1, p, hprojects₁, hreleases, fun hunstarted => ?_⟩
      -- an instance that is merely requested has never been placed
      have hsound₁ := hsound.work hprojects hbefore
      have hrequested : i₁.observedState = .requested := by
        have hadmits := hhit.2
        cases p <;> cases hunstarted <;>
          simp only [Projection.admits, Bool.and_eq_true, decide_eq_true_eq] at hadmits <;>
          exact hadmits.1
      have hnone := (hsound₁.instances i₁ hi₁).requested hrequested
      obtain ⟨i₂, hi₂, hstays⟩ := hbefore.anchors hp i hi
      rw [hsound₁.instance_eq hi₁ hi₂ (hid.trans hstays.id.symm)] at hnone
      cases hserver : i.remoteServerId with
      | none => rfl
      | some server =>
          rw [hstays.kept server hserver] at hnone
          cases hnone

/-- The row of an instance before a step. -/
theorem Moved.instance_before (hsound : s.Sound) (hmoved : Moved config s l s')
    {i' : RuntimeInstance} (hi' : i' ∈ s'.db.instances) (hinactive : i'.active = false) :
    ∃ i ∈ s.db.instances, i.id = i'.id := by
  cases hmoved with
  | request asked ids db' hasked fresh hmove happends =>
      cases hmove with
      | frame hi hc => exact ⟨i', hi ▸ hi', rfl⟩
      | launch i c launched queued iid cid slot admits hi hc =>
          rw [hi] at hi'
          rcases List.mem_append.mp hi' with hi' | hi'
          · exact ⟨i', hi', rfl⟩
          · rw [List.mem_singleton.mp hi', launched.active] at hinactive
            cases hinactive
      | extend id i t c cid hasked hext =>
          rw [hext.instances] at hi'
          obtain ⟨i₀, hi₀, ⟨-, rfl⟩ | ⟨-, rfl⟩⟩ := Tables.mem_update.mp hi' <;>
            exact ⟨i₀, hi₀, rfl⟩
      | stop i c hstops =>
          rw [hstops.instances] at hi'
          obtain ⟨i₀, hi₀, ⟨-, rfl⟩ | ⟨-, rfl⟩⟩ := Tables.mem_update.mp hi' <;>
            exact ⟨i₀, hi₀, rfl⟩
      | enqueue i kind c mem hkind queued cid admits hi hc => exact ⟨i', hi ▸ hi', rfl⟩
      | release p t claimed hi hc => exact ⟨i', hi ▸ hi', rfl⟩
  | work w turn pc db' sent hl fresh hadvance =>
      obtain ⟨command, hcommand⟩ := Pc.command_of_advance hadvance
      rcases advance_work hcommand (hsound.drawn.db.freshCommand fresh) hadvance with
        rfl | ⟨-, hwork⟩
      · exact ⟨i', hi', rfl⟩
      · obtain ⟨f, hf, hrow⟩ := hwork.within.instances
        dsimp only at hi'
        rw [hf] at hi'
        obtain ⟨i, hi, rfl⟩ := List.mem_map.mp hi'
        refine ⟨i, hi, ?_⟩
        rcases hrow i with hsame | ⟨-, hprojected⟩
        · rw [hsame]
        · exact hprojected.id.symm
  | _ => exact ⟨i', hi', rfl⟩

/-- An inactive instance was inactive, or a worker releases it with a projection
it may make where it stands. -/
theorem Moved.released (hplacements : s.Placements) (hsound : s.Sound) (hsound' : s'.Sound)
    (hmoved : Moved config s l s') {i i' : RuntimeInstance} (hi : i ∈ s.db.instances)
    (hi' : i' ∈ s'.db.instances) (hid : i'.id = i.id) (hinactive : i'.active = false) :
    i.active = false ∨ ∃ w turn command p, l = .work w turn ∧
      (s.workers w).command = some command ∧ i.id = command.instanceId ∧
      (s.workers w).projections p ∧ p.releases = true ∧
      (p.unstarted = true → i.remoteServerId = none) := by
  have hkept (hpersist : Tables.Persist (fun i i' : RuntimeInstance => i'.id = i.id ∧
      i'.active = i.active) s.db.instances s'.db.instances) : i.active = false := by
    obtain ⟨i'', hi'', hid'', hactive⟩ := hpersist i hi
    rw [hsound'.db.instance_eq hi' hi'' (hid.trans hid''.symm), hactive] at hinactive
    exact hinactive
  have hrefl : Tables.Persist (fun i i' : RuntimeInstance => i'.id = i.id ∧
      i'.active = i.active) s.db.instances s.db.instances := .refl (fun _ => ⟨rfl, rfl⟩) _
  cases hmoved with
  | request asked ids db' hasked fresh hmove happends =>
      exact .inl (hkept (hmove.instances_persist (fun _ => ⟨rfl, rfl⟩) (fun _ _ => ⟨rfl, rfl⟩)
        fun _ => ⟨rfl, rfl⟩))
  | work w turn pc db' sent hl fresh hadvance =>
      obtain ⟨command, hcommand⟩ := Pc.command_of_advance hadvance
      rcases advance_work hcommand (hsound.drawn.db.freshCommand fresh) hadvance with
        rfl | ⟨hlock, hwork⟩
      · exact .inl (hkept hrefl)
      · have hprojects := Pc.projections_sound hsound.db (hsound.known w) hcommand
        obtain ⟨i'', hi'', hid'', hrel⟩ := hwork.released hsound.db hprojects
          (fun p server hp => hplacements.places hsound hcommand hlock hp) i hi
        rw [hsound'.db.instance_eq hi' hi'' (hid.trans hid''.symm)] at hinactive
        refine (hrel hinactive).imp id ?_
        rintro ⟨hinstance, p, hp, hreleases, hunstarted⟩
        exact ⟨w, turn, command, p, hl, hcommand, hinstance, hp, hreleases, hunstarted⟩
  | _ => exact .inl (hkept hrefl)

/-- A host where the instance is not placed has no container of it and gets
none. -/
theorem System.Placements.vacant (h : s.Placements) (hnot : ¬ s.db.PlacedAt u server) :
    s.Vacant server u := by
  refine .inr ⟨?_, fun r hr hcall hid heq => hnot ?_, fun w r hw hcall hid heq => hnot ?_⟩
  · by_contra hsome
    exact hnot (h.containers server u hsome)
  · rw [← hid, ← heq]
    exact (h.network r hr).start hcall
  · rw [← hid, ← heq]
    exact (h.workers w).start r (by rw [hw]; rfl) hcall

/-- An instance that was never placed is settled. -/
theorem System.Placements.settled (h : s.Placements) (hsound : s.Sound) {i : RuntimeInstance}
    (hi : i ∈ s.db.instances) (hnone : i.remoteServerId = none) : s.Settled i.id := by
  intro server
  refine h.vacant fun hplaced => ?_
  have hserver := hplaced.of_mem hsound.db hi rfl
  rw [hnone] at hserver
  cases hserver

/-- Where a worker may release the slot of its instance, no container is left. -/
theorem settled_of_releases (hplacements : s.Placements) (hsound : s.Sound)
    (hconfirmed : s.Confirmed) {w : ℕ} {command : CommandRow} {p : Projection}
    {i : RuntimeInstance} (hi : i ∈ s.db.instances)
    (hcommand : (s.workers w).command = some command) (hid : i.id = command.instanceId)
    (hp : (s.workers w).projections p) (hreleases : p.releases = true)
    (hunstarted : p.unstarted = true → i.remoteServerId = none) :
    s.Settled i.id ∧ ∀ job, s.workers w ≠ .place job := by
  have hfits := hsound.fits w
  have hplaced := hplacements.workers w
  have hknown := hsound.known w
  cases hpc : s.workers w with
  | rejectStart job | expireUnstarted job =>
      rw [hpc] at hp
      cases hp
      exact ⟨hplacements.settled hsound hi (hunstarted rfl), fun _ heq => by cases heq⟩
  | finishTermination job =>
      rw [hpc] at hfits hplaced hknown hcommand
      cases hcommand
      obtain ⟨hgeneration, hkind, hnone⟩ := hfits
      have hleft : 2 ≤ job.row.generation := by
        obtain ⟨c, hc, -, -, hckind, hcgeneration⟩ := (hknown.command job.command rfl).columns
        rw [← hgeneration, ← hcgeneration]
        exact (hsound.db.commands c hc).later (.inl (hckind.trans hkind))
      have hsettled := (hplaced.row job rfl).settled hsound.db hleft hi
        (hid.trans job.loaded.symm)
      exact ⟨hplacements.settled hsound hi (hsettled.trans hnone), fun _ heq => by cases heq⟩
  | finish r result =>
      refine ⟨?_, fun _ heq => by cases heq⟩
      rw [hpc] at hp hfits hplaced hcommand
      cases hcommand
      have hrow : i.id = r.job.row.id := hid.trans r.job.loaded.symm
      have hcall : r.Releases result ∧ r.job.row.remoteServerId = some r.server := by
        have hcallFits := hfits.1.2
        rw [Pc.projections, RemoteRequest.projections] at hp
        cases hcall : r.call <;> rw [hcall] at hp hcallFits
        · obtain ⟨_, -, rfl⟩ := hp
          cases hreleases
        · exact hp.elim
        · exact ⟨.inl hcall, hcallFits.2⟩
        · obtain ⟨_, -, rfl⟩ := hp
          cases hreleases
        · rcases hp with ⟨habsent, _⟩ | ⟨-, ⟨-, rfl⟩ | ⟨-, rfl⟩⟩
          · exact ⟨.inr ⟨hcall, habsent⟩, hcallFits.2⟩
          · cases hreleases
          · cases hreleases
      obtain ⟨hreleasing, hserver⟩ := hcall
      have hhere := (hplaced.row r.job rfl).placedAt hserver
      rw [← hrow] at hhere
      intro server
      by_cases hthere : s.db.PlacedAt i.id server
      · obtain rfl := hhere.unique hsound.db hthere
        rw [hrow]
        rcases hconfirmed w r result hpc hreleasing with hremoved | ⟨hover, hnone⟩
        · exact .inl hremoved
        · exact .inr ⟨hnone r.server, hover.noStart r.server⟩
      · exact hplacements.vacant hthere
  | place job =>
      rw [hpc] at hp
      obtain ⟨server, rfl, -⟩ := hp
      cases hreleases
  | markStopping job | retry command =>
      rw [hpc] at hp
      cases hp
      cases hreleases
  | idle | load _ | cancelStale _ | cancel _ | complete _ | gate _ | send _ | await _ =>
      rw [hpc] at hp
      exact hp.elim

/-- No host has a container of an instance whose slot is released, or will have
one. -/
def System.Released (s : System) : Prop :=
  ∀ i ∈ s.db.instances, i.active = false → s.Settled i.id

/-- Once the slot is released, it stays so. -/
theorem settled_step_of_inactive (hsound : s.Sound) (hmoved : Moved config s l s')
    {i : RuntimeInstance} (hi : i ∈ s.db.instances) (hinactive : i.active = false)
    (h : s.Settled i.id) : s'.Settled i.id :=
  h.step hmoved (noNewStart_of_inactive hsound hmoved hi hinactive)

theorem System.Released.step (h : s.Released) (hplacements : s.Placements) (hsound : s.Sound)
    (hsound' : s'.Sound) (hconfirmed : s.Confirmed) (hmoved : Moved config s l s') :
    s'.Released := by
  intro i' hi' hinactive
  obtain ⟨i, hi, hid⟩ := hmoved.instance_before hsound hi' hinactive
  rw [← hid]
  rcases hmoved.released hplacements hsound hsound' hi hi' hid.symm hinactive with
    hbefore | ⟨w, turn, command, p, rfl, hcommand, hinstance, hp, hreleases, hunstarted⟩
  · exact settled_step_of_inactive hsound hmoved hi hbefore (h i hi hbefore)
  · obtain ⟨hsettled, hplaces⟩ := settled_of_releases hplacements hsound hconfirmed hi hcommand
      hinstance hp hreleases hunstarted
    -- the worker that acts sends no start request
    refine hsettled.step hmoved fun v r hv hcall _ => ?_
    refine (hmoved.start_sender hv hcall).resolve_right ?_
    rintro ⟨⟨turn', hl⟩, hplace, -⟩
    cases hl
    exact hplaces r.job hplace

end

/-! ## Runs -/

variable {config : Config}

theorem System.reach_confirmed {s : System}
    (h : Reach (System.step config) Decisive System.Initial s) : s.Confirmed := by
  induction h with
  | init hinitial =>
      intro w r result hw
      rw [hinitial.workers w] at hw
      cases hw
  | step l hreach hguard hstep ih =>
      exact ih.step (System.reach_placements hreach) (System.reach_sound hreach) hguard
        (System.step_moved hstep)

theorem System.reach_released {s : System}
    (h : Reach (System.step config) Decisive System.Initial s) : s.Released := by
  induction h with
  | init hinitial =>
      intro i hi
      rw [hinitial.instances] at hi
      cases hi
  | step l hreach hguard hstep ih =>
      exact ih.step (System.reach_placements hreach) (System.reach_sound hreach)
        (System.reach_sound (.step l hreach hguard hstep)) (System.reach_confirmed hreach)
        (System.step_moved hstep)

/-- An inactive instance that is settled. -/
def System.Vacated (s : System) (u : Uuid) : Prop :=
  (∃ i ∈ s.db.instances, i.id = u ∧ i.active = false) ∧ s.Settled u

theorem System.Vacated.step {s s' : System} {l : Label} {u : Uuid} (h : s.Vacated u)
    (hsound : s.Sound) (hmoved : Moved config s l s') : s'.Vacated u := by
  obtain ⟨⟨i, hi, rfl, hinactive⟩, hsettled⟩ := h
  obtain ⟨i', hi', hlater⟩ := (hmoved.later hsound.drawn).instances i hi
  refine ⟨⟨i', hi', hlater.id, ?_⟩, settled_step_of_inactive hsound hmoved hi hinactive hsettled⟩
  rw [Bool.eq_false_iff] at hinactive ⊢
  exact fun hactive => hinactive (hlater.active hactive)

/-- Whatever happens afterwards, it stays so. -/
theorem leads_vacated {s s' : System} {u : Uuid}
    (hreach : Reach (System.step config) anyStep System.Initial s)
    (hleads : Leads (System.step config) anyStep s s') (h : s.Vacated u) : s'.Vacated u :=
  hleads.rel (R := fun s s' => s.Vacated u → s'.Vacated u) (fun _ => id)
    (fun _ _ _ h₁ h₂ => h₂ ∘ h₁)
    (fun _ _ _ hreach _ hstep hvacated =>
      hvacated.step (System.reach_sound hreach) (System.step_moved hstep)) hreach h

/-- **Slots are released safely.**  Take any run whose inspections are decisive.

* When a step makes an instance inactive, no host has a container of the
  instance in the state after the step or in any later state, whatever happens
  from there on.
* No user ever has two containers. -/
theorem slot_release_safe (config : Config) (s : System)
    (h : Reach (System.step config) Decisive System.Initial s) :
    (∀ l s', Decisive s l → System.step config l s = some s' →
      ∀ i ∈ s.db.instances, i.active = true →
      ∀ i' ∈ s'.db.instances, i'.id = i.id → i'.active = false →
      ∀ s'', Leads (System.step config) anyStep s' s'' →
        ∀ server, (s''.hosts server i.id).container = none) ∧
    ∀ i ∈ s.db.instances, ∀ j ∈ s.db.instances, i.ownerUserId = j.ownerUserId →
      ∀ server server', (s.hosts server i.id).container ≠ none →
        (s.hosts server' j.id).container ≠ none → i = j ∧ server = server' := by
  have hnone {s : System} {u : Uuid} (hsettled : s.Settled u) (server : Uuid) :
      (s.hosts server u).container = none := by
    rcases hsettled server with hremoved | ⟨hnone, -⟩
    · exact hremoved.1
    · exact hnone
  refine ⟨fun l s' hguard hstep i hi hactive i' hi' hid hinactive s'' hleads server => ?_,
    fun i hi j hj howner server server' hthere hthere' => ?_⟩
  · have hreach' : Reach (System.step config) Decisive System.Initial s' := .step l h hguard hstep
    have hvacated : s'.Vacated i'.id :=
      ⟨⟨i', hi', rfl, hinactive⟩, System.reach_released hreach' i' hi' hinactive⟩
    rw [← hid]
    exact hnone (leads_vacated (hreach'.weaken fun _ _ _ => trivial) hleads hvacated).2 server
  · -- an instance with a container still holds the slot of its owner
    have hslot {i : RuntimeInstance} (hi : i ∈ s.db.instances) {server : Uuid}
        (hthere : (s.hosts server i.id).container ≠ none) :
        i.activeKey = some i.ownerUserId := by
      refine if_pos ?_
      by_contra hinactive
      rw [Bool.not_eq_true] at hinactive
      exact hthere (hnone (System.reach_released h i hi hinactive) server)
    have hsound := System.reach_sound h
    have hsame : i = j := hsound.db.slots i hi j hj i.ownerUserId (hslot hi hthere)
      (howner ▸ hslot hj hthere')
    have hplacements := System.reach_placements h
    subst hsame
    exact ⟨rfl, (hplacements.containers server i.id hthere).unique hsound.db
      (hplacements.containers server' i.id hthere')⟩

/-- A guard that can be checked along a run: no inspection is under way. -/
def NoInspection (s : System) (_ : Label) : Prop := ∀ r ∈ s.network, r.call ≠ .inspect

instance (s : System) (l : Label) : Decidable (NoInspection s l) :=
  inferInstanceAs (Decidable (∀ r ∈ s.network, r.call ≠ .inspect))

theorem NoInspection.decisive {s : System} {l : Label} (h : NoInspection s l) : Decisive s l := by
  cases l with
  | deliver k env lost =>
      cases lost with
      | true => trivial
      | false => exact fun r hr hcall => absurd hcall (h r (List.mem_of_getElem? hr))
  | _ => trivial

/-- The instance of the small deployment is launched and terminated, up to the
reply of `stop-instance`. -/
def stopReplied : List Label :=
  launchSent ++ [.deliver 0 (quietEnv 0) false, .work 0 (quietTurn 0 8),
    .terminate (seconds 1) 9 smallUser 1, .claim 0 (seconds 1) 10 9,
    .work 0 (quietTurn (seconds 1) 11), .work 0 (quietTurn (seconds 1) 12),
    .work 0 (quietTurn (seconds 1) 13), .deliver 0 (quietEnv (seconds 1)) false]

/-- The slot of an instance that is terminated is released safely. -/
theorem slot_release_safe_terminated :
    ∃ s s', runIf (System.step ⟨5, 60, 60⟩) NoInspection stopReplied smallSystem = some s ∧
      System.step ⟨5, 60, 60⟩ (.work 0 (quietTurn (seconds 1) 14)) s = some s' ∧
      ∃ i ∈ s.db.instances, i.active = true ∧ (∃ i' ∈ s'.db.instances, i'.id = i.id ∧
        i'.active = false) ∧ ∀ server, (s'.hosts server i.id).container = none := by
  have hrun : (runIf (System.step ⟨5, 60, 60⟩) NoInspection stopReplied smallSystem).any (fun s =>
      decide (NoInspection s (.work 0 (quietTurn (seconds 1) 14))) &&
      (System.step ⟨5, 60, 60⟩ (.work 0 (quietTurn (seconds 1) 14)) s).any fun s' =>
        s.db.instances.any fun i => i.active &&
          s'.db.instances.any fun i' => i'.id = i.id && ! i'.active) = true := by decide +kernel
  simp only [Option.any_eq_true, List.any_eq_true, Bool.and_eq_true, decide_eq_true_eq,
    Bool.not_eq_true'] at hrun
  obtain ⟨s, hs, hguard, s', hstep, i, hi, hactive, i', hi', hid, hinactive⟩ := hrun
  have hreach : Reach (System.step ⟨5, 60, 60⟩) Decisive System.Initial s :=
    (reach_of_runIf stopReplied (.init smallSystem_initial) hs).weaken fun _ _ => NoInspection.decisive
  exact ⟨s, s', hs, hstep, i, hi, hactive, ⟨i', hi', hid, hinactive⟩,
    (slot_release_safe ⟨5, 60, 60⟩ s hreach).1 _ s' hguard.decisive hstep i hi hactive i' hi' hid
      hinactive s' (.refl s')⟩

/-- The `ensure-instance` request is delayed until after the worker has given up
waiting; an inspection that an administrator asks for arrives first and finds
nothing. -/
def inspectedAbsent : List Label :=
  launchSent ++ [.work 0 (quietTurn 0 9), .work 0 (quietTurn 0 10),
    .reconcile (seconds 1) 11 smallUser 1, .claim 0 (seconds 1) 12 11,
    .work 0 (quietTurn (seconds 1) 13), .work 0 (quietTurn (seconds 1) 14),
    .deliver 1 (quietEnv (seconds 1)) false]

/-- The inspection releases the slot, and the delayed request creates the
container afterwards. -/
theorem slot_release_unsafe : ¬ ∀ s, Reach (System.step ⟨5, 60, 60⟩) anyStep System.Initial s →
    ∀ l s', System.step ⟨5, 60, 60⟩ l s = some s' →
      ∀ i ∈ s.db.instances, i.active = true →
      ∀ i' ∈ s'.db.instances, i'.id = i.id → i'.active = false →
      ∀ s'', Leads (System.step ⟨5, 60, 60⟩) anyStep s' s'' →
        ∀ server, (s''.hosts server i.id).container = none := by
  intro hall
  have hrun : (run (System.step ⟨5, 60, 60⟩) inspectedAbsent smallSystem).any (fun s =>
      (System.step ⟨5, 60, 60⟩ (.work 0 (quietTurn (seconds 1) 15)) s).any fun s' =>
        (run (System.step ⟨5, 60, 60⟩) [.deliver 0 (quietEnv (seconds 1)) false] s').any fun s'' =>
          s.db.instances.any fun i => i.active &&
            (s'.db.instances.any fun i' => i'.id = i.id && ! i'.active) &&
            (s''.hosts 100 i.id).container.isSome) = true := by decide +kernel
  simp only [Option.any_eq_true, List.any_eq_true, Bool.and_eq_true, decide_eq_true_eq,
    Bool.not_eq_true'] at hrun
  obtain ⟨s, hs, s', hstep, s'', hlate, i, hi, ⟨hactive, i', hi', hid, hinactive⟩, hthere⟩ := hrun
  have hnone := hall s (reach_of_run _ smallSystem_initial hs) _ s' hstep i hi hactive i' hi' hid
    hinactive s'' (leads_of_run _ hlate) 100
  rw [hnone] at hthere
  cases hthere

end CtfZone
