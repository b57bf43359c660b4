/-
# The lifetime bound

No deadline of an instance exceeds its maximum, wherever it is: in the row, in
a request under way, or in the state file and the timers of a runtime host.  An
extension is granted only below the maximum number in force, counts the
generation up, and an idempotency key grants at most one.
-/
import CtfZone.SystemInvariants

open Effects Runs Relation

namespace CtfZone

/-! ## Deadlines on a host -/

/-- Every deadline the host holds for the UUID is an allowed one. -/
structure Cell.Only (allowed : Time → Prop) (s : Cell) : Prop where
  state : ∀ st t, s.stateFile = .document st → st.expiresAt = .instant t → allowed t
  timers : ∀ u c, s.timers u = some c → ∃ t, allowed t ∧ c = calendarSecond t

namespace Helper

theorem only_creates (identifier : Uuid) (env : Env) (allowed : Time → Prop) :
    Creates identifier env (Cell.Only allowed) allowed where
  dropContainer _ h := ⟨h.state, h.timers⟩
  dropNetwork s h := by
    unfold Cell.dropNetwork
    split <;> exact ⟨h.state, h.timers⟩
  dropTimer s u h := by
    refine ⟨h.state, fun v c hv => ?_⟩
    rcases eq_or_ne v u with rfl | hne
    · rw [Cell.dropTimer_self] at hv
      cases hv
    · rw [Cell.dropTimer_of_ne hne] at hv
      exact h.timers v c hv
  dropState _ h := ⟨fun _ _ hst => (by cases hst), h.timers⟩
  fence _ _ _ _ h _ := ⟨h.state, h.timers⟩
  installTimer s g t ht h := by
    refine ⟨fun st t' hst => ?_, fun v c hv => ?_⟩
    · rw [Cell.installTimer_stateFile] at hst
      exact h.state st t' hst
    · rcases eq_or_ne v (some g) with rfl | hne
      · rw [Cell.installTimer_self] at hv
        cases hold : s.timers (some g) with
        | none =>
            rw [hold] at hv
            exact ⟨t, ht, (Option.some.inj hv).symm⟩
        | some c' =>
            rw [hold] at hv
            exact h.timers _ c (hold.trans hv)
      · rw [Cell.installTimer_of_ne hne] at hv
        exact h.timers v c hv
  held _ st t h hst ht := h.state st t hst ht
  putState s st t ht _ hst h := by
    refine ⟨fun st' t' hst' ht' => ?_, h.timers⟩
    cases hst'
    cases hst.symm.trans ht'
    exact ht
  createNetwork _ h := ⟨h.state, h.timers⟩
  create s g view h := by
    unfold Cell.createContainer
    split <;> exact ⟨h.state, h.timers⟩
  drift s d h := by
    cases d <;> exact ⟨h.state, h.timers⟩

end Helper

theorem Cell.Only.mono {allowed allowed' : Time → Prop} {s : Cell} (h : Cell.Only allowed s)
    (hsub : ∀ t, allowed t → allowed' t) : Cell.Only allowed' s where
  state st t hst ht := hsub t (h.state st t hst ht)
  timers u c hu := by
    obtain ⟨t, ht, hc⟩ := h.timers u c hu
    exact ⟨t, hsub t ht, hc⟩

/-- A tame event keeps the deadlines. -/
theorem Tamed.only {allowed : Time → Prop} {u : Uuid} {cell cell' : Cell} (h : Tamed u cell cell')
    (hcell : Cell.Only allowed cell) : Cell.Only allowed cell' := by
  obtain ⟨e, htame, rfl⟩ := h
  cases e with
  | operation op env =>
      refine (Helper.only_creates u env allowed).perform hcell op fun t ht => ?_
      cases op <;> cases htame <;> cases ht
  | drift d => cases d <;> exact ⟨hcell.state, hcell.timers⟩
  | timersLost kept =>
      refine ⟨hcell.state, fun v c hv => ?_⟩
      rw [Helper.Event.apply] at hv
      dsimp only at hv
      split at hv
      · exact hcell.timers v c hv
      · cases hv

/-! ## Deadlines in the system -/

/-- A deadline within the maximum of the instance. -/
def Database.Permits (db : Database) (u : Uuid) (t : Time) : Prop :=
  ∃ i ∈ db.instances, i.id = u ∧ t ≤ i.maximumExpiresAt

/-- Every host holds permitted deadlines. -/
def System.Bounded (s : System) : Prop :=
  ∀ server u, Cell.Only (s.db.Permits u) (s.hosts server u)

theorem Database.Permits.mono {db db' : Database} {u : Uuid} {t : Time} (h : db.Permits u t)
    (hlater : db.Later db') : db'.Permits u t := by
  obtain ⟨i, hi, hid, ht⟩ := h
  obtain ⟨i', hi', hi'later⟩ := hlater.instances i hi
  exact ⟨i', hi', hi'later.id.trans hid, by rwa [hi'later.maximumExpiresAt]⟩

/-- A known row asks for a deadline within the maximum. -/
theorem InstanceRow.Known.permits {row : InstanceRow} {db : Database} (h : row.Known db) :
    db.Permits row.id row.desiredExpiresAt := by
  obtain ⟨i, hi, j, hsound, hlater, rfl⟩ := h
  exact ⟨i, hi, hlater.id, by rw [hlater.maximumExpiresAt]; exact hsound.desired⟩

theorem System.Bounded.step {config : Config} {s s' : System} {l : Label} (hsound : s.Sound)
    (h : s.Bounded) (hmoved : Moved config s l s') : s'.Bounded := by
  have hlater := hmoved.later hsound.drawn
  have hsame (hhosts : s'.hosts = s.hosts) : s'.Bounded := fun server u => by
    rw [hhosts]
    exact (h server u).mono fun t ht => ht.mono hlater
  cases hmoved with
  | request | claim | work | crash => exact hsame rfl
  | deliver k env lost r hl mem workers hworkers =>
      have hjob := (hsound.network r (List.mem_of_getElem? mem)).2
      refine setHost_cases (P := fun _ u => Cell.Only (s.db.Permits u)) h ?_
      rw [RemoteRequest.program_perform]
      refine (Helper.only_creates _ env _).perform (h _ _) _ fun t ht => ?_
      have hdeadline : t = r.job.row.desiredExpiresAt := by
        unfold RemoteRequest.operation at ht
        cases hcall : r.call <;> rw [hcall] at ht <;> cases ht <;> rfl
      rw [hdeadline]
      exact hjob.row.permits
  | host server u cell htamed =>
      exact setHost_cases (P := fun _ u => Cell.Only (s.db.Permits u)) h (htamed.only (h server u))

theorem System.Initial.bounded {s : System} (h : s.Initial) : s.Bounded := by
  intro server u
  rw [h.hosts server u]
  exact ⟨fun _ _ hst => (by cases hst), fun _ _ hu => (by cases hu)⟩

theorem System.reach_bounded {config : Config} {s : System}
    (h : Reach (System.step config) anyStep System.Initial s) : s.Bounded :=
  h.invariant_with (fun _ hreach => System.reach_sound hreach) (fun _ hinitial => hinitial.bounded)
    fun _ _ _ hsound hbounded _ hstep => hbounded.step hsound (System.step_moved hstep)

/-! ## Extensions -/

/-- The request is granted. -/
def Granted (now : Time) (commandId : Uuid) (user : CurrentUser) (instanceId : Uuid)
    (request : ExtendRequest) (db : Database) : Prop :=
  (extendInstance now commandId user instanceId request db).1 = .accepted

/-- A key that has been used grants nothing. -/
theorem not_granted_of_used {db : Database} {user : CurrentUser} {request : ExtendRequest}
    {key : String} (hkey : request.idempotencyKey = some key) {c : RuntimeCommand}
    (hc : c ∈ db.commands) (hused : c.idempotency = some (user.id, key, .extend)) (now : Time)
    (commandId instanceId : Uuid) : ¬ Granted now commandId user instanceId request db := by
  have hfound : ∃ existing, db.findExtension user request.idempotencyKey = some existing := by
    rw [hkey]
    refine Option.isSome_iff_exists.mp (List.find?_isSome.mpr ⟨c, hc, ?_⟩)
    exact decide_eq_true hused
  obtain ⟨existing, hexisting⟩ := hfound
  unfold Granted extendInstance
  split
  · exact fun h => by cases h
  · dsimp only
    split
    · exact fun h => by cases h
    · rw [hexisting]
      dsimp only
      split
      · exact fun h => by cases h
      · exact fun h => by cases h

/-- What a granted extension does to its instance. -/
structure Extended (commandId : Uuid) (user : CurrentUser) (instanceId : Uuid)
    (request : ExtendRequest) (db db' : Database) (i i' : RuntimeInstance) : Prop where
  before : i ∈ db.instances ∧ i.id = instanceId
  after : i' ∈ db'.instances ∧ i'.id = instanceId
  count : i.extensionCount < db.maximumExtensions i.challengeId
  counted : i'.extensionCount = i.extensionCount + 1
  generation : i.generation < i'.generation
  deadline : i.desiredExpiresAt < i'.desiredExpiresAt
  maximum : i'.desiredExpiresAt ≤ i'.maximumExpiresAt
  command : ∃ c ∈ db'.commands, c.id = commandId ∧ c.instanceId = instanceId ∧
    c.kind = .extend ∧ c.generation = i'.generation ∧ c.requestedByUserId = some user.id ∧
    c.idempotencyKey = request.idempotencyKey

theorem extendInstance_extended {db : Database} {now : Time} {commandId instanceId : Uuid}
    {user : CurrentUser} {request : ExtendRequest}
    (h : Granted now commandId user instanceId request db) :
    ∃ i i', Extended commandId user instanceId request db
      (extendInstance now commandId user instanceId request db).2 i i' := by
  rcases extendInstance_cases now commandId user instanceId request db with
    ⟨hrefused, -⟩ | ⟨-, i, t, c, hid, huser, hkey, hext⟩
  · exact absurd h hrefused
  · refine ⟨i, i.extended t, ⟨hext.mem, hid⟩, ⟨?_, hid⟩, hext.count, rfl,
      Int.lt_add_one_iff.mpr (Int.le_refl _), hext.later, hext.maximum, c, ?_, hext.id, ?_,
      hext.queued.kind, hext.queued.generation, huser, hkey⟩
    · rw [hext.instances]
      exact Tables.mem_update.mpr ⟨i, hext.mem, .inl ⟨decide_eq_true rfl, rfl⟩⟩
    · rw [hext.commands]
      exact List.mem_append_right _ List.mem_cons_self
    · exact hext.queued.instanceId.trans hid

/-- **The lifetime bound.**  In every reachable state every deadline in the
tables, on its way to a host or held by one is within the maximum of its
instance.  An extension that is granted is granted below the maximum number in
force and counts the generation up, which nothing ever counts down; a request
that is not granted changes nothing; and once a caller's key has been granted an
extension, it is granted no other. -/
theorem lifetime_bound (config : Config) (s : System)
    (h : Reach (System.step config) anyStep System.Initial s) :
    (∀ i ∈ s.db.instances, i.desiredExpiresAt ≤ i.maximumExpiresAt ∧
      i.expiresAt ≤ i.maximumExpiresAt ∧
      (∀ t, i.observedExpiresAt = some t → t ≤ i.maximumExpiresAt) ∧
      ∀ server,
        (∀ st t, (s.hosts server i.id).stateFile = .document st → st.expiresAt = .instant t →
          t ≤ i.maximumExpiresAt) ∧
        ∀ unit c, (s.hosts server i.id).timers unit = some c →
          seconds c ≤ i.maximumExpiresAt) ∧
    (∀ r ∈ s.network, ∃ i ∈ s.db.instances, i.id = r.job.row.id ∧
      ∃ t, r.payload.expiresAt = .instant t ∧ t ≤ i.maximumExpiresAt) ∧
    (∀ now commandId user instanceId request s',
      System.step config (.extend now commandId user instanceId request) s = some s' →
      (Granted now commandId user instanceId request s.db →
        ∃ i i', Extended commandId user instanceId request s.db s'.db i i') ∧
      (¬ Granted now commandId user instanceId request s.db → s'.db = s.db)) ∧
    (∀ s', Leads (System.step config) anyStep s s' → ∀ i ∈ s.db.instances,
      ∃ i' ∈ s'.db.instances, i'.id = i.id ∧ i.generation ≤ i'.generation ∧
        i'.maximumExpiresAt = i.maximumExpiresAt) ∧
    (∀ now commandId user instanceId request s' key,
      System.step config (.extend now commandId user instanceId request) s = some s' →
      Granted now commandId user instanceId request s.db → request.idempotencyKey = some key →
      ∀ s'', Leads (System.step config) anyStep s' s'' →
        ∀ now' commandId' user' instanceId' request', user'.id = user.id →
          request'.idempotencyKey = some key →
          ¬ Granted now' commandId' user' instanceId' request' s''.db) := by
  have hsound := System.reach_sound h
  have hbounded := System.reach_bounded h
  have hdb {now commandId user instanceId request s'}
      (hstep : System.step config (.extend now commandId user instanceId request) s = some s') :
      s'.db = (extendInstance now commandId user instanceId request s.db).2 := by
    rw [System.step, System.transact] at hstep
    split at hstep
    · cases hstep
    · cases hstep
      rfl
  refine ⟨fun i hi => ?_, fun r hr => ?_, fun now id user iid request s' hstep => ?_,
    fun s' hleads i hi => ?_, fun now id user iid request s' key hstep hgranted hkey s'' hleads
      now' id' user' iid' request' huser hkey' => ?_⟩
  · have hi' := hsound.db.instances i hi
    -- what is permitted for the UUID is within the maximum of this instance
    have hpermits {t : Time} (ht : s.db.Permits i.id t) : t ≤ i.maximumExpiresAt := by
      obtain ⟨j, hj, hid, hle⟩ := ht
      rwa [hsound.db.instance_eq hj hi hid] at hle
    refine ⟨hi'.desired, hi'.expires, hi'.observed, fun server => ⟨fun st t hst ht => ?_,
      fun unit c hc => ?_⟩⟩
    · exact hpermits ((hbounded server i.id).state st t hst ht)
    · obtain ⟨t, ht, rfl⟩ := (hbounded server i.id).timers unit c hc
      exact Int.le_trans (seconds_calendarSecond_le t) (hpermits ht)
  · obtain ⟨i, hi, hid, hle⟩ := (hsound.network r hr).2.row.permits
    exact ⟨i, hi, hid, _, rfl, hle⟩
  · rw [hdb hstep]
    refine ⟨extendInstance_extended, fun hrefused => ?_⟩
    rcases extendInstance_cases now id user iid request s.db with ⟨-, hsame⟩ | ⟨hgranted, -⟩
    · exact hsame
    · exact absurd hgranted hrefused
  · obtain ⟨i', hi', hlater⟩ := (System.leads_later h hleads).instances i hi
    exact ⟨i', hi', hlater.id, hlater.generation, hlater.maximumExpiresAt⟩
  · obtain ⟨i, i', hextended⟩ := extendInstance_extended hgranted
    obtain ⟨c, hc, -, -, hkind, -, hcuser, hckey⟩ := hextended.command
    rw [← hdb hstep] at hc
    obtain ⟨c', hc', hsame⟩ := (System.leads_later (.step _ h trivial hstep) hleads).commands c hc
    refine not_granted_of_used hkey' hc' ?_ now' id' iid'
    unfold RuntimeCommand.idempotency
    rw [hsame.requestedByUserId, hsame.idempotencyKey, hsame.kind, hcuser, hckey, hkind, hkey, huser]

/-- The bound on a host that has served a launch. -/
theorem lifetime_bound_launched :
    ∃ s, run (System.step ⟨5, 60, 60⟩) (launchSent ++ [.deliver 0 (quietEnv 0) false])
        smallSystem = some s ∧ s.db.instances ≠ [] ∧
      ∀ i ∈ s.db.instances, ∀ server unit c, (s.hosts server i.id).timers unit = some c →
        seconds c ≤ i.maximumExpiresAt := by
  have hlaunched : (run (System.step ⟨5, 60, 60⟩)
      (launchSent ++ [.deliver 0 (quietEnv 0) false]) smallSystem).any
      (fun s => ! s.db.instances.isEmpty) = true := by decide +kernel
  obtain ⟨s, hrun, hsome⟩ := (Option.any_eq_true _ _).mp hlaunched
  have hreach := reach_of_run _ smallSystem_initial hrun
  refine ⟨s, hrun, by simpa using hsome, fun i hi server => ?_⟩
  exact (((lifetime_bound ⟨5, 60, 60⟩ s hreach).1 i hi).2.2.2 server).2

end CtfZone
