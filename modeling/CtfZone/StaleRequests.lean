/-
# Stale requests

A request is stale when the host already runs a later generation, and a timer
when its generation is not the one that runs.

* `ensure-instance`, `stop-instance` and `update-deadline` compare the request
  with `state_generation`, behind which nothing has been changed.
* `expire-instance` compares the field of the state file itself.  A boolean and
  a float equal an integer for Python's `!=`, and `state_generation` refuses
  both, so the timer of such a file is not the one of the generation in force.
-/
import CtfZone.HelperCalm

open Effects Effects.Prog

namespace CtfZone.Helper

variable {identifier : Uuid} {env : Env} {s : Cell} {st : InstanceState} {g : ℤ}

/-! ## Operations with their replies -/

/-- The program of an operation; a timer and the sweep print no reply of an
instance. -/
def Operation.run (identifier : Uuid) : Operation → Helper (Option Reply)
  | .ensure request => do return some (← ensureInstance identifier request)
  | .inspect => do return some (← inspectResult .request identifier)
  | .stop request => do return some (← stopInstance identifier request)
  | .update request => do return some (← updateDeadline identifier request)
  | .expire expectedGeneration => do
    expireInstance .request identifier expectedGeneration
    return none
  | .sweep => do
    let _ ← sweepInstance identifier
    return none

/-- The reply adds nothing to what an operation does to the host. -/
theorem Operation.run_perform (op : Operation) :
    (op.run identifier env s).2 = op.perform identifier env s := by
  have hmap {α : Type} (m : Helper α) (f : α → Option Reply) :
      ((do return f (← m) : Helper (Option Reply)) env s).2 = (m env s).2 := by
    change (Prog.bind m (fun a => pure (f a)) env s).2 = _
    unfold Prog.bind
    rcases m env s with ⟨_ | _ | _, s'⟩ <;> rfl
  rcases op with request | _ | request | request | e | _
  · exact hmap _ some
  · exact hmap _ some
  · exact hmap _ some
  · exact hmap _ some
  · exact hmap _ fun _ => none
  · exact hmap _ fun _ => none

/-! ## Stale requests -/

/-- There is no tombstone, and the state file is readable and of effective
generation `g`. -/
structure Cell.InForce (identifier : Uuid) (st : InstanceState) (g : ℤ) (s : Cell) : Prop where
  unfenced : s.tombstoneFile = .missing
  readable : s.stateFile = .document st
  own : st.instanceId = identifier
  effective : stateGeneration (some st) s.container = some g

/-- The request is of an earlier generation than `g`. -/
def Request.Behind (g : ℤ) (request : Request) : Prop :=
  ∀ n, request.generation = .int n → n < g

/-- The request is behind `g`, or the timer is of another generation. -/
def Operation.Stale (g : ℤ) : Operation → Prop
  | .ensure request | .stop request | .update request => request.Behind g
  | .expire expectedGeneration => expectedGeneration ≠ g
  | .inspect | .sweep => False

/-- The outcome is an exception, or reports the stale generation. -/
def Refused (g : ℤ) (o : Outcome Exc (Option Reply)) : Prop :=
  ∀ reply, o = .done (some reply) →
    reply.staleGeneration = some true ∧ reply.effectiveGeneration = some g

/-- In every environment that can read the state file, the operation changes
nothing and is refused. -/
def Operation.ChangesNothing (identifier : Uuid) (g : ℤ) (s : Cell) (op : Operation) : Prop :=
  ∀ env : Env, (env.fault .request .readState).refuses = false →
    wp (op.run identifier) env s fun o s' => s' = s ∧ Refused g o

/-- The timer takes a field that is not an integer, so a boolean or a float, for
its own generation, and the file has a deadline to act on. -/
def Operation.Misread (st : InstanceState) : Operation → Prop
  | .expire expectedGeneration =>
    0 < expectedGeneration ∧ (∀ n, st.generation ≠ .int n) ∧
      st.generation.equalsInt expectedGeneration = true ∧ ∃ t, st.expiresAt = .instant t
  | _ => False

/-! ## Refused requests -/

/-- A program that changes nothing and only reports the stale generation. -/
def Refuses (g : ℤ) (m : Helper Reply) (env : Env) (s : Cell) : Prop :=
  wp m env s fun o s' => s' = s ∧
    ∀ reply, o = .done reply →
      reply.staleGeneration = some true ∧ reply.effectiveGeneration = some g

theorem refuses_raise (e : Exc) : Refuses g (raise e) env s :=
  ⟨rfl, fun _ h => by cases h⟩

theorem refuses_pure {reply : Reply} (hstale : reply.staleGeneration = some true)
    (heffective : reply.effectiveGeneration = some g) : Refuses g (pure reply) env s := by
  refine ⟨rfl, fun r h => ?_⟩
  cases h
  exact ⟨hstale, heffective⟩

/-- What is read before a refusal may be anything that can be read. -/
theorem refuses_bind {α : Type} {m : Helper α} {f : α → Helper Reply} {V : α → Prop}
    (hm : Yields m env (· = s) V) (hf : ∀ a, V a → Refuses g (f a) env s) :
    Refuses g (m >>= f) env s :=
  hm.wp_bind hf fun _ ho => ⟨rfl, fun reply hreply => absurd hreply (ho reply)⟩

/-- The reply of a refused program is passed on. -/
theorem Refuses.run {m : Helper Reply} (h : Refuses g m env s) :
    wp (do return some (← m) : Helper (Option Reply)) env s fun o s' => s' = s ∧ Refused g o := by
  rw [wp_bind]
  refine wp_mono h fun o s' ho => ?_
  obtain ⟨rfl, hreply⟩ := ho
  rcases o with reply | e | _
  · rw [thenPost_done, wp_pure]
    refine ⟨rfl, fun r hr => ?_⟩
    cases hr
    exact hreply reply rfl
  · exact ⟨rfl, fun _ hr => by cases hr⟩
  · exact ⟨rfl, fun _ hr => by cases hr⟩

theorem yields_clock (p : ClockPoint) :
    Yields (read (·.clock p) : Helper Time) env (· = s) fun _ => True :=
  fun _ h => ⟨h, fun _ _ => trivial⟩

/-! ## The three requests -/

theorem refuses_readTombstone {f : Option ℤ → Helper Reply} (h : s.tombstoneFile = .missing)
    (hf : Refuses g (f none) env s) :
    Refuses g (readTombstone .request .readTombstone identifier >>= f) env s := by
  refine refuses_bind yields_readTombstone fun fenced hfenced => ?_
  rcases fenced with _ | n
  · exact hf
  · obtain ⟨t, ht, -⟩ := hfenced.1 n rfl
    rw [h] at ht
    cases ht

variable {request : Request}

theorem ensureInstance_refuses (h : Cell.InForce identifier st g s) (hstale : request.Behind g)
    (hread : (env.fault .request .readState).refuses = false) :
    Refuses g (ensureInstance identifier request) env s := by
  unfold ensureInstance
  refine refuses_bind (yields_generation request) fun n hn => ?_
  have hbehind : n < g := hstale n hn.1
  refine refuses_readTombstone h.unfenced (refuses_bind (yields_parseDeadline _) fun t _ => ?_)
  refine refuses_bind (yields_clock .check) fun now _ => ?_
  by_cases helapsed : t ≤ now
  · rw [if_pos helapsed]
    exact refuses_raise _
  rw [if_neg helapsed]
  rcases request.deployment with _ | deployment
  · exact refuses_raise _
  dsimp only
  unfold ensureUnfenced flagFingerprint
  refine refuses_bind (V := fun _ => True) (fun c hc => ⟨hc, fun _ _ => trivial⟩)
    fun fingerprint _ => ?_
  refine refuses_bind yields_inspectRaw fun existing hexisting => ?_
  refine refuses_bind (yields_readable h.readable h.own hread) fun state hstate => ?_
  obtain ⟨rfl, -⟩ := hexisting
  subst hstate
  have heffective := h.effective
  -- a container is compared after its flag, a state file alone at once
  rcases hcontainer : s.container with _ | container
  · rw [hcontainer] at heffective
    dsimp only
    rw [heffective, if_pos (by simpa using hbehind)]
    exact refuses_pure rfl rfl
  · rw [hcontainer] at heffective
    dsimp only
    rw [heffective]
    dsimp only
    by_cases hflag : sameFlagConfiguration st fingerprint
    · rw [if_neg (not_not.mpr hflag), if_pos (by omega)]
      exact refuses_pure rfl rfl
    · rw [if_pos hflag]
      exact refuses_raise _

theorem stopInstance_refuses (h : Cell.InForce identifier st g s) (hstale : request.Behind g)
    (hread : (env.fault .request .readState).refuses = false) :
    Refuses g (stopInstance identifier request) env s := by
  unfold stopInstance
  refine refuses_bind (yields_generation request) fun n hn => ?_
  have hbehind : n < g := hstale n hn.1
  refine refuses_bind yields_inspectRaw fun inspection hinspection => ?_
  refine refuses_bind (yields_readable h.readable h.own hread) fun state hstate => ?_
  obtain ⟨rfl, -⟩ := hinspection
  subst hstate
  have hlater : (stateGeneration (some st) s.container).any (n < ·) = true := by
    rw [h.effective]
    simpa using hbehind
  rcases hcontainer : s.container with _ | container
  all_goals
    dsimp only
    rw [← hcontainer, if_pos hlater]
    exact refuses_pure rfl h.effective

theorem updateDeadline_refuses (h : Cell.InForce identifier st g s) (hstale : request.Behind g)
    (hread : (env.fault .request .readState).refuses = false) :
    Refuses g (updateDeadline identifier request) env s := by
  unfold updateDeadline
  refine refuses_bind (yields_generation request) fun n hn => ?_
  have hbehind : n < g := hstale n hn.1
  refine refuses_bind (yields_parseDeadline _) fun t _ => ?_
  refine refuses_readTombstone h.unfenced (refuses_bind yields_inspectRaw fun inspection hi => ?_)
  refine refuses_bind (yields_readable h.readable h.own hread) fun state hstate => ?_
  obtain ⟨rfl, -⟩ := hi
  subst hstate
  have heffective := h.effective
  rcases hcontainer : s.container with _ | container
  · exact refuses_raise _
  · rw [hcontainer] at heffective
    dsimp only
    rw [heffective]
    dsimp only
    rw [if_pos hbehind]
    exact refuses_pure rfl rfl

/-! ## Timers -/

/-- An integer in the file that equals a timer of another generation than the one
in force would be in force itself. -/
theorem Cell.InForce.not_int {e : ℤ} (h : Cell.InForce identifier st g s) (hne : e ≠ g)
    (hpos : 0 < e) (hequal : st.generation.equalsInt e = true) (n : ℤ) :
    st.generation ≠ .int n := by
  intro hn
  have hsame : n = e := by
    rw [hn] at hequal
    simpa [Raw.equalsInt] using hequal
  have heffective := h.effective
  rw [stateGeneration_valid hn (by omega)] at heffective
  cases heffective
  exact hne hsame.symm

/-- A timer that is not misread returns before anything is changed. -/
theorem expireInstance_idle {e : ℤ} (h : Cell.InForce identifier st g s) (hne : e ≠ g)
    (hsound : ¬ (Operation.expire e).Misread st) :
    wp (expireInstance .request identifier e) env s fun _ s' => s' = s := by
  unfold expireInstance
  rw [wp_ite, wp_raise]
  refine ⟨fun _ => rfl, fun hpos => ?_⟩
  rw [wp_bind]
  refine wp_mono (wp_readState .request identifier s) fun o s' ho => ?_
  obtain ⟨rfl, hdoc, -, -⟩ := ho
  rcases o with (_ | state) | exception | _
  · rfl
  · obtain ⟨hfile, -⟩ := hdoc state rfl
    cases h.readable.symm.trans hfile
    rw [thenPost_done]
    dsimp only
    rw [wp_ite, wp_pure]
    refine ⟨fun _ => rfl, fun hequal => ?_⟩
    -- the file has no deadline to act on
    have hno : ∀ t, st.expiresAt ≠ .instant t := by
      intro t ht
      have hequal := not_not.mp hequal
      exact hsound ⟨by omega, h.not_int hne (by omega) hequal, hequal, t, ht⟩
    rw [wp_bind]
    rcases hdeadline : st.expiresAt with _ | _ | _ | _ | t
    · rfl
    · rfl
    · rfl
    · rfl
    · exact absurd hdeadline (hno t)
  · rfl
  · rfl

/-- The host at the deadline `t`, when every call succeeds. -/
def punctual (t : Time) : Env := { calm with now := t }

theorem writeTombstone_punctual {p : Phase} {e : ℤ} {t : Time} (hpos : 0 < e)
    (hmissing : s.tombstoneFile = .missing) :
    Returns (writeTombstone p identifier e) (punctual t) s ⟨⟩ (Cell.fence identifier e s) := by
  have hcalm : Calm (punctual t) := by
    intro q st
    simp [punctual, calm, faultAt]
  have hnone : Cell.tombstoneGeneration identifier s = none := by
    rw [Cell.tombstoneGeneration, hmissing]
  have hmax : max e ((Cell.tombstoneGeneration identifier s).getD 0) = e := by
    rw [hnone, Option.getD_none]
    omega
  have hwrite : Returns (writeTombstone p identifier e) (punctual t) s ⟨⟩
      (Cell.fence identifier (max e ((Cell.tombstoneGeneration identifier s).getD 0)) s) :=
    calm_writeTombstone hcalm hpos (.inl hmissing)
  rw [hmax] at hwrite
  exact hwrite

/-- A misread timer that elapses fences the instance. -/
theorem expireInstance_misread {e : ℤ} {t : Time} (h : Cell.InForce identifier st g s)
    (hpos : 0 < e) (hequal : st.generation.equalsInt e = true) (ht : st.expiresAt = .instant t) :
    wp (expireInstance .request identifier e) (punctual t) s fun _ s' =>
      s'.tombstoneFile ≠ .missing := by
  have hread : Returns (readState .request identifier) (punctual t) s (some st) s := by
    refine returns_bind.mpr ⟨some st, s, ?_, ?_⟩
    · simp [Returns, readJson, punctual, calm, faultAt, h.readable]
    · simp [h.own]
  have hfence : Returns (writeTombstone .request identifier e) (punctual t) s ⟨⟩
      (Cell.fence identifier e s) := writeTombstone_punctual hpos h.unfenced
  have hkept : Kept identifier (punctual t)
      (Fenced identifier False (Cell.fence identifier e s) e) fun _ => True :=
    fenced_kept False.elim
  have hrest : Preserves (do removeWorkloadVerified .request; removeState .request) (punctual t)
      (Fenced identifier False (Cell.fence identifier e s) e) :=
    (hkept.removeWorkloadVerified .request).bind fun _ => hkept.removeState .request
  have hdue : ¬ (punctual t).clock .expire + seconds 1 < t := by
    show ¬ t + (0 : ℤ) + 1 * 1000000 < t
    simp only [Time] at *
    omega
  unfold expireInstance
  rw [if_neg (by omega)]
  refine hread.wp_bind ?_
  dsimp only
  rw [if_neg (not_not.mpr hequal), ht]
  refine Returns.wp_bind (a := t) rfl ?_
  rw [wp_bind, wp_read, thenPost_done, if_neg hdue]
  refine hfence.wp_bind (wp_mono (hrest _ (Fenced.refl ?_)) fun _ s' hs' hmissing => ?_)
  · exact Cell.tombstoneGeneration_fence identifier hpos s
  · obtain ⟨n, hn, -⟩ := hs'.tombstone
    obtain ⟨t', ht', -⟩ := Cell.tombstoneGeneration_eq_some.mp hn
    rw [hmissing] at ht'
    cases ht'

/-! ## When stale requests change nothing -/

/-- **When a stale request changes nothing.**  On a host without a tombstone
whose state file is readable and of effective generation `g`, a stale request or
timer leaves everything as it is and is refused, in every environment, exactly
when it is no timer that misreads the file. -/
theorem stale_changes_nothing_iff (identifier : Uuid) (st : InstanceState) (g : ℤ) (s : Cell)
    (op : Operation) (h : Cell.InForce identifier st g s) (hstale : op.Stale g) :
    op.ChangesNothing identifier g s ↔ ¬ op.Misread st := by
  constructor
  · intro hnothing hmisread
    rcases op with request | _ | request | request | e | _
    · exact hmisread
    · exact hmisread
    · exact hmisread
    · exact hmisread
    · obtain ⟨hpos, -, hequal, t, ht⟩ := hmisread
      have hsame : (Operation.perform identifier (punctual t) s (.expire e)) = s := by
        rw [← Operation.run_perform]
        exact (hnothing (punctual t) rfl).1
      have hfenced : (Operation.perform identifier (punctual t) s (.expire e)).tombstoneFile ≠
          .missing := expireInstance_misread h hpos hequal ht
      rw [hsame] at hfenced
      exact hfenced h.unfenced
    · exact hmisread
  · intro hsound env hread
    rcases op with request | _ | request | request | e | _
    · exact (ensureInstance_refuses h hstale hread).run
    · exact hstale.elim
    · exact (stopInstance_refuses h hstale hread).run
    · exact (updateDeadline_refuses h hstale hread).run
    · show wp (expireInstance .request identifier e >>= fun _ => pure none) env s _
      rw [wp_bind]
      refine wp_mono (expireInstance_idle h hstale hsound) fun o s' hs' => ?_
      subst hs'
      rcases o with _ | exception | _
      all_goals exact ⟨rfl, fun _ hr => by cases hr⟩
    · exact hstale.elim

/-- A state file of generation 3, and its container. -/
def third : Cell :=
  { Cell.pristine with
    container := some ⟨some 1, some 3, calm.created⟩
    network := true
    stateFile := .document ⟨1, .int 3, .instant (seconds 100), some plainDeployment, .null⟩ }

/-- A stop of generation 2 changes nothing where generation 3 runs. -/
theorem stale_changes_nothing_iff_third :
    (stopOf 2).ChangesNothing 1 3 third ↔
      ¬ (stopOf 2).Misread ⟨1, .int 3, .instant (seconds 100), some plainDeployment, .null⟩ :=
  stale_changes_nothing_iff 1 _ 3 third (stopOf 2) ⟨rfl, rfl, rfl, rfl⟩
    (show ∀ n, Raw.int 2 = .int n → n < 3 from by
      intro n hn
      cases hn
      omega)

/-- The state file of an instance of generation 2 whose field has become
`true`. -/
def boolean : Cell :=
  { third with
    container := some ⟨some 1, some 2, calm.created⟩
    stateFile := .document ⟨1, .bool true, .instant (seconds 100), some plainDeployment, .null⟩ }

/-- A timer of generation 1 removes an instance of generation 2: the generation
in its state file is `true`, which Python takes for 1. -/
theorem misread_timer_removes :
    ¬ ∀ (identifier : Uuid) (st : InstanceState) (g : ℤ) (s : Cell) (op : Operation),
      Cell.InForce identifier st g s → op.Stale g → op.ChangesNothing identifier g s := by
  intro h
  have hunchanged := h 1 ⟨1, .bool true, .instant (seconds 100), some plainDeployment, .null⟩ 2
    boolean (.expire 1) ⟨rfl, rfl, rfl, by decide⟩ (show (1 : ℤ) ≠ 2 from by omega)
    (punctual (seconds 100)) rfl
  have hgone : ((Operation.expire 1).run 1 (punctual (seconds 100)) boolean).2.container = none :=
    by decide +kernel
  rw [hunchanged.1] at hgone
  cases hgone

end CtfZone.Helper
