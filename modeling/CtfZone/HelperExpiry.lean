/-
# The expiry guard of a workload

What keeps a container from outliving its deadline is a timer unit of the
generation its state file records.  `update_deadline` moves that generation: it
installs the new timer, switches the state file and stops the old timer, and
its handler undoes the new timer whenever `write_state` raises, also when the new
state file is already in place.  The main result says exactly when the guard
survives.
-/
import CtfZone.HelperFence

open Effects Effects.Prog

namespace CtfZone

/-- `schedule_timer` succeeds: the deadline lies ahead, the unit is found active
or is installed, and the generation-less unit is stopped. -/
def Env.schedules (env : Env) (p : Phase) (g : ℤ) (t : Time) (s : Cell) : Bool :=
  decide (env.clock .schedule < t) &&
    (if (s.timers (some g)).isSome then env.fault p .timerProbe = .none
     else (env.fault p .timerProbe).returns && env.fault p .timerInstall = .none &&
       env.fault p .timerReprobe = .none) &&
    (env.fault p (.timerStop none)).returns && (env.fault p (.timerReset none)).returns

namespace Helper

variable {env : Env}

/-! ## Timers -/

/-- A command returns its status, or it ends the sequence it stands in. -/
theorem wp_command {p : Phase} {st : Step} {effect : Cell → Cell} {success : Cell → Bool}
    {s : Cell} {Q : Outcome Exc Bool → Cell → Prop}
    (hnone : env.fault p st = .none → Q (.done (success s)) (effect s))
    (hexit : ∀ took, env.fault p st = .exit took → Q (.done false) (tookEffect took effect s))
    (hcut : (env.fault p st).returns = false → ∀ o, (∀ b, o ≠ .done b) →
      Q o (tookEffect (env.fault p st).takesEffect effect s)) :
    wp (command p st effect success) env s Q := by
  unfold wp command
  cases hf : env.fault p st with
  | none => exact hnone hf
  | exit took => exact hexit took hf
  | timeout took | osError took | kill took =>
      rw [hf] at hcut
      exact hcut rfl _ (by simp)

/-- Stopping a unit takes effect as the environment says, however it ends, and
it returns exactly when both commands do. -/
theorem wp_cancelTimer (p : Phase) (u : Option ℤ) (s : Cell) :
    wp (cancelTimer p u) env s fun o s' =>
      s' = tookEffect (env.fault p (.timerStop u)).takesEffect (Cell.dropTimer u) s ∧
      (o = .done ⟨⟩ ↔ (env.fault p (.timerStop u)).returns = true ∧
        (env.fault p (.timerReset u)).returns = true) := by
  have hcommand (st : Step) (effect : Cell → Cell) (c : Cell) :
      wp (command p st effect fun _ => true) env c fun o c' =>
        c' = tookEffect (env.fault p st).takesEffect effect c ∧
        ((∃ b, o = .done b) ↔ (env.fault p st).returns = true) := by
    unfold wp command
    rcases env.fault p st with _ | took | took | took | took
    · simp [Fault.takesEffect, Fault.returns, tookEffect]
    all_goals cases took <;> simp [Fault.takesEffect, Fault.returns, tookEffect]
  unfold cancelTimer
  rw [wp_bind]
  refine wp_mono (hcommand _ _ s) fun o s₁ h => ?_
  obtain ⟨rfl, hdone⟩ := h
  rcases o with b | e | _
  · rw [thenPost_done, wp_bind]
    refine wp_mono (hcommand _ id _) fun o s₂ h => ?_
    obtain ⟨rfl, hdone'⟩ := h
    rcases o with b | e | _
    · rw [thenPost_done, wp_pure]
      simp [← hdone, ← hdone']
    · simp [← hdone, ← hdone']
    · simp [← hdone, ← hdone']
  · simp [← hdone]
  · simp [← hdone]

/-- How a cell changes while a timer of generation `g` is scheduled. -/
structure Cell.Scheduled (g : ℤ) (t : Time) (s s' : Cell) : Prop where
  container : s'.container = s.container
  stateFile : s'.stateFile = s.stateFile
  tombstoneFile : s'.tombstoneFile = s.tombstoneFile
  others : ∀ u, u ≠ some g → u ≠ none → s'.timers u = s.timers u
  own : s'.timers (some g) = s.timers (some g) ∨
    s.timers (some g) = none ∧ s'.timers (some g) = some (calendarSecond t)

theorem Cell.Scheduled.refl (g : ℤ) (t : Time) (s : Cell) : Cell.Scheduled g t s s :=
  ⟨rfl, rfl, rfl, fun _ _ _ => rfl, .inl rfl⟩

theorem scheduleTimer_changes (p : Phase) (g : ℤ) (t : Time) (s : Cell) :
    wp (scheduleTimer p g t) env s fun _ s' => Cell.Scheduled g t s s' := by
  refine preserves_scheduleTimer (fun c hc => ?_) (fun c hc => ?_) s (.refl g t s)
  · refine ⟨?_, ?_, ?_, fun u hg hn => ?_, ?_⟩
    · rw [Cell.installTimer_container, hc.container]
    · rw [Cell.installTimer_stateFile, hc.stateFile]
    · rw [Cell.installTimer_tombstoneFile, hc.tombstoneFile]
    · rw [Cell.installTimer_of_ne hg, hc.others u hg hn]
    · rw [Cell.installTimer_self]
      rcases hc.own with h | ⟨hold, hnew⟩
      · rw [h]
        cases hs : s.timers (some g) with
        | none => exact .inr ⟨rfl, rfl⟩
        | some c => exact .inl rfl
      · rw [hnew]
        exact .inr ⟨hold, rfl⟩
  · refine ⟨hc.container, hc.stateFile, hc.tombstoneFile, fun u hg hn => ?_, ?_⟩
    · rw [Cell.dropTimer_of_ne hn, hc.others u hg hn]
    · rw [Cell.dropTimer_of_ne (by simp)]
      exact hc.own

/-- The generation-less unit is stopped and leaves the others alone. -/
theorem cancelGenerationless {p : Phase} {g : ℤ} {s : Cell} (hs : s.timers (some g) ≠ none) :
    wp (cancelTimer p none) env s fun o s' =>
      (o = .done ⟨⟩ ↔ (env.fault p (.timerStop none)).returns = true ∧
        (env.fault p (.timerReset none)).returns = true) ∧
      (o = .done ⟨⟩ → s'.timers (some g) ≠ none) := by
  refine wp_mono (wp_cancelTimer p none s) fun o s' h => ⟨h.2, fun _ => ?_⟩
  rw [h.1]
  cases (env.fault p (.timerStop none)).takesEffect
  · exact hs
  · rw [tookEffect, if_pos rfl, Cell.dropTimer_of_ne (by simp)]
    exact hs

theorem thenPost_cut {α β : Type} {f : α → Helper β} {o : Outcome Exc α} {c : Cell}
    {Q : Outcome Exc β → Cell → Prop} (ho : ∀ a, o ≠ .done a)
    (hQ : ∀ o, (∀ b, o ≠ .done b) → Q o c) : thenPost f env Q o c := by
  rcases o with a | e | _
  · exact absurd rfl (ho a)
  · exact hQ _ (by simp)
  · exact hQ _ (by simp)

theorem Fault.ne_none_of_cut {f : Fault} (h : f.returns = false) : f ≠ .none := by
  rintro rfl
  cases h

/-- `schedule_timer` succeeds exactly when the environment lets it, and then a
unit of the generation is active. -/
theorem scheduleTimer_done (p : Phase) (g : ℤ) (t : Time) (s : Cell) :
    wp (scheduleTimer p g t) env s fun o s' =>
      (o = .done ⟨⟩ ↔ env.schedules p g t s = true) ∧
      (o = .done ⟨⟩ → s'.timers (some g) ≠ none) := by
  have hfail (hnot : env.schedules p g t s = false) (o : Outcome Exc PUnit) (c : Cell)
      (ho : ∀ b, o ≠ .done b) : (o = .done ⟨⟩ ↔ env.schedules p g t s = true) ∧
        (o = .done ⟨⟩ → c.timers (some g) ≠ none) := by
    simp [hnot, ho ⟨⟩]
  -- a unit is not found active: it has to be installed and found active afterwards
  have hinstall (hahead : env.clock .schedule < t)
      (hprobe : (env.fault p .timerProbe).returns = true)
      (hfound : (s.timers (some g)).isSome = true → env.fault p .timerProbe ≠ .none) :
      wp (do
        let started ← command p .timerInstall (Cell.installTimer g (calendarSecond t))
          fun s => (s.timers (some g)).isNone
        if started then do
          if ← command p .timerReprobe id fun s => (s.timers (some g)).isSome then
            cancelTimer p none
          else raise (.helperError "expiry timer was not activated")
        else raise (.helperError "command failed: systemd-run")) env s fun o s' =>
        (o = .done ⟨⟩ ↔ env.schedules p g t s = true) ∧
        (o = .done ⟨⟩ → s'.timers (some g) ≠ none) := by
    rw [wp_bind]
    cases hactive : s.timers (some g) with
    | some c =>
        have hnot : env.schedules p g t s = false := by
          simp [Env.schedules, hactive, hfound (by simp [hactive])]
        refine wp_command (fun _ => ?_) (fun _ _ => ?_) fun _ o ho =>
          thenPost_cut ho fun o ho => hfail hnot o _ ho
        · simp only [thenPost_done, hactive, Option.isNone_some, Bool.false_eq_true, if_false,
            wp_raise]
          exact hfail hnot _ _ (by simp)
        · simp only [thenPost_done, Bool.false_eq_true, if_false, wp_raise]
          exact hfail hnot _ _ (by simp)
    | none =>
        refine wp_command (fun h₂ => ?_) (fun _ h₂ => ?_) fun h₂ o ho =>
          thenPost_cut ho fun o ho => hfail ?_ o _ ho
        · simp only [thenPost_done, hactive, Option.isNone_none, if_true]
          rw [wp_bind]
          refine wp_command (fun h₃ => ?_) (fun _ h₃ => ?_) fun h₃ o ho =>
            thenPost_cut ho fun o ho => hfail ?_ o _ ho
          · simp only [thenPost_done, id, Cell.installTimer_self, Option.isSome_some, if_true]
            refine wp_mono (cancelGenerationless (by simp)) fun o s' h => ⟨h.1.trans ?_, h.2⟩
            simp [Env.schedules, hactive, hahead, hprobe, h₂, h₃]
          · simp only [thenPost_done, Bool.false_eq_true, if_false, wp_raise]
            exact hfail (by simp [Env.schedules, hactive, h₃]) _ _ (by simp)
          · simp [Env.schedules, hactive, Fault.ne_none_of_cut h₃]
        · simp only [thenPost_done, Bool.false_eq_true, if_false, wp_raise]
          exact hfail (by simp [Env.schedules, hactive, h₂]) _ _ (by simp)
        · simp [Env.schedules, hactive, Fault.ne_none_of_cut h₂]
  unfold scheduleTimer timerIsActive
  rw [wp_bind, wp_read, thenPost_done, wp_ite]
  refine ⟨fun hlate => ?_, fun hahead => ?_⟩
  · rw [wp_raise]
    exact hfail (by simp [Env.schedules, Int.not_lt.mpr hlate]) _ _ (by simp)
  rw [Int.not_le] at hahead
  rw [wp_bind]
  refine wp_command (fun h₁ => ?_) (fun took h₁ => ?_) fun h₁ o ho =>
    thenPost_cut ho fun o ho => hfail ?_ o _ ho
  · cases hactive : s.timers (some g) with
    | none =>
        simp only [thenPost_done, Option.isSome_none, Bool.false_eq_true, if_false]
        exact hinstall hahead (by simp [h₁, Fault.returns]) (by simp [hactive])
    | some c =>
        simp only [thenPost_done, Option.isSome_some, if_true]
        refine wp_mono (cancelGenerationless (by simp [hactive])) fun o s' h =>
          ⟨h.1.trans ?_, h.2⟩
        simp [Env.schedules, hactive, hahead, h₁]
  · simp only [thenPost_done, tookEffect_id, Bool.false_eq_true, if_false]
    exact hinstall hahead (by simp [h₁, Fault.returns]) (by simp [h₁])
  · simp [Env.schedules, h₁, Fault.ne_none_of_cut h₁]

/-! ## The guard -/

/-- The generation recorded in a readable state file. -/
def Cell.recorded (identifier : Uuid) (s : Cell) : Option ℤ :=
  match s.stateFile with
  | .document st => if st.instanceId = identifier then stateGeneration (some st) none else none
  | _ => none

/-- A container has an active timer of the generation its state file records. -/
def Cell.Guarded (identifier : Uuid) (s : Cell) : Prop :=
  s.container ≠ none →
    ∃ g, Cell.recorded identifier s = some g ∧ s.timers (some g) ≠ none

theorem Cell.recorded_congr {identifier : Uuid} {s s' : Cell} (h : s'.stateFile = s.stateFile) :
    Cell.recorded identifier s' = Cell.recorded identifier s := by
  rw [Cell.recorded, Cell.recorded, h]

theorem stateGeneration_valid {st : InstanceState} {g : ℤ} (hg : st.generation = .int g)
    (hpos : 0 < g) (inspection : Option Container) :
    stateGeneration (some st) inspection = some g := by
  simp [stateGeneration, hg, hpos]

/-- Without a container the generation is the one of the state, a positive
integer. -/
theorem stateGeneration_none {st : InstanceState} {g : ℤ} :
    stateGeneration (some st) none = some g ↔ st.generation = .int g ∧ 0 < g := by
  constructor
  · intro h
    unfold stateGeneration at h
    simp only [Option.map_some] at h
    split at h
    · rename_i n hn
      split at h
      · rename_i hpos
        cases h
        exact ⟨Option.some.inj hn, hpos⟩
      · cases h
    · cases h
  · rintro ⟨hg, hpos⟩
    exact stateGeneration_valid hg hpos none

/-- A state without a generation leaves it to the label. -/
theorem stateGeneration_label {st : InstanceState} (h : stateGeneration (some st) none = none)
    (inspection : Option Container) :
    stateGeneration (some st) inspection = stateGeneration.labelGeneration inspection := by
  unfold stateGeneration at h ⊢
  simp only [Option.map_some] at h ⊢
  split
  · rename_i n hn
    rw [hn] at h
    dsimp only at h
    split
    · rename_i hpos
      rw [if_pos hpos] at h
      cases h
    · rfl
  · rfl

/-- A generation recorded in the state file is the effective generation,
whatever the labels say. -/
theorem Cell.recorded_eq_some {identifier : Uuid} {s : Cell} {g : ℤ}
    (h : Cell.recorded identifier s = some g) :
    ∃ st, s.stateFile = .document st ∧ st.instanceId = identifier ∧ st.generation = .int g ∧
      0 < g := by
  unfold Cell.recorded at h
  split at h
  · rename_i st hst
    split at h
    · rename_i hid
      exact ⟨st, hst, hid, stateGeneration_none.mp h⟩
    · cases h
  · cases h

theorem Cell.recorded_document {identifier : Uuid} {s : Cell} {st : InstanceState} {g : ℤ}
    (hfile : s.stateFile = .document st) (hid : st.instanceId = identifier)
    (hg : st.generation = .int g) (hpos : 0 < g) : Cell.recorded identifier s = some g := by
  simp [Cell.recorded, hfile, hid, stateGeneration, hg, hpos]

/-- A removal that fails keeps the guard, and a removal that succeeds needs
none. -/
theorem removeIrrecoverable_guarded {identifier : Uuid} {p : Phase} {container : Container}
    {s : Cell} (hs : Cell.Guarded identifier s) :
    wp (removeIrrecoverable p identifier container) env s fun _ s' =>
      Cell.Guarded identifier s' := by
  have hfence : Preserves (writeTombstone p identifier
      ((stateGeneration none (some container)).getD 1)) env (Cell.Guarded identifier) :=
    preserves_writeTombstone fun _ _ _ h _ => h
  have hremove : Preserves (removeWorkloadVerified p) env (Cell.Guarded identifier) := by
    refine preserves_removeWorkloadVerified (fun _ _ h => absurd rfl h) fun c hc => ?_
    unfold Cell.dropNetwork
    split <;> exact hc
  unfold removeIrrecoverable
  rw [wp_bind]
  refine wp_mono (hfence s hs) fun o s₁ h₁ => ?_
  rcases o with _ | e | _
  · rw [thenPost_done, wp_bind]
    refine wp_mono (wp_and (hremove s₁ h₁) (removeWorkloadVerified_done p env s₁))
      fun o s₂ h₂ => ?_
    rcases o with _ | e | _
    · -- the timers are dropped only once the container is gone
      rw [thenPost_done]
      have hrest : Preserves (do
          cancelTimer p (some ((stateGeneration none (some container)).getD 1))
          cancelTimer p none
          removeState p) env (fun c => c.container = none) :=
        ((removed_kept identifier env).cancelTimer p _).bind fun _ =>
          ((removed_kept identifier env).cancelTimer p none).bind fun _ =>
          (removed_kept identifier env).removeState p
      exact wp_mono (hrest s₂ (h₂.2 rfl)) fun _ c hc h => absurd hc h
    · exact h₂.1
    · exact h₂.1
  · exact h₁
  · exact h₁

/-- The switch of the state file to a newer generation `g` whose timer is
active. -/
theorem wp_switchDeadline {previous g : ℤ} (hne : g ≠ previous) (st : InstanceState) (s : Cell) :
    wp (switchDeadline previous g st) env s fun _ s' =>
      s'.container = s.container ∧
      (env.tears .request .state = true → s'.stateFile = .document st ∧
        s'.timers (some g) = if (env.fault .recovery (.timerStop (some g))).takesEffect then none
          else s.timers (some g)) ∧
      (env.tears .request .state = false →
        s'.stateFile = s.stateFile ∧ s'.timers (some previous) = s.timers (some previous) ∨
        s'.stateFile = .document st ∧ s'.timers (some g) = s.timers (some g)) := by
  unfold switchDeadline andReraise
  rw [wp_bind, wp_attempt]
  refine wp_mono (wp_replaceFile .request .state _ s) fun o s₁ h₁ => ?_
  rcases o with _ | e | _
  · -- the old timer is stopped behind the new state
    obtain ⟨rfl, htears⟩ := h₁
    rw [exceptPost_done, thenPost_done]
    have hstop : cancelOther .request (some g) (some previous) =
        cancelTimer .request (some previous) := if_pos (by simpa using hne.symm)
    rw [hstop]
    refine wp_mono (wp_cancelTimer .request (some previous) _) fun o s₂ h₂ => ?_
    rw [h₂.1, htears]
    cases (env.fault .request (.timerStop (some previous))).takesEffect with
    | false => exact ⟨rfl, by simp, fun _ => .inr ⟨rfl, rfl⟩⟩
    | true =>
        refine ⟨rfl, by simp, fun _ => .inr ⟨rfl, ?_⟩⟩
        exact Cell.dropTimer_of_ne (by simpa using hne) _
  · -- the handler stops the new timer, whichever state is on disk
    rw [exceptPost_raised, if_pos hne, wp_bind]
    refine wp_mono (wp_cancelTimer .recovery (some g) s₁) fun o s₂ h₂ => ?_
    have hpost : s₂.container = s.container ∧
        (env.tears .request .state = true → s₂.stateFile = .document st ∧
          s₂.timers (some g) = if (env.fault .recovery (.timerStop (some g))).takesEffect
            then none else s.timers (some g)) ∧
        (env.tears .request .state = false →
          s₂.stateFile = s.stateFile ∧ s₂.timers (some previous) = s.timers (some previous) ∨
          s₂.stateFile = .document st ∧ s₂.timers (some g) = s.timers (some g)) := by
      obtain ⟨rfl, -⟩ := h₂
      subst h₁
      have hprevious (c : Cell) :
          (Cell.dropTimer (some g) c).timers (some previous) = c.timers (some previous) :=
        Cell.dropTimer_of_ne (by simpa using hne.symm) c
      cases env.tears .request .state <;>
        cases (env.fault .recovery (.timerStop (some g))).takesEffect <;>
        simp [tookEffect, hprevious]
    rcases o with _ | e' | _
    · exact hpost
    · exact hpost
    · exact hpost
  · obtain ⟨hs₁, htears⟩ := h₁
    rw [exceptPost_halted, thenPost_halted, htears]
    rcases hs₁ with rfl | rfl
    · exact ⟨rfl, by simp, fun _ => .inl ⟨rfl, rfl⟩⟩
    · exact ⟨rfl, by simp, fun _ => .inr ⟨rfl, rfl⟩⟩

/-- The switch at an unchanged generation leaves the timers alone. -/
theorem wp_switchDeadline_same (g : ℤ) (st : InstanceState) (s : Cell) :
    wp (switchDeadline g g st) env s fun _ s' =>
      s'.container = s.container ∧ s'.timers = s.timers ∧
      (s'.stateFile = s.stateFile ∨ s'.stateFile = .document st) := by
  have hkeeps : Preserves (switchDeadline g g st) env fun c => c.container = s.container ∧
      c.timers = s.timers ∧ (c.stateFile = s.stateFile ∨ c.stateFile = .document st) := by
    refine Preserves.bind (preserves_andReraise (preserves_replaceFile fun c hc => ?_) ?_) fun _ => ?_
    · exact ⟨hc.1, hc.2.1, .inr rfl⟩
    · exact .ite (fun h => absurd rfl h) fun _ => preserves_pure _
    · exact preserves_cancelOther fun c g' hne hg => absurd hg.symm hne
  exact hkeeps s ⟨rfl, rfl, .inl rfl⟩

/-! ## Extending a deadline -/

/-- An extension to a newer generation that is accepted and whose timer is
scheduled, where `write_state` raises after the new state file is in place and
the handler then stops the new timer. -/
def TornExtension (identifier : Uuid) (env : Env) (request : Request) (s : Cell) : Prop :=
  ∃ previous g t, Cell.recorded identifier s = some previous ∧
    request.generation = .int g ∧ previous < g ∧ request.expiresAt = .instant t ∧
    env.fault .request .readTombstone = .none ∧ s.tombstoneFile = .missing ∧
    env.fault .request .inspect = .none ∧ env.fault .request .readState = .none ∧
    env.clock .check < t ∧ env.schedules .request g t s = true ∧
    env.tears .request .state = true ∧
    (env.fault .recovery (.timerStop (some g))).takesEffect = true

/-- Where an extension is not torn, it keeps the guard. -/
theorem updateDeadline_guarded_or_torn {identifier : Uuid} {request : Request} {s : Cell}
    (hs : Cell.Guarded identifier s) :
    wp (updateDeadline identifier request) env s fun _ s' =>
      Cell.Guarded identifier s' ∨ TornExtension identifier env request s := by
  unfold updateDeadline
  refine (yields_generation request).wp_bind (fun g hg => ?_) fun _ _ => .inl hs
  refine (yields_parseDeadline _).wp_bind (fun t ht => ?_) fun _ _ => .inl hs
  refine yields_readTombstone.wp_bind (fun fenced hfenced => ?_) fun _ _ => .inl hs
  cases fenced with
  | some n => exact yields_inspectRaw.wp_bind (fun _ _ => .inl hs) fun _ _ => .inl hs
  | none =>
      obtain ⟨hmissing, htombstone⟩ := hfenced.2 rfl
      refine yields_inspectRaw.wp_bind (fun inspection hinspection => ?_) fun _ _ => .inl hs
      refine yields_readStateOrNone.wp_bind (fun state hstate => ?_) fun _ _ => .inl hs
      rcases inspection with _ | container
      · exact .inl hs
      rcases state with _ | st
      · dsimp only
        rw [wp_bind]
        refine wp_mono (removeIrrecoverable_guarded hs) fun o s' h => ?_
        cases o <;> exact .inl h
      · obtain ⟨hfile, hid, hread⟩ := hstate st rfl
        have hcontainer : s.container ≠ none := by
          rw [← hinspection.1]
          simp
        obtain ⟨previous, hrecorded, htimer⟩ := hs hcontainer
        obtain ⟨st', hfile', -, hgeneration, hpos⟩ := Cell.recorded_eq_some hrecorded
        cases hfile.symm.trans hfile'
        dsimp only
        rw [stateGeneration_valid hgeneration hpos]
        dsimp only
        rw [wp_ite]
        refine ⟨fun _ => .inl hs, fun hnewer => ?_⟩
        rw [wp_bind, wp_read, thenPost_done, wp_ite]
        refine ⟨fun _ => .inl hs, fun hahead => ?_⟩
        rw [wp_bind]
        refine wp_mono (wp_and (scheduleTimer_changes .request g t s)
          (scheduleTimer_done .request g t s)) fun o s₁ h₁ => ?_
        obtain ⟨hchanges, hdone, hactive⟩ := h₁
        -- the old timer is in place until the switch is over
        have hold : s₁.timers (some previous) ≠ none := by
          by_cases heq : previous = g
          · subst heq
            rcases hchanges.own with h | ⟨h, -⟩
            · rwa [h]
            · exact absurd h htimer
          · rw [hchanges.others _ (by simpa using heq) (by simp)]
            exact htimer
        have hguarded : Cell.Guarded identifier s₁ := fun _ =>
          ⟨previous, (Cell.recorded_congr hchanges.stateFile).trans hrecorded, hold⟩
        rcases o with _ | e | _
        · rw [thenPost_done, wp_bind]
          have hswitch : wp (switchDeadline previous g
              { st with generation := .int g, expiresAt := .instant t }) env s₁ fun _ s' =>
              Cell.Guarded identifier s' ∨ TornExtension identifier env request s := by
            by_cases heq : g = previous
            · subst heq
              refine wp_mono (wp_switchDeadline_same g _ s₁) fun o s₂ h₂ => .inl fun _ => ?_
              obtain ⟨-, htimers, hfile₂ | hfile₂⟩ := h₂
              · exact ⟨g, (Cell.recorded_congr (hfile₂.trans hchanges.stateFile)).trans hrecorded,
                  htimers ▸ hold⟩
              · exact ⟨g, Cell.recorded_document hfile₂ hid rfl hpos, htimers ▸ hold⟩
            refine wp_mono (wp_switchDeadline heq _ s₁) fun o s₂ h₂ => ?_
            obtain ⟨-, htorn, hwhole⟩ := h₂
            cases htears : env.tears .request .state with
            | true =>
                obtain ⟨hfile₂, htimer₂⟩ := htorn htears
                cases heffect : (env.fault .recovery (.timerStop (some g))).takesEffect with
                | true =>
                    exact .inr ⟨previous, g, t, hrecorded, hg.1, by omega, ht, htombstone,
                      hmissing, hinspection.2, hread, Int.not_le.mp hahead, hdone.mp rfl, htears,
                      heffect⟩
                | false =>
                    rw [heffect] at htimer₂
                    exact .inl fun _ => ⟨g, Cell.recorded_document hfile₂ hid rfl hg.2,
                      htimer₂ ▸ hactive rfl⟩
            | false =>
                rcases hwhole htears with ⟨hfile₂, htimer₂⟩ | ⟨hfile₂, htimer₂⟩
                · exact .inl fun _ => ⟨previous,
                    (Cell.recorded_congr (hfile₂.trans hchanges.stateFile)).trans hrecorded,
                    htimer₂ ▸ hold⟩
                · exact .inl fun _ => ⟨g, Cell.recorded_document hfile₂ hid rfl hg.2,
                    htimer₂ ▸ hactive rfl⟩
          refine wp_mono hswitch fun o s₂ h₂ => ?_
          cases o <;> exact h₂
        · exact .inl hguarded
        · exact .inl hguarded

theorem readTombstone_missing {p : Phase} {st : Step} (identifier : Uuid) {s : Cell}
    (hfault : env.fault p st = .none) (hmissing : s.tombstoneFile = .missing) :
    Returns (readTombstone p st identifier) env s none s := by
  refine returns_bind.mpr ⟨none, s, ?_, returns_pure.mpr ⟨rfl, rfl⟩⟩
  simp [Returns, readJson, hfault, hmissing]

theorem readStateOrNone_readable {p : Phase} {identifier : Uuid} {s : Cell} {st : InstanceState}
    (hfault : env.fault p .readState = .none) (hfile : s.stateFile = .document st)
    (hid : st.instanceId = identifier) :
    Returns (readStateOrNone p identifier) env s (some st) s := by
  refine returns_attempt.mpr (.inl (returns_bind.mpr ⟨some st, s, ?_, ?_⟩))
  · simp [Returns, readJson, hfault, hfile]
  · simp [hid]

/-- A torn extension leaves the new generation recorded and no timer of it. -/
theorem updateDeadline_torn {identifier : Uuid} {request : Request} {s : Cell}
    (hcontainer : s.container ≠ none) (htorn : TornExtension identifier env request s) :
    wp (updateDeadline identifier request) env s fun _ s' =>
      ¬ Cell.Guarded identifier s' := by
  obtain ⟨previous, g, t, hrecorded, hg, hnewer, ht, htombstone, hmissing, hinspect, hread, hcheck,
    hschedules, htears, heffect⟩ := htorn
  obtain ⟨st, hfile, hid, hgeneration, hprevious⟩ := Cell.recorded_eq_some hrecorded
  obtain ⟨container, hsome⟩ := Option.ne_none_iff_exists'.mp hcontainer
  have hpos : 0 < g := Int.lt_trans hprevious hnewer
  have h₁ : Returns (generation request) env s g s := by
    simp [generation, hg, hpos]
  have h₂ : Returns (parseDeadline request.expiresAt) env s t s := by
    simp [parseDeadline, ht]
  have h₃ := readTombstone_missing identifier htombstone hmissing
  have h₄ : Returns (inspectRaw .request .inspect) env s (some container) s := by
    simp [Returns, inspectRaw, query, hinspect, hsome]
  have h₅ := readStateOrNone_readable hread hfile hid
  obtain ⟨s₁, h₆⟩ : ∃ s₁, Returns (scheduleTimer .request g t) env s ⟨⟩ s₁ :=
    ⟨_, Prod.ext ((scheduleTimer_done .request g t s).1.mpr hschedules) rfl⟩
  have hchanges : Cell.Scheduled g t s s₁ := h₆.of_wp (scheduleTimer_changes .request g t s)
  unfold updateDeadline
  refine h₁.wp_bind (h₂.wp_bind (h₃.wp_bind (h₄.wp_bind (h₅.wp_bind ?_))))
  dsimp only
  rw [stateGeneration_valid hgeneration hprevious]
  dsimp only
  rw [if_neg (by omega), wp_bind, wp_read, thenPost_done, if_neg (Int.not_le.mpr hcheck)]
  refine h₆.wp_bind ?_
  rw [wp_bind]
  refine wp_mono (wp_switchDeadline (by omega) _ s₁) fun o s₂ h => ?_
  obtain ⟨hcontainer₂, htorn₂, -⟩ := h
  obtain ⟨hfile₂, htimer₂⟩ := htorn₂ htears
  rw [heffect] at htimer₂
  have hunguarded : ¬ Cell.Guarded identifier s₂ := by
    intro h
    obtain ⟨g', hg', htimer'⟩ := h (by rw [hcontainer₂, hchanges.container]; exact hcontainer)
    rw [Cell.recorded_document hfile₂ hid rfl hpos] at hg'
    cases hg'
    exact htimer' htimer₂
  cases o <;> exact hunguarded

/-- **When an extension keeps the expiry guard.**  A container whose state file
records a generation with an active timer is still such a container after
`update_deadline`, however that ends, exactly when the extension is not torn. -/
theorem updateDeadline_keeps_guard (identifier : Uuid) (env : Env) (request : Request)
    (s : Cell) (hcontainer : s.container ≠ none) (hguarded : Cell.Guarded identifier s) :
    Cell.Guarded identifier (updateDeadline identifier request env s).2 ↔
      ¬ TornExtension identifier env request s := by
  constructor
  · exact fun h htorn => updateDeadline_torn hcontainer htorn h
  · intro h
    have hor : Cell.Guarded identifier (updateDeadline identifier request env s).2 ∨
        TornExtension identifier env request s := updateDeadline_guarded_or_torn hguarded
    exact hor.resolve_right h

/-- A deployment without a health command. -/
def plainDeployment : Deployment where
  containerPort := 80
  protocol := "http"
  healthCommand := none
  startupTimeoutSeconds := none

/-- A running container of instance 1 at generation 1 with a deadline at 100
seconds and its timer. -/
def armed : Cell where
  container := some ⟨some 1, some 1, ⟨"c", ⟨some .running, true, none⟩, none, ⟨none, none⟩⟩⟩
  network := true
  stateFile := .document ⟨1, .int 1, .instant (seconds 100), some plainDeployment, .null⟩
  tombstoneFile := .missing
  timers := fun u => if u = some 1 then some 100 else none

theorem armed_guarded : Cell.Guarded 1 armed := fun _ => ⟨1, rfl, by decide⟩

/-- A request of generation `g` for a deadline at `n` seconds. -/
def requestOf (g n : ℤ) : Request where
  generation := .int g
  expiresAt := .instant (seconds n)
  deployment := some plainDeployment
  flagValue := none

/-- An extension in good order keeps the guard. -/
theorem updateDeadline_keeps_guard_armed :
    Cell.Guarded 1 (updateDeadline 1 (requestOf 2 200) (faultAt .request .inspect .none) armed).2 ↔
      ¬ TornExtension 1 (faultAt .request .inspect .none) (requestOf 2 200) armed :=
  updateDeadline_keeps_guard 1 _ (requestOf 2 200) armed (by simp [armed]) armed_guarded

/-- The guard is lost when syncing the directory fails after the renaming: the
state file records generation 2, whose timer the handler has stopped. -/
theorem updateDeadline_loses_guard :
    ¬ ∀ (identifier : Uuid) (env : Env) (request : Request) (s : Cell),
      s.container ≠ none → Cell.Guarded identifier s →
      (updateDeadline identifier request env s).1 ≠ .halted →
      Cell.Guarded identifier (updateDeadline identifier request env s).2 := by
  intro h
  have houtcome : (updateDeadline 1 (requestOf 2 200)
      (faultAt .request (.syncDirectory .state) (.osError false)) armed).1 =
      .raised .osError := rfl
  have hcontainer : (updateDeadline 1 (requestOf 2 200)
      (faultAt .request (.syncDirectory .state) (.osError false)) armed).2.container ≠ none :=
    nofun
  have hrecorded : Cell.recorded 1 (updateDeadline 1 (requestOf 2 200)
      (faultAt .request (.syncDirectory .state) (.osError false)) armed).2 = some 2 := rfl
  have htimer : (updateDeadline 1 (requestOf 2 200)
      (faultAt .request (.syncDirectory .state) (.osError false)) armed).2.timers (some 2) =
      none := rfl
  obtain ⟨g, hg, hactive⟩ := h 1 _ (requestOf 2 200) armed (by simp [armed]) armed_guarded
    (by rw [houtcome]; simp) hcontainer
  rw [hrecorded] at hg
  cases hg
  exact hactive htimer

end Helper

end CtfZone
