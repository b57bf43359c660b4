/-
# The helper when nothing fails

What the functions of the helper return, and what they leave behind, in an
environment in which every call succeeds.

* `calm_*` : one lemma for each function, from the external steps upwards;
* `returns_*` : what a function that has returned has left behind, whatever the
  environment was.
-/
import CtfZone.HelperDeadline
import CtfZone.HelperReplies

open Effects Effects.Prog

namespace CtfZone.Helper

variable {identifier : Uuid} {env : Env} {s s' : Cell} {p : Phase} {g : ℤ}

/-- Every call succeeds. -/
def Calm (env : Env) : Prop := ∀ p st, env.fault p st = .none

/-! ## External steps -/

theorem calm_fileCall (hcalm : Calm env) (st : Step) (effect : Cell → Cell) :
    Returns (fileCall p st effect) env s ⟨⟩ (effect s) := by
  simp [Returns, fileCall, hcalm p st]

/-- A file call and what follows it. -/
theorem calm_fileCall_bind {α : Type} (hcalm : Calm env) {st : Step} {effect : Cell → Cell}
    {f : PUnit → Helper α} {a : α} (hrest : Returns (f ⟨⟩) env (effect s) a s') :
    Returns (fileCall p st effect >>= f) env s a s' :=
  returns_bind.mpr ⟨⟨⟩, effect s, calm_fileCall hcalm st effect, hrest⟩

/-! ## Files -/

theorem calm_replaceFile (hcalm : Calm env) (file : FileKind) (install : Cell → Cell) :
    Returns (replaceFile p file install) env s ⟨⟩ (install s) :=
  calm_fileCall_bind hcalm (calm_fileCall_bind hcalm (Returns.always
    (calm_fileCall_bind hcalm (calm_fileCall_bind hcalm (calm_fileCall_bind hcalm
      (calm_fileCall_bind hcalm (calm_fileCall hcalm _ _)))))
    (calm_fileCall hcalm _ _)))

theorem calm_readTombstone (hcalm : Calm env) (st : Step) {n : ℤ}
    (h : Cell.tombstoneGeneration identifier s = some n) :
    Returns (readTombstone p st identifier) env s (some n) s := by
  obtain ⟨t, ht, hn⟩ := Cell.tombstoneGeneration_eq_some.mp h
  refine returns_bind.mpr ⟨some t, s, ?_, ?_⟩
  · simp [Returns, readJson, hcalm p st, ht]
  · dsimp only
    rw [hn]
    exact returns_pure.mpr ⟨rfl, rfl⟩

/-- A tombstone that can be read is raised to the maximum. -/
theorem calm_writeTombstone (hcalm : Calm env) (hpos : 0 < g)
    (hread : s.tombstoneFile = .missing ∨ ∃ n, Cell.tombstoneGeneration identifier s = some n) :
    Returns (writeTombstone p identifier g) env s ⟨⟩
      (Cell.fence identifier (max g ((Cell.tombstoneGeneration identifier s).getD 0)) s) := by
  have hexisting : Returns (onHelperError (readTombstone p .readExisting identifier) (pure none))
      env s (Cell.tombstoneGeneration identifier s) s := by
    refine returns_attempt.mpr (.inl ?_)
    rcases hread with hmissing | ⟨n, hn⟩
    · have hnone : Cell.tombstoneGeneration identifier s = none := by
        rw [Cell.tombstoneGeneration, hmissing]
      rw [hnone]
      exact readTombstone_missing identifier (hcalm p _) hmissing
    · rw [hn]
      exact calm_readTombstone hcalm _ hn
  unfold writeTombstone
  rw [if_neg (by omega)]
  exact returns_bind.mpr ⟨_, s, hexisting, calm_replaceFile hcalm .tombstone _⟩

/-! ## Timers and removals -/

/-- A readable state file is read, or the helper is killed over it. -/
theorem yields_readable {st : InstanceState} (hfile : s.stateFile = .document st)
    (hid : st.instanceId = identifier) (hread : (env.fault p .readState).refuses = false) :
    Yields (readStateOrNone p identifier) env (· = s) fun state => state = some st := by
  rintro s rfl
  by_cases hfault : env.fault p .readState = .none
  · refine (readStateOrNone_readable hfault hfile hid).wp ⟨rfl, fun a ha => ?_⟩
    cases ha
    rfl
  · -- the only other fault that does not refuse the file is a kill
    obtain ⟨took, hkill⟩ : ∃ took, env.fault p .readState = .kill took := by
      rcases hf : env.fault p .readState with _ | t | t | t | t
      · exact absurd hf hfault
      · rw [hf] at hread; cases hread
      · rw [hf] at hread; cases hread
      · rw [hf] at hread; cases hread
      · exact ⟨t, rfl⟩
    have hhalt : readStateOrNone p identifier env s = (.halted, s) := by
      change Prog.attempt (Prog.bind (readJson p .readState _ _ _) _) _ env s = _
      simp [Prog.attempt, Prog.bind, readJson, hkill]
    unfold wp
    rw [hhalt]
    exact ⟨rfl, fun a ha => by cases ha⟩

/-- The generation an irrecoverable instance is fenced at. -/
def blockedGeneration (c : Container) : ℤ := (stateGeneration none (some c)).getD 1

/-- What is left of an irrecoverable instance: a tombstone. -/
structure Cell.Fence (identifier : Uuid) (n : ℤ) (s : Cell) : Prop where
  container : s.container = none
  network : s.network = false
  stateFile : s.stateFile = .missing
  tombstoneFile : s.tombstoneFile = .document ⟨identifier, .int n, .bool true⟩
  positive : 0 < n

theorem Cell.Fence.generation {n : ℤ} (h : Cell.Fence identifier n s) :
    Cell.tombstoneGeneration identifier s = some n := by
  rw [Cell.tombstoneGeneration, h.tombstoneFile]
  exact validGeneration_fence identifier h.positive

/-- What an inspection reports of a container and its state. -/
def report (hostname : Option String) (c : Container) (st : InstanceState)
    (deployment : Deployment) : Reply where
  containerId := some c.view.id
  remoteIp := c.view.remoteIp
  containerPort := some deployment.containerPort
  publishedIp := c.view.binding.hostIp
  publishedPort := c.view.binding.hostPort
  protocol := some deployment.protocol
  publicHostname := hostname
  endpointUrl := endpointUrl deployment.protocol hostname c.view.binding.hostIp
    c.view.binding.hostPort
  effectiveExpiresAt := st.expiresAt
  effectiveGeneration := stateGeneration (some st) (some c)
  absent := some false
  ready := some (c.view.runtime.running &&
    (! deployment.expectsHealth || c.view.runtime.health = some .healthy))
  runtimeStatus := c.view.runtime.status
  healthStatus := c.view.runtime.health

/-- The container and its state can be reported. -/
structure Cell.Reports (identifier : Uuid) (c : Container) (st : InstanceState)
    (deployment : Deployment) (s : Cell) : Prop where
  container : s.container = some c
  label : c.instanceLabel = some identifier
  stateFile : s.stateFile = .document st
  own : st.instanceId = identifier
  deployment : st.deployment = some deployment

/-- The container runs, and is healthy where it has to be. -/
def Runtime.started (runtime : Runtime) (deployment : Deployment) : Prop :=
  runtime.running = true ∧ (¬ deployment.expectsHealth ∨ runtime.health = some .healthy)

end CtfZone.Helper
