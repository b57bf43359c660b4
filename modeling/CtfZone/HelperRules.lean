/-
# Invariants of the helper's operations

One lemma for each function of the helper about what it can do to an invariant
of the host.  `Kept` lists the elementary changes an operation can make to a
cell, short of creating a container; an invariant that survives these survives
every operation but `ensure_instance`, and one that also survives the creation
(`Creates`) survives that too.
-/
import CtfZone.HelperOperations

open Effects Effects.Prog

namespace CtfZone.Helper

variable {P : Cell → Prop} {env : Env}

/-! ## External steps -/

theorem preserves_command {p : Phase} {st : Step} {effect : Cell → Cell}
    {success : Cell → Bool} (h : ∀ s, P s → P (effect s)) :
    Preserves (command p st effect success) env P := by
  intro s hs
  refine wp_mono (command_spec p st effect success env s) fun o s' ho => ?_
  rcases ho.1 with rfl | rfl
  · exact hs
  · exact h s hs

theorem preserves_query {α : Type} {p : Phase} {st : Step} {f : Cell → α}
    {message : String} : Preserves (query p st f message) env P := by
  intro s hs
  refine wp_mono (query_spec p st f message env s) fun o s' ho => ?_
  rw [ho.1]
  exact hs

theorem preserves_fileCall {p : Phase} {st : Step} {effect : Cell → Cell}
    (h : ∀ s, P s → P (effect s)) : Preserves (fileCall p st effect) env P := by
  intro s hs
  refine wp_mono (fileCall_spec p st effect env s) fun o s' ho => ?_
  rcases ho.1 with rfl | rfl
  · exact hs
  · exact h s hs

theorem preserves_readJson {α : Type} {p : Phase} {st : Step} {file : Cell → File α}
    {unreadable corrupt : String} :
    Preserves (readJson p st file unreadable corrupt) env P := by
  intro s hs
  refine wp_mono (readJson_spec p st file unreadable corrupt env s) fun o s' ho => ?_
  rw [ho.1]
  exact hs

theorem preserves_onHelperError {α : Type} {m handler : Helper α}
    (hm : Preserves m env P) (hh : Preserves handler env P) :
    Preserves (onHelperError m handler) env P := by
  refine hm.attempt fun e => ?_
  cases e with
  | helperError _ => exact hh
  | osError => exact preserves_raise _
  | timeoutExpired => exact preserves_raise _
  | other => exact preserves_raise _

theorem preserves_andReraise {α : Type} {m : Helper α} {handler : Helper PUnit}
    (hm : Preserves m env P) (hh : Preserves handler env P) :
    Preserves (andReraise m handler) env P :=
  hm.attempt fun _ => hh.bind fun _ => preserves_raise _

/-- What a handler that raises again returns, its body returns. -/
theorem returns_andReraise {α : Type} {m : Helper α} {handler : Helper PUnit} {s s' : Cell}
    {a : α} : Returns (andReraise m handler) env s a s' ↔ Returns m env s a s' := by
  unfold andReraise
  rw [returns_attempt]
  refine ⟨fun h => h.resolve_right ?_, .inl⟩
  rintro ⟨e, t, -, h⟩
  simp [returns_bind] at h

/-! ## Functions that only look -/

theorem preserves_inspectRaw {p : Phase} {st : Step} :
    Preserves (inspectRaw p st) env P := preserves_query

theorem preserves_networkExists {p : Phase} {st : Step} :
    Preserves (networkExists p st) env P := preserves_query

theorem preserves_generation (request : Request) :
    Preserves (generation request) env P := by
  unfold generation
  split
  · exact .ite (fun _ => preserves_pure _) fun _ => preserves_raise _
  · exact preserves_raise _

theorem preserves_readState {p : Phase} {identifier : Uuid} :
    Preserves (readState p identifier) env P := by
  refine preserves_readJson.bind fun data => ?_
  cases data with
  | none => exact preserves_pure _
  | some state => exact .ite (fun _ => preserves_raise _) fun _ => preserves_pure _

theorem preserves_readStateOrNone {p : Phase} {identifier : Uuid} :
    Preserves (readStateOrNone p identifier) env P :=
  preserves_onHelperError preserves_readState (preserves_pure _)

theorem preserves_readTombstone {p : Phase} {st : Step} {identifier : Uuid} :
    Preserves (readTombstone p st identifier) env P := by
  refine preserves_readJson.bind fun data => ?_
  cases data with
  | none => exact preserves_pure _
  | some tombstone =>
      dsimp only
      split
      · exact preserves_pure _
      · exact preserves_raise _

theorem preserves_timerIsActive {p : Phase} {st : Step} {g : ℤ} :
    Preserves (timerIsActive p st g) env P := preserves_command fun _ h => h

theorem preserves_replaceFile {p : Phase} {file : FileKind} {install : Cell → Cell}
    (h : ∀ s, P s → P (install s)) : Preserves (replaceFile p file install) env P := by
  have hid {st : Step} : Preserves (fileCall p st id) env P :=
    preserves_fileCall fun _ hs => hs
  refine hid.bind fun _ => hid.bind fun _ => Preserves.always ?_ hid
  exact hid.bind fun _ => hid.bind fun _ => (preserves_fileCall h).bind fun _ =>
    hid.bind fun _ => hid

/-! ## What reading finds -/

theorem yields_generation (request : Request) :
    Yields (generation request) env P fun g => request.generation = .int g ∧ 0 < g := by
  intro s hs
  unfold generation
  split
  · rename_i n hn
    rw [wp_ite, wp_pure, wp_raise]
    refine ⟨fun hpos => ⟨hs, fun g hg => ?_⟩, fun _ => ⟨hs, by simp⟩⟩
    cases hg
    exact ⟨hn, hpos⟩
  · rw [wp_raise]
    exact ⟨hs, by simp⟩

/-- `parse_deadline` returns the instant of its text. -/
theorem yields_parseDeadline (text : DeadlineText) :
    Yields (parseDeadline text) env P fun t => text = .instant t := by
  intro s hs
  cases text with
  | instant t => exact ⟨hs, fun a ha => by cases ha; rfl⟩
  | missing | malformed | naive | outOfRange => exact ⟨hs, fun a ha => by cases ha⟩

theorem yields_inspectRaw {p : Phase} {st : Step} {s : Cell} :
    Yields (inspectRaw p st) env (· = s) fun inspection =>
      inspection = s.container ∧ env.fault p st = .none := by
  rintro _ rfl
  exact query_spec ..

/-- `read_state` returns what the file holds, and `none` when there is no
file. -/
theorem wp_readState (p : Phase) (identifier : Uuid) (s : Cell) :
    wp (readState p identifier) env s fun o s' =>
      s' = s ∧
      (∀ st, o = .done (some st) → s.stateFile = .document st ∧ st.instanceId = identifier) ∧
      (o = .done none → s.stateFile = .missing) ∧
      (∀ a, o = .done a → env.fault p .readState = .none) := by
  unfold readState
  rw [wp_bind]
  refine wp_mono (readJson_spec _ _ _ _ _ env s) fun o s' h => ?_
  obtain ⟨rfl, hdoc, hnone, -, hfault⟩ := h
  rcases o with (_ | state) | e | _
  · rw [thenPost_done, wp_pure]
    exact ⟨rfl, by simp, fun _ => hnone rfl, fun _ _ => hfault _ rfl⟩
  · rw [thenPost_done]
    dsimp only
    rw [wp_ite, wp_raise, wp_pure]
    refine ⟨fun _ => ⟨rfl, by simp, by simp, by simp⟩,
      fun hid => ⟨rfl, fun st hst => ?_, by simp, fun _ _ => hfault _ rfl⟩⟩
    cases hst
    exact ⟨hdoc state rfl, not_not.mp hid⟩
  · exact ⟨rfl, by simp, by simp, by simp⟩
  · exact ⟨rfl, by simp, by simp, by simp⟩

/-- `read_state` behind `except HelperError` still returns what the file
holds, when it returns anything. -/
theorem wp_readStateOrNone (p : Phase) (identifier : Uuid) (s : Cell) :
    wp (readStateOrNone p identifier) env s fun o s' =>
      s' = s ∧ ∀ st, o = .done (some st) →
        s.stateFile = .document st ∧ st.instanceId = identifier ∧
          env.fault p .readState = .none := by
  unfold readStateOrNone onHelperError
  rw [wp_attempt]
  refine wp_mono (wp_readState p identifier s) fun o s' h => ?_
  obtain ⟨rfl, hdoc, -, hfault⟩ := h
  rcases o with (_ | state) | e | _
  · exact ⟨rfl, by simp⟩
  · refine ⟨rfl, fun st hst => ?_⟩
    obtain ⟨hfile, hid⟩ := hdoc st hst
    exact ⟨hfile, hid, hfault _ rfl⟩
  · cases e <;> simp
  · exact ⟨rfl, by simp⟩

theorem yields_readStateOrNone {p : Phase} {identifier : Uuid} {s : Cell} :
    Yields (readStateOrNone p identifier) env (· = s) fun state => ∀ st, state = some st →
      s.stateFile = .document st ∧ st.instanceId = identifier ∧
        env.fault p .readState = .none := by
  rintro _ rfl
  refine wp_mono (wp_readStateOrNone p identifier _) fun o s' h => ⟨h.1, fun state ho st hst => ?_⟩
  exact h.2 st (hst ▸ ho)

/-- `read_tombstone` returns the generation of a valid tombstone, or `none`
when there is no file, and raises only when it is refused or there is no valid
tombstone. -/
theorem wp_readTombstone (p : Phase) (st : Step) (identifier : Uuid) (s : Cell) :
    wp (readTombstone p st identifier) env s fun o s' =>
      s' = s ∧
      (∀ g, o = .done (some g) → ∃ t, s.tombstoneFile = .document t ∧
        Tombstone.validGeneration identifier t = some g) ∧
      (o = .done none → s.tombstoneFile = .missing ∧ env.fault p st = .none) ∧
      (∀ e, o = .raised e →
        (∀ t, s.tombstoneFile = .document t → Tombstone.validGeneration identifier t = none) ∨
        (env.fault p st).refuses = true) := by
  unfold readTombstone
  rw [wp_bind]
  refine wp_mono (readJson_spec _ _ _ _ _ env s) fun o s' h => ?_
  obtain ⟨rfl, hdoc, hnone, hraise, hfault⟩ := h
  rcases o with (_ | tombstone) | e | _
  · rw [thenPost_done, wp_pure]
    exact ⟨rfl, by simp, fun _ => ⟨hnone rfl, hfault _ rfl⟩, by simp⟩
  · rw [thenPost_done]
    dsimp only
    have hfile := hdoc tombstone rfl
    cases hn : Tombstone.validGeneration identifier tombstone with
    | none =>
        rw [wp_raise]
        refine ⟨rfl, by simp, by simp, fun _ _ => .inl fun t ht => ?_⟩
        cases hfile.symm.trans ht
        exact hn
    | some n =>
        rw [wp_pure]
        refine ⟨rfl, fun g hg => ?_, by simp, by simp⟩
        cases hg
        exact ⟨tombstone, hfile, hn⟩
  · refine ⟨rfl, by simp, by simp, fun _ _ => ?_⟩
    exact (hraise e rfl).imp_left fun h t ht => absurd ht (h t)
  · exact ⟨rfl, by simp, by simp, by simp⟩

/-- `read_tombstone` says `none` only when there is no file. -/
theorem yields_readTombstone {p : Phase} {st : Step} {identifier : Uuid} {s : Cell} :
    Yields (readTombstone p st identifier) env (· = s) fun fenced =>
      (∀ g, fenced = some g → ∃ t, s.tombstoneFile = .document t ∧
        Tombstone.validGeneration identifier t = some g) ∧
      (fenced = none → s.tombstoneFile = .missing ∧ env.fault p st = .none) := by
  rintro _ rfl
  refine wp_mono (wp_readTombstone p st identifier _) fun o s' h => ⟨h.1, fun fenced ho => ?_⟩
  exact ⟨fun g hg => h.2.1 g (hg ▸ ho), fun hn => h.2.2.1 (hn ▸ ho)⟩

/-! ## Elementary changes -/

/-- The tombstone file `write_tombstone` installs. -/
def Cell.fence (identifier : Uuid) (g : ℤ) (s : Cell) : Cell :=
  { s with tombstoneFile := .document ⟨identifier, .int g, .bool true⟩ }

/-- No valid tombstone on disk has a higher generation. -/
def Cell.Highest (identifier : Uuid) (g : ℤ) (s : Cell) : Prop :=
  ∀ t n, s.tombstoneFile = .document t → Tombstone.validGeneration identifier t = some n → n ≤ g

@[simp] theorem validGeneration_fence (identifier : Uuid) {g : ℤ} (hg : 0 < g) :
    Tombstone.validGeneration identifier ⟨identifier, .int g, .bool true⟩ = some g := by
  simp [Tombstone.validGeneration, hg]

theorem Cell.highest_fence (identifier : Uuid) {g : ℤ} (hg : 0 < g) (s : Cell) :
    Cell.Highest identifier g (Cell.fence identifier g s) := by
  intro t n ht hn
  cases ht
  rw [validGeneration_fence identifier hg] at hn
  cases hn
  exact Int.le_refl _

/-- An invariant that survives every elementary change short of the creation of
a container.  `allowed` are the deadlines the operations may hold.  A tombstone
never lowers the generation of the one it replaces, unless reading that one was
refused. -/
structure Kept (identifier : Uuid) (env : Env) (P : Cell → Prop) (allowed : Time → Prop) :
    Prop where
  dropContainer : ∀ s, P s → P { s with container := none }
  dropNetwork : ∀ s, P s → P (Cell.dropNetwork s)
  dropTimer : ∀ s u, P s → P (Cell.dropTimer u s)
  dropState : ∀ s, P s → P { s with stateFile := .missing }
  fence : ∀ s p g, 0 < g → P s →
    Cell.Highest identifier g s ∨ (env.fault p .readExisting).refuses = true →
    P (Cell.fence identifier g s)
  installTimer : ∀ s g t, allowed t → P s → P (Cell.installTimer g (calendarSecond t) s)
  held : ∀ s st t, P s → s.stateFile = .document st → st.expiresAt = .instant t → allowed t
  putState : ∀ s st t, allowed t → st.instanceId = identifier → st.expiresAt = .instant t →
    P s → P { s with stateFile := .document st }

/-- An invariant that also survives what `ensure_instance` alone does. -/
structure Creates (identifier : Uuid) (env : Env) (P : Cell → Prop) (allowed : Time → Prop) :
    Prop extends Kept identifier env P allowed where
  createNetwork : ∀ s, P s → P { s with network := true }
  create : ∀ s g view, P s → P (Cell.createContainer identifier g view s)
  drift : ∀ s d, P s → P (Cell.drift d s)

/-- `read_tombstone` behind `except HelperError` returns the generation of the
valid tombstone on disk, unless it was refused. -/
theorem wp_readExisting (p : Phase) (identifier : Uuid) (s : Cell) :
    wp (onHelperError (readTombstone p .readExisting identifier) (pure none)) env s
      fun o s' => s' = s ∧ ∀ old, o = .done old →
        (∀ g, Cell.Highest identifier (max g (old.getD 0)) s) ∨
          (env.fault p .readExisting).refuses = true := by
  unfold onHelperError
  rw [wp_attempt]
  refine wp_mono (wp_readTombstone p .readExisting identifier s) fun o s' h => ?_
  obtain ⟨rfl, hsome, hnone, hraise⟩ := h
  rcases o with (_ | old) | e | _
  · refine ⟨rfl, fun _ _ => .inl fun g t n ht => ?_⟩
    rw [(hnone rfl).1] at ht
    cases ht
  · refine ⟨rfl, fun _ ho => .inl fun g t n ht hn => ?_⟩
    cases ho
    obtain ⟨t', ht', hold⟩ := hsome old rfl
    cases ht'.symm.trans ht
    cases hold.symm.trans hn
    exact Int.le_max_right _ _
  · rw [exceptPost_raised]
    cases e with
    | helperError _ =>
        rw [wp_pure]
        refine ⟨rfl, fun _ _ => (hraise _ rfl).imp_left fun h g t n ht hn => ?_⟩
        cases (h t ht).symm.trans hn
    | osError | timeoutExpired | other =>
        dsimp only
        rw [wp_raise]
        exact ⟨rfl, by simp⟩
  · exact ⟨rfl, by simp⟩

/-! ## Composite changes -/

theorem preserves_cancelTimer {p : Phase} {u : Option ℤ} (h : ∀ s, P s → P (Cell.dropTimer u s)) :
    Preserves (cancelTimer p u) env P := by
  refine (preserves_command h).bind fun _ => ?_
  exact (preserves_command fun _ h => h).bind fun _ => preserves_pure _

theorem preserves_cancelOther {p : Phase} {kept other : Option ℤ}
    (h : ∀ s g, some g ≠ kept → other = some g → P s → P (Cell.dropTimer (some g) s)) :
    Preserves (cancelOther p kept other) env P := by
  cases other with
  | none => exact preserves_pure _
  | some g =>
      refine .ite (fun hg => ?_) fun _ => preserves_pure _
      exact preserves_cancelTimer fun s hs => h s g hg rfl hs

theorem preserves_scheduleTimer {p : Phase} {g : ℤ} {t : Time}
    (hinstall : ∀ s, P s → P (Cell.installTimer g (calendarSecond t) s))
    (hdrop : ∀ s, P s → P (Cell.dropTimer none s)) :
    Preserves (scheduleTimer p g t) env P := by
  refine (preserves_read _).bind fun now => .ite (fun _ => preserves_raise _) fun _ => ?_
  refine preserves_timerIsActive.bind fun active =>
    .ite (fun _ => preserves_cancelTimer hdrop) fun _ => ?_
  refine (preserves_command hinstall).bind fun started => ?_
  refine .ite (fun _ => ?_) fun _ => preserves_raise _
  exact preserves_timerIsActive.bind fun _ =>
    .ite (fun _ => preserves_cancelTimer hdrop) fun _ => preserves_raise _

theorem preserves_removeWorkloadVerified {p : Phase}
    (hcontainer : ∀ s, P s → P { s with container := none })
    (hnetwork : ∀ s, P s → P (Cell.dropNetwork s)) :
    Preserves (removeWorkloadVerified p) env P := by
  refine Preserves.bind ?_ fun _ => ?_
  · refine (preserves_command hcontainer).bind fun _ => ?_
    exact preserves_inspectRaw.bind fun _ =>
      .ite (fun _ => preserves_raise _) fun _ => preserves_pure _
  · refine (preserves_command hnetwork).bind fun _ => ?_
    exact preserves_networkExists.bind fun _ =>
      .ite (fun _ => preserves_raise _) fun _ => preserves_pure _

theorem preserves_writeTombstone {p : Phase} {identifier : Uuid} {g : ℤ}
    (h : ∀ s g, 0 < g → P s →
      Cell.Highest identifier g s ∨ (env.fault p .readExisting).refuses = true →
      P (Cell.fence identifier g s)) :
    Preserves (writeTombstone p identifier g) env P := by
  refine .ite (fun _ => preserves_raise _) fun hg => ?_
  intro s hs
  rw [wp_bind]
  refine wp_mono (wp_readExisting p identifier s) fun o s' ho => ?_
  obtain ⟨rfl, hold⟩ := ho
  rcases o with old | e | _
  · rw [thenPost_done]
    have hpos : 0 < max g (old.getD 0) := by omega
    -- the file may be replaced only once, but a replaced one is its own maximum
    have hput : Preserves (replaceFile p .tombstone (Cell.fence identifier (max g (old.getD 0))))
        env fun c => P c ∧ (Cell.Highest identifier (max g (old.getD 0)) c ∨
          (env.fault p .readExisting).refuses = true) :=
      preserves_replaceFile fun c hc =>
        ⟨h c _ hpos hc.1 hc.2, .inl (Cell.highest_fence identifier hpos c)⟩
    exact (hput s' ⟨hs, (hold old rfl).imp_left fun h => h g⟩).1
  · exact hs
  · exact hs

theorem preserves_ensureNetwork (hnetwork : ∀ s, P s → P { s with network := true }) :
    Preserves ensureNetwork env P := by
  refine preserves_networkExists.bind fun _ => .ite (fun _ => preserves_pure _) fun _ => ?_
  refine (preserves_command hnetwork).bind fun _ => .ite (fun _ => preserves_pure _) fun _ => ?_
  exact preserves_networkExists.bind fun _ =>
    .ite (fun _ => preserves_pure _) fun _ => preserves_raise _

theorem preserves_runContainer {identifier : Uuid} {g : ℤ}
    (hcreate : ∀ s view, P s → P (Cell.createContainer identifier g view s))
    (hnetwork : ∀ s, P s → P (Cell.dropNetwork s)) :
    Preserves (runContainer identifier g) env P := by
  refine (preserves_read _).bind fun view => preserves_andReraise ?_ ?_
  · exact (preserves_command fun s => hcreate s view).bind fun _ =>
      .ite (fun _ => preserves_pure _) fun _ => preserves_raise _
  · refine (preserves_command hnetwork).bind fun _ => ?_
    exact preserves_networkExists.bind fun _ =>
      .ite (fun _ => preserves_raise _) fun _ => preserves_pure _

theorem preserves_waitForStartup (hdrift : ∀ s d, P s → P (Cell.drift d s))
    (deployment : Deployment) (polls : List Poll) :
    Preserves (waitForStartup deployment polls) env P := by
  induction polls with
  | nil => exact preserves_raise _
  | cons poll rest ih =>
      refine Preserves.bind (fun s => hdrift s poll.drift) fun _ => ?_
      have hinspect : Preserves (waitForStartup.pollInspect poll) env P := by
        intro s hs
        have hround : Preserves (inspectRaw .request .inspect)
            { env with fault := fun _ _ => poll.fault } P := preserves_inspectRaw
        exact hround s hs
      refine hinspect.bind fun inspection => ?_
      rcases inspection with _ | c
      · exact preserves_raise _
      · dsimp only
        split
        · exact preserves_raise _
        · exact .ite (fun _ => preserves_pure _) fun _ => .ite (fun _ => preserves_raise _)
            fun _ => ih

namespace Kept

variable {identifier : Uuid} {allowed : Time → Prop} (k : Kept identifier env P allowed)

include k

theorem cancelTimer (p : Phase) (u : Option ℤ) : Preserves (cancelTimer p u) env P :=
  preserves_cancelTimer fun s => k.dropTimer s u

theorem cancelOther (p : Phase) (kept other : Option ℤ) :
    Preserves (cancelOther p kept other) env P :=
  preserves_cancelOther fun s g _ _ => k.dropTimer s (some g)

theorem scheduleTimer (p : Phase) (g : ℤ) {t : Time} (ht : allowed t) :
    Preserves (scheduleTimer p g t) env P :=
  preserves_scheduleTimer (fun s => k.installTimer s g t ht) fun s => k.dropTimer s none

theorem removeNetworkVerified (p : Phase) :
    Preserves (removeNetworkVerified p) env P := by
  refine (preserves_command k.dropNetwork).bind fun _ => ?_
  exact preserves_networkExists.bind fun _ =>
    .ite (fun _ => preserves_raise _) fun _ => preserves_pure _

theorem removeWorkloadVerified (p : Phase) :
    Preserves (removeWorkloadVerified p) env P :=
  preserves_removeWorkloadVerified k.dropContainer k.dropNetwork

theorem removeState (p : Phase) : Preserves (removeState p) env P :=
  preserves_fileCall k.dropState

/-- The state read back holds an allowed deadline. -/
theorem readStateOrNone (p : Phase) :
    Yields (readStateOrNone p identifier) env P fun state =>
      ∀ st, state = some st →
        st.instanceId = identifier ∧ ∀ t, st.expiresAt = .instant t → allowed t := by
  intro s hs
  refine wp_mono (wp_readStateOrNone p identifier s) fun o s' h => ?_
  obtain ⟨rfl, hfile⟩ := h
  refine ⟨hs, fun state ho st hst => ?_⟩
  obtain ⟨hdoc, hid, -⟩ := hfile st (hst ▸ ho)
  exact ⟨hid, fun t ht => k.held s' st t hs hdoc ht⟩

theorem readState (p : Phase) :
    Yields (readState p identifier) env P fun state =>
      ∀ st, state = some st → ∀ t, st.expiresAt = .instant t → allowed t := by
  intro s hs
  refine wp_mono (wp_readState p identifier s) fun o s' h => ?_
  obtain ⟨rfl, hfile, -⟩ := h
  exact ⟨hs, fun state ho st hst t ht => k.held s' st t hs (hfile st (hst ▸ ho)).1 ht⟩

theorem writeTombstone (p : Phase) (g : ℤ) :
    Preserves (writeTombstone p identifier g) env P :=
  preserves_writeTombstone fun s => k.fence s p

theorem removeIrrecoverable (p : Phase) (inspection : Container) :
    Preserves (removeIrrecoverable p identifier inspection) env P :=
  (k.writeTombstone p _).bind fun _ => (k.removeWorkloadVerified p).bind fun _ =>
    (k.cancelTimer p _).bind fun _ => (k.cancelTimer p none).bind fun _ => k.removeState p

/-! ## The operations -/

theorem inspectResult (p : Phase) : Preserves (inspectResult p identifier) env P := by
  refine preserves_inspectRaw.bind fun inspection => ?_
  cases inspection with
  | none => exact preserves_pure _
  | some inspection =>
      refine preserves_readStateOrNone.bind fun state =>
        .ite (fun _ => preserves_raise _) fun _ => ?_
      cases state with
      | none => exact (k.removeIrrecoverable p inspection).bind fun _ => preserves_pure _
      | some st =>
          dsimp only
          split
          · exact preserves_raise _
          · exact (preserves_read _).bind fun _ => preserves_pure _

theorem stopInstance (request : Request) :
    Preserves (stopInstance identifier request) env P := by
  refine (preserves_generation request).bind fun g => preserves_inspectRaw.bind fun inspection =>
    preserves_readStateOrNone.bind fun state => ?_
  dsimp only
  split
  · exact (k.removeIrrecoverable .request _).bind fun _ => preserves_pure _
  · refine .ite (fun _ => preserves_pure _) fun _ => ?_
    refine (k.writeTombstone .request _).bind fun _ => ?_
    refine (k.removeWorkloadVerified .request).bind fun _ => ?_
    refine (k.cancelOther .request _ _).bind fun _ => (k.cancelTimer .request _).bind fun _ => ?_
    exact (k.removeState .request).bind fun _ => preserves_pure _

theorem writeState (p : Phase) {st : InstanceState} {t : Time} (ht : allowed t)
    (hid : st.instanceId = identifier) (hst : st.expiresAt = .instant t) :
    Preserves (writeState p st) env P :=
  preserves_replaceFile fun s => k.putState s st t ht hid hst

theorem switchDeadline (previous g : ℤ) {st : InstanceState} {t : Time} (ht : allowed t)
    (hid : st.instanceId = identifier) (hst : st.expiresAt = .instant t) :
    Preserves (switchDeadline previous g st) env P := by
  refine (preserves_andReraise (k.writeState .request ht hid hst) ?_).bind fun _ => ?_
  · exact .ite (fun _ => k.cancelTimer .recovery _) fun _ => preserves_pure _
  · exact k.cancelOther .request _ _

theorem updateDeadline (request : Request)
    (hrequest : ∀ t, request.expiresAt = .instant t → allowed t) :
    Preserves (updateDeadline identifier request) env P := by
  refine (preserves_generation request).bind fun g =>
    (yields_parseDeadline _).bind fun t ht => preserves_readTombstone.bind fun tombstone => ?_
  have hallowed := hrequest t ht
  cases tombstone with
  | some fenced => exact preserves_inspectRaw.bind fun _ => preserves_pure _
  | none =>
      refine preserves_inspectRaw.bind fun inspection =>
        (k.readStateOrNone .request).bind fun state hstate => ?_
      rcases inspection with _ | container
      · exact preserves_raise _
      rcases state with _ | st
      · exact (k.removeIrrecoverable .request _).bind fun _ => preserves_pure _
      obtain ⟨hid, -⟩ := hstate st rfl
      dsimp only
      split
      · exact preserves_raise _
      · refine .ite (fun _ => preserves_pure _) fun _ => (preserves_read _).bind fun _ =>
          .ite (fun _ => preserves_raise _) fun _ => ?_
        refine (k.scheduleTimer .request g hallowed).bind fun _ => ?_
        refine Preserves.bind (k.switchDeadline _ g hallowed ?_ ?_) fun _ => preserves_pure _
        · exact hid
        · rfl

theorem expireInstance (p : Phase) (g : ℤ) :
    Preserves (expireInstance p identifier g) env P := by
  refine .ite (fun _ => preserves_raise _) fun _ => (k.readState p).bind fun state hstate => ?_
  rcases state with _ | st
  · exact preserves_pure _
  refine .ite (fun _ => preserves_pure _) fun _ => (yields_parseDeadline _).bind fun t ht => ?_
  refine (preserves_read _).bind fun _ => .ite (fun _ => ?_) fun _ => ?_
  · exact k.scheduleTimer p g (hstate st rfl t ht)
  · exact (k.writeTombstone p g).bind fun _ =>
      (k.removeWorkloadVerified p).bind fun _ => k.removeState p

theorem sweepReadable (now : Time) (container : Container) {st : InstanceState}
    (hst : ∀ t, st.expiresAt = .instant t → allowed t) (g : ℤ) :
    Preserves (sweepInstance.sweepReadable now identifier container st g) env P := by
  have hdeadline : Yields (onHelperError (some <$> parseDeadline st.expiresAt) (pure none)) env P
      fun deadline => ∀ t, deadline = some t → st.expiresAt = .instant t := by
    intro s hs
    cases st.expiresAt with
    | instant t => exact ⟨hs, fun a ha t' ht => by cases ha; cases ht; rfl⟩
    | missing | malformed | naive => exact ⟨hs, fun a ha t' ht => by cases ha; cases ht⟩
    | outOfRange => exact ⟨hs, fun a ha => by cases ha⟩
  refine hdeadline.bind fun deadline hd => ?_
  cases deadline with
  | none => exact (k.removeIrrecoverable .request _).bind fun _ => preserves_pure _
  | some t =>
      refine .ite (fun _ => (k.expireInstance .result g).bind fun _ => preserves_pure _) fun _ => ?_
      refine preserves_timerIsActive.bind fun _ => .ite (fun _ => preserves_pure _) fun _ => ?_
      exact (k.scheduleTimer .request g (hst t (hd t rfl))).bind fun _ => preserves_pure _

theorem sweepInstance : Preserves (sweepInstance identifier) env P := by
  refine (preserves_read _).bind fun now => preserves_inspectRaw.bind fun inspection =>
    (k.readStateOrNone .request).bind fun state hstate => ?_
  have htombstone : Preserves (onHelperError (readTombstone .request .readTombstone identifier)
      (Helper.writeTombstone .request identifier ((stateGeneration state inspection).getD 1) >>=
        fun _ => pure (some ((stateGeneration state inspection).getD 1)))) env P :=
    preserves_onHelperError preserves_readTombstone
      ((k.writeTombstone .request _).bind fun _ => preserves_pure _)
  refine htombstone.bind fun tombstone => ?_
  have hfenceKnown (g : Option ℤ) :
      Preserves (sweepInstance.fenceKnown identifier g) env P := by
    cases g with
    | none => exact preserves_pure _
    | some g => exact k.writeTombstone .request g
  rcases tombstone with _ | fenced
  · rcases inspection with _ | container
    · exact (hfenceKnown _).bind fun _ => (k.removeNetworkVerified .request).bind fun _ =>
        (k.removeState .request).bind fun _ => (k.cancelOther .request _ _).bind fun _ =>
        (k.cancelTimer .request _).bind fun _ => preserves_pure _
    · refine .ite (fun _ => preserves_raise _) fun _ => ?_
      have hremove : Preserves (Helper.removeIrrecoverable .request identifier container >>=
          fun _ => pure Swept.removed) env P :=
        (k.removeIrrecoverable .request container).bind fun _ => preserves_pure _
      rcases state with _ | st
      · exact hremove
      · dsimp only
        split
        · exact hremove
        · exact k.sweepReadable now container (hstate st rfl).2 _
  · exact (k.removeWorkloadVerified .request).bind fun _ =>
      (k.cancelTimer .request _).bind fun _ => (k.cancelOther .request _ _).bind fun _ =>
      (k.cancelTimer .request _).bind fun _ => (k.removeState .request).bind fun _ =>
      preserves_pure _

end Kept

namespace Creates

variable {identifier : Uuid} {allowed : Time → Prop} (k : Creates identifier env P allowed)

include k

theorem commitInstance (g : ℤ) {t : Time} (ht : allowed t) (deployment : Deployment)
    {state : InstanceState} (hid : state.instanceId = identifier)
    (hst : state.expiresAt = .instant t) (previous : Option ℤ) (created : Bool) :
    Preserves (commitInstance identifier g t deployment state previous created) env P := by
  refine preserves_andReraise ?_ (.ite (fun _ => ?_) fun _ => preserves_pure _)
  · refine (k.scheduleTimer .request g ht).bind fun _ => ?_
    refine (k.writeState .request ht hid hst).bind fun _ => ?_
    refine (k.cancelOther .request _ _).bind fun _ => (preserves_read _).bind fun polls => ?_
    refine (preserves_waitForStartup k.drift deployment polls).bind fun _ => (preserves_read _).bind fun d => ?_
    refine Preserves.bind (fun s => k.drift s d) fun _ => ?_
    exact (k.inspectResult .result).bind fun _ => preserves_pure _
  · exact (k.removeWorkloadVerified .recovery).bind fun _ =>
      (k.cancelTimer .recovery _).bind fun _ => k.removeState .recovery

theorem ensureUnfenced (g : ℤ) {t : Time} (ht : allowed t) (deployment : Deployment)
    (flagValue : Option String) :
    Preserves (ensureUnfenced identifier g t deployment flagValue) env P := by
  refine Preserves.bind ((preserves_read _).bind fun _ => preserves_pure _) fun fingerprint => ?_
  refine preserves_inspectRaw.bind fun existing => preserves_readStateOrNone.bind fun state => ?_
  have hcommit (created : Bool) : Preserves (Helper.commitInstance identifier g t deployment
      (newState identifier g t deployment fingerprint) (stateGeneration state existing) created)
      env P :=
    k.commitInstance g ht deployment rfl rfl _ created
  rcases existing with _ | container
  · refine .ite (fun _ => preserves_pure _) fun _ => ?_
    refine (preserves_ensureNetwork k.createNetwork).bind fun _ => ?_
    exact (preserves_runContainer (fun s => k.create s g) k.dropNetwork).bind fun _ =>
      hcommit true
  rcases state with _ | st
  · exact (k.removeIrrecoverable .request container).bind fun _ => preserves_pure _
  dsimp only
  split
  · exact (k.removeIrrecoverable .request container).bind fun _ => preserves_pure _
  · rename_i previous hprevious
    rw [← hprevious]
    refine .ite (fun _ => preserves_raise _) fun _ => .ite (fun _ => preserves_pure _) fun _ => ?_
    exact .ite (fun _ => preserves_raise _) fun _ => hcommit false

theorem ensureInstance (request : Request)
    (hrequest : ∀ t, request.expiresAt = .instant t → allowed t) :
    Preserves (ensureInstance identifier request) env P := by
  refine (preserves_generation request).bind fun g => preserves_readTombstone.bind fun fenced => ?_
  cases fenced with
  | some _ => exact preserves_inspectRaw.bind fun _ => preserves_pure _
  | none =>
      refine (yields_parseDeadline _).bind fun t ht => (preserves_read _).bind fun _ => ?_
      refine .ite (fun _ => preserves_raise _) fun _ => ?_
      cases request.deployment with
      | none => exact preserves_raise _
      | some deployment => exact k.ensureUnfenced g (hrequest t ht) deployment _

end Creates

end CtfZone.Helper
