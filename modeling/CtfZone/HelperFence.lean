/-
# Tombstones as permanent fences

Runs of the helper on one UUID.  An event is an operation in an environment of
its own, a change of the container by itself, or the loss of timer units (a
transient unit does not survive a reboot); no event touches the files from
outside.

Once a valid tombstone is on disk, every later state has one, and a container
that is there later was there at that moment.  Its generation is computed as a
maximum, but `write_tombstone` treats a tombstone it is refused to read like a
corrupt one and starts the maximum afresh, so the generation is monotone only
along runs in which that read is not refused.
-/
import CtfZone.HelperFiles

open Effects Effects.Prog

namespace CtfZone.Helper

/-! ## Runs on one UUID -/

/-- The operations of the helper on one UUID. -/
inductive Operation
  | ensure (request : Request)
  | inspect
  | stop (request : Request)
  | update (request : Request)
  | expire (expectedGeneration : ℤ)
  | sweep
  deriving DecidableEq

/-- The host after an operation, however the operation ends. -/
def Operation.perform (identifier : Uuid) (env : Env) (s : Cell) : Operation → Cell
  | .ensure request => (ensureInstance identifier request env s).2
  | .inspect => (inspectResult .request identifier env s).2
  | .stop request => (stopInstance identifier request env s).2
  | .update request => (updateDeadline identifier request env s).2
  | .expire g => (expireInstance .request identifier g env s).2
  | .sweep => (sweepInstance identifier env s).2

/-- The deadline an operation may install. -/
def Operation.deadline : Operation → DeadlineText
  | .ensure request | .update request => request.expiresAt
  | _ => .missing

/-- What every operation keeps of an invariant. -/
theorem Creates.perform {identifier : Uuid} {env : Env} {P : Cell → Prop}
    {allowed : Time → Prop} (k : Creates identifier env P allowed) {s : Cell} (hs : P s) :
    ∀ op : Operation, (∀ t, op.deadline = .instant t → allowed t) →
      P (op.perform identifier env s)
  | .ensure request, h => k.ensureInstance request h s hs
  | .inspect, _ => k.inspectResult .request s hs
  | .stop request, _ => k.stopInstance request s hs
  | .update request, h => k.updateDeadline request h s hs
  | .expire g, _ => k.expireInstance .request g s hs
  | .sweep, _ => k.sweepInstance s hs

/-- What every operation but `ensure-instance` keeps. -/
theorem Kept.perform {identifier : Uuid} {env : Env} {P : Cell → Prop}
    {allowed : Time → Prop} (k : Kept identifier env P allowed) {s : Cell} (hs : P s) :
    ∀ op : Operation, (∀ request, op ≠ .ensure request) →
      (∀ t, op.deadline = .instant t → allowed t) → P (op.perform identifier env s)
  | .ensure request, hop, _ => absurd rfl (hop request)
  | .inspect, _, _ => k.inspectResult .request s hs
  | .stop request, _, _ => k.stopInstance request s hs
  | .update request, _, h => k.updateDeadline request h s hs
  | .expire g, _, _ => k.expireInstance .request g s hs
  | .sweep, _, _ => k.sweepInstance s hs

/-- What happens on a host. -/
inductive Event
  | operation (op : Operation) (env : Env)
  | drift (d : Drift)
  | timersLost (kept : Option ℤ → Bool)

/-- The host after an event. -/
def Event.apply (identifier : Uuid) (s : Cell) : Event → Cell
  | .operation op env => op.perform identifier env s
  | .drift d => Cell.drift d s
  | .timersLost kept => { s with timers := fun u => if kept u then s.timers u else none }

/-- The host after a sequence of events. -/
def after (identifier : Uuid) (events : List Event) (s : Cell) : Cell :=
  events.foldl (Event.apply identifier) s

/-! ## Fences -/

/-- The generation of the tombstone on disk, when it is valid. -/
def Cell.tombstoneGeneration (identifier : Uuid) (s : Cell) : Option ℤ :=
  match s.tombstoneFile with
  | .document t => Tombstone.validGeneration identifier t
  | _ => none

theorem Cell.tombstoneGeneration_eq_some {identifier : Uuid} {s : Cell} {n : ℤ} :
    Cell.tombstoneGeneration identifier s = some n ↔
      ∃ t, s.tombstoneFile = .document t ∧ Tombstone.validGeneration identifier t = some n := by
  unfold Cell.tombstoneGeneration
  constructor
  · intro h
    split at h
    · rename_i t ht
      exact ⟨t, ht, h⟩
    · cases h
  · rintro ⟨t, ht, hn⟩
    rw [ht]
    exact hn

@[simp] theorem Cell.tombstoneGeneration_fence (identifier : Uuid) {g : ℤ} (hg : 0 < g)
    (s : Cell) : Cell.tombstoneGeneration identifier (Cell.fence identifier g s) = some g :=
  validGeneration_fence identifier hg

/-- A container of the state after is the one of the state before: same id and
same labels. -/
def Cell.Descends (s s' : Cell) : Prop :=
  ∀ c', s'.container = some c' → ∃ c, s.container = some c ∧ c.view.id = c'.view.id ∧
    c.instanceLabel = c'.instanceLabel ∧ c.generationLabel = c'.generationLabel

theorem Cell.Descends.refl (s : Cell) : Cell.Descends s s :=
  fun c' h => ⟨c', h, rfl, rfl, rfl⟩

theorem Cell.Descends.trans {s s' s'' : Cell} (h : Cell.Descends s s')
    (h' : Cell.Descends s' s'') : Cell.Descends s s'' := by
  intro c'' hc''
  obtain ⟨c', hc', hid', hl', hg'⟩ := h' c'' hc''
  obtain ⟨c, hc, hid, hl, hg⟩ := h c' hc'
  exact ⟨c, hc, hid.trans hid', hl.trans hl', hg.trans hg'⟩

theorem Cell.descends_drift (s : Cell) (d : Drift) : Cell.Descends s (Cell.drift d s) := by
  intro c' hc'
  cases d with
  | same => exact Cell.Descends.refl s c' hc'
  | gone => cases hc'
  | becomes runtime =>
      obtain ⟨c, hc, rfl⟩ := Option.map_eq_some_iff.mp hc'
      exact ⟨c, hc, rfl, rfl, rfl⟩

/-- How a later state of a fenced UUID relates to the moment at which its
tombstone had generation `n`.  `honest` says that no read of a tombstone to be
replaced was refused. -/
structure Fenced (identifier : Uuid) (honest : Prop) (s : Cell) (n : ℤ) (s' : Cell) :
    Prop where
  tombstone : ∃ n', Cell.tombstoneGeneration identifier s' = some n' ∧ (honest → n ≤ n')
  descends : Cell.Descends s s'

theorem Fenced.refl {identifier : Uuid} {honest : Prop} {s : Cell} {n : ℤ}
    (h : Cell.tombstoneGeneration identifier s = some n) : Fenced identifier honest s n s :=
  ⟨⟨n, h, fun _ => Int.le_refl n⟩, Cell.Descends.refl s⟩

/-- A fence survives every elementary change short of the creation of a
container. -/
theorem fenced_kept {identifier : Uuid} {env : Env} {honest : Prop} {s : Cell} {n : ℤ}
    (henv : honest → ∀ p, (env.fault p .readExisting).refuses = false) :
    Kept identifier env (Fenced identifier honest s n) fun _ => True where
  dropContainer _ h := ⟨h.tombstone, fun _ hnone => (by cases hnone)⟩
  dropNetwork c h := by
    unfold Cell.dropNetwork
    split <;> exact ⟨h.tombstone, h.descends⟩
  dropTimer _ _ h := ⟨h.tombstone, h.descends⟩
  dropState _ h := ⟨h.tombstone, h.descends⟩
  fence c p g hg h hhigh := by
    refine ⟨⟨g, Cell.tombstoneGeneration_fence identifier hg c, fun hh => ?_⟩, h.descends⟩
    obtain ⟨n', hn', hle⟩ := h.tombstone
    obtain ⟨t, ht, hv⟩ := Cell.tombstoneGeneration_eq_some.mp hn'
    rcases hhigh with hhigh | hrefused
    · have hbound : n' ≤ g := hhigh t n' ht hv
      have hstart : n ≤ n' := hle hh
      omega
    · rw [henv hh p] at hrefused
      cases hrefused
  installTimer c _ _ _ h := by
    unfold Cell.installTimer
    split <;> exact ⟨h.tombstone, h.descends⟩
  held _ _ _ _ _ _ := trivial
  putState _ _ _ _ _ _ h := ⟨h.tombstone, h.descends⟩

/-- `ensure_instance` returns at a valid tombstone before it changes
anything. -/
theorem ensureInstance_fenced {identifier : Uuid} {request : Request} {env : Env} {s : Cell}
    {n : ℤ} (h : Cell.tombstoneGeneration identifier s = some n) :
    wp (ensureInstance identifier request) env s fun _ s' => s' = s := by
  have hensure : Preserves (ensureInstance identifier request) env (· = s) := by
    refine (preserves_generation request).bind fun g =>
      yields_readTombstone.bind fun fenced hfenced => ?_
    cases fenced with
    | none =>
        obtain ⟨t, ht, -⟩ := Cell.tombstoneGeneration_eq_some.mp h
        rw [(hfenced.2 rfl).1] at ht
        cases ht
    | some _ => exact preserves_inspectRaw.bind fun _ => preserves_pure _
  exact hensure s rfl

/-! ## Verified removals -/

/-- Short of a creation, no operation brings a container back. -/
theorem removed_kept (identifier : Uuid) (env : Env) :
    Kept identifier env (fun s => s.container = none) fun _ => True where
  dropContainer _ _ := rfl
  dropNetwork c h := by
    unfold Cell.dropNetwork
    split <;> exact h
  dropTimer _ _ h := h
  dropState _ h := h
  fence _ _ _ _ h _ := h
  installTimer c _ _ _ h := (Cell.installTimer_container ..).trans h
  held _ _ _ _ _ _ := trivial
  putState _ _ _ _ _ _ h := h

/-- A removal that returns has removed the container. -/
theorem removeWorkloadVerified_done (p : Phase) (env : Env) (s : Cell) :
    wp (removeWorkloadVerified p) env s fun o s' => o = .done ⟨⟩ → s'.container = none := by
  have hcontainer : wp (removeContainerVerified p) env s fun o s' =>
      o = .done ⟨⟩ → s'.container = none := by
    unfold removeContainerVerified
    rw [wp_bind]
    refine wp_mono (command_spec p .remove _ _ env s) fun o s₁ _ => ?_
    cases o with
    | done _ =>
        rw [thenPost_done]
        refine Yields.wp_bind yields_inspectRaw (fun inspection h => ?_)
          fun o ho h => absurd h (ho _)
        rw [wp_ite, wp_raise, wp_pure]
        refine ⟨by simp, fun hgone _ => ?_⟩
        rw [← h.1]
        simpa using hgone
    | raised e => simp
    | halted => simp
  unfold removeWorkloadVerified
  rw [wp_bind]
  refine wp_mono hcontainer fun o s₁ h₁ => ?_
  cases o with
  | done _ =>
      rw [thenPost_done]
      have hgone := (removed_kept 0 env).removeNetworkVerified p s₁ (h₁ rfl)
      exact wp_mono hgone fun _ _ h _ => h
  | raised e => simp
  | halted => simp

/-- A tombstone that was written is on disk. -/
theorem writeTombstone_done (p : Phase) (identifier : Uuid) (g : ℤ) (env : Env) (s : Cell) :
    wp (writeTombstone p identifier g) env s fun o s' =>
      o = .done ⟨⟩ → ∃ n, Cell.tombstoneGeneration identifier s' = some n ∧ g ≤ n := by
  unfold writeTombstone
  rw [wp_ite, wp_raise]
  refine ⟨by simp, fun hg => ?_⟩
  rw [wp_bind]
  refine wp_mono (wp_readExisting p identifier s) fun o s₁ _ => ?_
  cases o with
  | done old =>
      rw [thenPost_done]
      refine wp_mono (wp_replaceFile p .tombstone _ s₁) fun o s₂ h ho => ?_
      rw [ho] at h
      refine ⟨max g (old.getD 0), ?_, Int.le_max_left _ _⟩
      rw [h.1]
      exact Cell.tombstoneGeneration_fence identifier (by omega) s₁
  | raised e => simp
  | halted => simp

/-- A removal of an irrecoverable instance that returns has removed the
container behind a tombstone. -/
theorem removeIrrecoverable_done (p : Phase) (identifier : Uuid) (inspection : Container)
    (env : Env) (s : Cell) :
    wp (removeIrrecoverable p identifier inspection) env s fun o s' =>
      o = .done ⟨⟩ → s'.container = none ∧
        ∃ n, Cell.tombstoneGeneration identifier s' = some n := by
  unfold removeIrrecoverable
  rw [wp_bind]
  refine wp_mono (writeTombstone_done _ _ _ env s) fun o s₁ h₁ => ?_
  rcases o with _ | e | _
  · obtain ⟨n, hn, -⟩ := h₁ rfl
    have hfenced : Kept identifier env (Fenced identifier False s₁ n) fun _ => True :=
      fenced_kept False.elim
    rw [thenPost_done, wp_bind]
    refine wp_mono (wp_and (hfenced.removeWorkloadVerified p s₁ (Fenced.refl hn))
      (removeWorkloadVerified_done p env s₁)) fun o s₂ h₂ => ?_
    rcases o with _ | e | _
    · -- from here on the container stays away and the fence stays up
      have hrest {P : Cell → Prop} (k : Kept identifier env P fun _ => True) :
          Preserves (do
            cancelTimer p (some ((stateGeneration none (some inspection)).getD 1))
            cancelTimer p none
            removeState p) env P :=
        (k.cancelTimer p _).bind fun _ => (k.cancelTimer p none).bind fun _ => k.removeState p
      rw [thenPost_done]
      refine wp_mono (wp_and (hrest hfenced s₂ h₂.1)
        (hrest (removed_kept identifier env) s₂ (h₂.2 rfl))) fun o s₃ h₃ _ => ⟨h₃.2, ?_⟩
      obtain ⟨n', hn', -⟩ := h₃.1.tombstone
      exact ⟨n', hn'⟩
    · simp
    · simp
  · simp
  · simp

/-- No operation lifts a fence or creates a container behind it. -/
theorem Operation.perform_fenced {identifier : Uuid} {env : Env} {honest : Prop} {s : Cell}
    {n : ℤ} (henv : honest → ∀ p, (env.fault p .readExisting).refuses = false)
    (h : Cell.tombstoneGeneration identifier s = some n) (op : Operation) :
    Fenced identifier honest s n (op.perform identifier env s) := by
  have hkept : Kept identifier env (Fenced identifier honest s n) fun _ => True :=
    fenced_kept henv
  cases op with
  | ensure request =>
      have hsame : (ensureInstance identifier request env s).2 = s := ensureInstance_fenced h
      rw [Operation.perform, hsame]
      exact Fenced.refl h
  | inspect => exact hkept.inspectResult .request s (Fenced.refl h)
  | stop request => exact hkept.stopInstance request s (Fenced.refl h)
  | update request => exact hkept.updateDeadline request (fun _ _ => trivial) s (Fenced.refl h)
  | expire g => exact hkept.expireInstance .request g s (Fenced.refl h)
  | sweep => exact hkept.sweepInstance s (Fenced.refl h)

/-- The event reads every tombstone it replaces. -/
def Event.Honest : Event → Prop
  | .operation _ env => ∀ p, (env.fault p .readExisting).refuses = false
  | _ => True

theorem Event.apply_fenced {identifier : Uuid} {s : Cell} {n : ℤ}
    (h : Cell.tombstoneGeneration identifier s = some n) (e : Event) :
    Fenced identifier e.Honest s n (e.apply identifier s) := by
  cases e with
  | operation op env => exact op.perform_fenced id h
  | drift d =>
      refine ⟨⟨n, ?_, fun _ => Int.le_refl n⟩, Cell.descends_drift s d⟩
      cases d <;> exact h
  | timersLost kept => exact ⟨⟨n, h, fun _ => Int.le_refl n⟩, Cell.Descends.refl s⟩

/-- **A tombstone is a permanent fence.**  Over every sequence of events after a
moment with a valid tombstone there is a valid tombstone, a container that is
there was there at that moment, and the generation has not decreased unless an
operation was refused the tombstone it was replacing. -/
theorem tombstone_permanent (identifier : Uuid) (events : List Event) (s : Cell) (n : ℤ)
    (h : Cell.tombstoneGeneration identifier s = some n) :
    ∃ n', Cell.tombstoneGeneration identifier (after identifier events s) = some n' ∧
      ((∀ e ∈ events, e.Honest) → n ≤ n') ∧
      Cell.Descends s (after identifier events s) := by
  induction events generalizing s n with
  | nil => exact ⟨n, h, fun _ => Int.le_refl n, Cell.Descends.refl s⟩
  | cons e events ih =>
      obtain ⟨⟨n₁, hn₁, hle₁⟩, hdesc₁⟩ := Event.apply_fenced h e
      obtain ⟨n', hn', hle', hdesc'⟩ := ih (e.apply identifier s) n₁ hn₁
      refine ⟨n', hn', fun hhonest => ?_, hdesc₁.trans hdesc'⟩
      have hfirst : n ≤ n₁ := hle₁ (hhonest e List.mem_cons_self)
      have hrest : n₁ ≤ n' := hle' fun e' he' => hhonest e' (List.mem_cons_of_mem e he')
      omega

/-- A stop of generation `g` on a host that has not seen the instance. -/
def stopOf (g : ℤ) : Operation :=
  .stop { generation := .int g, expiresAt := .missing, deployment := none, flagValue := none }

/-- An environment in which nothing fails but the given step. -/
def faultAt (q : Phase) (st : Step) (f : Fault) : Env where
  fault p st' := if p = q ∧ st' = st then f else .none
  now := 0
  delay := fun _ => 0
  polls := []
  settled := .same
  created := ⟨"", ⟨some .running, true, none⟩, none, ⟨none, none⟩⟩
  sha256 := id
  publicHostname := none

/-- A stop in good order, and a sweep that is killed while it removes the
container. -/
def stopThenSweep : List Event :=
  [.operation (stopOf 3) (faultAt .request .readExisting .none),
   .operation .sweep (faultAt .request .remove (.kill true))]

/-- A fence of generation 5 survives a stop and an interrupted sweep. -/
theorem tombstone_permanent_stopped :
    ∃ n', Cell.tombstoneGeneration 1 (after 1 stopThenSweep (Cell.fence 1 5 .pristine)) =
        some n' ∧
      ((∀ e ∈ stopThenSweep, e.Honest) → 5 ≤ n') ∧
      Cell.Descends (Cell.fence 1 5 .pristine)
        (after 1 stopThenSweep (Cell.fence 1 5 .pristine)) :=
  tombstone_permanent 1 stopThenSweep (Cell.fence 1 5 .pristine) 5 rfl

/-- The generation of a tombstone can decrease: a stop of generation 3 that is
refused the tombstone of generation 5 replaces it. -/
theorem tombstone_generation_decreases :
    ¬ ∀ (identifier : Uuid) (events : List Event) (s : Cell) (n : ℤ),
      Cell.tombstoneGeneration identifier s = some n →
      ∃ n', Cell.tombstoneGeneration identifier (after identifier events s) = some n' ∧
        n ≤ n' ∧ Cell.Descends s (after identifier events s) := by
  intro h
  -- the first stop writes generation 5 on a pristine host
  have hfirst : Cell.tombstoneGeneration 1
      (after 1 [.operation (stopOf 5) (faultAt .request .readExisting .none)] .pristine) =
      some 5 := by decide +kernel
  have hsecond : Cell.tombstoneGeneration 1
      (after 1 [.operation (stopOf 3) (faultAt .request .readExisting (.exit false))]
        (after 1 [.operation (stopOf 5) (faultAt .request .readExisting .none)] .pristine)) =
      some 3 := by decide +kernel
  obtain ⟨n', hn', hle, -⟩ :=
    h 1 [.operation (stopOf 3) (faultAt .request .readExisting (.exit false))] _ 5 hfirst
  rw [hsecond] at hn'
  cases hn'
  exact absurd hle (by decide)

end CtfZone.Helper
