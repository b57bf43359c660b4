/-
# The sweep

`sweep_instances` visits every UUID that has a state file, a managed container
or a managed network.  A round that returns should leave either no container or
one with a deadline ahead and a timer; the main result says exactly when a
successful sweep does.  What it overlooks are containers whose state file is
readable but has no positive integer generation while their label has one: the
round takes the label for the generation, and then neither the state file nor
`expire_instance` agrees.
-/
import Mathlib.Data.List.Dedup
import Mathlib.Data.List.Sort
import CtfZone.HelperDeadline

open Effects Effects.Prog

namespace CtfZone

namespace Helper

variable {env : Env} {identifier : Uuid}

/-! ## One round -/

/-- What a round that returns should leave behind: a container that is still
there is not fenced and has a readable state file with a generation, a deadline
ahead of the sweep and a timer; a container whose recorded deadline had passed
is gone behind a fence. -/
structure Cell.Swept (identifier : Uuid) (now : Time) (s s' : Cell) : Prop where
  kept : s'.container ≠ none → s'.tombstoneFile = .missing ∧
    ∃ st g t, s'.stateFile = .document st ∧ st.instanceId = identifier ∧
      st.generation = .int g ∧ 0 < g ∧ st.expiresAt = .instant t ∧ now < t ∧
      s'.timers (some g) ≠ none
  expired : s.container ≠ none → ∀ st t, s.stateFile = .document st →
    st.expiresAt = .instant t → t ≤ now →
    s'.container = none ∧ ∃ n, Cell.tombstoneGeneration identifier s' = some n

/-- A container that is not fenced, whose state file is read with a deadline but
without a generation, and whose label has a generation; the one way to get rid of
it is a deadline that has passed and a value in the state file that Python takes
for the label (`True` or `1.0` for 1). -/
def Overlooked (identifier : Uuid) (env : Env) (s : Cell) : Prop :=
  ∃ c st g t, s.container = some c ∧ s.stateFile = .document st ∧
    st.instanceId = identifier ∧ stateGeneration (some st) none = none ∧
    c.generationLabel = some g ∧ 0 < g ∧ st.expiresAt = .instant t ∧
    s.tombstoneFile = .missing ∧ env.fault .request .readTombstone = .none ∧
    env.fault .request .readState = .none ∧
    ¬ (t ≤ env.now ∧ st.generation.equalsInt g = true)

/-- A removal behind a fence is what the sweep should leave. -/
theorem swept_of_removed {now : Time} {s s' : Cell} (h : s'.container = none)
    (hfence : ∃ n, Cell.tombstoneGeneration identifier s' = some n) :
    Cell.Swept identifier now s s' :=
  ⟨fun hc => absurd h hc, fun _ _ _ _ _ _ => ⟨h, hfence⟩⟩

/-- The step of a round that reads the tombstone, or fences a UUID whose
tombstone cannot be read. -/
theorem sweepTombstone_returns {s s' : Cell} {blocked : ℤ} {fenced : Option ℤ}
    (h : Returns (onHelperError (readTombstone .request .readTombstone identifier) (do
      writeTombstone .request identifier blocked
      pure (some blocked))) env s fenced s') :
    s'.container = s.container ∧
    (fenced = none → s' = s ∧ s.tombstoneFile = .missing ∧
      env.fault .request .readTombstone = .none) ∧
    (∀ n, fenced = some n → (∃ n', Cell.tombstoneGeneration identifier s' = some n') ∧
      ¬ (s.tombstoneFile = .missing ∧ env.fault .request .readTombstone = .none)) := by
  have hmissing {n : ℤ} (hn : fenced = some n) :
      ¬ (s.tombstoneFile = .missing ∧ env.fault .request .readTombstone = .none) := by
    rintro ⟨hfile, hfault⟩
    have hnone : fenced = none :=
      (h.unique (returns_attempt.mpr (.inl (readTombstone_missing identifier hfault hfile)))).1
    cases hnone.symm.trans hn
  unfold onHelperError at h
  rw [returns_attempt] at h
  rcases h with h | ⟨e, s₁, he, h⟩
  · obtain ⟨rfl, hsome, hnone⟩ := h.of_yields yields_readTombstone
    refine ⟨rfl, fun hf => ⟨rfl, hnone hf⟩, fun n hn => ?_⟩
    obtain ⟨t, ht, hv⟩ := hsome n hn
    exact ⟨⟨n, Cell.tombstoneGeneration_eq_some.mpr ⟨t, ht, hv⟩⟩, hmissing hn⟩
  · have hs₁ : s₁ = s := by
      have hsame : wp (readTombstone .request .readTombstone identifier) env s
          fun _ s' => s' = s :=
        wp_mono (wp_readTombstone .request .readTombstone identifier s) fun _ _ h => h.1
      unfold wp at hsame
      rw [he] at hsame
      exact hsame
    subst hs₁
    cases e with
    | helperError _ =>
        dsimp only at h
        rw [returns_bind] at h
        obtain ⟨_, s₂, h₂, h⟩ := h
        obtain ⟨rfl, rfl⟩ := returns_pure.mp h
        have hcontainer : Preserves (writeTombstone .request identifier blocked) env
            fun c => c.container = s₁.container :=
          preserves_writeTombstone fun _ _ _ hc _ => hc
        obtain ⟨n, hn, -⟩ := h₂.of_wp (writeTombstone_done .request identifier blocked env s₁) rfl
        exact ⟨h₂.of_wp (hcontainer s₁ rfl), by simp, fun _ hf => ⟨⟨n, hn⟩, hmissing hf⟩⟩
    | osError | timeoutExpired | other => exact (returns_raise.mp h).elim

/-- The deadline of a readable state, with the errors a round catches. -/
theorem sweepDeadline_returns {text : DeadlineText} {s s' : Cell} {deadline : Option Time}
    (h : Returns (onHelperError (some <$> parseDeadline text) (pure none)) env s deadline s') :
    s' = s ∧ ∀ t, deadline = some t ↔ text = .instant t := by
  cases text with
  | instant t =>
      cases h
      exact ⟨rfl, fun t' => by simp⟩
  | missing | malformed | naive =>
      cases h
      exact ⟨rfl, fun t' => by simp⟩
  | outOfRange => cases h

/-- Expiring at or after the deadline removes the workload behind a fence, or
does nothing when the state file does not agree with the generation. -/
theorem expireInstance_returns {p : Phase} {g : ℤ} {s s' : Cell} {st : InstanceState} {t : Time}
    (hfile : s.stateFile = .document st) (ht : st.expiresAt = .instant t)
    (hlate : t ≤ env.now) (h : Returns (expireInstance p identifier g) env s ⟨⟩ s') :
    st.generation.equalsInt g = false ∧ s' = s ∨
    st.generation.equalsInt g = true ∧ s'.container = none ∧
      ∃ n, Cell.tombstoneGeneration identifier s' = some n := by
  unfold expireInstance at h
  rw [returns_ite] at h
  obtain ⟨-, h⟩ | ⟨-, h⟩ := h
  · exact (returns_raise.mp h).elim
  rw [returns_bind] at h
  obtain ⟨state, s₁, h₁, h⟩ := h
  obtain ⟨rfl, hsome, hnone, -⟩ := h₁.of_wp (wp_readState p identifier s)
  cases state with
  | none =>
      rw [hnone rfl] at hfile
      cases hfile
  | some st' =>
      obtain ⟨hfile', -⟩ := hsome st' rfl
      cases hfile.symm.trans hfile'
      dsimp only at h
      rw [returns_ite] at h
      obtain ⟨hne, h⟩ | ⟨heq, h⟩ := h
      · exact .inl ⟨by simpa using hne, (returns_pure.mp h).2⟩
      · refine .inr ⟨by simpa using heq, ?_⟩
        rw [returns_bind] at h
        obtain ⟨t', s₂, h₂, h⟩ := h
        obtain ⟨rfl, ht'⟩ := h₂.of_yields (yields_parseDeadline _)
        cases ht.symm.trans ht'
        rw [returns_bind] at h
        obtain ⟨now, s₃, h₃, h⟩ := h
        obtain ⟨rfl, rfl⟩ := returns_read.mp h₃
        rw [returns_ite] at h
        have hclock : t ≤ env.clock .expire + seconds 1 :=
          Int.le_trans (Int.le_trans hlate (env.now_le_clock .expire))
            (Int.le_add_of_nonneg_right (by decide))
        obtain ⟨hearly, h⟩ | ⟨-, h⟩ := h
        · exact absurd hclock (Int.not_le.mpr hearly)
        rw [returns_bind] at h
        obtain ⟨_, s₄, h₄, h⟩ := h
        obtain ⟨n, hn, -⟩ := h₄.of_wp (writeTombstone_done p identifier g env s₃) rfl
        have hfenced : Kept identifier env (Fenced identifier False s₄ n) fun _ => True :=
          fenced_kept False.elim
        rw [returns_bind] at h
        obtain ⟨_, s₅, h₅, h⟩ := h
        have hgone := h₅.of_wp (removeWorkloadVerified_done p env s₄) rfl
        have hfenced₅ := h₅.of_wp (hfenced.removeWorkloadVerified p s₄ (Fenced.refl hn))
        obtain ⟨n', hn', -⟩ := (h.of_wp (hfenced.removeState p s₅ hfenced₅)).tombstone
        exact ⟨h.of_wp ((removed_kept identifier env).removeState p s₅ hgone), n', hn'⟩

/-- The part of a round for a container with a readable state leaves a swept
cell, or one it should not have kept, with the state file as it was. -/
theorem sweepReadable_returns {container : Container} {st : InstanceState} {g : ℤ}
    {s s' : Cell} {r : Swept} (hfile : s.stateFile = .document st)
    (h : Returns (sweepInstance.sweepReadable env.now identifier container st g) env s r s') :
    (∀ t, st.expiresAt = .instant t → t ≤ env.now → st.generation.equalsInt g = true →
      Cell.Swept identifier env.now s s') ∧
    ((∀ t, st.expiresAt ≠ .instant t) → Cell.Swept identifier env.now s s') ∧
    (∀ t, st.expiresAt = .instant t → env.now < t →
      s'.container = s.container ∧ s'.stateFile = s.stateFile ∧
        s'.tombstoneFile = s.tombstoneFile ∧ s'.timers (some g) ≠ none) ∧
    (∀ t, st.expiresAt = .instant t → t ≤ env.now → st.generation.equalsInt g = false →
      s' = s) := by
  unfold sweepInstance.sweepReadable at h
  rw [returns_bind] at h
  obtain ⟨deadline, s₁, h₁, h⟩ := h
  obtain ⟨rfl, hdeadline⟩ := sweepDeadline_returns h₁
  cases deadline with
  | none =>
      have hnone (t : Time) : st.expiresAt ≠ .instant t := fun ht => by
        cases (hdeadline t).mpr ht
      dsimp only at h
      rw [returns_bind] at h
      obtain ⟨_, s₂, h₂, h⟩ := h
      obtain ⟨hgone, hfence⟩ :=
        h₂.of_wp (removeIrrecoverable_done .request identifier container env s₁) rfl
      obtain ⟨-, rfl⟩ := returns_pure.mp h
      exact ⟨fun t ht => absurd ht (hnone t), fun _ => swept_of_removed hgone hfence,
        fun t ht => absurd ht (hnone t), fun t ht => absurd ht (hnone t)⟩
  | some t =>
      have ht : st.expiresAt = .instant t := (hdeadline t).mp rfl
      have hsame {t' : Time} (ht' : st.expiresAt = .instant t') : t' = t := by
        cases ht.symm.trans ht'
        rfl
      dsimp only at h
      rw [returns_ite] at h
      obtain ⟨hlate, h⟩ | ⟨hahead, h⟩ := h
      · rw [returns_bind] at h
        obtain ⟨_, s₂, h₂, h⟩ := h
        obtain ⟨-, rfl⟩ := returns_pure.mp h
        refine ⟨fun _ _ _ heq => ?_, fun hne => absurd ht (hne t), fun t' ht' hlt => ?_,
          fun _ _ _ hne => ?_⟩
        · rcases expireInstance_returns hfile ht hlate h₂ with ⟨hne, -⟩ | ⟨-, hgone, hfence⟩
          · rw [hne] at heq
            cases heq
          · exact swept_of_removed hgone hfence
        · rw [hsame ht'] at hlt
          exact absurd hlate (Int.not_le.mpr hlt)
        · rcases expireInstance_returns hfile ht hlate h₂ with ⟨-, heq⟩ | ⟨heq, -⟩
          · exact heq
          · rw [hne] at heq
            cases heq
      · refine ⟨fun t' ht' hle => ?_, fun hne => absurd ht (hne t), fun _ _ _ => ?_,
          fun t' ht' hle => ?_⟩
        · exact absurd (hsame ht' ▸ hle) hahead
        · rw [returns_bind] at h
          obtain ⟨active, s₂, h₂, h⟩ := h
          obtain ⟨hs₂, hprobe⟩ := h₂.of_wp (command_spec .request .sweepProbe id _ env s₁)
          obtain rfl : s₂ = s₁ := by
            rcases hs₂ with h | h <;> exact h
          rw [returns_ite] at h
          obtain ⟨hactive, h⟩ | ⟨-, h⟩ := h
          · obtain ⟨-, rfl⟩ := returns_pure.mp h
            obtain ⟨-, hsome⟩ := hprobe (by rw [hactive])
            exact ⟨rfl, rfl, rfl, Option.isSome_iff_ne_none.mp hsome⟩
          · rw [returns_bind] at h
            obtain ⟨_, s₃, h₃, h⟩ := h
            obtain ⟨-, rfl⟩ := returns_pure.mp h
            have hchanges := h₃.of_wp (scheduleTimer_changes .request g t s₂)
            exact ⟨hchanges.container, hchanges.stateFile, hchanges.tombstoneFile,
              (h₃.of_wp (scheduleTimer_done .request g t s₂)).2 rfl⟩
        · exact absurd (hsame ht' ▸ hle) hahead

/-- A round for a container whose generation is known sweeps it exactly when it
does not overlook it. -/
theorem sweepReadable_swept {container : Container} {st : InstanceState} {g : ℤ}
    {s s' : Cell} {r : Swept} (hcontainer : s.container = some container)
    (hfile : s.stateFile = .document st) (hid : st.instanceId = identifier)
    (hmissing : s.tombstoneFile = .missing)
    (htombstone : env.fault .request .readTombstone = .none)
    (hread : env.fault .request .readState = .none)
    (hg : stateGeneration (some st) (some container) = some g)
    (h : Returns (sweepInstance.sweepReadable env.now identifier container st g) env s r s') :
    Cell.Swept identifier env.now s s' ↔ ¬ Overlooked identifier env s := by
  obtain ⟨hexpired, hundated, hahead, hkept⟩ := sweepReadable_returns hfile h
  have hunique {c : Container} {st' : InstanceState} (hc : s.container = some c)
      (hst' : s.stateFile = .document st') : c = container ∧ st' = st := by
    cases hcontainer.symm.trans hc
    cases hfile.symm.trans hst'
    exact ⟨rfl, rfl⟩
  cases hown : stateGeneration (some st) none with
  | some g' =>
      -- the state file has the generation: nothing is overlooked
      obtain ⟨hgeneration, hpos⟩ := stateGeneration_none.mp hown
      cases (stateGeneration_valid hgeneration hpos _).symm.trans hg
      have hequals : st.generation.equalsInt g = true := by simp [hgeneration, Raw.equalsInt]
      refine iff_of_true ?_ ?_
      · cases hdeadline : st.expiresAt with
        | instant t =>
            by_cases hlate : t ≤ env.now
            · exact hexpired t hdeadline hlate hequals
            · obtain ⟨-, hfile', hmissing', htimer⟩ := hahead t hdeadline (Int.not_le.mp hlate)
              refine ⟨fun _ => ⟨hmissing'.trans hmissing, st, g, t, hfile'.trans hfile, hid,
                hgeneration, hpos, hdeadline, Int.not_le.mp hlate, htimer⟩,
                fun _ st' t' hst' ht' hle => ?_⟩
              cases hfile.symm.trans hst'
              cases hdeadline.symm.trans ht'
              exact absurd hle hlate
        | missing | malformed | naive | outOfRange =>
            exact hundated fun t ht => by cases hdeadline.symm.trans ht
      · rintro ⟨c, st', g, t, hc, hst', -, hnone, -⟩
        obtain ⟨-, rfl⟩ := hunique hc hst'
        cases hown.symm.trans hnone
  | none =>
      rw [stateGeneration_label hown] at hg
      obtain ⟨hlabel, hpos⟩ := Option.filter_eq_some_iff.mp hg
      have hlabelled : container.generationLabel = some g := by simpa using hlabel
      rw [decide_eq_true_eq] at hpos
      have hiff (t : Time) (hdeadline : st.expiresAt = .instant t) :
          Overlooked identifier env s ↔ ¬ (t ≤ env.now ∧ st.generation.equalsInt g = true) := by
        constructor
        · rintro ⟨c, st', g', t', hc, hst', -, -, hg', -, ht', -, -, -, hnot⟩
          obtain ⟨rfl, rfl⟩ := hunique hc hst'
          cases hlabelled.symm.trans hg'
          cases hdeadline.symm.trans ht'
          exact hnot
        · exact fun hnot => ⟨container, st, g, t, hcontainer, hfile, hid, hown, hlabelled, hpos,
            hdeadline, hmissing, htombstone, hread, hnot⟩
      cases hdeadline : st.expiresAt with
      | instant t =>
          rw [hiff t hdeadline, not_not]
          refine ⟨fun hswept => ?_, fun hboth => hexpired t hdeadline hboth.1 hboth.2⟩
          by_contra hnot
          -- the container is kept with the state file as it was
          obtain ⟨hcontainer', hfile'⟩ : s'.container = s.container ∧ s'.stateFile = s.stateFile := by
            by_cases hlate : t ≤ env.now
            · have hdiffers : st.generation.equalsInt g = false := by
                cases hequals : st.generation.equalsInt g with
                | false => rfl
                | true => exact absurd ⟨hlate, hequals⟩ hnot
              rw [hkept t hdeadline hlate hdiffers]
              exact ⟨rfl, rfl⟩
            · obtain ⟨hcontainer', hfile', -⟩ := hahead t hdeadline (Int.not_le.mp hlate)
              exact ⟨hcontainer', hfile'⟩
          obtain ⟨-, st', g', -, hst', -, hgeneration, hpos', -⟩ :=
            hswept.kept (by rw [hcontainer', hcontainer]; simp)
          cases hfile.symm.trans (hfile'.symm.trans hst')
          cases hown.symm.trans (stateGeneration_none.mpr ⟨hgeneration, hpos'⟩)
      | missing | malformed | naive | outOfRange =>
          have hnone (t : Time) : st.expiresAt ≠ .instant t := fun ht => by
            cases hdeadline.symm.trans ht
          refine iff_of_true (hundated hnone) ?_
          rintro ⟨c, st', g', t', hc, hst', -, -, -, -, ht', -⟩
          obtain ⟨rfl, rfl⟩ := hunique hc hst'
          exact hnone t' ht'

/-- A round that returns sweeps its UUID exactly when it does not overlook
it. -/
theorem sweepInstance_returns {s s' : Cell} {r : Swept}
    (hlabel : ∀ c, s.container = some c → c.instanceLabel = some identifier)
    (h : Returns (sweepInstance identifier) env s r s') :
    Cell.Swept identifier env.now s s' ↔ ¬ Overlooked identifier env s := by
  unfold sweepInstance at h
  rw [returns_bind] at h
  obtain ⟨now, s₀, h₀, h⟩ := h
  obtain ⟨rfl, rfl⟩ := returns_read.mp h₀
  rw [returns_bind] at h
  obtain ⟨inspection, s₁, h₁, h⟩ := h
  obtain ⟨rfl, hinspection, -⟩ := h₁.of_yields yields_inspectRaw
  rw [returns_bind] at h
  obtain ⟨state, s₂, h₂, h⟩ := h
  obtain ⟨rfl, hstate⟩ := h₂.of_yields yields_readStateOrNone
  have hread (st : InstanceState) (hfault : env.fault .request .readState = .none)
      (hfile : s₂.stateFile = .document st) (hid : st.instanceId = identifier) :
      state = some st :=
    (h₂.unique (readStateOrNone_readable hfault hfile hid)).1
  dsimp only at h
  rw [returns_bind] at h
  obtain ⟨fenced, s₃, h₃, h⟩ := h
  obtain ⟨hcontainer₃, hnone₃, hsome₃⟩ := sweepTombstone_returns h₃
  cases fenced with
  | some n =>
      obtain ⟨⟨n', hn'⟩, hnot⟩ := hsome₃ n rfl
      dsimp only at h
      rw [returns_bind] at h
      obtain ⟨_, s₄, h₄, h⟩ := h
      have hfenced : Kept identifier env (Fenced identifier False s₃ n') fun _ => True :=
        fenced_kept False.elim
      have hgone := h₄.of_wp (removeWorkloadVerified_done .request env s₃) rfl
      have hfenced₄ := h₄.of_wp (hfenced.removeWorkloadVerified .request s₃ (Fenced.refl hn'))
      have hrest {P : Cell → Prop} (k : Kept identifier env P fun _ => True) :
          Preserves (do
            cancelTimer .request (some n)
            cancelOther .request (some n) (stateGeneration state none)
            cancelTimer .request none
            removeState .request
            pure (if inspection.isSome then Swept.removed else Swept.kept)) env P :=
        (k.cancelTimer .request _).bind fun _ => (k.cancelOther .request _ _).bind fun _ =>
          (k.cancelTimer .request _).bind fun _ => (k.removeState .request).bind fun _ =>
          preserves_pure _
      obtain ⟨n'', hn'', -⟩ := (h.of_wp (hrest hfenced s₄ hfenced₄)).tombstone
      refine iff_of_true (swept_of_removed
        (h.of_wp (hrest (removed_kept identifier env) s₄ hgone)) ⟨n'', hn''⟩) ?_
      rintro ⟨-, -, -, -, -, -, -, -, -, -, -, hmissing, htombstone, -⟩
      exact hnot ⟨hmissing, htombstone⟩
  | none =>
      obtain ⟨rfl, hmissing, htombstone⟩ := hnone₃ rfl
      rcases inspection with _ | container
      · have k := removed_kept identifier env
        have hfence : Preserves (sweepInstance.fenceKnown identifier (stateGeneration state none))
            env fun c => c.container = none := by
          cases stateGeneration state none with
          | none => exact preserves_pure _
          | some g => exact k.writeTombstone .request g
        have hround : Preserves (do
            sweepInstance.fenceKnown identifier (stateGeneration state none)
            removeNetworkVerified .request
            removeState .request
            cancelOther .request none (stateGeneration state none)
            cancelTimer .request none
            pure Swept.kept) env fun c => c.container = none :=
          hfence.bind fun _ => (k.removeNetworkVerified .request).bind fun _ =>
            (k.removeState .request).bind fun _ => (k.cancelOther .request _ _).bind fun _ =>
            (k.cancelTimer .request _).bind fun _ => preserves_pure _
        have hgone : s'.container = none := h.of_wp (hround s₃ hinspection.symm)
        refine iff_of_true ⟨fun hc => absurd hgone hc, fun hc => absurd hinspection.symm hc⟩ ?_
        rintro ⟨c, -, -, -, hc, -⟩
        rw [← hinspection] at hc
        cases hc
      · dsimp only at h
        rw [returns_ite] at h
        obtain ⟨hwrong, h⟩ | ⟨-, h⟩ := h
        · exact absurd (hlabel container hinspection.symm) hwrong
        have hremoved (h : Returns (do
            removeIrrecoverable .request identifier container
            pure Swept.removed) env s₃ r s') : Cell.Swept identifier env.now s₃ s' := by
          rw [returns_bind] at h
          obtain ⟨_, s₄, h₄, h⟩ := h
          obtain ⟨-, rfl⟩ := returns_pure.mp h
          obtain ⟨hgone, hfence⟩ :=
            h₄.of_wp (removeIrrecoverable_done .request identifier container env s₃) rfl
          exact swept_of_removed hgone hfence
        rcases state with _ | st
        · refine iff_of_true (hremoved h) ?_
          rintro ⟨-, st, -, -, -, hfile, hid, -, -, -, -, -, -, hfault, -⟩
          cases hread st hfault hfile hid
        · obtain ⟨hfile, hid, hfault⟩ := hstate st rfl
          dsimp only at h
          cases hg : stateGeneration (some st) (some container) with
          | none =>
              rw [hg] at h
              refine iff_of_true (hremoved h) ?_
              rintro ⟨c, st', g, -, hc, hst', -, hown, hlabelled, hpos, -⟩
              cases hinspection.trans hc
              cases hfile.symm.trans hst'
              rw [stateGeneration_label hown, stateGeneration.labelGeneration, Option.bind_some,
                hlabelled, Option.filter_some, if_pos (by simpa using hpos)] at hg
              cases hg
          | some g =>
              rw [hg] at h
              exact sweepReadable_swept hinspection.symm hfile hid hmissing htombstone hfault hg h

/-! ## The whole sweep -/

/-- The sweep finds the UUID: a state file, a managed container (one with an
identity label) or a managed network is there. -/
def Cell.listed (s : Cell) : Bool :=
  s.stateFile ≠ .missing || s.network ||
    (match s.container with
      | some c => c.instanceLabel.isSome
      | none => false)

/-- A runtime host: a cell for each UUID, and finitely many UUIDs outside which
nothing is listed. -/
structure Host where
  cell : Uuid → Cell
  uuids : List Uuid
  finite : ∀ u, Cell.listed (cell u) = true → u ∈ uuids

/-- Replace the cell of one UUID. -/
def Host.put (host : Host) (u : Uuid) (s : Cell) : Host where
  cell := Function.update host.cell u s
  uuids := u :: host.uuids
  finite v hv := by
    by_cases h : v = u
    · exact h ▸ List.mem_cons_self
    · rw [Function.update_of_ne h] at hv
      exact List.mem_cons_of_mem _ (host.finite v hv)

@[simp] theorem Host.put_cell_self (host : Host) (u : Uuid) (s : Cell) :
    (host.put u s).cell u = s := Function.update_self ..

theorem Host.put_cell_of_ne {u v : Uuid} (h : v ≠ u) (host : Host) (s : Cell) :
    (host.put u s).cell v = host.cell v := Function.update_of_ne h ..

/-- `sorted(identifiers)`. -/
def Host.identifiers (host : Host) : List Uuid :=
  (host.uuids.dedup.filter fun u => Cell.listed (host.cell u)).insertionSort (· ≤ ·)

theorem Host.mem_identifiers {host : Host} {u : Uuid} :
    u ∈ host.identifiers ↔ Cell.listed (host.cell u) = true := by
  simp only [identifiers, List.mem_insertionSort, List.mem_filter, List.mem_dedup]
  exact ⟨fun h => h.2, fun h => ⟨host.finite u h, h⟩⟩

theorem Host.nodup_identifiers (host : Host) : host.identifiers.Nodup :=
  (List.perm_insertionSort _ _).nodup_iff.mpr ((List.nodup_dedup _).filter _)

/-- What the outside world decides during a sweep. -/
structure SweepEnv where
  now : Time
  /-- the directory, the containers and the networks are listed -/
  listing : Bool
  /-- the lock of the UUID is taken -/
  locks : Uuid → Bool
  round : Uuid → Env
  /-- the line `f"{identifier}: {error}"` -/
  describe : Uuid → Exc → String

/-- The environment of one round, with the clock reading of the sweep. -/
def SweepEnv.at (env : SweepEnv) (u : Uuid) : Env := { env.round u with now := env.now }

/-- The counters of a sweep. -/
structure Tally where
  checked : ℕ := 0
  removed : ℕ := 0
  rearmed : ℕ := 0
  failures : List String := []
  deriving DecidableEq

/-- Count a round that returned. -/
def Tally.count (tally : Tally) : Swept → Tally
  | .kept => { tally with checked := tally.checked + 1 }
  | .removed => { tally with checked := tally.checked + 1, removed := tally.removed + 1 }
  | .rearmed => { tally with checked := tally.checked + 1, rearmed := tally.rearmed + 1 }

/-- Count a round that failed. -/
def Tally.fail (tally : Tally) (line : String) : Tally :=
  { tally with checked := tally.checked + 1, failures := tally.failures ++ [line] }

/-- The exceptions `sweep_instances` collects. -/
def Exc.collected : Exc → Bool
  | .other => false
  | _ => true

/-- The loop of `sweep_instances`. -/
def sweepRounds (env : SweepEnv) : List Uuid → Tally → Host → Outcome Exc Tally × Host
  | [], tally, host => (.done tally, host)
  | u :: rest, tally, host =>
    if ¬ env.locks u then sweepRounds env rest (tally.fail (env.describe u .osError)) host
    else
      match sweepInstance u (env.at u) (host.cell u) with
      | (.done r, s) => sweepRounds env rest (tally.count r) (host.put u s)
      | (.raised e, s) =>
        if Exc.collected e then
          sweepRounds env rest (tally.fail (env.describe u e)) (host.put u s)
        else (.raised e, host.put u s)
      | (.halted, s) => (.halted, host.put u s)

/-- `sweep_instances`. -/
def sweepInstances (env : SweepEnv) (host : Host) : Outcome Exc Tally × Host :=
  if ¬ env.listing then (.raised (.helperError "command failed"), host)
  else
    match sweepRounds env host.identifiers {} host with
    | (.done tally, host') =>
      if tally.failures = [] then (.done tally, host')
      else
        (.raised (.helperError ("runtime sweep failures: " ++
          "; ".intercalate (tally.failures.take 10))), host')
    | r => r

/-- A sweep that ends without failures ran every round to its end, each on the
cell its UUID had before the sweep. -/
theorem sweepRounds_done {env : SweepEnv} {us : List Uuid} {tally tally' : Tally}
    {host host' : Host} (hnodup : us.Nodup)
    (h : sweepRounds env us tally host = (.done tally', host'))
    (hclean : tally'.failures = []) :
    tally.failures = [] ∧
    (∀ u ∈ us, ∃ r, Returns (sweepInstance u) (env.at u) (host.cell u) r (host'.cell u)) ∧
    ∀ u, u ∉ us → host'.cell u = host.cell u := by
  induction us generalizing tally host with
  | nil =>
      cases h
      exact ⟨hclean, by simp, fun _ _ => rfl⟩
  | cons u rest ih =>
      obtain ⟨hu, hrest⟩ := List.nodup_cons.mp hnodup
      have hfailed {line : String} : (tally.fail line).failures ≠ [] := by
        simp [Tally.fail]
      unfold sweepRounds at h
      split at h
      · exact absurd (ih hrest h).1 hfailed
      · split at h
        · rename_i r s hround
          obtain ⟨hclean', hrounds, hothers⟩ := ih hrest h
          refine ⟨?_, fun v hv => ?_, fun v hv => ?_⟩
          · cases r <;> exact hclean'
          · rcases List.mem_cons.mp hv with rfl | hv
            · rw [hothers v hu, Host.put_cell_self]
              exact ⟨r, hround⟩
            · obtain ⟨r', hr'⟩ := hrounds v hv
              have hne : v ≠ u := fun heq => hu (heq ▸ hv)
              rw [Host.put_cell_of_ne hne] at hr'
              exact ⟨r', hr'⟩
          · obtain ⟨hne, hv⟩ := not_or.mp (List.mem_cons.not.mp hv)
            rw [hothers v hv, Host.put_cell_of_ne hne]
        · split at h
          · exact absurd (ih hrest h).1 hfailed
          · cases h
        · cases h

/-- **When a successful sweep keeps its promise.**  After `sweep_instances`
returns, every container that is left is unfenced with a readable state file, a
positive generation, a deadline ahead and a timer of that generation, and every
container whose recorded deadline had passed is gone behind a fence, exactly when
no container was overlooked. -/
theorem sweepInstances_sweeps (env : SweepEnv) (host host' : Host) (tally : Tally)
    (hlabel : ∀ u c, (host.cell u).container = some c → c.instanceLabel = some u)
    (h : sweepInstances env host = (.done tally, host')) :
    (∀ u, Cell.Swept u env.now (host.cell u) (host'.cell u)) ↔
      ∀ u, ¬ Overlooked u (env.at u) (host.cell u) := by
  unfold sweepInstances at h
  split at h
  · cases h
  split at h
  · rename_i tally' host₁ hrounds
    split at h
    · rename_i hclean
      cases h
      obtain ⟨-, hvisited, hothers⟩ := sweepRounds_done host.nodup_identifiers hrounds hclean
      refine forall_congr' fun u => ?_
      by_cases hu : u ∈ host.identifiers
      · obtain ⟨r, hr⟩ := hvisited u hu
        exact sweepInstance_returns (hlabel u) hr
      · -- an unlisted UUID has no container
        have hgone : (host.cell u).container = none := by
          cases hc : (host.cell u).container with
          | none => rfl
          | some c =>
              refine absurd (Host.mem_identifiers.mpr ?_) hu
              simp [Cell.listed, hc, hlabel u c hc]
        rw [hothers u hu]
        refine iff_of_true ⟨fun hc => absurd hgone hc, fun hc => absurd hgone hc⟩ ?_
        rintro ⟨c, -, -, -, hc, -⟩
        rw [hgone] at hc
        cases hc
    · cases h
  · rename_i hnot
    exact absurd h (hnot tally host')

/-- A host with one instance. -/
def hostOf (s : Cell) : Host where
  cell := fun u => if u = 1 then s else .pristine
  uuids := [1]
  finite u hu := by
    by_cases h : u = 1
    · simp [h]
    · rw [if_neg h] at hu
      cases hu

theorem hostOf_labels {s : Cell} (h : ∀ c, s.container = some c → c.instanceLabel = some 1) :
    ∀ u c, ((hostOf s).cell u).container = some c → c.instanceLabel = some u := by
  intro u c hc
  by_cases hu : u = 1
  · subst hu
    exact h c hc
  · have hcell : (hostOf s).cell u = .pristine := if_neg hu
    rw [hcell] at hc
    cases hc

/-- A sweep in good order at `n` seconds. -/
def sweepAt (n : ℤ) : SweepEnv where
  now := seconds n
  listing := true
  locks := fun _ => true
  round := fun _ => calm
  describe := fun _ _ => ""

/-- A sweep of a host with an armed container. -/
theorem sweepInstances_sweeps_armed :
    (∀ u, Cell.Swept u (seconds 50) ((hostOf armed).cell u)
      ((sweepInstances (sweepAt 50) (hostOf armed)).2.cell u)) ↔
    ∀ u, ¬ Overlooked u ((sweepAt 50).at u) ((hostOf armed).cell u) :=
  sweepInstances_sweeps (sweepAt 50) (hostOf armed) _ { checked := 1 }
    (hostOf_labels fun c hc => by cases hc; rfl) rfl

/-- The state file of the armed container with a generation that is not an
integer. -/
def mislabelled : Cell :=
  { armed with
    stateFile := .document ⟨1, .text "1", .instant (seconds 100), some plainDeployment, .null⟩ }

/-- A sweep long after the deadline succeeds and leaves the container running. -/
theorem sweepInstances_overlooks :
    ¬ ∀ (env : SweepEnv) (host host' : Host) (tally : Tally),
      (∀ u c, (host.cell u).container = some c → c.instanceLabel = some u) →
      sweepInstances env host = (.done tally, host') →
      ∀ u, Cell.Swept u env.now (host.cell u) (host'.cell u) := by
  intro h
  have hswept := h (sweepAt 200) (hostOf mislabelled)
    (sweepInstances (sweepAt 200) (hostOf mislabelled)).2 { checked := 1, removed := 1 }
    (hostOf_labels fun c hc => by cases hc; rfl) rfl 1
  have hremains : ((sweepInstances (sweepAt 200) (hostOf mislabelled)).2.cell 1).container =
      armed.container := rfl
  obtain ⟨hgone, -⟩ := hswept.expired (fun hc => by cases hc)
    ⟨1, .text "1", .instant (seconds 100), some plainDeployment, .null⟩ (seconds 100) rfl rfl
    (by decide)
  cases hremains.symm.trans hgone

end Helper

end CtfZone
