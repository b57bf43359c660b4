/-
# What the replies of the helper say

The controller acts on two replies: that a workload is absent, and the
generation at which it runs.  A reply that says absent is true, and a reply of
`stop-instance` that says so leaves a fence behind; a reply that says otherwise
reports the generation of the state file.
-/
import CtfZone.HelperFence

open Effects Effects.Prog

namespace CtfZone.Helper

variable {identifier : Uuid} {env : Env} {s s' : Cell} {reply : Reply}

theorem returns_inspectRaw {p : Phase} {st : Step} {inspection : Option Container}
    (h : Returns (inspectRaw p st) env s inspection s') : inspection = s.container ∧ s' = s :=
  ⟨(h.of_wp (yields_inspectRaw s rfl)).2 inspection rfl |>.1,
    (h.of_wp (yields_inspectRaw s rfl)).1⟩

theorem returns_readStateOrNone {p : Phase} {state : Option InstanceState}
    (h : Returns (readStateOrNone p identifier) env s state s') :
    s' = s ∧ ∀ st, state = some st → s.stateFile = .document st := by
  obtain ⟨rfl, hstate⟩ := h.of_wp (wp_readStateOrNone p identifier s)
  exact ⟨rfl, fun st hst => (hstate st (by rw [hst])).1⟩

/-- The container is gone behind a fence. -/
def Cell.Removed (identifier : Uuid) (s : Cell) : Prop :=
  s.container = none ∧ ∃ n, Cell.tombstoneGeneration identifier s = some n

theorem returns_removeIrrecoverable {p : Phase} {inspection : Container} {a : PUnit}
    (h : Returns (removeIrrecoverable p identifier inspection) env s a s') :
    Cell.Removed identifier s' :=
  h.of_wp (removeIrrecoverable_done p identifier inspection env s) rfl

/-- The reply of an inspection: the workload is gone, behind a fence unless it
was gone before, or the reply reports its state. -/
theorem returns_inspectResult {p : Phase}
    (h : Returns (inspectResult p identifier) env s reply s') :
    reply.absent = some true ∧ (s.container = none ∧ s' = s ∨ Cell.Removed identifier s') ∨
      reply.absent = some false ∧ reply.staleGeneration = none ∧ s' = s ∧
        ∃ c st, s.container = some c ∧ s.stateFile = .document st ∧
          reply.effectiveGeneration = stateGeneration (some st) (some c) := by
  unfold inspectResult at h
  obtain ⟨inspection, s₁, hinspect, h⟩ := returns_bind.mp h
  obtain ⟨rfl, rfl⟩ := returns_inspectRaw hinspect
  cases hcontainer : s₁.container with
  | none =>
      rw [hcontainer] at h
      obtain ⟨rfl, rfl⟩ := returns_pure.mp h
      exact .inl ⟨rfl, .inl ⟨rfl, rfl⟩⟩
  | some c =>
      rw [hcontainer] at h
      obtain ⟨state, s₂, hstate, hlabel⟩ := returns_bind.mp h
      obtain ⟨rfl, hdoc⟩ := returns_readStateOrNone hstate
      rcases returns_ite.mp hlabel with ⟨-, hraise⟩ | ⟨-, hreport⟩
      · exact (returns_raise.mp hraise).elim
      · cases state with
        | none =>
            obtain ⟨_, s₃, hremove, hreply⟩ := returns_bind.mp hreport
            obtain ⟨rfl, rfl⟩ := returns_pure.mp hreply
            exact .inl ⟨rfl, .inr (returns_removeIrrecoverable hremove)⟩
        | some st =>
            dsimp only at hreport
            split at hreport
            · exact (returns_raise.mp hreport).elim
            · obtain ⟨hostname, s₃, hread, hreply⟩ := returns_bind.mp hreport
              obtain ⟨-, rfl⟩ := returns_read.mp hread
              obtain ⟨rfl, rfl⟩ := returns_pure.mp hreply
              exact .inr ⟨rfl, rfl, rfl, c, st, rfl, hdoc st rfl, rfl⟩

/-- A `stop-instance` that answers absent has removed the container behind a
fence. -/
theorem returns_stopInstance {request : Request}
    (h : Returns (stopInstance identifier request) env s reply s')
    (habsent : reply.absent = some true) : Cell.Removed identifier s' := by
  unfold stopInstance at h
  obtain ⟨g, s₁, -, hrest⟩ := returns_bind.mp h
  obtain ⟨inspection, s₂, -, hrest⟩ := returns_bind.mp hrest
  obtain ⟨state, s₃, -, hstop⟩ := returns_bind.mp hrest
  dsimp only at hstop
  split at hstop
  · obtain ⟨_, s₄, hremove, hreply⟩ := returns_bind.mp hstop
    obtain ⟨rfl, rfl⟩ := returns_pure.mp hreply
    exact returns_removeIrrecoverable hremove
  · rcases returns_ite.mp hstop with ⟨-, hstale⟩ | ⟨-, hfenced⟩
    · obtain ⟨rfl, -⟩ := returns_pure.mp hstale
      cases habsent
    · obtain ⟨_, s₄, hfence, hremoval⟩ := returns_bind.mp hfenced
      obtain ⟨n, hn, -⟩ := hfence.of_wp (writeTombstone_done _ _ _ env s₃) rfl
      obtain ⟨_, s₅, hremove, hend⟩ := returns_bind.mp hremoval
      have hgone := hremove.of_wp (removeWorkloadVerified_done _ env s₄) rfl
      have hfence : Kept identifier env (Fenced identifier False s₄ n) fun _ => True :=
        fenced_kept False.elim
      have hstill := hremove.of_wp (hfence.removeWorkloadVerified .request s₄ (Fenced.refl hn))
      -- from here on the container stays away and the fence stays up
      have hrest {P : Cell → Prop} (k : Kept identifier env P fun _ => True)
          (other : Option ℤ) (reply : Reply) :
          Preserves (do
            cancelOther .request none other
            cancelTimer .request none
            removeState .request
            pure reply) env P :=
        (k.cancelOther .request none _).bind fun _ => (k.cancelTimer .request none).bind fun _ =>
          (k.removeState .request).bind fun _ => preserves_pure _
      refine ⟨hend.of_wp (hrest (removed_kept identifier env) _ _ s₅ hgone), ?_⟩
      obtain ⟨n', hn', -⟩ := (hend.of_wp (hrest hfence _ _ s₅ hstill)).tombstone
      exact ⟨n', hn'⟩

end CtfZone.Helper
