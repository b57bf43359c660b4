/-
# Runs of a labelled transition system

A transition system is given by a partial step function `ℓ → σ → Option σ`: a
label carries every choice of the environment, and `none` says that the label
is not enabled.

* `run` executes a list of labels, so that a concrete run can be evaluated;
  `runIf` checks a guard at every step.
* `Reach` collects the states reached by steps that all meet a guard on the
  state before the step; `Reach.invariant` is the induction rule.
* `Leads` relates two states of one run, and `Leads.rel` lifts a relation that
  every step respects to whole runs.
-/
import Mathlib.Tactic.Basic

namespace Runs

universe u v

variable {σ : Type u} {ℓ : Type v}

/-- Execute a list of labels from a state. -/
def run (step : ℓ → σ → Option σ) : List ℓ → σ → Option σ
  | [], s => some s
  | l :: ls, s => (step l s).bind (run step ls)

/-- The states reached from an initial state by steps that meet the guard. -/
inductive Reach (step : ℓ → σ → Option σ) (guard : σ → ℓ → Prop) (init : σ → Prop) :
    σ → Prop
  | init {s : σ} : init s → Reach step guard init s
  | step {s s' : σ} (l : ℓ) : Reach step guard init s → guard s l → step l s = some s' →
      Reach step guard init s'

/-- The guard that lets every step pass. -/
def anyStep : σ → ℓ → Prop := fun _ _ => True

/-- `Leads step s s'`: some run takes the system from `s` to `s'`. -/
inductive Leads (step : ℓ → σ → Option σ) (guard : σ → ℓ → Prop) : σ → σ → Prop
  | refl (s : σ) : Leads step guard s s
  | step {s s' s'' : σ} (l : ℓ) : Leads step guard s s' → guard s' l →
      step l s' = some s'' → Leads step guard s s''

/-- Execute a list of labels whose steps all meet the guard. -/
def runIf (step : ℓ → σ → Option σ) (guard : σ → ℓ → Prop) [∀ s l, Decidable (guard s l)] :
    List ℓ → σ → Option σ
  | [], s => some s
  | l :: ls, s => if guard s l then (step l s).bind (runIf step guard ls) else none

variable {step : ℓ → σ → Option σ} {guard : σ → ℓ → Prop} {init : σ → Prop}

/-- **The induction rule for invariants.** -/
theorem Reach.invariant {Inv : σ → Prop} (hinit : ∀ s, init s → Inv s)
    (hstep : ∀ s l s', Inv s → guard s l → step l s = some s' → Inv s') {s : σ}
    (h : Reach step guard init s) : Inv s := by
  induction h with
  | init h => exact hinit _ h
  | step l _ hg hs ih => exact hstep _ l _ ih hg hs

/-- An invariant that needs another one along the way. -/
theorem Reach.invariant_with {Aux Inv : σ → Prop}
    (haux : ∀ s, Reach step guard init s → Aux s) (hinit : ∀ s, init s → Inv s)
    (hstep : ∀ s l s', Aux s → Inv s → guard s l → step l s = some s' → Inv s') {s : σ}
    (h : Reach step guard init s) : Inv s := by
  induction h with
  | init h => exact hinit _ h
  | step l hr hg hs ih => exact hstep _ l _ (haux _ hr) ih hg hs

/-- A run that meets a guard is a run. -/
theorem Reach.weaken {guard' : σ → ℓ → Prop} (hg : ∀ s l, guard s l → guard' s l) {s : σ}
    (h : Reach step guard init s) : Reach step guard' init s := by
  induction h with
  | init h => exact .init h
  | step l _ hgl hs ih => exact .step l ih (hg _ _ hgl) hs

theorem Leads.weaken {guard' : σ → ℓ → Prop} (hg : ∀ s l, guard s l → guard' s l) {s s' : σ}
    (h : Leads step guard s s') : Leads step guard' s s' := by
  induction h with
  | refl => exact .refl s
  | step l _ hgl hs ih => exact .step l ih (hg _ _ hgl) hs

/-- One run after the other. -/
theorem Leads.trans {s s' s'' : σ} (h : Leads step guard s s') (h' : Leads step guard s' s'') :
    Leads step guard s s'' := by
  induction h' with
  | refl => exact h
  | step l _ hguard hstep ih => exact .step l ih hguard hstep

/-- A run continued from a reached state reaches a state. -/
theorem Reach.leads {s s' : σ} (hr : Reach step guard init s) (h : Leads step guard s s') :
    Reach step guard init s' := by
  induction h with
  | refl => exact hr
  | step l _ hg hs ih => exact .step l ih hg hs

/-- A relation between the state before and the state after that every step of
a reachable state respects holds between the ends of every run. -/
theorem Leads.rel {R : σ → σ → Prop} (hrefl : ∀ s, R s s)
    (htrans : ∀ s s' s'', R s s' → R s' s'' → R s s'')
    (hstep : ∀ s l s', Reach step guard init s → guard s l → step l s = some s' → R s s')
    {s s' : σ} (hr : Reach step guard init s) (h : Leads step guard s s') : R s s' := by
  induction h with
  | refl => exact hrefl _
  | step l hl hg hs ih => exact htrans _ _ _ ih (hstep _ l _ (hr.leads hl) hg hs)

/-- An executed list of labels is a run. -/
theorem leads_of_run (ls : List ℓ) {s s' : σ} (h : run step ls s = some s') :
    Leads step anyStep s s' := by
  suffices aux : ∀ t, Leads step anyStep t s → Leads step anyStep t s' from aux s (.refl s)
  induction ls generalizing s with
  | nil =>
      intro t ht
      cases h
      exact ht
  | cons l ls ih =>
      intro t ht
      rw [run, Option.bind_eq_some_iff] at h
      obtain ⟨s₁, h₁, h₂⟩ := h
      exact ih h₂ t (.step l ht trivial h₁)

/-- A state computed by executing labels from an initial state is reachable. -/
theorem reach_of_run (ls : List ℓ) {s s' : σ} (hi : init s) (h : run step ls s = some s') :
    Reach step anyStep init s' :=
  (Reach.init hi).leads (leads_of_run ls h)

/-- An executed list of labels that meet a guard is a run that meets it. -/
theorem leads_of_runIf [∀ s l, Decidable (guard s l)] (ls : List ℓ) {s s' : σ}
    (h : runIf step guard ls s = some s') : Leads step guard s s' := by
  suffices aux : ∀ t, Leads step guard t s → Leads step guard t s' from aux s (.refl s)
  induction ls generalizing s with
  | nil =>
      intro t ht
      cases h
      exact ht
  | cons l ls ih =>
      intro t ht
      rw [runIf] at h
      split at h
      · rename_i hg
        obtain ⟨s₁, h₁, h₂⟩ := Option.bind_eq_some_iff.mp h
        exact ih h₂ t (.step l ht hg h₁)
      · cases h

/-- A state computed by executing labels that meet a guard is reached by it. -/
theorem reach_of_runIf [∀ s l, Decidable (guard s l)] (ls : List ℓ) {s s' : σ}
    (hr : Reach step guard init s) (h : runIf step guard ls s = some s') :
    Reach step guard init s' :=
  hr.leads (leads_of_runIf ls h)

end Runs
