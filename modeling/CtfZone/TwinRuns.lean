/-
# Pairs of runs

A small library for statements about two runs of a program in the same
environment.  `Twins R m m'` says that two programs, started from worlds that
are related by `R`, return the same value or exception and leave worlds that are
related; it is closed under every constructor, so that a program whose steps are
twins has twin runs.
-/
import CtfZone.Effects

namespace Effects.Prog

universe u v

variable {ρ : Type v} {ε σ α β : Type u} {R : σ → σ → Prop}

/-- From related worlds the two programs end alike, in related worlds. -/
def Twins (R : σ → σ → Prop) (m m' : Prog ρ ε σ α) : Prop :=
  ∀ env s s', R s s' → (m env s).1 = (m' env s').1 ∧ R (m env s).2 (m' env s').2

theorem twins_pure (a : α) : Twins R (Pure.pure a : Prog ρ ε σ α) (Pure.pure a) :=
  fun _ _ _ h => ⟨rfl, h⟩

theorem twins_raise (e : ε) : Twins R (raise e : Prog ρ ε σ α) (raise e) :=
  fun _ _ _ h => ⟨rfl, h⟩

theorem twins_read (f : ρ → α) : Twins R (read f : Prog ρ ε σ α) (read f) :=
  fun _ _ _ h => ⟨rfl, h⟩

theorem Twins.bind {m m' : Prog ρ ε σ α} {f f' : α → Prog ρ ε σ β} (hm : Twins R m m')
    (hf : ∀ a, Twins R (f a) (f' a)) : Twins R (m >>= f) (m' >>= f') := by
  intro env s s' h
  obtain ⟨hvalue, hworld⟩ := hm env s s' h
  change (Prog.bind m f env s).1 = (Prog.bind m' f' env s').1 ∧
    R (Prog.bind m f env s).2 (Prog.bind m' f' env s').2
  unfold Prog.bind
  rcases hleft : m env s with ⟨_ | _ | _, s₁⟩ <;> rcases hright : m' env s' with ⟨o, s₁'⟩ <;>
    rw [hleft, hright] at hvalue hworld <;> cases hvalue
  · exact hf _ env s₁ s₁' hworld
  · exact ⟨rfl, hworld⟩
  · exact ⟨rfl, hworld⟩

theorem Twins.ite {p : Prop} [Decidable p] {m m' n n' : Prog ρ ε σ α} (hm : p → Twins R m m')
    (hn : ¬ p → Twins R n n') : Twins R (if p then m else n) (if p then m' else n') := by
  split
  · exact hm ‹_›
  · exact hn ‹_›

end Effects.Prog
