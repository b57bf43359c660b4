/-
# Contracts of fallible programs

A contract bounds what a program of `Effects` does from the worlds that meet a precondition:
`Contract m env P Q R` says that it returns a value `a` only into worlds with `Q a`, and that
it leaves a world with `R` where it raises an exception or is cut off.

* `Contract.bind` : the rule of a sequence, with one `R` for both halves;
* `Unhalted` : a program that is never cut off, so that its exceptions can be caught.
-/
import CtfZone.Effects

namespace Effects

namespace Prog

universe u v

variable {ρ : Type v} {ε σ α β : Type u} {env : ρ}

/-- A run that begins with `P` returns `a` with `Q a`, or ends otherwise with `R`. -/
def Contract (m : Prog ρ ε σ α) (env : ρ) (P : σ → Prop) (Q : α → σ → Prop) (R : σ → Prop) :
    Prop :=
  ∀ s, P s → wp m env s fun o s' => (∀ a, o = .done a → Q a s') ∧ ((∀ a, o ≠ .done a) → R s')

variable {m : Prog ρ ε σ α} {P P' : σ → Prop} {Q Q' : α → σ → Prop} {R R' : σ → Prop}

theorem Contract.done (h : Contract m env P Q R) {s s' : σ} {a : α} (hs : P s)
    (hm : m env s = (.done a, s')) : Q a s' := by
  have hpost := h s hs
  unfold wp at hpost
  rw [hm] at hpost
  exact hpost.1 a rfl

theorem Contract.mono (h : Contract m env P Q R) (hP : ∀ s, P' s → P s)
    (hQ : ∀ a s, Q a s → Q' a s) (hR : ∀ s, R s → R' s) : Contract m env P' Q' R' := by
  intro s hs
  refine wp_mono (h s (hP s hs)) fun o s' hpost => ⟨?_, ?_⟩
  · intro a ha
    exact hQ a s' (hpost.1 a ha)
  · intro ho
    exact hR s' (hpost.2 ho)

theorem Contract.pre (h : Contract m env P Q R) (hP : ∀ s, P' s → P s) : Contract m env P' Q R :=
  h.mono hP (fun _ _ h => h) fun _ h => h

theorem Contract.post (h : Contract m env P Q R) (hQ : ∀ a s, Q a s → Q' a s) :
    Contract m env P Q' R :=
  h.mono (fun _ h => h) hQ fun _ h => h

theorem Contract.otherwise (h : Contract m env P Q R) (hR : ∀ s, R s → R' s) :
    Contract m env P Q R' :=
  h.mono (fun _ h => h) (fun _ _ h => h) hR

/-- Two contracts of one program hold together. -/
theorem Contract.and {P₂ : σ → Prop} {Q₂ : α → σ → Prop} {R₂ : σ → Prop}
    (h : Contract m env P Q R) (h' : Contract m env P₂ Q₂ R₂) :
    Contract m env (fun s => P s ∧ P₂ s) (fun a s => Q a s ∧ Q₂ a s) fun s => R s ∧ R₂ s := by
  intro s hs
  refine wp_mono (wp_and (h s hs.1) (h' s hs.2)) fun o s' hpost => ⟨?_, ?_⟩
  · intro a ha
    exact ⟨hpost.1.1 a ha, hpost.2.1 a ha⟩
  · intro ho
    exact ⟨hpost.1.2 ho, hpost.2.2 ho⟩

/-- A fact about the values before a run is a hypothesis of its contract. -/
theorem contract_and {p : Prop} (h : p → Contract m env P Q R) :
    Contract m env (fun s => p ∧ P s) Q R :=
  fun s hs => h hs.1 s hs.2

theorem contract_exists {ι : Sort*} {P : ι → σ → Prop} (h : ∀ i, Contract m env (P i) Q R) :
    Contract m env (fun s => ∃ i, P i s) Q R :=
  fun s ⟨i, hi⟩ => h i s hi

theorem contract_pure {a : α} (h : ∀ s, P s → Q a s) :
    Contract (Pure.pure a : Prog ρ ε σ α) env P Q R := by
  intro s hs
  refine ⟨?_, fun ho => absurd rfl (ho a)⟩
  rintro _ ⟨⟩
  exact h s hs

theorem contract_raise {e : ε} (h : ∀ s, P s → R s) :
    Contract (raise e : Prog ρ ε σ α) env P Q R :=
  fun s hs => ⟨nofun, fun _ => h s hs⟩

/-- **The rule of a sequence.** -/
theorem Contract.bind {f : α → Prog ρ ε σ β} {Q' : β → σ → Prop} (hm : Contract m env P Q R)
    (hf : ∀ a, Contract (f a) env (Q a) Q' R) : Contract (m >>= f) env P Q' R := by
  intro s hs
  rw [wp_bind]
  refine wp_mono (hm s hs) fun o s' hpost => ?_
  cases o with
  | done a => exact hf a s' (hpost.1 a rfl)
  | raised e => exact ⟨nofun, fun _ => hpost.2 nofun⟩
  | halted => exact ⟨nofun, fun _ => hpost.2 nofun⟩

/-- The handler of an exception starts from what the body leaves. -/
theorem Contract.attempt {h : ε → Prog ρ ε σ α} (hm : Contract m env P Q R)
    (hh : ∀ e, Contract (h e) env R Q R') (hR : ∀ s, R s → R' s) :
    Contract (attempt m h) env P Q R' := by
  intro s hs
  rw [wp_attempt]
  refine wp_mono (hm s hs) fun o s' hpost => ?_
  cases o with
  | done a => exact ⟨hpost.1, fun ho => absurd rfl (ho a)⟩
  | raised e => exact hh e s' (hpost.2 nofun)
  | halted => exact ⟨nofun, fun _ => hR s' (hpost.2 nofun)⟩

theorem Contract.ite {p : Prop} [Decidable p] {m' : Prog ρ ε σ α}
    (hm : p → Contract m env P Q R) (hm' : ¬ p → Contract m' env P Q R) :
    Contract (if p then m else m') env P Q R := by
  by_cases hp : p
  · rw [if_pos hp]
    exact hm hp
  · rw [if_neg hp]
    exact hm' hp

/-- An invariant is a contract. -/
theorem Preserves.contract (h : Preserves m env P) : Contract m env P (fun _ => P) P :=
  fun s hs => ⟨fun _ _ => h s hs, fun _ => h s hs⟩

theorem Contract.preserves (h : Contract m env P Q R) (hQ : ∀ a s, Q a s → P s)
    (hR : ∀ s, R s → P s) : Preserves m env P := by
  intro s hs
  refine wp_mono (h s hs) fun o s' hpost => ?_
  cases o with
  | done a => exact hQ a s' (hpost.1 a rfl)
  | raised e => exact hR s' (hpost.2 nofun)
  | halted => exact hR s' (hpost.2 nofun)

theorem Contract.keeps (h : Contract m env P (fun a s => P s ∧ Q a s) P) : Preserves m env P :=
  h.preserves (fun _ _ hs => hs.1) fun _ hs => hs

/-! ## Programs that are never cut off -/

/-- The program is not cut off, wherever it begins. -/
def Unhalted (m : Prog ρ ε σ α) (env : ρ) : Prop := ∀ s, (m env s).1 ≠ .halted

theorem unhalted_pure (a : α) : Unhalted (Pure.pure a : Prog ρ ε σ α) env := fun _ => nofun

theorem unhalted_raise (e : ε) : Unhalted (raise e : Prog ρ ε σ α) env := fun _ => nofun

theorem unhalted_read (f : ρ → α) : Unhalted (read f : Prog ρ ε σ α) env := fun _ => nofun

theorem Unhalted.bind {f : α → Prog ρ ε σ β} (hm : Unhalted m env)
    (hf : ∀ a, Unhalted (f a) env) : Unhalted (m >>= f) env := by
  intro s
  change (Prog.bind m f env s).1 ≠ .halted
  unfold Prog.bind
  have hs := hm s
  split
  · exact hf _ _
  · exact nofun
  · rename_i s' heq
    rw [heq] at hs
    exact absurd rfl hs

theorem Unhalted.attempt {h : ε → Prog ρ ε σ α} (hm : Unhalted m env)
    (hh : ∀ e, Unhalted (h e) env) : Unhalted (attempt m h) env := by
  intro s
  unfold Prog.attempt
  split
  · exact hh _ _
  · exact hm s

theorem Unhalted.ite {p : Prop} [Decidable p] {m' : Prog ρ ε σ α} (hm : Unhalted m env)
    (hm' : Unhalted m' env) : Unhalted (if p then m else m') env := by
  split
  · exact hm
  · exact hm'

theorem Returns.bind {f : α → Prog ρ ε σ β} {a : α} {b : β} {s s' s'' : σ}
    (hm : Returns m env s a s') (hf : Returns (f a) env s' b s'') :
    Returns (m >>= f) env s b s'' := returns_bind.mpr ⟨a, s', hm, hf⟩

/-- What is never cut off returns, where exceptions are replaced by a value. -/
theorem Unhalted.returns (hm : Unhalted m env) (a : α) (s : σ) :
    ∃ b s', Returns (Prog.attempt m fun _ => Pure.pure a) env s b s' := by
  have hs := hm s
  rcases hrun : m env s with ⟨o, s'⟩
  rw [hrun] at hs
  cases o with
  | done b => exact ⟨b, s', returns_attempt.mpr (.inl hrun)⟩
  | raised e => exact ⟨a, s', returns_attempt.mpr (.inr ⟨e, s', hrun, returns_pure.mpr ⟨rfl, rfl⟩⟩)⟩
  | halted => exact absurd rfl hs

end Prog

end Effects
