/-
# Fallible programs over a mutable world

A small library for programs that read an environment, change a world step by
step, and may at any step raise an exception or be cut off by a crash.  A
program is a function from the environment and the world before it to an
outcome and the world after it, so that a run on concrete data can be
evaluated.

* `Prog.wp` is the predicate transformer of a program; the lemmas `wp_*` push
  it through the constructors, and `wp_mono` is the rule of consequence.
* `Prog.Preserves` says that an invariant of the world survives a program
  however the program ends; it is closed under every constructor.

A crash (`Outcome.halted`) cannot be caught: neither an exception handler nor
a `finally` clause runs after it.
-/
import Mathlib.Tactic.Basic

namespace Effects

universe u v

/-- How a program ends: with a value, with an exception, or cut off. -/
inductive Outcome (ε α : Type u) : Type u
  | done (value : α)
  | raised (error : ε)
  | halted
  deriving DecidableEq

/-- A program reads an environment and turns the world before it into an
outcome and the world after it. -/
def Prog (ρ : Type v) (ε σ α : Type u) : Type (max u v) :=
  ρ → σ → Outcome ε α × σ

namespace Prog

variable {ρ : Type v} {ε σ α β : Type u}

/-- Sequential composition: an exception or a crash skips the rest. -/
def bind (m : Prog ρ ε σ α) (f : α → Prog ρ ε σ β) : Prog ρ ε σ β :=
  fun env s =>
    match m env s with
    | (.done a, s') => f a env s'
    | (.raised e, s') => (.raised e, s')
    | (.halted, s') => (.halted, s')

instance : Monad (Prog ρ ε σ) where
  pure a := fun _ s => (.done a, s)
  bind := bind

/-- Raise an exception. -/
def raise (e : ε) : Prog ρ ε σ α := fun _ s => (.raised e, s)

/-- Read a part of the environment. -/
def read (f : ρ → α) : Prog ρ ε σ α := fun env s => (.done (f env), s)

/-- Look at the world. -/
def look (f : σ → α) : Prog ρ ε σ α := fun _ s => (.done (f s), s)

/-- Change the world. -/
def modify (f : σ → σ) : Prog ρ ε σ PUnit := fun _ s => (.done ⟨⟩, f s)

/-- The `try … except` form: `handler e` runs from the world in which `e` was
raised. -/
def attempt (m : Prog ρ ε σ α) (handler : ε → Prog ρ ε σ α) : Prog ρ ε σ α :=
  fun env s =>
    match m env s with
    | (.raised e, s') => handler e env s'
    | r => r

/-- The `try … finally` form: `cleanup` runs after a value and after an
exception, and an exception of its own replaces what it interrupts. -/
def always (m : Prog ρ ε σ α) (cleanup : Prog ρ ε σ PUnit) : Prog ρ ε σ α :=
  fun env s =>
    match m env s with
    | (.halted, s') => (.halted, s')
    | (o, s') =>
      match cleanup env s' with
      | (.done _, s'') => (o, s'')
      | (.raised e, s'') => (.raised e, s'')
      | (.halted, s'') => (.halted, s'')

/-! ## The predicate transformer -/

/-- `wp m env s Q`: run from world `s`, the program ends in an outcome and a
world that satisfy `Q`. -/
def wp (m : Prog ρ ε σ α) (env : ρ) (s : σ) (Q : Outcome ε α → σ → Prop) : Prop :=
  Q (m env s).1 (m env s).2

/-- The rule of consequence. -/
theorem wp_mono {m : Prog ρ ε σ α} {env : ρ} {s : σ} {Q Q' : Outcome ε α → σ → Prop}
    (h : wp m env s Q) (hQ : ∀ o s', Q o s' → Q' o s') : wp m env s Q' :=
  hQ _ _ h

/-- Two facts about the same run hold together. -/
theorem wp_and {m : Prog ρ ε σ α} {env : ρ} {s : σ} {Q Q' : Outcome ε α → σ → Prop}
    (h : wp m env s Q) (h' : wp m env s Q') : wp m env s (fun o s' => Q o s' ∧ Q' o s') :=
  ⟨h, h'⟩

@[simp] theorem wp_pure (a : α) (env : ρ) (s : σ) (Q : Outcome ε α → σ → Prop) :
    wp (Pure.pure a : Prog ρ ε σ α) env s Q ↔ Q (.done a) s := Iff.rfl

@[simp] theorem wp_raise (e : ε) (env : ρ) (s : σ) (Q : Outcome ε α → σ → Prop) :
    wp (raise e : Prog ρ ε σ α) env s Q ↔ Q (.raised e) s := Iff.rfl

@[simp] theorem wp_read (f : ρ → α) (env : ρ) (s : σ) (Q : Outcome ε α → σ → Prop) :
    wp (read f : Prog ρ ε σ α) env s Q ↔ Q (.done (f env)) s := Iff.rfl

@[simp] theorem wp_look (f : σ → α) (env : ρ) (s : σ) (Q : Outcome ε α → σ → Prop) :
    wp (look f : Prog ρ ε σ α) env s Q ↔ Q (.done (f s)) s := Iff.rfl

@[simp] theorem wp_modify (f : σ → σ) (env : ρ) (s : σ) (Q : Outcome ε PUnit → σ → Prop) :
    wp (modify f : Prog ρ ε σ PUnit) env s Q ↔ Q (.done ⟨⟩) (f s) := Iff.rfl

/-- What must hold after the first part of a sequence. -/
def thenPost (f : α → Prog ρ ε σ β) (env : ρ) (Q : Outcome ε β → σ → Prop) :
    Outcome ε α → σ → Prop
  | .done a, s => wp (f a) env s Q
  | .raised e, s => Q (.raised e) s
  | .halted, s => Q .halted s

@[simp] theorem thenPost_done (f : α → Prog ρ ε σ β) (env : ρ) (Q : Outcome ε β → σ → Prop)
    (a : α) (s : σ) : thenPost f env Q (.done a) s ↔ wp (f a) env s Q := Iff.rfl

@[simp] theorem thenPost_raised (f : α → Prog ρ ε σ β) (env : ρ)
    (Q : Outcome ε β → σ → Prop) (e : ε) (s : σ) :
    thenPost f env Q (.raised e) s ↔ Q (.raised e) s := Iff.rfl

@[simp] theorem thenPost_halted (f : α → Prog ρ ε σ β) (env : ρ)
    (Q : Outcome ε β → σ → Prop) (s : σ) :
    thenPost f env Q .halted s ↔ Q .halted s := Iff.rfl

theorem wp_bind (m : Prog ρ ε σ α) (f : α → Prog ρ ε σ β) (env : ρ) (s : σ)
    (Q : Outcome ε β → σ → Prop) :
    wp (m >>= f) env s Q ↔ wp m env s (thenPost f env Q) := by
  change wp (bind m f) env s Q ↔ _
  unfold wp bind
  rcases m env s with ⟨_ | _ | _, s'⟩ <;> rfl

/-- What must hold after the body of a `try … except`. -/
def exceptPost (handler : ε → Prog ρ ε σ α) (env : ρ) (Q : Outcome ε α → σ → Prop) :
    Outcome ε α → σ → Prop
  | .done a, s => Q (.done a) s
  | .raised e, s => wp (handler e) env s Q
  | .halted, s => Q .halted s

@[simp] theorem exceptPost_done (h : ε → Prog ρ ε σ α) (env : ρ)
    (Q : Outcome ε α → σ → Prop) (a : α) (s : σ) :
    exceptPost h env Q (.done a) s ↔ Q (.done a) s := Iff.rfl

@[simp] theorem exceptPost_raised (h : ε → Prog ρ ε σ α) (env : ρ)
    (Q : Outcome ε α → σ → Prop) (e : ε) (s : σ) :
    exceptPost h env Q (.raised e) s ↔ wp (h e) env s Q := Iff.rfl

@[simp] theorem exceptPost_halted (h : ε → Prog ρ ε σ α) (env : ρ)
    (Q : Outcome ε α → σ → Prop) (s : σ) :
    exceptPost h env Q .halted s ↔ Q .halted s := Iff.rfl

theorem wp_attempt (m : Prog ρ ε σ α) (h : ε → Prog ρ ε σ α) (env : ρ) (s : σ)
    (Q : Outcome ε α → σ → Prop) :
    wp (attempt m h) env s Q ↔ wp m env s (exceptPost h env Q) := by
  unfold wp attempt
  rcases m env s with ⟨_ | _ | _, s'⟩ <;> rfl

/-- What must hold after the clause of a `try … finally` whose body ended in
`o`. -/
def cleanupPost (o : Outcome ε α) (Q : Outcome ε α → σ → Prop) :
    Outcome ε PUnit → σ → Prop
  | .done _, s => Q o s
  | .raised e, s => Q (.raised e) s
  | .halted, s => Q .halted s

/-- What must hold after the body of a `try … finally`. -/
def finallyPost (cleanup : Prog ρ ε σ PUnit) (env : ρ) (Q : Outcome ε α → σ → Prop) :
    Outcome ε α → σ → Prop
  | .done a, s => wp cleanup env s (cleanupPost (.done a) Q)
  | .raised e, s => wp cleanup env s (cleanupPost (.raised e) Q)
  | .halted, s => Q .halted s

@[simp] theorem finallyPost_done (c : Prog ρ ε σ PUnit) (env : ρ)
    (Q : Outcome ε α → σ → Prop) (a : α) (s : σ) :
    finallyPost c env Q (.done a) s ↔ wp c env s (cleanupPost (.done a) Q) := Iff.rfl

@[simp] theorem finallyPost_raised (c : Prog ρ ε σ PUnit) (env : ρ)
    (Q : Outcome ε α → σ → Prop) (e : ε) (s : σ) :
    finallyPost c env Q (.raised e) s ↔ wp c env s (cleanupPost (.raised e) Q) := Iff.rfl

@[simp] theorem finallyPost_halted (c : Prog ρ ε σ PUnit) (env : ρ)
    (Q : Outcome ε α → σ → Prop) (s : σ) :
    finallyPost c env Q .halted s ↔ Q .halted s := Iff.rfl

theorem wp_always (m : Prog ρ ε σ α) (c : Prog ρ ε σ PUnit) (env : ρ) (s : σ)
    (Q : Outcome ε α → σ → Prop) :
    wp (always m c) env s Q ↔ wp m env s (finallyPost c env Q) := by
  unfold wp always
  rcases m env s with ⟨_ | _ | _, s'⟩
  · simp only [finallyPost, wp]
    rcases c env s' with ⟨_ | _ | _, s''⟩ <;> rfl
  · simp only [finallyPost, wp]
    rcases c env s' with ⟨_ | _ | _, s''⟩ <;> rfl
  · rfl

theorem wp_ite (p : Prop) [Decidable p] (m m' : Prog ρ ε σ α) (env : ρ) (s : σ)
    (Q : Outcome ε α → σ → Prop) :
    wp (if p then m else m') env s Q ↔ (p → wp m env s Q) ∧ (¬ p → wp m' env s Q) := by
  by_cases hp : p <;> simp [hp]

/-! ## Successful runs -/

/-- The program returns `a` and leaves the world `s'`. -/
def Returns (m : Prog ρ ε σ α) (env : ρ) (s : σ) (a : α) (s' : σ) : Prop :=
  m env s = (.done a, s')

theorem Returns.of_wp {m : Prog ρ ε σ α} {env : ρ} {s s' : σ} {a : α}
    {Q : Outcome ε α → σ → Prop} (h : Returns m env s a s') (hw : wp m env s Q) :
    Q (.done a) s' := by
  unfold wp at hw
  rw [h] at hw
  exact hw

theorem Returns.wp {m : Prog ρ ε σ α} {env : ρ} {s s' : σ} {a : α}
    {Q : Outcome ε α → σ → Prop} (h : Returns m env s a s') (hQ : Q (.done a) s') :
    wp m env s Q := by
  unfold Prog.wp
  rw [h]
  exact hQ

theorem Returns.unique {m : Prog ρ ε σ α} {env : ρ} {s s₁ s₂ : σ} {a b : α}
    (h : Returns m env s a s₁) (h' : Returns m env s b s₂) : a = b ∧ s₁ = s₂ := by
  cases h.symm.trans h'
  exact ⟨rfl, rfl⟩

theorem Returns.wp_bind {m : Prog ρ ε σ α} {f : α → Prog ρ ε σ β} {env : ρ} {s s' : σ} {a : α}
    {Q : Outcome ε β → σ → Prop} (h : Returns m env s a s') (hf : Prog.wp (f a) env s' Q) :
    Prog.wp (m >>= f) env s Q := by
  rw [Prog.wp_bind]
  exact h.wp hf

@[simp] theorem returns_pure {a b : α} {env : ρ} {s s' : σ} :
    Returns (Pure.pure a : Prog ρ ε σ α) env s b s' ↔ b = a ∧ s' = s := by
  constructor
  · intro h
    cases h
    exact ⟨rfl, rfl⟩
  · rintro ⟨rfl, rfl⟩
    rfl

@[simp] theorem returns_raise {e : ε} {b : α} {env : ρ} {s s' : σ} :
    Returns (raise e : Prog ρ ε σ α) env s b s' ↔ False :=
  ⟨fun h => (nomatch h), False.elim⟩

@[simp] theorem returns_read {f : ρ → α} {b : α} {env : ρ} {s s' : σ} :
    Returns (read f : Prog ρ ε σ α) env s b s' ↔ b = f env ∧ s' = s := by
  constructor
  · intro h
    cases h
    exact ⟨rfl, rfl⟩
  · rintro ⟨rfl, rfl⟩
    rfl

@[simp] theorem returns_modify {f : σ → σ} {u : PUnit} {env : ρ} {s s' : σ} :
    Returns (modify f : Prog ρ ε σ PUnit) env s u s' ↔ s' = f s := by
  constructor
  · intro h
    cases h
    rfl
  · rintro rfl
    rfl

theorem returns_bind {m : Prog ρ ε σ α} {f : α → Prog ρ ε σ β} {env : ρ} {s s' : σ} {b : β} :
    Returns (m >>= f) env s b s' ↔
      ∃ a t, Returns m env s a t ∧ Returns (f a) env t b s' := by
  change Returns (bind m f) env s b s' ↔ _
  unfold Returns bind
  constructor
  · intro h
    split at h
    · rename_i a t ha
      exact ⟨a, t, ha, h⟩
    · cases h
    · cases h
  · rintro ⟨a, t, ha, hb⟩
    rw [ha]
    exact hb

theorem returns_attempt {m : Prog ρ ε σ α} {h : ε → Prog ρ ε σ α} {env : ρ} {s s' : σ} {a : α} :
    Returns (attempt m h) env s a s' ↔
      Returns m env s a s' ∨ ∃ e t, m env s = (.raised e, t) ∧ Returns (h e) env t a s' := by
  unfold Returns attempt
  rcases m env s with ⟨_ | e | _, t⟩
  · simp
  · constructor
    · exact fun hr => .inr ⟨e, t, rfl, hr⟩
    · rintro (hr | ⟨e', t', he, hr⟩)
      · cases hr
      · cases he
        exact hr
  · simp

theorem Returns.always {m : Prog ρ ε σ α} {c : Prog ρ ε σ PUnit} {env : ρ} {s s' s'' : σ} {a : α}
    {u : PUnit} (hm : Returns m env s a s') (hc : Returns c env s' u s'') :
    Returns (always m c) env s a s'' := by
  unfold Returns Prog.always
  rw [hm]
  dsimp only
  rw [hc]

theorem returns_ite {p : Prop} [Decidable p] {m m' : Prog ρ ε σ α} {env : ρ} {s s' : σ} {a : α} :
    Returns (if p then m else m') env s a s' ↔
      p ∧ Returns m env s a s' ∨ ¬ p ∧ Returns m' env s a s' := by
  by_cases hp : p <;> simp [hp]

/-! ## Invariants of the world -/

/-- The invariant `P` survives the program, however it ends. -/
def Preserves (m : Prog ρ ε σ α) (env : ρ) (P : σ → Prop) : Prop :=
  ∀ s, P s → wp m env s fun _ s' => P s'

variable {P : σ → Prop} {env : ρ}

theorem preserves_pure (a : α) : Preserves (Pure.pure a : Prog ρ ε σ α) env P :=
  fun _ h => h

theorem preserves_raise (e : ε) : Preserves (raise e : Prog ρ ε σ α) env P :=
  fun _ h => h

theorem preserves_read (f : ρ → α) : Preserves (read f : Prog ρ ε σ α) env P :=
  fun _ h => h

theorem Preserves.bind {m : Prog ρ ε σ α} {f : α → Prog ρ ε σ β} (hm : Preserves m env P)
    (hf : ∀ a, Preserves (f a) env P) : Preserves (m >>= f) env P := by
  intro s hs
  rw [wp_bind]
  refine wp_mono (hm s hs) fun o s' h => ?_
  cases o with
  | done a => exact hf a s' h
  | raised e => exact h
  | halted => exact h

/-- `Yields m env P V`: besides keeping `P`, the program returns only values
that satisfy `V`. -/
def Yields (m : Prog ρ ε σ α) (env : ρ) (P : σ → Prop) (V : α → Prop) : Prop :=
  ∀ s, P s → wp m env s fun o s' => P s' ∧ ∀ a, o = .done a → V a

theorem Yields.bind {m : Prog ρ ε σ α} {f : α → Prog ρ ε σ β} {V : α → Prop}
    (hm : Yields m env P V) (hf : ∀ a, V a → Preserves (f a) env P) :
    Preserves (m >>= f) env P := by
  intro s hs
  rw [wp_bind]
  refine wp_mono (hm s hs) fun o s' h => ?_
  cases o with
  | done a => exact hf a (h.2 a rfl) s' h.1
  | raised e => exact h.1
  | halted => exact h.1

theorem Returns.of_yields {m : Prog ρ ε σ α} {V : α → Prop} {s s' : σ} {a : α}
    (h : Returns m env s a s') (hm : Yields m env (· = s) V) : s' = s ∧ V a :=
  have hw := h.of_wp (hm s rfl)
  ⟨hw.1, hw.2 a rfl⟩

/-- A program that only reads is replaced by what its value is known to
satisfy; `hcut` covers the runs that end in it. -/
theorem Yields.wp_bind {m : Prog ρ ε σ α} {f : α → Prog ρ ε σ β} {V : α → Prop} {s : σ}
    {Q : Outcome ε β → σ → Prop} (hm : Yields m env (· = s) V)
    (hf : ∀ a, V a → wp (f a) env s Q) (hcut : ∀ o, (∀ b, o ≠ .done b) → Q o s) :
    wp (m >>= f) env s Q := by
  rw [Prog.wp_bind]
  refine wp_mono (hm s rfl) fun o s' h => ?_
  obtain ⟨rfl, hV⟩ := h
  cases o with
  | done a => exact hf a (hV a rfl)
  | raised e => exact hcut _ (by simp)
  | halted => exact hcut _ (by simp)

theorem Preserves.attempt {m : Prog ρ ε σ α} {h : ε → Prog ρ ε σ α}
    (hm : Preserves m env P) (hh : ∀ e, Preserves (h e) env P) :
    Preserves (attempt m h) env P := by
  intro s hs
  rw [wp_attempt]
  refine wp_mono (hm s hs) fun o s' h => ?_
  cases o with
  | done a => exact h
  | raised e => exact hh e s' h
  | halted => exact h

theorem Preserves.always {m : Prog ρ ε σ α} {c : Prog ρ ε σ PUnit}
    (hm : Preserves m env P) (hc : Preserves c env P) : Preserves (always m c) env P := by
  intro s hs
  rw [wp_always]
  refine wp_mono (hm s hs) fun o s' h => ?_
  cases o with
  | halted => exact h
  | done a =>
      rw [finallyPost_done]
      refine wp_mono (hc s' h) fun o' s'' h' => ?_
      cases o' <;> exact h'
  | raised e =>
      rw [finallyPost_raised]
      refine wp_mono (hc s' h) fun o' s'' h' => ?_
      cases o' <;> exact h'

theorem Preserves.ite {p : Prop} [Decidable p] {m m' : Prog ρ ε σ α}
    (hm : p → Preserves m env P) (hm' : ¬ p → Preserves m' env P) :
    Preserves (if p then m else m') env P := by
  by_cases hp : p
  · rw [if_pos hp]
    exact hm hp
  · rw [if_neg hp]
    exact hm' hp

end Prog

end Effects
