/-
# Identifiers, instants and checks

Identifiers and instants shared by the runtime helper, the controller and the
tables, and the checks their validators are made of.  A UUID is a natural
number: only equality and the supply of fresh values matter.  An instant counts
microseconds, the resolution PostgreSQL and the ISO texts exchanged with the
helper keep.
-/
import Mathlib.Algebra.Order.Ring.Int
import Mathlib.Data.List.Infix

namespace CtfZone

/-- A UUID, compared for equality and ordered as the journal orders it. -/
abbrev Uuid := ℕ

/-- An instant in microseconds. -/
abbrev Time := ℤ

/-- A whole number of seconds. -/
def seconds (n : ℤ) : Time := n * 1000000

/-- The second a `%Y-%m-%d %H:%M:%S` text names: the fraction is cut off. -/
def calendarSecond (t : Time) : ℤ := t / 1000000

/-- An instant lies in the second its calendar text names. -/
theorem seconds_calendarSecond_le (t : Time) : seconds (calendarSecond t) ≤ t := by
  exact Int.ediv_mul_le t (by decide)

/-! ## Checks -/

/-- A check of a validator: the error is returned unless the condition holds. -/
def ensure {ε : Type} (condition : Bool) (error : ε) : Except ε Unit :=
  if condition then .ok ⟨⟩ else .error error

@[simp] theorem ensure_eq_ok {ε : Type} {condition : Bool} {error : ε} {u : Unit} :
    ensure condition error = .ok u ↔ condition = true := by
  cases condition <;> simp [ensure]

/-- A sequence of checks passes when each of them does. -/
@[simp] theorem bind_eq_ok {ε α β : Type} {x : Except ε α} {f : α → Except ε β} {b : β} :
    (x >>= f) = .ok b ↔ ∃ a, x = .ok a ∧ f a = .ok b := by
  cases x with
  | error e => simp [bind, Except.bind]
  | ok a => simp [bind, Except.bind]

/-- A loop of checks passes when the condition holds of every element. -/
@[simp] theorem forM_ensure_eq_ok {ε α : Type} {l : List α} {condition : α → Bool}
    {error : α → ε} {u : Unit} :
    (forM l fun a => ensure (condition a) (error a)) = .ok u ↔ ∀ a ∈ l, condition a = true := by
  induction l with
  | nil => simp [pure, Except.pure]
  | cons a l ih => simp [ih]

end CtfZone
