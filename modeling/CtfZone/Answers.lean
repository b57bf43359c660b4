/-
# What transactions answer

What a transaction can answer, whatever it reads, and what therefore becomes of a request
that has been begun.

* `Answers C x` : whatever the program `x` answers meets `C`;
* `Answers.leads` : and so does the answer of a transaction at any later moment of a run.
-/
import CtfZone.SharedLocks

namespace SharedLocks

open Runs Slots Locking Locking.Program

variable {σ κ ν ε α β : Type}

/-- Whatever the program answers meets a condition. -/
def Answers (C : α → Prop) : Program σ κ ν ε α → Prop
  | .done answer => C answer
  | .fail _ => True
  | .lock _ next => Answers C next
  | .draw _ next => ∀ n, Answers C (next n)
  | .query next => ∀ s, Answers C (next s)
  | .write _ next => Answers C next

section Rules

variable {C : α → Prop}

/-- The rule of composition. -/
theorem answers_bind {x : Program σ κ ν ε β} {f : β → Program σ κ ν ε α} :
    Answers C (x >>= f) ↔ Answers (fun b => Answers C (f b)) x := by
  change Answers C (x.andThen f) ↔ _
  induction x with
  | done answer => rfl
  | fail error => rfl
  | lock key next ih => exact ih
  | draw q next ih => exact forall_congr' fun n => ih n
  | query next ih => exact forall_congr' fun s => ih s
  | write change next ih => exact ih

/-- A program whose answers meet a condition whatever they are. -/
theorem Answers.of_forall (h : ∀ a, C a) (x : Program σ κ ν ε α) : Answers C x := by
  induction x with
  | done answer => exact h answer
  | fail error => trivial
  | lock key next ih => exact ih
  | draw q next ih => exact fun n => ih n
  | query next ih => exact fun s => ih s
  | write change next ih => exact ih

theorem Answers.mono {C' : α → Prop} {x : Program σ κ ν ε α} (h : Answers C x)
    (hC : ∀ a, C a → C' a) : Answers C' x := by
  induction x with
  | done answer => exact hC answer h
  | fail error => trivial
  | lock key next ih => exact ih h
  | draw q next ih => exact fun n => ih n (h n)
  | query next ih => exact fun s => ih s (h s)
  | write change next ih => exact ih h

/-- What two programs answer one after the other is up to the second one. -/
theorem Answers.bind {x : Program σ κ ν ε β} {f : β → Program σ κ ν ε α}
    (h : ∀ b, Answers C (f b)) : Answers C (x >>= f) := answers_bind.mpr (.of_forall h x)

theorem answers_liftExcept {x : Except ε α} :
    Answers C (Program.liftExcept x : Program σ κ ν ε α) ↔ ∀ a, x = .ok a → C a := by
  cases x with
  | error e => exact ⟨fun _ _ h => (nomatch h), fun _ => trivial⟩
  | ok a =>
      simp only [Program.liftExcept, Answers, Except.ok.injEq]
      exact ⟨fun h _ heq => heq ▸ h, fun h => h a rfl⟩

end Rules

/-! ## Along a run -/

/-- The transaction at a place is over, or its answers meet a condition. -/
structure AnswersAt (C : α → Prop) (i : ℕ) (s : System σ κ ν ε α) : Prop where
  begun : i < s.running.length
  answers : ∀ a, at' id s.running i = some a → Answers C a.program

theorem AnswersAt.set {C : α → Prop} {i : ℕ} {s : System σ κ ν ε α} (h : AnswersAt C i s)
    {j : ℕ} {store : σ} {next : ν → ℕ} {x : Option (InFlight σ κ ν ε α)}
    {b : InFlight σ κ ν ε α} (hb : at' id s.running j = some b)
    (hx : ∀ a, x = some a → Answers C b.program → Answers C a.program) :
    AnswersAt C i ⟨store, next, s.running.set j x⟩ := by
  obtain ⟨b', hat, rfl⟩ := at'_some.mp hb
  refine ⟨by simpa using h.begun, fun a ha => ?_⟩
  rw [at'_set hat] at ha
  split at ha
  · rename_i hij
    subst hij
    exact hx a ha (h.answers b hb)
  · exact h.answers a ha

section Steps

variable [Lockable κ] [DecidableEq ν] {C : α → Prop} {ρ η : Type}
  {program : ρ → Program σ κ ν ε α} {event : η → σ → σ} {s s' : System σ κ ν ε α}
  {guard : System σ κ ν ε α → Label ρ η → Prop} {i : ℕ}

/-- The next statement of a transaction leaves what it can answer. -/
theorem Answers.advance {n : ℕ} {a : InFlight σ κ ν ε α} (hstep : advance s i n a = some s') :
    ∃ x, s'.running = s.running.set i x ∧
      ∀ a', x = some a' → Answers C a.program → Answers C a'.program := by
  obtain ⟨program, held, pending⟩ := a
  cases program with
  | done answer =>
      cases hstep
      exact ⟨none, rfl, fun _ heq => nomatch heq⟩
  | fail error =>
      cases hstep
      exact ⟨none, rfl, fun _ heq => nomatch heq⟩
  | lock key next =>
      simp only [SharedLocks.advance] at hstep
      split at hstep
      · cases hstep
      · cases hstep
        exact ⟨_, rfl, fun _ heq h => Option.some.inj heq ▸ h⟩
  | draw q next =>
      simp only [SharedLocks.advance] at hstep
      split at hstep
      · cases hstep
        exact ⟨_, rfl, fun _ heq h => Option.some.inj heq ▸ h n⟩
      · cases hstep
  | query next =>
      cases hstep
      exact ⟨_, rfl, fun _ heq h => Option.some.inj heq ▸ h _⟩
  | write change next =>
      cases hstep
      exact ⟨_, rfl, fun _ heq h => Option.some.inj heq ▸ h⟩

/-- A step leaves what the transaction at a place can answer. -/
theorem AnswersAt.step (h : AnswersAt C i s) {l : Label ρ η}
    (hstep : step program event l s = some s') : AnswersAt C i s' := by
  cases l with
  | begin request =>
      cases hstep
      refine ⟨?_, fun a ha => ?_⟩
      · rw [List.length_append]
        exact Nat.lt_add_right _ h.begun
      · rcases at'_append ha with ha | ⟨hi, -⟩
        · exact h.answers a ha
        · exact absurd h.begun (by omega)
  | advance j n =>
      obtain ⟨b, hb, hstep⟩ := Option.bind_eq_some_iff.mp hstep
      obtain ⟨x, hrunning, hx⟩ := Answers.advance (C := C) hstep
      obtain ⟨store, next, running⟩ := s'
      obtain rfl : running = s.running.set j x := hrunning
      exact h.set hb hx
  | abort j =>
      obtain ⟨b, hb, rfl⟩ := Option.map_eq_some_iff.mp hstep
      exact h.set hb fun _ heq => nomatch heq
  | other e =>
      cases hstep
      exact ⟨h.begun, h.answers⟩

/-- **What a request can answer when it is begun is what its transaction can answer at any
later moment.** -/
theorem Answers.leads {request : ρ} {s₁ s₂ : System σ κ ν ε α}
    (hanswers : Answers C (program request))
    (hbegin : SharedLocks.step program event (.begin request) s = some s₁)
    (hlead : Leads (SharedLocks.step program event) guard s₁ s₂) :
    AnswersAt C s.running.length s₂ := by
  induction hlead with
  | refl =>
      cases hbegin
      refine ⟨?_, fun a ha => ?_⟩
      · rw [List.length_append]
        exact Nat.lt_succ_self _
      · rcases at'_append ha with ha | ⟨-, ha⟩
        · obtain ⟨b, hb, -⟩ := at'_some.mp ha
          rw [List.getElem?_eq_none (Nat.le_refl _)] at hb
          cases hb
        · cases ha
          exact hanswers
  | step l _ _ hstep ih => exact ih.step hstep

end Steps

end SharedLocks
