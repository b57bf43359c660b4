/-
# Transactions that nobody disturbs

What a transaction comes to if nobody else is at work, on a store without sequences.

* `alone` : it commits with an answer and a store, or fails;
* `alone_bind` : the rule of composition;
* `commits_alone` : a system in which nothing is in flight does the same.
-/
import CtfZone.SharedLocks

namespace SharedLocks

open Runs Slots Locking Locking.Program

variable {σ κ ν ε α β : Type} [IsEmpty ν]

/-- What a transaction comes to by itself, and what it leaves. -/
def alone : Program σ κ ν ε α → σ → Except ε (α × σ)
  | .done answer, s => .ok (answer, s)
  | .fail error, _ => .error error
  | .lock _ next, s => alone next s
  | .draw q _, _ => isEmptyElim q
  | .query next, s => alone (next s) s
  | .write change next, s => alone next (change s)

/-! ## The rules -/

section Rules

variable {s : σ}

/-- One part after the other. -/
theorem alone_bind (x : Program σ κ ν ε β) (f : β → Program σ κ ν ε α) :
    alone (x >>= f) s = (alone x s).bind fun (b, s') => alone (f b) s' := by
  change alone (x.andThen f) s = _
  induction x generalizing s with
  | done answer => rfl
  | fail error => rfl
  | lock key next ih => exact ih
  | draw q next ih => exact isEmptyElim q
  | query next ih => exact ih s
  | write change next ih => exact ih

@[simp] theorem alone_pure (a : α) : alone (pure a : Program σ κ ν ε α) s = .ok (a, s) := rfl

@[simp] theorem alone_select (f : σ → α) :
    alone (select f : Program σ κ ν ε α) s = .ok (f s, s) := rfl

@[simp] theorem alone_change (f : σ → σ) :
    alone (change f : Program σ κ ν ε Unit) s = .ok (⟨⟩, f s) := rfl

@[simp] theorem alone_acquire (key : κ) :
    alone (acquire key : Program σ κ ν ε Unit) s = .ok (⟨⟩, s) := rfl

@[simp] theorem alone_liftExcept (x : Except ε α) :
    alone (liftExcept x : Program σ κ ν ε α) s = x.map fun a => (a, s) := by
  rcases x with e | a <;> rfl

@[simp] theorem alone_check (condition : Bool) (error : ε) :
    alone (check condition error : Program σ κ ν ε Unit) s =
      if condition then .ok (⟨⟩, s) else .error error := by
  rcases condition with _ | _ <;> rfl

@[simp] theorem alone_onlyIf (condition : Bool) (statement : Program σ κ ν ε Unit) :
    alone (onlyIf condition statement) s =
      if condition then alone statement s else .ok (⟨⟩, s) := by
  rcases condition with _ | _ <;> rfl

end Rules

/-! ## In a system -/

section Systems

variable [Lockable κ] [DecidableEq ν] {ρ η : Type} {program : ρ → Program σ κ ν ε α}
  {event : η → σ → σ} {s : System σ κ ν ε α}

/-- Nothing is in flight. -/
def Idle (s : System σ κ ν ε α) : Prop := ∀ x ∈ s.running, x = none

/-- A transaction in the last place, and nothing else in flight. -/
def beside (s : System σ κ ν ε α) (a : InFlight σ κ ν ε α) : System σ κ ν ε α :=
  { s with running := s.running ++ [some a] }

omit [IsEmpty ν] [Lockable κ] [DecidableEq ν] in
theorem at'_beside (s : System σ κ ν ε α) (a : InFlight σ κ ν ε α) :
    at' id (beside s a).running s.running.length = some a := by
  rw [beside, at', List.getElem?_append_right (Nat.le_refl _), Nat.sub_self]
  rfl

omit [IsEmpty ν] [Lockable κ] [DecidableEq ν] in
theorem set_beside (s : System σ κ ν ε α) (a : InFlight σ κ ν ε α)
    (x : Option (InFlight σ κ ν ε α)) :
    (beside s a).running.set s.running.length x = s.running ++ [x] := by
  rw [beside, List.set_append_right _ _ (Nat.le_refl _), Nat.sub_self]
  rfl

omit [IsEmpty ν] [DecidableEq ν] in
/-- A lock is free where nothing else is in flight. -/
theorem free_beside (h : Idle s) (a : InFlight σ κ ν ε α) (key : κ) :
    (((beside s a).running.eraseIdx s.running.length).any
      fun b => b.any (·.held.any (blocks key))) = false := by
  have herase : (beside s a).running.eraseIdx s.running.length = s.running := by
    rw [beside, List.eraseIdx_append_of_length_le (Nat.le_refl _), Nat.sub_self]
    exact List.append_nil _
  rw [herase, List.any_eq_false]
  intro x hx
  rw [h x hx]
  exact Bool.false_ne_true

/-- **The system does what the transaction does alone**, up to its end. -/
theorem leads_alone (h : Idle s) (a : InFlight σ κ ν ε α) :
    ∃ a' : InFlight σ κ ν ε α,
      Leads (step program event) anyStep (beside s a) (beside s a') ∧
        match alone a.program (a.pending s.store) with
        | .ok (answer, store) => a'.program = .done answer ∧ a'.pending s.store = store
        | .error e => a'.program = .fail e := by
  obtain ⟨x, held, pending⟩ := a
  -- One statement, and then the rest.
  have hfirst : ∀ a a' : InFlight σ κ ν ε α,
      advance (beside s a) s.running.length 0 a = some (beside s a') →
        Leads (step program event) anyStep (beside s a) (beside s a') := by
    intro a a' hadvance
    refine .step (.advance s.running.length 0) (.refl _) trivial ?_
    rw [step, at'_beside, Option.bind_some, hadvance]
  induction x generalizing held pending with
  | done answer => exact ⟨⟨.done answer, held, pending⟩, .refl _, rfl, rfl⟩
  | fail error => exact ⟨⟨.fail error, held, pending⟩, .refl _, rfl⟩
  | lock key next ih =>
      obtain ⟨a', hlead, ha'⟩ := ih (.lock key :: held) pending
      refine ⟨a', (hfirst _ ⟨next, .lock key :: held, pending⟩ ?_).trans hlead, ha'⟩
      simp only [advance, free_beside h, Bool.false_eq_true, if_false, set_beside]
      rfl
  | draw q next ih => exact isEmptyElim q
  | query next ih =>
      obtain ⟨a', hlead, ha'⟩ := ih (pending s.store) held pending
      refine ⟨a', (hfirst _ ⟨next (pending s.store), held, pending⟩ ?_).trans hlead, ha'⟩
      simp only [advance, set_beside]
      rfl
  | write change next ih =>
      obtain ⟨a', hlead, ha'⟩ := ih held (change ∘ pending)
      refine ⟨a', (hfirst _ ⟨next, held, change ∘ pending⟩ ?_).trans hlead, ha'⟩
      simp only [advance, set_beside]
      rfl

/-- **A request that commits alone commits in a system in which nothing is in flight.** -/
theorem commits_alone (h : Idle s) {r : ρ} {answer : α} {store : σ}
    (halone : alone (program r) s.store = .ok (answer, store)) :
    ∃ s', Leads (step program event) anyStep s s' ∧ s'.store = store ∧ Idle s' := by
  obtain ⟨a, hlead, ha⟩ : ∃ a : InFlight σ κ ν ε α,
      Leads (step program event) anyStep (beside s ⟨program r, [], id⟩) (beside s a) ∧
        match alone (program r) s.store with
        | .ok (answer, store) => a.program = .done answer ∧ a.pending s.store = store
        | .error e => a.program = .fail e := leads_alone h ⟨program r, [], id⟩
  rw [halone] at ha
  obtain ⟨hdone, rfl⟩ := ha
  have hbegin : Leads (step program event) anyStep s (beside s ⟨program r, [], id⟩) :=
    .step (.begin r) (.refl s) trivial rfl
  refine ⟨{ s with store := a.pending s.store, running := s.running ++ [none] },
    .step (.advance s.running.length 0) (hbegin.trans hlead) trivial ?_, rfl, ?_⟩
  · rw [step, at'_beside, Option.bind_some, advance, hdone, set_beside]
    rfl
  · intro x hx
    rcases List.mem_append.mp hx with hx | hx
    · exact h x hx
    · exact List.mem_singleton.mp hx

end Systems

end SharedLocks
