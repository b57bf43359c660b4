/-
# Values read one after the other

The values of several keys are read one after the other, while they are written.  What
has been read is the value of all keys at one moment, if every write either leaves what has
been read as it was read, or leaves what is still to be read as it is.

* `Reading` : a reading that is under way;
* `TakenFrom` : it is taken from one moment so far;
* `TakenFrom.start`, `TakenFrom.read`, `TakenFrom.written` : the steps.
-/
import Mathlib.Data.List.Basic

namespace Snapshots

variable {κ ω : Type*}

/-- The keys with the values that have been read, and the keys still to be read. -/
structure Reading (κ ω : Type*) where
  done : List (κ × ω)
  pending : List κ

/-- What has been read is from the moment `c`, and what is still to be read is now as it was
then. -/
structure TakenFrom (c now : κ → ω) (r : Reading κ ω) : Prop where
  done : ∀ p ∈ r.done, p.2 = c p.1
  pending : ∀ k ∈ r.pending, now k = c k

/-- A write leaves what has been read as it was read, or what is still to be read as it is. -/
def Undisturbed (now now' : κ → ω) (r : Reading κ ω) : Prop :=
  (∀ p ∈ r.done, p.2 = now' p.1) ∨ ∀ k ∈ r.pending, now' k = now k

theorem TakenFrom.start (now : κ → ω) (keys : List κ) : TakenFrom now now ⟨[], keys⟩ :=
  ⟨nofun, fun _ _ => rfl⟩

/-- The next key is read. -/
theorem TakenFrom.read {c now : κ → ω} {done : List (κ × ω)} {k : κ} {keys : List κ}
    (h : TakenFrom c now ⟨done, k :: keys⟩) : TakenFrom c now ⟨done ++ [(k, now k)], keys⟩ := by
  constructor
  · intro p hp
    rcases List.mem_append.mp hp with hp' | hp'
    · exact h.done p hp'
    · rw [List.mem_singleton.mp hp']
      exact h.pending k List.mem_cons_self
  · intro k' hk'
    exact h.pending k' (List.mem_cons_of_mem k hk')

/-- After a write the reading is from the moment it was from, or from now. -/
theorem TakenFrom.written {c now now' : κ → ω} {r : Reading κ ω} (h : TakenFrom c now r)
    (hquiet : Undisturbed now now' r) : TakenFrom c now' r ∨ TakenFrom now' now' r := by
  rcases hquiet with hdone | hpending
  · exact .inr ⟨hdone, fun _ _ => rfl⟩
  · left
    refine ⟨h.done, fun k hk => ?_⟩
    rw [hpending k hk, h.pending k hk]

end Snapshots
