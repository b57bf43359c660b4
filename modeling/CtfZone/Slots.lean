/-
# Lists whose entries are replaced

A small library for lists of activities, each of which keeps its place while it goes
through its phases: an entry is replaced by `List.set`, and new ones are appended.

* `at' f l i` : what the entry at a place shows by `f`, if it shows anything;
* `Apart f R l` : any two entries that show something by `f` are related by `R`;
* `count f q l` : how many entries show something by `f` that meets `q`.
-/
import Mathlib.Data.List.Basic

namespace Slots

universe u v

variable {α : Type u} {β : Type v} {f : α → Option β} {R : β → β → Prop} {l : List α}

/-- What the entry at a place shows. -/
def at' (f : α → Option β) (l : List α) (i : ℕ) : Option β := l[i]?.bind f

theorem at'_eq {i : ℕ} {a : α} (h : l[i]? = some a) : at' f l i = f a := by
  rw [at', h]
  rfl

theorem at'_some {i : ℕ} {b : β} : at' f l i = some b ↔ ∃ a, l[i]? = some a ∧ f a = some b :=
  Option.bind_eq_some_iff

theorem at'_set {i : ℕ} {a : α} (h : l[i]? = some a) (a' : α) (j : ℕ) :
    at' f (l.set i a') j = if j = i then f a' else at' f l j := by
  obtain ⟨hi, -⟩ := List.getElem?_eq_some_iff.mp h
  by_cases hj : j = i
  · subst hj
    rw [if_pos rfl, at', List.getElem?_set_self hi]
    rfl
  · rw [if_neg hj, at', List.getElem?_set_ne (Ne.symm hj), at']

theorem at'_append {i : ℕ} {a : α} {b : β} (h : at' f (l ++ [a]) i = some b) :
    at' f l i = some b ∨ i = l.length ∧ f a = some b := by
  obtain ⟨a', ha, hb⟩ := at'_some.mp h
  rcases Nat.lt_trichotomy i l.length with hi | rfl | hi
  · rw [List.getElem?_append_left hi] at ha
    exact .inl (at'_some.mpr ⟨a', ha, hb⟩)
  · rw [List.getElem?_append_right (Nat.le_refl _), Nat.sub_self] at ha
    cases ha
    exact .inr ⟨rfl, hb⟩
  · rw [List.getElem?_eq_none (by rw [List.length_append]; simp; omega)] at ha
    cases ha

/-- An entry beside the one at a place. -/
theorem mem_others {i : ℕ} {a : α} : a ∈ l.eraseIdx i ↔ ∃ j, j ≠ i ∧ l[j]? = some a := by
  rw [List.mem_eraseIdx_iff_getElem?]

theorem exists_other {i j : ℕ} {b : β} (hj : j ≠ i) (h : at' f l j = some b) :
    ∃ a ∈ l.eraseIdx i, f a = some b := by
  obtain ⟨a, ha, hb⟩ := at'_some.mp h
  exact ⟨a, mem_others.mpr ⟨j, hj, ha⟩, hb⟩

/-- Any two entries that show something are related. -/
def Apart (f : α → Option β) (R : β → β → Prop) (l : List α) : Prop :=
  ∀ i j b c, i ≠ j → at' f l i = some b → at' f l j = some c → R b c

theorem Apart.nil : Apart f R [] := by
  intro i j b c _ h
  cases h

/-- An entry that is replaced by one that is related to the others. -/
theorem Apart.set (hR : ∀ b c, R b c → R c b) (h : Apart f R l) {i : ℕ} {a a' : α}
    (ha : l[i]? = some a)
    (hnew : ∀ b, f a' = some b → ∀ j c, j ≠ i → at' f l j = some c → R b c) :
    Apart f R (l.set i a') := by
  intro j k b c hjk hb hc
  rw [at'_set ha] at hb hc
  split at hb
  · rename_i hj
    subst hj
    rw [if_neg (Ne.symm hjk)] at hc
    exact hnew b hb k c (Ne.symm hjk) hc
  · split at hc
    · rename_i hk
      subst hk
      exact hR _ _ (hnew c hc j b hjk hb)
    · exact h j k b c hjk hb hc

/-- A new entry that shows nothing. -/
theorem Apart.append (h : Apart f R l) {a : α} (ha : f a = none) : Apart f R (l ++ [a]) := by
  intro i j b c hij hb hc
  rcases at'_append hb with hb | ⟨-, hb⟩
  · rcases at'_append hc with hc | ⟨-, hc⟩
    · exact h i j b c hij hb hc
    · rw [ha] at hc
      cases hc
  · rw [ha] at hb
    cases hb

/-! ## Counting -/

/-- The number of entries that show something that meets a test. -/
def count (f : α → Option β) (q : β → Bool) (l : List α) : ℕ := l.countP fun a => (f a).any q

variable {q : β → Bool}

theorem count_set {i : ℕ} {a : α} (ha : l[i]? = some a) (a' : α) :
    count f q (l.set i a') + (if (f a).any q then 1 else 0) =
      count f q l + if (f a').any q then 1 else 0 := by
  obtain ⟨hi, rfl⟩ := List.getElem?_eq_some_iff.mp ha
  unfold count
  rw [List.countP_set hi]
  have hpos : (f l[i]).any q = true → 0 < l.countP fun a => (f a).any q :=
    fun h => List.countP_pos_iff.mpr ⟨l[i], List.getElem_mem hi, h⟩
  split
  · rename_i h
    have := hpos h
    omega
  · omega

/-- An entry that shows no more than before. -/
theorem count_keep {i : ℕ} {a a' : α} (ha : l[i]? = some a)
    (hkeep : ∀ b, f a' = some b → f a = some b) : count f q (l.set i a') ≤ count f q l := by
  have hset := count_set (f := f) (q := q) ha a'
  have hle : (if (f a').any q then 1 else 0) ≤ if (f a).any q then 1 else 0 := by
    cases hf : f a' with
    | none => exact Nat.zero_le _
    | some b =>
        exact Nat.le_of_eq (by rw [hkeep b hf])
  omega

/-- An entry comes to show what it did not show. -/
theorem count_new {i : ℕ} {a a' : α} {b : β} (ha : l[i]? = some a) (hnone : f a = none)
    (hsome : f a' = some b) : count f q (l.set i a') = count f q l + if q b then 1 else 0 := by
  have hset := count_set (f := f) (q := q) ha a'
  rw [hnone, hsome] at hset
  exact hset

theorem count_append {a : α} (ha : f a = none) : count f q (l ++ [a]) = count f q l := by
  unfold count
  rw [List.countP_append, List.countP_singleton, ha]
  exact Nat.add_zero _

theorem count_le {γ : Type v} {g : α → Option γ} {r : γ → Bool}
    (h : ∀ a ∈ l, (f a).any q = true → (g a).any r = true) : count f q l ≤ count g r l :=
  List.countP_mono_left h

end Slots
