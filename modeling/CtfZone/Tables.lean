/-
# Tables as lists of rows

A small library for relational tables that are changed by `UPDATE … WHERE` and
`INSERT`.  A table is a list of rows.

* `update` changes the rows that match, and `forall_update` is its rule for a
  property of every row.
* `Unique key` is a unique index.  The key is optional, so that a partial index
  exempts the rows whose key is `none`.
* `Persist R` says that every row of an earlier table is still there in a later
  one, up to a relation that says how a row may have evolved.
-/
import Mathlib.Data.List.Basic

namespace Tables

universe u v

variable {ρ : Type u} {κ : Type v} {p : ρ → Bool} {f : ρ → ρ} {t : List ρ}

/-- A row after an update. -/
def updateRow (p : ρ → Bool) (f : ρ → ρ) (r : ρ) : ρ := if p r then f r else r

/-- `UPDATE … SET … WHERE …`. -/
def update (p : ρ → Bool) (f : ρ → ρ) (t : List ρ) : List ρ := t.map (updateRow p f)

theorem updateRow_cases (p : ρ → Bool) (f : ρ → ρ) (r : ρ) :
    p r = false ∧ updateRow p f r = r ∨ p r = true ∧ updateRow p f r = f r := by
  unfold updateRow
  cases p r with
  | false => exact .inl ⟨rfl, rfl⟩
  | true => exact .inr ⟨rfl, rfl⟩

theorem mem_update {r : ρ} :
    r ∈ update p f t ↔ ∃ r₀ ∈ t, (p r₀ = true ∧ f r₀ = r) ∨ (p r₀ = false ∧ r₀ = r) := by
  unfold update
  rw [List.mem_map]
  refine exists_congr fun r₀ => and_congr_right fun _ => ?_
  rcases updateRow_cases p f r₀ with ⟨hp, heq⟩ | ⟨hp, heq⟩
  · simp [hp, heq]
  · simp [hp, heq]

/-- A property of every row survives an update that keeps it where it applies. -/
theorem forall_update {P : ρ → Prop} (h : ∀ r ∈ t, P r)
    (hf : ∀ r ∈ t, p r = true → P r → P (f r)) : ∀ r ∈ update p f t, P r := by
  intro r hr
  obtain ⟨r₀, hr₀, ⟨hp, rfl⟩ | ⟨-, rfl⟩⟩ := mem_update.mp hr
  · exact hf r₀ hr₀ hp (h r₀ hr₀)
  · exact h r₀ hr₀

/-- A property of every row survives the insertion of a row that has it. -/
theorem forall_insert {P : ρ → Prop} (h : ∀ r ∈ t, P r) {x : ρ} (hx : P x) :
    ∀ r ∈ t ++ [x], P r := by
  intro r hr
  rcases List.mem_append.mp hr with hr | hr
  · exact h r hr
  · rwa [List.mem_singleton.mp hr]

/-- An update that leaves the rows it matches as they are changes nothing. -/
theorem update_eq_self (h : ∀ r ∈ t, p r = true → f r = r) : update p f t = t := by
  unfold update
  refine (List.map_congr_left fun r hr => ?_).trans (List.map_id t)
  rcases updateRow_cases p f r with ⟨-, heq⟩ | ⟨hp, heq⟩
  · exact heq
  · exact heq.trans (h r hr hp)

/-- An update that matches no row changes nothing. -/
theorem update_of_none (h : ∀ r ∈ t, p r = false) : update p f t = t := by
  refine update_eq_self fun r hr hp => ?_
  rw [h r hr] at hp
  cases hp

/-! ## Unique indexes -/

/-- No two rows have the same key. -/
def Unique (key : ρ → Option κ) (t : List ρ) : Prop :=
  ∀ r ∈ t, ∀ r' ∈ t, ∀ k, key r = some k → key r' = some k → r = r'

theorem Unique.nil (key : ρ → Option κ) : Unique key [] := nofun

/-- An update may keep the key of a row or exempt the row. -/
theorem Unique.update {key : ρ → Option κ} (h : Unique key t)
    (hf : ∀ r ∈ t, p r = true → ∀ k, key (f r) = some k → key r = some k) :
    Unique key (update p f t) := by
  have hkey : ∀ r ∈ t, ∀ k, key (updateRow p f r) = some k → key r = some k := by
    intro r hr k hk
    rcases updateRow_cases p f r with ⟨-, heq⟩ | ⟨hp, heq⟩
    · rwa [heq] at hk
    · rw [heq] at hk
      exact hf r hr hp k hk
  intro r hr r' hr' k hk hk'
  obtain ⟨r₀, hr₀, rfl⟩ := List.mem_map.mp hr
  obtain ⟨r₀', hr₀', rfl⟩ := List.mem_map.mp hr'
  rw [h r₀ hr₀ r₀' hr₀' k (hkey r₀ hr₀ k hk) (hkey r₀' hr₀' k hk')]

/-- A row whose key is not taken may be inserted. -/
theorem Unique.insert {key : ρ → Option κ} (h : Unique key t) {x : ρ}
    (hx : ∀ r ∈ t, ∀ k, key r = some k → key x ≠ some k) : Unique key (t ++ [x]) := by
  intro r hr r' hr' k hk hk'
  rcases List.mem_append.mp hr with hr | hr <;> rcases List.mem_append.mp hr' with hr' | hr'
  · exact h r hr r' hr' k hk hk'
  · cases List.mem_singleton.mp hr'
    exact absurd hk' (hx r hr k hk)
  · cases List.mem_singleton.mp hr
    exact absurd hk (hx r' hr' k hk')
  · rw [List.mem_singleton.mp hr, List.mem_singleton.mp hr']

/-! ## Rows that persist -/

/-- Every row is still there, evolved as `R` allows. -/
def Persist (R : ρ → ρ → Prop) (t t' : List ρ) : Prop :=
  ∀ r ∈ t, ∃ r' ∈ t', R r r'

variable {R : ρ → ρ → Prop}

theorem Persist.refl (hR : ∀ r, R r r) (t : List ρ) : Persist R t t :=
  fun r hr => ⟨r, hr, hR r⟩

theorem Persist.trans (hR : ∀ r r' r'', R r r' → R r' r'' → R r r'') {t t' t'' : List ρ}
    (h : Persist R t t') (h' : Persist R t' t'') : Persist R t t'' := by
  intro r hr
  obtain ⟨r', hr', hrel⟩ := h r hr
  obtain ⟨r'', hr'', hrel'⟩ := h' r' hr'
  exact ⟨r'', hr'', hR _ _ _ hrel hrel'⟩

theorem Persist.update (hR : ∀ r, R r r) (hf : ∀ r ∈ t, p r = true → R r (f r)) :
    Persist R t (update p f t) := by
  intro r hr
  refine ⟨updateRow p f r, List.mem_map_of_mem hr, ?_⟩
  rcases updateRow_cases p f r with ⟨-, heq⟩ | ⟨hp, heq⟩
  · rw [heq]
    exact hR r
  · rw [heq]
    exact hf r hr hp

theorem Persist.insert (hR : ∀ r, R r r) (x : ρ) : Persist R t (t ++ [x]) :=
  fun r hr => ⟨r, List.mem_append_left _ hr, hR r⟩

end Tables
