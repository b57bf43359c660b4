/-
# Tables with a primary key

How the rows of a table evolve between two moments, where a key tells them apart.

* `Evolves key R New t t'` : every row is still there, evolved as `R` allows, and the other
  rows are `New`;
* `Evolves.update`, `Evolves.insert` : the rules for `UPDATE … WHERE` and `INSERT`.
-/
import CtfZone.Tables
import Mathlib.Data.List.Nodup

namespace Tables

universe u v

variable {ρ : Type u} {κ : Type v} {key : ρ → κ} {p : ρ → Bool} {f : ρ → ρ} {t t' : List ρ}
  {R R' : ρ → ρ → Prop} {New New' : ρ → Prop}

/-- The rows of `t'` are those of `t`, evolved as `R` allows, and new ones. -/
structure Evolves (key : ρ → κ) (R : ρ → ρ → Prop) (New : ρ → Prop) (t t' : List ρ) : Prop where
  nodup : (t'.map key).Nodup
  forth : ∀ r ∈ t, ∃ r' ∈ t', key r' = key r ∧ R r r'
  back : ∀ r' ∈ t', (∃ r ∈ t, key r' = key r ∧ R r r') ∨ New r'

theorem key_updateRow (hkey : ∀ r, key (f r) = key r) (r : ρ) : key (updateRow p f r) = key r := by
  rcases updateRow_cases p f r with ⟨-, heq⟩ | ⟨-, heq⟩
  · rw [heq]
  · rw [heq, hkey]

/-- An update that keeps the key keeps the keys. -/
theorem map_update (hkey : ∀ r, key (f r) = key r) : (update p f t).map key = t.map key := by
  rw [update, List.map_map]
  apply List.map_congr_left
  intro r _
  exact key_updateRow hkey r

/-- An update that keeps the key keeps the keys apart. -/
theorem nodup_update (hnodup : (t.map key).Nodup) (hkey : ∀ r, key (f r) = key r) :
    ((update p f t).map key).Nodup := by
  rwa [map_update hkey]

/-- The row of an updated table with the key of a row is that row, or what it is updated to. -/
theorem updated (hnodup : (t.map key).Nodup) (hkey : ∀ r, key (f r) = key r) {r r' : ρ}
    (hr : r ∈ t) (hr' : r' ∈ update p f t) (heq : key r' = key r) :
    p r = false ∧ r' = r ∨ p r = true ∧ r' = f r := by
  obtain rfl : r' = updateRow p f r :=
    List.inj_on_of_nodup_map (nodup_update hnodup hkey) hr' (List.mem_map_of_mem hr)
      (heq.trans (key_updateRow hkey r).symm)
  exact updateRow_cases p f r

/-- A row is found by a test that rows with other keys do not pass. -/
theorem find?_row (hnodup : (t.map key).Nodup) {r : ρ} (hr : r ∈ t) (hp : p r = true)
    (hkey : ∀ r', p r' = true → key r' = key r) : t.find? p = some r := by
  obtain ⟨r', hfind⟩ := Option.isSome_iff_exists.mp (List.find?_isSome.mpr ⟨r, hr, hp⟩)
  have hsame : key r' = key r := hkey r' (List.find?_some hfind)
  rw [hfind, List.inj_on_of_nodup_map hnodup (List.mem_of_find?_eq_some hfind) hr hsame]

theorem Evolves.refl (hnodup : (t.map key).Nodup) (hR : ∀ r ∈ t, R r r) : Evolves key R New t t :=
  ⟨hnodup, fun r hr => ⟨r, hr, rfl, hR r hr⟩, fun r hr => .inl ⟨r, hr, rfl, hR r hr⟩⟩

/-- The rows that are updated evolve, and the others stay as they are. -/
theorem Evolves.update (hnodup : (t.map key).Nodup) (hkey : ∀ r, key (f r) = key r)
    (hR : ∀ r ∈ t, R r r) (hf : ∀ r ∈ t, p r = true → R r (f r)) :
    Evolves key R New t (update p f t) := by
  have hrow : ∀ r ∈ t, R r (updateRow p f r) := by
    intro r hr
    rcases updateRow_cases p f r with ⟨-, heq⟩ | ⟨hp, heq⟩
    · rw [heq]
      exact hR r hr
    · rw [heq]
      exact hf r hr hp
  refine ⟨nodup_update hnodup hkey, ?_, ?_⟩
  · intro r hr
    exact ⟨_, List.mem_map_of_mem hr, key_updateRow hkey r, hrow r hr⟩
  · intro r' hr'
    obtain ⟨r, hr, rfl⟩ := List.mem_map.mp hr'
    exact .inl ⟨r, hr, key_updateRow hkey r, hrow r hr⟩

/-- A row with a key that no row has. -/
theorem Evolves.insert (h : Evolves key R (fun _ => False) t t') {x : ρ}
    (hkey : ∀ r ∈ t, key r ≠ key x) (hx : New x) : Evolves key R New t (t' ++ [x]) := by
  refine ⟨?_, ?_, ?_⟩
  · rw [List.map_append, List.nodup_append]
    refine ⟨h.nodup, List.nodup_singleton _, ?_⟩
    intro k hk k' hk' heq
    obtain ⟨r', hr', rfl⟩ := List.mem_map.mp hk
    obtain rfl := List.mem_singleton.mp hk'
    rcases h.back r' hr' with ⟨r, hr, hkey', -⟩ | hfalse
    · exact hkey r hr (hkey'.symm.trans heq)
    · exact hfalse
  · intro r hr
    obtain ⟨r', hr', hrel⟩ := h.forth r hr
    exact ⟨r', List.mem_append_left _ hr', hrel⟩
  · intro r' hr'
    rcases List.mem_append.mp hr' with hr' | hr'
    · exact .inl ((h.back r' hr').resolve_right id)
    · obtain rfl := List.mem_singleton.mp hr'
      exact .inr hx

/-- Two rows with one key are one row. -/
theorem Evolves.eq_of_key (h : Evolves key R New t t') {r r' : ρ} (hr : r ∈ t') (hr' : r' ∈ t')
    (heq : key r = key r') : r = r' := List.inj_on_of_nodup_map h.nodup hr hr' heq

/-- What a row has become. -/
theorem Evolves.rel (h : Evolves key R New t t') {r r' : ρ} (hr : r ∈ t) (hr' : r' ∈ t')
    (heq : key r' = key r) : R r r' := by
  obtain ⟨r'', hr'', hkey, hrel⟩ := h.forth r hr
  rwa [h.eq_of_key hr' hr'' (heq.trans hkey.symm)]

end Tables
