/-
# What the digest of a create request separates

The values of `serde_json` as the digest meets them (the names of an object are different,
and every length is one of a 64-bit machine), and the values that are the same up to the
order of names.

* `Reordered` : equal up to the order of the names of objects, at every depth;
* `reordered_canonical` : the canonical value is such a reordering;
* `canonical_of_reordered` : and reorderings have one canonical value;
* `hashed_bytes_separate` : the bytes that are hashed agree for reorderings and for nothing
  else, whatever follows them.
-/
import CtfZone.CanonicalDigest

namespace CtfZone.Creation

/-! ## Values -/

/-- The names of every object of a value are different. -/
inductive Distinct : Json → Prop
  | null : Distinct .null
  | bool (b : Bool) : Distinct (.bool b)
  | number (text : String) : Distinct (.number text)
  | string (s : String) : Distinct (.string s)
  | array {items : List Json} (hitems : ∀ v ∈ items, Distinct v) : Distinct (.array items)
  | object {fields : List (String × Json)} (hnames : (fields.map Prod.fst).Nodup)
      (hvalues : ∀ f ∈ fields, Distinct f.2) : Distinct (.object fields)

/-- `serde_json::Value`: an object is a map, and a length is a `usize`. -/
structure Value where
  json : Json
  distinct : Distinct json
  sized : Sized json

/-- The value is another one with the names of its objects in another order: those of one
object are moved, or those of an item or of the value of a field, any number of times. -/
inductive Reordered : Json → Json → Prop
  | refl (v : Json) : Reordered v v
  | trans {u v w : Json} : Reordered u v → Reordered v w → Reordered u w
  | fields {fields fields' : List (String × Json)} :
      fields.Perm fields' → Reordered (.object fields) (.object fields')
  | item (before after : List Json) {v v' : Json} : Reordered v v' →
      Reordered (.array (before ++ v :: after)) (.array (before ++ v' :: after))
  | value (before after : List (String × Json)) (name : String) {v v' : Json} : Reordered v v' →
      Reordered (.object (before ++ (name, v) :: after))
        (.object (before ++ (name, v') :: after))

theorem Reordered.symm {u v : Json} (h : Reordered u v) : Reordered v u := by
  induction h with
  | refl v => exact .refl v
  | trans _ _ ih ih' => exact ih'.trans ih
  | fields h => exact .fields h.symm
  | item before after _ ih => exact .item before after ih
  | value before after name _ ih => exact .value before after name ih

/-! ## The canonical value is a reordering -/

/-- The items of an array are reordered one after the other. -/
theorem reordered_items {g : Json → Json} (before items : List Json)
    (h : ∀ v ∈ items, Reordered v (g v)) :
    Reordered (.array (before ++ items)) (.array (before ++ items.map g)) := by
  induction items generalizing before with
  | nil => exact .refl _
  | cons v items ih =>
      obtain ⟨hv, hitems⟩ := List.forall_mem_cons.mp h
      have hrest := ih (before ++ [g v]) hitems
      rw [List.append_assoc, List.append_assoc] at hrest
      exact (Reordered.item before items hv).trans hrest

/-- The values of an object are reordered one after the other. -/
theorem reordered_values {g : Json → Json} (before fields : List (String × Json))
    (h : ∀ f ∈ fields, Reordered f.2 (g f.2)) :
    Reordered (.object (before ++ fields))
      (.object (before ++ fields.map fun f => (f.1, g f.2))) := by
  induction fields generalizing before with
  | nil => exact .refl _
  | cons f fields ih =>
      obtain ⟨hf, hfields⟩ := List.forall_mem_cons.mp h
      have hrest := ih (before ++ [(f.1, g f.2)]) hfields
      rw [List.append_assoc, List.append_assoc] at hrest
      exact (Reordered.value before fields f.1 hf).trans hrest

mutual

/-- The canonical value has the names of every object in another order. -/
theorem reordered_canonical : ∀ v, Reordered v (canonical v)
  | .null => .refl _
  | .bool _ => .refl _
  | .number _ => .refl _
  | .string _ => .refl _
  | .array items => by
      rw [canonical_array]
      exact reordered_items [] items (items_reordered items)
  | .object fields => by
      rw [canonical_object, ← sortFields_map]
      refine (reordered_values [] fields (fields_reordered fields)).trans (.fields ?_)
      exact (List.perm_insertionSort _ _).symm

theorem items_reordered : ∀ items : List Json, ∀ v ∈ items, Reordered v (canonical v)
  | [], _, h => nomatch h
  | v :: items, w, h => by
      rcases List.mem_cons.mp h with heq | h
      · exact heq ▸ reordered_canonical v
      · exact items_reordered items w h

theorem fields_reordered :
    ∀ fields : List (String × Json), ∀ f ∈ fields, Reordered f.2 (canonical f.2)
  | [], _, h => nomatch h
  | (name, v) :: fields, f, h => by
      rcases List.mem_cons.mp h with heq | h
      · exact heq ▸ reordered_canonical v
      · exact fields_reordered fields f h

end

/-! ## Reorderings have one canonical value -/

theorem pairwise_sortFields {α : Type} (fields : List (String × α)) :
    (sortFields fields).Pairwise fun f g => f.1 ≤ g.1 := by
  have htotal : Std.Total fun f g : String × α => f.1 ≤ g.1 := ⟨fun f g => le_total _ _⟩
  have htrans : IsTrans (String × α) fun f g => f.1 ≤ g.1 := ⟨fun _ _ _ => le_trans⟩
  exact List.pairwise_insertionSort _ fields

/-- Fields of different names have one order. -/
theorem sortFields_perm {α : Type} {fields fields' : List (String × α)}
    (hnames : (fields.map Prod.fst).Nodup) (hperm : fields.Perm fields') :
    sortFields fields = sortFields fields' := by
  have hsorted : (sortFields fields).Perm (sortFields fields') :=
    (List.perm_insertionSort _ _).trans (hperm.trans (List.perm_insertionSort _ _).symm)
  refine hsorted.eq_of_pairwise (fun f g hf hg hle hge => ?_) (pairwise_sortFields fields)
    (pairwise_sortFields fields')
  have hf : f ∈ fields := (List.mem_insertionSort _).mp hf
  have hg : g ∈ fields := hperm.mem_iff.mpr ((List.mem_insertionSort _).mp hg)
  exact List.inj_on_of_nodup_map hnames hf hg (le_antisymm hle hge)

/-- Reorderings of a value with different names have its canonical value, and different
names too. -/
theorem canonical_of_reordered {u v : Json} (h : Reordered u v) (hu : Distinct u) :
    canonical u = canonical v ∧ Distinct v := by
  induction h with
  | refl v => exact ⟨rfl, hu⟩
  | trans _ _ ih ih' =>
      obtain ⟨heq, hv⟩ := ih hu
      obtain ⟨heq', hw⟩ := ih' hv
      exact ⟨heq.trans heq', hw⟩
  | @fields fields fields' hperm =>
      obtain _ | _ | _ | _ | _ | ⟨hnames, hvalues⟩ := hu
      constructor
      · rw [canonical_object, canonical_object, sortFields_perm hnames hperm]
      · exact .object ((hperm.map Prod.fst).nodup hnames)
          fun f hf => hvalues f (hperm.mem_iff.mpr hf)
  | item before after _ ih =>
      obtain _ | _ | _ | _ | hitems := hu
      simp only [List.forall_mem_append, List.forall_mem_cons] at hitems
      obtain ⟨heq, hv⟩ := ih hitems.2.1
      constructor
      · simp only [canonical_array, List.map_append, List.map_cons, heq]
      · refine .array ?_
        simp only [List.forall_mem_append, List.forall_mem_cons]
        exact ⟨hitems.1, hv, hitems.2.2⟩
  | value before after name _ ih =>
      obtain _ | _ | _ | _ | _ | ⟨hnames, hvalues⟩ := hu
      simp only [List.forall_mem_append, List.forall_mem_cons] at hvalues
      obtain ⟨heq, hv⟩ := ih hvalues.2.1
      constructor
      · simp only [canonical_object, ← sortFields_map, List.map_append, List.map_cons, heq]
      · refine .object ?_ ?_
        · simpa only [List.map_append, List.map_cons] using hnames
        · simp only [List.forall_mem_append, List.forall_mem_cons]
          exact ⟨hvalues.1, hv, hvalues.2.2⟩

/-! ## What the bytes separate -/

/-- Values are reorderings of each other if they have one canonical value. -/
theorem canonical_eq_iff {u v : Json} (hu : Distinct u) :
    canonical u = canonical v ↔ Reordered u v := by
  constructor
  · intro h
    have hv := (reordered_canonical v).symm
    rw [← h] at hv
    exact (reordered_canonical u).trans hv
  · exact fun h => (canonical_of_reordered h hu).1

/-- **The hashed bytes agree for reorderings of a value and for nothing else**, and no
bytes after them make those of one value the beginning of those of another. -/
theorem hashed_bytes_separate (u v : Value) :
    (digestInput u.json = digestInput v.json ↔ Reordered u.json v.json) ∧
      ∀ r r' : List UInt8, digestInput u.json ++ r = digestInput v.json ++ r' ↔
        Reordered u.json v.json ∧ r = r' := by
  have hopen : ∀ r r' : List UInt8, digestInput u.json ++ r = digestInput v.json ++ r' ↔
      Reordered u.json v.json ∧ r = r' := by
    intro r r'
    rw [digestInput, digestInput, List.append_assoc, List.append_assoc, List.append_cancel_left_eq]
    constructor
    · intro h
      obtain ⟨hcanonical, hr⟩ := hashValue_separated u.json v.json r r' u.sized v.sized h
      exact ⟨(canonical_eq_iff u.distinct).mp hcanonical, hr⟩
    · rintro ⟨hreordered, rfl⟩
      rw [← hashValue_canonical u.json, (canonical_eq_iff u.distinct).mpr hreordered,
        hashValue_canonical]
  refine ⟨?_, hopen⟩
  have hclosed := hopen [] []
  rwa [List.append_nil, List.append_nil, and_iff_left rfl] at hclosed

end CtfZone.Creation
