/-
# The canonical digest of a create request

`canonical_digest` of `create_idempotency.rs`: a prefix-free encoding of JSON values that
does not see the order of the fields of an object, under SHA-256.

* `hashValue` : the bytes that are hashed;
* `Json.canonical` : the fields of every object in order;
* `hashValue_separated` : the bytes of a value, followed by others, tell the canonical value;
* `digest_canonical` : and so does the digest, where the hash does not collide.
-/
import CtfZone.Journal
import Mathlib.Data.List.Sort
import Mathlib.Data.String.Basic

namespace CtfZone.Creation

/-! ## The bytes -/

/-- `u64::to_be_bytes`. -/
def be64 (n : ℕ) : List UInt8 :=
  [.ofNat (n / 2 ^ 56), .ofNat (n / 2 ^ 48), .ofNat (n / 2 ^ 40), .ofNat (n / 2 ^ 32),
    .ofNat (n / 2 ^ 24), .ofNat (n / 2 ^ 16), .ofNat (n / 2 ^ 8), .ofNat n]

/-- `str::as_bytes`. -/
def asBytes (s : String) : List UInt8 := s.toUTF8.data.toList

/-- `hash_bytes`. -/
def hashBytes (value : List UInt8) : List UInt8 := be64 value.length ++ value

/-- The fields in the order of their names. -/
def sortFields {α : Type} (fields : List (String × α)) : List (String × α) :=
  fields.insertionSort fun f g => f.1 ≤ g.1

mutual

/-- `hash_value`. -/
def hashValue : Json → List UInt8
  | .null => [0]
  | .bool b => [1, if b then 1 else 0]
  | .number text => 2 :: hashBytes (asBytes text)
  | .string s => 3 :: hashBytes (asBytes s)
  | .array items => 4 :: (be64 items.length ++ hashItems items)
  | .object fields => 5 :: (be64 fields.length ++
      (sortFields (hashFields fields)).flatMap fun f => hashBytes (asBytes f.1) ++ f.2)

/-- The values of an array. -/
def hashItems : List Json → List UInt8
  | [] => []
  | v :: items => hashValue v ++ hashItems items

/-- The values of an object. -/
def hashFields : List (String × Json) → List (String × List UInt8)
  | [] => []
  | (name, v) :: fields => (name, hashValue v) :: hashFields fields

end

mutual

/-- The value with the fields of every object in order. -/
def canonical : Json → Json
  | .array items => .array (canonicalItems items)
  | .object fields => .object (sortFields (canonicalFields fields))
  | v => v

/-- The values of an array. -/
def canonicalItems : List Json → List Json
  | [] => []
  | v :: items => canonical v :: canonicalItems items

/-- The values of an object. -/
def canonicalFields : List (String × Json) → List (String × Json)
  | [] => []
  | (name, v) :: fields => (name, canonical v) :: canonicalFields fields

end

attribute [simp] hashValue hashItems hashFields canonical canonicalItems canonicalFields

theorem hashItems_eq (items : List Json) : hashItems items = items.flatMap hashValue := by
  induction items with
  | nil => rfl
  | cons v items ih => rw [hashItems, ih, List.flatMap_cons]

theorem hashFields_eq (fields : List (String × Json)) :
    hashFields fields = fields.map fun f => (f.1, hashValue f.2) := by
  induction fields with
  | nil => rfl
  | cons f fields ih => rw [hashFields, ih, List.map_cons]

theorem canonicalItems_eq (items : List Json) : canonicalItems items = items.map canonical := by
  induction items with
  | nil => rfl
  | cons v items ih => rw [canonicalItems, ih, List.map_cons]

theorem canonicalFields_eq (fields : List (String × Json)) :
    canonicalFields fields = fields.map fun f => (f.1, canonical f.2) := by
  induction fields with
  | nil => rfl
  | cons f fields ih => rw [canonicalFields, ih, List.map_cons]

/-- The order of the fields does not depend on their values. -/
theorem sortFields_map {α β : Type} (g : α → β) (fields : List (String × α)) :
    sortFields (fields.map fun f => (f.1, g f.2)) =
      (sortFields fields).map fun f => (f.1, g f.2) := by
  symm
  apply List.map_insertionSort
  exact fun _ _ _ _ => Iff.rfl

theorem hashValue_array (items : List Json) :
    hashValue (.array items) = 4 :: (be64 items.length ++ items.flatMap hashValue) := by
  rw [hashValue, hashItems_eq]

/-- The bytes of a field of an object. -/
def hashField (f : String × Json) : List UInt8 := hashBytes (asBytes f.1) ++ hashValue f.2

theorem hashValue_object (fields : List (String × Json)) :
    hashValue (.object fields) =
      5 :: (be64 fields.length ++ (sortFields fields).flatMap hashField) := by
  rw [hashValue, hashFields_eq, sortFields_map, List.flatMap_map]
  rfl

theorem canonical_array (items : List Json) :
    canonical (.array items) = .array (items.map canonical) := by
  rw [canonical, canonicalItems_eq]

theorem canonical_object (fields : List (String × Json)) :
    canonical (.object fields) =
      .object ((sortFields fields).map fun f => (f.1, canonical f.2)) := by
  rw [canonical, canonicalFields_eq, sortFields_map]

/-! ## Lengths -/

theorem length_be64 (n : ℕ) : (be64 n).length = 8 := rfl

/-- The bytes of a length tell it. -/
theorem be64_inj {n m : ℕ} (hn : n < 2 ^ 64) (hm : m < 2 ^ 64) (h : be64 n = be64 m) : n = m := by
  have hbyte : ∀ a b : ℕ, UInt8.ofNat a = UInt8.ofNat b → a % 256 = b % 256 := by
    intro a b hab
    have := congrArg UInt8.toNat hab
    simpa using this
  simp only [be64, List.cons.injEq, and_true] at h
  obtain ⟨h₇, h₆, h₅, h₄, h₃, h₂, h₁, h₀⟩ := h
  have h₇ := hbyte _ _ h₇
  have h₆ := hbyte _ _ h₆
  have h₅ := hbyte _ _ h₅
  have h₄ := hbyte _ _ h₄
  have h₃ := hbyte _ _ h₃
  have h₂ := hbyte _ _ h₂
  have h₁ := hbyte _ _ h₁
  have h₀ := hbyte _ _ h₀
  omega

theorem asBytes_inj {s s' : String} (h : asBytes s = asBytes s') : s = s' := by
  apply String.toByteArray_inj.mp
  apply ByteArray.ext
  exact Array.toList_inj.mp h

/-- Bytes with their length before them. -/
theorem hashBytes_prefix {b b' r r' : List UInt8} (hb : b.length < 2 ^ 64)
    (hb' : b'.length < 2 ^ 64) (h : hashBytes b ++ r = hashBytes b' ++ r') : b = b' ∧ r = r' := by
  rw [hashBytes, hashBytes, List.append_assoc, List.append_assoc] at h
  obtain ⟨hlength, h⟩ := List.append_inj h rfl
  exact List.append_inj h (be64_inj hb hb' hlength)

/-! ## What the bytes tell -/

/-- Every length of a value is one of a 64-bit machine. -/
inductive Sized : Json → Prop
  | null : Sized .null
  | bool (b : Bool) : Sized (.bool b)
  | number {text : String} (h : (asBytes text).length < 2 ^ 64) : Sized (.number text)
  | string {s : String} (h : (asBytes s).length < 2 ^ 64) : Sized (.string s)
  | array {items : List Json} (h : items.length < 2 ^ 64) (hitems : ∀ v ∈ items, Sized v) :
      Sized (.array items)
  | object {fields : List (String × Json)} (h : fields.length < 2 ^ 64)
      (hnames : ∀ f ∈ fields, (asBytes f.1).length < 2 ^ 64)
      (hvalues : ∀ f ∈ fields, Sized f.2) : Sized (.object fields)

/-- The bytes of the value, followed by others, tell the canonical value. -/
def Separated (v : Json) : Prop :=
  ∀ v' r r', Sized v → Sized v' → hashValue v ++ r = hashValue v' ++ r' →
    canonical v = canonical v' ∧ r = r'

/-- The bytes of the items of an array. -/
theorem items_prefix {items items' : List Json} {r r' : List UInt8}
    (hseparated : ∀ v ∈ items, Separated v) (hlength : items.length = items'.length)
    (hsized : ∀ v ∈ items, Sized v) (hsized' : ∀ v ∈ items', Sized v)
    (h : items.flatMap hashValue ++ r = items'.flatMap hashValue ++ r') :
    items.map canonical = items'.map canonical ∧ r = r' := by
  induction items generalizing items' with
  | nil =>
      obtain rfl := List.length_eq_zero_iff.mp hlength.symm
      exact ⟨rfl, h⟩
  | cons v items ih =>
      obtain ⟨v', items', rfl⟩ := List.exists_cons_of_length_eq_add_one hlength.symm
      rw [List.forall_mem_cons] at hseparated hsized hsized'
      simp only [List.flatMap_cons, List.append_assoc] at h
      obtain ⟨hv, h⟩ := hseparated.1 v' _ _ hsized.1 hsized'.1 h
      obtain ⟨hitems, hr⟩ := ih hseparated.2 (Nat.succ.inj hlength) hsized.2 hsized'.2 h
      exact ⟨by rw [List.map_cons, List.map_cons, hv, hitems], hr⟩

theorem length_hashField (f : String × Json) :
    (hashField f).length = 8 + (asBytes f.1).length + (hashValue f.2).length := by
  rw [hashField, hashBytes, List.length_append, List.length_append, length_be64]

/-- The bytes of the fields of an object. -/
theorem fields_prefix {fields fields' : List (String × Json)} {r r' : List UInt8}
    (hseparated : ∀ f ∈ fields, Separated f.2) (hlength : fields.length = fields'.length)
    (hsized : ∀ f ∈ fields, (asBytes f.1).length < 2 ^ 64 ∧ Sized f.2)
    (hsized' : ∀ f ∈ fields', (asBytes f.1).length < 2 ^ 64 ∧ Sized f.2)
    (h : fields.flatMap hashField ++ r = fields'.flatMap hashField ++ r') :
    (fields.map fun f => (f.1, canonical f.2)) = (fields'.map fun f => (f.1, canonical f.2)) ∧
      r = r' := by
  induction fields generalizing fields' with
  | nil =>
      obtain rfl := List.length_eq_zero_iff.mp hlength.symm
      exact ⟨rfl, h⟩
  | cons f fields ih =>
      obtain ⟨f', fields', rfl⟩ := List.exists_cons_of_length_eq_add_one hlength.symm
      rw [List.forall_mem_cons] at hseparated hsized hsized'
      rw [List.flatMap_cons, List.flatMap_cons, hashField, hashField] at h
      simp only [List.append_assoc] at h
      obtain ⟨hname, h⟩ := hashBytes_prefix hsized.1.1 hsized'.1.1 h
      obtain ⟨hv, h⟩ := hseparated.1 f'.2 _ _ hsized.1.2 hsized'.1.2 h
      obtain ⟨hfields, hr⟩ := ih hseparated.2 (Nat.succ.inj hlength) hsized.2 hsized'.2 h
      refine ⟨?_, hr⟩
      rw [List.map_cons, List.map_cons, hfields, hv, asBytes_inj hname]

theorem length_le_flatMap {α : Type} {g : α → List UInt8} (hg : ∀ a, 0 < (g a).length)
    (l : List α) : l.length ≤ (l.flatMap g).length := by
  induction l with
  | nil => exact Nat.le_refl 0
  | cons a l ih =>
      have := hg a
      rw [List.flatMap_cons, List.length_append, List.length_cons]
      omega

theorem length_le_flatMap_of_mem {α : Type} {g : α → List UInt8} {a : α} {l : List α}
    (ha : a ∈ l) : (g a).length ≤ (l.flatMap g).length := by
  obtain ⟨s, t, rfl⟩ := List.append_of_mem ha
  simp only [List.flatMap_append, List.flatMap_cons, List.length_append]
  omega

theorem length_hashValue_pos (v : Json) : 0 < (hashValue v).length := by
  cases v <;> simp [hashValue]

theorem length_sortFields {α : Type} (fields : List (String × α)) :
    (sortFields fields).length = fields.length := List.length_insertionSort _ fields

/-- The bytes of an array tell it where those of its items do. -/
theorem separated_array {items : List Json} (hseparated : ∀ v ∈ items, Separated v) :
    Separated (.array items) := by
  intro v' r r' hsized hsized' h
  cases v' with
  | array items' =>
      obtain _ | _ | _ | _ | ⟨hlt, hitems⟩ | _ := hsized
      obtain _ | _ | _ | _ | ⟨hlt', hitems'⟩ | _ := hsized'
      rw [hashValue_array, hashValue_array] at h
      simp only [List.cons_append, List.cons.injEq, true_and, List.append_assoc] at h
      obtain ⟨hlength, h⟩ := List.append_inj h rfl
      obtain ⟨hitems, hr⟩ := items_prefix hseparated (be64_inj hlt hlt' hlength) hitems hitems' h
      rw [canonical_array, canonical_array, hitems]
      exact ⟨rfl, hr⟩
  | _ => simp [hashValue] at h

/-- The bytes of an object tell it where those of its values do. -/
theorem separated_object {fields : List (String × Json)}
    (hseparated : ∀ f ∈ fields, Separated f.2) : Separated (.object fields) := by
  intro v' r r' hsized hsized' h
  cases v' with
  | object fields' =>
      obtain _ | _ | _ | _ | _ | ⟨hlt, hnames, hvalues⟩ := hsized
      obtain _ | _ | _ | _ | _ | ⟨hlt', hnames', hvalues'⟩ := hsized'
      rw [hashValue_object, hashValue_object] at h
      simp only [List.cons_append, List.cons.injEq, true_and, List.append_assoc] at h
      have hmem : ∀ {fs : List (String × Json)} {f}, f ∈ sortFields fs → f ∈ fs :=
        fun hf => (List.mem_insertionSort _).mp hf
      obtain ⟨hlength, h⟩ := List.append_inj h rfl
      have hlength := be64_inj hlt hlt' hlength
      obtain ⟨hfields, hr⟩ := fields_prefix (fun f hf => hseparated f (hmem hf))
        ((length_sortFields fields).trans (hlength.trans (length_sortFields fields').symm))
        (fun f hf => ⟨hnames f (hmem hf), hvalues f (hmem hf)⟩)
        (fun f hf => ⟨hnames' f (hmem hf), hvalues' f (hmem hf)⟩) h
      rw [canonical_object, canonical_object, hfields]
      exact ⟨rfl, hr⟩
  | _ => simp [hashValue] at h

mutual

/-- **The bytes of a value tell the canonical value**, whatever follows them. -/
theorem hashValue_separated : ∀ v, Separated v
  | .null => by
      intro v' r r' _ _ h
      cases v' with
      | null => exact ⟨rfl, (List.cons.inj h).2⟩
      | _ => simp [hashValue] at h
  | .bool b => by
      intro v' r r' _ _ h
      cases v' with
      | bool b' =>
          simp only [hashValue, List.cons_append, List.cons.injEq, List.nil_append] at h
          refine ⟨?_, h.2.2⟩
          revert h
          cases b <;> cases b' <;> simp
      | _ => simp [hashValue] at h
  | .number text => by
      rintro v' r r' (_ | _ | hlt) hsized' h
      cases v' with
      | number text' =>
          obtain _ | _ | hlt' := hsized'
          simp only [hashValue, List.cons_append, List.cons.injEq, true_and] at h
          obtain ⟨htext, hr⟩ := hashBytes_prefix hlt hlt' h
          exact ⟨by rw [asBytes_inj htext], hr⟩
      | _ => simp [hashValue] at h
  | .string s => by
      rintro v' r r' (_ | _ | _ | hlt) hsized' h
      cases v' with
      | string s' =>
          obtain _ | _ | _ | hlt' := hsized'
          simp only [hashValue, List.cons_append, List.cons.injEq, true_and] at h
          obtain ⟨hs, hr⟩ := hashBytes_prefix hlt hlt' h
          exact ⟨by rw [asBytes_inj hs], hr⟩
      | _ => simp [hashValue] at h
  | .array items => separated_array (items_separated items)
  | .object fields => separated_object (fields_separated fields)

theorem items_separated : ∀ items : List Json, ∀ v ∈ items, Separated v
  | [], _, h => nomatch h
  | v :: items, w, h => by
      rcases List.mem_cons.mp h with heq | h
      · exact heq ▸ hashValue_separated v
      · exact items_separated items w h

theorem fields_separated : ∀ fields : List (String × Json), ∀ f ∈ fields, Separated f.2
  | [], _, h => nomatch h
  | (name, v) :: fields, f, h => by
      rcases List.mem_cons.mp h with heq | h
      · exact heq ▸ hashValue_separated v
      · exact fields_separated fields f h

end

mutual

/-- The lengths of a value are less than the number of bytes it is hashed from. -/
theorem sized_of_length : ∀ v, (hashValue v).length < 2 ^ 64 → Sized v
  | .null => fun _ => .null
  | .bool b => fun _ => .bool b
  | .number text => by
      intro h
      simp only [hashValue, hashBytes, List.length_cons, List.length_append] at h
      exact .number (by omega)
  | .string s => by
      intro h
      simp only [hashValue, hashBytes, List.length_cons, List.length_append] at h
      exact .string (by omega)
  | .array items => by
      intro h
      rw [hashValue_array] at h
      simp only [List.length_cons, List.length_append, length_be64] at h
      have hle := length_le_flatMap length_hashValue_pos items
      refine .array (by omega) fun v hv => items_sized items v hv ?_
      have := length_le_flatMap_of_mem (g := hashValue) hv
      omega
  | .object fields => by
      intro h
      rw [hashValue_object] at h
      simp only [List.length_cons, List.length_append, length_be64] at h
      have hpos : ∀ f : String × Json, 0 < (hashField f).length := by
        intro f
        rw [length_hashField]
        omega
      have hle := length_le_flatMap hpos (sortFields fields)
      rw [length_sortFields] at hle
      have hfield : ∀ f ∈ fields, 8 + (asBytes f.1).length + (hashValue f.2).length < 2 ^ 64 := by
        intro f hf
        have hsorted : f ∈ sortFields fields := (List.mem_insertionSort _).mpr hf
        have hle := length_le_flatMap_of_mem (g := hashField) hsorted
        rw [length_hashField] at hle
        omega
      refine .object (by omega) (fun f hf => ?_) fun f hf => fields_sized fields f hf ?_
      · have := hfield f hf
        omega
      · have := hfield f hf
        omega

theorem items_sized : ∀ items : List Json, ∀ v ∈ items, (hashValue v).length < 2 ^ 64 → Sized v
  | [], _, h => nomatch h
  | v :: items, w, h => by
      rcases List.mem_cons.mp h with heq | h
      · exact heq ▸ sized_of_length v
      · exact items_sized items w h

theorem fields_sized :
    ∀ fields : List (String × Json), ∀ f ∈ fields, (hashValue f.2).length < 2 ^ 64 → Sized f.2
  | [], _, h => nomatch h
  | (name, v) :: fields, f, h => by
      rcases List.mem_cons.mp h with heq | h
      · exact heq ▸ sized_of_length v
      · exact fields_sized fields f h

end

/-- The bytes of a value that fits into memory, followed by others, tell the canonical
value. -/
def Telling (v : Json) : Prop :=
  ∀ v' r r', (hashValue v).length < 2 ^ 64 → (hashValue v').length < 2 ^ 64 →
    hashValue v ++ r = hashValue v' ++ r' → canonical v = canonical v' ∧ r = r'

theorem hashValue_telling (v : Json) : Telling v :=
  fun v' r r' hfits hfits' h =>
    hashValue_separated v v' r r' (sized_of_length v hfits) (sized_of_length v' hfits') h

mutual

/-- The bytes do not see the order of fields. -/
theorem hashValue_canonical : ∀ v, hashValue (canonical v) = hashValue v
  | .null => rfl
  | .bool _ => rfl
  | .number _ => rfl
  | .string _ => rfl
  | .array items => by
      rw [canonical_array, hashValue_array, hashValue_array, List.length_map, List.flatMap_map,
        List.flatMap_congr (items_canonical items)]
  | .object fields => by
      have hsorted : sortFields (sortFields fields) = sortFields fields := by
        have htotal : Std.Total fun f g : String × Json => f.1 ≤ g.1 := ⟨fun f g => le_total _ _⟩
        have htrans : IsTrans (String × Json) fun f g => f.1 ≤ g.1 := ⟨fun _ _ _ => le_trans⟩
        exact (List.pairwise_insertionSort _ fields).insertionSort_eq
      rw [canonical_object, hashValue_object, hashValue_object, List.length_map, length_sortFields,
        sortFields_map, hsorted, List.flatMap_map]
      have hfields : ∀ f ∈ sortFields fields, hashField (f.1, canonical f.2) = hashField f := by
        intro f hf
        rw [hashField, hashField, fields_canonical fields f ((List.mem_insertionSort _).mp hf)]
      rw [List.flatMap_congr hfields]

theorem items_canonical : ∀ items : List Json, ∀ v ∈ items, hashValue (canonical v) = hashValue v
  | [], _, h => nomatch h
  | v :: items, w, h => by
      rcases List.mem_cons.mp h with heq | h
      · exact heq ▸ hashValue_canonical v
      · exact items_canonical items w h

theorem fields_canonical :
    ∀ fields : List (String × Json), ∀ f ∈ fields, hashValue (canonical f.2) = hashValue f.2
  | [], _, h => nomatch h
  | (name, v) :: fields, f, h => by
      rcases List.mem_cons.mp h with heq | h
      · exact heq ▸ hashValue_canonical v
      · exact fields_canonical fields f h

end

/-! ## The digest -/

/-- What `canonical_digest` hashes. -/
def digestInput (v : Json) : List UInt8 :=
  asBytes "ctfzone/admin-create-request/v1" ++ hashValue v

/-- `canonical_digest`. -/
def canonicalDigest (sha256 : List UInt8 → List UInt8) (v : Json) : List UInt8 :=
  sha256 (digestInput v)

/-- The lengths in a value are those of a text that fits into memory. -/
def Fits (v : Json) : Prop := (hashValue v).length < 2 ^ 64

/-- Two values of one digest that are hashed from different bytes. -/
def Collide (sha256 : List UInt8 → List UInt8) (v v' : Json) : Prop :=
  canonicalDigest sha256 v = canonicalDigest sha256 v' ∧ digestInput v ≠ digestInput v'

/-- **Values of one digest are the same up to the order of fields**, if they do not collide. -/
theorem digest_canonical {sha256 : List UInt8 → List UInt8} {v v' : Json} (hv : Fits v)
    (hv' : Fits v') (hcollide : ¬ Collide sha256 v v')
    (h : canonicalDigest sha256 v = canonicalDigest sha256 v') : canonical v = canonical v' := by
  have hinput : digestInput v = digestInput v' := by
    by_contra hne
    exact hcollide ⟨h, hne⟩
  have hbytes : hashValue v = hashValue v' := List.append_cancel_left hinput
  have hopens : hashValue v ++ [] = hashValue v' ++ [] := by rw [hbytes]
  exact (hashValue_telling v v' [] [] hv hv' hopens).1

/-- **The digest does not see the order of fields.** -/
theorem digest_congr {sha256 : List UInt8 → List UInt8} {v v' : Json}
    (h : canonical v = canonical v') : canonicalDigest sha256 v = canonicalDigest sha256 v' := by
  rw [canonicalDigest, canonicalDigest, digestInput, digestInput, ← hashValue_canonical v, h,
    hashValue_canonical]

end CtfZone.Creation
