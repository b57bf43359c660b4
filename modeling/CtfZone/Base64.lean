/-
# Base64

Encodings of bytes by an alphabet of 64 characters, with padding or without, and their strict
decoding: no character outside of the alphabet, no bits that are not zero behind the last
byte, and exactly the padding that the encoding has.

* `Alphabet` : 64 different characters, none of which pads;
* `Alphabet.decodeGroups_iff` : groups of characters are decoded if they are an encoding;
* `Engine.decode_iff` : **a text is decoded to the bytes that it is the encoding of**.
-/
import Mathlib.Algebra.Order.Ring.Int
import Mathlib.Data.List.Basic
import Mathlib.Data.List.GetD
import Mathlib.Data.List.Infix
import Mathlib.Data.List.Nodup

namespace Base64

/-! ## Alphabets -/

/-- An alphabet: 64 different characters, none of which pads. -/
structure Alphabet where
  chars : List Char
  nodup : chars.Nodup
  length_eq : chars.length = 64
  noPad : '=' ∉ chars

/-- The character of six bits. -/
def Alphabet.digit (a : Alphabet) (n : ℕ) : Char := a.chars.getD n '='

/-- The six bits of a character. -/
def Alphabet.value (a : Alphabet) (c : Char) : Option ℕ :=
  if c ∈ a.chars then some (a.chars.idxOf c) else none

theorem Alphabet.value_digit (a : Alphabet) {n : ℕ} (hn : n < 64) :
    a.value (a.digit n) = some n := by
  have hlt : n < a.chars.length := a.length_eq.symm ▸ hn
  rw [Alphabet.digit, List.getD_eq_getElem _ _ hlt, Alphabet.value, if_pos (List.getElem_mem hlt),
    a.nodup.idxOf_getElem]

theorem Alphabet.value_iff (a : Alphabet) {c : Char} {n : ℕ} :
    a.value c = some n ↔ n < 64 ∧ a.digit n = c := by
  constructor
  · intro h
    unfold Alphabet.value at h
    split at h
    · rename_i hc
      obtain rfl := Option.some.inj h
      have hlt := List.idxOf_lt_length_of_mem hc
      refine ⟨a.length_eq ▸ hlt, ?_⟩
      rw [Alphabet.digit, List.getD_eq_getElem _ _ hlt, List.getElem_idxOf]
    · cases h
  · rintro ⟨hn, rfl⟩
    exact a.value_digit hn

theorem Alphabet.digit_mem (a : Alphabet) {n : ℕ} (hn : n < 64) : a.digit n ∈ a.chars := by
  have hlt : n < a.chars.length := a.length_eq.symm ▸ hn
  rw [Alphabet.digit, List.getD_eq_getElem _ _ hlt]
  exact List.getElem_mem hlt

/-- The six bits of the characters of a text. -/
def Alphabet.values (a : Alphabet) : List Char → Option (List ℕ)
  | [] => some []
  | c :: text => (a.value c).bind fun n => (a.values text).map (n :: ·)

theorem Alphabet.values_iff (a : Alphabet) {text : List Char} {l : List ℕ} :
    a.values text = some l ↔ (∀ n ∈ l, n < 64) ∧ l.map a.digit = text := by
  induction text generalizing l with
  | nil =>
      rw [Alphabet.values, List.map_eq_nil_iff, Option.some_inj]
      constructor
      · rintro rfl
        exact ⟨fun _ h => absurd h List.not_mem_nil, rfl⟩
      · exact fun h => h.2.symm
  | cons c text ih =>
      rw [Alphabet.values, Option.bind_eq_some_iff]
      constructor
      · rintro ⟨n, hn, hrest⟩
        obtain ⟨rest, hvalues, rfl⟩ := Option.map_eq_some_iff.mp hrest
        obtain ⟨hlt, hdigit⟩ := a.value_iff.mp hn
        obtain ⟨hall, hmap⟩ := ih.mp hvalues
        exact ⟨List.forall_mem_cons.mpr ⟨hlt, hall⟩, by rw [List.map_cons, hdigit, hmap]⟩
      · rintro ⟨hall, hmap⟩
        obtain ⟨n, rest, rfl, hdigit, hrest⟩ := List.map_eq_cons_iff.mp hmap
        obtain ⟨hlt, hall⟩ := List.forall_mem_cons.mp hall
        refine ⟨n, a.value_iff.mpr ⟨hlt, hdigit⟩, ?_⟩
        rw [ih.mpr ⟨hall, hrest⟩]
        rfl

/-! ## Groups of six bits -/

/-- Three bytes are four groups of six bits, and what is left of the bytes is two or three. -/
def sextets : List UInt8 → List ℕ
  | [] => []
  | [x] => [x.toNat / 4, x.toNat % 4 * 16]
  | [x, y] => [x.toNat / 4, x.toNat % 4 * 16 + y.toNat / 16, y.toNat % 16 * 4]
  | x :: y :: z :: rest =>
    x.toNat / 4 :: (x.toNat % 4 * 16 + y.toNat / 16) :: (y.toNat % 16 * 4 + z.toNat / 64) ::
      z.toNat % 64 :: sextets rest

/-- The bytes of groups of six bits, where the bits behind the last byte are zero. -/
def bytes : List ℕ → Option (List UInt8)
  | [] => some []
  | [_] => none
  | [p, q] => if q % 16 = 0 then some [.ofNat (p * 4 + q / 16)] else none
  | [p, q, r] =>
    if r % 4 = 0 then some [.ofNat (p * 4 + q / 16), .ofNat (q % 16 * 16 + r / 4)] else none
  | p :: q :: r :: s :: rest =>
    (bytes rest).map fun b =>
      .ofNat (p * 4 + q / 16) :: .ofNat (q % 16 * 16 + r / 4) :: .ofNat (r % 4 * 64 + s) :: b

attribute [simp] sextets bytes

theorem ofNat_of_eq {n : ℕ} {x : UInt8} (h : n = x.toNat) : UInt8.ofNat n = x := by
  rw [h, UInt8.ofNat_toNat]

theorem toNat_ofNat {n : ℕ} (h : n < 256) : (UInt8.ofNat n).toNat = n := by
  rw [UInt8.toNat_ofNat', Nat.mod_eq_of_lt h]

theorem sextets_lt (b : List UInt8) : ∀ n ∈ sextets b, n < 64 := by
  induction b using sextets.induct with
  | case1 => exact fun _ h => absurd h List.not_mem_nil
  | case2 x =>
      have hx := x.toNat_lt
      simp only [sextets, List.mem_cons, List.not_mem_nil, or_false]
      omega
  | case3 x y =>
      have hx := x.toNat_lt
      have hy := y.toNat_lt
      simp only [sextets, List.mem_cons, List.not_mem_nil, or_false]
      omega
  | case4 x y z rest ih =>
      have hx := x.toNat_lt
      have hy := y.toNat_lt
      have hz := z.toNat_lt
      simp only [sextets, List.forall_mem_cons]
      exact ⟨by omega, by omega, by omega, by omega, ih⟩

/-- The groups of bytes are read back. -/
theorem bytes_sextets (b : List UInt8) : bytes (sextets b) = some b := by
  induction b using sextets.induct with
  | case1 => rfl
  | case2 x =>
      rw [sextets, bytes, if_pos (by omega), ofNat_of_eq (x := x) (by omega)]
  | case3 x y =>
      have hy := y.toNat_lt
      rw [sextets, bytes, if_pos (by omega), ofNat_of_eq (x := x) (by omega),
        ofNat_of_eq (x := y) (by omega)]
  | case4 x y z rest ih =>
      have hy := y.toNat_lt
      have hz := z.toNat_lt
      rw [sextets, bytes, ih, Option.map_some, ofNat_of_eq (x := x) (by omega),
        ofNat_of_eq (x := y) (by omega), ofNat_of_eq (x := z) (by omega)]

/-- Groups that are read are those of the bytes. -/
theorem sextets_of_bytes {l : List ℕ} {b : List UInt8} (hl : ∀ n ∈ l, n < 64)
    (h : bytes l = some b) : sextets b = l := by
  induction l using bytes.induct generalizing b with
  | case1 =>
      obtain rfl := Option.some.inj h
      rfl
  | case2 => cases h
  | case3 p q hzero =>
      simp only [List.forall_mem_cons] at hl
      rw [bytes, if_pos hzero] at h
      obtain rfl := Option.some.inj h
      rw [sextets, toNat_ofNat (by omega)]
      congr 1
      · omega
      · congr 1
        omega
  | case4 p q hbits =>
      rw [bytes, if_neg hbits] at h
      cases h
  | case5 p q r hzero =>
      simp only [List.forall_mem_cons] at hl
      rw [bytes, if_pos hzero] at h
      obtain rfl := Option.some.inj h
      rw [sextets, toNat_ofNat (by omega), toNat_ofNat (by omega)]
      congr 1
      · omega
      · congr 1
        · omega
        · congr 1
          omega
  | case6 p q r hbits =>
      rw [bytes, if_neg hbits] at h
      cases h
  | case7 p q r s rest ih =>
      simp only [List.forall_mem_cons] at hl
      rw [bytes] at h
      obtain ⟨b', hb', rfl⟩ := Option.map_eq_some_iff.mp h
      rw [sextets, ih hl.2.2.2.2 hb', toNat_ofNat (by omega), toNat_ofNat (by omega),
        toNat_ofNat (by omega)]
      congr 1
      · omega
      · congr 1
        · omega
        · congr 1
          · omega
          · congr 1
            omega

theorem length_sextets (b : List UInt8) : (sextets b).length = (4 * b.length + 2) / 3 := by
  induction b using sextets.induct with
  | case1 => rfl
  | case2 x => simp [sextets]
  | case3 x y => simp [sextets]
  | case4 x y z rest ih =>
      simp only [sextets, List.length_cons, ih]
      omega

/-! ## Texts -/

/-- The encoding without padding. -/
def Alphabet.encode (a : Alphabet) (b : List UInt8) : List Char := (sextets b).map a.digit

/-- The bytes of a text without padding. -/
def Alphabet.decode (a : Alphabet) (text : List Char) : Option (List UInt8) :=
  (a.values text).bind bytes

/-- **A text is decoded to the bytes that it encodes.** -/
theorem Alphabet.decode_iff (a : Alphabet) {text : List Char} {b : List UInt8} :
    a.decode text = some b ↔ a.encode b = text := by
  rw [Alphabet.decode, Alphabet.encode, Option.bind_eq_some_iff]
  constructor
  · rintro ⟨l, hl, hb⟩
    obtain ⟨hlt, hmap⟩ := a.values_iff.mp hl
    rw [sextets_of_bytes hlt hb, hmap]
  · intro h
    exact ⟨sextets b, a.values_iff.mpr ⟨sextets_lt b, h⟩, bytes_sextets b⟩

theorem Alphabet.encode_mem (a : Alphabet) {b : List UInt8} {c : Char} (hc : c ∈ a.encode b) :
    c ∈ a.chars := by
  obtain ⟨n, hn, rfl⟩ := List.mem_map.mp hc
  exact a.digit_mem (sextets_lt b n hn)

/-- What fills a text up to groups of four characters. -/
def padding (length : ℕ) : List Char := List.replicate ((4 - length % 4) % 4) '='

/-- An alphabet, and whether texts are padded. -/
structure Engine where
  alphabet : Alphabet
  padded : Bool

/-- The encoding of bytes. -/
def Engine.encode (e : Engine) (b : List UInt8) : String :=
  let text := e.alphabet.encode b
  String.ofList (if e.padded then text ++ padding text.length else text)

/-- The bytes of a text, with exactly its padding. -/
def Engine.decode (e : Engine) (text : String) : Option (List UInt8) :=
  if e.padded then
    let bare := text.toList.takeWhile (· ≠ '=')
    if text.toList = bare ++ padding bare.length then e.alphabet.decode bare else none
  else e.alphabet.decode text.toList

/-- **A text is decoded to the bytes that it is the encoding of.** -/
theorem Engine.decode_iff (e : Engine) {text : String} {b : List UInt8} :
    e.decode text = some b ↔ e.encode b = text := by
  rw [← String.toList_inj, Engine.encode, Engine.decode]
  dsimp only
  rw [String.toList_ofList]
  rcases hpadded : e.padded with _ | _
  · exact e.alphabet.decode_iff
  · rw [if_pos rfl, if_pos rfl]
    constructor
    · intro h
      split at h
      · rename_i heq
        rw [e.alphabet.decode_iff.mp h]
        exact heq.symm
      · cases h
    · intro h
      have hbare : text.toList.takeWhile (· ≠ '=') = e.alphabet.encode b := by
        rw [← h]
        have hall : ∀ c ∈ e.alphabet.encode b, decide (c ≠ '=') = true := by
          intro c hc
          rw [decide_eq_true_eq]
          rintro rfl
          exact e.alphabet.noPad (e.alphabet.encode_mem hc)
        rw [List.takeWhile_append_of_pos hall, padding]
        cases (4 - (e.alphabet.encode b).length % 4) % 4 <;> simp [List.replicate_succ]
      rw [hbare, if_pos h.symm]
      exact e.alphabet.decode_iff.mpr rfl

theorem Engine.decode_encode (e : Engine) (b : List UInt8) : e.decode (e.encode b) = some b :=
  e.decode_iff.mpr rfl

theorem Engine.encode_inj (e : Engine) {b b' : List UInt8} (h : e.encode b = e.encode b') :
    b = b' := by
  have hb := e.decode_encode b
  rw [h, e.decode_encode] at hb
  exact (Option.some.inj hb).symm

/-- The characters of an encoding. -/
theorem Engine.encode_mem (e : Engine) {b : List UInt8} {c : Char}
    (hc : c ∈ (e.encode b).toList) : c ∈ e.alphabet.chars ∨ e.padded = true ∧ c = '=' := by
  rw [Engine.encode, String.toList_ofList] at hc
  split at hc
  · rename_i hpadded
    rcases List.mem_append.mp hc with hc | hc
    · exact .inl (e.alphabet.encode_mem hc)
    · exact .inr ⟨hpadded, List.eq_of_mem_replicate hc⟩
  · exact .inl (e.alphabet.encode_mem hc)

theorem Engine.length_encode (e : Engine) (b : List UInt8) :
    (e.encode b).length ≤ (4 * b.length + 2) / 3 + 3 := by
  rw [Engine.encode, ← String.length_toList, String.toList_ofList]
  have hlength : (e.alphabet.encode b).length = (4 * b.length + 2) / 3 := by
    rw [Alphabet.encode, List.length_map, length_sextets]
  split
  · rw [List.length_append, padding, List.length_replicate, hlength]
    omega
  · omega

/-! ## The two alphabets -/

/-- The alphabet of RFC 4648. -/
def standardAlphabet : Alphabet where
  chars := "ABCDEFGHIJKLMNOPQRSTUVWXYZabcdefghijklmnopqrstuvwxyz0123456789+/".toList
  nodup := by decide +kernel
  length_eq := by decide +kernel
  noPad := by decide +kernel

/-- Its variant for file names and addresses. -/
def urlSafeAlphabet : Alphabet where
  chars := "ABCDEFGHIJKLMNOPQRSTUVWXYZabcdefghijklmnopqrstuvwxyz0123456789-_".toList
  nodup := by decide +kernel
  length_eq := by decide +kernel
  noPad := by decide +kernel

/-- `STANDARD`. -/
def standard : Engine := ⟨standardAlphabet, true⟩

/-- `STANDARD_NO_PAD`. -/
def standardNoPad : Engine := ⟨standardAlphabet, false⟩

/-- `URL_SAFE_NO_PAD`. -/
def urlSafeNoPad : Engine := ⟨urlSafeAlphabet, false⟩

example : standard.encode [0x66, 0x6f, 0x6f, 0x62] = "Zm9vYg==" := by decide +kernel

end Base64
