/-
# Hashed passwords

A password is stored as the bcrypt hash of its HMAC, in the text form of passlib
(`passwords.rs`).  The salt and the hash come from pgcrypto; the text is put together from
their parts, and is taken apart again when a password is verified.

* `Crypto` : the primitives, and what of them is documented;
* `hashPassword`, `parse`, `verifyPassword` : the three functions;
* `parse_hashText` : what is put together is taken apart again;
* `verify_hash` : a hash verifies its own password only.
-/
import CtfZone.RuntimeConfig
import CtfZone.Submissions
import Mathlib.Data.Set.Defs

namespace CtfZone.Passwords

open Submissions

/-! ## Primitives -/

/-- `gen_salt('bf', 12)` (each call with its own random number) and `crypt` of pgcrypto,
`HmacSha256` of the bytes of a key and of a text, and `STANDARD.encode`. -/
structure Crypto where
  genSalt : ℕ → String
  crypt : String → String → String
  hmacSha256 : String → String → List UInt8
  base64 : List UInt8 → String

/-- A character of bcrypt's own base64. -/
def bcryptChar (c : Char) : Bool := c = '.' || c = '/' || c.isAlphanum

/-- The part of a salt that all salts have. -/
def setting : List Char := "$2a$12$".toList

/-- What pgcrypto documents: a salt has 22 characters, a hash is the salt with 31 more, and a
hash may stand for its salt. -/
structure Crypto.Documented (c : Crypto) : Prop where
  salt : ∀ n, ∃ salt, (c.genSalt n).toList = setting ++ salt ∧ salt.length = 22 ∧
    ∀ x ∈ salt, bcryptChar x = true
  hash : ∀ n key, ∃ checksum, (c.crypt key (c.genSalt n)).toList =
    (c.genSalt n).toList ++ checksum ∧ checksum.length = 31 ∧ ∀ x ∈ checksum, bcryptChar x = true
  again : ∀ n key checksum, checksum.length = 31 → (∀ x ∈ checksum, bcryptChar x = true) →
    c.crypt key (String.ofList ((c.genSalt n).toList ++ checksum)) = c.crypt key (c.genSalt n)

/-! ## Texts -/

/-- `PREFIX`. -/
def hashPrefix : List Char := "$bcrypt-sha256$".toList

/-- `len`, of a text. -/
def byteLength (text : List Char) : ℕ := (text.map Char.utf8Size).sum

/-- `get(n..)`. -/
def fromByte : ℕ → List Char → Option (List Char)
  | 0, text => some text
  | _ + 1, [] => none
  | n + 1, c :: text => if c.utf8Size ≤ n + 1 then fromByte (n + 1 - c.utf8Size) text else none
termination_by _ text => text.length

/-- `strip_prefix`. -/
def stripPrefix (start text : List Char) : Option (List Char) :=
  if start.isPrefixOf text then some (text.drop start.length) else none

/-- `str::parse::<u32>`. -/
def parseU32 (text : List Char) : Option ℕ :=
  let digits := match text with
    | '+' :: digits => digits
    | digits => digits
  if digits ≠ [] ∧ digits.all Char.isDigit then
    (some (Nat.ofDigitChars 10 digits 0)).filter (· < 2 ^ 32)
  else none

/-- `{:02}`. -/
def twoDigits (n : ℕ) : List Char := if n < 10 then '0' :: (toString n).toList else (toString n).toList

/-- `prehash`. -/
def prehash (c : Crypto) (password : String) (encodedSalt : List Char) : String :=
  c.base64 (c.hmacSha256 (String.ofList encodedSalt) password)

/-- What `hash_password` puts together. -/
def hashText (salt checksum : List Char) : String :=
  String.ofList (hashPrefix ++ "v=2,t=2b,r=12$".toList ++ salt ++ '$' :: checksum)

/-- `hash_password`, with the random number of its salt. -/
def hashPassword (c : Crypto) (n : ℕ) (password : String) : Except String String := do
  let nativeSalt := c.genSalt n
  let salt ← required (((rsplitOnce ['$'] nativeSalt.toList).map Prod.snd).filter
    (byteLength · = 22)) "pgcrypto returned an invalid bcrypt salt"
  let nativeHash := c.crypt (prehash c password salt) nativeSalt
  let checksum ← required (((rsplitOnce ['$'] nativeHash.toList).bind
    fun (_, body) => fromByte 22 body).filter (byteLength · = 31))
    "pgcrypto returned an invalid bcrypt hash"
  pure (hashText salt checksum)

/-- `ParsedHash`. -/
structure ParsedHash where
  cost : ℕ
  salt : List Char
  checksum : List Char
  deriving DecidableEq

/-- `parse`. -/
def parse (encoded : String) : Option ParsedHash := do
  let encoded ← stripPrefix hashPrefix encoded.toList
  match encoded.splitOn '$' with
  | [parameters, salt, checksum] =>
    if byteLength salt = 22 ∧ byteLength checksum = 31 then do
      let cost ← stripPrefix "v=2,t=2b,r=".toList parameters
      let cost ← parseU32 cost
      some ⟨cost, salt, checksum⟩
    else none
  | _ => none

/-- `verify_password`. -/
def verifyPassword (c : Crypto) (password encoded : String) : Bool :=
  match parse encoded with
  | none => false
  | some parsed =>
    let nativeHash := String.ofList ("$2a$".toList ++ twoDigits parsed.cost ++ '$' :: parsed.salt ++
      parsed.checksum)
    c.crypt (prehash c password parsed.salt) nativeHash = nativeHash

/-! ## Parts of a hash -/

theorem bcryptChar_ne {x : Char} (h : bcryptChar x = true) : x ≠ '$' := by
  rintro rfl
  exact absurd h (by decide)

theorem bcryptChar_utf8Size {x : Char} (h : bcryptChar x = true) : x.utf8Size = 1 := by
  have hascii : x.val.toNat ≤ 127 := by
    simp only [bcryptChar, Bool.or_eq_true, decide_eq_true_eq, FloatTexts.isAlphanum_eq,
      FloatTexts.isUpper_iff, FloatTexts.isLower_iff, FloatTexts.isDigit_iff] at h
    rcases h with (rfl | rfl) | (⟨-, hle⟩ | ⟨-, hle⟩) | ⟨-, hle⟩
    · decide
    · decide
    · exact le_trans hle (by decide)
    · exact le_trans hle (by decide)
    · exact le_trans hle (by decide)
  exact Char.utf8Size_eq_one_iff.mpr (UInt32.le_iff_toNat_le.mpr hascii)

theorem not_mem_of_bcrypt {text : List Char} (h : ∀ x ∈ text, bcryptChar x = true) :
    '$' ∉ text := fun hmem => bcryptChar_ne (h '$' hmem) rfl

theorem byteLength_of_bcrypt {text : List Char} (h : ∀ x ∈ text, bcryptChar x = true) :
    byteLength text = text.length := by
  induction text with
  | nil => rfl
  | cons x text ih =>
      have hx : x.utf8Size = 1 := bcryptChar_utf8Size (h x List.mem_cons_self)
      have hrest := ih fun y hy => h y (List.mem_cons_of_mem x hy)
      unfold byteLength at hrest ⊢
      rw [List.map_cons, List.sum_cons, List.length_cons, hx, hrest]
      omega

/-- The bytes after some characters of one byte each. -/
theorem fromByte_append {text rest : List Char} (h : ∀ x ∈ text, bcryptChar x = true) :
    fromByte text.length (text ++ rest) = some rest := by
  induction text with
  | nil => rw [List.length_nil, List.nil_append, fromByte]
  | cons x text ih =>
      have hx : x.utf8Size = 1 := bcryptChar_utf8Size (h x List.mem_cons_self)
      rw [List.length_cons, List.cons_append, fromByte, hx, if_pos (by omega), Nat.add_sub_cancel]
      exact ih fun y hy => h y (List.mem_cons_of_mem x hy)

/-- Nothing is found in a text without the separator. -/
theorem rsplitOnce_eq_none {text : List Char} (h : '$' ∉ text) : rsplitOnce ['$'] text = none := by
  induction text with
  | nil => rfl
  | cons x text ih =>
      rw [List.mem_cons, not_or] at h
      rw [rsplitOnce, ih h.2]
      dsimp only
      rw [if_neg]
      simpa using h.1

/-- The last separator is the one that nothing follows. -/
theorem rsplitOnce_append {before after : List Char} (h : '$' ∉ after) :
    rsplitOnce ['$'] (before ++ '$' :: after) = some (before, after) := by
  induction before with
  | nil =>
      rw [List.nil_append, rsplitOnce, rsplitOnce_eq_none h]
      simp
  | cons x before ih =>
      rw [List.cons_append, rsplitOnce, ih]

theorem stripPrefix_append (start text : List Char) :
    stripPrefix start (start ++ text) = some text := by
  unfold stripPrefix
  rw [if_pos (List.isPrefixOf_iff_prefix.mpr (List.prefix_append start text)), List.drop_left]

/-- What is put together is taken apart again. -/
theorem parse_hashText {salt checksum : List Char} (hsalt : salt.length = 22)
    (hsaltChars : ∀ x ∈ salt, bcryptChar x = true) (hchecksum : checksum.length = 31)
    (hchecksumChars : ∀ x ∈ checksum, bcryptChar x = true) :
    parse (hashText salt checksum) = some ⟨12, salt, checksum⟩ := by
  have hparameters : ("v=2,t=2b,r=12".toList ++ '$' :: (salt ++ '$' :: checksum)).splitOn '$' =
      ["v=2,t=2b,r=12".toList, salt, checksum] := by
    rw [List.splitOn_append_cons_self_of_not_mem (by decide),
      List.splitOn_append_cons_self_of_not_mem (not_mem_of_bcrypt hsaltChars),
      List.splitOn_eq_singleton (not_mem_of_bcrypt hchecksumChars)]
  have hstrip : stripPrefix hashPrefix (hashText salt checksum).toList =
      some ("v=2,t=2b,r=12".toList ++ '$' :: (salt ++ '$' :: checksum)) := by
    rw [hashText, String.toList_ofList, List.append_assoc, List.append_assoc, stripPrefix_append]
    rfl
  have hcost : (stripPrefix "v=2,t=2b,r=".toList "v=2,t=2b,r=12".toList).bind parseU32 = some 12 := by
    decide +kernel
  unfold parse
  rw [hstrip, Option.bind_eq_bind, Option.bind_some, hparameters]
  dsimp only
  rw [byteLength_of_bcrypt hsaltChars, byteLength_of_bcrypt hchecksumChars, if_pos ⟨hsalt, hchecksum⟩]
  obtain ⟨cost, hstrip', hparse⟩ := Option.bind_eq_some_iff.mp hcost
  rw [Option.bind_eq_bind, hstrip', Option.bind_some, hparse, Option.bind_some]

/-! ## Hashes -/

variable {c : Crypto}

/-- Under every salt, two of the inputs have different hashes. -/
def Crypto.Distinguishes (c : Crypto) (inputs : Set String) : Prop :=
  ∀ n salt, (c.genSalt n).toList = setting ++ salt → ∀ a ∈ inputs, ∀ b ∈ inputs,
    c.crypt (prehash c a salt) (c.genSalt n) = c.crypt (prehash c b salt) (c.genSalt n) → a = b

theorem setting_eq (text : List Char) : setting ++ text = "$2a$12".toList ++ '$' :: text := rfl

/-- The parts of a hash. -/
theorem hash_spec (h : c.Documented) (n : ℕ) (password : String) : ∃ salt checksum,
    (c.genSalt n).toList = setting ++ salt ∧ salt.length = 22 ∧
    (∀ x ∈ salt, bcryptChar x = true) ∧ checksum.length = 31 ∧
    (∀ x ∈ checksum, bcryptChar x = true) ∧
    c.crypt (prehash c password salt) (c.genSalt n) =
      String.ofList ((c.genSalt n).toList ++ checksum) ∧
    hashPassword c n password = .ok (hashText salt checksum) := by
  obtain ⟨salt, hsalt, hlength, hchars⟩ := h.salt n
  obtain ⟨checksum, hhash, hlength', hchars'⟩ := h.hash n (prehash c password salt)
  have hsplit : rsplitOnce ['$'] (c.genSalt n).toList = some ("$2a$12".toList, salt) := by
    rw [hsalt, setting_eq, rsplitOnce_append (not_mem_of_bcrypt hchars)]
  have hsplit' : rsplitOnce ['$'] (c.crypt (prehash c password salt) (c.genSalt n)).toList =
      some ("$2a$12".toList, salt ++ checksum) := by
    have hboth : '$' ∉ salt ++ checksum := by
      rw [List.mem_append, not_or]
      exact ⟨not_mem_of_bcrypt hchars, not_mem_of_bcrypt hchars'⟩
    rw [hhash, hsalt, List.append_assoc, setting_eq, rsplitOnce_append hboth]
  have hbody : fromByte 22 (salt ++ checksum) = some checksum := by
    rw [← hlength]
    exact fromByte_append hchars
  refine ⟨salt, checksum, hsalt, hlength, hchars, hlength', hchars', ?_, ?_⟩
  · rw [← hhash, String.ofList_toList]
  · have hbytes : byteLength salt = 22 := by rw [byteLength_of_bcrypt hchars, hlength]
    have hbytes' : byteLength checksum = 31 := by rw [byteLength_of_bcrypt hchars', hlength']
    unfold hashPassword
    dsimp only
    rw [hsplit, Option.map_some, Option.filter_some_pos (by exact decide_eq_true hbytes)]
    show (do
      let checksum ← required (((rsplitOnce ['$'] (c.crypt (prehash c password salt)
        (c.genSalt n)).toList).bind fun (_, body) => fromByte 22 body).filter (byteLength · = 31))
        "pgcrypto returned an invalid bcrypt hash"
      pure (hashText salt checksum) : Except String String) = _
    rw [hsplit', Option.bind_some]
    dsimp only
    rw [hbody, Option.filter_some_pos (by exact decide_eq_true hbytes')]
    rfl

/-- **A hash verifies its own password only**, among inputs that are told apart. -/
theorem verify_hash (h : c.Documented) {inputs : Set String} (hinputs : c.Distinguishes inputs)
    {n : ℕ} {password encoded : String} (hencoded : hashPassword c n password = .ok encoded)
    (hpassword : password ∈ inputs) {typed : String} (htyped : typed ∈ inputs) :
    verifyPassword c typed encoded = true ↔ typed = password := by
  obtain ⟨salt, checksum, hsalt, hlength, hchars, hlength', hchars', hhash, heq⟩ :=
    hash_spec h n password
  obtain rfl : hashText salt checksum = encoded := Except.ok.inj (heq.symm.trans hencoded)
  have hnative : String.ofList ("$2a$".toList ++ twoDigits 12 ++ '$' :: salt ++ checksum) =
      c.crypt (prehash c password salt) (c.genSalt n) := by
    rw [hhash, hsalt]
    rfl
  have hagain : c.crypt (prehash c typed salt) (c.crypt (prehash c password salt) (c.genSalt n)) =
      c.crypt (prehash c typed salt) (c.genSalt n) := by
    rw [hhash]
    exact h.again n _ checksum hlength' hchars'
  unfold verifyPassword
  rw [parse_hashText hlength hchars hlength' hchars']
  dsimp only
  rw [hnative, hagain, decide_eq_true_eq]
  constructor
  · intro hsame
    exact hinputs n salt hsalt typed htyped password hpassword hsame
  · rintro rfl
    rfl

end CtfZone.Passwords
