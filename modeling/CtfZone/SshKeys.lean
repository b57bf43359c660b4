/-
# The SSH keys that the services accept

The API (`ssh_hosts.rs`) and the gateways (`ssh.rs`, `identity.rs`) read Ed25519 public keys,
each with its own parser, and name them by the SHA-256 digest of their blob.

* `Carries` : the text holds a valid blob, whatever stands around it;
* `canonicalEd25519PublicKey_iff`, `canonicalHostKey_iff`, `canonicalPublicKey_iff` : each
  parser accepts the texts that carry a blob and keep to its own rules on the rest.
-/
import CtfZone.SettingTexts
import CtfZone.Fields
import CtfZone.Base64

namespace CtfZone.Ssh

open CtfZone.Configuration (Graphic)
open Journal (isWhitespace)
open Submissions (required required_eq_ok)
open Fields Base64

/-! ## Blobs -/

/-- A byte string of ASCII characters. -/
def ascii (text : String) : List UInt8 := text.toList.map fun c => .ofNat c.toNat

/-- `read_ssh_string`. -/
def readSshString : List UInt8 → Option (List UInt8 × List UInt8)
  | a :: b :: c :: d :: rest =>
    let length := ((a.toNat * 256 + b.toNat) * 256 + c.toNat) * 256 + d.toNat
    if length ≤ rest.length then some (rest.take length, rest.drop length) else none
  | _ => none

/-- `valid_ed25519_blob`. -/
def validEd25519Blob (blob : List UInt8) : Bool :=
  match readSshString blob with
  | none => false
  | some (algorithm, rest) =>
    match readSshString rest with
    | none => false
    | some (key, trailing) =>
      algorithm = ascii "ssh-ed25519" && key.length = 32 && trailing.isEmpty

/-- `b"\0\0\0\x0bssh-ed25519\0\0\0\x20"`. -/
def blobStart : List UInt8 := [0, 0, 0, 0x0b] ++ ascii "ssh-ed25519" ++ [0, 0, 0, 0x20]

/-- How the gateways know a blob. -/
def isCanonicalBlob (decoded : List UInt8) : Bool :=
  decoded.length = 51 && blobStart.isPrefixOf decoded

/-- A string is read from four bytes with its length, and as many bytes. -/
theorem readSshString_append {a b c d : UInt8} (body rest : List UInt8)
    (h : ((a.toNat * 256 + b.toNat) * 256 + c.toNat) * 256 + d.toNat = body.length) :
    readSshString (a :: b :: c :: d :: (body ++ rest)) = some (body, rest) := by
  rw [readSshString, h, if_pos (by rw [List.length_append]; exact Nat.le_add_right _ _),
    List.take_left, List.drop_left]

theorem readSshString_eq_some {input body rest : List UInt8}
    (h : readSshString input = some (body, rest)) : ∃ a b c d : UInt8,
    input = a :: b :: c :: d :: (body ++ rest) ∧
      ((a.toNat * 256 + b.toNat) * 256 + c.toNat) * 256 + d.toNat = body.length := by
  unfold readSshString at h
  split at h
  · rename_i a b c d tail
    dsimp only at h
    split at h
    · rename_i hle
      obtain ⟨rfl, rfl⟩ := Prod.ext_iff.mp (Option.some.inj h)
      exact ⟨a, b, c, d, by rw [List.take_append_drop], (List.length_take_of_le hle).symm⟩
    · cases h
  · cases h

/-- The bytes of a length that is small. -/
theorem lengthBytes {a b c d : UInt8} {n : ℕ} (hn : n < 256)
    (h : ((a.toNat * 256 + b.toNat) * 256 + c.toNat) * 256 + d.toNat = n) :
    a = 0 ∧ b = 0 ∧ c = 0 ∧ d = .ofNat n := by
  have ha := a.toNat_lt
  have hb := b.toNat_lt
  have hc := c.toNat_lt
  have hd := d.toNat_lt
  refine ⟨?_, ?_, ?_, ?_⟩
  · exact UInt8.toNat_inj.mp (by rw [UInt8.toNat_zero]; omega)
  · exact UInt8.toNat_inj.mp (by rw [UInt8.toNat_zero]; omega)
  · exact UInt8.toNat_inj.mp (by rw [UInt8.toNat_zero]; omega)
  · exact UInt8.toNat_inj.mp (by rw [UInt8.toNat_ofNat', Nat.mod_eq_of_lt hn]; omega)

/-- The API decodes the strings of a blob, and comes to what the gateways compare. -/
theorem validEd25519Blob_iff {blob : List UInt8} :
    validEd25519Blob blob = true ↔ ∃ key, key.length = 32 ∧ blob = blobStart ++ key := by
  constructor
  · intro h
    unfold validEd25519Blob at h
    split at h
    · cases h
    · rename_i algorithm tail halgorithm
      split at h
      · cases h
      · rename_i key trailing hkey
        simp only [Bool.and_eq_true, decide_eq_true_eq, List.isEmpty_iff] at h
        obtain ⟨⟨rfl, hlength⟩, rfl⟩ := h
        obtain ⟨a, b, c, d, rfl, hfirst⟩ := readSshString_eq_some halgorithm
        obtain ⟨a', b', c', d', rfl, hsecond⟩ := readSshString_eq_some hkey
        obtain ⟨rfl, rfl, rfl, rfl⟩ := lengthBytes (n := 11) (by decide) hfirst
        obtain ⟨rfl, rfl, rfl, rfl⟩ := lengthBytes (n := 32) (by decide) (hsecond.trans hlength)
        refine ⟨key, hlength, ?_⟩
        rw [List.append_nil]
        rfl
  · rintro ⟨key, hlength, rfl⟩
    have hblob : blobStart ++ key =
        0 :: 0 :: 0 :: 0x0b :: (ascii "ssh-ed25519" ++ (0 :: 0 :: 0 :: 0x20 :: (key ++ []))) := by
      rw [List.append_nil]
      rfl
    have hfirst := readSshString_append (a := 0) (b := 0) (c := 0) (d := 0x0b)
      (ascii "ssh-ed25519") (0 :: 0 :: 0 :: 0x20 :: (key ++ [])) (by decide)
    have hsecond : readSshString (0 :: 0 :: 0 :: 0x20 :: (key ++ [])) = some (key, []) :=
      readSshString_append key [] (by rw [hlength]; decide)
    rw [validEd25519Blob, hblob, hfirst]
    dsimp only
    rw [hsecond]
    simp [hlength]

/-- **The API and the gateways accept the same blobs.** -/
theorem isCanonicalBlob_eq (blob : List UInt8) : isCanonicalBlob blob = validEd25519Blob blob := by
  rw [Bool.eq_iff_iff, validEd25519Blob_iff, isCanonicalBlob, Bool.and_eq_true, decide_eq_true_eq,
    List.isPrefixOf_iff_prefix]
  have hstart : blobStart.length = 19 := by decide
  constructor
  · rintro ⟨hlength, key, rfl⟩
    rw [List.length_append, hstart] at hlength
    exact ⟨key, by omega, rfl⟩
  · rintro ⟨key, hlength, rfl⟩
    refine ⟨?_, key, rfl⟩
    rw [List.length_append, hstart, hlength]

/-! ## Parsers -/

/-- `str::split_whitespace`. -/
def splitWhitespace (value : String) : List String :=
  (fields isWhitespace value.toList).map String.ofList

/-- `char::is_ascii_whitespace`. -/
def isAsciiWhitespace (c : Char) : Bool :=
  c = ' ' || c = '\t' || c = '\n' || c = '\x0c' || c = '\r'

/-- `str::split_ascii_whitespace`. -/
def splitAsciiWhitespace (value : String) : List String :=
  (fields isAsciiWhitespace value.toList).map String.ofList

section Parsers

variable (sha256 : List UInt8 → List UInt8)

/-- `SHA256:…`. -/
def fingerprint (blob : List UInt8) : String := "SHA256:" ++ standardNoPad.encode (sha256 blob)

/-- `CanonicalKey`. -/
structure CanonicalKey where
  canonical : String
  fingerprint : String
  deriving DecidableEq

/-- `canonical_ed25519_public_key`. -/
def canonicalEd25519PublicKey (value : String) : Except String CanonicalKey := do
  ensure (! (value = "" || 1024 < value.utf8ByteSize || value.toList.any isControl))
    "Invalid Ed25519 SSH public key"
  let fields := splitAsciiWhitespace value
  ensure (fields[0]? = some "ssh-ed25519") "Only Ed25519 SSH keys are accepted"
  let encoded ← required fields[1]? "Invalid Ed25519 SSH public key"
  let blob ← required (standard.decode encoded) "Invalid Ed25519 SSH public key"
  ensure (validEd25519Blob blob) "Invalid Ed25519 SSH public key"
  let canonicalBlob := standard.encode blob
  pure { canonical := "ssh-ed25519 " ++ canonicalBlob, fingerprint := fingerprint sha256 blob }

/-- `HostKey`. -/
structure HostKey where
  publicKey : String
  fingerprint : String
  deriving DecidableEq

/-- `canonical_host_key`. -/
def canonicalHostKey (value : String) : Except String HostKey := do
  let fields := splitWhitespace value
  ensure (fields[0]? = some "ssh-ed25519") "only ssh-ed25519 host keys are supported in v1"
  let encoded ← required fields[1]? "SSH host key body is missing"
  ensure fields[2]?.isNone "SSH host key must not contain a comment"
  let decoded ← required (standard.decode encoded) "SSH host key is not base64"
  ensure (isCanonicalBlob decoded) "SSH host key is not a canonical Ed25519 key blob"
  pure { publicKey := "ssh-ed25519 " ++ encoded, fingerprint := fingerprint sha256 decoded }

/-- `canonical_public_key`. -/
def canonicalPublicKey (value : String) (hostId : BitVec 128) : Except String String := do
  let fields := splitWhitespace value
  ensure (fields[0]? = some "ssh-ed25519") "identity is not Ed25519"
  let encoded ← required fields[1]? "public key body is missing"
  ensure (! (fields[2]?.isSome && fields[3]?.isSome)) "public key has unexpected fields"
  let decoded ← required (standard.decode encoded) "public key body is not canonical base64"
  ensure (isCanonicalBlob decoded) "public key is not a canonical Ed25519 SSH blob"
  pure ("ssh-ed25519 " ++ encoded ++ " ctfzone-webssh:" ++ String.ofList (uuidText hostId))

/-- `IdentityMaterial`. -/
structure IdentityMaterial where
  publicKey : String
  fingerprint : String
  authorizedKeysLine : String
  deriving DecidableEq

/-- `material`. -/
def material (publicKey : String) : Except String IdentityMaterial := do
  let encoded ← required (splitWhitespace publicKey)[1]? "public key body is missing"
  let decoded ← required (standard.decode encoded) "public key body is not base64"
  pure {
    publicKey, fingerprint := fingerprint sha256 decoded
    authorizedKeysLine := "restrict,pty " ++ publicKey }

/-! ## What a text carries -/

/-- The text of a blob by itself. -/
def bareText (blob : List UInt8) : String := "ssh-ed25519 " ++ standard.encode blob

/-- The text of a blob that a gateway publishes. -/
def identityText (blob : List UInt8) (hostId : BitVec 128) : String :=
  bareText blob ++ " ctfzone-webssh:" ++ String.ofList (uuidText hostId)

/-- The first two fields of a text are a key of the blob. -/
structure Carries (value : String) (blob : List UInt8) : Prop where
  valid : validEd25519Blob blob = true
  fields : (splitWhitespace value).take 2 = ["ssh-ed25519", standard.encode blob]

/-- What the API asks of a text beside its key: it is short, without control characters, and
spaces alone are before the key and in it. -/
structure Plain (value : String) : Prop where
  size : value.utf8ByteSize ≤ 1024
  control : value.toList.any isControl = false
  spaces : (splitAsciiWhitespace value).take 2 = (splitWhitespace value).take 2

end Parsers

/-! ## Characters -/

theorem isAsciiWhitespace_iff {c : Char} : isAsciiWhitespace c = true ↔
    c = ' ' ∨ c = '\t' ∨ c = '\n' ∨ c = '\x0c' ∨ c = '\r' := by
  simp only [isAsciiWhitespace, Bool.or_eq_true, decide_eq_true_eq, or_assoc]

/-- White space of ASCII is white space. -/
theorem isWhitespace_of_ascii (c : Char) (h : isAsciiWhitespace c = true) :
    isWhitespace c = true := by
  rcases isAsciiWhitespace_iff.mp h with rfl | rfl | rfl | rfl | rfl <;> decide

theorem isAsciiWhitespace_of_graphic {c : Char} (h : Graphic c) : isAsciiWhitespace c = false := by
  rw [← Bool.not_eq_true]
  intro hspace
  exact absurd (isWhitespace_of_ascii c hspace) (by rw [h.notWhitespace]; decide)

theorem graphic_encode {blob : List UInt8} {c : Char} (hc : c ∈ (standard.encode blob).toList) :
    Graphic c := by
  have halphabet : ∀ c ∈ standardAlphabet.chars, Graphic c :=
    List.all_iff_forall_prop.mp (by decide)
  rcases standard.encode_mem hc with hc | ⟨-, rfl⟩
  · exact halphabet c hc
  · decide

theorem graphic_uuidText {uuid : BitVec 128} {c : Char} (hc : c ∈ uuidText uuid) : Graphic c := by
  have hall : ∀ c ∈ uuidChars, Graphic c := List.all_iff_forall_prop.mp (by decide)
  exact hall c (uuidText_mem c hc)

/-- A short text of characters that are printed, and spaces. -/
theorem plain_of_forall {value : String} (hlength : value.toList.length ≤ 1024)
    (hchars : ∀ c ∈ value.toList, Graphic c ∨ c = ' ') : Plain value := by
  refine ⟨?_, ?_, ?_⟩
  · rw [utf8ByteSize_eq, utf8Length_of_forall]
    · exact hlength
    · intro c hc
      rcases hchars c hc with h | rfl
      · exact h.utf8Size
      · decide
  · rw [List.any_eq_false]
    intro c hc
    rw [Bool.not_eq_true]
    rcases hchars c hc with h | rfl
    · exact h.notControl
    · decide
  · rw [splitAsciiWhitespace, splitWhitespace, fields_congr fun c hc => ?_]
    rcases hchars c hc with h | rfl
    · rw [isAsciiWhitespace_of_graphic h, h.notWhitespace]
    · decide

/-! ## The texts of a blob -/

theorem bareText_chars (blob : List UInt8) : ∀ c ∈ (bareText blob).toList, Graphic c ∨ c = ' ' := by
  rw [bareText, String.toList_append, List.forall_mem_append]
  constructor
  · exact List.all_iff_forall_prop.mp (by decide)
  · exact fun c hc => .inl (graphic_encode hc)

section Texts

variable {blob : List UInt8} (hvalid : validEd25519Blob blob = true)
include hvalid

theorem encode_ne_nil : (standard.encode blob).toList ≠ [] := by
  intro hnil
  have hempty : standard.encode blob = standard.encode [] :=
    String.toList_inj.mp (hnil.trans (by decide))
  rw [standard.encode_inj hempty] at hvalid
  exact absurd hvalid (by decide)

theorem length_blob : blob.length = 51 := by
  rw [← isCanonicalBlob_eq, isCanonicalBlob, Bool.and_eq_true, decide_eq_true_eq] at hvalid
  exact hvalid.1

theorem length_encode_le : (standard.encode blob).toList.length ≤ 71 := by
  have hle := standard.length_encode blob
  rw [length_blob hvalid] at hle
  rw [String.length_toList]
  omega

/-- The fields of a text that begins with a key. -/
theorem fields_key {tail : List Char} (htail : ∀ c ∈ tail.head?, isWhitespace c = true) :
    fields isWhitespace ((bareText blob).toList ++ tail) =
      "ssh-ed25519".toList :: (standard.encode blob).toList :: fields isWhitespace tail := by
  have htext : (bareText blob).toList ++ tail =
      "ssh-ed25519".toList ++ ' ' :: ([] ++ ((standard.encode blob).toList ++ tail)) := by
    rw [bareText, String.toList_append, List.append_assoc]
    rfl
  have hblanks : ∀ c ∈ ([] : List Char), isWhitespace c = true :=
    fun _ hc => absurd hc List.not_mem_nil
  have hstart : ∀ c ∈ "ssh-ed25519".toList, isWhitespace c = false :=
    List.all_iff_forall_prop.mp (by decide)
  rw [htext, fields_append_cons (by decide), fields_word (by decide) hstart,
    fields_append hblanks (encode_ne_nil hvalid) ?_ htail]
  · rfl
  · exact fun c hc => (graphic_encode hc).notWhitespace

theorem splitWhitespace_bareText :
    splitWhitespace (bareText blob) = ["ssh-ed25519", standard.encode blob] := by
  have hend : ∀ c ∈ ([] : List Char).head?, isWhitespace c = true := by rintro c ⟨⟩
  have hfields := fields_key hvalid hend
  rw [List.append_nil] at hfields
  rw [splitWhitespace, hfields, fields_nil]
  simp only [List.map_cons, List.map_nil, String.ofList_toList]

theorem splitWhitespace_identityText (hostId : BitVec 128) :
    splitWhitespace (identityText blob hostId) = ["ssh-ed25519", standard.encode blob,
      String.ofList ("ctfzone-webssh:".toList ++ uuidText hostId)] := by
  have htext : (identityText blob hostId).toList =
      (bareText blob).toList ++ ' ' :: ("ctfzone-webssh:".toList ++ uuidText hostId) := by
    have hspace : " ctfzone-webssh:".toList = ' ' :: "ctfzone-webssh:".toList := by decide
    simp only [identityText, String.toList_append, String.toList_ofList, List.append_assoc, hspace,
      List.cons_append]
  have hcomment : ∀ c ∈ "ctfzone-webssh:".toList ++ uuidText hostId, isWhitespace c = false := by
    rw [List.forall_mem_append]
    constructor
    · exact List.all_iff_forall_prop.mp (by decide)
    · exact fun c hc => (graphic_uuidText hc).notWhitespace
  rw [splitWhitespace, htext, fields_key hvalid (by rintro c ⟨⟩; decide), fields_cons (by decide),
    fields_word (by simp) hcomment]
  simp only [List.map_cons, List.map_nil, String.ofList_toList]

theorem carries_bareText : Carries (bareText blob) blob :=
  ⟨hvalid, by rw [splitWhitespace_bareText hvalid]; rfl⟩

theorem carries_identityText (hostId : BitVec 128) : Carries (identityText blob hostId) blob :=
  ⟨hvalid, by rw [splitWhitespace_identityText hvalid]; rfl⟩

theorem length_bareText_le : (bareText blob).toList.length ≤ 83 := by
  have hlength := length_encode_le hvalid
  have hstart : "ssh-ed25519 ".toList.length = 12 := by decide
  rw [bareText, String.toList_append, List.length_append]
  omega

/-- A short text behind the key. -/
theorem plain_append {tail : String} (hlength : tail.toList.length ≤ 900)
    (htail : ∀ c ∈ tail.toList, Graphic c ∨ c = ' ') : Plain (bareText blob ++ tail) := by
  have hkey := length_bareText_le hvalid
  refine plain_of_forall ?_ ?_
  · rw [String.toList_append, List.length_append]
    omega
  · rw [String.toList_append]
    exact List.forall_mem_append.mpr ⟨bareText_chars blob, htail⟩

theorem plain_bareText : Plain (bareText blob) := by
  have hplain : Plain (bareText blob ++ "") := plain_append hvalid (by decide) (by rintro c ⟨⟩)
  rwa [String.append_empty] at hplain

theorem plain_identityText (hostId : BitVec 128) : Plain (identityText blob hostId) := by
  have hstart : " ctfzone-webssh:".toList.length = 16 := by decide
  have htail : (" ctfzone-webssh:" ++ String.ofList (uuidText hostId)).toList =
      " ctfzone-webssh:".toList ++ uuidText hostId := by
    simp only [String.toList_append, String.toList_ofList]
  rw [identityText, String.append_assoc]
  refine plain_append hvalid ?_ ?_
  · rw [htail, List.length_append, uuidText_length]
    omega
  · rw [htail, List.forall_mem_append]
    constructor
    · exact List.all_iff_forall_prop.mp (by decide)
    · exact fun c hc => .inl (graphic_uuidText hc)

end Texts

/-! ## What the parsers accept -/

theorem take_two_iff {l : List String} {x y : String} :
    l.take 2 = [x, y] ↔ l[0]? = some x ∧ l[1]? = some y := by
  rcases l with _ | ⟨x', _ | ⟨y', l⟩⟩ <;> simp

/-- A text carries one blob. -/
theorem Carries.unique {value : String} {blob blob' : List UInt8} (h : Carries value blob)
    (h' : Carries value blob') : blob = blob' := by
  have heq := h.fields.symm.trans h'.fields
  simp only [List.cons.injEq, and_true, true_and] at heq
  exact standard.encode_inj heq

theorem carries_iff {value : String} {blob : List UInt8} : Carries value blob ↔
    (splitWhitespace value)[0]? = some "ssh-ed25519" ∧
      (splitWhitespace value)[1]? = some (standard.encode blob) ∧
        validEd25519Blob blob = true := by
  rw [← and_assoc, ← take_two_iff]
  exact ⟨fun h => ⟨h.fields, h.valid⟩, fun h => ⟨h.2, h.1⟩⟩

/-- A key between spaces of ASCII is one between any white space. -/
theorem take_two_of_ascii {value : String} {blob : List UInt8}
    (h : (splitAsciiWhitespace value).take 2 = ["ssh-ed25519", standard.encode blob]) :
    (splitWhitespace value).take 2 = ["ssh-ed25519", standard.encode blob] := by
  rw [splitAsciiWhitespace, ← List.map_take] at h
  obtain ⟨words, hwords⟩ : ∃ words, fields isAsciiWhitespace value.toList =
      ["ssh-ed25519".toList, (standard.encode blob).toList] ++ words := by
    have htake := congrArg (List.map String.toList) h
    rw [List.map_map, String.toList_comp_ofList, List.map_id] at htake
    refine ⟨(fields isAsciiWhitespace value.toList).drop 2, ?_⟩
    conv_lhs => rw [← List.take_append_drop 2 (fields isAsciiWhitespace value.toList), htake]
    rfl
  have hkey : ∀ word ∈ ["ssh-ed25519".toList, (standard.encode blob).toList],
      ∀ c ∈ word, isWhitespace c = false := by
    have hstart : ∀ c ∈ "ssh-ed25519".toList, isWhitespace c = false :=
      List.all_iff_forall_prop.mp (by decide)
    simp only [List.forall_mem_cons]
    exact ⟨hstart, fun c hc => (graphic_encode hc).notWhitespace, nofun⟩
  obtain ⟨words', hwords'⟩ := fields_finer isWhitespace_of_ascii hkey hwords
  rw [splitWhitespace, hwords']
  simp only [List.cons_append, List.nil_append, List.map_cons, List.take_succ_cons,
    List.take_zero, String.ofList_toList]

variable {sha256 : List UInt8 → List UInt8} {value : String}

/-- **The API accepts the plain texts that carry a blob.** -/
theorem canonicalEd25519PublicKey_iff {key : CanonicalKey} :
    canonicalEd25519PublicKey sha256 value = .ok key ↔ Plain value ∧
      ∃ blob, Carries value blob ∧ key = ⟨bareText blob, fingerprint sha256 blob⟩ := by
  simp only [canonicalEd25519PublicKey, bind_eq_ok, ensure_eq_ok, required_eq_ok,
    decide_eq_true_eq, exists_const, standard.decode_iff]
  constructor
  · rintro ⟨htext, halgorithm, _, hbody, blob, rfl, hvalid, hkey⟩
    simp only [Bool.not_eq_true', Bool.or_eq_false_iff, decide_eq_false_iff_not, not_lt] at htext
    have hascii := take_two_iff.mpr ⟨halgorithm, hbody⟩
    have hfields := take_two_of_ascii hascii
    exact ⟨⟨htext.1.2, htext.2, hascii.trans hfields.symm⟩, blob, ⟨hvalid, hfields⟩,
      (Except.ok.inj hkey).symm⟩
  · rintro ⟨hplain, blob, hcarries, rfl⟩
    obtain ⟨halgorithm, hbody⟩ := take_two_iff.mp (hplain.spaces.trans hcarries.fields)
    have hne : value ≠ "" := by
      rintro rfl
      cases halgorithm
    refine ⟨?_, halgorithm, _, hbody, blob, rfl, hcarries.valid, rfl⟩
    rw [decide_eq_false hne, decide_eq_false (not_lt.mpr hplain.size), hplain.control]
    rfl

/-- **A gateway accepts the texts that carry a blob and nothing else as host keys.** -/
theorem canonicalHostKey_iff {key : HostKey} :
    canonicalHostKey sha256 value = .ok key ↔ (splitWhitespace value).length = 2 ∧
      ∃ blob, Carries value blob ∧ key = ⟨bareText blob, fingerprint sha256 blob⟩ := by
  simp only [canonicalHostKey, bind_eq_ok, ensure_eq_ok, required_eq_ok,
    decide_eq_true_eq, exists_const, standard.decode_iff, isCanonicalBlob_eq, carries_iff,
    Option.isNone_iff_eq_none, List.getElem?_eq_none_iff]
  constructor
  · rintro ⟨halgorithm, _, hbody, hlength, blob, rfl, hvalid, hkey⟩
    have hlt := (List.getElem?_eq_some_iff.mp hbody).1
    exact ⟨by omega, blob, ⟨halgorithm, hbody, hvalid⟩, (Except.ok.inj hkey).symm⟩
  · rintro ⟨hlength, blob, ⟨halgorithm, hbody, hvalid⟩, rfl⟩
    exact ⟨halgorithm, _, hbody, hlength.le, blob, rfl, hvalid, rfl⟩

/-- **A gateway accepts the texts that carry a blob and one field more as its identity.** -/
theorem canonicalPublicKey_iff {hostId : BitVec 128} {text : String} :
    canonicalPublicKey value hostId = .ok text ↔ (splitWhitespace value).length ≤ 3 ∧
      ∃ blob, Carries value blob ∧ text = identityText blob hostId := by
  have hfields : (! ((splitWhitespace value)[2]?.isSome && (splitWhitespace value)[3]?.isSome)) =
      true ↔ (splitWhitespace value).length ≤ 3 := by
    simp only [Bool.not_eq_true', Bool.and_eq_false_iff, Option.isSome_eq_false_iff,
      Option.isNone_iff_eq_none, List.getElem?_eq_none_iff]
    omega
  simp only [canonicalPublicKey, bind_eq_ok, ensure_eq_ok, required_eq_ok,
    decide_eq_true_eq, exists_const, standard.decode_iff, isCanonicalBlob_eq, carries_iff, hfields]
  constructor
  · rintro ⟨halgorithm, _, hbody, hlength, blob, rfl, hvalid, htext⟩
    exact ⟨hlength, blob, ⟨halgorithm, hbody, hvalid⟩, (Except.ok.inj htext).symm⟩
  · rintro ⟨hlength, blob, ⟨halgorithm, hbody, hvalid⟩, rfl⟩
    exact ⟨halgorithm, _, hbody, hlength, blob, rfl, hvalid, rfl⟩

end CtfZone.Ssh
