/-
# Team invites

The codes that teams hand out (`team_accounts.rs`): a payload with the id of the team and a
digest under its password, the time of issue, and a signature.

The digests and the reader of JSON are those of other crates (`Primitives`).  What would
panic is told apart from what is refused (`Failure`).

* `inviteCodeAt`, `verifyInviteEnvelopeAt`, `verifyTeamInviteWithSecret` : the functions;
* `verifyInviteEnvelopeAt_iff` : which codes are envelopes;
* `invites_agree` : **codes are accepted for a day, by the team as it was, and only those that
  were issued**.
-/
import CtfZone.SettingTexts
import CtfZone.Base64
import CtfZone.ByteTexts

namespace CtfZone.Invites

open Base64 ByteTexts
open CtfZone.Configuration (Graphic)

/-! ## Bytes -/

/-- `str::as_bytes`. -/
def asBytes (text : String) : List UInt8 := text.toByteArray.data.toList

theorem asBytes_inj {text text' : String} (h : asBytes text = asBytes text') : text = text' :=
  String.toByteArray_inj.mp (ByteArray.ext (Array.toList_inj.mp h))

theorem asBytes_append (text text' : String) :
    asBytes (text ++ text') = asBytes text ++ asBytes text' := by
  rw [asBytes, String.toByteArray_append, ByteArray.data_append, Array.toList_append]
  rfl

theorem length_asBytes (text : String) : (asBytes text).length = text.utf8ByteSize := by
  rw [asBytes, Array.length_toList]
  rfl

/-- Why a function does not return: the request is refused, or the thread panics. -/
inductive Failure
  | badRequest (message : String)
  | panic
  deriving DecidableEq

/-- `ok_or`. -/
def okOr {α : Type} (value : Option α) (error : Failure) : Except Failure α :=
  match value with
  | some a => .ok a
  | none => .error error

@[simp] theorem okOr_eq_ok {α : Type} {value : Option α} {error : Failure} {a : α} :
    okOr value error = .ok a ↔ value = some a := by
  cases value <;> simp [okOr]

/-- `a - b` of two `usize`. -/
def subUsize (a b : ℕ) : Except Failure ℕ := if b ≤ a then .ok (a - b) else .error .panic

/-- `bytes[start..]`. -/
def sliceFrom (bytes : List UInt8) (start : ℕ) : Except Failure (List UInt8) :=
  if start ≤ bytes.length then .ok (bytes.drop start) else .error .panic

/-- `target[start..].copy_from_slice(source)`. -/
def copyFromSlice (target : List UInt8) (start : ℕ) (source : List UInt8) :
    Except Failure (List UInt8) := do
  let slice ← sliceFrom target start
  if slice.length = source.length then .ok (target.take start ++ source) else .error .panic

/-- `i64::saturating_sub`. -/
def saturatingSub (a b : ℤ) : ℤ := max (-2 ^ 63) (min (2 ^ 63 - 1) (a - b))

/-! ## Codes -/

/-- `TeamRecord`, as far as invites go. -/
structure TeamRecord where
  id : Int32
  password : Option String

/-- `InvitePayload`. -/
structure InvitePayload where
  id : Int32
  v : String
  deriving DecidableEq

/-- `VerifiedInvite`. -/
structure VerifiedInvite where
  teamId : Int32
  teamVerification : List UInt8

/-- What the invites rest on outside the repository. -/
structure Primitives where
  /-- `Sha1::digest` -/
  sha1 : List UInt8 → List UInt8
  /-- `Hmac<Sha1>` of a message under a key of any length -/
  hmacSha1 : List UInt8 → List UInt8 → List UInt8
  /-- `serde_json::from_slice::<InvitePayload>` -/
  fromSlice : List UInt8 → Option InvitePayload

/-- `serde_json::to_vec(&json!(…))`: nothing in a hexadecimal text is escaped. -/
def toVec (id : Int32) (v : String) : List UInt8 :=
  asBytes ("\x7b\"id\":" ++ toString id ++ ",\"v\":\"" ++ v ++ "\"\x7d")

/-- What is documented of them. -/
structure Primitives.Documented (c : Primitives) : Prop where
  length : ∀ key message, (c.hmacSha1 key message).length = 20
  fromSlice : ∀ id bytes, c.fromSlice (toVec id (String.ofList (hexEncode bytes))) =
    some ⟨id, String.ofList (hexEncode bytes)⟩

/-- `TEAM_INVITE_MAX_AGE_SECONDS`. -/
def teamInviteMaxAgeSeconds : ℤ := 86400

/-- `TEAM_INVITE_MAX_LENGTH`. -/
def teamInviteMaxLength : ℕ := 4096

/-- `invalid_team_invite`. -/
def invalidTeamInvite : Failure := .badRequest "The team invite is invalid or has expired"

section Functions

variable (c : Primitives) (secretKey : String)

/-- `invite_signing_key`. -/
def inviteSigningKey : List UInt8 :=
  c.sha1 (asBytes "itsdangerous" ++ asBytes "signer" ++ asBytes secretKey)

/-- The key that a team is verified under. -/
def verificationSecret (team : TeamRecord) : List UInt8 :=
  match team.password with
  | some password => asBytes secretKey ++ asBytes password
  | none => asBytes secretKey

/-- The digest of a team. -/
def teamVerification (team : TeamRecord) : List UInt8 :=
  c.hmacSha1 (verificationSecret secretKey team) (asBytes (toString team.id))

/-- `invite_code_at`. -/
def inviteCodeAt (team : TeamRecord) (timestamp : Int64) : Except Failure String := do
  let verification := String.ofList (hexEncode (teamVerification c secretKey team))
  let payload := urlSafeNoPad.encode (toVec team.id verification)
  ensure (0 ≤ timestamp.toInt) (.badRequest "Unable to create an invite code")
  let timestampBytes := toBeBytes 8 timestamp.toInt.toNat
  let last ← subUsize timestampBytes.length 1
  let firstNonzero := (timestampBytes.findIdx? (· ≠ 0)).getD last
  let timestamp := urlSafeNoPad.encode (← sliceFrom timestampBytes firstNonzero)
  let unsigned := payload ++ "." ++ timestamp
  let signature := c.hmacSha1 (inviteSigningKey c secretKey) (asBytes unsigned)
  pure (unsigned ++ "." ++ urlSafeNoPad.encode signature)

/-- `code.split('.')`, where there are three parts. -/
def threeParts (code : String) : Option (String × String × String) :=
  match code.toList.splitOn '.' with
  | [payload, timestamp, signature] =>
    some (String.ofList payload, String.ofList timestamp, String.ofList signature)
  | _ => none

/-- `verify_invite_envelope_at`. -/
def verifyInviteEnvelopeAt (code : String) (now : Int64) : Except Failure VerifiedInvite := do
  let code := trim code
  ensure (! (code = "" || teamInviteMaxLength < code.utf8ByteSize)) invalidTeamInvite
  let (payload, timestamp, signature) ← okOr (threeParts code) invalidTeamInvite
  let suppliedSignature ← okOr (urlSafeNoPad.decode signature) invalidTeamInvite
  ensure (c.hmacSha1 (inviteSigningKey c secretKey) (asBytes (payload ++ "." ++ timestamp)) =
    suppliedSignature) invalidTeamInvite
  let timestampBytes ← okOr (urlSafeNoPad.decode timestamp) invalidTeamInvite
  ensure (! (timestampBytes.isEmpty || 8 < timestampBytes.length)) invalidTeamInvite
  let start ← subUsize 8 timestampBytes.length
  let paddedTimestamp ← copyFromSlice (List.replicate 8 0) start timestampBytes
  ensure (fromBeBytes paddedTimestamp < 2 ^ 63) invalidTeamInvite
  let issuedAt : ℤ := fromBeBytes paddedTimestamp
  ensure (! (now.toInt < issuedAt || teamInviteMaxAgeSeconds < saturatingSub now.toInt issuedAt))
    invalidTeamInvite
  let payload ← okOr (urlSafeNoPad.decode payload) invalidTeamInvite
  let payload ← okOr (c.fromSlice payload) invalidTeamInvite
  ensure (0 < payload.id.toInt) invalidTeamInvite
  let teamVerification ← okOr (hexDecode payload.v.toList) invalidTeamInvite
  ensure (teamVerification.length = 20) invalidTeamInvite
  pure { teamId := payload.id, teamVerification }

/-- `verify_team_invite_with_secret`. -/
def verifyTeamInviteWithSecret (team : TeamRecord) (suppliedVerification : List UInt8) :
    Except Failure Unit :=
  ensure (teamVerification c secretKey team = suppliedVerification) invalidTeamInvite

/-- The envelope of a code, and the team against what it says. -/
def verifyInvite (team : TeamRecord) (code : String) (now : Int64) : Except Failure Int32 := do
  let invite ← verifyInviteEnvelopeAt c secretKey code now
  verifyTeamInviteWithSecret c secretKey team invite.teamVerification
  pure invite.teamId

end Functions

/-! ## Texts -/

theorem graphic_encode {b : List UInt8} {x : Char} (hx : x ∈ (urlSafeNoPad.encode b).toList) :
    Graphic x ∧ x ≠ '.' := by
  have halphabet : ∀ x ∈ urlSafeAlphabet.chars, Graphic x ∧ x ≠ '.' :=
    List.all_iff_forall_prop.mp (by decide +kernel)
  rcases urlSafeNoPad.encode_mem hx with hx | ⟨hpadded, -⟩
  · exact halphabet x hx
  · cases hpadded

theorem threeParts_eq_some {code payload timestamp signature : String}
    (h : threeParts code = some (payload, timestamp, signature)) :
    code = payload ++ "." ++ timestamp ++ "." ++ signature := by
  unfold threeParts at h
  split at h
  · rename_i hparts
    cases h
    have hcode : ['.'].intercalate (code.toList.splitOn '.') = code.toList :=
      List.intercalate_splitOn '.'
    rw [hparts] at hcode
    rw [← String.toList_inj, ← hcode]
    simp [List.intercalate, String.toList_append]
  · cases h

theorem threeParts_append {payload timestamp signature : String} (hpayload : '.' ∉ payload.toList)
    (htimestamp : '.' ∉ timestamp.toList) (hsignature : '.' ∉ signature.toList) :
    threeParts (payload ++ "." ++ timestamp ++ "." ++ signature) =
      some (payload, timestamp, signature) := by
  have htext : (payload ++ "." ++ timestamp ++ "." ++ signature).toList =
      payload.toList ++ '.' :: (timestamp.toList ++ '.' :: signature.toList) := by
    simp [String.toList_append]
  have hparts : (payload ++ "." ++ timestamp ++ "." ++ signature).toList.splitOn '.' =
      [payload.toList, timestamp.toList, signature.toList] := by
    rw [htext, List.splitOn_append_cons_self, List.splitOn_append_cons_self,
      List.splitOn_eq_singleton hpayload, List.splitOn_eq_singleton htimestamp,
      List.splitOn_eq_singleton hsignature]
    rfl
  rw [threeParts, hparts]
  simp only [String.ofList_toList]

/-- What a code signs is taken apart at its dot. -/
theorem unsigned_inj {payload timestamp payload' timestamp' : List UInt8}
    (h : urlSafeNoPad.encode payload ++ "." ++ urlSafeNoPad.encode timestamp =
      urlSafeNoPad.encode payload' ++ "." ++ urlSafeNoPad.encode timestamp') :
    payload = payload' ∧ timestamp = timestamp' := by
  have hdot : ∀ b, '.' ∉ (urlSafeNoPad.encode b).toList := fun b hb => (graphic_encode hb).2 rfl
  have hempty : '.' ∉ "".toList := by decide
  have hparts := threeParts_append (hdot payload) (hdot timestamp) hempty
  rw [h, threeParts_append (hdot payload') (hdot timestamp') hempty] at hparts
  simp only [Option.some.injEq, Prod.mk.injEq, and_true] at hparts
  exact ⟨(urlSafeNoPad.encode_inj hparts.1).symm, (urlSafeNoPad.encode_inj hparts.2).symm⟩

/-! ## Times -/

/-- The bytes of a time of issue. -/
def timestampBytes (n : ℕ) : List UInt8 :=
  (toBeBytes 8 n).drop (((toBeBytes 8 n).findIdx? (· ≠ 0)).getD 7)

theorem firstNonzero_le (n : ℕ) : ((toBeBytes 8 n).findIdx? (· ≠ 0)).getD 7 ≤ 7 := by
  cases hfirst : (toBeBytes 8 n).findIdx? (· ≠ 0) with
  | none => exact Nat.le_refl 7
  | some i =>
      obtain ⟨hi, -⟩ := List.findIdx?_eq_some_iff_getElem.mp hfirst
      rw [length_toBeBytes] at hi
      exact Nat.le_of_lt_succ hi

/-- Only zeros are left out. -/
theorem zero_of_take (n : ℕ) :
    ∀ x ∈ (toBeBytes 8 n).take (((toBeBytes 8 n).findIdx? (· ≠ 0)).getD 7), x = 0 := by
  intro x hx
  cases hfirst : (toBeBytes 8 n).findIdx? (· ≠ 0) with
  | none =>
      rw [List.findIdx?_eq_none_iff] at hfirst
      simpa using hfirst x (List.mem_of_mem_take hx)
  | some i =>
      obtain ⟨hi, -, hbefore⟩ := List.findIdx?_eq_some_iff_getElem.mp hfirst
      rw [hfirst, Option.getD_some] at hx
      obtain ⟨j, hj, rfl⟩ := List.mem_iff_getElem.mp hx
      rw [List.length_take] at hj
      rw [List.getElem_take]
      simpa using hbefore j (by omega)

theorem fromBeBytes_timestampBytes {n : ℕ} (hn : n < 2 ^ 63) :
    fromBeBytes (timestampBytes n) = n := by
  rw [timestampBytes, fromBeBytes_drop (zero_of_take n), fromBeBytes_toBeBytes]
  exact hn.trans (by decide)

theorem length_timestampBytes (n : ℕ) :
    0 < (timestampBytes n).length ∧ (timestampBytes n).length ≤ 8 := by
  have hle := firstNonzero_le n
  rw [timestampBytes, List.length_drop, length_toBeBytes]
  omega

/-- The bytes fit into eight. -/
theorem copyFromSlice_eq {bytes : List UInt8} (h : bytes.length ≤ 8) :
    copyFromSlice (List.replicate 8 0) (8 - bytes.length) bytes =
      .ok (List.replicate (8 - bytes.length) 0 ++ bytes) := by
  have hslice : sliceFrom (List.replicate 8 0) (8 - bytes.length) =
      .ok ((List.replicate 8 (0 : UInt8)).drop (8 - bytes.length)) := by
    rw [sliceFrom, if_pos (by rw [List.length_replicate]; omega)]
  rw [copyFromSlice, hslice]
  change (if _ then _ else _) = _
  rw [if_pos (by rw [List.length_drop, List.length_replicate]; omega), List.take_replicate]
  congr 3
  omega

theorem fromBeBytes_replicate (k : ℕ) (bytes : List UInt8) :
    fromBeBytes (List.replicate k 0 ++ bytes) = fromBeBytes bytes :=
  fromBeBytes_append (fun _ hx => List.eq_of_mem_replicate hx) bytes

/-! ## Envelopes -/

variable {c : Primitives} {secretKey code : String} {now : Int64}

/-- A text with its signature. -/
def signedText (c : Primitives) (secretKey unsigned : String) : String :=
  unsigned ++ "." ++
    urlSafeNoPad.encode (c.hmacSha1 (inviteSigningKey c secretKey) (asBytes unsigned))

/-- A payload and a time of issue. -/
def unsignedText (payload timestamp : List UInt8) : String :=
  urlSafeNoPad.encode payload ++ "." ++ urlSafeNoPad.encode timestamp

/-- The payload of a team. -/
def teamPayload (c : Primitives) (secretKey : String) (team : TeamRecord) : List UInt8 :=
  toVec team.id (String.ofList (hexEncode (teamVerification c secretKey team)))

/-- The code of a team. -/
theorem inviteCodeAt_eq_ok {team : TeamRecord} {timestamp : Int64} :
    inviteCodeAt c secretKey team timestamp = .ok code ↔ 0 ≤ timestamp.toInt ∧
      code = signedText c secretKey (unsignedText (teamPayload c secretKey team)
        (timestampBytes timestamp.toInt.toNat)) := by
  have hlast : subUsize (toBeBytes 8 timestamp.toInt.toNat).length 1 = .ok 7 := by
    rw [length_toBeBytes]
    rfl
  have hslice : sliceFrom (toBeBytes 8 timestamp.toInt.toNat)
      (((toBeBytes 8 timestamp.toInt.toNat).findIdx? (· ≠ 0)).getD 7) =
        .ok (timestampBytes timestamp.toInt.toNat) := by
    rw [sliceFrom, if_pos]
    · rfl
    · rw [length_toBeBytes]
      exact (firstNonzero_le _).trans (by decide)
  simp only [inviteCodeAt, bind_eq_ok, ensure_eq_ok, decide_eq_true_eq, exists_const, hlast,
    Except.ok.injEq, exists_eq_left', hslice]
  exact and_congr_right fun _ => ⟨fun h => (Except.ok.inj h).symm, fun h => congrArg _ h.symm⟩

theorem exists_inviteCodeAt (c : Primitives) (secretKey : String) (team : TeamRecord)
    {timestamp : Int64} (h : 0 ≤ timestamp.toInt) :
    ∃ code, inviteCodeAt c secretKey team timestamp = .ok code :=
  ⟨_, inviteCodeAt_eq_ok.mpr ⟨h, rfl⟩⟩

/-- The code is an envelope, and what is in it. -/
structure Envelope (c : Primitives) (secretKey code : String) (now : Int64)
    (invite : VerifiedInvite) (payload timestamp : List UInt8) (v : String) : Prop where
  text : trim code = signedText c secretKey (unsignedText payload timestamp)
  size : (trim code).utf8ByteSize ≤ teamInviteMaxLength
  nonempty : timestamp ≠ []
  length : timestamp.length ≤ 8
  time : fromBeBytes timestamp < 2 ^ 63
  started : (fromBeBytes timestamp : ℤ) ≤ now.toInt
  age : now.toInt - fromBeBytes timestamp ≤ teamInviteMaxAgeSeconds
  payload : c.fromSlice payload = some ⟨invite.teamId, v⟩
  positive : 0 < invite.teamId.toInt
  verification : hexDecode v.toList = some invite.teamVerification
  digest : invite.teamVerification.length = 20

/-- Nothing is saturated between two times that are not negative. -/
theorem saturatingSub_eq {issuedAt : ℕ} (h : (issuedAt : ℤ) ≤ now.toInt) :
    saturatingSub now.toInt issuedAt = now.toInt - issuedAt := by
  have hlt := now.toInt_lt
  unfold saturatingSub
  omega

theorem subUsize_eq {bytes : List UInt8} (h : bytes.length ≤ 8) :
    subUsize 8 bytes.length = .ok (8 - bytes.length) := by rw [subUsize, if_pos h]

/-- **The codes that are accepted are the envelopes.** -/
theorem verifyInviteEnvelopeAt_iff {invite : VerifiedInvite} :
    verifyInviteEnvelopeAt c secretKey code now = .ok invite ↔
      ∃ payload timestamp v, Envelope c secretKey code now invite payload timestamp v := by
  simp only [verifyInviteEnvelopeAt, bind_eq_ok, ensure_eq_ok, okOr_eq_ok, Prod.exists,
    exists_const, urlSafeNoPad.decode_iff, decide_eq_true_eq, Bool.not_eq_true',
    Bool.or_eq_false_iff, decide_eq_false_iff_not, List.isEmpty_eq_false_iff, not_lt]
  constructor
  · rintro ⟨⟨-, hsize⟩, _, _, _, hparts, signature, rfl, hsignature, timestamp, rfl,
      ⟨hnonempty, hlength⟩, start, hstart, padded, hpadded, htime, ⟨hstarted, hage⟩, payload, rfl,
      ⟨id, v⟩, hpayload, hpositive, verification, hverification, hdigest, hinvite⟩
    rw [subUsize_eq hlength] at hstart
    obtain rfl := Except.ok.inj hstart
    rw [copyFromSlice_eq hlength] at hpadded
    obtain rfl := Except.ok.inj hpadded
    obtain rfl := Except.ok.inj hinvite
    rw [fromBeBytes_replicate] at htime hstarted hage
    rw [saturatingSub_eq hstarted] at hage
    refine ⟨payload, timestamp, v, ?_, hsize, hnonempty, hlength, htime, hstarted, hage, hpayload,
      hpositive, hverification, hdigest⟩
    rw [threeParts_eq_some hparts, ← hsignature]
    rfl
  · rintro ⟨payload, timestamp, v, h⟩
    have hdot : ∀ b, '.' ∉ (urlSafeNoPad.encode b).toList := fun b hb => (graphic_encode hb).2 rfl
    have hparts := threeParts_append (hdot payload) (hdot timestamp)
      (hdot (c.hmacSha1 (inviteSigningKey c secretKey) (asBytes (unsignedText payload timestamp))))
    refine ⟨⟨?_, h.size⟩, _, _, _, h.text ▸ hparts, _, rfl, rfl, timestamp, rfl,
      ⟨h.nonempty, h.length⟩, _, subUsize_eq h.length, _, copyFromSlice_eq h.length, ?_, ⟨?_, ?_⟩,
      payload, rfl, _, h.payload, h.positive, _, h.verification, h.digest, rfl⟩
    · intro hempty
      have hmem : '.' ∈ (signedText c secretKey (unsignedText payload timestamp)).toList := by
        simp [signedText, String.toList_append]
      rw [← h.text, hempty] at hmem
      cases hmem
    · rw [fromBeBytes_replicate]
      exact h.time
    · rw [fromBeBytes_replicate]
      exact h.started
    · rw [fromBeBytes_replicate, saturatingSub_eq h.started]
      exact h.age

/-! ## Codes that are issued -/

/-- The text of an id is short. -/
theorem length_toString_le (id : Int32) : (toString id).toList.length ≤ 11 := by
  have hlength : ∀ n : ℕ, n ≤ 2 ^ 31 → (n.repr).toList.length ≤ 10 := by
    intro n hn
    rw [String.length_toList, Nat.length_repr_le_iff (by decide)]
    exact hn.trans_lt (by decide)
  have hlow := id.le_toInt
  have hhigh := id.toInt_lt
  change (id.toInt.repr).toList.length ≤ 11
  cases hid : id.toInt with
  | ofNat n =>
      rw [hid, Int.ofNat_eq_natCast] at hhigh
      exact (hlength n (by omega)).trans (by decide)
  | negSucc n =>
      rw [hid] at hlow
      change ("-" ++ (n + 1).repr).toList.length ≤ 11
      rw [String.toList_append, List.length_append]
      have hdigits := hlength (n + 1) (by omega)
      have hminus : "-".toList.length = 1 := by decide
      omega

theorem toString_chars (id : Int32) : ∀ x ∈ (toString id).toList, x.isDigit = true ∨ x = '-' := by
  have hdigit : ∀ n : ℕ, ∀ x ∈ (n.repr).toList, x.isDigit = true ∨ x = '-' := by
    intro n x hx
    rw [Nat.toList_repr] at hx
    exact .inl (Nat.isDigit_of_mem_toDigits (by decide) (by decide) hx)
  change ∀ x ∈ (id.toInt.repr).toList, x.isDigit = true ∨ x = '-'
  cases id.toInt with
  | ofNat n => exact hdigit n
  | negSucc n =>
      change ∀ x ∈ ("-" ++ (n + 1).repr).toList, x.isDigit = true ∨ x = '-'
      rw [String.toList_append, List.forall_mem_append]
      constructor
      · exact List.all_iff_forall_prop.mp (by decide)
      · exact hdigit (n + 1)

theorem toString_graphic (id : Int32) : ∀ x ∈ (toString id).toList, Graphic x := by
  intro x hx
  rcases toString_chars id x hx with hdigit | rfl
  · refine Configuration.graphic_of_isAlphanum ?_
    rw [FloatTexts.isAlphanum_eq, hdigit, Bool.or_true]
  · decide

theorem toString_inj {id id' : Int32} (h : toString id = toString id') : id = id' :=
  Int32.toInt_inj.mp (Int.repr_injective h)

/-- The text of a payload. -/
theorem payloadText_chars (id : Int32) (bytes : List UInt8) :
    ∀ x ∈ ("\x7b\"id\":" ++ toString id ++ ",\"v\":\"" ++ String.ofList (hexEncode bytes) ++
      "\"\x7d").toList, Graphic x := by
  have hhex : ∀ x ∈ hexEncode bytes, Graphic x := by
    intro x hx
    have hall : ∀ x ∈ "0123456789abcdef".toList, Graphic x :=
      List.all_iff_forall_prop.mp (by decide)
    exact hall x (hexEncode_mem hx)
  have hstart : ∀ x ∈ "\x7b\"id\":".toList, Graphic x := List.all_iff_forall_prop.mp (by decide)
  have hmiddle : ∀ x ∈ ",\"v\":\"".toList, Graphic x := List.all_iff_forall_prop.mp (by decide)
  have hend : ∀ x ∈ "\"\x7d".toList, Graphic x := List.all_iff_forall_prop.mp (by decide)
  simp only [String.toList_append, List.forall_mem_append, String.toList_ofList]
  exact ⟨⟨⟨⟨hstart, toString_graphic id⟩, hmiddle⟩, hhex⟩, hend⟩

theorem utf8ByteSize_of_graphic {text : String} (h : ∀ x ∈ text.toList, Graphic x) :
    text.utf8ByteSize = text.toList.length := by
  rw [utf8ByteSize_eq, utf8Length_of_forall fun x hx => (h x hx).utf8Size]

theorem length_toVec (id : Int32) (bytes : List UInt8) :
    (toVec id (String.ofList (hexEncode bytes))).length ≤ 25 + 2 * bytes.length := by
  have hid := length_toString_le id
  have hopen : "\x7b\"id\":".length = 6 := by decide
  have hmiddle : ",\"v\":\"".length = 6 := by decide
  have hclose : "\"\x7d".length = 2 := by decide
  rw [toVec, length_asBytes, utf8ByteSize_of_graphic (payloadText_chars id bytes),
    String.length_toList]
  rw [String.length_toList] at hid
  simp only [String.length_append, String.length_ofList, length_hexEncode, hopen, hmiddle, hclose]
  omega

theorem signedText_chars (payload timestamp : List UInt8) :
    ∀ x ∈ (signedText c secretKey (unsignedText payload timestamp)).toList, Graphic x := by
  have hencode : ∀ b, ∀ x ∈ (urlSafeNoPad.encode b).toList, Graphic x :=
    fun b x hx => (graphic_encode hx).1
  have hdot : ∀ x ∈ ".".toList, Graphic x := List.all_iff_forall_prop.mp (by decide)
  simp only [signedText, unsignedText, String.toList_append, List.forall_mem_append]
  exact ⟨⟨⟨⟨hencode _, hdot⟩, hencode _⟩, hdot⟩, hencode _⟩

theorem threeParts_signedText (payload timestamp : List UInt8) :
    threeParts (signedText c secretKey (unsignedText payload timestamp)) =
      some (urlSafeNoPad.encode payload, urlSafeNoPad.encode timestamp,
        urlSafeNoPad.encode (c.hmacSha1 (inviteSigningKey c secretKey)
          (asBytes (unsignedText payload timestamp)))) := by
  have hdot : ∀ b, '.' ∉ (urlSafeNoPad.encode b).toList := fun b hb => (graphic_encode hb).2 rfl
  exact threeParts_append (hdot _) (hdot _) (hdot _)

theorem trim_signedText (payload timestamp : List UInt8) :
    trim (signedText c secretKey (unsignedText payload timestamp)) =
      signedText c secretKey (unsignedText payload timestamp) :=
  trim_of_forall fun x hx => (signedText_chars payload timestamp x hx).notWhitespace

section Issued

variable (hc : c.Documented) {team : TeamRecord}
include hc

theorem length_teamPayload : (teamPayload c secretKey team).length ≤ 65 := by
  have hle := length_toVec team.id (teamVerification c secretKey team)
  have hdigest : (teamVerification c secretKey team).length = 20 := hc.length _ _
  rw [hdigest] at hle
  exact hle

/-- A code fits into the limit. -/
theorem size_signedText {payload timestamp : List UInt8} (hpayload : payload.length ≤ 65)
    (htimestamp : timestamp.length ≤ 8) :
    (signedText c secretKey (unsignedText payload timestamp)).utf8ByteSize ≤
      teamInviteMaxLength := by
  have hsignature := urlSafeNoPad.length_encode
    (c.hmacSha1 (inviteSigningKey c secretKey) (asBytes (unsignedText payload timestamp)))
  have hpayload' := urlSafeNoPad.length_encode payload
  have htimestamp' := urlSafeNoPad.length_encode timestamp
  have hdot : ".".length = 1 := by decide
  rw [hc.length] at hsignature
  rw [utf8ByteSize_of_graphic (signedText_chars payload timestamp), String.length_toList,
    signedText, unsignedText, String.length_append, String.length_append, String.length_append,
    String.length_append, hdot, teamInviteMaxLength]
  unfold unsignedText at hsignature
  omega

/-- An envelope with the payload of a team. -/
theorem envelope_team_iff {timestamp : Int64} (htime : 0 ≤ timestamp.toInt)
    {invite : VerifiedInvite} {v : String}
    (htext : trim code = signedText c secretKey (unsignedText (teamPayload c secretKey team)
      (timestampBytes timestamp.toInt.toNat))) :
    Envelope c secretKey code now invite (teamPayload c secretKey team)
        (timestampBytes timestamp.toInt.toNat) v ↔
      v = String.ofList (hexEncode (teamVerification c secretKey team)) ∧
        invite = ⟨team.id, teamVerification c secretKey team⟩ ∧ 0 < team.id.toInt ∧
          timestamp.toInt ≤ now.toInt ∧ now.toInt - timestamp.toInt ≤ 86400 := by
  have hlt := timestamp.toInt_lt
  have hnumber : fromBeBytes (timestampBytes timestamp.toInt.toNat) = timestamp.toInt.toNat :=
    fromBeBytes_timestampBytes (by omega)
  have hcast : ((timestamp.toInt.toNat : ℕ) : ℤ) = timestamp.toInt := Int.toNat_of_nonneg htime
  have hpayload := hc.fromSlice team.id (teamVerification c secretKey team)
  obtain ⟨hpos, hlength⟩ := length_timestampBytes timestamp.toInt.toNat
  constructor
  · intro h
    have hread := h.payload
    rw [teamPayload, hpayload, Option.some.injEq, InvitePayload.mk.injEq] at hread
    obtain ⟨hid, rfl⟩ := hread
    have hverification := h.verification
    rw [String.toList_ofList, hexDecode_hexEncode, Option.some.injEq] at hverification
    have hstarted := h.started
    have hage := h.age
    have hpositive := h.positive
    rw [hnumber, hcast] at hstarted hage
    rw [← hid] at hpositive
    obtain ⟨teamId, verification⟩ := invite
    obtain rfl : team.id = teamId := hid
    obtain rfl : teamVerification c secretKey team = verification := hverification
    exact ⟨rfl, rfl, hpositive, hstarted, hage⟩
  · rintro ⟨rfl, rfl, hpositive, hstarted, hage⟩
    refine ⟨htext, ?_, List.ne_nil_of_length_pos hpos, hlength, ?_, ?_, ?_, hpayload, hpositive, ?_,
      hc.length _ _⟩
    · rw [htext]
      exact size_signedText hc (length_teamPayload hc) hlength
    · rw [hnumber]
      omega
    · rw [hnumber, hcast]
      exact hstarted
    · rw [hnumber, hcast]
      exact hage
    · rw [String.toList_ofList, hexDecode_hexEncode]

/-- **A code that was issued is accepted for a day.** -/
theorem verifyInviteEnvelopeAt_issued {timestamp : Int64}
    (hcode : inviteCodeAt c secretKey team timestamp = .ok code) {invite : VerifiedInvite} :
    verifyInviteEnvelopeAt c secretKey code now = .ok invite ↔
      invite = ⟨team.id, teamVerification c secretKey team⟩ ∧ 0 < team.id.toInt ∧
        timestamp.toInt ≤ now.toInt ∧ now.toInt - timestamp.toInt ≤ 86400 := by
  obtain ⟨htime, rfl⟩ := inviteCodeAt_eq_ok.mp hcode
  have htext := @trim_signedText c secretKey (teamPayload c secretKey team)
    (timestampBytes timestamp.toInt.toNat)
  rw [verifyInviteEnvelopeAt_iff]
  constructor
  · rintro ⟨payload, issued, v, h⟩
    have hparts := congrArg threeParts (h.text.symm.trans htext)
    rw [threeParts_signedText, threeParts_signedText] at hparts
    simp only [Option.some.injEq, Prod.mk.injEq] at hparts
    obtain rfl := urlSafeNoPad.encode_inj hparts.1
    obtain rfl := urlSafeNoPad.encode_inj hparts.2.1
    exact ((envelope_team_iff hc htime htext).mp h).2
  · intro h
    exact ⟨_, _, _, (envelope_team_iff hc htime htext).mpr ⟨rfl, h⟩⟩

end Issued

/-! ## No panics -/

/-- The function does not panic. -/
def Calm {α : Type} (x : Except Failure α) : Prop := x ≠ .error .panic

theorem calm_bind {α β : Type} {x : Except Failure α} {f : α → Except Failure β} (hx : Calm x)
    (hf : ∀ a, x = .ok a → Calm (f a)) : Calm (x >>= f) := by
  cases x with
  | error e => exact fun h => hx (by rw [Except.error.inj h])
  | ok a => exact hf a rfl

theorem calm_ok {α : Type} (a : α) : Calm (.ok a) := nofun

theorem calm_badRequest {α : Type} (message : String) :
    Calm (.error (.badRequest message) : Except Failure α) := by
  rintro ⟨⟩

theorem calm_okOr {α : Type} (value : Option α) (message : String) :
    Calm (okOr value (.badRequest message)) := by
  cases value with
  | none => exact calm_badRequest message
  | some value => exact calm_ok value

theorem calm_ensure (condition : Bool) (message : String) :
    Calm (ensure condition (Failure.badRequest message)) := by
  cases condition with
  | false => exact calm_badRequest message
  | true => exact calm_ok ()

/-- **No code makes the verification panic.** -/
theorem verifyInviteEnvelopeAt_calm (c : Primitives) (secretKey code : String) (now : Int64) :
    Calm (verifyInviteEnvelopeAt c secretKey code now) := by
  refine calm_bind (calm_ensure _ _) fun _ _ => ?_
  refine calm_bind (calm_okOr _ _) fun ⟨payload, timestamp, signature⟩ _ => ?_
  refine calm_bind (calm_okOr _ _) fun _ _ => ?_
  refine calm_bind (calm_ensure _ _) fun _ _ => ?_
  refine calm_bind (calm_okOr _ _) fun timestampBytes _ => ?_
  refine calm_bind (calm_ensure _ _) fun _ hlength => ?_
  have hle : timestampBytes.length ≤ 8 := by
    simp only [ensure_eq_ok, Bool.not_eq_true', Bool.or_eq_false_iff, decide_eq_false_iff_not,
      not_lt] at hlength
    exact hlength.2
  rw [subUsize_eq hle]
  refine calm_bind (calm_ok _) fun start hstart => ?_
  obtain rfl := Except.ok.inj hstart
  rw [copyFromSlice_eq hle]
  refine calm_bind (calm_ok _) fun _ _ => ?_
  refine calm_bind (calm_ensure _ _) fun _ _ => ?_
  refine calm_bind (calm_ensure _ _) fun _ _ => ?_
  refine calm_bind (calm_okOr _ _) fun _ _ => ?_
  refine calm_bind (calm_okOr _ _) fun _ _ => ?_
  refine calm_bind (calm_ensure _ _) fun _ _ => ?_
  refine calm_bind (calm_okOr _ _) fun _ _ => ?_
  exact calm_bind (calm_ensure _ _) fun _ _ => calm_ok _

theorem verifyInvite_calm (c : Primitives) (secretKey : String) (team : TeamRecord)
    (code : String) (now : Int64) : Calm (verifyInvite c secretKey team code now) := by
  refine calm_bind (verifyInviteEnvelopeAt_calm c secretKey code now) fun _ _ => ?_
  exact calm_bind (calm_ensure _ _) fun _ _ => calm_ok _

theorem inviteCodeAt_calm (c : Primitives) (secretKey : String) (team : TeamRecord)
    (timestamp : Int64) : Calm (inviteCodeAt c secretKey team timestamp) := by
  by_cases htime : 0 ≤ timestamp.toInt
  · rw [inviteCodeAt_eq_ok.mpr ⟨htime, rfl⟩]
    exact calm_ok _
  · rw [inviteCodeAt, ensure, if_neg (by simpa using htime)]
    exact calm_badRequest _

/-! ## Teams -/

/-- The password of a team is a part of its key; no password and an empty one are the same. -/
theorem verificationSecret_eq (secretKey : String) (team : TeamRecord) :
    verificationSecret secretKey team = asBytes (secretKey ++ team.password.getD "") := by
  rw [verificationSecret]
  cases team.password with
  | none => rw [Option.getD_none, String.append_empty]
  | some password => rw [Option.getD_some, asBytes_append]

/-- Two teams have different digests, unless they have the same key and the same text. -/
def Separates (c : Primitives) (secretKey : String) (team team' : TeamRecord) : Prop :=
  teamVerification c secretKey team' = teamVerification c secretKey team →
    verificationSecret secretKey team' = verificationSecret secretKey team ∧
      asBytes (toString team'.id) = asBytes (toString team.id)

theorem teamVerification_eq_iff {team team' : TeamRecord}
    (h : Separates c secretKey team team') :
    teamVerification c secretKey team' = teamVerification c secretKey team ↔
      team'.id = team.id ∧ team'.password.getD "" = team.password.getD "" := by
  constructor
  · intro heq
    obtain ⟨hsecret, hid⟩ := h heq
    rw [verificationSecret_eq, verificationSecret_eq] at hsecret
    exact ⟨toString_inj (asBytes_inj hid), (String.append_right_inj _).mp (asBytes_inj hsecret)⟩
  · rintro ⟨hid, hpassword⟩
    rw [teamVerification, teamVerification, verificationSecret_eq, verificationSecret_eq, hid,
      hpassword]

/-- **A code is accepted for a day, by the team as it was.** -/
theorem verifyInvite_issued (hc : c.Documented) {team team' : TeamRecord} {timestamp : Int64}
    (hcode : inviteCodeAt c secretKey team timestamp = .ok code)
    (h : Separates c secretKey team team') {id : Int32} :
    verifyInvite c secretKey team' code now = .ok id ↔ id = team.id ∧ 0 < team.id.toInt ∧
      (timestamp.toInt ≤ now.toInt ∧ now.toInt ≤ timestamp.toInt + 86400) ∧
        team'.id = team.id ∧ team'.password.getD "" = team.password.getD "" := by
  simp only [verifyInvite, verifyTeamInviteWithSecret, bind_eq_ok, ensure_eq_ok, decide_eq_true_eq,
    exists_const, verifyInviteEnvelopeAt_issued hc hcode]
  constructor
  · rintro ⟨invite, ⟨rfl, hpositive, hstarted, hage⟩, hteam, hid⟩
    exact ⟨(Except.ok.inj hid).symm, hpositive, ⟨hstarted, by omega⟩,
      (teamVerification_eq_iff h).mp hteam⟩
  · rintro ⟨rfl, hpositive, ⟨hstarted, hage⟩, hteam⟩
    exact ⟨_, ⟨rfl, hpositive, hstarted, by omega⟩, (teamVerification_eq_iff h).mpr hteam, rfl⟩

/-! ## Forgery -/

/-- The code is a message with a tag. -/
def Presents (code : String) (message tag : List UInt8) : Prop :=
  ∃ payload timestamp signature, threeParts (trim code) = some (payload, timestamp, signature) ∧
    message = asBytes (payload ++ "." ++ timestamp) ∧ urlSafeNoPad.decode signature = some tag

/-- The code is not forged: a message that it presents with its tag is one that a code which
was issued has presented with it. -/
def Unforged (c : Primitives) (secretKey : String) (issued : TeamRecord → Int64 → Prop)
    (code : String) : Prop :=
  ∀ message, Presents code message (c.hmacSha1 (inviteSigningKey c secretKey) message) →
    ∃ team timestamp code', issued team timestamp ∧
      inviteCodeAt c secretKey team timestamp = .ok code' ∧
        Presents code' message (c.hmacSha1 (inviteSigningKey c secretKey) message)

/-- **A code that is accepted carries the payload of a code that was issued.** -/
theorem payload_issued (hc : c.Documented) {issued : TeamRecord → Int64 → Prop}
    (hunforged : Unforged c secretKey issued code) {invite : VerifiedInvite}
    (h : verifyInviteEnvelopeAt c secretKey code now = .ok invite) :
    ∃ team timestamp, issued team timestamp ∧ 0 ≤ timestamp.toInt ∧
      (timestamp.toInt ≤ now.toInt ∧ now.toInt ≤ timestamp.toInt + 86400) ∧
        threeParts (trim code) = threeParts (signedText c secretKey (unsignedText
          (teamPayload c secretKey team) (timestampBytes timestamp.toInt.toNat))) ∧
          invite.teamId = team.id ∧
            invite.teamVerification = teamVerification c secretKey team := by
  obtain ⟨payload, time, v, henvelope⟩ := verifyInviteEnvelopeAt_iff.mp h
  have hparts := @threeParts_signedText c secretKey payload time
  rw [← henvelope.text] at hparts
  obtain ⟨team, timestamp, code', hissued, hcode', payload', time', signature', hparts', hmessage,
    -⟩ := hunforged _ ⟨_, _, _, hparts, rfl, urlSafeNoPad.decode_encode _⟩
  obtain ⟨htime, rfl⟩ := inviteCodeAt_eq_ok.mp hcode'
  rw [trim_signedText, threeParts_signedText] at hparts'
  simp only [Option.some.injEq, Prod.mk.injEq] at hparts'
  obtain ⟨rfl, rfl, rfl⟩ := hparts'
  obtain ⟨rfl, rfl⟩ := unsigned_inj (asBytes_inj hmessage)
  obtain ⟨-, rfl, -, hstarted, hage⟩ := (envelope_team_iff hc htime henvelope.text).mp henvelope
  refine ⟨team, timestamp, hissued, htime, ⟨hstarted, by omega⟩, ?_, rfl, rfl⟩
  rw [henvelope.text]

/-! ## Stand-ins -/

/-- A reader of payloads as `toVec` writes them. -/
def readVec (bytes : List UInt8) : Option InvitePayload := do
  let text := (bytes.map fun x => Char.ofNat x.toNat).drop 6
  let id ← (String.ofList (text.takeWhile (· ≠ ','))).toInt?
  let v := ((text.dropWhile (· ≠ ',')).drop 6).dropLast.dropLast
  let payload : InvitePayload := ⟨.ofInt id, String.ofList v⟩
  if toVec payload.id payload.v = bytes then some payload else none

/-- The bytes of a text of ASCII are its characters. -/
theorem asBytes_of_graphic {text : String} (h : ∀ x ∈ text.toList, Graphic x) :
    (asBytes text).map (fun x => Char.ofNat x.toNat) = text.toList := by
  rw [asBytes, ← String.utf8Encode_toList]
  generalize text.toList = chars at h
  induction chars with
  | nil => rfl
  | cons x chars ih =>
      obtain ⟨hx, hchars⟩ := List.forall_mem_cons.mp h
      have hval : x.val.toNat < 256 := hx.2.trans_lt (by decide)
      have hchar : Char.ofNat (x.val.toUInt8).toNat = x := by
        rw [UInt32.toNat_toUInt8, Nat.mod_eq_of_lt hval]
        exact Char.ofNat_toNat x
      rw [List.utf8Encode_cons, List.utf8Encode_singleton, String.utf8EncodeChar_eq_singleton
        hx.utf8Size, ByteArray.data_append, Array.toList_append, List.map_append, ih hchars,
        List.data_toByteArray, List.map_singleton, hchar]
      rfl

/-- Stand-ins for the primitives. -/
def testPrimitives : Primitives where
  sha1 := id
  hmacSha1 key message := (key ++ message ++ List.replicate 20 0).take 20
  fromSlice := readVec

theorem readVec_toVec (id : Int32) (bytes : List UInt8) :
    readVec (toVec id (String.ofList (hexEncode bytes))) =
      some ⟨id, String.ofList (hexEncode bytes)⟩ := by
  have hchars := asBytes_of_graphic (payloadText_chars id bytes)
  have htext : ((toVec id (String.ofList (hexEncode bytes))).map fun x =>
      Char.ofNat x.toNat).drop 6 =
        (toString id).toList ++
          ',' :: ("\"v\":\"".toList ++ (hexEncode bytes ++ ['"', '\x7d'])) := by
    rw [toVec, hchars]
    simp only [String.toList_append, String.toList_ofList, List.append_assoc]
    rfl
  have hcomma : ∀ x ∈ (toString id).toList, decide (x ≠ ',') = true := by
    intro x hx
    rw [decide_eq_true_eq]
    rintro rfl
    rcases toString_chars id ',' hx with h | h <;> exact absurd h (by decide)
  have hid : (toString id).toInt? = some id.toInt := Int.toInt?_repr id.toInt
  have hnumber : (String.ofList (toString id).toList).toInt? = some id.toInt := by
    rw [String.ofList_toList, hid]
  have hv : ((',' :: ("\"v\":\"".toList ++
      (hexEncode bytes ++ ['"', '\x7d']))).drop 6).dropLast.dropLast = hexEncode bytes := by
    change (hexEncode bytes ++ (['"'] ++ ['\x7d'])).dropLast.dropLast = _
    rw [← List.append_assoc, List.dropLast_concat, List.dropLast_concat]
  rw [readVec, htext, List.takeWhile_append_of_pos hcomma, List.dropWhile_append_of_pos hcomma]
  rw [List.takeWhile_cons_of_neg (by decide), List.append_nil, hnumber,
    List.dropWhile_cons_of_neg (by decide), hv]
  change (if toVec (Int32.ofInt id.toInt) _ = _ then some (InvitePayload.mk (Int32.ofInt id.toInt) _)
    else none) = _
  rw [Int32.ofInt_toInt, if_pos rfl]

theorem testPrimitives_documented : testPrimitives.Documented := by
  refine ⟨?_, readVec_toVec⟩
  intro key message
  simp only [testPrimitives, List.length_take, List.length_append, List.length_replicate]
  omega

/-! ## Soundness and completeness -/

/-- **Team invites are sound and complete.**  A code that was issued is accepted for a day, by
a team that has a positive id and is as it was; every code that is accepted carries what was
issued to the team it names; and nothing panics. -/
theorem invites_agree (c : Primitives) (hc : c.Documented) (secretKey : String) :
    (∀ team timestamp, 0 ≤ timestamp.toInt → ∃ code,
      inviteCodeAt c secretKey team timestamp = .ok code ∧
        ∀ team' now id, Separates c secretKey team team' →
          (verifyInvite c secretKey team' code now = .ok id ↔ id = team.id ∧ 0 < team.id.toInt ∧
            (timestamp.toInt ≤ now.toInt ∧ now.toInt ≤ timestamp.toInt + 86400) ∧
              team'.id = team.id ∧ team'.password.getD "" = team.password.getD "")) ∧
    (∀ issued code now invite, Unforged c secretKey issued code →
      verifyInviteEnvelopeAt c secretKey code now = .ok invite →
        ∃ team timestamp, issued team timestamp ∧ 0 ≤ timestamp.toInt ∧
          (timestamp.toInt ≤ now.toInt ∧ now.toInt ≤ timestamp.toInt + 86400) ∧
            threeParts (trim code) = threeParts (signedText c secretKey (unsignedText
              (teamPayload c secretKey team) (timestampBytes timestamp.toInt.toNat))) ∧
              invite.teamId = team.id ∧
                invite.teamVerification = teamVerification c secretKey team) ∧
    ∀ team code now timestamp, Calm (verifyInvite c secretKey team code now) ∧
      Calm (inviteCodeAt c secretKey team timestamp) := by
  refine ⟨?_, ?_, ?_⟩
  · intro team timestamp htime
    obtain ⟨code, hcode⟩ := exists_inviteCodeAt c secretKey team htime
    exact ⟨code, hcode, fun team' now id h => verifyInvite_issued hc hcode h⟩
  · exact fun issued code now invite hunforged h => payload_issued hc hunforged h
  · exact fun team code now timestamp =>
      ⟨verifyInvite_calm c secretKey team code now, inviteCodeAt_calm c secretKey team timestamp⟩

/-- A code is accepted a minute after it was issued, but not a day and a second after. -/
theorem invites_agree_minute : ∃ code,
    inviteCodeAt testPrimitives "secret" ⟨7, some "hash"⟩ 1000 = .ok code ∧
      verifyInvite testPrimitives "secret" ⟨7, some "hash"⟩ code 1060 = .ok 7 ∧
        (∀ id, verifyInvite testPrimitives "secret" ⟨7, some "hash"⟩ code 87401 ≠ .ok id) ∧
          ∀ now invite, verifyInviteEnvelopeAt testPrimitives "secret" code now = .ok invite →
            invite.teamId = 7 := by
  obtain ⟨hissued, hpayload, -⟩ := invites_agree testPrimitives testPrimitives_documented "secret"
  obtain ⟨code, hcode, h⟩ := hissued ⟨7, some "hash"⟩ 1000 (by decide)
  have hsame := fun now id => h ⟨7, some "hash"⟩ now id fun _ => ⟨rfl, rfl⟩
  refine ⟨code, hcode, (hsame 1060 7).mpr ⟨rfl, by decide, by decide, rfl, rfl⟩, ?_, ?_⟩
  · intro id hid
    obtain ⟨-, -, hage, -⟩ := (hsame 87401 id).mp hid
    exact absurd hage (by decide)
  · intro now invite hinvite
    obtain ⟨team, timestamp, ⟨rfl, rfl⟩, -, -, -, hteam, -⟩ :=
      hpayload (fun team timestamp => team = ⟨7, some "hash"⟩ ∧ timestamp = 1000) code now invite
        (fun message hpresents => ⟨_, _, code, ⟨rfl, rfl⟩, hcode, hpresents⟩) hinvite
    exact hteam

/-- **Two exceptions.**  The code of a team whose id is not
positive is refused, and an empty password is as good as none. -/
theorem exceptional_teams :
    (∃ code, inviteCodeAt testPrimitives "secret" ⟨0, none⟩ 0 = .ok code ∧
      ∀ id, verifyInvite testPrimitives "secret" ⟨0, none⟩ code 0 ≠ .ok id) ∧
    ∃ code, inviteCodeAt testPrimitives "secret" ⟨7, none⟩ 0 = .ok code ∧
      verifyInvite testPrimitives "secret" ⟨7, some ""⟩ code 0 = .ok 7 := by
  have hzero : 0 ≤ (0 : Int64).toInt := by decide
  constructor
  · obtain ⟨code, hcode⟩ := exists_inviteCodeAt testPrimitives "secret" ⟨0, none⟩ hzero
    refine ⟨code, hcode, fun id hid => ?_⟩
    obtain ⟨-, hpositive, -⟩ :=
      (verifyInvite_issued testPrimitives_documented hcode fun _ => ⟨rfl, rfl⟩).mp hid
    exact absurd hpositive (by decide)
  · obtain ⟨code, hcode⟩ := exists_inviteCodeAt testPrimitives "secret" ⟨7, none⟩ hzero
    have hsame : Separates testPrimitives "secret" ⟨7, none⟩ ⟨7, some ""⟩ := by
      intro _
      rw [verificationSecret_eq, verificationSecret_eq]
      exact ⟨rfl, rfl⟩
    exact ⟨code, hcode, (verifyInvite_issued testPrimitives_documented hcode hsame).mpr
      ⟨rfl, by decide, by decide, rfl, rfl⟩⟩

end CtfZone.Invites
