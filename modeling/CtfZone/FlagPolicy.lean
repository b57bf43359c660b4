/-
# Flag definitions

`flag_policy.rs`: how a flag definition is normalised before it is saved, and
how the flag of a user is rendered and allocated when an instance is launched.
Texts are walked by character, with byte offsets where the code has them.

The regular expressions, the lower case of Unicode and the HMAC are those of
other crates and of the standard library (`Crates`).

* `renderFrom_utf8Length_le` : what rendering can add to a template;
* `Fitting` : a flag that fits into a deployment, and
  `materializeForLaunch_fitting` : every flag a launch assigns does.
-/
import CtfZone.RuntimeConfig

namespace CtfZone

open Journal

/-- What the flags rest on outside the repository. -/
structure Crates where
  /-- `RegexBuilder::new(pattern).case_insensitive(b)….build()`, and `is_match` -/
  regex : String → Bool → Option (String → Bool)
  /-- `str::to_lowercase` -/
  toLowercase : String → String
  /-- HMAC-SHA256 of a message under a key -/
  hmac : ByteArray → ByteArray → ByteArray

/-- Stand-ins for them, for runs on concrete input. -/
def plainCrates : Crates where
  regex := fun pattern _ => some (· == pattern)
  toLowercase := String.toLower
  hmac := fun key message => key ++ message

/-! ## Options -/

/-- `FlagPolicyData`. -/
structure FlagPolicyData where
  caseSensitive : Bool := true
  leetVariation : Bool := false
  acceptOtherUsers : Bool := false
  deriving DecidableEq

/-- A boolean field of an object, or its default. -/
def Json.boolField (name : String) (default : Bool) (value : Json) : Option Bool :=
  match value.field name with
  | none => some default
  | some (.bool b) => some b
  | some _ => none

/-- `serde_json::from_value::<FlagPolicyData>`.  `accept_shared_flags` is another
name of `accept_other_users`; a sequence gives the fields in order. -/
def FlagPolicyData.fromValue (value : Json) : Option FlagPolicyData :=
  match value with
  | .object fields =>
    let known := ["case_sensitive", "leet_variation", "accept_other_users", "accept_shared_flags"]
    if fields.all (fun p => known.contains p.1) &&
        ! ((value.field "accept_other_users").isSome &&
          (value.field "accept_shared_flags").isSome) then do
      let caseSensitive ← value.boolField "case_sensitive" true
      let leetVariation ← value.boolField "leet_variation" false
      let acceptOtherUsers ← value.boolField "accept_other_users" false
      let acceptSharedFlags ← value.boolField "accept_shared_flags" false
      pure ⟨caseSensitive, leetVariation, acceptOtherUsers || acceptSharedFlags⟩
    else none
  | .array [] => some {}
  | .array [.bool a] => some { caseSensitive := a }
  | .array [.bool a, .bool b] => some { caseSensitive := a, leetVariation := b }
  | .array [.bool a, .bool b, .bool c] => some ⟨a, b, c⟩
  | _ => none

/-- `serde_json::to_value` of the options. -/
def FlagPolicyData.toValue (policy : FlagPolicyData) : Json :=
  .object [("case_sensitive", .bool policy.caseSensitive),
    ("leet_variation", .bool policy.leetVariation),
    ("accept_other_users", .bool policy.acceptOtherUsers)]

/-- `parse_policy`. -/
def parsePolicy : Json → Except String FlagPolicyData
  | .null => .ok {}
  | value =>
    match FlagPolicyData.fromValue value with
    | some policy => .ok policy
    | none => .error "Flag options are invalid"

/-- The options a definition is saved with are read back as they were. -/
theorem FlagPolicyData.fromValue_toValue (policy : FlagPolicyData) :
    FlagPolicyData.fromValue policy.toValue = some policy := by
  obtain ⟨a, b, c⟩ := policy
  cases c <;> rfl

/-! ## Templates -/

/-- `RANDOM_TOKEN_PLACEHOLDER`. -/
def randomTokenPlaceholder : List Char := "\x7b\x7bRANDOM_TOKEN\x7d\x7d".toList

/-- The size of a text in UTF-8. -/
def utf8Length (text : List Char) : ℕ := (text.map Char.utf8Size).sum

/-- `char_indices`, from the byte offset `i` on. -/
def charIndices : ℕ → List Char → List (ℕ × Char)
  | _, [] => []
  | i, c :: text => (i, c) :: charIndices (i + c.utf8Size) text

/-- `match_indices`: the byte offsets of the placeholders, from the offset `i`
on; `skip` characters of the last one are still to come. -/
def tokenIndices : ℕ → ℕ → List Char → List ℕ
  | _, _, [] => []
  | i, skip + 1, c :: text => tokenIndices (i + c.utf8Size) skip text
  | i, 0, c :: text =>
    if randomTokenPlaceholder.isPrefixOf (c :: text) then
      i :: tokenIndices (i + c.utf8Size) (randomTokenPlaceholder.length - 1) text
    else tokenIndices (i + c.utf8Size) 0 text

/-- `replace` of the placeholders by nothing. -/
def withoutTokens : ℕ → List Char → List Char
  | _, [] => []
  | skip + 1, _ :: text => withoutTokens skip text
  | 0, c :: text =>
    if randomTokenPlaceholder.isPrefixOf (c :: text) then
      withoutTokens (randomTokenPlaceholder.length - 1) text
    else c :: withoutTokens 0 text

/-- `inside_random_token`. -/
def insideRandomToken (template : List Char) (index : ℕ) : Bool :=
  (tokenIndices 0 0 template).any fun start =>
    start ≤ index && index < start + randomTokenPlaceholder.length

/-- `leet_scope`: the range between the outer braces, or the whole template. -/
def leetScope (template : List Char) : ℕ × ℕ :=
  let outside := (charIndices 0 template).filter fun p => ! insideRandomToken template p.1
  let opening := (outside.find? (·.2 = '\x7b')).map Prod.fst
  let closing := (outside.reverse.find? (·.2 = '\x7d')).map Prod.fst
  match opening, closing with
  | some left, some right => if left < right then (left + 1, right) else (0, utf8Length template)
  | _, _ => (0, utf8Length template)

/-- An offset lies in a range. -/
def inRange (range : ℕ × ℕ) (index : ℕ) : Bool := range.1 ≤ index && index < range.2

/-- `leet_replacement`. -/
def leetReplacement : Char → Option Char
  | 'a' | 'A' => some '4'
  | 'e' | 'E' => some '3'
  | 'i' | 'I' => some '1'
  | 'o' | 'O' => some '0'
  | 's' | 'S' => some '5'
  | 't' | 'T' => some '7'
  | _ => none

/-- `leet_positions`. -/
def leetPositions (template : List Char) : List ℕ :=
  ((charIndices 0 template).filter fun p =>
    inRange (leetScope template) p.1 && ! insideRandomToken template p.1 &&
      (leetReplacement p.2).isSome).map Prod.fst

/-- The loop of `render_generated_flag` at the byte `cursor`, after `leetIndex`
replaceable letters; `skip` characters of a placeholder are still to pass. -/
def renderFrom (scope : ℕ × ℕ) (token : Option (List Char)) (mask : Option ℕ) :
    ℕ → ℕ → ℕ → List Char → List Char
  | _, _, _, [] => []
  | cursor, skip + 1, leetIndex, c :: text =>
    renderFrom scope token mask (cursor + c.utf8Size) skip leetIndex text
  | cursor, 0, leetIndex, c :: text =>
    if randomTokenPlaceholder.isPrefixOf (c :: text) then
      token.getD randomTokenPlaceholder ++
        renderFrom scope token mask (cursor + c.utf8Size) (randomTokenPlaceholder.length - 1)
          leetIndex text
    else
      match (if inRange scope cursor then leetReplacement c else none) with
      | some replacement =>
        (if mask.any (·.testBit leetIndex) then replacement else c) ::
          renderFrom scope token mask (cursor + c.utf8Size) 0 (leetIndex + 1) text
      | none => c :: renderFrom scope token mask (cursor + c.utf8Size) 0 leetIndex text

attribute [simp] tokenIndices renderFrom

/-- A digit of a UUID. -/
def hexDigit (n : ℕ) : Char := "0123456789abcdef".toList.getD n '0'

/-- The digits of a UUID from `first` on. -/
def uuidGroup (uuid : BitVec 128) (first count : ℕ) : List Char :=
  (List.range count).map fun i => hexDigit (uuid.toNat / 16 ^ (31 - (first + i)) % 16)

/-- The text of a UUID: 32 digits in groups of 8, 4, 4, 4 and 12. -/
def uuidText (uuid : BitVec 128) : List Char :=
  uuidGroup uuid 0 8 ++ '-' :: uuidGroup uuid 8 4 ++ '-' :: uuidGroup uuid 12 4 ++
    '-' :: uuidGroup uuid 16 4 ++ '-' :: uuidGroup uuid 20 12

/-- `render_generated_flag`. -/
def renderGeneratedFlag (template : List Char) (token : Option (BitVec 128)) (mask : Option ℕ) :
    List Char :=
  renderFrom (leetScope template) (token.map uuidText) mask 0 0 0 template

/-! ## Definitions -/

/-- `MAX_FLAG_BYTES`. -/
def maxFlagBytes : ℕ := 512

/-- `MAX_REGEX_BYTES`. -/
def maxRegexBytes : ℕ := 512

/-- `MAX_LEET_POSITIONS`. -/
def maxLeetPositions : ℕ := 62

/-- `char::is_control`. -/
def isControl (c : Char) : Bool := c.toNat < 32 || (127 ≤ c.toNat && c.toNat ≤ 159)

/-- `compile_regex`. -/
def compileRegex (crates : Crates) (pattern : String) (caseSensitive : Bool) :
    Except String (String → Bool) :=
  if maxRegexBytes < pattern.utf8ByteSize then .error "Regex flag is too long"
  else
    match crates.regex ("^(?:" ++ pattern ++ ")$") (! caseSensitive) with
    | some isMatch => .ok isMatch
    | none => .error "Regex flag is invalid"

/-- The checks of static flags, and of regular expressions before they are
compiled; `options` is the text that names their kind. -/
def checkShared (content : List Char) (policy : FlagPolicyData) (options : String) :
    Except String Unit := do
  ensure ((tokenIndices 0 0 content).isEmpty) "RANDOM_TOKEN is available only for generated flags"
  ensure (! (policy.leetVariation || policy.acceptOtherUsers)) options

/-- The checks of generated flags. -/
def checkGenerated (content : List Char) (policy : FlagPolicyData) (exposure : String) :
    Except String Unit := do
  ensure (exposure = "private") "Generated flags require a private challenge"
  let placeholders := (tokenIndices 0 0 content).length
  ensure (placeholders ≤ 1) "A generated flag may contain RANDOM_TOKEN only once"
  let renderedBytes := utf8Length content +
    placeholders * ((uuidText 0).length - randomTokenPlaceholder.length)
  ensure (renderedBytes ≤ maxFlagBytes) "The rendered generated flag exceeds 512 bytes"
  let withoutSupported := withoutTokens 0 content
  ensure (! (['\x7b', '\x7b'] <:+: withoutSupported ∨ ['\x7d', '\x7d'] <:+: withoutSupported))
    "The generated flag contains an unsupported placeholder"
  let positions := leetPositions content
  ensure (! (policy.leetVariation && positions.isEmpty))
    "Leet variation requires at least one replaceable letter"
  ensure (! (policy.leetVariation && maxLeetPositions < positions.length))
    "The flag has too many letters for leet variation"
  ensure (! (placeholders = 0 && ! policy.leetVariation))
    "A generated flag requires RANDOM_TOKEN or leet variation"

/-- The checks of a definition of each type. -/
def checkDefinition (crates : Crates) (flagType content : String) (policy : FlagPolicyData)
    (exposure : String) : Except String Unit :=
  match flagType with
  | "static" => checkShared content.toList policy "Static flags do not support per-user options"
  | "regex" => do
    checkShared content.toList policy "Regex flags do not support per-user options"
    let _ ← compileRegex crates content policy.caseSensitive
    pure ⟨⟩
  | _ => checkGenerated content.toList policy exposure

/-- `normalize_definition`. -/
def normalizeDefinition (crates : Crates) (flagType content : String) (data : Json)
    (exposure : String) : Except String (String × String × Json) := do
  let flagType := (trim flagType).toLower
  let content := trim content
  ensure (content ≠ "" && content.utf8ByteSize ≤ maxFlagBytes && ! content.toList.any isControl)
    "Flag content is invalid"
  ensure (["static", "regex", "generated"].contains flagType) "Flag type is invalid"
  let policy ← parsePolicy data
  checkDefinition crates flagType content policy exposure
  pure (flagType, content, policy.toValue)

/-- `StoredFlag`, with the challenge it belongs to. -/
structure StoredFlag where
  id : ℤ
  challengeId : ℤ
  flagType : String
  content : String
  data : Json
  revision : ℤ

/-- A row of `flags`: every write of the table goes through
`normalize_definition`. -/
structure SavedFlag (crates : Crates) extends StoredFlag where
  normalized : ∃ (type text : String) (options : Json) (exposure : String),
    normalizeDefinition crates type text options exposure = .ok (flagType, content, data)

/-- A generated flag is accepted for private challenges only. -/
theorem normalizeDefinition_private {crates : Crates} {type text content exposure : String}
    {options data : Json}
    (h : normalizeDefinition crates type text options exposure =
      .ok ("generated", content, data)) : exposure = "private" := by
  simp only [normalizeDefinition, bind_eq_ok, pure, Except.pure] at h
  obtain ⟨_, -, _, -, policy, -, _, hcheck, heq⟩ := h
  have htype : (trim type).toLower = "generated" := congrArg Prod.fst (Except.ok.inj heq)
  rw [htype] at hcheck
  change checkGenerated (trim text).toList policy exposure = _ at hcheck
  obtain ⟨_, hexposure, -⟩ := bind_eq_ok.mp hcheck
  exact of_decide_eq_true (ensure_eq_ok.mp hexposure)

/-- **A saved definition is accepted again as it is**, for a private challenge if it is
generated. -/
theorem SavedFlag.accepted {crates : Crates} (flag : SavedFlag crates) {exposure : String}
    (hprivate : flag.flagType = "generated" → exposure = "private") :
    normalizeDefinition crates flag.flagType flag.content flag.data exposure =
      .ok (flag.flagType, flag.content, flag.data) := by
  obtain ⟨type, text, options, saved, hnormalized⟩ := flag.normalized
  have hsaved : flag.flagType = "generated" → saved = exposure := by
    intro htype
    rw [htype] at hnormalized
    rw [normalizeDefinition_private hnormalized, hprivate htype]
  simp only [normalizeDefinition, bind_eq_ok, ensure_eq_ok, pure, Except.pure,
    Except.ok.injEq, Prod.mk.injEq] at hnormalized
  obtain ⟨_, hcontent, _, htype, policy, -, _, hcheck, hflagType, hflagContent, hdata⟩ :=
    hnormalized
  rw [hflagType] at htype hcheck
  rw [hflagContent] at hcontent hcheck
  have htrim : trim flag.content = flag.content := by
    rw [← hflagContent, trim_trim]
  have hpolicy : parsePolicy flag.data = .ok policy := by
    have hread := FlagPolicyData.fromValue_toValue policy
    rw [FlagPolicyData.toValue] at hread
    rw [← hdata, FlagPolicyData.toValue, parsePolicy, hread]
    intro h
    cases h
  have hagain : (trim flag.flagType).toLower = flag.flagType ∧
      checkDefinition crates flag.flagType flag.content policy exposure = .ok ⟨⟩ := by
    simp only [List.contains_cons, List.contains_nil, Bool.or_false, Bool.or_eq_true,
      beq_iff_eq] at htype
    rcases htype with h | h | h
    · rw [h] at hcheck ⊢
      exact ⟨by decide +kernel, hcheck⟩
    · rw [h] at hcheck ⊢
      exact ⟨by decide +kernel, hcheck⟩
    · rw [hsaved h] at hcheck
      exact ⟨by rw [h]; decide +kernel, hcheck⟩
  simp only [normalizeDefinition, bind_eq_ok, ensure_eq_ok, pure, Except.pure]
  rw [htrim, hagain.1]
  exact ⟨⟨⟩, hcontent, ⟨⟩, htype, policy, hpolicy, ⟨⟩, hagain.2, by rw [hdata]⟩

/-! ## Allocation -/

/-- A row of `user_challenge_flags`. -/
structure UserChallengeFlag where
  flagId : ℤ
  challengeId : ℤ
  userId : ℤ
  definitionRevision : ℤ
  matchTag : ByteArray
  randomToken : Option (BitVec 128)
  leetMask : Option ℕ

/-- The bytes of a 32-bit number, the highest first. -/
def beBytes (n : ℤ) : ByteArray :=
  let word := BitVec.ofInt 32 n
  ⟨#[24, 16, 8, 0].map fun shift => UInt8.ofNat (word.toNat / 2 ^ shift)⟩

/-- `match_tag`. -/
def matchTag (crates : Crates) (secretKey : String) (challengeId : ℤ) (flag : String)
    (caseSensitive : Bool) : ByteArray :=
  let normalized := if caseSensitive then flag else crates.toLowercase flag
  crates.hmac secretKey.toUTF8
    ("ctfzone/generated-flag-match/v1".toUTF8 ++ beBytes challengeId ++ normalized.toUTF8)

/-- What is drawn for a new allocation. -/
structure Draws where
  mask : ℕ
  token : BitVec 128

/-- `next_available_leet_mask`. -/
def nextAvailableLeetMask (rows : List UserChallengeFlag) (flag : StoredFlag) :
    Except String ℕ :=
  let capacity := 2 ^ (leetPositions flag.content.toList).length - 1
  let assigned := rows.filter (·.flagId = flag.id)
  if capacity ≤ assigned.length then
    .error "The leet variation space for this challenge is exhausted"
  else
    let candidates := (List.range (min capacity (assigned.length + 1))).map (· + 1)
    match candidates.find? fun candidate => ! assigned.any (·.leetMask = some candidate) with
    | some candidate => .ok candidate
    | none => .error "no rows returned by a query that expected to return at least one row"

/-- The leet mask of a new allocation. -/
def drawLeetMask (rows : List UserChallengeFlag) (flag : StoredFlag) (policy : FlagPolicyData)
    (hasToken : Bool) (draws : Draws) : Except String (Option ℕ) :=
  if policy.leetVariation && ! hasToken then (nextAvailableLeetMask rows flag).map some
  else if policy.leetVariation then
    .ok (some (draws.mask % (2 ^ (leetPositions flag.content.toList).length - 1) + 1))
  else .ok none

/-- `materialize_flag`: the flag, and the rows after it. -/
def materializeFlag (crates : Crates) (rows : List UserChallengeFlag) (challengeId userId : ℤ)
    (flag : StoredFlag) (secretKey : String) (draws : Draws) :
    Except String (String × List UserChallengeFlag) :=
  let template := flag.content.toList
  match rows.find? fun row => row.flagId = flag.id && row.userId = userId with
  | some row =>
    if row.definitionRevision ≠ flag.revision then
      .error "The generated flag definition changed after allocation"
    else .ok (.ofList (renderGeneratedFlag template row.randomToken row.leetMask), rows)
  | none => do
    let policy ← parsePolicy flag.data
    let hasToken := ! (tokenIndices 0 0 template).isEmpty
    let leetMask ← drawLeetMask rows flag policy hasToken draws
    let randomToken := if hasToken then some draws.token else none
    let rendered := String.ofList (renderGeneratedFlag template randomToken leetMask)
    let tag := matchTag crates secretKey challengeId rendered policy.caseSensitive
    ensure (! rows.any fun row => row.challengeId = challengeId &&
        @decide (row.matchTag = tag) (ByteArray.instDecidableEq _ _))
      "A unique flag could not be allocated; review the flag template"
    pure (rendered,
      ⟨flag.id, challengeId, userId, flag.revision, tag, randomToken, leetMask⟩ :: rows)

/-- `materialize_for_launch`; the flags are in the order of their ids. -/
def materializeForLaunch (crates : Crates) (flags : List (SavedFlag crates))
    (rows : List UserChallengeFlag) (challengeId userId : ℤ) (secretKey : String)
    (draws : Draws) : Except String (Option String × List UserChallengeFlag) :=
  match flags.find? fun flag => flag.challengeId = challengeId && flag.flagType = "generated" with
  | none => .ok (none, rows)
  | some flag =>
    (materializeFlag crates rows challengeId userId flag.toStoredFlag secretKey draws).map
      fun (rendered, rows) => (some rendered, rows)

/-! ## What a flag can look like -/

@[simp] theorem utf8Length_nil : utf8Length [] = 0 := rfl

@[simp] theorem utf8Length_cons (c : Char) (text : List Char) :
    utf8Length (c :: text) = c.utf8Size + utf8Length text := by
  simp [utf8Length]

@[simp] theorem utf8Length_append (text text' : List Char) :
    utf8Length (text ++ text') = utf8Length text + utf8Length text' := by
  simp [utf8Length]

theorem length_le_utf8Length (text : List Char) : text.length ≤ utf8Length text := by
  induction text with
  | nil => exact Nat.le_refl 0
  | cons c text ih =>
      have := Char.utf8Size_pos c
      rw [List.length_cons, utf8Length_cons]
      omega

/-- The size of a string is the size of its characters. -/
theorem utf8ByteSize_ofList (text : List Char) :
    (String.ofList text).utf8ByteSize = utf8Length text := by
  induction text with
  | nil => rfl
  | cons c text ih =>
      rw [← List.singleton_append, String.ofList_append, String.utf8ByteSize_append, ih,
        utf8Length_append]
      exact congrArg (· + utf8Length text) (String.utf8ByteSize_singleton (c := c))

theorem utf8ByteSize_eq (s : String) : s.utf8ByteSize = utf8Length s.toList := by
  conv_lhs => rw [← String.ofList_toList (s := s)]
  exact utf8ByteSize_ofList s.toList

/-- The characters of the text of a UUID. -/
def uuidChars : List Char := "0123456789abcdef-".toList

theorem hexDigit_mem (n : ℕ) : hexDigit n ∈ uuidChars := by
  rw [hexDigit, List.getD_eq_getElem?_getD]
  cases h : "0123456789abcdef".toList[n]? with
  | none => decide
  | some c =>
      have hmem : c ∈ "0123456789abcdef".toList := List.mem_of_getElem? h
      exact List.mem_append_left ['-'] hmem

theorem uuidGroup_mem {uuid : BitVec 128} {first count : ℕ} :
    ∀ c ∈ uuidGroup uuid first count, c ∈ uuidChars := by
  intro c hc
  obtain ⟨i, -, rfl⟩ := List.mem_map.mp hc
  exact hexDigit_mem _

theorem uuidText_mem {uuid : BitVec 128} : ∀ c ∈ uuidText uuid, c ∈ uuidChars := by
  have hdash : '-' ∈ uuidChars := by decide
  simp only [uuidText, List.forall_mem_append, List.forall_mem_cons]
  simp only [hdash, true_and]
  refine ⟨⟨⟨⟨?_, ?_⟩, ?_⟩, ?_⟩, ?_⟩ <;> exact uuidGroup_mem

theorem uuidText_length (uuid : BitVec 128) : (uuidText uuid).length = 36 := by
  simp [uuidText, uuidGroup]

/-- A text of characters of one byte has the size of its length. -/
theorem utf8Length_of_forall {text : List Char} (h : ∀ c ∈ text, c.utf8Size = 1) :
    utf8Length text = text.length := by
  induction text with
  | nil => rfl
  | cons c text ih =>
      obtain ⟨hc, htext⟩ := List.forall_mem_cons.mp h
      rw [utf8Length_cons, hc, ih htext, List.length_cons, Nat.add_comm]

/-- The characters of a UUID take one byte each, and none is a NUL. -/
theorem uuidChars_plain {c : Char} (h : c ∈ uuidChars) : c.utf8Size = 1 ∧ c ≠ '\x00' := by
  have hall : uuidChars.all (fun c => c.utf8Size = 1 && c ≠ '\x00') = true := by decide
  simpa using List.all_eq_true.mp hall c h

theorem utf8Length_uuidText (uuid : BitVec 128) : utf8Length (uuidText uuid) = 36 := by
  rw [utf8Length_of_forall fun c hc => (uuidChars_plain (uuidText_mem c hc)).1, uuidText_length]

theorem utf8Length_placeholder : utf8Length randomTokenPlaceholder = 16 := by decide

/-- A letter and its replacement have one byte each. -/
theorem leetReplacement_utf8Size {c r : Char} (h : leetReplacement c = some r) :
    c.utf8Size = 1 ∧ r.utf8Size = 1 ∧ r ≠ '\x00' := by
  unfold leetReplacement at h
  split at h <;> first | (obtain rfl := Option.some.inj h; decide) | cases h

/-- Rendering adds at most 20 bytes for each placeholder. -/
theorem renderFrom_utf8Length_le {scope : ℕ × ℕ} {token : Option (BitVec 128)}
    {mask : Option ℕ} (text : List Char) (cursor skip leetIndex i : ℕ) :
    utf8Length (renderFrom scope (token.map uuidText) mask cursor skip leetIndex text) ≤
      utf8Length (text.drop skip) + 20 * (tokenIndices i skip text).length := by
  induction text generalizing cursor skip leetIndex i with
  | nil => simp [renderFrom]
  | cons c text ih =>
      cases skip with
      | succ skip =>
          simp only [renderFrom, tokenIndices, List.drop_succ_cons]
          exact ih _ _ _ _
      | zero =>
          simp only [renderFrom, tokenIndices, List.drop_zero]
          split
          · rename_i hopens
            have htoken : utf8Length ((token.map uuidText).getD randomTokenPlaceholder) ≤ 36 := by
              cases token with
              | none => simp [utf8Length_placeholder]
              | some uuid => simp [utf8Length_uuidText]
            have hlength : utf8Length (c :: text) =
                16 + utf8Length (text.drop (randomTokenPlaceholder.length - 1)) := by
              obtain ⟨rest, hrest⟩ := List.isPrefixOf_iff_prefix.mp hopens
              have hdrop : text.drop (randomTokenPlaceholder.length - 1) = rest := by
                have := congrArg (List.drop randomTokenPlaceholder.length) hrest
                rw [List.drop_left] at this
                exact this.symm
              rw [hdrop, ← hrest, utf8Length_append, utf8Length_placeholder]
            have hrest := ih (cursor + c.utf8Size) (randomTokenPlaceholder.length - 1) leetIndex
              (i + c.utf8Size)
            rw [utf8Length_append, List.length_cons]
            omega
          · split
            · rename_i replacement hreplacement
              have hsize : ∀ b : Bool, (if b then replacement else c).utf8Size = c.utf8Size := by
                have := leetReplacement_utf8Size (c := c) (r := replacement)
                  (by split at hreplacement <;> simp_all)
                intro b
                cases b <;> simp [this.1, this.2.1]
              have hrest := ih (cursor + c.utf8Size) 0 (leetIndex + 1) (i + c.utf8Size)
              rw [utf8Length_cons, utf8Length_cons, hsize]
              simp only [List.drop_zero] at hrest
              omega
            · have hrest := ih (cursor + c.utf8Size) 0 leetIndex (i + c.utf8Size)
              rw [utf8Length_cons, utf8Length_cons]
              simp only [List.drop_zero] at hrest
              omega

theorem renderFrom_ne_nil {scope : ℕ × ℕ} {token : Option (BitVec 128)} {mask : Option ℕ}
    {c : Char} {text : List Char} {cursor leetIndex : ℕ} :
    renderFrom scope (token.map uuidText) mask cursor 0 leetIndex (c :: text) ≠ [] := by
  rw [renderFrom]
  split
  · refine List.append_ne_nil_of_left_ne_nil ?_ _
    cases token with
    | none => decide
    | some uuid => exact List.ne_nil_of_length_pos (uuidText_length uuid ▸ Nat.succ_pos 35)
  · split <;> exact List.cons_ne_nil _ _

/-- A rendered flag has no NUL if its template has none. -/
theorem renderFrom_ne_nul {scope : ℕ × ℕ} {token : Option (BitVec 128)} {mask : Option ℕ}
    {text : List Char} (h : ∀ c ∈ text, c ≠ '\x00') (cursor skip leetIndex : ℕ) :
    ∀ c ∈ renderFrom scope (token.map uuidText) mask cursor skip leetIndex text, c ≠ '\x00' := by
  induction text generalizing cursor skip leetIndex with
  | nil => simp [renderFrom]
  | cons c text ih =>
      obtain ⟨hc, htext⟩ := List.forall_mem_cons.mp h
      cases skip with
      | succ skip =>
          simp only [renderFrom]
          exact ih htext _ _ _
      | zero =>
          simp only [renderFrom]
          split
          · refine List.forall_mem_append.mpr ⟨?_, ih htext _ _ _⟩
            cases token with
            | none =>
                have hall : randomTokenPlaceholder.all (· ≠ '\x00') = true := by decide
                intro c hc
                simpa using List.all_eq_true.mp hall c hc
            | some uuid => exact fun c hc => (uuidChars_plain (uuidText_mem c hc)).2
          · split
            · rename_i replacement hreplacement
              refine List.forall_mem_cons.mpr ⟨?_, ih htext _ _ _⟩
              have := leetReplacement_utf8Size (c := c) (r := replacement)
                (by split at hreplacement <;> simp_all)
              split
              · exact this.2.2
              · exact hc
            · exact List.forall_mem_cons.mpr ⟨hc, ih htext _ _ _⟩

/-- A flag that fits into a deployment: not empty, at most 512 bytes, no NUL. -/
structure Fitting (flag : String) : Prop where
  nonempty : flag ≠ ""
  size : flag.utf8ByteSize ≤ 512
  noNul : flag.toList.contains '\x00' = false

/-- What `normalize_definition` has checked of a generated flag. -/
theorem normalizeDefinition_generated {crates : Crates} {type text content exposure : String}
    {options data : Json}
    (h : normalizeDefinition crates type text options exposure =
      .ok ("generated", content, data)) :
    content ≠ "" ∧ (∀ c ∈ content.toList, c ≠ '\x00') ∧
      utf8Length content.toList + 20 * (tokenIndices 0 0 content.toList).length ≤ 512 := by
  simp only [normalizeDefinition, bind_eq_ok, ensure_eq_ok, pure, Except.pure] at h
  obtain ⟨_, hcontent, _, -, policy, -, _, hcheck, heq⟩ := h
  simp only [Except.ok.injEq, Prod.mk.injEq] at heq
  obtain ⟨htype, rfl, -⟩ := heq
  simp only [Bool.and_eq_true, decide_eq_true_eq, Bool.not_eq_true', List.any_eq_false] at hcontent
  rw [htype] at hcheck
  change checkGenerated (trim text).toList policy exposure = _ at hcheck
  simp only [checkGenerated, bind_eq_ok, ensure_eq_ok, decide_eq_true_eq] at hcheck
  obtain ⟨_, -, _, -, _, hrendered, -⟩ := hcheck
  refine ⟨hcontent.1.1, fun c hc hnul => hcontent.2 c hc (hnul ▸ rfl), ?_⟩
  have htoken : randomTokenPlaceholder.length = 16 := rfl
  simp only [uuidText_length, htoken, maxFlagBytes] at hrendered
  omega

/-- Every rendering of a saved generated flag fits. -/
theorem renderGeneratedFlag_fitting {crates : Crates} (flag : SavedFlag crates)
    (htype : flag.flagType = "generated") (token : Option (BitVec 128)) (mask : Option ℕ) :
    Fitting (.ofList (renderGeneratedFlag flag.content.toList token mask)) := by
  obtain ⟨type, text, options, exposure, hnormalized⟩ := flag.normalized
  rw [htype] at hnormalized
  obtain ⟨hne, hnul, hsize⟩ := normalizeDefinition_generated hnormalized
  refine ⟨?_, ?_, ?_⟩
  · cases hlist : flag.content.toList with
    | nil => exact absurd (String.toList_eq_nil_iff.mp hlist) hne
    | cons c cs =>
        rw [Ne, ← String.toList_inj, String.toList_ofList]
        exact renderFrom_ne_nil
  · rw [utf8ByteSize_ofList]
    exact (renderFrom_utf8Length_le flag.content.toList 0 0 0 0).trans hsize
  · rw [String.toList_ofList, List.contains_eq_mem, decide_eq_false_iff_not]
    exact fun hmem => renderFrom_ne_nul hnul 0 0 0 _ hmem rfl

/-- Every flag that a launch assigns fits. -/
theorem materializeForLaunch_fitting {crates : Crates} {flags : List (SavedFlag crates)}
    {rows rows' : List UserChallengeFlag} {challengeId userId : ℤ} {secretKey flag : String}
    {draws : Draws}
    (h : materializeForLaunch crates flags rows challengeId userId secretKey draws =
      .ok (some flag, rows')) : Fitting flag := by
  unfold materializeForLaunch at h
  split at h
  · cases h
  · rename_i saved hfind
    have htype : saved.flagType = "generated" := by
      have hboth := List.find?_some hfind
      simp only [Bool.and_eq_true, decide_eq_true_eq] at hboth
      exact hboth.2
    obtain ⟨⟨rendered, rows''⟩, hmaterialized, heq⟩ : ∃ x,
        materializeFlag crates rows challengeId userId saved.toStoredFlag secretKey draws = .ok x ∧
          (some x.1, x.2) = (some flag, rows') := by
      cases hm : materializeFlag crates rows challengeId userId saved.toStoredFlag secretKey draws
      all_goals rw [hm] at h
      · cases h
      · exact ⟨_, rfl, Except.ok.inj h⟩
    obtain rfl : rendered = flag := Option.some.inj (Prod.ext_iff.mp heq).1
    unfold materializeFlag at hmaterialized
    split at hmaterialized
    · split at hmaterialized
      · cases hmaterialized
      · obtain ⟨rfl, -⟩ := Prod.ext_iff.mp (Except.ok.inj hmaterialized)
        exact renderGeneratedFlag_fitting saved htype _ _
    · simp only [bind_eq_ok, ensure_eq_ok, pure, Except.pure] at hmaterialized
      obtain ⟨_, -, mask, -, -, -, heq⟩ := hmaterialized
      obtain ⟨rfl, -⟩ := Prod.ext_iff.mp (Except.ok.inj heq)
      exact renderGeneratedFlag_fitting saved htype _ _

end CtfZone
