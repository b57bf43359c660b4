/-
# The operation journal

`journal.rs`: one JSON object per line, appended and synced before and after
each remote operation, replayed into the latest unacknowledged record of each
command, and compacted to that by an atomic rename.

`serde_json` is a parameter (`Codec`): it turns a record into the characters of
a line and back.  The file is a byte array, written as the UTF-8 encoding of
these characters, and `read_to_string` fails on a byte array that is not valid
UTF-8.
-/
import Mathlib.Data.List.AList
import Mathlib.Data.List.Sort
import CtfZone.Basic

namespace CtfZone

/-! ## Records -/

/-- A JSON value of the controller. -/
inductive Json
  | null
  | bool (b : Bool)
  | number (text : String)
  | string (s : String)
  | array (items : List Json)
  | object (fields : List (String × Json))

namespace Journal

/-- `RemoteOperation`. -/
inductive RemoteOperation
  | ensureInstance | inspectInstance | stopInstance | updateDeadline
  deriving DecidableEq

/-- `JournalPhase`. -/
inductive JournalPhase
  | intent | remoteResult | databaseAcknowledged | degradedCleanup
  deriving DecidableEq

/-- `RemoteServer`. -/
structure RemoteServer where
  id : Uuid
  name : String
  hostname : String
  sshPort : ℤ
  sshUser : String
  helperPath : String
  identityFile : Option String
  hostKeyAlias : Option String
  pool : Option String
  capacity : ℤ

/-- `RemoteResult`. -/
structure RemoteResult where
  containerId : Option String
  remoteIp : Option String
  containerPort : Option ℤ
  publishedIp : Option String
  publishedPort : Option ℤ
  protocol : Option String
  publicHostname : Option String
  endpointUrl : Option String
  effectiveExpiresAt : Option Time
  absent : Option Bool
  ready : Option Bool
  runtimeStatus : Option String
  healthStatus : Option String
  staleGeneration : Option Bool
  effectiveGeneration : Option ℤ

/-- `JournalRecord`. -/
structure JournalRecord where
  instanceId : Uuid
  commandId : Uuid
  generation : ℤ
  settingRevision : ℤ
  challengeRuntimeRevision : ℤ
  operation : RemoteOperation
  phase : JournalPhase
  remoteServer : Option RemoteServer
  effectiveExpiresAt : Time
  remoteResult : Option RemoteResult
  payload : Option Json
  updatedAt : Time

/-- The key under which records are replayed. -/
abbrev Key := Uuid × Uuid

/-- `(record.instance_id, record.command_id)`. -/
def JournalRecord.key (record : JournalRecord) : Key := (record.instanceId, record.commandId)

/-- The value `redact_payload` puts in the place of a flag. -/
def redactedFlagValue : Json := .string "[redacted]"

/-- The field of a JSON object with the given name is replaced, if it is there.
The names of a JSON object are distinct. -/
def Json.alter (name : String) (f : Json → Json) : Json → Json
  | .object fields => .object (fields.map fun p => if p.1 = name then (p.1, f p.2) else p)
  | value => value

/-- `redact_payload`. -/
def redactPayload (payload : Json) : Json :=
  Json.alter "deployment" (Json.alter "flag_value" fun _ => redactedFlagValue) payload

/-- The record as `append_locked` persists it, and as replay returns it. -/
def JournalRecord.persisted (record : JournalRecord) : JournalRecord :=
  { record with payload := record.payload.map redactPayload }

theorem Json.alter_alter {name : String} {f : Json → Json} (hf : ∀ v, f (f v) = f v)
    (value : Json) : Json.alter name f (Json.alter name f value) = Json.alter name f value := by
  cases value with
  | object fields =>
      simp only [Json.alter, List.map_map, Json.object.injEq]
      refine List.map_congr_left fun p _ => ?_
      by_cases h : p.1 = name <;> simp [h, hf]
  | null | bool | number | string | array => rfl

/-- Redacting twice is redacting once. -/
@[simp] theorem redactPayload_redactPayload (payload : Json) :
    redactPayload (redactPayload payload) = redactPayload payload :=
  Json.alter_alter (f := Json.alter "flag_value" fun _ => redactedFlagValue)
    (Json.alter_alter fun _ => rfl) payload

@[simp] theorem JournalRecord.persisted_persisted (record : JournalRecord) :
    record.persisted.persisted = record.persisted := by
  simp [JournalRecord.persisted, Function.comp_def]

@[simp] theorem JournalRecord.persisted_key (record : JournalRecord) :
    record.persisted.key = record.key := rfl

@[simp] theorem JournalRecord.persisted_phase (record : JournalRecord) :
    record.persisted.phase = record.phase := rfl

/-! ## Lines -/

/-- `serde_json::to_vec` and `serde_json::from_str` for records. -/
structure Codec where
  encode : JournalRecord → List Char
  decode : List Char → Option JournalRecord

/-- What is documented of `serde_json` for a record: the compact text is an
object that reads back as the record, without control characters, and no part of
it that stops early is JSON. -/
structure Codec.Serializes (codec : Codec) (record : JournalRecord) : Prop where
  roundTrip : codec.decode (codec.encode record) = some record
  opens : ∃ rest, codec.encode record = '{' :: rest
  printable : ∀ c ∈ codec.encode record, ' ' ≤ c
  stopsEarly : ∀ text, text <+: codec.encode record → text ≠ codec.encode record →
    codec.decode text = none

/-- The UTF-8 encoding of a text. -/
def utf8 (text : List Char) : ByteArray := (text.flatMap String.utf8EncodeChar).toByteArray

theorem utf8_eq_utf8Encode (text : List Char) : utf8 text = text.utf8Encode := rfl

/-- The line `append_locked` writes. -/
def Codec.line (codec : Codec) (record : JournalRecord) : List Char :=
  codec.encode record ++ ['\n']

/-- The code points with the property `White_Space`, of which `trim` strips a
line. -/
def isWhitespace (c : Char) : Bool :=
  (9 ≤ c.toNat && c.toNat ≤ 13) || c.toNat = 0x20 || c.toNat = 0x85 || c.toNat = 0xA0 ||
    c.toNat = 0x1680 || (0x2000 ≤ c.toNat && c.toNat ≤ 0x200A) || c.toNat = 0x2028 ||
    c.toNat = 0x2029 || c.toNat = 0x202F || c.toNat = 0x205F || c.toNat = 0x3000

/-- `str::lines`: the lines end at `\n` or `\r\n`, the last one also at the end
of the text. -/
def lines : List Char → List (List Char)
  | [] => []
  | '\r' :: '\n' :: text => [] :: lines text
  | c :: text =>
    if c = '\n' then [] :: lines text
    else
      match lines text with
      | [] => [[c]]
      | line :: rest => (c :: line) :: rest

attribute [grind =] lines

/-! ## Replay -/

/-- The map replay builds. -/
abbrev Current := AList fun _ : Key => JournalRecord

/-- One line of `current_unacknowledged_locked`. -/
def replayLine (codec : Codec) (current : Current) (line : List Char) : Current :=
  if line.all isWhitespace then current
  else
    match codec.decode line with
    | none => current
    | some record =>
      let record := record.persisted
      if record.phase = .databaseAcknowledged then current.erase record.key
      else current.insert record.key record

/-- The characters of a file that is valid UTF-8. -/
def readToString (file : ByteArray) : Option (List Char) :=
  file.utf8Decode?.map Array.toList

/-- `current_unacknowledged_locked`; `none` when reading fails. -/
def currentUnacknowledged (codec : Codec) : Option ByteArray → Option Current
  | none => some ∅
  | some file =>
    (readToString file).map fun content => (lines content).foldl (replayLine codec) ∅

/-! ## Append and compaction -/

/-- The order of the compacted file. -/
def JournalRecord.notAfter (left right : JournalRecord) : Prop :=
  left.updatedAt < right.updatedAt ∨ left.updatedAt = right.updatedAt ∧
    (left.instanceId < right.instanceId ∨ left.instanceId = right.instanceId ∧
      left.commandId ≤ right.commandId)

instance : DecidableRel JournalRecord.notAfter := fun left right => by
  unfold JournalRecord.notAfter
  infer_instance

/-- How a compaction ends: it succeeds, fails before the renaming, or after
it. -/
inductive CompactionFault
  | none | beforeRename | afterRename
  deriving DecidableEq

/-- The file `compact_locked` writes. -/
def compacted (codec : Codec) (current : Current) : ByteArray :=
  let records := (current.entries.map Sigma.snd).insertionSort JournalRecord.notAfter
  utf8 (records.flatMap codec.line)

/-- `compact_locked`, whose errors `append` drops. -/
def compact (codec : Codec) (fault : CompactionFault) (file : ByteArray) : ByteArray :=
  match fault with
  | .beforeRename => file
  | .none | .afterRename =>
    match currentUnacknowledged codec (some file) with
    | none => file
    | some current => compacted codec current

/-- `COMPACTION_THRESHOLD_BYTES`. -/
def compactionThresholdBytes : ℕ := 1024 * 1024

/-- How an append ends.  `torn k` is a crash or an error after which the first
`k` bytes of the line are in the file: the append does not return `Ok`. -/
inductive AppendOutcome
  /-- the file cannot be opened -/
  | refused
  | torn (k : ℕ)
  /-- `sized`: the size of the file could be read -/
  | returned (sized : Bool) (compaction : CompactionFault)
  deriving DecidableEq

/-- What happens to the journal. -/
inductive Action
  | openJournal
  | append (record : JournalRecord) (outcome : AppendOutcome)

/-- The journal file, and the records whose append has returned `Ok`, as they
are persisted, in the order in which it has. -/
structure Disk where
  file : Option ByteArray
  returned : List JournalRecord

/-- No journal yet. -/
def Disk.fresh : Disk where
  file := none
  returned := []

/-- The bytes of the file; a missing file is created empty. -/
def Disk.bytes (s : Disk) : ByteArray := s.file.getD ByteArray.empty

/-- The bytes of the line `append_locked` writes. -/
def Codec.lineBytes (codec : Codec) (record : JournalRecord) : ByteArray :=
  utf8 (codec.line record.persisted)

/-- `append` compacts at once after these records. -/
def JournalRecord.immediate (record : JournalRecord) : Bool :=
  record.phase = .databaseAcknowledged || record.phase = .degradedCleanup

/-- `open` and `append`. -/
def Disk.step (codec : Codec) (s : Disk) : Action → Disk
  | .openJournal => { s with file := some s.bytes }
  | .append _ .refused => s
  | .append record (.torn k) =>
    { s with file := some (s.bytes ++ (codec.lineBytes record).extract 0 k) }
  | .append record (.returned sized fault) =>
    let file := s.bytes ++ codec.lineBytes record
    let thresholdReached := sized && compactionThresholdBytes ≤ file.size
    { file := some (if record.immediate || thresholdReached then compact codec fault file else file)
      returned := s.returned ++ [record.persisted] }

end Journal

end CtfZone
