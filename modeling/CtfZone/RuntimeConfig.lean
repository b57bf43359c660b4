/-
# Runtime profiles

`validate_runtime_config`, `upsert_runtime_config` and the deployment snapshot
that `ensure_instance` takes of the saved profile.  The integers of a profile
are written into JSON as decimal texts; the text of a `Json.number` is a JSON
number.
-/
import Mathlib.Data.List.DropRight
import Std.Data.String.ToInt
import CtfZone.ControllerCalls
import CtfZone.FloatTexts

namespace CtfZone

open Journal FloatTexts

/-! ## JSON values -/

/-- The integer a JSON value is, as Python's `json` reads it. -/
def Json.asInt : Json → Option ℤ
  | .number text => text.toInt?
  | _ => none

/-- `as_i64`. -/
def Json.asI64 (value : Json) : Option ℤ :=
  value.asInt.filter fun n => -2 ^ 63 ≤ n ∧ n < 2 ^ 63

/-- An integer written into a document. -/
def Json.ofInt (n : ℤ) : Json := .number (toString n)

/-- An optional value written into a document. -/
def Json.ofOption (value : Option Json) : Json := value.getD .null

@[simp] theorem Json.asInt_ofInt (n : ℤ) : (Json.ofInt n).asInt = some n :=
  Int.toInt?_repr n

theorem Json.asInt_of_asI64 {value : Json} {n : ℤ} (h : value.asI64 = some n) :
    value.asInt = some n :=
  (Option.filter_eq_some_iff.mp h).1

/-- A value that is positive as a signed number is the same as an unsigned
one. -/
theorem Json.asU64_of_asI64 {value : Json} {n : ℤ} (h : value.asI64 = some n) (hpos : 0 < n) :
    value.asU64 = some n.toNat := by
  have hlt := (Option.filter_eq_some_iff.mp h).2
  have hint := Json.asInt_of_asI64 h
  simp only [decide_eq_true_eq] at hlt
  cases value with
  | number text =>
      have hnat : text.toNat? = some n.toNat := by
        rcases String.toInt?_eq_some_iff.mp hint with ⟨m, hm, rfl⟩ | ⟨t, -, m, -, rfl⟩
        · exact hm
        · omega
      rw [Json.asU64, hnat, Option.filter_some, if_pos (by simp only [decide_eq_true_eq]; omega)]
  | null | bool | string | array | object => cases hint

/-! ## Texts -/

/-- `trim`. -/
def trim (s : String) : String :=
  String.ofList ((s.toList.dropWhile isWhitespace).rdropWhile isWhitespace)

/-- `normalize_optional`. -/
def normalizeOptional (value : Option String) : Option String :=
  (value.map trim).filter (· ≠ "")

/-- `rsplit_once`: what stands before and after the last `separator`. -/
def rsplitOnce (separator : List Char) : List Char → Option (List Char × List Char)
  | [] => none
  | c :: s =>
    match rsplitOnce separator s with
    | some (before, after) => some (c :: before, after)
    | none =>
      if separator.isPrefixOf (c :: s) then some ([], (c :: s).drop separator.length) else none

theorem rsplitOnce_eq_some {separator s before after : List Char}
    (h : rsplitOnce separator s = some (before, after)) : s = before ++ separator ++ after := by
  induction s generalizing before with
  | nil => cases h
  | cons c s ih =>
      rw [rsplitOnce] at h
      split at h
      · rename_i heq
        obtain ⟨rfl, rfl⟩ := Prod.ext_iff.mp (Option.some.inj h)
        rw [ih heq]
        rfl
      · split at h
        · rename_i hopens
          obtain ⟨rfl, rfl⟩ := Prod.ext_iff.mp (Option.some.inj h)
          obtain ⟨rest, hrest⟩ := List.isPrefixOf_iff_prefix.mp hopens
          rw [← hrest, List.drop_left, List.nil_append]
        · cases h

theorem trim_of_forall {s : String} (h : ∀ c ∈ s.toList, isWhitespace c = false) :
    trim s = s := by
  have hleft : s.toList.dropWhile isWhitespace = s.toList := by
    cases hs : s.toList with
    | nil => rfl
    | cons c cs => simp [h c (hs ▸ List.mem_cons_self)]
  rw [trim, hleft, List.rdropWhile_eq_self_iff.mpr, String.ofList_toList]
  intro hne
  simpa using h _ (List.getLast_mem hne)

/-- Nothing is left to trim. -/
theorem trim_trim (s : String) : trim (trim s) = trim s := by
  have hleft : ∀ l : List Char, ((l.dropWhile isWhitespace).rdropWhile isWhitespace).dropWhile
      isWhitespace = (l.dropWhile isWhitespace).rdropWhile isWhitespace := by
    intro l
    rw [List.dropWhile_eq_self_iff]
    intro hlength
    have hbegin := List.rdropWhile_prefix isWhitespace (l := l.dropWhile isWhitespace)
    have hlt := Nat.lt_of_lt_of_le hlength hbegin.length_le
    rw [hbegin.getElem hlength]
    exact List.dropWhile_get_zero_not _ _ hlt
  rw [trim, trim, String.toList_ofList, hleft, List.rdropWhile_idempotent]

/-! ## The profile -/

/-- `RuntimeConfigInput`, and the columns it is saved in. -/
structure RuntimeConfigInput where
  runtimeMode : String
  enabled : Bool
  imageDigest : Option String
  protocol : String
  containerPort : Option ℤ
  defaultTtlSeconds : ℤ
  maximumTtlSeconds : ℤ
  allowExtension : Bool
  maximumExtensions : ℤ
  cpuLimit : Option String
  memoryLimitBytes : Option ℤ
  pidLimit : Option ℤ
  storageLimitBytes : Option ℤ
  healthcheck : Json
  remotePool : Option String

/-- The first character of a repository. -/
def isRepositoryStart (c : Char) : Bool := c.isAlphanum

/-- A character of a repository. -/
def isRepositoryChar (c : Char) : Bool := c.isAlphanum || "._:/-".toList.contains c

/-- `is_ascii_hexdigit` without the capitals. -/
def isDigestChar (c : Char) : Bool :=
  (c.isDigit || ('a' ≤ c && c ≤ 'f') || ('A' ≤ c && c ≤ 'F')) && ! c.isUpper

/-- `valid_image_digest`. -/
def validImageDigest (value : String) : Bool :=
  match rsplitOnce "@sha256:".toList value.toList with
  | none => false
  | some (repository, digest) =>
    repository.head?.any isRepositoryStart && repository.all isRepositoryChar &&
      digest.length = 64 && digest.all isDigestChar

/-- `PERMITTED`. -/
def permittedHealthcheckFields : List String :=
  ["command", "interval_seconds", "timeout_seconds", "retries", "startup_timeout_seconds"]

/-- The integers from `low` to `high`, as the API checks them. -/
def i64Within (low high : ℤ) (value : Json) : Bool :=
  value.asI64.any fun n => low ≤ n && n ≤ high

/-- A healthcheck command of the API. -/
def validCommand : Json → Bool
  | .string command =>
    command ≠ "" && command.utf8ByteSize ≤ 1000 && ! command.toList.contains '\x00'
  | _ => false

/-- `validate_healthcheck`. -/
def validateHealthcheck (value : Json) : Except String Unit :=
  match value with
  | .object fields => do
    ensure (fields.all fun p => permittedHealthcheckFields.contains p.1)
      "Healthcheck contains unsupported fields"
    ensure ((value.field "command").all validCommand) "Healthcheck command is invalid"
    forM ["interval_seconds", "timeout_seconds", "retries"] fun key =>
      ensure ((value.field key).all (i64Within 1 300)) s!"Healthcheck {key} is invalid"
    ensure ((value.field "startup_timeout_seconds").all (i64Within 1 55))
      "Healthcheck startup_timeout_seconds is invalid"
  | _ => .error "Healthcheck must be a JSON object"

/-- The CPU limits the API accepts. -/
def validCpuLimit (value : String) : Bool :=
  (parseF64 value.toList).any fun x => x.isFinite && 0.01 ≤ x && x ≤ 256.0

/-- `validate_runtime_config`. -/
def validateRuntimeConfig (request : RuntimeConfigInput) : Except String Unit := do
  ensure (["static", "managed"].contains request.runtimeMode) "Unsupported runtime mode"
  ensure (["tcp", "http", "https"].contains request.protocol) "Unsupported runtime protocol"
  ensure (request.runtimeMode ≠ "managed" ||
      (request.imageDigest.any (fun value => validImageDigest (trim value)) &&
        request.containerPort.isSome))
    "Managed runtimes require an image digest and container port"
  ensure (request.containerPort.all (fun port => 1 ≤ port && port ≤ 65535) &&
      60 ≤ request.defaultTtlSeconds && request.defaultTtlSeconds ≤ 86400 &&
      request.defaultTtlSeconds ≤ request.maximumTtlSeconds &&
      request.maximumTtlSeconds ≤ 604800 && 0 ≤ request.maximumExtensions &&
      request.memoryLimitBytes.all (0 < ·) && request.pidLimit.all (0 < ·) &&
      request.storageLimitBytes.all (0 < ·))
    "Invalid runtime resource or lifetime limit"
  ensure (request.cpuLimit.all validCpuLimit) "CPU limit must be between 0.01 and 256"
  validateHealthcheck request.healthcheck

/-- `upsert_runtime_config`: the row it saves. -/
def upsertRuntimeConfig (request : RuntimeConfigInput) : Except String RuntimeConfigInput := do
  validateRuntimeConfig request
  pure { request with
    imageDigest := normalizeOptional request.imageDigest
    cpuLimit := normalizeOptional request.cpuLimit
    remotePool := normalizeOptional request.remotePool }

/-- `deployment_snapshot` in `ensure_instance`. -/
def deploymentSnapshot (gate : RuntimeConfigInput) (flagValue : Option String) : Json :=
  .object <| [
    ("image_digest", .ofOption (gate.imageDigest.map .string)),
    ("protocol", .string gate.protocol),
    ("container_port", .ofOption (gate.containerPort.map .ofInt)),
    ("cpu_limit", .ofOption (gate.cpuLimit.map .string)),
    ("memory_limit_bytes", .ofOption (gate.memoryLimitBytes.map .ofInt)),
    ("pid_limit", .ofOption (gate.pidLimit.map .ofInt)),
    ("storage_limit_bytes", .ofOption (gate.storageLimitBytes.map .ofInt)),
    ("healthcheck", gate.healthcheck),
    ("remote_pool", .ofOption (gate.remotePool.map .string))] ++
    (flagValue.map fun value => ("flag_value", Json.string value)).toList

/-- The profile check of a launch, and the snapshot it takes. -/
def launchSnapshot (gate : RuntimeConfigInput) (flagValue : Option String) : Except String Json := do
  ensure (gate.enabled && gate.runtimeMode = "managed")
    "This challenge does not currently provide a managed instance"
  pure (deploymentSnapshot gate flagValue)

end CtfZone
