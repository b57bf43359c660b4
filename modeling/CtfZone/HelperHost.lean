/-
# The host of the runtime helper

The part of a runtime host that `remote-helper/ctfzone-runtime-helper` reads
and changes for one instance UUID: the container, its private network, the
state file, the tombstone file and the systemd timer units.  Files of different
UUIDs never meet (every path, container, network and unit name embeds the
UUID), so one `Cell` describes one UUID and a host is a family of cells.

Every call that leaves the helper (engine, systemd, filesystem) is a `Step`,
and the environment decides for each step of an operation whether it succeeds,
fails, times out or takes the helper down, with or without having taken
effect.  The instance lock is held for a whole operation, so operations on one
UUID do not overlap; a timer that elapses while the lock is held stays active
until its service, which waits for the lock, has run.

The engine is trusted in one respect: it reports a container or a network as
absent only when it is.  The text of a file is kept as what the helper's reader
makes of it, and a label as what `int` makes of it.
-/
import Mathlib.Data.Rat.Defs
import CtfZone.Basic
import CtfZone.Effects

open Effects

namespace CtfZone

/-! ## Exceptions -/

/-- The exceptions an operation can raise: `HelperError`, `OSError`,
`subprocess.TimeoutExpired`, and the ones no clause of the helper names
(`UnicodeDecodeError`, `OverflowError`, `AttributeError`). -/
inductive Exc
  | helperError (message : String)
  | osError
  | timeoutExpired
  | other
  deriving DecidableEq

/-! ## Files -/

/-- A scalar of a JSON document as Python holds it.  A float is its exact
value, `none` when it is not finite. -/
inductive Raw
  | null
  | bool (b : Bool)
  | int (n : ℤ)
  | float (value : Option ℚ)
  | text (s : String)
  | composite
  deriving DecidableEq

/-- Python's `==` between a JSON value and an integer: booleans count as 0 and
1, and a float equals the integer of its value. -/
def Raw.equalsInt : Raw → ℤ → Bool
  | .bool b, n => n = if b then 1 else 0
  | .int m, n => m = n
  | .float (some q), n => q = n
  | _, _ => false

/-- What the helper's reader finds in an `expires_at` field. -/
inductive DeadlineText
  /-- not a string -/
  | missing
  /-- `fromisoformat` refuses it -/
  | malformed
  /-- no timezone -/
  | naive
  /-- the conversion to UTC overflows -/
  | outOfRange
  | instant (t : Time)
  deriving DecidableEq

/-- The file behind a path, as `json.loads(path.read_text())` sees it. -/
inductive File (α : Type)
  | missing
  /-- not UTF-8, so that reading raises `UnicodeDecodeError` -/
  | undecodable
  /-- not JSON -/
  | malformed
  /-- JSON, but not an object -/
  | notObject
  | document (a : α)
  deriving DecidableEq

/-- The parts of a validated deployment that the helper itself uses. -/
structure Deployment where
  containerPort : ℕ
  protocol : String
  healthCommand : Option String
  startupTimeoutSeconds : Option ℕ
  deriving DecidableEq

/-- `bool(healthcheck.get("command"))`. -/
def Deployment.expectsHealth (d : Deployment) : Bool :=
  match d.healthCommand with
  | some command => command ≠ ""
  | none => false

/-- The object in `instances/<uuid>.json`.  `deployment` is `none` when the
field or its `healthcheck` is not an object. -/
structure InstanceState where
  instanceId : Uuid
  generation : Raw
  expiresAt : DeadlineText
  deployment : Option Deployment
  flagFingerprint : Raw
  deriving DecidableEq

/-- The object in `tombstones/<uuid>.json`. -/
structure Tombstone where
  instanceId : Uuid
  generation : Raw
  blocked : Raw
  deriving DecidableEq

/-! ## The container -/

/-- `State.Status`, lowercased. -/
inductive RuntimeStatus
  | created | running | paused | restarting | removing | exited | dead | other
  deriving DecidableEq

/-- `State.Health.Status`, lowercased. -/
inductive HealthStatus
  | starting | healthy | unhealthy | other
  deriving DecidableEq

/-- The part of an inspection document that changes while a container lives. -/
structure Runtime where
  status : Option RuntimeStatus
  running : Bool
  health : Option HealthStatus
  deriving DecidableEq

/-- A published port of the container. -/
structure Binding where
  hostIp : Option String
  hostPort : Option ℕ
  deriving DecidableEq

/-- What the engine adds to a container it creates. -/
structure EngineView where
  id : String
  runtime : Runtime
  remoteIp : Option String
  binding : Binding
  deriving DecidableEq

/-- The container named after the UUID, as `inspect` reports it. -/
structure Container where
  instanceLabel : Option Uuid
  generationLabel : Option ℤ
  view : EngineView
  deriving DecidableEq

/-- The runtime host, for one UUID.  `timers` maps a generation, or `none` for
the unit without a generation, to the calendar second of its active unit. -/
structure Cell where
  container : Option Container
  network : Bool
  stateFile : File InstanceState
  tombstoneFile : File Tombstone
  timers : Option ℤ → Option ℤ

/-- A host that has never heard of the UUID. -/
def Cell.pristine : Cell where
  container := none
  network := false
  stateFile := .missing
  tombstoneFile := .missing
  timers := fun _ => none

/-! ## The environment of one operation -/

/-- How an external step ends; `took` says whether it took effect. -/
inductive Fault
  | none
  /-- a nonzero exit status, for a file operation an `OSError` -/
  | exit (took : Bool)
  | timeout (took : Bool)
  | osError (took : Bool)
  /-- the helper is killed at this step -/
  | kill (took : Bool)
  deriving DecidableEq

/-- The step fails with an exception, so that the operation goes on in a
handler. -/
def Fault.refuses : Fault → Bool
  | .exit _ | .timeout _ | .osError _ => true
  | _ => false

/-- Where in an operation a step stands: the operation proper, the inspection
that reads its result, or the handler that undoes it. -/
inductive Phase
  | request | result | recovery
  deriving DecidableEq

/-- The two kinds of file the helper replaces. -/
inductive FileKind
  | state | tombstone
  deriving DecidableEq

/-- The calls that leave the helper.  No operation makes the same call twice
in the same phase. -/
inductive Step
  | inspect | remove | confirmRemoved
  | networkProbe | networkCreate | networkReprobe | networkRemove | networkConfirm
  | runContainer
  | sweepProbe | timerProbe | timerInstall | timerReprobe
  | timerStop (unit : Option ℤ) | timerReset (unit : Option ℤ)
  | readState | readTombstone | readExisting | unlinkState
  | makeDirectory (file : FileKind) | makeTemporary (file : FileKind)
  | writeTemporary (file : FileKind) | changeMode (file : FileKind)
  | replace (file : FileKind) | openDirectory (file : FileKind)
  | syncDirectory (file : FileKind) | unlinkTemporary (file : FileKind)
  deriving DecidableEq

/-- What happens to the container by itself before the helper looks again. -/
inductive Drift
  | same
  | becomes (runtime : Runtime)
  | gone
  deriving DecidableEq

/-- One round of the startup wait. -/
structure Poll where
  drift : Drift
  fault : Fault
  /-- the monotonic deadline has passed at the end of the round -/
  elapsed : Bool
  deriving DecidableEq

/-- The readings of the clock after the first one. -/
inductive ClockPoint
  | check | schedule | expire
  deriving DecidableEq

/-- Everything the outside world decides during one operation. -/
structure Env where
  fault : Phase → Step → Fault
  now : Time
  delay : ClockPoint → ℕ
  polls : List Poll
  settled : Drift
  created : EngineView
  sha256 : String → String
  publicHostname : Option String

/-- A reading of the clock; the clock does not run backwards behind `now`. -/
def Env.clock (env : Env) (p : ClockPoint) : Time := env.now + env.delay p

theorem Env.now_le_clock (env : Env) (p : ClockPoint) : env.now ≤ env.clock p :=
  Int.le_add_of_nonneg_right (Int.natCast_nonneg _)

/-- A program of the helper. -/
abbrev Helper := Prog Env Exc Cell

open Prog

/-! ## External steps -/

/-- The world after a step that may not have taken effect. -/
def tookEffect (took : Bool) (effect : Cell → Cell) (s : Cell) : Cell :=
  if took then effect s else s

/-- Run a command without checking its exit status: the result says whether it
was zero, `success` says whether it is when nothing goes wrong. -/
def command (p : Phase) (st : Step) (effect : Cell → Cell) (success : Cell → Bool) :
    Helper Bool := fun env s =>
  match env.fault p st with
  | .none => (.done (success s), effect s)
  | .exit took => (.done false, tookEffect took effect s)
  | .timeout took => (.raised .timeoutExpired, tookEffect took effect s)
  | .osError took => (.raised .osError, tookEffect took effect s)
  | .kill took => (.halted, tookEffect took effect s)

/-- Ask the engine about the world; a refusal is a `HelperError`. -/
def query {α : Type} (p : Phase) (st : Step) (f : Cell → α) (message : String) :
    Helper α := fun env s =>
  match env.fault p st with
  | .none => (.done (f s), s)
  | .exit _ => (.raised (.helperError message), s)
  | .timeout _ => (.raised .timeoutExpired, s)
  | .osError _ => (.raised .osError, s)
  | .kill _ => (.halted, s)

/-- A system call on a file: anything but success raises `OSError`. -/
def fileCall (p : Phase) (st : Step) (effect : Cell → Cell) : Helper PUnit := fun env s =>
  match env.fault p st with
  | .none => (.done ⟨⟩, effect s)
  | .exit took => (.raised .osError, tookEffect took effect s)
  | .timeout took => (.raised .osError, tookEffect took effect s)
  | .osError took => (.raised .osError, tookEffect took effect s)
  | .kill took => (.halted, tookEffect took effect s)

/-- Read a JSON file: a missing file is `none`, an `OSError` and a JSON error
become a `HelperError`, and a decoding error escapes as it is. -/
def readJson {α : Type} (p : Phase) (st : Step) (file : Cell → File α)
    (unreadable corrupt : String) : Helper (Option α) := fun env s =>
  match env.fault p st with
  | .kill _ => (.halted, s)
  | .none =>
    match file s with
    | .missing => (.done none, s)
    | .undecodable => (.raised .other, s)
    | .malformed => (.raised (.helperError unreadable), s)
    | .notObject => (.raised (.helperError corrupt), s)
    | .document a => (.done (some a), s)
  | _ => (.raised (.helperError unreadable), s)

/-! ## What an external step can do -/

/-- A command leaves the world alone or takes effect, and a zero exit status
means that it took effect where it can. -/
theorem command_spec (p : Phase) (st : Step) (effect : Cell → Cell) (success : Cell → Bool)
    (env : Env) (s : Cell) :
    wp (command p st effect success) env s fun o s' =>
      (s' = s ∨ s' = effect s) ∧ (o = .done true → s' = effect s ∧ success s = true) := by
  unfold wp command tookEffect
  rcases env.fault p st with _ | took | took | took | took
  · exact ⟨.inr rfl, fun h => ⟨rfl, by simpa using h⟩⟩
  all_goals cases took <;> simp

/-- A question changes nothing, and its answer is the truth. -/
theorem query_spec {α : Type} (p : Phase) (st : Step) (f : Cell → α) (message : String)
    (env : Env) (s : Cell) :
    wp (query p st f message) env s fun o s' =>
      s' = s ∧ ∀ a, o = .done a → a = f s ∧ env.fault p st = .none := by
  unfold wp query
  rcases env.fault p st with _ | took | took | took | took
  · exact ⟨rfl, fun a h => by cases h; exact ⟨rfl, rfl⟩⟩
  all_goals simp

/-- A file call leaves the world alone or takes effect, and success means that
it took effect. -/
theorem fileCall_spec (p : Phase) (st : Step) (effect : Cell → Cell) (env : Env) (s : Cell) :
    wp (fileCall p st effect) env s fun o s' =>
      (s' = s ∨ s' = effect s) ∧ (o = .done ⟨⟩ → s' = effect s) := by
  unfold wp fileCall tookEffect
  rcases env.fault p st with _ | took | took | took | took
  · exact ⟨.inr rfl, fun _ => rfl⟩
  all_goals cases took <;> simp

/-- Reading changes nothing; what it returns is in the file, and it raises only
when it is refused or the file holds no object. -/
theorem readJson_spec {α : Type} (p : Phase) (st : Step) (file : Cell → File α)
    (unreadable corrupt : String) (env : Env) (s : Cell) :
    wp (readJson p st file unreadable corrupt) env s fun o s' =>
      s' = s ∧ (∀ a, o = .done (some a) → file s = .document a) ∧
        (o = .done none → file s = .missing) ∧
        (∀ e, o = .raised e → (∀ a, file s ≠ .document a) ∨ (env.fault p st).refuses = true) ∧
        (∀ a, o = .done a → env.fault p st = .none) := by
  unfold wp readJson
  rcases env.fault p st with _ | took | took | took | took
  · cases file s <;> simp
  all_goals simp [Fault.refuses]

end CtfZone
