/-
# The values of dynamic challenges, exactly

The value of a dynamic challenge falls with the number of its solves.  Here it is computed
with rational numbers where the code has floating-point ones, from parameters that `create`
and `update` have accepted.

* `exactValue` : the value, or nothing where a step overflows or divides by zero;
* `Accepted` : the parameters a dynamic challenge can come to have;
* `Accepted.dynamic` : what is known of them;
* `curve_antitone`, `curve_le_minimum` : the two functions;
* `exact_values` : the bounds of the value, and its order.
-/
import CtfZone.ContestTables
import CtfZone.Profiles
import Mathlib.Data.Rat.Floor
import Mathlib.Tactic.Linarith
import Mathlib.Tactic.Positivity
import Mathlib.Tactic.GCongr

namespace CtfZone.Contests

open Journal Submissions
open Scoreboard (parseI64)

/-! ## Arithmetic -/

/-- A result of 32 bits, if it does not overflow. -/
def inI32 (n : ℤ) : Option ℤ := if -2 ^ 31 ≤ n ∧ n < 2 ^ 31 then some n else none

/-- A result of 64 bits, if it does not overflow. -/
def inI64 (n : ℤ) : Option ℤ := if -2 ^ 63 ≤ n ∧ n < 2 ^ 63 then some n else none

/-- A quotient, unless the divisor is zero. -/
def quotient (x y : ℚ) : Option ℚ := if y = 0 then none else some (x / y)

/-- `as i32`, which saturates. -/
def asI32 (n : ℤ) : ℤ := max (-2 ^ 31) (min n (2 ^ 31 - 1))

/-- The value before it is rounded. -/
def calculated (function : String) (initial minimum decay : ℤ) (adjusted : ℚ) : Option ℚ :=
  if function = "linear" then some (initial - decay * adjusted)
  else do
    let range ← inI32 (minimum - initial)
    let slope ← quotient range (decay ^ 2)
    some (slope * adjusted ^ 2 + initial)

/-- The value of a challenge that `solveCount` visible accounts have solved. -/
def exactValue (function : String) (initial minimum decay solveCount : ℤ) : Option ℤ := do
  let adjusted := max (← inI64 (solveCount - 1)) 0
  let calculated ← calculated function initial minimum decay adjusted
  some (max (asI32 ⌈calculated⌉) minimum)

/-- The value `recalculate_dynamic_value` stores, if it stores one. -/
def ScoringRow.exactly (row : ScoringRow) (solveCount : ℕ) : Option ℤ :=
  let function := row.function.getD "static"
  if function = "static" then none
  else exactValue function (row.initial.getD 0) (row.minimum.getD 0) (max (row.decay.getD 1) 1)
    solveCount

/-! ## Validation -/

/-- `optional_string`. -/
def optionalString (object : Json) (key : String) : Option String :=
  (object.field key).bind fun value => match value with
    | .string text | .number text => some text
    | .bool value => some (if value then "true" else "false")
    | _ => none

/-- `required_string`. -/
def requiredString (object : Json) (key : String) (max : ℕ) : Except String String := do
  let value := trim ((optionalString object key).getD "")
  ensure (value ≠ "") ("Challenge " ++ key ++ " is required")
  ensure (value.length ≤ max) ("Challenge " ++ key ++ " is too long")
  pure value

/-- `patch_required_string`. -/
def patchRequiredString (object : Json) (key : String) (current : Option String) (max : ℕ) :
    Except String String :=
  if (object.field key).isSome then requiredString object key max
  else do
    let current := current.getD ""
    ensure (trim current ≠ "") ("Challenge " ++ key ++ " is required")
    pure current

/-- The integer of 32 bits that a number or a text says. -/
def jsonI32 (value : Json) : Option ℤ :=
  ((value.asI64).or (match value with
    | .string text => parseI64 text
    | _ => none)).bind inI32

/-- `optional_i32`. -/
def optionalI32 (object : Json) (key : String) : Except String (Option ℤ) :=
  match object.field key with
  | none | some .null | some (.string "") => .ok none
  | some value =>
    (required (jsonI32 value) ("Challenge " ++ key ++ " must be an integer")).map some

/-- `patch_i32`. -/
def patchI32 (object : Json) (key : String) (current : Option ℤ) : Except String (Option ℤ) :=
  if (object.field key).isSome then optionalI32 object key else .ok current

/-- The parameters fit together, if there are any. -/
def validParameters (initial minimum decay : Option ℤ) : Bool :=
  initial.all (0 ≤ ·) && minimum.all (0 ≤ ·) &&
    initial.all (fun initial => minimum.all (· ≤ initial)) && decay.all (0 < ·)

/-- The function fits to the type of the scoring. -/
def validFunction (dynamic : Bool) (function : String) : Bool :=
  if dynamic then ["linear", "logarithmic"].contains function else function = "static"

/-- The scoring of a challenge that `create` inserts. -/
def createScoring (challengeId : ℤ) (object : Json) : Except String ScoringRow := do
  let challengeType := (optionalString object "type").getD "standard"
  ensure (challengeType = "standard" || challengeType = "dynamic") "Unsupported challenge type"
  let dynamic := challengeType = "dynamic"
  let function := (optionalString object "function").getD
    (if dynamic then "logarithmic" else "static")
  ensure (validFunction dynamic function) "Scoring type and decay function do not match"
  let suppliedValue ← optionalI32 object "value"
  let suppliedInitial ← optionalI32 object "initial"
  let minimum ← optionalI32 object "minimum"
  let decay ← optionalI32 object "decay"
  ensure (dynamic || (suppliedInitial.isNone && minimum.isNone && decay.isNone))
    "Standard scoring cannot define dynamic scoring fields"
  ensure (! dynamic || suppliedInitial.all fun initial => suppliedValue.all (initial = ·))
    "Dynamic value must match the initial score"
  let initial := if dynamic then suppliedInitial.or suppliedValue else none
  ensure (! dynamic || (initial.isSome && minimum.isSome && decay.isSome))
    "Dynamic challenges require initial, minimum, and decay"
  ensure (! dynamic || validParameters initial minimum decay)
    "Dynamic scoring requires initial >= minimum >= 0 and decay > 0"
  let value ← required (if dynamic then initial else suppliedValue) "Challenge value is required"
  ensure (0 ≤ value) "Challenge value cannot be negative"
  pure { challengeId, function := some function, initial, minimum, decay, value := some value }

/-- The scoring of a challenge as `update` writes it, before it recalculates the value. -/
def updateScoring (challengeType : Option String) (object : Json) (current : ScoringRow) :
    Except String ScoringRow := do
  let dynamic := challengeType = some "dynamic"
  let function ← patchRequiredString object "function" current.function 32
  ensure (validFunction dynamic function) "Scoring type and decay function do not match"
  ensure (dynamic || ["initial", "minimum", "decay"].all fun field => (object.field field).isNone)
    "Standard scoring cannot define dynamic scoring fields"
  let initial ← if dynamic then patchI32 object "initial" current.initial else pure none
  let minimum ← if dynamic then patchI32 object "minimum" current.minimum else pure none
  let decay ← if dynamic then patchI32 object "decay" current.decay else pure none
  ensure (! dynamic || (initial.isSome && minimum.isSome && decay.isSome))
    "Dynamic challenges require initial, minimum, and decay"
  ensure (! dynamic || validParameters initial minimum decay)
    "Dynamic scoring requires initial >= minimum >= 0 and decay > 0"
  let suppliedValue ← patchI32 object "value" none
  ensure (! dynamic || suppliedValue.all fun value => initial.all (value = ·))
    "Dynamic value must match the initial score"
  let value ← if dynamic then required initial "Challenge value is required"
    else do required (← patchI32 object "value" current.value) "Challenge value is required"
  ensure (0 ≤ value) "Challenge value cannot be negative"
  pure { current with function := some function, initial, minimum, decay, value := some value }

/-- The scoring of a dynamic challenge after any of its requests: it is created, updated, and
its value is recalculated. -/
inductive Accepted : ScoringRow → Prop
  | create {challengeId : ℤ} {object : Json} {row : ScoringRow} :
      optionalString object "type" = some "dynamic" →
        createScoring challengeId object = .ok row → Accepted row
  | update {object : Json} {current row : ScoringRow} : Accepted current →
      updateScoring (some "dynamic") object current = .ok row → Accepted row
  | recalculate {current : ScoringRow} (value : Option ℤ) :
      Accepted current → Accepted { current with value }

/-! ## What is accepted -/

/-- An integer of 32 bits. -/
def IsI32 (n : ℤ) : Prop := -2 ^ 31 ≤ n ∧ n < 2 ^ 31

theorem inI32_eq_some {n m : ℤ} : inI32 n = some m ↔ n = m ∧ IsI32 m := by
  unfold inI32 IsI32
  constructor
  · intro h
    split at h
    · rename_i hrange
      obtain rfl := Option.some.inj h
      exact ⟨rfl, hrange⟩
    · cases h
  · rintro ⟨rfl, hrange⟩
    exact if_pos hrange

/-- What is read fits into 32 bits. -/
theorem optionalI32_range {object : Json} {key : String} {n : ℤ}
    (h : optionalI32 object key = .ok (some n)) : IsI32 n := by
  unfold optionalI32 at h
  split at h
  · cases h
  · cases h
  · cases h
  · rename_i value _ _ _
    rcases hvalue : jsonI32 value with _ | m
    · rw [hvalue] at h
      cases h
    · rw [hvalue] at h
      obtain rfl : m = n := Option.some.inj (Except.ok.inj h)
      obtain ⟨k, -, hk⟩ := Option.bind_eq_some_iff.mp hvalue
      exact (inI32_eq_some.mp hk).2

theorem patchI32_range {object : Json} {key : String} {current : Option ℤ} {n : ℤ}
    (hcurrent : ∀ m, current = some m → IsI32 m)
    (h : patchI32 object key current = .ok (some n)) : IsI32 n := by
  unfold patchI32 at h
  split at h
  · exact optionalI32_range h
  · exact hcurrent n (Except.ok.inj h)

/-- The parameters of a dynamic challenge. -/
structure DynamicScoring (row : ScoringRow) (function : String) (initial minimum decay : ℤ) :
    Prop where
  function_eq : row.function = some function
  initial_eq : row.initial = some initial
  minimum_eq : row.minimum = some minimum
  decay_eq : row.decay = some decay
  functions : function = "linear" ∨ function = "logarithmic"
  minimum_nonneg : 0 ≤ minimum
  minimum_le : minimum ≤ initial
  decay_pos : 0 < decay
  initial_i32 : IsI32 initial
  minimum_i32 : IsI32 minimum
  decay_i32 : IsI32 decay

theorem functions_of_valid {function : String} (h : validFunction true function = true) :
    function = "linear" ∨ function = "logarithmic" := by
  simpa [validFunction] using h

/-- Parameters that are there and fit together. -/
theorem dynamicScoring_of_valid {row : ScoringRow} {function : String}
    {initial minimum decay : Option ℤ}
    (hrow : row.function = some function ∧ row.initial = initial ∧ row.minimum = minimum ∧
      row.decay = decay)
    (hfunction : validFunction true function = true)
    (hthere : (initial.isSome && minimum.isSome && decay.isSome) = true)
    (hvalid : validParameters initial minimum decay = true)
    (hinitial : ∀ n, initial = some n → IsI32 n) (hminimum : ∀ n, minimum = some n → IsI32 n)
    (hdecay : ∀ n, decay = some n → IsI32 n) :
    ∃ initial minimum decay, DynamicScoring row function initial minimum decay := by
  obtain ⟨hrowFunction, hrowInitial, hrowMinimum, hrowDecay⟩ := hrow
  simp only [Bool.and_eq_true, Option.isSome_iff_exists] at hthere
  obtain ⟨⟨⟨i, rfl⟩, m, rfl⟩, d, rfl⟩ := hthere
  simp only [validParameters, Option.all_some, Bool.and_eq_true, decide_eq_true_eq] at hvalid
  obtain ⟨⟨⟨-, hm⟩, hmi⟩, hd⟩ := hvalid
  exact ⟨i, m, d, hrowFunction, hrowInitial, hrowMinimum, hrowDecay,
    functions_of_valid hfunction, hm, hmi, hd, hinitial i rfl, hminimum m rfl, hdecay d rfl⟩

theorem createScoring_dynamic {challengeId : ℤ} {object : Json} {row : ScoringRow}
    (htype : optionalString object "type" = some "dynamic")
    (h : createScoring challengeId object = .ok row) :
    ∃ function initial minimum decay, DynamicScoring row function initial minimum decay := by
  simp only [createScoring, htype, Option.getD_some, bind_eq_ok, ensure_eq_ok, decide_true,
    Bool.not_true, Bool.false_or, Bool.true_or, if_true] at h
  obtain ⟨_, -, _, hfunction, value, hvalue, supplied, hsupplied, minimum, hminimum, decay, hdecay,
    _, -, _, -, _, hthere, _, hvalid, _, -, _, -, heq⟩ := h
  obtain rfl := Except.ok.inj heq
  refine ⟨_, dynamicScoring_of_valid ⟨rfl, rfl, rfl, rfl⟩ hfunction hthere hvalid ?_ ?_ ?_⟩
  · intro n hn
    rcases Option.or_eq_some_iff.mp hn with rfl | ⟨-, rfl⟩
    · exact optionalI32_range hsupplied
    · exact optionalI32_range hvalue
  · rintro n rfl
    exact optionalI32_range hminimum
  · rintro n rfl
    exact optionalI32_range hdecay

theorem updateScoring_dynamic {object : Json} {current row : ScoringRow} {function : String}
    {initial minimum decay : ℤ} (hcurrent : DynamicScoring current function initial minimum decay)
    (h : updateScoring (some "dynamic") object current = .ok row) :
    ∃ function initial minimum decay, DynamicScoring row function initial minimum decay := by
  simp only [updateScoring, bind_eq_ok, ensure_eq_ok, decide_true, Bool.not_true, Bool.false_or,
    Bool.true_or, if_true] at h
  obtain ⟨function', -, _, hfunction, _, -, initial', hinitial, minimum', hminimum, decay', hdecay,
    _, hthere, _, hvalid, _, -, _, -, _, -, _, -, heq⟩ := h
  obtain rfl := Except.ok.inj heq
  refine ⟨_, dynamicScoring_of_valid ⟨rfl, rfl, rfl, rfl⟩ hfunction hthere hvalid ?_ ?_ ?_⟩
  · rintro n rfl
    refine patchI32_range ?_ hinitial
    intro m hm
    rw [hcurrent.initial_eq] at hm
    exact Option.some.inj hm ▸ hcurrent.initial_i32
  · rintro n rfl
    refine patchI32_range ?_ hminimum
    intro m hm
    rw [hcurrent.minimum_eq] at hm
    exact Option.some.inj hm ▸ hcurrent.minimum_i32
  · rintro n rfl
    refine patchI32_range ?_ hdecay
    intro m hm
    rw [hcurrent.decay_eq] at hm
    exact Option.some.inj hm ▸ hcurrent.decay_i32

/-- **The parameters of a dynamic challenge fit together, whatever its requests have been.** -/
theorem Accepted.dynamic {row : ScoringRow} (h : Accepted row) :
    ∃ function initial minimum decay, DynamicScoring row function initial minimum decay := by
  induction h with
  | create htype hcreate => exact createScoring_dynamic htype hcreate
  | update _ hupdate ih =>
      obtain ⟨function, initial, minimum, decay, hcurrent⟩ := ih
      exact updateScoring_dynamic hcurrent hupdate
  | recalculate value _ ih =>
      obtain ⟨function, initial, minimum, decay, hcurrent⟩ := ih
      exact ⟨function, initial, minimum, decay, { hcurrent with }⟩

/-! ## The functions -/

/-- The value before it is rounded, `x` solves after the first. -/
def curve (function : String) (initial minimum decay : ℤ) (x : ℚ) : ℚ :=
  if function = "linear" then initial - decay * x
  else ((minimum - initial : ℤ) : ℚ) / decay ^ 2 * x ^ 2 + initial

/-- The first solve leaves the initial value. -/
theorem curve_zero (function : String) (initial minimum decay : ℤ) :
    curve function initial minimum decay 0 = initial := by
  unfold curve
  split
  · ring
  · ring

section Curve

variable {row : ScoringRow} {function : String} {initial minimum decay : ℤ} {x y : ℚ}
  (h : DynamicScoring row function initial minimum decay)
include h

/-- Nothing overflows, and nothing is divided by zero. -/
theorem calculated_eq (x : ℚ) :
    calculated function initial minimum decay x =
      some (curve function initial minimum decay x) := by
  unfold calculated curve
  split
  · rfl
  · have hrange : inI32 (minimum - initial) = some (minimum - initial) := by
      rw [inI32_eq_some]
      have hinitial := h.initial_i32.2
      have hminimum := h.minimum_nonneg
      have hle := h.minimum_le
      refine ⟨rfl, ?_, ?_⟩
      · omega
      · omega
    have hsquare : (decay : ℚ) ^ 2 ≠ 0 := by
      have hpos : (0 : ℚ) < decay := Int.cast_pos.mpr h.decay_pos
      positivity
    simp only [hrange, quotient, if_neg hsquare, Option.bind_eq_bind, Option.bind_some]

/-- The drop of the logarithmic function is not positive. -/
theorem slope_nonpos : ((minimum - initial : ℤ) : ℚ) / decay ^ 2 ≤ 0 := by
  apply div_nonpos_of_nonpos_of_nonneg
  · have hle := h.minimum_le
    exact_mod_cast (by omega : minimum - initial ≤ 0)
  · positivity

/-- More solves, less value. -/
theorem curve_antitone (hx : 0 ≤ x) (hxy : x ≤ y) :
    curve function initial minimum decay y ≤ curve function initial minimum decay x := by
  unfold curve
  split
  · have hpos : (0 : ℚ) ≤ decay := Int.cast_nonneg h.decay_pos.le
    have hmul := mul_le_mul_of_nonneg_left hxy hpos
    linarith
  · have hsquares : x ^ 2 ≤ y ^ 2 := by gcongr
    have hmul := mul_le_mul_of_nonpos_left hsquares (slope_nonpos h)
    linarith

/-- The logarithmic function is at the minimum from the decay point on. -/
theorem curve_le_minimum (hfunction : function = "logarithmic") (hx : (decay : ℚ) ≤ x) :
    curve function initial minimum decay x ≤ minimum := by
  have hpos : (0 : ℚ) < decay := Int.cast_pos.mpr h.decay_pos
  have hanti := curve_antitone h hpos.le hx
  have hpoint : curve function initial minimum decay decay = minimum := by
    rw [curve, if_neg (by rw [hfunction]; decide), div_mul_cancel₀ _ (by positivity)]
    push_cast
    ring
  rwa [hpoint] at hanti

/-- What the value is rounded to. -/
theorem exactValue_eq {solveCount : ℕ} (hcount : solveCount < 2 ^ 63) :
    exactValue function initial minimum decay solveCount =
      some (max ⌈curve function initial minimum decay ((solveCount - 1 : ℕ) : ℚ)⌉ minimum) := by
  have hi64 : inI64 ((solveCount : ℤ) - 1) = some ((solveCount : ℤ) - 1) := by
    unfold inI64
    apply if_pos
    constructor
    · omega
    · omega
  have hadjusted : (max ((solveCount : ℤ) - 1) 0 : ℤ) = ((solveCount - 1 : ℕ) : ℤ) := by omega
  have hle : ⌈curve function initial minimum decay ((solveCount - 1 : ℕ) : ℚ)⌉ ≤ initial := by
    rw [Int.ceil_le]
    have hanti := curve_antitone h (le_refl 0) (Nat.cast_nonneg (solveCount - 1) : (0 : ℚ) ≤ _)
    rwa [curve_zero] at hanti
  have hinitial := h.initial_i32.2
  have hminimum := h.minimum_nonneg
  simp only [exactValue, hi64, Option.bind_eq_bind, Option.bind_some, hadjusted, Int.cast_natCast,
    calculated_eq h]
  -- rounding stays within 32 bits
  rw [asI32]
  congr 1
  omega

end Curve

/-- **The value of a dynamic challenge falls from its initial value to its minimum**: for any two
numbers of solves, both values exist, they lie between the two and in their order; up to the
first solve it is the initial value, and the logarithmic function comes to the minimum `decay`
solves later. -/
theorem exact_values {row : ScoringRow} (h : Accepted row) {m n : ℕ} (hmn : m ≤ n)
    (hn : n < 2 ^ 63) :
    ∃ initial minimum decay v w, row.initial = some initial ∧ row.minimum = some minimum ∧
      row.decay = some decay ∧ row.exactly m = some v ∧ row.exactly n = some w ∧
      minimum ≤ w ∧ w ≤ v ∧ v ≤ initial ∧ (m ≤ 1 → v = initial) ∧
      (row.function = some "logarithmic" → decay ≤ (n : ℤ) - 1 → w = minimum) := by
  obtain ⟨function, initial, minimum, decay, hrow⟩ := h.dynamic
  have hexactly : ∀ k : ℕ, k < 2 ^ 63 → row.exactly k =
      some (max ⌈curve function initial minimum decay ((k - 1 : ℕ) : ℚ)⌉ minimum) := by
    intro k hk
    have hstatic : function ≠ "static" := by
      rcases hrow.functions with rfl | rfl <;> decide
    have hdecay : max decay 1 = decay := max_eq_left hrow.decay_pos
    simp only [ScoringRow.exactly, hrow.function_eq, hrow.initial_eq, hrow.minimum_eq,
      hrow.decay_eq, Option.getD_some, if_neg hstatic, hdecay, exactValue_eq hrow hk]
  refine ⟨initial, minimum, decay, _, _, hrow.initial_eq, hrow.minimum_eq, hrow.decay_eq,
    hexactly m (by omega), hexactly n hn, le_max_right _ _, ?_, ?_, ?_, ?_⟩
  · apply max_le_max_right
    apply Int.ceil_mono
    refine curve_antitone hrow (Nat.cast_nonneg _) ?_
    exact_mod_cast (by omega : m - 1 ≤ n - 1)
  · refine max_le ?_ hrow.minimum_le
    rw [Int.ceil_le]
    have hanti := curve_antitone hrow (le_refl 0) (Nat.cast_nonneg (m - 1) : (0 : ℚ) ≤ _)
    rwa [curve_zero] at hanti
  · intro hm
    have hzero : m - 1 = 0 := by omega
    rw [hzero, Nat.cast_zero, curve_zero, Int.ceil_intCast]
    exact max_eq_left hrow.minimum_le
  · intro hfunction hpoint
    apply max_eq_right
    rw [Int.ceil_le]
    refine curve_le_minimum hrow ?_ ?_
    · rw [hrow.function_eq] at hfunction
      exact Option.some.inj hfunction
    · exact_mod_cast (by omega : decay ≤ ((n - 1 : ℕ) : ℤ))

/-- A challenge as it is created. -/
def dynamicObject : Json :=
  .object [("type", .string "dynamic"), ("value", .string "500"), ("minimum", .string "100"),
    ("decay", .string "20")]

/-- Its scoring. -/
def dynamicRow : ScoringRow :=
  ⟨7, some "logarithmic", some 500, some 100, some 20, some 500⟩

theorem accepted_dynamicRow : Accepted dynamicRow := by
  apply Accepted.create (show optionalString dynamicObject "type" = _ from ?_)
    (show createScoring 7 dynamicObject = _ from ?_)
  · decide +kernel
  · decide +kernel

example : dynamicRow.exactly 11 = some 400 := by decide +kernel

/-- One solve and forty. -/
theorem exact_values_forty :
    ∃ initial minimum decay v w, dynamicRow.initial = some initial ∧
      dynamicRow.minimum = some minimum ∧ dynamicRow.decay = some decay ∧
      dynamicRow.exactly 1 = some v ∧ dynamicRow.exactly 40 = some w ∧
      minimum ≤ w ∧ w ≤ v ∧ v ≤ initial ∧ (1 ≤ 1 → v = initial) ∧
      (dynamicRow.function = some "logarithmic" → decay ≤ ((40 : ℕ) : ℤ) - 1 → w = minimum) :=
  exact_values accepted_dynamicRow (m := 1) (n := 40) (by decide) (by decide)

end CtfZone.Contests
