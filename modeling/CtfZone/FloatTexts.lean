/-
# Texts of binary64 numbers

The decimal texts that Rust's `f64::from_str` and Python's `float` read.  Both
know the same numerals and round to the nearest value; Python also takes white
space around a numeral, underscores between its digits and the digits and blanks
of other scripts.

* `parseF64` : the numerals themselves;
* `pythonFloat` : the text is prepared first, then read in the same way;
* `pythonFloat_eq_parseF64` : a text Rust reads has the same value in Python.
-/
import Mathlib.Data.List.TakeWhile
import Mathlib.Data.Nat.Notation
import Mathlib.Data.Int.Notation
import Mathlib.Tactic.Common

namespace FloatTexts

/-! ## Numerals -/

/-- An optional sign, and whether it is a minus. -/
def takeSign : List Char → Bool × List Char
  | '-' :: s => (true, s)
  | '+' :: s => (false, s)
  | s => (false, s)

/-- The whole digits, the digits after the point, and what follows. -/
def takeMantissa (s : List Char) : List Char × List Char × List Char :=
  match s.dropWhile Char.isDigit with
  | '.' :: rest =>
    (s.takeWhile Char.isDigit, rest.takeWhile Char.isDigit, rest.dropWhile Char.isDigit)
  | rest => (s.takeWhile Char.isDigit, [], rest)

/-- The exponent a numeral ends with, `0` if it has none. -/
def exponent : List Char → Option ℤ
  | [] => some 0
  | c :: s =>
    if c = 'e' ∨ c = 'E' then
      match takeSign s with
      | (negative, digits) =>
        if digits ≠ [] ∧ digits.all Char.isDigit then
          let n : ℤ := Nat.ofDigitChars 10 digits 0
          some (if negative then -n else n)
        else none
    else none

/-- `m * 10 ^ e`, rounded to the nearest value. -/
def nearest (m : ℕ) (e : ℤ) : Float := Float.ofScientific m (e < 0) e.natAbs

/-- A numeral without its sign. -/
def parseMagnitude (s : List Char) : Option Float :=
  let word := s.map Char.toLower
  if word = ['i', 'n', 'f'] ∨ word = ['i', 'n', 'f', 'i', 'n', 'i', 't', 'y'] then
    some (1.0 / 0.0)
  else if word = ['n', 'a', 'n'] then some (0.0 / 0.0)
  else
    match takeMantissa s with
    | (whole, fraction, rest) =>
      if whole = [] ∧ fraction = [] then none
      else
        (exponent rest).map fun e =>
          nearest (Nat.ofDigitChars 10 (whole ++ fraction) 0) (e - fraction.length)

/-- `f64::from_str`. -/
def parseF64 (s : List Char) : Option Float :=
  match takeSign s with
  | (negative, rest) => (parseMagnitude rest).map fun x => if negative then -x else x

/-! ## What Python prepares -/

/-- `Py_ISSPACE`. -/
def isSpace (c : Char) : Bool := c.toNat = 32 || (9 ≤ c.toNat && c.toNat ≤ 13)

/-- The underscores of a text are dropped; each must stand between two digits. -/
def dropUnderscores (previous : Char) : List Char → Option (List Char)
  | [] => if previous = '_' then none else some []
  | '_' :: s => if previous.isDigit then dropUnderscores '_' s else none
  | c :: s =>
    if previous = '_' ∧ ! c.isDigit then none
    else (dropUnderscores c s).map (c :: ·)

/-- `float(text)`.  Beyond ASCII, `fold` puts the digit of the same value and the
blank in the place of the digits and blanks of other scripts. -/
def pythonFloat (fold : Char → Char) (s : List Char) : Option Float :=
  let ascii := s.map fun c => if c.toNat < 128 then c else fold c
  let stripped := (ascii.dropWhile isSpace).reverse.dropWhile isSpace |>.reverse
  (dropUnderscores '\x00' stripped).bind parseF64

/-! ## A numeral needs no preparation -/

/-- A character a numeral can have: ASCII, no blank and no underscore. -/
def Plain (c : Char) : Prop := c.toNat < 128 ∧ isSpace c = false ∧ c ≠ '_'

theorem isUpper_iff {c : Char} : c.isUpper = true ↔ 65 ≤ c.toNat ∧ c.toNat ≤ 90 := by
  unfold Char.isUpper
  simp only [ge_iff_le, decide_eq_true_eq, UInt32.le_iff_toNat_le]
  exact Iff.rfl

theorem isLower_iff {c : Char} : c.isLower = true ↔ 97 ≤ c.toNat ∧ c.toNat ≤ 122 := by
  unfold Char.isLower
  simp only [ge_iff_le, Bool.and_eq_true, decide_eq_true_eq, UInt32.le_iff_toNat_le]
  exact Iff.rfl

theorem isDigit_iff {c : Char} : c.isDigit = true ↔ 48 ≤ c.toNat ∧ c.toNat ≤ 57 := by
  unfold Char.isDigit
  simp only [ge_iff_le, Bool.and_eq_true, decide_eq_true_eq, UInt32.le_iff_toNat_le]
  exact Iff.rfl

theorem isAlphanum_eq (c : Char) : c.isAlphanum = (c.isUpper || c.isLower || c.isDigit) := rfl

theorem plain_of_isDigit {c : Char} (h : c.isDigit = true) : Plain c := by
  rw [isDigit_iff] at h
  obtain ⟨hlow, hhigh⟩ := h
  refine ⟨by omega, ?_, ?_⟩
  · simp only [isSpace, Bool.or_eq_false_iff, Bool.and_eq_false_iff, decide_eq_false_iff_not]
    omega
  · rintro rfl
    exact absurd hhigh (by decide)

theorem plain_of_mem_word {c : Char} {word : List Char} (hword : c.toLower ∈ word)
    (hletters : ∀ d ∈ word, Plain d) : Plain c := by
  unfold Char.toLower at hword
  split at hword
  · rename_i hupper
    simp only [ge_iff_le, UInt32.le_iff_toNat_le] at hupper
    have hlow : 65 ≤ c.toNat := hupper.1
    have hhigh : c.toNat ≤ 90 := hupper.2
    refine ⟨by omega, ?_, ?_⟩
    · simp only [isSpace, Bool.or_eq_false_iff, Bool.and_eq_false_iff, decide_eq_false_iff_not]
      omega
    · rintro rfl
      exact absurd hhigh (by decide)
  · exact hletters c hword

/-- A character of a numeral in digits. -/
def isNumeralChar (c : Char) : Bool := c.isDigit || ['.', 'e', 'E', '+', '-'].contains c

theorem isNumeralChar_of_isDigit {c : Char} (h : c.isDigit = true) : isNumeralChar c = true := by
  simp [isNumeralChar, h]

theorem plain_of_isNumeralChar {c : Char} (h : isNumeralChar c = true) : Plain c := by
  simp only [isNumeralChar, Bool.or_eq_true, List.contains_iff_mem, List.mem_cons,
    List.not_mem_nil, or_false] at h
  rcases h with h | rfl | rfl | rfl | rfl | rfl
  · exact plain_of_isDigit h
  all_goals simp [Plain, isSpace]

theorem takeSign_forall {P : Char → Prop} (hminus : P '-') (hplus : P '+') {s : List Char}
    (h : ∀ c ∈ (takeSign s).2, P c) : ∀ c ∈ s, P c := by
  unfold takeSign at h
  split at h
  · exact List.forall_mem_cons.mpr ⟨hminus, h⟩
  · exact List.forall_mem_cons.mpr ⟨hplus, h⟩
  · exact h

theorem takeWhile_isDigit_numeral (s : List Char) :
    ∀ c ∈ s.takeWhile Char.isDigit, isNumeralChar c = true :=
  fun _ hc => isNumeralChar_of_isDigit (List.mem_takeWhile_imp hc)

theorem takeMantissa_numeral {s : List Char}
    (h : ∀ c ∈ (takeMantissa s).2.2, isNumeralChar c = true) :
    ∀ c ∈ s, isNumeralChar c = true := by
  intro c hc
  rw [← List.takeWhile_append_dropWhile (p := Char.isDigit) (l := s)] at hc
  rcases List.mem_append.mp hc with hc | hc
  · exact takeWhile_isDigit_numeral s c hc
  · unfold takeMantissa at h
    split at h
    · rename_i rest heq
      rw [heq, List.mem_cons, ← List.takeWhile_append_dropWhile (p := Char.isDigit) (l := rest),
        List.mem_append] at hc
      rcases hc with rfl | hc | hc
      · rfl
      · exact takeWhile_isDigit_numeral rest c hc
      · exact h c hc
    · exact h c hc

theorem exponent_numeral {s : List Char} {e : ℤ} (h : exponent s = some e) :
    ∀ c ∈ s, isNumeralChar c = true := by
  cases s with
  | nil => simp
  | cons c s =>
      simp only [exponent] at h
      split at h
      · rename_i hletter
        split at h
        · rename_i hdigits
          refine List.forall_mem_cons.mpr ⟨?_, takeSign_forall (by rfl) (by rfl) fun d hd => ?_⟩
          · rcases hletter with rfl | rfl <;> rfl
          · exact isNumeralChar_of_isDigit (List.all_eq_true.mp hdigits.2 d hd)
        · cases h
      · cases h

/-- A text without a sign that is read is a numeral in digits, or a word for a
value that is not finite. -/
theorem parseMagnitude_chars {s : List Char} {x : Float} (h : parseMagnitude s = some x) :
    (∀ c ∈ s, isNumeralChar c = true) ∨
      (∃ word, (∀ d ∈ word, Plain d) ∧ s.map Char.toLower = word) ∧
        (x = 1.0 / 0.0 ∨ x = 0.0 / 0.0) := by
  simp only [parseMagnitude] at h
  split at h
  · rename_i heq
    cases h
    refine .inr ⟨⟨_, ?_, rfl⟩, .inl rfl⟩
    rcases heq with heq | heq <;> simp [heq, Plain, isSpace]
  · split at h
    · rename_i heq
      cases h
      exact .inr ⟨⟨_, by simp [heq, Plain, isSpace], rfl⟩, .inr rfl⟩
    · split at h
      · cases h
      · obtain ⟨e, he, -⟩ := Option.map_eq_some_iff.mp h
        exact .inl (takeMantissa_numeral (exponent_numeral he))

/-- Every character of a numeral is plain. -/
theorem parseF64_plain {s : List Char} {x : Float} (h : parseF64 s = some x) :
    ∀ c ∈ s, Plain c := by
  obtain ⟨y, hy, -⟩ := Option.map_eq_some_iff.mp h
  refine takeSign_forall (by simp [Plain, isSpace]) (by simp [Plain, isSpace]) ?_
  rcases parseMagnitude_chars hy with hdigits | ⟨⟨word, hletters, heq⟩, -⟩
  · exact fun c hc => plain_of_isNumeralChar (hdigits c hc)
  · exact fun c hc => plain_of_mem_word (heq ▸ List.mem_map_of_mem hc) hletters

/-- A finite value is written in digits. -/
theorem parseF64_finite {s : List Char} {x : Float} (h : parseF64 s = some x)
    (hfinite : x.isFinite = true) : ∀ c ∈ s, isNumeralChar c = true := by
  have hinfinite : ∀ y : Float, y = 1.0 / 0.0 ∨ y = 0.0 / 0.0 → ∀ negative : Bool,
      (if negative = true then -y else y).isFinite = false := by
    rintro y (rfl | rfl)
    all_goals decide +kernel
  obtain ⟨y, hy, rfl⟩ := Option.map_eq_some_iff.mp h
  refine takeSign_forall (by rfl) (by rfl) ?_
  rcases parseMagnitude_chars hy with hdigits | ⟨-, hword⟩
  · exact hdigits
  · rw [hinfinite y hword] at hfinite
    cases hfinite

theorem dropUnderscores_of_plain {s : List Char} (h : ∀ c ∈ s, Plain c) (previous : Char)
    (hprevious : previous ≠ '_') : dropUnderscores previous s = some s := by
  induction s generalizing previous with
  | nil => simp [dropUnderscores, hprevious]
  | cons c s ih =>
      obtain ⟨hc, hs⟩ := List.forall_mem_cons.mp h
      rw [dropUnderscores.eq_3 _ _ _ hc.2.2, if_neg fun h => hprevious h.1, ih hs c hc.2.2]
      rfl

theorem dropWhile_isSpace_of_plain {s : List Char} (h : ∀ c ∈ s, Plain c) :
    s.dropWhile isSpace = s := by
  cases s with
  | nil => rfl
  | cons c s => simp [(h c List.mem_cons_self).2.1]

/-- A text that Rust reads has the same value in Python. -/
theorem pythonFloat_eq_parseF64 {fold : Char → Char} {s : List Char} {x : Float}
    (h : parseF64 s = some x) : pythonFloat fold s = some x := by
  have hplain := parseF64_plain h
  have hascii : (s.map fun c => if c.toNat < 128 then c else fold c) = s := by
    refine (List.map_congr_left fun c hc => ?_).trans s.map_id
    rw [if_pos (hplain c hc).1]
    rfl
  have hreverse : ∀ c ∈ s.reverse, Plain c := fun c hc => hplain c (List.mem_reverse.mp hc)
  simp only [pythonFloat, hascii, dropWhile_isSpace_of_plain hplain,
    dropWhile_isSpace_of_plain hreverse, List.reverse_reverse,
    dropUnderscores_of_plain hplain '\x00' (by decide), Option.bind_some, h]

/-- Python also takes blanks and underscores. -/
example : (pythonFloat id [' ', '1', '_', '0', '.', '5', ' ']).map Float.toBits =
    (parseF64 ['1', '0', '.', '5']).map Float.toBits := by decide +kernel

end FloatTexts
