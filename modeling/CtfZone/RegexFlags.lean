/-
# Regex flags

`compile_regex` puts the text of a regex flag between `^(?:` and `)$`.

* `Follows` : the crate reads texts in a documented dialect, and looks for a part
  of the string that matches;
* `Anchored` : the matches of a flag lie in the language of its own text;
* `anchored_iff` : they do exactly when that text is an expression by itself;
* `unbalanced_matches_prefix` : a text that closes a group it does not open is
  accepted, and matches by what the string starts with.
-/
import CtfZone.RegexSyntax
import CtfZone.Submissions

open RegexSyntax

namespace CtfZone.Submissions

/-! ## The crate -/

/-- What the crate compiles is an expression of the dialect, and it matches the
strings of which some part matches. -/
def Follows (crates : Crates) (D : Dialect) : Prop :=
  ∀ text ignoreCase isMatch, crates.regex text ignoreCase = some isMatch →
    ∃ e, D.IsExpression ignoreCase text.toList e ∧
      ∀ haystack, isMatch haystack = true ↔ D.Matches haystack.toList e

/-- The string belongs to the language of the pattern on its own. -/
def InLanguage (D : Dialect) (e : Expr D.Atom D.Repetition) (provided : String) : Prop :=
  D.spans provided.toList e 0 provided.toList.length

/-- The pattern has a language on its own, and what the flag matches belongs to
it as a whole. -/
def Anchored (crates : Crates) (D : Dialect) (pattern : String) (caseSensitive : Bool) : Prop :=
  ∃ e, D.IsExpression (! caseSensitive) pattern.toList e ∧
    ∀ provided, flagMatchesRegex crates pattern provided caseSensitive = .ok true →
      InLanguage D e provided

theorem toList_wrapped (pattern : String) :
    ("^(?:" ++ pattern ++ ")$").toList = wrapped pattern.toList := by
  rw [String.toList_append, String.toList_append]
  rfl

/-- What a flag matches is matched by the wrapped pattern. -/
theorem matches_of_flagMatchesRegex {crates : Crates} {D : Dialect} (hfollows : Follows crates D)
    {pattern provided : String} {caseSensitive : Bool}
    (h : flagMatchesRegex crates pattern provided caseSensitive = .ok true) :
    ∃ w, D.IsExpression (! caseSensitive) (wrapped pattern.toList) w ∧
      D.Matches provided.toList w := by
  unfold flagMatchesRegex compileRegex at h
  by_cases hlong : maxRegexBytes < pattern.utf8ByteSize
  · rw [if_pos hlong] at h
    cases h
  · rw [if_neg hlong] at h
    rcases hcompiled : crates.regex ("^(?:" ++ pattern ++ ")$") (! caseSensitive) with _ | isMatch
    · rw [hcompiled] at h
      cases h
    · rw [hcompiled] at h
      obtain ⟨w, hw, hmatch⟩ := hfollows _ _ _ hcompiled
      rw [toList_wrapped] at hw
      exact ⟨w, hw, (hmatch provided).mp (Except.ok.inj h)⟩

/-- **When a regex flag is anchored.**  Exactly when its pattern is an expression
by itself. -/
theorem anchored_iff (crates : Crates) (D : Dialect) (hdoc : D.Documented)
    (hfollows : Follows crates D) (pattern : String) (caseSensitive : Bool) :
    Anchored crates D pattern caseSensitive ↔
      ∃ e, D.IsExpression (! caseSensitive) pattern.toList e := by
  constructor
  · rintro ⟨e, he, -⟩
    exact ⟨e, he⟩
  · rintro ⟨e, he⟩
    refine ⟨e, he, fun provided h => ?_⟩
    obtain ⟨w, hw, i, j, -, hspan⟩ := matches_of_flagMatchesRegex hfollows h
    exact ((D.wrapped_spans hdoc he hw _ i j).mp hspan).2.2

/-! ## A dialect of letters -/

/-- A letter, or one of the two anchors. -/
inductive LetterAtom
  | start
  | stop
  | letter (c : Char) (ignoreCase : Bool)

/-- The letter `d` of a string matches the letter `c` of an expression. -/
def sameLetter (ignoreCase : Bool) (c d : Char) : Bool :=
  if ignoreCase then c.toLower = d.toLower else c = d

/-- Where a match of the atom from a position ends. -/
def LetterAtom.stops (haystack : List Char) (i : ℕ) : LetterAtom → List ℕ
  | .start => if i = 0 then [0] else []
  | .stop => if i = haystack.length then [haystack.length] else []
  | .letter c ignoreCase => if haystack[i]?.any (sameLetter ignoreCase c) then [i + 1] else []

/-- The first piece of a text of letters, groups, alternatives and anchors. -/
def nextPiece (ignoreCase : Bool) :
    List Char → Option (Piece Bool LetterAtom Empty × List Char)
  | '(' :: '?' :: ':' :: rest => some (.opened ignoreCase, rest)
  | ')' :: rest => some (.closed, rest)
  | '|' :: rest => some (.bar, rest)
  | '^' :: rest => some (.atom .start, rest)
  | '$' :: rest => some (.atom .stop, rest)
  | c :: rest => if c.isAlphanum then some (.atom (.letter c ignoreCase), rest) else none
  | [] => none

theorem nextPiece_letter {c : Char} (h : c.isAlphanum = true) (ignoreCase : Bool)
    (rest : List Char) :
    nextPiece ignoreCase (c :: rest) = some (.atom (.letter c ignoreCase), rest) := by
  unfold nextPiece
  split
  · rename_i heq
    cases heq
    exact absurd h (by decide)
  · rename_i heq
    cases heq
    exact absurd h (by decide)
  · rename_i heq
    cases heq
    exact absurd h (by decide)
  · rename_i heq
    cases heq
    exact absurd h (by decide)
  · rename_i heq
    cases heq
    exact absurd h (by decide)
  · rename_i heq
    cases heq
    rw [if_pos h]
  · rename_i heq
    cases heq

/-- The dialect of letters, groups, alternatives and anchors. -/
def letters : Dialect where
  Flags := Bool
  Atom := LetterAtom
  Repetition := Empty
  initial ignoreCase := ignoreCase
  next := nextPiece
  atomSpans a haystack i j := j ∈ a.stops haystack i
  repeats r := nomatch r

theorem letters_documented : letters.Documented where
  caret ignoreCase rest := by
    refine ⟨.start, rfl, fun haystack i j => ?_⟩
    show j ∈ (if i = 0 then [0] else []) ↔ _
    by_cases h : i = 0
    · simp [h]
    · simp [h]
  group _ _ := rfl
  close _ := rfl
  dollar ignoreCase := by
    refine ⟨.stop, rfl, fun haystack i j => ?_⟩
    show j ∈ (if i = haystack.length then [haystack.length] else []) ↔ _
    by_cases h : i = haystack.length
    · simp [h]
    · simp [h]
  behind flags text piece rest h := by
    left
    change nextPiece flags text = _ at h
    show nextPiece flags _ = _
    unfold nextPiece at h
    split at h
    · cases h
      rfl
    · cases h
      rfl
    · cases h
      rfl
    · cases h
      rfl
    · cases h
      rfl
    · split at h
      · rename_i hletter
        cases h
        exact nextPiece_letter hletter flags _
      · cases h
    · cases h

/-- Where the matches of an expression from a position end. -/
def stops (haystack : List Char) : Expr LetterAtom Empty → ℕ → List ℕ
  | .empty, i => [i]
  | .atom a, i => a.stops haystack i
  | .group e, i => stops haystack e i
  | .repeated r _, _ => nomatch r
  | .concat e₁ e₂, i => (stops haystack e₁ i).flatMap (stops haystack e₂)
  | .alternate e₁ e₂, i => stops haystack e₁ i ++ stops haystack e₂ i

theorem mem_stops {haystack : List Char} {e : Expr LetterAtom Empty} {i j : ℕ} :
    j ∈ stops haystack e i ↔ letters.spans haystack e i j := by
  induction e generalizing i j with
  | empty => exact List.mem_singleton.trans eq_comm
  | atom a => exact Iff.rfl
  | group e ih => exact ih
  | repeated r _ => exact r.elim
  | concat e₁ e₂ ih₁ ih₂ =>
    rw [stops, List.mem_flatMap]
    constructor
    · rintro ⟨k, hk, hj⟩
      exact ⟨k, ih₁.mp hk, ih₂.mp hj⟩
    · rintro ⟨k, hk, hj⟩
      exact ⟨k, ih₁.mpr hk, ih₂.mpr hj⟩
  | alternate e₁ e₂ ih₁ ih₂ =>
    rw [stops, List.mem_append]
    exact or_congr ih₁ ih₂

/-- The expression matches some part of the string. -/
def isMatch (e : Expr LetterAtom Empty) (haystack : String) : Bool :=
  (List.range (haystack.toList.length + 1)).any fun i => ! (stops haystack.toList e i).isEmpty

theorem isMatch_iff (e : Expr LetterAtom Empty) (haystack : String) :
    isMatch e haystack = true ↔ letters.Matches haystack.toList e := by
  unfold isMatch Dialect.Matches
  rw [List.any_eq_true]
  constructor
  · rintro ⟨i, hi, hstops⟩
    obtain ⟨j, hj⟩ := List.exists_mem_of_ne_nil _ (by simpa using hstops)
    exact ⟨i, j, Nat.lt_succ_iff.mp (List.mem_range.mp hi), mem_stops.mp hj⟩
  · rintro ⟨i, j, hi, hspan⟩
    refine ⟨i, List.mem_range.mpr (Nat.lt_succ_of_le hi), ?_⟩
    have hj := mem_stops.mpr hspan
    simpa using List.ne_nil_of_mem hj

/-- The crate on texts of the dialect; it refuses all others. -/
def letterCrates : Crates :=
  { plainCrates with
    regex := fun text ignoreCase =>
      match readText (D := letters) text.length [{ flags := ignoreCase }] text.toList with
      | some [level] => some (isMatch level.expr)
      | _ => none }

theorem letterCrates_follows : Follows letterCrates letters := by
  intro text ignoreCase found h
  change (match readText (D := letters) text.length [{ flags := ignoreCase }] text.toList with
    | some [level] => some (isMatch level.expr)
    | _ => none) = some found at h
  split at h
  · rename_i level hread
    cases h
    exact ⟨level.expr, ⟨level, readText_parses hread, rfl⟩, isMatch_iff level.expr⟩
  · cases h

/-- The pattern `ab` is an expression, and as a flag it is anchored. -/
theorem anchored_iff_letters :
    Anchored letterCrates letters "ab" true ↔
      ∃ e, letters.IsExpression (! true) "ab".toList e :=
  anchored_iff letterCrates letters letters_documented letterCrates_follows "ab" true

/-- The pattern `a)|(?:b` is no expression: it closes a group it does not open. -/
theorem not_isExpression_unbalanced (e : Expr LetterAtom Empty) :
    ¬ letters.IsExpression false "a)|(?:b".toList e := by
  rintro ⟨level, hparses, -⟩
  rcases hparses with _ | ⟨-, hnext, hstep, hrest⟩
  cases hnext
  cases hstep
  rcases hrest with _ | ⟨-, hnext, hstep, -⟩
  cases hnext
  cases hstep

theorem unbalanced_accepted :
    normalizeDefinition letterCrates "regex" "a)|(?:b" .null "public" =
      .ok ("regex", "a)|(?:b", FlagPolicyData.toValue {}) := by
  have htype : (trim "regex").toLower = "regex" := by
    rw [← String.toList_inj]
    exact String.toList_map.trans rfl
  have htrim : trim "a)|(?:b" = "a)|(?:b" := rfl
  have hcontent : ensure ("a)|(?:b" ≠ "" && "a)|(?:b".utf8ByteSize ≤ maxFlagBytes &&
      ! "a)|(?:b".toList.any isControl) "Flag content is invalid" = .ok () := rfl
  have hcheck : checkDefinition letterCrates "regex" "a)|(?:b" {} "public" = .ok () := rfl
  unfold normalizeDefinition
  dsimp only
  rw [htype, htrim, hcontent]
  show (do checkDefinition letterCrates "regex" "a)|(?:b" {} "public"; _) = _
  rw [hcheck]
  rfl

/-- The pattern `a)|(?:b` is accepted, and the flag matches `ax` by its first
letter. -/
theorem unbalanced_matches_prefix :
    ¬ ∀ (crates : Crates) (D : Dialect), D.Documented → Follows crates D →
      ∀ (type text pattern exposure : String) (options data : Json) (provided : String)
        (caseSensitive : Bool),
        normalizeDefinition crates type text options exposure = .ok ("regex", pattern, data) →
        flagMatchesRegex crates pattern provided caseSensitive = .ok true →
        ∃ e, D.IsExpression (! caseSensitive) pattern.toList e ∧ InLanguage D e provided := by
  intro h
  obtain ⟨e, he, -⟩ := h letterCrates letters letters_documented letterCrates_follows "regex"
    "a)|(?:b" "a)|(?:b" "public" .null (FlagPolicyData.toValue {}) "ax" true unbalanced_accepted
    (by decide +kernel)
  exact not_isExpression_unbalanced e he

end CtfZone.Submissions
