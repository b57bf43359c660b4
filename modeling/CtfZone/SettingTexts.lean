/-
# The texts of settings

What the values of settings are read and written by (`configuration.rs`, `browser_auth.rs`):
booleans, integers, and lists of domain rules.

A list of domain rules is saved with its rules normalised and joined by a comma and a space.
It is read back as it is (`normalizeDomainRules_joined`), but it may have grown: a comma alone
was enough to tell two rules apart.
-/
import CtfZone.AccountTransactions
import CtfZone.Profiles
import Mathlib.Data.Bool.AllAny

namespace CtfZone.Configuration

open Accounts (toAsciiLowercase)
open Journal (isWhitespace)
open Scoreboard (parseI64 digitsValue)

/-- A character takes four bytes at most. -/
theorem utf8Length_le (text : List Char) : utf8Length text ≤ 4 * text.length := by
  induction text with
  | nil => exact Nat.le_refl 0
  | cons c text ih =>
      have hfour := Char.utf8Size_le_four c
      rw [utf8Length_cons, List.length_cons]
      omega

/-! ## Booleans and integers -/

/-- `parse_bool_text`. -/
def parseBoolText (value : String) : Option Bool :=
  let text := toAsciiLowercase (trim value)
  if text ∈ ["true", "1", "yes", "on"] then some true
  else if text ∈ ["false", "0", "no", "off"] then some false
  else none

/-- `parse_bool`. -/
def parseBool : Json → Except String Bool
  | .bool value => .ok value
  | .string value => Submissions.required (parseBoolText value) "Setting must be a boolean"
  | _ => .error "Setting must be a boolean"

/-- `bool::to_string`. -/
def boolText (value : Bool) : String := if value then "true" else "false"

/-- `parse_integer`. -/
def parseInteger (value : Json) (nullable : Bool) : Except String (Option ℤ) :=
  match value with
  | .null => if nullable then .ok none else .error "Setting must be an integer"
  | .string text =>
    if nullable && trim text = "" then .ok none
    else (Submissions.required (parseI64 (trim text)) "Setting must be an integer").map some
  | .number text =>
    (Submissions.required (Json.number text).asI64 "Setting must be an integer").map some
  | _ => .error "Setting must be an integer"

/-! ## Domain rules -/

/-- A character of a label. -/
def isLabelChar (c : Char) : Bool := c.isAlphanum || c = '-'

/-- A label of a domain. -/
def validLabel (label : List Char) : Bool :=
  ! label.isEmpty && utf8Length label ≤ 63 && label.all isLabelChar &&
    label.head?.any Char.isAlphanum && label.getLast?.any Char.isAlphanum

/-- `valid_dns_domain`. -/
def validDnsDomain (domain : List Char) : Bool :=
  utf8Length domain ≤ 253 && domain.contains '.' && (domain.splitOn '.').all validLabel

/-- `strip_prefix("*.")`, or the rule. -/
def stripWildcard : List Char → List Char
  | '*' :: '.' :: domain => domain
  | rule => rule

/-- `normalize_domain_rule`. -/
def normalizeDomainRule (rule : String) : Option String :=
  let rule := toAsciiLowercase (trim rule)
  if (rule.toList.contains '*' && ! ['*', '.'].isPrefixOf rule.toList) ||
      ! validDnsDomain (stripWildcard rule.toList) then none
  else some rule

/-- The body of the loop of `normalize_domain_rules`. -/
def addRule (normalized : List String) (rule : String) : Except String (List String) := do
  let rule ← Submissions.required (normalizeDomainRule rule)
    "Email domain rules must be exact domains or wildcard subdomains such as *.example.org"
  pure (if normalized.contains rule then normalized else normalized ++ [rule])

/-- `split(',')`, each part trimmed, and the empty ones left out. -/
def splitRules (value : String) : List String :=
  ((value.toList.splitOn ',').map fun rule => trim (String.ofList rule)).filter (· ≠ "")

/-- `join`. -/
def joinRules (separator : List Char) (rules : List String) : String :=
  String.ofList (separator.intercalate (rules.map String.toList))

/-- `normalize_domain_rules`. -/
def normalizeDomainRules (value : String) : Except String String :=
  ((splitRules value).foldlM addRule []).map (joinRules [',', ' '])

/-! ## Other texts -/

/-- `normalize_ctf_name`. -/
def normalizeCtfName (value : String) : Except String String := do
  let value := trim value
  ensure (value ≠ "" && value.length ≤ 128 && ! value.toList.any isControl)
    "CTF name must be between 1 and 128 characters and contain no control characters"
  pure value

/-- `validate_player_frontend`. -/
def validatePlayerFrontend (value : String) : Except String Unit :=
  let validFirst := value.toList.head?.any fun c => c.isLower || c.isDigit
  let validRest := value.toList.tail.all fun c => c.isLower || c.isDigit || c = '_' || c = '-'
  ensure (value.utf8ByteSize ≤ 64 && validFirst && validRest)
    "Player frontend must be a lowercase slug of at most 64 characters"

/-! ## What is written is read back -/

theorem parseBoolText_boolText (value : Bool) : parseBoolText (boolText value) = some value := by
  cases value <;> decide +kernel

theorem digitsValue_toDigits (n : ℕ) : digitsValue (Nat.toDigits 10 n) = some (n : ℤ) := by
  have hdigits : (Nat.toDigits 10 n).all Char.isDigit = true := by
    rw [List.all_eq_true]
    intro c hc
    exact Nat.isDigit_of_mem_toDigits (by omega) (by omega) hc
  rw [digitsValue, if_pos ⟨Nat.toDigits_ne_nil, hdigits⟩, Nat.ofDigitChars_ten_toDigits]

theorem parseI64_of_digits {text : String} (h : ∀ c ∈ text.toList, c.isDigit = true) :
    parseI64 text = (digitsValue text.toList).filter fun n => -2 ^ 63 ≤ n ∧ n < 2 ^ 63 := by
  unfold parseI64
  dsimp only
  split
  · rename_i heq
    exact absurd (h '-' (heq ▸ List.mem_cons_self)) (by decide)
  · rename_i heq
    exact absurd (h '+' (heq ▸ List.mem_cons_self)) (by decide)
  · rfl

theorem toList_toString (n : ℕ) : (toString (n : ℤ)).toList = Nat.toDigits 10 n := Nat.toList_repr

theorem toString_ne_empty (n : ℕ) : toString (n : ℤ) ≠ "" := by
  intro heq
  have htext := toList_toString n
  rw [heq] at htext
  exact Nat.toDigits_ne_nil htext.symm

theorem isDigit_toString {n : ℕ} {c : Char} (hc : c ∈ (toString (n : ℤ)).toList) :
    c.isDigit = true := by
  rw [toList_toString] at hc
  exact Nat.isDigit_of_mem_toDigits (by omega) (by omega) hc

/-- A number is read as what it was written from. -/
theorem parseI64_toString {n : ℕ} (h : n < 2 ^ 63) : parseI64 (toString (n : ℤ)) = some (n : ℤ) := by
  rw [parseI64_of_digits fun c => isDigit_toString, toList_toString, digitsValue_toDigits,
    Option.filter_some, if_pos]
  simp only [decide_eq_true_eq]
  omega

/-- A character of a text that is neither trimmed nor refused. -/
def Graphic (c : Char) : Prop := 33 ≤ c.toNat ∧ c.toNat ≤ 126

instance (c : Char) : Decidable (Graphic c) := inferInstanceAs (Decidable (_ ∧ _))

theorem Graphic.notWhitespace {c : Char} (h : Graphic c) : isWhitespace c = false := by
  obtain ⟨hlow, hhigh⟩ := h
  simp only [isWhitespace, Bool.or_eq_false_iff, Bool.and_eq_false_iff, decide_eq_false_iff_not]
  omega

theorem Graphic.notControl {c : Char} (h : Graphic c) : isControl c = false := by
  obtain ⟨hlow, hhigh⟩ := h
  simp only [isControl, Bool.or_eq_false_iff, Bool.and_eq_false_iff, decide_eq_false_iff_not]
  omega

theorem Graphic.utf8Size {c : Char} (h : Graphic c) : c.utf8Size = 1 := by
  refine Char.utf8Size_eq_one_iff.mpr (UInt32.le_iff_toNat_le.mpr ?_)
  have hval : c.val.toNat = c.toNat := rfl
  rw [hval]
  exact h.2.trans (by decide)

theorem graphic_of_isAlphanum {c : Char} (h : c.isAlphanum = true) : Graphic c := by
  rw [FloatTexts.isAlphanum_eq, Bool.or_eq_true, Bool.or_eq_true, FloatTexts.isUpper_iff,
    FloatTexts.isLower_iff, FloatTexts.isDigit_iff] at h
  unfold Graphic
  omega

/-- A number has no blanks around it. -/
theorem trim_toString (n : ℕ) : trim (toString (n : ℤ)) = toString (n : ℤ) := by
  refine trim_of_forall fun c hc => (graphic_of_isAlphanum ?_).notWhitespace
  rw [FloatTexts.isAlphanum_eq, isDigit_toString hc, Bool.or_true]

/-! ## A normalised rule -/

theorem toLower_of_not {c : Char} (h : ¬ (c.val ≥ 'A'.val ∧ c.val ≤ 'Z'.val)) :
    c.toLower = c := by
  unfold Char.toLower
  rw [dif_neg h]

theorem toLower_toLower (c : Char) : c.toLower.toLower = c.toLower := by
  by_cases hupper : c.val ≥ 'A'.val ∧ c.val ≤ 'Z'.val
  · have hlow : 65 ≤ c.val.toNat := UInt32.le_iff_toNat_le.mp hupper.1
    have hhigh : c.val.toNat ≤ 90 := UInt32.le_iff_toNat_le.mp hupper.2
    have hlower : c.toLower.val.toNat = c.val.toNat + 32 := by
      unfold Char.toLower
      rw [dif_pos hupper]
      change (c.val.toNat + 32) % 2 ^ 32 = _
      omega
    have hagain : ¬ (c.toLower.val ≥ 'A'.val ∧ c.toLower.val ≤ 'Z'.val) := by
      rintro ⟨-, hle⟩
      have := UInt32.le_iff_toNat_le.mp hle
      change c.toLower.val.toNat ≤ 90 at this
      omega
    exact toLower_of_not hagain
  · rw [toLower_of_not hupper, toLower_of_not hupper]

theorem toAsciiLowercase_toAsciiLowercase (value : String) :
    toAsciiLowercase (toAsciiLowercase value) = toAsciiLowercase value := by
  rw [toAsciiLowercase, toAsciiLowercase, String.toList_ofList, List.map_map]
  congr 2
  funext c
  exact toLower_toLower c

theorem mem_intercalate {α : Type} {a : α} {separator : List α} {parts : List (List α)}
    (h : a ∈ separator.intercalate parts) : a ∈ separator ∨ ∃ part ∈ parts, a ∈ part := by
  induction parts with
  | nil => cases h
  | cons part parts ih =>
      rcases parts with _ | ⟨part', parts⟩
      · rw [List.intercalate_singleton] at h
        exact .inr ⟨part, List.mem_cons_self, h⟩
      · rw [List.intercalate_cons_cons, List.mem_append, List.mem_append] at h
        rcases h with (h | h) | h
        · exact .inr ⟨part, List.mem_cons_self, h⟩
        · exact .inl h
        · rcases ih h with hsep | ⟨part'', hpart, hmem⟩
          · exact .inl hsep
          · exact .inr ⟨part'', List.mem_cons_of_mem _ hpart, hmem⟩

theorem graphic_of_validDnsDomain {domain : List Char} (h : validDnsDomain domain = true) {c : Char}
    (hc : c ∈ domain) : Graphic c ∧ c ≠ ',' := by
  simp only [validDnsDomain, Bool.and_eq_true, List.all_eq_true] at h
  have hjoin : ['.'].intercalate (domain.splitOn '.') = domain := List.intercalate_splitOn '.'
  rw [← hjoin] at hc
  rcases mem_intercalate hc with hdot | ⟨label, hlabel, hmem⟩
  · rw [List.mem_singleton.mp hdot]
    exact ⟨by unfold Graphic; decide, by decide⟩
  · have hvalid := h.2 label hlabel
    simp only [validLabel, Bool.and_eq_true, List.all_eq_true] at hvalid
    have hchar := hvalid.1.1.2 c hmem
    simp only [isLabelChar, Bool.or_eq_true, decide_eq_true_eq] at hchar
    rcases hchar with hchar | rfl
    · refine ⟨graphic_of_isAlphanum hchar, ?_⟩
      rintro rfl
      exact absurd hchar (by decide)
    · exact ⟨by unfold Graphic; decide, by decide⟩

/-- What a rule is made of that is saved. -/
structure Rule (rule : String) : Prop where
  normal : normalizeDomainRule rule = some rule
  graphic : ∀ c ∈ rule.toList, Graphic c ∧ c ≠ ','
  nonempty : rule ≠ ""

theorem mem_stripWildcard {rule : List Char} {c : Char} (hc : c ∈ rule) :
    c = '*' ∨ c = '.' ∨ c ∈ stripWildcard rule := by
  unfold stripWildcard
  split
  · rcases List.mem_cons.mp hc with rfl | hc
    · exact .inl rfl
    · rcases List.mem_cons.mp hc with rfl | hc
      · exact .inr (.inl rfl)
      · exact .inr (.inr hc)
  · exact .inr (.inr hc)

/-- **A rule that is normalised is normalised to itself.** -/
theorem rule_of_normalizeDomainRule {text rule : String}
    (h : normalizeDomainRule text = some rule) : Rule rule := by
  unfold normalizeDomainRule at h
  dsimp only at h
  split at h
  · cases h
  · rename_i hvalid
    have hrule : toAsciiLowercase (trim text) = rule := Option.some.inj h
    rw [hrule] at hvalid
    have hdomain : validDnsDomain (stripWildcard rule.toList) = true := by
      simp only [Bool.or_eq_true, not_or, Bool.not_eq_true, Bool.not_eq_false'] at hvalid
      exact hvalid.2
    have hgraphic : ∀ c ∈ rule.toList, Graphic c ∧ c ≠ ',' := by
      intro c hc
      rcases mem_stripWildcard hc with rfl | rfl | hc
      · exact ⟨by unfold Graphic; decide, by decide⟩
      · exact ⟨by unfold Graphic; decide, by decide⟩
      · exact graphic_of_validDnsDomain hdomain hc
    have htrim : trim rule = rule := trim_of_forall fun c hc => (hgraphic c hc).1.notWhitespace
    have hlower : toAsciiLowercase rule = rule := by
      rw [← hrule, toAsciiLowercase_toAsciiLowercase]
    constructor
    case normal =>
      rw [normalizeDomainRule, htrim, hlower]
      exact if_neg hvalid
    case graphic => exact hgraphic
    case nonempty =>
      rintro rfl
      exact absurd hdomain (by decide)

/-! ## Lists of rules -/

theorem Rule.trim_eq {rule : String} (h : Rule rule) : trim rule = rule :=
  trim_of_forall fun c hc => (h.graphic c hc).1.notWhitespace

theorem splitOn_join {blanks : List Char} (hblanks : ',' ∉ blanks) (part : List Char)
    (parts : List (List Char)) (h : ∀ p ∈ part :: parts, ',' ∉ p) :
    ((',' :: blanks).intercalate (part :: parts)).splitOn ',' =
      part :: parts.map (blanks ++ ·) := by
  induction parts generalizing part with
  | nil =>
      rw [List.intercalate_singleton, List.splitOn_eq_singleton (h part List.mem_cons_self)]
      rfl
  | cons part' parts ih =>
      obtain ⟨hpart, hparts⟩ := List.forall_mem_cons.mp h
      obtain ⟨hpart', hrest⟩ := List.forall_mem_cons.mp hparts
      -- The blanks go with the part that follows.
      have hmove : part ++ (',' :: blanks) ++ (',' :: blanks).intercalate (part' :: parts) =
          part ++ ',' :: (',' :: blanks).intercalate ((blanks ++ part') :: parts) := by
        rcases parts with _ | ⟨part'', parts⟩
        · simp [List.intercalate_singleton]
        · simp [List.intercalate_cons_cons]
      have hnot : ',' ∉ blanks ++ part' := by
        rw [List.mem_append]
        exact fun hmem => hmem.elim hblanks hpart'
      rw [List.intercalate_cons_cons, hmove, List.splitOn_append_cons_self_of_not_mem hpart,
        ih (blanks ++ part') (List.forall_mem_cons.mpr ⟨hnot, hrest⟩)]
      rfl

theorem trim_blanks {blanks part : List Char} (h : ∀ c ∈ blanks, isWhitespace c = true) :
    trim (String.ofList (blanks ++ part)) = trim (String.ofList part) := by
  rw [trim, trim, String.toList_ofList, String.toList_ofList, List.dropWhile_append_of_pos h]

/-- **Rules that are joined are read back**, whether blanks follow the commas or not. -/
theorem splitRules_join {blanks : List Char} (hblanks : ∀ c ∈ blanks, isWhitespace c = true)
    {rules : List String} (h : ∀ rule ∈ rules, Rule rule) :
    splitRules (joinRules (',' :: blanks) rules) = rules := by
  have hcomma : ',' ∉ blanks := fun hmem => absurd (hblanks ',' hmem) (by decide)
  have hkeep : rules.filter (· ≠ "") = rules :=
    List.filter_eq_self.mpr fun rule hrule => decide_eq_true (h rule hrule).nonempty
  have hread : ∀ rule ∈ rules, trim (String.ofList rule.toList) = rule := by
    intro rule hrule
    rw [String.ofList_toList, (h rule hrule).trim_eq]
  rw [splitRules, joinRules, String.toList_ofList]
  rcases rules with _ | ⟨rule, rules⟩
  · rfl
  · rw [List.map_cons, splitOn_join hcomma, List.map_cons, List.map_map, List.map_map,
      hread rule List.mem_cons_self]
    · have hrest : rules.map (((fun rule => trim (String.ofList rule)) ∘ (blanks ++ ·)) ∘
          String.toList) = rules := by
        refine (List.map_congr_left fun rule' hrule' => ?_).trans (List.map_id rules)
        exact (trim_blanks hblanks).trans (hread rule' (List.mem_cons_of_mem _ hrule'))
      rw [hrest, hkeep]
    · intro part hpart
      obtain ⟨rule', hrule', rfl⟩ := List.mem_map.mp (List.map_cons ▸ hpart)
      exact fun hmem => ((h rule' hrule').graphic ',' hmem).2 rfl

/-- A rule that is added is normalised, and is not there twice. -/
theorem addRule_rules {normalized result : List String} {text : String}
    (h : addRule normalized text = .ok result)
    (hrules : (∀ rule ∈ normalized, Rule rule) ∧ normalized.Nodup) :
    (∀ rule ∈ result, Rule rule) ∧ result.Nodup := by
  obtain ⟨rule, hrule, h⟩ := bind_eq_ok.mp h
  have hnormal := rule_of_normalizeDomainRule (Submissions.required_eq_ok.mp hrule)
  obtain rfl := Except.ok.inj h
  split
  · exact hrules
  · rename_i hnew
    rw [List.contains_iff_mem] at hnew
    constructor
    · intro rule' hmem
      rcases List.mem_append.mp hmem with hmem | hmem
      · exact hrules.1 rule' hmem
      · rw [List.mem_singleton.mp hmem]
        exact hnormal
    · rw [List.nodup_append]
      refine ⟨hrules.2, List.nodup_singleton rule, ?_⟩
      rintro a ha b hb rfl
      exact hnew (List.mem_singleton.mp hb ▸ ha)

theorem addRules_rules {normalized rules result : List String}
    (h : rules.foldlM addRule normalized = .ok result)
    (hrules : (∀ rule ∈ normalized, Rule rule) ∧ normalized.Nodup) :
    (∀ rule ∈ result, Rule rule) ∧ result.Nodup := by
  induction rules generalizing normalized with
  | nil =>
      obtain rfl : normalized = result := Except.ok.inj h
      exact hrules
  | cons text rules ih =>
      rw [List.foldlM_cons] at h
      obtain ⟨normalized', hadd, h⟩ := bind_eq_ok.mp h
      exact ih h (addRule_rules hadd hrules)

/-- Rules that are normalised and distinct are collected as they are. -/
theorem addRules_normal {normalized rules : List String} (h : ∀ rule ∈ rules, Rule rule)
    (hnodup : (normalized ++ rules).Nodup) :
    rules.foldlM addRule normalized = .ok (normalized ++ rules) := by
  induction rules generalizing normalized with
  | nil => exact congrArg Except.ok (List.append_nil normalized).symm
  | cons rule rules ih =>
      obtain ⟨hrule, hrules⟩ := List.forall_mem_cons.mp h
      have hnew : normalized.contains rule = false := by
        rw [← Bool.not_eq_true, List.contains_iff_mem]
        intro hmem
        exact (List.nodup_append.mp hnodup).2.2 rule hmem rule List.mem_cons_self rfl
      have hadd : addRule normalized rule = .ok (normalized ++ [rule]) := by
        refine bind_eq_ok.mpr ⟨rule, Submissions.required_eq_ok.mpr hrule.normal, ?_⟩
        rw [hnew, if_neg (by decide)]
        rfl
      rw [List.append_cons] at hnodup
      rw [List.foldlM_cons, List.append_cons]
      exact bind_eq_ok.mpr ⟨_, hadd, ih hrules hnodup⟩

/-- A list of rules as it is saved. -/
structure RuleList (value : String) : Prop where
  rules : ∃ rules, (∀ rule ∈ rules, Rule rule) ∧ rules.Nodup ∧ value = joinRules [',', ' '] rules

theorem ruleList_of_normalize {text value : String} (h : normalizeDomainRules text = .ok value) :
    RuleList value := by
  unfold normalizeDomainRules at h
  rcases hcollect : (splitRules text).foldlM addRule [] with e | rules
  · rw [hcollect] at h
    cases h
  rw [hcollect] at h
  cases h
  obtain ⟨hrules, hnodup⟩ := addRules_rules hcollect ⟨nofun, .nil⟩
  exact ⟨rules, hrules, hnodup, rfl⟩

/-- Distinct rules are saved with a blank after each comma, whether there was one or not. -/
theorem normalizeDomainRules_join {blanks : List Char}
    (hblanks : ∀ c ∈ blanks, isWhitespace c = true) {rules : List String}
    (h : ∀ rule ∈ rules, Rule rule) (hnodup : rules.Nodup) :
    normalizeDomainRules (joinRules (',' :: blanks) rules) = .ok (joinRules [',', ' '] rules) := by
  rw [normalizeDomainRules, splitRules_join hblanks h,
    addRules_normal h (List.nil_append rules ▸ hnodup)]
  rfl

/-- **A list of rules is read back as it was saved.** -/
theorem RuleList.normalize_eq {value : String} (h : RuleList value) :
    normalizeDomainRules value = .ok value := by
  obtain ⟨rules, hrules, hnodup, rfl⟩ := h
  exact normalizeDomainRules_join (by simp [isWhitespace]) hrules hnodup

/-- What is joined begins and ends with a part. -/
theorem intercalate_ends {α : Type} (separator part : List α) (parts : List (List α)) :
    (∃ rest, separator.intercalate (part :: parts) = part ++ rest) ∧
      ∃ front, ∃ last ∈ part :: parts, separator.intercalate (part :: parts) = front ++ last := by
  induction parts generalizing part with
  | nil =>
      rw [List.intercalate_singleton]
      exact ⟨⟨[], (List.append_nil part).symm⟩, [], part, List.mem_cons_self, rfl⟩
  | cons part' parts ih =>
      obtain ⟨-, front, last, hlast, heq⟩ := ih part'
      rw [List.intercalate_cons_cons]
      refine ⟨⟨_, List.append_assoc ..⟩, part ++ separator ++ front, last,
        List.mem_cons_of_mem _ hlast, ?_⟩
      rw [heq, List.append_assoc (part ++ separator)]

theorem trim_of_ends {first last rest front : List Char}
    (hfirst : first ≠ [] ∧ ∀ c ∈ first, isWhitespace c = false)
    (hlast : last ≠ [] ∧ ∀ c ∈ last, isWhitespace c = false)
    (heq : first ++ rest = front ++ last) :
    trim (String.ofList (first ++ rest)) = String.ofList (first ++ rest) := by
  have hleft : (first ++ rest).dropWhile isWhitespace = first ++ rest := by
    obtain ⟨c, first, rfl⟩ := List.exists_cons_of_ne_nil hfirst.1
    rw [List.cons_append, List.dropWhile_cons_of_neg]
    rw [hfirst.2 c List.mem_cons_self]
    decide
  rw [trim, String.toList_ofList, hleft, List.rdropWhile_eq_self_iff.mpr]
  intro hne
  have hmem : (first ++ rest).getLast hne ∈ last := by
    simp only [heq, List.getLast_append_of_ne_nil _ hlast.1]
    exact List.getLast_mem hlast.1
  rw [hlast.2 _ hmem]
  decide

/-- Rules that are joined have no blanks around them. -/
theorem trim_joinRules (separator : List Char) {rules : List String}
    (h : ∀ rule ∈ rules, Rule rule) :
    trim (joinRules separator rules) = joinRules separator rules := by
  rcases rules with _ | ⟨rule, rules⟩
  · rfl
  have hpart : ∀ part ∈ (rule :: rules).map String.toList,
      part ≠ [] ∧ ∀ c ∈ part, isWhitespace c = false := by
    intro part hpart
    obtain ⟨rule', hrule', rfl⟩ := List.mem_map.mp hpart
    have hrule := h rule' hrule'
    constructor
    · exact fun hnil => hrule.nonempty (String.toList_eq_nil_iff.mp hnil)
    · exact fun c hc => (hrule.graphic c hc).1.notWhitespace
  obtain ⟨⟨rest, hrest⟩, front, last, hlast, hfront⟩ :=
    intercalate_ends separator rule.toList (rules.map String.toList)
  rw [joinRules, List.map_cons, hrest]
  exact trim_of_ends (hpart _ (List.map_cons ▸ List.mem_cons_self)) (hpart last hlast)
    (hrest.symm.trans hfront)

/-- Nor a NUL in them. -/
theorem no_nul_joinRules {separator : List Char} (hseparator : '\x00' ∉ separator)
    {rules : List String} (h : ∀ rule ∈ rules, Rule rule) :
    (joinRules separator rules).toList.contains '\x00' = false := by
  rw [← Bool.not_eq_true, List.contains_iff_mem, joinRules, String.toList_ofList]
  intro hmem
  rcases mem_intercalate hmem with hmem | ⟨part, hpart, hmem⟩
  · exact hseparator hmem
  · obtain ⟨rule, hrule, rfl⟩ := List.mem_map.mp hpart
    exact absurd ((h rule hrule).graphic _ hmem).1 (by unfold Graphic; decide)

theorem RuleList.trim_eq {value : String} (h : RuleList value) : trim value = value := by
  obtain ⟨rules, hrules, -, rfl⟩ := h
  exact trim_joinRules _ hrules

theorem RuleList.no_nul {value : String} (h : RuleList value) :
    value.toList.contains '\x00' = false := by
  obtain ⟨rules, hrules, -, rfl⟩ := h
  exact no_nul_joinRules (by decide) hrules

/-- The size of rules that are joined. -/
theorem size_joinRules (separator : List Char) (rule : String) (rules : List String) :
    (joinRules separator (rule :: rules)).utf8ByteSize =
      rule.utf8ByteSize + (rules.map fun r => utf8Length separator + r.utf8ByteSize).sum := by
  rw [joinRules, utf8ByteSize_ofList, List.map_cons, utf8ByteSize_eq rule]
  generalize rule.toList = part
  induction rules generalizing part with
  | nil => rw [List.map_nil, List.intercalate_singleton, List.map_nil, List.sum_nil, Nat.add_zero]
  | cons rule' rules ih =>
      rw [List.map_cons, List.intercalate_cons_cons, utf8Length_append, utf8Length_append, ih,
        List.map_cons, List.sum_cons, utf8ByteSize_eq rule']
      omega

end CtfZone.Configuration
