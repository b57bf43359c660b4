/-
# What is saved of settings

Whatever is saved for a setting is of the kind that is declared for it, and is saved again as
it is.

* `Conforms` : a text is of a kind;
* `Settled` : it is, and is normalised to itself, unless it is a secret or a list of domains
  that has become too long;
* `normalizeValue_settled` : what is normalised is settled;
* `CrossFields` : what `validateCrossFields` checks.
-/
import CtfZone.Configuration
import CtfZone.KeyedTables

namespace CtfZone.Configuration

open Submissions (required_eq_ok)

/-! ## Kinds -/

/-- A text is of a kind, and in its range. -/
def Conforms (kind : SettingKind) (value : String) : Prop :=
  match kind with
  | .string => value.toList.any isControl = false
  | .text => '\x00' ∉ value.toList
  | .boolean => ∃ b, parseStoredValue .boolean value = some (.bool b)
  | .integer min max =>
    ∃ n, parseStoredValue (.integer min max) value = some (.ofInt n) ∧ min ≤ n ∧ n ≤ max
  | .dateTime => value = "" ∨
    ∃ n, parseStoredValue .dateTime value = some (.ofInt n) ∧ 0 ≤ n ∧ n ≤ 253402300799
  | .select options => value ∈ options
  | .secret => value.utf8ByteSize ≤ 10000 ∧ value.toList.any isControl = false

/-- A saved text is submitted again: as it is, or as the catalog shows it. -/
def Resubmitted (kind : SettingKind) (value : String) (json : Json) : Prop :=
  json = .string value ∨ parseStoredValue kind value = some json

/-- The settings that are lists of domains. -/
abbrev DomainList (key : String) : Prop := key = "domain_whitelist" ∨ key = "domain_blacklist"

/-- A text is of the kind of its setting, and is normalised to itself. -/
structure Settled (formats : Formats) (definition : SettingDefinition) (value : String) :
    Prop where
  conforms : Conforms definition.kind value
  rules : DomainList definition.key → RuleList value
  again : definition.kind ≠ .secret →
    (DomainList definition.key → value.utf8ByteSize ≤ 100000) → ∀ json,
      Resubmitted definition.kind value json → ∀ current,
        normalizeValue formats definition.key json current = .ok value

/-- No two settings have the same key. -/
theorem settings_keys : (settings.map SettingDefinition.key).Nodup := by simp [settings]

/-- The definitions are found by their keys, and their ranges are of `i64`. -/
theorem settings_sound {d : SettingDefinition} (hd : d ∈ settings) :
    validateKey d.key = .ok ⟨⟩ ∧ d.key ≠ completedMarkerKey ∧ setting d.key = some d ∧
      d.readOnly = false := by
  have hshape : ∀ d ∈ settings, (d.key ≠ "" && d.key.utf8ByteSize ≤ 128) = true ∧
      d.key ≠ completedMarkerKey ∧ d.readOnly = false := by decide +kernel
  have hchars : ∀ d ∈ settings,
      d.key.toList.all (fun c => c.isAlphanum || c ∈ ['.', '_', '-']) = true := by
    repeat refine List.forall_mem_cons.mpr ⟨Journal.all_ofList rfl, ?_⟩
    exact List.forall_mem_nil _
  obtain ⟨hsize, hmarker, hwritable⟩ := hshape d hd
  refine ⟨?_, hmarker, ?_, hwritable⟩
  · rw [validateKey, hsize, hchars d hd]
    rfl
  · exact Tables.find?_row settings_keys hd (decide_eq_true rfl) fun _ hkey =>
      of_decide_eq_true hkey

theorem setting_mem {key : String} {d : SettingDefinition} (h : setting key = some d) :
    d ∈ settings ∧ d.key = key := by
  unfold setting at h
  have hkey := List.find?_some h
  exact ⟨List.mem_of_find?_eq_some h, of_decide_eq_true hkey⟩

/-- The ranges of integers are ranges of `i64`, and only texts are lists of domains. -/
theorem settings_ranges {d : SettingDefinition} (hd : d ∈ settings) :
    (∀ min max, d.kind = .integer min max → 0 ≤ min ∧ max < 2 ^ 63) ∧
      (DomainList d.key → d.kind = .text) := by
  have hall : settings.all (fun d =>
      (match d.kind with
        | .integer min max => 0 ≤ min && max < 2 ^ 63
        | _ => true) &&
      (! (d.key = "domain_whitelist" || d.key = "domain_blacklist") || d.kind = .text)) = true := by
    simp [settings]
  have hboth := List.all_eq_true.mp hall d hd
  rw [Bool.and_eq_true] at hboth
  constructor
  · intro min max hkind
    simpa [hkind] using hboth.1
  · intro hkey
    have hkey' : (decide (d.key = "domain_whitelist") || decide (d.key = "domain_blacklist")) =
        true := by simpa using hkey
    rw [hkey', Bool.not_true, Bool.false_or] at hboth
    exact of_decide_eq_true hboth.2

/-- What a setting is normalised by. -/
theorem normalizeValue_eq (formats : Formats) {d : SettingDefinition} (hd : d ∈ settings)
    (value : Json) (current : Option String) :
    normalizeValue formats d.key value current =
      match d.kind with
      | .string => normalizeText formats d.key value d.label true
      | .text => normalizeText formats d.key value d.label false
      | .secret => normalizeSecret value d.label current
      | .boolean => (parseBool value).map boolText
      | .integer min max => normalizeInteger value d.label min max
      | .dateTime => normalizeDateTime value d.label
      | .select options => normalizeSelect value d.label options := by
  obtain ⟨hvalid, hmarker, hsetting, hwritable⟩ := settings_sound hd
  have hother : decide (d.key ≠ completedMarkerKey) = true := decide_eq_true hmarker
  unfold normalizeValue
  rw [hvalid, hother, hsetting, Submissions.required]
  rcases hkind : d.kind
  all_goals simp only [bind, Except.bind, ensure, if_true, hwritable, Bool.not_false, hkind]

/-- A value that is normalised is one of a setting. -/
theorem setting_of_normalizeValue {formats : Formats} {key value : String} {json : Json}
    {current : Option String} (h : normalizeValue formats key json current = .ok value) :
    ∃ d ∈ settings, d.key = key := by
  obtain ⟨_, -, h⟩ := bind_eq_ok.mp h
  obtain ⟨_, -, h⟩ := bind_eq_ok.mp h
  obtain ⟨d, hd, -⟩ := bind_eq_ok.mp h
  exact ⟨d, setting_mem (required_eq_ok.mp hd)⟩

/-! ## Texts -/

/-- What the keys accept they leave as it is, but for the lists of domains. -/
theorem acceptText_again {formats : Formats} {key text value : String}
    (h : acceptText formats key text = .ok value) (htrim : trim text = text) :
    (value = text ∧ ¬ DomainList key ∨ DomainList key ∧ RuleList value) ∧
      acceptText formats key value = .ok value := by
  by_cases hname : key = "ctf_name"
  · rw [acceptText, if_pos hname] at h
    have hsame : value = text := by
      obtain ⟨_, -, h⟩ := bind_eq_ok.mp h
      rw [← Except.ok.inj h, htrim]
    rw [hsame] at h ⊢
    rw [acceptText, if_pos hname, hname]
    exact ⟨.inl ⟨rfl, by decide⟩, h⟩
  by_cases hdomains : DomainList key
  · rw [acceptText, if_neg hname, if_pos hdomains] at h ⊢
    have hrules := ruleList_of_normalize h
    exact ⟨.inr ⟨hdomains, hrules⟩, hrules.normalize_eq⟩
  -- The other keys answer with what they are asked about.
  have hsame : value = text := by
    unfold acceptText at h
    rw [if_neg hname, if_neg hdomains] at h
    split at h
    · rcases hslug : validatePlayerFrontend text with e | u
      · rw [hslug] at h
        cases h
      · rw [hslug] at h
        exact (Except.ok.inj h).symm
    · split at h
      · split at h
        · cases h
        · split at h
          · exact (Except.ok.inj h).symm
          · cases h
      · split at h
        · cases h
        · split at h
          · cases h
          · exact (Except.ok.inj h).symm
  rw [hsame] at h ⊢
  exact ⟨.inl ⟨rfl, hdomains⟩, h⟩

theorem textValue_eq_ok {json : Json} {label text : String} (h : textValue json label = .ok text) :
    trim text = text := by
  unfold textValue at h
  split at h
  · rw [← Except.ok.inj h, trim_trim]
  · cases h

theorem textValue_string {label text : String} (h : trim text = text) :
    textValue (.string text) label = .ok text := congrArg Except.ok h

/-- **A text that is normalised is normalised to itself**, unless it has become too long, as only
a list of domains can. -/
theorem normalizeText_again {formats : Formats} {key label value : String} {json : Json}
    {isString : Bool} (h : normalizeText formats key json label isString = .ok value)
    (hdomains : DomainList key → isString = false) :
    '\x00' ∉ value.toList ∧ (isString = true → value.toList.any isControl = false) ∧
      (DomainList key → RuleList value) ∧
      ((DomainList key → value.utf8ByteSize ≤ 100000) →
        normalizeText formats key (.string value) label isString = .ok value) := by
  obtain ⟨text, htext, h⟩ := bind_eq_ok.mp h
  obtain ⟨_, hplain, h⟩ := bind_eq_ok.mp h
  obtain ⟨_, hsize, haccept⟩ := bind_eq_ok.mp h
  have htrim := textValue_eq_ok htext
  rw [ensure_eq_ok, Bool.not_eq_true', Bool.or_eq_false_iff, Bool.and_eq_false_iff] at hplain
  obtain ⟨hvalue, hagain⟩ := acceptText_again haccept htrim
  -- A list of domains is written anew, and has neither a NUL nor blanks around it.
  have hshape : trim value = value ∧ value.toList.contains '\x00' = false ∧
      (value.toList.any isControl = false ∨ isString = false) ∧
        (DomainList key → RuleList value) ∧
        ((DomainList key → value.utf8ByteSize ≤ 100000) → value.utf8ByteSize ≤ 100000) := by
    rcases hvalue with ⟨rfl, hnot⟩ | ⟨hkey, hrules⟩
    · exact ⟨htrim, hplain.1, hplain.2, fun hkey => absurd hkey hnot,
        fun _ => of_decide_eq_true (ensure_eq_ok.mp hsize)⟩
    · exact ⟨hrules.trim_eq, hrules.no_nul, .inr (hdomains hkey), fun _ => hrules,
        fun hshort => hshort hkey⟩
  obtain ⟨htrim', hnul, hcontrol, hrules, hshort⟩ := hshape
  refine ⟨?_, ?_, hrules, ?_⟩
  · intro hmem
    rw [List.contains_iff_mem.mpr hmem] at hnul
    cases hnul
  · intro hstring
    exact hcontrol.resolve_right fun hfalse => absurd (hstring.symm.trans hfalse) (by decide)
  · intro hdomain
    have hcontrol' : (value.toList.any isControl && isString) = false :=
      Bool.and_eq_false_iff.mpr hcontrol
    rw [normalizeText, textValue_string htrim']
    refine bind_eq_ok.mpr ⟨value, rfl, bind_eq_ok.mpr ⟨⟨⟩, ?_, bind_eq_ok.mpr ⟨⟨⟩, ?_, hagain⟩⟩⟩
    · rw [ensure_eq_ok, hnul, hcontrol']
      rfl
    · rw [ensure_eq_ok]
      exact decide_eq_true (hshort hdomain)

/-- So a text is submitted again. -/
theorem resubmitted_string {kind : SettingKind} {value : String} {json : Json}
    (h : Resubmitted kind value json)
    (hkind : parseStoredValue kind value = some (.string value)) : json = .string value := by
  rcases h with rfl | h
  · rfl
  · exact (Option.some.inj (hkind.symm.trans h)).symm

/-! ## Numbers and choices -/

theorem parseInteger_toString {n : ℕ} (h : n < 2 ^ 63) (nullable : Bool) {json : Json}
    (hjson : json = .string (toString (n : ℤ)) ∨ json = .ofInt n) :
    parseInteger json nullable = .ok (some (n : ℤ)) := by
  rcases hjson with rfl | rfl
  · have hne : decide (toString (n : ℤ) = "") = false := decide_eq_false (toString_ne_empty n)
    unfold parseInteger
    dsimp only
    rw [trim_toString, hne, Bool.and_false, if_neg (by decide), parseI64_toString h]
    rfl
  · have hrange : Json.asI64 (.ofInt n) = some (n : ℤ) := by
      rw [Json.asI64, Json.asInt_ofInt, Option.filter_some, if_pos]
      simp only [decide_eq_true_eq]
      omega
    unfold parseInteger Json.ofInt
    dsimp only
    rw [show Json.number (toString (n : ℤ)) = Json.ofInt n from rfl, hrange]
    rfl

theorem parseStoredValue_toString {n : ℕ} (h : n < 2 ^ 63) {kind : SettingKind}
    (hkind : kind = .dateTime ∨ ∃ min max, kind = .integer min max) :
    parseStoredValue kind (toString (n : ℤ)) = some (.ofInt n) := by
  rcases hkind with rfl | ⟨min, max, rfl⟩
  · rw [parseStoredValue, if_neg (toString_ne_empty n), parseI64_toString h]
    rfl
  · rw [parseStoredValue, if_neg (toString_ne_empty n), parseI64_toString h]
    rfl

/-- An integer that is normalised is in its range, and is normalised to itself. -/
theorem normalizeInteger_again {label value : String} {json : Json} {min max : ℤ}
    (h : normalizeInteger json label min max = .ok value) (hmin : 0 ≤ min) (hmax : max < 2 ^ 63) :
    Conforms (.integer min max) value ∧ ∀ json', Resubmitted (.integer min max) value json' →
      normalizeInteger json' label min max = .ok value := by
  obtain ⟨parsed, -, h⟩ := bind_eq_ok.mp h
  obtain ⟨integer, -, h⟩ := bind_eq_ok.mp h
  obtain ⟨_, hrange, h⟩ := bind_eq_ok.mp h
  obtain rfl : toString integer = value := Except.ok.inj h
  have hbounds : min ≤ integer ∧ integer ≤ max := by simpa using hrange
  obtain ⟨n, rfl⟩ := Int.eq_ofNat_of_zero_le (Int.le_trans hmin hbounds.1)
  have hn : n < 2 ^ 63 := by omega
  have hstored := parseStoredValue_toString hn (.inr ⟨min, max, rfl⟩)
  refine ⟨⟨n, hstored, hbounds⟩, fun json' hjson => ?_⟩
  have hread : json' = .string (toString (n : ℤ)) ∨ json' = .ofInt n :=
    hjson.imp_right fun heq => Option.some.inj (heq.symm.trans hstored)
  rw [normalizeInteger, parseInteger_toString hn false hread]
  exact bind_eq_ok.mpr ⟨_, rfl, bind_eq_ok.mpr ⟨_, rfl, bind_eq_ok.mpr ⟨⟨⟩, hrange, rfl⟩⟩⟩

/-- And so is a point in time, or none. -/
theorem normalizeDateTime_again {label value : String} {json : Json}
    (h : normalizeDateTime json label = .ok value) :
    Conforms .dateTime value ∧ ∀ json', Resubmitted .dateTime value json' →
      normalizeDateTime json' label = .ok value := by
  obtain ⟨timestamp, -, h⟩ := bind_eq_ok.mp h
  obtain ⟨_, hrange, h⟩ := bind_eq_ok.mp h
  have hvalue := Except.ok.inj h
  rcases timestamp with _ | integer
  · obtain rfl : "" = value := hvalue
    refine ⟨.inl rfl, fun json' hjson => ?_⟩
    rcases hjson with rfl | hjson
    · rfl
    · cases hjson
  · obtain rfl : toString integer = value := hvalue
    have hbounds : 0 ≤ integer ∧ integer ≤ 253402300799 := by simpa using hrange
    obtain ⟨n, rfl⟩ := Int.eq_ofNat_of_zero_le hbounds.1
    have hn : n < 2 ^ 63 := by omega
    have hstored := parseStoredValue_toString hn (.inl rfl)
    refine ⟨.inr ⟨n, hstored, hbounds⟩, fun json' hjson => ?_⟩
    have hread : json' = .string (toString (n : ℤ)) ∨ json' = .ofInt n :=
      hjson.imp_right fun heq => Option.some.inj (heq.symm.trans hstored)
    rw [normalizeDateTime, parseInteger_toString hn true hread]
    exact bind_eq_ok.mpr ⟨_, rfl, bind_eq_ok.mpr ⟨⟨⟩, hrange, rfl⟩⟩

/-- And so is a choice. -/
theorem normalizeSelect_again {label value : String} {json : Json} {options : List String}
    (h : normalizeSelect json label options = .ok value) :
    value ∈ options ∧ normalizeSelect (.string value) label options = .ok value := by
  obtain ⟨text, htext, h⟩ := bind_eq_ok.mp h
  obtain ⟨_, hoption, h⟩ := bind_eq_ok.mp h
  obtain rfl : text = value := Except.ok.inj h
  rw [ensure_eq_ok] at hoption
  refine ⟨List.contains_iff_mem.mp hoption, ?_⟩
  rw [normalizeSelect, textValue_string (textValue_eq_ok htext)]
  exact bind_eq_ok.mpr ⟨_, rfl, bind_eq_ok.mpr ⟨⟨⟩, ensure_eq_ok.mpr hoption, rfl⟩⟩

/-- A secret is kept if none is given. -/
theorem normalizeSecret_conforms {label value : String} {json : Json} {current : Option String}
    (h : normalizeSecret json label current = .ok value)
    (hcurrent : ∀ c, current = some c → Conforms .secret c) : Conforms .secret value := by
  have hempty : Conforms .secret "" := by unfold Conforms; decide
  unfold normalizeSecret at h
  split at h
  · rw [← Except.ok.inj h]
    exact hempty
  · split at h
    · rw [← Except.ok.inj h]
      rcases current with _ | c
      · exact hempty
      · exact hcurrent c rfl
    · split at h
      · rename_i htext
        rw [← Except.ok.inj h]
        exact htext
      · cases h
  · cases h

/-! ## All kinds -/

/-- **What is normalised for a setting is settled.** -/
theorem normalizeValue_settled {formats : Formats} {d : SettingDefinition} (hd : d ∈ settings)
    {value : String} {json : Json} {current : Option String}
    (h : normalizeValue formats d.key json current = .ok value)
    (hcurrent : ∀ c, current = some c → Conforms d.kind c) : Settled formats d value := by
  obtain ⟨hranges, hdomains⟩ := settings_ranges hd
  rw [normalizeValue_eq formats hd] at h
  have hagain := normalizeValue_eq formats hd
  obtain ⟨key, label, kind, readOnly⟩ := d
  cases kind with
  | string =>
      obtain ⟨-, hcontrol, hrules, hsame⟩ := normalizeText_again h fun hkey =>
        nomatch hdomains hkey
      refine ⟨hcontrol rfl, hrules, fun _ hsize json' hjson current' => ?_⟩
      rw [resubmitted_string hjson rfl, hagain]
      exact hsame hsize
  | text =>
      obtain ⟨hnul, -, hrules, hsame⟩ := normalizeText_again h fun _ => rfl
      refine ⟨hnul, hrules, fun _ hsize json' hjson current' => ?_⟩
      rw [resubmitted_string hjson rfl, hagain]
      exact hsame hsize
  | boolean =>
      obtain ⟨b, rfl⟩ : ∃ b, boolText b = value := by
        rcases hb : parseBool json with e | b
        · simp only [hb] at h
          cases h
        · simp only [hb] at h
          exact ⟨b, Except.ok.inj h⟩
      have hstored : parseStoredValue .boolean (boolText b) = some (.bool b) := by
        rw [parseStoredValue, parseBoolText_boolText]
        rfl
      refine ⟨⟨b, hstored⟩, fun hkey => (nomatch hdomains hkey), fun _ _ json' hjson current' => ?_⟩
      rw [hagain]
      rcases hjson with rfl | hjson
      · simp only [parseBool, parseBoolText_boolText]
        rfl
      · obtain rfl := Option.some.inj (hjson.symm.trans hstored)
        rfl
  | integer min max =>
      obtain ⟨hmin, hmax⟩ := hranges min max rfl
      obtain ⟨hconforms, hsame⟩ := normalizeInteger_again h hmin hmax
      refine ⟨hconforms, fun hkey => (nomatch hdomains hkey), fun _ _ json' hjson current' => ?_⟩
      rw [hagain]
      exact hsame json' hjson
  | dateTime =>
      obtain ⟨hconforms, hsame⟩ := normalizeDateTime_again h
      refine ⟨hconforms, fun hkey => (nomatch hdomains hkey), fun _ _ json' hjson current' => ?_⟩
      rw [hagain]
      exact hsame json' hjson
  | select options =>
      obtain ⟨hoption, hsame⟩ := normalizeSelect_again h
      refine ⟨hoption, fun hkey => (nomatch hdomains hkey), fun _ _ json' hjson current' => ?_⟩
      rw [resubmitted_string hjson rfl, hagain]
      exact hsame
  | secret =>
      exact ⟨normalizeSecret_conforms h hcurrent, fun hkey => (nomatch hdomains hkey),
        fun hne => absurd rfl hne⟩

/-- **A list of domains that is too long is refused.** -/
theorem normalizeValue_long {formats : Formats} {d : SettingDefinition} (hd : d ∈ settings)
    (hkey : DomainList d.key) {value : String} (h : RuleList value)
    (hlong : 100000 < value.utf8ByteSize) (current : Option String) :
    normalizeValue formats d.key (.string value) current =
      .error (d.label ++ " is too long") := by
  have hkind := (settings_ranges hd).2 hkey
  have hplain : ensure (! (value.toList.contains '\x00' || (value.toList.any isControl && false)))
      (d.label ++ " contains control characters") = .ok ⟨⟩ := by
    rw [ensure_eq_ok, h.no_nul, Bool.and_false]
    rfl
  have hsize : ensure (value.utf8ByteSize ≤ 100000) (d.label ++ " is too long") =
      .error (d.label ++ " is too long") := by
    rw [ensure, decide_eq_false (by omega)]
    rfl
  rw [normalizeValue_eq formats hd]
  simp only [hkind]
  rw [normalizeText, textValue_string h.trim_eq]
  simp only [bind, Except.bind, hplain, hsize]

/-- Only addresses are read by what is not in the repository. -/
theorem normalizeValue_formats (formats formats' : Formats) {key : String}
    (hurl : key ≠ "mailgun_base_url") (hmailbox : key ≠ "mailfrom_addr") (value : Json)
    (current : Option String) :
    normalizeValue formats key value current = normalizeValue formats' key value current := by
  have haccept : acceptText formats key = acceptText formats' key := by
    funext text
    simp only [acceptText, hurl, hmailbox, false_and, if_false]
  simp only [normalizeValue, normalizeText, haccept]

/-! ## The setup -/

theorem normalizeCtfName_again {formats : Formats} {text name : String}
    (h : normalizeCtfName text = .ok name) :
    normalizeValue formats "ctf_name" (.string name) none = .ok name := by
  obtain ⟨_, hvalid, h⟩ := bind_eq_ok.mp h
  obtain rfl : trim text = name := Except.ok.inj h
  have htrim := trim_trim text
  generalize trim text = name at hvalid htrim
  have hagain : normalizeCtfName name = .ok name := by
    rw [normalizeCtfName, htrim]
    exact bind_eq_ok.mpr ⟨⟨⟩, hvalid, rfl⟩
  rw [ensure_eq_ok, Bool.and_eq_true, Bool.and_eq_true, Bool.not_eq_true'] at hvalid
  obtain ⟨⟨-, hlength⟩, hcontrol⟩ := hvalid
  have hnul : name.toList.contains '\x00' = false := by
    rw [← Bool.not_eq_true, List.contains_iff_mem]
    intro hmem
    rw [List.any_eq_false] at hcontrol
    exact hcontrol _ hmem (by decide)
  have hsize : name.utf8ByteSize ≤ 100000 := by
    have hfour := utf8Length_le name.toList
    rw [← utf8ByteSize_eq, String.length_toList] at hfour
    have := of_decide_eq_true hlength
    omega
  have hd : (⟨"ctf_name", "CTF name", .string, false⟩ : SettingDefinition) ∈ settings :=
    List.mem_cons_self
  refine (normalizeValue_eq formats hd _ none).trans ?_
  simp only [normalizeText, textValue_string htrim]
  refine bind_eq_ok.mpr ⟨_, rfl, bind_eq_ok.mpr ⟨⟨⟩, ?_, bind_eq_ok.mpr ⟨⟨⟩, ?_, ?_⟩⟩⟩
  · rw [ensure_eq_ok, hnul, hcontrol]
    rfl
  · exact ensure_eq_ok.mpr (decide_eq_true hsize)
  · rw [acceptText, if_pos rfl, hagain]

theorem validatePlayerFrontend_again {formats : Formats} {value : String}
    (h : validatePlayerFrontend value = .ok ⟨⟩) :
    normalizeValue formats "player_frontend" (.string value) none = .ok value := by
  have hvalid := h
  unfold validatePlayerFrontend at hvalid
  simp only [ensure_eq_ok, Bool.and_eq_true, decide_eq_true_eq, List.all_eq_true] at hvalid
  obtain ⟨⟨hsize, hfirst⟩, hrest⟩ := hvalid
  have hslug : ∀ c : Char, (c.isLower || c.isDigit) = true → Graphic c := by
    intro c hc
    refine graphic_of_isAlphanum ?_
    rw [FloatTexts.isAlphanum_eq, Bool.or_assoc, hc, Bool.or_true]
  have hgraphic : ∀ c ∈ value.toList, Graphic c := by
    rcases htext : value.toList with _ | ⟨first, rest⟩
    · exact fun c hc => absurd hc List.not_mem_nil
    · rw [htext] at hfirst hrest
      refine List.forall_mem_cons.mpr ⟨hslug first hfirst, fun c hc => ?_⟩
      have hchar := hrest c hc
      simp only [Bool.or_eq_true, decide_eq_true_eq] at hchar
      rcases hchar with (hchar | rfl) | rfl
      · exact hslug c (by rw [Bool.or_eq_true]; exact hchar)
      · unfold Graphic
        decide
      · unfold Graphic
        decide
  have hd : (⟨"player_frontend", "Player frontend", .string, false⟩ : SettingDefinition) ∈
      settings := List.mem_of_getElem? (i := 2) rfl
  have htrim : trim value = value := trim_of_forall fun c hc => (hgraphic c hc).notWhitespace
  have hcontrol : value.toList.any isControl = false := by
    rw [List.any_eq_false]
    intro c hc
    rw [(hgraphic c hc).notControl]
    decide
  have hnul : value.toList.contains '\x00' = false := by
    rw [← Bool.not_eq_true, List.contains_iff_mem]
    intro hmem
    exact absurd (hgraphic _ hmem) (by unfold Graphic; decide)
  refine (normalizeValue_eq formats hd _ none).trans ?_
  simp only [normalizeText, textValue_string htrim]
  refine bind_eq_ok.mpr ⟨_, rfl, bind_eq_ok.mpr ⟨⟨⟩, ?_, bind_eq_ok.mpr ⟨⟨⟩, ?_, ?_⟩⟩⟩
  · rw [ensure_eq_ok, hnul, hcontrol]
    rfl
  · exact ensure_eq_ok.mpr (decide_eq_true (by omega))
  · rw [acceptText, if_neg (by decide), if_neg (by decide), if_pos rfl, h]
    rfl

/-- **What the setup saves is settled.** -/
theorem setupConfig_settled {formats : Formats} {text ctfName playerFrontend : String}
    (hname : normalizeCtfName text = .ok ctfName)
    (hfrontend : validatePlayerFrontend playerFrontend = .ok ⟨⟩) :
    ∀ d ∈ settings, ∀ value, (d.key, value) ∈ setupConfig ctfName playerFrontend →
      Settled formats d value := by
  intro d hd value hmem
  suffices h : normalizeValue formats d.key (.string value) none = .ok value from
    normalizeValue_settled hd h nofun
  rcases List.mem_cons.mp hmem with heq | hmem
  · obtain ⟨hkey, rfl⟩ := Prod.ext_iff.mp heq
    rw [show d.key = "ctf_name" from hkey]
    exact normalizeCtfName_again hname
  rcases List.mem_cons.mp hmem with heq | hmem
  · obtain ⟨hkey, rfl⟩ := Prod.ext_iff.mp heq
    rw [show d.key = "player_frontend" from hkey]
    exact validatePlayerFrontend_again hfrontend
  · -- The others are fixed, and no address is among them.
    have hfixed : ((setupConfig "" "").drop 2).all (fun p =>
        p.1 ≠ "mailgun_base_url" && p.1 ≠ "mailfrom_addr" && (! settings.any (·.key = p.1) ||
          normalizeValue ⟨fun _ => none, fun _ => false⟩ p.1 (.string p.2) none = .ok p.2)) =
        true := by decide +kernel
    have hentry := List.all_eq_true.mp hfixed (d.key, value) hmem
    simp only [Bool.and_eq_true, decide_eq_true_eq, Bool.or_eq_true, Bool.not_eq_true'] at hentry
    obtain ⟨⟨hurl, hmailbox⟩, hentry⟩ := hentry
    have hany : settings.any (·.key = d.key) = true :=
      List.any_eq_true.mpr ⟨d, hd, decide_eq_true rfl⟩
    rw [normalizeValue_formats formats _ hurl hmailbox]
    exact hentry.resolve_left fun hfalse => by rw [hany] at hfalse; cases hfalse

/-! ## Settings that belong together -/

/-- The rules that relate settings. -/
structure CrossFields (values : Values) : Prop where
  ordered : ∀ start stop, values.integer "start" = some start →
    values.integer "end" = some stop → start < stop
  frozenAfter : ∀ start freeze, values.integer "start" = some start →
    values.integer "freeze" = some freeze → start ≤ freeze
  frozenBefore : ∀ stop freeze, values.integer "end" = some stop →
    values.integer "freeze" = some freeze → freeze ≤ stop
  oneTls : ¬ (values.enabled "mail_ssl" = true ∧ values.enabled "mail_tls" = true)
  code : values "registration_access_mode" = some "access_code" →
    ∃ code, values "registration_code" = some code ∧ code ≠ ""
  sender : values.enabled "verify_emails" = true → values.provided "mailfrom_addr" = true
  provider : values.enabled "verify_emails" = true → values.providerReady = true
  smtp : values "mail_provider" = some "smtp" → values.provided "mail_server" = true
  mailgun : values "mail_provider" = some "mailgun" →
    values.provided "mailgun_base_url" = true ∧ values.provided "mailgun_api_key" = true

/-- **What is checked is that the rules hold.** -/
theorem crossFields_of_validate {values : Values} (h : validateCrossFields values = .ok ⟨⟩) :
    CrossFields values := by
  unfold validateCrossFields at h
  simp only [bind_eq_ok, ensure_eq_ok, exists_and_left, exists_const] at h
  obtain ⟨hordered, hfreeze, htls, hcode, hsender, hprovider, hsmtp, hmailgun⟩ := h
  constructor
  case ordered =>
    intro start stop hstart hstop
    simpa [hstart, hstop] using hordered
  case frozenAfter =>
    intro start freeze hstart hfrozen
    simp only [hstart, hfrozen, Option.all_some, Bool.and_eq_true, decide_eq_true_eq] at hfreeze
    exact hfreeze.1
  case frozenBefore =>
    intro stop freeze hstop hfrozen
    simp only [hstop, hfrozen, Option.all_some, Bool.and_eq_true, decide_eq_true_eq] at hfreeze
    exact hfreeze.2
  case oneTls =>
    rintro ⟨hssl, hstarttls⟩
    simp [hssl, hstarttls] at htls
  case code =>
    intro hmode
    have hany : (values "registration_code").any (· ≠ "") = true := by simpa [hmode] using hcode
    obtain ⟨code, hvalue, hne⟩ := (Option.any_eq_true _ _).mp hany
    exact ⟨code, hvalue, of_decide_eq_true hne⟩
  case sender =>
    intro hverify
    simpa [hverify] using hsender
  case provider =>
    intro hverify
    simpa [hverify] using hprovider
  case smtp =>
    intro hselected
    simpa [hselected] using hsmtp
  case mailgun =>
    intro hselected
    simpa [hselected] using hmailgun

/-- The settings that the rules are about. -/
def crossKeys : List String :=
  ["start", "end", "freeze", "mail_ssl", "mail_tls", "registration_access_mode",
    "registration_code", "verify_emails", "mailfrom_addr", "mailgun_base_url", "mailgun_api_key",
    "mail_server", "mail_provider"]

theorem crossKeys_settings {key : String} (h : key ∈ crossKeys) :
    key ≠ "user_mode" ∧ ∃ d ∈ settings, d.key = key := by
  have hall : ∀ key ∈ crossKeys, key ≠ "user_mode" ∧ (settings.any (·.key = key)) = true := by
    simp [crossKeys, settings]
  obtain ⟨hmode, hany⟩ := hall key h
  obtain ⟨d, hd, hkey⟩ := List.any_eq_true.mp hany
  exact ⟨hmode, d, hd, of_decide_eq_true hkey⟩

/-- The rules read nothing else. -/
theorem validateCrossFields_congr {values values' : Values}
    (h : ∀ key ∈ crossKeys, values key = values' key) :
    validateCrossFields values = validateCrossFields values' := by
  simp only [crossKeys, List.forall_mem_cons, List.not_mem_nil, false_implies, implies_true,
    and_true] at h
  obtain ⟨hstart, hend, hfreeze, hssl, htls, hmode, hcode, hverify, hfrom, hurl, hkey, hserver,
    hprovider⟩ := h
  simp only [validateCrossFields, Values.integer, Values.enabled, Values.provided,
    Values.providerReady, hstart, hend, hfreeze, hssl, htls, hmode, hcode, hverify, hfrom, hurl,
    hkey, hserver, hprovider]

end CtfZone.Configuration
