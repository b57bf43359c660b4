/-
# Settings that are submitted again

In every state of every run the settings agree, each is of its kind, and what is saved can be
submitted again (`configuration_consistent`).

The exception are lists of domains.  Their size is limited where they are submitted, and they
are saved with a blank after each comma, so that a list may come to be saved that is too long
to be submitted (`stored_list_refused`).
-/
import CtfZone.ConfigurationRuns
import CtfZone.LoneTransactions

namespace CtfZone.Configuration

open Runs Slots SharedLocks Locking.Program
open Journal (isWhitespace)

variable {formats : Formats} {t : ConfigTables}

/-! ## What is submitted -/

/-- A value that is saved is submitted again; a list of domains is not too long for it. -/
def SubmittedAgain (t : ConfigTables) (key : String) (json : Json) : Prop :=
  ∃ d ∈ settings, d.key = key ∧ d.kind ≠ .secret ∧ ∃ value, t.config key = some (some value) ∧
    Resubmitted d.kind value json ∧ (DomainList key → value.utf8ByteSize ≤ 100000)

/-- Mutations to what there is. -/
def Saved (t : ConfigTables) (normalized : List (String × String)) : Prop :=
  ∀ p ∈ normalized, t.config p.1 = some (some p.2)

theorem values_saved {key value : String} (h : t.config key = some (some value)) :
    t.values key = some value := by
  rw [ConfigTables.values, h]
  rfl

theorem upsert_saved {key value : String} (h : t.config key = some (some value)) :
    t.upsert key value = t := by
  rw [ConfigTables.upsert, ← h, Function.update_eq_self]

theorem Saved.upserts {normalized : List (String × String)} (h : Saved t normalized) :
    t.upserts normalized = t := by
  induction normalized with
  | nil => rfl
  | cons p normalized ih =>
      obtain ⟨hp, hrest⟩ := List.forall_mem_cons.mp h
      have hsame : t.upsert p.1 p.2 = t := upsert_saved hp
      exact (congrArg (ConfigTables.upserts · normalized) hsame).trans (ih hrest)

/-- **What is submitted again is normalised to what there is.** -/
theorem normalizeAll_again (ht : Consistent formats t) {request : List (String × Json)}
    (h : ∀ p ∈ request, SubmittedAgain t p.1 p.2) :
    ∃ normalized, normalizeAll formats t.values request = .ok (t.values, normalized) ∧
      Saved t normalized ∧ normalized.map Prod.fst = request.map Prod.fst := by
  induction request with
  | nil => exact ⟨[], rfl, nofun, rfl⟩
  | cons p request ih =>
      obtain ⟨⟨d, hd, hkey, hkind, value, hrow, hjson, hshort⟩, hrest⟩ := List.forall_mem_cons.mp h
      obtain ⟨normalized, hall, hsaved, hkeys⟩ := ih hrest
      have hvalue := values_saved hrow
      have hsettled := ht.settled d hd value (hkey ▸ hvalue)
      have hsame := hsettled.again hkind (hkey ▸ hshort) p.2 hjson (t.values p.1)
      rw [hkey] at hsame
      have hmerged : Function.update t.values p.1 (some value) = t.values := by
        rw [← hvalue, Function.update_eq_self]
      refine ⟨(p.1, value) :: normalized, ?_, List.forall_mem_cons.mpr ⟨hrow, hsaved⟩, ?_⟩
      · refine bind_eq_ok.mpr ⟨value, hsame, bind_eq_ok.mpr ⟨(t.values, normalized), ?_, rfl⟩⟩
        rw [hmerged]
        exact hall
      · rw [List.map_cons, List.map_cons, hkeys]

/-! ## Alone -/

theorem alone_upsertAll (normalized : List (String × String)) :
    alone (upsertAll normalized) t = .ok (⟨⟩, t.upserts normalized) := by
  induction normalized generalizing t with
  | nil => rfl
  | cons p normalized ih =>
      rw [upsertAll, alone_bind, upsertConfig, alone_change]
      exact ih

theorem alone_requireAdmin {userId : ℤ} (h : t.admins.contains userId = true) :
    alone (requireAdmin userId) t = .ok (⟨⟩, t) := by
  rw [requireAdmin, alone_bind, alone_select]
  simp only [Except.bind, h, alone_check, if_true]

/-- The value of a mutation to the mode is the mode. -/
theorem requestedMode_saved {normalized : List (String × String)} (h : Saved t normalized)
    {mode : String} (hmode : requestedMode normalized = some mode) :
    t.config "user_mode" = some (some mode) := by
  obtain ⟨p, hp, rfl⟩ := Option.map_eq_some_iff.mp hmode
  have hfound := List.find?_some hp
  have hkey : p.1 = "user_mode" := of_decide_eq_true hfound
  rw [← hkey]
  exact h p (List.mem_of_find?_eq_some hp)

/-- Nothing is changed by it, and nothing refused. -/
theorem alone_normalizeMutations (ht : Consistent formats t) {request : List (String × Json)}
    (h : ∀ p ∈ request, SubmittedAgain t p.1 p.2) :
    ∃ normalized, alone (normalizeMutations formats request) t = .ok (normalized, t) ∧
      Saved t normalized ∧ normalized.map Prod.fst = request.map Prod.fst := by
  obtain ⟨normalized, hall, hsaved, hkeys⟩ := normalizeAll_again ht h
  refine ⟨normalized, ?_, hsaved, hkeys⟩
  have hmode : alone (validateUserModeTransition t.values normalized) t = .ok (⟨⟩, t) := by
    rw [validateUserModeTransition, alone_onlyIf]
    split
    · rename_i hsome
      obtain ⟨mode, hmode⟩ := Option.isSome_iff_exists.mp hsome
      have hrow := requestedMode_saved hsaved hmode
      rw [alone_bind, alone_select]
      simp only [Except.bind, alone_check, hrow, values_saved hrow, Option.join_some,
        Option.getD_some, decide_true, if_true]
    · rfl
  simp only [normalizeMutations, alone_bind, alone_acquire, alone_select, alone_liftExcept,
    Except.bind, Except.map, hall, ht.agree, hmode, alone_pure]

theorem alone_rejectDirect (ht : Consistent formats t) (hcomplete : t.isComplete = true)
    {normalized : List (String × String)} (h : Saved t normalized) :
    alone (rejectDirectUserModeChange normalized) t = .ok (⟨⟩, t) := by
  unfold rejectDirectUserModeChange
  split
  · rfl
  · rename_i mode hrequested
    obtain ⟨mode', hmem, hrow⟩ := ht.mode hcomplete
    obtain rfl : mode = mode' := by
      have heq := (requestedMode_saved h hrequested).symm.trans hrow
      exact Option.some.inj (Option.some.inj heq)
    have hcurrent : t.transactionUserMode = mode := by
      have hblank : ∀ mode ∈ userModes, decide (trim mode ≠ "") = true := by
        repeat refine List.forall_mem_cons.mpr ⟨rfl, ?_⟩
        exact List.forall_mem_nil _
      rw [ConfigTables.transactionUserMode, hrow, Option.join_some, Option.filter_some,
        if_pos (hblank mode hmem)]
      rfl
    rw [alone_bind, alone_select]
    simp only [Except.bind, alone_check, hcurrent, decide_true, if_true]

/-- **A patch of what there is changes nothing.** -/
theorem patchConfigs_again (ht : Consistent formats t) {userId : ℤ}
    (hadmin : t.admins.contains userId = true) {request : List (String × Json)}
    (h : ∀ p ∈ request, SubmittedAgain t p.1 p.2) :
    alone (patchConfigs formats userId request) t = .ok (.configured none, t) := by
  obtain ⟨normalized, halone, hsaved, -⟩ := alone_normalizeMutations ht h
  have hdirect := alone_rejectDirect ht (isComplete_of_admin hadmin) hsaved
  simp only [patchConfigs, alone_bind, alone_requireAdmin hadmin, Except.bind, halone, hdirect,
    alone_upsertAll, hsaved.upserts, alone_pure]

/-- **And so does an update.** -/
theorem updateConfig_again (ht : Consistent formats t) {userId : ℤ}
    (hadmin : t.admins.contains userId = true) {key : String} {json : Json}
    (h : SubmittedAgain t key json) :
    ∃ shown, alone (updateConfig formats userId key json) t = .ok (.configured shown, t) := by
  obtain ⟨normalized, halone, hsaved, hkeys⟩ :=
    alone_normalizeMutations ht (List.forall_mem_singleton.mpr (show SubmittedAgain t
      (key, json).1 (key, json).2 from h))
  have hdirect := alone_rejectDirect ht (isComplete_of_admin hadmin) hsaved
  rcases normalized with _ | ⟨⟨key', value⟩, rest⟩
  · cases hkeys
  · obtain ⟨hkey, -⟩ := List.cons.inj hkeys
    obtain rfl : key' = key := hkey
    have hrow := hsaved _ List.mem_cons_self
    refine ⟨some (.of key' value), ?_⟩
    simp only [updateConfig, alone_bind, alone_requireAdmin hadmin, Except.bind, halone, hdirect]
    simp only [storedValue, List.head?_cons, Option.map_some, Submissions.required,
      alone_liftExcept, Except.map, upsertConfig, alone_change, upsert_saved hrow, alone_pure]

/-- A list of domains that has become too long is refused. -/
theorem updateConfig_long (ht : Consistent formats t) {userId : ℤ}
    (hadmin : t.admins.contains userId = true) {d : SettingDefinition} (hd : d ∈ settings)
    (hkey : DomainList d.key) {value : String} (hrow : t.config d.key = some (some value))
    (hlong : 100000 < value.utf8ByteSize) :
    alone (updateConfig formats userId d.key (.string value)) t =
      .error (d.label ++ " is too long") := by
  have hrules := (ht.settled d hd value (values_saved hrow)).rules hkey
  have hrefused : normalizeAll formats t.values [(d.key, .string value)] =
      .error (d.label ++ " is too long") := by
    simp only [normalizeAll, bind, Except.bind, normalizeValue_long hd hkey hrules hlong]
  simp only [updateConfig, normalizeMutations, alone_bind, alone_requireAdmin hadmin,
    alone_acquire, alone_select, alone_liftExcept, Except.bind, Except.map, hrefused]

/-! ## The settings of a portal -/

/-- **The settings stay consistent**: in every state of every run they agree and are of their
kinds; what is saved can be submitted again, unless it is a list of domains that has become too
long; and only commits save anything, of which those of the routes leave the mode. -/
theorem configuration_consistent (formats : Formats) {s : Portal}
    (h : Reach (portalStep formats) anyStep Initial s) :
    CrossFields s.store.values ∧
    (∀ d ∈ settings, ∀ value, s.store.values d.key = some value → Conforms d.kind value) ∧
    (∀ userId, s.store.admins.contains userId = true →
      (∀ request, (∀ p ∈ request, SubmittedAgain s.store p.1 p.2) →
        alone (patchConfigs formats userId request) s.store =
          .ok (.configured none, s.store)) ∧
      (∀ key json, SubmittedAgain s.store key json →
        ∃ shown, alone (updateConfig formats userId key json) s.store =
          .ok (.configured shown, s.store)) ∧
      ∀ d ∈ settings, DomainList d.key → ∀ value, s.store.config d.key = some (some value) →
        100000 < value.utf8ByteSize →
        alone (updateConfig formats userId d.key (.string value)) s.store =
          .error (d.label ++ " is too long")) ∧
    (∀ l s', portalStep formats l s = some s' → s'.store = s.store ∨ (∃ e, l = .other e) ∨
      ∃ i n answer, l = .advance i n ∧ committing s i = some answer) ∧
    ∀ i a shown, at' id s.running i = some a → a.program = .done (.configured shown) →
      (a.pending s.store).config "user_mode" = s.store.config "user_mode" := by
  have hsound := portal_sound h
  have hinv : Consistent formats s.store := hsound.inv
  refine ⟨crossFields_of_validate hinv.agree, ?_, ?_, ?_, ?_⟩
  · intro d hd value hvalue
    exact (hinv.settled d hd value hvalue).conforms
  · intro userId hadmin
    refine ⟨?_, ?_, ?_⟩
    · intro request hagain
      exact patchConfigs_again hinv hadmin hagain
    · intro key json hagain
      exact updateConfig_again hinv hadmin hagain
    · intro d hd hkey value hrow hlong
      exact updateConfig_long hinv hadmin hd hkey hrow hlong
  · intro l s' hstep
    rcases step_store hstep with hsame | ⟨e, hother, -⟩ | ⟨i, n, a, answer, hl, ha, hdone, -⟩
    · exact .inl hsame
    · exact .inr (.inl ⟨e, hother⟩)
    · exact .inr (.inr ⟨i, n, answer, hl, committing_eq.mpr ⟨a, ha, hdone⟩⟩)
  · intro i a shown ha hdone
    exact hsound.effect ha hdone

/-- Formats that nothing is of. -/
def plain : Formats := ⟨fun _ => none, fun _ => false⟩

/-- A portal that is not set up. -/
def blankPortal : Portal := ⟨⟨fun _ => none, []⟩, fun q => q.elim, []⟩

/-- The setup, and a start time. -/
def startsAtFive : List (Locking.Label Request Event) :=
  .begin (.setup 1 none none) :: List.replicate 26 (.advance 0 0) ++
    .begin (.updateConfig 1 "start" (.string "5")) :: List.replicate 5 (.advance 1 0)

/-- A start time that is saved is submitted again. -/
theorem configuration_consistent_start : ∃ s : Portal,
    Reach (portalStep plain) anyStep Initial s ∧ s.store.config "start" = some (some "5") ∧
      ∃ shown, alone (updateConfig plain 1 "start" (.string "5")) s.store =
        .ok (.configured shown, s.store) := by
  have hrun : ((run (portalStep plain) startsAtFive blankPortal).any fun s =>
      s.store.config "start" = some (some "5") && s.store.admins.contains 1) = true := by
    decide +kernel
  obtain ⟨s, hs, hfacts⟩ := (Option.any_eq_true _ _).mp hrun
  rw [Bool.and_eq_true, decide_eq_true_eq] at hfacts
  obtain ⟨hrow, hadmin⟩ := hfacts
  have hreach : Reach (portalStep plain) anyStep Initial s := reach_of_run _ ⟨rfl, rfl, rfl⟩ hs
  have hstart : (⟨"start", "Start time", .dateTime, false⟩ : SettingDefinition) ∈ settings := by
    decide +kernel
  have hagain : SubmittedAgain s.store "start" (.string "5") :=
    ⟨_, hstart, rfl, by decide, "5", hrow, .inl rfl, by decide⟩
  obtain ⟨-, -, hsubmitted, -⟩ := configuration_consistent plain hreach
  exact ⟨s, hreach, hrow, (hsubmitted 1 hadmin).2.1 _ _ hagain⟩

/-! ## A list that is too long to be submitted again -/

/-- A change of another setting than the mode. -/
theorem alone_updateConfig {userId : ℤ} (hadmin : t.admins.contains userId = true)
    {key value : String} {json : Json} (hkey : key ≠ "user_mode")
    (hvalue : normalizeValue formats key json (t.values key) = .ok value)
    (hagree : validateCrossFields (Function.update t.values key (some value)) = .ok ⟨⟩) :
    alone (updateConfig formats userId key json) t =
      .ok (.configured (some (.of key value)), t.upsert key value) := by
  have hall : normalizeAll formats t.values [(key, json)] =
      .ok (Function.update t.values key (some value), [(key, value)]) := by
    simp only [normalizeAll, bind, Except.bind, hvalue]
    rfl
  have hmode : requestedMode [(key, value)] = none := by
    rw [requestedMode, List.find?_singleton, if_neg (by simpa using hkey)]
    rfl
  simp only [updateConfig, normalizeMutations, validateUserModeTransition,
    rejectDirectUserModeChange, alone_bind, alone_requireAdmin hadmin, alone_acquire,
    alone_select, alone_liftExcept, alone_onlyIf, alone_pure, Except.bind, Except.map, hall,
    hagree, hmode, Option.isSome_none, Bool.false_eq_true, if_false, storedValue, List.head?_cons,
    Option.map_some, Submissions.required, upsertConfig, alone_change]

/-- A domain of two labels. -/
def domain (p : ℕ × ℕ) : String :=
  String.ofList (List.replicate (p.1 + 1) 'a' ++ '.' :: List.replicate (p.2 + 41) 'b')

/-- Twelve hundred domains. -/
def manyDomains : List String := ((List.range 60).product (List.range 20)).map domain

theorem mem_domain {p : ℕ × ℕ} {c : Char} (hc : c ∈ (domain p).toList) :
    c = 'a' ∨ c = '.' ∨ c = 'b' := by
  rw [domain, String.toList_ofList] at hc
  rcases List.mem_append.mp hc with hc | hc
  · exact .inl (List.eq_of_mem_replicate hc)
  · rcases List.mem_cons.mp hc with hc | hc
    · exact .inr (.inl hc)
    · exact .inr (.inr (List.eq_of_mem_replicate hc))

theorem size_domain (p : ℕ × ℕ) : (domain p).utf8ByteSize = p.1 + p.2 + 43 := by
  have hone : ∀ c ∈ (domain p).toList, c.utf8Size = 1 := by
    intro c hc
    rcases mem_domain hc with rfl | rfl | rfl <;> rfl
  rw [utf8ByteSize_eq, utf8Length_of_forall hone, domain, String.toList_ofList]
  simp only [List.length_append, List.length_cons, List.length_replicate]
  omega

theorem domain_injective : Function.Injective domain := by
  intro p q h
  have hlists := congrArg String.toList h
  rw [domain, domain, String.toList_ofList, String.toList_ofList] at hlists
  have hleft := congrArg (List.count 'a') hlists
  have hright := congrArg (List.count 'b') hlists
  simp only [List.count_append, List.count_cons, List.count_replicate] at hleft hright
  refine Prod.ext ?_ ?_
  · simpa using hleft
  · simpa using hright

theorem validLabel_replicate {c : Char} (hchar : c.isAlphanum = true) (hsize : c.utf8Size = 1)
    {n : ℕ} (hn : n < 63) : validLabel (List.replicate (n + 1) c) = true := by
  have hlength : utf8Length (List.replicate (n + 1) c) = n + 1 := by
    rw [utf8Length_of_forall fun d hd => List.eq_of_mem_replicate hd ▸ hsize, List.length_replicate]
  have hall : (List.replicate (n + 1) c).all isLabelChar = true := by
    rw [List.all_eq_true]
    intro d hd
    rw [List.eq_of_mem_replicate hd, isLabelChar, hchar, Bool.true_or]
  rw [validLabel, hlength, hall, List.head?_replicate, List.getLast?_replicate]
  simp only [List.replicate_succ, List.isEmpty_cons, Nat.add_eq_zero_iff, Nat.one_ne_zero,
    and_false, if_false, Option.any_some, hchar, Bool.not_false, Bool.and_true, Bool.true_and,
    decide_eq_true_eq]
  omega

/-- They are rules as they are saved. -/
theorem rule_domain {p : ℕ × ℕ} (hp : p.1 < 60 ∧ p.2 < 20) : Rule (domain p) := by
  have hchars : ∀ c ∈ (domain p).toList, isWhitespace c = false ∧ c.toLower = c ∧ c ≠ '*' := by
    intro c hc
    rcases mem_domain hc with rfl | rfl | rfl <;> decide
  have htrim : trim (domain p) = domain p := trim_of_forall fun c hc => (hchars c hc).1
  have hlower : Accounts.toAsciiLowercase (domain p) = domain p := by
    rw [Accounts.toAsciiLowercase, List.map_congr_left fun c hc => (hchars c hc).2.1, List.map_id',
      String.ofList_toList]
  have hplain : (domain p).toList.contains '*' = false := by
    rw [← Bool.not_eq_true, List.contains_iff_mem]
    exact fun hmem => (hchars '*' hmem).2.2 rfl
  have hlabels : (domain p).toList.splitOn '.' =
      [List.replicate (p.1 + 1) 'a', List.replicate (p.2 + 41) 'b'] := by
    rw [domain, String.toList_ofList, List.splitOn_append_cons_self_of_not_mem,
      List.splitOn_eq_singleton]
    · exact fun hmem => absurd (List.eq_of_mem_replicate hmem) (by decide)
    · exact fun hmem => absurd (List.eq_of_mem_replicate hmem) (by decide)
  have hvalid : validDnsDomain (domain p).toList = true := by
    have hdot : (domain p).toList.contains '.' = true := by
      rw [List.contains_iff_mem, domain, String.toList_ofList]
      exact List.mem_append_right _ List.mem_cons_self
    rw [validDnsDomain, hlabels, hdot, ← utf8ByteSize_eq, size_domain]
    simp only [List.all_cons, List.all_nil, validLabel_replicate (c := 'a') rfl rfl
      (show p.1 < 63 by omega), validLabel_replicate (c := 'b') rfl rfl
      (show p.2 + 40 < 63 by omega), Bool.and_true, decide_eq_true_eq]
    omega
  have hstrip : stripWildcard (domain p).toList = (domain p).toList := by
    rw [domain, String.toList_ofList, List.replicate_succ]
    rfl
  have hnormal : normalizeDomainRule (domain p) = some (domain p) := by
    rw [normalizeDomainRule, htrim, hlower, hplain, hstrip, hvalid]
    rfl
  exact rule_of_normalizeDomainRule hnormal

theorem manyDomains_rules : (∀ rule ∈ manyDomains, Rule rule) ∧ manyDomains.Nodup := by
  constructor
  · intro rule hrule
    obtain ⟨p, hp, rfl⟩ := List.mem_map.mp hrule
    obtain ⟨hleft, hright⟩ := List.pair_mem_product.mp (show (p.1, p.2) ∈ _ from hp)
    exact rule_domain ⟨List.mem_range.mp hleft, List.mem_range.mp hright⟩
  · exact (List.nodup_range.product List.nodup_range).map domain_injective

/-- What they take, joined, with a separator after the last. -/
theorem size_manyDomains (separator : List Char) :
    (joinRules separator manyDomains).utf8ByteSize + utf8Length separator =
      (((List.range 60).product (List.range 20)).map fun p =>
        utf8Length separator + (p.1 + p.2 + 43)).sum := by
  have hsizes : (manyDomains.map fun rule => utf8Length separator + rule.utf8ByteSize) =
      ((List.range 60).product (List.range 20)).map fun p =>
        utf8Length separator + (p.1 + p.2 + 43) := by
    rw [manyDomains, List.map_map]
    refine List.map_congr_left fun p _ => ?_
    rw [Function.comp_apply, size_domain]
  rw [← hsizes]
  obtain ⟨rule, rules, hmany⟩ : ∃ rule rules, manyDomains = rule :: rules := ⟨_, _, rfl⟩
  rw [hmany, size_joinRules, List.map_cons, List.sum_cons]
  omega

/-- The list of the allowed domains. -/
def whitelist : SettingDefinition := ⟨"domain_whitelist", "Allowed email domains", .text, false⟩

theorem whitelist_mem : whitelist ∈ settings := List.mem_of_getElem? (i := 13) rfl

/-- It is short enough with commas alone, and saved with blanks after them. -/
theorem manyDomains_saved (current : Option String) :
    normalizeValue plain "domain_whitelist" (.string (joinRules [','] manyDomains)) current =
      .ok (joinRules [',', ' '] manyDomains) := by
  obtain ⟨hrules, hnodup⟩ := manyDomains_rules
  have hsize : (joinRules [','] manyDomains).utf8ByteSize ≤ 100000 := by
    have htotal := size_manyDomains [',']
    have hsum : (((List.range 60).product (List.range 20)).map fun p =>
        utf8Length [','] + (p.1 + p.2 + 43)).sum = 99600 := by decide +kernel
    omega
  have hplain : ensure (! ((joinRules [','] manyDomains).toList.contains '\x00' ||
      ((joinRules [','] manyDomains).toList.any isControl && false)))
        (whitelist.label ++ " contains control characters") = .ok ⟨⟩ := by
    rw [ensure_eq_ok, no_nul_joinRules (by decide) hrules, Bool.and_false]
    rfl
  refine (normalizeValue_eq plain whitelist_mem _ current).trans ?_
  simp only [whitelist, normalizeText, textValue_string (trim_joinRules [','] hrules)]
  refine bind_eq_ok.mpr ⟨_, rfl, bind_eq_ok.mpr ⟨⟨⟩, hplain, bind_eq_ok.mpr ⟨⟨⟩, ?_, ?_⟩⟩⟩
  · exact ensure_eq_ok.mpr (decide_eq_true hsize)
  · rw [acceptText, if_neg (by decide), if_pos (.inl rfl)]
    have hblanks : ∀ c ∈ ([] : List Char), isWhitespace c = true :=
      fun c hc => absurd hc List.not_mem_nil
    exact normalizeDomainRules_join hblanks hrules hnodup

/-- **A list of domains comes to be saved that is refused when it is submitted again.** -/
theorem stored_list_refused : ∃ s : Portal, Reach (portalStep plain) anyStep Initial s ∧
    s.store.admins.contains 1 = true ∧
    s.store.config "domain_whitelist" = some (some (joinRules [',', ' '] manyDomains)) ∧
    alone (updateConfig plain 1 "domain_whitelist"
      (.string (joinRules [',', ' '] manyDomains))) s.store =
        .error "Allowed email domains is too long" := by
  have hrun : ((run (portalStep plain) (startsAtFive.take 27) blankPortal).any fun s =>
      s.store.admins.contains 1 && s.running.all Option.isNone) = true := by
    decide +kernel
  obtain ⟨s, hs, hfacts⟩ := (Option.any_eq_true _ _).mp hrun
  rw [Bool.and_eq_true] at hfacts
  obtain ⟨hadmin, hrunning⟩ := hfacts
  have hidle : Idle s := fun x hx => Option.isNone_iff_eq_none.mp (List.all_eq_true.mp hrunning x hx)
  have hreach : Reach (portalStep plain) anyStep Initial s := reach_of_run _ ⟨rfl, rfl, rfl⟩ hs
  have hagree : validateCrossFields (Function.update s.store.values "domain_whitelist"
      (some (joinRules [',', ' '] manyDomains))) = .ok ⟨⟩ := by
    rw [← (portal_sound hreach).inv.agree]
    have hother : ∀ key ∈ crossKeys, key ≠ "domain_whitelist" := by decide
    exact validateCrossFields_congr fun key hkey => Function.update_of_ne (hother key hkey) _ _
  have halone : alone (Request.transaction plain (.updateConfig 1 "domain_whitelist"
      (.string (joinRules [','] manyDomains)))) s.store = _ :=
    alone_updateConfig hadmin (by decide)
      (manyDomains_saved (s.store.values "domain_whitelist")) hagree
  obtain ⟨s', hlead, hstore, -⟩ : ∃ s', Leads (portalStep plain) anyStep s s' ∧
      s'.store = s.store.upsert "domain_whitelist" (joinRules [',', ' '] manyDomains) ∧ Idle s' :=
    commits_alone hidle halone
  have hreach' : Reach (portalStep plain) anyStep Initial s' := hreach.leads hlead
  have hadmin' : s'.store.admins.contains 1 = true := by
    rw [hstore]
    exact hadmin
  have hrow : s'.store.config "domain_whitelist" =
      some (some (joinRules [',', ' '] manyDomains)) := by
    rw [hstore, config_upsert_self]
  have hlong : 100000 < (joinRules [',', ' '] manyDomains).utf8ByteSize := by
    have htotal := size_manyDomains [',', ' ']
    have hsum : (((List.range 60).product (List.range 20)).map fun p =>
        utf8Length [',', ' '] + (p.1 + p.2 + 43)).sum = 100800 := by decide +kernel
    have hseparator : utf8Length [',', ' '] = 2 := by decide
    omega
  exact ⟨s', hreach', hadmin', hrow,
    updateConfig_long (portal_sound hreach').inv hadmin' whitelist_mem (.inl rfl) hrow hlong⟩

end CtfZone.Configuration
