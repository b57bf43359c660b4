/-
# Generated flags identify their owners

Requests on flag definitions, launches among them, run beside each other under one key of the
server, and in every state of every run a flag that is looked up tells who holds it
(`generated_flags_identify`).

The tag of a text is determined by the text, up to case where the flag is not case-sensitive
(`matchTag_congr`); that nothing else has it is what is assumed of the HMAC
(`matches_of_matchTag`).  That no two users share a tag is the key of the table.
-/
import CtfZone.GeneratedFlags

namespace CtfZone.FlagDefinitions

open Journal Runs Locking Locking.Program Locking.Protocol Tables
open Submissions (generatedFlagMatch flagMatchesLiteral FlagMatch)

variable {crates : Crates} {t : FlagTables crates} {secretKey : String}

/-! ## Runs -/

/-- Launches use the key of the server, and the mode of the portal does not change. -/
def Launches (secretKey : String) :
    Portal crates → Locking.Label Request Event → Prop
  | _, .begin (.ensureInstance request) => request.secretKey = secretKey
  | _, .other .clearAllocations => False
  | _, _ => True

/-- What else happens touches no allocation. -/
theorem event_settles (event : Event) (hevent : event ≠ .clearAllocations)
    (t : FlagTables crates) : Settled t (event.apply t) := by
  rcases event with i | ⟨runtimeConfigs, gateEnabled⟩ | _
  · refine ⟨rfl, fun row' hrow' => ?_⟩
    obtain ⟨j, hj⟩ := List.mem_iff_getElem?.mp hrow'
    rw [Event.apply, List.getElem?_modify] at hj
    obtain ⟨row, hrow, heq⟩ := Option.map_eq_some_iff.mp hj
    refine ⟨row, List.mem_iff_getElem?.mpr ⟨j, hrow⟩, ?_⟩
    split at heq <;> (rw [← heq]; exact ⟨rfl, rfl, rfl⟩)
  · exact ⟨rfl, fun row hrow => ⟨row, hrow, rfl, rfl, rfl⟩⟩
  · exact absurd rfl hevent

theorem initial_allocated {s : Portal crates} (h : Initial s) :
    (allocating crates secretKey).Sound s := by
  have hsound := initial_sound h
  obtain ⟨-, -, hrows, hinstances, hrunning⟩ := h
  have hnothing : ∀ i a, Slots.at' id s.running i ≠ some a := by
    intro i a ha
    rw [hrunning, Slots.at'] at ha
    cases ha
  constructor
  case inv =>
    constructor
    case integrity => exact hsound.inv
    case distinct =>
      rw [hrows]
      exact .nil
    all_goals simp [hrows, hinstances]
  case unused => exact hsound.unused
  case kept => exact fun i a ha => absurd ha (hnothing i a)
  case drawn => exact fun i a ha => absurd ha (hnothing i a)
  case exclusive => exact fun i _ a _ _ ha => absurd ha (hnothing i a)

/-- The allocations are kept in every run. -/
theorem portal_allocated {s : Portal crates} (h : Reach portalStep (Launches secretKey) Initial s) :
    Allocated secretKey s.store := by
  refine (invariant_if ?_ ?_ (fun _ hinit => initial_allocated hinit) h).inv
  · intro s request hguard hinv
    by_cases hlaunch : ∃ launch, request = .ensureInstance launch
    · obtain ⟨launch, rfl⟩ := hlaunch
      exact safe_bind.mpr (ensureInstance_keeps launch hguard)
    · exact request_keeps request fun launch heq => hlaunch ⟨launch, heq⟩
  · intro s event hguard hinv
    refine guarantee_settled hinv (event_guarantee event hinv.integrity) (event_settles event ?_ _)
    rintro rfl
    exact hguard

/-! ## Tags -/

/-- Texts that are matched alike have the same tag. -/
theorem matchTag_congr {c : ℤ} {value provided : String} {caseSensitive : Bool}
    (h : flagMatchesLiteral crates value provided caseSensitive = true) :
    matchTag crates secretKey c provided caseSensitive =
      matchTag crates secretKey c value caseSensitive := by
  unfold flagMatchesLiteral at h
  unfold matchTag
  rcases caseSensitive with _ | _
  · rw [if_neg (by decide), if_neg (by decide)]
    rw [if_neg (by decide)] at h
    rw [of_decide_eq_true h]
  · rw [if_pos rfl] at h
    rw [of_decide_eq_true h]

/-- **Texts with the same tag are matched alike**, if the HMAC tells messages apart. -/
theorem matches_of_matchTag
    (hinjective : Function.Injective (crates.hmac secretKey.toUTF8)) {c : ℤ}
    {value provided : String} {caseSensitive : Bool}
    (h : matchTag crates secretKey c provided caseSensitive =
      matchTag crates secretKey c value caseSensitive) :
    flagMatchesLiteral crates value provided caseSensitive = true := by
  have hmessage := (ByteArray.append_right_inj _).mp (hinjective h)
  have hnormalized := String.toByteArray_inj.mp hmessage
  unfold flagMatchesLiteral
  rcases caseSensitive with _ | _
  · rw [if_neg (by decide), if_neg (by decide)] at hnormalized
    rw [if_neg (by decide)]
    exact decide_eq_true hnormalized.symm
  · rw [if_pos rfl, if_pos rfl] at hnormalized
    rw [if_pos rfl]
    exact decide_eq_true hnormalized.symm

/-! ## Holders -/

/-- An allocation of a challenge is of its generated flag. -/
theorem Allocated.flag_of (h : Allocated secretKey t) {row : UserChallengeFlag}
    (hrow : row ∈ t.userChallengeFlags) {flag : SavedFlag crates} (hflag : flag ∈ t.flags)
    (htype : flag.flagType = "generated") (hplace : row.challengeId = flag.challengeId) :
    row.flagId = flag.id := by
  obtain ⟨flag', hflag', hid', hplace', -⟩ := h.integrity.allocated row hrow
  have htype' := h.generated row hrow flag' hflag' hid'
  rw [h.integrity.single flag hflag flag' hflag' htype htype' (hplace.symm.trans hplace'.symm)]
  exact hid'.symm

/-- A user holds one value of a challenge at most. -/
theorem Holds.unique (h : Allocated secretKey t) {c u : ℤ} {value value' : String}
    (hvalue : Holds t c u value) (hvalue' : Holds t c u value') : value = value' := by
  obtain ⟨row, hrow, flag, hflag, hid, rfl, rfl, rfl⟩ := hvalue
  obtain ⟨row', hrow', flag', hflag', hid', hplace, huser, rfl⟩ := hvalue'
  have htype := h.generated row hrow flag hflag hid
  have hchallenge := h.integrity.assigned_challenge hflag hrow hid.symm
  have hsame : row'.flagId = flag.id := h.flag_of hrow' hflag htype (hplace.trans hchallenge)
  have hrows : row = row' := by
    by_contra hne
    have hdistinct := h.distinct.forall hrow hrow' hne
    exact hdistinct.1 ⟨hid.symm.trans hsame.symm, huser.symm⟩
  rw [h.integrity.flag_unique hflag hflag' (hsame.symm.trans hid'.symm), hrows]

/-- The allocation that a value of a user is held by. -/
theorem Holds.allocation (h : Allocated secretKey t) {flag : SavedFlag crates}
    (hflag : flag ∈ t.flags) (htype : flag.flagType = "generated") {policy : FlagPolicyData}
    (hpolicy : parsePolicy flag.data = .ok policy) {u : ℤ} {value : String}
    (hvalue : Holds t flag.challengeId u value) :
    ∃ row ∈ t.userChallengeFlags, row.flagId = flag.id ∧ row.challengeId = flag.challengeId ∧
      row.userId = u ∧
      row.matchTag = matchTag crates secretKey flag.challengeId value policy.caseSensitive := by
  obtain ⟨row, hrow, flag', hflag', hid', hplace, huser, rfl⟩ := hvalue
  have hid := h.flag_of hrow hflag htype hplace
  have heq := h.integrity.flag_unique hflag hflag' (hid.symm.trans hid'.symm)
  subst heq
  obtain ⟨policy', hpolicy', htag⟩ := h.tagged row hrow flag hflag hid.symm
  rw [hpolicy] at hpolicy'
  rw [Except.ok.inj hpolicy', ← hplace]
  exact ⟨row, hrow, hid, rfl, huser, htag⟩

/-- An allocation of a flag is a value that a user holds. -/
theorem Allocated.holds (h : Allocated secretKey t) {flag : SavedFlag crates}
    (hflag : flag ∈ t.flags) {row : UserChallengeFlag} (hrow : row ∈ t.userChallengeFlags)
    (hid : row.flagId = flag.id) :
    Holds t flag.challengeId row.userId (rendering flag.toStoredFlag row) :=
  ⟨row, hrow, flag, hflag, hid.symm, h.integrity.assigned_challenge hflag hrow hid, rfl, rfl⟩

/-! ## Lookups -/

/-- What the values of a generated flag tell of who holds them. -/
structure Identifies (secretKey : String) (t : FlagTables crates) (flag : StoredFlag)
    (policy : FlagPolicyData) : Prop where
  apart : ∀ u u' value value', Holds t flag.challengeId u value →
    Holds t flag.challengeId u' value' → u ≠ u' →
      matchTag crates secretKey flag.challengeId value policy.caseSensitive ≠
        matchTag crates secretKey flag.challengeId value' policy.caseSensitive
  own : ∀ u value provided, Holds t flag.challengeId u value →
    flagMatchesLiteral crates value provided policy.caseSensitive = true →
      generatedFlagMatch crates t.userChallengeFlags secretKey flag.challengeId u flag provided =
        .ok .own
  other : ∀ u value provided, Holds t flag.challengeId u value →
    flagMatchesLiteral crates value provided policy.caseSensitive = true → ∀ u', u' ≠ u →
      generatedFlagMatch crates t.userChallengeFlags secretKey flag.challengeId u' flag provided =
        .ok (.other ⟨flag.id, u, policy.acceptOtherUsers,
          matchTag crates secretKey flag.challengeId provided policy.caseSensitive⟩)
  unallocated : ∀ provided,
    (∀ u value, Holds t flag.challengeId u value →
      flagMatchesLiteral crates value provided policy.caseSensitive = false) →
    ∀ u', generatedFlagMatch crates t.userChallengeFlags secretKey flag.challengeId u' flag
      provided = .ok .no

section Lookups

variable {flag : SavedFlag crates} {policy : FlagPolicyData}

/-- The lookup of a text that an allocation has the tag of. -/
theorem generatedFlagMatch_of (h : Allocated secretKey t)
    (hpolicy : parsePolicy flag.data = .ok policy) {row : UserChallengeFlag}
    (hrow : row ∈ t.userChallengeFlags) (hid : row.flagId = flag.id)
    (hplace : row.challengeId = flag.challengeId) {provided : String}
    (htag : row.matchTag =
      matchTag crates secretKey flag.challengeId provided policy.caseSensitive) (u' : ℤ) :
    generatedFlagMatch crates t.userChallengeFlags secretKey flag.challengeId u'
        flag.toStoredFlag provided =
      .ok (if row.userId = u' then .own
        else .other ⟨flag.id, row.userId, policy.acceptOtherUsers, row.matchTag⟩) := by
  have hfind : (t.userChallengeFlags.find? fun other =>
      other.challengeId = flag.challengeId && @decide (other.matchTag =
        matchTag crates secretKey flag.challengeId provided policy.caseSensitive)
        (ByteArray.instDecidableEq _ _)) = some row := by
    rcases hfound : t.userChallengeFlags.find? _ with _ | owner
    · rw [List.find?_eq_none] at hfound
      refine absurd ?_ (hfound row hrow)
      simp [hplace, htag]
    · have hmem := List.mem_of_find?_eq_some hfound
      have hkeys := List.find?_some hfound
      rw [Bool.and_eq_true, decide_eq_true_eq, decide_eq_true_eq] at hkeys
      by_contra hne
      have hdistinct := h.distinct.forall hmem hrow
        fun heq => hne (by rw [heq])
      exact hdistinct.2 ⟨hkeys.1.trans hplace.symm, hkeys.2.trans htag.symm⟩
  have hparse : (parsePolicy flag.toStoredFlag.data) = .ok policy := hpolicy
  unfold generatedFlagMatch
  rw [hparse]
  dsimp only [bind, Except.bind]
  rw [hfind]
  dsimp only
  rw [if_neg (fun hne => hne hid), htag]
  split <;> rfl

/-- The lookup of a text that no allocation has the tag of. -/
theorem generatedFlagMatch_none (hpolicy : parsePolicy flag.data = .ok policy) {provided : String}
    (hnone : ∀ row ∈ t.userChallengeFlags, row.challengeId = flag.challengeId →
      row.matchTag ≠
        matchTag crates secretKey flag.challengeId provided policy.caseSensitive) (u' : ℤ) :
    generatedFlagMatch crates t.userChallengeFlags secretKey flag.challengeId u'
        flag.toStoredFlag provided = .ok .no := by
  have hfind : (t.userChallengeFlags.find? fun other =>
      other.challengeId = flag.challengeId && @decide (other.matchTag =
        matchTag crates secretKey flag.challengeId provided policy.caseSensitive)
        (ByteArray.instDecidableEq _ _)) = none := by
    refine List.find?_eq_none.mpr fun row hrow hkeys => ?_
    rw [Bool.and_eq_true, decide_eq_true_eq, decide_eq_true_eq] at hkeys
    exact hnone row hrow hkeys.1 hkeys.2
  have hparse : (parsePolicy flag.toStoredFlag.data) = .ok policy := hpolicy
  unfold generatedFlagMatch
  rw [hparse]
  dsimp only [bind, Except.bind]
  rw [hfind]
  rfl

/-- **The values of a generated flag identify their owners.** -/
theorem Allocated.identifies (h : Allocated secretKey t)
    (hinjective : Function.Injective (crates.hmac secretKey.toUTF8)) (hflag : flag ∈ t.flags)
    (htype : flag.flagType = "generated") (hpolicy : parsePolicy flag.data = .ok policy) :
    Identifies secretKey t flag.toStoredFlag policy := by
  constructor
  case apart =>
    intro u u' value value' hvalue hvalue' hne htags
    obtain ⟨row, hrow, hid, hplace, huser, htag⟩ := hvalue.allocation h hflag htype hpolicy
    obtain ⟨row', hrow', hid', hplace', huser', htag'⟩ := hvalue'.allocation h hflag htype hpolicy
    have hrows : row ≠ row' := by
      rintro rfl
      exact hne (huser.symm.trans huser')
    have hdistinct := h.distinct.forall hrow hrow' hrows
    exact hdistinct.2 ⟨hplace.trans hplace'.symm, htag.trans (htags.trans htag'.symm)⟩
  case own =>
    intro u value provided hvalue hmatches
    obtain ⟨row, hrow, hid, hplace, huser, htag⟩ := hvalue.allocation h hflag htype hpolicy
    rw [← matchTag_congr hmatches] at htag
    rw [generatedFlagMatch_of h hpolicy hrow hid hplace htag, if_pos huser]
  case other =>
    intro u value provided hvalue hmatches u' hne
    obtain ⟨row, hrow, hid, hplace, huser, htag⟩ := hvalue.allocation h hflag htype hpolicy
    rw [← matchTag_congr hmatches] at htag
    rw [generatedFlagMatch_of h hpolicy hrow hid hplace htag,
      if_neg fun heq => hne (heq.symm.trans huser), huser, htag]
  case unallocated =>
    intro provided hnobody u'
    refine generatedFlagMatch_none hpolicy ?_ u'
    intro row hrow hplace htag
    have hid := h.flag_of hrow hflag htype hplace
    obtain ⟨policy', hpolicy', hown⟩ := h.tagged row hrow flag hflag hid.symm
    rw [hpolicy] at hpolicy'
    rw [← Except.ok.inj hpolicy', hplace] at hown
    have hmatches := matches_of_matchTag hinjective (htag.symm.trans hown)
    rw [hnobody row.userId _ (h.holds hflag hrow hid)] at hmatches
    cases hmatches

end Lookups

/-! ## The result -/

/-- **Generated flags identify their owners.**  In every state of every run of requests beside
each other, whatever the launches are, every launch of a challenge by a user has delivered the
same value; the values of a generated flag that two users hold have different tags; and a text
is classified as their own for who holds it, as another's for everybody else, and as none when
nobody holds it. -/
theorem generated_flags_identify
    (hinjective : Function.Injective (crates.hmac secretKey.toUTF8)) {s : Portal crates}
    (h : Reach portalStep (Launches secretKey) Initial s) :
    (∀ row ∈ s.store.runtimeInstances, ∀ row' ∈ s.store.runtimeInstances,
      row.challengeId = row'.challengeId → row.ownerUserId = row'.ownerUserId →
        ∀ value value', row.Delivers value → row'.Delivers value' →
          value = value' ∧ Holds s.store row.challengeId row.ownerUserId value) ∧
      ∀ flag ∈ s.store.flags, flag.flagType = "generated" → ∃ policy,
        parsePolicy flag.data = .ok policy ∧
          Identifies secretKey s.store flag.toStoredFlag policy := by
  have hallocated := portal_allocated h
  constructor
  · intro row hrow row' hrow' hchallenge howner value value' hvalue hvalue'
    have hholds := hallocated.delivered row hrow value hvalue
    have hholds' := hallocated.delivered row' hrow' value' hvalue'
    rw [← hchallenge, ← howner] at hholds'
    exact ⟨hholds.unique hallocated hholds', hholds⟩
  · intro flag hflag htype
    obtain ⟨policy, hdata⟩ := SavedFlag.data_eq flag
    have hpolicy : parsePolicy flag.data = .ok policy := by
      have hread := FlagPolicyData.fromValue_toValue policy
      rw [FlagPolicyData.toValue] at hread
      rw [hdata, FlagPolicyData.toValue, parsePolicy, hread]
      intro h
      cases h
    exact ⟨policy, hpolicy, hallocated.identifies hinjective hflag htype hpolicy⟩

theorem plainCrates_hmac_injective (key : ByteArray) :
    Function.Injective (plainCrates.hmac key) := by
  intro message message' h
  exact (ByteArray.append_right_inj key).mp h

/-- A launch of the challenge 1. -/
def launchOf (userId : ℤ) (token : BitVec 128) : Locking.Label Request Event :=
  .begin (.ensureInstance ⟨1, userId, false, none, "key", ⟨0, token⟩⟩)

/-- The user 7 launches an instance, stops it and launches another one; then the user 8
launches one. -/
def relaunch : List (Locking.Label Request Event) :=
  .begin (.createChallenge privateChallenge) :: List.replicate 9 (.advance 0 1) ++
    launchOf 7 5 :: List.replicate 13 (.advance 1 0) ++
    .other (.stop 0) :: launchOf 7 6 :: List.replicate 11 (.advance 2 0) ++
    launchOf 8 9 :: List.replicate 13 (.advance 3 0)

instance (s : Portal crates) : ∀ l, Decidable (Launches secretKey s l)
  | .begin (.ensureInstance request) =>
    inferInstanceAs (Decidable (request.secretKey = secretKey))
  | .other .clearAllocations => inferInstanceAs (Decidable False)
  | .begin (.createChallenge _) | .begin (.updateChallenge ..) | .begin (.deleteChallenge _)
  | .begin (.createFlag _) | .begin (.updateFlag ..) | .begin (.deleteFlag _) | .advance ..
  | .abort _ | .other (.stop _) | .other (.configure ..) => inferInstanceAs (Decidable True)

/-- Both instances of the user 7 have the flag of that user, and the one of the user 8 has
another. -/
theorem generated_flags_identify_relaunch : ∃ s : Portal plainCrates,
    s.store.runtimeInstances.map (fun row => row.ownerUserId) = [7, 7, 8] ∧
      (s.store.runtimeInstances.all fun row =>
        (row.deploymentSnapshot.field "flag_value").isSome) = true ∧
      (∀ row ∈ s.store.runtimeInstances, ∀ row' ∈ s.store.runtimeInstances,
        row.challengeId = row'.challengeId → row.ownerUserId = row'.ownerUserId →
          ∀ value value', row.Delivers value → row'.Delivers value' → value = value') ∧
      ∀ flag ∈ s.store.flags, flag.flagType = "generated" → ∃ policy,
        Identifies "key" s.store flag.toStoredFlag policy := by
  have hrun : ((runIf portalStep (Launches "key") relaunch
      (⟨⟨[], [], [], [], [], false⟩, fun _ => 1, []⟩ : Portal plainCrates)).any fun s =>
        decide (s.store.runtimeInstances.map (fun row => row.ownerUserId) = [7, 7, 8]) &&
          s.store.runtimeInstances.all fun row =>
            (row.deploymentSnapshot.field "flag_value").isSome) = true := by
    decide +kernel
  obtain ⟨s, hs, hfacts⟩ := (Option.any_eq_true _ _).mp hrun
  rw [Bool.and_eq_true, decide_eq_true_eq] at hfacts
  obtain ⟨hsame, hidentify⟩ := generated_flags_identify (plainCrates_hmac_injective _)
    (reach_of_runIf relaunch (.init ⟨rfl, rfl, rfl, rfl, rfl⟩) hs)
  refine ⟨s, hfacts.1, hfacts.2, ?_, ?_⟩
  · intro row hrow row' hrow' hchallenge howner value value' hvalue hvalue'
    exact (hsame row hrow row' hrow' hchallenge howner value value' hvalue hvalue').1
  · intro flag hflag htype
    obtain ⟨policy, -, hidentifies⟩ := hidentify flag hflag htype
    exact ⟨policy, hidentifies⟩

end CtfZone.FlagDefinitions
