/-
# Leet masks

A flag with leet variation and no random token (`Numbered`) has one value for each mask, and
its masks are given out one after another: `next_available_leet_mask` looks for the first one
that nobody has among the first `assigned + 1`.  The rows of a flag without a mask are counted
as well, but a numbered flag has none (`Masked`).

A user who has a generated flag cannot be deleted, so a mask that is assigned stays so.

* `exists_unassigned` : why the search is long enough;
* `nextAvailableLeetMask_exact` : what it finds in a set of masks;
* `masking` : the promises of the requests with `Masked`;
* `ensureInstance_ends` : how a launch can fail;
* `leet_mask_allocation_exact` : the masks in every run.
-/
import CtfZone.LeetRendering
import CtfZone.LockedFailures
import CtfZone.FlagOwners
import Mathlib.Order.Interval.Finset.Nat

namespace CtfZone.FlagDefinitions

open Journal Runs Locking Locking.Program Locking.Protocol Tables
open Submissions (required required_eq_ok)

variable {crates : Crates} {t t' : FlagTables crates} {secretKey : String}

/-! ## The search -/

/-- The number of masks of a flag. -/
def leetCapacity (flag : StoredFlag) : ℕ := 2 ^ (leetPositions flag.content.toList).length - 1

/-- Among the first numbers, one more than there are masks, there is one that is no mask. -/
theorem exists_unassigned {masks : List (Option ℕ)} {k : ℕ} (h : masks.length ≤ k) :
    ∃ candidate ∈ (List.range (k + 1)).map (· + 1), some candidate ∉ masks := by
  by_contra hall
  have hsub : (List.range (k + 1)).map (fun n => some (n + 1)) ⊆ masks := by
    intro mask hmask
    obtain ⟨n, hn, rfl⟩ := List.mem_map.mp hmask
    by_contra hnot
    exact hall ⟨n + 1, List.mem_map.mpr ⟨n, hn, rfl⟩, hnot⟩
  have hnodup : ((List.range (k + 1)).map fun n => some (n + 1)).Nodup := by
    refine List.nodup_range.map fun n n' heq => ?_
    have := Option.some.inj heq
    omega
  have hle := (hnodup.subperm hsub).length_le
  rw [List.length_map, List.length_range] at hle
  omega

/-- As many different masks as there are leave none out. -/
theorem all_assigned {masks : List ℕ} {capacity : ℕ} (hnodup : masks.Nodup)
    (hrange : ∀ mask ∈ masks, 1 ≤ mask ∧ mask ≤ capacity) (hfull : capacity ≤ masks.length) :
    ∀ mask, 1 ≤ mask → mask ≤ capacity → mask ∈ masks := by
  have hsub : masks.toFinset ⊆ Finset.Icc 1 capacity := by
    intro mask hmask
    exact Finset.mem_Icc.mpr (hrange mask (List.mem_toFinset.mp hmask))
  have hcard : (Finset.Icc 1 capacity).card ≤ masks.toFinset.card := by
    rw [Nat.card_Icc, List.toFinset_card_of_nodup hnodup]
    omega
  have heq := Finset.eq_of_subset_of_card_le hsub hcard
  intro mask hle hle'
  rw [← List.mem_toFinset, heq, Finset.mem_Icc]
  exact ⟨hle, hle'⟩

/-- The masks of the rows of a flag; a row without a mask has the mask 0 here. -/
def masksOf (rows : List UserChallengeFlag) (flag : StoredFlag) : List ℕ :=
  (rows.filter (·.flagId = flag.id)).map fun row => row.leetMask.getD 0

/-- The rows of a flag show a set of masks: each has one, and no two the same. -/
structure MaskSet (rows : List UserChallengeFlag) (flag : StoredFlag) : Prop where
  given : ∀ row ∈ rows, row.flagId = flag.id → ∃ mask, row.leetMask = some mask ∧
    1 ≤ mask ∧ mask ≤ leetCapacity flag
  single : (rows.filter (·.flagId = flag.id)).Pairwise fun row row' =>
    row.leetMask ≠ row'.leetMask

/-- Every mask of a flag has been assigned. -/
def Exhausted (rows : List UserChallengeFlag) (flag : StoredFlag) : Prop :=
  ∀ mask, 1 ≤ mask → mask ≤ leetCapacity flag →
    ∃ row ∈ rows, row.flagId = flag.id ∧ row.leetMask = some mask

section Sets

variable {rows : List UserChallengeFlag} {flag : StoredFlag}

theorem MaskSet.nodup (h : MaskSet rows flag) : (masksOf rows flag).Nodup := by
  rw [masksOf, List.Nodup, List.pairwise_map]
  refine h.single.imp_of_mem fun {row row'} hrow hrow' hne heq => hne ?_
  rw [List.mem_filter, decide_eq_true_eq] at hrow hrow'
  obtain ⟨mask, hmask, -⟩ := h.given row hrow.1 hrow.2
  obtain ⟨mask', hmask', -⟩ := h.given row' hrow'.1 hrow'.2
  rw [hmask, hmask', Option.getD_some, Option.getD_some] at heq
  rw [hmask, hmask', heq]

theorem MaskSet.range (h : MaskSet rows flag) :
    ∀ mask ∈ masksOf rows flag, 1 ≤ mask ∧ mask ≤ leetCapacity flag := by
  intro mask hmask
  obtain ⟨row, hrow, rfl⟩ := List.mem_map.mp hmask
  rw [List.mem_filter, decide_eq_true_eq] at hrow
  obtain ⟨mask, hsome, hrange⟩ := h.given row hrow.1 hrow.2
  rw [hsome]
  exact hrange

/-- **The masks are exhausted when there are as many rows.** -/
theorem MaskSet.exhausted_iff (h : MaskSet rows flag) :
    Exhausted rows flag ↔ leetCapacity flag ≤ (rows.filter (·.flagId = flag.id)).length := by
  have hlength : (masksOf rows flag).length = (rows.filter (·.flagId = flag.id)).length :=
    List.length_map _
  constructor
  · intro hall
    have hsub : (List.range (leetCapacity flag)).map (· + 1) ⊆ masksOf rows flag := by
      intro mask hmask
      obtain ⟨n, hn, rfl⟩ := List.mem_map.mp hmask
      rw [List.mem_range] at hn
      obtain ⟨row, hrow, hid, hmask⟩ := hall (n + 1) (by omega) (by omega)
      refine List.mem_map.mpr ⟨row, List.mem_filter.mpr ⟨hrow, decide_eq_true hid⟩, ?_⟩
      rw [hmask]
      rfl
    have hnodup : ((List.range (leetCapacity flag)).map (· + 1)).Nodup :=
      List.nodup_range.map fun n n' heq => by simpa using heq
    have hle := (hnodup.subperm hsub).length_le
    rw [List.length_map, List.length_range] at hle
    omega
  · intro hfull mask hle hle'
    have hmem := all_assigned h.nodup h.range (by omega) mask hle hle'
    obtain ⟨row, hrow, heq⟩ := List.mem_map.mp hmem
    rw [List.mem_filter, decide_eq_true_eq] at hrow
    obtain ⟨mask', hsome, -⟩ := h.given row hrow.1 hrow.2
    rw [hsome, Option.getD_some] at heq
    exact ⟨row, hrow.1, hrow.2, by rw [hsome, heq]⟩

theorem nextAvailableLeetMask_eq (rows : List UserChallengeFlag) (flag : StoredFlag) :
    CtfZone.nextAvailableLeetMask rows flag =
      if leetCapacity flag ≤ (rows.filter (·.flagId = flag.id)).length then
        .error "The leet variation space for this challenge is exhausted"
      else
        match ((List.range (min (leetCapacity flag)
            ((rows.filter (·.flagId = flag.id)).length + 1))).map (· + 1)).find? fun candidate =>
              ! (rows.filter (·.flagId = flag.id)).any (·.leetMask = some candidate) with
        | some candidate => .ok candidate
        | none =>
          .error "no rows returned by a query that expected to return at least one row" := rfl

/-- What `next_available_leet_mask` gives: a mask nobody has, or that there is none. -/
structure MaskExact (rows : List UserChallengeFlag) (flag : StoredFlag) : Prop where
  /-- Fewer rows than masks: it is the first mask that no row has. -/
  free : (rows.filter (·.flagId = flag.id)).length < leetCapacity flag →
    ∃ mask, CtfZone.nextAvailableLeetMask rows flag = .ok mask ∧ 1 ≤ mask ∧
      mask ≤ leetCapacity flag ∧
      ∀ row ∈ rows, row.flagId = flag.id → row.leetMask ≠ some mask
  /-- The error is that every mask has been assigned. -/
  exhausted : MaskSet rows flag → (CtfZone.nextAvailableLeetMask rows flag =
    .error "The leet variation space for this challenge is exhausted" ↔ Exhausted rows flag)

/-- **The search is exact.** -/
theorem nextAvailableLeetMask_exact (rows : List UserChallengeFlag) (flag : StoredFlag) :
    MaskExact rows flag := by
  have hfree : (rows.filter (·.flagId = flag.id)).length < leetCapacity flag →
      ∃ mask, CtfZone.nextAvailableLeetMask rows flag = .ok mask ∧ 1 ≤ mask ∧
        mask ≤ leetCapacity flag ∧
        ∀ row ∈ rows, row.flagId = flag.id → row.leetMask ≠ some mask := by
    intro hlt
    let assigned := rows.filter (·.flagId = flag.id)
    have hlength : (assigned.map (·.leetMask)).length ≤ assigned.length := by
      rw [List.length_map]
    obtain ⟨candidate, hcandidate, hnot⟩ := exists_unassigned hlength
    have hmin : min (leetCapacity flag) (assigned.length + 1) = assigned.length + 1 :=
      Nat.min_eq_right hlt
    have hfound : ((((List.range (min (leetCapacity flag) (assigned.length + 1))).map
        (· + 1)).find? fun candidate =>
          ! assigned.any (·.leetMask = some candidate))).isSome = true := by
      rw [hmin, List.find?_isSome]
      refine ⟨candidate, hcandidate, ?_⟩
      rw [Bool.not_eq_true', List.any_eq_false]
      intro row hrow heq
      exact hnot (List.mem_map.mpr ⟨row, hrow, of_decide_eq_true heq⟩)
    obtain ⟨mask, hmask⟩ := Option.isSome_iff_exists.mp hfound
    refine ⟨mask, ?_, ?_⟩
    · rw [nextAvailableLeetMask_eq, if_neg (Nat.not_le.mpr hlt), hmask]
    · have hmem := List.mem_of_find?_eq_some hmask
      obtain ⟨n, hn, rfl⟩ := List.mem_map.mp hmem
      rw [hmin, List.mem_range] at hn
      refine ⟨Nat.succ_pos n, by omega, fun row hrow hid heq => ?_⟩
      have hnone := List.find?_some hmask
      rw [Bool.not_eq_true', List.any_eq_false] at hnone
      exact hnone row (List.mem_filter.mpr ⟨hrow, decide_eq_true hid⟩) (decide_eq_true heq)
  have hfull : leetCapacity flag ≤ (rows.filter (·.flagId = flag.id)).length →
      CtfZone.nextAvailableLeetMask rows flag =
        .error "The leet variation space for this challenge is exhausted" := by
    intro hle
    rw [nextAvailableLeetMask_eq, if_pos hle]
  refine ⟨hfree, fun hset => ?_⟩
  rw [hset.exhausted_iff]
  constructor
  · intro herror
    by_contra hlt
    obtain ⟨mask, hok, -⟩ := hfree (Nat.not_le.mp hlt)
    rw [hok] at herror
    cases herror
  · exact hfull

end Sets

/-! ## Masks that are kept -/

/-- A generated flag whose values are told by their masks alone. -/
def Numbered (flag : StoredFlag) : Prop :=
  flag.flagType = "generated" ∧ tokenIndices 0 0 flag.content.toList = [] ∧
    ∃ policy, parsePolicy flag.data = .ok policy ∧ policy.leetVariation = true

instance (flag : StoredFlag) : Decidable (Numbered flag) :=
  decidable_of_iff (flag.flagType = "generated" ∧ tokenIndices 0 0 flag.content.toList = [] ∧
    (parsePolicy flag.data).toOption.any (·.leetVariation) = true) (by
      unfold Numbered
      rcases parsePolicy flag.data with error | policy
      · simp [Except.toOption]
      · simp [Except.toOption])

/-- An allocation of a numbered flag has a mask of the flag, and no token. -/
def MaskOf (flag : StoredFlag) (row : UserChallengeFlag) : Prop :=
  row.randomToken = none ∧
    ∃ mask, row.leetMask = some mask ∧ 1 ≤ mask ∧ mask ≤ leetCapacity flag

/-- So has every allocation of one. -/
def Masked (t : FlagTables crates) : Prop :=
  ∀ row ∈ t.userChallengeFlags, ∀ flag ∈ t.flags, flag.id = row.flagId →
    Numbered flag.toStoredFlag → MaskOf flag.toStoredFlag row

/-- The promises on allocations, with the masks. -/
def masking (crates : Crates) (secretKey : String) :
    Protocol (FlagTables crates) LockKey Sequence :=
  { allocating crates secretKey with Inv := fun t => Allocated secretKey t ∧ Masked t }

theorem after_allocating {l : Local (FlagTables crates) LockKey Sequence}
    (h : l.after (masking crates secretKey) t) : l.after (allocating crates secretKey) t :=
  ⟨h.1.1, h.2⟩

theorem guarantee_masked {held : List (Hold LockKey Sequence)}
    (h : (allocating crates secretKey).Guarantee held t t') (hmasked : Masked t') :
    (masking crates secretKey).Guarantee held t t' :=
  ⟨⟨h.inv, hmasked⟩, h.transition, h.respects⟩

/-- **Two allocations of a numbered flag have different masks**: with one mask they would have
one value, and one tag. -/
theorem maskSet_of_kept (ht : Allocated secretKey t) (hmasked : Masked t)
    {flag : SavedFlag crates} (hflag : flag ∈ t.flags) (hnumbered : Numbered flag.toStoredFlag) :
    MaskSet t.userChallengeFlags flag.toStoredFlag := by
  constructor
  case given =>
    intro row hrow hid
    exact (hmasked row hrow flag hflag hid.symm hnumbered).2
  case single =>
    have hdistinct := ht.distinct.sublist
      (List.filter_sublist (p := fun row => decide (row.flagId = flag.id)))
    refine hdistinct.imp_of_mem fun {row row'} hrow hrow' hne heq => hne.2 ?_
    rw [List.mem_filter, decide_eq_true_eq] at hrow hrow'
    obtain ⟨hrow, hid⟩ := hrow
    obtain ⟨hrow', hid'⟩ := hrow'
    have hplace := ht.integrity.assigned_challenge hflag hrow hid
    have hplace' := ht.integrity.assigned_challenge hflag hrow' hid'
    have htoken := (hmasked row hrow flag hflag hid.symm hnumbered).1
    have htoken' := (hmasked row' hrow' flag hflag hid'.symm hnumbered).1
    have hrendering : rendering flag.toStoredFlag row = rendering flag.toStoredFlag row' := by
      rw [rendering, rendering, htoken, htoken', heq]
    obtain ⟨policy, hpolicy, htag⟩ := ht.tagged row hrow flag hflag hid.symm
    obtain ⟨policy', hpolicy', htag'⟩ := ht.tagged row' hrow' flag hflag hid'.symm
    obtain rfl : policy = policy' := Except.ok.inj (hpolicy.symm.trans hpolicy')
    refine ⟨hplace.trans hplace'.symm, ?_⟩
    rw [htag, htag', hrendering, hplace, hplace']

/-- Requests that launch nothing touch no mask. -/
theorem request_keeps_masks (request : Request)
    (hother : ∀ launch, request ≠ .ensureInstance launch) :
    request.program.Safe (masking crates secretKey) ⟨[], id, t⟩
      fun _ l => l.Commits (masking crates secretKey) := by
  have hkeeps : request.program.Safe (masking crates secretKey) ⟨[], id, t⟩
      fun _ l => l.Commits (allocating crates secretKey) :=
    (request_keeps request hother).under (fun _ _ => after_allocating) fun _ _ _ h => h
  have hsettles : request.program.Safe (masking crates secretKey) ⟨[], id, t⟩
      fun _ l => Settles l :=
    (request_settles request hother).under (fun _ _ h => after_promises (after_allocating h))
      fun _ _ _ h => h
  refine (hkeeps.and hsettles).mono ?_
  rintro _ l ⟨hcommits, hsettled⟩ s hs
  have hafter := after_allocating hs
  have hguarantee := hcommits s hafter
  have hrows := hsettled s (after_promises hafter)
  refine guarantee_masked hguarantee ?_
  intro row hrow flag hflag hid
  rw [hrows.rows] at hrow
  exact hs.1.2 row hrow flag (hs.1.1.flag_was hguarantee.transition hguarantee.inv.integrity hrow
    hflag hid) hid

/-- Nor does anything else that happens. -/
theorem event_keeps_masks (event : Event) (hevent : event ≠ .clearAllocations)
    (ht : Allocated secretKey t) (hmasked : Masked t) :
    (masking crates secretKey).Guarantee [] t (event.apply t) := by
  have hsettled := event_settles event hevent t
  have hguarantee := guarantee_settled ht (event_guarantee event ht.integrity) hsettled
  refine guarantee_masked hguarantee ?_
  intro row hrow flag hflag hid
  rw [hsettled.rows] at hrow
  exact hmasked row hrow flag (ht.flag_was hguarantee.transition hguarantee.inv.integrity hrow
    hflag hid) hid

theorem initial_masked {s : Portal crates} (h : Initial s) :
    (masking crates secretKey).Sound s := by
  have hsound : (allocating crates secretKey).Sound s := initial_allocated h
  obtain ⟨-, -, hrows, -, hrunning⟩ := h
  refine ⟨⟨hsound.inv, ?_⟩, hsound.unused, ?_, hsound.drawn, hsound.exclusive⟩
  · intro row hrow
    rw [hrows] at hrow
    cases hrow
  · intro i a ha
    rw [hrunning, Slots.at'] at ha
    cases ha

/-! ## How a launch fails -/

/-- The errors of an allocation. -/
def allocationErrors : List String :=
  ["The leet variation space for this challenge is exhausted",
    "no rows returned by a query that expected to return at least one row",
    "A unique flag could not be allocated; review the flag template"]

/-- A launch that fails for its allocation fails for a numbered flag only when every mask of
the flag has been assigned. -/
def Refused (challengeId : ℤ) (error : String)
    (l : Local (FlagTables crates) LockKey Sequence) : Prop :=
  error ∈ allocationErrors → .lock (.challengeFlag challengeId) ∈ l.held ∧
    (∃ challenge ∈ l.store.challenges, challenge.id = challengeId) ∧
    ∀ flag ∈ l.store.flags, flag.challengeId = challengeId → Numbered flag.toStoredFlag →
      error = "The leet variation space for this challenge is exhausted" ∧
        Exhausted l.store.userChallengeFlags flag.toStoredFlag

section Failing

variable {c : ℤ} {l : Local (FlagTables crates) LockKey Sequence}
  {P : Protocol (FlagTables crates) LockKey Sequence}
  {E : String → Local (FlagTables crates) LockKey Sequence → Prop}

theorem refused_of_not_mem {error : String} (h : error ∉ allocationErrors) :
    Refused c error l := fun hmem => absurd hmem h

/-- What has been assigned stays so. -/
theorem refused_stable (c : ℤ) :
    Stable (masking crates secretKey)
      (Refused c : String → Local (FlagTables crates) LockKey Sequence → Prop) := by
  intro error l s h hafter hmem
  obtain ⟨hlock, ⟨challenge, hchallenge, hid⟩, hflags⟩ := h hmem
  obtain ⟨hkeep, hrows⟩ := keeps_of_after (after_allocating hafter) hlock
  refine ⟨hlock, ⟨challenge, hkeep.row challenge hchallenge hid, hid⟩, ?_⟩
  intro flag hflag hplace hnumbered
  have hwas := hkeep.noNew ⟨challenge, hchallenge, hid⟩ flag hflag hplace
  obtain ⟨herror, hall⟩ := hflags flag hwas hplace hnumbered
  refine ⟨herror, fun mask hle hle' => ?_⟩
  obtain ⟨row, hrow, hrest⟩ := hall mask hle hle'
  exact ⟨row, hrows row hrow, hrest⟩

theorem ends_check {condition : Bool} {error : String}
    {Q : Unit → Local (FlagTables crates) LockKey Sequence → Prop} :
    (check condition error : Transaction crates Unit).Ends P l Q E ↔
      (condition = true → Q ⟨⟩ l) ∧ (condition = false → E error l) := by
  rw [check, ends_liftExcept]
  rcases condition with _ | _
  · simp [ensure]
  · simp only [ensure, if_true, reduceCtorEq, false_imp_iff, implies_true, and_true, true_imp_iff]
    exact ⟨fun h => h ⟨⟩, fun h _ => h⟩

theorem ends_fetchOne {α : Type} {row : FlagTables crates → Option α} {error : String}
    {Q : α → Local (FlagTables crates) LockKey Sequence → Prop} :
    (fetchOne row error).Ends P l Q E ↔ ∀ s, l.after P s →
      (∀ a, row (l.pending s) = some a → Q a { l with store := s }) ∧
        (row (l.pending s) = none → E error { l with store := s }) := by
  simp only [fetchOne, ends_bind, ends_select, ends_liftExcept]
  refine forall_congr' fun s => imp_congr_right fun _ => ?_
  rcases row (l.pending s) with _ | a
  · simp [required]
  · simp [required]

/-- The first mask that nobody has is found under the lock, whatever the others do. -/
theorem nextAvailableLeetMask_ends {flag : SavedFlag crates} (hpending : l.pending = id)
    (hlock : .lock (.challengeFlag c) ∈ l.held) (hflag : flag ∈ l.store.flags)
    (hplace : flag.challengeId = c) (hnumbered : Numbered flag.toStoredFlag) :
    (nextAvailableLeetMask flag.toStoredFlag : Transaction crates ℕ).Ends
      (masking crates secretKey) l
      (fun mask l' => ∃ s, l.after (masking crates secretKey) s ∧ l' = { l with store := s } ∧
        1 ≤ mask ∧ mask ≤ leetCapacity flag.toStoredFlag ∧
        ∀ row ∈ s.userChallengeFlags, row.flagId = flag.id → row.leetMask ≠ some mask)
      (Refused c) := by
  obtain ⟨held, pending, store⟩ := l
  obtain rfl : pending = id := hpending
  simp only [nextAvailableLeetMask, ends_bind, ends_select, ends_check, ends_fetchOne,
    decide_eq_true_eq, decide_eq_false_iff_not, Nat.not_lt, id_eq]
  intro s h
  have hkeep := (keeps_of_after (after_allocating h) hlock).1
  have hflag' := hkeep.flags flag hflag hplace
  constructor
  · intro hlt s' h'
    have hkeep' := (keeps_of_after (after_allocating h') hlock).1
    let assigned := s.userChallengeFlags.filter (·.flagId = flag.id)
    have hlength : (assigned.map (·.leetMask)).length ≤ assigned.length := by
      rw [List.length_map]
    have hcount : s.userChallengeFlags.countP (·.flagId = flag.id) = assigned.length :=
      List.countP_eq_length_filter
    have hlast : min (leetCapacity flag.toStoredFlag)
        (s.userChallengeFlags.countP (·.flagId = flag.id) + 1) = assigned.length + 1 := by
      rw [hcount]
      rw [hcount] at hlt
      exact Nat.min_eq_right hlt
    constructor
    · intro mask hmask
      have hmem := List.mem_of_find?_eq_some hmask
      obtain ⟨n, hn, rfl⟩ := List.mem_map.mp hmem
      have hn' : n < min (leetCapacity flag.toStoredFlag)
        (s.userChallengeFlags.countP (·.flagId = flag.id) + 1) := List.mem_range.mp hn
      refine ⟨s', h.trans h', rfl, Nat.succ_pos n, by omega, fun row hrow hid heq => ?_⟩
      have hnone := List.find?_some hmask
      rw [Bool.not_eq_true', List.any_eq_false] at hnone
      refine hnone row hrow ?_
      rw [decide_eq_true hid, decide_eq_true heq]
      rfl
    · -- a mask is free among the first ones: the rows have only become fewer
      intro hnone
      obtain ⟨candidate, hcandidate, hnot⟩ := exists_unassigned hlength
      have hrange : candidate ∈ (List.range (min (leetCapacity flag.toStoredFlag)
          (s.userChallengeFlags.countP (·.flagId = flag.id) + 1))).map (· + 1) := by
        rw [hlast]
        exact hcandidate
      have htaken := List.find?_eq_none.mp hnone candidate hrange
      rw [Bool.not_eq_true', Bool.not_eq_false, List.any_eq_true] at htaken
      obtain ⟨row, hrow, hkeys⟩ := htaken
      rw [Bool.and_eq_true, decide_eq_true_eq, decide_eq_true_eq] at hkeys
      have hplace' := (h'.1.1.integrity.assigned_challenge
        (hkeep'.flags flag hflag' hplace) hrow hkeys.1).trans hplace
      have hwas := hkeep'.released row hrow hplace'
      exact absurd (List.mem_map.mpr ⟨row, List.mem_filter.mpr ⟨hwas, decide_eq_true hkeys.1⟩,
        hkeys.2⟩) hnot
  · intro hfull hmem
    obtain ⟨challenge, hchallenge, hid⟩ := h.1.1.integrity.placed flag hflag'
    refine ⟨hlock, ⟨challenge, hchallenge, hid.trans hplace⟩, ?_⟩
    intro other hother hplace' hnumbered'
    obtain rfl := h.1.1.integrity.single flag hflag' other hother hnumbered.1 hnumbered'.1
      (hplace.trans hplace'.symm)
    refine ⟨rfl, ?_⟩
    rw [(maskSet_of_kept h.1.1 h.1.2 hother hnumbered).exhausted_iff,
      ← List.countP_eq_length_filter]
    exact hfull

/-- A launch so far: what it has given the user has a mask of its flag. -/
structure Drawn (c : ℤ) (l : Local (FlagTables crates) LockKey Sequence) : Prop where
  lock : .lock (.challengeFlag c) ∈ l.held
  given : ∃ given : List UserChallengeFlag,
    (∀ s, l.pending s = { s with userChallengeFlags := given ++ s.userChallengeFlags }) ∧
      ∀ row ∈ given, ∃ flag ∈ l.store.flags, flag.id = row.flagId ∧ flag.challengeId = c ∧
        (Numbered flag.toStoredFlag → MaskOf flag.toStoredFlag row)

/-- The mask that a launch draws. -/
structure MaskDrawn (flag : StoredFlag) (t : FlagTables crates) (mask : Option ℕ) : Prop where
  free : Numbered flag → ∃ m, mask = some m ∧ 1 ≤ m ∧ m ≤ leetCapacity flag ∧
    ∀ row ∈ t.userChallengeFlags, row.flagId = flag.id → row.leetMask ≠ some m

theorem drawLeetMask_ends {flag : SavedFlag crates} {policy : FlagPolicyData} {draws : Draws}
    (hpending : l.pending = id) (hnow : (masking crates secretKey).Inv l.store)
    (hlock : .lock (.challengeFlag c) ∈ l.held) (hflag : flag ∈ l.store.flags)
    (hplace : flag.challengeId = c) (htype : flag.flagType = "generated")
    (hpolicy : parsePolicy flag.data = .ok policy) :
    (drawLeetMask flag.toStoredFlag policy
        (! (tokenIndices 0 0 flag.content.toList).isEmpty) draws : Transaction crates _).Ends
      (masking crates secretKey) l
      (fun mask l' => ∃ s, l.after (masking crates secretKey) s ∧ l' = { l with store := s } ∧
        MaskDrawn flag.toStoredFlag s mask) (Refused c) := by
  have hnumbered : policy.leetVariation = true →
      (tokenIndices 0 0 flag.content.toList).isEmpty = true → Numbered flag.toStoredFlag :=
    fun hleet htokens => ⟨htype, List.isEmpty_iff.mp htokens, policy, hpolicy, hleet⟩
  unfold drawLeetMask
  split
  · rename_i hboth
    rw [Bool.and_eq_true, Bool.not_not] at hboth
    refine ends_bind.mpr ((nextAvailableLeetMask_ends hpending hlock hflag hplace
      (hnumbered hboth.1 hboth.2)).mono ?_ fun _ _ h => h)
    rintro mask l' ⟨s, hs, rfl, hle, hle', hfree⟩
    exact ⟨s, hs, rfl, ⟨fun _ => ⟨mask, rfl, hle, hle', hfree⟩⟩⟩
  · -- no mask, or one beside a token: the flag is not numbered
    rename_i hnot
    have hother : ¬ Numbered flag.toStoredFlag := by
      rintro ⟨-, htokens, policy', hpolicy', hleet⟩
      rw [← Except.ok.inj (hpolicy.symm.trans hpolicy')] at hleet
      refine hnot ?_
      have htokens' : tokenIndices 0 0 flag.content.toList = [] := htokens
      rw [hleet, htokens']
      rfl
    split
    · exact ⟨l.store, Local.after_self hnow, rfl, ⟨fun h => absurd h hother⟩⟩
    · exact ⟨l.store, Local.after_self hnow, rfl, ⟨fun h => absurd h hother⟩⟩

/-- A new allocation of a numbered flag has a tag that no other has. -/
theorem tag_free (hlower : LowersEach crates.toLowercase)
    (hinjective : Function.Injective (crates.hmac secretKey.toUTF8)) (ht : Allocated secretKey t)
    (hmasked : Masked t) {flag : SavedFlag crates} (hflag : flag ∈ t.flags)
    (hnumbered : Numbered flag.toStoredFlag) {policy : FlagPolicyData}
    (hpolicy : parsePolicy flag.data = .ok policy) {mask : ℕ}
    (hrange : mask ≤ leetCapacity flag.toStoredFlag)
    (hfree : ∀ row ∈ t.userChallengeFlags, row.flagId = flag.id → row.leetMask ≠ some mask)
    {row : UserChallengeFlag} (hrow : row ∈ t.userChallengeFlags)
    (hplace : row.challengeId = flag.challengeId) :
    row.matchTag ≠ matchTag crates secretKey flag.challengeId
      (.ofList (renderGeneratedFlag flag.content.toList none (some mask)))
      policy.caseSensitive := by
  intro htag
  have hid := ht.flag_of hrow hflag hnumbered.1 hplace
  obtain ⟨htoken, mask', hmask', -, hrange'⟩ := hmasked row hrow flag hflag hid.symm hnumbered
  obtain ⟨policy', hpolicy', hown⟩ := ht.tagged row hrow flag hflag hid.symm
  obtain rfl : policy = policy' := Except.ok.inj (hpolicy.symm.trans hpolicy')
  rw [hplace] at hown
  have hmatches := matches_of_matchTag hinjective (htag.symm.trans hown)
  have hlowered : crates.toLowercase (rendering flag.toStoredFlag row) = crates.toLowercase
      (.ofList (renderGeneratedFlag flag.content.toList none (some mask))) := by
    unfold Submissions.flagMatchesLiteral at hmatches
    split at hmatches
    · rw [of_decide_eq_true hmatches]
    · exact of_decide_eq_true hmatches
  rw [rendering, htoken, hmask'] at hlowered
  have hpos : 0 < 2 ^ (leetPositions flag.content.toList).length := Nat.two_pow_pos _
  have hlt : mask < 2 ^ (leetPositions flag.content.toList).length :=
    lt_of_le_of_lt hrange (Nat.sub_lt hpos one_pos)
  have hlt' : mask' < 2 ^ (leetPositions flag.content.toList).length :=
    lt_of_le_of_lt hrange' (Nat.sub_lt hpos one_pos)
  refine hfree row hrow hid ?_
  rw [hmask', renderGeneratedFlag_injective hlower hlt' hlt hlowered]

theorem parsePolicy_error {data : Json} {error : String} (h : parsePolicy data = .error error) :
    error = "Flag options are invalid" := by
  unfold parsePolicy at h
  split at h
  · cases h
  · split at h
    · cases h
    · exact (Except.error.inj h).symm

/-- **An allocation fails for a numbered flag only when its masks are exhausted.** -/
theorem materializeFlag_ends (hlower : LowersEach crates.toLowercase)
    (hinjective : Function.Injective (crates.hmac secretKey.toUTF8)) (request : LaunchRequest)
    (hkey : request.secretKey = secretKey) {flag : SavedFlag crates}
    (hlock : .lock (.challengeFlag request.challengeId) ∈ l.held) (hpending : l.pending = id)
    (hflag : flag ∈ l.store.flags) (hplace : flag.challengeId = request.challengeId)
    (htype : flag.flagType = "generated") :
    (materializeFlag request flag.toStoredFlag).Ends (masking crates secretKey) l
      (fun _ l' => Drawn request.challengeId l') (Refused request.challengeId) := by
  obtain ⟨held, pending, store⟩ := l
  obtain rfl : pending = id := hpending
  have hlock' := List.mem_cons_of_mem (.lock (.generatedFlag flag.id)) hlock
  simp only [materializeFlag, ends_bind, ends_select, ends_acquire]
  intro s₁ h₁ s₂ h₂
  have hkeep₂ := (keeps_of_after (after_allocating h₁) hlock).1.trans
    (keeps_of_after (after_allocating h₂) hlock').1
  have hflag₂ := hkeep₂.flags flag hflag hplace
  split
  · -- the user has a value already
    simp only [ends_bind, ends_check, ends_pure]
    refine ⟨fun _ => ⟨hlock', [], fun _ => rfl, fun row hrow => absurd hrow List.not_mem_nil⟩,
      fun _ => refused_of_not_mem (by decide)⟩
  · rename_i hnobody
    simp only [ends_bind, ends_liftExcept]
    refine ⟨fun policy hpolicy => ?_, fun error herror => ?_⟩
    · refine (drawLeetMask_ends rfl h₂.1 hlock' hflag₂ hplace htype hpolicy).mono ?_
        fun _ _ h => h
      rintro mask _ ⟨s₃, h₃, rfl, hdrawn⟩
      have hkeep₃ := (keeps_of_after (after_allocating h₃) hlock').1
      have hflag₃ := hkeep₃.flags flag hflag₂ hplace
      simp only [insertUserChallengeFlag, ends_bind, ends_select, ends_check, ends_change,
        ends_pure]
      intro s₄ h₄
      have hkeep₄ := (keeps_of_after (after_allocating h₄) hlock').1
      have hflag₄ := hkeep₄.flags flag hflag₃ hplace
      refine ⟨fun _ => ⟨hlock', [_], fun s => rfl, ?_⟩, fun htaken hmem => ?_⟩
      · intro row hrow
        refine ⟨flag, hflag₄, ?_, hplace, fun hnumbered => ?_⟩
        · rw [List.mem_singleton.mp hrow]
        · obtain ⟨m, rfl, hle, hle', -⟩ := hdrawn.free hnumbered
          have htokens : tokenIndices 0 0 flag.content.toList = [] := hnumbered.2.1
          rw [List.mem_singleton.mp hrow]
          refine ⟨?_, m, rfl, hle, hle'⟩
          show (if (! (tokenIndices 0 0 flag.content.toList).isEmpty) = true then
            some request.draws.token else none) = none
          rw [htokens]
          rfl
      · -- the row that is in the way would have been seen before
        obtain ⟨challenge, hchallenge, hid⟩ := h₄.1.1.integrity.placed flag hflag₄
        refine ⟨hlock', ⟨challenge, hchallenge, hid.trans hplace⟩, ?_⟩
        intro other hother hplace' hnumbered
        obtain rfl := h₄.1.1.integrity.single flag hflag₄ other hother htype hnumbered.1
          (hplace.trans hplace'.symm)
        exfalso
        rw [Bool.not_eq_false', List.any_eq_true] at htaken
        obtain ⟨row, hrow, hkeys⟩ := htaken
        rw [Bool.or_eq_true, Bool.and_eq_true, Bool.and_eq_true] at hkeys
        simp only [decide_eq_true_eq] at hkeys
        obtain ⟨m, rfl, hle, hle', hfree⟩ := hdrawn.free hnumbered
        rcases hkeys with ⟨hid, huser⟩ | ⟨hchallenge, htag⟩
        · have hwas := hkeep₃.released row (hkeep₄.released row hrow
            ((h₄.1.1.integrity.assigned_challenge hother hrow hid).trans hplace))
            ((h₄.1.1.integrity.assigned_challenge hother hrow hid).trans hplace)
          rw [List.find?_eq_none] at hnobody
          refine hnobody row hwas ?_
          rw [decide_eq_true hid, decide_eq_true huser]
          rfl
        · have htokens : tokenIndices 0 0 flag.content.toList = [] := hnumbered.2.1
          rw [htokens, hkey, ← hplace] at htag
          refine tag_free hlower hinjective h₄.1.1 h₄.1.2 hother hnumbered hpolicy hle' ?_ hrow
            (hchallenge.trans hplace.symm) htag
          intro row' hrow' hid'
          exact hfree row' (hkeep₄.released row' hrow'
            ((h₄.1.1.integrity.assigned_challenge hother hrow' hid').trans hplace)) hid'
    · rw [parsePolicy_error herror]
      exact refused_of_not_mem (by decide)

theorem materializeForLaunch_ends (hlower : LowersEach crates.toLowercase)
    (hinjective : Function.Injective (crates.hmac secretKey.toUTF8)) (request : LaunchRequest)
    (hkey : request.secretKey = secretKey)
    (hlock : .lock (.challengeFlag request.challengeId) ∈ l.held) (hpending : l.pending = id) :
    (materializeForLaunch request : Transaction crates _).Ends (masking crates secretKey) l
      (fun _ l' => Drawn request.challengeId l') (Refused request.challengeId) := by
  obtain ⟨held, pending, store⟩ := l
  obtain rfl : pending = id := hpending
  have hlock' := List.mem_cons_of_mem (.lock (.challengeFlag request.challengeId)) hlock
  simp only [materializeForLaunch, lockChallengeDefinition, ends_bind, ends_acquire, ends_select]
  intro s₁ h₁ s₂ h₂
  split
  · exact ⟨hlock', [], fun _ => rfl, fun row hrow => absurd hrow List.not_mem_nil⟩
  · rename_i flag hflag
    have hmem := List.mem_filter.mp (List.argmin_mem hflag)
    rw [Bool.and_eq_true, decide_eq_true_eq, decide_eq_true_eq] at hmem
    refine ends_bind.mpr ?_
    exact (materializeFlag_ends hlower hinjective request hkey hlock' rfl hmem.1 hmem.2.1
      hmem.2.2).mono (fun _ _ h => h) fun _ _ h => h

/-- The gate refuses a user with errors of its own. -/
theorem checkAccess_error {gate : LaunchGate} {admin : Bool} {error : String}
    (h : gate.checkAccess admin = .error error) : error ∉ allocationErrors := by
  unfold LaunchGate.checkAccess at h
  simp only [ensure, required] at h
  split at h
  · split at h
    · split at h
      · cases h
      · obtain rfl := Except.error.inj h
        decide
    · obtain rfl := Except.error.inj h
      decide
  · obtain rfl := Except.error.inj h
    decide

theorem checkLifetime_error {runtime : RuntimeConfigInput} {ttlSeconds : Option ℤ}
    {error : String} (h : checkLifetime runtime ttlSeconds = .error error) :
    error ∉ allocationErrors := by
  simp only [checkLifetime, ensure] at h
  split at h
  · cases h
  · obtain rfl := Except.error.inj h
    decide

theorem occupied_error (challengeId : ℤ) :
    "You already have an active instance for challenge " ++ toString challengeId ∉
      allocationErrors := by
  have hhead : ∀ error ∈ allocationErrors, ∃ text, error = String.ofList text ∧
      text.head? ≠ some 'Y' := by
    repeat refine List.forall_mem_cons.mpr ⟨⟨_, rfl, by decide⟩, ?_⟩
    exact List.forall_mem_nil _
  intro hmem
  obtain ⟨text, herror, hne⟩ := hhead _ hmem
  apply hne
  rw [← String.toList_ofList (l := text), ← herror, String.toList_append]
  rfl

/-- What a launch commits has the masks of its flags. -/
theorem Drawn.masked (h : Drawn c l) (ht : (masking crates secretKey).Inv t)
    (hkeep : KeepChallenge c l.store t) {started : List InstanceRow} :
    Masked { l.pending t with runtimeInstances := started } := by
  obtain ⟨given, hpending, hgiven⟩ := h.given
  intro row hrow flag hflag hid hnumbered
  rw [hpending] at hrow hflag
  rcases List.mem_append.mp hrow with hrow | hrow
  · obtain ⟨other, hother, hid', hplace, hmask⟩ := hgiven row hrow
    have hmem := hkeep.flags other hother hplace
    obtain rfl := ht.1.integrity.flag_unique hflag hmem (hid.trans hid'.symm)
    exact hmask hnumbered
  · exact ht.2 row hrow flag hflag hid hnumbered

/-- **How a launch can end.** -/
theorem ensureInstance_ends (hlower : LowersEach crates.toLowercase)
    (hinjective : Function.Injective (crates.hmac secretKey.toUTF8)) (request : LaunchRequest)
    (hkey : request.secretKey = secretKey) :
    (ensureInstance request).Ends (masking crates secretKey) ⟨[], id, t⟩
      (fun _ l => ∀ s, l.after (masking crates secretKey) s → Masked (l.pending s))
      (Refused request.challengeId) := by
  simp only [ensureInstance, lockChallengeDefinition, ends_bind, ends_fetchOne, ends_liftExcept,
    ends_acquire, ends_select]
  intro s₁ h₁
  refine ⟨fun gate hgate => ⟨fun _ haccess => ?_, fun _ h => ?_⟩, fun _ => ?_⟩
  case refine_2 => exact refused_of_not_mem (checkAccess_error h)
  case refine_3 => exact refused_of_not_mem (by decide)
  intro s₂ h₂ s₃ h₃
  refine ⟨fun gate' hgate' => ⟨fun runtime haccess' => ⟨fun _ hlifetime => ?_, fun _ h => ?_⟩,
    fun _ h => ?_⟩, fun _ => ?_⟩
  case refine_2 => exact refused_of_not_mem (checkLifetime_error h)
  case refine_3 => exact refused_of_not_mem (checkAccess_error h)
  case refine_4 => exact refused_of_not_mem (by decide)
  intro s₄ h₄
  split
  · simp only [ends_bind, ends_check, ends_pure]
    refine ⟨fun _ s h => h.1.2, fun _ => refused_of_not_mem (occupied_error _)⟩
  · simp only [ends_bind]
    refine (materializeForLaunch_ends hlower hinjective request hkey (List.mem_singleton_self _)
      rfl).mono ?_ fun _ _ h => h
    intro flagValue l hl
    simp only [insertInstance, ends_bind, ends_select, ends_check, ends_change, ends_pure]
    intro s₅ h₅
    refine ⟨fun _ s h => ?_, fun _ => refused_of_not_mem (by decide)⟩
    have hkeep₅ := (keeps_of_after (after_allocating h₅) hl.lock).1
    have hkeep := (keeps_of_after (after_allocating h) hl.lock).1
    exact hl.masked h.1 (hkeep₅.trans hkeep)

end Failing

/-- What a request commits keeps the masks; a launch fails as it may. -/
theorem request_ends (hlower : LowersEach crates.toLowercase)
    (hinjective : Function.Injective (crates.hmac secretKey.toUTF8)) (request : LaunchRequest)
    (hkey : request.secretKey = secretKey) :
    (Request.program (.ensureInstance request) : Transaction crates Unit).Ends
      (masking crates secretKey) ⟨[], id, t⟩ (fun _ l => l.Commits (masking crates secretKey))
      (Refused request.challengeId) := by
  have hkeeps : (ensureInstance request).Safe (masking crates secretKey) ⟨[], id, t⟩
      fun _ l => l.Commits (allocating crates secretKey) :=
    (ensureInstance_keeps request hkey).under (fun _ _ => after_allocating) fun _ _ _ h => h
  have hends := (ensureInstance_ends (t := t) hlower hinjective request hkey).and hkeeps
  refine ends_bind.mpr (hends.mono ?_ fun _ _ h => h)
  rintro _ l ⟨hmasked, hcommits⟩ s h
  exact guarantee_masked (hcommits s (after_allocating h)) (hmasked s h)

/-! ## The result -/

/-- The masks of the flags of a portal. -/
structure MasksAllocated (s : Portal crates) : Prop where
  /-- No mask of a flag is given to two users, and each is one of the flag. -/
  apart : ∀ flag ∈ s.store.flags, Numbered flag.toStoredFlag →
    MaskSet s.store.userChallengeFlags flag.toStoredFlag
  /-- They are exhausted when there are as many allocations as masks. -/
  exhausted : ∀ flag ∈ s.store.flags, Numbered flag.toStoredFlag →
    (Exhausted s.store.userChallengeFlags flag.toStoredFlag ↔
      leetCapacity flag.toStoredFlag ≤
        (s.store.userChallengeFlags.filter (·.flagId = flag.id)).length)

theorem portal_masked (hlower : LowersEach crates.toLowercase)
    (hinjective : Function.Injective (crates.hmac secretKey.toUTF8)) {s : Portal crates}
    (r : Request) (hguard : Launches secretKey s (.begin r)) :
    (r.program : Transaction crates Unit).Safe (masking crates secretKey) ⟨[], id, s.store⟩
      fun _ l => l.Commits (masking crates secretKey) := by
  by_cases hlaunch : ∃ launch, r = .ensureInstance launch
  · obtain ⟨launch, rfl⟩ := hlaunch
    exact (request_ends hlower hinjective launch hguard).safe
  · exact request_keeps_masks r fun launch heq => hlaunch ⟨launch, heq⟩

theorem portal_event {s : Portal crates} (e : Event) (hguard : Launches secretKey s (.other e))
    (hinv : (masking crates secretKey).Inv s.store) :
    (masking crates secretKey).Guarantee [] s.store (e.apply s.store) := by
  refine event_keeps_masks e ?_ hinv.1 hinv.2
  rintro rfl
  exact hguard

/-- **Leet masks are allocated exactly.**  The search gives a mask that nobody has as long as
fewer rows than masks are assigned, and fails for a set of masks exactly when it is all of
them.  In every state of every run no mask of a flag is given to two users, and a launch that
has been begun fails for its allocation, if its flag has leet variation and no token, only
with the error that the masks are exhausted, and then every mask is assigned. -/
theorem leet_mask_allocation_exact (hlower : LowersEach crates.toLowercase)
    (hinjective : Function.Injective (crates.hmac secretKey.toUTF8)) :
    (∀ rows flag, MaskExact rows flag) ∧
    (∀ s : Portal crates, Reach portalStep (Launches secretKey) Initial s →
      MasksAllocated s) ∧
    ∀ s s' s'' : Portal crates, Reach portalStep (Launches secretKey) Initial s →
      ∀ request : LaunchRequest, request.secretKey = secretKey →
        portalStep (.begin (.ensureInstance request)) s = some s' →
        Leads portalStep (Launches secretKey) s' s'' →
        ∀ error a, Slots.at' id s''.running s.running.length = some a →
          a.program = .fail error → error ∈ allocationErrors →
          ∀ flag ∈ s''.store.flags, flag.challengeId = request.challengeId →
            Numbered flag.toStoredFlag →
            error = "The leet variation space for this challenge is exhausted" ∧
              Exhausted s''.store.userChallengeFlags flag.toStoredFlag := by
  have hprogram : ∀ (s : Portal crates) r, Launches secretKey s (.begin r) →
      (masking crates secretKey).Inv s.store →
      (r.program : Transaction crates Unit).Safe (masking crates secretKey) ⟨[], id, s.store⟩
        fun _ l => l.Commits (masking crates secretKey) :=
    fun s r hguard _ => portal_masked hlower hinjective r hguard
  have hevent : ∀ (s : Portal crates) e, Launches secretKey s (.other e) →
      (masking crates secretKey).Inv s.store →
      (masking crates secretKey).Guarantee [] s.store (e.apply s.store) :=
    fun s e hguard hinv => portal_event e hguard hinv
  refine ⟨nextAvailableLeetMask_exact, fun s h => ?_, ?_⟩
  · have hinv := (invariant_if hprogram hevent (fun _ hinit => initial_masked hinit) h).inv
    have hset : ∀ flag ∈ s.store.flags, Numbered flag.toStoredFlag →
        MaskSet s.store.userChallengeFlags flag.toStoredFlag :=
      fun flag hflag hnumbered => maskSet_of_kept hinv.1 hinv.2 hflag hnumbered
    exact ⟨hset, fun flag hflag hnumbered => (hset flag hflag hnumbered).exhausted_iff⟩
  · intro s s' s'' h request hkey hbegin hlead error a ha hfail hmem flag hflag hplace hnumbered
    have hat := Ends.leads hprogram hevent (fun _ hinit => initial_masked hinit)
      (refused_stable request.challengeId) h (request_ends hlower hinjective request hkey) hkey
      hbegin hlead
    have hends := hat.ends a ha
    rw [hfail] at hends
    exact (hends hmem).2.2 flag hflag hplace hnumbered

/-- A challenge whose flag has one mask. -/
def numberedChallenge : ChallengeInput :=
  { privateChallenge with
    content := "flag\x7ba\x7d"
    data := .object [("leet_variation", .bool true)] }

/-- The user 7 launches an instance of it. -/
def firstLaunch : List (Locking.Label Request Event) :=
  .begin (.createChallenge numberedChallenge) :: List.replicate 9 (.advance 0 1) ++
    launchOf 7 0 :: List.replicate 15 (.advance 1 0)

/-- The transaction at a place is about to fail with an error. -/
def fails (error : String) (s : Portal crates) (i : ℕ) : Bool :=
  match Slots.at' id s.running i with
  | some ⟨.fail error', _, _⟩ => error = error'
  | _ => false

theorem fails_iff {error : String} {s : Portal crates} {i : ℕ} (h : fails error s i = true) :
    ∃ a, Slots.at' id s.running i = some a ∧ a.program = .fail error := by
  unfold fails at h
  split at h
  · rename_i ha
    exact ⟨_, ha, by rw [of_decide_eq_true h]⟩
  · cases h

/-- The user 8 launches one, too, and is refused: the mask is the other's. -/
theorem leet_mask_allocation_exact_refused : ∃ s : Portal leetCrates, MasksAllocated s ∧
    ∃ flag ∈ s.store.flags, flag.id = 1 ∧ Numbered flag.toStoredFlag ∧
      Exhausted s.store.userChallengeFlags flag.toStoredFlag := by
  have hrun : ((runIf portalStep (Launches "key") firstLaunch
      (⟨⟨[], [], [], [], [], false⟩, fun _ => 1, []⟩ : Portal leetCrates)).any fun s =>
        decide (s.running.length = 2) && (portalStep (launchOf 8 0) s).any fun s' =>
          (runIf portalStep (Launches "key") (List.replicate 9 (.advance 2 0)) s').any fun s'' =>
            fails "The leet variation space for this challenge is exhausted" s'' 2 &&
              s''.store.flags.any fun flag => flag.id = 1 && flag.challengeId = 1 &&
                decide (Numbered flag.toStoredFlag)) = true := by
    decide +kernel
  obtain ⟨s, hs, hfacts⟩ := (Option.any_eq_true _ _).mp hrun
  rw [Bool.and_eq_true, decide_eq_true_eq] at hfacts
  obtain ⟨hlength, hlater⟩ := hfacts
  obtain ⟨s', hs', hlater⟩ := (Option.any_eq_true _ _).mp hlater
  obtain ⟨s'', hs'', hlater⟩ := (Option.any_eq_true _ _).mp hlater
  rw [Bool.and_eq_true, List.any_eq_true] at hlater
  obtain ⟨hfails, flag, hflag, hfacts⟩ := hlater
  simp only [Bool.and_eq_true, decide_eq_true_eq] at hfacts
  obtain ⟨⟨hid, hplace⟩, hnumbered⟩ := hfacts
  obtain ⟨a, ha, hprogram⟩ := fails_iff hfails
  rw [← hlength] at ha
  have hreach : Reach portalStep (Launches "key") Initial s :=
    reach_of_runIf firstLaunch (.init ⟨rfl, rfl, rfl, rfl, rfl⟩) hs
  have hlead := leads_of_runIf _ hs''
  obtain ⟨-, hmasks, hrefused⟩ :=
    leet_mask_allocation_exact leetCrates_lowers (plainCrates_hmac_injective "key".toUTF8)
  have hexhausted := hrefused s s' s'' hreach ⟨1, 8, false, none, "key", ⟨0, 0⟩⟩ rfl hs' hlead _
    a ha hprogram List.mem_cons_self flag hflag hplace hnumbered
  have hreach'' := (Reach.step (launchOf 8 0) hreach rfl hs').leads hlead
  exact ⟨s'', hmasks s'' hreach'', flag, hflag, hid, hnumbered, hexhausted.2⟩

end CtfZone.FlagDefinitions
