/-
# The owners of generated flags

What a user is given when an instance of a challenge is launched, and what the requests on
flag definitions do to it.  A value is saved as the token and the mask it was rendered with,
beside the tag it is recognised by, and it is rendered again whenever it is asked for.

* `Holds` : a user holds a value of the generated flag of a challenge;
* `Allocated` : what is kept of the allocations, beside `Integrity`;
* `allocating` : the promises with that invariant; an allocation stays;
* `request_settles` : a request that launches nothing leaves the allocations as they are;
* `ensureInstance_allocates` : a launch adds one at most, and delivers what is held.
-/
import CtfZone.FlagDefinitions
import CtfZone.Submissions

namespace CtfZone.FlagDefinitions

open Journal Runs Locking Locking.Program Locking.Protocol Tables
open Submissions (saveFlag generatedUnique definitionChanged FlagPatch required required_eq_ok)

variable {crates : Crates} {t t' : FlagTables crates} {secretKey : String}

/-! ## Values -/

/-- The value of a flag that an allocation stands for. -/
def rendering (flag : StoredFlag) (row : UserChallengeFlag) : String :=
  .ofList (renderGeneratedFlag flag.content.toList row.randomToken row.leetMask)

/-- The user holds the value of the generated flag of the challenge. -/
def Holds (t : FlagTables crates) (challengeId userId : ℤ) (value : String) : Prop :=
  ∃ row ∈ t.userChallengeFlags, ∃ flag ∈ t.flags, flag.id = row.flagId ∧
    row.challengeId = challengeId ∧ row.userId = userId ∧
    rendering flag.toStoredFlag row = value

/-- The value that an instance was launched with. -/
def InstanceRow.Delivers (row : InstanceRow) (value : String) : Prop :=
  row.deploymentSnapshot.field "flag_value" = some (.string value)

theorem field_deploymentSnapshot (gate : RuntimeConfigInput) (flagValue : Option String) :
    (deploymentSnapshot gate flagValue).field "flag_value" = flagValue.map Json.string := by
  rcases flagValue with _ | value <;> rfl

/-- Two allocations meet none of the keys of each other. -/
def Distinct (row row' : UserChallengeFlag) : Prop :=
  ¬ (row.flagId = row'.flagId ∧ row.userId = row'.userId) ∧
    ¬ (row.challengeId = row'.challengeId ∧ row.matchTag = row'.matchTag)

theorem Distinct.symm {row row' : UserChallengeFlag} (h : Distinct row row') :
    Distinct row' row :=
  ⟨fun hsame => h.1 ⟨hsame.1.symm, hsame.2.symm⟩, fun hsame => h.2 ⟨hsame.1.symm, hsame.2.symm⟩⟩

instance : Std.Symm Distinct := ⟨fun _ _ => Distinct.symm⟩

/-- The tag of an allocation is that of its value, by the options of its flag. -/
def Tagged (crates : Crates) (secretKey : String) (flag : StoredFlag) (row : UserChallengeFlag) :
    Prop :=
  ∃ policy, parsePolicy flag.data = .ok policy ∧ row.matchTag =
    matchTag crates secretKey row.challengeId (rendering flag row) policy.caseSensitive

/-! ## What is kept of them -/

/-- The invariant of the allocations. -/
structure Allocated (secretKey : String) (t : FlagTables crates) : Prop where
  integrity : Integrity t
  generated : ∀ row ∈ t.userChallengeFlags, ∀ flag ∈ t.flags, flag.id = row.flagId →
    flag.flagType = "generated"
  tagged : ∀ row ∈ t.userChallengeFlags, ∀ flag ∈ t.flags, flag.id = row.flagId →
    Tagged crates secretKey flag.toStoredFlag row
  distinct : t.userChallengeFlags.Pairwise Distinct
  delivered : ∀ row ∈ t.runtimeInstances, ∀ value, row.Delivers value →
    Holds t row.challengeId row.ownerUserId value

/-- The allocations are as they were, and no instance is launched. -/
structure Settled (t t' : FlagTables crates) : Prop where
  rows : t'.userChallengeFlags = t.userChallengeFlags
  launched : ∀ row' ∈ t'.runtimeInstances, ∃ row ∈ t.runtimeInstances,
    row'.ownerUserId = row.ownerUserId ∧ row'.challengeId = row.challengeId ∧
      row'.deploymentSnapshot = row.deploymentSnapshot

/-- The requests promise as before, and that an allocation stays. -/
def allocating (crates : Crates) (secretKey : String) :
    Protocol (FlagTables crates) LockKey Sequence where
  Inv := Allocated secretKey
  Keep := fun key t t' => Keep key t t' ∧ ∀ row ∈ t.userChallengeFlags, row ∈ t'.userChallengeFlags
  Unused := Unused
  Transition := Upheld
  keep_refl := fun key t => ⟨(promises crates).keep_refl key t, fun _ h => h⟩
  keep_trans := fun h h' =>
    ⟨(promises crates).keep_trans h.1 h'.1, fun row hrow => h'.2 row (h.2 row hrow)⟩
  transition_refl := fun _ _ h _ => h

/-- Who may rely on the allocations may rely on the definitions. -/
theorem after_promises {l : Local (FlagTables crates) LockKey Sequence}
    (h : l.after (allocating crates secretKey) t) : l.after (promises crates) t := by
  refine ⟨h.1.integrity, fun hold hmem => ?_⟩
  have hrespects := h.2 hold hmem
  rcases hold with key | ⟨q, n⟩
  · exact hrespects.1
  · exact hrespects

/-- What a commit has to show beside the definitions. -/
theorem guarantee_allocated {held : List (Hold LockKey Sequence)}
    (h : (promises crates).Guarantee held t t') (hinv : Allocated secretKey t')
    (hkept : ∀ row ∈ t.userChallengeFlags, row ∈ t'.userChallengeFlags) :
    (allocating crates secretKey).Guarantee held t t' := by
  refine ⟨hinv, h.transition, fun hold hfree => ?_⟩
  have hrespects := h.respects hold hfree
  rcases hold with key | ⟨q, n⟩
  · exact ⟨hrespects, hkept⟩
  · exact hrespects

/-- The flag of an allocation stays as it is. -/
theorem Allocated.flag_kept (_ : Allocated secretKey t) (hupheld : Upheld t t')
    {row : UserChallengeFlag} (hrow : row ∈ t.userChallengeFlags) {flag : SavedFlag crates}
    (hflag : flag ∈ t.flags) (hid : flag.id = row.flagId) : flag ∈ t'.flags := by
  refine hupheld flag hflag (.inl ?_)
  rw [FlagTables.assigned_iff]
  exact ⟨row, hrow, hid.symm⟩

/-- And so does what a user holds. -/
theorem Holds.kept {c u : ℤ} {value : String} (h : Holds t c u value)
    (ht : Allocated secretKey t) (hupheld : Upheld t t')
    (hkept : ∀ row ∈ t.userChallengeFlags, row ∈ t'.userChallengeFlags) : Holds t' c u value := by
  obtain ⟨row, hrow, flag, hflag, hid, hrest⟩ := h
  exact ⟨row, hkept row hrow, flag, ht.flag_kept hupheld hrow hflag hid, hid, hrest⟩

/-- The flag that an allocation had is the one that it has. -/
theorem Allocated.flag_was (ht : Allocated secretKey t) (hupheld : Upheld t t')
    (ht' : Integrity t') {row : UserChallengeFlag} (hrow : row ∈ t.userChallengeFlags)
    {flag : SavedFlag crates} (hflag : flag ∈ t'.flags) (hid : flag.id = row.flagId) :
    flag ∈ t.flags := by
  obtain ⟨flag', hflag', hid', -⟩ := ht.integrity.allocated row hrow
  have hstays := ht.flag_kept hupheld hrow hflag' hid'
  rw [ht'.flag_unique hflag hstays (hid.trans hid'.symm)]
  exact hflag'

/-- **A commit that touches no allocation keeps what is kept of them.** -/
theorem guarantee_settled {held : List (Hold LockKey Sequence)} (ht : Allocated secretKey t)
    (h : (promises crates).Guarantee held t t') (hsettled : Settled t t') :
    (allocating crates secretKey).Guarantee held t t' := by
  have hkept : ∀ row ∈ t.userChallengeFlags, row ∈ t'.userChallengeFlags := by
    intro row hrow
    rw [hsettled.rows]
    exact hrow
  refine guarantee_allocated h ?_ hkept
  constructor
  case integrity => exact h.inv
  case generated =>
    intro row hrow flag hflag hid
    rw [hsettled.rows] at hrow
    exact ht.generated row hrow flag (ht.flag_was h.transition h.inv hrow hflag hid) hid
  case tagged =>
    intro row hrow flag hflag hid
    rw [hsettled.rows] at hrow
    exact ht.tagged row hrow flag (ht.flag_was h.transition h.inv hrow hflag hid) hid
  case distinct =>
    rw [hsettled.rows]
    exact ht.distinct
  case delivered =>
    intro row' hrow' value hvalue
    obtain ⟨row, hrow, howner, hchallenge, hsnapshot⟩ := hsettled.launched row' hrow'
    rw [InstanceRow.Delivers, hsnapshot] at hvalue
    rw [howner, hchallenge]
    exact (ht.delivered row hrow value hvalue).kept ht h.transition hkept

/-! ## Requests that launch nothing -/

/-- A change that touches neither allocations nor instances. -/
def Quiet (f : FlagTables crates → FlagTables crates) : Prop :=
  ∀ t, (f t).userChallengeFlags = t.userChallengeFlags ∧
    (f t).runtimeInstances = t.runtimeInstances

theorem Quiet.comp {f g : FlagTables crates → FlagTables crates} (hf : Quiet f) (hg : Quiet g) :
    Quiet (f ∘ g) := by
  intro t
  exact ⟨(hf (g t)).1.trans (hg t).1, (hf (g t)).2.trans (hg t).2⟩

theorem Quiet.settled {f : FlagTables crates → FlagTables crates} (h : Quiet f)
    (t : FlagTables crates) : Settled t (f t) := by
  refine ⟨(h t).1, fun row hrow => ?_⟩
  rw [(h t).2] at hrow
  exact ⟨row, hrow, rfl, rfl, rfl⟩

theorem quiet_check (condition : Bool) (error : String) :
    (check condition error : Transaction crates Unit).Writes Quiet := writes_liftExcept _

theorem quiet_fetchOne {α : Type} (row : FlagTables crates → Option α) (error : String) :
    (fetchOne row error).Writes Quiet :=
  writes_bind (fun _ => trivial) fun _ => writes_liftExcept _

theorem quiet_lockChallengeDefinitions (ids : List ℤ) :
    (lockChallengeDefinitions ids : Transaction crates Unit).Writes Quiet := by
  induction ids with
  | nil => exact trivial
  | cons c ids ih => exact writes_bind trivial fun _ => ih

theorem quiet_insertFlag (flag : SavedFlag crates) : (insertFlag flag).Writes Quiet := by
  refine writes_bind (fun _ => trivial) fun id => ?_
  refine writes_bind (fun _ => trivial) fun unique => ?_
  refine writes_bind (quiet_check _ _) fun _ => ?_
  exact writes_bind ⟨fun _ => ⟨rfl, rfl⟩, trivial⟩ fun _ => trivial

theorem quiet_preparePrivateChallengeGate (enable : Bool) :
    (preparePrivateChallengeGate enable : Transaction crates Bool).Writes Quiet := by
  refine writes_bind (fun _ => trivial) fun enabled => ?_
  split
  · exact trivial
  · exact writes_bind ⟨fun _ => ⟨rfl, rfl⟩, trivial⟩ fun _ => trivial

theorem quiet_checkGate (state : String) (runtime : Option RuntimeInput) :
    (checkGate state runtime : Transaction crates Unit).Writes Quiet := by
  rcases runtime with _ | runtime
  · exact trivial
  · refine writes_bind (quiet_check _ _) fun _ => ?_
    exact writes_bind (quiet_preparePrivateChallengeGate _) fun _ => quiet_check _ _

theorem quiet_insertRuntimeConfig (challengeId : ℤ) (runtime : Option RuntimeInput) :
    (insertRuntimeConfig challengeId runtime : Transaction crates Unit).Writes Quiet := by
  rcases runtime with _ | runtime
  · exact trivial
  · exact writes_bind (writes_liftExcept _) fun _ => ⟨fun _ => ⟨rfl, rfl⟩, trivial⟩

theorem quiet_createChallenge (input : ChallengeInput) :
    (createChallenge input : Transaction crates ℤ).Writes Quiet := by
  refine writes_bind (quiet_check _ _) fun _ => ?_
  refine writes_bind (writes_liftExcept _) fun flag => ?_
  refine writes_bind (writes_liftExcept _) fun _ => ?_
  refine writes_bind (quiet_check _ _) fun _ => ?_
  refine writes_bind (quiet_checkGate _ _) fun _ => ?_
  refine writes_bind (fun _ => trivial) fun n => ?_
  refine writes_bind ⟨fun _ => ⟨rfl, rfl⟩, trivial⟩ fun _ => ?_
  refine writes_bind (quiet_insertFlag _) fun _ => ?_
  exact writes_bind (quiet_insertRuntimeConfig _ _) fun _ => trivial

theorem quiet_changeExposure (challengeId : ℤ) (current exposure : String) :
    (changeExposure challengeId current exposure : Transaction crates Unit).Writes Quiet := by
  unfold changeExposure
  split
  · exact trivial
  · refine writes_bind (fun _ => trivial) fun _ => ?_
    refine writes_bind (quiet_check _ _) fun _ => ?_
    split
    · exact writes_bind (fun _ => trivial) fun _ => quiet_check _ _
    · refine writes_bind (fun _ => trivial) fun _ => ?_
      exact writes_bind (quiet_check _ _) fun _ => ⟨fun _ => ⟨rfl, rfl⟩, trivial⟩

theorem quiet_enableGate (enable : Bool) :
    (enableGate enable : Transaction crates Unit).Writes Quiet := by
  unfold enableGate
  split
  · exact writes_bind (quiet_preparePrivateChallengeGate _) fun _ => trivial
  · exact trivial

theorem quiet_checkLaunchable (challengeId : ℤ) (exposure state : String) :
    (checkLaunchable challengeId exposure state : Transaction crates Unit).Writes Quiet := by
  unfold checkLaunchable
  split
  · exact writes_bind (fun _ => trivial) fun _ => quiet_check _ _
  · exact trivial

theorem quiet_updateChallenge (challengeId : ℤ) (patch : ChallengePatch) :
    (updateChallenge challengeId patch : Transaction crates Unit).Writes Quiet := by
  refine writes_bind trivial fun _ => ?_
  refine writes_bind (quiet_fetchOne _ _) fun current => ?_
  refine writes_bind (quiet_check _ _) fun _ => ?_
  refine writes_bind (writes_liftExcept _) fun _ => ?_
  refine writes_bind (quiet_changeExposure _ _ _) fun _ => ?_
  refine writes_bind (quiet_check _ _) fun _ => ?_
  refine writes_bind (quiet_enableGate _) fun _ => ?_
  exact writes_bind (quiet_checkLaunchable _ _ _) fun _ => ⟨fun _ => ⟨rfl, rfl⟩, trivial⟩

theorem quiet_createFlag (input : FlagInput) :
    (createFlag input : Transaction crates _).Writes Quiet := by
  refine writes_bind trivial fun _ => ?_
  refine writes_bind (quiet_fetchOne _ _) fun challenge => ?_
  refine writes_bind (fun _ => trivial) fun _ => ?_
  refine writes_bind (quiet_check _ _) fun _ => ?_
  exact writes_bind (writes_liftExcept _) fun flag => quiet_insertFlag flag

theorem quiet_checkSource (current flag : StoredFlag) :
    (checkSource current flag : Transaction crates Unit).Writes Quiet := by
  unfold checkSource
  split
  · exact trivial
  · exact writes_bind (fun _ => trivial) fun _ => quiet_check _ _

theorem quiet_checkTarget (current flag : StoredFlag) :
    (checkTarget current flag : Transaction crates Unit).Writes Quiet := by
  unfold checkTarget
  split
  · exact trivial
  · exact writes_bind (fun _ => trivial) fun _ => quiet_check _ _

theorem quiet_checkChange (changed : Bool) (current flag : StoredFlag) :
    (checkChange changed current flag : Transaction crates Unit).Writes Quiet := by
  unfold checkChange
  split
  · refine writes_bind (quiet_checkSource _ _) fun _ => ?_
    refine writes_bind (fun _ => trivial) fun _ => ?_
    refine writes_bind (quiet_check _ _) fun _ => ?_
    refine writes_bind (fun _ => trivial) fun _ => ?_
    exact writes_bind (quiet_check _ _) fun _ => quiet_checkTarget _ _
  · exact trivial

theorem quiet_updateFlag (flagId : ℤ) (patch : FlagPatch) :
    (updateFlag flagId patch : Transaction crates _).Writes Quiet := by
  refine writes_bind (quiet_fetchOne _ _) fun initial => ?_
  refine writes_bind (quiet_lockChallengeDefinitions _) fun _ => ?_
  refine writes_bind (quiet_fetchOne _ _) fun current => ?_
  refine writes_bind (quiet_check _ _) fun _ => ?_
  refine writes_bind (quiet_fetchOne _ _) fun challenge => ?_
  refine writes_bind (writes_liftExcept _) fun flag => ?_
  refine writes_bind (quiet_checkChange _ _ _) fun _ => ?_
  refine writes_bind (fun _ => trivial) fun _ => ?_
  refine writes_bind (quiet_check _ _) fun _ => ?_
  exact writes_bind ⟨fun _ => ⟨rfl, rfl⟩, trivial⟩ fun _ => trivial

/-- What a request commits touches no allocation. -/
def Settles (l : Local (FlagTables crates) LockKey Sequence) : Prop :=
  ∀ s, l.after (promises crates) s → Settled s (l.pending s)

theorem settles_of_writes {α : Type} {x : Transaction crates α} (h : x.Writes Quiet)
    {l : Local (FlagTables crates) LockKey Sequence} (hl : l.pending = id) :
    x.Safe (promises crates) l fun _ l' => Settles l' := by
  have hid : Quiet l.pending := by
    rw [hl]
    exact fun _ => ⟨rfl, rfl⟩
  refine (Safe.of_writes h (fun _ _ => Quiet.comp) hid).mono ?_
  intro _ l' hquiet s _
  exact hquiet.settled s

/-- The allocations of a flag are given up with it only when there is none. -/
theorem deleteFlag_settles (flagId : ℤ) :
    (deleteFlag flagId).Safe (promises crates) ⟨[], id, t⟩ fun _ l => Settles l := by
  simp only [deleteFlag, safe_bind, safe_lock, safe_fetchOne, safe_select, safe_check, safe_change,
    Function.comp_id, id_eq]
  intro s₁ h₁ initial hinitial s₂ h₂ s₃ h₃ current hcurrent hsame s₄ h₄ hassigned s₅ h₅ hcount
    s₆ h₆ hactive s h
  obtain ⟨hmem, rfl⟩ := FlagTables.flag_eq hcurrent
  have hplace : current.challengeId = initial.challengeId := of_decide_eq_true hsame
  have hlock : .lock (.challengeFlag current.challengeId) ∈
      [Hold.lock (ν := Sequence) (LockKey.challengeFlag initial.challengeId)] := by simp [hplace]
  have hkeep := ((keep_of_after h₅ hlock).trans (keep_of_after h₆ hlock)).trans
    (keep_of_after h hlock)
  have hmem' := hkeep.flags current ((keep_of_after h₄ hlock).flags current hmem rfl) rfl
  have hnone := hkeep.unassigned h.1 hmem' rfl hassigned
  refine ⟨?_, fun row hrow => ⟨row, hrow, rfl, rfl, rfl⟩⟩
  refine List.filter_eq_self.mpr fun row hrow => decide_eq_true fun hid => ?_
  rw [FlagTables.assigned_iff.mpr ⟨row, hrow, hid⟩] at hnone
  cases hnone

theorem deleteChallenge_settles (challengeId : ℤ) :
    (deleteChallenge challengeId).Safe (promises crates) ⟨[], id, t⟩ fun _ l => Settles l := by
  simp only [deleteChallenge, safe_bind, safe_lock, safe_fetchOne, safe_select, safe_check,
    safe_change, Function.comp_id, id_eq]
  intro s₁ h₁ s₂ h₂ challenge hchallenge s₃ h₃ hactive hassigned s h
  have hkeep := keep_of_after (c := challengeId) h (by simp)
  refine ⟨?_, fun row hrow => ⟨row, hrow, rfl, rfl, rfl⟩⟩
  refine List.filter_eq_self.mpr fun row hrow => decide_eq_true fun heq => ?_
  rw [Bool.not_eq_true', List.any_eq_false] at hassigned
  exact hassigned row (hkeep.released row hrow heq) (decide_eq_true heq)

/-- A request that is no launch touches no allocation. -/
theorem request_settles (request : Request)
    (hother : ∀ launch, request ≠ .ensureInstance launch) :
    request.program.Safe (promises crates) ⟨[], id, t⟩ fun _ l => Settles l := by
  rcases request with input | ⟨challengeId, patch⟩ | challengeId | input | ⟨flagId, patch⟩ |
    flagId | launch
  · have hquiet :
        (Request.program (.createChallenge input) : Transaction crates Unit).Writes Quiet :=
      writes_bind (quiet_createChallenge input) fun _ => trivial
    exact settles_of_writes hquiet rfl
  · exact settles_of_writes (quiet_updateChallenge challengeId patch) rfl
  · exact deleteChallenge_settles challengeId
  · have hquiet : (Request.program (.createFlag input) : Transaction crates Unit).Writes Quiet :=
      writes_bind (quiet_createFlag input) fun _ => trivial
    exact settles_of_writes hquiet rfl
  · have hquiet :
        (Request.program (.updateFlag flagId patch) : Transaction crates Unit).Writes Quiet :=
      writes_bind (quiet_updateFlag flagId patch) fun _ => trivial
    exact settles_of_writes hquiet rfl
  · exact deleteFlag_settles flagId
  · exact absurd rfl (hother launch)

/-- A request that keeps the definitions and touches no allocation keeps both. -/
theorem request_keeps (request : Request)
    (hother : ∀ launch, request ≠ .ensureInstance launch) :
    request.program.Safe (allocating crates secretKey) ⟨[], id, t⟩
      fun _ l => l.Commits (allocating crates secretKey) := by
  have hboth := (request_safe request).and (request_settles (t := t) request hother)
  refine (hboth.under (fun _ _ => after_promises) fun _ _ _ h => h).mono ?_
  rintro _ l ⟨hcommits, hsettles⟩ s hs
  have hafter := after_promises hs
  exact guarantee_settled hs.1 (hcommits s hafter) (hsettles s hafter)

/-! ## Launches -/

/-- A flag of the challenge that the allocation is of. -/
structure Backs (secretKey : String) (c : ℤ) (flag : SavedFlag crates) (row : UserChallengeFlag) :
    Prop where
  id : flag.id = row.flagId
  place : flag.challengeId = c
  revision : flag.revision = row.definitionRevision
  generated : flag.flagType = "generated"
  tagged : Tagged crates secretKey flag.toStoredFlag row

/-- What a launch by the user gives and delivers, on what is committed. -/
structure Giving (secretKey : String) (c u : ℤ) (given : List UserChallengeFlag)
    (flagValue : Option String) (t : FlagTables crates) : Prop where
  place : ∀ row ∈ given, row.challengeId = c
  backed : ∀ row ∈ given, ∃ flag ∈ t.flags, Backs secretKey c flag row
  apart : ∀ row ∈ given, ∀ other ∈ t.userChallengeFlags, Distinct row other
  single : given.Pairwise Distinct
  holds : ∀ value, flagValue = some value → ∃ row ∈ given ++ t.userChallengeFlags,
    ∃ flag ∈ t.flags, flag.id = row.flagId ∧ flag.challengeId = c ∧ row.challengeId = c ∧
      row.userId = u ∧ rendering flag.toStoredFlag row = value

/-- What a launch delivers when it gives nothing. -/
theorem giving_nothing {c u : ℤ} {flagValue : Option String}
    (h : ∀ value, flagValue = some value → ∃ row ∈ t.userChallengeFlags, ∃ flag ∈ t.flags,
      flag.id = row.flagId ∧ flag.challengeId = c ∧ row.challengeId = c ∧ row.userId = u ∧
        rendering flag.toStoredFlag row = value) : Giving secretKey c u [] flagValue t :=
  ⟨nofun, nofun, nofun, .nil, h⟩

/-- Under the lock of the challenge the others leave it so. -/
theorem Giving.later {c u : ℤ} {given : List UserChallengeFlag} {flagValue : Option String}
    (h : Giving secretKey c u given flagValue t) (hkeep : KeepChallenge c t t')
    (hrows : ∀ row ∈ t.userChallengeFlags, row ∈ t'.userChallengeFlags) (ht' : Integrity t') :
    Giving secretKey c u given flagValue t' := by
  constructor
  case place => exact h.place
  case single => exact h.single
  case backed =>
    intro row hrow
    obtain ⟨flag, hflag, hbacks⟩ := h.backed row hrow
    exact ⟨flag, hkeep.flags flag hflag hbacks.place, hbacks⟩
  case apart =>
    intro row hrow other hother
    by_cases hplace : other.challengeId = c
    · exact h.apart row hrow other (hkeep.released other hother hplace)
    · -- an allocation of another challenge is of another flag, too
      obtain ⟨flag, hflag, hbacks⟩ := h.backed row hrow
      have hmem := hkeep.flags flag hflag hbacks.place
      constructor
      · rintro ⟨hid, -⟩
        have hother := ht'.assigned_challenge hmem hother (hid.symm.trans hbacks.id.symm)
        exact hplace (hother.trans hbacks.place)
      · rintro ⟨hchallenge, -⟩
        exact hplace (hchallenge.symm.trans (h.place row hrow))
  case holds =>
    intro value hvalue
    obtain ⟨row, hrow, flag, hflag, hid, hplace, hrest⟩ := h.holds value hvalue
    refine ⟨row, ?_, flag, hkeep.flags flag hflag hplace, hid, hplace, hrest⟩
    rcases List.mem_append.mp hrow with hrow | hrow
    · exact List.mem_append_left _ hrow
    · exact List.mem_append_right _ (hrows row hrow)

/-- **What a launch commits keeps what is kept of the allocations.** -/
theorem Giving.allocated {c u : ℤ} {given : List UserChallengeFlag} {flagValue : Option String}
    (h : Giving secretKey c u given flagValue t) (ht : Allocated secretKey t)
    {started : InstanceRow} (howner : started.ownerUserId = u) (hchallenge : started.challengeId = c)
    (hvalue : started.deploymentSnapshot.field "flag_value" = flagValue.map Json.string)
    (hflags : t'.flags = t.flags) (hrows : t'.userChallengeFlags = given ++ t.userChallengeFlags)
    (hinstances : t'.runtimeInstances = t.runtimeInstances ++ [started])
    (ht' : Integrity t') : Allocated secretKey t' := by
  have hbacked : ∀ row ∈ given, ∀ flag ∈ t'.flags, flag.id = row.flagId →
      Backs secretKey c flag row := by
    intro row hrow flag hflag hid
    obtain ⟨flag', hflag', hbacks⟩ := h.backed row hrow
    rw [← hflags] at hflag'
    rw [ht'.flag_unique hflag hflag' (hid.trans hbacks.id.symm)]
    exact hbacks
  have hsplit : ∀ row ∈ t'.userChallengeFlags, row ∈ given ∨ row ∈ t.userChallengeFlags := by
    intro row hrow
    rw [hrows] at hrow
    exact List.mem_append.mp hrow
  constructor
  case integrity => exact ht'
  case generated =>
    intro row hrow flag hflag hid
    rcases hsplit row hrow with hrow | hrow
    · exact (hbacked row hrow flag hflag hid).generated
    · exact ht.generated row hrow flag (hflags ▸ hflag) hid
  case tagged =>
    intro row hrow flag hflag hid
    rcases hsplit row hrow with hrow | hrow
    · exact (hbacked row hrow flag hflag hid).tagged
    · exact ht.tagged row hrow flag (hflags ▸ hflag) hid
  case distinct =>
    rw [hrows]
    exact List.pairwise_append.mpr ⟨h.single, ht.distinct, h.apart⟩
  case delivered =>
    intro row hrow value hdelivers
    rw [hinstances] at hrow
    rcases List.mem_append.mp hrow with hrow | hrow
    · obtain ⟨held, hheld, flag, hflag, hrest⟩ := ht.delivered row hrow value hdelivers
      refine ⟨held, ?_, flag, hflags ▸ hflag, hrest⟩
      rw [hrows]
      exact List.mem_append_right _ hheld
    · rw [List.mem_singleton.mp hrow] at hdelivers ⊢
      rw [InstanceRow.Delivers, hvalue, Option.map_eq_some_iff] at hdelivers
      obtain ⟨value', hsome, heq⟩ := hdelivers
      obtain ⟨held, hheld, flag, hflag, hid, -, hplace, huser, hrendering⟩ :=
        h.holds value' hsome
      rw [howner, hchallenge]
      rw [Json.string.inj heq] at hrendering
      rw [← hrows] at hheld
      exact ⟨held, hheld, flag, hflags ▸ hflag, hid, hplace, huser, hrendering⟩

/-- A launch so far: it has given the user a value at most, which is what it delivers. -/
structure Materialized (secretKey : String) (c u : ℤ) (flagValue : Option String)
    (l : Local (FlagTables crates) LockKey Sequence) : Prop where
  lock : .lock (.challengeFlag c) ∈ l.held
  given : ∃ given : List UserChallengeFlag,
    (∀ s, l.pending s = { s with userChallengeFlags := given ++ s.userChallengeFlags }) ∧
      Giving secretKey c u given flagValue l.store

section Launching

variable {c u : ℤ} {l l' : Local (FlagTables crates) LockKey Sequence}

/-- What the holder of a lock knows of its challenge and of all allocations later. -/
theorem keeps_of_after {c : ℤ} (h : l.after (allocating crates secretKey) t)
    (hlock : .lock (.challengeFlag c) ∈ l.held) :
    KeepChallenge c l.store t ∧
      ∀ row ∈ l.store.userChallengeFlags, row ∈ t.userChallengeFlags := h.2 _ hlock

/-- The mask is drawn by statements that read. -/
theorem drawLeetMask_reads (flag : StoredFlag) (policy : FlagPolicyData) (hasToken : Bool)
    (draws : Draws) :
    (drawLeetMask flag policy hasToken draws : Transaction crates (Option ℕ)).Safe
      (allocating crates secretKey) l fun _ l' =>
        ∃ s, (allocating crates secretKey).Rely l.held l.store s ∧ l' = { l with store := s } := by
  unfold drawLeetMask
  split
  · simp only [nextAvailableLeetMask, check, fetchOne, safe_bind, safe_select, safe_liftExcept,
      safe_pure]
    intro s₁ h₁ _ _ s₂ h₂ _ _
    exact ⟨s₂, h₁.2.trans h₂.2, rfl⟩
  · split
    · exact ⟨l.store, Rely.refl l.held l.store, rfl⟩
    · exact ⟨l.store, Rely.refl l.held l.store, rfl⟩

/-- **The value of a user is given once, and delivered as it was given.** -/
theorem materializeFlag_gives (request : LaunchRequest) (hkey : request.secretKey = secretKey)
    {flag : SavedFlag crates} (hlock : .lock (.challengeFlag request.challengeId) ∈ l.held)
    (hpending : l.pending = id) (hflag : flag ∈ l.store.flags)
    (hplace : flag.challengeId = request.challengeId) (htype : flag.flagType = "generated") :
    (materializeFlag request flag.toStoredFlag).Safe (allocating crates secretKey) l
      fun value l' => Materialized secretKey request.challengeId request.userId (some value) l' := by
  obtain ⟨held, pending, store⟩ := l
  obtain rfl : pending = id := hpending
  have hlock' := List.mem_cons_of_mem (.lock (.generatedFlag flag.id)) hlock
  simp only [materializeFlag, safe_bind, safe_select, safe_acquire]
  intro s₁ h₁ s₂ h₂
  have hkeep₂ := (keeps_of_after h₁ hlock).1.trans (keeps_of_after h₂ hlock').1
  have hflag₂ := hkeep₂.flags flag hflag hplace
  split
  · -- the user holds a value: it is rendered again
    rename_i row hrow
    have hkeys := List.find?_some hrow
    rw [Bool.and_eq_true, decide_eq_true_eq, decide_eq_true_eq] at hkeys
    have hmem : row ∈ s₂.userChallengeFlags := List.mem_of_find?_eq_some hrow
    simp only [check, safe_bind, safe_liftExcept, safe_pure]
    intro _ _
    refine ⟨hlock', [], fun _ => rfl, giving_nothing ?_⟩
    intro value hvalue
    have hchallenge := h₂.1.integrity.assigned_challenge hflag₂ hmem hkeys.1
    exact ⟨row, hmem, flag, hflag₂, hkeys.1.symm, hplace, hchallenge.trans hplace, hkeys.2,
      Option.some.inj hvalue⟩
  · -- a value is drawn, and inserted under its keys
    simp only [safe_bind, safe_liftExcept]
    intro policy hpolicy
    refine (drawLeetMask_reads _ _ _ _).mono ?_
    rintro mask - ⟨s₃, h₃, rfl⟩
    simp only [insertUserChallengeFlag, check, safe_bind, safe_select, safe_liftExcept, safe_change,
      safe_pure]
    intro s₄ h₄ _ htaken
    have hkeep := (hkeep₂.trans (h₃ _ hlock').1).trans (keeps_of_after h₄ hlock').1
    have hfree := ensure_eq_ok.mp htaken
    rw [Bool.not_eq_true', List.any_eq_false] at hfree
    refine ⟨hlock', [_], fun s => rfl, ?_⟩
    constructor
    case place =>
      intro row hrow
      rw [List.mem_singleton.mp hrow]
    case backed =>
      intro row hrow
      rw [List.mem_singleton.mp hrow]
      refine ⟨flag, hkeep.flags flag hflag hplace, rfl, hplace, rfl, htype, policy, hpolicy, ?_⟩
      rw [← hkey]
      rfl
    case apart =>
      intro row hrow other hother
      have hother' := hfree other hother
      rw [List.mem_singleton.mp hrow]
      rw [Bool.or_eq_true, Bool.and_eq_true, Bool.and_eq_true] at hother'
      simp only [decide_eq_true_eq, not_or] at hother'
      exact Distinct.symm hother'
    case single => exact List.pairwise_singleton _ _
    case holds =>
      intro value hvalue
      exact ⟨_, List.mem_append_left _ (List.mem_singleton_self _), flag,
        hkeep.flags flag hflag hplace, rfl, hplace, rfl, rfl, Option.some.inj hvalue⟩

theorem materializeForLaunch_gives (request : LaunchRequest)
    (hkey : request.secretKey = secretKey)
    (hlock : .lock (.challengeFlag request.challengeId) ∈ l.held) (hpending : l.pending = id) :
    (materializeForLaunch request : Transaction crates _).Safe (allocating crates secretKey) l
      fun flagValue l' =>
        Materialized secretKey request.challengeId request.userId flagValue l' := by
  obtain ⟨held, pending, store⟩ := l
  obtain rfl : pending = id := hpending
  have hlock' := List.mem_cons_of_mem (.lock (.challengeFlag request.challengeId)) hlock
  simp only [materializeForLaunch, lockChallengeDefinition, safe_bind, safe_acquire, safe_select]
  intro s₁ h₁ s₂ h₂
  split
  · exact ⟨hlock', [], fun _ => rfl, giving_nothing nofun⟩
  · rename_i flag hflag
    have hmem := List.mem_filter.mp (List.argmin_mem hflag)
    rw [Bool.and_eq_true, decide_eq_true_eq, decide_eq_true_eq] at hmem
    refine safe_bind.mpr ?_
    refine (materializeFlag_gives request hkey hlock' rfl hmem.1 hmem.2.1 hmem.2.2).mono ?_
    exact fun _ _ h => h

/-- **A launch keeps the promises.** -/
theorem ensureInstance_keeps (request : LaunchRequest) (hkey : request.secretKey = secretKey) :
    (ensureInstance request).Safe (allocating crates secretKey) ⟨[], id, t⟩
      fun _ l => l.Commits (allocating crates secretKey) := by
  simp only [ensureInstance, fetchOne, lockChallengeDefinition, safe_bind, safe_liftExcept,
    safe_acquire, safe_select]
  intro s₁ h₁ gate hgate runtime haccess s₂ h₂ s₃ h₃ gate' hgate' runtime' haccess' _ hlifetime
    s₄ h₄
  split
  · simp only [check, safe_bind, safe_liftExcept, safe_pure]
    intro _ _ s h
    exact Guarantee.refl h.1
  · simp only [safe_bind]
    refine (materializeForLaunch_gives request hkey (List.mem_singleton_self _) rfl).mono ?_
    intro flagValue l hl
    simp only [insertInstance, check, safe_bind, safe_select, safe_liftExcept, safe_change,
      safe_pure]
    intro s₅ h₅ _ htaken s h
    obtain ⟨given, hpending, hgiving⟩ := hl.given
    have hkeep₅ := keeps_of_after h₅ hl.lock
    have hkeep := keeps_of_after h hl.lock
    have hlast := (hgiving.later hkeep₅.1 hkeep₅.2 h₅.1.integrity).later hkeep.1 hkeep.2
      h.1.integrity
    have hafter : l.pending s = { s with userChallengeFlags := given ++ s.userChallengeFlags } :=
      hpending s
    have hflags : (l.pending s).flags = s.flags := by rw [hafter]
    have hrows : (l.pending s).userChallengeFlags = given ++ s.userChallengeFlags := by rw [hafter]
    have hinstances : (l.pending s).runtimeInstances = s.runtimeInstances := by rw [hafter]
    have hguarantee : (promises crates).Guarantee l.held s { l.pending s with
        runtimeInstances := (l.pending s).runtimeInstances ++ [⟨request.userId,
          request.challengeId, deploymentSnapshot runtime' flagValue, true⟩] } := by
      refine guarantee_launch h.1.integrity (by rw [hafter]) hflags hrows
        (congrArg (· ++ [_]) hinstances) hl.lock ?_ ?_
      · intro row hrow
        obtain ⟨flag, hflag, hbacks⟩ := hlast.backed row hrow
        have hplace := hlast.place row hrow
        exact ⟨hplace, flag, hflag, hbacks.id, hbacks.place.trans hplace.symm, hbacks.revision⟩
      · intro row hrow
        rw [List.mem_singleton.mp hrow]
    refine guarantee_allocated hguarantee ?_ ?_
    · exact hlast.allocated h.1 rfl rfl (field_deploymentSnapshot runtime' flagValue) hflags hrows
        (congrArg (· ++ [_]) hinstances) hguarantee.inv
    · intro row hrow
      show row ∈ (l.pending s).userChallengeFlags
      rw [hrows]
      exact List.mem_append_right _ hrow

end Launching

end CtfZone.FlagDefinitions
