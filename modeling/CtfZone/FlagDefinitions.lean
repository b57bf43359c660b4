/-
# The integrity of flag definitions

Requests on flag definitions run beside each other, each query by itself.  What
they keep is stated once (`Integrity`), together with what the lock of a
challenge is good for: whoever holds it sees its row, its flags, its allocations
and its active instances as they are (`KeepChallenge`).

* `Integrity` : every challenge has its flags, and every flag its challenge;
* `Defined` : what the flags of a challenge look like from outside;
* `Upheld` : a definition in use is not touched;
* `request_safe` : every request keeps its promises by itself;
* `flag_definition_integrity` : so definitions are kept in every run.
-/
import CtfZone.FlagTransactions

namespace CtfZone.FlagDefinitions

open Journal Runs Locking Locking.Program Locking.Protocol Tables
open Submissions (saveFlag generatedUnique definitionChanged FlagPatch required required_eq_ok)

variable {crates : Crates} {t t' t'' : FlagTables crates}

/-! ## What is kept -/

/-- The invariant of the tables. -/
structure Integrity (t : FlagTables crates) : Prop where
  challengeIds : (t.challenges.map Challenge.id).Nodup
  flagIds : (t.flags.map fun flag => flag.id).Nodup
  placed : ∀ flag ∈ t.flags, ∃ challenge ∈ t.challenges, challenge.id = flag.challengeId
  retained : ∀ challenge ∈ t.challenges, ∃ flag ∈ t.flags, flag.challengeId = challenge.id
  single : ∀ flag ∈ t.flags, ∀ other ∈ t.flags, flag.flagType = "generated" →
    other.flagType = "generated" → flag.challengeId = other.challengeId → flag = other
  secret : ∀ flag ∈ t.flags, flag.flagType = "generated" → ∀ challenge ∈ t.challenges,
    challenge.id = flag.challengeId → challenge.exposure = "private"
  allocated : ∀ row ∈ t.userChallengeFlags, ∃ flag ∈ t.flags, flag.id = row.flagId ∧
    flag.challengeId = row.challengeId ∧ flag.revision = row.definitionRevision

/-- A user holds a value of the flag, or an instance of its challenge is active. -/
def InUse (t : FlagTables crates) (flag : SavedFlag crates) : Prop :=
  t.assigned flag.id = true ∨ t.active flag.challengeId = true

/-- A definition in use is not touched. -/
def Upheld (t t' : FlagTables crates) : Prop := ∀ flag ∈ t.flags, InUse t flag → flag ∈ t'.flags

/-- What happens to a challenge while somebody holds its lock. -/
structure KeepChallenge (challengeId : ℤ) (t t' : FlagTables crates) : Prop where
  row : ∀ challenge ∈ t.challenges, challenge.id = challengeId → challenge ∈ t'.challenges
  flags : ∀ flag ∈ t.flags, flag.challengeId = challengeId → flag ∈ t'.flags
  noNew : (∃ challenge ∈ t.challenges, challenge.id = challengeId) →
    ∀ flag ∈ t'.flags, flag.challengeId = challengeId → flag ∈ t.flags
  stopped : t'.active challengeId = true → t.active challengeId = true
  released : ∀ row ∈ t'.userChallengeFlags, row.challengeId = challengeId →
    row ∈ t.userChallengeFlags

theorem KeepChallenge.refl (challengeId : ℤ) (t : FlagTables crates) :
    KeepChallenge challengeId t t :=
  ⟨fun _ h _ => h, fun _ h _ => h, fun _ _ h _ => h, id, fun _ h _ => h⟩

theorem KeepChallenge.trans {challengeId : ℤ} (h : KeepChallenge challengeId t t')
    (h' : KeepChallenge challengeId t' t'') : KeepChallenge challengeId t t'' := by
  refine ⟨fun c hc hid => h'.row c (h.row c hc hid) hid,
    fun f hf hid => h'.flags f (h.flags f hf hid) hid, ?_, fun ha => h.stopped (h'.stopped ha),
    fun row hrow hid => h.released row (h'.released row hrow hid) hid⟩
  rintro ⟨c, hc, hid⟩ f hf hfid
  exact h.noNew ⟨c, hc, hid⟩ f (h'.noNew ⟨c, h.row c hc hid, hid⟩ f hf hfid) hfid

/-- What the holder of a lock can rely on. -/
def Keep : LockKey → FlagTables crates → FlagTables crates → Prop
  | .challengeFlag challengeId, t, t' => KeepChallenge challengeId t t'
  | .generatedFlag _, _, _ => True

/-- No row has the number. -/
def Unused : Sequence → ℕ → FlagTables crates → Prop
  | .challenges, n, t => ∀ challenge ∈ t.challenges, challenge.id ≠ n
  | .flags, n, t => ∀ flag ∈ t.flags, flag.id ≠ n

/-- What the requests promise each other. -/
def promises (crates : Crates) : Protocol (FlagTables crates) LockKey Sequence where
  Inv := Integrity
  Keep := Keep
  Unused := Unused
  Transition := Upheld
  keep_refl := by
    intro key t
    cases key with
    | challengeFlag challengeId => exact KeepChallenge.refl challengeId t
    | generatedFlag flagId => trivial
  keep_trans := by
    intro key t t' t'' h h'
    cases key with
    | challengeFlag challengeId => exact KeepChallenge.trans h h'
    | generatedFlag flagId => trivial
  transition_refl := fun _ _ h _ => h

/-- The rows of definitions, allocations and instances are the same. -/
structure SameRows (t t' : FlagTables crates) : Prop where
  challenges : t'.challenges = t.challenges
  flags : t'.flags = t.flags
  userChallengeFlags : t'.userChallengeFlags = t.userChallengeFlags
  runtimeInstances : t'.runtimeInstances = t.runtimeInstances

/-! ## Rows -/

namespace FlagTables

theorem challenge_eq {challengeId : ℤ} {challenge : Challenge}
    (h : t.challenge challengeId = some challenge) :
    challenge ∈ t.challenges ∧ challenge.id = challengeId :=
  ⟨List.mem_of_find?_eq_some h,
    of_decide_eq_true (List.find?_some (p := fun c : Challenge => decide (c.id = challengeId)) h)⟩

theorem flag_eq {flagId : ℤ} {flag : SavedFlag crates} (h : t.flag flagId = some flag) :
    flag ∈ t.flags ∧ flag.id = flagId :=
  ⟨List.mem_of_find?_eq_some h,
    of_decide_eq_true
      (List.find?_some (p := fun f : SavedFlag crates => decide (f.id = flagId)) h)⟩

theorem assigned_iff {flagId : ℤ} :
    t.assigned flagId = true ↔ ∃ row ∈ t.userChallengeFlags, row.flagId = flagId := by
  simp [assigned]

end FlagTables

namespace Integrity

variable (h : Integrity t)
include h

/-- The row of a challenge is determined by its id. -/
theorem challenge_unique {c c' : Challenge} (hc : c ∈ t.challenges) (hc' : c' ∈ t.challenges)
    (hid : c.id = c'.id) : c = c' := List.inj_on_of_nodup_map h.challengeIds hc hc' hid

/-- The row of a flag is determined by its id. -/
theorem flag_unique {f f' : SavedFlag crates} (hf : f ∈ t.flags) (hf' : f' ∈ t.flags)
    (hid : f.id = f'.id) : f = f' := List.inj_on_of_nodup_map h.flagIds hf hf' hid

/-- The allocations of a flag are those of its challenge. -/
theorem assigned_challenge {f : SavedFlag crates} (hf : f ∈ t.flags) {row : UserChallengeFlag}
    (hrow : row ∈ t.userChallengeFlags) (hid : row.flagId = f.id) :
    row.challengeId = f.challengeId := by
  obtain ⟨g, hg, hgid, hchallenge, -⟩ := h.allocated row hrow
  obtain rfl := h.flag_unique hg hf (hgid.trans hid)
  exact hchallenge.symm

end Integrity

/-! ## Commits -/

variable {held : List (Hold LockKey Sequence)}

/-- What a commit has to show. -/
theorem guarantee_of (hinv : Integrity t') (hupheld : Upheld t t')
    (hkeep : ∀ c, .lock (.challengeFlag c) ∉ held → KeepChallenge c t t')
    (hunused : ∀ q n, .number q n ∉ held → Unused q n t → Unused q n t') :
    (promises crates).Guarantee held t t' := by
  refine ⟨hinv, hupheld, ?_⟩
  intro hold hfree
  rcases hold with (c | flagId) | ⟨q, n⟩
  · exact hkeep c hfree
  · trivial
  · exact hunused q n hfree

/-- Allocations and instances are given up. -/
theorem guarantee_release (ht : Integrity t) (hchallenges : t'.challenges = t.challenges)
    (hflags : t'.flags = t.flags)
    (hrows : ∀ row ∈ t'.userChallengeFlags, row ∈ t.userChallengeFlags)
    (hactive : ∀ c, t'.active c = true → t.active c = true) :
    (promises crates).Guarantee held t t' := by
  refine guarantee_of ?_ ?_ ?_ ?_
  · obtain ⟨h₁, h₂, h₃, h₄, h₅, h₆, h₇⟩ := ht
    rw [← hchallenges] at h₁ h₃ h₄ h₆
    rw [← hflags] at h₂ h₃ h₄ h₅ h₆ h₇
    exact ⟨h₁, h₂, h₃, h₄, h₅, h₆, fun row hrow => h₇ row (hrows row hrow)⟩
  · intro flag hflag _
    rwa [hflags]
  · intro c _
    refine ⟨fun _ h _ => hchallenges ▸ h, fun _ h _ => hflags ▸ h, fun _ _ h _ => hflags ▸ h,
      hactive c, fun row hrow _ => hrows row hrow⟩
  · intro q n _ hunused
    cases q with
    | challenges => exact fun c hc => hunused c (hchallenges ▸ hc)
    | flags => exact fun f hf => hunused f (hflags ▸ hf)

theorem active_congr (h : t'.runtimeInstances = t.runtimeInstances) (c : ℤ) :
    t'.active c = t.active c := by
  rw [FlagTables.active, h, FlagTables.active]

/-- Nothing but the configuration changes. -/
theorem guarantee_same (ht : Integrity t) (h : SameRows t t') :
    (promises crates).Guarantee held t t' :=
  guarantee_release ht h.challenges h.flags (fun _ hrow => h.userChallengeFlags ▸ hrow)
    fun c hc => active_congr h.runtimeInstances c ▸ hc

/-- A flag is created, perhaps with its challenge. -/
theorem guarantee_insert (ht : Integrity t) {created : List Challenge} {flag : SavedFlag crates}
    (hchallenges : t'.challenges = t.challenges ++ created)
    (hflags : t'.flags = t.flags ++ [flag])
    (hrows : t'.userChallengeFlags = t.userChallengeFlags)
    (hinstances : t'.runtimeInstances = t.runtimeInstances)
    (hplaced : ∃ c ∈ t'.challenges, c.id = flag.challengeId ∧
      (flag.flagType = "generated" → c.exposure = "private"))
    (hunique : generatedUnique t.flags flag = true)
    (hnodup : (created.map Challenge.id).Nodup)
    (hcreated : ∀ c ∈ created, c.id = flag.challengeId)
    (hfresh : ∀ c ∈ created, ∃ n : ℕ, c.id = n ∧ Unused .challenges n t ∧
      .number .challenges n ∈ held)
    (hid : ∃ n : ℕ, flag.id = n ∧ Unused .flags n t ∧ .number .flags n ∈ held)
    (hlock : .lock (.challengeFlag flag.challengeId) ∈ held ∨
      ∀ c ∈ t.challenges, c.id ≠ flag.challengeId) :
    (promises crates).Guarantee held t t' := by
  obtain ⟨id, hflagId, hidFresh, hidHeld⟩ := hid
  have hnew : ∀ c ∈ created, ∀ c' ∈ t.challenges, c'.id ≠ c.id := by
    intro c hc c' hc' heq
    obtain ⟨n, hn, hunused, -⟩ := hfresh c hc
    exact hunused c' hc' (heq.trans hn)
  have hids : (t'.challenges.map Challenge.id).Nodup := by
    rw [hchallenges, List.map_append, List.nodup_append]
    refine ⟨ht.challengeIds, hnodup, ?_⟩
    intro a ha b hb hab
    obtain ⟨c', hc', rfl⟩ := List.mem_map.mp ha
    obtain ⟨c, hc, rfl⟩ := List.mem_map.mp hb
    exact hnew c hc c' hc' hab
  have hmem : ∀ f ∈ t'.flags, f ∈ t.flags ∨ f = flag := by
    intro f hf
    rw [hflags] at hf
    rcases List.mem_append.mp hf with hf | hf
    · exact .inl hf
    · exact .inr (List.mem_singleton.mp hf)
  have hold : ∀ f ∈ t.flags, f ∈ t'.flags := fun f hf => hflags ▸ List.mem_append_left _ hf
  have hother : ∀ f ∈ t.flags, f.flagType = "generated" → flag.flagType = "generated" →
      f.challengeId ≠ flag.challengeId := by
    intro f hf htype hgenerated hchallenge
    simp only [generatedUnique, Bool.not_eq_true', Bool.and_eq_false_iff,
      decide_eq_false_iff_not, List.any_eq_false] at hunique
    rcases hunique with h | h
    · exact h hgenerated
    · exact h f hf (by simp [htype, hchallenge])
  refine guarantee_of ⟨hids, ?_, ?_, ?_, ?_, ?_, ?_⟩ (fun f hf _ => hold f hf) ?_ ?_
  · rw [hflags, List.map_append, List.nodup_append]
    refine ⟨ht.flagIds, List.nodup_singleton _, ?_⟩
    intro a ha b hb hab
    obtain ⟨f, hf, rfl⟩ := List.mem_map.mp ha
    obtain rfl := List.mem_singleton.mp hb
    exact hidFresh f hf (hab.trans hflagId)
  · intro f hf
    rcases hmem f hf with hf | rfl
    · obtain ⟨c, hc, heq⟩ := ht.placed f hf
      exact ⟨c, hchallenges ▸ List.mem_append_left _ hc, heq⟩
    · obtain ⟨c, hc, heq, -⟩ := hplaced
      exact ⟨c, hc, heq⟩
  · intro c hc
    rw [hchallenges] at hc
    rcases List.mem_append.mp hc with hc | hc
    · obtain ⟨f, hf, heq⟩ := ht.retained c hc
      exact ⟨f, hold f hf, heq⟩
    · exact ⟨flag, hflags ▸ List.mem_append_right _ (List.mem_singleton_self _),
        (hcreated c hc).symm⟩
  · intro f hf f' hf' htype htype' hchallenge
    rcases hmem f hf with hf | rfl
    · rcases hmem f' hf' with hf' | rfl
      · exact ht.single f hf f' hf' htype htype' hchallenge
      · exact absurd hchallenge (hother f hf htype htype')
    · rcases hmem f' hf' with hf' | rfl
      · exact absurd hchallenge.symm (hother f' hf' htype' htype)
      · rfl
  · intro f hf htype c hc hcf
    rcases hmem f hf with hf | rfl
    · rw [hchallenges] at hc
      rcases List.mem_append.mp hc with hc | hc
      · exact ht.secret f hf htype c hc hcf
      · obtain ⟨c', hc', heq⟩ := ht.placed f hf
        exact absurd (heq.trans hcf.symm) (hnew c hc c' hc')
    · obtain ⟨c', hc', heq, hprivate⟩ := hplaced
      obtain rfl := List.inj_on_of_nodup_map hids hc hc' (hcf.trans heq.symm)
      exact hprivate htype
  · intro row hrow
    obtain ⟨f, hf, heq⟩ := ht.allocated row (hrows ▸ hrow)
    exact ⟨f, hold f hf, heq⟩
  · intro c hfree
    refine ⟨fun c' hc' _ => hchallenges ▸ List.mem_append_left _ hc', fun f hf _ => hold f hf, ?_,
      fun ha => active_congr hinstances c ▸ ha, fun row hrow _ => hrows ▸ hrow⟩
    rintro ⟨c', hc', rfl⟩ f hf heq
    rcases hmem f hf with hf | rfl
    · exact hf
    · rcases hlock with hlock | hnone
      · rw [heq] at hlock
        exact absurd hlock hfree
      · exact absurd heq.symm (hnone c' hc')
  · intro q n hfree hunused
    cases q with
    | challenges =>
        intro c hc heq
        rw [hchallenges] at hc
        rcases List.mem_append.mp hc with hc | hc
        · exact hunused c hc heq
        · obtain ⟨m, hm, -, hheld⟩ := hfresh c hc
          obtain rfl : m = n := by exact_mod_cast hm.symm.trans heq
          exact hfree hheld
    | flags =>
        intro f hf heq
        rcases hmem f hf with hf | rfl
        · exact hunused f hf heq
        · obtain rfl : id = n := by exact_mod_cast hflagId.symm.trans heq
          exact hfree hidHeld

/-- A challenge is edited; it is public only without a generated flag. -/
theorem guarantee_edit (ht : Integrity t) {c : ℤ} {exposure state : String}
    (hchallenges : t'.challenges =
      update (·.id = c) (fun row => { row with exposure, state }) t.challenges)
    (hflags : t'.flags = t.flags) (hrows : t'.userChallengeFlags = t.userChallengeFlags)
    (hinstances : t'.runtimeInstances = t.runtimeInstances)
    (hlock : .lock (.challengeFlag c) ∈ held)
    (hsecret : ∀ f ∈ t.flags, f.flagType = "generated" → f.challengeId = c →
      exposure = "private") :
    (promises crates).Guarantee held t t' := by
  have hmem : ∀ c' ∈ t'.challenges, ∃ c₀ ∈ t.challenges, c₀.id = c'.id ∧
      (c'.id = c ∧ c'.exposure = exposure ∨ c'.id ≠ c ∧ c' = c₀) := by
    intro c' hc'
    rw [hchallenges] at hc'
    obtain ⟨c₀, hc₀, ⟨hp, rfl⟩ | ⟨hp, rfl⟩⟩ := mem_update.mp hc'
    · exact ⟨c₀, hc₀, rfl, .inl ⟨of_decide_eq_true hp, rfl⟩⟩
    · exact ⟨c₀, hc₀, rfl, .inr ⟨of_decide_eq_false hp, rfl⟩⟩
  have hids : t'.challenges.map Challenge.id = t.challenges.map Challenge.id := by
    rw [hchallenges, update, List.map_map]
    refine List.map_congr_left fun row _ => ?_
    rcases updateRow_cases (fun row : Challenge => decide (row.id = c))
      (fun row => { row with exposure, state }) row with ⟨-, heq⟩ | ⟨-, heq⟩
    · rw [Function.comp_apply, heq]
    · rw [Function.comp_apply, heq]
  have hold : ∀ c' ∈ t.challenges, ∃ c₁ ∈ t'.challenges, c₁.id = c'.id := by
    intro c' hc'
    have hid : c'.id ∈ t'.challenges.map Challenge.id := hids ▸ List.mem_map_of_mem hc'
    exact List.mem_map.mp hid
  refine guarantee_of ⟨hids ▸ ht.challengeIds, hflags ▸ ht.flagIds, ?_, ?_,
    hflags ▸ ht.single, ?_, ?_⟩ (fun f hf _ => hflags ▸ hf) ?_ ?_
  · intro f hf
    obtain ⟨c', hc', heq⟩ := ht.placed f (hflags ▸ hf)
    obtain ⟨c₁, hc₁, hid⟩ := hold c' hc'
    exact ⟨c₁, hc₁, hid.trans heq⟩
  · intro c' hc'
    obtain ⟨c₀, hc₀, hid, -⟩ := hmem c' hc'
    rw [hflags, ← hid]
    exact ht.retained c₀ hc₀
  · intro f hf htype c' hc' heq
    obtain ⟨c₀, hc₀, hid, ⟨hc, hexposure⟩ | ⟨-, rfl⟩⟩ := hmem c' hc'
    · rw [hexposure]
      exact hsecret f (hflags ▸ hf) htype (heq.symm.trans hc)
    · exact ht.secret f (hflags ▸ hf) htype c' hc₀ heq
  · intro row hrow
    rw [hflags]
    exact ht.allocated row (hrows ▸ hrow)
  · intro c' hfree
    refine ⟨?_, fun f hf _ => hflags ▸ hf, fun _ f hf _ => hflags ▸ hf,
      fun ha => active_congr hinstances c' ▸ ha, fun row hrow _ => hrows ▸ hrow⟩
    rintro row hrow rfl
    rw [hchallenges, mem_update]
    refine ⟨row, hrow, .inr ⟨decide_eq_false ?_, rfl⟩⟩
    rintro rfl
    exact hfree hlock
  · intro q n _ hunused
    cases q with
    | challenges =>
        intro c' hc'
        obtain ⟨c₀, hc₀, hid, -⟩ := hmem c' hc'
        exact hid ▸ hunused c₀ hc₀
    | flags => exact fun f hf => hunused f (hflags ▸ hf)

/-- A challenge without allocations and active instances is deleted. -/
theorem guarantee_delete (ht : Integrity t) {c : ℤ} (ht' : t' = t.withoutChallenge c)
    (hlock : .lock (.challengeFlag c) ∈ held) (hactive : t.active c = false)
    (hrows : ∀ row ∈ t.userChallengeFlags, row.challengeId ≠ c) :
    (promises crates).Guarantee held t t' := by
  have hchallenge : ∀ c', c' ∈ t'.challenges ↔ c' ∈ t.challenges ∧ c'.id ≠ c := by
    intro c'
    rw [ht', FlagTables.withoutChallenge, List.mem_filter, decide_eq_true_eq]
  have hflag : ∀ f, f ∈ t'.flags ↔ f ∈ t.flags ∧ f.challengeId ≠ c := by
    intro f
    rw [ht', FlagTables.withoutChallenge, List.mem_filter, decide_eq_true_eq]
  have hrow : ∀ row ∈ t'.userChallengeFlags, row ∈ t.userChallengeFlags := by
    rw [ht', FlagTables.withoutChallenge]
    exact fun row hrow => List.mem_of_mem_filter hrow
  have hinstances : t'.runtimeInstances = t.runtimeInstances := by
    rw [ht', FlagTables.withoutChallenge]
  have hchallengeIds : (t'.challenges.map Challenge.id).Nodup := by
    rw [ht', FlagTables.withoutChallenge]
    exact ht.challengeIds.sublist (List.filter_sublist.map _)
  have hflagIds : (t'.flags.map fun flag => flag.id).Nodup := by
    rw [ht', FlagTables.withoutChallenge]
    exact ht.flagIds.sublist (List.filter_sublist.map _)
  refine guarantee_of ⟨hchallengeIds, hflagIds, ?_, ?_, ?_, ?_, ?_⟩ ?_ ?_ ?_
  · intro f hf
    obtain ⟨hf, hne⟩ := (hflag f).mp hf
    obtain ⟨c', hc', heq⟩ := ht.placed f hf
    exact ⟨c', (hchallenge c').mpr ⟨hc', heq ▸ hne⟩, heq⟩
  · intro c' hc'
    obtain ⟨hc', hne⟩ := (hchallenge c').mp hc'
    obtain ⟨f, hf, heq⟩ := ht.retained c' hc'
    exact ⟨f, (hflag f).mpr ⟨hf, heq ▸ hne⟩, heq⟩
  · intro f hf f' hf'
    exact ht.single f ((hflag f).mp hf).1 f' ((hflag f').mp hf').1
  · intro f hf htype c' hc'
    exact ht.secret f ((hflag f).mp hf).1 htype c' ((hchallenge c').mp hc').1
  · intro row hmem
    obtain ⟨f, hf, hid, hplace, hrevision⟩ := ht.allocated row (hrow row hmem)
    exact ⟨f, (hflag f).mpr ⟨hf, hplace ▸ hrows row (hrow row hmem)⟩, hid, hplace, hrevision⟩
  · intro f hf huse
    refine (hflag f).mpr ⟨hf, ?_⟩
    rintro rfl
    rcases huse with hassigned | hrunning
    · obtain ⟨row, hmem, hid⟩ := FlagTables.assigned_iff.mp hassigned
      exact hrows row hmem (ht.assigned_challenge hf hmem hid)
    · rw [hactive] at hrunning
      cases hrunning
  · intro c' hfree
    have hne : c' ≠ c := by
      rintro rfl
      exact hfree hlock
    refine ⟨?_, ?_, fun _ f hf _ => ((hflag f).mp hf).1,
      fun ha => active_congr hinstances c' ▸ ha, fun row hmem _ => hrow row hmem⟩
    · rintro row hmem rfl
      exact (hchallenge row).mpr ⟨hmem, hne⟩
    · rintro f hf rfl
      exact (hflag f).mpr ⟨hf, hne⟩
  · intro q n _ hunused
    cases q with
    | challenges => exact fun c' hc' => hunused c' ((hchallenge c').mp hc').1
    | flags => exact fun f hf => hunused f ((hflag f).mp hf).1

/-- A flag that nobody holds a value of is deleted from a challenge that keeps another one. -/
theorem guarantee_drop (ht : Integrity t) {flag : SavedFlag crates} (hflag : flag ∈ t.flags)
    (hchallenges : t'.challenges = t.challenges)
    (hflags : t'.flags = t.flags.filter (·.id ≠ flag.id))
    (hrows : ∀ row ∈ t'.userChallengeFlags, row ∈ t.userChallengeFlags)
    (hinstances : t'.runtimeInstances = t.runtimeInstances)
    (hlock : .lock (.challengeFlag flag.challengeId) ∈ held)
    (hother : ∃ f ∈ t.flags, f.id ≠ flag.id ∧ f.challengeId = flag.challengeId)
    (hassigned : t.assigned flag.id = false) (hactive : t.active flag.challengeId = false) :
    (promises crates).Guarantee held t t' := by
  have hmem : ∀ f, f ∈ t'.flags ↔ f ∈ t.flags ∧ f.id ≠ flag.id := by
    intro f
    rw [hflags, List.mem_filter, decide_eq_true_eq]
  have hflagIds : (t'.flags.map fun flag => flag.id).Nodup := by
    rw [hflags]
    exact ht.flagIds.sublist (List.filter_sublist.map _)
  refine guarantee_of ⟨hchallenges ▸ ht.challengeIds, hflagIds, ?_, ?_, ?_, ?_, ?_⟩ ?_ ?_ ?_
  · intro f hf
    rw [hchallenges]
    exact ht.placed f ((hmem f).mp hf).1
  · intro c hc
    obtain ⟨f, hf, heq⟩ := ht.retained c (hchallenges ▸ hc)
    by_cases hid : f.id = flag.id
    · obtain rfl := ht.flag_unique hf hflag hid
      obtain ⟨g, hg, hne, hplace⟩ := hother
      exact ⟨g, (hmem g).mpr ⟨hg, hne⟩, hplace.trans heq⟩
    · exact ⟨f, (hmem f).mpr ⟨hf, hid⟩, heq⟩
  · intro f hf f' hf'
    exact ht.single f ((hmem f).mp hf).1 f' ((hmem f').mp hf').1
  · intro f hf htype c hc
    exact ht.secret f ((hmem f).mp hf).1 htype c (hchallenges ▸ hc)
  · intro row hrow
    obtain ⟨f, hf, hid, hrest⟩ := ht.allocated row (hrows row hrow)
    refine ⟨f, (hmem f).mpr ⟨hf, fun heq => ?_⟩, hid, hrest⟩
    have hsome := FlagTables.assigned_iff.mpr ⟨row, hrows row hrow, (hid.symm.trans heq : _)⟩
    rw [hassigned] at hsome
    cases hsome
  · intro f hf huse
    refine (hmem f).mpr ⟨hf, fun heq => ?_⟩
    obtain rfl := ht.flag_unique hf hflag heq
    rcases huse with h | h
    · rw [hassigned] at h
      cases h
    · rw [hactive] at h
      cases h
  · intro c hfree
    refine ⟨fun c' hc' _ => hchallenges ▸ hc', ?_, fun _ f hf _ => ((hmem f).mp hf).1,
      fun ha => active_congr hinstances c ▸ ha, fun row hrow _ => hrows row hrow⟩
    rintro f hf rfl
    refine (hmem f).mpr ⟨hf, fun heq => ?_⟩
    obtain rfl := ht.flag_unique hf hflag heq
    exact hfree hlock
  · intro q n _ hunused
    cases q with
    | challenges => exact fun c hc => hunused c (hchallenges ▸ hc)
    | flags => exact fun f hf => hunused f ((hmem f).mp hf).1

/-- A flag that is not in use is edited, and perhaps moves from a challenge that keeps
another one. -/
theorem guarantee_replace (ht : Integrity t) {current saved : SavedFlag crates}
    (hcurrent : current ∈ t.flags) (hid : current.id = saved.id)
    (hchallenges : t'.challenges = t.challenges)
    (hflags : t'.flags = update (·.id = saved.id) (fun _ => saved) t.flags)
    (hrows : t'.userChallengeFlags = t.userChallengeFlags)
    (hinstances : t'.runtimeInstances = t.runtimeInstances)
    (hlock : .lock (.challengeFlag current.challengeId) ∈ held)
    (hlock' : .lock (.challengeFlag saved.challengeId) ∈ held)
    (hplaced : ∃ c ∈ t.challenges, c.id = saved.challengeId ∧
      (saved.flagType = "generated" → c.exposure = "private"))
    (hunique : generatedUnique (t.flags.filter (·.id ≠ saved.id)) saved = true)
    (hunused : ¬ InUse t current)
    (hother : saved.challengeId = current.challengeId ∨
      ∃ f ∈ t.flags, f.id ≠ saved.id ∧ f.challengeId = current.challengeId) :
    (promises crates).Guarantee held t t' := by
  have hmem : ∀ f, f ∈ t'.flags ↔ f = saved ∨ f ∈ t.flags ∧ f.id ≠ saved.id := by
    intro f
    rw [hflags, mem_update]
    constructor
    · rintro ⟨f₀, hf₀, ⟨-, rfl⟩ | ⟨hne, rfl⟩⟩
      · exact .inl rfl
      · exact .inr ⟨hf₀, of_decide_eq_false hne⟩
    · rintro (rfl | ⟨hf, hne⟩)
      · exact ⟨current, hcurrent, .inl ⟨decide_eq_true hid, rfl⟩⟩
      · exact ⟨f, hf, .inr ⟨decide_eq_false hne, rfl⟩⟩
  have hne : ∀ f ∈ t.flags, f ≠ current → f.id ≠ saved.id := fun f hf hne heq =>
    hne (ht.flag_unique hf hcurrent (heq.trans hid.symm))
  have hids : t'.flags.map (fun flag => flag.id) = t.flags.map fun flag => flag.id := by
    rw [hflags, update, List.map_map]
    refine List.map_congr_left fun f _ => ?_
    rcases updateRow_cases (fun f : SavedFlag crates => decide (f.id = saved.id))
      (fun _ => saved) f with ⟨-, heq⟩ | ⟨hp, heq⟩
    · rw [Function.comp_apply, heq]
    · rw [Function.comp_apply, heq]
      exact (of_decide_eq_true hp).symm
  have hsaved : ∀ f ∈ t.flags, f.id ≠ saved.id → f.flagType = "generated" →
      saved.flagType = "generated" → f.challengeId ≠ saved.challengeId := by
    intro f hf hne htype hgenerated hchallenge
    simp only [generatedUnique, Bool.not_eq_true', Bool.and_eq_false_iff,
      decide_eq_false_iff_not, List.any_eq_false] at hunique
    rcases hunique with h | h
    · exact h hgenerated
    · exact h f (List.mem_filter.mpr ⟨hf, decide_eq_true hne⟩) (by simp [htype, hchallenge])
  refine guarantee_of ⟨hchallenges ▸ ht.challengeIds, hids ▸ ht.flagIds, ?_, ?_, ?_, ?_, ?_⟩
    ?_ ?_ ?_
  · intro f hf
    rw [hchallenges]
    rcases (hmem f).mp hf with rfl | ⟨hf, -⟩
    · obtain ⟨c, hc, heq, -⟩ := hplaced
      exact ⟨c, hc, heq⟩
    · exact ht.placed f hf
  · intro c hc
    obtain ⟨f, hf, heq⟩ := ht.retained c (hchallenges ▸ hc)
    by_cases hf' : f = current
    · subst hf'
      rcases hother with hsame | ⟨g, hg, hgne, hplace⟩
      · exact ⟨saved, (hmem saved).mpr (.inl rfl), hsame.trans heq⟩
      · exact ⟨g, (hmem g).mpr (.inr ⟨hg, hgne⟩), hplace.trans heq⟩
    · exact ⟨f, (hmem f).mpr (.inr ⟨hf, hne f hf hf'⟩), heq⟩
  · intro f hf f' hf' htype htype' hchallenge
    rcases (hmem f).mp hf with rfl | ⟨hf, hfne⟩
    · rcases (hmem f').mp hf' with rfl | ⟨hf', hfne'⟩
      · rfl
      · exact absurd hchallenge.symm (hsaved f' hf' hfne' htype' htype)
    · rcases (hmem f').mp hf' with rfl | ⟨hf', -⟩
      · exact absurd hchallenge (hsaved f hf hfne htype htype')
      · exact ht.single f hf f' hf' htype htype' hchallenge
  · intro f hf htype c hc heq
    rw [hchallenges] at hc
    rcases (hmem f).mp hf with rfl | ⟨hf, -⟩
    · obtain ⟨c', hc', heq', hprivate⟩ := hplaced
      obtain rfl := ht.challenge_unique hc hc' (heq.trans heq'.symm)
      exact hprivate htype
    · exact ht.secret f hf htype c hc heq
  · intro row hrow
    rw [hrows] at hrow
    obtain ⟨f, hf, hfid, hrest⟩ := ht.allocated row hrow
    refine ⟨f, (hmem f).mpr (.inr ⟨hf, hne f hf ?_⟩), hfid, hrest⟩
    rintro rfl
    exact hunused (.inl (FlagTables.assigned_iff.mpr ⟨row, hrow, hfid.symm⟩))
  · intro f hf huse
    refine (hmem f).mpr (.inr ⟨hf, hne f hf ?_⟩)
    rintro rfl
    exact hunused huse
  · intro c hfree
    refine ⟨fun c' hc' _ => hchallenges ▸ hc', ?_, ?_,
      fun ha => active_congr hinstances c ▸ ha, fun row hrow _ => hrows ▸ hrow⟩
    · rintro f hf rfl
      refine (hmem f).mpr (.inr ⟨hf, hne f hf ?_⟩)
      rintro rfl
      exact hfree hlock
    · rintro - f hf rfl
      rcases (hmem f).mp hf with rfl | ⟨hf, -⟩
      · exact absurd hlock' hfree
      · exact hf
  · intro q n _ hfresh
    cases q with
    | challenges => exact fun c hc => hfresh c (hchallenges ▸ hc)
    | flags =>
        intro f hf
        rcases (hmem f).mp hf with rfl | ⟨hf, -⟩
        · exact hid ▸ hfresh current hcurrent
        · exact hfresh f hf

/-- A user is given a value of a flag and an instance of its challenge. -/
theorem guarantee_launch (ht : Integrity t) {c : ℤ} {given : List UserChallengeFlag}
    {started : List InstanceRow} (hchallenges : t'.challenges = t.challenges)
    (hflags : t'.flags = t.flags)
    (hrows : t'.userChallengeFlags = given ++ t.userChallengeFlags)
    (hinstances : t'.runtimeInstances = t.runtimeInstances ++ started)
    (hlock : .lock (.challengeFlag c) ∈ held)
    (hgiven : ∀ row ∈ given, row.challengeId = c ∧ ∃ flag ∈ t.flags, flag.id = row.flagId ∧
      flag.challengeId = row.challengeId ∧ flag.revision = row.definitionRevision)
    (hstarted : ∀ row ∈ started, row.challengeId = c) :
    (promises crates).Guarantee held t t' := by
  refine guarantee_of ⟨hchallenges ▸ ht.challengeIds, hflags ▸ ht.flagIds, ?_, ?_,
    hflags ▸ ht.single, ?_, ?_⟩ (fun f hf _ => hflags ▸ hf) ?_ ?_
  · rw [hflags, hchallenges]
    exact ht.placed
  · rw [hflags, hchallenges]
    exact ht.retained
  · rw [hflags, hchallenges]
    exact ht.secret
  · intro row hrow
    rw [hflags]
    rw [hrows] at hrow
    rcases List.mem_append.mp hrow with hrow | hrow
    · exact (hgiven row hrow).2
    · exact ht.allocated row hrow
  · intro c' hfree
    have hne : c ≠ c' := by
      rintro rfl
      exact hfree hlock
    refine ⟨fun _ h _ => hchallenges ▸ h, fun _ h _ => hflags ▸ h, fun _ _ h _ => hflags ▸ h,
      ?_, ?_⟩
    · intro ha
      rw [FlagTables.active, hinstances, List.any_append, Bool.or_eq_true] at ha
      rcases ha with ha | ha
      · exact ha
      · obtain ⟨row, hrow, hactive⟩ := List.any_eq_true.mp ha
        rw [Bool.and_eq_true, decide_eq_true_eq, hstarted row hrow] at hactive
        exact absurd hactive.1 hne
    · intro row hrow heq
      rw [hrows] at hrow
      rcases List.mem_append.mp hrow with hrow | hrow
      · exact absurd ((hgiven row hrow).1.symm.trans heq) hne
      · exact hrow
  · intro q n _ hunused
    cases q with
    | challenges => exact fun c hc => hunused c (hchallenges ▸ hc)
    | flags => exact fun f hf => hunused f (hflags ▸ hf)

/-! ## Statements -/

section Statements

variable {l : Local (FlagTables crates) LockKey Sequence}

@[simp] theorem safe_check {condition : Bool} {error : String}
    {Q : Unit → Local (FlagTables crates) LockKey Sequence → Prop} :
    (check condition error : Transaction crates Unit).Safe (promises crates) l Q ↔
      (condition = true → Q ⟨⟩ l) := by
  rw [check, safe_liftExcept]
  exact ⟨fun h hc => h ⟨⟩ (ensure_eq_ok.mpr hc), fun h _ hok => h (ensure_eq_ok.mp hok)⟩

@[simp] theorem safe_fetchOne {α : Type} {row : FlagTables crates → Option α} {error : String}
    {Q : α → Local (FlagTables crates) LockKey Sequence → Prop} :
    (fetchOne row error).Safe (promises crates) l Q ↔
      ∀ s, l.after (promises crates) s → ∀ a, row (l.pending s) = some a →
        Q a { l with store := s } := by
  simp only [fetchOne, safe_bind, safe_select, safe_liftExcept, required_eq_ok]

@[simp] theorem safe_lock {challengeId : ℤ}
    {Q : Unit → Local (FlagTables crates) LockKey Sequence → Prop} :
    (lockChallengeDefinition challengeId : Transaction crates Unit).Safe (promises crates) l Q ↔
      ∀ s, l.after (promises crates) s →
        Q ⟨⟩ ⟨.lock (.challengeFlag challengeId) :: l.held, l.pending, s⟩ := Iff.rfl

end Statements

/-! ## What stays true -/

/-- What the holder of a lock knows of its challenge later. -/
theorem keep_of_after {l : Local (FlagTables crates) LockKey Sequence} {c : ℤ}
    (h : l.after (promises crates) t) (hlock : .lock (.challengeFlag c) ∈ l.held) :
    KeepChallenge c l.store t := h.2 _ hlock

/-- A number that is drawn stays unused. -/
theorem unused_of_after {l : Local (FlagTables crates) LockKey Sequence} {q : Sequence} {n : ℕ}
    (h : l.after (promises crates) t) (hheld : .number q n ∈ l.held)
    (hunused : Unused q n l.store) : Unused q n t := h.2 _ hheld hunused

namespace KeepChallenge

variable {c : ℤ}

theorem inactive (h : KeepChallenge c t t') (hactive : (! t.active c) = true) :
    t'.active c = false := by
  cases heq : t'.active c with
  | false => rfl
  | true =>
      rw [h.stopped heq] at hactive
      cases hactive

/-- Nobody comes to hold a value of a flag. -/
theorem unassigned (h : KeepChallenge c t t') (ht' : Integrity t') {flag : SavedFlag crates}
    (hflag : flag ∈ t'.flags) (hc : flag.challengeId = c)
    (hassigned : (! t.assigned flag.id) = true) : t'.assigned flag.id = false := by
  cases heq : t'.assigned flag.id with
  | false => rfl
  | true =>
      obtain ⟨row, hrow, hid⟩ := FlagTables.assigned_iff.mp heq
      have hold := h.released row hrow ((ht'.assigned_challenge hflag hrow hid).trans hc)
      rw [FlagTables.assigned_iff.mpr ⟨row, hold, hid⟩] at hassigned
      cases hassigned

end KeepChallenge

/-- A generated flag that is the only one among others is so among fewer. -/
theorem generatedUnique_mono {others others' : List (SavedFlag crates)} {flag : SavedFlag crates}
    (hsub : ∀ f ∈ others', f.challengeId = flag.challengeId → f ∈ others)
    (hunique : generatedUnique others flag = true) : generatedUnique others' flag = true := by
  simp only [generatedUnique, Bool.not_eq_true', Bool.and_eq_false_iff, List.any_eq_false,
    Bool.and_eq_true, decide_eq_true_eq, not_and] at hunique ⊢
  exact hunique.imp id fun hothers f hf hplace => hothers f (hsub f hf hplace) hplace

/-- Among several flags of a challenge there is another one. -/
theorem FlagTables.exists_other {flag : SavedFlag crates}
    (hids : (t.flags.map fun flag => flag.id).Nodup)
    (hcount : 1 < t.flagCount flag.challengeId) :
    ∃ f ∈ t.flags, f.id ≠ flag.id ∧ f.challengeId = flag.challengeId := by
  by_contra hnone
  push Not at hnone
  have hle : t.flagCount flag.challengeId ≤ (t.flags.map fun flag => flag.id).count flag.id := by
    rw [FlagTables.flagCount, List.count, List.countP_map]
    refine List.countP_mono_left fun f hf hc => ?_
    have hid : f.id = flag.id := by
      by_contra hne
      exact hnone f hf hne (of_decide_eq_true hc)
    exact beq_iff_eq.mpr hid
  have := List.nodup_iff_count_le_one.mp hids flag.id
  omega

theorem saveFlag_eq_ok {id challengeId revision : ℤ} {flagType content exposure : String}
    {data : Json} {flag : SavedFlag crates}
    (h : saveFlag crates id challengeId revision flagType content data exposure = .ok flag) :
    flag.id = id ∧ flag.challengeId = challengeId ∧ flag.revision = revision ∧
      (flag.flagType = "generated" → exposure = "private") := by
  unfold saveFlag at h
  split at h
  · rename_i savedType savedContent savedData hnormalized
    cases h
    refine ⟨rfl, rfl, rfl, ?_⟩
    rintro rfl
    exact normalizeDefinition_private hnormalized
  · cases h

/-! ## Requests -/

theorem createFlag_safe (input : FlagInput) :
    (createFlag input).Safe (promises crates) ⟨[], id, t⟩ fun _ l => l.Commits (promises crates) := by
  simp only [createFlag, insertFlag, safe_bind, safe_lock, safe_fetchOne, safe_select, safe_check,
    safe_liftExcept, safe_nextval, safe_change, safe_pure, Function.comp_id, id_eq]
  intro s₁ h₁ s₂ h₂ challenge hchallenge s₃ h₃ hactive flag hflag s₄ n h₄ hn s₅ h₅ hunique s h
  obtain ⟨-, hplace, -, hprivate⟩ := saveFlag_eq_ok hflag
  obtain ⟨hmem, hid⟩ := FlagTables.challenge_eq hchallenge
  have hkeep₃ := keep_of_after (c := input.challengeId) h₃ (by simp)
  have hkeep₄ := keep_of_after (c := input.challengeId) h₄ (by simp)
  have hkeep₅ := keep_of_after (c := input.challengeId) h₅ (by simp)
  have hkeep := keep_of_after (c := input.challengeId) h (by simp)
  have hmem₅ := ((hkeep₃.trans hkeep₄).trans hkeep₅).row challenge hmem hid
  have hunique' := generatedUnique_mono
    (fun f hf hf' => hkeep.noNew ⟨challenge, hmem₅, hid⟩ f hf (hf'.trans hplace)) hunique
  have hnone : ∀ c ∈ ([] : List Challenge), False := fun _ => List.not_mem_nil
  refine guarantee_insert h.1 (List.append_nil _).symm rfl rfl rfl
    ⟨challenge, hkeep.row challenge hmem₅ hid, hid.trans hplace.symm, hprivate⟩ hunique'
    List.nodup_nil (fun c hc => (hnone c hc).elim) (fun c hc => (hnone c hc).elim)
    ⟨n, rfl, unused_of_after h (by simp) (unused_of_after h₅ (by simp) hn), by simp⟩ (.inl ?_)
  simp [hplace]

theorem deleteFlag_safe (flagId : ℤ) :
    (deleteFlag flagId).Safe (promises crates) ⟨[], id, t⟩ fun _ l => l.Commits (promises crates) := by
  simp only [deleteFlag, safe_bind, safe_lock, safe_fetchOne, safe_select, safe_check, safe_change,
    Function.comp_id, id_eq]
  intro s₁ h₁ initial hinitial s₂ h₂ s₃ h₃ current hcurrent hsame s₄ h₄ hassigned s₅ h₅ hcount
    s₆ h₆ hactive s h
  obtain ⟨hmem, rfl⟩ := FlagTables.flag_eq hcurrent
  have hplace : current.challengeId = initial.challengeId := of_decide_eq_true hsame
  have hlock : .lock (.challengeFlag current.challengeId) ∈
      [Hold.lock (ν := Sequence) (LockKey.challengeFlag initial.challengeId)] := by simp [hplace]
  have hkeep₄ := keep_of_after h₄ hlock
  have hkeep₅ := keep_of_after h₅ hlock
  have hkeep₆ := keep_of_after h₆ hlock
  have hkeep := keep_of_after h hlock
  have hmem₄ := hkeep₄.flags current hmem rfl
  have hmem' := ((hkeep₅.trans hkeep₆).trans hkeep).flags current hmem₄ rfl
  obtain ⟨other, hother, hne, hotherPlace⟩ :=
    FlagTables.exists_other h₅.1.flagIds (of_decide_eq_true hcount)
  exact guarantee_drop h.1 hmem' rfl rfl (fun row hrow => List.mem_of_mem_filter hrow) rfl hlock
    ⟨other, (hkeep₆.trans hkeep).flags other hother hotherPlace, hne, hotherPlace⟩
    (((hkeep₅.trans hkeep₆).trans hkeep).unassigned h.1 hmem' rfl hassigned)
    (hkeep.inactive hactive)

theorem deleteChallenge_safe (challengeId : ℤ) :
    (deleteChallenge challengeId).Safe (promises crates) ⟨[], id, t⟩
      fun _ l => l.Commits (promises crates) := by
  simp only [deleteChallenge, safe_bind, safe_lock, safe_fetchOne, safe_select, safe_check,
    safe_change, Function.comp_id, id_eq]
  intro s₁ h₁ s₂ h₂ challenge hchallenge s₃ h₃ hactive hassigned s h
  have hkeep := keep_of_after (c := challengeId) h (by simp)
  refine guarantee_delete h.1 rfl (by simp) (hkeep.inactive hactive) fun row hrow heq => ?_
  simp only [Bool.not_eq_true', List.any_eq_false] at hassigned
  exact hassigned row (hkeep.released row hrow heq) (decide_eq_true heq)

/-- A request goes on from `l` to `l'` and changes nothing but configurations. -/
structure Configured (l l' : Local (FlagTables crates) LockKey Sequence) : Prop where
  held : l'.held = l.held
  rely : (promises crates).Rely l.held l.store l'.store
  same : ∀ s, SameRows (l.pending s) (l'.pending s)

/-- The edit of a challenge has changed nothing but configurations so far, and its exposure
goes with its flags. -/
structure Editing (c : ℤ) (exposure : String) (l : Local (FlagTables crates) LockKey Sequence) :
    Prop where
  lock : .lock (.challengeFlag c) ∈ l.held
  same : ∀ s, SameRows s (l.pending s)
  row : ∃ challenge ∈ l.store.challenges, challenge.id = c
  secret : ∀ f ∈ l.store.flags, f.flagType = "generated" → f.challengeId = c →
    exposure = "private"

section Editing

variable {c : ℤ} {exposure : String} {l l' : Local (FlagTables crates) LockKey Sequence}

theorem SameRows.refl (t : FlagTables crates) : SameRows t t := ⟨rfl, rfl, rfl, rfl⟩

theorem SameRows.trans (h : SameRows t t') (h' : SameRows t' t'') : SameRows t t'' :=
  ⟨h'.challenges.trans h.challenges, h'.flags.trans h.flags,
    h'.userChallengeFlags.trans h.userChallengeFlags,
    h'.runtimeInstances.trans h.runtimeInstances⟩

theorem Configured.refl (l : Local (FlagTables crates) LockKey Sequence) : Configured l l :=
  ⟨rfl, Rely.refl l.held l.store, fun s => SameRows.refl (l.pending s)⟩

/-- Something is read. -/
theorem Configured.read (h : Configured l l') (h' : l'.after (promises crates) t) :
    Configured l { l' with store := t } := by
  obtain ⟨hheld, hrely, hsame⟩ := h
  refine ⟨hheld, hrely.trans ?_, hsame⟩
  rw [← hheld]
  exact h'.2

/-- A configuration is changed. -/
theorem Configured.change (h : Configured l l') {f : FlagTables crates → FlagTables crates}
    (hf : ∀ s, SameRows s (f s)) : Configured l { l' with pending := f ∘ l'.pending } :=
  ⟨h.held, h.rely, fun s => (h.same s).trans (hf (l'.pending s))⟩

theorem Editing.later (hl : Editing c exposure l) (h : Configured l l') :
    Editing c exposure l' := by
  obtain ⟨challenge, hmem, hid⟩ := hl.row
  have hkeep : KeepChallenge c l.store l'.store := h.rely _ hl.lock
  refine ⟨h.held ▸ hl.lock, fun s => (hl.same s).trans (h.same s),
    ⟨challenge, hkeep.row challenge hmem hid, hid⟩, fun f hf htype hplace => ?_⟩
  exact hl.secret f (hkeep.noNew ⟨challenge, hmem, hid⟩ f hf hplace) htype hplace

theorem changeExposure_safe (hl : Editing c exposure l) (exposure' : String) :
    (changeExposure c exposure exposure').Safe (promises crates) l
      fun _ l' => Editing c exposure' l' := by
  have hstart := Configured.refl l
  unfold changeExposure
  split
  · rename_i heq
    subst heq
    exact hl
  · simp only [safe_bind, safe_select, safe_check]
    intro s₁ h₁ hactive
    split
    · rename_i hprivate
      simp only [safe_bind, safe_select, safe_check]
      intro s₂ h₂ hmanaged
      have hl₂ := hl.later ((hstart.read h₁).read h₂)
      exact ⟨hl₂.lock, hl₂.same, hl₂.row, fun _ _ _ _ => hprivate⟩
    · simp only [safe_bind, safe_select, safe_check, safe_change]
      intro s₂ h₂ hgenerated
      have hl₂ := hl.later ((hstart.read h₁).read h₂)
      have hnone : ∀ f ∈ s₂.flags, f.flagType = "generated" → f.challengeId ≠ c := by
        intro f hf htype hplace
        rw [FlagTables.generatedFlags, (hl₂.same s₂).flags, Bool.not_not, List.isEmpty_iff,
          List.filter_eq_nil_iff] at hgenerated
        exact hgenerated f hf (by simp [htype, hplace])
      have hl₃ : Editing c exposure' { l with store := s₂ } :=
        ⟨hl₂.lock, hl₂.same, hl₂.row, fun f hf htype hplace => absurd hplace (hnone f hf htype)⟩
      exact hl₃.later ((Configured.refl _).change fun s => ⟨rfl, rfl, rfl, rfl⟩)

theorem preparePrivateChallengeGate_safe (enable : Bool) :
    (preparePrivateChallengeGate enable).Safe (promises crates) l
      fun _ l' => Configured l l' := by
  simp only [preparePrivateChallengeGate, safe_bind, safe_select]
  intro s h
  have hread := (Configured.refl l).read h
  split
  · exact hread
  · exact hread.change fun s => ⟨rfl, rfl, rfl, rfl⟩

theorem enableGate_safe (enable : Bool) :
    (enableGate enable).Safe (promises crates) l fun _ l' => Configured l l' := by
  unfold enableGate
  split
  · exact safe_bind.mpr (preparePrivateChallengeGate_safe true)
  · exact Configured.refl l

theorem checkLaunchable_safe (state : String) :
    (checkLaunchable c exposure state).Safe (promises crates) l fun _ l' => Configured l l' := by
  unfold checkLaunchable
  split
  · simp only [safe_bind, safe_select, safe_check]
    exact fun s h _ => (Configured.refl l).read h
  · exact Configured.refl l

theorem checkGate_safe (state : String) (runtime : Option RuntimeInput) :
    (checkGate state runtime).Safe (promises crates) l fun _ l' => Configured l l' := by
  cases runtime with
  | none => exact Configured.refl l
  | some runtime =>
      simp only [checkGate, safe_bind, safe_check]
      exact fun _ => (preparePrivateChallengeGate_safe runtime.enableGlobalGate).mono
        fun _ l' h _ => h

theorem insertRuntimeConfig_safe (challengeId : ℤ) (runtime : Option RuntimeInput) :
    (insertRuntimeConfig challengeId runtime).Safe (promises crates) l
      fun _ l' => Configured l l' := by
  cases runtime with
  | none => exact Configured.refl l
  | some runtime =>
      simp only [insertRuntimeConfig, safe_bind, safe_liftExcept, safe_change]
      exact fun config _ => (Configured.refl l).change fun s => ⟨rfl, rfl, rfl, rfl⟩

end Editing

theorem updateChallenge_safe (challengeId : ℤ) (patch : ChallengePatch) :
    (updateChallenge challengeId patch).Safe (promises crates) ⟨[], id, t⟩
      fun _ l => l.Commits (promises crates) := by
  simp only [updateChallenge, safe_bind, safe_lock, safe_fetchOne, safe_check, safe_change,
    safe_liftExcept, id_eq]
  intro s₁ h₁ s₂ h₂ challenge hchallenge hexposure enable henable
  obtain ⟨hmem, hid⟩ := FlagTables.challenge_eq hchallenge
  have hl : Editing challengeId challenge.exposure
      (⟨[.lock (.challengeFlag challengeId)], id, s₂⟩ : Local (FlagTables crates) _ _) :=
    ⟨List.mem_singleton_self _, fun s => ⟨rfl, rfl, rfl, rfl⟩, ⟨challenge, hmem, hid⟩,
      fun f hf htype hplace => h₂.1.secret f hf htype challenge hmem (hid.trans hplace.symm)⟩
  refine (changeExposure_safe hl _).mono fun _ l₃ hl₃ hstate => ?_
  refine (enableGate_safe enable).mono fun _ l₄ hl₄ => ?_
  refine (checkLaunchable_safe _).mono fun _ l₅ hl₅ s h => ?_
  have hlast := (hl₃.later hl₄).later hl₅
  obtain ⟨hchallenges, hflags, hrows, hinstances⟩ := hlast.same s
  exact guarantee_edit h.1 (congrArg _ hchallenges) hflags hrows hinstances hlast.lock
    (hlast.later ((Configured.refl l₅).read h)).secret

/-! ## Edits of flags -/

/-- A saved flag is its row. -/
theorem savedFlag_ext {flag flag' : SavedFlag crates}
    (h : flag.toStoredFlag = flag'.toStoredFlag) : flag = flag' := by
  cases flag
  cases flag'
  cases h
  rfl

/-- Saved options are what they are read as. -/
theorem SavedFlag.data_eq (flag : SavedFlag crates) :
    ∃ policy, flag.data = FlagPolicyData.toValue policy := by
  obtain ⟨type, text, options, exposure, h⟩ := flag.normalized
  simp only [normalizeDefinition, bind_eq_ok, pure, Except.pure, Except.ok.injEq,
    Prod.mk.injEq] at h
  obtain ⟨_, -, _, -, policy, -, _, -, -, -, hdata⟩ := h
  exact ⟨policy, hdata.symm⟩

/-- A definition that has not changed is the one that was there. -/
theorem eq_of_unchanged {current flag : SavedFlag crates}
    (h : definitionChanged current.toStoredFlag flag.toStoredFlag = false)
    (hid : flag.id = current.id) (hrevision : flag.revision = current.revision) :
    flag = current := by
  obtain ⟨policy, hpolicy⟩ := SavedFlag.data_eq flag
  obtain ⟨policy', hpolicy'⟩ := SavedFlag.data_eq current
  simp only [definitionChanged, Bool.or_eq_false_iff, decide_eq_false_iff_not, ne_eq,
    not_not] at h
  obtain ⟨⟨⟨hplace, htype⟩, hcontent⟩, hdata⟩ := h
  rw [hpolicy, hpolicy', FlagPolicyData.fromValue_toValue,
    FlagPolicyData.fromValue_toValue] at hdata
  refine savedFlag_ext ?_
  obtain ⟨⟨_, _, _, _, _, _⟩, _⟩ := flag
  obtain ⟨⟨_, _, _, _, _, _⟩, _⟩ := current
  cases hdata
  subst hid hrevision hplace htype hcontent hpolicy hpolicy'
  rfl

/-- The challenge a definition leaves keeps another one. -/
def Kept (current : SavedFlag crates) (target : ℤ) (t : FlagTables crates) : Prop :=
  target = current.challengeId ∨
    ∃ f ∈ t.flags, f.id ≠ current.id ∧ f.challengeId = current.challengeId

/-- A definition that is not in use, and whose challenge keeps another one if it moves. -/
structure Movable (current : SavedFlag crates) (target : ℤ) (t : FlagTables crates) : Prop where
  unassigned : t.assigned current.id = false
  inactive : t.active current.challengeId = false
  kept : Kept current target t

section Movable

variable {current : SavedFlag crates} {target : ℤ}

theorem Kept.later (h : Kept current target t) (hkeep : KeepChallenge current.challengeId t t') :
    Kept current target t' :=
  h.imp id fun ⟨f, hf, hne, hplace⟩ => ⟨f, hkeep.flags f hf hplace, hne, hplace⟩

theorem Movable.later (h : Movable current target t)
    (hkeep : KeepChallenge current.challengeId t t') (ht' : Integrity t')
    (hmem : current ∈ t'.flags) : Movable current target t' := by
  refine ⟨hkeep.unassigned ht' hmem rfl ?_, hkeep.inactive ?_, h.kept.later hkeep⟩
  · rw [h.unassigned]
    rfl
  · rw [h.inactive]
    rfl

theorem Movable.unused (h : Movable current target t) : ¬ InUse t current := by
  rintro (hassigned | hactive)
  · rw [h.unassigned] at hassigned
    cases hassigned
  · rw [h.inactive] at hactive
    cases hactive

end Movable

theorem mem_lockedIds (a b : ℤ) : a ∈ lockedIds a b ∧ b ∈ lockedIds a b := by
  unfold lockedIds
  split
  · rename_i heq
    exact ⟨List.mem_singleton_self a, heq ▸ List.mem_singleton_self a⟩
  · simp only [List.mem_insertionSort]
    exact ⟨List.mem_cons_self, List.mem_cons_of_mem a (List.mem_singleton_self b)⟩

section Edits

variable {l : Local (FlagTables crates) LockKey Sequence}

/-- Whoever has waited for several locks holds them all. -/
theorem lockChallengeDefinitions_safe (ids : List ℤ) :
    (lockChallengeDefinitions ids).Safe (promises crates) l fun _ l' =>
      l'.pending = l.pending ∧ (∀ h ∈ l.held, h ∈ l'.held) ∧
        ∀ c ∈ ids, .lock (.challengeFlag c) ∈ l'.held := by
  induction ids generalizing l with
  | nil => exact ⟨rfl, fun _ h => h, nofun⟩
  | cons c ids ih =>
      simp only [lockChallengeDefinitions, safe_bind, safe_lock]
      intro s h
      refine ih.mono fun _ l' hl' => ?_
      obtain ⟨hpending, hheld, hids⟩ := hl'
      refine ⟨hpending, fun k hk => hheld k (List.mem_cons_of_mem _ hk), ?_⟩
      exact List.forall_mem_cons.mpr ⟨hheld _ List.mem_cons_self, hids⟩

theorem checkSource_safe {current : SavedFlag crates} {flag : StoredFlag}
    (hinv : Integrity l.store) (hpending : l.pending = id) :
    (checkSource current.toStoredFlag flag).Safe (promises crates) l fun _ l' =>
      ∃ s, l.after (promises crates) s ∧ l' = { l with store := s } ∧
        Kept current flag.challengeId s := by
  unfold checkSource
  split
  · rename_i heq
    exact ⟨l.store, Local.after_self hinv, rfl, .inl heq⟩
  · simp only [safe_bind, safe_select, safe_check, hpending, id_eq]
    intro s h hcount
    exact ⟨s, h, rfl, .inr (FlagTables.exists_other h.1.flagIds (of_decide_eq_true hcount))⟩

theorem checkTarget_safe {current flag : StoredFlag} (hinv : Integrity l.store) :
    (checkTarget current flag : Transaction crates Unit).Safe (promises crates) l fun _ l' =>
      ∃ s, l.after (promises crates) s ∧ l' = { l with store := s } := by
  unfold checkTarget
  split
  · exact ⟨l.store, Local.after_self hinv, rfl⟩
  · simp only [safe_bind, safe_select, safe_check]
    exact fun s h _ => ⟨s, h, rfl⟩

/-- What an edit has checked of a definition that changes. -/
theorem checkChange_safe {current : SavedFlag crates} {flag : StoredFlag} {changed : Bool}
    (hinv : Integrity l.store) (hpending : l.pending = id)
    (hlock : .lock (.challengeFlag current.challengeId) ∈ l.held)
    (hmem : current ∈ l.store.flags) :
    (checkChange changed current.toStoredFlag flag).Safe (promises crates) l fun _ l' =>
      ∃ s, l.after (promises crates) s ∧ l' = { l with store := s } ∧
        (changed = true → Movable current flag.challengeId s) := by
  unfold checkChange
  split
  · simp only [safe_bind]
    refine (checkSource_safe hinv hpending).mono ?_
    rintro - - ⟨s₁, h₁, rfl, hkept⟩
    simp only [safe_select, safe_check, hpending, id_eq]
    intro s₂ h₂ hassigned s₃ h₃ hactive
    refine (checkTarget_safe (l := ⟨l.held, id, s₃⟩) h₃.1).mono ?_
    rintro - - ⟨s₄, h₄, rfl⟩
    have hkeep₂ := keep_of_after h₂ hlock
    have hkeep₃ := keep_of_after h₃ hlock
    have hkeep₄ := keep_of_after h₄ hlock
    have hafter : l.after (promises crates) s₄ := ((h₁.trans h₂).trans h₃).trans h₄
    have hmem₄ := (keep_of_after hafter hlock).flags current hmem rfl
    refine ⟨s₄, hafter, rfl, fun _ => ⟨?_, hkeep₄.inactive hactive, ?_⟩⟩
    · exact (hkeep₃.trans hkeep₄).unassigned h₄.1 hmem₄ rfl hassigned
    · exact hkept.later ((hkeep₂.trans hkeep₃).trans hkeep₄)
  · rename_i hchanged
    exact ⟨l.store, Local.after_self hinv, rfl, fun h => absurd h hchanged⟩

end Edits

theorem updateFlag_safe (flagId : ℤ) (patch : FlagPatch) :
    (updateFlag flagId patch).Safe (promises crates) ⟨[], id, t⟩
      fun _ l => l.Commits (promises crates) := by
  simp only [updateFlag, safe_bind, safe_fetchOne, id_eq]
  intro s₁ h₁ initial hinitial
  refine (lockChallengeDefinitions_safe _).mono ?_
  rintro - ⟨held, pending, s₂⟩ ⟨rfl, -, hlocks⟩
  have hboth := mem_lockedIds initial.challengeId (patch.challengeId.getD initial.challengeId)
  simp only [safe_select, safe_check, safe_liftExcept, safe_change, safe_pure, id_eq]
  intro s₃ h₃ current hcurrent hsame s₄ h₄ challenge hchallenge flag hflag
  obtain ⟨hmem, rfl⟩ := FlagTables.flag_eq hcurrent
  have hplace : current.challengeId = initial.challengeId := of_decide_eq_true hsame
  rw [hplace] at hchallenge hflag
  obtain ⟨hflagId, hflagPlace, hrevision, hprivate⟩ := saveFlag_eq_ok hflag
  obtain ⟨hchallengeMem, hchallengeId⟩ := FlagTables.challenge_eq hchallenge
  have hlock : .lock (.challengeFlag current.challengeId) ∈ held := hplace ▸ hlocks _ hboth.1
  have hlock' : .lock (.challengeFlag flag.challengeId) ∈ held := hflagPlace ▸ hlocks _ hboth.2
  have hmem₄ := (keep_of_after h₄ hlock).flags current hmem rfl
  refine (checkChange_safe (l := ⟨held, id, s₄⟩) h₄.1 rfl hlock hmem₄).mono ?_
  rintro - - ⟨s₅, h₅, rfl, hmovable⟩
  simp only [id_eq]
  intro s₆ h₆ hunique s h
  set saved : SavedFlag crates := { flag with
    revision := if definitionChanged current.toStoredFlag flag.toStoredFlag then
      current.revision + 1 else current.revision } with hsaved
  have hkeep := (keep_of_after h₆ hlock).trans (keep_of_after h hlock)
  have hmem' := ((keep_of_after h₅ hlock).trans hkeep).flags current hmem₄ rfl
  have hid : current.id = saved.id := hflagId.symm
  cases hchanged : definitionChanged current.toStoredFlag flag.toStoredFlag with
  | false =>
      have heq : saved = current := by
        refine eq_of_unchanged hchanged hflagId ?_
        rw [hsaved, hchanged]
        rfl
      refine guarantee_same h.1 ⟨rfl, ?_, rfl, rfl⟩
      refine update_eq_self fun f hf hp => ?_
      rw [heq]
      exact h.1.flag_unique hmem' hf (of_decide_eq_true hp).symm
  | true =>
      have hmovable := (hmovable hchanged).later hkeep h.1 hmem'
      have hchallengePlace : challenge.id = flag.challengeId :=
        hchallengeId.trans (hplace ▸ hflagPlace.symm)
      have hkeep₆ := (keep_of_after h₅ hlock').trans (keep_of_after h₆ hlock')
      have hmem₆ := hkeep₆.row challenge hchallengeMem hchallengePlace
      have hmem₇ := (keep_of_after h hlock').row challenge hmem₆ hchallengePlace
      have hunique' : generatedUnique (s.flags.filter (·.id ≠ saved.id)) saved = true := by
        refine generatedUnique_mono (fun f hf hfp => ?_) hunique
        obtain ⟨hf, hne⟩ := List.mem_filter.mp hf
        rw [hid]
        exact List.mem_filter.mpr
          ⟨(keep_of_after h hlock').noNew ⟨challenge, hmem₆, hchallengePlace⟩ f hf hfp, hne⟩
      have hother : saved.challengeId = current.challengeId ∨
          ∃ f ∈ s.flags, f.id ≠ saved.id ∧ f.challengeId = current.challengeId := by
        rw [← hid]
        exact hmovable.kept
      refine guarantee_replace h.1 hmem' hid rfl ?_ rfl rfl hlock hlock'
        ⟨challenge, hmem₇, hchallengePlace, hprivate⟩ hunique' hmovable.unused hother
      rw [← hid]
      rfl

theorem createChallenge_safe (input : ChallengeInput) :
    (createChallenge input).Safe (promises crates) ⟨[], id, t⟩
      fun _ l => l.Commits (promises crates) := by
  simp only [createChallenge, insertFlag, safe_bind, safe_check, safe_liftExcept, safe_nextval,
    safe_select, safe_change, safe_pure]
  intro hexposure flag hflag _ hruntime hstate
  refine (checkGate_safe _ input.runtime).mono ?_
  rintro - ⟨-, pending, s₁⟩ ⟨rfl, -, hsame⟩
  intro s₂ n h₂ hn s₃ m h₃ hm s₄ h₄ hunique
  refine (insertRuntimeConfig_safe n input.runtime).mono ?_
  rintro - ⟨-, pending', s₅⟩ ⟨rfl, h₅, hsame'⟩ s h
  have hn₄ := unused_of_after h₄ (by simp) (unused_of_after h₃ List.mem_cons_self hn)
  have hn₅ : Unused .challenges n s₅ := h₅ (.number .challenges n) (by simp) hn₄
  have hn' := unused_of_after h (by simp) hn₅
  have hm₅ : Unused .flags m s₅ :=
    h₅ (.number .flags m) (by simp) (unused_of_after h₄ List.mem_cons_self hm)
  have hm' := unused_of_after h (by simp) hm₅
  obtain ⟨-, -, -, hprivate⟩ := saveFlag_eq_ok hflag
  obtain ⟨hchallenges, hflags, hrows, hinstances⟩ := hsame s
  obtain ⟨hchallenges', hflags', hrows', hinstances'⟩ := hsame' s
  have hcreated : (pending' s).challenges =
      s.challenges ++ [⟨n, input.exposure, input.state.getD "visible"⟩] :=
    hchallenges'.trans (congrArg (· ++ _) hchallenges)
  have hadded : (pending' s).flags =
      s.flags ++ [({ flag with challengeId := n, id := m } : SavedFlag crates)] :=
    hflags'.trans (congrArg (· ++ _) hflags)
  have hnone : ∀ f ∈ s.flags, f.challengeId ≠ n := by
    intro f hf heq
    obtain ⟨challenge, hmem, hid⟩ := h.1.placed f hf
    exact hn' challenge hmem (hid.trans heq)
  refine guarantee_insert h.1 hcreated hadded (hrows'.trans hrows) (hinstances'.trans hinstances)
    ?_ ?_ (List.nodup_singleton _) ?_ ?_ ⟨m, rfl, hm', by simp⟩ (.inr hn')
  · rw [hcreated]
    exact ⟨_, List.mem_append_right _ (List.mem_singleton_self _), rfl, hprivate⟩
  · exact generatedUnique_mono (fun f hf heq => absurd heq (hnone f hf)) hunique
  · intro c hc
    rw [List.mem_singleton.mp hc]
  · intro c hc
    rw [List.mem_singleton.mp hc]
    exact ⟨n, rfl, hn', by simp⟩

/-! ## Launches -/

/-- A launch has read, and given the user nothing but a value of a flag of the challenge. -/
structure Launching (c : ℤ) (l : Local (FlagTables crates) LockKey Sequence) : Prop where
  lock : .lock (.challengeFlag c) ∈ l.held
  given : ∃ given : List UserChallengeFlag,
    (∀ s, l.pending s = { s with userChallengeFlags := given ++ s.userChallengeFlags }) ∧
      ∀ row ∈ given, row.challengeId = c ∧ ∃ flag ∈ l.store.flags, flag.id = row.flagId ∧
        flag.challengeId = row.challengeId ∧ flag.revision = row.definitionRevision

section Launching

variable {c : ℤ} {l l' : Local (FlagTables crates) LockKey Sequence}

/-- A statement that reads, and goes on. -/
def Reads (l l' : Local (FlagTables crates) LockKey Sequence) : Prop :=
  ∃ s, (promises crates).Rely l.held l.store s ∧ l' = { l with store := s }

theorem Launching.later (hl : Launching c l) (h : l.after (promises crates) t) :
    Launching c { l with store := t } := by
  have hkeep := keep_of_after h hl.lock
  obtain ⟨given, hpending, hgiven⟩ := hl.given
  refine ⟨hl.lock, given, hpending, fun row hrow => ?_⟩
  obtain ⟨hplace, flag, hflag, hid, hflagPlace, hrevision⟩ := hgiven row hrow
  exact ⟨hplace, flag, hkeep.flags flag hflag (hflagPlace.trans hplace), hid, hflagPlace,
    hrevision⟩

theorem nextAvailableLeetMask_safe (flag : StoredFlag) :
    (nextAvailableLeetMask flag : Transaction crates ℕ).Safe (promises crates) l
      fun _ l' => Reads l l' := by
  simp only [nextAvailableLeetMask, safe_bind, safe_select, safe_check, safe_fetchOne]
  exact fun s₁ h₁ _ s₂ h₂ _ _ => ⟨s₂, h₁.2.trans h₂.2, rfl⟩

theorem drawLeetMask_safe (flag : StoredFlag) (policy : FlagPolicyData) (hasToken : Bool)
    (draws : Draws) :
    (drawLeetMask flag policy hasToken draws : Transaction crates (Option ℕ)).Safe
      (promises crates) l fun _ l' => Reads l l' := by
  unfold drawLeetMask
  split
  · exact safe_bind.mpr (nextAvailableLeetMask_safe flag)
  · split
    · exact ⟨l.store, Rely.refl l.held l.store, rfl⟩
    · exact ⟨l.store, Rely.refl l.held l.store, rfl⟩

theorem materializeFlag_safe (request : LaunchRequest) {flag : SavedFlag crates}
    (hlock : .lock (.challengeFlag request.challengeId) ∈ l.held) (hpending : l.pending = id)
    (hflag : flag ∈ l.store.flags) (hplace : flag.challengeId = request.challengeId) :
    (materializeFlag request flag.toStoredFlag).Safe (promises crates) l
      fun _ l' => Launching request.challengeId l' := by
  obtain ⟨held, pending, store⟩ := l
  obtain rfl : pending = id := hpending
  have hnothing : ∀ {held' : List (Hold LockKey Sequence)} {s : FlagTables crates},
      .lock (.challengeFlag request.challengeId) ∈ held' →
      Launching request.challengeId ⟨held', id, s⟩ :=
    fun h => ⟨h, [], fun _ => rfl, nofun⟩
  simp only [materializeFlag, safe_bind, safe_select, safe_acquire]
  intro s₁ h₁ s₂ h₂
  split
  · simp only [safe_bind, safe_check, safe_pure]
    exact fun _ => hnothing (List.mem_cons_of_mem _ hlock)
  · simp only [safe_bind, safe_liftExcept]
    intro policy hpolicy
    refine (drawLeetMask_safe _ _ _ _).mono ?_
    rintro mask - ⟨s₃, h₃, rfl⟩
    simp only [insertUserChallengeFlag, safe_bind, safe_select, safe_check, safe_change, safe_pure]
    intro s₄ h₄ htaken
    have hlock' := List.mem_cons_of_mem (.lock (.generatedFlag flag.id)) hlock
    have hkeep : KeepChallenge request.challengeId store s₄ :=
      (((keep_of_after h₁ hlock).trans (keep_of_after h₂ hlock')).trans (h₃ _ hlock')).trans
        (keep_of_after h₄ hlock')
    refine ⟨hlock', [_], fun s => rfl, ?_⟩
    intro row hrow
    rw [List.mem_singleton.mp hrow]
    exact ⟨rfl, flag, hkeep.flags flag hflag hplace, rfl, hplace, rfl⟩

theorem materializeForLaunch_safe (request : LaunchRequest)
    (hlock : .lock (.challengeFlag request.challengeId) ∈ l.held) (hpending : l.pending = id) :
    (materializeForLaunch request : Transaction crates _).Safe (promises crates) l
      fun _ l' => Launching request.challengeId l' := by
  obtain ⟨held, pending, store⟩ := l
  obtain rfl : pending = id := hpending
  have hlock' := List.mem_cons_of_mem (.lock (.challengeFlag request.challengeId)) hlock
  simp only [materializeForLaunch, safe_bind, safe_lock, safe_select]
  intro s₁ h₁ s₂ h₂
  split
  · exact ⟨hlock', [], fun _ => rfl, fun row hrow => absurd hrow List.not_mem_nil⟩
  · rename_i flag hflag
    have hmem := List.mem_filter.mp (List.argmin_mem hflag)
    rw [Bool.and_eq_true, decide_eq_true_eq] at hmem
    refine safe_bind.mpr ((materializeFlag_safe request hlock' rfl hmem.1 hmem.2.1).mono ?_)
    exact fun _ _ h => h

theorem ensureInstance_safe (request : LaunchRequest) :
    (ensureInstance request).Safe (promises crates) ⟨[], id, t⟩
      fun _ l => l.Commits (promises crates) := by
  simp only [ensureInstance, safe_bind, safe_fetchOne, safe_liftExcept, safe_lock, safe_select]
  intro s₁ h₁ gate hgate runtime haccess s₂ h₂ s₃ h₃ gate' hgate' runtime' haccess' _ hlifetime
    s₄ h₄
  split
  · simp only [safe_bind, safe_check, safe_pure]
    exact fun _ s h => guarantee_same h.1 (SameRows.refl s)
  · simp only [safe_bind]
    refine (materializeForLaunch_safe request (List.mem_singleton_self _) rfl).mono ?_
    intro flagValue l hl
    simp only [insertInstance, safe_bind, safe_select, safe_check, safe_change, safe_pure]
    intro s₅ h₅ htaken s h
    have hlast := (hl.later h₅).later ⟨h.1, h.2⟩
    obtain ⟨given, hpending, hgiven⟩ := hlast.given
    have hafter : l.pending s = { s with userChallengeFlags := given ++ s.userChallengeFlags } :=
      hpending s
    have hchallenges : (l.pending s).challenges = s.challenges := by rw [hafter]
    have hflags : (l.pending s).flags = s.flags := by rw [hafter]
    have hrows : (l.pending s).userChallengeFlags = given ++ s.userChallengeFlags := by rw [hafter]
    have hinstances : (l.pending s).runtimeInstances = s.runtimeInstances := by rw [hafter]
    refine guarantee_launch h.1 hchallenges hflags hrows (congrArg (· ++ [_]) hinstances)
      hl.lock hgiven ?_
    intro row hrow
    rw [List.mem_singleton.mp hrow]

end Launching

/-! ## What holds in every run -/

/-- Every request keeps its promises by itself. -/
theorem request_safe (request : Request) :
    request.program.Safe (promises crates) ⟨[], id, t⟩ fun _ l => l.Commits (promises crates) := by
  cases request with
  | createChallenge input => exact safe_bind.mpr (createChallenge_safe input)
  | updateChallenge challengeId patch => exact updateChallenge_safe challengeId patch
  | deleteChallenge challengeId => exact deleteChallenge_safe challengeId
  | createFlag input => exact safe_bind.mpr (createFlag_safe input)
  | updateFlag flagId patch => exact safe_bind.mpr (updateFlag_safe flagId patch)
  | deleteFlag flagId => exact deleteFlag_safe flagId
  | ensureInstance request => exact safe_bind.mpr (ensureInstance_safe request)

/-- So does everything else that happens. -/
theorem event_guarantee (event : Event) (ht : Integrity t) :
    (promises crates).Guarantee [] t (event.apply t) := by
  cases event with
  | configure runtimeConfigs gateEnabled => exact guarantee_same ht ⟨rfl, rfl, rfl, rfl⟩
  | clearAllocations =>
      exact guarantee_release ht rfl rfl (fun row hrow => absurd hrow List.not_mem_nil) fun _ h => h
  | stop i =>
      refine guarantee_release ht rfl rfl (fun _ hrow => hrow) fun c hactive => ?_
      obtain ⟨row, hrow, hrunning⟩ := List.any_eq_true.mp hactive
      rw [Bool.and_eq_true, decide_eq_true_eq] at hrunning
      obtain ⟨j, hj⟩ := List.mem_iff_getElem?.mp hrow
      rw [Event.apply, List.getElem?_modify] at hj
      obtain ⟨row₀, hrow₀, heq⟩ := Option.map_eq_some_iff.mp hj
      split at heq
      · subst heq
        cases hrunning.2
      · obtain rfl : row₀ = row := heq
        refine List.any_eq_true.mpr ⟨row₀, List.mem_iff_getElem?.mpr ⟨j, hrow₀⟩, ?_⟩
        rw [Bool.and_eq_true, decide_eq_true_eq]
        exact hrunning

theorem initial_sound {s : Portal crates} (h : Initial s) : (promises crates).Sound s := by
  obtain ⟨hchallenges, hflags, hrows, -, hrunning⟩ := h
  have hinv : Integrity s.store := by
    constructor <;> simp [hchallenges, hflags, hrows]
  have hnothing : ∀ i a, Slots.at' id s.running i ≠ some a := by
    intro i a ha
    rw [hrunning, Slots.at'] at ha
    cases ha
  refine ⟨hinv, ?_, fun i a ha => absurd ha (hnothing i a), fun i a ha => absurd ha (hnothing i a),
    fun i j a b _ ha => absurd ha (hnothing i a)⟩
  intro q n _
  cases q with
  | challenges =>
      intro challenge hmem
      rw [hchallenges] at hmem
      cases hmem
  | flags =>
      intro flag hmem
      rw [hflags] at hmem
      cases hmem

/-- The promises are kept in every run. -/
theorem portal_sound {s : Portal crates} (h : Reach portalStep anyStep Initial s) :
    (promises crates).Sound s :=
  Protocol.invariant (fun request _ _ => request_safe request)
    (fun event _ ht => event_guarantee event ht) (fun _ hinit => initial_sound hinit) h

/-- The flags of the challenges as an administrator sees them: every challenge has one, at
most one is generated, generated ones belong to private challenges, and each would be
accepted again as it is. -/
structure Defined (t : FlagTables crates) : Prop where
  retained : ∀ challenge ∈ t.challenges, 1 ≤ t.flagCount challenge.id
  single : ∀ challenge ∈ t.challenges, (t.generatedFlags challenge.id).length ≤ 1
  secret : ∀ flag ∈ t.flags, flag.flagType = "generated" →
    ∃ challenge, t.challenge flag.challengeId = some challenge ∧ challenge.exposure = "private"
  accepted : ∀ flag ∈ t.flags, ∃ challenge, t.challenge flag.challengeId = some challenge ∧
    normalizeDefinition crates flag.flagType flag.content flag.data challenge.exposure =
      .ok (flag.flagType, flag.content, flag.data)

theorem Integrity.defined (h : Integrity t) : Defined t := by
  have hplaced : ∀ flag ∈ t.flags, ∃ challenge, t.challenge flag.challengeId = some challenge ∧
      (flag.flagType = "generated" → challenge.exposure = "private") := by
    intro flag hflag
    obtain ⟨challenge, hmem, hid⟩ := h.placed flag hflag
    cases hfind : t.challenge flag.challengeId with
    | none =>
        rw [FlagTables.challenge, List.find?_eq_none] at hfind
        exact absurd (decide_eq_true hid) (hfind challenge hmem)
    | some found =>
        obtain ⟨hfound, hfoundId⟩ := FlagTables.challenge_eq hfind
        exact ⟨found, rfl, fun htype => h.secret flag hflag htype found hfound hfoundId⟩
  refine ⟨?_, ?_, ?_, ?_⟩
  · intro challenge hmem
    obtain ⟨flag, hflag, hplace⟩ := h.retained challenge hmem
    exact List.countP_pos_iff.mpr ⟨flag, hflag, decide_eq_true hplace⟩
  · intro challenge hmem
    have hnodup : (t.generatedFlags challenge.id).Nodup := h.flagIds.of_map.filter _
    have hmem : ∀ flag ∈ t.generatedFlags challenge.id,
        flag ∈ t.flags ∧ flag.challengeId = challenge.id ∧ flag.flagType = "generated" := by
      intro flag hflag
      simpa [FlagTables.generatedFlags] using hflag
    rcases hlist : t.generatedFlags challenge.id with _ | ⟨first, _ | ⟨second, rest⟩⟩
    · exact Nat.zero_le 1
    · exact Nat.le_refl 1
    · rw [hlist] at hnodup hmem
      obtain ⟨hfirst, hplace, htype⟩ := hmem first List.mem_cons_self
      obtain ⟨hsecond, hplace', htype'⟩ := hmem second (List.mem_cons_of_mem _ List.mem_cons_self)
      have heq := h.single first hfirst second hsecond htype htype' (hplace.trans hplace'.symm)
      exact absurd (heq ▸ List.mem_cons_self) (List.nodup_cons.mp hnodup).1
  · intro flag hflag htype
    obtain ⟨challenge, hfind, hprivate⟩ := hplaced flag hflag
    exact ⟨challenge, hfind, hprivate htype⟩
  · intro flag hflag
    obtain ⟨challenge, hfind, hprivate⟩ := hplaced flag hflag
    exact ⟨challenge, hfind, flag.accepted hprivate⟩

/-- **Definitions are kept whole.**  In every state of every run of requests beside each
other, every challenge has a flag and at most one generated flag, generated flags belong
to private challenges, and every definition would be accepted again; and no statement
changes, moves or deletes a definition that a user holds a value of, or whose challenge
has an active instance. -/
theorem flag_definition_integrity {s : Portal crates}
    (h : Reach portalStep anyStep Initial s) :
    Defined s.store ∧ ∀ label s', portalStep label s = some s' → Upheld s.store s'.store := by
  refine ⟨(portal_sound h).inv.defined, fun label s' hstep => ?_⟩
  exact Protocol.transition (fun request _ _ => request_safe request)
    (fun event _ ht => event_guarantee event ht) (fun _ hinit => initial_sound hinit) h hstep

/-- The body of a private challenge whose flag has a random token. -/
def privateChallenge : ChallengeInput where
  exposure := "private"
  flagType := "generated"
  content := "f\x7b\x7bRANDOM_TOKEN\x7d\x7d"
  data := .null
  runtime := some {
    runtimeMode := "managed", enabled := true
    imageDigest := some ("web@sha256:" ++ String.ofList (List.replicate 64 'a'))
    protocol := "tcp", containerPort := some 80, defaultTtlSeconds := 1800
    maximumTtlSeconds := 3600, allowExtension := false, maximumExtensions := 0
    cpuLimit := none, memoryLimitBytes := none, pidLimit := none, storageLimitBytes := none
    healthcheck := .object [], remotePool := none, enableGlobalGate := true }
  state := none

/-- The challenge is created; while the user 7 launches an instance of it, an administrator
starts to edit its flag. -/
def launchAndEdit : List (Locking.Label Request Event) :=
  .begin (.createChallenge privateChallenge) :: List.replicate 9 (.advance 0 1) ++
    .begin (.ensureInstance ⟨1, 7, false, none, "key", ⟨0, 0⟩⟩) ::
      .begin (.updateFlag 1 ⟨none, none, some "g\x7b\x7bRANDOM_TOKEN\x7d\x7d", none⟩) ::
        .advance 2 0 :: List.replicate 13 (.advance 1 0) ++ List.replicate 4 (.advance 2 0)

/-- The user has a value of the flag and an active instance, and the flag is as it was. -/
theorem flag_definition_integrity_launch : ∃ s : Portal plainCrates,
    Defined s.store ∧ (∀ label s', portalStep label s = some s' → Upheld s.store s'.store) ∧
      s.store.assigned 1 = true ∧ s.store.active 1 = true ∧
      s.store.flags.map (fun flag => flag.content) = ["f\x7b\x7bRANDOM_TOKEN\x7d\x7d"] := by
  have hrun : ((run portalStep launchAndEdit
      (⟨⟨[], [], [], [], [], false⟩, fun _ => 1, []⟩ : Portal plainCrates)).any fun s =>
        s.store.assigned 1 && s.store.active 1 &&
          decide (s.store.flags.map (fun flag => flag.content) =
            ["f\x7b\x7bRANDOM_TOKEN\x7d\x7d"])) = true := by
    decide +kernel
  obtain ⟨s, hs, hfacts⟩ := (Option.any_eq_true _ _).mp hrun
  rw [Bool.and_eq_true, Bool.and_eq_true, decide_eq_true_eq] at hfacts
  obtain ⟨hdefined, hupheld⟩ :=
    flag_definition_integrity (reach_of_run _ ⟨rfl, rfl, rfl, rfl, rfl⟩ hs)
  exact ⟨s, hdefined, hupheld, hfacts.1.1, hfacts.1.2, hfacts.2⟩

end CtfZone.FlagDefinitions
