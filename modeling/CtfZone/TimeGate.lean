/-
# The gate of the competition time

What participants are let through at an instant (`ctf_time_access`), for a competition whose
start and end are configured or not; an instant is a whole second, as the gate reads the clock.

* `NotStarted`, `Running`, `Ended` : the phases of a competition;
* `ctfTimeAccess_plain` : without `view_after_ctf` the gate is open while it runs;
* `ctfTimeAccess_viewing` : with it the gate is open from the start on, but for one second;
* `gate_consistent_iff` : the instants at which the gate is consistent.
-/
import CtfZone.ChallengeAccess

namespace CtfZone.Challenges

open Contests

variable {start stop now : ℤ}

/-! ## Phases -/

/-- The competition has a start, and it has not passed. -/
def NotStarted (start now : ℤ) : Prop := start ≠ 0 ∧ now ≤ start

/-- The start has passed, and the end has not come. -/
def Running (start stop now : ℤ) : Prop := (start ≠ 0 → start < now) ∧ (stop ≠ 0 → now < stop)

/-- The competition has an end, and it has come. -/
def Ended (stop now : ℤ) : Prop := stop ≠ 0 ∧ stop ≤ now

/-- A competition that starts before it ends is in one phase. -/
theorem phases (h : start ≠ 0 → stop ≠ 0 → start < stop) :
    NotStarted start now ∧ ¬ Running start stop now ∧ ¬ Ended stop now ∨
      ¬ NotStarted start now ∧ Running start stop now ∧ ¬ Ended stop now ∨
        ¬ NotStarted start now ∧ ¬ Running start stop now ∧ Ended stop now := by
  unfold NotStarted Running Ended
  by_cases hstart : start = 0
  · by_cases hstop : stop = 0
    · omega
    · by_cases hover : now < stop
      · omega
      · omega
  · by_cases hbegun : start < now
    · by_cases hstop : stop = 0
      · omega
      · by_cases hover : now < stop
        · omega
        · omega
    · omega

/-! ## Access -/

/-- Without `view_after_ctf` the gate follows the phases. -/
theorem ctfTimeAccess_plain (now start stop : ℤ) :
    ctfTimeAccess now start stop false = .allowed ↔ Running start stop now := by
  unfold ctfTimeAccess Running
  simp only [Bool.and_false, Bool.or_false, Bool.and_eq_true, Bool.or_eq_true, decide_eq_true_eq]
  constructor
  · intro h
    split at h
    · omega
    · split at h
      · cases h
      · cases h
  · intro h
    apply if_pos
    omega

/-- With it the gate opens when the competition has started, and closes for the second in which
it ends. -/
theorem ctfTimeAccess_viewing (h : start ≠ 0 → stop ≠ 0 → start < stop) :
    ctfTimeAccess now start stop true = .allowed ↔
      ¬ NotStarted start now ∧ (stop ≠ 0 → now ≠ stop) := by
  unfold ctfTimeAccess NotStarted
  simp only [Bool.and_true, Bool.and_eq_true, Bool.or_eq_true, decide_eq_true_eq]
  constructor
  · intro haccess
    split at haccess
    · omega
    · split at haccess
      · cases haccess
      · cases haccess
  · intro hstarted
    apply if_pos
    omega

/-- What has started is not refused as what has not. -/
theorem ctfTimeAccess_started {viewAfterCtf : Bool}
    (h : start ≠ 0 → stop ≠ 0 → start < stop) :
    ctfTimeAccess now start stop viewAfterCtf = .notStarted ↔ NotStarted start now := by
  unfold ctfTimeAccess NotStarted
  simp only [Bool.and_eq_true, Bool.or_eq_true, decide_eq_true_eq]
  constructor
  · intro haccess
    split at haccess
    · cases haccess
    · split at haccess
      · omega
      · cases haccess
  · intro hstarted
    rw [if_neg (by omega), if_pos (by omega)]

/-! ## The gate -/

/-- A participant is let through at an instant. -/
def LetThrough (start stop : ℤ) (viewAfterCtf : Bool) (now : ℤ) : Prop :=
  ∀ (config : AccessConfig) (user : Option Viewer), viewerIsAdmin user = false →
    config.schedule = ⟨start, stop, viewAfterCtf⟩ →
      requireCtfTime config (seconds now) user = .ok ⟨⟩

theorem access_seconds (schedule : Schedule) (now : ℤ) : schedule.access (seconds now) =
    ctfTimeAccess now schedule.startTime schedule.endTime schedule.viewAfterCtf := by
  rw [Schedule.access, seconds, Int.mul_ediv_cancel now (by decide)]

theorem letThrough_iff {viewAfterCtf : Bool} : LetThrough start stop viewAfterCtf now ↔
    ctfTimeAccess now start stop viewAfterCtf = .allowed := by
  constructor
  · intro h
    have hopen := h ⟨none, ⟨start, stop, viewAfterCtf⟩, false⟩ none rfl rfl
    rw [requireCtfTime, access_seconds] at hopen
    dsimp only at hopen
    split at hopen
    · rename_i hadmin
      cases hadmin
    · split at hopen
      · assumption
      · cases hopen
      · cases hopen
  · intro h config user hparticipant hschedule
    rw [requireCtfTime, hparticipant, access_seconds, hschedule, h]
    rfl

/-- The gate is consistent at an instant: the competition is in one phase, whoever may view it
afterwards is let through from the start on, everybody else while it runs, and nobody is told
later that it has not started. -/
structure GateConsistent (start stop now : ℤ) : Prop where
  phase : NotStarted start now ∧ ¬ Running start stop now ∧ ¬ Ended stop now ∨
    ¬ NotStarted start now ∧ Running start stop now ∧ ¬ Ended stop now ∨
      ¬ NotStarted start now ∧ ¬ Running start stop now ∧ Ended stop now
  viewing : ¬ NotStarted start now → LetThrough start stop true now
  running : LetThrough start stop false now ↔ Running start stop now
  later : ∀ viewAfterCtf, ctfTimeAccess now start stop viewAfterCtf ≠ .notStarted →
    ∀ t, now ≤ t → ctfTimeAccess t start stop viewAfterCtf ≠ .notStarted

/-- In the second in which the competition ends, it is over, and nobody may view it. -/
theorem gate_closed_at_end : ¬ GateConsistent 1000 2000 2000 := by
  intro h
  have hopen := letThrough_iff.mp (h.viewing (fun hearly => absurd hearly.2 (by decide)))
  exact absurd hopen (by decide)

/-- **The gate is consistent at every instant but the end.** -/
theorem gate_consistent_iff (h : start ≠ 0 → stop ≠ 0 → start < stop) :
    GateConsistent start stop now ↔ (stop ≠ 0 → now ≠ stop) := by
  constructor
  · intro hgate hstop hnow
    have hstarted : ¬ NotStarted start now := by
      rintro ⟨hstart, hle⟩
      have hlt := h hstart hstop
      omega
    have hopen := letThrough_iff.mp (hgate.viewing hstarted)
    exact ((ctfTimeAccess_viewing h).mp hopen).2 hstop hnow
  · intro hend
    constructor
    · exact phases h
    · intro hstarted
      exact letThrough_iff.mpr ((ctfTimeAccess_viewing h).mpr ⟨hstarted, hend⟩)
    · rw [letThrough_iff, ctfTimeAccess_plain]
    · intro viewAfterCtf hstarted t ht
      rw [Ne, ctfTimeAccess_started h] at hstarted ⊢
      rintro ⟨hstart, hle⟩
      exact hstarted ⟨hstart, by omega⟩

/-- Between a start and an end. -/
theorem gate_consistent_running :
    GateConsistent 1000 2000 1500 ↔ ((2000 : ℤ) ≠ 0 → (1500 : ℤ) ≠ 2000) :=
  gate_consistent_iff (fun _ _ => by decide)

end CtfZone.Challenges
