/-
# The structure of teams

Captains are members, members are participants of the team mode, and the limits of the
settings bound what participants do, in every run of the requests beside each other.

* `Structured` : what holds of the tables in every state;
* `Bounded` : what a commit of a participant keeps to;
* `team_structure` : both hold in every run.
-/
import CtfZone.AccountRequests

namespace CtfZone.Accounts

open Locking.Program SharedLocks Tables Runs

variable {lower : String → String} {s : Portal}

/-- Captains are members, administrators are not, and nobody is in the mode of users. -/
structure Structured (t : AccountTables) : Prop where
  captains : ∀ team ∈ t.teams, ∀ id, team.captainId = some id →
    ∃ u ∈ t.users, u.id = id ∧ u.teamId = some team.id
  administrators : ∀ u ∈ t.users, u.userType = .admin → u.teamId = none
  usersMode : t.settings.userMode = .users → ∀ u ∈ t.users, u.teamId = none

theorem Membership.structured {t : AccountTables} (h : Membership t) : Structured t := by
  refine ⟨h.captains, fun u hu htype => ?_, h.mode⟩
  by_contra hne
  exact absurd ((h.participants u hu hne).symm.trans htype) (by decide)

/-- The next statement of the transaction at a place commits with an answer. -/
def Commits (s : Portal) (i : ℕ) (answer : Answer) : Prop :=
  ∃ a, Slots.at' id s.running i = some a ∧ a.program = .done answer

/-- The limits in force bound the team that is joined, and the teams that are counted where
one is created. -/
structure Bounded (s : Portal) (i : ℕ) (s' : Portal) : Prop where
  joined : ∀ teamId, Commits s i (.joined teamId) → 0 < s.store.settings.teamSize →
    (s'.store.memberCount teamId : ℤ) ≤ s.store.settings.teamSize
  created : Commits s i .created → 0 < s.store.settings.numTeams →
    (s'.store.activeTeams : ℤ) ≤ s.store.settings.numTeams

/-- A commit leaves what the transaction has made of the tables. -/
theorem commit_store {i n : ℕ} {answer : Answer} {s' : Portal}
    (hstep : portalStep lower (.advance i n) s = some s')
    {a : InFlight AccountTables LockKey Sequence String Answer}
    (ha : Slots.at' id s.running i = some a) (hdone : a.program = .done answer) :
    s'.store = a.pending s.store := by
  obtain ⟨b, hb, hadvance⟩ := Option.bind_eq_some_iff.mp hstep
  obtain rfl : a = b := Option.some.inj (ha.symm.trans hb)
  rw [SharedLocks.advance, hdone] at hadvance
  cases hadvance
  rfl

/-- **Teams are structured.**  In every state of every run of requests beside each other, a
captain is a member of the team, administrators have no team and nobody has one in the mode
of users; and whoever joins a team or creates one leaves no more members or counted teams
than the limit in force. -/
theorem team_structure (h : Reach (portalStep lower) anyStep Initial s) :
    Structured s.store ∧
      ∀ i n s', portalStep lower (.advance i n) s = some s' → Bounded s i s' := by
  refine ⟨(reach_wellformed h).membership.structured, fun i n s' hstep => ⟨?_, ?_⟩⟩
  · rintro teamId ⟨a, ha, hdone⟩ hlimit
    rw [commit_store hstep ha hdone]
    exact reach_effect h ha hdone hlimit
  · rintro ⟨a, ha, hdone⟩ hlimit
    rw [commit_store hstep ha hdone]
    exact reach_effect h ha hdone hlimit

/-- The setup, the mode of teams with teams of at most two, two registrations, a team, and
the other participant joins it, up to the commit. -/
def joinsTeam : List (Locking.Label Request Empty) :=
  .begin (.setup "root" "root@ctf.zone") :: List.replicate 11 (.advance 0 1) ++
    .begin (.changeMode ⟨1, .admin, none⟩ .teams) :: List.replicate 6 (.advance 1 1) ++
      .begin (.patchConfigs ⟨.users, 0, false, true, 2, 1, true⟩) ::
        List.replicate 3 (.advance 2 1) ++
          .begin (.register "alice" "alice@ctf.zone") :: List.replicate 11 (.advance 3 2) ++
            .begin (.register "bob" "bob@ctf.zone") :: List.replicate 11 (.advance 4 3) ++
              .begin (.createCurrent ⟨2, .user, none⟩) :: List.replicate 14 (.advance 5 1) ++
                .begin (.joinCurrent ⟨3, .user, none⟩ 1) :: List.replicate 12 (.advance 6 1)

/-- The team of at most two has two members after the join. -/
theorem team_structure_join : ∃ s s' : Portal, Structured s.store ∧
    portalStep toAsciiLowercase (.advance 6 1) s = some s' ∧ Bounded s 6 s' ∧
      s.store.memberCount 1 = 1 ∧ s'.store.memberCount 1 = 2 := by
  have hrun : ((run (portalStep toAsciiLowercase) joinsTeam
      ⟨⟨[], [], setupSettings, false, 0⟩, fun _ => 0, []⟩).any fun s =>
      decide (s.store.memberCount 1 = 1) &&
        (portalStep toAsciiLowercase (.advance 6 1) s).any fun s' =>
          decide (s'.store.memberCount 1 = 2)) = true := by
    decide +kernel
  obtain ⟨s, hs, hfacts⟩ := (Option.any_eq_true _ _).mp hrun
  rw [Bool.and_eq_true, decide_eq_true_eq] at hfacts
  obtain ⟨s', hs', hcount⟩ := (Option.any_eq_true _ _).mp hfacts.2
  obtain ⟨hstructured, hbounded⟩ := team_structure (reach_of_run _ ⟨rfl, rfl, rfl, rfl⟩ hs)
  exact ⟨s, s', hstructured, hs', hbounded 6 1 s' hs', hfacts.1, of_decide_eq_true hcount⟩

end CtfZone.Accounts
