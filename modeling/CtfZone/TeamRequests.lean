/-
# Requests on teams

Every request that writes teams or memberships keeps its promises, whatever the others do
between its statements.

* `meets_revalidate`, `meets_lockParticipant`, `meets_requireMember` : the rules of the
  statements;
* `createCurrent_keeps`, `joinCurrent_keeps` : what a participant does;
* `addMember_keeps`, `removeMember_keeps`, `deleteTeam_keeps` : what moves members;
* `updateTeam_keeps` : what names a captain;
* `changeMode_keeps` : what leaves no team behind.
-/
import CtfZone.AccountInvariants

namespace CtfZone.Accounts

open Journal Locking.Program SharedLocks Tables
open Locking (Hold)
open Submissions (required required_eq_ok)

variable {lower : String → String} {t t' : AccountTables}

/-! ## Statements -/

section Statements

variable {P : Protocol AccountTables LockKey Sequence Answer}
  {l : Local AccountTables LockKey Sequence} {α : Type}

@[simp] theorem meets_lockConfigurationShared
    {Q : Unit → Local AccountTables LockKey Sequence → Prop} :
    Meets P lockConfigurationShared l Q ↔
      ∀ s, l.After P s → Q ⟨⟩ ⟨.lock (.configuration false) :: l.held, l.pending, s⟩ := Iff.rfl

@[simp] theorem meets_revalidate {actor : CurrentUser}
    {Q : Unit → Local AccountTables LockKey Sequence → Prop} :
    Meets P (revalidateCurrentCredential actor) l Q ↔
      ∀ s, l.After P s → (l.pending s).credentialValid actor = true →
        Q ⟨⟩ { l with store := s } := by
  simp only [revalidateCurrentCredential, meets_bind, meets_select, meets_check]

@[simp] theorem meets_requireTeamMode
    {Q : Unit → Local AccountTables LockKey Sequence → Prop} :
    Meets P requireTeamMode l Q ↔
      ∀ s, l.After P s → (l.pending s).settings.userMode = .teams → Q ⟨⟩ { l with store := s } := by
  simp only [requireTeamMode, meets_bind, meets_select, meets_check, decide_eq_true_eq]

@[simp] theorem meets_updateUsers {p : UserRow → Bool} {f : UserRow → UserRow}
    {Q : Unit → Local AccountTables LockKey Sequence → Prop} :
    Meets P (updateUsers p f) l Q ↔
      Q ⟨⟩ { l with pending := (fun t => { t with users := update p f t.users }) ∘ l.pending } :=
  Iff.rfl

@[simp] theorem meets_updateTeams {p : TeamRow → Bool} {f : TeamRow → TeamRow}
    {Q : Unit → Local AccountTables LockKey Sequence → Prop} :
    Meets P (updateTeams p f) l Q ↔
      Q ⟨⟩ { l with pending := (fun t => { t with teams := update p f t.teams }) ∘ l.pending } :=
  Iff.rfl

@[simp] theorem meets_lockParticipant {userId : ℤ}
    {Q : Option ℤ → Local AccountTables LockKey Sequence → Prop} :
    Meets P (lockParticipant userId) l Q ↔
      ∀ s, l.After P s → ∀ s', Local.After P ⟨.lock (.user userId) :: l.held, l.pending, s⟩ s' →
        ∀ row, (l.pending s').user userId = some row → row.userType = .user →
          Q row.teamId ⟨.lock (.user userId) :: l.held, l.pending, s'⟩ := by
  simp only [lockParticipant, meets_bind, meets_acquire, meets_fetchOne, meets_check,
    decide_eq_true_eq, meets_pure]

@[simp] theorem meets_loadTeamForUpdate {teamId : ℤ} {error : String}
    {Q : TeamRow → Local AccountTables LockKey Sequence → Prop} :
    Meets P (loadTeamForUpdate teamId error) l Q ↔
      ∀ s, l.After P s → ∀ s', Local.After P ⟨.lock (.team teamId) :: l.held, l.pending, s⟩ s' →
        ∀ team, (l.pending s').team teamId = some team →
          Q team ⟨.lock (.team teamId) :: l.held, l.pending, s'⟩ := by
  simp only [loadTeamForUpdate, meets_bind, meets_acquire, meets_fetchOne]

theorem meets_requireMember {teamId : ℤ} {captainId : Option (Option ℤ)}
    {Q : Unit → Local AccountTables LockKey Sequence → Prop} (hinv : P.Inv l.store)
    (h : ∀ s, l.After P s → (∀ id, captainId = some (some id) →
      ∃ u ∈ (l.pending s).users, u.id = id ∧ u.teamId = some teamId) → Q ⟨⟩ { l with store := s }) :
    Meets P (requireMember teamId captainId) l Q := by
  have hnow := h l.store (Local.After.refl hinv)
  rcases captainId with _ | _ | userId
  · exact hnow nofun
  · exact hnow nofun
  · simp only [requireMember, meets_bind, meets_select, meets_check]
    intro s hs hmember
    refine h s hs ?_
    rintro _ ⟨⟩
    obtain ⟨u, hu, hp⟩ := List.any_eq_true.mp hmember
    simp only [Bool.and_eq_true, decide_eq_true_eq] at hp
    exact ⟨u, hu, hp⟩

end Statements

/-! ## Members that move -/

/-- Participants without a team are given one; a new captain is among them. -/
theorem Membership.assign (h : Membership t) (hmode : t.settings.userMode = .teams)
    {p : UserRow → Bool} {teamId : ℤ} (hsettings : t'.settings = t.settings)
    (husers : t'.users = update p (fun u => { u with teamId := some teamId }) t.users)
    (hfree : ∀ u ∈ t.users, p u = true → u.teamId = none ∧ u.userType = .user)
    (hteams : ∀ team ∈ t'.teams, team ∈ t.teams ∨ ∀ id, team.captainId = some id →
      team.id = teamId ∧ ∃ u ∈ t.users, u.id = id ∧ p u = true) : Membership t' := by
  constructor
  · rw [husers]
    refine Tables.forall_update h.participants ?_
    intro u hu hp _ _
    exact (hfree u hu hp).2
  · intro hm
    rw [hsettings, hmode] at hm
    cases hm
  · intro team hteam id hcaptain
    rw [husers]
    rcases hteams team hteam with hold | hnew
    · obtain ⟨u, hu, hid, hteamId⟩ := h.captains team hold id hcaptain
      -- a captain has a team, so nothing is assigned to it
      refine ⟨u, mem_update.mpr ⟨u, hu, .inr ⟨?_, rfl⟩⟩, hid, hteamId⟩
      by_contra hp
      have hnone := (hfree u hu (by simpa using hp)).1
      rw [hteamId] at hnone
      cases hnone
    · obtain ⟨rfl, u, hu, hid, hp⟩ := hnew id hcaptain
      exact ⟨_, mem_update.mpr ⟨u, hu, .inl ⟨hp, rfl⟩⟩, hid, rfl⟩

/-- Members leave their teams; no team keeps one of them as its captain. -/
theorem Membership.leave (h : Membership t) {p : UserRow → Bool}
    (hsettings : t'.settings = t.settings)
    (husers : t'.users = update p (fun u => { u with teamId := none }) t.users)
    (hteams : ∀ team ∈ t'.teams, ∀ id, team.captainId = some id → team ∈ t.teams ∧
      ∀ u ∈ t.users, p u = true → u.id = id → u.teamId ≠ some team.id) : Membership t' := by
  constructor
  · rw [husers]
    exact Tables.forall_update h.participants fun _ _ _ _ hne => absurd rfl hne
  · intro hm
    rw [hsettings] at hm
    rw [husers]
    exact Tables.forall_update (h.mode hm) fun _ _ _ _ => rfl
  · intro team hteam id hcaptain
    obtain ⟨hold, hstay⟩ := hteams team hteam id hcaptain
    obtain ⟨u, hu, hid, hteamId⟩ := h.captains team hold id hcaptain
    rw [husers]
    refine ⟨u, mem_update.mpr ⟨u, hu, .inr ⟨?_, rfl⟩⟩, hid, hteamId⟩
    by_contra hp
    exact hstay u hu (by simpa using hp) hid hteamId

/-- The same members. -/
theorem keepMembers_of_eq (husers : t'.users = t.users) (htransitions : t'.transitions =
    t.transitions) : KeepMembers t t' := by
  constructor
  · rw [htransitions]
  · intro _
    rw [husers]
    exact Persist.refl (fun _ => ⟨rfl, rfl, rfl⟩) _
  · intro teamId
    unfold AccountTables.memberCount
    rw [husers]

/-! ## Requests -/

/-- A request keeps its promises. -/
def Keeps (lower : String → String) (x : Transaction Answer) : Prop :=
  ∀ s, Wellformed lower s → Meets (promises lower) x ⟨[], id, s⟩
    fun answer l => l.Commits (promises lower) answer

theorem createTeam_keeps (admin : CurrentUser) (hidden banned : Bool) :
    Keeps lower (createTeam admin hidden banned) := by
  intro s₀ _
  simp only [createTeam, meets_bind, meets_requireTeamMode, meets_check,
    meets_lockConfigurationShared, meets_revalidate, meets_acquire, meets_nextval, meets_change,
    meets_pure]
  intro s₁ _ _ _ s₂ _ s₃ h₃ hvalid s₄ h₄ _ s₅ h₅ s₆ n h₆ _ s h
  have hm : s.setupMarker = true :=
    h.rely.always (h₆.rely.always (h₅.rely.always (h₄.rely.always
      (h₃.inv.installed.credential hvalid))))
  refine ⟨trivial, ?_⟩
  apply guarantee_of_people h.inv
  · exact samePeople_of_eq rfl
  · rfl
  · intro hbefore
    exact absurd (hm.symm.trans hbefore) (by decide)
  · constructor
    · exact h.inv.membership.participants
    · exact h.inv.membership.mode
    · intro team hteam id hcaptain
      rcases List.mem_append.mp hteam with hteam | hteam
      · exact h.inv.membership.captains team hteam id hcaptain
      · rw [List.mem_singleton.mp hteam] at hcaptain
        cases hcaptain
  · exact .inr ⟨rfl, rfl⟩
  · exact .inl (by simp)
  · exact .inr (keepMembers_of_eq rfl rfl)

/-- A team that is created counts for one. -/
theorem activeTeams_append (t : AccountTables) (users : List UserRow) (team : TeamRow) :
    AccountTables.activeTeams { t with users := users, teams := t.teams ++ [team] } ≤
      t.activeTeams + 1 := by
  show (t.teams ++ [team]).countP _ ≤ t.teams.countP _ + 1
  rw [List.countP_append]
  exact Nat.add_le_add_left List.countP_le_length _

/-- Teams that stay banned and hidden as they are count as before. -/
theorem activeTeams_update {p : TeamRow → Bool} {f : TeamRow → TeamRow}
    (hteams : t'.teams = update p f t.teams)
    (hf : ∀ team, p team = true → (f team).hidden = team.hidden ∧ (f team).banned = team.banned) :
    t'.activeTeams = t.activeTeams := by
  unfold AccountTables.activeTeams
  rw [hteams, update, List.countP_map]
  refine List.countP_congr fun team _ => ?_
  show ((! (updateRow p f team).banned && ! (updateRow p f team).hidden) = true) ↔ _
  rcases updateRow_cases p f team with ⟨-, heq⟩ | ⟨hp, heq⟩
  · rw [heq]
  · rw [heq, (hf team hp).1, (hf team hp).2]

theorem createCurrent_keeps (user : CurrentUser) : Keeps lower (createCurrent user) := by
  intro s₀ _
  simp only [createCurrent, assignTeam, meets_bind, meets_requireTeamMode, meets_check,
    meets_lockConfigurationShared, meets_revalidate, meets_acquire, meets_nextval, meets_change,
    meets_lockParticipant, meets_select, meets_onlyIf, meets_updateUsers, meets_pure]
  intro _ s₁ _ s₂ h₂ hvalid s₃ h₃ hmode s₄ h₄ s₅ h₅ s₆ h₆ s₇ h₇ row _ _ _ s₈ h₈ _
  apply either h₈.inv
  intro s₉ h₉ hlimit s₁₀ n h₁₀ _ s₁₁ h₁₁ hassigned s h
  have k₁₀ := h₁₀.before (h₁₁.since h)
  have k₉ := h₉.since k₁₀
  have k₄ := h₄.before (h₅.before (h₆.before (h₇.since (h₈.since k₉))))
  have hm₃ := h₃.rely.always (h₂.inv.installed.credential hvalid)
  have hm₈ := h₈.rely.always (h₇.rely.always (h₆.rely.always (h₅.rely.always (h₄.rely.always hm₃))))
  have hm := k₄.rely.always hm₃
  have hmode : s.settings.userMode = .teams := by
    rw [(After.settings k₄ (by simp)).settings hm₃]
    exact hmode
  obtain ⟨u, hu, hfree⟩ := List.any_eq_true.mp hassigned
  constructor
  · intro hlimited
    have hsettings : s.settings = s₈.settings := (After.settings k₉ (by simp)).settings hm₈
    have hactive : s.activeTeams ≤ s₉.activeTeams := After.capacity k₁₀ (by simp)
    rw [hsettings] at hlimited ⊢
    have hcount := of_decide_eq_true (hlimit (decide_eq_true hlimited))
    refine le_trans (Int.ofNat_le.mpr (activeTeams_append s _ _)) ?_
    have hcount : (s₉.activeTeams : ℤ) < s₈.settings.numTeams := hcount
    omega
  · apply guarantee_of_people h.inv
    · exact samePeople_of_update rfl
    · rfl
    · intro hbefore
      exact absurd (hm.symm.trans hbefore) (by decide)
    · refine h.inv.membership.assign hmode rfl rfl ?_ ?_
      · intro u _ hp
        simp only [Bool.and_eq_true, decide_eq_true_eq, Option.isNone_iff_eq_none] at hp
        exact ⟨hp.1.2, hp.2⟩
      · -- the new captain is still free, and so comes to be a member
        intro team hteam
        refine (List.mem_append.mp hteam).imp_right ?_
        intro hnew id hcaptain
        rw [List.mem_singleton.mp hnew] at hcaptain ⊢
        simp only [Bool.and_eq_true, decide_eq_true_eq, Option.isNone_iff_eq_none] at hfree
        obtain ⟨u', hu', hid, htype, hteamId⟩ :=
          After.member h (by simp) (by simp) hu (h₁₁.rely.always (h₁₀.rely.always
            (h₉.rely.always hm₈)))
        refine ⟨rfl, u', hu', ?_, ?_⟩
        · rw [hid, hfree.1.1]
          exact Option.some.inj hcaptain
        · simp only [Bool.and_eq_true, decide_eq_true_eq, Option.isNone_iff_eq_none]
          exact ⟨⟨hid.trans hfree.1.1, hteamId.trans hfree.1.2⟩, htype.trans hfree.2⟩
    · exact .inr ⟨rfl, rfl⟩
    · exact .inl (by simp)
    · exact .inl (by simp)

/-- An update of one account adds at most one member. -/
theorem countP_update_le {users : List UserRow} {p q : UserRow → Bool} {f : UserRow → UserRow}
    {userId : ℤ} (hids : (users.map UserRow.id).Nodup)
    (hp : ∀ u ∈ users, p u = true → u.id = userId) :
    (update p f users).countP q ≤ users.countP q + 1 := by
  induction users with
  | nil => exact Nat.zero_le _
  | cons u users ih =>
      obtain ⟨hnot, hids⟩ := List.nodup_cons.mp hids
      have hp' : ∀ v ∈ users, p v = true → v.id = userId :=
        fun v hv => hp v (List.mem_cons_of_mem u hv)
      show (updateRow p f u :: update p f users).countP q ≤ _
      rcases updateRow_cases p f u with ⟨-, heq⟩ | ⟨hpu, -⟩
      · rw [heq, List.countP_cons, List.countP_cons]
        have := ih hids hp'
        omega
      · -- the other accounts have another id
        have hrest : update p f users = users := by
          refine update_of_none fun v hv => Bool.eq_false_of_not_eq_true fun hpv => hnot ?_
          rw [hp u List.mem_cons_self hpu, ← hp' v hv hpv]
          exact List.mem_map_of_mem hv
        rw [hrest, List.countP_cons, List.countP_cons]
        split
        · omega
        · omega

theorem joinCurrent_keeps (user : CurrentUser) (teamId : ℤ) :
    Keeps lower (joinCurrent user teamId) := by
  intro s₀ _
  simp only [joinCurrent, assignTeam, meets_bind, meets_requireTeamMode, meets_check,
    meets_lockConfigurationShared, meets_revalidate, meets_acquire, meets_lockParticipant,
    meets_loadTeamForUpdate, meets_select, meets_onlyIf, meets_updateUsers, meets_pure]
  intro _ s₁ _ s₂ h₂ hvalid s₃ h₃ hmode s₄ h₄ s₅ h₅ s₆ h₆ row _ _ _ s₇ h₇ s₈ h₈ record _ _ s₉ h₉
  apply either h₉.inv
  intro s₁₀ h₁₀ hlimit s₁₁ h₁₁ _ s h
  have k₁₁ := h₁₁.since h
  have k₁₀ := h₁₀.since k₁₁
  have k₄ := h₄.before (h₅.before (h₆.since (h₇.before (h₈.since (h₉.since k₁₀)))))
  have hm₃ := h₃.rely.always (h₂.inv.installed.credential hvalid)
  have hm₉ := h₉.rely.always (h₈.rely.always (h₇.rely.always (h₆.rely.always
    (h₅.rely.always (h₄.rely.always hm₃)))))
  have hm := k₄.rely.always hm₃
  have hmode : s.settings.userMode = .teams := by
    rw [(After.settings k₄ (by simp)).settings hm₃]
    exact hmode
  constructor
  · intro hlimited
    have hsettings : s.settings = s₉.settings := (After.settings k₁₀ (by simp)).settings hm₉
    have hmembers := (After.members k₁₁ (by simp)).count record.id
    rw [hsettings] at hlimited ⊢
    have hcount : (s₁₀.memberCount record.id : ℤ) < s₉.settings.teamSize :=
      of_decide_eq_true (hlimit (decide_eq_true hlimited))
    have hself : ∀ u ∈ s.users, (u.id = user.id && u.teamId.isNone && u.userType = .user) = true →
        u.id = user.id := by
      intro u _ hp
      simp only [Bool.and_eq_true, decide_eq_true_eq] at hp
      exact hp.1.1
    have hjoined := countP_update_le (q := fun u : UserRow => u.teamId = some record.id)
      (f := fun u => { u with teamId := some record.id }) h.inv.identities.ids hself
    refine le_trans (Int.ofNat_le.mpr hjoined) ?_
    have hmembers : s.memberCount record.id ≤ s₁₀.memberCount record.id := hmembers
    unfold AccountTables.memberCount at hmembers hcount
    omega
  · apply guarantee_of_people h.inv
    · exact samePeople_of_update rfl
    · rfl
    · exact fun hbefore => (h.inv.installed.before hbefore).2
    · refine h.inv.membership.assign hmode rfl rfl ?_ fun team hteam => .inl hteam
      intro u _ hp
      simp only [Bool.and_eq_true, decide_eq_true_eq, Option.isNone_iff_eq_none] at hp
      exact ⟨hp.1.2, hp.2⟩
    · exact .inr ⟨rfl, rfl⟩
    · exact .inr (Nat.le_refl _)
    · exact .inl (by simp)

theorem addMember_keeps (admin : CurrentUser) (teamId userId : ℤ) :
    Keeps lower (addMember admin teamId userId) := by
  intro s₀ _
  simp only [addMember, meets_bind, meets_requireTeamMode, meets_check, meets_fetchOne,
    meets_lockConfigurationShared, meets_revalidate, meets_acquire,
    meets_loadTeamForUpdate, meets_updateUsers, meets_pure, decide_eq_true_eq]
  intro _ _ _ _ s₁ _ s₂ h₂ hvalid s₃ h₃ hmode s₄ h₄ s₅ h₅ s₆ h₆ row hrow htype hfree s₇ h₇ s₈ h₈
    _ _ s h
  have k₇ := h₇.before (h₈.since h)
  have k₄ := h₄.before (h₅.before (h₆.since k₇))
  have hm₃ := h₃.rely.always (h₂.inv.installed.credential hvalid)
  have hm₆ := h₆.rely.always (h₅.rely.always (h₄.rely.always hm₃))
  obtain ⟨hmem, hid⟩ := user_eq hrow
  obtain ⟨u, hu, huid, hutype, huteam⟩ := After.member k₇ (by simp) (by simp) hmem hm₆
  refine ⟨trivial, ?_⟩
  apply guarantee_of_people h.inv
  · exact samePeople_of_update rfl
  · rfl
  · exact fun hbefore => (h.inv.installed.before hbefore).2
  · refine h.inv.membership.assign ?_ rfl rfl ?_ fun team hteam => .inl hteam
    · rw [(After.settings k₄ (by simp)).settings hm₃]
      exact hmode
    · intro v hv hp
      obtain rfl := h.inv.identities.unique hv hu
        ((of_decide_eq_true hp).trans (huid.trans hid).symm)
      exact ⟨huteam.trans (Option.isNone_iff_eq_none.mp hfree), hutype.trans htype⟩
  · exact .inr ⟨rfl, rfl⟩
  · exact .inr (Nat.le_refl _)
  · exact .inl (by simp)

theorem removeMember_keeps (admin : CurrentUser) (teamId userId : ℤ) :
    Keeps lower (removeMember admin teamId userId) := by
  intro s₀ _
  simp only [removeMember, clearCaptain, meets_bind, meets_requireTeamMode, meets_check,
    meets_select, meets_lockConfigurationShared, meets_revalidate, meets_acquire,
    meets_loadTeamForUpdate, meets_updateUsers, meets_updateTeams, meets_pure, decide_eq_true_eq]
  intro _ _ _ _ s₁ _ s₂ h₂ hvalid s₃ h₃ hmode s₄ h₄ s₅ h₅ s₆ h₆ s₇ h₇ s₈ h₈ _ _ hmember s h
  have k₇ := h₇.before (h₈.since h)
  have hm₃ := h₃.rely.always (h₂.inv.installed.credential hvalid)
  have hm₆ := h₆.rely.always (h₅.rely.always (h₄.rely.always hm₃))
  obtain ⟨row, hrow, hteamId⟩ := Option.bind_eq_some_iff.mp hmember
  obtain ⟨hmem, hid⟩ := user_eq hrow
  obtain ⟨u, hu, huid, -, huteam⟩ := After.member k₇ (by simp) (by simp) hmem hm₆
  refine ⟨trivial, ?_⟩
  apply guarantee_of_people h.inv
  · exact samePeople_of_update rfl
  · rfl
  · intro hbefore
    show update _ _ s.teams = []
    rw [(h.inv.installed.before hbefore).2]
    rfl
  · refine h.inv.membership.leave rfl rfl ?_
    intro team hteam id hcaptain
    obtain ⟨team₀, hteam₀, ⟨hp, rfl⟩ | ⟨hp, rfl⟩⟩ := mem_update.mp hteam
    · cases hcaptain
    · -- the member was not captain of another team
      refine ⟨hteam₀, ?_⟩
      intro v hv hpv hvid heq
      have hvu : v.id = userId := of_decide_eq_true hpv
      obtain rfl := h.inv.identities.unique hv hu (hvu.trans (huid.trans hid).symm)
      rw [huteam, hteamId] at heq
      have hnot : ¬ (team₀.id = teamId ∧ team₀.captainId = some userId) := by
        simpa only [Bool.and_eq_false_iff, decide_eq_false_iff_not, ← not_and_or] using hp
      exact hnot ⟨(Option.some.inj heq).symm, by rw [hcaptain, ← hvid, hvu]⟩
  · exact .inr ⟨rfl, rfl⟩
  · right
    apply Nat.le_of_eq
    exact activeTeams_update rfl fun _ _ => ⟨rfl, rfl⟩
  · exact .inl (by simp)

theorem deleteTeam_keeps (actor : CurrentUser) (teamId : ℤ) (participantActor : Option ℤ) :
    Keeps lower (deleteTeam actor teamId participantActor) := by
  intro s₀ _
  -- what it holds and knows when it deletes, whoever asks
  suffices hrest : ∀ held s₁, .lock (.configuration false) ∈ held → .lock .teamCapacity ∈ held →
      .lock .teamMembership ∈ held → s₁.setupMarker = true →
      ((⟨held, fun t =>
        { t with
          users := update (·.teamId = some teamId) (fun u => { u with teamId := none }) t.users
          teams := t.teams.filter (·.id ≠ teamId) }, s₁⟩ :
        Local AccountTables LockKey Sequence).Commits (promises lower) .done) by
    unfold deleteTeam
    rcases participantActor with _ | actorId
    · simp only [meets_bind, meets_lockConfigurationShared, meets_revalidate,
        meets_requireTeamMode, meets_acquire, meets_loadTeamForUpdate, meets_updateUsers,
        meets_change, meets_pure]
      intro s₁ _ s₂ h₂ hvalid s₃ h₃ _ s₄ h₄ s₅ h₅ s₆ h₆ s₇ h₇ _ _
      have hm₃ := h₃.rely.always (h₂.inv.installed.credential hvalid)
      exact hrest _ _ (by simp) (by simp) (by simp) (h₇.rely.always (h₆.rely.always
        (h₅.rely.always (h₄.rely.always hm₃))))
    · simp only [meets_bind, meets_lockConfigurationShared, meets_revalidate, meets_select,
        meets_requireTeamMode, meets_acquire, meets_loadTeamForUpdate, meets_updateUsers,
        meets_lockParticipant, meets_check, meets_change, meets_pure]
      intro s₁ _ s₂ h₂ hvalid s₃ h₃ _ s₄ h₄ s₅ h₅ s₆ h₆ s₇ h₇ _ _ _ _ s₈ h₈ s₉ h₉ _ _ _ s₁₀ h₁₀ _
      have hm₃ := h₃.rely.always (h₂.inv.installed.credential hvalid)
      exact hrest _ _ (by simp) (by simp) (by simp) (h₁₀.rely.always (h₉.rely.always
        (h₈.rely.always (h₇.rely.always (h₆.rely.always (h₅.rely.always (h₄.rely.always hm₃)))))))
  intro held s₁ hconf hcapacity hmembership hm₁ s h
  have hm := h.rely.always hm₁
  refine ⟨trivial, ?_⟩
  apply guarantee_of_people h.inv
  · exact samePeople_of_update rfl
  · rfl
  · exact fun hbefore => absurd (hm.symm.trans hbefore) (by decide)
  · refine h.inv.membership.leave rfl rfl ?_
    intro team hteam id _
    obtain ⟨hteam, hne⟩ := List.mem_filter.mp hteam
    refine ⟨hteam, fun u _ hp _ heq => of_decide_eq_true hne ?_⟩
    rw [of_decide_eq_true hp] at heq
    exact (Option.some.inj heq).symm
  · exact .inr ⟨rfl, rfl⟩
  · exact .inl hcapacity
  · exact .inl hmembership

theorem updateTeam_keeps (actor : CurrentUser) (teamId : ℤ) (request : PatchTeam) (admin : Bool) :
    Keeps lower (updateTeam actor teamId request admin) := by
  intro s₀ _
  simp only [updateTeam, meets_bind, meets_fetchOne, meets_lockConfigurationShared,
    meets_revalidate, meets_requireTeamMode]
  intro _ _ _ _ s₁ _ s₂ h₂ hvalid s₃ h₃ _
  have hm₃ := h₃.rely.always (h₂.inv.installed.credential hvalid)
  apply meets_onlyIf_quiet (F := fun _ => True) h₃.inv
  · simp only [meets_bind, meets_acquire, meets_lockParticipant, meets_loadTeamForUpdate,
      meets_check]
    intro _ s₄ _ s₅ _ s₆ _ _ _ _ _ s₇ _ s₈ h₈ _ _ _
    exact ⟨trivial, h₈.inv, trivial⟩
  intro l₄ hext₄ hpending₄ hinv₄ _
  apply meets_onlyIf_acquire hinv₄
  intro l₅ hext₅ hpending₅ hinv₅ hcapacity
  apply meets_onlyIf_acquire hinv₅
  rintro ⟨held₆, pending, s₆⟩ hext₆ hpending₆ hinv₆ hmembership
  obtain rfl : pending = id := hpending₆.trans (hpending₅.trans hpending₄)
  apply meets_requireMember hinv₆
  intro s₇ h₇ hmember s h
  have hheld₆ := hext₆.held
  have hext₆ := hext₄.trans (hext₅.trans hext₆)
  have hconf : .lock (.configuration false) ∈ held₆ := hext₆.held _ (by simp)
  have k₇ := h₇.since h
  have hm := (hext₆.after s k₇).rely.always hm₃
  have hm₇ := (hext₆.after s₇ h₇).rely.always hm₃
  refine ⟨trivial, ?_⟩
  apply guarantee_of_people h.inv
  · exact samePeople_of_eq rfl
  · rfl
  · exact fun hbefore => absurd (hm.symm.trans hbefore) (by decide)
  · refine ⟨h.inv.membership.participants, h.inv.membership.mode, ?_⟩
    intro team hteam id hcaptain
    obtain ⟨team₀, hteam₀, ⟨hp, rfl⟩ | ⟨-, rfl⟩⟩ := mem_update.mp hteam
    · rcases hrequest : request.captainId with _ | _ | userId
      · rw [hrequest] at hcaptain
        exact h.inv.membership.captains team₀ hteam₀ id hcaptain
      · rw [hrequest] at hcaptain
        cases hcaptain
      · -- the new captain was a member, and has stayed one
        rw [hrequest] at hcaptain
        obtain rfl : userId = id := Option.some.inj hcaptain
        obtain ⟨u, hu, huid, huteam⟩ := hmember userId hrequest
        obtain ⟨u', hu', hid', -, hteam'⟩ := After.member h
          (hmembership (by rw [hrequest]; rfl)) hconf hu hm₇
        refine ⟨u', hu', hid'.trans huid, ?_⟩
        rw [hteam', huteam]
        exact congrArg some (of_decide_eq_true hp).symm
    · exact h.inv.membership.captains team₀ hteam₀ id hcaptain
  · exact .inr ⟨rfl, rfl⟩
  · by_cases hcounted : (request.hidden.isSome || request.banned.isSome) = true
    · exact .inl (hheld₆ _ (hcapacity hcounted))
    · right
      apply Nat.le_of_eq
      refine activeTeams_update rfl fun team _ => ?_
      simp only [Bool.or_eq_true, not_or, Option.not_isSome_iff_eq_none] at hcounted
      rw [hcounted.1, hcounted.2]
      exact ⟨rfl, rfl⟩
  · exact .inr (keepMembers_of_eq rfl rfl)

theorem patchConfigs_keeps (settings : Settings) : Keeps lower (patchConfigs settings) := by
  intro s₀ _
  simp only [patchConfigs, meets_bind, meets_acquire, meets_change, meets_pure]
  intro s₁ _ s h
  refine ⟨trivial, ?_⟩
  apply guarantee_of_people h.inv
  · exact samePeople_of_eq rfl
  · rfl
  · exact fun hbefore => (h.inv.installed.before hbefore).2
  · exact ⟨h.inv.membership.participants, h.inv.membership.mode, h.inv.membership.captains⟩
  · exact .inl (by simp)
  · exact .inr (Nat.le_refl _)
  · exact .inr (keepMembers_of_eq rfl rfl)

theorem changeMode_keeps (user : CurrentUser) (targetMode : UserMode) :
    Keeps lower (changeMode user targetMode) := by
  intro s₀ _
  simp only [changeMode, meets_bind, meets_check, meets_acquire, meets_revalidate, meets_select,
    meets_updateUsers, meets_change, meets_pure]
  intro _ s₁ _ s₂ _ _ s₃ _ _ s h
  have hnone : ∀ u ∈ update (fun u : UserRow => u.teamId.isSome)
      (fun u => { u with teamId := none }) s.users, u.teamId = none := by
    intro u hu
    obtain ⟨v, -, ⟨-, rfl⟩ | ⟨hp, rfl⟩⟩ := mem_update.mp hu
    · rfl
    · exact Option.not_isSome_iff_eq_none.mp (Bool.eq_false_iff.mp hp)
  refine ⟨trivial, ?_⟩
  apply guarantee_of_people h.inv
  · exact samePeople_of_update rfl
  · rfl
  · exact fun _ => rfl
  · exact ⟨fun u hu hne => absurd (hnone u hu) hne, fun _ => hnone, by simp⟩
  · exact .inl (by simp)
  · exact .inr (Nat.zero_le _)
  · refine .inr ⟨Nat.le_succ _, fun heq => absurd heq (Nat.succ_ne_self _), ?_⟩
    intro teamId
    refine (List.countP_eq_zero.mpr ?_).trans_le (Nat.zero_le _)
    intro u hu hteam
    rw [hnone u hu] at hteam
    exact absurd hteam (by simp)

end CtfZone.Accounts
