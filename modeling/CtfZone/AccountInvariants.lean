/-
# What accounts and teams keep

The requests on accounts and teams promise each other an invariant of the tables and what
whoever holds a lock can rely on.

* `Identities` : ids, names and emails are unique, and texts are trimmed;
* `Membership` : captains are members, members are participants of the team mode;
* `Installed` : there is an active administrator from the setup on;
* `Keep` : what the holder of a lock can rely on;
* `promises` : the protocol of the requests;
* `guarantee_of`, `guarantee_of_people` : how a commit keeps it.
-/
import CtfZone.AccountTransactions

namespace CtfZone.Accounts

open Journal Locking.Program SharedLocks Tables
open Locking (Hold)

variable {lower : String → String} {t t' t'' : AccountTables}

/-! ## Invariants -/

/-- The unique columns of accounts, and their texts. -/
structure Identities (lower : String → String) (users : List UserRow) : Prop where
  ids : (users.map UserRow.id).Nodup
  names : ∀ u ∈ users, ∀ v ∈ users, u.name = v.name → u.id = v.id
  emails : ∀ u ∈ users, ∀ v ∈ users, lower u.email = lower v.email → u.id = v.id
  nameTexts : ∀ u ∈ users, trim u.name = u.name ∧ u.name ≠ ""
  emailTexts : ∀ u ∈ users, trim u.email = u.email ∧ u.email ≠ ""

/-- Captains are members of their teams, and members are participants of the team mode. -/
structure Membership (t : AccountTables) : Prop where
  participants : ∀ u ∈ t.users, u.teamId ≠ none → u.userType = .user
  mode : t.settings.userMode = .users → ∀ u ∈ t.users, u.teamId = none
  captains : ∀ team ∈ t.teams, ∀ id, team.captainId = some id →
    ∃ u ∈ t.users, u.id = id ∧ u.teamId = some team.id

/-- An administrator that is not banned. -/
def ActiveAdmin (t : AccountTables) (id : ℤ) : Prop :=
  ∃ u ∈ t.users, u.id = id ∧ u.userType = .admin ∧ u.banned = false

/-- There is nobody before the setup, and an active administrator after it. -/
structure Installed (t : AccountTables) : Prop where
  before : t.setupMarker = false → t.users = [] ∧ t.teams = []
  admin : t.setupMarker = true → ∃ id, ActiveAdmin t id

/-- The invariant of the tables. -/
structure Wellformed (lower : String → String) (t : AccountTables) : Prop where
  identities : Identities lower t.users
  membership : Membership t
  installed : Installed t

/-- The row of an account is determined by its id. -/
theorem Identities.unique {users : List UserRow} (h : Identities lower users) {u v : UserRow}
    (hu : u ∈ users) (hv : v ∈ users) (hid : u.id = v.id) : u = v :=
  List.inj_on_of_nodup_map h.ids hu hv hid

theorem user_eq {id : ℤ} {u : UserRow} (h : t.user id = some u) : u ∈ t.users ∧ u.id = id :=
  ⟨List.mem_of_find?_eq_some h,
    of_decide_eq_true (List.find?_some (p := fun u : UserRow => decide (u.id = id)) h)⟩

theorem user_none {id : ℤ} (h : t.user id = none) : ∀ u ∈ t.users, u.id ≠ id := by
  intro u hu hid
  exact absurd hid (of_decide_eq_false (Bool.eq_false_of_not_eq_true
    (List.find?_eq_none.mp h u hu)))

/-- Somebody has an account only after the setup. -/
theorem Installed.marker (h : Installed t) {u : UserRow} (hu : u ∈ t.users) :
    t.setupMarker = true := by
  by_contra hmarker
  rw [(h.before (Bool.eq_false_of_not_eq_true hmarker)).1] at hu
  exact absurd hu List.not_mem_nil

/-- A credential is valid only after the setup. -/
theorem Installed.credential (h : Installed t) {actor : CurrentUser}
    (hvalid : t.credentialValid actor = true) : t.setupMarker = true := by
  obtain ⟨u, hu, -⟩ := List.any_eq_true.mp hvalid
  exact h.marker hu

/-! ## What the holder of a lock can rely on -/

/-- Members and their types stay as they are, unless the mode changes; no team grows. -/
structure KeepMembers (t t' : AccountTables) : Prop where
  later : t.transitions ≤ t'.transitions
  stay : t'.transitions = t.transitions → Persist
    (fun u u' => u'.id = u.id ∧ u'.userType = u.userType ∧ u'.teamId = u.teamId) t.users t'.users
  count : ∀ teamId, t'.memberCount teamId ≤ t.memberCount teamId

/-- Active administrators stay, and the setup is not done. -/
structure KeepAdmins (t t' : AccountTables) : Prop where
  marker : t.setupMarker = false → t'.setupMarker = false
  active : ∀ id, ActiveAdmin t id → ActiveAdmin t' id

/-- The settings and the mode stay as they are after the setup. -/
structure KeepSettings (t t' : AccountTables) : Prop where
  settings : t.setupMarker = true → t'.settings = t.settings
  transitions : t.setupMarker = true → t'.transitions = t.transitions
  marker : t.setupMarker = true → t'.setupMarker = true

/-- Nobody comes to have a key. -/
def KeepKey (key : UserRow → String) (value : String) (t t' : AccountTables) : Prop :=
  ∀ u' ∈ t'.users, key u' = value → ∃ u ∈ t.users, u.id = u'.id ∧ key u = value

/-- What the holder of a lock can rely on. -/
def Keep (lower : String → String) : LockKey → AccountTables → AccountTables → Prop
  | .configuration _, t, t' => KeepSettings t t'
  | .teamCapacity, t, t' => t'.activeTeams ≤ t.activeTeams
  | .teamMembership, t, t' => KeepMembers t t'
  | .setupInvariant, t, t' => KeepAdmins t t'
  | .userName name, t, t' => KeepKey UserRow.name name t t'
  | .userEmail email, t, t' => KeepKey (lower ∘ UserRow.email) email t t'
  | _, _, _ => True

theorem KeepMembers.refl (t : AccountTables) : KeepMembers t t :=
  ⟨Nat.le_refl _, fun _ => Persist.refl (fun _ => ⟨rfl, rfl, rfl⟩) _, fun _ => Nat.le_refl _⟩

theorem KeepMembers.trans (h : KeepMembers t t') (h' : KeepMembers t' t'') :
    KeepMembers t t'' := by
  refine ⟨h.later.trans h'.later, ?_, fun id => (h'.count id).trans (h.count id)⟩
  intro htransitions
  have hlater := h.later
  have hlater' := h'.later
  refine Persist.trans ?_ (h.stay (by omega)) (h'.stay (by omega))
  rintro u u' u'' ⟨hid, htype, hteam⟩ ⟨hid', htype', hteam'⟩
  exact ⟨hid'.trans hid, htype'.trans htype, hteam'.trans hteam⟩

theorem KeepSettings.trans (h : KeepSettings t t') (h' : KeepSettings t' t'') :
    KeepSettings t t'' where
  settings := fun hm => (h'.settings (h.marker hm)).trans (h.settings hm)
  transitions := fun hm => (h'.transitions (h.marker hm)).trans (h.transitions hm)
  marker := fun hm => h'.marker (h.marker hm)

theorem KeepKey.trans {key : UserRow → String} {value : String} (h : KeepKey key value t t')
    (h' : KeepKey key value t' t'') : KeepKey key value t t'' := by
  intro u'' hu'' hkey
  obtain ⟨u', hu', hid', hkey'⟩ := h' u'' hu'' hkey
  obtain ⟨u, hu, hid, hkey⟩ := h u' hu' hkey'
  exact ⟨u, hu, hid.trans hid', hkey⟩

theorem keep_refl (k : LockKey) (t : AccountTables) : Keep lower k t t := by
  cases k with
  | configuration => exact ⟨fun _ => rfl, fun _ => rfl, id⟩
  | teamCapacity => exact Nat.le_refl _
  | teamMembership => exact KeepMembers.refl t
  | setupInvariant => exact ⟨id, fun _ => id⟩
  | userName => exact fun u hu hkey => ⟨u, hu, rfl, hkey⟩
  | userEmail => exact fun u hu hkey => ⟨u, hu, rfl, hkey⟩
  | _ => trivial

theorem keep_trans {k : LockKey} (h : Keep lower k t t') (h' : Keep lower k t' t'') :
    Keep lower k t t'' := by
  cases k with
  | configuration => exact KeepSettings.trans h h'
  | teamCapacity => exact Nat.le_trans h' h
  | teamMembership => exact KeepMembers.trans h h'
  | setupInvariant =>
      exact ⟨fun hm => h'.marker (h.marker hm), fun id ha => h'.active id (h.active id ha)⟩
  | userName => exact KeepKey.trans h h'
  | userEmail => exact KeepKey.trans h h'
  | _ => trivial

/-- What a commit with an answer does: who joins a team, or creates one, keeps to the limit
of the settings. -/
def Effect : Answer → AccountTables → AccountTables → Prop
  | .joined teamId, t, t' =>
    0 < t.settings.teamSize → (t'.memberCount teamId : ℤ) ≤ t.settings.teamSize
  | .created, t, t' => 0 < t.settings.numTeams → (t'.activeTeams : ℤ) ≤ t.settings.numTeams
  | .done, _, _ => True

/-- No account has the number. -/
def Unused : Sequence → ℕ → AccountTables → Prop
  | .users, n, t => ∀ u ∈ t.users, u.id ≠ n
  | .teams, _, _ => True

/-- What the requests promise each other. -/
def promises (lower : String → String) : Protocol AccountTables LockKey Sequence Answer where
  Inv := Wellformed lower
  Always t t' := t.setupMarker = true → t'.setupMarker = true
  Keep := Keep lower
  Unused := Unused
  Effect := Effect
  always_refl := fun _ => id
  always_trans := fun h h' hm => h' (h hm)
  keep_refl := keep_refl
  keep_trans := keep_trans

/-! ## What a transaction knows -/

section Known

variable {l : Local AccountTables LockKey Sequence} (h : l.After (promises lower) t)
include h

theorem After.marker (hm : l.store.setupMarker = true) : t.setupMarker = true := h.rely.always hm

theorem After.settings (hheld : .lock (.configuration false) ∈ l.held) : KeepSettings l.store t :=
  h.rely.respects _ hheld

theorem After.capacity (hheld : .lock .teamCapacity ∈ l.held) :
    t.activeTeams ≤ l.store.activeTeams := h.rely.respects _ hheld

theorem After.members (hheld : .lock .teamMembership ∈ l.held) : KeepMembers l.store t :=
  h.rely.respects _ hheld

theorem After.admins (hheld : .lock .setupInvariant ∈ l.held) : KeepAdmins l.store t :=
  h.rely.respects _ hheld

theorem After.names {name : String} (hheld : .lock (.userName name) ∈ l.held) :
    KeepKey UserRow.name name l.store t := h.rely.respects _ hheld

theorem After.emails {email : String} (hheld : .lock (.userEmail email) ∈ l.held) :
    KeepKey (lower ∘ UserRow.email) email l.store t := h.rely.respects _ hheld

theorem After.unused {n : ℕ} (hheld : .number .users n ∈ l.held)
    (hn : ∀ u ∈ l.store.users, u.id ≠ n) : ∀ u ∈ t.users, u.id ≠ n := h.rely.respects _ hheld hn

/-- A member that is read under the lock of memberships is still one. -/
theorem After.member (hheld : .lock .teamMembership ∈ l.held)
    (hconf : .lock (.configuration false) ∈ l.held) {u : UserRow} (hu : u ∈ l.store.users)
    (hm : l.store.setupMarker = true) :
    ∃ u' ∈ t.users, u'.id = u.id ∧ u'.userType = u.userType ∧ u'.teamId = u.teamId :=
  (After.members h hheld).stay ((After.settings h hconf).transitions hm) u hu

end Known

/-! ## How a commit keeps the promises -/

section Commits

variable {held : List (Hold LockKey Sequence)}

/-- A commit keeps the promises if it keeps what it does not hold the lock of. -/
theorem guarantee_of (hinv : Wellformed lower t')
    (hmarker : t.setupMarker = true → t'.setupMarker = true)
    (hsettings : .lock (.configuration true) ∈ held ∨ KeepSettings t t')
    (hcapacity : .lock .teamCapacity ∈ held ∨ t'.activeTeams ≤ t.activeTeams)
    (hmembers : .lock .teamMembership ∈ held ∨ KeepMembers t t')
    (hadmins : .lock .setupInvariant ∈ held ∨ KeepAdmins t t')
    (hids : ∀ u' ∈ t'.users, (∃ n : ℕ, u'.id = n ∧ .number .users n ∈ held) ∨
      ∃ u ∈ t.users, u.id = u'.id)
    (hnames : ∀ u' ∈ t'.users, .lock (.userName u'.name) ∈ held ∨
      ∃ u ∈ t.users, u.id = u'.id ∧ u.name = u'.name)
    (hemails : ∀ u' ∈ t'.users, .lock (.userEmail (lower u'.email)) ∈ held ∨
      ∃ u ∈ t.users, u.id = u'.id ∧ lower u.email = lower u'.email) :
    (promises lower).Guarantee held t t' := by
  refine ⟨hinv, hmarker, ?_⟩
  intro h hfree
  -- a lock that somebody else holds is not held here
  have hnot : ∀ key key', h = .lock key → Lockable.conflict key key' = true →
      .lock key' ∉ held := by
    rintro key key' rfl hconflict hmem
    exact hfree _ hmem hconflict
  rcases h with key | ⟨q, n⟩
  · cases key with
    | configuration e => exact hsettings.resolve_left (hnot _ _ rfl (Bool.or_true e))
    | teamCapacity => exact hcapacity.resolve_left (hnot _ _ rfl rfl)
    | teamMembership => exact hmembers.resolve_left (hnot _ _ rfl rfl)
    | setupInvariant => exact hadmins.resolve_left (hnot _ _ rfl rfl)
    | userName name =>
        intro u' hu' hname
        obtain ⟨u, hu, hid, heq⟩ := (hnames u' hu').resolve_left
          (hnot _ _ rfl (decide_eq_true (congrArg LockKey.userName hname.symm)))
        exact ⟨u, hu, hid, heq.trans hname⟩
    | userEmail email =>
        intro u' hu' hemail
        obtain ⟨u, hu, hid, heq⟩ := (hemails u' hu').resolve_left
          (hnot _ _ rfl (decide_eq_true (congrArg LockKey.userEmail hemail.symm)))
        exact ⟨u, hu, hid, heq.trans hemail⟩
    | _ => trivial
  · cases q with
    | users =>
        intro hunused u' hu' hid
        rcases hids u' hu' with ⟨m, hm, hmem⟩ | ⟨u, hu, heq⟩
        · exact hfree _ hmem ⟨rfl, by omega⟩
        · exact hunused u hu (heq.trans hid)
    | teams => exact fun _ => trivial

/-- The same accounts, in other teams. -/
def SamePeople (t t' : AccountTables) : Prop :=
  ∃ team : UserRow → Option ℤ, t'.users = t.users.map fun u => { u with teamId := team u }

theorem samePeople_of_eq (h : t'.users = t.users) : SamePeople t t' :=
  ⟨UserRow.teamId, h.trans (List.map_id t.users).symm⟩

theorem samePeople_of_update {p : UserRow → Bool} {teamId : Option ℤ}
    (h : t'.users = update p (fun u => { u with teamId := teamId }) t.users) :
    SamePeople t t' := by
  refine ⟨fun u => if p u then teamId else u.teamId, h.trans (List.map_congr_left ?_)⟩
  intro u _
  by_cases hp : p u = true
  · simp only [updateRow, hp, if_true]
  · simp only [updateRow, hp]
    rfl

namespace SamePeople

variable (h : SamePeople t t')
include h

/-- Everybody was there before. -/
theorem back : ∀ u' ∈ t'.users, ∃ u ∈ t.users, u' = { u with teamId := u'.teamId } := by
  obtain ⟨team, hteam⟩ := h
  rw [hteam]
  intro u' hu'
  obtain ⟨u, hu, rfl⟩ := List.mem_map.mp hu'
  exact ⟨u, hu, rfl⟩

/-- Everybody is still there. -/
theorem forth : ∀ u ∈ t.users, ∃ u' ∈ t'.users, u' = { u with teamId := u'.teamId } := by
  obtain ⟨team, hteam⟩ := h
  rw [hteam]
  intro u hu
  exact ⟨_, List.mem_map_of_mem hu, rfl⟩

theorem identities (hs : Identities lower t.users) : Identities lower t'.users := by
  have hback := h.back
  obtain ⟨team, hteam⟩ := h
  constructor
  · rw [hteam, List.map_map]
    exact hs.ids
  · intro u' hu' v' hv' hname
    obtain ⟨u, hu, hueq⟩ := hback u' hu'
    obtain ⟨v, hv, hveq⟩ := hback v' hv'
    rw [hueq, hveq] at hname ⊢
    exact hs.names u hu v hv hname
  · intro u' hu' v' hv' hemail
    obtain ⟨u, hu, hueq⟩ := hback u' hu'
    obtain ⟨v, hv, hveq⟩ := hback v' hv'
    rw [hueq, hveq] at hemail ⊢
    exact hs.emails u hu v hv hemail
  · intro u' hu'
    obtain ⟨u, hu, hueq⟩ := hback u' hu'
    rw [hueq]
    exact hs.nameTexts u hu
  · intro u' hu'
    obtain ⟨u, hu, hueq⟩ := hback u' hu'
    rw [hueq]
    exact hs.emailTexts u hu

theorem admins {id : ℤ} (ha : ActiveAdmin t id) : ActiveAdmin t' id := by
  obtain ⟨u, hu, hid, htype, hbanned⟩ := ha
  obtain ⟨u', hu', heq⟩ := h.forth u hu
  rw [heq] at hu'
  exact ⟨_, hu', hid, htype, hbanned⟩

end SamePeople

/-- A commit that moves accounts between teams, or changes teams, keeps the promises if it
keeps those about teams. -/
theorem guarantee_of_people (hs : Wellformed lower t) (hpeople : SamePeople t t')
    (hmarker : t'.setupMarker = t.setupMarker)
    (hbefore : t.setupMarker = false → t'.teams = []) (hmembership : Membership t')
    (hsettings : .lock (.configuration true) ∈ held ∨
      t'.settings = t.settings ∧ t'.transitions = t.transitions)
    (hcapacity : .lock .teamCapacity ∈ held ∨ t'.activeTeams ≤ t.activeTeams)
    (hmembers : .lock .teamMembership ∈ held ∨ KeepMembers t t') :
    (promises lower).Guarantee held t t' := by
  have hinstalled : Installed t' := by
    constructor
    · intro hm
      rw [hmarker] at hm
      refine ⟨?_, hbefore hm⟩
      obtain ⟨team, hteam⟩ := hpeople
      rw [hteam, (hs.installed.before hm).1]
      rfl
    · intro hm
      rw [hmarker] at hm
      obtain ⟨id, ha⟩ := hs.installed.admin hm
      exact ⟨id, hpeople.admins ha⟩
  have hback : ∀ u' ∈ t'.users, ∃ u ∈ t.users, u.id = u'.id ∧ u.name = u'.name ∧
      u.email = u'.email := by
    intro u' hu'
    obtain ⟨u, hu, heq⟩ := hpeople.back u' hu'
    rw [heq]
    exact ⟨u, hu, rfl, rfl, rfl⟩
  apply guarantee_of ⟨hpeople.identities hs.identities, hmembership, hinstalled⟩
  · intro hm
    rw [hmarker, hm]
  · exact hsettings.imp_right fun h => ⟨fun _ => h.1, fun _ => h.2, fun hm => by rw [hmarker, hm]⟩
  · exact hcapacity
  · exact hmembers
  · exact .inr ⟨fun hm => by rw [hmarker, hm], fun _ => hpeople.admins⟩
  · intro u' hu'
    obtain ⟨u, hu, hid, -⟩ := hback u' hu'
    exact .inr ⟨u, hu, hid⟩
  · intro u' hu'
    obtain ⟨u, hu, hid, hname, -⟩ := hback u' hu'
    exact .inr ⟨u, hu, hid, hname⟩
  · intro u' hu'
    obtain ⟨u, hu, hid, -, hemail⟩ := hback u' hu'
    exact .inr ⟨u, hu, hid, congrArg lower hemail⟩

end Commits

end CtfZone.Accounts
