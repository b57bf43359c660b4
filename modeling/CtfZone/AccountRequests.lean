/-
# Requests on accounts

Every request that writes accounts keeps its promises, whatever the others do between its
statements.

* `meets_claimName`, `meets_claimEmail`, `meets_insertUser` : the unique indexes;
* `setup_keeps`, `register_keeps`, `createUser_keeps` : what creates accounts;
* `updateUser_keeps` : what updates them;
* `deleteUser_keeps` : what deletes them;
* `request_keeps` : all requests keep their promises by themselves.
-/
import CtfZone.TeamRequests

namespace CtfZone.Accounts

open Journal Locking.Program SharedLocks Tables
open Locking (Hold)
open Submissions (required required_eq_ok)

variable {lower : String → String} {t t' : AccountTables}

/-! ## Texts -/

theorem validateName_eq_ok {value name : String} (h : validateName value = .ok name) :
    trim name = name ∧ name ≠ "" := by
  obtain ⟨_, hcheck, heq⟩ := bind_eq_ok.mp h
  obtain rfl : trim value = name := Except.ok.inj heq
  have hne := ensure_eq_ok.mp hcheck
  simp only [Bool.and_eq_true, decide_eq_true_eq] at hne
  exact ⟨trim_trim value, hne.1⟩

theorem validateEmail_eq_ok {value email : String} (h : validateEmail value = .ok email) :
    trim email = email ∧ email ≠ "" := by
  obtain ⟨_, hcheck, heq⟩ := bind_eq_ok.mp h
  obtain rfl : trim value = email := Except.ok.inj heq
  refine ⟨trim_trim value, ?_⟩
  intro hempty
  rw [hempty] at hcheck
  exact absurd (ensure_eq_ok.mp hcheck) (by decide)

theorem checkField_eq_ok {α β : Type} {validate : α → Except String β} {value : Option α}
    {field : Option β} (h : checkField validate value = .ok field) {b : β} (hb : field = some b) :
    ∃ a, validate a = .ok b := by
  rcases value with _ | a
  · rw [checkField, Except.ok.injEq] at h
    rw [← h] at hb
    cases hb
  · subst hb
    rw [checkField] at h
    rcases hv : validate a with e | b'
    · rw [hv] at h
      cases h
    · rw [hv] at h
      exact ⟨a, by rw [hv]; exact congrArg _ (Option.some.inj (Except.ok.inj h))⟩

/-- A valid email has no blanks. -/
theorem validEmail_texts {email : String} (h : validEmail email = true) :
    trim email = email ∧ email ≠ "" := by
  simp only [validEmail, Bool.and_eq_true] at h
  constructor
  · apply trim_of_forall
    intro c hc
    have hnone := h.1.2
    simp only [Bool.not_eq_true', List.any_eq_false] at hnone
    exact Bool.eq_false_of_not_eq_true (hnone c hc)
  · rintro rfl
    exact absurd h.2 (by decide)

/-! ## Unique indexes -/

section Indexes

variable {l l' : Local AccountTables LockKey Sequence}
  {Q : Unit → Local AccountTables LockKey Sequence → Prop}

/-- Only the account can have the value of a key from now on. -/
def Reserved (lower : String → String) (key : UserRow → String) (value : String) (userId : ℤ)
    (l : Local AccountTables LockKey Sequence) : Prop :=
  ∀ s, l.After (promises lower) s → ∀ u ∈ s.users, key u = value → u.id = userId

theorem Reserved.extends {key : UserRow → String} {value : String} {userId : ℤ}
    (h : Reserved lower key value userId l) (hext : l.Extends (promises lower) l') :
    Reserved lower key value userId l' := fun s hs => h s (hext.after s hs)

/-- Under the lock of a key, what has been seen of it stays so. -/
theorem reserved_of_seen {key : UserRow → String} {value : String} {userId : ℤ} {k : LockKey}
    (hkeep : Keep lower k = KeepKey key value) (hheld : .lock k ∈ l.held)
    (hseen : ∀ u ∈ l.store.users, key u = value → u.id = userId) :
    Reserved lower key value userId l := by
  intro s hs u hu hkey
  have hkept : Keep lower k l.store s := hs.rely.respects _ hheld
  rw [hkeep] at hkept
  obtain ⟨v, hv, hid, hvkey⟩ := hkept u hu hkey
  exact hid.symm.trans (hseen v hv hvkey)

theorem meets_claimName {userId : ℤ} {name : String} (hp : ∀ s, (l.pending s).users = s.users)
    (h : ∀ s, (promises lower).Inv s →
      l.Extends (promises lower) ⟨.lock (.userName name) :: l.held, l.pending, s⟩ →
      Reserved lower UserRow.name name userId ⟨.lock (.userName name) :: l.held, l.pending, s⟩ →
      Q ⟨⟩ ⟨.lock (.userName name) :: l.held, l.pending, s⟩) :
    Meets (promises lower) (claimName userId name) l Q := by
  simp only [claimName, meets_bind, meets_acquire, meets_select, meets_check, hp]
  intro s₁ h₁ s₂ h₂ htaken
  have hmem : ∀ k ∈ l.held, k ∈ .lock (.userName name) :: l.held :=
    fun _ => List.mem_cons_of_mem _
  refine h s₂ h₂.inv ((h₁.extends hmem l.pending).trans (h₂.extends (fun _ => id) l.pending)) ?_
  refine reserved_of_seen rfl List.mem_cons_self ?_
  simpa using htaken

theorem meets_claimEmail {userId : ℤ} {email : String} (hp : ∀ s, (l.pending s).users = s.users)
    (h : ∀ s, (promises lower).Inv s →
      l.Extends (promises lower) ⟨.lock (.userEmail (lower email)) :: l.held, l.pending, s⟩ →
      Reserved lower (lower ∘ UserRow.email) (lower email) userId
        ⟨.lock (.userEmail (lower email)) :: l.held, l.pending, s⟩ →
      Q ⟨⟩ ⟨.lock (.userEmail (lower email)) :: l.held, l.pending, s⟩) :
    Meets (promises lower) (claimEmail lower userId email) l Q := by
  simp only [claimEmail, meets_bind, meets_acquire, meets_select, meets_check, hp]
  intro s₁ h₁ s₂ h₂ htaken
  have hmem : ∀ k ∈ l.held, k ∈ .lock (.userEmail (lower email)) :: l.held :=
    fun _ => List.mem_cons_of_mem _
  refine h s₂ h₂.inv ((h₁.extends hmem l.pending).trans (h₂.extends (fun _ => id) l.pending)) ?_
  refine reserved_of_seen rfl List.mem_cons_self ?_
  simpa using htaken

/-- A row that can be inserted at any later moment. -/
structure Insertable (lower : String → String) (row : UserRow)
    (l : Local AccountTables LockKey Sequence) : Prop where
  id : ∀ s, l.After (promises lower) s → ∀ u ∈ s.users, u.id ≠ row.id
  number : ∃ n : ℕ, row.id = n ∧ .number .users n ∈ l.held
  nameLock : .lock (.userName row.name) ∈ l.held
  emailLock : .lock (.userEmail (lower row.email)) ∈ l.held
  name : Reserved lower UserRow.name row.name row.id l
  email : Reserved lower (lower ∘ UserRow.email) (lower row.email) row.id l

/-- An insertion ends with a row whose id, name and email are nobody else's. -/
theorem meets_insertUser {row : ℤ → UserRow} (hid : ∀ id, (row id).id = id)
    (hp : l.pending = id)
    (h : ∀ n held s, l.Extends (promises lower) ⟨held, id, s⟩ →
      Insertable lower (row n) ⟨held, fun t => { t with users := t.users ++ [row n] }, s⟩ →
      Q ⟨⟩ ⟨held, fun t => { t with users := t.users ++ [row n] }, s⟩) :
    Meets (promises lower) (insertUser lower row) l Q := by
  obtain ⟨held, pending, s₀⟩ := l
  obtain rfl : pending = id := hp
  simp only [insertUser, meets_bind, meets_nextval]
  intro s₁ n h₁ hunused
  have hext₁ : Local.Extends _ _ ⟨.number .users n :: held, id, s₁⟩ :=
    h₁.extends (fun _ => List.mem_cons_of_mem _) id
  apply meets_claimName fun _ => rfl
  intro s₂ _ hext₂ hname
  apply meets_claimEmail fun _ => rfl
  intro s₃ _ hext₃ hemail
  refine h n _ s₃ (hext₁.trans (hext₂.trans hext₃)) ⟨?_, ?_, ?_, ?_, ?_, ?_⟩
  · intro s hs
    rw [hid]
    exact After.unused (hext₂.after s (hext₃.after s ⟨hs.inv, hs.rely⟩)) List.mem_cons_self hunused
  · exact ⟨n, hid n, by simp⟩
  · simp
  · simp
  · rw [hid]
    exact fun s hs => hname s (hext₃.after s ⟨hs.inv, hs.rely⟩)
  · rw [hid]
    exact fun s hs => hemail s ⟨hs.inv, hs.rely⟩

end Indexes

/-- A row that shares no unique column with the others. -/
theorem Identities.append {users : List UserRow} (hs : Identities lower users) {row : UserRow}
    (hid : ∀ u ∈ users, u.id ≠ row.id) (hname : ∀ u ∈ users, u.name ≠ row.name)
    (hemail : ∀ u ∈ users, lower u.email ≠ lower row.email)
    (hnameText : trim row.name = row.name ∧ row.name ≠ "")
    (hemailText : trim row.email = row.email ∧ row.email ≠ "") :
    Identities lower (users ++ [row]) := by
  have hnew : ∀ u ∈ users ++ [row], u ∈ users ∨ u = row := by
    intro u hu
    exact (List.mem_append.mp hu).imp_right List.mem_singleton.mp
  constructor
  · rw [List.map_append]
    refine List.nodup_append.mpr ⟨hs.ids, List.nodup_singleton _, ?_⟩
    intro a ha b hb hab
    obtain ⟨u, hu, rfl⟩ := List.mem_map.mp ha
    obtain rfl := List.mem_singleton.mp hb
    exact hid u hu hab
  · intro u hu v hv heq
    rcases hnew u hu with hu' | rfl
    · rcases hnew v hv with hv' | rfl
      · exact hs.names u hu' v hv' heq
      · exact absurd heq (hname u hu')
    · rcases hnew v hv with hv' | rfl
      · exact absurd heq.symm (hname v hv')
      · rfl
  · intro u hu v hv heq
    rcases hnew u hu with hu' | rfl
    · rcases hnew v hv with hv' | rfl
      · exact hs.emails u hu' v hv' heq
      · exact absurd heq (hemail u hu')
    · rcases hnew v hv with hv' | rfl
      · exact absurd heq.symm (hemail v hv')
      · rfl
  · exact Tables.forall_insert hs.nameTexts hnameText
  · exact Tables.forall_insert hs.emailTexts hemailText

/-- An insertable row keeps the unique columns. -/
theorem Identities.insert {row : UserRow} {l : Local AccountTables LockKey Sequence}
    (hrow : Insertable lower row l) (h : l.After (promises lower) t)
    (hname : trim row.name = row.name ∧ row.name ≠ "")
    (hemail : trim row.email = row.email ∧ row.email ≠ "") :
    Identities lower (t.users ++ [row]) := by
  have hid := hrow.id t h
  apply h.inv.identities.append hid _ _ hname hemail
  · intro u hu heq
    exact hid u hu (hrow.name t h u hu heq)
  · intro u hu heq
    exact hid u hu (hrow.email t h u hu heq)

/-- A commit that inserts an account and changes nothing else keeps the promises. -/
theorem guarantee_insert {row : UserRow} {l : Local AccountTables LockKey Sequence}
    (hrow : Insertable lower row l) (h : l.After (promises lower) t)
    (hname : trim row.name = row.name ∧ row.name ≠ "")
    (hemail : trim row.email = row.email ∧ row.email ≠ "") (hteam : row.teamId = none)
    (hm : t.setupMarker = true) :
    (promises lower).Guarantee l.held t { t with users := t.users ++ [row] } := by
  have hadmins : ∀ id, ActiveAdmin t id →
      ActiveAdmin { t with users := t.users ++ [row] } id := by
    rintro id ⟨u, hu, hadmin⟩
    exact ⟨u, List.mem_append_left _ hu, hadmin⟩
  have hback : ∀ u' ∈ t.users ++ [row], u' ∈ t.users ∨ u' = row := by
    intro u' hu'
    exact (List.mem_append.mp hu').imp_right List.mem_singleton.mp
  have hmembership : Membership { t with users := t.users ++ [row] } := by
    constructor
    · exact Tables.forall_insert h.inv.membership.participants fun hne => absurd hteam hne
    · exact fun hmode => Tables.forall_insert (h.inv.membership.mode hmode) hteam
    · intro team hmem id hcaptain
      obtain ⟨u, hu, hcaptain⟩ := h.inv.membership.captains team hmem id hcaptain
      exact ⟨u, List.mem_append_left _ hu, hcaptain⟩
  apply guarantee_of
  · refine ⟨Identities.insert hrow h hname hemail, hmembership, ?_, ?_⟩
    · exact fun hbefore => absurd (hm.symm.trans hbefore) (by decide)
    · intro _
      obtain ⟨id, hadmin⟩ := h.inv.installed.admin hm
      exact ⟨id, hadmins id hadmin⟩
  · exact id
  · exact .inr ⟨fun _ => rfl, fun _ => rfl, id⟩
  · exact .inr (Nat.le_refl _)
  · refine .inr ⟨Nat.le_refl _, fun _ => Persist.insert (fun _ => ⟨rfl, rfl, rfl⟩) row, ?_⟩
    intro teamId
    show (t.users ++ [row]).countP _ ≤ _
    rw [List.countP_append, List.countP_singleton, hteam]
    exact Nat.le_refl _
  · exact .inr ⟨id, hadmins⟩
  · intro u' hu'
    rcases hback u' hu' with hu' | rfl
    · exact .inr ⟨u', hu', rfl⟩
    · exact .inl hrow.number
  · intro u' hu'
    rcases hback u' hu' with hu' | rfl
    · exact .inr ⟨u', hu', rfl, rfl⟩
    · exact .inl hrow.nameLock
  · intro u' hu'
    rcases hback u' hu' with hu' | rfl
    · exact .inr ⟨u', hu', rfl, rfl⟩
    · exact .inl hrow.emailLock

/-! ## Accounts that are created -/

/-- What the texts of an account have to be. -/
theorem visitor_texts {name email : String}
    (h : (name ≠ "" && name.utf8ByteSize ≤ 128 && ! validEmail name && validEmail email) = true)
    {text : String} (hname : name = trim text) :
    (trim name = name ∧ name ≠ "") ∧ trim email = email ∧ email ≠ "" := by
  simp only [Bool.and_eq_true, decide_eq_true_eq] at h
  refine ⟨⟨?_, h.1.1.1⟩, validEmail_texts h.2⟩
  rw [hname, trim_trim]

theorem setup_keeps (name email : String) : Keeps lower (setup lower name email) := by
  intro s₀ _
  simp only [setup, meets_bind, meets_check, meets_acquire, meets_select]
  intro htexts s₁ _ s₂ h₂ hcomplete s₃ h₃ _
  obtain ⟨hname, hemail⟩ := visitor_texts htexts rfl
  -- the setup is not done, and nobody does it meanwhile
  have hm₂ : s₂.setupMarker = false := by
    simp only [id, AccountTables.isComplete, Bool.not_eq_true', Bool.or_eq_false_iff] at hcomplete
    exact hcomplete.2
  have hm₃ := (After.admins h₃ (by simp)).marker hm₂
  apply meets_insertUser (fun _ => rfl) rfl
  intro n held s₄ hext hrow
  simp only [meets_change, meets_pure]
  intro s h
  have hm := (After.admins (hext.after s ⟨h.inv, h.rely⟩) (by simp)).marker hm₃
  obtain ⟨husers, hteams⟩ := h.inv.installed.before hm
  refine ⟨trivial, ?_⟩
  apply guarantee_of
  · refine ⟨Identities.insert hrow ⟨h.inv, h.rely⟩ hname hemail, ⟨?_, ?_, ?_⟩, by simp, ?_⟩
    · exact Tables.forall_insert h.inv.membership.participants fun hne => absurd rfl hne
    · show _ → ∀ u ∈ s.users ++ [_], u.teamId = none
      rw [husers]
      intro _ u hu
      rw [List.mem_singleton.mp hu]
    · show ∀ team ∈ s.teams, _
      rw [hteams]
      exact fun team hteam => absurd hteam List.not_mem_nil
    · exact fun _ => ⟨_, _, List.mem_append_right _ List.mem_cons_self, rfl, rfl, rfl⟩
  · exact fun _ => rfl
  · exact .inr ⟨fun hd => absurd (hd.symm.trans hm) (by decide),
      fun hd => absurd (hd.symm.trans hm) (by decide), fun _ => rfl⟩
  · exact .inr (Nat.le_refl _)
  · refine .inr ⟨Nat.le_refl _, fun _ => Persist.insert (fun _ => ⟨rfl, rfl, rfl⟩) _, ?_⟩
    intro teamId
    show (s.users ++ [_]).countP _ ≤ _
    rw [List.countP_append, List.countP_singleton]
    exact Nat.le_refl _
  · exact .inl (hext.held _ (by simp))
  · intro u' hu'
    rcases List.mem_append.mp hu' with hu' | hu'
    · exact .inr ⟨u', hu', rfl⟩
    · rw [List.mem_singleton.mp hu']
      exact .inl hrow.number
  · intro u' hu'
    rcases List.mem_append.mp hu' with hu' | hu'
    · exact .inr ⟨u', hu', rfl, rfl⟩
    · rw [List.mem_singleton.mp hu']
      exact .inl hrow.nameLock
  · intro u' hu'
    rcases List.mem_append.mp hu' with hu' | hu'
    · exact .inr ⟨u', hu', rfl, rfl⟩
    · rw [List.mem_singleton.mp hu']
      exact .inl hrow.emailLock

theorem register_keeps (name email : String) : Keeps lower (register lower name email) := by
  intro s₀ _
  simp only [register, meets_bind, meets_check, meets_lockConfigurationShared, meets_select]
  intro s₁ h₁ hcomplete s₂ h₂ s₃ h₃ htexts s₄ h₄ _
  obtain ⟨hname, hemail⟩ := visitor_texts htexts rfl
  have hm₁ : s₁.setupMarker = true := by
    rcases (Bool.or_eq_true _ _).mp hcomplete with hadmin | hmarker
    · obtain ⟨u, hu, -⟩ := List.any_eq_true.mp hadmin
      exact h₁.inv.installed.marker hu
    · exact hmarker
  have hm₄ := h₄.rely.always (h₃.rely.always (h₂.rely.always hm₁))
  apply meets_onlyIf_quiet (F := fun _ => True) h₄.inv
  · simp only [meets_bind, meets_acquire, meets_select, meets_check]
    intro _ s₅ _ s₆ h₆ _
    exact ⟨trivial, h₆.inv, trivial⟩
  intro l₅ hext₅ hpending _ _
  apply meets_insertUser (fun _ => rfl) hpending
  intro n held s₆ hext₆ hrow
  rw [meets_pure]
  intro s h
  have hm := (hext₅.after s (hext₆.after s ⟨h.inv, h.rely⟩)).rely.always hm₄
  exact ⟨trivial, guarantee_insert hrow h hname hemail rfl hm⟩

theorem createUser_keeps (admin : CurrentUser) (request : CreateUser) :
    Keeps lower (createUser lower admin request) := by
  intro s₀ _
  simp only [createUser, rejectDuplicateIdentity, meets_bind, meets_check, meets_liftExcept,
    meets_lockConfigurationShared, meets_revalidate, meets_select]
  intro _ name hname email hemail s₁ _ s₂ h₂ hvalid s₃ h₃ _ _
  have hm₃ := h₃.rely.always (h₂.inv.installed.credential hvalid)
  apply meets_onlyIf_acquire h₃.inv
  intro l₄ hext₄ hpending _ _
  apply meets_insertUser (fun _ => rfl) hpending
  intro n held s₅ hext₅ hrow
  rw [meets_pure]
  intro s h
  have hm := (hext₄.after s (hext₅.after s ⟨h.inv, h.rely⟩)).rely.always hm₃
  exact ⟨trivial, guarantee_insert hrow h (validateName_eq_ok hname) (validateEmail_eq_ok hemail)
    rfl hm⟩

/-! ## Accounts that are deleted -/

theorem anotherActiveAdmin_iff {userId : ℤ} :
    t.anotherActiveAdmin userId = true ↔ ∃ id, id ≠ userId ∧ ActiveAdmin t id := by
  unfold AccountTables.anotherActiveAdmin
  rw [List.any_eq_true]
  constructor
  · rintro ⟨u, hu, hp⟩
    simp only [Bool.and_eq_true, decide_eq_true_eq, Bool.not_eq_true'] at hp
    exact ⟨u.id, hp.1.1, u, hu, rfl, hp.1.2, hp.2⟩
  · rintro ⟨_, hne, u, hu, rfl, htype, hbanned⟩
    refine ⟨u, hu, ?_⟩
    simp only [Bool.and_eq_true, decide_eq_true_eq, Bool.not_eq_true']
    exact ⟨⟨hne, htype⟩, hbanned⟩

theorem deleteUser_keeps (admin : CurrentUser) (userId : ℤ) :
    Keeps lower (deleteUser admin userId) := by
  intro s₀ _
  simp only [deleteUser, guardAdminDelete, requireAnotherActiveAdmin, meets_bind, meets_check,
    meets_lockConfigurationShared, meets_revalidate, meets_acquire, meets_select, meets_onlyIf,
    meets_change, meets_pure]
  intro _ _ s₁ _ s₂ h₂ hvalid s₃ h₃ s₄ h₄ s₅ h₅ s₆ h₆
  have hm₆ := h₆.rely.always (h₅.rely.always (h₄.rely.always (h₃.rely.always
    (h₂.inv.installed.credential hvalid))))
  apply either h₆.inv
  intro s₇ h₇ hanother s₈ h₈ s h
  have k₇ := h₇.since (h₈.before h)
  have hm := k₇.rely.always hm₆
  -- an administrator that stays
  obtain ⟨id, hne, hadmin⟩ : ∃ id, id ≠ userId ∧ ActiveAdmin s id := by
    by_cases hactive : (s₆.users.any fun u =>
        u.id = userId && u.userType = .admin && ! u.banned) = true
    · obtain ⟨id, hne, hadmin⟩ := anotherActiveAdmin_iff.mp (hanother hactive)
      exact ⟨id, hne, (After.admins (h₈.before h) (by simp)).active id hadmin⟩
    · obtain ⟨id, hadmin⟩ := h₆.inv.installed.admin hm₆
      refine ⟨id, ?_, (After.admins k₇ (by simp)).active id hadmin⟩
      rintro rfl
      obtain ⟨u, hu, hid, htype, hbanned⟩ := hadmin
      refine hactive (List.any_eq_true.mpr ⟨u, hu, ?_⟩)
      simp only [Bool.and_eq_true, decide_eq_true_eq, Bool.not_eq_true']
      exact ⟨⟨hid, htype⟩, hbanned⟩
  have hback : ∀ u ∈ s.users.filter (·.id ≠ userId), u ∈ s.users :=
    fun u hu => (List.mem_filter.mp hu).1
  have hs := h.inv.identities
  refine ⟨trivial, ?_⟩
  apply guarantee_of
  · refine ⟨⟨hs.ids.sublist (List.filter_sublist.map _), ?_, ?_, ?_, ?_⟩, ⟨?_, ?_, ?_⟩, ?_, ?_⟩
    · exact fun u hu v hv => hs.names u (hback u hu) v (hback v hv)
    · exact fun u hu v hv => hs.emails u (hback u hu) v (hback v hv)
    · exact fun u hu => hs.nameTexts u (hback u hu)
    · exact fun u hu => hs.emailTexts u (hback u hu)
    · exact fun u hu => h.inv.membership.participants u (hback u hu)
    · exact fun hmode u hu => h.inv.membership.mode hmode u (hback u hu)
    · intro team hteam captain hcaptain
      obtain ⟨team₀, hteam₀, ⟨-, rfl⟩ | ⟨hp, rfl⟩⟩ := mem_update.mp hteam
      · cases hcaptain
      · -- the account was not captain of the team
        obtain ⟨u, hu, hid, hteamId⟩ := h.inv.membership.captains team₀ hteam₀ captain hcaptain
        refine ⟨u, List.mem_filter.mpr ⟨hu, decide_eq_true ?_⟩, hid, hteamId⟩
        intro huid
        refine of_decide_eq_false hp ?_
        rw [hcaptain, ← hid, huid]
    · exact fun hbefore => absurd (hm.symm.trans hbefore) (by decide)
    · obtain ⟨u, hu, hid, hactive⟩ := hadmin
      refine fun _ => ⟨id, u, List.mem_filter.mpr ⟨hu, decide_eq_true ?_⟩, hid, hactive⟩
      rw [hid]
      exact hne
  · exact fun _ => hm
  · exact .inr ⟨fun _ => rfl, fun _ => rfl, fun _ => hm⟩
  · right
    apply Nat.le_of_eq
    exact activeTeams_update rfl fun _ _ => ⟨rfl, rfl⟩
  · exact .inl (by simp)
  · exact .inl (by simp)
  · exact fun u hu => .inr ⟨u, hback u hu, rfl⟩
  · exact fun u hu => .inr ⟨u, hback u hu, rfl, rfl⟩
  · exact fun u hu => .inr ⟨u, hback u hu, rfl, rfl⟩

/-! ## Accounts that are updated -/

/-- An administrator is active who is not the account, or whom the update leaves active. -/
def Remains (userId : ℤ) (request : PatchUser) (t : AccountTables) : Prop :=
  ∃ id, ActiveAdmin t id ∧
    (id ≠ userId ∨ request.userType.getD .admin = .admin ∧ request.banned.getD false = false)

/-- What is known when the row of the account is read. -/
structure Opened (lower : String → String) (userId : ℤ) (request : PatchUser)
    (l : Local AccountTables LockKey Sequence) : Prop where
  pending : l.pending = id
  inv : Wellformed lower l.store
  marker : l.store.setupMarker = true
  configuration : .lock (.configuration false) ∈ l.held
  membership : (request.userType.isSome || request.teamId.isSome) = true →
    .lock .teamMembership ∈ l.held
  administrators : (request.userType.isSome || request.banned.isSome) = true →
    .lock .setupInvariant ∈ l.held
  remains : ∀ s, l.After (promises lower) s → Remains userId request s

section Updates

variable {l : Local AccountTables LockKey Sequence} {userId : ℤ} {request : PatchUser}
  {admin : Bool} {previous : UserRow}

/-- The guard of administrators leaves one of them, whoever is at work meanwhile. -/
theorem guardAdminUpdate_remains (hp : l.pending = id) (hm : l.store.setupMarker = true) :
    Meets (promises lower) (guardAdminUpdate userId request.userType request.banned) l fun _ l' =>
      l'.pending = l.pending ∧ (promises lower).Inv l'.store ∧
        .lock .setupInvariant ∈ l'.held ∧
        ∀ s, l'.After (promises lower) s → Remains userId request s := by
  simp only [guardAdminUpdate, requireAnotherActiveAdmin, meets_bind, meets_acquire, meets_select,
    meets_onlyIf, meets_check, hp, id]
  intro s₁ h₁ s₂ h₂
  have hm₂ := h₂.rely.always (h₁.rely.always hm)
  have hadmins : ∀ {s s'}, Local.After (promises lower)
      ⟨.lock .setupInvariant :: l.held, fun a => a, s⟩ s' → KeepAdmins s s' :=
    fun h => After.admins h List.mem_cons_self
  apply either h₂.inv
  intro s₃ h₃ hanother
  refine ⟨trivial, h₃.inv, List.mem_cons_self, fun s h => ?_⟩
  obtain ⟨id, hadmin⟩ := h₂.inv.installed.admin hm₂
  have hstays := (hadmins (h₃.since h)).active id hadmin
  by_cases hid : id = userId
  · subst hid
    obtain ⟨u, hu, huid, htype, hbanned⟩ := hadmin
    -- the account is the active administrator
    have hcurrent : s₂.user id = some u := by
      rcases hrow : s₂.user id with _ | v
      · exact absurd huid (user_none hrow u hu)
      · obtain ⟨hv, hvid⟩ := user_eq hrow
        rw [h₂.inv.identities.unique hv hu (hvid.trans huid.symm)]
    by_cases hdeactivates : wouldDeactivateAdmin u request.userType request.banned = true
    · obtain ⟨other, hne, hother⟩ :=
        anotherActiveAdmin_iff.mp (hanother (by rw [hcurrent]; exact hdeactivates))
      exact ⟨other, (hadmins h).active other hother, .inl hne⟩
    · refine ⟨id, hstays, .inr ?_⟩
      simpa [wouldDeactivateAdmin, htype, hbanned] using hdeactivates
  · exact ⟨id, hstays, .inl hid⟩

theorem openUpdate_opened (actor : CurrentUser) (s₀ : AccountTables)
    (hadmin : admin = true ∨
      request.userType = none ∧ request.banned = none ∧ request.teamId = none) :
    Meets (promises lower) (openUpdate actor userId request admin) ⟨[], id, s₀⟩
      fun _ l => Opened lower userId request l := by
  simp only [openUpdate, meets_bind, meets_lockConfigurationShared, meets_revalidate]
  intro s₁ _ s₂ h₂ hvalid
  have hm₂ := h₂.inv.installed.credential hvalid
  apply meets_onlyIf_acquire h₂.inv
  intro l₃ hext₃ hpending₃ hinv₃ _
  apply meets_onlyIf_quiet (F := fun l => .lock .teamMembership ∈ l.held) hinv₃
  · simp only [meets_bind, meets_check, meets_acquire]
    exact fun _ _ s hs => ⟨trivial, hs.inv, List.mem_cons_self⟩
  intro l₄ hext₄ hpending₄ hinv₄ hmembership
  have hext := hext₃.trans hext₄
  have hp : l₄.pending = id := hpending₄.trans hpending₃
  have hm : ∀ s, l₄.After (promises lower) s → s.setupMarker = true :=
    fun s hs => (hext.after s hs).rely.always hm₂
  apply meets_onlyIf_quiet (F := fun l => .lock .setupInvariant ∈ l.held ∧
    ∀ s, l.After (promises lower) s → Remains userId request s) hinv₄
  · exact fun _ => guardAdminUpdate_remains hp (hm _ (Local.After.refl hinv₄))
  intro l₅ hext₅ hpending₅ hinv₅ hguard
  have hm₅ : ∀ s, l₅.After (promises lower) s → s.setupMarker = true :=
    fun s hs => hm s (hext₅.after s hs)
  refine ⟨hpending₅.trans hp, hinv₅, hm₅ _ (Local.After.refl hinv₅),
    hext₅.held _ (hext.held _ (by simp)), ?_, ?_, ?_⟩
  · intro hwrites
    refine hext₅.held _ (hmembership ?_)
    rcases hadmin with rfl | ⟨htype, -, hteam⟩
    · simpa only [Bool.true_and, Bool.or_comm] using hwrites
    · rw [htype, hteam] at hwrites
      cases hwrites
  · intro hwrites
    rcases hadmin with rfl | ⟨htype, hbanned, -⟩
    · exact (hguard rfl).1
    · rw [htype, hbanned] at hwrites
      cases hwrites
  · intro s hs
    rcases hadmin with rfl | ⟨htype, hbanned, -⟩
    · exact (hguard rfl).2 s hs
    · obtain ⟨id, hactive⟩ := hs.inv.installed.admin (hm₅ s hs)
      refine ⟨id, hactive, .inr ?_⟩
      rw [htype, hbanned]
      exact ⟨rfl, rfl⟩

/-- The account leaves its previous team as its captain, if it moves. -/
structure Leaves (userId : ℤ) (previous : Option ℤ) (moves : Prop)
    (leave : List TeamRow → List TeamRow) : Prop where
  counted : ∀ t : AccountTables, { t with teams := leave t.teams }.activeTeams = t.activeTeams
  captains : ∀ teams, ∀ team ∈ leave teams, ∀ id, team.captainId = some id →
    team ∈ teams ∧ (moves → id = userId → previous ≠ some team.id)

/-- What is known when the team of an account is decided. -/
structure Moved (lower : String → String) (userId : ℤ) (request : PatchUser) (admin : Bool)
    (previous : UserRow) (teamId : Option (Option ℤ)) (leave : List TeamRow → List TeamRow)
    (l : Local AccountTables LockKey Sequence) : Prop where
  inv : (promises lower).Inv l.store
  leaves : Leaves userId previous.teamId (teamId.getD previous.teamId ≠ previous.teamId) leave
  participant : teamId.getD previous.teamId ≠ none →
    request.userType.getD previous.userType = .user
  mode : admin = true → ∀ s, l.After (promises lower) s → s.settings.userMode = .users →
    teamId.getD previous.teamId = none
  same : request.userType = none → request.teamId = none → teamId = none

theorem leaves_captain {previousTeamId : ℤ} {moves : Prop} :
    Leaves userId (some previousTeamId) moves (update
      (fun team => team.id = previousTeamId && team.captainId = some userId)
      fun team => { team with captainId := none }) := by
  constructor
  · intro t
    exact activeTeams_update rfl fun _ _ => ⟨rfl, rfl⟩
  · intro teams team hteam id hcaptain
    obtain ⟨team₀, hteam₀, ⟨-, rfl⟩ | ⟨hp, rfl⟩⟩ := mem_update.mp hteam
    · cases hcaptain
    · refine ⟨hteam₀, ?_⟩
      rintro - rfl heq
      simp [hcaptain, Option.some.inj heq] at hp

/-- What the update does with the team of the account. -/
theorem moves_iff {teamId : Option (Option ℤ)} {previousTeamId : Option ℤ} :
    (teamId.isSome && teamId.join ≠ previousTeamId) = true ↔
      teamId.getD previousTeamId ≠ previousTeamId := by
  rcases teamId with _ | teamId
  · simp
  · simp

theorem moveTeam_moved (hp : l.pending = id) (hinv : (promises lower).Inv l.store)
    (hm : l.store.setupMarker = true) (hconf : .lock (.configuration false) ∈ l.held)
    (hprevious : previous.teamId ≠ none → previous.userType = .user) :
    Meets (promises lower) (moveTeam userId request admin previous) l fun teamId l' =>
      ∃ leave, l'.pending = (fun t => { t with teams := leave t.teams }) ∧
        Moved lower userId request admin previous teamId leave l' := by
  simp only [moveTeam, meets_bind, meets_check]
  intro hassigned
  simp only [Bool.or_eq_true, decide_eq_true_eq, Option.isNone_iff_eq_none] at hassigned
  -- the team that is written
  generalize hteam : (if (request.userType.getD previous.userType ≠ .user &&
    previous.teamId.isSome) = true then some none else request.teamId) = teamId
  have hparticipant : teamId.getD previous.teamId ≠ none →
      request.userType.getD previous.userType = .user := by
    intro hne
    by_contra htype
    subst hteam
    rcases hteamId : previous.teamId with _ | previousTeamId
    · rcases hrequest : request.teamId with _ | _ | requested
      · simp [hteamId, hrequest] at hne
      · simp [hteamId, hrequest] at hne
      · simp [hrequest, htype] at hassigned
    · simp [hteamId, htype] at hne
  have hsame : request.userType = none → request.teamId = none → teamId = none := by
    intro htype hrequest
    subst hteam
    rw [if_neg, hrequest]
    simp only [htype, Option.getD_none, Bool.and_eq_true, decide_eq_true_eq,
      Option.isSome_iff_ne_none, not_and_or, not_not]
    by_cases hnone : previous.teamId = none
    · exact .inr hnone
    · exact .inl (hprevious hnone)
  apply meets_onlyIf_quiet (F := fun l' => ∀ s, l'.After (promises lower) s →
    s.settings.userMode = .users → teamId.getD previous.teamId = none) hinv
  · simp only [meets_bind, meets_select, meets_check, hp, id]
    intro _ s₁ h₁ hallowed
    refine ⟨trivial, h₁.inv, fun s h hmode => ?_⟩
    have hsettings := (After.settings h hconf).settings (h₁.rely.always hm)
    have hmode₁ : s₁.settings.userMode = .users := by
      rw [← show s.settings = s₁.settings from hsettings]
      exact hmode
    simpa [teamAssignmentAllowed, hmode₁] using hallowed
  intro l₁ hext₁ hpending₁ hinv₁ hmode
  have hp₁ : l₁.pending = id := hpending₁.trans hp
  obtain ⟨held₁, pending, s₁⟩ := l₁
  obtain rfl : pending = id := hp₁
  rcases hteamId : previous.teamId with _ | previousTeamId
  · simp only [meets_pure]
    refine ⟨id, rfl, hinv₁, ⟨fun _ => rfl, ?_⟩, hparticipant, hmode, hsame⟩
    rw [hteamId]
    exact fun _ _ hmem _ _ => ⟨hmem, fun _ _ hnone => by cases hnone⟩
  · simp only [meets_onlyIf, clearCaptain, meets_bind, meets_acquire, meets_updateTeams, meets_pure]
    constructor
    · intro _ s₂ h₂
      refine ⟨_, rfl, h₂.inv, ?_, hparticipant, ?_, hsame⟩
      · rw [hteamId]
        exact leaves_captain
      · intro hadmin s h
        exact hmode hadmin s (h₂.before ⟨h.inv, h.rely⟩)
    · intro hstays
      refine ⟨id, rfl, hinv₁, ⟨fun _ => rfl, ?_⟩, hparticipant, hmode, hsame⟩
      refine fun _ _ hmem _ _ => ⟨hmem, fun hmoves => absurd (moves_iff.mpr hmoves) ?_⟩
      rw [hteamId, hstays]
      decide

theorem requireTeam_quiet {teamId : Option (Option ℤ)} (hinv : (promises lower).Inv l.store) :
    Meets (promises lower) (requireTeam teamId) l fun _ l' =>
      l'.pending = l.pending ∧ (promises lower).Inv l'.store := by
  rcases teamId with _ | _ | teamId
  · exact ⟨rfl, hinv⟩
  · exact ⟨rfl, hinv⟩
  · simp only [requireTeam, meets_bind, meets_acquire, meets_fetchOne, meets_pure]
    exact fun s₁ _ s₂ h₂ _ _ => ⟨trivial, h₂.inv⟩

/-- The values that an update writes are reserved for the account. -/
def Claimed (lower : String → String) (userId : ℤ) (name email : Option String)
    (l : Local AccountTables LockKey Sequence) : Prop :=
  (∀ n, name = some n → .lock (.userName n) ∈ l.held ∧ Reserved lower UserRow.name n userId l) ∧
    ∀ e, email = some e → .lock (.userEmail (lower e)) ∈ l.held ∧
      Reserved lower (lower ∘ UserRow.email) (lower e) userId l

theorem claims_claimed {name email : Option String} (hp : ∀ s, (l.pending s).users = s.users) :
    Meets (promises lower) (do
      claimField (claimName userId) name
      claimField (claimEmail lower userId) email) l fun _ l' =>
        l'.pending = l.pending ∧ Claimed lower userId name email l' := by
  -- the email, when the name is done
  have hemail : ∀ l' : Local AccountTables LockKey Sequence, l'.pending = l.pending →
      (∀ n, name = some n →
        .lock (.userName n) ∈ l'.held ∧ Reserved lower UserRow.name n userId l') →
      Meets (promises lower) (claimField (claimEmail lower userId) email) l' fun _ l'' =>
        l''.pending = l.pending ∧ Claimed lower userId name email l'' := by
    intro l' hpending hname
    rcases email with _ | email
    · exact ⟨hpending, hname, nofun⟩
    · apply meets_claimEmail (by rw [hpending]; exact hp)
      intro s _ hext hreserved
      refine ⟨hpending, fun n hn => ?_, ?_⟩
      · exact ⟨hext.held _ (hname n hn).1, (hname n hn).2.extends hext⟩
      · rintro _ ⟨⟩
        exact ⟨List.mem_cons_self, hreserved⟩
  rw [meets_bind]
  rcases name with _ | name
  · exact hemail l rfl nofun
  · apply meets_claimName hp
    intro s _ _ hreserved
    refine hemail _ rfl ?_
    rintro _ ⟨⟩
    exact ⟨List.mem_cons_self, hreserved⟩

/-- The values are claimed one after the other. -/
theorem meets_claims {name email : Option String}
    {Q : Unit → Local AccountTables LockKey Sequence → Prop}
    (hp : ∀ s, (l.pending s).users = s.users)
    (h : ∀ l', l.Extends (promises lower) l' → l'.pending = l.pending →
      Claimed lower userId name email l' → Q ⟨⟩ l') :
    Meets (promises lower) (claimField (claimName userId) name) l fun _ l' =>
      Meets (promises lower) (claimField (claimEmail lower userId) email) l' Q := by
  refine meets_bind.mp (Meets.extends ((claims_claimed hp).mono ?_))
  rintro _ l' ⟨hpending, hclaimed⟩ hext
  exact h l' hext hpending hclaimed

end Updates

/-- A row after an update has its own values, or those that were claimed. -/
theorem written_row {users : List UserRow} {userId : ℤ} {request : PatchUser}
    {name email : Option String} {teamId : Option (Option ℤ)} {u' : UserRow}
    (hu' : u' ∈ update (·.id = userId) (request.apply name email teamId) users) :
    ∃ u ∈ users, u.id = u'.id ∧
      (u.name = u'.name ∨ u.id = userId ∧ name = some u'.name) ∧
      (u.email = u'.email ∨ u.id = userId ∧ email = some u'.email) := by
  obtain ⟨u, hu, ⟨hp, rfl⟩ | ⟨-, rfl⟩⟩ := mem_update.mp hu'
  · refine ⟨u, hu, rfl, ?_, ?_⟩
    · rcases name with _ | name
      · exact .inl rfl
      · exact .inr ⟨of_decide_eq_true hp, rfl⟩
    · rcases email with _ | email
      · exact .inl rfl
      · exact .inr ⟨of_decide_eq_true hp, rfl⟩
  · exact ⟨u, hu, rfl, .inl rfl, .inl rfl⟩

/-- A unique column stays so when a row is given a value nobody else has. -/
theorem unique_written {κ : Type} {users : List UserRow} {f : UserRow → κ} {userId : ℤ} {k : κ}
    {written : Prop} (hkey : ∀ u ∈ users, ∀ v ∈ users, f u = f v → u.id = v.id)
    (hvalue : written → ∀ u ∈ users, f u = k → u.id = userId) {u v : UserRow}
    (hu : u ∈ users) (hv : v ∈ users) (huk : f u = k ∨ u.id = userId ∧ written)
    (hvk : f v = k ∨ v.id = userId ∧ written) : u.id = v.id := by
  rcases huk with huk | ⟨huid, hwritten⟩
  · rcases hvk with hvk | ⟨hvid, hwritten⟩
    · exact hkey u hu v hv (huk.trans hvk.symm)
    · exact (hvalue hwritten u hu huk).trans hvid.symm
  · rcases hvk with hvk | ⟨hvid, -⟩
    · exact huid.trans (hvalue hwritten v hv hvk).symm
    · exact huid.trans hvid.symm

/-- What an update writes keeps the unique columns, if its values were claimed. -/
theorem Identities.written {users : List UserRow} (hs : Identities lower users) {userId : ℤ}
    {request : PatchUser} {name email : Option String} {teamId : Option (Option ℤ)}
    (hname : ∀ n, name = some n → (trim n = n ∧ n ≠ "") ∧
      ∀ u ∈ users, u.name = n → u.id = userId)
    (hemail : ∀ e, email = some e → (trim e = e ∧ e ≠ "") ∧
      ∀ u ∈ users, lower u.email = lower e → u.id = userId) :
    Identities lower (update (·.id = userId) (request.apply name email teamId) users) := by
  constructor
  · have hids : (update (·.id = userId) (request.apply name email teamId) users).map UserRow.id =
        users.map UserRow.id := by
      rw [update, List.map_map]
      refine List.map_congr_left fun u _ => ?_
      show (updateRow _ _ u).id = u.id
      rcases updateRow_cases (·.id = userId) (request.apply name email teamId) u with
        ⟨-, heq⟩ | ⟨-, heq⟩
      · rw [heq]
      · rw [heq]
        rfl
    rw [hids]
    exact hs.ids
  · intro u' hu' v' hv' heq
    obtain ⟨u, hu, huid, huname, -⟩ := written_row hu'
    obtain ⟨v, hv, hvid, hvname, -⟩ := written_row hv'
    rw [← heq] at hvname
    rw [← huid, ← hvid]
    exact unique_written hs.names (fun hn => (hname _ hn).2) hu hv huname hvname
  · intro u' hu' v' hv' heq
    obtain ⟨u, hu, huid, -, huemail⟩ := written_row hu'
    obtain ⟨v, hv, hvid, -, hvemail⟩ := written_row hv'
    rw [← huid, ← hvid]
    -- the values that are written agree up to their case
    have hclaimed : (∃ e, email = some e ∧ lower e = lower u'.email) →
        ∀ w ∈ users, (lower ∘ UserRow.email) w = lower u'.email → w.id = userId := by
      rintro ⟨e, he, heq⟩ w hw hwe
      exact (hemail e he).2 w hw (hwe.trans heq.symm)
    apply unique_written hs.emails hclaimed hu hv
    · exact huemail.imp (congrArg lower) fun h => ⟨h.1, u'.email, h.2, rfl⟩
    · rw [heq]
      exact hvemail.imp (congrArg lower) fun h => ⟨h.1, v'.email, h.2, rfl⟩
  · intro u' hu'
    obtain ⟨u, hu, -, huname, -⟩ := written_row hu'
    rcases huname with heq | ⟨-, hn⟩
    · rw [← heq]
      exact hs.nameTexts u hu
    · exact (hname _ hn).1
  · intro u' hu'
    obtain ⟨u, hu, -, -, huemail⟩ := written_row hu'
    rcases huemail with heq | ⟨-, he⟩
    · rw [← heq]
      exact hs.emailTexts u hu
    · exact (hemail _ he).1

/-- The team that an update gives an account fits its type and the mode, and it leaves its
previous team as its captain. -/
structure Fits (userId : ℤ) (request : PatchUser) (teamId : Option (Option ℤ))
    (leave : List TeamRow → List TeamRow) (t : AccountTables) (u : UserRow) : Prop where
  participant : teamId.getD u.teamId ≠ none → request.userType.getD u.userType = .user
  mode : t.settings.userMode = .users → teamId.getD u.teamId = none
  leaves : Leaves userId u.teamId (teamId.getD u.teamId ≠ u.teamId) leave

/-- An update of an account keeps members and captains. -/
theorem Membership.written (h : Membership t) {userId : ℤ} {request : PatchUser}
    {name email : Option String} {teamId : Option (Option ℤ)}
    {leave : List TeamRow → List TeamRow}
    (hold : ∀ teams, ∀ team ∈ leave teams, ∀ id, team.captainId = some id → team ∈ teams)
    (hfits : ∀ u ∈ t.users, u.id = userId → Fits userId request teamId leave t u) :
    Membership { t with
      users := update (·.id = userId) (request.apply name email teamId) t.users
      teams := leave t.teams } := by
  constructor
  · refine Tables.forall_update h.participants ?_
    intro u hu hp _
    exact (hfits u hu (of_decide_eq_true hp)).participant
  · intro hmode
    refine Tables.forall_update (h.mode hmode) ?_
    intro u hu hp _
    exact (hfits u hu (of_decide_eq_true hp)).mode hmode
  · intro team hteam id hcaptain
    obtain ⟨u, hu, hid, hteamId⟩ := h.captains team (hold t.teams team hteam id hcaptain) id hcaptain
    by_cases hp : u.id = userId
    · refine ⟨_, mem_update.mpr ⟨u, hu, .inl ⟨decide_eq_true hp, rfl⟩⟩, hid, ?_⟩
      -- a captain that moves has left
      have hleaves := (hfits u hu hp).leaves.captains t.teams team hteam id hcaptain
      show teamId.getD u.teamId = _
      by_contra hne
      exact hleaves.2 (fun heq => hne (heq.trans hteamId)) (hid.symm.trans hp) hteamId
    · exact ⟨u, mem_update.mpr ⟨u, hu, .inr ⟨decide_eq_false hp, rfl⟩⟩, hid, hteamId⟩

section Written

variable {userId : ℤ} {request : PatchUser} {name email : Option String}
  {teamId : Option (Option ℤ)}

/-- The administrator that remains is active after the update. -/
theorem Remains.written (h : Remains userId request t)
    (husers : t'.users = update (·.id = userId) (request.apply name email teamId) t.users) :
    ∃ id, ActiveAdmin t' id := by
  obtain ⟨id, ⟨u, hu, hid, htype, hbanned⟩, hremains⟩ := h
  refine ⟨id, ?_⟩
  rw [ActiveAdmin, husers]
  by_cases hp : u.id = userId
  · obtain ⟨hasked, hallowed⟩ := hremains.resolve_left fun hne => hne (hid.symm.trans hp)
    refine ⟨_, mem_update.mpr ⟨u, hu, .inl ⟨decide_eq_true hp, rfl⟩⟩, hid, ?_, ?_⟩
    · exact (congrArg request.userType.getD htype).trans hasked
    · exact (congrArg request.banned.getD hbanned).trans hallowed
  · exact ⟨u, mem_update.mpr ⟨u, hu, .inr ⟨decide_eq_false hp, rfl⟩⟩, hid, htype, hbanned⟩

/-- An update of other columns keeps the administrators. -/
theorem KeepAdmins.written (htype : request.userType = none) (hbanned : request.banned = none)
    (hmarker : t'.setupMarker = t.setupMarker)
    (husers : t'.users = update (·.id = userId) (request.apply name email teamId) t.users) :
    KeepAdmins t t' := by
  refine ⟨fun hm => hmarker.trans hm, ?_⟩
  rintro id ⟨u, hu, hid, hadmin⟩
  rw [ActiveAdmin, husers]
  by_cases hp : u.id = userId
  · refine ⟨_, mem_update.mpr ⟨u, hu, .inl ⟨decide_eq_true hp, rfl⟩⟩, hid, ?_⟩
    simp only [PatchUser.apply, htype, hbanned, Option.getD_none]
    exact hadmin
  · exact ⟨u, mem_update.mpr ⟨u, hu, .inr ⟨decide_eq_false hp, rfl⟩⟩, hid, hadmin⟩

/-- An update of other columns keeps the members. -/
theorem KeepMembers.written (htype : request.userType = none) (hteam : teamId = none)
    (htransitions : t'.transitions = t.transitions)
    (husers : t'.users = update (·.id = userId) (request.apply name email teamId) t.users) :
    KeepMembers t t' := by
  have hsame : ∀ u, (request.apply name email teamId u).userType = u.userType ∧
      (request.apply name email teamId u).teamId = u.teamId := by
    intro u
    simp only [PatchUser.apply, htype, hteam, Option.getD_none]
    exact ⟨trivial, trivial⟩
  refine ⟨htransitions.ge, ?_, ?_⟩
  · intro _
    rw [husers]
    exact Persist.update (fun _ => ⟨rfl, rfl, rfl⟩) fun u _ _ => ⟨rfl, hsame u⟩
  · intro id
    unfold AccountTables.memberCount
    rw [husers, update, List.countP_map]
    refine (List.countP_congr fun u _ => ?_).le
    show decide ((updateRow _ _ u).teamId = some id) = true ↔ _
    rcases updateRow_cases (·.id = userId) (request.apply name email teamId) u with
      ⟨-, heq⟩ | ⟨-, heq⟩
    · rw [heq]
    · rw [heq, (hsame u).2]

end Written

theorem updateUser_keeps (actor : CurrentUser) (userId : ℤ) (request : PatchUser) (admin : Bool)
    (hadmin : admin = true ∨
      request.userType = none ∧ request.banned = none ∧ request.teamId = none) :
    Keeps lower (updateUser lower actor userId request admin) := by
  intro s₀ _
  simp only [updateUser, meets_bind, meets_liftExcept]
  intro name hname email hemail
  refine (openUpdate_opened actor s₀ hadmin).mono ?_
  rintro _ ⟨held₁, pending, s₁⟩ hopened
  obtain rfl : pending = id := hopened.pending
  simp only [meets_acquire, meets_fetchOne]
  intro s₂ h₂ s₃ h₃ previous hprevious
  obtain ⟨hmem, hid⟩ := user_eq hprevious
  have hext₂ : Local.Extends _ _ ⟨.lock (.user userId) :: held₁, id, s₂⟩ :=
    h₂.extends (fun _ => List.mem_cons_of_mem _) id
  have hext₃ := hext₂.trans (h₃.extends (fun _ => id) id)
  have hm₃ : s₃.setupMarker = true := (h₂.before h₃).rely.always hopened.marker
  refine Meets.extends ((moveTeam_moved rfl h₃.inv hm₃ (hext₃.held _ hopened.configuration)
    (h₃.inv.membership.participants previous hmem)).mono ?_)
  rintro teamId ⟨held₄, pending, s₄⟩ ⟨leave, hpending₄, hmoved⟩ hext₄
  obtain rfl : pending = fun t => { t with teams := leave t.teams } := hpending₄
  simp only [rejectDuplicateIdentity, meets_bind, meets_select, meets_check]
  intro s₅ h₅ _ _
  refine Meets.extends ((requireTeam_quiet h₅.inv).mono ?_)
  rintro _ ⟨held₆, pending, s₆⟩ ⟨hpending₆, -⟩ hext₆
  obtain rfl : pending = fun t => { t with teams := leave t.teams } := hpending₆
  apply meets_claims fun _ => rfl
  rintro ⟨held, pending, s₇⟩ hext₇ hpending₇ ⟨hnames, hemails⟩
  obtain rfl : pending = fun t => { t with teams := leave t.teams } := hpending₇
  simp only [meets_updateUsers, meets_pure]
  intro s h
  have hs : Local.After (promises lower) ⟨held, fun t => { t with teams := leave t.teams }, s₇⟩ s :=
    ⟨h.inv, h.rely⟩
  have hlater : Local.Extends (promises lower) ⟨held₄, fun t => { t with teams := leave t.teams },
      s₄⟩ ⟨held, _, s₇⟩ := (h₅.extends (fun _ => id) _).trans (hext₆.trans hext₇)
  have hext₅ := hext₄.trans hlater
  have hext := hext₃.trans hext₅
  have hm : s.setupMarker = true := (hext.after s hs).rely.always hopened.marker
  -- the account has the type and the team that were read, if the update writes them
  have hprevious : (request.userType.isSome || request.teamId.isSome) = true → ∀ u ∈ s.users,
      u.id = userId → u.userType = previous.userType ∧ u.teamId = previous.teamId := by
    intro hwrites u hu huid
    obtain ⟨u', hu', huid', hsame⟩ := After.member (hext₅.after s hs)
      (hext₃.held _ (hopened.membership hwrites)) (hext₃.held _ hopened.configuration) hmem hm₃
    rwa [h.inv.identities.unique hu hu' (huid.trans (huid'.trans hid).symm)]
  have hkeeps : ¬ (request.userType.isSome || request.teamId.isSome) = true →
      request.userType = none ∧ teamId = none := by
    intro hwrites
    simp only [Bool.or_eq_true, not_or, Option.not_isSome_iff_eq_none] at hwrites
    exact ⟨hwrites.1, hmoved.same hwrites.1 hwrites.2⟩
  have hfits : ∀ u ∈ s.users, u.id = userId → Fits userId request teamId leave s u := by
    intro u hu huid
    by_cases hwrites : (request.userType.isSome || request.teamId.isSome) = true
    · obtain ⟨htype, hteamId⟩ := hprevious hwrites u hu huid
      have hadmin : admin = true := by
        refine hadmin.resolve_right ?_
        rintro ⟨htype, -, hteam⟩
        rw [htype, hteam] at hwrites
        cases hwrites
      refine ⟨?_, ?_, ?_⟩
      · rw [htype, hteamId]
        exact hmoved.participant
      · rw [hteamId]
        exact hmoved.mode hadmin s (hlater.after s hs)
      · rw [hteamId]
        exact hmoved.leaves
    · obtain ⟨htype, rfl⟩ := hkeeps hwrites
      refine ⟨?_, fun hmode => h.inv.membership.mode hmode u hu, hmoved.leaves.counted, ?_⟩
      · rw [htype]
        exact h.inv.membership.participants u hu
      · intro teams team hteam captain hcaptain
        exact ⟨(hmoved.leaves.captains teams team hteam captain hcaptain).1,
          fun hmoves => absurd rfl hmoves⟩
  refine ⟨trivial, ?_⟩
  apply guarantee_of
  · refine ⟨h.inv.identities.written ?_ ?_, h.inv.membership.written ?_ hfits, ?_, ?_⟩
    · intro n hn
      obtain ⟨value, hvalue⟩ := checkField_eq_ok hname hn
      exact ⟨validateName_eq_ok hvalue, (hnames n hn).2 s hs⟩
    · intro e he
      obtain ⟨value, hvalue⟩ := checkField_eq_ok hemail he
      exact ⟨validateEmail_eq_ok hvalue, (hemails e he).2 s hs⟩
    · exact fun teams team hteam captain hcaptain =>
        (hmoved.leaves.captains teams team hteam captain hcaptain).1
    · exact fun hbefore => absurd (hm.symm.trans hbefore) (by decide)
    · exact fun _ => (hopened.remains s (hext.after s hs)).written rfl
  · exact fun _ => hm
  · exact .inr ⟨fun _ => rfl, fun _ => rfl, fun _ => hm⟩
  · exact .inr (hmoved.leaves.counted { s with users := _ }).le
  · by_cases hwrites : (request.userType.isSome || request.teamId.isSome) = true
    · exact .inl (hext.held _ (hopened.membership hwrites))
    · obtain ⟨htype, hteam⟩ := hkeeps hwrites
      exact .inr (KeepMembers.written htype hteam rfl rfl)
  · by_cases hwrites : (request.userType.isSome || request.banned.isSome) = true
    · exact .inl (hext.held _ (hopened.administrators hwrites))
    · simp only [Bool.or_eq_true, not_or, Option.not_isSome_iff_eq_none] at hwrites
      exact .inr (KeepAdmins.written hwrites.1 hwrites.2 rfl rfl)
  · intro u' hu'
    obtain ⟨u, hu, huid, -⟩ := written_row hu'
    exact .inr ⟨u, hu, huid⟩
  · intro u' hu'
    obtain ⟨u, hu, huid, heq | ⟨-, hn⟩, -⟩ := written_row hu'
    · exact .inr ⟨u, hu, huid, heq⟩
    · exact .inl (hnames _ hn).1
  · intro u' hu'
    obtain ⟨u, hu, huid, -, heq | ⟨-, he⟩⟩ := written_row hu'
    · exact .inr ⟨u, hu, huid, congrArg lower heq⟩
    · exact .inl (hemails _ he).1

/-! ## All requests -/

/-- Every request keeps its promises. -/
theorem request_keeps (r : Request) : Keeps lower (r.transaction lower) := by
  cases r with
  | setup name email => exact setup_keeps name email
  | register name email => exact register_keeps name email
  | createUser admin request => exact createUser_keeps admin request
  | updateAdmin admin userId request =>
      intro s hs
      simp only [Request.transaction, updateAdmin, meets_bind, meets_check]
      exact fun _ _ => updateUser_keeps admin userId request true (.inl rfl) s hs
  | updateSelf user request => exact updateUser_keeps user user.id _ false (.inr ⟨rfl, rfl, rfl⟩)
  | deleteUser admin userId => exact deleteUser_keeps admin userId
  | createTeam admin hidden banned => exact createTeam_keeps admin hidden banned
  | createCurrent user => exact createCurrent_keeps user
  | joinCurrent user teamId => exact joinCurrent_keeps user teamId
  | addMember admin teamId userId => exact addMember_keeps admin teamId userId
  | removeMember admin teamId userId => exact removeMember_keeps admin teamId userId
  | updateTeamAdmin admin teamId request =>
      intro s _
      simp only [Request.transaction, updateTeamAdmin, meets_bind, meets_requireTeamMode,
        meets_check]
      exact fun s₁ h₁ _ _ => updateTeam_keeps admin teamId request true s₁ h₁.inv
  | updateCurrent user request =>
      intro s _
      simp only [Request.transaction, updateCurrent, meets_bind, meets_requireTeamMode,
        meets_liftExcept]
      exact fun s₁ h₁ _ teamId _ => updateTeam_keeps user teamId _ false s₁ h₁.inv
  | deleteAdmin admin teamId =>
      intro s _
      simp only [Request.transaction, deleteAdmin, meets_bind, meets_requireTeamMode, meets_check]
      exact fun s₁ h₁ _ _ => deleteTeam_keeps admin teamId none s₁ h₁.inv
  | deleteCurrent user =>
      intro s _
      simp only [Request.transaction, deleteCurrent, meets_bind, meets_requireTeamMode,
        meets_liftExcept]
      exact fun s₁ h₁ _ teamId _ => deleteTeam_keeps user teamId (some user.id) s₁ h₁.inv
  | patchConfigs settings => exact patchConfigs_keeps settings
  | changeMode user targetMode => exact changeMode_keeps user targetMode

/-- There is nobody, and nothing in flight. -/
theorem Initial.sound {s : Portal} (h : Initial s) : (promises lower).Sound s := by
  have hwellformed : Wellformed lower s.store := by
    have husers := h.users
    refine ⟨?_, ⟨?_, ?_, ?_⟩, fun _ => ⟨husers, h.teams⟩, fun hm => ?_⟩
    · rw [husers]
      exact ⟨List.nodup_nil, nofun, nofun, nofun, nofun⟩
    · rw [husers]
      nofun
    · rw [husers]
      exact fun _ => nofun
    · rw [h.teams]
      nofun
    · rw [h.marker] at hm
      cases hm
  refine Protocol.Sound.idle hwellformed ?_ h.running
  rintro (_ | _) n -
  · show ∀ u ∈ s.store.users, _
    rw [h.users]
    nofun
  · trivial

section Runs

variable {guard : Portal → Locking.Label Request Empty → Prop} {s s' : Portal}

/-- **Accounts and teams are well formed in every state of every run.** -/
theorem reach_sound (h : Runs.Reach (portalStep lower) guard Initial s) :
    (promises lower).Sound s :=
  Protocol.invariant request_keeps nofun (fun _ hs => hs.sound) h

theorem reach_wellformed (h : Runs.Reach (portalStep lower) guard Initial s) :
    Wellformed lower s.store := (reach_sound h).inv

/-- **A commit does what its answer says.** -/
theorem reach_effect (h : Runs.Reach (portalStep lower) guard Initial s) {i : ℕ}
    {a : InFlight AccountTables LockKey Sequence String Answer}
    (ha : Slots.at' id s.running i = some a) {answer : Answer}
    (hdone : a.program = .done answer) : Effect answer s.store (a.pending s.store) :=
  (reach_sound h).effect ha hdone

end Runs

end CtfZone.Accounts
