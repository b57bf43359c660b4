/-
# What hints are charged

The purchases of an account take turns.  Nobody else takes turns with them: what a solve counts,
the awards and the cost of a hint can change while a purchase is under way.

* `purchases` : what the purchases promise each other;
* `unlock_keeps` : and keep;
* `unlock_sees` : what a purchase has seen;
* `hints_charged_once` : the main result.
-/
import CtfZone.HintPurchases
import CtfZone.Sightings

namespace CtfZone.Hints

open Submissions Challenges
open Locking.Program SharedLocks
open Locking (Hold)
open Runs
open Slots (at')

variable {crates : Crates}

/-! ## What a purchase does -/

/-- The number under which the purchases of an account take turns. -/
def lockNumber : Account → ℤ
  | .user id => id
  | .team id => -id

/-- The account with a number. -/
def lockedAccount (teamMode : Bool) (number : ℤ) : Account :=
  if teamMode then .team (-number) else .user number

/-- The unlocks of an account. -/
def HintTables.unlocksOf (t : HintTables crates) (account : Account) : List UnlockRow :=
  t.unlocks.filter fun row => account.owns row.userId row.teamId

/-- What an account has unlocked is up to its unlocks. -/
theorem HintTables.unlocked_eq (t : HintTables crates) (account : Account) (unlockType : String)
    (target : ℤ) : t.unlocked account unlockType target =
      (t.unlocksOf account).any fun row => row.target = target && row.unlockType = unlockType := by
  rw [HintTables.unlocked, HintTables.unlocksOf, List.any_filter]
  refine congrArg t.unlocks.any ?_
  funext row
  rw [UnlockRow.covers, Bool.and_comm]

/-- What is charged for a cost: nothing, if it is not positive, or a negative award of the
account. -/
def Charges (account : Account) (cost : ℤ) (awards : List AwardRow) : Prop :=
  (cost ≤ 0 ∧ awards = []) ∨
    (0 < cost ∧ ∃ award, awards = [award] ∧ award.value = some (-cost) ∧
      account.owns award.userId award.teamId = true)

/-- What the commit of a purchase does. -/
structure Purchase.Effect (purchase : Purchase) (t t' : HintTables crates) : Prop where
  mode : purchase.account = lockedAccount t.portal.teamMode (lockNumber purchase.account)
  fresh : t.unlocked purchase.account purchase.row.unlockType purchase.row.target = false
  owned : purchase.account.owns purchase.row.userId purchase.row.teamId = true
  charges : Charges purchase.account purchase.cost purchase.awards
  tables : t' = { t with
    unlocks := t.unlocks ++ [purchase.row], awards := t.awards ++ purchase.awards }

/-- The row of a purchase covers what it has bought. -/
theorem Purchase.Effect.covers {purchase : Purchase} {t t' : HintTables crates}
    (h : purchase.Effect t t') :
    purchase.row.covers purchase.account purchase.row.unlockType purchase.row.target = true := by
  simp [UnlockRow.covers, h.owned]

/-- What has been bought is unlocked. -/
theorem Purchase.Effect.unlocked {purchase : Purchase} {t t' : HintTables crates}
    (h : purchase.Effect t t') :
    t'.unlocked purchase.account purchase.row.unlockType purchase.row.target = true := by
  rw [h.tables]
  refine List.any_eq_true.mpr ⟨purchase.row, ?_, h.covers⟩
  exact List.mem_append_right _ (List.mem_singleton_self _)

/-- A purchase adds one row to the unlocks of its account. -/
theorem Purchase.Effect.unlocksOf {purchase : Purchase} {t t' : HintTables crates}
    (h : purchase.Effect t t') :
    t'.unlocksOf purchase.account = t.unlocksOf purchase.account ++ [purchase.row] := by
  rw [h.tables]
  simp [HintTables.unlocksOf, List.filter_append, h.owned]

/-! ## What the purchases promise -/

/-- The unlocks stay, and so does the user mode. -/
structure Stay (t t' : HintTables crates) : Prop where
  unlocks : t.unlocks <+: t'.unlocks
  teamMode : t'.portal.teamMode = t.portal.teamMode

theorem Stay.refl (t : HintTables crates) : Stay t t := ⟨List.prefix_rfl, rfl⟩

theorem Stay.trans {t t' t'' : HintTables crates} (h : Stay t t') (h' : Stay t' t'') :
    Stay t t'' :=
  ⟨h.unlocks.trans h'.unlocks, h'.teamMode.trans h.teamMode⟩

/-- What is unlocked stays so. -/
theorem Stay.unlocked {t t' : HintTables crates} (h : Stay t t') {account : Account}
    {unlockType : String} {target : ℤ} (hu : t.unlocked account unlockType target = true) :
    t'.unlocked account unlockType target = true := by
  obtain ⟨row, hmem, hcovers⟩ := List.any_eq_true.mp hu
  exact List.any_eq_true.mpr ⟨row, h.unlocks.subset hmem, hcovers⟩

/-- The unlocks of an account are no fewer. -/
theorem Stay.unlocksOf {t t' : HintTables crates} (h : Stay t t') (account : Account) :
    t.unlocksOf account <+: t'.unlocksOf account := h.unlocks.filter _

/-- The unlocks of the account with a number are as they were. -/
structure SameUnlocks (number : ℤ) (t t' : HintTables crates) : Prop where
  teamMode : t'.portal.teamMode = t.portal.teamMode
  unlocks : t'.unlocksOf (lockedAccount t.portal.teamMode number) =
    t.unlocksOf (lockedAccount t.portal.teamMode number)

/-- What the purchases promise each other. -/
def purchases (crates : Crates) :
    Protocol (HintTables crates) LockKey Sequence Purchase where
  Inv _ := True
  Always := Stay
  Keep key t t' :=
    match key with
    | .account number => SameUnlocks number t t'
    | _ => True
  Unused _ _ _ := True
  Effect purchase t t' := purchase.Effect t t'
  always_refl := Stay.refl
  always_trans := Stay.trans
  keep_refl key t := by
    rcases key with _ | number | _ | _
    · trivial
    · exact ⟨rfl, rfl⟩
    · trivial
    · trivial
  keep_trans := by
    intro key t t' t'' h h'
    rcases key with _ | number | _ | _
    · trivial
    · refine ⟨h'.teamMode.trans h.teamMode, ?_⟩
      have hunlocks := h'.unlocks
      rw [h.teamMode] at hunlocks
      exact hunlocks.trans h.unlocks
    · trivial
    · trivial

/-- A change that leaves the unlocks and the user mode keeps every promise. -/
theorem guarantee_beside {held : List (Hold LockKey Sequence)} {t t' : HintTables crates}
    (hunlocks : t'.unlocks = t.unlocks) (hmode : t'.portal.teamMode = t.portal.teamMode) :
    (purchases crates).Guarantee held t t' := by
  refine ⟨trivial, ⟨?_, hmode⟩, ?_⟩
  · exact hunlocks ▸ List.prefix_rfl
  · rintro (key | ⟨q, n⟩) _
    · rcases key with _ | number | _ | _
      · trivial
      · refine ⟨hmode, ?_⟩
        rw [HintTables.unlocksOf, HintTables.unlocksOf, hunlocks]
      · trivial
      · trivial
    · exact id

/-- A hint that is created leaves the other tables. -/
theorem createHint_leaves {request : HintInput} {id : ℤ} {t t' : HintTables crates}
    (h : createHint request id t = .ok t') : ∃ hints, t' = { t with hints } := by
  obtain ⟨-, -, h⟩ := bind_eq_ok.mp h
  cases h
  exact ⟨_, rfl⟩

/-- And so does one that is edited. -/
theorem updateHint_leaves {hintId : ℤ} {request : HintPatch} {t t' : HintTables crates}
    (h : updateHint hintId request t = .ok t') : ∃ hints, t' = { t with hints } := by
  obtain ⟨-, -, h⟩ := bind_eq_ok.mp h
  obtain ⟨-, -, h⟩ := bind_eq_ok.mp h
  cases h
  exact ⟨_, rfl⟩

/-- Hints that are written, and everything else, leave the unlocks and the user mode. -/
theorem event_leaves (e : Event crates) (t : HintTables crates) :
    (e.apply t).unlocks = t.unlocks ∧ (e.apply t).portal.teamMode = t.portal.teamMode := by
  cases e with
  | createHint request id =>
      rw [Event.apply]
      rcases h : createHint request id t with error | t'
      · exact ⟨rfl, rfl⟩
      · obtain ⟨hints, rfl⟩ := createHint_leaves h
        exact ⟨rfl, rfl⟩
  | updateHint hintId request =>
      rw [Event.apply]
      rcases h : updateHint hintId request t with error | t'
      · exact ⟨rfl, rfl⟩
      · obtain ⟨hints, rfl⟩ := updateHint_leaves h
        exact ⟨rfl, rfl⟩
  | beside change => exact ⟨change.unlocks t, change.teamMode t⟩

theorem event_guarantee (e : Event crates) (t : HintTables crates) :
    (purchases crates).Guarantee [] t (e.apply t) :=
  guarantee_beside (event_leaves e t).1 (event_leaves e t).2

/-- An account of the mode. -/
def modeAccount (teamMode : Bool) (accountId : ℤ) : Account :=
  if teamMode then .team accountId else .user accountId

theorem lockNumber_modeAccount (teamMode : Bool) (accountId : ℤ) :
    lockNumber (modeAccount teamMode accountId) = if teamMode then -accountId else accountId := by
  cases teamMode with
  | true => rfl
  | false => rfl

theorem lockedAccount_lockNumber (teamMode : Bool) (accountId : ℤ) :
    lockedAccount teamMode (lockNumber (modeAccount teamMode accountId)) =
      modeAccount teamMode accountId := by
  cases teamMode with
  | true => simp [modeAccount, lockNumber, lockedAccount]
  | false => rfl

/-- What is inserted for an account is of this one, and of no other account of the mode. -/
structure Buys (teamMode : Bool) (accountId userId : ℤ) (teamId : Option ℤ) : Prop where
  owned : (modeAccount teamMode accountId).owns (some userId) teamId = true
  alone : ∀ number, number ≠ lockNumber (modeAccount teamMode accountId) →
    (lockedAccount teamMode number).owns (some userId) teamId = false

/-- A purchase keeps the promises while it holds the lock of its account. -/
theorem Purchase.Effect.guarantee {purchase : Purchase} {t t' : HintTables crates}
    (h : purchase.Effect t t') {held : List (Hold LockKey Sequence)}
    (hlock : .lock (.account (lockNumber purchase.account)) ∈ held)
    (halone : ∀ number, number ≠ lockNumber purchase.account →
      (lockedAccount t.portal.teamMode number).owns purchase.row.userId purchase.row.teamId =
        false) :
    (purchases crates).Guarantee held t t' := by
  have hmode : t'.portal.teamMode = t.portal.teamMode := by rw [h.tables]
  refine ⟨trivial, ⟨?_, hmode⟩, ?_⟩
  · rw [h.tables]
    exact List.prefix_append _ _
  · rintro (key | ⟨q, n⟩) hfree
    · rcases key with _ | number | _ | _
      · trivial
      · -- the lock of the number is not held, so that the row is not of its account
        have hne : number ≠ lockNumber purchase.account := by
          rintro rfl
          exact hfree _ hlock (decide_eq_true rfl)
        refine ⟨hmode, ?_⟩
        rw [h.tables]
        simp [HintTables.unlocksOf, List.filter_append, halone number hne]
      · trivial
      · trivial
    · exact id

/-! ## The purchase -/

section Purchase

variable {P : Protocol (HintTables crates) LockKey Sequence Purchase}
  {l : Local (HintTables crates) LockKey Sequence}

/-- Who buys, and for which account: the team is read under the lock of the membership. -/
theorem meets_buyer {user : Viewer} {teamMode : Bool}
    {Q : Option ℤ × ℤ → Local (HintTables crates) LockKey Sequence → Prop}
    (h : ∀ teamId accountId l', l.Extends P l' → l'.pending = l.pending →
      Buys teamMode accountId user.id teamId → Q (teamId, accountId) l') :
    Meets P (buyer user teamMode : Transaction crates (Option ℤ × ℤ)) l Q := by
  apply Meets.extends
  rcases teamMode with _ | _
  · intro hext
    refine h none user.id l hext rfl ⟨?_, ?_⟩
    · simp [modeAccount, Account.owns]
    · intro number hne
      have hne : user.id ≠ number := fun heq => hne heq.symm
      simp [lockedAccount, Account.owns, hne]
  · simp only [buyer, currentTeam, if_true, meets_bind, meets_acquire, meets_select,
      meets_liftExcept, required_eq_ok]
    intro s₁ _ s₂ _ accountId haccount hext
    rw [haccount]
    refine h (some accountId) accountId _ hext rfl ⟨?_, ?_⟩
    · simp [modeAccount, Account.owns]
    · intro number hne
      have hne : accountId ≠ -number := by
        intro heq
        apply hne
        simp [modeAccount, lockNumber, heq]
      simp [lockedAccount, Account.owns, hne]

/-- The target is read, and nothing is written. -/
theorem meets_loadTarget {request : UnlockInput}
    {Q : ℤ × Option (Option String × Option ℤ) → Local (HintTables crates) LockKey Sequence → Prop}
    (h : ∀ target l', l.Extends P l' → l'.pending = l.pending → Q target l') :
    Meets P (loadTarget request : Transaction crates _) l Q := by
  apply Meets.extends
  unfold loadTarget
  split
  · simp only [meets_bind, meets_fetchOne, meets_liftExcept, meets_pure]
    intro s _ hint _ challengeId _ hext
    exact h _ _ hext rfl
  · simp only [meets_bind, meets_fetchOne, meets_pure]
    intro s _ challengeId _ hext
    exact h _ _ hext rfl

/-- The awards are inserted. -/
def insertAwards (awards : List AwardRow) (t : HintTables crates) : HintTables crates :=
  { t with awards := t.awards ++ awards }

/-- The charge of an account. -/
theorem meets_charge {user : Viewer} {teamId : Option ℤ} {account : Account}
    {request : UnlockInput} {challengeId : ℤ} {hint : Option (Option String × Option ℤ)}
    {now : Time} {Q : ℤ × List AwardRow → Local (HintTables crates) LockKey Sequence → Prop}
    (howns : account.owns (some user.id) teamId = true)
    (h : ∀ cost awards l', l.Extends P l' → l'.pending = insertAwards awards ∘ l.pending →
      Charges account cost awards → Q (cost, awards) l') :
    Meets P (charge user teamId account request challengeId hint now) l Q := by
  have hnone : (insertAwards [] ∘ l.pending : HintTables crates → HintTables crates) = l.pending := by
    funext t
    simp [insertAwards]
  apply Meets.extends
  rcases hint with _ | ⟨title, configuredCost⟩
  · intro hext
    exact h 0 [] l hext hnone.symm (.inl ⟨le_refl 0, rfl⟩)
  · simp only [charge, meets_bind, meets_select, meets_check]
    intro s hs _
    split
    · rename_i hcost
      simp only [meets_bind, meets_nextval, meets_change, meets_pure]
      intro s' id _ _ hext
      refine h _ _ _ hext rfl (.inr ⟨hcost, _, rfl, rfl, ?_⟩)
      exact howns
    · rename_i hcost
      intro hext
      exact h _ [] _ hext hnone.symm (.inl ⟨Int.not_lt.mp hcost, rfl⟩)

/-- The insertion of the row. -/
theorem meets_insertUnlock {row : UnlockRow} {userId : ℤ}
    {Q : Unit → Local (HintTables crates) LockKey Sequence → Prop}
    (h : ∀ l', l.Extends P l' → l'.pending =
      (fun t => { l.pending t with unlocks := (l.pending t).unlocks ++ [row] }) → Q ⟨⟩ l') :
    Meets P (insertUnlock row userId : Transaction crates Unit) l Q := by
  apply Meets.extends
  rw [insertUnlock, meets_bind, meets_acquire]
  intro s hs
  rw [meets_bind]
  apply meets_acquireAll hs.inv
  intro l' _ hpending _ _
  simp only [meets_bind, meets_select, meets_check, meets_change]
  intro s' _ _ hext
  refine h _ hext ?_
  rw [hpending]
  rfl

end Purchase

/-- **A purchase keeps its promises**, whatever the others do between its statements. -/
theorem unlock_keeps (user : Viewer) (request : UnlockInput) (now : Time)
    (s : HintTables crates) :
    Meets (purchases crates) (unlock user request now) ⟨[], id, s⟩
      fun purchase l => l.Commits (purchases crates) purchase := by
  simp only [unlock, meets_bind, meets_select, meets_liftExcept, meets_check]
  intro s₁ _ _ _ s₂ _ _ _ _ s₃ _
  apply meets_buyer
  rintro teamId accountId ⟨held, pending, _⟩ hext rfl hbuys
  rw [← lockNumber_modeAccount]
  rw [meets_acquire]
  intro s₄ h₄
  apply meets_loadTarget
  rintro ⟨challengeId, hint⟩ ⟨held₁, pending₁, s₅⟩ hext₁ rfl
  intro s₆ h₆ _ _ s₇ h₇ hfresh
  apply meets_charge hbuys.owned
  rintro cost awards ⟨held₂, pending₂, s₈⟩ hext₂ rfl hcharges
  rw [meets_nextval]
  intro s₉ n h₉ _
  apply meets_insertUnlock
  rintro ⟨held₃, pending₃, s₁₀⟩ hext₃ rfl
  intro t ht
  -- the mode has been the same since it was read, and the unlocks since they were
  have ht₇ : Local.After (purchases crates) ⟨held₁, id, s₇⟩ t :=
    hext₂.after t (h₉.before (hext₃.after t ht))
  have ht₃ : Local.After (purchases crates) ⟨[], id, s₃⟩ t :=
    hext.after t (h₄.before (hext₁.after t (h₆.since (h₇.since ht₇))))
  have hmode : t.portal.teamMode = s₃.portal.teamMode := ht₃.rely.always.teamMode
  have hlock := hext₁.held _ List.mem_cons_self
  have hkeep : SameUnlocks (lockNumber (modeAccount s₃.portal.teamMode accountId)) s₇ t :=
    ht₇.rely.respects _ hlock
  have hsame : t.unlocksOf (modeAccount s₃.portal.teamMode accountId) =
      s₇.unlocksOf (modeAccount s₃.portal.teamMode accountId) := by
    have hunlocks := hkeep.unlocks
    rwa [← hkeep.teamMode, hmode, lockedAccount_lockNumber] at hunlocks
  have heffect : Purchase.Effect
      { account := modeAccount s₃.portal.teamMode accountId, cost, awards
        row := ⟨n, some user.id, teamId, request.target, now, request.targetType⟩ } t
      { insertAwards awards t with
        unlocks := t.unlocks ++
          [⟨n, some user.id, teamId, request.target, now, request.targetType⟩] } := by
    refine ⟨?_, ?_, hbuys.owned, hcharges, rfl⟩
    · rw [hmode]
      exact (lockedAccount_lockNumber _ _).symm
    · rw [HintTables.unlocked_eq, hsame, ← HintTables.unlocked_eq]
      simpa [modeAccount] using hfresh
  refine ⟨heffect, heffect.guarantee ?_ ?_⟩
  · exact hext₃.held _ (List.mem_cons_of_mem _ (hext₂.held _ hlock))
  · intro number hne
    rw [hmode]
    exact hbuys.alone number hne

/-! ## What a purchase has seen -/

/-- The cost of the hint was so. -/
def Priced (purchase : Purchase) (_ : List (Hold LockKey Sequence)) (t : HintTables crates) :
    Prop :=
  ∃ hint, t.hints.find? (·.id = purchase.row.target) = some hint ∧
    purchase.cost = hint.cost.getD 0

/-- The account had enough, and it was its turn. -/
def Covered (purchase : Purchase) (held : List (Hold LockKey Sequence)) (t : HintTables crates) :
    Prop :=
  .lock (.account (lockNumber purchase.account)) ∈ held ∧
    purchase.cost ≤ t.accountScore purchase.account

/-- The purchase is one of a hint. -/
def OfHint (purchase : Purchase) : Prop := purchase.row.unlockType = "hints"

section Sightings

variable {t : Trail (HintTables crates) LockKey Sequence}

theorem sees_buyer {user : Viewer} {teamMode : Bool}
    {Q : Option ℤ × ℤ → Trail (HintTables crates) LockKey Sequence → Prop}
    (h : ∀ teamId accountId held seen, Q (teamId, accountId) ⟨held, t.pending, seen⟩) :
    Sees (buyer user teamMode : Transaction crates (Option ℤ × ℤ)) t Q := by
  rcases teamMode with _ | _
  · exact h none user.id t.held t.seen
  · simp only [buyer, currentTeam, if_true, sees_bind, sees_acquire, sees_select,
      sees_liftExcept]
    intro s accountId _
    exact h _ accountId _ _

/-- The hint is seen whose title and cost are read. -/
theorem sees_loadTarget {request : UnlockInput}
    {Q : ℤ × Option (Option String × Option ℤ) → Trail (HintTables crates) LockKey Sequence → Prop}
    (h : ∀ challengeId hint seen, (request.targetType = "hints" → ∃ row s, seen t.held s ∧
      (t.pending s).hints.find? (·.id = request.target) = some row ∧
        hint = some (row.title, row.cost)) → Q (challengeId, hint) ⟨t.held, t.pending, seen⟩) :
    Sees (loadTarget request : Transaction crates _) t Q := by
  unfold loadTarget
  split
  · simp only [sees_bind, sees_fetchOne, sees_liftExcept, sees_pure]
    intro s row hrow challengeId _
    exact h challengeId _ _ fun _ => ⟨row, s, .inr ⟨rfl, rfl⟩, hrow, rfl⟩
  · rename_i hne
    simp only [sees_bind, sees_fetchOne, sees_pure]
    intro s challengeId _
    exact h challengeId none _ fun heq => absurd heq hne

/-- The score is seen that the cost is checked against. -/
theorem sees_charge {user : Viewer} {teamId : Option ℤ} {account : Account}
    {request : UnlockInput} {challengeId : ℤ} {hint : Option (Option String × Option ℤ)}
    {now : Time} {Q : ℤ × List AwardRow → Trail (HintTables crates) LockKey Sequence → Prop}
    (h : ∀ cost awards t', (∀ held s, t.seen held s → t'.seen held s) →
      (∀ title configuredCost, hint = some (title, configuredCost) → cost = configuredCost.getD 0 ∧
        ∃ s, t'.seen t.held s ∧ cost ≤ (t.pending s).accountScore account) →
      Q (cost, awards) t') :
    Sees (charge user teamId account request challengeId hint now) t Q := by
  rcases hint with _ | ⟨title, configuredCost⟩
  · exact h 0 [] t (fun _ _ => id) nofun
  · simp only [charge, sees_bind, sees_select, sees_check, decide_eq_true_eq]
    intro s hcost
    have hknown : ∀ title' configuredCost', some (title, configuredCost) = some (title', configuredCost') →
        configuredCost.getD 0 = configuredCost'.getD 0 ∧ ∃ s', (t.seen t.held s' ∨ t.held = t.held ∧
          s' = s) ∧ configuredCost.getD 0 ≤ (t.pending s').accountScore account := by
      rintro _ _ ⟨⟩
      exact ⟨rfl, s, .inr ⟨rfl, rfl⟩, hcost⟩
    split
    · simp only [sees_bind, sees_nextval, sees_change, sees_pure]
      intro n
      exact h _ _ _ (fun _ _ => .inl) hknown
    · exact h _ [] _ (fun _ _ => .inl) hknown

end Sightings

/-- Both have been seen. -/
theorem unlock_sees (user : Viewer) (request : UnlockInput) (now : Time) :
    Sees (unlock user request now : Transaction crates Purchase) ⟨[], id, fun _ _ => False⟩
      fun purchase t => OfHint purchase → (∃ held store, t.seen held store ∧
        Priced purchase held store) ∧ ∃ held store, t.seen held store ∧
          Covered purchase held store := by
  simp only [unlock, sees_bind, sees_select, sees_liftExcept, sees_check]
  intro s₁ _ _ s₂ _ _ _ s₃
  apply sees_buyer
  intro teamId accountId held seen
  rw [← lockNumber_modeAccount, sees_acquire]
  apply sees_loadTarget
  intro challengeId hint seen₁ htarget s₄ _ _ s₅ _
  apply sees_charge
  intro cost awards t₂ hseen₂ hcharge
  rw [sees_nextval]
  intro n
  apply Sees.any
  intro _ t₃ hseen₃ hhint
  obtain ⟨row, s₆, hs₆, hrow, rfl⟩ := htarget hhint
  obtain ⟨hcost, s₇, hs₇, hscore⟩ := hcharge row.title row.cost rfl
  constructor
  · exact ⟨_, s₆, hseen₃ _ _ (hseen₂ _ _ (.inl (.inl hs₆))), row, hrow, hcost⟩
  · exact ⟨_, s₇, hseen₃ _ _ hs₇, List.mem_cons_self, hscore⟩

/-- The price has been seen. -/
theorem request_priced (r : Request) :
    Sees (r.transaction crates) ⟨[], id, fun _ _ => False⟩ fun purchase t =>
      OfHint purchase → ∃ held store, t.seen held store ∧ Priced purchase held store := by
  apply (unlock_sees r.user r.request r.now).mono fun _ _ => id
  intro purchase _ _ seen₀ seen₁ hsub hsees hhint
  obtain ⟨⟨held, store, hseen, hpriced⟩, -⟩ := hsees hhint
  exact ⟨held, store, hsub held store hseen, hpriced⟩

/-- And so has the score. -/
theorem request_covered (r : Request) :
    Sees (r.transaction crates) ⟨[], id, fun _ _ => False⟩ fun purchase t =>
      OfHint purchase → ∃ held store, t.seen held store ∧ Covered purchase held store := by
  apply (unlock_sees r.user r.request r.now).mono fun _ _ => id
  intro purchase _ _ seen₀ seen₁ hsub hsees hhint
  obtain ⟨-, held, store, hseen, hcovered⟩ := hsees hhint
  exact ⟨held, store, hsub held store hseen, hcovered⟩

/-! ## Every run -/

/-- A purchase commits at the place `i` in the step from `s` to `s'`. -/
def Commits (purchase : Purchase) (i : ℕ) (s s' : Service crates) : Prop :=
  ∃ n a, hintStep crates (.advance i n) s = some s' ∧ at' id s.running i = some a ∧
    a.program = .done purchase

/-- At a moment of the run, at which the transaction at the place `i` was in flight. -/
def Moment (s : Service crates) (i : ℕ) (W : List (Hold LockKey Sequence) → HintTables crates →
    Service crates → Prop) : Prop :=
  ∃ s₀ a₀, Reach (hintStep crates) anyStep Initial s₀ ∧ Leads (hintStep crates) anyStep s₀ s ∧
    at' id s₀.running i = some a₀ ∧ W a₀.held s₀.store s₀

/-- What is so of a purchase that commits: it does what it does to the tables at once; at a moment
of its transaction the hint has cost what is charged; at another one the account had enough for
it, and no purchase of the account has committed since; and what it has bought is not bought
again. -/
structure Charged (s s' : Service crates) (i : ℕ) (purchase : Purchase) : Prop where
  effect : purchase.Effect s.store s'.store
  priced : OfHint purchase → Moment s i fun held t _ => Priced purchase held t
  covered : OfHint purchase → Moment s i fun held t s₀ => Covered purchase held t ∧
    ∀ other j s₁ s₂, Leads (hintStep crates) anyStep s₀ s₁ → Commits other j s₁ s₂ →
      Leads (hintStep crates) anyStep s₂ s → other.account ≠ purchase.account
  once : ∀ other j s₁ s₂, Leads (hintStep crates) anyStep s' s₁ → Commits other j s₁ s₂ →
    ¬ (other.account = purchase.account ∧ other.row.unlockType = purchase.row.unlockType ∧
      other.row.target = purchase.row.target)

section Runs

variable {s s' : Service crates} {purchase : Purchase} {i : ℕ}

theorem request_keeps (request : Request) (t : HintTables crates) :
    Meets (purchases crates) (request.transaction crates) ⟨[], id, t⟩
      fun purchase l => l.Commits (purchases crates) purchase :=
  unlock_keeps request.user request.request request.now t

theorem Initial.sound (h : Initial s) : (purchases crates).Sound s :=
  .idle trivial (fun _ _ _ => trivial) h

/-- The promises are kept in every run. -/
theorem sound (h : Reach (hintStep crates) anyStep Initial s) : (purchases crates).Sound s :=
  Protocol.invariant (fun r t _ => request_keeps r t) (fun e t _ => event_guarantee e t)
    (fun _ hs => hs.sound) h

theorem stay (h : Reach (hintStep crates) anyStep Initial s)
    (hlead : Leads (hintStep crates) anyStep s s') : Stay s.store s'.store :=
  Protocol.always (P := purchases crates) (fun r t _ => request_keeps r t)
    (fun e t _ => event_guarantee e t) (fun _ hs => hs.sound) h hlead

/-- What a commit does. -/
theorem Commits.effect (h : Reach (hintStep crates) anyStep Initial s)
    (hc : Commits purchase i s s') : purchase.Effect s.store s'.store := by
  obtain ⟨n, a, hstep, ha, hdone⟩ := hc
  have heffect := (sound h).effect ha hdone
  obtain ⟨b, hb, hstep⟩ := Option.bind_eq_some_iff.mp hstep
  rw [ha] at hb
  cases hb
  rw [SharedLocks.advance, hdone] at hstep
  cases hstep
  exact heffect

/-- What is bought is not bought again. -/
theorem Commits.once (h : Reach (hintStep crates) anyStep Initial s)
    (hc : Commits purchase i s s') {other : Purchase} {j : ℕ} {s₁ s₂ : Service crates}
    (hlead : Leads (hintStep crates) anyStep s' s₁) (ho : Commits other j s₁ s₂) :
    ¬ (other.account = purchase.account ∧ other.row.unlockType = purchase.row.unlockType ∧
      other.row.target = purchase.row.target) := by
  rintro ⟨haccount, htype, htarget⟩
  have hs' : Reach (hintStep crates) anyStep Initial s' := by
    obtain ⟨n, a, hstep, -, -⟩ := hc
    exact h.step _ trivial hstep
  have hunlocked := (stay hs' hlead).unlocked (hc.effect h).unlocked
  have hfresh := (ho.effect (hs'.leads hlead)).fresh
  rw [haccount, htype, htarget, hunlocked] at hfresh
  cases hfresh

/-- While an account is locked, no purchase of it commits. -/
theorem Commits.other_account {s₀ : Service crates} {a₀ a : InFlight _ _ _ _ _}
    (h₀ : Reach (hintStep crates) anyStep Initial s₀)
    (hlead : Leads (hintStep crates) anyStep s₀ s) (ha₀ : at' id s₀.running i = some a₀)
    (ha : at' id s.running i = some a)
    (hlock : .lock (.account (lockNumber purchase.account)) ∈ a₀.held)
    (hmode : purchase.account = lockedAccount s.store.portal.teamMode (lockNumber purchase.account))
    {other : Purchase} {j : ℕ} {s₁ s₂ : Service crates}
    (hlead₁ : Leads (hintStep crates) anyStep s₀ s₁) (ho : Commits other j s₁ s₂)
    (hlead₂ : Leads (hintStep crates) anyStep s₂ s) : other.account ≠ purchase.account := by
  intro haccount
  have hs₁ := h₀.leads hlead₁
  have hs₂ : Reach (hintStep crates) anyStep Initial s₂ := by
    obtain ⟨n, b, hstep, -, -⟩ := ho
    exact hs₁.step _ trivial hstep
  -- the unlocks of the account are the same, and one more
  have hkeep : SameUnlocks (lockNumber purchase.account) s₀.store s.store :=
    (Sighted.respects (fun _ => sound) (fun e t _ => event_guarantee e t) h₀ hlead ha₀ hlock ha).1
  have hsame := hkeep.unlocks
  rw [← hkeep.teamMode, ← hmode] at hsame
  have hmore := (ho.effect hs₁).unlocksOf
  rw [haccount] at hmore
  have hle₁ := ((stay h₀ hlead₁).unlocksOf purchase.account).length_le
  have hle₂ := ((stay hs₂ hlead₂).unlocksOf purchase.account).length_le
  rw [hmore, hsame, List.length_append, List.length_singleton] at hle₂
  omega

/-- What a step writes: a purchase commits, or something happens beside the purchases. -/
theorem step_writes {l : Locking.Label Request (Event crates)} (hstep : hintStep crates l s = some s') :
    s'.store = s.store ∨ (∃ e, l = .other e ∧ s'.store = e.apply s.store) ∨
      ∃ purchase i n, l = .advance i n ∧ Commits purchase i s s' := by
  rcases step_store hstep with hsame | he | ⟨i, n, a, purchase, hl, ha, hdone, -⟩
  · exact .inl hsame
  · exact .inr (.inl he)
  · rw [hl] at hstep
    exact .inr (.inr ⟨purchase, i, n, hl, n, a, hstep, ha, hdone⟩)

/-- **Hints are charged once**: what is so of every purchase that commits, and nothing else but
what happens beside the purchases writes anything. -/
theorem hints_charged_once (h : Reach (hintStep crates) anyStep Initial s) :
    (∀ purchase i s', Commits purchase i s s' → Charged s s' i purchase) ∧
    ∀ l s', hintStep crates l s = some s' → s'.store = s.store ∨
      (∃ e, l = .other e ∧ s'.store = e.apply s.store) ∨
        ∃ purchase i n, l = .advance i n ∧ Commits purchase i s s' := by
  constructor
  · intro purchase i s' hc
    obtain ⟨n, a, -, ha, hdone⟩ := id hc
    refine ⟨hc.effect h, ?_, ?_, fun other j s₁ s₂ => hc.once h⟩
    · intro hhint
      obtain ⟨held, store, ⟨s₀, hs₀, hlead, rfl, a₀, ha₀, rfl⟩, hpriced⟩ :=
        sighting request_priced (fun _ hs => hs) h ha hdone hhint
      exact ⟨s₀, a₀, hs₀, hlead, ha₀, hpriced⟩
    · intro hhint
      obtain ⟨held, store, ⟨s₀, hs₀, hlead, rfl, a₀, ha₀, rfl⟩, hcovered⟩ :=
        sighting request_covered (fun _ hs => hs) h ha hdone hhint
      refine ⟨s₀, a₀, hs₀, hlead, ha₀, hcovered, ?_⟩
      intro other j s₁ s₂ hlead₁ ho hlead₂
      exact ho.other_account hs₀ hlead ha₀ ha hcovered.1 (hc.effect h).mode hlead₁ hlead₂
  · exact fun l s' hstep => step_writes hstep

end Runs

/-! ## An award that is deleted -/

/-- The next statement at a place commits a purchase. -/
theorem commits_of_committing {s : Service crates} {i : ℕ} {purchase : Purchase}
    (h : committing s i = some purchase) : ∃ s', Commits purchase i s s' := by
  have hstep : ∃ a s', hintStep crates (.advance i 0) s = some s' ∧ at' id s.running i = some a ∧
      a.program = .done purchase := committing_step h 0
  obtain ⟨a, s', hstep, ha, hdone⟩ := hstep
  exact ⟨s', 0, a, hstep, ha, hdone⟩

/-- A participant who has been awarded fifty points, and a hint that costs them. -/
def fiftyPoints : Service plainCrates where
  store :=
    { portal :=
        { challenges := [⟨5, some "standard", "visible", "all", none, "private", none⟩]
          flags := [], userChallengeFlags := [], submissions := [], solves := []
          flagSharingEvents := [], users := [⟨7, "user", none⟩], nextSubmissionId := 1
          nextFlagId := 1, teamMode := false, settings := ⟨none, false, 10, "lockout", 300⟩
          secretKey := "key" }
      access := ⟨none, ⟨0, 0, false⟩, false⟩
      hintsFreePublicAccess := false
      values := []
      hints := [⟨3, none, some "standard", some 5, some "Look closely", some 50, none⟩]
      solutions := []
      awards := [⟨1, some 7, none, "standard", "Welcome", "", 0, some 50, ""⟩]
      unlocks := [] }
  next := fun _ => 2
  running := []

theorem fiftyPoints_initial : Initial fiftyPoints := rfl

/-- The participant unlocks the hint. -/
def unlockHint : Request := ⟨⟨7, false, true, none⟩, ⟨3, "hints"⟩, 0⟩

/-- An award is deleted. -/
def deleteAward (crates : Crates) (id : ℕ) : Beside crates where
  apply t := { t with awards := t.awards.filter fun row => row.id ≠ id }
  unlocks _ := rfl
  teamMode _ := rfl

/-- A purchase that commits after some steps, and what can be computed of it. -/
theorem commits_after (labels : List (Locking.Label Request (Event plainCrates)))
    (found : HintTables plainCrates → Purchase → Bool)
    (h : ((run (hintStep plainCrates) labels fiftyPoints).any fun s =>
      (committing s 0).any (found s.store)) = true) :
    ∃ s s' purchase, Reach (hintStep plainCrates) anyStep Initial s ∧
      Commits purchase 0 s s' ∧ found s.store purchase = true := by
  obtain ⟨s, hs, hstate⟩ := (Option.any_eq_true _ _).mp h
  obtain ⟨purchase, hpurchase, hfound⟩ := (Option.any_eq_true _ _).mp hstate
  obtain ⟨s', hc⟩ := commits_of_committing hpurchase
  exact ⟨s, s', purchase, reach_of_run labels fiftyPoints_initial hs, hc, hfound⟩

/-- The hint is unlocked for the fifty points. -/
theorem hints_charged_once_fifty : ∃ (s s' : Service plainCrates) (purchase : Purchase),
    Charged s s' 0 purchase ∧ OfHint purchase ∧ purchase.cost = 50 := by
  obtain ⟨s, s', purchase, hreach, hc, hfound⟩ :=
    commits_after (.begin unlockHint :: List.replicate 14 (.advance 0 2))
      (fun _ purchase => purchase.row.unlockType = "hints" && purchase.cost = 50)
      (by decide +kernel)
  simp only [Bool.and_eq_true, decide_eq_true_eq] at hfound
  exact ⟨s, s', purchase, (hints_charged_once hreach).1 purchase 0 s' hc, hfound⟩

/-- The hint is unlocked, and something happens after the score has been read. -/
def unlockBeside (event : Event plainCrates) : List (Locking.Label Request (Event plainCrates)) :=
  .begin unlockHint :: List.replicate 8 (.advance 0 2) ++
    .other event :: List.replicate 6 (.advance 0 2)

/-- The fifty points are taken back, or the price is changed; the hint is charged all the
same. -/
theorem changed_at_commit :
    (∃ (s s' : Service plainCrates) (purchase : Purchase),
      Reach (hintStep plainCrates) anyStep Initial s ∧ Commits purchase 0 s s' ∧
        OfHint purchase ∧ s.store.accountScore purchase.account < purchase.cost) ∧
    ∃ (s s' : Service plainCrates) (purchase : Purchase),
      Reach (hintStep plainCrates) anyStep Initial s ∧ Commits purchase 0 s s' ∧
        OfHint purchase ∧ s.store.hints.map HintRow.cost = [some 10] ∧ purchase.cost = 50 := by
  constructor
  · obtain ⟨s, s', purchase, hreach, hc, hfound⟩ :=
      commits_after (unlockBeside (.beside (deleteAward plainCrates 1)))
        (fun t purchase => purchase.row.unlockType = "hints" &&
          t.accountScore purchase.account < purchase.cost) (by decide +kernel)
    simp only [Bool.and_eq_true, decide_eq_true_eq] at hfound
    exact ⟨s, s', purchase, hreach, hc, hfound⟩
  · obtain ⟨s, s', purchase, hreach, hc, hfound⟩ :=
      commits_after (unlockBeside (.updateHint 3 ⟨none, none, none, none, some 10, none⟩))
        (fun t purchase => purchase.row.unlockType = "hints" &&
          (t.hints.map HintRow.cost = [some 10] && purchase.cost = 50)) (by decide +kernel)
    simp only [Bool.and_eq_true, decide_eq_true_eq] at hfound
    exact ⟨s, s', purchase, hreach, hc, hfound⟩

end CtfZone.Hints
