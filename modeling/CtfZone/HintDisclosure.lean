/-
# Who sees the content of a hint

The requirements of a hint are checked to be an object and stored, and that is all: what comes of
the purchases and of the requests for hints is the same without them.

* `HintTables.bare` : the tables without the requirements of the hints;
* `unlock_blind`, `getHint_bare`, `detailHints_bare` : what does not read them;
* `hints_disclosed` : the main result.
-/
import CtfZone.HintLedger
import CtfZone.Unread

namespace CtfZone.Hints

open Journal Submissions Challenges
open Locking.Program SharedLocks
open Locking (Hold)
open Runs
open Slots (at')

variable {crates : Crates}

/-! ## Without requirements -/

/-- A hint without its requirements. -/
def HintRow.bare (hint : HintRow) : HintRow := { hint with requirements := none }

/-- The tables without the requirements of the hints. -/
def HintTables.bare (t : HintTables crates) : HintTables crates :=
  { t with hints := t.hints.map HintRow.bare }

theorem HintTables.find_bare (t : HintTables crates) (hintId : ℤ) :
    t.bare.hints.find? (·.id = hintId) = (t.hints.find? (·.id = hintId)).map HintRow.bare := by
  rw [HintTables.bare, List.find?_map]
  rfl

theorem required_map {α β : Type} (value : Option α) (f : α → β) (error : String) :
    required (value.map f) error = (required value error).map f := by
  rcases value with _ | a
  · rfl
  · rfl

theorem HintTables.loadHint_bare (t : HintTables crates) (hintId : ℤ) :
    t.bare.loadHint hintId = (t.loadHint hintId).map HintRow.bare := by
  rw [HintTables.loadHint, HintTables.find_bare, required_map]
  rfl

/-- The content of a hint does not depend on its requirements. -/
theorem getHint_bare (t : HintTables crates) (now : Time) (user : Option Viewer) (hintId : ℤ) :
    getHint t.bare now user hintId = (getHint t now user hintId).map HintRow.bare := by
  have hload := t.loadHint_bare hintId
  unfold getHint
  rcases h : t.loadHint hintId with error | hint
  · rw [h] at hload
    rw [hload]
    rfl
  · rw [h] at hload
    rw [hload]
    show (required hint.challengeId "Hint not found" >>= _) =
      (required hint.challengeId "Hint not found" >>= _).map HintRow.bare
    rcases required hint.challengeId "Hint not found" with error | challengeId
    · rfl
    · show (requireFullChallengeAccess t.access t.portal now user challengeId >>= _) =
        (requireFullChallengeAccess t.access t.portal now user challengeId >>= _).map HintRow.bare
      rcases requireFullChallengeAccess t.access t.portal now user challengeId with error | access
      · rfl
      · have hite : ∀ unlocked : Bool,
            (if unlocked then hint.bare else { hint.bare with content := none }) =
              HintRow.bare (if unlocked then hint else { hint with content := none }) := by
          rintro (_ | _)
          · rfl
          · rfl
        exact congrArg Except.ok (hite _)

theorem detailHints_bare (t : HintTables crates) (now : Time) (user : Option Viewer)
    (challengeId : ℤ) : detailHints t.bare now user challengeId = detailHints t now user challengeId := by
  have hrows : ∀ render : HintRow → HintRenderRow, (∀ hint, render hint.bare = render hint) →
      (t.bare.hints.filter fun hint => hint.challengeId = some challengeId).map render =
        (t.hints.filter fun hint => hint.challengeId = some challengeId).map render := by
    intro render hrender
    rw [HintTables.bare, List.filter_map, List.map_map]
    exact List.map_congr_left fun hint _ => hrender hint
  unfold detailHints
  apply congrArg (challengeAccessContext t.access t.portal now user challengeId >>= ·)
  funext _
  exact congrArg pure (hrows _ fun _ => rfl)

theorem currentTeam_blind (user : Viewer) :
    Blind HintTables.bare (currentTeam user : Transaction crates (Option ℤ)) :=
  .bind (blind_acquire _) fun _ => blind_select fun _ => rfl

theorem buyer_blind (user : Viewer) (teamMode : Bool) :
    Blind HintTables.bare (buyer user teamMode : Transaction crates (Option ℤ × ℤ)) := by
  rcases teamMode with _ | _
  · exact blind_pure _
  · refine .bind (currentTeam_blind user) fun currentTeamId => ?_
    exact .bind (blind_liftExcept _) fun accountId => blind_pure _

/-- Of a hint the challenge, the title and the cost are read. -/
theorem loadTarget_blind (request : UnlockInput) :
    Blind HintTables.bare (loadTarget request : Transaction crates _) := by
  unfold loadTarget
  split
  · refine blind_fetchOne HintRow.bare ?_ ?_ ?_
    · exact fun t => t.find_bare request.target
    · exact fun _ => rfl
    · exact fun hint => .bind (blind_liftExcept _) fun challengeId => blind_pure _
  · refine blind_fetchOne id ?_ ?_ ?_
    · exact fun t => (congrFun Option.map_id _).symm
    · exact fun _ => rfl
    · exact fun challengeId => blind_pure _

theorem charge_blind (user : Viewer) (currentTeamId : Option ℤ) (account : Account)
    (request : UnlockInput) (challengeId : ℤ) (hint : Option (Option String × Option ℤ))
    (now : Time) : Blind HintTables.bare (charge user currentTeamId account request challengeId
      hint now : Transaction crates (ℤ × List AwardRow)) := by
  rcases hint with _ | ⟨title, configuredCost⟩
  · exact blind_pure _
  · refine .bind (blind_select fun _ => rfl) fun score => ?_
    refine .bind (blind_check _ _) fun _ => ?_
    split
    · refine .bind (blind_nextval _) fun id => ?_
      exact .bind (blind_change fun _ => rfl) fun _ => blind_pure _
    · exact blind_pure _

theorem insertUnlock_blind (row : UnlockRow) (userId : ℤ) :
    Blind HintTables.bare (insertUnlock row userId : Transaction crates Unit) := by
  refine .bind (blind_acquire _) fun _ => ?_
  refine .bind (blind_acquireAll _) fun _ => ?_
  refine .bind (blind_select fun _ => rfl) fun taken => ?_
  exact .bind (blind_check _ _) fun _ => blind_change fun _ => rfl

/-- A purchase does not read the requirements of the hints. -/
theorem unlock_blind (user : Viewer) (request : UnlockInput) (now : Time) :
    Blind HintTables.bare (unlock user request now : Transaction crates Purchase) := by
  unfold unlock
  refine .bind (blind_select fun _ => rfl) fun access => ?_
  refine .bind (blind_liftExcept _) fun _ => ?_
  refine .bind (blind_select fun _ => rfl) fun access => ?_
  refine .bind (blind_liftExcept _) fun _ => ?_
  refine .bind (blind_check _ _) fun _ => ?_
  refine .bind (blind_select fun _ => rfl) fun teamMode => ?_
  refine .bind (buyer_blind user teamMode) fun ⟨currentTeamId, accountId⟩ => ?_
  refine .bind (blind_acquire _) fun _ => ?_
  refine .bind (loadTarget_blind request) fun ⟨challengeId, hint⟩ => ?_
  refine .bind (blind_select fun _ => rfl) fun gate => ?_
  refine .bind (blind_liftExcept _) fun _ => ?_
  refine .bind (blind_select fun _ => rfl) fun existing => ?_
  refine .bind (blind_check _ _) fun _ => ?_
  refine .bind (charge_blind ..) fun ⟨cost, awards⟩ => ?_
  refine .bind (blind_nextval _) fun id => ?_
  exact .bind (insertUnlock_blind _ _) fun _ => blind_pure _

/-! ## What happens beside the purchases -/

/-- Nothing. -/
def Beside.none (crates : Crates) : Beside crates := ⟨id, fun _ => rfl, fun _ => rfl⟩

/-- What happens without the requirements: a hint is written without them, if it is written. -/
def Event.bare : Event crates → Event crates
  | .createHint request id =>
    match validateHint request.cost request.requirements with
    | .ok _ => .createHint { request with requirements := none } id
    | .error _ => .beside (.none crates)
  | .updateHint hintId request => .updateHint hintId { request with requirements := none }
  | .beside change => .beside change

/-- A change that does not read the requirements of the hints. -/
def Beside.Bare (change : Beside crates) : Prop := ∀ t, change.apply t.bare = (change.apply t).bare

theorem updateHint_bare (hintId : ℤ) (request : HintPatch) (t : HintTables crates) :
    updateHint hintId { request with requirements := none } t.bare =
      (updateHint hintId request t).map HintTables.bare := by
  have hrows : Tables.update (·.id = hintId) { request with requirements := none : HintPatch }.apply
      (t.hints.map HintRow.bare) =
        (Tables.update (·.id = hintId) request.apply t.hints).map HintRow.bare := by
    rw [Tables.update, Tables.update, List.map_map, List.map_map]
    refine List.map_congr_left fun hint _ => ?_
    by_cases hid : hint.id = hintId
    · simp [Tables.updateRow, HintRow.bare, HintPatch.apply, hid]
    · simp [Tables.updateRow, HintRow.bare, hid]
  have hload := t.loadHint_bare hintId
  unfold updateHint
  dsimp only
  rw [hload]
  by_cases hcost : request.cost.any (· < 0) = true
  · rw [hcost]
    rfl
  · rw [eq_false_of_ne_true hcost]
    rcases t.loadHint hintId with error | hint
    · rfl
    · exact congrArg (fun hints => Except.ok { t with hints }) hrows

/-- A hint is created without its requirements where it is created. -/
theorem createHint_bare {request : HintInput} {id : ℤ} {u : Unit}
    (h : validateHint request.cost request.requirements = .ok u) (t : HintTables crates) :
    createHint { request with requirements := none } id t.bare =
      (createHint request id t).map HintTables.bare := by
  have hcost : validateHint request.cost none = .ok ⟨⟩ := by
    simp only [validateHint, ensure_eq_ok] at h ⊢
    rw [Bool.not_eq_true'] at h ⊢
    exact Bool.or_eq_false_iff.mpr ⟨(Bool.or_eq_false_iff.mp h).1, rfl⟩
  unfold createHint
  rw [hcost, h]
  refine congrArg (fun hints => Except.ok { t with hints }) ?_
  rw [HintTables.bare, List.map_append]
  rfl

/-- What happens does the same without the requirements. -/
theorem Event.apply_bare (e : Event crates) (h : ∀ change, e = .beside change → change.Bare)
    (t : HintTables crates) : e.bare.apply t.bare = (e.apply t).bare := by
  have hmap : ∀ x : Except String (HintTables crates),
      ((x.map HintTables.bare).toOption).getD t.bare = (x.toOption.getD t).bare := by
    rintro (error | t')
    · rfl
    · rfl
  cases e with
  | createHint request id =>
      simp only [Event.bare]
      rcases hvalid : validateHint request.cost request.requirements with error | u
      · rw [Event.apply, Hints.createHint, hvalid]
        rfl
      · show ((Hints.createHint { request with requirements := none } id t.bare).toOption).getD _ = _
        rw [createHint_bare hvalid, hmap]
        rfl
  | updateHint hintId request =>
      show ((Hints.updateHint hintId { request with requirements := none } t.bare).toOption).getD _ = _
      rw [updateHint_bare, hmap]
      rfl
  | beside change => exact h change rfl t

/-! ## Every run -/

/-- Who gets the content of a hint from `get_hint`: an administrator, an account that has
unlocked it, and nobody in particular, where it is free for everybody. -/
def Entitled (t : HintTables crates) (user : Option Viewer) (hint : HintRow) (hintId : ℤ) : Prop :=
  match user with
  | some current => current.isAdmin = true ∨ hasUnlock t current "hints" hintId = true
  | none => hint.cost.getD 0 = 0 ∧ t.hintsFreePublicAccess = true

/-- Where `get_hint` returns a content. -/
theorem getHint_entitled {t : HintTables crates} {now : Time} {user : Option Viewer} {hintId : ℤ}
    {hint : HintRow} (h : getHint t now user hintId = .ok hint) (hcontent : hint.content ≠ none) :
    Entitled t user hint hintId := by
  obtain ⟨stored, -, h⟩ := bind_eq_ok.mp h
  obtain ⟨challengeId, -, h⟩ := bind_eq_ok.mp h
  obtain ⟨access, -, h⟩ := bind_eq_ok.mp h
  rcases user with _ | current
  · by_cases hfree : (decide (stored.cost.getD 0 = 0) && t.hintsFreePublicAccess) = true
    · cases (congrArg Except.ok (if_pos hfree)).symm.trans h
      rwa [Bool.and_eq_true, decide_eq_true_eq] at hfree
    · cases (congrArg Except.ok (if_neg hfree)).symm.trans h
      exact absurd rfl hcontent
  · by_cases hunlocked : (current.isAdmin || hasUnlock t current "hints" hintId) = true
    · exact Bool.or_eq_true_iff.mp hunlocked
    · cases (congrArg Except.ok (if_neg hunlocked)).symm.trans h
      exact absurd rfl hcontent

/-- The hints that an account has unlocked. -/
theorem mem_unlockedHintIds {t : HintTables crates} {account : Account} {hintId : ℤ} :
    hintId ∈ unlockedHintIds t account ↔ t.unlocked account "hints" hintId = true := by
  simp only [unlockedHintIds, HintTables.unlocked, UnlockRow.covers, List.mem_map, List.mem_filter,
    List.any_eq_true, Bool.and_eq_true, decide_eq_true_eq]
  constructor
  · rintro ⟨row, ⟨hmem, htype, howns⟩, htarget⟩
    exact ⟨row, hmem, ⟨htarget, htype⟩, howns⟩
  · rintro ⟨row, hmem, ⟨htarget, htype⟩, howns⟩
    exact ⟨row, ⟨hmem, htype, howns⟩, htarget⟩

/-- Where the details of a challenge show a content. -/
theorem detailHints_entitled {t : HintTables crates} {now : Time} {user : Option Viewer}
    {challengeId : ℤ} {rows : List HintRenderRow} (h : detailHints t now user challengeId = .ok rows)
    {row : HintRenderRow} (hrow : row ∈ rows) (hcontent : row.content ≠ none) :
    ctfEnded t now = true ∨ viewerIsAdmin user = true ∨
      ∃ current, user = some current ∧ hasUnlock t current "hints" row.id = true := by
  obtain ⟨access, -, h⟩ := bind_eq_ok.mp h
  cases h
  obtain ⟨hint, -, rfl⟩ := List.mem_map.mp hrow
  split at hcontent
  · rename_i hshown
    rw [if_pos hshown]
    rw [Bool.or_eq_true_iff, Bool.or_eq_true_iff] at hshown
    rcases hshown with (hended | hunlocked) | hadmin
    · exact .inl hended
    · refine .inr (.inr ?_)
      rcases user with _ | current
      · cases hunlocked
      · refine ⟨current, rfl, ?_⟩
        rw [hasUnlock]
        rcases haccount : viewerAccount t.portal.teamMode (some current.id) current.teamId with
          _ | account
        · simp [haccount] at hunlocked
        · simp only [Option.bind_some, haccount, Option.elim_some, List.contains_iff_mem] at hunlocked
          exact mem_unlockedHintIds.mp hunlocked
    · exact .inr (.inl hadmin)
  · exact absurd rfl hcontent

/-- An unlock of a run has been there before, or a purchase of the run has inserted it. -/
theorem unlocks_bought {s₀ s : Service crates} (h₀ : Reach (hintStep crates) anyStep Initial s₀)
    (hlead : Leads (hintStep crates) anyStep s₀ s) {row : UnlockRow} (hrow : row ∈ s.store.unlocks) :
    row ∈ s₀.store.unlocks ∨ ∃ purchase i s₁ s₂, Leads (hintStep crates) anyStep s₀ s₁ ∧
      Commits purchase i s₁ s₂ ∧ Leads (hintStep crates) anyStep s₂ s ∧ purchase.row = row := by
  induction hlead with
  | refl => exact .inl hrow
  | @step s₁ s₂ l hlead hg hstep ih =>
      by_cases hmem : row ∈ s₁.store.unlocks
      · rcases ih hmem with hold | ⟨purchase, i, s₃, s₄, hlead₃, hc, hlead₄, heq⟩
        · exact .inl hold
        · exact .inr ⟨purchase, i, s₃, s₄, hlead₃, hc, hlead₄.step l hg hstep, heq⟩
      · rcases step_writes hstep with hsame | ⟨e, -, he⟩ | ⟨purchase, i, n, -, hc⟩
        · rw [hsame] at hrow
          exact absurd hrow hmem
        · rw [he, (event_leaves e s₁.store).1] at hrow
          exact absurd hrow hmem
        · refine .inr ⟨purchase, i, s₁, s₂, hlead, hc, .refl s₂, ?_⟩
          rw [(hc.effect (h₀.leads hlead)).tables] at hrow
          rcases List.mem_append.mp hrow with hold | hnew
          · exact absurd hold hmem
          · exact (List.mem_singleton.mp hnew).symm

/-- The change beside the purchases does not read the requirements of the hints. -/
def Event.Heedless (e : Event crates) : Prop := ∀ change, e = .beside change → change.Bare

/-- What is so of the hints between two states of a run: every unlock has been bought, the content
of a hint is shown to who has unlocked it, apart from those that the routes let through, and
without the requirements of the hints everything would be the same. -/
structure Disclosure (s₀ s : Service crates) : Prop where
  bought : ∀ row ∈ s.store.unlocks, row ∈ s₀.store.unlocks ∨ ∃ purchase i s₁ s₂,
    Leads (hintStep crates) anyStep s₀ s₁ ∧ Commits purchase i s₁ s₂ ∧
      Leads (hintStep crates) anyStep s₂ s ∧ purchase.row = row
  got : ∀ now user hintId hint, getHint s.store now user hintId = .ok hint →
    hint.content ≠ none → Entitled s.store user hint hintId
  shown : ∀ now user challengeId rows, detailHints s.store now user challengeId = .ok rows →
    ∀ row ∈ rows, row.content ≠ none → ctfEnded s.store now = true ∨ viewerIsAdmin user = true ∨
      ∃ current, user = some current ∧ hasUnlock s.store current "hints" row.id = true
  gotBare : ∀ now user hintId,
    getHint s.store.bare now user hintId = (getHint s.store now user hintId).map HintRow.bare
  shownBare : ∀ now user challengeId,
    detailHints s.store.bare now user challengeId = detailHints s.store now user challengeId
  runBare : ∀ labels s', (∀ e, .other e ∈ labels → Event.Heedless e) →
    run (hintStep crates) labels s = some s' →
      run (hintStep crates) (labels.map (relabel Event.bare)) (s.map HintTables.bare) =
        some (s'.map HintTables.bare)

/-- **The content of a hint is what its account has paid for, and the requirements of the hints
are not read**: in every run. -/
theorem hints_disclosed {s₀ s : Service crates} (h₀ : Reach (hintStep crates) anyStep Initial s₀)
    (hlead : Leads (hintStep crates) anyStep s₀ s) : Disclosure s₀ s := by
  have hprogram : ∀ r : Request, Blind HintTables.bare (r.transaction crates) :=
    fun r => unlock_blind r.user r.request r.now
  refine ⟨?_, ?_, ?_, ?_, ?_, ?_⟩
  · exact fun row hrow => unlocks_bought h₀ hlead hrow
  · exact fun now user hintId hint h hcontent => getHint_entitled h hcontent
  · exact fun now user challengeId rows h row hrow hcontent => detailHints_entitled h hrow hcontent
  · exact fun now user hintId => getHint_bare s.store now user hintId
  · exact fun now user challengeId => detailHints_bare s.store now user challengeId
  · intro labels s' hevent hrun
    have hblind : AllBlind HintTables.bare s :=
      AllBlind.reach hprogram (fun _ hs => hs) (h₀.leads hlead)
    exact run_blind hprogram (fun e he t => e.apply_bare (hevent e he) t) hblind hrun

/-! ## A hint that requires another one -/

/-- A hint is created that requires the other one, and the participant unlocks it. -/
def unlockSecond : List (Locking.Label Request (Event plainCrates)) :=
  .other (.createHint ⟨none, none, 5, "In the source", 10, some (listing 3)⟩ 4) ::
    .begin { unlockHint with request := ⟨4, "hints"⟩ } :: List.replicate 15 (.advance 0 2)

/-- The document lists the hint. -/
def lists (hintId : ℤ) : Option Json → Bool
  | some (.object [(key, .array [.number text])]) =>
    key = "prerequisites" && text = toString hintId
  | _ => false

theorem mem_of_lists {hintId : ℤ} {requirements : Option Json} (h : lists hintId requirements = true) :
    hintId ∈ prerequisiteIds requirements := by
  unfold lists at h
  split at h
  · simp only [Bool.and_eq_true, decide_eq_true_eq] at h
    obtain ⟨rfl, rfl⟩ := h
    exact mem_prerequisiteIds.mpr ⟨.ofInt hintId, List.mem_singleton_self _, Json.asInt_ofInt hintId⟩
  · cases h

/-- The participant reads it, and has not unlocked the first one. -/
theorem prerequisites_unread :
    ¬ ∀ (crates : Crates) (s : Service crates) (now : Time) (current : Viewer) (hintId : ℤ)
      (hint : HintRow), Reach (hintStep crates) anyStep Initial s →
        getHint s.store now (some current) hintId = .ok hint → hint.content ≠ none →
          current.isAdmin = false → ∀ id ∈ prerequisiteIds hint.requirements,
            hasUnlock s.store current "hints" id = true := by
  intro hunlocked
  have hrun : ((run (hintStep plainCrates) unlockSecond fiftyPoints).any fun s =>
      (getHint s.store 0 (some unlockHint.user) 4).toOption.any fun hint =>
        hint.content.isSome && lists 3 hint.requirements &&
          ! hasUnlock s.store unlockHint.user "hints" 3) = true := by
    decide +kernel
  obtain ⟨s, hs, hstate⟩ := (Option.any_eq_true _ _).mp hrun
  obtain ⟨hint, hget, hfacts⟩ := (Option.any_eq_true _ _).mp hstate
  simp only [Bool.and_eq_true, Bool.not_eq_true'] at hfacts
  obtain ⟨⟨hcontent, hlists⟩, hlocked⟩ := hfacts
  have hok : getHint s.store 0 (some unlockHint.user) 4 = .ok hint := by
    rcases hresult : getHint s.store 0 (some unlockHint.user) 4 with error | row
    · rw [hresult] at hget
      cases hget
    · rw [hresult] at hget
      cases hget
      rfl
  have hne : hint.content ≠ none := Option.isSome_iff_ne_none.mp hcontent
  have htrue := hunlocked plainCrates s 0 unlockHint.user 4 hint
    (reach_of_run _ fiftyPoints_initial hs) hok hne rfl 3 (mem_of_lists hlists)
  rw [hlocked] at htrue
  cases htrue

/-- The hint is bought for its fifty points, and shown. -/
theorem hints_disclosed_fifty : ∃ s : Service plainCrates, Disclosure fiftyPoints s ∧
    s.store.unlocks.length = 1 := by
  have hrun : ((run (hintStep plainCrates)
      (.begin unlockHint :: List.replicate 15 (.advance 0 2)) fiftyPoints).any fun s =>
      s.store.unlocks.length = 1) = true := by
    decide +kernel
  obtain ⟨s, hs, hstate⟩ := (Option.any_eq_true _ _).mp hrun
  exact ⟨s, hints_disclosed (.init fiftyPoints_initial) (leads_of_run _ hs), by simpa using hstate⟩

end CtfZone.Hints
