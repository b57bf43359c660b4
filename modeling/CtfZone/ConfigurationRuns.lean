/-
# The configuration over every run

The requests that change settings, one beside the other.  A request reads what is saved, checks
what there will be, and saves it, under the exclusive lock of the configuration; the setup does
so before there is an administrator who could make such a request.

* `Consistent` : what is kept: the rules hold, and every value is settled;
* `request_meets` : each request keeps it, whatever the others do;
* `configuration_consistent` : it holds in every state of every run.
-/
import CtfZone.ConfigurationRules

namespace CtfZone.Configuration

open Runs Slots SharedLocks Locking.Program
open Locking (Program Hold)
open Journal (isWhitespace)

variable {formats : Formats}

/-! ## Mutations -/

/-- What there is after mutations. -/
def overlay {β : Type} (f : String → β) (values : String → β)
    (normalized : List (String × String)) : String → β :=
  normalized.foldl (fun values (key, value) => Function.update values key (f value)) values

/-- The tables after mutations. -/
def ConfigTables.upserts (t : ConfigTables) (normalized : List (String × String)) : ConfigTables :=
  normalized.foldl (fun t (key, value) => t.upsert key value) t

@[simp] theorem config_upsert_self (t : ConfigTables) (key value : String) :
    (t.upsert key value).config key = some (some value) := by
  simp only [ConfigTables.upsert, Function.update_self]

theorem config_upsert_of_ne {t : ConfigTables} {key key' : String} (h : key' ≠ key)
    (value : String) : (t.upsert key value).config key' = t.config key' := by
  simp only [ConfigTables.upsert, Function.update_of_ne h]

@[simp] theorem values_upsert (t : ConfigTables) (key value : String) :
    (t.upsert key value).values = Function.update t.values key (some value) := by
  funext key'
  by_cases hkey : key' = key
  · subst hkey
    simp [ConfigTables.values, ConfigTables.upsert]
  · simp [ConfigTables.values, ConfigTables.upsert, hkey]

theorem values_upserts (t : ConfigTables) (normalized : List (String × String)) :
    (t.upserts normalized).values = overlay some t.values normalized := by
  induction normalized generalizing t with
  | nil => rfl
  | cons p normalized ih => exact (ih (t.upsert p.1 p.2)).trans (by rw [values_upsert]; rfl)

theorem config_upserts (t : ConfigTables) (normalized : List (String × String)) :
    (t.upserts normalized).config =
      overlay (fun value => some (some value)) t.config normalized := by
  induction normalized generalizing t with
  | nil => rfl
  | cons p normalized ih => exact ih (t.upsert p.1 p.2)

/-- What a key has is what it had, or what a mutation gives it. -/
theorem overlay_cases {β : Type} (f : String → β) (normalized : List (String × String))
    (key : String) :
    (∀ values, overlay f values normalized key = values key) ∨
      ∃ value, (key, value) ∈ normalized ∧
        ∀ values, overlay f values normalized key = f value := by
  induction normalized with
  | nil => exact .inl fun _ => rfl
  | cons p normalized ih =>
      obtain ⟨key', value'⟩ := p
      rcases ih with hsame | ⟨value, hmem, hvalue⟩
      · by_cases hkey : key = key'
        · subst hkey
          refine .inr ⟨value', List.mem_cons_self, fun values => ?_⟩
          exact (hsame _).trans (Function.update_self ..)
        · exact .inl fun values => (hsame _).trans (Function.update_of_ne hkey _ _)
      · exact .inr ⟨value, List.mem_cons_of_mem _ hmem, fun values => hvalue _⟩

theorem overlay_congr {values values' : Values} {key : String} (h : values key = values' key)
    (normalized : List (String × String)) :
    overlay some values normalized key = overlay some values' normalized key := by
  rcases overlay_cases some normalized key with hsame | ⟨value, -, hvalue⟩
  · rw [hsame, hsame, h]
  · rw [hvalue, hvalue]

/-- A key that no mutation changes. -/
theorem config_upserts_same {t : ConfigTables} {normalized : List (String × String)} {key : String}
    (h : ∀ value, (key, value) ∈ normalized → t.config key = some (some value)) :
    (t.upserts normalized).config key = t.config key := by
  rw [config_upserts]
  rcases overlay_cases (fun value => some (some value)) normalized key with
    hsame | ⟨value, hmem, hvalue⟩
  · exact hsame t.config
  · exact (hvalue t.config).trans (h value hmem).symm

/-- Every value is settled. -/
def AllSettled (formats : Formats) (values : Values) : Prop :=
  ∀ d ∈ settings, ∀ value, values d.key = some value → Settled formats d value

/-- Mutations that are settled keep every value settled. -/
theorem AllSettled.overlay {values : Values} (h : AllSettled formats values)
    {normalized : List (String × String)}
    (hnew : ∀ d ∈ settings, ∀ value, (d.key, value) ∈ normalized → Settled formats d value) :
    AllSettled formats (overlay some values normalized) := by
  intro d hd value hvalue
  rcases overlay_cases some normalized d.key with hsame | ⟨value', hmem, hvalue'⟩
  · exact h d hd value (hsame values ▸ hvalue)
  · obtain rfl : value' = value := Option.some.inj ((hvalue' values).symm.trans hvalue)
    exact hnew d hd value' hmem

/-- **What the loop normalises is settled**, and what it comes to is what there will be. -/
theorem normalizeAll_settled {merged merged' : Values} {proposed : List (String × Json)}
    {normalized : List (String × String)}
    (h : normalizeAll formats merged proposed = .ok (merged', normalized))
    (hmerged : AllSettled formats merged) :
    merged' = overlay some merged normalized ∧
      (∀ d ∈ settings, ∀ value, (d.key, value) ∈ normalized → Settled formats d value) ∧
      normalized.map Prod.fst = proposed.map Prod.fst ∧
      ∀ p ∈ normalized, ∃ d ∈ settings, d.key = p.1 := by
  induction proposed generalizing merged normalized with
  | nil =>
      cases h
      exact ⟨rfl, nofun, rfl, nofun⟩
  | cons p proposed ih =>
      obtain ⟨key, json⟩ := p
      obtain ⟨value, hvalue, h⟩ := bind_eq_ok.mp h
      obtain ⟨⟨merged'', normalized'⟩, hrest, h⟩ := bind_eq_ok.mp h
      cases h
      obtain ⟨d, hd, rfl⟩ := setting_of_normalizeValue hvalue
      have hsettled : ∀ d' ∈ settings, d'.key = d.key → Settled formats d' value := by
        intro d' hd' hkey
        rw [← hkey] at hvalue
        exact normalizeValue_settled hd' hvalue fun c hc => (hmerged d' hd' c (hkey ▸ hc)).conforms
      have hupdated : AllSettled formats (Function.update merged d.key (some value)) := by
        intro d' hd' value' hvalue'
        by_cases hkey : d'.key = d.key
        · rw [hkey, Function.update_self] at hvalue'
          exact Option.some.inj hvalue' ▸ hsettled d' hd' hkey
        · rw [Function.update_of_ne hkey] at hvalue'
          exact hmerged d' hd' value' hvalue'
      obtain ⟨rfl, hnew, hkeys, hdeclared⟩ := ih hrest hupdated
      refine ⟨rfl, ?_, ?_, ?_⟩
      · intro d' hd' value' hmem
        rcases List.mem_cons.mp hmem with heq | hmem
        · obtain ⟨hkey, rfl⟩ := Prod.ext_iff.mp heq
          exact hsettled d' hd' hkey
        · exact hnew d' hd' value' hmem
      · rw [List.map_cons, List.map_cons, hkeys]
      · intro p hp
        rcases List.mem_cons.mp hp with rfl | hp
        · exact ⟨d, hd, rfl⟩
        · exact hdeclared p hp

/-! ## Promises -/

/-- What is kept of the settings. -/
structure Consistent (formats : Formats) (t : ConfigTables) : Prop where
  untouched : t.isComplete = false → ∀ key, t.config key = none
  marked : t.isComplete = true → t.config completedMarkerKey = some (some "true")
  mode : t.isComplete = true → ∃ mode ∈ userModes, t.config "user_mode" = some (some mode)
  settled : AllSettled formats t.values
  agree : validateCrossFields t.values = .ok ⟨⟩

/-- What the holder of a lock can rely on. -/
def Keep : LockKey → ConfigTables → ConfigTables → Prop
  | .configuration, t, t' => t.isComplete = true →
    t'.isComplete = true ∧ ∀ d ∈ settings, t'.config d.key = t.config d.key
  | .setupInvariant, t, t' => t.isComplete = false → t' = t

/-- What a commit with an answer does: the routes of the configuration leave the mode. -/
def Effect : Answer → ConfigTables → ConfigTables → Prop
  | .configured _, t, t' => t'.config "user_mode" = t.config "user_mode"
  | _, _, _ => True

/-- What the requests promise. -/
def promises (formats : Formats) : Protocol ConfigTables LockKey Empty Answer where
  Inv := Consistent formats
  Always := fun t t' => t.isComplete = true → t'.isComplete = true
  Keep := Keep
  Unused := fun _ _ _ => True
  Effect := Effect
  always_refl := fun _ => id
  always_trans := fun h h' => h' ∘ h
  keep_refl := fun key t => match key with
    | .configuration => fun h => ⟨h, fun _ _ => rfl⟩
    | .setupInvariant => fun _ => rfl
  keep_trans := fun {key t t' t''} h h' => match key with
    | .configuration => fun ht =>
      ⟨(h' (h ht).1).1, fun d hd => ((h' (h ht).1).2 d hd).trans ((h ht).2 d hd)⟩
    | .setupInvariant => fun ht => by
      obtain rfl : t' = t := h ht
      exact h' ht

/-- A request keeps its promises, whatever the others do. -/
def Keeps (formats : Formats) (x : Transaction Answer) : Prop :=
  ∀ s, Consistent formats s →
    Meets (promises formats) x ⟨[], id, s⟩ fun answer l => l.Commits (promises formats) answer

/-- The portal is complete once an administrator is there. -/
theorem isComplete_of_admin {t : ConfigTables} {userId : ℤ}
    (h : t.admins.contains userId = true) : t.isComplete = true := by
  have hne : t.admins.isEmpty = false := by
    rcases hadmins : t.admins with _ | ⟨a, as⟩
    · rw [hadmins] at h
      cases h
    · rfl
  rw [ConfigTables.isComplete, hne]
  rfl

/-- A portal that is marked is complete. -/
theorem isComplete_of_marked {t : ConfigTables}
    (h : t.config completedMarkerKey = some (some "true")) : t.isComplete = true := by
  have hmarker : t.markerExists = true := by
    rw [ConfigTables.markerExists, ConfigTables.values, h]
    rfl
  rw [ConfigTables.isComplete, hmarker, Bool.or_true]

/-- Settings of a complete portal change as somebody says who holds their lock. -/
theorem guarantee_configuration {held : List (Hold LockKey Empty)} {t t' : ConfigTables}
    (hheld : .lock .configuration ∈ held) (ht : t.isComplete = true)
    (hinv : Consistent formats t') (ht' : t'.isComplete = true) :
    (promises formats).Guarantee held t t' := by
  refine ⟨hinv, fun _ => ht', fun hold hfree => ?_⟩
  rcases hold with key | ⟨q, -⟩
  · rcases key with _ | _
    · have hconflict : Conflict (Hold.lock LockKey.configuration : Hold LockKey Empty)
          (.lock .configuration) := rfl
      exact absurd hconflict (hfree _ hheld)
    · exact fun hnot => absurd (ht.symm.trans hnot) (by decide)
  · exact q.elim

/-! ## Requests -/

section Requests

variable {l : Local ConfigTables LockKey Empty} {Q : Unit → Local ConfigTables LockKey Empty → Prop}

@[simp] theorem meets_upsertConfig {key value : String} :
    Meets (promises formats) (upsertConfig key value) l Q ↔
      Q ⟨⟩ { l with pending := (·.upsert key value) ∘ l.pending } := meets_change

@[simp] theorem meets_upsertAll {normalized : List (String × String)} :
    Meets (promises formats) (upsertAll normalized) l Q ↔
      Q ⟨⟩ { l with pending := (·.upserts normalized) ∘ l.pending } := by
  induction normalized generalizing l with
  | nil => exact Iff.rfl
  | cons p normalized ih =>
      rw [upsertAll, meets_bind, meets_upsertConfig, ih]
      exact Iff.rfl

@[simp] theorem meets_requireAdmin {userId : ℤ} :
    Meets (promises formats) (requireAdmin userId) l Q ↔
      ∀ s, l.After (promises formats) s → (l.pending s).admins.contains userId = true →
        Q ⟨⟩ { l with store := s } := by
  simp only [requireAdmin, meets_bind, meets_select, meets_check]

end Requests

/-- What is known when mutations have been normalised: when they are saved, the settings are as
they were read, and the mode is the one that is asked for. -/
structure Normalized (formats : Formats) (normalized : List (String × String))
    (l : Local ConfigTables LockKey Empty) : Prop where
  pending : l.pending = id
  held : .lock .configuration ∈ l.held
  inv : Consistent formats l.store
  complete : l.store.isComplete = true
  settled : ∀ d ∈ settings, ∀ value, (d.key, value) ∈ normalized → Settled formats d value
  declared : ∀ p ∈ normalized, ∃ d ∈ settings, d.key = p.1
  agree : validateCrossFields (overlay some l.store.values normalized) = .ok ⟨⟩
  mode : overlay some l.store.values normalized "user_mode" = l.store.values "user_mode"

theorem values_congr {t t' : ConfigTables} {key : String} (h : t'.config key = t.config key) :
    t'.values key = t.values key := by
  rw [ConfigTables.values, h, ConfigTables.values]

theorem userMode_mem :
    (⟨"user_mode", "Competition mode", .select userModes, false⟩ : SettingDefinition) ∈ settings :=
  List.mem_of_getElem? (i := 3) rfl

/-- It stays known. -/
theorem Normalized.after {normalized : List (String × String)}
    {l : Local ConfigTables LockKey Empty} (h : Normalized formats normalized l) {s : ConfigTables}
    (hs : l.After (promises formats) s) : Normalized formats normalized { l with store := s } := by
  obtain ⟨hcomplete, hsame⟩ := hs.rely.respects _ h.held h.complete
  constructor
  case pending => exact h.pending
  case held => exact h.held
  case inv => exact hs.inv
  case complete => exact hcomplete
  case settled => exact h.settled
  case declared => exact h.declared
  case agree =>
    rw [← h.agree]
    refine validateCrossFields_congr fun key hkey => ?_
    obtain ⟨-, d, hd, rfl⟩ := crossKeys_settings hkey
    exact overlay_congr (values_congr (hsame d hd)) normalized
  case mode =>
    have hkept : s.values "user_mode" = l.store.values "user_mode" :=
      values_congr (hsame _ userMode_mem)
    exact (overlay_congr hkept normalized).trans (h.mode.trans hkept.symm)

/-- **What has been normalised keeps the settings consistent when it is saved.** -/
theorem Normalized.commits {normalized : List (String × String)}
    {l : Local ConfigTables LockKey Empty} (h : Normalized formats normalized l)
    (shown : Option PublicConfig) :
    Local.Commits (promises formats) (.configured shown)
      { l with pending := (·.upserts normalized) } := by
  intro s hs
  have hnow := h.after hs.written
  have hmarker : (s.upserts normalized).config completedMarkerKey = s.config completedMarkerKey := by
    refine config_upserts_same fun value hmem => ?_
    obtain ⟨d, hd, hkey⟩ := h.declared _ hmem
    exact absurd hkey (settings_sound hd).2.1
  have hmarked := hmarker.trans (hnow.inv.marked hnow.complete)
  have hcomplete : (s.upserts normalized).isComplete = true := isComplete_of_marked hmarked
  have hmode : (s.upserts normalized).config "user_mode" = s.config "user_mode" := by
    obtain ⟨mode, -, hrow⟩ := hnow.inv.mode hnow.complete
    have hvalues : (s.upserts normalized).values "user_mode" = s.values "user_mode" := by
      rw [values_upserts]
      exact hnow.mode
    rcases overlay_cases (fun value => some (some value)) normalized "user_mode" with
      hsame | ⟨value, -, hvalue⟩
    · rw [config_upserts, hsame]
    · rw [config_upserts, hvalue, hrow]
      rw [ConfigTables.values, ConfigTables.values, config_upserts, hvalue, hrow] at hvalues
      exact congrArg some hvalues
  refine ⟨hmode, guarantee_configuration h.held hnow.complete ?_ hcomplete⟩
  constructor
  case untouched => exact fun hnot => absurd (hcomplete.symm.trans hnot) (by decide)
  case marked => exact fun _ => hmarked
  case mode => exact fun _ => hmode ▸ hnow.inv.mode hnow.complete
  case settled =>
    rw [values_upserts]
    exact hnow.inv.settled.overlay hnow.settled
  case agree =>
    rw [values_upserts]
    exact hnow.agree

/-- **Mutations are normalised for what is saved at the time**, whatever the others do. -/
theorem meets_normalizeMutations {request : List (String × Json)}
    {l : Local ConfigTables LockKey Empty}
    {Q : List (String × String) → Local ConfigTables LockKey Empty → Prop}
    (hpending : l.pending = id) (hcomplete : l.store.isComplete = true)
    (h : ∀ normalized l', normalized.map Prod.fst = request.map Prod.fst →
      Normalized formats normalized l' → Q normalized l') :
    Meets (promises formats) (normalizeMutations formats request) l Q := by
  obtain ⟨held, pending, store⟩ := l
  obtain rfl : pending = id := hpending
  simp only [normalizeMutations, validateUserModeTransition, meets_bind, meets_acquire,
    meets_select, meets_liftExcept]
  rintro s₁ hs₁ s₂ hs₂ ⟨merged, normalized⟩ hall
  simp only [meets_pure]
  intro _ hagree
  have hcomplete₁ : s₁.isComplete = true := hs₁.rely.always hcomplete
  have hcomplete₂ : s₂.isComplete = true := hs₂.rely.always hcomplete₁
  obtain ⟨rfl, hsettled, hkeys, hdeclared⟩ := normalizeAll_settled hall hs₂.inv.settled
  -- What is known if the mode is not changed.
  have hnormalized : overlay some s₂.values normalized "user_mode" = s₂.values "user_mode" →
      Normalized formats normalized ⟨.lock .configuration :: held, id, s₂⟩ := by
    intro hmode
    exact ⟨rfl, List.mem_cons_self, hs₂.inv, hcomplete₂, hsettled, hdeclared, hagree, hmode⟩
  rw [meets_onlyIf]
  constructor
  · intro _
    simp only [meets_bind, meets_select, meets_check]
    intro s₃ hs₃ hprevious
    have hsame := (hs₃.rely.respects _ List.mem_cons_self hcomplete₂).2 _ userMode_mem
    obtain ⟨mode, -, hrow⟩ := hs₂.inv.mode hcomplete₂
    refine h normalized _ hkeys ((hnormalized ?_).after hs₃)
    rcases overlay_cases some normalized "user_mode" with hleft | ⟨value, -, hvalue⟩
    · exact hleft _
    · simp only [id_eq, hsame, hrow, hvalue] at hprevious
      obtain rfl : mode = value := of_decide_eq_true hprevious
      rw [hvalue, ConfigTables.values, hrow]
      rfl
  · intro hnone
    refine h normalized _ hkeys (hnormalized ?_)
    rcases overlay_cases some normalized "user_mode" with hleft | ⟨value, hmem, -⟩
    · exact hleft _
    · have hfound : (normalized.find? (·.1 = "user_mode")).isSome = true :=
        List.find?_isSome.mpr ⟨_, hmem, decide_eq_true rfl⟩
      rw [requestedMode, Option.isSome_map, hfound] at hnone
      cases hnone

/-- What has been normalised for the only key is its value. -/
theorem storedValue_eq {key stored : String} {normalized : List (String × String)}
    (hkeys : normalized.map Prod.fst = [key]) (h : storedValue normalized = .ok stored) :
    normalized = [(key, stored)] := by
  rcases normalized with _ | ⟨⟨key', value⟩, rest⟩
  · cases hkeys
  · obtain ⟨hkey, hrest⟩ := List.cons.inj hkeys
    obtain rfl : key' = key := hkey
    obtain rfl := List.map_eq_nil_iff.mp hrest
    obtain rfl : value = stored := Except.ok.inj h
    rfl

/-- The refusal to change the mode changes nothing. -/
theorem meets_rejectDirect {normalized : List (String × String)}
    {l : Local ConfigTables LockKey Empty} {Q : Unit → Local ConfigTables LockKey Empty → Prop}
    (hnormalized : Normalized formats normalized l)
    (h : ∀ l', Normalized formats normalized l' → Q ⟨⟩ l') :
    Meets (promises formats) (rejectDirectUserModeChange normalized) l Q := by
  unfold rejectDirectUserModeChange
  split
  · exact h l hnormalized
  · simp only [meets_bind, meets_select, meets_check]
    intro s hs _
    exact h _ (hnormalized.after hs)

theorem createConfig_keeps (userId : ℤ) (key : String) (value : Json) :
    Keeps formats (createConfig formats userId key value) := by
  intro s hs
  simp only [createConfig, meets_bind, meets_requireAdmin, meets_check]
  intro s₁ hs₁ hadmin _
  refine meets_normalizeMutations rfl (isComplete_of_admin hadmin) ?_
  intro normalized l hkeys hnormalized
  simp only [meets_liftExcept, meets_select, meets_upsertConfig, meets_pure]
  intro stored hstored s₂ hs₂ _
  obtain rfl := storedValue_eq hkeys hstored
  rw [hnormalized.pending]
  exact (hnormalized.after hs₂).commits _

theorem patchConfigs_keeps (userId : ℤ) (request : List (String × Json)) :
    Keeps formats (patchConfigs formats userId request) := by
  intro s hs
  simp only [patchConfigs, meets_bind, meets_requireAdmin]
  intro s₁ hs₁ hadmin
  refine meets_normalizeMutations rfl (isComplete_of_admin hadmin) ?_
  intro normalized l hkeys hnormalized
  refine meets_rejectDirect hnormalized ?_
  intro l' hnormalized'
  simp only [meets_upsertAll, meets_pure]
  rw [hnormalized'.pending]
  exact hnormalized'.commits _

theorem updateConfig_keeps (userId : ℤ) (key : String) (value : Json) :
    Keeps formats (updateConfig formats userId key value) := by
  intro s hs
  simp only [updateConfig, meets_bind, meets_requireAdmin]
  intro s₁ hs₁ hadmin
  refine meets_normalizeMutations rfl (isComplete_of_admin hadmin) ?_
  intro normalized l hkeys hnormalized
  refine meets_rejectDirect hnormalized ?_
  intro l' hnormalized'
  simp only [meets_liftExcept, meets_upsertConfig, meets_pure]
  intro stored hstored
  obtain rfl := storedValue_eq hkeys hstored
  rw [hnormalized'.pending]
  exact hnormalized'.commits _

theorem parseMode_mem {text mode : String} (h : parseMode text = .ok mode) : mode ∈ userModes := by
  unfold parseMode at h
  dsimp only at h
  split at h
  · rw [← Except.ok.inj h]
    decide
  · split at h
    · rw [← Except.ok.inj h]
      decide
    · cases h

theorem userMode_again {mode : String} (h : mode ∈ userModes) :
    normalizeValue formats "user_mode" (.string mode) none = .ok mode := by
  refine (normalizeValue_eq formats userMode_mem _ none).trans ?_
  have hall : ∀ mode ∈ userModes,
      normalizeSelect (.string mode) "Competition mode" userModes = .ok mode := by
    repeat refine List.forall_mem_cons.mpr ⟨rfl, ?_⟩
    exact List.forall_mem_nil _
  exact hall mode h

/-- A change of the mode changes nothing else. -/
theorem execute_keeps (userId : ℤ) (targetMode confirmation : String) :
    Keeps formats (execute userId targetMode confirmation) := by
  intro s hs
  simp only [execute, meets_bind, meets_requireAdmin, meets_liftExcept, meets_check,
    meets_acquire, meets_select, meets_upsertConfig, meets_pure]
  intro s₁ hs₁ hadmin mode hmode _ s₂ hs₂ s₃ hs₃ _ s₄ hs₄ _ s₅ hs₅
  have hcomplete₂ : s₂.isComplete = true := hs₂.rely.always (isComplete_of_admin hadmin)
  have hcomplete : s₅.isComplete = true :=
    hs₅.rely.always (hs₄.rely.always (hs₃.rely.always hcomplete₂))
  have hother : ∀ key ≠ "user_mode", (s₅.upsert "user_mode" mode).config key = s₅.config key :=
    fun key hkey => config_upsert_of_ne hkey mode
  have hmarked : (s₅.upsert "user_mode" mode).config completedMarkerKey = some (some "true") :=
    (hother _ (by decide)).trans (hs₅.inv.marked hcomplete)
  have hcomplete' := isComplete_of_marked hmarked
  have hmine := config_upsert_self s₅ "user_mode" mode
  refine ⟨trivial, guarantee_configuration List.mem_cons_self hcomplete ?_ hcomplete'⟩
  constructor
  case untouched => exact fun hnot => absurd (hcomplete'.symm.trans hnot) (by decide)
  case marked => exact fun _ => hmarked
  case mode => exact fun _ => ⟨mode, parseMode_mem hmode, hmine⟩
  case settled =>
    intro d hd value hvalue
    by_cases hkey : d.key = "user_mode"
    · obtain rfl : mode = value := by
        simp only [hkey, Function.comp_apply, id_eq, ConfigTables.values, hmine] at hvalue
        exact Option.some.inj hvalue
      have hagain : normalizeValue formats d.key (.string mode) none = .ok mode := by
        rw [hkey]
        exact userMode_again (parseMode_mem hmode)
      exact normalizeValue_settled hd hagain (by simp)
    · exact hs₅.inv.settled d hd value ((values_congr (hother _ hkey)) ▸ hvalue)
  case agree =>
    rw [← hs₅.inv.agree]
    refine validateCrossFields_congr fun key hkey => ?_
    exact values_congr (hother key (crossKeys_settings hkey).1)

/-- The tables that the setup leaves. -/
def ConfigTables.setUp (t : ConfigTables) (userId : ℤ) (ctfName playerFrontend : String) :
    ConfigTables :=
  (ConfigTables.upserts { t with admins := t.admins ++ [userId] }
    (setupConfig ctfName playerFrontend)).upsert completedMarkerKey "true"

/-- What it saves of the settings that belong together does not depend on the names. -/
theorem overlay_setupConfig (ctfName playerFrontend : String) {key : String}
    (h : key ∈ crossKeys) :
    overlay some (fun _ => none) (setupConfig ctfName playerFrontend) key =
      overlay some (fun _ => none) (setupConfig "" "") key := by
  have hnames : key ≠ "ctf_name" ∧ key ≠ "player_frontend" := by
    have hall : ∀ key ∈ crossKeys, key ≠ "ctf_name" ∧ key ≠ "player_frontend" := by decide
    exact hall key h
  refine overlay_congr ?_ ((setupConfig "" "").drop 2)
  dsimp only
  rw [Function.update_of_ne hnames.2, Function.update_of_ne hnames.1,
    Function.update_of_ne hnames.2, Function.update_of_ne hnames.1]

/-- **The setup leaves settings that agree**, where nothing is saved before. -/
theorem setUp_consistent {t : ConfigTables} (hempty : ∀ key, t.config key = none) (userId : ℤ)
    {text ctfName playerFrontend : String} (hname : normalizeCtfName text = .ok ctfName)
    (hfrontend : validatePlayerFrontend playerFrontend = .ok ⟨⟩) :
    Consistent formats (t.setUp userId ctfName playerFrontend) ∧
      (t.setUp userId ctfName playerFrontend).isComplete = true := by
  have hnone : ConfigTables.values { t with admins := t.admins ++ [userId] } = fun _ => none := by
    funext key
    rw [ConfigTables.values, hempty]
    rfl
  have hvalues : ∀ key, key ≠ completedMarkerKey →
      (t.setUp userId ctfName playerFrontend).values key =
        overlay some (fun _ => none) (setupConfig ctfName playerFrontend) key := by
    intro key hkey
    rw [ConfigTables.setUp, values_upsert, Function.update_of_ne hkey, values_upserts, hnone]
  have hmarked : (t.setUp userId ctfName playerFrontend).config completedMarkerKey =
      some (some "true") := config_upsert_self ..
  have hcomplete := isComplete_of_marked hmarked
  refine ⟨?_, hcomplete⟩
  constructor
  case untouched => exact fun hnot => absurd (hcomplete.symm.trans hnot) (by decide)
  case marked => exact fun _ => hmarked
  case mode =>
    refine fun _ => ⟨"users", by decide, ?_⟩
    rw [ConfigTables.setUp, config_upsert_of_ne (by decide), config_upserts]
    rfl
  case settled =>
    intro d hd value hvalue
    rw [hvalues _ (settings_sound hd).2.1] at hvalue
    have hnothing : AllSettled formats fun _ => none := fun _ _ _ h => nomatch h
    exact hnothing.overlay (setupConfig_settled hname hfrontend) d hd value hvalue
  case agree =>
    have hfixed : validateCrossFields (overlay some (fun _ => none) (setupConfig "" "")) =
        .ok ⟨⟩ := rfl
    rw [← hfixed]
    refine validateCrossFields_congr fun key hkey => ?_
    have hother : key ≠ completedMarkerKey := by
      obtain ⟨-, d, hd, rfl⟩ := crossKeys_settings hkey
      exact (settings_sound hd).2.1
    exact (hvalues key hother).trans (overlay_setupConfig ctfName playerFrontend hkey)

theorem setup_keeps (userId : ℤ) (ctfName playerFrontend : Option String) :
    Keeps formats (setup userId ctfName playerFrontend) := by
  intro s hs
  simp only [setup, meets_bind, meets_liftExcept, meets_acquire, meets_select, meets_check,
    meets_change, meets_upsertAll, meets_upsertConfig, meets_pure]
  intro name hname _ hfrontend s₁ hs₁ s₂ hs₂ hopen s₃ hs₃
  rw [id_eq, Bool.not_eq_true'] at hopen
  -- Nobody else does the setup meanwhile, and without it nothing is saved.
  obtain rfl : s₃ = s₂ := hs₃.rely.respects _ List.mem_cons_self hopen
  obtain ⟨hinv, hcomplete⟩ := setUp_consistent (hs₂.inv.untouched hopen) userId hname hfrontend
  refine ⟨trivial, hinv, fun _ => hcomplete, fun hold hfree => ?_⟩
  rcases hold with key | ⟨q, -⟩
  · rcases key with _ | _
    · exact fun hdone => absurd (hdone.symm.trans hopen) (by decide)
    · have hconflict : Conflict (Hold.lock LockKey.setupInvariant : Hold LockKey Empty)
          (.lock .setupInvariant) := rfl
      exact absurd hconflict (hfree _ List.mem_cons_self)
  · exact q.elim

/-- What has no setting under its key changes no setting. -/
theorem upsert_page {s : ConfigTables} (hs : Consistent formats s) {key : String}
    (hkey : ∀ d ∈ settings, d.key ≠ key) (hmarker : completedMarkerKey ≠ key)
    (hsaved : (s.config key).isSome = true) (value : String) :
    (promises formats).Guarantee [] s (s.upsert key value) := by
  have hcomplete : s.isComplete = true := by
    by_contra hnot
    rw [hs.untouched (Bool.eq_false_iff.mpr hnot)] at hsaved
    cases hsaved
  have hsame : ∀ d ∈ settings, (s.upsert key value).config d.key = s.config d.key :=
    fun d hd => config_upsert_of_ne (hkey d hd) value
  have hmarked := (config_upsert_of_ne hmarker value).trans (hs.marked hcomplete)
  have hcomplete' := isComplete_of_marked hmarked
  refine ⟨?_, fun _ => hcomplete', fun hold _ => ?_⟩
  · constructor
    case untouched => exact fun hnot => absurd (hcomplete'.symm.trans hnot) (by decide)
    case marked => exact fun _ => hmarked
    case mode =>
      intro _
      rw [hsame _ userMode_mem]
      exact hs.mode hcomplete
    case settled =>
      exact fun d hd value' hvalue => hs.settled d hd value' (values_congr (hsame d hd) ▸ hvalue)
    case agree =>
      rw [← hs.agree]
      refine validateCrossFields_congr fun key' hkey' => ?_
      obtain ⟨-, d, hd, rfl⟩ := crossKeys_settings hkey'
      exact values_congr (hsame d hd)
  · rcases hold with key | ⟨q, -⟩
    · rcases key with _ | _
      · exact fun _ => ⟨hcomplete', hsame⟩
      · exact fun hnot => absurd (hcomplete.symm.trans hnot) (by decide)
    · exact q.elim

theorem event_guarantee (event : Event) {s : ConfigTables} (hs : Consistent formats s) :
    (promises formats).Guarantee [] s (event.apply s) := by
  have hnothing : (promises formats).Guarantee [] s s :=
    Protocol.Guarantee.refl (show (promises formats).Inv s from hs)
  have hpages : ∀ d ∈ settings, d.key ≠ "score_visibility" ∧ d.key ≠ "challenge_visibility" := by
    simp [settings]
  rcases event with ⟨scoreboard, value⟩ | ids
  · have hpage : ∀ key, (∀ d ∈ settings, d.key ≠ key) → completedMarkerKey ≠ key →
        (promises formats).Guarantee [] s
          (if (s.config key).isSome then s.upsert key value else s) := by
      intro key hkey hmarker
      split
      · rename_i hsaved
        exact upsert_page hs hkey hmarker hsaved value
      · exact hnothing
    rcases scoreboard with _ | _
    · exact hpage "challenge_visibility" (fun d hd => (hpages d hd).2) (by decide)
    · exact hpage "score_visibility" (fun d hd => (hpages d hd).1) (by decide)
  · unfold Event.apply
    dsimp only
    split
    · exact hnothing
    · rename_i hadmins
      have hcomplete : s.isComplete = true := by
        rw [ConfigTables.isComplete, Bool.eq_false_iff.mpr hadmins]
        rfl
      have hcomplete' : ConfigTables.isComplete { s with admins := ids } = true :=
        isComplete_of_marked (hs.marked hcomplete)
      refine ⟨?_, fun _ => hcomplete', fun hold _ => ?_⟩
      · exact ⟨fun hnot => absurd (hcomplete'.symm.trans hnot) (by decide),
          fun _ => hs.marked hcomplete, fun _ => hs.mode hcomplete, hs.settled, hs.agree⟩
      · rcases hold with key | ⟨q, -⟩
        · rcases key with _ | _
          · exact fun _ => ⟨hcomplete', fun _ _ => rfl⟩
          · exact fun hnot => absurd (hcomplete.symm.trans hnot) (by decide)
        · exact q.elim

/-- Each request keeps the settings consistent. -/
theorem request_meets (request : Request) : Keeps formats (request.transaction formats) := by
  cases request with
  | createConfig userId key value => exact createConfig_keeps userId key value
  | patchConfigs userId request => exact patchConfigs_keeps userId request
  | updateConfig userId key value => exact updateConfig_keeps userId key value
  | setup userId ctfName playerFrontend => exact setup_keeps userId ctfName playerFrontend
  | execute userId targetMode confirmation => exact execute_keeps userId targetMode confirmation

/-! ## Runs -/

theorem initial_sound {s : Portal} (h : Initial s) : (promises formats).Sound s := by
  refine Protocol.Sound.idle ?_ (fun q => q.elim) h.running
  have hvalues : s.store.values = fun _ => none := by
    funext key
    rw [ConfigTables.values, h.config]
    rfl
  have hopen : s.store.isComplete = false := by
    rw [ConfigTables.isComplete, ConfigTables.markerExists, hvalues, h.admins]
    rfl
  constructor
  case untouched => exact fun _ key => congrFun h.config key
  case marked => exact fun hdone => absurd (hdone.symm.trans hopen) (by decide)
  case mode => exact fun hdone => absurd (hdone.symm.trans hopen) (by decide)
  case settled =>
    rw [hvalues]
    exact fun _ _ _ h => nomatch h
  case agree =>
    rw [hvalues]
    rfl

theorem portal_sound {s : Portal}
    (h : Reach (portalStep formats) (fun _ _ => True) Initial s) : (promises formats).Sound s :=
  Protocol.invariant (fun r t ht => request_meets r t ht) (fun e _ ht => event_guarantee e ht)
    (fun _ hinit => initial_sound hinit) h

end CtfZone.Configuration
