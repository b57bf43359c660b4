/-
# At most one creation under an idempotency key

The creations and deletions keep their promises, so that under one key nothing is created while
the resource of the last creation is there, whatever runs beside it and wherever it ends.

* `Keeps` : a request keeps its promises; `request_keeps` : all of them do;
* `request_answers` : what a request can answer;
* `Once` : what the journal says in every state;
* `creation_at_most_once` : the main result.
-/
import CtfZone.CreationJournal
import CtfZone.Answers

namespace CtfZone.Creation

open Locking.Program SharedLocks Tables
open Locking (Hold)
open Runs
open Slots (at')

variable {p : Platform}

/-- A request keeps its promises, whatever the others do between its statements. -/
def Keeps (p : Platform) (x : Transaction Outcome) : Prop :=
  ∀ s, WellFormed p s →
    Meets (promises p) x ⟨[], id, s⟩ fun outcome l => l.Commits (promises p) outcome

/-! ## The idempotency of a creation -/

/-- The record of the key, or none, is found under the advisory lock of the key. -/
theorem meets_lockAndReplay {header : Option (List UInt8)} {actorUserId : ℤ}
    {operation : Operation} {request : Json} {s : CreationTables}
    {Q : CreateRequest × Option Json → Local CreationTables LockKey Operation → Prop}
    (hreplay : ∀ key t record, requiredKey header = .ok key.idempotencyKey →
      key.actorUserId = actorUserId → key.operation = operation → WellFormed p t →
      t.record key = some record → record.requestSha256 = canonicalDigest p.sha256 request →
      Q (⟨key, canonicalDigest p.sha256 request⟩, some record.responseData)
        ⟨[.lock (.advisory (p.advisoryKey key))], id, t⟩)
    (hnew : ∀ key t, requiredKey header = .ok key.idempotencyKey →
      key.actorUserId = actorUserId → key.operation = operation → WellFormed p t →
      t.record key = none → Q (⟨key, canonicalDigest p.sha256 request⟩, none)
        ⟨[.lock (.advisory (p.advisoryKey key))], id, t⟩) :
    Meets (promises p) (lockAndReplay p header actorUserId operation request) ⟨[], id, s⟩ Q := by
  simp only [lockAndReplay, meets_bind, meets_liftExcept, meets_acquire, meets_select]
  intro idempotencyKey hkey s₁ _ t ht
  cases hrecord : t.record ⟨actorUserId, operation, idempotencyKey⟩ with
  | none =>
      simp only [id, hrecord]
      exact hnew ⟨actorUserId, operation, idempotencyKey⟩ t hkey rfl rfl ht.inv hrecord
  | some record =>
      simp only [id, hrecord, meets_bind, meets_check, decide_eq_true_eq, meets_pure]
      intro hdigest
      exact hreplay ⟨actorUserId, operation, idempotencyKey⟩ t record hkey rfl rfl ht.inv hrecord
        hdigest

/-- An answer from the record of the key: it stays the last creation until the commit. -/
theorem meets_replay {key : Key} {request : Json} {record : Record} {t : CreationTables}
    (hs : WellFormed p t) (hrecord : t.record key = some record)
    (hdigest : record.requestSha256 = canonicalDigest p.sha256 request) (hfits : Fits request) :
    Meets (promises p) (conclude (.replayed key request record.responseData))
      ⟨[.lock (.advisory (p.advisoryKey key))], id, t⟩
      fun outcome l => l.Commits (promises p) outcome := by
  simp only [conclude, meets_bind, meets_change, meets_pure]
  intro t' ht'
  obtain ⟨hmem, rfl⟩ := CreationTables.record_eq hrecord
  obtain ⟨first, hstands⟩ := hs.standing record hmem
  have hlast : lastCreated record.key t'.journal = some (record, first) := by
    have hkeep : p.Keep (.advisory (p.advisoryKey record.key)) t t' :=
      ht'.rely.respects _ List.mem_cons_self
    rw [(hkeep record.key rfl).2]
    exact lastCreated_of_standing hstands
  exact ⟨rfl, replayed_allowed.guarantee (replayed_wellFormed ht'.inv hlast rfl hdigest hfits)⟩

/-- What the insertion of a resource does. -/
structure Inserts (operation : Operation) (resourceId : ℕ)
    (f : CreationTables → CreationTables) : Prop where
  accounts : ∀ t, (f t).accounts = t.accounts
  records : ∀ t, (f t).records = t.records
  journal : ∀ t, (f t).journal = t.journal
  ids : ∀ t operation', (f t).ids operation' =
    if operation' = operation then t.ids operation' ++ [resourceId] else t.ids operation'

/-- A resource is inserted and its creation recorded, under the lock of its key. -/
theorem meets_complete {idempotency : CreateRequest} {resourceId : ℕ} {request response : Json}
    {f : CreationTables → CreationTables} {held : List (Hold LockKey Operation)}
    {s : CreationTables} (hf : Inserts idempotency.key.operation resourceId f)
    (hlock : .lock (.advisory (p.advisoryKey idempotency.key)) ∈ held)
    (hnumber : .number idempotency.key.operation resourceId ∈ held)
    (hnone : s.record idempotency.key = none)
    (hunused : Unused idempotency.key.operation resourceId s)
    (hdigest : idempotency.requestSha256 = canonicalDigest p.sha256 request)
    (hfits : Fits request) (hcarries : Carries response resourceId) :
    Meets (promises p) (idempotency.complete resourceId response) ⟨held, f, s⟩ fun _ l =>
      Meets (promises p) (conclude (.created (idempotency.record resourceId response) request)) l
        fun outcome l => l.Commits (promises p) outcome := by
  simp only [CreateRequest.complete, conclude, meets_bind, meets_acquire, meets_select,
    meets_check, meets_change, meets_pure]
  intro s₁ h₁ s₂ h₂ hactor t ht
  have hsince : Local.After (promises p) ⟨held, f, s⟩ t := h₁.before (h₂.since ht)
  -- the actor stays, nothing else is created under the key, and the id stays unused
  have hthere : t.hasAccount idempotency.key.actorUserId = true := by
    have hkeep : p.Keep (.account idempotency.key.actorUserId true) s₂ t :=
      ht.rely.respects _ List.mem_cons_self
    refine hkeep ?_
    rwa [CreationTables.hasAccount, hf.accounts] at hactor
  have hkeep : p.Keep (.advisory (p.advisoryKey idempotency.key)) s t :=
    hsince.rely.respects _ hlock
  have hunused : Unused idempotency.key.operation resourceId t :=
    hsince.rely.respects _ hnumber hunused
  have hcreated : Created (idempotency.record resourceId response) request t
      { f t with
        records := (f t).records ++ [idempotency.record resourceId response]
        journal := .created (idempotency.record resourceId response) request :: (f t).journal } := by
    refine ⟨(hkeep _ rfl).1 hnone, hunused.1, hf.accounts t, hf.ids t, ?_, ?_⟩
    · rw [hf.records]
    · rw [hf.journal]
  refine ⟨hcreated, (hcreated.allowed ?_ ?_).guarantee
    (hcreated.wellFormed ht.inv hthere hunused hdigest hfits hcarries)⟩
  · exact List.mem_cons_of_mem _ hlock
  · exact List.mem_cons_of_mem _ hnumber

/-- A resource is inserted under a fresh id, and its creation recorded. -/
theorem meets_insert {operation : Operation} {idempotency : CreateRequest} {request : Json}
    {response : ℕ → Json} {insert : ℕ → CreationTables → CreationTables}
    {held : List (Hold LockKey Operation)} {s : CreationTables}
    (hoperation : idempotency.key.operation = operation)
    (hinsert : ∀ n, Inserts operation n (insert n))
    (hlock : .lock (.advisory (p.advisoryKey idempotency.key)) ∈ held)
    (hnone : s.record idempotency.key = none)
    (hdigest : idempotency.requestSha256 = canonicalDigest p.sha256 request)
    (hfits : Fits request) (hcarries : ∀ n, Carries (response n) n) :
    Meets (promises p) (nextval operation : Transaction ℕ) ⟨held, id, s⟩ fun n l =>
      Meets (promises p) (change (insert n) : Transaction Unit) l fun _ l =>
        Meets (promises p) (idempotency.complete n (response n)) l fun _ l =>
          Meets (promises p) (conclude (.created (idempotency.record n (response n)) request)) l
            fun outcome l => l.Commits (promises p) outcome := by
  subst hoperation
  simp only [meets_nextval, meets_change]
  intro s' n h hn
  have hkeep : p.Keep (.advisory (p.advisoryKey idempotency.key)) s s' := h.rely.respects _ hlock
  refine meets_complete (hinsert n) ?_ ?_ ((hkeep _ rfl).1 hnone) hn hdigest hfits (hcarries n)
  · exact List.mem_cons_of_mem _ hlock
  · exact List.mem_cons_self

/-! ## The requests -/

theorem createChallengeCategory_keeps {actorUserId : ℤ} {header : Option (List UInt8)}
    {request : ChallengeCategoryInput}
    (hfits : ∀ key body, (Request.createCategory actorUserId header request).creation p =
      some (key, body) → Fits body) :
    Keeps p (createChallengeCategory p actorUserId header request) := by
  intro s hs
  rw [createChallengeCategory, meets_bind, meets_liftExcept]
  rintro ⟨input, requestData⟩ hrequest
  have hfits : ∀ key : Key, requiredKey header = .ok key.idempotencyKey → Fits requestData := by
    intro key hkey
    refine hfits ⟨actorUserId, .category, key.idempotencyKey⟩ requestData ?_
    simp [Request.creation, hrequest, hkey, Except.toOption]
  rw [meets_bind]
  refine meets_lockAndReplay ?_ ?_
  · intro key t record hkey _ _ ht hrecord hdigest
    exact meets_replay ht hrecord hdigest (hfits key hkey)
  · intro key t hkey _ hoperation _ hnone
    simp only [meets_bind]
    refine meets_insert hoperation (fun n => ?_) List.mem_cons_self hnone rfl (hfits key hkey) ?_
    · refine ⟨fun _ => rfl, fun _ => rfl, fun _ => rfl, fun t operation => ?_⟩
      cases operation with
      | category => exact List.map_append
      | challenge => rfl
      | page => rfl
    · exact fun _ => rfl

theorem createChallenge_keeps {actorUserId : ℤ} {header : Option (List UInt8)} {payload : Json}
    (hfits : ∀ key body, (Request.createChallenge actorUserId header payload).creation p =
      some (key, body) → Fits body) :
    Keeps p (createChallenge p actorUserId header payload) := by
  intro s hs
  rw [createChallenge, meets_bind, meets_liftExcept]
  intro input hinput
  have hfits : ∀ key : Key, requiredKey header = .ok key.idempotencyKey → Fits payload := by
    intro key hkey
    refine hfits ⟨actorUserId, .challenge, key.idempotencyKey⟩ payload ?_
    simp [Request.creation, hinput, hkey, Except.toOption]
  rw [meets_bind]
  refine meets_lockAndReplay ?_ ?_
  · intro key t record hkey _ _ ht hrecord hdigest
    exact meets_replay ht hrecord hdigest (hfits key hkey)
  · intro key t hkey _ hoperation _ hnone
    simp only [meets_bind, meets_acquire, meets_fetchOne]
    intro s₁ h₁ s₂ h₂ category _
    have hkeep : p.Keep (.advisory (p.advisoryKey key)) t s₂ :=
      (h₁.before h₂).rely.respects _ List.mem_cons_self
    refine meets_insert hoperation (fun n => ?_) ?_ ((hkeep key rfl).1 hnone) rfl
      (hfits key hkey) ?_
    · refine ⟨fun _ => rfl, fun _ => rfl, fun _ => rfl, fun t operation => ?_⟩
      cases operation with
      | category => rfl
      | challenge => exact List.map_append
      | page => rfl
    · exact List.mem_cons_of_mem _ List.mem_cons_self
    · exact fun _ => rfl

theorem createPage_keeps {actorUserId : ℤ} {header : Option (List UInt8)} {request : PageInput}
    {now : Time}
    (hfits : ∀ key body, (Request.createPage actorUserId header request now).creation p =
      some (key, body) → Fits body) :
    Keeps p (createPage p actorUserId header request now) := by
  intro s hs
  rw [createPage, meets_bind, meets_liftExcept]
  rintro ⟨input, requestData⟩ hrequest
  have hfits : ∀ key : Key, requiredKey header = .ok key.idempotencyKey → Fits requestData := by
    intro key hkey
    refine hfits ⟨actorUserId, .page, key.idempotencyKey⟩ requestData ?_
    simp [Request.creation, hrequest, hkey, Except.toOption]
  rw [meets_bind]
  refine meets_lockAndReplay ?_ ?_
  · intro key t record hkey _ _ ht hrecord hdigest
    exact meets_replay ht hrecord hdigest (hfits key hkey)
  · intro key t hkey _ hoperation _ hnone
    simp only [meets_bind]
    refine meets_insert hoperation (fun n => ?_) List.mem_cons_self hnone rfl (hfits key hkey) ?_
    · refine ⟨fun _ => rfl, fun _ => rfl, fun _ => rfl, fun t operation => ?_⟩
      cases operation with
      | category => rfl
      | challenge => rfl
      | page => exact List.map_append
    · exact fun _ => rfl

/-- The rows of a table without those of an id. -/
theorem map_filter_id {ρ : Type} {f : ρ → ℕ} (rows : List ρ) (id : ℕ) :
    (rows.filter fun row => f row ≠ id).map f = (rows.map f).filter fun n => n ≠ id := by
  rw [List.filter_map]
  rfl

/-- A deletion, wherever it commits. -/
theorem commits_deleted {operation : Operation} {resourceId : ℕ}
    {held : List (Hold LockKey Operation)} {t t' : CreationTables} (hs : WellFormed p t)
    (h : Deleted operation resourceId t t') :
    (promises p).Effect (.deleted operation resourceId) t t' ∧
      (promises p).Guarantee held t t' :=
  ⟨h, h.allowed.guarantee (h.wellFormed hs)⟩

theorem deleteChallengeCategory_keeps (categoryId : ℕ) :
    Keeps p (deleteChallengeCategory categoryId) := by
  intro s hs
  simp only [deleteChallengeCategory, forgetResource, conclude, meets_bind, meets_acquire,
    meets_select, meets_check, meets_change, meets_pure]
  intro s₁ h₁ s₂ h₂ _ s₃ h₃ _ t ht
  refine commits_deleted ht.inv ⟨rfl, fun operation => ?_, rfl, rfl⟩
  cases operation with
  | category => exact map_filter_id t.categories categoryId
  | challenge => rfl
  | page => rfl

theorem deleteChallenge_keeps (challengeId : ℕ) : Keeps p (deleteChallenge challengeId) := by
  intro s hs
  simp only [deleteChallenge, forgetResource, conclude, meets_bind, meets_acquire, meets_select,
    meets_check, meets_change, meets_pure]
  intro s₁ h₁ s₂ h₂ _ t ht
  refine commits_deleted ht.inv ⟨rfl, fun operation => ?_, rfl, rfl⟩
  cases operation with
  | category => rfl
  | challenge => exact map_filter_id t.challenges challengeId
  | page => rfl

theorem deletePage_keeps (pageId : ℕ) : Keeps p (deletePage pageId) := by
  intro s hs
  simp only [deletePage, forgetResource, conclude, meets_bind, meets_acquire, meets_fetchOne,
    meets_check, meets_change, meets_pure]
  intro s₁ h₁ s₂ h₂ page _ _ t ht
  refine commits_deleted ht.inv ⟨rfl, fun operation => ?_, rfl, rfl⟩
  cases operation with
  | category => rfl
  | challenge => rfl
  | page => exact map_filter_id t.pages pageId

theorem deleteUser_keeps (userId : ℤ) : Keeps p (deleteUser userId) := by
  intro s hs
  simp only [deleteUser, conclude, meets_bind, meets_acquire, meets_select, meets_check,
    meets_change, meets_pure]
  intro s₁ h₁ s₂ h₂ _ t ht
  have hdeleted : AccountDeleted userId t
      { t with
        accounts := update (·.id = userId) (fun u => { u with deleted := true }) t.accounts
        records := t.records.filter fun record => record.key.actorUserId ≠ userId
        journal := .accountDeleted userId :: t.journal } :=
    ⟨rfl, fun operation => by cases operation <;> rfl, rfl, rfl⟩
  exact ⟨hdeleted, (hdeleted.allowed List.mem_cons_self).guarantee (hdeleted.wellFormed ht.inv)⟩

/-- **Every request keeps its promises.** -/
theorem request_keeps (request : ReadRequest p) : Keeps p (request.transaction p) := by
  obtain ⟨request, hfits⟩ := request
  cases request with
  | createCategory => exact createChallengeCategory_keeps hfits
  | createChallenge => exact createChallenge_keeps hfits
  | createPage => exact createPage_keeps hfits
  | deleteCategory categoryId => exact deleteChallengeCategory_keeps categoryId
  | deleteChallenge challengeId => exact deleteChallenge_keeps challengeId
  | deletePage pageId => exact deletePage_keeps pageId
  | deleteUser userId => exact deleteUser_keeps userId

/-! ## What else happens -/

/-- Something else leaves the ids, the records and the journal, and no account goes. -/
theorem guarantee_beside {t t' : CreationTables} (hs : WellFormed p t)
    (haccounts : (t'.accounts.map AccountRow.id).Nodup)
    (hthere : ∀ u ∈ t.accounts, u ∈ t'.accounts) (hids : ∀ operation, t'.ids operation = t.ids operation)
    (hrecords : t'.records = t.records) (hjournal : t'.journal = t.journal) :
    (promises p).Guarantee [] t t' := by
  have hstay : ∀ id, t.hasAccount id = true → t'.hasAccount id = true := by
    intro id
    rw [CreationTables.hasAccount_iff, CreationTables.hasAccount_iff]
    rintro ⟨u, hu, hu'⟩
    exact ⟨u, hthere u hu, hu'⟩
  refine Allowed.guarantee ⟨?_, fun id => .inr (hstay id), ?_⟩ ⟨haccounts, ?_, ?_, ?_, ?_, ?_⟩
  · intro key
    rw [CreationTables.record, CreationTables.record, hrecords, hjournal]
    exact .inr ⟨id, rfl⟩
  · intro operation n
    rw [Unused, Unused, hids, hjournal]
    exact .inr id
  · intro r hr
    rw [hids]
    exact hs.resources r (hrecords ▸ hr)
  · intro r hr
    exact hstay _ (hs.actors r (hrecords ▸ hr))
  · intro r hr
    rw [hjournal]
    exact hs.standing r (hrecords ▸ hr)
  · rw [hjournal, hrecords]
    intro key c hc
    rcases hs.kept key c hc with hmem | ⟨u, hu, hgone⟩
    · exact .inl hmem
    · exact .inr ⟨u, hthere u hu, hgone⟩
  · rw [hjournal]
    exact hs.lawful

theorem event_guarantee (e : Event) (t : CreationTables) (hs : WellFormed p t) :
    (promises p).Guarantee [] t (e.apply t) := by
  cases e with
  | register id =>
      simp only [Event.apply]
      split
      · exact Protocol.Guarantee.refl hs
      · rename_i hnew
        refine guarantee_beside hs ?_ (fun u hu => List.mem_append_left _ hu)
          (fun operation => by cases operation <;> rfl) rfl rfl
        rw [List.map_append, List.nodup_append]
        refine ⟨hs.accounts, List.nodup_singleton _, ?_⟩
        rintro id' hid' _ hid rfl
        obtain rfl := List.mem_singleton.mp hid
        exact hnew (List.contains_iff_mem.mpr hid')
  | editCategory categoryId f =>
      refine guarantee_beside hs hs.accounts (fun _ hu => hu) (fun operation => ?_) rfl rfl
      cases operation with
      | category => exact map_update fun _ => rfl
      | challenge => rfl
      | page => rfl
  | editChallenge challengeId f =>
      refine guarantee_beside hs hs.accounts (fun _ hu => hu) (fun operation => ?_) rfl rfl
      cases operation with
      | category => rfl
      | challenge => exact map_update fun _ => rfl
      | page => rfl
  | editPage pageId f =>
      refine guarantee_beside hs hs.accounts (fun _ hu => hu) (fun operation => ?_) rfl rfl
      cases operation with
      | category => rfl
      | challenge => rfl
      | page => exact map_update fun _ => rfl

/-- Nothing has been created under a key, and nothing is in flight. -/
theorem Initial.sound {s : Service} (h : Initial s) : (promises p).Sound s := by
  refine Protocol.Sound.idle ⟨h.accounts, ?_, ?_, ?_, ?_, ?_⟩ ?_ h.running
  · rw [h.records]
    exact fun _ hr => nomatch hr
  · rw [h.records]
    exact fun _ hr => nomatch hr
  · rw [h.records]
    exact fun _ hr => nomatch hr
  · rw [h.journal]
    exact fun _ _ hc => nomatch hc
  · rw [h.journal]
    trivial
  · intro operation n hn
    refine ⟨fun hmem => ?_, ?_⟩
    · have := h.drawn operation n hmem
      omega
    · rw [h.journal]
      exact fun _ _ hmem => nomatch hmem

/-! ## What a request answers -/

theorem lockAndReplay_answers (header : Option (List UInt8)) (actorUserId : ℤ)
    (operation : Operation) (request : Json) :
    Answers (fun answer => ∃ idempotencyKey, requiredKey header = .ok idempotencyKey ∧
      answer.1.key = ⟨actorUserId, operation, idempotencyKey⟩)
      (lockAndReplay p header actorUserId operation request) := by
  rw [lockAndReplay, answers_bind, answers_liftExcept]
  intro idempotencyKey hkey
  refine .bind fun _ => .bind fun stored => ?_
  cases stored with
  | none => exact ⟨idempotencyKey, hkey, rfl⟩
  | some record => exact .bind fun _ => ⟨idempotencyKey, hkey, rfl⟩

/-- **What a creation answers is under its key and of its body.** -/
theorem request_answers {request : Request} {key : Key} {body : Json}
    (h : request.creation p = some (key, body)) :
    Answers (fun outcome => outcome.creation = some (key, body)) (request.transaction p) := by
  cases request with
  | createCategory actorUserId header request =>
      show Answers _ (createChallengeCategory p actorUserId header request)
      rw [createChallengeCategory, answers_bind, answers_liftExcept]
      rintro ⟨input, requestData⟩ hrequest
      rw [answers_bind]
      refine (lockAndReplay_answers header actorUserId .category requestData).mono ?_
      rintro ⟨idempotency, replay⟩ ⟨idempotencyKey, hkey, heq⟩
      simp [Request.creation, hrequest, hkey, Except.toOption] at h
      obtain ⟨rfl, rfl⟩ := h
      cases replay with
      | some responseData => exact congrArg (fun key => some (key, requestData)) heq
      | none =>
          exact .bind fun _ => .bind fun _ => .bind fun _ =>
            congrArg (fun key => some (key, requestData)) heq
  | createChallenge actorUserId header payload =>
      show Answers _ (createChallenge p actorUserId header payload)
      rw [createChallenge, answers_bind, answers_liftExcept]
      intro input hinput
      rw [answers_bind]
      refine (lockAndReplay_answers header actorUserId .challenge payload).mono ?_
      rintro ⟨idempotency, replay⟩ ⟨idempotencyKey, hkey, heq⟩
      simp [Request.creation, hinput, hkey, Except.toOption] at h
      obtain ⟨rfl, rfl⟩ := h
      cases replay with
      | some responseData => exact congrArg (fun key => some (key, payload)) heq
      | none =>
          exact .bind fun _ => .bind fun _ => .bind fun _ => .bind fun _ => .bind fun _ =>
            congrArg (fun key => some (key, payload)) heq
  | createPage actorUserId header request now =>
      show Answers _ (createPage p actorUserId header request now)
      rw [createPage, answers_bind, answers_liftExcept]
      rintro ⟨input, requestData⟩ hrequest
      rw [answers_bind]
      refine (lockAndReplay_answers header actorUserId .page requestData).mono ?_
      rintro ⟨idempotency, replay⟩ ⟨idempotencyKey, hkey, heq⟩
      simp [Request.creation, hrequest, hkey, Except.toOption] at h
      obtain ⟨rfl, rfl⟩ := h
      cases replay with
      | some responseData => exact congrArg (fun key => some (key, requestData)) heq
      | none =>
          exact .bind fun _ => .bind fun _ => .bind fun _ =>
            congrArg (fun key => some (key, requestData)) heq
  | deleteCategory => cases h
  | deleteChallenge => cases h
  | deletePage => cases h
  | deleteUser => cases h

/-! ## Every run -/

/-- What the tables say of the creations: between two of them under one key the resource of the
first is deleted, an answer from the journal is that of the last creation, and what is recorded
is a creation whose resource is there. -/
structure Once (p : Platform) (t : CreationTables) : Prop where
  once : ∀ newest newer older record request first body,
    t.journal = newest ++ .created record request :: (newer ++ .created first body :: older) →
    record.key = first.key → .deleted first.key.operation first.resourceId ∈ newer
  replayed : ∀ newest older key request response,
    t.journal = newest ++ .replayed key request response :: older →
    ∃ newer record first oldest, older = newer ++ .created record first :: oldest ∧
      record.key = key ∧ (∀ r b, .created r b ∈ newer → r.key ≠ key) ∧
      response = record.responseData ∧ Carries response record.resourceId ∧
      (canonical request = canonical first ∨ Collide p.sha256 request first)
  recorded : ∀ record ∈ t.records, record.resourceId ∈ t.ids record.key.operation ∧
    ∃ request, standing record.key t.journal = some (record, request)

theorem WellFormed.once {t : CreationTables} (h : WellFormed p t) : Once p t := by
  refine ⟨?_, ?_, fun r hr => ⟨h.resources r hr, h.standing r hr⟩⟩
  · intro newest newer older record request first body hjournal hkey
    exact LawfulJournal.deleted_between (hjournal ▸ h.lawful) hkey
  · intro newest older key request response hjournal
    exact LawfulJournal.replayed (hjournal ▸ h.lawful)

/-- What commits under a key while a creation stands is an answer with this creation, to a
request with its canonical body. -/
theorem replayed_of_standing {outcome : Outcome} {key : Key} {body first : Json} {record : Record}
    {t t' : CreationTables} (hs : WellFormed p t) (hs' : WellFormed p t')
    (heffect : outcome.Effect t t') (hcreation : outcome.creation = some (key, body))
    (hstands : standing key t.journal = some (record, first)) :
    outcome = .replayed key body record.responseData ∧
      (canonical body = canonical first ∨ Collide p.sha256 body first) := by
  have hlast := lastCreated_of_standing hstands
  cases outcome with
  | created record' request =>
      cases hcreation
      have hcreated : Created record' body t t' := heffect
      have hlawful := hs'.lawful
      rw [hcreated.journal] at hlawful
      obtain ⟨⟨hnone, -⟩, -⟩ := hlawful
      rw [hstands] at hnone
      cases hnone
  | replayed key' request response =>
      cases hcreation
      obtain rfl : t' = _ := heffect
      obtain ⟨⟨record', first', hlast', rfl, hdigest, hfits⟩, -⟩ := hs'.lawful
      rw [hlast] at hlast'
      cases hlast'
      exact ⟨rfl, hs.lawful.canonical hlast hdigest hfits⟩
  | deleted => cases hcreation
  | accountDeleted => cases hcreation

/-- **Idempotent creation is at most once**: in every state of every run what the journal says
of the creations is so, and a step that does not commit changes nothing that is recorded; and
a creation that commits under a key while an earlier one stands is answered with that one, and
has its canonical body, unless the two bodies collide under SHA-256. -/
theorem creation_at_most_once {s : Service} (h : Reach (serviceStep p) anyStep Initial s) :
    Once p s.store ∧
    (∀ l s', serviceStep p l s = some s' →
      s'.store = s.store ∨ (∃ e, l = .other e ∧ s'.store = e.apply s.store) ∨
        ∃ i n a outcome, l = .advance i n ∧ at' id s.running i = some a ∧
          a.program = .done outcome ∧ outcome.Effect s.store s'.store) ∧
    ∀ (request : ReadRequest p) key body s₁ s₂ a outcome,
      request.1.creation p = some (key, body) → serviceStep p (.begin request) s = some s₁ →
      Leads (serviceStep p) anyStep s₁ s₂ → at' id s₂.running s.running.length = some a →
      a.program = .done outcome → outcome.creation = some (key, body) ∧
        ∀ record first, standing key s₂.store.journal = some (record, first) →
          outcome = .replayed key body record.responseData ∧
            (canonical body = canonical first ∨ Collide p.sha256 body first) := by
  have hsound : ∀ s, Reach (serviceStep p) anyStep Initial s → (promises p).Sound s := fun _ =>
    Protocol.invariant request_keeps event_guarantee fun _ hs => hs.sound
  refine ⟨(hsound s h).inv.once, ?_, ?_⟩
  · intro l s' hstep
    rcases step_store hstep with hsame | ⟨e, he⟩ | ⟨i, n, a, outcome, hl, ha, hdone, hstore⟩
    · exact .inl hsame
    · exact .inr (.inl ⟨e, he⟩)
    · refine .inr (.inr ⟨i, n, a, outcome, hl, ha, hdone, ?_⟩)
      rw [hstore]
      exact (hsound s h).effect ha hdone
  · intro request key body s₁ s₂ a outcome hcreation hbegin hlead ha hdone
    have hbegun : Answers (fun outcome : Outcome => outcome.creation = some (key, body))
        (ReadRequest.transaction p request) := request_answers hcreation
    have hanswer : outcome.creation = some (key, body) := by
      have := (hbegun.leads hbegin hlead).answers a ha
      rwa [hdone] at this
    have hs₂ := hsound s₂ ((h.step _ trivial hbegin).leads hlead)
    obtain ⟨heffect, hguarantee⟩ := hs₂.commits ha hdone
    refine ⟨hanswer, fun record first hstands => ?_⟩
    exact replayed_of_standing hs₂.inv hguarantee.inv heffect hanswer hstands

/-- A platform whose digest keeps every byte. -/
def plainPlatform : Platform where
  sha256 := List.reverse
  challengeInput := fun _ => .error "Challenge data must be an object"
  dateTime := fun _ => ""

/-- The body of the creation of a category. -/
def webBody : Json :=
  .object [("name", .string "Web"), ("logo_key", .string "web"), ("logo_color", .string "#34689c")]

/-- A request that creates it. -/
def webCategory : ReadRequest plainPlatform :=
  ⟨.createCategory 1 (some (asBytes "create-1")) ⟨" Web ", some "web", none⟩, by
    intro key body h
    have hbody : some (⟨1, .category, "create-1"⟩, webBody) = some (key, body) := h
    cases hbody
    unfold Fits
    decide +kernel⟩

/-- An administrator, and nothing else. -/
def newService : Service :=
  ⟨⟨[⟨1, false⟩], [], [], [], [], []⟩, fun _ => 1, []⟩

theorem newService_initial : Initial newService := by
  refine ⟨List.nodup_singleton _, ?_, rfl, rfl, rfl⟩
  intro operation id hid
  cases operation with
  | category => cases hid
  | challenge => cases hid
  | page => cases hid

/-- The category is created, and the request is repeated. -/
def createAndRetry : List (Locking.Label (ReadRequest plainPlatform) Event) :=
  .begin webCategory :: List.replicate 9 (.advance 0 1) ++
    .begin webCategory :: List.replicate 4 (.advance 1 0)

/-- A category is created once by two requests under one key. -/
theorem creation_at_most_once_retry : ∃ s : Service, Once plainPlatform s.store ∧
    s.store.ids .category = [1] ∧ s.store.journal.length = 2 := by
  have hrun : ((run (serviceStep plainPlatform) createAndRetry newService).any fun s =>
      s.store.ids .category = [1] && s.store.journal.length = 2) = true := by
    decide +kernel
  obtain ⟨s, hs, hstate⟩ := (Option.any_eq_true _ _).mp hrun
  simp only [Bool.and_eq_true, decide_eq_true_eq] at hstate
  exact ⟨s, (creation_at_most_once (reach_of_run createAndRetry newService_initial hs)).1, hstate⟩

end CtfZone.Creation
