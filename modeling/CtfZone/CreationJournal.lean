/-
# What the journal of the creations keeps

The promises of the creations and deletions: what is recorded under an idempotency key is the
creation of a resource that has not been deleted since.

* `standing`, `lastCreated` : the creation under a key, as the journal has it;
* `LawfulJournal` : nothing is created under a key while its creation stands, and a response is
  that of the last creation;
* `WellFormed` : the records are the standing creations;
* `Allowed` : the changes that the locks of a transaction allow.
-/
import CtfZone.CreateRequests
import CtfZone.KeyedTables

namespace CtfZone.Creation

open Locking.Program SharedLocks Tables
open Locking (Hold)

variable {p : Platform}

/-! ## The journal -/

/-- The creation under a key whose resource has not been deleted since. -/
def standing (key : Key) : List Outcome → Option (Record × Json)
  | [] => none
  | .created record request :: older =>
    if record.key = key then some (record, request) else standing key older
  | .deleted operation resourceId :: older =>
    (standing key older).filter fun c =>
      ! (c.1.key.operation = operation && c.1.resourceId = resourceId)
  | .replayed _ _ _ :: older => standing key older
  | .accountDeleted _ :: older => standing key older

/-- The last creation under a key. -/
def lastCreated (key : Key) : List Outcome → Option (Record × Json)
  | [] => none
  | .created record request :: older =>
    if record.key = key then some (record, request) else lastCreated key older
  | .deleted _ _ :: older => lastCreated key older
  | .replayed _ _ _ :: older => lastCreated key older
  | .accountDeleted _ :: older => lastCreated key older

/-- A response that carries the resource. -/
def Carries (responseData : Json) (resourceId : ℕ) : Prop :=
  responseData.field "id" = some (.ofInt resourceId)

/-- What an outcome is, after the older ones. -/
def Outcome.Lawful (p : Platform) (older : List Outcome) : Outcome → Prop
  | .created record request => standing record.key older = none ∧
    record.requestSha256 = canonicalDigest p.sha256 request ∧ Fits request ∧
    Carries record.responseData record.resourceId ∧
    ∀ earlier body, .created earlier body ∈ older → earlier.key.operation = record.key.operation →
      earlier.resourceId ≠ record.resourceId
  | .replayed key request responseData =>
    ∃ record first, lastCreated key older = some (record, first) ∧
      responseData = record.responseData ∧
      record.requestSha256 = canonicalDigest p.sha256 request ∧ Fits request
  | .deleted _ _ => True
  | .accountDeleted _ => True

/-- Every outcome is lawful after the older ones. -/
def LawfulJournal (p : Platform) : List Outcome → Prop
  | [] => True
  | outcome :: older => outcome.Lawful p older ∧ LawfulJournal p older

variable {key : Key} {j older newer : List Outcome} {c : Record × Json} {record : Record}
  {request : Json}

/-- What stands is the last creation. -/
theorem lastCreated_of_standing (h : standing key j = some c) : lastCreated key j = some c := by
  induction j with
  | nil => exact h
  | cons outcome older ih =>
      cases outcome with
      | created record request =>
          simp only [standing, lastCreated] at h ⊢
          split at h
          · rename_i hkey
            rw [if_pos hkey, h]
          · rename_i hkey
            rw [if_neg hkey]
            exact ih h
      | replayed => exact ih h
      | deleted operation resourceId => exact ih (Option.filter_eq_some_iff.mp h).1
      | accountDeleted => exact ih h

/-- The last creation is in the journal, and what is newer is not under its key. -/
theorem lastCreated_eq (h : lastCreated key j = some (record, request)) :
    record.key = key ∧ ∃ newer older, j = newer ++ .created record request :: older ∧
      ∀ r b, .created r b ∈ newer → r.key ≠ key := by
  induction j with
  | nil => cases h
  | cons outcome older ih =>
      -- an outcome that is not under the key is one of the newer ones
      have hskip : lastCreated key older = some (record, request) →
          (∀ r b, outcome = .created r b → r.key ≠ key) →
          record.key = key ∧ ∃ newer older', outcome :: older =
            newer ++ .created record request :: older' ∧
            ∀ r b, .created r b ∈ newer → r.key ≠ key := by
        intro h hne
        obtain ⟨hkey, newer, older', rfl, hnewer⟩ := ih h
        refine ⟨hkey, outcome :: newer, older', rfl, ?_⟩
        intro r b hmem
        rcases List.mem_cons.mp hmem with heq | hmem
        · exact hne r b heq.symm
        · exact hnewer r b hmem
      cases outcome with
      | created r b =>
          simp only [lastCreated] at h
          split at h
          · rename_i hkey
            cases h
            exact ⟨hkey, [], older, rfl, fun _ _ hmem => nomatch hmem⟩
          · rename_i hkey
            refine hskip h fun r' b' heq => ?_
            cases heq
            exact hkey
      | replayed => exact hskip h fun _ _ heq => nomatch heq
      | deleted => exact hskip h fun _ _ heq => nomatch heq
      | accountDeleted => exact hskip h fun _ _ heq => nomatch heq

theorem standing_key (h : standing key j = some c) : c.1.key = key := by
  obtain ⟨record, request⟩ := c
  exact (lastCreated_eq (lastCreated_of_standing h)).1

theorem LawfulJournal.of_append (h : LawfulJournal p (newer ++ older)) : LawfulJournal p older := by
  induction newer with
  | nil => exact h
  | cons outcome newer ih => exact ih h.2

/-- A creation stands until its resource is deleted. -/
theorem standing_append (h : LawfulJournal p (newer ++ .created record request :: older)) :
    standing record.key (newer ++ .created record request :: older) = some (record, request) ∨
      .deleted record.key.operation record.resourceId ∈ newer := by
  induction newer with
  | nil => exact .inl (if_pos rfl)
  | cons outcome newer ih =>
      rcases ih h.2 with hstands | hdeleted
      · cases outcome with
        | created r b =>
            by_cases hkey : r.key = record.key
            · have hnone : standing r.key (newer ++ .created record request :: older) = none := h.1.1
              rw [hkey, hstands] at hnone
              cases hnone
            · exact .inl ((if_neg hkey).trans hstands)
        | replayed => exact .inl hstands
        | deleted operation resourceId =>
            by_cases hthis : record.key.operation = operation ∧ record.resourceId = resourceId
            · obtain ⟨rfl, rfl⟩ := hthis
              exact .inr List.mem_cons_self
            · refine .inl (Option.filter_eq_some_iff.mpr ⟨hstands, ?_⟩)
              rw [← Bool.decide_and, decide_eq_false hthis]
              rfl
        | accountDeleted => exact .inl hstands
      · exact .inr (List.mem_cons_of_mem _ hdeleted)

/-- **Between two creations under one key the resource of the first is deleted.** -/
theorem LawfulJournal.deleted_between {newest : List Outcome} {r : Record} {b : Json}
    (h : LawfulJournal p (newest ++ .created r b :: (newer ++ .created record request :: older)))
    (hkey : r.key = record.key) :
    .deleted record.key.operation record.resourceId ∈ newer := by
  obtain ⟨⟨hnone, -⟩, hlawful⟩ := h.of_append
  rcases standing_append hlawful with hstands | hdeleted
  · rw [hkey, hstands] at hnone
    cases hnone
  · exact hdeleted

/-- What is known of the last creation under a key. -/
theorem LawfulJournal.last (h : LawfulJournal p j)
    (hlast : lastCreated key j = some (record, request)) :
    record.requestSha256 = canonicalDigest p.sha256 request ∧ Fits request ∧
      Carries record.responseData record.resourceId := by
  obtain ⟨-, newer, oldest, rfl, -⟩ := lastCreated_eq hlast
  obtain ⟨⟨-, hdigest, hfits, hcarries, -⟩, -⟩ := h.of_append
  exact ⟨hdigest, hfits, hcarries⟩

/-- A body with the digest of the last creation is that of the last creation. -/
theorem LawfulJournal.canonical {body : Json} (h : LawfulJournal p j)
    (hlast : lastCreated key j = some (record, request))
    (hdigest : record.requestSha256 = canonicalDigest p.sha256 body) (hfits : Fits body) :
    Creation.canonical body = Creation.canonical request ∨ Collide p.sha256 body request := by
  obtain ⟨hfirst, hfitsfirst, -⟩ := h.last hlast
  by_cases hcollide : Collide p.sha256 body request
  · exact .inr hcollide
  · exact .inl (digest_canonical hfits hfitsfirst hcollide (hdigest.symm.trans hfirst))

/-- An answer from the journal is that of a creation under its key, of a body with its digest. -/
theorem LawfulJournal.replayed {newest : List Outcome} {response : Json}
    (h : LawfulJournal p (newest ++ .replayed key request response :: older)) :
    ∃ newer record first oldest, older = newer ++ .created record first :: oldest ∧
      record.key = key ∧ (∀ r b, .created r b ∈ newer → r.key ≠ key) ∧
      response = record.responseData ∧ Carries response record.resourceId ∧
      (Creation.canonical request = Creation.canonical first ∨
        Collide p.sha256 request first) := by
  obtain ⟨⟨record, first, hlast, rfl, hdigest, hfits⟩, hlawful⟩ := h.of_append
  obtain ⟨hkey, newer, oldest, rfl, hnewer⟩ := lastCreated_eq hlast
  obtain ⟨-, -, hcarries⟩ := hlawful.last hlast
  exact ⟨newer, record, first, oldest, rfl, hkey, hnewer, rfl, hcarries,
    hlawful.canonical hlast hdigest hfits⟩

/-! ## The promises -/

namespace CreationTables

/-- The account has been deleted. -/
def Gone (t : CreationTables) (id : ℤ) : Prop := ∃ u ∈ t.accounts, u.id = id ∧ u.deleted = true

theorem hasAccount_iff {t : CreationTables} {id : ℤ} :
    t.hasAccount id = true ↔ ∃ u ∈ t.accounts, u.id = id ∧ u.deleted = false := by
  simp [hasAccount]

theorem record_eq_none {t : CreationTables} {key : Key} :
    t.record key = none ↔ ∀ r ∈ t.records, r.key ≠ key := by
  simp [record]

theorem record_eq {t : CreationTables} {key : Key} {r : Record} (h : t.record key = some r) :
    r ∈ t.records ∧ r.key = key :=
  ⟨List.mem_of_find?_eq_some h, by simpa using List.find?_some h⟩

end CreationTables

/-- The records are the standing creations of accounts that are there, and their resources
are there. -/
structure WellFormed (p : Platform) (t : CreationTables) : Prop where
  accounts : (t.accounts.map AccountRow.id).Nodup
  resources : ∀ r ∈ t.records, r.resourceId ∈ t.ids r.key.operation
  actors : ∀ r ∈ t.records, t.hasAccount r.key.actorUserId = true
  standing : ∀ r ∈ t.records, ∃ request, standing r.key t.journal = some (r, request)
  kept : ∀ key c, Creation.standing key t.journal = some c →
    c.1 ∈ t.records ∨ t.Gone key.actorUserId
  lawful : LawfulJournal p t.journal

/-- Nobody is both there and gone. -/
theorem WellFormed.not_gone {t : CreationTables} (h : WellFormed p t) {id : ℤ}
    (hthere : t.hasAccount id = true) : ¬ t.Gone id := by
  rintro ⟨u, hu, hid, hdeleted⟩
  obtain ⟨u', hu', hid', hthere⟩ := CreationTables.hasAccount_iff.mp hthere
  obtain rfl := List.inj_on_of_nodup_map h.accounts hu hu' (hid.trans hid'.symm)
  rw [hdeleted] at hthere
  cases hthere

/-- What the holder of a lock can rely on: nothing is created under the keys of an advisory
lock, and an account stays. -/
def Platform.Keep (p : Platform) : LockKey → CreationTables → CreationTables → Prop
  | .advisory number => fun t t' => ∀ key, p.advisoryKey key = number →
    (t.record key = none → t'.record key = none) ∧
      lastCreated key t'.journal = lastCreated key t.journal
  | .account id _ => fun t t' => t.hasAccount id = true → t'.hasAccount id = true
  | .category _ _ => fun _ _ => True
  | .challenge _ => fun _ _ => True
  | .page _ => fun _ _ => True

/-- No resource has the id, and none has had it. -/
def Unused (operation : Operation) (n : ℕ) (t : CreationTables) : Prop :=
  n ∉ t.ids operation ∧ ∀ record request, .created record request ∈ t.journal →
    record.key.operation = operation → record.resourceId ≠ n

/-- A resource is created, and its creation is recorded. -/
structure Created (record : Record) (request : Json) (t t' : CreationTables) : Prop where
  free : t.record record.key = none
  fresh : record.resourceId ∉ t.ids record.key.operation
  accounts : t'.accounts = t.accounts
  ids : ∀ operation, t'.ids operation =
    if operation = record.key.operation then t.ids operation ++ [record.resourceId]
    else t.ids operation
  records : t'.records = t.records ++ [record]
  journal : t'.journal = .created record request :: t.journal

/-- A resource is deleted, and its record with it. -/
structure Deleted (operation : Operation) (resourceId : ℕ) (t t' : CreationTables) : Prop where
  accounts : t'.accounts = t.accounts
  ids : ∀ operation', t'.ids operation' =
    if operation' = operation then (t.ids operation').filter fun id => id ≠ resourceId
    else t.ids operation'
  records : t'.records = t.records.filter fun record =>
    ! (record.key.operation = operation && record.resourceId = resourceId)
  journal : t'.journal = .deleted operation resourceId :: t.journal

/-- An account is deleted, and the records of its creations with it. -/
structure AccountDeleted (id : ℤ) (t t' : CreationTables) : Prop where
  accounts : t'.accounts =
    update (fun u => u.id = id) (fun u => { u with deleted := true }) t.accounts
  ids : ∀ operation, t'.ids operation = t.ids operation
  records : t'.records = t.records.filter fun record => record.key.actorUserId ≠ id
  journal : t'.journal = .accountDeleted id :: t.journal

/-- What a commit has done. -/
def Outcome.Effect : Outcome → CreationTables → CreationTables → Prop
  | .created record request => Created record request
  | .replayed key request responseData => fun t t' =>
    t' = { t with journal := .replayed key request responseData :: t.journal }
  | .deleted operation resourceId => Deleted operation resourceId
  | .accountDeleted id => AccountDeleted id

theorem keep_refl (k : LockKey) (t : CreationTables) : p.Keep k t t := by
  cases k with
  | advisory number => exact fun _ _ => ⟨id, rfl⟩
  | account => exact id
  | category => trivial
  | challenge => trivial
  | page => trivial

theorem keep_trans {k : LockKey} {t t' t'' : CreationTables} (h : p.Keep k t t')
    (h' : p.Keep k t' t'') : p.Keep k t t'' := by
  cases k with
  | advisory number =>
      intro key hkey
      obtain ⟨hnone, hlast⟩ := h key hkey
      obtain ⟨hnone', hlast'⟩ := h' key hkey
      exact ⟨hnone' ∘ hnone, hlast'.trans hlast⟩
  | account => exact h' ∘ h
  | category => trivial
  | challenge => trivial
  | page => trivial

/-- What the transactions keep. -/
def promises (p : Platform) : Protocol CreationTables LockKey Operation Outcome where
  Inv := WellFormed p
  Always := fun _ _ => True
  Keep := p.Keep
  Unused := Unused
  Effect := Outcome.Effect
  always_refl := fun _ => trivial
  always_trans := fun _ _ => trivial
  keep_refl := keep_refl
  keep_trans := keep_trans

/-! ## What the locks allow -/

/-- The changes that the locks allow. -/
structure Allowed (p : Platform) (held : List (Hold LockKey Operation))
    (t t' : CreationTables) : Prop where
  records : ∀ key, .lock (.advisory (p.advisoryKey key)) ∈ held ∨
    (t.record key = none → t'.record key = none) ∧
      lastCreated key t'.journal = lastCreated key t.journal
  accounts : ∀ id, .lock (.account id false) ∈ held ∨
    (t.hasAccount id = true → t'.hasAccount id = true)
  unused : ∀ operation n, .number operation n ∈ held ∨
    (Unused operation n t → Unused operation n t')

variable {held : List (Hold LockKey Operation)} {t t' : CreationTables}

/-- **They respect whatever somebody else holds.** -/
theorem Allowed.guarantee (h : Allowed p held t t') (hinv : WellFormed p t') :
    (promises p).Guarantee held t t' := by
  refine ⟨hinv, trivial, ?_⟩
  rintro (key | ⟨operation, n⟩) hapart
  · cases key with
    | advisory number =>
        rintro key rfl
        exact (h.records key).resolve_left fun hheld => hapart _ hheld (decide_eq_true rfl)
    | account id shared =>
        refine (h.accounts id).resolve_left fun hheld => hapart _ hheld ?_
        show LockKey.conflict _ _ = true
        simp [LockKey.conflict]
    | category => trivial
    | challenge => trivial
    | page => trivial
  · exact (h.unused operation n).resolve_left fun hheld => hapart _ hheld ⟨rfl, rfl⟩

/-! ## What becomes of the tables -/

section Changes

variable {operation : Operation} {resourceId : ℕ} {id : ℤ}

/-- What is created under a free key of an account that is there keeps the tables well
formed. -/
theorem Created.wellFormed (h : Created record request t t') (hs : WellFormed p t)
    (hactor : t.hasAccount record.key.actorUserId = true)
    (hunused : Unused record.key.operation record.resourceId t)
    (hdigest : record.requestSha256 = canonicalDigest p.sha256 request) (hfits : Fits request)
    (hcarries : Carries record.responseData record.resourceId) : WellFormed p t' := by
  have hfree := CreationTables.record_eq_none.mp h.free
  have hthere : ∀ id, t'.hasAccount id = t.hasAccount id := by
    intro id
    rw [CreationTables.hasAccount, CreationTables.hasAccount, h.accounts]
  have hnone : standing record.key t.journal = none := by
    rw [Option.eq_none_iff_forall_ne_some]
    intro c hc
    rcases hs.kept record.key c hc with hmem | hgone
    · exact hfree c.1 hmem (standing_key hc)
    · exact hs.not_gone hactor hgone
  refine ⟨h.accounts ▸ hs.accounts, ?_, ?_, ?_, ?_, ?_⟩
  · rw [h.records]
    intro r hr
    rw [h.ids]
    rcases List.mem_append.mp hr with hr | hr
    · split
      · exact List.mem_append_left _ (hs.resources r hr)
      · exact hs.resources r hr
    · obtain rfl := List.mem_singleton.mp hr
      rw [if_pos rfl]
      exact List.mem_append_right _ List.mem_cons_self
  · rw [h.records]
    intro r hr
    rw [hthere]
    rcases List.mem_append.mp hr with hr | hr
    · exact hs.actors r hr
    · obtain rfl := List.mem_singleton.mp hr
      exact hactor
  · rw [h.records, h.journal]
    intro r hr
    rcases List.mem_append.mp hr with hr | hr
    · obtain ⟨body, hstands⟩ := hs.standing r hr
      exact ⟨body, (if_neg (Ne.symm (hfree r hr))).trans hstands⟩
    · obtain rfl := List.mem_singleton.mp hr
      exact ⟨request, if_pos rfl⟩
  · rw [h.records, h.journal]
    intro key c hc
    simp only [standing] at hc
    split at hc
    · cases hc
      exact .inl (List.mem_append_right _ List.mem_cons_self)
    · rcases hs.kept key c hc with hmem | ⟨u, hu, hgone⟩
      · exact .inl (List.mem_append_left _ hmem)
      · exact .inr ⟨u, h.accounts ▸ hu, hgone⟩
  · rw [h.journal]
    exact ⟨⟨hnone, hdigest, hfits, hcarries, hunused.2⟩, hs.lawful⟩

/-- It needs the lock of the key, and the number. -/
theorem Created.allowed (h : Created record request t t')
    (hkey : .lock (.advisory (p.advisoryKey record.key)) ∈ held)
    (hnumber : .number record.key.operation record.resourceId ∈ held) : Allowed p held t t' := by
  refine ⟨?_, ?_, ?_⟩
  · intro key
    by_cases heq : record.key = key
    · exact .inl (heq ▸ hkey)
    · refine .inr ⟨fun hnone => ?_, ?_⟩
      · rw [CreationTables.record_eq_none] at hnone ⊢
        rw [h.records]
        intro r hr
        rcases List.mem_append.mp hr with hr | hr
        · exact hnone r hr
        · rwa [List.mem_singleton.mp hr]
      · rw [h.journal]
        exact if_neg heq
  · intro id
    rw [CreationTables.hasAccount, CreationTables.hasAccount, h.accounts]
    exact .inr fun hthere => hthere
  · intro operation n
    by_cases heq : record.key.operation = operation ∧ record.resourceId = n
    · obtain ⟨rfl, rfl⟩ := heq
      exact .inl hnumber
    · refine .inr fun hunused => ⟨?_, ?_⟩
      · rw [h.ids]
        split
        · rename_i hop
          intro hmem
          rcases List.mem_append.mp hmem with hmem | hmem
          · exact hunused.1 hmem
          · exact heq ⟨hop.symm, (List.mem_singleton.mp hmem).symm⟩
        · exact hunused.1
      · rw [h.journal]
        intro r body hmem hop
        rcases List.mem_cons.mp hmem with hthis | hmem
        · cases hthis
          exact fun hn => heq ⟨hop, hn⟩
        · exact hunused.2 r body hmem hop

/-- An answer of the last creation under a key. -/
theorem replayed_wellFormed {first response : Json} (hs : WellFormed p t)
    (hlast : lastCreated key t.journal = some (record, first))
    (hresponse : response = record.responseData)
    (hdigest : record.requestSha256 = canonicalDigest p.sha256 request) (hfits : Fits request) :
    WellFormed p { t with journal := .replayed key request response :: t.journal } :=
  ⟨hs.accounts, hs.resources, hs.actors, hs.standing, hs.kept,
    ⟨record, first, hlast, hresponse, hdigest, hfits⟩, hs.lawful⟩

theorem replayed_allowed {response : Json} :
    Allowed p held t { t with journal := .replayed key request response :: t.journal } := by
  refine ⟨fun _ => .inr ⟨id, rfl⟩, fun _ => .inr id, fun operation n => .inr fun hunused => ?_⟩
  refine ⟨hunused.1, fun r body hmem => ?_⟩
  rcases List.mem_cons.mp hmem with hthis | hmem
  · cases hthis
  · exact hunused.2 r body hmem

/-- The record of what is deleted goes with it. -/
theorem Deleted.wellFormed (h : Deleted operation resourceId t t') (hs : WellFormed p t) :
    WellFormed p t' := by
  have hmem : ∀ r ∈ t'.records, r ∈ t.records ∧
      (! (r.key.operation = operation && r.resourceId = resourceId)) = true := by
    rw [h.records]
    exact fun r hr => List.mem_filter.mp hr
  refine ⟨h.accounts ▸ hs.accounts, ?_, ?_, ?_, ?_, ?_⟩
  · intro r hr
    obtain ⟨hr, hother⟩ := hmem r hr
    rw [h.ids]
    split
    · rename_i hop
      refine List.mem_filter.mpr ⟨hs.resources r hr, ?_⟩
      simpa [hop] using hother
    · exact hs.resources r hr
  · intro r hr
    rw [CreationTables.hasAccount, h.accounts]
    exact hs.actors r (hmem r hr).1
  · intro r hr
    obtain ⟨hr, hother⟩ := hmem r hr
    obtain ⟨body, hstands⟩ := hs.standing r hr
    rw [h.journal]
    exact ⟨body, Option.filter_eq_some_iff.mpr ⟨hstands, hother⟩⟩
  · rw [h.journal, h.records]
    intro key c hc
    obtain ⟨hc, hother⟩ := Option.filter_eq_some_iff.mp hc
    rcases hs.kept key c hc with hmem | ⟨u, hu, hgone⟩
    · exact .inl (List.mem_filter.mpr ⟨hmem, hother⟩)
    · exact .inr ⟨u, h.accounts ▸ hu, hgone⟩
  · rw [h.journal]
    exact ⟨trivial, hs.lawful⟩

theorem Deleted.allowed (h : Deleted operation resourceId t t') : Allowed p held t t' := by
  refine ⟨fun key => .inr ⟨?_, ?_⟩, fun id => .inr ?_, fun operation' n => .inr ?_⟩
  · rw [CreationTables.record_eq_none, CreationTables.record_eq_none, h.records]
    exact fun hnone r hr => hnone r (List.mem_filter.mp hr).1
  · rw [h.journal]
    rfl
  · rw [CreationTables.hasAccount, CreationTables.hasAccount, h.accounts]
    exact fun hthere => hthere
  · rintro ⟨hids, hjournal⟩
    refine ⟨?_, ?_⟩
    · rw [h.ids]
      split
      · exact fun hmem => hids (List.mem_filter.mp hmem).1
      · exact hids
    · rw [h.journal]
      intro r body hmem
      rcases List.mem_cons.mp hmem with hthis | hmem
      · cases hthis
      · exact hjournal r body hmem

/-- The accounts beside the one that is deleted stay. -/
theorem AccountDeleted.hasAccount (h : AccountDeleted id t t') {id' : ℤ} (hne : id' ≠ id)
    (hthere : t.hasAccount id' = true) : t'.hasAccount id' = true := by
  rw [CreationTables.hasAccount_iff] at hthere ⊢
  obtain ⟨u, hu, rfl, hdeleted⟩ := hthere
  rw [h.accounts]
  exact ⟨u, mem_update.mpr ⟨u, hu, .inr ⟨decide_eq_false hne, rfl⟩⟩, rfl, hdeleted⟩

theorem AccountDeleted.gone (h : AccountDeleted id t t') {id' : ℤ}
    (hgone : t.Gone id' ∨ id' = id ∧ t.hasAccount id' = true) : t'.Gone id' := by
  rw [CreationTables.Gone, h.accounts]
  obtain ⟨u, hu, hid, hdeleted⟩ | ⟨rfl, hthere⟩ := hgone
  · by_cases heq : u.id = id
    · exact ⟨_, mem_update.mpr ⟨u, hu, .inl ⟨decide_eq_true heq, rfl⟩⟩, hid, rfl⟩
    · exact ⟨u, mem_update.mpr ⟨u, hu, .inr ⟨decide_eq_false heq, rfl⟩⟩, hid, hdeleted⟩
  · obtain ⟨u, hu, heq, -⟩ := CreationTables.hasAccount_iff.mp hthere
    exact ⟨_, mem_update.mpr ⟨u, hu, .inl ⟨decide_eq_true heq, rfl⟩⟩, heq, rfl⟩

/-- The records of an account go with it, and what it has created stays. -/
theorem AccountDeleted.wellFormed (h : AccountDeleted id t t') (hs : WellFormed p t) :
    WellFormed p t' := by
  have hmem : ∀ r ∈ t'.records, r ∈ t.records ∧ r.key.actorUserId ≠ id := by
    rw [h.records]
    intro r hr
    obtain ⟨hr, hother⟩ := List.mem_filter.mp hr
    exact ⟨hr, of_decide_eq_true hother⟩
  refine ⟨?_, ?_, ?_, ?_, ?_, ?_⟩
  · rw [h.accounts]
    exact nodup_update hs.accounts fun _ => rfl
  · intro r hr
    rw [h.ids]
    exact hs.resources r (hmem r hr).1
  · intro r hr
    obtain ⟨hr, hother⟩ := hmem r hr
    exact h.hasAccount hother (hs.actors r hr)
  · intro r hr
    rw [h.journal]
    exact hs.standing r (hmem r hr).1
  · rw [h.journal]
    intro key c hc
    rcases hs.kept key c hc with hr | hgone
    · have hkey : c.1.key = key := standing_key hc
      by_cases hactor : key.actorUserId = id
      · exact .inr (h.gone (.inr ⟨hactor, hkey ▸ hs.actors c.1 hr⟩))
      · rw [h.records]
        exact .inl (List.mem_filter.mpr ⟨hr, decide_eq_true (hkey.symm ▸ hactor)⟩)
    · exact .inr (h.gone (.inl hgone))
  · rw [h.journal]
    exact ⟨trivial, hs.lawful⟩

theorem AccountDeleted.allowed (h : AccountDeleted id t t')
    (hlock : .lock (.account id false) ∈ held) : Allowed p held t t' := by
  refine ⟨fun key => .inr ⟨?_, ?_⟩, fun id' => ?_, fun operation n => .inr ?_⟩
  · rw [CreationTables.record_eq_none, CreationTables.record_eq_none, h.records]
    exact fun hnone r hr => hnone r (List.mem_filter.mp hr).1
  · rw [h.journal]
    rfl
  · by_cases heq : id' = id
    · exact .inl (heq ▸ hlock)
    · exact .inr (h.hasAccount heq)
  · rintro ⟨hids, hjournal⟩
    refine ⟨by rwa [h.ids], ?_⟩
    rw [h.journal]
    intro r body hmem
    rcases List.mem_cons.mp hmem with hthis | hmem
    · cases hthis
    · exact hjournal r body hmem

end Changes

end CtfZone.Creation
