/-
# The identities of the hosts in every run

The invariant `Secure` of the gateways and the queue, step by step, and what follows from it.

* `Secure.transfer` : what keeps the invariant where nothing more is deleted or promised;
* `Kept` : what every step keeps;
* `secure_step`, `reach_secure` : **the invariant holds in every run**.
-/
import CtfZone.IdentitySystem

namespace CtfZone.Ssh.Identity

open Effects Effects.Prog
open Tables Runs

/-! ## Workers -/

/-- The worker has another phase, if anything. -/
structure Worker.Same (w w' : Worker) : Prop where
  gateway : w'.gateway = w.gateway
  token : w'.token = w.token
  operationId : w'.operationId = w.operationId
  hostId : w'.hostId = w.hostId
  kind : w'.kind = w.kind

theorem Worker.Same.refl (w : Worker) : w.Same w := ⟨rfl, rfl, rfl, rfl, rfl⟩

section Workers

variable {s s' : System} {token : Uuid} {phase : Phase}

theorem mem_worker {w : Worker} (h : s.worker token = some w) :
    w ∈ s.workers ∧ w.token = token :=
  ⟨List.mem_of_find?_eq_some h, of_decide_eq_true
    (List.find?_some (p := fun w : Worker => w.token = token) h)⟩

theorem mem_setPhase {w' : Worker} (hw' : w' ∈ (s.setPhase token phase).workers) :
    ∃ w ∈ s.workers, w.Same w' ∧
      ((w.token = token ∧ w'.phase = phase) ∨ (w.token ≠ token ∧ w' = w)) := by
  obtain ⟨w, hw, ⟨hp, rfl⟩ | ⟨hp, rfl⟩⟩ := mem_update.mp hw'
  · exact ⟨w, hw, ⟨rfl, rfl, rfl, rfl, rfl⟩, .inl ⟨of_decide_eq_true hp, rfl⟩⟩
  · exact ⟨w, hw, .refl w, .inr ⟨of_decide_eq_false hp, rfl⟩⟩

theorem mem_drop {w' : Worker} (hw' : w' ∈ (s.drop token).workers) :
    w' ∈ s.workers ∧ w'.token ≠ token := by
  obtain ⟨hw, hne⟩ := List.mem_filter.mp hw'
  exact ⟨hw, of_decide_eq_true hne⟩

theorem lockFree_iff {hostId : Uuid} : s.lockFree hostId = true ↔
    ∀ w ∈ s.workers, w.hostId = hostId → w.holdsLock = false := by
  simp only [System.lockFree, Bool.not_eq_true', List.any_eq_false, Bool.and_eq_true,
    decide_eq_true_eq, not_and, Bool.not_eq_true]

theorem holdsLock_of_authorized {w : Worker} (h : w.phase = .authorized) :
    w.holdsLock = true := by
  rw [Worker.holdsLock, h]

theorem Consistent.worker_eq (h : Consistent s) {w w' : Worker} (hw : w ∈ s.workers)
    (hw' : w' ∈ s.workers) (heq : w.token = w'.token) : w = w' :=
  List.inj_on_of_nodup_map h.tokens hw hw' heq

/-- The row of the operation of a worker. -/
theorem Consistent.row (h : Consistent s) {w : Worker} (hw : w ∈ s.workers) {o : OperationRow}
    (ho : o ∈ s.tables.operations) (hid : o.id = w.operationId) :
    o.hostId = w.hostId ∧ o.kind = w.kind := by
  obtain ⟨o', ho', hid', hhost, hkind⟩ := h.matched w hw
  obtain rfl := h.tables.operation_eq ho ho' (hid.trans hid'.symm)
  exact ⟨hhost, hkind⟩

theorem nodup_setPhase (h : (s.workers.map Worker.token).Nodup) :
    ((s.setPhase token phase).workers.map Worker.token).Nodup :=
  nodup_update h fun _ => rfl

theorem nodup_drop (h : (s.workers.map Worker.token).Nodup) :
    ((s.drop token).workers.map Worker.token).Nodup :=
  h.sublist (List.filter_sublist.map _)

/-! ## Consistency -/

/-- Workers keep their operations, and claims that are fresh have been drawn. -/
theorem Consistent.transfer {fresh : Uuid → Prop} (h : Consistent s) (hsound : Sound s'.tables)
    (hfollows : Follows fresh s.tables s'.tables)
    (hfresh : ∀ token, fresh token → token ∈ s'.drawn)
    (hdrawn : ∀ token ∈ s.drawn, token ∈ s'.drawn)
    (htokens : (s'.workers.map Worker.token).Nodup)
    (hworkers : ∀ w' ∈ s'.workers, (∃ w ∈ s.workers, w.Same w') ∨ w'.token ∈ s'.drawn ∧
      ∃ o ∈ s'.tables.operations, o.id = w'.operationId ∧ o.hostId = w'.hostId ∧ o.kind = w'.kind)
    (hexclusive : ∀ w ∈ s'.workers, ∀ w' ∈ s'.workers, w.holdsLock = true →
      w'.holdsLock = true → w.hostId = w'.hostId → w.token = w'.token) : Consistent s' where
  tables := hsound
  tokens := htokens
  drawn w' hw' := by
    rcases hworkers w' hw' with ⟨w, hw, hsame⟩ | ⟨hnew, -⟩
    · rw [hsame.token]
      exact hdrawn _ (h.drawn w hw)
    · exact hnew
  matched w' hw' := by
    rcases hworkers w' hw' with ⟨w, hw, hsame⟩ | ⟨-, hnew⟩
    · obtain ⟨o, ho, hid, hhost, hkind⟩ := h.matched w hw
      obtain ⟨o', ho', hrow⟩ := hfollows.row o ho
      exact ⟨o', ho', by rw [hrow.id, hid, hsame.operationId],
        by rw [hrow.hostId, hhost, hsame.hostId], by rw [hrow.kind, hkind, hsame.kind]⟩
    · exact hnew
  claims o' ho' token := by
    rintro ⟨c', hc', rfl⟩
    rcases hfollows.claim o' ho' c' hc' with hnew | ⟨o, ho, -, c, hc, htoken⟩
    · exact hfresh _ hnew
    · exact hdrawn _ (h.claims o ho _ ⟨c, hc, htoken⟩)
  exclusive := hexclusive

/-- Nobody takes a lock. -/
theorem Consistent.exclusive_of (h : Consistent s)
    (hworkers : ∀ w' ∈ s'.workers, w'.holdsLock = true →
      ∃ w ∈ s.workers, w.Same w' ∧ w.holdsLock = true) :
    ∀ w ∈ s'.workers, ∀ w' ∈ s'.workers, w.holdsLock = true → w'.holdsLock = true →
      w.hostId = w'.hostId → w.token = w'.token := by
  intro w₁ hw₁ w₂ hw₂ hlock₁ hlock₂ hhost
  obtain ⟨w₁', hw₁', hsame₁, hlock₁'⟩ := hworkers w₁ hw₁ hlock₁
  obtain ⟨w₂', hw₂', hsame₂, hlock₂'⟩ := hworkers w₂ hw₂ hlock₂
  rw [hsame₁.token, hsame₂.token]
  exact h.exclusive w₁' hw₁' w₂' hw₂' hlock₁' hlock₂'
    (hsame₁.hostId.symm.trans (hhost.trans hsame₂.hostId))

/-- What holds of the tables after a request, and the workers that are there after it. -/
theorem Consistent.ofTables (h : Consistent s) {t' : IdentityTables} (hsound : Sound t')
    (hfollows : Follows unclaimed s.tables t') : Consistent { s with tables := t' } :=
  h.transfer hsound hfollows (fun _ => False.elim) (fun _ h => h) h.tokens
    (fun w hw => .inl ⟨w, hw, .refl w⟩) h.exclusive

theorem Consistent.setPhase (h : Consistent s)
    (hlock : ∀ w ∈ s.workers, w.token = token → (phase = .locked ∨ phase = .authorized) →
      w.holdsLock = true) : Consistent (s.setPhase token phase) := by
  refine h.transfer h.tables (.refl s.tables) (fun _ => False.elim) (fun _ h => h)
    (nodup_setPhase h.tokens) ?_ (h.exclusive_of ?_)
  · intro w' hw'
    obtain ⟨w, hw, hsame, -⟩ := mem_setPhase hw'
    exact .inl ⟨w, hw, hsame⟩
  · intro w' hw' hholds
    obtain ⟨w, hw, hsame, ⟨htoken, hphase⟩ | ⟨-, rfl⟩⟩ := mem_setPhase hw'
    · refine ⟨w, hw, hsame, hlock w hw htoken ?_⟩
      unfold Worker.holdsLock at hholds
      rw [hphase] at hholds
      split at hholds
      · exact .inl rfl
      · exact .inr rfl
      · cases hholds
    · exact ⟨w', hw, hsame, hholds⟩

theorem Consistent.drop (h : Consistent s) : Consistent (s.drop token) := by
  refine h.transfer h.tables (.refl s.tables) (fun _ => False.elim) (fun _ h => h)
    (nodup_drop h.tokens) ?_ (h.exclusive_of ?_)
  · exact fun w hw => .inl ⟨w, (mem_drop hw).1, .refl w⟩
  · exact fun w hw hholds => ⟨w, (mem_drop hw).1, .refl w, hholds⟩

theorem Consistent.setVolume (h : Consistent s) (hostId : Uuid) (v : Volume) :
    Consistent (s.setVolume hostId v) :=
  ⟨h.tables, h.tokens, h.drawn, h.matched, h.claims, h.exclusive⟩

end Workers

/-! ## What is done and what is promised -/

section Promises

variable {tools : Tools} {p : Promise tools} {s s' : System} {hostId token : Uuid}
  {blob : List UInt8}

/-- A worker of a deletion has a host that is deleted. -/
theorem Consistent.not_visible (h : Consistent s) {w : Worker} (hw : w ∈ s.workers)
    (hkind : w.kind = .delete) : ¬ Visible s.tables w.hostId := by
  rintro ⟨r, hr, hid, hvisible⟩
  obtain ⟨o, ho, -, hhost, hkind'⟩ := h.matched w hw
  exact h.tables.deletion o ho (hkind'.trans hkind) r hr (hid.trans hhost.symm) hvisible

theorem Erasing.not_visible (h : Consistent s) (he : Erasing s hostId) :
    ¬ Visible s.tables hostId := by
  rcases he with ⟨w, hw, rfl, hkind, -⟩ | ⟨o, ho, rfl, hkind, -⟩
  · exact h.not_visible hw hkind
  · rintro ⟨r, hr, hid, hvisible⟩
    exact h.tables.deletion o ho hkind r hr hid hvisible

theorem Keeping.visible (hk : Keeping tools s hostId blob) : Visible s.tables hostId := by
  rcases hk with ⟨w, -, -, -, -, -, hvisible⟩ | ⟨h, hh, hid, hvisible, -⟩
  · exact hvisible
  · exact ⟨h, hh, hid, hvisible⟩

/-- The results of the workers are from before. -/
def SameResults (s s' : System) : Prop :=
  ∀ w' ∈ s'.workers, ∀ r, w'.phase = .finished (.ok r) → w' ∈ s.workers

theorem Erasing.back (hworkers : SameResults s s') (hquiet : Quiet s.tables s'.tables)
    (he : Erasing s' hostId) : Erasing s hostId := by
  rcases he with ⟨w, hw, hhost, hkind, r, hphase⟩ | ⟨o', ho', rfl, hkind, hstate⟩
  · exact .inl ⟨w, hworkers w hw r hphase, hhost, hkind, r, hphase⟩
  · exact .inr (hquiet.completed o' ho' hkind hstate)

/-- A claim that stands has stood before, and its host has been there. -/
theorem Consistent.current_back {fresh : Uuid → Prop} (h : Consistent s)
    {t' : IdentityTables} (hfollows : Follows fresh s.tables t')
    (hfresh : ∀ token, fresh token → token ∉ s.drawn) {w : Worker} (hw : w ∈ s.workers)
    (hcurrent : w.Current t') : w.Current s.tables := by
  obtain ⟨o', ho', hid', c', hc', htoken'⟩ := hcurrent
  rcases hfollows.claim o' ho' c' hc' with hnew | ⟨o, ho, hid, c, hc, htoken⟩
  · exact absurd (htoken' ▸ h.drawn w hw) (hfresh _ hnew)
  · exact ⟨o, ho, hid.trans hid', c, hc, htoken.trans htoken'⟩

theorem Consistent.visible_back {fresh : Uuid → Prop} (h : Consistent s)
    {t' : IdentityTables} (hfollows : Follows fresh s.tables t') {w : Worker}
    (hw : w ∈ s.workers) (hvisible : Visible t' w.hostId) : Visible s.tables w.hostId := by
  obtain ⟨r', hr', hid', hnone'⟩ := hvisible
  obtain ⟨o, ho, -, hhost, -⟩ := h.matched w hw
  obtain ⟨r, hr, hid, hnone⟩ := hfollows.visible r' hr' hnone' o ho (hhost.trans hid'.symm)
  exact ⟨r, hr, hid.trans hid', hnone⟩

theorem Keeping.back {fresh : Uuid → Prop} (h : Consistent s) (hworkers : SameResults s s')
    (hfollows : Follows fresh s.tables s'.tables)
    (hfresh : ∀ token, fresh token → token ∉ s.drawn) (hquiet : Quiet s.tables s'.tables)
    (hk : Keeping tools s' hostId blob) : Keeping tools s hostId blob := by
  rcases hk with ⟨w, hw, rfl, hkind, hphase, hcurrent, hvisible⟩ |
    ⟨r', hr', hid', hnone', hready', hkey', hfingerprint'⟩
  · have hmem := hworkers w hw _ hphase
    exact .inl ⟨w, hmem, rfl, hkind, hphase, h.current_back hfollows hfresh hmem hcurrent,
      h.visible_back hfollows hmem hvisible⟩
  · obtain ⟨r, hr, hid, hnone, hready, hkey, hfingerprint⟩ :=
      hquiet.ready r' hr' hnone' hready'
    exact .inr ⟨r, hr, hid.trans hid', hnone, hready, hkey.symm.trans hkey',
      hfingerprint.symm.trans hfingerprint'⟩

/-- **What keeps the invariant**: nothing more is deleted or promised, and the volumes of which
something is said stay as they are said to be. -/
theorem Secure.transfer (h : Secure p s) (hconsistent : Consistent s')
    (hworkers : SameResults s s')
    (hkeys : ∀ r ∈ s'.tables.hosts, r.deletedAt = none → r.identityState = .ready →
      ∃ blob, validEd25519Blob blob = true ∧ r.sshPublicKey = some (bareText blob) ∧
        r.sshKeyFingerprint = some (fingerprint tools.sha256 blob))
    (herasing : ∀ hostId, Erasing s' hostId → Erasing s hostId)
    (hkeeping : ∀ hostId blob, Keeping tools s' hostId blob → Keeping tools s hostId blob)
    (habsent : ∀ hostId, Erasing s hostId → s.volume hostId = .absent →
      s'.volume hostId = .absent)
    (hafter : ∀ hostId blob, Keeping tools s hostId blob → p.after hostId blob (s.volume hostId) →
      p.after hostId blob (s'.volume hostId))
    (hbefore : ∀ hostId, p.before hostId (s'.volume hostId))
    (hidle : ∀ hostId, Erasing s hostId ∨ (∃ blob, Keeping tools s hostId blob) → s.Idle hostId →
      s'.Idle hostId) : Secure p s' where
  consistent := hconsistent
  results w hw hkind r hphase := h.results w (hworkers w hw r hphase) hkind r hphase
  keys := hkeys
  erased hostId he := by
    obtain ⟨habs, hi⟩ := h.erased hostId (herasing hostId he)
    exact ⟨habsent hostId (herasing hostId he) habs, hidle hostId (.inl (herasing hostId he)) hi⟩
  kept hostId blob hk := by
    have hk₀ := hkeeping hostId blob hk
    obtain ⟨hafter₀, hi⟩ := h.kept hostId blob hk₀
    exact ⟨hafter hostId blob hk₀ hafter₀, hidle hostId (.inr ⟨blob, hk₀⟩) hi⟩
  volumes := hbefore

/-- The keys that are published are from before. -/
theorem Secure.keys_of (h : Secure p s) {t' : IdentityTables} (hquiet : Quiet s.tables t') :
    ∀ r ∈ t'.hosts, r.deletedAt = none → r.identityState = .ready →
      ∃ blob, validEd25519Blob blob = true ∧ r.sshPublicKey = some (bareText blob) ∧
        r.sshKeyFingerprint = some (fingerprint tools.sha256 blob) := by
  intro r' hr' hnone' hready'
  obtain ⟨r, hr, -, hnone, hready, hkey, hfingerprint⟩ := hquiet.ready r' hr' hnone' hready'
  rw [hkey, hfingerprint]
  exact h.keys r hr hnone hready

/-- A step that leaves the volumes alone and lets nobody begin a generation. -/
theorem Secure.ofTables {fresh : Uuid → Prop} (h : Secure p s) (hconsistent : Consistent s')
    (hvolume : s'.volume = s.volume) (hworkers : SameResults s s')
    (hfollows : Follows fresh s.tables s'.tables)
    (hfresh : ∀ token, fresh token → token ∉ s.drawn) (hquiet : Quiet s.tables s'.tables)
    (hidle : ∀ hostId, Erasing s hostId ∨ (∃ blob, Keeping tools s hostId blob) → s.Idle hostId →
      s'.Idle hostId) : Secure p s' :=
  h.transfer hconsistent hworkers (h.keys_of hquiet) (fun _ he => he.back hworkers hquiet)
    (fun _ _ hk => hk.back h.consistent hworkers hfollows hfresh hquiet)
    (fun hostId _ habsent => by rw [hvolume, habsent])
    (fun hostId blob _ hafter => by rwa [hvolume]) (by rw [hvolume]; exact h.volumes) hidle

/-- Nobody is authorized who was not. -/
theorem idle_of (hworkers : ∀ w' ∈ s'.workers, w'.phase = .authorized → w' ∈ s.workers)
    (h : s.Idle hostId) : s'.Idle hostId :=
  fun w hw hhost hphase => h w (hworkers w hw hphase) hhost hphase

/-- **What a step keeps**: the invariant, and the operations. -/
structure Kept (p : Promise tools) (s s' : System) : Prop where
  secure : Secure p s'
  later : Persist OperationRow.Later s.tables.operations s'.tables.operations

theorem Kept.trans {s'' : System} (h : Kept p s s') (h' : Kept p s' s'') : Kept p s s'' :=
  ⟨h'.secure, Persist.trans .trans h.later h'.later⟩

theorem Secure.drop (h : Secure p s) (token : Uuid) : Kept p s (s.drop token) where
  secure := h.ofTables h.consistent.drop rfl (fun _ hw _ _ => (mem_drop hw).1)
    (@Follows.refl unclaimed _) (fun _ => False.elim) (.refl _)
    fun _ _ hi => idle_of (fun _ hw _ => (mem_drop hw).1) hi
  later := Persist.refl .refl _

theorem sameResults_setPhase {phase : Phase} (hresult : ∀ r, phase ≠ .finished (.ok r)) :
    SameResults s (s.setPhase token phase) := by
  intro w' hw' r hphase
  obtain ⟨w, hw, -, ⟨-, hphase'⟩ | ⟨-, rfl⟩⟩ := mem_setPhase hw'
  · exact absurd (hphase'.symm.trans hphase) (hresult r)
  · exact hw

/-- A worker goes on to something that promises nothing. -/
theorem Secure.setPhase (h : Secure p s) {phase : Phase} (hlocked : phase ≠ .authorized)
    (hresult : ∀ r, phase ≠ .finished (.ok r)) (hconsistent : Consistent (s.setPhase token phase)) :
    Kept p s (s.setPhase token phase) := by
  refine ⟨h.ofTables hconsistent rfl (sameResults_setPhase hresult) (@Follows.refl unclaimed _)
    (fun _ => False.elim) (.refl _) fun _ _ hi => idle_of ?_ hi, Persist.refl .refl _⟩
  intro w' hw' hphase
  obtain ⟨w, hw, -, ⟨-, hphase'⟩ | ⟨-, rfl⟩⟩ := mem_setPhase hw'
  · exact absurd (hphase'.symm.trans hphase) hlocked
  · exact hw

/-- A request that completes nothing. -/
theorem Secure.benign (h : Secure p s) {t' : IdentityTables}
    (hbenign : Benign unclaimed s.tables t') : Kept p s { s with tables := t' } where
  secure := h.ofTables (h.consistent.ofTables hbenign.sound hbenign.follows) rfl
    (fun _ hw _ _ => hw) hbenign.follows (fun _ => False.elim) hbenign.quiet fun _ _ hi => hi
  later := hbenign.follows.row

end Promises

/-! ## Steps -/

section Steps

variable {tools : Tools} {p : Promise tools} {s s' : System} {token : Uuid}

theorem request_secure (h : Secure p s) {request : HostRequest}
    (hstep : System.step tools (.request request) s = some s') : Kept p s s' := by
  have hsound := h.consistent.tables
  simp only [System.step] at hstep
  split at hstep
  swap
  · cases hstep
  rename_i hfresh
  split at hstep
  · rename_i t hok
    rw [← Option.some.inj hstep]
    refine h.benign ?_
    cases request with
    | createHost hostId operationId now =>
      simp only [HostRequest.fresh, Bool.and_eq_true, List.all_eq_true, decide_eq_true_eq]
        at hfresh
      exact createHost_benign hsound hfresh.1 hfresh.2 hok
    | deleteHost hostId operationId now =>
      simp only [HostRequest.fresh, List.all_eq_true, decide_eq_true_eq] at hfresh
      exact deleteHost_benign hsound hfresh hok
    | retryIdentity hostId operationId now =>
      simp only [HostRequest.fresh, List.all_eq_true, decide_eq_true_eq] at hfresh
      exact retryIdentity_benign hsound hfresh hok
    | reportIdentityInvalid hostId errorCode =>
      exact reportIdentityInvalid_benign hsound hok
  · rw [← Option.some.inj hstep]
    exact h.benign (.refl hsound)

theorem claim_secure (h : Secure p s) {gateway : Uuid} {now : Time} {skipped : List Uuid}
    (hstep : System.step tools (.claim gateway token now skipped) s = some s') :
    Kept p s s' := by
  simp only [System.step] at hstep
  split at hstep
  · cases hstep
  rename_i hnew
  have hdrawn : token ∉ s.drawn := by
    intro hmem
    exact hnew (List.contains_iff_mem.mpr hmem)
  have hfresh : ∀ token', token' = token → token' ∉ s.drawn := by
    rintro _ rfl
    exact hdrawn
  split at hstep
  · rename_i t hclaim
    rw [← Option.some.inj hstep]
    exact h.benign (claim_none h.consistent.tables hclaim)
  · rename_i o t hclaim
    obtain ⟨hbenign, o', ho', hsame⟩ := claim_some h.consistent.tables hclaim
    obtain rfl := Option.some.inj hstep
    have hworker : ∀ w ∈ s.workers, w.token ≠ token := by
      rintro w hw rfl
      exact hdrawn (h.consistent.drawn w hw)
    refine ⟨h.ofTables ?_ rfl ?_ hbenign.follows hfresh hbenign.quiet fun _ _ hi => ?_,
      hbenign.follows.row⟩
    · refine h.consistent.transfer hbenign.sound hbenign.follows ?_
        (fun _ hmem => List.mem_cons_of_mem _ hmem) ?_ ?_ (h.consistent.exclusive_of ?_)
      · rintro _ rfl
        exact List.mem_cons_self
      · exact nodup_insert h.consistent.tokens hworker
      · refine forall_insert (fun w hw => .inl ⟨w, hw, .refl w⟩) (.inr ⟨List.mem_cons_self, ?_⟩)
        exact ⟨o', ho', hsame.id, hsame.hostId, hsame.kind⟩
      · refine forall_insert (fun w hw hholds => ⟨w, hw, .refl w, hholds⟩) ?_
        exact fun hholds => absurd hholds Bool.false_ne_true
    · refine forall_insert (P := fun w => ∀ r, w.phase = .finished (.ok r) → w ∈ s.workers)
        (fun w hw _ _ => hw) ?_
      intro r (hphase : Phase.claimed = .finished (.ok r))
      cases hphase
    · refine idle_of ?_ hi
      refine forall_insert (P := fun w => w.phase = .authorized → w ∈ s.workers)
        (fun w hw _ => hw) ?_
      intro (hphase : Phase.claimed = .authorized)
      cases hphase

theorem lock_secure (h : Secure p s)
    (hstep : System.step tools (.lock token) s = some s') : Kept p s s' := by
  simp only [System.step] at hstep
  split at hstep
  · rename_i gateway token' operationId hostId kind hworker
    obtain ⟨hmem, rfl⟩ := mem_worker hworker
    split at hstep
    · rename_i hfree
      obtain rfl := Option.some.inj hstep
      rw [lockFree_iff] at hfree
      refine h.setPhase nofun nofun ?_
      refine h.consistent.transfer h.consistent.tables (.refl s.tables) (fun _ => False.elim)
        (fun _ h => h) (nodup_setPhase h.consistent.tokens) ?_ ?_
      · intro w' hw'
        obtain ⟨w, hw, hsame, -⟩ := mem_setPhase hw'
        exact .inl ⟨w, hw, hsame⟩
      · -- the worker is alone at its host
        have hother : ∀ w' ∈ (s.setPhase token' .locked).workers, w'.holdsLock = true →
            w'.token = token' ∧ w'.hostId = hostId ∨ w'.hostId ≠ hostId ∧ w' ∈ s.workers := by
          intro w' hw' hholds
          obtain ⟨w, hw, hsame, ⟨htoken, -⟩ | ⟨-, rfl⟩⟩ := mem_setPhase hw'
          · have heq := h.consistent.worker_eq hw hmem htoken
            exact .inl ⟨hsame.token.trans htoken, by rw [hsame.hostId, heq]⟩
          · refine .inr ⟨fun hhost => ?_, hw⟩
            rw [hfree w' hw hhost] at hholds
            cases hholds
        intro w₁ hw₁ w₂ hw₂ hholds₁ hholds₂ hhost
        rcases hother w₁ hw₁ hholds₁ with ⟨ht₁, hh₁⟩ | ⟨hh₁, hm₁⟩ <;>
          rcases hother w₂ hw₂ hholds₂ with ⟨ht₂, hh₂⟩ | ⟨hh₂, hm₂⟩
        · rw [ht₁, ht₂]
        · exact absurd (hhost.symm.trans hh₁) hh₂
        · exact absurd (hhost.trans hh₂) hh₁
        · exact h.consistent.exclusive w₁ hm₁ w₂ hm₂ hholds₁ hholds₂ hhost
    · cases hstep
  · cases hstep

theorem fail_secure (h : Secure p s) {now : Time}
    (hstep : System.step tools (.fail token now) s = some s') : Kept p s s' := by
  simp only [System.step] at hstep
  split at hstep
  · split at hstep
    · rename_i t hok
      rw [← Option.some.inj hstep]
      have hfailed := h.benign (failIdentityOperation_benign h.consistent.tables hok)
      exact hfailed.trans (hfailed.secure.drop token)
    · rw [← Option.some.inj hstep]
      exact h.drop token
  · cases hstep

/-- Two workers with claims to generate an identity of one host are one. -/
theorem Consistent.current_unique (h : Consistent s) {w w' : Worker} (hw : w ∈ s.workers)
    (hw' : w' ∈ s.workers) (hcurrent : w.Current s.tables) (hcurrent' : w'.Current s.tables)
    (hhost : w.hostId = w'.hostId) (hkind : w.kind = w'.kind) : w = w' := by
  obtain ⟨o, ho, hid, hholder⟩ := hcurrent
  obtain ⟨o', ho', hid', hholder'⟩ := hcurrent'
  obtain ⟨hrhost, hrkind⟩ := h.row hw ho hid
  obtain ⟨hrhost', hrkind'⟩ := h.row hw' ho' hid'
  have hopen := h.tables.oneOpen o ho o' ho' hholder.isOpen hholder'.isOpen
    (by rw [hrhost, hrhost', hhost]) (by rw [hrkind, hrkind', hkind])
  obtain rfl := h.tables.operation_eq ho ho' hopen
  obtain ⟨c, hc, htoken⟩ := hholder
  obtain ⟨c', hc', htoken'⟩ := hholder'
  obtain rfl := OperationState.claimed.inj (hc.symm.trans hc')
  exact h.worker_eq hw hw' (htoken.symm.trans htoken')

/-- A generation begins where nothing is promised. -/
theorem Secure.heartbeat (h : Secure p s) {now : Time}
    (hstep : System.step tools (.heartbeat token now) s = some s') : Kept p s s' := by
  simp only [System.step] at hstep
  split at hstep
  swap
  · cases hstep
  rename_i gateway token' operationId hostId kind hworker
  obtain ⟨hmem, rfl⟩ := mem_worker hworker
  split at hstep
  swap
  · rw [← Option.some.inj hstep]
    exact h.drop _
  rename_i t hok
  obtain rfl := Option.some.inj hstep
  obtain ⟨hbenign, o, ho, hid, hholder, hwaiting⟩ := heartbeat_benign h.consistent.tables hok
  have hcurrent : Worker.Current ⟨gateway, token', operationId, hostId, kind, .locked⟩ s.tables :=
    ⟨o, ho, hid, hholder⟩
  obtain ⟨hrhost, hrkind⟩ := h.consistent.row hmem ho hid
  have hbase := (h.benign hbenign).secure
  refine ⟨hbase.ofTables (hbase.consistent.setPhase fun w hw htoken _ => ?_) rfl
    (sameResults_setPhase nofun) (@Follows.refl unclaimed _) (fun _ => False.elim) (.refl _) ?_,
    hbenign.follows.row⟩
  · rw [h.consistent.worker_eq hw hmem htoken]
    rfl
  · intro hostId' hpromise hi w' hw' hhost' hphase
    obtain ⟨w, hw, hsame, ⟨htoken, -⟩ | ⟨-, rfl⟩⟩ := mem_setPhase hw'
    swap
    · exact hi w' hw hhost' hphase
    obtain rfl := h.consistent.worker_eq hw hmem htoken
    rcases hwaiting with hdelete | ⟨host, hhost, hhostid, hvisible, hpending⟩
    · exact hsame.kind.trans (hrkind.symm.trans hdelete)
    by_contra hnot
    have hgenerate : kind = .generate := by
      cases kind with
      | generate => rfl
      | delete => exact absurd hsame.kind hnot
    have hresults : SameResults s { s with tables := t } := fun _ hw _ _ => hw
    have hhosts : hostId' = hostId := hhost'.symm.trans hsame.hostId
    have hwaits : host.id = hostId := hhostid.trans hrhost
    rcases hpromise with he | ⟨blob, hk⟩
    · refine (he.back hresults hbenign.quiet).not_visible h.consistent ?_
      exact ⟨host, hhost, hwaits.trans hhosts.symm, hvisible⟩
    · rcases hk.back h.consistent hresults hbenign.follows (fun _ => False.elim)
        hbenign.quiet with ⟨w₂, hw₂, hhost₂, hkind₂, hphase₂, hcurrent₂, -⟩ |
        ⟨r₂, hr₂, hid₂, -, hready₂, -⟩
      · -- the worker that has generated an identity would be the one that is to begin
        have heq := h.consistent.current_unique hw₂ hmem hcurrent₂ hcurrent
          (hhost₂.trans hhosts) (hkind₂.trans hgenerate.symm)
        rw [heq] at hphase₂
        cases hphase₂
      · obtain rfl := h.consistent.tables.host_eq hr₂ hhost (hid₂.trans (hhosts.trans hwaits.symm))
        rw [hpending] at hready₂
        cases hready₂

/-! ### Work under the lock -/

/-- What a worker has generated is on the volume, and what it has deleted is not. -/
theorem operate_generate {hostId : Uuid} {env : Env} (henv : p.env env) :
    Contract (operate tools .generate hostId) env (p.before hostId)
      (fun r v => p.before hostId v ∧ ∃ blob, validEd25519Blob blob = true ∧
        r = some (materialOf tools.sha256 (hyphenated hostId) blob) ∧ p.after hostId blob v)
      (p.before hostId) := by
  refine (p.generate hostId env henv).bind fun m => contract_pure fun v => ?_
  rintro ⟨hv, blob, hvalid, rfl, hafter⟩
  exact ⟨hv, blob, hvalid, rfl, hafter⟩

theorem operate_delete {hostId : Uuid} {env : Env} {v v' : Volume} {r : Option IdentityMaterial}
    (hrun : operate tools .delete hostId env v = (.done r, v')) : v' = .absent := by
  have hcontract : Contract (operate tools .delete hostId) env (fun _ => True)
      (fun _ v => v = .absent) fun _ => True :=
    delete_absent.bind fun _ => contract_pure fun v hv => hv
  exact hcontract.done trivial hrun

theorem operate_before {kind : OperationKind} {hostId : Uuid} {env : Env} (henv : p.env env)
    {v : Volume} (hv : p.before hostId v) :
    p.before hostId (operate tools kind hostId env v).2 := by
  cases kind with
  | generate =>
    exact (operate_generate henv).preserves (fun _ _ h => h.1) (fun _ h => h) v hv
  | delete =>
    have hpreserves : Preserves (operate tools .delete hostId) env (p.before hostId) :=
      (p.delete hostId env).bind fun _ => preserves_pure _
    exact hpreserves v hv

theorem operate_delete_absent {hostId : Uuid} {env : Env} :
    (operate tools .delete hostId env .absent).2 = .absent := by
  have hpreserves : Preserves (operate tools .delete hostId) env (· = .absent) :=
    delete_of_absent.bind fun _ => preserves_pure _
  exact hpreserves _ rfl

/-- Another volume of a host of which nothing else is said. -/
theorem Secure.setVolume (h : Secure p s) {hostId : Uuid} {v : Volume}
    (habsent : Erasing s hostId → s.volume hostId = .absent → v = .absent)
    (hafter : ∀ blob, Keeping tools s hostId blob → p.after hostId blob (s.volume hostId) →
      p.after hostId blob v)
    (hbefore : p.before hostId v) : Kept p s (s.setVolume hostId v) := by
  refine ⟨h.transfer (h.consistent.setVolume hostId v) (fun _ hw _ _ => hw) h.keys
    (fun _ he => he) (fun _ _ hk => hk) ?_ ?_ ?_ fun _ _ hi => hi, Persist.refl .refl _⟩
  · refine (Function.forall_update_iff s.volume fun hostId' v' =>
      Erasing s hostId' → s.volume hostId' = .absent → v' = .absent).mpr ⟨habsent, ?_⟩
    exact fun _ _ _ hvolume => hvolume
  · refine (Function.forall_update_iff s.volume fun hostId' v' => ∀ blob,
      Keeping tools s hostId' blob → p.after hostId' blob (s.volume hostId') →
        p.after hostId' blob v').mpr ⟨hafter, ?_⟩
    exact fun _ _ _ _ hvolume => hvolume
  · exact (Function.forall_update_iff s.volume p.before).mpr ⟨hbefore, fun _ _ => h.volumes _⟩

/-- Nothing is promised of a host at which a generation is under way. -/
theorem Secure.authorized (h : Secure p s) {w : Worker} (hw : w ∈ s.workers)
    (hphase : w.phase = .authorized) (hkind : w.kind = .generate) :
    ¬ Erasing s w.hostId ∧ ∀ blob, ¬ Keeping tools s w.hostId blob := by
  have hbusy : ¬ s.Idle w.hostId := by
    intro hi
    rw [hi w hw rfl hphase] at hkind
    cases hkind
  exact ⟨fun he => hbusy (h.erased _ he).2, fun blob hk => hbusy (h.kept _ blob hk).2⟩

theorem perform_secure (h : Secure p s) {env : Env} (henv : p.env env)
    (hstep : System.step tools (.perform token env) s = some s') : Kept p s s' := by
  simp only [System.step] at hstep
  split at hstep
  swap
  · cases hstep
  rename_i w gateway token' operationId hostId kind hworker
  obtain rfl := Option.some.inj hstep
  obtain ⟨hmem, rfl⟩ := mem_worker hworker
  dsimp only
  rcases hrun : operate tools kind hostId env (s.volume hostId) with ⟨outcome, v⟩
  have hbefore : p.before hostId v := by
    have hrest : p.before hostId (operate tools kind hostId env (s.volume hostId)).2 :=
      operate_before henv (h.volumes hostId)
    rwa [hrun] at hrest
  -- the volume by itself: nothing is promised of it, or it stays absent
  have hplaced : Kept p s (s.setVolume hostId v) := by
    cases kind with
    | generate =>
      obtain ⟨herasing, hkeeping⟩ := h.authorized hmem rfl rfl
      exact h.setVolume (fun he => absurd he herasing)
        (fun blob hk => absurd hk (hkeeping blob)) hbefore
    | delete =>
      refine h.setVolume (fun _ habsent => ?_)
        (fun blob hk => absurd hk.visible (h.consistent.not_visible hmem rfl)) hbefore
      rw [habsent] at hrun
      have hsnd := congrArg Prod.snd hrun
      rw [operate_delete_absent] at hsnd
      exact hsnd.symm
  have hvolume := hplaced.secure
  have hlock : ∀ phase : Phase, (phase ≠ .locked ∧ phase ≠ .authorized) →
      Consistent ((s.setVolume hostId v).setPhase token' phase) := by
    intro phase hphase
    exact hvolume.consistent.setPhase fun _ _ _ hor =>
      absurd hor (not_or.mpr hphase)
  cases outcome with
  | halted => exact hplaced.trans (hvolume.drop token')
  | raised error =>
    exact hplaced.trans (hvolume.setPhase nofun nofun (hlock _ ⟨nofun, nofun⟩))
  | done r =>
    have hback : ∀ w' ∈ (s.setPhase token' (.finished (.ok r))).workers,
        (w'.hostId = hostId ∧ w'.kind = kind ∧ w'.phase = .finished (.ok r)) ∨
          w'.token ≠ token' ∧ w' ∈ s.workers := by
      intro w' hw'
      obtain ⟨w, hw, hsame, ⟨htoken, hphase⟩ | ⟨hne, rfl⟩⟩ := mem_setPhase hw'
      · obtain rfl := h.consistent.worker_eq hw hmem htoken
        exact .inl ⟨hsame.hostId, hsame.kind, hphase⟩
      · exact .inr ⟨hne, hw⟩
    -- the worker was the only one at its host
    have halone : ((s.setVolume hostId v).setPhase token' (.finished (.ok r))).Idle hostId := by
      intro w' hw' hhost hphase
      rcases hback w' hw' with ⟨-, -, hphase'⟩ | ⟨hne, hw⟩
      · exact absurd (hphase'.symm.trans hphase) nofun
      · exact absurd (h.consistent.exclusive w' hw _ hmem (holdsLock_of_authorized hphase) rfl
          hhost) hne
    have hidle : ∀ hostId', (s.setVolume hostId v).Idle hostId' →
        ((s.setVolume hostId v).setPhase token' (.finished (.ok r))).Idle hostId' := by
      refine fun hostId' hi => idle_of (fun w' hw' hphase => ?_) hi
      rcases hback w' hw' with ⟨-, -, hphase'⟩ | ⟨-, hw⟩
      · exact absurd (hphase'.symm.trans hphase) nofun
      · exact hw
    have hself : (s.setVolume hostId v).volume hostId = v := Function.update_self ..
    refine ⟨⟨hlock _ ⟨nofun, nofun⟩, ?_, hvolume.keys, ?_, ?_, hvolume.volumes⟩, hplaced.later⟩
    · intro w' hw' hkind' r' hphase'
      rcases hback w' hw' with ⟨hhost, hkind, hphase⟩ | ⟨-, hw⟩
      · obtain rfl := Except.ok.inj (Phase.finished.inj (hphase.symm.trans hphase'))
        obtain rfl : kind = .generate := hkind.symm.trans hkind'
        obtain ⟨-, blob, hvalid, hr, -⟩ := (operate_generate henv).done (h.volumes hostId) hrun
        exact ⟨blob, hvalid, by rw [hr, hhost]⟩
      · exact h.results w' hw hkind' r' hphase'
    · intro hostId' he
      have hcases : (hostId' = hostId ∧ kind = .delete) ∨ Erasing (s.setVolume hostId v) hostId' := by
        rcases he with ⟨w', hw', hhost', hkind', r', hphase'⟩ | hrow
        · rcases hback w' hw' with ⟨hhost, hkind, -⟩ | ⟨-, hw⟩
          · exact .inl ⟨hhost'.symm.trans hhost, hkind.symm.trans hkind'⟩
          · exact .inr (.inl ⟨w', hw, hhost', hkind', r', hphase'⟩)
        · exact .inr (.inr hrow)
      rcases hcases with ⟨rfl, rfl⟩ | he
      · exact ⟨hself.trans (operate_delete hrun), halone⟩
      · exact ⟨(hvolume.erased _ he).1, hidle _ (hvolume.erased _ he).2⟩
    · intro hostId' blob hk
      have hcases : (hostId' = hostId ∧ kind = .generate ∧
            r = some (materialOf tools.sha256 (hyphenated hostId) blob)) ∨
          Keeping tools (s.setVolume hostId v) hostId' blob := by
        rcases hk with ⟨w', hw', hhost', hkind', hphase', hcurrent, hvisible⟩ | hrow
        · rcases hback w' hw' with ⟨hhost, hkind, hphase⟩ | ⟨-, hw⟩
          · have hr := Except.ok.inj (Phase.finished.inj (hphase.symm.trans hphase'))
            refine .inl ⟨hhost'.symm.trans hhost, hkind.symm.trans hkind', ?_⟩
            rw [hr, ← hhost', hhost]
          · exact .inr (.inl ⟨w', hw, hhost', hkind', hphase', hcurrent, hvisible⟩)
        · exact .inr (.inr hrow)
      rcases hcases with ⟨rfl, rfl, rfl⟩ | hk
      · obtain ⟨-, blob', -, hr, hafter⟩ :=
          (operate_generate henv).done (h.volumes hostId') hrun
        have hblob : blob = blob' := materialOf_inj (Option.some.inj hr)
        refine ⟨?_, halone⟩
        show p.after hostId' blob ((s.setVolume hostId' v).volume hostId')
        rw [hself, hblob]
        exact hafter
      · exact ⟨(hvolume.kept _ _ hk).1, hidle _ (hvolume.kept _ _ hk).2⟩

/-! ### Reports -/

/-- The key of a blob, as the API reads it from what a gateway has generated. -/
theorem canonical_materialOf {sha256 : List UInt8 → List UInt8} {hostId : BitVec 128}
    {blob : List UInt8} (hvalid : validEd25519Blob blob = true) {key : CanonicalKey}
    (hkey : canonicalEd25519PublicKey sha256 (materialOf sha256 hostId blob).publicKey = .ok key) :
    key = ⟨bareText blob, fingerprint sha256 blob⟩ := by
  obtain ⟨-, blob', hcarries, rfl⟩ := canonicalEd25519PublicKey_iff.mp hkey
  rw [hcarries.unique (carries_identityText hvalid hostId)]

theorem report_generation (h : Secure p s) {w : Worker} (hw : w ∈ s.workers)
    {m : IdentityMaterial} (hphase : w.phase = .finished (.ok (some m))) {now : Time}
    {t : IdentityTables}
    (hok : completeIdentityOperation tools.sha256 w.operationId w.gateway w.token
      (some m.publicKey) now s.tables = .ok t) : Kept p s { s with tables := t } := by
  obtain ⟨hsound, hfollows, hcompleted, o, ho, hid, hholder, hkind, hwaits, key, hkey, hready⟩ :
      _ ∧ Follows unclaimed s.tables t ∧ _ := complete_generation h.consistent.tables hok
  obtain ⟨hrhost, hrkind⟩ := h.consistent.row hw ho hid
  have hgenerate : w.kind = .generate := hrkind.symm.trans hkind
  obtain ⟨blob, hvalid, hm⟩ := h.results w hw hgenerate _ hphase
  obtain rfl := Option.some.inj hm
  obtain rfl := canonical_materialOf hvalid hkey
  have hkeeping : Keeping tools s w.hostId blob := by
    refine .inl ⟨w, hw, rfl, hgenerate, hphase, ⟨o, ho, hid, hholder⟩, ?_⟩
    obtain ⟨host, hhost, hhostid, hnone, -⟩ := hwaits
    exact ⟨host, hhost, hhostid.trans hrhost, hnone⟩
  refine ⟨h.transfer (h.consistent.ofTables hsound hfollows) (fun _ hw _ _ => hw) ?_ ?_ ?_
    (fun _ _ habsent => habsent) (fun _ _ _ hafter => hafter) h.volumes fun _ _ hi => hi,
    hfollows.row⟩
  · intro r' hr' hnone hstate
    rcases hready r' hr' hnone hstate with ⟨-, hkey', hfingerprint'⟩ | ⟨-, hold⟩
    · exact ⟨blob, hvalid, hkey', hfingerprint'⟩
    · exact h.keys r' hold hnone hstate
  · rintro hostId (hworker | ⟨o', ho', rfl, hkind', hstate'⟩)
    · exact .inl hworker
    · exact .inr (hcompleted o' ho' hkind' hstate')
  · rintro hostId blob' (⟨w', hw', rfl, hkind', hphase', hcurrent, hvisible⟩ |
      ⟨r', hr', rfl, hnone, hstate, hkey', hfingerprint'⟩)
    · exact .inl ⟨w', hw', rfl, hkind', hphase',
        h.consistent.current_back hfollows (fun _ => False.elim) hw' hcurrent,
        h.consistent.visible_back hfollows hw' hvisible⟩
    · rcases hready r' hr' hnone hstate with ⟨hhost, hkey, -⟩ | ⟨-, hold⟩
      · -- what is published is what the worker has generated
        have hblob : blob' = blob := bareText_inj (Option.some.inj (hkey'.symm.trans hkey))
        rw [hhost, hrhost, hblob]
        exact hkeeping
      · exact .inr ⟨r', hold, rfl, hnone, hstate, hkey', hfingerprint'⟩

theorem report_deletion (h : Secure p s) {w : Worker} (hw : w ∈ s.workers)
    (hphase : w.phase = .finished (.ok none)) {now : Time} {t : IdentityTables}
    (hok : completeIdentityOperation tools.sha256 w.operationId w.gateway w.token none now
      s.tables = .ok t) : Kept p s { s with tables := t } := by
  obtain ⟨hsound, hfollows, hhosts, o, ho, hid, hholder, hkind, hcompleted⟩ :
      _ ∧ Follows unclaimed s.tables t ∧ _ := complete_deletion h.consistent.tables hok
  obtain ⟨hrhost, hrkind⟩ := h.consistent.row hw ho hid
  refine ⟨h.transfer (h.consistent.ofTables hsound hfollows) (fun _ hw _ _ => hw) ?_ ?_ ?_
    (fun _ _ habsent => habsent) (fun _ _ _ hafter => hafter) h.volumes fun _ _ hi => hi,
    hfollows.row⟩
  · show ∀ r' ∈ t.hosts, _
    rw [hhosts]
    exact h.keys
  · rintro hostId (hworker | ⟨o', ho', rfl, hkind', hstate'⟩)
    · exact .inl hworker
    · rcases hcompleted o' ho' hkind' hstate' with hhost | hold
      · exact .inl ⟨w, hw, hrhost.symm.trans hhost.symm, hrkind.symm.trans hkind, none, hphase⟩
      · exact .inr ⟨o', hold, rfl, hkind', hstate'⟩
  · rintro hostId blob (⟨w', hw', rfl, hkind', hphase', hcurrent, hvisible⟩ | hpublished)
    · exact .inl ⟨w', hw', rfl, hkind', hphase',
        h.consistent.current_back hfollows (fun _ => False.elim) hw' hcurrent,
        h.consistent.visible_back hfollows hw' hvisible⟩
    · refine .inr ?_
      rw [← hhosts]
      exact hpublished

theorem complete_secure (h : Secure p s) {now : Time} {answered : Bool}
    (hstep : System.step tools (.complete token now answered) s = some s') : Kept p s s' := by
  simp only [System.step] at hstep
  split at hstep
  swap
  · cases hstep
  rename_i w gateway token' operationId hostId kind result hworker
  obtain rfl := Option.some.inj hstep
  obtain ⟨hmem, rfl⟩ := mem_worker hworker
  have hfinish : ∀ {s₁ : System} (error : String), Secure p s₁ →
      Kept p s₁ (s₁.setPhase token' (.finished (.error error))) := fun error h₁ =>
    h₁.setPhase nofun nofun (h₁.consistent.setPhase fun _ _ _ hor => absurd hor (by simp))
  unfold System.report
  split
  · exact hfinish _ h
  · rename_i t hok
    have htables : Kept p s { s with tables := t } := by
      cases result with
      | none => exact report_deletion h hmem rfl hok
      | some m => exact report_generation h hmem rfl hok
    split
    · exact htables.trans (htables.secure.drop token')
    · exact htables.trans (hfinish _ htables.secure)

/-! ### Sessions, and programs that are left -/

theorem validate_secure (h : Secure p s) {hostId : Uuid} {key keyFingerprint : String}
    {env : Env} (hstep : System.step tools (.validate hostId key keyFingerprint env) s = some s') :
    Kept p s s' := by
  simp only [System.step] at hstep
  split at hstep
  swap
  · cases hstep
  obtain rfl := Option.some.inj hstep
  refine h.setVolume (fun _ habsent => ?_) (fun blob _ hafter => ?_) ?_
  · exact validate_preserves (P := (· = .absent)) marks_absent key keyFingerprint _ habsent
  · exact validate_preserves (p.marks' hostId blob) key keyFingerprint _ hafter
  · exact validate_preserves (p.marks hostId) key keyFingerprint _ (h.volumes hostId)

theorem mark_secure (h : Secure p s) {hostId : Uuid} {env : Env}
    (hstep : System.step tools (.mark hostId env) s = some s') : Kept p s s' := by
  simp only [System.step] at hstep
  split at hstep
  swap
  · cases hstep
  obtain rfl := Option.some.inj hstep
  refine h.setVolume (fun _ habsent => ?_) (fun blob _ hafter => ?_) ?_
  · exact mark_preserves (P := (· = .absent)) marks_absent _ habsent
  · exact mark_preserves (p.marks' hostId blob) _ hafter
  · exact mark_preserves (p.marks hostId) _ (h.volumes hostId)

theorem orphan_secure (h : Secure p s) {hostId : Uuid} {isPublic : Bool} {node : Option Node}
    (hnode : p.orphan node) (hstep : System.step tools (.orphan hostId isPublic node) s = some s') :
    Kept p s s' := by
  obtain rfl := Option.some.inj hstep
  refine h.setVolume (fun _ habsent => ?_) (fun blob _ hafter => ?_) ?_
  · rw [habsent]
    rfl
  · exact p.pending' hostId blob isPublic node _ hnode hafter
  · exact p.pending hostId isPublic node _ hnode (h.volumes hostId)

end Steps

/-- **Every step keeps the invariant.** -/
theorem secure_step {tools : Tools} {p : Promise tools} {s s' : System} {l : Label}
    (h : Secure p s) (hallows : p.Allows l) (hstep : System.step tools l s = some s') :
    Kept p s s' := by
  cases l with
  | request request => exact request_secure h hstep
  | claim gateway token now skipped => exact claim_secure h hstep
  | lock token => exact lock_secure h hstep
  | heartbeat token now => exact h.heartbeat hstep
  | perform token env => exact perform_secure h hallows hstep
  | complete token now answered => exact complete_secure h hstep
  | fail token now => exact fail_secure h hstep
  | vanish token => exact Option.some.inj hstep ▸ h.drop token
  | validate hostId key keyFingerprint env => exact validate_secure h hstep
  | mark hostId env => exact mark_secure h hstep
  | orphan hostId isPublic node => exact orphan_secure h hallows hstep

theorem initial_secure {tools : Tools} {p : Promise tools} {s : System} (h : Initial s)
    (hvolumes : ∀ hostId, p.before hostId (s.volume hostId)) : Secure p s := by
  obtain ⟨⟨hosts, operations⟩, volume, workers, drawn⟩ := s
  obtain rfl : hosts = [] := h.hosts
  obtain rfl : operations = [] := h.operations
  obtain rfl : workers = [] := h.workers
  have hsound : Sound ⟨[], []⟩ := ⟨List.nodup_nil, List.nodup_nil, List.forall_mem_nil _,
    List.forall_mem_nil _, List.forall_mem_nil _, List.forall_mem_nil _⟩
  refine ⟨⟨hsound, List.nodup_nil, List.forall_mem_nil _, List.forall_mem_nil _,
    List.forall_mem_nil _, List.forall_mem_nil _⟩, List.forall_mem_nil _, List.forall_mem_nil _,
    ?_, ?_, hvolumes⟩
  · rintro hostId (⟨w, hw, -⟩ | ⟨o, ho, -⟩)
    · cases hw
    · cases ho
  · rintro hostId blob (⟨w, hw, -⟩ | ⟨r, hr, -⟩)
    · cases hw
    · cases hr

/-- **The invariant holds in every run**, from any state that has it. -/
theorem leads_secure {tools : Tools} {p : Promise tools} {guard : System → Label → Prop}
    (hguard : ∀ s l, guard s l → p.Allows l) {s s' : System} (h : Secure p s)
    (hrun : Leads (System.step tools) guard s s') : Secure p s' := by
  induction hrun with
  | refl => exact h
  | step l _ hl hstep ih => exact (secure_step ih (hguard _ l hl) hstep).secure

theorem reach_secure {tools : Tools} {p : Promise tools} {guard : System → Label → Prop}
    (hguard : ∀ s l, guard s l → p.Allows l)
    (hvolumes : ∀ s, Initial s → ∀ hostId, p.before hostId (s.volume hostId)) {s : System}
    (h : Reach (System.step tools) guard Initial s) : Secure p s :=
  h.invariant (fun s hs => initial_secure hs (hvolumes s hs))
    fun s l _ hs hl hstep => (secure_step hs (hguard s l hl) hstep).secure

end CtfZone.Ssh.Identity
