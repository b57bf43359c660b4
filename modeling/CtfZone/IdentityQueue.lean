/-
# What the requests make of the queue of identity operations

Every request of `IdentityOperations` keeps the tables sound, and only the completion of an
operation completes a deletion or publishes an identity.

* `createHost_benign`, … : every request but one completes nothing;
* `complete_generation`, `complete_deletion` : what a completion does.
-/
import CtfZone.IdentityOperations

namespace CtfZone.Ssh.Identity

open Tables
open Submissions (required required_eq_ok)

/-- The row is claimed with the token. -/
def OperationRow.Holder (o : OperationRow) (token : Uuid) : Prop :=
  ∃ claim, o.state = .claimed claim ∧ claim.token = token

section Requests

variable {t t' : IdentityTables} {hostId operationId gateway token : Uuid} {now : Time}
  {fresh : Uuid → Prop}

theorem mem_host {id : Uuid} {h : HostRow} (hfind : t.host id = some h) :
    h ∈ t.hosts ∧ h.id = id :=
  ⟨List.mem_of_find?_eq_some hfind, of_decide_eq_true
    (List.find?_some (p := fun h : HostRow => h.id = id) hfind)⟩

theorem mem_visibleHost {id : Uuid} {h : HostRow} (hfind : t.visibleHost id = some h) :
    h ∈ t.hosts ∧ h.id = id ∧ h.deletedAt = none := by
  have hsome := List.find?_some hfind
  rw [Bool.and_eq_true, decide_eq_true_eq, Option.isNone_iff_eq_none] at hsome
  exact ⟨List.mem_of_find?_eq_some hfind, hsome⟩

theorem Sound.host_eq (h : Sound t) {r r' : HostRow} (hr : r ∈ t.hosts) (hr' : r' ∈ t.hosts)
    (hid : r.id = r'.id) : r = r' := List.inj_on_of_nodup_map h.hosts hr hr' hid

theorem Sound.operation_eq (h : Sound t) {o o' : OperationRow} (ho : o ∈ t.operations)
    (ho' : o' ∈ t.operations) (hid : o.id = o'.id) : o = o' :=
  List.inj_on_of_nodup_map h.operations ho ho' hid

theorem createHost_benign (h : Sound t) (hhost : ∀ r ∈ t.hosts, r.id ≠ hostId)
    (hoperation : ∀ o ∈ t.operations, o.id ≠ operationId)
    (hok : createHost hostId operationId now t = .ok t') : Benign fresh t t' := by
  have hinsert : Benign fresh t { t with hosts := t.hosts ++ [newHost hostId] } :=
    benign_insertHost h hhost nofun
  refine hinsert.trans (benign_enqueue hinsert.sound hok hoperation ?_ nofun fun _ => ?_)
  · exact ⟨_, List.mem_append_right _ List.mem_cons_self, rfl⟩
  · exact forall_insert (fun r hr hid => absurd hid (hhost r hr)) fun _ => rfl

theorem cancel_benign (h : Sound t) {p : OperationRow → Bool}
    (hp : ∀ o : OperationRow, p o = true → o.isOpen = true) :
    Benign fresh t (t.updateOperations p OperationRow.cancel) :=
  benign_updateOperations (fun _ => ⟨rfl, rfl, rfl⟩) h (fun o _ => hp o) (fun _ => nofun)
    fun _ _ _ _ => nofun

theorem mem_updateHost_of {id : Uuid} {f : HostRow → HostRow} {r : HostRow} (hr : r ∈ t.hosts)
    (hid : ∀ r : HostRow, (f r).id = r.id) (heq : r.id = id) :
    ∃ r' ∈ (t.updateHost id f).hosts, r'.id = id :=
  ⟨_, List.mem_map_of_mem hr, (key_updateRow hid r).trans heq⟩

theorem deleteHost_benign (h : Sound t) (hoperation : ∀ o ∈ t.operations, o.id ≠ operationId)
    (hok : deleteHost hostId operationId now t = .ok t') : Benign fresh t t' := by
  simp only [deleteHost, bind_eq_ok, required_eq_ok] at hok
  obtain ⟨current, hcurrent, hok⟩ := hok
  obtain ⟨hmem, hid, -⟩ := mem_visibleHost hcurrent
  have hdeleted : Benign fresh t (t.updateHost hostId (deletedHost now)) :=
    benign_updateHost (fun _ => rfl) (fun _ hnone => by cases hnone) h (fun _ hnone => by cases hnone)
      fun r hr hrid hpending o ho hhost => h.closed r hr hpending o ho (hhost.trans hrid.symm)
  have hcancel : Benign fresh _ ((t.updateHost hostId (deletedHost now)).updateOperations
      (fun o => o.hostId = hostId && o.kind = .generate && o.isOpen) OperationRow.cancel) :=
    cancel_benign hdeleted.sound fun o hp => (Bool.and_eq_true _ _ ▸ hp).2
  refine (hdeleted.trans hcancel).trans (benign_enqueue hcancel.sound hok ?_
    (mem_updateHost_of (f := deletedHost now) hmem (fun _ => rfl) hid) (fun _ => ?_) fun hkind => ?_)
  · intro o' ho'
    obtain ⟨o, ho, ⟨-, rfl⟩ | ⟨-, rfl⟩⟩ := mem_updateOperations ho'
    · exact hoperation o ho
    · exact hoperation o' ho
  · intro r' hr' hr'id
    obtain ⟨r, hr, ⟨-, rfl⟩ | ⟨hne, rfl⟩⟩ := mem_updateHost hr'
    · exact fun hnone => by cases hnone
    · exact absurd hr'id hne
  · cases hkind

theorem retryIdentity_benign (h : Sound t) (hoperation : ∀ o ∈ t.operations, o.id ≠ operationId)
    (hok : retryIdentity hostId operationId now t = .ok t') : Benign fresh t t' := by
  simp only [retryIdentity, bind_eq_ok, required_eq_ok] at hok
  obtain ⟨current, hcurrent, -, -, hok⟩ := hok
  obtain ⟨hmem, hid, -⟩ := mem_visibleHost hcurrent
  have hretried : Benign fresh t (t.updateHost hostId retriedHost) :=
    benign_updateHost (fun _ => rfl) (fun _ h => h) h (fun _ _ hready => by cases hready)
      fun _ _ _ hpending => absurd rfl hpending
  refine hretried.trans (benign_enqueue hretried.sound hok hoperation
    (mem_updateHost_of (f := retriedHost) hmem (fun _ => rfl) hid) (fun hkind => ?_) fun _ => ?_)
  · cases hkind
  · intro r' hr' hr'id
    obtain ⟨r, hr, ⟨-, rfl⟩ | ⟨hne, rfl⟩⟩ := mem_updateHost hr'
    · rfl
    · exact absurd hr'id hne

theorem reportIdentityInvalid_benign (h : Sound t) {errorCode : String}
    (hok : reportIdentityInvalid hostId errorCode t = .ok t') : Benign fresh t t' := by
  simp only [reportIdentityInvalid, bind_eq_ok, required_eq_ok, ensure_eq_ok] at hok
  obtain ⟨-, -, host, hhost, -, -, hok⟩ := hok
  obtain ⟨hmem, rfl⟩ := mem_host hhost
  split at hok
  · rw [← Except.ok.inj hok]
    exact .refl h
  · simp only [bind_eq_ok, ensure_eq_ok, decide_eq_true_eq] at hok
    obtain ⟨-, hready, hok⟩ := hok
    rw [← Except.ok.inj hok]
    refine benign_updateHost (fun _ => rfl) (fun _ h => h) h (fun _ _ hready => ?_) ?_
    · cases hready
    -- the host is ready, and so it has no open operation
    intro r hr _ _ o ho hrow
    refine h.closed host hmem ?_ o ho hrow
    rw [hready]
    exact fun hpending => by cases hpending

/-! ## Claims -/

theorem OperationRow.isOpen_of_expired {o : OperationRow} (h : o.expired now = true) :
    o.isOpen = true := by
  unfold OperationRow.expired at h
  unfold OperationRow.isOpen
  split at h
  · rename_i claim hclaim
    rw [hclaim]
  · cases h

theorem releaseExpired_benign (h : Sound t) : Benign fresh t (releaseExpired now t) :=
  benign_updateOperations (fun _ => ⟨rfl, rfl, rfl⟩) h (fun o _ => o.isOpen_of_expired)
    (fun _ => nofun) fun _ _ _ _ => nofun

theorem mem_claimCandidate {skipped : List Uuid} {o : OperationRow}
    (h : claimCandidate t now skipped = some o) :
    o ∈ t.operations ∧ o.state = .pending := by
  have hmem := List.mem_of_mem_head? h
  rw [List.mem_mergeSort, List.mem_filter] at hmem
  obtain ⟨ho, hclaimable⟩ := hmem
  simp only [claimable, Bool.and_eq_true, decide_eq_true_eq] at hclaimable
  exact ⟨ho, hclaimable.1.1.1⟩

theorem release_benign (h : Sound t) :
    Benign fresh t (releaseExpired now (cancelDeleted t)) := by
  have hcancel : Benign fresh t (cancelDeleted t) := by
    refine cancel_benign h fun o hp => ?_
    simp only [Bool.and_eq_true] at hp
    exact hp.1.2
  exact hcancel.trans (releaseExpired_benign hcancel.sound)

/-- Nothing is claimed. -/
theorem claim_none (h : Sound t) {skipped : List Uuid}
    (hclaim : claimIdentityOperation gateway token now skipped t = (none, t')) :
    Benign fresh t t' := by
  unfold claimIdentityOperation at hclaim
  dsimp only at hclaim
  split at hclaim
  · obtain ⟨-, rfl⟩ := Prod.ext_iff.mp hclaim
    exact release_benign h
  · cases (Prod.ext_iff.mp hclaim).1

/-- The row that is claimed is one of the queue, and is claimed with the token. -/
theorem claim_some (h : Sound t) {skipped : List Uuid} {o : OperationRow}
    (hclaim : claimIdentityOperation gateway token now skipped t = (some o, t')) :
    Benign (· = token) t t' ∧ ∃ o' ∈ t'.operations, o.Same o' := by
  have hreleased : Benign (· = token) t (releaseExpired now (cancelDeleted t)) := release_benign h
  unfold claimIdentityOperation at hclaim
  dsimp only at hclaim
  split at hclaim
  · cases (Prod.ext_iff.mp hclaim).1
  · rename_i r hcandidate
    obtain ⟨hfound, rfl⟩ := Prod.ext_iff.mp hclaim
    obtain rfl : r = o := Option.some.inj hfound
    obtain ⟨ho, hpending⟩ := mem_claimCandidate hcandidate
    have htaken : Benign (· = token) (releaseExpired now (cancelDeleted t)) _ :=
      benign_updateOperations (p := (·.id = r.id))
        (f := (·.take { gateway, token, expiresAt := now + seconds identityLeaseSeconds }))
        (fun _ => ⟨rfl, rfl, rfl⟩) hreleased.sound (fun x hx hid => ?_) (fun _ hdone => by cases hdone)
        fun _ _ _ c hc => .inl (OperationState.claimed.inj hc ▸ rfl)
    · obtain ⟨o', ho', hlater⟩ := htaken.follows.row r ho
      exact ⟨hreleased.trans htaken, o', ho', hlater.toSame⟩
    · rw [hreleased.sound.operation_eq hx ho (of_decide_eq_true hid), OperationRow.isOpen, hpending]

theorem holder_of_claimedBy {o : OperationRow} (h : o.claimedBy gateway token now = true) :
    o.Holder token := by
  unfold OperationRow.claimedBy at h
  split at h
  · rename_i claim hclaim
    simp only [Bool.and_eq_true, decide_eq_true_eq] at h
    exact ⟨claim, hclaim, h.1.2⟩
  · cases h

theorem OperationRow.Holder.isOpen {o : OperationRow} (h : o.Holder token) : o.isOpen = true := by
  obtain ⟨claim, hclaim, -⟩ := h
  rw [OperationRow.isOpen, hclaim]

/-- A heartbeat is for a claim that is still held, of a host that waits for an identity or of a
deletion. -/
theorem heartbeat_benign (h : Sound t)
    (hok : heartbeatIdentityOperation operationId gateway token now t = .ok t') :
    Benign fresh t t' ∧ ∃ o ∈ t.operations, o.id = operationId ∧ o.Holder token ∧
      (o.kind = .delete ∨ ∃ r ∈ t.hosts, r.id = o.hostId ∧ r.deletedAt = none ∧
        r.identityState = .pending) := by
  simp only [heartbeatIdentityOperation, bind_eq_ok, ensure_eq_ok, exists_const] at hok
  obtain ⟨hmatched, hok⟩ := hok
  obtain rfl := Except.ok.inj hok
  have hheld : ∀ o : OperationRow, (o.id = operationId && o.claimedBy gateway token now &&
      (o.kind = .delete || t.waiting o.hostId)) = true → o.Holder token := by
    intro o hp
    simp only [Bool.and_eq_true] at hp
    exact holder_of_claimedBy hp.1.2
  refine ⟨benign_updateOperations (fun _ => ⟨rfl, rfl, rfl⟩) h (fun o _ hp => (hheld o hp).isOpen)
    (fun _ hdone => by cases hdone) fun o _ hp c hc => .inr ?_, ?_⟩
  · obtain ⟨claim, hclaim, htoken⟩ := hheld o hp
    exact ⟨claim, hclaim, htoken.trans (OperationState.claimed.inj hc ▸ rfl)⟩
  · obtain ⟨o, ho, hp⟩ := List.any_eq_true.mp hmatched
    simp only [Bool.and_eq_true, Bool.or_eq_true, decide_eq_true_eq] at hp
    refine ⟨o, ho, hp.1.1, holder_of_claimedBy hp.1.2, hp.2.imp_right fun hwaiting => ?_⟩
    obtain ⟨r, hr, hmatch⟩ := List.any_eq_true.mp hwaiting
    simp only [Bool.and_eq_true, decide_eq_true_eq, Option.isNone_iff_eq_none] at hmatch
    exact ⟨r, hr, hmatch.1.1, hmatch.1.2, hmatch.2⟩

/-! ## Results -/

theorem mem_claimedOperation {o : OperationRow}
    (h : claimedOperation operationId gateway token now t = .ok o) :
    o ∈ t.operations ∧ o.id = operationId ∧ o.Holder token := by
  rw [claimedOperation, required_eq_ok] at h
  have hsome := List.find?_some h
  rw [Bool.and_eq_true, decide_eq_true_eq] at hsome
  exact ⟨List.mem_of_find?_eq_some h, hsome.1, holder_of_claimedBy hsome.2⟩

theorem completeRow_sound (h : Sound t) : Sound (completeOperationRow operationId t) :=
  .updateOperations (fun _ => ⟨rfl, rfl, rfl⟩) h fun _ _ _ => nofun

theorem completeRow_follows : Follows fresh t (completeOperationRow operationId t) :=
  follows_updateOperations (fun _ => ⟨rfl, rfl, rfl⟩) (fun _ _ _ _ => rfl) fun _ _ _ _ => nofun

/-- The operation is not open any more. -/
theorem completeRow_closed (h : Sound t) {o : OperationRow} (ho : o ∈ t.operations)
    (hholder : o.Holder token) :
    ∀ o' ∈ (completeOperationRow o.id t).operations, o'.hostId = o.hostId → o'.kind = o.kind →
      o'.isOpen = false := by
  intro o' ho' hhost hkind
  obtain ⟨r, hr, ⟨-, rfl⟩ | ⟨hp, rfl⟩⟩ := mem_updateOperations ho'
  · rfl
  · rw [← Bool.not_eq_true]
    intro hopen
    -- it would be the operation itself, and that one is completed
    have hid := h.oneOpen o' hr o ho hopen hholder.isOpen hhost hkind
    obtain rfl := h.operation_eq hr ho hid
    obtain ⟨claim, hclaim, -⟩ := hholder
    rw [hopen, hclaim] at hp
    simp at hp

/-- **A generation that is completed publishes what it is given**, of a host that waits for it. -/
theorem complete_generation (h : Sound t) {sha256 : List UInt8 → List UInt8} {publicKey : String}
    (hok : completeIdentityOperation sha256 operationId gateway token (some publicKey) now t =
      .ok t') :
    Sound t' ∧ Follows fresh t t' ∧
      (∀ o' ∈ t'.operations, o'.kind = .delete → o'.state = .completed → ∃ o ∈ t.operations,
        o.hostId = o'.hostId ∧ o.kind = .delete ∧ o.state = .completed) ∧
      ∃ o ∈ t.operations, o.id = operationId ∧ o.Holder token ∧ o.kind = .generate ∧
        (∃ r ∈ t.hosts, r.id = o.hostId ∧ r.deletedAt = none ∧ r.identityState = .pending) ∧
        ∃ key, canonicalEd25519PublicKey sha256 publicKey = .ok key ∧
          ∀ r' ∈ t'.hosts, r'.deletedAt = none → r'.identityState = .ready →
            r'.id = o.hostId ∧ r'.sshPublicKey = some key.canonical ∧
                r'.sshKeyFingerprint = some key.fingerprint ∨
              r'.id ≠ o.hostId ∧ r' ∈ t.hosts := by
  simp only [completeIdentityOperation, bind_eq_ok] at hok
  obtain ⟨-, -, o, ho, hok⟩ := hok
  obtain ⟨hmem, rfl, hholder⟩ := mem_claimedOperation ho
  split at hok
  · rename_i hkind
    simp only [bind_eq_ok, required_eq_ok, ensure_eq_ok, Bool.and_eq_true, decide_eq_true_eq,
      Option.isNone_iff_eq_none, exists_const] at hok
    obtain ⟨host, hhost, ⟨hdeleted, hpending⟩, _, hsupplied, key, hkey, hok⟩ := hok
    obtain rfl := Option.some.inj hsupplied
    obtain ⟨hhostmem, hhostid⟩ := mem_host hhost
    obtain rfl := Except.ok.inj hok
    refine ⟨?_, completeRow_follows.trans
      (follows_updateHost (f := readyHost key) (fun _ => rfl) fun _ h => h), ?_,
      o, hmem, rfl, hholder, hkind, ⟨host, hhostmem, hhostid, hdeleted, hpending⟩, key, hkey, ?_⟩
    · refine .updateHost (f := readyHost key) (fun _ => rfl) (fun _ h => h) (completeRow_sound h) ?_
      intro r _ _ _ o' ho' hrow hkind'
      exact completeRow_closed h hmem hholder o' ho' (hrow.trans hhostid)
        (hkind'.trans hkind.symm)
    · intro o' ho' hkind' hstate'
      obtain ⟨r, hr, ⟨hp, rfl⟩ | ⟨-, rfl⟩⟩ := mem_updateOperations ho'
      · simp only [Bool.and_eq_true, decide_eq_true_eq] at hp
        have hgenerate : r.kind = .generate := (h.operation_eq hr hmem hp.1).symm ▸ hkind
        cases hgenerate.symm.trans hkind'
      · exact ⟨o', hr, rfl, hkind', hstate'⟩
    · intro r' hr' hnone hready
      obtain ⟨r, hr, ⟨hid, rfl⟩ | ⟨hid, rfl⟩⟩ := mem_updateHost hr'
      · exact .inl ⟨hid.trans hhostid, rfl, rfl⟩
      · exact .inr ⟨fun heq => hid (heq.trans hhostid.symm), hr⟩
  · simp only [bind_eq_ok, ensure_eq_ok, Option.isNone_some, Bool.false_eq_true, false_and,
      exists_false] at hok

/-- **A deletion that is completed** changes no host. -/
theorem complete_deletion (h : Sound t) {sha256 : List UInt8 → List UInt8}
    (hok : completeIdentityOperation sha256 operationId gateway token none now t = .ok t') :
    Sound t' ∧ Follows fresh t t' ∧ t'.hosts = t.hosts ∧
      ∃ o ∈ t.operations, o.id = operationId ∧ o.Holder token ∧ o.kind = .delete ∧
        ∀ o' ∈ t'.operations, o'.kind = .delete → o'.state = .completed →
          o'.hostId = o.hostId ∨ o' ∈ t.operations := by
  simp only [completeIdentityOperation, bind_eq_ok] at hok
  obtain ⟨-, -, o, ho, hok⟩ := hok
  obtain ⟨hmem, rfl, hholder⟩ := mem_claimedOperation ho
  split at hok
  · simp only [bind_eq_ok, required_eq_ok] at hok
    obtain ⟨_, _, _, _, _, hnone, _⟩ := hok
    cases hnone
  · rename_i hkind
    simp only [bind_eq_ok] at hok
    obtain ⟨-, -, hok⟩ := hok
    obtain rfl := Except.ok.inj hok
    refine ⟨completeRow_sound h, completeRow_follows, rfl, o, hmem, rfl, hholder, hkind, ?_⟩
    intro o' ho' hkind' hstate'
    obtain ⟨r, hr, ⟨hp, rfl⟩ | ⟨-, rfl⟩⟩ := mem_updateOperations ho'
    · simp only [Bool.and_eq_true, decide_eq_true_eq] at hp
      left
      show r.hostId = o.hostId
      rw [h.operation_eq hr hmem hp.1]
    · exact .inr hr

/-- An operation that fails is closed, or waits for another try. -/
theorem failIdentityOperation_benign (h : Sound t) {errorCode : String}
    (hok : failIdentityOperation operationId gateway token errorCode now t = .ok t') :
    Benign fresh t t' := by
  simp only [failIdentityOperation, bind_eq_ok] at hok
  obtain ⟨-, -, -, -, o, ho, hok⟩ := hok
  obtain ⟨hmem, rfl, hholder⟩ := mem_claimedOperation ho
  have hopen : ∀ r ∈ t.operations, decide (r.id = o.id) = true → r.isOpen = true := by
    intro r hr hp
    rw [h.operation_eq hr hmem (of_decide_eq_true hp)]
    exact hholder.isOpen
  split at hok
  · rename_i hkind
    simp only [bind_eq_ok, required_eq_ok] at hok
    obtain ⟨host, hhost, hok⟩ := hok
    obtain ⟨-, hhostid⟩ := mem_host hhost
    have hfailed : Benign fresh t (t.updateOperations (·.id = o.id) (·.fail errorCode)) :=
      benign_updateOperations (fun _ => ⟨rfl, rfl, rfl⟩) h hopen (fun _ hdone => by cases hdone)
        fun _ _ _ _ hc => by cases hc
    split at hok
    · obtain rfl := Except.ok.inj hok
      refine hfailed.trans (benign_updateHost (f := failedHost errorCode) (fun _ => rfl)
        (fun _ h => h) hfailed.sound (fun _ _ hready => by cases hready) ?_)
      intro _ _ _ _ o' ho' hrow hkind'
      obtain ⟨r, hr, ⟨-, rfl⟩ | ⟨hp, rfl⟩⟩ := mem_updateOperations ho'
      · rfl
      · rw [← Bool.not_eq_true]
        intro hopen
        exact of_decide_eq_false hp (h.oneOpen o' hr o hmem hopen hholder.isOpen
          (hrow.trans hhostid) (hkind'.trans hkind.symm))
    · obtain rfl := Except.ok.inj hok
      exact hfailed
  · obtain rfl := Except.ok.inj hok
    exact benign_updateOperations (fun _ => ⟨rfl, rfl, rfl⟩) h hopen (fun _ hdone => by cases hdone)
      fun _ _ _ _ hc => by cases hc

/-! ## Results that are in time -/

theorem operation_of_mem (h : Sound t) {o : OperationRow} (ho : o ∈ t.operations) :
    t.operation o.id = some o :=
  find?_row h.operations ho (decide_eq_true rfl) fun _ hid => of_decide_eq_true hid

theorem host_of_mem (h : Sound t) {r : HostRow} (hr : r ∈ t.hosts) : t.host r.id = some r :=
  find?_row h.hosts hr (decide_eq_true rfl) fun _ hid => of_decide_eq_true hid

theorem claimedOperation_of_mem (h : Sound t) {o : OperationRow} (ho : o ∈ t.operations)
    (hclaim : o.claimedBy gateway token now = true) :
    claimedOperation o.id gateway token now t = .ok o := by
  refine required_eq_ok.mpr (find?_row h.operations ho ?_ fun o' hp => ?_)
  · rw [Bool.and_eq_true]
    exact ⟨decide_eq_true rfl, hclaim⟩
  · rw [Bool.and_eq_true] at hp
    exact of_decide_eq_true hp.1

/-- A key that is reported in time is published. -/
theorem complete_in_time (h : Sound t) {o : OperationRow} (ho : o ∈ t.operations)
    (hclaim : o.claimedBy gateway token now = true) (hkind : o.kind = .generate) {r : HostRow}
    (hr : r ∈ t.hosts) (hid : r.id = o.hostId) (hdeleted : r.deletedAt = none)
    {sha256 : List UInt8 → List UInt8} {publicKey : String} {key : CanonicalKey}
    (hkey : canonicalEd25519PublicKey sha256 publicKey = .ok key) :
    completeIdentityOperation sha256 o.id gateway token (some publicKey) now t =
      .ok ((completeOperationRow o.id t).updateHost r.id (readyHost key)) := by
  have hhost : t.host o.hostId = some r := hid ▸ host_of_mem h hr
  have hpending : r.identityState = .pending := by
    by_contra hstate
    have hclosed := h.closed r hr hstate o ho hid.symm hkind
    rw [(holder_of_claimedBy hclaim).isOpen] at hclosed
    cases hclosed
  have hlocked : lockedHost o.id t = .ok ⟨⟩ := by
    refine bind_eq_ok.mpr ⟨o, required_eq_ok.mpr (operation_of_mem h ho), ?_⟩
    rw [hkind]
    exact bind_eq_ok.mpr ⟨r, required_eq_ok.mpr hhost, rfl⟩
  simp only [completeIdentityOperation, bind_eq_ok]
  refine ⟨⟨⟩, hlocked, o, claimedOperation_of_mem h ho hclaim, ?_⟩
  rw [hkind]
  refine bind_eq_ok.mpr ⟨r, required_eq_ok.mpr hhost, bind_eq_ok.mpr ⟨⟨⟩, ?_, ?_⟩⟩
  · rw [hdeleted, hpending]
    rfl
  · exact bind_eq_ok.mpr ⟨publicKey, rfl, bind_eq_ok.mpr ⟨key, hkey, rfl⟩⟩

/-- A deletion that is reported in time is completed. -/
theorem complete_in_time_deletion (sha256 : List UInt8 → List UInt8) (h : Sound t)
    {o : OperationRow} (ho : o ∈ t.operations)
    (hclaim : o.claimedBy gateway token now = true) (hkind : o.kind = .delete) :
    completeIdentityOperation sha256 o.id gateway token none now t =
      .ok (completeOperationRow o.id t) := by
  have hlocked : lockedHost o.id t = .ok ⟨⟩ := by
    refine bind_eq_ok.mpr ⟨o, required_eq_ok.mpr (operation_of_mem h ho), ?_⟩
    rw [hkind]
    rfl
  simp only [completeIdentityOperation, bind_eq_ok]
  refine ⟨⟨⟩, hlocked, o, claimedOperation_of_mem h ho hclaim, ?_⟩
  rw [hkind]
  rfl

end Requests

end CtfZone.Ssh.Identity
