/-
# What holds of the identities of the hosts

Guarantees that are read off the invariant, each with a promise of its own.

* `interrupted_operation_recovers` : **an operation that is taken up again comes to its end**,
  wherever the ones before it were cut off;
* `operation_in_time_completes` : **what is done undisturbed and reported in time is settled**;
* `deleted_identity_absent` : **an identity that is reported as deleted is gone for good**;
* `ready_identity_held` : **the private key of a published identity is on the volume**, and a
  session that is not disturbed passes the check;
* `rotated_key_retired` : **a key that is marked for rotation is not published again**.
-/
import CtfZone.IdentityRuns
import CtfZone.IdentityCalm

namespace CtfZone.Ssh.Identity

open Effects Effects.Prog
open Tables Runs

variable {tools : Tools} {s s' : System}

/-! ## Operations that are not disturbed -/

/-- Volumes hold regular files only. -/
def tidyPromise (tools : Tools) : Promise tools where
  before _ v := v.Tidy
  after _ _ _ := True
  env := Env.Tidy
  orphan node := ∀ n, node = some n → n.IsFile
  generate hostId e henv := by
    refine ((generate_tidy henv).contract.and generate_settled).mono (fun v hv => ⟨hv, trivial⟩) ?_
      fun v hv => hv.1
    rintro m v ⟨hv, blob, hm, hsettled⟩
    exact ⟨hv, blob, holds_valid hsettled.holds, hm, trivial⟩
  delete _ _ := delete_tidy
  marks _ := marks_tidy
  marks' _ _ _ _ _ _ _ := trivial
  pending _ _ _ _ hnode hv := hv.put hnode
  pending' _ _ _ _ _ _ _ := trivial

/-- `ssh-keygen` leaves regular files. -/
def tidyKeys (_ : System) : Label → Prop
  | .perform _ env => env.Tidy
  | .orphan _ _ node => ∀ n, node = some n → n.IsFile
  | _ => True

/-- There is nothing yet, and nobody has put anything but regular files on the volumes. -/
structure TidyInitial (s : System) : Prop extends Initial s where
  volumes : ∀ hostId, (s.volume hostId).Tidy

theorem reach_tidy (hr : Reach (System.step tools) tidyKeys TidyInitial s) :
    Secure (tidyPromise tools) s := by
  refine hr.invariant (fun s hs => initial_secure hs.toInitial hs.volumes) fun s l s' hs hl hstep =>
    (secure_step hs ?_ hstep).secure
  cases l with
  | perform token env => exact hl
  | orphan hostId isPublic node => exact hl
  | _ => exact trivial

section Operate

variable (hostId : Uuid) {env : Env} {v : Volume}

/-- What is generated without a disturbance is settled. -/
theorem operate_generate_calm (henv : env.Calm) (htidy : v.Tidy) {blob : List UInt8}
    (hmakes : env.Makes tools.derive blob) : ∃ blob' v',
      operate tools .generate hostId env v =
        (.done (some (materialOf tools.sha256 (hyphenated hostId) blob')), v') ∧
      Settled tools.derive (hyphenated hostId) blob' v' := by
  obtain ⟨blob', v', hrun, hsettled⟩ : ∃ blob' v',
      Returns (generateIdentityBlocking tools.sha256 tools.derive (hyphenated hostId)) env v
        (materialOf tools.sha256 (hyphenated hostId) blob') v' ∧
      Settled tools.derive (hyphenated hostId) blob' v' := generate_calm henv hmakes htidy
  exact ⟨blob', v', Returns.bind hrun (returns_pure.mpr ⟨rfl, rfl⟩), hsettled⟩

theorem operate_delete_calm (henv : env.Calm) (htidy : v.Tidy) :
    operate tools .delete hostId env v = (.done none, .absent) :=
  Returns.bind (delete_calm henv htidy) (returns_pure.mpr ⟨rfl, rfl⟩)

end Operate

/-- **An operation that is taken up again comes to its end**, wherever the ones before it were cut
off: what is generated without a disturbance is settled, and is returned by every generation that
follows; and what is deleted without one is gone. -/
theorem interrupted_operation_recovers
    (hr : Reach (System.step tools) tidyKeys TidyInitial s) (hostId : Uuid) {env : Env}
    (henv : env.Calm) :
    (∀ blob, env.Makes tools.derive blob → ∃ blob' v',
      operate tools .generate hostId env (s.volume hostId) =
        (.done (some (materialOf tools.sha256 (hyphenated hostId) blob')), v') ∧
      Settled tools.derive (hyphenated hostId) blob' v' ∧
      ∀ env' : Env, env'.Calm → operate tools .generate hostId env' v' =
        (.done (some (materialOf tools.sha256 (hyphenated hostId) blob')), v')) ∧
    operate tools .delete hostId env (s.volume hostId) = (.done none, .absent) := by
  have htidy := (reach_tidy hr).volumes hostId
  refine ⟨fun blob hmakes => ?_, operate_delete_calm hostId henv htidy⟩
  obtain ⟨blob', v', hoperate, hsettled⟩ := operate_generate_calm hostId henv htidy hmakes
  refine ⟨blob', v', hoperate, hsettled, fun env' henv' => ?_⟩
  exact Returns.bind (generate_again henv' hsettled) (returns_pure.mpr ⟨rfl, rfl⟩)

/-! Runs, to try things on. -/

/-- The content of a private key file. -/
def privateKeyText : ByteArray := "private key".toUTF8

/-- Another blob, and its private key. -/
def renewedBlob : List UInt8 := blobStart ++ List.replicate 32 8

def renewedKeyText : ByteArray := "renewed key".toUTF8

/-- `ssh-keygen -y` knows two private keys. -/
def plainTools : Tools where
  sha256 := List.reverse
  derive content :=
    if content = privateKeyText then some (bareText sampleBlob).toUTF8
    else if content = renewedKeyText then some (bareText renewedBlob).toUTF8
    else none

/-- Nothing fails, and `ssh-keygen` makes the other private key. -/
def calmEnv : Env where
  fault _ _ := .none
  keygenEnd := .exited true
  generated := (some (.file renewedKeyText 0o600), some (.file ByteArray.empty 0o644))
  createMode := 0o644

theorem calmEnv_calm : calmEnv.Calm := ⟨fun _ _ => rfl, rfl⟩

/-- No hosts, and directories that somebody has left. -/
def plainSystem : System where
  tables := ⟨[], []⟩
  volume _ := (Volume.directory .empty).put .privateKey (some (.file privateKeyText 0o644))
  workers := []
  drawn := []

/-- A gateway is about to work on the next operation. -/
def claimed (token : Uuid) (now : Time) : List Label :=
  [.claim 100 token now [], .lock token, .heartbeat token now]

/-- A gateway is cut off when `ssh-keygen` has made its private key. -/
def brokenEnv : Env :=
  { calmEnv with fault := fun _ action =>
      if action = .protect .pendingPrivateKey then .kill false else .none }

/-- What was left on the volume is marked for rotation, and a host is created. -/
def markedHostRun : List Label :=
  [.mark 1 calmEnv, .request (.createHost 1 1 0)] ++ claimed 5 1

/-- `ssh-keygen` makes the other private key. -/
def makesRenewed (_ : System) : Label → Prop
  | .perform _ env => env.generated = calmEnv.generated
  | .orphan _ _ _ => False
  | _ => True

instance (s : System) (l : Label) : Decidable (makesRenewed s l) := by
  unfold makesRenewed
  split
  · infer_instance
  · infer_instance
  · infer_instance

theorem tidy_of_makesRenewed (s : System) (l : Label) (h : makesRenewed s l) : tidyKeys s l := by
  cases l with
  | perform token env =>
    have hgenerated : env.generated = calmEnv.generated := h
    constructor
    · rw [hgenerated]
      rintro _ ⟨⟩
      exact ⟨renewedKeyText, 0o600, rfl⟩
    · rw [hgenerated]
      rintro _ ⟨⟩
      exact ⟨ByteArray.empty, 0o644, rfl⟩
  | orphan hostId isPublic node => exact h.elim
  | _ => exact trivial

theorem plainSystem_initial : TidyInitial plainSystem :=
  ⟨⟨rfl, rfl, rfl⟩, fun _ => Volume.tidy_empty.put_file _ _⟩

/-- A state that a run of the samples comes to. -/
def Sampled (s : System) : Prop := Reach (System.step plainTools) makesRenewed TidyInitial s

theorem sampled_of_any (ls : List Label) {P : System → Bool}
    (h : (runIf (System.step plainTools) makesRenewed ls plainSystem).any P = true) :
    ∃ s, Sampled s ∧ P s = true := by
  obtain ⟨s, hs, hstate⟩ := (Option.any_eq_true _ _).mp h
  exact ⟨s, reach_of_runIf _ (.init plainSystem_initial) hs, hstate⟩

theorem Sampled.tidy (h : Sampled s) : Reach (System.step plainTools) tidyKeys TidyInitial s :=
  h.weaken tidy_of_makesRenewed

theorem Sampled.reach (h : Sampled s) : Reach (System.step plainTools) anyStep Initial s := by
  induction h with
  | init h => exact .init h.toInitial
  | step l _ _ hstep ih => exact .step l ih trivial hstep

theorem renewed_key : KeyOf plainTools.derive renewedKeyText renewedBlob := by
  have hvalid : validEd25519Blob renewedBlob = true := by decide
  refine ⟨(bareText renewedBlob).toUTF8, bareText renewedBlob, rfl, by decide +kernel,
    fromUTF8?_toUTF8 _, ?_, carries_bareText hvalid⟩
  rw [length_bareText hvalid]
  decide

theorem calmEnv_makes : calmEnv.Makes plainTools.derive renewedBlob :=
  ⟨⟨renewedKeyText, 0o600, rfl, renewed_key⟩, ByteArray.empty, 0o644, rfl⟩

/-- What the gateway that is cut off leaves behind is no hindrance. -/
theorem interrupted_operation_recovers_broken : ∃ s : System, Sampled s ∧
    (s.volume 1).node .pendingPrivateKey = some (.file renewedKeyText 0o600) ∧
      ∃ blob v', operate plainTools .generate 1 calmEnv (s.volume 1) =
        (.done (some (materialOf plainTools.sha256 (hyphenated 1) blob)), v') := by
  obtain ⟨s, hs, hleft⟩ := sampled_of_any (markedHostRun ++ [.perform 5 brokenEnv])
    (P := fun s => (s.volume 1).node .pendingPrivateKey = some (.file renewedKeyText 0o600))
    (by decide +kernel)
  obtain ⟨blob, v', hreturns, -⟩ :=
    (interrupted_operation_recovers hs.tidy 1 calmEnv_calm).1 renewedBlob calmEnv_makes
  exact ⟨s, hs, of_decide_eq_true hleft, blob, v', hreturns⟩

/-! ### Results that are in time -/

/-- A worker is about to work on an identity, and its claim stands at an instant. -/
def System.InTime (s : System) (kind : OperationKind) (hostId token : Uuid) (now : Time) : Prop :=
  ∃ w ∈ s.workers, w.token = token ∧ w.hostId = hostId ∧ w.kind = kind ∧ w.phase = .authorized ∧
    ∃ o ∈ s.tables.operations, o.id = w.operationId ∧ o.claimedBy w.gateway token now = true

/-- The identity of a host is published. -/
def Ready (t : IdentityTables) (hostId : Uuid) : Prop :=
  ∃ r ∈ t.hosts, r.id = hostId ∧ r.deletedAt = none ∧ r.identityState = .ready

/-- A worker works, and reports what it has done. -/
def Reported (tools : Tools) (s : System) (token : Uuid) (env : Env) (now : Time) (s' : System) :
    Prop :=
  ∃ s₁, System.step tools (.perform token env) s = some s₁ ∧
    System.step tools (.complete token now true) s₁ = some s'

theorem worker_of_mem (h : (s.workers.map Worker.token).Nodup) {w : Worker} (hw : w ∈ s.workers) :
    s.worker w.token = some w :=
  find?_row h hw (decide_eq_true rfl) fun _ htoken => of_decide_eq_true htoken

theorem worker_setPhase (h : (s.workers.map Worker.token).Nodup) {w : Worker}
    (hw : w ∈ s.workers) (phase : Phase) :
    (s.setPhase w.token phase).worker w.token = some { w with phase } := by
  refine worker_of_mem (w := { w with phase }) (nodup_setPhase h) (List.mem_map.mpr ⟨w, hw, ?_⟩)
  exact if_pos (decide_eq_true rfl)

theorem reported_of (h : Consistent s) {w : Worker} (hw : w ∈ s.workers)
    (hphase : w.phase = .authorized) {env : Env} {result : Option IdentityMaterial} {v' : Volume}
    (hoperate : operate tools w.kind w.hostId env (s.volume w.hostId) = (.done result, v'))
    {now : Time} {t : IdentityTables}
    (hcomplete : completeIdentityOperation tools.sha256 w.operationId w.gateway w.token
      (result.map (·.publicKey)) now s.tables = .ok t) :
    ∃ s', Reported tools s w.token env now s' ∧ s'.tables = t ∧ s'.volume w.hostId = v' := by
  have hworker := worker_of_mem h.tokens hw
  have hworker' := worker_setPhase (s := s.setVolume w.hostId v') h.tokens hw
    (.finished (.ok result))
  obtain ⟨gateway, token, operationId, hostId, kind, phase⟩ := w
  obtain rfl : phase = .authorized := hphase
  let s₁ := (s.setVolume hostId v').setPhase token (.finished (.ok result))
  refine ⟨({ s₁ with tables := t } : System).drop token, ⟨s₁, ?_, ?_⟩, rfl, Function.update_self ..⟩
  · simp only [System.step, hworker, System.settle, hoperate]
    rfl
  · have hcomplete' : completeIdentityOperation tools.sha256 operationId gateway token
        (result.map (·.publicKey)) now s₁.tables = .ok t := hcomplete
    simp only [System.step, hworker', s₁, System.report, if_true]
    rw [hcomplete']

/-- A key that is generated in time is published. -/
theorem generation_in_time (h : Secure (tidyPromise tools) s) {hostId token : Uuid} {now : Time}
    (hwork : s.InTime .generate hostId token now) (hvisible : Visible s.tables hostId) {env : Env}
    (henv : env.Calm) {blob : List UInt8} (hmakes : env.Makes tools.derive blob) :
    ∃ s', Reported tools s token env now s' ∧ Ready s'.tables hostId := by
  obtain ⟨w, hw, rfl, rfl, hkind, hphase, o, ho, hid, hclaim⟩ := hwork
  obtain ⟨r, hr, hrid, hdeleted⟩ := hvisible
  obtain ⟨hhost, hrow⟩ := h.consistent.row hw ho hid
  obtain ⟨blob', v', hoperate, hsettled⟩ :=
    operate_generate_calm w.hostId henv (h.volumes w.hostId) hmakes
  have hvalid := holds_valid hsettled.holds
  have hkey : canonicalEd25519PublicKey tools.sha256 (identityText blob' (hyphenated w.hostId)) =
      .ok ⟨bareText blob', fingerprint tools.sha256 blob'⟩ := canonicalEd25519PublicKey_iff.mpr
    ⟨plain_identityText hvalid _, blob', carries_identityText hvalid _, rfl⟩
  have hcomplete := complete_in_time h.consistent.tables ho hclaim (hrow.trans hkind) hr
    (hrid.trans hhost.symm) hdeleted hkey
  rw [← hkind] at hoperate
  rw [hid] at hcomplete
  obtain ⟨s', hreported, htables, -⟩ := reported_of h.consistent hw hphase hoperate hcomplete
  refine ⟨s', hreported, ?_⟩
  rw [htables]
  exact ⟨_, List.mem_map.mpr ⟨r, hr, if_pos (decide_eq_true rfl)⟩, hrid, hdeleted, rfl⟩

/-- **What is done undisturbed and reported in time is settled**: the key that is generated is
published, and the identity that is deleted is gone. -/
theorem operation_in_time_completes
    (hr : Reach (System.step tools) tidyKeys TidyInitial s) {hostId token : Uuid} {now : Time}
    {env : Env} (henv : env.Calm) :
    (s.InTime .generate hostId token now → Visible s.tables hostId →
      (∃ blob, env.Makes tools.derive blob) →
        ∃ s', Reported tools s token env now s' ∧ Ready s'.tables hostId) ∧
    (s.InTime .delete hostId token now → ∃ s', Reported tools s token env now s' ∧
      s'.volume hostId = .absent ∧ ∃ o ∈ s'.tables.operations,
        o.hostId = hostId ∧ o.kind = .delete ∧ o.state = .completed) := by
  have hsecure := reach_tidy hr
  constructor
  · rintro hwork hvisible ⟨blob, hmakes⟩
    exact generation_in_time hsecure hwork hvisible henv hmakes
  · rintro ⟨w, hw, rfl, rfl, hkind, hphase, o, ho, hid, hclaim⟩
    obtain ⟨hhost, hrow⟩ := hsecure.consistent.row hw ho hid
    have hoperate : operate tools w.kind w.hostId env (s.volume w.hostId) = (.done none, .absent) :=
      hkind ▸ operate_delete_calm w.hostId henv (hsecure.volumes w.hostId)
    have hcomplete := complete_in_time_deletion tools.sha256 hsecure.consistent.tables ho hclaim
      (hrow.trans hkind)
    rw [hid] at hcomplete
    obtain ⟨s', hreported, htables, habsent⟩ :=
      reported_of hsecure.consistent hw hphase hoperate hcomplete
    refine ⟨s', hreported, habsent, ?_⟩
    obtain ⟨claim, hclaimed, -⟩ := holder_of_claimedBy hclaim
    rw [htables]
    refine ⟨o.complete, List.mem_map.mpr ⟨o, ho, if_pos ?_⟩, hhost, hrow.trans hkind, rfl⟩
    simp [OperationRow.isOpen, hclaimed, hid]

instance (w : Worker) : Decidable (w.phase = .authorized) :=
  match w.phase with
  | .authorized => .isTrue rfl
  | .claimed => .isFalse nofun
  | .locked => .isFalse nofun
  | .finished _ => .isFalse nofun

instance (kind : OperationKind) (hostId token : Uuid) (now : Time) :
    Decidable (s.InTime kind hostId token now) := by
  unfold System.InTime
  infer_instance

instance (t : IdentityTables) (hostId : Uuid) : Decidable (Visible t hostId) := by
  unfold Visible
  infer_instance

/-- A worker may generate an identity. -/
theorem waiting_host : ∃ s : System, Sampled s ∧ s.InTime .generate 1 5 1 ∧ Visible s.tables 1 := by
  obtain ⟨s, hs, hwork⟩ := sampled_of_any markedHostRun
    (P := fun s => s.InTime .generate 1 5 1 ∧ Visible s.tables 1) (by decide +kernel)
  exact ⟨s, hs, of_decide_eq_true hwork⟩

/-- The identity of a host is published. -/
theorem operation_in_time_completes_waiting : ∃ s s' : System,
    Sampled s ∧ Reported plainTools s 5 calmEnv 1 s' ∧ Ready s'.tables 1 := by
  obtain ⟨s, hs, hwork, hvisible⟩ := waiting_host
  obtain ⟨s', hreported, hready⟩ := (operation_in_time_completes hs.tidy calmEnv_calm).1 hwork
    hvisible ⟨renewedBlob, calmEnv_makes⟩
  exact ⟨s, s', hs, hreported, hready⟩

/-! ## Deletion -/

theorem pendingEntry_ne (isPublic : Bool) : pendingEntry isPublic ≠ .privateKey ∧
    pendingEntry isPublic ≠ .publicKey ∧ pendingEntry isPublic ≠ .rotationRequired := by
  cases isPublic <;> decide

theorem preserves_true {α : Type} {m : Gateway α} {env : Env} : Preserves m env fun _ => True :=
  fun _ _ => trivial

/-- Beside a key, its private key and its public key are promised. -/
def heldPromise (tools : Tools) : Promise tools where
  before _ _ := True
  after hostId blob v := Holds tools.derive blob v ∧ Shows (hyphenated hostId) blob v
  env _ := True
  orphan _ := True
  generate _ _ _ := generate_settled.post fun _ _ ⟨blob, hm, hsettled⟩ =>
    ⟨trivial, blob, holds_valid hsettled.holds, hm, hsettled.holds, hsettled.shows⟩
  delete _ _ := preserves_true
  marks _ _ _ _ _ _ := trivial
  marks' _ blob := ((apart_holds tools.derive (by decide) blob).and
    (apart_shows (by decide) _ blob)).marks
  pending _ _ _ _ _ _ := trivial
  pending' _ blob isPublic _ v _ hv :=
    ((apart_holds tools.derive (pendingEntry_ne isPublic).1 blob).and
      (apart_shows (pendingEntry_ne isPublic).2.1 _ blob)) v _ hv

theorem heldPromise_allows {tools : Tools} (l : Label) : (heldPromise tools).Allows l := by
  cases l <;> exact trivial

theorem reach_held (h : Reach (System.step tools) anyStep Initial s) :
    Secure (heldPromise tools) s :=
  reach_secure (fun _ l _ => heldPromise_allows l) (fun _ _ _ => trivial) h

theorem leads_later (hr : Reach (System.step tools) anyStep Initial s)
    (hrun : Leads (System.step tools) anyStep s s') :
    Persist OperationRow.Later s.tables.operations s'.tables.operations :=
  Leads.rel (R := fun s s' : System =>
      Persist OperationRow.Later s.tables.operations s'.tables.operations)
    (fun _ => Persist.refl .refl _) (fun _ _ _ h h' => Persist.trans .trans h h')
    (fun _ l _ hreach _ hstep => (secure_step (reach_held hreach) (heldPromise_allows l) hstep).later)
    hr hrun

/-- **An identity that is reported as deleted is gone for good**, and nobody is about to
generate one in its place. -/
theorem deleted_identity_absent (hr : Reach (System.step tools) anyStep Initial s)
    {o : OperationRow} (ho : o ∈ s.tables.operations) (hkind : o.kind = .delete)
    (hstate : o.state = .completed) (hrun : Leads (System.step tools) anyStep s s') :
    s'.volume o.hostId = .absent ∧ s'.Idle o.hostId := by
  obtain ⟨o', ho', hlater⟩ := leads_later hr hrun o ho
  refine (reach_held (hr.leads hrun)).erased o.hostId (.inr ⟨o', ho', ?_⟩)
  exact ⟨hlater.hostId, hlater.kind.trans hkind, hlater.completed hstate⟩

/-- A host is created and deleted. -/
def deletedHostRun : List Label :=
  [.request (.createHost 1 1 0), .request (.deleteHost 1 2 0)] ++ claimed 5 1 ++
    [.perform 5 calmEnv, .complete 5 1 true]

/-- A host that is deleted has lost what stood on its volume, and what a `ssh-keygen` writes
later has no place. -/
theorem deleted_identity_absent_late : ∃ s s' : System, Sampled s ∧
    System.step plainTools (.orphan 1 false (some (.file privateKeyText 0o600))) s = some s' ∧
      s'.volume 1 = .absent := by
  obtain ⟨s, hs, hstate⟩ := sampled_of_any deletedHostRun (P := fun s =>
    s.tables.operations.any fun o => o.hostId = 1 && o.kind = .delete && o.state = .completed)
    (by decide +kernel)
  obtain ⟨o, ho, hrow⟩ := List.any_eq_true.mp hstate
  simp only [Bool.and_eq_true, decide_eq_true_eq] at hrow
  obtain ⟨⟨hhost, hkind⟩, hcompleted⟩ := hrow
  have hrun : Leads (System.step plainTools) anyStep s _ := (Leads.refl s).step
    (.orphan 1 false (some (.file privateKeyText 0o600))) trivial rfl
  have habsent := (deleted_identity_absent hs.reach ho hkind hcompleted hrun).1
  rw [hhost] at habsent
  exact ⟨s, _, hs, rfl, habsent⟩

/-! ## Publication -/

/-- **The private key of a published identity is on the volume**, with its public key beside it,
and no generation is under way; a session that is not disturbed passes the check against what is
published. -/
theorem ready_identity_held (hr : Reach (System.step tools) anyStep Initial s) {h : HostRow}
    (hh : h ∈ s.tables.hosts) (hdeleted : h.deletedAt = none) (hready : h.identityState = .ready) :
    ∃ blob, h.sshPublicKey = some (bareText blob) ∧
      h.sshKeyFingerprint = some (fingerprint tools.sha256 blob) ∧
        Holds tools.derive blob (s.volume h.id) ∧ Shows (hyphenated h.id) blob (s.volume h.id) ∧
          s.Idle h.id ∧ ∀ env : Env, env.Calm →
            validateIdentityBindingLocked tools.sha256 tools.derive (hyphenated h.id)
              (bareText blob) (fingerprint tools.sha256 blob) env (s.volume h.id) =
                (.done (.ok ⟨⟩), s.volume h.id) := by
  have hsecure := reach_held hr
  obtain ⟨blob, -, hkey, hfingerprint⟩ := hsecure.keys h hh hdeleted hready
  obtain ⟨⟨hholds, hshows⟩, hidle⟩ := hsecure.kept h.id blob
    (.inr ⟨h, hh, rfl, hdeleted, hready, hkey, hfingerprint⟩)
  exact ⟨blob, hkey, hfingerprint, hholds, hshows, hidle, fun env henv =>
    validate_calm henv hholds _⟩

/-- A run of the samples goes on to a publication. -/
theorem Sampled.leads_ready (h : Sampled s) {token : Uuid} {now : Time}
    (hwork : s.InTime .generate 1 token now) (hvisible : Visible s.tables 1) :
    ∃ s', Leads (System.step plainTools) makesRenewed s s' ∧ Ready s'.tables 1 := by
  obtain ⟨s', ⟨s₁, hperform, hcomplete⟩, hready⟩ := generation_in_time (reach_tidy h.tidy) hwork
    hvisible calmEnv_calm calmEnv_makes
  have hrenewed : makesRenewed s (.perform token calmEnv) := rfl
  have hreported : makesRenewed s₁ (.complete token now true) := trivial
  exact ⟨s', ((Leads.refl s).step _ hrenewed hperform).step _ hreported hcomplete, hready⟩

/-- A session passes the check against a key that is published. -/
theorem ready_identity_held_published : ∃ s : System,
    Reach (System.step plainTools) anyStep Initial s ∧ ∃ h ∈ s.tables.hosts,
      h.identityState = .ready ∧ ∃ blob, h.sshPublicKey = some (bareText blob) ∧
        validateIdentityBindingLocked plainTools.sha256 plainTools.derive (hyphenated h.id)
          (bareText blob) (fingerprint plainTools.sha256 blob) calmEnv (s.volume h.id) =
            (.done (.ok ⟨⟩), s.volume h.id) := by
  obtain ⟨s, hs, hwork, hvisible⟩ := waiting_host
  obtain ⟨s', hleads, h, hh, -, hdeleted, hready⟩ := hs.leads_ready hwork hvisible
  have hreach := Sampled.reach (Reach.leads hs hleads)
  obtain ⟨blob, hkey, -, -, -, -, hpasses⟩ := ready_identity_held hreach hh hdeleted hready
  exact ⟨s', hreach, h, hh, hready, blob, hkey, hpasses calmEnv calmEnv_calm⟩

/-! ## Rotation -/

/-- What a generation returns at a volume where a key is retired is another key. -/
theorem generate_retired {env : Env} {sha256 : List UInt8 → List UInt8}
    {derive : ByteArray → Option ByteArray} {blob : List UInt8} (hfresh : env.Fresh derive blob)
    (hostId : BitVec 128) :
    Contract (generateIdentityBlocking sha256 derive hostId) env (Unless derive blob)
      (fun m v => Unless derive blob v ∧ ∃ blob', validEd25519Blob blob' = true ∧
        m = materialOf sha256 hostId blob' ∧ Holds derive blob' v ∧ blob' ≠ blob)
      (Unless derive blob) := by
  refine (generate_settled.and (generate_unless hfresh)).mono (fun v hv => ⟨trivial, hv⟩) ?_
    fun v hv => hv.2
  rintro m v ⟨⟨blob', hm, hsettled⟩, hlacks, blob'', hne, hm'⟩
  have heq : blob' = blob'' := materialOf_inj (hm.symm.trans hm')
  refine ⟨.inl hlacks, blob', holds_valid hsettled.holds, hm, hsettled.holds, ?_⟩
  rw [heq]
  exact hne

/-- Beside a key, its private key is promised; at one host, the key of a blob stands only where it
is marked for rotation, and is not promised. -/
def retiredPromise (tools : Tools) (hostId : Uuid) (blob : List UInt8) : Promise tools where
  before hostId' v := hostId' = hostId → Unless tools.derive blob v
  after hostId' blob' v := Holds tools.derive blob' v ∧ (hostId' = hostId → blob' ≠ blob)
  env env := env.Fresh tools.derive blob
  orphan _ := True
  generate hostId' e hfresh := by
    by_cases heq : hostId' = hostId
    · refine (generate_retired hfresh _).mono (fun v hv => hv heq) ?_ fun v hv _ => hv
      rintro m v ⟨hv, blob', hvalid, hm, hholds, hne⟩
      exact ⟨fun _ => hv, blob', hvalid, hm, hholds, fun _ => hne⟩
    · refine generate_settled.mono (fun _ _ => trivial) ?_ fun v _ heq' => absurd heq' heq
      rintro m v ⟨blob', hm, hsettled⟩
      exact ⟨fun heq' => absurd heq' heq, blob', holds_valid hsettled.holds, hm, hsettled.holds,
        fun heq' => absurd heq' heq⟩
  delete hostId' e := by
    intro v hv
    by_cases heq : hostId' = hostId
    · exact wp_mono (delete_unless v (hv heq)) fun _ _ h _ => h
    · exact wp_mono (preserves_true v trivial) fun _ _ _ heq' => absurd heq' heq
  marks _ v v' content hv h heq := marks_unless v v' content (hv heq) h
  marks' _ blob' v v' content hv h :=
    ⟨(apart_holds tools.derive (by decide) blob').marks v v' content hv.1 h, hv.2⟩
  pending _ isPublic _ v _ hv heq :=
    apart_unless tools.derive (pendingEntry_ne isPublic).1 (pendingEntry_ne isPublic).2.2 blob v _
      (hv heq)
  pending' _ blob' isPublic _ v _ hv :=
    ⟨apart_holds tools.derive (pendingEntry_ne isPublic).1 blob' v _ hv.1, hv.2⟩

/-- Whatever `ssh-keygen` makes is no key of the blob. -/
def freshKeys (tools : Tools) (blob : List UInt8) (_ : System) : Label → Prop
  | .perform _ env => env.Fresh tools.derive blob
  | _ => True

/-- Nothing is promised at a host whose identity has failed. -/
theorem not_keeping_of_failed (hsound : Sound s.tables) {h : HostRow} (hh : h ∈ s.tables.hosts)
    (hfailed : h.identityState = .failed)
    (hmatched : ∀ w ∈ s.workers, ∃ o ∈ s.tables.operations, o.id = w.operationId ∧
      o.hostId = w.hostId ∧ o.kind = w.kind) (blob : List UInt8) :
    ¬ Keeping tools s h.id blob := by
  rintro (⟨w, hw, hhost, hkind, -, ⟨o, ho, hid, hholder⟩, -⟩ | ⟨r, hr, hid, -, hready, -⟩)
  · -- the operation of the worker would be open
    obtain ⟨o', ho', hid', hhost', hkind'⟩ := hmatched w hw
    obtain rfl := hsound.operation_eq ho ho' (hid.trans hid'.symm)
    have hclosed := hsound.closed h hh (by rw [hfailed]; decide) o ho (hhost'.trans hhost)
      (hkind'.trans hkind)
    rw [hholder.isOpen] at hclosed
    cases hclosed
  · obtain rfl := hsound.host_eq hr hh hid
    rw [hfailed] at hready
    cases hready

/-- **A key that is marked for rotation is not published again**: from a state in which the
identity of a host has failed and its key stands only beside a marker, as long as `ssh-keygen`
does not make the key a second time. -/
theorem rotated_key_retired (hr : Reach (System.step tools) anyStep Initial s) {h : HostRow}
    (hh : h ∈ s.tables.hosts) (hfailed : h.identityState = .failed) {blob : List UInt8}
    (hmarked : Unless tools.derive blob (s.volume h.id))
    (hrun : Leads (System.step tools) (freshKeys tools blob) s s') :
    ∀ r ∈ s'.tables.hosts, r.id = h.id → r.deletedAt = none → r.identityState = .ready →
      r.sshPublicKey ≠ some (bareText blob) := by
  have hheld := reach_held hr
  have hnot : ∀ blob', ¬ Keeping tools s h.id blob' :=
    not_keeping_of_failed hheld.consistent.tables hh hfailed hheld.consistent.matched
  have hstart : Secure (retiredPromise tools h.id blob) s := by
    refine ⟨hheld.consistent, hheld.results, hheld.keys, hheld.erased, ?_, ?_⟩
    · intro hostId blob' hkeeping
      obtain ⟨⟨hholds, -⟩, hidle⟩ := hheld.kept hostId blob' hkeeping
      refine ⟨⟨hholds, ?_⟩, hidle⟩
      rintro rfl
      exact absurd hkeeping (hnot blob')
    · rintro _ rfl
      exact hmarked
  have hguard : ∀ s l, freshKeys tools blob s l → (retiredPromise tools h.id blob).Allows l := by
    intro s l hl
    cases l with
    | perform token env => exact hl
    | _ => exact trivial
  have hend := leads_secure hguard hstart hrun
  intro r hr hid hdeleted hready hkey
  obtain ⟨blob', -, hkey', hfingerprint'⟩ := hend.keys r hr hdeleted hready
  obtain ⟨⟨-, hne⟩, -⟩ := hend.kept h.id blob'
    (.inr ⟨r, hr, hid, hdeleted, hready, hkey', hfingerprint'⟩)
  exact hne rfl (bareText_inj (Option.some.inj (hkey'.symm.trans hkey)))

/-- A private key cannot be removed. -/
def stuckEnv : Env :=
  { calmEnv with fault := fun _ action =>
      if action = .remove .privateKey then .error false else .none }

/-- What is marked for rotation stays where it is. -/
def failedHostRun : List Label := markedHostRun ++ [.perform 5 stuckEnv, .fail 5 1]

/-- The identity is to be generated again. -/
def retriedHostRun : List Label := .request (.retryIdentity 1 2 3) :: claimed 6 4

theorem fresh_of_makesRenewed (s : System) (l : Label) (h : makesRenewed s l) :
    freshKeys plainTools sampleBlob s l := by
  cases l with
  | perform token env =>
    intro content mode hgenerated hkey
    have hrenewed : env.generated = calmEnv.generated := h
    rw [hrenewed] at hgenerated
    obtain ⟨rfl, -⟩ := Node.file.inj (Option.some.inj hgenerated)
    exact absurd (hkey.unique renewed_key) (by decide)
  | _ => exact trivial

/-- Another key is published in place of the one that is retired. -/
theorem rotated_key_retired_renewed : ∃ s s' : System, Sampled s ∧
    Leads (System.step plainTools) (freshKeys plainTools sampleBlob) s s' ∧
      ∃ r ∈ s'.tables.hosts, r.id = 1 ∧ r.identityState = .ready ∧
        r.sshPublicKey ≠ some (bareText sampleBlob) := by
  obtain ⟨s, hs, hstate⟩ := sampled_of_any failedHostRun (P := fun s =>
    ((s.tables.hosts.any fun h => h.id = 1 && h.identityState = .failed) &&
      ((s.volume 1).node .rotationRequired).isSome) &&
        (runIf (System.step plainTools) makesRenewed retriedHostRun s).any fun s' =>
          s'.InTime .generate 1 6 4 ∧ Visible s'.tables 1) (by decide +kernel)
  rw [Bool.and_eq_true, Bool.and_eq_true] at hstate
  obtain ⟨⟨hbefore, hmarked⟩, hafter⟩ := hstate
  obtain ⟨h, hh, hfailed⟩ := List.any_eq_true.mp hbefore
  obtain ⟨s₀, hs₀, hwork⟩ := (Option.any_eq_true _ _).mp hafter
  obtain ⟨hwork, hvisible⟩ := of_decide_eq_true hwork
  simp only [Bool.and_eq_true, decide_eq_true_eq] at hfailed
  have hretried := leads_of_runIf _ hs₀
  have hwaiting : Sampled s₀ := Reach.leads hs hretried
  obtain ⟨s', hready, r, hr, hid, hdeleted, hstate⟩ := hwaiting.leads_ready hwork hvisible
  have hleads := (hretried.trans hready).weaken fresh_of_makesRenewed
  refine ⟨s, s', hs, hleads, r, hr, hid, hstate, ?_⟩
  rw [← hfailed.1] at hmarked
  exact rotated_key_retired hs.reach hh hfailed.2 (.inr hmarked) hleads r hr
    (hid.trans hfailed.1.symm) hdeleted hstate

end CtfZone.Ssh.Identity
