/-
# What the operations leave of an identity directory

Contracts of the operations of `IdentityVolume`, whatever the environment does to them.

* `Settled` : the private key of a volume derives the public key that is beside it, and nothing
  asks for a rotation;
* `generate_settled` : a generation that returns leaves its identity settled;
* `Unless` : a key of a blob stands in a volume only where it is marked for rotation;
* `generate_unless` : no generation returns such a key;
* `delete_absent` : a deletion that returns leaves nothing.
-/
import CtfZone.IdentityFiles

namespace CtfZone.Ssh.Identity

open Effects Effects.Prog

/-! ## Keys -/

section Keys

variable (derive : ByteArray → Option ByteArray)

/-- `ssh-keygen -y` prints a key of the blob for the content of a private key. -/
def KeyOf (content : ByteArray) (blob : List UInt8) : Prop :=
  ∃ output text, derive content = some output ∧ output.size ≤ 1024 ∧
    String.fromUTF8? output = some text ∧ (splitWhitespace text).length ≤ 3 ∧ Carries text blob

theorem KeyOf.valid {derive : ByteArray → Option ByteArray} {content : ByteArray}
    {blob : List UInt8} (h : KeyOf derive content blob) : validEd25519Blob blob = true := by
  obtain ⟨_, _, _, _, _, _, hcarries⟩ := h
  exact hcarries.valid

theorem KeyOf.unique {derive : ByteArray → Option ByteArray} {content : ByteArray}
    {blob blob' : List UInt8} (h : KeyOf derive content blob) (h' : KeyOf derive content blob') :
    blob = blob' := by
  obtain ⟨output, text, houtput, -, hread, -, hcarries⟩ := h
  obtain ⟨output', text', houtput', -, hread', -, hcarries'⟩ := h'
  obtain rfl := Option.some.inj (houtput.symm.trans houtput')
  obtain rfl := Option.some.inj (hread.symm.trans hread')
  exact hcarries.unique hcarries'

/-- The private key of a volume is a key of the blob, and nobody else may read it. -/
def Holds (blob : List UInt8) (v : Volume) : Prop :=
  ∃ content, v.node .privateKey = some (.file content 0o600) ∧ KeyOf derive content blob

/-- The private key of a volume is not a key of the blob. -/
def Lacks (blob : List UInt8) (v : Volume) : Prop :=
  ∀ content mode, v.node .privateKey = some (.file content mode) → ¬ KeyOf derive content blob

/-- A key of the blob stands in a volume only where it is marked for rotation. -/
def Unless (blob : List UInt8) (v : Volume) : Prop :=
  Lacks derive blob v ∨ (v.node .rotationRequired).isSome

theorem Lacks.ne {derive : ByteArray → Option ByteArray} {blob blob' : List UInt8} {v : Volume}
    (h : Lacks derive blob v) (h' : Holds derive blob' v) : blob' ≠ blob := by
  rintro rfl
  obtain ⟨content, hnode, hkey⟩ := h'
  exact h content _ hnode hkey

/-- The public key file reads as the key of the blob. -/
def Shows (hostId : BitVec 128) (blob : List UInt8) (v : Volume) : Prop :=
  ∃ content mode value, v.node .publicKey = some (.file content mode) ∧ content.size ≤ 1024 ∧
    String.fromUTF8? content = some value ∧
      canonicalPublicKey value hostId = .ok (identityText blob hostId)

/-- What a gateway makes of the blob of a key. -/
def materialOf (sha256 : List UInt8 → List UInt8) (hostId : BitVec 128) (blob : List UInt8) :
    IdentityMaterial :=
  ⟨identityText blob hostId, fingerprint sha256 blob, "restrict,pty " ++ identityText blob hostId⟩

/-- The private key of a volume derives the public key that is beside it, and nothing asks for
a rotation. -/
structure Settled (hostId : BitVec 128) (blob : List UInt8) (v : Volume) : Prop where
  holds : Holds derive blob v
  shows : Shows hostId blob v
  unmarked : v.node .rotationRequired = none

theorem apart_holds {e : Entry} (h : e ≠ .privateKey) (blob : List UInt8) :
    Apart e (Holds derive blob) :=
  apart_node h.symm fun n => ∃ content, n = some (.file content 0o600) ∧ KeyOf derive content blob

theorem apart_lacks {e : Entry} (h : e ≠ .privateKey) (blob : List UInt8) :
    Apart e (Lacks derive blob) :=
  apart_node h.symm fun n => ∀ content mode, n = some (.file content mode) →
    ¬ KeyOf derive content blob

theorem apart_unless {e : Entry} (h : e ≠ .privateKey) (h' : e ≠ .rotationRequired)
    (blob : List UInt8) : Apart e (Unless derive blob) := by
  rintro v n (hlacks | hmarked)
  · exact .inl (apart_lacks derive h blob v n hlacks)
  · exact .inr (by rwa [Volume.node_put_of_ne h'.symm])

theorem apart_shows {e : Entry} (h : e ≠ .publicKey) (hostId : BitVec 128) (blob : List UInt8) :
    Apart e (Shows hostId blob) :=
  apart_node h.symm fun n => ∃ content mode value, n = some (.file content mode) ∧
    content.size ≤ 1024 ∧ String.fromUTF8? content = some value ∧
      canonicalPublicKey value hostId = .ok (identityText blob hostId)

/-- Another mode makes no key of a file. -/
theorem anyMode_noKey (e : Entry) (blob : List UInt8) : AnyMode e fun v =>
    ∀ content mode, v.node e = some (.file content mode) → ¬ KeyOf derive content blob := by
  intro v content m m' hv hnode content' mode hnode'
  rw [Volume.node_put_of_isSome (by rw [hnode]; rfl)] at hnode'
  obtain ⟨rfl, -⟩ := Node.file.inj (Option.some.inj hnode')
  exact hv content m hnode

theorem lacks_of_unlink {blob : List UInt8} {v v' : Volume} (h : v.unlink .privateKey = .ok v') :
    Lacks derive blob v' := by
  intro content mode hnode
  rw [Volume.unlink_ok h, Volume.node_put_none] at hnode
  cases hnode

theorem lacks_of_lookup {blob : List UInt8} {v : Volume} (h : v.lookup .privateKey = .ok none) :
    Lacks derive blob v := by
  intro content mode hnode
  rw [← Volume.lookup_ok h] at hnode
  cases hnode

theorem anyMode_unless (blob : List UInt8) : AnyMode .privateKey (Unless derive blob) := by
  rintro v content m m' (hlacks | hmarked) hnode
  · exact .inl (anyMode_noKey derive .privateKey blob v content m m' hlacks hnode)
  · refine .inr ?_
    rwa [Volume.node_put_of_ne (show Entry.rotationRequired ≠ .privateKey from nofun)]

end Keys

theorem bareText_inj {blob blob' : List UInt8} (h : bareText blob = bareText blob') :
    blob = blob' := by
  have hchars := congrArg String.toList h
  simp only [bareText, String.toList_append, List.append_cancel_left_eq] at hchars
  exact Base64.standard.encode_inj (String.toList_inj.mp hchars)

theorem materialOf_inj {sha256 : List UInt8 → List UInt8} {hostId : BitVec 128}
    {blob blob' : List UInt8} (h : materialOf sha256 hostId blob = materialOf sha256 hostId blob') :
    blob = blob' := by
  have hchars := congrArg (fun m => m.publicKey.toList) h
  simp only [materialOf, identityText, String.toList_append, List.append_assoc,
    List.append_cancel_right_eq] at hchars
  exact bareText_inj (String.toList_inj.mp hchars)

/-! ## The line of a public key -/

section Line

variable {blob : List UInt8} (hvalid : validEd25519Blob blob = true) (hostId : BitVec 128)
include hvalid

/-- The public key file that a gateway writes is read as the key. -/
theorem canonicalPublicKey_line :
    canonicalPublicKey (identityText blob hostId ++ "\n") hostId =
      .ok (identityText blob hostId) := by
  have hline : "\n".toList = '\n' :: [] := by decide
  -- what ends the line ends the last field
  have hfields : splitWhitespace (identityText blob hostId ++ "\n") =
      splitWhitespace (identityText blob hostId) := by
    rw [splitWhitespace, String.toList_append, hline, Fields.fields_append_cons (by decide),
      Fields.fields_nil, List.append_nil]
    rfl
  refine canonicalPublicKey_iff.mpr ⟨?_, blob, ⟨hvalid, ?_⟩, rfl⟩
  · rw [hfields, splitWhitespace_identityText hvalid]
    exact Nat.le_refl 3
  · rw [hfields]
    exact (carries_identityText hvalid hostId).fields

theorem size_line : (identityText blob hostId ++ "\n").toUTF8.size ≤ 1024 := by
  have hkey := length_bareText_le hvalid
  have hcomment : " ctfzone-webssh:".toList.length = 16 := by decide
  have hline : "\n".toList.length = 1 := by decide
  have hlength : (identityText blob hostId ++ "\n").toList.length ≤ 1024 := by
    simp only [identityText, String.toList_append, String.toList_ofList, List.length_append,
      uuidText_length]
    omega
  have hsize : ∀ c ∈ (identityText blob hostId ++ "\n").toList, c.utf8Size = 1 := by
    simp only [identityText, String.toList_append, String.toList_ofList, List.forall_mem_append]
    refine ⟨⟨⟨?_, ?_⟩, ?_⟩, ?_⟩
    · intro c hc
      rcases bareText_chars blob c hc with h | rfl
      · exact h.utf8Size
      · decide
    · exact List.all_iff_forall_prop.mp (by decide)
    · exact fun c hc => (graphic_uuidText hc).utf8Size
    · exact List.all_iff_forall_prop.mp (by decide)
  show (identityText blob hostId ++ "\n").utf8ByteSize ≤ 1024
  rw [utf8ByteSize_eq, utf8Length_of_forall hsize]
  exact hlength

end Line

theorem fromUTF8?_toUTF8 (text : String) : String.fromUTF8? text.toUTF8 = some text := by
  have hvalid : text.toUTF8.IsValidUTF8 := text.isValidUTF8
  unfold String.fromUTF8?
  rw [dif_pos hvalid]
  rfl

theorem size_of_fromUTF8? {output : ByteArray} {text : String}
    (h : String.fromUTF8? output = some text) : text.utf8ByteSize = output.size := by
  unfold String.fromUTF8? at h
  split at h
  · rw [← Option.some.inj h]
    rfl
  · cases h

/-! ## Operations -/

section Operations

variable {sha256 : List UInt8 → List UInt8} {derive : ByteArray → Option ByteArray} {env : Env}
  {hostId : BitVec 128} {blob : List UInt8} {stage : Stage} {P : Volume → Prop}

/-- `ssh-keygen -y` prints what belongs to the private key. -/
theorem derivePublicKey_contract :
    Contract (derivePublicKey derive stage) env P
      (fun text v => P v ∧ ∃ content mode output, v.node .privateKey = some (.file content mode) ∧
        derive content = some output ∧ output.size ≤ 1024 ∧ String.fromUTF8? output = some text)
      P := by
  refine contract_ask.post fun text v hv => ⟨hv.1, ?_⟩
  have h := hv.2
  split at h
  · rename_i content mode hnode
    split at h
    · cases h
    · rename_i output houtput
      split at h
      · cases h
      · rename_i hsize
        split at h
        · cases h
        · rename_i derived hderived
          rw [← Except.ok.inj h]
          exact ⟨content, mode, output, hnode, houtput, not_lt.mp hsize, hderived⟩
  · cases h

theorem readPublicKey_contract :
    Contract (readPublicKey stage) env P
      (fun stored v => P v ∧ ∀ value, stored = some value → ∃ content mode,
        v.node .publicKey = some (.file content mode) ∧ content.size ≤ 1024 ∧
          String.fromUTF8? content = some value) P := by
  refine Contract.attempt ?_ (R := P) (fun _ => contract_pure fun v hv => ⟨hv, nofun⟩)
    fun v hv => hv
  refine contract_ask.post fun stored v hv => ⟨hv.1, ?_⟩
  rintro value rfl
  have h := hv.2
  split at h
  · rename_i content mode hnode
    split at h
    · cases h
    · rename_i hsize
      exact ⟨content, mode, hnode, not_lt.mp hsize, Except.ok.inj h⟩
  · cases h

/-- The public key file is left as it was, or holds the key. -/
theorem repairPublicKey_contract (hvalid : validEd25519Blob blob = true)
    (hP : Writes .publicKey P) :
    Contract (repairPublicKey stage hostId (identityText blob hostId)) env P
      (fun _ v => P v ∧ Shows hostId blob v) P := by
  refine readPublicKey_contract.bind fun stored => ?_
  refine Contract.ite (fun _ => ?_) fun hcurrent => ?_
  · -- what is written is protected, and then nothing changes any more
    refine (Contract.bind (Q := fun _ => P) ?_ fun mode => ?_).pre fun v hv => hv.1
    · exact fun v hv => ⟨fun _ _ => hv, fun h => absurd rfl (h _)⟩
    let Written : Volume → Prop := fun v => P v ∧
      ∀ content m, v.node .publicKey = some (.file content m) →
        content = (identityText blob hostId ++ "\n").toUTF8
    refine Contract.bind (Q := fun _ => Written) ?_ fun _ => ?_
    · refine contract_call ?_ (fun v hv => hv) fun v hv => hv.1
      intro v v' hv h
      rcases Volume.write_ok h with ⟨m, rfl, hnode⟩ | ⟨hlink, rfl⟩
      · refine ⟨hP v _ _ hv, fun content m' hnode' => ?_⟩
        rw [hnode] at hnode'
        exact (Node.file.inj (Option.some.inj hnode')).1.symm
      · refine ⟨hv, fun content m' hnode' => ?_⟩
        rw [hlink] at hnode'
        cases hnode'
    have hwritten : AnyMode .publicKey Written := by
      intro v content m m' hv hnode
      refine ⟨hP v _ _ hv.1, fun content' m'' hnode' => ?_⟩
      rw [Volume.node_put_of_isSome (by rw [hnode]; rfl)] at hnode'
      rw [← (Node.file.inj (Option.some.inj hnode')).1]
      exact hv.2 content m hnode
    refine Contract.otherwise (R := Written) ?_ fun v hv => hv.1
    refine (protectFile_contract hwritten).bind fun _ => ?_
    refine (fsyncFile_contract.otherwise fun v hv => And.left hv).bind fun _ => ?_
    refine (fsyncDirectory_contract.otherwise fun v hv => And.left hv).post fun _ v hv =>
      ⟨hv.1.1, ?_⟩
    obtain ⟨content, hnode⟩ := hv.2
    refine ⟨content, _, identityText blob hostId ++ "\n", hnode, ?_, ?_, ?_⟩
    · rw [hv.1.2 content _ hnode]
      exact size_line hvalid hostId
    · rw [hv.1.2 content _ hnode]
      exact fromUTF8?_toUTF8 _
    · exact canonicalPublicKey_line hvalid hostId
  · apply contract_pure
    intro v hv
    refine ⟨hv.1, ?_⟩
    have heq := not_ne_iff.mp hcurrent
    obtain ⟨value, rfl, hvalue⟩ := Option.bind_eq_some_iff.mp heq
    obtain ⟨content, mode, hnode, hsize, hread⟩ := hv.2 value rfl
    refine ⟨content, mode, value, hnode, hsize, hread, ?_⟩
    cases hkey : canonicalPublicKey value hostId with
    | error e =>
        rw [hkey] at hvalue
        cases hvalue
    | ok text =>
        rw [hkey] at hvalue
        rw [Option.some.inj hvalue]

/-- **A validation that returns has found a key, and the public key file shows it.** -/
theorem validateExistingIdentity_contract (hmode : AnyMode .privateKey P)
    (hP : Writes .publicKey P) :
    Contract (validateExistingIdentity sha256 derive stage hostId) env P
      (fun m v => P v ∧ ∃ blob, m = materialOf sha256 hostId blob ∧ Holds derive blob v ∧
        Shows hostId blob v) P := by
  refine (protectFile_contract hmode).bind fun _ => ?_
  refine (derivePublicKey_contract.otherwise fun v hv => And.left hv).bind fun text => ?_
  refine (contract_lift.otherwise fun v hv => hv.1.1).bind fun canonical => ?_
  -- the text that is lifted carries a blob
  intro v hv
  obtain ⟨⟨⟨hPv, content, hfile⟩, content', mode, output, hnode, houtput, hsize, hread⟩, htext⟩ := hv
  obtain ⟨hlength, blob, hcarries, rfl⟩ := canonicalPublicKey_iff.mp htext
  obtain ⟨rfl, rfl⟩ := Node.file.inj (Option.some.inj (hfile.symm.trans hnode))
  have hholds : Holds derive blob v :=
    ⟨content, hfile, output, text, houtput, hsize, hread, hlength, hcarries⟩
  refine (Contract.mono (P := fun v => P v ∧ Holds derive blob v) ?_ ?_ (fun _ _ h => h)
    (fun _ h => h) : Contract _ env (· = v) _ _) v rfl
  · refine Contract.mono (R := fun v => P v ∧ Holds derive blob v) ?_ (fun _ h => h)
      (fun _ _ h => h) fun v hv => hv.1
    refine (repairPublicKey_contract hcarries.valid
      (hP.and (apart_holds derive (by decide) blob).writes)).bind fun _ => ?_
    refine Contract.mono contract_lift (fun v hv => hv) (fun m v hv => ?_) fun v hv => hv.1
    have hm := hv.2
    rw [material_identityText hcarries.valid] at hm
    exact ⟨hv.1.1.1, blob, (Except.ok.inj hm).symm, hv.1.1.2, hv.1.2⟩
  · rintro _ rfl
    exact ⟨hPv, hholds⟩

theorem keepIdentity_contract (hmode : AnyMode .privateKey P) (hP : Writes .publicKey P)
    (keep : Bool) :
    Contract (keepIdentity sha256 derive hostId keep) env P
      (fun kept v => P v ∧ ∀ m, kept = some m → keep = true ∧
        ∃ blob, m = materialOf sha256 hostId blob ∧ Holds derive blob v ∧ Shows hostId blob v)
      P := by
  refine Contract.ite (fun hkeep => ?_) fun _ => contract_pure fun v hv => ⟨hv, nofun⟩
  refine Contract.attempt ?_ (R := P) (fun _ => contract_pure fun v hv => ⟨hv, nofun⟩)
    fun v hv => hv
  refine (validateExistingIdentity_contract hmode hP).bind fun m => ?_
  apply contract_pure
  rintro v ⟨hv, hm⟩
  refine ⟨hv, ?_⟩
  rintro _ ⟨⟩
  exact ⟨hkeep, hm⟩

/-! ### A generation that returns -/

theorem contract_true {α : Type} {m : Gateway α} :
    Contract m env P (fun _ _ => True) fun _ => True :=
  fun _ _ => ⟨fun _ _ => trivial, fun _ => trivial⟩

/-- The marker is removed last. -/
theorem finish_contract {m : IdentityMaterial} {Q : Volume → Prop} (hQ : Apart .rotationRequired Q) :
    Contract
      (do
        removeIfExists .finish .rotationRequired
        fsyncDirectory .finish
        pure m)
      env Q (fun m' v => m' = m ∧ Q v ∧ v.node .rotationRequired = none) Q := by
  refine (removeIfExists_contract hQ.removes).bind fun _ => ?_
  refine (fsyncDirectory_contract.otherwise fun v hv => And.left hv).bind fun _ => ?_
  apply contract_pure
  exact fun v hv => ⟨rfl, hv⟩

theorem apart_true {e : Entry} : Apart e fun _ => True := fun _ _ _ => trivial

theorem publish_settled :
    Contract (publishNewIdentity sha256 derive hostId) env (fun _ => True)
      (fun m v => ∃ blob, m = materialOf sha256 hostId blob ∧ Settled derive hostId blob v)
      fun _ => True := by
  -- what is done before the new identity is validated does not matter
  iterate 4 refine contract_true.bind fun _ => ?_
  refine contract_true.bind fun ending => ?_
  iterate 8 refine contract_true.bind fun _ => ?_
  refine (validateExistingIdentity_contract apart_true.anyMode apart_true.writes).bind fun m => ?_
  refine Contract.pre (P := fun v => ∃ blob, m = materialOf sha256 hostId blob ∧
    Holds derive blob v ∧ Shows hostId blob v) ?_ fun v hv => hv.2
  refine contract_exists fun blob => contract_and fun hm => ?_
  have hapart : Apart .rotationRequired fun v => Holds derive blob v ∧ Shows hostId blob v :=
    (apart_holds derive (by decide) blob).and (apart_shows (by decide) hostId blob)
  refine (finish_contract hapart).mono (fun v hv => hv) ?_ fun _ _ => trivial
  rintro _ v ⟨rfl, ⟨hholds, hshows⟩, hmarker⟩
  exact ⟨blob, hm, hholds, hshows, hmarker⟩

/-- **A generation that returns leaves its identity settled.** -/
theorem generate_settled :
    Contract (generateIdentityBlocking sha256 derive hostId) env (fun _ => True)
      (fun m v => ∃ blob, m = materialOf sha256 hostId blob ∧ Settled derive hostId blob v)
      fun _ => True := by
  refine contract_true.bind fun _ => ?_
  refine (regularFileExists_contract.otherwise fun _ _ => trivial).bind fun marked => ?_
  refine (pathEntryExists_contract.otherwise fun _ _ => trivial).bind fun present => ?_
  let Asked : Volume → Prop := fun v => marked = (v.node .rotationRequired).isSome
  have hasked : ∀ e, e ≠ .rotationRequired → Apart e Asked := fun e he =>
    apart_node he.symm fun n => marked = n.isSome
  refine (((keepIdentity_contract (hasked .privateKey (by decide)).anyMode
    (hasked .publicKey (by decide)).writes (present && ! marked)).pre fun v hv => hv.1.2).otherwise
    fun _ _ => trivial).bind fun kept => ?_
  split
  · rename_i m
    apply contract_pure
    rintro v ⟨hmarked, hkept⟩
    obtain ⟨hkeep, blob, hm, hholds, hshows⟩ := hkept m rfl
    rw [Bool.and_eq_true, Bool.not_eq_true'] at hkeep
    refine ⟨blob, hm, hholds, hshows, ?_⟩
    have hnone : (v.node .rotationRequired).isSome = false := hmarked.symm.trans hkeep.2
    exact Option.isSome_eq_false_iff.mp hnone |> Option.isNone_iff_eq_none.mp
  · exact publish_settled.pre fun _ _ => trivial

/-! ### A generation beside a marker -/

/-- `ssh-keygen` makes a key of another blob. -/
def Env.Fresh (derive : ByteArray → Option ByteArray) (blob : List UInt8) (env : Env) : Prop :=
  ∀ content mode, env.generated.1 = some (.file content mode) → ¬ KeyOf derive content blob

/-- The pending private key is not a key of the blob. -/
def PendingLacks (derive : ByteArray → Option ByteArray) (blob : List UInt8) (v : Volume) : Prop :=
  ∀ content mode, v.node .pendingPrivateKey = some (.file content mode) →
    ¬ KeyOf derive content blob

theorem apart_pendingLacks {e : Entry} (h : e ≠ .pendingPrivateKey) (blob : List UInt8) :
    Apart e (PendingLacks derive blob) :=
  apart_node h.symm fun n => ∀ content mode, n = some (.file content mode) →
    ¬ KeyOf derive content blob

theorem AnyMode.and {e : Entry} {P Q : Volume → Prop} (hP : AnyMode e P) (hQ : AnyMode e Q) :
    AnyMode e fun v => P v ∧ Q v :=
  fun v content m m' hv hnode => ⟨hP v content m m' hv.1 hnode, hQ v content m m' hv.2 hnode⟩

theorem spawnKeygen_contract (hfresh : env.Fresh derive blob) :
    Contract spawnKeygen env (Lacks derive blob)
      (fun _ v => Lacks derive blob v ∧ PendingLacks derive blob v) (Lacks derive blob) := by
  refine Contract.bind (Q := fun generated v => generated = env.generated ∧ Lacks derive blob v)
    ?_ fun generated => contract_and ?_
  · exact fun v hv => ⟨fun _ h => ⟨(Outcome.done.inj h).symm, hv⟩, fun h => absurd rfl (h _)⟩
  rintro rfl
  refine Contract.bind (Q := fun _ v => Lacks derive blob v ∧ PendingLacks derive blob v) ?_
    fun _ => ?_
  · refine contract_call ?_ (fun v hv => hv) fun v hv => hv.1
    intro v v' hv h
    rw [← Except.ok.inj h]
    refine ⟨?_, fun content mode hnode => ?_⟩
    · exact apart_lacks derive (by decide) blob _ _ (apart_lacks derive (by decide) blob v _ hv)
    · rw [Volume.node_put_of_ne (by decide)] at hnode
      cases v with
      | directory d =>
        rw [Volume.node_put_directory] at hnode
        exact hfresh content mode hnode
      | absent => cases hnode
      | obstructed => cases hnode
  · exact fun v hv => ⟨fun _ _ => hv, fun h => absurd rfl (h _)⟩

theorem checkKeygen_contract {P : Volume → Prop} (hP : Removes .pendingPrivateKey P)
    (hP' : Removes .pendingPublicKey P) {Q : Volume → Prop} (ending : KeygenEnd) :
    Contract (checkKeygen ending) env (fun v => P v ∧ Q v) (fun _ v => P v ∧ Q v) P := by
  have habandon : ∀ error, Contract (abandonKeygen error) env P (fun _ _ => False) P := by
    intro error
    refine (removeIfExists_contract hP).bind fun _ => ?_
    refine ((removeIfExists_contract hP').pre fun v hv => And.left hv).bind fun _ => ?_
    exact contract_raise fun v hv => hv.1
  match ending with
  | .exited true => exact contract_pure fun v hv => hv
  | .exited false =>
    exact (habandon _).mono (fun v hv => hv.1) (fun _ _ h => h.elim) fun _ h => h
  | .timedOut => exact (habandon _).mono (fun v hv => hv.1) (fun _ _ h => h.elim) fun _ h => h

/-- The key that is published is the one that was generated. -/
theorem publish_unless (hfresh : env.Fresh derive blob) :
    Contract (publishNewIdentity sha256 derive hostId) env (Unless derive blob)
      (fun m v => Lacks derive blob v ∧ ∃ blob', blob' ≠ blob ∧ m = materialOf sha256 hostId blob')
      (Unless derive blob) := by
  have hlacks : ∀ e, e ≠ .privateKey → Apart e (Lacks derive blob) := fun e he =>
    apart_lacks derive he blob
  -- the private key is removed: with the marker, or because it is no key of the blob
  refine Contract.bind (Q := fun _ => Lacks derive blob) ?_ fun _ => ?_
  · refine contract_ask.bind fun n => ?_
    split
    · exact contract_raise fun v hv => hv.1
    · exact contract_call (fun _ _ _ => lacks_of_unlink derive) (fun v hv => hv.1)
        fun v hv => .inl hv
    · exact contract_pure fun v hv => lacks_of_lookup derive hv.2
  refine Contract.otherwise (R := Lacks derive blob) ?_ fun v hv => .inl hv
  refine (removeFileEntryIfExists_contract (hlacks .publicKey (by decide)).removes).bind
    fun _ => ?_
  refine ((removeIfExists_contract (hlacks .pendingPrivateKey (by decide)).removes).pre
    fun v hv => And.left hv).bind fun _ => ?_
  refine ((removeIfExists_contract (hlacks .pendingPublicKey (by decide)).removes).pre
    fun v hv => And.left hv).bind fun _ => ?_
  refine ((spawnKeygen_contract hfresh).pre fun v hv => And.left hv).bind fun ending => ?_
  refine (checkKeygen_contract (hlacks .pendingPrivateKey (by decide)).removes
    (hlacks .pendingPublicKey (by decide)).removes ending).bind fun _ => ?_
  -- from here on neither of the two private keys is a key of the blob
  let Both : Volume → Prop := fun v => Lacks derive blob v ∧ PendingLacks derive blob v
  have hpublic : Apart .publicKey Both :=
    (hlacks _ (by decide)).and (apart_pendingLacks (by decide) blob)
  have hpending : Apart .pendingPublicKey Both :=
    (hlacks _ (by decide)).and (apart_pendingLacks (by decide) blob)
  have hstep : ∀ {α β : Type} {m : Gateway α} {f : α → Gateway β} {Q : β → Volume → Prop},
      Contract m env Both (fun _ => Both) Both →
        (∀ a, Contract (f a) env Both Q (Lacks derive blob)) →
          Contract (m >>= f) env Both Q (Lacks derive blob) :=
    fun hm hf => (hm.otherwise fun v hv => hv.1).bind hf
  refine hstep ((protectFile_contract ((hlacks .pendingPrivateKey (by decide)).anyMode.and
    (anyMode_noKey derive _ blob))).post fun _ v hv => hv.1) fun _ => ?_
  refine hstep ((protectFile_contract hpending.anyMode).post fun _ v hv => hv.1) fun _ => ?_
  refine hstep fsyncFile_contract fun _ => ?_
  refine hstep fsyncFile_contract fun _ => ?_
  refine hstep ?_ fun _ => ?_
  · refine contract_call ?_ (fun v hv => hv) fun v hv => hv
    intro v v' hv h
    obtain ⟨n, -, rfl⟩ := Volume.rename_ok h
    exact hpublic _ _ (hpending v none hv)
  refine Contract.bind (Q := fun _ => Lacks derive blob) ?_ fun _ => ?_
  · refine contract_call ?_ (fun v hv => hv.1) fun v hv => hv
    intro v v' hv h content mode hnode
    obtain ⟨n, hn, rfl⟩ := Volume.rename_ok h
    -- what stands at the private key now is what stood at the pending one
    rw [Volume.node_put_of_directory (by rw [hn]; rfl)] at hnode
    exact hv.2 content mode (hn.trans hnode)
  refine fsyncDirectory_contract.bind fun _ => ?_
  refine (validateExistingIdentity_contract (anyMode_noKey derive _ blob)
    (hlacks .publicKey (by decide)).writes).bind fun m => ?_
  refine Contract.pre (P := fun v => ∃ blob', m = materialOf sha256 hostId blob' ∧
    Lacks derive blob v ∧ Holds derive blob' v) ?_ fun v ⟨hv, blob', hm, hholds, _⟩ =>
      ⟨blob', hm, hv, hholds⟩
  refine contract_exists fun blob' => contract_and fun hm => ?_
  refine (finish_contract ((hlacks .rotationRequired (by decide)).and
    (apart_holds derive (by decide) blob'))).mono (fun v hv => hv) ?_ fun v hv => hv.1
  rintro _ v ⟨rfl, ⟨hv, hholds⟩, -⟩
  exact ⟨hv, blob', hv.ne hholds, hm⟩

/-- **No generation returns a key that is marked for rotation.** -/
theorem generate_unless (hfresh : env.Fresh derive blob) :
    Contract (generateIdentityBlocking sha256 derive hostId) env (Unless derive blob)
      (fun m v => Lacks derive blob v ∧ ∃ blob', blob' ≠ blob ∧ m = materialOf sha256 hostId blob')
      (Unless derive blob) := by
  have hempty : Unless derive blob .absent → Unless derive blob (.directory .empty) := by
    rintro -
    exact .inl nofun
  refine (ensurePrivateDirectory_contract hempty).bind fun _ => ?_
  refine regularFileExists_contract.bind fun marked => ?_
  refine (pathEntryExists_contract.otherwise fun v hv => And.left hv).bind fun present => ?_
  let Asked : Volume → Prop := fun v =>
    Unless derive blob v ∧ marked = (v.node .rotationRequired).isSome
  have hmode : AnyMode .privateKey Asked := (anyMode_unless derive blob).and
    (apart_node (by decide) fun n => marked = n.isSome).anyMode
  have hpublic : Apart .publicKey Asked := (apart_unless derive (by decide) (by decide) blob).and
    (apart_node (by decide) fun n => marked = n.isSome)
  refine (((keepIdentity_contract hmode hpublic.writes (present && ! marked)).pre
    fun v hv => hv.1).otherwise fun v hv => And.left hv).bind fun kept => ?_
  split
  · rename_i m
    apply contract_pure
    rintro v ⟨⟨hv, hmarked⟩, hkept⟩
    obtain ⟨hkeep, blob', hm, hholds, -⟩ := hkept m rfl
    rw [Bool.and_eq_true, Bool.not_eq_true'] at hkeep
    -- a key that is kept is not marked
    have hlacks : Lacks derive blob v := by
      rcases hv with hv | hsome
      · exact hv
      · rw [hkeep.2, hsome] at hmarked
        cases hmarked
    exact ⟨hlacks, blob', hlacks.ne hholds, hm⟩
  · exact (publish_unless hfresh).pre fun v hv => hv.1.1

/-! ### Deletion -/

/-- **A deletion that returns leaves nothing.** -/
theorem delete_absent :
    Contract deleteIdentityBlocking env (fun _ => True) (fun _ v => v = .absent)
      fun _ => True := by
  refine (contract_ask.otherwise fun _ _ => trivial).bind fun found => ?_
  split
  · apply contract_pure
    rintro v ⟨-, hfound⟩
    exact Except.ok.inj hfound
  · exact contract_raise fun _ _ => trivial
  · iterate 6 refine contract_true.bind fun _ => ?_
    refine Contract.bind (Q := fun _ v => v = .absent) ?_ fun _ =>
      fsyncDirectory_contract.otherwise fun _ _ => trivial
    exact contract_call (fun v v' _ h => Volume.removeDirectory_ok h) (fun _ _ => trivial)
      fun _ _ => trivial

/-- There is nothing to delete. -/
theorem delete_of_absent : Preserves deleteIdentityBlocking env (· = .absent) := by
  refine Contract.preserves (Q := fun _ v => v = .absent) (R := (· = .absent)) ?_
    (fun _ _ h => h) fun _ h => h
  refine contract_ask.bind fun found => ?_
  refine Contract.pre (P := fun v => found = .absent ∧ v = .absent) ?_ ?_
  · refine contract_and ?_
    rintro rfl
    exact contract_pure fun v hv => hv
  · rintro v ⟨rfl, hfound⟩
    exact ⟨(Except.ok.inj hfound).symm, rfl⟩

/-- A deletion removes a private key before its marker. -/
theorem delete_unless : Preserves deleteIdentityBlocking env (Unless derive blob) := by
  have hlacks : ∀ e, e ≠ .privateKey → Apart e (Lacks derive blob) := fun e he =>
    apart_lacks derive he blob
  refine Contract.preserves (Q := fun _ => Unless derive blob) (R := Unless derive blob) ?_
    (fun _ _ h => h) fun _ h => h
  refine contract_ask.bind fun found => ?_
  split
  · exact contract_pure fun v hv => hv.1
  · exact contract_raise fun v hv => hv.1
  refine Contract.bind (Q := fun _ => Lacks derive blob) ?_ fun _ => ?_
  · refine (contract_ask.otherwise fun v hv => And.left hv).bind fun n => ?_
    split
    · exact contract_call (fun _ _ _ => lacks_of_unlink derive) (fun v hv => hv.1.1)
        fun v hv => .inl hv
    · exact contract_raise fun v hv => hv.1.1
    · exact contract_pure fun v hv => lacks_of_lookup derive hv.2
  refine Contract.mono (Q := fun _ => Lacks derive blob) (R := Lacks derive blob) ?_
    (fun _ h => h) (fun _ _ h => .inl h) fun _ h => .inl h
  have hremove : ∀ e, e ≠ .privateKey → Contract (removeRegularFileIfExists .delete e) env
      (Lacks derive blob) (fun _ => Lacks derive blob) (Lacks derive blob) := fun e he =>
    (removeRegularFileIfExists_contract (hlacks e he).removes).post fun _ _ hv => hv.1
  refine (hremove .publicKey (by decide)).bind fun _ => ?_
  refine (hremove .pendingPrivateKey (by decide)).bind fun _ => ?_
  refine (hremove .pendingPublicKey (by decide)).bind fun _ => ?_
  refine (hremove .rotationRequired (by decide)).bind fun _ => ?_
  refine (contract_ask.post fun _ _ hv => And.left hv).bind fun _ => ?_
  refine Contract.bind (Q := fun _ => Lacks derive blob) ?_ fun _ => fsyncDirectory_contract
  refine contract_call ?_ (fun _ h => h) fun _ h => h
  intro v v' _ h
  rw [Volume.removeDirectory_ok h]
  exact nofun

/-! ### Sessions -/

/-- A predicate that survives a marker. -/
def Marks (P : Volume → Prop) : Prop :=
  ∀ v v' content, P v → v.writeNoFollow .rotationRequired 0o600 content = .ok v' → P v'

theorem Apart.marks (hP : Apart .rotationRequired P) : Marks P := by
  intro v v' content hv h
  obtain ⟨m, rfl, -⟩ := Volume.writeNoFollow_ok h
  exact hP v _ hv

theorem marks_absent : Marks (· = .absent) := by
  rintro _ v' content rfl h
  cases h

theorem marks_unless : Marks (Unless derive blob) := by
  intro v v' content _ h
  obtain ⟨m, -, hnode⟩ := Volume.writeNoFollow_ok h
  exact .inr (by rw [hnode]; rfl)

theorem writeRotationMarker_contract (hP : Marks P) :
    Contract writeRotationMarker env P (fun _ => P) P := by
  have hwrite : ∀ action content, Contract (call .session action
      (·.writeNoFollow .rotationRequired 0o600 content)) env P (fun _ => P) P := fun _ content =>
    contract_call (fun v v' hv h => hP v v' content hv h) (fun _ h => h) fun _ h => h
  refine (hwrite _ _).bind fun _ => (hwrite _ _).bind fun _ => ?_
  exact fsyncFile_contract.bind fun _ => fsyncDirectory_contract

theorem mark_preserves (hP : Marks P) : Preserves markIdentityForRotationLocked env P := by
  refine Contract.preserves (Q := fun _ => P) (R := P) ?_ (fun _ _ h => h) fun _ h => h
  refine contract_ask.bind fun found => ?_
  split
  · exact (writeRotationMarker_contract hP).pre fun v hv => hv.1
  · exact contract_raise fun v hv => hv.1
  · exact contract_pure fun v hv => hv.1

/-- A session only looks at the private key. -/
theorem inspectPrivateKey_contract :
    Contract (inspectPrivateKey derive) env P (fun _ => P) P := by
  refine Contract.bind (Q := fun _ => P) ?_ fun found => ?_
  · refine Contract.attempt (R := P) ?_ (fun _ => contract_pure fun v hv => hv) fun _ h => h
    refine contract_ask.bind fun n => ?_
    split
    · exact contract_pure fun v hv => hv.1
    · exact contract_pure fun v hv => hv.1
    · exact contract_pure fun v hv => hv.1
  · split
    · exact contract_pure fun v hv => hv
    · exact contract_pure fun v hv => hv
    · refine Contract.attempt (R := P) ?_ (fun _ => contract_pure fun v hv => hv) fun _ h => h
      refine (derivePublicKey_contract.otherwise fun v hv => hv).bind fun derived => ?_
      exact contract_pure fun v hv => hv.1

/-- Whatever a session expects, a predicate that survives a marker survives its check. -/
theorem validate_preserves (hP : Marks P) (expectedPublicKey expectedFingerprint : String) :
    Preserves (validateIdentityBindingLocked sha256 derive hostId expectedPublicKey
      expectedFingerprint) env P := by
  refine Contract.preserves (Q := fun _ => P) (R := P) ?_ (fun _ _ h => h) fun _ h => h
  refine inspectPrivateKey_contract.bind fun found => ?_
  split
  · exact contract_pure fun v hv => hv
  · refine Contract.bind (Q := fun _ => P) ?_ fun _ => contract_pure fun v hv => hv
    refine Contract.ite (fun _ => ?_) fun _ => contract_pure fun v hv => hv
    refine Contract.attempt (R := P) ?_ (fun _ => contract_pure fun v hv => hv) fun _ h => h
    exact writeRotationMarker_contract hP

end Operations

end CtfZone.Ssh.Identity
