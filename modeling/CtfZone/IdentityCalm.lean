/-
# Operations that nothing disturbs

An identity directory holds regular files only, whatever is done to it and wherever it is cut
off.  From any such directory an operation that is not disturbed comes to its end.

* `Volume.Tidy` : there is nothing, or a directory with regular files of the five names;
* `generate_tidy`, `delete_tidy`, … : every operation keeps it, in every environment;
* `generate_calm`, `delete_calm`, `validate_calm` : operations that are not disturbed return;
* `generate_again` : a generation over a settled identity changes nothing.
-/
import CtfZone.IdentityContracts

namespace CtfZone.Ssh.Identity

open Effects Effects.Prog

/-! ## Regular files -/

/-- The node is a regular file. -/
def Node.IsFile (n : Node) : Prop := ∃ content mode, n = .file content mode

namespace Volume

/-- There is nothing, or a directory with regular files of the five names. -/
inductive Tidy : Volume → Prop
  | absent : Tidy .absent
  | directory {d : Directory} : d.unexpected = false → (∀ e n, d.node e = some n → n.IsFile) →
      Tidy (.directory d)

variable {v v' : Volume} {e : Entry}

theorem Tidy.isFile (h : v.Tidy) {n : Node} (hnode : v.node e = some n) : n.IsFile := by
  cases h with
  | absent => cases hnode
  | directory _ hfiles => exact hfiles e n hnode

theorem Tidy.put (h : v.Tidy) {n : Option Node} (hn : ∀ n', n = some n' → n'.IsFile) :
    (v.put e n).Tidy := by
  cases h with
  | absent => exact .absent
  | directory hunexpected hfiles =>
    refine .directory hunexpected fun e' n' hnode => ?_
    have hnode : (if e' = e then n else _) = some n' := hnode
    split at hnode
    · exact hn n' hnode
    · exact hfiles e' n' hnode

theorem Tidy.put_none (h : v.Tidy) : (v.put e none).Tidy := h.put nofun

theorem Tidy.put_file (h : v.Tidy) (content : ByteArray) (mode : ℕ) :
    (v.put e (some (.file content mode))).Tidy := by
  refine h.put ?_
  rintro _ ⟨⟩
  exact ⟨content, mode, rfl⟩

theorem tidy_empty : (Volume.directory .empty).Tidy := .directory rfl nofun

theorem Tidy.rename (h : v.Tidy) {source target : Entry} (hok : v.rename source target = .ok v') :
    v'.Tidy := by
  obtain ⟨n, hnode, rfl⟩ := rename_ok hok
  obtain ⟨content, mode, rfl⟩ := h.isFile hnode
  exact h.put_none.put_file content mode

theorem Tidy.writeNoFollow (h : v.Tidy) {mode : ℕ} {content : ByteArray}
    (hok : v.writeNoFollow e mode content = .ok v') : v'.Tidy := by
  obtain ⟨m, rfl, -⟩ := writeNoFollow_ok hok
  exact h.put_file content m

end Volume

/-- `ssh-keygen` leaves regular files. -/
def Env.Tidy (env : Env) : Prop :=
  (∀ n, env.generated.1 = some n → n.IsFile) ∧ ∀ n, env.generated.2 = some n → n.IsFile

/-! ## What every operation keeps -/

section Tidy

variable {α : Type} {env : Env} {P : Volume → Prop} {stage : Stage} {action : Action}

theorem preserves_call {effect : Volume → Except String Volume}
    (h : ∀ v v', P v → effect v = .ok v' → P v') : Preserves (call stage action effect) env P :=
  (contract_call h (fun _ hv => hv) fun _ hv => hv).preserves (fun _ _ hv => hv) fun _ hv => hv

theorem preserves_fsyncDirectory : Preserves (fsyncDirectory stage) env P :=
  preserves_call fun _ _ hv h => Except.ok.inj h ▸ hv

variable {e : Entry}

theorem removes_tidy : Removes e Volume.Tidy := fun _ hv => hv.put_none

theorem writes_tidy : Writes e Volume.Tidy := fun _ content mode hv => hv.put_file content mode

theorem removeIfExists_tidy : Preserves (removeIfExists stage e) env Volume.Tidy :=
  (removeIfExists_contract removes_tidy).keeps

theorem removeFileEntryIfExists_tidy :
    Preserves (removeFileEntryIfExists stage e) env Volume.Tidy :=
  (removeFileEntryIfExists_contract removes_tidy).keeps

theorem removeRegularFileIfExists_tidy :
    Preserves (removeRegularFileIfExists stage e) env Volume.Tidy :=
  (removeRegularFileIfExists_contract removes_tidy).keeps

theorem protectFile_tidy : Preserves (protectFile stage e) env Volume.Tidy :=
  (protectFile_contract writes_tidy.anyMode).keeps

theorem ensurePrivateDirectory_tidy : Preserves ensurePrivateDirectory env Volume.Tidy :=
  (ensurePrivateDirectory_contract fun _ => Volume.tidy_empty).preserves (fun _ _ hv => hv)
    fun _ hv => hv

variable {sha256 : List UInt8 → List UInt8} {derive : ByteArray → Option ByteArray}
  {hostId : BitVec 128}

theorem validateExistingIdentity_tidy :
    Preserves (validateExistingIdentity sha256 derive stage hostId) env Volume.Tidy :=
  (validateExistingIdentity_contract writes_tidy.anyMode writes_tidy).keeps

theorem spawnKeygen_tidy (henv : env.Tidy) : Preserves spawnKeygen env Volume.Tidy := by
  intro v hv
  refine (wp_bind _ _ _ _ _).mpr ?_
  refine Preserves.bind (m := call .publish .keygen fun v =>
    .ok ((v.put .pendingPrivateKey env.generated.1).put .pendingPublicKey env.generated.2)) ?_
      (fun _ => preserves_read _) v hv
  refine preserves_call fun v v' hv h => ?_
  rw [← Except.ok.inj h]
  exact (hv.put henv.1).put henv.2

theorem publishNewIdentity_tidy (henv : env.Tidy) :
    Preserves (publishNewIdentity sha256 derive hostId) env Volume.Tidy := by
  refine removeFileEntryIfExists_tidy.bind fun _ => removeFileEntryIfExists_tidy.bind fun _ => ?_
  refine removeIfExists_tidy.bind fun _ => removeIfExists_tidy.bind fun _ => ?_
  refine (spawnKeygen_tidy henv).bind fun ending => Preserves.bind ?_ fun _ => ?_
  · have hcheck : Contract (checkKeygen ending) env (fun v => v.Tidy ∧ True)
        (fun _ v => v.Tidy ∧ True) Volume.Tidy :=
      checkKeygen_contract removes_tidy removes_tidy ending
    exact (hcheck.pre fun v hv => ⟨hv, trivial⟩).keeps
  refine protectFile_tidy.bind fun _ => protectFile_tidy.bind fun _ => ?_
  refine fsyncFile_contract.preserves (fun _ _ h => h) (fun _ h => h) |>.bind fun _ => ?_
  refine fsyncFile_contract.preserves (fun _ _ h => h) (fun _ h => h) |>.bind fun _ => ?_
  refine (preserves_call fun _ _ hv h => hv.rename h).bind fun _ => ?_
  refine (preserves_call fun _ _ hv h => hv.rename h).bind fun _ => ?_
  refine preserves_fsyncDirectory.bind fun _ => validateExistingIdentity_tidy.bind fun m => ?_
  exact removeIfExists_tidy.bind fun _ => preserves_fsyncDirectory.bind fun _ => preserves_pure _

/-- **A generation leaves regular files only**, wherever it is cut off. -/
theorem generate_tidy (henv : env.Tidy) :
    Preserves (generateIdentityBlocking sha256 derive hostId) env Volume.Tidy := by
  refine ensurePrivateDirectory_tidy.bind fun _ => ?_
  refine regularFileExists_contract.keeps.bind fun marked => ?_
  refine pathEntryExists_contract.keeps.bind fun present => ?_
  refine (keepIdentity_contract writes_tidy.anyMode writes_tidy _).keeps.bind fun kept => ?_
  split
  · exact preserves_pure _
  · exact publishNewIdentity_tidy henv

theorem delete_tidy : Preserves deleteIdentityBlocking env Volume.Tidy := by
  refine contract_ask.keeps.bind fun found => ?_
  split
  · exact preserves_pure _
  · exact preserves_raise _
  · iterate 5 refine removeRegularFileIfExists_tidy.bind fun _ => ?_
    refine contract_ask.keeps.bind fun _ => Preserves.bind ?_ fun _ => preserves_fsyncDirectory
    refine preserves_call fun v v' _ h => ?_
    rw [Volume.removeDirectory_ok h]
    exact .absent

theorem marks_tidy : Marks Volume.Tidy := fun _ _ _ hv h => hv.writeNoFollow h

end Tidy

/-! ## Calls that are not disturbed -/

section Calm

variable {α : Type} {env : Env} (henv : env.Calm) {v v' : Volume} {stage : Stage}
  {action : Action} {e : Entry}
include henv

theorem ask_calm {f : Volume → Except String α} {a : α} (h : f v = .ok a) :
    Returns (ask stage action f) env v a v := by
  unfold Returns ask
  rw [henv.fault, h]

theorem call_calm {effect : Volume → Except String Volume} (h : effect v = .ok v') :
    Returns (call stage action effect) env v ⟨⟩ v' := by
  unfold Returns call
  rw [henv.fault, h]

theorem unhalted_ask {f : Volume → Except String α} : Unhalted (ask stage action f) env := by
  intro v
  unfold ask
  rw [henv.fault]
  dsimp only
  split
  · exact nofun
  · exact nofun

theorem unhalted_call {effect : Volume → Except String Volume} :
    Unhalted (call stage action effect) env := by
  intro v
  unfold call
  rw [henv.fault]
  dsimp only
  split
  · exact nofun
  · exact nofun

omit henv in
theorem unhalted_lift {x : Except String α} : Unhalted (lift x) env := by
  unfold lift
  split
  · exact unhalted_pure _
  · exact unhalted_raise _

omit henv in
theorem lookup_of_tidy (hv : v.Tidy) (e : Entry) : v.lookup e = .ok (v.node e) := by
  cases hv with
  | absent => rfl
  | directory => rfl

omit henv in
theorem lookup_of_node {n : Node} (h : v.node e = some n) : v.lookup e = .ok (some n) := by
  cases v with
  | directory d => exact congrArg Except.ok h
  | absent => cases h
  | obstructed => cases h

theorem removeIfExists_calm (hv : v.Tidy) :
    Returns (removeIfExists stage e) env v ⟨⟩ (v.put e none) := by
  refine call_calm henv ?_
  unfold Volume.unlink
  rw [lookup_of_tidy hv]
  cases hnode : v.node e with
  | none =>
    dsimp only
    rw [← hnode, Volume.put_node]
  | some n =>
    obtain ⟨content, mode, rfl⟩ := hv.isFile hnode
    rfl

/-- What is looked at first is a regular file, or nothing. -/
theorem lookup_remove_calm (hv : v.Tidy) {f : Option Node → Gateway PUnit} (hnone : f none = pure ⟨⟩)
    (hfile : ∀ content m, f (some (.file content m)) = removeIfExists stage e) :
    Returns (ask stage action (·.lookup e) >>= f) env v ⟨⟩ (v.put e none) := by
  refine .bind (ask_calm henv (lookup_of_tidy hv e)) ?_
  cases hnode : v.node e with
  | none =>
    rw [hnone]
    exact returns_pure.mpr ⟨rfl, by rw [← hnode, Volume.put_node]⟩
  | some n =>
    obtain ⟨content, mode, rfl⟩ := hv.isFile hnode
    rw [hfile]
    exact removeIfExists_calm henv hv

theorem removeFileEntryIfExists_calm (hv : v.Tidy) :
    Returns (removeFileEntryIfExists stage e) env v ⟨⟩ (v.put e none) :=
  lookup_remove_calm henv hv rfl fun _ _ => rfl

theorem removeRegularFileIfExists_calm (hv : v.Tidy) :
    Returns (removeRegularFileIfExists stage e) env v ⟨⟩ (v.put e none) :=
  lookup_remove_calm henv hv rfl fun _ _ => rfl

theorem protectFile_calm {content : ByteArray} {mode : ℕ}
    (hnode : v.node e = some (.file content mode)) :
    Returns (protectFile stage e) env v ⟨⟩ (v.put e (some (.file content 0o600))) := by
  refine .bind (ask_calm henv (lookup_of_node hnode)) ?_
  refine call_calm henv ?_
  simp only [Volume.changeMode, hnode]

theorem fsyncFile_calm (h : (v.node e).isSome) : Returns (fsyncFile stage e) env v ⟨⟩ v := by
  refine ask_calm henv ?_
  rw [if_pos h]

theorem fsyncDirectory_calm : Returns (fsyncDirectory stage) env v ⟨⟩ v := call_calm henv rfl

variable {sha256 : List UInt8 → List UInt8} {derive : ByteArray → Option ByteArray}
  {blob : List UInt8}

omit henv in
theorem holds_valid (h : Holds derive blob v) : validEd25519Blob blob = true := by
  obtain ⟨_, _, hkey⟩ := h
  exact hkey.valid

/-- `ssh-keygen -y` prints the public key that belongs to a file. -/
theorem derivePublicKey_calm {content output : ByteArray} {mode : ℕ} {text : String}
    (hnode : v.node .privateKey = some (.file content mode))
    (houtput : derive content = some output) (hsize : output.size ≤ 1024)
    (hread : String.fromUTF8? output = some text) :
    Returns (derivePublicKey derive stage) env v text v := by
  refine ask_calm henv ?_
  simp only [hnode, houtput, if_neg (not_lt.mpr hsize), hread]

/-! ### Sessions -/

/-- **A session that is not disturbed passes the check.** -/
theorem validate_calm (hheld : Holds derive blob v) (hostId : BitVec 128) :
    Returns (validateIdentityBindingLocked sha256 derive hostId (bareText blob)
      (fingerprint sha256 blob)) env v (.ok ⟨⟩) v := by
  have hvalid := holds_valid hheld
  obtain ⟨content, hnode, output, text, houtput, hsize, hread, hlength, hcarries⟩ := hheld
  have hinspect : Returns (inspectPrivateKey derive) env v (.derives text) v := by
    refine returns_bind.mpr ⟨some true, v, returns_attempt.mpr (.inl ?_), ?_⟩
    · refine .bind (ask_calm henv (lookup_of_node hnode)) ?_
      exact returns_pure.mpr ⟨by decide, rfl⟩
    · refine returns_attempt.mpr (.inl (returns_bind.mpr ⟨text, v, ?_, ?_⟩))
      · exact derivePublicKey_calm henv hnode houtput hsize hread
      · exact returns_pure.mpr ⟨rfl, rfl⟩
  have hbinding : validateIdentityBinding sha256 hostId (.derives text) (bareText blob)
      (fingerprint sha256 blob) = .ok ⟨⟩ := by
    refine (validateIdentityBinding_iff hvalid).mpr ⟨?_, hlength, hcarries⟩
    rw [size_of_fromUTF8? hread]
    exact hsize
  refine .bind (hinspect) ?_
  rw [hbinding]
  exact returns_pure.mpr ⟨rfl, rfl⟩

/-! ### Deletion -/

/-- **A deletion that is not disturbed leaves nothing.** -/
theorem delete_calm (hv : v.Tidy) : Returns deleteIdentityBlocking env v ⟨⟩ .absent := by
  refine .bind (ask_calm henv rfl) ?_
  cases hv with
  | absent => exact returns_pure.mpr ⟨rfl, rfl⟩
  | @directory d hunexpected hfiles =>
    have h₀ : (Volume.directory d).Tidy := .directory hunexpected hfiles
    have h₁ := h₀.put_none (e := .privateKey)
    have h₂ := h₁.put_none (e := .publicKey)
    have h₃ := h₂.put_none (e := .pendingPrivateKey)
    have h₄ := h₃.put_none (e := .pendingPublicKey)
    refine .bind (removeRegularFileIfExists_calm henv h₀) ?_
    refine .bind (removeRegularFileIfExists_calm henv h₁) ?_
    refine .bind (removeRegularFileIfExists_calm henv h₂) ?_
    refine .bind (removeRegularFileIfExists_calm henv h₃) ?_
    refine .bind (removeRegularFileIfExists_calm henv h₄) ?_
    -- nothing is left but what has another name
    let empty : Directory := ⟨fun e' =>
      if e' = .rotationRequired then none else if e' = .pendingPublicKey then none
      else if e' = .pendingPrivateKey then none else if e' = .publicKey then none
      else if e' = .privateKey then none else d.node e', d.unexpected⟩
    have hempty : empty.isEmpty = true := by
      show (true && true && true && true && true && ! d.unexpected) = true
      rw [hunexpected]
      rfl
    refine .bind (ask_calm henv (if_pos hempty)) ?_
    refine .bind (call_calm henv (if_pos hempty)) ?_
    exact fsyncDirectory_calm henv

/-! ### Generation -/

variable {hostId : BitVec 128}

omit henv in
theorem canonicalPublicKey_of_key {content : ByteArray} (h : KeyOf derive content blob)
    (hostId : BitVec 128) : ∃ output text, derive content = some output ∧ output.size ≤ 1024 ∧
      String.fromUTF8? output = some text ∧
        canonicalPublicKey text hostId = .ok (identityText blob hostId) := by
  obtain ⟨output, text, houtput, hsize, hread, hlength, hcarries⟩ := h
  exact ⟨output, text, houtput, hsize, hread, canonicalPublicKey_iff.mpr
    ⟨hlength, blob, hcarries, rfl⟩⟩

theorem readPublicKey_calm : ∃ stored, Returns (readPublicKey stage) env v stored v := by
  obtain ⟨stored, v', h⟩ : ∃ stored v', Returns (readPublicKey stage) env v stored v' :=
    (unhalted_ask henv).returns none v
  have hsame : Preserves (readPublicKey stage) env (· = v) := readPublicKey_contract.keeps
  obtain rfl : v' = v := h.of_wp (hsame v rfl)
  exact ⟨stored, h⟩

theorem repairPublicKey_calm (hv : v.Tidy) {n : Node} (hopen : v.node .privateKey = some n)
    (canonical : String) :
    ∃ v', Returns (repairPublicKey stage hostId canonical) env v ⟨⟩ v' := by
  obtain ⟨stored, hstored⟩ : ∃ stored, Returns (readPublicKey stage) env v stored v :=
    readPublicKey_calm henv
  by_cases hcurrent : (stored.bind fun value => (canonicalPublicKey value hostId).toOption) ≠
      some canonical
  · -- the file is written again, whether it is there or not
    let line : ByteArray := (canonical ++ "\n").toUTF8
    obtain ⟨mode, hwrite⟩ : ∃ mode, v.write .publicKey env.createMode line =
        .ok (v.put .publicKey (some (.file line mode))) := by
      cases hv with
      | absent => cases hopen
      | @directory d _ hfiles =>
        unfold Volume.write
        cases hnode : d.node .publicKey with
        | none =>
          refine ⟨env.createMode, ?_⟩
          simp only [hnode]
        | some n' =>
          obtain ⟨content, mode, rfl⟩ := hfiles _ _ hnode
          refine ⟨mode, ?_⟩
          simp only [hnode]
    have hput : ∀ n', ((v.put .publicKey (some n')).node .publicKey) = some n' := by
      intro n'
      cases hv with
      | absent => cases hopen
      | directory => exact Volume.node_put_directory _ _ _
    refine ⟨(v.put .publicKey (some (.file line mode))).put .publicKey (some (.file line 0o600)),
      .bind hstored ?_⟩
    rw [if_pos hcurrent]
    refine .bind (returns_read.mpr ⟨rfl, rfl⟩) ?_
    refine .bind (call_calm henv hwrite) ?_
    refine .bind (protectFile_calm henv (hput _)) ?_
    refine returns_bind.mpr ⟨⟨⟩, _, fsyncFile_calm henv ?_, fsyncDirectory_calm henv⟩
    rw [Volume.node_put_of_isSome (by rw [hput]; rfl)]
    rfl
  · refine ⟨v, .bind hstored ?_⟩
    rw [if_neg hcurrent]
    exact returns_pure.mpr ⟨rfl, rfl⟩

/-- A private key that is there is validated, once its public key file has been looked after. -/
theorem validateExistingIdentity_repair {content : ByteArray} {mode : ℕ}
    (hnode : v.node .privateKey = some (.file content mode)) (hkey : KeyOf derive content blob)
    (hrepair : Returns (repairPublicKey stage hostId (identityText blob hostId)) env
      (v.put .privateKey (some (.file content 0o600))) ⟨⟩ v') :
    Returns (validateExistingIdentity sha256 derive stage hostId) env v
      (materialOf sha256 hostId blob) v' := by
  obtain ⟨output, text, houtput, hsize, hread, hcanonical⟩ := canonicalPublicKey_of_key hkey hostId
  have hput : (v.put .privateKey (some (.file content 0o600))).node .privateKey =
      some (.file content 0o600) := Volume.node_put_of_isSome (by rw [hnode]; rfl) _
  refine .bind (protectFile_calm henv hnode) ?_
  refine .bind (derivePublicKey_calm henv hput houtput hsize hread) ?_
  rw [hcanonical]
  refine .bind (returns_pure.mpr ⟨rfl, rfl⟩) (.bind hrepair ?_)
  rw [material_identityText hkey.valid]
  exact returns_pure.mpr ⟨rfl, rfl⟩

theorem validateExistingIdentity_calm (hv : v.Tidy) {content : ByteArray} {mode : ℕ}
    (hnode : v.node .privateKey = some (.file content mode)) (hkey : KeyOf derive content blob) :
    ∃ v', Returns (validateExistingIdentity sha256 derive stage hostId) env v
      (materialOf sha256 hostId blob) v' := by
  obtain ⟨v', hrepair⟩ : ∃ v', Returns (repairPublicKey stage hostId (identityText blob hostId)) env
      (v.put .privateKey (some (.file content 0o600))) ⟨⟩ v' :=
    repairPublicKey_calm henv (hv.put_file content 0o600)
      (Volume.node_put_of_isSome (by rw [hnode]; rfl) _) _
  exact ⟨v', validateExistingIdentity_repair henv hnode hkey hrepair⟩

theorem unhalted_validateExistingIdentity :
    Unhalted (validateExistingIdentity sha256 derive stage hostId) env := by
  have hprotect : ∀ e, Unhalted (protectFile stage e) env := by
    intro e
    refine (unhalted_ask henv).bind fun n => ?_
    split
    · exact unhalted_call henv
    · exact unhalted_raise _
    · exact unhalted_raise _
  refine (hprotect _).bind fun _ => (unhalted_ask henv).bind fun _ => unhalted_lift.bind fun _ => ?_
  refine Unhalted.bind ?_ fun _ => unhalted_lift
  refine Unhalted.bind ((unhalted_ask henv).attempt fun _ => unhalted_pure _) fun stored => ?_
  refine Unhalted.ite ?_ (unhalted_pure _)
  refine (unhalted_read _).bind fun _ => (unhalted_call henv).bind fun _ => (hprotect _).bind fun _ =>
    (unhalted_ask henv).bind fun _ => unhalted_call henv

/-- `ssh-keygen` makes the private key of a blob, and a public key beside it. -/
structure Env.Makes (derive : ByteArray → Option ByteArray) (blob : List UInt8) (env : Env) :
    Prop where
  privateKey : ∃ content mode, env.generated.1 = some (.file content mode) ∧
    KeyOf derive content blob
  publicKey : ∃ content mode, env.generated.2 = some (.file content mode)

theorem spawnKeygen_calm : Returns spawnKeygen env v (.exited true)
    ((v.put .pendingPrivateKey env.generated.1).put .pendingPublicKey env.generated.2) := by
  refine .bind (returns_read.mpr ⟨rfl, rfl⟩) ?_
  refine .bind (call_calm henv rfl) ?_
  exact returns_read.mpr ⟨henv.keygenEnd.symm, rfl⟩

theorem publishNewIdentity_calm (hmakes : env.Makes derive blob) (hv : v.Tidy)
    (hopen : v ≠ .absent) :
    ∃ v', Returns (publishNewIdentity sha256 derive hostId) env v (materialOf sha256 hostId blob)
      v' := by
  obtain ⟨⟨content, mode, hprivate, hkey⟩, content', mode', hpublic⟩ := hmakes
  cases hv with
  | absent => exact absurd rfl hopen
  | @directory d hunexpected hfiles =>
  have h₀ : (Volume.directory d).Tidy := .directory hunexpected hfiles
  have h₁ := h₀.put_none (e := .privateKey)
  have h₂ := h₁.put_none (e := .publicKey)
  have h₃ := h₂.put_none (e := .pendingPrivateKey)
  have h₄ := h₃.put_none (e := .pendingPublicKey)
  have h₅ := (h₄.put_file (e := .pendingPrivateKey) content mode).put_file
    (e := .pendingPublicKey) content' mode'
  have h₆ := (h₅.put_file (e := .pendingPrivateKey) content 0o600).put_file
    (e := .pendingPublicKey) content' 0o600
  have h₇ := (h₆.put_none (e := .pendingPublicKey)).put_file (e := .publicKey) content' 0o600
  have h₈ := (h₇.put_none (e := .pendingPrivateKey)).put_file (e := .privateKey) content 0o600
  obtain ⟨v', hvalidate⟩ : ∃ v', Returns (validateExistingIdentity sha256 derive .published hostId)
      env _ (materialOf sha256 hostId blob) v' :=
    validateExistingIdentity_calm henv h₈ (Volume.node_put_directory _ _ _) hkey
  have hv' : v'.Tidy := hvalidate.of_wp (validateExistingIdentity_tidy _ h₈)
  refine ⟨v'.put .rotationRequired none, ?_⟩
  refine .bind (removeFileEntryIfExists_calm henv h₀) ?_
  refine .bind (removeFileEntryIfExists_calm henv h₁) ?_
  refine .bind (removeIfExists_calm henv h₂) ?_
  refine .bind (removeIfExists_calm henv h₃) ?_
  refine .bind (spawnKeygen_calm henv) ?_
  rw [hprivate, hpublic]
  refine .bind (returns_pure.mpr ⟨rfl, rfl⟩) ?_
  refine .bind (protectFile_calm henv (Eq.refl (some (Node.file content mode)))) ?_
  refine .bind (protectFile_calm henv (Eq.refl (some (Node.file content' mode')))) ?_
  refine .bind (fsyncFile_calm henv rfl) ?_
  refine .bind (fsyncFile_calm henv rfl) ?_
  refine .bind (call_calm henv rfl) ?_
  refine .bind (call_calm henv rfl) ?_
  refine .bind (fsyncDirectory_calm henv) ?_
  refine .bind (hvalidate) ?_
  refine .bind (removeIfExists_calm henv hv') ?_
  exact .bind (fsyncDirectory_calm henv) (returns_pure.mpr ⟨rfl, rfl⟩)

omit henv in
theorem apart_open {e : Entry} : Apart e (· ≠ .absent) := by
  intro v n hv
  cases v with
  | absent => exact absurd rfl hv
  | obstructed => exact nofun
  | directory d => exact nofun

/-- An identity is there that is kept, or there is none. -/
theorem keepIdentity_calm (hopen : v ≠ .absent) (hv : v.Tidy) (keep : Bool) :
    ∃ kept v', Returns (keepIdentity sha256 derive hostId keep) env v kept v' ∧ v' ≠ .absent ∧
      v'.Tidy := by
  obtain ⟨kept, v', h⟩ : ∃ kept v', Returns (keepIdentity sha256 derive hostId keep) env v kept v' := by
    cases keep with
    | false => exact ⟨none, v, returns_pure.mpr ⟨rfl, rfl⟩⟩
    | true =>
      exact ((unhalted_validateExistingIdentity henv).bind fun _ => unhalted_pure _).returns none v
  have hwrites : ∀ e, Writes e fun v => v ≠ .absent ∧ v.Tidy := fun _ =>
    apart_open.writes.and writes_tidy
  exact ⟨kept, v', h,
    ((keepIdentity_contract (hwrites _).anyMode (hwrites _) keep).done ⟨hopen, hv⟩ h).1⟩

/-- The directory is there. -/
theorem ensurePrivateDirectory_calm (hv : v.Tidy) :
    ∃ v', Returns ensurePrivateDirectory env v ⟨⟩ v' ∧ v' ≠ .absent ∧ v'.Tidy := by
  cases hv with
  | absent =>
    refine ⟨.directory .empty, ?_, nofun, Volume.tidy_empty⟩
    refine .bind (ask_calm henv rfl) ?_
    exact .bind (call_calm henv rfl) (call_calm henv rfl)
  | @directory d hunexpected hfiles =>
    refine ⟨.directory d, ?_, nofun, .directory hunexpected hfiles⟩
    refine .bind (ask_calm henv rfl) ?_
    exact .bind (returns_pure.mpr ⟨rfl, rfl⟩) (call_calm henv rfl)

theorem regularFileExists_calm (hv : v.Tidy) :
    Returns (regularFileExists stage e) env v (v.node e).isSome v := by
  refine .bind (ask_calm henv (lookup_of_tidy hv e)) ?_
  cases hnode : v.node e with
  | none => exact returns_pure.mpr ⟨rfl, rfl⟩
  | some n =>
    obtain ⟨content, mode, rfl⟩ := hv.isFile hnode
    exact returns_pure.mpr ⟨rfl, rfl⟩

theorem pathEntryExists_calm (hv : v.Tidy) :
    Returns (pathEntryExists stage e) env v (v.node e).isSome v :=
  .bind (ask_calm henv (lookup_of_tidy hv e)) (returns_pure.mpr ⟨rfl, rfl⟩)

/-- **A generation that is not disturbed publishes an identity**, and leaves it settled. -/
theorem generate_calm (hmakes : env.Makes derive blob) (hv : v.Tidy) :
    ∃ blob' v', Returns (generateIdentityBlocking sha256 derive hostId) env v
      (materialOf sha256 hostId blob') v' ∧ Settled derive hostId blob' v' := by
  suffices h : ∃ m v', Returns (generateIdentityBlocking sha256 derive hostId) env v m v' by
    obtain ⟨m, v', hrun⟩ := h
    obtain ⟨blob', rfl, hsettled⟩ := generate_settled.done trivial hrun
    exact ⟨blob', v', hrun, hsettled⟩
  obtain ⟨v₁, hdirectory, hopen, hv₁⟩ := ensurePrivateDirectory_calm henv hv
  let keep := (v₁.node .privateKey).isSome && ! (v₁.node .rotationRequired).isSome
  obtain ⟨kept, v₂, hkept, hopen₂, hv₂⟩ : ∃ kept v₂,
      Returns (keepIdentity sha256 derive hostId keep) env v₁ kept v₂ ∧ v₂ ≠ .absent ∧ v₂.Tidy :=
    keepIdentity_calm henv hopen hv₁ keep
  obtain ⟨m, v', hrest⟩ : ∃ m v', Returns
      (kept.elim (publishNewIdentity sha256 derive hostId) pure) env v₂ m v' := by
    cases kept with
    | some m => exact ⟨m, v₂, returns_pure.mpr ⟨rfl, rfl⟩⟩
    | none =>
      obtain ⟨v', hpublish⟩ := publishNewIdentity_calm henv hmakes hv₂ hopen₂
      exact ⟨_, v', hpublish⟩
  refine ⟨m, v', .bind hdirectory ?_⟩
  refine .bind (regularFileExists_calm henv hv₁) ?_
  refine .bind (pathEntryExists_calm henv hv₁) ?_
  refine .bind hkept ?_
  cases kept with
  | some m => exact hrest
  | none => exact hrest

/-- An identity that is settled is validated without a change. -/
theorem validateExistingIdentity_settled (h : Settled derive hostId blob v) :
    Returns (validateExistingIdentity sha256 derive stage hostId) env v
      (materialOf sha256 hostId blob) v := by
  obtain ⟨content, hnode, hkey⟩ := h.holds
  obtain ⟨stored, mode, value, hpublic, hstored, hvalue, hshown⟩ := h.shows
  have hput : v.put .privateKey (some (.file content 0o600)) = v := by
    rw [← hnode, Volume.put_node]
  have hcurrent : Returns (readPublicKey stage) env v (some value) v := by
    refine returns_attempt.mpr (.inl (ask_calm henv ?_))
    simp only [hpublic, if_neg (not_lt.mpr hstored), hvalue]
  refine validateExistingIdentity_repair henv hnode hkey ?_
  rw [hput]
  refine .bind hcurrent ?_
  -- the file shows the key already
  rw [Option.bind_some, hshown]
  have hsame : ¬ (Except.ok (identityText blob hostId) : Except String String).toOption ≠
      some (identityText blob hostId) := not_not.mpr rfl
  dsimp only
  rw [if_neg hsame]
  exact returns_pure.mpr ⟨rfl, rfl⟩

/-- **A generation over a settled identity returns it once more**, and changes nothing. -/
theorem generate_again (h : Settled derive hostId blob v) :
    Returns (generateIdentityBlocking sha256 derive hostId) env v (materialOf sha256 hostId blob)
      v := by
  have hvalidate : Returns (validateExistingIdentity sha256 derive .existing hostId) env v
      (materialOf sha256 hostId blob) v := validateExistingIdentity_settled henv h
  obtain ⟨content, hnode, -⟩ := h.holds
  have hunmarked := h.unmarked
  cases v with
  | absent => cases hnode
  | obstructed => cases hnode
  | directory d =>
    have hmarker : (Volume.directory d).lookup .rotationRequired = .ok none :=
      congrArg Except.ok hunmarked
    have hopen : Returns ensurePrivateDirectory env (.directory d) ⟨⟩ (.directory d) := by
      refine .bind (ask_calm henv rfl) ?_
      exact .bind (returns_pure.mpr ⟨rfl, rfl⟩) (call_calm henv rfl)
    have hmarked : Returns (regularFileExists .look .rotationRequired) env (.directory d) false
        (.directory d) :=
      .bind (ask_calm henv hmarker) (returns_pure.mpr ⟨rfl, rfl⟩)
    have hpresent : Returns (pathEntryExists .look .privateKey) env (.directory d) true
        (.directory d) :=
      .bind (ask_calm henv (lookup_of_node hnode)) (returns_pure.mpr ⟨rfl, rfl⟩)
    have hkept : Returns (keepIdentity sha256 derive hostId true) env (.directory d)
        (some (materialOf sha256 hostId blob)) (.directory d) := by
      refine returns_attempt.mpr (.inl (.bind hvalidate ?_))
      exact returns_pure.mpr ⟨rfl, rfl⟩
    refine .bind hopen (.bind hmarked ?_)
    refine .bind hpresent (.bind hkept ?_)
    exact returns_pure.mpr ⟨rfl, rfl⟩

end Calm

end CtfZone.Ssh.Identity
