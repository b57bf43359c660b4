/-
# Agreement of the validators

The runtime profile and the flag that the API lets through are checked again by
the controller before a request is sent and by the helper before a container is
started.  `validateDeployment` is the helper's check, from its Python source.

* `imageFullmatch_of_validImageDigest`, `validCpu_of_validCpuLimit`,
  `validateHealthcheck_of_api` : what the API accepts of each part, the helper
  accepts too;
* `validators_agree` : a deployment snapshot of a saved profile passes all checks.
-/
import CtfZone.FlagPolicy

namespace CtfZone

open Journal FloatTexts

namespace Helper

/-! ## The checks of the helper -/

/-- `DEPLOYMENT_FIELDS`. -/
def deploymentFields : List String :=
  ["image_digest", "container_port", "protocol", "cpu_limit", "memory_limit_bytes", "pid_limit",
    "storage_limit_bytes", "healthcheck", "remote_pool", "flag_value"]

/-- `IMAGE_RE.fullmatch`.  The repeated class has no `@`, so that it ends where
the digest begins. -/
def imageFullmatch : List Char → Bool
  | [] => false
  | c :: text =>
    let rest := text.dropWhile fun c => c.isAlphanum || "._:/-".toList.contains c
    c.isAlphanum && "@sha256:".toList.isPrefixOf rest && (rest.drop 8).length = 64 &&
      (rest.drop 8).all fun c => c.isDigit || ('a' ≤ c && c ≤ 'f')

/-- `get` of a field whose value is not `None`. -/
def given (document : Json) (key : String) : Option Json :=
  match document.field key with
  | some .null => none
  | value => value

/-- An `int` that is not a `bool`, from `low` to `high`. -/
def intWithin (low high : ℤ) (value : Json) : Bool :=
  value.asInt.any fun n => low ≤ n && n ≤ high

/-- A positive `int` that is not a `bool`. -/
def positiveInt (value : Json) : Bool := value.asInt.any (0 < ·)

/-- An image pinned to a digest. -/
def validImage : Json → Bool
  | .string image => imageFullmatch image.toList
  | _ => false

/-- One of the three protocols. -/
def validProtocol : Json → Bool
  | .string protocol => ["tcp", "http", "https"].contains protocol
  | _ => false

/-- `float(value)`; an integer too large for it raises an `OverflowError` where
the model has an infinite number. -/
def float (fold : Char → Char) : Json → Option Float
  | .string text => pythonFloat fold text.toList
  | .number text => parseF64 text.toList
  | .bool b => some (if b then 1.0 else 0.0)
  | _ => none

/-- A CPU limit. -/
def validCpu (fold : Char → Char) (value : Json) : Bool :=
  (float fold value).any fun x => 0.01 ≤ x && x ≤ 256.0

/-- A healthcheck command. -/
def validCommand : Json → Bool
  | .string command => command ≠ "" && command.length ≤ 1000
  | _ => false

/-- A flag. -/
def validFlag : Json → Bool
  | .string value =>
    value ≠ "" && ! value.toList.contains '\x00' &&
      value.utf8ByteSize ≤ Controller.maxFlagValueBytes
  | _ => false

/-- The healthcheck part of `validate_deployment`. -/
def validateHealthcheck (healthcheck : Json) : Except String Unit :=
  match healthcheck with
  | .object [] => .ok ⟨⟩
  | .object fields => do
    ensure (fields.all fun p => permittedHealthcheckFields.contains p.1)
      "healthcheck contains unsupported fields"
    ensure ((given healthcheck "command").all validCommand) "healthcheck command is invalid"
    forM ["interval_seconds", "timeout_seconds", "retries", "startup_timeout_seconds"] fun key =>
      ensure ((given healthcheck key).all (intWithin 1 300)) s!"healthcheck {key} is invalid"
  | _ => .error "healthcheck is invalid"

/-- `validate_deployment`. -/
def validateDeployment (fold : Char → Char) (request : Json) : Except String Json :=
  match request.field "deployment" with
  | some (.object fields) => do
    let deployment := Json.object fields
    ensure (fields.all fun p => deploymentFields.contains p.1)
      "deployment contains unsupported fields"
    ensure ((deployment.field "image_digest").any validImage)
      "image must be pinned to a sha256 digest"
    ensure ((deployment.field "container_port").any (intWithin 1 65535))
      "container_port is invalid"
    ensure (validProtocol ((deployment.field "protocol").getD (.string "tcp")))
      "protocol is invalid"
    forM ["memory_limit_bytes", "storage_limit_bytes", "pid_limit"] fun key =>
      ensure ((given deployment key).all positiveInt) s!"{key} is invalid"
    ensure ((given deployment "cpu_limit").all (validCpu fold)) "cpu_limit is invalid"
    validateHealthcheck ((deployment.field "healthcheck").getD (.object []))
    ensure ((given deployment "flag_value").all validFlag) "flag_value is invalid"
    pure deployment
  | _ => .error "deployment is required"

/-! ## What the API accepts, the helper accepts -/

theorem lowerDigit_of_isDigestChar {c : Char} (h : isDigestChar c = true) :
    (c.isDigit || ('a' ≤ c && c ≤ 'f')) = true := by
  simp only [isDigestChar, Bool.and_eq_true, Bool.or_eq_true, Bool.not_eq_true',
    decide_eq_true_eq] at h
  obtain ⟨(hdigit | hlower) | hupper, hnot⟩ := h
  · simp [hdigit]
  · simp [hlower]
  · have hlow : 65 ≤ c.toNat := hupper.1
    have hhigh : c.toNat ≤ 70 := hupper.2
    have hcapital : c.isUpper = true :=
      FloatTexts.isUpper_iff.mpr ⟨hlow, le_trans hhigh (by decide)⟩
    rw [hcapital] at hnot
    cases hnot

/-- An image the API accepts matches the expression of the helper. -/
theorem imageFullmatch_of_validImageDigest {value : String} (h : validImageDigest value = true) :
    imageFullmatch value.toList = true := by
  unfold validImageDigest at h
  split at h
  · cases h
  · rename_i repository digest hsplit
    simp only [Bool.and_eq_true, decide_eq_true_eq, List.all_eq_true] at h
    obtain ⟨⟨⟨hstart, hrepository⟩, hlength⟩, hdigest⟩ := h
    rw [rsplitOnce_eq_some hsplit]
    cases repository with
    | nil => cases hstart
    | cons c repository =>
        have hrest : (repository ++ "@sha256:".toList ++ digest).dropWhile
            (fun c => c.isAlphanum || "._:/-".toList.contains c) =
              "@sha256:".toList ++ digest := by
          rw [List.append_assoc, List.dropWhile_append_of_pos]
          · rfl
          · exact fun d hd => hrepository d (List.mem_cons_of_mem _ hd)
        have hdigits : ("@sha256:".toList ++ digest).drop 8 = digest := rfl
        simp only [List.cons_append, imageFullmatch, hrest, hdigits, Bool.and_eq_true,
          decide_eq_true_eq, List.all_eq_true, List.isPrefixOf_iff_prefix]
        exact ⟨⟨⟨hstart, List.prefix_append _ _⟩, hlength⟩,
          fun d hd => lowerDigit_of_isDigestChar (hdigest d hd)⟩

/-- A CPU limit the API accepts is one for the helper. -/
theorem validCpu_of_validCpuLimit {fold : Char → Char} {value : String}
    (h : validCpuLimit value = true) : validCpu fold (.string value) = true := by
  obtain ⟨x, hx, hwithin⟩ := (Option.any_eq_true _ _).mp h
  simp only [Bool.and_eq_true] at hwithin
  refine (Option.any_eq_true _ _).mpr ⟨x, pythonFloat_eq_parseF64 hx, ?_⟩
  rw [Bool.and_eq_true]
  exact ⟨hwithin.1.2, hwithin.2⟩

/-- It has no blanks, so that it is saved as it is. -/
theorem normalizeOptional_of_validCpuLimit {value : String} (h : validCpuLimit value = true) :
    normalizeOptional (some value) = some value := by
  obtain ⟨x, hx, -⟩ := (Option.any_eq_true _ _).mp h
  have htrim : trim value = value := by
    refine trim_of_forall fun c hc => ?_
    obtain ⟨hascii, hspace, -⟩ := parseF64_plain hx c hc
    simp only [isSpace, Bool.or_eq_false_iff, Bool.and_eq_false_iff, decide_eq_false_iff_not]
      at hspace
    simp only [isWhitespace, Bool.or_eq_false_iff, Bool.and_eq_false_iff, decide_eq_false_iff_not]
    omega
  have hne : value ≠ "" := by
    rintro rfl
    cases hx
  simp [normalizeOptional, htrim, hne]

/-! ## Fields -/

/-- A field that satisfies a check of the API satisfies a weaker one of the
helper. -/
theorem given_all {document : Json} {key : String} {p q : Json → Bool}
    (h : (document.field key).all p = true) (hpq : ∀ v, p v = true → q v = true) :
    (given document key).all q = true := by
  unfold given
  split
  · rfl
  · cases hfield : document.field key with
    | none => rfl
    | some v => exact hpq v (by simpa [hfield] using h)

/-- An optional value that was written satisfies a check if the value does. -/
theorem given_ofOption {α : Type} {document : Json} {key : String} {q : Json → Bool}
    (value : Option α) (f : α → Json)
    (hfield : document.field key = some (.ofOption (value.map f)))
    (h : ∀ a, value = some a → q (f a) = true) : (given document key).all q = true := by
  unfold given
  rw [hfield]
  split
  · rfl
  · cases value with
    | none => rename_i hnull; exact absurd rfl hnull
    | some a => exact h a rfl

theorem intWithin_of_i64Within {low high low' high' : ℤ} {value : Json}
    (h : i64Within low high value = true) (hlow : low' ≤ low) (hhigh : high ≤ high') :
    intWithin low' high' value = true := by
  obtain ⟨n, hn, hwithin⟩ := (Option.any_eq_true _ _).mp h
  simp only [Bool.and_eq_true, decide_eq_true_eq] at hwithin
  refine (Option.any_eq_true _ _).mpr ⟨n, Json.asInt_of_asI64 hn, ?_⟩
  simp only [Bool.and_eq_true, decide_eq_true_eq]
  omega

/-- A command of at most 1000 bytes has at most 1000 characters. -/
theorem validCommand_of_api {value : Json} (h : CtfZone.validCommand value = true) :
    validCommand value = true := by
  cases value with
  | string command =>
      simp only [CtfZone.validCommand, Bool.and_eq_true, decide_eq_true_eq] at h
      simp only [validCommand, Bool.and_eq_true, decide_eq_true_eq]
      refine ⟨h.1.1, le_trans ?_ h.1.2⟩
      rw [utf8ByteSize_eq, ← String.length_toList]
      exact length_le_utf8Length _
  | null | bool | number | array | object => cases h

/-- A healthcheck the API accepts passes the helper. -/
theorem validateHealthcheck_of_api {value : Json} {u : Unit}
    (h : CtfZone.validateHealthcheck value = .ok u) : validateHealthcheck value = .ok ⟨⟩ := by
  unfold CtfZone.validateHealthcheck at h
  split at h
  · rename_i fields
    simp only [bind_eq_ok, ensure_eq_ok, forM_ensure_eq_ok, List.forall_mem_cons] at h
    obtain ⟨_, hknown, _, hcommand, _, ⟨hinterval, htimeout, hretries, -⟩, hstartup⟩ := h
    unfold validateHealthcheck
    split
    · rfl
    · rename_i heq
      obtain rfl := Json.object.inj heq
      have hkey : ∀ key high, ((Json.object fields).field key).all (i64Within 1 high) = true →
          high ≤ 300 → (given (.object fields) key).all (intWithin 1 300) = true :=
        fun key high hall hle =>
          given_all hall fun v hv => intWithin_of_i64Within hv (le_refl 1) hle
      simp only [bind_eq_ok, ensure_eq_ok, forM_ensure_eq_ok, List.forall_mem_cons,
        List.not_mem_nil, false_implies, implies_true, and_true]
      exact ⟨⟨⟩, hknown, ⟨⟩, given_all hcommand fun _ => validCommand_of_api,
        hkey _ _ hinterval (le_refl 300), hkey _ _ htimeout (le_refl 300),
        hkey _ _ hretries (le_refl 300), hkey _ _ hstartup (by decide)⟩
    · rename_i hnot
      exact absurd rfl (hnot fields)
  · cases h

end Helper

/-! ## Saved profiles -/

/-- What is known of a managed profile that has been saved. -/
structure RuntimeConfigInput.Launchable (profile : RuntimeConfigInput) : Prop where
  image : ∃ image, profile.imageDigest = some image ∧ validImageDigest image = true
  protocol : ["tcp", "http", "https"].contains profile.protocol = true
  port : ∃ port, profile.containerPort = some port ∧ 1 ≤ port ∧ port ≤ 65535
  cpu : ∀ value, profile.cpuLimit = some value → validCpuLimit value = true
  memory : ∀ n, profile.memoryLimitBytes = some n → 0 < n
  pids : ∀ n, profile.pidLimit = some n → 0 < n
  storage : ∀ n, profile.storageLimitBytes = some n → 0 < n
  healthcheck : validateHealthcheck profile.healthcheck = .ok ⟨⟩

theorem normalizeOptional_of_validImageDigest {value : String}
    (h : validImageDigest (trim value) = true) :
    normalizeOptional (some value) = some (trim value) := by
  have hne : trim value ≠ "" := by
    intro heq
    rw [heq] at h
    cases h
  simp [normalizeOptional, hne]

/-- A profile that is saved and managed can be launched. -/
theorem launchable_of_saved {request profile : RuntimeConfigInput}
    (h : upsertRuntimeConfig request = .ok profile) (hmanaged : profile.runtimeMode = "managed") :
    profile.Launchable := by
  simp only [upsertRuntimeConfig, validateRuntimeConfig, bind_eq_ok, ensure_eq_ok, pure,
    Except.pure, Except.ok.injEq] at h
  obtain ⟨_, ⟨_, -, _, hprotocol, _, hmode, _, hlimits, _, hcpu, hhealth⟩, rfl⟩ := h
  have hpair : request.imageDigest.any (fun value => validImageDigest (trim value)) = true ∧
      request.containerPort.isSome = true := by
    simpa [show request.runtimeMode = "managed" from hmanaged] using hmode
  simp only [Bool.and_eq_true, Option.all_eq_true, decide_eq_true_eq] at hlimits
  obtain ⟨⟨⟨⟨⟨⟨⟨⟨hport, -⟩, -⟩, -⟩, -⟩, -⟩, hmemory⟩, hpids⟩, hstorage⟩ := hlimits
  obtain ⟨image, himage, hvalid⟩ := (Option.any_eq_true _ _).mp hpair.1
  obtain ⟨port, hport'⟩ := Option.isSome_iff_exists.mp hpair.2
  refine ⟨⟨trim image, ?_, hvalid⟩, hprotocol, ⟨port, hport', hport port hport'⟩, ?_, hmemory,
    hpids, hstorage, hhealth⟩
  · change normalizeOptional request.imageDigest = _
    rw [himage]
    exact normalizeOptional_of_validImageDigest hvalid
  · intro value hvalue
    change normalizeOptional request.cpuLimit = _ at hvalue
    cases hrequest : request.cpuLimit with
    | none =>
        rw [hrequest] at hvalue
        cases hvalue
    | some limit =>
        have hlimit : validCpuLimit limit = true := by simpa [hrequest] using hcpu
        rw [hrequest, Helper.normalizeOptional_of_validCpuLimit hlimit] at hvalue
        obtain rfl := Option.some.inj hvalue
        exact hlimit

/-! ## The checks of the snapshot -/

/-- The helper lets a fitting flag through. -/
theorem Fitting.validFlag {value : String} (h : Fitting value) :
    Helper.validFlag (.string value) = true := by
  simp only [Helper.validFlag, Bool.and_eq_true, decide_eq_true_eq, Bool.not_eq_true']
  exact ⟨⟨h.nonempty, h.noNul⟩, h.size⟩

/-- The startup timeout of a healthcheck the API accepts, 45 seconds if it has
none. -/
theorem startupSeconds_le {healthcheck : Json} {u : Unit}
    (h : validateHealthcheck healthcheck = .ok u) :
    ((healthcheck.field "startup_timeout_seconds").bind Json.asU64).getD 45 ≤ 55 := by
  unfold validateHealthcheck at h
  split at h
  · rename_i fields
    simp only [bind_eq_ok, ensure_eq_ok] at h
    obtain ⟨_, -, _, -, _, -, hstartup⟩ := h
    cases hfield : (Json.object fields).field "startup_timeout_seconds" with
    | none => decide
    | some value =>
        rw [hfield] at hstartup
        obtain ⟨n, hn, hwithin⟩ := (Option.any_eq_true _ _).mp hstartup
        simp only [Bool.and_eq_true, decide_eq_true_eq] at hwithin
        rw [Option.bind_some, Json.asU64_of_asI64 hn (by omega), Option.getD_some]
        omega
  · cases h

/-- The helper accepts the snapshot of a launchable profile with a fitting
flag. -/
theorem validateDeployment_snapshot {fold : Char → Char} {profile : RuntimeConfigInput}
    {flag : Option String} {request : Json} (h : profile.Launchable)
    (hflag : ∀ value, flag = some value → Fitting value)
    (hrequest : request.field "deployment" = some (deploymentSnapshot profile flag)) :
    Helper.validateDeployment fold request = .ok (deploymentSnapshot profile flag) := by
  obtain ⟨image, himage, hvalid⟩ := h.image
  obtain ⟨port, hport, hlow, hhigh⟩ := h.port
  have hlimit : ∀ n : ℤ, 0 < n → Helper.positiveInt (.ofInt n) = true := by
    intro n hn
    simp [Helper.positiveInt, hn]
  simp only [Helper.validateDeployment, hrequest, deploymentSnapshot]
  simp only [bind_eq_ok, ensure_eq_ok, forM_ensure_eq_ok, List.forall_mem_cons,
    List.not_mem_nil, false_implies, implies_true, and_true, pure, Except.pure]
  refine ⟨⟨⟩, ?_, ⟨⟩, ?_, ⟨⟩, ?_, ⟨⟩, h.protocol, ⟨⟩, ⟨?_, ?_, ?_⟩, ⟨⟩, ?_, ⟨⟩,
    Helper.validateHealthcheck_of_api h.healthcheck, ⟨⟩, ?_⟩
  · cases flag <;> rfl
  · rw [himage]
    exact Helper.imageFullmatch_of_validImageDigest hvalid
  · rw [hport]
    change Helper.intWithin 1 65535 (.ofInt port) = true
    simp [Helper.intWithin, hlow, hhigh]
  · exact Helper.given_ofOption profile.memoryLimitBytes .ofInt rfl fun n hn =>
      hlimit n (h.memory n hn)
  · exact Helper.given_ofOption profile.storageLimitBytes .ofInt rfl fun n hn =>
      hlimit n (h.storage n hn)
  · exact Helper.given_ofOption profile.pidLimit .ofInt rfl fun n hn => hlimit n (h.pids n hn)
  · exact Helper.given_ofOption profile.cpuLimit .string rfl fun value hvalue =>
      Helper.validCpu_of_validCpuLimit (h.cpu value hvalue)
  · cases flag with
    | none => rfl
    | some value => exact (hflag value rfl).validFlag

namespace Controller

variable {profile : RuntimeConfigInput} {flag : Option String} {row : InstanceRow}

/-- The controller lets the flag through, which it only sends when an instance
is started. -/
theorem validateFlagValue_snapshot (hflag : ∀ value, flag = some value → Fitting value)
    (hrow : row.deploymentSnapshot = deploymentSnapshot profile flag) (command : CommandRow)
    (operation : RemoteOperation) (reason : String) :
    validateFlagValue operation (remotePayload command row operation reason) = true := by
  by_cases hoperation : operation = .ensureInstance
  · subst hoperation
    unfold validateFlagValue
    rw [remotePayload_deployment, hrow]
    cases flag with
    | none => rfl
    | some value =>
        have h := hflag value rfl
        have hsize : value.utf8ByteSize ≤ maxFlagValueBytes := h.size
        change (decide (value ≠ "") && decide (value.utf8ByteSize ≤ maxFlagValueBytes) &&
          ! value.toList.contains '\x00') = true
        rw [h.noNul, decide_eq_true h.nonempty, decide_eq_true hsize]
        rfl
  · unfold validateFlagValue
    rw [remotePayload_removed command row reason hoperation, Option.bind_some,
      Json.field_removeField]

/-- A startup of at most 55 seconds fits into every operation timeout from 60
seconds on. -/
theorem validateStartupTimeout_snapshot
    (hhealth : CtfZone.validateHealthcheck profile.healthcheck = .ok ⟨⟩)
    (hrow : row.deploymentSnapshot = deploymentSnapshot profile flag) (command : CommandRow)
    (operation : RemoteOperation) (reason : String) {operationTimeout : ℕ}
    (htimeout : 60 ≤ operationTimeout) :
    validateStartupTimeout operation (remotePayload command row operation reason)
      operationTimeout = true := by
  by_cases hoperation : operation = .ensureInstance
  · subst hoperation
    have hhealthcheck : row.deploymentSnapshot.field "healthcheck" = some profile.healthcheck := by
      rw [hrow]
      rfl
    have hstartup := startupSeconds_le hhealth
    simp only [validateStartupTimeout, ne_eq, not_true, if_false, remotePayload_deployment,
      Option.bind_some, hhealthcheck, decide_eq_true_eq]
    exact (min_le_left _ _).trans ((Nat.add_le_add_right hstartup 5).trans htimeout)
  · simp [validateStartupTimeout, hoperation]

end Controller

/-! ## Agreement -/

/-- The deployment snapshot of a launch, of a profile that was saved and a flag
that was assigned, passes the checks of the controller and of the helper. -/
theorem validators_agree (fold : Char → Char) {crates : Crates}
    {request profile : RuntimeConfigInput} {flags : List (SavedFlag crates)}
    {rows rows' : List UserChallengeFlag} {challengeId userId : ℤ} {secretKey : String}
    {draws : Draws} {flag : Option String} {row : Controller.InstanceRow}
    (hsaved : upsertRuntimeConfig request = .ok profile)
    (hassigned : materializeForLaunch crates flags rows challengeId userId secretKey draws =
      .ok (flag, rows'))
    (hlaunched : launchSnapshot profile flag = .ok row.deploymentSnapshot)
    (command : Controller.CommandRow) (reason : String) {operationTimeout : ℕ}
    (htimeout : 60 ≤ operationTimeout) :
    (∀ operation, Controller.validateFlagValue operation
        (Controller.remotePayload command row operation reason) = true ∧
      Controller.validateStartupTimeout operation
        (Controller.remotePayload command row operation reason) operationTimeout = true) ∧
    Helper.validateDeployment fold
        (Controller.remotePayload command row .ensureInstance reason) =
      .ok row.deploymentSnapshot := by
  simp only [launchSnapshot, bind_eq_ok, ensure_eq_ok, pure, Except.pure, Except.ok.injEq,
    Bool.and_eq_true, decide_eq_true_eq] at hlaunched
  obtain ⟨_, ⟨-, hmanaged⟩, hsnapshot⟩ := hlaunched
  have hlaunchable := launchable_of_saved hsaved hmanaged
  have hfitting : ∀ value, flag = some value → Fitting value := by
    rintro value rfl
    exact materializeForLaunch_fitting hassigned
  refine ⟨fun operation => ⟨?_, ?_⟩, ?_⟩
  · exact Controller.validateFlagValue_snapshot hfitting hsnapshot.symm command operation reason
  · exact Controller.validateStartupTimeout_snapshot hlaunchable.healthcheck hsnapshot.symm command
      operation reason htimeout
  · rw [← hsnapshot]
    refine validateDeployment_snapshot hlaunchable hfitting ?_
    rw [Controller.remotePayload_deployment, hsnapshot]

/-! ## A launch -/

/-- A managed profile with a healthcheck and limits. -/
def webProfile : RuntimeConfigInput where
  runtimeMode := "managed"
  enabled := true
  imageDigest := some ("web@sha256:" ++ String.ofList (List.replicate 64 'a'))
  protocol := "http"
  containerPort := some 8080
  defaultTtlSeconds := 1800
  maximumTtlSeconds := 3600
  allowExtension := true
  maximumExtensions := 2
  cpuLimit := some "0.5"
  memoryLimitBytes := some 67108864
  pidLimit := none
  storageLimitBytes := none
  healthcheck := .object [("command", .string "true"), ("startup_timeout_seconds", .ofInt 55)]
  remotePool := none

theorem webProfile_saved : upsertRuntimeConfig webProfile = .ok webProfile := by
  simp only [upsertRuntimeConfig, validateRuntimeConfig, bind_eq_ok, ensure_eq_ok, pure,
    Except.pure]
  refine ⟨⟨⟩, ⟨⟨⟩, rfl, ⟨⟩, rfl, ⟨⟩, by decide +kernel, ⟨⟩, by decide, ⟨⟩, by decide +kernel, ?_⟩, ?_⟩
  · simp only [webProfile, validateHealthcheck, bind_eq_ok, ensure_eq_ok, forM_ensure_eq_ok]
    refine ⟨⟨⟩, by decide, ⟨⟩, by decide, ⟨⟩, by decide, ?_⟩
    simp [Json.field, i64Within, Json.asI64]
  · have himage : normalizeOptional webProfile.imageDigest = webProfile.imageDigest := by
      decide +kernel
    have hcpu : normalizeOptional webProfile.cpuLimit = webProfile.cpuLimit := by decide +kernel
    have hpool : normalizeOptional webProfile.remotePool = webProfile.remotePool := rfl
    rw [himage, hcpu, hpool]

/-- A template of a generated flag. -/
def webTemplate : String := "f\x7b\x7b\x7bRANDOM_TOKEN\x7d\x7d\x7d"

theorem webFlag_normalized : ∃ type text options exposure,
    normalizeDefinition plainCrates type text options exposure =
      .ok ("generated", webTemplate, FlagPolicyData.toValue {}) := by
  refine ⟨"generated", webTemplate, .object [], "private", ?_⟩
  have htype : (trim "generated").toLower = "generated" := by decide +kernel
  have hcontent : trim webTemplate = webTemplate := by decide +kernel
  simp only [normalizeDefinition, bind_eq_ok, ensure_eq_ok, pure, Except.pure, htype, hcontent]
  refine ⟨⟨⟩, by decide +kernel, ⟨⟩, by decide, {}, rfl, ⟨⟩, ?_, rfl⟩
  change checkGenerated _ _ _ = _
  simp only [checkGenerated, bind_eq_ok, ensure_eq_ok]
  exact ⟨⟨⟩, by decide, ⟨⟩, by decide +kernel, ⟨⟩, by decide +kernel, ⟨⟩, by decide +kernel, ⟨⟩,
    by decide +kernel, ⟨⟩, by decide +kernel, by decide +kernel⟩

/-- A generated flag. -/
def webFlag : SavedFlag plainCrates where
  id := 1
  challengeId := 7
  flagType := "generated"
  content := webTemplate
  data := FlagPolicyData.toValue {}
  revision := 1
  normalized := webFlag_normalized

/-- The flag of a launch for which the token zero is drawn. -/
def webFlagValue : String := "f\x7b00000000-0000-0000-0000-000000000000\x7d"

theorem webFlag_assigned :
    materializeForLaunch plainCrates [webFlag] [] 7 3 "key" ⟨0, 0⟩ =
      .ok (some webFlagValue,
        [⟨1, 7, 3, 1, matchTag plainCrates "key" 7 webFlagValue true, some 0, none⟩]) := by
  rfl

/-- The command of the launch. -/
def webCommand : Controller.CommandRow := ⟨2, 1, "start", 1, 1, 1, .object []⟩

/-- The instance of the launch. -/
def webRow : Controller.InstanceRow where
  id := 1
  ownerUserId := 3
  challengeId := 7
  deploymentSnapshot := deploymentSnapshot webProfile (some webFlagValue)
  desiredState := "running"
  desiredExpiresAt := seconds 1800
  maximumExpiresAt := seconds 3600
  expiresAt := seconds 1800
  remoteServerId := none
  remoteContainerId := none
  generation := 1
  active := true

theorem validators_agree_web :
    Controller.validateStartupTimeout .ensureInstance
        (Controller.remotePayload webCommand webRow .ensureInstance "start") 60 = true ∧
      Helper.validateDeployment id
          (Controller.remotePayload webCommand webRow .ensureInstance "start") =
        .ok (deploymentSnapshot webProfile (some webFlagValue)) := by
  have h := validators_agree id webProfile_saved webFlag_assigned
    (show launchSnapshot webProfile (some webFlagValue) = .ok webRow.deploymentSnapshot from rfl)
    webCommand "start" (show 60 ≤ 60 from le_refl 60)
  exact ⟨(h.1 .ensureInstance).2, h.2⟩

end CtfZone
