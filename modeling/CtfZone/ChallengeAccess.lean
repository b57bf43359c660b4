/-
# Who may see a challenge

The gates in front of a challenge and the prerequisites that lock it
(`challenges.rs`).  The prerequisites are parsed twice: `validate_requirements` accepts
every integer of 64 bits, `requirements_met` looks at the ids of 32 bits only.

* `challengeAccessContext` : what a viewer gets to see of a challenge;
* `createRequirements`, `updateRequirements` : the documents that are stored;
* `Ignored` : enforcement is the same without an id;
* `enforced_iff` : the documents that are enforced as they are stored.
-/
import CtfZone.SubmissionHistory
import CtfZone.ContestSystem

namespace CtfZone.Challenges

open Journal Submissions Contests

variable {crates : Crates}

/-! ## The gates -/

/-- The identity of a request, `CurrentUser`. -/
structure Viewer where
  id : ℤ
  isAdmin : Bool
  verified : Bool
  teamId : Option ℤ

/-- The configuration that the gates read. -/
structure AccessConfig where
  challengeVisibility : Option String
  schedule : Schedule
  verifyEmails : Bool

/-- `CurrentUser::is_admin` of an optional user. -/
def viewerIsAdmin (user : Option Viewer) : Bool := user.any Viewer.isAdmin

/-- `require_challenge_visibility_on`. -/
def requireChallengeVisibility (config : AccessConfig) (user : Option Viewer) :
    Except String Unit :=
  match config.challengeVisibility.getD "private" with
  | "public" => .ok ⟨⟩
  | "private" => ensure user.isSome "Challenges are not available"
  | "admins" => ensure (viewerIsAdmin user) "Challenges are not available"
  | _ => .error "Challenges are not available"

/-- `require_ctf_time_on`. -/
def requireCtfTime (config : AccessConfig) (now : Time) (user : Option Viewer) :
    Except String Unit :=
  if viewerIsAdmin user then .ok ⟨⟩
  else
    match config.schedule.access now with
    | .allowed => .ok ⟨⟩
    | .notStarted => .error "CTFZone has not started yet"
    | .ended => .error "CTFZone has ended"

/-- `verification_missing`. -/
def verificationMissing (verificationEnabled : Bool) (user : Option Viewer) : Bool :=
  verificationEnabled && user.any fun current => ! current.isAdmin && ! current.verified

/-- `require_verified_on`. -/
def requireVerified (config : AccessConfig) (user : Option Viewer) : Except String Unit :=
  ensure (! verificationMissing config.verifyEmails user)
    "Verify your email before viewing challenges"

/-- `team_membership_missing`. -/
def teamMembershipMissing (teamMode : Bool) (user : Option (Bool × Option ℤ)) : Bool :=
  teamMode && user.any fun (admin, teamId) => ! admin && teamId.isNone

/-! ## The challenge -/

/-- `ChallengeRowAccess`. -/
inductive ChallengeRowAccess
  | full
  | hiddenPreview (preview : Bool)
  | notFound
  | prerequisitesDenied
  deriving DecidableEq

/-- `as_str`. -/
def asStr : Json → Option String
  | .string s => some s
  | _ => none

/-- The field `anonymize` of the requirements. -/
def anonymize (requirements : Option Json) : Option Json := requirements.bind (·.field "anonymize")

/-- `challenge_row_access`. -/
def challengeRowAccess (challenge : ChallengeRow) (admin : Bool) (solved : List ℤ) :
    ChallengeRowAccess :=
  if admin then .full
  else if challenge.state ≠ "visible" then .notFound
  else if requirementsMet challenge.requirements solved then .full
  else
    match anonymize challenge.requirements with
    | some value => .hiddenPreview (asStr value = some "preview")
    | none => .prerequisitesDenied

/-- The account whose solves count for a viewer. -/
def viewerAccount (teamMode : Bool) (userId teamId : Option ℤ) : Option Account :=
  if teamMode then teamId.map .team else userId.map .user

/-- `solved_challenge_ids_for_identity_on`. -/
def solvedChallengeIds (portal : Portal crates) (userId teamId : Option ℤ) : List ℤ :=
  (viewerAccount portal.teamMode userId teamId).elim [] (solvedIds portal)

/-- `ChallengeAccessContext`. -/
structure ChallengeAccessContext where
  challenge : ChallengeRow
  solved : List ℤ
  prerequisitePreview : Option Bool

/-- The team of a user, as it is read in team mode. -/
def currentTeamId (portal : Portal crates) (user : Option Viewer) : Option ℤ :=
  if portal.teamMode then
    user.bind fun current => (portal.users.find? (·.id = current.id)).bind UserRow.teamId
  else none

/-- `challenge_access_context_on`. -/
def challengeAccessContext (config : AccessConfig) (portal : Portal crates) (now : Time)
    (user : Option Viewer) (challengeId : ℤ) : Except String ChallengeAccessContext := do
  requireChallengeVisibility config user
  requireCtfTime config now user
  requireVerified config user
  let teamId := currentTeamId portal user
  ensure (! teamMembershipMissing portal.teamMode (user.map fun current =>
    (current.isAdmin, teamId))) "Join a team before viewing challenges"
  let challenge ← required (portal.challenges.find? (·.id = challengeId)) "Challenge not found"
  let solved := solvedChallengeIds portal (user.map Viewer.id) teamId
  match challengeRowAccess challenge (viewerIsAdmin user) solved with
  | .full => pure ⟨challenge, solved, none⟩
  | .hiddenPreview preview => pure ⟨challenge, solved, some preview⟩
  | .notFound => .error "Challenge not found"
  | .prerequisitesDenied => .error "Challenge prerequisites are not satisfied"

/-- `require_full_challenge_access`, with what it has read. -/
def requireFullChallengeAccess (config : AccessConfig) (portal : Portal crates) (now : Time)
    (user : Option Viewer) (challengeId : ℤ) : Except String ChallengeAccessContext := do
  let access ← challengeAccessContext config portal now user challengeId
  ensure access.prerequisitePreview.isNone "Challenge prerequisites are not satisfied"
  pure access

/-! ## The stored document -/

/-- The requirements that `create` stores. -/
def createRequirements (object : Json) : Except String (Option Json) := do
  let requirements := object.field "requirements"
  validateRequirements requirements
  pure requirements

/-- A value that is not `null`. -/
def nonNull : Json → Option Json
  | .null => none
  | value => some value

/-- The requirements that `update` stores. -/
def updateRequirements (current : Option Json) (object : Json) : Except String (Option Json) := do
  let requirements :=
    match object.field "requirements" with
    | some value => nonNull value
    | none => current
  validateRequirements requirements
  pure requirements

/-- A document that `create` or `update` stores. -/
def Accepted (requirements : Option Json) : Prop :=
  (∃ object, createRequirements object = .ok requirements) ∨
    ∃ current object, updateRequirements current object = .ok requirements

/-- What is stored has been validated. -/
theorem Accepted.valid {requirements : Option Json} (h : Accepted requirements) :
    validateRequirements requirements = .ok ⟨⟩ := by
  rcases h with ⟨object, h⟩ | ⟨current, object, h⟩
  · obtain ⟨⟨⟩, hvalid, h⟩ := bind_eq_ok.mp h
    rwa [Except.ok.inj h] at hvalid
  · obtain ⟨⟨⟩, hvalid, h⟩ := bind_eq_ok.mp h
    rwa [Except.ok.inj h] at hvalid

/-! ## Prerequisites -/

/-- The entries of `prerequisites`. -/
def prerequisites (requirements : Option Json) : List Json :=
  match requirements.bind (·.field "prerequisites") with
  | some (.array values) => values
  | _ => []

/-- The ids that a document lists. -/
def prerequisiteIds (requirements : Option Json) : List ℤ :=
  (prerequisites requirements).filterMap Json.asInt

/-- The values of an array other than an id. -/
def dropId (id : ℤ) : Json → Json
  | .array values => .array (values.filter (·.asInt ≠ some id))
  | value => value

/-- The document without an id. -/
def without (requirements : Option Json) (id : ℤ) : Option Json :=
  requirements.map (Json.alter "prerequisites" (dropId id))

/-- Enforcement is the same without the id, whatever has been solved. -/
def Ignored (requirements : Option Json) (id : ℤ) : Prop :=
  ∀ solved, requirementsMet (without requirements id) solved = requirementsMet requirements solved

/-- An id of the type of the column `challenges.id`. -/
def Int32 (id : ℤ) : Prop := -2 ^ 31 ≤ id ∧ id < 2 ^ 31

instance (id : ℤ) : Decidable (Int32 id) := inferInstanceAs (Decidable (_ ∧ _))

/-- The field of an altered object. -/
theorem field_alter (name : String) (f : Json → Json) (value : Json) :
    (Json.alter name f value).field name = (value.field name).map f := by
  cases value with
  | null | bool | number | string | array => rfl
  | object fields =>
      induction fields with
      | nil => rfl
      | cons p fields ih =>
          by_cases h : p.1 = name
          · simp [Json.alter, Json.field, h]
          · simpa [Json.alter, Json.field, h] using ih

/-- The entries without an id. -/
theorem prerequisites_without (requirements : Option Json) (id : ℤ) :
    prerequisites (without requirements id) =
      (prerequisites requirements).filter (·.asInt ≠ some id) := by
  unfold prerequisites without
  cases requirements with
  | none => rfl
  | some document =>
      rw [Option.map_some, Option.bind_some, Option.bind_some, field_alter]
      cases document.field "prerequisites" with
      | none => rfl
      | some value => cases value <;> rfl

/-- The requirements are met when every id that is looked at has been solved. -/
theorem requirementsMet_iff {requirements : Option Json} {solved : List ℤ} :
    requirementsMet requirements solved = true ↔
      ∀ value ∈ prerequisites requirements, ∀ id, prerequisiteId value = some id → id ∈ solved := by
  have hmet : requirementsMet requirements solved =
      ((prerequisites requirements).filterMap prerequisiteId).all (solved.contains ·) := by
    unfold requirementsMet prerequisites
    cases requirements.bind (·.field "prerequisites") with
    | none => rfl
    | some value => cases value <;> rfl
  rw [hmet, List.all_eq_true]
  simp only [List.mem_filterMap, List.contains_iff_mem, forall_exists_index, and_imp]
  exact ⟨fun h value hvalue id hid => h id value hvalue hid,
    fun h id value hvalue hid => h value hvalue id hid⟩

/-- What is looked at is an integer of 32 bits. -/
theorem prerequisiteId_eq_some {value : Json} {id : ℤ} :
    prerequisiteId value = some id ↔ value.asInt = some id ∧ Int32 id := by
  rw [prerequisiteId, Option.filter_eq_some_iff, decide_eq_true_eq]
  constructor
  · rintro ⟨h, hid⟩
    exact ⟨Json.asInt_of_asI64 h, hid⟩
  · rintro ⟨h, hid⟩
    refine ⟨Option.filter_eq_some_iff.mpr ⟨h, ?_⟩, hid⟩
    have hlow := hid.1
    have hhigh := hid.2
    rw [decide_eq_true_eq]
    omega

theorem mem_prerequisiteIds {requirements : Option Json} {id : ℤ} :
    id ∈ prerequisiteIds requirements ↔
      ∃ value ∈ prerequisites requirements, value.asInt = some id :=
  List.mem_filterMap

/-- **The requirements are met when the ids of 32 bits have been solved.** -/
theorem requirementsMet_iff_forall_mem {requirements : Option Json} {solved : List ℤ} :
    requirementsMet requirements solved = true ↔
      ∀ id ∈ prerequisiteIds requirements, Int32 id → id ∈ solved := by
  rw [requirementsMet_iff]
  constructor
  · intro h id hid hint
    obtain ⟨value, hvalue, hvalueId⟩ := mem_prerequisiteIds.mp hid
    exact h value hvalue id (prerequisiteId_eq_some.mpr ⟨hvalueId, hint⟩)
  · intro h value hvalue id hid
    obtain ⟨hvalueId, hint⟩ := prerequisiteId_eq_some.mp hid
    exact h id (mem_prerequisiteIds.mpr ⟨value, hvalue, hvalueId⟩) hint

theorem mem_prerequisiteIds_without {requirements : Option Json} {id other : ℤ} :
    other ∈ prerequisiteIds (without requirements id) ↔
      other ∈ prerequisiteIds requirements ∧ other ≠ id := by
  simp only [mem_prerequisiteIds, prerequisites_without, List.mem_filter, decide_eq_true_eq]
  constructor
  · rintro ⟨value, ⟨hvalue, hne⟩, hother⟩
    refine ⟨⟨value, hvalue, hother⟩, ?_⟩
    rintro rfl
    exact hne hother
  · rintro ⟨⟨value, hvalue, hother⟩, hne⟩
    refine ⟨value, ⟨hvalue, ?_⟩, hother⟩
    rw [hother]
    exact fun h => hne (Option.some.inj h)

/-- **The ids of a document that are ignored are those that do not fit 32 bits.** -/
theorem ignored_iff {requirements : Option Json} {id : ℤ} (h : id ∈ prerequisiteIds requirements) :
    Ignored requirements id ↔ ¬ Int32 id := by
  constructor
  · intro hignored hint
    -- an account that has solved everything else
    have hsame := hignored (prerequisiteIds (without requirements id))
    have hmet : requirementsMet (without requirements id)
        (prerequisiteIds (without requirements id)) = true :=
      requirementsMet_iff_forall_mem.mpr fun other hother _ => hother
    have hmem := requirementsMet_iff_forall_mem.mp (hsame.symm.trans hmet) id h hint
    exact (mem_prerequisiteIds_without.mp hmem).2 rfl
  · intro hint solved
    rw [Bool.eq_iff_iff, requirementsMet_iff_forall_mem, requirementsMet_iff_forall_mem]
    constructor
    · intro hmet other hother hfits
      refine hmet other (mem_prerequisiteIds_without.mpr ⟨hother, ?_⟩) hfits
      rintro rfl
      exact hint hfits
    · intro hmet other hother hfits
      exact hmet other (mem_prerequisiteIds_without.mp hother).1 hfits

/-! ## Enforcement -/

/-- Who is not an administrator sees the whole of a visible challenge whose requirements
are met. -/
theorem challengeRowAccess_eq_full {challenge : ChallengeRow} {solved : List ℤ} :
    challengeRowAccess challenge false solved = .full ↔
      challenge.state = "visible" ∧ requirementsMet challenge.requirements solved = true := by
  unfold challengeRowAccess
  rw [if_neg Bool.false_ne_true]
  by_cases hstate : challenge.state = "visible"
  · rw [if_neg (not_not.mpr hstate)]
    by_cases hmet : requirementsMet challenge.requirements solved = true
    · rw [if_pos hmet]
      exact ⟨fun _ => ⟨hstate, hmet⟩, fun _ => rfl⟩
    · rw [if_neg hmet]
      refine ⟨fun h => ?_, fun h => absurd h.2 hmet⟩
      split at h <;> cases h
  · rw [if_pos hstate]
    exact ⟨nofun, fun h => absurd h.1 hstate⟩

/-- Who sees the whole challenge is an administrator or has met its requirements. -/
theorem challengeAccessContext_full {config : AccessConfig} {portal : Portal crates} {now : Time}
    {user : Option Viewer} {challengeId : ℤ} {context : ChallengeAccessContext}
    (h : requireFullChallengeAccess config portal now user challengeId = .ok context)
    (hadmin : viewerIsAdmin user = false) :
    context.challenge ∈ portal.challenges ∧
      requirementsMet context.challenge.requirements context.solved = true := by
  obtain ⟨context', hcontext, hpure⟩ := bind_eq_ok.mp h
  obtain ⟨⟨⟩, hpreview, hpure⟩ := bind_eq_ok.mp hpure
  obtain rfl : context' = context := Except.ok.inj hpure
  clear h
  rw [ensure_eq_ok] at hpreview
  obtain ⟨⟨⟩, -, h⟩ := bind_eq_ok.mp hcontext
  obtain ⟨⟨⟩, -, h⟩ := bind_eq_ok.mp h
  obtain ⟨⟨⟩, -, h⟩ := bind_eq_ok.mp h
  obtain ⟨⟨⟩, -, h⟩ := bind_eq_ok.mp h
  obtain ⟨challenge, hfind, h⟩ := bind_eq_ok.mp h
  have hmem := List.mem_of_find?_eq_some (required_eq_ok.mp hfind)
  dsimp only at h
  rw [hadmin] at h
  split at h
  · rename_i haccess
    cases h
    exact ⟨hmem, (challengeRowAccess_eq_full.mp haccess).2⟩
  · cases h
    cases hpreview
  · cases h
  · cases h

/-- The account an attempt is made for. -/
def attemptAccount (request : AttemptRequest) (teamId : Option ℤ) : Account :=
  teamId.elim (.user request.userId) .team

/-- An attempt that is handled has met the requirements. -/
theorem attempt_met {portal : Portal crates} {request : AttemptRequest}
    {answer : AttemptResponse × Portal crates × Option Judgement}
    (h : attempt portal request = .ok answer) (hadmin : request.isAdmin = false)
    (hpaused : answer.1.status ≠ "paused") :
    ∃ challenge teamId, portal.challenges.find? (·.id = request.challengeId) = some challenge ∧
      submissionTeamId portal request.userId = .ok teamId ∧
      requirementsMet challenge.requirements
        (solvedIds portal (attemptAccount request teamId)) = true := by
  have hpreview : request.isPreview = false := by
    rw [AttemptRequest.isPreview, hadmin]
    rfl
  unfold attempt at h
  split at h
  · cases h
    exact absurd rfl hpaused
  · obtain ⟨opened, h, -⟩ := bind_eq_ok.mp h
    obtain ⟨⟨⟩, -, h⟩ := bind_eq_ok.mp h
    obtain ⟨teamId, hteam, h⟩ := bind_eq_ok.mp h
    obtain ⟨challenge, hfind, h⟩ := bind_eq_ok.mp h
    obtain ⟨⟨⟩, -, h⟩ := bind_eq_ok.mp h
    obtain ⟨⟨⟩, -, h⟩ := bind_eq_ok.mp h
    obtain ⟨⟨⟩, -, h⟩ := bind_eq_ok.mp h
    obtain ⟨⟨⟩, hmet, -⟩ := bind_eq_ok.mp h
    rw [ensure_eq_ok, hpreview, Bool.false_or] at hmet
    exact ⟨challenge, teamId, required_eq_ok.mp hfind, hteam, hmet⟩

/-- A document is enforced as it is stored: who is not an administrator sees a challenge
with it, or submits to one, only with every id of it solved, unless no challenge has the
id; and no id is ignored. -/
structure Enforced (requirements : Option Json) : Prop where
  view : ∀ {crates : Crates} (config : AccessConfig) (portal : Portal crates) (now : Time)
    (user : Option Viewer) (challengeId : ℤ) (context : ChallengeAccessContext),
    requireFullChallengeAccess config portal now user challengeId = .ok context →
    viewerIsAdmin user = false → context.challenge.requirements = requirements →
    ∀ id ∈ prerequisiteIds requirements,
      id ∈ context.solved ∨ ∀ other ∈ portal.challenges, other.id ≠ id
  submit : ∀ {crates : Crates} (portal : Portal crates) (request : AttemptRequest)
    (answer : AttemptResponse × Portal crates × Option Judgement) (challenge : ChallengeRow)
    (teamId : Option ℤ), attempt portal request = .ok answer → request.isAdmin = false →
    answer.1.status ≠ "paused" →
    portal.challenges.find? (·.id = request.challengeId) = some challenge →
    challenge.requirements = requirements →
    submissionTeamId portal request.userId = .ok teamId →
    ∀ id ∈ prerequisiteIds requirements,
      id ∈ solvedIds portal (attemptAccount request teamId) ∨
        ∀ other ∈ portal.challenges, other.id ≠ id
  heeded : ∀ id ∈ prerequisiteIds requirements, ¬ Ignored requirements id

/-- **A stored document is enforced if and only if its ids fit 32 bits.** -/
theorem enforced_iff {requirements : Option Json} (_ : Accepted requirements) :
    Enforced requirements ↔ ∀ id ∈ prerequisiteIds requirements, Int32 id := by
  constructor
  · intro h id hid
    by_contra hint
    exact h.heeded id hid ((ignored_iff hid).mpr hint)
  · intro h
    refine ⟨?_, ?_, ?_⟩
    · intro crates config portal now user challengeId context haccess hadmin hreq id hid
      obtain ⟨-, hmet⟩ := challengeAccessContext_full haccess hadmin
      rw [hreq] at hmet
      exact .inl (requirementsMet_iff_forall_mem.mp hmet id hid (h id hid))
    · intro crates portal request answer challenge teamId hattempt hadmin hpaused hfind hreq hteam
        id hid
      obtain ⟨challenge', teamId', hfind', hteam', hmet⟩ := attempt_met hattempt hadmin hpaused
      obtain rfl : challenge' = challenge := Option.some.inj (hfind'.symm.trans hfind)
      obtain rfl : teamId' = teamId := Except.ok.inj (hteam'.symm.trans hteam)
      rw [hreq] at hmet
      exact .inl (requirementsMet_iff_forall_mem.mp hmet id hid (h id hid))
    · intro id hid hignored
      exact (ignored_iff hid).mp hignored (h id hid)

/-- The requirements with one id. -/
def listing (id : ℤ) : Json := .object [("prerequisites", .array [.ofInt id])]

theorem prerequisiteIds_listing (id : ℤ) : prerequisiteIds (some (listing id)) = [id] := by
  have hentries : prerequisites (some (listing id)) = [.ofInt id] := rfl
  rw [prerequisiteIds, hentries, List.filterMap_cons, Json.asInt_ofInt]
  rfl

/-- The body of `create` with these requirements is accepted when the id has 64 bits. -/
theorem createRequirements_listing {id : ℤ} (h : -2 ^ 63 ≤ id ∧ id < 2 ^ 63) :
    createRequirements (.object [("requirements", listing id)]) = .ok (some (listing id)) := by
  have hvalue : (Json.ofInt id).asI64 = some id :=
    Option.filter_eq_some_iff.mpr ⟨Json.asInt_ofInt id, by rw [decide_eq_true_eq]; exact h⟩
  have hvalid : validateRequirements (some (listing id)) = .ok ⟨⟩ := by
    show ensure ([Json.ofInt id].all (·.asI64.isSome)) _ = _
    rw [ensure_eq_ok, List.all_cons, hvalue]
    rfl
  exact bind_eq_ok.mpr ⟨⟨⟩, hvalid, rfl⟩

theorem enforced_listing_five : Enforced (some (listing 5)) := by
  refine (enforced_iff (.inl ⟨_, createRequirements_listing (by decide)⟩)).mpr ?_
  rw [prerequisiteIds_listing]
  intro id hid
  rw [List.mem_singleton.mp hid]
  decide

/-- A prerequisite that is accepted, met by who has solved nothing, and ignored. -/
theorem large_prerequisite_ignored :
    createRequirements (.object [("requirements", listing 2147483648)]) =
        .ok (some (listing 2147483648)) ∧
      requirementsMet (some (listing 2147483648)) [] = true ∧
      ¬ Enforced (some (listing 2147483648)) := by
  have hid : (2147483648 : ℤ) ∈ prerequisiteIds (some (listing 2147483648)) := by
    rw [prerequisiteIds_listing]
    exact List.mem_singleton_self _
  refine ⟨createRequirements_listing (by decide), ?_,
    fun h => h.heeded _ hid ((ignored_iff hid).mpr (by decide))⟩
  rw [requirementsMet_iff_forall_mem, prerequisiteIds_listing]
  intro id hid hint
  rw [List.mem_singleton.mp hid] at hint
  exact absurd hint (by decide)

end CtfZone.Challenges
