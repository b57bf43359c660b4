/-
# Passwords that log in

Four requests write the password of an account: the setup and the registration
(`browser_auth.rs`), and the creation and the update of an account (`user_accounts.rs`).  Each
of them bounds a password in its own way, and so does the login that reads it.  The
registration strips the password of white space and counts its characters, the setup and the
login count bytes, and the other two do not bound it at all.

The requests are those of `AccountTransactions`, here with the column of the passwords and one
after the other; a request that is refused for anything else it carries ends like one that is
given up.

* `Store` : the accounts with their passwords;
* `Request.commit` : what the requests write;
* `login`, `confirm` : what reads it;
* `passwords_round_trip` : which passwords log in.
-/
import CtfZone.Passwords
import CtfZone.LoginAccess

namespace CtfZone.Passwords

open Accounts Runs
open Submissions (required)

/-! ## Tables -/

/-- The accounts with the column `password`, the setting `password_min_length` and the sequence
of the ids. -/
structure Store where
  accounts : AccountTables
  passwords : ℤ → Option String
  minimumPasswordLength : ℕ
  nextUserId : ℤ

variable (c : Crypto) (lower : String → String)

/-- `INSERT INTO ctfzone.users`. -/
def Store.insert (s : Store) (row : ℤ → UserRow) (encoded : String) : Store :=
  { s with
    accounts := { s.accounts with users := s.accounts.users ++ [row s.nextUserId] }
    passwords := Function.update s.passwords s.nextUserId (some encoded)
    nextUserId := s.nextUserId + 1 }

/-- `reject_duplicate_identity`, which the unique indexes agree with. -/
def rejectDuplicateIdentity (t : AccountTables) (userId : Option ℤ) (name email : String) :
    Except String Unit := do
  ensure (! t.users.any fun u => u.name = name && userId.all (u.id ≠ ·))
    "User name has already been taken"
  ensure (! t.users.any fun u => lower u.email = lower email && userId.all (u.id ≠ ·))
    "Email address has already been used"

/-! ## Requests -/

/-- `setup`. -/
def setup (n : ℕ) (name email password : String) (s : Store) : Except String Store := do
  let name := trim name
  let email := toAsciiLowercase (trim email)
  ensure (name ≠ "" && name.utf8ByteSize ≤ 128 && ! validEmail name && validEmail email &&
    password ≠ "" && password.utf8ByteSize ≤ 128)
    "A valid name, email address, and password are required"
  ensure (! s.accounts.isComplete) "CTFZone setup has already been completed"
  ensure (! identityTaken lower name email s.accounts)
    "The setup administrator name or email is already in use"
  let encoded ← hashPassword c n password
  let s := s.insert (fun id =>
    { id, name, email, userType := .admin, hidden := true, banned := false
      changePassword := false, teamId := none }) encoded
  pure { s with
    accounts := { s.accounts with settings := setupSettings, setupMarker := true }
    minimumPasswordLength := 0 }

/-- `register`. -/
def register (n : ℕ) (name email password : String) (s : Store) : Except String Store := do
  ensure s.accounts.isComplete "Complete CTFZone setup before registering users"
  let name := trim name
  let email := toAsciiLowercase (trim email)
  let password := trim password
  ensure (name ≠ "" && name.utf8ByteSize ≤ 128 && ! validEmail name && validEmail email &&
    password ≠ "" && password.length ≤ 128) "invalid_input"
  ensure (s.minimumPasswordLength ≤ password.length) "password_too_short"
  ensure (! identityTaken lower name email s.accounts) "identity_taken"
  let encoded ← hashPassword c n password
  ensure (s.accounts.settings.emailAllowlist || s.accounts.settings.participantLimit ≤ 0 ||
    (s.accounts.activeUsers : ℤ) < s.accounts.settings.participantLimit) "user_limit_reached"
  pure (s.insert (fun id =>
    { id, name, email, userType := .user, hidden := false, banned := false
      changePassword := false, teamId := none }) encoded)

/-- `create`. -/
def createUser (n : ℕ) (admin : Accounts.CurrentUser) (request : CreateUser) (password : String)
    (s : Store) : Except String Store := do
  ensure (admin.userType = .admin) "Administrator access is required"
  let name ← validateName request.name
  let email ← validateEmail request.email
  ensure (password ≠ "") "Password must not be empty"
  ensure (s.accounts.credentialValid admin) "This credential has expired or been revoked"
  let encoded ← hashPassword c n password
  rejectDuplicateIdentity lower s.accounts none name email
  pure (s.insert (fun id =>
    { id, name, email, userType := request.userType, hidden := request.hidden
      banned := request.banned, changePassword := request.changePassword, teamId := none }) encoded)

/-- The current password of an account is confirmed. -/
def confirm (s : Store) (userId : ℤ) (typed : String) : Bool :=
  verifyPassword c typed ((s.passwords userId).getD "")

/-- What a participant has to confirm, and how long a new password has to be; an administrator
is not bound by it. -/
def checkOwnPassword (s : Store) (admin : Bool) (previous : UserRow)
    (email password typed : Option String) : Except String Unit :=
  if admin then pure ()
  else do
    if email ≠ some previous.email ∨ password.isSome = true then do
      let typed ← required typed "Please confirm your current password"
      ensure (confirm c s previous.id typed) "Your previous password is incorrect"
    ensure (password.all fun password => s.minimumPasswordLength ≤ password.length)
      ("Password must be at least " ++ toString s.minimumPasswordLength ++ " characters")

/-- The hash of a new password. -/
def hashField (n : ℕ) : Option String → Except String (Option String)
  | some password => (hashPassword c n password).map some
  | none => .ok none

/-- `update`. -/
def updateUser (n : ℕ) (actor : Accounts.CurrentUser) (userId : ℤ) (request : PatchUser)
    (password typed : Option String) (admin : Bool) (s : Store) : Except String Store := do
  let name ← checkField validateName request.name
  let email ← checkField validateEmail request.email
  ensure (s.accounts.credentialValid actor) "This credential has expired or been revoked"
  let previous ← required (s.accounts.user userId) "User not found"
  let teamId := if request.userType.getD previous.userType ≠ .user && previous.teamId.isSome
    then some none else request.teamId
  checkOwnPassword c s admin previous email password typed
  let encoded ← hashField c n password
  rejectDuplicateIdentity lower s.accounts (some userId) (name.getD previous.name)
    (email.getD previous.email)
  pure { s with
    accounts := { s.accounts with
      users := Tables.update (·.id = userId) (request.apply name email teamId) s.accounts.users }
    passwords := encoded.elim s.passwords fun encoded =>
      Function.update s.passwords userId (some encoded) }

/-- `update_admin`. -/
def updateAdmin (n : ℕ) (admin : Accounts.CurrentUser) (userId : ℤ) (request : PatchUser)
    (password : Option String) (s : Store) : Except String Store := do
  ensure (admin.userType = .admin) "Administrator access is required"
  ensure (! (admin.id = userId && request.banned = some true)) "You cannot ban yourself"
  updateUser c lower n admin userId request password none true s

/-- `update_self`. -/
def updateSelf (n : ℕ) (user : Accounts.CurrentUser) (request : PatchUser)
    (password typed : Option String) (s : Store) : Except String Store :=
  updateUser c lower n user user.id
    { request with
      userType := none, hidden := none, banned := none, changePassword := none, teamId := none }
    password typed false s

/-- The requests that write passwords. -/
inductive Request
  | setup (name email password : String)
  | register (name email password : String)
  | createUser (admin : Accounts.CurrentUser) (request : CreateUser) (password : String)
  | updateAdmin (admin : Accounts.CurrentUser) (userId : ℤ) (request : PatchUser)
    (password : Option String)
  | updateSelf (user : Accounts.CurrentUser) (request : PatchUser) (password typed : Option String)

namespace Request

/-- What a request commits; `n` is the random number of the salt. -/
def commit (n : ℕ) : Request → Store → Except String Store
  | .setup name email password => Passwords.setup c lower n name email password
  | .register name email password => Passwords.register c lower n name email password
  | .createUser admin request password => Passwords.createUser c lower n admin request password
  | .updateAdmin admin userId request password =>
    Passwords.updateAdmin c lower n admin userId request password
  | .updateSelf user request password typed =>
    Passwords.updateSelf c lower n user request password typed

/-- The account whose password a request writes, and the password it is sent. -/
def writes (s : Store) : Request → Option (ℤ × String)
  | .setup _ _ password => some (s.nextUserId, password)
  | .register _ _ password => some (s.nextUserId, password)
  | .createUser _ _ password => some (s.nextUserId, password)
  | .updateAdmin _ userId _ password => password.map (userId, ·)
  | .updateSelf user _ password _ => password.map (user.id, ·)

/-- The password that is hashed. -/
def stored (password : String) : Request → String
  | .register _ _ _ => trim password
  | _ => password

end Request

/-! ## Logging in -/

/-- `login`. -/
def login (s : Store) (identity typed : String) : Except String UserRow := do
  ensure (trim identity ≠ "" && typed.utf8ByteSize ≤ 128) "invalid_credentials"
  let user ← Accounts.login lower s.accounts identity
  let encoded ← required (s.passwords user.id) "external_account"
  ensure (verifyPassword c typed encoded) "invalid_credentials"
  pure user

/-! ## Runs -/

/-- A request, or what other requests do: they write no password. -/
inductive Label
  | request (n : ℕ) (request : Request)
  | others (accounts : AccountTables) (minimumPasswordLength : ℕ)

/-- One step. -/
def step : Label → Store → Option Store
  | .request n request, s => (request.commit c lower n s).toOption
  | .others accounts minimumPasswordLength, s => some { s with accounts, minimumPasswordLength }

/-- Other requests keep to the unique indexes, and create no accounts. -/
def Lawful (s : Store) : Label → Prop
  | .request _ _ => True
  | .others accounts _ => Identities lower accounts.users ∧
    ∀ u ∈ accounts.users, ∃ v ∈ s.accounts.users, v.id = u.id

/-- The password of an account is not written. -/
def Untouched (userId : ℤ) (s : Store) (l : Label) : Prop :=
  Lawful lower s l ∧ ∀ n request, l = .request n request →
    ∀ password, request.writes s ≠ some (userId, password)

/-- There are no accounts. -/
structure Initial (s : Store) : Prop where
  users : s.accounts.users = []

/-- The invariant of the accounts. -/
structure Valid (s : Store) : Prop where
  identities : Identities lower s.accounts.users
  fresh : ∀ u ∈ s.accounts.users, u.id < s.nextUserId

/-- An account can be used. -/
structure Enabled (t : AccountTables) (user : UserRow) : Prop where
  banned : user.banned = false
  team : t.teamBanned user = false
  changePassword : user.changePassword = false

/-! ## What requests commit -/

/-- What a request does to the accounts and to the passwords. -/
structure Commits (n : ℕ) (request : Request) (s s' : Store) : Prop where
  valid : Valid lower s → Valid lower s'
  written : ∀ userId password, request.writes s = some (userId, password) →
    ∃ encoded, hashPassword c n (request.stored password) = .ok encoded ∧
      s'.passwords userId = some encoded
  kept : ∀ userId, (∀ password, request.writes s ≠ some (userId, password)) →
    s'.passwords userId = s.passwords userId

variable {c} {lower}

/-- An account is inserted under the next id. -/
theorem Valid.insert {s : Store} (h : Valid lower s) {row : ℤ → UserRow}
    (hid : ∀ id, (row id).id = id)
    (hname : ∀ u ∈ s.accounts.users, u.name ≠ (row s.nextUserId).name)
    (hemail : ∀ u ∈ s.accounts.users, lower u.email ≠ lower (row s.nextUserId).email)
    (hnameText : trim (row s.nextUserId).name = (row s.nextUserId).name ∧
      (row s.nextUserId).name ≠ "")
    (hemailText : trim (row s.nextUserId).email = (row s.nextUserId).email ∧
      (row s.nextUserId).email ≠ "") (encoded : String) :
    Valid lower (s.insert row encoded) := by
  constructor
  · apply h.identities.append _ hname hemail hnameText hemailText
    intro u hu
    rw [hid]
    exact ne_of_lt (h.fresh u hu)
  · show ∀ u ∈ s.accounts.users ++ [row s.nextUserId], u.id < s.nextUserId + 1
    apply Tables.forall_insert
    · intro u hu
      have := h.fresh u hu
      omega
    · rw [hid]
      omega

theorem not_taken {name email : String} {t : AccountTables}
    (h : (! identityTaken lower name email t) = true) :
    (∀ u ∈ t.users, u.name ≠ name) ∧ ∀ u ∈ t.users, lower u.email ≠ lower email := by
  rw [Bool.not_eq_true', identityTaken, List.any_eq_false] at h
  constructor
  · intro u hu heq
    exact h u hu (by rw [heq]; simp)
  · intro u hu heq
    exact h u hu (by rw [heq]; simp)

theorem rejectDuplicateIdentity_none {name email : String} {t : AccountTables}
    (h : rejectDuplicateIdentity lower t none name email = .ok ()) :
    (∀ u ∈ t.users, u.name ≠ name) ∧ ∀ u ∈ t.users, lower u.email ≠ lower email := by
  obtain ⟨_, hname, hemail⟩ := bind_eq_ok.mp h
  have hname := ensure_eq_ok.mp hname
  have hemail := ensure_eq_ok.mp hemail
  rw [Bool.not_eq_true', List.any_eq_false] at hname hemail
  constructor
  · intro u hu heq
    exact hname u hu (by simp [heq])
  · intro u hu heq
    exact hemail u hu (by simp [heq])

theorem rejectDuplicateIdentity_some {userId : ℤ} {name email : String} {t : AccountTables}
    (h : rejectDuplicateIdentity lower t (some userId) name email = .ok ()) :
    (∀ u ∈ t.users, u.name = name → u.id = userId) ∧
      ∀ u ∈ t.users, lower u.email = lower email → u.id = userId := by
  obtain ⟨_, hname, hemail⟩ := bind_eq_ok.mp h
  have hname := ensure_eq_ok.mp hname
  have hemail := ensure_eq_ok.mp hemail
  rw [Bool.not_eq_true', List.any_eq_false] at hname hemail
  constructor
  · intro u hu heq
    by_contra hne
    exact hname u hu (by simp [heq, hne])
  · intro u hu heq
    by_contra hne
    exact hemail u hu (by simp [heq, hne])

/-- A new account has the password it is created with. -/
theorem commits_insert {n : ℕ} {request : Request} {s s' : Store} {password encoded : String}
    (hwrites : request.writes s = some (s.nextUserId, password))
    (hencoded : hashPassword c n (request.stored password) = .ok encoded)
    (hpasswords : s'.passwords = Function.update s.passwords s.nextUserId (some encoded))
    (hvalid : Valid lower s → Valid lower s') : Commits c lower n request s s' := by
  refine ⟨hvalid, fun userId sent hsent => ?_, fun userId hother => ?_⟩
  · obtain ⟨rfl, rfl⟩ := Prod.mk.inj (Option.some.inj (hwrites.symm.trans hsent))
    refine ⟨encoded, hencoded, ?_⟩
    rw [hpasswords, Function.update_self]
  · rw [hpasswords, Function.update_of_ne]
    rintro rfl
    exact hother password hwrites

theorem setup_commits {n : ℕ} {name email password : String} {s s' : Store}
    (h : setup c lower n name email password s = .ok s') :
    Commits c lower n (.setup name email password) s s' := by
  obtain ⟨_, htexts, h⟩ := bind_eq_ok.mp h
  obtain ⟨_, -, h⟩ := bind_eq_ok.mp h
  obtain ⟨_, htaken, h⟩ := bind_eq_ok.mp h
  obtain ⟨encoded, hencoded, h⟩ := bind_eq_ok.mp h
  obtain rfl := Except.ok.inj h
  refine commits_insert rfl hencoded rfl fun hs => ?_
  have htexts := ensure_eq_ok.mp htexts
  rw [Bool.and_eq_true, Bool.and_eq_true] at htexts
  obtain ⟨hnameText, hemailText⟩ := visitor_texts htexts.1.1 rfl
  obtain ⟨hname, hemail⟩ := not_taken (ensure_eq_ok.mp htaken)
  suffices hinserted : Valid lower (s.insert (fun id =>
      { id, name := trim name, email := toAsciiLowercase (trim email), userType := .admin
        hidden := true, banned := false, changePassword := false, teamId := none }) encoded) from
    ⟨hinserted.identities, hinserted.fresh⟩
  refine hs.insert (fun _ => rfl) ?_ ?_ ?_ ?_ encoded
  · exact hname
  · exact hemail
  · exact hnameText
  · exact hemailText

theorem register_commits {n : ℕ} {name email password : String} {s s' : Store}
    (h : register c lower n name email password s = .ok s') :
    Commits c lower n (.register name email password) s s' := by
  obtain ⟨_, -, h⟩ := bind_eq_ok.mp h
  obtain ⟨_, htexts, h⟩ := bind_eq_ok.mp h
  obtain ⟨_, -, h⟩ := bind_eq_ok.mp h
  obtain ⟨_, htaken, h⟩ := bind_eq_ok.mp h
  obtain ⟨encoded, hencoded, h⟩ := bind_eq_ok.mp h
  obtain ⟨_, -, h⟩ := bind_eq_ok.mp h
  obtain rfl := Except.ok.inj h
  refine commits_insert rfl hencoded rfl fun hs => ?_
  have htexts := ensure_eq_ok.mp htexts
  rw [Bool.and_eq_true, Bool.and_eq_true] at htexts
  obtain ⟨hnameText, hemailText⟩ := visitor_texts htexts.1.1 rfl
  obtain ⟨hname, hemail⟩ := not_taken (ensure_eq_ok.mp htaken)
  refine hs.insert (fun _ => rfl) ?_ ?_ ?_ ?_ encoded
  · exact hname
  · exact hemail
  · exact hnameText
  · exact hemailText

theorem createUser_commits {n : ℕ} {admin : Accounts.CurrentUser} {request : CreateUser}
    {password : String} {s s' : Store}
    (h : createUser c lower n admin request password s = .ok s') :
    Commits c lower n (.createUser admin request password) s s' := by
  obtain ⟨_, -, h⟩ := bind_eq_ok.mp h
  obtain ⟨name, hnameText, h⟩ := bind_eq_ok.mp h
  obtain ⟨email, hemailText, h⟩ := bind_eq_ok.mp h
  obtain ⟨_, -, h⟩ := bind_eq_ok.mp h
  obtain ⟨_, -, h⟩ := bind_eq_ok.mp h
  obtain ⟨encoded, hencoded, h⟩ := bind_eq_ok.mp h
  obtain ⟨_, hunique, h⟩ := bind_eq_ok.mp h
  obtain rfl := Except.ok.inj h
  refine commits_insert rfl hencoded rfl fun hs => ?_
  obtain ⟨hname, hemail⟩ := rejectDuplicateIdentity_none hunique
  refine hs.insert (fun _ => rfl) ?_ ?_ ?_ ?_ encoded
  · exact hname
  · exact hemail
  · exact validateName_eq_ok hnameText
  · exact validateEmail_eq_ok hemailText

theorem hashField_eq_ok {n : ℕ} {password encoded : Option String}
    (h : hashField c n password = .ok encoded) :
    (password = none ∧ encoded = none) ∨ ∃ value hash, password = some value ∧
      encoded = some hash ∧ hashPassword c n value = .ok hash := by
  rcases password with _ | value
  · exact .inl ⟨rfl, (Except.ok.inj h).symm⟩
  · right
    unfold hashField at h
    dsimp only at h
    rcases hhash : hashPassword c n value with e | hash
    · rw [hhash] at h
      cases h
    · rw [hhash] at h
      exact ⟨value, hash, rfl, (Except.ok.inj h).symm, hhash⟩

/-- What an update commits. -/
theorem updateUser_commits {n : ℕ} {actor : Accounts.CurrentUser} {userId : ℤ}
    {patch : PatchUser} {password typed : Option String} {admin : Bool} {s s' : Store}
    (h : updateUser c lower n actor userId patch password typed admin s = .ok s')
    {request : Request} (hwrites : request.writes s = password.map (userId, ·))
    (hstored : ∀ value, request.stored value = value) : Commits c lower n request s s' := by
  obtain ⟨name, hnameText, h⟩ := bind_eq_ok.mp h
  obtain ⟨email, hemailText, h⟩ := bind_eq_ok.mp h
  obtain ⟨_, -, h⟩ := bind_eq_ok.mp h
  obtain ⟨previous, -, h⟩ := bind_eq_ok.mp h
  obtain ⟨_, -, h⟩ := bind_eq_ok.mp h
  obtain ⟨encoded, hencoded, h⟩ := bind_eq_ok.mp h
  obtain ⟨_, hunique, h⟩ := bind_eq_ok.mp h
  obtain rfl := Except.ok.inj h
  refine ⟨fun hs => ?_, fun account value hvalue => ?_, fun account hother => ?_⟩
  · obtain ⟨hname, hemail⟩ := rejectDuplicateIdentity_some hunique
    constructor
    · apply hs.identities.written
      · rintro value rfl
        obtain ⟨_, htext⟩ := checkField_eq_ok hnameText rfl
        exact ⟨validateName_eq_ok htext, hname⟩
      · rintro value rfl
        obtain ⟨_, htext⟩ := checkField_eq_ok hemailText rfl
        exact ⟨validateEmail_eq_ok htext, hemail⟩
    · exact Tables.forall_update hs.fresh fun u _ _ hu => hu
  · rw [hwrites] at hvalue
    rcases hashField_eq_ok hencoded with ⟨rfl, -⟩ | ⟨sent, hash, rfl, rfl, hhash⟩
    · cases hvalue
    · obtain ⟨rfl, rfl⟩ := Prod.mk.inj (Option.some.inj hvalue)
      refine ⟨hash, ?_, Function.update_self _ _ _⟩
      rw [hstored]
      exact hhash
  · rcases hashField_eq_ok hencoded with ⟨rfl, rfl⟩ | ⟨sent, hash, rfl, rfl, -⟩
    · rfl
    · apply Function.update_of_ne
      rintro rfl
      exact hother sent hwrites

/-- Every request commits what it says. -/
theorem commit_commits {n : ℕ} {request : Request} {s s' : Store}
    (h : request.commit c lower n s = .ok s') : Commits c lower n request s s' := by
  cases request with
  | setup name email password => exact setup_commits h
  | register name email password => exact register_commits h
  | createUser admin request password => exact createUser_commits h
  | updateAdmin admin userId request password =>
      obtain ⟨_, -, h⟩ := bind_eq_ok.mp h
      obtain ⟨_, -, h⟩ := bind_eq_ok.mp h
      exact updateUser_commits h rfl fun _ => rfl
  | updateSelf user request password typed => exact updateUser_commits h rfl fun _ => rfl

/-! ## Runs of requests -/

theorem toOption_eq_some {x : Except String Store} {s : Store} (h : x.toOption = some s) :
    x = .ok s := by
  rcases x with e | s'
  · cases h
  · exact congrArg Except.ok (Option.some.inj h)

/-- Accounts keep their unique columns. -/
theorem step_valid {s s' : Store} {l : Label} (hs : Valid lower s) (hl : Lawful lower s l)
    (h : step c lower l s = some s') : Valid lower s' := by
  rcases l with ⟨n, request⟩ | ⟨accounts, minimum⟩
  · exact (commit_commits (toOption_eq_some h)).valid hs
  · obtain rfl := Option.some.inj h
    refine ⟨hl.1, fun u hu => ?_⟩
    obtain ⟨v, hv, hid⟩ := hl.2 u hu
    rw [← hid]
    exact hs.fresh v hv

theorem reach_valid {s : Store} (h : Reach (step c lower) (Lawful lower) Initial s) :
    Valid lower s := by
  refine h.invariant (fun s hs => ?_) fun s l s' hs hl hstep => step_valid hs hl hstep
  constructor
  · rw [hs.users]
    constructor <;> simp
  · rw [hs.users]
    nofun

/-- A password that is not written stays. -/
theorem untouched_keeps {userId : ℤ} {s₁ s : Store}
    (h : Reach (step c lower) (Untouched lower userId) (· = s₁) s) (hs₁ : Valid lower s₁) :
    Valid lower s ∧ s.passwords userId = s₁.passwords userId := by
  induction h with
  | init hs =>
      rw [hs]
      exact ⟨hs₁, rfl⟩
  | step l _ hl hstep ih =>
      refine ⟨step_valid ih.1 hl.1 hstep, ?_⟩
      rw [← ih.2]
      rcases l with ⟨n, request⟩ | ⟨accounts, minimum⟩
      · exact (commit_commits (toOption_eq_some hstep)).kept userId (hl.2 n request rfl)
      · rw [← Option.some.inj hstep]

/-! ## Round trips -/

/-- An account that can be used logs in with what its hash verifies. -/
theorem login_iff {s : Store} {user : UserRow} (henabled : Enabled s.accounts user)
    {identity : String} (hidentity : loginUser lower s.accounts identity = some user)
    {encoded : String} (hencoded : s.passwords user.id = some encoded) (typed : String) :
    login c lower s identity typed = .ok user ↔
      typed.utf8ByteSize ≤ 128 ∧ verifyPassword c typed encoded = true := by
  have hne : trim identity ≠ "" := by
    intro hempty
    simp [loginUser, hempty] at hidentity
  have haccount : Accounts.login lower s.accounts identity = .ok user := by
    unfold Accounts.login
    rw [hidentity]
    show (ensure _ _ >>= fun _ => ensure _ _ >>= fun _ => _) = _
    rw [henabled.banned, henabled.team, henabled.changePassword]
    rfl
  unfold login
  rw [haccount]
  constructor
  · intro h
    obtain ⟨_, hsize, h⟩ := bind_eq_ok.mp h
    obtain ⟨_, huser, h⟩ := bind_eq_ok.mp h
    obtain rfl := Except.ok.inj huser
    obtain ⟨_, hrequired, h⟩ := bind_eq_ok.mp h
    obtain ⟨_, hverify, -⟩ := bind_eq_ok.mp h
    rw [hencoded] at hrequired
    obtain rfl := Except.ok.inj hrequired
    have hsize := ensure_eq_ok.mp hsize
    rw [Bool.and_eq_true, decide_eq_true_eq] at hsize
    exact ⟨of_decide_eq_true hsize.2, ensure_eq_ok.mp hverify⟩
  · rintro ⟨hsize, hverify⟩
    rw [decide_eq_true hne, decide_eq_true hsize]
    show (required (s.passwords user.id) _ >>= fun _ => _) = _
    rw [hencoded]
    show (ensure (verifyPassword c typed encoded) _ >>= fun _ => _) = _
    rw [hverify]
    rfl

/-- **Passwords round-trip** exactly where the password is stored as it is sent, which the
registration does with a password that neither begins nor ends with white space, and where it
has at most 128 bytes.  After a request has written a password, and as long as no request
writes it again, the account logs in with that password and no other, and its current password
is confirmed with what it logs in with. -/
theorem passwords_round_trip (hc : c.Documented) {inputs : Set String}
    (hinputs : c.Distinguishes inputs) {s₀ s₁ s : Store}
    (h₀ : Reach (step c lower) (Lawful lower) Initial s₀) {n : ℕ} {request : Request}
    (hcommit : request.commit c lower n s₀ = .ok s₁) {userId : ℤ} {password : String}
    (hwrites : request.writes s₀ = some (userId, password)) (hpassword : password ∈ inputs)
    (hstored : request.stored password ∈ inputs)
    (hrun : Reach (step c lower) (Untouched lower userId) (· = s₁) s) {user : UserRow}
    (huser : user ∈ s.accounts.users) (hid : user.id = userId)
    (henabled : Enabled s.accounts user) :
    loginUser lower s.accounts user.email = some user ∧
    ∀ identity, loginUser lower s.accounts identity = some user →
      (((∀ typed ∈ inputs, login c lower s identity typed = .ok user ↔ typed = password) ∧
        ∀ typed ∈ inputs, confirm c s user.id typed = true ↔
          login c lower s identity typed = .ok user) ↔
        request.stored password = password ∧ password.utf8ByteSize ≤ 128) := by
  have hcommits := commit_commits hcommit
  obtain ⟨encoded, hhash, hwritten⟩ := hcommits.written userId password hwrites
  obtain ⟨hvalid, hkept⟩ := untouched_keeps hrun (hcommits.valid (reach_valid h₀))
  have hencoded : s.passwords user.id = some encoded := by rw [hid, hkept, hwritten]
  refine ⟨loginUser_email hvalid.identities huser, fun identity hidentity => ?_⟩
  have hverify (typed : String) (htyped : typed ∈ inputs) :
      verifyPassword c typed encoded = true ↔ typed = request.stored password :=
    verify_hash hc hinputs hhash hstored htyped
  have hconfirm (typed : String) : confirm c s user.id typed = verifyPassword c typed encoded := by
    unfold confirm
    rw [hencoded]
    rfl
  constructor
  · rintro ⟨hlogin, -⟩
    obtain ⟨hsize, hverified⟩ :=
      (login_iff henabled hidentity hencoded password).mp ((hlogin password hpassword).mpr rfl)
    exact ⟨((hverify password hpassword).mp hverified).symm, hsize⟩
  · rintro ⟨hsame, hsize⟩
    rw [hsame] at hverify
    constructor
    · intro typed htyped
      rw [login_iff henabled hidentity hencoded, hverify typed htyped]
      constructor
      · rintro ⟨-, rfl⟩
        rfl
      · rintro rfl
        exact ⟨hsize, rfl⟩
    · intro typed htyped
      rw [login_iff henabled hidentity hencoded, hconfirm, hverify typed htyped]
      constructor
      · rintro rfl
        exact ⟨hsize, rfl⟩
      · rintro ⟨-, rfl⟩
        rfl

/-! ## A padded password -/

/-- Primitives that leave short texts readable. -/
def readable : Crypto where
  genSalt _ := "$2a$12$aaaaaaaaaaaaaaaaaaaaaa"
  crypt key salt := String.ofList (salt.toList.take 29 ++
    (key.toList.filter bcryptChar ++ List.replicate 31 'a').take 31)
  hmacSha256 _ text := text.toList.map fun x => UInt8.ofNat x.toNat
  base64 bytes := String.ofList (bytes.map fun b => if b = 32 then '.' else Char.ofNat b.toNat)

theorem readable_documented : readable.Documented := by
  have hsalt : "$2a$12$aaaaaaaaaaaaaaaaaaaaaa".toList =
      setting ++ List.replicate 22 'a' := rfl
  have htake : (readable.genSalt 0).toList.take 29 = (readable.genSalt 0).toList := rfl
  have hchars (key : String) : ∀ x ∈ (key.toList.filter bcryptChar ++
      List.replicate 31 'a').take 31, bcryptChar x = true := by
    intro x hx
    rcases List.mem_append.mp (List.mem_of_mem_take hx) with hx | hx
    · exact (List.mem_filter.mp hx).2
    · rw [List.eq_of_mem_replicate hx]
      decide
  constructor
  · intro n
    refine ⟨List.replicate 22 'a', hsalt, rfl, fun x hx => ?_⟩
    rw [List.eq_of_mem_replicate hx]
    decide
  · intro n key
    refine ⟨(key.toList.filter bcryptChar ++ List.replicate 31 'a').take 31, ?_, ?_, hchars key⟩
    · show (String.ofList (List.take 29 (readable.genSalt 0).toList ++ _)).toList =
        (readable.genSalt 0).toList ++ _
      rw [String.toList_ofList, htake]
    · rw [List.length_take, List.length_append, List.length_replicate]
      omega
  · intro n key checksum _ _
    show String.ofList (List.take 29 (String.ofList ((readable.genSalt 0).toList ++ _)).toList ++ _) =
      String.ofList (List.take 29 (readable.genSalt 0).toList ++ _)
    rw [String.toList_ofList, List.take_append_of_le_length (by decide)]

/-- The passwords of the example. -/
def samples : Set String := fun text => text = " secret " ∨ text = "secret" ∨ text = "guess"

theorem readable_distinguishes : readable.Distinguishes samples := by
  intro n salt _ a ha b hb h
  have hprehash (text : String) : prehash readable text salt = prehash readable text [] := rfl
  have hsalt : readable.genSalt n = readable.genSalt 0 := rfl
  rw [hprehash, hprehash, hsalt] at h
  rcases ha with rfl | rfl | rfl
  · rcases hb with rfl | rfl | rfl
    · rfl
    · exact absurd h (by decide +kernel)
    · exact absurd h (by decide +kernel)
  · rcases hb with rfl | rfl | rfl
    · exact absurd h (by decide +kernel)
    · rfl
    · exact absurd h (by decide +kernel)
  · rcases hb with rfl | rfl | rfl
    · exact absurd h (by decide +kernel)
    · exact absurd h (by decide +kernel)
    · rfl

/-- A store without accounts. -/
def newStore : Store := ⟨newPortal.store, fun _ => none, 0, 1⟩

/-- The administrator of the setup. -/
def rootRow : UserRow := ⟨1, "root", "root@ctf.zone", .admin, true, false, false, none⟩

/-- A visitor who registers. -/
def bobRow : UserRow := ⟨2, "bob", "bob@ctf.zone", .user, false, false, false, none⟩

/-- The setup with the password `secret`. -/
def setsUpStore : Request := .setup "root" "root@ctf.zone" "secret"

/-- The registration with a padded password. -/
def padsPassword : Request := .register "bob" "bob@ctf.zone" " secret "

/-- After the registration of somebody else, the administrator logs in with the password of
the setup, and with no other of the samples. -/
theorem passwords_round_trip_setup : ∃ s : Store, s.accounts.users = [rootRow, bobRow] ∧
    ∀ typed ∈ samples, login readable toAsciiLowercase s "root@ctf.zone" typed = .ok rootRow ↔
      typed = "secret" := by
  have hfirst : ((setsUpStore.commit readable toAsciiLowercase 0 newStore).toOption.any fun s₁ =>
      (step readable toAsciiLowercase (.request 0 padsPassword) s₁).any fun s =>
        decide (s₁.nextUserId = 2) && decide (s.accounts.users = [rootRow, bobRow]) &&
          decide (loginUser toAsciiLowercase s.accounts "root@ctf.zone" = some rootRow)) = true := by
    decide +kernel
  obtain ⟨s₁, hs₁, hrest⟩ := (Option.any_eq_true _ _).mp hfirst
  obtain ⟨s, hs, hfacts⟩ := (Option.any_eq_true _ _).mp hrest
  simp only [Bool.and_eq_true, decide_eq_true_eq] at hfacts
  obtain ⟨⟨hnext, husers⟩, hidentity⟩ := hfacts
  have hguard : Untouched toAsciiLowercase 1 s₁ (.request 0 padsPassword) := by
    refine ⟨trivial, fun n request hlabel password hwrites => ?_⟩
    obtain ⟨rfl, rfl⟩ := Label.request.inj hlabel
    have hid := (Prod.mk.inj (Option.some.inj hwrites)).1
    rw [hnext] at hid
    exact absurd hid (by decide)
  refine ⟨s, husers, ?_⟩
  have hnew : Reach (step readable toAsciiLowercase) (Lawful toAsciiLowercase) Initial newStore :=
    .init ⟨rfl⟩
  have hroot : rootRow ∈ s.accounts.users := by
    rw [husers]
    exact List.mem_cons_self
  have henabled : Enabled s.accounts rootRow :=
    ⟨rfl, by simp [AccountTables.teamBanned, rootRow], rfl⟩
  have hround := passwords_round_trip readable_documented readable_distinguishes hnew
    (toOption_eq_some hs₁) rfl (.inr (.inl rfl)) (.inr (.inl rfl)) (.step _ (.init rfl) hguard hs)
    hroot rfl henabled
  exact ((hround.2 "root@ctf.zone" hidentity).mpr ⟨rfl, by decide +kernel⟩).1

/-- The visitor who registered with a padded password is refused with it, and let in with
another one. -/
theorem padded_password_refused :
    ¬ ∀ (c : Crypto) (lower : String → String) (inputs : Set String), c.Documented →
      c.Distinguishes inputs → ∀ s₀ s₁ n (request : Request) userId password user,
      Reach (step c lower) (Lawful lower) Initial s₀ → request.commit c lower n s₀ = .ok s₁ →
      request.writes s₀ = some (userId, password) → password ∈ inputs →
      request.stored password ∈ inputs → user ∈ s₁.accounts.users → user.id = userId →
      Enabled s₁.accounts user → ∀ typed ∈ inputs,
        (login c lower s₁ user.email typed = .ok user ↔ typed = password) := by
  have hfirst : ((setsUpStore.commit readable toAsciiLowercase 0 newStore).toOption.any fun s₀ =>
      (padsPassword.commit readable toAsciiLowercase 0 s₀).toOption.any fun s₁ =>
        decide (s₀.nextUserId = 2) && decide (s₁.accounts.users = [rootRow, bobRow]) &&
          decide (s₁.accounts.teams = []) &&
          decide (login readable toAsciiLowercase s₁ "bob@ctf.zone" " secret " ≠ .ok bobRow) &&
          decide (login readable toAsciiLowercase s₁ "bob@ctf.zone" "secret" = .ok bobRow)) = true := by
    decide +kernel
  obtain ⟨s₀, hs₀, hrest⟩ := (Option.any_eq_true _ _).mp hfirst
  obtain ⟨s₁, hs₁, hfacts⟩ := (Option.any_eq_true _ _).mp hrest
  simp only [Bool.and_eq_true, decide_eq_true_eq] at hfacts
  obtain ⟨⟨⟨⟨hnext, husers⟩, hteams⟩, hrefused⟩, -⟩ := hfacts
  intro hall
  apply hrefused
  refine (hall readable toAsciiLowercase samples readable_documented readable_distinguishes s₀ s₁ 0
    padsPassword 2 " secret " bobRow (.step (.request 0 setsUpStore) (.init ⟨rfl⟩) trivial hs₀)
    (toOption_eq_some hs₁) ?_ (.inl rfl) ?_ ?_ rfl ?_ " secret " (.inl rfl)).mpr rfl
  · show some (s₀.nextUserId, " secret ") = _
    rw [hnext]
  · exact .inr (.inl (by decide +kernel))
  · rw [husers]
    exact List.mem_cons_of_mem _ List.mem_cons_self
  · exact ⟨rfl, by simp [AccountTables.teamBanned, hteams], rfl⟩

end CtfZone.Passwords
