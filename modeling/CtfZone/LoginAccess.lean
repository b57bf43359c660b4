/-
# Logging in

Which account a visitor gets for what he types, and whether an administrator can.

* `login`, `authorizeIdentity` : what an account is refused for;
* `loginUser_email` : an email selects its account;
* `administrators_not_locked_out` : an administrator can be used after the setup, as long
  as no administrator is told to change the password;
* `login_identities_unambiguous` : an identity selects at most one account, as long as
  names and emails stay apart.
-/
import CtfZone.AccountRequests

namespace CtfZone.Accounts

open Locking.Program SharedLocks Tables Runs

variable {lower : String → String} {t : AccountTables}

/-! ## The queries of the login -/

/-- The order of the query, without the branch. -/
theorem loginBefore_iff {identity : String} {u v : UserRow} :
    loginBefore lower identity u v = true ↔
      (lower u.email = lower identity ∧ lower v.email ≠ lower identity) ∨
        ((lower u.email = lower identity ↔ lower v.email = lower identity) ∧ u.id ≤ v.id) := by
  unfold loginBefore
  by_cases hu : lower u.email = lower identity
  · by_cases hv : lower v.email = lower identity
    · simp [hu, hv]
    · simp [hu, hv]
  · by_cases hv : lower v.email = lower identity
    · simp [hu, hv]
    · simp [hu, hv]

theorem loginBefore_total (identity : String) (u v : UserRow) :
    loginBefore lower identity u v = true ∨ loginBefore lower identity v u = true := by
  rw [loginBefore_iff, loginBefore_iff]
  by_cases hu : lower u.email = lower identity
  · by_cases hv : lower v.email = lower identity
    · exact (le_total u.id v.id).imp (fun h => .inr ⟨iff_of_true hu hv, h⟩)
        fun h => .inr ⟨iff_of_true hv hu, h⟩
    · exact .inl (.inl ⟨hu, hv⟩)
  · by_cases hv : lower v.email = lower identity
    · exact .inr (.inl ⟨hv, hu⟩)
    · exact (le_total u.id v.id).imp (fun h => .inr ⟨iff_of_false hu hv, h⟩)
        fun h => .inr ⟨iff_of_false hv hu, h⟩

theorem loginBefore_trans (identity : String) (u v w : UserRow)
    (huv : loginBefore lower identity u v = true) (hvw : loginBefore lower identity v w = true) :
    loginBefore lower identity u w = true := by
  rw [loginBefore_iff] at huv hvw ⊢
  rcases huv with ⟨hu, hv⟩ | ⟨heq, hle⟩
  · rcases hvw with ⟨hv', -⟩ | ⟨heq', -⟩
    · exact absurd hv' hv
    · exact .inl ⟨hu, fun hw => hv (heq'.mpr hw)⟩
  · rcases hvw with ⟨hv, hw⟩ | ⟨heq', hle'⟩
    · exact .inl ⟨heq.mpr hv, hw⟩
    · exact .inr ⟨heq.trans heq', hle.trans hle'⟩

/-- The accounts that match an identity, in the order of the query. -/
def loginMatches (lower : String → String) (t : AccountTables) (identity : String) : List UserRow :=
  (t.users.filter (matchesIdentity lower identity)).insertionSort
    fun u v => loginBefore lower identity u v = true

theorem mem_loginMatches {identity : String} {u : UserRow} :
    u ∈ loginMatches lower t identity ↔ u ∈ t.users ∧ matchesIdentity lower identity u = true := by
  rw [loginMatches, List.mem_insertionSort, List.mem_filter]

theorem loginMatches_sorted (identity : String) :
    (loginMatches lower t identity).Pairwise fun u v => loginBefore lower identity u v = true := by
  have : Std.Total fun u v => loginBefore lower identity u v = true :=
    ⟨loginBefore_total identity⟩
  have : IsTrans UserRow fun u v => loginBefore lower identity u v = true :=
    ⟨loginBefore_trans identity⟩
  exact List.pairwise_insertionSort _ _

/-- What is selected matches, and comes before everything that matches. -/
theorem loginUser_eq_some {identity : String} (htrim : trim identity = identity)
    (hne : identity ≠ "") {u : UserRow} (h : loginUser lower t identity = some u) :
    u ∈ t.users ∧ matchesIdentity lower identity u = true ∧
      ∀ v ∈ t.users, matchesIdentity lower identity v = true → v = u ∨
        loginBefore lower identity u v = true := by
  simp only [loginUser, htrim, if_neg hne] at h
  obtain ⟨rest, hrest⟩ := List.head?_eq_some_iff.mp h
  have hmem : ∀ v, v ∈ u :: rest ↔ v ∈ t.users ∧ matchesIdentity lower identity v = true := by
    intro v
    rw [← hrest]
    exact mem_loginMatches
  have hsorted : (u :: rest).Pairwise fun u v => loginBefore lower identity u v = true := by
    rw [← hrest]
    exact loginMatches_sorted identity
  refine ⟨((hmem u).mp List.mem_cons_self).1, ((hmem u).mp List.mem_cons_self).2, ?_⟩
  intro v hv hmatch
  refine (List.mem_cons.mp ((hmem v).mpr ⟨hv, hmatch⟩)).imp_right fun hin => ?_
  exact List.rel_of_pairwise_cons hsorted hin

/-- Something is selected where something matches. -/
theorem loginUser_isSome {identity : String} (htrim : trim identity = identity)
    (hne : identity ≠ "") {v : UserRow} (hv : v ∈ t.users)
    (hmatch : matchesIdentity lower identity v = true) :
    ∃ u, loginUser lower t identity = some u := by
  simp only [loginUser, htrim, if_neg hne]
  have hmem : v ∈ loginMatches lower t identity := mem_loginMatches.mpr ⟨hv, hmatch⟩
  exact ⟨_, List.head?_eq_some_head (List.ne_nil_of_mem hmem)⟩

/-- An email selects its account, whatever names there are. -/
theorem loginUser_email (h : Identities lower t.users) {u : UserRow} (hu : u ∈ t.users) :
    loginUser lower t u.email = some u := by
  obtain ⟨htrim, hne⟩ := h.emailTexts u hu
  have hmatch : matchesIdentity lower u.email u = true := by simp [matchesIdentity]
  obtain ⟨v, hv⟩ := loginUser_isSome htrim hne hu hmatch
  obtain ⟨hvmem, -, hfirst⟩ := loginUser_eq_some htrim hne hv
  rcases hfirst u hu hmatch with rfl | hbefore
  · exact hv
  · -- what comes before has the same email
    have hemail : lower v.email = lower u.email := by
      rcases loginBefore_iff.mp hbefore with ⟨-, hnot⟩ | ⟨heq, -⟩
      · exact absurd rfl hnot
      · exact heq.mpr rfl
    rwa [h.unique hvmem hu (h.emails v hvmem u hu hemail)] at hv

/-! ## Administrators -/

/-- `login`, up to the password. -/
def login (lower : String → String) (t : AccountTables) (typed : String) :
    Except String UserRow := do
  let user ← Submissions.required (loginUser lower t typed) "invalid_credentials"
  ensure (! (user.banned || t.teamBanned user)) "account_disabled"
  ensure (! user.changePassword) "password_change_required"
  pure user

/-- `authorize_identity`. -/
def authorizeIdentity (t : AccountTables) (user : UserRow) : Except String CurrentUser := do
  ensure (! user.banned) "You have been banned from this CTF"
  ensure (! t.teamBanned user) "Your team has been banned from this CTF"
  ensure (! user.changePassword) "A password change is required"
  pure { id := user.id, userType := user.userType, teamId := user.teamId }

/-- An account can log in, and its requests pass `require_admin`. -/
def CanAdminister (lower : String → String) (t : AccountTables) (u : UserRow) : Prop :=
  login lower t u.email = .ok u ∧
    ∃ current, authorizeIdentity t u = .ok current ∧ current.userType = .admin

theorem canAdminister_of (h : Identities lower t.users) {u : UserRow} (hu : u ∈ t.users)
    (htype : u.userType = .admin) (hbanned : u.banned = false) (hteam : t.teamBanned u = false)
    (hforced : u.changePassword = false) : CanAdminister lower t u := by
  constructor
  · unfold login
    rw [loginUser_email h hu]
    show (ensure _ _ >>= fun _ => ensure _ _ >>= fun _ => _) = _
    rw [hbanned, hteam, hforced]
    rfl
  · refine ⟨⟨u.id, u.userType, u.teamId⟩, ?_, htype⟩
    simp only [authorizeIdentity, hbanned, hteam, hforced]
    rfl

theorem CanAdminister.not_forced {u : UserRow} (h : CanAdminister lower t u) :
    u.changePassword = false := by
  obtain ⟨-, current, hauthorized, -⟩ := h
  obtain ⟨_, -, hauthorized⟩ := bind_eq_ok.mp hauthorized
  obtain ⟨_, -, hauthorized⟩ := bind_eq_ok.mp hauthorized
  obtain ⟨_, hforced, -⟩ := bind_eq_ok.mp hauthorized
  simpa using ensure_eq_ok.mp hforced

/-- The step writes no administrator who has to change the password. -/
def NoForcedAdministrator (lower : String → String) (s : Portal)
    (l : Locking.Label Request Empty) : Prop :=
  ∀ s' ∈ portalStep lower l s, ∀ u ∈ s'.store.users, u ∈ s.store.users ∨
    ¬ (u.userType = .admin ∧ u.changePassword = true)

instance (s : Portal) (l : Locking.Label Request Empty) :
    Decidable (NoForcedAdministrator lower s l) := by
  unfold NoForcedAdministrator
  infer_instance

/-- No administrator has to change the password. -/
theorem not_forced {s : Portal}
    (h : Reach (portalStep lower) (NoForcedAdministrator lower) Initial s) :
    ∀ u ∈ s.store.users, u.userType = .admin → u.changePassword = false := by
  induction h with
  | init hs =>
      rw [hs.users]
      nofun
  | step l _ hguard hstep ih =>
      intro u hu htype
      rcases hguard _ hstep u hu with hold | hnew
      · exact ih u hold htype
      · exact Bool.eq_false_of_not_eq_true fun hforced => hnew ⟨htype, hforced⟩

/-- **Administrators are not locked out.**  In every run whose commits leave no administrator
who has to change the password, there is an administrator after the setup who can log in and
whose requests are authorized. -/
theorem administrators_not_locked_out {s : Portal}
    (h : Reach (portalStep lower) (NoForcedAdministrator lower) Initial s)
    (hsetup : s.store.setupMarker = true) :
    ∃ u ∈ s.store.users, CanAdminister lower s.store u := by
  have hs := reach_wellformed h
  obtain ⟨id, u, hu, -, htype, hbanned⟩ := hs.installed.admin hsetup
  refine ⟨u, hu, canAdminister_of hs.identities hu htype hbanned ?_ (not_forced h u hu htype)⟩
  -- administrators have no team
  have hteam : u.teamId = none := by
    by_contra hne
    exact absurd ((hs.membership.participants u hu hne).symm.trans htype) (by decide)
  simp [AccountTables.teamBanned, hteam]

/-- A portal that is not set up. -/
def newPortal : Portal :=
  ⟨⟨[], [], setupSettings, false, 0⟩, fun _ => 0, []⟩

theorem newPortal_initial : Initial newPortal := ⟨rfl, rfl, rfl, rfl⟩

/-- The setup, by the visitor `root`. -/
def setsUp : List (Locking.Label Request Empty) :=
  .begin (.setup "root" "root@ctf.zone") :: List.replicate 11 (.advance 0 1)

/-- The administrator of the setup. -/
def root : CurrentUser := ⟨1, .admin, none⟩

/-- After the setup, the administrator changes only the name, and is not locked out. -/
theorem administrators_not_locked_out_renamed : ∃ s : Portal,
    s.store.users.map UserRow.name = ["boss"] ∧
      ∃ u ∈ s.store.users, CanAdminister toAsciiLowercase s.store u := by
  have hrun : ((runIf (portalStep toAsciiLowercase) (NoForcedAdministrator toAsciiLowercase)
      (setsUp ++ .begin (.updateAdmin root 1 ⟨some "boss", none, none, none, none, none, none⟩) ::
        List.replicate 12 (.advance 1 0)) newPortal).any fun s =>
      decide (s.store.users.map UserRow.name = ["boss"]) && s.store.setupMarker) = true := by
    decide +kernel
  obtain ⟨s, hs, hfacts⟩ := (Option.any_eq_true _ _).mp hrun
  rw [Bool.and_eq_true, decide_eq_true_eq] at hfacts
  exact ⟨s, hfacts.1, administrators_not_locked_out
    (reach_of_runIf _ (.init newPortal_initial) hs) hfacts.2⟩

/-- The only administrator is told to change the password, and nobody can administer any
more: the account is refused wherever it could do so. -/
theorem forced_administrator_locked_out :
    ¬ ∀ (lower : String → String) (s : Portal), Reach (portalStep lower) anyStep Initial s →
      s.store.setupMarker = true → ∃ u ∈ s.store.users, CanAdminister lower s.store u := by
  have hrun : ((run (portalStep toAsciiLowercase)
      (setsUp ++ .begin (.updateAdmin root 1 ⟨none, none, none, none, none, some true, none⟩) ::
        List.replicate 10 (.advance 1 0)) newPortal).any fun s =>
      s.store.setupMarker && s.store.users.all (·.changePassword)) = true := by
    decide +kernel
  obtain ⟨s, hs, hfacts⟩ := (Option.any_eq_true _ _).mp hrun
  rw [Bool.and_eq_true] at hfacts
  intro hall
  obtain ⟨u, hu, husable⟩ := hall _ s (reach_of_run _ newPortal_initial hs) hfacts.1
  have hforced := List.all_eq_true.mp hfacts.2 u hu
  exact absurd (husable.not_forced.symm.trans hforced) (by decide)

/-! ## Identities -/

/-- Two accounts are told apart by what a visitor types, and each is selected by its own name
and by its own email. -/
structure Unambiguous (lower : String → String) (t : AccountTables) : Prop where
  single : ∀ typed, ∀ u ∈ t.users, ∀ v ∈ t.users, matchesIdentity lower (trim typed) u = true →
    matchesIdentity lower (trim typed) v = true → u = v
  byName : ∀ u ∈ t.users, loginUser lower t u.name = some u
  byEmail : ∀ u ∈ t.users, loginUser lower t u.email = some u

/-- No name is another account's email, up to case. -/
def Apart (lower : String → String) (users : List UserRow) : Prop :=
  ∀ u ∈ users, ∀ v ∈ users, u.id ≠ v.id → lower u.name ≠ lower v.email

/-- What a visitor types can only be ambiguous as the name of one account and the email of
another. -/
theorem unambiguous_iff (h : Identities lower t.users) :
    Unambiguous lower t ↔ Apart lower t.users := by
  constructor
  · intro hu u hmem v hmem' hne heq
    have hmatch : matchesIdentity lower (trim u.name) u = true := by
      simp [matchesIdentity, (h.nameTexts u hmem).1]
    have hmatch' : matchesIdentity lower (trim u.name) v = true := by
      simp [matchesIdentity, (h.nameTexts u hmem).1, heq]
    exact hne (congrArg UserRow.id (hu.single u.name u hmem v hmem' hmatch hmatch'))
  · intro hapart
    have hsingle : ∀ identity, ∀ u ∈ t.users, ∀ v ∈ t.users,
        matchesIdentity lower identity u = true → matchesIdentity lower identity v = true →
          u = v := by
      intro identity u hu v hv hmatch hmatch'
      apply h.unique hu hv
      simp only [matchesIdentity, Bool.or_eq_true, decide_eq_true_eq] at hmatch hmatch'
      by_contra hne
      rcases hmatch with hemail | hname
      · rcases hmatch' with hemail' | hname'
        · exact hne (h.emails u hu v hv (hemail.trans hemail'.symm))
        · exact hapart v hv u hu (Ne.symm hne) (by rw [hname', hemail])
      · rcases hmatch' with hemail' | hname'
        · exact hapart u hu v hv hne (by rw [hname, hemail'])
        · exact hne (h.names u hu v hv (hname.trans hname'.symm))
    refine ⟨fun typed => hsingle (trim typed), fun u hu => ?_, fun u => loginUser_email h⟩
    obtain ⟨htrim, hne⟩ := h.nameTexts u hu
    have hmatch : matchesIdentity lower u.name u = true := by simp [matchesIdentity]
    obtain ⟨v, hv⟩ := loginUser_isSome htrim hne hu hmatch
    obtain ⟨hvmem, hvmatch, -⟩ := loginUser_eq_some htrim hne hv
    rwa [hsingle u.name v hvmem u hu hvmatch hmatch] at hv

/-- No name that is written is another account's email, up to case, and no email that is
written is another account's name. -/
def WritesApart (lower : String → String) (users users' : List UserRow) : Prop :=
  ∀ u ∈ users', ∀ v ∈ users', u.id ≠ v.id → lower u.name = lower v.email →
    (∃ u₀ ∈ users, u₀.id = u.id ∧ u₀.name = u.name) ∧
      ∃ v₀ ∈ users, v₀.id = v.id ∧ v₀.email = v.email

instance (users users' : List UserRow) : Decidable (WritesApart lower users users') := by
  unfold WritesApart
  infer_instance

/-- What the step writes keeps names and emails apart. -/
def SeparateIdentities (lower : String → String) (s : Portal)
    (l : Locking.Label Request Empty) : Prop :=
  ∀ s' ∈ portalStep lower l s, WritesApart lower s.store.users s'.store.users

instance (s : Portal) (l : Locking.Label Request Empty) :
    Decidable (SeparateIdentities lower s l) := by
  unfold SeparateIdentities
  infer_instance

/-- Names and emails stay apart. -/
theorem names_apart {s : Portal}
    (h : Reach (portalStep lower) (SeparateIdentities lower) Initial s) :
    Apart lower s.store.users := by
  induction h with
  | init hs =>
      rw [hs.users]
      nofun
  | step l _ hguard hstep ih =>
      intro u hu v hv hne heq
      -- both were there before
      obtain ⟨⟨u₀, hu₀, huid, huname⟩, v₀, hv₀, hvid, hvemail⟩ :=
        hguard _ hstep u hu v hv hne heq
      refine ih u₀ hu₀ v₀ hv₀ ?_ ?_
      · rwa [huid, hvid]
      · rwa [huname, hvemail]

/-- **Login identities are unambiguous.**  In every run whose commits write no name that is
another account's email and no email that is another account's name, up to case, at most one
account matches what a visitor types, and every account is selected by its own name and by
its own email. -/
theorem login_identities_unambiguous {s : Portal}
    (h : Reach (portalStep lower) (SeparateIdentities lower) Initial s) :
    Unambiguous lower s.store :=
  (unambiguous_iff (reach_wellformed h).identities).mpr (names_apart h)

/-- The setup, and then the visitor `alice` registers. -/
def registersAlice : List (Locking.Label Request Empty) :=
  setsUp ++ .begin (.register "alice" "Alice@ctf.zone") :: List.replicate 11 (.advance 1 2)

/-- After a registration both accounts are told apart. -/
theorem login_identities_unambiguous_registered : ∃ s : Portal,
    s.store.users.map UserRow.email = ["root@ctf.zone", "alice@ctf.zone"] ∧
      Unambiguous toAsciiLowercase s.store := by
  have hrun : ((runIf (portalStep toAsciiLowercase) (SeparateIdentities toAsciiLowercase)
      registersAlice newPortal).any fun s =>
      decide (s.store.users.map UserRow.email = ["root@ctf.zone", "alice@ctf.zone"])) = true := by
    decide +kernel
  obtain ⟨s, hs, hfacts⟩ := (Option.any_eq_true _ _).mp hrun
  rw [decide_eq_true_eq] at hfacts
  exact ⟨s, hfacts, login_identities_unambiguous
    (reach_of_runIf _ (.init newPortal_initial) hs)⟩

/-- A participant takes the email of the administrator for a name: what the administrator
types matches both, and the participant's own name selects the administrator. -/
theorem email_taken_for_a_name :
    ¬ ∀ (lower : String → String) (s : Portal), Reach (portalStep lower) anyStep Initial s →
      Unambiguous lower s.store := by
  have hrun : ((run (portalStep toAsciiLowercase)
      (registersAlice ++ .begin (.updateSelf ⟨2, .user, none⟩
        ⟨some "root@ctf.zone", none, none, none, none, none, none⟩) ::
          List.replicate 9 (.advance 2 0)) newPortal).any fun s =>
      decide (s.store.users.map (fun u => (u.id, u.name, u.email)) =
        [(1, "root", "root@ctf.zone"), (2, "root@ctf.zone", "alice@ctf.zone")])) = true := by
    decide +kernel
  obtain ⟨s, hs, hfacts⟩ := (Option.any_eq_true _ _).mp hrun
  rw [decide_eq_true_eq] at hfacts
  intro hall
  have hreach := reach_of_run _ newPortal_initial hs
  have hapart := (unambiguous_iff (reach_wellformed hreach).identities).mp (hall _ s hreach)
  -- the rows as they are in the end
  obtain ⟨u, v, husers⟩ := List.length_eq_two.mp
    (by simpa using congrArg List.length hfacts : s.store.users.length = 2)
  rw [husers] at hfacts hapart
  simp only [List.map_cons, List.map_nil, List.cons.injEq, Prod.mk.injEq, and_true] at hfacts
  obtain ⟨⟨huid, -, huemail⟩, hvid, hvname, -⟩ := hfacts
  refine hapart v (by simp) u (by simp) ?_ ?_
  · rw [huid, hvid]
    decide
  · rw [hvname, huemail]

end CtfZone.Accounts
