/-
# Verified addresses in every run

The mails, the confirmations and the changes of addresses take turns on the row of an account and
on those of its tokens, so that whatever runs beside each other an address is verified by a token
that was issued for it.

* `WellFormed` : the pending tokens stand, and the verified addresses are proven;
* `Settles` : what becomes of the tokens apart from insertions;
* `promises` : what the requests promise each other; `request_keeps` : and keep;
* `email_verification_sound` : the main result.
-/
import CtfZone.EmailVerification

namespace CtfZone.Verification

open Locking.Program SharedLocks
open Submissions (required_eq_ok)
open Creation (asBytes)
open Locking (Hold)
open Runs
open Slots (at')

variable {p : Platform}

/-! ## Tokens that are settled -/

/-- Tokens with these ids are used, invalidated or deleted, and the others stay. -/
structure Settles (ids : List ℕ) (tokens tokens' : List TokenRow) : Prop where
  stay : ∀ r ∈ tokens, r.id ∉ ids → r ∈ tokens'
  back : ∀ r' ∈ tokens', r' ∈ tokens ∨ r'.pending = false
  nodup : (tokens.map TokenRow.id).Nodup → (tokens'.map TokenRow.id).Nodup
  ids : ∀ r' ∈ tokens', ∃ r ∈ tokens, r.id = r'.id

theorem Settles.refl (tokens : List TokenRow) : Settles [] tokens tokens :=
  ⟨fun _ hr _ => hr, fun _ hr => .inl hr, id, fun r hr => ⟨r, hr, rfl⟩⟩

theorem Settles.trans {ids ids' : List ℕ} {t t' t'' : List TokenRow} (h : Settles ids t t')
    (h' : Settles ids' t' t'') : Settles (ids ++ ids') t t'' := by
  refine ⟨?_, ?_, fun hnodup => h'.nodup (h.nodup hnodup), ?_⟩
  · intro r hr hids
    rw [List.mem_append, not_or] at hids
    exact h'.stay r (h.stay r hr hids.1) hids.2
  · intro r hr
    rcases h'.back r hr with hr | hpending
    · exact h.back r hr
    · exact .inr hpending
  · intro r hr
    obtain ⟨r', hr', hid⟩ := h'.ids r hr
    obtain ⟨r'', hr'', hid'⟩ := h.ids r' hr'
    exact ⟨r'', hr'', hid'.trans hid⟩

/-- An update of pending tokens after which they are not. -/
theorem Settles.update {ids : List ℕ} {tokens : List TokenRow} {f : TokenRow → TokenRow}
    {q : TokenRow → Bool} (hid : ∀ r, (f r).id = r.id) (hf : ∀ r, (f r).pending = false)
    (hq : ∀ r, q r = true → r.id ∈ ids) : Settles ids tokens (Tables.update q f tokens) := by
  refine ⟨?_, ?_, fun hnodup => Tables.nodup_update hnodup hid, ?_⟩
  · intro r hr hids
    refine Tables.mem_update.mpr ⟨r, hr, .inr ⟨?_, rfl⟩⟩
    exact eq_false_of_ne_true fun hqr => hids (hq r hqr)
  · intro r hr
    obtain ⟨r₀, hr₀, ⟨-, rfl⟩ | ⟨-, rfl⟩⟩ := Tables.mem_update.mp hr
    · exact .inr (hf r₀)
    · exact .inl hr₀
  · intro r hr
    obtain ⟨r₀, hr₀, ⟨-, rfl⟩ | ⟨-, rfl⟩⟩ := Tables.mem_update.mp hr
    · exact ⟨r₀, hr₀, (hid r₀).symm⟩
    · exact ⟨r₀, hr₀, rfl⟩

theorem Settles.filter {ids : List ℕ} (tokens : List TokenRow) :
    Settles ids tokens (tokens.filter fun r => ! ids.contains r.id) := by
  refine ⟨?_, ?_, ?_, ?_⟩
  · intro r hr hids
    exact List.mem_filter.mpr ⟨hr, by simpa using hids⟩
  · exact fun r hr => .inl (List.mem_filter.mp hr).1
  · exact fun hnodup => hnodup.sublist (List.filter_sublist.map _)
  · exact fun r hr => ⟨r, (List.mem_filter.mp hr).1, rfl⟩

/-! ## The promises -/

/-- The pending tokens stand, and the verified addresses are proven. -/
structure WellFormed (p : Platform) (t : MailTables) : Prop where
  users : (t.users.map UserRow.id).Nodup
  tokens : (t.tokens.map TokenRow.id).Nodup
  pending : ∀ r ∈ t.tokens, r.pending = true → standing r.userId t.journal = some r
  verified : ∀ u ∈ t.users, u.verified = true →
    ∃ token, provenBy u.id t.journal = some token ∧ u.email = some token.email
  lawful : LawfulJournal p t.journal

/-- What the holder of a lock can rely on: an account is as it was and has no new pending
token, and a token is as it was. -/
def Keep : LockKey → MailTables → MailTables → Prop
  | .user id => fun t t' => (∀ u ∈ t.users, u.id = id → u ∈ t'.users) ∧
    ∀ r ∈ t'.tokens, r.userId = id → r.pending = true → r ∈ t.tokens
  | .token id => fun t t' => ∀ r ∈ t.tokens, r.id = id → r ∈ t'.tokens
  | .tokenHash _ => fun _ _ => True

/-- No row has the id, and none has had it. -/
def Unused : Sequence → ℕ → MailTables → Prop
  | .users, n, t => ∀ u ∈ t.users, u.id ≠ n
  | .tokens, n, t => (∀ r ∈ t.tokens, r.id ≠ n) ∧ ∀ r text, .issued r text ∈ t.journal → r.id ≠ n

/-- What a commit does that has recorded some entries: an address that changes is not verified,
one that comes to be verified is confirmed, and a pending token that is new is issued. -/
structure Recorded (entries : List Entry) (t t' : MailTables) : Prop where
  journal : t'.journal = entries ++ t.journal
  changed : ∀ u ∈ t.users, ∀ u' ∈ t'.users, u'.id = u.id → u'.email ≠ u.email →
    u'.verified = false ∧ .emailChanged u.id ∈ entries
  confirmed : ∀ u ∈ t.users, ∀ u' ∈ t'.users, u'.id = u.id → u'.verified = true →
    u.verified = true ∨ ∃ token presented at', .confirmed token presented at' ∈ entries ∧
      token.userId = u.id
  created : ∀ u' ∈ t'.users, (∃ u ∈ t.users, u'.id = u.id) ∨ u'.verified = false
  issued : ∀ r ∈ t'.tokens, r.pending = true → r ∈ t.tokens ∨ ∃ text, .issued r text ∈ entries

/-- What the requests promise each other. -/
def promises (p : Platform) : Protocol MailTables LockKey Sequence (List Entry) where
  Inv := WellFormed p
  Always t t' := t.journal <:+ t'.journal
  Keep := Keep
  Unused := Unused
  Effect := Recorded
  always_refl _ := List.suffix_rfl
  always_trans h h' := h.trans h'
  keep_refl key t := by
    rcases key with id | id | hash
    · exact ⟨fun _ hu _ => hu, fun _ hr _ _ => hr⟩
    · exact fun _ hr _ => hr
    · trivial
  keep_trans := by
    intro key t t' t'' h h'
    rcases key with id | id | hash
    · refine ⟨fun u hu hid => h'.1 u (h.1 u hu hid) hid, ?_⟩
      intro r hr hid hpending
      exact h.2 r (h'.2 r hr hid hpending) hid hpending
    · exact fun r hr hid => h' r (h r hr hid) hid
    · trivial

/-- What the locks of a transaction allow it to do. -/
structure Allowed (held : List (Hold LockKey Sequence)) (t t' : MailTables) : Prop where
  users : ∀ u ∈ t.users, .lock (.user u.id) ∉ held → u ∈ t'.users
  fresh : ∀ u' ∈ t'.users, (∃ u ∈ t.users, u'.id = u.id) ∨ .number .users u'.id ∈ held
  tokens : ∀ r ∈ t.tokens, .lock (.token r.id) ∉ held → r ∈ t'.tokens
  pending : ∀ r ∈ t'.tokens, r.pending = true → r ∈ t.tokens ∨ .lock (.user r.userId) ∈ held
  ids : ∀ r' ∈ t'.tokens, (∃ r ∈ t.tokens, r.id = r'.id) ∨ .number .tokens r'.id ∈ held
  journal : t.journal <:+ t'.journal
  entries : ∀ r text, .issued r text ∈ t'.journal → .issued r text ∈ t.journal ∨
    .number .tokens r.id ∈ held

/-- What the locks allow keeps the promises. -/
theorem Allowed.guarantee {held : List (Hold LockKey Sequence)} {t t' : MailTables}
    (h : Allowed held t t') (hs : WellFormed p t') : (promises p).Guarantee held t t' := by
  refine ⟨hs, h.journal, ?_⟩
  rintro (key | ⟨q, n⟩) hfree
  · have hlock : .lock key ∉ held := fun hmem => hfree _ hmem (decide_eq_true rfl)
    rcases key with id | id | hash
    · constructor
      · intro u hu hid
        exact h.users u hu (hid ▸ hlock)
      · intro r hr hid hpending
        exact (h.pending r hr hpending).resolve_right (hid ▸ hlock)
    · intro r hr hid
      exact h.tokens r hr (hid ▸ hlock)
    · trivial
  · have hnumber : .number q n ∉ held := fun hmem => hfree _ hmem ⟨rfl, rfl⟩
    rcases q with _ | _
    · intro hunused u' hu' hid
      rcases h.fresh u' hu' with ⟨u, hu, heq⟩ | hmem
      · exact hunused u hu (heq.symm.trans hid)
      · exact hnumber (hid ▸ hmem)
    · rintro ⟨hrows, hentries⟩
      constructor
      · intro r' hr' hid
        rcases h.ids r' hr' with ⟨r, hr, heq⟩ | hmem
        · exact hrows r hr (heq.trans hid)
        · exact hnumber (hid ▸ hmem)
      · intro r text hmem hid
        rcases h.entries r text hmem with hold | hnew
        · exact hentries r text hold hid
        · exact hnumber (hid ▸ hnew)

/-! ## Statements on tokens -/

section Statements

variable {P : Protocol MailTables LockKey Sequence (List Entry)}
  {l : Local MailTables LockKey Sequence}

/-- The pending tokens with these ids are invalidated. -/
def invalidate (ids : List ℕ) (now : Time) (t : MailTables) : MailTables :=
  { t with
    tokens := Tables.update (fun r => ids.contains r.id && r.pending)
      (fun r => { r with invalidatedAt := some now }) t.tokens }

/-- The tokens without those with these ids. -/
def withoutTokens (ids : List ℕ) (t : MailTables) : MailTables :=
  { t with tokens := t.tokens.filter fun r => ! ids.contains r.id }

theorem invalidate_settles (ids : List ℕ) (now : Time) (t : MailTables) :
    Settles ids t.tokens (invalidate ids now t).tokens := by
  apply Settles.update
  · exact fun _ => rfl
  · exact fun r => Bool.and_false _
  · intro r hr
    rw [Bool.and_eq_true] at hr
    simpa using hr.1

/-- What is pending after an invalidation has not been invalidated. -/
theorem pending_invalidate {ids : List ℕ} {now : Time} {t : MailTables} {r : TokenRow}
    (hr : r ∈ (invalidate ids now t).tokens) (hpending : r.pending = true) :
    r ∈ t.tokens ∧ r.id ∉ ids := by
  obtain ⟨r₀, hr₀, ⟨-, rfl⟩ | ⟨hq, rfl⟩⟩ := Tables.mem_update.mp hr
  · simp [TokenRow.pending] at hpending
  · refine ⟨hr₀, fun hid => ?_⟩
    simp [hid, hpending] at hq

/-- The tokens are locked that are invalidated: those that have been pending and have matched. -/
theorem meets_invalidateTokens {condition : TokenRow → Bool} {now : Time}
    {Q : List ℕ → Local MailTables LockKey Sequence → Prop}
    (h : ∀ ids s l', l.After P s →
      (∀ r ∈ (l.pending s).tokens, condition r = true → r.pending = true → r.id ∈ ids) →
      Local.Extends P ⟨l.held, l.pending, s⟩ l' → (∀ id ∈ ids, .lock (.token id) ∈ l'.held) →
      l'.pending = invalidate ids now ∘ l.pending → Q ids l') :
    Meets P (invalidateTokens condition now) l Q := by
  rw [invalidateTokens, meets_bind, meets_select]
  intro s hs
  apply Meets.extends
  rw [meets_bind]
  apply meets_acquireAll hs.inv
  intro l' _ hpending _ hheld
  rw [meets_bind, meets_change, meets_pure]
  intro hext
  refine h _ s _ hs ?_ hext ?_ ?_
  · intro r hr hcondition hr'
    apply List.mem_map_of_mem
    exact List.mem_filter.mpr ⟨hr, by rw [hcondition, hr']; rfl⟩
  · intro id hid
    exact hheld _ (List.mem_map_of_mem hid)
  · rw [hpending]
    rfl

/-- The tokens are locked that are deleted. -/
theorem meets_deleteTokens {candidates : List TokenRow → List TokenRow}
    {Q : Unit → Local MailTables LockKey Sequence → Prop}
    (h : ∀ ids l', l.Extends P l' → (∀ id ∈ ids, .lock (.token id) ∈ l'.held) →
      l'.pending = withoutTokens ids ∘ l.pending → Q ⟨⟩ l') :
    Meets P (deleteTokens candidates) l Q := by
  apply Meets.extends
  rw [deleteTokens, meets_bind, meets_select]
  intro s hs
  rw [meets_bind]
  apply meets_acquireAll hs.inv
  intro l' _ hpending _ hheld
  rw [meets_change]
  intro hext
  refine h ((candidates (l.pending s).tokens).map TokenRow.id) _ hext ?_ ?_
  · intro id hid
    exact hheld _ (List.mem_map_of_mem hid)
  · rw [hpending]
    rfl

end Statements

/-- A request keeps its promises, whatever the others do between its statements. -/
def Keeps (p : Platform) (x : Transaction (List Entry)) : Prop :=
  ∀ s, WellFormed p s →
    Meets (promises p) x ⟨[], id, s⟩ fun entries l => l.Commits (promises p) entries

/-! ## Requests that issue nothing -/

/-- A change of the tokens that settles some of them, with what is recorded. -/
theorem Allowed.settles {held : List (Hold LockKey Sequence)} {t t' : MailTables} {ids : List ℕ}
    {entries : List Entry} (hsettles : Settles ids t.tokens t'.tokens)
    (hids : ∀ id ∈ ids, .lock (.token id) ∈ held)
    (husers : ∀ u ∈ t.users, .lock (.user u.id) ∉ held → u ∈ t'.users)
    (hfresh : ∀ u' ∈ t'.users, (∃ u ∈ t.users, u'.id = u.id) ∨ .number .users u'.id ∈ held)
    (hjournal : t'.journal = entries ++ t.journal)
    (hentries : ∀ r text, .issued r text ∉ entries) : Allowed held t t' := by
  refine ⟨husers, hfresh, ?_, ?_, ?_, ?_, ?_⟩
  · intro r hr hlock
    exact hsettles.stay r hr fun hid => hlock (hids _ hid)
  · intro r hr hpending
    rcases hsettles.back r hr with hr | hfalse
    · exact .inl hr
    · rw [hpending] at hfalse
      cases hfalse
  · exact fun r hr => .inl (hsettles.ids r hr)
  · rw [hjournal]
    exact List.suffix_append _ _
  · intro r text hmem
    rw [hjournal] at hmem
    rcases List.mem_append.mp hmem with hnew | hold
    · exact absurd hnew (hentries r text)
    · exact .inl hold

/-- A pending token that is left has been there. -/
theorem Settles.pending {ids : List ℕ} {tokens tokens' : List TokenRow}
    (h : Settles ids tokens tokens') {r : TokenRow} (hr : r ∈ tokens') (hpending : r.pending = true) :
    r ∈ tokens := by
  rcases h.back r hr with hr | hfalse
  · exact hr
  · rw [hpending] at hfalse
    cases hfalse

/-- The rows with one id are one row. -/
theorem eq_of_id {users : List UserRow} (h : (users.map UserRow.id).Nodup) {u u' : UserRow}
    (hu : u ∈ users) (hu' : u' ∈ users) (hid : u'.id = u.id) : u' = u :=
  List.inj_on_of_nodup_map h hu' hu hid

/-- What is recorded where the accounts stay as they are. -/
theorem Recorded.same {entries : List Entry} {t t' : MailTables} (hs : WellFormed p t)
    (husers : t'.users = t.users) (hjournal : t'.journal = entries ++ t.journal)
    (hissued : ∀ r ∈ t'.tokens, r.pending = true → r ∈ t.tokens ∨ ∃ text, .issued r text ∈ entries) :
    Recorded entries t t' := by
  have hsame : ∀ u ∈ t.users, ∀ u' ∈ t'.users, u'.id = u.id → u' = u := by
    intro u hu u' hu' hid
    rw [husers] at hu'
    exact eq_of_id hs.users hu hu' hid
  refine ⟨hjournal, ?_, ?_, ?_, hissued⟩
  · intro u hu u' hu' hid hne
    exact absurd (congrArg UserRow.email (hsame u hu u' hu' hid)) hne
  · intro u hu u' hu' hid hverified
    obtain rfl := hsame u hu u' hu' hid
    exact .inl hverified
  · intro u' hu'
    rw [husers] at hu'
    exact .inl ⟨u', hu', rfl⟩

/-- Mails that could not be sent. -/
theorem invalidateUndelivered_keeps (tokenHash : List UInt8) (now : Time) :
    Keeps p (invalidateUndelivered tokenHash now) := by
  intro s hs
  rw [invalidateUndelivered, meets_bind]
  apply meets_invalidateTokens
  rintro ids s₁ ⟨held, pending, s₂⟩ - - - hheld rfl
  intro t ht
  have hs : WellFormed p t := ht.inv
  have hset := invalidate_settles ids now t
  refine ⟨.same hs rfl rfl fun r hr hpending => .inl (hset.pending hr hpending),
    Allowed.guarantee (.settles hset hheld (fun u hu _ => hu) (fun u hu => .inl ⟨u, hu, rfl⟩) rfl
      ?_) ⟨hs.users, hset.nodup hs.tokens, ?_, hs.verified, trivial, hs.lawful⟩⟩
  · simp
  · intro r hr hpending
    obtain ⟨hr, hid⟩ := pending_invalidate hr hpending
    refine Option.filter_eq_some_iff.mpr ⟨hs.pending r hr hpending, ?_⟩
    simpa using hid

/-- An account that is inserted is not verified. -/
theorem insertUser_keeps (email : String) : Keeps p (insertUser email) := by
  intro s hs
  simp only [insertUser, record, meets_bind, meets_nextval, meets_change, meets_pure]
  intro s₁ n _ hunused t ht
  have hs : WellFormed p t := ht.inv
  have hnew : Unused .users n t := ht.rely.respects _ List.mem_cons_self hunused
  have hold : ∀ u' ∈ t.users ++ [⟨n, some email, newAccountEmailVerified⟩],
      u' ∈ t.users ∨ u' = ⟨n, some email, false⟩ := by
    intro u' hu'
    rcases List.mem_append.mp hu' with hu' | hu'
    · exact .inl hu'
    · exact .inr (List.mem_singleton.mp hu')
  refine ⟨⟨rfl, ?_, ?_, ?_, fun r hr _ => .inl hr⟩, Allowed.guarantee (.settles (.refl t.tokens)
    (fun _ h => absurd h List.not_mem_nil) (fun u hu _ => List.mem_append_left _ hu) ?_ rfl
    (fun _ _ h => absurd h List.not_mem_nil))
    ⟨?_, hs.tokens, hs.pending, ?_, hs.lawful⟩⟩
  · intro u hu u' hu' hid hne
    rcases hold u' hu' with hu' | rfl
    · exact absurd (congrArg UserRow.email (eq_of_id hs.users hu hu' hid)) hne
    · exact absurd hid.symm (hnew u hu)
  · intro u hu u' hu' hid hverified
    rcases hold u' hu' with hu' | rfl
    · rw [← eq_of_id hs.users hu hu' hid]
      exact .inl hverified
    · cases hverified
  · intro u' hu'
    rcases hold u' hu' with hu' | rfl
    · exact .inl ⟨u', hu', rfl⟩
    · exact .inr rfl
  · intro u' hu'
    rcases hold u' hu' with hu' | rfl
    · exact .inl ⟨u', hu', rfl⟩
    · exact .inr List.mem_cons_self
  · show ((t.users ++ [_]).map UserRow.id).Nodup
    rw [List.map_append, List.nodup_append]
    refine ⟨hs.users, List.nodup_singleton _, ?_⟩
    intro id hid id' hid' heq
    obtain ⟨u, hu, rfl⟩ := List.mem_map.mp hid
    exact hnew u hu (heq.trans (List.mem_singleton.mp hid'))
  · intro u' hu' hverified
    rcases hold u' hu' with hu' | rfl
    · exact hs.verified u' hu' hverified
    · cases hverified

/-- An account that is deleted. -/
theorem deleteUser_keeps (userId : ℕ) : Keeps p (deleteUser userId) := by
  intro s hs
  rw [deleteUser, meets_bind, meets_acquire]
  intro s₁ _
  rw [meets_bind]
  apply meets_deleteTokens
  rintro ids ⟨held, pending, s₂⟩ hext hheld rfl
  intro t ht
  have hs : WellFormed p t := ht.inv
  have hset : Settles ids t.tokens (t.tokens.filter fun r => ! ids.contains r.id) := .filter t.tokens
  have hold : ∀ u ∈ t.users.filter (·.id ≠ userId), u ∈ t.users :=
    fun u hu => (List.mem_filter.mp hu).1
  refine ⟨⟨rfl, ?_, ?_, ?_, ?_⟩, Allowed.guarantee (.settles hset hheld ?_ ?_ rfl nofun)
    ⟨?_, hset.nodup hs.tokens, ?_, ?_, hs.lawful⟩⟩
  · intro u hu u' hu' hid hne
    exact absurd (congrArg UserRow.email (eq_of_id hs.users hu (hold u' hu') hid)) hne
  · intro u hu u' hu' hid hverified
    rw [← eq_of_id hs.users hu (hold u' hu') hid]
    exact .inl hverified
  · exact fun u hu => .inl ⟨u, hold u hu, rfl⟩
  · exact fun r hr hpending => .inl (hset.pending hr hpending)
  · intro u hu hlock
    refine List.mem_filter.mpr ⟨hu, decide_eq_true ?_⟩
    rintro rfl
    exact hlock (hext.held _ List.mem_cons_self)
  · exact fun u hu => .inl ⟨u, hold u hu, rfl⟩
  · exact hs.users.sublist (List.filter_sublist.map _)
  · exact fun r hr hpending => hs.pending r (hset.pending hr hpending) hpending
  · exact fun u hu hverified => hs.verified u (hold u hu) hverified

/-! ## Addresses that change -/

theorem user_eq_some {t : MailTables} {id : ℕ} {u : UserRow} (h : t.user id = some u) :
    u ∈ t.users ∧ u.id = id :=
  ⟨List.mem_of_find?_eq_some h, by simpa using List.find?_some h⟩

theorem token_eq_some {t : MailTables} {id : ℕ} {r : TokenRow} (h : t.token id = some r) :
    r ∈ t.tokens ∧ r.id = id :=
  ⟨List.mem_of_find?_eq_some h, by simpa using List.find?_some h⟩

/-- What becomes of an account when a row is updated. -/
theorem updated_row {t : MailTables} (hs : WellFormed p t) {q : UserRow → Bool}
    {f : UserRow → UserRow} (hf : ∀ u, (f u).id = u.id) {u u' : UserRow} (hu : u ∈ t.users)
    (hu' : u' ∈ Tables.update q f t.users) (hid : u'.id = u.id) :
    q u = false ∧ u' = u ∨ q u = true ∧ u' = f u := Tables.updated hs.users hf hu hu' hid

/-- Every row of an updated table comes from one. -/
theorem row_before {users : List UserRow} {q : UserRow → Bool} {f : UserRow → UserRow}
    (hf : ∀ u, (f u).id = u.id) {u' : UserRow} (hu' : u' ∈ Tables.update q f users) :
    ∃ u ∈ users, u'.id = u.id := by
  obtain ⟨u, hu, ⟨-, rfl⟩ | ⟨-, rfl⟩⟩ := Tables.mem_update.mp hu'
  · exact ⟨u, hu, hf u⟩
  · exact ⟨u, hu, rfl⟩

/-- A row that is not locked is not updated. -/
theorem row_stays {users : List UserRow} {held : List (Hold LockKey Sequence)} {userId : ℕ}
    {q : UserRow → Bool} {f : UserRow → UserRow} (hlock : .lock (.user userId) ∈ held)
    (hq : ∀ u, q u = true → u.id = userId) {u : UserRow} (hu : u ∈ users)
    (hfree : .lock (.user u.id) ∉ held) : u ∈ Tables.update q f users := by
  refine Tables.mem_update.mpr ⟨u, hu, .inr ⟨?_, rfl⟩⟩
  refine eq_false_of_ne_true fun hqu => hfree ?_
  rw [hq u hqu]
  exact hlock

theorem setEmail_id (email : Option String) (u : UserRow) : (setEmail email u).id = u.id := rfl

/-- An address that changes: the pending tokens of the account are invalidated. -/
theorem changed_commits {userId : ℕ} {email : Option String} {previous : UserRow}
    {held : List (Hold LockKey Sequence)} {ids : List ℕ} {now : Time} {t t' : MailTables}
    (hs : WellFormed p t) (hprevious : previous ∈ t.users) (hid : previous.id = userId)
    (hemail : email.isSome = true ∧ previous.email ≠ email)
    (hlock : .lock (.user userId) ∈ held) (hheld : ∀ id ∈ ids, .lock (.token id) ∈ held)
    (hpending : ∀ r ∈ t.tokens, r.userId = userId → r.pending = true → r.id ∈ ids)
    (husers : t'.users = Tables.update (·.id = userId) (setEmail email) t.users)
    (htokens : t'.tokens = (invalidate ids now t).tokens)
    (hjournal : t'.journal = [.emailChanged userId] ++ t.journal) :
    Recorded [.emailChanged userId] t t' ∧ (promises p).Guarantee held t t' := by
  have hset : Settles ids t.tokens t'.tokens := htokens ▸ invalidate_settles ids now t
  -- the row that is written is not verified
  have hrow : ∀ u ∈ t.users, ∀ u' ∈ t'.users, u'.id = u.id →
      u.id ≠ userId ∧ u' = u ∨ u.id = userId ∧ u'.verified = false := by
    intro u hu u' hu' heq
    rw [husers] at hu'
    rcases updated_row hs (setEmail_id email) hu hu' heq with ⟨hq, rfl⟩ | ⟨hq, rfl⟩
    · exact .inl ⟨of_decide_eq_false hq, rfl⟩
    · refine .inr ⟨of_decide_eq_true hq, ?_⟩
      obtain rfl := eq_of_id hs.users hprevious hu ((of_decide_eq_true hq).trans hid.symm)
      have hne : email ≠ u.email := hemail.2.symm
      simp [setEmail, hemail.1, hne]
  have hbefore : ∀ u' ∈ t'.users, ∃ u ∈ t.users, u'.id = u.id := by
    intro u' hu'
    rw [husers] at hu'
    exact row_before (setEmail_id email) hu'
  constructor
  · refine ⟨hjournal, ?_, ?_, fun u' hu' => .inl (hbefore u' hu'), ?_⟩
    · intro u hu u' hu' heq hne
      rcases hrow u hu u' hu' heq with ⟨-, rfl⟩ | ⟨rfl, hfalse⟩
      · exact absurd rfl hne
      · exact ⟨hfalse, List.mem_singleton_self _⟩
    · intro u hu u' hu' heq hverified
      rcases hrow u hu u' hu' heq with ⟨-, rfl⟩ | ⟨-, hfalse⟩
      · exact .inl hverified
      · rw [hverified] at hfalse
        cases hfalse
    · exact fun r hr hpending => .inl (hset.pending hr hpending)
  · apply Allowed.guarantee
    · refine .settles hset hheld ?_ (fun u' hu' => .inl (hbefore u' hu')) hjournal (by simp)
      intro u hu hfree
      rw [husers]
      exact row_stays hlock (fun u hq => of_decide_eq_true hq) hu hfree
    · refine ⟨?_, hset.nodup hs.tokens, ?_, ?_, ?_⟩
      · rw [husers]
        exact Tables.nodup_update hs.users (setEmail_id email)
      · intro r hr hr'
        rw [htokens] at hr
        obtain ⟨hr, hfree⟩ := pending_invalidate hr hr'
        have hne : userId ≠ r.userId := fun heq => hfree (hpending r hr heq.symm hr')
        rw [hjournal]
        exact (if_neg hne).trans (hs.pending r hr hr')
      · intro u' hu' hverified
        obtain ⟨u, hu, heq⟩ := hbefore u' hu'
        rcases hrow u hu u' hu' heq with ⟨hne, rfl⟩ | ⟨-, hfalse⟩
        · obtain ⟨token, hproven, htoken⟩ := hs.verified u' hu hverified
          rw [hjournal]
          exact ⟨token, (if_neg hne.symm).trans hproven, htoken⟩
        · rw [hverified] at hfalse
          cases hfalse
      · rw [hjournal]
        exact ⟨trivial, hs.lawful⟩

/-- An account that is updated. -/
theorem updateUser_keeps (userId : ℕ) (email : Option String) (now : Time) :
    Keeps p (updateUser userId email now) := by
  intro s hs
  simp only [updateUser, meets_bind, meets_acquire, meets_fetchOne, meets_change]
  intro s₁ _ s₂ h₂ previous hprevious
  obtain ⟨hmem, hid⟩ := user_eq_some hprevious
  split
  · rename_i hchanged
    rw [meets_bind]
    apply meets_invalidateTokens
    rintro ids s₃ ⟨held, pending, s₄⟩ h₃ hids hext hheld rfl
    intro t ht
    -- since the tokens were read the account has had no new ones
    have hlock := hext.held _ List.mem_cons_self
    have h₃t : Local.After (promises p) ⟨[.lock (.user userId)], id, s₃⟩ t :=
      (hext.after t ht.written).written
    have htokens : Keep (.user userId) s₃ t := h₃t.rely.respects _ List.mem_cons_self
    have h₂t : Local.After (promises p) ⟨[.lock (.user userId)], id, s₂⟩ t := h₃.written.since h₃t
    have hrow : Keep (.user userId) s₂ t := h₂t.rely.respects _ List.mem_cons_self
    rw [Bool.and_eq_true, decide_eq_true_eq] at hchanged
    refine changed_commits ht.inv (hrow.1 previous hmem hid) hid hchanged hlock hheld ?_ rfl rfl rfl
    intro r hr hr' hpending
    exact hids r (htokens.2 r hr hr' hpending) (decide_eq_true hr') hpending
  · rename_i hsame
    intro t ht
    have hs : WellFormed p t := ht.inv
    have hrow : Keep (.user userId) s₂ t := ht.rely.respects _ List.mem_cons_self
    have hself : ∀ u ∈ t.users, decide (u.id = userId) = true → setEmail email u = u := by
      intro u hu hu'
      obtain rfl := eq_of_id hs.users (hrow.1 previous hmem hid) hu
        ((of_decide_eq_true hu').trans hid.symm)
      rcases email with _ | email
      · simp [setEmail]
      · have heq : u.email = some email := by simpa using hsame
        simp [setEmail, ← heq]
    show Recorded [] t { t with users := Tables.update (·.id = userId) (setEmail email) t.users } ∧
      (promises p).Guarantee [.lock (.user userId)] t
        { t with users := Tables.update (·.id = userId) (setEmail email) t.users }
    rw [Tables.update_eq_self hself]
    exact ⟨.same hs rfl rfl fun r hr _ => .inl hr, .refl hs⟩

/-! ## Confirmations -/

/-- The pending token with an id is used. -/
def useToken (tokenId : ℕ) (consumedAt : Time) (t : MailTables) : MailTables :=
  { t with
    tokens := Tables.update (fun r => r.id = tokenId && r.pending)
      (fun r => { r with usedAt := some consumedAt }) t.tokens }

theorem useToken_settles (tokenId : ℕ) (consumedAt : Time) (t : MailTables) :
    Settles [tokenId] t.tokens (useToken tokenId consumedAt t).tokens := by
  apply Settles.update
  · exact fun _ => rfl
  · exact fun r => Bool.false_and _
  · intro r hr
    rw [Bool.and_eq_true, decide_eq_true_eq] at hr
    exact List.mem_singleton.mpr hr.1

/-- What is pending beside a token that is used. -/
theorem pending_useToken {tokenId : ℕ} {consumedAt : Time} {t : MailTables} {r : TokenRow}
    (hr : r ∈ (useToken tokenId consumedAt t).tokens) (hpending : r.pending = true) :
    r ∈ t.tokens ∧ r.id ≠ tokenId := by
  obtain ⟨r₀, hr₀, ⟨-, rfl⟩ | ⟨hq, rfl⟩⟩ := Tables.mem_update.mp hr
  · simp [TokenRow.pending] at hpending
  · refine ⟨hr₀, fun hid => ?_⟩
    simp [hid, hpending] at hq

/-- Another token stays. -/
theorem mem_useToken {tokenId : ℕ} {consumedAt : Time} {t : MailTables} {r : TokenRow}
    (hr : r ∈ t.tokens) (hid : r.id ≠ tokenId) : r ∈ (useToken tokenId consumedAt t).tokens :=
  (useToken_settles tokenId consumedAt t).stay r hr fun hmem => hid (List.mem_singleton.mp hmem)

/-- The address of an account is verified, if it is the one of the token. -/
def verifyEmail (token : TokenRow) (t : MailTables) : MailTables :=
  { t with
    users := Tables.update (fun u => u.id = token.userId && u.email = some token.email)
      (fun u => { u with verified := true }) t.users }

/-- An account whose address is verified. -/
def verifiedRow (u : UserRow) : UserRow := { u with verified := true }

theorem verifiedRow_id (u : UserRow) : (verifiedRow u).id = u.id := rfl

/-- A token that is confirmed: it is used, the address is verified, and the other tokens of the
account are invalidated. -/
theorem confirmed_commits {token : TokenRow} {owner : UserRow} {presented : String}
    {consumedAt now : Time} {held : List (Hold LockKey Sequence)} {ids : List ℕ} {t t' : MailTables}
    (hs : WellFormed p t) (htoken : token ∈ t.tokens) (hpending : token.pending = true)
    (howner : owner ∈ t.users) (hid : owner.id = token.userId)
    (hemail : owner.email = some token.email)
    (hhash : verificationTokenHash p presented = some token.tokenHash)
    (htime : token.createdAt ≤ consumedAt ∧ consumedAt < token.expiresAt)
    (huser : .lock (.user token.userId) ∈ held) (hlock : .lock (.token token.id) ∈ held)
    (hheld : ∀ id ∈ ids, .lock (.token id) ∈ held)
    (hothers : ∀ r ∈ t.tokens, r.userId = token.userId → r.id ≠ token.id → r.pending = true →
      r.id ∈ ids)
    (husers : t'.users = (verifyEmail token t).users)
    (htokens : t'.tokens = (invalidate ids now (useToken token.id consumedAt t)).tokens)
    (hjournal : t'.journal = [.confirmed token presented consumedAt] ++ t.journal) :
    Recorded [.confirmed token presented consumedAt] t t' ∧
      (promises p).Guarantee held t t' := by
  have hset : Settles ([token.id] ++ ids) t.tokens t'.tokens :=
    htokens ▸ (useToken_settles token.id consumedAt t).trans (invalidate_settles ids now _)
  have hrow : ∀ u ∈ t.users, ∀ u' ∈ t'.users, u'.id = u.id →
      u'.email = u.email ∧ (u'.verified = true → u.verified = true ∨ u.id = token.userId) := by
    intro u hu u' hu' heq
    rw [husers] at hu'
    rcases updated_row hs verifiedRow_id hu hu' heq with ⟨-, rfl⟩ | ⟨hq, rfl⟩
    · exact ⟨rfl, .inl⟩
    · rw [Bool.and_eq_true, decide_eq_true_eq] at hq
      exact ⟨rfl, fun _ => .inr hq.1⟩
  have hbefore : ∀ u' ∈ t'.users, ∃ u ∈ t.users, u'.id = u.id := by
    intro u' hu'
    rw [husers] at hu'
    exact row_before verifiedRow_id hu'
  constructor
  · refine ⟨hjournal, ?_, ?_, fun u' hu' => .inl (hbefore u' hu'), ?_⟩
    · intro u hu u' hu' heq hne
      exact absurd (hrow u hu u' hu' heq).1 hne
    · intro u hu u' hu' heq hverified
      rcases (hrow u hu u' hu' heq).2 hverified with hold | huser
      · exact .inl hold
      · exact .inr ⟨token, presented, consumedAt, List.mem_singleton_self _, huser.symm⟩
    · exact fun r hr hpending => .inl (hset.pending hr hpending)
  · apply Allowed.guarantee
    · refine .settles hset ?_ ?_ (fun u' hu' => .inl (hbefore u' hu')) hjournal (by simp)
      · intro id hid
        rcases List.mem_append.mp hid with hid | hid
        · rwa [List.mem_singleton.mp hid]
        · exact hheld id hid
      · intro u hu hfree
        rw [husers]
        refine row_stays huser (fun u hq => ?_) hu hfree
        rw [Bool.and_eq_true, decide_eq_true_eq] at hq
        exact hq.1
    · refine ⟨?_, hset.nodup hs.tokens, ?_, ?_, ?_⟩
      · rw [husers]
        exact Tables.nodup_update hs.users verifiedRow_id
      · intro r hr hr'
        rw [htokens] at hr
        obtain ⟨hr, hfree⟩ := pending_invalidate hr hr'
        obtain ⟨hr, hne⟩ := pending_useToken hr hr'
        have huser : token.userId ≠ r.userId :=
          fun heq => hfree (hothers r hr heq.symm hne hr')
        rw [hjournal]
        exact (if_neg huser).trans (hs.pending r hr hr')
      · intro u' hu' hverified
        rw [hjournal]
        obtain ⟨u, hu, heq⟩ := hbefore u' hu'
        obtain ⟨hsame, hold⟩ := hrow u hu u' hu' heq
        by_cases huser : token.userId = u'.id
        · -- the account has the address of the token
          obtain rfl := eq_of_id hs.users howner hu (heq.symm.trans (huser.symm.trans hid.symm))
          exact ⟨token, if_pos huser, hsame.trans hemail⟩
        · have hverified := (hold hverified).resolve_right fun h => huser (h.symm.trans heq.symm)
          obtain ⟨other, hproven, hother⟩ := hs.verified u hu hverified
          rw [← heq] at hproven
          exact ⟨other, (if_neg huser).trans hproven, hsame.trans hother⟩
      · rw [hjournal]
        exact ⟨⟨hs.pending token htoken hpending, hhash, htime⟩, hs.lawful⟩

/-- A token that is presented. -/
theorem confirmEmail_keeps (text : String) (now consumedAt : Time) :
    Keeps p (confirmEmail p text now consumedAt) := by
  intro s hs
  simp only [confirmEmail, meets_bind, meets_liftExcept, required_eq_ok, meets_acquire,
    meets_fetchOne, meets_check, meets_change, meets_select]
  intro tokenHash hhash s₁ _ tokenOwner _ s₂ _ s₃ h₃ currentEmail hcurrent s₄ h₄ found _ s₅ h₅ s₆ h₆
    token htoken hmatches htime s₇ h₇ _ s₈ h₈ _
  apply meets_invalidateTokens
  rintro ids s₉ ⟨held, pending, s₁₀⟩ h₉ hids hext hheld rfl
  intro t ht
  simp only [Bool.and_eq_true, decide_eq_true_eq] at hmatches htime
  obtain ⟨⟨⟨rfl, rfl⟩, rfl⟩, hpending⟩ := hmatches
  obtain ⟨owner, howner, hemail⟩ := Option.bind_eq_some_iff.mp hcurrent
  obtain ⟨howner, hid⟩ := user_eq_some howner
  obtain ⟨htoken, htokenId⟩ := token_eq_some htoken
  -- the account is locked since `s₃`, and the token since `s₆`
  have hboth : ∀ {s t : MailTables} {f : MailTables → MailTables}, Local.After (promises p)
      ⟨[.lock (.token found.id), .lock (.user token.userId)], f, s⟩ t → Local.After (promises p)
      ⟨[.lock (.token found.id), .lock (.user token.userId)], id, s⟩ t := Local.After.written
  have h₉t := hboth (hext.after t ht.written)
  have h₆t := (hboth h₇).since ((hboth h₈).since ((hboth h₉).since h₉t))
  have h₃t : Local.After (promises p) ⟨[.lock (.user token.userId)], id, s₃⟩ t :=
    h₄.since (h₅.before (h₆.since h₆t))
  have hrow : Keep (.user token.userId) s₃ t := h₃t.rely.respects _ List.mem_cons_self
  have htokenRow : Keep (.token found.id) s₆ t := h₆t.rely.respects _ List.mem_cons_self
  have hnew : Keep (.user token.userId) s₉ t :=
    h₉t.rely.respects _ (List.mem_cons_of_mem _ List.mem_cons_self)
  refine confirmed_commits ht.inv (htokenRow token htoken htokenId) hpending (hrow.1 owner howner hid)
    hid hemail hhash htime (hext.held _ (List.mem_cons_of_mem _ List.mem_cons_self)) ?_ hheld ?_
    rfl rfl rfl
  · rw [htokenId]
    exact hext.held _ List.mem_cons_self
  · intro r hr huser hne hr'
    refine hids r (mem_useToken (hnew.2 r hr huser hr') hne) ?_ hr'
    rw [Bool.and_eq_true, decide_eq_true_eq, decide_eq_true_eq]
    exact ⟨huser, hne⟩

/-! ## Tokens that are issued -/

/-- A token that is issued: some are cleaned up, and the pending ones of the account are
invalidated. -/
theorem issued_commits {token : TokenRow} {text : String} {now : Time}
    {held : List (Hold LockKey Sequence)} {ids ids' : List ℕ} {t t' : MailTables}
    (hs : WellFormed p t) (hpending : token.pending = true)
    (hhash : verificationTokenHash p text = some token.tokenHash)
    (htime : token.createdAt < token.expiresAt) (hunused : Unused .tokens token.id t)
    (huser : .lock (.user token.userId) ∈ held) (hnumber : .number .tokens token.id ∈ held)
    (hheld : ∀ id ∈ ids, .lock (.token id) ∈ held)
    (hheld' : ∀ id ∈ ids', .lock (.token id) ∈ held)
    (hothers : ∀ r ∈ (withoutTokens ids t).tokens, r.userId = token.userId → r.pending = true →
      r.id ∈ ids')
    (husers : t'.users = t.users)
    (htokens : t'.tokens = (invalidate ids' now (withoutTokens ids t)).tokens ++ [token])
    (hjournal : t'.journal = [.issued token text] ++ t.journal) :
    Recorded [.issued token text] t t' ∧ (promises p).Guarantee held t t' := by
  have hset : Settles (ids ++ ids') t.tokens (invalidate ids' now (withoutTokens ids t)).tokens :=
    (Settles.filter t.tokens).trans (invalidate_settles ids' now (withoutTokens ids t))
  have hmem : ∀ r ∈ t'.tokens, r ∈ (invalidate ids' now (withoutTokens ids t)).tokens ∨
      r = token := by
    intro r hr
    rw [htokens] at hr
    rcases List.mem_append.mp hr with hr | hr
    · exact .inl hr
    · exact .inr (List.mem_singleton.mp hr)
  constructor
  · refine .same hs husers hjournal ?_
    intro r hr hr'
    rcases hmem r hr with hr | rfl
    · exact .inl (hset.pending hr hr')
    · exact .inr ⟨text, List.mem_singleton_self _⟩
  · apply Allowed.guarantee
    · refine ⟨?_, ?_, ?_, ?_, ?_, ?_, ?_⟩
      · intro u hu _
        rwa [husers]
      · intro u hu
        rw [husers] at hu
        exact .inl ⟨u, hu, rfl⟩
      · intro r hr hfree
        rw [htokens]
        refine List.mem_append_left _ (hset.stay r hr fun hid => hfree ?_)
        rcases List.mem_append.mp hid with hid | hid
        · exact hheld r.id hid
        · exact hheld' r.id hid
      · intro r hr hr'
        rcases hmem r hr with hr | rfl
        · exact .inl (hset.pending hr hr')
        · exact .inr huser
      · intro r hr
        rcases hmem r hr with hr | rfl
        · exact .inl (hset.ids r hr)
        · exact .inr hnumber
      · rw [hjournal]
        exact List.suffix_append _ _
      · intro r text' hr
        rw [hjournal] at hr
        rcases List.mem_cons.mp hr with heq | hr
        · cases heq
          exact .inr hnumber
        · exact .inl hr
    · refine ⟨by rw [husers]; exact hs.users, ?_, ?_, ?_, ?_⟩
      · rw [htokens, List.map_append, List.nodup_append]
        refine ⟨hset.nodup hs.tokens, List.nodup_singleton _, ?_⟩
        intro id hid id' hid' heq
        obtain ⟨r', hr', rfl⟩ := List.mem_map.mp hid
        obtain ⟨r, hr, hrid⟩ := hset.ids r' hr'
        exact hunused.1 r hr (hrid.trans (heq.trans (List.mem_singleton.mp hid')))
      · intro r hr hr'
        rw [hjournal]
        rcases hmem r hr with hr | rfl
        · obtain ⟨hr, hfree⟩ := pending_invalidate hr hr'
          have hne : token.userId ≠ r.userId := fun heq => hfree (hothers r hr heq.symm hr')
          exact (if_neg hne).trans (hs.pending r (List.mem_filter.mp hr).1 hr')
        · exact if_pos rfl
      · intro u hu hverified
        rw [husers] at hu
        rw [hjournal]
        exact hs.verified u hu hverified
      · rw [hjournal]
        exact ⟨⟨hhash, htime, hunused.2⟩, hs.lawful⟩

/-- A token that is sent. -/
theorem sendSelfVerificationEmail_keeps (userId : ℕ) (requestIp : String) (random : List UInt8)
    (now clock : Time) :
    Keeps p (sendSelfVerificationEmail p userId requestIp random now clock) := by
  intro s hs
  rw [sendSelfVerificationEmail, meets_bind]
  apply meets_deleteTokens
  rintro ids ⟨held, pending, s₁⟩ - hheld rfl
  simp only [meets_bind, meets_acquire, meets_fetchOne, meets_liftExcept, meets_check,
    meets_select, required_eq_ok]
  intro s₂ _ s₃ _ target _ recipient _ _ s₄ _ s₅ _ _ tokenHash hhash
  apply meets_invalidateTokens
  rintro ids' s₆ ⟨held', pending', s₇⟩ - hids hext hheld' rfl
  simp only [meets_nextval, meets_change]
  intro s₈ n h₈ hunused s₉ h₉ s₁₀ h₁₀ hfresh t ht
  rw [Bool.and_eq_true, decide_eq_true_eq] at hfresh
  -- the id is kept since it was drawn, and the account is locked all the time
  have h₁₀t : Local.After (promises p)
      ⟨.lock (.tokenHash tokenHash) :: .number .tokens n :: held', id, s₁₀⟩ t := ht.written
  have h₈t := h₉.before (h₁₀.since h₁₀t)
  have hnew : Unused .tokens n t := h₈t.rely.respects _ List.mem_cons_self hunused
  have h₆t : Local.After (promises p) ⟨.lock (.user userId) :: held, id, s₆⟩ t :=
    (hext.after t (h₈.before h₈t)).written
  have hkeep : Keep (.user userId) s₆ t := h₆t.rely.respects _ List.mem_cons_self
  have hmore : ∀ h ∈ held', h ∈ Hold.lock (LockKey.tokenHash tokenHash) ::
      Hold.number Sequence.tokens n :: held' :=
    fun h hh => List.mem_cons_of_mem _ (List.mem_cons_of_mem _ hh)
  have hbefore : ∀ h ∈ Hold.lock (LockKey.user userId) :: held, h ∈ held' := hext.held
  refine issued_commits ht.inv rfl hhash hfresh.2 hnew (hmore _ (hbefore _ List.mem_cons_self))
    (List.mem_cons_of_mem _ List.mem_cons_self) ?_ (fun id hid => hmore _ (hheld' id hid)) ?_
    rfl rfl rfl
  · exact fun id hid => hmore _ (hbefore _ (List.mem_cons_of_mem _ (hheld id hid)))
  · intro r hr huser hpending
    obtain ⟨hr, hid⟩ := List.mem_filter.mp hr
    refine hids r (List.mem_filter.mpr ⟨hkeep.2 r hr huser hpending, hid⟩) ?_ hpending
    exact decide_eq_true huser

/-! ## Every run -/

/-- Every request keeps its promises. -/
theorem request_keeps (r : Request) : Keeps p (r.transaction p) := by
  cases r with
  | sendVerification userId requestIp random now clock =>
      exact sendSelfVerificationEmail_keeps userId requestIp random now clock
  | undelivered tokenHash now => exact invalidateUndelivered_keeps tokenHash now
  | confirm text now consumedAt => exact confirmEmail_keeps text now consumedAt
  | updateUser userId email now => exact updateUser_keeps userId email now
  | insertUser email => exact insertUser_keeps email
  | deleteUser userId => exact deleteUser_keeps userId

theorem Initial.sound {s : Service} (h : Initial s) : (promises p).Sound s := by
  apply Protocol.Sound.idle
  · refine ⟨?_, ?_, ?_, ?_, ?_⟩
    · rw [h.users]
      exact List.nodup_nil
    · rw [h.tokens]
      exact List.nodup_nil
    · intro r hr
      rw [h.tokens] at hr
      cases hr
    · intro u hu
      rw [h.users] at hu
      cases hu
    · rw [h.journal]
      trivial
  · intro q n _
    rcases q with _ | _
    · intro u hu
      rw [h.users] at hu
      cases hu
    · constructor
      · intro r hr
        rw [h.tokens] at hr
        cases hr
      · intro r text hr
        rw [h.journal] at hr
        cases hr
  · exact h.running

/-- Two texts with one digest. -/
def Collide (p : Platform) (text text' : String) : Prop :=
  text ≠ text' ∧ p.sha256 (asBytes text) = p.sha256 (asBytes text')

/-- Texts of one hash are equal, or they collide. -/
theorem eq_or_collide {text text' : String} {hash : List UInt8}
    (h : verificationTokenHash p text = some hash) (h' : verificationTokenHash p text' = some hash) :
    text = text' ∨ Collide p text text' := by
  have hdigest : ∀ {text}, verificationTokenHash p text = some hash →
      p.sha256 (asBytes text) = hash := by
    intro text h
    obtain ⟨decoded, -, h⟩ := Option.bind_eq_some_iff.mp h
    split at h
    · cases h
    · exact Option.some.inj h
  by_cases heq : text = text'
  · exact .inl heq
  · exact .inr ⟨heq, (hdigest h).trans (hdigest h').symm⟩

/-- What the journal says of the addresses and the tokens. -/
structure Verified (p : Platform) (t : MailTables) : Prop where
  /-- Who is verified has confirmed a token of the address, which has not changed since. -/
  proven : ∀ u ∈ t.users, u.verified = true → ∃ newer token presented consumedAt older,
    t.journal = newer ++ .confirmed token presented consumedAt :: older ∧ token.userId = u.id ∧
      u.email = some token.email ∧ .emailChanged u.id ∉ newer
  /-- A token is confirmed before it expires, by its own text, and once; and between its issue
  and its confirmation nothing has superseded it, and the address has not changed. -/
  confirmed : ∀ newest token presented consumedAt older,
    t.journal = newest ++ .confirmed token presented consumedAt :: older →
    (token.createdAt ≤ consumedAt ∧ consumedAt < token.expiresAt) ∧
    (∀ other presented' at', .confirmed other presented' at' ∈ older → other.id ≠ token.id) ∧
    ∃ newer text oldest, older = newer ++ .issued token text :: oldest ∧
      (∀ entry ∈ newer, ¬ entry.Ends token.userId token) ∧
      (presented = text ∨ Collide p presented text)
  /-- A token is issued once. -/
  issued : ∀ newest token text older, t.journal = newest ++ .issued token text :: older →
    ∀ other text', .issued other text' ∈ older → other.id ≠ token.id

theorem WellFormed.holds {t : MailTables} (h : WellFormed p t) : Verified p t := by
  refine ⟨?_, ?_, ?_⟩
  · intro u hu hverified
    obtain ⟨token, hproven, hemail⟩ := h.verified u hu hverified
    obtain ⟨huser, newer, presented, consumedAt, older, hjournal, hnewer⟩ := provenBy_eq hproven
    exact ⟨newer, token, presented, consumedAt, older, hjournal, huser, hemail, hnewer⟩
  · intro newest token presented consumedAt older hjournal
    have hlawful := h.lawful
    rw [hjournal] at hlawful
    obtain ⟨⟨hstands, hhash, htime⟩, hlawful'⟩ := hlawful.of_append
    obtain ⟨-, newer, text, oldest, rfl, hnewer⟩ := standing_eq hstands
    refine ⟨htime, fun other presented' at' hc => hlawful.confirmed_once hc, newer, text, oldest, rfl,
      hnewer, ?_⟩
    obtain ⟨⟨hissued, -⟩, -⟩ := hlawful'.of_append
    exact eq_or_collide hhash hissued
  · intro newest token text older hjournal
    have hlawful := h.lawful
    rw [hjournal] at hlawful
    obtain ⟨⟨-, -, hfresh⟩, -⟩ := hlawful.of_append
    exact hfresh

/-- **The verification of addresses is sound**: in every state of every run the journal accounts
for every verified address, and a step that changes anything is a commit that does what it
records: an address that changes is not verified any more. -/
theorem email_verification_sound {s : Service} (h : Reach (mailStep p) anyStep Initial s) :
    Verified p s.store ∧ ∀ l s', mailStep p l s = some s' → s'.store = s.store ∨
      ∃ i n entries, l = .advance i n ∧ committing s i = some entries ∧
        Recorded entries s.store s'.store := by
  have hsound : (promises p).Sound s :=
    Protocol.invariant request_keeps (fun e => nomatch e) (fun _ hs => hs.sound) h
  refine ⟨hsound.inv.holds, ?_⟩
  intro l s' hstep
  rcases step_store hstep with hsame | ⟨e, -⟩ | ⟨i, n, a, entries, hl, ha, hdone, hstore⟩
  · exact .inl hsame
  · exact nomatch e
  · refine .inr ⟨i, n, entries, hl, committing_eq.mpr ⟨a, ha, hdone⟩, ?_⟩
    rw [hstore]
    exact hsound.effect ha hdone

/-- A platform whose digest keeps every byte. -/
def plainPlatform : Platform where
  sha256 := List.reverse
  encode bytes := String.ofList (bytes.map fun byte => Char.ofNat (byte.toNat + 64))
  decode text := some (text.toList.map fun char => UInt8.ofNat (char.toNat - 64))
  emailVerificationTtlSeconds := 3600

/-- Nothing has happened. -/
def newService : Service := ⟨⟨[], [], []⟩, fun _ => 1, []⟩

theorem newService_initial : Initial newService := ⟨rfl, rfl, rfl, rfl⟩

/-- An account is made, asks for a mail and confirms it. -/
def verifies : List (Locking.Label Request Empty) :=
  .begin (.insertUser "ada@example.org") :: List.replicate 4 (.advance 0 1) ++
    .begin (.sendVerification 1 "192.0.2.1" (List.replicate 32 1) 0 0) ::
      List.replicate 14 (.advance 1 1) ++
    .begin (.confirm (String.ofList (List.replicate 32 'A')) 5 5) :: List.replicate 14 (.advance 2 1)

/-- The address is verified. -/
theorem email_verification_sound_confirmed : ∃ s : Service, Verified plainPlatform s.store ∧
    s.store.users = [⟨1, some "ada@example.org", true⟩] ∧ s.store.journal.length = 2 := by
  have hrun : ((run (mailStep plainPlatform) verifies newService).any fun s =>
      s.store.users = [⟨1, some "ada@example.org", true⟩] && s.store.journal.length = 2) = true := by
    decide +kernel
  obtain ⟨s, hs, hstate⟩ := (Option.any_eq_true _ _).mp hrun
  simp only [Bool.and_eq_true, decide_eq_true_eq] at hstate
  exact ⟨s, (email_verification_sound (reach_of_run verifies newService_initial hs)).1, hstate⟩

end CtfZone.Verification
