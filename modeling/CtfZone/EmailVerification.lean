/-
# An address is verified by its own token

The journal of the mails: a token can be confirmed while it stands, that is, until it is
superseded, withdrawn or confirmed, or the address of its account changes.

* `standing` : the token of an account that can be confirmed;
* `provenBy` : the token that has verified the address;
* `LawfulJournal` : only a token that stands is confirmed.
-/
import CtfZone.VerificationRequests

namespace CtfZone.Verification

variable {p : Platform}

/-! ## The journal -/

/-- The token of an account that can be confirmed. -/
def standing (userId : ℕ) : List Entry → Option TokenRow
  | [] => none
  | .issued token _ :: older => if token.userId = userId then some token else standing userId older
  | .undelivered ids :: older => (standing userId older).filter fun token => ! ids.contains token.id
  | .confirmed token _ _ :: older =>
    if token.userId = userId then none else standing userId older
  | .emailChanged id :: older => if id = userId then none else standing userId older

/-- The token by which the address of an account has been verified. -/
def provenBy (userId : ℕ) : List Entry → Option TokenRow
  | [] => none
  | .issued _ _ :: older => provenBy userId older
  | .undelivered _ :: older => provenBy userId older
  | .confirmed token _ _ :: older =>
    if token.userId = userId then some token else provenBy userId older
  | .emailChanged id :: older => if id = userId then none else provenBy userId older

/-- What an entry is, after the older ones. -/
def Entry.Lawful (p : Platform) (older : List Entry) : Entry → Prop
  | .issued token text => verificationTokenHash p text = some token.tokenHash ∧
    token.createdAt < token.expiresAt ∧ ∀ earlier text', .issued earlier text' ∈ older →
      earlier.id ≠ token.id
  | .undelivered _ => True
  | .confirmed token presented consumedAt => standing token.userId older = some token ∧
    verificationTokenHash p presented = some token.tokenHash ∧
    token.createdAt ≤ consumedAt ∧ consumedAt < token.expiresAt
  | .emailChanged _ => True

/-- Every entry is lawful after the older ones. -/
def LawfulJournal (p : Platform) : List Entry → Prop
  | [] => True
  | entry :: older => entry.Lawful p older ∧ LawfulJournal p older

variable {userId : ℕ} {j older newer : List Entry} {token : TokenRow}

theorem LawfulJournal.of_append (h : LawfulJournal p (newer ++ older)) : LawfulJournal p older := by
  induction newer with
  | nil => exact h
  | cons entry newer ih => exact ih h.2

/-- The entry ends what stands of an account before it. -/
def Entry.Ends (userId : ℕ) (token : TokenRow) : Entry → Prop
  | .issued other _ => other.userId = userId
  | .undelivered ids => token.id ∈ ids
  | .confirmed other _ _ => other.userId = userId
  | .emailChanged id => id = userId

/-- A token that stands has been issued, and nothing has ended it since. -/
theorem standing_eq (h : standing userId j = some token) :
    token.userId = userId ∧ ∃ newer text older, j = newer ++ .issued token text :: older ∧
      ∀ entry ∈ newer, ¬ entry.Ends userId token := by
  induction j with
  | nil => cases h
  | cons entry j ih =>
      -- an entry that does not end it is one of the newer ones
      have hskip : standing userId j = some token → ¬ entry.Ends userId token →
          token.userId = userId ∧ ∃ newer text older, entry :: j =
            newer ++ .issued token text :: older ∧ ∀ e ∈ newer, ¬ e.Ends userId token := by
        intro h hends
        obtain ⟨huser, newer, text, older, rfl, hnewer⟩ := ih h
        refine ⟨huser, entry :: newer, text, older, rfl, ?_⟩
        intro e he
        rcases List.mem_cons.mp he with rfl | he
        · exact hends
        · exact hnewer e he
      rcases entry with ⟨other, text⟩ | ids | ⟨other, presented, consumedAt⟩ | id
      · simp only [standing] at h
        split at h
        · rename_i huser
          cases h
          exact ⟨huser, [], text, j, rfl, fun _ he => nomatch he⟩
        · rename_i huser
          exact hskip h huser
      · obtain ⟨h, hids⟩ := Option.filter_eq_some_iff.mp h
        refine hskip h ?_
        simpa [Entry.Ends] using hids
      · simp only [standing] at h
        split at h
        · cases h
        · rename_i huser
          exact hskip h huser
      · simp only [standing] at h
        split at h
        · cases h
        · rename_i huser
          exact hskip h huser

theorem issued_of_standing (h : standing userId j = some token) : ∃ text, .issued token text ∈ j := by
  obtain ⟨-, newer, text, older, rfl, -⟩ := standing_eq h
  exact ⟨text, List.mem_append_right _ List.mem_cons_self⟩

/-- Two tokens that are issued under one id are one token. -/
theorem LawfulJournal.issued_inj (h : LawfulJournal p j) {other : TokenRow} {text text' : String}
    (ht : .issued token text ∈ j) (ho : .issued other text' ∈ j) (hid : token.id = other.id) :
    token = other := by
  induction j with
  | nil => cases ht
  | cons entry j ih =>
      rcases List.mem_cons.mp ht with rfl | ht'
      · rcases List.mem_cons.mp ho with heq | ho'
        · cases heq
          rfl
        · exact absurd hid.symm (h.1.2.2 other text' ho')
      · rcases List.mem_cons.mp ho with rfl | ho'
        · exact absurd hid (h.1.2.2 token text ht')
        · exact ih h.2 ht' ho'

/-- What has been confirmed has been issued before. -/
theorem LawfulJournal.confirmed_issued (h : LawfulJournal p j) {presented : String} {at' : Time}
    (hc : .confirmed token presented at' ∈ j) : ∃ text, .issued token text ∈ j := by
  induction j with
  | nil => cases hc
  | cons entry j ih =>
      rcases List.mem_cons.mp hc with rfl | hc
      · obtain ⟨text, hmem⟩ := issued_of_standing h.1.1
        exact ⟨text, List.mem_cons_of_mem _ hmem⟩
      · obtain ⟨text, hmem⟩ := ih h.2 hc
        exact ⟨text, List.mem_cons_of_mem _ hmem⟩

/-- A token that stands has not been confirmed. -/
theorem LawfulJournal.not_confirmed (h : LawfulJournal p j) (hs : standing userId j = some token)
    {other : TokenRow} {presented : String} {at' : Time} (hc : .confirmed other presented at' ∈ j) :
    other.id ≠ token.id := by
  induction j with
  | nil => cases hc
  | cons entry j ih =>
      rcases entry with ⟨issued, text⟩ | ids | ⟨confirmed, presented', consumedAt⟩ | id
      · rcases List.mem_cons.mp hc with heq | hc'
        · cases heq
        · simp only [standing] at hs
          split at hs
          · obtain ⟨text', hissued⟩ := h.2.confirmed_issued hc'
            cases hs
            exact h.1.2.2 other text' hissued
          · exact ih h.2 hs hc'
      · rcases List.mem_cons.mp hc with heq | hc
        · cases heq
        · exact ih h.2 (Option.filter_eq_some_iff.mp hs).1 hc
      · simp only [standing] at hs
        split at hs
        · cases hs
        · rename_i huser
          rcases List.mem_cons.mp hc with heq | hc
          · cases heq
            -- another account's token stands beside this one
            intro hid
            obtain ⟨text, ht⟩ := issued_of_standing hs
            obtain ⟨text', ho⟩ := issued_of_standing h.1.1
            obtain rfl := h.2.issued_inj ho ht hid
            exact huser (standing_eq hs).1
          · exact ih h.2 hs hc
      · rcases List.mem_cons.mp hc with heq | hc
        · cases heq
        · simp only [standing] at hs
          split at hs
          · cases hs
          · exact ih h.2 hs hc

/-- **A token is confirmed at most once.** -/
theorem LawfulJournal.confirmed_once {newest : List Entry} {other : TokenRow}
    {presented presented' : String} {at' at'' : Time}
    (h : LawfulJournal p (newest ++ .confirmed token presented at' :: older))
    (hc : .confirmed other presented' at'' ∈ older) : other.id ≠ token.id := by
  obtain ⟨⟨hstands, -⟩, hlawful⟩ := h.of_append
  exact hlawful.not_confirmed hstands hc

/-- The token that proves an address has been confirmed, and the address has not changed since. -/
theorem provenBy_eq (h : provenBy userId j = some token) :
    token.userId = userId ∧ ∃ newer presented consumedAt older,
      j = newer ++ .confirmed token presented consumedAt :: older ∧ .emailChanged userId ∉ newer := by
  induction j with
  | nil => cases h
  | cons entry j ih =>
      have hskip : provenBy userId j = some token → entry ≠ .emailChanged userId →
          token.userId = userId ∧ ∃ newer presented consumedAt older, entry :: j =
            newer ++ .confirmed token presented consumedAt :: older ∧ .emailChanged userId ∉ newer := by
        intro h hne
        obtain ⟨huser, newer, presented, consumedAt, older, rfl, hnewer⟩ := ih h
        refine ⟨huser, entry :: newer, presented, consumedAt, older, rfl, ?_⟩
        intro hmem
        rcases List.mem_cons.mp hmem with heq | hmem
        · exact hne heq.symm
        · exact hnewer hmem
      rcases entry with ⟨other, text⟩ | ids | ⟨other, presented, consumedAt⟩ | id
      · exact hskip h nofun
      · exact hskip h nofun
      · simp only [provenBy] at h
        split at h
        · rename_i huser
          cases h
          exact ⟨huser, [], presented, consumedAt, j, rfl, fun hmem => nomatch hmem⟩
        · exact hskip h nofun
      · simp only [provenBy] at h
        split at h
        · cases h
        · rename_i hne
          refine hskip h fun heq => ?_
          cases heq
          exact hne rfl

end CtfZone.Verification
