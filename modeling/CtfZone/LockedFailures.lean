/-
# How transactions fail

What is so wherever a transaction of a request fails, whatever the others do beside it.

* `Program.Ends` : as `Program.Safe`, with what holds of an error where the program fails;
* `Sound.beside` : what one transaction does to the store, the others can rely on;
* `Ends.leads` : how the transaction of a request that has been begun can end, at any later
  moment of a run.
-/
import CtfZone.LockedTransactions

namespace Locking

open Runs Slots

variable {σ κ ν ε α β : Type}

/-! ## Programs that may fail -/

/-- A program comes to `Q` where it commits and to `E` where it fails, whatever the others do
between its statements. -/
def Program.Ends (P : Protocol σ κ ν) : Program σ κ ν ε α → Local σ κ ν →
    (α → Local σ κ ν → Prop) → (ε → Local σ κ ν → Prop) → Prop
  | done answer, t, Q, _ => Q answer t
  | fail error, t, _, E => E error t
  | lock key next, t, Q, E =>
    ∀ s, t.after P s → next.Ends P ⟨.lock key :: t.held, t.pending, s⟩ Q E
  | draw q next, t, Q, E =>
    ∀ s n, t.after P s → P.Unused q n s →
      (next n).Ends P ⟨.number q n :: t.held, t.pending, s⟩ Q E
  | query next, t, Q, E =>
    ∀ s, t.after P s → (next (t.pending s)).Ends P { t with store := s } Q E
  | write change next, t, Q, E => next.Ends P { t with pending := change ∘ t.pending } Q E

namespace Program

variable {P : Protocol σ κ ν} {t : Local σ κ ν} {Q : α → Local σ κ ν → Prop}
  {E : ε → Local σ κ ν → Prop}

/-- The rule of composition. -/
theorem ends_bind {x : Program σ κ ν ε β} {f : β → Program σ κ ν ε α} :
    (x >>= f).Ends P t Q E ↔ x.Ends P t (fun b t' => (f b).Ends P t' Q E) E := by
  change (x.andThen f).Ends P t Q E ↔ _
  induction x generalizing t with
  | done answer => rfl
  | fail error => rfl
  | lock key next ih => exact forall_congr' fun s => imp_congr_right fun _ => ih
  | draw q next ih =>
    exact forall_congr' fun s => forall_congr' fun n => imp_congr_right fun _ =>
      imp_congr_right fun _ => ih n
  | query next ih => exact forall_congr' fun s => imp_congr_right fun _ => ih _
  | write change next ih => exact ih

theorem Ends.mono {x : Program σ κ ν ε α} {Q' : α → Local σ κ ν → Prop}
    {E' : ε → Local σ κ ν → Prop} (h : x.Ends P t Q E) (hQ : ∀ a t', Q a t' → Q' a t')
    (hE : ∀ e t', E e t' → E' e t') : x.Ends P t Q' E' := by
  induction x generalizing t with
  | done answer => exact hQ _ _ h
  | fail error => exact hE _ _ h
  | lock key next ih => exact fun s hs => ih (h s hs)
  | draw q next ih => exact fun s n hs hn => ih n (h s n hs hn)
  | query next ih => exact fun s hs => ih _ (h s hs)
  | write change next ih => exact ih h

/-- A program that ends well is safe. -/
theorem Ends.safe {x : Program σ κ ν ε α} (h : x.Ends P t Q E) : x.Safe P t Q := by
  induction x generalizing t with
  | done answer => exact h
  | fail error => trivial
  | lock key next ih => exact fun s hs => ih (h s hs)
  | draw q next ih => exact fun s n hs hn => ih n (h s n hs hn)
  | query next ih => exact fun s hs => ih _ (h s hs)
  | write change next ih => exact ih h

/-- What a program comes to safely it comes to beside how it fails. -/
theorem Ends.and {x : Program σ κ ν ε α} {Q' : α → Local σ κ ν → Prop} (h : x.Ends P t Q E)
    (h' : x.Safe P t Q') : x.Ends P t (fun a t' => Q a t' ∧ Q' a t') E := by
  induction x generalizing t with
  | done answer => exact ⟨h, h'⟩
  | fail error => exact h
  | lock key next ih => exact fun s hs => ih (h s hs) (h' s hs)
  | draw q next ih => exact fun s n hs hn => ih n (h s n hs hn) (h' s n hs hn)
  | query next ih => exact fun s hs => ih _ (h s hs) (h' s hs)
  | write change next ih => exact ih h h'

@[simp] theorem ends_pure {a : α} : (pure a : Program σ κ ν ε α).Ends P t Q E ↔ Q a t := Iff.rfl

@[simp] theorem ends_select {f : σ → α} :
    (select f : Program σ κ ν ε α).Ends P t Q E ↔
      ∀ s, t.after P s → Q (f (t.pending s)) { t with store := s } := Iff.rfl

@[simp] theorem ends_change {f : σ → σ} {Q : Unit → Local σ κ ν → Prop} :
    (change f : Program σ κ ν ε Unit).Ends P t Q E ↔
      Q ⟨⟩ { t with pending := f ∘ t.pending } := Iff.rfl

@[simp] theorem ends_acquire {key : κ} {Q : Unit → Local σ κ ν → Prop} :
    (acquire key : Program σ κ ν ε Unit).Ends P t Q E ↔
      ∀ s, t.after P s → Q ⟨⟩ ⟨.lock key :: t.held, t.pending, s⟩ := Iff.rfl

@[simp] theorem ends_liftExcept {x : Except ε α} :
    (liftExcept x : Program σ κ ν ε α).Ends P t Q E ↔
      (∀ a, x = .ok a → Q a t) ∧ ∀ e, x = .error e → E e t := by
  rcases x with e | a
  · simp [liftExcept, Ends]
  · simp [liftExcept, Ends]

/-- What is said of an error stays so under what the others do. -/
def Stable (P : Protocol σ κ ν) (E : ε → Local σ κ ν → Prop) : Prop :=
  ∀ e t s, E e t → t.after P s → E e { t with store := s }

/-- What ends well does so later, whatever the others do. -/
theorem Ends.after {x : Program σ κ ν ε Unit} (h : x.Ends P t (fun _ t' => t'.Commits P) E)
    (hstable : Stable P E) {s : σ} (hs : t.after P s) :
    x.Ends P { t with store := s } (fun _ t' => t'.Commits P) E := by
  have hafter : ∀ s', Local.after P { t with store := s } s' → t.after P s' :=
    fun s' hs' => hs.trans hs'
  induction x generalizing t with
  | done answer => exact fun s' hs' => h s' (hafter s' hs')
  | fail error => exact hstable error t s h hs
  | lock key next ih => exact fun s' hs' => h s' (hafter s' hs')
  | draw q next ih => exact fun s' n hs' hn => h s' n (hafter s' hs') hn
  | query next ih => exact fun s' hs' => h s' (hafter s' hs')
  | write change next ih => exact ih (t := { t with pending := change ∘ t.pending }) h hs hafter

end Program

/-! ## Beside each other -/

namespace Protocol

variable {P : Protocol σ κ ν} {ρ η : Type} {s s' : System σ κ ν ε} {i : ℕ}
  {a : InFlight σ κ ν ε}

section Steps

variable [DecidableEq κ] [DecidableEq ν]

/-- **What one transaction does to the store, the others can rely on.** -/
theorem Sound.beside (hs : P.Sound s) (ha : at' id s.running i = some a) {n : ℕ}
    (h : Locking.advance s i n a = some s') {j : ℕ} {b : InFlight σ κ ν ε} (hj : j ≠ i)
    (hb : at' id s.running j = some b) : P.Rely b.held s.store s'.store := by
  obtain ⟨program, held, pending⟩ := a
  rcases program with answer | error | ⟨key, next⟩ | ⟨q, next⟩ | next | ⟨change, next⟩
  · obtain rfl := Option.some.inj h
    have hcommit := hs.kept i _ ha s.store (Local.after_self hs.inv)
    intro hold hmem
    exact hcommit.respects hold (hs.exclusive j i b _ hj hb ha hold hmem)
  · obtain rfl := Option.some.inj h
    exact Rely.refl _ _
  · simp only [Locking.advance] at h
    split at h
    · cases h
    · obtain rfl := Option.some.inj h
      exact Rely.refl _ _
  · simp only [Locking.advance] at h
    split at h
    · obtain rfl := Option.some.inj h
      exact Rely.refl _ _
    · cases h
  · obtain rfl := Option.some.inj h
    exact Rely.refl _ _
  · obtain rfl := Option.some.inj h
    exact Rely.refl _ _

/-- A statement replaces the transaction at its place. -/
theorem running_of_advance {n : ℕ} (h : Locking.advance s i n a = some s') :
    ∃ x, s'.running = s.running.set i x := by
  unfold Locking.advance at h
  split at h
  · obtain rfl := Option.some.inj h
    exact ⟨none, rfl⟩
  · obtain rfl := Option.some.inj h
    exact ⟨none, rfl⟩
  · split at h
    · cases h
    · obtain rfl := Option.some.inj h
      exact ⟨_, rfl⟩
  · split at h
    · obtain rfl := Option.some.inj h
      exact ⟨_, rfl⟩
    · cases h
  · obtain rfl := Option.some.inj h
    exact ⟨_, rfl⟩
  · obtain rfl := Option.some.inj h
    exact ⟨_, rfl⟩

end Steps

/-- The transaction at a place is over, or it ends well from here on. -/
structure EndsAt (P : Protocol σ κ ν) (E : ε → Local σ κ ν → Prop) (i : ℕ)
    (s : System σ κ ν ε) : Prop where
  begun : i < s.running.length
  ends : ∀ a, at' id s.running i = some a →
    a.program.Ends P ⟨a.held, a.pending, s.store⟩ (fun _ t => t.Commits P) E

/-- Something else changes the store as the transaction can rely on. -/
theorem EndsAt.later {E : ε → Local σ κ ν → Prop} (h : EndsAt P E i s) (hstable : Program.Stable P E)
    (hlength : s.running.length ≤ s'.running.length)
    (hsame : ∀ a, at' id s'.running i = some a → at' id s.running i = some a)
    (hinv : P.Inv s'.store)
    (hrely : ∀ a, at' id s.running i = some a → P.Rely a.held s.store s'.store) :
    EndsAt P E i s' := by
  refine ⟨Nat.lt_of_lt_of_le h.begun hlength, fun a ha => ?_⟩
  have ha' := hsame a ha
  exact (h.ends a ha').after hstable ⟨hinv, hrely a ha'⟩

section Along

variable [DecidableEq κ] [DecidableEq ν] {E : ε → Local σ κ ν → Prop}
  {program : ρ → Program σ κ ν ε Unit} {event : η → σ → σ} {init : System σ κ ν ε → Prop}
  {guard : System σ κ ν ε → Label ρ η → Prop}

/-- The next statement of the transaction itself. -/
theorem EndsAt.advance (h : EndsAt P E i s) (hs : P.Sound s)
    (ha : at' id s.running i = some a) {n : ℕ} (hstep : Locking.advance s i n a = some s') :
    EndsAt P E i s' := by
  have hends := h.ends a ha
  have hnow : Local.after P ⟨a.held, a.pending, s.store⟩ s.store := Local.after_self hs.inv
  obtain ⟨a₀, hat, rfl⟩ := at'_some.mp ha
  obtain ⟨program, held, pending⟩ := a
  have hplace : ∀ x b, at' id (s.running.set i x) i = some b → x = some b := by
    intro x b hb
    rw [at'_set hat, if_pos rfl] at hb
    exact hb
  have hlength : ∀ x, i < (s.running.set i x).length := by
    intro x
    rw [List.length_set]
    exact h.begun
  rcases program with answer | error | ⟨key, next⟩ | ⟨q, next⟩ | next | ⟨change, next⟩
  · obtain rfl := Option.some.inj hstep
    exact ⟨hlength _, fun b hb => nomatch hplace _ b hb⟩
  · obtain rfl := Option.some.inj hstep
    exact ⟨hlength _, fun b hb => nomatch hplace _ b hb⟩
  · simp only [Locking.advance] at hstep
    split at hstep
    · cases hstep
    · obtain rfl := Option.some.inj hstep
      refine ⟨hlength _, fun b hb => ?_⟩
      obtain rfl := Option.some.inj (hplace _ b hb)
      exact hends s.store hnow
  · simp only [Locking.advance] at hstep
    split at hstep
    · obtain rfl := Option.some.inj hstep
      refine ⟨hlength _, fun b hb => ?_⟩
      obtain rfl := Option.some.inj (hplace _ b hb)
      exact hends s.store n hnow (hs.unused q n ‹_›)
    · cases hstep
  · obtain rfl := Option.some.inj hstep
    refine ⟨hlength _, fun b hb => ?_⟩
    obtain rfl := Option.some.inj (hplace _ b hb)
    exact hends s.store hnow
  · obtain rfl := Option.some.inj hstep
    refine ⟨hlength _, fun b hb => ?_⟩
    obtain rfl := Option.some.inj (hplace _ b hb)
    exact hends

/-- One step of a run. -/
theorem EndsAt.step (h : EndsAt P E i s) (hstable : Program.Stable P E) (hs : P.Sound s)
    (hs' : P.Sound s') {l : Label ρ η}
    (hevent : ∀ e, l = .other e → P.Guarantee [] s.store (event e s.store))
    (hstep : step program event l s = some s') : EndsAt P E i s' := by
  rcases l with request | ⟨j, n⟩ | j | e
  · obtain rfl := Option.some.inj hstep
    refine h.later hstable ?_ ?_ hs'.inv fun a _ => Rely.refl _ _
    · rw [List.length_append]
      omega
    · intro a ha
      rcases at'_append ha with ha | ⟨hi, -⟩
      · exact ha
      · exact absurd h.begun (by omega)
  · obtain ⟨b, hb, hadvance⟩ := Option.bind_eq_some_iff.mp hstep
    by_cases hij : i = j
    · subst hij
      exact h.advance hs hb hadvance
    · obtain ⟨x, hrunning⟩ : ∃ x, s'.running = s.running.set j x := running_of_advance hadvance
      refine h.later hstable ?_ ?_ hs'.inv fun a ha => hs.beside hb hadvance hij ha
      · exact Nat.le_of_eq (by rw [hrunning, List.length_set])
      · intro a ha
        obtain ⟨b₀, hat, -⟩ := at'_some.mp hb
        rw [hrunning, at'_set hat, if_neg hij] at ha
        exact ha
  · obtain ⟨b, hb, rfl⟩ := Option.map_eq_some_iff.mp hstep
    refine h.later hstable ?_ ?_ hs'.inv fun a _ => Rely.refl _ _
    · exact Nat.le_of_eq List.length_set.symm
    · intro a ha
      obtain ⟨b₀, hat, -⟩ := at'_some.mp hb
      rw [at'_set hat] at ha
      split at ha
      · cases ha
      · exact ha
  · obtain rfl := Option.some.inj hstep
    refine h.later hstable (Nat.le_refl _) (fun a ha => ha) hs'.inv fun a _ hold _ => ?_
    exact (hevent e rfl).respects hold List.not_mem_nil

/-- **How the transaction of a request can end, at any later moment of a run.** -/
theorem Ends.leads
    (hprogram : ∀ s r, guard s (.begin r) → P.Inv s.store →
      (program r).Safe P ⟨[], id, s.store⟩ fun _ t => t.Commits P)
    (hevent : ∀ s e, guard s (.other e) → P.Inv s.store →
      P.Guarantee [] s.store (event e s.store))
    (hinit : ∀ s, init s → P.Sound s) (hstable : Program.Stable P E)
    (hr : Reach (step program event) guard init s) {request : ρ}
    (hends : (program request).Ends P ⟨[], id, s.store⟩ (fun _ t => t.Commits P) E)
    (hguard : guard s (.begin request)) (hbegin : step program event (.begin request) s = some s')
    {s'' : System σ κ ν ε} (hlead : Leads (step program event) guard s' s'') :
    EndsAt P E s.running.length s'' := by
  have hr' : Reach (step program event) guard init s' := .step _ hr hguard hbegin
  induction hlead with
  | refl =>
    obtain rfl := Option.some.inj hbegin
    refine ⟨?_, fun a ha => ?_⟩
    · rw [List.length_append]
      exact Nat.lt_succ_self _
    · rcases at'_append ha with ha | ⟨-, ha⟩
      · obtain ⟨b, hb, -⟩ := at'_some.mp ha
        rw [List.getElem?_eq_none (Nat.le_refl _)] at hb
        cases hb
      · obtain rfl := Option.some.inj ha
        exact hends
  | step l hlead hg hstep ih =>
    have hreach := hr'.leads hlead
    have hsound := invariant_if hprogram hevent hinit hreach
    have hsound' := invariant_if hprogram hevent hinit (.step l hreach hg hstep)
    refine ih.step hstable hsound hsound' ?_ hstep
    rintro e rfl
    exact hevent _ e hg hsound.inv

end Along

end Protocol

end Locking
