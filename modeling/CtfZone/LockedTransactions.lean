/-
# Transactions under locks

A small library for transactions that run beside each other on one store.  A
transaction is a program of statements: it waits for locks, draws numbers of
sequences, reads what is committed with its own changes over it, and changes
rows that nobody else sees before its commit.  What it holds, it holds to its
end.

The transactions promise something to whoever holds a lock (`Protocol`), and
each of them is verified by itself, against any interference that keeps the
promises.

* `Program.Safe` : a program keeps its promises, whatever the others do between
  its statements;
* `Program.Writes` : every change of a program is of a kind, and so is what it commits;
* `Protocol.invariant` : programs that are safe by themselves keep the invariant
  beside each other;
* `Protocol.transition` : and every step changes the store as they promise.
-/
import CtfZone.Runs
import CtfZone.Slots

namespace Locking

open Runs Slots

/-! ## Programs -/

/-- What a transaction holds: a lock, or a number drawn of a sequence. -/
inductive Hold (κ ν : Type)
  | lock (key : κ)
  | number (sequence : ν) (n : ℕ)
  deriving DecidableEq

/-- The rest of a transaction on a store `σ`: it commits with an answer, or fails. -/
inductive Program (σ κ ν ε α : Type)
  | done (answer : α)
  | fail (error : ε)
  | lock (key : κ) (next : Program σ κ ν ε α)
  | draw (sequence : ν) (next : ℕ → Program σ κ ν ε α)
  | query (next : σ → Program σ κ ν ε α)
  | write (change : σ → σ) (next : Program σ κ ν ε α)

variable {σ κ ν ε α β : Type}

namespace Program

/-- A program that goes on with the answer of another one. -/
def andThen : Program σ κ ν ε α → (α → Program σ κ ν ε β) → Program σ κ ν ε β
  | done answer, f => f answer
  | fail error, _ => fail error
  | lock key next, f => lock key (next.andThen f)
  | draw sequence next, f => draw sequence fun n => (next n).andThen f
  | query next, f => query fun s => (next s).andThen f
  | write change next, f => write change (next.andThen f)

instance : Monad (Program σ κ ν ε) where
  pure := done
  bind := andThen

/-- What a statement sees, by `f`. -/
def select (f : σ → α) : Program σ κ ν ε α := query fun s => done (f s)

/-- A statement that changes rows. -/
def change (f : σ → σ) : Program σ κ ν ε Unit := write f (done ⟨⟩)

/-- A statement that waits for a lock. -/
def acquire (key : κ) : Program σ κ ν ε Unit := lock key (done ⟨⟩)

/-- The next number of a sequence. -/
def nextval (sequence : ν) : Program σ κ ν ε ℕ := draw sequence done

/-- A result in the middle of a program. -/
def liftExcept : Except ε α → Program σ κ ν ε α
  | .ok a => done a
  | .error e => fail e

end Program

/-! ## Transactions beside each other -/

/-- A transaction in flight. -/
structure InFlight (σ κ ν ε : Type) where
  program : Program σ κ ν ε Unit
  held : List (Hold κ ν)
  pending : σ → σ

/-- The committed store, the next number of every sequence, and what is in flight; the
place of a transaction that is over stays empty. -/
structure System (σ κ ν ε : Type) where
  store : σ
  next : ν → ℕ
  running : List (Option (InFlight σ κ ν ε))

/-- What happens next: a request arrives, a transaction goes on with its next statement
(`n` is the number it draws, if it draws one) or is given up, or something else changes
the store. -/
inductive Label (ρ η : Type)
  | begin (request : ρ)
  | advance (i n : ℕ)
  | abort (i : ℕ)
  | other (event : η)

section Steps

variable [DecidableEq κ] [DecidableEq ν]

/-- The next statement of the transaction at a place; a lock somebody else holds is not
given, and a commit ends the transaction. -/
def advance (s : System σ κ ν ε) (i n : ℕ) (a : InFlight σ κ ν ε) :
    Option (System σ κ ν ε) :=
  match a.program with
  | .done _ => some { s with store := a.pending s.store, running := s.running.set i none }
  | .fail _ => some { s with running := s.running.set i none }
  | .lock key next =>
    if (s.running.eraseIdx i).any fun b => b.any (·.held.contains (.lock key)) then none
    else some { s with
      running := s.running.set i (some ⟨next, .lock key :: a.held, a.pending⟩) }
  | .draw sequence next =>
    if s.next sequence ≤ n then
      some { s with
        next := fun q => if q = sequence then n + 1 else s.next q
        running := s.running.set i (some ⟨next n, .number sequence n :: a.held, a.pending⟩) }
    else none
  | .query next =>
    some { s with
      running := s.running.set i (some { a with program := next (a.pending s.store) }) }
  | .write change next =>
    some { s with
      running := s.running.set i (some ⟨next, a.held, change ∘ a.pending⟩) }

/-- One step of the transactions of the requests `ρ`. -/
def step {ρ η : Type} (program : ρ → Program σ κ ν ε Unit) (event : η → σ → σ) :
    Label ρ η → System σ κ ν ε → Option (System σ κ ν ε)
  | .begin request, s => some { s with running := s.running ++ [some ⟨program request, [], id⟩] }
  | .advance i n, s => (at' id s.running i).bind (advance s i n)
  | .abort i, s => (at' id s.running i).map fun _ => { s with running := s.running.set i none }
  | .other e, s => some { s with store := event e s.store }

end Steps

/-! ## Promises -/

/-- What the transactions keep: an invariant of the store, what the holder of a lock can
rely on, which numbers no row has, and what a commit does to the store. -/
structure Protocol (σ κ ν : Type) where
  Inv : σ → Prop
  Keep : κ → σ → σ → Prop
  Unused : ν → ℕ → σ → Prop
  Transition : σ → σ → Prop
  keep_refl : ∀ k s, Keep k s s
  keep_trans : ∀ {k s s' s''}, Keep k s s' → Keep k s' s'' → Keep k s s''
  transition_refl : ∀ s, Transition s s

namespace Protocol

variable (P : Protocol σ κ ν)

/-- What is done to the store respects what somebody holds. -/
def Respects : Hold κ ν → σ → σ → Prop
  | .lock key, s, s' => P.Keep key s s'
  | .number q n, s, s' => P.Unused q n s → P.Unused q n s'

/-- What others may do to the store beside somebody who holds `held`. -/
def Rely (held : List (Hold κ ν)) (s s' : σ) : Prop := ∀ h ∈ held, P.Respects h s s'

/-- What somebody who holds `held` may do to the store. -/
structure Guarantee (held : List (Hold κ ν)) (s s' : σ) : Prop where
  inv : P.Inv s'
  transition : P.Transition s s'
  respects : ∀ h, h ∉ held → P.Respects h s s'

variable {P} {held : List (Hold κ ν)} {s s' s'' : σ}

theorem Respects.refl (h : Hold κ ν) (s : σ) : P.Respects h s s := by
  cases h with
  | lock key => exact P.keep_refl key s
  | number q n => exact id

theorem Respects.trans {h : Hold κ ν} (hs : P.Respects h s s') (hs' : P.Respects h s' s'') :
    P.Respects h s s'' := by
  cases h with
  | lock key => exact P.keep_trans hs hs'
  | number q n => exact hs' ∘ hs

theorem Rely.refl (held : List (Hold κ ν)) (s : σ) : P.Rely held s s :=
  fun h _ => Respects.refl h s

theorem Rely.trans (hs : P.Rely held s s') (hs' : P.Rely held s' s'') : P.Rely held s s'' :=
  fun h hmem => (hs h hmem).trans (hs' h hmem)

/-- The store as it is keeps every promise. -/
theorem Guarantee.refl (hs : P.Inv s) : P.Guarantee held s s :=
  ⟨hs, P.transition_refl s, fun h _ => Respects.refl h s⟩

end Protocol

/-! ## Programs that keep their promises -/

/-- A transaction from inside: what it holds, what it has changed, and what is
committed. -/
structure Local (σ κ ν : Type) where
  held : List (Hold κ ν)
  pending : σ → σ
  store : σ

/-- The others have been at work. -/
def Local.after (P : Protocol σ κ ν) (t : Local σ κ ν) (s : σ) : Prop :=
  P.Inv s ∧ P.Rely t.held t.store s

theorem Local.after_self {P : Protocol σ κ ν} {t : Local σ κ ν} (h : P.Inv t.store) :
    t.after P t.store := ⟨h, Protocol.Rely.refl t.held t.store⟩

theorem Local.after.trans {P : Protocol σ κ ν} {t : Local σ κ ν} {s s' : σ} (h : t.after P s)
    (h' : Local.after P { t with store := s } s') : t.after P s' := ⟨h'.1, h.2.trans h'.2⟩

/-- A commit at any later moment keeps the promises. -/
def Local.Commits (P : Protocol σ κ ν) (t : Local σ κ ν) : Prop :=
  ∀ s, t.after P s → P.Guarantee t.held s (t.pending s)

/-- A program comes to `Q` wherever it ends, whatever the others do between its
statements. -/
def Program.Safe (P : Protocol σ κ ν) :
    Program σ κ ν ε α → Local σ κ ν → (α → Local σ κ ν → Prop) → Prop
  | done answer, t, Q => Q answer t
  | fail _, _, _ => True
  | lock key next, t, Q =>
    ∀ s, t.after P s → next.Safe P ⟨.lock key :: t.held, t.pending, s⟩ Q
  | draw q next, t, Q =>
    ∀ s n, t.after P s → P.Unused q n s →
      (next n).Safe P ⟨.number q n :: t.held, t.pending, s⟩ Q
  | query next, t, Q =>
    ∀ s, t.after P s → (next (t.pending s)).Safe P { t with store := s } Q
  | write change next, t, Q => next.Safe P { t with pending := change ∘ t.pending } Q

namespace Program

variable {P : Protocol σ κ ν} {t : Local σ κ ν} {Q : α → Local σ κ ν → Prop}

/-- The rule of composition. -/
theorem safe_bind {x : Program σ κ ν ε β} {f : β → Program σ κ ν ε α} :
    (x >>= f).Safe P t Q ↔ x.Safe P t fun b t' => (f b).Safe P t' Q := by
  change (x.andThen f).Safe P t Q ↔ _
  induction x generalizing t with
  | done answer => rfl
  | fail error => rfl
  | lock key next ih => exact forall_congr' fun s => imp_congr_right fun _ => ih
  | draw q next ih =>
      exact forall_congr' fun s => forall_congr' fun n => imp_congr_right fun _ =>
        imp_congr_right fun _ => ih n
  | query next ih => exact forall_congr' fun s => imp_congr_right fun _ => ih _
  | write change next ih => exact ih

/-- A program that comes to something comes to what follows from it. -/
theorem Safe.mono {x : Program σ κ ν ε α} {Q' : α → Local σ κ ν → Prop} (h : x.Safe P t Q)
    (hQ : ∀ a t', Q a t' → Q' a t') : x.Safe P t Q' := by
  induction x generalizing t with
  | done answer => exact hQ _ _ h
  | fail error => trivial
  | lock key next ih => exact fun s hs => ih (h s hs)
  | draw q next ih => exact fun s n hs hn => ih n (h s n hs hn)
  | query next ih => exact fun s hs => ih _ (h s hs)
  | write change next ih => exact ih h

@[simp] theorem safe_pure {a : α} : (pure a : Program σ κ ν ε α).Safe P t Q ↔ Q a t := Iff.rfl

@[simp] theorem safe_select {f : σ → α} :
    (select f : Program σ κ ν ε α).Safe P t Q ↔
      ∀ s, t.after P s → Q (f (t.pending s)) { t with store := s } := Iff.rfl

@[simp] theorem safe_change {f : σ → σ} {Q : Unit → Local σ κ ν → Prop} :
    (change f : Program σ κ ν ε Unit).Safe P t Q ↔
      Q ⟨⟩ { t with pending := f ∘ t.pending } := Iff.rfl

@[simp] theorem safe_acquire {key : κ} {Q : Unit → Local σ κ ν → Prop} :
    (acquire key : Program σ κ ν ε Unit).Safe P t Q ↔
      ∀ s, t.after P s → Q ⟨⟩ ⟨.lock key :: t.held, t.pending, s⟩ := Iff.rfl

@[simp] theorem safe_nextval {q : ν} {Q : ℕ → Local σ κ ν → Prop} :
    (nextval q : Program σ κ ν ε ℕ).Safe P t Q ↔
      ∀ s n, t.after P s → P.Unused q n s →
        Q n ⟨.number q n :: t.held, t.pending, s⟩ := Iff.rfl

@[simp] theorem safe_liftExcept {x : Except ε α} :
    (liftExcept x : Program σ κ ν ε α).Safe P t Q ↔ ∀ a, x = .ok a → Q a t := by
  cases x with
  | error e => simp [liftExcept, Safe]
  | ok a =>
      simp only [liftExcept, Safe, Except.ok.injEq]
      exact ⟨fun h _ heq => heq ▸ h, fun h => h a rfl⟩

/-- What is safe stays so, whatever the others do. -/
theorem Safe.after {x : Program σ κ ν ε Unit} (h : x.Safe P t fun _ t' => t'.Commits P) {s : σ}
    (hs : P.Rely t.held t.store s) :
    x.Safe P { t with store := s } fun _ t' => t'.Commits P := by
  have hafter : ∀ s', Local.after P { t with store := s } s' → t.after P s' :=
    fun s' hs' => ⟨hs'.1, hs.trans hs'.2⟩
  induction x generalizing t with
  | done answer => exact fun s' hs' => h s' (hafter s' hs')
  | fail error => trivial
  | lock key next ih => exact fun s' hs' => h s' (hafter s' hs')
  | draw q next ih => exact fun s' n hs' hn => h s' n (hafter s' hs') hn
  | query next ih => exact fun s' hs' => h s' (hafter s' hs')
  | write change next ih => exact ih (t := { t with pending := change ∘ t.pending }) h hs hafter

/-- A program that comes to two things comes to both. -/
theorem Safe.and {x : Program σ κ ν ε α} {Q' : α → Local σ κ ν → Prop} (h : x.Safe P t Q)
    (h' : x.Safe P t Q') : x.Safe P t fun a t' => Q a t' ∧ Q' a t' := by
  induction x generalizing t with
  | done answer => exact ⟨h, h'⟩
  | fail error => trivial
  | lock key next ih => exact fun s hs => ih (h s hs) (h' s hs)
  | draw q next ih => exact fun s n hs hn => ih n (h s n hs hn) (h' s n hs hn)
  | query next ih => exact fun s hs => ih _ (h s hs) (h' s hs)
  | write change next ih => exact ih h h'

/-- What others promise by one protocol they promise by a weaker one. -/
theorem Safe.under {P' : Protocol σ κ ν} {x : Program σ κ ν ε α} (h : x.Safe P t Q)
    (hafter : ∀ (l : Local σ κ ν) s, l.after P' s → l.after P s)
    (hunused : ∀ q n s, P'.Unused q n s → P.Unused q n s) : x.Safe P' t Q := by
  induction x generalizing t with
  | done answer => exact h
  | fail error => trivial
  | lock key next ih => exact fun s hs => ih (h s (hafter t s hs))
  | draw q next ih => exact fun s n hs hn => ih n (h s n (hafter t s hs) (hunused q n s hn))
  | query next ih => exact fun s hs => ih _ (h s (hafter t s hs))
  | write change next ih => exact ih h

/-- Every change of the program is of a kind. -/
def Writes (C : (σ → σ) → Prop) : Program σ κ ν ε α → Prop
  | done _ => True
  | fail _ => True
  | lock _ next => next.Writes C
  | draw _ next => ∀ n, (next n).Writes C
  | query next => ∀ s, (next s).Writes C
  | write change next => C change ∧ next.Writes C

variable {C : (σ → σ) → Prop}

theorem writes_bind {x : Program σ κ ν ε β} {f : β → Program σ κ ν ε α}
    (hx : x.Writes C) (hf : ∀ b, (f b).Writes C) : (x >>= f).Writes C := by
  change (x.andThen f).Writes C
  induction x with
  | done answer => exact hf answer
  | fail error => trivial
  | lock key next ih => exact ih hx
  | draw q next ih => exact fun n => ih n (hx n)
  | query next ih => exact fun s => ih s (hx s)
  | write change next ih => exact ⟨hx.1, ih hx.2⟩

theorem writes_liftExcept (x : Except ε α) : (liftExcept x : Program σ κ ν ε α).Writes C := by
  rcases x with error | a <;> exact trivial

/-- What a program has changed in the end is of the kind of its changes. -/
theorem Safe.of_writes {x : Program σ κ ν ε α} (hx : x.Writes C)
    (hcomp : ∀ f g, C f → C g → C (f ∘ g)) (ht : C t.pending) :
    x.Safe P t fun _ t' => C t'.pending := by
  induction x generalizing t with
  | done answer => exact ht
  | fail error => trivial
  | lock key next ih => exact fun s _ => ih hx ht
  | draw q next ih => exact fun s n _ _ => ih n (hx n) ht
  | query next ih => exact fun s _ => ih _ (hx _) ht
  | write change next ih =>
      exact ih (t := { t with pending := change ∘ t.pending }) hx.2
        (hcomp change t.pending hx.1 ht)

end Program

/-! ## What holds beside each other -/

namespace Protocol

variable {P : Protocol σ κ ν} {ρ η : Type}

/-- The transaction in flight keeps its promises from here on. -/
def Kept (P : Protocol σ κ ν) (store : σ) (a : InFlight σ κ ν ε) : Prop :=
  a.program.Safe P ⟨a.held, a.pending, store⟩ fun _ t => t.Commits P

/-- The invariant of the transactions in flight: each of them keeps its promises, and no
two hold the same. -/
structure Sound (P : Protocol σ κ ν) (s : System σ κ ν ε) : Prop where
  inv : P.Inv s.store
  unused : ∀ q n, s.next q ≤ n → P.Unused q n s.store
  kept : ∀ i a, at' id s.running i = some a → P.Kept s.store a
  drawn : ∀ i a, at' id s.running i = some a → ∀ q n, .number q n ∈ a.held → n < s.next q
  exclusive : Apart id (fun a b => ∀ h ∈ a.held, h ∉ b.held) s.running

variable {s : System σ κ ν ε} {i : ℕ} {a : InFlight σ κ ν ε}

/-- A transaction goes on; what it comes to hold nobody else holds. -/
theorem Sound.replace (hs : P.Sound s) (ha : at' id s.running i = some a)
    {a' : InFlight σ κ ν ε} {next : ν → ℕ} (hkept : P.Kept s.store a')
    (hnext : ∀ q, s.next q ≤ next q) (hdrawn : ∀ q n, .number q n ∈ a'.held → n < next q)
    (hnew : ∀ h ∈ a'.held, h ∈ a.held ∨ ∀ j b, j ≠ i → at' id s.running j = some b → h ∉ b.held) :
    P.Sound { s with next, running := s.running.set i (some a') } := by
  obtain ⟨a₀, hat, rfl⟩ := at'_some.mp ha
  have hset := at'_set (f := id) hat (some a')
  refine ⟨hs.inv, fun q n hn => hs.unused q n (Nat.le_trans (hnext q) hn), ?_, ?_, ?_⟩
  · intro j b hb
    rw [hset] at hb
    split at hb
    · cases hb
      exact hkept
    · exact hs.kept j b hb
  · intro j b hb q n hn
    rw [hset] at hb
    split at hb
    · cases hb
      exact hdrawn q n hn
    · exact Nat.lt_of_lt_of_le (hs.drawn j b hb q n hn) (hnext q)
  · refine hs.exclusive.set (fun b c hbc h hc hb => hbc h hb hc) hat ?_
    intro b hb j c hj hc h hh
    cases hb
    rcases hnew h hh with hold | hfree
    · exact hs.exclusive i j a c (Ne.symm hj) ha hc h hold
    · exact hfree j c hj hc

/-- A transaction is over. -/
theorem Sound.remove (hs : P.Sound s) (ha : at' id s.running i = some a) :
    P.Sound { s with running := s.running.set i none } := by
  obtain ⟨a₀, hat, rfl⟩ := at'_some.mp ha
  have hset : ∀ j b, at' id (s.running.set i none) j = some b → at' id s.running j = some b := by
    intro j b hb
    rw [at'_set hat] at hb
    split at hb
    · cases hb
    · exact hb
  refine ⟨hs.inv, hs.unused, fun j b hb => hs.kept j b (hset j b hb),
    fun j b hb => hs.drawn j b (hset j b hb), ?_⟩
  exact fun j k b c hjk hb hc => hs.exclusive j k b c hjk (hset j b hb) (hset k c hc)

/-- The store changes as somebody else promises. -/
theorem Sound.change (hs : P.Sound s) {held : List (Hold κ ν)} {store : σ}
    (hstore : P.Guarantee held s.store store)
    (hapart : ∀ j b, at' id s.running j = some b → ∀ h ∈ b.held, h ∉ held)
    (hdrawn : ∀ q n, .number q n ∈ held → n < s.next q) : P.Sound { s with store } := by
  refine ⟨hstore.inv, ?_, ?_, hs.drawn, hs.exclusive⟩
  · intro q n hn
    have hfree : .number q n ∉ held := fun hmem => absurd (hdrawn q n hmem) (Nat.not_lt.mpr hn)
    exact hstore.respects _ hfree (hs.unused q n hn)
  · intro j b hb
    have hrely : P.Rely b.held s.store store :=
      fun h hmem => hstore.respects h (hapart j b hb h hmem)
    exact (hs.kept j b hb).after hrely

section Steps

variable [DecidableEq κ] [DecidableEq ν]

/-- The next statement of a transaction keeps the invariant, and changes the store as
promised. -/
theorem Sound.advance (hs : P.Sound s) (ha : at' id s.running i = some a) {n : ℕ}
    {s' : System σ κ ν ε} (h : advance s i n a = some s') :
    P.Sound s' ∧ P.Transition s.store s'.store := by
  have hkept := hs.kept i a ha
  have hnow : Local.after P ⟨a.held, a.pending, s.store⟩ s.store := Local.after_self hs.inv
  have hnext : ∀ q, s.next q ≤ s.next q := fun q => Nat.le_refl _
  have hdrawn := hs.drawn i a ha
  obtain ⟨program, held, pending⟩ := a
  cases program with
  | done answer =>
      cases h
      have hcommit := hkept s.store hnow
      refine ⟨(hs.remove ha).change hcommit ?_ hdrawn, hcommit.transition⟩
      obtain ⟨a₀, hat, rfl⟩ := at'_some.mp ha
      intro j b hb
      rw [at'_set hat] at hb
      split at hb
      · cases hb
      · rename_i hj
        exact hs.exclusive j i b _ hj hb ha
  | fail error =>
      cases h
      exact ⟨hs.remove ha, P.transition_refl _⟩
  | lock key next =>
      simp only [Locking.advance] at h
      split at h
      · cases h
      · rename_i hfree
        cases h
        refine ⟨hs.replace ha (hkept s.store hnow) hnext ?_ ?_, P.transition_refl _⟩
        · intro q n hn
          rcases List.mem_cons.mp hn with heq | hn
          · cases heq
          · exact hdrawn q n hn
        · intro hold hmem
          rcases List.mem_cons.mp hmem with rfl | hmem
          · refine .inr fun j b hj hb hlock => hfree ?_
            obtain ⟨c, hc, hcb⟩ := exists_other hj hb
            rw [List.any_eq_true]
            refine ⟨c, hc, ?_⟩
            obtain rfl : c = some b := hcb
            exact List.contains_iff_mem.mpr hlock
          · exact .inl hmem
  | draw q next =>
      simp only [Locking.advance] at h
      split at h
      · rename_i hle
        cases h
        refine ⟨hs.replace ha (hkept s.store n hnow (hs.unused q n hle)) ?_ ?_ ?_,
          P.transition_refl _⟩
        · intro q'
          split
          · rename_i hq
            subst hq
            omega
          · exact Nat.le_refl _
        · intro q' m hm
          rcases List.mem_cons.mp hm with heq | hm
          · cases heq
            rw [if_pos rfl]
            exact Nat.lt_succ_self n
          · have := hdrawn q' m hm
            split
            · rename_i hq
              subst hq
              omega
            · exact this
        · intro hold hmem
          rcases List.mem_cons.mp hmem with rfl | hmem
          · exact .inr fun j b hj hb hnum => absurd (hs.drawn j b hb q n hnum) (by omega)
          · exact .inl hmem
      · cases h
  | query next =>
      cases h
      exact ⟨hs.replace ha (hkept s.store hnow) hnext hdrawn fun h hh => .inl hh,
        P.transition_refl _⟩
  | write change next =>
      cases h
      exact ⟨hs.replace ha hkept hnext hdrawn fun h hh => .inl hh, P.transition_refl _⟩

variable {program : ρ → Program σ κ ν ε Unit} {event : η → σ → σ} {init : System σ κ ν ε → Prop}

/-- One step keeps the invariant, and changes the store as promised, if the program it begins
keeps its promises by itself. -/
theorem Sound.step_of {l : Label ρ η}
    (hprogram : ∀ r, l = .begin r → (program r).Safe P ⟨[], id, s.store⟩ fun _ t => t.Commits P)
    (hevent : ∀ e, l = .other e → P.Guarantee [] s.store (event e s.store))
    {s' : System σ κ ν ε} (hs : P.Sound s) (h : step program event l s = some s') :
    P.Sound s' ∧ P.Transition s.store s'.store := by
  cases l with
  | begin request =>
      cases h
      have hat : ∀ j b, at' id (s.running ++ [some ⟨program request, [], id⟩]) j = some b →
          at' id s.running j = some b ∨ b = ⟨program request, [], id⟩ := by
        intro j b hb
        rcases at'_append hb with hb | ⟨-, hb⟩
        · exact .inl hb
        · exact .inr (Option.some.inj hb).symm
      refine ⟨⟨hs.inv, hs.unused, ?_, ?_, ?_⟩, P.transition_refl _⟩
      · intro j b hb
        rcases hat j b hb with hb | rfl
        · exact hs.kept j b hb
        · exact hprogram request rfl
      · intro j b hb
        rcases hat j b hb with hb | rfl
        · exact hs.drawn j b hb
        · intro q n hn
          cases hn
      · intro j k b c hjk hb hc h hh
        rcases at'_append hb with hb | ⟨-, hb⟩
        · rcases at'_append hc with hc | ⟨-, hc⟩
          · exact hs.exclusive j k b c hjk hb hc h hh
          · cases hc
            exact List.not_mem_nil
        · cases hb
          cases hh
  | advance i n =>
      obtain ⟨a, ha, h⟩ := Option.bind_eq_some_iff.mp h
      exact hs.advance ha h
  | abort i =>
      obtain ⟨a, ha, rfl⟩ := Option.map_eq_some_iff.mp h
      exact ⟨hs.remove ha, P.transition_refl _⟩
  | other e =>
      cases h
      have hstore := hevent e rfl
      refine ⟨hs.change hstore (fun j b _ h _ => List.not_mem_nil) ?_, hstore.transition⟩
      intro q n hn
      cases hn

/-- So it does if every program keeps its promises by itself. -/
theorem Sound.step
    (hprogram : ∀ r s, P.Inv s → (program r).Safe P ⟨[], id, s⟩ fun _ t => t.Commits P)
    (hevent : ∀ e s, P.Inv s → P.Guarantee [] s (event e s)) {l : Label ρ η}
    {s' : System σ κ ν ε} (hs : P.Sound s) (h : step program event l s = some s') :
    P.Sound s' ∧ P.Transition s.store s'.store :=
  hs.step_of (fun r _ => hprogram r s.store hs.inv) (fun e _ => hevent e s.store hs.inv) h

/-- The invariant is kept beside each other where only programs and events that keep the
promises are let in. -/
theorem invariant_if {guard : System σ κ ν ε → Label ρ η → Prop}
    (hprogram : ∀ s r, guard s (.begin r) → P.Inv s.store →
      (program r).Safe P ⟨[], id, s.store⟩ fun _ t => t.Commits P)
    (hevent : ∀ s e, guard s (.other e) → P.Inv s.store →
      P.Guarantee [] s.store (event e s.store))
    (hinit : ∀ s, init s → P.Sound s) {s : System σ κ ν ε}
    (h : Reach (Locking.step program event) guard init s) : P.Sound s := by
  induction h with
  | init h => exact hinit _ h
  | step l hr hg hs ih =>
      refine (ih.step_of ?_ ?_ hs).1
      · rintro r rfl
        exact hprogram _ r hg ih.inv
      · rintro e rfl
        exact hevent _ e hg ih.inv

/-- **Programs that keep their promises by themselves keep the invariant beside each
other.** -/
theorem invariant
    (hprogram : ∀ r s, P.Inv s → (program r).Safe P ⟨[], id, s⟩ fun _ t => t.Commits P)
    (hevent : ∀ e s, P.Inv s → P.Guarantee [] s (event e s)) (hinit : ∀ s, init s → P.Sound s)
    (h : Reach (step program event) anyStep init s) : P.Sound s :=
  h.invariant hinit fun _ _ _ hs _ hstep => (hs.step hprogram hevent hstep).1

/-- **And every step of a run changes the store as they promise.** -/
theorem transition
    (hprogram : ∀ r s, P.Inv s → (program r).Safe P ⟨[], id, s⟩ fun _ t => t.Commits P)
    (hevent : ∀ e s, P.Inv s → P.Guarantee [] s (event e s)) (hinit : ∀ s, init s → P.Sound s)
    (h : Reach (step program event) anyStep init s) {l : Label ρ η} {s' : System σ κ ν ε}
    (hstep : step program event l s = some s') : P.Transition s.store s'.store :=
  ((invariant hprogram hevent hinit h).step hprogram hevent hstep).2

end Steps

end Protocol

end Locking
