/-
# Transactions under shared and exclusive locks

The transactions of `LockedTransactions` with locks that some of them may hold
together, and with answers.  The key of a lock says how it is held: a shared and an
exclusive hold of the same thing are two keys that conflict.

* `Lockable` : which keys conflict;
* `System`, `step` : transactions beside each other;
* `Protocol` : what they promise;
* `Meets` : a program keeps its promises, whatever the others do between its
  statements;
* `Protocol.invariant`, `Protocol.always` : programs that keep their promises by
  themselves keep them beside each other;
* `Protocol.committed` : and every commit does what its answer says.
-/
import CtfZone.LockedTransactions

namespace SharedLocks

open Runs Slots Locking Locking.Program

variable {σ κ ν ε α β : Type}

/-! ## Locks -/

/-- Keys of locks, and which two of them are not held by two transactions. -/
class Lockable (κ : Type) where
  conflict : κ → κ → Bool
  symm : ∀ k k', conflict k k' = conflict k' k

/-- A key conflicts with what somebody holds. -/
def blocks [Lockable κ] (key : κ) : Hold κ ν → Bool
  | .lock key' => Lockable.conflict key key'
  | .number _ _ => false

/-- Two transactions do not hold both. -/
def Conflict [Lockable κ] : Hold κ ν → Hold κ ν → Prop
  | .lock key, .lock key' => Lockable.conflict key key' = true
  | .number q n, .number q' n' => q = q' ∧ n = n'
  | _, _ => False

theorem Conflict.symm [Lockable κ] {h h' : Hold κ ν} (hc : Conflict h h') : Conflict h' h := by
  cases h with
  | lock key =>
      cases h' with
      | lock key' => exact (Lockable.symm key' key).trans hc
      | number => exact hc
  | number q n =>
      cases h' with
      | lock => exact hc
      | number => exact ⟨hc.1.symm, hc.2.symm⟩

/-! ## Statements -/

/-- A check between two statements. -/
def check (condition : Bool) (error : ε) : Program σ κ ν ε Unit :=
  if condition then .done ⟨⟩ else .fail error

/-- A query for one row. -/
def fetchOne (row : σ → Option α) (error : ε) : Program σ κ ν ε α :=
  .query fun s => match row s with
    | some a => .done a
    | none => .fail error

/-- A statement that is left out where a condition fails. -/
def onlyIf (condition : Bool) (statement : Program σ κ ν ε Unit) : Program σ κ ν ε Unit :=
  if condition then statement else .done ⟨⟩

/-- Several locks, one after the other. -/
def acquireAll : List κ → Program σ κ ν ε Unit
  | [] => .done ⟨⟩
  | key :: keys => .lock key (acquireAll keys)

/-! ## Transactions beside each other -/

/-- A transaction in flight. -/
structure InFlight (σ κ ν ε α : Type) where
  program : Program σ κ ν ε α
  held : List (Hold κ ν)
  pending : σ → σ

/-- The committed store, the next number of every sequence, and what is in flight; the
place of a transaction that is over stays empty. -/
structure System (σ κ ν ε α : Type) where
  store : σ
  next : ν → ℕ
  running : List (Option (InFlight σ κ ν ε α))

section Steps

variable [Lockable κ] [DecidableEq ν]

/-- The next statement of the transaction at a place; a lock is not given while somebody
else holds one that conflicts, and a commit ends the transaction. -/
def advance (s : System σ κ ν ε α) (i n : ℕ) (a : InFlight σ κ ν ε α) :
    Option (System σ κ ν ε α) :=
  match a.program with
  | .done _ => some { s with store := a.pending s.store, running := s.running.set i none }
  | .fail _ => some { s with running := s.running.set i none }
  | .lock key next =>
    if (s.running.eraseIdx i).any fun b => b.any (·.held.any (blocks key)) then none
    else some { s with
      running := s.running.set i (some ⟨next, .lock key :: a.held, a.pending⟩) }
  | .draw sequence next =>
    if s.next sequence ≤ n then
      some { s with
        next := fun q => if q = sequence then n + 1 else s.next q
        running := s.running.set i (some ⟨next n, .number sequence n :: a.held, a.pending⟩) }
    else none
  | .query next =>
    some { s with
      running := s.running.set i (some { a with program := next (a.pending s.store) }) }
  | .write change next =>
    some { s with
      running := s.running.set i (some ⟨next, a.held, change ∘ a.pending⟩) }

/-- One step of the transactions of the requests `ρ`. -/
def step {ρ η : Type} (program : ρ → Program σ κ ν ε α) (event : η → σ → σ) :
    Label ρ η → System σ κ ν ε α → Option (System σ κ ν ε α)
  | .begin request, s => some { s with running := s.running ++ [some ⟨program request, [], id⟩] }
  | .advance i n, s => (at' id s.running i).bind (advance s i n)
  | .abort i, s => (at' id s.running i).map fun _ => { s with running := s.running.set i none }
  | .other e, s => some { s with store := event e s.store }

end Steps

/-- A step writes what a transaction that commits has made of the store, or what something
else does to it. -/
theorem step_store [Lockable κ] [DecidableEq ν] {ρ η : Type} {program : ρ → Program σ κ ν ε α}
    {event : η → σ → σ} {l : Label ρ η} {s s' : System σ κ ν ε α}
    (h : step program event l s = some s') :
    s'.store = s.store ∨ (∃ e, l = .other e ∧ s'.store = event e s.store) ∨
      ∃ i n a answer, l = .advance i n ∧ at' id s.running i = some a ∧
        a.program = .done answer ∧ s'.store = a.pending s.store := by
  cases l with
  | begin request =>
      cases h
      exact .inl rfl
  | abort i =>
      obtain ⟨a, -, rfl⟩ := Option.map_eq_some_iff.mp h
      exact .inl rfl
  | other e =>
      cases h
      exact .inr (.inl ⟨e, rfl, rfl⟩)
  | advance i n =>
      obtain ⟨a, ha, h⟩ := Option.bind_eq_some_iff.mp h
      obtain ⟨program, held, pending⟩ := a
      cases program with
      | done answer =>
          cases h
          exact .inr (.inr ⟨i, n, _, answer, rfl, ha, rfl, rfl⟩)
      | fail error =>
          cases h
          exact .inl rfl
      | lock key next =>
          simp only [advance] at h
          split at h
          · cases h
          · cases h
            exact .inl rfl
      | draw q next =>
          simp only [advance] at h
          split at h
          · cases h
            exact .inl rfl
          · cases h
      | query next =>
          cases h
          exact .inl rfl
      | write change next =>
          cases h
          exact .inl rfl

/-- The answer that the next statement of the transaction at a place commits with. -/
def committing (s : System σ κ ν ε α) (i : ℕ) : Option α :=
  (at' id s.running i).bind fun a => match a.program with
    | .done answer => some answer
    | _ => none

theorem committing_eq {s : System σ κ ν ε α} {i : ℕ} {answer : α} :
    committing s i = some answer ↔ ∃ a, at' id s.running i = some a ∧ a.program = .done answer := by
  rw [committing, Option.bind_eq_some_iff]
  refine exists_congr fun a => and_congr_right fun _ => ?_
  cases a.program <;> simp

/-- And it commits in one step. -/
theorem committing_step [Lockable κ] [DecidableEq ν] {ρ η : Type} {program : ρ → Program σ κ ν ε α}
    {event : η → σ → σ} {s : System σ κ ν ε α} {i : ℕ} {answer : α}
    (h : committing s i = some answer) (n : ℕ) :
    ∃ a s', step program event (.advance i n) s = some s' ∧ at' id s.running i = some a ∧
      a.program = .done answer := by
  obtain ⟨a, ha, hdone⟩ := committing_eq.mp h
  refine ⟨a, { s with store := a.pending s.store, running := s.running.set i none }, ?_, ha, hdone⟩
  rw [step, ha, Option.bind_some, advance, hdone]

section Places

variable [Lockable κ] [DecidableEq ν] {ρ η : Type} {program : ρ → Program σ κ ν ε α}
  {event : η → σ → σ} {s s' : System σ κ ν ε α} {a : InFlight σ κ ν ε α}

/-- The next statement of a transaction that goes on writes nothing, and what it holds it
keeps. -/
theorem advance_goes_on {i n : ℕ} (h : advance s i n a = some s') :
    ∃ x, s'.running = s.running.set i x ∧
      ∀ a', x = some a' → s'.store = s.store ∧ ∀ h ∈ a.held, h ∈ a'.held := by
  obtain ⟨program, held, pending⟩ := a
  cases program with
  | done answer =>
      cases h
      exact ⟨none, rfl, fun _ heq => nomatch heq⟩
  | fail error =>
      cases h
      exact ⟨none, rfl, fun _ heq => nomatch heq⟩
  | lock key next =>
      simp only [SharedLocks.advance] at h
      split at h
      · cases h
      · cases h
        refine ⟨_, rfl, fun a' heq => ⟨rfl, ?_⟩⟩
        cases heq
        exact fun _ => List.mem_cons_of_mem _
  | draw q next =>
      simp only [SharedLocks.advance] at h
      split at h
      · cases h
        refine ⟨_, rfl, fun a' heq => ⟨rfl, ?_⟩⟩
        cases heq
        exact fun _ => List.mem_cons_of_mem _
      · cases h
  | query next =>
      cases h
      refine ⟨_, rfl, fun a' heq => ⟨rfl, ?_⟩⟩
      cases heq
      exact fun _ => id
  | write change next =>
      cases h
      refine ⟨_, rfl, fun a' heq => ⟨rfl, ?_⟩⟩
      cases heq
      exact fun _ => id

/-- The places stay. -/
theorem length_running_le {l : Label ρ η} (hstep : step program event l s = some s') :
    s.running.length ≤ s'.running.length := by
  cases l with
  | begin request =>
      cases hstep
      rw [List.length_append]
      exact Nat.le_add_right _ _
  | other e =>
      cases hstep
      exact Nat.le_refl _
  | abort j =>
      obtain ⟨b, -, rfl⟩ := Option.map_eq_some_iff.mp hstep
      exact Nat.le_of_eq (List.length_set ..).symm
  | advance j n =>
      obtain ⟨b, -, hadvance⟩ := Option.bind_eq_some_iff.mp hstep
      obtain ⟨x, hrunning, -⟩ := advance_goes_on hadvance
      rw [hrunning]
      exact Nat.le_of_eq (List.length_set ..).symm

/-- A transaction that is in flight after a step that it has not begun with has been in flight
before, and has held no more. -/
theorem in_flight_before {i : ℕ} {a' : InFlight σ κ ν ε α} {l : Label ρ η}
    (hstep : step program event l s = some s') (hi : i < s.running.length) (ha' : at' id s'.running i = some a') :
    ∃ a, at' id s.running i = some a ∧ ∀ h ∈ a.held, h ∈ a'.held := by
  cases l with
  | begin request =>
      cases hstep
      rcases at'_append ha' with ha | ⟨hlast, -⟩
      · exact ⟨a', ha, fun _ => id⟩
      · exact absurd hi (by omega)
  | other e =>
      cases hstep
      exact ⟨a', ha', fun _ => id⟩
  | abort j =>
      obtain ⟨b, hb, rfl⟩ := Option.map_eq_some_iff.mp hstep
      obtain ⟨b', hat, rfl⟩ := at'_some.mp hb
      rw [at'_set hat] at ha'
      split at ha'
      · cases ha'
      · exact ⟨a', ha', fun _ => id⟩
  | advance j n =>
      obtain ⟨b, hb, hadvance⟩ := Option.bind_eq_some_iff.mp hstep
      obtain ⟨x, hrunning, hx⟩ := advance_goes_on hadvance
      obtain ⟨b', hat, hb'⟩ := at'_some.mp hb
      rw [hrunning, at'_set hat] at ha'
      split at ha'
      · rename_i hij
        subst hij
        exact ⟨b, hb, (hx a' ha').2⟩
      · exact ⟨a', ha', fun _ => id⟩

end Places

/-! ## Promises -/

/-- What the transactions keep: an invariant of the store, how the store evolves, what the
holder of a lock can rely on, which numbers no row has, and what a commit with an answer
does. -/
structure Protocol (σ κ ν α : Type) where
  Inv : σ → Prop
  Always : σ → σ → Prop
  Keep : κ → σ → σ → Prop
  Unused : ν → ℕ → σ → Prop
  Effect : α → σ → σ → Prop
  always_refl : ∀ s, Always s s
  always_trans : ∀ {s s' s''}, Always s s' → Always s' s'' → Always s s''
  keep_refl : ∀ k s, Keep k s s
  keep_trans : ∀ {k s s' s''}, Keep k s s' → Keep k s' s'' → Keep k s s''

namespace Protocol

variable (P : Protocol σ κ ν α)

/-- What is done to the store respects what somebody holds. -/
def Respects : Hold κ ν → σ → σ → Prop
  | .lock key, s, s' => P.Keep key s s'
  | .number q n, s, s' => P.Unused q n s → P.Unused q n s'

/-- What others may do to the store beside somebody who holds `held`. -/
structure Rely (held : List (Hold κ ν)) (s s' : σ) : Prop where
  always : P.Always s s'
  respects : ∀ h ∈ held, P.Respects h s s'

/-- What somebody who holds `held` may do to the store: it respects whatever somebody else
can hold beside it. -/
structure Guarantee [Lockable κ] (held : List (Hold κ ν)) (s s' : σ) : Prop where
  inv : P.Inv s'
  always : P.Always s s'
  respects : ∀ h, (∀ h' ∈ held, ¬ Conflict h h') → P.Respects h s s'

variable {P} {held : List (Hold κ ν)} {s s' s'' : σ}

theorem Respects.refl (h : Hold κ ν) (s : σ) : P.Respects h s s := by
  cases h with
  | lock key => exact P.keep_refl key s
  | number q n => exact id

theorem Respects.trans {h : Hold κ ν} (hs : P.Respects h s s') (hs' : P.Respects h s' s'') :
    P.Respects h s s'' := by
  cases h with
  | lock key => exact P.keep_trans hs hs'
  | number q n => exact hs' ∘ hs

theorem Rely.refl (held : List (Hold κ ν)) (s : σ) : P.Rely held s s :=
  ⟨P.always_refl s, fun h _ => Respects.refl h s⟩

theorem Rely.trans (hs : P.Rely held s s') (hs' : P.Rely held s' s'') : P.Rely held s s'' :=
  ⟨P.always_trans hs.always hs'.always,
    fun h hmem => (hs.respects h hmem).trans (hs'.respects h hmem)⟩

/-- Who holds less can rely on less. -/
theorem Rely.mono {held' : List (Hold κ ν)} (hs : P.Rely held s s')
    (hheld : ∀ h ∈ held', h ∈ held) : P.Rely held' s s' :=
  ⟨hs.always, fun h hmem => hs.respects h (hheld h hmem)⟩

/-- The store as it is keeps every promise. -/
theorem Guarantee.refl [Lockable κ] (hs : P.Inv s) : P.Guarantee held s s :=
  ⟨hs, P.always_refl s, fun h _ => Respects.refl h s⟩

end Protocol

/-! ## Programs that keep their promises -/

/-- A transaction from inside: what it holds, what it has changed, and what is
committed. -/
structure Local (σ κ ν : Type) where
  held : List (Hold κ ν)
  pending : σ → σ
  store : σ

/-- The others have been at work. -/
structure Local.After (P : Protocol σ κ ν α) (t : Local σ κ ν) (s : σ) : Prop where
  inv : P.Inv s
  rely : P.Rely t.held t.store s

/-- What somebody has written itself does not matter. -/
theorem Local.After.written {P : Protocol σ κ ν α} {held : List (Hold κ ν)}
    {pending pending' : σ → σ} {s s' : σ} (h : Local.After P ⟨held, pending, s⟩ s') :
    Local.After P ⟨held, pending', s⟩ s' := ⟨h.inv, h.rely⟩

/-- They have been at work since an earlier moment, too. -/
theorem Local.After.since {P : Protocol σ κ ν α} {held : List (Hold κ ν)} {pending pending' : σ → σ}
    {s s' s'' : σ} (h : Local.After P ⟨held, pending, s⟩ s')
    (h' : Local.After P ⟨held, pending', s'⟩ s'') : Local.After P ⟨held, pending, s⟩ s'' :=
  ⟨h'.inv, h.rely.trans h'.rely⟩

/-- And since before something was taken. -/
theorem Local.After.before {P : Protocol σ κ ν α} {held : List (Hold κ ν)} {k : Hold κ ν}
    {pending pending' : σ → σ} {s s' s'' : σ} (h : Local.After P ⟨held, pending, s⟩ s')
    (h' : Local.After P ⟨k :: held, pending', s'⟩ s'') : Local.After P ⟨held, pending, s⟩ s'' :=
  ⟨h'.inv, h.rely.trans (h'.rely.mono fun _ => List.mem_cons_of_mem k)⟩

theorem Local.After.refl {P : Protocol σ κ ν α} {t : Local σ κ ν} (h : P.Inv t.store) :
    t.After P t.store := ⟨h, Protocol.Rely.refl t.held t.store⟩

/-- A commit at any later moment keeps the promises. -/
def Local.Commits [Lockable κ] (P : Protocol σ κ ν α) (answer : α) (t : Local σ κ ν) : Prop :=
  ∀ s, t.After P s → P.Effect answer s (t.pending s) ∧ P.Guarantee t.held s (t.pending s)

/-- What is known at `t` is known at `t'`. -/
structure Local.Extends (P : Protocol σ κ ν α) (t t' : Local σ κ ν) : Prop where
  after : ∀ s, t'.After P s → t.After P s
  held : ∀ h ∈ t.held, h ∈ t'.held

theorem Local.Extends.trans {P : Protocol σ κ ν α} {t t' t'' : Local σ κ ν}
    (h : t.Extends P t') (h' : t'.Extends P t'') : t.Extends P t'' :=
  ⟨fun s hs => h.after s (h'.after s hs), fun k hk => h'.held k (h.held k hk)⟩

/-- The others have been at work, and more may be held. -/
theorem Local.After.extends {P : Protocol σ κ ν α} {t : Local σ κ ν} {s : σ} (hs : t.After P s)
    {held : List (Hold κ ν)} (hheld : ∀ h ∈ t.held, h ∈ held) (pending : σ → σ) :
    t.Extends P ⟨held, pending, s⟩ :=
  ⟨fun _ hs' => ⟨hs'.inv, hs.rely.trans (hs'.rely.mono hheld)⟩, hheld⟩

/-- A program comes to `Q` wherever it ends, whatever the others do between its
statements. -/
def Meets (P : Protocol σ κ ν α) :
    Program σ κ ν ε β → Local σ κ ν → (β → Local σ κ ν → Prop) → Prop
  | .done answer, t, Q => Q answer t
  | .fail _, _, _ => True
  | .lock key next, t, Q =>
    ∀ s, t.After P s → Meets P next ⟨.lock key :: t.held, t.pending, s⟩ Q
  | .draw q next, t, Q =>
    ∀ s n, t.After P s → P.Unused q n s →
      Meets P (next n) ⟨.number q n :: t.held, t.pending, s⟩ Q
  | .query next, t, Q =>
    ∀ s, t.After P s → Meets P (next (t.pending s)) { t with store := s } Q
  | .write change next, t, Q => Meets P next { t with pending := change ∘ t.pending } Q

section Rules

variable {P : Protocol σ κ ν α} {t : Local σ κ ν} {γ : Type} {Q : γ → Local σ κ ν → Prop}

/-- The rule of composition. -/
theorem meets_bind {x : Program σ κ ν ε β} {f : β → Program σ κ ν ε γ} :
    Meets P (x >>= f) t Q ↔ Meets P x t fun b t' => Meets P (f b) t' Q := by
  change Meets P (x.andThen f) t Q ↔ _
  induction x generalizing t with
  | done answer => rfl
  | fail error => rfl
  | lock key next ih => exact forall_congr' fun s => imp_congr_right fun _ => ih
  | draw q next ih =>
      exact forall_congr' fun s => forall_congr' fun n => imp_congr_right fun _ =>
        imp_congr_right fun _ => ih n
  | query next ih => exact forall_congr' fun s => imp_congr_right fun _ => ih _
  | write change next ih => exact ih

/-- A program that comes to something comes to what follows from it. -/
theorem Meets.mono {x : Program σ κ ν ε γ} {Q' : γ → Local σ κ ν → Prop} (h : Meets P x t Q)
    (hQ : ∀ a t', Q a t' → Q' a t') : Meets P x t Q' := by
  induction x generalizing t with
  | done answer => exact hQ _ _ h
  | fail error => trivial
  | lock key next ih => exact fun s hs => ih (h s hs)
  | draw q next ih => exact fun s n hs hn => ih n (h s n hs hn)
  | query next ih => exact fun s hs => ih _ (h s hs)
  | write change next ih => exact ih h

@[simp] theorem meets_pure {a : γ} : Meets P (pure a : Program σ κ ν ε γ) t Q ↔ Q a t := Iff.rfl

@[simp] theorem meets_fail {e : ε} : Meets P (.fail e : Program σ κ ν ε γ) t Q ↔ True := Iff.rfl

@[simp] theorem meets_select {f : σ → γ} :
    Meets P (select f : Program σ κ ν ε γ) t Q ↔
      ∀ s, t.After P s → Q (f (t.pending s)) { t with store := s } := Iff.rfl

@[simp] theorem meets_change {f : σ → σ} {Q : Unit → Local σ κ ν → Prop} :
    Meets P (change f : Program σ κ ν ε Unit) t Q ↔
      Q ⟨⟩ { t with pending := f ∘ t.pending } := Iff.rfl

@[simp] theorem meets_acquire {key : κ} {Q : Unit → Local σ κ ν → Prop} :
    Meets P (acquire key : Program σ κ ν ε Unit) t Q ↔
      ∀ s, t.After P s → Q ⟨⟩ ⟨.lock key :: t.held, t.pending, s⟩ := Iff.rfl

@[simp] theorem meets_nextval {q : ν} {Q : ℕ → Local σ κ ν → Prop} :
    Meets P (nextval q : Program σ κ ν ε ℕ) t Q ↔
      ∀ s n, t.After P s → P.Unused q n s →
        Q n ⟨.number q n :: t.held, t.pending, s⟩ := Iff.rfl

@[simp] theorem meets_liftExcept {x : Except ε γ} :
    Meets P (Program.liftExcept x : Program σ κ ν ε γ) t Q ↔ ∀ a, x = .ok a → Q a t := by
  cases x with
  | error e => exact ⟨fun _ _ h => (nomatch h), fun _ => trivial⟩
  | ok a =>
      simp only [Program.liftExcept, Meets, Except.ok.injEq]
      exact ⟨fun h _ heq => heq ▸ h, fun h => h a rfl⟩

@[simp] theorem meets_check {condition : Bool} {error : ε} {Q : Unit → Local σ κ ν → Prop} :
    Meets P (check condition error : Program σ κ ν ε Unit) t Q ↔ (condition = true → Q ⟨⟩ t) := by
  rcases condition with _ | _
  · exact ⟨fun _ => nofun, fun _ => trivial⟩
  · exact ⟨fun h _ => h, fun h => h rfl⟩

@[simp] theorem meets_fetchOne {row : σ → Option γ} {error : ε} :
    Meets P (fetchOne row error : Program σ κ ν ε γ) t Q ↔
      ∀ s, t.After P s → ∀ a, row (t.pending s) = some a → Q a { t with store := s } := by
  unfold fetchOne
  simp only [Meets]
  refine forall_congr' fun s => imp_congr_right fun _ => ?_
  rcases row (t.pending s) with _ | a
  · exact ⟨fun _ => nofun, fun _ => trivial⟩
  · exact ⟨fun h b hb => Option.some.inj hb ▸ h, fun h => h a rfl⟩

@[simp] theorem meets_onlyIf {condition : Bool} {statement : Program σ κ ν ε Unit}
    {Q : Unit → Local σ κ ν → Prop} :
    Meets P (onlyIf condition statement) t Q ↔
      (condition = true → Meets P statement t Q) ∧ (condition = false → Q ⟨⟩ t) := by
  rcases condition with _ | _
  · exact ⟨fun h => ⟨nofun, fun _ => h⟩, fun h => h.2 rfl⟩
  · exact ⟨fun h => ⟨fun _ => h, nofun⟩, fun h => h.1 rfl⟩

/-- A check that may be left out: what it has seen is known where it is made. -/
theorem either {condition : Bool} {seen R : σ → Prop} (hinv : P.Inv t.store)
    (h : ∀ s, t.After P s → (condition = true → seen s) → R s) :
    (condition = true → ∀ s, t.After P s → seen s → R s) ∧ (condition = false → R t.store) := by
  constructor
  · intro _ s hs hseen
    exact h s hs fun _ => hseen
  · intro hc
    exact h t.store (Local.After.refl hinv) fun ht => absurd (ht.symm.trans hc) (by decide)

/-- What is known before a program is known after it. -/
theorem Meets.extends {x : Program σ κ ν ε γ}
    (h : Meets P x t fun a t' => t.Extends P t' → Q a t') : Meets P x t Q := by
  suffices hrest : ∀ t' : Local σ κ ν, t.Extends P t' →
      Meets P x t' (fun a t'' => t.Extends P t'' → Q a t'') → Meets P x t' Q from
    hrest t ⟨fun _ hs => hs, fun _ => id⟩ h
  clear h
  induction x with
  | done answer => exact fun t' ht h => h ht
  | fail error => exact fun _ _ _ => trivial
  | lock key next ih =>
      exact fun t' ht h s hs =>
        ih _ (ht.trans (hs.extends (fun _ => List.mem_cons_of_mem _) _)) (h s hs)
  | draw q next ih =>
      exact fun t' ht h s n hs hn =>
        ih n _ (ht.trans (hs.extends (fun _ => List.mem_cons_of_mem _) _)) (h s n hs hn)
  | query next ih =>
      exact fun t' ht h s hs => ih _ _ (ht.trans (hs.extends (fun _ => id) _)) (h s hs)
  | write change next ih =>
      exact fun t' ht h => ih _ (ht.trans ⟨fun _ hs => ⟨hs.inv, hs.rely⟩, fun _ => id⟩) h

/-- Statements that may be left out, and write nothing. -/
theorem meets_onlyIf_quiet {condition : Bool} {statement : Program σ κ ν ε Unit}
    {F : Local σ κ ν → Prop} {Q : Unit → Local σ κ ν → Prop} (hinv : P.Inv t.store)
    (hquiet : condition = true →
      Meets P statement t fun _ t' => t'.pending = t.pending ∧ P.Inv t'.store ∧ F t')
    (h : ∀ t', t.Extends P t' → t'.pending = t.pending → P.Inv t'.store →
      (condition = true → F t') → Q ⟨⟩ t') :
    Meets P (onlyIf condition statement) t Q := by
  rw [meets_onlyIf]
  constructor
  · intro hc
    refine Meets.extends ((hquiet hc).mono ?_)
    rintro _ t' ⟨hpending, hinv', hF⟩ hext
    exact h t' hext hpending hinv' fun _ => hF
  · intro hc
    exact h t ⟨fun _ => id, fun _ => id⟩ rfl hinv
      fun ht => absurd (ht.symm.trans hc) (by decide)

/-- A lock that may be left out. -/
theorem meets_onlyIf_acquire {condition : Bool} {key : κ} {Q : Unit → Local σ κ ν → Prop}
    (hinv : P.Inv t.store)
    (h : ∀ t', t.Extends P t' → t'.pending = t.pending → P.Inv t'.store →
      (condition = true → .lock key ∈ t'.held) → Q ⟨⟩ t') :
    Meets P (onlyIf condition (acquire key) : Program σ κ ν ε Unit) t Q := by
  refine meets_onlyIf_quiet hinv ?_ h
  intro _
  rw [meets_acquire]
  exact fun s hs => ⟨rfl, hs.inv, List.mem_cons_self⟩

/-- The locks are held when all of them have been taken, whatever the others have done. -/
theorem meets_acquireAll {keys : List κ} {Q : Unit → Local σ κ ν → Prop} (hinv : P.Inv t.store)
    (h : ∀ t', t.Extends P t' → t'.pending = t.pending → P.Inv t'.store →
      (∀ key ∈ keys, .lock key ∈ t'.held) → Q ⟨⟩ t') :
    Meets P (acquireAll keys : Program σ κ ν ε Unit) t Q := by
  induction keys generalizing t with
  | nil => exact h t ⟨fun _ => id, fun _ => id⟩ rfl hinv nofun
  | cons key keys ih =>
      intro s hs
      refine ih hs.inv fun t' hext hpending hinv' hheld => ?_
      refine h t' ((hs.extends (fun _ => List.mem_cons_of_mem _) _).trans hext) hpending hinv' ?_
      intro key' hkey'
      rcases List.mem_cons.mp hkey' with rfl | hkey'
      · exact hext.held _ List.mem_cons_self
      · exact hheld key' hkey'

/-- A program that keeps its promises does so whatever the others have done. -/
theorem Meets.later [Lockable κ] {x : Program σ κ ν ε α}
    (h : Meets P x t fun answer t' => t'.Commits P answer) {s : σ} (hs : P.Rely t.held t.store s) :
    Meets P x { t with store := s } fun answer t' => t'.Commits P answer := by
  have hafter : ∀ s', Local.After P { t with store := s } s' → t.After P s' :=
    fun s' hs' => ⟨hs'.inv, hs.trans hs'.rely⟩
  induction x generalizing t with
  | done answer => exact fun s' hs' => h s' (hafter s' hs')
  | fail error => trivial
  | lock key next ih => exact fun s' hs' => h s' (hafter s' hs')
  | draw q next ih => exact fun s' n hs' hn => h s' n (hafter s' hs') hn
  | query next ih => exact fun s' hs' => h s' (hafter s' hs')
  | write change next ih =>
      exact ih (t := { t with pending := change ∘ t.pending }) h hs
        fun s' hs' => ⟨hs'.inv, hs.trans hs'.rely⟩

end Rules

/-! ## What holds beside each other -/

namespace Protocol

variable {P : Protocol σ κ ν α} {ρ η : Type}

variable [Lockable κ]

/-- The transaction in flight keeps its promises from here on. -/
def Kept (P : Protocol σ κ ν α) (store : σ) (a : InFlight σ κ ν ε α) : Prop :=
  Meets P a.program ⟨a.held, a.pending, store⟩ fun answer t => t.Commits P answer

/-- The invariant of the transactions in flight: each of them keeps its promises, and no
two of them hold what conflicts. -/
structure Sound (P : Protocol σ κ ν α) (s : System σ κ ν ε α) : Prop where
  inv : P.Inv s.store
  unused : ∀ q n, s.next q ≤ n → P.Unused q n s.store
  kept : ∀ i a, at' id s.running i = some a → P.Kept s.store a
  drawn : ∀ i a, at' id s.running i = some a → ∀ q n, .number q n ∈ a.held → n < s.next q
  apart : Apart id (fun a b => ∀ h ∈ a.held, ∀ h' ∈ b.held, ¬ Conflict h h') s.running

variable {s : System σ κ ν ε α} {i : ℕ} {a : InFlight σ κ ν ε α}

/-- Nothing is in flight. -/
theorem Sound.idle (hinv : P.Inv s.store)
    (hunused : ∀ q n, s.next q ≤ n → P.Unused q n s.store) (hrunning : s.running = []) :
    P.Sound s := by
  have hnone : ∀ i a, at' id s.running i ≠ some a := by
    intro i a ha
    obtain ⟨b, hb, -⟩ := at'_some.mp ha
    rw [hrunning] at hb
    cases hb
  refine ⟨hinv, hunused, ?_, ?_, ?_⟩
  · exact fun i a ha => absurd ha (hnone i a)
  · exact fun i a ha => absurd ha (hnone i a)
  · exact fun i _ a _ _ ha => absurd ha (hnone i a)

/-- A transaction goes on; what it comes to hold conflicts with nothing. -/
theorem Sound.replace (hs : P.Sound s) (ha : at' id s.running i = some a)
    {a' : InFlight σ κ ν ε α} {next : ν → ℕ} (hkept : P.Kept s.store a')
    (hnext : ∀ q, s.next q ≤ next q) (hdrawn : ∀ q n, .number q n ∈ a'.held → n < next q)
    (hnew : ∀ h ∈ a'.held, h ∈ a.held ∨ ∀ j b, j ≠ i → at' id s.running j = some b →
      ∀ h' ∈ b.held, ¬ Conflict h h') :
    P.Sound { s with next, running := s.running.set i (some a') } := by
  obtain ⟨a₀, hat, rfl⟩ := at'_some.mp ha
  have hset := at'_set (f := id) hat (some a')
  refine ⟨hs.inv, fun q n hn => hs.unused q n (Nat.le_trans (hnext q) hn), ?_, ?_, ?_⟩
  · intro j b hb
    rw [hset] at hb
    split at hb
    · cases hb
      exact hkept
    · exact hs.kept j b hb
  · intro j b hb q n hn
    rw [hset] at hb
    split at hb
    · cases hb
      exact hdrawn q n hn
    · exact Nat.lt_of_lt_of_le (hs.drawn j b hb q n hn) (hnext q)
  · refine hs.apart.set (fun b c hbc h hc h' hb hconf => hbc h' hb h hc hconf.symm) hat ?_
    intro b hb j c hj hc h hh
    cases hb
    rcases hnew h hh with hold | hfree
    · exact hs.apart i j a c (Ne.symm hj) ha hc h hold
    · exact hfree j c hj hc

/-- A commit does what its answer says, and keeps the promises. -/
theorem Sound.commits (hs : P.Sound s) (ha : at' id s.running i = some a) {answer : α}
    (hdone : a.program = .done answer) :
    P.Effect answer s.store (a.pending s.store) ∧
      P.Guarantee a.held s.store (a.pending s.store) := by
  have hkept := hs.kept i a ha
  rw [Kept, hdone] at hkept
  exact hkept s.store (Local.After.refl hs.inv)

/-- A commit does what its answer says. -/
theorem Sound.effect (hs : P.Sound s) (ha : at' id s.running i = some a) {answer : α}
    (hdone : a.program = .done answer) : P.Effect answer s.store (a.pending s.store) :=
  (hs.commits ha hdone).1

/-- A transaction is over. -/
theorem Sound.remove (hs : P.Sound s) (ha : at' id s.running i = some a) :
    P.Sound { s with running := s.running.set i none } := by
  obtain ⟨a₀, hat, rfl⟩ := at'_some.mp ha
  have hset : ∀ j b, at' id (s.running.set i none) j = some b → at' id s.running j = some b := by
    intro j b hb
    rw [at'_set hat] at hb
    split at hb
    · cases hb
    · exact hb
  refine ⟨hs.inv, hs.unused, fun j b hb => hs.kept j b (hset j b hb),
    fun j b hb => hs.drawn j b (hset j b hb), ?_⟩
  exact fun j k b c hjk hb hc => hs.apart j k b c hjk (hset j b hb) (hset k c hc)

/-- The store changes as somebody else promises. -/
theorem Sound.change (hs : P.Sound s) {held : List (Hold κ ν)} {store : σ}
    (hstore : P.Guarantee held s.store store)
    (hapart : ∀ j b, at' id s.running j = some b → ∀ h ∈ b.held, ∀ h' ∈ held, ¬ Conflict h h')
    (hdrawn : ∀ q n, .number q n ∈ held → n < s.next q) : P.Sound { s with store } := by
  refine ⟨hstore.inv, ?_, ?_, hs.drawn, hs.apart⟩
  · intro q n hn
    refine hstore.respects (.number q n) ?_ (hs.unused q n hn)
    intro h' hmem hconf
    cases h' with
    | lock key => exact hconf
    | number q' n' =>
        obtain ⟨rfl, rfl⟩ := hconf
        exact absurd (hdrawn q n hmem) (Nat.not_lt.mpr hn)
  · intro j b hb
    have hrely : P.Rely b.held s.store store :=
      ⟨hstore.always, fun h hmem => hstore.respects h (hapart j b hb h hmem)⟩
    exact Meets.later (t := ⟨b.held, b.pending, s.store⟩) (hs.kept j b hb) hrely

section Steps

variable [DecidableEq ν]

/-- The next statement of a transaction keeps the invariant, and the store evolves. -/
theorem Sound.advance (hs : P.Sound s) (ha : at' id s.running i = some a) {n : ℕ}
    {s' : System σ κ ν ε α} (h : advance s i n a = some s') :
    P.Sound s' ∧ P.Always s.store s'.store := by
  have hkept := hs.kept i a ha
  have hnow : Local.After P ⟨a.held, a.pending, s.store⟩ s.store := Local.After.refl hs.inv
  have hnext : ∀ q, s.next q ≤ s.next q := fun q => Nat.le_refl _
  have hdrawn := hs.drawn i a ha
  obtain ⟨program, held, pending⟩ := a
  cases program with
  | done answer =>
      cases h
      obtain ⟨-, hcommit⟩ := hkept s.store hnow
      refine ⟨(hs.remove ha).change hcommit ?_ hdrawn, hcommit.always⟩
      obtain ⟨a₀, hat, rfl⟩ := at'_some.mp ha
      intro j b hb
      rw [at'_set hat] at hb
      split at hb
      · cases hb
      · rename_i hj
        exact hs.apart j i b _ hj hb ha
  | fail error =>
      cases h
      exact ⟨hs.remove ha, P.always_refl _⟩
  | lock key next =>
      simp only [SharedLocks.advance] at h
      split at h
      · cases h
      · rename_i hfree
        cases h
        refine ⟨hs.replace ha (hkept s.store hnow) hnext ?_ ?_, P.always_refl _⟩
        · intro q n hn
          rcases List.mem_cons.mp hn with heq | hn
          · cases heq
          · exact hdrawn q n hn
        · intro hold hmem
          rcases List.mem_cons.mp hmem with rfl | hmem
          · refine .inr fun j b hj hb h' hmem' hconf => hfree ?_
            obtain ⟨c, hc, hcb⟩ := exists_other hj hb
            obtain rfl : c = some b := hcb
            refine List.any_eq_true.mpr ⟨some b, hc, List.any_eq_true.mpr ⟨h', hmem', ?_⟩⟩
            cases h' with
            | lock key' => exact hconf
            | number => exact hconf.elim
          · exact .inl hmem
  | draw q next =>
      simp only [SharedLocks.advance] at h
      split at h
      · rename_i hle
        cases h
        refine ⟨hs.replace ha (hkept s.store n hnow (hs.unused q n hle)) ?_ ?_ ?_,
          P.always_refl _⟩
        · intro q'
          split
          · rename_i hq
            subst hq
            omega
          · exact Nat.le_refl _
        · intro q' m hm
          rcases List.mem_cons.mp hm with heq | hm
          · cases heq
            rw [if_pos rfl]
            exact Nat.lt_succ_self n
          · have := hdrawn q' m hm
            split
            · rename_i hq
              subst hq
              omega
            · exact this
        · intro hold hmem
          rcases List.mem_cons.mp hmem with rfl | hmem
          · refine .inr fun j b hj hb h' hmem' hconf => ?_
            cases h' with
            | lock => exact hconf
            | number q' n' =>
                obtain ⟨rfl, rfl⟩ := hconf
                exact absurd (hs.drawn j b hb q n hmem') (by omega)
          · exact .inl hmem
      · cases h
  | query next =>
      cases h
      exact ⟨hs.replace ha (hkept s.store hnow) hnext hdrawn fun h hh => .inl hh,
        P.always_refl _⟩
  | write change next =>
      cases h
      exact ⟨hs.replace ha hkept hnext hdrawn fun h hh => .inl hh, P.always_refl _⟩

variable {program : ρ → Program σ κ ν ε α} {event : η → σ → σ}
  {init : System σ κ ν ε α → Prop} {guard : System σ κ ν ε α → Label ρ η → Prop}

/-- One step keeps the invariant, and the store evolves, if every program keeps its
promises by itself. -/
theorem Sound.step
    (hprogram : ∀ r s, P.Inv s → Meets P (program r) ⟨[], id, s⟩ fun answer t => t.Commits P answer)
    (hevent : ∀ e s, P.Inv s → P.Guarantee [] s (event e s)) {l : Label ρ η}
    {s' : System σ κ ν ε α} (hs : P.Sound s)
    (h : step program event l s = some s') : P.Sound s' ∧ P.Always s.store s'.store := by
  cases l with
  | begin request =>
      cases h
      have hat : ∀ j b, at' id (s.running ++ [some ⟨program request, [], id⟩]) j = some b →
          at' id s.running j = some b ∨ b = ⟨program request, [], id⟩ := by
        intro j b hb
        rcases at'_append hb with hb | ⟨-, hb⟩
        · exact .inl hb
        · exact .inr (Option.some.inj hb).symm
      refine ⟨⟨hs.inv, hs.unused, ?_, ?_, ?_⟩, P.always_refl _⟩
      · intro j b hb
        rcases hat j b hb with hb | rfl
        · exact hs.kept j b hb
        · exact hprogram request s.store hs.inv
      · intro j b hb
        rcases hat j b hb with hb | rfl
        · exact hs.drawn j b hb
        · intro q n hn
          cases hn
      · intro j k b c hjk hb hc h hh
        rcases at'_append hb with hb | ⟨-, hb⟩
        · rcases at'_append hc with hc | ⟨-, hc⟩
          · exact hs.apart j k b c hjk hb hc h hh
          · cases hc
            intro h' hh'
            cases hh'
        · cases hb
          cases hh
  | advance i n =>
      obtain ⟨a, ha, h⟩ := Option.bind_eq_some_iff.mp h
      exact hs.advance ha h
  | abort i =>
      obtain ⟨a, ha, rfl⟩ := Option.map_eq_some_iff.mp h
      exact ⟨hs.remove ha, P.always_refl _⟩
  | other e =>
      cases h
      have hstore := hevent e s.store hs.inv
      refine ⟨hs.change hstore (fun _ _ _ _ _ _ h' => nomatch h') ?_, hstore.always⟩
      intro q n hn
      cases hn

/-- **Programs that keep their promises by themselves keep the invariant beside each
other.** -/
theorem invariant
    (hprogram : ∀ r s, P.Inv s → Meets P (program r) ⟨[], id, s⟩ fun answer t => t.Commits P answer)
    (hevent : ∀ e s, P.Inv s → P.Guarantee [] s (event e s)) (hinit : ∀ s, init s → P.Sound s)
    (h : Reach (step program event) guard init s) : P.Sound s :=
  h.invariant hinit fun _ _ _ hs _ hstep => (hs.step hprogram hevent hstep).1

/-- **And the store evolves along every run.** -/
theorem always
    (hprogram : ∀ r s, P.Inv s → Meets P (program r) ⟨[], id, s⟩ fun answer t => t.Commits P answer)
    (hevent : ∀ e s, P.Inv s → P.Guarantee [] s (event e s)) (hinit : ∀ s, init s → P.Sound s)
    (h : Reach (step program event) guard init s) {s' : System σ κ ν ε α}
    (hlead : Leads (step program event) guard s s') : P.Always s.store s'.store :=
  hlead.rel (R := fun s s' => P.Always s.store s'.store) (fun s => P.always_refl s.store)
    (fun _ _ _ => P.always_trans)
    (fun _ _ _ hr _ hstep => ((invariant hprogram hevent hinit hr).step hprogram hevent hstep).2) h

/-- **And every commit does what its answer says.** -/
theorem committed
    (hprogram : ∀ r s, P.Inv s → Meets P (program r) ⟨[], id, s⟩ fun answer t => t.Commits P answer)
    (hevent : ∀ e s, P.Inv s → P.Guarantee [] s (event e s)) (hinit : ∀ s, init s → P.Sound s)
    (h : Reach (step program event) guard init s) (ha : at' id s.running i = some a) {answer : α}
    (hdone : a.program = .done answer) : P.Effect answer s.store (a.pending s.store) :=
  (invariant hprogram hevent hinit h).effect ha hdone

end Steps

/-! ## An invariant alone -/

/-- Nothing but an invariant is promised. -/
def ofInv (κ ν α : Type) (Inv : σ → Prop) : Protocol σ κ ν α where
  Inv := Inv
  Always _ _ := True
  Keep _ _ _ := True
  Unused _ _ _ := True
  Effect _ _ _ := True
  always_refl _ := trivial
  always_trans _ _ := trivial
  keep_refl _ _ := trivial
  keep_trans _ _ := trivial

variable {Inv : σ → Prop}

theorem guarantee_ofInv {held : List (Hold κ ν)} {s s' : σ} (h : Inv s') :
    (ofInv κ ν α Inv).Guarantee held s s' := by
  refine ⟨h, trivial, ?_⟩
  rintro (key | ⟨q, n⟩) -
  · trivial
  · exact id

/-- A program keeps the invariant if each of its writes does. -/
theorem meets_ofInv {x : Program σ κ ν ε α} {t : Local σ κ ν}
    (hx : x.Writes fun f => ∀ s, Inv s → Inv (f s)) (ht : ∀ s, Inv s → Inv (t.pending s)) :
    Meets (ofInv κ ν α Inv) x t fun answer t' => t'.Commits (ofInv κ ν α Inv) answer := by
  induction x generalizing t with
  | done answer => exact fun s hs => ⟨trivial, guarantee_ofInv (ht s hs.inv)⟩
  | fail error => trivial
  | lock key next ih => exact fun s _ => ih hx ht
  | draw q next ih => exact fun s n _ _ => ih n (hx n) ht
  | query next ih => exact fun s _ => ih _ (hx _) ht
  | write change next ih => exact ih hx.2 fun s hs => hx.1 _ (ht s hs)

end Protocol

end SharedLocks
