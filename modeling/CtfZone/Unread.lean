/-
# What transactions do not read

A part of the store that no query reads and no write lets through has no influence: a run of the
transactions is one of the stores without it, too.

* `Blind f x` : the program `x` does the same wherever two stores agree under `f`;
* `run_blind` : and so does every run.
-/
import CtfZone.SharedLocks

namespace SharedLocks

open Runs Slots Locking Locking.Program

variable {σ κ ν ε α β : Type} {f : σ → σ}

/-- A program that does the same on a store and on what `f` leaves of it. -/
def Blind (f : σ → σ) : Program σ κ ν ε α → Prop
  | .done _ => True
  | .fail _ => True
  | .lock _ next => Blind f next
  | .draw _ next => ∀ n, Blind f (next n)
  | .query next => ∀ s, next (f s) = next s ∧ Blind f (next s)
  | .write change next => (∀ s, change (f s) = f (change s)) ∧ Blind f next

/-- The rule of composition. -/
theorem Blind.bind {x : Program σ κ ν ε β} {g : β → Program σ κ ν ε α} (hx : Blind f x)
    (hg : ∀ b, Blind f (g b)) : Blind f (x >>= g) := by
  change Blind f (x.andThen g)
  induction x with
  | done b => exact hg b
  | fail error => trivial
  | lock key next ih => exact ih hx
  | draw q next ih => exact fun n => ih n (hx n)
  | query next ih =>
      intro s
      obtain ⟨hsame, hnext⟩ := hx s
      refine ⟨?_, ih s hnext⟩
      show (next (f s)).andThen g = (next s).andThen g
      rw [hsame]
  | write change next ih => exact ⟨hx.1, ih hx.2⟩

theorem blind_pure (a : α) : Blind f (pure a : Program σ κ ν ε α) := trivial

theorem blind_acquire (key : κ) : Blind f (acquire key : Program σ κ ν ε Unit) := trivial

theorem blind_nextval (q : ν) : Blind f (nextval q : Program σ κ ν ε ℕ) := fun _ => trivial

theorem blind_select {g : σ → α} (h : ∀ s, g (f s) = g s) :
    Blind f (select g : Program σ κ ν ε α) := by
  intro s
  constructor
  · show Program.done (g (f s)) = .done (g s)
    rw [h]
  · trivial

theorem blind_change {g : σ → σ} (h : ∀ s, g (f s) = f (g s)) :
    Blind f (change g : Program σ κ ν ε Unit) := ⟨h, trivial⟩

theorem blind_liftExcept (x : Except ε α) : Blind f (liftExcept x : Program σ κ ν ε α) := by
  rcases x with error | a
  · trivial
  · trivial

theorem blind_check (condition : Bool) (error : ε) :
    Blind f (check condition error : Program σ κ ν ε Unit) := by
  rcases condition with _ | _
  · trivial
  · trivial

/-- A query for one row, of which only a part is used. -/
theorem blind_fetchOne {row : σ → Option β} {error : ε} {g : β → Program σ κ ν ε α}
    (rest : β → β) (hrow : ∀ s, row (f s) = (row s).map rest) (hg : ∀ b, g (rest b) = g b)
    (hblind : ∀ b, Blind f (g b)) :
    Blind f ((fetchOne row error : Program σ κ ν ε β) >>= g) := by
  intro s
  rcases hs : row s with _ | b
  · simp [hrow, hs, Program.andThen, Blind]
  · simp [hrow, hs, Program.andThen, hg, hblind]

theorem blind_acquireAll : ∀ keys : List κ, Blind f (acquireAll keys : Program σ κ ν ε Unit)
  | [] => trivial
  | _ :: keys => blind_acquireAll keys

/-! ## Along a run -/

/-- What is left of the store, and everything else. -/
def System.map (f : σ → σ) (s : System σ κ ν ε α) : System σ κ ν ε α :=
  { s with store := f s.store }

/-- Something else happens in place of what happens beside the transactions. -/
def relabel {ρ η : Type} (g : η → η) : Label ρ η → Label ρ η
  | .other e => .other (g e)
  | l => l

/-- The transactions in flight are blind, and so is what they have written. -/
def AllBlind (f : σ → σ) (s : System σ κ ν ε α) : Prop :=
  ∀ i a, at' id s.running i = some a →
    Blind f a.program ∧ ∀ t, a.pending (f t) = f (a.pending t)

/-- A transaction at a place goes on. -/
theorem AllBlind.set {s : System σ κ ν ε α} (hs : AllBlind f s) {i : ℕ} {a : InFlight σ κ ν ε α}
    (ha : at' id s.running i = some a) {x : Option (InFlight σ κ ν ε α)}
    (hx : ∀ a', x = some a' → Blind f a'.program ∧ ∀ t, a'.pending (f t) = f (a'.pending t))
    {store : σ} {next : ν → ℕ} : AllBlind f ⟨store, next, s.running.set i x⟩ := by
  obtain ⟨b, hat, rfl⟩ := at'_some.mp ha
  intro j c hc
  rw [at'_set hat] at hc
  split at hc
  · exact hx c hc
  · exact hs j c hc

section Steps

variable [Lockable κ] [DecidableEq ν] {ρ η : Type} {program : ρ → Program σ κ ν ε α}
  {event : η → σ → σ} {g : η → η} {s s' : System σ κ ν ε α}

/-- The next statement of a transaction does the same. -/
theorem AllBlind.advance (hs : AllBlind f s) {i n : ℕ} {a : InFlight σ κ ν ε α}
    (ha : at' id s.running i = some a) (h : advance s i n a = some s') :
    SharedLocks.advance (s.map f) i n a = some (s'.map f) ∧ AllBlind f s' := by
  obtain ⟨program, held, pending⟩ := a
  obtain ⟨hblind, hpending⟩ : Blind f program ∧ ∀ t, pending (f t) = f (pending t) := hs i _ ha
  cases program with
  | done answer =>
      cases h
      refine ⟨?_, hs.set ha (by rintro _ ⟨⟩)⟩
      simp only [SharedLocks.advance, System.map]
      rw [hpending]
  | fail error =>
      cases h
      exact ⟨rfl, hs.set ha (by rintro _ ⟨⟩)⟩
  | lock key next =>
      simp only [SharedLocks.advance] at h
      split at h
      · cases h
      · rename_i hfree
        cases h
        refine ⟨if_neg hfree, hs.set ha ?_⟩
        rintro _ ⟨⟩
        exact ⟨hblind, hpending⟩
  | draw q next =>
      simp only [SharedLocks.advance] at h
      split at h
      · rename_i hle
        cases h
        refine ⟨if_pos hle, hs.set ha ?_⟩
        rintro _ ⟨⟩
        exact ⟨hblind n, hpending⟩
      · cases h
  | query next =>
      cases h
      obtain ⟨hsame, hnext⟩ := hblind (pending s.store)
      constructor
      · simp only [SharedLocks.advance, System.map]
        rw [hpending, hsame]
      · apply hs.set ha
        rintro _ ⟨⟩
        exact ⟨hnext, hpending⟩
  | write change next =>
      cases h
      refine ⟨rfl, hs.set ha ?_⟩
      rintro _ ⟨⟩
      refine ⟨hblind.2, fun t => ?_⟩
      show change (pending (f t)) = f (change (pending t))
      rw [hpending, hblind.1]

/-- One step does the same, if what happens beside the transactions does. -/
theorem AllBlind.step (hprogram : ∀ r, Blind f (program r)) (hs : AllBlind f s) {l : Label ρ η}
    (h : step program event l s = some s') :
    ((∀ e, l = .other e → ∀ t, event (g e) (f t) = f (event e t)) →
      step program event (relabel g l) (s.map f) = some (s'.map f)) ∧ AllBlind f s' := by
  cases l with
  | begin request =>
      cases h
      refine ⟨fun _ => rfl, fun i a ha => ?_⟩
      rcases at'_append ha with ha | ⟨-, ha⟩
      · exact hs i a ha
      · cases ha
        exact ⟨hprogram request, fun _ => rfl⟩
  | other e =>
      cases h
      constructor
      · intro hevent
        show some _ = some _
        rw [System.map, System.map, hevent e rfl]
      · exact hs
  | abort i =>
      obtain ⟨a, ha, rfl⟩ := Option.map_eq_some_iff.mp h
      refine ⟨fun _ => ?_, hs.set ha (by rintro _ ⟨⟩)⟩
      show (at' id s.running i).map _ = _
      rw [ha]
      rfl
  | advance i n =>
      obtain ⟨a, ha, h⟩ := Option.bind_eq_some_iff.mp h
      obtain ⟨hadvance, hblind⟩ := hs.advance ha h
      refine ⟨fun _ => ?_, hblind⟩
      show (at' id s.running i).bind (SharedLocks.advance (s.map f) i n) = _
      rw [ha]
      exact hadvance

/-- The transactions in flight are blind in every state. -/
theorem AllBlind.reach {init : System σ κ ν ε α → Prop}
    {guard : System σ κ ν ε α → Label ρ η → Prop} (hprogram : ∀ r, Blind f (program r))
    (hinit : ∀ s, init s → s.running = [])
    (h : Reach (SharedLocks.step program event) guard init s) : AllBlind f s := by
  refine h.invariant ?_ fun s l s' hs _ hstep => (AllBlind.step (g := id) hprogram hs hstep).2
  intro s hs i a ha
  obtain ⟨b, hb, -⟩ := at'_some.mp ha
  rw [hinit s hs] at hb
  cases hb

/-- **A run of programs that do not read a part of the store is one without it**, with the same
transactions in flight. -/
theorem run_blind (hprogram : ∀ r, Blind f (program r)) {labels : List (Label ρ η)}
    (hevent : ∀ e, .other e ∈ labels → ∀ t, event (g e) (f t) = f (event e t))
    (hs : AllBlind f s) (h : run (step program event) labels s = some s') :
    run (step program event) (labels.map (relabel g)) (s.map f) = some (s'.map f) := by
  induction labels generalizing s with
  | nil =>
      cases h
      rfl
  | cons l labels ih =>
      rw [run, Option.bind_eq_some_iff] at h
      obtain ⟨s₁, h₁, h⟩ := h
      obtain ⟨hstep, hs₁⟩ := AllBlind.step (g := g) hprogram hs h₁
      rw [List.map_cons, run, hstep fun e he => hevent e (he ▸ List.mem_cons_self)]
      exact ih (fun e he => hevent e (List.mem_cons_of_mem l he)) hs₁ h

end Steps

end SharedLocks
