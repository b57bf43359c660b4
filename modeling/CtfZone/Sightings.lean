/-
# What a transaction has seen

The answer of a transaction tells what its queries have seen, at moments that lie before the
commit in the run.

* `Sees` : where a program ends, what is known of the moments of its queries;
* `Sighted` : the moments of a run at which a transaction has been in flight;
* `sighting` : what a program tells has been so at one of them;
* `Sighted.respects` : and what it has held at that moment has been respected since.
-/
import CtfZone.SharedLocks

namespace SharedLocks

open Runs Slots Locking Locking.Program

variable {σ κ ν ε α β γ : Type}

/-- A transaction from inside: what it holds, what it has changed, and what it has held and
what was committed when its queries were run. -/
structure Trail (σ κ ν : Type) where
  held : List (Hold κ ν)
  pending : σ → σ
  seen : List (Hold κ ν) → σ → Prop

/-- A program comes to `Q` wherever it ends, whatever is committed when its queries run. -/
def Sees : Program σ κ ν ε β → Trail σ κ ν → (β → Trail σ κ ν → Prop) → Prop
  | .done b, t, Q => Q b t
  | .fail _, _, _ => True
  | .lock key next, t, Q => Sees next { t with held := .lock key :: t.held } Q
  | .draw q next, t, Q => ∀ n, Sees (next n) { t with held := .number q n :: t.held } Q
  | .query next, t, Q => ∀ s, Sees (next (t.pending s))
      { t with seen := fun held s' => t.seen held s' ∨ held = t.held ∧ s' = s } Q
  | .write change next, t, Q => Sees next { t with pending := change ∘ t.pending } Q

section Rules

variable {t : Trail σ κ ν} {Q : γ → Trail σ κ ν → Prop}

/-- The rule of composition. -/
@[simp] theorem sees_bind {x : Program σ κ ν ε β} {f : β → Program σ κ ν ε γ} :
    Sees (x >>= f) t Q ↔ Sees x t fun b t' => Sees (f b) t' Q := by
  change Sees (x.andThen f) t Q ↔ _
  induction x generalizing t with
  | done b => rfl
  | fail error => rfl
  | lock key next ih => exact ih
  | draw q next ih => exact forall_congr' fun n => ih n
  | query next ih => exact forall_congr' fun s => ih _
  | write change next ih => exact ih

/-- What is seen of a program is seen where more has been seen before. -/
theorem Sees.mono {x : Program σ κ ν ε γ} {Q' : γ → Trail σ κ ν → Prop} (h : Sees x t Q)
    {seen : List (Hold κ ν) → σ → Prop} (hseen : ∀ held s, t.seen held s → seen held s)
    (hQ : ∀ a held pending seen₀ seen₁, (∀ held s, seen₀ held s → seen₁ held s) →
      Q a ⟨held, pending, seen₀⟩ → Q' a ⟨held, pending, seen₁⟩) :
    Sees x { t with seen } Q' := by
  induction x generalizing t seen with
  | done a => exact hQ a _ _ _ _ hseen h
  | fail error => trivial
  | lock key next ih => exact ih h hseen
  | draw q next ih => exact fun n => ih n (h n) hseen
  | query next ih => exact fun s => ih _ (h s) fun held s' hs => hs.imp_left (hseen held s')
  | write change next ih => exact ih h hseen

@[simp] theorem sees_pure {a : γ} : Sees (pure a : Program σ κ ν ε γ) t Q ↔ Q a t := Iff.rfl

@[simp] theorem sees_fail {e : ε} : Sees (.fail e : Program σ κ ν ε γ) t Q ↔ True := Iff.rfl

@[simp] theorem sees_select {f : σ → γ} :
    Sees (select f : Program σ κ ν ε γ) t Q ↔ ∀ s, Q (f (t.pending s))
      { t with seen := fun held s' => t.seen held s' ∨ held = t.held ∧ s' = s } := Iff.rfl

@[simp] theorem sees_change {f : σ → σ} {Q : Unit → Trail σ κ ν → Prop} :
    Sees (change f : Program σ κ ν ε Unit) t Q ↔ Q ⟨⟩ { t with pending := f ∘ t.pending } := Iff.rfl

@[simp] theorem sees_acquire {key : κ} {Q : Unit → Trail σ κ ν → Prop} :
    Sees (acquire key : Program σ κ ν ε Unit) t Q ↔
      Q ⟨⟩ { t with held := .lock key :: t.held } := Iff.rfl

@[simp] theorem sees_nextval {q : ν} {Q : ℕ → Trail σ κ ν → Prop} :
    Sees (nextval q : Program σ κ ν ε ℕ) t Q ↔
      ∀ n, Q n { t with held := .number q n :: t.held } := Iff.rfl

@[simp] theorem sees_liftExcept {x : Except ε γ} :
    Sees (Program.liftExcept x : Program σ κ ν ε γ) t Q ↔ ∀ a, x = .ok a → Q a t := by
  rcases x with error | a
  · exact ⟨fun _ _ => nofun, fun _ => trivial⟩
  · exact ⟨fun h _ heq => Except.ok.inj heq ▸ h, fun h => h a rfl⟩

@[simp] theorem sees_check {condition : Bool} {error : ε} {Q : Unit → Trail σ κ ν → Prop} :
    Sees (check condition error : Program σ κ ν ε Unit) t Q ↔ (condition = true → Q ⟨⟩ t) := by
  rcases condition with _ | _
  · exact ⟨fun _ => nofun, fun _ => trivial⟩
  · exact ⟨fun h _ => h, fun h => h rfl⟩

@[simp] theorem sees_fetchOne {row : σ → Option γ} {error : ε} :
    Sees (fetchOne row error : Program σ κ ν ε γ) t Q ↔ ∀ s a, row (t.pending s) = some a →
      Q a { t with seen := fun held s' => t.seen held s' ∨ held = t.held ∧ s' = s } := by
  unfold fetchOne
  simp only [Sees]
  refine forall_congr' fun s => ?_
  rcases row (t.pending s) with _ | a
  · exact ⟨fun _ _ => nofun, fun _ => trivial⟩
  · exact ⟨fun h b hb => Option.some.inj hb ▸ h, fun h => h a rfl⟩

@[simp] theorem sees_onlyIf {condition : Bool} {statement : Program σ κ ν ε Unit}
    {Q : Unit → Trail σ κ ν → Prop} :
    Sees (onlyIf condition statement) t Q ↔
      (condition = true → Sees statement t Q) ∧ (condition = false → Q ⟨⟩ t) := by
  rcases condition with _ | _
  · exact ⟨fun h => ⟨nofun, fun _ => h⟩, fun h => h.2 rfl⟩
  · exact ⟨fun h => ⟨fun _ => h, nofun⟩, fun h => h.1 rfl⟩

/-- Whatever a program does, what was seen before it stays seen. -/
theorem Sees.any {x : Program σ κ ν ε γ}
    (h : ∀ a t', (∀ held s, t.seen held s → t'.seen held s) → Q a t') : Sees x t Q := by
  induction x generalizing t with
  | done a => exact h a t fun _ _ => id
  | fail error => trivial
  | lock key next ih => exact ih h
  | draw q next ih => exact fun n => ih n h
  | query next ih => exact fun s => ih _ fun a t' ht => h a t' fun held s' hs => ht held s' (.inl hs)
  | write change next ih => exact ih h

/-- What is told is told where more has been seen. -/
theorem Sees.more {Told : γ → Prop} {W : γ → List (Hold κ ν) → σ → Prop} {x : Program σ κ ν ε γ}
    {held : List (Hold κ ν)} {pending : σ → σ} {seen seen' : List (Hold κ ν) → σ → Prop}
    (hseen : ∀ held s, seen held s → seen' held s)
    (h : Sees x ⟨held, pending, seen⟩ fun answer t =>
      Told answer → ∃ held store, t.seen held store ∧ W answer held store) :
    Sees x ⟨held, pending, seen'⟩ fun answer t =>
      Told answer → ∃ held store, t.seen held store ∧ W answer held store := by
  refine Sees.mono h hseen ?_
  intro answer _ _ seen₀ seen₁ hsub hW htold
  obtain ⟨held', store, hs, hw⟩ := hW htold
  exact ⟨held', store, hsub held' store hs, hw⟩

end Rules

section Steps

variable [Lockable κ] [DecidableEq ν] {ρ η : Type} {program : ρ → Program σ κ ν ε α}
  {event : η → σ → σ} {init : System σ κ ν ε α → Prop}
  {guard : System σ κ ν ε α → Label ρ η → Prop} {s : System σ κ ν ε α} {i : ℕ}
  {a : InFlight σ κ ν ε α}

/-- In an earlier state of the run the transaction at the place has held `held`, and `store`
was committed. -/
def Sighted (program : ρ → Program σ κ ν ε α) (event : η → σ → σ)
    (init : System σ κ ν ε α → Prop)
    (guard : System σ κ ν ε α → Label ρ η → Prop) (s : System σ κ ν ε α) (i : ℕ)
    (held : List (Hold κ ν)) (store : σ) : Prop :=
  ∃ s₀, Reach (step program event) guard init s₀ ∧ Leads (step program event) guard s₀ s ∧
    s₀.store = store ∧
    ∃ a₀, at' id s₀.running i = some a₀ ∧ a₀.held = held

/-- A transaction in flight tells, when it commits, of a moment at which `W` holds. -/
def Telling (program : ρ → Program σ κ ν ε α) (event : η → σ → σ)
    (init : System σ κ ν ε α → Prop)
    (guard : System σ κ ν ε α → Label ρ η → Prop) (Told : α → Prop)
    (W : α → List (Hold κ ν) → σ → Prop) (s : System σ κ ν ε α) : Prop :=
  ∀ i a, at' id s.running i = some a →
    Sees a.program ⟨a.held, a.pending, Sighted program event init guard s i⟩ fun answer t =>
      Told answer → ∃ held store, t.seen held store ∧ W answer held store

variable {Told : α → Prop} {W : α → List (Hold κ ν) → σ → Prop}

/-- One step keeps what is told true. -/
theorem Telling.step
    (hprogram : ∀ r, Sees (program r) ⟨[], id, fun _ _ => False⟩ fun answer t =>
      Told answer → ∃ held store, t.seen held store ∧ W answer held store)
    (hreach : Reach (SharedLocks.step program event) guard init s)
    (hs : Telling program event init guard Told W s) {l : Label ρ η} {s' : System σ κ ν ε α}
    (hg : guard s l) (hstep : SharedLocks.step program event l s = some s') :
    Telling program event init guard Told W s' := by
  have hleads : ∀ s₀, Leads (SharedLocks.step program event) guard s₀ s →
      Leads (SharedLocks.step program event) guard s₀ s' := fun s₀ h => .step l h hg hstep
  have hsighted : ∀ i held store, Sighted program event init guard s i held store →
      Sighted program event init guard s' i held store := by
    rintro i held store ⟨s₀, hr, hlead, hrest⟩
    exact ⟨s₀, hr, hleads s₀ hlead, hrest⟩
  have hold : ∀ j b, at' id s.running j = some b →
      Sees b.program ⟨b.held, b.pending, Sighted program event init guard s' j⟩ fun answer t =>
        Told answer → ∃ held store, t.seen held store ∧ W answer held store :=
    fun j b hb => (hs j b hb).more (hsighted j)
  cases l with
  | begin request =>
      cases hstep
      intro j b hb
      rcases at'_append hb with hb | ⟨-, hb⟩
      · exact hold j b hb
      · cases hb
        exact (hprogram request).more fun _ _ => False.elim
  | advance i n =>
      obtain ⟨a, ha, hadvance⟩ := Option.bind_eq_some_iff.mp hstep
      have hnow := hold i a ha
      have hhere := hs i a ha
      obtain ⟨a₀, hat, rfl⟩ := at'_some.mp ha
      -- the others are as they were, and the transaction at the place goes on
      have hset : ∀ a' : Option (InFlight σ κ ν ε α), s'.running = s.running.set i a' →
          (∀ b, a' = some b →
            Sees b.program ⟨b.held, b.pending, Sighted program event init guard s' i⟩ fun answer t =>
              Told answer → ∃ held store, t.seen held store ∧ W answer held store) →
          Telling program event init guard Told W s' := by
        intro a' hrunning hb' j b hb
        rw [hrunning, at'_set hat] at hb
        split at hb
        · rename_i hj
          subst hj
          exact hb' b hb
        · exact hold j b hb
      obtain ⟨prog, held, pending⟩ := a
      cases prog with
      | done answer =>
          cases hadvance
          exact hset none rfl nofun
      | fail error =>
          cases hadvance
          exact hset none rfl nofun
      | lock key next =>
          simp only [SharedLocks.advance] at hadvance
          split at hadvance
          · cases hadvance
          · cases hadvance
            exact hset _ rfl fun b hb => by cases hb; exact hnow
      | draw q next =>
          simp only [SharedLocks.advance] at hadvance
          split at hadvance
          · cases hadvance
            exact hset _ rfl fun b hb => by cases hb; exact hnow n
          · cases hadvance
      | query next =>
          cases hadvance
          refine hset _ rfl fun b hb => ?_
          cases hb
          refine (hhere s.store).more ?_
          rintro held' store (hseen | ⟨rfl, rfl⟩)
          · exact hsighted i held' store hseen
          · exact ⟨s, hreach, hleads s (.refl s), rfl, _, ha, rfl⟩
      | write change next =>
          cases hadvance
          exact hset _ rfl fun b hb => by cases hb; exact hnow
  | abort i =>
      obtain ⟨a, ha, rfl⟩ := Option.map_eq_some_iff.mp hstep
      obtain ⟨a₀, hat, rfl⟩ := at'_some.mp ha
      intro j b hb
      rw [at'_set hat] at hb
      split at hb
      · cases hb
      · exact hold j b hb
  | other e =>
      cases hstep
      exact hold

/-- **What a commit tells has been so at a moment of its transaction.** -/
theorem sighting
    (hprogram : ∀ r, Sees (program r) ⟨[], id, fun _ _ => False⟩ fun answer t =>
      Told answer → ∃ held store, t.seen held store ∧ W answer held store)
    (hinit : ∀ s, init s → s.running = [])
    (h : Reach (SharedLocks.step program event) guard init s) (ha : at' id s.running i = some a)
    {answer : α} (hdone : a.program = .done answer) (htold : Told answer) :
    ∃ held store, Sighted program event init guard s i held store ∧ W answer held store := by
  have htelling : Telling program event init guard Told W s := by
    refine h.invariant_with (fun _ hr => hr) ?_ fun s l s' hr hs hg hstep =>
      hs.step hprogram hr hg hstep
    intro s hs i a ha
    obtain ⟨b, hb, -⟩ := at'_some.mp ha
    rw [hinit s hs] at hb
    cases hb
  have hsees := htelling i a ha
  rw [hdone] at hsees
  exact hsees htold

end Steps

/-! ## What is respected since -/

section Since

variable [Lockable κ] [DecidableEq ν] {ρ η : Type} {program : ρ → Program σ κ ν ε α}
  {event : η → σ → σ} {init : System σ κ ν ε α → Prop}
  {guard : System σ κ ν ε α → Label ρ η → Prop} {s s' : System σ κ ν ε α} {i : ℕ}
  {a a' : InFlight σ κ ν ε α} {P : Protocol σ κ ν α}

/-- A step respects what a transaction holds that stays in flight. -/
theorem Protocol.Sound.respects (hs : P.Sound s)
    (hevent : ∀ e s, P.Inv s → P.Guarantee [] s (event e s)) {l : Label ρ η}
    (hstep : SharedLocks.step program event l s = some s') (ha : at' id s.running i = some a)
    (ha' : at' id s'.running i = some a') {h : Hold κ ν} (hh : h ∈ a.held) :
    P.Respects h s.store s'.store := by
  cases l with
  | begin request =>
      cases hstep
      exact Protocol.Respects.refl h _
  | other e =>
      cases hstep
      exact (hevent e s.store hs.inv).respects h fun _ hmem => nomatch hmem
  | abort j =>
      obtain ⟨b, hb, rfl⟩ := Option.map_eq_some_iff.mp hstep
      exact Protocol.Respects.refl h _
  | advance j n =>
      obtain ⟨b, hb, hadvance⟩ := Option.bind_eq_some_iff.mp hstep
      by_cases hij : i = j
      · -- the transaction itself goes on
        subst hij
        obtain ⟨x, hrunning, hx⟩ := advance_goes_on hadvance
        obtain ⟨b', hat, -⟩ := at'_some.mp ha
        rw [hrunning, at'_set hat, if_pos rfl] at ha'
        rw [(hx a' ha').1]
        exact Protocol.Respects.refl h _
      · rcases step_store hstep with hsame | ⟨e, he, -⟩ | ⟨k, m, c, answer, hl, hc, hdone, hstore⟩
        · rw [hsame]
          exact Protocol.Respects.refl h _
        · cases he
        · cases hl
          rw [hstore]
          obtain ⟨-, hguarantee⟩ := hs.commits hc hdone
          exact hguarantee.respects h fun h' hh' => hs.apart i j a c hij ha hc h hh h' hh'

/-- **What a transaction has held at an earlier moment has been respected since.** -/
theorem Sighted.respects
    (hsound : ∀ s, Reach (step program event) guard init s → P.Sound s)
    (hevent : ∀ e s, P.Inv s → P.Guarantee [] s (event e s)) {s₀ : System σ κ ν ε α}
    (h₀ : Reach (step program event) guard init s₀) (hlead : Leads (step program event) guard s₀ s)
    {a₀ : InFlight σ κ ν ε α} (ha₀ : at' id s₀.running i = some a₀) {h : Hold κ ν}
    (hh : h ∈ a₀.held) (ha : at' id s.running i = some a) :
    P.Respects h s₀.store s.store ∧ h ∈ a.held := by
  have hi₀ : i < s₀.running.length := by
    obtain ⟨b, hat, -⟩ := at'_some.mp ha₀
    exact (List.getElem?_eq_some_iff.mp hat).1
  have hi : ∀ s, Leads (step program event) guard s₀ s → i < s.running.length := by
    intro s hlead
    induction hlead with
    | refl => exact hi₀
    | step l _ _ hstep ih => exact Nat.lt_of_lt_of_le ih (length_running_le hstep)
  induction hlead generalizing a with
  | refl =>
      rw [ha₀] at ha
      cases ha
      exact ⟨Protocol.Respects.refl h _, hh⟩
  | @step s₁ s₂ l hlead _ hstep ih =>
      obtain ⟨a₁, ha₁, hheld⟩ := in_flight_before hstep (hi s₁ hlead) ha
      obtain ⟨hrespects, hh₁⟩ := ih ha₁
      have hs₁ := hsound s₁ (h₀.leads hlead)
      exact ⟨hrespects.trans (hs₁.respects hevent hstep ha₁ ha hh₁), hheld h hh₁⟩

end Since

end SharedLocks
