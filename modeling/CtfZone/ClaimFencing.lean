/-
# Claim fencing

A worker changes the tables only in a transaction in which its command is
claimed with its token, and then only what belongs to the command: the
command's own row, the projected columns of its instance, events of that
command, and a termination command for its instance (`Within`).  Every other
step leaves the projected columns alone and changes a command only by recovering
or claiming it (`Unprojected`).

Since a token is drawn once, a claim that is lost stays lost, and a command
that has reached a terminal status keeps its row for ever.
-/
import CtfZone.SystemInvariants

open Runs Relation

namespace CtfZone

/-! ## What belongs to a command -/

/-- A claimed command is given up: it is closed, or pending again. -/
def RuntimeCommand.GivenUp (c c' : RuntimeCommand) : Prop :=
  (∃ t, c' = c.release t) ∨ ∃ status now, status.isOpen = false ∧ c' = c.close status now

/-- A command that was given up is not claimed. -/
theorem RuntimeCommand.GivenUp.not_claimed {c c' : RuntimeCommand} (h : c.GivenUp c') :
    c'.status ≠ .claimed := by
  rcases h with ⟨t, rfl⟩ | ⟨status, now, hclosed, rfl⟩
  · exact fun heq => by cases heq
  · rintro heq
    rw [show status = .claimed from heq] at hclosed
    cases hclosed

theorem CommandRow.holds_eq_true {command : CommandRow} {c : RuntimeCommand}
    (h : command.holds c = true) :
    c.id = command.id ∧ c.status = .claimed ∧ c.claimToken = some command.claimToken := by
  simpa [CommandRow.holds, and_assoc] using h

/-- A change of the tables that stays with one command. -/
structure Within (command : CommandRow) (db db' : Database) : Prop where
  setting : db'.setting = db.setting
  configs : db'.configs = db.configs
  servers : db'.servers = db.servers
  commands : ∃ f new, db'.commands = db.commands.map f ++ new ∧
    (∀ c, f c = c ∨ command.holds c = true ∧ c.GivenUp (f c)) ∧
    ∀ c ∈ new, c.instanceId = command.instanceId ∧ c.kind = .terminate ∧ c.status = .pending
  instances : ∃ f, db'.instances = db.instances.map f ∧
    ∀ i, f i = i ∨ i.id = command.instanceId ∧ i.Projected (f i)
  events : ∃ new, db'.events = db.events ++ new ∧ ∀ e ∈ new,
    e.instanceId = command.instanceId ∧ e.source = .controller ∧
      (e.commandId = some command.id ∨ e.eventType = .terminationRequested)

theorem Within.refl (command : CommandRow) (db : Database) : Within command db db where
  setting := rfl
  configs := rfl
  servers := rfl
  commands := ⟨id, [], by simp, fun _ => .inl rfl, by simp⟩
  instances := ⟨id, by simp, fun _ => .inl rfl⟩
  events := ⟨[], by simp, by simp⟩

variable {command : CommandRow} {scope : Scope} {cleanupId : Uuid}
  {db db' db'' : Database}

theorem Within.trans (h : Within command db db') (h' : Within command db' db'') :
    Within command db db'' where
  setting := h'.setting.trans h.setting
  configs := h'.configs.trans h.configs
  servers := h'.servers.trans h.servers
  commands := by
    obtain ⟨f, new, hf, hrow, hnew⟩ := h.commands
    obtain ⟨g, new', hg, hrow', hnew'⟩ := h'.commands
    -- a command that is not claimed is left alone
    have hleft {c : RuntimeCommand} (hc : c.status ≠ .claimed) : g c = c :=
      (hrow' c).resolve_right fun hheld => hc (CommandRow.holds_eq_true hheld.1).2.1
    refine ⟨g ∘ f, new.map g ++ new', by simp [hg, hf], fun c => ?_, fun c hc => ?_⟩
    · rcases hrow c with hc | ⟨hheld, hgiven⟩
      · simpa [hc] using hrow' c
      · rw [Function.comp_apply, hleft hgiven.not_claimed]
        exact .inr ⟨hheld, hgiven⟩
    · rcases List.mem_append.mp hc with hc | hc
      · obtain ⟨c₀, hc₀, rfl⟩ := List.mem_map.mp hc
        have hpending := (hnew c₀ hc₀).2.2
        rw [hleft (by rw [hpending]; decide)]
        exact hnew c₀ hc₀
      · exact hnew' c hc
  instances := by
    obtain ⟨f, hf, hrow⟩ := h.instances
    obtain ⟨g, hg, hrow'⟩ := h'.instances
    refine ⟨g ∘ f, by simp [hg, hf], fun i => ?_⟩
    rcases hrow i with hi | ⟨hid, hproj⟩
    · simpa [hi] using hrow' i
    · refine .inr ⟨hid, ?_⟩
      rcases hrow' (f i) with hi | ⟨-, hproj'⟩
      · simpa [hi] using hproj
      · exact hproj.trans hproj'
  events := by
    obtain ⟨new, he, hnew⟩ := h.events
    obtain ⟨new', he', hnew'⟩ := h'.events
    refine ⟨new ++ new', by simp [he', he], fun e hmem => ?_⟩
    exact (List.mem_append.mp hmem).elim (hnew e) (hnew' e)

/-! ## Moves stay with their command -/

theorem Within.event (db : Database) {e : RuntimeEvent}
    (he : e.instanceId = command.instanceId ∧ e.source = .controller ∧
      (e.commandId = some command.id ∨ e.eventType = .terminationRequested)) :
    Within command db (db.appendEvent e) :=
  { Within.refl command db with
    events := ⟨[e], rfl, fun e' h => by rwa [List.mem_singleton.mp h]⟩ }

theorem Within.updateCommands (command : CommandRow) (db : Database)
    {g : RuntimeCommand → RuntimeCommand} (hg : ∀ c, RuntimeCommand.GivenUp c (g c)) :
    Within command db (db.updateCommands command.holds g) :=
  { Within.refl command db with
    commands := by
      refine ⟨Tables.updateRow command.holds g, [], by simp [Tables.update], fun c => ?_, by simp⟩
      rcases Tables.updateRow_cases command.holds g c with ⟨-, heq⟩ | ⟨hheld, heq⟩
      · exact .inl heq
      · exact .inr ⟨hheld, heq ▸ hg c⟩ }

theorem Within.updateInstances (command : CommandRow) (db : Database)
    {p : RuntimeInstance → Bool} {g : RuntimeInstance → RuntimeInstance}
    (hp : ∀ i, p i = true → i.id = command.instanceId)
    (hg : ∀ i, RuntimeInstance.Projected i (g i)) :
    Within command db (db.updateInstances p g) :=
  { Within.refl command db with
    instances := by
      refine ⟨Tables.updateRow p g, rfl, fun i => ?_⟩
      rcases Tables.updateRow_cases p g i with ⟨-, heq⟩ | ⟨hi, heq⟩
      · exact .inl heq
      · exact .inr ⟨hp i hi, heq ▸ hg i⟩ }

theorem Within.insertCommand {c : RuntimeCommand} (h : db.insertCommand c = some db')
    (hid : c.instanceId = command.instanceId) (hkind : c.kind = .terminate)
    (hstatus : c.status = .pending) : Within command db db' := by
  obtain ⟨rfl, -⟩ := Database.insertCommand_eq_some h
  exact { Within.refl command db with
    commands := ⟨id, [c], by simp, fun _ => .inl rfl, fun d hd => by
      cases List.mem_singleton.mp hd
      exact ⟨hid, hkind, hstatus⟩⟩ }

theorem Within.createTermination (command : CommandRow) (now : Time) (id : Uuid)
    (reason : TerminationReason) (db : Database) :
    Within command db (createTermination now id command.instanceId reason db) := by
  unfold CtfZone.createTermination
  split
  · exact .refl command db
  · rename_i i hi
    dsimp only
    split_ifs
    · exact .refl command db
    · have hstopped : Within command db
          (db.updateInstances (·.id = command.instanceId) (·.stopping)) :=
        .updateInstances command db (fun i hi => by simpa using hi)
          RuntimeInstance.stopping_projected
      split
      · exact hstopped
      · rename_i db₁ hinsert
        refine (hstopped.trans (.insertCommand hinsert ?_ rfl rfl)).trans
          (.event _ ⟨rfl, rfl, .inr rfl⟩)
        exact (Database.findInstance_eq_some hi).2

theorem WorkMove.within (h : WorkMove command scope cleanupId db db') :
    Within command db db' := by
  cases h with
  | event e => exact .event db ⟨rfl, rfl, .inl rfl⟩
  | close status now hclosed _ =>
      exact .updateCommands command db fun _ => .inr ⟨status, now, hclosed, rfl⟩
  | release t => exact .updateCommands command db fun _ => .inl ⟨t, rfl⟩
  | project now p _ _ =>
      refine .updateInstances command db (fun i hi => ?_) fun i => p.set_projected ..
      simp only [Projection.hits, Bool.and_eq_true, decide_eq_true_eq] at hi
      exact hi.1.1
  | terminate now reason _ => exact .createTermination command now cleanupId reason db

theorem Work.within (h : Work command scope cleanupId db db') : Within command db db' := by
  induction h with
  | refl => exact .refl command db
  | tail _ hmove ih => exact ih.trans hmove.within

/-! ## Steps that are not a worker's -/

/-- The columns of an instance that only workers write are the same. -/
structure RuntimeInstance.SameProjection (i i' : RuntimeInstance) : Prop where
  id : i'.id = i.id
  active : i'.active = i.active
  observedState : i'.observedState = i.observedState
  observedExpiresAt : i'.observedExpiresAt = i.observedExpiresAt
  expiresAt : i'.expiresAt = i.expiresAt
  remoteServerId : i'.remoteServerId = i.remoteServerId
  remoteContainerId : i'.remoteContainerId = i.remoteContainerId
  endpoint : i'.endpoint = i.endpoint
  observedGeneration : i'.observedGeneration = i.observedGeneration
  activatedAt : i'.activatedAt = i.activatedAt
  readyAt : i'.readyAt = i.readyAt
  lastObservedAt : i'.lastObservedAt = i.lastObservedAt
  stoppedAt : i'.stoppedAt = i.stoppedAt
  failureCode : i'.failureCode = i.failureCode

theorem RuntimeInstance.SameProjection.refl (i : RuntimeInstance) : i.SameProjection i :=
  ⟨rfl, rfl, rfl, rfl, rfl, rfl, rfl, rfl, rfl, rfl, rfl, rfl, rfl, rfl⟩

theorem RuntimeInstance.extended_sameProjection (t : Time) (i : RuntimeInstance) :
    i.SameProjection (i.extended t) :=
  ⟨rfl, rfl, rfl, rfl, rfl, rfl, rfl, rfl, rfl, rfl, rfl, rfl, rfl, rfl⟩

theorem RuntimeInstance.stopping_sameProjection (i : RuntimeInstance) :
    i.SameProjection i.stopping :=
  ⟨rfl, rfl, rfl, rfl, rfl, rfl, rfl, rfl, rfl, rfl, rfl, rfl, rfl, rfl⟩

/-- A command is as it was, or its claim was recovered, or it was claimed with a
token that had not been drawn. -/
def RuntimeCommand.Requeued (drawn : List Uuid) (c c' : RuntimeCommand) : Prop :=
  c' = c ∨ (c.status = .claimed ∧ ∃ t, c' = c.release t) ∨
    c.status = .pending ∧ ∃ now token, token ∉ drawn ∧ c' = c.claim now token

/-- A change of the tables that projects nothing. -/
structure Unprojected (drawn : List Uuid) (db db' : Database) : Prop where
  commands : ∃ f new, db'.commands = db.commands.map f ++ new ∧
    (∀ c, RuntimeCommand.Requeued drawn c (f c)) ∧ ∀ c ∈ new, c.status = .pending
  instances : ∃ f new, db'.instances = db.instances.map f ++ new ∧
    ∀ i, RuntimeInstance.SameProjection i (f i)
  events : Appends db db'

/-- The instances of tables in which some were updated outside the projected
columns. -/
theorem sameProjection_update {p : RuntimeInstance → Bool}
    {f : RuntimeInstance → RuntimeInstance} (hf : ∀ i, RuntimeInstance.SameProjection i (f i))
    (h : db'.instances = Tables.update p f db.instances) :
    ∃ f new, db'.instances = db.instances.map f ++ new ∧
      ∀ i, RuntimeInstance.SameProjection i (f i) := by
  refine ⟨Tables.updateRow p f, [], by rw [h, List.append_nil]; rfl, fun i => ?_⟩
  rcases Tables.updateRow_cases p f i with ⟨-, heq⟩ | ⟨-, heq⟩
  · rw [heq]
    exact .refl i
  · rw [heq]
    exact hf i

theorem RequestMove.unprojected {asked : Uuid → Prop} {ids drawn : List Uuid}
    (h : RequestMove asked ids db db')
    (happends : Appends db db') : Unprojected drawn db db' := by
  have hsame (h : db'.instances = db.instances) : ∃ f new,
      db'.instances = db.instances.map f ++ new ∧
        ∀ i, RuntimeInstance.SameProjection i (f i) :=
    ⟨id, [], by simp [h], fun i => .refl i⟩
  have hqueued (new : List RuntimeCommand) (h : db'.commands = db.commands ++ new)
      (hnew : ∀ c ∈ new, c.status = .pending) : ∃ f new,
      db'.commands = db.commands.map f ++ new ∧
        (∀ c, RuntimeCommand.Requeued drawn c (f c)) ∧ ∀ c ∈ new, c.status = .pending :=
    ⟨id, new, by simp [h], fun _ => .inl rfl, hnew⟩
  cases h with
  | frame hi hc => exact ⟨hqueued [] (by simp [hc]) (by simp), hsame hi, happends⟩
  | launch i c launched queued iid cid slot admits hi hc =>
      exact ⟨hqueued [c] hc (by simpa using queued.status), ⟨id, [i], by simp [hi], fun i => .refl i⟩,
        happends⟩
  | extend id i t c cid hasked hext =>
      exact ⟨hqueued [c] hext.commands (by simpa using hext.queued.status),
        sameProjection_update (RuntimeInstance.extended_sameProjection t) hext.instances,
        happends⟩
  | stop i c hstops =>
      refine ⟨hqueued c.toList hstops.commands fun d hd => ?_,
        sameProjection_update RuntimeInstance.stopping_sameProjection hstops.instances, happends⟩
      exact (hstops.queued d (Option.mem_toList.mp hd)).1.status
  | enqueue i kind c mem hkind queued cid admits hi hc =>
      exact ⟨hqueued [c] hc (by simpa using queued.status), hsame hi, happends⟩
  | release p t claimed hi hc =>
      refine ⟨⟨Tables.updateRow p (·.release t), [], ?_, fun c => ?_, by simp⟩, hsame hi, happends⟩
      · rw [hc, List.append_nil]
        rfl
      · rcases Tables.updateRow_cases p (·.release t) c with ⟨-, heq⟩ | ⟨hp, heq⟩
        · exact .inl heq
        · exact .inr (.inl ⟨claimed c hp, t, heq⟩)

theorem Database.claimRow_unprojected {drawn : List Uuid} (now : Time) {token : Uuid}
    (hfresh : token ∉ drawn) (c : RuntimeCommand) (db : Database) :
    Unprojected drawn db (db.claimRow now token c) where
  commands := by
    refine ⟨_, [], (List.append_nil _).symm, fun d => ?_, by simp⟩
    rcases Tables.updateRow_cases (fun d => d.id = c.id && d.status = .pending)
      (·.claim now token) d with ⟨-, heq⟩ | ⟨hd, heq⟩
    · exact .inl heq
    · simp only [Bool.and_eq_true, decide_eq_true_eq] at hd
      exact .inr (.inr ⟨hd.2, now, token, hfresh, heq⟩)
  instances := ⟨id, [], by simp [Database.claimRow], fun i => .refl i⟩
  events := .same rfl

theorem Unprojected.refl (drawn : List Uuid) (db : Database) : Unprojected drawn db db where
  commands := ⟨id, [], by simp, fun _ => .inl rfl, by simp⟩
  instances := ⟨id, [], by simp, fun i => .refl i⟩
  events := .same rfl

theorem Moved.unprojected {config : Config} {s s' : System} {l : Label}
    (hother : ∀ w turn, l ≠ .work w turn) (h : Moved config s l s') :
    Unprojected s.drawn s.db s'.db := by
  cases h with
  | request asked ids db' hasked fresh hmove happends => exact hmove.unprojected happends
  | claim w now token c idle fresh mem hpending => exact s.db.claimRow_unprojected now fresh c
  | work w turn pc db' sent hl => exact absurd hl (hother w turn)
  | _ => exact .refl s.drawn s.db

/-- A worker's step is one under the claim on its command. -/
theorem System.work_within {config : Config} {s s' : System} {w : ℕ} {turn : Turn}
    (hdrawn : s.Drawn) (h : System.step config (.work w turn) s = some s') :
    ∃ command, (s.workers w).command = some command ∧
      (s'.db = s.db ∨ lockCommandClaim command s.db = true ∧ Within command s.db s'.db) := by
  obtain ⟨pc, db', sent, hfresh, hadvance, rfl⟩ := System.work_eq_some h
  obtain ⟨command, hcommand⟩ := Pc.command_of_advance hadvance
  refine ⟨command, hcommand, ?_⟩
  rcases advance_work hcommand (hdrawn.db.freshCommand hfresh) hadvance with hsame | ⟨hlock, hwork⟩
  · exact .inl hsame
  · exact .inr ⟨hlock, hwork.within⟩

/-- Every step is one or the other. -/
theorem System.step_fenced {config : Config} {s s' : System} {l : Label} (hdrawn : s.Drawn)
    (h : System.step config l s = some s') :
    (∃ command, Within command s.db s'.db) ∨ Unprojected s.drawn s.db s'.db := by
  by_cases hother : ∀ w turn, l ≠ .work w turn
  · exact .inr ((System.step_moved h).unprojected hother)
  · push Not at hother
    obtain ⟨w, turn, rfl⟩ := hother
    obtain ⟨command, -, hsame | ⟨-, hwithin⟩⟩ := System.work_within hdrawn h
    · exact .inr (hsame ▸ .refl s.drawn s'.db)
    · exact .inl ⟨command, hwithin⟩

/-! ## What lasts -/

/-- A command in a terminal status keeps its row. -/
theorem closed_step {config : Config} {s s' : System} {l : Label} (hdrawn : s.Drawn)
    (h : System.step config l s = some s') {c : RuntimeCommand} (hc : c ∈ s.db.commands)
    (hclosed : c.status.isOpen = false) : c ∈ s'.db.commands := by
  have hclaimed : c.status ≠ .claimed := fun heq => by
    rw [heq] at hclosed
    cases hclosed
  have hpending : c.status ≠ .pending := fun heq => by
    rw [heq] at hclosed
    cases hclosed
  have hkept {f : RuntimeCommand → RuntimeCommand} {new : List RuntimeCommand} (hf : f c = c)
      (heq : s'.db.commands = s.db.commands.map f ++ new) : c ∈ s'.db.commands := by
    rw [heq]
    exact List.mem_append_left _ (List.mem_map.mpr ⟨c, hc, hf⟩)
  rcases System.step_fenced hdrawn h with ⟨command, hwithin⟩ | hother
  · obtain ⟨f, new, heq, hrow, -⟩ := hwithin.commands
    exact hkept ((hrow c).resolve_right fun hheld =>
      hclaimed (CommandRow.holds_eq_true hheld.1).2.1) heq
  · obtain ⟨f, new, heq, hrow, -⟩ := hother.commands
    refine hkept ((hrow c).resolve_right ?_) heq
    rintro (⟨h, -⟩ | ⟨h, -⟩)
    · exact hclaimed h
    · exact hpending h

/-- A claim that is lost stays lost. -/
theorem lost_step {config : Config} {s s' : System} {l : Label} (hdrawn : s.Drawn)
    (h : System.step config l s = some s') (htoken : command.claimToken ∈ s.drawn)
    (hlost : lockCommandClaim command s.db = false) :
    lockCommandClaim command s'.db = false := by
  have hrows : ∀ c ∈ s.db.commands, command.holds c = false := by
    simpa [lockCommandClaim] using hlost
  -- rows that are no longer, or not yet, claimed are not held
  have hfree {c : RuntimeCommand} (hc : c.status ≠ .claimed) : command.holds c = false := by
    simp [CommandRow.holds, hc]
  have hpending {c : RuntimeCommand} (hc : c.status = .pending) : command.holds c = false :=
    hfree (by rw [hc]; decide)
  have hall : ∀ c ∈ s'.db.commands, command.holds c = false := by
    intro c' hc'
    rcases System.step_fenced hdrawn h with ⟨other, hwithin⟩ | hother
    · obtain ⟨f, new, heq, hrow, hnew⟩ := hwithin.commands
      rw [heq] at hc'
      rcases List.mem_append.mp hc' with hc' | hc'
      · obtain ⟨c, hc, rfl⟩ := List.mem_map.mp hc'
        rcases hrow c with hsame | ⟨-, hgiven⟩
        · rw [hsame]
          exact hrows c hc
        · exact hfree hgiven.not_claimed
      · exact hpending (hnew c' hc').2.2
    · obtain ⟨f, new, heq, hrow, hnew⟩ := hother.commands
      rw [heq] at hc'
      rcases List.mem_append.mp hc' with hc' | hc'
      · obtain ⟨c, hc, rfl⟩ := List.mem_map.mp hc'
        rcases hrow c with hsame | ⟨-, t, hreleased⟩ | ⟨-, now, token, hfresh, hclaimed⟩
        · rw [hsame]
          exact hrows c hc
        · rw [hreleased]
          exact hpending rfl
        · -- the new claim has a new token
          rw [hclaimed]
          have hne : token ≠ command.claimToken := fun heq => hfresh (heq ▸ htoken)
          simp [CommandRow.holds, RuntimeCommand.claim, hne]
      · exact hpending (hnew c' hc')
  simpa [lockCommandClaim] using hall

section

variable {config : Config} {s s' : System}

theorem closed_leads (hr : Reach (System.step config) anyStep System.Initial s)
    (h : Leads (System.step config) anyStep s s') {c : RuntimeCommand}
    (hc : c ∈ s.db.commands) (hclosed : c.status.isOpen = false) : c ∈ s'.db.commands :=
  h.rel (R := fun s s' => c ∈ s.db.commands → c ∈ s'.db.commands) (fun _ => id)
    (fun _ _ _ h₁ h₂ => h₂ ∘ h₁)
    (fun _ _ _ hreach _ hstep hmem => closed_step (System.reach_sound hreach).drawn hstep hmem hclosed)
    hr hc

theorem lost_leads (hr : Reach (System.step config) anyStep System.Initial s)
    (h : Leads (System.step config) anyStep s s') (htoken : command.claimToken ∈ s.drawn)
    (hlost : lockCommandClaim command s.db = false) :
    lockCommandClaim command s'.db = false := by
  have hrel := h.rel
    (R := fun s s' => command.claimToken ∈ s.drawn ∧ lockCommandClaim command s.db = false →
      command.claimToken ∈ s'.drawn ∧ lockCommandClaim command s'.db = false)
    (fun _ => id) (fun _ _ _ h₁ h₂ => h₂ ∘ h₁)
    (fun _ _ _ hreach _ hstep hbefore =>
      ⟨(System.step_moved hstep).drawn_subset hbefore.1,
        lost_step (System.reach_sound hreach).drawn hstep hbefore.1 hbefore.2⟩) hr
  exact (hrel ⟨htoken, hlost⟩).2

end

/-- **Claim fencing.**  In every reachable state:

* a step of a worker changes the tables only while its command is claimed with
  the token of the claim, which no other worker has, and only what belongs to
  the command;
* no other step projects anything, or changes a command but for recovering its
  claim or claiming it with a new token;
* a command in a terminal status keeps its row for ever;
* a claim that is lost, because it was recovered, stays lost, also when the
  command is claimed again, and the worker that lost it changes nothing. -/
theorem claim_fencing (config : Config) (s : System)
    (h : Reach (System.step config) anyStep System.Initial s) :
    (∀ w turn s', System.step config (.work w turn) s = some s' →
      ∃ command, (s.workers w).command = some command ∧
        (∀ v other, (s.workers v).command = some other →
          other.claimToken = command.claimToken → v = w) ∧
        (s'.db = s.db ∨ lockCommandClaim command s.db = true ∧ Within command s.db s'.db)) ∧
    (∀ l s', (∀ w turn, l ≠ .work w turn) → System.step config l s = some s' →
      Unprojected s.drawn s.db s'.db) ∧
    (∀ c ∈ s.db.commands, c.status.isOpen = false →
      ∀ s', Leads (System.step config) anyStep s s' →
        c ∈ s'.db.commands ∧ ∀ c' ∈ s'.db.commands, c'.id = c.id → c' = c) ∧
    (∀ w command, (s.workers w).command = some command →
      lockCommandClaim command s.db = false →
      ∀ s', Leads (System.step config) anyStep s s' →
        lockCommandClaim command s'.db = false ∧
        ∀ v turn s'', (s'.workers v).command = some command →
          System.step config (.work v turn) s' = some s'' → s''.db = s'.db) := by
  have hsound := System.reach_sound h
  refine ⟨fun w turn s' hstep => ?_, fun l s' hother hstep => ?_, fun c hc hclosed s' hleads => ?_,
    fun w command hcommand hlost s' hleads => ?_⟩
  · obtain ⟨command, hcommand, hwithin⟩ := System.work_within hsound.drawn hstep
    exact ⟨command, hcommand, fun v other hother htoken =>
      hsound.exclusive v w other command hother hcommand htoken, hwithin⟩
  · exact (System.step_moved hstep).unprojected hother
  · have hkept := closed_leads h hleads hc hclosed
    exact ⟨hkept, fun c' hc' hid => (System.reach_sound (h.leads hleads)).db.command_eq hc' hkept hid⟩
  · have hstill := lost_leads h hleads (hsound.drawn.workers w command hcommand) hlost
    refine ⟨hstill, fun v turn s'' hcommand' hstep => ?_⟩
    obtain ⟨other, hother, hsame | ⟨hlock, -⟩⟩ :=
      System.work_within (System.reach_sound (h.leads hleads)).drawn hstep
    · exact hsame
    · -- the worker is at the command whose claim is lost
      cases hother.symm.trans hcommand'
      rw [hstill] at hlock
      cases hlock

/-- While worker 0 waits for the helper, its claim is recovered and worker 1
claims the command. -/
def reclaimed : List Label := launchSent ++ [.recoverAll 0, .claim 1 0 8 2]

/-- Worker 0 has lost its claim for good. -/
theorem claim_fencing_reclaimed :
    ∃ s command, run (System.step ⟨5, 60, 60⟩) reclaimed smallSystem = some s ∧
      (s.workers 0).command = some command ∧
      ∀ s', Leads (System.step ⟨5, 60, 60⟩) anyStep s s' →
        lockCommandClaim command s'.db = false ∧
        ∀ v turn s'', (s'.workers v).command = some command →
          System.step ⟨5, 60, 60⟩ (.work v turn) s' = some s'' → s''.db = s'.db := by
  have hlost : (run (System.step ⟨5, 60, 60⟩) reclaimed smallSystem).any (fun s =>
      (s.workers 0).command.any fun command => ! lockCommandClaim command s.db) = true := by
    decide +kernel
  obtain ⟨s, hrun, hworker⟩ := (Option.any_eq_true _ _).mp hlost
  obtain ⟨command, hcommand, hfree⟩ := (Option.any_eq_true _ _).mp hworker
  refine ⟨s, command, hrun, hcommand, ?_⟩
  have hreach := reach_of_run reclaimed smallSystem_initial hrun
  exact (claim_fencing ⟨5, 60, 60⟩ s hreach).2.2.2 0 command hcommand (by simpa using hfree)

end CtfZone
