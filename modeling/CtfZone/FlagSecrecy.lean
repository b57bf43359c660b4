/-
# The secrecy of flags

Two runs of the controller that differ only in the value of
`deployment.flag_value` write the same bytes to the journal and send the same
requests, except for the flag in `ensure-instance`.

`Json.SameButFlag` relates the two deployments, `Ledger.Alike` the two ledgers;
every program of the controller has twin runs over the latter.
-/
import CtfZone.ControllerCalls

open Effects Effects.Prog

namespace CtfZone

open Journal

/-! ## Deployments that differ in the flag -/

/-- Two objects with the same fields and values, except for the values of
`flag_value`; or the same value twice. -/
def Json.SameButFlag : Json → Json → Prop
  | .object fields, .object fields' =>
    List.Forall₂ (fun p q => p.1 = q.1 ∧ (p.1 ≠ "flag_value" → p.2 = q.2)) fields fields'
  | value, value' => value = value'

namespace Json.SameButFlag

variable {d d' : Json}

/-- What the flag is replaced by does not show what it was. -/
theorem alter (h : d.SameButFlag d') (value : Json) :
    Json.alter "flag_value" (fun _ => value) d = Json.alter "flag_value" (fun _ => value) d' := by
  cases d with
  | object fields =>
      cases d' with
      | object fields' =>
          simp only [Json.alter, Json.object.injEq]
          induction h with
          | nil => rfl
          | @cons p q _ _ hpq _ ih =>
              rw [List.map_cons, List.map_cons, ih, ← hpq.1]
              by_cases hp : p.1 = "flag_value"
              · rw [if_pos hp, if_pos hp]
              · rw [if_neg hp, if_neg hp, Prod.ext hpq.1 (hpq.2 hp)]
      | _ => cases h
  | _ => rw [show _ = d' from h]

/-- Nothing is left of the flag once the field is removed. -/
theorem removeField (h : d.SameButFlag d') :
    d.removeField "flag_value" = d'.removeField "flag_value" := by
  cases d with
  | object fields =>
      cases d' with
      | object fields' =>
          simp only [Json.removeField, Json.object.injEq]
          induction h with
          | nil => rfl
          | @cons p q _ _ hpq _ ih =>
              rw [List.filter_cons, List.filter_cons, ih, ← hpq.1]
              by_cases hp : p.1 = "flag_value"
              · simp [hp]
              · simp [Prod.ext hpq.1 (hpq.2 hp)]
      | _ => cases h
  | _ => rw [show _ = d' from h]

/-- Every other field is the same. -/
theorem field (h : d.SameButFlag d') {name : String} (hname : name ≠ "flag_value") :
    d.field name = d'.field name := by
  cases d with
  | object fields =>
      cases d' with
      | object fields' =>
          simp only [Json.field]
          induction h with
          | nil => rfl
          | @cons p q _ _ hpq _ ih =>
              rw [List.find?_cons, List.find?_cons, ← hpq.1]
              by_cases hp : p.1 = name
              · simp [hp, hpq.2 (hp ▸ hname)]
              · simpa [hp] using ih
      | _ => cases h
  | _ => rw [show _ = d' from h]

end Json.SameButFlag

namespace Controller

/-! ## Runs that differ in the flags -/

/-- The rows of an instance differ in the flag only, and both flags are valid or
both are not. -/
structure InstanceRow.Alike (row row' : InstanceRow) : Prop where
  rest : row' = { row with deploymentSnapshot := row'.deploymentSnapshot }
  snapshot : row.deploymentSnapshot.SameButFlag row'.deploymentSnapshot
  validity : ∀ command reason,
    validateFlagValue .ensureInstance (remotePayload command row .ensureInstance reason) =
      validateFlagValue .ensureInstance (remotePayload command row' .ensureInstance reason)

/-- The two runs execute the same command and have the same answers. -/
def Event.Alike : Event → Event → Prop
  | .execute command row answers, .execute command' row' answers' =>
    command = command' ∧ row.Alike row' ∧ answers = answers'
  | e, e' => e = e'

/-- The journals are the same and so are the requests, except for those of
`ensure-instance`. -/
structure Ledger.Alike (l l' : Ledger) : Prop where
  journal : l.journal = l'.journal
  written : l.written = l'.written
  sent : List.Forall₂ (fun p q => p.1 = q.1 ∧ (p.1 ≠ .ensureInstance → p.2 = q.2)) l.sent l'.sent

/-- The requests for another operation than `ensure-instance`. -/
def Ledger.sentOtherwise (l : Ledger) : List (RemoteOperation × Json) :=
  l.sent.filter (·.1 ≠ .ensureInstance)

theorem Ledger.Alike.refl (l : Ledger) : l.Alike l :=
  ⟨rfl, rfl, List.forall₂_same.mpr fun _ _ => ⟨rfl, fun _ => rfl⟩⟩

theorem Ledger.Alike.sentOtherwise {l l' : Ledger} (h : l.Alike l') :
    l.sentOtherwise = l'.sentOtherwise := by
  obtain ⟨-, -, hsent⟩ := h
  unfold Ledger.sentOtherwise
  generalize l.sent = requests at hsent ⊢
  generalize l'.sent = requests' at hsent ⊢
  induction hsent with
  | nil => rfl
  | @cons p q _ _ hpq _ ih =>
      rw [List.filter_cons, List.filter_cons, ih, ← hpq.1]
      by_cases hp : p.1 = .ensureInstance
      · simp [hp]
      · simp [Prod.ext hpq.1 (hpq.2 hp)]

/-! ## Payloads -/

/-- Two payloads that differ in the flag of `ensure-instance` only. -/
structure PayloadsAlike (operation : RemoteOperation) (payload payload' : Json) : Prop where
  redacted : redactPayload payload = redactPayload payload'
  flag : validateFlagValue operation payload = validateFlagValue operation payload'
  startup : validateStartupTimeout operation payload = validateStartupTimeout operation payload'
  otherwise : operation ≠ .ensureInstance → payload = payload'

theorem PayloadsAlike.refl (operation : RemoteOperation) (payload : Json) :
    PayloadsAlike operation payload payload :=
  ⟨rfl, rfl, rfl, fun _ => rfl⟩

/-- The payloads of two rows that differ in the flag. -/
theorem InstanceRow.Alike.payloads {row row' : InstanceRow} (h : row.Alike row')
    (command : CommandRow) (operation : RemoteOperation) (reason : String) :
    PayloadsAlike operation (remotePayload command row operation reason)
      (remotePayload command row' operation reason) := by
  by_cases hoperation : operation = .ensureInstance
  · subst hoperation
    refine ⟨?_, h.validity command reason, ?_, fun hne => absurd rfl hne⟩
    · rw [h.rest]
      simpa [remotePayload, redactPayload, Json.alter] using h.snapshot.alter redactedFlagValue
    · funext operationTimeout
      simp only [validateStartupTimeout, remotePayload_deployment, Option.bind_some,
        h.snapshot.field (show "healthcheck" ≠ "flag_value" by decide)]
  · have hsame : remotePayload command row operation reason =
        remotePayload command row' operation reason := by
      rw [h.rest]
      simp only [remotePayload, hoperation, if_false, h.snapshot.removeField]
    rw [hsame]
    exact .refl operation _

/-! ## Twin programs -/

variable {codec : Codec} {α : Type}

theorem twins_ask (f : Answers → Option α) : Twins Ledger.Alike (ask f) (ask f) := by
  intro a l l' h
  unfold ask
  cases f a with
  | none => exact ⟨rfl, h⟩
  | some x => exact ⟨rfl, h⟩

theorem twins_record (operation : RemoteOperation) (phase : JournalPhase)
    (entry : Time → JournalRecord) :
    Twins Ledger.Alike (record codec operation phase entry) (record codec operation phase entry) := by
  intro a l l' h
  have happend : ∀ outcome, (l.append codec (entry (a.updatedAt phase operation)) outcome).Alike
      (l'.append codec (entry (a.updatedAt phase operation)) outcome) := fun outcome => {
    journal := by simp only [Ledger.append, h.journal]
    written := by simp only [Ledger.append, h.journal, h.written]
    sent := h.sent }
  unfold record
  dsimp only
  split
  · exact ⟨rfl, happend _⟩
  · exact ⟨rfl, happend _⟩

theorem twins_execute {operation : RemoteOperation} {payload payload' : Json}
    (h : PayloadsAlike operation payload payload') :
    Twins Ledger.Alike (execute operation payload) (execute operation payload') := by
  intro a l l' hledger
  unfold execute
  rw [h.flag, h.startup]
  split
  · refine ⟨rfl, hledger.journal, hledger.written, ?_⟩
    exact List.rel_append hledger.sent (.cons ⟨rfl, h.otherwise⟩ .nil)
  · exact ⟨rfl, hledger⟩

theorem twins_call {operation : RemoteOperation} {payload payload' : Json}
    (h : PayloadsAlike operation payload payload') :
    Twins Ledger.Alike (call operation payload) (call operation payload') :=
  (twins_execute h).bind fun reply => by
    cases reply with
    | none => exact twins_raise _
    | some result => exact twins_pure result

/-- Two intents whose payloads differ in the flag of `ensure-instance`. -/
structure Intent.Alike (i i' : Intent) : Prop where
  operation : i.operation = i'.operation
  payload : PayloadsAlike i.operation i.payload i'.payload
  opened : i.opened = i'.opened
  expires : i.row.desiredExpiresAt = i'.row.desiredExpiresAt

/-- The intents of two rows that differ in the flag. -/
theorem InstanceRow.Alike.intents {row row' : InstanceRow} (h : row.Alike row')
    (command : CommandRow) (operation : RemoteOperation) (server : Journal.RemoteServer)
    (reason : String) :
    Intent.Alike ⟨command, row, operation, server, remotePayload command row operation reason⟩
      ⟨command, row', operation, server, remotePayload command row' operation reason⟩ where
  operation := rfl
  payload := h.payloads command operation reason
  opened := by
    funext updatedAt
    simp only [Intent.opened, (h.payloads command operation reason).redacted]
    rw [h.rest]
  expires := by rw [h.rest]

theorem Intent.Alike.acknowledged {i i' : Intent} (h : i.Alike i') :
    i.acknowledged = i'.acknowledged := by
  funext updatedAt
  simp only [Intent.acknowledged, h.opened]

theorem Intent.Alike.answered {i i' : Intent} (h : i.Alike i') (result : Journal.RemoteResult) :
    i.answered result = i'.answered result := by
  funext updatedAt
  simp only [Intent.answered, h.opened, h.expires]

theorem twins_callJournalled {i i' : Intent} (h : i.Alike i')
    (accept : Journal.RemoteResult → Bool) :
    Twins Ledger.Alike (callJournalled codec i accept) (callJournalled codec i' accept) := by
  unfold callJournalled
  rw [← h.operation, ← h.opened]
  refine (twins_record _ _ _).bind fun _ => (twins_call h.payload).bind fun result => ?_
  rw [← h.answered]
  exact .ite (fun _ => (twins_record _ _ _).bind fun _ => twins_pure _) fun _ => twins_raise _

theorem twins_executeCall (codec : Codec) {i i' : Intent} (h : i.Alike i')
    (accept require : Journal.RemoteResult → Bool) :
    Twins Ledger.Alike (executeCall codec i accept require)
      (executeCall codec i' accept require) := by
  refine (twins_callJournalled h accept).bind fun result => .ite (fun _ => ?_) fun _ => twins_raise _
  rw [← h.operation, ← h.acknowledged]
  have hacknowledge : Twins Ledger.Alike
      (record codec i.operation .databaseAcknowledged i.acknowledged) _ := twins_record _ _ _
  exact (twins_ask _).bind fun committed =>
    .ite (fun _ => hacknowledge) fun _ => (twins_ask _).bind fun _ => hacknowledge

variable {row row' : InstanceRow}

theorem twins_cleanUpStart (h : row.Alike row') (command : CommandRow)
    (server : Journal.RemoteServer) :
    Twins Ledger.Alike (cleanUpStart codec command row server)
      (cleanUpStart codec command row' server) := by
  have hcleanup := h.intents command .stopInstance server "generation_changed_after_start"
  refine (twins_callJournalled hcleanup _).bind fun result =>
    .ite (fun _ => (twins_ask _).bind fun _ => ?_) fun _ => twins_raise _
  rw [← hcleanup.acknowledged]
  exact twins_record _ _ _

theorem twins_startPlaced (codec : Codec) (h : row.Alike row') (command : CommandRow)
    (server : Journal.RemoteServer) :
    Twins Ledger.Alike (startPlaced codec command row server)
      (startPlaced codec command row' server) := by
  have hstart := h.intents command .ensureInstance server "start"
  refine (twins_callJournalled hstart _).bind fun _ => (twins_ask _).bind fun committed => ?_
  rw [← hstart.acknowledged]
  exact .ite (fun _ => twins_record _ _ _) fun _ =>
    (twins_cleanUpStart h command server).bind fun _ => twins_record _ _ _

/-- The row without its deployment, which only the payloads read. -/
theorem InstanceRow.Alike.exists_eq (h : row.Alike row') :
    ∃ d', row' = { row with deploymentSnapshot := d' } :=
  ⟨_, h.rest⟩

theorem twins_placement (h : row.Alike row') :
    Twins Ledger.Alike (placement row) (placement row') := by
  obtain ⟨d', rfl⟩ := h.exists_eq
  exact .ite (fun _ => (twins_ask _).bind fun _ => (twins_ask _).bind fun _ => twins_pure _)
    fun _ => (twins_ask _).bind fun _ => twins_pure _

theorem twins_executeStart (h : row.Alike row') (command : CommandRow) :
    Twins Ledger.Alike (executeStart codec command row) (executeStart codec command row') := by
  have hplacement := twins_placement h
  have hstart := twins_startPlaced codec h command
  obtain ⟨d', rfl⟩ := h.exists_eq
  refine .ite (fun _ => twins_ask _) fun _ => (twins_read _).bind fun now =>
    .ite (fun _ => twins_ask _) fun _ => (twins_ask _).bind fun gate =>
    .ite (fun _ => twins_ask _) fun _ => hplacement.bind fun placed => ?_
  split
  · exact hstart _
  · exact twins_ask _

theorem twins_terminateMarked (codec : Codec) (h : row.Alike row') (command : CommandRow)
    (server : Option Journal.RemoteServer) :
    Twins Ledger.Alike (terminateMarked codec command row server)
      (terminateMarked codec command row' server) := by
  cases server with
  | some server => exact twins_executeCall codec (h.intents command .stopInstance server "terminate") _ _
  | none =>
      exact (twins_ask _).bind fun _ => .ite (fun _ => twins_pure _) fun _ => twins_ask _

theorem twins_executeTerminate (h : row.Alike row') (command : CommandRow) :
    Twins Ledger.Alike (executeTerminate codec command row)
      (executeTerminate codec command row') := by
  have hmarked := twins_terminateMarked codec h command
  obtain ⟨d', rfl⟩ := h.exists_eq
  have hserver : Twins Ledger.Alike (homeServer row) (homeServer row) :=
    .ite (fun _ => (twins_ask _).bind fun _ => twins_pure _) fun _ => twins_pure _
  exact .ite (fun _ => twins_ask _) fun _ => hserver.bind fun server =>
    (twins_ask _).bind fun marked => .ite (fun _ => twins_ask _) fun _ => hmarked server

theorem twins_executeExtend (h : row.Alike row') (command : CommandRow) :
    Twins Ledger.Alike (executeExtend codec command row) (executeExtend codec command row') := by
  have hcall := fun server => twins_executeCall codec
    (h.intents command .updateDeadline server "extend")
  obtain ⟨d', rfl⟩ := h.exists_eq
  exact (twins_read _).bind fun now => .ite (fun _ => twins_ask _) fun _ =>
    .ite (fun _ => twins_raise _) fun _ => (twins_ask _).bind fun server => hcall server _ _

theorem twins_executeInspect (h : row.Alike row') (command : CommandRow) :
    Twins Ledger.Alike (executeInspect codec command row) (executeInspect codec command row') := by
  have hcall := fun server => twins_executeCall codec
    (h.intents command .inspectInstance server "inspect")
  obtain ⟨d', rfl⟩ := h.exists_eq
  exact .ite (fun _ => twins_ask _) fun _ => (twins_ask _).bind fun server => hcall server _ _

theorem twins_executeCommand (h : row.Alike row') (command : CommandRow) :
    Twins Ledger.Alike (executeCommand codec command row) (executeCommand codec command row') := by
  have hgeneration : row'.generation = row.generation := by rw [h.rest]
  unfold executeCommand
  rw [hgeneration]
  refine .ite (fun _ => twins_ask _) fun _ => ?_
  split
  · exact twins_executeStart h command
  · exact twins_executeTerminate h command
  · exact twins_executeExtend h command
  · exact twins_executeInspect h command
  · exact twins_executeInspect h command
  · exact twins_raise _

/-! ## The loops over the journal -/

theorem twins_cleanRecord (entry : JournalRecord) :
    Twins Ledger.Alike (cleanRecord codec entry) (cleanRecord codec entry) := by
  refine (twins_read _).bind fun now => .ite (fun _ => twins_pure _) fun _ =>
    (twins_execute (.refl _ _)).bind fun reply => ?_
  split
  · exact .ite (fun _ => twins_record _ _ _) fun _ => twins_pure _
  · exact twins_pure _

theorem twins_reconcileRecord (entry : JournalRecord) :
    Twins Ledger.Alike (reconcileRecord codec entry) (reconcileRecord codec entry) :=
  (twins_ask _).bind fun _ => .ite (fun _ => twins_record _ _ _) fun _ => twins_pure _

theorem Ledger.Alike.visitRecords {body : JournalRecord → Control PUnit}
    (hbody : ∀ entry, Twins Ledger.Alike (body entry) (body entry)) {records : Current}
    {answers : Key → Answers} (keys : List Key) {l l' : Ledger} (h : l.Alike l') :
    (Controller.visitRecords body records answers keys l).Alike
      (Controller.visitRecords body records answers keys l') := by
  induction keys generalizing l l' with
  | nil => exact h
  | cons key keys ih =>
      unfold Controller.visitRecords
      cases records.lookup key with
      | none => exact ih h
      | some entry =>
          obtain ⟨hvalue, hledger⟩ := hbody entry (answers key) l l' h
          dsimp only
          rcases hleft : body entry (answers key) l with ⟨o, l₁⟩
          rcases hright : body entry (answers key) l' with ⟨o', l₁'⟩
          rw [hleft, hright] at hvalue hledger
          cases hvalue
          cases o with
          | done _ => exact ih hledger
          | raised _ => exact hledger
          | halted => exact hledger

/-! ## Runs -/

theorem Ledger.Alike.step {l l' : Ledger} {e e' : Event} (h : l.Alike l') (he : e.Alike e') :
    (l.step codec e).Alike (l'.step codec e') := by
  cases e with
  | execute command row answers =>
      cases e' with
      | execute command' row' answers' =>
          obtain ⟨rfl, hrow, rfl⟩ := he
          exact (twins_executeCommand hrow command answers l l' h).2
      | _ => cases he
  | openJournal =>
      obtain rfl := he
      exact ⟨by simp only [Ledger.step, h.journal], h.written, h.sent⟩
  | cleanup order answers =>
      obtain rfl := he
      unfold Ledger.step
      rw [h.journal]
      dsimp only
      split
      · exact h
      · exact h.visitRecords twins_cleanRecord order
  | reconcile order answers =>
      obtain rfl := he
      unfold Ledger.step
      rw [h.journal]
      dsimp only
      split
      · exact h
      · exact h.visitRecords twins_reconcileRecord order

/-- **Flags stay secret.**  Two runs that differ only in the values of
`deployment.flag_value` write the same bytes to the journal and send the same
requests for every operation but `ensure-instance`. -/
theorem flag_secrecy (codec : Codec) (l : Ledger) (events events' : List Event)
    (h : List.Forall₂ Event.Alike events events') :
    (l.after codec events).written = (l.after codec events').written ∧
      (l.after codec events).sentOtherwise = (l.after codec events').sentOtherwise := by
  have hafter : ∀ {l l' : Ledger}, l.Alike l' → (l.after codec events).Alike (l'.after codec events') := by
    induction h with
    | nil => exact fun h => h
    | cons he _ ih => exact fun h => ih (h.step he)
  have hend := hafter (.refl l)
  exact ⟨hend.written, hend.sentOtherwise⟩

/-- The row of an instance with a flag of its own. -/
def flaggedRow (flag : String) : InstanceRow where
  id := 1
  ownerUserId := 7
  challengeId := 1
  deploymentSnapshot := .object [("container_port", .number "31337"), ("flag_value", .string flag)]
  desiredState := "running"
  desiredExpiresAt := seconds 1800
  maximumExpiresAt := seconds 3600
  expiresAt := seconds 1800
  remoteServerId := none
  remoteContainerId := none
  generation := 1
  active := true

/-- The start of the instance; the helper refuses it. -/
def flaggedStart (flag : String) : Event :=
  .execute ⟨2, 1, "start", 1, 1, 1, .object []⟩ (flaggedRow flag)
    { now := 0
      gate := some ⟨true, 1, true, 1⟩
      server := none
      placed := some (some smallServer)
      marked := none
      finished := none
      closed := some ⟨⟩
      databaseFinished := none
      starts := fun _ => true
      operationTimeout := 60
      reply := fun _ => none
      updatedAt := fun _ _ => 0
      outcome := fun _ _ => .returned true .none }

/-- The start with one flag and with another. -/
theorem flag_secrecy_started :
    (Ledger.after outageCodec ⟨.fresh, [], []⟩ [flaggedStart "flag-a"]).written =
        (Ledger.after outageCodec ⟨.fresh, [], []⟩ [flaggedStart "flag-b"]).written ∧
      (Ledger.after outageCodec ⟨.fresh, [], []⟩ [flaggedStart "flag-a"]).sentOtherwise =
        (Ledger.after outageCodec ⟨.fresh, [], []⟩ [flaggedStart "flag-b"]).sentOtherwise := by
  refine flag_secrecy outageCodec ⟨.fresh, [], []⟩ _ _ (.cons ⟨rfl, ⟨rfl, ?_, ?_⟩, rfl⟩ .nil)
  · exact .cons ⟨rfl, fun _ => rfl⟩ (.cons ⟨rfl, fun h => absurd rfl h⟩ .nil)
  · intro command reason
    simp only [validateFlagValue, remotePayload_deployment, Option.bind_some]
    decide +kernel

end Controller

end CtfZone
