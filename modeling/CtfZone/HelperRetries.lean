/-
# Helper requests delivered twice

The controller sends a request again when the reply to it was lost.  The second
run finds the host as the first one left it.

* `ensure-instance`, `inspect-instance` and `update-deadline` change nothing
  more, and the controller takes their second reply as it took the first.
* `stop-instance` answers a second time that the workload is absent.  Where the
  first run could not read the state file of a container, it fences the instance
  at the generation of the label, and the second run, which finds neither, raises
  the tombstone to the requested generation.
-/
import CtfZone.ControllerWorker
import CtfZone.StaleRequests

open Effects Effects.Prog

namespace CtfZone.Helper

variable {identifier : Uuid} {env env' : Env} {s s' : Cell} {n m : ℤ} {reply : Reply}
  {request : Request} {p : Phase}

/-! ## What the controller makes of a reply -/

/-- A confirmed start, removal or deadline, an absent or a running workload, or
a reply that is not taken. -/
inductive Verdict
  | start | removal | deadline | absent | observed | refused
  deriving DecidableEq

/-- The checks of the controller on a reply to a request of generation `n`. -/
def Operation.verdict (op : Operation) (n : ℤ) (reply : Reply) : Verdict :=
  match reply.parse with
  | none => .refused
  | some result =>
    match op with
    | .ensure _ =>
      if requireRemoteGeneration result n && result.absent ≠ some true &&
        result.containerId.isSome && result.ready = some true then .start else .refused
    | .stop _ => if requireRemoteRemoval result then .removal else .refused
    | .update _ => if requireRemoteGeneration result n then .deadline else .refused
    | .inspect =>
      if result.absent = some true then .absent
      else if requireRemoteGeneration result n then .observed else .refused
    | .expire _ | .sweep => .refused

/-- The operation of a request of the worker. -/
def Operation.called (r : RemoteRequest) : Operation :=
  match r.call with
  | .start => .ensure r.payload
  | .cleanup | .terminate => .stop r.payload
  | .extend => .update r.payload
  | .inspect => .inspect

theorem called_run (r : RemoteRequest) :
    (Operation.called r).run r.job.row.id = do return some (← r.program) := by
  unfold Operation.called RemoteRequest.program
  rcases r.call with _ | _ | _ | _ | _
  all_goals rfl

/-- A reply is refused when the worker retries the command over it. -/
theorem verdict_refused_iff (r : RemoteRequest) (reply : Reply) :
    (Operation.called r).verdict r.job.command.generation reply = .refused ↔
      r.received (some reply) = .retry r.job.command := by
  unfold Operation.verdict RemoteRequest.received
  rw [Option.bind_some]
  rcases reply.parse with _ | result
  · exact ⟨fun _ => rfl, fun _ => rfl⟩
  dsimp only
  unfold RemoteRequest.accepts Operation.called
  rcases r.call with _ | _ | _ | _ | _
  · dsimp only
    split <;> simp
  · dsimp only
    split <;> simp
  · dsimp only
    split <;> simp
  · dsimp only
    split <;> simp
  · dsimp only
    by_cases habsent : result.absent = some true
    · simp [habsent]
    · by_cases hgeneration : requireRemoteGeneration result r.job.command.generation = true
      · simp [habsent, hgeneration]
      · simp [habsent, hgeneration]

/-- The container, the network, both files and the timer of the recorded
generation are the same. -/
structure Cell.Unchanged (identifier : Uuid) (s s' : Cell) : Prop where
  container : s'.container = s.container
  network : s'.network = s.network
  stateFile : s'.stateFile = s.stateFile
  tombstoneFile : s'.tombstoneFile = s.tombstoneFile
  timer : ∀ g, Cell.recorded identifier s = some g → s'.timers (some g) = s.timers (some g)

theorem Cell.Unchanged.refl (identifier : Uuid) (s : Cell) : Cell.Unchanged identifier s s :=
  ⟨rfl, rfl, rfl, rfl, fun _ _ => rfl⟩

variable {st : InstanceState} {g : ℤ}

/-- The state file is readable, and the effective generation is `g`. -/
structure Cell.Effective (identifier : Uuid) (st : InstanceState) (g : ℤ) (s : Cell) : Prop where
  readable : s.stateFile = .document st
  own : st.instanceId = identifier
  effective : stateGeneration (some st) s.container = some g

theorem Cell.Effective.read {q : Phase} (hcalm : Calm env)
    (h : Cell.Effective identifier st g s) :
    Returns (readStateOrNone q identifier) env s (some st) s :=
  readStateOrNone_readable (hcalm q _) h.readable h.own

/-- A reply that the workload is gone. -/
structure Reply.Gone (reply : Reply) : Prop where
  absent : reply.absent = some true
  current : reply.staleGeneration = some false
  undated : reply.effectiveExpiresAt = .missing

theorem Reply.Gone.verdict (h : reply.Gone) (n : ℤ) :
    (Operation.stop request).verdict n reply = .removal := by
  unfold Operation.verdict Reply.parse
  rw [h.undated]
  simp [requireRemoteRemoval, Reply.result, h.absent, h.current]

end CtfZone.Helper
