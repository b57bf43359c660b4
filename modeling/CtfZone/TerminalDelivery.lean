/-
# What a terminal session delivers

Every byte that the process has written is somewhere: with the browser, in the queue, in the
hand of the reading thread, or still in the PTY (`Flows.output`), and likewise for the bytes of
the browser (`Flows.input`).  What the loop does is stated for each of its functions, then for
a turn, and then for every run (`flows_of_reach`).

The loop ends in two places after the process is gone.  The end of the output is seen only
when the queue is empty, but the poll of the process comes before the queue: what has not been
sent when it finds the process gone is lost.  `Drained` asks that nothing is left at that
poll.
-/
import CtfZone.Terminal

open Runs

namespace CtfZone.Terminals

/-! ## Frames -/

@[simp] theorem sentBytes_append (frames frames' : List Frame) :
    sentBytes (frames ++ frames') = sentBytes frames ++ sentBytes frames' :=
  List.flatMap_append

@[simp] theorem sentBytes_output (bytes : Bytes) : sentBytes [.output bytes] = bytes :=
  List.append_nil bytes

@[simp] theorem sentBytes_exit (code : ℕ) : sentBytes [.exit code] = [] := rfl

@[simp] theorem sentBytes_error (reason : Reason) : sentBytes [.error reason] = [] := rfl

@[simp] theorem sentBytes_nil : sentBytes [] = [] := rfl

/-- An exit frame of a list with one frame more is that frame, or it was there before. -/
theorem exit_append {frames before after : List Frame} {frame : Frame} {code : ℕ}
    (h : frames ++ [frame] = before ++ .exit code :: after) :
    (after = [] ∧ frame = .exit code) ∨ ∃ after', frames = before ++ .exit code :: after' := by
  rcases List.eq_nil_or_concat after with rfl | ⟨after', last, rfl⟩
  · have hlast := List.append_inj' h rfl
    exact .inl ⟨rfl, (List.cons.inj hlast.2).1⟩
  · right
    rw [List.concat_eq_append, ← List.cons_append, ← List.append_assoc] at h
    exact ⟨after', (List.append_inj' h rfl).1⟩

/-! ## Where the bytes are -/

/-- The output on its way to the browser. -/
def Terminal.pending (t : Terminal) : Bytes :=
  t.outputQueue.flatten ++ (t.reading.getD [] ++ t.pty)

/-- The input that was accepted, in the order of its bytes. -/
def Terminal.accepted (t : Terminal) : Bytes :=
  t.written ++ (t.writing ++ t.inputQueue.flatten)

/-- The loop has not ended. -/
def Phase.Open (phase : Phase) : Prop := phase = .running ∨ phase = .waiting

/-- Where the bytes of a session are. -/
structure Flows (t : Terminal) : Prop where
  output : t.produced = sentBytes t.frames ++ (t.dropped ++ t.pending)
  /-- While the loop runs, no chunk has been dropped. -/
  whole : t.phase.Open → t.dropped = []
  exited : t.exited.isSome → t.hungUp = true
  /-- The reading thread ends after all that it can read. -/
  readerDone : t.readerDone = true → t.reading = none ∧ t.pty = [] ∧ t.hungUp = true
  waiting : t.phase = .waiting → t.readerDone = true ∧ t.outputQueue = []
  input : t.accepted <+: t.received.flatten
  /-- While the loop runs, all that the browser sent has been accepted. -/
  taken : t.phase = .running → t.accepted = t.received.flatten
  /-- An exit frame is the last frame. -/
  exitLast : ∀ before code after, t.frames = before ++ .exit code :: after →
    after = [] ∧ t.phase = .closed .remoteExit

theorem flows_started : Flows started where
  output := rfl
  whole _ := rfl
  exited h := by cases h
  readerDone h := by cases h
  waiting h := by cases h
  input := List.prefix_rfl
  taken _ := rfl
  exitLast before code after h := by
    have hlength := congrArg List.length h
    simp [started] at hlength

namespace Flows

variable {t t' : Terminal}

/-- While the loop runs, no exit frame has been sent. -/
theorem noExit (h : Flows t) (hopen : t.phase.Open) {before after : List Frame} {code : ℕ} :
    t.frames ≠ before ++ .exit code :: after := by
  intro hframes
  have hclosed := (h.exitLast _ _ _ hframes).2
  rcases hopen with hphase | hphase <;> rw [hphase] at hclosed <;> cases hclosed

/-! ## The loop -/

theorem stop (h : Flows t) (hopen : t.phase.Open) (reason : Reason) : Flows (t.stop reason) where
  output := h.output
  whole hended := by rcases hended with hended | hended <;> cases hended
  exited := h.exited
  readerDone := h.readerDone
  waiting hended := by cases hended
  input := h.input
  taken hended := by cases hended
  exitLast _ _ _ hframes := absurd hframes (h.noExit hopen)

theorem beat (h : Flows t) (hrunning : t.phase = .running) (heartbeat : Heartbeat) :
    Flows (t.beat heartbeat) := by
  have hmissed (missed : ℕ) : Flows { t with missedHeartbeats := missed } := { h with }
  rcases heartbeat with _ | _ | _
  · exact hmissed 0
  · exact h.stop (.inl hrunning) _
  · unfold Terminal.beat
    dsimp only
    have hlater := hmissed (min (t.missedHeartbeats + 1) 255)
    split
    · exact hlater.stop (.inl hrunning) _
    · exact hlater

theorem exitCode (h : Flows t) (code : Option ℕ) : Flows { t with exitCode := code } :=
  { h with }

theorem poll (h : Flows t) (hrunning : t.phase = .running) (succeeds : Bool) :
    Flows (t.poll succeeds) := by
  unfold Terminal.poll
  split
  · split
    · rename_i code _
      exact (h.exitCode (some (min code (2 ^ 31 - 1)))).stop (.inl hrunning) _
    · exact h
  · exact h.stop (.inl hrunning) _

/-- A frame that is not accepted ends the loop. -/
theorem refuse (h : Flows t) (hrunning : t.phase = .running) (value : Bytes) (count : ℕ)
    (reason : Reason) :
    Flows ({ t with received := t.received ++ [value], bytesFromBrowser := count }.stop
      reason) where
  output := h.output
  whole hended := by rcases hended with hended | hended <;> cases hended
  exited := h.exited
  readerDone := h.readerDone
  waiting hended := by cases hended
  input := by
    show t.accepted <+: (t.received ++ [value]).flatten
    rw [List.flatten_append]
    exact h.input.trans (List.prefix_append _ _)
  taken hended := by cases hended
  exitLast _ _ _ hframes := absurd hframes (h.noExit (.inl hrunning))

theorem accept (h : Flows t) (hrunning : t.phase = .running) (value : Bytes) (count : ℕ) :
    Flows { t with
      received := t.received ++ [value], bytesFromBrowser := count
      inputQueue := t.inputQueue ++ [value] } := by
  have htaken : t.written ++ (t.writing ++ (t.inputQueue ++ [value]).flatten) =
      (t.received ++ [value]).flatten := by
    rw [List.flatten_append, List.flatten_append, ← h.taken hrunning, Terminal.accepted,
      List.append_assoc, List.append_assoc]
  exact { h with
    input := by
      show t.written ++ (t.writing ++ (t.inputQueue ++ [value]).flatten) <+:
        (t.received ++ [value]).flatten
      exact htaken ▸ List.prefix_rfl
    taken := fun _ => htaken }

theorem receive (h : Flows t) (hrunning : t.phase = .running) (message : Message) :
    Flows (t.receive message) := by
  rcases message with value | ⟨size, resized⟩ | _ | _
  · unfold Terminal.receive
    dsimp only
    split
    · exact h.refuse hrunning value t.bytesFromBrowser _
    · split
      · exact h.refuse hrunning value _ _
      · split
        · exact h.refuse hrunning value _ _
        · exact h.accept hrunning value _
  · rcases size with _ | ⟨cols, rows⟩
    · exact h.stop (.inl hrunning) _
    · unfold Terminal.receive
      dsimp only
      split
      · split
        · exact h
        · exact h.stop (.inl hrunning) _
      · exact h.stop (.inl hrunning) _
  · exact h
  · exact h.stop (.inl hrunning) _

/-- A chunk that the browser was sent. -/
theorem deliver (h : Flows t) (hrunning : t.phase = .running) {chunk : Bytes}
    {rest : List Bytes} (hqueue : t.outputQueue = chunk :: rest) (count : ℕ) :
    Flows { t with
      outputQueue := rest, bytesToBrowser := count, frames := t.frames ++ [.output chunk] } where
  output := by
    have hdropped := h.whole (.inl hrunning)
    have houtput := h.output
    rw [Terminal.pending, hqueue, hdropped] at houtput
    show t.produced = sentBytes (t.frames ++ [.output chunk]) ++
      (t.dropped ++ (rest.flatten ++ (t.reading.getD [] ++ t.pty)))
    rw [houtput, hdropped]
    simp
  whole := h.whole
  exited := h.exited
  readerDone := h.readerDone
  waiting hwaiting := by
    rw [hrunning] at hwaiting
    cases hwaiting
  input := h.input
  taken := h.taken
  exitLast before code after hframes := by
    rcases exit_append hframes with ⟨-, hframe⟩ | ⟨after', hbefore⟩
    · cases hframe
    · exact absurd hbefore (h.noExit (.inl hrunning))

/-- A chunk that the browser did not take. -/
theorem drop (h : Flows t) (hrunning : t.phase = .running) {chunk : Bytes}
    {rest : List Bytes} (hqueue : t.outputQueue = chunk :: rest) (count : ℕ) :
    Flows ({ t with
      outputQueue := rest, bytesToBrowser := count, dropped := chunk }.stop .slowBrowser) where
  output := by
    have houtput := h.output
    rw [Terminal.pending, hqueue, h.whole (.inl hrunning)] at houtput
    show t.produced = sentBytes t.frames ++
      (chunk ++ (rest.flatten ++ (t.reading.getD [] ++ t.pty)))
    rw [houtput]
    simp
  whole hended := by rcases hended with hended | hended <;> cases hended
  exited := h.exited
  readerDone := h.readerDone
  waiting hended := by cases hended
  input := h.input
  taken hended := by cases hended
  exitLast _ _ _ hframes := absurd hframes (h.noExit (.inl hrunning))

theorem forward (h : Flows t) (hrunning : t.phase = .running) {chunk : Bytes}
    {rest : List Bytes} (hqueue : t.outputQueue = chunk :: rest) (sent : Sent) :
    Flows (t.forward chunk rest sent) := by
  rcases sent with _ | _ | _
  · exact h.deliver hrunning hqueue _
  · exact h.drop hrunning hqueue _
  · exact (h.deliver hrunning hqueue _).stop (.inl hrunning) _

/-- The loop waits for the exit when the reading thread is done and its queue empty. -/
theorem wait (h : Flows t) (hrunning : t.phase = .running) (hqueue : t.outputQueue = [])
    (hdone : t.readerDone = true) : Flows { t with phase := .waiting } where
  output := h.output
  whole _ := h.whole (.inl hrunning)
  exited := h.exited
  readerDone := h.readerDone
  waiting _ := ⟨hdone, hqueue⟩
  input := h.input
  taken hwaiting := by cases hwaiting
  exitLast _ _ _ hframes := absurd hframes (h.noExit (.inl hrunning))

theorem turn (h : Flows t) (hrunning : t.phase = .running) {ready : Ready}
    (hturn : t.turn ready = some t') : Flows t' := by
  unfold Terminal.turn at hturn
  split at hturn
  · rw [← Option.some.inj hturn]
    exact h.stop (.inl hrunning) _
  split at hturn
  · rw [← Option.some.inj hturn]
    exact h.stop (.inl hrunning) _
  split at hturn
  · rw [← Option.some.inj hturn]
    exact h.stop (.inl hrunning) _
  -- the first of the branches that is ready, in the order of the source
  split at hturn
  · rw [← Option.some.inj hturn]
    exact h.beat hrunning _
  · rw [← Option.some.inj hturn]
    exact h.poll hrunning _
  · rw [← Option.some.inj hturn]
    exact h.receive hrunning _
  · rename_i hqueue
    rw [← Option.some.inj hturn]
    exact h.forward hrunning hqueue _
  · rename_i hqueue
    split at hturn
    · rename_i hdone
      rw [← Option.some.inj hturn]
      exact h.wait hrunning hqueue hdone
    · cases hturn

theorem waited (h : Flows t) (hwaiting : t.phase = .waiting) (code : Option ℕ) (reason : Reason) :
    Flows ({ t with exitCode := code }.stop reason) :=
  (h.exitCode code).stop (.inr hwaiting) reason

/-! ## After the loop -/

/-- The session is closed, with or without a hang-up. -/
theorem close (h : Flows t) {reason : Reason} (hended : t.phase = .ended reason) {hungUp : Bool}
    (hkept : t.hungUp = true → hungUp = true) :
    Flows { t with phase := .closed reason, hungUp := hungUp } where
  output := h.output
  whole hopen := by rcases hopen with hopen | hopen <;> cases hopen
  exited hexited := hkept (h.exited hexited)
  readerDone hdone := by
    obtain ⟨hreading, hpty, hhung⟩ := h.readerDone hdone
    exact ⟨hreading, hpty, hkept hhung⟩
  waiting hwaiting := by cases hwaiting
  input := h.input
  taken hrunning := by cases hrunning
  exitLast _ _ _ hframes := by
    have hclosed := (h.exitLast _ _ _ hframes).2
    rw [hended] at hclosed
    cases hclosed

/-- A last frame, which is not output. -/
theorem lastFrame (h : Flows t) {reason : Reason} (hclosed : t.phase = .closed reason)
    (hfresh : ∀ before code after, t.frames ≠ before ++ .exit code :: after) {frame : Frame}
    (hbytes : sentBytes [frame] = [])
    (hexit : ∀ code, frame = .exit code → reason = .remoteExit) :
    Flows { t with frames := t.frames ++ [frame] } :=
  { h with
    output := by
      show t.produced = sentBytes (t.frames ++ [frame]) ++ (t.dropped ++ t.pending)
      rw [sentBytes_append, hbytes, List.append_nil]
      exact h.output
    exitLast := fun before code after hframes => by
      rcases exit_append hframes with ⟨hafter, hframe⟩ | ⟨after', hbefore⟩
      · refine ⟨hafter, ?_⟩
        show t.phase = _
        rw [hclosed, hexit _ hframe]
      · exact absurd hbefore (hfresh _ _ _) }

theorem finish (h : Flows t) {reason : Reason} (hended : t.phase = .ended reason)
    (delivered : Bool) : Flows (t.finish reason delivered) := by
  have hfresh (before : List Frame) (code : ℕ) (after : List Frame) :
      t.frames ≠ before ++ .exit code :: after := by
    intro hframes
    have hclosed := (h.exitLast _ _ _ hframes).2
    rw [hended] at hclosed
    cases hclosed
  unfold Terminal.finish
  dsimp only
  split
  · have hclosed : Flows { t with phase := .closed .remoteExit } := h.close hended id
    split
    · exact hclosed.lastFrame rfl hfresh rfl fun _ _ => rfl
    · exact hclosed
  · exact h.close hended fun _ => rfl
  · have hclosed := h.close hended fun _ => (rfl : true = true)
    split
    · refine hclosed.lastFrame rfl hfresh rfl ?_
      intro code hframe
      cases hframe
    · exact hclosed

end Flows

/-! ## The process and the threads -/

namespace Flows

variable {t : Terminal}

theorem write (h : Flows t) (hopen : t.hungUp = false) (bytes : Bytes) :
    Flows { t with produced := t.produced ++ bytes, pty := t.pty ++ bytes } :=
  { h with
    output := by
      show t.produced ++ bytes = sentBytes t.frames ++
        (t.dropped ++ (t.outputQueue.flatten ++ (t.reading.getD [] ++ (t.pty ++ bytes))))
      rw [h.output, Terminal.pending]
      simp only [List.append_assoc]
    readerDone := fun hdone => by
      have hhung := (h.readerDone hdone).2.2
      rw [hopen] at hhung
      cases hhung }

theorem hangUp (h : Flows t) (exited : Option ℕ) :
    Flows { t with exited := exited, hungUp := true } :=
  { h with
    exited := fun _ => rfl
    readerDone := fun hdone => ⟨(h.readerDone hdone).1, (h.readerDone hdone).2.1, rfl⟩ }

theorem read (h : Flows t) (hidle : t.reading = none) (hreads : t.readerDone = false)
    (count : ℕ) :
    Flows { t with reading := some (t.pty.take count), pty := t.pty.drop count } :=
  { h with
    output := by
      show t.produced = sentBytes t.frames ++
        (t.dropped ++ (t.outputQueue.flatten ++ (t.pty.take count ++ t.pty.drop count)))
      rw [List.take_append_drop, h.output, Terminal.pending, hidle]
      rfl
    readerDone := fun hdone => by
      rw [show t.readerDone = true from hdone] at hreads
      cases hreads }

theorem send (h : Flows t) {chunk : Bytes} (hreading : t.reading = some chunk) :
    Flows { t with reading := none, outputQueue := t.outputQueue ++ [chunk] } := by
  -- a thread that holds a chunk is not done
  have hbusy : t.readerDone ≠ true := by
    intro hdone
    have hnone := (h.readerDone hdone).1
    rw [hreading] at hnone
    cases hnone
  exact { h with
    output := by
      show t.produced = sentBytes t.frames ++
        (t.dropped ++ ((t.outputQueue ++ [chunk]).flatten ++ ([] ++ t.pty)))
      rw [h.output, Terminal.pending, hreading]
      simp
    readerDone := fun hdone => absurd hdone hbusy
    waiting := fun hwaiting => absurd (h.waiting hwaiting).1 hbusy }

theorem readEnd (h : Flows t) (hreading : t.reading = none) (hpty : t.pty = [])
    (hhung : t.hungUp = true) : Flows { t with readerDone := true } :=
  { h with
    readerDone := fun _ => ⟨hreading, hpty, hhung⟩
    waiting := fun hwaiting => ⟨rfl, (h.waiting hwaiting).2⟩ }

/-- The writing thread moves bytes that were accepted. -/
theorem moveInput (h : Flows t) {written writing : Bytes} {inputQueue : List Bytes}
    (hsame : written ++ (writing ++ inputQueue.flatten) = t.accepted) :
    Flows { t with written := written, writing := writing, inputQueue := inputQueue } :=
  { h with
    input := by
      show written ++ (writing ++ inputQueue.flatten) <+: _
      rw [hsame]
      exact h.input
    taken := fun hrunning => by
      show written ++ (writing ++ inputQueue.flatten) = _
      rw [hsame]
      exact h.taken hrunning }

theorem takeInput (h : Flows t) {value : Bytes} {rest : List Bytes}
    (hqueue : t.inputQueue = value :: rest) (hidle : t.writing = []) :
    Flows { t with writing := value, inputQueue := rest } := by
  refine h.moveInput ?_
  rw [Terminal.accepted, hqueue, hidle]
  rfl

theorem writeInput (h : Flows t) (count : ℕ) :
    Flows { t with
      written := t.written ++ t.writing.take count, writing := t.writing.drop count } := by
  refine h.moveInput ?_
  rw [Terminal.accepted, List.append_assoc, ← List.append_assoc (t.writing.take count),
    List.take_append_drop]

end Flows

/-! ## Runs -/

/-- **Every step keeps every byte.** -/
theorem step_flows {l : Label} {t t' : Terminal} (hs : step l t = some t') (h : Flows t) :
    Flows t' := by
  rcases l with bytes | _ | code | count | _ | _ | _ | count | _ | ready | succeeds | delivered
    <;> simp only [step] at hs
  · split at hs
    · cases hs
    · rename_i hopen
      rw [← Option.some.inj hs]
      exact h.write (Bool.eq_false_iff.mpr hopen) bytes
  · rw [← Option.some.inj hs]
    exact h.hangUp t.exited
  · split at hs
    · cases hs
    · rw [← Option.some.inj hs]
      exact h.hangUp (some code)
  · split at hs
    · cases hs
    · rename_i hready
      simp only [Bool.or_eq_true, not_or, Bool.not_eq_true, Option.isSome_eq_false_iff,
        Option.isNone_iff_eq_none] at hready
      rw [← Option.some.inj hs]
      exact h.read hready.1.1.1.1 hready.1.1.1.2 count
  · split at hs
    · rename_i hreading
      split at hs
      · rw [← Option.some.inj hs]
        exact h.send hreading
      · cases hs
    · cases hs
  · split at hs
    · rename_i hready
      simp only [Bool.and_eq_true, Option.isNone_iff_eq_none, List.isEmpty_iff] at hready
      rw [← Option.some.inj hs]
      exact h.readEnd hready.1.1 hready.1.2 hready.2
    · cases hs
  · split at hs
    · rename_i hqueue
      split at hs
      · rename_i hready
        simp only [Bool.and_eq_true, List.isEmpty_iff] at hready
        rw [← Option.some.inj hs]
        exact h.takeInput hqueue hready.1
      · cases hs
    · cases hs
  · split at hs
    · cases hs
    · rw [← Option.some.inj hs]
      exact h.writeInput count
  · rw [← Option.some.inj hs]
    exact { h with }
  · split at hs
    · rename_i hrunning
      exact h.turn hrunning hs
    · cases hs
  · split at hs
    · rename_i hwaiting
      split at hs
      · split at hs
        · rename_i code _
          rw [← Option.some.inj hs]
          exact h.waited hwaiting (some (min code (2 ^ 31 - 1))) _
        · rw [← Option.some.inj hs]
          exact h.stop (.inr hwaiting) _
      · rw [← Option.some.inj hs]
        exact h.stop (.inr hwaiting) _
    · cases hs
  · split at hs
    · rename_i hended
      rw [← Option.some.inj hs]
      exact h.finish hended delivered
    · cases hs

/-- **No byte is lost, doubled or moved in any run.** -/
theorem flows_of_reach {guard : Terminal → Label → Prop} {t : Terminal}
    (h : Reach step guard (· = started) t) : Flows t := by
  induction h with
  | init hinit =>
      rw [hinit]
      exact flows_started
  | step l _ _ hs ih => exact step_flows hs ih

/-! ## The end of the process -/

/-- The turn is the poll of the process, which finds it gone. -/
def Terminal.findsGone (t : Terminal) (ready : Ready) : Bool :=
  !ready.shutdown && !ready.absolute && !ready.idle && ready.heartbeat.isNone &&
    ready.childPoll = some true && t.exited.isSome

/-- A poll that finds the process gone finds nothing of its output left. -/
def Drained (t : Terminal) : Label → Prop
  | .turn ready => t.phase = .running → t.findsGone ready = true → t.pending = []
  | _ => True

instance (t : Terminal) : ∀ l, Decidable (Drained t l)
  | .turn ready =>
    inferInstanceAs (Decidable (t.phase = .running → t.findsGone ready = true → t.pending = []))
  | .write _ | .hangUp | .exit _ | .read _ | .send | .readEnd | .takeInput | .writeInput _
  | .writeFail | .waited _ | .finish _ => inferInstanceAs (Decidable True)

/-- The session ends with `remote_exit`. -/
def Terminal.RemoteExit (t : Terminal) : Prop :=
  t.phase = .ended .remoteExit ∨ t.phase = .closed .remoteExit

/-- The process is gone, and all its output has been sent. -/
structure Terminal.Delivered (t : Terminal) : Prop where
  exited : t.exited.isSome = true
  sent : sentBytes t.frames = t.produced

theorem not_remoteExit_of_open {t : Terminal} (hopen : t.phase.Open) : ¬ t.RemoteExit := by
  rintro (hexit | hexit) <;> rcases hopen with hphase | hphase <;> rw [hphase] at hexit <;>
    cases hexit

theorem not_remoteExit_stop (t : Terminal) {reason : Reason} (hreason : reason ≠ .remoteExit) :
    ¬ (t.stop reason).RemoteExit := by
  rintro (hexit | hexit)
  · exact hreason (Phase.ended.inj hexit)
  · cases hexit

theorem not_remoteExit_beat {t : Terminal} (hrunning : t.phase = .running)
    (heartbeat : Heartbeat) : ¬ (t.beat heartbeat).RemoteExit := by
  rcases heartbeat with _ | _ | _
  · exact not_remoteExit_of_open (.inl hrunning)
  · exact not_remoteExit_stop t (by decide)
  · unfold Terminal.beat
    dsimp only
    split
    · exact not_remoteExit_stop _ (by decide)
    · exact not_remoteExit_of_open (.inl hrunning)

theorem not_remoteExit_receive {t : Terminal} (hrunning : t.phase = .running)
    (message : Message) : ¬ (t.receive message).RemoteExit := by
  rcases message with value | ⟨size, resized⟩ | _ | _
  · unfold Terminal.receive
    dsimp only
    split
    · exact not_remoteExit_stop _ (by decide)
    · split
      · exact not_remoteExit_stop _ (by decide)
      · split
        · exact not_remoteExit_stop _ (by decide)
        · exact not_remoteExit_of_open (.inl hrunning)
  · rcases size with _ | ⟨cols, rows⟩
    · exact not_remoteExit_stop _ (by decide)
    · unfold Terminal.receive
      dsimp only
      split
      · split
        · exact not_remoteExit_of_open (.inl hrunning)
        · exact not_remoteExit_stop _ (by decide)
      · exact not_remoteExit_stop _ (by decide)
  · exact not_remoteExit_of_open (.inl hrunning)
  · exact not_remoteExit_stop _ (by decide)

theorem not_remoteExit_forward {t : Terminal} (hrunning : t.phase = .running) (chunk : Bytes)
    (rest : List Bytes) (sent : Sent) : ¬ (t.forward chunk rest sent).RemoteExit := by
  rcases sent with _ | _ | _
  · exact not_remoteExit_of_open (.inl hrunning)
  · exact not_remoteExit_stop _ (by decide)
  · exact not_remoteExit_stop _ (by decide)

/-- The only turn that ends a session with `remote_exit` is the poll that finds the process
gone, and it leaves the bytes where they are. -/
theorem turn_remoteExit {t t' : Terminal} {ready : Ready} (hrunning : t.phase = .running)
    (hturn : t.turn ready = some t') (hexit : t'.RemoteExit) :
    t.findsGone ready = true ∧ t'.exited = t.exited ∧ t'.frames = t.frames ∧
      t'.produced = t.produced := by
  unfold Terminal.turn at hturn
  split at hturn
  · rw [← Option.some.inj hturn] at hexit
    exact absurd hexit (not_remoteExit_stop t (by decide))
  rename_i hshutdown
  split at hturn
  · rw [← Option.some.inj hturn] at hexit
    exact absurd hexit (not_remoteExit_stop t (by decide))
  rename_i habsolute
  split at hturn
  · rw [← Option.some.inj hturn] at hexit
    exact absurd hexit (not_remoteExit_stop t (by decide))
  rename_i hidle
  split at hturn
  · rw [← Option.some.inj hturn] at hexit
    exact absurd hexit (not_remoteExit_beat hrunning _)
  · rename_i succeeds _ _ hheartbeat hpoll
    have ht' := Option.some.inj hturn
    unfold Terminal.poll at ht'
    split at ht'
    · rename_i hsucceeds
      split at ht'
      · rename_i code hexited
        subst ht'
        refine ⟨?_, rfl, rfl, rfl⟩
        simp [Terminal.findsGone, hshutdown, habsolute, hidle, hheartbeat, hpoll, hsucceeds,
          hexited]
      · rw [← ht'] at hexit
        exact absurd hexit (not_remoteExit_of_open (.inl hrunning))
    · rw [← ht'] at hexit
      exact absurd hexit (not_remoteExit_stop t (by decide))
  · rw [← Option.some.inj hturn] at hexit
    exact absurd hexit (not_remoteExit_receive hrunning _)
  · rw [← Option.some.inj hturn] at hexit
    exact absurd hexit (not_remoteExit_forward hrunning _ _ _)
  · split at hturn
    · rw [← Option.some.inj hturn] at hexit
      exact absurd hexit (not_remoteExit_of_open (.inr rfl))
    · cases hturn

/-- The label is the loop's. -/
def Label.ofLoop : Label → Bool
  | .turn _ | .waited _ | .finish _ => true
  | _ => false

/-- The process and the threads leave the loop where it is, and a process that is gone writes
nothing more. -/
theorem step_beside {l : Label} {t t' : Terminal} (hs : step l t = some t')
    (hbeside : l.ofLoop = false) (hhung : t.exited.isSome → t.hungUp = true) :
    t'.phase = t.phase ∧ t'.frames = t.frames ∧
      (t.exited.isSome = true → t'.exited.isSome = true ∧ t'.produced = t.produced) := by
  rcases l with bytes | _ | code | count | _ | _ | _ | count | _ | ready | succeeds | delivered
    <;> simp only [step] at hs
  · split at hs
    · cases hs
    · rename_i hopen
      rw [← Option.some.inj hs]
      exact ⟨rfl, rfl, fun hexited => absurd (hhung hexited) hopen⟩
  · rw [← Option.some.inj hs]
    exact ⟨rfl, rfl, fun hexited => ⟨hexited, rfl⟩⟩
  · split at hs
    · cases hs
    · rw [← Option.some.inj hs]
      exact ⟨rfl, rfl, fun _ => ⟨rfl, rfl⟩⟩
  · split at hs
    · cases hs
    · rw [← Option.some.inj hs]
      exact ⟨rfl, rfl, fun hexited => ⟨hexited, rfl⟩⟩
  · split at hs
    · split at hs
      · rw [← Option.some.inj hs]
        exact ⟨rfl, rfl, fun hexited => ⟨hexited, rfl⟩⟩
      · cases hs
    · cases hs
  · split at hs
    · rw [← Option.some.inj hs]
      exact ⟨rfl, rfl, fun hexited => ⟨hexited, rfl⟩⟩
    · cases hs
  · split at hs
    · split at hs
      · rw [← Option.some.inj hs]
        exact ⟨rfl, rfl, fun hexited => ⟨hexited, rfl⟩⟩
      · cases hs
    · cases hs
  · split at hs
    · cases hs
    · rw [← Option.some.inj hs]
      exact ⟨rfl, rfl, fun hexited => ⟨hexited, rfl⟩⟩
  · rw [← Option.some.inj hs]
    exact ⟨rfl, rfl, fun hexited => ⟨hexited, rfl⟩⟩
  all_goals cases hbeside

/-- Nothing is left once nothing is pending. -/
theorem Flows.delivered {t t' : Terminal} (h : Flows t) (hopen : t.phase.Open)
    (hpending : t.pending = []) (hexited : t.exited.isSome = true)
    (hkept : t'.exited = t.exited) (hframes : t'.frames = t.frames)
    (hproduced : t'.produced = t.produced) : t'.Delivered := by
  refine ⟨?_, ?_⟩
  · rw [hkept]
    exact hexited
  · rw [hframes, hproduced, h.output, h.whole hopen, hpending]
    simp

/-- The loop waits only when nothing is pending. -/
theorem Flows.pending_nil (h : Flows t) (hwaiting : t.phase = .waiting) : t.pending = [] := by
  obtain ⟨hdone, hqueue⟩ := h.waiting hwaiting
  obtain ⟨hreading, hpty, -⟩ := h.readerDone hdone
  rw [Terminal.pending, hqueue, hreading, hpty]
  rfl

/-- What follows the loop adds no output. -/
theorem finish_keeps (t : Terminal) (reason : Reason) (delivered : Bool) :
    (t.finish reason delivered).exited = t.exited ∧
      (t.finish reason delivered).produced = t.produced ∧
      sentBytes (t.finish reason delivered).frames = sentBytes t.frames := by
  rcases reason with _ | _ | _ | _ | _ | _ | _ | _ | _ | _ | _ | _ | _ | _ | _ <;>
    rcases delivered with _ | _ <;> simp [Terminal.finish]

theorem finish_phase (t : Terminal) (reason : Reason) (delivered : Bool) :
    (t.finish reason delivered).phase = .closed reason := by
  rcases reason with _ | _ | _ | _ | _ | _ | _ | _ | _ | _ | _ | _ | _ | _ | _ <;>
    rcases delivered with _ | _ <;> rfl

/-- A step of the loop that meets the guard ends a session with `remote_exit` only when all
has been sent. -/
theorem step_delivered {l : Label} {t t' : Terminal} (hs : step l t = some t')
    (hdrained : Drained t l) (h : Flows t) (ih : t.RemoteExit → t.Delivered)
    (hexit : t'.RemoteExit) : t'.Delivered := by
  by_cases hbeside : l.ofLoop = false
  · obtain ⟨hphase, hframes, hkept⟩ := step_beside hs hbeside h.exited
    have hbefore : t.Delivered := by
      apply ih
      rw [Terminal.RemoteExit, ← hphase]
      exact hexit
    obtain ⟨hexited, hproduced⟩ := hkept hbefore.exited
    exact ⟨hexited, by rw [hframes, hproduced, hbefore.sent]⟩
  · rcases l with _ | _ | _ | _ | _ | _ | _ | _ | _ | ready | succeeds | delivered
    case turn =>
      simp only [step] at hs
      split at hs
      · rename_i hrunning
        obtain ⟨hgone, hexited, hframes, hproduced⟩ := turn_remoteExit hrunning hs hexit
        have hpending := hdrained hrunning hgone
        have hfound : t.exited.isSome = true := by
          simp only [Terminal.findsGone, Bool.and_eq_true] at hgone
          exact hgone.2
        exact h.delivered (.inl hrunning) hpending hfound hexited hframes hproduced
      · cases hs
    case waited =>
      simp only [step] at hs
      split at hs
      · rename_i hwaiting
        split at hs
        · split at hs
          · rename_i code hcode
            rw [← Option.some.inj hs]
            have hfound : t.exited.isSome = true := by rw [hcode]; rfl
            exact h.delivered (.inr hwaiting) (h.pending_nil hwaiting) hfound rfl rfl rfl
          · rw [← Option.some.inj hs] at hexit
            exact absurd hexit (not_remoteExit_stop t (by decide))
        · rw [← Option.some.inj hs] at hexit
          exact absurd hexit (not_remoteExit_stop t (by decide))
      · cases hs
    case finish =>
      simp only [step] at hs
      split at hs
      · rename_i reason hended
        rw [← Option.some.inj hs] at hexit ⊢
        rw [Terminal.RemoteExit, finish_phase] at hexit
        have hreason : reason = .remoteExit := by
          rcases hexit with hexit | hexit
          · cases hexit
          · exact Phase.closed.inj hexit
        have hbefore : t.Delivered := by
          apply ih
          left
          rw [hended, hreason]
        obtain ⟨hexited, hproduced, hsent⟩ := finish_keeps t reason delivered
        exact ⟨by rw [hexited, hbefore.exited], by rw [hsent, hproduced, hbefore.sent]⟩
      · cases hs
    all_goals exact absurd rfl hbeside

/-! ## The result -/

/-- **In every run in which no poll finds the process gone while output of it is left, the
browser has been sent a prefix of what the process has written, all of it when the session
ends with `remote_exit` and before any exit frame; and what was written to the PTY is a
prefix of the frames of the browser.** -/
theorem output_delivered {t : Terminal} (h : Reach step Drained (· = started) t) :
    sentBytes t.frames <+: t.produced ∧ t.written <+: t.received.flatten ∧
      (t.RemoteExit → t.Delivered) ∧
      ∀ before code after, t.frames = before ++ .exit code :: after →
        after = [] ∧ sentBytes before = t.produced := by
  have hflows := flows_of_reach h
  have hdelivered : t.RemoteExit → t.Delivered := by
    clear hflows
    induction h with
    | init hinit =>
        intro hexit
        rw [hinit] at hexit
        rcases hexit with hexit | hexit <;> cases hexit
    | step l hr hg hs ih => exact step_delivered hs hg (flows_of_reach hr) ih
  refine ⟨?_, ?_, hdelivered, ?_⟩
  · rw [hflows.output]
    exact List.prefix_append _ _
  · exact (List.prefix_append _ _).trans hflows.input
  · intro before code after hframes
    obtain ⟨rfl, hclosed⟩ := hflows.exitLast before code after hframes
    refine ⟨rfl, ?_⟩
    rw [← (hdelivered (.inr hclosed)).sent, hframes]
    simp

/-- A process that reads one byte, writes two and exits; the loop sees the end of the output. -/
def quietEnd : List Label :=
  [.turn { onlyOutput with message := some (.binary [120]) }, .takeInput, .writeInput 1,
    .write [104, 105], .exit 0, .read 2, .send, .readEnd, .turn onlyOutput, .turn onlyOutput,
    .waited true, .finish true]

theorem output_delivered_quietEnd :
    ∃ t : Terminal, t.frames = [.output [104, 105], .exit 0] ∧
      sentBytes [.output [104, 105]] = t.produced ∧ t.written <+: t.received.flatten := by
  have hrun : ((runIf step Drained quietEnd started).any fun t =>
      t.frames = [.output [104, 105], .exit 0]) = true := by decide +kernel
  obtain ⟨t, ht, hframes⟩ := (Option.any_eq_true _ _).mp hrun
  have hframes := of_decide_eq_true hframes
  obtain ⟨-, hwritten, -, hbefore⟩ :=
    output_delivered (reach_of_runIf quietEnd (.init rfl) ht)
  exact ⟨t, hframes, (hbefore [.output [104, 105]] 0 [] hframes).2, hwritten⟩

/-- A process that writes three bytes and exits; the poll finds it gone while they are in the
queue. -/
def earlyPoll : List Label :=
  [.write [98, 121, 101], .exit 0, .read 3, .send, .readEnd,
    .turn { onlyOutput with childPoll := some true }, .finish true]

/-- The output of a process that is found gone by the poll is lost. -/
theorem output_lost : ∃ t : Terminal, Reach step anyStep (· = started) t ∧
    ∃ before code after, t.frames = before ++ .exit code :: after ∧
      sentBytes before ≠ t.produced := by
  have hrun : ((run step earlyPoll started).any fun t =>
      t.frames = [.exit 0] ∧ t.produced = [98, 121, 101]) = true := by decide +kernel
  obtain ⟨t, ht, hends⟩ := (Option.any_eq_true _ _).mp hrun
  obtain ⟨hframes, hproduced⟩ := of_decide_eq_true hends
  refine ⟨t, reach_of_run earlyPoll rfl ht, [], 0, [], hframes, ?_⟩
  rw [hproduced]
  decide

end CtfZone.Terminals
