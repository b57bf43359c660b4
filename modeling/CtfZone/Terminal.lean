/-
# The bridge of a terminal session

A terminal session passes bytes between the PTY of an SSH client and a browser
(`bridge_terminal` in `terminal.rs`).  A thread reads the PTY and puts what it reads into a
queue, another one writes the PTY from a second queue, and a loop serves the queues, the
browser, the timers and the exit of the process, always the first of them that is ready.

* `Terminal` : the process, the two threads, the loop, and what has gone each way;
* `Ready`, `turn` : one turn of the loop;
* `finish` : what follows the loop;
* `step` : the interleavings.
-/
import CtfZone.Runs
import Mathlib.Algebra.Order.Ring.Int
import Mathlib.Data.List.Infix

namespace CtfZone.Terminals

/-- Bytes of the terminal. -/
abbrev Bytes := List UInt8

/-- `MAX_PTY_FRAME_BYTES`. -/
def maxPtyFrameBytes : ℕ := 16 * 1024

/-- `PTY_QUEUE_DEPTH`. -/
def ptyQueueDepth : ℕ := 64

/-- `saturating_add` of `u64`. -/
def saturatingAdd (a b : ℕ) : ℕ := min (a + b) (2 ^ 64 - 1)

/-! ## States -/

/-- Why a session ends. -/
inductive Reason
  | gatewayShutdown
  | sessionTimeout
  | idleTimeout
  | sessionRevoked
  | controlPlaneUnavailable
  | remoteExit
  | sshWaitFailed
  | inputTooLarge
  | inputBackpressure
  | sshInputClosed
  | resizeFailed
  | invalidControl
  | browserDisconnected
  | sshOutputClosed
  | slowBrowser
  deriving DecidableEq

/-- What is sent to the browser. -/
inductive Frame
  | output (bytes : Bytes)
  | exit (code : ℕ)
  | error (reason : Reason)
  deriving DecidableEq

/-- Where the loop is. -/
inductive Phase
  | running
  /-- In `wait_for_terminal_exit`. -/
  | waiting
  | ended (reason : Reason)
  | closed (reason : Reason)
  deriving DecidableEq

/-- A session. -/
structure Terminal where
  /-- All that the process has written. -/
  produced : Bytes
  /-- What nobody has read of it. -/
  pty : Bytes
  /-- The process has closed the PTY. -/
  hungUp : Bool
  exited : Option ℕ
  /-- The chunk that the reading thread is about to send. -/
  reading : Option Bytes
  readerDone : Bool
  outputQueue : List Bytes
  /-- The chunk that was not taken by the browser. -/
  dropped : Bytes
  /-- The frames that the browser was sent. -/
  frames : List Frame
  /-- The binary frames of the browser. -/
  received : List Bytes
  inputQueue : List Bytes
  /-- What the writing thread has not written of its frame. -/
  writing : Bytes
  writerDone : Bool
  written : Bytes
  missedHeartbeats : ℕ
  bytesFromBrowser : ℕ
  bytesToBrowser : ℕ
  exitCode : Option ℕ
  phase : Phase
  deriving DecidableEq

/-- A session that starts. -/
def started : Terminal where
  produced := []
  pty := []
  hungUp := false
  exited := none
  reading := none
  readerDone := false
  outputQueue := []
  dropped := []
  frames := []
  received := []
  inputQueue := []
  writing := []
  writerDone := false
  written := []
  missedHeartbeats := 0
  bytesFromBrowser := 0
  bytesToBrowser := 0
  exitCode := none
  phase := .running

/-! ## A turn of the loop -/

/-- The answer to a heartbeat. -/
inductive Heartbeat
  | alive
  | revoked
  | failed
  deriving DecidableEq

/-- A message of the browser. -/
inductive Message
  | binary (value : Bytes)
  /-- A control frame, with the size it asks for and whether the PTY takes it. -/
  | text (size : Option (ℕ × ℕ)) (resized : Bool)
  | ping
  /-- `Close`, an error, or the end of the stream. -/
  | close
  deriving DecidableEq

/-- What a `send` to the browser comes to: a frame that is not acknowledged in time may have
been delivered. -/
inductive Sent
  | ok
  | failed (delivered : Bool)
  deriving DecidableEq

/-- What is ready when a turn begins; `childPoll` tells whether `try_wait` succeeds. -/
structure Ready where
  shutdown : Bool
  absolute : Bool
  idle : Bool
  heartbeat : Option Heartbeat
  childPoll : Option Bool
  message : Option Message
  sent : Sent
  deriving DecidableEq

/-- Nothing is ready but output. -/
def onlyOutput : Ready := ⟨false, false, false, none, none, none, .ok⟩

/-- `valid_dimensions`. -/
def validDimensions (cols rows : ℕ) : Bool :=
  20 ≤ cols && cols ≤ 500 && 5 ≤ rows && rows ≤ 200

namespace Terminal

/-- The loop ends. -/
def stop (t : Terminal) (reason : Reason) : Terminal := { t with phase := .ended reason }

/-- The heartbeat. -/
def beat (t : Terminal) : Heartbeat → Terminal
  | .alive => { t with missedHeartbeats := 0 }
  | .revoked => t.stop .sessionRevoked
  | .failed =>
    let missed := min (t.missedHeartbeats + 1) 255
    let t := { t with missedHeartbeats := missed }
    if 2 ≤ missed then t.stop .controlPlaneUnavailable else t

/-- The poll of the process. -/
def poll (t : Terminal) (succeeds : Bool) : Terminal :=
  if succeeds then
    match t.exited with
    | some code => { t with exitCode := some (min code (2 ^ 31 - 1)) }.stop .remoteExit
    | none => t
  else t.stop .sshWaitFailed

/-- A message of the browser. -/
def receive (t : Terminal) : Message → Terminal
  | .binary value =>
    let t := { t with received := t.received ++ [value] }
    if maxPtyFrameBytes < value.length then t.stop .inputTooLarge
    else
      let t := { t with bytesFromBrowser := saturatingAdd t.bytesFromBrowser value.length }
      if t.writerDone then t.stop .sshInputClosed
      else if ptyQueueDepth ≤ t.inputQueue.length then t.stop .inputBackpressure
      else { t with inputQueue := t.inputQueue ++ [value] }
  | .text (some (cols, rows)) resized =>
    if validDimensions cols rows then if resized then t else t.stop .resizeFailed
    else t.stop .invalidControl
  | .text none _ => t.stop .invalidControl
  | .ping => t
  | .close => t.stop .browserDisconnected

/-- A chunk of the queue goes to the browser. -/
def forward (t : Terminal) (chunk : Bytes) (rest : List Bytes) (sent : Sent) : Terminal :=
  let t := { t with
    outputQueue := rest, bytesToBrowser := saturatingAdd t.bytesToBrowser chunk.length }
  match sent with
  | .ok => { t with frames := t.frames ++ [Frame.output chunk] }
  | .failed true => { t with frames := t.frames ++ [Frame.output chunk] }.stop .slowBrowser
  | .failed false => { t with dropped := chunk }.stop .slowBrowser

/-- One turn of the loop, `tokio::select!` with `biased`. -/
def turn (t : Terminal) (ready : Ready) : Option Terminal :=
  if ready.shutdown then some (t.stop .gatewayShutdown)
  else if ready.absolute then some (t.stop .sessionTimeout)
  else if ready.idle then some (t.stop .idleTimeout)
  else
    match ready.heartbeat, ready.childPoll, ready.message, t.outputQueue with
    | some heartbeat, _, _, _ => some (t.beat heartbeat)
    | none, some succeeds, _, _ => some (t.poll succeeds)
    | none, none, some message, _ => some (t.receive message)
    | none, none, none, chunk :: rest => some (t.forward chunk rest ready.sent)
    | none, none, none, [] => if t.readerDone then some { t with phase := .waiting } else none

/-- What follows the loop; the process is killed unless it has exited, and the last frame may
be lost. -/
def finish (t : Terminal) (reason : Reason) (delivered : Bool) : Terminal :=
  let t := { t with phase := .closed reason }
  match reason with
  | .remoteExit =>
    if delivered then { t with frames := t.frames ++ [Frame.exit (t.exitCode.getD 1)] } else t
  | .browserDisconnected => { t with hungUp := true }
  | reason =>
    let t := { t with hungUp := true }
    if delivered then { t with frames := t.frames ++ [Frame.error reason] } else t

end Terminal

/-! ## Interleavings -/

/-- A step of the process, of a thread or of the loop. -/
inductive Label
  /-- The process writes to its PTY. -/
  | write (bytes : Bytes)
  /-- The process closes its PTY. -/
  | hangUp
  | exit (code : ℕ)
  /-- `read` returns some bytes. -/
  | read (count : ℕ)
  /-- `blocking_send` returns. -/
  | send
  /-- `read` returns nothing, or `EIO`. -/
  | readEnd
  | takeInput
  /-- `write_all` writes some bytes. -/
  | writeInput (count : ℕ)
  | writeFail
  | turn (ready : Ready)
  /-- `wait_for_terminal_exit` returns; it may fail. -/
  | waited (succeeds : Bool)
  | finish (delivered : Bool)
  deriving DecidableEq

/-- One step of a session. -/
def step : Label → Terminal → Option Terminal
  | .write bytes, t =>
    if t.hungUp then none
    else some { t with produced := t.produced ++ bytes, pty := t.pty ++ bytes }
  | .hangUp, t => some { t with hungUp := true }
  | .exit code, t =>
    if t.exited.isSome then none else some { t with exited := some code, hungUp := true }
  | .read count, t =>
    if t.reading.isSome || t.readerDone || count = 0 || maxPtyFrameBytes < count ||
        t.pty.length < count then none
    else some { t with reading := some (t.pty.take count), pty := t.pty.drop count }
  | .send, t =>
    match t.reading with
    | some chunk =>
      if t.outputQueue.length < ptyQueueDepth then
        some { t with reading := none, outputQueue := t.outputQueue ++ [chunk] }
      else none
    | none => none
  | .readEnd, t =>
    if t.reading.isNone && t.pty.isEmpty && t.hungUp then some { t with readerDone := true }
    else none
  | .takeInput, t =>
    match t.inputQueue with
    | value :: rest =>
      if t.writing.isEmpty && ! t.writerDone then
        some { t with writing := value, inputQueue := rest }
      else none
    | [] => none
  | .writeInput count, t =>
    if t.writerDone then none
    else some { t with
      written := t.written ++ t.writing.take count, writing := t.writing.drop count }
  | .writeFail, t => some { t with writerDone := true }
  | .turn ready, t => if t.phase = .running then t.turn ready else none
  | .waited succeeds, t =>
    if t.phase = .waiting then
      if succeeds then
        match t.exited with
        | some code => some ({ t with exitCode := some (min code (2 ^ 31 - 1)) }.stop .remoteExit)
        | none => some (t.stop .sshOutputClosed)
      else some (t.stop .sshWaitFailed)
    else none
  | .finish delivered, t =>
    match t.phase with
    | .ended reason => some (t.finish reason delivered)
    | _ => none

/-- The output that a frame carries. -/
def Frame.bytes : Frame → Bytes
  | .output bytes => bytes
  | _ => []

/-- The bytes that the browser was sent. -/
def sentBytes (frames : List Frame) : Bytes := frames.flatMap Frame.bytes

end CtfZone.Terminals
