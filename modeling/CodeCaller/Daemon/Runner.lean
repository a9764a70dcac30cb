import CodeCaller.Events

/-!
# `runner`

`TaskRunner`: one child process for one task.  A method changes the fields of its runner and does
something to the outside, in order: it hands messages to the client, leaves the map of the client,
writes to its child or signals it.  What it does is returned as a list of `RunnerEffect`s, for the
client to carry out.

The child itself is not under the control of the code: its output, its end and the state of its
pipes arrive as `ChildEvent`s in any order the process and Node.js can produce.

### Main definitions

* `SpawnOutcome`: what `spawn` comes to.  Besides a process and an exception there are children
  that never had a process, which say so by an `'error'` event later, and children without streams,
  for which `child.stdin.end()` throws outside of the `try`.
* `start`, `onData`, `resume`, `kill`, `decide`, `onClose`, `finishFailed`: the methods.
* `onChildEvent`: the listeners `start` has set.
* `Reaction`: what a method leaves of its runner, and what it did.

### Detectors

`Detectors` holds the two functions that read the output of a child.  They are parameters here, so
that what is proved about runners holds for any: `Daemon.Detector` and `Daemon.Failures` model
those of the repository.
-/

namespace CodeCaller

open Async

/-- The text of a category in a message. -/
def FailureCategory.text : FailureCategory → JsString
  | .CAPACITY_EXHAUSTED => js "CAPACITY_EXHAUSTED"
  | .PROCESS_ERROR => js "PROCESS_ERROR"
  | .UNKNOWN => js "UNKNOWN"

/-- **What the daemon takes from its detectors**: the reason of a confirmation
prompt in some output, and the structured failure of an exit. -/
structure Detectors where
  detect : JsString → Option JsString
  detectStructuredFailure : Option ℤ → Option JsString → JsString →
    Option DaemonTaskFailurePayload

/-! ## The child -/

/-- **A `ChildProcess`.**  `exitCode` stays `null` while the process runs and when
a signal ended it, so it does not tell whether the process is `live`. -/
structure Child where
  exitCode : Option ℤ
  stdinDestroyed : Bool
  live : Bool
  closed : Bool
deriving DecidableEq

/-- What `spawn` comes to: a process, a child that never had one (an `'error'`
follows), one without streams either (at a limit on processes or files, where
`child.stdin.end()` throws), an exception, or no command line to spawn at all. -/
inductive SpawnOutcome where
  | process
  | noProcess
  | noStreams
  | threw (message : JsString)
  | noPlan

/-- What happens to a child. -/
inductive ChildEvent where
  /-- Output on `stdout` or `stderr`. -/
  | data (chunk : JsString)
  | error (message : JsString)
  /-- The process is gone; there is no exit code if a signal ended it. -/
  | exit (code : Option ℤ)
  | close (code : Option ℤ) (signal : Option JsString)
  | stdinDestroyed

/-- `'close'` comes last, after the process is gone. -/
def ChildEvent.possible (child : Child) : ChildEvent → Bool
  | close _ _ => !child.closed && !child.live
  | exit _ => !child.closed && child.exitCode.isNone
  | data _ | error _ | stdinDestroyed => !child.closed

/-! ## The runner -/

/-- **A runner**: one task, its child, and what was seen of it. `lastChunk` is the last output,
`tail` the end of all output for the failure detector, and `exitHandled` guards the result: it is
set by whoever reports first. The configuration and the client of the source are not fields here:
methods get what they need of them, and return what they emit. -/
structure TaskRunner where
  taskId : TaskId
  input : Json
  child : Option Child
  awaitingApproval : Bool
  killedByHub : Bool
  lastChunk : JsString
  tail : JsString
  exitHandled : Bool

/-- What a runner does besides changing its fields. -/
inductive RunnerEffect where
  /-- `this.client.emit`. -/
  | emit (inbound : DaemonInbound)
  /-- `this.client.dropTask(this.taskId)`. -/
  | dropTask
  /-- `this.child.stdin.write(input)`. -/
  | write (input : JsString)
  /-- `this.child.kill('SIGTERM')`. -/
  | terminate

/-- What a method leaves of its runner, and what it did. -/
abbrev Reaction := TaskRunner × List RunnerEffect

namespace TaskRunner

/-- What a prompt is answered with. -/
def RESUME_INPUT : JsString := js "y\n"

/-- The units of output a runner keeps. -/
def TAIL_LIMIT : ℕ := 8192

/-- `new TaskRunner(taskId, input, ...)`. -/
def create (taskId : TaskId) (input : Json) : TaskRunner :=
  { taskId, input, child := none, awaitingApproval := false, killedByHub := false,
    lastChunk := [], tail := [], exitHandled := false }

/-! ## Results -/

/-- `null` or a number. -/
def codeJson : Option ℤ → Json
  | none => .null
  | some code => .number (js (toString code))

/-- `null` or a string; an empty one counts as missing. -/
def textJson : Option JsString → Json
  | none => .null
  | some text => if text.isEmpty then .null else .string text

/-- `...(failure ? { failure } : {})`; members that are `undefined` are left
out. -/
def failureMembers : Option DaemonTaskFailurePayload → List (JsString × Json)
  | none => []
  | some failure =>
    [(js "failure", .object ((js "category", .string (FailureCategory.text failure.category)) ::
      ((failure.retryable.map fun value => (js "retryable", Json.bool value)).toList ++
        (failure.message.map fun text => (js "message", Json.string text)).toList ++
        (failure.detail.map fun text => (js "detail", Json.string text)).toList)))]

/-- The `task:result` of a runner. -/
def resultOf (taskId : TaskId) (status : TaskStatus) (failure : Option DaemonTaskFailurePayload)
    (members : List (JsString × Json)) : DaemonInbound :=
  .TASK_RESULT
    { taskId := .id taskId, status := .status status, failure,
      result := some (.object (members ++ failureMembers failure)) }

/-! ## Methods -/

variable (detectors : Detectors)

/-- A run that ends without the code of a child; it says so once, as `exitHandled` is shared with
`onClose`. -/
def finishFailed (reason : JsString) (runner : TaskRunner) : Reaction :=
  if runner.exitHandled then (runner, [])
  else
    let failure := detectors.detectStructuredFailure none none reason
    ({ runner with exitHandled := true },
      [.emit (resultOf runner.taskId .FAILED failure [(js "error", .string reason)]), .dropTask])

/-- `start`, by what `spawn` comes to.  `stdin.end()` does not destroy the
stream yet.  A child without streams gets no listeners. -/
def start (outcome : SpawnOutcome) (runner : TaskRunner) : Reaction :=
  let running : RunnerEffect :=
    .emit (.TASK_STATUS_UPDATE ⟨.id runner.taskId, .status .RUNNING⟩)
  match outcome with
  | .process => ({ runner with child := some ⟨none, false, true, false⟩ }, [running])
  | .noProcess => ({ runner with child := some ⟨none, false, false, false⟩ }, [running])
  | .noStreams => ({ runner with child := some ⟨none, true, false, true⟩ }, [])
  | .threw message => finishFailed detectors (js "spawn failed: " ++ message) runner
  | .noPlan => (runner, [])

/-- The output is passed on, kept in the tail, and looked at for a prompt. -/
def onData (chunk : JsString) (runner : TaskRunner) : Reaction :=
  let tail := JsString.sliceBack (runner.tail ++ chunk) TAIL_LIMIT
  let log : RunnerEffect := .emit (.TASK_LOG ⟨.id runner.taskId, chunk⟩)
  let runner := { runner with lastChunk := chunk, tail }
  if runner.awaitingApproval then (runner, [log])
  else
    match detectors.detect tail with
    | none => (runner, [log])
    | some reason =>
      ({ runner with awaitingApproval := true },
        [log, .emit (.APPROVAL_REQUEST ⟨.id runner.taskId, some reason⟩)])

/-- The tail is emptied, so that the prompt that was answered is not found again. -/
def resume (runner : TaskRunner) : Reaction :=
  let resumed := { runner with awaitingApproval := false, tail := [] }
  match runner.child with
  | none => (resumed, [])
  | some child =>
    if child.exitCode.isSome || child.stdinDestroyed then (resumed, [])
    else (resumed, [.write RESUME_INPUT])

/-- The child is signalled, unless it has left already; its end is not reported. -/
def kill (runner : TaskRunner) : Reaction :=
  let killed := { runner with killedByHub := true }
  match runner.child with
  | none => (killed, [])
  | some child => if child.exitCode.isSome then (killed, []) else (killed, [.terminate])

/-- An approval resumes a runner that waits, a rejection kills one. -/
def decide (approved : Bool) (runner : TaskRunner) : Reaction :=
  if approved then
    if runner.awaitingApproval then runner.resume else (runner, [])
  else runner.kill

/-- The end of the child: completed with the code 0 and no signal, failed otherwise, silent after a
kill. -/
def onClose (code : Option ℤ) (signal : Option JsString) (runner : TaskRunner) : Reaction :=
  if runner.exitHandled then (runner, [])
  else
    let closed := { runner with exitHandled := true }
    if runner.killedByHub then (closed, [.dropTask])
    else
      let signalled := signal.any fun name => !name.isEmpty
      let failure := detectors.detectStructuredFailure code signal
        (if runner.tail.isEmpty then runner.lastChunk else runner.tail)
      (closed,
        [.emit (resultOf runner.taskId
          (if code = some 0 ∧ signalled = false then .COMPLETED else .FAILED) failure
          [(js "exitCode", codeJson code), (js "signal", textJson signal),
            (js "lastChunk", .string runner.lastChunk)]),
          .dropTask])

/-- A change of the child alone. -/
def withChild (f : Child → Child) (runner : TaskRunner) : TaskRunner :=
  { runner with child := runner.child.map f }

/-- The listeners of the child. -/
def onChildEvent (runner : TaskRunner) : ChildEvent → Reaction
  | .data chunk => runner.onData detectors chunk
  | .error message => runner.finishFailed detectors (js "child process error: " ++ message)
  | .exit code =>
    (runner.withChild fun child => { child with exitCode := code, live := false }, [])
  | .close code signal =>
    (runner.withChild fun child => { child with closed := true }).onClose detectors code signal
  | .stdinDestroyed => (runner.withChild fun child => { child with stdinDestroyed := true }, [])

/-! ## What a method can do -/

variable {detectors} {runner : TaskRunner}

/-- A child that was never there fails like any other. -/
theorem start_threw (message : JsString) : runner.start detectors (.threw message) =
    runner.finishFailed detectors (js "spawn failed: " ++ message) := by
  unfold start
  rfl

/-- An 'error' event ends the run, with the message of the event as reason. -/
theorem onChildEvent_error (message : JsString) : runner.onChildEvent detectors (.error message) =
    runner.finishFailed detectors (js "child process error: " ++ message) := by
  unfold onChildEvent
  rfl

/-- **How a runner waits for approval.**  It comes to wait by a request only; it
writes to its child only when it stops waiting, and does nothing else then. -/
structure Orderly (runner : TaskRunner) (reaction : Reaction) : Prop where
  taskId : reaction.1.taskId = runner.taskId
  waits : reaction.1.awaitingApproval = true → (∀ input, .write input ∉ reaction.2) ∧
    (runner.awaitingApproval = true ∨
      ∃ payload, .emit (.APPROVAL_REQUEST payload) ∈ reaction.2)
  writes : ∀ input, .write input ∈ reaction.2 →
    runner.awaitingApproval = true ∧ reaction.2 = [.write input]
  requests : ∀ payload, .emit (.APPROVAL_REQUEST payload) ∈ reaction.2 →
    payload.taskId = .id runner.taskId

/-- A method that neither waits nor writes nor requests. -/
theorem Orderly.of_quiet {reaction : Reaction} (htask : reaction.1.taskId = runner.taskId)
    (hwaits : reaction.1.awaitingApproval = runner.awaitingApproval)
    (hwrites : ∀ input, .write input ∉ reaction.2)
    (hrequests : ∀ payload, .emit (.APPROVAL_REQUEST payload) ∉ reaction.2) :
    runner.Orderly reaction where
  taskId := htask
  waits h := ⟨hwrites, .inl (hwaits ▸ h)⟩
  writes input h := absurd h (hwrites input)
  requests payload h := absurd h (hrequests payload)

/-- A failure asks for nothing and answers nothing. -/
theorem finishFailed_orderly (reason : JsString) :
    runner.Orderly (runner.finishFailed detectors reason) := by
  unfold finishFailed
  split
  · exact .of_quiet rfl rfl (fun _ => List.not_mem_nil) fun _ => List.not_mem_nil
  · exact .of_quiet rfl rfl (by simp) (by simp [resultOf])

/-- Nor does a start: the child has not spoken yet. -/
theorem start_orderly (outcome : SpawnOutcome) :
    runner.Orderly (runner.start detectors outcome) := by
  cases outcome with
  | process => exact .of_quiet rfl rfl (by simp [start]) (by simp [start])
  | noProcess => exact .of_quiet rfl rfl (by simp [start]) (by simp [start])
  | noStreams => exact .of_quiet rfl rfl (fun _ => List.not_mem_nil) fun _ => List.not_mem_nil
  | threw message =>
      rw [start_threw]
      exact finishFailed_orderly _
  | noPlan => exact .of_quiet rfl rfl (fun _ => List.not_mem_nil) fun _ => List.not_mem_nil

/-- Output may lead to a request, and from then on the runner waits. -/
theorem onData_orderly (chunk : JsString) : runner.Orderly (runner.onData detectors chunk) := by
  unfold onData
  dsimp only
  split
  · exact .of_quiet rfl rfl (by simp) (by simp)
  · split
    · exact .of_quiet rfl rfl (by simp) (by simp)
    · exact
        { taskId := rfl
          waits := fun _ => ⟨by simp, .inr ⟨_, List.mem_cons_of_mem _ List.mem_cons_self⟩⟩
          writes := by simp
          requests := by simp }

/-- A kill leaves the waiting as it is. -/
theorem kill_orderly : runner.Orderly runner.kill := by
  unfold kill
  split
  · exact .of_quiet rfl rfl (fun _ => List.not_mem_nil) fun _ => List.not_mem_nil
  · split
    · exact .of_quiet rfl rfl (fun _ => List.not_mem_nil) fun _ => List.not_mem_nil
    · exact .of_quiet rfl rfl (by simp) (by simp)

/-- The input is written where it can be, and the runner no longer waits. -/
theorem resume_orderly (hwaiting : runner.awaitingApproval = true) :
    runner.Orderly runner.resume := by
  have hidle : runner.Orderly ({ runner with awaitingApproval := false, tail := [] }, []) :=
    { taskId := rfl, waits := nofun, writes := nofun, requests := nofun }
  unfold resume
  split
  · exact hidle
  · split
    · exact hidle
    · exact
        { taskId := rfl
          waits := nofun
          writes := fun input hmem => by
            rw [List.mem_singleton] at hmem
            exact ⟨hwaiting, by rw [hmem]⟩
          requests := by simp }

/-- Either a kill, or a resume of a runner that waits. -/
theorem decide_orderly (approved : Bool) : runner.Orderly (runner.decide approved) := by
  unfold decide
  split
  · split
    · next hwaiting => exact resume_orderly hwaiting
    · exact .of_quiet rfl rfl (fun _ => List.not_mem_nil) fun _ => List.not_mem_nil
  · exact kill_orderly

/-- A close answers nothing: the child is gone. -/
theorem onClose_orderly (code : Option ℤ) (signal : Option JsString) :
    runner.Orderly (runner.onClose detectors code signal) := by
  unfold onClose
  split
  · exact .of_quiet rfl rfl (fun _ => List.not_mem_nil) fun _ => List.not_mem_nil
  · dsimp only
    split
    · exact .of_quiet rfl rfl (by simp) (by simp)
    · exact .of_quiet rfl rfl (by simp) (by simp [resultOf])

/-- Every event of the child, by its kind. -/
theorem onChildEvent_orderly (event : ChildEvent) :
    runner.Orderly (runner.onChildEvent detectors event) := by
  cases event with
  | data chunk => exact onData_orderly chunk
  | error message =>
      rw [onChildEvent_error]
      exact finishFailed_orderly _
  | exit code => exact .of_quiet rfl rfl (fun _ => List.not_mem_nil) fun _ => List.not_mem_nil
  | close code signal =>
      have hclose := @onClose_orderly detectors
        (runner.withChild fun child => { child with closed := true }) code signal
      exact ⟨hclose.taskId, hclose.waits, hclose.writes, hclose.requests⟩
  | stdinDestroyed => exact .of_quiet rfl rfl (fun _ => List.not_mem_nil) fun _ => List.not_mem_nil

/-- Only an approval writes to the child. -/
theorem onChildEvent_write (event : ChildEvent) (input : JsString) :
    .write input ∉ (runner.onChildEvent detectors event).2 := by
  cases event with
  | data chunk =>
      unfold onChildEvent onData
      dsimp only
      split
      · simp
      · split <;> simp
  | error message =>
      unfold onChildEvent finishFailed
      dsimp only
      split <;> simp
  | exit code => exact nofun
  | close code signal =>
      unfold onChildEvent onClose
      dsimp only
      split
      · simp
      · split <;> simp
  | stdinDestroyed => exact nofun

/-- A start writes nothing to the child. -/
theorem start_write (outcome : SpawnOutcome) (input : JsString) :
    .write input ∉ (runner.start detectors outcome).2 := by
  cases outcome with
  | process => simp [start]
  | noProcess => simp [start]
  | noStreams => exact nofun
  | threw message =>
      unfold start finishFailed
      dsimp only
      split <;> simp
  | noPlan => exact nofun

/-- A kill signals the child and writes nothing to it. -/
theorem kill_write (input : JsString) : .write input ∉ runner.kill.2 := by
  unfold kill
  split
  · exact nofun
  · split <;> simp

/-! ## How a runner ends -/

/-- **A method handles the exit**: once, by leaving the map, with one result or, for
a runner that was killed, none. -/
structure Exits (runner : TaskRunner) (reaction : Reaction) : Prop where
  before : runner.exitHandled = false
  after : reaction.1.exitHandled = true
  effects : reaction.2 = [.dropTask] ∨
    ∃ payload, reaction.2 = [.emit (.TASK_RESULT payload), .dropTask]

/-- A method leaves the exit alone: the runner stays in the map, without a
result. -/
structure Stays (runner : TaskRunner) (reaction : Reaction) : Prop where
  handled : reaction.1.exitHandled = runner.exitHandled
  dropTask : .dropTask ∉ reaction.2
  results : ∀ payload, .emit (.TASK_RESULT payload) ∉ reaction.2

/-- A failure is reported once: the flag is read first, and then set. -/
theorem finishFailed_exit (reason : JsString) :
    runner.Exits (runner.finishFailed detectors reason) ∨
      runner.Stays (runner.finishFailed detectors reason) := by
  unfold finishFailed
  split
  · exact .inr ⟨rfl, List.not_mem_nil, fun _ => List.not_mem_nil⟩
  · next hopen => exact .inl ⟨Bool.not_eq_true _ ▸ hopen, rfl, .inr ⟨_, rfl⟩⟩

/-- A start that throws is reported as a failure; any other start leaves the exit alone. -/
theorem start_exit (outcome : SpawnOutcome) :
    runner.Exits (runner.start detectors outcome) ∨
      runner.Stays (runner.start detectors outcome) := by
  cases outcome with
  | process => exact .inr ⟨rfl, by simp [start], by simp [start]⟩
  | noProcess => exact .inr ⟨rfl, by simp [start], by simp [start]⟩
  | noStreams => exact .inr ⟨rfl, List.not_mem_nil, fun _ => List.not_mem_nil⟩
  | threw message =>
      rw [start_threw]
      exact finishFailed_exit _
  | noPlan => exact .inr ⟨rfl, List.not_mem_nil, fun _ => List.not_mem_nil⟩

/-- Output never ends a run. -/
theorem onData_stays (chunk : JsString) : runner.Stays (runner.onData detectors chunk) := by
  unfold onData
  dsimp only
  split
  · exact ⟨rfl, by simp, by simp⟩
  · split
    · exact ⟨rfl, by simp, by simp⟩
    · exact ⟨rfl, by simp, by simp⟩

/-- A kill does not end a run: the runner waits for the close of its child. -/
theorem kill_stays : runner.Stays runner.kill := by
  unfold kill
  split
  · exact ⟨rfl, List.not_mem_nil, fun _ => List.not_mem_nil⟩
  · split
    · exact ⟨rfl, List.not_mem_nil, fun _ => List.not_mem_nil⟩
    · exact ⟨rfl, by simp, by simp⟩

/-- Nor does an approval. -/
theorem resume_stays : runner.Stays runner.resume := by
  unfold resume
  split
  · exact ⟨rfl, List.not_mem_nil, fun _ => List.not_mem_nil⟩
  · split
    · exact ⟨rfl, List.not_mem_nil, fun _ => List.not_mem_nil⟩
    · exact ⟨rfl, by simp, by simp⟩

/-- So a decision of the owner never reports a result by itself. -/
theorem decide_stays (approved : Bool) : runner.Stays (runner.decide approved) := by
  unfold decide
  split
  · split
    · exact resume_stays
    · exact ⟨rfl, List.not_mem_nil, fun _ => List.not_mem_nil⟩
  · exact kill_stays

/-- A close ends the run, with a result or, after a kill by the Hub, without one. -/
theorem onClose_exit (code : Option ℤ) (signal : Option JsString) :
    runner.Exits (runner.onClose detectors code signal) ∨
      runner.Stays (runner.onClose detectors code signal) := by
  unfold onClose
  split
  · exact .inr ⟨rfl, List.not_mem_nil, fun _ => List.not_mem_nil⟩
  · next hopen =>
    dsimp only
    split
    · exact .inl ⟨Bool.not_eq_true _ ▸ hopen, rfl, .inl rfl⟩
    · exact .inl ⟨Bool.not_eq_true _ ▸ hopen, rfl, .inr ⟨_, rfl⟩⟩

/-- Of the events of a child only an error and a close can end the run. -/
theorem onChildEvent_exit (event : ChildEvent) :
    runner.Exits (runner.onChildEvent detectors event) ∨
      runner.Stays (runner.onChildEvent detectors event) := by
  cases event with
  | data chunk => exact .inr (onData_stays chunk)
  | error message =>
      rw [onChildEvent_error]
      exact finishFailed_exit _
  | exit code => exact .inr ⟨rfl, List.not_mem_nil, fun _ => List.not_mem_nil⟩
  | close code signal =>
      have hclose := @onClose_exit detectors
        (runner.withChild fun child => { child with closed := true }) code signal
      exact hclose.imp (fun h => ⟨h.before, h.after, h.effects⟩)
        fun h => ⟨h.handled, h.dropTask, h.results⟩
  | stdinDestroyed => exact .inr ⟨rfl, List.not_mem_nil, fun _ => List.not_mem_nil⟩

/-! ## Who kills a runner -/

/-- The mark that makes the close silent. -/
theorem kill_killed : runner.kill.1.killedByHub = true := by
  unfold kill
  split
  · rfl
  · split <;> rfl

/-- A failure is no kill by the Hub. -/
theorem finishFailed_killed (reason : JsString) :
    (runner.finishFailed detectors reason).1.killedByHub = runner.killedByHub := by
  unfold finishFailed
  split <;> rfl

/-- Nor is a start, -/
theorem start_killed (outcome : SpawnOutcome) :
    (runner.start detectors outcome).1.killedByHub = runner.killedByHub := by
  cases outcome with
  | process => rfl
  | noProcess => rfl
  | noStreams => rfl
  | threw message =>
      rw [start_threw]
      exact finishFailed_killed _
  | noPlan => rfl

/-- nor an approval, -/
theorem approve_killed : (runner.decide true).1.killedByHub = runner.killedByHub := by
  unfold decide resume
  simp only [if_true]
  split
  · split
    · rfl
    · split <;> rfl
  · rfl

/-- nor anything a child does: only `kill` sets the mark. -/
theorem onChildEvent_killed (event : ChildEvent) :
    (runner.onChildEvent detectors event).1.killedByHub = runner.killedByHub := by
  cases event with
  | data chunk =>
      unfold onChildEvent onData
      dsimp only
      split
      · rfl
      · split <;> rfl
  | error message =>
      rw [onChildEvent_error]
      exact finishFailed_killed _
  | exit code => rfl
  | close code signal =>
      unfold onChildEvent onClose
      dsimp only
      split
      · rfl
      · split <;> rfl
  | stdinDestroyed => rfl

/-- Whether an approval makes the runner write to its child: it waits, and the child
can be written to. -/
def answers (runner : TaskRunner) : Bool :=
  runner.awaitingApproval &&
    runner.child.any fun child => child.exitCode.isNone && !child.stdinDestroyed

/-- Whether a method reports a result or writes to the child. -/
def Speaks (reaction : Reaction) : Prop :=
  (∃ payload, .emit (.TASK_RESULT payload) ∈ reaction.2) ∨ ∃ input, .write input ∈ reaction.2

/-- Who leaves the exit alone and writes nothing to the child does not speak. -/
theorem Stays.silent {reaction : Reaction} (hstays : runner.Stays reaction)
    (hwrites : ∀ input, .write input ∉ reaction.2) : ¬Speaks reaction := by
  rintro (⟨payload, hmem⟩ | ⟨input, hmem⟩)
  · exact hstays.results payload hmem
  · exact hwrites input hmem

/-- Of the events of its child only an `'error'` makes a killed runner speak, while its
exit is open. -/
theorem killed_speaks (hkilled : runner.killedByHub = true) (event : ChildEvent) :
    Speaks (runner.onChildEvent detectors event) ↔
      (∃ message, event = .error message) ∧ runner.exitHandled = false := by
  have hwrites := @onChildEvent_write detectors runner event
  cases event with
  | data chunk =>
      exact ⟨fun h => absurd h ((onData_stays chunk).silent hwrites),
        fun ⟨⟨_, h⟩, _⟩ => nomatch h⟩
  | error message =>
      rw [onChildEvent_error]
      unfold finishFailed
      cases hhandled : runner.exitHandled with
      | true => simp [Speaks]
      | false =>
          simp only [Bool.false_eq_true, if_false, and_true]
          exact ⟨fun _ => ⟨message, rfl⟩, fun _ => .inl ⟨_, List.mem_cons_self⟩⟩
  | exit code => exact ⟨fun h => by simp [Speaks, onChildEvent] at h, fun ⟨⟨_, h⟩, _⟩ => nomatch h⟩
  | close code signal =>
      refine ⟨fun h => ?_, fun ⟨⟨_, h⟩, _⟩ => nomatch h⟩
      unfold onChildEvent onClose at h
      dsimp only at h
      split at h
      · simp [Speaks] at h
      · split at h
        · simp [Speaks] at h
        · next hnot => exact absurd hkilled hnot
  | stdinDestroyed =>
      exact ⟨fun h => by simp [Speaks, onChildEvent] at h, fun ⟨⟨_, h⟩, _⟩ => nomatch h⟩

/-- An approval writes the answer if the child waits for it, and does nothing otherwise. -/
theorem approve_effects :
    (runner.decide true).2 = if runner.answers then [.write RESUME_INPUT] else [] := by
  unfold decide resume answers
  simp only [if_true]
  cases runner.awaitingApproval with
  | false => rfl
  | true =>
      cases runner.child with
      | none => rfl
      | some child =>
          cases hcode : child.exitCode <;> cases hstdin : child.stdinDestroyed <;>
            simp [hcode, hstdin]

/-- So it speaks exactly if it answers. -/
theorem approve_speaks : Speaks (runner.decide true) ↔ runner.answers = true := by
  unfold Speaks
  rw [approve_effects]
  cases runner.answers <;> simp

end TaskRunner

end CodeCaller
