import CodeCaller.Daemon.Exits
import CodeCaller.Daemon.Prompts

/-!
# `failure-detector`

Whether a failed child has run out of capacity is read off the end of its output: its last five
lines that are not blank.  What the Hub does about the task, fail it or try another server, hangs
on this answer, and so does the reason the attempt is closed with.

The output comes in chunks, and of its units a runner keeps the last `TAIL_LIMIT`.  The answer does
not depend on either, as long as the five lines fit (`failure_of_last_lines`).

### The pieces

* `detectStructuredFailure_append`: what stands before the last five lines is not looked at.
* The lemmas `onData_tail` and following: what each method makes of the tail.  Output is added to
  it, an answered prompt empties it, nothing else changes it.
* `outputAfter`: what the child of a runner has put out, over a run of the daemon.  The tail is the
  end of it in every state, and this is the invariant.
* `failure_of_last_lines`: the report of a child that has failed, from its output alone.

An answered prompt matters.  The tail begins anew then, so five lines of which some stand before
the prompt are not read together.
-/

namespace CodeCaller

open Async JsString

namespace FailureDetector

/-! ## The detector -/

open Regex in
/-- The expressions of the source, in its order. -/
def CAPACITY_PATTERNS : List Regex :=
  [
   -- /\bcapacity\b/i
   all [boundary, text "capacity", boundary],
   -- /\bquota\b/i
   all [boundary, text "quota", boundary],
   -- /\brate[ -]?limit(?:ed|s)?\b/i
   all [boundary, text "rate", optional (any [text " ", text "-"]), text "limit",
     optional (any [text "ed", text "s"]), boundary],
   -- /\busage limit\b/i
   all [boundary, text "usage limit", boundary],
   -- /\blimit reached\b/i
   all [boundary, text "limit reached", boundary],
   -- /\btoo many requests\b/i
   all [boundary, text "too many requests", boundary],
   -- /\btry again later\b/i
   all [boundary, text "try again later", boundary],
   -- /\btemporarily unavailable\b/i
   all [boundary, text "temporarily unavailable", boundary],
   -- /\bmodel is overloaded\b/i
   all [boundary, text "model is overloaded", boundary],
   -- /\bservice is overloaded\b/i
   all [boundary, text "service is overloaded", boundary]]

/-- `.split(/\r?\n/).map((line) => line.trim()).filter(Boolean)`. -/
def trimmedLines (text : JsString) : List JsString :=
  ((splitLines text).map JsString.trim).filter fun line => !line.isEmpty

/-- `lines.slice(-n)`, for `n > 0`. -/
def lastLines (lines : List JsString) (n : ℕ) : List JsString := lines.drop (lines.length - n)

/-- At most 1200 units of the lines. -/
def excerpt (text : JsString) : JsString :=
  sliceBack (join (lastLines (trimmedLines text) 5) (js "\n")) 1200

/-- `CAPACITY_PATTERNS.some((pattern) => pattern.test(tail))`. -/
def isCapacitySignal (tail : JsString) : Bool := CAPACITY_PATTERNS.any fun re => re.test tail

/-- The failure of a worker that is out of capacity. -/
def capacityExhausted (tail : JsString) : DaemonTaskFailurePayload :=
  { category := .CAPACITY_EXHAUSTED
    retryable := some true
    message := some (js "Worker capacity, quota, or rate-limit signal detected.")
    detail := some tail }

/-- `exitCode === 0 && !signal`. -/
def succeeded (exitCode : Option ℤ) (signal : Option JsString) : Bool :=
  exitCode = some 0 && !signal.any fun name => !name.isEmpty

/-- **`detectStructuredFailure({ exitCode, signal, output })`.** -/
def detectStructuredFailure (exitCode : Option ℤ) (signal : Option JsString)
    (output : JsString) : Option DaemonTaskFailurePayload :=
  if succeeded exitCode signal then none
  else
    let tail := excerpt output
    if !tail.isEmpty && isCapacitySignal tail then some (capacityExhausted tail) else none

/-- The detector with any detection of prompts. -/
def detectors (detect : JsString → Option JsString) : Detectors :=
  ⟨detect, detectStructuredFailure⟩

@[simp] theorem detectors_failure (detect : JsString → Option JsString) :
    (detectors detect).detectStructuredFailure = detectStructuredFailure := rfl

/-! ## What it says -/

variable {exitCode : Option ℤ} {signal : Option JsString} {output : JsString}

/-- **A failure is a lack of capacity**, with the lines it was read off. -/
theorem detectStructuredFailure_eq_some {failure : DaemonTaskFailurePayload} :
    detectStructuredFailure exitCode signal output = some failure ↔
      succeeded exitCode signal = false ∧ excerpt output ≠ [] ∧
        isCapacitySignal (excerpt output) = true ∧
        failure = capacityExhausted (excerpt output) := by
  unfold detectStructuredFailure
  cases succeeded exitCode signal with
  | true => simp
  | false =>
      dsimp only
      rw [if_neg Bool.false_ne_true]
      split
      · next h =>
        rw [Bool.and_eq_true, Bool.not_eq_true', List.isEmpty_eq_false_iff] at h
        simp [h.1, h.2, eq_comm]
      · next h =>
        refine ⟨nofun, fun ⟨_, hne, hsignal, _⟩ => absurd ?_ h⟩
        simp [hne, hsignal]

/-- It is short. -/
theorem excerpt_length (text : JsString) : (excerpt text).length ≤ 1200 := by
  unfold excerpt sliceBack
  rw [List.length_drop]
  omega

/-! ## What it looks at -/

/-- The lines after a line feed are the last ones. -/
theorem trimmedLines_append (front back : JsString) : ∃ lines,
    trimmedLines (front ++ LF :: back) = lines ++ trimmedLines back := by
  obtain ⟨lines, -, hlines⟩ := exists_splitLines_append front
  refine ⟨(lines.map JsString.trim).filter fun line => !line.isEmpty, ?_⟩
  unfold trimmedLines
  rw [hlines, List.map_append, List.filter_append]

/-- The last of many lines are the last of the last. -/
theorem lastLines_append {n : ℕ} (front : List JsString) {back : List JsString}
    (h : n ≤ back.length) : lastLines (front ++ back) n = lastLines back n := by
  have hcut : (front ++ back).length - n = front.length + (back.length - n) := by
    rw [List.length_append]
    omega
  unfold lastLines
  rw [hcut, List.drop_append, List.drop_eq_nil_of_le (Nat.le_add_right _ _), List.nil_append,
    Nat.add_sub_cancel_left]

/-- **What stands before the last five lines is not looked at.** -/
theorem detectStructuredFailure_append {front suffix : JsString}
    (hfront : front = [] ∨ front.getLast? = some LF) (hlines : 5 ≤ (trimmedLines suffix).length) :
    detectStructuredFailure exitCode signal (front ++ suffix) =
      detectStructuredFailure exitCode signal suffix := by
  rcases hfront with rfl | hlast
  · rfl
  · obtain ⟨before, rfl⟩ := List.getLast?_eq_some_iff.mp hlast
    obtain ⟨lines, htrimmed⟩ := trimmedLines_append before suffix
    have hexcerpt : excerpt (before ++ [LF] ++ suffix) = excerpt suffix := by
      unfold excerpt
      rw [List.append_assoc, List.singleton_append, htrimmed, lastLines_append lines hlines]
    unfold detectStructuredFailure
    rw [hexcerpt]

end FailureDetector

namespace TaskRunner

open FailureDetector

variable {detectors : Detectors} {runner : TaskRunner}

/-! ## What a runner keeps of the output -/

/-- Output is added to the tail, which is then cut. -/
theorem onData_tail (chunk : JsString) :
    (runner.onData detectors chunk).1.tail = sliceBack (runner.tail ++ chunk) TAIL_LIMIT := by
  unfold onData
  dsimp only
  generalize sliceBack (runner.tail ++ chunk) TAIL_LIMIT = tail
  split
  · rfl
  · split <;> rfl

/-- A failure leaves the tail for whoever reads it. -/
theorem finishFailed_tail (reason : JsString) :
    (runner.finishFailed detectors reason).1.tail = runner.tail := by
  unfold finishFailed
  split <;> rfl

/-- A start has no output yet. -/
theorem start_tail (outcome : SpawnOutcome) :
    (runner.start detectors outcome).1.tail = runner.tail := by
  cases outcome with
  | threw message =>
      rw [start_threw]
      exact finishFailed_tail _
  | _ => rfl

/-- A kill leaves the tail as it is. -/
theorem kill_tail : runner.kill.1.tail = runner.tail := by
  unfold kill
  split
  · rfl
  · split <;> rfl

/-- An answered prompt is forgotten, and all that was put out before it. -/
theorem resume_tail : runner.resume.1.tail = [] := by
  unfold resume
  dsimp only
  split
  · rfl
  · split <;> rfl

/-- Only an approval that resumes empties the tail. -/
theorem decide_tail (approved : Bool) : (runner.decide approved).1.tail =
    if approved = true ∧ runner.awaitingApproval = true then [] else runner.tail := by
  unfold decide
  cases approved with
  | false => exact kill_tail
  | true =>
      cases runner.awaitingApproval with
      | false => rfl
      | true => exact resume_tail

/-- Only output adds to it. -/
theorem onChildEvent_tail {event : ChildEvent} (hevent : ∀ chunk, event ≠ .data chunk) :
    (runner.onChildEvent detectors event).1.tail = runner.tail := by
  cases event with
  | data chunk => exact absurd rfl (hevent chunk)
  | error message =>
      rw [onChildEvent_error]
      exact finishFailed_tail _
  | close code signal =>
      unfold onChildEvent onClose
      dsimp only
      split
      · rfl
      · split <;> rfl
  | _ => rfl

/-- **The report of a child that has failed.** -/
theorem onClose_failed (detect : JsString → Option JsString) {code : Option ℤ}
    {signal : Option JsString} (hopen : runner.exitHandled = false)
    (hspared : runner.killedByHub = false) (hfailed : succeeded code signal = false) :
    ∃ payload, (runner.onChildEvent (FailureDetector.detectors detect) (.close code signal)).2 =
        [.emit (.TASK_RESULT payload), .dropTask] ∧
      payload.taskId = .id runner.taskId ∧ payload.status = .status .FAILED ∧
      payload.failure = detectStructuredFailure code signal
        (if runner.tail.isEmpty then runner.lastChunk else runner.tail) := by
  have hnot : ¬(code = some 0 ∧ (signal.any fun name => !name.isEmpty) = false) := by
    rintro ⟨rfl, hsignal⟩
    simp [succeeded, hsignal] at hfailed
  unfold onChildEvent onClose withChild
  dsimp only
  rw [hopen, hspared, if_neg Bool.false_ne_true, if_neg Bool.false_ne_true]
  refine ⟨_, rfl, rfl, ?_, rfl⟩
  dsimp only
  rw [if_neg hnot]

end TaskRunner

namespace DaemonClient

open FailureDetector

variable {detectors : Detectors} {client : DaemonClient} {serial : ℕ} {output : JsString}

/-! ## The output of a child in a run -/

/-- **What the child of a runner has put out** since the runner was made or has answered a
prompt, after one more action. -/
def outputAfter (serial : ℕ) (output : JsString) (client : DaemonClient) : DaemonAction → JsString
  | .child other (.data chunk) => if other = serial then output ++ chunk else output
  | .message (.TASK_SUBMIT _ _) _ => if client.objects.next = serial then [] else output
  | .message (.APPROVAL_DECISION taskId true _) _ =>
    if client.runners taskId = some serial ∧
      (client.objects serial).any (·.awaitingApproval) then []
    else output
  | _ => output

/-- Output of the child is added, -/
theorem outputAfter_data (held : ℕ) (chunk : JsString) :
    client.outputAfter serial output (.child held (.data chunk)) =
      if held = serial then output ++ chunk else output := rfl

/-- a new child has none, -/
theorem outputAfter_submit (taskId : TaskId) (input : Json) (outcome : SpawnOutcome) :
    client.outputAfter serial output (.message (.TASK_SUBMIT taskId input) outcome) =
      if client.objects.next = serial then [] else output := rfl

/-- and with an approval that is answered it begins anew. -/
theorem outputAfter_approve (taskId : TaskId) (reason : Option JsString)
    (outcome : SpawnOutcome) :
    client.outputAfter serial output (.message (.APPROVAL_DECISION taskId true reason) outcome) =
      if client.runners taskId = some serial ∧
        (client.objects serial).any (·.awaitingApproval) then [] else output := rfl

/-- What it has put out in a run. -/
def outputOf (detectors : Detectors) (serial : ℕ) : JsString → DaemonClient → List DaemonAction →
    JsString
  | output, _, [] => output
  | output, client, action :: actions =>
    outputOf detectors serial (client.outputAfter serial output action)
      (client.daemonStep detectors action).1 actions

/-- The runner at a number keeps the end of an output, if there is one. -/
def KeepsEnd (serial : ℕ) (output : JsString) (client : DaemonClient) : Prop :=
  ∀ runner, client.objects serial = some runner →
    runner.tail = sliceBack output TaskRunner.TAIL_LIMIT

/-- A method of one runner. -/
theorem KeepsEnd.react {held : ℕ} {runner : TaskRunner} {reaction : Reaction} {output' : JsString}
    (h : client.KeepsEnd serial output) (hrow : client.objects held = some runner)
    (hother : held ≠ serial → output' = output)
    (hself : held = serial → reaction.1.tail = sliceBack output' TaskRunner.TAIL_LIMIT) :
    (client.react held reaction).1.KeepsEnd serial output' := by
  intro found hfound
  rw [react_objects, Table.modify_apply] at hfound
  split at hfound
  · next heq =>
    subst heq
    rw [hrow] at hfound
    cases hfound
    exact hself rfl
  · next hne =>
    rw [hother (Ne.symm hne)]
    exact h found hfound

/-- **One step of a daemon**, case by case along its actions. -/
theorem KeepsEnd.step (h : client.KeepsEnd serial output) (action : DaemonAction) :
    (client.daemonStep detectors action).1.KeepsEnd serial
      (client.outputAfter serial output action) := by
  cases action with
  | channel action =>
      intro runner hrow
      rw [show (client.daemonStep detectors (.channel action)).1.objects = client.objects from
        (channelStep_runners client action).2] at hrow
      exact h runner hrow
  | child held event =>
      change (client.onChildEvent detectors held event).1.KeepsEnd serial _
      unfold onChildEvent
      cases hrow : client.objects held with
      | none =>
          intro runner hfound
          change client.objects serial = some runner at hfound
          have hne : held ≠ serial := by
            rintro rfl
            rw [hrow] at hfound
            cases hfound
          cases event with
          | data chunk =>
              rw [outputAfter_data, if_neg hne]
              exact h runner hfound
          | _ => exact h runner hfound
      | some runner =>
          cases event with
          | data chunk =>
              refine h.react hrow (fun hne => if_neg hne) ?_
              rintro rfl
              refine (TaskRunner.onData_tail chunk).trans ?_
              rw [outputAfter_data, if_pos rfl, h runner hrow, sliceBack_append]
          | _ =>
              refine h.react hrow (fun _ => rfl) ?_
              rintro rfl
              refine (TaskRunner.onChildEvent_tail ?_).trans (h runner hrow)
              exact nofun
  | message message outcome =>
      cases message with
      | TASK_SUBMIT taskId input =>
          change (client.onTaskSubmit detectors outcome taskId input).1.KeepsEnd serial _
          rw [outputAfter_submit]
          rcases onTaskSubmit_cases detectors outcome taskId input client with hsame | ⟨-, hnew⟩
          · rw [hsame]
            intro runner hrow
            rw [if_neg (Nat.ne_of_gt (Table.lt_next hrow))]
            exact h runner hrow
          · rw [hnew]
            intro runner hrow
            rw [react_objects, Table.modify_apply] at hrow
            split at hrow
            · next heq =>
              subst heq
              rw [enlist_new] at hrow
              cases hrow
              rw [if_pos rfl]
              exact TaskRunner.start_tail outcome
            · next hne =>
              rw [if_neg (Ne.symm hne)]
              refine h runner ?_
              unfold enlist at hrow
              rwa [Table.insert_apply, if_neg hne] at hrow
      | TASK_CANCEL taskId =>
          change (client.onRunner taskId TaskRunner.kill).1.KeepsEnd serial output
          rcases onRunner_cases taskId TaskRunner.kill client with
            ⟨-, hsame⟩ | ⟨held, runner, -, hrow, hreact⟩
          · rw [hsame]
            exact h
          · rw [hreact]
            refine h.react hrow (fun _ => rfl) ?_
            rintro rfl
            exact TaskRunner.kill_tail.trans (h runner hrow)
      | APPROVAL_DECISION taskId approved reason =>
          change (client.onRunner taskId (TaskRunner.decide approved)).1.KeepsEnd serial _
          rcases onRunner_cases taskId (TaskRunner.decide approved) client with
            ⟨hnone, hsame⟩ | ⟨held, runner, hheld, hrow, hreact⟩
          · rw [hsame]
            intro runner hrow
            cases approved with
            | false => exact h runner hrow
            | true =>
                rw [outputAfter_approve]
                split
                · next hanswered =>
                  unfold runnerOf at hnone
                  rw [hanswered.1, Option.bind_some, hrow] at hnone
                  cases hnone
                · exact h runner hrow
          · rw [hreact]
            cases approved with
            | false =>
                refine h.react hrow (fun _ => rfl) ?_
                rintro rfl
                exact TaskRunner.kill_tail.trans (h runner hrow)
            | true =>
                rw [outputAfter_approve]
                refine h.react hrow (fun hne => if_neg fun hanswered => hne ?_) ?_
                · exact Option.some.inj (hheld.symm.trans hanswered.1)
                · rintro rfl
                  rw [TaskRunner.decide_tail, hheld, hrow]
                  cases hwaits : runner.awaitingApproval with
                  | false => simpa [hwaits] using h runner hrow
                  | true => simp [hwaits, sliceBack]

/-- **The tail is the end of the output** in every state, by induction on the actions. -/
theorem KeepsEnd.run (h : client.KeepsEnd serial output) (actions : List DaemonAction) :
    ((daemonMachine detectors).exec client actions).KeepsEnd serial
      (outputOf detectors serial output client actions) := by
  induction actions generalizing client output with
  | nil => exact h
  | cons action actions ih => exact ih (h.step action)

/-- **The report about a failed child depends on its last five lines.**  Whatever has happened
to a daemon and however the output was cut into chunks, if the output of the child ends in five
lines that are not blank and fit into the tail, or fits into it as a whole, then these decide
about the failure that is reported, and nothing that was put out before them. -/
theorem failure_of_last_lines {detect : JsString → Option JsString}
    (hstart : (daemonMachine (FailureDetector.detectors detect)).start client)
    {actions : List DaemonAction} {runner : TaskRunner}
    (hrow : ((daemonMachine (FailureDetector.detectors detect)).exec client actions).objects
      serial = some runner)
    (hopen : runner.exitHandled = false) (hspared : runner.killedByHub = false)
    {code : Option ℤ} {signal : Option JsString} (hfailed : succeeded code signal = false)
    {front suffix : JsString}
    (houtput : outputOf (FailureDetector.detectors detect) serial [] client actions =
      front ++ suffix)
    (hlength : suffix.length ≤ TaskRunner.TAIL_LIMIT)
    (hsuffix : front = [] ∧ suffix ≠ [] ∨
      front.getLast? = some LF ∧ 5 ≤ (trimmedLines suffix).length) :
    ∃ next payload, ((daemonMachine (FailureDetector.detectors detect)).exec client
        actions).onChildEvent (FailureDetector.detectors detect) serial (.close code signal) =
        ((daemonMachine (FailureDetector.detectors detect)).exec client actions).react serial
          (next, [.emit (.TASK_RESULT payload), .dropTask]) ∧
      payload.taskId = .id runner.taskId ∧ payload.status = .status .FAILED ∧
      payload.failure = detectStructuredFailure code signal suffix := by
  have hnone : client.KeepsEnd serial [] := by
    obtain ⟨apiKey, rfl⟩ := hstart
    exact nofun
  have htail := (hnone.run actions) runner hrow
  rw [houtput] at htail
  obtain ⟨payload, heffects, htaskId, hstatus, hfailure⟩ :=
    TaskRunner.onClose_failed detect hopen hspared hfailed
  refine ⟨(runner.onChildEvent (FailureDetector.detectors detect) (.close code signal)).1,
    payload, ?_, htaskId, hstatus, hfailure.trans ?_⟩
  · unfold onChildEvent
    rw [hrow, ← heffects]
  · obtain ⟨front', hslice, hfront'⟩ :=
      sliceBack_suffix hlength (hsuffix.imp And.left And.left)
    have hne : suffix ≠ [] := by
      rcases hsuffix with ⟨-, hne⟩ | ⟨-, hlines⟩
      · exact hne
      · rintro rfl
        exact absurd hlines (by decide)
    have hfull : runner.tail.isEmpty = false := by
      rw [htail, hslice]
      simp [hne]
    rw [hfull, if_neg Bool.false_ne_true, htail]
    rcases hsuffix with ⟨rfl, -⟩ | ⟨-, hlines⟩
    · rw [List.nil_append, sliceBack_eq_self hlength]
    · rw [hslice, detectStructuredFailure_append hfront' hlines]

/-- A word that is cut between two chunks, in the last of six lines. -/
def sampleOutage : List DaemonAction :=
  [.message (.TASK_SUBMIT 0 sampleInput) .process, .child 0 (.data (js "0\n1\n2\n3\n4\nQuo")),
    .child 0 (.data (js "ta exceeded\n")), .child 0 (.exit (some 1))]

/-- The word is found although no chunk has it. -/
theorem failure_of_last_lines_outage :
    ∃ next payload, ((daemonMachine (FailureDetector.detectors fun _ => none)).exec (initial [])
        sampleOutage).onChildEvent (FailureDetector.detectors fun _ => none) 0
        (.close (some 1) none) = ((daemonMachine (FailureDetector.detectors fun _ => none)).exec
          (initial []) sampleOutage).react 0 (next, [.emit (.TASK_RESULT payload), .dropTask]) ∧
      payload.failure.isSome = true := by
  obtain ⟨runner, hrow⟩ := Option.isSome_iff_exists.mp (show
    (((daemonMachine (FailureDetector.detectors fun _ => none)).exec (initial [])
      sampleOutage).objects 0).isSome = true by decide)
  have hfields : (((daemonMachine (FailureDetector.detectors fun _ => none)).exec (initial [])
      sampleOutage).objects 0).map (fun runner => (runner.exitHandled, runner.killedByHub)) =
        some (false, false) := by decide
  rw [hrow, Option.map_some, Option.some.injEq, Prod.mk.injEq] at hfields
  have houtput : outputOf (FailureDetector.detectors fun _ => none) 0 [] (initial [])
      sampleOutage = js "0\n" ++ js "1\n2\n3\n4\nQuota exceeded\n" := by decide
  have hfailed : succeeded (some 1) none = false := by decide
  obtain ⟨next, payload, hreact, -, -, hfailure⟩ := failure_of_last_lines ⟨[], rfl⟩ hrow
    hfields.1 hfields.2 hfailed houtput (by decide) (.inr (by decide))
  refine ⟨next, payload, hreact, ?_⟩
  rw [hfailure]
  decide

end DaemonClient

end CodeCaller
