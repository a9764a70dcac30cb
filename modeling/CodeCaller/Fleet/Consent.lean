import CodeCaller.Daemon.Exits
import CodeCaller.Fleet.Tenancy

/-!
# Consent

A runner that finds a prompt in the output of its child stops and asks.  Its child is answered once
for each time it asks, and for nothing but an approval that the user who submitted the task has
given: between the prompt and the answer lie a message of the daemon, the handlers of the Hub, a
request of the user and a message to the room of a server, which are interleaved, lost and repeated
in any way.  The same approval may be sent more than once, and may be heard by several daemons;
what keeps a second answer out is the runner itself.

### The pieces

* `Answers`: how a daemon answers prompts.  It resumes a runner that waits, for an approval it has
  heard of; it lets a runner wait that has asked.
* `ConsentedTo`, `HasAsked`, `Warrant`: what a resume needs, read from the trace before it.
* `Consented`: the invariant.  Every approval that is stored as `APPROVED` and every decision under
  way has the consent of the user, every runner that waits has asked, every resume had its warrant.
* `Consented.step_of`: the rule for a step, by what it adds to the trace, to the messages under way
  and to the runners that wait; each kind of action is an application of it.
-/

namespace CodeCaller

open Async

variable {n : ℕ} {env : Env} {detectors : Detectors} {F F' : Fleet n} {seen : List Hub}

/-! ## What a daemon does about prompts -/

namespace DaemonClient

variable {allowed : TaskId → Prop} {client : DaemonClient} {serial : ℕ} {runner : TaskRunner}
  {reaction : Reaction} {step : DaemonClient × List RunnerEvent}

/-- A runner waits for approval. -/
def Waits (client : DaemonClient) (serial : ℕ) (taskId : TaskId) : Prop :=
  ∃ runner, client.objects serial = some runner ∧ runner.taskId = taskId ∧
    runner.awaitingApproval = true

/-- **How a daemon answers prompts**: it resumes a runner that waits, for an approval that it
has heard of, and does nothing else then; it lets a runner wait that has asked. -/
structure Answers (allowed : TaskId → Prop) (client : DaemonClient)
    (step : DaemonClient × List RunnerEvent) : Prop where
  resumed : ∀ serial taskId, .resumed serial taskId ∈ step.2 →
    step.2 = [.resumed serial taskId] ∧ allowed taskId ∧ client.Waits serial taskId
  waits : ∀ serial taskId, step.1.Waits serial taskId →
    (∀ other, .resumed serial other ∉ step.2) ∧
      (client.Waits serial taskId ∨ ∃ reason, .requested serial taskId reason ∈ step.2)

/-- Who does nothing answers nothing. -/
theorem answers_nothing : client.Answers allowed (client, []) :=
  ⟨nofun, fun _ _ h => ⟨fun _ => List.not_mem_nil, .inl h⟩⟩

/-- A runner was resumed by a write to its child. -/
theorem mem_resumed {taskId : TaskId} {effects : List RunnerEffect} {resumed : ℕ}
    {about : TaskId} (h : .resumed resumed about ∈ effects.filterMap (eventOf serial taskId)) :
    resumed = serial ∧ about = taskId ∧ ∃ input, .write input ∈ effects := by
  obtain ⟨effect, hmem, hevent⟩ := List.mem_filterMap.mp h
  cases effect with
  | write input =>
      cases hevent
      exact ⟨rfl, rfl, input, hmem⟩
  | emit inbound => cases inbound <;> cases hevent
  | dropTask => cases hevent
  | terminate => cases hevent

/-- A method of a runner. -/
theorem react_answers (hrow : client.objects serial = some runner)
    (horderly : runner.Orderly reaction)
    (hallowed : ∀ input, .write input ∈ reaction.2 → allowed runner.taskId) :
    client.Answers allowed (client.react serial reaction) where
  resumed resumed about hmem := by
    obtain ⟨rfl, rfl, input, hwrite⟩ := mem_resumed hmem
    obtain ⟨hwaiting, heffects⟩ := horderly.writes input hwrite
    rw [horderly.taskId]
    refine ⟨?_, hallowed input hwrite, runner, hrow, rfl, hwaiting⟩
    unfold react
    dsimp only
    rw [heffects, horderly.taskId]
    rfl
  waits other taskId := by
    rintro ⟨runner', hrow', rfl, hwaiting⟩
    rw [react_objects, Table.modify_apply] at hrow'
    split at hrow'
    · next heq =>
      subst heq
      rw [hrow] at hrow'
      cases hrow'
      obtain ⟨hsilent, hasked⟩ := horderly.waits hwaiting
      refine ⟨fun about hmem => ?_,
        hasked.imp (fun h => ⟨runner, hrow, horderly.taskId.symm, h⟩) ?_⟩
      · obtain ⟨-, -, input, hwrite⟩ := mem_resumed hmem
        exact hsilent input hwrite
      · rintro ⟨payload, hrequest⟩
        exact ⟨payload.reason, List.mem_filterMap.mpr ⟨_, hrequest, rfl⟩⟩
    · next hne =>
      refine ⟨fun about hmem => ?_, .inl ⟨runner', hrow', rfl, hwaiting⟩⟩
      exact hne (mem_resumed hmem).1

/-- An event for the runner of a task reaches that runner only. -/
theorem onRunner_answers {taskId : TaskId} {method : TaskRunner → Reaction}
    (hclient : client.WellFormed) (horderly : ∀ runner : TaskRunner, runner.Orderly (method runner))
    (hallowed : ∀ (runner : TaskRunner) input, .write input ∈ (method runner).2 → allowed taskId) :
    client.Answers allowed (client.onRunner taskId method) := by
  rcases onRunner_cases taskId method client with ⟨-, hnone⟩ | ⟨serial, runner, hheld, hrow, hreact⟩
  · rw [hnone]
    exact answers_nothing
  · rw [hreact]
    obtain ⟨found, hfound, hsame⟩ := hclient taskId serial hheld
    rw [hrow] at hfound
    cases hfound
    refine react_answers hrow (horderly runner) fun input hwrite => ?_
    rw [hsame]
    exact hallowed runner input hwrite

/-- **A daemon answers a prompt for an approval that it hears.** -/
theorem onMessage_answers {outcome : SpawnOutcome} {message : DaemonOutbound}
    (hclient : client.WellFormed)
    (hallowed : ∀ taskId reason, message = .APPROVAL_DECISION taskId true reason → allowed taskId) :
    client.Answers allowed (client.onMessage detectors outcome message) := by
  cases message with
  | TASK_SUBMIT taskId input =>
      change client.Answers allowed (client.onTaskSubmit detectors outcome taskId input)
      rcases onTaskSubmit_cases detectors outcome taskId input client with hsame | ⟨-, hnew⟩
      · rw [hsame]
        exact answers_nothing
      · rw [hnew]
        have hanswers : (client.enlist taskId input).Answers allowed
            ((client.enlist taskId input).react client.objects.next
              ((TaskRunner.create taskId input).start detectors outcome)) :=
          react_answers enlist_new (TaskRunner.start_orderly outcome) fun input hwrite =>
            absurd hwrite (TaskRunner.start_write outcome input)
        -- the new runner does not wait, and the others are those of the client
        have hbefore : ∀ serial about, (client.enlist taskId input).Waits serial about →
            client.Waits serial about := by
          rintro serial about ⟨runner, hrow, htask, hwaiting⟩
          unfold enlist at hrow
          dsimp only at hrow
          rw [Table.insert_apply] at hrow
          split at hrow
          · cases hrow
            cases hwaiting
          · exact ⟨runner, hrow, htask, hwaiting⟩
        have hsilent : ∀ serial about, .resumed serial about ∉
            ((client.enlist taskId input).react client.objects.next
              ((TaskRunner.create taskId input).start detectors outcome)).2 :=
          fun serial about hmem => by
            obtain ⟨-, -, input, hwrite⟩ := mem_resumed hmem
            exact TaskRunner.start_write outcome input hwrite
        refine ⟨fun serial about hmem => ?_, fun serial about hwaits => ?_⟩
        · rcases List.mem_cons.mp hmem with hfirst | hrest
          · cases hfirst
          · exact absurd hrest (hsilent serial about)
        · obtain ⟨-, hasked⟩ := hanswers.waits serial about hwaits
          refine ⟨fun other hmem => ?_, hasked.imp (hbefore serial about) ?_⟩
          · rcases List.mem_cons.mp hmem with hfirst | hrest
            · cases hfirst
            · exact absurd hrest (hsilent serial other)
          · rintro ⟨reason, hrequest⟩
            exact ⟨reason, List.mem_cons_of_mem _ hrequest⟩
  | TASK_CANCEL taskId =>
      exact onRunner_answers hclient (fun _ => TaskRunner.kill_orderly) fun _ input hwrite =>
        absurd hwrite (TaskRunner.kill_write input)
  | APPROVAL_DECISION taskId approved reason =>
      refine onRunner_answers hclient (fun _ => TaskRunner.decide_orderly approved)
        fun runner input hwrite => ?_
      cases approved with
      | true => exact hallowed taskId reason rfl
      | false => exact absurd hwrite (TaskRunner.kill_write input)

/-- Only the runners matter. -/
theorem Answers.of_objects {before : DaemonClient} (hobjects : client.objects = before.objects)
    (h : client.Answers allowed step) : before.Answers allowed step := by
  refine ⟨fun serial taskId hmem => ?_, fun serial taskId hwaits => ?_⟩
  · obtain ⟨honly, hallowed, hwaiting⟩ := h.resumed serial taskId hmem
    exact ⟨honly, hallowed, (by unfold Waits at hwaiting ⊢; rwa [← hobjects])⟩
  · obtain ⟨hsilent, hasked⟩ := h.waits serial taskId hwaits
    exact ⟨hsilent, hasked.imp_left fun hwaiting => by unfold Waits at hwaiting ⊢; rwa [← hobjects]⟩

/-- An event of a child makes a runner ask, never resume. -/
theorem onChildEvent_answers {event : ChildEvent} :
    client.Answers allowed (client.onChildEvent detectors serial event) := by
  rcases onChildEvent_cases detectors serial event client with hsame | ⟨runner, hrow, hreact⟩
  · rw [hsame]
    exact answers_nothing
  · rw [hreact]
    exact react_answers hrow (TaskRunner.onChildEvent_orderly event) fun input hwrite =>
      absurd hwrite (TaskRunner.onChildEvent_write event input)

theorem onRunner_inbox (taskId : TaskId) (method : TaskRunner → Reaction) :
    (client.onRunner taskId method).1.inbox = client.inbox := by
  rcases onRunner_cases taskId method client with ⟨-, hnone⟩ | ⟨serial, runner, -, -, hreact⟩
  · rw [hnone]
  · rw [hreact, react_inbox]

/-- Handling a message leaves the others where they are. -/
theorem onMessage_inbox {outcome : SpawnOutcome} {message : DaemonOutbound} :
    (client.onMessage detectors outcome message).1.inbox = client.inbox := by
  cases message with
  | TASK_SUBMIT taskId input =>
      change (client.onTaskSubmit detectors outcome taskId input).1.inbox = _
      rcases onTaskSubmit_cases detectors outcome taskId input client with hsame | ⟨-, hnew⟩
      · rw [hsame]
      · rw [hnew, react_inbox, enlist_inbox]
  | TASK_CANCEL taskId => exact onRunner_inbox _ _
  | APPROVAL_DECISION taskId approved reason => exact onRunner_inbox _ _

theorem onChildEvent_inbox {event : ChildEvent} :
    (client.onChildEvent detectors serial event).1.inbox = client.inbox := by
  rcases onChildEvent_cases detectors serial event client with hsame | ⟨runner, -, hreact⟩
  · rw [hsame]
  · rw [hreact, react_inbox]

end DaemonClient

/-! ## What a call adds to the trace -/

theorem Served.events_runner {served : Served n} {before : List Hub} {h h' : Hub} {d : Fin n}
    {event : RunnerEvent} : .runner d event ∉ served.events before h h' := by
  unfold Served.events
  split
  · split <;> simp
  · split
    · split <;> simp
    · simp
  · simp

/-- A node of the Hub is no event of a runner. -/
theorem Fleet.nodeEvents_runner {i : ℕ} {d : Fin n} {event : RunnerEvent} :
    .runner d event ∉ F.nodeEvents i := by
  unfold nodeEvents
  split
  · exact Served.events_runner
  · exact List.not_mem_nil

/-- An approval that turns `APPROVED` is recorded, with the user who decides. -/
theorem Served.events_approved {served : Served n} {past : Past} {h h' : Hub} {ownerId : UserId}
    {approvalId : ApprovalId} {dto : DecideApprovalDto} {approval approval' : Approval}
    (hcall : served.call = .decideApproval ownerId approvalId dto) (happrove : dto.approve = true)
    (hbefore : h.approvals approvalId = some approval) (hopen : approval.status ≠ .APPROVED)
    (hafter : h'.approvals approvalId = some approval') (hdone : approval'.status = .APPROVED)
    (howner : Saw past fun g => g.ownerOf approval'.taskId = some ownerId) :
    served.events (past.map (·.1)) h h' = [.approved ownerId approvalId approval'.taskId] := by
  have htask : approvedTask approvalId h h' = some approval'.taskId := by
    unfold approvedTask
    rw [hbefore, hafter]
    exact if_pos ⟨hopen, hdone⟩
  have hseen :
      ((past.map (·.1)).any fun g => g.ownerOf approval'.taskId == some ownerId) = true := by
    obtain ⟨visit, hvisit, howner⟩ := howner
    exact List.any_eq_true.mpr ⟨visit.1, List.mem_map_of_mem hvisit, beq_iff_eq.mpr howner⟩
  unfold Served.events
  rw [hcall]
  cases served.origin <;> simp [htask, happrove, hseen]

/-! ## Warrants -/

namespace Fleet

/-- **The user who submitted a task has approved it.** -/
def ConsentedTo (F : Fleet n) (trace : List (Event n)) (taskId : TaskId) : Prop :=
  ∃ ownerId input approvalId, F.SubmittedBy taskId ownerId input ∧
    .approved ownerId approvalId taskId ∈ trace

/-- A runner has asked for approval, and was not resumed since. -/
def HasAsked (trace : List (Event n)) (d : Fin n) (serial : ℕ) (taskId : TaskId) : Prop :=
  Since (fun e => ∃ reason, e = .runner d (.requested serial taskId reason))
    (fun e => ∃ about, e = .runner d (.resumed serial about)) trace

/-- **What a resume needs**: the consent of the user, and a prompt that is still open. -/
def Warrant (F : Fleet n) (before : List (Event n)) (e : Event n) : Prop :=
  ∀ d serial taskId, e = .runner d (.resumed serial taskId) →
    F.ConsentedTo before taskId ∧ HasAsked before d serial taskId

/-- Consent is given once and for all. -/
theorem ConsentedTo.advance {trace more : List (Event n)} {taskId : TaskId}
    (h : F.ConsentedTo trace taskId) (hstep : Advance env F F') :
    F'.ConsentedTo (trace ++ more) taskId := by
  obtain ⟨ownerId, input, approvalId, hsubmitted, hmem⟩ := h
  exact ⟨ownerId, input, approvalId, hsubmitted.advance hstep, List.mem_append_left _ hmem⟩

theorem Warrant.advance {before : List (Event n)} {e : Event n} (h : F.Warrant before e)
    (hstep : Advance env F F') : F'.Warrant before e := fun d serial taskId heq => by
  obtain ⟨⟨ownerId, input, approvalId, hsubmitted, hmem⟩, hasked⟩ := h d serial taskId heq
  exact ⟨⟨ownerId, input, approvalId, hsubmitted.advance hstep, hmem⟩, hasked⟩

/-- **Every approval and every decision under way has the consent of the user, every runner that
waits has asked, and every resume had its warrant.** -/
structure Consented (env : Env) (told : ℕ) (seen : List Hub) (F : Fleet n) : Prop where
  tenanted : F.Tenanted env told seen
  wellFormed : ∀ d, (F.daemons d).WellFormed
  approved : ∀ g ∈ seen, ∀ id approval, g.approvals id = some approval →
    approval.status = .APPROVED → F.ConsentedTo F.trace approval.taskId
  decided : ∀ d taskId reason, .APPROVAL_DECISION taskId true reason ∈ (F.daemons d).inbox →
    F.ConsentedTo F.trace taskId
  waiting : ∀ d serial taskId, (F.daemons d).Waits serial taskId →
    HasAsked F.trace d serial taskId
  warranted : Warranted F.Warrant F.trace

variable {told : ℕ}

/-- **The rule for a step**: what it adds to the trace, to the messages under way and to the
runners that wait. -/
theorem Consented.step_of (hF : F.Consented env told seen) (hstep : Advance env F F')
    (more : List (Event n)) (htrace : F'.trace = F.trace ++ more)
    (hwell : ∀ d, (F'.daemons d).WellFormed)
    (happroved : ∀ id approval, F'.hub.approvals id = some approval →
      approval.status = .APPROVED → F'.ConsentedTo F'.trace approval.taskId)
    (hdecided : ∀ d taskId reason, .APPROVAL_DECISION taskId true reason ∈ (F'.daemons d).inbox →
      .APPROVAL_DECISION taskId true reason ∈ (F.daemons d).inbox ∨
        F'.ConsentedTo F'.trace taskId)
    (hwaits : ∀ d serial taskId, (F'.daemons d).Waits serial taskId →
      (∀ other, .runner d (.resumed serial other) ∉ more) ∧
        ((F.daemons d).Waits serial taskId ∨
          ∃ reason, .runner d (.requested serial taskId reason) ∈ more))
    (hresumed : ∀ d serial taskId, .runner d (.resumed serial taskId) ∈ more →
      more = [.runner d (.resumed serial taskId)] ∧ F.ConsentedTo F.trace taskId ∧
        (F.daemons d).Waits serial taskId) :
    F'.Consented env told (seen ++ [F'.hub]) where
  tenanted := hF.tenanted.step hstep
  wellFormed := hwell
  approved g hg id approval hrow hdone := by
    rcases List.mem_append.mp hg with hold | hlast
    · rw [htrace]
      exact (hF.approved g hold id approval hrow hdone).advance hstep
    · rw [List.mem_singleton.mp hlast] at hrow
      exact happroved id approval hrow hdone
  decided d taskId reason hmem := by
    rcases hdecided d taskId reason hmem with hold | hnew
    · rw [htrace]
      exact (hF.decided d taskId reason hold).advance hstep
    · exact hnew
  waiting d serial taskId hwaiting := by
    obtain ⟨hsilent, hbefore | ⟨reason, hrequest⟩⟩ := hwaits d serial taskId hwaiting
    · rw [htrace]
      refine (hF.waiting d serial taskId hbefore).append fun e hmem => ?_
      rintro ⟨about, rfl⟩
      exact hsilent about hmem
    · rw [htrace]
      refine since_append hrequest ⟨reason, rfl⟩ fun e hmem => ?_
      rintro ⟨about, rfl⟩
      exact hsilent about hmem
  warranted := by
    rw [htrace]
    refine (hF.warranted.mono fun _ _ h => h.advance hstep).append fun before e after heq => ?_
    rintro d serial taskId rfl
    have hmem : .runner d (.resumed serial taskId) ∈ more := by
      rw [heq]
      exact List.mem_append_right _ List.mem_cons_self
    obtain ⟨honly, hconsented, hwaiting⟩ := hresumed d serial taskId hmem
    -- nothing comes before a resume in its step
    cases before with
    | cons first rest =>
        rw [heq, List.cons_append] at honly
        exact absurd (List.cons.inj honly).2 (List.append_ne_nil_of_right_ne_nil rest
          (List.cons_ne_nil _ _))
    | nil =>
        refine ⟨hconsented.advance hstep, ?_⟩
        rw [List.append_nil]
        exact hF.waiting d serial taskId hwaiting

/-- A step of a daemon that answers prompts as it should. -/
theorem Consented.step_daemon (hF : F.Consented env told seen) (hstep : Advance env F F')
    (d : Fin n) (next : DaemonClient × List RunnerEvent)
    (hdaemons : F'.daemons = Function.update F.daemons d next.1)
    (htrace : F'.trace = F.trace ++ next.2.map (.runner d))
    (happrovals : F'.hub.approvals = F.hub.approvals) (hwell : next.1.WellFormed)
    (hinbox : next.1.inbox ⊆ (F.daemons d).inbox)
    (hanswers : (F.daemons d).Answers (F.ConsentedTo F.trace) next) :
    F'.Consented env told (seen ++ [F'.hub]) := by
  have hevent : ∀ {other : Fin n} {event : RunnerEvent},
      .runner other event ∈ next.2.map (Event.runner d) → other = d ∧ event ∈ next.2 := by
    intro other event hmem
    obtain ⟨event', hmem', heq⟩ := List.mem_map.mp hmem
    cases heq
    exact ⟨rfl, hmem'⟩
  refine hF.step_of hstep _ htrace (fun other => ?_) (fun id approval hrow hdone => ?_)
    (fun other taskId reason hmem => .inl ?_) (fun other serial taskId hwaiting => ?_)
    fun other serial taskId hmem => ?_
  · rw [hdaemons, Function.update_apply]
    split
    · exact hwell
    · exact hF.wellFormed other
  · rw [happrovals] at hrow
    rw [htrace]
    exact (hF.approved _ hF.tenanted.recorded.archive.here id approval hrow hdone).advance hstep
  · rw [hdaemons, Function.update_apply] at hmem
    split at hmem
    · next heq =>
      rw [heq]
      exact hinbox hmem
    · exact hmem
  · rw [hdaemons, Function.update_apply] at hwaiting
    split at hwaiting
    · next heq =>
      subst heq
      obtain ⟨hsilent, hasked⟩ := hanswers.waits serial taskId hwaiting
      refine ⟨fun about hmem => hsilent about (hevent hmem).2, hasked.imp_right ?_⟩
      rintro ⟨reason, hrequest⟩
      exact ⟨reason, List.mem_map_of_mem hrequest⟩
    · next hne => exact ⟨fun about hmem => hne (hevent hmem).1, .inl hwaiting⟩
  · obtain ⟨rfl, hdone⟩ := hevent hmem
    obtain ⟨honly, hallowed, hwaiting⟩ := hanswers.resumed serial taskId hdone
    refine ⟨?_, hallowed, hwaiting⟩
    rw [honly]
    rfl

/-- A step that leaves the runners of a daemon as they are, or forgets them. -/
theorem answers_of_objects {client next : DaemonClient} {allowed : TaskId → Prop}
    (hobjects : ∀ serial runner, next.objects serial = some runner →
      client.objects serial = some runner) : client.Answers allowed (next, []) where
  resumed := nofun
  waits serial taskId := by
    rintro ⟨runner, hrow, hwaiting⟩
    exact ⟨fun _ => List.not_mem_nil, .inl ⟨runner, hobjects serial runner hrow, hwaiting⟩⟩

/-- An approval that a node has turned `APPROVED` is in the trace. -/
theorem Consented.step_approved (hF : F.Consented env told seen) {i : ℕ}
    (hlive : F.pool.live i = true) {id : ApprovalId} {approval : Approval}
    (hrow : (F.resume i).hub.approvals id = some approval)
    (hdone : approval.status = .APPROVED) :
    (F.resume i).ConsentedTo (F.resume i).trace approval.taskId := by
  have hstep : Advance env F (F.resume i) := .resumed i hlive rfl
  have hhere := hF.tenanted.recorded.archive.here
  have hold : ∀ before, F.hub.approvals id = some before → before.taskId = approval.taskId →
      before.status = .APPROVED → (F.resume i).ConsentedTo (F.resume i).trace approval.taskId := by
    intro before hbefore hsame hclosed
    rw [← hsame]
    exact (hF.approved _ hhere id before hbefore hclosed).advance hstep
  obtain ⟨served, thread, hserved, hthread, hwithin, hdeed⟩ := hF.tenanted.recorded.deed hlive
  have hsame : (F.resume i).hub.rows = F.hub.rows → F.hub.approvals id = some approval :=
    fun hrows => by
      rw [← hrow]
      exact congrArg (·.approvals id) hrows.symm
  cases hdeed with
  | quiet hrows => exact hold approval (hsame hrows) rfl hdone
  | notified _ hrows => exact hold approval (hsame hrows) rfl hdone
  | wrote hwritten =>
      rcases hwritten.approval hrow with hbefore | ⟨-, hpending, -⟩ |
        ⟨before, dto, date, ownerId, taskId, hbefore, heq, hcall, hsaw⟩
      · exact hold approval hbefore rfl hdone
      · rw [hpending] at hdone
        cases hdone
      · have htask : before.taskId = approval.taskId := by rw [heq]; rfl
        by_cases hclosed : before.status = .APPROVED
        · exact hold before hbefore htask hclosed
        have happrove : dto.approve = true := by
          cases happrove : dto.approve with
          | true => rfl
          | false =>
              rw [heq, Approval.decided, happrove] at hdone
              cases hdone
        have howner : Saw thread.past fun g => g.ownerOf approval.taskId = some ownerId := by
          obtain ⟨visit, hvisit, ⟨asked, hstored, hsubject⟩, howner⟩ := hsaw
          have hagree : asked.taskId = before.taskId :=
            hF.tenanted.recorded.archive.approvals.agrees _ (hwithin visit hvisit).1 _ hhere id
              asked before hstored hbefore
          refine ⟨visit, hvisit, ?_⟩
          rw [← htask, ← hagree, hsubject]
          exact howner
        obtain ⟨g, hg, howns⟩ := hwithin.saw howner
        obtain ⟨input, hsubmitted⟩ := hF.tenanted.submitted hg howns
        refine ⟨ownerId, input, id, hsubmitted.advance hstep, List.mem_append_right _ ?_⟩
        have hevents : F.nodeEvents i =
            served.events (thread.past.map (·.1)) F.hub (F.resume i).hub := by
          unfold nodeEvents
          rw [hserved, hthread]
          rfl
        rw [hevents, Served.events_approved hcall happrove hbefore hclosed hrow hdone howner]
        exact List.mem_cons_self

/-- A decision that a node sends has the consent of the user. -/
theorem Consented.step_decided (hF : F.Consented env told seen) {i : ℕ}
    (hlive : F.pool.live i = true) {serverId : ServerId} {taskId : TaskId}
    {reason : Option JsString}
    (hsent : ⟨serverId, .APPROVAL_DECISION taskId true reason⟩ ∈ F.nodeEmissions i) :
    F.ConsentedTo F.trace taskId := by
  obtain ⟨served, thread, -, -, hwithin, hdeed⟩ := hF.tenanted.recorded.deed hlive
  rcases hdeed.sends with hsame | ⟨home, message, hreason, hemitted⟩
  · unfold nodeEmissions at hsent
    rw [hsame, List.drop_length] at hsent
    cases hsent
  · unfold nodeEmissions at hsent
    rw [hemitted, List.drop_left] at hsent
    cases List.mem_singleton.mp hsent
    generalize hmessage : DaemonOutbound.APPROVAL_DECISION taskId true reason = message at hreason
    cases hreason with
    | cancel => cases hmessage
    | submit => cases hmessage
    | @decision ownerId approvalId dto _ _ hcall hasked hstored =>
        obtain ⟨rfl, happrove, -⟩ := DaemonOutbound.APPROVAL_DECISION.inj hmessage
        obtain ⟨g, hg, approval, hrow, hstatus⟩ := hwithin.left hstored
        obtain ⟨g', hg', ⟨⟨asked, hrow', rfl⟩, -⟩, -⟩ := hwithin.saw hasked
        rw [← happrove] at hstatus
        have hagree : approval.taskId = asked.taskId :=
          hF.tenanted.recorded.archive.approvals.agrees g hg g' hg' approvalId approval asked
            hrow hrow'
        rw [← hagree]
        exact hF.approved g hg approvalId approval hrow hstatus

/-- A step that changes no runner, no message for a daemon and no approval. -/
theorem Consented.step_quiet (hF : F.Consented env told seen) (hstep : Advance env F F')
    (hdaemons : F'.daemons = F.daemons) (htrace : F'.trace = F.trace)
    (happrovals : F'.hub.approvals = F.hub.approvals) :
    F'.Consented env told (seen ++ [F'.hub]) := by
  refine hF.step_of hstep [] (by rw [htrace, List.append_nil])
    (fun d => hdaemons ▸ hF.wellFormed d) (fun id approval hrow hdone => ?_)
    (fun d taskId reason hmem => .inl (hdaemons ▸ hmem))
    (fun d serial taskId hwaiting => ⟨fun _ => List.not_mem_nil, .inl (hdaemons ▸ hwaiting)⟩)
    fun d serial taskId hmem => absurd hmem List.not_mem_nil
  rw [happrovals] at hrow
  rw [htrace, ← List.append_nil F.trace]
  exact (hF.approved _ hF.tenanted.recorded.archive.here id approval hrow hdone).advance hstep

/-- **Every step keeps to the consent of the users.** -/
theorem Consented.step (hF : F.Consented env told seen) {action : Action n}
    (henabled : F.enabled action) :
    (F.step env detectors action).Consented env told
      (seen ++ [(F.step env detectors action).hub]) := by
  have hstep : Advance env F (F.step env detectors action) := Fleet.advance henabled
  cases action with
  | call call => exact hF.step_quiet hstep rfl rfl rfl
  | drop socketId => exact hF.step_quiet hstep rfl rfl rfl
  | resume i =>
      refine hF.step_of hstep (F.nodeEvents i) rfl (fun d => ?_)
        (fun id approval hrow hdone => hF.step_approved henabled hrow hdone)
        (fun d taskId reason hmem => ?_)
        (fun d serial taskId hwaiting => ⟨fun other hmem => ?_, .inl hwaiting⟩)
        fun d serial taskId hmem => ?_
      · exact hF.wellFormed d
      · rcases DaemonClient.mem_hear_inbox hmem with hold | ⟨serverId, hsent, -⟩
        · exact .inl hold
        · exact .inr ((hF.step_decided henabled hsent).advance hstep)
      · exact nodeEvents_runner hmem
      · exact absurd hmem nodeEvents_runner
  | connect d =>
      refine hF.step_daemon hstep d ((F.daemons d).onConnect F.hub.sockets.next, []) rfl
        (List.append_nil _).symm rfl
        (DaemonClient.channelStep_wellFormed (hF.wellFormed d) (.connect F.hub.sockets.next)) ?_
        (answers_of_objects ?_)
      · unfold DaemonClient.onConnect
        rw [DaemonClient.flushBuffer_inbox]
        exact List.nil_subset _
      · unfold DaemonClient.onConnect
        rw [DaemonClient.flushBuffer_objects]
        exact fun _ _ h => h
  | disconnect d =>
      exact hF.step_daemon hstep d _ rfl rfl rfl (hF.wellFormed d) (fun _ h => nomatch h)
        (answers_of_objects fun _ _ h => h)
  | deliver d =>
      obtain ⟨socketId, message, client, htaken, hdef⟩ := deliver_some env detectors henabled
      rw [hdef] at hstep ⊢
      obtain ⟨-, hinbox, hobjects, hrunners, -⟩ := DaemonClient.takeOutgoing_some htaken
      refine hF.step_daemon hstep d (client, []) rfl (List.append_nil _).symm rfl ?_
        (hinbox ▸ fun _ h => h) (answers_of_objects (hobjects ▸ fun _ _ h => h))
      unfold DaemonClient.WellFormed
      rw [hrunners, hobjects]
      exact hF.wellFormed d
  | receive d outcome =>
      obtain ⟨message, client, htaken, hdef⟩ := receive_some env detectors henabled
      rw [hdef] at hstep ⊢
      obtain ⟨hinbox, -, hobjects, hrunners, -⟩ := DaemonClient.takeIncoming_some htaken
      have hwell : client.WellFormed := by
        unfold DaemonClient.WellFormed
        rw [hrunners, hobjects]
        exact hF.wellFormed d
      refine hF.step_daemon hstep d _ rfl rfl rfl
        (DaemonClient.onMessage_wellFormed hwell message) ?_ ?_
      · rw [DaemonClient.onMessage_inbox, hinbox]
        exact List.subset_cons_self _ _
      · refine DaemonClient.Answers.of_objects hobjects
          (DaemonClient.onMessage_answers hwell fun taskId reason heq => ?_)
        refine hF.decided d taskId reason ?_
        rw [hinbox, heq]
        exact List.mem_cons_self
  | heartbeat d =>
      refine hF.step_daemon hstep d _ rfl rfl rfl ?_ ?_ (answers_of_objects ?_)
      · unfold DaemonClient.heartbeat DaemonClient.WellFormed
        rw [DaemonClient.emit_runners, DaemonClient.emit_objects]
        exact hF.wellFormed d
      · unfold DaemonClient.heartbeat
        rw [DaemonClient.emit_inbox]
        exact fun _ h => h
      · unfold DaemonClient.heartbeat
        rw [DaemonClient.emit_objects]
        exact fun _ _ h => h
  | child d runner event =>
      refine hF.step_daemon hstep d _ rfl rfl rfl
        (DaemonClient.onChildEvent_wellFormed (hF.wellFormed d) event) ?_
        DaemonClient.onChildEvent_answers
      rw [DaemonClient.onChildEvent_inbox]
      exact fun _ h => h
  | restart d =>
      exact hF.step_daemon hstep d _ rfl rfl rfl nofun (fun _ h => nomatch h)
        (answers_of_objects fun _ _ h => (Option.filter_eq_some_iff.mp h).1)

/-! ## Runs -/

/-- A deployment at rest. -/
theorem Initial.consented (hstart : F.Initial) :
    F.Consented env F.hub.notified.length [F.hub] where
  tenanted := hstart.tenanted
  wellFormed d := by
    obtain ⟨apiKey, hinitial⟩ := hstart.daemons d
    rw [hinitial]
    exact DaemonClient.initial_wellFormed apiKey
  approved g hg id approval hrow := by
    rw [List.mem_singleton.mp hg, hstart.hub.approvals] at hrow
    cases hrow
  decided d taskId reason hmem := by
    obtain ⟨apiKey, hinitial⟩ := hstart.daemons d
    rw [hinitial] at hmem
    cases hmem
  waiting d serial taskId := by
    rintro ⟨runner, hrow, -⟩
    obtain ⟨apiKey, hinitial⟩ := hstart.daemons d
    rw [hinitial] at hrow
    cases hrow
  warranted := by
    rw [hstart.trace]
    exact warranted_nil

/-- The invariant of every run. -/
theorem Initial.consented_run (hstart : F.Initial) {actions : List (Action n)}
    (hruns : (fleetMachine n env detectors).Runs F actions) :
    ((fleetMachine n env detectors).exec F actions).Consented env F.hub.notified.length
      (((fleetMachine n env detectors).states F actions).map Fleet.hub) := by
  refine Machine.exec_history (I := fun seen F' => F'.Consented env F.hub.notified.length
    (seen.map Fleet.hub)) hstart.consented (fun seen F' action hF' henabled => ?_) hruns
  rw [List.map_append]
  exact hF'.step henabled

/-- **No prompt is answered without consent**: whatever is interleaved, lost or repeated, when a
runner of a task answers its child, the user who submitted the task has approved an approval of
that task before, and the runner has asked since it started and since it answered last. -/
theorem resumes_consented {F : Fleet n} (hstart : F.Initial) {actions : List (Action n)}
    (hruns : (fleetMachine n env detectors).Runs F actions) {before after : List (Event n)}
    {d : Fin n} {serial : ℕ} {taskId : TaskId}
    (htrace : ((fleetMachine n env detectors).exec F actions).trace =
      before ++ .runner d (.resumed serial taskId) :: after) :
    ((fleetMachine n env detectors).exec F actions).ConsentedTo before taskId ∧
      HasAsked before d serial taskId :=
  (hstart.consented_run hruns).warranted before _ after htrace d serial taskId rfl

/-- A program all of whose output is a prompt. -/
def eager : Detectors := ⟨fun _ => some [], fun _ _ _ => none⟩

/-- The task of `sampleDispatch` prompts, and user 0 approves. -/
def samplePrompt : List (Action 1) :=
  sampleDispatch ++ [.receive soleDaemon .process, .child soleDaemon 0 (.data []),
    .deliver soleDaemon, .deliver soleDaemon, .deliver soleDaemon] ++
    List.replicate 4 (.resume 5) ++
    .call (.decideApproval 0 0 ⟨true, none⟩) :: List.replicate 7 (.resume 6) ++
    [.receive soleDaemon .process]

theorem resumes_consented_once :
    ((fleetMachine 1 Env.sample eager).exec sample samplePrompt).ConsentedTo
        [.runner 0 (.started 0 0), .runner 0 (.requested 0 0 (some [])), .opened 0 0 (some []) 0 0,
          .approved 0 0 0] 0 ∧
      HasAsked (n := 1) [.runner 0 (.started 0 0), .runner 0 (.requested 0 0 (some [])),
        .opened 0 0 (some []) 0 0, .approved 0 0 0] 0 0 0 :=
  resumes_consented sample_initial (by decide) (show _ = _ ++ _ :: [] by decide)

end Fleet

end CodeCaller
