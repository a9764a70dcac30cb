import CodeCaller.Daemon.Records
import CodeCaller.Fleet.Consent
import CodeCaller.Fleet.Execution

/-!
# The accounts of a fleet

What the app shows of a task is what has come back from the daemons, over a connection that breaks
and handlers that are interleaved.  Here it is traced to its source: an approval is there because a
runner that was started for the task has asked for it, with the reason it gave; a task is completed
because the child of such a runner has left with the code 0; a task is cancelled because the user
who submitted it has called for that.  Nothing is made up on the way.

### The pieces

* `Accounted`: what an event of the trace needs before it.
* `Earned`: what a status needs.
* `OnRecord`: the invariant.  What is said is on the record from the moment a runner says it: in
  its daemon, under way, in the call that handles it, and in the rows.
* `Daemon.Records` is the part about one daemon; here it is carried through the Hub by the deeds:
  `Write.status` and `Write.approval_opened` give the reason of a write, and `OnRecord.earned` and
  `OnRecord.requested` what the reason is worth.

### Main results

`trace_accounted` and `statuses_earned`, for every run.  They hold although results may be
attributed to the wrong attempt and approvals may be out of step with their tasks: a status that is
wrong for an attempt was still reported by a runner of the task.
-/

namespace CodeCaller

open Async

variable {n : ℕ} {env : Env} {detectors : Detectors} {F F' : Fleet n} {seen : List Hub}
  {actions : List (Action n)}

/-! ## What the rows say -/

/-- An approval after a write was there, unless it was decided, or is a request of a daemon. -/
theorem Write.approval_opened {call : HubCall} {past : Past} {r r' : Rows}
    (hw : Write env call past r r') {id : ApprovalId} {approval' : Approval}
    (hrow : r'.approvals id = some approval') :
    (∃ approval, r.approvals id = some approval ∧ approval.taskId = approval'.taskId ∧
        (approval'.decidedAt = none → approval = approval')) ∨
      id = r.approvals.next ∧ ∃ socketId payload,
        call = .message socketId (.APPROVAL_REQUEST payload) ∧
        payload.taskId = .id approval'.taskId ∧ approval'.reason = payload.reason := by
  have hkept : r.approvals id = some approval' → ∃ approval, r.approvals id = some approval ∧
      approval.taskId = approval'.taskId ∧ (approval'.decidedAt = none → approval = approval') :=
    fun hold => ⟨approval', hold, rfl, fun _ => rfl⟩
  cases hw with
  | serverDeleted => exact .inl (hkept (Option.filter_eq_some_iff.mp hrow).1)
  | approvalCreated hcall hid hreason =>
      rw [Table.insert_apply] at hrow
      split at hrow
      · next heq =>
        cases hrow
        exact .inr ⟨heq, _, _, hcall, hid, hreason⟩
      · exact .inl (hkept hrow)
  | approvalDecided =>
      rw [Table.modify_apply] at hrow
      split at hrow
      · next heq =>
        subst heq
        obtain ⟨approval, hbefore, rfl⟩ := Option.map_eq_some_iff.mp hrow
        exact .inl ⟨approval, hbefore, rfl, nofun⟩
      · exact .inl (hkept hrow)
  | _ => exact .inl (hkept hrow)

/-- **A task after a write has the status it had**, is new, or has a reason for its status. -/
theorem Write.status {call : HubCall} {past : Past} {r r' : Rows}
    (hw : Write env call past r r') {taskId : TaskId} {task' : Task}
    (hrow : r'.tasks taskId = some task') :
    (∃ task, r.tasks taskId = some task ∧ task.status = task'.status) ∨
      task'.status = .QUEUED ∨ StatusReason call past taskId task'.status := by
  have hkept : r.tasks taskId = some task' → ∃ task, r.tasks taskId = some task ∧
      task.status = task'.status := fun hold => ⟨task', hold, rfl⟩
  cases hw with
  | serverDeleted => exact .inl (hkept (Option.filter_eq_some_iff.mp hrow).1)
  | taskCreated _ _ _ _ _ hstatus =>
      rw [Table.insert_apply] at hrow
      split at hrow
      · cases hrow
        exact .inr (.inl hstatus)
      · exact .inl (hkept hrow)
  | taskWritten _ _ hstatus =>
      rw [Table.modify_apply] at hrow
      split at hrow
      · next heq =>
        subst heq
        obtain ⟨task, hbefore, rfl⟩ := Option.map_eq_some_iff.mp hrow
        rcases hstatus task with hsame | hreason
        · exact .inl ⟨task, hbefore, hsame.symm⟩
        · exact .inr (.inr hreason)
      · exact .inl (hkept hrow)
  | taskMoved _ _ _ _ hstatus =>
      rw [Table.modify_apply] at hrow
      split at hrow
      · next heq =>
        subst heq
        obtain ⟨task, -, rfl⟩ := Option.map_eq_some_iff.mp hrow
        exact .inr (.inr (hstatus task))
      · exact .inl (hkept hrow)
  | _ => exact .inl (hkept hrow)

/-! ## Accounts -/

namespace Fleet

/-- A child of a daemon has left with the code 0. -/
def Exited (actions : List (Action n)) (d : Fin n) (serial : ℕ) : Prop :=
  ∃ signal, .child d serial (.close (some 0) signal) ∈ actions

/-- **An event is accounted for** by the events before it: a runner is started for a task that is
entrusted to its daemon, and does nothing before; an approval is opened by a request of a runner
for its task, with its reason; and it is approved by the user who submitted the task. -/
def Accounted (env : Env) (actions : List (Action n)) (seen : List Hub) (F : Fleet n)
    (before : List (Event n)) : Event n → Prop
  | .runner d event =>
    event.Backed (fun serial taskId => .runner d (.started serial taskId) ∈ before)
        (Exited actions d) ∧
      ∀ serial taskId, event = .started serial taskId → ∃ input, F.Entrusted env seen d taskId input
  | .opened _ taskId reason d serial => .runner d (.requested serial taskId reason) ∈ before
  | .approved ownerId approvalId taskId =>
    (∃ reason d serial, .opened approvalId taskId reason d serial ∈ before) ∧
      ∃ input, F.SubmittedBy taskId ownerId input

/-- An approval was opened, and shows the reason it was opened with until it is decided. -/
def Opened (F : Fleet n) (id : ApprovalId) (approval : Approval) : Prop :=
  ∃ reason d serial, .opened id approval.taskId reason d serial ∈ F.trace ∧
    (approval.decidedAt = none → approval.reason = reason)

/-- A request of a user that ends a task: to cancel it, or to reject an approval of it. -/
def Ends (F : Fleet n) (ownerId : UserId) (taskId : TaskId) : HubCall → Prop
  | .cancel owner other => owner = ownerId ∧ other = taskId
  | .decideApproval owner approvalId dto => owner = ownerId ∧ dto.approve = false ∧
      ∃ reason d serial, .opened approvalId taskId reason d serial ∈ F.trace
  | _ => False

/-- **A status is earned** by what has happened to the task. -/
def Earned (F : Fleet n) (taskId : TaskId) : TaskStatus → Prop
  | .COMPLETED => ∃ d serial, .runner d (.reported serial taskId (.status .COMPLETED)) ∈ F.trace
  | .AWAITING_APPROVAL => ∃ d serial reason, .runner d (.requested serial taskId reason) ∈ F.trace
  | .CANCELLED => ∃ ownerId input, F.SubmittedBy taskId ownerId input ∧
      ∃ served ∈ F.calls, F.Ends ownerId taskId served.call
  | .QUEUED | .RUNNING | .FAILED => True

/-- **The accounts of a run**: whatever is said, on its way or in the rows, is on the record. -/
structure OnRecord (env : Env) (told : ℕ) (actions : List (Action n)) (seen : List Hub)
    (F : Fleet n) : Prop where
  trusted : F.Trusted env told seen
  unsent : ∀ d, ∀ sent ∈ (F.daemons d).unsent, sent.OnRecord fun event => .runner d event ∈ F.trace
  calls : ∀ served ∈ F.calls, ∀ socketId inbound, served.call = .message socketId inbound →
    ∃ (d : Fin n) (sent : Outgoing), served.origin = sent.runner.map (fun runner => (d, runner)) ∧
      sent.inbound = inbound ∧ sent.OnRecord fun event => .runner d event ∈ F.trace
  started : ∀ d serial taskId, (F.daemons d).Holds serial taskId →
    .runner d (.started serial taskId) ∈ F.trace
  accounted : Warranted (F.Accounted env actions seen) F.trace
  opened : ∀ g ∈ seen, ∀ id approval, g.approvals id = some approval → F.Opened id approval
  statuses : ∀ g ∈ seen, ∀ taskId task, g.tasks taskId = some task → F.Earned taskId task.status

/-! ## What stays -/

section Advance

variable {later : List Hub} {more : List (Event n)} {moreActions : List (Action n)}

/-- What an event is accounted for by stays, whatever comes after. -/
theorem Accounted.advance {before : List (Event n)} {e : Event n}
    (h : F.Accounted env actions seen before e) (hstep : Advance env F F')
    (hkeys : ∀ d, (F'.daemons d).apiKey = (F.daemons d).apiKey) (hgrows : seen ⊆ later)
    (hactions : actions ⊆ moreActions) : F'.Accounted env moreActions later before e := by
  cases e with
  | runner d event =>
      refine ⟨?_, fun serial taskId heq => ?_⟩
      · cases event with
        | started serial taskId => trivial
        | requested serial taskId reason => exact h.1
        | resumed serial taskId => exact h.1
        | reported serial taskId status =>
            refine ⟨h.1.1, h.1.2.imp_right (And.imp_right ?_)⟩
            rintro ⟨signal, hexited⟩
            exact ⟨signal, hactions hexited⟩
      · obtain ⟨input, hentrusted⟩ := h.2 serial taskId heq
        exact ⟨input, hentrusted.advance hstep (hkeys d) hgrows⟩
  | opened approvalId taskId reason d serial => exact h
  | approved ownerId approvalId taskId =>
      obtain ⟨hopened, input, hsubmitted⟩ := h
      exact ⟨hopened, input, hsubmitted.advance hstep⟩

theorem Opened.advance {id : ApprovalId} {approval : Approval} (h : F.Opened id approval)
    (htrace : F'.trace = F.trace ++ more) : F'.Opened id approval := by
  obtain ⟨reason, d, serial, hmem, hreason⟩ := h
  exact ⟨reason, d, serial, htrace ▸ List.mem_append_left _ hmem, hreason⟩

theorem Ends.advance {ownerId : UserId} {taskId : TaskId} {call : HubCall}
    (h : F.Ends ownerId taskId call) (htrace : F'.trace = F.trace ++ more) :
    F'.Ends ownerId taskId call := by
  cases call with
  | cancel owner other => exact h
  | decideApproval owner approvalId dto =>
      obtain ⟨howner, hreject, reason, d, serial, hmem⟩ := h
      exact ⟨howner, hreject, reason, d, serial, htrace ▸ List.mem_append_left _ hmem⟩
  | _ => exact h.elim

/-- A status that is earned stays so. -/
theorem Earned.advance {taskId : TaskId} {status : TaskStatus} (h : F.Earned taskId status)
    (hstep : Advance env F F') (htrace : F'.trace = F.trace ++ more) :
    F'.Earned taskId status := by
  cases status with
  | COMPLETED =>
      obtain ⟨d, serial, hmem⟩ := h
      exact ⟨d, serial, htrace ▸ List.mem_append_left _ hmem⟩
  | AWAITING_APPROVAL =>
      obtain ⟨d, serial, reason, hmem⟩ := h
      exact ⟨d, serial, reason, htrace ▸ List.mem_append_left _ hmem⟩
  | CANCELLED =>
      obtain ⟨ownerId, input, hsubmitted, served, hserved, hends⟩ := h
      obtain ⟨i, hi⟩ := List.mem_iff_getElem?.mp hserved
      exact ⟨ownerId, input, hsubmitted.advance hstep, served,
        List.mem_of_getElem? (hstep.call hi), hends.advance htrace⟩
  | QUEUED => trivial
  | RUNNING => trivial
  | FAILED => trivial

end Advance

/-- What an event is accounted for by may be followed by more. -/
theorem Accounted.longer {before before' : List (Event n)} {e : Event n}
    (h : F.Accounted env actions seen before e) (hsub : before ⊆ before') :
    F.Accounted env actions seen before' e := by
  cases e with
  | runner d event => exact ⟨h.1.mono fun _ _ hmem => hsub hmem, h.2⟩
  | opened approvalId taskId reason d serial => exact hsub h
  | approved ownerId approvalId taskId =>
      obtain ⟨⟨reason, d, serial, hmem⟩, hsubmitted⟩ := h
      exact ⟨⟨reason, d, serial, hsub hmem⟩, hsubmitted⟩

/-! ## Steps -/

variable {told : ℕ}

/-- **The rule for a step**: what it adds to the trace, to what is said and to the rows. -/
theorem OnRecord.step_of (hF : F.OnRecord env told actions seen) {action : Action n}
    (hstep : Advance env F F') (htrusted : F'.Trusted env told (seen ++ [F'.hub]))
    (hkeys : ∀ d, (F'.daemons d).apiKey = (F.daemons d).apiKey) (more : List (Event n))
    (htrace : F'.trace = F.trace ++ more)
    (hunsent : ∀ d, ∀ sent ∈ (F'.daemons d).unsent, sent ∈ (F.daemons d).unsent ∨
      sent.OnRecord fun event => .runner d event ∈ more)
    (hcalls : ∀ served ∈ F'.calls, served ∈ F.calls ∨
      ∀ socketId inbound, served.call = .message socketId inbound →
        ∃ d, ∃ sent ∈ (F.daemons d).unsent,
          served.origin = sent.runner.map (fun runner => (d, runner)) ∧ sent.inbound = inbound)
    (hholds : ∀ d serial taskId, (F'.daemons d).Holds serial taskId →
      (F.daemons d).Holds serial taskId ∨ .runner d (.started serial taskId) ∈ more)
    (hmore : ∀ before e after, more = before ++ e :: after →
      F'.Accounted env (actions ++ [action]) (seen ++ [F'.hub]) (F.trace ++ before) e)
    (hopened : ∀ id approval, F'.hub.approvals id = some approval →
      (∃ before, F.hub.approvals id = some before ∧ before.taskId = approval.taskId ∧
        (approval.decidedAt = none → before = approval)) ∨ F'.Opened id approval)
    (hstatus : ∀ taskId task, F'.hub.tasks taskId = some task →
      (∃ before, F.hub.tasks taskId = some before ∧ before.status = task.status) ∨
        F'.Earned taskId task.status) :
    F'.OnRecord env told (actions ++ [action]) (seen ++ [F'.hub]) := by
  have hhere := hF.trusted.tenanted.recorded.archive.here
  have hold : ∀ {d : Fin n} {event : RunnerEvent}, .runner d event ∈ F.trace →
      .runner d event ∈ F'.trace := fun hmem => htrace ▸ List.mem_append_left _ hmem
  have hnew : ∀ {d : Fin n} {event : RunnerEvent}, .runner d event ∈ more →
      .runner d event ∈ F'.trace := fun hmem => htrace ▸ List.mem_append_right _ hmem
  refine ⟨htrusted, fun d sent hmem => ?_, fun served hserved socketId inbound hcall => ?_,
    fun d serial taskId hheld => ?_, ?_, fun g hg id approval hrow => ?_,
    fun g hg taskId task hrow => ?_⟩
  · rcases hunsent d sent hmem with hbefore | hsaid
    · exact (hF.unsent d sent hbefore).mono fun _ => hold
    · exact hsaid.mono fun _ => hnew
  · rcases hcalls served hserved with hbefore | hcame
    · obtain ⟨d, sent, horigin, hinbound, hsaid⟩ := hF.calls served hbefore socketId inbound hcall
      exact ⟨d, sent, horigin, hinbound, hsaid.mono fun _ => hold⟩
    · obtain ⟨d, sent, hmem, horigin, hinbound⟩ := hcame socketId inbound hcall
      exact ⟨d, sent, horigin, hinbound, (hF.unsent d sent hmem).mono fun _ => hold⟩
  · rcases hholds d serial taskId hheld with hbefore | hstarted
    · exact hold (hF.started d serial taskId hbefore)
    · exact hnew hstarted
  · rw [htrace]
    refine (hF.accounted.mono fun before e h => ?_).append hmore
    exact h.advance hstep hkeys (List.subset_append_left _ _) (List.subset_append_left _ _)
  · rcases List.mem_append.mp hg with hbefore | hlast
    · exact (hF.opened g hbefore id approval hrow).advance htrace
    rw [List.mem_singleton.mp hlast] at hrow
    rcases hopened id approval hrow with ⟨before, hbefore, hsame, hkept⟩ | hopen
    · obtain ⟨reason, d, serial, hmem, hreason⟩ :=
        (hF.opened _ hhere id before hbefore).advance htrace
      refine ⟨reason, d, serial, hsame ▸ hmem, fun hundecided => ?_⟩
      have heq := hkept hundecided
      rw [heq] at hreason
      exact hreason hundecided
    · exact hopen
  · rcases List.mem_append.mp hg with hbefore | hlast
    · exact (hF.statuses g hbefore taskId task hrow).advance hstep htrace
    rw [List.mem_singleton.mp hlast] at hrow
    rcases hstatus taskId task hrow with ⟨before, hbefore, hsame⟩ | hearned
    · rw [← hsame]
      exact (hF.statuses _ hhere taskId before hbefore).advance hstep htrace
    · exact hearned

/-- A step of a daemon that is on its record. -/
theorem OnRecord.step_daemon (hF : F.OnRecord env told actions seen) {action : Action n}
    (hstep : Advance env F F') (htrusted : F'.Trusted env told (seen ++ [F'.hub])) (d : Fin n)
    (next : DaemonClient × List RunnerEvent) (exited : ℕ → Prop)
    (hdaemons : F'.daemons = Function.update F.daemons d next.1)
    (hkey : next.1.apiKey = (F.daemons d).apiKey)
    (htrace : F'.trace = F.trace ++ next.2.map (.runner d))
    (hrows : F'.hub.approvals = F.hub.approvals ∧ F'.hub.tasks = F.hub.tasks)
    (hcalls : ∀ served ∈ F'.calls, served ∈ F.calls ∨
      ∀ socketId inbound, served.call = .message socketId inbound → ∃ sent ∈ (F.daemons d).unsent,
        served.origin = sent.runner.map (fun runner => (d, runner)) ∧ sent.inbound = inbound)
    (hexited : ∀ serial, exited serial → Exited (actions ++ [action]) d serial)
    (hrecords : (F.daemons d).Records exited next) :
    F'.OnRecord env told (actions ++ [action]) (seen ++ [F'.hub]) := by
  have hmap : ∀ {event : RunnerEvent}, event ∈ next.2 →
      Event.runner d event ∈ next.2.map (Event.runner d) := fun hmem => List.mem_map_of_mem hmem
  refine hF.step_of hstep htrusted (fun other => ?_) _ htrace (fun other sent hmem => ?_)
    (fun served hserved => (hcalls served hserved).imp_right fun h socketId inbound hcall =>
      ⟨d, h socketId inbound hcall⟩)
    (fun other serial taskId hheld => ?_) (fun before e after heq => ?_)
    (fun id approval hrow => .inl ?_) fun taskId task hrow => .inl ?_
  · rw [hdaemons, Function.update_apply]
    split
    · next heq => rw [heq, hkey]
    · rfl
  · rw [hdaemons, Function.update_apply] at hmem
    split at hmem
    · next heq =>
      subst heq
      exact (hrecords.sends sent hmem).imp_right fun hsaid => hsaid.mono fun _ => hmap
    · exact .inl hmem
  · rw [hdaemons, Function.update_apply] at hheld
    split at hheld
    · next heq =>
      subst heq
      exact (hrecords.holds serial taskId hheld).imp_right hmap
    · exact .inl hheld
  · obtain ⟨before', rest, hnext, rfl, hrest⟩ := List.map_eq_append_iff.mp heq
    obtain ⟨event, after', rfl, rfl, -⟩ := List.map_eq_cons_iff.mp hrest
    refine ⟨?_, fun serial taskId hstarted => ?_⟩
    · have hbacked := hrecords.backed before' event after' hnext
      have hstarted : ∀ serial taskId,
          (F.daemons d).Holds serial taskId ∨ .started serial taskId ∈ before' →
          .runner d (.started serial taskId) ∈ F.trace ++ before'.map (.runner d) :=
        fun serial taskId h => h.elim
          (fun hheld => List.mem_append_left _ (hF.started d serial taskId hheld))
          fun hmem => List.mem_append_right _ (List.mem_map_of_mem hmem)
      cases event with
      | started serial taskId => trivial
      | requested serial taskId reason => exact hstarted serial taskId hbacked
      | resumed serial taskId => exact hstarted serial taskId hbacked
      | reported serial taskId status =>
          refine ⟨hstarted serial taskId hbacked.1, hbacked.2.imp_right (And.imp_right ?_)⟩
          exact hexited serial
    · have hmem : .started serial taskId ∈ next.2 := by
        rw [hnext, ← hstarted]
        exact List.mem_append_right _ List.mem_cons_self
      obtain ⟨runner, hrow, rfl⟩ := hrecords.started serial taskId hmem
      refine ⟨runner.input, (htrusted.daemons d).objects serial runner ?_⟩
      rw [hdaemons, Function.update_self]
      exact hrow
  · rw [hrows.1] at hrow
    exact ⟨approval, hrow, rfl, fun _ => rfl⟩
  · rw [hrows.2] at hrow
    exact ⟨task, hrow, rfl⟩

/-- A step in which no daemon takes part, and no row changes. -/
theorem OnRecord.step_quiet (hF : F.OnRecord env told actions seen) {action : Action n}
    (hstep : Advance env F F') (htrusted : F'.Trusted env told (seen ++ [F'.hub]))
    (hdaemons : F'.daemons = F.daemons) (htrace : F'.trace = F.trace) (hhub : F'.hub = F.hub)
    (hcalls : ∀ served ∈ F'.calls, served ∈ F.calls ∨
      ∀ socketId inbound, served.call ≠ .message socketId inbound) :
    F'.OnRecord env told (actions ++ [action]) (seen ++ [F'.hub]) := by
  refine hF.step_of hstep htrusted (fun d => by rw [hdaemons]) []
    (by rw [htrace, List.append_nil]) (fun d sent hmem => .inl (hdaemons ▸ hmem))
    (fun served hserved => (hcalls served hserved).imp_right fun h socketId inbound hcall =>
      absurd hcall (h socketId inbound))
    (fun d serial taskId hheld => .inl (hdaemons ▸ hheld)) (fun before e after heq => ?_)
    (fun id approval hrow => .inl ?_) fun taskId task hrow => .inl ?_
  · exact absurd heq.symm (List.append_ne_nil_of_right_ne_nil before (List.cons_ne_nil _ _))
  · exact ⟨approval, hhub ▸ hrow, rfl, fun _ => rfl⟩
  · exact ⟨task, hhub ▸ hrow, rfl⟩

/-! ## Nodes of a call -/

/-- What a message says was on record when it was sent. -/
theorem OnRecord.requested (hF : F.OnRecord env told actions seen) {served : Served n}
    (hserved : served ∈ F.calls) {socketId : ℕ} {payload : DaemonApprovalRequestPayload}
    (hcall : served.call = .message socketId (.APPROVAL_REQUEST payload)) :
    ∃ d serial taskId, served.origin = some (d, serial) ∧ payload.taskId = .id taskId ∧
      .runner d (.requested serial taskId payload.reason) ∈ F.trace := by
  obtain ⟨d, sent, horigin, hinbound, hsaid⟩ := hF.calls served hserved _ _ hcall
  unfold Outgoing.OnRecord at hsaid
  rw [hinbound] at hsaid
  obtain ⟨serial, taskId, hrunner, hid, hmem⟩ := hsaid
  rw [hrunner] at horigin
  exact ⟨d, serial, taskId, horigin, hid, hmem⟩

/-- A report names a status that the runner has earned. -/
theorem OnRecord.reported (hF : F.OnRecord env told actions seen) {served : Served n}
    (hserved : served ∈ F.calls) {socketId : ℕ} {inbound : DaemonInbound} {taskId : TaskId}
    {status : TaskStatus} (hcall : served.call = .message socketId inbound)
    (hreports : served.call.reports = some (.id taskId))
    (hstatus : inbound.status = .status status) : F.Earned taskId status := by
  obtain ⟨d, sent, -, hinbound, hsaid⟩ := hF.calls served hserved _ _ hcall
  unfold Outgoing.OnRecord at hsaid
  rw [hinbound] at hsaid
  rw [hcall] at hreports
  cases inbound with
  | HEARTBEAT => cases hstatus
  | TASK_LOG payload => cases hstatus
  | APPROVAL_REQUEST payload => cases hstatus
  | TASK_STATUS_UPDATE payload =>
      cases hsaid.symm.trans hstatus
      trivial
  | TASK_RESULT payload =>
      obtain ⟨serial, about, -, hid, hmem⟩ := hsaid
      cases hid.symm.trans (Option.some.inj hreports)
      obtain ⟨before, -, ⟨-, hbacked⟩, -⟩ := hF.accounted.of_mem hmem
      have hnames : payload.status = .status status := hstatus
      rw [hnames] at hbacked hmem
      rcases hbacked with hfailed | ⟨hcompleted, -⟩
      · cases hfailed
        trivial
      · cases hcompleted
        exact ⟨d, serial, hmem⟩

/-- **A status with a reason is earned.** -/
theorem OnRecord.earned (hF : F.OnRecord env told actions seen) {served : Served n}
    (hserved : served ∈ F.calls) {past : Past} (hwithin : Within past seen) {taskId : TaskId}
    {status : TaskStatus} (hreason : StatusReason served.call past taskId status) :
    F.Earned taskId status := by
  cases hreason with
  | reported hcall hreports hstatus => exact hF.reported hserved hcall hreports hstatus
  | asked hcall hid =>
      obtain ⟨d, serial, about, -, habout, hmem⟩ := hF.requested hserved hcall
      cases habout.symm.trans hid
      exact ⟨d, serial, _, hmem⟩
  | @decided ownerId approvalId dto hcall hasked =>
      cases happrove : dto.approve with
      | true => trivial
      | false =>
          obtain ⟨g, hg, ⟨approval, hrow, rfl⟩, howner⟩ := hwithin.saw hasked
          obtain ⟨input, hsubmitted⟩ := hF.trusted.tenanted.submitted hg howner
          obtain ⟨reason, d, serial, hmem, -⟩ := hF.opened g hg approvalId approval hrow
          refine ⟨ownerId, input, hsubmitted, served, hserved, ?_⟩
          rw [hcall]
          exact ⟨rfl, happrove, reason, d, serial, hmem⟩
  | @cancelled ownerId hcall howner =>
      obtain ⟨g, hg, howner⟩ := hwithin.saw howner
      obtain ⟨input, hsubmitted⟩ := hF.trusted.tenanted.submitted hg howner
      refine ⟨ownerId, input, hsubmitted, served, hserved, ?_⟩
      rw [hcall]
      exact ⟨rfl, rfl⟩
  | placed hcall => trivial
  | returned hown hstatus => rcases hstatus with rfl | rfl <;> trivial

end Fleet

/-- An event of a call is the opening of a new approval, or an approval by the owner. -/
theorem Served.mem_events {served : Served n} {before : List Hub} {h h' : Hub} {e : Event n}
    (hmem : e ∈ served.events before h h') :
    (∃ socketId payload d serial approval,
        served.call = .message socketId (.APPROVAL_REQUEST payload) ∧
        served.origin = some (d, serial) ∧ h'.approvals h.approvals.next = some approval ∧
        e = .opened h.approvals.next approval.taskId approval.reason d serial) ∨
      ∃ ownerId approvalId approval approval', h.approvals approvalId = some approval ∧
        h'.approvals approvalId = some approval' ∧
        (∃ g ∈ before, g.ownerOf approval'.taskId = some ownerId) ∧
        e = .approved ownerId approvalId approval'.taskId := by
  unfold Served.events at hmem
  split at hmem
  · next d serial hcall horigin =>
    split at hmem
    · next id approval hcreated =>
      obtain ⟨created, hrow, heq⟩ := Option.map_eq_some_iff.mp hcreated
      cases heq
      exact .inl ⟨_, _, d, serial, approval, hcall, horigin, hrow, List.mem_singleton.mp hmem⟩
    · cases hmem
  · next ownerId approvalId dto hcall =>
    split at hmem
    · next taskId happroved =>
      split at hmem
      · next hdone =>
        unfold approvedTask at happroved
        split at happroved
        · next approval approval' hbefore hafter =>
          split at happroved
          · cases happroved
            obtain ⟨-, hany⟩ := Bool.and_eq_true_iff.mp hdone
            obtain ⟨g, hg, howner⟩ := List.any_eq_true.mp hany
            exact .inr ⟨ownerId, approvalId, approval, approval', hbefore, hafter,
              ⟨g, hg, beq_iff_eq.mp howner⟩, List.mem_singleton.mp hmem⟩
          · cases happroved
        · cases happroved
      · cases hmem
    · cases hmem
  · cases hmem

/-- An approval that is new is recorded, with the runner whose request opened it. -/
theorem Served.events_opened {served : Served n} {before : List Hub} {h h' : Hub} {socketId : ℕ}
    {payload : DaemonApprovalRequestPayload} {d : Fin n} {serial : ℕ} {approval : Approval}
    (hcall : served.call = .message socketId (.APPROVAL_REQUEST payload))
    (horigin : served.origin = some (d, serial))
    (hrow : h'.approvals h.approvals.next = some approval) :
    served.events before h h' =
      [.opened h.approvals.next approval.taskId approval.reason d serial] := by
  have hcreated : createdApproval h h' = some (h.approvals.next, approval) := by
    unfold createdApproval
    rw [hrow]
    rfl
  unfold Served.events
  rw [hcall, horigin]
  simp only [hcreated]

namespace Fleet

/-- An approval that a deed has brought is one its call asks for. -/
theorem OnRecord.step_opened (hF : F.OnRecord env told actions seen) {i : ℕ}
    (hlive : F.pool.live i = true) {id : ApprovalId} {approval : Approval}
    (hrow : (F.resume i).hub.approvals id = some approval) :
    (∃ before, F.hub.approvals id = some before ∧ before.taskId = approval.taskId ∧
        (approval.decidedAt = none → before = approval)) ∨
      id = F.hub.approvals.next ∧ ∃ d serial,
        F.nodeEvents i = [.opened id approval.taskId approval.reason d serial] ∧
        .runner d (.requested serial approval.taskId approval.reason) ∈ F.trace := by
  obtain ⟨served, thread, hserved, hthread, -, hdeed⟩ :=
    hF.trusted.tenanted.recorded.deed hlive
  have hsame : (F.resume i).hub.rows = F.hub.rows → F.hub.approvals id = some approval :=
    fun hrows => by
      rw [← hrow]
      exact congrArg (·.approvals id) hrows.symm
  cases hdeed with
  | quiet hrows => exact .inl ⟨approval, hsame hrows, rfl, fun _ => rfl⟩
  | notified _ hrows => exact .inl ⟨approval, hsame hrows, rfl, fun _ => rfl⟩
  | wrote hwritten =>
      rcases hwritten.approval_opened hrow with hold |
        ⟨rfl, socketId, payload, hcall, hid, hreason⟩
      · exact .inl hold
      · obtain ⟨d, serial, taskId, horigin, habout, hmem⟩ :=
          hF.requested (List.mem_of_getElem? hserved) hcall
        cases habout.symm.trans hid
        refine .inr ⟨rfl, d, serial, ?_, hreason ▸ hmem⟩
        have hevents : F.nodeEvents i =
            served.events (thread.past.map (·.1)) F.hub (F.resume i).hub := by
          unfold nodeEvents
          rw [hserved, hthread]
          rfl
        rw [hevents]
        exact Served.events_opened hcall horigin hrow

/-- What a node adds to the trace is accounted for. -/
theorem OnRecord.step_accounted (hF : F.OnRecord env told actions seen) {i : ℕ}
    (hlive : F.pool.live i = true) {e : Event n} (hmem : e ∈ F.nodeEvents i) :
    F.Accounted env actions seen F.trace e := by
  obtain ⟨served, thread, hserved, hthread, hwithin, -⟩ :=
    hF.trusted.tenanted.recorded.deed hlive
  have hrecorded := hF.trusted.tenanted.recorded
  have hevents : F.nodeEvents i =
      served.events (thread.past.map (·.1)) F.hub (F.resume i).hub := by
    unfold nodeEvents
    rw [hserved, hthread]
    rfl
  rw [hevents] at hmem
  rcases Served.mem_events hmem with ⟨socketId, payload, d, serial, approval, -, -, hrow, rfl⟩ |
    ⟨ownerId, approvalId, approval, approval', hbefore, hafter, ⟨g, hg, howner⟩, rfl⟩
  · rcases hF.step_opened hlive hrow with ⟨before, hbefore, -⟩ | ⟨-, d', serial', hone, hasked⟩
    · exact absurd (Table.lt_next hbefore) (lt_irrefl _)
    · rw [← hevents, hone] at hmem
      cases List.mem_singleton.mp hmem
      exact hasked
  · obtain ⟨visit, hvisit, rfl⟩ := List.mem_map.mp hg
    have hsame : approval.taskId = approval'.taskId := by
      rcases hF.step_opened hlive hafter with ⟨before, hold, hsame, -⟩ | ⟨rfl, -⟩
      · rw [hbefore] at hold
        cases hold
        exact hsame
      · exact absurd (Table.lt_next hbefore) (lt_irrefl _)
    obtain ⟨reason, d, serial, hopened, -⟩ :=
      hF.opened _ hrecorded.archive.here approvalId approval hbefore
    exact ⟨⟨reason, d, serial, hsame ▸ hopened⟩,
      hF.trusted.tenanted.submitted (hwithin visit hvisit).1 howner⟩

/-- **A node of a call keeps the accounts.** -/
theorem OnRecord.step_resume (hF : F.OnRecord env told actions seen) {i : ℕ}
    (hlive : F.pool.live i = true)
    (htrusted : (F.resume i).Trusted env told (seen ++ [(F.resume i).hub])) :
    (F.resume i).OnRecord env told (actions ++ [.resume i]) (seen ++ [(F.resume i).hub]) := by
  have hstep : Advance env F (F.resume i) := .resumed i hlive rfl
  have hline : ∀ d, ((F.daemons d).hear F.hub (F.nodeEmissions i)).line = (F.daemons d).line :=
    fun d => DaemonClient.hear_line _
  have hkeys : ∀ d, ((F.resume i).daemons d).apiKey = (F.daemons d).apiKey := fun d =>
    congrArg Prod.fst (hline d)
  refine hF.step_of hstep htrusted hkeys (F.nodeEvents i) rfl (fun d sent hmem => .inl ?_)
    (fun _ hserved => .inl hserved) (fun d serial taskId hheld => .inl hheld)
    (fun before e after heq => ?_) (fun id approval hrow => ?_) fun taskId task hrow => ?_
  · have hunsent : ((F.daemons d).hear F.hub (F.nodeEmissions i)).unsent =
        (F.daemons d).unsent := DaemonClient.hear_unsent _
    rwa [← hunsent]
  · have hmem : e ∈ F.nodeEvents i := by
      rw [heq]
      exact List.mem_append_right _ List.mem_cons_self
    exact ((hF.step_accounted hlive hmem).advance hstep hkeys (List.subset_append_left _ _)
      (List.subset_append_left _ _)).longer (List.subset_append_left _ _)
  · refine (hF.step_opened hlive hrow).imp_right ?_
    rintro ⟨-, d, serial, hone, -⟩
    refine ⟨approval.reason, d, serial, List.mem_append_right _ ?_, fun _ => rfl⟩
    rw [hone]
    exact List.mem_cons_self
  · obtain ⟨served, thread, hserved, -, hwithin, hdeed⟩ :=
      hF.trusted.tenanted.recorded.deed hlive
    have hsame : (F.resume i).hub.rows = F.hub.rows → F.hub.tasks taskId = some task :=
      fun hrows => by
        rw [← hrow]
        exact congrArg (·.tasks taskId) hrows.symm
    cases hdeed with
    | quiet hrows => exact .inl ⟨task, hsame hrows, rfl⟩
    | notified _ hrows => exact .inl ⟨task, hsame hrows, rfl⟩
    | wrote hwritten =>
        rcases hwritten.status hrow with hold | hqueued | hreason
        · exact .inl hold
        · rw [hqueued]
          exact .inr trivial
        · exact .inr ((hF.earned (List.mem_of_getElem? hserved) hwithin hreason).advance hstep rfl)

/-- A call that is served is the new one, or was there. -/
theorem mem_served {call : HubCall} {origin : Option (Fin n × ℕ)} {served : Served n}
    (hmem : served ∈ F.calls ++ [⟨call, origin⟩]) : served ∈ F.calls ∨ served = ⟨call, origin⟩ :=
  (List.mem_append.mp hmem).imp_right List.mem_singleton.mp

/-- **Every step keeps the accounts.** -/
theorem OnRecord.step (hF : F.OnRecord env told actions seen) {action : Action n}
    (henabled : F.enabled action) :
    (F.step env detectors action).OnRecord env told (actions ++ [action])
      (seen ++ [(F.step env detectors action).hub]) := by
  have hstep : Advance env F (F.step env detectors action) := Fleet.advance henabled
  have htrusted : (F.step env detectors action).Trusted env told
      (seen ++ [(F.step env detectors action).hub]) := hF.trusted.step henabled
  cases action with
  | call call =>
      refine hF.step_quiet hstep htrusted rfl rfl rfl fun served hmem => ?_
      refine (mem_served hmem).imp_right ?_
      rintro rfl socketId inbound rfl
      cases henabled.1
  | drop socketId =>
      refine hF.step_quiet hstep htrusted rfl rfl rfl fun served hmem => ?_
      refine (mem_served hmem).imp_right ?_
      rintro rfl socketId inbound hcall
      cases hcall
  | resume i => exact hF.step_resume henabled htrusted
  | connect d =>
      have hnone : (F.daemons d).socket = none := Option.isNone_iff_eq_none.mp henabled
      refine hF.step_daemon hstep htrusted d ((F.daemons d).onConnect F.hub.sockets.next, [])
        (fun _ => False) rfl (congrArg Prod.fst (DaemonClient.onConnect_line F.hub.sockets.next))
        (List.append_nil _).symm ⟨rfl, rfl⟩ (fun served hmem => ?_) (fun _ => False.elim)
        (DaemonClient.records_quiet (fun sent hmem => .inl ?_) fun serial runner hrow => ?_)
      · refine (mem_served hmem).imp_right ?_
        rintro rfl socketId inbound hcall
        cases hcall
      · unfold DaemonClient.onConnect at hmem
        rw [DaemonClient.flushBuffer_unsent] at hmem
        unfold DaemonClient.unsent DaemonClient.outbox at hmem ⊢
        rw [hnone]
        exact hmem
      · unfold DaemonClient.onConnect at hrow
        rwa [DaemonClient.flushBuffer_objects] at hrow
  | disconnect d =>
      refine hF.step_daemon hstep htrusted d _ (fun _ => False) rfl rfl rfl ⟨rfl, rfl⟩
        (fun _ h => .inl h) (fun _ => False.elim)
        (DaemonClient.records_quiet (fun sent hmem => .inl ?_) fun _ _ h => h)
      exact List.mem_append_right _ hmem
  | deliver d =>
      obtain ⟨socketId, message, client, htaken, hdef⟩ := deliver_some env detectors henabled
      rw [hdef] at hstep htrusted ⊢
      obtain ⟨hunsent, -, hobjects, -, hline⟩ := DaemonClient.takeOutgoing_some htaken
      refine hF.step_daemon hstep htrusted d (client, []) (fun _ => False) rfl
        (congrArg Prod.fst hline) (List.append_nil _).symm ⟨rfl, rfl⟩ (fun served hmem => ?_)
        (fun _ => False.elim)
        (DaemonClient.records_quiet (fun sent hmem => .inl ?_) (hobjects ▸ fun _ _ h => h))
      · refine (mem_served hmem).imp_right ?_
        rintro rfl other inbound hcall
        cases hcall
        exact ⟨message, hunsent ▸ List.mem_cons_self, rfl, rfl⟩
      · exact hunsent ▸ List.mem_cons_of_mem _ hmem
  | receive d outcome =>
      obtain ⟨message, client, htaken, hdef⟩ := receive_some env detectors henabled
      rw [hdef] at hstep htrusted ⊢
      obtain ⟨-, hunsent, hobjects, -, hline⟩ := DaemonClient.takeIncoming_some htaken
      refine hF.step_daemon hstep htrusted d _ (fun _ => False) rfl
        ((congrArg Prod.fst (DaemonClient.onMessage_line message)).trans (congrArg Prod.fst hline))
        rfl ⟨rfl, rfl⟩ (fun _ h => .inl h) (fun _ => False.elim)
        (DaemonClient.Records.of_same hunsent hobjects DaemonClient.onMessage_records)
  | heartbeat d =>
      refine hF.step_daemon hstep htrusted d ((F.daemons d).heartbeat, []) (fun _ => False) rfl
        (congrArg Prod.fst (DaemonClient.emit_line _)) rfl ⟨rfl, rfl⟩ (fun _ h => .inl h)
        (fun _ => False.elim)
        (DaemonClient.records_quiet (fun sent hmem => ?_) fun serial runner hrow => ?_)
      · unfold DaemonClient.heartbeat at hmem
        exact (DaemonClient.mem_unsent_emit.mp hmem).imp_right (congrArg Outgoing.inbound)
      · unfold DaemonClient.heartbeat at hrow
        rwa [DaemonClient.emit_objects] at hrow
  | child d serial event =>
      refine hF.step_daemon hstep htrusted d _ _ rfl
        (congrArg Prod.fst (DaemonClient.onChildEvent_line event)) rfl ⟨rfl, rfl⟩
        (fun _ h => .inl h) (fun other hexited => ?_) DaemonClient.onChildEvent_records
      obtain ⟨rfl, signal, rfl⟩ := hexited
      exact ⟨signal, List.mem_append_right _ List.mem_cons_self⟩
  | restart d =>
      refine hF.step_daemon hstep htrusted d ((F.daemons d).restart, []) (fun _ => False) rfl rfl
        rfl ⟨rfl, rfl⟩ (fun _ h => .inl h) (fun _ => False.elim)
        (DaemonClient.records_quiet (fun sent hmem => absurd hmem List.not_mem_nil)
          fun serial runner hrow => (Option.filter_eq_some_iff.mp hrow).1)

/-! ## Runs -/

/-- A deployment at rest. -/
theorem Initial.onRecord (hstart : F.Initial) :
    F.OnRecord env F.hub.notified.length [] [F.hub] where
  trusted := hstart.trusted
  unsent d sent hmem := by
    obtain ⟨apiKey, hinitial⟩ := hstart.daemons d
    rw [hinitial] at hmem
    exact absurd hmem List.not_mem_nil
  calls served hserved := by
    rw [hstart.calls] at hserved
    exact absurd hserved List.not_mem_nil
  started d serial taskId := by
    rintro ⟨runner, hrow, -⟩
    obtain ⟨apiKey, hinitial⟩ := hstart.daemons d
    rw [hinitial] at hrow
    cases hrow
  accounted := by
    rw [hstart.trace]
    exact warranted_nil
  opened g hg id approval hrow := by
    rw [List.mem_singleton.mp hg, hstart.hub.approvals] at hrow
    cases hrow
  statuses g hg taskId task hrow := by
    rw [List.mem_singleton.mp hg, hstart.hub.tasks] at hrow
    cases hrow

/-- The invariant of every run. -/
theorem Initial.onRecord_run (hstart : F.Initial) {actions : List (Action n)}
    (hruns : (fleetMachine n env detectors).Runs F actions) :
    ((fleetMachine n env detectors).exec F actions).OnRecord env F.hub.notified.length actions
      (((fleetMachine n env detectors).states F actions).map Fleet.hub) := by
  refine Machine.exec_record (I := fun actions seen F' => F'.OnRecord env F.hub.notified.length
    actions (seen.map Fleet.hub)) hstart.onRecord (fun actions seen F' action hF' henabled => ?_)
    hruns
  rw [List.map_append]
  exact hF'.step henabled

/-- **No status is made up**: in every state of every run, a completed task was worked on by a
runner whose child has left with the code 0, started by a daemon it was entrusted to with its
input; a cancelled one was ended by a request of the user who submitted it; and one that waits for
approval has a runner that has asked. -/
theorem statuses_earned {F : Fleet n} (hstart : F.Initial) {actions : List (Action n)}
    (hruns : (fleetMachine n env detectors).Runs F actions) {g : Hub}
    (hg : g ∈ ((fleetMachine n env detectors).states F actions).map Fleet.hub) {taskId : TaskId}
    {task : Task} (hrow : g.tasks taskId = some task) :
    (task.status = .COMPLETED → ∃ d serial,
        .runner d (.started serial taskId) ∈ ((fleetMachine n env detectors).exec F actions).trace ∧
        Exited actions d serial ∧
        ((fleetMachine n env detectors).exec F actions).Entrusted env
          (((fleetMachine n env detectors).states F actions).map Fleet.hub) d taskId task.input) ∧
      (task.status = .CANCELLED → ∃ ownerId,
        ((fleetMachine n env detectors).exec F actions).SubmittedBy taskId ownerId task.input ∧
        ∃ served ∈ ((fleetMachine n env detectors).exec F actions).calls,
          ((fleetMachine n env detectors).exec F actions).Ends ownerId taskId served.call) ∧
      (task.status = .AWAITING_APPROVAL → ∃ d serial reason,
        .runner d (.requested serial taskId reason) ∈
          ((fleetMachine n env detectors).exec F actions).trace) := by
  have hlast := hstart.onRecord_run hruns
  have hearned := hlast.statuses g hg taskId task hrow
  obtain ⟨owner, hsubmitted, -⟩ := hlast.trusted.tenanted.tasks g hg taskId task hrow
  refine ⟨fun hstatus => ?_, fun hstatus => ?_, fun hstatus => ?_⟩ <;> rw [hstatus] at hearned
  · obtain ⟨d, serial, hreported⟩ := hearned
    obtain ⟨before, hsub, ⟨hstarted, hbacked⟩, -⟩ := hlast.accounted.of_mem hreported
    obtain ⟨-, -, -, hentrusted⟩ := hlast.accounted.of_mem (hsub hstarted)
    obtain ⟨input, owner', hsubmitted', hkey⟩ := hentrusted serial taskId rfl
    obtain ⟨-, rfl⟩ :=
      hlast.trusted.tenanted.recorded.submitted_unique hsubmitted hsubmitted'
    refine ⟨d, serial, hsub hstarted, ?_, owner', hsubmitted', hkey⟩
    rcases hbacked with hfailed | ⟨-, hexited⟩
    · cases hfailed
    · exact hexited
  · obtain ⟨ownerId, input, hsubmitted', hends⟩ := hearned
    obtain ⟨-, rfl⟩ :=
      hlast.trusted.tenanted.recorded.submitted_unique hsubmitted hsubmitted'
    exact ⟨ownerId, hsubmitted', hends⟩
  · exact hearned

/-- The daemon starts the task of `sampleDispatch`, and its child leaves with the code 0. -/
def sampleCompletion : List (Action 1) :=
  sampleDispatch ++ [.receive soleDaemon .process, .child soleDaemon 0 (.exit (some 0)),
    .child soleDaemon 0 (.close (some 0) none), .deliver soleDaemon, .deliver soleDaemon] ++
    List.replicate 6 (.resume 3) ++ List.replicate 7 (.resume 4)

theorem statuses_earned_completed :
    ∃ task, ((fleetMachine 1 Env.sample .silent).exec sample sampleCompletion).hub.tasks 0 =
        some task ∧ task.status = .COMPLETED ∧ ∃ d serial, Exited sampleCompletion d serial ∧
      ((fleetMachine 1 Env.sample .silent).exec sample sampleCompletion).Entrusted Env.sample
        (((fleetMachine 1 Env.sample .silent).states sample sampleCompletion).map Fleet.hub) d 0
          task.input := by
  have hdone : (((fleetMachine 1 Env.sample .silent).exec sample sampleCompletion).hub.tasks 0).map
      (·.status) = some .COMPLETED := by decide +kernel
  obtain ⟨task, hrow, hstatus⟩ := Option.map_eq_some_iff.mp hdone
  obtain ⟨d, serial, -, hexited, hentrusted⟩ := (statuses_earned sample_initial
    (show (fleetMachine 1 Env.sample .silent).Runs sample sampleCompletion by decide)
    (List.mem_map_of_mem (Machine.exec_mem_states _ _ _)) hrow).1 hstatus
  exact ⟨task, hrow, hstatus, d, serial, hexited, hentrusted⟩

end Fleet

end CodeCaller
