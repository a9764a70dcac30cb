import CodeCaller.Fleet.History

/-!
# Tenants of a fleet

The users of one Hub share its tables, its queue and its handlers, which are interleaved at every
await.  Still every task stays with the user who submitted it, with the input it was submitted
with, and whatever the Hub sends or tells about it goes to the servers and the apps of that user
alone.

### The pieces

* `SubmittedBy`: a request of a user, with an input, has created the task.  It is read from the
  past of the call, so it does not depend on what became of the task.
* `AtHome`, `ToldAtHome`: what is said of a message and of a notice.
* `Tenanted`: the invariant.  Every task that was stored in some state of the history was submitted
  by the user who owned it there, and whatever was sent or told is at home.
* `Fleet.Tenanted.step`: a deed brings a new task, sends one message or tells one notice, each with
  a reason, and `at_home` and `told_at_home` turn the reason into what is claimed.

### Main results

`tenants_apart` and `notices_at_home`, for every interleaving, with daemons that are restarted and
connections that break.  Neither needs anything of the daemons: what they send selects tasks by
their ids, and changes statuses and logs, never owners.
-/

namespace CodeCaller

open Async

variable {n : ℕ} {env : Env} {detectors : Detectors} {F F' : Fleet n} {seen : List Hub}

/-! ## Submissions -/

/-- **A user has submitted a task**: a request of the user, with this input, has created it. -/
def Fleet.SubmittedBy (F : Fleet n) (taskId : TaskId) (ownerId : UserId) (input : Json) : Prop :=
  ∃ (i : ℕ) (served : Served n) (dto : CreateTaskDto) (thread : Thread Hub HubError Response),
    F.calls[i]? = some served ∧ served.call = .submit ownerId dto ∧ dto.input = input ∧
    F.pool.threads[i]? = some thread ∧
    ∃ visit ∈ thread.past, visit.1.tasks taskId = none ∧
      visit.2.ownerOf taskId = some ownerId ∧
      ∃ task, visit.2.tasks taskId = some task ∧ task.input = input

/-- A submission stays in the past of its call. -/
theorem Fleet.SubmittedBy.advance {taskId : TaskId} {ownerId : UserId} {input : Json}
    (h : F.SubmittedBy taskId ownerId input) (hstep : Advance env F F') :
    F'.SubmittedBy taskId ownerId input := by
  obtain ⟨i, served, dto, thread, hserved, hcall, hinput, hthread, visit, hvisit, hcreated⟩ := h
  obtain ⟨thread', hthread', hgrows⟩ := hstep.thread hthread
  exact ⟨i, served, dto, thread', hstep.call hserved, hcall, hinput, hthread', visit,
    hgrows.subset hvisit, hcreated⟩

/-- A task that a write has brought was submitted, to a server of the user. -/
theorem Write.new_task {call : HubCall} {past : Past} {r r' : Rows}
    (hw : Write env call past r r') {taskId : TaskId} {task : Task}
    (hnone : r.tasks taskId = none) (hrow : r'.tasks taskId = some task) :
    ∃ ownerId dto, call = .submit ownerId dto ∧ task.input = dto.input ∧
      Saw past fun h => h.ServerOf task.serverId ownerId := by
  have hmissing : ∀ {id : TaskId} {f : Task → Task},
      r.tasks.modify id f taskId ≠ some task := fun {id f} hmodified => by
    rw [Table.modify_apply] at hmodified
    split at hmodified
    · next heq =>
      rw [← heq, hnone] at hmodified
      cases hmodified
    · rw [hnone] at hmodified
      cases hmodified
  cases hw with
  | taskCreated hcall _ howner hon hinput =>
      rw [Table.insert_apply] at hrow
      split at hrow
      · cases hrow
        exact ⟨_, _, hcall, hinput, hon ▸ howner⟩
      · rw [hnone] at hrow
        cases hrow
  | taskWritten => exact absurd hrow hmissing
  | taskMoved => exact absurd hrow hmissing
  | serverDeleted =>
      obtain ⟨hold, -⟩ := Option.filter_eq_some_iff.mp hrow
      rw [hnone] at hold
      cases hold
  | _ =>
      rw [hnone] at hrow
      cases hrow

/-! ## What a message is about -/

/-- The task a notice to the apps is about. -/
def AppOutbound.taskId : AppOutbound → TaskId
  | TASK_UPDATED taskId _ => taskId
  | APPROVAL_PENDING _ approval => approval.taskId
  | APPROVAL_RESOLVED _ approval => approval.taskId

/-- The row a notice carries is stored. -/
def Hub.Stores (h : Hub) : AppOutbound → Prop
  | .TASK_UPDATED taskId task => h.tasks taskId = some task
  | .APPROVAL_PENDING approvalId approval => h.approvals approvalId = some approval
  | .APPROVAL_RESOLVED approvalId approval => h.approvals approvalId = some approval

/-- **A message to a daemon is at home**: it is about a task of a user, goes to a server of that
user, and brings the task with the input it was submitted with, after an attempt of it on the
server was stored. -/
def Fleet.AtHome (F : Fleet n) (seen : List Hub) (emission : Emission) : Prop :=
  ∃ ownerId input, F.SubmittedBy emission.message.taskId ownerId input ∧
    (∃ g ∈ seen, g.ServerOf emission.serverId ownerId) ∧
    ∀ taskId brought, emission.message = .TASK_SUBMIT taskId brought → brought = input ∧
      ∃ g ∈ seen, ∃ id attempt, g.attempts id = some attempt ∧ attempt.taskId = taskId ∧
        attempt.serverId = emission.serverId

/-- **A notice is at home**: it goes to the user who submitted the task it is about, and its row
was stored. -/
def Fleet.ToldAtHome (F : Fleet n) (seen : List Hub) (notice : UserId × AppOutbound) : Prop :=
  (∃ input, F.SubmittedBy notice.2.taskId notice.1 input) ∧ ∃ g ∈ seen, g.Stores notice.2

/-! ## Tenants -/

/-- **Every task is with the user who submitted it**, in every state that has passed, and
whatever was sent or told is at home. -/
structure Fleet.Tenanted (env : Env) (told : ℕ) (seen : List Hub) (F : Fleet n) : Prop where
  recorded : F.Recorded env seen
  tasks : ∀ g ∈ seen, ∀ taskId task, g.tasks taskId = some task →
    ∃ ownerId, F.SubmittedBy taskId ownerId task.input ∧ g.ownerOf taskId = some ownerId
  emitted : ∀ emission ∈ F.hub.emitted, F.AtHome seen emission
  notified : ∀ notice ∈ F.hub.notified.drop told, F.ToldAtHome seen notice
  told_le : told ≤ F.hub.notified.length

section Tenanted

variable {told : ℕ} {call : HubCall} {past : Past}

/-- A task with a known owner was submitted by the owner. -/
theorem Fleet.Tenanted.submitted (hF : F.Tenanted env told seen) {g : Hub} (hg : g ∈ seen)
    {taskId : TaskId} {ownerId : UserId} (howner : g.ownerOf taskId = some ownerId) :
    ∃ input, F.SubmittedBy taskId ownerId input := by
  obtain ⟨task, -, htask, -⟩ := ownerOf_some (r := g.rows) howner
  obtain ⟨owner, hsubmitted, hsame⟩ := hF.tasks g hg taskId task htask
  rw [howner] at hsame
  cases hsame
  exact ⟨task.input, hsubmitted⟩

/-- A message about a task that goes to the server the task was on. -/
theorem Fleet.Tenanted.at_home_on (hF : F.Tenanted env told seen) (hwithin : Within past seen)
    {serverId : ServerId} {message : DaemonOutbound}
    (hon : Saw past fun h => h.TaskOn message.taskId serverId)
    (hkind : ∀ taskId brought, message ≠ .TASK_SUBMIT taskId brought) :
    F.AtHome seen ⟨serverId, message⟩ := by
  obtain ⟨g, hg, task, htask, rfl⟩ := hwithin.saw hon
  obtain ⟨ownerId, hsubmitted, howner⟩ := hF.tasks g hg _ task htask
  obtain ⟨owner, hsame, hserver⟩ := hF.recorded.archive.owned hg htask
  rw [howner] at hsame
  cases hsame
  exact ⟨ownerId, task.input, hsubmitted, ⟨g, hg, hserver⟩,
    fun taskId brought heq => absurd heq (hkind taskId brought)⟩

/-- **A message with a reason is at home.** -/
theorem Fleet.Tenanted.at_home (hF : F.Tenanted env told seen) (hwithin : Within past seen)
    {serverId : ServerId} {message : DaemonOutbound}
    (hreason : SendReason call past serverId message) : F.AtHome seen ⟨serverId, message⟩ := by
  cases hreason with
  | cancel _ _ hon => exact hF.at_home_on hwithin hon nofun
  | decision _ hasked => exact hF.at_home_on hwithin (hasked.mono fun _ h => h.2) nofun
  | submit _ hfound hinput hattempt =>
      obtain ⟨ownerId, ⟨g₁, hg₁, howner⟩, hserver⟩ := hF.recorded.archive.found hwithin hfound
      obtain ⟨g₂, hg₂, task, htask, rfl⟩ := hwithin.saw hinput
      obtain ⟨owner, hsubmitted, howner₂⟩ := hF.tasks g₂ hg₂ _ task htask
      obtain rfl := hF.recorded.archive.owners g₁ hg₁ g₂ hg₂ _ _ _ howner howner₂
      refine ⟨ownerId, task.input, hsubmitted, hserver, fun other brought heq => ?_⟩
      cases heq
      exact ⟨rfl, hwithin.left hattempt⟩

/-- **A notice with a reason is at home.** -/
theorem Fleet.Tenanted.told_at_home (hF : F.Tenanted env told seen) (hwithin : Within past seen)
    {userId : UserId} {message : AppOutbound} (hreason : NoticeReason past userId message) :
    F.ToldAtHome seen (userId, message) := by
  cases hreason with
  | @updated taskId task hrow howner =>
      obtain ⟨g, hg, htask⟩ := hwithin.left hrow
      refine ⟨?_, g, hg, htask⟩
      obtain ⟨owner, howns, hserver⟩ := hF.recorded.archive.owned hg htask
      rcases howner with howned | hstored
      · obtain ⟨g', hg', howner'⟩ := hwithin.saw howned
        exact hF.submitted hg' howner'
      · obtain ⟨g', hg', hserver'⟩ := hwithin.saw hstored
        obtain rfl := hF.recorded.archive.serverOf hg hg' hserver hserver'
        exact hF.submitted hg howns
  | pending hrow howner =>
      obtain ⟨g', hg', howner'⟩ := hwithin.saw howner
      exact ⟨hF.submitted hg' howner', hwithin.left hrow⟩
  | @resolved approvalId approval taskId hrow hasked =>
      obtain ⟨g, hg, happroval⟩ := hwithin.left hrow
      obtain ⟨g', hg', ⟨asked, hstored, rfl⟩, howner'⟩ := hwithin.saw hasked
      have hsame : approval.taskId = asked.taskId :=
        hF.recorded.archive.approvals.agrees g hg g' hg' _ _ _ happroval hstored
      refine ⟨?_, g, hg, happroval⟩
      rw [← hsame] at howner'
      exact hF.submitted hg' howner'

/-- What is at home stays there. -/
theorem Fleet.AtHome.advance {emission : Emission} (h : F.AtHome seen emission)
    (hstep : Advance env F F') {later : List Hub} (hgrows : seen ⊆ later) :
    F'.AtHome later emission := by
  obtain ⟨ownerId, input, hsubmitted, ⟨g, hg, hserver⟩, hbrought⟩ := h
  refine ⟨ownerId, input, hsubmitted.advance hstep, ⟨g, hgrows hg, hserver⟩,
    fun taskId brought heq => ?_⟩
  obtain ⟨hsame, g', hg', hattempt⟩ := hbrought taskId brought heq
  exact ⟨hsame, g', hgrows hg', hattempt⟩

/-- What was told at home stays so. -/
theorem Fleet.ToldAtHome.advance {notice : UserId × AppOutbound} (h : F.ToldAtHome seen notice)
    (hstep : Advance env F F') {later : List Hub} (hgrows : seen ⊆ later) :
    F'.ToldAtHome later notice := by
  obtain ⟨⟨input, hsubmitted⟩, g, hg, hstored⟩ := h
  exact ⟨⟨input, hsubmitted.advance hstep⟩, g, hgrows hg, hstored⟩

/-- A deed sends nothing, or one message with a reason. -/
theorem Deed.sends {h h' : Hub} (hdeed : Deed env call past h h') :
    h'.emitted = h.emitted ∨ ∃ serverId message, SendReason call past serverId message ∧
      h'.emitted = h.emitted ++ [⟨serverId, message⟩] := by
  cases hdeed with
  | quiet hrows => exact .inl (congrArg Rows.emitted hrows)
  | notified _ hrows => exact .inl (congrArg Rows.emitted hrows)
  | wrote hwritten =>
      have hemitted : h'.emitted = h'.rows.emitted := rfl
      rw [hemitted]
      generalize h'.rows = r' at hwritten
      cases hwritten with
      | sent hreason => exact .inr ⟨_, _, hreason, rfl⟩
      | _ => exact .inl rfl

/-- A deed tells nothing, or one notice with a reason. -/
theorem Deed.tells {h h' : Hub} (hdeed : Deed env call past h h') :
    h'.notified = h.notified ∨ ∃ userId message, NoticeReason past userId message ∧
      h'.notified = h.notified ++ [(userId, message)] := by
  cases hdeed with
  | quiet _ hnotified => exact .inl hnotified
  | wrote _ hnotified => exact .inl hnotified
  | notified hreason _ hnotified => exact .inr ⟨_, _, hreason, hnotified⟩

/-- A task that a deed has brought was submitted. -/
theorem Deed.new_task {h h' : Hub} (hdeed : Deed env call past h h') {taskId : TaskId}
    {task : Task} (hnone : h.tasks taskId = none) (hrow : h'.tasks taskId = some task) :
    ∃ ownerId dto, call = .submit ownerId dto ∧ task.input = dto.input ∧
      Saw past fun h => h.ServerOf task.serverId ownerId := by
  have hsame : h'.rows = h.rows → h'.tasks taskId = none := fun hrows => by
    rw [← hnone]
    exact congrArg (·.tasks taskId) hrows
  cases hdeed with
  | quiet hrows => exact absurd (hrow.symm.trans (hsame hrows)) (Option.some_ne_none task)
  | notified _ hrows => exact absurd (hrow.symm.trans (hsame hrows)) (Option.some_ne_none task)
  | wrote hwritten => exact hwritten.new_task hnone hrow

/-- **One step keeps the tenants apart.** -/
theorem Fleet.Tenanted.step (hF : F.Tenanted env told seen) (hstep : Advance env F F') :
    F'.Tenanted env told (seen ++ [F'.hub]) := by
  have hgrows : seen ⊆ seen ++ [F'.hub] := List.subset_append_left _ _
  have hrecorded := hF.recorded.step hstep
  have hcases := hF.recorded.cases hstep
  refine ⟨hrecorded, fun g hg taskId task hrow => ?_, fun emission hemission => ?_,
    fun notice hnotice => ?_, ?_⟩
  · rcases List.mem_append.mp hg with hold | hlast
    · obtain ⟨ownerId, hsubmitted, howner⟩ := hF.tasks g hold taskId task hrow
      exact ⟨ownerId, hsubmitted.advance hstep, howner⟩
    rw [List.mem_singleton.mp hlast] at hrow ⊢
    obtain ⟨owner, howner, hserver⟩ := hrecorded.archive.owned hrecorded.archive.here hrow
    cases hbefore : F.hub.tasks taskId with
    | some before =>
        obtain ⟨ownerId, hsubmitted, hsame⟩ := hF.tasks _ hF.recorded.archive.here taskId _ hbefore
        have hinput : before.input = task.input := hrecorded.archive.tasks.agrees _
          (hgrows hF.recorded.archive.here) _ hrecorded.archive.here taskId _ _ hbefore hrow
        obtain rfl := hrecorded.archive.owners _ (hgrows hF.recorded.archive.here) _
          hrecorded.archive.here taskId _ _ hsame howner
        exact ⟨ownerId, hinput ▸ hsubmitted.advance hstep, howner⟩
    | none =>
        rcases hcases with ⟨sockets, hhub, -⟩ |
          ⟨i, served, thread, program, -, hthread, hserved, hself, hwithin, hdeed⟩
        · rw [hhub] at hrow
          exact absurd (hrow.symm.trans hbefore) (Option.some_ne_none task)
        · obtain ⟨ownerId, dto, hcall, hinput, hsaw⟩ := hdeed.new_task hbefore hrow
          obtain ⟨g', hg', hserver'⟩ := hwithin.saw hsaw
          obtain rfl :=
            hrecorded.archive.serverOf hrecorded.archive.here (hgrows hg') hserver hserver'
          refine ⟨owner, ⟨i, served, dto, _, hserved, hcall, hinput.symm, hself, (F.hub, F'.hub),
            ?_, hbefore, howner, task, hrow, rfl⟩, howner⟩
          exact List.mem_append_right _ List.mem_cons_self
  · have hold : ∀ emission ∈ F.hub.emitted, F'.AtHome (seen ++ [F'.hub]) emission :=
      fun emission hemission => (hF.emitted emission hemission).advance hstep hgrows
    rcases hcases with ⟨sockets, hhub, -⟩ | ⟨i, served, thread, program, -, -, -, -, hwithin, hdeed⟩
    · rw [hhub] at hemission
      exact hold emission hemission
    · rcases hdeed.sends with hsame | ⟨serverId, message, hreason, hsent⟩
      · exact hold emission (hsame ▸ hemission)
      · rw [hsent] at hemission
        rcases List.mem_append.mp hemission with hbefore | hlast
        · exact hold emission hbefore
        · rw [List.mem_singleton.mp hlast]
          exact (hF.at_home hwithin hreason).advance hstep hgrows
  · have hold : ∀ notice ∈ F.hub.notified.drop told, F'.ToldAtHome (seen ++ [F'.hub]) notice :=
      fun notice hnotice => (hF.notified notice hnotice).advance hstep hgrows
    rcases hcases with ⟨sockets, hhub, -⟩ | ⟨i, served, thread, program, -, -, -, -, hwithin, hdeed⟩
    · rw [hhub] at hnotice
      exact hold notice hnotice
    · rcases hdeed.tells with hsame | ⟨userId, message, hreason, htold⟩
      · exact hold notice (hsame ▸ hnotice)
      · rw [htold, List.drop_append_of_le_length hF.told_le] at hnotice
        rcases List.mem_append.mp hnotice with hbefore | hlast
        · exact hold notice hbefore
        · rw [List.mem_singleton.mp hlast]
          exact (hF.told_at_home hwithin hreason).advance hstep hgrows
  · rcases hcases with ⟨sockets, hhub, -⟩ | ⟨i, served, thread, program, -, -, -, -, -, hdeed⟩
    · rw [hhub]
      exact hF.told_le
    · rcases hdeed.tells with hsame | ⟨userId, message, -, htold⟩
      · rw [hsame]
        exact hF.told_le
      · rw [htold, List.length_append]
        exact hF.told_le.trans (Nat.le_add_right _ _)

end Tenanted

/-! ## Runs -/

/-- A deployment at rest. -/
theorem Fleet.Initial.tenanted (hstart : F.Initial) :
    F.Tenanted env F.hub.notified.length [F.hub] where
  recorded := hstart.recorded
  tasks g hg taskId task hrow := by
    rw [List.mem_singleton.mp hg, hstart.hub.tasks] at hrow
    cases hrow
  emitted emission hemission := by
    rw [hstart.hub.emitted] at hemission
    cases hemission
  notified notice hnotice := by
    rw [List.drop_length] at hnotice
    cases hnotice
  told_le := le_rfl

/-- The invariant of every run, with its history. -/
theorem Fleet.Initial.tenanted_run (hstart : F.Initial) {actions : List (Action n)}
    (hruns : (fleetMachine n env detectors).Runs F actions) :
    ((fleetMachine n env detectors).exec F actions).Tenanted env F.hub.notified.length
      (((fleetMachine n env detectors).states F actions).map Fleet.hub) := by
  refine Machine.exec_history (I := fun seen F' => F'.Tenanted env F.hub.notified.length
    (seen.map Fleet.hub)) hstart.tenanted (fun seen F' action hF' henabled => ?_) hruns
  rw [List.map_append]
  exact hF'.step (Fleet.advance henabled)

/-- A user submits a task once: the owner and the input are determined by it. -/
theorem Fleet.Recorded.submitted_unique (hF : F.Recorded env seen) {taskId : TaskId}
    {ownerId ownerId' : UserId} {input input' : Json} (h : F.SubmittedBy taskId ownerId input)
    (h' : F.SubmittedBy taskId ownerId' input') : ownerId = ownerId' ∧ input = input' := by
  obtain ⟨i, -, -, thread, -, -, -, hthread, visit, hvisit, -, howner, task, hrow, rfl⟩ := h
  obtain ⟨j, -, -, thread', -, -, -, hthread', visit', hvisit', -, howner', task', hrow', rfl⟩ := h'
  have hmem := (hF.calls.pasts i thread hthread visit hvisit).2
  have hmem' := (hF.calls.pasts j thread' hthread' visit' hvisit').2
  exact ⟨hF.archive.owners _ hmem _ hmem' taskId _ _ howner howner',
    hF.archive.tasks.agrees _ hmem _ hmem' taskId task task' hrow hrow'⟩

/-- **Tenants stay apart under every interleaving**: every stored task belongs to exactly the
user who submitted it, and has the input it was submitted with; every message the Hub has ever
sent to the room of a server is about a task of the user whose server it is, and brings a task
with the input of its submission, after an attempt on that server was stored. -/
theorem Fleet.tenants_apart {F : Fleet n} (hstart : F.Initial) {actions : List (Action n)}
    (hruns : (fleetMachine n env detectors).Runs F actions) :
    (∀ taskId task, ((fleetMachine n env detectors).exec F actions).hub.tasks taskId = some task →
      ∃ ownerId, ((fleetMachine n env detectors).exec F actions).hub.ownerOf taskId =
          some ownerId ∧
        ∀ other input, ((fleetMachine n env detectors).exec F actions).SubmittedBy taskId other
          input ↔ other = ownerId ∧ input = task.input) ∧
      ∀ emission ∈ ((fleetMachine n env detectors).exec F actions).hub.emitted,
        ((fleetMachine n env detectors).exec F actions).AtHome
          (((fleetMachine n env detectors).states F actions).map Fleet.hub) emission := by
  have hlast := hstart.tenanted_run hruns
  refine ⟨fun taskId task hrow => ?_, hlast.emitted⟩
  obtain ⟨ownerId, hsubmitted, howner⟩ := hlast.tasks _ hlast.recorded.archive.here taskId task hrow
  refine ⟨ownerId, howner, fun other input => ⟨fun h => ?_, ?_⟩⟩
  · exact hlast.recorded.submitted_unique h hsubmitted
  · rintro ⟨rfl, rfl⟩
    exact hsubmitted

/-- A task that was submitted and dispatched. -/
theorem Fleet.tenants_apart_dispatched :
    ∃ task ownerId, ((fleetMachine 1 Env.sample .silent).exec .sample sampleDispatch).hub.tasks 0 =
        some task ∧
      ((fleetMachine 1 Env.sample .silent).exec .sample sampleDispatch).SubmittedBy 0 ownerId
        task.input := by
  obtain ⟨task, hrow⟩ := Option.isSome_iff_exists.mp (show (((fleetMachine 1 Env.sample
    .silent).exec .sample sampleDispatch).hub.tasks 0).isSome = true by decide)
  obtain ⟨ownerId, -, hsubmitted⟩ :=
    (Fleet.tenants_apart Fleet.sample_initial sampleDispatch_runs).1 0 task hrow
  exact ⟨task, ownerId, hrow, (hsubmitted _ _).mpr ⟨rfl, rfl⟩⟩

/-- **Nobody is told about the tasks of others**: whatever is interleaved, a notice to an app goes
to the user who submitted the task it is about, and carries a row as a state of the run had
it. -/
theorem Fleet.notices_at_home {F : Fleet n} (hstart : F.Initial) {actions : List (Action n)}
    (hruns : (fleetMachine n env detectors).Runs F actions) :
    ∀ notice ∈ ((fleetMachine n env detectors).exec F actions).hub.notified.drop
        F.hub.notified.length,
      ((fleetMachine n env detectors).exec F actions).ToldAtHome
        (((fleetMachine n env detectors).states F actions).map Fleet.hub) notice :=
  (hstart.tenanted_run hruns).notified

/-- The daemon starts the task and says so, and user 0 is told. -/
def sampleNotice : List (Action 1) :=
  sampleDispatch ++ [.receive soleDaemon .process, .deliver soleDaemon] ++
    List.replicate 6 (.resume 3)

theorem Fleet.notices_at_home_running :
    ∃ notice ∈ ((fleetMachine 1 Env.sample .silent).exec .sample sampleNotice).hub.notified,
      ((fleetMachine 1 Env.sample .silent).exec .sample sampleNotice).ToldAtHome
        (((fleetMachine 1 Env.sample .silent).states .sample sampleNotice).map Fleet.hub)
        notice := by
  have hnotices := Fleet.notices_at_home Fleet.sample_initial
    (show (fleetMachine 1 Env.sample .silent).Runs .sample sampleNotice by decide)
  have hone : ((fleetMachine 1 Env.sample .silent).exec .sample sampleNotice).hub.notified.length =
      1 := by decide
  obtain ⟨notice, hnotified⟩ := List.length_eq_one_iff.mp hone
  have hmem : notice ∈ ((fleetMachine 1 Env.sample .silent).exec .sample
      sampleNotice).hub.notified := by
    rw [hnotified]
    exact List.mem_cons_self
  exact ⟨notice, hmem, hnotices notice hmem⟩

end CodeCaller
