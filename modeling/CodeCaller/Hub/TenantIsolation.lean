import CodeCaller.Hub.Answers

/-!
# Isolation of tenants over runs

A run is read by its visits.  `SubmittedBy` looks up in them who submitted a task; the owner of the
server the task is on never becomes anyone else, however often failover and the watchdog move it.

The statement does not mention who owns a task by the rows alone, because the rows could only agree
with themselves.  It compares them with an event of the run: the visit in which a user was answered
with the task when it was created.  `exec_submitted` finds this visit for every stored task, by
induction on the run, and `SubmittedBy.owner` carries ownership from it to the present.
-/

namespace CodeCaller

open Async

variable {env : Env} {h : Hub} {call : HubCall}

/-! ## Who submitted a task -/

/-- **The user who was answered with the task when it was created.** -/
def SubmittedBy (env : Env) (visits : List (Hub × HubCall)) (taskId : TaskId) (user : UserId) :
    Prop :=
  ∃ h dto task, (h, HubCall.submit user dto) ∈ visits ∧
    h.answer env (.submit user dto) = .ok (.task taskId task)

/-- More visits do not take a submission back. -/
theorem SubmittedBy.mono {visits visits' : List (Hub × HubCall)} {taskId : TaskId}
    {user : UserId} (hby : SubmittedBy env visits taskId user)
    (hsub : ∀ visit ∈ visits, visit ∈ visits') : SubmittedBy env visits' taskId user := by
  obtain ⟨h, dto, task, hvisit, hanswer⟩ := hby
  exact ⟨h, dto, task, hsub _ hvisit, hanswer⟩

/-- A submission stores nothing, or a new task and answers with it. -/
theorem submit_cases (h : Hub) (user : UserId) (dto : CreateTaskDto) :
    (∃ error, h.answer env (.submit user dto) = .error error ∧
      (h.after env (.submit user dto)).tasks = h.tasks) ∨
    ∃ task, h.answer env (.submit user dto) = .ok (.task h.tasks.next task) ∧
      (h.after env (.submit user dto)).tasks = h.tasks.insert task ∧
      (h.after env (.submit user dto)).ownerOf h.tasks.next = some user := by
  cases hsubmit : (TasksService.submit env user dto).run h with
  | mk outcome h' =>
    have hpure : (perform env (.submit user dto)).run h =
        (outcome.map fun row => .task row.1 row.2, h') := by
      unfold perform
      rw [Proc.run_bind, hsubmit]
      cases outcome <;> rfl
    have hafter : h.after env (.submit user dto) = h' := congrArg Prod.snd hpure
    have hanswer : h.answer env (.submit user dto) =
        outcome.map fun row => .task row.1 row.2 := congrArg Prod.fst hpure
    rw [hafter, hanswer]
    cases outcome with
    | error error =>
        rcases submit_run env h user dto with ⟨_, hrun⟩ | ⟨_, _, _, _, _, hrun⟩
        · rw [hsubmit] at hrun
          cases hrun
          exact .inl ⟨error, rfl, rfl⟩
        · rw [hsubmit] at hrun
          cases hrun
    | ok row =>
        obtain ⟨id, task⟩ := row
        obtain ⟨rfl, htasks, howner⟩ := submit_ok hsubmit
        exact .inr ⟨task, rfl, htasks, howner⟩

/-- A task that a call leaves and that was not there was submitted by it. -/
theorem after_new_task {taskId : TaskId} {task : Task} (hnone : h.tasks taskId = none)
    (htask : (h.after env call).tasks taskId = some task) :
    ∃ user dto, call = .submit user dto := by
  have hchain := after_effects env h call
  change h.rows.tasks taskId = none at hnone
  change (h.after env call).rows.tasks taskId = some task at htask
  generalize (h.after env call).rows = r at hchain htask
  induction hchain generalizing task with
  | refl =>
      rw [hnone] at htask
      cases htask
  | @tail r r' _ hstep ih =>
      cases hbefore : r.tasks taskId with
      | some row => exact ih hbefore
      | none =>
          obtain ⟨user, dto, hcall, -⟩ := hstep.new_task hbefore htask
          exact ⟨user, dto, hcall⟩

/-- **Every stored task was submitted by the owner of the server it is on.** -/
theorem exec_submitted {allowed : HubCall → Prop} {first : Hub} (hstart : first.Fresh)
    (calls : List HubCall) {taskId : TaskId} {task : Task}
    (htask : ((hubMachine env allowed).exec first calls).tasks taskId = some task) :
    ∃ user, SubmittedBy env ((hubMachine env allowed).visits first calls) taskId user ∧
      ((hubMachine env allowed).exec first calls).ownerOf taskId = some user := by
  induction calls using List.reverseRecOn generalizing task with
  | nil =>
      rw [Machine.exec_nil, hstart.tasks] at htask
      cases htask
  | append_singleton calls call ih =>
      rw [Machine.exec_append] at htask ⊢
      rw [Machine.visits_append]
      generalize hh : (hubMachine env allowed).exec first calls = h at ih htask ⊢
      change (h.after env call).tasks taskId = some task at htask
      change ∃ user, SubmittedBy env (_ ++ [(h, call)]) taskId user ∧
        (h.after env call).ownerOf taskId = some user
      cases hbefore : h.tasks taskId with
      | some row =>
          obtain ⟨user, hby, howner⟩ := ih hbefore
          exact ⟨user, hby.mono fun _ hmem => List.mem_append_left _ hmem,
            owner_after howner htask⟩
      | none =>
          obtain ⟨user, dto, rfl⟩ := after_new_task hbefore htask
          rcases @submit_cases env h user dto with
            ⟨_, -, hsame⟩ | ⟨row, hanswer, htasks, howner⟩
          · rw [hsame, hbefore] at htask
            cases htask
          · have hid : taskId = h.tasks.next := by
              rw [htasks, Table.insert_apply] at htask
              split at htask
              · assumption
              · rw [hbefore] at htask
                cases htask
            subst hid
            exact ⟨user, ⟨h, dto, row, List.mem_append_right _ (List.mem_singleton.mpr rfl),
              hanswer⟩, howner⟩

/-- A task that was submitted has its submitter as owner for as long as it is
stored. -/
theorem SubmittedBy.owner {allowed : HubCall → Prop} {first : Hub} {calls : List HubCall}
    {taskId : TaskId} {user : UserId}
    (hby : SubmittedBy env ((hubMachine env allowed).visits first calls) taskId user)
    (hstored : ((hubMachine env allowed).exec first calls).tasks taskId ≠ none) :
    ((hubMachine env allowed).exec first calls).ownerOf taskId = some user := by
  obtain ⟨h, dto, task, hvisit, hanswer⟩ := hby
  obtain ⟨front, back, hcalls, hh⟩ := (Machine.mem_visits_iff _).mp hvisit
  dsimp only at hcalls hh
  rw [hcalls, Machine.exec_append, Machine.exec_cons, ← hh] at hstored ⊢
  have hkept : KeepsOwner user taskId (h.after env (.submit user dto)).rows := by
    rcases @submit_cases env h user dto with
      ⟨error, herror, -⟩ | ⟨row, hanswer', htasks, howner⟩
    · rw [hanswer] at herror
      cases herror
    · rw [hanswer] at hanswer'
      cases hanswer'
      refine ⟨?_, .inl howner⟩
      change h.tasks.next < (h.after env _).tasks.next
      rw [htasks]
      exact Nat.lt_succ_self _
  rcases (exec_keepsOwner hkept back).2 with howner | hgone
  · exact howner
  · exact absurd hgone hstored

/-! ## The separation -/

/-- **A call that keeps tenants apart** in the state it is taken in: it sends
messages about a task only to servers of its submitter, a request changes no
row of another user, and its answer is made of the caller's rows. -/
structure HubCall.Apart (env : Env) (submitted : TaskId → UserId → Prop) (h : Hub)
    (call : HubCall) : Prop where
  sends : ∃ sent, (h.after env call).emitted = h.emitted ++ sent ∧
    ∀ emission ∈ sent, ∃ server, (h.after env call).servers emission.serverId = some server ∧
      submitted emission.message.taskId server.ownerId
  rows : ∀ user owner, call.user = some user → owner ≠ user →
    Rows.SameFor owner h.rows (h.after env call).rows
  servers : ∀ user owner, call.user = some user → owner ≠ user →
    (h.after env call).rows.serversOf owner = h.rows.serversOf owner
  answers : ∀ user response, call.user = some user → h.answer env call = .ok response →
    response.OwnedBy (h.after env call) user

/-- **Tenant isolation.**  In every run, the owner of the server a task is on is
the user who submitted it, and every call keeps tenants apart. -/
theorem tenant_isolation {first : Hub} {calls : List HubCall} (hstart : first.Fresh)
    (hruns : (hubMachine env fun _ => True).Runs first calls) :
    let final := (hubMachine env fun _ => True).exec first calls
    let submitted := SubmittedBy env ((hubMachine env fun _ => True).visits first calls)
    (∀ taskId task, final.tasks taskId = some task →
      ∃ user, submitted taskId user ∧ final.ownerOf taskId = some user) ∧
    (∀ taskId user, submitted taskId user → final.tasks taskId ≠ none →
      final.ownerOf taskId = some user) ∧
    ∀ visit ∈ (hubMachine env fun _ => True).visits first calls,
      visit.2.Apart env submitted visit.1 := by
  intro final submitted
  refine ⟨fun taskId task htask => exec_submitted hstart calls htask,
    fun taskId user hby => hby.owner, ?_⟩
  rintro ⟨h, call⟩ hvisit
  have hsound : h.rows.Sound :=
    reachable_sound ((Machine.Reachable.of_start hstart).visits hruns hvisit)
  obtain ⟨front, back, hcalls, hh⟩ := (Machine.mem_visits_iff _).mp hvisit
  dsimp only at hcalls hh
  refine ⟨?_, fun user owner huser hother => after_same_for hsound (foreign_of_user huser hother),
    fun user owner => after_servers_of, fun user response => answer_owned⟩
  obtain ⟨sent, hemitted, hdelivered⟩ := @after_delivered env call _ hsound
  refine ⟨sent, hemitted, fun emission hmem => ?_⟩
  obtain ⟨server, hserver, howner⟩ := hdelivered emission hmem
  refine ⟨server, hserver, ?_⟩
  -- the task was submitted in the run up to this call
  have hexec : (hubMachine env fun _ => True).exec first (front ++ [call]) = h.after env call := by
    rw [Machine.exec_append, ← hh]
    rfl
  obtain ⟨task, -, htask, -⟩ := ownerOf_some howner
  obtain ⟨user, hby, howner'⟩ := @exec_submitted env (fun _ => True) _ hstart
    (front ++ [call]) _ task (by rw [hexec]; exact htask)
  rw [hexec] at howner'
  have huser : user = server.ownerId := Option.some.inj (howner'.symm.trans howner)
  rw [← huser]
  refine hby.mono fun visit hvisit => ?_
  rw [hcalls, show front ++ call :: back = (front ++ [call]) ++ back by simp,
    Machine.visits_append]
  exact List.mem_append_left _ hvisit

/-- A task of user 0 times out on the server 0 and is dispatched to the server 1:
it is still owned by user 0. -/
theorem tenant_isolation_failover :
    let calls := sampleConnects ++
      [.submit 0 ⟨0, .CODEX, sampleInput⟩, .dispatch 0, .watchdog, .dispatch 1]
    let final := (hubMachine Env.sample fun _ => True).exec Hub.sample calls
    (final.tasks 0).map (·.serverId) = some 1 ∧ final.ownerOf 0 = some 0 := by
  intro calls final
  have hruns : (hubMachine Env.sample fun _ => True).Runs Hub.sample calls := by decide
  have hserver : (final.tasks 0).map (·.serverId) = some 1 := by decide
  obtain ⟨task, htask, -⟩ := Option.map_eq_some_iff.mp hserver
  obtain ⟨-, howner, -⟩ := tenant_isolation Hub.sample_fresh hruns
  refine ⟨hserver, howner 0 0 ?_ (by rw [htask]; exact nofun)⟩
  exact ⟨_, ⟨0, .CODEX, sampleInput⟩, _,
    (Machine.mem_visits_iff _).mpr ⟨sampleConnects, _, rfl, rfl⟩,
    rfl⟩

end CodeCaller
