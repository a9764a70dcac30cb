import CodeCaller.Fleet.Tenancy

/-!
# What the users are answered

A request reads rows at some of its nodes and answers with them at its end, while other calls write
between its nodes.  An answer need not be true when it is sent.  What holds is that every row of it
was in the Hub while the request was served, as it is shown, and was the user's then: two nodes
that looked at a task and at its owner may be moved into one state, because the owner of a task is
the same in all of them, and so it is with a request for a registration.

* `Response.AtHome`: the rows of an answer are the user's, in one of the states its request has
  left.
* `Response.Found.at_home`: from what a call knows, by the history.
* `answers_at_home`: for every request of every run that was answered, with the submissions of the
  tasks shown.
-/

namespace CodeCaller

open Async

variable {n : ℕ} {env : Env} {detectors : Detectors} {F F' : Fleet n} {seen : List Hub}
  {past : Past} {user : UserId}

/-- The tasks an answer shows. -/
def Response.taskRows : Response → List (TaskId × Task)
  | task taskId row => [(taskId, row)]
  | tasks rows => rows
  | approvals rows => rows.map fun row => (row.2.1.taskId, row.2.2)
  | _ => []

/-- **The rows of an answer are the user's**, in one of the states its request has left. -/
def Response.AtHome (passed : List Hub) (user : UserId) : Response → Prop
  | .done => True
  | response => ∃ g ∈ passed, response.OwnedBy g user

/-- What a call has left is one of the states it has passed. -/
theorem Left.passed {P : Hub → Prop} (hleft : Left past P) : ∃ g ∈ past.map Prod.snd, P g := by
  obtain ⟨visit, hvisit, hP⟩ := hleft
  exact ⟨visit.2, List.mem_map_of_mem hvisit, hP⟩

/-- A task that is the user's in some state of a history is the user's in all. -/
theorem Archive.ownerOf_of {h : Hub} (hl : Archive seen h) (hwithin : Within past seen)
    {g : Hub} (hg : g ∈ seen) {taskId : TaskId} {task : Task} (hrow : g.tasks taskId = some task)
    (hsaw : (Saw past fun h => h.ownerOf taskId = some user) ∨
      Saw past fun h => h.ServerOf task.serverId user) : g.ownerOf taskId = some user := by
  obtain ⟨owner, howner, hserver⟩ := hl.owned hg hrow
  rcases hsaw with howned | hhome
  · obtain ⟨g', hg', howner'⟩ := hwithin.saw howned
    rw [howner, hl.owners g hg g' hg' taskId owner user howner howner']
  · obtain ⟨g', hg', hserver'⟩ := hwithin.saw hhome
    rw [howner, hl.serverOf hg hg' hserver hserver']

/-- **What a request has found is the user's.** -/
theorem Response.Found.at_home {h : Hub} (hl : Archive seen h) (hwithin : Within past seen)
    {response : Response} (hfound : response.Found past user) :
    response.AtHome (past.map Prod.snd) user := by
  cases response with
  | done => trivial
  | task id row =>
      obtain ⟨⟨visit, hvisit, hrow⟩, howner⟩ := hfound
      exact ⟨visit.2, List.mem_map_of_mem hvisit, hrow,
        hl.ownerOf_of hwithin (hwithin visit hvisit).2 hrow howner⟩
  | approval id row =>
      obtain ⟨⟨visit, hvisit, hrow⟩, taskId, hasked⟩ := hfound
      have hg := (hwithin visit hvisit).2
      obtain ⟨g', hg', ⟨asked, hstored, rfl⟩, howner⟩ := hwithin.saw hasked
      have hsame : row.taskId = asked.taskId :=
        hl.approvals.agrees visit.2 hg g' hg' id row asked hrow hstored
      obtain ⟨task, htask⟩ := Option.ne_none_iff_exists'.mp
        ((hl.linked visit.2 hg).approval_task id row hrow)
      refine ⟨visit.2, List.mem_map_of_mem hvisit, hrow, ?_⟩
      refine hl.ownerOf_of hwithin hg htask (.inl (hasked.mono fun h hasks => ?_))
      rw [hsame]
      exact hasks.owner
  | registration row =>
      obtain ⟨⟨visit, hvisit, shown, hrow, hpublic⟩, visit', hvisit', read, hread, rfl⟩ := hfound
      have hsame : shown.ownerId = read.ownerId :=
        hl.registrations.agrees visit.2 (hwithin visit hvisit).2 visit'.2 (hwithin visit' hvisit').2
          row.id shown read hrow hread
      exact ⟨visit.2, List.mem_map_of_mem hvisit, shown, hrow, hsame, hpublic⟩
  | _ => exact Left.passed hfound.1

/-- The tasks of an answer were stored as they are shown, as the user's. -/
theorem Response.AtHome.tasks {passed : List Hub} {response : Response}
    (hhome : response.AtHome passed user) :
    ∀ row ∈ response.taskRows, ∃ g ∈ passed, g.tasks row.1 = some row.2 ∧
      g.ownerOf row.1 = some user := by
  cases response with
  | task id row =>
      obtain ⟨g, hg, hstored⟩ := hhome
      intro shown hshown
      rw [List.mem_singleton.mp hshown]
      exact ⟨g, hg, hstored⟩
  | tasks rows =>
      obtain ⟨g, hg, hstored⟩ := hhome
      exact fun shown hshown => ⟨g, hg, hstored shown hshown⟩
  | approvals rows =>
      obtain ⟨g, hg, hstored⟩ := hhome
      intro shown hshown
      obtain ⟨row, hrow, rfl⟩ := List.mem_map.mp hshown
      exact ⟨g, hg, (hstored row hrow).2⟩
  | _ => exact fun shown hshown => absurd hshown List.not_mem_nil

/-! ## Runs -/

/-- The states a call has left. -/
def Fleet.passed (F : Fleet n) (i : ℕ) : List Hub :=
  (F.pool.threads[i]?.elim [] (·.past)).map Prod.snd

/-- A request of a user that was answered. -/
def Fleet.Answered (F : Fleet n) (user : UserId) (i : ℕ) (response : Response) : Prop :=
  (∃ served, F.calls[i]? = some served ∧ served.call.user = some user) ∧
    F.pool.outcome? i = some (.ok response)

/-- **An answer, in a run with its history.** -/
theorem Fleet.Tenanted.answered {told : ℕ} (hF : F.Tenanted env told seen) {i : ℕ}
    {response : Response} (hanswered : F.Answered user i response) :
    response.AtHome (F.passed i) user ∧ F.passed i ⊆ seen ∧ response.Distinct ∧
      ∀ row ∈ response.taskRows, F.SubmittedBy row.1 user row.2.input := by
  obtain ⟨⟨served, hserved, huser⟩, hended⟩ := hanswered
  obtain ⟨thread, hthread, hwithin, hmay⟩ := hF.recorded.calls.returned hserved hended
  have hpassed : F.passed i = thread.past.map Prod.snd :=
    congrArg (fun found : Option (Thread Hub HubError Response) =>
      (found.elim [] (·.past)).map Prod.snd) hthread
  have hfound := hmay user huser
  have hhome := hfound.at_home hF.recorded.archive hwithin
  have hseen : thread.past.map Prod.snd ⊆ seen := by
    intro g hg
    obtain ⟨visit, hvisit, rfl⟩ := List.mem_map.mp hg
    exact (hwithin visit hvisit).2
  rw [hpassed]
  refine ⟨hhome, hseen, hfound.distinct, fun row hrow => ?_⟩
  obtain ⟨g, hg, hstored, howner⟩ := hhome.tasks row hrow
  obtain ⟨owner, hsubmitted, hsame⟩ := hF.tasks g (hseen hg) row.1 row.2 hstored
  rw [howner] at hsame
  cases hsame
  exact hsubmitted

/-- **What a user is answered is the user's**: whatever is interleaved, every row of an answer
was in the Hub, as it is shown and as a row of the user, in a state that the request itself has
left while it was served; no row is listed twice; and the tasks are tasks the user has submitted,
with the input the user gave them. -/
theorem Fleet.answers_at_home {F : Fleet n} (hstart : F.Initial) {actions : List (Action n)}
    (hruns : (fleetMachine n env detectors).Runs F actions) {i : ℕ} {response : Response}
    (hanswered : ((fleetMachine n env detectors).exec F actions).Answered user i response) :
    response.AtHome (((fleetMachine n env detectors).exec F actions).passed i) user ∧
      ((fleetMachine n env detectors).exec F actions).passed i ⊆
        ((fleetMachine n env detectors).states F actions).map Fleet.hub ∧
      response.Distinct ∧
      ∀ row ∈ response.taskRows, ((fleetMachine n env detectors).exec F actions).SubmittedBy row.1
        user row.2.input :=
  (hstart.tenanted_run hruns).answered hanswered

/-- User 0 lists the tasks while the task is being dispatched. -/
def sampleListing : List (Action 1) :=
  sampleDispatch.take 17 ++ .call (.findAllTasks 0) :: .resume 3 :: sampleDispatch.drop 17

theorem Fleet.answers_at_home_listed :
    ∃ response row, ((fleetMachine 1 Env.sample .silent).exec .sample sampleListing).Answered 0 3
        response ∧ row ∈ response.taskRows ∧
      ((fleetMachine 1 Env.sample .silent).exec .sample sampleListing).SubmittedBy row.1 0
        row.2.input := by
  have hanswer : ((((fleetMachine 1 Env.sample .silent).exec .sample
      sampleListing).pool.outcome? 3).bind fun outcome =>
        outcome.toOption.bind (·.taskRows.head?)).isSome = true := by decide
  obtain ⟨row, hrow⟩ := Option.isSome_iff_exists.mp hanswer
  obtain ⟨outcome, hended, hrow⟩ := Option.bind_eq_some_iff.mp hrow
  obtain ⟨response, hresponse, hrow⟩ := Option.bind_eq_some_iff.mp hrow
  have hanswered : ((fleetMachine 1 Env.sample .silent).exec .sample sampleListing).Answered 0 3
      response := by
    refine ⟨⟨_, rfl, rfl⟩, hended.trans ?_⟩
    cases outcome with
    | ok value => exact congrArg (some ∘ Except.ok) (Option.some.inj hresponse)
    | error error => cases hresponse
  have hruns : (fleetMachine 1 Env.sample .silent).Runs .sample sampleListing := by
    decide
  have hmem := List.mem_of_mem_head? hrow
  exact ⟨response, row, hanswered, hmem,
    (Fleet.answers_at_home Fleet.sample_initial hruns hanswered).2.2.2 row hmem⟩

end CodeCaller
