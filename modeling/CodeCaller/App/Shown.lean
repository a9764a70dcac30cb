import CodeCaller.App.Screen

/-!
# Whose rows the app shows

A row gets on the screen in an answer or an event, and both are at home in the Hub: so a row on the
screen is one of a user for whom the app has made a request, or has held a socket.  `logout` clears
the lists, but not what is under way: the users that count are those whose callbacks were under way
when the lists were cleared, and those who have opened a session since.

### Main definitions

* `Screen.HomeOf`: each row of a screen was stored in a state of the run, as it is shown, and is of
  one of some users, who has submitted the task it is about.
* `Screen.Tidy`: no row is listed twice, and the server that is selected is listed.
* `Device.AtHome`: the invariant of a device.  Beside the screen it is about the session, the
  callbacks and the events under way: an event is at home as long as the socket belongs to the
  session.

### Main results

* `shown_at_home`: from any moment at which the lists were cleared.
* `screen_tidy`: in every state of every run.

### What is not promised

The rows of a screen need not have been there together, and need not be there now.  And the screen
of one user may show a row of the user who was logged in before: a `loadAll` that was under way at
the `logout` sets the lists when its answers arrive.
-/

namespace CodeCaller

open Async

variable {n : ℕ} {env : Env} {detectors : Detectors} {F F' : Fleet n} {seen later : List Hub}
  {users users' : List UserId} {told : ℕ}

/-! ## Rows on the screen -/

/-- **The rows of a screen are at home**: each was stored in a state of the run, as it is shown,
and is of one of these users, who has submitted the task it is about.  The task that an approval
comes with, which the app does not show, was stored beside it. -/
structure Screen.HomeOf (F : Fleet n) (seen : List Hub) (users : List UserId) (s : Screen) :
    Prop where
  servers : ∀ row ∈ s.servers, ∃ user ∈ users, ∃ g ∈ seen, row.OwnedBy g user
  registrationRequests : ∀ row ∈ s.registrationRequests, ∃ user ∈ users, ∃ g ∈ seen,
    row.OwnedBy g user
  tasks : ∀ row ∈ s.tasks, ∃ user ∈ users, F.SubmittedBy row.1 user row.2.input ∧
    ∃ g ∈ seen, g.tasks row.1 = some row.2
  approvals : ∀ row ∈ s.approvals, ∃ user ∈ users,
    (∃ input, F.SubmittedBy row.2.approval.taskId user input) ∧
      ∃ g ∈ seen, g.approvals row.1 = some row.2.approval ∧
        ∀ task, row.2.task = some task → g.tasks row.2.approval.taskId = some task ∧
          F.SubmittedBy row.2.approval.taskId user task.input

/-- **A screen in order**: no row is listed twice, and the server that is selected is listed. -/
structure Screen.Tidy (s : Screen) : Prop where
  servers : (s.servers.map (·.id)).Nodup
  registrationRequests : (s.registrationRequests.map (·.id)).Nodup
  tasks : (s.tasks.map (·.1)).Nodup
  approvals : (s.approvals.map (·.1)).Nodup
  selected : ∀ id, s.selectedServerId = some id → ∃ row ∈ s.servers, row.id = id

namespace Screen

section Lists

variable {ρ : Type} {id : ℕ} {item : ρ} {current : List (ℕ × ρ)} {row : ℕ × ρ}

/-- A row of the new list is the one that was put in, or an old one. -/
theorem mem_upsert (h : row ∈ upsert id item current) : row = (id, item) ∨ row ∈ current := by
  rcases List.mem_cons.mp h with hnew | hold
  · exact .inl hnew
  · exact .inr (List.mem_filter.mp hold).1

/-- The same for a row that is replaced in its place. -/
theorem mem_replace (h : row ∈ replace id item current) :
    row = (id, item) ∨ row ∈ current := by
  obtain ⟨other, hother, heq⟩ := List.mem_map.mp h
  split at heq
  · exact .inl heq.symm
  · exact .inr (heq ▸ hother)

/-- A row that is put in front is taken from its old place. -/
theorem nodup_upsert (h : (current.map (·.1)).Nodup) :
    ((upsert id item current).map (·.1)).Nodup := by
  refine List.nodup_cons.mpr ⟨fun hmem => ?_, h.sublist (List.filter_sublist.map _)⟩
  obtain ⟨other, hother, hid⟩ := List.mem_map.mp hmem
  exact bne_iff_ne.mp (List.mem_filter.mp hother).2 hid

/-- A replaced row stays in its place. -/
theorem replace_keys : (replace id item current).map (·.1) = current.map (·.1) := by
  unfold replace
  rw [List.map_map]
  refine List.map_congr_left fun other _ => ?_
  dsimp only [Function.comp]
  split
  · next heq => exact (beq_iff_eq.mp heq).symm
  · rfl

end Lists

/-- Empty lists are in order. -/
theorem tidy_cleared : Screen.cleared.Tidy where
  servers := List.nodup_nil
  registrationRequests := List.nodup_nil
  tasks := List.nodup_nil
  approvals := List.nodup_nil
  selected := nofun

/-- Nothing is shown, so nothing has to be from anywhere. -/
theorem homeOf_cleared : Screen.cleared.HomeOf F seen users where
  servers _ hrow := absurd hrow List.not_mem_nil
  registrationRequests _ hrow := absurd hrow List.not_mem_nil
  tasks _ hrow := absurd hrow List.not_mem_nil
  approvals _ hrow := absurd hrow List.not_mem_nil

/-- What is at home stays there. -/
theorem HomeOf.mono {s : Screen} (h : s.HomeOf F seen users) (hstep : Advance env F F')
    (hseen : seen ⊆ later) (husers : users ⊆ users') : s.HomeOf F' later users' where
  servers row hrow := by
    obtain ⟨user, huser, g, hg, howned⟩ := h.servers row hrow
    exact ⟨user, husers huser, g, hseen hg, howned⟩
  registrationRequests row hrow := by
    obtain ⟨user, huser, g, hg, howned⟩ := h.registrationRequests row hrow
    exact ⟨user, husers huser, g, hseen hg, howned⟩
  tasks row hrow := by
    obtain ⟨user, huser, hsubmitted, g, hg, hstored⟩ := h.tasks row hrow
    exact ⟨user, husers huser, hsubmitted.advance hstep, g, hseen hg, hstored⟩
  approvals row hrow := by
    obtain ⟨user, huser, ⟨input, hsubmitted⟩, g, hg, hstored, htask⟩ := h.approvals row hrow
    refine ⟨user, husers huser, ⟨input, hsubmitted.advance hstep⟩, g, hseen hg, hstored, ?_⟩
    intro task hnested
    exact ⟨(htask task hnested).1, (htask task hnested).2.advance hstep⟩

end Screen

/-! ## Events and answers -/

/-- A task that is told was submitted with the input it has. -/
theorem Fleet.Tenanted.told_task (hF : F.Tenanted env told seen) {user : UserId} {taskId : TaskId}
    {task : Task} (htold : F.ToldAtHome seen (user, .TASK_UPDATED taskId task)) :
    F.SubmittedBy taskId user task.input := by
  obtain ⟨⟨input, hsubmitted⟩, g, hg, hstored⟩ := htold
  obtain ⟨owner, hby, -⟩ := hF.tasks g hg taskId task hstored
  have hsame := (hF.recorded.submitted_unique hsubmitted hby).2
  exact hsame ▸ hsubmitted

namespace Screen

section Updates

variable {s : Screen} {user : UserId}

/-- A task gets to the front of its list. -/
theorem HomeOf.upsert_task (h : s.HomeOf F seen users) {taskId : TaskId} {task : Task}
    (huser : user ∈ users) (hsubmitted : F.SubmittedBy taskId user task.input)
    (hstored : ∃ g ∈ seen, g.tasks taskId = some task) :
    ({ s with tasks := upsert taskId task s.tasks } : Screen).HomeOf F seen users := by
  refine { h with tasks := fun row hrow => ?_ }
  rcases mem_upsert hrow with rfl | hold
  · exact ⟨user, huser, hsubmitted, hstored⟩
  · exact h.tasks row hold

/-- An approval of an event gets into its list, without its task. -/
theorem HomeOf.approval (h : s.HomeOf F seen users) {approvalId : ApprovalId}
    {approval : Approval} {approvals : List (ApprovalId × ApprovalItem)} (huser : user ∈ users)
    (hsubmitted : ∃ input, F.SubmittedBy approval.taskId user input)
    (hstored : ∃ g ∈ seen, g.approvals approvalId = some approval)
    (hrows : ∀ row ∈ approvals, row = (approvalId, ⟨approval, none⟩) ∨ row ∈ s.approvals) :
    ({ s with approvals } : Screen).HomeOf F seen users := by
  obtain ⟨g, hg, happroval⟩ := hstored
  refine { h with approvals := fun row hrow => ?_ }
  rcases hrows row hrow with rfl | hold
  · exact ⟨user, huser, hsubmitted, g, hg, happroval, nofun⟩
  · exact h.approvals row hold

/-- An event that was told at home brings a row that is. -/
theorem HomeOf.onEvent (h : s.HomeOf F seen users) (hF : F.Tenanted env told seen)
    (huser : user ∈ users) {message : AppOutbound} (htold : F.ToldAtHome seen (user, message)) :
    (s.onEvent message).HomeOf F seen users := by
  cases message with
  | TASK_UPDATED taskId task => exact h.upsert_task huser (hF.told_task htold) htold.2
  | APPROVAL_PENDING approvalId approval =>
      exact h.approval huser htold.1 htold.2 fun _ hrow => mem_upsert hrow
  | APPROVAL_RESOLVED approvalId approval =>
      exact h.approval huser htold.1 htold.2 fun _ hrow => mem_replace hrow

/-- And it leaves the screen in order. -/
theorem Tidy.onEvent (h : s.Tidy) (message : AppOutbound) : (s.onEvent message).Tidy := by
  cases message with
  | TASK_UPDATED taskId task => exact { h with tasks := nodup_upsert h.tasks }
  | APPROVAL_PENDING approvalId approval =>
      exact { h with approvals := nodup_upsert h.approvals }
  | APPROVAL_RESOLVED approvalId approval =>
      refine { h with approvals := ?_ }
      change ((replace approvalId _ s.approvals).map (·.1)).Nodup
      rw [replace_keys]
      exact h.approvals

/-- The server that is selected is one of the list. -/
theorem preferred_mem {current : Option ServerId} {serverData : List PublicServer} {id : ServerId}
    (h : preferred current serverData = some id) : ∃ row ∈ serverData, row.id = id := by
  unfold preferred at h
  split at h
  · next kept hkept =>
    obtain ⟨-, hlisted⟩ := Option.filter_eq_some_iff.mp hkept
    cases h
    obtain ⟨row, hrow, hid⟩ := List.any_eq_true.mp hlisted
    exact ⟨row, hrow, beq_iff_eq.mp hid⟩
  · obtain ⟨row, hrow, rfl⟩ := Option.map_eq_some_iff.mp h
    refine ⟨row, ?_, rfl⟩
    rcases Option.or_eq_some_iff.mp hrow with hnamed | ⟨-, hfirst⟩
    · exact List.mem_of_find?_eq_some hnamed
    · exact List.mem_of_mem_head? hfirst

end Updates

end Screen

/-- The user of a session that an action opens. -/
def DeviceAction.opened : DeviceAction n → List UserId
  | .openSession user => [user]
  | _ => []

/-- A request of the app is a call of the user of the session. -/
theorem Resource.call_user (user : UserId) (resource : Resource) :
    (resource.call user).user = some user := by cases resource <;> rfl

namespace Device

section Answers

variable {D : Device n} {invocation : Invocation} {resource : Resource} {i : ℕ}
  {response : Response}

/-- **The answer to a request of a callback is the user's.** -/
theorem answered (hF : D.fleet.Tenanted env told seen)
    (hrequested : D.requested invocation resource i) (hanswer : D.answer i = some response) :
    response.AtHome (D.fleet.passed i) invocation.user ∧ D.fleet.passed i ⊆ seen ∧
      response.Distinct ∧
      ∀ row ∈ response.taskRows, D.fleet.SubmittedBy row.1 invocation.user row.2.input := by
  obtain ⟨served, hserved, hcall⟩ := Option.map_eq_some_iff.mp hrequested.2
  refine hF.answered ⟨⟨served, hserved, ?_⟩, ?_⟩
  · rw [hcall]
    exact Resource.call_user _ _
  · unfold answer at hanswer
    split at hanswer
    · next houtcome =>
      cases hanswer
      exact houtcome
    · cases hanswer

/-- The answer to the request of `createTask`, if it was that. -/
theorem homeOf_onAnswer (hF : D.fleet.Tenanted env told seen)
    (hscreen : D.screen.HomeOf D.fleet seen users) (huser : invocation.user ∈ users)
    (hrequested : D.requested invocation resource i) (hanswer : D.answer i = some response) :
    (invocation.callback.onAnswer response D.screen).HomeOf D.fleet seen users := by
  unfold Callback.onAnswer
  split
  · obtain ⟨⟨g, hg, hstored, -⟩, hpassed, -, hsubmitted⟩ := answered hF hrequested hanswer
    exact hscreen.upsert_task huser (hsubmitted _ List.mem_cons_self) ⟨g, hpassed hg, hstored⟩
  · exact hscreen

/-- An answer puts one row into a list that may already have it. -/
theorem tidy_onAnswer {callback : Callback} (htidy : D.screen.Tidy) :
    (callback.onAnswer response D.screen).Tidy := by
  unfold Callback.onAnswer
  split
  · exact { htidy with tasks := Screen.nodup_upsert htidy.tasks }
  · exact htidy

section Loaded

variable {servers registrationRequests tasks approvals : ℕ} {serverData : List PublicServer}
  {registrationRequestData : List PublicRegistration} {taskData : List (TaskId × Task)}
  {approvalData : List (ApprovalId × Approval × Task)}

/-- Four answers that are at home are a screen that is. -/
theorem homeOf_loaded (hF : D.fleet.Tenanted env told seen) (huser : invocation.user ∈ users)
    (h : D.Loads invocation servers registrationRequests tasks approvals serverData
      registrationRequestData taskData approvalData) :
    (D.screen.loaded serverData registrationRequestData taskData approvalData).HomeOf D.fleet seen
      users := by
  obtain ⟨⟨g₁, hg₁, hservers⟩, hpassed₁, -, -⟩ := answered hF h.servers_requested h.servers_answered
  obtain ⟨⟨g₂, hg₂, hregistrations⟩, hpassed₂, -, -⟩ :=
    answered hF h.registrations_requested h.registrations_answered
  obtain ⟨⟨g₃, hg₃, htasks⟩, hpassed₃, -, hsubmitted⟩ :=
    answered hF h.tasks_requested h.tasks_answered
  obtain ⟨⟨g₄, hg₄, happrovals⟩, hpassed₄, -, hnested⟩ :=
    answered hF h.approvals_requested h.approvals_answered
  refine ⟨fun row hrow => ⟨_, huser, g₁, hpassed₁ hg₁, hservers row hrow⟩,
    fun row hrow => ⟨_, huser, g₂, hpassed₂ hg₂, hregistrations row hrow⟩,
    fun row hrow => ⟨_, huser, hsubmitted row hrow, g₃, hpassed₃ hg₃, (htasks row hrow).1⟩,
    fun row hrow => ?_⟩
  obtain ⟨shown, hshown, rfl⟩ := List.mem_map.mp hrow
  obtain ⟨hstored, htask, howner⟩ := happrovals shown hshown
  refine ⟨_, huser, hF.submitted (hpassed₄ hg₄) howner, g₄, hpassed₄ hg₄, hstored, ?_⟩
  intro task hsame
  cases hsame
  exact ⟨htask, hnested _ (List.mem_map_of_mem hshown)⟩

/-- And a screen in order. -/
theorem tidy_loaded (hF : D.fleet.Tenanted env told seen)
    (h : D.Loads invocation servers registrationRequests tasks approvals serverData
      registrationRequestData taskData approvalData) :
    (D.screen.loaded serverData registrationRequestData taskData approvalData).Tidy where
  servers := (answered hF h.servers_requested h.servers_answered).2.2.1
  registrationRequests :=
    (answered hF h.registrations_requested h.registrations_answered).2.2.1
  tasks := (answered hF h.tasks_requested h.tasks_answered).2.2.1
  approvals := by
    change ((approvalData.map _).map Prod.fst).Nodup
    rw [List.map_map]
    exact (answered hF h.approvals_requested h.approvals_answered).2.2.1
  selected _ hselected := Screen.preferred_mem hselected

end Loaded

end Answers

/-! ## The invariant -/

/-- **What a device holds is at home**: the rows on its screen and the events on their way; its
session and its callbacks are of these users. -/
structure AtHome (env : Env) (told : ℕ) (seen : List Hub) (users : List UserId) (D : Device n) :
    Prop where
  tenanted : D.fleet.Tenanted env told seen
  user : ∀ user, D.user = some user → user ∈ users
  invocations : ∀ invocation ∈ D.invocations, invocation.user ∈ users
  socket : ∀ inbox, D.socket = some inbox → ∃ user, D.user = some user ∧
    ∀ message ∈ inbox, D.fleet.ToldAtHome seen (user, message)
  screen : D.screen.HomeOf D.fleet seen users
  tidy : D.screen.Tidy

section AtHome

variable {D : Device n}

namespace AtHome

/-- A step of the deployment, and more users. -/
theorem advance (h : D.AtHome env told seen users) (hstep : Advance env D.fleet F')
    (husers : users ⊆ users') : (D.onFleet F').AtHome env told (seen ++ [F'.hub]) users' := by
  have hgrows : seen ⊆ seen ++ [F'.hub] := List.subset_append_left _ _
  have htenanted := h.tenanted.step hstep
  refine ⟨htenanted, fun user huser => husers (h.user user huser),
    fun invocation hinvocation => husers (h.invocations invocation hinvocation),
    fun inbox hinbox => ?_, h.screen.mono hstep hgrows husers, h.tidy⟩
  obtain ⟨before, hbefore, rfl⟩ := Option.map_eq_some_iff.mp hinbox
  obtain ⟨user, huser, hheard⟩ := h.socket before hbefore
  refine ⟨user, huser, fun message hmessage => ?_⟩
  rcases List.mem_append.mp hmessage with hold | hnew
  · exact (hheard message hold).advance hstep hgrows
  · obtain ⟨notice, hnotice, rfl⟩ := List.mem_map.mp hnew
    obtain ⟨hsent, hroom⟩ := List.mem_filter.mp hnotice
    have hto : user = notice.1 := Option.some.inj (huser.symm.trans (beq_iff_eq.mp hroom))
    rw [hto]
    exact htenanted.notified notice (List.drop_subset_drop_left _ h.tenanted.told_le hsent)

/-- The session may become another one, if its socket is closed. -/
theorem closed (h : D.AtHome env told seen users) {session : Option UserId}
    (hsession : ∀ user, session = some user → user ∈ users) (clearing : Bool) :
    ({ D with user := session, socket := none, clearing } : Device n).AtHome env told seen users :=
  ⟨h.tenanted, hsession, h.invocations, nofun, h.screen, h.tidy⟩

/-- A callback begins. -/
theorem begin (h : D.AtHome env told seen users) {user : UserId} (huser : user ∈ users)
    (callback : Callback) : (D.begin user callback).AtHome env told seen users := by
  refine ⟨h.tenanted, h.user, fun invocation hinvocation => ?_, h.socket, h.screen, h.tidy⟩
  rcases List.mem_append.mp hinvocation with hold | hnew
  · exact h.invocations invocation hold
  · rw [List.mem_singleton.mp hnew]
    exact huser

/-- The socket of the session before is closed, and `loadAll` begins for a user who is in the set.
-/
theorem effect (h : D.AtHome env told seen users) {session : Option UserId}
    (hsession : ∀ user, session = some user → user ∈ users) (clearing : Bool) :
    ({ D with user := session, clearing } : Device n).effect.AtHome env told seen users := by
  have hclosed := h.closed hsession clearing
  cases session with
  | none => exact hclosed
  | some user => exact hclosed.begin (hsession user rfl) .loadAll

/-- The screen changes, and a callback goes on or ends. -/
theorem updated (h : D.AtHome env told seen users) {screen : Screen} {invocations : List Invocation}
    (hinvocations : ∀ invocation ∈ invocations, invocation.user ∈ users)
    (hscreen : screen.HomeOf D.fleet seen users) (htidy : screen.Tidy) :
    ({ D with screen, invocations } : Device n).AtHome env told seen users :=
  ⟨h.tenanted, h.user, hinvocations, h.socket, hscreen, htidy⟩

/-- The notice was sent to the user of the socket. -/
theorem receive (h : D.AtHome env told seen users) : D.receive.AtHome env told seen users := by
  unfold Device.receive
  split
  · next message rest hsocket =>
    obtain ⟨user, huser, hheard⟩ := h.socket _ hsocket
    refine ⟨h.tenanted, h.user, h.invocations, fun inbox hinbox => ?_,
      h.screen.onEvent h.tenanted (h.user user huser) (hheard message List.mem_cons_self),
      h.tidy.onEvent message⟩
    cases hinbox
    exact ⟨user, huser, fun other hother => hheard other (List.mem_cons_of_mem _ hother)⟩
  · exact h

/-- The answer is one to the call of the callback, and so to its user, who may not be the user of
the session any more. -/
theorem onAnswer (h : D.AtHome env told seen users) {place i : ℕ}
    (henabled : D.enabled (.answered place i)) :
    (D.onAnswer place i).AtHome env told seen users := by
  obtain ⟨invocation, resource, response, hplace, -, -, hrequested, hanswer⟩ := henabled
  have huser := h.invocations invocation (List.mem_of_getElem? hplace)
  unfold Device.onAnswer
  rw [hplace, hanswer]
  refine h.updated (fun other hother => ?_)
    (homeOf_onAnswer h.tenanted h.screen huser hrequested hanswer) (tidy_onAnswer h.tidy)
  rcases List.mem_or_eq_of_mem_set hother with hold | rfl
  · exact h.invocations other hold
  · exact huser

/-- The four answers are to the user of the callback. They may have been read from the database at
four different moments. -/
theorem onLoaded (h : D.AtHome env told seen users)
    {place servers registrationRequests tasks approvals : ℕ}
    (henabled : D.enabled (.loaded place servers registrationRequests tasks approvals)) :
    (D.onLoaded place servers registrationRequests tasks approvals).AtHome env told seen users := by
  obtain ⟨invocation, _, _, _, _, hplace, -, hloads⟩ := henabled
  have huser := h.invocations invocation (List.mem_of_getElem? hplace)
  unfold Device.onLoaded
  rw [hloads.servers_answered, hloads.registrations_answered, hloads.tasks_answered,
    hloads.approvals_answered]
  exact h.updated (fun other hother => h.invocations other (List.mem_of_mem_eraseIdx hother))
    (homeOf_loaded h.tenanted huser hloads) (tidy_loaded h.tenanted hloads)

/-- One action of the app. -/
theorem app_step (h : D.AtHome env told seen users) (detectors : Detectors)
    {action : DeviceAction n} (henabled : D.enabled action) (hopened : action.opened ⊆ users)
    (happ : ∀ step, action ≠ .hub step) :
    (D.step env detectors action).AtHome env told seen users := by
  cases action with
  | hub step => exact absurd rfl (happ step)
  | openSession user =>
      have hsession : ∀ other, some user = some other → other ∈ users := by
        intro other hother
        cases hother
        exact hopened List.mem_cons_self
      exact h.effect hsession D.clearing
  | logout =>
      have hsession : ∀ other, none = some other → other ∈ users := nofun
      exact h.effect hsession true
  | clear =>
      exact ⟨h.tenanted, h.user, h.invocations, h.socket, Screen.homeOf_cleared,
        Screen.tidy_cleared⟩
  | renew => exact h.effect h.user D.clearing
  | connect =>
      obtain ⟨user, huser⟩ := Option.ne_none_iff_exists'.mp henabled.1
      refine ⟨h.tenanted, h.user, h.invocations, fun inbox hinbox => ?_, h.screen, h.tidy⟩
      cases hinbox
      exact ⟨user, huser, fun message hmessage => absurd hmessage List.not_mem_nil⟩
  | disconnect => exact ⟨h.tenanted, h.user, h.invocations, nofun, h.screen, h.tidy⟩
  | receive => exact h.receive
  | press button =>
      change (D.press button).AtHome _ _ _ _
      unfold Device.press
      split
      · next user callback huser _ => exact h.begin (h.user user huser) callback
      · exact h
  | selectServer serverId =>
      refine h.updated h.invocations { h.screen with } { h.tidy with selected := fun id hid => ?_ }
      cases hid
      exact henabled
  | answered place i => exact h.onAnswer henabled
  | loaded place servers registrationRequests tasks approvals => exact h.onLoaded henabled
  | failed place =>
      exact h.updated (fun other hother =>
        h.invocations other (List.mem_of_mem_eraseIdx hother)) h.screen h.tidy

/-- An action of the app leaves the deployment as it is. -/
theorem step_fleet (env : Env) (detectors : Detectors) (D : Device n) {action : DeviceAction n}
    (happ : ∀ step, action ≠ .hub step) :
    (D.step env detectors action).fleet = D.fleet := by
  have heffect : ∀ D : Device n, D.effect.fleet = D.fleet := by
    intro D
    unfold Device.effect
    split <;> rfl
  cases action with
  | hub step => exact absurd rfl (happ step)
  | openSession _ | logout | renew => exact heffect _
  | receive =>
      change D.receive.fleet = D.fleet
      unfold Device.receive
      split <;> rfl
  | press button =>
      change (D.press button).fleet = D.fleet
      unfold Device.press
      split <;> rfl
  | answered place i =>
      change (D.onAnswer place i).fleet = D.fleet
      unfold Device.onAnswer
      split <;> rfl
  | loaded place servers registrationRequests tasks approvals =>
      change (D.onLoaded place servers registrationRequests tasks approvals).fleet = D.fleet
      unfold Device.onLoaded
      split <;> rfl
  | _ => rfl

/-- More of the history, and more users. -/
theorem still (h : D.AtHome env told seen users) (husers : users ⊆ users') :
    D.AtHome env told (seen ++ [D.fleet.hub]) users' := by
  have hidle : Advance env D.fleet D.fleet := .idle rfl
  have hstill := h.advance hidle husers
  have hfleet : D.onFleet D.fleet = D := by
    unfold Device.onFleet
    rw [List.drop_length]
    cases hsocket : D.socket <;> simp [← hsocket]
  rwa [hfleet] at hstill

/-- **One step of a device.** -/
theorem step (h : D.AtHome env told seen users) (detectors : Detectors) {action : DeviceAction n}
    (henabled : D.enabled action) :
    (D.step env detectors action).AtHome env told
      (seen ++ [(D.step env detectors action).fleet.hub]) (users ++ action.opened) := by
  have hold : users ⊆ users ++ action.opened := List.subset_append_left _ _
  by_cases happ : ∃ step, action = .hub step
  · obtain ⟨action, rfl⟩ := happ
    exact h.advance (Fleet.advance henabled) hold
  · have hmine : ∀ step, action ≠ .hub step := fun step heq => happ ⟨step, heq⟩
    have hstep := (h.still hold).app_step detectors henabled
      (List.subset_append_right _ _) hmine
    rwa [← step_fleet env detectors D hmine] at hstep

/-- **A run of a device**, from a state in which it is at home. -/
theorem run (h : D.AtHome env told seen users) {actions : List (DeviceAction n)}
    (hruns : (deviceMachine n env detectors).Runs D actions) :
    ((deviceMachine n env detectors).exec D actions).AtHome env told
      (seen ++ ((deviceMachine n env detectors).states D actions).map (·.fleet.hub))
      (users ++ actions.flatMap DeviceAction.opened) := by
  refine Machine.exec_record (I := fun actions states D' => D'.AtHome env told
    (seen ++ states.map (·.fleet.hub)) (users ++ actions.flatMap DeviceAction.opened))
    ?_ (fun actions states D' action hD' henabled => ?_) hruns
  · exact h.still (List.subset_append_left _ _)
  · rw [List.map_append, ← List.append_assoc, List.flatMap_append, ← List.append_assoc]
    have hstep := hD'.step detectors henabled
    rwa [← List.flatMap_singleton DeviceAction.opened action] at hstep

end AtHome

/-- An app that has just started. -/
theorem Initial.at_home (hstart : D.Initial) :
    D.AtHome env D.fleet.hub.notified.length [D.fleet.hub] [] where
  tenanted := hstart.fleet.tenanted
  user user huser := by
    rw [hstart.user] at huser
    cases huser
  invocations invocation hinvocation := by
    rw [hstart.invocations] at hinvocation
    cases hinvocation
  socket inbox hinbox := by
    rw [hstart.socket] at hinbox
    cases hinbox
  screen := by
    rw [hstart.screen]
    exact Screen.homeOf_cleared
  tidy := by
    rw [hstart.screen]
    exact Screen.tidy_cleared

end AtHome

/-! ## Runs -/

/-- The users whose session is open, or whose callbacks are under way. -/
def engaged (D : Device n) : List UserId := D.user.toList ++ D.invocations.map (·.user)

/-- **Whose rows the app shows.**  Whatever the app, the Hub, the daemons and the network do,
once the lists were cleared every row on the screen is of a user whose session was open or who
had a callback under way then, or who has opened a session since: the Hub has stored the row as
it is shown, and its task was submitted by that user.  From the start of the app, these are the
users who have opened a session on the device. -/
theorem shown_at_home {D : Device n} (hstart : D.Initial) {front back : List (DeviceAction n)}
    (hruns : (deviceMachine n env detectors).Runs D (front ++ back))
    (hcleared : ((deviceMachine n env detectors).exec D front).screen = .cleared) :
    ((deviceMachine n env detectors).exec D (front ++ back)).screen.HomeOf
      ((deviceMachine n env detectors).exec D (front ++ back)).fleet
      (((deviceMachine n env detectors).states D (front ++ back)).map (·.fleet.hub))
      (((deviceMachine n env detectors).exec D front).engaged ++
        back.flatMap DeviceAction.opened) := by
  obtain ⟨hfront, hback⟩ := ((deviceMachine n env detectors).runs_append D front back).mp hruns
  have hmiddle := hstart.at_home.run hfront
  have hengaged : ((deviceMachine n env detectors).exec D front).AtHome env
      D.fleet.hub.notified.length
      ([D.fleet.hub] ++ ((deviceMachine n env detectors).states D front).map (·.fleet.hub))
      ((deviceMachine n env detectors).exec D front).engaged := by
    refine ⟨hmiddle.tenanted, fun user huser => ?_, fun invocation hinvocation => ?_,
      hmiddle.socket, ?_, hmiddle.tidy⟩
    · exact List.mem_append_left _ (Option.mem_toList.mpr huser)
    · exact List.mem_append_right _ (List.mem_map_of_mem hinvocation)
    · rw [hcleared]
      exact Screen.homeOf_cleared
  have hlast := hengaged.run hback
  rw [← Machine.exec_append] at hlast
  -- the history of the second part goes on from that of the first
  refine hlast.screen.mono (@Advance.idle n env _ _ rfl) (fun g hg => ?_) (List.Subset.refl _)
  rw [Machine.states_append]
  rcases List.mem_append.mp hg with hbefore | hafter
  · have hstates : g ∈ ((deviceMachine n env detectors).states D front).map (·.fleet.hub) := by
      rcases List.mem_cons.mp hbefore with rfl | hstates
      · exact List.mem_map_of_mem (Machine.mem_states_start _ D front)
      · exact hstates
    obtain ⟨state, hstate, rfl⟩ := List.mem_map.mp hstates
    refine List.mem_map_of_mem ?_
    rcases List.mem_append.mp hstate with hvisit | hend
    · exact List.mem_append_left _ hvisit
    · rw [List.mem_singleton.mp hend]
      exact List.mem_append_right _ (Machine.mem_states_start _ _ back)
  · obtain ⟨state, hstate, rfl⟩ := List.mem_map.mp hafter
    exact List.mem_map_of_mem (List.mem_append_right _ hstate)

/-- **The lists of the app are in order**: in every run no server, registration, task or approval
is listed twice, and the server that is selected for a new task is one that is listed. -/
theorem screen_tidy {D : Device n} (hstart : D.Initial) {actions : List (DeviceAction n)}
    (hruns : (deviceMachine n env detectors).Runs D actions) :
    ((deviceMachine n env detectors).exec D actions).screen.Tidy :=
  (hstart.at_home.run hruns).tidy

/-- A run of the deployment is one of the device. -/
theorem hub_runs {D : Device n} {actions : List (Action n)}
    (hruns : (fleetMachine n env detectors).Runs D.fleet actions) :
    (deviceMachine n env detectors).Runs D (actions.map .hub) := by
  induction actions generalizing D with
  | nil => exact Machine.runs_nil _ _
  | cons action actions ih =>
      obtain ⟨henabled, hrest⟩ := ((fleetMachine n env detectors).runs_cons _ _ _).mp hruns
      exact ((deviceMachine n env detectors).runs_cons _ _ _).mpr ⟨henabled, ih hrest⟩

/-- The device of a deployment of one daemon. -/
def sample : Device 1 := ⟨.sample, none, none, .cleared, false, []⟩

theorem sample_initial : Device.sample.Initial := ⟨Fleet.sample_initial, rfl, rfl, rfl, rfl, rfl⟩

/-- A `loadAll` that ends has its four answers. -/
theorem answers_of_onLoaded {D : Device n}
    {place servers registrationRequests tasks approvals : ℕ}
    (hends : (D.onLoaded place servers registrationRequests tasks approvals).invocations.length ≠
      D.invocations.length) :
    ∃ serverData registrationRequestData taskData approvalData,
      D.answer servers = some (.servers serverData) ∧
      D.answer registrationRequests = some (.registrations registrationRequestData) ∧
      D.answer tasks = some (.tasks taskData) ∧
      D.answer approvals = some (.approvals approvalData) := by
  unfold onLoaded at hends
  split at hends
  · next hservers hregistrations htasks happrovals =>
    exact ⟨_, _, _, _, hservers, hregistrations, htasks, happrovals⟩
  · exact absurd rfl hends

/-- The requests of one `loadAll` of user 0. -/
def sampleLoad : List (Action 1) :=
  [.call (.findAllServers 0), .resume 0] ++
    .call (.findPendingRegistrations 0) :: List.replicate 3 (.resume 1) ++
    [.call (.findAllTasks 0), .resume 2] ++
    [.call (.listApprovals 0 (some (some .PENDING))), .resume 3]

/-- User 0 logs out while the lists are loaded, and the answers come after that. -/
def sampleLogout : List (DeviceAction 1) :=
  .openSession 0 :: sampleLoad.map .hub ++ [.logout, .clear]

theorem sampleLogout_runs :
    (deviceMachine 1 Env.sample .silent).Runs .sample (sampleLogout ++ [.loaded 0 0 1 2 3]) := by
  refine ((deviceMachine 1 Env.sample .silent).runs_append _ _ _).mpr ⟨?_, ?_⟩
  · refine ((deviceMachine 1 Env.sample .silent).runs_append _ _ _).mpr ⟨?_, ?_⟩
    · refine ((deviceMachine 1 Env.sample .silent).runs_cons _ _ _).mpr ⟨trivial, hub_runs ?_⟩
      exact (show (fleetMachine 1 Env.sample .silent).Runs .sample sampleLoad by decide)
    · refine ((deviceMachine 1 Env.sample .silent).runs_cons _ _ _).mpr
        ⟨show _ ≠ none by decide, ?_⟩
      exact ((deviceMachine 1 Env.sample .silent).runs_cons _ _ _).mpr
        ⟨rfl, Machine.runs_nil _ _⟩
  · refine ((deviceMachine 1 Env.sample .silent).runs_cons _ _ _).mpr ⟨?_, Machine.runs_nil _ _⟩
    obtain ⟨_, _, _, _, hservers, hregistrations, htasks, happrovals⟩ :=
      @answers_of_onLoaded 1 ((deviceMachine 1 Env.sample .silent).exec .sample sampleLogout)
        0 0 1 2 3 (by decide)
    exact ⟨⟨0, .loadAll, true, 0⟩, _, _, _, _, rfl, rfl, ⟨Nat.zero_le _, rfl⟩, hservers,
      ⟨Nat.zero_le _, rfl⟩, hregistrations, ⟨Nat.zero_le _, rfl⟩, htasks, ⟨Nat.zero_le _, rfl⟩,
      happrovals⟩

/-- **The lists come back after `logout`**: a `loadAll` that is under way fills them again. -/
theorem shown_at_home_leftover :
    ∃ row ∈ ((deviceMachine 1 Env.sample .silent).exec .sample
        (sampleLogout ++ [.loaded 0 0 1 2 3])).screen.servers, ∃ g, row.OwnedBy g 0 := by
  have hshown := (shown_at_home sample_initial sampleLogout_runs rfl).servers
  have hengaged :
      ((deviceMachine 1 Env.sample .silent).exec .sample sampleLogout).engaged = [0] := by
    decide
  obtain ⟨row, hrow⟩ := Option.isSome_iff_exists.mp (show (((deviceMachine 1 Env.sample
    .silent).exec .sample (sampleLogout ++ [.loaded 0 0 1 2 3])).screen.servers.head?).isSome = true
      by decide)
  have hmem := List.mem_of_mem_head? hrow
  obtain ⟨user, huser, g, -, howned⟩ := hshown row hmem
  rw [hengaged] at huser
  obtain rfl := List.mem_singleton.mp huser
  exact ⟨row, hmem, g, howned⟩

theorem screen_tidy_selected :
    ∃ row ∈ ((deviceMachine 1 Env.sample .silent).exec .sample
      (sampleLogout ++ [.loaded 0 0 1 2 3])).screen.servers, row.id = 0 :=
  (screen_tidy sample_initial sampleLogout_runs).selected 0 (by decide)

end Device

end CodeCaller
