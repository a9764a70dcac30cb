import CodeCaller.Hub.Isolation

/-!
# Tenants

What the REST side and failover keep apart: the owner of a task is the user who submitted it,
messages about a task go to servers of its owner, a request changes no row of another user, and
answers are made of the caller's rows.

* `foreign_of_user`: a request is foreign to every other user, so `Hub.Isolation` applies to it.
* `after_delivered`: whatever a call sends, it sends to servers of the owner of the task.  An
  effect emits at most one message and delivers it, but the chain of a call has further effects, so
  the fact has to survive them; that is `Effect.keeps_delivered`, and for a deletion, which emits
  nothing, `Effect.removal_silent`.
* `exec_keepsOwner`: a task that has an owner keeps it or is gone for good.  The second part needs
  that keys are not used again.
-/

namespace CodeCaller

open Async

variable {env : Env} {call : HubCall} {r r' : Rows} {owner : UserId}

/-! ## Servers -/

/-- A request does not change the servers of other users. -/
theorem Effect.servers_of (h : Effect env call r r') {user : UserId}
    (huser : call.user = some user) (hother : owner ≠ user) :
    r'.serversOf owner = r.serversOf owner := by
  funext id
  unfold Rows.serversOf
  have hchange := h.server id
  generalize r.servers id = row at hchange ⊢
  generalize r'.servers id = row' at hchange ⊢
  have hforeign : ∀ {server : Server}, call.user = some server.ownerId →
      (some server).filter (fun server => server.ownerId == owner) = none := fun {server} h => by
    rw [huser, Option.some.injEq] at h
    simpa [← h] using hother.symm
  cases hchange with
  | kept => rfl
  | added hadded => exact hforeign hadded
  | marked hnone =>
      rw [huser] at hnone
      cases hnone
  | deleted hcall => exact (hforeign (by rw [hcall]; rfl)).symm

/-- And so does the whole call. -/
theorem after_servers_of {h : Hub} {user : UserId} (huser : call.user = some user)
    (hother : owner ≠ user) :
    (h.after env call).rows.serversOf owner = h.rows.serversOf owner := by
  have hchain := after_effects env h call
  generalize (h.after env call).rows = r at hchain ⊢
  induction hchain with
  | refl => rfl
  | tail _ hstep ih => exact (hstep.servers_of huser hother).trans ih

/-- A request of a user is foreign to every other user. -/
theorem foreign_of_user {user : UserId} (huser : call.user = some user) (hother : owner ≠ user) :
    call.Foreign r owner where
  concerns howns hconcerns := by
    rw [hconcerns.1 user huser, Option.some.injEq] at howns
    exact hother howns.symm
  submits {dto} hcall := by
    rw [hcall] at huser
    cases huser
    exact hother rfl

/-! ## Messages to daemons -/

/-- A message went to a server of the owner of its task. -/
def Rows.Delivered (r : Rows) (emission : Emission) : Prop :=
  ∃ server, r.servers emission.serverId = some server ∧
    r.ownerOf emission.message.taskId = some server.ownerId

/-- What was delivered stays so while nothing is deleted. -/
theorem Effect.keeps_delivered (h : Effect env call r r') (hkeeps : Keeps r r')
    {emission : Emission} (hdelivered : r.Delivered emission) : r'.Delivered emission := by
  obtain ⟨server, hserver, howner⟩ := hdelivered
  obtain ⟨server', hserver', heq⟩ := hkeeps.server hserver
  refine ⟨server', hserver', ?_⟩
  rcases h.keeps_owner howner with hafter | ⟨-, hgone⟩
  · rw [hafter, heq]
  · obtain ⟨task, -, htask, -⟩ := ownerOf_some howner
    exact absurd hgone (hkeeps.task (by rw [htask]; exact nofun))

/-- An effect emits at most one message, and delivers it. -/
theorem Effect.emits (h : Effect env call r r') (hs : r.Sound) :
    r'.emitted = r.emitted ∨
      Keeps r r' ∧ ∃ emission, r'.emitted = r.emitted ++ [emission] ∧ r'.Delivered emission ∧
        r'.sockets = r.sockets := by
  have hcases := h.deletes_or_keeps
  have hdelivered : ∀ {emission : Emission}, r'.emitted ≠ r.emitted → r.Delivered emission →
      Keeps r r' ∧ r'.Delivered emission := by
    intro emission hne hd
    rcases hcases with ⟨_, _, -, -, rfl⟩ | hkeeps
    · exact absurd rfl hne
    · exact ⟨hkeeps, h.keeps_delivered hkeeps hd⟩
  cases h with
  | @assigned _ _ taskId serverId input started lastSeen updated hcall hjob hid hcandidate =>
      obtain ⟨server, hserver, howner⟩ := hcandidate.owner
      have hsent : r.Delivered ⟨serverId, .TASK_SUBMIT taskId input⟩ := ⟨server, hserver, howner⟩
      obtain ⟨hkeeps, hafter⟩ := hdelivered (by simp) hsent
      exact .inr ⟨hkeeps, _, rfl, hafter, rfl⟩
  | @sent message task hconcern htask honline hmessage =>
      obtain ⟨server, hserver, howner⟩ := hs.owned htask
      have hsent : r.Delivered ⟨task.serverId, message⟩ := ⟨server, hserver, howner⟩
      obtain ⟨hkeeps, hafter⟩ := hdelivered (by simp) hsent
      exact .inr ⟨hkeeps, _, rfl, hafter, rfl⟩
  | _ => exact .inl rfl

/-- A deletion of a server emits nothing, and no effect of it does. -/
theorem Effect.removal_silent (h : Effect env call r r') {user : UserId} {serverId : ServerId}
    (hcall : call = .removeServer user serverId) : r'.emitted = r.emitted := by
  cases h with
  | assigned _ _ _ _ hdispatch =>
      rw [hcall] at hdispatch
      cases hdispatch
  | sent _ _ _ hmessage =>
      rcases hmessage with ⟨_, hcancel, -⟩ | ⟨_, _, _, _, hdecide, -⟩
      · rw [hcall] at hcancel
        cases hcancel
      · rw [hcall] at hdecide
        cases hdecide
  | _ => rfl

/-- **What a call sends goes to servers of the owner of the task.** -/
theorem after_delivered {h : Hub} (hs : h.rows.Sound) :
    ∃ sent, (h.after env call).emitted = h.emitted ++ sent ∧
      ∀ emission ∈ sent, (h.after env call).rows.Delivered emission := by
  have hchain := after_effects env h call
  change ∃ sent, (h.after env call).rows.emitted = h.rows.emitted ++ sent ∧ _
  generalize (h.after env call).rows = r at hchain ⊢
  suffices hall : r.Sound ∧ ∃ sent, r.emitted = h.rows.emitted ++ sent ∧
      (∀ emission ∈ sent, r.Delivered emission) ∧
      ((∃ user serverId, call = .removeServer user serverId) → sent = []) by
    obtain ⟨-, sent, hemitted, hdelivered, -⟩ := hall
    exact ⟨sent, hemitted, hdelivered⟩
  induction hchain with
  | refl => exact ⟨hs, [], (List.append_nil _).symm, nofun, fun _ => rfl⟩
  | @tail r r' _ hstep ih =>
      obtain ⟨hs, sent, hemitted, hdelivered, hsilent⟩ := ih
      refine ⟨hstep.sound hs, ?_⟩
      rcases hstep.emits hs with hsame | ⟨hkeeps, emission, hadded, hnew, -⟩
      · refine ⟨sent, hsame.trans hemitted, fun emission hmem => ?_, hsilent⟩
        rcases hstep.deletes_or_keeps with ⟨serverId, server, hcall, -⟩ | hkeeps
        · rw [hsilent ⟨_, _, hcall⟩] at hmem
          cases hmem
        · exact hstep.keeps_delivered hkeeps (hdelivered emission hmem)
      · refine ⟨sent ++ [emission], by rw [hadded, hemitted, List.append_assoc],
          fun other hmem => ?_, ?_⟩
        · rcases List.mem_append.mp hmem with hold | hlast
          · exact hstep.keeps_delivered hkeeps (hdelivered other hold)
          · obtain rfl := List.mem_singleton.mp hlast
            exact hnew
        · rintro ⟨user, serverId, hcall⟩
          have hsame := hstep.removal_silent hcall
          rw [hadded] at hsame
          simp at hsame

/-! ## Owners over a run -/

/-- A task that has an owner keeps it, or is gone for good. -/
def KeepsOwner (owner : UserId) (taskId : TaskId) (r : Rows) : Prop :=
  taskId < r.tasks.next ∧ (r.ownerOf taskId = some owner ∨ r.tasks taskId = none)

/-- A key that was generated is not used again. -/
theorem Effect.stays_gone (h : Effect env call r r') {taskId : TaskId}
    (hold : taskId < r.tasks.next) (hgone : r.tasks taskId = none) : r'.tasks taskId = none := by
  have hchange := h.task taskId
  rw [hgone] at hchange
  generalize r'.tasks taskId = row at hchange ⊢
  cases hchange with
  | kept => rfl
  | submitted _ _ _ _ _ hnew => exact absurd hnew hold.ne

/-- Of the effects only the deletion of a server can end ownership, and it ends the task. -/
theorem Effect.keeps_keepsOwner (h : Effect env call r r') {taskId : TaskId}
    (howner : KeepsOwner owner taskId r) : KeepsOwner owner taskId r' := by
  refine ⟨howner.1.trans_le h.tasks_next, ?_⟩
  rcases howner.2 with hown | hgone
  · exact (h.keeps_owner hown).imp_right (·.2)
  · exact .inr (h.stays_gone howner.1 hgone)

theorem after_keepsOwner {h : Hub} {taskId : TaskId} (howner : KeepsOwner owner taskId h.rows) :
    KeepsOwner owner taskId (h.after env call).rows := by
  have hchain := after_effects env h call
  generalize (h.after env call).rows = r at hchain ⊢
  induction hchain with
  | refl => exact howner
  | tail _ hstep ih => exact hstep.keeps_keepsOwner ih

theorem exec_keepsOwner {allowed : HubCall → Prop} {h : Hub} {taskId : TaskId}
    (howner : KeepsOwner owner taskId h.rows) (calls : List HubCall) :
    KeepsOwner owner taskId ((hubMachine env allowed).exec h calls).rows := by
  induction calls generalizing h with
  | nil => exact howner
  | cons call calls ih => exact ih (after_keepsOwner howner)

end CodeCaller
