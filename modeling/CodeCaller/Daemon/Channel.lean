import CodeCaller.Daemon.Client
import CodeCaller.Library.Machine

/-!
# The channel of a daemon

What a daemon emits takes one of two ways to the socket: directly while it is connected, or through
the buffer, which is replayed when it connects again.  Over any number of reconnections the two
ways splice into one queue: what was handed to the socket, followed by what is buffered, is what
was emitted, in order.

`channelStep_law` is one step, `channel_run` a run, and `buffering_in_order` adds that nothing is
buffered while the daemon is connected, which is what the direct way relies on: it would overtake
what is still in the buffer.

Whether the Hub receives what was handed to the socket is not said.  The connection may break with
messages in flight, and the code does not send them again.
-/

namespace CodeCaller

open Async

/-- **What concerns the channel**: a call of `emit`, the `'connect'` event with its
listener, the `'disconnect'` event. -/
inductive ChannelAction where
  | emit (message : Outgoing)
  | connect (socketId : ℕ)
  | disconnect

/-- What an action emits. -/
def ChannelAction.emitted : ChannelAction → List Outgoing
  | emit message => [message]
  | connect _ | disconnect => []

namespace DaemonClient

def channelStep (client : DaemonClient) : ChannelAction → DaemonClient
  | .emit message => client.emit message
  | .connect socketId => client.onConnect socketId
  | .disconnect => client.onDisconnect

/-- **The channel of a daemon that has just started.** -/
def channelMachine : Machine DaemonClient ChannelAction where
  start client := ∃ apiKey, client = initial apiKey
  enabled client action :=
    match action with
    | .emit _ => True
    | .connect _ => client.socket.isNone = true
    | .disconnect => client.socket.isSome = true
  step := channelStep

/-- What a step hands to the socket. -/
def handed (client client' : DaemonClient) : List Outgoing :=
  client'.outbox.drop client.outbox.length

/-- **Nothing is buffered while the daemon is connected.** -/
def Flushed (client : DaemonClient) : Prop := client.socket.isSome = true → client.buffer = []

/-- One step hands over or buffers what it emits, behind what was buffered. -/
theorem channelStep_law {client : DaemonClient} {action : ChannelAction}
    (hflushed : client.Flushed) (henabled : channelMachine.enabled client action) :
    client.handed (client.channelStep action) ++ (client.channelStep action).buffer =
        client.buffer ++ action.emitted ∧
      (client.channelStep action).Flushed := by
  cases action with
  | emit message =>
      unfold channelStep emit handed outbox
      cases hsocket : client.socket with
      | none =>
          refine ⟨by simp [ChannelAction.emitted], fun hsome => ?_⟩
          simp at hsome
      | some connection =>
          have hbuffer : client.buffer = [] := hflushed (by rw [hsocket]; rfl)
          exact ⟨by simp [hbuffer, ChannelAction.emitted], fun _ => hbuffer⟩
  | connect socketId =>
      have hnone : client.socket = none := Option.isNone_iff_eq_none.mp henabled
      refine ⟨?_, fun _ => rfl⟩
      unfold channelStep onConnect flushBuffer handed outbox
      simp [hnone, ChannelAction.emitted]
  | disconnect =>
      obtain ⟨connection, hsocket⟩ := Option.isSome_iff_exists.mp henabled
      refine ⟨?_, nofun⟩
      unfold channelStep onDisconnect handed outbox
      simp [ChannelAction.emitted]

/-- A run hands over or buffers what it emits. -/
theorem channel_run {client : DaemonClient} {actions : List ChannelAction}
    (hflushed : client.Flushed) (hruns : channelMachine.Runs client actions) :
    ((channelMachine.visits client actions).flatMap fun visit =>
          visit.1.handed (channelMachine.step visit.1 visit.2)) ++
        (channelMachine.exec client actions).buffer =
        client.buffer ++ actions.flatMap ChannelAction.emitted ∧
      (channelMachine.exec client actions).Flushed := by
  induction actions generalizing client with
  | nil => exact ⟨by simp, hflushed⟩
  | cons action actions ih =>
      obtain ⟨henabled, hruns⟩ := (Machine.runs_cons _ _ _ _).mp hruns
      obtain ⟨hlaw, hnext⟩ := channelStep_law hflushed henabled
      obtain ⟨hrest, hlast⟩ := @ih (client.channelStep action) hnext hruns
      refine ⟨?_, hlast⟩
      have hstep : channelMachine.step client action = client.channelStep action := rfl
      rw [Machine.visits_cons, Machine.exec_cons, List.flatMap_cons, List.flatMap_cons, hstep,
        List.append_assoc, hrest, ← List.append_assoc, hlaw, List.append_assoc]

/-- **Offline buffering keeps order and loses nothing**: in every state of every run
what was handed to the socket, followed by the buffer, is what was emitted, and
the buffer is empty while the daemon is connected. -/
theorem buffering_in_order {apiKey : JsString} {actions : List ChannelAction}
    (hruns : channelMachine.Runs (initial apiKey) actions) :
    ((channelMachine.visits (initial apiKey) actions).flatMap fun visit =>
          visit.1.handed (channelMachine.step visit.1 visit.2)) ++
        (channelMachine.exec (initial apiKey) actions).buffer =
        actions.flatMap ChannelAction.emitted ∧
      ((channelMachine.exec (initial apiKey) actions).socket.isSome = true →
        (channelMachine.exec (initial apiKey) actions).buffer = []) :=
  @channel_run (initial apiKey) _ nofun hruns

/-- The scenario of an outage: two messages are buffered and replayed, the next one
goes out directly, and the last one waits for the connection after that. -/
def outage : List ChannelAction :=
  [.emit ⟨none, .HEARTBEAT⟩, .emit ⟨some 0, .TASK_LOG ⟨.id 0, js "a"⟩⟩, .connect 0,
    .emit ⟨some 0, .TASK_LOG ⟨.id 0, js "b"⟩⟩, .disconnect, .emit ⟨none, .HEARTBEAT⟩]

theorem buffering_in_order_outage :
    ((channelMachine.visits (initial []) outage).flatMap fun visit =>
          visit.1.handed (channelMachine.step visit.1 visit.2)) ++
        (channelMachine.exec (initial []) outage).buffer =
        outage.flatMap ChannelAction.emitted ∧
      ((channelMachine.exec (initial []) outage).socket.isSome = true →
        (channelMachine.exec (initial []) outage).buffer = []) := by
  refine buffering_in_order ?_
  simp only [outage, Machine.runs_cons, Machine.runs_nil]
  exact ⟨trivial, trivial, rfl, trivial, rfl, trivial, trivial⟩

end DaemonClient

end CodeCaller
