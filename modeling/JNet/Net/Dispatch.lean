import JNet.Net.Connection
import Mathlib.Logic.Function.Basic

/-! # One iteration of `EventLoop::Loop`

    The poller hands the loop a list of active channels, and the loop calls
    `HandleEvent` on one after the other (`net/eventloop.cc`).  The callbacks
    run inside, so a connection may destroy the channel that is dispatching.
-/

namespace JNet

/-! ## The iteration -/

/-- An element of `activeChannels_`, with what happens while it is handled. -/
structure ActiveChannel where
  /-- The connection the channel belongs to; none for the wake-up channel, the timers and
      the listening socket. -/
  conn : Option Nat
  revents : BitVec 16
  read : ReadAnswers
  write : WriteAnswers
  /-- The connections that callbacks close meanwhile. -/
  closed : List Nat

/-- The connections of a loop. -/
abbrev Connections : Type := Nat → Connection

namespace Connections

/-- `Close` of each of them. -/
def closeAll (conns : Connections) (closed : List Nat) : Connections :=
  closed.foldl (fun conns i => Function.update conns i (conns i).close) conns

/-- `SetREvents` by the poller, and `ch->HandleEvent()`. -/
def dispatch (conns : Connections) (a : ActiveChannel) : Except ConnFault Connections := do
  match a.conn with
  | some i =>
    let c ← ((conns i).setREvents a.revents).handleEvent a.read a.write
    return closeAll (Function.update conns i c) a.closed
  | none => return conns.closeAll a.closed

end Connections

/-- The events make `HandleEvent` call the read callback of the channel. -/
def hasRead (revents : BitVec 16) : Bool := revents &&& (POLLIN ||| POLLPRI ||| POLLRDHUP) != 0

/-- The channel is alive, and the read callback does not end the connection. -/
def Connections.Keeps (conns : Connections) (a : ActiveChannel) : Prop :=
  ∀ i, a.conn = some i → (conns i).channel_.isSome = true ∧
    ¬ (hasRead a.revents = true ∧ (conns i).endsInRead a.read = true)

/-! ## One channel -/

namespace Connection

variable {c : Connection}

/-- The write callback on a live channel. -/
theorem writeEvent_live {w : WriteAnswers} (hlive : c.channel_.isSome = true) :
    (if c.revents_ &&& POLLOUT ≠ 0 then c.handleWrite w else .ok c) ≠ .error .dangling := by
  split
  · exact handleWrite_live hlive
  · simp

/-- `HandleEvent` reads a destroyed channel if it is called on one, or if its read callback
    destroys the one it is called on. -/
theorem handleEvent_dangling_iff (r : ReadAnswers) (w : WriteAnswers) :
    c.handleEvent r w = .error .dangling ↔
      ¬ (c.channel_.isSome = true ∧ ¬ (hasRead c.revents_ = true ∧ c.endsInRead r = true)) := by
  unfold handleEvent getREvents
  by_cases hlive : c.channel_.isSome = true
  · simp only [hlive, if_true, bind, Except.bind]
    by_cases hread : hasRead c.revents_ = true
    · obtain ⟨c', hc', hsome⟩ := handleRead_live (a := r) hlive
      have hbits : c.revents_ &&& (POLLIN ||| POLLPRI ||| POLLRDHUP) ≠ 0 := by
        simpa [hasRead] using hread
      rw [if_pos hbits, hc']
      cases hends : c.endsInRead r with
      | true =>
        -- The load of `revents_` behind the callback.
        have hgone : ¬ c'.channel_.isSome = true := by simp [hsome, hends]
        simp [hgone, hread]
      | false =>
        have hkept : c'.channel_.isSome = true := by simp [hsome, hends]
        simpa [hkept, hread] using writeEvent_live (w := w) hkept
    · have hbits : ¬ c.revents_ &&& (POLLIN ||| POLLPRI ||| POLLRDHUP) ≠ 0 := by
        simpa [hasRead] using hread
      rw [if_neg hbits]
      simpa [hlive, hread] using writeEvent_live (w := w) hlive
  · simp [hlive, bind, Except.bind]

end Connection

/-! ## The whole list -/

theorem Connections.dispatch_dangling_iff (conns : Connections) (a : ActiveChannel) :
    conns.dispatch a = .error .dangling ↔ ¬ conns.Keeps a := by
  unfold dispatch Keeps
  cases hconn : a.conn with
  | none => simp [pure, Except.pure]
  | some i =>
    have hiff := Connection.handleEvent_dangling_iff (c := (conns i).setREvents a.revents)
      a.read a.write
    have hkeeps : (∀ j, some i = some j → (conns j).channel_.isSome = true ∧
        ¬ (hasRead a.revents = true ∧ (conns j).endsInRead a.read = true)) ↔
        (conns i).channel_.isSome = true ∧
          ¬ (hasRead a.revents = true ∧ (conns i).endsInRead a.read = true) := by simp
    rw [hkeeps]
    refine Iff.trans ?_ hiff
    cases hevent : ((conns i).setREvents a.revents).handleEvent a.read a.write with
    | error f => simp [hevent, bind, Except.bind]
    | ok c => simp [hevent, bind, Except.bind, pure, Except.pure]

/-- An iteration reads no channel that was destroyed, exactly when each channel is alive
    when its turn comes and its read callback does not end its connection. -/
theorem loop_iteration_iff (conns : Connections) (active : List ActiveChannel) :
    LTS.run Connections.dispatch conns active ≠ .error .dangling ↔
      ∀ n (hn : n < active.length) conns',
        LTS.run Connections.dispatch conns (active.take n) = .ok conns' → conns'.Keeps active[n] :=
  LTS.run_avoids Connections.dispatch_dangling_iff active conns

/-- The peer has closed the connection: the event says that there is something to read, and
    `read` returns 0. -/
theorem loop_iteration_eof :
    ¬ ∀ (conns : Connections) (active : List ActiveChannel),
      (∀ a ∈ active, ∀ i, a.conn = some i → (conns i).channel_.isSome = true) →
      (active.filterMap ActiveChannel.conn).Nodup →
      LTS.run Connections.dispatch conns active ≠ .error .dangling := by
  intro hall
  have hfault := hall (fun _ => { Connection.attach 5 true false with state_ := .kConnected })
    [{ conn := some 0
       revents := POLLIN ||| POLLRDHUP
       read := ⟨⟨0, 0⟩, [.eof], ⟨0, false⟩⟩
       write := ⟨⟨0, 0⟩, [], ⟨0, false⟩⟩
       closed := [] }]
    (by simp [Connection.attach, TcpConn.attach]) (by simp)
  exact hfault rfl

end JNet
