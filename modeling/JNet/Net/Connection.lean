import JNet.Net.TcpConn
import JNet.Net.TcpInput

/-! # `jnet::TcpConn`, events and callbacks

    A connection with the callbacks of the application (`net/tcpconn.cc`) and
    the channel through which its events arrive (`net/channel.cc`).  The
    connection owns the `Channel` object: `channel_` is none once `CleanUp` has
    destroyed it, and whatever reads it then is a fault.

    What the kernel answers and what a callback of the application does are
    arguments.  When the results given for the `read` calls are used up, the
    kernel has nothing more.  What callbacks send is left to the sending side.
-/

namespace JNet

/-! ## State -/

def POLLERR : BitVec 16 := 0x008#16
def POLLRDHUP : BitVec 16 := 0x2000#16

/-- A call of a callback of the application. -/
inductive ConnCall where
  /-- `readcb_`, with the bytes it finds in `input_`. -/
  | read (seen : Bytes)
  /-- `statecb_`, with the state it finds. -/
  | state (state : ConnState)
  deriving DecidableEq, Repr

structure Connection extends TcpConn where
  input_ : Bytes
  /-- A read callback is set. -/
  readcb_ : Bool
  /-- A state callback is set. -/
  statecb_ : Bool
  /-- `revents_` of the channel. -/
  revents_ : BitVec 16
  calls : List ConnCall
  deriving DecidableEq, Repr

/-- What the read callback does when it is called. -/
structure ReadCallback where
  /-- How many bytes of `input_` it consumes. -/
  consumed : Nat
  /-- It calls `Close()`. -/
  closes : Bool
  deriving DecidableEq, Repr

/-- What the calls of one read event return. -/
structure ReadAnswers where
  poll : PollResult
  reads : List ReadResult
  callback : ReadCallback
  deriving DecidableEq, Repr

/-- What the calls of one write event return. -/
structure WriteAnswers where
  poll : PollResult
  writes : List WriteResult
  callback : ReadCallback
  deriving DecidableEq, Repr

inductive ConnFault where
  /-- A destroyed channel was read. -/
  | dangling
  /-- The results given for `write` are not those of the calls made. -/
  | noAnswer
  deriving DecidableEq, Repr

/-- `Channel::Close`: the descriptor is closed and the channel leaves the poller. -/
def Channel.close (ch : Channel) : Channel := if ch.fd_ ≥ 0 then { ch with fd_ := -1 } else ch

namespace Connection

/-- `Attach`, and the callbacks the application has set. -/
def attach (fd : Int) (readcb_ statecb_ : Bool) : Connection where
  toTcpConn := TcpConn.attach fd
  input_ := []
  readcb_ := readcb_
  statecb_ := statecb_
  revents_ := 0
  calls := []

def record (c : Connection) (call : ConnCall) : Connection := { c with calls := c.calls ++ [call] }

/-- `Close` in the loop of the connection. -/
def close (c : Connection) : Connection := { c with channel_ := c.channel_.map Channel.close }

/-! ## Handlers -/

/-- `if (readcb_ && input_.GetSize()) readcb_(con)`. -/
def offer (c : Connection) (callback : ReadCallback) : Connection :=
  if c.readcb_ && !c.input_.isEmpty then
    let c := c.record (.read c.input_)
    let c := { c with input_ := c.input_.drop callback.consumed }
    if callback.closes then c.close else c
  else c

def cleanUp (c : Connection) (callback : ReadCallback) : Connection :=
  let c := c.offer callback
  let tcp := c.toTcpConn.cleanUp
  let c := if c.statecb_ then c.record (.state tcp.state_) else c
  { c with toTcpConn := tcp, readcb_ := false, statecb_ := false }

/-- The poll of the handshake found the socket writable and nothing else. -/
def connects (p : PollResult) : Bool := p.r == 1 && p.revents == POLLOUT

/-- `HandleHandShake`, with its return value.  In the branch of success the state callback
    is named and not called. -/
def handleHandShake (c : Connection) (p : PollResult) (callback : ReadCallback) :
    Connection × Int :=
  if connects p then
    ({ c with channel_ := c.channel_.map Channel.enableRead, state_ := .kConnected }, 0)
  else (cleanUp { c with state_ := .kFailed } callback, -1)

/-- The loop of `HandleRead` on an open descriptor. -/
def readLoop (callback : ReadCallback) : List ReadResult → Connection → Connection
  | [], c => c.offer callback
  | .data bytes :: rest, c =>
    if bytes.isEmpty then c.cleanUp callback
    else readLoop callback rest { c with input_ := c.input_ ++ bytes }
  | .eintr :: rest, c => readLoop callback rest c
  | .eagain :: _, c => c.offer callback
  | .eof :: _, c => c.cleanUp callback
  | .error _ :: _, c => c.cleanUp callback

/-- The loop of `HandleRead`, in state `kConnected`. -/
def readAll (c : Connection) (a : ReadAnswers) : Except ConnFault Connection :=
  match c.channel_ with
  | none => .error .dangling
  | some ch =>
    -- No `read` is made, and `rd` stays 0.
    if ch.fd_ < 0 then .ok (c.cleanUp a.callback) else .ok (readLoop a.callback a.reads c)

def handleRead (c : Connection) (a : ReadAnswers) : Except ConnFault Connection :=
  if c.state_ = .kHandShakeing then
    if c.channel_.isNone then .error .dangling
    else
      let (c, r) := c.handleHandShake a.poll a.callback
      if r ≠ 0 then .ok c else c.readAll a
  else if c.state_ = .kConnected then c.readAll a
  else .ok c

def handleWrite (c : Connection) (a : WriteAnswers) : Except ConnFault Connection :=
  if c.state_ = .kHandShakeing then
    if c.channel_.isNone then .error .dangling
    else .ok (c.handleHandShake a.poll a.callback).1
  else if c.state_ = .kConnected then
    if c.channel_.isNone then .error .dangling
    else
      match c.toTcpConn.handleWrite a.poll a.writes with
      | some tcp => .ok { c with toTcpConn := tcp }
      | none => .error .noAnswer
  else .ok c

/-- `channel->SetREvents(revents)`, by the poller. -/
def setREvents (c : Connection) (revents : BitVec 16) : Connection := { c with revents_ := revents }

/-- A load of `revents_` by a member function of the channel. -/
def getREvents (c : Connection) : Except ConnFault (BitVec 16) :=
  if c.channel_.isSome then .ok c.revents_ else .error .dangling

/-- `Channel::HandleEvent`.  A connection sets no close and no error callback, so the tests
    of `POLLHUP`, `POLLERR` and `POLLNVAL` do nothing. -/
def handleEvent (c : Connection) (r : ReadAnswers) (w : WriteAnswers) :
    Except ConnFault Connection := do
  let revents ← c.getREvents
  let c ← if revents &&& (POLLIN ||| POLLPRI ||| POLLRDHUP) ≠ 0 then c.handleRead r else .ok c
  let revents ← c.getREvents
  if revents &&& POLLOUT ≠ 0 then c.handleWrite w else .ok c

/-! ## What the handlers leave -/

/-- The results of `read` end in one that is taken for the end of the connection. -/
def ends : List ReadResult → Bool
  | [] => false
  | .data bytes :: rest => bytes.isEmpty || ends rest
  | .eintr :: rest => ends rest
  | .eagain :: _ => false
  | .eof :: _ => true
  | .error _ :: _ => true

/-- A read event would end the connection. -/
def endsInRead (c : Connection) (a : ReadAnswers) : Bool :=
  match c.state_ with
  | .kHandShakeing => !connects a.poll || c.channel_.any (·.fd_ < 0) || ends a.reads
  | .kConnected => c.channel_.any (·.fd_ < 0) || ends a.reads
  | _ => false

variable {c : Connection} {callback : ReadCallback}

@[simp] theorem cleanUp_channel : (c.cleanUp callback).channel_ = none := rfl

/-- Whatever a callback does, the channel stays. -/
@[simp] theorem offer_isSome : (c.offer callback).channel_.isSome = c.channel_.isSome := by
  unfold offer
  split
  · cases callback.closes
    · rfl
    · simp [close, record]
  · rfl

theorem readLoop_isSome (results : List ReadResult) (c : Connection)
    (hlive : c.channel_.isSome = true) :
    (readLoop callback results c).channel_.isSome = !ends results := by
  induction results generalizing c with
  | nil => simpa [readLoop, ends] using hlive
  | cons result rest ih =>
    cases result with
    | data bytes =>
      by_cases hempty : bytes.isEmpty = true
      · simp [readLoop, ends, hempty]
      · simp only [readLoop, ends, hempty]
        exact ih _ hlive
    | eintr => simpa [readLoop, ends] using ih c hlive
    | eagain => simpa [readLoop, ends] using hlive
    | eof => simp [readLoop, ends]
    | error errno => simp [readLoop, ends]

/-- The loop of `HandleRead` keeps the channel unless it ends the connection. -/
theorem readAll_live {a : ReadAnswers} (hlive : c.channel_.isSome = true) :
    ∃ c', c.readAll a = .ok c' ∧
      c'.channel_.isSome = !(c.channel_.any (·.fd_ < 0) || ends a.reads) := by
  obtain ⟨ch, hch⟩ := Option.isSome_iff_exists.mp hlive
  unfold readAll
  simp only [hch, Option.any_some]
  by_cases hfd : ch.fd_ < 0
  · exact ⟨_, if_pos hfd, by simp [hfd]⟩
  · exact ⟨_, if_neg hfd, by simp [hfd, readLoop_isSome a.reads c hlive]⟩

/-! ### Events during the handshake -/

/-- The connection after a handshake that succeeded. -/
def connected (c : Connection) : Connection :=
  { c with channel_ := c.channel_.map Channel.enableRead, state_ := .kConnected }

/-- The connection after a handshake that failed: `CleanUp` finds the state set already. -/
def refused (c : Connection) (callback : ReadCallback) : Connection :=
  cleanUp { c with state_ := .kFailed } callback

theorem handleRead_connects {a : ReadAnswers} (hstate : c.state_ = .kHandShakeing)
    (hlive : c.channel_.isSome = true) (hpoll : connects a.poll = true) :
    c.handleRead a = c.connected.readAll a := by
  have hsome : c.channel_.isNone = false := by simpa using hlive
  simp [handleRead, handleHandShake, hstate, hsome, hpoll, connected]

theorem handleRead_refused {a : ReadAnswers} (hstate : c.state_ = .kHandShakeing)
    (hlive : c.channel_.isSome = true) (hpoll : connects a.poll = false) :
    c.handleRead a = .ok (c.refused a.callback) := by
  have hsome : c.channel_.isNone = false := by simpa using hlive
  simp [handleRead, handleHandShake, hstate, hsome, hpoll, refused]

theorem handleRead_connected {a : ReadAnswers} (hstate : c.state_ = .kConnected) :
    c.handleRead a = c.readAll a := by
  simp [handleRead, hstate]

/-- A write event does the same. -/
theorem handleWrite_refused {a : WriteAnswers} (hstate : c.state_ = .kHandShakeing)
    (hlive : c.channel_.isSome = true) (hpoll : connects a.poll = false) :
    c.handleWrite a = .ok (c.refused a.callback) := by
  have hsome : c.channel_.isNone = false := by simpa using hlive
  simp [handleWrite, handleHandShake, hstate, hsome, hpoll, refused]

/-! ### All events -/

/-- A read event on a live channel is handled, and destroys the channel exactly when it ends
    the connection. -/
theorem handleRead_live {a : ReadAnswers} (hlive : c.channel_.isSome = true) :
    ∃ c', c.handleRead a = .ok c' ∧ c'.channel_.isSome = !c.endsInRead a := by
  unfold endsInRead
  cases hstate : c.state_ with
  | kHandShakeing =>
    cases hpoll : connects a.poll with
    | true =>
      -- The handshake is done, and the loop follows in the same event.
      have hlive' : c.connected.channel_.isSome = true := by simpa [connected] using hlive
      obtain ⟨c', hc', hsome'⟩ := readAll_live (a := a) hlive'
      refine ⟨c', (handleRead_connects hstate hlive hpoll).trans hc', ?_⟩
      rw [hsome', connected]
      cases c.channel_ <;> rfl
    | false => exact ⟨_, handleRead_refused hstate hlive hpoll, by simp [refused]⟩
  | kConnected =>
    obtain ⟨c', hc', hsome'⟩ := readAll_live (a := a) hlive
    exact ⟨c', (handleRead_connected hstate).trans hc', hsome'⟩
  | kInvalid => exact ⟨c, by simp [handleRead, hstate], by simpa using hlive⟩
  | kClosed => exact ⟨c, by simp [handleRead, hstate], by simpa using hlive⟩
  | kFailed => exact ⟨c, by simp [handleRead, hstate], by simpa using hlive⟩

/-- A write event on a live channel reads no other. -/
theorem handleWrite_live {a : WriteAnswers} (hlive : c.channel_.isSome = true) :
    c.handleWrite a ≠ .error .dangling := by
  have hsome : c.channel_.isNone = false := by simpa using hlive
  unfold handleWrite
  simp only [hsome]
  split
  · simp
  · split
    · cases c.toTcpConn.handleWrite a.poll a.writes <;> simp
    · simp

/-! ### A rule for the handlers -/

/-- No callback of `c` was called or replaced on the way to `c'`. -/
def Quiet (c c' : Connection) : Prop := c'.calls = c.calls ∧ c'.readcb_ = c.readcb_

/-- The premises of the rule: what `R` has to say about the moves a handler is made of. -/
structure HandlerPremises (R : Connection → Connection → Prop) : Prop where
  quiet : ∀ c c', Quiet c c' → R c c'
  offer : ∀ c callback, R c (c.offer callback)
  cleanUp : ∀ c callback, R c (c.cleanUp callback)
  after : ∀ c d e, Quiet c d → R d e → R c e

namespace HandlerPremises

variable {R : Connection → Connection → Prop} {c' : Connection}

theorem readLoop (h : HandlerPremises R) (results : List ReadResult) (c : Connection) :
    R c (readLoop callback results c) := by
  induction results generalizing c with
  | nil => exact h.offer c callback
  | cons result rest ih =>
    cases result with
    | data bytes =>
      unfold Connection.readLoop
      split
      · exact h.cleanUp c callback
      · exact h.after c { c with input_ := c.input_ ++ bytes } _ ⟨rfl, rfl⟩ (ih _)
    | eintr => exact ih c
    | eagain => exact h.offer c callback
    | eof => exact h.cleanUp c callback
    | error errno => exact h.cleanUp c callback

theorem readAll (h : HandlerPremises R) {a : ReadAnswers} (hok : c.readAll a = .ok c') :
    R c c' := by
  unfold Connection.readAll at hok
  split at hok
  · cases hok
  · split at hok
    · cases hok
      exact h.cleanUp c a.callback
    · cases hok
      exact h.readLoop a.reads c

theorem handleHandShake (h : HandlerPremises R) (p : PollResult) :
    R c (c.handleHandShake p callback).1 := by
  unfold Connection.handleHandShake
  split
  · exact h.quiet c c.connected ⟨rfl, rfl⟩
  · exact h.after c { c with state_ := .kFailed } _ ⟨rfl, rfl⟩ (h.cleanUp _ callback)

/-- What a read event does is made of these moves. -/
theorem handleRead (h : HandlerPremises R) {a : ReadAnswers} (hok : c.handleRead a = .ok c') :
    R c c' := by
  unfold Connection.handleRead at hok
  split at hok
  · split at hok
    · cases hok
    · cases hpoll : connects a.poll with
      | true =>
        simp only [Connection.handleHandShake, hpoll] at hok
        -- The loop follows in the same event.
        exact h.after c c.connected c' ⟨rfl, rfl⟩ (h.readAll hok)
      | false =>
        simp only [Connection.handleHandShake, hpoll] at hok
        cases hok
        exact h.after c { c with state_ := .kFailed } _ ⟨rfl, rfl⟩ (h.cleanUp _ a.callback)
  · split at hok
    · exact h.readAll hok
    · cases hok
      exact h.quiet c c ⟨rfl, rfl⟩

/-- So is what a write event does. -/
theorem handleWrite (h : HandlerPremises R) {a : WriteAnswers} (hok : c.handleWrite a = .ok c') :
    R c c' := by
  unfold Connection.handleWrite at hok
  split at hok
  · split at hok
    · cases hok
    · cases hok
      exact h.handleHandShake a.poll
  · split at hok
    · split at hok
      · cases hok
      · split at hok
        · cases hok
          exact h.quiet _ _ ⟨rfl, rfl⟩
        · cases hok
    · cases hok
      exact h.quiet c c ⟨rfl, rfl⟩

end HandlerPremises

end Connection

end JNet
