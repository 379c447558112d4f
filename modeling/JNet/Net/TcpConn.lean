import JNet.Lib.LTS
import JNet.Lib.Bytes
import JNet.Net.Channel

/-! # `jnet::TcpConn`, the sending side

    The state of a connection (`net/tcpconn.h`) as far as sending reads and
    writes it, and the functions of `net/tcpconn.cc` that send.  `output_` is
    taken as a byte queue; `wire` collects the bytes the kernel has accepted
    from `write`, which the code itself never sees again.

    What the kernel answers is an argument: `ISend` is given the results of its
    `write` calls in order, the handshake the result of its `poll`.
-/

namespace JNet

/-! ## State -/

inductive ConnState where
  | kInvalid
  | kHandShakeing
  | kConnected
  | kClosed
  | kFailed
  deriving DecidableEq, Repr

structure TcpConn where
  state_ : ConnState
  output_ : Bytes
  channel_ : Option Channel
  /-- The bytes the kernel has accepted so far. -/
  wire : Bytes
  deriving DecidableEq, Repr

/-- What one call of `write` returns. -/
inductive WriteResult where
  | count (n : Nat)
  | eintr
  | eagain
  | error (errno : Int)
  deriving DecidableEq, Repr

/-- What `poll` returns for the one descriptor of the handshake. -/
structure PollResult where
  r : Int
  revents : BitVec 16
  deriving DecidableEq, Repr

/-- The buffer a `Buffer&` argument names: the connection's own `output_`, or
    another one with the given contents. -/
inductive BufferRef where
  | output
  | other (bytes : Bytes)
  deriving DecidableEq, Repr

namespace TcpConn

/-- The channel exists and has write interest. -/
def isWriting (c : TcpConn) : Bool := c.channel_.any Channel.isWriting

def enableWrite (c : TcpConn) : TcpConn := { c with channel_ := c.channel_.map Channel.enableWrite }

def disableWrite (c : TcpConn) : TcpConn :=
  { c with channel_ := c.channel_.map Channel.disableWrite }

/-- `if (!channel_->IsWriting()) channel_->EnableWrite()`. -/
def ensureWrite (c : TcpConn) : TcpConn := if c.isWriting then c else c.enableWrite

/-- A new connection on descriptor `fd`. -/
def attach (fd : Int) : TcpConn where
  state_ := .kHandShakeing
  output_ := []
  channel_ := some { fd_ := fd, events_ := Channel.kWriteEvent ||| Channel.kReadEvent }
  wire := []

/-! ## Sending -/

/-- The loop of `ISend`, `sended` bytes of `buf` being written already.  There
    is no result if the loop wants another `write` than those given, if the
    kernel takes more than it was offered, or if there is no channel. -/
def iSendLoop (buf : Bytes) : List WriteResult → TcpConn → Nat → Option (TcpConn × Nat)
  | [], c, sended => if buf.length > sended then none else some (c, sended)
  | wd :: rest, c, sended =>
    if buf.length > sended then
      if c.channel_.isNone then none
      else match wd with
        | .count 0 => some (c, sended)  -- logged as a write error
        | .count (n + 1) =>
          if n + 1 ≤ buf.length - sended then
            iSendLoop buf rest { c with wire := c.wire ++ (buf.drop sended).take (n + 1) }
              (sended + (n + 1))
          else none
        | .eintr => iSendLoop buf rest c sended
        | .eagain => some (c.ensureWrite, sended)
        | .error _ => some (c, sended)
    else some (c, sended)

/-- `ISend(buf, len)`, with the number of bytes it reports. -/
def iSend (c : TcpConn) (buf : Bytes) (results : List WriteResult) : Option (TcpConn × Nat) :=
  iSendLoop buf results c 0

/-- The bytes in a buffer argument. -/
def read (c : TcpConn) : BufferRef → Bytes
  | .output => c.output_
  | .other bytes => bytes

/-- `message.Consume(n)`. -/
def consume (c : TcpConn) (n : Nat) : BufferRef → TcpConn × BufferRef
  | .output => ({ c with output_ := c.output_.drop n }, .output)
  | .other bytes => (c, .other (bytes.drop n))

/-- `output_.Absorb(message)`, which does nothing when both are one buffer. -/
def absorb (c : TcpConn) : BufferRef → TcpConn × BufferRef
  | .output => (c, .output)
  | .other bytes => ({ c with output_ := c.output_ ++ bytes }, .other [])

/-- The end of `Send(Buffer&)` once `sended` bytes are written: they are consumed,
    and if any are left `output_` takes them over and asks for write events. -/
def queueRest (c : TcpConn) (message : BufferRef) (sended : Nat) : TcpConn × BufferRef :=
  let (c, message) := c.consume sended message
  if (c.read message).isEmpty then (c, message)
  else
    let (c, message) := c.absorb message
    (c.ensureWrite, message)

/-- `Send(Buffer&)`, with what becomes of its argument. -/
def sendBuffer (c : TcpConn) (message : BufferRef) (results : List WriteResult) :
    Option (TcpConn × BufferRef) :=
  if c.channel_.isSome then
    -- Write events are due: what is sent now has to wait behind what is queued.
    if c.isWriting then some (c.absorb message)
    else if (c.read message).isEmpty then some (c, message)
    else (c.iSend (c.read message) results).map fun (c, sended) => c.queueRest message sended
  else some (c, message)

/-- `if (len) output_.Append(message, len)`. -/
def appendRest (c : TcpConn) (message : Bytes) : TcpConn :=
  if message.isEmpty then c else { c with output_ := c.output_ ++ message }

def sendInLoop (c : TcpConn) (message : Bytes) (results : List WriteResult) : Option TcpConn :=
  if c.channel_.isSome then
    if c.output_.isEmpty then
      (c.iSend message results).map fun (c, sended) => c.appendRest (message.drop sended)
    else some (c.appendRest message)
  else some c

/-- `Send(const char*, size_t)` on the loop thread. -/
def send (c : TcpConn) (message : Bytes) (results : List WriteResult) : Option TcpConn :=
  if c.state_ ≠ .kConnected then some c else c.sendInLoop message results

/-- Appending to `GetOutput()`, then `SendOutput()`. -/
def appendAndSendOutput (c : TcpConn) (bytes : Bytes) (results : List WriteResult) :
    Option TcpConn :=
  ({ c with output_ := c.output_ ++ bytes }.sendBuffer .output results).map Prod.fst

/-! ## Write events -/

/-- `CleanUp`: the final state, and the end of the channel. -/
def cleanUp (c : TcpConn) : TcpConn :=
  { c with
    state_ := if c.state_ = .kHandShakeing then .kFailed else .kClosed
    channel_ := none }

/-- `HandleHandShake`, with its return value. -/
def handleHandShake (c : TcpConn) (p : PollResult) : TcpConn × Int :=
  if p.r = 1 ∧ p.revents = POLLOUT then
    ({ c with channel_ := c.channel_.map Channel.enableRead, state_ := .kConnected }, 0)
  else (cleanUp { c with state_ := .kFailed }, -1)

def handleWrite (c : TcpConn) (p : PollResult) (results : List WriteResult) : Option TcpConn :=
  match c.state_ with
  | .kHandShakeing => some (c.handleHandShake p).1
  | .kConnected =>
    if c.channel_.isNone then none
    else (c.iSend c.output_ results).map fun (c, sended) =>
      -- The interest in write events ends with the last byte.
      let c := { c with output_ := c.output_.drop sended }
      if c.output_.isEmpty && c.isWriting then c.disableWrite else c
  | _ => some c

end TcpConn

end JNet
