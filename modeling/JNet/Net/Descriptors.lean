import JNet.Lib.Handles
import JNet.Lib.LTS
import JNet.Lib.Memory

/-! # Descriptors and their owners

    Who closes a descriptor, and who takes a channel out of its poller
    (`net/channel.cc`, `net/socket.cc`, `net/tcpconn.cc`, `net/timerqueue.cc`,
    `net/eventloop.cc`, `net/epollpoller.cc`).  `Attach` gives the number of a
    connection to a `Socket` and to a `Channel`; a `TimerQueue` and an
    `EventLoop` keep the number they also give to their channel.  Each of them
    closes it when it is destroyed.

    The kernel gives any number that is free; `socket`, `accept` and the others are
    taken to succeed.  `Attach` and the destructors that close a number twice are two
    steps each, since other threads may acquire it in between; the channel that
    `Attach` makes is counted from the second step.  A loop in its destructor runs
    nothing else.
-/

namespace JNet

open Handles

/-! ## State -/

abbrev Descriptor : Type := Handle Int

/-- A `Channel` object; `gen` is the acquisition that `fd_` stands for. -/
structure ChannelObject where
  loop_ : Nat
  fd_ : Int
  gen : Nat
  deriving DecidableEq, Repr

structure TimerQueueObject where
  timerfd_ : Descriptor
  /-- The channel, by its `id_`. -/
  channel_ : Nat
  /-- The body of the destructor has run. -/
  destructing : Bool
  deriving DecidableEq, Repr

structure EventLoopObject where
  /-- `epollfd_` of the poller. -/
  epollfd_ : Descriptor
  timerQueue_ : TimerQueueObject
  wakeupFd_ : Descriptor
  wakeupChannel_ : Nat
  destructing : Bool
  deriving DecidableEq, Repr

structure TcpConnObject where
  /-- A descriptor from `accept` or `socket` for which `Attach` is to run. -/
  pending : Option (Nat × Descriptor)
  socket_ : Option Descriptor
  channel_ : Option Nat
  /-- `Attach` has reset `socket_`; whether it destroyed another `Socket` by that. -/
  attaching : Option Bool
  deriving DecidableEq, Repr

/-- A destructor, or an `Attach`, that has closed a number that is not its own any more. -/
inductive Destructed where
  | socket (i : Nat)
  | timerQueue (q : Nat)
  | eventLoop (k : Nat)
  deriving DecidableEq, Repr

structure Process where
  table : Table Int
  /-- The `Channel` objects, by `id_`. -/
  channel : Nat → Option ChannelObject
  ids : Nat
  /-- `channels_` of the poller of each loop. -/
  channels_ : Nat × Int → Option Nat
  /-- The channels that were removed from a poller. -/
  removed : List Nat
  loop : Nat → Option EventLoopObject
  timerQueue : Nat → Option TimerQueueObject
  conn : Nat → Option TcpConnObject
  /-- The channels that listen. -/
  listen : List Nat
  /-- An `assert` has failed. -/
  aborted : Bool
  destructed : List Destructed

def ChannelObject.descriptor (ch : ChannelObject) : Descriptor := ⟨ch.fd_, ch.gen⟩

namespace Process

def empty : Process where
  table := .empty
  channel := fun _ => none
  ids := 0
  channels_ := fun _ => none
  removed := []
  loop := fun _ => none
  timerQueue := fun _ => none
  conn := fun _ => none
  listen := []
  aborted := false
  destructed := []

/-! ## Operations -/

/-- A free number is given out. -/
def Free (s : Process) (fd : Int) : Prop := 0 ≤ fd ∧ s.table.owner fd = none

def acquire (s : Process) (fd : Int) : Process := { s with table := s.table.acquire fd }

def close (s : Process) (d : Descriptor) : Process := { s with table := s.table.close d }

/-- `new Channel(loop, fd)` and `AddToLoop`. -/
def addChannel (s : Process) (k : Nat) (d : Descriptor) : Process :=
  { s with
    channel := Function.update s.channel s.ids (some ⟨k, d.num, d.gen⟩)
    ids := s.ids + 1
    channels_ := Function.update s.channels_ (k, d.num) (some s.ids) }

/-- `EpollPoller::RemoveChannel`, with its asserts. -/
def removeChannel (s : Process) (k : Nat) (fd : Int) (id : Nat) : Process :=
  if s.channels_ (k, fd) = some id then
    { s with
      channels_ := Function.update s.channels_ (k, fd) none
      removed := s.removed ++ [id] }
  else { s with aborted := true }

/-- What follows is not reached after an abort. -/
def andThen (s : Process) (f : Process → Process) : Process := if s.aborted then s else f s

/-- `Channel::Close`. -/
def closeChannel (s : Process) (id : Nat) : Process :=
  match s.channel id with
  | none => s
  | some ch =>
    if ch.fd_ ≥ 0 then
      ((s.close ch.descriptor).removeChannel ch.loop_ ch.fd_ id).andThen fun s =>
        { s with channel := Function.update s.channel id (some { ch with fd_ := -1 }) }
    else s

/-- `Channel::~Channel`. -/
def deleteChannel (s : Process) (id : Nat) : Process :=
  match s.channel id with
  | none => s
  | some ch =>
    (if ch.fd_ ≠ -1 then s.closeChannel id else s).andThen fun s =>
      { s with channel := Function.update s.channel id none }

/-- `accept` or `socket`, for connection `i` and loop `k`. -/
def openConn (s : Process) (i k : Nat) (fd : Int) (c : TcpConnObject) : Process :=
  { s.acquire fd with
    conn := Function.update s.conn i (some { c with pending := some (k, s.table.next fd) }) }

/-- The `Socket` that a connection has is destroyed. -/
def deleteSocket (s : Process) : Option Descriptor → Process
  | none => s
  | some old => s.close old

/-- The `Channel` that a connection has is destroyed. -/
def deleteOld (s : Process) : Option Nat → Process
  | none => s
  | some old => s.deleteChannel old

/-- `Attach` up to `socket_.reset`. -/
def attach (s : Process) (i : Nat) (d : Descriptor) (c : TcpConnObject) : Process :=
  let s := s.deleteSocket c.socket_
  { s with
    conn := Function.update s.conn i
      (some { c with socket_ := some d, attaching := some c.socket_.isSome }) }

/-- `Attach` from `channel_.reset` on. -/
def attached (s : Process) (i k : Nat) (d : Descriptor) (replaces : Bool) (c : TcpConnObject) :
    Process :=
  (s.deleteOld c.channel_).andThen fun s =>
    { s.addChannel k d with
      conn := Function.update s.conn i
        (some { c with pending := none, channel_ := some s.ids, attaching := none })
      destructed := if replaces then s.destructed ++ [.socket i] else s.destructed }

/-- `TcpConn::CleanUp`, as far as the channel goes. -/
def cleanUp (s : Process) (i : Nat) (c : TcpConnObject) : Process :=
  (s.deleteOld c.channel_).andThen fun s =>
    { s with conn := Function.update s.conn i (some { c with channel_ := none }) }

/-- `~TcpConn`: `channel_` is null, and `socket_` is destroyed. -/
def deleteConn (s : Process) (i : Nat) (c : TcpConnObject) : Process :=
  { s.deleteSocket c.socket_ with
    conn := Function.update s.conn i none
    destructed := if c.socket_.isSome then s.destructed ++ [.socket i] else s.destructed }

/-- The descriptor and the channel of a `TimerQueue` of loop `k`. -/
def newTimerQueue (s : Process) (k : Nat) (fd : Int) : Process × TimerQueueObject :=
  ((s.acquire fd).addChannel k (s.table.next fd), ⟨s.table.next fd, s.ids, false⟩)

/-- `EventLoop::EventLoop`: the poller, the timer queue and the wake-up channel. -/
def newLoop (s : Process) (k : Nat) (epollfd timerfd evtfd : Int) : Process :=
  let epollfd_ := s.table.next epollfd
  let (s, timerQueue_) := (s.acquire epollfd).newTimerQueue k timerfd
  let wakeupFd_ := s.table.next evtfd
  let wakeupChannel_ := s.ids
  let s := (s.acquire evtfd).addChannel k wakeupFd_
  { s with
    loop := Function.update s.loop k
      (some ⟨epollfd_, timerQueue_, wakeupFd_, wakeupChannel_, false⟩) }

/-- The body of `~EventLoop`. -/
def destructLoop (s : Process) (k : Nat) (l : EventLoopObject) : Process :=
  match s.channel l.wakeupChannel_ with
  | none => s
  | some ch =>
    (s.removeChannel ch.loop_ ch.fd_ l.wakeupChannel_).andThen fun s =>
      { s.close l.wakeupFd_ with
        loop := Function.update s.loop k (some { l with destructing := true }) }

/-- The members of an `EventLoop` are destroyed, the last one first. -/
def deleteLoop (s : Process) (k : Nat) (l : EventLoopObject) : Process :=
  let s : Process :=
    { s.deleteChannel l.wakeupChannel_ with destructed := s.destructed ++ [.eventLoop k] }
  s.andThen fun s =>
    ((s.close l.timerQueue_.timerfd_).deleteChannel l.timerQueue_.channel_).andThen fun s =>
      { s.close l.epollfd_ with loop := Function.update s.loop k none }

/-- The body of `~TimerQueue`. -/
def destructTimerQueue (s : Process) (q : Nat) (t : TimerQueueObject) : Process :=
  { s.close t.timerfd_ with
    timerQueue := Function.update s.timerQueue q (some { t with destructing := true }) }

/-- The channel of a `TimerQueue` is destroyed. -/
def deleteTimerQueue (s : Process) (q : Nat) (t : TimerQueueObject) : Process :=
  { s.deleteChannel t.channel_ with
    timerQueue := Function.update s.timerQueue q none
    destructed := s.destructed ++ [.timerQueue q] }

/-- Loop `k` runs. -/
def Running (s : Process) (k : Nat) : Prop := ∃ l, s.loop k = some l ∧ l.destructing = false

/-- The loop of channel `id` runs. -/
def Usable (s : Process) (id : Nat) : Prop := ∃ ch, s.channel id = some ch ∧ s.Running ch.loop_

end Process

/-! ## Runs -/

inductive ProcessLabel where
  | newLoop (k : Nat) (epollfd timerfd evtfd : Int)
  | newTimerQueue (q k : Nat) (fd : Int)
  /-- `TcpServer::Bind`. -/
  | listen (k : Nat) (fd : Int)
  | closeListen (id : Nat)
  | deleteListen (id : Nat)
  | newConn (i : Nat)
  | openConn (i k : Nat) (fd : Int)
  | attach (i : Nat)
  | attached (i : Nat)
  /-- `Close`, or the timeout of `Connect`, in the loop of the connection. -/
  | close (i : Nat)
  | cleanUp (i : Nat)
  /-- The last pointer to a connection goes.  The callbacks of its channel hold one, and so
      does an `Attach` that is to run. -/
  | deleteConn (i : Nat)
  | destructTimerQueue (q : Nat)
  | deleteTimerQueue (q : Nat)
  | destructLoop (k : Nat)
  | deleteLoop (k : Nat)

open Process in
/-- Objects are made, used and destroyed in any order that the code allows. -/
def processSystem : LTS.System Process ProcessLabel where
  init := fun s => s = empty
  step := fun s l s' => s.aborted = false ∧
    match l with
    | .newLoop k epollfd timerfd evtfd =>
        s.loop k = none ∧ s.Free epollfd ∧ s.Free timerfd ∧ s.Free evtfd ∧
        epollfd ≠ timerfd ∧ epollfd ≠ evtfd ∧ timerfd ≠ evtfd ∧
        s' = s.newLoop k epollfd timerfd evtfd
    | .newTimerQueue q k fd =>
        s.timerQueue q = none ∧ s.Running k ∧ s.Free fd ∧
        s' = { (s.newTimerQueue k fd).1 with
          timerQueue := Function.update s.timerQueue q (some (s.newTimerQueue k fd).2) }
    | .listen k fd =>
        s.Running k ∧ s.Free fd ∧
        s' = { (s.acquire fd).addChannel k (s.table.next fd) with listen := s.ids :: s.listen }
    | .closeListen id => id ∈ s.listen ∧ s.Usable id ∧ s' = s.closeChannel id
    | .deleteListen id =>
        id ∈ s.listen ∧ s.Usable id ∧
        s' = { s.deleteChannel id with listen := s.listen.erase id }
    | .newConn i =>
        s.conn i = none ∧
        s' = { s with conn := Function.update s.conn i (some ⟨none, none, none, none⟩) }
    | .openConn i k fd =>
        ∃ c, s.conn i = some c ∧ c.pending = none ∧ s.Running k ∧ s.Free fd ∧
        s' = s.openConn i k fd c
    | .attach i =>
        ∃ c k d, s.conn i = some c ∧ c.pending = some (k, d) ∧ c.attaching = none ∧
        s.Running k ∧ s' = s.attach i d c
    | .attached i =>
        ∃ c k d replaces, s.conn i = some c ∧ c.pending = some (k, d) ∧
        c.attaching = some replaces ∧ s.Running k ∧ s' = s.attached i k d replaces c
    | .close i =>
        ∃ c id, s.conn i = some c ∧ c.attaching = none ∧ c.channel_ = some id ∧ s.Usable id ∧
        s' = s.closeChannel id
    | .cleanUp i =>
        ∃ c id, s.conn i = some c ∧ c.attaching = none ∧ c.channel_ = some id ∧ s.Usable id ∧
        s' = s.cleanUp i c
    | .deleteConn i =>
        ∃ c, s.conn i = some c ∧ c.pending = none ∧ c.channel_ = none ∧ s' = s.deleteConn i c
    | .destructTimerQueue q =>
        ∃ t, s.timerQueue q = some t ∧ t.destructing = false ∧ s.Usable t.channel_ ∧
        s' = s.destructTimerQueue q t
    | .deleteTimerQueue q =>
        ∃ t, s.timerQueue q = some t ∧ t.destructing = true ∧ s.Usable t.channel_ ∧
        s' = s.deleteTimerQueue q t
    | .destructLoop k =>
        ∃ l, s.loop k = some l ∧ l.destructing = false ∧ s' = s.destructLoop k l
    | .deleteLoop k =>
        ∃ l, s.loop k = some l ∧ l.destructing = true ∧ s' = s.deleteLoop k l

/-- No descriptor has two owners that both close it: no connection that had a `Socket` is
    attached again or destroyed, and no timer queue and no event loop is destroyed. -/
def OneOwner (s : Process) : ProcessLabel → Prop
  | .attach i => ∀ c, s.conn i = some c → c.socket_ = none
  | .deleteConn i => ∀ c, s.conn i = some c → c.socket_ = none
  | .destructTimerQueue _ => False
  | .destructLoop _ => False
  | _ => True

/-! ## Every descriptor is closed once -/

/-- Who is to close a descriptor. -/
inductive DescriptorHolder where
  | attach (i : Nat)
  | channel (id : Nat)
  | poller (k : Nat)
  deriving DecidableEq, Repr

def Process.Holds (s : Process) : DescriptorHolder → Descriptor → Prop
  | .attach i, d => ∃ c k, s.conn i = some c ∧ c.pending = some (k, d)
  | .channel id, d => ∃ ch, s.channel id = some ch ∧ 0 ≤ ch.fd_ ∧ ch.descriptor = d
  | .poller k, d => ∃ l, s.loop k = some l ∧ l.epollfd_ = d

structure DescriptorsOk (s : Process) : Prop where
  /-- Each `close` found the descriptor that was meant. -/
  own : ∀ c ∈ s.table.closes, c.found = some c.handle.gen
  /-- Each descriptor was closed once, or is open and held. -/
  once : ∀ g < s.table.fresh, s.table.count g = 1 ∨
    (s.table.count g = 0 ∧ ∃ x fd, s.Holds x ⟨fd, g⟩ ∧ s.table.Open ⟨fd, g⟩)
  /-- Each channel was removed once, or is in a poller. -/
  removed : ∀ id < s.ids, s.removed.count id = 1 ∨
    (s.removed.count id = 0 ∧ ∃ key, s.channels_ key = some id)
  asserts : s.aborted = false

end JNet
