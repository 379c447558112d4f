import JNet.Lib.LTS
import JNet.Lib.Memory
import JNet.Net.Channel
import Mathlib.Data.Finset.Card
import Mathlib.Data.Int.Interval
import Mathlib.Logic.Function.Basic

/-! # `jnet::PollPoller` and `jnet::EpollPoller`

    The two pollers (`net/pollpoller.cc`, `net/epollpoller.cc`) keep the map
    `channels_` of their base class from descriptors to channels.  `PollPoller`
    keeps besides it the vector that it passes to `poll`, and each channel
    remembers in `index_` which element of the vector is its own; `EpollPoller`
    leaves the interest list to the kernel.

    Channels are objects at addresses: both pollers hold pointers to them.
-/

namespace JNet

open Memory

/-! ## Channels in memory -/

/-- The address of a channel. -/
abbrev ChannelPtr : Type := Nat

def nullptr : ChannelPtr := 0

/-- A channel with what the pollers store in it. -/
structure PolledChannel extends Channel where
  revents_ : BitVec 16
  index_ : Int
  deriving DecidableEq, Repr

/-- The channel objects, by address. -/
abbrev ChannelHeap : Type := ChannelPtr → PolledChannel

namespace ChannelHeap

/-- `channel->SetIndex(idx)`: the parameter is an `int`. -/
def setIndex (heap : ChannelHeap) (c : ChannelPtr) (idx : Nat) : ChannelHeap :=
  Function.update heap c { heap c with index_ := toInt32 idx }

def setREvents (heap : ChannelHeap) (c : ChannelPtr) (revents : BitVec 16) : ChannelHeap :=
  Function.update heap c { heap c with revents_ := revents }

def setEvents (heap : ChannelHeap) (c : ChannelPtr) (events : BitVec 16) : ChannelHeap :=
  Function.update heap c { heap c with events_ := events }

end ChannelHeap

/-! ## The base class -/

/-- `Poller::channels_`. -/
abbrev ChannelMap : Type := Int → Option ChannelPtr

/-- `Poller::HasChannel`. -/
def hasChannel (channels_ : ChannelMap) (heap : ChannelHeap) (c : ChannelPtr) : Bool :=
  channels_ (heap c).fd_ == some c

/-! ## `PollPoller` -/

/-- `struct pollfd`. -/
structure PollFd where
  fd : Int
  events : BitVec 16
  revents : BitVec 16
  deriving DecidableEq, Repr

/-- What `poll` finds at each descriptor.  No event bit is the sign bit of `short`. -/
structure Readiness where
  revents : Int → BitVec 16
  nonneg : ∀ fd, (revents fd).msb = false

structure PollPoller where
  pollfds_ : List PollFd
  channels_ : ChannelMap

namespace PollPoller

def addChannel (p : PollPoller) (heap : ChannelHeap) (c : ChannelPtr) :
    ChannelHeap × PollPoller :=
  let pfd : PollFd := { fd := (heap c).fd_, events := (heap c).events_, revents := 0 }
  let pollfds := p.pollfds_ ++ [pfd]
  (heap.setIndex c (sizeSub pollfds.length 1),
    { pollfds_ := pollfds, channels_ := Function.update p.channels_ pfd.fd (some c) })

def updateChannel (p : PollPoller) (heap : ChannelHeap) (c : ChannelPtr) :
    Except Fault PollPoller :=
  let fd := (heap c).fd_
  if p.channels_ fd = none then .error .assertion
  else
    let pfd : PollFd := { fd := fd, events := (heap c).events_, revents := 0 }
    let index := toSize (heap c).index_
    if index < p.pollfds_.length then .ok { p with pollfds_ := p.pollfds_.set index pfd }
    else .error .outOfBounds

/-- `iter_swap` of the element at `idx` and the last one. -/
def swapLast (pollfds : List PollFd) (idx : Nat) (last : PollFd) : List PollFd :=
  match pollfds[idx]? with
  | some pfd => (pollfds.set (pollfds.length - 1) pfd).set idx last
  | none => pollfds

def removeChannel (p : PollPoller) (heap : ChannelHeap) (c : ChannelPtr) :
    Except Fault (ChannelHeap × PollPoller) :=
  let fd := (heap c).fd_
  if p.channels_ fd = none then .error .assertion
  else if p.channels_ fd ≠ some c then .error .assertion
  else
    let idx := toSize (heap c).index_
    if idx = sizeSub p.pollfds_.length 1 then
      .ok (heap, { p with pollfds_ := p.pollfds_.dropLast })
    else if p.pollfds_.length > 1 then
      match p.pollfds_[idx]?, p.pollfds_.getLast? with
      | some pfd, some last =>
        let pollfds := swapLast p.pollfds_ idx last
        -- `endPfd` is a reference to the last element, which is now the swapped-in one.
        let endPfd := pfd
        match p.channels_ endPfd.fd with
        | some q =>
          if q ≠ nullptr then
            .ok (heap.setIndex q idx,
              { pollfds_ := pollfds.dropLast, channels_ := Function.update p.channels_ fd none })
          else .ok (heap, { p with pollfds_ := pollfds.dropLast })
        | none =>
          -- `channels_[endPfd.fd]` inserts a null pointer.
          .ok (heap, { pollfds_ := pollfds.dropLast,
                       channels_ := Function.update p.channels_ endPfd.fd (some nullptr) })
      | _, _ => .error .outOfBounds
    else .ok (heap, p)

/-- `FillActiveChannels`, from the current element on. -/
def fillActiveChannels (channels_ : ChannelMap) :
    List PollFd → Int → ChannelHeap → List ChannelPtr → Except Fault (ChannelHeap × List ChannelPtr)
  | [], _, heap, active => .ok (heap, active)
  | pfd :: rest, numEvents, heap, active =>
    if numEvents > 0 then
      if pfd.revents.toInt > 0 then
        match channels_ pfd.fd with
        | some c =>
          if c = nullptr then .error .outOfBounds
          else fillActiveChannels channels_ rest (numEvents - 1) (heap.setREvents c pfd.revents)
            (active ++ [c])
        | none => .error .outOfBounds
      else fillActiveChannels channels_ rest numEvents heap active
    else .ok (heap, active)

/-- `Poll`, with what the kernel finds; the result is the list of active channels. -/
def poll (p : PollPoller) (heap : ChannelHeap) (k : Readiness) :
    Except Fault (ChannelHeap × List ChannelPtr) :=
  let pollfds := p.pollfds_.map fun pfd => { pfd with revents := k.revents pfd.fd }
  let numEvents := pollfds.countP fun pfd => pfd.revents != 0
  if numEvents > 0 then fillActiveChannels p.channels_ pollfds numEvents heap []
  else .ok (heap, [])

end PollPoller

/-! ## `EpollPoller` -/

/-- The interest list of an epoll set: events, and the pointer handed back. -/
abbrev InterestList : Type := Int → Option (BitVec 16 × ChannelPtr)

/-- The operations of `epoll_ctl` that the poller issues. -/
inductive EpollCtl where
  | ADD
  | MOD

/-- `epoll_ctl`; `none` where it fails: on a negative descriptor (`EBADF`), adding one that the
    list has (`EEXIST`), and modifying one that it does not have (`ENOENT`). -/
def epollCtl (interest : InterestList) (op : EpollCtl) (fd : Int)
    (event : BitVec 16 × ChannelPtr) : Option InterestList :=
  let known := (interest fd).isSome
  let accepted : Bool := match op with
    | .ADD => !known
    | .MOD => known
  if 0 ≤ fd ∧ accepted then some (Function.update interest fd (some event)) else none

structure EpollPoller where
  channels_ : ChannelMap
  /-- The interest list of `epollfd_`. -/
  interest : InterestList

namespace EpollPoller

/-- `Update`: where `epoll_ctl` fails, `FATALIF` writes a line to the log and goes on. -/
def update (p : EpollPoller) (operation : EpollCtl) (heap : ChannelHeap) (c : ChannelPtr) :
    EpollPoller :=
  match epollCtl p.interest operation (heap c).fd_ ((heap c).events_, c) with
  | some interest => { p with interest := interest }
  | none => p

/-- The channel is entered into `channels_` whether it could be added or not. -/
def addChannel (p : EpollPoller) (heap : ChannelHeap) (c : ChannelPtr) : EpollPoller :=
  let p := p.update .ADD heap c
  { p with channels_ := Function.update p.channels_ (heap c).fd_ (some c) }

def updateChannel (p : EpollPoller) (heap : ChannelHeap) (c : ChannelPtr) : EpollPoller :=
  p.update .MOD heap c

/-- The interest list keeps its entry: the call of `Update(EPOLL_CTL_DEL, channel)`
    is commented out. -/
def removeChannel (p : EpollPoller) (heap : ChannelHeap) (c : ChannelPtr) :
    Except Fault EpollPoller :=
  let fd := (heap c).fd_
  if p.channels_ fd = none then .error .assertion
  else if p.channels_ fd ≠ some c then .error .assertion
  else .ok { p with channels_ := Function.update p.channels_ fd none }

section update

variable (p : EpollPoller) (heap : ChannelHeap) (c : ChannelPtr) (operation : EpollCtl)

theorem addChannel_eq (hfd : 0 ≤ (heap c).fd_) (hfree : p.interest (heap c).fd_ = none) :
    p.addChannel heap c =
      { channels_ := Function.update p.channels_ (heap c).fd_ (some c)
        interest := Function.update p.interest (heap c).fd_ (some ((heap c).events_, c)) } := by
  simp [addChannel, update, epollCtl, hfd, hfree]

theorem updateChannel_eq (hfd : 0 ≤ (heap c).fd_) (hin : p.interest (heap c).fd_ ≠ none) :
    p.updateChannel heap c =
      { p with
        interest := Function.update p.interest (heap c).fd_ (some ((heap c).events_, c)) } := by
  have hknown : (p.interest (heap c).fd_).isSome = true := Option.isSome_iff_ne_none.mpr hin
  simp [updateChannel, update, epollCtl, hfd, hknown]

/-- The kernel's list has no entry for a descriptor that `socket` did not return. -/
theorem update_negative (hfd : (heap c).fd_ < 0) :
    p.update operation heap c = p := by
  simp [update, epollCtl, not_le.mpr hfd]

end update

end EpollPoller

/-! ## Sequences of operations -/

/-- An operation of the loop on its poller. -/
inductive PollOp where
  /-- `AddChannel` of the channel object `ch` at `c`. -/
  | add (c : ChannelPtr) (ch : PolledChannel)
  /-- The channel's events become `events`, and `UpdateChannel`. -/
  | update (c : ChannelPtr) (events : BitVec 16)
  | remove (c : ChannelPtr)

/-- The channel objects and the two pollers, each given the same operations. -/
structure Pollers where
  heap : ChannelHeap
  poll : PollPoller
  epoll : EpollPoller

namespace Pollers

/-- Both pollers as constructed. -/
def create (heap : ChannelHeap) : Pollers where
  heap := heap
  poll := { pollfds_ := [], channels_ := fun _ => none }
  epoll := { channels_ := fun _ => none, interest := fun _ => none }

def exec (s : Pollers) : PollOp → Except Fault Pollers
  | .add c ch =>
    let heap := Function.update s.heap c ch
    let epoll := s.epoll.addChannel heap c
    let (heap, poll) := s.poll.addChannel heap c
    .ok { heap, poll, epoll }
  | .update c events => do
    let heap := s.heap.setEvents c events
    let epoll := s.epoll.updateChannel heap c
    let poll ← s.poll.updateChannel heap c
    return { heap, poll, epoll }
  | .remove c => do
    let epoll ← s.epoll.removeChannel s.heap c
    let (heap, poll) ← s.poll.removeChannel s.heap c
    return { heap, poll, epoll }

end Pollers

/-- The registered channels with their descriptors, in the order of their `AddChannel`. -/
abbrev Registered : Type := List (ChannelPtr × Int)

def Registered.after (reg : Registered) : PollOp → Registered
  | .add c ch => reg ++ [(c, ch.fd_)]
  | .update _ _ => reg
  | .remove c => reg.filter fun x => x.1 ≠ c

/-- What is registered once `ops` have been executed. -/
def registered (ops : List PollOp) : Registered := ops.foldl Registered.after []

/-- What a caller may do: add a channel with a descriptor, if neither is registered, and
    update or remove a registered channel. -/
def Registered.Allowed (reg : Registered) : PollOp → Prop
  | .add c ch => c ≠ nullptr ∧ (0 ≤ ch.fd_ ∧ ch.fd_ < 2 ^ 31) ∧ ∀ x ∈ reg, x.1 ≠ c ∧ x.2 ≠ ch.fd_
  | .update c _ => ∃ fd, (c, fd) ∈ reg
  | .remove c => ∃ fd, (c, fd) ∈ reg

/-- Every operation of the sequence is allowed when it is executed. -/
def ValidOps (ops : List PollOp) : Prop :=
  ∀ n (hn : n < ops.length), (registered (ops.take n)).Allowed ops[n]

/-- `pollfds_`, `index_` and `channels_` represent the registered channels, so that `Poll`
    reports those with events and `HasChannel` agrees with `EpollPoller`. -/
structure PollersRepresent (s : Pollers) (reg : Registered) : Prop where
  size : s.poll.pollfds_.length = reg.length
  element : ∀ c fd, (c, fd) ∈ reg → (s.heap c).fd_ = fd ∧
    ∃ pfd, s.poll.pollfds_[toSize (s.heap c).index_]? = some pfd ∧
      pfd.fd = fd ∧ pfd.events = (s.heap c).events_
  channels : ∀ fd c, s.poll.channels_ fd = some c ↔ (c, fd) ∈ reg
  active : ∀ k : Readiness, ∃ heap active, s.poll.poll s.heap k = .ok (heap, active) ∧
    active.Nodup ∧ ∀ c, c ∈ active ↔ ∃ fd, (c, fd) ∈ reg ∧ k.revents fd ≠ 0
  agree : ∀ c, hasChannel s.poll.channels_ s.heap c = hasChannel s.epoll.channels_ s.heap c

/-! ## The invariant without removals -/

/-- Registered channels are distinct objects with distinct descriptors. -/
structure Registered.Distinct (reg : Registered) : Prop where
  range : ∀ x ∈ reg, x.1 ≠ nullptr ∧ 0 ≤ x.2 ∧ x.2 < 2 ^ 31
  ptrs : (reg.map Prod.fst).Nodup
  fds : (reg.map Prod.snd).Nodup

/-- The elements of `pollfds_` stand in the order of registration. -/
structure PollInv (s : Pollers) (reg : Registered) : Prop where
  distinct : reg.Distinct
  pollfds : (s.poll.pollfds_.map fun pfd => (pfd.fd, pfd.events)) =
    reg.map fun x => (x.2, (s.heap x.1).events_)
  index : ∀ (i : Nat) c fd, reg[i]? = some (c, fd) → (s.heap c).index_ = i
  fd : ∀ c fd, (c, fd) ∈ reg → (s.heap c).fd_ = fd
  channels : ∀ fd c, s.poll.channels_ fd = some c ↔ (c, fd) ∈ reg
  epoll : s.epoll.channels_ = s.poll.channels_
  interest : ∀ fd, s.epoll.interest fd ≠ none ↔ ∃ c, (c, fd) ∈ reg

theorem registered_snoc (ops : List PollOp) (op : PollOp) :
    registered (ops ++ [op]) = (registered ops).after op := by
  simp [registered]

namespace Registered

variable {reg : Registered} {c : ChannelPtr} {ch : PolledChannel}

theorem mem_add {x : ChannelPtr × Int} :
    x ∈ reg.after (.add c ch) ↔ x ∈ reg ∨ x = (c, ch.fd_) := by
  simp [Registered.after]

/-- A new channel stands behind the others. -/
theorem getElem?_add {i : Nat} {x : ChannelPtr × Int}
    (hi : (reg.after (.add c ch))[i]? = some x) :
    reg[i]? = some x ∨ (i = reg.length ∧ x = (c, ch.fd_)) := by
  have hi' : (reg ++ [(c, ch.fd_)])[i]? = some x := hi
  by_cases hlt : i < reg.length
  · rw [List.getElem?_append_left hlt] at hi'
    exact .inl hi'
  · have hlen := (List.getElem?_eq_some_iff.mp hi').1
    rw [List.length_append, List.length_singleton] at hlen
    obtain rfl : i = reg.length := by omega
    rw [List.getElem?_concat_length] at hi'
    exact .inr ⟨rfl, (Option.some.inj hi').symm⟩

end Registered

namespace Registered.Distinct

variable {reg : Registered}

/-- There are at most `2 ^ 31` descriptors. -/
theorem length_le (h : reg.Distinct) : reg.length ≤ 2 ^ 31 := by
  have hsub : (reg.map Prod.snd).toFinset ⊆ Finset.Ico (0 : Int) (2 ^ 31) := by
    intro fd hfd
    obtain ⟨x, hx, rfl⟩ := List.mem_map.mp (List.mem_toFinset.mp hfd)
    exact Finset.mem_Ico.mpr (h.range x hx).2
  have hcard := Finset.card_le_card hsub
  rw [List.toFinset_card_of_nodup h.fds, List.length_map, Int.card_Ico] at hcard
  exact hcard

theorem add (h : reg.Distinct) {c : ChannelPtr} {ch : PolledChannel}
    (hok : reg.Allowed (.add c ch)) : (reg.after (.add c ch)).Distinct := by
  obtain ⟨hnull, hfd, hother⟩ := hok
  constructor
  · intro x hx
    obtain hx | rfl := mem_add.mp hx
    · exact h.range x hx
    · exact ⟨hnull, hfd⟩
  · show ((reg ++ [(c, ch.fd_)]).map Prod.fst).Nodup
    rw [List.map_append, List.nodup_append]
    refine ⟨h.ptrs, by simp, fun a ha b hb => ?_⟩
    obtain ⟨x, hx, rfl⟩ := List.mem_map.mp ha
    rw [List.mem_singleton.mp hb]
    exact (hother x hx).1
  · show ((reg ++ [(c, ch.fd_)]).map Prod.snd).Nodup
    rw [List.map_append, List.nodup_append]
    refine ⟨h.fds, by simp, fun a ha b hb => ?_⟩
    obtain ⟨x, hx, rfl⟩ := List.mem_map.mp ha
    rw [List.mem_singleton.mp hb]
    exact (hother x hx).2

/-- Two positions hold two objects. -/
theorem ptr_ne (h : reg.Distinct) {i j : Nat} {x y : ChannelPtr × Int}
    (hi : reg[i]? = some x) (hj : reg[j]? = some y) (hne : j ≠ i) : y.1 ≠ x.1 := by
  intro heq
  have hi' : (reg.map Prod.fst)[i]? = some x.1 := by simp [hi]
  have hj' : (reg.map Prod.fst)[j]? = some x.1 := by simp [hj, heq]
  have hlt : j < (reg.map Prod.fst).length := (List.getElem?_eq_some_iff.mp hj').1
  exact hne ((List.getElem?_inj hlt h.ptrs).mp (hj'.trans hi'.symm))

end Registered.Distinct

theorem pollInv_create (heap : ChannelHeap) : PollInv (Pollers.create heap) [] := by
  constructor
  · constructor <;> simp
  all_goals simp [Pollers.create]

/-- `AddChannel` with a descriptor that the kernel's list does not have. -/
theorem Pollers.exec_add {s : Pollers} {c : ChannelPtr} {ch : PolledChannel} (hfd : 0 ≤ ch.fd_)
    (hfree : s.epoll.interest ch.fd_ = none) :
    s.exec (.add c ch) = .ok
      { heap := Function.update s.heap c
          { ch with index_ := toInt32 (sizeSub (s.poll.pollfds_.length + 1) 1) }
        poll :=
          { pollfds_ := s.poll.pollfds_ ++ [⟨ch.fd_, ch.events_, 0⟩]
            channels_ := Function.update s.poll.channels_ ch.fd_ (some c) }
        epoll :=
          { channels_ := Function.update s.epoll.channels_ ch.fd_ (some c)
            interest := Function.update s.epoll.interest ch.fd_ (some (ch.events_, c)) } } := by
  have hlen : (s.poll.pollfds_ ++ [(⟨ch.fd_, ch.events_, 0⟩ : PollFd)]).length =
      s.poll.pollfds_.length + 1 := List.length_append
  have hepoll := EpollPoller.addChannel_eq s.epoll (Function.update s.heap c ch) c
    (by rwa [Function.update_self]) (by rwa [Function.update_self])
  unfold exec PollPoller.addChannel ChannelHeap.setIndex
  simp only [hepoll, Function.update_self, Function.update_idem, hlen]

/-- `UpdateChannel` of a channel whose element is at `i`. -/
theorem Pollers.exec_update {s : Pollers} {c : ChannelPtr} {events : BitVec 16} {i : Nat}
    (hfd : 0 ≤ (s.heap c).fd_) (hin : s.epoll.interest (s.heap c).fd_ ≠ none)
    (hmap : s.poll.channels_ (s.heap c).fd_ ≠ none)
    (hidx : toSize (s.heap c).index_ = i) (hi : i < s.poll.pollfds_.length) :
    s.exec (.update c events) = .ok
      { heap := Function.update s.heap c { s.heap c with events_ := events }
        poll := { s.poll with pollfds_ := s.poll.pollfds_.set i ⟨(s.heap c).fd_, events, 0⟩ }
        epoll := { s.epoll with
          interest := Function.update s.epoll.interest (s.heap c).fd_ (some (events, c)) } } := by
  have hheap : (s.heap.setEvents c events) c = { s.heap c with events_ := events } :=
    Function.update_self _ _ _
  have hepoll := EpollPoller.updateChannel_eq s.epoll (s.heap.setEvents c events) c
    (by rwa [hheap]) (by rwa [hheap])
  have hpoll : s.poll.updateChannel (s.heap.setEvents c events) c =
      .ok { s.poll with pollfds_ := s.poll.pollfds_.set i ⟨(s.heap c).fd_, events, 0⟩ } := by
    simp [PollPoller.updateChannel, hheap, hmap, hidx, hi]
  rw [hheap] at hepoll
  simp only [exec, hepoll, hpoll]
  rfl

/-- `RemoveChannel` of a channel that `EpollPoller` has. -/
theorem Pollers.exec_remove {s : Pollers} {c : ChannelPtr} {heap : ChannelHeap} {poll : PollPoller}
    (hepoll : s.epoll.channels_ (s.heap c).fd_ = some c)
    (hpoll : s.poll.removeChannel s.heap c = .ok (heap, poll)) :
    s.exec (.remove c) = .ok
      { heap := heap
        poll := poll
        epoll := { s.epoll with
          channels_ := Function.update s.epoll.channels_ (s.heap c).fd_ none } } := by
  simp [exec, EpollPoller.removeChannel, hepoll, hpoll, bind, Except.bind, pure, Except.pure]

namespace PollInv

variable {s : Pollers} {reg : Registered}

theorem size (h : PollInv s reg) : s.poll.pollfds_.length = reg.length := by
  simpa using congrArg List.length h.pollfds

theorem toSize_index (h : PollInv s reg) {i : Nat} {c : ChannelPtr} {fd : Int}
    (hi : reg[i]? = some (c, fd)) : toSize (s.heap c).index_ = i := by
  have hlt : i < reg.length := (List.getElem?_eq_some_iff.mp hi).1
  have hlen := h.distinct.length_le
  rw [h.index i c fd hi, toSize_of_nonneg (by omega) (by omega)]
  simp

theorem element (h : PollInv s reg) {i : Nat} {c : ChannelPtr} {fd : Int}
    (hi : reg[i]? = some (c, fd)) :
    ∃ pfd, s.poll.pollfds_[i]? = some pfd ∧ pfd.fd = fd ∧ pfd.events = (s.heap c).events_ := by
  have hmap := congrArg (fun l => l[i]?) h.pollfds
  simp only [List.getElem?_map, hi, Option.map_some] at hmap
  obtain ⟨pfd, hpfd, heq⟩ := Option.map_eq_some_iff.mp hmap
  exact ⟨pfd, hpfd, by simpa using heq⟩

/-- `AddChannel` of a channel that is not registered. -/
theorem add (h : PollInv s reg) {c : ChannelPtr} {ch : PolledChannel}
    (hok : reg.Allowed (.add c ch)) :
    ∃ s', s.exec (.add c ch) = .ok s' ∧ PollInv s' (reg.after (.add c ch)) := by
  have hdistinct := h.distinct.add hok
  obtain ⟨hnull, hfd, hother⟩ := hok
  have hfree : s.epoll.interest ch.fd_ = none := by
    by_contra hne
    obtain ⟨c', hc'⟩ := (h.interest _).mp hne
    exact (hother _ hc').2 rfl
  -- The new element is the last one, and the other channels are other objects.
  have hidx : toInt32 ((sizeSub (reg.length + 1) 1 : Nat) : Int) = (reg.length : Int) := by
    have hlen : reg.length + 1 ≤ 2 ^ 31 := by simpa [Registered.after] using hdistinct.length_le
    rw [sizeSub_of_le (by omega) (by omega)]
    exact toInt32_of_fits (by omega) (by omega)
  have hheap : ∀ c' fd, (c', fd) ∈ reg → ∀ ch' : PolledChannel,
      Function.update s.heap c ch' c' = s.heap c' := by
    intro c' fd hmem ch'
    exact Function.update_of_ne (hother _ hmem).1 _ _
  refine ⟨_, Pollers.exec_add hfd.1 hfree, hdistinct, ?_, ?_, ?_, ?_, ?_, ?_⟩
  · have hold : (reg.map fun x => (x.2, (Function.update s.heap c
        { ch with index_ := toInt32 (sizeSub (s.poll.pollfds_.length + 1) 1) } x.1).events_)) =
        reg.map fun x => (x.2, (s.heap x.1).events_) :=
      List.map_congr_left fun x hx => by rw [hheap _ _ hx]
    unfold Registered.after
    dsimp only
    rw [List.map_append, List.map_append, h.pollfds, hold]
    simp only [List.map_cons, List.map_nil, Function.update_self]
  · intro i c' fd hi
    dsimp only
    obtain hi | ⟨rfl, heq⟩ := Registered.getElem?_add hi
    · rw [hheap _ _ (List.mem_of_getElem? hi)]
      exact h.index i c' fd hi
    · cases heq
      simp only [Function.update_self, h.size, hidx]
  · intro c' fd hmem
    dsimp only
    obtain hmem | heq := Registered.mem_add.mp hmem
    · rw [hheap _ _ hmem]
      exact h.fd c' fd hmem
    · cases heq
      rw [Function.update_self]
  · intro fd c'
    dsimp only
    rw [Registered.mem_add, ← h.channels]
    by_cases hfd' : fd = ch.fd_
    · subst hfd'
      have hnone : s.poll.channels_ ch.fd_ ≠ some c' := fun hc' =>
        (hother _ ((h.channels _ _).mp hc')).2 rfl
      simp [hnone, eq_comm]
    · simp [hfd']
  · simp only [h.epoll]
  · intro fd
    dsimp only
    simp only [Registered.mem_add]
    by_cases hfd' : fd = ch.fd_
    · subst hfd'
      rw [Function.update_self]
      exact ⟨fun _ => ⟨c, .inr rfl⟩, fun _ => by simp⟩
    · rw [Function.update_of_ne hfd', h.interest]
      simp [hfd']

/-- `UpdateChannel` of a registered channel. -/
theorem update (h : PollInv s reg) {c : ChannelPtr} {events : BitVec 16}
    (hok : reg.Allowed (.update c events)) :
    ∃ s', s.exec (.update c events) = .ok s' ∧ PollInv s' (reg.after (.update c events)) := by
  obtain ⟨fd, hmem⟩ := hok
  obtain ⟨i, hi⟩ := List.getElem?_of_mem hmem
  have hfd := h.fd c fd hmem
  have hlt : i < reg.length := (List.getElem?_eq_some_iff.mp hi).1
  have hother : ∀ (j : Nat) x, reg[j]? = some x → j ≠ i → ∀ ch' : PolledChannel,
      Function.update s.heap c ch' x.1 = s.heap x.1 := by
    intro j x hj hne ch'
    exact Function.update_of_ne (h.distinct.ptr_ne hi hj hne) _ _
  refine ⟨_, Pollers.exec_update (by rw [hfd]; exact (h.distinct.range _ hmem).2.1)
    (by rw [hfd, h.interest]; exact ⟨c, hmem⟩)
    (by rw [hfd, (h.channels fd c).mpr hmem]; simp) (h.toSize_index hi) (by rw [h.size]; exact hlt),
    h.distinct, ?_, ?_, ?_, h.channels, h.epoll, ?_⟩
  · dsimp only [Registered.after]
    -- Element `i` is overwritten with the same descriptor and the new events.
    rw [List.map_set, h.pollfds]
    refine List.ext_getElem? fun j => ?_
    by_cases hj : j = i
    · subst hj
      rw [List.getElem?_set_self (by simpa using hlt), List.getElem?_map, hi]
      simp [hfd]
    · cases hx : reg[j]? with
      | none => simp [hx, Ne.symm hj]
      | some x => simp [hx, Ne.symm hj, hother j x hx hj]
  · intro j c' fd' hj
    dsimp only
    by_cases hne : j = i
    · subst hne
      obtain ⟨rfl, rfl⟩ : c = c' ∧ fd = fd' := by simpa using hi.symm.trans hj
      simp only [Function.update_self]
      exact h.index _ _ _ hi
    · rw [hother j (c', fd') hj hne]
      exact h.index _ _ _ hj
  · intro c' fd' hmem'
    dsimp only
    by_cases hc : c' = c
    · subst hc
      simp only [Function.update_self]
      exact h.fd _ _ hmem'
    · rw [Function.update_of_ne hc]
      exact h.fd _ _ hmem'
  · intro fd'
    dsimp only [Registered.after]
    -- `EPOLL_CTL_MOD` keeps the list of descriptors.
    by_cases heq : fd' = (s.heap c).fd_
    · subst heq
      rw [hfd] at *
      simp only [Function.update_self]
      simpa using ⟨c, hmem⟩
    · rw [Function.update_of_ne heq]
      exact h.interest fd'

end PollInv

/-! ## What `Poll` reports -/

theorem Readiness.pos (k : Readiness) {fd : Int} (h : k.revents fd ≠ 0) :
    (k.revents fd).toInt > 0 := by
  rw [BitVec.toInt_eq_toNat_of_msb (k.nonneg fd)]
  have hne : (k.revents fd).toNat ≠ 0 := fun h0 => h (BitVec.eq_of_toNat_eq (by simpa using h0))
  omega

/-- An element without events is passed over, whatever the counter is. -/
theorem PollPoller.fillActiveChannels_quiet (channels_ : ChannelMap) (fd : Int)
    (events : BitVec 16) (rest : List PollFd) (numEvents : Int) (heap : ChannelHeap)
    (active : List ChannelPtr) :
    fillActiveChannels channels_ (⟨fd, events, 0⟩ :: rest) numEvents heap active =
      fillActiveChannels channels_ rest numEvents heap active := by
  rw [fillActiveChannels, if_neg (by simp : ¬ (0 : BitVec 16).toInt > 0)]
  by_cases hn : numEvents > 0
  · rw [if_pos hn]
  · rw [if_neg hn]
    cases rest with
    | nil => rfl
    | cons pfd rest => rw [fillActiveChannels, if_neg hn]

/-- The loop over elements that belong to the channels of `reg`, with `numEvents` the number
    of elements with events. -/
theorem PollPoller.fillActiveChannels_eq {channels_ : ChannelMap} {k : Readiness}
    (events : ChannelPtr → BitVec 16) (reg : Registered)
    (hmap : ∀ x ∈ reg, channels_ x.2 = some x.1 ∧ x.1 ≠ nullptr) (heap : ChannelHeap)
    (active : List ChannelPtr) :
    ∃ heap', fillActiveChannels channels_
      (reg.map fun x => ⟨x.2, events x.1, k.revents x.2⟩)
      (reg.countP fun x => k.revents x.2 != 0) heap active =
      .ok (heap', active ++ (reg.filter fun x => k.revents x.2 != 0).map Prod.fst) := by
  induction reg generalizing heap active with
  | nil => exact ⟨heap, by simp [fillActiveChannels]⟩
  | cons x reg ih =>
    have ih := ih fun y hy => hmap y (List.mem_cons_of_mem _ hy)
    obtain ⟨hx, hnull⟩ := hmap x (by simp)
    by_cases hrev : k.revents x.2 = 0
    · obtain ⟨heap', hrest⟩ := ih heap active
      refine ⟨heap', ?_⟩
      simp only [List.map_cons, hrev]
      rw [fillActiveChannels_quiet]
      simpa [hrev] using hrest
    · obtain ⟨heap', hrest⟩ := ih (heap.setREvents x.1 (k.revents x.2)) (active ++ [x.1])
      refine ⟨heap', ?_⟩
      have hcount : ((x :: reg).countP fun x => k.revents x.2 != 0) =
          (reg.countP fun x => k.revents x.2 != 0) + 1 :=
        List.countP_cons_of_pos (by simpa using hrev)
      rw [List.map_cons, fillActiveChannels, if_pos (by omega), if_pos (k.pos hrev), hx, hcount]
      simp only [if_neg hnull, Int.natCast_add, Int.natCast_one, Int.add_sub_cancel, hrest]
      rw [List.filter_cons_of_pos (by simpa using hrev)]
      simp

namespace PollInv

variable {s : Pollers} {reg : Registered}

/-- What `poll` is called with, after the kernel has filled in what it found. -/
theorem polled (h : PollInv s reg) (k : Readiness) :
    (s.poll.pollfds_.map fun pfd => { pfd with revents := k.revents pfd.fd }) =
      reg.map fun x => ⟨x.2, (s.heap x.1).events_, k.revents x.2⟩ := by
  have hmap := congrArg
    (List.map fun y : Int × BitVec 16 => (⟨y.1, y.2, k.revents y.1⟩ : PollFd)) h.pollfds
  rwa [List.map_map, List.map_map] at hmap

theorem represents (h : PollInv s reg) : PollersRepresent s reg := by
  refine ⟨h.size, ?_, h.channels, ?_, ?_⟩
  · intro c fd hmem
    obtain ⟨i, hi⟩ := List.getElem?_of_mem hmem
    rw [h.toSize_index hi]
    exact ⟨h.fd c fd hmem, h.element hi⟩
  · intro k
    have hmap : ∀ x ∈ reg, s.poll.channels_ x.2 = some x.1 ∧ x.1 ≠ nullptr := by
      intro x hx
      exact ⟨(h.channels x.2 x.1).mpr hx, (h.distinct.range x hx).1⟩
    obtain ⟨heap', hfill⟩ := PollPoller.fillActiveChannels_eq (k := k)
      (fun c => (s.heap c).events_) reg hmap s.heap []
    have hcount : (reg.map fun x => (⟨x.2, (s.heap x.1).events_, k.revents x.2⟩ : PollFd)).countP
        (fun pfd => pfd.revents != 0) = reg.countP fun x => k.revents x.2 != 0 := by
      rw [List.countP_map]
      rfl
    have hpoll : ∃ heap, s.poll.poll s.heap k =
        .ok (heap, (reg.filter fun x => k.revents x.2 != 0).map Prod.fst) := by
      unfold PollPoller.poll
      simp only [h.polled k, hcount]
      by_cases hpos : (reg.countP fun x => k.revents x.2 != 0) > 0
      · exact ⟨heap', by rw [if_pos hpos, hfill, List.nil_append]⟩
      · have hnone : (reg.filter fun x => k.revents x.2 != 0) = [] := by
          rw [← List.length_eq_zero_iff, ← List.countP_eq_length_filter]
          omega
        exact ⟨s.heap, by rw [if_neg hpos, hnone, List.map_nil]⟩
    obtain ⟨heap, hpoll⟩ := hpoll
    refine ⟨heap, _, hpoll, (h.distinct.ptrs.sublist (List.filter_sublist.map _)), ?_⟩
    intro c
    simp
  · intro c
    rw [h.epoll]

/-- `RemoveChannel` of the channel with the last element: its entry in `channels_` stays. -/
theorem removeChannel_last (h : PollInv s reg) {i : Nat} {c : ChannelPtr} {fd : Int}
    (hi : reg[i]? = some (c, fd)) (hlast : i + 1 = reg.length) :
    s.poll.removeChannel s.heap c =
      .ok (s.heap, { s.poll with pollfds_ := s.poll.pollfds_.dropLast }) := by
  have hmem := List.mem_of_getElem? hi
  have hlen := h.distinct.length_le
  have hidx : i = sizeSub s.poll.pollfds_.length 1 := by
    rw [h.size, sizeSub_of_le (by omega) (by omega)]
    omega
  simp [PollPoller.removeChannel, h.fd c fd hmem, (h.channels fd c).mpr hmem, h.toSize_index hi,
    ← hidx]

/-- `RemoveChannel` of any other channel: `SetIndex` goes to the removed channel. -/
theorem removeChannel_inner (h : PollInv s reg) {i : Nat} {c : ChannelPtr} {fd : Int}
    (hi : reg[i]? = some (c, fd)) (hinner : i + 1 < reg.length) :
    ∃ last, s.poll.removeChannel s.heap c =
      .ok (s.heap.setIndex c i,
        { pollfds_ := (PollPoller.swapLast s.poll.pollfds_ i last).dropLast
          channels_ := Function.update s.poll.channels_ fd none }) := by
  have hmem := List.mem_of_getElem? hi
  have hlen := h.distinct.length_le
  have hsize := h.size
  have hidx : i ≠ sizeSub s.poll.pollfds_.length 1 := by
    rw [hsize, sizeSub_of_le (by omega) (by omega)]
    omega
  obtain ⟨pfd, hpfd, hpfdfd, -⟩ := h.element hi
  obtain ⟨last, hlast⟩ : ∃ last, s.poll.pollfds_.getLast? = some last := by
    cases hl : s.poll.pollfds_.getLast? with
    | some last => exact ⟨last, rfl⟩
    | none =>
      rw [List.getLast?_eq_none_iff.mp hl] at hsize
      simp at hsize
      omega
  have hone : 1 < s.poll.pollfds_.length := by omega
  refine ⟨last, ?_⟩
  simp [PollPoller.removeChannel, h.fd c fd hmem, (h.channels fd c).mpr hmem, h.toSize_index hi,
    hidx, hone, hpfd, hlast, hpfdfd, (h.distinct.range _ hmem).1]

/-- No `RemoveChannel` leaves the pollers representing what is registered. -/
theorem not_represents_remove (h : PollInv s reg) {c : ChannelPtr} {s' : Pollers}
    (hok : reg.Allowed (.remove c)) (hexec : s.exec (.remove c) = .ok s') :
    ¬ PollersRepresent s' (reg.after (.remove c)) := by
  intro hrep
  obtain ⟨fd, hmem⟩ := hok
  obtain ⟨i, hi⟩ := List.getElem?_of_mem hmem
  have hlt : i < reg.length := (List.getElem?_eq_some_iff.mp hi).1
  have hepoll : s.epoll.channels_ (s.heap c).fd_ = some c := by
    rw [h.epoll, h.fd c fd hmem]
    exact (h.channels fd c).mpr hmem
  by_cases hlast : i + 1 = reg.length
  · -- The map still has the removed channel.
    rw [Pollers.exec_remove hepoll (h.removeChannel_last hi hlast)] at hexec
    cases hexec
    have hstill := (hrep.channels fd c).mp ((h.channels fd c).mpr hmem)
    simp [Registered.after] at hstill
  · -- The channel of the last element points beyond the shortened vector.
    obtain ⟨last, hremove⟩ := h.removeChannel_inner hi (by omega)
    rw [Pollers.exec_remove hepoll hremove] at hexec
    cases hexec
    obtain ⟨⟨c', fd'⟩, hj⟩ : ∃ x, reg[reg.length - 1]? = some x :=
      ⟨_, List.getElem?_eq_getElem (by omega)⟩
    have hne : c' ≠ c := h.distinct.ptr_ne hi hj (by omega)
    have hmem' : (c', fd') ∈ reg.after (.remove c) :=
      List.mem_filter.mpr ⟨List.mem_of_getElem? hj, by simpa using hne⟩
    obtain ⟨-, pfd, hpfd, -⟩ := hrep.element c' fd' hmem'
    have hbound := (List.getElem?_eq_some_iff.mp hpfd).1
    dsimp only at hbound
    have hsame : (s.heap.setIndex c i) c' = s.heap c' := Function.update_of_ne hne _ _
    rw [hsame, h.toSize_index hj] at hbound
    have hswap : (PollPoller.swapLast s.poll.pollfds_ i last).length = reg.length := by
      unfold PollPoller.swapLast
      cases s.poll.pollfds_[i]? <;> simp [h.size]
    simp [hswap] at hbound

end PollInv

/-! ## Main theorem -/

/-- After every operation of a valid sequence the pollers represent the registered
    channels, exactly when the sequence has no `RemoveChannel`. -/
theorem pollers_represent_iff (heap : ChannelHeap) (ops : List PollOp) (hvalid : ValidOps ops) :
    (∀ n, n ≤ ops.length → ∃ s, LTS.run Pollers.exec (Pollers.create heap) (ops.take n) = .ok s ∧
      PollersRepresent s (registered (ops.take n))) ↔
    ∀ c, PollOp.remove c ∉ ops := by
  refine Iff.trans (LTS.run_exact (fun ls s => PollersRepresent s (registered ls))
    (fun ls s => PollInv s (registered ls)) (fun _ op => ∀ c, op ≠ .remove c)
    (pollInv_create heap) (fun _ _ h => h.represents) ops ?_ ?_) ?_
  · intro n hn s _ hinv hcond
    have hok := hvalid n hn
    rw [registered_snoc]
    revert hok hcond
    cases ops[n] with
    | add c ch => exact fun _ hok => hinv.add hok
    | update c events => exact fun _ hok => hinv.update hok
    | remove c => exact fun hcond => absurd rfl (hcond c)
  · intro n hn s s' _ hinv hexec hgood c hop
    have hok := hvalid n hn
    rw [registered_snoc] at hgood
    rw [hop] at hok hexec hgood
    exact hinv.not_represents_remove hok hexec hgood
  · constructor
    · intro hcond c hmem
      obtain ⟨n, hn, hop⟩ := List.getElem_of_mem hmem
      exact hcond n hn c hop
    · intro hcond n hn c hop
      exact hcond c (hop ▸ List.getElem_mem hn)

/-- A channel for descriptor 5, at an index that `AddChannel` is to overwrite. -/
def idleChannel : PolledChannel := { fd_ := 5, events_ := 0, revents_ := 0, index_ := 7 }

theorem pollers_represent_update :
    let ops : List PollOp := [.add 1 idleChannel, .update 1 POLLIN]
    ValidOps ops ∧ ∀ n, n ≤ ops.length → ∃ s,
      LTS.run Pollers.exec (Pollers.create fun _ => idleChannel) (ops.take n) = .ok s ∧
        PollersRepresent s (registered (ops.take n)) := by
  have hvalid : ValidOps [.add 1 idleChannel, .update 1 POLLIN] := by
    intro n hn
    obtain rfl | rfl : n = 0 ∨ n = 1 := by
      simp at hn
      omega
    · exact ⟨by decide, by decide, by simp [registered]⟩
    · exact ⟨5, by simp [registered, Registered.after, idleChannel]⟩
  exact ⟨hvalid, (pollers_represent_iff _ _ hvalid).mpr (by simp)⟩

/-- The only channel is removed, and `HasChannel` still finds it. -/
theorem pollers_keep_removed :
    ¬ ∀ (heap : ChannelHeap) (ops : List PollOp), ValidOps ops →
      ∀ n, n ≤ ops.length → ∃ s,
        LTS.run Pollers.exec (Pollers.create heap) (ops.take n) = .ok s ∧
          PollersRepresent s (registered (ops.take n)) := by
  intro hall
  have hvalid : ValidOps [.add 1 idleChannel, .remove 1] := by
    intro n hn
    obtain rfl | rfl : n = 0 ∨ n = 1 := by
      simp at hn
      omega
    · exact ⟨by decide, by decide, by simp [registered]⟩
    · exact ⟨5, by simp [registered, Registered.after, idleChannel]⟩
  obtain ⟨s, hrun, hrep⟩ := hall (fun _ => idleChannel) _ hvalid 2 (by simp)
  have hmap : s.poll.channels_ 5 = some 1 := by
    cases hrun
    rfl
  have hmem := (hrep.channels 5 1).mp hmap
  simp [registered, Registered.after, idleChannel] at hmem

end JNet
