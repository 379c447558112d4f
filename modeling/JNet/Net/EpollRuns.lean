import JNet.Net.Poller

/-! # Runs of `jnet::EpollPoller`

    The life of channels with an epoll set: `AddToLoop`, changes of the events,
    `Close`, the destructor, and `Poll`.  `RemoveChannel` leaves the interest list to
    the kernel, which drops a descriptor when it is closed.

    The kernel hands back the pointers it was given, as many as fit into `events_`.
    They have to be channels that still exist, and no channel may wait forever
    because others are ready all the time.

    A channel may be made for descriptor -1, which `socket` returns when it fails, and
    its events may be changed after `Close`: `epoll_ctl` then fails, a line goes to the
    log, and that is all.
-/

namespace JNet

open Memory

/-! ## State and steps -/

structure EpollLoop where
  heap : ChannelHeap
  /-- The channel objects that exist. -/
  alive : ChannelPtr → Bool
  poller : EpollPoller
  /-- The size of the vector `events_`. -/
  events_ : Nat
  /-- What `Poll` has returned last. -/
  activeChannels_ : List ChannelPtr
  /-- How many times there were more events than room for them. -/
  missed : Nat

inductive EpollOp where
  /-- `new Channel` and `AddToLoop`. -/
  | add (c : ChannelPtr) (ch : PolledChannel)
  /-- `EnableRead`, `EnableWrite`, `DisableRead` or `DisableWrite`. -/
  | update (c : ChannelPtr) (events : BitVec 16)
  | close (c : ChannelPtr)
  | delete (c : ChannelPtr)
  /-- `Poll`, with the descriptors that are ready and their events in the order in which the
      kernel reports them. -/
  | poll (ready : List (Int × BitVec 16))

namespace EpollLoop

def kInitEventListSize : Nat := 16

def create (heap : ChannelHeap) : EpollLoop where
  heap := heap
  alive := fun _ => false
  poller := { channels_ := fun _ => none, interest := fun _ => none }
  events_ := kInitEventListSize
  activeChannels_ := []
  missed := 0

/-- `close(fd)`: the kernel takes the descriptor off the interest list. -/
def closeFd (p : EpollPoller) (fd : Int) : EpollPoller :=
  { p with interest := Function.update p.interest fd none }

/-- `Channel::Close`. -/
def closeChannel (s : EpollLoop) (c : ChannelPtr) : Except Fault EpollLoop :=
  let fd := (s.heap c).fd_
  if fd ≥ 0 then do
    let poller ← (closeFd s.poller fd).removeChannel s.heap c
    return { s with
      poller := poller
      heap := Function.update s.heap c { s.heap c with fd_ := -1 } }
  else .ok s

/-- `FillActiveChannels`, from the current event on; `data.ptr` is what the interest list has. -/
def fillActiveChannels (interest : Int → Option (BitVec 16 × ChannelPtr)) :
    List (Int × BitVec 16) → ChannelHeap → List ChannelPtr →
      Except Fault (ChannelHeap × List ChannelPtr)
  | [], heap, active => .ok (heap, active)
  | (fd, revents) :: rest, heap, active =>
    match interest fd with
    | some (_, c) => fillActiveChannels interest rest (heap.setREvents c revents) (active ++ [c])
    | none => .error .outOfBounds

/-- `Poll`; an empty report changes nothing. -/
def poll (s : EpollLoop) (ready : List (Int × BitVec 16)) : Except Fault EpollLoop := do
  let report := ready.take s.events_
  let (heap, active) ← fillActiveChannels s.poller.interest report s.heap []
  return { s with
    heap := heap
    activeChannels_ := active
    events_ := if report.length = s.events_ then s.events_ * 2 else s.events_
    missed := s.missed + if s.events_ < ready.length then 1 else 0 }

def exec (s : EpollLoop) : EpollOp → Except Fault EpollLoop
  | .add c ch =>
    let heap := Function.update s.heap c ch
    .ok { s with
      heap := heap
      poller := s.poller.addChannel heap c
      alive := Function.update s.alive c true }
  | .update c events =>
    let heap := s.heap.setEvents c events
    .ok { s with heap := heap, poller := s.poller.updateChannel heap c }
  | .close c => s.closeChannel c
  | .delete c => do
    let s ← if (s.heap c).fd_ ≠ -1 then s.closeChannel c else .ok s
    return { s with alive := Function.update s.alive c false }
  | .poll ready => s.poll ready

/-- What the code around the poller and the kernel do: a new channel has a descriptor that no
    other one has open, or -1; member functions are called on channels that exist; and the
    kernel reports descriptors of the interest list, each once. -/
def Allowed (s : EpollLoop) : EpollOp → Prop
  | .add c ch => s.alive c = false ∧ (ch.fd_ = -1 ∨
      0 ≤ ch.fd_ ∧ ∀ c', s.alive c' = true → (s.heap c').fd_ ≠ ch.fd_)
  | .update c _ => s.alive c = true
  | .close c => s.alive c = true
  | .delete c => s.alive c = true
  | .poll ready => (ready.map Prod.fst).Nodup ∧ ∀ p ∈ ready, s.poller.interest p.1 ≠ none

/-- An allowed step; of a `Poll`, one with at most `n` ready descriptors. -/
def AllowedUpTo (n : Nat) (s : EpollLoop) (op : EpollOp) : Prop :=
  s.Allowed op ∧ ∀ ready, op = .poll ready → ready.length ≤ n

/-- The channel exists and has its descriptor. -/
def Open (s : EpollLoop) (c : ChannelPtr) (fd : Int) : Prop :=
  s.alive c = true ∧ (s.heap c).fd_ = fd ∧ 0 ≤ fd

end EpollLoop

/-! ## The invariant -/

open EpollLoop

/-- The interest list and `channels_` have the open channels, with their events; below zero
    `channels_` may have anything. -/
structure EpollInv (s : EpollLoop) : Prop where
  unique : ∀ c c' fd, s.Open c fd → s.Open c' fd → c = c'
  range : ∀ c, s.alive c = true → (s.heap c).fd_ = -1 ∨ 0 ≤ (s.heap c).fd_
  interest : ∀ fd ev c, s.poller.interest fd = some (ev, c) ↔
    s.Open c fd ∧ (s.heap c).events_ = ev
  channels : ∀ fd c, 0 ≤ fd → (s.poller.channels_ fd = some c ↔ s.Open c fd)

namespace EpollInv

variable {s : EpollLoop}

theorem initial (heap : ChannelHeap) : EpollInv (create heap) := by
  constructor
  · intro c c' fd hc
    cases hc.1
  · intro c hc
    cases hc
  · intro fd ev c
    constructor
    · intro h
      cases h
    · intro h
      cases h.1.1
  · intro fd c _
    constructor
    · intro h
      cases h
    · intro h
      cases h.1

/-- An open channel is in the interest list. -/
theorem interest_open (h : EpollInv s) {c : ChannelPtr} {fd : Int} (hc : s.Open c fd) :
    s.poller.interest fd = some ((s.heap c).events_, c) :=
  (h.interest fd _ c).mpr ⟨hc, rfl⟩

theorem interest_none (h : EpollInv s) {fd : Int} (hnone : ∀ c, ¬ s.Open c fd) :
    s.poller.interest fd = none := by
  cases hfd : s.poller.interest fd with
  | none => rfl
  | some entry => exact absurd ((h.interest fd entry.1 entry.2).mp hfd).1 (hnone entry.2)

/-- Only what is open at one descriptor has changed. -/
theorem set (h : EpollInv s) {s' : EpollLoop} (fd₀ : Int) (o : Option ChannelPtr)
    (hinterest : s'.poller.interest =
      Function.update s.poller.interest fd₀ (o.map fun c => ((s'.heap c).events_, c)))
    (hchannels : ∀ fd, 0 ≤ fd →
      s'.poller.channels_ fd = Function.update s.poller.channels_ fd₀ o fd)
    (hat : ∀ c, s'.Open c fd₀ ↔ o = some c)
    (hother : ∀ fd, fd ≠ fd₀ → ∀ c, s'.Open c fd ↔ s.Open c fd)
    (hevents : ∀ fd, fd ≠ fd₀ → ∀ c, s.Open c fd → (s'.heap c).events_ = (s.heap c).events_)
    (hrange : ∀ c, s'.alive c = true → (s'.heap c).fd_ = -1 ∨ 0 ≤ (s'.heap c).fd_) :
    EpollInv s' := by
  constructor
  · intro c c' fd hc hc'
    by_cases hfd : fd = fd₀
    · rw [hfd, hat] at hc hc'
      exact Option.some.inj (hc.symm.trans hc')
    · rw [hother fd hfd] at hc hc'
      exact h.unique c c' fd hc hc'
  · exact hrange
  · intro fd ev c
    rw [hinterest]
    by_cases hfd : fd = fd₀
    · rw [hfd, Function.update_self, hat]
      cases o with
      | none => simp
      | some c₀ =>
        simp only [Option.map_some, Option.some.injEq, Prod.mk.injEq]
        constructor
        · rintro ⟨hev, rfl⟩
          exact ⟨rfl, hev⟩
        · rintro ⟨rfl, hev⟩
          exact ⟨hev, rfl⟩
    · rw [Function.update_of_ne hfd, h.interest, hother fd hfd]
      constructor
      · rintro ⟨hopen, hev⟩
        exact ⟨hopen, (hevents fd hfd c hopen).trans hev⟩
      · rintro ⟨hopen, hev⟩
        exact ⟨hopen, (hevents fd hfd c hopen).symm.trans hev⟩
  · intro fd c hpos
    rw [hchannels fd hpos]
    by_cases hfd : fd = fd₀
    · rw [hfd, Function.update_self, hat]
    · rw [Function.update_of_ne hfd, h.channels fd c hpos, hother fd hfd]

/-- Nothing of the open channels has changed, nor of the lists at their descriptors. -/
theorem keep (h : EpollInv s) {s' : EpollLoop}
    (hinterest : s'.poller.interest = s.poller.interest)
    (hchannels : ∀ fd, 0 ≤ fd → s'.poller.channels_ fd = s.poller.channels_ fd)
    (hopen : ∀ c fd, s'.Open c fd ↔ s.Open c fd)
    (hevents : ∀ c fd, s.Open c fd → (s'.heap c).events_ = (s.heap c).events_)
    (hrange : ∀ c, s'.alive c = true → (s'.heap c).fd_ = -1 ∨ 0 ≤ (s'.heap c).fd_) :
    EpollInv s' := by
  constructor
  · intro c c' fd hc hc'
    exact h.unique c c' fd ((hopen c fd).mp hc) ((hopen c' fd).mp hc')
  · exact hrange
  · intro fd ev c
    rw [hinterest, h.interest, hopen]
    apply and_congr_right
    intro hc
    rw [hevents c fd hc]
  · intro fd c hpos
    rw [hchannels fd hpos, h.channels fd c hpos, hopen]

theorem add (h : EpollInv s) {c : ChannelPtr} {ch : PolledChannel} (hdead : s.alive c = false)
    (hfd : 0 ≤ ch.fd_) (hfree : ∀ c', s.alive c' = true → (s.heap c').fd_ ≠ ch.fd_) :
    ∃ s', s.exec (.add c ch) = .ok s' ∧ s'.events_ = s.events_ ∧ s'.missed = s.missed ∧
      EpollInv s' := by
  have hnone : s.poller.interest ch.fd_ = none := by
    apply h.interest_none
    intro c' hc'
    exact hfree c' hc'.1 hc'.2.1
  have hpoller := EpollPoller.addChannel_eq s.poller (Function.update s.heap c ch) c
    (by rwa [Function.update_self]) (by rwa [Function.update_self])
  rw [Function.update_self] at hpoller
  -- `c` is open at its descriptor now, and nothing else was open there.
  refine ⟨_, rfl, rfl, rfl, ?_⟩
  apply h.set ch.fd_ (some c)
  · simp [hpoller]
  · simp [hpoller]
  · intro c'
    by_cases hc' : c' = c
    · simp [EpollLoop.Open, hc', hfd]
    · simp only [EpollLoop.Open, Function.update_of_ne hc', Option.some.injEq, Ne.symm hc',
        iff_false]
      rintro ⟨halive, hsame, -⟩
      exact hfree c' halive hsame
  · intro fd hne c'
    by_cases hc' : c' = c
    · simp [EpollLoop.Open, hc', hdead, Ne.symm hne]
    · simp only [EpollLoop.Open, Function.update_of_ne hc']
  · intro fd hne c' hopen
    by_cases hc' : c' = c
    · rw [hc'] at hopen
      have halive := hopen.1
      rw [hdead] at halive
      cases halive
    · simp only [Function.update_of_ne hc']
  · intro c' halive
    by_cases hc' : c' = c
    · simp [hc', hfd]
    · simp only [Function.update_of_ne hc'] at halive ⊢
      exact h.range c' halive

/-- A channel without a descriptor gets into `channels_`, at -1, and not into the list. -/
theorem add_negative (h : EpollInv s) {c : ChannelPtr} {ch : PolledChannel}
    (hdead : s.alive c = false) (hfd : ch.fd_ = -1) :
    ∃ s', s.exec (.add c ch) = .ok s' ∧ s'.events_ = s.events_ ∧ s'.missed = s.missed ∧
      EpollInv s' := by
  have hnew : (Function.update s.heap c ch c).fd_ = -1 := by
    rw [Function.update_self]
    exact hfd
  have hrefused := EpollPoller.update_negative s.poller (Function.update s.heap c ch) c .ADD
    (show (Function.update s.heap c ch c).fd_ < 0 by rw [hnew]; decide)
  -- What is written to `channels_` lies below every descriptor.
  refine ⟨_, rfl, rfl, rfl, ?_⟩
  apply h.keep
  · simp only [EpollPoller.addChannel, hrefused]
  · intro fd hpos
    simp only [EpollPoller.addChannel, hrefused, hnew]
    exact Function.update_of_ne (by omega) _ _
  · intro c' fd
    by_cases hc' : c' = c
    · simp only [EpollLoop.Open, hc', Function.update_self, hfd, hdead]
      constructor
      · rintro ⟨-, hminus, hpos⟩
        omega
      · rintro ⟨hfalse, -⟩
        cases hfalse
    · simp only [EpollLoop.Open, Function.update_of_ne hc']
  · intro c' fd hopen
    by_cases hc' : c' = c
    · rw [hc'] at hopen
      have halive := hopen.1
      rw [hdead] at halive
      cases halive
    · simp only [Function.update_of_ne hc']
  · intro c' halive
    by_cases hc' : c' = c
    · rw [hc']
      exact .inl hnew
    · simp only [Function.update_of_ne hc'] at halive ⊢
      exact h.range c' halive

theorem setEvents_fd (heap : ChannelHeap) (c c' : ChannelPtr) (events : BitVec 16) :
    (heap.setEvents c events c').fd_ = (heap c').fd_ := by
  by_cases hc' : c' = c
  · simp [ChannelHeap.setEvents, hc']
  · simp [ChannelHeap.setEvents, Function.update_of_ne hc']

/-- The events of an open channel are those that the list has; a closed one is in no list. -/
theorem update (h : EpollInv s) {c : ChannelPtr} (events : BitVec 16) (halive : s.alive c = true) :
    ∃ s', s.exec (.update c events) = .ok s' ∧ s'.events_ = s.events_ ∧ s'.missed = s.missed ∧
      EpollInv s' := by
  refine ⟨_, rfl, rfl, rfl, ?_⟩
  have hsame := setEvents_fd s.heap c
  by_cases hfd : 0 ≤ (s.heap c).fd_
  · -- `EPOLL_CTL_MOD` finds the channel's own entry.
    have hopen : s.Open c (s.heap c).fd_ := ⟨halive, rfl, hfd⟩
    have hpoller := EpollPoller.updateChannel_eq s.poller (s.heap.setEvents c events) c
      (by rwa [hsame]) (by rw [hsame, h.interest_open hopen]; exact Option.some_ne_none _)
    rw [hsame] at hpoller
    apply h.set (s.heap c).fd_ (some c)
    · simp [hpoller]
    · intro fd hpos
      rw [Function.update_eq_self_iff.mpr ((h.channels _ _ hfd).mpr hopen).symm]
      simp [hpoller]
    · intro c'
      simp only [EpollLoop.Open, hsame, Option.some.injEq]
      constructor
      · intro hc'
        exact h.unique c c' _ hopen hc'
      · rintro rfl
        exact hopen
    · intro fd hne c'
      simp only [EpollLoop.Open, hsame]
    · intro fd hne c' hc'
      have hne' : c' ≠ c := by
        rintro rfl
        exact hne hc'.2.1.symm
      simp [ChannelHeap.setEvents, Function.update_of_ne hne']
    · intro c' hc'
      simp only [hsame]
      exact h.range c' hc'
  · -- `EPOLL_CTL_MOD` fails.
    have hrefused : s.poller.updateChannel (s.heap.setEvents c events) c = s.poller :=
      EpollPoller.update_negative _ _ _ .MOD (by rw [hsame]; omega)
    apply h.keep
    · simp only [hrefused]
    · intro fd _
      simp only [hrefused]
    · intro c' fd
      simp only [EpollLoop.Open, hsame]
    · intro c' fd hopen
      have hne : c' ≠ c := by
        rintro rfl
        exact hfd (by rw [hopen.2.1]; exact hopen.2.2)
      simp [ChannelHeap.setEvents, Function.update_of_ne hne]
    · intro c' hc'
      simp only [hsame]
      exact h.range c' hc'

theorem closeChannel_eq (h : EpollInv s) {c : ChannelPtr} (halive : s.alive c = true) :
    ∃ s', s.closeChannel c = .ok s' ∧ s'.events_ = s.events_ ∧ s'.missed = s.missed ∧
      s'.alive = s.alive ∧ (s'.heap c).fd_ = -1 ∧ EpollInv s' := by
  by_cases hfd : 0 ≤ (s.heap c).fd_
  · -- The assertions of `RemoveChannel` hold, and `close` takes the entry off the list.
    have hopen : s.Open c (s.heap c).fd_ := ⟨halive, rfl, hfd⟩
    have hchannel := (h.channels _ _ hfd).mpr hopen
    refine ⟨{ s with
      heap := Function.update s.heap c { s.heap c with fd_ := -1 }
      poller := {
        channels_ := Function.update s.poller.channels_ (s.heap c).fd_ none
        interest := Function.update s.poller.interest (s.heap c).fd_ none } }, ?_, rfl, rfl, rfl,
      ?_, ?_⟩
    · simp only [EpollLoop.closeChannel, ge_iff_le, hfd, if_true, closeFd,
        EpollPoller.removeChannel, hchannel]
      simp
    · simp
    · apply h.set (s.heap c).fd_ none
      · rfl
      · intro fd _
        rfl
      · intro c'
        by_cases hc' : c' = c
        · simp only [EpollLoop.Open, hc', Function.update_self]
          constructor
          · rintro ⟨-, hminus, hpos⟩
            omega
          · intro hnone
            cases hnone
        · simp only [EpollLoop.Open, Function.update_of_ne hc']
          constructor
          · intro hopen'
            exact absurd (h.unique c' c _ hopen' hopen) hc'
          · intro hnone
            cases hnone
      · intro fd hne c'
        by_cases hc' : c' = c
        · simp only [EpollLoop.Open, hc', Function.update_self]
          constructor
          · rintro ⟨-, hminus, hpos⟩
            omega
          · rintro ⟨-, hsame, -⟩
            exact absurd hsame.symm hne
        · simp only [EpollLoop.Open, Function.update_of_ne hc']
      · intro fd hne c' hc'
        by_cases heq : c' = c
        · simp [heq]
        · simp only [Function.update_of_ne heq]
      · intro c' hc'
        by_cases heq : c' = c
        · simp [heq]
        · simp only [Function.update_of_ne heq]
          exact h.range c' hc'
  · -- Closed before: nothing happens a second time.
    refine ⟨s, ?_, rfl, rfl, rfl, ?_, h⟩
    · rw [EpollLoop.closeChannel, if_neg (by omega)]
    · rcases h.range c halive with hminus | hpos
      · exact hminus
      · exact absurd hpos hfd

/-- An object without a descriptor is deleted. -/
theorem forget (h : EpollInv s) {c : ChannelPtr} (hfd : (s.heap c).fd_ = -1) :
    EpollInv { s with alive := Function.update s.alive c false } := by
  apply h.keep
  · rfl
  · intro fd _
    rfl
  · intro c' fd
    by_cases hc' : c' = c
    · simp only [EpollLoop.Open, hc', Function.update_self, hfd]
      constructor
      · rintro ⟨hfalse, -⟩
        cases hfalse
      · rintro ⟨-, hminus, hpos⟩
        omega
    · simp only [EpollLoop.Open, Function.update_of_ne hc']
  · intro c' fd _
    rfl
  · intro c' halive
    by_cases hc' : c' = c
    · rw [hc']
      exact .inl hfd
    · simp only [Function.update_of_ne hc'] at halive
      exact h.range c' halive

theorem delete (h : EpollInv s) {c : ChannelPtr} (halive : s.alive c = true) :
    ∃ s', s.exec (.delete c) = .ok s' ∧ s'.events_ = s.events_ ∧ s'.missed = s.missed ∧
      EpollInv s' := by
  obtain ⟨s₁, hclose, hevents, hmissed, -, hfd, h₁⟩ := h.closeChannel_eq halive
  -- The destructor calls `Close` unless somebody has.
  by_cases hgone : (s.heap c).fd_ = -1
  · refine ⟨{ s with alive := Function.update s.alive c false }, ?_, rfl, rfl, h.forget hgone⟩
    rw [exec, if_neg (not_not.mpr hgone)]
    rfl
  · refine ⟨{ s₁ with alive := Function.update s₁.alive c false }, ?_, hevents, hmissed,
      h₁.forget hfd⟩
    rw [exec, if_pos hgone, bind_of_ok hclose]
    rfl

end EpollInv

/-! ## `Poll` -/

theorem setREvents_fd (heap : ChannelHeap) (c c' : ChannelPtr) (revents : BitVec 16) :
    (heap.setREvents c revents c').fd_ = (heap c').fd_ ∧
      (heap.setREvents c revents c').events_ = (heap c').events_ := by
  by_cases hc' : c' = c
  · simp [ChannelHeap.setREvents, hc']
  · simp [ChannelHeap.setREvents, Function.update_of_ne hc']

/-- The channels reported, with what the kernel says of them. -/
theorem fillActiveChannels_report {interest : Int → Option (BitVec 16 × ChannelPtr)}
    {report : List (Int × BitVec 16)} (hnodup : (report.map Prod.fst).Nodup)
    (hin : ∀ p ∈ report, interest p.1 ≠ none) (heap : ChannelHeap) (active : List ChannelPtr)
    (hown : ∀ fd ev c, interest fd = some (ev, c) → (heap c).fd_ = fd) :
    ∃ heap' cs, fillActiveChannels interest report heap active = .ok (heap', active ++ cs) ∧
      cs.map (fun c => ((heap' c).fd_, (heap' c).revents_)) = report ∧
      (∀ c ∈ cs, ∃ fd ev, interest fd = some (ev, c)) ∧
      (∀ c, (heap' c).fd_ = (heap c).fd_ ∧ (heap' c).events_ = (heap c).events_) ∧
      ∀ c, (heap c).fd_ ∉ report.map Prod.fst → heap' c = heap c := by
  induction report generalizing heap active with
  | nil =>
    refine ⟨heap, [], ?_, rfl, ?_, fun _ => ⟨rfl, rfl⟩, fun _ _ => rfl⟩
    · rw [List.append_nil]
      rfl
    · intro c hc
      cases hc
  | cons p rest ih =>
    obtain ⟨fd, revents⟩ := p
    rw [List.map_cons, List.nodup_cons] at hnodup
    obtain ⟨⟨ev, c⟩, hentry⟩ := Option.ne_none_iff_exists'.mp (hin (fd, revents) List.mem_cons_self)
    have hfd : (heap c).fd_ = fd := hown fd ev c hentry
    obtain ⟨heap', cs, hfill, hmap, hcs, hsame, hquiet⟩ := ih hnodup.2
      (fun q hq => hin q (List.mem_cons_of_mem _ hq)) (heap.setREvents c revents) (active ++ [c])
      (fun fd' ev' c' h' => by rw [(setREvents_fd heap c c' revents).1]; exact hown fd' ev' c' h')
    -- Its descriptor is reported once, so that its events stay as they are set here.
    have hhead : heap' c = heap.setREvents c revents c := by
      apply hquiet
      rw [(setREvents_fd heap c c revents).1, hfd]
      exact hnodup.1
    refine ⟨heap', c :: cs, ?_, ?_, ?_, ?_, ?_⟩
    · rw [fillActiveChannels, hentry]
      simp only
      rw [hfill, List.append_assoc, List.singleton_append]
    · rw [List.map_cons, hmap, hhead]
      simp [ChannelHeap.setREvents, hfd]
    · intro c' hc'
      rcases List.mem_cons.mp hc' with rfl | hrest
      · exact ⟨fd, ev, hentry⟩
      · exact hcs c' hrest
    · intro c'
      rw [(hsame c').1, (hsame c').2]
      exact setREvents_fd heap c c' revents
    · intro c' hc'
      have hne : c' ≠ c := by
        rintro rfl
        exact hc' (by rw [hfd]; exact List.mem_cons_self)
      rw [hquiet c']
      · simp [ChannelHeap.setREvents, Function.update_of_ne hne]
      · rw [(setREvents_fd heap c c' revents).1]
        exact fun hmem => hc' (List.mem_cons_of_mem _ hmem)

theorem EpollInv.poll {s : EpollLoop} (h : EpollInv s) {ready : List (Int × BitVec 16)}
    (hnodup : (ready.map Prod.fst).Nodup) (hin : ∀ p ∈ ready, s.poller.interest p.1 ≠ none) :
    ∃ s', s.poll ready = .ok s' ∧ EpollInv s' ∧
      s'.activeChannels_.map (fun c => ((s'.heap c).fd_, (s'.heap c).revents_)) =
        ready.take s.events_ ∧
      (∀ c ∈ s'.activeChannels_, s'.alive c = true) ∧
      s'.events_ = (if (ready.take s.events_).length = s.events_ then s.events_ * 2
        else s.events_) ∧
      s'.missed = s.missed + if s.events_ < ready.length then 1 else 0 := by
  have hnodup' : ((ready.take s.events_).map Prod.fst).Nodup := by
    rw [List.map_take]
    exact hnodup.sublist (List.take_sublist _ _)
  obtain ⟨heap', cs, hfill, hmap, hcs, hsame, -⟩ := fillActiveChannels_report hnodup'
    (fun p hp => hin p (List.mem_of_mem_take hp)) s.heap []
    (fun fd ev c hentry => ((h.interest fd ev c).mp hentry).1.2.1)
  refine ⟨{ s with
    heap := heap'
    activeChannels_ := cs
    events_ := if (ready.take s.events_).length = s.events_ then s.events_ * 2 else s.events_
    missed := s.missed + if s.events_ < ready.length then 1 else 0 }, ?_, ?_, hmap, ?_, rfl, rfl⟩
  · rw [EpollLoop.poll, bind_of_ok hfill]
    rfl
  · apply h.keep
    · rfl
    · intro fd _
      rfl
    · intro c fd
      simp only [EpollLoop.Open, (hsame c).1]
    · intro c fd _
      exact (hsame c).2
    · intro c halive
      show (heap' c).fd_ = -1 ∨ 0 ≤ (heap' c).fd_
      rw [(hsame c).1]
      exact h.range c halive
  · intro c hc
    obtain ⟨fd, ev, hentry⟩ := hcs c hc
    exact ((h.interest fd ev c).mp hentry).1.1

/-! ## Runs -/

/-- `events_` has doubled at least as many times as it was too small, and never was too small
    once it had room for `n` events. -/
structure RoomInv (n : Nat) (s : EpollLoop) : Prop where
  size : ∃ j, s.events_ = kInitEventListSize * 2 ^ j ∧ s.missed ≤ j
  bound : s.missed = 0 ∨ kInitEventListSize * 2 ^ (s.missed - 1) < n

theorem RoomInv.congr {n : Nat} {s s' : EpollLoop} (h : RoomInv n s)
    (hevents : s'.events_ = s.events_) (hmissed : s'.missed = s.missed) : RoomInv n s' := by
  refine ⟨?_, ?_⟩
  · rw [hevents, hmissed]
    exact h.size
  · rw [hmissed]
    exact h.bound

theorem RoomInv.poll {n : Nat} {s s' : EpollLoop} (h : RoomInv n s)
    {ready : List (Int × BitVec 16)} (hready : ready.length ≤ n)
    (hevents : s'.events_ = if (ready.take s.events_).length = s.events_ then s.events_ * 2
      else s.events_)
    (hmissed : s'.missed = s.missed + if s.events_ < ready.length then 1 else 0) :
    RoomInv n s' := by
  obtain ⟨j, hsize, hle⟩ := h.size
  by_cases hmiss : s.events_ < ready.length
  · have hfull : (ready.take s.events_).length = s.events_ := by
      rw [List.length_take]
      omega
    rw [if_pos hfull] at hevents
    rw [if_pos hmiss] at hmissed
    refine ⟨⟨j + 1, ?_, by omega⟩, .inr ?_⟩
    · rw [hevents, hsize, pow_succ, Nat.mul_assoc]
    · -- The size has been doubled for every event missed before.
      have hpow : kInitEventListSize * 2 ^ s.missed ≤ kInitEventListSize * 2 ^ j :=
        Nat.mul_le_mul_left _ (Nat.pow_le_pow_right (by omega) hle)
      rw [hmissed, Nat.add_sub_cancel]
      omega
  · rw [if_neg hmiss, Nat.add_zero] at hmissed
    refine ⟨?_, ?_⟩
    · split at hevents
      · refine ⟨j + 1, ?_, by omega⟩
        rw [hevents, hsize, pow_succ, Nat.mul_assoc]
      · refine ⟨j, hevents.trans hsize, by omega⟩
    · rw [hmissed]
      exact h.bound

theorem EpollInv.exec {n : Nat} {s : EpollLoop} (h : EpollInv s) (hroom : RoomInv n s)
    {op : EpollOp} (hallowed : s.AllowedUpTo n op) :
    ∃ s', s.exec op = .ok s' ∧ EpollInv s' ∧ RoomInv n s' := by
  obtain ⟨hop, hn⟩ := hallowed
  cases op with
  | add c ch =>
    obtain ⟨s', hok, hevents, hmissed, h'⟩ : ∃ s', s.exec (.add c ch) = .ok s' ∧
        s'.events_ = s.events_ ∧ s'.missed = s.missed ∧ EpollInv s' := by
      obtain ⟨hdead, hfd | ⟨hfd, hfree⟩⟩ := hop
      · exact h.add_negative hdead hfd
      · exact h.add hdead hfd hfree
    exact ⟨s', hok, h', hroom.congr hevents hmissed⟩
  | update c events =>
    obtain ⟨s', hok, hevents, hmissed, h'⟩ := h.update events hop
    exact ⟨s', hok, h', hroom.congr hevents hmissed⟩
  | close c =>
    obtain ⟨s', hok, hevents, hmissed, -, -, h'⟩ := h.closeChannel_eq hop
    exact ⟨s', hok, h', hroom.congr hevents hmissed⟩
  | delete c =>
    obtain ⟨s', hok, hevents, hmissed, h'⟩ := h.delete hop
    exact ⟨s', hok, h', hroom.congr hevents hmissed⟩
  | poll ready =>
    obtain ⟨s', hok, h', -, -, hevents, hmissed⟩ := h.poll hop.1 hop.2
    exact ⟨s', hok, h', hroom.poll (hn ready rfl) hevents hmissed⟩

/-- **Events of an epoll set**: in every run no assertion fails; the interest list has
    exactly the channels that are open, with their current events, so that the next `Poll`
    returns channels that exist, each with the events of its own descriptor, and all of the
    ready ones that fit.  They fit but for a logarithmic number of times: if never more than
    `n` descriptors are ready, `events_` is too small at most `m` times, `16 * 2 ^ (m - 1) < n`. -/
theorem epoll_reports_open (heap : ChannelHeap) (ops : List EpollOp) (n : Nat)
    (hops : ∀ k (hk : k < ops.length) s,
      LTS.run EpollLoop.exec (create heap) (ops.take k) = .ok s →
      s.AllowedUpTo n ops[k]) :
    ∃ s, LTS.run EpollLoop.exec (create heap) ops = .ok s ∧
      (∀ fd ev c, s.poller.interest fd = some (ev, c) ↔
        s.Open c fd ∧ (s.heap c).events_ = ev) ∧
      (∀ ready, s.Allowed (.poll ready) → ∃ s', s.exec (.poll ready) = .ok s' ∧
        s'.activeChannels_.map (fun c => ((s'.heap c).fd_, (s'.heap c).revents_)) =
          ready.take s.events_ ∧
        ∀ c ∈ s'.activeChannels_, s'.alive c = true) ∧
      (s.missed = 0 ∨ kInitEventListSize * 2 ^ (s.missed - 1) < n) := by
  have hfirst : EpollInv (create heap) ∧ RoomInv n (create heap) :=
    ⟨.initial heap, ⟨⟨0, rfl, Nat.le_refl 0⟩, .inl rfl⟩⟩
  have hstep : ∀ (s : EpollLoop) (op : EpollOp), EpollInv s ∧ RoomInv n s →
      s.AllowedUpTo n op → ∃ s', s.exec op = .ok s' ∧ EpollInv s' ∧ RoomInv n s' := by
    intro s op h hop
    exact h.1.exec h.2 hop
  obtain ⟨s, hrun, h, hroom⟩ := LTS.run_safe hstep ops (create heap) hfirst hops
  refine ⟨s, hrun, h.interest, ?_, hroom.bound⟩
  intro ready hready
  obtain ⟨s', hok, -, hmap, halive, -, -⟩ := h.poll hready.1 hready.2
  exact ⟨s', hok, hmap, halive⟩

/-- A channel from its first to its last event, which is enabled after `Close`. -/
theorem epoll_reports_open_channel :
    ∃ s, LTS.run EpollLoop.exec (create fun _ => idleChannel)
        [.add 1 idleChannel, .update 1 POLLIN, .poll [(5, POLLIN)], .close 1, .update 1 POLLOUT,
          .delete 1] = .ok s ∧
      (∀ fd ev c, s.poller.interest fd = some (ev, c) ↔
        s.Open c fd ∧ (s.heap c).events_ = ev) ∧ s.missed = 0 := by
  obtain ⟨s, hrun, hinterest, -, hmissed⟩ := epoll_reports_open (fun _ => idleChannel)
    [.add 1 idleChannel, .update 1 POLLIN, .poll [(5, POLLIN)], .close 1, .update 1 POLLOUT,
      .delete 1] 1 (by
      refine LTS.run_meets_cons ⟨⟨rfl, .inr ⟨by decide, nofun⟩⟩, nofun⟩ (by exact rfl) ?_
      refine LTS.run_meets_cons ⟨rfl, nofun⟩ (by exact rfl) ?_
      refine LTS.run_meets_cons ⟨⟨by decide, ?_⟩, ?_⟩ (by exact rfl) ?_
      · intro p hp
        rw [List.mem_singleton.mp hp]
        exact Option.some_ne_none (POLLIN, 1)
      · intro ready hready
        cases hready
        decide
      · refine LTS.run_meets_cons ⟨rfl, nofun⟩ (by exact rfl) ?_
        refine LTS.run_meets_cons ⟨rfl, nofun⟩ (by exact rfl) ?_
        refine LTS.run_meets_cons ⟨rfl, nofun⟩ (by exact rfl) ?_
        intro k hk
        cases hk)
  refine ⟨s, hrun, hinterest, ?_⟩
  rcases hmissed with hzero | hmany
  · exact hzero
  · have : 0 < 2 ^ (s.missed - 1) := Nat.two_pow_pos _
    simp only [kInitEventListSize] at hmany
    omega

end JNet
