import JNet.Net.Descriptors

/-! # Descriptors with one owner

    As long as no `Socket`, no timer queue and no event loop is destroyed, each
    descriptor is held by one object that will close it: an `Attach` that is to
    run, then the channel; or the poller, for its own descriptor.
-/

namespace JNet

open Handles

/-- The pollers have the channels that are open. -/
structure ChannelInv (s : Process) : Prop where
  registered : ∀ id ch, s.channel id = some ch → id < s.ids ∧
    (ch.fd_ = -1 ∨ (0 ≤ ch.fd_ ∧ s.channels_ (ch.loop_, ch.fd_) = some id))
  entry : ∀ k fd id, s.channels_ (k, fd) = some id → s.removed.count id = 0 ∧ 0 ≤ fd ∧
    ∃ ch, s.channel id = some ch ∧ ch.loop_ = k ∧ ch.fd_ = fd
  once : ∀ id < s.ids, s.removed.count id = 1 ∨ ∃ key, s.channels_ key = some id
  old : ∀ id ∈ s.removed, id < s.ids

/-- What holds as long as every descriptor has one owner. -/
structure ProcessInv (s : Process) : Prop where
  ledger : Ledger s.table s.Holds
  channels : ChannelInv s
  conns : ∀ i c, s.conn i = some c → (c.socket_ = none → c.channel_ = none) ∧
    (c.attaching ≠ none → c.socket_ ≠ none ∧ c.channel_ = none) ∧
    ∀ k d, c.pending = some (k, d) → 0 ≤ d.num
  loops : ∀ k l, s.loop k = some l → l.destructing = false
  timerQueues : ∀ q t, s.timerQueue q = some t → t.destructing = false
  running : s.aborted = false

theorem ProcessInv.ok {s : Process} (h : ProcessInv s) : DescriptorsOk s := by
  refine ⟨h.ledger.own, h.ledger.once, ?_, h.running⟩
  intro id hid
  obtain hone | ⟨⟨k, fd⟩, hkey⟩ := h.channels.once id hid
  · exact .inl hone
  · exact .inr ⟨(h.channels.entry k fd id hkey).1, _, hkey⟩

/-! ### What a change of one object changes -/

namespace Process

variable (s s' : Process) {x : DescriptorHolder} {d : Descriptor}

theorem holds_channel {id : Nat} {new : Option ChannelObject}
    (hchannel : s'.channel = Function.update s.channel id new) (hconn : s'.conn = s.conn)
    (hloop : s'.loop = s.loop) : s'.Holds x d ↔ (x ≠ .channel id ∧ s.Holds x d) ∨
      (x = .channel id ∧ ∃ ch, new = some ch ∧ 0 ≤ ch.fd_ ∧ ch.descriptor = d) := by
  cases x with
  | attach i => simp [Holds, hconn]
  | poller k => simp [Holds, hloop]
  | channel j =>
    by_cases hj : j = id
    · subst hj
      simp [Holds, hchannel]
    · simp [Holds, hchannel, hj]

theorem holds_conn {i : Nat} {new : Option TcpConnObject} (hchannel : s'.channel = s.channel)
    (hconn : s'.conn = Function.update s.conn i new) (hloop : s'.loop = s.loop) :
    s'.Holds x d ↔ (x ≠ .attach i ∧ s.Holds x d) ∨
      (x = .attach i ∧ ∃ c k, new = some c ∧ c.pending = some (k, d)) := by
  cases x with
  | channel id => simp [Holds, hchannel]
  | poller k => simp [Holds, hloop]
  | attach j =>
    by_cases hj : j = i
    · subst hj
      simp [Holds, hconn]
    · simp [Holds, hconn, hj]

theorem holds_loop {k : Nat} {new : Option EventLoopObject} (hchannel : s'.channel = s.channel)
    (hconn : s'.conn = s.conn) (hloop : s'.loop = Function.update s.loop k new) :
    s'.Holds x d ↔ (x ≠ .poller k ∧ s.Holds x d) ∨
      (x = .poller k ∧ ∃ l, new = some l ∧ l.epollfd_ = d) := by
  cases x with
  | channel id => simp [Holds, hchannel]
  | attach i => simp [Holds, hconn]
  | poller j =>
    by_cases hj : j = k
    · subst hj
      simp [Holds, hloop]
    · simp [Holds, hloop, hj]

end Process

namespace ChannelInv

variable {s : Process} {id : Nat} {ch : ChannelObject}

theorem congr (h : ChannelInv s) {s' : Process} (hchannel : s'.channel = s.channel)
    (hids : s'.ids = s.ids) (hkeys : s'.channels_ = s.channels_)
    (hremoved : s'.removed = s.removed) : ChannelInv s' := by
  constructor
  · rw [hchannel, hids, hkeys]
    exact h.registered
  · rw [hkeys, hremoved, hchannel]
    exact h.entry
  · rw [hids, hremoved, hkeys]
    exact h.once
  · rw [hids, hremoved]
    exact h.old

/-- A channel that was not there. -/
theorem fresh (h : ChannelInv s) : s.channel s.ids = none := by
  cases hch : s.channel s.ids with
  | none => rfl
  | some ch => exact absurd (h.registered _ _ hch).1 (Nat.lt_irrefl _)

theorem addChannel (h : ChannelInv s) {k : Nat} {d : Descriptor} (hfd : 0 ≤ d.num)
    (hfree : s.channels_ (k, d.num) = none) : ChannelInv (s.addChannel k d) := by
  have hremoved : s.removed.count s.ids = 0 := by
    refine List.count_eq_zero.mpr fun hmem => ?_
    exact Nat.lt_irrefl _ (h.old _ hmem)
  constructor
  · intro id ch hch
    obtain ⟨rfl, hat⟩ | ⟨-, hat⟩ := Memory.update_eq_some hch
    · cases hat
      exact ⟨Nat.lt_succ_self _, .inr ⟨hfd, Function.update_self _ _ _⟩⟩
    · obtain ⟨hlt, hreg⟩ := h.registered id ch hat
      refine ⟨Nat.lt_succ_of_lt hlt, hreg.imp_right fun ⟨hpos, hkey⟩ => ⟨hpos, ?_⟩⟩
      have hne : (ch.loop_, ch.fd_) ≠ (k, d.num) := by
        intro heq
        rw [heq, hfree] at hkey
        cases hkey
      exact (Function.update_of_ne hne _ _).trans hkey
  · intro k' fd id hkey
    obtain ⟨hne, hkey⟩ | ⟨-, hkey⟩ := Memory.update_eq_some hkey
    · cases hkey
      cases hne
      exact ⟨hremoved, hfd, _, Function.update_self _ _ _, rfl, rfl⟩
    · obtain ⟨hcount, hpos, ch, hch, hrest⟩ := h.entry k' fd id hkey
      have hid : id ≠ s.ids := Nat.ne_of_lt (h.registered id ch hch).1
      exact ⟨hcount, hpos, ch, (Function.update_of_ne hid _ _).trans hch, hrest⟩
  · intro id hid
    by_cases hnew : id = s.ids
    · subst hnew
      exact .inr ⟨(k, d.num), Function.update_self _ _ _⟩
    · refine (h.once id (Nat.lt_of_le_of_ne (Nat.lt_succ_iff.mp hid) hnew)).imp_right ?_
      intro ⟨key, hkey⟩
      have hne : key ≠ (k, d.num) := by
        intro heq
        rw [heq, hfree] at hkey
        cases hkey
      exact ⟨key, (Function.update_of_ne hne _ _).trans hkey⟩
  · intro id hid
    exact Nat.lt_succ_of_lt (h.old id hid)

/-- An open channel is closed and leaves its poller. -/
theorem retire (h : ChannelInv s) {s' : Process} {new : Option ChannelObject}
    (hch : s.channel id = some ch) (hfd : 0 ≤ ch.fd_)
    (hnew : new = none ∨ new = some { ch with fd_ := -1 })
    (hchannel : s'.channel = Function.update s.channel id new) (hids : s'.ids = s.ids)
    (hkeys : s'.channels_ = Function.update s.channels_ (ch.loop_, ch.fd_) none)
    (hremoved : s'.removed = s.removed ++ [id]) : ChannelInv s' := by
  have hkey : s.channels_ (ch.loop_, ch.fd_) = some id := by
    obtain hneg | ⟨-, hkey⟩ := (h.registered id ch hch).2
    · omega
    · exact hkey
  have hcount : s.removed.count id = 0 := (h.entry _ _ _ hkey).1
  constructor
  · intro j ch' hj
    rw [hchannel] at hj
    rw [hids, hkeys]
    by_cases hji : j = id
    · subst hji
      rw [Function.update_self] at hj
      refine ⟨(h.registered j ch hch).1, .inl ?_⟩
      obtain hnone | hsome := hnew
      · rw [hnone] at hj
        cases hj
      · rw [hsome] at hj
        cases hj
        rfl
    · rw [Function.update_of_ne hji] at hj
      obtain ⟨hlt, hreg⟩ := h.registered j ch' hj
      refine ⟨hlt, hreg.imp_right fun ⟨hpos, hkey'⟩ => ⟨hpos, ?_⟩⟩
      have hne : (ch'.loop_, ch'.fd_) ≠ (ch.loop_, ch.fd_) := by
        intro heq
        rw [heq, hkey] at hkey'
        exact hji (Option.some.inj hkey').symm
      rwa [Function.update_of_ne hne]
  · intro k fd j hj
    rw [hkeys] at hj
    by_cases hne : (k, fd) = (ch.loop_, ch.fd_)
    · rw [hne, Function.update_self] at hj
      cases hj
    · rw [Function.update_of_ne hne] at hj
      obtain ⟨hcount', hpos, ch', hch', hloop, hfd'⟩ := h.entry k fd j hj
      have hji : j ≠ id := by
        intro heq
        subst heq
        rw [hch] at hch'
        cases hch'
        exact hne (by rw [hloop, hfd'])
      refine ⟨?_, hpos, ch', ?_, hloop, hfd'⟩
      · rw [hremoved, List.count_append, hcount', List.count_singleton]
        simp [Ne.symm hji]
      · rw [hchannel, Function.update_of_ne hji, hch']
  · intro j hj
    rw [hids] at hj
    rw [hremoved, hkeys, List.count_append, List.count_singleton]
    by_cases hji : j = id
    · subst hji
      left
      simp [hcount]
    · obtain hone | ⟨key, hkey'⟩ := h.once j hj
      · left
        simp [hone, Ne.symm hji]
      · refine .inr ⟨key, ?_⟩
        rw [Function.update_of_ne, hkey']
        intro heq
        rw [heq, hkey] at hkey'
        exact hji (Option.some.inj hkey').symm
  · intro j hj
    rw [hids]
    rw [hremoved] at hj
    obtain hj | hj := List.mem_append.mp hj
    · exact h.old j hj
    · rw [List.mem_singleton.mp hj]
      exact (h.registered id ch hch).1

/-- A channel that is closed already is destroyed. -/
theorem drop (h : ChannelInv s) {s' : Process} (hch : s.channel id = some ch) (hfd : ch.fd_ = -1)
    (hchannel : s'.channel = Function.update s.channel id none) (hids : s'.ids = s.ids)
    (hkeys : s'.channels_ = s.channels_) (hremoved : s'.removed = s.removed) : ChannelInv s' := by
  refine ⟨?_, ?_, ?_, ?_⟩
  · intro j ch' hj
    rw [hchannel] at hj
    rw [hids, hkeys]
    by_cases hji : j = id
    · rw [hji, Function.update_self] at hj
      cases hj
    · rw [Function.update_of_ne hji] at hj
      exact h.registered j ch' hj
  · intro k fd j hj
    rw [hkeys] at hj
    rw [hremoved, hchannel]
    obtain ⟨hcount, hpos, ch', hch', hloop, hfd'⟩ := h.entry k fd j hj
    have hji : j ≠ id := by
      intro heq
      subst heq
      rw [hch] at hch'
      cases hch'
      omega
    exact ⟨hcount, hpos, ch', by rw [Function.update_of_ne hji, hch'], hloop, hfd'⟩
  · rw [hids, hremoved, hkeys]
    exact h.once
  · rw [hids, hremoved]
    exact h.old

end ChannelInv

namespace Process

/-- The state after an open channel has been closed and removed, with `new` in its place. -/
def retired (s : Process) (id : Nat) (ch : ChannelObject) (new : Option ChannelObject) : Process :=
  { s with
    table := s.table.close ch.descriptor
    channels_ := Function.update s.channels_ (ch.loop_, ch.fd_) none
    removed := s.removed ++ [id]
    channel := Function.update s.channel id new }

variable {s : Process} {id : Nat} {ch : ChannelObject}

theorem closeChannel_registered (hch : s.channel id = some ch) (hfd : 0 ≤ ch.fd_)
    (hkey : s.channels_ (ch.loop_, ch.fd_) = some id) (hrun : s.aborted = false) :
    s.closeChannel id = s.retired id ch (some { ch with fd_ := -1 }) := by
  have hremove : (s.close ch.descriptor).removeChannel ch.loop_ ch.fd_ id =
      { s.close ch.descriptor with
        channels_ := Function.update s.channels_ (ch.loop_, ch.fd_) none
        removed := s.removed ++ [id] } := if_pos hkey
  unfold closeChannel
  simp only [hch]
  rw [if_pos hfd, hremove]
  unfold andThen
  rw [if_neg (by simp [close, hrun])]
  rfl

theorem deleteChannel_registered (hch : s.channel id = some ch) (hfd : 0 ≤ ch.fd_)
    (hkey : s.channels_ (ch.loop_, ch.fd_) = some id) (hrun : s.aborted = false) :
    s.deleteChannel id = s.retired id ch none := by
  unfold deleteChannel
  simp only [hch]
  rw [if_pos (by omega), closeChannel_registered hch hfd hkey hrun]
  unfold andThen
  rw [if_neg (by simp [retired, hrun])]
  simp [retired]

/-- Closing a channel is nothing to the objects that own channels. -/
theorem closeChannel_frame (s : Process) (id : Nat) :
    (s.closeChannel id).conn = s.conn ∧ (s.closeChannel id).loop = s.loop ∧
      (s.closeChannel id).timerQueue = s.timerQueue ∧
      (s.closeChannel id).destructed = s.destructed := by
  unfold closeChannel andThen removeChannel
  split
  · simp
  · split
    · split
      · split <;> simp [close]
      · simp [close]
    · simp

theorem deleteChannel_frame (s : Process) (id : Nat) :
    (s.deleteChannel id).conn = s.conn ∧ (s.deleteChannel id).loop = s.loop ∧
      (s.deleteChannel id).timerQueue = s.timerQueue ∧
      (s.deleteChannel id).destructed = s.destructed := by
  have hclose := closeChannel_frame s id
  unfold deleteChannel andThen
  split
  · simp
  · split
    · split
      · exact hclose
      · exact hclose
    · split
      · simp
      · simp

theorem closeChannel_closed (hch : s.channel id = some ch) (hfd : ch.fd_ = -1) :
    s.closeChannel id = s := by
  unfold closeChannel
  simp only [hch]
  exact if_neg (by omega)

theorem deleteChannel_closed (hch : s.channel id = some ch) (hfd : ch.fd_ = -1)
    (hrun : s.aborted = false) :
    s.deleteChannel id = { s with channel := Function.update s.channel id none } := by
  unfold deleteChannel andThen
  simp [hch, hfd, hrun]

end Process

namespace ProcessInv

variable {s : Process} {id k : Nat} {fd : Int}

/-- No poller has an entry for a number whose holder is not a channel. -/
theorem key_none (h : ProcessInv s)
    (hother : ∀ id d, s.Holds (.channel id) d → d.num ≠ fd) : s.channels_ (k, fd) = none := by
  cases hkey : s.channels_ (k, fd) with
  | none => rfl
  | some id =>
    obtain ⟨-, hpos, ch, hch, -, hfd⟩ := h.channels.entry k fd id hkey
    exact absurd hfd (hother id ch.descriptor ⟨ch, hch, hfd ▸ hpos, rfl⟩)

theorem newChannel (h : ProcessInv s) (k : Nat) (hfree : s.Free fd) :
    ProcessInv ((s.acquire fd).addChannel k (s.table.next fd)) := by
  have hkey : s.channels_ (k, fd) = none := by
    refine h.key_none fun id d hd hnum => ?_
    have hopen := h.ledger.isOpen hd
    unfold Table.Open at hopen
    rw [hnum, hfree.2] at hopen
    cases hopen
  have hchannels : ChannelInv (s.acquire fd) :=
    h.channels.congr rfl rfl rfl rfl
  have hadd : ChannelInv ((s.acquire fd).addChannel k (s.table.next fd)) :=
    hchannels.addChannel hfree.1 hkey
  refine ⟨?_, hadd, h.conns, h.loops, h.timerQueues, h.running⟩
  refine h.ledger.acquire (x := .channel s.ids) hfree.2 ?_
  intro y d
  rw [Process.holds_channel s ((s.acquire fd).addChannel k (s.table.next fd)) rfl rfl rfl]
  have hnone : ¬ s.Holds (.channel s.ids) d := by
    intro ⟨ch, hch, _⟩
    rw [h.channels.fresh] at hch
    cases hch
  have hnew : (∃ ch, some (⟨k, fd, s.table.fresh⟩ : ChannelObject) = some ch ∧ 0 ≤ ch.fd_ ∧
      ch.descriptor = d) ↔ d = s.table.next fd := by
    simp [ChannelObject.descriptor, Table.next, hfree.1, eq_comm]
  constructor
  · intro hd
    obtain ⟨-, hd⟩ | ⟨hy, hd⟩ := hd
    · exact .inl hd
    · exact .inr ⟨hy, hnew.mp hd⟩
  · intro hd
    obtain hd | ⟨hy, hd⟩ := hd
    · refine .inl ⟨?_, hd⟩
      intro hy
      exact hnone (hy ▸ hd)
    · exact .inr ⟨hy, hnew.mpr hd⟩

theorem retired (h : ProcessInv s) {ch : ChannelObject} (hch : s.channel id = some ch)
    (hfd : 0 ≤ ch.fd_) {new : Option ChannelObject}
    (hnew : new = none ∨ new = some { ch with fd_ := -1 }) : ProcessInv (s.retired id ch new) := by
  refine ⟨?_, h.channels.retire hch hfd hnew rfl rfl rfl rfl, h.conns, h.loops, h.timerQueues,
    h.running⟩
  refine h.ledger.close (x := .channel id) (h := ch.descriptor) ?_ ?_
  · intro d
    simp [Process.Holds, hch, hfd, eq_comm]
  · intro y d
    rw [Process.holds_channel s (s.retired id ch new) rfl rfl rfl]
    obtain hnone | hsome := hnew
    · simp [hnone]
    · simp [hsome]

theorem closeChannel (h : ProcessInv s) (id : Nat) : ProcessInv (s.closeChannel id) := by
  cases hch : s.channel id with
  | none =>
    rw [show s.closeChannel id = s by unfold Process.closeChannel; simp only [hch]]
    exact h
  | some ch =>
    obtain hfd | ⟨hfd, hkey⟩ := (h.channels.registered id ch hch).2
    · rw [Process.closeChannel_closed hch hfd]
      exact h
    · rw [Process.closeChannel_registered hch hfd hkey h.running]
      exact h.retired hch hfd (.inr rfl)

theorem deleteChannel (h : ProcessInv s) (id : Nat) : ProcessInv (s.deleteChannel id) := by
  cases hch : s.channel id with
  | none =>
    rw [show s.deleteChannel id = s by unfold Process.deleteChannel; simp only [hch]]
    exact h
  | some ch =>
    obtain hfd | ⟨hfd, hkey⟩ := (h.channels.registered id ch hch).2
    · rw [Process.deleteChannel_closed hch hfd h.running]
      refine ⟨?_, h.channels.drop hch hfd rfl rfl rfl rfl, h.conns, h.loops, h.timerQueues,
        h.running⟩
      refine h.ledger.congr fun y d => ?_
      rw [Process.holds_channel s { s with channel := Function.update s.channel id none }
        rfl rfl rfl]
      have hnone : ¬ s.Holds (.channel id) d := by
        simp [Process.Holds, hch, hfd]
      by_cases hy : y = .channel id
      · subst hy
        simp [hnone]
      · simp [hy]
    · rw [Process.deleteChannel_registered hch hfd hkey h.running]
      exact h.retired hch hfd (.inl rfl)

/-- A connection changes, and what is pending for it does not. -/
theorem setConn (h : ProcessInv s) {i : Nat} {new : Option TcpConnObject}
    (hpending : ∀ d, (∃ c k, new = some c ∧ c.pending = some (k, d)) ↔ s.Holds (.attach i) d)
    (hnew : ∀ c, new = some c → (c.socket_ = none → c.channel_ = none) ∧
      (c.attaching ≠ none → c.socket_ ≠ none ∧ c.channel_ = none)) :
    ProcessInv { s with conn := Function.update s.conn i new } := by
  refine ⟨?_, h.channels.congr rfl rfl rfl rfl, ?_,
    h.loops, h.timerQueues, h.running⟩
  · refine h.ledger.congr fun y d => ?_
    rw [Process.holds_conn s { s with conn := Function.update s.conn i new } rfl rfl rfl, hpending]
    by_cases hy : y = .attach i
    · subst hy
      simp
    · simp [hy]
  · intro j c hc
    obtain ⟨rfl, hat⟩ | ⟨-, hat⟩ := Memory.update_eq_some hc
    · refine ⟨(hnew c hat).1, (hnew c hat).2, ?_⟩
      intro k d hd
      obtain ⟨c', k', hc', hd'⟩ := (hpending d).mp ⟨c, k, hat, hd⟩
      exact (h.conns j c' hc').2.2 k' d hd'
    · exact h.conns j c hat

theorem openConn (h : ProcessInv s) {i : Nat} {c : TcpConnObject} (hc : s.conn i = some c)
    (hnone : c.pending = none) (hfree : s.Free fd) : ProcessInv (s.openConn i k fd c) := by
  refine ⟨?_, h.channels.congr rfl rfl rfl rfl, ?_,
    h.loops, h.timerQueues, h.running⟩
  · refine h.ledger.acquire (x := .attach i) hfree.2 ?_
    intro y d
    rw [Process.holds_conn s (s.openConn i k fd c) rfl rfl rfl]
    have hold : ¬ s.Holds (.attach i) d := by
      simp [Process.Holds, hc, hnone]
    by_cases hy : y = .attach i
    · subst hy
      simp [hold, eq_comm]
    · simp [hy]
  · intro j c' hc'
    obtain ⟨rfl, hat⟩ | ⟨-, hat⟩ := Memory.update_eq_some hc'
    · cases hat
      obtain ⟨hsocket, hattaching, -⟩ := h.conns j c hc
      refine ⟨hsocket, hattaching, ?_⟩
      intro k' d hd
      cases hd
      exact hfree.1
    · exact h.conns j c' hat

/-- The end of an `Attach` that replaces nothing: the descriptor goes to the channel. -/
theorem attached (h : ProcessInv s) {i : Nat} {d : Descriptor} {replaces : Bool}
    {c : TcpConnObject} (hc : s.conn i = some c) (hpending : c.pending = some (k, d))
    (hsocket : c.socket_ ≠ none) (hchannel : c.channel_ = none) :
    ProcessInv (s.attached i k d replaces c) := by
  have hfd : 0 ≤ d.num := (h.conns i c hc).2.2 k d hpending
  have hattach : ∀ e, s.Holds (.attach i) e ↔ e = d := by
    simp [Process.Holds, hc, hpending, eq_comm]
  -- A registered channel with this number would be a second holder of `d`.
  have hkey : s.channels_ (k, d.num) = none := by
    refine h.key_none fun id e he hnum => ?_
    have hsame := (h.ledger.unique he ((hattach d).mpr rfl) hnum).1
    cases hsame
  have heq : s.attached i k d replaces c =
      { s.addChannel k d with
        conn := Function.update s.conn i
          (some { c with pending := none, channel_ := some s.ids, attaching := none })
        destructed := if replaces then s.destructed ++ [.socket i] else s.destructed } := by
    unfold Process.attached Process.andThen Process.deleteOld
    simp [hchannel, h.running]
  have hadd := h.channels.addChannel hfd hkey
  rw [heq]
  refine ⟨?_, hadd.congr rfl rfl rfl rfl, ?_, h.loops, h.timerQueues,
    h.running⟩
  · refine h.ledger.move (x := .attach i) (y := .channel s.ids) hattach ?_
    intro y e
    have hnone : ¬ s.Holds (.channel s.ids) e := by
      simp [Process.Holds, h.channels.fresh]
    refine Iff.trans (Process.holds_conn (s.addChannel k d) _ rfl rfl rfl) ?_
    rw [Process.holds_channel s (s.addChannel k d) rfl rfl rfl]
    have hnew : (∃ ch, some (⟨k, d.num, d.gen⟩ : ChannelObject) = some ch ∧ 0 ≤ ch.fd_ ∧
        ch.descriptor = e) ↔ e = d := by
      constructor
      · intro ⟨ch, hch, _, he⟩
        cases hch
        exact he.symm
      · intro he
        exact ⟨_, rfl, hfd, he.symm⟩
    rw [hnew]
    by_cases hy : y = .channel s.ids
    · subst hy
      simp [hnone]
    · simp [hy]
  · intro j c' hc'
    obtain ⟨rfl, hat⟩ | ⟨-, hat⟩ := Memory.update_eq_some hc'
    · cases hat
      exact ⟨fun hnone => absurd hnone hsocket, by simp, by simp⟩
    · exact h.conns j c' hat

theorem cleanUp (h : ProcessInv s) {i : Nat} {c : TcpConnObject} (hc : s.conn i = some c)
    (hattaching : c.attaching = none) (hchannel : c.channel_ = some id) :
    ProcessInv (s.cleanUp i c) := by
  have hdel := h.deleteChannel id
  have hc' : (s.deleteChannel id).conn i = some c := by
    rw [(s.deleteChannel_frame id).1, hc]
  have heq : s.cleanUp i c = { s.deleteChannel id with
      conn := Function.update (s.deleteChannel id).conn i (some { c with channel_ := none }) } := by
    unfold Process.cleanUp Process.andThen Process.deleteOld
    simp only [hchannel]
    exact if_neg (by simp [hdel.running])
  rw [heq]
  refine hdel.setConn ?_ ?_
  · intro d
    simp [Process.Holds, hc']
  · intro c' hat
    cases hat
    exact ⟨fun _ => rfl, by simp [hattaching]⟩

theorem newLoop (h : ProcessInv s) {epollfd timerfd evtfd : Int} (hloop : s.loop k = none)
    (hepoll : s.Free epollfd) (htimer : s.Free timerfd) (hevt : s.Free evtfd)
    (hne : epollfd ≠ timerfd ∧ epollfd ≠ evtfd ∧ timerfd ≠ evtfd) :
    ProcessInv (s.newLoop k epollfd timerfd evtfd) := by
  obtain ⟨hne₁, hne₂, hne₃⟩ := hne
  -- The poller, with the object that is to hold it; then the two channels.
  have hpoller : ProcessInv { s.acquire epollfd with
      loop := Function.update s.loop k (some ⟨s.table.next epollfd,
        ⟨⟨timerfd, s.table.fresh + 1⟩, s.ids, false⟩, ⟨evtfd, s.table.fresh + 2⟩, s.ids + 1,
        false⟩) } := by
    refine ⟨?_, h.channels.congr rfl rfl rfl rfl,
      h.conns, ?_, h.timerQueues, h.running⟩
    · refine h.ledger.acquire (x := .poller k) hepoll.2 ?_
      intro y e
      refine Iff.trans (Process.holds_loop s _ rfl rfl rfl) ?_
      have hnone : ¬ s.Holds (.poller k) e := by
        simp [Process.Holds, hloop]
      by_cases hy : y = .poller k
      · subst hy
        simp [hnone, eq_comm]
      · simp [hy]
    · intro j l hl
      obtain ⟨-, hat⟩ | ⟨-, hat⟩ := Memory.update_eq_some hl
      · cases hat
        rfl
      · exact h.loops j l hat
  have htimer' := hpoller.newChannel k
    (⟨htimer.1, (Function.update_of_ne hne₁.symm _ _).trans htimer.2⟩ : Process.Free _ timerfd)
  refine htimer'.newChannel k ⟨hevt.1, ?_⟩
  exact (Function.update_of_ne hne₃.symm _ _).trans
    ((Function.update_of_ne hne₂.symm _ _).trans hevt.2)

end ProcessInv

theorem processInv_initial (s : Process) (h : (processSystem.restrict OneOwner).init s) :
    ProcessInv s := by
  rw [show s = Process.empty from h]
  refine ⟨Ledger.empty ?_, ?_, ?_, ?_, ?_, rfl⟩
  · intro x d hx
    cases x <;> simp [Process.Holds, Process.empty] at hx
  · constructor <;> simp [Process.empty]
  all_goals simp [Process.empty]

theorem processInv_preserved (s : Process) (l : ProcessLabel) (s' : Process) (h : ProcessInv s)
    (hstep : (processSystem.restrict OneOwner).step s l s') : ProcessInv s' := by
  obtain ⟨howner, -, hstep⟩ := hstep
  cases l with
  | newLoop k epollfd timerfd evtfd =>
    obtain ⟨hloop, hepoll, htimer, hevt, hne₁, hne₂, hne₃, rfl⟩ := hstep
    exact h.newLoop hloop hepoll htimer hevt ⟨hne₁, hne₂, hne₃⟩
  | newTimerQueue q k fd =>
    obtain ⟨-, -, hfree, rfl⟩ := hstep
    have hnew := h.newChannel k hfree
    refine ⟨hnew.ledger, hnew.channels.congr rfl rfl rfl rfl, hnew.conns, hnew.loops, ?_,
      hnew.running⟩
    intro j t ht
    obtain ⟨-, hat⟩ | ⟨-, hat⟩ := Memory.update_eq_some ht
    · cases hat
      rfl
    · exact h.timerQueues j t hat
  | listen k fd =>
    obtain ⟨-, hfree, rfl⟩ := hstep
    have hnew := h.newChannel k hfree
    exact ⟨hnew.ledger, hnew.channels.congr rfl rfl rfl rfl, hnew.conns, hnew.loops,
      hnew.timerQueues, hnew.running⟩
  | closeListen id =>
    obtain ⟨-, -, rfl⟩ := hstep
    exact h.closeChannel id
  | deleteListen id =>
    obtain ⟨-, -, rfl⟩ := hstep
    have hdel := h.deleteChannel id
    exact ⟨hdel.ledger, hdel.channels.congr rfl rfl rfl rfl, hdel.conns, hdel.loops,
      hdel.timerQueues, hdel.running⟩
  | newConn i =>
    obtain ⟨hnone, rfl⟩ := hstep
    refine h.setConn ?_ ?_
    · intro d
      simp [Process.Holds, hnone]
    · intro c hc
      cases hc
      simp
  | openConn i k fd =>
    obtain ⟨c, hc, hpending, -, hfree, rfl⟩ := hstep
    exact h.openConn hc hpending hfree
  | attach i =>
    obtain ⟨c, k, d, hc, hpending, -, -, rfl⟩ := hstep
    -- By the condition it is the first `Attach` of the connection.
    have hsocket : c.socket_ = none := howner c hc
    have hchannel := (h.conns i c hc).1 hsocket
    unfold Process.attach
    simp only [hsocket]
    refine h.setConn ?_ ?_
    · intro e
      simp [Process.Holds, hc]
    · intro c' hc'
      cases hc'
      exact ⟨fun _ => hchannel, fun _ => ⟨by simp, hchannel⟩⟩
  | attached i =>
    obtain ⟨c, k, d, replaces, hc, hpending, hattaching, -, rfl⟩ := hstep
    obtain ⟨hsocket, hchannel⟩ := (h.conns i c hc).2.1 (by simp [hattaching])
    exact h.attached hc hpending hsocket hchannel
  | close i =>
    obtain ⟨c, id, -, -, -, -, rfl⟩ := hstep
    exact h.closeChannel id
  | cleanUp i =>
    obtain ⟨c, id, hc, hattaching, hchannel, -, rfl⟩ := hstep
    exact h.cleanUp hc hattaching hchannel
  | deleteConn i =>
    obtain ⟨c, hc, hpending, -, rfl⟩ := hstep
    unfold Process.deleteConn
    simp only [howner c hc]
    refine h.setConn ?_ ?_
    · intro d
      simp [Process.Holds, hc, hpending]
    · intro c' hc'
      cases hc'
  | destructTimerQueue q => exact howner.elim
  | deleteTimerQueue q =>
    obtain ⟨t, ht, hdestructing, -, -⟩ := hstep
    rw [h.timerQueues q t ht] at hdestructing
    cases hdestructing
  | destructLoop k => exact howner.elim
  | deleteLoop k =>
    obtain ⟨l, hl, hdestructing, -⟩ := hstep
    rw [h.loops k l hl] at hdestructing
    cases hdestructing

end JNet
