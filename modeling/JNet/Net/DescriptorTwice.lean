import JNet.Net.DescriptorOwners

/-! # Descriptors that are closed twice

    A `Socket`, a `TimerQueue` and an `EventLoop` close a number that their
    channel closes as well.  Whichever comes second finds the number free, or
    given to somebody else; nothing that happens later mends that.
-/

namespace JNet

open Handles

/-! ## What stays -/

namespace Process

variable {s s' s'' : Process} {d : Descriptor} {id : Nat}

/-- The number `d` is closed already, or channel `id` has it. -/
def Backed (s : Process) (d : Descriptor) : Option Nat → Prop
  | none => s.table.Stale d
  | some id => s.table.Stale d ∨
      (d.gen < s.table.fresh ∧ 0 ≤ d.num ∧ ∃ ch, s.channel id = some ch ∧ ch.descriptor = d)

/-- A number was closed twice already, or will be when channel `id` is destroyed. -/
def Doomed (s : Process) : Option Nat → Prop
  | none => s.table.Bad
  | some id => s.table.Bad ∨
      ∃ ch, s.channel id = some ch ∧ 0 ≤ ch.fd_ ∧ s.table.Stale ch.descriptor

/-- The channels are numbered in the order in which they are made. -/
def Numbered (s : Process) : Prop := ∀ id ch, s.channel id = some ch → id < s.ids

/-- What is over stays over, and an open channel stays as it is or is closed. -/
structure Later (s s' : Process) : Prop where
  numbered : s.Numbered → s'.Numbered
  bad : s.table.Bad → s'.table.Bad
  fresh : s.table.fresh ≤ s'.table.fresh
  stale : ∀ d, s.table.Stale d → s'.table.Stale d
  channel : ∀ id ch, s.channel id = some ch → 0 ≤ ch.fd_ → ch.gen < s.table.fresh →
    s'.channel id = some ch ∨ (s'.table.Stale ch.descriptor ∧
      (s.table.Stale ch.descriptor → s'.table.Bad))

/-- Only the owners of channels have changed. -/
theorem Later.of_eq (htable : s'.table = s.table) (hchannel : s'.channel = s.channel)
    (hids : s'.ids = s.ids) : Later s s' := by
  refine ⟨?_, ?_, ?_, ?_, ?_⟩
  · unfold Numbered
    rw [hchannel, hids]
    exact id
  · rw [htable]
    exact id
  · rw [htable]
  · rw [htable]
    exact fun _ => id
  · intro id ch hch _ _
    rw [hchannel]
    exact .inl hch

theorem Later.trans (h : Later s s') (h' : Later s' s'') : Later s s'' := by
  refine ⟨h'.numbered ∘ h.numbered, h'.bad ∘ h.bad, Nat.le_trans h.fresh h'.fresh,
    fun d => h'.stale d ∘ h.stale d, ?_⟩
  intro id ch hch hfd hgen
  obtain hsame | ⟨hstale, hbad⟩ := h.channel id ch hch hfd hgen
  · obtain hsame' | ⟨hstale', hbad'⟩ :=
      h'.channel id ch hsame hfd (Nat.lt_of_lt_of_le hgen h.fresh)
    · exact .inl hsame'
    · exact .inr ⟨hstale', fun hs => hbad' (h.stale _ hs)⟩
  · exact .inr ⟨h'.stale _ hstale, fun hs => h'.bad (hbad hs)⟩

theorem Later.backed (h : Later s s') {o : Option Nat} (hback : s.Backed d o) : s'.Backed d o := by
  cases o with
  | none => exact h.stale d hback
  | some id =>
    obtain hstale | ⟨hgen, hfd, ch, hch, rfl⟩ := hback
    · exact .inl (h.stale d hstale)
    · obtain hsame | ⟨hstale, -⟩ := h.channel id ch hch hfd hgen
      · exact .inr ⟨Nat.lt_of_lt_of_le hgen h.fresh, hfd, ch, hsame, rfl⟩
      · exact .inl hstale

theorem Later.doomed (h : Later s s') {o : Option Nat} (hdoom : s.Doomed o) : s'.Doomed o := by
  cases o with
  | none => exact h.bad hdoom
  | some id =>
    obtain hbad | ⟨ch, hch, hfd, hstale⟩ := hdoom
    · exact .inl (h.bad hbad)
    · obtain hsame | ⟨-, hbad⟩ := h.channel id ch hch hfd hstale.1
      · exact .inr ⟨ch, hsame, hfd, h.stale _ hstale⟩
      · exact .inl (hbad hstale)

/-! ### Steps -/

theorem later_acquire (s : Process) (fd : Int) : Later s (s.acquire fd) := by
  refine ⟨id, id, Nat.le_succ _, fun d hd => hd.acquire, ?_⟩
  intro id ch hch _ _
  exact .inl hch

theorem later_close (s : Process) (d : Descriptor) : Later s (s.close d) := by
  refine ⟨id, fun hbad => hbad.close, Nat.le_refl _, fun e he => he.close, ?_⟩
  intro id ch hch _ _
  exact .inl hch

theorem later_addChannel (hids : s.Numbered) (k : Nat) (d : Descriptor) :
    Later s (s.addChannel k d) := by
  refine ⟨?_, id, Nat.le_refl _, fun _ => id, ?_⟩
  · intro _ id ch hch
    obtain ⟨rfl, -⟩ | ⟨-, hat⟩ := Memory.update_eq_some hch
    · exact Nat.lt_succ_self _
    · exact Nat.lt_succ_of_lt (hids id ch hat)
  intro id ch hch _ _
  have hne : id ≠ s.ids := Nat.ne_of_lt (hids id ch hch)
  exact .inl ((Function.update_of_ne hne _ _).trans hch)

/-- After an abort nothing else has happened. -/
theorem andThen_cases {f : Process → Process} {P : Process → Prop} (habort : P s)
    (hnext : s.aborted = false → P (f s)) : P (s.andThen f) := by
  unfold andThen
  cases hrun : s.aborted with
  | true => exact habort
  | false => exact hnext hrun

theorem removeChannel_frame (s : Process) (k : Nat) (fd : Int) (id : Nat) :
    (s.removeChannel k fd id).table = s.table ∧ (s.removeChannel k fd id).channel = s.channel ∧
      (s.removeChannel k fd id).ids = s.ids := by
  unfold removeChannel
  split
  · exact ⟨rfl, rfl, rfl⟩
  · exact ⟨rfl, rfl, rfl⟩

theorem removeChannel_owners (s : Process) (k : Nat) (fd : Int) (id : Nat) :
    (s.removeChannel k fd id).conn = s.conn ∧ (s.removeChannel k fd id).loop = s.loop ∧
      (s.removeChannel k fd id).timerQueue = s.timerQueue ∧
      (s.removeChannel k fd id).destructed = s.destructed := by
  unfold removeChannel
  split
  · exact ⟨rfl, rfl, rfl, rfl⟩
  · exact ⟨rfl, rfl, rfl, rfl⟩

theorem later_removeChannel (s : Process) (k : Nat) (fd : Int) (id : Nat) :
    Later s (s.removeChannel k fd id) := by
  obtain ⟨htable, hchannel, hids⟩ := removeChannel_frame s k fd id
  exact .of_eq htable hchannel hids

variable {ch : ChannelObject}

/-- An open channel gives up its number. -/
theorem later_retire (hch : s.channel id = some ch) (new : Option ChannelObject)
    (htable : s'.table = s.table.close ch.descriptor)
    (hchannel : s'.channel = Function.update s.channel id new) (hids : s'.ids = s.ids) :
    Later s s' := by
  refine ⟨?_, ?_, ?_, ?_, ?_⟩
  · intro hnumbered j ch' hj
    rw [hchannel] at hj
    rw [hids]
    obtain ⟨rfl, -⟩ | ⟨-, hat⟩ := Memory.update_eq_some hj
    · exact hnumbered _ ch hch
    · exact hnumbered j ch' hat
  · rw [htable]
    exact fun hbad => hbad.close
  · rw [htable]
    exact Nat.le_refl _
  · rw [htable]
    exact fun d hd => hd.close
  · intro j ch' hj _ hgen
    rw [htable, hchannel]
    by_cases hji : j = id
    · subst hji
      rw [hch] at hj
      cases hj
      exact .inr ⟨Table.stale_close hgen, fun hstale => hstale.bad_close⟩
    · rw [Function.update_of_ne hji]
      exact .inl hj

/-- `Channel::Close` closes the number, and then the assert holds or not. -/
theorem closeChannel_open (hch : s.channel id = some ch) (hfd : 0 ≤ ch.fd_) :
    (s.closeChannel id).table = s.table.close ch.descriptor ∧ (s.closeChannel id).ids = s.ids ∧
      ((s.closeChannel id).aborted = true ∨
        (s.closeChannel id).channel = Function.update s.channel id (some { ch with fd_ := -1 })) := by
  unfold closeChannel andThen
  simp only [hch]
  rw [if_pos hfd]
  obtain ⟨htable, hchannel, hids⟩ :=
    removeChannel_frame (s.close ch.descriptor) ch.loop_ ch.fd_ id
  split
  · exact ⟨htable, hids, .inl ‹_›⟩
  · refine ⟨htable, hids, .inr ?_⟩
    simp only [hchannel]
    rfl

theorem later_closeChannel (s : Process) (id : Nat) : Later s (s.closeChannel id) := by
  unfold closeChannel andThen
  split
  · exact .of_eq rfl rfl rfl
  · rename_i ch hch
    split
    · have hlater := (later_close s ch.descriptor).trans
        (later_removeChannel (s.close ch.descriptor) ch.loop_ ch.fd_ id)
      split
      · exact hlater
      · obtain ⟨htable, hchannel, hids⟩ :=
          removeChannel_frame (s.close ch.descriptor) ch.loop_ ch.fd_ id
        refine later_retire hch (some { ch with fd_ := -1 }) htable ?_ hids
        simp only [hchannel]
        rfl
    · exact .of_eq rfl rfl rfl

/-- The end of an open channel: its number is closed once more. -/
theorem deleteChannel_open (hch : s.channel id = some ch) (hfd : 0 ≤ ch.fd_) :
    (s.deleteChannel id).table = s.table.close ch.descriptor := by
  unfold deleteChannel andThen
  simp only [hch]
  rw [if_pos (show ch.fd_ ≠ -1 by omega)]
  split
  · exact (closeChannel_open hch hfd).1
  · exact (closeChannel_open hch hfd).1

theorem later_deleteChannel (s : Process) (id : Nat) : Later s (s.deleteChannel id) := by
  cases hch : s.channel id with
  | none =>
    rw [show s.deleteChannel id = s by unfold deleteChannel; simp only [hch]]
    exact .of_eq rfl rfl rfl
  | some ch =>
    by_cases hfd : 0 ≤ ch.fd_
    · unfold deleteChannel andThen
      simp only [hch]
      rw [if_pos (show ch.fd_ ≠ -1 by omega)]
      split
      · exact later_closeChannel s id
      · rename_i hrun
        obtain ⟨htable, hids, haborted | hchannel⟩ := closeChannel_open hch hfd
        · exact absurd haborted hrun
        · refine later_retire hch none htable ?_ hids
          simp only [hchannel, Function.update_idem]
    · -- There is no number to give up.
      have hclose : s.closeChannel id = s := by
        unfold closeChannel
        simp only [hch]
        exact if_neg hfd
      unfold deleteChannel andThen
      simp only [hch, hclose, ite_self]
      split
      · exact .of_eq rfl rfl rfl
      · refine ⟨?_, fun hbad => hbad, Nat.le_refl _, fun _ hd => hd, ?_⟩
        · intro hnumbered j ch' hj
          obtain ⟨-, hat⟩ | ⟨-, hat⟩ := Memory.update_eq_some hj
          · cases hat
          · exact hnumbered j ch' hat
        intro j ch' hj hfd' _
        have hji : j ≠ id := by
          intro heq
          subst heq
          rw [hch] at hj
          cases hj
          exact hfd hfd'
        exact .inl ((Function.update_of_ne hji _ _).trans hj)

/-! ### The two closes -/

/-- The owner of a number closes it, and its channel is left with a number that is not its own. -/
theorem Backed.close {o : Option Nat} (h : s.Backed d o) : (s.close d).Doomed o := by
  cases o with
  | none => exact Table.Stale.bad_close h
  | some id =>
    obtain hstale | ⟨hgen, hfd, ch, hch, rfl⟩ := h
    · exact .inl hstale.bad_close
    · exact .inr ⟨ch, hch, hfd, Table.stale_close hgen⟩

theorem Doomed.deleteChannel (h : s.Doomed (some id)) : (s.deleteChannel id).table.Bad := by
  obtain hbad | ⟨ch, hch, hfd, hstale⟩ := h
  · exact (later_deleteChannel s id).bad hbad
  · rw [deleteChannel_open hch hfd]
    exact hstale.bad_close

/-- The channel is destroyed first. -/
theorem Backed.deleteChannel (h : s.Backed d (some id)) : (s.deleteChannel id).table.Stale d := by
  obtain hstale | ⟨hgen, hfd, ch, hch, rfl⟩ := h
  · exact (later_deleteChannel s id).stale _ hstale
  · rw [deleteChannel_open hch hfd]
    exact Table.stale_close hgen

end Process

/-! ### The owners -/

open Process in
/-- A `Socket` has the number of the channel of its connection, and `Attach` is about to close
    that of the channel it replaces once more. -/
structure TcpConnObject.Sound (s : Process) (c : TcpConnObject) : Prop where
  pending : ∀ k d, c.pending = some (k, d) → d.gen < s.table.fresh ∧ 0 ≤ d.num
  socket : ∀ d, c.socket_ = some d → c.attaching = none → s.Backed d c.channel_
  attach : ∀ d replaces, c.socket_ = some d → c.attaching = some replaces →
    ∃ k, c.pending = some (k, d)
  doomed : c.attaching = some true → s.Doomed c.channel_

/-- The owner of a number and of a channel that has it, before and after the body of its
    destructor. -/
def Process.Owns (s : Process) : Bool → Descriptor → Nat → Prop
  | false, d, id => s.Backed d (some id)
  | true, _, id => s.Doomed (some id)

/-- Each number that has two owners will be closed twice when both are gone. -/
structure TwiceInv (s : Process) : Prop where
  numbered : s.Numbered
  conns : ∀ i c, s.conn i = some c → c.Sound s
  timerQueues : ∀ q t, s.timerQueue q = some t → s.Owns t.destructing t.timerfd_ t.channel_
  loops : ∀ k l, s.loop k = some l → s.Owns l.destructing l.wakeupFd_ l.wakeupChannel_
  destructed : s.destructed ≠ [] → s.table.Bad

namespace Process.Later

variable {s s' : Process}

theorem conn (h : Later s s') {c : TcpConnObject} (hc : c.Sound s) : c.Sound s' := by
  refine ⟨?_, ?_, hc.attach, ?_⟩
  · intro k d hd
    obtain ⟨hgen, hfd⟩ := hc.pending k d hd
    exact ⟨Nat.lt_of_lt_of_le hgen h.fresh, hfd⟩
  · intro d hd hattaching
    exact h.backed (hc.socket d hd hattaching)
  · intro hattaching
    exact h.doomed (hc.doomed hattaching)

theorem owns (h : Later s s') {destructing : Bool} {d : Descriptor} {id : Nat}
    (howns : s.Owns destructing d id) : s'.Owns destructing d id := by
  cases destructing with
  | false =>
    have hback : s.Backed d (some id) := howns
    exact h.backed hback
  | true =>
    have hdoom : s.Doomed (some id) := howns
    exact h.doomed hdoom

end Process.Later

namespace TwiceInv

variable {s s' : Process}

/-- The objects are as before, or as they should be. -/
theorem later (h : TwiceInv s) (hlater : Process.Later s s')
    (hconn : ∀ i c, s'.conn i = some c → s.conn i = some c ∨ c.Sound s')
    (htimerQueue : ∀ q t, s'.timerQueue q = some t → s.timerQueue q = some t ∨
      s'.Owns t.destructing t.timerfd_ t.channel_)
    (hloop : ∀ k l, s'.loop k = some l → s.loop k = some l ∨
      s'.Owns l.destructing l.wakeupFd_ l.wakeupChannel_)
    (hdestructed : s'.destructed = s.destructed ∨ s'.table.Bad) : TwiceInv s' := by
  refine ⟨hlater.numbered h.numbered, ?_, ?_, ?_, ?_⟩
  · intro i c hc
    obtain hold | hsound := hconn i c hc
    · exact hlater.conn (h.conns i c hold)
    · exact hsound
  · intro q t ht
    obtain hold | hsound := htimerQueue q t ht
    · exact hlater.owns (h.timerQueues q t hold)
    · exact hsound
  · intro k l hl
    obtain hold | hsound := hloop k l hl
    · exact hlater.owns (h.loops k l hold)
    · exact hsound
  · intro hne
    obtain hsame | hbad := hdestructed
    · rw [hsame] at hne
      exact hlater.bad (h.destructed hne)
    · exact hbad

/-- Only connection `i` changes. -/
theorem setConn (h : TwiceInv s) (hlater : Process.Later s s') {i : Nat}
    {new : Option TcpConnObject} (hconn : s'.conn = Function.update s.conn i new)
    (hnew : ∀ c, new = some c → c.Sound s') (htimerQueue : s'.timerQueue = s.timerQueue)
    (hloop : s'.loop = s.loop) (hdestructed : s'.destructed = s.destructed ∨ s'.table.Bad) :
    TwiceInv s' := by
  refine h.later hlater ?_ ?_ ?_ hdestructed
  · exact Memory.old_or_new hconn hnew
  · exact Memory.old_of_eq htimerQueue
  · exact Memory.old_of_eq hloop

/-- Only loop `k` changes. -/
theorem setLoop (h : TwiceInv s) (hlater : Process.Later s s') {k : Nat}
    {new : Option EventLoopObject} (hloop : s'.loop = Function.update s.loop k new)
    (hnew : ∀ l, new = some l → s'.Owns l.destructing l.wakeupFd_ l.wakeupChannel_)
    (hconn : s'.conn = s.conn) (htimerQueue : s'.timerQueue = s.timerQueue)
    (hdestructed : s'.destructed = s.destructed ∨ s'.table.Bad) : TwiceInv s' := by
  refine h.later hlater ?_ ?_ ?_ hdestructed
  · exact Memory.old_of_eq hconn
  · exact Memory.old_of_eq htimerQueue
  · exact Memory.old_or_new hloop hnew

/-- Only timer queue `q` changes. -/
theorem setTimerQueue (h : TwiceInv s) (hlater : Process.Later s s') {q : Nat}
    {new : Option TimerQueueObject}
    (htimerQueue : s'.timerQueue = Function.update s.timerQueue q new)
    (hnew : ∀ t, new = some t → s'.Owns t.destructing t.timerfd_ t.channel_)
    (hconn : s'.conn = s.conn) (hloop : s'.loop = s.loop)
    (hdestructed : s'.destructed = s.destructed ∨ s'.table.Bad) : TwiceInv s' := by
  refine h.later hlater ?_ ?_ ?_ hdestructed
  · exact Memory.old_of_eq hconn
  · exact Memory.old_or_new htimerQueue hnew
  · exact Memory.old_of_eq hloop

/-- No owner changes. -/
theorem frame (h : TwiceInv s) (hlater : Process.Later s s')
    (hframe : s'.conn = s.conn ∧ s'.loop = s.loop ∧ s'.timerQueue = s.timerQueue ∧
      s'.destructed = s.destructed) : TwiceInv s' := by
  obtain ⟨hconn, hloop, htimerQueue, hdestructed⟩ := hframe
  refine h.later hlater ?_ ?_ ?_ (.inl hdestructed)
  · exact Memory.old_of_eq hconn
  · exact Memory.old_of_eq htimerQueue
  · exact Memory.old_of_eq hloop

open Process

/-- A descriptor and a channel for it. -/
theorem later_newChannel (h : TwiceInv s) (k : Nat) (fd : Int) :
    Later s ((s.acquire fd).addChannel k (s.table.next fd)) :=
  (later_acquire s fd).trans
    (later_addChannel ((later_acquire s fd).numbered h.numbered) k (s.table.next fd))

/-- The new channel has the new descriptor. -/
theorem backed_addChannel {k : Nat} {d : Descriptor} (hgen : d.gen < s.table.fresh)
    (hfd : 0 ≤ d.num) : (s.addChannel k d).Backed d (some s.ids) :=
  .inr ⟨hgen, hfd, _, Function.update_self _ _ _, rfl⟩

theorem openConn (h : TwiceInv s) {i k : Nat} {fd : Int} {c : TcpConnObject}
    (hc : s.conn i = some c) (hpending : c.pending = none) (hfd : 0 ≤ fd) :
    TwiceInv (s.openConn i k fd c) := by
  have hlater : Later s (s.openConn i k fd c) := (later_acquire s fd).trans (.of_eq rfl rfl rfl)
  refine h.setConn hlater rfl ?_ rfl rfl (.inl rfl)
  intro c' hat
  cases hat
  obtain ⟨-, hsocket, hattach, hdoomed⟩ := hlater.conn (h.conns i c hc)
  refine ⟨?_, hsocket, ?_, hdoomed⟩
  · intro k' d hd
    cases hd
    exact ⟨Nat.lt_succ_self _, hfd⟩
  · intro d replaces hd hattaching
    obtain ⟨k', hk'⟩ := hattach d replaces hd hattaching
    rw [hpending] at hk'
    cases hk'

/-- The start of an `Attach`; an old socket closes the number its channel still has. -/
theorem attach (h : TwiceInv s) {i k : Nat} {d : Descriptor} {c : TcpConnObject}
    (hc : s.conn i = some c) (hpending : c.pending = some (k, d))
    (hattaching : c.attaching = none) : TwiceInv (s.attach i d c) := by
  have hsound := h.conns i c hc
  unfold Process.attach
  cases hsocket : c.socket_ with
  | none =>
    refine h.setConn (.of_eq rfl rfl rfl) rfl ?_ rfl rfl (.inl rfl)
    intro c' hat
    cases hat
    refine ⟨hsound.pending, by simp, ?_, by simp⟩
    intro d' replaces hd' _
    cases hd'
    exact ⟨k, hpending⟩
  | some old =>
    -- The old `Socket` closes the number that the old channel is going to close.
    have hback : s.Backed old c.channel_ := hsound.socket old hsocket hattaching
    refine h.setConn ((later_close s old).trans (.of_eq rfl rfl rfl)) rfl ?_ rfl rfl (.inl rfl)
    intro c' hat
    cases hat
    refine ⟨hsound.pending, by simp, ?_, fun _ => hback.close⟩
    intro d' replaces hd' _
    cases hd'
    exact ⟨k, hpending⟩

theorem attached (h : TwiceInv s) {i k : Nat} {d : Descriptor} {replaces : Bool}
    {c : TcpConnObject} (hc : s.conn i = some c) (hpending : c.pending = some (k, d))
    (hattaching : c.attaching = some replaces) : TwiceInv (s.attached i k d replaces c) := by
  have hsound := h.conns i c hc
  obtain ⟨hgen, hfd⟩ := hsound.pending k d hpending
  -- The state after `channel_.reset`, which has destroyed the old channel.
  obtain ⟨t, ht, hlater, hframe, hbad⟩ : ∃ t : Process, s.deleteOld c.channel_ = t ∧ Later s t ∧
      (t.conn = s.conn ∧ t.loop = s.loop ∧ t.timerQueue = s.timerQueue ∧
        t.destructed = s.destructed) ∧ (replaces = true → t.table.Bad) := by
    cases hchannel : c.channel_ with
    | none =>
      refine ⟨s, rfl, .of_eq rfl rfl rfl, ⟨rfl, rfl, rfl, rfl⟩, ?_⟩
      intro hreplaces
      have hdoom := hsound.doomed (by rw [hattaching, hreplaces])
      rw [hchannel] at hdoom
      exact hdoom
    | some old =>
      refine ⟨_, rfl, later_deleteChannel s old, s.deleteChannel_frame old, ?_⟩
      intro hreplaces
      have hdoom := hsound.doomed (by rw [hattaching, hreplaces])
      rw [hchannel] at hdoom
      exact Doomed.deleteChannel hdoom
  have hinv : TwiceInv t := h.frame hlater hframe
  unfold Process.attached
  rw [ht]
  refine andThen_cases hinv fun _ => ?_
  have hadd : Later t (t.addChannel k d) := later_addChannel hinv.numbered k d
  refine hinv.setConn (hadd.trans (.of_eq rfl rfl rfl)) rfl ?_ rfl rfl ?_
  · intro c' hat
    cases hat
    refine ⟨by simp, ?_, by simp, by simp⟩
    intro d' hd' _
    obtain ⟨k', hk'⟩ := hsound.attach d' replaces hd' hattaching
    rw [hpending] at hk'
    cases hk'
    exact backed_addChannel (Nat.lt_of_lt_of_le hgen hlater.fresh) hfd
  · cases hreplaces : replaces with
    | false => exact .inl rfl
    | true => exact .inr (hbad hreplaces)

theorem cleanUp (h : TwiceInv s) {i id : Nat} {c : TcpConnObject} (hc : s.conn i = some c)
    (hattaching : c.attaching = none) (hchannel : c.channel_ = some id) :
    TwiceInv (s.cleanUp i c) := by
  have hsound := h.conns i c hc
  have hlater := later_deleteChannel s id
  have hinv := h.frame hlater (s.deleteChannel_frame id)
  unfold Process.cleanUp
  rw [hchannel]
  refine andThen_cases hinv fun _ => ?_
  refine hinv.setConn (.of_eq rfl rfl rfl) rfl ?_ rfl rfl (.inl rfl)
  intro c' hat
  cases hat
  refine ⟨(hlater.conn hsound).pending, ?_, by simp [hattaching], by simp [hattaching]⟩
  intro d hd _
  have hback := hsound.socket d hd hattaching
  rw [hchannel] at hback
  exact hback.deleteChannel

theorem deleteConn (h : TwiceInv s) {i : Nat} {c : TcpConnObject} (hc : s.conn i = some c)
    (hpending : c.pending = none) (hchannel : c.channel_ = none) :
    TwiceInv (s.deleteConn i c) := by
  have hsound := h.conns i c hc
  unfold Process.deleteConn
  cases hsocket : c.socket_ with
  | none => exact h.setConn (.of_eq rfl rfl rfl) rfl (by simp) rfl rfl (.inl rfl)
  | some d =>
    have hattaching : c.attaching = none := by
      cases hattaching : c.attaching with
      | none => rfl
      | some replaces =>
        obtain ⟨k, hk⟩ := hsound.attach d replaces hsocket hattaching
        rw [hpending] at hk
        cases hk
    have hback := hsound.socket d hsocket hattaching
    rw [hchannel] at hback
    refine h.setConn ((later_close s d).trans (.of_eq rfl rfl rfl)) rfl (by simp) rfl rfl (.inr ?_)
    exact Table.Stale.bad_close hback

theorem destructLoop (h : TwiceInv s) {k : Nat} {l : EventLoopObject} (hl : s.loop k = some l)
    (hdestructing : l.destructing = false) : TwiceInv (s.destructLoop k l) := by
  have howns := h.loops k l hl
  rw [hdestructing] at howns
  have hback : s.Backed l.wakeupFd_ (some l.wakeupChannel_) := howns
  unfold Process.destructLoop
  split
  · exact h
  · rename_i ch _
    have hlater := later_removeChannel s ch.loop_ ch.fd_ l.wakeupChannel_
    have hinv := h.frame hlater (s.removeChannel_owners ch.loop_ ch.fd_ l.wakeupChannel_)
    refine andThen_cases hinv fun _ => ?_
    refine hinv.setLoop ((later_close _ l.wakeupFd_).trans (.of_eq rfl rfl rfl)) rfl ?_ rfl rfl
      (.inl rfl)
    intro l' hat
    cases hat
    exact (hlater.backed hback).close

theorem deleteLoop (h : TwiceInv s) {k : Nat} {l : EventLoopObject} (hl : s.loop k = some l)
    (hdestructing : l.destructing = true) : TwiceInv (s.deleteLoop k l) := by
  have howns := h.loops k l hl
  rw [hdestructing] at howns
  have hdoom : s.Doomed (some l.wakeupChannel_) := howns
  have hbad := hdoom.deleteChannel
  have hlater := later_deleteChannel s l.wakeupChannel_
  obtain ⟨hconn, hloop, htimerQueue, -⟩ := s.deleteChannel_frame l.wakeupChannel_
  have hinv : TwiceInv { s.deleteChannel l.wakeupChannel_ with
      destructed := s.destructed ++ [.eventLoop k] } := by
    refine h.later (hlater.trans (.of_eq rfl rfl rfl)) ?_ ?_ ?_ (.inr hbad)
    · exact Memory.old_of_eq hconn
    · exact Memory.old_of_eq htimerQueue
    · exact Memory.old_of_eq hloop
  -- The number is bad by now, and what follows does not mend it.
  have hrest : ∀ t : Process, TwiceInv t → TwiceInv
      (((t.close l.timerQueue_.timerfd_).deleteChannel l.timerQueue_.channel_).andThen fun t =>
        { t.close l.epollfd_ with loop := Function.update t.loop k none }) := by
    intro t ht
    have hclose := ht.frame (later_close t l.timerQueue_.timerfd_) ⟨rfl, rfl, rfl, rfl⟩
    have hdelete := hclose.frame (later_deleteChannel _ l.timerQueue_.channel_)
      (deleteChannel_frame _ _)
    refine andThen_cases hdelete fun _ => ?_
    exact hdelete.setLoop ((later_close _ l.epollfd_).trans (.of_eq rfl rfl rfl)) rfl (by simp)
      rfl rfl (.inl rfl)
  unfold Process.deleteLoop
  refine andThen_cases hinv fun _ => ?_
  exact hrest _ hinv

theorem newLoop (h : TwiceInv s) {k : Nat} {epollfd timerfd evtfd : Int} (hevt : 0 ≤ evtfd) :
    TwiceInv (s.newLoop k epollfd timerfd evtfd) := by
  have hpoller : TwiceInv (s.acquire epollfd) :=
    h.frame (later_acquire s epollfd) ⟨rfl, rfl, rfl, rfl⟩
  have htimer : TwiceInv ((s.acquire epollfd).newTimerQueue k timerfd).1 :=
    hpoller.frame (hpoller.later_newChannel k timerfd) ⟨rfl, rfl, rfl, rfl⟩
  refine htimer.setLoop ((htimer.later_newChannel k evtfd).trans (.of_eq rfl rfl rfl)) rfl ?_
    rfl rfl (.inl rfl)
  intro l hat
  cases hat
  exact backed_addChannel (s := (s.acquire epollfd |>.newTimerQueue k timerfd).1.acquire evtfd)
    (Nat.lt_succ_self _) hevt

end TwiceInv

theorem twiceInv_initial (s : Process) (h : processSystem.init s) : TwiceInv s := by
  rw [show s = Process.empty from h]
  constructor <;> simp [Process.empty, Process.Numbered]

open Process in
theorem twiceInv_preserved (s : Process) (l : ProcessLabel) (s' : Process) (h : TwiceInv s)
    (hstep : processSystem.step s l s') : TwiceInv s' := by
  obtain ⟨-, hstep⟩ := hstep
  cases l with
  | newLoop k epollfd timerfd evtfd =>
    obtain ⟨-, -, -, hevt, -, -, -, rfl⟩ := hstep
    exact h.newLoop hevt.1
  | newTimerQueue q k fd =>
    obtain ⟨-, -, hfree, rfl⟩ := hstep
    refine h.setTimerQueue ((h.later_newChannel k fd).trans (.of_eq rfl rfl rfl)) rfl ?_ rfl rfl
      (.inl rfl)
    intro t hat
    cases hat
    exact TwiceInv.backed_addChannel (s := s.acquire fd) (Nat.lt_succ_self _) hfree.1
  | listen k fd =>
    obtain ⟨-, -, rfl⟩ := hstep
    exact h.frame ((h.later_newChannel k fd).trans (.of_eq rfl rfl rfl)) ⟨rfl, rfl, rfl, rfl⟩
  | closeListen id =>
    obtain ⟨-, -, rfl⟩ := hstep
    exact h.frame (later_closeChannel s id) (s.closeChannel_frame id)
  | deleteListen id =>
    obtain ⟨-, -, rfl⟩ := hstep
    exact h.frame ((later_deleteChannel s id).trans (.of_eq rfl rfl rfl)) (s.deleteChannel_frame id)
  | newConn i =>
    obtain ⟨-, rfl⟩ := hstep
    refine h.setConn (.of_eq rfl rfl rfl) rfl ?_ rfl rfl (.inl rfl)
    intro c hc
    cases hc
    constructor <;> simp
  | openConn i k fd =>
    obtain ⟨c, hc, hpending, -, hfree, rfl⟩ := hstep
    exact h.openConn hc hpending hfree.1
  | attach i =>
    obtain ⟨c, k, d, hc, hpending, hattaching, -, rfl⟩ := hstep
    exact h.attach hc hpending hattaching
  | attached i =>
    obtain ⟨c, k, d, replaces, hc, hpending, hattaching, -, rfl⟩ := hstep
    exact h.attached hc hpending hattaching
  | close i =>
    obtain ⟨c, id, -, -, -, -, rfl⟩ := hstep
    exact h.frame (later_closeChannel s id) (s.closeChannel_frame id)
  | cleanUp i =>
    obtain ⟨c, id, hc, hattaching, hchannel, -, rfl⟩ := hstep
    exact h.cleanUp hc hattaching hchannel
  | deleteConn i =>
    obtain ⟨c, hc, hpending, hchannel, rfl⟩ := hstep
    exact h.deleteConn hc hpending hchannel
  | destructTimerQueue q =>
    obtain ⟨t, ht, hdestructing, -, rfl⟩ := hstep
    have howns := h.timerQueues q t ht
    rw [hdestructing] at howns
    -- The destructor body closes what the member `channel_` closes next.
    have hdoom : (s.close t.timerfd_).Doomed (some t.channel_) := Backed.close howns
    refine h.setTimerQueue ((later_close s t.timerfd_).trans (.of_eq rfl rfl rfl)) rfl ?_ rfl rfl
      (.inl rfl)
    intro t' hat
    cases hat
    exact hdoom
  | deleteTimerQueue q =>
    obtain ⟨t, ht, hdestructing, -, rfl⟩ := hstep
    have howns := h.timerQueues q t ht
    rw [hdestructing] at howns
    have hdoom : s.Doomed (some t.channel_) := howns
    obtain ⟨hconn, hloop, htimerQueue, -⟩ := s.deleteChannel_frame t.channel_
    refine h.setTimerQueue ((later_deleteChannel s t.channel_).trans (.of_eq rfl rfl rfl)) rfl
      (by simp) hconn hloop (.inr hdoom.deleteChannel)
  | destructLoop k =>
    obtain ⟨l, hl, hdestructing, rfl⟩ := hstep
    exact h.destructLoop hl hdestructing
  | deleteLoop k =>
    obtain ⟨l, hl, hdestructing, rfl⟩ := hstep
    exact h.deleteLoop hl hdestructing

/-! ## Main theorem -/

/-- **Descriptors**: in every run in which no descriptor has two owners that both close it, each
    is closed once and each channel removed once.  Once a `Socket` of an attached connection,
    a timer queue or an event loop has been destroyed, that is over. -/
theorem descriptors_closed_once (s : Process) :
    ((processSystem.restrict OneOwner).Reachable s → DescriptorsOk s) ∧
    (processSystem.Reachable s → s.destructed ≠ [] → ¬ DescriptorsOk s) := by
  constructor
  · intro hs
    exact (LTS.System.invariant processInv_initial processInv_preserved s hs).ok
  · intro hs hdestructed hok
    have h := LTS.System.invariant twiceInv_initial twiceInv_preserved s hs
    obtain ⟨c, hc, hfound⟩ := h.destructed hdestructed
    exact hfound (hok.own c hc)

/-- A connection is cleaned up, and its number is given to another one. -/
theorem descriptors_closed_reused :
    ∃ s, (processSystem.restrict OneOwner).Reachable s ∧ s.table.Open ⟨6, 4⟩ ∧ DescriptorsOk s := by
  have h0 : (processSystem.restrict OneOwner).Reachable .empty := .start rfl
  have h1 := h0.next (.newLoop 0 3 4 5)
    (by exact ⟨trivial, rfl, rfl, ⟨by decide, rfl⟩, ⟨by decide, rfl⟩, ⟨by decide, rfl⟩, by decide,
      by decide, by decide, rfl⟩)
  have h2 := h1.next (.newConn 0) (by exact ⟨trivial, rfl, rfl, rfl⟩)
  have h3 := h2.next (.openConn 0 0 6)
    (by exact ⟨trivial, rfl, _, rfl, rfl, ⟨_, rfl, rfl⟩, ⟨by decide, rfl⟩, rfl⟩)
  have h4 := h3.next (.attach 0)
    (by exact ⟨fun c hc => by cases hc; rfl, rfl, _, _, _, rfl, rfl, rfl, ⟨_, rfl, rfl⟩, rfl⟩)
  have h5 := h4.next (.attached 0)
    (by exact ⟨trivial, rfl, _, _, _, _, rfl, rfl, rfl, ⟨_, rfl, rfl⟩, rfl⟩)
  have h6 := h5.next (.cleanUp 0)
    (by exact ⟨trivial, rfl, _, _, rfl, rfl, rfl, ⟨_, rfl, _, rfl, rfl⟩, rfl⟩)
  have h7 := h6.next (.newConn 1) (by exact ⟨trivial, rfl, rfl, rfl⟩)
  have h8 := h7.next (.openConn 1 0 6)
    (by exact ⟨trivial, rfl, _, rfl, rfl, ⟨_, rfl, rfl⟩, ⟨by decide, rfl⟩, rfl⟩)
  exact ⟨_, h8, rfl, (descriptors_closed_once _).1 h8⟩

/-- A connection is cleaned up after end of file, another one gets its number, and the
    destructor of the first closes it. -/
theorem descriptors_closed_twice :
    ¬ ∀ s, processSystem.Reachable s → DescriptorsOk s := by
  intro hall
  have h0 : processSystem.Reachable .empty := .start rfl
  have h1 := h0.next (.newLoop 0 3 4 5)
    (by exact ⟨rfl, rfl, ⟨by decide, rfl⟩, ⟨by decide, rfl⟩, ⟨by decide, rfl⟩, by decide, by decide,
      by decide, rfl⟩)
  have h2 := h1.next (.newConn 0) (by exact ⟨rfl, rfl, rfl⟩)
  have h3 := h2.next (.openConn 0 0 6)
    (by exact ⟨rfl, _, rfl, rfl, ⟨_, rfl, rfl⟩, ⟨by decide, rfl⟩, rfl⟩)
  have h4 := h3.next (.attach 0) (by exact ⟨rfl, _, _, _, rfl, rfl, rfl, ⟨_, rfl, rfl⟩, rfl⟩)
  have h5 := h4.next (.attached 0)
    (by exact ⟨rfl, _, _, _, _, rfl, rfl, rfl, ⟨_, rfl, rfl⟩, rfl⟩)
  have h6 := h5.next (.cleanUp 0) (by exact ⟨rfl, _, _, rfl, rfl, rfl, ⟨_, rfl, _, rfl, rfl⟩, rfl⟩)
  have h7 := h6.next (.newConn 1) (by exact ⟨rfl, rfl, rfl⟩)
  have h8 := h7.next (.openConn 1 0 6)
    (by exact ⟨rfl, _, rfl, rfl, ⟨_, rfl, rfl⟩, ⟨by decide, rfl⟩, rfl⟩)
  have h9 := h8.next (.deleteConn 0) (by exact ⟨rfl, _, rfl, rfl, rfl, rfl⟩)
  have hown := (hall _ h9).own ⟨⟨6, 3⟩, some 4⟩
    (List.mem_append_right _ (List.mem_singleton.mpr rfl))
  exact absurd hown (by decide)

end JNet
