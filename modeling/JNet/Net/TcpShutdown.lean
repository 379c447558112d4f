import JNet.Net.TcpSends

/-! # Shutting a connection down

    `Shutdown` closes the connection for its own functions at once and has the loop
    call `shutdown(fd_, SHUT_WR)`.  Nobody looks at `output_`: what is queued then
    is no longer written, since `HandleWrite` refuses a closed connection.  And
    `fd_` is set by `Connect` alone, so an accepted connection passes on whatever
    its memory held.

    Runs are made of sends on the loop thread and on others, write events, calls of
    `Shutdown` on any thread, and the functors that wait in the loop.
-/

namespace JNet

open TcpConn

/-! ## State -/

/-- How a connection comes about. -/
inductive Origin where
  | connect
  | attach
  deriving DecidableEq, Repr

/-- A functor that waits in the loop. -/
inductive LoopTask where
  /-- The one of a `Send` on another thread. -/
  | send (message : Bytes)
  /-- `ShutdownInLoop`. -/
  | shutdown
  deriving DecidableEq, Repr

/-- The bytes a functor is to send. -/
def LoopTask.bytes : LoopTask → Bytes
  | .send message => message
  | .shutdown => []

/-- A call of `shutdown(fd, SHUT_WR)`, with the bytes that had been written by then.
    There is no descriptor if `fd_` was never set. -/
structure ShutdownCall where
  fd : Option Int
  wire : Bytes
  deriving DecidableEq, Repr

structure ShutConn where
  conn : TcpConn
  /-- The descriptor of `socket_` and of the channel. -/
  sockfd_ : Int
  fd_ : Option Int
  /-- The bytes that `Send` has accepted and the connection was given, in order. -/
  accepted : Bytes
  /-- The functors that wait in the loop. -/
  tasks : List LoopTask
  /-- The bytes accepted before `Shutdown` took effect. -/
  before : Option Bytes
  /-- `output_` has been empty at some time since then. -/
  drained : Bool
  shutdowns : List ShutdownCall
  deriving DecidableEq, Repr

namespace ShutConn

/-- A new connection on descriptor `fd`. -/
def create (origin : Origin) (fd : Int) : ShutConn where
  conn := TcpConn.attach fd
  sockfd_ := fd
  fd_ := if origin = .connect then some fd else none
  accepted := []
  tasks := []
  before := none
  drained := false
  shutdowns := []

/-- The bytes of the sends that wait in the loop. -/
def waiting (s : ShutConn) : Bytes := s.tasks.flatMap LoopTask.bytes

def shutdownInLoop (s : ShutConn) : ShutConn :=
  { s with shutdowns := s.shutdowns ++ [⟨s.fd_, s.conn.wire⟩] }

/-- `state_ = State::kClosed` in `Shutdown`. -/
def close (s : ShutConn) : ShutConn :=
  { s with
    conn := { s.conn with state_ := .kClosed }
    before := some (s.accepted ++ s.waiting)
    drained := s.conn.output_.isEmpty }

/-- `Shutdown()`: on the loop thread `RunInLoop` runs the functor at once. -/
def shutdown (s : ShutConn) (inLoop : Bool) : ShutConn :=
  if s.conn.state_ = .kConnected then
    if inLoop then s.close.shutdownInLoop
    else { s.close with tasks := s.close.tasks ++ [.shutdown] }
  else s

/-- The connection after one of its functions. -/
def setConn (s : ShutConn) (conn : TcpConn) : ShutConn :=
  { s with conn, drained := s.drained || conn.output_.isEmpty }

end ShutConn

/-! ## Runs -/

inductive ShutEvent where
  /-- A send or a write event on the loop thread. -/
  | out (ev : OutEvent)
  /-- `Send(const char*, size_t)` on another thread. -/
  | sendElsewhere (message : Bytes)
  | shutdown (inLoop : Bool)
  /-- The loop runs the functor of a send, with what its pointer points to by now. -/
  | runSend (arr : Bytes) (results : List WriteResult)
  /-- The loop runs `ShutdownInLoop`. -/
  | runShutdown
  deriving DecidableEq, Repr

/-- Runs of a connection; `write` takes some of the bytes, or returns `EINTR` or
    `EAGAIN`. -/
def shutdownSystem (origin : Origin) (fd : Int) : LTS.System ShutConn ShutEvent where
  init := fun s => s = ShutConn.create origin fd
  step := fun s l s' =>
    match l with
    | .out ev =>
        (∀ r ∈ ev.results, r.isRegular) ∧
        ∃ conn, ev.exec s.conn = some conn ∧
        s' = { s.setConn conn with accepted := s.accepted ++ ev.accepted s.conn }
    | .sendElsewhere message =>
        s' = if s.conn.queuesSend then { s with tasks := s.tasks ++ [.send message] } else s
    | .shutdown inLoop => s' = s.shutdown inLoop
    | .runSend arr results =>
        (∀ r ∈ results, r.isRegular) ∧
        ∃ message rest conn, s.tasks = .send message :: rest ∧
        s.conn.sendQueued arr message.length results = .ok (some conn) ∧
        s' = { s.setConn conn with tasks := rest, accepted := s.accepted ++ message }
    | .runShutdown =>
        ∃ rest, s.tasks = .shutdown :: rest ∧ s' = { s with tasks := rest }.shutdownInLoop

/-! ## The property -/

/-- `HandleWrite` passes on to the kernel what it takes of the queue. -/
def TcpConn.Drains (c : TcpConn) : Prop :=
  ∀ p results c₁ n, c.iSend c.output_ results = some (c₁, n) →
    ∃ c', c.handleWrite p results = some c' ∧
      c'.wire = c.wire ++ c.output_.take n ∧ c'.output_ = c.output_.drop n

/-- What was accepted before `Shutdown` is written before the write side is shut
    down, that is done to the connection's own descriptor, and `HandleWrite`
    drains the queue until it is empty. -/
structure Graceful (s : ShutConn) : Prop where
  written : ∀ b, s.before = some b → ∀ d ∈ s.shutdowns, b.Sublist d.wire
  own : ∀ d ∈ s.shutdowns, d.fd = some s.sockfd_
  drains : s.conn.state_ = .kConnected ∨ (s.before.isSome ∧ s.drained = false) → s.conn.Drains

/-- The C string at the array, with its NUL, begins with the message. -/
def Intact (arr message : Bytes) : Prop :=
  ∃ copy, Memory.cString (arr.map some) = .ok copy ∧ message <+: copy ++ [0]

/-- The condition on a step.  `Shutdown` finds nothing queued, and `fd_` is set where
    it is used; a send that the loop runs has its bytes intact, and after `Shutdown`
    they are written at once. -/
def ShutdownOk (s : ShutConn) : ShutEvent → Prop
  | .out _ => True
  | .sendElsewhere _ => True
  | .shutdown inLoop =>
    s.conn.state_ = .kConnected →
      s.conn.output_ = [] ∧ (inLoop = true → s.waiting = [] ∧ s.fd_.isSome)
  | .runSend arr results =>
    ∀ message rest, s.tasks = .send message :: rest →
      Intact arr message ∧
      (s.before.isSome → message ≠ [] →
        s.conn.output_ = [] ∧ taken message.length results = message.length)
  | .runShutdown => s.fd_.isSome

/-! ## Draining -/

theorem drains_of_connected {c : TcpConn} (hconn : c.state_ = .kConnected)
    (hch : c.channel_.isSome) : c.Drains := by
  intro p results c₁ n hsend
  have hs := iSend_wrote hsend
  have hsome : c.channel_.isNone = false := by simpa using hch
  simp only [handleWrite, hconn, hsome, Bool.false_eq_true, if_false, hsend]
  refine ⟨_, rfl, ?_, ?_⟩
  · dsimp only
    split <;> exact hs.wire
  · dsimp only
    rw [← hs.output]
    split <;> rfl

/-- A closed connection leaves its queue as it is. -/
theorem not_drains_of_closed {c : TcpConn} (hclosed : c.state_ = .kClosed)
    (hch : c.channel_.isSome) (hne : c.output_ ≠ []) : ¬ c.Drains := by
  intro hdrains
  obtain ⟨-, c₁, hsend⟩ := iSend_whole hch hne
  obtain ⟨c', hwrite, hwire, -⟩ := hdrains ⟨0, 0⟩ _ c₁ _ hsend
  rw [handleWrite, hclosed] at hwrite
  cases hwrite
  rw [List.take_length] at hwire
  exact hne (List.append_right_eq_self.mp hwire.symm)

/-! ## The invariant -/

/-- The sends wait before `ShutdownInLoop`. -/
def queueOf (sends : List Bytes) (k : Nat) : List LoopTask :=
  sends.map .send ++ List.replicate k .shutdown

theorem flatMap_queueOf (sends : List Bytes) (k : Nat) :
    (queueOf sends k).flatMap LoopTask.bytes = sends.flatten := by
  have hends : (List.replicate k LoopTask.shutdown).flatMap LoopTask.bytes = [] := by
    rw [List.flatMap_eq_nil_iff]
    intro t ht
    rw [List.eq_of_mem_replicate ht]
    rfl
  have hsends : (sends.map LoopTask.send).flatMap LoopTask.bytes = sends.flatten := by
    have hbytes : LoopTask.bytes ∘ LoopTask.send = id := rfl
    rw [List.flatMap_def, List.map_map, hbytes, List.map_id]
  rw [queueOf, List.flatMap_append, hends, List.append_nil, hsends]

theorem queueOf_shutdown (sends : List Bytes) (k : Nat) :
    queueOf sends k ++ [.shutdown] = queueOf sends (k + 1) := by
  rw [queueOf, queueOf, List.replicate_succ', List.append_assoc]

/-- A send comes first as long as there are any. -/
theorem queueOf_eq_send {sends : List Bytes} {k : Nat} {message : Bytes} {rest : List LoopTask}
    (h : queueOf sends k = .send message :: rest) :
    ∃ sends', sends = message :: sends' ∧ rest = queueOf sends' k := by
  cases sends with
  | nil =>
    cases k with
    | zero => cases h
    | succ k => cases h
  | cons m sends' =>
    cases h
    exact ⟨sends', rfl, rfl⟩

theorem queueOf_eq_shutdown {sends : List Bytes} {k : Nat} {rest : List LoopTask}
    (h : queueOf sends k = .shutdown :: rest) :
    sends = [] ∧ ∃ k', k = k' + 1 ∧ rest = queueOf [] k' := by
  cases sends with
  | nil =>
    cases k with
    | zero => cases h
    | succ k =>
      cases h
      exact ⟨rfl, k, rfl, rfl⟩
  | cons m sends' => cases h

/-- Until `Shutdown` takes effect. -/
structure EarlyInv (s : ShutConn) : Prop where
  output : OutputInv (s.conn, s.accepted)
  tasks : ∃ sends, s.tasks = queueOf sends 0
  shutdowns : s.shutdowns = []

/-- After that, `b` being the bytes accepted before: all but those that wait in the
    loop are written. -/
structure LateInv (s : ShutConn) (b : Bytes) : Prop where
  state : s.conn.state_ = .kClosed
  channel : s.conn.channel_.isSome
  drained : s.drained = true
  tasks : ∃ sends k done, s.tasks = queueOf sends k ∧ b = done ++ sends.flatten ∧
    done.Sublist s.conn.wire
  shutdowns : ∀ d ∈ s.shutdowns, d.fd = some s.sockfd_ ∧ b.Sublist d.wire

structure ShutInv (s : ShutConn) : Prop where
  fd : s.fd_.isSome → s.fd_ = some s.sockfd_
  early : s.before = none → EarlyInv s
  late : ∀ b, s.before = some b → LateInv s b

/-- Once nothing waits in front of it, `ShutdownInLoop` finds everything written. -/
theorem LateInv.shutdownInLoop {s : ShutConn} {b : Bytes} (h : LateInv s b)
    (hfd : s.fd_ = some s.sockfd_) (hnone : s.waiting = []) : LateInv s.shutdownInLoop b where
  state := h.state
  channel := h.channel
  drained := h.drained
  tasks := h.tasks
  shutdowns := by
    intro d hd
    obtain hd | hd := List.mem_append.mp hd
    · exact h.shutdowns d hd
    · rw [List.mem_singleton.mp hd]
      obtain ⟨sends, k, done, htasks, hbytes, hwritten⟩ := h.tasks
      rw [ShutConn.waiting, htasks, flatMap_queueOf] at hnone
      rw [hnone, List.append_nil] at hbytes
      rw [hbytes]
      exact ⟨hfd, hwritten⟩

/-- A function of the connection that takes nothing back. -/
theorem LateInv.setConn {s : ShutConn} {b : Bytes} (h : LateInv s b) {conn : TcpConn}
    (hs : Steady s.conn conn) : LateInv (s.setConn conn) b := by
  obtain ⟨sends, k, done, htasks, hbytes, hwritten⟩ := h.tasks
  constructor
  · exact hs.state.trans h.state
  · exact hs.channel.trans h.channel
  · show (s.drained || _) = true
    rw [h.drained, Bool.true_or]
  · exact ⟨sends, k, done, htasks, hbytes, hwritten.trans hs.wire.sublist⟩
  · exact h.shutdowns

theorem LateInv.queueShutdown {s : ShutConn} {b : Bytes} (h : LateInv s b) :
    LateInv { s with tasks := s.tasks ++ [.shutdown] } b := by
  obtain ⟨sends, k, done, htasks, hbytes, hwritten⟩ := h.tasks
  refine ⟨h.state, h.channel, h.drained, ⟨sends, k + 1, done, ?_, hbytes, hwritten⟩, h.shutdowns⟩
  show s.tasks ++ [.shutdown] = _
  rw [htasks, queueOf_shutdown]

/-- A send of which the kernel takes everything. -/
theorem sendInLoop_whole {c c' : TcpConn} {message : Bytes} {results : List WriteResult}
    (hch : c.channel_.isSome) (hempty : c.output_ = [])
    (hall : taken message.length results = message.length)
    (h : c.sendInLoop message results = some c') : c'.wire = c.wire ++ message := by
  obtain ⟨-, c₁, n, hsend, rfl⟩ | ⟨hne, -⟩ := sendInLoop_cases hch h
  · rw [appendRest_wire, (iSend_wrote hsend).wire, iSend_taken hsend, hall, List.take_length]
  · exact absurd hempty hne

namespace ShutInv

variable {s : ShutConn}

theorem of_late {b : Bytes} (hfd : s.fd_.isSome → s.fd_ = some s.sockfd_)
    (hbefore : s.before = some b) (h : LateInv s b) : ShutInv s where
  fd := hfd
  early := by
    intro hnone
    rw [hbefore] at hnone
    cases hnone
  late := by
    intro b' hb'
    rw [hbefore] at hb'
    cases hb'
    exact h

theorem create (origin : Origin) (fd : Int) : ShutInv (.create origin fd) where
  fd := by
    cases origin with
    | connect => exact fun _ => rfl
    | attach =>
      intro h
      cases h
  early := fun _ => ⟨outputInv_attach fd, ⟨[], rfl⟩, rfl⟩
  late := by
    intro b h
    cases h

theorem graceful (h : ShutInv s) : Graceful s := by
  cases hbefore : s.before with
  | none =>
    have he := h.early hbefore
    constructor
    · intro b hb
      rw [hbefore] at hb
      cases hb
    · simp [he.shutdowns]
    · intro hcase
      rcases hcase with hconn | hlate
      · exact drains_of_connected hconn (he.output (.inr hconn)).channel
      · rw [hbefore] at hlate
        exact absurd hlate.1 (by decide)
  | some b =>
    have hl := h.late b hbefore
    constructor
    · intro b' hb' d hd
      rw [hbefore] at hb'
      cases hb'
      exact (hl.shutdowns d hd).2
    · intro d hd
      exact (hl.shutdowns d hd).1
    · intro hcase
      rcases hcase with hconn | hlate
      · rw [hl.state] at hconn
        cases hconn
      · rw [hl.drained] at hlate
        exact absurd hlate.2 (by decide)

/-- A send or a write event on the loop thread. -/
theorem out (h : ShutInv s) {ev : OutEvent} (hrs : ∀ r ∈ ev.results, r.isRegular)
    {conn : TcpConn} (hexec : ev.exec s.conn = some conn) :
    ShutInv { s.setConn conn with accepted := s.accepted ++ ev.accepted s.conn } where
  fd := h.fd
  early := by
    intro hbefore
    have he := h.early hbefore
    exact ⟨he.output.exec (not_strands_of_regular s.conn hrs) hexec, he.tasks, he.shutdowns⟩
  late := by
    intro b hb
    have hl := h.late b hb
    have hshaken : s.conn.state_ ≠ .kHandShakeing := by rw [hl.state]; decide
    have hnext := hl.setConn (exec_steady hshaken hexec)
    exact ⟨hnext.state, hnext.channel, hnext.drained, hnext.tasks, hnext.shutdowns⟩

/-- A `Send` on another thread; after `Shutdown` it gives up. -/
theorem sendElsewhere (h : ShutInv s) (message : Bytes) :
    ShutInv (if s.conn.queuesSend then { s with tasks := s.tasks ++ [.send message] } else s) := by
  split
  · next hqueues =>
    have hconn : s.conn.state_ = .kConnected := by simpa [queuesSend] using hqueues
    constructor
    · exact h.fd
    · intro hbefore
      have he := h.early hbefore
      obtain ⟨sends, htasks⟩ := he.tasks
      refine ⟨he.output, ⟨sends ++ [message], ?_⟩, he.shutdowns⟩
      show s.tasks ++ [.send message] = _
      rw [htasks]
      simp [queueOf]
    · intro b hb
      rw [(h.late b hb).state] at hconn
      cases hconn
  · exact h

theorem early_of_connected (h : ShutInv s) (hconn : s.conn.state_ = .kConnected) :
    EarlyInv s := by
  apply h.early
  by_contra hsome
  obtain ⟨b, hb⟩ := Option.ne_none_iff_exists'.mp hsome
  rw [(h.late b hb).state] at hconn
  cases hconn

/-- With nothing queued, everything is written but what waits in the loop. -/
theorem close (h : ShutInv s) (hconn : s.conn.state_ = .kConnected)
    (hempty : s.conn.output_ = []) : LateInv s.close (s.accepted ++ s.waiting) := by
  have he := h.early_of_connected hconn
  have houtput := he.output (.inr hconn)
  have hstream : s.conn.wire ++ s.conn.output_ = s.accepted := houtput.stream
  obtain ⟨sends, htasks⟩ := he.tasks
  constructor
  · rfl
  · exact houtput.channel
  · show s.conn.output_.isEmpty = true
    rw [hempty]
    rfl
  · refine ⟨sends, 0, s.accepted, htasks, ?_, ?_⟩
    · rw [ShutConn.waiting, htasks, flatMap_queueOf]
    · show s.accepted.Sublist s.conn.wire
      rw [← hstream, hempty, List.append_nil]
  · intro d hd
    have hnone : s.close.shutdowns = [] := he.shutdowns
    rw [hnone] at hd
    cases hd

theorem shutdown (h : ShutInv s) {inLoop : Bool} (hok : ShutdownOk s (.shutdown inLoop)) :
    ShutInv (s.shutdown inLoop) := by
  unfold ShutConn.shutdown
  split
  · next hconn =>
    obtain ⟨hempty, hloop⟩ := hok hconn
    have hclosed := h.close hconn hempty
    split
    · next hin =>
      obtain ⟨hnone, hfd⟩ := hloop hin
      exact of_late h.fd rfl (hclosed.shutdownInLoop (h.fd hfd) hnone)
    · exact of_late h.fd rfl hclosed.queueShutdown
  · exact h

/-- The functor of a send from another thread. -/
theorem runSend (h : ShutInv s) {arr message : Bytes} {results : List WriteResult}
    {rest : List LoopTask} {conn : TcpConn} (hok : ShutdownOk s (.runSend arr results))
    (hrs : ∀ r ∈ results, r.isRegular) (htasks : s.tasks = .send message :: rest)
    (hsend : s.conn.sendQueued arr message.length results = .ok (some conn)) :
    ShutInv { s.setConn conn with tasks := rest, accepted := s.accepted ++ message } := by
  obtain ⟨⟨copy, hcopy, hbegins⟩, hlate⟩ := hok message rest htasks
  constructor
  · exact h.fd
  · intro hbefore
    have he := h.early hbefore
    obtain ⟨sends, hsends⟩ := he.tasks
    obtain ⟨sends', -, hrest⟩ := queueOf_eq_send (htasks.symm.trans hsends).symm
    refine ⟨?_, ⟨sends', hrest⟩, he.shutdowns⟩
    intro hlive
    have hlive' : s.conn.Live := by
      unfold Live
      rw [← (sendQueued_steady hsend).state]
      exact hlive
    have houtput := he.output hlive'
    rw [sendQueued_copied houtput.channel hcopy hbegins, Except.ok.injEq] at hsend
    exact sendInLoop_ok (not_strands hrs s.conn message) houtput hsend
  · intro b hb
    have hl := h.late b hb
    have hsome : s.before.isSome := by rw [show s.before = some b from hb]; rfl
    obtain ⟨sends, k, done, hsends, hbytes, hwritten⟩ := hl.tasks
    obtain ⟨sends', heq, hrest⟩ := queueOf_eq_send (htasks.symm.trans hsends).symm
    rw [sendQueued_copied hl.channel hcopy hbegins, Except.ok.injEq] at hsend
    have hs := sendInLoop_steady hsend
    have hnext := hl.setConn hs
    refine ⟨hnext.state, hnext.channel, hnext.drained,
      ⟨sends', k, done ++ message, hrest, ?_, ?_⟩, hnext.shutdowns⟩
    · rw [hbytes, heq, List.flatten_cons, List.append_assoc]
    · show (done ++ message).Sublist conn.wire
      -- By the condition the bytes are written at once, behind those before them.
      by_cases hne : message = []
      · rw [hne, List.append_nil]
        exact hwritten.trans hs.wire.sublist
      · obtain ⟨hempty, hall⟩ := hlate hsome hne
        rw [sendInLoop_whole hl.channel hempty hall hsend]
        exact hwritten.append (List.Sublist.refl _)

theorem runShutdown (h : ShutInv s) {rest : List LoopTask} (hok : ShutdownOk s .runShutdown)
    (htasks : s.tasks = .shutdown :: rest) :
    ShutInv { s with tasks := rest }.shutdownInLoop := by
  obtain hbefore | ⟨b, hbefore⟩ := Option.eq_none_or_eq_some s.before
  · obtain ⟨sends, hsends⟩ := (h.early hbefore).tasks
    obtain ⟨-, k, hk, -⟩ := queueOf_eq_shutdown (htasks.symm.trans hsends).symm
    omega
  · have hl := h.late b hbefore
    obtain ⟨sends, k, done, hsends, hbytes, hwritten⟩ := hl.tasks
    obtain ⟨hnone, k', -, hrest⟩ := queueOf_eq_shutdown (htasks.symm.trans hsends).symm
    have hlate : LateInv { s with tasks := rest } b :=
      ⟨hl.state, hl.channel, hl.drained, ⟨[], k', done, hrest, hnone ▸ hbytes, hwritten⟩,
        hl.shutdowns⟩
    refine of_late h.fd hbefore (hlate.shutdownInLoop (h.fd hok) ?_)
    show rest.flatMap LoopTask.bytes = []
    rw [hrest, flatMap_queueOf]
    rfl

theorem step {origin : Origin} {fd : Int} {s' : ShutConn} {l : ShutEvent} (h : ShutInv s)
    (hok : ShutdownOk s l) (hstep : (shutdownSystem origin fd).step s l s') : ShutInv s' := by
  cases l with
  | out ev =>
    obtain ⟨hrs, conn, hexec, rfl⟩ := hstep
    exact h.out hrs hexec
  | sendElsewhere message =>
    rw [show s' = _ from hstep]
    exact h.sendElsewhere message
  | shutdown inLoop =>
    rw [show s' = _ from hstep]
    exact h.shutdown hok
  | runSend arr results =>
    obtain ⟨hrs, message, rest, conn, htasks, hsend, rfl⟩ := hstep
    exact h.runSend hok hrs htasks hsend
  | runShutdown =>
    obtain ⟨rest, htasks, rfl⟩ := hstep
    exact h.runShutdown hok htasks

/-- The condition on `Shutdown` is needed. -/
theorem shutdownOk_of_graceful (h : ShutInv s) {inLoop : Bool}
    (hgood : Graceful (s.shutdown inLoop)) : ShutdownOk s (.shutdown inLoop) := by
  intro hconn
  have he := h.early_of_connected hconn
  have houtput := he.output (.inr hconn)
  have hstream : s.conn.wire ++ s.conn.output_ = s.accepted := houtput.stream
  rw [ShutConn.shutdown, if_pos hconn] at hgood
  -- Output that is left stays there: the closed connection writes nothing more.
  have hempty : s.conn.output_ = [] := by
    by_contra hne
    have hdrained : s.close.drained = false := by simpa [ShutConn.close] using hne
    have hnot : ¬ s.close.conn.Drains :=
      not_drains_of_closed (c := s.close.conn) rfl houtput.channel hne
    split at hgood
    · exact hnot (hgood.drains (.inr ⟨rfl, hdrained⟩))
    · exact hnot (hgood.drains (.inr ⟨rfl, hdrained⟩))
  refine ⟨hempty, ?_⟩
  intro hin
  rw [if_pos hin] at hgood
  have hcall : ⟨s.fd_, s.conn.wire⟩ ∈ s.close.shutdownInLoop.shutdowns :=
    List.mem_append_right _ (List.mem_singleton_self _)
  have hwritten : (s.accepted ++ s.waiting).Sublist s.conn.wire :=
    hgood.written _ rfl _ hcall
  have hfd : s.fd_ = some s.sockfd_ := hgood.own _ hcall
  rw [← hstream, hempty, List.append_nil] at hwritten
  have hlen := hwritten.length_le
  rw [List.length_append] at hlen
  exact ⟨List.length_eq_zero_iff.mp (by omega), by rw [hfd]; rfl⟩

end ShutInv

/-! ## Main theorem -/

/-- **Shutdown is graceful** in every run whose steps meet the condition; and
    a call of `Shutdown` that does not meet it is not. -/
theorem shutdown_graceful_iff (origin : Origin) (fd : Int) (s : ShutConn)
    (hs : ((shutdownSystem origin fd).restrict ShutdownOk).Reachable s) :
    Graceful s ∧ ∀ inLoop, Graceful (s.shutdown inLoop) ↔ ShutdownOk s (.shutdown inLoop) := by
  have hinv : ShutInv s := by
    refine LTS.System.invariant ?_ ?_ s hs
    · intro s hinit
      rw [hinit]
      exact ShutInv.create origin fd
    · intro s l s' hinv hstep
      exact hinv.step hstep.1 hstep.2
  refine ⟨hinv.graceful, ?_⟩
  intro inLoop
  constructor
  · exact hinv.shutdownOk_of_graceful
  · intro hok
    exact (hinv.shutdown hok).graceful

/-- A connection on descriptor 5 after its handshake. -/
def openConn (origin : Origin) : ShutConn :=
  { ShutConn.create origin 5 with
    conn := ⟨.kConnected, [], some ⟨5, 7#16⟩, []⟩
    drained := true }

/-- The same after two bytes were sent and `Shutdown` was called. -/
def closingConn (wire : Bytes) (tasks : List LoopTask) (shutdowns : List ShutdownCall) :
    ShutConn :=
  { openConn .connect with
    conn := ⟨.kClosed, [], some ⟨5, 7#16⟩, wire⟩
    accepted := wire
    tasks
    before := some [104, 105]
    shutdowns }

/-- The second byte is sent on another thread and still waits in the loop when
    `Shutdown` is called there. -/
theorem shutdown_graceful_sent :
    Graceful (closingConn [104, 105] [] [⟨some 5, [104, 105]⟩]) := by
  let sys := (shutdownSystem .connect 5).restrict ShutdownOk
  have h0 : sys.Reachable (.create .connect 5) := .start rfl
  have h1 : sys.Reachable (openConn .connect) :=
    .next (.out (.handleWrite ⟨1, POLLOUT⟩ [])) h0 ⟨trivial, by decide, _, rfl, rfl⟩
  have h2 : sys.Reachable { openConn .connect with
      conn := ⟨.kConnected, [], some ⟨5, 7#16⟩, [104]⟩, accepted := [104] } :=
    .next (.out (.send [104] [.count 1])) h1 ⟨trivial, by decide, _, rfl, rfl⟩
  have h3 : sys.Reachable { openConn .connect with
      conn := ⟨.kConnected, [], some ⟨5, 7#16⟩, [104]⟩, accepted := [104],
      tasks := [.send [105]] } :=
    .next (.sendElsewhere [105]) h2 ⟨trivial, rfl⟩
  have h4 : sys.Reachable (closingConn [104] [.send [105], .shutdown] []) :=
    .next (.shutdown false) h3 ⟨fun _ => ⟨rfl, fun h => absurd h (by decide)⟩, rfl⟩
  have hok : ShutdownOk (closingConn [104] [.send [105], .shutdown] [])
      (.runSend [105, 0] [.count 1]) := by
    intro message rest htasks
    cases htasks
    exact ⟨⟨[105], rfl, by decide⟩, fun _ _ => ⟨rfl, rfl⟩⟩
  have h5 : sys.Reachable (closingConn [104, 105] [.shutdown] []) :=
    .next (.runSend [105, 0] [.count 1]) h4 ⟨hok, by decide, _, _, _, rfl, rfl, rfl⟩
  have h6 : sys.Reachable (closingConn [104, 105] [] [⟨some 5, [104, 105]⟩]) :=
    .next .runShutdown h5 ⟨rfl, _, rfl, rfl⟩
  exact (shutdown_graceful_iff .connect 5 _ h6).1

/-- A byte that the kernel has not taken is lost, and an accepted connection shuts
    down what its memory happens to name. -/
theorem shutdown_not_graceful :
    (∃ s, (shutdownSystem .connect 5).Reachable s ∧ s.before = some [104] ∧
      s.shutdowns = [⟨some 5, []⟩] ∧ s.conn.output_ = [104] ∧ ¬ Graceful s) ∧
    ∃ s, (shutdownSystem .attach 5).Reachable s ∧ s.before = some [] ∧
      s.shutdowns = [⟨none, []⟩] ∧ ¬ Graceful s := by
  have hopen : ∀ origin, (shutdownSystem origin 5).Reachable (openConn origin) := by
    intro origin
    exact .next (.out (.handleWrite ⟨1, POLLOUT⟩ [])) (.start rfl) ⟨by decide, _, rfl, rfl⟩
  constructor
  · have h1 : (shutdownSystem .connect 5).Reachable { openConn .connect with
        conn := ⟨.kConnected, [104], some ⟨5, 7#16⟩, []⟩, accepted := [104] } :=
      .next (.out (.send [104] [.eagain])) (hopen .connect) ⟨by decide, _, rfl, rfl⟩
    refine ⟨_, .next (.shutdown true) h1 rfl, rfl, rfl, rfl, ?_⟩
    intro hgood
    have hlost := hgood.written [104] rfl ⟨some 5, []⟩ (List.mem_singleton_self _)
    exact absurd hlost.length_le (by decide)
  · refine ⟨_, .next (.shutdown true) (hopen .attach) rfl, rfl, rfl, ?_⟩
    intro hgood
    have hown := hgood.own ⟨none, []⟩ (List.mem_singleton_self _)
    cases hown

end JNet
