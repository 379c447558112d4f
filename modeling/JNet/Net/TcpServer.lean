import JNet.Net.Connection
import Mathlib.Logic.Function.Basic

/-! # `jnet::TcpServer`

    `HandleAccept` (`net/tcpserver.cc`) runs on the server's own loop: it makes a
    connection object, puts it into `conns_`, posts `Attach` to one of the I/O
    loops and only then sets the callbacks.  The I/O loops run what was posted
    and handle the events of their connections meanwhile.  Without I/O threads
    there is one loop, `Attach` runs inline, and no event is handled before
    `HandleAccept` returns.

    No create callback is set.  Connections are numbered; `ended` and `reads`
    record the connections whose descriptor was closed and the read events.
-/

namespace JNet

/-! ## State -/

/-- What `HandleAccept` still has to do for the connection it has posted. -/
inductive AcceptPc where
  | onState
  | onRead
  deriving DecidableEq, Repr

/-- A call of `HandleRead`: the connection it found, and what its calls returned. -/
structure ReadEvent where
  conn : Connection
  answers : ReadAnswers
  /-- `HandleAccept` had not returned for the connection yet. -/
  early : Bool
  deriving DecidableEq, Repr

structure TcpServer where
  /-- The callbacks that `OnConnState` and `OnConnRead` have set. -/
  statecb_ : Bool
  readcb_ : Bool
  /-- The connection objects. -/
  conn : Nat → Option Connection
  conns_ : List Nat
  /-- `next_` of the pool of loops. -/
  next_ : Nat
  /-- The connection in `HandleAccept`. -/
  accepting : Option (Nat × AcceptPc)
  /-- The `Attach` functors posted to each loop, with their descriptors. -/
  pending : Nat → List (Nat × Int)
  ended : List Nat
  reads : List ReadEvent

namespace Connection

/-- `std::make_shared<TcpConn>()`; `state_` is not initialised. -/
def create : Connection where
  state_ := .kInvalid
  output_ := []
  channel_ := none
  wire := []
  input_ := []
  readcb_ := false
  statecb_ := false
  revents_ := 0
  calls := []

/-- `Attach` of an object whose callbacks may be set already. -/
def attachTo (c : Connection) (fd : Int) : Connection :=
  { c with
    state_ := .kHandShakeing
    channel_ := some { fd_ := fd, events_ := Channel.kWriteEvent ||| Channel.kReadEvent } }

/-- The descriptor is open and registered with the poller. -/
def isOpen (c : Connection) : Bool := c.channel_.any (·.fd_ ≥ 0)

end Connection

namespace TcpServer

def create (statecb_ readcb_ : Bool) : TcpServer where
  statecb_ := statecb_
  readcb_ := readcb_
  conn := fun _ => none
  conns_ := []
  next_ := 0
  accepting := none
  pending := fun _ => []
  ended := []
  reads := []

def setConn (s : TcpServer) (i : Nat) (c : Connection) : TcpServer :=
  { s with conn := Function.update s.conn i (some c) }

/-- `HandleAccept` has not returned for connection `i`. -/
def early (s : TcpServer) (i : Nat) : Bool := s.accepting.any (·.1 = i)

/-- `HandleAccept` up to `RunInLoop`, with `loops` I/O threads: `GetNextLoop` goes round. -/
def accept (loops : Nat) (s : TcpServer) (i : Nat) (fd : Int) : TcpServer :=
  let s := { s with conns_ := i :: s.conns_, accepting := some (i, .onState) }
  if loops = 0 then s.setConn i (Connection.create.attachTo fd)
  else
    let k := s.next_
    { s.setConn i Connection.create with
      next_ := if k + 1 ≥ loops then 0 else k + 1
      pending := Function.update s.pending k (s.pending k ++ [(i, fd)]) }

/-- A handler of connection `i` has turned `c` into `c'`. -/
def handled (s : TcpServer) (i : Nat) (c c' : Connection) : TcpServer :=
  { s.setConn i c' with ended := if c.isOpen && !c'.isOpen then i :: s.ended else s.ended }

variable {s : TcpServer} {i j : Nat} {c d : Connection}

theorem setConn_of_ne (hj : j ≠ i) : (s.setConn i c).conn j = s.conn j :=
  Function.update_of_ne hj _ _

theorem setConn_cases (h : (s.setConn i c).conn j = some d) :
    (j = i ∧ d = c) ∨ (j ≠ i ∧ s.conn j = some d) := by
  obtain ⟨hj, hc⟩ | hother := Memory.update_eq_some h
  · exact .inl ⟨hj, (Option.some.inj hc).symm⟩
  · exact .inr hother

end TcpServer

/-! ## Runs -/

inductive ServerLabel where
  /-- `accept` has returned `fd`; the new object is number `i`. -/
  | accept (i : Nat) (fd : Int)
  | onState
  | onRead
  /-- Loop `k` runs an `Attach`. -/
  | attach (k : Nat)
  | read (i : Nat) (a : ReadAnswers)
  | write (i : Nat) (a : WriteAnswers)
  /-- The connect timeout or a `Close()` from elsewhere reaches the loop. -/
  | close (i : Nat)

/-- The accepting thread and the I/O loops, in any order.  Without I/O threads they are one
    thread, which handles no event while it is in `HandleAccept`. -/
def serverSystem (loops : Nat) (statecb_ readcb_ : Bool) : LTS.System TcpServer ServerLabel where
  init := fun s => s = TcpServer.create statecb_ readcb_
  step := fun s l s' =>
    match l with
    | .accept i fd =>
        s.accepting = none ∧ s.conn i = none ∧ 0 ≤ fd ∧ s' = s.accept loops i fd
    | .onState =>
        ∃ i c, s.accepting = some (i, .onState) ∧ s.conn i = some c ∧
        s' = { s.setConn i { c with statecb_ := s.statecb_ || c.statecb_ } with
          accepting := some (i, .onRead) }
    | .onRead =>
        ∃ i c, s.accepting = some (i, .onRead) ∧ s.conn i = some c ∧
        s' = { s.setConn i { c with readcb_ := s.readcb_ || c.readcb_ } with accepting := none }
    | .attach k =>
        ∃ i fd rest c, s.pending k = (i, fd) :: rest ∧ s.conn i = some c ∧
        s' = { s.setConn i (c.attachTo fd) with pending := Function.update s.pending k rest }
    | .read i a =>
        (loops = 0 → s.accepting = none) ∧
        ∃ c c', s.conn i = some c ∧ c.isOpen = true ∧ c.handleRead a = .ok c' ∧
        s' = { s.handled i c c' with
          reads := s.reads ++ [⟨c, a, s.early i⟩] }
    | .write i a =>
        (loops = 0 → s.accepting = none) ∧
        ∃ c c', s.conn i = some c ∧ c.isOpen = true ∧ c.handleWrite a = .ok c' ∧
        s' = s.handled i c c'
    | .close i =>
        (loops = 0 → s.accepting = none) ∧
        ∃ c, s.conn i = some c ∧ c.channel_.isSome = true ∧ s' = s.handled i c c.close

/-! ## The end of a connection -/

/-- A connection that has ended is not connected, has no callbacks and is not in `conns_`; one
    that is connected is open. -/
structure EndsOk (s : TcpServer) : Prop where
  ended : ∀ i ∈ s.ended, ∀ c, s.conn i = some c →
    (c.state_ = .kClosed ∨ c.state_ = .kFailed) ∧ c.readcb_ = false ∧ c.statecb_ = false ∧
      i ∉ s.conns_
  connected : ∀ i c, s.conn i = some c → c.state_ = .kConnected → c.isOpen = true

/-- `conns_` never loses a connection. -/
structure ServerInv (s : TcpServer) : Prop where
  member : ∀ i c, s.conn i = some c → i ∈ s.conns_
  ended : ∀ i ∈ s.ended, s.conn i ≠ none
  connected : ∀ i c, i ∉ s.ended → s.conn i = some c → c.state_ = .kConnected → c.isOpen = true

namespace ServerInv

variable {s s' : TcpServer} {i : Nat} {c : Connection}

/-- A step that touches connection `i` only. -/
theorem change (h : ServerInv s) (c' : Connection)
    (hconn : s'.conn = Function.update s.conn i (some c'))
    (hconns : ∀ j, j = i ∨ j ∈ s.conns_ → j ∈ s'.conns_)
    (hended : ∀ j ∈ s'.ended, j = i ∨ j ∈ s.ended) (hkeep : ∀ j ∈ s.ended, j ∈ s'.ended)
    (hopen : i ∉ s'.ended → c'.state_ = .kConnected → c'.isOpen = true) : ServerInv s' := by
  have hcases : ∀ j d, s'.conn j = some d → (j = i ∧ d = c') ∨ (j ≠ i ∧ s.conn j = some d) := by
    intro j d hd
    rw [hconn] at hd
    exact TcpServer.setConn_cases hd
  constructor
  · intro j d hd
    obtain ⟨rfl, -⟩ | ⟨-, hd⟩ := hcases j d hd
    · exact hconns _ (.inl rfl)
    · exact hconns _ (.inr (h.member j d hd))
  · intro j hj
    rw [hconn]
    by_cases hji : j = i
    · simp [hji]
    · rw [Function.update_of_ne hji]
      exact h.ended j ((hended j hj).resolve_left hji)
  · intro j d hj hd
    obtain ⟨rfl, rfl⟩ | ⟨-, hd⟩ := hcases j d hd
    · exact hopen hj
    · exact h.connected j d (fun hmem => hj (hkeep j hmem)) hd

/-- A change of a connection outside its handlers. -/
theorem set (h : ServerInv s) (c' : Connection) (hc : s.conn i = some c)
    (hconn : s'.conn = Function.update s.conn i (some c')) (hconns : s'.conns_ = s.conns_)
    (hended : s'.ended = s.ended)
    (hopen : i ∉ s.ended → c'.state_ = .kConnected → c'.isOpen = true) : ServerInv s' := by
  refine h.change c' hconn ?_ ?_ ?_ ?_
  · rw [hconns]
    intro j hj
    obtain rfl | hj := hj
    · exact h.member j c hc
    · exact hj
  · rw [hended]
    exact fun j hj => .inr hj
  · rw [hended]
    exact fun j hj => hj
  · rwa [hended]

/-- A handler either leaves the connection open or ends it. -/
theorem handled (h : ServerInv s) {c' : Connection} (hc : s.conn i = some c)
    (hstate : c.isOpen = false → i ∉ s.ended → c'.state_ = .kConnected → c'.isOpen = true) :
    ServerInv (s.handled i c c') := by
  have hmem : ∀ j ∈ s.ended, j ∈ (s.handled i c c').ended := by
    intro j hj
    unfold TcpServer.handled
    dsimp only
    split
    · exact List.mem_cons_of_mem _ hj
    · exact hj
  refine h.change c' rfl ?_ ?_ hmem ?_
  · intro j hj
    obtain rfl | hj := hj
    · exact h.member j c hc
    · exact hj
  · intro j hj
    unfold TcpServer.handled at hj
    dsimp only at hj
    split at hj
    · exact List.mem_cons.mp hj
    · exact .inr hj
  · intro hnot hconnected
    by_cases hopen : c.isOpen = true
    · by_contra hclosed
      have hclosed' : c'.isOpen = false := by simpa using hclosed
      refine hnot ?_
      unfold TcpServer.handled
      simp [hopen, hclosed']
    · exact hstate (by simpa using hopen) (fun hj => hnot (hmem i hj)) hconnected

end ServerInv

theorem serverInv_initial {statecb_ readcb_ : Bool} (loops : Nat) (s : TcpServer)
    (h : (serverSystem loops statecb_ readcb_).init s) : ServerInv s := by
  rw [show s = TcpServer.create statecb_ readcb_ from h]
  constructor <;> simp [TcpServer.create]

theorem serverInv_preserved {loops : Nat} {statecb_ readcb_ : Bool} (s : TcpServer)
    (l : ServerLabel) (s' : TcpServer) (h : ServerInv s)
    (hstep : (serverSystem loops statecb_ readcb_).step s l s') : ServerInv s' := by
  cases l with
  | accept i fd =>
    obtain ⟨-, -, -, rfl⟩ := hstep
    unfold TcpServer.accept
    dsimp only
    split
    -- Without I/O threads `Attach` runs inline.
    · refine h.change (i := i) (Connection.create.attachTo fd) rfl ?_ ?_ ?_ ?_
      · simp [TcpServer.setConn]
      · exact fun j hj => .inr hj
      · exact fun j hj => hj
      · intro _ hconnected
        cases hconnected
    · refine h.change (i := i) Connection.create rfl ?_ ?_ ?_ ?_
      · simp [TcpServer.setConn]
      · exact fun j hj => .inr hj
      · exact fun j hj => hj
      · intro _ hconnected
        cases hconnected
  | onState =>
    obtain ⟨i, c, -, hc, rfl⟩ := hstep
    exact h.set _ hc rfl rfl rfl fun hi hconnected => h.connected i c hi hc hconnected
  | onRead =>
    obtain ⟨i, c, -, hc, rfl⟩ := hstep
    exact h.set _ hc rfl rfl rfl fun hi hconnected => h.connected i c hi hc hconnected
  | attach k =>
    obtain ⟨i, fd, rest, c, -, hc, rfl⟩ := hstep
    refine h.set (c.attachTo fd) hc rfl rfl rfl ?_
    intro _ hconnected
    cases hconnected
  | read i a =>
    obtain ⟨-, c, c', hc, hopen, -, rfl⟩ := hstep
    have hhandled : ServerInv (s.handled i c c') := h.handled hc (by simp [hopen])
    exact ⟨hhandled.member, hhandled.ended, hhandled.connected⟩
  | write i a =>
    obtain ⟨-, c, c', hc, hopen, -, rfl⟩ := hstep
    exact h.handled hc (by simp [hopen])
  | close i =>
    obtain ⟨-, c, hc, -, rfl⟩ := hstep
    -- `Close()` leaves the state; the descriptor it closes was open in `kConnected`.
    refine h.handled hc ?_
    intro hclosed hi hconnected
    rw [h.connected i c hi hc hconnected] at hclosed
    cases hclosed

/-- **The end of a connection is never complete**: a server is in order exactly as long as no
    connection of it has ended. -/
theorem connection_ends_iff (loops : Nat) (statecb_ readcb_ : Bool) (s : TcpServer)
    (hs : (serverSystem loops statecb_ readcb_).Reachable s) : EndsOk s ↔ s.ended = [] := by
  have h := LTS.System.invariant (serverInv_initial loops) serverInv_preserved s hs
  constructor
  · intro hok
    by_contra hne
    -- The one that has ended is still in `conns_`.
    obtain ⟨i, hi⟩ := List.exists_mem_of_ne_nil _ hne
    obtain ⟨c, hc⟩ := Option.ne_none_iff_exists'.mp (h.ended i hi)
    exact (hok.ended i hi c hc).2.2.2 (h.member i c hc)
  · intro hnone
    constructor
    · simp [hnone]
    · intro i c hc
      exact h.connected i c (by simp [hnone]) hc

/-- One connection, accepted and connected. -/
theorem connection_ends_none :
    ∃ s, (serverSystem 0 true true).Reachable s ∧ (s.conn 0).map (·.state_) = some .kConnected ∧
      EndsOk s := by
  have h0 : (serverSystem 0 true true).Reachable (.create true true) := .start rfl
  have h1 := h0.next (.accept 0 5) (by exact ⟨rfl, rfl, by decide, rfl⟩)
  have h2 := h1.next .onState (by exact ⟨0, _, rfl, rfl, rfl⟩)
  have h3 := h2.next .onRead (by exact ⟨0, _, rfl, rfl, rfl⟩)
  have h4 := h3.next (.write 0 ⟨⟨1, POLLOUT⟩, [], ⟨0, false⟩⟩)
    (by exact ⟨fun _ => rfl, _, _, rfl, rfl, rfl, rfl⟩)
  exact ⟨_, h4, rfl, (connection_ends_iff 0 true true _ h4).mpr rfl⟩

/-- A connection that `Close()` has closed says that it is connected. -/
theorem connection_ends_close :
    ¬ ∀ (loops : Nat) (statecb_ readcb_ : Bool) (s : TcpServer),
      (serverSystem loops statecb_ readcb_).Reachable s → EndsOk s := by
  intro hall
  have h0 : (serverSystem 0 true true).Reachable (.create true true) := .start rfl
  have h1 := h0.next (.accept 0 5) (by exact ⟨rfl, rfl, by decide, rfl⟩)
  have h2 := h1.next .onState (by exact ⟨0, _, rfl, rfl, rfl⟩)
  have h3 := h2.next .onRead (by exact ⟨0, _, rfl, rfl, rfl⟩)
  have h4 := h3.next (.write 0 ⟨⟨1, POLLOUT⟩, [], ⟨0, false⟩⟩)
    (by exact ⟨fun _ => rfl, _, _, rfl, rfl, rfl, rfl⟩)
  have h5 := h4.next (.close 0) (by exact ⟨fun _ => rfl, _, rfl, rfl, rfl⟩)
  have hopen := (hall 0 true true _ h5).connected 0 _ rfl rfl
  exact absurd hopen (by decide)

end JNet
