import JNet.Lib.LTS
import JNet.Lib.Memory
import Mathlib.Data.Int.CardIntervalMod

/-! # `jnet::EventLoopPool`

    The loops of a server (`net/eventloop_pool.cc`), and how `TcpServer::HandleAccept`
    (`net/tcpserver.cc`) deals its connections out to them.  A call of `HandleAccept` is
    given the sockets that `accept` returns before it fails.

    `posted` records the connections put into `conns_`, each with the loop its `Attach`
    was posted to; `lost` the sockets for which nothing more is done.
-/

namespace JNet

open Memory

/-! ## The pool -/

structure EventLoopPool (Loop : Type) where
  baseLoop_ : Loop
  numThreads_ : Int := 0
  started_ : Bool := false
  next_ : Nat := 0
  loops_ : List Loop := []

namespace EventLoopPool

variable {Loop : Type}

def setThreadNum (p : EventLoopPool Loop) (num : Int) : EventLoopPool Loop :=
  { p with numThreads_ := num }

/-- `Start`; `newLoop i` is the loop of thread `i`. -/
def start (p : EventLoopPool Loop) (newLoop : Nat → Loop) : Except Fault (EventLoopPool Loop) :=
  if p.started_ then .error .assertion
  else .ok { p with
    started_ := true
    loops_ := p.loops_ ++ (List.range p.numThreads_.toNat).map newLoop }

def getNextLoop (p : EventLoopPool Loop) : Except Fault (Loop × EventLoopPool Loop) :=
  if p.started_ then
    if p.loops_.isEmpty then .ok (p.baseLoop_, p)
    else
      match p.loops_[p.next_]? with
      | some loop =>
        let next := p.next_ + 1
        .ok (loop, { p with next_ := if next ≥ p.loops_.length then 0 else next })
      | none => .error .outOfBounds
  else .error .assertion

def getAllLoops (p : EventLoopPool Loop) : Except Fault (List Loop) :=
  if p.started_ then .ok (if p.loops_.isEmpty then [p.baseLoop_] else p.loops_)
  else .error .assertion

end EventLoopPool

/-! ## Accepting connections -/

/-- A socket that `accept` has returned, and what is then called for it. -/
structure AcceptedSocket where
  cfd : Int
  /-- `getpeername` succeeds. -/
  peer : Bool
  /-- `getsockname` succeeds. -/
  sock : Bool
  deriving DecidableEq, Repr

/-- Both names are known. -/
def AcceptedSocket.named (a : AcceptedSocket) : Bool := a.peer && a.sock

structure Acceptor (Loop : Type) where
  lfd : Int
  threadPool_ : EventLoopPool Loop
  posted : List (Int × Loop) := []
  lost : List Int := []

namespace Acceptor

variable {Loop : Type}

/-- One round of the loop of `HandleAccept`. -/
def acceptOne (s : Acceptor Loop) (a : AcceptedSocket) : Except Fault (Acceptor Loop) :=
  if ¬ a.peer then .ok { s with lost := s.lost ++ [a.cfd] }
  else if ¬ a.sock then .ok { s with lost := s.lost ++ [a.cfd] }
  else do
    let (ioLoop, pool) ← s.threadPool_.getNextLoop
    return { s with threadPool_ := pool, posted := s.posted ++ [(a.cfd, ioLoop)] }

def handleAccept (s : Acceptor Loop) (accepted : List AcceptedSocket) :
    Except Fault (Acceptor Loop) :=
  if s.lfd ≥ 0 then accepted.foldlM acceptOne s else .ok s

/-- How many connections a loop has. -/
def load [DecidableEq Loop] (s : Acceptor Loop) (loop : Loop) : Nat :=
  s.posted.countP fun p => p.2 = loop

end Acceptor

/-! ## Round robin -/

section dealt

variable {Loop : Type}

/-- The loop that comes after `k` others. -/
def EventLoopPool.turn (p : EventLoopPool Loop) (k : Nat) : Loop :=
  (p.loops_[k % p.loops_.length]?).getD p.baseLoop_

/-- What has been dealt out, `used` being the sockets so far. -/
structure DealtInv (base : EventLoopPool Loop) (s : Acceptor Loop) (used : List AcceptedSocket) :
    Prop where
  started : s.threadPool_.started_ = true
  loops : s.threadPool_.loops_ = base.loops_
  baseLoop : s.threadPool_.baseLoop_ = base.baseLoop_
  next : base.loops_ ≠ [] → s.threadPool_.next_ = s.posted.length % base.loops_.length
  posted : s.posted = (((used.filter AcceptedSocket.named).map AcceptedSocket.cfd).zipIdx).map
    fun p => (p.1, base.turn p.2)
  lost : s.lost = (used.filter fun a => !a.named).map AcceptedSocket.cfd

namespace DealtInv

variable {base : EventLoopPool Loop} {s : Acceptor Loop} {used : List AcceptedSocket}

theorem length_posted (h : DealtInv base s used) :
    s.posted.length = ((used.filter AcceptedSocket.named).map AcceptedSocket.cfd).length := by
  rw [h.posted]
  simp

/-- `GetNextLoop` gives the loop whose turn it is. -/
theorem getNextLoop (h : DealtInv base s used) :
    ∃ pool, s.threadPool_.getNextLoop = .ok (base.turn s.posted.length, pool) ∧
      pool.started_ = true ∧ pool.loops_ = base.loops_ ∧ pool.baseLoop_ = base.baseLoop_ ∧
      (base.loops_ ≠ [] → pool.next_ = (s.posted.length + 1) % base.loops_.length) := by
  by_cases hempty : base.loops_ = []
  · refine ⟨s.threadPool_, ?_, h.started, h.loops, h.baseLoop, fun hne => absurd hempty hne⟩
    rw [EventLoopPool.getNextLoop, if_pos h.started, h.loops, hempty,
      if_pos (show ([] : List Loop).isEmpty = true from rfl), EventLoopPool.turn, hempty,
      h.baseLoop]
    rfl
  · have hpos : 0 < base.loops_.length := List.length_pos_iff.mpr hempty
    have hlt : s.posted.length % base.loops_.length < base.loops_.length := Nat.mod_lt _ hpos
    have hget : base.loops_[s.posted.length % base.loops_.length]? =
        some (base.turn s.posted.length) := by
      rw [EventLoopPool.turn, List.getElem?_eq_getElem hlt]
      rfl
    refine ⟨{ s.threadPool_ with
      loops_ := base.loops_
      next_ := if s.posted.length % base.loops_.length + 1 ≥ base.loops_.length then 0
        else s.posted.length % base.loops_.length + 1 }, ?_, h.started, rfl, h.baseLoop, ?_⟩
    · rw [EventLoopPool.getNextLoop, if_pos h.started, h.loops, h.next hempty,
        if_neg (by simpa using hempty), hget]
    · intro _
      show (if s.posted.length % base.loops_.length + 1 ≥ base.loops_.length then 0
        else s.posted.length % base.loops_.length + 1) = _
      rw [← Nat.mod_add_mod]
      split
      · next hwrap =>
        rw [show s.posted.length % base.loops_.length + 1 = base.loops_.length by omega,
          Nat.mod_self]
      · next hwrap => exact (Nat.mod_eq_of_lt (not_le.mp hwrap)).symm

theorem acceptOne (h : DealtInv base s used) (a : AcceptedSocket) :
    ∃ s', s.acceptOne a = .ok s' ∧ s'.lfd = s.lfd ∧ DealtInv base s' (used ++ [a]) := by
  have hlength := h.length_posted
  cases hnamed : a.named with
  | true =>
    obtain ⟨hpeer, hsock⟩ : a.peer = true ∧ a.sock = true := by
      simpa [AcceptedSocket.named] using hnamed
    obtain ⟨pool, hnext, hstarted, hloops, hbase, hturn⟩ := h.getNextLoop
    refine ⟨{ s with
      threadPool_ := pool
      posted := s.posted ++ [(a.cfd, base.turn s.posted.length)] }, ?_, rfl, ?_⟩
    · rw [Acceptor.acceptOne, if_neg (by simp [hpeer]), if_neg (by simp [hsock]), bind_of_ok hnext]
      rfl
    · constructor
      · exact hstarted
      · exact hloops
      · exact hbase
      · intro hne
        rw [List.length_append, List.length_singleton]
        exact hturn hne
      · show s.posted ++ [(a.cfd, base.turn s.posted.length)] = _
        rw [List.filter_append, List.map_append, List.zipIdx_append, List.map_append, ← h.posted,
          hlength]
        simp [hnamed]
      · show s.lost = _
        rw [h.lost, List.filter_append]
        simp [hnamed]
  | false =>
    refine ⟨{ s with lost := s.lost ++ [a.cfd] }, ?_, rfl, ?_⟩
    · -- An address is not to be had: `HandleAccept` goes on without closing the descriptor.
      rw [Acceptor.acceptOne]
      split
      · rfl
      · next hpeer =>
        have hsock : ¬ a.sock = true := by
          intro hsock
          rw [AcceptedSocket.named, hsock, Bool.and_true] at hnamed
          rw [hnamed] at hpeer
          exact hpeer Bool.false_ne_true
        rw [if_pos hsock]
    · constructor
      · exact h.started
      · exact h.loops
      · exact h.baseLoop
      · exact h.next
      · show s.posted = _
        rw [h.posted, List.filter_append]
        simp [hnamed]
      · show s.lost ++ [a.cfd] = _
        rw [h.lost, List.filter_append]
        simp [hnamed]

theorem foldlM_acceptOne (h : DealtInv base s used) (accepted : List AcceptedSocket) :
    ∃ s', accepted.foldlM Acceptor.acceptOne s = .ok s' ∧ s'.lfd = s.lfd ∧
      DealtInv base s' (used ++ accepted) := by
  induction accepted generalizing s used with
  | nil =>
    refine ⟨s, rfl, rfl, ?_⟩
    rw [List.append_nil]
    exact h
  | cons a rest ih =>
    obtain ⟨s₁, hone, hlfd, h₁⟩ := h.acceptOne a
    obtain ⟨s₂, hrest, hlfd', h₂⟩ := ih h₁
    refine ⟨s₂, ?_, hlfd'.trans hlfd, ?_⟩
    · rw [List.foldlM_cons, bind_of_ok hone]
      exact hrest
    · rw [List.append_assoc, List.singleton_append] at h₂
      exact h₂

theorem run (h : DealtInv base s used) (hlfd : 0 ≤ s.lfd) (calls : List (List AcceptedSocket)) :
    ∃ s', LTS.run Acceptor.handleAccept s calls = .ok s' ∧
      DealtInv base s' (used ++ calls.flatten) := by
  induction calls generalizing s used with
  | nil =>
    refine ⟨s, rfl, ?_⟩
    rw [List.flatten_nil, List.append_nil]
    exact h
  | cons accepted rest ih =>
    obtain ⟨s₁, hone, hlfd₁, h₁⟩ := h.foldlM_acceptOne accepted
    obtain ⟨s₂, hrest, h₂⟩ := ih h₁ (by rw [hlfd₁]; exact hlfd)
    refine ⟨s₂, ?_, ?_⟩
    · have hcall : s.handleAccept accepted = .ok s₁ := by
        rw [Acceptor.handleAccept, if_pos hlfd]
        exact hone
      rw [LTS.run_cons, bind_of_ok hcall]
      exact hrest
    · rw [List.flatten_cons, ← List.append_assoc]
      exact h₂

/-- The load of a loop: its share of the full rounds, and one more if it has been served in the
    current one. -/
theorem load_eq [DecidableEq Loop] (h : DealtInv base s used) (hnodup : base.loops_.Nodup) {j : Nat}
    (hj : j < base.loops_.length) :
    s.load base.loops_[j] = s.posted.length / base.loops_.length +
      if j < s.posted.length % base.loops_.length then 1 else 0 := by
  have hturn : ∀ k, base.turn k = base.loops_[j] ↔ k ≡ j [MOD base.loops_.length] := by
    intro k
    have hk : k % base.loops_.length < base.loops_.length := Nat.mod_lt _ (by omega)
    rw [EventLoopPool.turn, List.getElem?_eq_getElem hk, Option.getD_some,
      hnodup.getElem_inj_iff, Nat.ModEq, Nat.mod_eq_of_lt hj]
  have hcount : s.load base.loops_[j] =
      Nat.count (· ≡ j [MOD base.loops_.length]) s.posted.length := by
    rw [Acceptor.load, h.length_posted, Nat.count, h.posted, List.countP_map]
    rw [List.range_eq_range', ← List.zipIdx_map_snd 0, List.countP_map]
    apply List.countP_congr
    intro p _
    simp [hturn]
  rw [hcount, Nat.count_modEq_card _ (by omega), Nat.mod_eq_of_lt hj]

end DealtInv

end dealt

/-- **Dealing connections out**: in every sequence of calls of `HandleAccept` on a started
    pool, the sockets whose names are found are put into `conns_` in the order they were
    accepted, each attached to the loop whose turn it is; so the loads of two loops differ by
    at most one.  The other sockets are left open and forgotten. -/
theorem accepted_round_robin {Loop : Type} [DecidableEq Loop] (baseLoop : Loop) (num : Int)
    (newLoop : Nat → Loop) (hnew : Function.Injective newLoop) (lfd : Int) (hlfd : 0 ≤ lfd)
    (calls : List (List AcceptedSocket)) :
    ∃ pool s, (EventLoopPool.setThreadNum { baseLoop_ := baseLoop } num).start newLoop = .ok pool ∧
      LTS.run Acceptor.handleAccept { lfd := lfd, threadPool_ := pool } calls = .ok s ∧
      s.posted = (((calls.flatten.filter AcceptedSocket.named).map AcceptedSocket.cfd).zipIdx).map
        (fun p => (p.1, pool.turn p.2)) ∧
      s.lost = (calls.flatten.filter fun a => !a.named).map AcceptedSocket.cfd ∧
      ∀ loops, pool.getAllLoops = .ok loops → ∀ a ∈ loops, ∀ b ∈ loops,
        s.load a ≤ s.load b + 1 := by
  have hstart : (EventLoopPool.setThreadNum { baseLoop_ := baseLoop } num).start newLoop =
      .ok { baseLoop_ := baseLoop, numThreads_ := num, started_ := true, next_ := 0,
            loops_ := (List.range num.toNat).map newLoop } := by
    rw [EventLoopPool.start, EventLoopPool.setThreadNum, if_neg Bool.false_ne_true,
      List.nil_append]
  have hnodup : ((List.range num.toNat).map newLoop).Nodup :=
    List.nodup_range.map hnew
  let pool : EventLoopPool Loop :=
    { baseLoop_ := baseLoop, numThreads_ := num, started_ := true, next_ := 0,
      loops_ := (List.range num.toNat).map newLoop }
  have hfirst : DealtInv pool { lfd := lfd, threadPool_ := pool } [] := by
    refine ⟨rfl, rfl, rfl, ?_, rfl, rfl⟩
    intro _
    exact (Nat.zero_mod _).symm
  obtain ⟨s, hrun, h⟩ := hfirst.run hlfd calls
  rw [List.nil_append] at h
  refine ⟨pool, s, hstart, hrun, h.posted, h.lost, ?_⟩
  intro loops hloops a ha b hb
  rw [EventLoopPool.getAllLoops, if_pos rfl] at hloops
  by_cases hempty : pool.loops_ = []
  · -- Without threads all connections are on the base loop.
    rw [hempty, if_pos (show ([] : List Loop).isEmpty = true from rfl)] at hloops
    cases hloops
    rw [List.mem_singleton.mp ha, List.mem_singleton.mp hb]
    omega
  · rw [if_neg (by simpa using hempty)] at hloops
    cases hloops
    obtain ⟨i, hi, rfl⟩ := List.getElem_of_mem ha
    obtain ⟨j, hj, rfl⟩ := List.getElem_of_mem hb
    rw [h.load_eq hnodup hi, h.load_eq hnodup hj]
    split <;> split <;> omega

/-- Two threads, three connections in two calls, and a peer that is gone before its name is
    asked for. -/
theorem accepted_round_robin_three :
    ∃ pool s, (EventLoopPool.setThreadNum { baseLoop_ := 0 } 2).start Nat.succ = .ok pool ∧
      LTS.run Acceptor.handleAccept { lfd := 3, threadPool_ := pool }
        [[⟨5, true, true⟩, ⟨6, false, true⟩], [⟨7, true, true⟩, ⟨8, true, true⟩]] = .ok s ∧
      s.posted = [(5, 1), (7, 2), (8, 1)] ∧ s.lost = [6] := by
  obtain ⟨pool, s, hstart, hrun, hposted, hlost, -⟩ := accepted_round_robin 0 2 Nat.succ
    Nat.succ_injective 3 (by decide)
    [[⟨5, true, true⟩, ⟨6, false, true⟩], [⟨7, true, true⟩, ⟨8, true, true⟩]]
  refine ⟨pool, s, hstart, hrun, ?_, hlost⟩
  have hpool : pool = ⟨0, 2, true, 0, [1, 2]⟩ := by
    have hloops : (EventLoopPool.setThreadNum { baseLoop_ := 0 } 2).start Nat.succ =
        .ok ⟨0, 2, true, 0, [1, 2]⟩ := rfl
    rw [hloops] at hstart
    exact (Except.ok.inj hstart).symm
  rw [hposted, hpool]
  rfl

end JNet
