import JNet.Lib.LTS
import JNet.Lib.OrdSet
import Mathlib.Data.Prod.Lex
import Mathlib.Logic.Function.Basic

/-! # `jnet::TimerQueue`

    The timers of one event loop (`net/timerqueue.cc`, `net/timer.cc`): a set of
    pairs of an expiration and a pointer, and a timerfd armed for the first of
    them.  `HandleRead` takes the expired pairs out of the set, runs their
    callbacks, and puts the repeating timers back.

    The callbacks run between `GetExpired` and `Reset` and may add and cancel
    timers, so `HandleRead` is a sequence of steps here.  Pointers are addresses
    in a heap that `new` and `delete` change; a load through a dangling one is a
    fault.  Times are microseconds, unbounded integers where the source has
    `int64_t`.  `log` records what happens to the timers.
-/

namespace JNet

/-! ## Timers -/

structure Timer where
  expiration_ : Int
  /-- What `AddTime` adds for `interval_`, in microseconds. -/
  interval_ : Nat
  repeat_ : Bool
  sequence_ : Nat
  deriving DecidableEq, Repr

/-- `TimeStamp()`, the invalid time. -/
def invalidTime : Int := 0

def Timer.restart (t : Timer) (now : Int) : Timer :=
  { t with expiration_ := if t.repeat_ then now + t.interval_ else invalidTime }

/-- The interval of a repeating timer. -/
def Timer.period (t : Timer) : Option Nat := if t.repeat_ then some t.interval_ else none

/-- An element of `timers_`. -/
structure Entry where
  first : Int
  second : Nat
  deriving DecidableEq, Repr

namespace Entry

/-- The order of `std::pair`. -/
instance : LinearOrder Entry :=
  LinearOrder.lift' (fun e => toLex (e.first, e.second)) (by
    intro a b h
    cases a
    cases b
    simpa using h)

theorem lt_iff {a b : Entry} :
    a < b ↔ a.first < b.first ∨ a.first = b.first ∧ a.second < b.second :=
  Prod.Lex.toLex_lt_toLex

theorem le_iff {a b : Entry} :
    a ≤ b ↔ a.first < b.first ∨ a.first = b.first ∧ a.second ≤ b.second :=
  Prod.Lex.toLex_le_toLex

end Entry

/-- What happens to the timers, by their sequence numbers. -/
inductive TimerEvent where
  | added (seq : Nat) (expiration : Int) (period : Option Nat)
  /-- A callback was called, for this element of `timers_`, by a `HandleRead` at
      time `now`. -/
  | ran (seq : Nat) (entry : Entry) (now : Int)
  | rearmed (seq : Nat) (expiration : Int)
  | cancelled (seq : Nat)
  /-- A `HandleRead` at time `now` returned: what was in `timers_` when it was
      called, and the elements whose callbacks it has called. -/
  | handled (now : Int) (start fired : List Entry)
  deriving DecidableEq, Repr

/-! ## The timerfd -/

structure Timespec where
  tv_sec : Int
  tv_nsec : Int
  deriving DecidableEq, Repr

def kMicroSecondsPerSecond : Int := 1000 * 1000

/-- `HowMuchTimeFromNow(when)`, called at time `now`. -/
def howMuchTimeFromNow (time now : Int) : Timespec :=
  let microseconds := time - now
  let microseconds := if microseconds < 100 then 100 else microseconds
  { tv_sec := microseconds.tdiv kMicroSecondsPerSecond
    tv_nsec := microseconds.tmod kMicroSecondsPerSecond * 1000 }

/-- A setting of the timerfd that has not been read yet. -/
structure Arming where
  armedAt : Int
  value : Timespec
  deriving DecidableEq, Repr

/-- When the timerfd becomes readable, in nanoseconds. -/
def Arming.deadline (a : Arming) : Int :=
  a.armedAt * 1000 + a.value.tv_sec * 1000000000 + a.value.tv_nsec

/-- `HowMuchTimeFromNow` is exact, but for a minimum of 100 microseconds. -/
theorem deadline_howMuchTimeFromNow (time now : Int) :
    Arming.deadline ⟨now, howMuchTimeFromNow time now⟩ = 1000 * max time (now + 100) := by
  have hsplit : ∀ n : Int, n.tdiv kMicroSecondsPerSecond * 1000000000 +
      n.tmod kMicroSecondsPerSecond * 1000 = n * 1000 := by
    intro n
    have := Int.tmod_add_mul_tdiv n kMicroSecondsPerSecond
    unfold kMicroSecondsPerSecond at *
    omega
  -- The quotient and the remainder make up the span again, whatever it is.
  have hspan := hsplit (if time - now < 100 then 100 else time - now)
  simp only [Arming.deadline, howMuchTimeFromNow]
  rw [Int.add_assoc, hspan]
  split <;> omega

/-! ## The class -/

/-- A load through a pointer to a deleted object. -/
inductive TimerFault where
  | dangling
  deriving DecidableEq, Repr

structure TimerQueue where
  /-- The timers that are allocated. -/
  heap : Nat → Option Timer
  timers_ : OrdSet Entry
  cancelingTimers_ : List (Nat × Nat)
  /-- What `timerfd_` is set to; none once that has been read. -/
  timerfd_ : Option Arming
  /-- `TimeStamp::Now()`. -/
  clock : Int
  /-- `Timer::s_numCreated_`, which all queues share. -/
  s_numCreated_ : Nat
  log : List TimerEvent

namespace TimerQueue

def record (q : TimerQueue) (e : TimerEvent) : TimerQueue := { q with log := q.log ++ [e] }

def deref (q : TimerQueue) (p : Nat) : Except TimerFault Timer :=
  match q.heap p with
  | some t => .ok t
  | none => .error .dangling

def readTimerfd (q : TimerQueue) : TimerQueue :=
  match q.timerfd_ with
  | none => q
  | some a => if a.deadline ≤ q.clock * 1000 then { q with timerfd_ := none } else q

def resetTimerfd (q : TimerQueue) (expiration : Int) : TimerQueue :=
  { q with timerfd_ := some ⟨q.clock, howMuchTimeFromNow expiration q.clock⟩ }

/-- The expiration is earlier than that of every timer. -/
def isEarliest (q : TimerQueue) (expiration : Int) : Bool :=
  match q.timers_.first? with
  | none => true
  | some it => decide (expiration < it.first)

/-- The result says whether the timer is the earliest now. -/
def insert (q : TimerQueue) (p : Nat) : Except TimerFault (Bool × TimerQueue) := do
  let t ← q.deref p
  return (q.isEarliest t.expiration_,
    { q with timers_ := q.timers_.insert ⟨t.expiration_, p⟩ })

def addTimerInLoop (q : TimerQueue) (p : Nat) : Except TimerFault TimerQueue := do
  let (needReset, q) ← q.insert p
  if needReset then
    let t ← q.deref p
    return q.resetTimerfd t.expiration_
  else return q

/-- `AddTimer`: the timer is allocated at `p` and handed to `AddTimerInLoop`. -/
def addTimer (q : TimerQueue) (p : Nat) (expiration : Int) (interval : Nat) (repeat_ : Bool) :
    Except TimerFault TimerQueue :=
  let timer : Timer :=
    { expiration_ := expiration
      interval_ := interval
      repeat_ := repeat_
      sequence_ := q.s_numCreated_ }
  let q := { q with
    heap := Function.update q.heap p (some timer)
    s_numCreated_ := q.s_numCreated_ + 1 }
  (q.record (.added timer.sequence_ expiration timer.period)).addTimerInLoop p

/-- The timer is not deleted, and `cancelingTimers_` not told. -/
def cancelTimerIdInLoop (q : TimerQueue) (p seq : Nat) : Except TimerFault TimerQueue :=
  if p = 0 then .ok q
  else do
    let t ← q.deref p
    -- During a `HandleRead` an expired timer is not there, and nothing is erased.
    let q := { q with timers_ := q.timers_.erase ⟨t.expiration_, p⟩ }
    return q.record (.cancelled seq)

/-- `UINTPTR_MAX`. -/
def uintptrMax : Nat := 0xffffffffffffffff

def getExpired (q : TimerQueue) (now : Int) : List Entry × TimerQueue :=
  -- Every pointer is below the sentry's, so a timer that expires at `now` is expired.
  let sentry : Entry := ⟨now, uintptrMax⟩
  ((q.timers_.below sentry).toList, { q with timers_ := q.timers_.dropBelow sentry })

/-- The body of the loop of `Reset`. -/
def resetOne (now : Int) (q : TimerQueue) (it : Entry) : Except TimerFault TimerQueue := do
  let t ← q.deref it.second
  -- The name says the opposite of what it holds.
  let isCancelled := t.repeat_ && !q.cancelingTimers_.contains (it.second, t.sequence_)
  if t.repeat_ && isCancelled then
    let t := t.restart now
    let q := { q with heap := Function.update q.heap it.second (some t) }
    let (_, q) ← q.insert it.second
    return q.record (.rearmed t.sequence_ t.expiration_)
  else return { q with heap := Function.update q.heap it.second none }

def reset (q : TimerQueue) (expired : List Entry) (now : Int) : Except TimerFault TimerQueue := do
  let q ← LTS.run (resetOne now) q expired
  let nextExpire ←
    match q.timers_.first? with
    | none => pure invalidTime
    | some e => do
      let t ← q.deref e.second
      pure t.expiration_
  -- `nextExpire.Valid()`: a first timer of expiration 0 is taken for no timer.
  if nextExpire ≠ invalidTime then return q.resetTimerfd nextExpire else return q

/-- The call of one callback. -/
def runTimer (q : TimerQueue) (it : Entry) (now : Int) : Except TimerFault TimerQueue := do
  let t ← q.deref it.second
  return q.record (.ran t.sequence_ it now)

end TimerQueue

/-! ## Runs -/

/-- A `HandleRead` in progress. -/
structure Batch where
  now : Int
  expired : List Entry
  /-- The part of `expired` the loop has not reached. -/
  todo : List Entry
  /-- What was in `timers_` when `HandleRead` was called. -/
  start : List Entry
  /-- How long the log was then. -/
  mark : Nat
  deriving DecidableEq, Repr

structure TimerLoop where
  queue : TimerQueue
  handling : Option Batch

/-- The elements whose callbacks were called. -/
def firedOf (log : List TimerEvent) : List Entry :=
  log.filterMap fun
    | .ran _ entry _ => some entry
    | _ => none

inductive TimerLabel where
  /-- Time passes. -/
  | tick (now : Int)
  /-- A timer is created for another queue. -/
  | create
  | addTimer (p : Nat) (expiration : Int) (interval : Nat) (repeat_ : Bool)
  | cancel (p seq : Nat)
  /-- `HandleRead` up to its loop. -/
  | handleRead
  /-- The next round of the loop; what the callback does are steps of their own. -/
  | runTimer
  /-- `Reset`, and `HandleRead` returns. -/
  | reset

/-- A queue is used by its loop thread.  `new` returns an address that is free and
    neither the null pointer nor the largest one; a timer that is cancelled has
    been added and not been deleted. -/
def timerSystem : LTS.System TimerLoop TimerLabel where
  init := fun s =>
    s.handling = none ∧ (∀ p, s.queue.heap p = none) ∧ s.queue.timers_ = OrdSet.empty ∧
    s.queue.cancelingTimers_ = [] ∧ s.queue.timerfd_ = none ∧ s.queue.log = []
  step := fun s l s' =>
    match l with
    | .tick now => s' = { s with queue := { s.queue with clock := now } }
    | .create =>
        s' = { s with queue := { s.queue with s_numCreated_ := s.queue.s_numCreated_ + 1 } }
    | .addTimer p expiration interval repeat_ =>
        s.queue.heap p = none ∧ 0 < p ∧ p < TimerQueue.uintptrMax ∧
        s.queue.addTimer p expiration interval repeat_ = .ok s'.queue ∧
        s'.handling = s.handling
    | .cancel p seq =>
        (∃ t, s.queue.heap p = some t ∧ t.sequence_ = seq) ∧
        s.queue.cancelTimerIdInLoop p seq = .ok s'.queue ∧ s'.handling = s.handling
    | .handleRead =>
        s.handling = none ∧
        (let now := s.queue.clock
         let (expired, queue) := s.queue.readTimerfd.getExpired now
         s' =
          -- `cancelingTimers_.clear()`, in front of the callbacks.
          { queue := { queue with cancelingTimers_ := [] }
            handling := some
              { now := now
                expired := expired
                todo := expired
                start := s.queue.timers_.toList
                mark := s.queue.log.length } })
    | .runTimer =>
        ∃ b it rest, s.handling = some b ∧ b.todo = it :: rest ∧
        s.queue.runTimer it b.now = .ok s'.queue ∧
        s'.handling = some { b with todo := rest }
    | .reset =>
        ∃ b, s.handling = some b ∧ b.todo = [] ∧ ∃ queue,
        s.queue.reset b.expired b.now = .ok queue ∧
        s' =
          { queue := queue.record (.handled b.now b.start (firedOf (s.queue.log.drop b.mark)))
            handling := none }

/-! ## What each operation does -/

namespace TimerQueue

variable {q : TimerQueue} {p : Nat} {t : Timer}

theorem deref_eq (h : q.heap p = some t) : q.deref p = .ok t := by
  rw [deref, h]

theorem insert_eq (h : q.heap p = some t) :
    q.insert p = .ok (q.isEarliest t.expiration_,
      { q with timers_ := q.timers_.insert ⟨t.expiration_, p⟩ }) := by
  rw [insert, deref_eq h]
  rfl

theorem addTimerInLoop_eq (h : q.heap p = some t) :
    q.addTimerInLoop p = .ok
      { q with
        timers_ := q.timers_.insert ⟨t.expiration_, p⟩
        timerfd_ :=
          if q.isEarliest t.expiration_ then
            some ⟨q.clock, howMuchTimeFromNow t.expiration_ q.clock⟩
          else q.timerfd_ } := by
  have hderef := deref_eq (q := { q with timers_ := q.timers_.insert ⟨t.expiration_, p⟩ }) h
  rw [addTimerInLoop, insert_eq h]
  simp only [bind, Except.bind, hderef]
  by_cases hearly : q.isEarliest t.expiration_ = true
  · rw [if_pos hearly, if_pos hearly]
    rfl
  · rw [if_neg hearly, if_neg hearly]
    rfl

/-- A new timer is in the heap and in `timers_`, and the timerfd is set if it is
    the earliest. -/
theorem addTimer_eq (q : TimerQueue) (p : Nat) (expiration : Int) (interval : Nat)
    (repeat_ : Bool) :
    q.addTimer p expiration interval repeat_ = .ok
      { heap := Function.update q.heap p (some ⟨expiration, interval, repeat_, q.s_numCreated_⟩)
        timers_ := q.timers_.insert ⟨expiration, p⟩
        cancelingTimers_ := q.cancelingTimers_
        timerfd_ :=
          if q.isEarliest expiration then some ⟨q.clock, howMuchTimeFromNow expiration q.clock⟩
          else q.timerfd_
        clock := q.clock
        s_numCreated_ := q.s_numCreated_ + 1
        log := q.log ++ [.added q.s_numCreated_ expiration
          (Timer.period ⟨expiration, interval, repeat_, q.s_numCreated_⟩)] } := by
  rw [addTimer, addTimerInLoop_eq (Function.update_self p _ q.heap)]
  rfl

theorem cancelTimerIdInLoop_eq (h : q.heap p = some t) (hp : 0 < p) (seq : Nat) :
    q.cancelTimerIdInLoop p seq = .ok
      { q with
        timers_ := q.timers_.erase ⟨t.expiration_, p⟩
        log := q.log ++ [.cancelled seq] } := by
  rw [cancelTimerIdInLoop, if_neg (by omega), deref_eq h]
  rfl

/-- `Reset` restarts a repeating timer. -/
theorem resetOne_repeat {it : Entry} (h : q.heap it.second = some t)
    (hcanceling : q.cancelingTimers_ = []) (hrepeat : t.repeat_ = true) (now : Int) :
    resetOne now q it = .ok
      { q with
        heap := Function.update q.heap it.second (some (t.restart now))
        timers_ := q.timers_.insert ⟨now + t.interval_, it.second⟩
        log := q.log ++ [.rearmed t.sequence_ (now + t.interval_)] } := by
  have hnew : (t.restart now).expiration_ = now + t.interval_ := if_pos hrepeat
  have hinsert := insert_eq
    (q := { q with heap := Function.update q.heap it.second (some (t.restart now)) })
    (Function.update_self it.second _ q.heap)
  rw [hnew, hcanceling] at hinsert
  rw [resetOne, deref_eq h]
  simp only [bind, Except.bind, hcanceling, hrepeat, List.contains_nil, hinsert, hnew]
  rfl

/-- `Reset` deletes a timer that does not repeat. -/
theorem resetOne_delete {it : Entry} (h : q.heap it.second = some t)
    (hrepeat : t.repeat_ = false) (now : Int) :
    resetOne now q it = .ok { q with heap := Function.update q.heap it.second none } := by
  rw [resetOne, deref_eq h]
  simp only [bind, Except.bind, hrepeat]
  rfl

end TimerQueue

/-! ## The invariant of the queue -/

/-- Every element of `timers_` and every element `out` of it for the time of a
    `HandleRead` points to a timer of its expiration, and no two point to the same
    one. -/
structure QueueInv (q : TimerQueue) (out : List Entry) : Prop where
  keys : ∀ e, e ∈ q.timers_ ∨ e ∈ out → ∃ t, q.heap e.second = some t ∧ t.expiration_ = e.first
  apart : out.Pairwise fun a b => a.second ≠ b.second
  away : ∀ e ∈ out, ∀ e' ∈ q.timers_, e'.second ≠ e.second
  fresh : ∀ p t, q.heap p = some t → t.sequence_ < q.s_numCreated_
  unique : ∀ p p' t t', q.heap p = some t → q.heap p' = some t' →
    t.sequence_ = t'.sequence_ → p = p'
  address : ∀ p t, q.heap p = some t → 0 < p ∧ p < TimerQueue.uintptrMax
  canceling : q.cancelingTimers_ = []

namespace QueueInv

variable {q : TimerQueue} {out : List Entry}

/-- Nothing points to a free address. -/
theorem second_ne (h : QueueInv q out) {p : Nat} (hfree : q.heap p = none) {e : Entry}
    (he : e ∈ q.timers_ ∨ e ∈ out) : e.second ≠ p := by
  intro heq
  obtain ⟨t, ht, _⟩ := h.keys e he
  rw [heq, hfree] at ht
  cases ht

/-- A pointer is in `timers_` at most once. -/
theorem eq_of_second (h : QueueInv q out) {e e' : Entry} (he : e ∈ q.timers_)
    (he' : e' ∈ q.timers_) (hsecond : e.second = e'.second) : e = e' := by
  obtain ⟨t, ht, hfirst⟩ := h.keys e (.inl he)
  obtain ⟨t', ht', hfirst'⟩ := h.keys e' (.inl he')
  rw [hsecond, ht'] at ht
  cases ht
  cases e
  cases e'
  simp_all

/-- Only these parts of the queue count. -/
theorem congr {q' : TimerQueue} (h : QueueInv q out) (hheap : q'.heap = q.heap)
    (htimers : q'.timers_ = q.timers_) (hcreated : q.s_numCreated_ ≤ q'.s_numCreated_)
    (hcanceling : q'.cancelingTimers_ = []) : QueueInv q' out := by
  refine ⟨?_, h.apart, ?_, ?_, ?_, ?_, hcanceling⟩
  · rw [hheap, htimers]
    exact h.keys
  · rw [htimers]
    exact h.away
  · rw [hheap]
    intro p t ht
    exact lt_of_lt_of_le (h.fresh p t ht) hcreated
  · rw [hheap]
    exact h.unique
  · rw [hheap]
    exact h.address

/-- A store to an address that nothing points to. -/
theorem update (h : QueueInv q out) {p : Nat} {v : Option Timer}
    (hother : ∀ e, e ∈ q.timers_ ∨ e ∈ out → e.second ≠ p)
    (hv : ∀ t, v = some t → t.sequence_ < q.s_numCreated_ ∧ (0 < p ∧ p < TimerQueue.uintptrMax) ∧
      ∀ p' t', q.heap p' = some t' → t'.sequence_ = t.sequence_ → p' = p) :
    QueueInv { q with heap := Function.update q.heap p v } out := by
  have hheap : ∀ {p' t}, Function.update q.heap p v p' = some t →
      (p' = p ∧ v = some t) ∨ q.heap p' = some t := by
    intro p' t ht
    by_cases hp : p' = p
    · subst hp
      rw [Function.update_self] at ht
      exact .inl ⟨rfl, ht⟩
    · rw [Function.update_of_ne hp] at ht
      exact .inr ht
  refine ⟨?_, h.apart, h.away, ?_, ?_, ?_, h.canceling⟩
  · intro e he
    obtain ⟨t, ht, hfirst⟩ := h.keys e he
    exact ⟨t, (Function.update_of_ne (hother e he) _ _).trans ht, hfirst⟩
  · intro p' t ht
    rcases hheap ht with ⟨-, hnew⟩ | hold
    · exact (hv t hnew).1
    · exact h.fresh p' t hold
  · -- The number of the new timer is at `p` or nowhere in the heap.
    intro p₁ p₂ t₁ t₂ ht₁ ht₂ hseq
    rcases hheap ht₁ with ⟨hp₁, hnew₁⟩ | hold₁
    · rcases hheap ht₂ with ⟨hp₂, -⟩ | hold₂
      · rw [hp₁, hp₂]
      · rw [hp₁, (hv t₁ hnew₁).2.2 p₂ t₂ hold₂ hseq.symm]
    · rcases hheap ht₂ with ⟨hp₂, hnew₂⟩ | hold₂
      · rw [hp₂, (hv t₂ hnew₂).2.2 p₁ t₁ hold₁ hseq]
      · exact h.unique p₁ p₂ t₁ t₂ hold₁ hold₂ hseq
  · intro p' t ht
    rcases hheap ht with ⟨rfl, hnew⟩ | hold
    · exact (hv t hnew).2.1
    · exact h.address p' t hold

/-- A timer that is not out enters `timers_`. -/
theorem insert (h : QueueInv q out) {e : Entry} {t : Timer} (ht : q.heap e.second = some t)
    (hfirst : t.expiration_ = e.first) (hout : ∀ e' ∈ out, e'.second ≠ e.second) :
    QueueInv { q with timers_ := q.timers_.insert e } out := by
  refine ⟨?_, h.apart, ?_, h.fresh, h.unique, h.address, h.canceling⟩
  · intro e' he'
    rcases he' with hmem | hmem
    · rcases OrdSet.mem_insert.mp hmem with rfl | hold
      · exact ⟨t, ht, hfirst⟩
      · exact h.keys e' (.inl hold)
    · exact h.keys e' (.inr hmem)
  · intro e' he' e'' he''
    rcases OrdSet.mem_insert.mp he'' with rfl | hold
    · exact (hout e' he').symm
    · exact h.away e' he' e'' hold

theorem addTimer (h : QueueInv q out) {p : Nat} (hfree : q.heap p = none) (hpos : 0 < p)
    (hmax : p < TimerQueue.uintptrMax) {expiration : Int} {interval : Nat} {repeat_ : Bool}
    {q' : TimerQueue} (hok : q.addTimer p expiration interval repeat_ = .ok q') :
    QueueInv q' out := by
  have hother : ∀ e, e ∈ q.timers_ ∨ e ∈ out → e.second ≠ p := fun e he => h.second_ne hfree he
  have hcreate : QueueInv { q with s_numCreated_ := q.s_numCreated_ + 1 } out :=
    h.congr rfl rfl (Nat.le_succ _) h.canceling
  have hnew := hcreate.update (v := some ⟨expiration, interval, repeat_, q.s_numCreated_⟩) hother (by
    intro t ht
    cases ht
    refine ⟨Nat.lt_succ_self _, ⟨hpos, hmax⟩, ?_⟩
    intro p' t' ht' hseq
    exact absurd hseq (h.fresh p' t' ht').ne)
  have hin := hnew.insert (e := ⟨expiration, p⟩) (Function.update_self p _ q.heap) rfl
    fun e he => hother e (.inr he)
  rw [TimerQueue.addTimer_eq] at hok
  cases hok
  exact hin.congr rfl rfl (Nat.le_refl _) h.canceling

theorem cancel (h : QueueInv q out) {p seq : Nat} {t : Timer} (ht : q.heap p = some t)
    {q' : TimerQueue} (hok : q.cancelTimerIdInLoop p seq = .ok q') : QueueInv q' out := by
  rw [TimerQueue.cancelTimerIdInLoop_eq ht (h.address p t ht).1] at hok
  cases hok
  refine ⟨?_, h.apart, ?_, h.fresh, h.unique, h.address, h.canceling⟩
  · intro e he
    rcases he with he | he
    · exact h.keys e (.inl (OrdSet.mem_erase.mp he).1)
    · exact h.keys e (.inr he)
  · intro e he e' he'
    exact h.away e he e' (OrdSet.mem_erase.mp he').1

/-- The expired elements, and only they, leave `timers_`. -/
theorem mem_below (h : QueueInv q []) {now : Int} {e : Entry} (he : e ∈ q.timers_) :
    e < ⟨now, TimerQueue.uintptrMax⟩ ↔ e.first ≤ now := by
  obtain ⟨t, ht, -⟩ := h.keys e (.inl he)
  have hmax := (h.address e.second t ht).2
  rw [Entry.lt_iff]
  constructor
  · intro hcase
    rcases hcase with hlt | ⟨heq, -⟩
    · exact hlt.le
    · exact heq.le
  · intro hle
    rcases lt_or_eq_of_le hle with hlt | heq
    · exact .inl hlt
    · exact .inr ⟨heq, hmax⟩

theorem getExpired (h : QueueInv q []) (now : Int) :
    QueueInv (q.getExpired now).2 (q.getExpired now).1 := by
  have hbelow : ∀ e, e ∈ (q.getExpired now).1 ↔ e ∈ q.timers_ ∧ e < ⟨now, _⟩ :=
    fun e => OrdSet.mem_below
  have hdrop : ∀ e, e ∈ (q.getExpired now).2.timers_ ↔ e ∈ q.timers_ ∧ ⟨now, _⟩ ≤ e :=
    fun e => OrdSet.mem_dropBelow
  refine ⟨?_, ?_, ?_, h.fresh, h.unique, h.address, h.canceling⟩
  · intro e he
    apply h.keys e
    rcases he with he | he
    · exact .inl ((hdrop e).mp he).1
    · exact .inl ((hbelow e).mp he).1
  · -- Different elements of `timers_` have different pointers.
    have hinc := (q.timers_.below ⟨now, TimerQueue.uintptrMax⟩).increasing
    refine hinc.imp_of_mem ?_
    intro a b ha hb hlt hsecond
    have heq := h.eq_of_second ((hbelow a).mp ha).1 ((hbelow b).mp hb).1 hsecond
    rw [heq] at hlt
    exact lt_irrefl b hlt
  · intro e he e' he' hsecond
    obtain ⟨hmem, hlt⟩ := (hbelow e).mp he
    obtain ⟨hmem', hle⟩ := (hdrop e').mp he'
    have heq := h.eq_of_second hmem' hmem hsecond
    rw [heq] at hle
    exact absurd hlt (not_lt.mpr hle)

/-- One round of `Reset`: the timer is put back into `timers_` or deleted. -/
theorem resetOne_cases {it : Entry} (h : QueueInv q (it :: out)) (now : Int) :
    ∃ t, q.heap it.second = some t ∧ t.expiration_ = it.first ∧
      ((t.repeat_ = true ∧ TimerQueue.resetOne now q it = .ok
          { q with
            heap := Function.update q.heap it.second (some (t.restart now))
            timers_ := q.timers_.insert ⟨now + t.interval_, it.second⟩
            log := q.log ++ [.rearmed t.sequence_ (now + t.interval_)] }) ∨
        (t.repeat_ = false ∧ TimerQueue.resetOne now q it = .ok
          { q with heap := Function.update q.heap it.second none })) := by
  obtain ⟨t, ht, hfirst⟩ := h.keys it (.inr List.mem_cons_self)
  refine ⟨t, ht, hfirst, ?_⟩
  cases hrepeat : t.repeat_ with
  | true => exact .inl ⟨rfl, TimerQueue.resetOne_repeat ht h.canceling hrepeat now⟩
  | false => exact .inr ⟨rfl, TimerQueue.resetOne_delete ht hrepeat now⟩

theorem resetOne {it : Entry} (h : QueueInv q (it :: out)) {now : Int} {q' : TimerQueue}
    (hok : TimerQueue.resetOne now q it = .ok q') : QueueInv q' out := by
  obtain ⟨t, ht, -, hcases⟩ := h.resetOne_cases now
  obtain ⟨hit, hapart⟩ := List.pairwise_cons.mp h.apart
  have hrest : QueueInv q out :=
    ⟨fun e he => h.keys e (he.imp_right (List.mem_cons_of_mem it)), hapart,
      fun e he => h.away e (List.mem_cons_of_mem it he), h.fresh, h.unique, h.address, h.canceling⟩
  -- Everything else points elsewhere.
  have hother : ∀ e, e ∈ q.timers_ ∨ e ∈ out → e.second ≠ it.second := by
    intro e he
    rcases he with he | he
    · exact h.away it List.mem_cons_self e he
    · exact (hit e he).symm
  rcases hcases with ⟨hrepeat, hcase⟩ | ⟨-, hcase⟩
  · have hback := hrest.update (v := some (t.restart now)) hother (by
      intro t' ht'
      cases ht'
      refine ⟨h.fresh it.second t ht, h.address it.second t ht, ?_⟩
      intro p' t' ht' hseq
      exact h.unique p' it.second t' t ht' ht hseq)
    have hin := hback.insert (e := ⟨now + t.interval_, it.second⟩)
      (Function.update_self it.second _ q.heap) (if_pos hrepeat) fun e he => hother e (.inr he)
    rw [hcase] at hok
    cases hok
    exact hin.congr rfl rfl (Nat.le_refl _) h.canceling
  · rw [hcase] at hok
    cases hok
    exact hrest.update hother nofun

end QueueInv

/-! ### `Reset` -/

namespace TimerQueue

/-- What `Reset` does behind its loop. -/
def armNext (q : TimerQueue) : TimerQueue :=
  match q.timers_.first? with
  | none => q
  | some e => if e.first ≠ invalidTime then q.resetTimerfd e.first else q

/-- Only the timerfd changes. -/
theorem armNext_eq (q : TimerQueue) : q.armNext = { q with timerfd_ := q.armNext.timerfd_ } := by
  unfold armNext
  cases q.timers_.first? with
  | none => rfl
  | some e =>
    by_cases hvalid : e.first ≠ invalidTime
    · simp only [if_pos hvalid]
      rfl
    · simp only [if_neg hvalid]

theorem reset_eq {q q₁ : TimerQueue} {expired : List Entry} {now : Int}
    (hrun : LTS.run (resetOne now) q expired = .ok q₁) (h : QueueInv q₁ []) :
    q.reset expired now = .ok q₁.armNext := by
  unfold reset armNext
  rw [hrun]
  simp only [bind, Except.bind]
  cases hfirst : q₁.timers_.first? with
  | none => rfl
  | some e =>
    obtain ⟨t, ht, hexp⟩ := h.keys e (.inl (OrdSet.first?_eq_some hfirst).1)
    simp only [deref_eq ht, pure, Except.pure, hexp]
    by_cases hvalid : e.first ≠ invalidTime
    · rw [if_pos hvalid, if_pos hvalid]
    · rw [if_neg hvalid, if_neg hvalid]

end TimerQueue

/-- **Reset rule**: what each round of its loop keeps, for the elements that are
    still out, holds behind the loop. -/
theorem reset_consumes {P : TimerQueue → List Entry → Prop} {now : Int}
    (hinv : ∀ q out, P q out → QueueInv q out)
    (hstep : ∀ q it out q', P q (it :: out) → TimerQueue.resetOne now q it = .ok q' → P q' out)
    {q : TimerQueue} {expired : List Entry} (h : P q expired) :
    ∃ q₁, q.reset expired now = .ok q₁.armNext ∧ P q₁ [] := by
  have hround : ∀ q it out, P q (it :: out) →
      ∃ q', TimerQueue.resetOne now q it = .ok q' ∧ P q' out := by
    intro q it out hP
    obtain ⟨t, -, -, ⟨-, hok⟩ | ⟨-, hok⟩⟩ := (hinv _ _ hP).resetOne_cases now
    · exact ⟨_, hok, hstep _ _ _ _ hP hok⟩
    · exact ⟨_, hok, hstep _ _ _ _ hP hok⟩
  obtain ⟨q₁, hrun, hP⟩ := LTS.run_consumes hround expired q h
  exact ⟨q₁, TimerQueue.reset_eq hrun (hinv _ _ hP), hP⟩

/-! ### The loop -/

/-- The elements that are out of `timers_` for the time of a `HandleRead`. -/
def TimerLoop.out (s : TimerLoop) : List Entry :=
  match s.handling with
  | none => []
  | some b => b.expired

theorem TimerLoop.out_handling {s : TimerLoop} {b : Batch} (h : s.handling = some b) :
    s.out = b.expired := by
  rw [out, h]

theorem TimerLoop.out_idle {s : TimerLoop} (h : s.handling = none) : s.out = [] := by
  rw [out, h]

theorem QueueInv.armNext {q : TimerQueue} {out : List Entry} (h : QueueInv q out) :
    QueueInv q.armNext out := by
  rw [q.armNext_eq]
  exact h.congr rfl rfl (Nat.le_refl _) h.canceling

theorem readTimerfd_eq (q : TimerQueue) :
    q.readTimerfd = { q with timerfd_ := q.readTimerfd.timerfd_ } := by
  unfold TimerQueue.readTimerfd
  cases q.timerfd_ with
  | none => rfl
  | some a =>
    by_cases hfired : a.deadline ≤ q.clock * 1000
    · simp only [if_pos hfired]
    · simp only [if_neg hfired]

theorem runTimer_eq {q : TimerQueue} {it : Entry} {t : Timer} (h : q.heap it.second = some t)
    (now : Int) : q.runTimer it now = .ok (q.record (.ran t.sequence_ it now)) := by
  rw [TimerQueue.runTimer, TimerQueue.deref_eq h]
  rfl

theorem runTimer_ok {q q' : TimerQueue} {it : Entry} {now : Int}
    (h : q.runTimer it now = .ok q') :
    ∃ t, q.heap it.second = some t ∧ q' = q.record (.ran t.sequence_ it now) := by
  cases ht : q.heap it.second with
  | none =>
    rw [TimerQueue.runTimer, TimerQueue.deref, ht] at h
    cases h
  | some t =>
    rw [runTimer_eq ht] at h
    exact ⟨t, rfl, (Except.ok.inj h).symm⟩

theorem queueInv_initial (s : TimerLoop) (h : timerSystem.init s) : QueueInv s.queue s.out := by
  obtain ⟨hhandling, hheap, htimers, hcanceling, -, -⟩ := h
  rw [TimerLoop.out_idle hhandling]
  refine ⟨?_, List.Pairwise.nil, nofun, ?_, ?_, ?_, hcanceling⟩
  · rw [htimers]
    intro e he
    rcases he with he | he
    · exact absurd he OrdSet.not_mem_empty
    · cases he
  · intro p t ht
    rw [hheap] at ht
    cases ht
  · intro p p' t t' ht
    rw [hheap] at ht
    cases ht
  · intro p t ht
    rw [hheap] at ht
    cases ht

theorem queueInv_preserved (s : TimerLoop) (l : TimerLabel) (s' : TimerLoop)
    (h : QueueInv s.queue s.out) (hstep : timerSystem.step s l s') :
    QueueInv s'.queue s'.out := by
  simp only [timerSystem] at hstep
  match l with
  | .tick now =>
    subst hstep
    exact h.congr rfl rfl (Nat.le_refl _) h.canceling
  | .create =>
    subst hstep
    exact h.congr rfl rfl (Nat.le_succ _) h.canceling
  | .addTimer p expiration interval repeat_ =>
    obtain ⟨hfree, hpos, hmax, hok, hhandling⟩ := hstep
    rw [TimerLoop.out, hhandling]
    exact h.addTimer hfree hpos hmax hok
  | .cancel p seq =>
    obtain ⟨⟨t, ht, -⟩, hok, hhandling⟩ := hstep
    rw [TimerLoop.out, hhandling]
    exact h.cancel ht hok
  | .handleRead =>
    obtain ⟨hidle, rfl⟩ := hstep
    rw [TimerLoop.out_idle hidle] at h
    have hread : QueueInv s.queue.readTimerfd [] := by
      rw [readTimerfd_eq]
      exact h.congr rfl rfl (Nat.le_refl _) h.canceling
    have hexpired := hread.getExpired s.queue.clock
    exact hexpired.congr rfl rfl (Nat.le_refl _) rfl
  | .runTimer =>
    obtain ⟨b, it, rest, hhandling, htodo, hok, hhandling'⟩ := hstep
    rw [TimerLoop.out_handling hhandling] at h
    rw [TimerLoop.out_handling hhandling']
    obtain ⟨t, -, hrecord⟩ := runTimer_ok hok
    rw [hrecord]
    exact h.congr rfl rfl (Nat.le_refl _) h.canceling
  | .reset =>
    obtain ⟨b, hhandling, htodo, queue, hok, rfl⟩ := hstep
    rw [TimerLoop.out_handling hhandling] at h
    obtain ⟨q₁, hok₁, h₁⟩ := reset_consumes (P := QueueInv) (fun _ _ h => h)
      (fun _ _ _ _ h hok => h.resetOne hok) h
    rw [hok₁] at hok
    cases hok
    exact h₁.armNext.congr rfl rfl (Nat.le_refl _) h₁.armNext.canceling

/-! ## Arming -/

section arming

/-- The timerfd is set for every timer, but for the minimum of 100 microseconds. -/
def Armed (q : TimerQueue) : Prop :=
  ∀ e ∈ q.timers_, ∃ a, q.timerfd_ = some a ∧ a.deadline ≤ 1000 * max e.first (a.armedAt + 100)

/-- The timerfd is set, or a `HandleRead` is under way and has left nothing that
    is due: `Reset` will set it. -/
structure ArmInv (s : TimerLoop) : Prop where
  queue : QueueInv s.queue s.out
  clock : 0 < s.queue.clock
  now : ∀ b, s.handling = some b → 0 < b.now
  armed : Armed s.queue ∨ ∃ b, s.handling = some b ∧ ∀ e ∈ s.queue.timers_, b.now < e.first

theorem isEarliest_iff {q : TimerQueue} {expiration : Int} :
    q.isEarliest expiration = true ↔ ∀ e ∈ q.timers_, expiration < e.first := by
  unfold TimerQueue.isEarliest
  cases hfirst : q.timers_.first? with
  | none =>
    have hempty := OrdSet.first?_eq_none.mp hfirst
    simp [hempty]
  | some m =>
    obtain ⟨hmem, hleast⟩ := OrdSet.first?_eq_some hfirst
    constructor
    · intro hlt e he
      have hlt' : expiration < m.first := by simpa using hlt
      rcases Entry.le_iff.mp (hleast e he) with hless | ⟨heq, -⟩
      · omega
      · omega
    · intro hall
      simpa using hall m hmem

/-- Setting the timerfd for the earliest timer arms it for all. -/
theorem armed_of_set {q : TimerQueue} {expiration now : Int}
    (hset : q.timerfd_ = some ⟨now, howMuchTimeFromNow expiration now⟩)
    (h : ∀ e ∈ q.timers_, expiration ≤ e.first) : Armed q := by
  intro e he
  refine ⟨_, hset, ?_⟩
  rw [deadline_howMuchTimeFromNow]
  have hle := h e he
  show 1000 * max expiration (now + 100) ≤ 1000 * max e.first (now + 100)
  omega

/-- What is armed for one timer is armed for every later one. -/
theorem Armed.extend {q q' : TimerQueue} (h : Armed q) (hset : q'.timerfd_ = q.timerfd_)
    (hlater : ∀ e ∈ q'.timers_, ∃ e' ∈ q.timers_, e'.first ≤ e.first) : Armed q' := by
  intro e he
  obtain ⟨e', he', hle⟩ := hlater e he
  obtain ⟨a, ha, hdeadline⟩ := h e' he'
  refine ⟨a, by rw [hset, ha], ?_⟩
  omega

/-- A new timer either has the timerfd set for it, or another timer is not later. -/
theorem armed_addTimer {q q' : TimerQueue} {p : Nat} {expiration : Int} {interval : Nat}
    {repeat_ : Bool} (hok : q.addTimer p expiration interval repeat_ = .ok q') :
    Armed q' ∨ (q'.timerfd_ = q.timerfd_ ∧
      ∀ e ∈ q'.timers_, ∃ e' ∈ q.timers_, e'.first ≤ e.first) := by
  rw [TimerQueue.addTimer_eq] at hok
  cases hok
  by_cases hearly : q.isEarliest expiration = true
  · left
    apply armed_of_set (if_pos hearly)
    intro e he
    rcases OrdSet.mem_insert.mp he with rfl | hold
    · exact le_refl _
    · exact (isEarliest_iff.mp hearly e hold).le
  · right
    refine ⟨if_neg hearly, ?_⟩
    rw [isEarliest_iff] at hearly
    simp only [not_forall, not_lt, exists_prop] at hearly
    obtain ⟨m, hm, hle⟩ := hearly
    intro e he
    rcases OrdSet.mem_insert.mp he with rfl | hold
    · exact ⟨m, hm, hle⟩
    · exact ⟨e, hold, le_refl _⟩

/-- Behind its loop, `Reset` finds the timerfd set for a timer of expiration 0, or
    sets it. -/
theorem armed_armNext {q : TimerQueue}
    (h : ∀ e ∈ q.timers_, e.first = invalidTime → Armed q) : Armed q.armNext := by
  unfold TimerQueue.armNext
  cases hfirst : q.timers_.first? with
  | none =>
    intro e he
    exact absurd he (OrdSet.first?_eq_none.mp hfirst e)
  | some m =>
    obtain ⟨hmem, hleast⟩ := OrdSet.first?_eq_some hfirst
    by_cases hvalid : m.first ≠ invalidTime
    · simp only [if_pos hvalid]
      apply armed_of_set rfl
      intro e he
      rcases Entry.le_iff.mp (hleast e he) with hlt | ⟨heq, -⟩
      · exact hlt.le
      · exact heq.le
    · simp only [if_neg hvalid]
      exact h m hmem (not_not.mp hvalid)

/-- `Reset` arms for all timers: those it puts back are not due before `now`. -/
theorem armed_reset {q q' : TimerQueue} {expired : List Entry} {now : Int}
    (hinv : QueueInv q expired) (hnow : 0 < now)
    (h : Armed q ∨ ∀ e ∈ q.timers_, now < e.first) (hok : q.reset expired now = .ok q') :
    Armed q' := by
  have hround : ∀ r it out r',
      (QueueInv r (it :: out) ∧ r.timerfd_ = q.timerfd_ ∧
        ∀ e ∈ r.timers_, e ∈ q.timers_ ∨ now ≤ e.first) →
      TimerQueue.resetOne now r it = .ok r' →
      QueueInv r' out ∧ r'.timerfd_ = q.timerfd_ ∧
        ∀ e ∈ r'.timers_, e ∈ q.timers_ ∨ now ≤ e.first := by
    intro r it out r' ⟨hr, hset, hsource⟩ hok'
    refine ⟨hr.resetOne hok', ?_⟩
    obtain ⟨t, -, -, ⟨-, hcase⟩ | ⟨-, hcase⟩⟩ := hr.resetOne_cases now
    · rw [hcase] at hok'
      cases hok'
      refine ⟨hset, ?_⟩
      intro e he
      rcases OrdSet.mem_insert.mp he with rfl | hold
      · right
        show now ≤ now + t.interval_
        omega
      · exact hsource e hold
    · rw [hcase] at hok'
      cases hok'
      exact ⟨hset, hsource⟩
  obtain ⟨q₁, hok₁, -, hset, hsource⟩ := reset_consumes
    (P := fun r out => QueueInv r out ∧ r.timerfd_ = q.timerfd_ ∧
      ∀ e ∈ r.timers_, e ∈ q.timers_ ∨ now ≤ e.first)
    (fun _ _ hP => hP.1) hround ⟨hinv, rfl, fun e he => .inl he⟩
  rw [hok₁] at hok
  cases hok
  apply armed_armNext
  -- A timer of expiration 0 was added by a callback, and armed for then.
  intro e he hzero
  have hzero' : e.first = 0 := hzero
  have hold : e ∈ q.timers_ := (hsource e he).resolve_right (by omega)
  have harmed : Armed q := by
    refine h.resolve_right ?_
    intro hlater
    have := hlater e hold
    omega
  apply harmed.extend hset
  intro e' he'
  rcases hsource e' he' with hold' | hle
  · exact ⟨e', hold', le_refl _⟩
  · exact ⟨e, hold, by omega⟩

/-- The runs in which the time is after the epoch. -/
def clockedSystem : LTS.System TimerLoop TimerLabel where
  init := fun s => timerSystem.init s ∧ 0 < s.queue.clock
  step := fun s l s' => timerSystem.step s l s' ∧ 0 < s'.queue.clock

theorem armInv_initial (s : TimerLoop) (h : clockedSystem.init s) : ArmInv s := by
  obtain ⟨hinit, hclock⟩ := h
  refine ⟨queueInv_initial s hinit, hclock, ?_, ?_⟩
  · intro b hb
    rw [hinit.1] at hb
    cases hb
  · left
    intro e he
    rw [hinit.2.2.1] at he
    exact absurd he OrdSet.not_mem_empty

theorem armInv_preserved (s : TimerLoop) (l : TimerLabel) (s' : TimerLoop) (h : ArmInv s)
    (hstep : clockedSystem.step s l s') : ArmInv s' := by
  obtain ⟨hstep, hclock⟩ := hstep
  have hqueue := queueInv_preserved s l s' h.queue hstep
  simp only [timerSystem] at hstep
  match l with
  | .tick now =>
    subst hstep
    exact ⟨hqueue, hclock, h.now, h.armed⟩
  | .create =>
    subst hstep
    exact ⟨hqueue, hclock, h.now, h.armed⟩
  | .addTimer p expiration interval repeat_ =>
    obtain ⟨-, -, -, hok, hhandling⟩ := hstep
    refine ⟨hqueue, hclock, by rw [hhandling]; exact h.now, ?_⟩
    rcases armed_addTimer hok with harmed | ⟨hset, hlater⟩
    · exact .inl harmed
    · rcases h.armed with harmed | ⟨b, hb, hdue⟩
      · exact .inl (harmed.extend hset hlater)
      · right
        refine ⟨b, hhandling.trans hb, ?_⟩
        intro e he
        obtain ⟨e', he', hle⟩ := hlater e he
        have := hdue e' he'
        omega
  | .cancel p seq =>
    obtain ⟨⟨t, ht, -⟩, hok, hhandling⟩ := hstep
    rw [TimerQueue.cancelTimerIdInLoop_eq ht (h.queue.address p t ht).1] at hok
    have hset : s'.queue.timerfd_ = s.queue.timerfd_ := by rw [← Except.ok.inj hok]
    have hfewer : ∀ e ∈ s'.queue.timers_, e ∈ s.queue.timers_ := by
      rw [← Except.ok.inj hok]
      intro e he
      exact (OrdSet.mem_erase.mp he).1
    refine ⟨hqueue, hclock, by rw [hhandling]; exact h.now, ?_⟩
    rcases h.armed with harmed | ⟨b, hb, hdue⟩
    · exact .inl (harmed.extend hset fun e he => ⟨e, hfewer e he, le_refl _⟩)
    · exact .inr ⟨b, hhandling.trans hb, fun e he => hdue e (hfewer e he)⟩
  | .handleRead =>
    obtain ⟨hidle, rfl⟩ := hstep
    have hinv := h.queue
    rw [TimerLoop.out_idle hidle] at hinv
    -- The timerfd is read, and what `GetExpired` leaves is not due.
    refine ⟨hqueue, hclock, ?_, .inr ⟨_, rfl, ?_⟩⟩
    · intro b hb
      cases hb
      exact h.clock
    · intro e he
      obtain ⟨hmem, hle⟩ := OrdSet.mem_dropBelow.mp he
      rw [readTimerfd_eq] at hmem
      by_contra hnot
      exact absurd ((hinv.mem_below hmem).mpr (not_lt.mp hnot)) (not_lt.mpr hle)
  | .runTimer =>
    obtain ⟨b, it, rest, hhandling, htodo, hok, hhandling'⟩ := hstep
    obtain ⟨t, -, hrecord⟩ := runTimer_ok hok
    refine ⟨hqueue, hclock, ?_, ?_⟩
    · intro b' hb'
      rw [hhandling'] at hb'
      cases hb'
      exact h.now b hhandling
    · rw [hrecord, hhandling']
      rcases h.armed with harmed | ⟨b', hb', hdue⟩
      · exact .inl harmed
      · rw [hhandling] at hb'
        cases hb'
        exact .inr ⟨_, rfl, hdue⟩
  | .reset =>
    obtain ⟨b, hhandling, -, queue, hok, rfl⟩ := hstep
    have hinv := h.queue
    rw [TimerLoop.out_handling hhandling] at hinv
    refine ⟨hqueue, hclock, nofun, .inl ?_⟩
    have harmed : Armed s.queue ∨ ∀ e ∈ s.queue.timers_, b.now < e.first := by
      refine h.armed.imp_right ?_
      intro hcase
      rcases hcase with ⟨b', hb', hdue⟩
      rw [hhandling] at hb'
      cases hb'
      exact hdue
    show Armed queue
    exact armed_reset hinv (h.now b hhandling) harmed hok

end arming

/-- **The timerfd is armed for the earliest timer**: whenever control is outside
    `HandleRead` and there are timers, the timerfd is set, for a deadline that is
    not later than the first of them or 100 microseconds from the setting. -/
theorem timerfd_armed_reachable (s : TimerLoop) (hs : clockedSystem.Reachable s)
    (hidle : s.handling = none) (first : Entry) (hfirst : s.queue.timers_.first? = some first) :
    ∃ a, s.queue.timerfd_ = some a ∧ a.deadline ≤ 1000 * max first.first (a.armedAt + 100) := by
  have h := LTS.System.invariant armInv_initial armInv_preserved s hs
  rcases h.armed with harmed | ⟨b, hb, -⟩
  · exact harmed first (OrdSet.first?_eq_some hfirst).1
  · rw [hidle] at hb
    cases hb

/-- A queue without timers, at a time after the epoch. -/
def emptyQueue (clock : Int) : TimerQueue where
  heap := fun _ => none
  timers_ := OrdSet.empty
  cancelingTimers_ := []
  timerfd_ := none
  clock := clock
  s_numCreated_ := 0
  log := []

theorem emptyQueue_init (clock : Int) : timerSystem.init ⟨emptyQueue clock, none⟩ :=
  ⟨rfl, fun _ => rfl, rfl, rfl, rfl, rfl⟩

/-- A callback adds a timer of expiration 0, which `Reset` does not arm for; the
    timerfd is set nevertheless. -/
theorem timerfd_armed_invalid :
    ∃ s : TimerLoop, s.handling = none ∧ s.queue.timers_.first? = some ⟨0, 16⟩ ∧
      ∃ a, s.queue.timerfd_ = some a ∧ a.deadline ≤ 1000 * max 0 (a.armedAt + 100) := by
  have h0 : clockedSystem.Reachable ⟨emptyQueue 1000, none⟩ :=
    .start ⟨emptyQueue_init 1000, by decide⟩
  have h1 : clockedSystem.Reachable ⟨_, none⟩ := h0.next (.addTimer 8 500 0 false)
    ⟨⟨rfl, by decide, by decide, TimerQueue.addTimer_eq _ _ _ _ _, rfl⟩, by decide⟩
  have h2 := h1.next (.tick 1200) (by exact ⟨rfl, by decide⟩)
  have h3 := h2.next .handleRead (by exact ⟨⟨rfl, rfl⟩, by decide⟩)
  have h4 : clockedSystem.Reachable ⟨_, some _⟩ := h3.next .runTimer
    ⟨⟨_, _, _, rfl, rfl, rfl, rfl⟩, by decide⟩
  have h5 : clockedSystem.Reachable ⟨_, some _⟩ := h4.next (.addTimer 16 0 0 false)
    ⟨⟨rfl, by decide, by decide, TimerQueue.addTimer_eq _ _ _ _ _, rfl⟩, by decide⟩
  have h6 := h5.next .reset (by exact ⟨⟨_, rfl, rfl, _, rfl, rfl⟩, by decide⟩)
  exact ⟨_, rfl, rfl, timerfd_armed_reachable _ h6 rfl _ rfl⟩

end JNet
