import JNet.Lib.LTS
import Mathlib.Logic.Function.Basic

/-! # `jnet::ThreadPool`

    Workers, producers and the destructor (`net/threadpool.h`) share one mutex
    and one condition variable.  What a thread does under the mutex is one step
    here: a worker from the test of its predicate up to the release, a producer
    in `AddTask`, the destructor's store to `stop_`.  A thread that waits
    proceeds only after a `notify_one` that has selected it, and it tests its
    predicate again then.

    There are `n` workers and a producer for every element of `P`; the bound of
    the queue is a parameter.
-/

namespace JNet

/-! ## State -/

/-- Where a worker is. -/
inductive WorkerPc where
  /-- In front of the mutex, or in `task()`. -/
  | running
  /-- In `condition_.wait`. -/
  | waiting
  /-- Selected by a `notify_one`. -/
  | notified
  /-- Returned from its loop. -/
  | exited
  deriving DecidableEq, Repr

/-- Where a producer is, with the task it is to add. -/
inductive ProducerPc (T : Type) where
  | outside
  | waiting (task : T)
  | notified (task : T)
  deriving DecidableEq, Repr

/-- Where the destructor is. -/
inductive DestructorPc where
  | outside
  /-- In the `join()` of the worker with this number. -/
  | joining (k : Nat)
  | done
  deriving DecidableEq, Repr

structure ThreadPool (n : Nat) (P T : Type) where
  tasks_ : List T
  stop_ : Bool
  workers_ : Fin n → WorkerPc
  producers : P → ProducerPc T
  destructor : DestructorPc

namespace ThreadPool

variable {n : Nat} {P T : Type} [DecidableEq P]

/-- The pool as constructed, before any worker has taken the mutex. -/
def create : ThreadPool n P T where
  tasks_ := []
  stop_ := false
  workers_ := fun _ => .running
  producers := fun _ => .outside
  destructor := .outside

def setWorker (s : ThreadPool n P T) (w : Fin n) (pc : WorkerPc) : ThreadPool n P T :=
  { s with workers_ := Function.update s.workers_ w pc }

def setProducer (s : ThreadPool n P T) (p : P) (pc : ProducerPc T) : ThreadPool n P T :=
  { s with producers := Function.update s.producers p pc }

/-! ## Operations -/

/-- The round of a worker's loop, up to the release of the mutex. -/
def work (s : ThreadPool n P T) (w : Fin n) : ThreadPool n P T :=
  if s.stop_ || !s.tasks_.isEmpty then
    if s.stop_ && s.tasks_.isEmpty then s.setWorker w .exited
    else
      match s.tasks_ with
      | _ :: tasks => { s.setWorker w .running with tasks_ := tasks }
      | [] => s.setWorker w .running
  else s.setWorker w .waiting

/-- The predicate a producer waits for. -/
def canPush (max_queue_size_ : Nat) (s : ThreadPool n P T) : Bool :=
  decide (s.tasks_.length < max_queue_size_) || s.stop_

/-- `AddTask` leaves the mutex with its task in the queue. -/
def push (s : ThreadPool n P T) (p : P) (task : T) : ThreadPool n P T :=
  { s.setProducer p .outside with tasks_ := s.tasks_ ++ [task] }

/-- What `notify_one` may select: any thread that waits, or none if there is none. -/
def Selects (s : ThreadPool n P T) : Option (Fin n ⊕ P) → Prop
  | some (.inl w) => s.workers_ w = .waiting
  | some (.inr p) => ∃ task, s.producers p = .waiting task
  | none => (∀ w, s.workers_ w ≠ .waiting) ∧ ∀ p task, s.producers p ≠ .waiting task

def notify_one (s : ThreadPool n P T) : Option (Fin n ⊕ P) → ThreadPool n P T
  | some (.inl w) => s.setWorker w .notified
  | some (.inr p) =>
    match s.producers p with
    | .waiting task => s.setProducer p (.notified task)
    | _ => s
  | none => s

end ThreadPool

/-! ## Runs -/

/-- One step of some thread.  Where a step notifies, `selected` is the thread it selects. -/
inductive PoolLabel (n : Nat) (P T : Type) where
  | work (w : Fin n)
  /-- A producer calls `AddTask`. -/
  | addTask (p : P) (task : T) (selected : Option (Fin n ⊕ P))
  /-- A producer that was notified tests its predicate again. -/
  | resume (p : P) (selected : Option (Fin n ⊕ P))
  /-- The destructor sets `stop_`. -/
  | stop
  /-- The destructor's `join()` returns. -/
  | join

/-- Any interleaving of the threads. -/
def poolSystem (n max_queue_size_ : Nat) (P T : Type) [DecidableEq P] :
    LTS.System (ThreadPool n P T) (PoolLabel n P T) where
  init := fun s => s = ThreadPool.create
  step := fun s l s' =>
    match l with
    | .work w =>
        (s.workers_ w = .running ∨ s.workers_ w = .notified) ∧ s' = s.work w
    | .addTask p task selected =>
        s.producers p = .outside ∧ s.destructor ≠ .done ∧
        if s.tasks_.length ≥ max_queue_size_ ∧ s.canPush max_queue_size_ = false then
          s' = s.setProducer p (.waiting task)
        else (s.push p task).Selects selected ∧ s' = (s.push p task).notify_one selected
    | .resume p selected =>
        ∃ task, s.producers p = .notified task ∧
        if s.canPush max_queue_size_ = false then s' = s.setProducer p (.waiting task)
        else (s.push p task).Selects selected ∧ s' = (s.push p task).notify_one selected
    | .stop =>
        s.destructor = .outside ∧ s' = { s with stop_ := true, destructor := .joining 0 }
    | .join =>
        ∃ k, s.destructor = .joining k ∧
        ((∃ h : k < n, s.workers_ ⟨k, h⟩ = .exited ∧ s' = { s with destructor := .joining (k + 1) }) ∨
          (k = n ∧ s' = { s with destructor := .done }))

/-- No thread in the pool's code can take a step, and there is work for one of them. -/
structure Deadlock {n : Nat} {P T : Type} (max_queue_size_ : Nat) (s : ThreadPool n P T) :
    Prop where
  workers : ∀ w, s.workers_ w = .waiting ∨ s.workers_ w = .exited
  producers : ∀ p, s.producers p = .outside ∨ ∃ task, s.producers p = .waiting task
  destructor : ∀ k, s.destructor = .joining k → ∃ h : k < n, s.workers_ ⟨k, h⟩ ≠ .exited
  work :
    (s.tasks_ ≠ [] ∧ ∃ w, s.workers_ w = .waiting) ∨
    ((∃ p task, s.producers p = .waiting task) ∧ s.tasks_.length < max_queue_size_) ∨
    ((∃ k, s.destructor = .joining k) ∧ s.stop_ = true ∧ ∃ w, s.workers_ w = .waiting)

/-- No `AddTask` finds the queue full, unless there is nobody to empty it or never room
    in it, and `stop_` is not set while a worker waits. -/
def NoLostWakeUp {n : Nat} {P T : Type} (max_queue_size_ : Nat) (s : ThreadPool n P T) :
    PoolLabel n P T → Prop
  | .addTask _ _ _ => s.canPush max_queue_size_ = true ∨ n = 0 ∨ max_queue_size_ = 0
  | .stop => ∀ w, s.workers_ w ≠ .waiting
  | _ => True

/-! ## What the steps change -/

namespace ThreadPool

section

variable {n : Nat} {P T : Type} (s : ThreadPool n P T) {w w' : Fin n} (pc : WorkerPc)

@[simp] theorem setWorker_self : (s.setWorker w pc).workers_ w = pc := Function.update_self ..

@[simp] theorem setWorker_of_ne (h : w' ≠ w) : (s.setWorker w pc).workers_ w' = s.workers_ w' :=
  Function.update_of_ne h ..

@[simp] theorem setWorker_tasks : (s.setWorker w pc).tasks_ = s.tasks_ := rfl

@[simp] theorem setWorker_stop : (s.setWorker w pc).stop_ = s.stop_ := rfl

@[simp] theorem setWorker_producers : (s.setWorker w pc).producers = s.producers := rfl

/-- What a round of a worker's loop can do. -/
theorem work_cases (w : Fin n) :
    (s.stop_ = true ∧ s.tasks_ = [] ∧ s.work w = s.setWorker w .exited) ∨
    (∃ task tasks, s.tasks_ = task :: tasks ∧
      s.work w = { s.setWorker w .running with tasks_ := tasks }) ∨
    (s.stop_ = false ∧ s.tasks_ = [] ∧ s.work w = s.setWorker w .waiting) := by
  unfold work
  cases hstop : s.stop_ with
  | true =>
    cases htasks : s.tasks_ with
    | nil => exact .inl ⟨rfl, rfl, by simp⟩
    | cons task tasks => exact .inr (.inl ⟨task, tasks, rfl, by simp⟩)
  | false =>
    cases htasks : s.tasks_ with
    | nil => exact .inr (.inr ⟨rfl, rfl, by simp⟩)
    | cons task tasks => exact .inr (.inl ⟨task, tasks, rfl, by simp⟩)

end

variable {n : Nat} {P T : Type} [DecidableEq P] {s : ThreadPool n P T}

@[simp] theorem setProducer_self (p : P) (pc : ProducerPc T) :
    (s.setProducer p pc).producers p = pc := Function.update_self ..

@[simp] theorem setProducer_of_ne {p p' : P} (pc : ProducerPc T) (h : p' ≠ p) :
    (s.setProducer p pc).producers p' = s.producers p' := Function.update_of_ne h ..

@[simp] theorem setProducer_tasks (p : P) (pc : ProducerPc T) :
    (s.setProducer p pc).tasks_ = s.tasks_ := rfl

@[simp] theorem setProducer_stop (p : P) (pc : ProducerPc T) :
    (s.setProducer p pc).stop_ = s.stop_ := rfl

@[simp] theorem setProducer_workers (p : P) (pc : ProducerPc T) :
    (s.setProducer p pc).workers_ = s.workers_ := rfl

@[simp] theorem push_tasks (p : P) (task : T) : (s.push p task).tasks_ = s.tasks_ ++ [task] := rfl

@[simp] theorem push_stop (p : P) (task : T) : (s.push p task).stop_ = s.stop_ := rfl

@[simp] theorem push_workers (p : P) (task : T) : (s.push p task).workers_ = s.workers_ := rfl

/-- A push leaves its producer outside, and the others where they are. -/
theorem push_producers (p : P) (task : T) (p' : P) :
    (s.push p task).producers p' = .outside ∨ (s.push p task).producers p' = s.producers p' := by
  by_cases hp : p' = p
  · subst hp
    exact .inl (s.setProducer_self _ _)
  · exact .inr (s.setProducer_of_ne _ hp)

/-- A notified worker is not waiting any more, and the others are where they were. -/
theorem waiting_of_notify_one {selected : Option (Fin n ⊕ P)} {w : Fin n}
    (h : (s.notify_one selected).workers_ w = .waiting) :
    s.workers_ w = .waiting ∧ selected ≠ some (.inl w) := by
  unfold notify_one at h
  split at h
  · next w' =>
    by_cases hw : w = w'
    · subst hw
      simp at h
    · rw [setWorker_of_ne _ _ hw] at h
      refine ⟨h, fun heq => hw ?_⟩
      cases heq
      rfl
  · split at h
    · exact ⟨h, fun heq => by cases heq⟩
    · exact ⟨h, fun heq => by cases heq⟩
  · exact ⟨h, fun heq => by cases heq⟩

theorem tasks_notify_one (selected : Option (Fin n ⊕ P)) :
    (s.notify_one selected).tasks_ = s.tasks_ ∧ (s.notify_one selected).stop_ = s.stop_ := by
  unfold notify_one
  split
  · exact ⟨rfl, rfl⟩
  · split <;> exact ⟨rfl, rfl⟩
  · exact ⟨rfl, rfl⟩

/-- A producer waits after a `notify_one` only if it did before. -/
theorem producer_of_notify_one {selected : Option (Fin n ⊕ P)} {p : P} {task : T}
    (h : (s.notify_one selected).producers p = .waiting task) : s.producers p = .waiting task := by
  unfold notify_one at h
  split at h
  · exact h
  · next p' =>
    split at h
    · by_cases hp : p = p'
      · subst hp
        simp at h
      · rwa [setProducer_of_ne _ hp] at h
    · exact h
  · exact h

/-- With every producer outside, a `notify_one` leaves them there. -/
theorem outside_notify_one (h : ∀ p, s.producers p = .outside) (selected : Option (Fin n ⊕ P))
    (p : P) : (s.notify_one selected).producers p = .outside := by
  unfold notify_one
  split
  · exact h p
  · next p' =>
    rw [h p']
    exact h p
  · exact h p

end ThreadPool

/-! ## The invariant -/

structure PoolInv {n : Nat} {P T : Type} (max_queue_size_ : Nat) (s : ThreadPool n P T) :
    Prop where
  /-- Producers wait in a degenerate pool only. -/
  outside : n = 0 ∨ max_queue_size_ = 0 ∨ ∀ p, s.producers p = .outside
  full : n = 0 → ∀ p task, s.producers p = .waiting task → max_queue_size_ ≤ s.tasks_.length
  empty : max_queue_size_ = 0 → s.stop_ = false → s.tasks_ = []
  /-- While there are tasks and idle workers, some worker is on its way. -/
  busy : s.tasks_ ≠ [] → (∃ w, s.workers_ w = .waiting) →
    ∃ w, s.workers_ w = .running ∨ s.workers_ w = .notified
  stopped : s.stop_ = true → ∀ w, s.workers_ w ≠ .waiting

theorem poolInv_create (n max_queue_size_ : Nat) (P T : Type) :
    PoolInv max_queue_size_ (ThreadPool.create : ThreadPool n P T) where
  outside := .inr (.inr fun _ => rfl)
  full := fun _ _ _ h => by cases h
  empty := fun _ _ => rfl
  busy := fun h => absurd rfl h
  stopped := fun h => by cases h

namespace PoolInv

variable {n max_queue_size_ : Nat} {P T : Type} {s : ThreadPool n P T}

theorem not_deadlock (h : PoolInv max_queue_size_ s) : ¬ Deadlock max_queue_size_ s := by
  intro hdead
  obtain ⟨htasks, hwait⟩ | ⟨⟨p, task, hp⟩, hlt⟩ | ⟨-, hstop, w, hw⟩ := hdead.work
  -- Tasks are left and a worker waits: another one is awake.
  · obtain ⟨w, hw⟩ := h.busy htasks hwait
    obtain hw' | hw' := hdead.workers w
    · simp [hw'] at hw
    · simp [hw'] at hw
  -- A producer waits although there is room.
  · obtain hzero | hzero | hout := h.outside
    · have hfull := h.full hzero p task hp
      omega
    · omega
    · simp [hout p] at hp
  · exact h.stopped hstop w hw

theorem work (h : PoolInv max_queue_size_ s) (w : Fin n) : PoolInv max_queue_size_ (s.work w) := by
  have hn : n ≠ 0 := fun hzero => (hzero ▸ w).elim0
  obtain ⟨hstop, htasks, heq⟩ | ⟨task, tasks, htasks, heq⟩ | ⟨hstop, htasks, heq⟩ :=
    s.work_cases w
  · rw [heq]
    refine ⟨h.outside, fun hzero => absurd hzero hn, h.empty, fun hne => absurd htasks hne, ?_⟩
    intro _ w' hw'
    by_cases hne : w' = w
    · subst hne
      simp at hw'
    · rw [s.setWorker_of_ne _ hne] at hw'
      exact h.stopped hstop w' hw'
  · -- The worker is awake whatever is left in the queue.
    rw [heq]
    refine ⟨h.outside, fun hzero => absurd hzero hn, ?_, fun _ _ => ⟨w, .inl (by simp)⟩, ?_⟩
    · intro hzero hstop
      rw [h.empty hzero hstop] at htasks
      cases htasks
    · intro hstop w' hw'
      by_cases hne : w' = w
      · subst hne
        simp at hw'
      · exact h.stopped hstop w' ((s.setWorker_of_ne _ hne).symm.trans hw')
  · rw [heq]
    refine ⟨h.outside, fun hzero => absurd hzero hn, h.empty, fun hne => absurd htasks hne, ?_⟩
    intro hstop'
    rw [s.setWorker_stop, hstop] at hstop'
    cases hstop'

/-- A push behind which `notify_one` has selected a thread. -/
theorem push [DecidableEq P] (h : PoolInv max_queue_size_ s) {p : P} {task : T}
    {selected : Option (Fin n ⊕ P)} (hpush : s.canPush max_queue_size_ = true)
    (hselects : (s.push p task).Selects selected) :
    PoolInv max_queue_size_ ((s.push p task).notify_one selected) := by
  obtain ⟨htasks, hstop⟩ := (s.push p task).tasks_notify_one selected
  have hwaiting : ∀ p' task', (s.push p task).producers p' = .waiting task' →
      s.producers p' = .waiting task' := by
    intro p' task' hp'
    obtain hout | hsame := s.push_producers p task p'
    · rw [hout] at hp'
      cases hp'
    · rwa [hsame] at hp'
  constructor
  · refine h.outside.imp_right (Or.imp_right fun hout p' => ?_)
    refine ThreadPool.outside_notify_one (fun p'' => ?_) selected p'
    obtain hout' | hsame := s.push_producers p task p''
    · exact hout'
    · rw [hsame, hout p'']
  -- Without workers the queue only grows.
  · intro hzero p' task' hp'
    have hle := h.full hzero p' task' (hwaiting _ _ (ThreadPool.producer_of_notify_one hp'))
    rw [htasks, ThreadPool.push_tasks, List.length_append]
    omega
  · intro hzero hstop'
    rw [hstop, ThreadPool.push_stop] at hstop'
    simp [ThreadPool.canPush, hzero, hstop'] at hpush
  · intro _ ⟨w, hafter⟩
    have hw : s.workers_ w = .waiting := (ThreadPool.waiting_of_notify_one hafter).1
    -- A worker waits, so a thread was selected; it is a worker, since no producer waits.
    cases selected with
    | none => exact absurd hw (hselects.1 w)
    | some thread =>
      cases thread with
      | inl w' => exact ⟨w', .inr (by simp [ThreadPool.notify_one])⟩
      | inr p' =>
        obtain ⟨task', hp'⟩ := hselects
        obtain hzero | hzero | hout := h.outside
        · exact (hzero ▸ w).elim0
        · have hstopped : s.stop_ = true := by simpa [ThreadPool.canPush, hzero] using hpush
          exact absurd hw (h.stopped hstopped w)
        · have hp'' := hwaiting _ _ hp'
          rw [hout p'] at hp''
          cases hp''
  · intro hstop' w hw
    rw [hstop, ThreadPool.push_stop] at hstop'
    exact h.stopped hstop' w (ThreadPool.waiting_of_notify_one hw).1

/-- A producer starts to wait, or goes back to it. -/
theorem wait [DecidableEq P] (h : PoolInv max_queue_size_ s) {p : P} {task : T}
    (hroom : n = 0 ∨ max_queue_size_ = 0) (hfull : s.canPush max_queue_size_ = false) :
    PoolInv max_queue_size_ (s.setProducer p (.waiting task)) := by
  refine ⟨hroom.imp_right .inl, ?_, h.empty, h.busy, h.stopped⟩
  intro hzero p' task' hp'
  by_cases hp : p' = p
  · have hge : ¬ s.tasks_.length < max_queue_size_ := by
      intro hlt
      simp [ThreadPool.canPush, hlt] at hfull
    exact Nat.le_of_not_lt hge
  · rw [s.setProducer_of_ne _ hp] at hp'
    exact h.full hzero p' task' hp'

end PoolInv

theorem poolInv_preserved {n max_queue_size_ : Nat} {P T : Type} [DecidableEq P]
    (s : ThreadPool n P T) (l : PoolLabel n P T) (s' : ThreadPool n P T)
    (h : PoolInv max_queue_size_ s)
    (hstep : ((poolSystem n max_queue_size_ P T).restrict (NoLostWakeUp max_queue_size_)).step
      s l s') : PoolInv max_queue_size_ s' := by
  obtain ⟨hcond, hstep⟩ := hstep
  cases l with
  | work w =>
    obtain ⟨-, rfl⟩ := hstep
    exact h.work w
  | addTask p task selected =>
    obtain ⟨-, -, hstep⟩ := hstep
    split at hstep
    · next hwait =>
      rw [hstep]
      exact h.wait (hcond.resolve_left (by simp [hwait.2])) hwait.2
    · next hroom =>
      obtain ⟨hselects, rfl⟩ := hstep
      refine h.push ?_ hselects
      by_contra hno
      have hlt : ¬ s.tasks_.length ≥ max_queue_size_ := fun hge => hroom ⟨hge, by simpa using hno⟩
      exact hno (by simp [ThreadPool.canPush, Nat.lt_of_not_le hlt])
  | resume p selected =>
    obtain ⟨task, hp, hstep⟩ := hstep
    -- Only in a degenerate pool a producer can have waited.
    have hroom : n = 0 ∨ max_queue_size_ = 0 := by
      obtain hzero | hzero | hout := h.outside
      · exact .inl hzero
      · exact .inr hzero
      · rw [hout p] at hp
        cases hp
    split at hstep
    · next hfull =>
      rw [hstep]
      exact h.wait hroom hfull
    · next hpush =>
      obtain ⟨hselects, rfl⟩ := hstep
      exact h.push (by simpa using hpush) hselects
  | stop =>
    obtain ⟨-, rfl⟩ := hstep
    refine ⟨h.outside, h.full, ?_, h.busy, fun _ => hcond⟩
    intro _ hstop
    cases hstop
  | join =>
    obtain ⟨k, -, ⟨-, -, rfl⟩ | ⟨-, rfl⟩⟩ := hstep
    · exact ⟨h.outside, h.full, h.empty, h.busy, h.stopped⟩
    · exact ⟨h.outside, h.full, h.empty, h.busy, h.stopped⟩

/-! ## Main theorem -/

/-- In every run without a lost wake-up, no state is a deadlock. -/
theorem pool_no_deadlock_reachable (n max_queue_size_ : Nat) (P T : Type) [DecidableEq P]
    (s : ThreadPool n P T)
    (hs : ((poolSystem n max_queue_size_ P T).restrict
      (NoLostWakeUp max_queue_size_)).Reachable s) :
    ¬ Deadlock max_queue_size_ s := by
  have h : PoolInv max_queue_size_ s := by
    refine LTS.System.invariant ?_ poolInv_preserved s hs
    intro s hinit
    rw [hinit]
    exact poolInv_create n max_queue_size_ P T
  exact h.not_deadlock

/-- A worker waits, a task arrives for it, and it has not taken it yet. -/
theorem pool_no_deadlock_notified :
    ∃ s : ThreadPool 1 (Fin 1) Nat, s.tasks_ = [7] ∧ s.workers_ 0 = .notified ∧ ¬ Deadlock 1 s := by
  have h0 : ((poolSystem 1 1 (Fin 1) Nat).restrict (NoLostWakeUp 1)).Reachable .create :=
    .start rfl
  have h1 := h0.next (.work 0) (by exact ⟨trivial, .inl rfl, rfl⟩)
  have h2 := h1.next (.addTask 0 7 (some (.inl 0)))
    (by exact ⟨.inl rfl, rfl, by decide, rfl, rfl⟩)
  exact ⟨_, rfl, rfl, pool_no_deadlock_reachable 1 1 (Fin 1) Nat _ h2⟩

/-- The pool is destroyed while its worker waits: nobody wakes it. -/
theorem pool_deadlock_idle :
    ¬ ∀ (n max_queue_size_ : Nat) (P T : Type) [DecidableEq P] (s : ThreadPool n P T),
      (poolSystem n max_queue_size_ P T).Reachable s → ¬ Deadlock max_queue_size_ s := by
  intro hall
  have h0 : (poolSystem 1 100000 (Fin 0) Unit).Reachable .create := .start rfl
  have h1 := h0.next (.work 0) (by exact ⟨.inl rfl, rfl⟩)
  have h2 := h1.next .stop (by exact ⟨rfl, rfl⟩)
  refine hall 1 100000 (Fin 0) Unit _ h2 ⟨?_, fun p => p.elim0, ?_, ?_⟩
  · intro w
    rw [Subsingleton.elim w 0]
    exact .inl rfl
  · intro k hk
    cases hk
    exact ⟨by decide, by decide⟩
  · exact .inr (.inr ⟨⟨0, rfl⟩, rfl, 0, rfl⟩)

end JNet
