import JNet.Net.ThreadPool

/-! # The tasks of a pool

    What becomes of the tasks given to a `ThreadPool`: a run of the pool with the
    tasks that were added and taken so far, in order, and those that had been added
    when the destructor set `stop_`.
-/

namespace JNet

/-! ## Histories -/

structure PoolRun (n : Nat) (P T : Type) where
  pool : ThreadPool n P T
  added : List T
  /-- The tasks that workers have taken off the queue and called. -/
  taken : List T
  /-- The tasks added before `stop_` was set. -/
  before : List T

namespace ThreadPool

variable {n : Nat} {P T : Type} [DecidableEq P]

/-- The task that a step adds. -/
def adds (max_queue_size_ : Nat) (s : ThreadPool n P T) : PoolLabel n P T → List T
  | .addTask _ task _ =>
      if s.tasks_.length ≥ max_queue_size_ ∧ s.canPush max_queue_size_ = false then [] else [task]
  | .resume p _ =>
      match s.producers p with
      | .notified task => if s.canPush max_queue_size_ = false then [] else [task]
      | _ => []
  | _ => []

/-- The task that a step takes. -/
def takes (s : ThreadPool n P T) : PoolLabel n P T → List T
  | .work _ => s.tasks_.head?.toList
  | _ => []

end ThreadPool

/-- The runs of a pool, with their history. -/
def taskSystem (n max_queue_size_ : Nat) (P T : Type) [DecidableEq P] :
    LTS.System (PoolRun n P T) (PoolLabel n P T) where
  init := fun s => s = ⟨.create, [], [], []⟩
  step := fun s l s' =>
    (poolSystem n max_queue_size_ P T).step s.pool l s'.pool ∧
    s'.added = s.added ++ s.pool.adds max_queue_size_ l ∧
    s'.taken = s.taken ++ s.pool.takes l ∧
    s'.before = if s.pool.stop_ then s.before else s'.added

/-! ## The queue -/

namespace ThreadPool

section steps

variable {n : Nat} {P T : Type} [DecidableEq P] {max_queue_size_ : Nat} {s s' : ThreadPool n P T}

/-- A producer that adds its task finds room, unless the pool is being destroyed. -/
theorem length_push {p : P} {task : T} (hpush : s.canPush max_queue_size_ = true)
    (hrunning : s.stop_ = false) : (s.push p task).tasks_.length ≤ max_queue_size_ := by
  have hlt : s.tasks_.length < max_queue_size_ := by simpa [canPush, hrunning] using hpush
  rw [push_tasks, List.length_append, List.length_singleton]
  omega

/-- `AddTask` comes to its push without waiting, or after it, only if it may push. -/
theorem canPush_of_not_waiting {P : Type} {s : ThreadPool n P T}
    (h : ¬ (s.tasks_.length ≥ max_queue_size_ ∧ s.canPush max_queue_size_ = false)) :
    s.canPush max_queue_size_ = true := by
  by_contra hno
  have hlt : ¬ s.tasks_.length ≥ max_queue_size_ := fun hge => h ⟨hge, by simpa using hno⟩
  exact hno (by simp [canPush, Nat.lt_of_not_le hlt])

/-- What a step does to the queue. -/
theorem queue_step {l : PoolLabel n P T}
    (hstep : (poolSystem n max_queue_size_ P T).step s l s') :
    s.takes l ++ s'.tasks_ = s.tasks_ ++ s.adds max_queue_size_ l ∧
    (s.stop_ = true → s'.stop_ = true) ∧
    (s'.stop_ = false → s.tasks_.length ≤ max_queue_size_ →
      s'.tasks_.length ≤ max_queue_size_) := by
  cases l with
  | work w =>
    obtain ⟨-, rfl⟩ := hstep
    obtain ⟨hstop, htasks, heq⟩ | ⟨task, tasks, htasks, heq⟩ | ⟨hstop, htasks, heq⟩ :=
      s.work_cases w
    · rw [heq]
      simp [takes, adds, htasks]
    · rw [heq]
      refine ⟨by simp [takes, adds, htasks], id, ?_⟩
      intro _ hlen
      rw [htasks, List.length_cons] at hlen
      exact Nat.le_of_succ_le hlen
    · rw [heq]
      simp [takes, adds, htasks]
  | addTask p task selected =>
    obtain ⟨-, -, hstep⟩ := hstep
    split at hstep
    · next hwait =>
      -- The producer waits with its task; nothing is queued yet.
      rw [hstep]
      refine ⟨?_, id, fun _ => id⟩
      simp only [takes, adds, if_pos hwait, setProducer_tasks, List.nil_append, List.append_nil]
    · next hroom =>
      obtain ⟨-, rfl⟩ := hstep
      obtain ⟨htasks, hstop⟩ := (s.push p task).tasks_notify_one selected
      rw [htasks, hstop]
      refine ⟨?_, id, fun hrunning _ => length_push (canPush_of_not_waiting hroom) hrunning⟩
      simp only [takes, adds, if_neg hroom, push_tasks, List.nil_append]
  | resume p selected =>
    obtain ⟨task, hp, hstep⟩ := hstep
    split at hstep
    · next hfull =>
      -- Woken in vain: another producer was faster.
      rw [hstep]
      refine ⟨?_, id, fun _ => id⟩
      simp only [takes, adds, hp, if_pos hfull, setProducer_tasks, List.nil_append,
        List.append_nil]
    · next hpush =>
      obtain ⟨-, rfl⟩ := hstep
      obtain ⟨htasks, hstop⟩ := (s.push p task).tasks_notify_one selected
      rw [htasks, hstop]
      refine ⟨?_, id, fun hrunning _ => length_push (by simpa using hpush) hrunning⟩
      simp only [takes, adds, hp, if_neg hpush, push_tasks, List.nil_append]
  | stop =>
    obtain ⟨-, rfl⟩ := hstep
    exact ⟨by simp [takes, adds], fun _ => rfl, fun h => by cases h⟩
  | join =>
    obtain ⟨k, -, ⟨-, -, rfl⟩ | ⟨-, rfl⟩⟩ := hstep
    · exact ⟨by simp [takes, adds], id, fun _ => id⟩
    · exact ⟨by simp [takes, adds], id, fun _ => id⟩

theorem destructor_notify_one (selected : Option (Fin n ⊕ P)) :
    (s.notify_one selected).destructor = s.destructor := by
  unfold notify_one
  split
  · rfl
  · split <;> rfl
  · rfl

/-- A `notify_one` selects nobody who has exited. -/
theorem exited_notify_one {selected : Option (Fin n ⊕ P)} {w : Fin n}
    (hselects : s.Selects selected) :
    (s.notify_one selected).workers_ w = .exited ↔ s.workers_ w = .exited := by
  cases selected with
  | none => rfl
  | some thread =>
    cases thread with
    | inl w' =>
      have hwaiting : s.workers_ w' = .waiting := hselects
      by_cases hw : w = w'
      · subst hw
        simp [notify_one, hwaiting]
      · simp [notify_one, hw]
    | inr p =>
      obtain ⟨task, hp⟩ := hselects
      simp [notify_one, hp]

/-- Who has exited after a step: those who had before, and a worker that found the queue
    empty and `stop_` set. -/
theorem exited_step {l : PoolLabel n P T} (hstep : (poolSystem n max_queue_size_ P T).step s l s')
    (w : Fin n) :
    (s.workers_ w = .exited → s'.workers_ w = .exited) ∧
    (s'.workers_ w = .exited → s.workers_ w = .exited ∨ s.stop_ = true ∧ s.tasks_ = []) := by
  cases l with
  | work w' =>
    obtain ⟨hawake, rfl⟩ := hstep
    by_cases hw : w = w'
    · -- The worker that takes the step had not exited.
      subst hw
      refine ⟨fun h => ?_, ?_⟩
      · rcases hawake with hrunning | hnotified
        · rw [h] at hrunning
          cases hrunning
        · rw [h] at hnotified
          cases hnotified
      · obtain ⟨hstop, htasks, heq⟩ | ⟨task, tasks, htasks, heq⟩ | ⟨hstop, htasks, heq⟩ :=
          s.work_cases w
        · exact fun _ => .inr ⟨hstop, htasks⟩
        · rw [heq]
          simp
        · rw [heq]
          simp
    · have hsame : (s.work w').workers_ w = s.workers_ w := by
        obtain ⟨hstop, htasks, heq⟩ | ⟨task, tasks, htasks, heq⟩ | ⟨hstop, htasks, heq⟩ :=
          s.work_cases w'
        · rw [heq, s.setWorker_of_ne _ hw]
        · rw [heq]
          exact s.setWorker_of_ne _ hw
        · rw [heq, s.setWorker_of_ne _ hw]
      rw [hsame]
      exact ⟨id, .inl⟩
  | addTask p task selected =>
    obtain ⟨-, -, hstep⟩ := hstep
    split at hstep
    · rw [hstep]
      exact ⟨id, .inl⟩
    · obtain ⟨hselects, rfl⟩ := hstep
      rw [exited_notify_one hselects]
      exact ⟨id, .inl⟩
  | resume p selected =>
    obtain ⟨task, -, hstep⟩ := hstep
    split at hstep
    · rw [hstep]
      exact ⟨id, .inl⟩
    · obtain ⟨hselects, rfl⟩ := hstep
      rw [exited_notify_one hselects]
      exact ⟨id, .inl⟩
  | stop =>
    obtain ⟨-, rfl⟩ := hstep
    exact ⟨id, .inl⟩
  | join =>
    obtain ⟨k, -, ⟨-, -, rfl⟩ | ⟨-, rfl⟩⟩ := hstep
    · exact ⟨id, .inl⟩
    · exact ⟨id, .inl⟩

end steps

end ThreadPool

/-! ## The invariant -/

structure TaskInv {n : Nat} {P T : Type} (max_queue_size_ : Nat) (s : PoolRun n P T) : Prop where
  order : s.taken ++ s.pool.tasks_ = s.added
  bounded : s.pool.stop_ = false → s.pool.tasks_.length ≤ max_queue_size_
  running : s.pool.stop_ = false → s.before = s.added
  begins : s.before <+: s.added
  /-- A worker leaves when everything added before `stop_` has been taken. -/
  exited : ∀ w, s.pool.workers_ w = .exited → s.pool.stop_ = true ∧ s.before <+: s.taken
  joining : ∀ k, s.pool.destructor = .joining k →
    s.pool.stop_ = true ∧ k ≤ n ∧ ∀ w : Fin n, w.val < k → s.pool.workers_ w = .exited
  done : s.pool.destructor = .done → s.pool.stop_ = true ∧ ∀ w, s.pool.workers_ w = .exited

section invariant

variable {n max_queue_size_ : Nat} {P T : Type} [DecidableEq P]

/-- Where the destructor is after a step. -/
theorem ThreadPool.destructor_step {s s' : ThreadPool n P T} {l : PoolLabel n P T}
    (hstep : (poolSystem n max_queue_size_ P T).step s l s') :
    (s'.destructor = s.destructor ∧ s'.stop_ = s.stop_) ∨
    (s'.destructor = .joining 0 ∧ s'.stop_ = true) ∨
    (∃ k, ∃ h : k < n, s.destructor = .joining k ∧ s.workers_ ⟨k, h⟩ = .exited ∧
      s'.destructor = .joining (k + 1)) ∨
    (s.destructor = .joining n ∧ s'.destructor = .done) := by
  cases l with
  | work w =>
    obtain ⟨-, rfl⟩ := hstep
    left
    obtain ⟨_, _, heq⟩ | ⟨_, _, _, heq⟩ | ⟨_, _, heq⟩ := s.work_cases w
    · rw [heq]
      exact ⟨rfl, rfl⟩
    · rw [heq]
      exact ⟨rfl, rfl⟩
    · rw [heq]
      exact ⟨rfl, rfl⟩
  | addTask p task selected =>
    obtain ⟨-, -, hstep⟩ := hstep
    left
    split at hstep
    · rw [hstep]
      exact ⟨rfl, rfl⟩
    · obtain ⟨-, rfl⟩ := hstep
      exact ⟨ThreadPool.destructor_notify_one selected,
        ((s.push p task).tasks_notify_one selected).2⟩
  | resume p selected =>
    obtain ⟨task, -, hstep⟩ := hstep
    left
    split at hstep
    · rw [hstep]
      exact ⟨rfl, rfl⟩
    · obtain ⟨-, rfl⟩ := hstep
      exact ⟨ThreadPool.destructor_notify_one selected,
        ((s.push p task).tasks_notify_one selected).2⟩
  | stop =>
    obtain ⟨-, rfl⟩ := hstep
    exact .inr (.inl ⟨rfl, rfl⟩)
  | join =>
    obtain ⟨k, hk, ⟨hlt, hexited, rfl⟩ | ⟨rfl, rfl⟩⟩ := hstep
    · exact .inr (.inr (.inl ⟨k, hlt, hk, hexited, rfl⟩))
    · exact .inr (.inr (.inr ⟨hk, rfl⟩))

theorem taskInv_initial (s : PoolRun n P T) (h : (taskSystem n max_queue_size_ P T).init s) :
    TaskInv max_queue_size_ s := by
  obtain rfl : s = ⟨.create, [], [], []⟩ := h
  constructor
  · rfl
  · simp [ThreadPool.create]
  · exact fun _ => rfl
  · exact List.prefix_refl _
  · simp [ThreadPool.create]
  · simp [ThreadPool.create]
  · simp [ThreadPool.create]

theorem taskInv_preserved (s : PoolRun n P T) (l : PoolLabel n P T) (s' : PoolRun n P T)
    (h : TaskInv max_queue_size_ s) (hstep : (taskSystem n max_queue_size_ P T).step s l s') :
    TaskInv max_queue_size_ s' := by
  obtain ⟨hpool, hadded, htaken, hbefore⟩ := hstep
  obtain ⟨hqueue, hstop, hbound⟩ := ThreadPool.queue_step hpool
  have hrunning : s'.pool.stop_ = false → s.pool.stop_ = false := by
    intro hno
    rw [← Bool.not_eq_true]
    intro hyes
    rw [hstop hyes] at hno
    cases hno
  have hgrows : s.taken <+: s'.taken := ⟨_, htaken.symm⟩
  have hexited : ∀ w, s'.pool.workers_ w = .exited →
      s'.pool.stop_ = true ∧ s'.before <+: s'.taken := by
    intro w hw
    rcases (ThreadPool.exited_step hpool w).2 hw with hold | ⟨hyes, hempty⟩
    · obtain ⟨hyes, hle⟩ := h.exited w hold
      rw [hbefore, if_pos hyes]
      exact ⟨hstop hyes, hle.trans hgrows⟩
    · -- It found nothing left.
      have horder := h.order
      rw [hempty, List.append_nil] at horder
      rw [hbefore, if_pos hyes]
      exact ⟨hstop hyes, (horder ▸ h.begins).trans hgrows⟩
  have hstays : ∀ w, s.pool.workers_ w = .exited → s'.pool.workers_ w = .exited :=
    fun w => (ThreadPool.exited_step hpool w).1
  constructor
  · rw [htaken, hadded, List.append_assoc, hqueue, ← List.append_assoc, h.order]
  · intro hno
    exact hbound hno (h.bounded (hrunning hno))
  · intro hno
    rw [hbefore, hrunning hno]
    rfl
  · -- `before` stands still from the moment `stop_` is set.
    rw [hbefore]
    split
    · exact h.begins.trans ⟨_, hadded.symm⟩
    · exact List.prefix_refl _
  · exact hexited
  · intro k hk
    rcases ThreadPool.destructor_step hpool with ⟨hsame, _⟩ | ⟨hzero, hyes⟩ |
      ⟨j, hj, hat, hw, hnext⟩ | ⟨_, hdone⟩
    · rw [hsame] at hk
      obtain ⟨hyes, hle, hall⟩ := h.joining k hk
      exact ⟨hstop hyes, hle, fun w hw => hstays w (hall w hw)⟩
    · rw [hzero] at hk
      cases hk
      exact ⟨hyes, Nat.zero_le n, fun w hw => absurd hw (Nat.not_lt_zero _)⟩
    · -- One more worker is joined, which has exited.
      rw [hnext] at hk
      cases hk
      obtain ⟨hyes, _, hall⟩ := h.joining j hat
      refine ⟨hstop hyes, hj, fun w hlt => hstays w ?_⟩
      by_cases heq : w.val = j
      · obtain rfl : w = ⟨j, hj⟩ := Fin.ext heq
        exact hw
      · exact hall w (by omega)
    · rw [hdone] at hk
      cases hk
  · intro hk
    rcases ThreadPool.destructor_step hpool with ⟨hsame, _⟩ | ⟨hzero, _⟩ | ⟨j, hj, _, _, hnext⟩ |
      ⟨hat, _⟩
    · rw [hsame] at hk
      exact ⟨hstop (h.done hk).1, fun w => hstays w ((h.done hk).2 w)⟩
    · rw [hzero] at hk
      cases hk
    · rw [hnext] at hk
      cases hk
    · obtain ⟨hyes, _, hall⟩ := h.joining n hat
      exact ⟨hstop hyes, fun w => hstays w (hall w w.isLt)⟩

end invariant

/-- **Tasks run once and in order**: at any time the tasks taken and those queued are the
    tasks added; the queue stays within its bound until the pool is destroyed; and when
    the destructor of a pool with workers is done, every task that was added before it has
    been taken. -/
theorem pool_tasks_once (n max_queue_size_ : Nat) (P T : Type) [DecidableEq P]
    (s : PoolRun n P T) (hs : (taskSystem n max_queue_size_ P T).Reachable s) :
    s.taken ++ s.pool.tasks_ = s.added ∧
    (s.pool.stop_ = false → s.pool.tasks_.length ≤ max_queue_size_) ∧
    (s.pool.destructor = .done → 0 < n → s.before <+: s.taken) := by
  have h := LTS.System.invariant taskInv_initial taskInv_preserved s hs
  refine ⟨h.order, h.bounded, ?_⟩
  intro hdone hpos
  exact (h.exited ⟨0, hpos⟩ ((h.done hdone).2 _)).2

/-- A worker is woken for a task, takes it, and finds the pool being destroyed. -/
theorem pool_tasks_once_done :
    ∃ s : PoolRun 1 (Fin 1) Nat, s.pool.destructor = .done ∧ s.taken = [7] ∧
      s.taken ++ s.pool.tasks_ = s.added ∧ s.before <+: s.taken := by
  have h0 : (taskSystem 1 100000 (Fin 1) Nat).Reachable ⟨.create, [], [], []⟩ := .start rfl
  have h1 : (taskSystem 1 100000 (Fin 1) Nat).Reachable ⟨_, [], [], []⟩ :=
    h0.next (.work 0) ⟨⟨.inl rfl, rfl⟩, rfl, rfl, rfl⟩
  have h2 : (taskSystem 1 100000 (Fin 1) Nat).Reachable ⟨_, [7], [], [7]⟩ :=
    h1.next (.addTask 0 7 (some (.inl 0))) ⟨⟨rfl, by decide, rfl, rfl⟩, rfl, rfl, rfl⟩
  have h3 : (taskSystem 1 100000 (Fin 1) Nat).Reachable ⟨_, [7], [7], [7]⟩ :=
    h2.next (.work 0) ⟨⟨.inr rfl, rfl⟩, rfl, rfl, rfl⟩
  have h4 : (taskSystem 1 100000 (Fin 1) Nat).Reachable ⟨_, [7], [7], [7]⟩ :=
    h3.next .stop ⟨⟨rfl, rfl⟩, rfl, rfl, rfl⟩
  have h5 : (taskSystem 1 100000 (Fin 1) Nat).Reachable ⟨_, [7], [7], [7]⟩ :=
    h4.next (.work 0) ⟨⟨.inl rfl, rfl⟩, rfl, rfl, rfl⟩
  have h6 : (taskSystem 1 100000 (Fin 1) Nat).Reachable ⟨_, [7], [7], [7]⟩ :=
    h5.next .join ⟨⟨0, rfl, .inl ⟨by decide, rfl, rfl⟩⟩, rfl, rfl, rfl⟩
  have h7 : (taskSystem 1 100000 (Fin 1) Nat).Reachable ⟨_, [7], [7], [7]⟩ :=
    h6.next .join ⟨⟨1, rfl, .inr ⟨rfl, rfl⟩⟩, rfl, rfl, rfl⟩
  have hmain := pool_tasks_once 1 100000 (Fin 1) Nat _ h7
  exact ⟨_, rfl, rfl, hmain.1, hmain.2.2 rfl (by decide)⟩

/-! ## The destructor -/

/-- The steps of the workers and of the destructor behind the store to `stop_`. -/
def OnlyDraining {n : Nat} {P T : Type} (_ : PoolRun n P T) : PoolLabel n P T → Prop
  | .work _ => True
  | .join => True
  | _ => False

section destructor

variable {n max_queue_size_ : Nat} {P T : Type}

/-- How far the destructor is from its end: the tasks that are left, and two steps for
    each worker to be joined. -/
def ThreadPool.stepsToJoin (s : ThreadPool n P T) : Nat :=
  s.tasks_.length +
  match s.destructor with
  | .joining k =>
      2 * (n + 1 - k) + if h : k < n then if s.workers_ ⟨k, h⟩ = .exited then 0 else 1 else 0
  | _ => 0

/-- In the destructor, with no worker asleep. -/
structure Draining (max_queue_size_ : Nat) (s : PoolRun n P T) : Prop where
  pool : PoolInv max_queue_size_ s.pool
  tasks : TaskInv max_queue_size_ s
  stopped : s.pool.stop_ = true
  joining : (∃ k, s.pool.destructor = .joining k) ∨ s.pool.destructor = .done

variable [DecidableEq P] {s : PoolRun n P T}

/-- A step of a worker or of the destructor, with what the history makes of it. -/
theorem Draining.next (h : Draining max_queue_size_ s) {l : PoolLabel n P T}
    (hl : OnlyDraining s l) {pool : ThreadPool n P T}
    (hpool : (poolSystem n max_queue_size_ P T).step s.pool l pool) :
    ∃ s', ((taskSystem n max_queue_size_ P T).restrict OnlyDraining).step s l s' ∧
      Draining max_queue_size_ s' ∧ s'.pool = pool := by
  have hcond : NoLostWakeUp max_queue_size_ s.pool l := by
    cases l with
    | work _ => trivial
    | join => trivial
    | addTask _ _ _ => exact hl.elim
    | resume _ _ => exact hl.elim
    | stop => exact hl.elim
  have hstep : (taskSystem n max_queue_size_ P T).step s l
      ⟨pool, s.added ++ s.pool.adds max_queue_size_ l, s.taken ++ s.pool.takes l, s.before⟩ :=
    ⟨hpool, rfl, rfl, by simp [h.stopped]⟩
  refine ⟨_, ⟨hl, hstep⟩, ⟨poolInv_preserved _ l _ h.pool ⟨hcond, hpool⟩,
    taskInv_preserved s l _ h.tasks hstep, (ThreadPool.queue_step hpool).2.1 h.stopped, ?_⟩, rfl⟩
  rcases ThreadPool.destructor_step hpool with ⟨hsame, _⟩ | ⟨hzero, _⟩ | ⟨k, _, _, _, hnext⟩ |
    ⟨_, hdone⟩
  · show (∃ k, pool.destructor = .joining k) ∨ pool.destructor = .done
    rw [hsame]
    exact h.joining
  · exact .inl ⟨0, hzero⟩
  · exact .inl ⟨k + 1, hnext⟩
  · exact .inr hdone

/-- Without a lost wake-up the destructor is where `Draining` wants it. -/
theorem draining_reachable (s : PoolRun n P T)
    (hs : ((taskSystem n max_queue_size_ P T).restrict
      fun s l => NoLostWakeUp max_queue_size_ s.pool l).Reachable s)
    (hstop : s.pool.stop_ = true) : Draining max_queue_size_ s := by
  have hinv : TaskInv max_queue_size_ s ∧ PoolInv max_queue_size_ s.pool ∧
      (s.pool.stop_ = true →
        (∃ k, s.pool.destructor = .joining k) ∨ s.pool.destructor = .done) := by
    refine LTS.System.invariant (P := fun s : PoolRun n P T => TaskInv max_queue_size_ s ∧
      PoolInv max_queue_size_ s.pool ∧ (s.pool.stop_ = true →
        (∃ k, s.pool.destructor = .joining k) ∨ s.pool.destructor = .done)) ?_ ?_ s hs
    · intro s hinit
      refine ⟨taskInv_initial s hinit, ?_⟩
      obtain rfl : s = ⟨.create, [], [], []⟩ := hinit
      exact ⟨poolInv_create n max_queue_size_ P T, by simp [ThreadPool.create]⟩
    · rintro s l s' ⟨htasks, hpoolInv, hjoining⟩ ⟨hcond, hstep⟩
      refine ⟨taskInv_preserved s l s' htasks hstep,
        poolInv_preserved s.pool l s'.pool hpoolInv ⟨hcond, hstep.1⟩, ?_⟩
      rcases ThreadPool.destructor_step hstep.1 with ⟨hsame, hsame'⟩ | ⟨hzero, _⟩ |
        ⟨k, _, _, _, hnext⟩ | ⟨_, hdone⟩
      · rw [hsame, hsame']
        exact hjoining
      · exact fun _ => .inl ⟨0, hzero⟩
      · exact fun _ => .inl ⟨k + 1, hnext⟩
      · exact fun _ => .inr hdone
  exact ⟨hinv.2.1, hinv.1, hstop, hinv.2.2 hstop⟩

theorem Draining.progress (h : Draining max_queue_size_ s)
    (hgoal : s.pool.destructor ≠ .done) :
    ∃ l s', ((taskSystem n max_queue_size_ P T).restrict OnlyDraining).step s l s' ∧
      Draining max_queue_size_ s' ∧ s'.pool.stepsToJoin < s.pool.stepsToJoin := by
  obtain ⟨k, hk⟩ := h.joining.resolve_right hgoal
  obtain ⟨_, hle, _⟩ := h.tasks.joining k hk
  by_cases hlt : k < n
  · by_cases hexited : s.pool.workers_ ⟨k, hlt⟩ = .exited
    · -- The next worker is joined.
      obtain ⟨s', hstep, hs', hpool⟩ := h.next (l := .join) trivial
        ⟨k, hk, .inl ⟨hlt, hexited, rfl⟩⟩
      refine ⟨.join, s', hstep, hs', ?_⟩
      rw [hpool]
      simp only [ThreadPool.stepsToJoin, hk]
      split
      · split <;> omega
      · omega
    · -- The worker to be joined is awake, and takes a task or leaves.
      have hawake : s.pool.workers_ ⟨k, hlt⟩ = .running ∨ s.pool.workers_ ⟨k, hlt⟩ = .notified := by
        have hnot := h.pool.stopped h.stopped ⟨k, hlt⟩
        cases hw : s.pool.workers_ ⟨k, hlt⟩ <;> simp_all
      obtain ⟨s', hstep, hs', hpool⟩ := h.next (l := .work ⟨k, hlt⟩) trivial ⟨hawake, rfl⟩
      refine ⟨.work ⟨k, hlt⟩, s', hstep, hs', ?_⟩
      rw [hpool]
      obtain ⟨_, htasks, heq⟩ | ⟨task, tasks, htasks, heq⟩ | ⟨hno, _, _⟩ :=
        s.pool.work_cases ⟨k, hlt⟩
      · rw [heq]
        simp [ThreadPool.stepsToJoin, hk, hlt, hexited, ThreadPool.setWorker]
      · rw [heq]
        simp [ThreadPool.stepsToJoin, hk, hlt, hexited, ThreadPool.setWorker, htasks]
      · rw [h.stopped] at hno
        cases hno
  · obtain rfl : k = n := by omega
    obtain ⟨s', hstep, hs', hpool⟩ := h.next (l := .join) trivial ⟨k, hk, .inr ⟨rfl, rfl⟩⟩
    refine ⟨.join, s', hstep, hs', ?_⟩
    rw [hpool]
    simp [ThreadPool.stepsToJoin, hk]

end destructor

/-- **The destructor drains the pool**: in every run without a lost wake-up, once `stop_` is
    set the steps of the workers and the joins alone can bring the destructor to its end,
    where every task that was added before has been taken and none has been taken twice. -/
theorem pool_destructor_drains (n max_queue_size_ : Nat) (P T : Type) [DecidableEq P]
    (hpos : 0 < n) (s : PoolRun n P T)
    (hs : ((taskSystem n max_queue_size_ P T).restrict
      fun s l => NoLostWakeUp max_queue_size_ s.pool l).Reachable s)
    (hstop : s.pool.stop_ = true) :
    ∃ s', ((taskSystem n max_queue_size_ P T).restrict OnlyDraining).Leads s s' ∧
      s'.pool.destructor = .done ∧ s'.before <+: s'.taken ∧
      s'.taken ++ s'.pool.tasks_ = s'.added := by
  obtain ⟨s', hleads, hs', hdone⟩ := LTS.System.leads_of_rank (P := Draining max_queue_size_)
    (fun s : PoolRun n P T => s.pool.stepsToJoin) (fun t ht => ht.progress) s
    (draining_reachable s hs hstop)
  exact ⟨s', hleads, hdone, (hs'.tasks.exited ⟨0, hpos⟩ ((hs'.tasks.done hdone).2 _)).2,
    hs'.tasks.order⟩

/-- A pool that is destroyed with a task in its queue. -/
theorem pool_destructor_drains_one :
    ∃ s : PoolRun 1 (Fin 1) Nat, s.pool.tasks_ = [7] ∧ s.pool.destructor = .joining 0 ∧
      ∃ s', ((taskSystem 1 100000 (Fin 1) Nat).restrict OnlyDraining).Leads s s' ∧
        s'.pool.destructor = .done ∧ s'.before <+: s'.taken ∧
        s'.taken ++ s'.pool.tasks_ = s'.added := by
  have h0 : ((taskSystem 1 100000 (Fin 1) Nat).restrict
      fun s l => NoLostWakeUp 100000 s.pool l).Reachable ⟨.create, [], [], []⟩ := .start rfl
  have h1 : ((taskSystem 1 100000 (Fin 1) Nat).restrict
      fun s l => NoLostWakeUp 100000 s.pool l).Reachable ⟨_, [], [], []⟩ :=
    h0.next (.work 0) ⟨trivial, ⟨.inl rfl, rfl⟩, rfl, rfl, rfl⟩
  have h2 : ((taskSystem 1 100000 (Fin 1) Nat).restrict
      fun s l => NoLostWakeUp 100000 s.pool l).Reachable ⟨_, [7], [], [7]⟩ :=
    h1.next (.addTask 0 7 (some (.inl 0)))
      ⟨.inl rfl, ⟨rfl, by decide, rfl, rfl⟩, rfl, rfl, rfl⟩
  have h3 : ((taskSystem 1 100000 (Fin 1) Nat).restrict
      fun s l => NoLostWakeUp 100000 s.pool l).Reachable ⟨_, [7], [], [7]⟩ :=
    h2.next .stop ⟨by intro w; rw [Subsingleton.elim w 0]; decide, ⟨rfl, rfl⟩, rfl, rfl, rfl⟩
  exact ⟨_, rfl, rfl, pool_destructor_drains 1 100000 (Fin 1) Nat (by decide) _ h3 rfl⟩

end JNet
