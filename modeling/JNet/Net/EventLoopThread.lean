import JNet.Net.EventLoop

/-! # `jnet::EventLoopThread`

    A loop on a thread of its own (`net/eventloop_thread.cc`).  `StartLoop` makes
    the thread and waits at a `CountDownLatch` (`net/countdownlatch.h`) until the
    thread has constructed its loop and published the address.  The destructor
    quits the loop and joins the thread.

    The loop and the threads that use it take the steps of `loopSystem`; in place
    of a thread, `none` stands for the owner of the object.
-/

namespace JNet

/-! ## State -/

/-- Where the owner of the object is. -/
inductive OwnerPc where
  | outside
  /-- In `latch_.Wait()`, in front of the mutex. -/
  | waiting
  /-- In `cond_.wait`. -/
  | blocked
  /-- Behind `latch_.Wait()`. -/
  | returning
  /-- `StartLoop` has returned. -/
  | started
  /-- In the destructor, in front of `Quit()`. -/
  | quitting
  /-- In `Quit()`, behind the store to `quit_`. -/
  | waking
  /-- In `thread_.join()`. -/
  | joining
  | destroyed
  deriving DecidableEq, Repr

/-- Where the thread is in `RunInThread`. -/
inductive ThreadPc where
  | absent
  | constructing
  /-- In front of `loop_ = &loop`. -/
  | publishing
  /-- In front of `latch_.Count()`. -/
  | counting
  | looping
  /-- In front of `loop_ = nullptr`. -/
  | clearing
  /-- In front of the end of the loop object. -/
  | destructing
  | exited
  deriving DecidableEq, Repr

structure EventLoopThread (Tid F : Type) where
  started_ : Bool
  /-- Whether `loop_` points to a loop. -/
  loop_ : Bool
  /-- `latch_.count_`. -/
  count_ : Int
  owner : OwnerPc
  thread : ThreadPc
  /-- The loop object on the stack of the thread. -/
  loop : Option (EventLoop (Option Tid) F)

/-- The object as constructed. -/
def EventLoopThread.create {Tid F : Type} : EventLoopThread Tid F where
  started_ := false
  loop_ := false
  count_ := 1
  owner := .outside
  thread := .absent
  loop := none

/-! ## Runs -/

namespace LoopLabel

variable {Tid F : Type}

/-- Who takes the step, if it is not the loop thread. -/
def caller : LoopLabel Tid F → Option Tid
  | .push t _ => some t
  | .quit t => some t
  | .wakeUp t => some t
  | _ => none

def isQuit : LoopLabel Tid F → Bool
  | .quit _ => true
  | .loopQuit => true
  | _ => false

end LoopLabel

inductive ThreadLabel (Tid F : Type) where
  | startLoop
  /-- `Wait` tests the count. -/
  | wait
  /-- `cond_.wait` returns without having been notified. -/
  | spurious
  | returnLoop
  | construct
  | publish
  | count
  /-- A step of the loop or of somebody who has its address. -/
  | loop (l : LoopLabel (Option Tid) F)
  /-- `Loop()` returns. -/
  | loopReturns
  | clear
  | destruct
  /-- The destructor, up to the test of `loop_`. -/
  | destructor
  /-- The first half of `Quit()`. -/
  | quit
  | wakeUp
  | join

/-- Who may take a step on the loop: its thread while it is in `Loop()`, and the
    others once `StartLoop` has returned the address. -/
def EventLoopThread.MayStep {Tid F : Type} (s : EventLoopThread Tid F)
    (l : LoopLabel (Option Tid) F) : Prop :=
  match l.caller with
  | none => s.thread = .looping
  | some none => s.owner = .started
  | some (some _) =>
      s.owner = .started ∨ s.owner = .quitting ∨ s.owner = .waking ∨ s.owner = .joining

/-- The owner, the thread and the users of the loop, their steps in any order. -/
def threadSystem (Tid F : Type) [DecidableEq Tid] :
    LTS.System (EventLoopThread Tid F) (ThreadLabel Tid F) where
  init := fun s => s = .create
  step := fun s l s' =>
    match l with
    | .startLoop =>
        s.owner = .outside ∧
        s' = { s with started_ := true, owner := .waiting, thread := .constructing }
    | .wait =>
        s.owner = .waiting ∧ s' = { s with owner := if s.count_ > 0 then .blocked else .returning }
    | .spurious => s.owner = .blocked ∧ s' = { s with owner := .waiting }
    | .returnLoop => s.owner = .returning ∧ s.loop_ = true ∧ s' = { s with owner := .started }
    | .construct =>
        s.thread = .constructing ∧ s' = { s with loop := some .create, thread := .publishing }
    | .publish => s.thread = .publishing ∧ s' = { s with loop_ := true, thread := .counting }
    | .count =>
        -- Done under the mutex: whoever is in `cond_.wait` is notified.
        s.thread = .counting ∧
        s' = { s with
          count_ := s.count_ - 1
          owner := if s.count_ - 1 ≤ 0 ∧ s.owner = .blocked then .waiting else s.owner
          thread := .looping }
    | .loop l =>
        ∃ loop loop', s.loop = some loop ∧ (loopSystem (Option Tid) F).step loop l loop' ∧
        s.MayStep l ∧ s' = { s with loop := some loop' }
    | .loopReturns =>
        s.thread = .looping ∧ (∃ loop, s.loop = some loop ∧ loop.phase = .exited) ∧
        s' = { s with thread := .clearing }
    | .clear => s.thread = .clearing ∧ s' = { s with loop_ := false, thread := .destructing }
    | .destruct => s.thread = .destructing ∧ s' = { s with loop := none, thread := .exited }
    | .destructor =>
        (s.owner = .outside ∨ s.owner = .started) ∧
        (∀ loop, s.loop = some loop → loop.caller none = .idle) ∧
        s' = { s with
          owner := if s.started_ then if s.loop_ then .quitting else .joining else .destroyed }
    | .quit =>
        s.owner = .quitting ∧ ∃ loop loop', s.loop = some loop ∧
        (loopSystem (Option Tid) F).step loop (.quit none) loop' ∧
        s' = { s with loop := some loop', owner := .waking }
    | .wakeUp =>
        s.owner = .waking ∧ ∃ loop loop', s.loop = some loop ∧
        (loopSystem (Option Tid) F).step loop (.wakeUp none) loop' ∧
        s' = { s with loop := some loop', owner := .joining }
    | .join => s.owner = .joining ∧ s.thread = .exited ∧ s' = { s with owner := .destroyed }

/-- Nobody but the destructor quits the loop, and the loop object does not end while
    the destructor is still going to wake it up. -/
def EventLoopThread.Orderly {Tid F : Type} (s : EventLoopThread Tid F) :
    ThreadLabel Tid F → Prop
  | .loop l => l.isQuit = false
  | .destruct => s.owner ≠ .waking
  | _ => True

/-- The steps of the loop thread with functors that push nothing and do not quit:
    `Poll` returns if the eventfd is readable, which is then read before the swap. -/
def EventLoop.Unaided {Tid F : Type} (s : EventLoop Tid F) : LoopLabel Tid F → Prop
  | .pollReturn => 0 < s.wakeups
  | .swap => s.wakeups = 0
  | .push _ _ => False
  | .quit _ => False
  | .wakeUp _ => False
  | .loopPush _ => False
  | .loopQuit => False
  | _ => True

/-- The steps that the owner and the thread take by themselves. -/
def EventLoopThread.Unaided {Tid F : Type} (s : EventLoopThread Tid F) :
    ThreadLabel Tid F → Prop
  | .loop l => ∃ loop, s.loop = some loop ∧ loop.Unaided l
  | .startLoop => False
  | .spurious => False
  | .destructor => False
  | .destruct => s.owner ≠ .waking
  | _ => True

/-! ## Quitting a loop -/

/-- A loop that has been told to quit does not sleep on: its eventfd is readable,
    or somebody is about to make it so. -/
structure QuitInv {Tid F : Type} (s : EventLoop Tid F) : Prop where
  exited : s.phase = .exited → s.quit_ = true
  noticed : s.quit_ = true → s.phase = .polling → 0 < s.wakeups ∨ ∃ t, s.caller t = .quitting

section quitting

variable {Tid F : Type} {s s' : EventLoop Tid F}

/-- What is left of `Loop()` once `quit_` is set. -/
def EventLoop.stepsToQuit (s : EventLoop Tid F) : Nat :=
  (if s.loopPushed then 1 else 0) +
  match s.phase with
  | .exited => 0
  | .testing => 1
  | .draining funcs => if s.doingPending_ then funcs.length + 2 else funcs.length + 3
  | .dispatching => s.pendingFunctors_.length + if 0 < s.wakeups then 5 else 4
  | .polling => s.pendingFunctors_.length + 6

/-- A step that leaves the phase and `quit_` alone and takes no announcement back. -/
theorem QuitInv.keep (h : QuitInv s) (hphase : s'.phase = s.phase) (hquit : s'.quit_ = s.quit_)
    (hcount : 0 < s.wakeups → 0 < s'.wakeups)
    (hcaller : ∀ t, s.caller t = .quitting → 0 < s'.wakeups ∨ ∃ t, s'.caller t = .quitting) :
    QuitInv s' where
  exited := by
    rw [hphase, hquit]
    exact h.exited
  noticed := by
    rw [hphase, hquit]
    intro hq hp
    rcases h.noticed hq hp with hpos | ⟨t, ht⟩
    · exact .inl (hcount hpos)
    · exact hcaller t ht

/-- A step that ends in front of neither `Poll` nor the end of `Loop()`. -/
theorem QuitInv.away (hexited : s'.phase ≠ .exited) (hpolling : s'.phase ≠ .polling) :
    QuitInv s' where
  exited := fun h => absurd h hexited
  noticed := fun _ h => absurd h hpolling

variable [DecidableEq Tid]

/-- A wake-up costs the loop one call of `HandleRead` at most. -/
theorem EventLoop.stepsToQuit_wakeUp {t : Tid}
    (hstep : (loopSystem Tid F).step s (.wakeUp t) s') :
    s'.stepsToQuit ≤ s.stepsToQuit + 1 := by
  obtain ⟨_, rfl⟩ := hstep
  unfold EventLoop.stepsToQuit
  cases hphase : s.phase with
  | dispatching =>
    have hpos := EventLoop.wakeups_wakeUp s
    simp only [EventLoop.wakeUp] at hpos
    simp only [EventLoop.wakeUp, hphase, if_pos hpos]
    split <;> split <;> omega
  | testing | polling | draining _ | exited =>
    simp [EventLoop.wakeUp, hphase]

theorem quitInv_initial (s : EventLoop Tid F) (h : (loopSystem Tid F).init s) : QuitInv s := by
  obtain rfl : s = EventLoop.create := h
  exact QuitInv.away (by simp [EventLoop.create]) (by simp [EventLoop.create])

theorem quitInv_preserved (s : EventLoop Tid F) (l : LoopLabel Tid F) (s' : EventLoop Tid F)
    (hloop : LoopInv s) (h : QuitInv s) (hstep : (loopSystem Tid F).step s l s') :
    QuitInv s' := by
  -- A callback or a functor runs neither in front of `Poll` nor behind the loop.
  have hinside : s.phase = .dispatching ∨ s.doingPending_ = true →
      s.phase ≠ .exited ∧ s.phase ≠ .polling := by
    rintro (hphase | hdoing)
    · rw [hphase]
      simp
    · obtain ⟨funcs, hphase⟩ := hloop.doing hdoing
      rw [hphase]
      simp
  cases l with
  | push t f =>
    obtain ⟨hidle, rfl⟩ := hstep
    refine h.keep rfl rfl id ?_
    intro t' ht'
    have hne : t' ≠ t := by
      rintro rfl
      rw [hidle] at ht'
      cases ht'
    exact .inr ⟨t', by simpa [hne] using ht'⟩
  | quit t =>
    obtain ⟨_, _, rfl⟩ := hstep
    exact ⟨fun _ => rfl, fun _ _ => .inr ⟨t, by simp⟩⟩
  | wakeUp t =>
    obtain ⟨_, rfl⟩ := hstep
    exact h.keep rfl rfl (fun _ => EventLoop.wakeups_wakeUp s)
      (fun _ _ => .inl (EventLoop.wakeups_wakeUp s))
  | loopPush f =>
    obtain ⟨hwhere, _, rfl⟩ := hstep
    exact QuitInv.away (hinside hwhere).1 (hinside hwhere).2
  | loopWakeUp =>
    obtain ⟨hpushed, rfl⟩ := hstep
    have hwhere := hinside (hloop.pushing hpushed)
    split
    · exact QuitInv.away hwhere.1 hwhere.2
    · exact QuitInv.away hwhere.1 hwhere.2
  | loopQuit =>
    obtain ⟨hwhere, _, _, rfl⟩ := hstep
    exact QuitInv.away (hinside hwhere).1 (hinside hwhere).2
  | test =>
    obtain ⟨_, _, rfl⟩ := hstep
    by_cases hquit : s.quit_ = true
    · exact ⟨fun _ => hquit, by simp [hquit]⟩
    · exact ⟨by simp [hquit], fun hyes => absurd hyes hquit⟩
  | pollReturn =>
    obtain ⟨_, _, rfl⟩ := hstep
    exact QuitInv.away (by simp) (by simp)
  | handleRead =>
    obtain ⟨hphase, _, rfl⟩ := hstep
    have hwhere := hinside (.inl hphase)
    exact QuitInv.away hwhere.1 hwhere.2
  | swap =>
    obtain ⟨_, _, rfl⟩ := hstep
    exact QuitInv.away (by simp) (by simp)
  | startBatch =>
    obtain ⟨⟨funcs, hphase⟩, _, _, rfl⟩ := hstep
    exact QuitInv.away (by simp [hphase]) (by simp [hphase])
  | runFunctor =>
    obtain ⟨f, funcs, _, _, _, rfl⟩ := hstep
    exact QuitInv.away (by simp) (by simp)
  | endBatch =>
    obtain ⟨_, _, _, rfl⟩ := hstep
    exact QuitInv.away (by simp) (by simp)

/-- Both invariants of a loop. -/
theorem loop_quitInv_reachable (s : EventLoop Tid F) (hs : (loopSystem Tid F).Reachable s) :
    LoopInv s ∧ QuitInv s := by
  refine LTS.System.invariant (P := fun s => LoopInv s ∧ QuitInv s) ?_ ?_ s hs
  · exact fun s h => ⟨loopInv_initial s h, quitInv_initial s h⟩
  · exact fun s l s' h hstep =>
      ⟨loopInv_preserved s l s' h.1 hstep, quitInv_preserved s l s' h.1 h.2 hstep⟩

/-- A loop that is to quit, and whose announcement has been made, has a step of its
    own that brings it nearer to its end. -/
theorem EventLoop.quit_progress (hloop : LoopInv s) (hquitInv : QuitInv s)
    (hquit : s.quit_ = true) (hcaller : ∀ t, s.caller t ≠ .quitting)
    (hexited : s.phase ≠ .exited) :
    ∃ l s', (loopSystem Tid F).step s l s' ∧ s.Unaided l ∧
      s'.stepsToQuit < s.stepsToQuit := by
  by_cases hpushed : s.loopPushed = true
  · refine ⟨.loopWakeUp, _, ⟨hpushed, rfl⟩, trivial, ?_⟩
    unfold EventLoop.stepsToQuit
    by_cases hdoing : s.doingPending_ = true
    · obtain ⟨funcs, hphase⟩ := hloop.doing hdoing
      simp [hpushed, hdoing, hphase, EventLoop.wakeUp]
    · simp [hpushed, hdoing]
  · rw [Bool.not_eq_true] at hpushed
    cases hphase : s.phase with
    | exited => exact absurd hphase hexited
    | testing =>
      refine ⟨.test, _, ⟨hphase, hpushed, rfl⟩, trivial, ?_⟩
      simp [EventLoop.stepsToQuit, hphase, hpushed, hquit]
    | polling =>
      have hpos : 0 < s.wakeups := by
        rcases hquitInv.noticed hquit hphase with hpos | ⟨t, ht⟩
        · exact hpos
        · exact absurd ht (hcaller t)
      refine ⟨.pollReturn, _, ⟨hphase, hpushed, rfl⟩, hpos, ?_⟩
      simp [EventLoop.stepsToQuit, hphase, hpushed, hpos]
    | dispatching =>
      have hdoing := hloop.not_doing (by simp [hphase])
      by_cases hpos : 0 < s.wakeups
      · refine ⟨.handleRead, _, ⟨hphase, hpushed, rfl⟩, trivial, ?_⟩
        simp [EventLoop.stepsToQuit, EventLoop.handleRead, hphase, hpushed, hpos]
      · refine ⟨.swap, _, ⟨hphase, hpushed, rfl⟩, Nat.eq_zero_of_not_pos hpos, ?_⟩
        simp [EventLoop.stepsToQuit, hphase, hpushed, hdoing, hpos]
    | draining funcs =>
      by_cases hdoing : s.doingPending_ = true
      · cases funcs with
        | nil =>
          refine ⟨.endBatch, _, ⟨hphase, hdoing, hpushed, rfl⟩, trivial, ?_⟩
          simp [EventLoop.stepsToQuit, hphase, hpushed, hdoing]
        | cons f funcs =>
          refine ⟨.runFunctor, _, ⟨f, funcs, hphase, hdoing, hpushed, rfl⟩, trivial, ?_⟩
          simp [EventLoop.stepsToQuit, hphase, hpushed, hdoing]
      · rw [Bool.not_eq_true] at hdoing
        refine ⟨.startBatch, _, ⟨⟨funcs, hphase⟩, hdoing, hpushed, rfl⟩, trivial, ?_⟩
        simp [EventLoop.stepsToQuit, hphase, hpushed, hdoing]

end quitting

/-! ## The invariant -/

/-- The members by the progress of the thread, and where the owner may be then. -/
def EventLoopThread.Stage {Tid F : Type} (s : EventLoopThread Tid F) : Prop :=
  match s.thread with
  | .absent =>
      s.started_ = false ∧ s.loop = none ∧ s.loop_ = false ∧ s.count_ = 1 ∧
      (s.owner = .outside ∨ s.owner = .destroyed)
  | .constructing =>
      s.started_ = true ∧ s.loop = none ∧ s.loop_ = false ∧ s.count_ = 1 ∧
      (s.owner = .waiting ∨ s.owner = .blocked)
  | .publishing =>
      s.started_ = true ∧ s.loop ≠ none ∧ s.loop_ = false ∧ s.count_ = 1 ∧
      (s.owner = .waiting ∨ s.owner = .blocked)
  | .counting =>
      s.started_ = true ∧ s.loop ≠ none ∧ s.loop_ = true ∧ s.count_ = 1 ∧
      (s.owner = .waiting ∨ s.owner = .blocked)
  | .looping =>
      s.started_ = true ∧ s.loop ≠ none ∧ s.loop_ = true ∧ s.count_ = 0 ∧
      (s.owner = .waiting ∨ s.owner = .returning ∨ s.owner = .started ∨ s.owner = .quitting ∨
        s.owner = .waking ∨ s.owner = .joining)
  | .clearing =>
      s.started_ = true ∧ s.loop ≠ none ∧ s.loop_ = true ∧ s.count_ = 0 ∧
      (s.owner = .waking ∨ s.owner = .joining)
  | .destructing =>
      s.started_ = true ∧ s.loop ≠ none ∧ s.loop_ = false ∧ s.count_ = 0 ∧
      (s.owner = .waking ∨ s.owner = .joining)
  | .exited =>
      s.started_ = true ∧ s.loop = none ∧ s.loop_ = false ∧ s.count_ = 0 ∧
      (s.owner = .joining ∨ s.owner = .destroyed)

/-- What the loop knows of its owner. -/
structure EventLoopThread.Agrees {Tid F : Type} [DecidableEq Tid] (s : EventLoopThread Tid F)
    (loop : EventLoop (Option Tid) F) : Prop where
  reachable : (loopSystem (Option Tid) F).Reachable loop
  quit : loop.quit_ = true ↔ s.owner = .waking ∨ s.owner = .joining
  quitting : ∀ t, loop.caller t = .quitting → t = none ∧ s.owner = .waking
  idle : s.owner = .quitting → loop.caller none = .idle
  waking : s.owner = .waking → loop.caller none = .quitting
  ended : s.thread = .clearing ∨ s.thread = .destructing → loop.phase = .exited

structure LifecycleInv {Tid F : Type} [DecidableEq Tid] (s : EventLoopThread Tid F) : Prop where
  stage : s.Stage
  agrees : ∀ loop, s.loop = some loop → s.Agrees loop

section lifecycle

variable {Tid F : Type} [DecidableEq Tid] {s s' : EventLoopThread Tid F}

/-- What a step that is no `Quit()` leaves alone. -/
theorem loopSystem_frame {Tid : Type} [DecidableEq Tid] {loop loop' : EventLoop Tid F}
    {l : LoopLabel Tid F} (hstep : (loopSystem Tid F).step loop l loop') :
    (l.isQuit = false → loop'.quit_ = loop.quit_ ∧
      ∀ t, loop'.caller t = .quitting → loop.caller t = .quitting) ∧
    (∀ t, l.caller ≠ some t → loop'.caller t = loop.caller t) ∧
    (l.caller ≠ none → loop'.phase = loop.phase) := by
  cases l with
  | push t f =>
    obtain ⟨_, rfl⟩ := hstep
    refine ⟨fun _ => ⟨rfl, ?_⟩, ?_, fun _ => rfl⟩
    · intro t' ht'
      by_cases hne : t' = t
      · subst hne
        simp at ht'
      · simpa [hne] using ht'
    · intro t' hne
      exact Function.update_of_ne (fun heq => hne (by rw [heq]; rfl)) _ _
  | quit t =>
    obtain ⟨_, _, rfl⟩ := hstep
    refine ⟨by simp [LoopLabel.isQuit], ?_, fun _ => rfl⟩
    intro t' hne
    exact Function.update_of_ne (fun heq => hne (by rw [heq]; rfl)) _ _
  | wakeUp t =>
    obtain ⟨_, rfl⟩ := hstep
    refine ⟨fun _ => ⟨rfl, ?_⟩, ?_, fun _ => rfl⟩
    · intro t' ht'
      by_cases hne : t' = t
      · subst hne
        simp at ht'
      · simpa [hne] using ht'
    · intro t' hne
      exact Function.update_of_ne (fun heq => hne (by rw [heq]; rfl)) _ _
  | loopPush f =>
    obtain ⟨_, _, rfl⟩ := hstep
    exact ⟨fun _ => ⟨rfl, fun _ => id⟩, fun _ _ => rfl, fun h => absurd rfl h⟩
  | loopWakeUp =>
    obtain ⟨_, rfl⟩ := hstep
    refine ⟨fun _ => ?_, fun _ _ => ?_, fun h => absurd rfl h⟩
    · split
      · exact ⟨rfl, fun _ => id⟩
      · exact ⟨rfl, fun _ => id⟩
    · split
      · rfl
      · rfl
  | loopQuit =>
    obtain ⟨_, _, _, rfl⟩ := hstep
    exact ⟨by simp [LoopLabel.isQuit], fun _ _ => rfl, fun h => absurd rfl h⟩
  | test =>
    obtain ⟨_, _, rfl⟩ := hstep
    exact ⟨fun _ => ⟨rfl, fun _ => id⟩, fun _ _ => rfl, fun h => absurd rfl h⟩
  | pollReturn =>
    obtain ⟨_, _, rfl⟩ := hstep
    exact ⟨fun _ => ⟨rfl, fun _ => id⟩, fun _ _ => rfl, fun h => absurd rfl h⟩
  | handleRead =>
    obtain ⟨_, _, rfl⟩ := hstep
    exact ⟨fun _ => ⟨rfl, fun _ => id⟩, fun _ _ => rfl, fun h => absurd rfl h⟩
  | swap =>
    obtain ⟨_, _, rfl⟩ := hstep
    exact ⟨fun _ => ⟨rfl, fun _ => id⟩, fun _ _ => rfl, fun h => absurd rfl h⟩
  | startBatch =>
    obtain ⟨_, _, _, rfl⟩ := hstep
    exact ⟨fun _ => ⟨rfl, fun _ => id⟩, fun _ _ => rfl, fun h => absurd rfl h⟩
  | runFunctor =>
    obtain ⟨_, _, _, _, _, rfl⟩ := hstep
    exact ⟨fun _ => ⟨rfl, fun _ => id⟩, fun _ _ => rfl, fun h => absurd rfl h⟩
  | endBatch =>
    obtain ⟨_, _, _, rfl⟩ := hstep
    exact ⟨fun _ => ⟨rfl, fun _ => id⟩, fun _ _ => rfl, fun h => absurd rfl h⟩

/-- A step of somebody who uses the loop. -/
theorem EventLoopThread.Agrees.step {loop loop' : EventLoop (Option Tid) F}
    {l : LoopLabel (Option Tid) F} (h : s.Agrees loop)
    (hstep : (loopSystem (Option Tid) F).step loop l loop') (hmay : s.MayStep l)
    (hquit : l.isQuit = false) : ({ s with loop := some loop' }).Agrees loop' := by
  obtain ⟨hkeep, hcaller, hphase⟩ := loopSystem_frame hstep
  obtain ⟨hq, hquitting⟩ := hkeep hquit
  -- Once the destructor runs, the owner takes no other step on the loop.
  have howner : s.owner ≠ .started → loop'.caller none = loop.caller none := by
    intro hne
    refine hcaller none ?_
    intro hnone
    simp only [EventLoopThread.MayStep, hnone] at hmay
    exact hne hmay
  have hthread : s.thread ≠ .looping → loop'.phase = loop.phase := by
    intro hne
    refine hphase ?_
    intro hnone
    simp only [EventLoopThread.MayStep, hnone] at hmay
    exact hne hmay
  refine ⟨h.reachable.next l hstep, ?_, ?_, ?_, ?_, ?_⟩
  · rw [hq]
    exact h.quit
  · intro t ht
    exact h.quitting t (hquitting t ht)
  · intro (heq : s.owner = .quitting)
    rw [howner (by simp [heq])]
    exact h.idle heq
  · intro (heq : s.owner = .waking)
    rw [howner (by simp [heq])]
    exact h.waking heq
  · intro (heq : s.thread = .clearing ∨ s.thread = .destructing)
    rw [hthread (by rcases heq with heq | heq <;> simp [heq])]
    exact h.ended heq

/-- What the loop knows is the place of the owner in the destructor, and whether the
    thread has left `Loop()`. -/
theorem EventLoopThread.Agrees.move {loop : EventLoop (Option Tid) F} (h : s.Agrees loop)
    (hquit : s'.owner = .waking ∨ s'.owner = .joining ↔ s.owner = .waking ∨ s.owner = .joining)
    (hquitting : s'.owner = .quitting → loop.caller none = .idle)
    (hwaking : s'.owner = .waking ↔ s.owner = .waking)
    (hended : s'.thread = .clearing ∨ s'.thread = .destructing → loop.phase = .exited) :
    s'.Agrees loop where
  reachable := h.reachable
  quit := by
    rw [hquit]
    exact h.quit
  quitting := by
    rw [hwaking]
    exact h.quitting
  idle := hquitting
  waking := by
    rw [hwaking]
    exact h.waking
  ended := hended

theorem lifecycleInv_initial (s : EventLoopThread Tid F) (h : (threadSystem Tid F).init s) :
    LifecycleInv s := by
  obtain rfl : s = EventLoopThread.create := h
  exact ⟨by simp [EventLoopThread.Stage, EventLoopThread.create], by simp [EventLoopThread.create]⟩

theorem lifecycleInv_preserved (s : EventLoopThread Tid F) (l : ThreadLabel Tid F)
    (s' : EventLoopThread Tid F) (h : LifecycleInv s)
    (hstep : ((threadSystem Tid F).restrict EventLoopThread.Orderly).step s l s') :
    LifecycleInv s' := by
  obtain ⟨horderly, hstep⟩ := hstep
  have hstage := h.stage
  cases l with
  | startLoop =>
    obtain ⟨howner, rfl⟩ := hstep
    have hthread : s.thread = .absent := by
      cases hthread : s.thread <;> simp_all [EventLoopThread.Stage]
    simp only [EventLoopThread.Stage, hthread] at hstage
    obtain ⟨_, hnone, hloop, hcount, _⟩ := hstage
    refine ⟨⟨rfl, hnone, hloop, hcount, .inl rfl⟩, ?_⟩
    intro loop (hsome : s.loop = some loop)
    rw [hnone] at hsome
    cases hsome
  | wait =>
    obtain ⟨howner, rfl⟩ := hstep
    refine ⟨?_, ?_⟩
    · cases hthread : s.thread <;> simp_all [EventLoopThread.Stage]
    · intro loop hsome
      have hagrees := h.agrees loop hsome
      refine hagrees.move ?_ ?_ ?_ hagrees.ended
      · split <;> simp [howner]
      · split <;> simp
      · split <;> simp [howner]
  | spurious =>
    obtain ⟨howner, rfl⟩ := hstep
    refine ⟨?_, ?_⟩
    · cases hthread : s.thread <;> simp_all [EventLoopThread.Stage]
    · intro loop hsome
      have hagrees := h.agrees loop hsome
      exact hagrees.move (by simp [howner]) (by simp) (by simp [howner]) hagrees.ended
  | returnLoop =>
    obtain ⟨howner, _, rfl⟩ := hstep
    refine ⟨?_, ?_⟩
    · cases hthread : s.thread <;> simp_all [EventLoopThread.Stage]
    · intro loop hsome
      have hagrees := h.agrees loop hsome
      exact hagrees.move (by simp [howner]) (by simp) (by simp [howner]) hagrees.ended
  | construct =>
    obtain ⟨hthread, rfl⟩ := hstep
    simp only [EventLoopThread.Stage, hthread] at hstage
    obtain ⟨hstarted, _, hloop, hcount, howner⟩ := hstage
    refine ⟨⟨hstarted, by simp, hloop, hcount, howner⟩, ?_⟩
    intro loop hsome
    cases hsome
    refine ⟨.start rfl, ?_, by simp [EventLoop.create], fun _ => rfl, ?_, by simp⟩
    · rcases howner with howner | howner <;> simp [EventLoop.create, howner]
    · rcases howner with howner | howner <;> simp [howner]
  | publish =>
    obtain ⟨hthread, rfl⟩ := hstep
    simp only [EventLoopThread.Stage, hthread] at hstage
    obtain ⟨hstarted, hsome, _, hcount, howner⟩ := hstage
    refine ⟨⟨hstarted, hsome, rfl, hcount, howner⟩, ?_⟩
    intro loop hsome
    have hagrees := h.agrees loop hsome
    exact hagrees.move .rfl hagrees.idle .rfl (by simp)
  | count =>
    obtain ⟨hthread, rfl⟩ := hstep
    simp only [EventLoopThread.Stage, hthread] at hstage
    obtain ⟨hstarted, hsome, hloop, hcount, howner⟩ := hstage
    -- The owner has not seen the latch at 0 yet, and is awake afterwards.
    have hwaiting : (if s.count_ - 1 ≤ 0 ∧ s.owner = .blocked then OwnerPc.waiting
        else s.owner) = .waiting := by
      rcases howner with howner | howner <;> simp [hcount, howner]
    refine ⟨⟨hstarted, hsome, hloop, by simp [hcount], .inl hwaiting⟩, ?_⟩
    intro loop hsome
    have hagrees := h.agrees loop hsome
    refine hagrees.move ?_ ?_ ?_ (by simp)
    · rw [hwaiting]
      rcases howner with howner | howner <;> simp [howner]
    · rw [hwaiting]
      simp
    · rw [hwaiting]
      rcases howner with howner | howner <;> simp [howner]
  | loop l =>
    obtain ⟨loop, loop', hsome, hinner, hmay, rfl⟩ := hstep
    refine ⟨?_, ?_⟩
    · cases hthread : s.thread <;> simp_all [EventLoopThread.Stage]
    · intro loop'' hsome'
      cases hsome'
      exact (h.agrees loop hsome).step hinner hmay horderly
  | loopReturns =>
    obtain ⟨hthread, ⟨loop, hsome, hexited⟩, rfl⟩ := hstep
    have hagrees := h.agrees loop hsome
    have hquit := (loop_quitInv_reachable loop hagrees.reachable).2.exited hexited
    simp only [EventLoopThread.Stage, hthread] at hstage
    obtain ⟨hstarted, hsome', hloop, hcount, _⟩ := hstage
    refine ⟨⟨hstarted, hsome', hloop, hcount, hagrees.quit.mp hquit⟩, ?_⟩
    intro loop' hsome''
    obtain rfl : loop = loop' := by simpa [hsome] using hsome''
    exact hagrees.move .rfl hagrees.idle .rfl fun _ => hexited
  | clear =>
    obtain ⟨hthread, rfl⟩ := hstep
    simp only [EventLoopThread.Stage, hthread] at hstage
    obtain ⟨hstarted, hsome, _, hcount, howner⟩ := hstage
    refine ⟨⟨hstarted, hsome, rfl, hcount, howner⟩, ?_⟩
    intro loop hsome
    have hagrees := h.agrees loop hsome
    exact hagrees.move .rfl hagrees.idle .rfl fun _ => hagrees.ended (.inl hthread)
  | destruct =>
    obtain ⟨hthread, rfl⟩ := hstep
    simp only [EventLoopThread.Stage, hthread] at hstage
    obtain ⟨hstarted, _, hloop, hcount, howner⟩ := hstage
    exact ⟨⟨hstarted, rfl, hloop, hcount, .inl (howner.resolve_left horderly)⟩, by simp⟩
  | destructor =>
    obtain ⟨howner, hidle, rfl⟩ := hstep
    rcases howner with howner | howner
    · have hthread : s.thread = .absent := by
        cases hthread : s.thread <;> simp_all [EventLoopThread.Stage]
      simp only [EventLoopThread.Stage, hthread] at hstage
      obtain ⟨hstarted, hnone, hloop, hcount, _⟩ := hstage
      refine ⟨?_, ?_⟩
      · simp [EventLoopThread.Stage, hthread, hstarted, hnone, hloop, hcount]
      · intro loop (hsome : s.loop = some loop)
        rw [hnone] at hsome
        cases hsome
    · have hthread : s.thread = .looping := by
        cases hthread : s.thread <;> simp_all [EventLoopThread.Stage]
      simp only [EventLoopThread.Stage, hthread] at hstage
      obtain ⟨hstarted, hsome, hloop, hcount, _⟩ := hstage
      refine ⟨?_, ?_⟩
      · simp [EventLoopThread.Stage, hthread, hstarted, hsome, hloop, hcount]
      · intro loop hsome
        refine (h.agrees loop hsome).move ?_ (fun _ => hidle loop hsome) ?_ ?_
        · simp [hstarted, hloop, howner]
        · simp [hstarted, hloop, howner]
        · simp [hthread]
  | quit =>
    obtain ⟨howner, loop, loop', hsome, hinner, rfl⟩ := hstep
    have hagrees := h.agrees loop hsome
    have hthread : s.thread = .looping := by
      cases hthread : s.thread <;> simp_all [EventLoopThread.Stage]
    simp only [EventLoopThread.Stage, hthread] at hstage
    obtain ⟨hstarted, hsome', hloop, hcount, _⟩ := hstage
    refine ⟨?_, ?_⟩
    · simp [EventLoopThread.Stage, hthread, hstarted, hloop, hcount]
    · intro loop'' hsome''
      cases hsome''
      obtain ⟨_, hcaller, _⟩ := loopSystem_frame hinner
      have hreach := hagrees.reachable.next _ hinner
      obtain ⟨_, _, rfl⟩ := hinner
      refine ⟨hreach, by simp, ?_, by simp, by simp, by simp [hthread]⟩
      intro t ht
      by_cases hne : t = none
      · exact ⟨hne, rfl⟩
      · have hold := hcaller t (fun heq => hne (Option.some.inj heq).symm)
        rw [hold] at ht
        have := (hagrees.quitting t ht).2
        rw [howner] at this
        cases this
  | wakeUp =>
    obtain ⟨howner, loop, loop', hsome, hinner, rfl⟩ := hstep
    have hagrees := h.agrees loop hsome
    refine ⟨?_, ?_⟩
    · cases hthread : s.thread <;> simp_all [EventLoopThread.Stage]
    · intro loop'' hsome''
      cases hsome''
      have hreach := hagrees.reachable.next _ hinner
      have hquit := hagrees.quit.mpr (.inl howner)
      obtain ⟨_, rfl⟩ := hinner
      refine ⟨hreach, by simpa [EventLoop.wakeUp] using hquit, ?_, by simp, by simp, hagrees.ended⟩
      -- The only call of `Quit()` is over.
      intro t ht
      by_cases hne : t = none
      · subst hne
        simp at ht
      · have := hagrees.quitting t (by simpa [hne] using ht)
        exact absurd this.1 hne
  | join =>
    obtain ⟨howner, hthread, rfl⟩ := hstep
    simp only [EventLoopThread.Stage, hthread] at hstage
    obtain ⟨hstarted, hnone, hloop, hcount, _⟩ := hstage
    refine ⟨by simp [EventLoopThread.Stage, hthread, hstarted, hnone, hloop, hcount], ?_⟩
    intro loop (hsome : s.loop = some loop)
    rw [hnone] at hsome
    cases hsome

theorem lifecycleInv_reachable (s : EventLoopThread Tid F)
    (hs : ((threadSystem Tid F).restrict EventLoopThread.Orderly).Reachable s) :
    LifecycleInv s := by
  refine LTS.System.invariant ?_ lifecycleInv_preserved s hs
  exact lifecycleInv_initial

/-! ## Progress -/

theorem EventLoopThread.Unaided.orderly {Tid : Type} {s : EventLoopThread Tid F}
    {l : ThreadLabel Tid F} (h : s.Unaided l) : s.Orderly l := by
  match l with
  | .loop l =>
    obtain ⟨loop, _, hl⟩ := h
    match l with
    | .quit t => exact hl.elim
    | .loopQuit => exact hl.elim
    | .push _ _ | .wakeUp _ | .loopPush _ | .loopWakeUp | .test | .pollReturn | .handleRead |
      .swap | .startBatch | .runFunctor | .endBatch => rfl
  | .destruct => exact h
  | .startLoop | .wait | .spurious | .returnLoop | .construct | .publish | .count | .loopReturns |
    .clear | .destructor | .quit | .wakeUp | .join => trivial

theorem EventLoop.Unaided.caller {Tid : Type} {loop : EventLoop Tid F} {l : LoopLabel Tid F}
    (h : loop.Unaided l) : l.caller = none := by
  match l with
  | .push _ _ => exact h.elim
  | .quit _ => exact h.elim
  | .wakeUp _ => exact h.elim
  | .loopPush _ | .loopQuit | .loopWakeUp | .test | .pollReturn | .handleRead | .swap |
    .startBatch | .runFunctor | .endBatch => rfl

/-- An unaided step with the invariant behind it. -/
theorem LifecycleInv.unaided {l : ThreadLabel Tid F} (h : LifecycleInv s) (hl : s.Unaided l)
    (hstep : (threadSystem Tid F).step s l s') :
    ((threadSystem Tid F).restrict EventLoopThread.Unaided).step s l s' ∧ LifecycleInv s' :=
  ⟨⟨hl, hstep⟩, lifecycleInv_preserved s l s' h ⟨hl.orderly, hstep⟩⟩

/-- In `StartLoop`, behind the start of the thread. -/
def EventLoopThread.Starting (s : EventLoopThread Tid F) : Prop :=
  s.owner = .waiting ∨ s.owner = .blocked ∨ s.owner = .returning ∨ s.owner = .started

/-- How far `StartLoop` is from its end: first the thread comes to its loop, then the
    owner takes the steps that are left. -/
def EventLoopThread.stepsToStart (s : EventLoopThread Tid F) : Nat :=
  3 * (match s.thread with
    | .constructing => 3
    | .publishing => 2
    | .counting => 1
    | _ => 0) +
  match s.owner with
  | .waiting => 2
  | .returning => 1
  | _ => 0

theorem LifecycleInv.start_progress (h : LifecycleInv s) (hstarting : s.Starting)
    (hgoal : s.owner ≠ .started) :
    ∃ l s', ((threadSystem Tid F).restrict EventLoopThread.Unaided).step s l s' ∧
      (LifecycleInv s' ∧ s'.Starting) ∧ s'.stepsToStart < s.stepsToStart := by
  have hstage := h.stage
  cases hthread : s.thread with
  | constructing =>
    obtain ⟨hstep, hinv⟩ := h.unaided (l := .construct) trivial ⟨hthread, rfl⟩
    refine ⟨.construct, _, hstep, ⟨hinv, hstarting⟩, ?_⟩
    simp only [EventLoopThread.stepsToStart, hthread]
    omega
  | publishing =>
    obtain ⟨hstep, hinv⟩ := h.unaided (l := .publish) trivial ⟨hthread, rfl⟩
    refine ⟨.publish, _, hstep, ⟨hinv, hstarting⟩, ?_⟩
    simp only [EventLoopThread.stepsToStart, hthread]
    omega
  | counting =>
    obtain ⟨hstep, hinv⟩ := h.unaided (l := .count) trivial ⟨hthread, rfl⟩
    simp only [EventLoopThread.Stage, hthread] at hstage
    obtain ⟨_, _, _, hcount, howner⟩ := hstage
    refine ⟨.count, _, hstep, ⟨hinv, ?_⟩, ?_⟩
    · rcases howner with howner | howner <;>
        simp [EventLoopThread.Starting, hcount, howner]
    · rcases howner with howner | howner <;>
        simp [EventLoopThread.stepsToStart, hthread, hcount, howner]
  | looping =>
    simp only [EventLoopThread.Stage, hthread] at hstage
    obtain ⟨_, _, hloop, hcount, howner⟩ := hstage
    rcases hstarting with hwaiting | hblocked | hreturning | hstarted
    · obtain ⟨hstep, hinv⟩ := h.unaided (l := .wait) trivial ⟨hwaiting, rfl⟩
      refine ⟨.wait, _, hstep, ⟨hinv, ?_⟩, ?_⟩
      · simp [EventLoopThread.Starting, hcount]
      · simp [EventLoopThread.stepsToStart, hthread, hcount, hwaiting]
    · simp [hblocked] at howner
    · obtain ⟨hstep, hinv⟩ := h.unaided (l := .returnLoop) trivial ⟨hreturning, hloop, rfl⟩
      refine ⟨.returnLoop, _, hstep, ⟨hinv, ?_⟩, ?_⟩
      · simp [EventLoopThread.Starting]
      · simp [EventLoopThread.stepsToStart, hthread, hreturning]
    · exact absurd hstarted hgoal
  | absent | clearing | destructing | exited =>
    simp only [EventLoopThread.Stage, hthread] at hstage
    rcases hstarting with hwhere | hwhere | hwhere | hwhere <;> simp [hwhere] at hstage

/-- In the destructor of an object whose thread was started. -/
def EventLoopThread.Ending (s : EventLoopThread Tid F) : Prop :=
  s.owner = .quitting ∨ s.owner = .waking ∨ s.owner = .joining ∨ s.owner = .destroyed

/-- How far the destructor is from its end. -/
def EventLoopThread.stepsToEnd (s : EventLoopThread Tid F) : Nat :=
  (match s.owner with
    | .quitting => 4
    | .waking => 3
    | .joining => 1
    | _ => 0) +
  match s.thread with
  | .clearing => 3
  | .destructing => 2
  | .exited => 1
  | _ => 4 + match s.loop with
    | some loop => loop.stepsToQuit
    | none => 0

theorem LifecycleInv.end_progress (h : LifecycleInv s) (hending : s.Ending)
    (hgoal : s.owner ≠ .destroyed) :
    ∃ l s', ((threadSystem Tid F).restrict EventLoopThread.Unaided).step s l s' ∧
      (LifecycleInv s' ∧ s'.Ending) ∧ s'.stepsToEnd < s.stepsToEnd := by
  have hstage := h.stage
  rcases hending with hquitting | hwaking | hjoining | hdestroyed
  · -- The thread is in its loop, and nobody has told it to quit.
    have hthread : s.thread = .looping := by
      cases hthread : s.thread <;> simp_all [EventLoopThread.Stage]
    simp only [EventLoopThread.Stage, hthread] at hstage
    obtain ⟨loop, hsome⟩ := Option.ne_none_iff_exists'.mp hstage.2.1
    have hagrees := h.agrees loop hsome
    have hquit : loop.quit_ = false := by
      rw [← Bool.not_eq_true, hagrees.quit]
      simp [hquitting]
    obtain ⟨hstep, hinv⟩ := h.unaided (l := .quit) trivial
      ⟨hquitting, loop, _, hsome, ⟨hagrees.idle hquitting, hquit, rfl⟩, rfl⟩
    refine ⟨.quit, _, hstep, ⟨hinv, .inr (.inl rfl)⟩, ?_⟩
    simp [EventLoopThread.stepsToEnd, EventLoop.stepsToQuit, hquitting, hthread, hsome]
  · have hsome : s.loop ≠ none := by
      cases hthread : s.thread <;> simp_all [EventLoopThread.Stage]
    obtain ⟨loop, hsome⟩ := Option.ne_none_iff_exists'.mp hsome
    have hagrees := h.agrees loop hsome
    obtain ⟨loop', hinner⟩ : ∃ loop', (loopSystem (Option Tid) F).step loop (.wakeUp none) loop' :=
      ⟨_, by simp [hagrees.waking hwaking], rfl⟩
    obtain ⟨hstep, hinv⟩ := h.unaided (l := .wakeUp) trivial
      ⟨hwaking, loop, loop', hsome, hinner, rfl⟩
    refine ⟨.wakeUp, _, hstep, ⟨hinv, .inr (.inr (.inl rfl))⟩, ?_⟩
    have hsteps := EventLoop.stepsToQuit_wakeUp hinner
    simp only [EventLoopThread.stepsToEnd, hwaking, hsome]
    cases s.thread <;> dsimp only <;> omega
  · cases hthread : s.thread with
    | looping =>
      simp only [EventLoopThread.Stage, hthread] at hstage
      obtain ⟨loop, hsome⟩ := Option.ne_none_iff_exists'.mp hstage.2.1
      have hagrees := h.agrees loop hsome
      by_cases hexited : loop.phase = .exited
      · obtain ⟨hstep, hinv⟩ := h.unaided (l := .loopReturns) trivial
          ⟨hthread, ⟨loop, hsome, hexited⟩, rfl⟩
        refine ⟨.loopReturns, _, hstep, ⟨hinv, .inr (.inr (.inl hjoining))⟩, ?_⟩
        simp only [EventLoopThread.stepsToEnd, hthread]
        omega
      · obtain ⟨hloopInv, hquitInv⟩ := loop_quitInv_reachable loop hagrees.reachable
        have hcaller : ∀ t, loop.caller t ≠ .quitting := by
          intro t ht
          have := (hagrees.quitting t ht).2
          rw [hjoining] at this
          cases this
        obtain ⟨l, loop', hinner, hl, hless⟩ := EventLoop.quit_progress hloopInv hquitInv
          (hagrees.quit.mpr (.inr hjoining)) hcaller hexited
        obtain ⟨hstep, hinv⟩ := h.unaided (l := .loop l) ⟨loop, hsome, hl⟩
          ⟨loop, loop', hsome, hinner, by simpa [EventLoopThread.MayStep, hl.caller] using hthread,
            rfl⟩
        refine ⟨.loop l, _, hstep, ⟨hinv, .inr (.inr (.inl hjoining))⟩, ?_⟩
        simp only [EventLoopThread.stepsToEnd, hthread, hsome]
        omega
    | clearing =>
      obtain ⟨hstep, hinv⟩ := h.unaided (l := .clear) trivial ⟨hthread, rfl⟩
      refine ⟨.clear, _, hstep, ⟨hinv, .inr (.inr (.inl hjoining))⟩, ?_⟩
      simp [EventLoopThread.stepsToEnd, hthread]
    | destructing =>
      obtain ⟨hstep, hinv⟩ := h.unaided (l := .destruct)
        (by simp [EventLoopThread.Unaided, hjoining]) ⟨hthread, rfl⟩
      refine ⟨.destruct, _, hstep, ⟨hinv, .inr (.inr (.inl hjoining))⟩, ?_⟩
      simp [EventLoopThread.stepsToEnd, hthread]
    | exited =>
      obtain ⟨hstep, hinv⟩ := h.unaided (l := .join) trivial ⟨hjoining, hthread, rfl⟩
      refine ⟨.join, _, hstep, ⟨hinv, .inr (.inr (.inr rfl))⟩, ?_⟩
      simp [EventLoopThread.stepsToEnd, hjoining]
    | absent | constructing | publishing | counting =>
      simp only [EventLoopThread.Stage, hthread] at hstage
      simp [hjoining] at hstage
  · exact absurd hdestroyed hgoal

end lifecycle

/-- **The life of a loop thread**: in every orderly run `StartLoop` finds the address
    of a loop at its last assertion; the loop it returned is alive and not told to
    quit until the destructor does so, and is still there at the wake-up; after the
    destructor the thread and its loop have ended.  A call of `StartLoop` or of the
    destructor can be finished at any time by steps of the owner and the thread
    alone. -/
theorem eventLoopThread_lifecycle {Tid F : Type} [DecidableEq Tid] (s : EventLoopThread Tid F)
    (hs : ((threadSystem Tid F).restrict EventLoopThread.Orderly).Reachable s) :
    (s.owner = .returning → s.loop_ = true) ∧
    (s.owner = .started ∨ s.owner = .quitting →
      ∃ loop, s.loop = some loop ∧ s.loop_ = true ∧ loop.quit_ = false) ∧
    (s.owner = .waking → ∃ loop, s.loop = some loop ∧ loop.quit_ = true) ∧
    (s.owner = .destroyed → s.loop = none ∧ (s.thread = .absent ∨ s.thread = .exited)) ∧
    (s.owner = .waiting ∨ s.owner = .blocked ∨ s.owner = .returning →
      ∃ s', ((threadSystem Tid F).restrict EventLoopThread.Unaided).Leads s s' ∧
        s'.owner = .started) ∧
    (s.owner = .quitting ∨ s.owner = .waking ∨ s.owner = .joining →
      ∃ s', ((threadSystem Tid F).restrict EventLoopThread.Unaided).Leads s s' ∧
        s'.owner = .destroyed) := by
  have hinv := lifecycleInv_reachable s hs
  have hstage := hinv.stage
  refine ⟨?_, ?_, ?_, ?_, ?_, ?_⟩
  · intro howner
    cases hthread : s.thread <;> simp_all [EventLoopThread.Stage]
  · intro howner
    have hthread : s.thread = .looping := by
      cases hthread : s.thread <;> rcases howner with howner | howner <;>
        simp_all [EventLoopThread.Stage]
    simp only [EventLoopThread.Stage, hthread] at hstage
    obtain ⟨_, hne, hloop, _⟩ := hstage
    obtain ⟨loop, hsome⟩ := Option.ne_none_iff_exists'.mp hne
    refine ⟨loop, hsome, hloop, ?_⟩
    rw [← Bool.not_eq_true, (hinv.agrees loop hsome).quit]
    rcases howner with howner | howner <;> simp [howner]
  · intro howner
    have hne : s.loop ≠ none := by
      cases hthread : s.thread <;> simp_all [EventLoopThread.Stage]
    obtain ⟨loop, hsome⟩ := Option.ne_none_iff_exists'.mp hne
    exact ⟨loop, hsome, (hinv.agrees loop hsome).quit.mpr (.inl howner)⟩
  · intro howner
    cases hthread : s.thread <;> simp_all [EventLoopThread.Stage]
  · intro howner
    have hstarting : s.Starting := by
      rcases howner with howner | howner | howner <;> simp [EventLoopThread.Starting, howner]
    obtain ⟨s', hleads, _, hgoal⟩ := LTS.System.leads_of_rank
      (P := fun t : EventLoopThread Tid F => LifecycleInv t ∧ t.Starting)
      EventLoopThread.stepsToStart (fun t ht => ht.1.start_progress ht.2) s ⟨hinv, hstarting⟩
    exact ⟨s', hleads, hgoal⟩
  · intro howner
    have hending : s.Ending := by
      rcases howner with howner | howner | howner <;> simp [EventLoopThread.Ending, howner]
    obtain ⟨s', hleads, _, hgoal⟩ := LTS.System.leads_of_rank
      (P := fun t : EventLoopThread Tid F => LifecycleInv t ∧ t.Ending)
      EventLoopThread.stepsToEnd (fun t ht => ht.1.end_progress ht.2) s ⟨hinv, hending⟩
    exact ⟨s', hleads, hgoal⟩

/-- The owner sleeps at the latch while the loop is made, and later destroys the
    object: the loop is alive in front of `Quit()`, and the destructor can finish. -/
theorem eventLoopThread_lifecycle_quitting :
    ∃ s : EventLoopThread Nat Nat, s.owner = .quitting ∧
      (∃ loop, s.loop = some loop ∧ s.loop_ = true ∧ loop.quit_ = false) ∧
      ∃ s', ((threadSystem Nat Nat).restrict EventLoopThread.Unaided).Leads s s' ∧
        s'.owner = .destroyed := by
  have h0 : ((threadSystem Nat Nat).restrict EventLoopThread.Orderly).Reachable .create :=
    .start rfl
  have h1 := h0.next .startLoop (by exact ⟨trivial, rfl, rfl⟩)
  have h2 := h1.next .wait (by exact ⟨trivial, rfl, rfl⟩)
  have h3 := h2.next .construct (by exact ⟨trivial, rfl, rfl⟩)
  have h4 := h3.next .publish (by exact ⟨trivial, rfl, rfl⟩)
  have h5 := h4.next .count (by exact ⟨trivial, rfl, rfl⟩)
  have h6 := h5.next .wait (by exact ⟨trivial, rfl, rfl⟩)
  have h7 := h6.next .returnLoop (by exact ⟨trivial, rfl, rfl, rfl⟩)
  have h8 := h7.next (.loop .test)
    (by exact ⟨rfl, _, _, rfl, ⟨rfl, rfl, rfl⟩, rfl, rfl⟩)
  have h9 := h8.next .destructor (by exact ⟨trivial, .inr rfl, by rintro _ ⟨⟩; rfl, rfl⟩)
  have hmain := eventLoopThread_lifecycle _ h9
  exact ⟨_, rfl, hmain.2.1 (.inr rfl), hmain.2.2.2.2.2 (.inl rfl)⟩

/-- Without the order asked for, the thread may see `quit_` at once, leave `Loop()`
    and end the loop object while the destructor is still in front of `WakeUp()`. -/
theorem eventLoopThread_wakes_ended_loop :
    ∃ s : EventLoopThread Nat Nat, (threadSystem Nat Nat).Reachable s ∧
      s.owner = .waking ∧ s.loop = none := by
  have h0 : (threadSystem Nat Nat).Reachable .create := .start rfl
  have h1 := h0.next .startLoop (by exact ⟨rfl, rfl⟩)
  have h2 := h1.next .construct (by exact ⟨rfl, rfl⟩)
  have h3 := h2.next .publish (by exact ⟨rfl, rfl⟩)
  have h4 := h3.next .count (by exact ⟨rfl, rfl⟩)
  have h5 := h4.next .wait (by exact ⟨rfl, rfl⟩)
  have h6 := h5.next .returnLoop (by exact ⟨rfl, rfl, rfl⟩)
  have h7 := h6.next .destructor (by exact ⟨.inr rfl, by rintro _ ⟨⟩; rfl, rfl⟩)
  have h8 := h7.next .quit (by exact ⟨rfl, _, _, rfl, ⟨rfl, rfl, rfl⟩, rfl⟩)
  have h9 := h8.next (.loop .test) (by exact ⟨_, _, rfl, ⟨rfl, rfl, rfl⟩, rfl, rfl⟩)
  have h10 := h9.next .loopReturns (by exact ⟨rfl, ⟨_, rfl, rfl⟩, rfl⟩)
  have h11 := h10.next .clear (by exact ⟨rfl, rfl⟩)
  have h12 := h11.next .destruct (by exact ⟨rfl, rfl⟩)
  exact ⟨_, h12, rfl, rfl⟩

end JNet
