import JNet.Lib.LTS
import Mathlib.Logic.Function.Basic

/-! # `jnet::EventLoop`, the queue of functors

    Other threads hand functors to a loop through `QueueInLoop`
    (`net/eventloop.cc`): a push under the mutex, then a `WakeUp` that writes to
    an eventfd the loop polls.  The loop thread polls, runs event callbacks
    (among them `HandleRead`, which reads the eventfd back to 0), and then runs
    the functors it finds in `pendingFunctors_`, in one batch.

    A functor is a value of any type.  `ran` and `pushed` record which functors have
    been run and pushed, in order; the system's steps write them, from their labels.
-/

namespace JNet

/-! ## State -/

/-- Where the loop thread is in `Loop`. -/
inductive LoopPhase (F : Type) where
  /-- At the test of the `while`. -/
  | testing
  /-- Blocked in `Poll`. -/
  | polling
  /-- Running the callbacks of the active channels. -/
  | dispatching
  /-- In `DoPendingFunctors`, with the functors of the batch not yet called. -/
  | draining (funcs : List F)
  | exited
  deriving DecidableEq, Repr

/-- Where another thread is in its call of `QueueInLoop` or `Quit`. -/
inductive CallerPc where
  | idle
  /-- Between its push and its `WakeUp`. -/
  | pushed
  /-- Between setting `quit_` and its `WakeUp`. -/
  | quitting
  deriving DecidableEq, Repr

structure EventLoop (Tid F : Type) where
  phase : LoopPhase F
  /-- The loop thread itself has pushed and not yet tested `doingPending_`. -/
  loopPushed : Bool
  pendingFunctors_ : List F
  doingPending_ : Bool
  quit_ : Bool
  /-- The counter of the eventfd. -/
  wakeups : Nat
  caller : Tid → CallerPc
  ran : List F
  pushed : List F

namespace EventLoop

variable {Tid F : Type} [DecidableEq Tid]

/-- The loop as constructed, before `Loop()` is called. -/
def create : EventLoop Tid F where
  phase := .testing
  loopPushed := false
  pendingFunctors_ := []
  doingPending_ := false
  quit_ := false
  wakeups := 0
  caller := fun _ => .idle
  ran := []
  pushed := []

/-! ## Operations -/

/-- The locked part of `QueueInLoop`. -/
def push (s : EventLoop Tid F) (f : F) : EventLoop Tid F :=
  { s with pendingFunctors_ := s.pendingFunctors_ ++ [f] }

/-- `WakeUp`: the eventfd refuses to count beyond its largest value. -/
def wakeUp (s : EventLoop Tid F) : EventLoop Tid F :=
  { s with wakeups := if s.wakeups < 0xfffffffffffffffe then s.wakeups + 1 else s.wakeups }

/-- `HandleRead` of the wake-up channel. -/
def handleRead (s : EventLoop Tid F) : EventLoop Tid F := { s with wakeups := 0 }

/-- The functors of the current batch that are still to be called. -/
def rest (s : EventLoop Tid F) : List F :=
  match s.phase with
  | .draining funcs => funcs
  | _ => []

end EventLoop

/-- One step of some thread. -/
inductive LoopLabel (Tid F : Type) where
  /-- Another thread pushes a functor. -/
  | push (t : Tid) (f : F)
  /-- Another thread sets `quit_`. -/
  | quit (t : Tid)
  | wakeUp (t : Tid)
  /-- A callback or a functor pushes a functor on the loop thread. -/
  | loopPush (f : F)
  /-- The loop thread finishes that call of `QueueInLoop`. -/
  | loopWakeUp
  | loopQuit
  /-- The test of the `while`. -/
  | test
  /-- `Poll` returns, for whatever reason. -/
  | pollReturn
  | handleRead
  /-- The callbacks are done, and `DoPendingFunctors` swaps the vectors. -/
  | swap
  /-- `doingPending_ = true`. -/
  | startBatch
  /-- The next functor of the batch is called. -/
  | runFunctor
  /-- `doingPending_ = false`, and back to the `while`. -/
  | endBatch

/-- A loop and any number of other threads, their steps in any order.  Except for
    `loopWakeUp`, the loop thread takes no step between its push and the end of
    that call. -/
def loopSystem (Tid F : Type) [DecidableEq Tid] :
    LTS.System (EventLoop Tid F) (LoopLabel Tid F) where
  init := fun s => s = EventLoop.create
  step := fun s l s' =>
    match l with
    | .push t f =>
        s.caller t = .idle ∧
        s' = { s.push f with
          caller := Function.update s.caller t .pushed
          pushed := s.pushed ++ [f] }
    | .quit t =>
        s.caller t = .idle ∧ s.quit_ = false ∧
        s' = { s with quit_ := true, caller := Function.update s.caller t .quitting }
    | .wakeUp t =>
        s.caller t ≠ .idle ∧
        s' = { s.wakeUp with caller := Function.update s.caller t .idle }
    | .loopPush f =>
        (s.phase = .dispatching ∨ s.doingPending_ = true) ∧ s.loopPushed = false ∧
        s' = { s.push f with loopPushed := true, pushed := s.pushed ++ [f] }
    | .loopWakeUp =>
        s.loopPushed = true ∧
        -- `!IsInLoopThread() || doingPending_`: outside a batch there is no write.
        s' = { (if s.doingPending_ then s.wakeUp else s) with loopPushed := false }
    | .loopQuit =>
        (s.phase = .dispatching ∨ s.doingPending_ = true) ∧ s.loopPushed = false ∧
        s.quit_ = false ∧ s' = { s with quit_ := true }
    | .test =>
        s.phase = .testing ∧ s.loopPushed = false ∧
        s' = { s with phase := if s.quit_ then .exited else .polling }
    | .pollReturn =>
        s.phase = .polling ∧ s.loopPushed = false ∧ s' = { s with phase := .dispatching }
    | .handleRead =>
        s.phase = .dispatching ∧ s.loopPushed = false ∧ s' = s.handleRead
    | .swap =>
        -- Done under the mutex, before `doingPending_` is set.
        s.phase = .dispatching ∧ s.loopPushed = false ∧
        s' = { s with phase := .draining s.pendingFunctors_, pendingFunctors_ := [] }
    | .startBatch =>
        (∃ funcs, s.phase = .draining funcs) ∧ s.doingPending_ = false ∧
        s.loopPushed = false ∧ s' = { s with doingPending_ := true }
    | .runFunctor =>
        ∃ f funcs, s.phase = .draining (f :: funcs) ∧ s.doingPending_ = true ∧
          s.loopPushed = false ∧
          s' = { s with phase := .draining funcs, ran := s.ran ++ [f] }
    | .endBatch =>
        s.phase = .draining [] ∧ s.doingPending_ = true ∧ s.loopPushed = false ∧
        s' = { s with phase := .testing, doingPending_ := false }

/-! ## The invariant -/

/-- Some thread is still going to write to the eventfd because of its push. -/
def EventLoop.WakingUp {Tid F : Type} (s : EventLoop Tid F) : Prop :=
  0 < s.wakeups ∨ ∃ t, s.caller t = .pushed

/-- From the swap on, and until `Poll` has returned again, a functor that waits
    has been, or is being, announced.  While the event callbacks run this need
    not be so, but then the swap is still to come. -/
structure LoopInv {Tid F : Type} (s : EventLoop Tid F) : Prop where
  order : s.ran ++ s.rest ++ s.pendingFunctors_ = s.pushed
  doing : s.doingPending_ = true → ∃ funcs, s.phase = .draining funcs
  pushing : s.loopPushed = true → s.phase = .dispatching ∨ s.doingPending_ = true
  noticed : s.phase ≠ .dispatching → s.pendingFunctors_ ≠ [] →
    s.WakingUp ∨ s.loopPushed = true

section invariant

variable {Tid F : Type} {s s' : EventLoop Tid F}

theorem EventLoop.wakeups_wakeUp (s : EventLoop Tid F) : 0 < s.wakeUp.wakeups := by
  unfold EventLoop.wakeUp
  dsimp only
  split
  · omega
  · omega

/-- After a write to the eventfd nothing is missing, whoever did the write. -/
theorem LoopInv.wakeUp (h : LoopInv s) (hphase : s'.phase = s.phase)
    (hdoing : s'.doingPending_ = s.doingPending_)
    (hpushed : s'.loopPushed = true → s.loopPushed = true)
    (hpending : s'.pendingFunctors_ = s.pendingFunctors_) (hran : s'.ran = s.ran)
    (hhistory : s'.pushed = s.pushed) (hcount : 0 < s'.wakeups) : LoopInv s' where
  order := by
    have hrest : s'.rest = s.rest := by
      unfold EventLoop.rest
      rw [hphase]
    rw [hran, hrest, hpending, hhistory]
    exact h.order
  doing := by
    rw [hdoing, hphase]
    exact h.doing
  pushing := by
    rw [hdoing, hphase]
    exact fun hloop => h.pushing (hpushed hloop)
  noticed := by
    intro _ _
    exact .inl (.inl hcount)

/-- The flag is only set while a batch runs. -/
theorem LoopInv.not_doing (h : LoopInv s) (hphase : ∀ funcs, s.phase ≠ .draining funcs) :
    s.doingPending_ = false := by
  rw [← Bool.not_eq_true]
  intro hdoing
  obtain ⟨funcs, hdrain⟩ := h.doing hdoing
  exact hphase funcs hdrain

/-- A step of the loop thread that leaves the queue and the eventfd alone, and is
    not in the middle of a push: what was announced stays announced. -/
theorem LoopInv.loopStep (h : LoopInv s) (hphase : s.phase ≠ .dispatching)
    (hloop : s.loopPushed = false) (hloop' : s'.loopPushed = s.loopPushed)
    (hpending : s'.pendingFunctors_ = s.pendingFunctors_) (hcount : s'.wakeups = s.wakeups)
    (hcaller : s'.caller = s.caller)
    (horder : s'.ran ++ s'.rest ++ s'.pendingFunctors_ = s'.pushed)
    (hdoing : s'.doingPending_ = true → ∃ funcs, s'.phase = .draining funcs) : LoopInv s' where
  order := horder
  doing := hdoing
  pushing := by
    rw [hloop', hloop]
    nofun
  noticed := by
    intro _ hwaits
    rw [hpending] at hwaits
    rw [EventLoop.WakingUp, hcount, hcaller, hloop']
    exact h.noticed hphase hwaits

variable [DecidableEq Tid]

theorem loopInv_initial (s : EventLoop Tid F) (h : (loopSystem Tid F).init s) : LoopInv s := by
  obtain rfl : s = EventLoop.create := h
  constructor
  · rfl
  · simp [EventLoop.create]
  · simp [EventLoop.create]
  · simp [EventLoop.create]

/-- A push by another thread: the thread announces it later. -/
theorem LoopInv.push (h : LoopInv s) (t : Tid) (f : F) :
    LoopInv { s.push f with
      caller := Function.update s.caller t .pushed
      pushed := s.pushed ++ [f] } where
  order := by
    show s.ran ++ s.rest ++ (s.pendingFunctors_ ++ [f]) = s.pushed ++ [f]
    rw [← h.order, List.append_assoc, List.append_assoc, List.append_assoc]
  doing := h.doing
  pushing := h.pushing
  noticed := by
    intro _ _
    exact .inl (.inr ⟨t, by simp⟩)

theorem loopInv_preserved (s : EventLoop Tid F) (l : LoopLabel Tid F) (s' : EventLoop Tid F)
    (h : LoopInv s) (hstep : (loopSystem Tid F).step s l s') : LoopInv s' := by
  simp only [loopSystem] at hstep
  match l with
  | .push t f =>
    obtain ⟨_, rfl⟩ := hstep
    exact h.push t f
  | .quit t =>
    obtain ⟨hidle, _, rfl⟩ := hstep
    refine ⟨h.order, h.doing, h.pushing, ?_⟩
    intro hphase hpending
    rcases h.noticed hphase hpending with (hcount | ⟨t', ht'⟩) | hloop
    · exact .inl (.inl hcount)
    · -- The thread that pushed is not the one that quits.
      have hne : t' ≠ t := by
        rintro rfl
        rw [hidle] at ht'
        cases ht'
      exact .inl (.inr ⟨t', by simpa [hne] using ht'⟩)
    · exact .inr hloop
  | .wakeUp t =>
    obtain ⟨_, rfl⟩ := hstep
    exact h.wakeUp rfl rfl id rfl rfl rfl (EventLoop.wakeups_wakeUp s)
  | .loopPush f =>
    obtain ⟨hwhere, _, rfl⟩ := hstep
    refine ⟨?_, h.doing, fun _ => hwhere, fun _ _ => .inr rfl⟩
    show s.ran ++ s.rest ++ (s.pendingFunctors_ ++ [f]) = s.pushed ++ [f]
    rw [← h.order, List.append_assoc, List.append_assoc, List.append_assoc]
  | .loopWakeUp =>
    obtain ⟨hloop, rfl⟩ := hstep
    by_cases hdoing : s.doingPending_ = true
    · rw [if_pos hdoing]
      exact h.wakeUp rfl rfl nofun rfl rfl rfl (EventLoop.wakeups_wakeUp s)
    · -- Outside a batch no write is made: the callbacks run and the swap comes next.
      rw [if_neg hdoing]
      have hphase : s.phase = .dispatching := (h.pushing hloop).resolve_right hdoing
      exact ⟨h.order, h.doing, nofun, fun hne => absurd hphase hne⟩
  | .loopQuit =>
    obtain ⟨_, _, _, rfl⟩ := hstep
    exact ⟨h.order, h.doing, h.pushing, h.noticed⟩
  | .test =>
    obtain ⟨hphase, hloop, rfl⟩ := hstep
    have hdoing := h.not_doing (by rw [hphase]; nofun)
    have horder := h.order
    simp only [EventLoop.rest, hphase] at horder
    refine h.loopStep (by rw [hphase]; nofun) hloop rfl rfl rfl rfl ?_ ?_
    · by_cases hquit : s.quit_ = true
      · simpa [EventLoop.rest, hquit] using horder
      · simpa [EventLoop.rest, hquit] using horder
    · intro hyes
      rw [hdoing] at hyes
      cases hyes
  | .pollReturn =>
    obtain ⟨hphase, hloop, rfl⟩ := hstep
    have horder := h.order
    simp only [EventLoop.rest, hphase] at horder
    have hdoing := h.not_doing (by rw [hphase]; nofun)
    refine ⟨horder, ?_, fun _ => .inl rfl, fun hne => absurd rfl hne⟩
    intro hyes
    rw [hdoing] at hyes
    cases hyes
  | .handleRead =>
    obtain ⟨hphase, _, rfl⟩ := hstep
    -- The eventfd is at 0 now, but the swap is still to come.
    exact ⟨h.order, h.doing, h.pushing, fun hne => absurd hphase hne⟩
  | .swap =>
    obtain ⟨hphase, _, rfl⟩ := hstep
    have horder := h.order
    simp only [EventLoop.rest, hphase, List.append_nil] at horder
    -- Nothing waits behind the swap, so nothing has to be announced.
    refine ⟨?_, fun _ => ⟨_, rfl⟩, ?_, fun _ hpending => absurd rfl hpending⟩
    · show s.ran ++ s.pendingFunctors_ ++ [] = s.pushed
      rw [List.append_nil, horder]
    · intro hloop
      have := h.pushing hloop
      simp_all
  | .startBatch =>
    obtain ⟨hphase, _, _, rfl⟩ := hstep
    exact ⟨h.order, fun _ => hphase, fun _ => .inr rfl, h.noticed⟩
  | .runFunctor =>
    obtain ⟨f, funcs, hphase, _, hloop, rfl⟩ := hstep
    have horder := h.order
    simp only [EventLoop.rest, hphase] at horder
    refine h.loopStep (by rw [hphase]; nofun) hloop rfl rfl rfl rfl ?_ fun _ => ⟨funcs, rfl⟩
    show s.ran ++ [f] ++ funcs ++ s.pendingFunctors_ = s.pushed
    rw [← horder]
    simp
  | .endBatch =>
    obtain ⟨hphase, _, hloop, rfl⟩ := hstep
    have horder := h.order
    simp only [EventLoop.rest, hphase] at horder
    exact h.loopStep (by rw [hphase]; nofun) hloop rfl rfl rfl rfl horder nofun

end invariant

/-- **Functors run once, in order, and none is overslept**: at any time the
    functors run, those left of the batch and those queued are the functors
    pushed, in the order of the pushes; and while the loop is blocked in `Poll`
    with functors queued, its eventfd is readable or some thread is about to
    make it so. -/
theorem functors_in_order_reachable {Tid F : Type} [DecidableEq Tid] (s : EventLoop Tid F)
    (hs : (loopSystem Tid F).Reachable s) :
    s.ran ++ s.rest ++ s.pendingFunctors_ = s.pushed ∧
    (s.phase = .polling → s.pendingFunctors_ ≠ [] →
      0 < s.wakeups ∨ ∃ t, s.caller t = .pushed) := by
  have hinv := LTS.System.invariant loopInv_initial loopInv_preserved s hs
  refine ⟨hinv.order, ?_⟩
  intro hphase hpending
  rcases hinv.noticed (by rw [hphase]; nofun) hpending with hwaking | hloop
  · exact hwaking
  · -- The loop thread does not poll in the middle of its own push.
    rcases hinv.pushing hloop with hdispatch | hdoing
    · rw [hphase] at hdispatch
      cases hdispatch
    · rw [hinv.not_doing (by rw [hphase]; nofun)] at hdoing
      cases hdoing

/-- A functor queued by another thread queues one itself while it runs; the loop
    is back in `Poll`, with the second functor waiting and the eventfd readable. -/
theorem functors_in_order_nested :
    ∃ s : EventLoop Nat Nat, s.phase = .polling ∧ s.ran = [7] ∧ s.pendingFunctors_ = [8] ∧
      s.ran ++ s.rest ++ s.pendingFunctors_ = s.pushed ∧
      (0 < s.wakeups ∨ ∃ t, s.caller t = .pushed) := by
  have h0 : (loopSystem Nat Nat).Reachable EventLoop.create := .start rfl
  have h1 := h0.next (.push 0 7) (by exact ⟨rfl, rfl⟩)
  have h2 := h1.next (.wakeUp 0) (by exact ⟨by simp, rfl⟩)
  have h3 := h2.next .test (by exact ⟨rfl, rfl, rfl⟩)
  have h4 := h3.next .pollReturn (by exact ⟨rfl, rfl, rfl⟩)
  have h5 := h4.next .handleRead (by exact ⟨rfl, rfl, rfl⟩)
  have h6 := h5.next .swap (by exact ⟨rfl, rfl, rfl⟩)
  have h7 := h6.next .startBatch (by exact ⟨⟨_, rfl⟩, rfl, rfl, rfl⟩)
  have h8 := h7.next .runFunctor (by exact ⟨7, [], rfl, rfl, rfl, rfl⟩)
  have h9 := h8.next (.loopPush 8) (by exact ⟨.inr rfl, rfl, rfl⟩)
  have h10 := h9.next .loopWakeUp (by exact ⟨rfl, rfl⟩)
  have h11 := h10.next .endBatch (by exact ⟨rfl, rfl, rfl, rfl⟩)
  have h12 := h11.next .test (by exact ⟨rfl, rfl, rfl⟩)
  have hmain := functors_in_order_reachable _ h12
  exact ⟨_, rfl, rfl, rfl, hmain.1, hmain.2 rfl (List.cons_ne_nil 8 [])⟩

end JNet
