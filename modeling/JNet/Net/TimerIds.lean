import JNet.Net.TimerQueue

/-! # `jnet::TimerId`

    `AddTimer` returns a pair of a pointer and a sequence number
    (`net/timerid.h`), and whoever holds one may pass it to `Cancel` at any
    later time.  Here every id that was ever returned may be cancelled, as often
    as one likes, and `new` may return the address of a deleted timer.

    `calls` records the calls of `CancelTimerIdInLoop`, each with the queue it
    was made on.
-/

namespace JNet

/-! ## Runs -/

/-- A call of `CancelTimerIdInLoop`. -/
structure CancelCall where
  queue : TimerQueue
  timer_ : Nat
  sequence_ : Nat

structure TimerIds where
  loop : TimerLoop
  /-- The ids that `AddTimer` has returned. -/
  ids : List (Nat × Nat)
  calls : List CancelCall
  /-- A call has read a deleted timer. -/
  crashed : Bool

/-- `CancelTimerIdInLoop`. -/
def TimerIds.cancel (s : TimerIds) (p seq : Nat) : TimerIds :=
  let calls := s.calls ++ [⟨s.loop.queue, p, seq⟩]
  match s.loop.queue.cancelTimerIdInLoop p seq with
  | .ok queue => { s with loop := { s.loop with queue := queue }, calls := calls }
  | .error _ => { s with calls := calls, crashed := true }

/-- The runs of a queue in which any id that was returned is cancelled. -/
def idSystem : LTS.System TimerIds TimerLabel where
  init := fun s =>
    timerSystem.init s.loop ∧ s.ids = [] ∧ s.calls = [] ∧ s.crashed = false
  step := fun s l s' =>
    s.crashed = false ∧
    match l with
    | .addTimer p expiration interval repeat_ =>
        ∃ loop, timerSystem.step s.loop (.addTimer p expiration interval repeat_) loop ∧
        s' = { s with loop := loop, ids := s.ids ++ [(p, s.loop.queue.s_numCreated_)] }
    | .cancel p seq => (p, seq) ∈ s.ids ∧ s' = s.cancel p seq
    | l => ∃ loop, timerSystem.step s.loop l loop ∧ s' = { s with loop := loop }

namespace CancelCall

/-- The call removes the pending timer of its sequence number and no other, or none;
    in particular it reads no deleted timer. -/
def Own (c : CancelCall) : Prop :=
  ∃ q', c.queue.cancelTimerIdInLoop c.timer_ c.sequence_ = .ok q' ∧
    (q'.timers_ = c.queue.timers_ ∨
      ∃ e t, e ∈ c.queue.timers_ ∧ c.queue.heap e.second = some t ∧ t.sequence_ = c.sequence_ ∧
        q'.timers_ = c.queue.timers_.erase e)

/-- A timer is allocated at the address, and it is the one of the sequence number or
    it is not pending. -/
def Current (c : CancelCall) : Prop :=
  ∃ t, c.queue.heap c.timer_ = some t ∧
    (t.sequence_ = c.sequence_ ∨ ⟨t.expiration_, c.timer_⟩ ∉ c.queue.timers_)

/-! ## One call -/

/-- The sequence number in the id is never looked at, so the address decides. -/
theorem own_iff_current {c : CancelCall} (hpos : 0 < c.timer_) : c.Own ↔ c.Current := by
  obtain ⟨q, p, seq⟩ := c
  unfold Own Current
  dsimp only at *
  cases ht : q.heap p with
  | none =>
    -- The timer was deleted: the call reads it.
    have hfault : q.cancelTimerIdInLoop p seq = .error .dangling := by
      rw [TimerQueue.cancelTimerIdInLoop, if_neg (by omega), TimerQueue.deref, ht]
      rfl
    simp [hfault]
  | some t =>
    rw [TimerQueue.cancelTimerIdInLoop_eq ht hpos]
    constructor
    · intro hleft
      obtain ⟨q', hok, hown⟩ := hleft
      cases hok
      dsimp only at hown
      refine ⟨t, rfl, ?_⟩
      -- Whether the call removes anything depends on the timer at the address only.
      by_cases hmem : (⟨t.expiration_, p⟩ : Entry) ∈ q.timers_
      · left
        have hgone : (⟨t.expiration_, p⟩ : Entry) ∉ q.timers_.erase ⟨t.expiration_, p⟩ := by simp
        obtain hsame | ⟨e, t', he, ht', hseq, herase⟩ := hown
        · rw [hsame] at hgone
          exact absurd hmem hgone
        · -- What is gone is the element `e`, and that is the one of `p`.
          rw [herase] at hgone
          have heq : e = ⟨t.expiration_, p⟩ := by
            by_contra hne
            exact hgone (OrdSet.mem_erase.mpr ⟨hmem, Ne.symm hne⟩)
          rw [heq] at ht'
          cases ht.symm.trans ht'
          exact hseq
      · exact .inr hmem
    · intro hright
      obtain ⟨t', ht', hcurrent⟩ := hright
      cases ht'
      refine ⟨_, rfl, ?_⟩
      by_cases hmem : (⟨t.expiration_, p⟩ : Entry) ∈ q.timers_
      · exact .inr ⟨_, t, hmem, ht, hcurrent.resolve_right (not_not.mpr hmem), rfl⟩
      · exact .inl (OrdSet.erase_of_not_mem hmem)

end CancelCall

/-! ## All calls of a run -/

/-- `new` has not returned the null pointer for any id. -/
structure IdsInv (s : TimerIds) : Prop where
  ids : ∀ id ∈ s.ids, 0 < id.1
  calls : ∀ c ∈ s.calls, 0 < c.timer_

theorem idsInv_initial (s : TimerIds) (h : idSystem.init s) : IdsInv s := by
  obtain ⟨-, hids, hcalls, -⟩ := h
  constructor
  · simp [hids]
  · simp [hcalls]

theorem TimerIds.calls_cancel (s : TimerIds) (p seq : Nat) :
    (s.cancel p seq).calls = s.calls ++ [⟨s.loop.queue, p, seq⟩] ∧ (s.cancel p seq).ids = s.ids := by
  unfold cancel
  cases s.loop.queue.cancelTimerIdInLoop p seq <;> exact ⟨rfl, rfl⟩

theorem idsInv_preserved (s : TimerIds) (l : TimerLabel) (s' : TimerIds) (h : IdsInv s)
    (hstep : idSystem.step s l s') : IdsInv s' := by
  obtain ⟨-, hstep⟩ := hstep
  cases l with
  | addTimer p expiration interval repeat_ =>
    obtain ⟨loop, ⟨-, hpos, -⟩, rfl⟩ := hstep
    refine ⟨fun id hid => ?_, h.calls⟩
    obtain hid | hid := List.mem_append.mp hid
    · exact h.ids id hid
    · rw [List.mem_singleton.mp hid]
      exact hpos
  | cancel p seq =>
    obtain ⟨hid, rfl⟩ := hstep
    obtain ⟨hcalls, hids⟩ := s.calls_cancel p seq
    constructor
    · rw [hids]
      exact h.ids
    · rw [hcalls]
      intro c hc
      obtain hc | hc := List.mem_append.mp hc
      · exact h.calls c hc
      · rw [List.mem_singleton.mp hc]
        exact h.ids _ hid
  | _ =>
    obtain ⟨loop, -, rfl⟩ := hstep
    exact ⟨h.ids, h.calls⟩

/-- In every run, the calls of `Cancel` touch no other timer and read no deleted one,
    exactly when each finds a timer at its address that is its own or not pending. -/
theorem cancels_own_iff (s : TimerIds) (hs : idSystem.Reachable s) :
    (∀ c ∈ s.calls, c.Own) ↔ ∀ c ∈ s.calls, c.Current := by
  have h := LTS.System.invariant idsInv_initial idsInv_preserved s hs
  constructor
  · intro hown c hc
    exact (CancelCall.own_iff_current (h.calls c hc)).mp (hown c hc)
  · intro hcurrent c hc
    exact (CancelCall.own_iff_current (h.calls c hc)).mpr (hcurrent c hc)

/-- A pending timer is cancelled. -/
theorem cancels_own_pending :
    ∃ s, idSystem.Reachable s ∧ s.calls.length = 1 ∧ ∀ c ∈ s.calls, c.Own := by
  have h0 : idSystem.Reachable ⟨⟨emptyQueue 1000, none⟩, [], [], false⟩ :=
    .start ⟨emptyQueue_init 1000, rfl, rfl, rfl⟩
  have h1 := h0.next (.addTimer 8 5000 0 false)
    (by exact ⟨rfl, ⟨_, none⟩,
      ⟨rfl, by decide, by decide, TimerQueue.addTimer_eq _ _ _ _ _, rfl⟩, rfl⟩)
  have h2 := h1.next (.cancel 8 0) (by exact ⟨rfl, by decide, rfl⟩)
  refine ⟨_, h2, rfl, (cancels_own_iff _ h2).mpr ?_⟩
  intro c hc
  rw [List.mem_singleton.mp hc]
  exact ⟨_, rfl, .inl rfl⟩

/-- A timer fires and is deleted, its address is given to a second timer, and the id
    of the first one cancels that. -/
theorem cancels_other_timer :
    ¬ ∀ s, idSystem.Reachable s → ∀ c ∈ s.calls, c.Own := by
  intro hall
  have h0 : idSystem.Reachable ⟨⟨emptyQueue 1000, none⟩, [], [], false⟩ :=
    .start ⟨emptyQueue_init 1000, rfl, rfl, rfl⟩
  have h1 := h0.next (.addTimer 8 500 0 false)
    (by exact ⟨rfl, ⟨_, none⟩,
      ⟨rfl, by decide, by decide, TimerQueue.addTimer_eq _ _ _ _ _, rfl⟩, rfl⟩)
  have h2 := h1.next (.tick 1200) (by exact ⟨rfl, _, rfl, rfl⟩)
  have h3 := h2.next .handleRead (by exact ⟨rfl, _, ⟨rfl, rfl⟩, rfl⟩)
  have h4 := h3.next .runTimer
    (by exact ⟨rfl, ⟨_, some _⟩, ⟨_, _, _, rfl, rfl, rfl, rfl⟩, rfl⟩)
  have h5 := h4.next .reset (by exact ⟨rfl, _, ⟨_, rfl, rfl, _, rfl, rfl⟩, rfl⟩)
  have h6 := h5.next (.addTimer 8 5000 0 false)
    (by exact ⟨rfl, ⟨_, none⟩,
      ⟨rfl, by decide, by decide, TimerQueue.addTimer_eq _ _ _ _ _, rfl⟩, rfl⟩)
  have h7 := h6.next (.cancel 8 0) (by exact ⟨rfl, by decide, rfl⟩)
  obtain ⟨q', hok, hown⟩ := hall _ h7 _ (List.mem_singleton.mpr rfl)
  cases hok
  obtain hsame | ⟨e, t, he, ht, hseq, -⟩ := hown
  · have hlen := congrArg (fun s : OrdSet Entry => s.toList.length) hsame
    exact absurd hlen (by decide)
  · -- The only pending timer has sequence number 1.
    rw [List.mem_singleton.mp he] at ht
    cases ht
    exact absurd hseq (by decide)

end JNet
