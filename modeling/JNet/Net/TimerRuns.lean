import JNet.Net.TimerQueue

/-! # What a timer queue is for

    A log of additions, firings and cancellations says which timers are pending
    and when each of them is to run next: the schedule.  The queue holds exactly
    the timers of the schedule, in `timers_` or, for the time of a `HandleRead`,
    in its batch.

    `Cancel` breaks this where the timer is in the batch, because it only looks
    into `timers_`.  The invariant holds as long as no such timer is cancelled,
    and with it what timers and cancellations promise.  Times are unbounded integers,
    so no sum of a time and an interval overflows.
-/

namespace JNet

/-! ## Schedules -/

/-- When a timer is to run next, and its interval if it repeats. -/
structure Pending where
  due : Int
  period : Option Nat
  deriving DecidableEq, Repr

/-- What an event does to the schedule.  A timer that has run is due again one
    interval after the time of the `HandleRead`, or not at all. -/
def reschedule (sched : Nat → Option Pending) : TimerEvent → Nat → Option Pending
  | .added seq expiration period => Function.update sched seq (some ⟨expiration, period⟩)
  | .ran seq _ now =>
    -- The interval counts from `now`, not from the expiration.
    Function.update sched seq
      ((sched seq).bind fun p => p.period.map fun d : Nat => ⟨now + d, some d⟩)
  | .cancelled seq => Function.update sched seq none
  -- `Reset` does what the firing has settled already.
  | .rearmed _ _ => sched
  | .handled _ _ _ => sched

/-- The timers that are pending after a log, by their sequence numbers. -/
def schedule (log : List TimerEvent) : Nat → Option Pending := log.foldl reschedule fun _ => none

@[simp] theorem schedule_snoc (log : List TimerEvent) (e : TimerEvent) :
    schedule (log ++ [e]) = reschedule (schedule log) e := by
  simp [schedule]

/-- The logs of a queue that does what it is for; sequence numbers below the given
    one have been used. -/
inductive Legal : List TimerEvent → Nat → Prop where
  | nil (n : Nat) : Legal [] n
  | create {log : List TimerEvent} {n : Nat} (h : Legal log n) : Legal log (n + 1)
  | added {log : List TimerEvent} {n : Nat} (h : Legal log n) (expiration : Int)
      (period : Option Nat) : Legal (log ++ [.added n expiration period]) (n + 1)
  | ran {log : List TimerEvent} {n : Nat} (h : Legal log n) {seq : Nat} {entry : Entry}
      {period : Option Nat} {now : Int} (hpending : schedule log seq = some ⟨entry.first, period⟩)
      (hdue : entry.first ≤ now) : Legal (log ++ [.ran seq entry now]) n
  | rearmed {log : List TimerEvent} {n : Nat} (h : Legal log n) {seq : Nat} {expiration : Int}
      {period : Option Nat} (hpending : schedule log seq = some ⟨expiration, period⟩) :
      Legal (log ++ [.rearmed seq expiration]) n
  | cancelled {log : List TimerEvent} {n : Nat} (h : Legal log n) {seq : Nat} (hseq : seq < n) :
      Legal (log ++ [.cancelled seq]) n
  | handled {log : List TimerEvent} {n : Nat} (h : Legal log n) (now : Int)
      (start fired : List Entry) : Legal (log ++ [.handled now start fired]) n

/-- The timer an event is about. -/
def TimerEvent.seq? : TimerEvent → Option Nat
  | .added seq _ _ => some seq
  | .ran seq _ _ => some seq
  | .rearmed seq _ => some seq
  | .cancelled seq => some seq
  | .handled _ _ _ => none

/-- The event as a firing of a timer. -/
def TimerEvent.runOf? (seq : Nat) : TimerEvent → Option (Entry × Int)
  | .ran s entry now => if s = seq then some (entry, now) else none
  | _ => none

/-- The firings of a timer. -/
def runsOf (log : List TimerEvent) (seq : Nat) : List (Entry × Int) :=
  log.filterMap (TimerEvent.runOf? seq)

theorem runsOf_snoc (log : List TimerEvent) (e : TimerEvent) (seq : Nat) :
    runsOf (log ++ [e]) seq = runsOf log seq ++ (e.runOf? seq).toList := by
  rw [runsOf, List.filterMap_append]
  cases h : e.runOf? seq <;> simp [runsOf, h]

theorem runsOf_snoc_none {e : TimerEvent} {seq : Nat} (h : e.runOf? seq = none)
    (log : List TimerEvent) : runsOf (log ++ [e]) seq = runsOf log seq := by
  rw [runsOf_snoc, h, Option.toList_none, List.append_nil]

/-- An event of another timer, or not a firing. -/
theorem runOf?_of_ne {e : TimerEvent} {seq : Nat} (h : e.seq? ≠ some seq) :
    e.runOf? seq = none := by
  cases e with
  | ran s entry now =>
    have hs : s ≠ seq := fun heq => h (by rw [TimerEvent.seq?, heq])
    exact if_neg hs
  | _ => rfl

theorem reschedule_of_ne {sched : Nat → Option Pending} {e : TimerEvent} {seq : Nat}
    (h : e.seq? ≠ some seq) : reschedule sched e seq = sched seq := by
  have hne : ∀ {s}, some s ≠ some seq → seq ≠ s := fun hs heq => hs (by rw [heq])
  cases e with
  | added s expiration period => exact Function.update_of_ne (hne h) _ _
  | ran s entry now => exact Function.update_of_ne (hne h) _ _
  | rearmed s expiration => rfl
  | cancelled s => exact Function.update_of_ne (hne h) _ _
  | handled now start fired => rfl

/-- When a timer is due that was added for `expiration` and has run. -/
def dueAfter (period : Option Nat) (expiration : Int) (runs : List (Entry × Int)) : Option Int :=
  runs.getLast?.elim (some expiration) fun last => period.map fun d : Nat => last.2 + d

/-- Each of the firings was due, at the time for which the timer was in `timers_`. -/
inductive OnTime (period : Option Nat) (expiration : Int) : List (Entry × Int) → Prop where
  | nil : OnTime period expiration []
  | snoc {runs : List (Entry × Int)} {entry : Entry} {now : Int}
      (h : OnTime period expiration runs)
      (hdue : dueAfter period expiration runs = some entry.first) (hnow : entry.first ≤ now) :
      OnTime period expiration (runs ++ [(entry, now)])

theorem dueAfter_snoc (period : Option Nat) (expiration : Int) (runs : List (Entry × Int))
    (entry : Entry) (now : Int) :
    dueAfter period expiration (runs ++ [(entry, now)]) = period.map fun d : Nat => now + d := by
  rw [dueAfter, List.getLast?_concat]
  rfl

/-- A timer that does not repeat runs at most once, not before its expiration. -/
theorem OnTime.one_shot {expiration : Int} {runs : List (Entry × Int)}
    (h : OnTime none expiration runs) :
    runs.length ≤ 1 ∧ ∀ r ∈ runs, r.1.first = expiration ∧ expiration ≤ r.2 := by
  cases h with
  | nil => exact ⟨Nat.zero_le 1, nofun⟩
  | @snoc runs entry now h hdue hnow =>
    have hnil : runs = [] := by
      cases h with
      | nil => rfl
      | @snoc runs entry' now' h _ _ =>
        rw [dueAfter_snoc] at hdue
        cases hdue
    subst hnil
    have hfirst : expiration = entry.first := Option.some.inj hdue
    refine ⟨Nat.le_refl 1, ?_⟩
    intro r hr
    rw [List.mem_singleton.mp hr]
    exact ⟨hfirst.symm, hfirst ▸ hnow⟩

/-- A timer runs on time, and is pending until it has run for the last time or is
    cancelled. -/
def History (log : List TimerEvent) (seq : Nat) (expiration : Int) (period : Option Nat) : Prop :=
  OnTime period expiration (runsOf log seq) ∧
    (schedule log seq = none ∧ .cancelled seq ∈ log ∨
      schedule log seq =
        (dueAfter period expiration (runsOf log seq)).map fun due => ⟨due, period⟩)

theorem History.snoc {log : List TimerEvent} {seq : Nat} {expiration : Int} {period : Option Nat}
    (h : History log seq expiration period) {e : TimerEvent}
    (hsched : reschedule (schedule log) e seq = schedule log seq) (hrun : e.runOf? seq = none) :
    History (log ++ [e]) seq expiration period := by
  rw [History, runsOf_snoc_none hrun, schedule_snoc, hsched]
  exact ⟨h.1, h.2.imp_left fun hc => ⟨hc.1, List.mem_append_left _ hc.2⟩⟩

theorem History.other {log : List TimerEvent} {seq : Nat} {expiration : Int} {period : Option Nat}
    (h : History log seq expiration period) {e : TimerEvent} (hne : e.seq? ≠ some seq) :
    History (log ++ [e]) seq expiration period :=
  h.snoc (reschedule_of_ne hne) (runOf?_of_ne hne)

namespace Legal

variable {log : List TimerEvent} {n : Nat}

/-- The numbers in the schedule and in the log have been used. -/
theorem bounded (h : Legal log n) :
    (∀ seq p, schedule log seq = some p → seq < n) ∧
      ∀ e ∈ log, ∀ seq, e.seq? = some seq → seq < n := by
  have hsnoc : ∀ {log : List TimerEvent} {m : Nat} {e : TimerEvent},
      ((∀ seq p, schedule log seq = some p → seq < m) ∧
        ∀ e ∈ log, ∀ seq, e.seq? = some seq → seq < m) →
      (∀ seq, e.seq? = some seq → seq < m) →
      (∀ seq p, schedule (log ++ [e]) seq = some p → seq < m) ∧
        ∀ e' ∈ log ++ [e], ∀ seq, e'.seq? = some seq → seq < m := by
    intro log m e ⟨hsched, hlog⟩ he
    constructor
    · intro seq p hp
      by_cases hseq : e.seq? = some seq
      · exact he seq hseq
      · rw [schedule_snoc, reschedule_of_ne hseq] at hp
        exact hsched seq p hp
    · intro e' he' seq hseq
      rcases List.mem_append.mp he' with hold | hlast
      · exact hlog e' hold seq hseq
      · rw [List.mem_singleton.mp hlast] at hseq
        exact he seq hseq
  -- Both grow with the log, one event at a time.
  induction h with
  | nil n => exact ⟨nofun, nofun⟩
  | create h ih =>
    exact ⟨fun seq p hp => Nat.lt_succ_of_lt (ih.1 seq p hp),
      fun e he seq hseq => Nat.lt_succ_of_lt (ih.2 e he seq hseq)⟩
  | added h expiration period ih =>
    refine hsnoc ⟨fun seq p hp => Nat.lt_succ_of_lt (ih.1 seq p hp),
      fun e he seq hseq => Nat.lt_succ_of_lt (ih.2 e he seq hseq)⟩ ?_
    intro seq hseq
    cases hseq
    exact Nat.lt_succ_self _
  | ran h hpending hdue ih =>
    refine hsnoc ih ?_
    intro seq hseq
    cases hseq
    exact ih.1 _ _ hpending
  | rearmed h hpending ih =>
    refine hsnoc ih ?_
    intro seq hseq
    cases hseq
    exact ih.1 _ _ hpending
  | cancelled h hlt ih =>
    refine hsnoc ih ?_
    intro seq hseq
    cases hseq
    exact hlt
  | handled h now start fired ih => exact hsnoc ih nofun

/-- Every timer that was added has its history. -/
theorem history (h : Legal log n) {seq : Nat} {expiration : Int} {period : Option Nat}
    (hadded : .added seq expiration period ∈ log) : History log seq expiration period := by
  induction h with
  | nil n => cases hadded
  | create h ih => exact ih hadded
  | @added log n h expiration' period' ih =>
    rcases List.mem_append.mp hadded with hold | hlast
    · refine (ih hold).other ?_
      intro heq
      cases heq
      exact absurd (h.bounded.2 _ hold _ rfl) (lt_irrefl _)
    · -- Nothing is known of a number that has just been given out.
      cases List.mem_singleton.mp hlast
      have hnone : runsOf (log ++ [.added seq expiration period]) seq = [] := by
        rw [runsOf_snoc_none rfl, runsOf, List.filterMap_eq_nil_iff]
        intro e he
        apply runOf?_of_ne
        intro heq
        exact absurd (h.bounded.2 e he _ heq) (lt_irrefl _)
      rw [History, hnone, schedule_snoc]
      exact ⟨.nil, .inr (Function.update_self _ _ _)⟩
  | @ran log n h seq' entry period' now hpending hdue ih =>
    have hold : History log seq expiration period := ih (by simpa using hadded)
    by_cases hseq : seq' = seq
    · subst hseq
      obtain ⟨hontime, ⟨hnone, -⟩ | hsome⟩ := hold
      · rw [hnone] at hpending
        cases hpending
      · -- It was due, so it ran on time, and is due again one interval from now.
        rw [hsome] at hpending
        obtain ⟨due, hwas, heq⟩ := Option.map_eq_some_iff.mp hpending
        cases heq
        rw [History, runsOf_snoc, TimerEvent.runOf?, if_pos rfl, Option.toList_some]
        refine ⟨hontime.snoc hwas hdue, .inr ?_⟩
        rw [schedule_snoc, reschedule, Function.update_self, hsome, hwas, dueAfter_snoc]
        cases period with
        | none => rfl
        | some d => rfl
    · exact hold.other fun heq => hseq (Option.some.inj heq)
  | rearmed h hpending ih => exact (ih (by simpa using hadded)).snoc rfl rfl
  | @cancelled log n h seq' hlt ih =>
    have hold : History log seq expiration period := ih (by simpa using hadded)
    by_cases hseq : seq' = seq
    · subst hseq
      rw [History, runsOf_snoc_none rfl, schedule_snoc]
      exact ⟨hold.1, .inl ⟨Function.update_self _ _ _,
        List.mem_append_right log List.mem_cons_self⟩⟩
    · exact hold.other fun heq => hseq (Option.some.inj heq)
  | handled h now start fired ih => exact (ih (by simpa using hadded)).snoc rfl rfl

/-- Only timers that were added are pending. -/
theorem added_of_pending (h : Legal log n) {seq : Nat} {p : Pending}
    (hpending : schedule log seq = some p) : ∃ expiration, .added seq expiration p.period ∈ log := by
  have hsnoc : ∀ {log : List TimerEvent} {e : TimerEvent} {period : Option Nat},
      (∃ expiration, .added seq expiration period ∈ log) →
      ∃ expiration, .added seq expiration period ∈ log ++ [e] := by
    intro log e period hcase
    rcases hcase with ⟨expiration, hmem⟩
    exact ⟨expiration, List.mem_append_left _ hmem⟩
  induction h generalizing p with
  | nil n => cases hpending
  | create h ih => exact ih hpending
  | @added log n h expiration period ih =>
    rw [schedule_snoc] at hpending
    by_cases hseq : seq = n
    · subst hseq
      rw [reschedule, Function.update_self] at hpending
      cases hpending
      exact ⟨expiration, List.mem_append_right log List.mem_cons_self⟩
    · rw [reschedule, Function.update_of_ne hseq] at hpending
      exact hsnoc (ih hpending)
  | @ran log n h seq' entry period now hpending' hdue ih =>
    rw [schedule_snoc] at hpending
    by_cases hseq : seq = seq'
    · subst hseq
      rw [reschedule, Function.update_self, hpending'] at hpending
      obtain ⟨d, hd, rfl⟩ := Option.map_eq_some_iff.mp hpending
      obtain ⟨expiration, hmem⟩ := ih hpending'
      have hperiod : period = some d := hd
      rw [hperiod] at hmem
      exact hsnoc ⟨expiration, hmem⟩
    · rw [reschedule, Function.update_of_ne hseq] at hpending
      exact hsnoc (ih hpending)
  | rearmed h _ ih =>
    rw [schedule_snoc] at hpending
    exact hsnoc (ih hpending)
  | @cancelled log n h seq' hlt ih =>
    rw [schedule_snoc] at hpending
    by_cases hseq : seq = seq'
    · subst hseq
      rw [reschedule, Function.update_self] at hpending
      cases hpending
    · rw [reschedule, Function.update_of_ne hseq] at hpending
      exact hsnoc (ih hpending)
  | handled h _ _ _ ih =>
    rw [schedule_snoc] at hpending
    exact hsnoc (ih hpending)

/-- A cancelled timer is not pending any more. -/
theorem cancelled_none (h : Legal log n) {seq : Nat} (hcancelled : .cancelled seq ∈ log) :
    schedule log seq = none := by
  induction h with
  | nil n => cases hcancelled
  | create h ih => exact ih hcancelled
  | @added log n h expiration period ih =>
    have hold : .cancelled seq ∈ log := by simpa using hcancelled
    have hlt := h.bounded.2 _ hold seq rfl
    have hne : (TimerEvent.added n expiration period).seq? ≠ some seq := by
      intro heq
      cases heq
      exact absurd hlt (lt_irrefl _)
    rw [schedule_snoc, reschedule_of_ne hne]
    exact ih hold
  | @ran log n h seq' entry period now hpending hdue ih =>
    have hold : .cancelled seq ∈ log := by simpa using hcancelled
    -- What runs is pending, so it is another timer.
    have hne : (TimerEvent.ran seq' entry now).seq? ≠ some seq := by
      intro heq
      cases heq
      rw [ih hold] at hpending
      cases hpending
    rw [schedule_snoc, reschedule_of_ne hne]
    exact ih hold
  | rearmed h hpending ih =>
    rw [schedule_snoc]
    exact ih (by simpa using hcancelled)
  | @cancelled log n h seq' hlt ih =>
    rw [schedule_snoc]
    by_cases hseq : seq = seq'
    · subst hseq
      exact Function.update_self _ _ _
    · rw [reschedule, Function.update_of_ne hseq]
      rcases List.mem_append.mp hcancelled with hold | hlast
      · exact ih hold
      · cases List.mem_singleton.mp hlast
        exact absurd rfl hseq
  | handled h now start fired ih =>
    rw [schedule_snoc]
    exact ih (by simpa using hcancelled)

end Legal

/-- The second event does not wake up a timer the first has cancelled. -/
def Respects (first second : TimerEvent) : Prop :=
  ∀ seq, first = .cancelled seq →
    (∀ entry now, second ≠ .ran seq entry now) ∧ ∀ expiration, second ≠ .rearmed seq expiration

/-- A cancelled timer neither runs nor is re-armed. -/
theorem Legal.respects {log : List TimerEvent} {n : Nat} (h : Legal log n) :
    log.Pairwise Respects := by
  have hsnoc : ∀ {log : List TimerEvent} {e : TimerEvent}, log.Pairwise Respects →
      (∀ seq, .cancelled seq ∈ log → (∀ entry now, e ≠ .ran seq entry now) ∧
        ∀ expiration, e ≠ .rearmed seq expiration) → (log ++ [e]).Pairwise Respects := by
    intro log e hlog he
    rw [List.pairwise_append]
    refine ⟨hlog, List.pairwise_singleton _ e, ?_⟩
    intro a ha b hb seq hcancelled
    rw [hcancelled] at ha
    rw [List.mem_singleton.mp hb]
    exact he seq ha
  induction h with
  | nil n => exact List.Pairwise.nil
  | create h ih => exact ih
  | ran h hpending hdue ih =>
    refine hsnoc ih fun seq hcancelled => ⟨?_, fun _ => nofun⟩
    intro entry now heq
    cases heq
    rw [h.cancelled_none hcancelled] at hpending
    cases hpending
  | rearmed h hpending ih =>
    refine hsnoc ih fun seq hcancelled => ⟨fun _ _ => nofun, ?_⟩
    intro expiration heq
    cases heq
    rw [h.cancelled_none hcancelled] at hpending
    cases hpending
  | added h _ _ ih => exact hsnoc ih fun _ _ => ⟨fun _ _ => nofun, fun _ => nofun⟩
  | cancelled h _ ih => exact hsnoc ih fun _ _ => ⟨fun _ _ => nofun, fun _ => nofun⟩
  | handled h _ _ _ ih => exact hsnoc ih fun _ _ => ⟨fun _ _ => nofun, fun _ => nofun⟩

/-! ## What the queue holds -/

/-- The timers the queue holds, with the times they are due: those in `timers_`,
    those of a batch that are still `todo`, and the repeating ones that are
    `done` and wait for `Reset`. -/
def Held (q : TimerQueue) (todo done : List Entry) (now : Int) (seq : Nat) (p : Pending) : Prop :=
  ∃ e t, q.heap e.second = some t ∧ t.sequence_ = seq ∧ t.period = p.period ∧
    ((e ∈ q.timers_ ∨ e ∈ todo) ∧ p.due = e.first ∨
      e ∈ done ∧ ∃ d : Nat, t.period = some d ∧ p.due = now + d)

/-- The queue holds the timers of the schedule. -/
def Scheduled (q : TimerQueue) (todo done : List Entry) (now : Int) : Prop :=
  ∀ seq p, schedule q.log seq = some p ↔ Held q todo done now seq p

section scheduled

variable {q q' : TimerQueue} {todo todo' done done' : List Entry} {now : Int}

/-- A step that is about one timer leaves the others where they are. -/
theorem Scheduled.change (h : Scheduled q todo done now) {s : Nat}
    (hsched : ∀ seq, seq ≠ s → schedule q'.log seq = schedule q.log seq)
    (hheap : ∀ addr t, t.sequence_ ≠ s → (q'.heap addr = some t ↔ q.heap addr = some t))
    (hplace : ∀ e t, q.heap e.second = some t → t.sequence_ ≠ s →
      (e ∈ q'.timers_ ∨ e ∈ todo' ↔ e ∈ q.timers_ ∨ e ∈ todo) ∧ (e ∈ done' ↔ e ∈ done))
    (hthis : ∀ p, schedule q'.log s = some p ↔ Held q' todo' done' now s p) :
    Scheduled q' todo' done' now := by
  intro seq p
  by_cases hseq : seq = s
  · rw [hseq]
    exact hthis p
  · rw [hsched seq hseq, h seq p]
    constructor
    · intro hcase
      rcases hcase with ⟨e, t, ht, rfl, hperiod, hheld⟩
      obtain ⟨hwaits, hdone⟩ := hplace e t ht hseq
      rw [← hwaits, ← hdone] at hheld
      exact ⟨e, t, (hheap _ _ hseq).mpr ht, rfl, hperiod, hheld⟩
    · intro hcase
      rcases hcase with ⟨e, t, ht, rfl, hperiod, hheld⟩
      have ht' := (hheap _ _ hseq).mp ht
      obtain ⟨hwaits, hdone⟩ := hplace e t ht' hseq
      rw [hwaits, hdone] at hheld
      exact ⟨e, t, ht', rfl, hperiod, hheld⟩

/-- A store to one timer's address leaves the others in the heap. -/
theorem update_eq_some_iff {heap : Nat → Option Timer} {addr s : Nat} {v : Option Timer}
    (hold : ∀ t, heap addr = some t → t.sequence_ = s) (hnew : ∀ t, v = some t → t.sequence_ = s)
    (addr' : Nat) (t : Timer) (hseq : t.sequence_ ≠ s) :
    Function.update heap addr v addr' = some t ↔ heap addr' = some t := by
  by_cases haddr : addr' = addr
  · subst haddr
    rw [Function.update_self]
    exact ⟨fun ht => absurd (hnew t ht) hseq, fun ht => absurd (hold t ht) hseq⟩
  · rw [Function.update_of_ne haddr]

/-- The batch points to each timer once. -/
theorem QueueInv.second_ne_of_mem {it : Entry} (h : QueueInv q (done ++ it :: todo)) :
    (∀ e, e ∈ q.timers_ ∨ e ∈ todo → e.second ≠ it.second) ∧
      ∀ e ∈ done, e.second ≠ it.second := by
  obtain ⟨-, hrest, hacross⟩ := List.pairwise_append.mp h.apart
  refine ⟨?_, fun e he => hacross e he it List.mem_cons_self⟩
  intro e he
  rcases he with he | he
  · exact h.away it (List.mem_append_right done List.mem_cons_self) e he
  · exact ((List.pairwise_cons.mp hrest).1 e he).symm

theorem Scheduled.addTimer (h : Scheduled q todo done now) (hinv : QueueInv q (done ++ todo))
    {addr : Nat} (hfree : q.heap addr = none) {expiration : Int} {interval : Nat}
    {repeat_ : Bool} (hok : q.addTimer addr expiration interval repeat_ = .ok q') :
    Scheduled q' todo done now := by
  have hother : ∀ e, e ∈ q.timers_ ∨ e ∈ done ++ todo → e.second ≠ addr :=
    fun e he => hinv.second_ne hfree he
  rw [TimerQueue.addTimer_eq] at hok
  cases hok
  refine h.change (s := q.s_numCreated_) ?_ (update_eq_some_iff ?_ ?_) ?_ ?_
  · intro seq hseq
    rw [schedule_snoc, reschedule, Function.update_of_ne hseq]
  · rw [hfree]
    exact nofun
  · intro t ht
    cases ht
    rfl
  · intro e t ht hseq
    have hne : e ≠ ⟨expiration, addr⟩ := by
      rintro rfl
      rw [hfree] at ht
      cases ht
    refine ⟨?_, Iff.rfl⟩
    rw [OrdSet.mem_insert, or_iff_right hne]
  · intro p
    rw [schedule_snoc, reschedule, Function.update_self]
    constructor
    · intro hp
      cases hp
      exact ⟨⟨expiration, addr⟩, _, Function.update_self _ _ _, rfl, rfl,
        .inl ⟨.inl (OrdSet.mem_insert.mpr (.inl rfl)), rfl⟩⟩
    · intro hcase
      rcases hcase with ⟨e, t, ht, hnew, hperiod, hheld⟩
      -- The number is that of the new timer, which is only where it was put.
      have haddr : e.second = addr := by
        by_contra hne
        have hold : q.heap e.second = some t := (Function.update_of_ne hne _ _).symm.trans ht
        have := hinv.fresh _ _ hold
        omega
      have hthis : Function.update q.heap addr _ e.second = some t := ht
      rw [haddr, Function.update_self] at hthis
      cases hthis
      rcases hheld with ⟨he, hdue⟩ | ⟨he, -⟩
      · have hentry : e = ⟨expiration, addr⟩ := by
          rcases he with hmem | hmem
          · rcases OrdSet.mem_insert.mp hmem with heq | hmem
            · exact heq
            · exact absurd haddr (hother e (.inl hmem))
          · exact absurd haddr (hother e (.inr (List.mem_append_right done hmem)))
        have hdue' : p.due = expiration := by rw [hdue, hentry]
        rw [hperiod, ← hdue']
      · exact absurd haddr (hother e (.inr (List.mem_append_left todo he)))

/-- A timer is cancelled that is not in the batch, or has run for the last time. -/
theorem Scheduled.cancel (h : Scheduled q todo done now) (hinv : QueueInv q (done ++ todo))
    {addr : Nat} {t : Timer} (ht : q.heap addr = some t)
    (htodo : ∀ e ∈ todo, e.second ≠ addr)
    (hdone : ∀ e ∈ done, e.second = addr → t.repeat_ = false)
    (hok : q.cancelTimerIdInLoop addr t.sequence_ = .ok q') : Scheduled q' todo done now := by
  rw [TimerQueue.cancelTimerIdInLoop_eq ht (hinv.address addr t ht).1] at hok
  cases hok
  refine h.change (s := t.sequence_) ?_ (fun _ _ _ => Iff.rfl) ?_ ?_
  · intro seq hseq
    rw [schedule_snoc, reschedule, Function.update_of_ne hseq]
  · intro e t' ht' hseq
    have hne : e ≠ ⟨t.expiration_, addr⟩ := by
      rintro rfl
      exact hseq (by rw [Option.some.inj (ht'.symm.trans ht)])
    refine ⟨?_, Iff.rfl⟩
    rw [OrdSet.mem_erase, and_iff_left hne]
  · intro p
    rw [schedule_snoc, reschedule, Function.update_self]
    refine ⟨nofun, ?_⟩
    intro hcase
    rcases hcase with ⟨e, t', ht', hsame, -, hheld⟩
    have haddr : e.second = addr := hinv.unique _ _ _ _ ht' ht hsame
    have heq : t' = t := by
      rw [haddr] at ht'
      exact Option.some.inj (ht'.symm.trans ht)
    subst heq
    rcases hheld with ⟨hmem | hmem, -⟩ | ⟨hmem, d, hd, -⟩
    · -- It was in `timers_` under its expiration.
      obtain ⟨hold, hne⟩ := OrdSet.mem_erase.mp hmem
      obtain ⟨t'', ht'', hfirst⟩ := hinv.keys e (.inl hold)
      rw [ht'] at ht''
      cases ht''
      refine absurd ?_ hne
      rw [hfirst, ← haddr]
    · exact absurd haddr (htodo e hmem)
    · rw [Timer.period, hdone e hmem haddr] at hd
      cases hd

/-- As long as nothing waits for `Reset`, the time does not matter. -/
theorem held_nil_iff {seq : Nat} {p : Pending} :
    Held q todo [] now seq p ↔
      ∃ e t, q.heap e.second = some t ∧ t.sequence_ = seq ∧ t.period = p.period ∧
        (e ∈ q.timers_ ∨ e ∈ todo) ∧ p.due = e.first := by
  simp only [Held, List.not_mem_nil, false_and, or_false]

/-- The expired timers are `todo`. -/
theorem Scheduled.getExpired {out : List Entry} {now₀ : Int} (h : Scheduled q [] [] now₀)
    (hheap : q'.heap = q.heap) (hlog : q'.log = q.log)
    (hsplit : ∀ e, e ∈ q.timers_ ↔ e ∈ q'.timers_ ∨ e ∈ out) : Scheduled q' out [] now := by
  intro seq p
  rw [hlog, h seq p, held_nil_iff, held_nil_iff, hheap]
  simp only [hsplit, List.not_mem_nil, or_false]

/-- A firing: the timer was pending at its expiration. -/
theorem Scheduled.runTimer {it : Entry} {t : Timer} (h : Scheduled q (it :: todo) done now)
    (hinv : QueueInv q (done ++ it :: todo)) (ht : q.heap it.second = some t) :
    schedule q.log t.sequence_ = some ⟨it.first, t.period⟩ ∧
      Scheduled (q.record (.ran t.sequence_ it now)) todo (done ++ [it]) now := by
  have hpending : schedule q.log t.sequence_ = some ⟨it.first, t.period⟩ :=
    (h _ _).mpr ⟨it, t, ht, rfl, rfl, .inl ⟨.inr List.mem_cons_self, rfl⟩⟩
  refine ⟨hpending, ?_⟩
  refine h.change (s := t.sequence_) ?_ (fun _ _ _ => Iff.rfl) ?_ ?_
  · intro seq hseq
    rw [TimerQueue.record, schedule_snoc, reschedule, Function.update_of_ne hseq]
  · intro e t' ht' hseq
    have hne : e ≠ it := by
      rintro rfl
      exact hseq (by rw [Option.some.inj (ht'.symm.trans ht)])
    rw [List.mem_cons, or_iff_right hne, List.mem_append, List.mem_singleton, or_iff_left hne]
    exact ⟨Iff.rfl, Iff.rfl⟩
  · intro p
    rw [TimerQueue.record, schedule_snoc, reschedule, Function.update_self, hpending]
    constructor
    · intro hp
      obtain ⟨d, hd, rfl⟩ := Option.map_eq_some_iff.mp hp
      exact ⟨it, t, ht, rfl, hd, .inr ⟨List.mem_append_right done List.mem_cons_self, d, hd, rfl⟩⟩
    · intro hcase
      rcases hcase with ⟨e, t', ht', hsame, hperiod, hheld⟩
      have haddr : e.second = it.second := hinv.unique _ _ _ _ ht' ht hsame
      rcases hheld with ⟨he, -⟩ | ⟨he, d, hd, hdue⟩
      · exact absurd haddr (hinv.second_ne_of_mem.1 e he)
      · have heq : t' = t := by
          rw [haddr] at ht'
          exact Option.some.inj (ht'.symm.trans ht)
        subst heq
        apply Option.map_eq_some_iff.mpr
        refine ⟨d, hd, ?_⟩
        rw [← hdue, ← hd, hperiod]

/-- A repeating timer that has run is pending one interval later, and is put back
    for then. -/
theorem Scheduled.restart {it : Entry} {t : Timer} (h : Scheduled q [] (it :: done) now)
    (hinv : QueueInv q (it :: done)) (hinv' : QueueInv q' done) (ht : q.heap it.second = some t)
    (hrepeat : t.repeat_ = true)
    (hheap : q'.heap = Function.update q.heap it.second (some (t.restart now)))
    (htimers : q'.timers_ = q.timers_.insert ⟨now + t.interval_, it.second⟩)
    (hlog : q'.log = q.log ++ [.rearmed t.sequence_ (now + t.interval_)]) :
    schedule q.log t.sequence_ = some ⟨now + t.interval_, t.period⟩ ∧
      Scheduled q' [] done now := by
  have hd : t.period = some t.interval_ := if_pos hrepeat
  have hpending : schedule q.log t.sequence_ = some ⟨now + t.interval_, t.period⟩ :=
    (h _ _).mpr ⟨it, t, ht, rfl, rfl, .inr ⟨List.mem_cons_self, _, hd, rfl⟩⟩
  have hsched : schedule q'.log = schedule q.log := by rw [hlog, schedule_snoc, reschedule]
  have hthere : ∀ t', q.heap it.second = some t' → t'.sequence_ = t.sequence_ := by
    intro t' ht'
    rw [Option.some.inj (ht'.symm.trans ht)]
  refine ⟨hpending, h.change (s := t.sequence_) ?_ ?_ ?_ ?_⟩
  · intro seq _
    rw [hsched]
  · rw [hheap]
    apply update_eq_some_iff hthere
    intro t' ht'
    cases ht'
    rfl
  · intro e t' ht' hseq
    have hentry : e ≠ ⟨now + t.interval_, it.second⟩ := by
      rintro rfl
      exact hseq (hthere t' ht')
    have hit : e ≠ it := by
      rintro rfl
      exact hseq (hthere t' ht')
    rw [htimers, OrdSet.mem_insert, or_iff_right hentry, List.mem_cons, or_iff_right hit]
    exact ⟨Iff.rfl, Iff.rfl⟩
  · -- It is in `timers_` where it was put, and nowhere else.
    intro p
    have hnew : q'.heap it.second = some (t.restart now) := by
      rw [hheap, Function.update_self]
    have hput : (⟨now + t.interval_, it.second⟩ : Entry) ∈ q'.timers_ := by
      rw [htimers]
      exact OrdSet.mem_insert.mpr (.inl rfl)
    rw [hsched, hpending]
    constructor
    · intro hp
      cases hp
      exact ⟨⟨now + t.interval_, it.second⟩, t.restart now, hnew, rfl, rfl, .inl ⟨.inl hput, rfl⟩⟩
    · intro hcase
      rcases hcase with ⟨e, t', ht', hsame, hperiod, hheld⟩
      have haddr : e.second = it.second := hinv'.unique _ _ _ _ ht' hnew hsame
      rw [haddr] at ht'
      cases hnew.symm.trans ht'
      rcases hheld with ⟨hmem | hmem, hdue⟩ | ⟨hmem, -⟩
      · have hentry := hinv'.eq_of_second hmem hput haddr
        have hdue' : p.due = now + t.interval_ := by rw [hdue, hentry]
        have hperiod' : t.period = p.period := hperiod
        rw [← hdue', hperiod']
      · cases hmem
      · exact absurd haddr ((List.pairwise_cons.mp hinv.apart).1 e hmem).symm

/-- A timer that has run for the last time is not pending, and is deleted. -/
theorem Scheduled.delete {it : Entry} {t : Timer} (h : Scheduled q [] (it :: done) now)
    (hinv : QueueInv q (it :: done)) (ht : q.heap it.second = some t) (hrepeat : t.repeat_ = false)
    (hheap : q'.heap = Function.update q.heap it.second none) (htimers : q'.timers_ = q.timers_)
    (hlog : q'.log = q.log) : Scheduled q' [] done now := by
  have hd : t.period = none := if_neg (by rw [hrepeat]; decide)
  have hthere : ∀ t', q.heap it.second = some t' → t'.sequence_ = t.sequence_ := by
    intro t' ht'
    rw [Option.some.inj (ht'.symm.trans ht)]
  refine h.change (s := t.sequence_) ?_ ?_ ?_ ?_
  · intro seq _
    rw [hlog]
  · rw [hheap]
    exact update_eq_some_iff hthere nofun
  · intro e t' ht' hseq
    have hit : e ≠ it := by
      rintro rfl
      exact hseq (hthere t' ht')
    rw [htimers, List.mem_cons, or_iff_right hit]
    exact ⟨Iff.rfl, Iff.rfl⟩
  · -- The timer is neither pending nor held.
    intro p
    rw [hlog]
    refine ⟨fun hp => ?_, fun hheld => ?_⟩
    · obtain ⟨e, t', ht', hsame, -, hheld⟩ := (h _ _).mp hp
      have haddr : e.second = it.second := hinv.unique _ _ _ _ ht' ht hsame
      rw [haddr] at ht'
      cases ht.symm.trans ht'
      rcases hheld with ⟨hmem | hmem, -⟩ | ⟨-, d, hsome, -⟩
      · exact absurd haddr (hinv.away it List.mem_cons_self e hmem)
      · cases hmem
      · rw [hd] at hsome
        cases hsome
    · obtain ⟨e, t', ht', hsame, -, -⟩ := hheld
      rw [hheap] at ht'
      by_cases haddr : e.second = it.second
      · rw [haddr, Function.update_self] at ht'
        cases ht'
      · rw [Function.update_of_ne haddr] at ht'
        exact absurd (hinv.unique _ _ _ _ ht' ht hsame) haddr

/-- One round of `Reset`. -/
theorem Scheduled.resetOne {it : Entry} (h : Scheduled q [] (it :: done) now)
    (hinv : QueueInv q (it :: done)) {n : Nat} (hlegal : Legal q.log n)
    (hok : TimerQueue.resetOne now q it = .ok q') :
    Scheduled q' [] done now ∧ Legal q'.log n := by
  obtain ⟨t, ht, hfirst, hcases⟩ := hinv.resetOne_cases now
  have hinv' : QueueInv q' done := hinv.resetOne hok
  rcases hcases with ⟨hrepeat, hcase⟩ | ⟨hrepeat, hcase⟩
  · rw [hcase] at hok
    cases hok
    obtain ⟨hpending, hsched⟩ := h.restart hinv hinv' ht hrepeat rfl rfl rfl
    exact ⟨hsched, hlegal.rearmed hpending⟩
  · rw [hcase] at hok
    cases hok
    exact ⟨h.delete hinv ht hrepeat rfl rfl rfl, hlegal⟩

end scheduled

/-! ## What each `HandleRead` runs -/

section firings

/-- Neither the call of a callback nor the end of a `HandleRead`. -/
def TimerEvent.quiet : TimerEvent → Bool
  | .ran _ _ _ => false
  | .handled _ _ _ => false
  | _ => true

/-- What a `HandleRead` that has returned has run. -/
def TimerEvent.fired : TimerEvent → List Entry
  | .handled _ _ fired => fired
  | _ => []

/-- What the `HandleRead` in progress has run. -/
def firing (log : List TimerEvent) : Option Batch → List Entry
  | none => []
  | some b => firedOf (log.drop b.mark)

/-- The sequence number of the timer an element points to. -/
def TimerQueue.seqOf (q : TimerQueue) (e : Entry) : Option Nat :=
  (q.heap e.second).map Timer.sequence_

theorem seqOf_eq_some {q : TimerQueue} {e : Entry} {seq : Nat} :
    q.seqOf e = some seq ↔ ∃ t, q.heap e.second = some t ∧ t.sequence_ = seq :=
  Option.map_eq_some_iff

structure BatchInv (log : List TimerEvent) (b : Batch) : Prop where
  expired : b.expired = b.start.filter (·.first ≤ b.now)
  start : b.start.Pairwise (· < ·)
  mark : b.mark ≤ log.length
  fired : firedOf (log.drop b.mark) ++ b.todo = b.expired

/-- Each `HandleRead` runs what was due at its start, and nothing runs elsewhere. -/
structure FiredInv (log : List TimerEvent) (handling : Option Batch) : Prop where
  batch : ∀ b, handling = some b → BatchInv log b
  handled : ∀ now start fired, .handled now start fired ∈ log →
    fired = start.filter (·.first ≤ now) ∧ start.Pairwise (· < ·)
  accounted : firedOf log = log.flatMap TimerEvent.fired ++ firing log handling

variable {log more : List TimerEvent} {b : Batch}

theorem firedOf_append (log more : List TimerEvent) :
    firedOf (log ++ more) = firedOf log ++ firedOf more :=
  List.filterMap_append

theorem firedOf_quiet (h : ∀ e ∈ more, e.quiet = true) : firedOf more = [] := by
  rw [firedOf, List.filterMap_eq_nil_iff]
  intro e he
  have hquiet := h e he
  cases e with
  | ran seq entry now => cases hquiet
  | _ => rfl

theorem flatMap_fired_quiet (h : ∀ e ∈ more, e.quiet = true) :
    more.flatMap TimerEvent.fired = [] := by
  rw [List.flatMap_eq_nil_iff]
  intro e he
  have hquiet := h e he
  cases e with
  | handled now start fired => cases hquiet
  | _ => rfl

theorem not_handled_quiet (h : ∀ e ∈ more, e.quiet = true) {now : Int} {start fired : List Entry} :
    .handled now start fired ∉ more := by
  intro hmem
  cases h _ hmem

/-- What is still to run is due. -/
theorem BatchInv.due (h : BatchInv log b) {it : Entry} (hit : it ∈ b.todo) : it.first ≤ b.now := by
  have hmem : it ∈ b.expired := by
    rw [← h.fired]
    exact List.mem_append_right _ hit
  rw [h.expired] at hmem
  simpa using (List.mem_filter.mp hmem).2

/-- What is recorded besides is recorded during the batch. -/
theorem BatchInv.firedOf_drop (h : BatchInv log b) (more : List TimerEvent) :
    firedOf ((log ++ more).drop b.mark) = firedOf (log.drop b.mark) ++ firedOf more := by
  rw [List.drop_append_of_le_length h.mark, firedOf_append]

namespace FiredInv

variable {handling : Option Batch}

theorem quiet (h : FiredInv log handling) (hquiet : ∀ e ∈ more, e.quiet = true) :
    FiredInv (log ++ more) handling := by
  refine ⟨?_, ?_, ?_⟩
  · intro b hb
    have hbatch := h.batch b hb
    refine ⟨hbatch.expired, hbatch.start, ?_, ?_⟩
    · rw [List.length_append]
      exact Nat.le_add_right_of_le hbatch.mark
    · rw [hbatch.firedOf_drop, firedOf_quiet hquiet, List.append_nil, hbatch.fired]
  · intro now start fired hmem
    rcases List.mem_append.mp hmem with hold | hnew
    · exact h.handled now start fired hold
    · exact absurd hnew (not_handled_quiet hquiet)
  · have hfiring : firing (log ++ more) handling = firing log handling := by
      cases handling with
      | none => rfl
      | some b =>
        rw [firing, (h.batch b rfl).firedOf_drop, firedOf_quiet hquiet, List.append_nil]
        rfl
    rw [firedOf_append, firedOf_quiet hquiet, List.flatMap_append, flatMap_fired_quiet hquiet,
      List.append_nil, List.append_nil, hfiring]
    exact h.accounted

/-- `HandleRead` is called. -/
theorem start (h : FiredInv log none) {now : Int} {expired start : List Entry}
    (hexpired : expired = start.filter (·.first ≤ now)) (hstart : start.Pairwise (· < ·)) :
    FiredInv log (some ⟨now, expired, expired, start, log.length⟩) := by
  refine ⟨?_, h.handled, ?_⟩
  · intro b hb
    cases hb
    exact ⟨hexpired, hstart, Nat.le_refl _, by rw [List.drop_length]; rfl⟩
  · rw [h.accounted, firing, firing, List.drop_length]
    rfl

/-- The next callback is called. -/
theorem run (h : FiredInv log (some b)) {it : Entry} {rest : List Entry}
    (htodo : b.todo = it :: rest) (seq : Nat) :
    FiredInv (log ++ [.ran seq it b.now]) (some { b with todo := rest }) := by
  have hbatch := h.batch b rfl
  refine ⟨?_, ?_, ?_⟩
  · intro b' hb'
    cases hb'
    refine ⟨hbatch.expired, hbatch.start, ?_, ?_⟩
    · rw [List.length_append]
      exact Nat.le_add_right_of_le hbatch.mark
    · rw [hbatch.firedOf_drop, ← hbatch.fired, htodo, List.append_assoc]
      rfl
  · intro now start fired hmem
    exact h.handled now start fired (by simpa using hmem)
  · have hnone : List.flatMap TimerEvent.fired [.ran seq it b.now] = [] := rfl
    rw [firing, hbatch.firedOf_drop, firedOf_append, h.accounted, List.flatMap_append, hnone,
      List.append_nil, List.append_assoc]
    rfl

/-- `HandleRead` returns. -/
theorem finish (h : FiredInv log (some b)) (htodo : b.todo = [])
    (hquiet : ∀ e ∈ more, e.quiet = true) :
    FiredInv (log ++ more ++ [.handled b.now b.start (firedOf (log.drop b.mark))]) none := by
  have hbatch := h.batch b rfl
  have hfired : firedOf (log.drop b.mark) = b.expired := by
    rw [← hbatch.fired, htodo, List.append_nil]
  refine ⟨nofun, ?_, ?_⟩
  · intro now start fired hmem
    rcases List.mem_append.mp hmem with hold | hlast
    · exact (h.quiet hquiet).handled now start fired hold
    · cases List.mem_singleton.mp hlast
      exact ⟨hfired.trans hbatch.expired, hbatch.start⟩
  · have haccounted := h.accounted
    rw [firing] at haccounted
    rw [firedOf_append, firedOf_append, firedOf_quiet hquiet, List.flatMap_append,
      List.flatMap_append, flatMap_fired_quiet hquiet, haccounted]
    simp [firedOf, firing, TimerEvent.fired]

end FiredInv

/-- What `Reset` records are timers that are put back. -/
theorem reset_log {q q' : TimerQueue} {expired : List Entry} {now : Int}
    (hinv : QueueInv q expired) (hok : q.reset expired now = .ok q') :
    ∃ more, q'.log = q.log ++ more ∧ ∀ e ∈ more, ∃ seq expiration, e = .rearmed seq expiration := by
  have hround : ∀ r it out r',
      (QueueInv r (it :: out) ∧ ∃ more, r.log = q.log ++ more ∧
        ∀ e ∈ more, ∃ seq expiration, e = .rearmed seq expiration) →
      TimerQueue.resetOne now r it = .ok r' →
      QueueInv r' out ∧ ∃ more, r'.log = q.log ++ more ∧
        ∀ e ∈ more, ∃ seq expiration, e = .rearmed seq expiration := by
    intro r it out r' ⟨hr, more, hlog, hback⟩ hok'
    refine ⟨hr.resetOne hok', ?_⟩
    obtain ⟨t, -, -, ⟨-, hcase⟩ | ⟨-, hcase⟩⟩ := hr.resetOne_cases now
    · rw [hcase] at hok'
      cases hok'
      refine ⟨more ++ [.rearmed t.sequence_ (now + t.interval_)], ?_, ?_⟩
      · rw [hlog, List.append_assoc]
      · intro e he
        rcases List.mem_append.mp he with hold | hlast
        · exact hback e hold
        · exact ⟨_, _, List.mem_singleton.mp hlast⟩
    · rw [hcase] at hok'
      cases hok'
      exact ⟨more, hlog, hback⟩
  obtain ⟨q₁, hok₁, -, hmore⟩ := reset_consumes
    (P := fun r out => QueueInv r out ∧ ∃ more, r.log = q.log ++ more ∧
      ∀ e ∈ more, ∃ seq expiration, e = .rearmed seq expiration)
    (fun _ _ hP => hP.1) hround ⟨hinv, [], (List.append_nil _).symm, nofun⟩
  rw [hok₁] at hok
  cases hok
  rw [TimerQueue.armNext_eq]
  exact hmore

theorem firedInv_initial (s : TimerLoop) (h : timerSystem.init s) :
    FiredInv s.queue.log s.handling := by
  obtain ⟨hhandling, -, -, -, -, hlog⟩ := h
  rw [hhandling, hlog]
  exact ⟨nofun, nofun, rfl⟩

theorem firedInv_preserved (s : TimerLoop) (l : TimerLabel) (s' : TimerLoop)
    (hinv : QueueInv s.queue s.out) (h : FiredInv s.queue.log s.handling)
    (hstep : timerSystem.step s l s') : FiredInv s'.queue.log s'.handling := by
  simp only [timerSystem] at hstep
  cases l with
  | tick now =>
    obtain rfl := hstep
    exact h
  | create =>
    obtain rfl := hstep
    exact h
  | addTimer p expiration interval repeat_ =>
    obtain ⟨-, -, -, hok, hhandling⟩ := hstep
    rw [TimerQueue.addTimer_eq] at hok
    rw [hhandling, ← Except.ok.inj hok]
    exact h.quiet (by simp [TimerEvent.quiet])
  | cancel p seq =>
    obtain ⟨⟨t, ht, -⟩, hok, hhandling⟩ := hstep
    rw [TimerQueue.cancelTimerIdInLoop_eq ht (hinv.address p t ht).1] at hok
    rw [hhandling, ← Except.ok.inj hok]
    exact h.quiet (by simp [TimerEvent.quiet])
  | handleRead =>
    obtain ⟨hidle, rfl⟩ := hstep
    rw [TimerLoop.out_idle hidle] at hinv
    rw [hidle] at h
    -- Reading the timerfd changes neither the log nor the timers.
    have hlog : s.queue.readTimerfd.log = s.queue.log := by rw [readTimerfd_eq]
    have htimers : s.queue.readTimerfd.timers_ = s.queue.timers_ := by rw [readTimerfd_eq]
    show FiredInv s.queue.readTimerfd.log _
    rw [hlog]
    refine h.start ?_ s.queue.timers_.increasing
    show (s.queue.readTimerfd.timers_.below ⟨s.queue.clock, _⟩).toList = _
    rw [htimers]
    -- All that is below the sentry is due.
    apply List.filter_congr
    intro e he
    rw [decide_eq_decide]
    exact hinv.mem_below he
  | runTimer =>
    obtain ⟨b, it, rest, hhandling, htodo, hok, hhandling'⟩ := hstep
    obtain ⟨t, -, hrecord⟩ := runTimer_ok hok
    rw [hhandling] at h
    rw [hhandling', hrecord]
    exact h.run htodo t.sequence_
  | reset =>
    obtain ⟨b, hhandling, htodo, queue, hok, rfl⟩ := hstep
    rw [TimerLoop.out_handling hhandling] at hinv
    rw [hhandling] at h
    obtain ⟨more, hlog, hback⟩ := reset_log hinv hok
    show FiredInv (queue.log ++ [_]) none
    rw [hlog]
    apply h.finish htodo
    intro e he
    obtain ⟨seq, expiration, rfl⟩ := hback e he
    rfl

/-- What the `HandleRead` in progress has called are the callbacks of the timers the
    elements point to. -/
def CalledInv (s : TimerLoop) : Prop :=
  ∀ b, s.handling = some b → ∀ seq e now, .ran seq e now ∈ s.queue.log.drop b.mark →
    now = b.now ∧ s.queue.seqOf e = some seq

/-- Until `Reset` no timer is deleted. -/
theorem CalledInv.keep {s s' : TimerLoop} (h : CalledInv s)
    (hfired : FiredInv s.queue.log s.handling) (hhandling : s'.handling = s.handling)
    (hlog : s'.queue.log = s.queue.log ++ more) (hquiet : ∀ e ∈ more, e.quiet = true)
    (hheap : ∀ p t, s.queue.heap p = some t → s'.queue.heap p = some t) : CalledInv s' := by
  intro b hb seq e now hran
  rw [hhandling] at hb
  rw [hlog, List.drop_append_of_le_length (hfired.batch b hb).mark] at hran
  rcases List.mem_append.mp hran with hold | hnew
  · obtain ⟨hnow, hseq⟩ := h b hb seq e now hold
    obtain ⟨t, ht, htseq⟩ := seqOf_eq_some.mp hseq
    exact ⟨hnow, seqOf_eq_some.mpr ⟨t, hheap _ _ ht, htseq⟩⟩
  · cases hquiet _ hnew

theorem calledInv_preserved (s : TimerLoop) (l : TimerLabel) (s' : TimerLoop)
    (hinv : QueueInv s.queue s.out) (hfired : FiredInv s.queue.log s.handling) (h : CalledInv s)
    (hstep : timerSystem.step s l s') : CalledInv s' := by
  simp only [timerSystem] at hstep
  cases l with
  | tick now =>
    obtain rfl := hstep
    exact h
  | create =>
    obtain rfl := hstep
    exact h
  | addTimer p expiration interval repeat_ =>
    obtain ⟨hfree, -, -, hok, hhandling⟩ := hstep
    rw [TimerQueue.addTimer_eq] at hok
    have hqueue := Except.ok.inj hok
    refine h.keep hfired hhandling (by rw [← hqueue]) (by simp [TimerEvent.quiet]) ?_
    rw [← hqueue]
    intro p' t ht
    have hne : p' ≠ p := by
      intro heq
      rw [heq, hfree] at ht
      cases ht
    exact (Function.update_of_ne hne _ _).trans ht
  | cancel p seq =>
    obtain ⟨⟨t, ht, -⟩, hok, hhandling⟩ := hstep
    rw [TimerQueue.cancelTimerIdInLoop_eq ht (hinv.address p t ht).1] at hok
    have hqueue := Except.ok.inj hok
    refine h.keep hfired hhandling (by rw [← hqueue]) (by simp [TimerEvent.quiet]) ?_
    rw [← hqueue]
    exact fun _ _ ht => ht
  | handleRead =>
    obtain ⟨-, rfl⟩ := hstep
    intro b hb seq e now hran
    cases hb
    have hran' : .ran seq e now ∈ s.queue.readTimerfd.log.drop s.queue.log.length := hran
    rw [readTimerfd_eq, List.drop_length] at hran'
    cases hran'
  | runTimer =>
    obtain ⟨b, it, rest, hhandling, -, hok, hhandling'⟩ := hstep
    obtain ⟨t, ht, hrecord⟩ := runTimer_ok hok
    intro b' hb' seq e now hran
    rw [hhandling'] at hb'
    cases hb'
    rw [hrecord, TimerQueue.record] at hran ⊢
    rw [List.drop_append_of_le_length (hfired.batch b hhandling).mark] at hran
    rcases List.mem_append.mp hran with hold | hlast
    · exact h b hhandling seq e now hold
    · cases List.mem_singleton.mp hlast
      exact ⟨rfl, seqOf_eq_some.mpr ⟨t, ht, rfl⟩⟩
  | reset =>
    obtain ⟨b, -, -, queue, -, rfl⟩ := hstep
    intro b' hb'
    cases hb'

end firings

/-! ## Runs -/

/-- The timer that is cancelled is not one of those that have expired in the
    `HandleRead` under way, unless it has run and does not repeat. -/
def CancelOk (s : TimerLoop) : TimerLabel → Prop
  | .cancel p _ => ∀ b, s.handling = some b → ∀ e ∈ b.expired, e.second = p →
      e ∉ b.todo ∧ ∀ t, s.queue.heap p = some t → t.repeat_ = false
  | _ => True

def TimerLoop.todo (s : TimerLoop) : List Entry := s.handling.elim [] Batch.todo

def TimerLoop.now (s : TimerLoop) : Int := s.handling.elim 0 Batch.now

theorem TimerLoop.todo_handling {s : TimerLoop} {b : Batch} (h : s.handling = some b) :
    s.todo = b.todo := by
  rw [todo, h, Option.elim_some]

theorem TimerLoop.now_handling {s : TimerLoop} {b : Batch} (h : s.handling = some b) :
    s.now = b.now := by
  rw [now, h, Option.elim_some]

/-- The queue holds the timers of the schedule, and its log is legal. -/
structure SchedInv (s : TimerLoop) : Prop where
  queue : QueueInv s.queue s.out
  fired : FiredInv s.queue.log s.handling
  legal : Legal s.queue.log s.queue.s_numCreated_
  sched : ∃ done, s.out = done ++ s.todo ∧ Scheduled s.queue s.todo done s.now

section runs

theorem schedInv_initial (s : TimerLoop) (h : (timerSystem.restrict CancelOk).init s) :
    SchedInv s := by
  have hqueue := queueInv_initial s h
  have hfired := firedInv_initial s h
  obtain ⟨hhandling, -, htimers, -, -, hlog⟩ := h
  refine ⟨hqueue, hfired, ?_, [], ?_, ?_⟩
  · rw [hlog]
    exact .nil _
  · rw [TimerLoop.out, TimerLoop.todo, hhandling]
    rfl
  · rw [TimerLoop.todo, hhandling]
    intro seq p
    rw [hlog]
    refine ⟨fun hp => absurd hp (Option.some_ne_none p).symm, ?_⟩
    intro hcase
    rcases hcase with ⟨e, t, -, -, -, ⟨he | he, -⟩ | ⟨he, -⟩⟩
    · rw [htimers] at he
      exact absurd he OrdSet.not_mem_empty
    · cases he
    · cases he

/-- The end of a `HandleRead`: `Reset` finds the schedule in the batch and leaves it
    in `timers_`. -/
theorem Scheduled.reset {q q' : TimerQueue} {expired : List Entry} {now : Int}
    (h : Scheduled q [] expired now) (hinv : QueueInv q expired)
    (hlegal : Legal q.log q.s_numCreated_) (hok : q.reset expired now = .ok q') :
    Scheduled q' [] [] now ∧ Legal q'.log q'.s_numCreated_ := by
  have hround : ∀ r it out r',
      (QueueInv r (it :: out) ∧ Scheduled r [] (it :: out) now ∧
        Legal r.log r.s_numCreated_) →
      TimerQueue.resetOne now r it = .ok r' →
      QueueInv r' out ∧ Scheduled r' [] out now ∧ Legal r'.log r'.s_numCreated_ := by
    intro r it out r' ⟨hr, hsched, hlog⟩ hok'
    obtain ⟨hsched', hlog'⟩ := hsched.resetOne hr hlog hok'
    have hcreated : r'.s_numCreated_ = r.s_numCreated_ := by
      obtain ⟨t, -, -, ⟨-, hcase⟩ | ⟨-, hcase⟩⟩ := hr.resetOne_cases now
      · rw [hcase] at hok'
        cases hok'
        rfl
      · rw [hcase] at hok'
        cases hok'
        rfl
    rw [hcreated]
    exact ⟨hr.resetOne hok', hsched', hlog'⟩
  obtain ⟨q₁, hok₁, -, hsched, hlog⟩ := reset_consumes
    (P := fun r out => QueueInv r out ∧ Scheduled r [] out now ∧ Legal r.log r.s_numCreated_)
    (fun _ _ hP => hP.1) hround ⟨hinv, h, hlegal⟩
  rw [hok₁] at hok
  cases hok
  rw [TimerQueue.armNext_eq]
  exact ⟨hsched, hlog⟩

theorem schedInv_preserved (s : TimerLoop) (l : TimerLabel) (s' : TimerLoop) (h : SchedInv s)
    (hstep : (timerSystem.restrict CancelOk).step s l s') : SchedInv s' := by
  obtain ⟨hcond, hstep⟩ := hstep
  have hqueue := queueInv_preserved s l s' h.queue hstep
  have hfired := firedInv_preserved s l s' h.queue h.fired hstep
  obtain ⟨done, hout, hsched⟩ := h.sched
  have hinv : QueueInv s.queue (done ++ s.todo) := by
    rw [← hout]
    exact h.queue
  simp only [timerSystem] at hstep
  cases l with
  | tick now =>
    obtain rfl := hstep
    exact ⟨hqueue, hfired, h.legal, done, hout, hsched⟩
  | create =>
    obtain rfl := hstep
    exact ⟨hqueue, hfired, h.legal.create, done, hout, hsched⟩
  | addTimer p expiration interval repeat_ =>
    obtain ⟨hfree, -, -, hok, hhandling⟩ := hstep
    have hsched' := hsched.addTimer hinv hfree hok
    refine ⟨hqueue, hfired, ?_, done, ?_, ?_⟩
    · rw [TimerQueue.addTimer_eq] at hok
      rw [← Except.ok.inj hok]
      exact h.legal.added expiration _
    · rw [TimerLoop.out, TimerLoop.todo, hhandling]
      exact hout
    · rw [TimerLoop.todo, TimerLoop.now, hhandling]
      exact hsched'
  | cancel p seq =>
    obtain ⟨⟨t, ht, rfl⟩, hok, hhandling⟩ := hstep
    -- The condition is void outside `HandleRead`, where nothing is out.
    have hbatch : ∀ e ∈ s.out, e.second = p → e ∉ s.todo ∧ t.repeat_ = false := by
      intro e he hp
      cases hb : s.handling with
      | none =>
        rw [TimerLoop.out_idle hb] at he
        cases he
      | some b =>
        rw [TimerLoop.out_handling hb] at he
        obtain ⟨hrun, honce⟩ := hcond b hb e he hp
        rw [TimerLoop.todo, hb]
        exact ⟨hrun, honce t ht⟩
    rw [hout] at hbatch
    have hsched' := hsched.cancel hinv ht
      (fun e he hp => (hbatch e (List.mem_append_right done he) hp).1 he)
      (fun e he hp => (hbatch e (List.mem_append_left s.todo he) hp).2) hok
    refine ⟨hqueue, hfired, ?_, done, ?_, ?_⟩
    · rw [TimerQueue.cancelTimerIdInLoop_eq ht (hinv.address p t ht).1] at hok
      rw [← Except.ok.inj hok]
      exact h.legal.cancelled (hinv.fresh p t ht)
    · rw [TimerLoop.out, TimerLoop.todo, hhandling]
      exact hout
    · rw [TimerLoop.todo, TimerLoop.now, hhandling]
      exact hsched'
  | handleRead =>
    obtain ⟨hidle, rfl⟩ := hstep
    have hread := readTimerfd_eq s.queue
    have hnil : done = [] ∧ s.todo = [] := by
      rw [TimerLoop.out_idle hidle] at hout
      exact List.append_eq_nil_iff.mp hout.symm
    rw [hnil.1, hnil.2] at hsched
    refine ⟨hqueue, hfired, ?_, [], rfl, ?_⟩
    · show Legal s.queue.readTimerfd.log s.queue.readTimerfd.s_numCreated_
      rw [hread]
      exact h.legal
    · refine hsched.getExpired ?_ ?_ ?_
      · show s.queue.readTimerfd.heap = s.queue.heap
        rw [hread]
      · show s.queue.readTimerfd.log = s.queue.log
        rw [hread]
      · intro e
        show e ∈ s.queue.timers_ ↔
          e ∈ s.queue.readTimerfd.timers_.dropBelow ⟨s.queue.clock, TimerQueue.uintptrMax⟩ ∨
          e ∈ s.queue.readTimerfd.timers_.below ⟨s.queue.clock, TimerQueue.uintptrMax⟩
        rw [OrdSet.mem_dropBelow, OrdSet.mem_below, ← and_or_left, hread]
        exact (and_iff_left (le_or_gt _ e)).symm
  | runTimer =>
    obtain ⟨b, it, rest, hhandling, htodo, hok, hhandling'⟩ := hstep
    have htodo' : s.todo = it :: rest := (TimerLoop.todo_handling hhandling).trans htodo
    have hnow := TimerLoop.now_handling hhandling
    obtain ⟨t, ht, hrecord⟩ := runTimer_ok hok
    rw [htodo', hnow] at hsched
    rw [htodo'] at hinv hout
    obtain ⟨hpending, hsched'⟩ := hsched.runTimer hinv ht
    have hdue : it.first ≤ b.now := by
      apply (h.fired.batch b hhandling).due
      rw [htodo]
      exact List.mem_cons_self
    refine ⟨hqueue, hfired, ?_, done ++ [it], ?_, ?_⟩
    · rw [hrecord]
      exact h.legal.ran hpending hdue
    · rw [TimerLoop.out_handling hhandling', TimerLoop.todo, hhandling', List.append_assoc]
      rw [TimerLoop.out_handling hhandling] at hout
      exact hout
    · rw [TimerLoop.todo, TimerLoop.now, hhandling', hrecord]
      exact hsched'
  | reset =>
    obtain ⟨b, hhandling, htodo, queue, hok, rfl⟩ := hstep
    have htodo' : s.todo = [] := (TimerLoop.todo_handling hhandling).trans htodo
    have hnow := TimerLoop.now_handling hhandling
    -- The loop is through, so the whole batch is `done`.
    rw [htodo', List.append_nil, TimerLoop.out_handling hhandling] at hout
    rw [htodo', ← hout, hnow] at hsched
    rw [htodo', ← hout, List.append_nil] at hinv
    obtain ⟨hsched', hlegal'⟩ := hsched.reset hinv h.legal hok
    refine ⟨hqueue, hfired, hlegal'.handled _ _ _, [], rfl, ?_⟩
    intro seq p
    show schedule (queue.log ++ [_]) seq = some p ↔ Held queue [] [] 0 seq p
    rw [schedule_snoc, reschedule, hsched' seq p, held_nil_iff, held_nil_iff]

theorem schedInv_reachable (s : TimerLoop) (hs : (timerSystem.restrict CancelOk).Reachable s) :
    SchedInv s :=
  LTS.System.invariant schedInv_initial schedInv_preserved s hs

end runs

/-! ## Without `Cancel` -/

def NoCancel (_ : TimerLoop) : TimerLabel → Prop
  | .cancel _ _ => False
  | _ => True

structure FiresAsScheduled (s : TimerLoop) : Prop where
  /-- A `HandleRead` that has returned has run what was due in `timers_` at its
      start, once each and in the order of the expirations. -/
  handled : ∀ now start fired, .handled now start fired ∈ s.queue.log →
    fired = start.filter (·.first ≤ now) ∧ fired.Nodup ∧ fired.Pairwise (·.first ≤ ·.first)
  /-- The one in progress will have done so. -/
  handling : ∀ b, s.handling = some b →
    firing s.queue.log s.handling ++ b.todo = b.start.filter (·.first ≤ b.now)
  /-- To run an element is to call the callback of the timer it points to. -/
  called : ∀ b, s.handling = some b → ∀ seq e now, .ran seq e now ∈ s.queue.log.drop b.mark →
    now = b.now ∧ s.queue.seqOf e = some seq
  /-- Nothing is run besides. -/
  accounted : firedOf s.queue.log =
    s.queue.log.flatMap TimerEvent.fired ++ firing s.queue.log s.handling
  onTime : ∀ seq expiration period, .added seq expiration period ∈ s.queue.log →
    OnTime period expiration (runsOf s.queue.log seq)
  oneShot : ∀ seq expiration, .added seq expiration none ∈ s.queue.log →
    (runsOf s.queue.log seq).length ≤ 1 ∧
      ∀ r ∈ runsOf s.queue.log seq, r.1.first = expiration ∧ expiration ≤ r.2
  /-- Outside `HandleRead` a timer that is due is in `timers_`, for the time at
      which it is due, and one that is not due any more is not. -/
  held : s.handling = none → ∀ seq expiration period,
    .added seq expiration period ∈ s.queue.log → ∀ due,
      dueAfter period expiration (runsOf s.queue.log seq) = some due ↔
        ∃ e ∈ s.queue.timers_, s.queue.seqOf e = some seq ∧ e.first = due
  /-- No timer is held twice, -/
  once : ∀ e ∈ s.queue.timers_, ∀ e' ∈ s.queue.timers_,
    s.queue.seqOf e = s.queue.seqOf e' → e = e'
  /-- and none that was not added. -/
  known : s.handling = none → ∀ e ∈ s.queue.timers_, ∃ seq expiration period,
    s.queue.seqOf e = some seq ∧ .added seq expiration period ∈ s.queue.log
  noFault : ∀ b, s.handling = some b →
    (∀ it rest, b.todo = it :: rest → ∃ q, s.queue.runTimer it b.now = .ok q) ∧
      ∃ q, s.queue.reset b.expired b.now = .ok q

section fires

theorem not_cancelled_preserved (s : TimerLoop) (l : TimerLabel) (s' : TimerLoop)
    (hinv : QueueInv s.queue s.out) (h : ∀ seq, .cancelled seq ∉ s.queue.log)
    (hstep : (timerSystem.restrict NoCancel).step s l s') :
    ∀ seq, .cancelled seq ∉ s'.queue.log := by
  obtain ⟨hcond, hstep⟩ := hstep
  intro seq
  simp only [timerSystem] at hstep
  cases l with
  | tick now =>
    obtain rfl := hstep
    exact h seq
  | create =>
    obtain rfl := hstep
    exact h seq
  | addTimer p expiration interval repeat_ =>
    obtain ⟨-, -, -, hok, -⟩ := hstep
    rw [TimerQueue.addTimer_eq] at hok
    rw [← Except.ok.inj hok]
    simpa using h seq
  | cancel p seq' => exact hcond.elim
  | handleRead =>
    obtain ⟨-, rfl⟩ := hstep
    show .cancelled seq ∉ s.queue.readTimerfd.log
    rw [readTimerfd_eq]
    exact h seq
  | runTimer =>
    obtain ⟨b, it, rest, -, -, hok, -⟩ := hstep
    obtain ⟨t, -, hrecord⟩ := runTimer_ok hok
    rw [hrecord, TimerQueue.record]
    simpa using h seq
  | reset =>
    obtain ⟨b, hhandling, -, queue, hok, rfl⟩ := hstep
    rw [TimerLoop.out_handling hhandling] at hinv
    obtain ⟨more, hlog, hback⟩ := reset_log hinv hok
    show .cancelled seq ∉ queue.log ++ [_]
    rw [hlog]
    intro hmem
    rcases List.mem_append.mp hmem with hmem | hlast
    · rcases List.mem_append.mp hmem with hold | hnew
      · exact h seq hold
      · obtain ⟨_, _, heq⟩ := hback _ hnew
        cases heq
    · cases List.mem_singleton.mp hlast

theorem noCancel_reachable (s : TimerLoop) (hs : (timerSystem.restrict NoCancel).Reachable s) :
    CalledInv s ∧ ∀ seq, .cancelled seq ∉ s.queue.log := by
  have h : QueueInv s.queue s.out ∧ FiredInv s.queue.log s.handling ∧ CalledInv s ∧
      ∀ seq, .cancelled seq ∉ s.queue.log := by
    refine LTS.System.invariant
      (P := fun s => QueueInv s.queue s.out ∧ FiredInv s.queue.log s.handling ∧ CalledInv s ∧
        ∀ seq, .cancelled seq ∉ s.queue.log) ?_ ?_ s hs
    · intro s hinit
      refine ⟨queueInv_initial s hinit, firedInv_initial s hinit, ?_, ?_⟩
      · intro b hb
        rw [hinit.1] at hb
        cases hb
      · obtain ⟨-, -, -, -, -, hlog⟩ := hinit
        rw [hlog]
        exact fun _ => List.not_mem_nil
    · intro s l s' ⟨hqueue, hfired, hcalled, hnone⟩ hstep
      exact ⟨queueInv_preserved s l s' hqueue hstep.2,
        firedInv_preserved s l s' hqueue hfired hstep.2,
        calledInv_preserved s l s' hqueue hfired hcalled hstep.2,
        not_cancelled_preserved s l s' hqueue hnone hstep⟩
  exact h.2.2

/-- The timers in `timers_` are those of the schedule. -/
theorem SchedInv.pending_iff {s : TimerLoop} (h : SchedInv s) (hidle : s.handling = none)
    (seq : Nat) (p : Pending) :
    schedule s.queue.log seq = some p ↔
      ∃ e t, s.queue.heap e.second = some t ∧ t.sequence_ = seq ∧ t.period = p.period ∧
        e ∈ s.queue.timers_ ∧ p.due = e.first := by
  obtain ⟨done, hout, hsched⟩ := h.sched
  rw [TimerLoop.out_idle hidle] at hout
  obtain ⟨hdone, htodo⟩ := List.append_eq_nil_iff.mp hout.symm
  rw [hdone, htodo] at hsched
  rw [hsched seq p, held_nil_iff]
  simp only [List.not_mem_nil, or_false]

/-- A timer is in `timers_` when and for when it is due. -/
theorem SchedInv.held_iff {s : TimerLoop} (h : SchedInv s) (hidle : s.handling = none)
    (hnone : ∀ seq, .cancelled seq ∉ s.queue.log) {seq : Nat} {expiration : Int}
    {period : Option Nat} (hadded : .added seq expiration period ∈ s.queue.log) (due : Int) :
    dueAfter period expiration (runsOf s.queue.log seq) = some due ↔
      ∃ e ∈ s.queue.timers_, s.queue.seqOf e = some seq ∧ e.first = due := by
  have hsched : schedule s.queue.log seq =
      (dueAfter period expiration (runsOf s.queue.log seq)).map fun due => ⟨due, period⟩ := by
    refine (h.legal.history hadded).2.resolve_left ?_
    intro hcancelled
    exact hnone seq hcancelled.2
  constructor
  · intro hdue
    rw [hdue] at hsched
    obtain ⟨e, t, ht, hseq, -, he, hfirst⟩ := (h.pending_iff hidle _ _).mp hsched
    exact ⟨e, he, seqOf_eq_some.mpr ⟨t, ht, hseq⟩, hfirst.symm⟩
  · intro hcase
    rcases hcase with ⟨e, he, hseqOf, rfl⟩
    obtain ⟨t, ht, hseq⟩ := seqOf_eq_some.mp hseqOf
    have hpending := (h.pending_iff hidle seq ⟨e.first, t.period⟩).mpr
      ⟨e, t, ht, hseq, rfl, he, rfl⟩
    rw [hsched] at hpending
    obtain ⟨due, hdue, heq⟩ := Option.map_eq_some_iff.mp hpending
    cases heq
    exact hdue

/-- A timer is in `timers_` once. -/
theorem QueueInv.eq_of_seqOf {q : TimerQueue} {out : List Entry} (h : QueueInv q out)
    {e e' : Entry} (he : e ∈ q.timers_) (he' : e' ∈ q.timers_) (hseq : q.seqOf e = q.seqOf e') :
    e = e' := by
  obtain ⟨t, ht, -⟩ := h.keys e (.inl he)
  obtain ⟨t', ht', -⟩ := h.keys e' (.inl he')
  simp only [TimerQueue.seqOf, ht, ht', Option.map_some, Option.some.injEq] at hseq
  exact h.eq_of_second he he' (h.unique _ _ _ _ ht ht' hseq)

/-- The loop of `HandleRead` and `Reset` only follow pointers to timers. -/
theorem QueueInv.noFault {q : TimerQueue} {expired : List Entry} (h : QueueInv q expired)
    (now : Int) :
    (∀ it ∈ expired, ∃ q', q.runTimer it now = .ok q') ∧ ∃ q', q.reset expired now = .ok q' := by
  constructor
  · intro it hit
    obtain ⟨t, ht, -⟩ := h.keys it (.inr hit)
    exact ⟨_, runTimer_eq ht now⟩
  · have hreset : ∃ q₁, q.reset expired now = .ok q₁.armNext ∧ QueueInv q₁ [] :=
      reset_consumes (fun _ _ h => h) (fun _ _ _ _ h hok => h.resetOne hok) h
    obtain ⟨q₁, hok, -⟩ := hreset
    exact ⟨_, hok⟩

end fires

/-- **Timers fire as scheduled** in every run without `Cancel`, whatever the
    callbacks add and whenever `HandleRead` is called. -/
theorem fires_as_scheduled (s : TimerLoop) (hs : (timerSystem.restrict NoCancel).Reachable s) :
    FiresAsScheduled s := by
  have hweak : ∀ s l, NoCancel s l → CancelOk s l := by
    intro s l hl
    cases l with
    | cancel p seq => exact hl.elim
    | _ => trivial
  have h := schedInv_reachable s (LTS.System.reachable_restrict hweak hs)
  -- Without a cancellation in the log, a timer that is due is pending.
  obtain ⟨hcalled, hnone⟩ := noCancel_reachable s hs
  refine ⟨?_, ?_, hcalled, h.fired.accounted, ?_, ?_, ?_, ?_, ?_, ?_⟩
  · intro now start fired hmem
    obtain ⟨rfl, hinc⟩ := h.fired.handled now start fired hmem
    have hfired := hinc.filter (·.first ≤ now)
    refine ⟨rfl, hfired.imp fun hlt => ne_of_lt hlt, hfired.imp ?_⟩
    intro a b hlt
    rcases Entry.lt_iff.mp hlt with hless | ⟨heq, -⟩
    · exact hless.le
    · exact heq.le
  · intro b hb
    have hbatch := h.fired.batch b hb
    rw [hb, firing, hbatch.fired, hbatch.expired]
  · exact fun seq expiration period hadded => (h.legal.history hadded).1
  · exact fun seq expiration hadded => (h.legal.history hadded).1.one_shot
  · exact fun hidle seq expiration period hadded => h.held_iff hidle hnone hadded
  · exact fun e he e' he' => h.queue.eq_of_seqOf he he'
  · intro hidle e he
    obtain ⟨t, ht, -⟩ := h.queue.keys e (.inl he)
    have hpending := (h.pending_iff hidle t.sequence_ ⟨e.first, t.period⟩).mpr
      ⟨e, t, ht, rfl, rfl, he, rfl⟩
    obtain ⟨expiration, hadded⟩ := h.legal.added_of_pending hpending
    exact ⟨_, expiration, _, seqOf_eq_some.mpr ⟨t, ht, rfl⟩, hadded⟩
  · intro b hb
    have hinv := h.queue
    rw [TimerLoop.out_handling hb] at hinv
    obtain ⟨hrun, hreset⟩ := hinv.noFault b.now
    refine ⟨?_, hreset⟩
    intro it rest htodo
    apply hrun
    rw [← (h.fired.batch b hb).fired, htodo]
    exact List.mem_append_right _ List.mem_cons_self

/-- Two timers expire together; the callback of the first adds a timer that is due
    at once, and is left for the next `HandleRead`. -/
theorem fires_as_scheduled_nested :
    ∃ s : TimerLoop, s.queue.timers_.toList = [⟨110, 24⟩, ⟨170, 8⟩] ∧
      .handled 120 [⟨100, 8⟩, ⟨100, 16⟩] [⟨100, 8⟩, ⟨100, 16⟩] ∈ s.queue.log ∧
      FiresAsScheduled s := by
  have h0 : (timerSystem.restrict NoCancel).Reachable ⟨emptyQueue 90, none⟩ :=
    .start (emptyQueue_init 90)
  have h1 : (timerSystem.restrict NoCancel).Reachable ⟨_, none⟩ :=
    h0.next (.addTimer 8 100 50 true)
      ⟨trivial, rfl, by decide, by decide, TimerQueue.addTimer_eq _ _ _ _ _, rfl⟩
  have h2 : (timerSystem.restrict NoCancel).Reachable ⟨_, none⟩ :=
    h1.next (.addTimer 16 100 0 false)
      ⟨trivial, rfl, by decide, by decide, TimerQueue.addTimer_eq _ _ _ _ _, rfl⟩
  have h3 := h2.next (.tick 120) (by exact ⟨trivial, rfl⟩)
  have h4 := h3.next .handleRead (by exact ⟨trivial, rfl, rfl⟩)
  have h5 : (timerSystem.restrict NoCancel).Reachable ⟨_, some _⟩ :=
    h4.next .runTimer ⟨trivial, _, _, _, rfl, rfl, rfl, rfl⟩
  have h6 : (timerSystem.restrict NoCancel).Reachable ⟨_, some _⟩ :=
    h5.next (.addTimer 24 110 0 false)
      ⟨trivial, rfl, by decide, by decide, TimerQueue.addTimer_eq _ _ _ _ _, rfl⟩
  have h7 : (timerSystem.restrict NoCancel).Reachable ⟨_, some _⟩ :=
    h6.next .runTimer ⟨trivial, _, _, _, rfl, rfl, rfl, rfl⟩
  have h8 := h7.next .reset (by exact ⟨trivial, _, rfl, rfl, _, rfl, rfl⟩)
  exact ⟨_, rfl, by decide, fires_as_scheduled _ h8⟩

/-! ## `Cancel` -/

/-- **A cancelled timer neither runs nor is re-armed** in every run that cancels no
    timer of the batch under way, unless the timer has run and does not repeat. -/
theorem cancelled_stays_cancelled (s : TimerLoop)
    (hs : (timerSystem.restrict CancelOk).Reachable s) : s.queue.log.Pairwise Respects :=
  (schedInv_reachable s hs).legal.respects

theorem cancelOk_of_out {s : TimerLoop} {p seq : Nat} (h : ∀ e ∈ s.out, e.second ≠ p) :
    CancelOk s (.cancel p seq) := by
  intro b hb e he hsecond
  rw [TimerLoop.out_handling hb] at h
  exact absurd hsecond (h e he)

/-- A callback cancels a timer that is not due yet. -/
theorem cancelled_stays_cancelled_pending :
    ∃ s : TimerLoop, .cancelled 1 ∈ s.queue.log ∧ s.queue.timers_.toList = [⟨170, 8⟩] ∧
      s.queue.log.Pairwise Respects := by
  have h0 : (timerSystem.restrict CancelOk).Reachable ⟨emptyQueue 90, none⟩ :=
    .start (emptyQueue_init 90)
  have h1 : (timerSystem.restrict CancelOk).Reachable ⟨_, none⟩ :=
    h0.next (.addTimer 8 100 50 true)
      ⟨trivial, rfl, by decide, by decide, TimerQueue.addTimer_eq _ _ _ _ _, rfl⟩
  have h2 : (timerSystem.restrict CancelOk).Reachable ⟨_, none⟩ :=
    h1.next (.addTimer 16 130 0 false)
      ⟨trivial, rfl, by decide, by decide, TimerQueue.addTimer_eq _ _ _ _ _, rfl⟩
  have h3 := h2.next (.tick 120) (by exact ⟨trivial, rfl⟩)
  have h4 := h3.next .handleRead (by exact ⟨trivial, rfl, rfl⟩)
  have h5 : (timerSystem.restrict CancelOk).Reachable ⟨_, some _⟩ :=
    h4.next .runTimer ⟨trivial, _, _, _, rfl, rfl, rfl, rfl⟩
  have h6 : (timerSystem.restrict CancelOk).Reachable ⟨_, some _⟩ :=
    h5.next (.cancel 16 1) ⟨cancelOk_of_out (by decide), ⟨_, rfl, rfl⟩, rfl, rfl⟩
  have h7 := h6.next .reset (by exact ⟨trivial, _, rfl, rfl, _, rfl, rfl⟩)
  exact ⟨_, by decide, rfl, cancelled_stays_cancelled _ h7⟩

/-- Two timers expire together, and the callback of the first cancels the second,
    which runs all the same. -/
theorem cancelled_runs :
    ¬ ∀ s : TimerLoop, timerSystem.Reachable s → s.queue.log.Pairwise Respects := by
  intro hall
  have h0 : timerSystem.Reachable ⟨emptyQueue 90, none⟩ := .start (emptyQueue_init 90)
  have h1 : timerSystem.Reachable ⟨_, none⟩ := h0.next (.addTimer 8 100 0 false)
    ⟨rfl, by decide, by decide, TimerQueue.addTimer_eq _ _ _ _ _, rfl⟩
  have h2 : timerSystem.Reachable ⟨_, none⟩ := h1.next (.addTimer 16 100 0 false)
    ⟨rfl, by decide, by decide, TimerQueue.addTimer_eq _ _ _ _ _, rfl⟩
  have h3 := h2.next (.tick 120) (by exact rfl)
  have h4 := h3.next .handleRead (by exact ⟨rfl, rfl⟩)
  have h5 : timerSystem.Reachable ⟨_, some _⟩ :=
    h4.next .runTimer ⟨_, _, _, rfl, rfl, rfl, rfl⟩
  have h6 : timerSystem.Reachable ⟨_, some _⟩ :=
    h5.next (.cancel 16 1) ⟨⟨_, rfl, rfl⟩, rfl, rfl⟩
  have h7 : timerSystem.Reachable ⟨_, some _⟩ :=
    h6.next .runTimer ⟨_, _, _, rfl, rfl, rfl, rfl⟩
  have hlog : List.Pairwise Respects
      [.added 0 100 none, .added 1 100 none, .ran 0 ⟨100, 8⟩ 120, .cancelled 1,
        .ran 1 ⟨100, 16⟩ 120] := hall _ h7
  have hlast : Respects (.cancelled 1) (.ran 1 ⟨100, 16⟩ 120) := by
    simp only [List.pairwise_cons] at hlog
    exact hlog.2.2.2.1 _ List.mem_cons_self
  exact (hlast 1 rfl).1 _ _ rfl

end JNet
