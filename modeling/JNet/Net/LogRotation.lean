import JNet.Lib.LTS
import Mathlib.Algebra.Order.Ring.Int
import Mathlib.Data.List.Nodup
import Mathlib.Logic.Function.Basic

/-! # Rotating the log

    Every `Write` calls `MaybeRotate` (`net/log.cc`) first.  The first thread to do so
    in a new interval is to rename the file: `lastRotate_` keeps the others out once
    it is stored, and of those that have passed it the exchange of `realRotate_` lets
    one through.

    `lastRotate_` is read and written without a lock; its accesses are single steps
    here.  A name has been set.  `calls` and `rotations` record when `MaybeRotate` and
    `rename` were called; they are written by the system's steps, which say what a thread
    does, and no branch of `MaybeRotate` reads them.
-/

namespace JNet

/-! ## State and steps -/

/-- The parts of the configuration that decide where an interval begins. -/
structure RotateConfig where
  timezone : Int
  rotateInterval_ : Int
  positive : 0 < rotateInterval_

/-- The interval of a time; the quotient of `long` rounds towards zero. -/
def RotateConfig.interval (cfg : RotateConfig) (t : Int) : Int :=
  (t - cfg.timezone).tdiv cfg.rotateInterval_

/-- Where a thread is in `MaybeRotate`, with its local variables. -/
inductive RotatePc where
  | outside
  /-- The time is taken; before the first comparison. -/
  | check (now : Int)
  /-- Before `lastRotate_ = now`. -/
  | store (now : Int)
  /-- Before `realRotate_.exchange(now)`. -/
  | exchange (now : Int)
  /-- Before the second comparison. -/
  | compare (now old : Int)
  /-- Before `rename`. -/
  | rename (now : Int)
  deriving DecidableEq, Repr

structure LogRotation where
  /-- What `time` returns. -/
  clock : Int
  lastRotate_ : Int
  realRotate_ : Int
  pc : Nat → RotatePc
  /-- When `MaybeRotate` has been called. -/
  calls : List Int
  /-- When `rename` has been called. -/
  rotations : List Int

inductive RotateLabel where
  | tick (now : Int)
  | enter (i : Nat)
  | check (i : Nat)
  | store (i : Nat)
  | exchange (i : Nat)
  | compare (i : Nat)
  | rename (i : Nat)

namespace LogRotation

def goto (s : LogRotation) (i : Nat) (pc : RotatePc) : LogRotation :=
  { s with pc := Function.update s.pc i pc }

@[simp] theorem goto_self (s : LogRotation) (i : Nat) (pc : RotatePc) :
    (s.goto i pc).pc i = pc := by
  simp [goto]

theorem goto_of_ne (s : LogRotation) {i j : Nat} (hj : j ≠ i) (pc : RotatePc) :
    (s.goto i pc).pc j = s.pc j := by
  simp [goto, hj]

/-- What all threads but one have, and that one where it is put, all have. -/
theorem goto_forall {s : LogRotation} {i : Nat} {pc : RotatePc} {P : Nat → RotatePc → Prop}
    (hi : P i pc) (hother : ∀ j, j ≠ i → P j (s.pc j)) : ∀ j, P j ((s.goto i pc).pc j) := by
  intro j
  by_cases hj : j = i
  · rw [hj, goto_self]
    exact hi
  · rw [goto_of_ne s hj]
    exact hother j hj

end LogRotation

/-- Any number of threads, and the time. -/
def rotationSystem (cfg : RotateConfig) (created : Int) : LTS.System LogRotation RotateLabel where
  init := fun s =>
    s = { clock := created, lastRotate_ := created, realRotate_ := created,
          pc := fun _ => .outside, calls := [], rotations := [] }
  step := fun s l s' =>
    match l with
    | .tick now => s.clock ≤ now ∧ s' = { s with clock := now }
    | .enter i =>
        s.pc i = .outside ∧
        s' = { s.goto i (.check s.clock) with calls := s.calls ++ [s.clock] }
    | .check i => ∃ now, s.pc i = .check now ∧
        s' = s.goto i
          (if cfg.interval now = cfg.interval s.lastRotate_ then .outside else .store now)
    | .store i => ∃ now, s.pc i = .store now ∧
        s' = { s.goto i (.exchange now) with lastRotate_ := now }
    | .exchange i => ∃ now, s.pc i = .exchange now ∧
        s' = { s.goto i (.compare now s.realRotate_) with realRotate_ := now }
    | .compare i => ∃ now old, s.pc i = .compare now old ∧
        s' = s.goto i
          (if cfg.interval old = cfg.interval s.lastRotate_ then .outside else .rename now)
    | .rename i => ∃ now, s.pc i = .rename now ∧
        s' = { s.goto i .outside with rotations := s.rotations ++ [s.clock] }

/-- No thread is in `MaybeRotate` when a new interval begins. -/
def RotateConfig.Prompt (cfg : RotateConfig) (s : LogRotation) : RotateLabel → Prop
  | .tick now => cfg.interval now = cfg.interval s.clock ∨ ∀ i, s.pc i = .outside
  | _ => True

/-! ## The invariant -/

namespace RotatePc

/-- The time a thread has taken. -/
def now? : RotatePc → Option Int
  | .outside => none
  | .check now => some now
  | .store now => some now
  | .exchange now => some now
  | .compare now _ => some now
  | .rename now => some now

/-- The thread has not yet seen or stored a time of its own interval. -/
def Undecided : RotatePc → Prop
  | .check _ => True
  | .store _ => True
  | _ => False

/-- The thread has stored `lastRotate_`, and its comparison is still to come. -/
def stored : RotatePc → Bool
  | .exchange _ => true
  | .compare _ _ => true
  | _ => false

/-- The thread has exchanged `realRotate_`. -/
def exchanged : RotatePc → Bool
  | .compare _ _ => true
  | .rename _ => true
  | _ => false

/-- The thread is going to rename the file in interval `k`. -/
def Claims (cfg : RotateConfig) (k : Int) : RotatePc → Prop
  | .compare _ old => cfg.interval old ≠ k
  | .rename _ => True
  | _ => False

theorem Claims.exchanged {cfg : RotateConfig} {k : Int} {pc : RotatePc} (h : Claims cfg k pc) :
    pc.exchanged = true := by
  cases pc with
  | outside => exact h.elim
  | check now => exact h.elim
  | store now => exact h.elim
  | exchange now => exact h.elim
  | compare now old => rfl
  | rename now => rfl

end RotatePc

open RotatePc

/-- What is known in interval `k`. -/
structure RotationInv (cfg : RotateConfig) (created : Int) (s : LogRotation) (k : Int) : Prop where
  current : cfg.interval s.clock = k
  held : ∀ i now, (s.pc i).now? = some now → cfg.interval now = k
  lastLe : cfg.interval s.lastRotate_ ≤ k
  realLe : cfg.interval s.realRotate_ ≤ k
  past : ∀ r ∈ s.rotations, cfg.interval r ≤ k
  nodup : (s.rotations.map cfg.interval).Nodup
  last : ∀ i, (s.pc i).stored = true → cfg.interval s.lastRotate_ = k
  /-- Until someone exchanges, nobody rotates. -/
  fresh : cfg.interval s.realRotate_ ≠ k →
    (∀ r ∈ s.rotations, cfg.interval r ≠ k) ∧ ∀ i, (s.pc i).exchanged = false
  unique : ∀ i j, Claims cfg k (s.pc i) → Claims cfg k (s.pc j) → i = j
  unclaimed : ∀ i, Claims cfg k (s.pc i) → ∀ r ∈ s.rotations, cfg.interval r ≠ k
  /-- Whoever has exchanged first claims the interval. -/
  winner : cfg.interval s.realRotate_ = k →
    k = cfg.interval created ∨ (∃ r ∈ s.rotations, cfg.interval r = k) ∨
      ∃ i, Claims cfg k (s.pc i)
  /-- Whoever has stored the time first is going to exchange. -/
  pending : cfg.interval s.lastRotate_ = k →
    cfg.interval s.realRotate_ = k ∨ ∃ i now, s.pc i = .exchange now
  callsLe : ∀ t ∈ s.calls, cfg.interval t ≤ k
  /-- As soon as one caller of the interval has decided, `lastRotate_` lies in it. -/
  called : (∃ t ∈ s.calls, cfg.interval t = k) →
    cfg.interval s.lastRotate_ = k ∨ ∃ i, (s.pc i).Undecided
  /-- The intervals before this one in which someone called. -/
  settled : ∀ t ∈ s.calls, cfg.interval t ≠ k →
    cfg.interval t = cfg.interval created ∨ ∃ r ∈ s.rotations, cfg.interval r = cfg.interval t

namespace RotationInv

variable {cfg : RotateConfig} {created : Int} {s : LogRotation} {k : Int}

theorem initial {s : LogRotation} (h : (rotationSystem cfg created).init s) :
    RotationInv cfg created s (cfg.interval created) := by
  obtain rfl := h
  constructor
  · rfl
  · intro i now hnow
    cases hnow
  · exact le_refl _
  · exact le_refl _
  · intro r hr
    cases hr
  · exact List.nodup_nil
  · intro i _
    rfl
  · intro hne
    exact absurd rfl hne
  · intro i j hi
    exact hi.elim
  · intro i hi
    exact hi.elim
  · intro _
    exact .inl rfl
  · intro _
    exact .inl rfl
  · intro t ht
    cases ht
  · intro _
    exact .inl rfl
  · intro t ht
    cases ht

/-- Intervals follow each other as the times do. -/
theorem interval_mono (cfg : RotateConfig) {t t' : Int} (h : t ≤ t') :
    cfg.interval t ≤ cfg.interval t' :=
  Int.tdiv_le_tdiv cfg.positive (Int.sub_le_sub_right h _)

/-- Once all who have called in the interval are through, the file has been renamed. -/
theorem renamed (h : RotationInv cfg created s k) (houtside : ∀ i, s.pc i = .outside)
    (hcalled : ∃ t ∈ s.calls, cfg.interval t = k) :
    k = cfg.interval created ∨ ∃ r ∈ s.rotations, cfg.interval r = k := by
  have hlast : cfg.interval s.lastRotate_ = k := by
    rcases h.called hcalled with hlast | ⟨i, hi⟩
    · exact hlast
    · rw [houtside i] at hi
      exact hi.elim
  have hreal : cfg.interval s.realRotate_ = k := by
    rcases h.pending hlast with hreal | ⟨i, now, hi⟩
    · exact hreal
    · rw [houtside i] at hi
      cases hi
  rcases h.winner hreal with hfirst | hdone | ⟨i, hi⟩
  · exact .inl hfirst
  · exact .inr hdone
  · rw [houtside i] at hi
    exact hi.elim

/-- The clock goes on. -/
theorem tick (h : RotationInv cfg created s k) {now : Int} (hle : s.clock ≤ now)
    (hprompt : cfg.Prompt s (.tick now)) :
    RotationInv cfg created { s with clock := now } (cfg.interval now) := by
  by_cases hsame : cfg.interval now = k
  · rw [hsame]
    exact ⟨hsame, h.held, h.lastLe, h.realLe, h.past, h.nodup, h.last, h.fresh, h.unique,
      h.unclaimed, h.winner, h.pending, h.callsLe, h.called, h.settled⟩
  · -- A new interval: nobody is in `MaybeRotate`, and the one before it is settled.
    have houtside : ∀ i, s.pc i = .outside := by
      rcases hprompt with heq | hout
      · exact absurd (heq.trans h.current) hsame
      · exact hout
    have hlt : k < cfg.interval now := by
      have hmono := interval_mono cfg hle
      rw [h.current] at hmono
      exact lt_of_le_of_ne hmono (Ne.symm hsame)
    constructor
    · rfl
    · intro i t ht
      rw [show (s.pc i) = .outside from houtside i] at ht
      cases ht
    · exact le_trans h.lastLe hlt.le
    · exact le_trans h.realLe hlt.le
    · intro r hr
      exact le_trans (h.past r hr) hlt.le
    · exact h.nodup
    · intro i hi
      rw [show (s.pc i) = .outside from houtside i] at hi
      cases hi
    · intro _
      refine ⟨fun r hr => (lt_of_le_of_lt (h.past r hr) hlt).ne, ?_⟩
      intro i
      rw [show (s.pc i) = .outside from houtside i]
      rfl
    · intro i j hi
      rw [show (s.pc i) = .outside from houtside i] at hi
      exact hi.elim
    · intro i hi
      rw [show (s.pc i) = .outside from houtside i] at hi
      exact hi.elim
    · intro heq
      exact absurd heq (lt_of_le_of_lt h.realLe hlt).ne
    · intro heq
      exact absurd heq (lt_of_le_of_lt h.lastLe hlt).ne
    · intro t ht
      exact le_trans (h.callsLe t ht) hlt.le
    · rintro ⟨t, ht, heq⟩
      exact absurd heq (lt_of_le_of_lt (h.callsLe t ht) hlt).ne
    · intro t ht _
      by_cases hk : cfg.interval t = k
      · rw [hk]
        exact h.renamed houtside ⟨t, ht, hk⟩
      · exact h.settled t ht hk

section steps

variable {i : Nat}

/-- The time a thread takes lies in the current interval, and moving the thread keeps it. -/
theorem held_goto (h : RotationInv cfg created s k) {pc : RotatePc}
    (hpc : ∀ now, pc.now? = some now → cfg.interval now = k) :
    ∀ j now, ((s.goto i pc).pc j).now? = some now → cfg.interval now = k :=
  LogRotation.goto_forall (P := fun _ pc => ∀ now, pc.now? = some now → cfg.interval now = k) hpc
    fun j _ => h.held j

/-- Claims of a thread that was moved to where it claims nothing. -/
theorem claims_goto {pc : RotatePc} (hpc : ¬ Claims cfg k pc) {j : Nat}
    (hj : Claims cfg k ((s.goto i pc).pc j)) : j ≠ i ∧ Claims cfg k (s.pc j) := by
  by_cases heq : j = i
  · rw [heq, LogRotation.goto_self] at hj
    exact absurd hj hpc
  · rw [LogRotation.goto_of_ne s heq] at hj
    exact ⟨heq, hj⟩

/-- Moving a thread that is not at a place of this kind leaves who is there. -/
theorem stay {pc : RotatePc} (P : RotatePc → Prop) (hi : ¬ P (s.pc i))
    (h : ∃ j, P (s.pc j)) : ∃ j, P ((s.goto i pc).pc j) := by
  obtain ⟨j, hj⟩ := h
  have hne : j ≠ i := by
    intro heq
    rw [heq] at hj
    exact hi hj
  exact ⟨j, by rw [LogRotation.goto_of_ne s hne]; exact hj⟩

/-- Whoever is to rename the file is still there when another thread has moved. -/
theorem winner_goto (h : RotationInv cfg created s k) {pc : RotatePc}
    (hi : ¬ Claims cfg k (s.pc i)) (hreal : cfg.interval s.realRotate_ = k) :
    k = cfg.interval created ∨ (∃ r ∈ s.rotations, cfg.interval r = k) ∨
      ∃ j, Claims cfg k ((s.goto i pc).pc j) := by
  rcases h.winner hreal with hfirst | hdone | hclaim
  · exact .inl hfirst
  · exact .inr (.inl hdone)
  · exact .inr (.inr (stay (Claims cfg k) hi hclaim))

/-- So is whoever is going to exchange. -/
theorem pending_goto (h : RotationInv cfg created s k) {pc : RotatePc}
    (hi : ¬ ∃ now, s.pc i = .exchange now) (hlast : cfg.interval s.lastRotate_ = k) :
    cfg.interval s.realRotate_ = k ∨ ∃ j now, (s.goto i pc).pc j = .exchange now := by
  rcases h.pending hlast with hreal | hexchange
  · exact .inl hreal
  · exact .inr (stay (fun pc => ∃ now, pc = .exchange now) hi hexchange)

theorem enter (h : RotationInv cfg created s k) (hpc : s.pc i = .outside) :
    RotationInv cfg created
      { s.goto i (.check s.clock) with calls := s.calls ++ [s.clock] } k := by
  constructor
  · exact h.current
  · apply h.held_goto
    intro now hnow
    cases hnow
    exact h.current
  · exact h.lastLe
  · exact h.realLe
  · exact h.past
  · exact h.nodup
  · exact LogRotation.goto_forall (P := fun _ pc => pc.stored = true → _) nofun
      fun j _ => h.last j
  · intro hne
    exact ⟨(h.fresh hne).1, LogRotation.goto_forall (P := fun _ pc => pc.exchanged = false) rfl
      fun j _ => (h.fresh hne).2 j⟩
  · intro j j' hj hj'
    exact h.unique j j' (claims_goto id hj).2 (claims_goto id hj').2
  · intro j hj
    exact h.unclaimed j (claims_goto id hj).2
  · exact h.winner_goto (by rw [hpc]; exact id)
  · exact h.pending_goto (by simp [hpc])
  · intro t ht
    rcases List.mem_append.mp ht with hold | hnew
    · exact h.callsLe t hold
    · rw [List.mem_singleton.mp hnew, h.current]
  · -- The new caller has not compared anything yet.
    intro _
    refine .inr ⟨i, ?_⟩
    rw [show ({ s.goto i (.check s.clock) with calls := s.calls ++ [s.clock] } :
      LogRotation).pc i = .check s.clock from LogRotation.goto_self s i _]
    trivial
  · intro t ht hne
    rcases List.mem_append.mp ht with hold | hnew
    · exact h.settled t hold hne
    · rw [List.mem_singleton.mp hnew] at hne
      exact absurd h.current hne

/-- The first comparison: whoever leaves has seen a time of the interval. -/
theorem check (h : RotationInv cfg created s k) {now : Int} (hpc : s.pc i = .check now) :
    RotationInv cfg created (s.goto i
      (if cfg.interval now = cfg.interval s.lastRotate_ then .outside else .store now)) k := by
  have hnow : cfg.interval now = k := h.held i now (by rw [hpc]; rfl)
  rw [hnow]
  -- Neither of the two places it may go to is one that claims or has stored.
  have hclaim : ¬ Claims cfg k (if k = cfg.interval s.lastRotate_ then .outside
      else .store now) := by
    split <;> exact id
  have hmoved : ¬ (if k = cfg.interval s.lastRotate_ then .outside
      else .store now : RotatePc).stored = true := by
    split <;> exact Bool.false_ne_true
  constructor
  · exact h.current
  · apply h.held_goto
    intro t ht
    split at ht
    · cases ht
    · cases ht
      exact hnow
  · exact h.lastLe
  · exact h.realLe
  · exact h.past
  · exact h.nodup
  · exact LogRotation.goto_forall (P := fun _ pc => pc.stored = true → _)
      (fun hstored => absurd hstored hmoved) fun j _ => h.last j
  · intro hne
    refine ⟨(h.fresh hne).1, LogRotation.goto_forall (P := fun _ pc => pc.exchanged = false) ?_
      fun j _ => (h.fresh hne).2 j⟩
    split <;> rfl
  · intro j j' hj hj'
    exact h.unique j j' (claims_goto hclaim hj).2 (claims_goto hclaim hj').2
  · intro j hj
    exact h.unclaimed j (claims_goto hclaim hj).2
  · exact h.winner_goto (by rw [hpc]; exact id)
  · exact h.pending_goto (by simp [hpc])
  · exact h.callsLe
  · -- It leaves only because `lastRotate_` is in the interval.
    intro _
    by_cases hlast : k = cfg.interval s.lastRotate_
    · exact .inl hlast.symm
    · refine .inr ⟨i, ?_⟩
      rw [LogRotation.goto_self, if_neg hlast]
      trivial
  · exact h.settled

theorem store (h : RotationInv cfg created s k) {now : Int} (hpc : s.pc i = .store now) :
    RotationInv cfg created { s.goto i (.exchange now) with lastRotate_ := now } k := by
  have hnow : cfg.interval now = k := h.held i now (by rw [hpc]; rfl)
  constructor
  · exact h.current
  · apply h.held_goto
    intro t ht
    cases ht
    exact hnow
  · exact hnow.le
  · exact h.realLe
  · exact h.past
  · exact h.nodup
  · exact fun _ _ => hnow
  · intro hne
    exact ⟨(h.fresh hne).1, LogRotation.goto_forall (P := fun _ pc => pc.exchanged = false) rfl
      fun j _ => (h.fresh hne).2 j⟩
  · intro j j' hj hj'
    exact h.unique j j' (claims_goto id hj).2 (claims_goto id hj').2
  · intro j hj
    exact h.unclaimed j (claims_goto id hj).2
  · exact h.winner_goto (by rw [hpc]; exact id)
  · intro _
    exact .inr ⟨i, now, LogRotation.goto_self s i _⟩
  · exact h.callsLe
  · exact fun _ => .inl hnow
  · exact h.settled

theorem exchange (h : RotationInv cfg created s k) {now : Int} (hpc : s.pc i = .exchange now) :
    RotationInv cfg created
      { s.goto i (.compare now s.realRotate_) with realRotate_ := now } k := by
  have hnow : cfg.interval now = k := h.held i now (by rw [hpc]; rfl)
  have hlast : cfg.interval s.lastRotate_ = k := h.last i (by rw [hpc]; rfl)
  have hnot : ¬ Claims cfg k (s.pc i) := by
    rw [hpc]
    exact id
  -- A thread other than this one that claims has exchanged before.
  have hother : cfg.interval s.realRotate_ ≠ k → ∀ j, j ≠ i →
      ¬ Claims cfg k ((s.goto i (.compare now s.realRotate_)).pc j) := by
    intro hne j hj hclaim
    rw [LogRotation.goto_of_ne s hj] at hclaim
    have hex := hclaim.exchanged
    rw [(h.fresh hne).2 j] at hex
    cases hex
  constructor
  · exact h.current
  · apply h.held_goto
    intro t ht
    cases ht
    exact hnow
  · exact h.lastLe
  · exact hnow.le
  · exact h.past
  · exact h.nodup
  · exact fun _ _ => hlast
  · intro hne
    exact absurd hnow hne
  · intro j j' hj hj'
    by_cases hreal : cfg.interval s.realRotate_ = k
    · have hold : ¬ Claims cfg k (.compare now s.realRotate_) := fun hne => hne hreal
      exact h.unique j j' (claims_goto hold hj).2 (claims_goto hold hj').2
    · have heq : j = i := by
        by_contra hne
        exact hother hreal j hne hj
      have heq' : j' = i := by
        by_contra hne
        exact hother hreal j' hne hj'
      rw [heq, heq']
  · intro j hj
    by_cases hreal : cfg.interval s.realRotate_ = k
    · have hold : ¬ Claims cfg k (.compare now s.realRotate_) := fun hne => hne hreal
      exact h.unclaimed j (claims_goto hold hj).2
    · exact (h.fresh hreal).1
  · intro _
    by_cases hreal : cfg.interval s.realRotate_ = k
    · exact h.winner_goto hnot hreal
    · -- The value exchanged was one of an earlier interval: this thread will rename.
      refine .inr (.inr ⟨i, ?_⟩)
      rw [show ({ s.goto i (.compare now s.realRotate_) with realRotate_ := now } :
        LogRotation).pc i = .compare now s.realRotate_ from LogRotation.goto_self s i _]
      exact hreal
  · intro _
    exact .inl hnow
  · exact h.callsLe
  · exact fun _ => .inl hlast
  · exact h.settled

theorem compare (h : RotationInv cfg created s k) {now old : Int}
    (hpc : s.pc i = .compare now old) :
    RotationInv cfg created (s.goto i
      (if cfg.interval old = cfg.interval s.lastRotate_ then .outside else .rename now)) k := by
  have hnow : cfg.interval now = k := h.held i now (by rw [hpc]; rfl)
  have hlast : cfg.interval s.lastRotate_ = k := h.last i (by rw [hpc]; rfl)
  have hreal : cfg.interval s.realRotate_ = k := by
    by_contra hne
    have hex := (h.fresh hne).2 i
    rw [hpc] at hex
    cases hex
  rw [hlast]
  -- Where the thread goes, it claims what it claimed before.
  have hsame : Claims cfg k (if cfg.interval old = k then .outside else .rename now) ↔
      Claims cfg k (s.pc i) := by
    rw [hpc]
    split
    · next heq => exact ⟨False.elim, fun hne => hne heq⟩
    · next hne => exact ⟨fun _ => hne, fun _ => trivial⟩
  have hclaims : ∀ j, Claims cfg k ((s.goto i
      (if cfg.interval old = k then .outside else .rename now)).pc j) ↔ Claims cfg k (s.pc j) := by
    intro j
    by_cases hj : j = i
    · rw [hj, LogRotation.goto_self]
      exact hsame
    · rw [LogRotation.goto_of_ne s hj]
  constructor
  · exact h.current
  · apply h.held_goto
    intro t ht
    split at ht
    · cases ht
    · cases ht
      exact hnow
  · exact h.lastLe
  · exact h.realLe
  · exact h.past
  · exact h.nodup
  · exact fun _ _ => hlast
  · intro hne
    exact absurd hreal hne
  · intro j j' hj hj'
    exact h.unique j j' ((hclaims j).mp hj) ((hclaims j').mp hj')
  · intro j hj
    exact h.unclaimed j ((hclaims j).mp hj)
  · intro _
    rcases h.winner hreal with hfirst | hdone | ⟨j, hj⟩
    · exact .inl hfirst
    · exact .inr (.inl hdone)
    · exact .inr (.inr ⟨j, (hclaims j).mpr hj⟩)
  · intro _
    exact .inl hreal
  · exact h.callsLe
  · exact fun _ => .inl hlast
  · exact h.settled

theorem rename (h : RotationInv cfg created s k) {now : Int} (hpc : s.pc i = .rename now) :
    RotationInv cfg created
      { s.goto i .outside with rotations := s.rotations ++ [s.clock] } k := by
  have hclaim : Claims cfg k (s.pc i) := by
    rw [hpc]
    trivial
  have hreal : cfg.interval s.realRotate_ = k := by
    by_contra hne
    have hex := (h.fresh hne).2 i
    rw [hpc] at hex
    cases hex
  -- The only thread that claimed the interval has left.
  have hnone : ∀ j, ¬ Claims cfg k ((s.goto i .outside).pc j) := by
    intro j hj
    obtain ⟨hne, hold⟩ := claims_goto (show ¬ Claims cfg k .outside from id) hj
    exact hne (h.unique j i hold hclaim)
  constructor
  · exact h.current
  · apply h.held_goto
    intro t ht
    cases ht
  · exact h.lastLe
  · exact h.realLe
  · intro r hr
    rcases List.mem_append.mp hr with hold | hnew
    · exact h.past r hold
    · rw [List.mem_singleton.mp hnew, h.current]
  · show ((s.rotations ++ [s.clock]).map cfg.interval).Nodup
    rw [List.map_append, List.nodup_append]
    refine ⟨h.nodup, List.nodup_singleton _, ?_⟩
    intro a ha b hb
    obtain ⟨r, hr, rfl⟩ := List.mem_map.mp ha
    rw [List.map_singleton, List.mem_singleton] at hb
    rw [hb, h.current]
    exact h.unclaimed i hclaim r hr
  · intro j hj
    by_cases heq : j = i
    · rw [heq, show ({ s.goto i .outside with rotations := s.rotations ++ [s.clock] } :
        LogRotation).pc i = .outside from LogRotation.goto_self s i _] at hj
      cases hj
    · apply h.last j
      rw [← LogRotation.goto_of_ne s heq .outside]
      exact hj
  · intro hne
    exact absurd hreal hne
  · intro j j' hj
    exact absurd hj (hnone j)
  · intro j hj
    exact absurd hj (hnone j)
  · intro _
    exact .inr (.inl ⟨s.clock, List.mem_append_right _ (List.mem_singleton_self _), h.current⟩)
  · intro _
    exact .inl hreal
  · exact h.callsLe
  · intro hcalled
    rcases h.called hcalled with hlast | hundecided
    · exact .inl hlast
    · exact .inr (stay Undecided (by rw [hpc]; exact id) hundecided)
  · intro t ht hne
    rcases h.settled t ht hne with hfirst | ⟨r, hr, heq⟩
    · exact .inl hfirst
    · exact .inr ⟨r, List.mem_append_left _ hr, heq⟩

end steps

end RotationInv

theorem rotationInv_reachable {cfg : RotateConfig} {created : Int} {s : LogRotation}
    (hs : ((rotationSystem cfg created).restrict cfg.Prompt).Reachable s) :
    RotationInv cfg created s (cfg.interval s.clock) := by
  refine LTS.System.invariant
    (P := fun s => RotationInv cfg created s (cfg.interval s.clock)) ?_ ?_ s hs
  · intro s hinit
    have h : RotationInv cfg created s (cfg.interval created) := .initial hinit
    rw [h.current]
    exact h
  · intro s l s' h hstep
    obtain ⟨hprompt, hstep⟩ := hstep
    cases l with
    | tick now =>
      obtain ⟨hle, rfl⟩ := hstep
      exact h.tick hle hprompt
    | enter i =>
      obtain ⟨hpc, rfl⟩ := hstep
      exact h.enter hpc
    | check i =>
      obtain ⟨now, hpc, rfl⟩ := hstep
      exact h.check hpc
    | store i =>
      obtain ⟨now, hpc, rfl⟩ := hstep
      exact h.store hpc
    | exchange i =>
      obtain ⟨now, hpc, rfl⟩ := hstep
      exact h.exchange hpc
    | compare i =>
      obtain ⟨now, old, hpc, rfl⟩ := hstep
      exact h.compare hpc
    | rename i =>
      obtain ⟨now, hpc, rfl⟩ := hstep
      exact h.rename hpc

/-- **Rotation**: for any number of threads, if none is in `MaybeRotate` when a new
    interval begins, then no interval sees the file renamed twice, no two threads are about
    to rename it, and in every interval but the first in which `MaybeRotate` has been called
    the file has been renamed once the callers are through. -/
theorem logger_rotates_once (cfg : RotateConfig) (created : Int) (s : LogRotation)
    (hs : ((rotationSystem cfg created).restrict cfg.Prompt).Reachable s) :
    (s.rotations.map cfg.interval).Nodup ∧
    (∀ i j now now', s.pc i = .rename now → s.pc j = .rename now' → i = j) ∧
    (∀ t ∈ s.calls, cfg.interval t ≠ cfg.interval created →
      (cfg.interval t = cfg.interval s.clock → ∀ i, s.pc i = .outside) →
      cfg.interval t ∈ s.rotations.map cfg.interval) := by
  have h := rotationInv_reachable hs
  refine ⟨h.nodup, ?_, ?_⟩
  · intro i j now now' hi hj
    apply h.unique
    · rw [hi]
      trivial
    · rw [hj]
      trivial
  · intro t ht hlater hthrough
    have hdone : cfg.interval t = cfg.interval created ∨
        ∃ r ∈ s.rotations, cfg.interval r = cfg.interval t := by
      by_cases hnow : cfg.interval t = cfg.interval s.clock
      · rw [hnow]
        exact h.renamed (hthrough hnow) ⟨t, ht, hnow⟩
      · exact h.settled t ht hnow
    rcases hdone with hfirst | hrenamed
    · exact absurd hfirst hlater
    · exact List.mem_map.mpr hrenamed

/-- Days of ten seconds. -/
def tenSeconds : RotateConfig := ⟨0, 10, by decide⟩

/-- Two threads meet in a new interval; one of them renames the file, and a third call finds
    that done. -/
theorem logger_rotates_once_race :
    ∃ s, ((rotationSystem tenSeconds 5).restrict tenSeconds.Prompt).Reachable s ∧
      s.calls = [15, 15, 16] ∧ s.rotations = [15] ∧
      (s.rotations.map tenSeconds.interval).Nodup ∧
      tenSeconds.interval 16 ∈ s.rotations.map tenSeconds.interval := by
  have h0 : ((rotationSystem tenSeconds 5).restrict tenSeconds.Prompt).Reachable
      ⟨5, 5, 5, fun _ => .outside, [], []⟩ := .start rfl
  have h1 := h0.next (RotateLabel.tick 15) ⟨.inr fun _ => rfl, by decide, rfl⟩
  have h2 := h1.next (RotateLabel.enter 0) ⟨trivial, rfl, rfl⟩
  have h3 := h2.next (RotateLabel.enter 1) ⟨trivial, rfl, rfl⟩
  have h4 := h3.next (RotateLabel.check 0) ⟨trivial, 15, rfl, rfl⟩
  have h5 := h4.next (RotateLabel.check 1) ⟨trivial, 15, rfl, rfl⟩
  have h6 := h5.next (RotateLabel.store 0) ⟨trivial, 15, rfl, rfl⟩
  have h7 := h6.next (RotateLabel.store 1) ⟨trivial, 15, rfl, rfl⟩
  have h8 := h7.next (RotateLabel.exchange 1) ⟨trivial, 15, rfl, rfl⟩
  have h9 := h8.next (RotateLabel.exchange 0) ⟨trivial, 15, rfl, rfl⟩
  have h10 := h9.next (RotateLabel.compare 0) ⟨trivial, 15, 15, rfl, rfl⟩
  have h11 := h10.next (RotateLabel.compare 1) ⟨trivial, 15, 5, rfl, rfl⟩
  have h12 := h11.next (RotateLabel.rename 1) ⟨trivial, 15, rfl, rfl⟩
  have h13 := h12.next (RotateLabel.tick 16) ⟨.inl (by decide), by decide, rfl⟩
  have h14 := h13.next (RotateLabel.enter 0) ⟨trivial, rfl, rfl⟩
  have h15 := h14.next (RotateLabel.check 0) ⟨trivial, 16, rfl, rfl⟩
  obtain ⟨hnodup, -, hrenamed⟩ := logger_rotates_once tenSeconds 5 _ h15
  refine ⟨_, h15, rfl, rfl, hnodup, hrenamed 16 (by decide) (by decide) ?_⟩
  -- The two threads have come back, and no other one has called.
  intro _ i
  by_cases h0 : i = 0
  · subst h0
    rfl
  · by_cases h1 : i = 1
    · subst h1
      rfl
    · simp [LogRotation.goto, Function.update, h0, h1]

/-- A thread that was held up since the interval before renames the file once more. -/
theorem logger_rotates_twice :
    ∃ s, (rotationSystem tenSeconds 5).Reachable s ∧
      ¬ (s.rotations.map tenSeconds.interval).Nodup := by
  have h0 : (rotationSystem tenSeconds 5).Reachable
      ⟨5, 5, 5, fun _ => .outside, [], []⟩ := .start rfl
  have h1 := h0.next (RotateLabel.tick 15) ⟨by decide, rfl⟩
  have h2 := h1.next (RotateLabel.enter 0) ⟨rfl, rfl⟩
  have h3 := h2.next (RotateLabel.check 0) ⟨15, rfl, rfl⟩
  have h4 := h3.next (RotateLabel.tick 25) ⟨by decide, rfl⟩
  have h5 := h4.next (RotateLabel.enter 1) ⟨rfl, rfl⟩
  have h6 := h5.next (RotateLabel.check 1) ⟨25, rfl, rfl⟩
  have h7 := h6.next (RotateLabel.store 1) ⟨25, rfl, rfl⟩
  have h8 := h7.next (RotateLabel.exchange 1) ⟨25, rfl, rfl⟩
  have h9 := h8.next (RotateLabel.compare 1) ⟨25, 5, rfl, rfl⟩
  have h10 := h9.next (RotateLabel.rename 1) ⟨25, rfl, rfl⟩
  have h11 := h10.next (RotateLabel.store 0) ⟨15, rfl, rfl⟩
  have h12 := h11.next (RotateLabel.exchange 0) ⟨15, rfl, rfl⟩
  have h13 := h12.next (RotateLabel.compare 0) ⟨15, 25, rfl, rfl⟩
  have h14 := h13.next (RotateLabel.rename 0) ⟨15, rfl, rfl⟩
  refine ⟨_, h14, ?_⟩
  show ¬ [tenSeconds.interval 25, tenSeconds.interval 25].Nodup
  simp

end JNet
