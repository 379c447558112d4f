import JNet.Net.Buffer

/-! # Runs of buffers

    Any number of buffers, named by naturals and empty at first, worked on by
    any sequence of operations.  A second, abstract reading of the same
    operations treats every buffer as a plain queue of bytes; the buffers
    represent the queues exactly as long as no operation enters the case that
    `MakeRoom` leaves to the empty `MoveHead`.
-/

namespace JNet

open Memory

/-! ## Operations -/

/-- All buffers of a program. -/
abbrev Heap : Type := Nat → Buffer

inductive BufferOp where
  | append (i : Nat) (p : Bytes)
  | allocRoom (i len : Nat)
  | makeRoom (i len : Nat)
  | consume (i len : Nat)
  | absorb (i j : Nat)
  | clear (i : Nat)
  deriving DecidableEq, Repr

namespace BufferOp

/-- What the code does. -/
def exec (h : Heap) : BufferOp → Except Fault Heap
  | .append i p => do
    let s ← (h i).append (p.map some)
    return Function.update h i s
  | .allocRoom i len => do
    let (s, _) ← (h i).allocRoom len
    return Function.update h i s
  | .makeRoom i len => do
    let s ← (h i).makeRoom len
    return Function.update h i s
  | .consume i len => .ok (Function.update h i ((h i).consume len))
  | .absorb i j =>
    if i = j then .ok h
    else do
      let (s, b) ← (h i).absorb (h j)
      return Function.update (Function.update h i s) j b
  | .clear i => .ok (Function.update h i (h i).clear)

/-- What it is for: byte queues.  The room `AllocRoom` hands out belongs to the
    queue at once, as bytes its caller has still to write. -/
def spec (q : Nat → List Cell) : BufferOp → Nat → List Cell
  | .append i p => Function.update q i (q i ++ p.map some)
  | .allocRoom i len => Function.update q i (q i ++ List.replicate len none)
  | .makeRoom _ _ => q
  | .consume i len => Function.update q i ((q i).drop len)
  | .absorb i j =>
    if i = j then q else Function.update (Function.update q i (q i ++ q j)) j []
  | .clear i => Function.update q i []

/-- The arguments are `size_t` values, and no more is consumed than is there. -/
def Legal (h : Heap) : BufferOp → Prop
  | .append _ p => p.length < 2 ^ 64
  | .allocRoom _ len => len < 2 ^ 64
  | .makeRoom _ len => len < 2 ^ 64
  | .consume i len => len ≤ (h i).getSize
  | .absorb _ _ => True
  | .clear _ => True

/-- The operation asks for no room, or for room that `MakeRoom` provides. -/
def RoomOk (h : Heap) : BufferOp → Prop
  | .append i p => (h i).Fits p.length
  | .allocRoom i len => (h i).Fits len
  | .makeRoom i len => (h i).Fits len
  | .consume _ _ => True
  | .absorb i j => i ≠ j → (h i).getSize ≠ 0 → (h i).Fits (h j).getSize
  | .clear _ => True

end BufferOp

/-- The queues after a sequence of operations. -/
def queues (ops : List BufferOp) : Nat → List Cell := ops.foldl BufferOp.spec (fun _ => [])

theorem queues_snoc (ops : List BufferOp) (op : BufferOp) :
    queues (ops ++ [op]) = op.spec (queues ops) := by
  simp [queues]

/-- Run the operations from empty buffers. -/
def runBuffers (ops : List BufferOp) : Except Fault Heap :=
  LTS.run BufferOp.exec (fun _ => {}) ops

/-- The buffers after `ops` are what they should be: the indices are ordered and
    inside the allocation, a `MakeRoom` just made has made its room, and the
    contents are those of the queues. -/
structure Represents (ops : List BufferOp) (h : Heap) : Prop where
  bounds : ∀ i, (h i).b_ ≤ (h i).e_ ∧ (h i).e_ ≤ (h i).cap_ ∧ (h i).buf_.length = (h i).cap_
  room : ∀ i len, ops.getLast? = some (.makeRoom i len) → len ≤ (h i).cap_ - (h i).e_
  contents : ∀ i, (h i).contents = queues ops i

/-! ## One operation -/

/-- Replacing one buffer keeps well-formedness of all. -/
theorem wf_update {h : Heap} (hwf : ∀ i, (h i).WF) (i : Nat) {s : Buffer} (hs : s.WF) :
    ∀ k, (Function.update h i s k).WF := by
  intro k
  by_cases hk : k = i
  · subst hk; simpa using hs
  · simpa [hk] using hwf k

/-- Replacing one buffer replaces its contents and no others. -/
theorem contents_update {h : Heap} {q : Nat → List Cell} (hq : ∀ i, (h i).contents = q i)
    (i : Nat) {s : Buffer} {c : List Cell} (hs : s.contents = c) :
    ∀ k, (Function.update h i s k).contents = Function.update q i c k := by
  intro k
  by_cases hk : k = i
  · subst hk; simpa using hs
  · simpa [hk] using hq k

/-- With room, an operation does to the buffers what it does to the queues. -/
theorem exec_keeps {h : Heap} {ops : List BufferOp} {op : BufferOp} (hwf : ∀ i, (h i).WF)
    (hrep : Represents ops h) (hlegal : op.Legal h) (hroom : op.RoomOk h) :
    ∃ h', op.exec h = .ok h' ∧ (∀ i, (h' i).WF) ∧ Represents (ops ++ [op]) h' := by
  have hq := hrep.contents
  -- It is enough to follow well-formedness, the queues, and `MakeRoom`'s own promise.
  suffices hgoal : ∃ h', op.exec h = .ok h' ∧ (∀ i, (h' i).WF) ∧
      (∀ i, (h' i).contents = op.spec (queues ops) i) ∧
      ∀ i len, op = .makeRoom i len → (h' i).e_ + len ≤ (h' i).cap_ by
    obtain ⟨h', hexec, hwf', hcont, hmade⟩ := hgoal
    refine ⟨h', hexec, hwf', ⟨?_, ?_, ?_⟩⟩
    · intro i
      exact ⟨(hwf' i).b_le_e, (hwf' i).e_le_cap, (hwf' i).alloc⟩
    · intro i len hlast
      have := hmade i len (by simpa using hlast)
      omega
    · rw [queues_snoc]; exact hcont
  cases op with
  | append i p =>
    obtain ⟨s, hs, hswf, hscont⟩ := (hwf i).append (p := p.map some)
      (by rw [List.length_map]; exact hroom)
    refine ⟨Function.update h i s, ?_, wf_update hwf i hswf, ?_, nofun⟩
    · rw [BufferOp.exec, hs]; rfl
    · exact contents_update hq i (by rw [hscont, hq])
  | allocRoom i len =>
    obtain ⟨s, _, hs, hswf, _, _, hscont⟩ := (hwf i).allocRoom hroom
    refine ⟨Function.update h i s, ?_, wf_update hwf i hswf, ?_, nofun⟩
    · rw [BufferOp.exec, hs]; rfl
    · exact contents_update hq i (by rw [hscont, hq])
  | makeRoom i len =>
    obtain ⟨s, hs, hswf, hscont, hmade⟩ := (hwf i).makeRoom hroom
    refine ⟨Function.update h i s, ?_, wf_update hwf i hswf, ?_, ?_⟩
    · rw [BufferOp.exec, hs]; rfl
    · have := contents_update hq i (hscont.trans (hq i))
      simpa [BufferOp.spec] using this
    · rintro _ _ ⟨⟩
      simpa using hmade
  | consume i len =>
    obtain ⟨hswf, hscont⟩ := (hwf i).consume hlegal
    refine ⟨_, rfl, wf_update hwf i hswf, ?_, nofun⟩
    exact contents_update hq i (by rw [hscont, hq])
  | absorb i j =>
    by_cases hij : i = j
    · refine ⟨h, ?_, hwf, ?_, nofun⟩
      · rw [BufferOp.exec, if_pos hij]
      · simpa only [BufferOp.spec, if_pos hij] using hq
    · obtain ⟨s, b, hs, hswf, hbwf, hscont, hbcont⟩ := (hwf i).absorb (hwf j) (hroom hij)
      refine ⟨Function.update (Function.update h i s) j b, ?_,
        wf_update (wf_update hwf i hswf) j hbwf, ?_, nofun⟩
      · rw [BufferOp.exec, if_neg hij, hs]; rfl
      · have hboth : s.contents = queues ops i ++ queues ops j := by rw [hscont, hq, hq]
        have := contents_update (contents_update hq i hboth) j hbcont
        simpa only [BufferOp.spec, if_neg hij] using this
  | clear i =>
    exact ⟨_, rfl, wf_update hwf i (hwf i).clear, contents_update hq i rfl, nofun⟩

/-- Without room, no operation ends in buffers that represent the queues. -/
theorem exec_needs_room {h h' : Heap} {ops : List BufferOp} {op : BufferOp}
    (hwf : ∀ i, (h i).WF) (hrep : Represents ops h) (hlegal : op.Legal h)
    (hexec : op.exec h = .ok h') (hrep' : Represents (ops ++ [op]) h') : op.RoomOk h := by
  have hlen : ∀ i, (queues ops i).length = (h i).e_ - (h i).b_ := fun i => by
    rw [← hrep.contents, (hwf i).length_contents]
  cases op with
  | append i p =>
    by_contra hfit
    have := (hwf i).append_stuck (p := p.map some) (by rw [List.length_map]; exact hlegal)
      (by rw [List.length_map]; exact hfit)
    rw [BufferOp.exec, this] at hexec
    cases hexec
  | allocRoom i len =>
    by_contra hfit
    obtain ⟨s, room, hs, -, -, hbad⟩ := (hwf i).allocRoom_stuck hlegal hfit
    rw [BufferOp.exec, hs] at hexec
    obtain rfl : Function.update h i s = h' := Except.ok.inj hexec
    obtain ⟨hbe, hec, hal⟩ := hrep'.bounds i
    have hcont := congrArg List.length (hrep'.contents i)
    rw [queues_snoc] at hcont
    simp only [Function.update_self, BufferOp.spec, Buffer.contents, List.length_take,
      List.length_drop, List.length_append, List.length_replicate] at hcont hbe hec hal
    rw [hlen i] at hcont
    exact hbad ⟨hec, by omega⟩
  | makeRoom i len =>
    by_contra hfit
    obtain ⟨hs, hover⟩ := (hwf i).makeRoom_stuck hlegal hfit
    rw [BufferOp.exec, hs] at hexec
    obtain rfl : Function.update h i (h i) = h' := Except.ok.inj hexec
    have := hrep'.room i len (by simp)
    have := (hwf i).e_le_cap
    simp only [Function.update_self] at *
    omega
  | consume i len => trivial
  | absorb i j =>
    intro hij hzero
    by_contra hfit
    have := (hwf i).absorb_stuck (hwf j) hzero hfit
    rw [BufferOp.exec, if_neg hij, this] at hexec
    cases hexec
  | clear i => trivial

/-! ## Whole runs -/

/-- The buffers represent the queues after every operation of a run exactly
    when every operation of the run finds the room it asks for. -/
theorem runBuffers_represents_iff (ops : List BufferOp)
    (hlegal : ∀ n (hn : n < ops.length) h,
      runBuffers (ops.take n) = .ok h → ops[n].Legal h) :
    (∀ n, n ≤ ops.length →
      ∃ h, runBuffers (ops.take n) = .ok h ∧ Represents (ops.take n) h) ↔
    ∀ n (hn : n < ops.length) h,
      runBuffers (ops.take n) = .ok h → ops[n].RoomOk h := by
  apply LTS.run_exact Represents (fun ls h => (∀ i, (h i).WF) ∧ Represents ls h)
    (fun ls op => ∀ h, runBuffers ls = .ok h → op.RoomOk h)
  · refine ⟨fun _ => Buffer.WF.empty, ⟨fun _ => ⟨Nat.le_refl _, Nat.le_refl _, rfl⟩, nofun, ?_⟩⟩
    intro i; rfl
  · exact fun _ _ hinv => hinv.2
  · intro n hn h hrun hinv hcond
    exact exec_keeps hinv.1 hinv.2 (hlegal n hn h hrun) (hcond h hrun)
  · intro n hn h h' hrun hinv hexec hrep' h₂ hrun₂
    obtain rfl : h = h₂ := Except.ok.inj (hrun.symm.trans hrun₂)
    exact exec_needs_room hinv.1 hinv.2 (hlegal n hn h hrun) hexec hrep'

/-- What was evaluated of a run holds of the buffers it ends in. -/
theorem runBuffers_check {ops : List BufferOp} (p : Heap → Prop) [DecidablePred p]
    (hcheck : (runBuffers ops).map (fun h => decide (p h)) = .ok true) {h : Heap}
    (hrun : runBuffers ops = .ok h) : p h := by
  rw [hrun] at hcheck
  exact of_decide_eq_true (Except.ok.inj hcheck)

/-- A buffer takes over what is in another one, and there is room for all of it. -/
def handOver : List BufferOp :=
  [.append 0 [104, 105], .append 1 [106], .consume 0 1, .makeRoom 0 2, .absorb 0 1]

theorem index_handOver {n : Nat} (hn : n < handOver.length) :
    n = 0 ∨ n = 1 ∨ n = 2 ∨ n = 3 ∨ n = 4 := by
  have : n < 5 := hn
  omega

/-- `i` is left of the first buffer, and gets `j` from the other one. -/
theorem runBuffers_represents_handOver :
    ∃ h, runBuffers handOver = .ok h ∧ Represents handOver h ∧
      (h 0).contents = [some 105, some 106] ∧ (h 1).contents = [] := by
  have hlegal : ∀ n (hn : n < handOver.length) h, runBuffers (handOver.take n) = .ok h →
      handOver[n].Legal h := by
    intro n hn h hrun
    rcases index_handOver hn with rfl | rfl | rfl | rfl | rfl
    · show 2 < 2 ^ 64
      decide
    · show 1 < 2 ^ 64
      decide
    · exact runBuffers_check (fun h => 1 ≤ (h 0).getSize) (by decide +kernel) hrun
    · show 2 < 2 ^ 64
      decide
    · trivial
  have hroom : ∀ n (hn : n < handOver.length) h, runBuffers (handOver.take n) = .ok h →
      handOver[n].RoomOk h := by
    intro n hn h hrun
    rcases index_handOver hn with rfl | rfl | rfl | rfl | rfl
    · exact runBuffers_check (fun h => (h 0).Fits 2) (by decide +kernel) hrun
    · exact runBuffers_check (fun h => (h 1).Fits 1) (by decide +kernel) hrun
    · trivial
    · exact runBuffers_check (fun h => (h 0).Fits 2) (by decide +kernel) hrun
    · intro _ _
      exact runBuffers_check (fun h => (h 0).Fits (h 1).getSize) (by decide +kernel) hrun
  obtain ⟨h, hrun, hrep⟩ := (runBuffers_represents_iff handOver hlegal).mpr hroom 5 (Nat.le_refl 5)
  exact ⟨h, hrun, hrep, hrep.contents 0, hrep.contents 1⟩

/-! ## The case left to `MoveHead` -/

/-- Fill the first allocation, take all but one byte out, append one byte: the
    free regions in front and behind have 4095 bytes together, but the byte is
    stored behind the allocation. -/
def overrun : List BufferOp := [.allocRoom 0 4096, .consume 0 4095, .append 0 [65]]

/-- The buffers just before the append. -/
def beforeOverrun : Heap := Function.update (fun _ => {}) 0 (Buffer.allocated 4096 4095)

theorem runBuffers_overrun_one :
    runBuffers [.allocRoom 0 4096] =
      .ok (Function.update (fun _ => {}) 0 (Buffer.allocated 4096 0)) := by
  rw [runBuffers, LTS.run_cons, BufferOp.exec, Buffer.allocRoom_empty (by decide) (by decide)]
  rfl

theorem runBuffers_overrun_two :
    runBuffers [.allocRoom 0 4096, .consume 0 4095] = .ok beforeOverrun := by
  have hone := LTS.run_snoc_ok (l := BufferOp.consume 0 4095) runBuffers_overrun_one
  refine hone.trans ?_
  rw [BufferOp.exec, Function.update_self, Function.update_idem,
    Buffer.consume_allocated (by decide) (by decide)]
  rfl

theorem runBuffers_overrun : runBuffers overrun = .error .outOfBounds := by
  have htwo := LTS.run_snoc_ok (l := BufferOp.append 0 [65]) runBuffers_overrun_two
  refine htwo.trans ?_
  have hwf := Buffer.allocated_wf (show 4095 ≤ 4096 by decide) (show 4096 < 2 ^ 64 by decide)
  have hstuck := hwf.append_stuck (p := [some 65]) (by show 1 < 2 ^ 64; decide)
    (by show ¬ (4096 + 1 < 2 ^ 64 ∧ (4096 + 1 ≤ 4096 ∨ 4096 ≤ 4096 - 4095 + 1)); decide)
  rw [BufferOp.exec, beforeOverrun, Function.update_self]
  simp only [List.map_cons, List.map_nil]
  rw [hstuck]
  rfl

/-- Every operation of `overrun` is legal where it is made, and the run does not
    end in buffers at all. -/
theorem overrun_not_represented :
    (∀ n (hn : n < overrun.length) h,
      runBuffers (overrun.take n) = .ok h → overrun[n].Legal h) ∧
    ¬ ∀ n, n ≤ overrun.length →
      ∃ h, runBuffers (overrun.take n) = .ok h ∧ Represents (overrun.take n) h := by
  constructor
  · intro n hn h hrun
    have hcase : n = 0 ∨ n = 1 ∨ n = 2 := by
      have : n < 3 := hn
      omega
    rcases hcase with rfl | rfl | rfl
    · show 4096 < 2 ^ 64
      decide
    · obtain rfl := Except.ok.inj (runBuffers_overrun_one.symm.trans hrun)
      show 4095 ≤ (Buffer.allocated 4096 0).getSize
      rw [(Buffer.allocated_wf (Nat.zero_le _) (by decide)).getSize_eq]
      decide
    · show 1 < 2 ^ 64
      decide
  · intro hall
    obtain ⟨h, hrun, -⟩ := hall overrun.length (Nat.le_refl _)
    rw [List.take_length, runBuffers_overrun] at hrun
    cases hrun

end JNet
