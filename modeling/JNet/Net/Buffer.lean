import JNet.Lib.LTS
import JNet.Lib.Bytes
import JNet.Lib.Memory
import Mathlib.Logic.Function.Basic

/-! # `jnet::Buffer`

    The growable byte buffer of `net/buffer.h` and `net/buffer.cc`: one
    allocation of `cap_` bytes of which `[b_, e_)` is the contents.  The
    allocation is a list of cells, so that a store or a load outside it is a
    fault of the model and not a silent success; `size_t` arithmetic wraps.

    An allocation that fails throws `std::bad_alloc` before anything has
    changed; such a call does not return and is not a step here.
-/

namespace JNet

open Memory

/-! ## The class -/

structure Buffer where
  /-- The allocation `buf_` points to; empty for `nullptr`. -/
  buf_ : List Cell := []
  b_ : Nat := 0
  e_ : Nat := 0
  cap_ : Nat := 0
  exp_ : Nat := 4096
  extra_ : Int := 0
  deriving DecidableEq, Repr

namespace Buffer

def clear (s : Buffer) : Buffer := { s with buf_ := [], cap_ := 0, b_ := 0, e_ := 0 }

def getSize (s : Buffer) : Nat := sizeSub s.e_ s.b_

def addSize (s : Buffer) (len : Nat) : Buffer := { s with e_ := sizeT (s.e_ + len) }

/-- The declared compaction of the contents to the front has an empty body. -/
def moveHead (s : Buffer) : Buffer := s

def expand (s : Buffer) (len : Nat) : Except Fault Buffer := do
  let ncap := max s.exp_ (max (sizeT (2 * s.cap_)) (sizeT (s.getSize + len)))
  let live ← load s.buf_ s.b_ s.getSize
  let p ← store (List.replicate ncap none) 0 live
  return { s with buf_ := p, e_ := sizeSub s.e_ s.b_, b_ := 0, cap_ := ncap }

/-- `MakeRoom(len)`; the pointer it returns is `e_` of the new state. -/
def makeRoom (s : Buffer) (len : Nat) : Except Fault Buffer :=
  if sizeT (s.e_ + len) ≤ s.cap_ then .ok s
  else if sizeT (s.getSize + len) < s.cap_ then .ok s.moveHead
  else s.expand len

def getSpace (s : Buffer) : Nat := sizeSub s.cap_ s.e_

/-- `MakeRoom()`: a new allocation unless the suggested size is free behind `e_`. -/
def makeRoomSuggested (s : Buffer) : Except Fault Buffer :=
  if s.getSpace < s.exp_ then s.expand 0 else .ok s

/-- `AllocRoom(len)`, with the position of the room it hands out. -/
def allocRoom (s : Buffer) (len : Nat) : Except Fault (Buffer × Nat) := do
  let s ← s.makeRoom len
  return (s.addSize len, s.e_)

/-- `Append(p, len)`: `p` is the source range, itself memory. -/
def append (s : Buffer) (p : List Cell) : Except Fault Buffer := do
  let (s, room) ← s.allocRoom p.length
  let mem ← store s.buf_ room p
  return { s with buf_ := mem }

def consume (s : Buffer) (len : Nat) : Buffer :=
  let s := { s with b_ := sizeT (s.b_ + len) }
  if s.getSize = 0 then s.clear else s

/-- `Absorb(b)` for two different buffers, with what becomes of `b`. -/
def absorb (s b : Buffer) : Except Fault (Buffer × Buffer) :=
  if s.getSize = 0 then
    -- the two objects are swapped byte by byte, then `exp_` is swapped back
    .ok ({ b with exp_ := s.exp_ }, { s with exp_ := b.exp_ })
  else do
    let src ← load b.buf_ b.b_ b.getSize
    let s ← s.append src
    return (s, b.clear)

/-- The bytes `[b_, e_)`. -/
def contents (s : Buffer) : List Cell := (s.buf_.drop s.b_).take (s.e_ - s.b_)

/-! ## Well-formed buffers -/

/-- The representation invariant: `b_ <= e_ <= cap_`, the allocation has
    `cap_` bytes, and nothing has been stored behind `e_` yet. -/
structure WF (s : Buffer) : Prop where
  b_le_e : s.b_ ≤ s.e_
  e_le_cap : s.e_ ≤ s.cap_
  alloc : s.buf_.length = s.cap_
  cap_lt : s.cap_ < 2 ^ 64
  exp_lt : s.exp_ < 2 ^ 64
  fresh : s.buf_.drop s.e_ = List.replicate (s.cap_ - s.e_) none

/-- `MakeRoom(len)` finds or makes the room: no `size_t` overflow, and not the
    case that is left to `MoveHead`, where the free bytes in front of `b_` and
    behind `e_` together would do but those behind `e_` alone do not. -/
def Fits (s : Buffer) (len : Nat) : Prop :=
  s.e_ + len < 2 ^ 64 ∧ (s.e_ + len ≤ s.cap_ ∨ s.cap_ ≤ s.e_ - s.b_ + len)

instance (s : Buffer) (len : Nat) : Decidable (s.Fits len) :=
  inferInstanceAs (Decidable (_ ∧ _))

theorem WF.empty : WF {} where
  b_le_e := Nat.le_refl _
  e_le_cap := Nat.le_refl _
  alloc := rfl
  cap_lt := by decide
  exp_lt := by decide
  fresh := rfl

section spec

variable {s : Buffer} (h : s.WF)

include h

theorem WF.getSize_eq : s.getSize = s.e_ - s.b_ := by
  have h1 := h.e_le_cap
  have h2 := h.cap_lt
  exact sizeSub_of_le h.b_le_e (by omega)

theorem WF.length_contents : s.contents.length = s.e_ - s.b_ := by
  have := h.b_le_e
  have := h.e_le_cap
  have := h.alloc
  simp only [contents, List.length_take, List.length_drop]
  omega

theorem WF.load_contents : load s.buf_ s.b_ s.getSize = .ok s.contents := by
  have h1 := h.b_le_e
  have h2 := h.e_le_cap
  have h3 := h.alloc
  rw [h.getSize_eq, load, if_pos (by omega), contents]

theorem WF.clear : s.clear.WF where
  b_le_e := Nat.le_refl _
  e_le_cap := Nat.le_refl _
  alloc := rfl
  cap_lt := by simp [Buffer.clear]
  exp_lt := h.exp_lt
  fresh := rfl

/-- `Expand(len)` keeps the contents and ends with room for `len` bytes. -/
theorem WF.expand {len : Nat} (hlen : s.e_ + len < 2 ^ 64) :
    ∃ s', s.expand len = .ok s' ∧ s'.WF ∧ s'.contents = s.contents ∧ s'.e_ + len ≤ s'.cap_ := by
  have hb := h.b_le_e
  have hsize := h.getSize_eq
  have hcl := h.length_contents
  have hexp := h.exp_lt
  have hdbl := sizeT_lt (2 * s.cap_)
  have hadd : sizeT (s.getSize + len) = s.e_ - s.b_ + len := by
    rw [hsize]; exact sizeT_of_lt (by omega)
  let ncap := max s.exp_ (max (sizeT (2 * s.cap_)) (sizeT (s.getSize + len)))
  have hncap : s.e_ - s.b_ + len ≤ ncap := by omega
  have hncap' : ncap < 2 ^ 64 := by omega
  have hstore : store (List.replicate ncap none) 0 s.contents =
      .ok (s.contents ++ List.replicate (ncap - (s.e_ - s.b_)) none) := by
    rw [store, if_pos (by simp; omega)]
    simp [hcl]
  refine ⟨{ s with
    buf_ := s.contents ++ List.replicate (ncap - (s.e_ - s.b_)) none
    e_ := s.e_ - s.b_, b_ := 0, cap_ := ncap }, ?_, ⟨?_, ?_, ?_, ?_, ?_, ?_⟩, ?_, ?_⟩
  · have he : sizeSub s.e_ s.b_ = s.e_ - s.b_ := hsize
    unfold Buffer.expand
    rw [h.load_contents]
    show (store (List.replicate ncap none) 0 s.contents >>= fun p => _) = _
    rw [hstore, ← he]
    rfl
  · exact Nat.zero_le _
  · show s.e_ - s.b_ ≤ ncap; omega
  · simp [hcl]; omega
  · exact hncap'
  · exact hexp
  · simp [hcl]
  · exact List.take_left' hcl
  · exact hncap

/-- `MakeRoom(len)` where it finds or makes the room. -/
theorem WF.makeRoom {len : Nat} (hfit : s.Fits len) :
    ∃ s', s.makeRoom len = .ok s' ∧ s'.WF ∧ s'.contents = s.contents ∧ s'.e_ + len ≤ s'.cap_ := by
  obtain ⟨hlt, hroom⟩ := hfit
  have hsize := h.getSize_eq
  have hb := h.b_le_e
  by_cases hin : s.e_ + len ≤ s.cap_
  · -- the room is there already
    refine ⟨s, ?_, h, rfl, hin⟩
    rw [Buffer.makeRoom, if_pos (by rwa [sizeT_of_lt hlt])]
  · -- not enough free cells on both sides together: a new allocation
    rw [Buffer.makeRoom, sizeT_of_lt hlt, if_neg hin, hsize, sizeT_of_lt (by omega),
      if_neg (by omega)]
    exact h.expand hlt

/-- Where it does not, `MakeRoom(len)` returns without having done anything. -/
theorem WF.makeRoom_stuck {len : Nat} (hlen : len < 2 ^ 64) (hfit : ¬ s.Fits len) :
    s.makeRoom len = .ok s ∧ s.cap_ < s.e_ + len := by
  have hsize := h.getSize_eq
  have hb := h.b_le_e
  have he := h.e_le_cap
  have hcap := h.cap_lt
  unfold Fits at hfit
  refine ⟨?_, by omega⟩
  rw [Buffer.makeRoom, hsize]
  by_cases hlt : s.e_ + len < 2 ^ 64
  · -- the free cells in front would do, and `MoveHead` is asked to use them
    rw [if_neg (by rw [sizeT_of_lt hlt]; omega), if_pos (by rw [sizeT_of_lt] <;> omega)]
    rfl
  · -- the sum wraps to something below `e_`, so the first test succeeds
    have hwrap : sizeT (s.e_ + len) = s.e_ + len - 2 ^ 64 := by unfold sizeT; omega
    rw [if_pos (by rw [hwrap]; omega)]

/-- `AllocRoom(len)` reserves `len` bytes behind the contents. -/
theorem WF.allocRoom {len : Nat} (hfit : s.Fits len) :
    ∃ s' room, s.allocRoom len = .ok (s', room) ∧ s'.WF ∧ room + len = s'.e_ ∧
      s'.b_ ≤ room ∧ s'.contents = s.contents ++ List.replicate len none := by
  obtain ⟨t, ht, hwf, hcont, hroom⟩ := h.makeRoom hfit
  have hb := hwf.b_le_e
  have hcap := hwf.cap_lt
  have halloc := hwf.alloc
  have hadd : sizeT (t.e_ + len) = t.e_ + len := sizeT_of_lt (by omega)
  -- the cells behind `e_` are still untouched, so the room is uninitialised
  have hfresh : (t.buf_.drop t.e_).take len = List.replicate len none := by
    rw [hwf.fresh, List.take_replicate, Nat.min_eq_left (by omega)]
  refine ⟨{ t with e_ := t.e_ + len }, t.e_, ?_, ⟨?_, ?_, ?_, ?_, ?_, ?_⟩, rfl, hb, ?_⟩
  · simp only [Buffer.allocRoom, ht, addSize, bind, Except.bind, hadd]
    rfl
  · show t.b_ ≤ t.e_ + len; omega
  · exact hroom
  · exact halloc
  · exact hcap
  · exact hwf.exp_lt
  · show t.buf_.drop (t.e_ + len) = List.replicate (t.cap_ - (t.e_ + len)) none
    rw [← List.drop_drop, hwf.fresh, List.drop_replicate, Nat.sub_sub]
  · show (t.buf_.drop t.b_).take (t.e_ + len - t.b_) = _
    rw [show t.e_ + len - t.b_ = (t.e_ - t.b_) + len by omega, List.take_add, List.drop_drop,
      show t.b_ + (t.e_ - t.b_) = t.e_ by omega, hfresh, ← hcont]
    rfl

/-- Cells stored at `e_` and counted in are queued behind the contents. -/
theorem WF.fill {p : List Cell} (hroom : s.e_ + p.length ≤ s.cap_) :
    ∃ mem, store s.buf_ s.e_ p = .ok mem ∧
      ({ s with buf_ := mem, e_ := s.e_ + p.length } : Buffer).WF ∧
      ({ s with buf_ := mem, e_ := s.e_ + p.length } : Buffer).contents = s.contents ++ p := by
  have hb := h.b_le_e
  have halloc := h.alloc
  have hmem : (s.buf_.take s.e_ ++ p ++ s.buf_.drop (s.e_ + p.length)).length = s.cap_ := by
    simp only [List.length_append, List.length_take, List.length_drop]; omega
  have hfront : (s.buf_.take s.e_ ++ p).length = s.e_ + p.length := by
    simp only [List.length_append, List.length_take]; omega
  refine ⟨s.buf_.take s.e_ ++ p ++ s.buf_.drop (s.e_ + p.length), ?_,
    ⟨?_, hroom, hmem, h.cap_lt, h.exp_lt, ?_⟩, ?_⟩
  · rw [store, if_pos (by omega)]
  · show s.b_ ≤ s.e_ + p.length; omega
  · -- what is behind the new `e_` has not been touched
    show (s.buf_.take s.e_ ++ p ++ s.buf_.drop (s.e_ + p.length)).drop (s.e_ + p.length) =
      List.replicate (s.cap_ - (s.e_ + p.length)) none
    rw [List.drop_left' hfront, ← List.drop_drop, h.fresh, List.drop_replicate, Nat.sub_sub]
  · -- the store leaves `[b_, e_)` alone, which holds the old contents
    show ((s.buf_.take s.e_ ++ p ++ s.buf_.drop (s.e_ + p.length)).drop s.b_).take
      (s.e_ + p.length - s.b_) = s.contents ++ p
    have hfits : s.b_ ≤ (s.buf_.take s.e_).length := by
      rw [List.length_take]; omega
    have hold : (s.buf_.take s.e_).drop s.b_ = s.contents := by
      rw [List.drop_take, contents]
    rw [List.append_assoc, List.drop_append_of_le_length hfits, hold, ← List.append_assoc]
    apply List.take_left'
    rw [List.length_append, h.length_contents]
    omega

/-- `Append(p, len)` queues the source range behind the contents. -/
theorem WF.append {p : List Cell} (hfit : s.Fits p.length) :
    ∃ s', s.append p = .ok s' ∧ s'.WF ∧ s'.contents = s.contents ++ p := by
  obtain ⟨t, ht, hwf, hcont, hroom⟩ := h.makeRoom hfit
  obtain ⟨mem, hstore, hwf', hcont'⟩ := hwf.fill hroom
  have hcap := hwf.cap_lt
  have hadd : sizeT (t.e_ + p.length) = t.e_ + p.length := sizeT_of_lt (by omega)
  refine ⟨_, ?_, hwf', by rw [hcont', hcont]⟩
  simp only [Buffer.append, Buffer.allocRoom, ht, addSize, bind, Except.bind, pure, Except.pure,
    hadd, hstore]

/-- The allocation `Expand(len)` makes. -/
theorem WF.expand_cap {s' : Buffer} {len : Nat} (hexp : s.expand len = .ok s') :
    s'.cap_ = max s.exp_ (max (sizeT (2 * s.cap_)) (sizeT (s.getSize + len))) ∧
      s'.e_ = s.e_ - s.b_ ∧ s'.exp_ = s.exp_ := by
  have hsize : sizeSub s.e_ s.b_ = s.e_ - s.b_ := h.getSize_eq
  unfold Buffer.expand at hexp
  rw [h.load_contents] at hexp
  simp only [bind, Except.bind] at hexp
  split at hexp
  · cases hexp
  · cases hexp
    exact ⟨rfl, hsize, rfl⟩

/-- `MakeRoom()` keeps the contents and leaves at least one byte of room: a new
    allocation is twice as large as the old one, or has the suggested size. -/
theorem WF.makeRoomSuggested (hexp : 0 < s.exp_) (hcap : s.cap_ < 2 ^ 63) :
    ∃ s', s.makeRoomSuggested = .ok s' ∧ s'.WF ∧ s'.contents = s.contents ∧
      s'.exp_ = s.exp_ ∧ s'.cap_ ≤ max s.exp_ (2 * s.cap_) ∧ 1 ≤ s'.getSpace := by
  have hb := h.b_le_e
  have he := h.e_le_cap
  unfold Buffer.makeRoomSuggested
  by_cases hspace : s.getSpace < s.exp_
  · rw [if_pos hspace]
    have hlen : s.e_ + 0 < 2 ^ 64 := by omega
    obtain ⟨s', hs', hwf, hcont, -⟩ := h.expand hlen
    obtain ⟨hncap, hnewe, hsame⟩ := h.expand_cap hs'
    have htwice : sizeT (2 * s.cap_) = 2 * s.cap_ := sizeT_of_lt (by omega)
    have hlive : sizeT (s.getSize + 0) = s.e_ - s.b_ := by
      rw [h.getSize_eq]; exact sizeT_of_lt (by omega)
    rw [htwice, hlive] at hncap
    refine ⟨s', hs', hwf, hcont, hsame, by omega, ?_⟩
    rw [getSpace, sizeSub_of_le hwf.e_le_cap hwf.cap_lt]
    omega
  · rw [if_neg hspace]
    exact ⟨s, rfl, h, rfl, rfl, by omega, by omega⟩

/-- Without room, `AllocRoom(len)` does not leave `len` more bytes of contents
    inside the allocation. -/
theorem WF.allocRoom_stuck {len : Nat} (hlen : len < 2 ^ 64) (hfit : ¬ s.Fits len) :
    ∃ s' room, s.allocRoom len = .ok (s', room) ∧ room = s.e_ ∧ s'.buf_ = s.buf_ ∧
      ¬ (s'.e_ ≤ s'.cap_ ∧ s'.e_ - s'.b_ = s.e_ - s.b_ + len) := by
  obtain ⟨hroom, hover⟩ := h.makeRoom_stuck hlen hfit
  have hb := h.b_le_e
  have he := h.e_le_cap
  have hcap := h.cap_lt
  refine ⟨s.addSize len, s.e_, ?_, rfl, rfl, ?_⟩
  · simp only [Buffer.allocRoom, hroom, bind, Except.bind]
    rfl
  · show ¬ (sizeT (s.e_ + len) ≤ s.cap_ ∧ sizeT (s.e_ + len) - s.b_ = s.e_ - s.b_ + len)
    unfold sizeT
    omega

/-- Without room, `Append` stores outside the allocation. -/
theorem WF.append_stuck {p : List Cell} (hlen : p.length < 2 ^ 64) (hfit : ¬ s.Fits p.length) :
    s.append p = .error .outOfBounds := by
  obtain ⟨t, room, ht, rfl, hbuf, -⟩ := h.allocRoom_stuck hlen hfit
  have hover := (h.makeRoom_stuck hlen hfit).2
  have halloc := h.alloc
  simp only [Buffer.append, ht, bind, Except.bind]
  rw [hbuf, store, if_neg (by omega)]

/-- `Consume(len)` drops a prefix of the contents. -/
theorem WF.consume {len : Nat} (hlen : len ≤ s.getSize) :
    (s.consume len).WF ∧ (s.consume len).contents = s.contents.drop len := by
  rw [h.getSize_eq] at hlen
  have hb := h.b_le_e
  have he := h.e_le_cap
  have hcap := h.cap_lt
  have hadd : sizeT (s.b_ + len) = s.b_ + len := sizeT_of_lt (by omega)
  have hwf : ({ s with b_ := s.b_ + len } : Buffer).WF :=
    ⟨by show s.b_ + len ≤ s.e_; omega, he, h.alloc, hcap, h.exp_lt, h.fresh⟩
  have hcont : ({ s with b_ := s.b_ + len } : Buffer).contents = s.contents.drop len := by
    rw [contents, contents, List.drop_take, List.drop_drop, Nat.sub_sub]
  simp only [Buffer.consume, hadd]
  split
  · next hzero =>
    -- everything is consumed, and `Clear` gives the allocation back
    rw [hwf.getSize_eq] at hzero
    refine ⟨hwf.clear, ?_⟩
    rw [← hcont]
    symm
    apply List.eq_nil_of_length_eq_zero
    rw [hwf.length_contents]
    exact hzero
  · exact ⟨hwf, hcont⟩

omit h in
/-- `Consume(len)` keeps the suggested size, and no larger allocation. -/
theorem consume_cap (s : Buffer) (len : Nat) :
    (s.consume len).exp_ = s.exp_ ∧ (s.consume len).cap_ ≤ s.cap_ := by
  by_cases hzero : ({ s with b_ := sizeT (s.b_ + len) } : Buffer).getSize = 0
  · rw [Buffer.consume, if_pos hzero]
    simp [Buffer.clear]
  · rw [Buffer.consume, if_neg hzero]
    simp

/-- A change of the suggested size alone. -/
theorem WF.set_exp {n : Nat} (hn : n < 2 ^ 64) : ({ s with exp_ := n } : Buffer).WF :=
  ⟨h.b_le_e, h.e_le_cap, h.alloc, h.cap_lt, hn, h.fresh⟩

/-- `Absorb(b)` moves the contents of `b` behind its own. -/
theorem WF.absorb {b : Buffer} (hb : b.WF)
    (hfit : s.getSize ≠ 0 → s.Fits b.getSize) :
    ∃ s' b', s.absorb b = .ok (s', b') ∧ s'.WF ∧ b'.WF ∧
      s'.contents = s.contents ++ b.contents ∧ b'.contents = [] := by
  by_cases hzero : s.getSize = 0
  · have hnil : s.contents = [] := by
      apply List.eq_nil_of_length_eq_zero
      rw [h.length_contents, ← h.getSize_eq, hzero]
    refine ⟨{ b with exp_ := s.exp_ }, { s with exp_ := b.exp_ }, ?_,
      hb.set_exp h.exp_lt, h.set_exp hb.exp_lt, ?_, hnil⟩
    · rw [Buffer.absorb, if_pos hzero]
    · rw [hnil]; rfl
  · have hlen : b.contents.length = b.getSize := by
      rw [hb.length_contents, hb.getSize_eq]
    obtain ⟨s', hs', hwf, hcont⟩ := h.append (p := b.contents) (by rw [hlen]; exact hfit hzero)
    refine ⟨s', b.clear, ?_, hwf, hb.clear, hcont, rfl⟩
    rw [Buffer.absorb, if_neg hzero, hb.load_contents]
    simp only [bind, Except.bind, hs']
    rfl

/-- The bytes of a well-formed buffer, copied to the same place of an allocation of
    the same size. -/
theorem WF.copy :
    ∃ mem, store (List.replicate s.cap_ none) s.b_ s.contents = .ok mem ∧
      ({ s with buf_ := mem } : Buffer).WF ∧
      ({ s with buf_ := mem } : Buffer).contents = s.contents := by
  have hb := h.b_le_e
  have he := h.e_le_cap
  have hlen := h.length_contents
  have hmem : store (List.replicate s.cap_ none) s.b_ s.contents =
      .ok (List.replicate s.b_ none ++ s.contents ++ List.replicate (s.cap_ - s.e_) none) := by
    rw [store, if_pos (by rw [List.length_replicate]; omega), List.take_replicate,
      List.drop_replicate]
    congr 3 <;> congr 1 <;> omega
  refine ⟨_, hmem, ⟨hb, he, ?_, h.cap_lt, h.exp_lt, ?_⟩, ?_⟩
  · simp only [List.length_append, List.length_replicate]
    omega
  · apply List.drop_left'
    simp only [List.length_append, List.length_replicate]
    omega
  · show ((List.replicate s.b_ none ++ s.contents ++ List.replicate (s.cap_ - s.e_) none).drop
      s.b_).take (s.e_ - s.b_) = s.contents
    rw [List.append_assoc, List.drop_left' List.length_replicate]
    exact List.take_left' hlen

/-- Without room for what it takes over, `Absorb(b)` stores outside the allocation. -/
theorem WF.absorb_stuck {b : Buffer} (hb : b.WF) (hzero : s.getSize ≠ 0)
    (hfit : ¬ s.Fits b.getSize) : s.absorb b = .error .outOfBounds := by
  have hlen : b.contents.length = b.getSize := by
    rw [hb.length_contents, hb.getSize_eq]
  have hlt : b.contents.length < 2 ^ 64 := by rw [hlen]; exact sizeT_lt _
  rw [Buffer.absorb, if_neg hzero, hb.load_contents]
  simp only [bind, Except.bind]
  rw [h.append_stuck hlt (by rwa [hlen])]

end spec

/-! ## A first allocation -/

/-- The first `MakeRoom` allocates the suggested size or what is asked for. -/
theorem makeRoom_empty {n c : Nat} (h0 : 0 < n) (h2 : n < 2 ^ 64) (hc : c = max 4096 n) :
    ({} : Buffer).makeRoom n = .ok { buf_ := List.replicate c none, cap_ := c } := by
  have hn : sizeT n = n := sizeT_of_lt h2
  have hsize : ({} : Buffer).getSize = 0 := WF.empty.getSize_eq
  have hexp : ({} : Buffer).expand n = .ok { buf_ := List.replicate c none, cap_ := c } := by
    have hcap : max 4096 (max (sizeT (2 * 0)) (sizeT (0 + n))) = c := by
      rw [Nat.zero_add, hn]; simp [sizeT]; omega
    simp only [expand, hsize, hcap, load, store]
    simp [bind, Except.bind, pure, Except.pure, sizeSub, sizeT]
  rw [makeRoom, hsize, Nat.zero_add, hn, if_neg (by simp; omega), if_neg (by simp), hexp]

/-- `Append` to an empty buffer. -/
theorem append_empty {p : List Cell} {c : Nat} (h0 : 0 < p.length) (h2 : p.length < 2 ^ 64)
    (hc : c = max 4096 p.length) :
    ({} : Buffer).append p =
      .ok { buf_ := p ++ List.replicate (c - p.length) none, e_ := p.length, cap_ := c } := by
  have hn : sizeT (0 + p.length) = p.length := by rw [Nat.zero_add, sizeT_of_lt h2]
  have hstore : store (List.replicate c none) 0 p =
      .ok (p ++ List.replicate (c - p.length) none) := by
    rw [store, if_pos (by rw [List.length_replicate]; omega)]
    simp
  rw [append, allocRoom, makeRoom_empty h0 h2 hc]
  simp only [bind, Except.bind, pure, Except.pure, addSize, hn, hstore]

/-- An empty buffer after `AllocRoom(n)` for an `n` above the suggested size,
    and `Consume(k)` of the first `k` bytes. -/
def allocated (n k : Nat) : Buffer :=
  { buf_ := List.replicate n none, b_ := k, e_ := n, cap_ := n }

theorem allocRoom_empty {n : Nat} (h1 : 4096 ≤ n) (h2 : n < 2 ^ 64) :
    ({} : Buffer).allocRoom n = .ok (allocated n 0, 0) := by
  have hn : sizeT n = n := sizeT_of_lt h2
  rw [allocRoom, makeRoom_empty (c := n) (by omega) h2 (by omega)]
  simp only [bind, Except.bind, pure, Except.pure, addSize, Nat.zero_add, hn]
  rfl

theorem allocated_wf {n k : Nat} (hk : k ≤ n) (hn : n < 2 ^ 64) : (allocated n k).WF where
  b_le_e := hk
  e_le_cap := Nat.le_refl n
  alloc := List.length_replicate
  cap_lt := hn
  exp_lt := by show 4096 < 2 ^ 64; decide
  fresh := by simp [allocated]

theorem consume_allocated {n k : Nat} (hk : k < n) (hn : n < 2 ^ 64) :
    (allocated n 0).consume k = allocated n k := by
  have hadd : sizeT (0 + k) = k := by rw [Nat.zero_add]; exact sizeT_of_lt (by omega)
  have hsize : (allocated n k).getSize = n - k := (allocated_wf hk.le hn).getSize_eq
  simp only [consume, allocated, hadd] at hsize ⊢
  rw [if_neg (by rw [hsize]; omega)]

end Buffer

end JNet
