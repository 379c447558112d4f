import Mathlib.Data.List.Basic
import Mathlib.Logic.Equiv.Basic
import Mathlib.Logic.Function.Basic

/-! # Handles whose numbers are used again

    An allocator gives out numbers and may give a number again as soon as it has
    been closed.  Whoever holds a number means one acquisition of it, while a
    `close` names the number alone.  `Table` records, for each `close`, which
    acquisition was meant and which one had the number.

    `Ledger` says that every acquisition is either held by exactly one holder or
    was closed exactly once, and that every `close` found what was meant.
-/

namespace Handles

universe u v

/-- A number, and the acquisition of it that is meant. -/
structure Handle (Num : Type u) where
  num : Num
  gen : Nat
  deriving DecidableEq, Repr

structure CloseCall (Num : Type u) where
  handle : Handle Num
  /-- The acquisition that had the number. -/
  found : Option Nat
  deriving DecidableEq, Repr

structure Table (Num : Type u) where
  owner : Num → Option Nat
  /-- The acquisitions so far. -/
  fresh : Nat
  closes : List (CloseCall Num)

namespace Table

variable {Num : Type u} [DecidableEq Num]

def empty : Table Num := { owner := fun _ => none, fresh := 0, closes := [] }

/-- The handle that the next acquisition of `n` gives. -/
def next (t : Table Num) (n : Num) : Handle Num := ⟨n, t.fresh⟩

def acquire (t : Table Num) (n : Num) : Table Num :=
  { t with owner := Function.update t.owner n (some t.fresh), fresh := t.fresh + 1 }

/-- The number is free afterwards, whoever had it. -/
def close (t : Table Num) (h : Handle Num) : Table Num :=
  { t with
    owner := Function.update t.owner h.num none
    closes := t.closes ++ [⟨h, t.owner h.num⟩] }

/-- `close` of what a slot holds, if it holds anything. -/
def release (t : Table Num) : Option (Handle Num) → Table Num
  | none => t
  | some h => t.close h

def Open (t : Table Num) (h : Handle Num) : Prop := t.owner h.num = some h.gen

/-- How often acquisition `g` was closed by those who meant it. -/
def count (t : Table Num) (g : Nat) : Nat := t.closes.countP (·.handle.gen = g)

/-- A `close` did not find what was meant. -/
def Bad (t : Table Num) : Prop := ∃ c ∈ t.closes, c.found ≠ some c.handle.gen

/-- The acquisition is over. -/
def Stale (t : Table Num) (h : Handle Num) : Prop := h.gen < t.fresh ∧ ¬ t.Open h

variable {t : Table Num} {h h' : Handle Num} {n : Num}

/-! ## What is over stays over -/

theorem Stale.acquire (hstale : t.Stale h) : (t.acquire n).Stale h := by
  obtain ⟨hlt, hclosed⟩ := hstale
  refine ⟨Nat.lt_succ_of_lt hlt, ?_⟩
  unfold Open Table.acquire
  dsimp only
  by_cases hnum : h.num = n
  · rw [hnum, Function.update_self]
    intro heq
    exact absurd (Option.some.inj heq) (by omega)
  · rwa [Function.update_of_ne hnum]

theorem Stale.close (hstale : t.Stale h) : (t.close h').Stale h := by
  obtain ⟨hlt, hclosed⟩ := hstale
  refine ⟨hlt, ?_⟩
  unfold Open Table.close
  dsimp only
  by_cases hnum : h.num = h'.num
  · rw [hnum, Function.update_self]
    intro heq
    cases heq
  · rwa [Function.update_of_ne hnum]

/-- A `close` ends the acquisition that is meant. -/
theorem stale_close (hlt : h.gen < t.fresh) : (t.close h).Stale h := by
  refine ⟨hlt, ?_⟩
  unfold Open Table.close
  dsimp only
  rw [Function.update_self]
  intro heq
  cases heq

theorem Bad.close (hbad : t.Bad) : (t.close h).Bad := by
  obtain ⟨c, hc, hfound⟩ := hbad
  exact ⟨c, List.mem_append_left _ hc, hfound⟩

/-- A second `close` finds nothing, or something else. -/
theorem Stale.bad_close (hstale : t.Stale h) : (t.close h).Bad :=
  ⟨⟨h, t.owner h.num⟩, List.mem_append_right _ (List.mem_singleton.mpr rfl), hstale.2⟩

theorem count_close (t : Table Num) (h : Handle Num) (g : Nat) :
    (t.close h).count g = t.count g + if h.gen = g then 1 else 0 := by
  simp [count, close, List.countP_append, List.countP_singleton]

/-- Another number may be acquired before or after a `close`. -/
theorem acquire_close_comm (hne : h.num ≠ n) :
    (t.acquire n).close h = (t.close h).acquire n := by
  simp only [acquire, close, Function.update_of_ne hne]
  rw [Function.update_comm hne]

end Table

/-! ## The ledger -/

variable {Num : Type u} {Holder : Type v}

/-- `who` says who holds each acquisition, and none for those that were closed. -/
structure Accounted (t : Table Num) (holds : Holder → Handle Num → Prop)
    (who : Nat → Option Holder) : Prop where
  holder : ∀ x h, holds x h → h.gen < t.fresh ∧ who h.gen = some x ∧ t.Open h
  held : ∀ g < t.fresh, ∀ x, who g = some x → t.count g = 0 ∧ ∃ n, holds x ⟨n, g⟩
  closed : ∀ g < t.fresh, who g = none → t.count g = 1
  own : ∀ c ∈ t.closes, c.found = some c.handle.gen
  gens : ∀ c ∈ t.closes, c.handle.gen < t.fresh

def Ledger (t : Table Num) (holds : Holder → Handle Num → Prop) : Prop :=
  ∃ who, Accounted t holds who

namespace Ledger

variable {t : Table Num} {holds holds' : Holder → Handle Num → Prop} {h : Handle Num}

theorem empty (hnone : ∀ x h, ¬ holds x h) : Ledger (Table.empty : Table Num) holds := by
  refine ⟨fun _ => none, ?_, ?_, ?_, ?_, ?_⟩
  · intro x h hx
    exact absurd hx (hnone x h)
  all_goals simp [Table.empty]

/-- Everything is held once or was closed once. -/
theorem once (hl : Ledger t holds) : ∀ g < t.fresh,
    t.count g = 1 ∨ (t.count g = 0 ∧ ∃ x n, holds x ⟨n, g⟩ ∧ t.Open ⟨n, g⟩) := by
  obtain ⟨who, hacc⟩ := hl
  intro g hg
  cases hwho : who g with
  | none => exact .inl (hacc.closed g hg hwho)
  | some x =>
    obtain ⟨hcount, n, hn⟩ := hacc.held g hg x hwho
    exact .inr ⟨hcount, x, n, hn, (hacc.holder x _ hn).2.2⟩

theorem own (hl : Ledger t holds) : ∀ c ∈ t.closes, c.found = some c.handle.gen := by
  obtain ⟨who, hacc⟩ := hl
  exact hacc.own

theorem isOpen (hl : Ledger t holds) {x : Holder} (hx : holds x h) : t.Open h := by
  obtain ⟨who, hacc⟩ := hl
  exact (hacc.holder x h hx).2.2

/-- Two holders of one number are one, and mean the same acquisition. -/
theorem unique (hl : Ledger t holds) {x y : Holder} {h' : Handle Num} (hx : holds x h)
    (hy : holds y h') (hnum : h.num = h'.num) : x = y ∧ h = h' := by
  obtain ⟨who, hacc⟩ := hl
  obtain ⟨-, hwx, hox⟩ := hacc.holder x h hx
  obtain ⟨-, hwy, hoy⟩ := hacc.holder y h' hy
  unfold Table.Open at hox hoy
  rw [hnum, hoy] at hox
  have hgen : h'.gen = h.gen := Option.some.inj hox
  refine ⟨?_, ?_⟩
  · rw [hgen, hwx] at hwy
    exact Option.some.inj hwy
  · cases h
    cases h'
    cases hnum
    cases hgen
    rfl

theorem congr (hl : Ledger t holds) (hsame : ∀ x h, holds' x h ↔ holds x h) : Ledger t holds' := by
  rwa [show holds' = holds from funext fun x => funext fun h => propext (hsame x h)]

/-- `x` hands the one handle it holds to `y`. -/
theorem move (hl : Ledger t holds) {x y : Holder} (hx : ∀ h', holds x h' ↔ h' = h)
    (hnew : ∀ z h', holds' z h' ↔ (z ≠ x ∧ holds z h') ∨ (z = y ∧ h' = h)) :
    Ledger t holds' := by
  obtain ⟨who, hacc⟩ := hl
  obtain ⟨hlt, hwho, hopen⟩ := hacc.holder x h ((hx h).mpr rfl)
  refine ⟨Function.update who h.gen (some y), ?_, ?_, ?_, hacc.own, hacc.gens⟩
  · intro z h' hz
    obtain ⟨hne, hz⟩ | ⟨rfl, rfl⟩ := (hnew z h').mp hz
    · obtain ⟨hlt', hwho', hopen'⟩ := hacc.holder z h' hz
      refine ⟨hlt', ?_, hopen'⟩
      rwa [Function.update_of_ne]
      intro hgen
      rw [hgen, hwho] at hwho'
      exact hne (Option.some.inj hwho').symm
    · exact ⟨hlt, Function.update_self _ _ _, hopen⟩
  · intro g hg z hz
    by_cases hgen : g = h.gen
    · subst hgen
      rw [Function.update_self] at hz
      cases hz
      exact ⟨(hacc.held h.gen hg x hwho).1, h.num, (hnew y h).mpr (.inr ⟨rfl, rfl⟩)⟩
    · rw [Function.update_of_ne hgen] at hz
      obtain ⟨hcount, n, hn⟩ := hacc.held g hg z hz
      refine ⟨hcount, n, (hnew z _).mpr (.inl ⟨?_, hn⟩)⟩
      intro hzx
      subst hzx
      exact hgen (congrArg Handle.gen ((hx _).mp hn))
  · intro g hg hz
    by_cases hgen : g = h.gen
    · subst hgen
      rw [Function.update_self] at hz
      cases hz
    · rw [Function.update_of_ne hgen] at hz
      exact hacc.closed g hg hz

variable [DecidableEq Num]

/-- `x` acquires a number that is free. -/
theorem acquire (hl : Ledger t holds) {n : Num} {x : Holder} (hfree : t.owner n = none)
    (hnew : ∀ y h, holds' y h ↔ holds y h ∨ (y = x ∧ h = t.next n)) :
    Ledger (t.acquire n) holds' := by
  obtain ⟨who, hacc⟩ := hl
  refine ⟨Function.update who t.fresh (some x), ?_, ?_, ?_, hacc.own, ?_⟩
  · intro y h hy
    obtain hy | ⟨rfl, rfl⟩ := (hnew y h).mp hy
    · obtain ⟨hlt, hwho, hopen⟩ := hacc.holder y h hy
      refine ⟨Nat.lt_succ_of_lt hlt, ?_, ?_⟩
      · rw [Function.update_of_ne (Nat.ne_of_lt hlt), hwho]
      · have hnum : h.num ≠ n := by
          intro heq
          unfold Table.Open at hopen
          rw [heq, hfree] at hopen
          cases hopen
        exact (Function.update_of_ne hnum _ _).trans hopen
    · exact ⟨Nat.lt_succ_self _, Function.update_self _ _ _, Function.update_self _ _ _⟩
  · intro g hg y hwho
    by_cases hgen : g = t.fresh
    · subst hgen
      rw [Function.update_self] at hwho
      cases hwho
      refine ⟨?_, n, (hnew x _).mpr (.inr ⟨rfl, rfl⟩)⟩
      refine List.countP_eq_zero.mpr fun c hc => ?_
      have hlt := hacc.gens c hc
      simp only [decide_eq_true_iff]
      omega
    · rw [Function.update_of_ne hgen] at hwho
      have hlt : g < t.fresh := Nat.lt_of_le_of_ne (Nat.lt_succ_iff.mp hg) hgen
      obtain ⟨hcount, m, hm⟩ := hacc.held g hlt y hwho
      exact ⟨hcount, m, (hnew y _).mpr (.inl hm)⟩
  · intro g hg hwho
    by_cases hgen : g = t.fresh
    · subst hgen
      rw [Function.update_self] at hwho
      cases hwho
    · rw [Function.update_of_ne hgen] at hwho
      exact hacc.closed g (Nat.lt_of_le_of_ne (Nat.lt_succ_iff.mp hg) hgen) hwho
  · intro c hc
    exact Nat.lt_succ_of_lt (hacc.gens c hc)

/-- `x` closes the one handle it holds. -/
theorem close (hl : Ledger t holds) {x : Holder} (hx : ∀ h', holds x h' ↔ h' = h)
    (hnew : ∀ z h', holds' z h' ↔ z ≠ x ∧ holds z h') : Ledger (t.close h) holds' := by
  obtain ⟨who, hacc⟩ := hl
  obtain ⟨hlt, hwho, hopen⟩ := hacc.holder x h ((hx h).mpr rfl)
  refine ⟨Function.update who h.gen none, ?_, ?_, ?_, ?_, ?_⟩
  · intro z h' hz
    obtain ⟨hne, hz⟩ := (hnew z h').mp hz
    obtain ⟨hlt', hwho', hopen'⟩ := hacc.holder z h' hz
    have hgen : h'.gen ≠ h.gen := by
      intro hgen
      rw [hgen, hwho] at hwho'
      exact hne (Option.some.inj hwho').symm
    refine ⟨hlt', by rwa [Function.update_of_ne hgen], ?_⟩
    have hnum : h'.num ≠ h.num := by
      intro hnum
      unfold Table.Open at hopen hopen'
      rw [hnum, hopen] at hopen'
      exact hgen (Option.some.inj hopen').symm
    exact (Function.update_of_ne hnum _ _).trans hopen'
  · intro g hg z hz
    by_cases hgen : g = h.gen
    · subst hgen
      rw [Function.update_self] at hz
      cases hz
    · rw [Function.update_of_ne hgen] at hz
      obtain ⟨hcount, n, hn⟩ := hacc.held g hg z hz
      refine ⟨?_, n, (hnew z _).mpr ⟨?_, hn⟩⟩
      · rw [Table.count_close, hcount, if_neg (Ne.symm hgen)]
      · intro hzx
        subst hzx
        exact hgen (congrArg Handle.gen ((hx _).mp hn))
  · intro g hg hz
    rw [Table.count_close]
    by_cases hgen : g = h.gen
    · subst hgen
      rw [(hacc.held h.gen hg x hwho).1, if_pos rfl]
    · rw [Function.update_of_ne hgen] at hz
      rw [hacc.closed g hg hz, if_neg (Ne.symm hgen)]
  · intro c hc
    obtain hc | hc := List.mem_append.mp hc
    · exact hacc.own c hc
    · rw [List.mem_singleton.mp hc]
      exact hopen
  · intro c hc
    obtain hc | hc := List.mem_append.mp hc
    · exact hacc.gens c hc
    · rw [List.mem_singleton.mp hc]
      exact hlt

/-! ## Holders of at most one handle -/

/-- The handle in each holder's slot. -/
def slots (ptr : Holder → Option (Handle Num)) (x : Holder) (h : Handle Num) : Prop :=
  ptr x = some h

section slots

variable [DecidableEq Holder] {ptr : Holder → Option (Handle Num)} {x y : Holder}

theorem slots_acquire (hl : Ledger t (slots ptr)) {n : Num} (hfree : t.owner n = none)
    (hx : ptr x = none) :
    Ledger (t.acquire n) (slots (Function.update ptr x (some (t.next n)))) := by
  apply hl.acquire (x := x) hfree
  intro y h
  unfold slots
  by_cases hy : y = x
  · rw [hy, Function.update_self, hx]
    simp [eq_comm]
  · simp [hy]

theorem slots_close (hl : Ledger t (slots ptr)) (hx : ptr x = some h) :
    Ledger (t.close h) (slots (Function.update ptr x none)) := by
  apply hl.close (x := x)
  · intro h'
    unfold slots
    rw [hx, Option.some.injEq]
    exact eq_comm
  · intro y h'
    unfold slots
    by_cases hy : y = x
    · rw [hy, Function.update_self]
      simp
    · simp [hy]

theorem slots_release (hl : Ledger t (slots ptr)) (x : Holder) :
    Ledger (t.release (ptr x)) (slots (Function.update ptr x none)) := by
  cases hx : ptr x with
  | none =>
    rw [← hx, Function.update_eq_self]
    rwa [hx]
  | some h => exact hl.slots_close hx

/-- `x` acquires `n` and then closes what it held. -/
theorem slots_replace (hl : Ledger t (slots ptr)) {n : Num} (hfree : t.owner n = none)
    (x : Holder) :
    Ledger ((t.acquire n).release (ptr x))
      (slots (Function.update ptr x (some (t.next n)))) := by
  cases hx : ptr x with
  | none => exact hl.slots_acquire hfree hx
  | some h =>
    have hopen : t.owner h.num = some h.gen := hl.isOpen hx
    have hne : h.num ≠ n := by
      intro heq
      rw [heq, hfree] at hopen
      cases hopen
    have hfree' : (t.close h).owner n = none := by
      show Function.update t.owner h.num none n = none
      rw [Function.update_of_ne hne.symm, hfree]
    have hboth := (hl.slots_close hx).slots_acquire hfree' (Function.update_self x none ptr)
    rw [Function.update_idem] at hboth
    show Ledger ((t.acquire n).close h) _
    rw [Table.acquire_close_comm hne]
    exact hboth

omit [DecidableEq Num] [DecidableEq Holder] in
/-- The holders pass their handles around. -/
theorem slots_perm (hl : Ledger t (slots ptr)) (σ : Equiv.Perm Holder) :
    Ledger t (slots (ptr ∘ σ)) := by
  obtain ⟨who, hacc⟩ := hl
  refine ⟨fun g => (who g).map σ.symm, ?_, ?_, ?_, hacc.own, hacc.gens⟩
  · intro x h hx
    obtain ⟨hlt, hwho, hopen⟩ := hacc.holder (σ x) h hx
    exact ⟨hlt, by rw [hwho]; simp, hopen⟩
  · intro g hg x hx
    obtain ⟨y, hy, rfl⟩ := Option.map_eq_some_iff.mp hx
    obtain ⟨hcount, n, hn⟩ := hacc.held g hg y hy
    refine ⟨hcount, n, ?_⟩
    show ptr (σ (σ.symm y)) = some ⟨n, g⟩
    rw [Equiv.apply_symm_apply]
    exact hn
  · intro g hg hnone
    exact hacc.closed g hg (Option.map_eq_none_iff.mp hnone)

end slots

end Ledger

end Handles
