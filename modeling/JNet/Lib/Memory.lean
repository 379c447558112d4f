import Mathlib.Data.Int.Basic
import Mathlib.Logic.Function.Basic
import Mathlib.Tactic.Ring

/-! # Memory and machine integers

    Allocations as lists of cells, the 64-bit integer types, and the ways an
    execution can leave the rules of the language.
-/

namespace Memory

/-- What ends an execution outside the language's rules. -/
inductive Fault where
  /-- A load or a store outside the allocation. -/
  | outOfBounds
  /-- An `assert` that does not hold. -/
  | assertion
  /-- A signed integer operation out of its range. -/
  | overflow
  deriving DecidableEq, Repr

/-- A computation that returns has returned at each of its steps. -/
theorem bind_ok {ε α β : Type} {x : Except ε α} {f : α → Except ε β} {r : β}
    (h : x >>= f = .ok r) : ∃ a, x = .ok a ∧ f a = .ok r := by
  cases x with
  | error e => cases h
  | ok a => exact ⟨a, rfl, h⟩

theorem map_ok {ε α β : Type} {x : Except ε α} {f : α → β} {b : β} (h : x.map f = .ok b) :
    ∃ a, x = .ok a ∧ f a = b := by
  cases x with
  | error e => cases h
  | ok a => exact ⟨a, rfl, Except.ok.inj h⟩

theorem bind_of_ok {ε α β : Type} {x : Except ε α} {a : α} (h : x = .ok a)
    (f : α → Except ε β) : x >>= f = f a := by
  rw [h]
  rfl

/-- What a map of objects has at `j` after a store at `i`. -/
theorem update_eq_some {α β : Type*} [DecidableEq α] {f : α → Option β} {i j : α} {new : Option β}
    {x : β} (h : Function.update f i new j = some x) :
    (j = i ∧ new = some x) ∨ (j ≠ i ∧ f j = some x) := by
  by_cases hj : j = i
  · rw [hj, Function.update_self] at h
    exact .inl ⟨hj, h⟩
  · rw [Function.update_of_ne hj] at h
    exact .inr ⟨hj, h⟩

section stores

variable {α β : Type*} {f g : α → Option β} {P : β → Prop}

/-- After a store of an object with `P`, an object has `P` or was there before. -/
theorem old_or_new [DecidableEq α] {i : α} {new : Option β} (hg : g = Function.update f i new)
    (hnew : ∀ x, new = some x → P x) (j : α) (x : β) (h : g j = some x) :
    f j = some x ∨ P x := by
  rw [hg] at h
  obtain ⟨-, hat⟩ | ⟨-, hat⟩ := update_eq_some h
  · exact .inr (hnew x hat)
  · exact .inl hat

theorem old_of_eq (hg : g = f) (j : α) (x : β) (h : g j = some x) : f j = some x ∨ P x := by
  rw [hg] at h
  exact .inl h

end stores

/-! ## 64-bit integers -/

/-- A natural number as `size_t` holds it. -/
def sizeT (n : Nat) : Nat := n % 2 ^ 64

/-- `a - b` on `size_t`. -/
def sizeSub (a b : Nat) : Nat := sizeT (a + 2 ^ 64 - b)

theorem sizeT_of_lt {n : Nat} (h : n < 2 ^ 64) : sizeT n = n := Nat.mod_eq_of_lt h

theorem sizeT_lt (n : Nat) : sizeT n < 2 ^ 64 := Nat.mod_lt n (by decide)

theorem sizeSub_of_le {a b : Nat} (h : b ≤ a) (ha : a < 2 ^ 64) : sizeSub a b = a - b := by
  unfold sizeSub sizeT
  omega

/-- A signed value converted to `size_t`. -/
def toSize (x : Int) : Nat := (x % 2 ^ 64).toNat

/-- A value converted to `int64_t`. -/
def toInt64 (x : Int) : Int := Int.bmod x (2 ^ 64)

/-- A value converted to `int`. -/
def toInt32 (x : Int) : Int := Int.bmod x (2 ^ 32)

theorem toSize_of_nonneg {x : Int} (h0 : 0 ≤ x) (h : x < 2 ^ 64) : toSize x = x.toNat := by
  unfold toSize
  rw [Int.emod_eq_of_lt h0 h]

theorem toInt64_of_fits {x : Int} (h0 : -2 ^ 63 ≤ x) (h : x < 2 ^ 63) : toInt64 x = x := by
  unfold toInt64
  apply Int.bmod_eq_of_le_mul_two
  · omega
  · omega

theorem toInt32_of_fits {x : Int} (h0 : -2 ^ 31 ≤ x) (h : x < 2 ^ 31) : toInt32 x = x := by
  unfold toInt32
  apply Int.bmod_eq_of_le_mul_two
  · omega
  · omega

/-! ## Allocations -/

/-- A byte of an allocation; `none` until something is stored there. -/
abbrev Cell : Type := Option UInt8

/-- Read `n` cells at `off`. -/
def load (mem : List Cell) (off n : Nat) : Except Fault (List Cell) :=
  if off + n ≤ mem.length then .ok ((mem.drop off).take n) else .error .outOfBounds

/-- Store `cells` at `off`. -/
def store (mem : List Cell) (off : Nat) (cells : List Cell) : Except Fault (List Cell) :=
  if off + cells.length ≤ mem.length then
    .ok (mem.take off ++ cells ++ mem.drop (off + cells.length))
  else .error .outOfBounds

theorem length_load {mem data : List Cell} {off n : Nat} (h : load mem off n = .ok data) :
    data.length = n := by
  unfold load at h
  split at h
  · cases h
    rw [List.length_take, List.length_drop]
    omega
  · cases h

theorem length_store {mem mem' cells : List Cell} {off : Nat}
    (h : store mem off cells = .ok mem') : mem'.length = mem.length := by
  unfold store at h
  split at h
  · cases h
    simp only [List.length_append, List.length_take, List.length_drop]
    omega
  · cases h

/-- A store behind the first cells. -/
theorem store_append (xs : List Cell) {tail cells : List Cell} (hfit : cells.length ≤ tail.length) :
    store (xs ++ tail) xs.length cells = .ok (xs ++ cells ++ tail.drop cells.length) := by
  rw [store, if_pos (by rw [List.length_append]; omega), List.take_left, List.drop_append,
    List.drop_eq_nil_of_le (by omega), List.nil_append]
  congr 3
  omega

/-- The C string at the start of an array: what stands before the first NUL.  The
    scan ends at a NUL or it leaves what has been stored in the array. -/
def cString : List Cell → Except Fault (List UInt8)
  | some b :: cells => if b = 0 then .ok [] else (cString cells).map (b :: ·)
  | _ => .error .outOfBounds

theorem cString_append {bs : List UInt8} (h : 0 ∉ bs) (cells : List Cell) :
    cString (bs.map some ++ some 0 :: cells) = .ok bs := by
  induction bs with
  | nil => simp [cString]
  | cons b bs ih =>
    rw [List.mem_cons, not_or] at h
    rw [List.map_cons, List.cons_append, cString, if_neg (Ne.symm h.1), ih h.2]
    rfl

/-- Without a NUL the scan runs over the end. -/
theorem cString_unterminated {bs : List UInt8} (h : 0 ∉ bs) :
    cString (bs.map some) = .error .outOfBounds := by
  induction bs with
  | nil => rfl
  | cons b bs ih =>
    rw [List.mem_cons, not_or] at h
    rw [List.map_cons, cString, if_neg (Ne.symm h.1), ih h.2]
    rfl

theorem cString_terminated {bs : List UInt8} (h : 0 ∉ bs) (rest : List UInt8) :
    cString ((bs ++ 0 :: rest).map some) = .ok bs := by
  induction bs with
  | nil => simp [cString]
  | cons b bs ih =>
    rw [List.mem_cons, not_or] at h
    rw [List.cons_append, List.map_cons, cString, if_neg (Ne.symm h.1), ih h.2]
    rfl

end Memory
