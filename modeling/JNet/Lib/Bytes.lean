import Mathlib.Data.List.Basic
import Mathlib.Tactic.Ring
import Mathlib.Tactic.NormNum

/-! # Fixed-width integers as bytes

    Little- and big-endian images of naturals, and the two's complement
    images of signed integers built on them.  A width is a number of bytes.
-/

/-- A sequence of bytes: the contents of a buffer, a stream or a file. -/
abbrev Bytes : Type := List UInt8

namespace Bytes

/-! ## Naturals -/

/-- The `w` low-order bytes of `n`, least significant first. -/
def le : Nat → Nat → Bytes
  | 0, _ => []
  | w + 1, n => UInt8.ofNat n :: le w (n / 256)

/-- The natural number a little-endian byte sequence denotes. -/
def leNat : Bytes → Nat
  | [] => 0
  | b :: bs => b.toNat + 256 * leNat bs

/-- The `w` low-order bytes of `n`, most significant first. -/
def be (w n : Nat) : Bytes := (le w n).reverse

/-- The natural number a big-endian byte sequence denotes. -/
def beNat (bs : Bytes) : Nat := leNat bs.reverse

@[simp] theorem length_le (w n : Nat) : (le w n).length = w := by
  induction w generalizing n with
  | zero => rfl
  | succ w ih => simp [le, ih]

@[simp] theorem length_be (w n : Nat) : (be w n).length = w := by
  simp [be]

theorem leNat_le (w n : Nat) : leNat (le w n) = n % 256 ^ w := by
  induction w generalizing n with
  | zero => simp [le, leNat, Nat.mod_one]
  | succ w ih =>
    have hb : (UInt8.ofNat n).toNat = n % 256 := by simp
    rw [le, leNat, ih, hb, pow_succ', Nat.mod_mul]

/-- Reading back a big-endian image that fits its width. -/
theorem beNat_be {w n : Nat} (h : n < 256 ^ w) : beNat (be w n) = n := by
  rw [beNat, be, List.reverse_reverse, leNat_le, Nat.mod_eq_of_lt h]

/-! ## Signed integers -/

/-- `x` is representable in `w` bytes of two's complement. -/
def FitsSigned (w : Nat) (x : Int) : Prop :=
  -(256 ^ w : Int) ≤ x * 2 ∧ x * 2 < 256 ^ w

instance (w : Nat) (x : Int) : Decidable (FitsSigned w x) :=
  inferInstanceAs (Decidable (_ ∧ _))

/-- The two's complement little-endian image of `x` in `w` bytes. -/
def leSigned (w : Nat) (x : Int) : Bytes := le w (x % 256 ^ w).toNat

/-- The signed value of `n` read as a `w`-byte word. -/
def signed (w n : Nat) : Int := Int.bmod n (256 ^ w)

@[simp] theorem length_leSigned (w : Nat) (x : Int) : (leSigned w x).length = w := by
  simp [leSigned]

theorem signed_of_small {w n : Nat} (h : 2 * n < 256 ^ w) : signed w n = n := by
  have hc : (2 * n : Int) < 256 ^ w := by exact_mod_cast h
  rw [signed, Int.bmod_eq_of_le_mul_two]
  · push_cast; omega
  · push_cast; omega

/-- Reading back a signed image that fits its width. -/
theorem signed_leNat_leSigned {w : Nat} {x : Int} (h : FitsSigned w x) :
    signed w (leNat (leSigned w x)) = x := by
  have hpos : (0 : Int) < 256 ^ w := by positivity
  have hlt : (x % 256 ^ w).toNat < 256 ^ w := by
    have h1 := Int.emod_lt_of_pos x hpos
    have h2 := Int.emod_nonneg x (ne_of_gt hpos)
    rw [Int.toNat_lt h2]
    exact_mod_cast h1
  rw [leSigned, leNat_le, Nat.mod_eq_of_lt hlt, signed,
    Int.toNat_of_nonneg (Int.emod_nonneg x (ne_of_gt hpos))]
  have hcast : (256 ^ w : Int) = ((256 ^ w : Nat) : Int) := by push_cast; rfl
  rw [hcast, Int.emod_bmod]
  apply Int.bmod_eq_of_le_mul_two
  · rw [← hcast]; exact h.1
  · rw [← hcast]; exact h.2

/-! ## Varints -/

/-- The base-128 varint of `n` in at most `w` bytes: seven bits a byte, least
    significant first, the high bit set on all but the last. -/
def varint : Nat → Nat → Bytes
  | 0, _ => []
  | w + 1, n =>
    if n < 128 then [UInt8.ofNat n] else UInt8.ofNat (n % 128 + 128) :: varint w (n / 128)

theorem varint_zero (w : Nat) : varint (w + 1) 0 = [0] := rfl

theorem varint_of_lt {w n : Nat} (h : n < 128) : varint (w + 1) n = [UInt8.ofNat n] := by
  rw [varint, if_pos h]

/-- No byte of the varint of a positive number is 0. -/
theorem zero_notMem_varint {w n : Nat} (hpos : 0 < n) (hfits : n < 128 ^ w) :
    (0 : UInt8) ∉ varint w n := by
  have hbyte : ∀ m : Nat, 0 < m → m < 256 → (0 : UInt8) ≠ UInt8.ofNat m := by
    intro m hm hlt heq
    have := congrArg UInt8.toNat heq
    rw [UInt8.toNat_ofNat', Nat.mod_eq_of_lt hlt] at this
    exact absurd this (by simp; omega)
  induction w generalizing n with
  | zero =>
    rw [pow_zero] at hfits
    omega
  | succ w ih =>
    unfold varint
    by_cases hlast : n < 128
    · rw [if_pos hlast, List.mem_singleton]
      exact hbyte n hpos (by omega)
    · have hrest : n / 128 < 128 ^ w := by
        rw [Nat.div_lt_iff_lt_mul (by decide), ← pow_succ]
        exact hfits
      rw [if_neg hlast, List.mem_cons, not_or]
      exact ⟨hbyte _ (by omega) (by omega), ih (by omega) hrest⟩

end Bytes

/-! ## Message classes -/

/-- A generated message class, seen from outside: the bytes a message is
    serialized to, and the message object after parsing the given bytes,
    whether or not the parser was satisfied with them. -/
structure Protobuf (Msg : Type) where
  serialize : Msg → Bytes
  parse : Bytes → Msg

/-- The message comes back from its serialization, whose size is an `int`. -/
structure Protobuf.Carries {Msg : Type} (pb : Protobuf Msg) (m : Msg) : Prop where
  parse_serialize : pb.parse (pb.serialize m) = m
  size_lt : (pb.serialize m).length < 2 ^ 31
