import JNet.Lib.Bytes
import Mathlib.Data.Nat.Log

/-! # Decimal numerals of a fixed width

    What `printf` makes of a number with a zero-padded width, and records of such
    numbers with fixed texts behind them.  As long as the numbers fit their widths,
    the texts are ordered as strings exactly as the records are ordered field by field.
-/

namespace JNet

namespace Decimal

/-- The last `w` decimal digits of `n`. -/
def digits : Nat → Nat → Bytes
  | 0, _ => []
  | w + 1, n => digits w (n / 10) ++ [UInt8.ofNat (48 + n % 10)]

/-- How many digits `n` has. -/
def size (n : Nat) : Nat := Nat.log 10 n + 1

/-- `"%0wd"` for a number that is not negative: at least `w` digits. -/
def padded (w n : Nat) : Bytes := digits (max w (size n)) n

@[simp] theorem length_digits (w n : Nat) : (digits w n).length = w := by
  induction w generalizing n with
  | zero => rfl
  | succ w ih => simp [digits, ih]

theorem size_le {w n : Nat} (hw : 0 < w) (hn : n < 10 ^ w) : size n ≤ w := by
  rcases Nat.eq_zero_or_pos n with hzero | hpos
  · rw [hzero, size, Nat.log_zero_right]
    omega
  · exact Nat.log_lt_of_lt_pow (by omega) hn

theorem size_eq {w n : Nat} (hlow : 10 ^ w ≤ n) (hhigh : n < 10 ^ (w + 1)) : size n = w + 1 := by
  rw [size, Nat.log_eq_of_pow_le_of_lt_pow hlow hhigh]

theorem padded_of_lt {w n : Nat} (hw : 0 < w) (hn : n < 10 ^ w) : padded w n = digits w n := by
  rw [padded, max_eq_left (size_le hw hn)]

/-- The first digits of a numeral. -/
theorem take_digits (w k n : Nat) : (digits (w + k) n).take w = digits w (n / 10 ^ k) := by
  induction k generalizing n with
  | zero => simp [List.take_of_length_le]
  | succ k ih =>
    rw [← Nat.add_assoc, digits, List.take_append_of_le_length (by simp), ih,
      Nat.div_div_eq_div_mul, pow_succ']

/-! ## Order -/

/-- Strings with heads of the same length are ordered by their heads first. -/
theorem append_lt_append {α : Type*} [LT α] {x x' : List α} (y y' : List α)
    (hlen : x.length = x'.length) :
    x ++ y < x' ++ y' ↔ x < x' ∨ (x = x' ∧ y < y') := by
  induction x generalizing x' with
  | nil =>
    rw [List.eq_nil_of_length_eq_zero hlen.symm]
    simp
  | cons a x ih =>
    cases x' with
    | nil => cases hlen
    | cons a' x' =>
      have hlen' : x.length = x'.length := by simpa using hlen
      simp only [List.cons_append, List.cons_lt_cons_iff, List.cons.injEq, ih hlen']
      tauto

/-- The bytes of two digits are ordered as the digits. -/
theorem digit_lt_iff {a b : Nat} (ha : a < 10) (hb : b < 10) :
    UInt8.ofNat (48 + a) < UInt8.ofNat (48 + b) ↔ a < b := by
  rw [UInt8.lt_iff_toNat_lt, UInt8.toNat_ofNat', UInt8.toNat_ofNat']
  omega

theorem digit_inj {a b : Nat} (ha : a < 10) (hb : b < 10)
    (h : UInt8.ofNat (48 + a) = UInt8.ofNat (48 + b)) : a = b := by
  have hnat := congrArg UInt8.toNat h
  rw [UInt8.toNat_ofNat', UInt8.toNat_ofNat'] at hnat
  omega

theorem digits_inj {w a b : Nat} (ha : a < 10 ^ w) (hb : b < 10 ^ w)
    (h : digits w a = digits w b) : a = b := by
  induction w generalizing a b with
  | zero => omega
  | succ w ih =>
    have hsplit := List.append_inj h (by simp)
    have hlast : a % 10 = b % 10 := by
      apply digit_inj (Nat.mod_lt _ (by omega)) (Nat.mod_lt _ (by omega))
      simpa using hsplit.2
    have hfront : a / 10 = b / 10 := by
      apply ih _ _ hsplit.1
      · rw [pow_succ] at ha
        omega
      · rw [pow_succ] at hb
        omega
    omega

/-- Numerals of one width are ordered as the numbers. -/
theorem digits_lt_iff {w a b : Nat} (ha : a < 10 ^ w) (hb : b < 10 ^ w) :
    digits w a < digits w b ↔ a < b := by
  induction w generalizing a b with
  | zero =>
    simp only [pow_zero, Nat.lt_one_iff] at ha hb
    simp [digits, ha, hb]
  | succ w ih =>
    have ha' : a / 10 < 10 ^ w := by
      rw [pow_succ] at ha
      omega
    have hb' : b / 10 < 10 ^ w := by
      rw [pow_succ] at hb
      omega
    have heq : digits w (a / 10) = digits w (b / 10) ↔ a / 10 = b / 10 := by
      constructor
      · exact digits_inj ha' hb'
      · intro hdiv
        rw [hdiv]
    rw [digits, digits, append_lt_append _ _ (by simp), ih ha' hb', heq,
      List.cons_lt_cons_iff, digit_lt_iff (Nat.mod_lt _ (by omega)) (Nat.mod_lt _ (by omega))]
    simp only [List.lt_irrefl, and_false, or_false]
    omega

/-! ## Records -/

/-- Numbers, each with its width and the text behind it. -/
def fields : List (Nat × Bytes) → List Nat → Bytes
  | (w, sep) :: fmt, v :: vs => padded w v ++ sep ++ fields fmt vs
  | _, _ => []

/-- The values fit the widths. -/
inductive Fit : List (Nat × Bytes) → List Nat → Prop where
  | nil : Fit [] []
  | cons {w v : Nat} {sep : Bytes} {fmt : List (Nat × Bytes)} {vs : List Nat} (hw : 0 < w)
      (hv : v < 10 ^ w) (hfit : Fit fmt vs) : Fit ((w, sep) :: fmt) (v :: vs)

theorem length_fields {fmt : List (Nat × Bytes)} {vs : List Nat} (h : Fit fmt vs) :
    (fields fmt vs).length = (fmt.map fun p => p.1 + p.2.length).sum := by
  induction h with
  | nil => rfl
  | cons hw hv hfit ih =>
    simp only [fields, padded_of_lt hw hv, List.length_append, length_digits, ih, List.map_cons,
      List.sum_cons]

/-- Records are ordered as strings exactly as they are ordered field by field. -/
theorem fields_lt_iff {fmt : List (Nat × Bytes)} {vs vs' : List Nat} (h : Fit fmt vs)
    (h' : Fit fmt vs') : fields fmt vs < fields fmt vs' ↔ vs < vs' := by
  induction h generalizing vs' with
  | nil =>
    cases h'
    simp [fields]
  | @cons w v sep fmt vs hw hv hfit ih =>
    cases h' with
    | @cons _ v' _ _ vs' _ hv' hfit' =>
      have heq : digits w v = digits w v' ↔ v = v' := by
        constructor
        · exact digits_inj hv hv'
        · intro hsame
          rw [hsame]
      have hsep : sep ++ fields fmt vs < sep ++ fields fmt vs' ↔ vs < vs' := by
        rw [append_lt_append _ _ rfl, ← ih hfit']
        simp [List.lt_irrefl]
      rw [fields, fields, padded_of_lt hw hv, padded_of_lt hw hv', List.append_assoc,
        List.append_assoc, append_lt_append _ _ (by simp), digits_lt_iff hv hv', heq,
        hsep, List.cons_lt_cons_iff]

/-! ## No digit is a NUL -/

theorem zero_notMem_digits (w n : Nat) : 0 ∉ digits w n := by
  induction w generalizing n with
  | zero => simp [digits]
  | succ w ih =>
    intro hmem
    rcases List.mem_append.mp hmem with hmem | hmem
    · exact ih _ hmem
    · have hzero := congrArg UInt8.toNat (List.mem_singleton.mp hmem)
      rw [UInt8.toNat_ofNat'] at hzero
      have : (0 : UInt8).toNat = 0 := rfl
      omega

theorem zero_notMem_fields {fmt : List (Nat × Bytes)} {vs : List Nat}
    (hfmt : ∀ p ∈ fmt, 0 ∉ p.2) : 0 ∉ fields fmt vs := by
  induction fmt generalizing vs with
  | nil => simp [fields]
  | cons p fmt ih =>
    cases vs with
    | nil => simp [fields]
    | cons v vs =>
      intro hmem
      rcases List.mem_append.mp hmem with hmem | hmem
      · rcases List.mem_append.mp hmem with hmem | hmem
        · exact zero_notMem_digits _ _ hmem
        · exact hfmt p List.mem_cons_self hmem
      · exact ih (fun q hq => hfmt q (List.mem_cons_of_mem _ hq)) hmem

end Decimal

end JNet
