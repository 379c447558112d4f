import JNet.Lib.Bytes
import JNet.Lib.Memory
import Mathlib.Data.List.Infix

/-! # Byte strings

    The operations of `std::string` that work with positions, for non-empty
    patterns, and the character tests of the C locale.  A search gives the
    least position at which the pattern stands, or `npos`.
-/

namespace Strings

open Memory

/-- The bytes of a text. -/
def ascii (s : String) : Bytes := s.toList.map fun c => UInt8.ofNat c.toNat

/-- `pat` stands at position `i` of `s`. -/
def OccursAt (pat s : Bytes) (i : Nat) : Prop := pat <+: s.drop i

/-- The first position of `pat` in `s`. -/
def find (pat : Bytes) : Bytes → Option Nat
  | [] => none
  | b :: s => if pat.isPrefixOf (b :: s) then some 0 else (find pat s).map (· + 1)

def npos : Nat := 2 ^ 64 - 1

/-- `s.find(pat, pos)`. -/
def findFrom (pat s : Bytes) (pos : Nat) : Nat := ((find pat (s.drop pos)).map (pos + ·)).getD npos

/-- `s.substr(pos, n)`; a position behind the end throws. -/
def substr (s : Bytes) (pos n : Nat) : Option Bytes :=
  if pos ≤ s.length then some ((s.drop pos).take n) else none

/-- `s[i]`, which may be the 0 behind the end. -/
def charAt (s : Bytes) (i : Int) : Option UInt8 :=
  if 0 ≤ i ∧ i ≤ s.length then some (s.getD i.toNat 0) else none

/-- What a format of `%s` copies. -/
def cStr (s : Bytes) : Bytes := s.takeWhile (· ≠ 0)

def isspace (b : UInt8) : Bool := b == 32 || (9 ≤ b && b ≤ 13)

def tolower (b : UInt8) : UInt8 := if 65 ≤ b && b ≤ 90 then b + 32 else b

/-- `%lu`. -/
def decimal (n : Nat) : Bytes := (Nat.toDigits 10 n).map fun c => UInt8.ofNat c.toNat

/-- `atoi`: blanks, a sign, digits; the value saturates as `long` and is cut to `int`. -/
def atoi (s : Bytes) : Int :=
  let s := s.dropWhile isspace
  let negative := s.head? = some 45
  let s := if s.head? = some 45 ∨ s.head? = some 43 then s.drop 1 else s
  let n : Int := (s.takeWhile fun b => 48 ≤ b && b ≤ 57).foldl (fun n b => 10 * n + (b - 48).toNat) 0
  toInt32 (max (-2 ^ 63) (min (if negative then -n else n) (2 ^ 63 - 1)))

/-! ## Searching -/

variable {pat s t : Bytes} {i j : Nat}

theorem OccursAt.length_le (h : OccursAt pat s i) (hne : pat ≠ []) : i + pat.length ≤ s.length := by
  have hlen : pat.length ≤ (s.drop i).length := List.IsPrefix.length_le h
  have hpos : 0 < pat.length := List.length_pos_iff.mpr hne
  rw [List.length_drop] at hlen
  omega

/-- An occurrence, byte by byte. -/
theorem occursAt_iff : OccursAt pat s i ↔ ∀ k (hk : k < pat.length), s[i + k]? = some pat[k] := by
  unfold OccursAt
  rw [List.prefix_iff_getElem?]
  simp only [List.getElem?_drop]

/-- A single byte. -/
theorem occursAt_singleton {b : UInt8} : OccursAt [b] s i ↔ s[i]? = some b := by
  rw [occursAt_iff]
  constructor
  · intro h
    exact h 0 (by simp)
  · intro h k hk
    have hzero : k = 0 := by simpa using hk
    subst hzero
    exact h

/-- What stands in a prefix stands in the whole. -/
theorem OccursAt.mono (h : OccursAt pat s i) (hst : s <+: t) : OccursAt pat t i :=
  h.trans (List.IsPrefix.drop hst i)

/-- What stands in the whole and ends within a prefix stands in the prefix. -/
theorem OccursAt.of_prefix (h : OccursAt pat t i) (hst : s <+: t)
    (hlen : i + pat.length ≤ s.length) : OccursAt pat s i := by
  have hdrop : s.drop i <+: t.drop i := List.IsPrefix.drop hst i
  refine List.prefix_of_prefix_length_le h hdrop ?_
  rw [List.length_drop]
  omega

/-- What begins with a byte that is not in a prefix stands behind it. -/
theorem OccursAt.behind {b : UInt8} (h : OccursAt pat t i) (hpat : pat.head? = some b)
    (hst : s <+: t) (hb : b ∉ s) : s.length ≤ i := by
  obtain ⟨u, rfl⟩ := hst
  cases pat with
  | nil => cases hpat
  | cons b' pat =>
    cases hpat
    have hbyte : (s ++ u)[i]? = some b := occursAt_iff.mp h 0 (by simp)
    by_contra hlt
    rw [List.getElem?_append_left (by omega)] at hbyte
    exact hb (List.mem_of_getElem? hbyte)

/-- What stands behind `s`. -/
theorem occursAt_append_right : OccursAt pat (s ++ t) (s.length + i) ↔ OccursAt pat t i := by
  unfold OccursAt
  rw [List.drop_append, List.drop_eq_nil_of_le (by omega), List.nil_append,
    show s.length + i - s.length = i by omega]

/-- What begins right behind `s`. -/
theorem occursAt_append_self (h : pat <+: t) : OccursAt pat (s ++ t) s.length :=
  occursAt_append_right.mpr (show OccursAt pat t 0 from h)

/-- What stands in the rest of `s`. -/
theorem occursAt_drop {n : Nat} : OccursAt pat (s.drop n) i ↔ OccursAt pat s (n + i) := by
  unfold OccursAt
  rw [List.drop_drop]

theorem find_eq_some (h : find pat s = some i) :
    OccursAt pat s i ∧ ∀ j < i, ¬ OccursAt pat s j := by
  induction s generalizing i with
  | nil => cases h
  | cons b s ih =>
    unfold find at h
    split at h
    · rename_i hprefix
      cases h
      exact ⟨List.isPrefixOf_iff_prefix.mp hprefix, by simp⟩
    · rename_i hprefix
      obtain ⟨k, hk, rfl⟩ := Option.map_eq_some_iff.mp h
      obtain ⟨hocc, hleast⟩ := ih hk
      refine ⟨hocc, ?_⟩
      intro j hj hocc'
      cases j with
      | zero => exact hprefix (List.isPrefixOf_iff_prefix.mpr hocc')
      | succ j => exact hleast j (by omega) hocc'

theorem exists_find (h : OccursAt pat s i) (hne : pat ≠ []) :
    ∃ j, j ≤ i ∧ find pat s = some j := by
  induction s generalizing i with
  | nil =>
    have hlen := h.length_le hne
    have hpos : 0 < pat.length := List.length_pos_iff.mpr hne
    rw [List.length_nil] at hlen
    omega
  | cons b s ih =>
    unfold find
    split
    · exact ⟨0, Nat.zero_le _, rfl⟩
    · rename_i hprefix
      cases i with
      | zero => exact absurd (List.isPrefixOf_iff_prefix.mpr h) hprefix
      | succ i =>
        obtain ⟨j, hj, hfind⟩ := ih h
        exact ⟨j + 1, by omega, by rw [hfind]; rfl⟩

/-- A search that finds something finds the first occurrence. -/
theorem findFrom_ne_npos {pos : Nat} (h : findFrom pat s pos ≠ npos) :
    OccursAt pat s (findFrom pat s pos) ∧
      ∀ k, pos ≤ k → k < findFrom pat s pos → ¬ OccursAt pat s k := by
  unfold findFrom at h ⊢
  cases hfind : find pat (s.drop pos) with
  | none => simp [hfind] at h
  | some j =>
    obtain ⟨hocc, hleast⟩ := find_eq_some hfind
    simp only [Option.map_some, Option.getD_some]
    refine ⟨occursAt_drop.mp hocc, ?_⟩
    intro k hpos hk hocc'
    refine hleast (k - pos) (by omega) ?_
    rw [occursAt_drop]
    rwa [show pos + (k - pos) = k by omega]

/-- A search finds what is there. -/
theorem findFrom_le {pos : Nat} (h : OccursAt pat s i) (hne : pat ≠ []) (hpos : pos ≤ i) :
    pos ≤ findFrom pat s pos ∧ findFrom pat s pos ≤ i ∧ OccursAt pat s (findFrom pat s pos) := by
  have hdrop : OccursAt pat (s.drop pos) (i - pos) := by
    rw [occursAt_drop]
    rwa [show pos + (i - pos) = i by omega]
  obtain ⟨j, hj, hfind⟩ := exists_find hdrop hne
  have hocc := occursAt_drop.mp (find_eq_some hfind).1
  unfold findFrom
  rw [hfind]
  exact ⟨Nat.le_add_right _ _, by simp; omega, hocc⟩

/-- The digits of a number. -/
theorem isDigit_decimal {n : Nat} {b : UInt8} (h : b ∈ decimal n) :
    48 ≤ b.toNat ∧ b.toNat ≤ 57 := by
  obtain ⟨c, hc, rfl⟩ := List.mem_map.mp h
  have hdigit := Nat.isDigit_of_mem_toDigits (by decide) (by decide) hc
  rw [Char.isDigit, Bool.and_eq_true, decide_eq_true_iff, decide_eq_true_iff] at hdigit
  have hlow : 48 ≤ c.toNat := hdigit.1
  have hhigh : c.toNat ≤ 57 := hdigit.2
  rw [UInt8.toNat_ofNat']
  omega

/-! ## Cursors -/

/-- `while (c < s.size() && p(s[c])) c++`. -/
def advanceWhile (s : Bytes) (p : UInt8 → Bool) (c : Nat) : Nat :=
  if c < s.length ∧ p (s.getD c 0) = true then advanceWhile s p (c + 1) else c
termination_by s.length - c

/-- `if (c < s.size() && s[c] == b) c++`. -/
def advanceOver (s : Bytes) (b : UInt8) (c : Nat) : Nat :=
  if c < s.length ∧ s.getD c 0 = b then c + 1 else c

/-- `std::string(s.data() + b, s.data() + e)`. -/
def slice (s : Bytes) (b e : Nat) : Bytes := (s.drop b).take (e - b)

section cursors

variable {s t u : Bytes} {p : UInt8 → Bool} {b : UInt8} {c : Nat}

theorem le_advanceWhile (s : Bytes) (p : UInt8 → Bool) (c : Nat) : c ≤ advanceWhile s p c := by
  fun_induction advanceWhile s p c with
  | case1 c h ih => omega
  | case2 c h => exact Nat.le_refl _

theorem le_advanceOver (s : Bytes) (b : UInt8) (c : Nat) : c ≤ advanceOver s b c := by
  unfold advanceOver
  split <;> omega

/-- The cursor passes a byte that meets the condition. -/
theorem lt_advanceWhile (hc : c < s.length) (hp : p (s.getD c 0) = true) :
    c < advanceWhile s p c := by
  rw [advanceWhile, if_pos ⟨hc, hp⟩]
  exact le_advanceWhile s p (c + 1)

theorem advanceWhile_stays (hp : p (s.getD c 0) = false) : advanceWhile s p c = c := by
  rw [advanceWhile, if_neg (by rw [hp]; simp)]

/-- The byte at the cursor, where the rest of the string is known. -/
theorem getD_of_drop (h : s.drop c = b :: t) : c < s.length ∧ s.getD c 0 = b := by
  have hget : s[c]? = some b := by
    rw [← Nat.add_zero c, ← List.getElem?_drop, h]
    rfl
  obtain ⟨hlt, -⟩ := List.getElem?_eq_some_iff.mp hget
  rw [List.getD_eq_getElem?_getD, hget]
  exact ⟨hlt, rfl⟩

theorem drop_add_of_drop (h : s.drop c = t ++ u) : s.drop (c + t.length) = u := by
  rw [← List.drop_drop, h, List.drop_left]

theorem slice_of_drop (h : s.drop c = t ++ u) : slice s c (c + t.length) = t := by
  rw [slice, h, Nat.add_sub_cancel_left, List.take_left]

/-- The loop passes what meets the condition and stops before what does not. -/
theorem advanceWhile_of_drop (h : s.drop c = t ++ u) (ht : ∀ b ∈ t, p b = true)
    (hu : ∀ b, u.head? = some b → p b = false) : advanceWhile s p c = c + t.length := by
  induction t generalizing c with
  | nil =>
    rw [List.nil_append] at h
    cases u with
    | nil =>
      have hend : s.length ≤ c := List.drop_eq_nil_iff.mp h
      rw [advanceWhile, if_neg (by omega)]
      rfl
    | cons b u =>
      apply advanceWhile_stays
      rw [(getD_of_drop h).2]
      exact hu b rfl
  | cons b t ih =>
    obtain ⟨hc, hb⟩ := getD_of_drop h
    have hnext : s.drop (c + 1) = t ++ u := drop_add_of_drop (t := [b]) h
    rw [advanceWhile, if_pos ⟨hc, by rw [hb]; exact ht b (by simp)⟩,
      ih hnext (fun b' hb' => ht b' (by simp [hb']))]
    simp only [List.length_cons]
    omega

theorem advanceOver_of_drop (h : s.drop c = b :: t) : advanceOver s b c = c + 1 := by
  rw [advanceOver, if_pos (getD_of_drop h)]

theorem advanceOver_stays (h : s.drop c = t) (ht : t.head? ≠ some b) : advanceOver s b c = c := by
  rw [advanceOver, if_neg]
  intro hcase
  rcases hcase with ⟨hc, hb⟩
  apply ht
  rw [← h, List.head?_drop, List.getElem?_eq_getElem hc]
  rw [List.getD_eq_getElem?_getD, List.getElem?_eq_getElem hc] at hb
  exact congrArg some hb

end cursors

end Strings
