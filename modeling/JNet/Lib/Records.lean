import Mathlib.Data.List.Basic
import Mathlib.Tactic.Ring

/-! # Concatenated records

    Arithmetic of a sequence of records laid out one after the other in a
    stream or a file, seen only through their sizes: where each record ends,
    and how many of them lie wholly within the first `p` bytes.  Last, where two
    records differ that have all but one field in common.
-/

namespace Records

/-- Where the first `k` records end. -/
def endOf (sizes : List Nat) (k : Nat) : Nat := (sizes.take k).sum

/-- How many leading records lie wholly within the first `p` bytes. -/
def complete : List Nat → Nat → Nat
  | [], _ => 0
  | n :: ns, p => if n ≤ p then complete ns (p - n) + 1 else 0

@[simp] theorem endOf_zero (sizes : List Nat) : endOf sizes 0 = 0 := rfl

@[simp] theorem endOf_cons_succ (n : Nat) (ns : List Nat) (k : Nat) :
    endOf (n :: ns) (k + 1) = n + endOf ns k := by
  simp [endOf]

theorem endOf_succ {sizes : List Nat} {k : Nat} (hk : k < sizes.length) :
    endOf sizes (k + 1) = endOf sizes k + sizes[k] := by
  rw [endOf, List.take_succ_eq_append_getElem hk, List.sum_append]
  simp [endOf]

theorem complete_le_length (sizes : List Nat) (p : Nat) :
    complete sizes p ≤ sizes.length := by
  induction sizes generalizing p with
  | nil => simp [complete]
  | cons n ns ih =>
    have := ih (p - n)
    unfold complete
    split
    · rw [List.length_cons]; omega
    · omega

/-- The first `k` records are complete exactly when they end within `p`. -/
theorem le_complete_iff {sizes : List Nat} {k p : Nat} (hk : k ≤ sizes.length) :
    k ≤ complete sizes p ↔ endOf sizes k ≤ p := by
  induction sizes generalizing k p with
  | nil =>
    have : k = 0 := by simpa using hk
    simp [this]
  | cons n ns ih =>
    cases k with
    | zero => simp
    | succ k =>
      have hk' : k ≤ ns.length := by simpa using hk
      have := ih (p := p - n) hk'
      simp only [complete, endOf_cons_succ]
      split <;> omega

theorem endOf_complete_le (sizes : List Nat) (p : Nat) :
    endOf sizes (complete sizes p) ≤ p :=
  (le_complete_iff (complete_le_length sizes p)).mp (Nat.le_refl _)

/-- The record after the last complete one ends beyond `p`. -/
theorem lt_endOf_complete_succ {sizes : List Nat} {p : Nat}
    (h : complete sizes p < sizes.length) :
    p < endOf sizes (complete sizes p + 1) := by
  by_contra hle
  have hge := (le_complete_iff h).mpr (Nat.le_of_not_lt hle)
  omega

theorem complete_mono (sizes : List Nat) {p q : Nat} (h : p ≤ q) :
    complete sizes p ≤ complete sizes q := by
  apply (le_complete_iff (complete_le_length sizes p)).mpr
  have := endOf_complete_le sizes p
  omega

/-- `k` is the number of complete records exactly when `p` lies between the
    ends of the `k`-th record and the next one. -/
theorem complete_eq_iff {sizes : List Nat} {k p : Nat} (hk : k ≤ sizes.length) :
    complete sizes p = k ↔
      endOf sizes k ≤ p ∧ (k < sizes.length → p < endOf sizes (k + 1)) := by
  have hle := complete_le_length sizes p
  constructor
  · rintro rfl
    exact ⟨endOf_complete_le sizes p, lt_endOf_complete_succ⟩
  · intro hcase
    rcases hcase with ⟨h1, h2⟩
    have hge := (le_complete_iff hk).mpr h1
    by_contra hne
    have hlt : k + 1 ≤ complete sizes p := by omega
    have hend := (le_complete_iff (Nat.le_trans hlt hle)).mp hlt
    have := h2 (by omega)
    omega

/-- Right at the end of a record exactly the records up to it are complete. -/
theorem complete_endOf {sizes : List Nat} (hpos : ∀ n ∈ sizes, 0 < n) {k : Nat}
    (hk : k ≤ sizes.length) : complete sizes (endOf sizes k) = k := by
  apply (complete_eq_iff hk).mpr
  refine ⟨Nat.le_refl _, ?_⟩
  intro hlt
  have := hpos _ (List.getElem_mem hlt)
  rw [endOf_succ hlt]
  omega

/-- Where two lists differ that have all but a piece in the middle in common. -/
theorem differ_between {α : Type*} {a b b' c : List α} {i : Nat} (hlen : b.length = b'.length)
    (hdiff : (a ++ (b ++ c))[i]? ≠ (a ++ (b' ++ c))[i]?) :
    b ≠ b' ∧ a.length ≤ i ∧ i < a.length + b.length := by
  refine ⟨fun hsame => hdiff (by rw [hsame]), ?_, ?_⟩
  · by_contra hlt
    rw [List.getElem?_append_left (by omega), List.getElem?_append_left (by omega)] at hdiff
    exact hdiff rfl
  · by_contra hge
    rw [List.getElem?_append_right (by omega), List.getElem?_append_right (by omega),
      List.getElem?_append_right (by omega), List.getElem?_append_right (by omega), hlen] at hdiff
    exact hdiff rfl

end Records
