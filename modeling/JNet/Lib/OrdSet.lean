import Mathlib.Order.Lattice

/-! # Ordered sets

    A set over a linear order, kept as the list of its elements in increasing
    order: the interface of a balanced search tree without the tree.
-/

universe u

/-- The elements, each once, in increasing order. -/
structure OrdSet (α : Type u) [LinearOrder α] where
  toList : List α
  increasing : toList.Pairwise (· < ·)

namespace OrdSet

variable {α : Type u} [LinearOrder α]

instance : Membership α (OrdSet α) := ⟨fun s x => x ∈ s.toList⟩

theorem mem_def {s : OrdSet α} {x : α} : x ∈ s ↔ x ∈ s.toList := Iff.rfl

def empty : OrdSet α := ⟨[], List.Pairwise.nil⟩

/-- An increasing list with `x` in its place, unless it is there already. -/
def insertList (x : α) : List α → List α
  | [] => [x]
  | y :: l => if x < y then x :: y :: l else if y < x then y :: insertList x l else y :: l

theorem mem_insertList {x z : α} {l : List α} : z ∈ insertList x l ↔ z = x ∨ z ∈ l := by
  induction l with
  | nil => simp [insertList]
  | cons y l ih =>
    unfold insertList
    split
    · simp
    · next hxy =>
      split
      · rw [List.mem_cons, ih, List.mem_cons, or_left_comm]
      · next hyx =>
        -- Neither is smaller, so `x` is there already.
        have heq : x = y := le_antisymm (not_lt.mp hyx) (not_lt.mp hxy)
        simp [heq]

theorem increasing_insertList (x : α) {l : List α} (h : l.Pairwise (· < ·)) :
    (insertList x l).Pairwise (· < ·) := by
  induction l with
  | nil => exact List.pairwise_singleton _ x
  | cons y l ih =>
    obtain ⟨hhead, htail⟩ := List.pairwise_cons.mp h
    unfold insertList
    split
    · next hxy =>
      refine List.pairwise_cons.mpr ⟨?_, h⟩
      intro z hz
      rcases List.mem_cons.mp hz with rfl | hz
      · exact hxy
      · exact hxy.trans (hhead z hz)
    · split
      · next hyx =>
        refine List.pairwise_cons.mpr ⟨?_, ih htail⟩
        intro z hz
        rcases mem_insertList.mp hz with rfl | hz
        · exact hyx
        · exact hhead z hz
      · exact h

def insert (x : α) (s : OrdSet α) : OrdSet α :=
  ⟨insertList x s.toList, increasing_insertList x s.increasing⟩

def erase (x : α) (s : OrdSet α) : OrdSet α :=
  ⟨s.toList.filter (· ≠ x), s.increasing.filter _⟩

/-- The elements in front of the lower bound of `x`. -/
def below (x : α) (s : OrdSet α) : OrdSet α :=
  ⟨s.toList.filter (· < x), s.increasing.filter _⟩

/-- The elements from the lower bound of `x` on. -/
def dropBelow (x : α) (s : OrdSet α) : OrdSet α :=
  ⟨s.toList.filter (x ≤ ·), s.increasing.filter _⟩

/-- The first element. -/
def first? (s : OrdSet α) : Option α := s.toList.head?

@[simp] theorem not_mem_empty {x : α} : x ∉ (empty : OrdSet α) := List.not_mem_nil

@[simp] theorem mem_insert {x y : α} {s : OrdSet α} : y ∈ insert x s ↔ y = x ∨ y ∈ s :=
  mem_insertList

@[simp] theorem mem_erase {x y : α} {s : OrdSet α} : y ∈ erase x s ↔ y ∈ s ∧ y ≠ x := by
  simp [mem_def, erase]

theorem erase_of_not_mem {x : α} {s : OrdSet α} (h : x ∉ s) : erase x s = s := by
  obtain ⟨l, hl⟩ := s
  have hall : ∀ y ∈ l, decide (y ≠ x) = true := by
    intro y hy
    rw [decide_eq_true_eq]
    intro heq
    exact h (heq ▸ hy)
  simp only [erase, List.filter_eq_self.mpr hall]

@[simp] theorem mem_below {x y : α} {s : OrdSet α} : y ∈ below x s ↔ y ∈ s ∧ y < x := by
  simp [mem_def, below]

@[simp] theorem mem_dropBelow {x y : α} {s : OrdSet α} : y ∈ dropBelow x s ↔ y ∈ s ∧ x ≤ y := by
  simp [mem_def, dropBelow]

theorem first?_eq_none {s : OrdSet α} : s.first? = none ↔ ∀ x, x ∉ s := by
  rw [first?, List.head?_eq_none_iff, List.eq_nil_iff_forall_not_mem]
  rfl

/-- The first element is the least one. -/
theorem first?_eq_some {s : OrdSet α} {x : α} (h : s.first? = some x) :
    x ∈ s ∧ ∀ y ∈ s, x ≤ y := by
  obtain ⟨l, hl⟩ := List.head?_eq_some_iff.mp h
  have hinc := s.increasing
  rw [hl] at hinc
  constructor
  · rw [mem_def, hl]
    exact List.mem_cons_self
  · intro y hy
    rw [mem_def, hl] at hy
    rcases List.mem_cons.mp hy with rfl | hy
    · exact le_refl _
    · exact ((List.pairwise_cons.mp hinc).1 y hy).le

end OrdSet
