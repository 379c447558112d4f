import JNet.Lib.Handles
import JNet.Net.BufferRun

/-! # Who owns the allocations of the buffers

    `jnet::Buffer` once more, this time with its raw pointer: `buf_` is an
    address that `new char[]` has returned, several objects live in one memory,
    and every `delete[]` names an address and nothing else.  An address comes
    back from the allocator as soon as it has been deleted.

    Each function does to the object behind its pointer what `Net/Buffer.lean`
    does to the value, and a run of them does to the contents what queues of
    bytes would do.  No allocation is lost, shared or deleted twice, as long as
    no buffer is constructed as a copy of another one: `Buffer` assigns deeply,
    but it has no copy constructor of its own.
-/

namespace JNet

open Memory Handles

/-! ## Objects and memory -/

structure BufferObject where
  extra_ : Int := 0
  buf_ : Option (Handle Nat) := none
  b_ : Nat := 0
  e_ : Nat := 0
  cap_ : Nat := 0
  exp_ : Nat := 4096
  deriving DecidableEq, Repr

/-- All buffer objects of a program, and the allocations they point to. -/
structure BufferHeap where
  table : Table Nat
  /-- The bytes behind each address. -/
  cells : Nat → List Cell
  obj : Nat → BufferObject

namespace BufferObject

def getSize (o : BufferObject) : Nat := sizeSub o.e_ o.b_

def getSpace (o : BufferObject) : Nat := sizeSub o.cap_ o.e_

/-- The value of the object, if `mem` is what its pointer points to. -/
def value (o : BufferObject) (mem : List Cell) : Buffer :=
  { buf_ := mem, b_ := o.b_, e_ := o.e_, cap_ := o.cap_, exp_ := o.exp_, extra_ := o.extra_ }

end BufferObject

namespace BufferHeap

/-- No object has allocated anything yet. -/
def empty : BufferHeap := { table := Table.empty, cells := fun _ => [], obj := fun _ => {} }

def set (m : BufferHeap) (i : Nat) (o : BufferObject) : BufferHeap :=
  { m with obj := Function.update m.obj i o }

/-- `new char[n]`, which the allocator answers with `addr`. -/
def new (m : BufferHeap) (addr n : Nat) : BufferHeap :=
  { m with
    table := m.table.acquire addr
    cells := Function.update m.cells addr (List.replicate n none) }

/-- `delete[] p` -/
def delete (m : BufferHeap) (p : Option (Handle Nat)) : BufferHeap :=
  { m with table := m.table.release p }

/-- `n` bytes at `p + off`; at an address that has been deleted there are none. -/
def read (m : BufferHeap) (p : Option (Handle Nat)) (off n : Nat) : Except Fault (List Cell) :=
  match p with
  | none => load [] off n
  | some h =>
    if (m.table.owner h.num).isSome then load (m.cells h.num) off n else .error .outOfBounds

/-- Store `data` at `p + off`. -/
def write (m : BufferHeap) (p : Option (Handle Nat)) (off : Nat) (data : List Cell) :
    Except Fault BufferHeap :=
  match p with
  | none => do
    let _ ← store [] off data
    return m
  | some h =>
    if (m.table.owner h.num).isSome then do
      let mem ← store (m.cells h.num) off data
      return { m with cells := Function.update m.cells h.num mem }
    else .error .outOfBounds

/-! ## The functions of the class

    `i` and `j` are objects, `addr` is what the allocator answers where the
    function allocates. -/

def clear (m : BufferHeap) (i : Nat) : BufferHeap :=
  let o := m.obj i
  (m.delete o.buf_).set i { o with buf_ := none, cap_ := 0, b_ := 0, e_ := 0 }

def expand (m : BufferHeap) (i len addr : Nat) : Except Fault BufferHeap := do
  let o := m.obj i
  let ncap := max o.exp_ (max (sizeT (2 * o.cap_)) (sizeT (o.getSize + len)))
  let p := m.table.next addr
  let m := m.new addr ncap
  let live ← m.read o.buf_ o.b_ o.getSize
  let m ← m.write (some p) 0 live
  return (m.delete o.buf_).set i
    { o with buf_ := some p, e_ := sizeSub o.e_ o.b_, b_ := 0, cap_ := ncap }

/-- `MakeRoom(len)`; the compaction `MoveHead` has an empty body. -/
def makeRoom (m : BufferHeap) (i len addr : Nat) : Except Fault BufferHeap :=
  let o := m.obj i
  if sizeT (o.e_ + len) ≤ o.cap_ then .ok m
  else if sizeT (o.getSize + len) < o.cap_ then .ok m
  else m.expand i len addr

/-- `MakeRoom()` -/
def makeRoomSuggested (m : BufferHeap) (i addr : Nat) : Except Fault BufferHeap :=
  let o := m.obj i
  if o.getSpace < o.exp_ then m.expand i 0 addr else .ok m

/-- `AllocRoom(len)`, with the position of the room in the allocation. -/
def allocRoom (m : BufferHeap) (i len addr : Nat) : Except Fault (BufferHeap × Nat) := do
  let m ← m.makeRoom i len addr
  let o := m.obj i
  return (m.set i { o with e_ := sizeT (o.e_ + len) }, o.e_)

/-- `Append(p, len)`; the source is read once there is room for it. -/
def append (m : BufferHeap) (i : Nat) (src : BufferHeap → Except Fault (List Cell))
    (len addr : Nat) : Except Fault BufferHeap := do
  let (m, room) ← m.allocRoom i len addr
  let data ← src m
  m.write (m.obj i).buf_ room data

def consume (m : BufferHeap) (i len : Nat) : BufferHeap :=
  let o := m.obj i
  let o := { o with b_ := sizeT (o.b_ + len) }
  let m := m.set i o
  if o.getSize = 0 then m.clear i else m

def absorb (m : BufferHeap) (i j addr : Nat) : Except Fault BufferHeap :=
  if i = j then .ok m
  else
    let o := m.obj i
    let b := m.obj j
    if o.getSize = 0 then
      -- the objects are swapped byte by byte, then `exp_` is swapped back
      .ok ((m.set i { b with exp_ := o.exp_ }).set j { o with exp_ := b.exp_ })
    else do
      let m ← m.append i (fun m => m.read b.buf_ b.b_ b.getSize) b.getSize addr
      return m.clear j

def setSuggestSize (m : BufferHeap) (i sz : Nat) : BufferHeap :=
  m.set i { m.obj i with exp_ := sz }

/-- `CopyFrom(b)` on the object `i` -/
def copyFrom (m : BufferHeap) (i : Nat) (b : BufferObject) (addr : Nat) :
    Except Fault BufferHeap :=
  match b.buf_ with
  | none => .ok (m.set i b)
  | some _ => do
    let p := m.table.next addr
    let m := (m.new addr b.cap_).set i { b with buf_ := some p }
    let live ← m.read b.buf_ b.b_ b.getSize
    m.write (some p) b.b_ live

/-- `operator=` -/
def assign (m : BufferHeap) (i j addr : Nat) : Except Fault BufferHeap :=
  if i = j then .ok m
  else
    let o := m.obj i
    ((m.delete o.buf_).set i { o with buf_ := none }).copyFrom i (m.obj j) addr

/-- `~Buffer`; whoever uses the storage next constructs a buffer there. -/
def destroy (m : BufferHeap) (i : Nat) : BufferHeap :=
  (m.delete (m.obj i).buf_).set i {}

/-- The copy constructor that the compiler provides: member by member. -/
def copyConstruct (m : BufferHeap) (i j : Nat) : BufferHeap := m.set i (m.obj j)

/-! ## What the objects stand for -/

def bytes (m : BufferHeap) : Option (Handle Nat) → List Cell
  | none => []
  | some h => m.cells h.num

def view (m : BufferHeap) : Heap := fun i => (m.obj i).value (m.bytes (m.obj i).buf_)

def ptr (m : BufferHeap) : Nat → Option (Handle Nat) := fun i => (m.obj i).buf_

/-- Every allocation is in one object's `buf_`, or has been deleted once. -/
def Owned (m : BufferHeap) : Prop := Ledger m.table (Ledger.slots m.ptr)

/-- From `m` to `m'` the value of the object `i` has become `s`, and nothing else has
    changed. -/
structure Becomes (m m' : BufferHeap) (i : Nat) (s : Buffer) : Prop where
  owned : m'.Owned
  view_eq : m'.view = Function.update m.view i s
  others : ∀ k, k ≠ i → m'.obj k = m.obj k

/-! ## Reading and writing through an owned pointer -/

section spec

variable {m m' m'' : BufferHeap} {i j addr : Nat} {h : Handle Nat}

@[simp] theorem ptr_set (m : BufferHeap) (i : Nat) (o : BufferObject) :
    (m.set i o).ptr = Function.update m.ptr i o.buf_ := by
  funext k
  by_cases hk : k = i
  · simp [ptr, set, hk]
  · simp [ptr, set, hk]

/-- An object set to `o` stands for what `o` says about the bytes it points to. -/
theorem view_set (m : BufferHeap) (i : Nat) (o : BufferObject) :
    (m.set i o).view = Function.update m.view i (o.value (m.bytes o.buf_)) := by
  funext k
  by_cases hk : k = i
  · rw [hk, Function.update_self]
    simp only [view, set, Function.update_self]
    rfl
  · rw [Function.update_of_ne hk]
    simp only [view, set, Function.update_of_ne hk]
    rfl

theorem set_others (m : BufferHeap) (i : Nat) (o : BufferObject) :
    ∀ k, k ≠ i → (m.set i o).obj k = m.obj k :=
  fun _ hk => Function.update_of_ne hk _ _

/-- An object whose fields and bytes are untouched keeps its value. -/
theorem view_congr {k : Nat} (hobj : m'.obj k = m.obj k)
    (hcells : ∀ h, m.ptr k = some h → m'.cells h.num = m.cells h.num) :
    m'.view k = m.view k := by
  unfold view
  rw [hobj]
  congr 1
  cases hp : (m.obj k).buf_ with
  | none => rfl
  | some h => exact hcells h hp

theorem Owned.apart (ho : m.Owned) {h' : Handle Nat} (hi : m.ptr i = some h)
    (hj : m.ptr j = some h') (hne : i ≠ j) : h.num ≠ h'.num := by
  intro hnum
  exact hne (ho.unique hi hj hnum).1

/-- The allocator does not answer with an address that is in use. -/
theorem Owned.ne_free (ho : m.Owned) (hi : m.ptr i = some h)
    (hfree : m.table.owner addr = none) : h.num ≠ addr := by
  intro hnum
  have hopen : m.table.owner h.num = some h.gen := ho.isOpen hi
  rw [hnum, hfree] at hopen
  cases hopen

theorem Owned.read (ho : m.Owned) (i off n : Nat) :
    m.read (m.ptr i) off n = load (m.view i).buf_ off n := by
  have hview : (m.view i).buf_ = m.bytes (m.ptr i) := rfl
  rw [hview]
  cases hp : m.ptr i with
  | none => rfl
  | some h =>
    have hopen : m.table.owner h.num = some h.gen := ho.isOpen hp
    show (if (m.table.owner h.num).isSome then load (m.cells h.num) off n else _) = _
    rw [hopen]
    rfl

/-- A store into the allocation of one object leaves the others alone. -/
theorem Owned.write (ho : m.Owned) {off : Nat} {data mem : List Cell}
    (hstore : store (m.view i).buf_ off data = .ok mem) :
    ∃ m', m.write (m.ptr i) off data = .ok m' ∧
      Becomes m m' i { m.view i with buf_ := mem } := by
  have hview : (m.view i).buf_ = m.bytes (m.ptr i) := rfl
  cases hp : m.ptr i with
  | none =>
    rw [hview, hp] at hstore
    have hmem : mem = [] := List.eq_nil_of_length_eq_zero (length_store hstore)
    refine ⟨m, ?_, ho, ?_, fun _ _ => rfl⟩
    · show (store [] off data >>= fun _ => pure m) = _
      have hstore' : store [] off data = .ok mem := hstore
      rw [hstore']
      rfl
    · have hsame : ({ m.view i with buf_ := mem } : Buffer) = m.view i := by
        have hnil : (m.view i).buf_ = [] := by rw [hview, hp]; rfl
        rw [hmem, ← hnil]
      rw [hsame, Function.update_eq_self]
  | some h =>
    have hopen : m.table.owner h.num = some h.gen := ho.isOpen hp
    have hstore' : store (m.cells h.num) off data = .ok mem := by
      rw [hview, hp] at hstore
      exact hstore
    refine ⟨{ m with cells := Function.update m.cells h.num mem }, ?_, ho, ?_, fun _ _ => rfl⟩
    · simp only [BufferHeap.write, hopen, Option.isSome_some, if_true]
      rw [bind_of_ok hstore']
      rfl
    · funext k
      by_cases hk : k = i
      · subst hk
        have hp' : (m.obj k).buf_ = some h := hp
        rw [Function.update_self]
        simp only [view, hp', bytes, Function.update_self]
        rfl
      · rw [Function.update_of_ne hk]
        refine view_congr rfl ?_
        intro h' hp'
        exact Function.update_of_ne (ho.apart hp' hp hk) _ _

/-- Several changes of one object. -/
theorem Becomes.trans {s s' : Buffer} (hb : Becomes m m' i s) (hb' : Becomes m' m'' i s') :
    Becomes m m'' i s' := by
  refine ⟨hb'.owned, ?_, ?_⟩
  · rw [hb'.view_eq, hb.view_eq, Function.update_idem]
  · intro k hk
    rw [hb'.others k hk, hb.others k hk]

/-- A change of fields that leaves the pointer alone. -/
theorem Owned.set (ho : m.Owned) {o : BufferObject} (hbuf : o.buf_ = m.ptr i) :
    Becomes m (m.set i o) i (o.value (m.view i).buf_) := by
  refine ⟨?_, ?_, set_others m i o⟩
  · show Ledger m.table (Ledger.slots (m.set i o).ptr)
    rw [ptr_set, hbuf, Function.update_eq_self]
    exact ho
  · rw [view_set, hbuf]
    rfl

/-! ## The functions, one by one -/

/-- `delete[]` of the old allocation and `o` in place of the object. -/
theorem Owned.release (ho : m.Owned) {o : BufferObject} (hbuf : o.buf_ = none) :
    Becomes m ((m.delete (m.ptr i)).set i o) i (o.value []) := by
  refine ⟨?_, ?_, set_others _ i o⟩
  · show Ledger (m.table.release (m.ptr i)) (Ledger.slots ((m.delete (m.ptr i)).set i o).ptr)
    rw [ptr_set, hbuf]
    exact ho.slots_release i
  · rw [view_set, hbuf]
    rfl

theorem Owned.clear (ho : m.Owned) (i : Nat) : Becomes m (m.clear i) i (m.view i).clear :=
  ho.release rfl

theorem Owned.destroy (ho : m.Owned) (i : Nat) : Becomes m (m.destroy i) i {} :=
  ho.release rfl

theorem Owned.consume (ho : m.Owned) (i len : Nat) :
    Becomes m (m.consume i len) i ((m.view i).consume len) := by
  let o : BufferObject := { m.obj i with b_ := sizeT ((m.obj i).b_ + len) }
  have hset : Becomes m (m.set i o) i (o.value (m.view i).buf_) := ho.set rfl
  have hview : (m.set i o).view i = o.value (m.view i).buf_ := by
    rw [hset.view_eq, Function.update_self]
  show Becomes m (if o.getSize = 0 then (m.set i o).clear i else m.set i o) i
    (if o.getSize = 0 then (o.value (m.view i).buf_).clear else o.value (m.view i).buf_)
  by_cases hzero : o.getSize = 0
  · rw [if_pos hzero, if_pos hzero, ← hview]
    exact hset.trans (hset.owned.clear i)
  · rw [if_neg hzero, if_neg hzero]
    exact hset

theorem Owned.setSuggestSize (ho : m.Owned) (i sz : Nat) :
    Becomes m (m.setSuggestSize i sz) i { m.view i with exp_ := sz } :=
  ho.set rfl

/-- `Expand` takes the new allocation before it gives the old one back. -/
theorem Owned.expand (ho : m.Owned) (hfree : m.table.owner addr = none) {len : Nat} {s : Buffer}
    (hval : (m.view i).expand len = .ok s) :
    ∃ m', m.expand i len addr = .ok m' ∧ Becomes m m' i s := by
  obtain ⟨live, hload, hval⟩ := bind_ok hval
  obtain ⟨mem, hstore, hval⟩ := bind_ok hval
  cases hval
  let o := m.obj i
  let ncap := max o.exp_ (max (sizeT (2 * o.cap_)) (sizeT (o.getSize + len)))
  let p := m.table.next addr
  let m₁ := m.new addr ncap
  let m₂ : BufferHeap := { m₁ with cells := Function.update m₁.cells addr mem }
  let o' : BufferObject :=
    { o with buf_ := some p, e_ := sizeSub o.e_ o.b_, b_ := 0, cap_ := ncap }
  -- The old contents are still there, as the new allocation is elsewhere.
  have hread : m₁.read o.buf_ o.b_ o.getSize = .ok live := by
    have hold := ho.read i o.b_ o.getSize
    rw [← hload]
    refine Eq.trans ?_ hold
    show m₁.read (m.ptr i) _ _ = m.read (m.ptr i) _ _
    cases hp : m.ptr i with
    | none => rfl
    | some h =>
      have hne := ho.ne_free hp hfree
      simp only [BufferHeap.read, m₁, new, Table.acquire, Function.update_of_ne hne]
  have hwrite : m₁.write (some p) 0 live = .ok m₂ := by
    have hcells : m₁.cells addr = List.replicate ncap none := Function.update_self _ _ _
    have hopen : m₁.table.owner addr = some m.table.fresh := Function.update_self _ _ _
    have hstore' : store (m₁.cells addr) 0 live = .ok mem := by
      rw [hcells]
      exact hstore
    show (if (m₁.table.owner addr).isSome then _ else _) = _
    rw [hopen, Option.isSome_some, if_pos rfl]
    exact bind_of_ok hstore' _
  refine ⟨(m₂.delete o.buf_).set i o', ?_, ?_, ?_, set_others _ i o'⟩
  · show (m₁.read o.buf_ o.b_ o.getSize >>= fun live => m₁.write (some p) 0 live >>= fun m =>
      Except.ok ((m.delete o.buf_).set i o')) = _
    rw [bind_of_ok hread, bind_of_ok hwrite]
  · show Ledger ((m.table.acquire addr).release (m.ptr i))
      (Ledger.slots ((m₂.delete o.buf_).set i o').ptr)
    rw [ptr_set]
    exact ho.slots_replace hfree i
  · rw [view_set]
    funext k
    by_cases hk : k = i
    · rw [hk, Function.update_self, Function.update_self]
      have hmem : (m₂.delete o.buf_).bytes o'.buf_ = mem := Function.update_self _ _ _
      rw [hmem]
      rfl
    · rw [Function.update_of_ne hk, Function.update_of_ne hk]
      refine view_congr rfl ?_
      intro h hp
      have hne := ho.ne_free hp hfree
      show Function.update (Function.update m.cells addr _) addr mem h.num = m.cells h.num
      rw [Function.update_of_ne hne, Function.update_of_ne hne]

theorem Owned.becomes_self (ho : m.Owned) (i : Nat) : Becomes m m i (m.view i) :=
  ⟨ho, by rw [Function.update_eq_self], fun _ _ => rfl⟩

theorem Owned.makeRoom (ho : m.Owned) (hfree : m.table.owner addr = none) {len : Nat} {s : Buffer}
    (hval : (m.view i).makeRoom len = .ok s) :
    ∃ m', m.makeRoom i len addr = .ok m' ∧ Becomes m m' i s := by
  let o := m.obj i
  have hval' : (if sizeT (o.e_ + len) ≤ o.cap_ then .ok (m.view i)
      else if sizeT (o.getSize + len) < o.cap_ then .ok (m.view i)
      else (m.view i).expand len) = Except.ok s := hval
  show ∃ m', (if sizeT (o.e_ + len) ≤ o.cap_ then .ok m
      else if sizeT (o.getSize + len) < o.cap_ then .ok m
      else m.expand i len addr) = .ok m' ∧ Becomes m m' i s
  by_cases hroom : sizeT (o.e_ + len) ≤ o.cap_
  · rw [if_pos hroom] at hval' ⊢
    cases hval'
    exact ⟨m, rfl, ho.becomes_self i⟩
  · rw [if_neg hroom] at hval' ⊢
    by_cases hmove : sizeT (o.getSize + len) < o.cap_
    · rw [if_pos hmove] at hval' ⊢
      cases hval'
      exact ⟨m, rfl, ho.becomes_self i⟩
    · rw [if_neg hmove] at hval' ⊢
      exact ho.expand hfree hval'

theorem Owned.makeRoomSuggested (ho : m.Owned) (hfree : m.table.owner addr = none) {s : Buffer}
    (hval : (m.view i).makeRoomSuggested = .ok s) :
    ∃ m', m.makeRoomSuggested i addr = .ok m' ∧ Becomes m m' i s := by
  let o := m.obj i
  have hval' : (if o.getSpace < o.exp_ then (m.view i).expand 0 else .ok (m.view i)) =
      Except.ok s := hval
  show ∃ m', (if o.getSpace < o.exp_ then m.expand i 0 addr else .ok m) = .ok m' ∧ Becomes m m' i s
  by_cases hspace : o.getSpace < o.exp_
  · rw [if_pos hspace] at hval' ⊢
    exact ho.expand hfree hval'
  · rw [if_neg hspace] at hval' ⊢
    cases hval'
    exact ⟨m, rfl, ho.becomes_self i⟩

theorem Owned.allocRoom (ho : m.Owned) (hfree : m.table.owner addr = none) {len room : Nat}
    {s : Buffer} (hval : (m.view i).allocRoom len = .ok (s, room)) :
    ∃ m', m.allocRoom i len addr = .ok (m', room) ∧ Becomes m m' i s := by
  obtain ⟨s₁, hmake, hval⟩ := bind_ok hval
  cases hval
  obtain ⟨m₁, hm₁, hb⟩ := ho.makeRoom hfree hmake
  have hview : m₁.view i = s₁ := by rw [hb.view_eq, Function.update_self]
  let o : BufferObject := { m₁.obj i with e_ := sizeT ((m₁.obj i).e_ + len) }
  have hset : Becomes m₁ (m₁.set i o) i (o.value (m₁.view i).buf_) := hb.owned.set rfl
  refine ⟨m₁.set i o, ?_, ?_⟩
  · show (m.makeRoom i len addr >>= fun m => _) = _
    rw [bind_of_ok hm₁, ← hview]
    rfl
  · have hsize : o.value (m₁.view i).buf_ = s₁.addSize len := by
      rw [← hview]
      rfl
    rw [hsize] at hset
    exact hb.trans hset

/-- What `Append` copies may lie in the memory of another buffer: making room
    here does not move it. -/
theorem Owned.append (ho : m.Owned) (hfree : m.table.owner addr = none)
    {src : BufferHeap → Except Fault (List Cell)} {data : List Cell} {s : Buffer}
    (hsrc : ∀ m₁ s₁, Becomes m m₁ i s₁ → src m₁ = .ok data)
    (hval : (m.view i).append data = .ok s) :
    ∃ m', m.append i src data.length addr = .ok m' ∧ Becomes m m' i s := by
  obtain ⟨⟨s₁, room⟩, halloc, hval⟩ := bind_ok hval
  obtain ⟨mem, hstore, hval⟩ := bind_ok hval
  cases hval
  obtain ⟨m₁, hm₁, hb⟩ := ho.allocRoom hfree halloc
  have hview : m₁.view i = s₁ := by rw [hb.view_eq, Function.update_self]
  rw [← hview] at hstore
  obtain ⟨m₂, hm₂, hb'⟩ := hb.owned.write hstore
  rw [hview] at hb'
  refine ⟨m₂, ?_, hb.trans hb'⟩
  show (m.allocRoom i data.length addr >>= fun (m, room) => _) = _
  rw [bind_of_ok hm₁]
  show (src m₁ >>= fun data => m₁.write (m₁.ptr i) room data) = _
  rw [bind_of_ok (hsrc m₁ s₁ hb)]
  exact hm₂

theorem Owned.absorb (ho : m.Owned) (hfree : m.table.owner addr = none) (hij : i ≠ j)
    {s b : Buffer} (hval : (m.view i).absorb (m.view j) = .ok (s, b)) :
    ∃ m', m.absorb i j addr = .ok m' ∧ m'.Owned ∧
      m'.view = Function.update (Function.update m.view i s) j b := by
  unfold BufferHeap.absorb
  rw [if_neg hij]
  by_cases hzero : (m.obj i).getSize = 0
  · -- The pointers change places.
    have hval' : (m.view i).absorb (m.view j) =
        .ok ({ m.view j with exp_ := (m.obj i).exp_ },
          { m.view i with exp_ := (m.obj j).exp_ }) := if_pos hzero
    rw [hval] at hval'
    cases hval'
    refine ⟨_, if_pos hzero, ?_, ?_⟩
    · show Ledger m.table (Ledger.slots ((m.set i _).set j _).ptr)
      rw [ptr_set, ptr_set]
      have hswap := Ledger.slots_perm ho (Equiv.swap i j)
      have hptr : m.ptr ∘ Equiv.swap i j =
          Function.update (Function.update m.ptr i (m.ptr j)) j (m.ptr i) := by
        funext k
        by_cases hk : k = j
        · rw [hk, Function.update_self, Function.comp, Equiv.swap_apply_right]
        · rw [Function.update_of_ne hk]
          by_cases hki : k = i
          · rw [hki, Function.update_self, Function.comp, Equiv.swap_apply_left]
          · rw [Function.update_of_ne hki, Function.comp, Equiv.swap_apply_of_ne_of_ne hki hk]
      rw [hptr] at hswap
      exact hswap
    · rw [view_set, view_set]
      rfl
  · obtain ⟨data, hload, hval⟩ := bind_ok ((if_neg hzero).symm.trans hval)
    obtain ⟨s', happ, hval⟩ := bind_ok hval
    cases hval
    have hlen : data.length = (m.obj j).getSize := length_load hload
    have hsrc : ∀ m₁ s₁, Becomes m m₁ i s₁ →
        m₁.read (m.obj j).buf_ (m.obj j).b_ (m.obj j).getSize = .ok data := by
      intro m₁ s₁ hb
      have hread := hb.owned.read j (m.obj j).b_ (m.obj j).getSize
      rw [hb.view_eq, Function.update_of_ne hij.symm, ptr, hb.others j hij.symm] at hread
      exact hread.trans hload
    obtain ⟨m₁, hm₁, hb⟩ := ho.append hfree hsrc happ
    rw [hlen] at hm₁
    have hclear := hb.owned.clear j
    refine ⟨m₁.clear j, ?_, hclear.owned, ?_⟩
    · rw [if_neg hzero, bind_of_ok hm₁]
      rfl
    · rw [hclear.view_eq, hb.view_eq, Function.update_of_ne hij.symm]

/-- `operator=` copies the contents into an allocation of its own, which may well
    be the one that it has just given back. -/
theorem Owned.assign (ho : m.Owned) (hij : i ≠ j)
    (hfree : (m.delete (m.ptr i)).table.owner addr = none) (hwf : (m.view j).WF) :
    ∃ m' s, m.assign i j addr = .ok m' ∧ Becomes m m' i s ∧ s.WF ∧
      s.contents = (m.view j).contents := by
  let m₀ := (m.delete (m.ptr i)).set i { m.obj i with buf_ := none }
  let b := m.obj j
  have h₀ : Becomes m m₀ i _ := ho.release rfl
  have hstep : m.assign i j addr = m₀.copyFrom i b addr := if_neg hij
  rw [hstep]
  have hview : m₀.view j = m.view j := by
    rw [h₀.view_eq, Function.update_of_ne hij.symm]
  have hptr : m₀.ptr i = none := by
    show ((m.delete (m.ptr i)).set i { m.obj i with buf_ := none }).ptr i = none
    rw [ptr_set, Function.update_self]
  cases hp : b.buf_ with
  | none =>
    have hbuf : b.buf_ = m₀.ptr i := by rw [hp, hptr]
    have hsame : b.value (m₀.view i).buf_ = m.view j := by
      have hnil : (m₀.view i).buf_ = [] := by
        show m₀.bytes (m₀.ptr i) = []
        rw [hptr]
        rfl
      have hnil' : (m.view j).buf_ = [] := by
        show m.bytes b.buf_ = []
        rw [hp]
        rfl
      rw [hnil, ← hnil']
      rfl
    have hset := h₀.owned.set hbuf
    rw [hsame] at hset
    refine ⟨m₀.set i b, m.view j, ?_, h₀.trans hset, hwf, rfl⟩
    rw [copyFrom, hp]
  | some h =>
    let p := m₀.table.next addr
    let b' : BufferObject := { b with buf_ := some p }
    let m₁ := (m₀.new addr b.cap_).set i b'
    have hptr₁ : m₁.ptr i = some p := by rw [ptr_set, Function.update_self]
    have hbytes : ((m₀.new addr b.cap_).bytes b'.buf_) = List.replicate b.cap_ none :=
      Function.update_self _ _ _
    have hview₁ : m₁.view i = { m.view j with buf_ := List.replicate b.cap_ none } := by
      rw [view_set, Function.update_self, hbytes]
      rfl
    have h₁ : Becomes m₀ m₁ i (m₁.view i) := by
      refine ⟨?_, ?_, set_others _ i b'⟩
      · show Ledger (m₀.table.acquire addr) (Ledger.slots m₁.ptr)
        rw [ptr_set]
        exact Ledger.slots_acquire h₀.owned hfree hptr
      · funext k
        by_cases hk : k = i
        · rw [hk, Function.update_self]
        · rw [Function.update_of_ne hk]
          refine view_congr (set_others _ i b' k hk) ?_
          intro h' hp'
          exact Function.update_of_ne (h₀.owned.ne_free hp' hfree) _ _
    have hread : m₁.read b.buf_ b.b_ b.getSize = .ok (m.view j).contents := by
      have hread := h₁.owned.read j b.b_ b.getSize
      rw [h₁.view_eq, Function.update_of_ne hij.symm, hview, ptr, h₁.others j hij.symm,
        h₀.others j hij.symm] at hread
      exact hread.trans hwf.load_contents
    obtain ⟨mem, hstore, hmwf, hmcont⟩ := hwf.copy
    have hstore' : store (m₁.view i).buf_ b.b_ (m.view j).contents = .ok mem := by
      rw [hview₁]
      exact hstore
    obtain ⟨m₂, hm₂, h₂⟩ := h₁.owned.write hstore'
    rw [hptr₁] at hm₂
    rw [hview₁] at h₂
    refine ⟨m₂, _, ?_, (h₀.trans h₁).trans h₂, hmwf, hmcont⟩
    rw [copyFrom, hp]
    show (m₁.read (some h) b.b_ b.getSize >>= fun live => m₁.write (some p) b.b_ live) = _
    rw [← hp, bind_of_ok hread]
    exact hm₂

end spec

end BufferHeap

/-! ## Operations -/

inductive ObjectOp where
  | on (op : BufferOp) (addr : Nat)
  | makeRoomSuggested (i addr : Nat)
  | setSuggestSize (i sz : Nat)
  | assign (i j addr : Nat)
  | destroy (i : Nat)
  | copyConstruct (i j : Nat)
  deriving DecidableEq, Repr

namespace ObjectOp

/-- What the code does. -/
def exec (m : BufferHeap) : ObjectOp → Except Fault BufferHeap
  | .on (.append i p) addr => m.append i (fun _ => .ok (p.map some)) p.length addr
  | .on (.allocRoom i len) addr => do
    let (m, _) ← m.allocRoom i len addr
    return m
  | .on (.makeRoom i len) addr => m.makeRoom i len addr
  | .on (.consume i len) _ => .ok (m.consume i len)
  | .on (.absorb i j) addr => m.absorb i j addr
  | .on (.clear i) _ => .ok (m.clear i)
  | .makeRoomSuggested i addr => m.makeRoomSuggested i addr
  | .setSuggestSize i sz => .ok (m.setSuggestSize i sz)
  | .assign i j addr => m.assign i j addr
  | .destroy i => .ok (m.destroy i)
  | .copyConstruct i j => .ok (m.copyConstruct i j)

/-- What it is for. -/
def spec (q : Nat → List Cell) : ObjectOp → Nat → List Cell
  | .on op _ => op.spec q
  | .makeRoomSuggested _ _ => q
  | .setSuggestSize _ _ => q
  | .assign i j _ => Function.update q i (q j)
  | .destroy i => Function.update q i []
  | .copyConstruct i j => Function.update q i (q j)

/-- The allocator answers with an address that is free when it is asked. -/
def Answered (m : BufferHeap) : ObjectOp → Prop
  | .on _ addr => m.table.owner addr = none
  | .makeRoomSuggested _ addr => m.table.owner addr = none
  | .assign i _ addr => (m.delete (m.ptr i)).table.owner addr = none
  | _ => True

/-- The arguments are `size_t` values, no more is consumed than is there, no more
    room is asked for than `MakeRoom` provides, and no buffer is constructed as a
    copy. -/
def Legal (m : BufferHeap) : ObjectOp → Prop
  | .on op _ => op.Legal m.view ∧ op.RoomOk m.view
  | .setSuggestSize _ sz => sz < 2 ^ 64
  | .copyConstruct _ _ => False
  | _ => True

end ObjectOp

/-- The objects stand for well-formed buffers with the contents of the queues. -/
structure ObjectsInv (m : BufferHeap) (q : Nat → List Cell) : Prop where
  owned : m.Owned
  wf : ∀ i, (m.view i).WF
  contents : ∀ i, (m.view i).contents = q i

section run

variable {m m' : BufferHeap} {q : Nat → List Cell} {i j addr : Nat}

theorem ObjectsInv.empty : ObjectsInv BufferHeap.empty (fun _ => []) := by
  refine ⟨?_, fun _ => Buffer.WF.empty, fun _ => rfl⟩
  apply Ledger.empty
  intro i h hi
  cases hi

theorem ObjectsInv.update (hinv : ObjectsInv m q) {s : Buffer} {c : List Cell}
    (hb : m.Becomes m' i s) (hwf : s.WF) (hc : s.contents = c) :
    ObjectsInv m' (Function.update q i c) := by
  refine ⟨hb.owned, ?_, ?_⟩
  · rw [hb.view_eq]
    exact wf_update hinv.wf i hwf
  · rw [hb.view_eq]
    exact contents_update hinv.contents i hc

/-- An operation that leaves the contents as they are. -/
theorem ObjectsInv.update_same (hinv : ObjectsInv m q) {s : Buffer} (hb : m.Becomes m' i s)
    (hwf : s.WF) (hc : s.contents = (m.view i).contents) : ObjectsInv m' q := by
  have hall := hinv.update hb hwf (hc.trans (hinv.contents i))
  rwa [Function.update_eq_self] at hall

theorem ObjectsInv.absorb (hinv : ObjectsInv m q) (hfree : m.table.owner addr = none)
    (hroom : (BufferOp.absorb i j).RoomOk m.view) :
    ∃ m', m.absorb i j addr = .ok m' ∧ ObjectsInv m' ((BufferOp.absorb i j).spec q) := by
  by_cases hij : i = j
  · refine ⟨m, if_pos hij, ?_⟩
    rw [BufferOp.spec, if_pos hij]
    exact hinv
  · obtain ⟨s, b, hval, hswf, hbwf, hscont, hbcont⟩ :=
      (hinv.wf i).absorb (hinv.wf j) (hroom hij)
    obtain ⟨m', hm', hown, hview⟩ := hinv.owned.absorb hfree hij hval
    refine ⟨m', hm', hown, ?_, ?_⟩
    · rw [hview]
      exact wf_update (wf_update hinv.wf i hswf) j hbwf
    · rw [hview, BufferOp.spec, if_neg hij]
      have hboth : s.contents = q i ++ q j := by rw [hscont, hinv.contents, hinv.contents]
      exact contents_update (contents_update hinv.contents i hboth) j hbcont

/-- One operation does to the objects what it does to the queues. -/
theorem ObjectsInv.exec (hinv : ObjectsInv m q) {op : ObjectOp} (hans : op.Answered m)
    (hlegal : op.Legal m) : ∃ m', op.exec m = .ok m' ∧ ObjectsInv m' (op.spec q) := by
  cases op with
  | on op addr =>
    obtain ⟨hargs, hroom⟩ := hlegal
    cases op with
    | append i p =>
      have hfit : (m.view i).Fits (p.map some).length := by
        rw [List.length_map]
        exact hroom
      obtain ⟨s, hs, hwf, hcont⟩ := (hinv.wf i).append hfit
      obtain ⟨m', hm', hb⟩ := hinv.owned.append hans (fun _ _ _ => rfl) hs
      rw [List.length_map] at hm'
      exact ⟨m', hm', hinv.update hb hwf (by rw [hcont, hinv.contents])⟩
    | allocRoom i len =>
      obtain ⟨s, room, hs, hwf, -, -, hcont⟩ := (hinv.wf i).allocRoom hroom
      obtain ⟨m', hm', hb⟩ := hinv.owned.allocRoom hans hs
      refine ⟨m', ?_, hinv.update hb hwf (by rw [hcont, hinv.contents])⟩
      show (m.allocRoom i len addr >>= fun (m, _) => pure m) = _
      rw [bind_of_ok hm']
      rfl
    | makeRoom i len =>
      obtain ⟨s, hs, hwf, hcont, -⟩ := (hinv.wf i).makeRoom hroom
      obtain ⟨m', hm', hb⟩ := hinv.owned.makeRoom hans hs
      exact ⟨m', hm', hinv.update_same hb hwf hcont⟩
    | consume i len =>
      obtain ⟨hwf, hcont⟩ := (hinv.wf i).consume hargs
      refine ⟨_, rfl, hinv.update (hinv.owned.consume i len) hwf ?_⟩
      rw [hcont, hinv.contents]
    | absorb i j => exact hinv.absorb hans hroom
    | clear i => exact ⟨_, rfl, hinv.update (hinv.owned.clear i) (hinv.wf i).clear rfl⟩
  | makeRoomSuggested i addr =>
    have hlen : (m.view i).e_ + 0 < 2 ^ 64 := by
      have h1 := (hinv.wf i).e_le_cap
      have h2 := (hinv.wf i).cap_lt
      omega
    obtain ⟨s, hs, hwf, hcont⟩ : ∃ s, (m.view i).makeRoomSuggested = .ok s ∧ s.WF ∧
        s.contents = (m.view i).contents := by
      unfold Buffer.makeRoomSuggested
      by_cases hspace : (m.view i).getSpace < (m.view i).exp_
      · obtain ⟨s, hs, hwf, hcont, -⟩ := (hinv.wf i).expand hlen
        exact ⟨s, (if_pos hspace).trans hs, hwf, hcont⟩
      · exact ⟨_, if_neg hspace, hinv.wf i, rfl⟩
    obtain ⟨m', hm', hb⟩ := hinv.owned.makeRoomSuggested hans hs
    exact ⟨m', hm', hinv.update_same hb hwf hcont⟩
  | setSuggestSize i sz =>
    exact ⟨_, rfl, hinv.update_same (hinv.owned.setSuggestSize i sz)
      ((hinv.wf i).set_exp hlegal) rfl⟩
  | assign i j addr =>
    by_cases hij : i = j
    · refine ⟨m, if_pos hij, ?_⟩
      rw [ObjectOp.spec, hij, Function.update_eq_self]
      exact hinv
    · obtain ⟨m', s, hm', hb, hwf, hcont⟩ := hinv.owned.assign hij hans (hinv.wf j)
      exact ⟨m', hm', hinv.update hb hwf (hcont.trans (hinv.contents j))⟩
  | destroy i =>
    exact ⟨_, rfl, hinv.update (hinv.owned.destroy i) Buffer.WF.empty rfl⟩
  | copyConstruct i j => exact hlegal.elim

end run

/-! ## Whole runs -/

/-- Run the operations from buffers that have just been constructed. -/
def runObjects (ops : List ObjectOp) : Except Fault BufferHeap :=
  LTS.run ObjectOp.exec BufferHeap.empty ops

def objectQueues (ops : List ObjectOp) : Nat → List Cell :=
  ops.foldl ObjectOp.spec (fun _ => [])

/-- Every operation of the run is legal, and the allocator behaves. -/
def ObjectsKept (ops : List ObjectOp) : Prop :=
  ∀ n (hn : n < ops.length) m, runObjects (ops.take n) = .ok m →
    ops[n].Answered m ∧ ops[n].Legal m

/-- The buffers hold what the queues hold, every allocation is in the `buf_` of one
    buffer or has been deleted once, and each `delete[]` deleted what was meant. -/
structure OwnAllocations (m : BufferHeap) (q : Nat → List Cell) : Prop where
  contents : ∀ i, (m.view i).contents = q i
  once : ∀ g < m.table.fresh, m.table.count g = 1 ∨
    (m.table.count g = 0 ∧ ∃ i n, m.ptr i = some ⟨n, g⟩ ∧ m.table.Open ⟨n, g⟩)
  meant : ∀ c ∈ m.table.closes, c.found = some c.handle.gen
  apart : ∀ i j h h', m.ptr i = some h → m.ptr j = some h' → h.num = h'.num → i = j

/-- **Buffers own their allocations**: no run of legal operations leaves an allocation,
    and it ends with buffers that own theirs. -/
theorem buffers_own_allocations (ops : List ObjectOp) (hkept : ObjectsKept ops) :
    ∃ m, runObjects ops = .ok m ∧ OwnAllocations m (objectQueues ops) := by
  have hstep : ∀ m q op, ObjectsInv m q → op.Answered m ∧ op.Legal m →
      ∃ m', ObjectOp.exec m op = .ok m' ∧ ObjectsInv m' (op.spec q) :=
    fun m q op hinv hcond => hinv.exec hcond.1 hcond.2
  obtain ⟨m, hrun, hinv⟩ := LTS.run_refines hstep ops _ _ ObjectsInv.empty hkept
  refine ⟨m, hrun, hinv.contents, hinv.owned.once, hinv.owned.own, ?_⟩
  intro i j h h' hi hj hnum
  exact (hinv.owned.unique hi hj hnum).1

/-- What a check of the final state says, if the run ends. -/
theorem runObjects_check {ops : List ObjectOp} (p : BufferHeap → Prop) [DecidablePred p]
    (h : (runObjects ops).toOption.all (fun m => decide (p m)) = true) {m : BufferHeap}
    (hrun : runObjects ops = .ok m) : p m := by
  rw [hrun] at h
  exact of_decide_eq_true h

/-- A buffer is filled and assigned to another one twice; the second time the allocator
    answers with what the assignment has just given back. -/
def assignedTwice : List ObjectOp :=
  [.setSuggestSize 0 8, .on (.append 0 [104, 105]) 0, .assign 1 0 1, .assign 1 0 1]

theorem buffers_own_allocations_assigned :
    ∃ m, runObjects assignedTwice = .ok m ∧ OwnAllocations m (objectQueues assignedTwice) := by
  apply buffers_own_allocations assignedTwice
  intro n hn m hrun
  have hcase : n = 0 ∨ n = 1 ∨ n = 2 ∨ n = 3 := by
    have : n < 4 := hn
    omega
  rcases hcase with rfl | rfl | rfl | rfl
  · exact ⟨trivial, show 8 < 2 ^ 64 by norm_num⟩
  · have hfit := runObjects_check (fun m => (m.view 0).Fits 2) (by decide +kernel) hrun
    have hfree := runObjects_check (fun m => m.table.owner 0 = none) (by decide +kernel) hrun
    exact ⟨hfree, show 2 < 2 ^ 64 by norm_num, hfit⟩
  · have hfree := runObjects_check (fun m => (m.delete (m.ptr 1)).table.owner 1 = none)
      (by decide +kernel) hrun
    exact ⟨hfree, trivial⟩
  · have hfree := runObjects_check (fun m => (m.delete (m.ptr 1)).table.owner 1 = none)
      (by decide +kernel) hrun
    exact ⟨hfree, trivial⟩

/-! ## Copies -/

/-- A buffer constructed as a copy of another one has the other one's allocation, which
    both destructors delete. -/
theorem copy_deleted_twice (m : BufferHeap) {i j : Nat} {h : Handle Nat} (hij : i ≠ j)
    (hj : m.ptr j = some h) : (((m.copyConstruct i j).destroy i).destroy j).table.Bad := by
  have hi : (m.copyConstruct i j).ptr i = some h := by
    rw [BufferHeap.copyConstruct, BufferHeap.ptr_set, Function.update_self]
    exact hj
  have hj' : ((m.copyConstruct i j).destroy i).ptr j = some h := by
    show (((m.copyConstruct i j).delete _).set i {}).ptr j = some h
    rw [BufferHeap.ptr_set, Function.update_of_ne hij.symm]
    show (m.set i (m.obj j)).ptr j = some h
    rw [BufferHeap.ptr_set, Function.update_of_ne hij.symm, hj]
  show ((m.table.release ((m.copyConstruct i j).ptr i)).release
    (((m.copyConstruct i j).destroy i).ptr j)).Bad
  rw [hi, hj']
  refine ⟨⟨h, none⟩, ?_, nofun⟩
  apply List.mem_append_right
  rw [List.mem_singleton]
  show (⟨h, none⟩ : CloseCall Nat) = ⟨h, Function.update m.table.owner h.num none h.num⟩
  rw [Function.update_self]

end JNet
