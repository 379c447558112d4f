import JNet.Raft.LogLayout

/-! # Reading a log, and cutting it back

    Three questions about a log that was built by `SetFirstIndex` and `Append`:
    whether `Truncate` undoes the appends, whether the index accessors agree
    with the entries, and whether `Get` returns the entry that was appended.
-/

namespace JNet

open Memory

namespace RaftLog

variable {pb : Protobuf LogEntry}

/-! ## Cutting back -/

/-- `l` is the log from before the entry at `i` was appended, and so the next
    entry is the one at `i`. -/
structure CutBack (pb : Protobuf LogEntry) (f : Int) (es : List PaddedEntry) (i : Int)
    (l : RaftLog) : Prop where
  same : l = built pb f (es.take (i - f).toNat)
  last : l.lastIndex = toInt64 (i - 1)
  next : ∀ e : PaddedEntry, (pb.serialize e).length < 2 ^ 31 →
    (l.append pb e e.padding).lastIndex = toInt64 i ∧
      (l.append pb e e.padding).entry i = .ok (l.bytes_, e.term)

theorem logOf_cutBack {f : Int} {es : List PaddedEntry} {k : Nat} (hk : k ≤ es.length)
    (hbound : k < 2 ^ 64) (hsmall : ∀ e ∈ es, (pb.serialize e).length < 2 ^ 31) :
    CutBack pb f es (f + k) (logOf pb f (es.take k)) := by
  have hcount : (f + k - f).toNat = k := by omega
  have hlen : (es.take k).length = k := by
    rw [List.length_take]
    omega
  refine ⟨?_, ?_, ?_⟩
  · rw [hcount, built_eq]
    intro e he
    exact hsmall e (List.mem_of_mem_take he)
  · rw [lastIndex_logOf, hlen, Int.add_comm f]
  · intro e he
    have hget : (es.take k ++ [e])[k]? = some e := by
      rw [List.getElem?_append_right (by omega), hlen, Nat.sub_self]
      rfl
    have hend : Records.endOf (sizes pb (es.take k ++ [e])) k = (sizes pb (es.take k)).sum := by
      rw [← sizes_take, List.take_left' hlen]
    rw [append_eq (logOf_atEnd pb f _) he, extend_logOf, lastIndex_logOf, entry_logOf hbound, hget,
      hend]
    refine ⟨?_, rfl⟩
    rw [List.length_append, hlen]
    congr 1
    push_cast [List.length_singleton]
    ring

/-- `Truncate` undoes the appends exactly when it is one append that is undone:
    of a longer tail the elements behind the first stay in the table. -/
theorem truncate_undoes_iff {f i : Int} {es : List PaddedEntry} (hf : Bytes.FitsSigned 8 f)
    (hi : Bytes.FitsSigned 8 i) (hlow : f ≤ i) (hhigh : i ≤ f + es.length - 1)
    (hsmall : ∀ e ∈ es, (pb.serialize e).length < 2 ^ 31) :
    (∃ l, truncate (built pb f es) i = .ok l ∧ CutBack pb f es i l) ↔
      i = f + es.length - 1 := by
  obtain ⟨k, rfl⟩ : ∃ k : Nat, i = f + k := ⟨(i - f).toNat, by omega⟩
  have hk : k < es.length := by omega
  have hbound : k < 2 ^ 64 := by
    have := hf.1
    have := hi.2
    omega
  rw [built_eq hsmall, truncate_at hk hbound]
  constructor
  · intro hcase
    rcases hcase with ⟨l, hl, hcut⟩
    obtain rfl := Except.ok.inj hl
    have hsame := hcut.same.trans (logOf_cutBack (Nat.le_of_lt hk) hbound hsmall).same.symm
    -- The tables are of equal length, so nothing is left of the tail.
    have hlen := congrArg (·.offset_term_.length) hsame
    simp only [truncated, logOf_offset_term, List.length_append, length_table,
      List.length_drop] at hlen
    omega
  · intro hlast
    have hnil : es.drop (k + 1) = [] := List.drop_eq_nil_of_le (by omega)
    refine ⟨_, rfl, ?_⟩
    rw [hnil, truncated_nil]
    exact logOf_cutBack (Nat.le_of_lt hk) hbound hsmall

/-- The second of two entries is taken back. -/
theorem truncate_undoes_second :
    ∃ l, truncate (built protoFormat 1 [dataEntry 1 1 [65], dataEntry 2 2 [66]]) 2 = .ok l ∧
      CutBack protoFormat 1 [dataEntry 1 1 [65], dataEntry 2 2 [66]] 2 l :=
  (truncate_undoes_iff (by decide) (by decide) (by decide) (by decide) (by decide)).mpr
    (by decide)

/-- The first of two entries is not: the table keeps an element for the second,
    behind the end of the file. -/
theorem truncate_keeps_second :
    ¬ ∃ l, truncate (built protoFormat 1 [dataEntry 1 1 [65], dataEntry 2 2 [66]]) 1 = .ok l ∧
      CutBack protoFormat 1 [dataEntry 1 1 [65], dataEntry 2 2 [66]] 1 l := by
  intro hcase
  rcases hcase with ⟨l, hl, hcut⟩
  rw [built_eq (by decide), truncate_first] at hl
  obtain rfl := Except.ok.inj hl
  exact absurd hcut.last (by decide)

/-! ## The index accessors -/

/-- A log as it is constructed over some storage, or one built by `SetFirstIndex`
    and `Append`. -/
inductive Made (pb : Protobuf LogEntry) : RaftLog → Int → List PaddedEntry → Prop where
  | constructed (storage : Storage) : Made pb { storage_ := storage } (-1) []
  | appended {f : Int} {es : List PaddedEntry} (hf : Bytes.FitsSigned 8 f)
      (hlen : es.length < 2 ^ 64)
      (hsmall : ∀ e ∈ es, (pb.serialize e).length < 2 ^ 31) :
      Made pb (built pb f es) f es

theorem map_table (pb : Protobuf LogEntry) (off : Nat) (es : List PaddedEntry) :
    (table pb off es).map (·.2) = es.map (·.term) := by
  induction es generalizing off with
  | nil => rfl
  | cons e es ih => simp [table, ih]

namespace Made

variable {l : RaftLog} {f : Int} {es : List PaddedEntry}

theorem first (h : Made pb l f es) : l.firstIndex_ = f := by
  cases h with
  | constructed storage => rfl
  | appended hf hlen hsmall => rw [built_eq hsmall, logOf_firstIndex]

/-- The terms in the table are those of the entries. -/
theorem terms (h : Made pb l f es) : l.offset_term_.map (·.2) = es.map (·.term) := by
  cases h with
  | constructed storage => rfl
  | appended hf hlen hsmall => rw [built_eq hsmall, logOf_offset_term, map_table]

theorem length_eq (h : Made pb l f es) : l.offset_term_.length = es.length := by
  have := congrArg List.length h.terms
  simpa using this

theorem fits (h : Made pb l f es) : Bytes.FitsSigned 8 f := by
  cases h with
  | constructed storage => decide
  | appended hf hlen hsmall => exact hf

theorem length_lt (h : Made pb l f es) : es.length < 2 ^ 64 := by
  cases h with
  | constructed storage => decide
  | appended hf hlen hsmall => exact hlen

theorem lastIndex_eq (h : Made pb l f es) : l.lastIndex = toInt64 (f + es.length - 1) := by
  rw [lastIndex, h.first, h.length_eq, Int.add_comm f]

/-- What `ContainLog` says, in terms of the entries. -/
theorem containLog_iff (h : Made pb l f es) {i t : Int} :
    l.containLog i t = true ↔ ∃ e, es[toSize (i - f)]? = some e ∧ e.term = t := by
  have hterm := congrArg (·[toSize (i - f)]?) h.terms
  simp only [List.getElem?_map] at hterm
  rw [RaftLog.containLog_iff, h.first]
  constructor
  · intro hcase
    rcases hcase with ⟨x, hx, rfl⟩
    rw [hx] at hterm
    simpa using hterm.symm
  · intro hcase
    rcases hcase with ⟨e, he, rfl⟩
    rw [he] at hterm
    simpa using hterm

end Made

/-- The entry the accessors should see at `i`. -/
def entryAt (l : RaftLog) (es : List PaddedEntry) (i : Int) : Option PaddedEntry :=
  if l.firstIndex ≤ i ∧ i ≤ l.lastIndex then es[(i - l.firstIndex).toNat]? else none

/-- The accessors agree with the entries at `i`. -/
structure AccessorsAgree (l : RaftLog) (es : List PaddedEntry) (i : Int) : Prop where
  last : l.lastIndex = toInt64 (l.firstIndex + es.length - 1)
  contain : ∀ t, l.containLog i t = true ↔ ∃ e, entryAt l es i = some e ∧ e.term = t
  term : l.term i = .ok ((entryAt l es i).elim 0 (·.term))
  /-- A valid index, which `ContainLog` looks up, is inside the table. -/
  inside : l.validIndex i = true → ∃ x, l.entry i = .ok x

/-- `LastIndex` is the index of the last entry unless that is out of range. -/
theorem Made.le_lastIndex {l : RaftLog} {f i : Int} {es : List PaddedEntry} (h : Made pb l f es)
    (hlow : f ≤ i) (hlast : i ≤ l.lastIndex) (hpos : es ≠ []) :
    f + es.length ≤ 2 ^ 63 := by
  have hne : 0 < es.length := List.length_pos_iff.mpr hpos
  have hlen := h.length_lt
  obtain ⟨hfl, hfh⟩ := h.fits
  rw [h.lastIndex_eq] at hlast
  unfold toInt64 Int.bmod at hlast
  dsimp only at hlast
  split at hlast <;> omega

/-- The accessors agree at an index exactly when it is that of an entry, and the
    term of this entry is 0: the test of `Term` is the wrong way round. -/
theorem accessors_agree_iff {l : RaftLog} {f i : Int} {es : List PaddedEntry}
    (h : Made pb l f es) (hi : Bytes.FitsSigned 8 i) :
    AccessorsAgree l es i ↔
      f + es.length ≤ 2 ^ 63 ∧ ∃ k : Nat, i = f + k ∧ ∃ e, es[k]? = some e ∧ e.term = 0 := by
  have hfirst : l.firstIndex = f := h.first
  constructor
  · intro hcase
    rcases hcase with ⟨-, hcontain, hterm, -⟩
    -- An invalid index is looked up, so this one is valid.
    have hvalid : l.validIndex i = true := by
      by_contra hno
      rw [Bool.not_eq_true] at hno
      rw [term_invalid hno] at hterm
      cases hterm
    have hpos := validIndex_iff.mp hvalid
    rw [h.length_eq, h.first] at hpos
    obtain ⟨e, he, -⟩ := (hcontain _).mp
      (h.containLog_iff.mpr ⟨_, List.getElem?_eq_getElem hpos, rfl⟩)
    rw [he, term, if_pos hvalid] at hterm
    unfold entryAt at he
    split at he
    · next hrange =>
      rw [hfirst] at he hrange
      have hne : es ≠ [] := by
        rintro rfl
        cases he
      exact ⟨h.le_lastIndex hrange.1 hrange.2 hne, (i - f).toNat, by omega, e, he,
        (Except.ok.inj hterm).symm⟩
    · cases he
  · intro hcase
    rcases hcase with ⟨hbound, k, rfl, e, he, hzero⟩
    obtain ⟨hk, -⟩ := List.getElem?_eq_some_iff.mp he
    have hlast : l.lastIndex = f + es.length - 1 := by
      have := h.fits.1
      rw [h.lastIndex_eq, toInt64_of_fits (by omega) (by omega)]
    have hpos : toSize (f + k - f) = k := toSize_add_sub f (by have := h.length_lt; omega)
    have hat : entryAt l es (f + k) = some e := by
      rw [entryAt, hfirst, hlast, if_pos (by omega), ← he]
      congr 1
      omega
    refine ⟨?_, ?_, ?_, entry_of_valid⟩
    · rw [h.lastIndex_eq, hfirst]
    · intro t
      rw [h.containLog_iff, hpos, hat, he]
    · have hvalid : l.validIndex (f + k) = true := by
        rw [validIndex_iff, h.first, hpos, h.length_eq]
        exact hk
      rw [term, if_pos hvalid, hat]
      simp [hzero]

/-- At an entry of term 0 they agree. -/
theorem accessors_agree_zero :
    AccessorsAgree (built protoFormat 1 [dataEntry 0 1 [65], dataEntry 2 2 [66]])
      [dataEntry 0 1 [65], dataEntry 2 2 [66]] 1 :=
  (accessors_agree_iff (.appended (by decide) (by decide) (by decide)) (by decide)).mpr
    ⟨by decide, 0, by decide, dataEntry 0 1 [65], rfl, rfl⟩

/-- Of the only entry, of term 2, `Term` says 0; of the index behind it, it says
    nothing at all. -/
theorem accessors_disagree :
    ¬ AccessorsAgree (built protoFormat 1 [dataEntry 2 1 [65]]) [dataEntry 2 1 [65]] 1 ∧
      ¬ AccessorsAgree (built protoFormat 1 [dataEntry 2 1 [65]]) [dataEntry 2 1 [65]] 2 := by
  constructor
  · intro h
    exact absurd h.term (by decide)
  · intro h
    exact absurd h.term (by decide)

end RaftLog

/-! ## Entries on the wire -/

namespace LogEntry

/-- The fields on the wire: each behind its tag, the command behind its length. -/
def wireType (e : LogEntry) : Bytes := [0x08, e.type.number]

def wireTerm (e : LogEntry) : Bytes := 0x10 :: Bytes.varint 10 (toSize e.term)

def wireIndex (e : LogEntry) : Bytes := 0x18 :: Bytes.varint 10 (toSize e.index)

def wireCommand (e : LogEntry) : Bytes := 0x22 :: (Bytes.varint 10 e.command.length ++ e.command)

/-- The proto2 wire format of `LogEntry`. -/
def wire (e : LogEntry) : Bytes := e.wireType ++ (e.wireTerm ++ (e.wireIndex ++ e.wireCommand))

/-- `m` is an entry of which the parser has seen the first `n` bytes: the fields
    that were complete are set, the others are left at their defaults, and a command
    is not there as a whole. -/
structure CutAt (e : LogEntry) (n : Nat) (m : LogEntry) : Prop where
  type : m.type = if n < e.wireType.length then .noop else e.type
  term : m.term = if n < (e.wireType ++ e.wireTerm).length then 0 else e.term
  index : m.index = if n < (e.wireType ++ e.wireTerm ++ e.wireIndex).length then 0 else e.index
  command : m.command = e.command ↔ e.command = []

/-- The generated class writes the entry in the wire format, and parses fields in
    the order in which they come.  A parser that fills a short input up with zeros
    can make whole again a command that has only zeros from its first one on; such an
    entry is not `Wired` with it. -/
structure Wired (pb : Protobuf LogEntry) (e : LogEntry) : Prop where
  fits_term : Bytes.FitsSigned 8 e.term
  fits_index : Bytes.FitsSigned 8 e.index
  serialize_eq : pb.serialize e = e.wire
  size_lt : e.wire.length < 2 ^ 31
  parse_cut : ∀ pre rest, e.wire = pre ++ 0 :: rest → 0 ∉ pre →
    e.CutAt pre.length (pb.parse pre)

/-- The entry comes through a C string. -/
def Survives (e : LogEntry) : Prop :=
  e.command = [] ∧ (e.term = 0 → e.index = 0) ∧ (e.type = .noop → e.term = 0 ∧ e.index = 0)

instance (e : LogEntry) : Decidable e.Survives := inferInstanceAs (Decidable (_ ∧ _ ∧ _))

theorem CutAt.eq_iff {e m : LogEntry} {n : Nat} (h : e.CutAt n m) :
    m = e ↔ e.command = [] ∧ (n < e.wireType.length → e.type = .noop) ∧
      (n < (e.wireType ++ e.wireTerm).length → e.term = 0) ∧
      (n < (e.wireType ++ e.wireTerm ++ e.wireIndex).length → e.index = 0) := by
  obtain ⟨htype, hterm, hindex, hcommand⟩ := h
  constructor
  · rintro rfl
    refine ⟨?_, ?_, ?_, ?_⟩
    · exact hcommand.mp rfl
    · intro hn
      rwa [if_pos hn] at htype
    · intro hn
      rwa [if_pos hn] at hterm
    · intro hn
      rwa [if_pos hn] at hindex
  · intro hcase
    rcases hcase with ⟨hnil, htype', hterm', hindex'⟩
    rw [LogEntry.mk.injEq]
    refine ⟨?_, ?_, ?_, ?_⟩
    · rw [htype]
      split
      · next hn => exact (htype' hn).symm
      · rfl
    · rw [hterm]
      split
      · next hn => exact (hterm' hn).symm
      · rfl
    · rw [hindex]
      split
      · next hn => exact (hindex' hn).symm
      · rfl
    · exact hcommand.mpr hnil

section wired

variable {pb : Protobuf LogEntry} {e : LogEntry}

theorem Wired.storable {pb : Protobuf LogEntry} (h : Wired pb e) : Storable pb e where
  fits := h.fits_term
  size_lt := by
    rw [h.serialize_eq]
    exact h.size_lt

/-- The first NUL of the entry is what cuts it. -/
theorem Wired.cut_iff (h : Wired pb e) {pre rest : Bytes} (hwire : e.wire = pre ++ 0 :: rest)
    (hfree : 0 ∉ pre) :
    (cString (e.wire.map some)).map pb.parse = .ok e ↔
      e.command = [] ∧ (pre.length < e.wireType.length → e.type = .noop) ∧
        (pre.length < (e.wireType ++ e.wireTerm).length → e.term = 0) ∧
        (pre.length < (e.wireType ++ e.wireTerm ++ e.wireIndex).length → e.index = 0) := by
  rw [← (h.parse_cut pre rest hwire hfree).eq_iff, hwire, cString_terminated hfree]
  show Except.ok (pb.parse pre) = .ok e ↔ _
  rw [Except.ok.injEq]

theorem zero_notMem_wireType (h : e.type ≠ .noop) : (0 : UInt8) ∉ e.wireType := by
  unfold wireType
  cases htype : e.type with
  | noop => exact absurd htype h
  | data => decide
  | configuration => decide

theorem zero_notMem_varint_toSize {x : Int} (hfits : Bytes.FitsSigned 8 x) (hne : x ≠ 0) :
    (0 : UInt8) ∉ Bytes.varint 10 (toSize x) := by
  obtain ⟨hlow, hhigh⟩ := hfits
  apply Bytes.zero_notMem_varint
  · unfold toSize
    omega
  · unfold toSize
    omega

/-- An entry comes back from the array it was read into exactly when every field
    behind the first NUL is at its default. -/
theorem Wired.survives_iff (h : Wired pb e) :
    (cString (e.wire.map some)).map pb.parse = .ok e ↔ e.Survives := by
  unfold Survives
  by_cases hcommand : e.command = []
  · by_cases htype : e.type = .noop
    · -- The value of the first field is the NUL.
      have hwire : e.wire = [0x08] ++ 0 :: (e.wireTerm ++ (e.wireIndex ++ e.wireCommand)) := by
        simp [wire, wireType, htype, EntryType.number]
      rw [h.cut_iff hwire (by decide)]
      simp [wireType, wireTerm, wireIndex, hcommand, htype]
      omega
    · by_cases hterm : e.term = 0
      · have hwire : e.wire = (e.wireType ++ [0x10]) ++ 0 :: (e.wireIndex ++ e.wireCommand) := by
          simp [wire, wireTerm, hterm, toSize, Bytes.varint_zero]
        have hfree : (0 : UInt8) ∉ e.wireType ++ [0x10] := by
          simp [zero_notMem_wireType htype]
        rw [h.cut_iff hwire hfree]
        simp [wireType, wireTerm, wireIndex, hcommand, htype, hterm, toSize, Bytes.varint_zero]
      · have hfree : (0 : UInt8) ∉ e.wireType ++ e.wireTerm := by
          simp [zero_notMem_wireType htype, wireTerm,
            zero_notMem_varint_toSize h.fits_term hterm]
        by_cases hindex : e.index = 0
        · have hwire : e.wire = (e.wireType ++ e.wireTerm ++ [0x18]) ++ 0 :: e.wireCommand := by
            simp [wire, wireIndex, hindex, toSize, Bytes.varint_zero]
          rw [h.cut_iff hwire (by simp at hfree ⊢; exact hfree)]
          simp [hcommand, htype, hterm, hindex]
        · -- Nothing is zero but the length of the empty command, at the very end.
          have hwire : e.wire = (e.wireType ++ e.wireTerm ++ e.wireIndex ++ [0x22]) ++ 0 :: [] := by
            simp [wire, wireCommand, hcommand, Bytes.varint_zero]
          have hfree' : (0 : UInt8) ∉ e.wireType ++ e.wireTerm ++ e.wireIndex ++ [0x22] := by
            simp at hfree
            simp [hfree, wireIndex, zero_notMem_varint_toSize h.fits_index hindex]
          rw [h.cut_iff hwire hfree']
          simp [hcommand, htype, hterm]
  · -- With a command the whole message has to come through, and then nothing ends the string.
    have hno : ¬ (cString (e.wire.map some)).map pb.parse = .ok e := by
      by_cases hzero : (0 : UInt8) ∈ e.wire
      · obtain ⟨pre, rest, hwire, hfree⟩ := List.eq_append_cons_of_mem hzero
        rw [h.cut_iff hwire hfree]
        exact fun hcut => hcommand hcut.1
      · rw [cString_unterminated hzero]
        exact fun heq => nomatch heq
    simp [hno, hcommand]

end wired

/-- A byte of an array that is cut. -/
theorem getD_take (bs : Bytes) (n k : Nat) :
    (bs.take n).getD k 0 = if n < k + 1 then 0 else bs.getD k 0 := by
  rw [List.getD_eq_getElem?_getD, List.getD_eq_getElem?_getD, List.getElem?_take]
  by_cases hn : n < k + 1
  · rw [if_pos hn, if_neg (by omega)]
    rfl
  · rw [if_neg hn, if_pos (by omega)]

theorem varint_toSize {x : Int} (hlow : 0 ≤ x) (hhigh : x < 128) :
    Bytes.varint 10 (toSize x) = [UInt8.ofNat x.toNat] := by
  rw [toSize_of_nonneg hlow (by omega), Bytes.varint_of_lt (by omega)]

theorem ofNumber_number (t : EntryType) : EntryType.ofNumber t.number = t := by
  cases t <;> decide

/-- `protoFormat` is the wire format of the entries it is meant for. -/
theorem protoFormat_wired {e : LogEntry} (hterm : 0 ≤ e.term ∧ e.term < 128)
    (hindex : 0 ≤ e.index ∧ e.index < 128) (hcommand : e.command.length < 128) :
    Wired protoFormat e := by
  have hwireTerm := varint_toSize hterm.1 hterm.2
  have hwireIndex := varint_toSize hindex.1 hindex.2
  have hwire : e.wire = [0x08, e.type.number, 0x10, UInt8.ofNat e.term.toNat, 0x18,
      UInt8.ofNat e.index.toNat, 0x22, UInt8.ofNat e.command.length] ++ e.command := by
    rw [wire, wireType, wireTerm, wireIndex, wireCommand, hwireTerm, hwireIndex,
      Bytes.varint_of_lt hcommand]
    rfl
  have hbyte : ∀ x : Int, 0 ≤ x ∧ x < 128 → ((UInt8.ofNat x.toNat).toNat : Int) = x := by
    intro x hx
    rw [UInt8.toNat_ofNat']
    omega
  refine ⟨?_, ?_, hwire.symm, ?_, ?_⟩
  · unfold Bytes.FitsSigned
    omega
  · unfold Bytes.FitsSigned
    omega
  · rw [hwire, List.length_append]
    simp only [List.length_cons, List.length_nil]
    omega
  · intro pre rest hcut hfree
    -- Each field is read at its place, or is 0 if the cut comes before it.
    obtain ⟨n, hn⟩ : ∃ n, n = pre.length := ⟨_, rfl⟩
    have hpre : pre = e.wire.take n := by rw [hn, hcut, List.take_left]
    have hlt : n < e.wire.length := by
      rw [hn, hcut, List.length_append, List.length_cons]
      omega
    rw [← hn, hpre]
    refine ⟨?_, ?_, ?_, ?_⟩
    · show EntryType.ofNumber ((e.wire.take n).getD 1 0) = _
      rw [getD_take, show e.wire.getD 1 0 = e.type.number by rw [hwire]; rfl]
      split
      · next hn => rw [if_pos (by simpa [wireType] using hn)]; rfl
      · next hn => rw [if_neg (by simpa [wireType] using hn), ofNumber_number]
    · show (((e.wire.take n).getD 3 0).toNat : Int) = _
      rw [getD_take, show e.wire.getD 3 0 = UInt8.ofNat e.term.toNat by rw [hwire]; rfl,
        wireTerm, hwireTerm]
      split
      · next hn => rw [if_pos (by simpa [wireType] using hn)]; rfl
      · next hn => rw [if_neg (by simpa [wireType] using hn), hbyte _ hterm]
    · show (((e.wire.take n).getD 5 0).toNat : Int) = _
      rw [getD_take, show e.wire.getD 5 0 = UInt8.ofNat e.index.toNat by rw [hwire]; rfl,
        wireTerm, wireIndex, hwireTerm, hwireIndex]
      split
      · next hn => rw [if_pos (by simpa [wireType] using hn)]; rfl
      · next hn => rw [if_neg (by simpa [wireType] using hn), hbyte _ hindex]
    · show (e.wire.take n).drop 8 = e.command ↔ e.command = []
      have hlen : e.wire.length = 8 + e.command.length := by
        rw [hwire, List.length_append]
        rfl
      constructor
      · intro hwhole
        have := congrArg List.length hwhole
        rw [List.length_drop, List.length_take] at this
        rw [← List.length_eq_zero_iff]
        omega
      · intro hnil
        rw [hnil] at hlen ⊢
        exact List.drop_eq_nil_of_le (by rw [List.length_take, hlen]; simp)

end LogEntry

/-! ## Getting an entry -/

namespace RaftLog

variable {pb : Protobuf LogEntry} {f i : Int} {es : List PaddedEntry} {e : PaddedEntry}

theorem validIndex_place :
    (logOf pb f es).validIndex i = true ↔ toSize (i - f) < es.length := by
  rw [validIndex_iff, logOf_firstIndex, logOf_offset_term, length_table]

theorem entry_place (hget : es[toSize (i - f)]? = some e) :
    (logOf pb f es).entry i =
      .ok (8 + Records.endOf (sizes pb es) (toSize (i - f)), e.term) := by
  unfold entry
  rw [logOf_firstIndex, logOf_offset_term, getElem?_table, hget, Option.map_some]

/-- `Get` where the header and the content can be read in full. -/
theorem get_of_reads {l : RaftLog} {t : Int} {off : Nat} {head body : Bytes}
    (hvalid : l.validIndex i = true) (hentry : l.entry i = .ok (off, t))
    (hhead : l.storage_.read LogHeader.size off = ((head.length : Int), head))
    (hsize : head.length = LogHeader.size)
    (hlen : (LogHeader.ofImage head).len_ = body.length)
    (hbody : l.storage_.read body.length (off + LogHeader.size) = ((body.length : Int), body)) :
    l.get pb i = ((cString (body.map some)).map pb.parse).map some := by
  have hok : ∀ n : Nat, (n : Int) ≠ -1 := by omega
  have hover : overlay (LogHeader.image {} 0) head = head :=
    overlay_full (by rw [hsize, length_headerImage])
  have hnonneg : ¬ (body.length : Int) < 0 := by omega
  unfold get
  simp only [hvalid, Bool.not_true, Bool.false_eq_true, if_false, hentry, bind, Except.bind, hhead,
    if_neg (hok _), hover, hlen, if_neg hnonneg, hbody, Int.toNat_natCast, Nat.sub_self,
    List.replicate_zero, List.append_nil]
  cases cString (body.map some) with
  | error fault => simp [Except.map]
  | ok str => simp [Except.map, pure, Except.pure]

/-- `Get` at the place of an entry: what was written for it, as a C string. -/
theorem get_logOf (hget : es[toSize (i - f)]? = some e) (he : Storable pb e) :
    (logOf pb f es).get pb i =
      ((cString ((pb.serialize e).map some)).map pb.parse).map some := by
  have hvalid : (logOf pb f es).validIndex i = true := by
    rw [validIndex_place]
    exact (List.getElem?_eq_some_iff.mp hget).choose
  have hhead := read_works (s := (logOf pb f es).storage_) rfl LogHeader.size
    (8 + Records.endOf (sizes pb es) (toSize (i - f)))
  rw [logOf_file, header_at hget] at hhead
  have hbody := read_works (s := (logOf pb f es).storage_) rfl (pb.serialize e).length
    (8 + Records.endOf (sizes pb es) (toSize (i - f)) + LogHeader.size)
  rw [logOf_file, content_at hget] at hbody
  apply get_of_reads hvalid (entry_place hget) hhead (length_headerImage _ _) _ hbody
  rw [ofImage_image he.fits (headerOf_fits he.size_lt)]
  rfl

/-- `Get` at the place of an entry returns this entry if it comes through. -/
theorem get_entry_iff (hget : es[toSize (i - f)]? = some e) (he : e.Wired pb) :
    (logOf pb f es).get pb i = .ok (some e.toLogEntry) ↔ e.Survives := by
  rw [get_logOf hget he.storable, he.serialize_eq, ← he.survives_iff]
  cases (cString (e.wire.map some)).map pb.parse with
  | error fault => simp [Except.map]
  | ok m =>
    show Except.ok (some m) = .ok (some e.toLogEntry) ↔ _
    rw [Except.ok.injEq, Except.ok.injEq, Option.some.injEq]

/-- Where there is an entry `Get` does not say that there is none. -/
theorem get_entry_ne_none (hget : es[toSize (i - f)]? = some e) (he : e.Wired pb) :
    (logOf pb f es).get pb i ≠ .ok none := by
  rw [get_logOf hget he.storable]
  cases (cString ((pb.serialize e).map some)).map pb.parse with
  | error fault => exact fun h => nomatch h
  | ok m => exact fun h => nomatch h

theorem get_invalid (hout : es.length ≤ toSize (i - f)) :
    (logOf pb f es).get pb i = .ok none := by
  have hinvalid : (logOf pb f es).validIndex i = false := by
    rw [← Bool.not_eq_true, validIndex_iff, logOf_offset_term, length_table]
    exact Nat.not_lt.mpr hout
  rw [get, hinvalid]
  rfl

/-- `Get` is as one expects at `i`. -/
structure GetReturns (pb : Protobuf LogEntry) (l : RaftLog) (f : Int) (es : List PaddedEntry)
    (i : Int) : Prop where
  inside : f ≤ i → i ≤ f + es.length - 1 →
    ∃ e, es[(i - f).toNat]? = some e ∧ l.get pb i = .ok (some e.toLogEntry)
  outside : ¬ (f ≤ i ∧ i ≤ f + es.length - 1) → l.get pb i = .ok none

/-- `Get` returns what was appended exactly when the index is that of an entry that
    comes through a C string, or it has no entry.  (An index so far below the first
    one that the difference wraps around into the table is taken for an entry's.) -/
theorem get_returns_iff (hf : Bytes.FitsSigned 8 f)
    (hi : Bytes.FitsSigned 8 i) (hwired : ∀ e ∈ es, e.Wired pb) :
    GetReturns pb (built pb f es) f es i ↔
      f + es.length ≤ i ∨ (i < f ∧ f + es.length ≤ i + 2 ^ 64) ∨
        ∃ k e, i = f + (k : Nat) ∧ es[k]? = some e ∧ e.Survives := by
  rw [built_eq (fun e he => (hwired e he).storable.size_lt)]
  obtain ⟨hf1, hf2⟩ := hf
  obtain ⟨hi1, hi2⟩ := hi
  -- Where the difference is negative, it has wrapped around.
  have hplace : (toSize (i - f) : Int) = if f ≤ i then i - f else i - f + 2 ^ 64 := by
    unfold toSize
    split <;> omega
  by_cases hvalid : toSize (i - f) < es.length
  · have hget := List.getElem?_eq_getElem hvalid
    have hentry := hwired _ (List.getElem_mem hvalid)
    by_cases hlow : f ≤ i
    · rw [if_pos hlow] at hplace
      have hnat : (i - f).toNat = toSize (i - f) := by omega
      constructor
      · intro h
        obtain ⟨e, he, hres⟩ := h.inside hlow (by omega)
        rw [hnat, hget] at he
        obtain rfl := Option.some.inj he
        exact .inr (.inr ⟨_, _, by omega, hget, (get_entry_iff hget hentry).mp hres⟩)
      · intro hcase
        rcases hcase with hout | hout | ⟨k, e, hk, he, hs⟩
        · omega
        · omega
        · obtain rfl : k = toSize (i - f) := by omega
          refine ⟨?_, fun hout => by omega⟩
          intro _ _
          rw [hnat]
          exact ⟨e, he, (get_entry_iff he (hwired e (List.mem_of_getElem? he))).mpr hs⟩
    · rw [if_neg hlow] at hplace
      constructor
      · intro h
        exact absurd (h.outside (by omega)) (get_entry_ne_none hget hentry)
      · intro hcase
        rcases hcase with hout | hout | ⟨k, e, hk, he, hs⟩
        · omega
        · omega
        · omega
  · have hnone := @get_invalid pb f i es (Nat.le_of_not_lt hvalid)
    have hout : ¬ (f ≤ i ∧ i ≤ f + es.length - 1) := by
      split at hplace <;> omega
    constructor
    · intro _
      split at hplace
      · exact .inl (by omega)
      · exact .inr (.inl (by omega))
    · intro _
      exact ⟨fun hlow hhigh => absurd ⟨hlow, hhigh⟩ hout, fun _ => hnone⟩

/-- A `noop` without a term and an entry without a command come back. -/
theorem get_returns_empty :
    let es : List PaddedEntry := [⟨⟨.noop, 0, 0, []⟩, 0⟩, ⟨⟨.data, 1, 2, []⟩, 5⟩]
    GetReturns protoFormat (built protoFormat 1 es) 1 es 1 ∧
      GetReturns protoFormat (built protoFormat 1 es) 1 es 2 := by
  intro es
  have hwired : ∀ e ∈ es, e.Wired protoFormat := by
    intro e he
    apply LogEntry.protoFormat_wired
    all_goals revert e; decide
  constructor
  · exact (get_returns_iff (by decide) (by decide) hwired).mpr
      (.inr (.inr ⟨0, _, by decide, rfl, by decide⟩))
  · exact (get_returns_iff (by decide) (by decide) hwired).mpr
      (.inr (.inr ⟨1, _, by decide, rfl, by decide⟩))

/-- An entry with a command has no NUL that would end the string; a `noop` of term
    1 loses everything behind its type. -/
theorem get_loses :
    ¬ GetReturns protoFormat (built protoFormat 1 [dataEntry 1 1 [65]]) 1
        [dataEntry 1 1 [65]] 1 ∧
      ¬ GetReturns protoFormat (built protoFormat 1 [⟨⟨.noop, 1, 1, []⟩, 0⟩]) 1
        [⟨⟨.noop, 1, 1, []⟩, 0⟩] 1 := by
  constructor
  · intro h
    obtain ⟨e, -, hrun⟩ := h.inside (by decide) (by decide)
    have hfault : (built protoFormat 1 [dataEntry 1 1 [65]]).get protoFormat 1 =
        .error .outOfBounds := by decide
    rw [hfault] at hrun
    cases hrun
  · intro h
    obtain ⟨e, he, hrun⟩ := h.inside (by decide) (by decide)
    have hlost : (built protoFormat 1 [⟨⟨.noop, 1, 1, []⟩, 0⟩]).get protoFormat 1 =
        .ok (some ⟨.noop, 0, 0, []⟩) := by decide
    rw [hlost] at hrun
    obtain rfl := Option.some.inj he
    exact absurd (Option.some.inj (Except.ok.inj hrun)) (by decide)

end RaftLog

end JNet
