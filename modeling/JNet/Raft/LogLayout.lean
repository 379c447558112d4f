import JNet.Raft.RaftLog

/-! # The layout of a log

    Where the records of a list of entries lie in the file, and what each
    operation of `RaftLog` does to a log in terms of that layout.  A log that
    was built by `SetFirstIndex` and `Append` is `logOf`, a closed form.
-/

namespace JNet

open Memory

/-- The numbers in the entry's header fit their fields: its term is an
    `int64_t`, the length of its serialization an `int`. -/
structure Storable (pb : Protobuf LogEntry) (e : LogEntry) : Prop where
  fits : Bytes.FitsSigned 8 e.term
  size_lt : (pb.serialize e).length < 2 ^ 31

/-- The entry comes back from its record: besides, the generated class parses
    its serialization. -/
structure Readable (pb : Protobuf LogEntry) (e : LogEntry) : Prop where
  fits : Bytes.FitsSigned 8 e.term
  carries : pb.Carries e

namespace RaftLog

/-! ## Layout -/

section layout

variable (pb : Protobuf LogEntry)

/-- The sizes of the records. -/
def sizes (es : List PaddedEntry) : List Nat :=
  es.map fun e : PaddedEntry => LogHeader.size + (pb.serialize e).length

/-- The header of an entry. -/
def headerOf (e : LogEntry) : LogHeader :=
  { term_ := e.term, len_ := (pb.serialize e).length }

/-- The record of an entry. -/
def record (e : PaddedEntry) : Bytes := (headerOf pb e).image e.padding ++ pb.serialize e

/-- Records one after the other. -/
def records : List PaddedEntry → Bytes
  | [] => []
  | e :: es => record pb e ++ records es

/-- The table of these records, the first at `off`. -/
def table (off : Nat) : List PaddedEntry → List (Nat × Int)
  | [] => []
  | e :: es => (off, e.term) :: table (off + (LogHeader.size + (pb.serialize e).length)) es

/-- The file of a log. -/
def image (f : Int) (es : List PaddedEntry) : Bytes := Bytes.leSigned 8 f ++ records pb es

/-- The log of a list of entries. -/
def logOf (f : Int) (es : List PaddedEntry) : RaftLog where
  firstIndex_ := f
  bytes_ := 8 + (sizes pb es).sum
  offset_term_ := table pb 8 es
  storage_ := { file := image pb f es }

@[simp] theorem logOf_firstIndex (f : Int) (es : List PaddedEntry) :
    (logOf pb f es).firstIndex_ = f := rfl

@[simp] theorem logOf_bytes (f : Int) (es : List PaddedEntry) :
    (logOf pb f es).bytes_ = 8 + (sizes pb es).sum := rfl

@[simp] theorem logOf_offset_term (f : Int) (es : List PaddedEntry) :
    (logOf pb f es).offset_term_ = table pb 8 es := rfl

@[simp] theorem logOf_file (f : Int) (es : List PaddedEntry) :
    (logOf pb f es).storage_.file = image pb f es := rfl

@[simp] theorem sizes_cons (e : PaddedEntry) (es : List PaddedEntry) :
    sizes pb (e :: es) = (LogHeader.size + (pb.serialize e).length) :: sizes pb es := rfl

@[simp] theorem length_sizes (es : List PaddedEntry) : (sizes pb es).length = es.length := by
  simp [sizes]

@[simp] theorem length_headerImage (h : LogHeader) (p : Nat) :
    (h.image p).length = LogHeader.size := by
  simp [LogHeader.image, LogHeader.size]

@[simp] theorem length_record (e : PaddedEntry) :
    (record pb e).length = LogHeader.size + (pb.serialize e).length := by
  simp [record]

theorem length_records (es : List PaddedEntry) :
    (records pb es).length = (sizes pb es).sum := by
  induction es with
  | nil => rfl
  | cons e es ih => simp [records, ih]

theorem length_image (f : Int) (es : List PaddedEntry) :
    (image pb f es).length = 8 + (sizes pb es).sum := by
  simp [image, length_records]

theorem records_append (es es' : List PaddedEntry) :
    records pb (es ++ es') = records pb es ++ records pb es' := by
  induction es with
  | nil => rfl
  | cons e es ih => simp only [List.cons_append, records, ih, List.append_assoc]

theorem table_append (off : Nat) (es es' : List PaddedEntry) :
    table pb off (es ++ es') = table pb off es ++ table pb (off + (sizes pb es).sum) es' := by
  induction es generalizing off with
  | nil => rfl
  | cons e es ih =>
    simp only [List.cons_append, table, ih, sizes_cons, List.sum_cons, Nat.add_assoc]

@[simp] theorem length_table (off : Nat) (es : List PaddedEntry) :
    (table pb off es).length = es.length := by
  induction es generalizing off with
  | nil => rfl
  | cons e es ih => simp [table, ih]

theorem image_append (f : Int) (es es' : List PaddedEntry) :
    image pb f (es ++ es') = image pb f es ++ records pb es' := by
  rw [image, image, records_append, List.append_assoc]

theorem table_take (off k : Nat) (es : List PaddedEntry) :
    (table pb off es).take k = table pb off (es.take k) := by
  induction es generalizing off k with
  | nil => simp [table]
  | cons e es ih =>
    cases k with
    | zero => rfl
    | succ k => simp [table, ih]

theorem sizes_take (es : List PaddedEntry) (k : Nat) :
    (sizes pb (es.take k)).sum = Records.endOf (sizes pb es) k := by
  rw [Records.endOf, sizes, sizes, List.map_take]

end layout

/-! ## Headers -/

theorem ofImage_image {h : LogHeader} (hterm : Bytes.FitsSigned 8 h.term_)
    (hlen : Bytes.FitsSigned 4 h.len_) (p : Nat) : LogHeader.ofImage (h.image p) = h := by
  have h8 : (h.image p).take 8 = Bytes.leSigned 8 h.term_ := by
    rw [LogHeader.image, List.append_assoc]
    exact List.take_left' (by simp)
  have h4 : ((h.image p).drop 8).take 4 = Bytes.leSigned 4 h.len_ := by
    rw [LogHeader.image, List.append_assoc, List.drop_left' (by simp)]
    exact List.take_left' (by simp)
  rw [LogHeader.ofImage, h8, h4, Bytes.signed_leNat_leSigned hterm,
    Bytes.signed_leNat_leSigned hlen]

theorem headerOf_fits {pb : Protobuf LogEntry} {e : LogEntry}
    (hsize : (pb.serialize e).length < 2 ^ 31) :
    Bytes.FitsSigned 4 (headerOf pb e).len_ := by
  show Bytes.FitsSigned 4 ((pb.serialize e).length : Int)
  unfold Bytes.FitsSigned
  omega

/-! ## Reads -/

/-- A read on a storage that works returns what lies behind the offset. -/
theorem read_works {s : Storage} (hs : s.failing = false) (n off : Nat) :
    s.read n off =
      ((((s.file.drop off).take n).length : Int), (s.file.drop off).take n) := by
  have hguard : ¬ ((s.failing || decide ((n : Int) < 0)) = true) := by
    rw [hs]
    simp
  rw [Storage.read, if_neg hguard, Int.toNat_natCast]

/-- A read that fills its destination leaves nothing of what was there. -/
theorem overlay_full {dst got : Bytes} (h : dst.length ≤ got.length) : overlay dst got = got := by
  rw [overlay, List.drop_eq_nil_of_le h, List.append_nil]

/-! ## Appending -/

section append

variable {pb : Protobuf LogEntry}

/-- The log's storage works and ends where the log does. -/
structure AtEnd (l : RaftLog) : Prop where
  works : l.storage_.failing = false
  ends : l.bytes_ = l.storage_.file.length

/-- A log with `es` appended to it. -/
def extend (pb : Protobuf LogEntry) (l : RaftLog) (es : List PaddedEntry) : RaftLog :=
  { l with
    offset_term_ := l.offset_term_ ++ table pb l.bytes_ es
    bytes_ := l.bytes_ + (sizes pb es).sum
    storage_ := { l.storage_ with file := l.storage_.file ++ records pb es } }

theorem AtEnd.extend {l : RaftLog} (h : AtEnd l) (es : List PaddedEntry) :
    AtEnd (extend pb l es) where
  works := h.works
  ends := by simp [RaftLog.extend, length_records, h.ends]

theorem extend_extend (l : RaftLog) (es es' : List PaddedEntry) :
    extend pb (extend pb l es) es' = extend pb l (es ++ es') := by
  simp [extend, table_append, records_append, sizes, Nat.add_assoc]

/-- A write at the end of the file extends it. -/
theorem write_atEnd {s : Storage} (hs : s.failing = false) (buf : Bytes) :
    s.write buf buf.length s.file.length =
      ((buf.length : Int), { s with file := s.file ++ buf }) := by
  obtain ⟨file, failing⟩ := s
  subst hs
  have hguard : ¬ ((false || decide ((buf.length : Int) < 0)) = true) := by
    simp only [Bool.false_or, decide_eq_true_eq]
    omega
  rw [Storage.write, if_neg hguard]
  simp only [Int.toNat_natCast, List.take_length, Nat.sub_self, List.replicate_zero,
    List.append_nil]
  by_cases hnil : buf = []
  · simp [hnil]
  · rw [if_neg (by simpa using hnil), List.drop_eq_nil_of_le (by omega), List.append_nil]

/-- `Append` at the end of the file. -/
theorem append_eq {l : RaftLog} (h : AtEnd l) {e : PaddedEntry}
    (hsmall : (pb.serialize e).length < 2 ^ 31) :
    l.append pb e e.padding = extend pb l [e] := by
  have hlen : Bytes.signed 4 (pb.serialize e).length = (pb.serialize e).length :=
    Bytes.signed_of_small (by omega)
  have hhead := write_atEnd h.works ((headerOf pb e).image e.padding)
  have hbody := write_atEnd (s := { l.storage_ with
    file := l.storage_.file ++ (headerOf pb e).image e.padding })
    h.works (pb.serialize e)
  rw [length_headerImage, ← h.ends] at hhead
  simp only [List.length_append, length_headerImage, ← h.ends] at hbody
  have hok : ∀ n : Nat, (n : Int) ≠ -1 := by omega
  -- Neither write returns -1, so both branches of failure are skipped.
  unfold append
  simp only [hlen]
  rw [show ({ term_ := e.term, len_ := (pb.serialize e).length } : LogHeader) =
    headerOf pb e from rfl, hhead]
  simp only [if_neg (hok _), hbody]
  simp [extend, table, records, record, sizes, Nat.add_comm]

/-- One `Append` after the other at the end of the file. -/
theorem appendAll_eq {l : RaftLog} (h : AtEnd l) {es : List PaddedEntry}
    (hsmall : ∀ e ∈ es, (pb.serialize e).length < 2 ^ 31) :
    l.appendAll pb es = extend pb l es := by
  induction es generalizing l with
  | nil => simp [extend, table, records, sizes]
  | cons e es ih =>
    have hrest : ∀ e' ∈ es, (pb.serialize e').length < 2 ^ 31 := by
      intro e' he'
      exact hsmall e' (by simp [he'])
    rw [appendAll_cons, append_eq h (hsmall e (by simp)), ih (h.extend [e]) hrest,
      extend_extend, List.singleton_append]

theorem logOf_atEnd (pb : Protobuf LogEntry) (f : Int) (es : List PaddedEntry) :
    AtEnd (logOf pb f es) where
  works := rfl
  ends := by simp [logOf, length_image]

/-- More entries on a built log. -/
theorem extend_logOf (f : Int) (es es' : List PaddedEntry) :
    extend pb (logOf pb f es) es' = logOf pb f (es ++ es') := by
  simp [extend, logOf, image, table_append, records_append, sizes, Nat.add_assoc]

theorem setFirstIndex_eq (pb : Protobuf LogEntry) (f : Int) :
    setFirstIndex { storage_ := {} } f = logOf pb f [] := by
  have hwrite := write_atEnd (s := {}) rfl (Bytes.leSigned 8 f)
  rw [Bytes.length_leSigned] at hwrite
  unfold setFirstIndex
  simp only [List.length_nil] at hwrite
  simp only [Nat.cast_ofNat] at hwrite
  rw [hwrite]
  simp [logOf, image, table, records, sizes]

/-- The closed form of a built log. -/
theorem built_eq {f : Int} {es : List PaddedEntry}
    (hsmall : ∀ e ∈ es, (pb.serialize e).length < 2 ^ 31) :
    built pb f es = logOf pb f es := by
  rw [built, setFirstIndex_eq pb, appendAll_eq (logOf_atEnd pb f []) hsmall, extend_logOf,
    List.nil_append]

end append

/-! ## Lookups -/

section lookups

variable {l : RaftLog} {i : Int}

/-- The test for an empty table adds nothing. -/
theorem validIndex_iff :
    l.validIndex i = true ↔ toSize (i - l.firstIndex_) < l.offset_term_.length := by
  unfold validIndex
  cases l.offset_term_ with
  | nil => simp
  | cons x xs => simp

/-- A valid index is inside the table. -/
theorem entry_of_valid (hvalid : l.validIndex i = true) : ∃ x, l.entry i = .ok x := by
  have hlt := validIndex_iff.mp hvalid
  exact ⟨l.offset_term_[toSize (i - l.firstIndex_)], by rw [entry, List.getElem?_eq_getElem hlt]⟩

theorem containLog_iff {t : Int} :
    l.containLog i t = true ↔
      ∃ x, l.offset_term_[toSize (i - l.firstIndex_)]? = some x ∧ x.2 = t := by
  unfold containLog entry
  cases hvalid : l.validIndex i with
  | true =>
    rw [List.getElem?_eq_getElem (validIndex_iff.mp hvalid)]
    simp
  | false =>
    have hout : l.offset_term_.length ≤ toSize (i - l.firstIndex_) := by
      rw [← Nat.not_lt, ← validIndex_iff, hvalid]
      decide
    rw [List.getElem?_eq_none hout]
    simp

/-- `Term` of an index that has no entry reads outside the table. -/
theorem term_invalid (hvalid : l.validIndex i = false) : l.term i = .error .outOfBounds := by
  have hout : l.offset_term_.length ≤ toSize (i - l.firstIndex_) := by
    rw [← Nat.not_lt, ← validIndex_iff, hvalid]
    decide
  simp [term, entry, hvalid, hout, bind, Except.bind]

end lookups

/-! ## Positions -/

section positions

variable {pb : Protobuf LogEntry} {f : Int} {es : List PaddedEntry} {k : Nat}

theorem getElem?_table (pb : Protobuf LogEntry) (off : Nat) (es : List PaddedEntry) (k : Nat) :
    (table pb off es)[k]? =
      es[k]?.map fun e => (off + Records.endOf (sizes pb es) k, e.term) := by
  induction es generalizing off k with
  | nil => simp [table]
  | cons e es ih =>
    cases k with
    | zero => simp [table]
    | succ k => simp [table, ih, Nat.add_assoc]

theorem toSize_add_sub (f : Int) {k : Nat} (hk : k < 2 ^ 64) : toSize (f + k - f) = k := by
  have hsub : f + k - f = (k : Int) := by omega
  rw [hsub, toSize_of_nonneg (by omega) (by omega), Int.toNat_natCast]

theorem entry_logOf (hk : k < 2 ^ 64) :
    (logOf pb f es).entry (f + k) =
      match es[k]? with
      | some e => .ok (8 + Records.endOf (sizes pb es) k, e.term)
      | none => .error .outOfBounds := by
  unfold entry
  rw [logOf_firstIndex, toSize_add_sub f hk, logOf_offset_term,
    getElem?_table]
  cases es[k]? <;> rfl

theorem validIndex_logOf (hk : k < 2 ^ 64) :
    (logOf pb f es).validIndex (f + k) = decide (k < es.length) := by
  rw [← Bool.coe_iff_coe, validIndex_iff, logOf_firstIndex, toSize_add_sub f hk,
    logOf_offset_term, length_table, decide_eq_true_iff]

theorem containLog_logOf {t : Int} (hk : k < 2 ^ 64) :
    (logOf pb f es).containLog (f + k) t = true ↔ ∃ e, es[k]? = some e ∧ e.term = t := by
  rw [containLog_iff, logOf_firstIndex, toSize_add_sub f hk, logOf_offset_term, getElem?_table]
  simp

/-- The file of a log is what comes before an entry, the entry's record, and what
    comes behind it. -/
theorem image_split {e : PaddedEntry} (hget : es[k]? = some e) :
    ∃ rest, image pb f es = image pb f (es.take k) ++ (record pb e ++ rest) := by
  obtain ⟨hlt, rfl⟩ := List.getElem?_eq_some_iff.mp hget
  have hsplit := image_append pb f (es.take k) (es.drop k)
  rw [List.take_append_drop, List.drop_eq_getElem_cons hlt] at hsplit
  exact ⟨_, hsplit⟩

theorem length_image_take :
    (image pb f (es.take k)).length = 8 + Records.endOf (sizes pb es) k := by
  rw [length_image, sizes_take]

/-- The header of an entry in the file. -/
theorem header_at {e : PaddedEntry} (hget : es[k]? = some e) :
    ((image pb f es).drop (8 + Records.endOf (sizes pb es) k)).take LogHeader.size =
      (headerOf pb e).image e.padding := by
  obtain ⟨rest, hfile⟩ := @image_split pb f es k e hget
  rw [hfile, List.drop_left' length_image_take, record, List.append_assoc]
  exact List.take_left' (by simp)

/-- The content of an entry in the file. -/
theorem content_at {e : PaddedEntry} (hget : es[k]? = some e) :
    ((image pb f es).drop (8 + Records.endOf (sizes pb es) k + LogHeader.size)).take
      (pb.serialize e).length = pb.serialize e := by
  obtain ⟨rest, hfile⟩ := @image_split pb f es k e hget
  rw [hfile, ← List.drop_drop, List.drop_left' length_image_take, record, List.append_assoc,
    List.drop_left' (by simp), List.take_left]

/-- The entry at an index of a built log is read back. -/
theorem storedEntry_logOf {e : PaddedEntry} (hk : k < 2 ^ 64) (hget : es[k]? = some e)
    (he : Readable pb e) :
    (logOf pb f es).storedEntry pb (f + k) = some e.toLogEntry := by
  unfold storedEntry
  rw [entry_logOf hk, hget]
  simp only [logOf_file, header_at hget, ofImage_image he.fits (headerOf_fits he.carries.size_lt)]
  rw [show (headerOf pb e).len_.toNat = (pb.serialize e).length from Int.toNat_natCast _,
    content_at hget, he.carries.parse_serialize]

/-- What follows an entry does not change where it is. -/
theorem entry_logOf_append (hk : k < 2 ^ 64) (hlt : k < es.length) (es' : List PaddedEntry) :
    (logOf pb f (es ++ es')).entry (f + k) = (logOf pb f es).entry (f + k) := by
  have hend : Records.endOf (sizes pb (es ++ es')) k = Records.endOf (sizes pb es) k := by
    rw [← sizes_take, ← sizes_take, List.take_append_of_le_length (by omega)]
  rw [entry_logOf hk, entry_logOf hk, List.getElem?_append_left hlt, hend]

theorem lastIndex_of_length {l : RaftLog} {n : Nat} (hlen : l.offset_term_.length = n)
    (hlow : -2 ^ 63 ≤ n + l.firstIndex_ - 1) (hhigh : n + l.firstIndex_ - 1 < 2 ^ 63) :
    l.lastIndex = n + l.firstIndex_ - 1 := by
  rw [lastIndex, hlen, toInt64_of_fits hlow hhigh]

theorem lastIndex_logOf : (logOf pb f es).lastIndex = toInt64 (es.length + f - 1) := by
  rw [lastIndex, logOf_offset_term, length_table, logOf_firstIndex]

/-- The log after `Truncate` at the index behind `es`: the file is cut there and
    one element of the table is gone, but the elements of `tail` are left. -/
def truncated (pb : Protobuf LogEntry) (f : Int) (es : List PaddedEntry) (e : PaddedEntry)
    (tail : List PaddedEntry) : RaftLog :=
  { logOf pb f es with
    offset_term_ := table pb 8 es ++
      table pb (8 + (sizes pb es).sum + (LogHeader.size + (pb.serialize e).length)) tail }

theorem truncated_nil (pb : Protobuf LogEntry) (f : Int) (es : List PaddedEntry) (e : PaddedEntry) :
    truncated pb f es e [] = logOf pb f es := by
  simp [truncated, table, logOf]

theorem truncate_logOf {e : PaddedEntry} {tail : List PaddedEntry} (hne : es ≠ [])
    (hlen : es.length < 2 ^ 64) :
    truncate (logOf pb f (es ++ e :: tail)) (f + es.length) = .ok (truncated pb f es e tail) := by
  have hpos : 0 < es.length := List.length_pos_iff.mpr hne
  have hvalid : (logOf pb f (es ++ e :: tail)).validIndex (f + es.length) = true := by
    rw [validIndex_logOf hlen]
    simp
  have hend : Records.endOf (sizes pb (es ++ e :: tail)) es.length = (sizes pb es).sum := by
    rw [← sizes_take, List.take_left]
  have hentry : (logOf pb f (es ++ e :: tail)).entry (f + es.length) =
      .ok (8 + (sizes pb es).sum, e.term) := by
    rw [entry_logOf hlen, List.getElem?_append_right (Nat.le_refl _), Nat.sub_self, hend]
    rfl
  -- The index is behind the first one, so the file is not started anew.
  have hfirst : ¬ f + (es.length : Int) ≤ f := by omega
  have hfile : (image pb f (es ++ e :: tail)).take (8 + (sizes pb es).sum) =
      image pb f es := by
    rw [image_append]
    exact List.take_left' (length_image pb f es)
  have hsize : 8 + (sizes pb es).sum - (image pb f (es ++ e :: tail)).length = 0 := by
    rw [image_append, List.length_append, length_image]
    omega
  have herase : (table pb 8 (es ++ e :: tail)).eraseIdx es.length =
      (truncated pb f es e tail).offset_term_ := by
    rw [table_append, List.eraseIdx_append_of_length_le (by simp), length_table, Nat.sub_self]
    rfl
  unfold truncate
  rw [hvalid]
  simp only [Bool.not_true, Bool.false_eq_true, if_false]
  rw [logOf_firstIndex, if_neg hfirst]
  simp only [bind, Except.bind, hentry, Storage.truncate, logOf_file, hfile, hsize]
  rw [logOf_firstIndex, toSize_add_sub f hlen,
    logOf_offset_term, herase]
  simp
  rfl

/-- At the first index the file is started anew, and then cut where it ends. -/
theorem truncate_first {e : PaddedEntry} {tail : List PaddedEntry} :
    truncate (logOf pb f (e :: tail)) f = .ok (truncated pb f [] e tail) := by
  have hsize : toSize 0 = 0 := rfl
  have hvalid : (logOf pb f (e :: tail)).validIndex f = true := by
    simp [validIndex, logOf, table, hsize]
  have hwrite := write_atEnd (s := {}) rfl (Bytes.leSigned 8 f)
  rw [Bytes.length_leSigned] at hwrite
  simp only [List.length_nil, Nat.cast_ofNat] at hwrite
  unfold truncate
  rw [hvalid]
  simp only [Bool.not_true, Bool.false_eq_true, if_false]
  rw [logOf_firstIndex, if_pos (Int.le_refl f)]
  simp [bind, Except.bind, Storage.truncate, setFirstIndex, logOf, hwrite, entry, hsize, table,
    truncated, image, records, sizes, List.take_of_length_le]

/-- `Truncate` at any index of a built log. -/
theorem truncate_at (hk : k < es.length) (hbound : k < 2 ^ 64) :
    truncate (logOf pb f es) (f + k) =
      .ok (truncated pb f (es.take k) es[k] (es.drop (k + 1))) := by
  have hsplit : es = es.take k ++ es[k] :: es.drop (k + 1) := by
    rw [← List.drop_eq_getElem_cons hk, List.take_append_drop]
  have hlen : (es.take k).length = k := by
    rw [List.length_take]
    omega
  by_cases hzero : k = 0
  · subst hzero
    cases es with
    | nil => cases hk
    | cons e tail => simpa using truncate_first
  · have hne : es.take k ≠ [] := by
      rw [← List.length_pos_iff]
      omega
    have hcut := @truncate_logOf pb f (es.take k) es[k] (es.drop (k + 1)) hne (by omega)
    rw [← hsplit, hlen] at hcut
    exact hcut

end positions

/-- The last index of a log with entries is valid, however the sum has wrapped. -/
theorem validIndex_lastIndex {l : RaftLog} (hne : l.offset_term_ ≠ [])
    (hlen : l.offset_term_.length < 2 ^ 64) : l.validIndex l.lastIndex = true := by
  have hpos : 0 < l.offset_term_.length := List.length_pos_iff.mpr hne
  -- Whatever multiple of 2^64 was lost in the sum is lost again in the difference.
  have hdiff : toSize (l.lastIndex - l.firstIndex_) = l.offset_term_.length - 1 := by
    unfold toSize lastIndex toInt64 Int.bmod
    dsimp only
    split <;> omega
  rw [validIndex_iff, hdiff]
  omega

/-- `Term` of the last index is 0 whatever the last entry is. -/
theorem term_lastIndex {l : RaftLog} (hne : l.offset_term_ ≠ [])
    (hlen : l.offset_term_.length < 2 ^ 64) : l.term l.lastIndex = .ok 0 := by
  rw [term, if_pos (validIndex_lastIndex hne hlen)]

/-- `Term` on a log without entries reads outside the table. -/
theorem term_empty {l : RaftLog} (h : l.offset_term_ = []) (index : Int) :
    l.term index = .error .outOfBounds := by
  apply term_invalid
  simp [validIndex, h]

/-! ## Padding

    The same entries, appended over different stack contents.
-/

section padding

variable (pb : Protobuf LogEntry) {es es' : List PaddedEntry}

theorem sizes_congr (hsame : es.map PaddedEntry.toLogEntry = es'.map PaddedEntry.toLogEntry) :
    sizes pb es = sizes pb es' := by
  have hsizes : ∀ xs : List PaddedEntry, sizes pb xs =
      (xs.map PaddedEntry.toLogEntry).map fun e => LogHeader.size + (pb.serialize e).length := by
    intro xs
    rw [sizes, List.map_map]
    rfl
  rw [hsizes, hsizes, hsame]

theorem table_congr (hsame : es.map PaddedEntry.toLogEntry = es'.map PaddedEntry.toLogEntry)
    (off : Nat) : table pb off es = table pb off es' := by
  induction es generalizing es' off with
  | nil =>
    obtain rfl : es' = [] := by simpa using hsame.symm
    rfl
  | cons e es ih =>
    cases es' with
    | nil => simp at hsame
    | cons e' es' =>
      obtain ⟨he, hsame⟩ := List.cons.inj hsame
      rw [table, table, he, ih hsame]

/-- Two records of the same entry differ only in the padding of the header. -/
theorem record_differ {e e' : PaddedEntry} (hsame : e.toLogEntry = e'.toLogEntry) {i : Nat}
    (hdiff : (record pb e)[i]? ≠ (record pb e')[i]?) :
    e.padding ≠ e'.padding ∧ 12 ≤ i ∧ i < LogHeader.size := by
  have hparts : ∀ x : PaddedEntry, record pb x =
      (Bytes.leSigned 8 x.term ++ Bytes.leSigned 4 (pb.serialize x).length) ++
        (Bytes.le 4 x.padding ++ pb.serialize x) := by
    intro x
    simp only [record, LogHeader.image, headerOf, List.append_assoc]
  rw [hparts, hparts, hsame] at hdiff
  obtain ⟨hpad, hlow, hhigh⟩ := Records.differ_between
    ((Bytes.length_le 4 e.padding).trans (Bytes.length_le 4 e'.padding).symm) hdiff
  simp only [List.length_append, Bytes.length_leSigned, Bytes.length_le] at hlow hhigh
  exact ⟨fun h => hpad (by rw [h]), hlow, hhigh⟩

/-- Records of the same entries differ only in the padding of headers. -/
theorem records_differ (hsame : es.map PaddedEntry.toLogEntry = es'.map PaddedEntry.toLogEntry)
    (off : Nat) {i : Nat} (hdiff : (records pb es)[i]? ≠ (records pb es')[i]?) :
    ∃ (k : Nat) (x : Nat × Int), es[k]?.map PaddedEntry.padding ≠ es'[k]?.map PaddedEntry.padding ∧
      (table pb off es)[k]? = some x ∧ x.1 + 12 ≤ off + i ∧ off + i < x.1 + LogHeader.size := by
  induction es generalizing es' off i with
  | nil =>
    obtain rfl : es' = [] := by simpa using hsame.symm
    exact absurd rfl hdiff
  | cons e es ih =>
    cases es' with
    | nil => simp at hsame
    | cons e' es' =>
      obtain ⟨he, hsame⟩ := List.cons.inj hsame
      have hlen : (record pb e').length = (record pb e).length := by
        rw [length_record, length_record, he]
      rw [records, records] at hdiff
      by_cases hfirst : i < (record pb e).length
      · -- In the first record.
        rw [List.getElem?_append_left hfirst, List.getElem?_append_left (hlen ▸ hfirst)] at hdiff
        obtain ⟨hpad, hlow, hhigh⟩ := record_differ pb he hdiff
        exact ⟨0, (off, e.term), by simpa using hpad, rfl, by omega, by omega⟩
      · -- In a later one, which lies behind the first.
        have hle : (record pb e).length ≤ i := Nat.le_of_not_lt hfirst
        rw [List.getElem?_append_right hle, List.getElem?_append_right (hlen ▸ hle), hlen] at hdiff
        obtain ⟨k, x, hpad, hx, hlow, hhigh⟩ := ih hsame (off + (record pb e).length) hdiff
        rw [length_record] at hx hle hlow hhigh
        exact ⟨k + 1, x, hpad, hx, by omega, by omega⟩

end padding

end RaftLog

/-! ## A wire format -/

/-- An entry with a command, over zeros in the padding. -/
def dataEntry (term index : Int) (command : Bytes) : PaddedEntry :=
  { type := .data, term := term, index := index, command := command, padding := 0 }

def EntryType.number : EntryType → UInt8
  | .noop => 0
  | .data => 1
  | .configuration => 3

def EntryType.ofNumber (n : UInt8) : EntryType :=
  if n = 0 then .noop else if n = 1 then .data else .configuration

/-- The wire format of `LogEntry` as far as every number in it is below 128 and
    takes one byte: a tag before each field, and a length before the command. -/
def protoFormat : Protobuf LogEntry where
  serialize := fun e =>
    [0x08, e.type.number, 0x10, UInt8.ofNat e.term.toNat, 0x18, UInt8.ofNat e.index.toNat,
      0x22, UInt8.ofNat e.command.length] ++ e.command
  parse := fun bs =>
    { type := EntryType.ofNumber (bs.getD 1 0)
      term := (bs.getD 3 0).toNat
      index := (bs.getD 5 0).toNat
      command := bs.drop 8 }

end JNet
