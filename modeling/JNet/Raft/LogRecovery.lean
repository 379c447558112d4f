import JNet.Raft.LogLayout

/-! # Reading a log back

    `Load` rediscovers the records that `Append` has laid out.  On a whole file
    it restores the log; on a file that was cut somewhere it restores the
    records before the cut only if the cut falls between two of them.
-/

namespace JNet

open Memory

namespace RaftLog

variable {pb : Protobuf LogEntry}

/-! ## One record -/

/-- A read that lies wholly in the file. -/
theorem read_within {s : Storage} (hs : s.failing = false) (pre data rest : Bytes)
    (hfile : s.file = pre ++ (data ++ rest)) :
    s.read data.length pre.length = ((data.length : Int), data) := by
  have hdata : (s.file.drop pre.length).take data.length = data := by
    rw [hfile, List.drop_left, List.take_left]
  rw [read_works hs, hdata]

/-- The loop on a record that lies wholly in the file. -/
theorem loadLoop_record {n : Nat} {l : RaftLog} (hs : l.storage_.failing = false)
    {e : PaddedEntry} (he : Storable pb e) (pre rest : Bytes) (hpre : pre.length = l.bytes_)
    (hfile : l.storage_.file = pre ++ (record pb e ++ rest))
    (hn : l.bytes_ < n) :
    loadLoop n l = loadLoop n { l with
      offset_term_ := l.offset_term_ ++ [(l.bytes_, e.term)]
      bytes_ := l.bytes_ + (LogHeader.size + (pb.serialize e).length) } := by
  have hhead : l.storage_.read LogHeader.size l.bytes_ =
      ((LogHeader.size : Int), (headerOf pb e).image e.padding) := by
    have := read_within hs pre ((headerOf pb e).image e.padding)
      (pb.serialize e ++ rest) (by rw [hfile, record]; simp)
    rwa [length_headerImage, hpre] at this
  have hbody : l.storage_.read (pb.serialize e).length (l.bytes_ + LogHeader.size) =
      (((pb.serialize e).length : Int), pb.serialize e) := by
    have := read_within hs (pre ++ (headerOf pb e).image e.padding)
      (pb.serialize e) rest (by rw [hfile, record]; simp)
    rwa [List.length_append, length_headerImage, hpre] at this
  have hover : overlay (LogHeader.image {} 0) ((headerOf pb e).image e.padding) =
      (headerOf pb e).image e.padding :=
    overlay_full (by rw [length_headerImage, length_headerImage])
  have hok : ∀ n : Nat, (n : Int) ≠ -1 := by omega
  have hlen : ¬ (headerOf pb e).len_ < 0 := by simp only [headerOf]; omega
  -- The header read is the header written, and its length takes the loop to the next record.
  rw [loadLoop, if_pos hn]
  simp only [hhead, if_neg (hok _), hover, ofImage_image he.fits (headerOf_fits he.size_lt),
    if_neg hlen]
  have hlen' : (headerOf pb e).len_ = (pb.serialize e).length := rfl
  simp only [hlen', hbody, if_neg (hok _), Int.toNat_natCast]
  rfl

/-! ## Many records -/

/-- The loop on records that lie wholly in the file. -/
theorem loadLoop_records {n : Nat} {l : RaftLog} (hs : l.storage_.failing = false)
    {es : List PaddedEntry} (hes : ∀ e ∈ es, Storable pb e) (pre rest : Bytes)
    (hpre : pre.length = l.bytes_)
    (hfile : l.storage_.file = pre ++ (records pb es ++ rest))
    (hn : n = l.storage_.file.length) :
    loadLoop n l = loadLoop n { l with
      offset_term_ := l.offset_term_ ++ table pb l.bytes_ es
      bytes_ := l.bytes_ + (sizes pb es).sum } := by
  induction es generalizing l pre with
  | nil => simp [table, sizes]
  | cons e es ih =>
    -- A header is at least 16 bytes, so the loop goes on.
    have hlt : l.bytes_ < n := by
      rw [hn, hfile]
      simp only [records, List.length_append, length_record, hpre, LogHeader.size]
      omega
    have hrest : ∀ e' ∈ es, Storable pb e' := by
      intro e' he'
      exact hes e' (by simp [he'])
    rw [loadLoop_record hs (hes e (by simp)) pre (records pb es ++ rest) hpre
      (by rw [hfile, records]; simp) hlt]
    refine (ih (l := { l with
      offset_term_ := l.offset_term_ ++ [(l.bytes_, e.term)]
      bytes_ := l.bytes_ + (LogHeader.size + (pb.serialize e).length) }) hs hrest
      (pre ++ record pb e) ?_ ?_ hn).trans ?_
    · simp [hpre]
    · simp [hfile, records]
    · simp [table, Nat.add_assoc]

/-- Behind the last record the loop ends. -/
theorem loadLoop_done {n : Nat} {l : RaftLog} (h : n ≤ l.bytes_) : loadLoop n l = .ok l := by
  rw [loadLoop, if_neg (by omega)]

/-- `Load` on a file that starts with the records of `es`. -/
theorem load_records {f : Int} (hf : Bytes.FitsSigned 8 f) {es : List PaddedEntry}
    (hes : ∀ e ∈ es, Storable pb e) (rest : Bytes) :
    load { storage_ := { file := image pb f es ++ rest } } =
      loadLoop (image pb f es ++ rest).length
        { logOf pb f es with storage_ := { file := image pb f es ++ rest } } := by
  have hread : (Storage.mk (image pb f es ++ rest) false).read 8 0 = (8, Bytes.leSigned 8 f) := by
    have := read_within (s := ⟨image pb f es ++ rest, false⟩) rfl [] (Bytes.leSigned 8 f)
      (records pb es ++ rest) (by simp [image])
    simpa using this
  have hover : overlay (Bytes.leSigned 8 (-1)) (Bytes.leSigned 8 f) = Bytes.leSigned 8 f :=
    overlay_full (by rw [Bytes.length_leSigned, Bytes.length_leSigned])
  unfold load
  simp only [hread, hover, Bytes.signed_leNat_leSigned hf]
  rw [if_neg (by decide)]
  refine (loadLoop_records (l := ⟨f, 0 + 8, [], { file := image pb f es ++ rest }⟩) rfl hes
    (Bytes.leSigned 8 f) rest ?_ ?_ rfl).trans ?_
  · simp
  · simp [image]
  · simp [logOf]

/-- `Load` on the whole file restores the log. -/
theorem load_image {f : Int} (hf : Bytes.FitsSigned 8 f) {es : List PaddedEntry}
    (hes : ∀ e ∈ es, Storable pb e) :
    load { storage_ := { file := image pb f es } } = .ok (logOf pb f es) := by
  have h := load_records hf hes []
  rw [List.append_nil] at h
  rw [h, loadLoop_done]
  · rfl
  · simp [logOf, length_image]

/-! ## The round trip -/

/-- Two objects that `more` and `more'` were appended to, the same entries but for the
    padding, when their tables had `n` elements: their files differ only in the
    padding of the headers. -/
structure AgreeUpToPadding (n : Nat) (more more' : List PaddedEntry) (l l' : RaftLog) : Prop where
  bytes : l.bytes_ = l'.bytes_
  offset_term : l.offset_term_ = l'.offset_term_
  length : l.storage_.file.length = l'.storage_.file.length
  differ : ∀ i, l.storage_.file[i]? ≠ l'.storage_.file[i]? →
    ∃ (k : Nat) (x : Nat × Int),
      more[k]?.map PaddedEntry.padding ≠ more'[k]?.map PaddedEntry.padding ∧
      l.offset_term_[n + k]? = some x ∧ x.1 + 12 ≤ i ∧ i < x.1 + LogHeader.size

/-- Appending the same entries to the same log, over different stack contents. -/
theorem appendAll_agree {l : RaftLog} (h : AtEnd l) {more more' : List PaddedEntry}
    (hsame : more.map PaddedEntry.toLogEntry = more'.map PaddedEntry.toLogEntry)
    (hsmall : ∀ e ∈ more, (pb.serialize e).length < 2 ^ 31) :
    AgreeUpToPadding l.offset_term_.length more more' (l.appendAll pb more)
      (l.appendAll pb more') := by
  have hsmall' : ∀ e ∈ more', (pb.serialize e).length < 2 ^ 31 := by
    intro e' he'
    have hmem : e'.toLogEntry ∈ more.map PaddedEntry.toLogEntry :=
      hsame ▸ List.mem_map_of_mem he'
    obtain ⟨e, he, heq⟩ := List.mem_map.mp hmem
    rw [← heq]
    exact hsmall e he
  rw [appendAll_eq h hsmall, appendAll_eq h hsmall']
  refine ⟨?_, ?_, ?_, ?_⟩
  · simp only [extend, sizes_congr pb hsame]
  · simp only [extend, table_congr pb hsame]
  · simp only [extend, List.length_append, length_records, sizes_congr pb hsame]
  · intro i hdiff
    simp only [extend] at hdiff ⊢
    -- What was in the file before is common to both.
    by_cases hold : i < l.storage_.file.length
    · rw [List.getElem?_append_left hold, List.getElem?_append_left hold] at hdiff
      exact absurd rfl hdiff
    · have hle : l.storage_.file.length ≤ i := Nat.le_of_not_lt hold
      rw [List.getElem?_append_right hle, List.getElem?_append_right hle] at hdiff
      obtain ⟨k, x, hpad, hx, hlow, hhigh⟩ := records_differ pb hsame l.bytes_ hdiff
      have hend := h.ends
      refine ⟨k, x, hpad, ?_, by omega, by omega⟩
      rw [List.getElem?_append_right (by omega), Nat.add_sub_cancel_left]
      exact hx

/-- A log is the same after it was closed and loaded again, and it goes on in
    the same way, up to the padding of the headers it goes on with. -/
theorem load_built (pb : Protobuf LogEntry) (f : Int) (hf : Bytes.FitsSigned 8 f)
    (es : List PaddedEntry) (hes : ∀ e ∈ es, Storable pb e) :
    ∃ l, load { storage_ := (built pb f es).storage_ } = .ok l ∧
      l.firstIndex_ = (built pb f es).firstIndex_ ∧
      l.bytes_ = (built pb f es).bytes_ ∧
      l.offset_term_ = (built pb f es).offset_term_ ∧
      (built pb f es).bytes_ = (built pb f es).storage_.fileSize ∧
      ∀ more more' : List PaddedEntry,
        more.map PaddedEntry.toLogEntry = more'.map PaddedEntry.toLogEntry →
        (∀ e ∈ more, (pb.serialize e).length < 2 ^ 31) →
        AgreeUpToPadding es.length more more' (l.appendAll pb more)
          ((built pb f es).appendAll pb more') := by
  have hbuilt : built pb f es = logOf pb f es :=
    built_eq fun e he => (hes e he).size_lt
  rw [hbuilt]
  refine ⟨logOf pb f es, load_image hf hes, rfl, rfl, rfl, (logOf_atEnd pb f es).ends, ?_⟩
  intro more more' hsame hsmall
  have hagree := appendAll_agree (logOf_atEnd pb f es) hsame hsmall
  rwa [logOf_offset_term, length_table] at hagree

/-- Two entries, closed and loaded, and a third behind them. -/
theorem load_built_two :
    ∃ l, load { storage_ :=
        (built protoFormat 1 [dataEntry 1 1 [97], dataEntry 2 2 [98, 0]]).storage_ } = .ok l ∧
      l.firstIndex_ = 1 ∧ l.bytes_ = 59 ∧ l.offset_term_ = [(8, 1), (33, 2)] ∧
      AgreeUpToPadding 2 [{ dataEntry 2 3 [99] with padding := 7 }] [dataEntry 2 3 [99]]
        (l.appendAll protoFormat [{ dataEntry 2 3 [99] with padding := 7 }])
        ((built protoFormat 1 [dataEntry 1 1 [97], dataEntry 2 2 [98, 0]]).appendAll protoFormat
          [dataEntry 2 3 [99]]) := by
  have hes : ∀ e ∈ [dataEntry 1 1 [97], dataEntry 2 2 [98, 0]], Storable protoFormat e := by
    intro e he
    simp only [List.mem_cons, List.not_mem_nil, or_false] at he
    rcases he with rfl | rfl
    · exact ⟨by decide, by decide⟩
    · exact ⟨by decide, by decide⟩
  obtain ⟨l, hl, hfirst, hbytes, htable, -, hmore⟩ :=
    load_built protoFormat 1 (by decide) _ hes
  exact ⟨l, hl, hfirst, hbytes, htable, hmore _ _ rfl (by decide)⟩

/-- An entry appended to a loaded log over other stack contents than to the log it was
    loaded from: the files are not equal. -/
theorem load_built_padding :
    ∃ l, load { storage_ := (built protoFormat 1 []).storage_ } = .ok l ∧
      Storable protoFormat (dataEntry 1 1 [97]) ∧
      (l.append protoFormat (dataEntry 1 1 [97]) 1).storage_.file ≠
        ((built protoFormat 1 []).append protoFormat (dataEntry 1 1 [97]) 0).storage_.file := by
  refine ⟨logOf protoFormat 1 [], ?_, ⟨by decide, by decide⟩, by decide⟩
  rw [built_eq (by simp)]
  exact load_image (by decide) (by simp)

/-! ## A cut file -/

/-- The loop never takes an element out of the table, and it puts one in if it
    finds anything at all to read. -/
theorem loadLoop_length {n : Nat} {l l' : RaftLog} (hs : l.storage_.failing = false)
    (h : loadLoop n l = .ok l') :
    l.offset_term_.length ≤ l'.offset_term_.length ∧
      (l.bytes_ < n → l.offset_term_.length < l'.offset_term_.length) := by
  fun_induction loadLoop n l with
  | case1 l hn got hread =>
    -- A working storage does not return -1.
    simp [Storage.read, hs, LogHeader.size] at hread
    omega
  | case2 l hn r got hread hok header hneg => cases h  -- a negative array size
  | case3 l hn r got hread hok header l₁ hlen got' hfail =>
    obtain rfl := Except.ok.inj h
    simp [l₁]
  | case4 l hn r got hread hok header l₁ hlen r' got' hread' hok' ih =>
    -- The element is pushed before the rest of the loop, which only adds to it.
    obtain ⟨hle, -⟩ := ih hs h
    simp only [l₁, List.length_append, List.length_singleton] at hle
    omega
  | case5 l hn =>
    obtain rfl := Except.ok.inj h
    exact ⟨Nat.le_refl _, fun hlt => absurd hlt hn⟩

/-- What `Load` should do with the first `c` bytes of a file: restore exactly the
    entries whose records lie wholly within them. -/
def Recovers (pb : Protobuf LogEntry) (f : Int) (es : List PaddedEntry) (c : Nat) : Prop :=
  ∃ l, load { storage_ := { file := (built pb f es).storage_.file.take c } } = .ok l ∧
    l.firstIndex_ = (built pb f es).firstIndex_ ∧
    l.offset_term_ =
      (built pb f es).offset_term_.take (Records.complete (sizes pb es) (c - 8)) ∧
    l.bytes_ = 8 + Records.endOf (sizes pb es) (Records.complete (sizes pb es) (c - 8))

/-- The first `c` bytes of a file, `k` whole records and what follows them. -/
theorem image_take (pb : Protobuf LogEntry) (f : Int) (es : List PaddedEntry) {c k : Nat}
    (hk : 8 + Records.endOf (sizes pb es) k ≤ c) :
    ∃ rest, (image pb f es).take c = image pb f (es.take k) ++ rest := by
  have hsplit := image_append pb f (es.take k) (es.drop k)
  rw [List.take_append_drop] at hsplit
  refine ⟨(records pb (es.drop k)).take
    (c - (image pb f (es.take k)).length), ?_⟩
  rw [hsplit, List.take_append, List.take_of_length_le]
  rw [length_image, sizes_take]
  exact hk

/-- `Load` recovers the whole records of a cut file exactly when the cut falls
    between two records. -/
theorem load_cut_iff (pb : Protobuf LogEntry) (f : Int) (hf : Bytes.FitsSigned 8 f)
    (es : List PaddedEntry) (hes : ∀ e ∈ es, Storable pb e) (c : Nat) (h8 : 8 ≤ c)
    (hc : c ≤ (built pb f es).storage_.fileSize) :
    Recovers pb f es c ↔ ∃ k, k ≤ es.length ∧ c = 8 + Records.endOf (sizes pb es) k := by
  have hbuilt : built pb f es = logOf pb f es :=
    built_eq fun e he => (hes e he).size_lt
  have hsub : ∀ k, ∀ e ∈ es.take k, Storable pb e := by
    intro k e he
    exact hes e (List.mem_of_mem_take he)
  have hsize : c ≤ (image pb f es).length := by
    rw [hbuilt] at hc
    exact hc
  rw [Recovers, hbuilt]
  obtain ⟨k, hk⟩ : ∃ k, k = Records.complete (sizes pb es) (c - 8) := ⟨_, rfl⟩
  rw [← hk]
  have hkle : k ≤ es.length := by
    have := Records.complete_le_length (sizes pb es) (c - 8)
    rw [length_sizes] at this
    omega
  have hend : Records.endOf (sizes pb es) k ≤ c - 8 := hk ▸ Records.endOf_complete_le _ _
  obtain ⟨rest, hrest⟩ := image_take pb f es (c := c) (k := k) (by omega)
  have hload := load_records hf (hsub k) rest
  rw [← hrest] at hload
  constructor
  · intro ⟨l, hl, _, htable, _⟩
    refine ⟨k, hkle, ?_⟩
    by_contra hne
    -- Bytes are left behind the last whole record, and the loop makes an entry of them.
    rw [logOf_file, hload] at hl
    have hlt : (logOf pb f (es.take k)).bytes_ < ((image pb f es).take c).length := by
      rw [logOf_bytes, List.length_take, sizes_take]
      omega
    have hpush := (loadLoop_length rfl hl).2 hlt
    rw [htable] at hpush
    simp at hpush
  · intro ⟨j, hj, hcj⟩
    have hpos : ∀ n ∈ sizes pb es, 0 < n := by
      intro n hn
      simp only [sizes, List.mem_map] at hn
      obtain ⟨e, _, rfl⟩ := hn
      simp [LogHeader.size]
    -- The records up to the cut are exactly the complete ones.
    have hkj : k = j := by
      rw [hk, hcj, Nat.add_sub_cancel_left]
      exact Records.complete_endOf hpos (by rwa [length_sizes])
    subst hkj
    refine ⟨{ logOf pb f (es.take k) with storage_ := { file := (image pb f es).take c } },
      ?_, rfl, ?_, ?_⟩
    · rw [logOf_file, hload, loadLoop_done]
      rw [logOf_bytes, List.length_take, sizes_take]
      omega
    · exact (table_take pb 8 k es).symm
    · rw [logOf_bytes, sizes_take]

/-- A cut behind the first of two records. -/
theorem load_cut_between :
    Recovers protoFormat 1 [dataEntry 1 1 [97], dataEntry 2 2 [98]] 33 := by
  apply (load_cut_iff protoFormat 1 (by decide) [dataEntry 1 1 [97], dataEntry 2 2 [98]] ?_ 33
    (by decide) (by decide)).mpr
  · exact ⟨1, by decide, by decide⟩
  · intro e he
    simp only [List.mem_cons, List.not_mem_nil, or_false] at he
    rcases he with rfl | rfl
    · exact ⟨by decide, by decide⟩
    · exact ⟨by decide, by decide⟩

/-- A cut one byte into the first header: the log comes back with an entry that
    was never complete. -/
theorem load_cut_inside :
    8 ≤ 9 ∧ 9 ≤ (built protoFormat 1 [dataEntry 1 1 [97]]).storage_.fileSize ∧
    (∀ e ∈ [dataEntry 1 1 [97]], Storable protoFormat e) ∧
    ¬ Recovers protoFormat 1 [dataEntry 1 1 [97]] 9 := by
  refine ⟨by decide, by decide, ?_, ?_⟩
  · intro e he
    obtain rfl : e = dataEntry 1 1 [97] := by simpa using he
    exact ⟨by decide, by decide⟩
  · intro ⟨l, hl, _, htable, _⟩
    have hfile : (built protoFormat 1 [dataEntry 1 1 [97]]).storage_.file.take 9 =
        image protoFormat 1 [] ++ [1] := by decide
    rw [hfile, load_records (by decide) (by simp)] at hl
    have hpush := (loadLoop_length rfl hl).2 (by decide)
    rw [htable] at hpush
    revert hpush
    decide

end RaftLog

end JNet
