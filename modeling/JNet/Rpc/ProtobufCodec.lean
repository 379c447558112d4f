import JNet.Lib.LTS
import JNet.Lib.Records
import JNet.Net.Buffer

/-! # `jrpc::ProtobufCodec`

    Length-prefixed messages over a byte stream
    (`rpc/protobuf/protobuf_codec.cc`).  The connection's input buffer is taken
    as a byte queue; reading behind its end is a fault.

    The message classes are generated code outside the repository, so the codec
    is modelled over an arbitrary serializer and parser.
-/

namespace JNet

open Memory

namespace ProtobufCodec

variable {Msg : Type}

/-! ## Sending -/

/-- `SerializeToBuffer`: the payload is stored four bytes behind the begin of the
    buffer, without asking for room, and then counted into its size. -/
def serializeToBuffer (pb : Protobuf Msg) (m : Msg) (buf : Buffer) :
    Except Fault (Buffer × Nat) := do
  let byte_size := (pb.serialize m).length
  let mem ← store buf.buf_ (buf.b_ + 4) ((pb.serialize m).map some)
  return (({ buf with buf_ := mem } : Buffer).addSize byte_size, byte_size)

/-- `FillEmptyBuffer`: a zero in place of the length, the payload, and then the
    length over the zero. -/
def fillEmptyBuffer (pb : Protobuf Msg) (m : Msg) (buf : Buffer) : Except Fault Buffer :=
  if buf.getSize ≠ 0 then .error .assertion
  else do
    let buf ← buf.append ((Bytes.be 4 0).map some)
    let (buf, byte_size) ← serializeToBuffer pb m buf
    let mem ← store buf.buf_ buf.b_ ((Bytes.be 4 byte_size).map some)
    return { buf with buf_ := mem }

/-- The frame of a message: its length in network order, then its payload. -/
def frame (pb : Protobuf Msg) (m : Msg) : Bytes :=
  Bytes.be 4 (pb.serialize m).length ++ pb.serialize m

@[simp] theorem length_frame (pb : Protobuf Msg) (m : Msg) :
    (frame pb m).length = 4 + (pb.serialize m).length := by
  simp [frame]

/-- What `AppendInt32(0)` makes of a fresh buffer: the zero, and the rest of the
    first allocation behind it. -/
theorem append_zero :
    ({} : Buffer).append ((Bytes.be 4 0).map some) =
      .ok { buf_ := (Bytes.be 4 0).map some ++ List.replicate 4092 none, e_ := 4, cap_ := 4096 } := by
  have happ := Buffer.append_empty (p := (Bytes.be 4 0).map some) (c := 4096)
    (by simp) (by simp) (by simp)
  have hlen : ((Bytes.be 4 0).map (some : UInt8 → Cell)).length = 4 := by simp
  rw [hlen] at happ
  exact happ

/-- The payload goes into the free cells behind the zero, if there are enough. -/
theorem store_payload (payload : Bytes) :
    store ((Bytes.be 4 0).map some ++ List.replicate 4092 none) 4 (payload.map some) =
      if payload.length ≤ 4092 then
        .ok ((Bytes.be 4 0).map some ++ payload.map some ++
          List.replicate (4092 - payload.length) none)
      else .error .outOfBounds := by
  have hlen : ((Bytes.be 4 0).map (some : UInt8 → Cell)).length = 4 := by simp
  have hroom : 4 + (payload.map (some : UInt8 → Cell)).length ≤
      ((Bytes.be 4 0).map some ++ List.replicate 4092 none).length ↔ payload.length ≤ 4092 := by
    rw [List.length_append, hlen, List.length_replicate, List.length_map]
    omega
  unfold store
  by_cases hfit : payload.length ≤ 4092
  · rw [if_pos (hroom.mpr hfit), if_pos hfit, List.take_left' hlen, List.drop_append, hlen,
      List.drop_replicate, List.drop_eq_nil_of_le (by simp)]
    simp
  · rw [if_neg (mt hroom.mp hfit), if_neg hfit]

/-- A message whose frame fits the first allocation is framed. -/
theorem fillEmptyBuffer_frame (pb : Protobuf Msg) (m : Msg)
    (hfit : (frame pb m).length ≤ 4096) :
    ∃ buf, fillEmptyBuffer pb m {} = .ok buf ∧ buf.contents = (frame pb m).map some ∧
      buf.e_ ≤ buf.cap_ := by
  rw [length_frame] at hfit
  have hzero : ({} : Buffer).getSize = 0 := Buffer.WF.empty.getSize_eq
  have hpay := store_payload (pb.serialize m)
  rw [if_pos (by omega)] at hpay
  -- The length goes over the zero.
  have hhead : ∀ tail : List Cell, store ((Bytes.be 4 0).map some ++ tail) 0
      ((Bytes.be 4 (pb.serialize m).length).map some) =
      .ok ((Bytes.be 4 (pb.serialize m).length).map some ++ tail) := by
    intro tail
    rw [store, if_pos (by simp)]
    simp
  rw [fillEmptyBuffer, if_neg (by simp [hzero]), append_zero]
  simp only [bind, Except.bind, serializeToBuffer, hpay, Nat.zero_add, Buffer.addSize,
    List.append_assoc, hhead, pure, Except.pure]
  refine ⟨_, rfl, ?_, ?_⟩
  · rw [sizeT_of_lt (by omega), Buffer.contents]
    simp only [frame, List.map_append, List.drop_zero, Nat.sub_zero]
    rw [← List.append_assoc]
    exact List.take_left' (by simp)
  · rw [sizeT_of_lt (by omega)]
    show 4 + (pb.serialize m).length ≤ 4096
    omega

/-- A longer one is stored over the end of the allocation: the append of the
    length has made room for itself only. -/
theorem fillEmptyBuffer_overruns (pb : Protobuf Msg) (m : Msg)
    (hlong : 4096 < (frame pb m).length) :
    fillEmptyBuffer pb m {} = .error .outOfBounds := by
  rw [length_frame] at hlong
  have hzero : ({} : Buffer).getSize = 0 := Buffer.WF.empty.getSize_eq
  have hpay := store_payload (pb.serialize m)
  rw [if_neg (by omega)] at hpay
  rw [fillEmptyBuffer, if_neg (by simp [hzero]), append_zero]
  simp only [bind, Except.bind, serializeToBuffer, hpay, Nat.zero_add]

/-- **Frame encoding**: the frame of a message is stored inside the buffer exactly
    when its payload leaves room for the length in the 4096 bytes of the first
    allocation. -/
theorem fillEmptyBuffer_fits_iff (pb : Protobuf Msg) (m : Msg) :
    (∃ buf, fillEmptyBuffer pb m {} = .ok buf ∧ buf.contents = (frame pb m).map some ∧
      buf.e_ ≤ buf.cap_) ↔ (pb.serialize m).length ≤ 4092 := by
  have hframe := length_frame pb m
  constructor
  · intro hcase
    rcases hcase with ⟨buf, hbuf, -⟩
    by_contra hlong
    rw [fillEmptyBuffer_overruns pb m (by omega)] at hbuf
    cases hbuf
  · intro hfit
    exact fillEmptyBuffer_frame pb m (by omega)

/-- A message class of which only the size of a message matters. -/
def sized : Protobuf Nat where
  serialize n := List.replicate n 97
  parse bs := bs.length

/-- A message of 4093 bytes. -/
theorem fillEmptyBuffer_too_long :
    ¬ ∃ buf, fillEmptyBuffer sized 4093 {} = .ok buf ∧
      buf.contents = (frame sized 4093).map some ∧ buf.e_ ≤ buf.cap_ := by
  have hsize : (sized.serialize 4093).length = 4093 := List.length_replicate
  have hlong : 4096 < (frame sized 4093).length := by
    rw [length_frame, hsize]
    decide
  intro hcase
  rcases hcase with ⟨buf, hbuf, -⟩
  rw [fillEmptyBuffer_overruns sized 4093 hlong] at hbuf
  cases hbuf

/-- The stream a sequence of messages makes. -/
def stream (pb : Protobuf Msg) (ms : List Msg) : Bytes := (ms.map (frame pb)).flatten

/-- The frame sizes of a sequence of messages. -/
def sizes (pb : Protobuf Msg) (ms : List Msg) : List Nat := ms.map fun m => (frame pb m).length

/-! ## Receiving -/

/-- `PeekInt32()` on the input: four bytes in network order, which must be there. -/
def peekInt32 (buf : Bytes) : Except Fault Int :=
  if 4 ≤ buf.length then .ok (Bytes.signed 4 (Bytes.beNat (buf.take 4))) else .error .assertion

/-- One call of `OnMessage`: the input it leaves and the messages it hands to the
    callback. -/
def onMessage (pb : Protobuf Msg) (buf : Bytes) : Except Fault (Bytes × List Msg) :=
  match peekInt32 buf with
  | .error f => .error f
  | .ok len =>
    let n := (len % 2 ^ 64).toNat  -- static_cast<size_t>(len)
    if n ≤ buf.length then
      if buf.length < 4 + n then .error .outOfBounds
      else if 2 ^ 31 ≤ len + 4 then .error .overflow
      else .ok (buf.drop (n + 4), [pb.parse ((buf.drop 4).take n)])
    else .ok (buf, [])

/-- A chunk arrives: it is appended to the input and `OnMessage` is called. -/
def onChunk (pb : Protobuf Msg) (s : Bytes × List Msg) (chunk : Bytes) :
    Except Fault (Bytes × List Msg) :=
  match onMessage pb (s.1 ++ chunk) with
  | .error f => .error f
  | .ok (buf, got) => .ok (buf, s.2 ++ got)

/-- The input and the messages delivered after a sequence of chunks. -/
def receive (pb : Protobuf Msg) (chunks : List Bytes) : Except Fault (Bytes × List Msg) :=
  LTS.run (onChunk pb) ([], []) chunks

/-! ## What should have happened -/

/-- After the first `p` bytes of the stream: the messages whose frames are
    complete have been delivered, and the input holds the rest. -/
def Delivered (pb : Protobuf Msg) (ms : List Msg) (p : Nat) (s : Bytes × List Msg) : Prop :=
  s.2 = ms.take (Records.complete (sizes pb ms) p) ∧
  s.1 = ((stream pb ms).take p).drop (Records.endOf (sizes pb ms) (Records.complete (sizes pb ms) p))

/-- A chunk that takes the stream from `p` to `q` bytes suits the code: the
    length prefix of the current frame is there, at most one frame gets
    complete, and if none does then more than four bytes of it are missing. -/
structure ChunkOk (sizes : List Nat) (p q : Nat) : Prop where
  prefixed : Records.endOf sizes (Records.complete sizes p) + 4 ≤ q
  single : Records.complete sizes q ≤ Records.complete sizes p + 1
  apart : Records.complete sizes q = Records.complete sizes p →
    q + 4 < Records.endOf sizes (Records.complete sizes p + 1)
  small : Records.complete sizes q = Records.complete sizes p + 1 →
    Records.endOf sizes (Records.complete sizes p + 1) <
      Records.endOf sizes (Records.complete sizes p) + 2 ^ 31

/-! ## Positions in the stream -/

@[simp] theorem length_sizes (pb : Protobuf Msg) (ms : List Msg) :
    (sizes pb ms).length = ms.length := by
  simp [sizes]

theorem length_stream (pb : Protobuf Msg) (ms : List Msg) :
    (stream pb ms).length = (sizes pb ms).sum := by
  rw [stream, sizes, List.length_flatten, List.map_map]
  rfl

/-- The stream from the end of the first `k` frames on. -/
theorem stream_drop (pb : Protobuf Msg) (ms : List Msg) (k : Nat) :
    (stream pb ms).drop (Records.endOf (sizes pb ms) k) = stream pb (ms.drop k) := by
  induction ms generalizing k with
  | nil => simp [stream]
  | cons m ms ih =>
    cases k with
    | zero => simp
    | succ k =>
      have hcons : stream pb (m :: ms) = frame pb m ++ stream pb ms := by simp [stream]
      have hsizes : sizes pb (m :: ms) = (frame pb m).length :: sizes pb ms := rfl
      rw [hcons, hsizes, Records.endOf_cons_succ, ← List.drop_drop, List.drop_left, ih,
        List.drop_succ_cons]

/-- The bytes from the end of the first `k` frames up to `q`. -/
theorem stream_take_drop (pb : Protobuf Msg) {ms : List Msg} {k : Nat} (hk : k < ms.length)
    (q : Nat) :
    ((stream pb ms).take q).drop (Records.endOf (sizes pb ms) k) =
      (frame pb ms[k] ++ stream pb (ms.drop (k + 1))).take
        (q - Records.endOf (sizes pb ms) k) := by
  rw [List.drop_take, stream_drop, List.drop_eq_getElem_cons hk]
  rfl

/-! ## One call -/

/-- `OnMessage` when the input starts with the first bytes of a frame: the code
    tells five cases apart by how many bytes `buf` holds. -/
theorem onMessage_frame {pb : Protobuf Msg} {m : Msg} (hm : pb.Carries m) (rest : Bytes)
    {size : Nat} (hsize : size ≤ (frame pb m ++ rest).length) :
    onMessage pb ((frame pb m ++ rest).take size) =
      if size < 4 then .error .assertion
      else if size < (pb.serialize m).length then .ok ((frame pb m ++ rest).take size, [])
      else if size < 4 + (pb.serialize m).length then .error .outOfBounds
      else if 2 ^ 31 ≤ (pb.serialize m).length + 4 then .error .overflow
      else .ok (rest.take (size - (4 + (pb.serialize m).length)), [m]) := by
  have hlen : ((frame pb m ++ rest).take size).length = size := by
    rw [List.length_take]; omega
  have hL := hm.size_lt
  by_cases h4 : size < 4
  · rw [if_pos h4, onMessage, peekInt32, if_neg (by rw [hlen]; omega)]
  rw [if_neg h4]
  -- With four bytes there, the length prefix is read back.
  have hpre : ((frame pb m ++ rest).take size).take 4 = Bytes.be 4 (pb.serialize m).length := by
    rw [List.take_take, Nat.min_eq_left (by omega), frame, List.append_assoc]
    exact List.take_left' (by simp)
  have hpeek : peekInt32 ((frame pb m ++ rest).take size) =
      .ok ((pb.serialize m).length : Int) := by
    rw [peekInt32, if_pos (by rw [hlen]; omega), hpre, Bytes.beNat_be (by omega),
      Bytes.signed_of_small (by omega)]
  have hcast : (((pb.serialize m).length : Int) % 2 ^ 64).toNat = (pb.serialize m).length := by
    omega
  rw [onMessage, hpeek]
  simp only [hcast, hlen]
  by_cases hfull : size < (pb.serialize m).length
  · rw [if_neg (by omega), if_pos hfull]
  rw [if_pos (by omega), if_neg hfull]
  by_cases hover : size < 4 + (pb.serialize m).length
  · rw [if_pos hover, if_pos hover]
  rw [if_neg hover, if_neg hover]
  by_cases hbig : 2 ^ 31 ≤ (pb.serialize m).length + 4
  · rw [if_pos hbig, if_pos (by omega)]
  rw [if_neg hbig, if_neg (by omega)]
  -- The whole frame is there: the payload is parsed and the frame consumed.
  have hdrop : ((frame pb m ++ rest).take size).drop ((pb.serialize m).length + 4) =
      rest.take (size - (4 + (pb.serialize m).length)) := by
    rw [List.drop_take, List.drop_left' (by rw [length_frame]; omega)]
    congr 1; omega
  have hpay : (((frame pb m ++ rest).take size).drop 4).take (pb.serialize m).length =
      pb.serialize m := by
    rw [List.drop_take, List.take_take, Nat.min_eq_left (by omega), frame, List.append_assoc,
      List.drop_left' (by simp), List.take_left]
  rw [hdrop, hpay, hm.parse_serialize]

/-- The input when a chunk has taken the stream from `p` to `q` bytes: it starts
    with the frame after the `k` complete ones. -/
theorem input_next {pb : Protobuf Msg} {ms : List Msg} {p q : Nat} (hpq : p < q)
    (hq : q ≤ (stream pb ms).length) {s : Bytes × List Msg} (hs : Delivered pb ms p s)
    {chunk : Bytes} (hchunk : (stream pb ms).take p ++ chunk = (stream pb ms).take q) :
    ∃ (k : Nat) (hk : k < ms.length), Records.complete (sizes pb ms) p = k ∧
      s.2 = ms.take k ∧ Records.endOf (sizes pb ms) k ≤ p ∧
      s.1 ++ chunk = ((stream pb ms).take q).drop (Records.endOf (sizes pb ms) k) ∧
      Records.endOf (sizes pb ms) (k + 1) =
        Records.endOf (sizes pb ms) k + (4 + (pb.serialize ms[k]).length) := by
  obtain ⟨hgot, hbuf⟩ := hs
  obtain ⟨k, hk⟩ : ∃ k, Records.complete (sizes pb ms) p = k := ⟨_, rfl⟩
  rw [hk] at hgot hbuf
  have hend : Records.endOf (sizes pb ms) k ≤ p := hk ▸ Records.endOf_complete_le _ _
  -- Bytes were still to come at `p`, so the first `k` messages are not all.
  have hklt : k < ms.length := by
    by_contra hge
    have hkn : k = (sizes pb ms).length := by
      have := Records.complete_le_length (sizes pb ms) p
      rw [length_sizes] at this ⊢
      omega
    rw [hkn, Records.endOf, List.take_length, ← length_stream] at hend
    omega
  refine ⟨k, hklt, hk, hgot, hend, ?_, ?_⟩
  · rw [← hchunk, List.drop_append_of_le_length, hbuf]
    rw [List.length_take]
    omega
  · rw [Records.endOf_succ (by simpa using hklt)]
    simp [sizes]

/-- `ChunkOk` in terms of the first incomplete frame. -/
theorem chunkOk_iff {sizes : List Nat} {p q k n : Nat} (hk : Records.complete sizes p = k)
    (hsucc : Records.endOf sizes (k + 1) = Records.endOf sizes k + n) :
    ChunkOk sizes p q ↔
      Records.endOf sizes k + 4 ≤ q ∧ Records.complete sizes q ≤ k + 1 ∧
      (Records.complete sizes q = k → q + 4 < Records.endOf sizes (k + 1)) ∧
      (Records.complete sizes q = k + 1 → n < 2 ^ 31) := by
  subst hk
  constructor
  · intro h
    refine ⟨h.prefixed, h.single, h.apart, ?_⟩
    intro hone
    have := h.small hone
    omega
  · intro ⟨hprefixed, hsingle, hapart, hsmall⟩
    refine ⟨hprefixed, hsingle, hapart, ?_⟩
    intro hone
    have := hsmall hone
    omega

/-- A chunk that continues the stream from `p` to `q` bytes keeps the receiver
    right exactly when it suits the code. -/
theorem onChunk_delivered_iff {pb : Protobuf Msg} {ms : List Msg}
    (hms : ∀ m ∈ ms, pb.Carries m) {p q : Nat} (hpq : p < q) (hq : q ≤ (stream pb ms).length)
    {s : Bytes × List Msg} (hs : Delivered pb ms p s) {chunk : Bytes}
    (hchunk : (stream pb ms).take p ++ chunk = (stream pb ms).take q) :
    (∃ s', onChunk pb s chunk = .ok s' ∧ Delivered pb ms q s') ↔ ChunkOk (sizes pb ms) p q := by
  obtain ⟨k, hklt, hk, hgot, hend, hinput, hsucc⟩ := input_next hpq hq hs hchunk
  have hmono : k ≤ Records.complete (sizes pb ms) q := hk ▸ Records.complete_mono _ hpq.le
  have hnext : k + 1 ≤ Records.complete (sizes pb ms) q ↔
      Records.endOf (sizes pb ms) (k + 1) ≤ q :=
    Records.le_complete_iff (by rw [length_sizes]; exact hklt)
  have hsize : q - Records.endOf (sizes pb ms) k ≤
      (frame pb ms[k] ++ stream pb (ms.drop (k + 1))).length := by
    have hlen := congrArg List.length (stream_take_drop pb hklt (stream pb ms).length)
    simp only [List.length_drop, List.length_take] at hlen
    omega
  have hcall := onMessage_frame (hms _ (List.getElem_mem hklt)) _ hsize
  rw [← stream_take_drop pb hklt, ← hinput] at hcall
  rw [chunkOk_iff hk hsucc, onChunk, hcall]
  -- The five cases of `onMessage_frame`, by the bytes of the frame that are there.
  by_cases h4 : q - Records.endOf (sizes pb ms) k < 4
  · -- Not even the length is there: `PeekInt32` asserts.
    rw [if_pos h4]
    constructor
    · intro ⟨s', h, _⟩
      cases h
    · intro ⟨h, _⟩
      omega
  rw [if_neg h4]
  by_cases hfew : q - Records.endOf (sizes pb ms) k < (pb.serialize ms[k]).length
  · -- More than four bytes are missing: nothing happens, as it should.
    have hsame : Records.complete (sizes pb ms) q = k := by omega
    rw [if_pos hfew]
    constructor
    · intro _
      exact ⟨by omega, by omega, by omega, by omega⟩
    · intro _
      refine ⟨_, rfl, ?_⟩
      rw [Delivered, hsame]
      exact ⟨by rw [List.append_nil, hgot], hinput⟩
  rw [if_neg hfew]
  by_cases hover : q - Records.endOf (sizes pb ms) k < 4 + (pb.serialize ms[k]).length
  · -- The test of completeness forgets the four bytes in front of the payload.
    rw [if_pos hover]
    constructor
    · intro ⟨s', h, _⟩
      cases h
    · intro ⟨_, _, h, _⟩
      have := h (by omega)
      omega
  rw [if_neg hover]
  by_cases hbig : 2 ^ 31 ≤ (pb.serialize ms[k]).length + 4
  · rw [if_pos hbig]
    constructor
    · intro ⟨s', h, _⟩
      cases h
    · intro ⟨_, hle, _, h⟩
      have := h (by omega)
      omega
  rw [if_neg hbig]
  -- The frame is complete and delivered; a second complete frame would be left behind.
  have hgot' : s.2 ++ [ms[k]] = ms.take (k + 1) := by
    rw [hgot, List.take_succ_eq_append_getElem hklt]
  constructor
  · intro ⟨s', h, hs', _⟩
    cases h
    -- One message more was delivered, so one frame more is complete.
    have hlen := congrArg List.length hs'
    have hle := Records.complete_le_length (sizes pb ms) q
    rw [length_sizes] at hle
    simp only [hgot', List.length_take] at hlen
    exact ⟨by omega, by omega, by omega, by omega⟩
  · intro ⟨_, hle, _, _⟩
    have hone : Records.complete (sizes pb ms) q = k + 1 := by omega
    refine ⟨_, rfl, ?_⟩
    rw [Delivered, hone]
    refine ⟨hgot', ?_⟩
    rw [List.drop_take, stream_drop, hsucc, Nat.sub_sub]

/-! ## Whole streams -/

/-- Over a stream of frames cut into non-empty chunks, the receiver is right
    after every chunk exactly when every chunk suits the code. -/
theorem receive_delivered_iff (pb : Protobuf Msg) (ms : List Msg)
    (hms : ∀ m ∈ ms, pb.Carries m) (chunks : List Bytes) (hne : ∀ c ∈ chunks, c ≠ [])
    (hstream : chunks.flatten = stream pb ms) :
    (∀ n, n ≤ chunks.length → ∃ s, receive pb (chunks.take n) = .ok s ∧
      Delivered pb ms (chunks.take n).flatten.length s) ↔
    ∀ n (hn : n < chunks.length), ChunkOk (sizes pb ms) (chunks.take n).flatten.length
      (chunks.take n ++ [chunks[n]]).flatten.length := by
  -- What has arrived is a prefix of the stream.
  have hprefix : ∀ n, (chunks.take n).flatten =
      (stream pb ms).take (chunks.take n).flatten.length := by
    intro n
    have hsplit : chunks.flatten = (chunks.take n).flatten ++ (chunks.drop n).flatten := by
      rw [← List.flatten_append, List.take_append_drop]
    rw [← hstream, hsplit, List.take_left]
  have hstep : ∀ n (hn : n < chunks.length) s,
      Delivered pb ms (chunks.take n).flatten.length s →
      ((∃ s', onChunk pb s chunks[n] = .ok s' ∧
        Delivered pb ms (chunks.take n ++ [chunks[n]]).flatten.length s') ↔
      ChunkOk (sizes pb ms) (chunks.take n).flatten.length
        (chunks.take n ++ [chunks[n]]).flatten.length) := by
    intro n hn s hs
    have hpos : 0 < chunks[n].length := List.length_pos_iff.mpr (hne _ (List.getElem_mem hn))
    have hboth := hprefix (n + 1)
    rw [List.take_succ_eq_append_getElem hn] at hboth
    have hle := congrArg List.length hboth
    rw [List.length_take] at hle
    apply onChunk_delivered_iff hms ?_ (by omega) hs
    · rw [← hprefix, ← hboth]
      simp only [List.flatten_append, List.flatten_cons, List.flatten_nil, List.append_nil]
    · simp only [List.flatten_append, List.length_append, List.flatten_cons, List.flatten_nil,
        List.append_nil]
      omega
  apply LTS.run_exact (fun ls s => Delivered pb ms ls.flatten.length s)
    (fun ls s => Delivered pb ms ls.flatten.length s)
    (fun ls c => ChunkOk (sizes pb ms) ls.flatten.length (ls ++ [c]).flatten.length)
  · -- No frame is empty, so nothing is complete at the start.
    constructor
    · have hnone : Records.complete (sizes pb ms) 0 = 0 := by
        cases ms with
        | nil => rfl
        | cons m ms =>
          rw [sizes, List.map_cons, Records.complete, if_neg (by simp)]
      simp [hnone]
    · simp
  · exact fun _ _ h => h
  · intro n hn s _ hs hok
    exact (hstep n hn s hs).mpr hok
  · intro n hn s s' _ hs hs' hd
    exact (hstep n hn s hs).mp ⟨s', hs', hd⟩

/-- A message class with one `bytes` field, for fields shorter than 128 bytes. -/
def bytesField : Protobuf Bytes where
  serialize b := 0x0a :: UInt8.ofNat b.length :: b
  parse bs := bs.drop 2

theorem bytesField_carries {b : Bytes} (h : b.length < 128) : bytesField.Carries b where
  parse_serialize := rfl
  size_lt := by simp [bytesField]; omega

/-- Two messages, of which the second has a frame of 16 bytes. -/
def twoMessages : List Bytes := [[104, 105], [0, 1, 2, 3, 4, 5, 6, 7, 8, 9]]

/-- The frame of the first and the length of the second, then the rest in two pieces. -/
def threeChunks : List Bytes :=
  [(stream bytesField twoMessages).take 12, ((stream bytesField twoMessages).drop 12).take 6,
    (stream bytesField twoMessages).drop 18]

/-- Both messages are delivered. -/
theorem receive_delivered_chunks :
    ∃ s, receive bytesField threeChunks = .ok s ∧ s = ([], twoMessages) := by
  have hms : ∀ m ∈ twoMessages, bytesField.Carries m := by
    intro m hm
    exact bytesField_carries (by revert m; decide)
  have hok : ∀ n (hn : n < threeChunks.length), ChunkOk (sizes bytesField twoMessages)
      (threeChunks.take n).flatten.length
      (threeChunks.take n ++ [threeChunks[n]]).flatten.length := by
    intro n hn
    have hcase : n = 0 ∨ n = 1 ∨ n = 2 := by
      have : n < 3 := hn
      omega
    rcases hcase with rfl | rfl | rfl
    · show ChunkOk [8, 16] 0 12
      exact ⟨by decide, by decide, by decide, by decide⟩
    · show ChunkOk [8, 16] 12 18
      exact ⟨by decide, by decide, by decide, by decide⟩
    · show ChunkOk [8, 16] 18 24
      exact ⟨by decide, by decide, by decide, by decide⟩
  obtain ⟨s, hs, hgot, hinput⟩ := (receive_delivered_iff bytesField twoMessages hms threeChunks
    (by decide) (by decide)).mpr hok 3 (Nat.le_refl 3)
  refine ⟨s, hs, Prod.ext ?_ ?_⟩
  · rw [hinput]
    decide
  · rw [hgot]
    decide

/-- Two frames in one chunk: the second stays in the input. -/
theorem receive_two_frames :
    (∀ m ∈ [[104], [105]], bytesField.Carries m) ∧
    (∀ c ∈ [stream bytesField [[104], [105]]], c ≠ []) ∧
    [stream bytesField [[104], [105]]].flatten = stream bytesField [[104], [105]] ∧
    ¬ ∀ n, n ≤ 1 → ∃ s, receive bytesField ([stream bytesField [[104], [105]]].take n) = .ok s ∧
      Delivered bytesField [[104], [105]]
        ([stream bytesField [[104], [105]]].take n).flatten.length s := by
  refine ⟨?_, by decide, by simp, ?_⟩
  · intro m hm
    exact bytesField_carries (by revert m; decide)
  · intro hall
    obtain ⟨s, hs, hgot, -⟩ := hall 1 (Nat.le_refl 1)
    have hrun : receive bytesField [stream bytesField [[104], [105]]] =
        .ok (frame bytesField [105], [[104]]) := by decide +kernel
    obtain rfl := Except.ok.inj (hrun.symm.trans hs)
    revert hgot
    decide

end ProtobufCodec

end JNet
