import JNet.Net.TcpConn

/-! # The output stream of a connection

    Runs of a connection on its loop thread, made of the four ways bytes get
    into the output and of write events.  Whatever the kernel accepts of each
    `write`, the bytes written and the bytes queued are together the bytes that
    were sent, in order, and queued bytes always have write interest behind
    them.
-/

namespace JNet

/-! ## Events -/

/-- One step on the loop thread, with what the kernel answers during it. -/
inductive OutEvent where
  | send (message : Bytes) (results : List WriteResult)
  | sendBuffer (message : Bytes) (results : List WriteResult)
  | sendOutput (bytes : Bytes) (results : List WriteResult)
  | handleWrite (p : PollResult) (results : List WriteResult)
  deriving DecidableEq, Repr

/-- A count of at least one byte, `EINTR` or `EAGAIN`. -/
def WriteResult.isRegular : WriteResult → Bool
  | .count n => 0 < n
  | .eintr => true
  | .eagain => true
  | .error _ => false

namespace OutEvent

def results : OutEvent → List WriteResult
  | .send _ rs => rs
  | .sendBuffer _ rs => rs
  | .sendOutput _ rs => rs
  | .handleWrite _ rs => rs

def exec (c : TcpConn) : OutEvent → Option TcpConn
  | .send message rs => c.send message rs
  | .sendBuffer message rs => (c.sendBuffer (.other message) rs).map Prod.fst
  | .sendOutput bytes rs => c.appendAndSendOutput bytes rs
  | .handleWrite p rs => c.handleWrite p rs

/-- The bytes a step accepts for sending: a plain `Send` gives up unless the
    connection is connected. -/
def accepted (c : TcpConn) : OutEvent → Bytes
  | .send message _ => if c.state_ = .kConnected then message else []
  | .sendBuffer message _ => message
  | .sendOutput bytes _ => bytes
  | .handleWrite _ _ => []

end OutEvent

namespace TcpConn

/-- The connection is in its handshake or connected. -/
def Live (c : TcpConn) : Prop := c.state_ = .kHandShakeing ∨ c.state_ = .kConnected

instance (c : TcpConn) : Decidable c.Live := inferInstanceAs (Decidable (_ ∨ _))

end TcpConn

/-- Runs from `Attach`; the second component records the bytes accepted so far. -/
def outputSystem (fd : Int) : LTS.System (TcpConn × Bytes) OutEvent where
  init := fun s => s = (TcpConn.attach fd, [])
  step := fun s ev s' =>
    (∀ r ∈ ev.results, r.isRegular) ∧
    ev.exec s.1 = some s'.1 ∧
    s'.2 = s.2 ++ ev.accepted s.1

/-! ## `ISend` -/

namespace TcpConn

@[simp] theorem ensureWrite_state (c : TcpConn) : c.ensureWrite.state_ = c.state_ := by
  unfold ensureWrite; split <;> rfl

@[simp] theorem ensureWrite_output (c : TcpConn) : c.ensureWrite.output_ = c.output_ := by
  unfold ensureWrite; split <;> rfl

@[simp] theorem ensureWrite_wire (c : TcpConn) : c.ensureWrite.wire = c.wire := by
  unfold ensureWrite; split <;> rfl

@[simp] theorem ensureWrite_channel (c : TcpConn) :
    c.ensureWrite.channel_.isSome = c.channel_.isSome := by
  unfold ensureWrite; split <;> simp [enableWrite]

theorem isWriting_ensureWrite {c : TcpConn} (h : c.channel_.isSome) :
    c.ensureWrite.isWriting = true := by
  obtain ⟨ch, hch⟩ := Option.isSome_iff_exists.mp h
  unfold ensureWrite
  split
  · assumption
  · simp [isWriting, enableWrite, hch]

/-- What `ISend` leaves behind when it returns after `n` bytes: the kernel has
    these bytes, and if some are left there is write interest. -/
structure Sent (c : TcpConn) (buf : Bytes) (c' : TcpConn) (n : Nat) : Prop where
  state : c'.state_ = c.state_
  output : c'.output_ = c.output_
  channel : c'.channel_.isSome = c.channel_.isSome
  wire : c'.wire = c.wire ++ buf.take n
  writing : c.isWriting → c'.isWriting
  rest : n < buf.length → c'.isWriting

/-- The part of it that holds whatever has made `ISend` return. -/
structure Wrote (c : TcpConn) (buf : Bytes) (c' : TcpConn) (n : Nat) : Prop where
  state : c'.state_ = c.state_
  output : c'.output_ = c.output_
  channel : c'.channel_.isSome = c.channel_.isSome
  wire : c'.wire = c.wire ++ buf.take n
  writing : c.isWriting → c'.isWriting

/-- An `ISend` of `len` bytes stops before its end at a count of zero or at an
    error other than `EINTR` and `EAGAIN`. -/
def breaks : Nat → List WriteResult → Bool
  | _, [] => false
  | len, .count 0 :: _ => 0 < len
  | len, .count (n + 1) :: rest => breaks (len - (n + 1)) rest
  | len, .eintr :: rest => breaks len rest
  | _, .eagain :: _ => false
  | len, .error _ :: _ => 0 < len

theorem breaks_zero (rs : List WriteResult) : breaks 0 rs = false := by
  induction rs with
  | nil => rfl
  | cons wd rest ih =>
    cases wd with
    | count n =>
      cases n with
      | zero => rfl
      | succ n => rw [breaks, Nat.zero_sub, ih]
    | eintr => rw [breaks, ih]
    | eagain => rfl
    | error e => rfl

theorem breaks_of_regular {rs : List WriteResult} (hrs : ∀ r ∈ rs, r.isRegular) (len : Nat) :
    breaks len rs = false := by
  induction rs generalizing len with
  | nil => rfl
  | cons wd rest ih =>
    have hrest : ∀ r ∈ rest, r.isRegular := fun r hr => hrs r (List.mem_cons_of_mem _ hr)
    have hwd : wd.isRegular := hrs wd List.mem_cons_self
    cases wd with
    | count n =>
      cases n with
      | zero => cases hwd
      | succ n => rw [breaks, ih hrest]
    | eintr => rw [breaks, ih hrest]
    | eagain => rfl
    | error e => cases hwd

/-- The loop, once the first `sended` bytes are with the kernel.  Induction on
    the answers: between two of them only the written prefix has grown. -/
theorem iSendLoop_wrote {buf : Bytes} {rs : List WriteResult} {c c' : TcpConn} {sended n : Nat}
    (hloop : iSendLoop buf rs { c with wire := c.wire ++ buf.take sended } sended =
      some (c', n)) :
    Wrote c buf c' n ∧
      if breaks (buf.length - sended) rs then n < buf.length ∧ c'.isWriting = c.isWriting
      else n < buf.length → c'.isWriting := by
  have hfull : ∀ k, Wrote c buf { c with wire := c.wire ++ buf.take k } k :=
    fun k => ⟨rfl, rfl, rfl, rfl, id⟩
  induction rs generalizing sended with
  | nil =>
    simp only [iSendLoop] at hloop
    split at hloop
    · cases hloop
    · next hdone =>
      cases hloop
      refine ⟨hfull n, ?_⟩
      rw [breaks, if_neg Bool.false_ne_true]
      intro hlt
      omega
  | cons wd rest ih =>
    simp only [iSendLoop] at hloop
    split at hloop
    · next hleft =>
      split at hloop
      · cases hloop
      · next hnone =>
        have hsome : c.channel_.isSome := by
          rw [Option.isSome_iff_ne_none]
          simpa using hnone
        cases wd with
        | count k =>
          cases k with
          | zero =>
            cases hloop
            refine ⟨hfull n, ?_⟩
            rw [breaks, if_pos (by simpa using hleft)]
            exact ⟨by omega, rfl⟩
          | succ k =>
            simp only at hloop
            split at hloop
            · have hnext : iSendLoop buf rest
                  { c with wire := c.wire ++ buf.take (sended + (k + 1)) } (sended + (k + 1)) =
                  some (c', n) := by
                rw [List.take_add, ← List.append_assoc]
                exact hloop
              rw [breaks, Nat.sub_sub]
              exact ih hnext
            · cases hloop
        | eintr => exact ih hloop
        | eagain =>
          simp only [Option.some.injEq, Prod.mk.injEq] at hloop
          obtain ⟨rfl, rfl⟩ := hloop
          have hw := isWriting_ensureWrite
            (c := { c with wire := c.wire ++ buf.take sended }) hsome
          refine ⟨⟨by simp, by simp, by simp, by simp, fun _ => hw⟩, ?_⟩
          rw [breaks, if_neg Bool.false_ne_true]
          exact fun _ => hw
        | error e =>
          cases hloop
          refine ⟨hfull n, ?_⟩
          rw [breaks, if_pos (by simpa using hleft)]
          exact ⟨by omega, rfl⟩
    · next hdone =>
      cases hloop
      refine ⟨hfull n, ?_⟩
      rw [show buf.length - n = 0 by omega, breaks_zero, if_neg Bool.false_ne_true]
      intro hlt
      omega

/-- Neither the state of the connection has changed nor the presence of its channel,
    and what was written stays written. -/
structure Steady (c c' : TcpConn) : Prop where
  state : c'.state_ = c.state_
  channel : c'.channel_.isSome = c.channel_.isSome
  wire : c.wire <+: c'.wire

theorem Steady.refl (c : TcpConn) : Steady c c := ⟨rfl, rfl, List.prefix_refl _⟩

theorem Wrote.steady {c c' : TcpConn} {buf : Bytes} {n : Nat} (h : Wrote c buf c' n) :
    Steady c c' where
  state := h.state
  channel := h.channel
  wire := by rw [h.wire]; exact List.prefix_append _ _

section iSend

variable {buf : Bytes} {rs : List WriteResult} {c c' : TcpConn} {n : Nat}

theorem iSend_cases (h : c.iSend buf rs = some (c', n)) :
    Wrote c buf c' n ∧
      if breaks buf.length rs then n < buf.length ∧ c'.isWriting = c.isWriting
      else n < buf.length → c'.isWriting := by
  have hloop : iSendLoop buf rs { c with wire := c.wire ++ buf.take 0 } 0 = some (c', n) := by
    simpa [iSend] using h
  exact iSendLoop_wrote hloop

theorem iSend_wrote (h : c.iSend buf rs = some (c', n)) : Wrote c buf c' n := (iSend_cases h).1

theorem iSend_sent (hfine : breaks buf.length rs = false) (h : c.iSend buf rs = some (c', n)) :
    Sent c buf c' n := by
  obtain ⟨hw, hrest⟩ := iSend_cases h
  rw [hfine, if_neg Bool.false_ne_true] at hrest
  exact ⟨hw.state, hw.output, hw.channel, hw.wire, hw.writing, hrest⟩

/-- After an error bytes are left, and write interest is as it was. -/
theorem iSend_broken (hbroken : breaks buf.length rs = true)
    (h : c.iSend buf rs = some (c', n)) : n < buf.length ∧ c'.isWriting = c.isWriting := by
  have hrest := (iSend_cases h).2
  rwa [if_pos hbroken] at hrest

end iSend

/-- The answers bring an `ISend` of `len` bytes to its end: they add up to `len`,
    or one of them makes the loop stop. -/
def settles : Nat → List WriteResult → Bool
  | len, [] => len == 0
  | _, .count 0 :: _ => true
  | len, .count (n + 1) :: rest => len == 0 || (decide (n + 1 ≤ len) && settles (len - (n + 1)) rest)
  | len, .eintr :: rest => len == 0 || settles len rest
  | _, .eagain :: _ => true
  | _, .error _ :: _ => true

/-- On a connection with a channel, `ISend` returns exactly when the kernel's
    answers settle it; in particular it returns at the first `EAGAIN`. -/
theorem iSendLoop_isSome (buf : Bytes) (rs : List WriteResult) {c : TcpConn}
    (hch : c.channel_.isSome) (sended : Nat) :
    (iSendLoop buf rs c sended).isSome = settles (buf.length - sended) rs := by
  have hnone : c.channel_.isNone = false := by simpa using hch
  induction rs generalizing c sended with
  | nil =>
    simp only [iSendLoop, settles]
    split
    · next hgt => simp; omega
    · next hle => simp; omega
  | cons wd rest ih =>
    simp only [iSendLoop, hnone, Bool.false_eq_true, if_false]
    split
    · next hgt =>
      have hlen : (buf.length - sended == 0) = false := by simp; omega
      cases wd with
      | count n =>
        cases n with
        | zero => rfl
        | succ n =>
          simp only [settles, hlen, Bool.false_or]
          split
          · next hfits =>
            rw [ih (c := { c with wire := c.wire ++ (buf.drop sended).take (n + 1) }) hch _ hnone]
            simp [hfits, Nat.sub_sub]
          · next hbig => simp [hbig]
      | eintr => simp only [settles, hlen, Bool.false_or]; exact ih hch _ hnone
      | eagain => rfl
      | error e => rfl
    · next hle =>
      have hlen : buf.length - sended = 0 := by omega
      rw [hlen]
      cases wd with
      | count n => cases n <;> simp [settles]
      | eintr => simp [settles]
      | eagain => rfl
      | error e => rfl

/-- The number of bytes the kernel takes of an `ISend` of `len` bytes. -/
def taken : Nat → List WriteResult → Nat
  | _, [] => 0
  | _, .count 0 :: _ => 0
  | len, .count (n + 1) :: rest => if n + 1 ≤ len then n + 1 + taken (len - (n + 1)) rest else 0
  | len, .eintr :: rest => taken len rest
  | _, .eagain :: _ => 0
  | _, .error _ :: _ => 0

theorem taken_zero (rs : List WriteResult) : taken 0 rs = 0 := by
  induction rs with
  | nil => rfl
  | cons wd rest ih =>
    cases wd with
    | count n =>
      cases n with
      | zero => rfl
      | succ n => rw [taken, if_neg (by omega)]
    | eintr => rw [taken, ih]
    | eagain => rfl
    | error e => rfl

theorem iSendLoop_taken {buf : Bytes} {rs : List WriteResult} {c c' : TcpConn} {sended n : Nat}
    (hloop : iSendLoop buf rs c sended = some (c', n)) :
    n = sended + taken (buf.length - sended) rs := by
  induction rs generalizing c sended with
  | nil =>
    simp only [iSendLoop] at hloop
    split at hloop
    · cases hloop
    · cases hloop
      rfl
  | cons wd rest ih =>
    simp only [iSendLoop] at hloop
    split at hloop
    · split at hloop
      · cases hloop
      · cases wd with
        | count k =>
          cases k with
          | zero =>
            cases hloop
            rfl
          | succ k =>
            simp only at hloop
            split at hloop
            · next hfits =>
              have hnext := ih hloop
              rw [taken, if_pos hfits, hnext, Nat.sub_sub]
              omega
            · cases hloop
        | eintr => exact ih hloop
        | eagain =>
          cases hloop
          rfl
        | error e =>
          cases hloop
          rfl
    · next hdone =>
      cases hloop
      rw [show buf.length - n = 0 by omega, taken_zero, Nat.add_zero]

theorem iSend_taken {buf : Bytes} {rs : List WriteResult} {c c' : TcpConn} {n : Nat}
    (h : c.iSend buf rs = some (c', n)) : n = taken buf.length rs := by
  rw [iSendLoop_taken h, Nat.sub_zero, Nat.zero_add]

/-- The kernel takes all of it at once. -/
theorem iSend_whole {buf : Bytes} {c : TcpConn} (hch : c.channel_.isSome) (hne : buf ≠ []) :
    settles buf.length [.count buf.length] ∧
      ∃ c', c.iSend buf [.count buf.length] = some (c', buf.length) := by
  obtain ⟨k, hk⟩ := Nat.exists_eq_succ_of_ne_zero (mt List.length_eq_zero_iff.mp hne)
  have hsettles : settles buf.length [.count buf.length] := by simp [hk, settles]
  have hall : taken buf.length [.count buf.length] = buf.length := by
    rw [hk, taken, if_pos (Nat.le_refl _), taken]
  have hsome : (c.iSend buf [.count buf.length]).isSome = true := by
    rw [iSend, iSendLoop_isSome buf _ hch 0]
    exact hsettles
  obtain ⟨⟨c', n⟩, hsend⟩ := Option.isSome_iff_exists.mp hsome
  have hn := (iSend_taken hsend).trans hall
  rw [hn] at hsend
  exact ⟨hsettles, c', hsend⟩

/-! ## The stream invariant -/

/-- Between two steps of a live connection: there is a channel, written and
    queued bytes make up `stream`, and queued bytes have write interest. -/
structure OutputOk (c : TcpConn) (stream : Bytes) : Prop where
  channel : c.channel_.isSome
  stream : c.wire ++ c.output_ = stream
  interest : c.output_ ≠ [] → c.isWriting

theorem attach_outputOk (fd : Int) : OutputOk (attach fd) [] :=
  ⟨rfl, rfl, fun h => absurd rfl h⟩

/-- Without write interest nothing is queued. -/
theorem OutputOk.output_eq_nil {c : TcpConn} {stream : Bytes} (h : OutputOk c stream)
    (hw : ¬ c.isWriting) : c.output_ = [] := by
  by_contra hne
  exact hw (h.interest hne)

theorem queueRest_other_eq (c : TcpConn) (bytes : Bytes) (n : Nat) :
    c.queueRest (.other bytes) n =
      if (bytes.drop n).isEmpty then (c, .other (bytes.drop n))
      else ({ c with output_ := c.output_ ++ bytes.drop n }.ensureWrite, .other []) := rfl

theorem queueRest_output_eq (c : TcpConn) (n : Nat) :
    c.queueRest .output n =
      if (c.output_.drop n).isEmpty then ({ c with output_ := c.output_.drop n }, .output)
      else ({ c with output_ := c.output_.drop n }.ensureWrite, .output) := rfl

/-- Whether or not anything is left, it stands behind what is queued. -/
theorem queueRest_other_output (c : TcpConn) (bytes : Bytes) (n : Nat) :
    (c.queueRest (.other bytes) n).1.output_ = c.output_ ++ bytes.drop n := by
  rw [queueRest_other_eq]
  split
  · next hnone =>
    have hnil : bytes.drop n = [] := by simpa using hnone
    rw [hnil, List.append_nil]
  · simp

theorem queueRest_wire (c : TcpConn) (message : BufferRef) (n : Nat) :
    (c.queueRest message n).1.wire = c.wire := by
  cases message with
  | output => rw [queueRest_output_eq]; split <;> simp
  | other bytes => rw [queueRest_other_eq]; split <;> simp

theorem queueRest_state (c : TcpConn) (message : BufferRef) (n : Nat) :
    (c.queueRest message n).1.state_ = c.state_ := by
  cases message with
  | output => rw [queueRest_output_eq]; split <;> simp
  | other bytes => rw [queueRest_other_eq]; split <;> simp

theorem queueRest_channel (c : TcpConn) (message : BufferRef) (n : Nat) :
    (c.queueRest message n).1.channel_.isSome = c.channel_.isSome := by
  cases message with
  | output => rw [queueRest_output_eq]; split <;> simp
  | other bytes => rw [queueRest_other_eq]; split <;> simp

theorem appendRest_output (c : TcpConn) (message : Bytes) :
    (c.appendRest message).output_ = c.output_ ++ message := by
  unfold appendRest
  split
  · next hnone =>
    have hnil : message = [] := by simpa using hnone
    rw [hnil, List.append_nil]
  · rfl

@[simp] theorem appendRest_wire (c : TcpConn) (message : Bytes) :
    (c.appendRest message).wire = c.wire := by
  unfold appendRest; split <;> rfl

@[simp] theorem appendRest_channel (c : TcpConn) (message : Bytes) :
    (c.appendRest message).channel_ = c.channel_ := by
  unfold appendRest; split <;> rfl

theorem isWriting_appendRest (c : TcpConn) (message : Bytes) :
    (c.appendRest message).isWriting = c.isWriting := by
  rw [isWriting, appendRest_channel, isWriting]

@[simp] theorem appendRest_state (c : TcpConn) (message : Bytes) :
    (c.appendRest message).state_ = c.state_ := by
  unfold appendRest; split <;> rfl

section written

variable {c c₁ : TcpConn} {bytes : Bytes} {n : Nat}

/-- Behind an empty output the written bytes and the rest make up the whole. -/
theorem Wrote.stream (hs : Wrote c bytes c₁ n) (hempty : c.output_ = []) :
    c₁.wire ++ (c₁.output_ ++ bytes.drop n) = c.wire ++ bytes := by
  rw [hs.wire, hs.output, hempty, List.nil_append, List.append_assoc, List.take_append_drop]

theorem queueRest_stream (hs : Wrote c bytes c₁ n) (hempty : c.output_ = []) :
    (c₁.queueRest (.other bytes) n).1.wire ++ (c₁.queueRest (.other bytes) n).1.output_ =
      c.wire ++ bytes := by
  rw [queueRest_wire, queueRest_other_output, hs.stream hempty]

theorem appendRest_stream (hs : Wrote c bytes c₁ n) (hempty : c.output_ = []) :
    (c₁.appendRest (bytes.drop n)).wire ++ (c₁.appendRest (bytes.drop n)).output_ =
      c.wire ++ bytes := by
  rw [appendRest_wire, appendRest_output, hs.stream hempty]

/-- What `ISend` left of another buffer, queued behind an empty output. -/
theorem queueRest_other {stream : Bytes} (hok : OutputOk c stream) (hempty : c.output_ = [])
    (hs : Wrote c bytes c₁ n) :
    OutputOk (c₁.queueRest (.other bytes) n).1 (stream ++ bytes) := by
  have hch₁ : c₁.channel_.isSome := by rw [hs.channel]; exact hok.channel
  have hout₁ : c₁.output_ = [] := by rw [hs.output, hempty]
  have hwire : c.wire = stream := by rw [← hok.stream, hempty, List.append_nil]
  constructor
  · rw [queueRest_channel]
    exact hch₁
  · rw [queueRest_stream hs hempty, hwire]
  · rw [queueRest_other_eq]
    split
    · exact fun hne => absurd hout₁ hne
    · exact fun _ => isWriting_ensureWrite hch₁

end written

/-- What `ISend` left of `output_` itself stays where it is. -/
theorem queueRest_output {c c₁ : TcpConn} {n : Nat} (hch : c.channel_.isSome)
    (hs : Wrote c c.output_ c₁ n) :
    OutputOk (c₁.queueRest .output n).1 (c.wire ++ c.output_) := by
  have hch₁ : c₁.channel_.isSome := by rw [hs.channel]; exact hch
  have hstream : c₁.wire ++ c₁.output_.drop n = c.wire ++ c.output_ := by
    rw [hs.wire, hs.output, List.append_assoc, List.take_append_drop]
  rw [queueRest_output_eq]
  split
  · next hnone =>
    have hnil : c₁.output_.drop n = [] := by simpa using hnone
    exact ⟨hch₁, hstream, fun hne => absurd hnil hne⟩
  · refine ⟨by simpa using hch₁, by simpa using hstream, ?_⟩
    intro _; exact isWriting_ensureWrite hch₁

theorem sendBuffer_steady {c c' : TcpConn} {message m : BufferRef} {rs : List WriteResult}
    (h : c.sendBuffer message rs = some (c', m)) : Steady c c' := by
  unfold sendBuffer at h
  split at h
  · split at h
    · cases message <;> cases h <;> exact ⟨rfl, rfl, List.prefix_refl _⟩
    · split at h
      · cases h
        exact .refl c
      · obtain ⟨⟨c₁, n⟩, hsend, heq⟩ := Option.map_eq_some_iff.mp h
        have hrest : (c₁.queueRest message n).1 = c' := congrArg Prod.fst heq
        have hs := (iSend_wrote hsend).steady
        rw [← hrest]
        constructor
        · rw [queueRest_state, hs.state]
        · rw [queueRest_channel, hs.channel]
        · rw [queueRest_wire]
          exact hs.wire
  · cases h
    exact .refl c

/-- `Send(Buffer&)` with another buffer queues or writes its bytes. -/
theorem sendBuffer_other {c c' : TcpConn} {stream bytes : Bytes} {m : BufferRef}
    {rs : List WriteResult} (hok : OutputOk c stream)
    (h : c.sendBuffer (.other bytes) rs = some (c', m)) :
    OutputOk c' (stream ++ bytes) := by
  rw [sendBuffer, if_pos hok.channel] at h
  split at h
  · next hw =>
    -- there is write interest: the bytes go behind those already queued
    cases h
    refine ⟨hok.channel, ?_, fun _ => hw⟩
    rw [← hok.stream, List.append_assoc]
  · next hw =>
    split at h
    · next hnone =>
      cases h
      have hnil : bytes = [] := by simpa [read] using hnone
      rw [hnil, List.append_nil]
      exact hok
    · obtain ⟨⟨c₁, n⟩, hsend, heq⟩ := Option.map_eq_some_iff.mp h
      have hrest : c₁.queueRest (.other bytes) n = (c', m) := heq
      have hwrote : Wrote c bytes c₁ n := iSend_wrote hsend
      have hdone := queueRest_other hok (hok.output_eq_nil hw) hwrote
      rwa [hrest] at hdone

/-- `SendOutput()` after an append: `message` and `output_` are one buffer, so
    nothing is absorbed and the bytes are written from its front. -/
theorem appendAndSendOutput_ok {c c' : TcpConn} {stream bytes : Bytes} {rs : List WriteResult}
    (hok : OutputOk c stream) (h : c.appendAndSendOutput bytes rs = some c') :
    OutputOk c' (stream ++ bytes) := by
  obtain ⟨⟨c₂, m⟩, hsendb, rfl⟩ := Option.map_eq_some_iff.mp h
  have hstream : c.wire ++ (c.output_ ++ bytes) = stream ++ bytes := by
    rw [← hok.stream, List.append_assoc]
  rw [sendBuffer, if_pos hok.channel] at hsendb
  split at hsendb
  · next hw =>
    cases hsendb
    exact ⟨hok.channel, hstream, fun _ => hw⟩
  · split at hsendb
    · next hnone =>
      cases hsendb
      refine ⟨hok.channel, hstream, fun hne => absurd ?_ hne⟩
      simpa [read] using hnone
    · obtain ⟨⟨c₁, n⟩, hsend, heq⟩ := Option.map_eq_some_iff.mp hsendb
      have hrest : c₁.queueRest .output n = (c₂, m) := heq
      have hdone := queueRest_output (c := { c with output_ := c.output_ ++ bytes }) hok.channel
        (iSend_wrote hsend)
      rw [hrest, hstream] at hdone
      exact hdone

/-- What `SendInLoop` does to a connection with a channel: nothing is written past
    queued bytes. -/
theorem sendInLoop_cases {c c' : TcpConn} {message : Bytes} {rs : List WriteResult}
    (hch : c.channel_.isSome) (h : c.sendInLoop message rs = some c') :
    (c.output_ = [] ∧ ∃ c₁ n, c.iSend message rs = some (c₁, n) ∧
      c' = c₁.appendRest (message.drop n)) ∨
    (c.output_ ≠ [] ∧ c' = c.appendRest message) := by
  rw [sendInLoop, if_pos hch] at h
  split at h
  · next hempty =>
    obtain ⟨⟨c₁, n⟩, hsend, heq⟩ := Option.map_eq_some_iff.mp h
    exact .inl ⟨by simpa using hempty, c₁, n, hsend, heq.symm⟩
  · next hne =>
    exact .inr ⟨by simpa using hne, (Option.some.inj h).symm⟩

theorem sendInLoop_steady {c c' : TcpConn} {message : Bytes} {rs : List WriteResult}
    (h : c.sendInLoop message rs = some c') : Steady c c' := by
  by_cases hch : c.channel_.isSome
  · obtain ⟨-, c₁, n, hsend, rfl⟩ | ⟨-, rfl⟩ := sendInLoop_cases hch h
    · have hs := (iSend_wrote hsend).steady
      exact ⟨by simpa using hs.state, by simpa using hs.channel, by simpa using hs.wire⟩
    · exact ⟨by simp, by simp, by simp⟩
  · rw [sendInLoop, if_neg hch] at h
    cases h
    exact .refl c

/-- A plain `Send` writes at once, meets an error, and leaves bytes that nobody has
    asked write events for. -/
def Strands (c : TcpConn) (message : Bytes) (rs : List WriteResult) : Prop :=
  c.output_ = [] ∧ c.isWriting = false ∧ breaks message.length rs = true

/-- Without errors no bytes are stranded. -/
theorem not_strands {rs : List WriteResult} (hrs : ∀ r ∈ rs, r.isRegular) (c : TcpConn)
    (message : Bytes) : ¬ Strands c message rs := by
  intro hstrands
  have hbreaks := hstrands.2.2
  rw [breaks_of_regular hrs] at hbreaks
  cases hbreaks

/-- `SendInLoop`: with an empty output as much as possible is written at once.
    What is left was left by an `EAGAIN`, or there was write interest before. -/
theorem sendInLoop_ok {c c' : TcpConn} {stream message : Bytes} {rs : List WriteResult}
    (hfine : ¬ Strands c message rs) (hok : OutputOk c stream)
    (h : c.sendInLoop message rs = some c') :
    OutputOk c' (stream ++ message) := by
  obtain ⟨hnil, c₁, n, hsend, rfl⟩ | ⟨hne, rfl⟩ := sendInLoop_cases hok.channel h
  · have hwire : c.wire = stream := by rw [← hok.stream, hnil, List.append_nil]
    have hs := iSend_wrote hsend
    have hch₁ : c₁.channel_.isSome := by rw [hs.channel]; exact hok.channel
    refine ⟨by simpa using hch₁, ?_, ?_⟩
    · rw [appendRest_stream hs hnil, hwire]
    · intro hleft
      rw [appendRest_output, hs.output, hnil, List.nil_append] at hleft
      have hlt : n < message.length := by
        by_contra hle
        exact hleft (List.drop_eq_nil_of_le (by omega))
      rw [isWriting_appendRest]
      by_cases hw : c.isWriting = true
      · exact hs.writing hw
      · have hwhole : breaks message.length rs = false := by
          by_contra hbreaks
          exact hfine ⟨hnil, Bool.eq_false_iff.mpr hw, Bool.eq_true_of_not_eq_false hbreaks⟩
        exact (iSend_sent hwhole hsend).rest hlt
  · refine ⟨by simpa using hok.channel, ?_, fun _ => ?_⟩
    · rw [appendRest_wire, appendRest_output, ← hok.stream, List.append_assoc]
    · rw [isWriting_appendRest]
      exact hok.interest hne

/-- `HandleWrite` while connected writes from the front of the queue, and gives
    up write interest only when the queue is empty. -/
theorem handleWrite_connected {c c' : TcpConn} {stream : Bytes} {p : PollResult}
    {rs : List WriteResult} (hok : OutputOk c stream) (hconn : c.state_ = .kConnected)
    (h : c.handleWrite p rs = some c') :
    OutputOk c' stream := by
  have hsome : c.channel_.isNone = false := by simpa using hok.channel
  simp only [handleWrite, hconn, hsome, Bool.false_eq_true, if_false] at h
  obtain ⟨⟨c₁, n⟩, hsend, rfl⟩ := Option.map_eq_some_iff.mp h
  have hs := iSend_wrote hsend
  have hch₁ : c₁.channel_.isSome := by rw [hs.channel]; exact hok.channel
  have hstream : c₁.wire ++ c₁.output_.drop n = stream := by
    rw [hs.wire, hs.output, List.append_assoc, List.take_append_drop, hok.stream]
  simp only
  split
  · next hboth =>
    have hnil : c₁.output_.drop n = [] := by
      simpa using (Bool.and_eq_true_iff.mp hboth).1
    exact ⟨by simpa [disableWrite] using hch₁, hstream, fun hne => absurd hnil hne⟩
  · refine ⟨hch₁, hstream, ?_⟩
    intro hne
    -- Something is left of what was queued before, and that had write interest.
    show c₁.isWriting
    apply hs.writing
    apply hok.interest
    intro hnil
    apply hne
    show c₁.output_.drop n = []
    rw [hs.output, hnil, List.drop_nil]

/-- The handshake ends connected with its queue and its write interest, or the
    connection is no longer live. -/
theorem handleHandShake_ok {c : TcpConn} {stream : Bytes} (p : PollResult)
    (hok : OutputOk c stream) :
    OutputOk (c.handleHandShake p).1 stream ∨ (c.handleHandShake p).1.state_ = .kClosed := by
  unfold handleHandShake
  split
  · refine .inl ⟨by simpa using hok.channel, hok.stream, ?_⟩
    intro hne
    obtain ⟨ch, hch⟩ := Option.isSome_iff_exists.mp hok.channel
    have hw := hok.interest hne
    simpa [isWriting, hch] using hw
  · exact .inr rfl

end TcpConn

/-! ## Steps and runs -/

open TcpConn

/-- The step is a `Send` that strands bytes. -/
def OutEvent.Strands (c : TcpConn) : OutEvent → Prop
  | .send message rs => c.state_ = .kConnected ∧ TcpConn.Strands c message rs
  | _ => False

theorem not_strands_of_regular (c : TcpConn) {ev : OutEvent}
    (hrs : ∀ r ∈ ev.results, r.isRegular) : ¬ ev.Strands c := by
  cases ev with
  | send message rs =>
    intro hstrands
    exact not_strands hrs c message hstrands.2
  | sendBuffer message rs => exact id
  | sendOutput bytes rs => exact id
  | handleWrite p rs => exact id

/-- A step keeps the invariant, or ends the connection. -/
theorem exec_outputOk {c c' : TcpConn} {stream : Bytes} {ev : OutEvent} (hlive : c.Live)
    (hok : OutputOk c stream) (hfine : ¬ ev.Strands c) (h : ev.exec c = some c') :
    OutputOk c' (stream ++ ev.accepted c) ∨ ¬ c'.Live := by
  cases ev with
  | send message rs =>
    simp only [OutEvent.exec, send] at h
    simp only [OutEvent.accepted]
    split at h
    · next hne =>
      cases h
      rw [if_neg hne, List.append_nil]
      exact .inl hok
    · next hconn =>
      rw [if_pos (not_not.mp hconn)]
      have hkept : ¬ TcpConn.Strands c message rs := fun hstrands =>
        hfine ⟨not_not.mp hconn, hstrands⟩
      exact .inl (sendInLoop_ok hkept hok h)
  | sendBuffer message rs =>
    obtain ⟨⟨c₂, m⟩, hsend, rfl⟩ := Option.map_eq_some_iff.mp h
    exact .inl (sendBuffer_other hok hsend)
  | sendOutput bytes rs => exact .inl (appendAndSendOutput_ok hok h)
  | handleWrite p rs =>
    simp only [OutEvent.exec, OutEvent.accepted, List.append_nil] at h ⊢
    rcases hlive with hhand | hconn
    · simp only [handleWrite, hhand, Option.some.injEq] at h
      subst h
      rcases handleHandShake_ok p hok with hdone | hclosed
      · exact .inl hdone
      · right
        unfold Live
        rw [hclosed]
        decide
    · exact .inl (handleWrite_connected hok hconn h)

/-- After the handshake no step changes the state of the connection. -/
theorem exec_steady {c c' : TcpConn} {ev : OutEvent} (hshaken : c.state_ ≠ .kHandShakeing)
    (h : ev.exec c = some c') : Steady c c' := by
  cases ev with
  | send message rs =>
    simp only [OutEvent.exec, send] at h
    split at h
    · cases h
      exact .refl c
    · exact sendInLoop_steady h
  | sendBuffer message rs =>
    obtain ⟨⟨c₂, m⟩, hsend, rfl⟩ := Option.map_eq_some_iff.mp h
    exact sendBuffer_steady hsend
  | sendOutput bytes rs =>
    obtain ⟨⟨c₂, m⟩, hsend, rfl⟩ := Option.map_eq_some_iff.mp h
    have hs := sendBuffer_steady (c := { c with output_ := c.output_ ++ bytes }) hsend
    exact ⟨hs.state, hs.channel, hs.wire⟩
  | handleWrite p rs =>
    simp only [OutEvent.exec, handleWrite] at h
    split at h
    · next hshake => exact absurd hshake hshaken
    · split at h
      · cases h
      · obtain ⟨⟨c₁, n⟩, hsend, rfl⟩ := Option.map_eq_some_iff.mp h
        have hs := (iSend_wrote hsend).steady
        dsimp only
        split
        · exact ⟨hs.state, by simpa [disableWrite] using hs.channel, hs.wire⟩
        · exact ⟨hs.state, hs.channel, hs.wire⟩
    · cases h
      exact .refl c

/-- A connection that has left its handshake and its connected phase stays so. -/
theorem exec_not_live {c c' : TcpConn} {ev : OutEvent} (hdead : ¬ c.Live)
    (h : ev.exec c = some c') : ¬ c'.Live := by
  unfold Live
  rw [(exec_steady (fun hshake => hdead (.inl hshake)) h).state]
  exact hdead

/-- The invariant of a run: as long as the connection is live, its output is in order. -/
def OutputInv (s : TcpConn × Bytes) : Prop := s.1.Live → OutputOk s.1 s.2

theorem outputInv_attach (fd : Int) : OutputInv (attach fd, []) := fun _ => attach_outputOk fd

theorem OutputInv.exec {c c' : TcpConn} {stream : Bytes} {ev : OutEvent}
    (hinv : OutputInv (c, stream)) (hfine : ¬ ev.Strands c) (h : ev.exec c = some c') :
    OutputInv (c', stream ++ ev.accepted c) := by
  intro hlive'
  by_cases hc : c.Live
  · rcases exec_outputOk hc (hinv hc) hfine h with hok | hdead
    · exact hok
    · exact absurd hlive' hdead
  · exact absurd hlive' (exec_not_live hc h)

/-- In every run, as long as the connection is live, nothing sent is lost,
    duplicated or reordered, and nothing is queued without write interest. -/
theorem output_stream_reachable (fd : Int) (s : TcpConn × Bytes)
    (hs : (outputSystem fd).Reachable s) (hlive : s.1.Live) :
    s.1.wire ++ s.1.output_ = s.2 ∧ (s.1.output_ ≠ [] → s.1.isWriting) := by
  have hinv : OutputInv s := by
    refine LTS.System.invariant ?_ ?_ s hs
    · rintro _ rfl
      exact outputInv_attach fd
    · rintro ⟨c, stream⟩ ev ⟨c', stream'⟩ hinv ⟨hrs, hexec, hstream'⟩
      simp only at hexec hstream'
      rw [hstream']
      exact hinv.exec (not_strands_of_regular c hrs) hexec
  exact ⟨(hinv hlive).stream, (hinv hlive).interest⟩

/-- Handshake, an idle write event, a plain `Send` of five bytes of which the
    kernel takes two, and a `Send(Buffer&)` of one more byte behind the rest. -/
theorem output_stream_partial_write :
    ([104, 101] : Bytes) ++ [108, 108, 111, 33] = [104, 101, 108, 108, 111, 33] ∧
      (([108, 108, 111, 33] : Bytes) ≠ [] → TcpConn.isWriting
        ⟨.kConnected, [108, 108, 111, 33], some ⟨5, 7#16⟩, [104, 101]⟩) := by
  have h0 : (outputSystem 5).Reachable (attach 5, []) := .start rfl
  have h1 : (outputSystem 5).Reachable (⟨.kConnected, [], some ⟨5, 7#16⟩, []⟩, []) :=
    .next (.handleWrite ⟨1, POLLOUT⟩ []) h0 ⟨by decide, rfl, rfl⟩
  have h2 : (outputSystem 5).Reachable (⟨.kConnected, [], some ⟨5, 3#16⟩, []⟩, []) :=
    .next (.handleWrite ⟨0, 0⟩ []) h1 ⟨by decide, rfl, rfl⟩
  have h3 : (outputSystem 5).Reachable
      (⟨.kConnected, [108, 108, 111], some ⟨5, 7#16⟩, [104, 101]⟩, [104, 101, 108, 108, 111]) :=
    .next (.send [104, 101, 108, 108, 111] [.count 2, .eagain]) h2 ⟨by decide, rfl, rfl⟩
  have h4 : (outputSystem 5).Reachable
      (⟨.kConnected, [108, 108, 111, 33], some ⟨5, 7#16⟩, [104, 101]⟩,
        [104, 101, 108, 108, 111, 33]) :=
    .next (.sendBuffer [33] []) h3 ⟨by decide, rfl, rfl⟩
  exact output_stream_reachable 5 _ h4 (by decide)

end JNet
