import JNet.Net.Buffer
import JNet.Net.TcpConn

/-! # `jnet::TcpConn`, the receiving side

    `HandleRead` (`net/tcpconn.cc`) reads from the socket until the kernel has
    nothing more, straight into the free bytes of `input_`, and then calls the
    read callback, which may consume a prefix of what is there.  The end of the
    stream goes through `CleanUp`, which calls it once more.

    `log` records the `read` calls and the callbacks.  What the kernel answers and
    how much a callback consumes are arguments of the step.  It is the step that
    records a `read`, from its label; `HandleRead` leaves the log alone, and the
    callback, which is not part of it, records what it finds.
-/

namespace JNet

open Memory

/-! ## State -/

/-- What one call of `read` returns. -/
inductive ReadResult where
  | data (bytes : Bytes)
  | eintr
  | eagain
  | eof
  | error (errno : Int)
  deriving DecidableEq, Repr

inductive InputEvent where
  /-- A `read` with so many bytes of room, and what it stored there. -/
  | read (space : Nat) (bytes : Bytes)
  /-- The read callback, in a state of the connection: the bytes it found in
      `input_` and how many it consumed. -/
  | callback (state : ConnState) (seen : List Cell) (len : Nat)
  deriving DecidableEq, Repr

structure TcpInput where
  state_ : ConnState
  input_ : Buffer
  /-- `channel_->GetFd()`. -/
  fd : Int
  /-- A read callback is set. -/
  readcb_ : Bool
  /-- Control is in the loop of `HandleRead`. -/
  reading : Bool
  log : List InputEvent
  deriving DecidableEq, Repr

/-- The most bytes `read` transfers at once, whatever the room; the count fits the
    `int` it is kept in. -/
def maxTransfer : Nat := 0x7ffff000

/-- What `read` may return when it is given `space` bytes. -/
def ReadResult.Fits (space : Nat) : ReadResult → Prop
  | .data bytes => 1 ≤ bytes.length ∧ bytes.length ≤ space ∧ bytes.length ≤ maxTransfer
  | _ => True

/-- The bytes a `read` returns. -/
def ReadResult.bytes : ReadResult → Bytes
  | .data bytes => bytes
  | _ => []

namespace TcpInput

def record (c : TcpInput) (e : InputEvent) : TcpInput := { c with log := c.log ++ [e] }

/-- `readcb_(con)`, which consumes `len` bytes. -/
def callback (c : TcpInput) (len : Nat) : TcpInput :=
  { c.record (.callback c.state_ c.input_.contents len) with input_ := c.input_.consume len }

/-- The callback changes the input and the log, nothing else. -/
theorem callback_frame (c : TcpInput) (len : Nat) :
    (c.callback len).state_ = c.state_ ∧ (c.callback len).readcb_ = c.readcb_ ∧
      (c.callback len).fd = c.fd ∧ (c.callback len).reading = c.reading := by
  rw [callback, record]
  exact ⟨rfl, rfl, rfl, rfl⟩

/-- `if (readcb_ && input_.GetSize()) readcb_(con)`. -/
def offer (c : TcpInput) (len : Nat) : TcpInput :=
  if c.readcb_ = true ∧ c.input_.getSize ≠ 0 then c.callback len else c

/-- `CleanUp`, as far as the input is concerned. -/
def cleanUp (c : TcpInput) (len : Nat) : TcpInput :=
  let c := c.offer len
  { c with
    state_ := if c.state_ = .kHandShakeing then .kFailed else .kClosed
    readcb_ := false
    reading := false }

/-- What `HandleRead` does with the result of its `read`; `len` is what the
    callback consumes if it is called. -/
def handleResult (c : TcpInput) (result : ReadResult) (len : Nat) : Except Fault TcpInput :=
  match result with
  | .data bytes => do
    let mem ← store c.input_.buf_ c.input_.e_ (bytes.map some)
    return { c with
      input_ := ({ c.input_ with buf_ := mem } : Buffer).addSize bytes.length }
  -- Back to the head of the loop, with the state untouched.
  | .eintr => .ok c
  | .eagain => .ok { c.offer len with reading := false }
  | .eof => .ok (c.cleanUp len)
  | .error _ => .ok (c.cleanUp len)

/-- One round of the loop of `HandleRead`. -/
def readOnce (c : TcpInput) (result : ReadResult) (len : Nat) : Except Fault TcpInput := do
  let input ← c.input_.makeRoomSuggested
  let c := { c with input_ := input }
  -- No `read` is made, `rd` stays 0, and that is taken for the end of the stream.
  if c.fd < 0 then return c.cleanUp len
  else c.handleResult result len

theorem readOnce_eq {c : TcpInput} {input : Buffer}
    (hroom : c.input_.makeRoomSuggested = .ok input) (hfd : 0 ≤ c.fd) (result : ReadResult)
    (len : Nat) :
    c.readOnce result len = ({ c with input_ := input } : TcpInput).handleResult result len := by
  rw [readOnce, hroom]
  exact if_neg (not_lt.mpr hfd)

/-- The room `MakeRoom()` leaves for the `read` of a round. -/
def roomToRead (c : TcpInput) : Nat :=
  (c.input_.makeRoomSuggested.toOption.map Buffer.getSpace).getD 0

/-- The `read` of a round goes into the log; on a negative descriptor there is none. -/
def noteRead (c : TcpInput) (result : ReadResult) : TcpInput :=
  if c.fd < 0 then c else c.record (.read c.roomToRead result.bytes)

theorem noteRead_eq {c : TcpInput} {input : Buffer}
    (hroom : c.input_.makeRoomSuggested = .ok input) (hfd : 0 ≤ c.fd) (result : ReadResult) :
    c.noteRead result = c.record (.read input.getSpace result.bytes) := by
  have hspace : c.roomToRead = input.getSpace := by
    rw [roomToRead, hroom, Except.toOption, Option.map_some, Option.getD_some]
  rw [noteRead, if_neg (not_lt.mpr hfd), hspace]

/-- The round of the loop with its `read` in the log. -/
theorem noteRead_readOnce {c : TcpInput} {input : Buffer}
    (hroom : c.input_.makeRoomSuggested = .ok input) (hfd : 0 ≤ c.fd) (result : ReadResult)
    (len : Nat) :
    (c.noteRead result).readOnce result len =
      (({ c with input_ := input } : TcpInput).record
        (.read input.getSpace result.bytes)).handleResult result len := by
  have hnoted : (c.noteRead result).input_.makeRoomSuggested = .ok input := by
    rw [noteRead_eq hroom hfd]
    exact hroom
  have hfd' : 0 ≤ (c.noteRead result).fd := by
    rw [noteRead_eq hroom hfd]
    exact hfd
  rw [readOnce_eq hnoted hfd', noteRead_eq hroom hfd]
  rfl

/-- What the kernel and the callback may do in one round.  An allocation of 2^63
    bytes or more fails, and the call does not return. -/
def Admits (c : TcpInput) (result : ReadResult) (len : Nat) : Prop :=
  ∀ input, c.input_.makeRoomSuggested = .ok input →
    input.cap_ < 2 ^ 63 ∧ result.Fits input.getSpace ∧ len ≤ input.getSize

end TcpInput

inductive InputLabel where
  /-- A read event: `HandleRead` is entered. -/
  | handleRead
  | read (result : ReadResult) (len : Nat)

/-- Read events on a connected connection. -/
def inputSystem : LTS.System TcpInput InputLabel where
  init := fun c =>
    c.state_ = .kConnected ∧ c.input_ = {} ∧ 0 ≤ c.fd ∧ c.readcb_ = true ∧
    c.reading = false ∧ c.log = []
  step := fun c l c' =>
    match l with
    | .handleRead => c.reading = false ∧ c' = { c with reading := c.state_ = .kConnected }
    | .read result len =>
        c.reading = true ∧ c.Admits result len ∧
        (c.noteRead result).readOnce result len = .ok c'

/-! ## What the log says -/

namespace InputEvent

/-- The bytes received. -/
def received (log : List InputEvent) : Bytes :=
  log.flatMap fun
    | .read _ bytes => bytes
    | .callback _ _ _ => []

/-- How many bytes have been consumed. -/
def consumed (log : List InputEvent) : Nat :=
  (log.map fun
    | .read _ _ => 0
    | .callback _ _ len => len).sum

/-- Some callback has found the byte number `i` of the stream in the buffer. -/
def Offered (log : List InputEvent) (i : Nat) : Prop :=
  ∃ n state seen len, log[n]? = some (.callback state seen len) ∧
    consumed (log.take n) ≤ i ∧ i < consumed (log.take n) + seen.length

/-- Every callback, made while connected, found exactly the bytes received until
    then that were not consumed. -/
def ViewsRight (log : List InputEvent) : Prop :=
  ∀ n state seen len, log[n]? = some (.callback state seen len) →
    state = .kConnected ∧
    seen = ((received (log.take n)).drop (consumed (log.take n))).map some

@[simp] theorem received_read (log : List InputEvent) (space : Nat) (bytes : Bytes) :
    received (log ++ [.read space bytes]) = received log ++ bytes := by
  simp [received]

@[simp] theorem received_callback (log : List InputEvent) (state : ConnState)
    (seen : List Cell) (len : Nat) :
    received (log ++ [.callback state seen len]) = received log := by
  simp [received]

@[simp] theorem consumed_read (log : List InputEvent) (space : Nat) (bytes : Bytes) :
    consumed (log ++ [.read space bytes]) = consumed log := by
  simp [consumed]

@[simp] theorem consumed_callback (log : List InputEvent) (state : ConnState)
    (seen : List Cell) (len : Nat) :
    consumed (log ++ [.callback state seen len]) = consumed log + len := by
  simp [consumed]

/-- What was offered stays offered. -/
theorem Offered.append {log : List InputEvent} {i : Nat} (h : Offered log i) (e : InputEvent) :
    Offered (log ++ [e]) i := by
  obtain ⟨n, state, seen, len, hget, hlow, hhigh⟩ := h
  obtain ⟨hlt, _⟩ := List.getElem?_eq_some_iff.mp hget
  have htake : (log ++ [e]).take n = log.take n := List.take_append_of_le_length (by omega)
  refine ⟨n, state, seen, len, ?_, ?_, ?_⟩
  · rw [List.getElem?_append_left hlt, hget]
  · rw [htake]; exact hlow
  · rw [htake]; exact hhigh

/-- A callback offers the bytes it finds. -/
theorem offered_callback {log : List InputEvent} {state : ConnState} {seen : List Cell}
    {len i : Nat} (hlow : consumed log ≤ i) (hhigh : i < consumed log + seen.length) :
    Offered (log ++ [.callback state seen len]) i := by
  refine ⟨log.length, state, seen, len, ?_, ?_, ?_⟩
  · simp
  · simpa using hlow
  · simpa using hhigh

/-- Views stay right with one more event, if that is right itself. -/
theorem ViewsRight.append {log : List InputEvent} (h : ViewsRight log) {e : InputEvent}
    (he : ∀ state seen len, e = .callback state seen len →
      state = .kConnected ∧ seen = ((received log).drop (consumed log)).map some) :
    ViewsRight (log ++ [e]) := by
  intro n state seen len hget
  by_cases hlt : n < log.length
  · have htake : (log ++ [e]).take n = log.take n := List.take_append_of_le_length (by omega)
    rw [List.getElem?_append_left hlt] at hget
    rw [htake]
    exact h n state seen len hget
  · obtain ⟨hle, _⟩ := List.getElem?_eq_some_iff.mp hget
    rw [List.length_append, List.length_singleton] at hle
    obtain rfl : n = log.length := by omega
    rw [List.getElem?_append_right (Nat.le_refl _), Nat.sub_self] at hget
    rw [List.take_left]
    exact he state seen len (Option.some.inj hget)

end InputEvent

/-! ## The invariant -/

open InputEvent

structure InputInv (c : TcpInput) : Prop where
  wf : c.input_.WF
  exp : c.input_.exp_ = 4096
  cap : c.input_.cap_ < 2 ^ 63
  contents : c.input_.contents = ((received c.log).drop (consumed c.log)).map some
  bound : consumed c.log ≤ (received c.log).length
  views : ViewsRight c.log
  spaces : ∀ space bytes, .read space bytes ∈ c.log → 1 ≤ space
  offered : ∀ i, i < consumed c.log → Offered c.log i
  connected : c.state_ = .kConnected → c.readcb_ = true ∧ 0 ≤ c.fd
  closed : c.state_ ≠ .kConnected → ∀ i, i < (received c.log).length → Offered c.log i
  reading : c.reading = true → c.state_ = .kConnected

theorem inputInv_initial (c : TcpInput) (h : inputSystem.init c) : InputInv c := by
  obtain ⟨hstate, hinput, hfd, hcb, hreading, hlog⟩ := h
  constructor
  · rw [hinput]; exact Buffer.WF.empty
  · rw [hinput]
  · rw [hinput]; decide
  · rw [hinput, hlog]; rfl
  · rw [hlog]; decide
  · intro n state seen len hget
    rw [hlog] at hget
    cases hget
  · intro space bytes hmem
    rw [hlog] at hmem
    cases hmem
  · intro i hi
    rw [hlog] at hi
    cases hi
  · exact fun _ => ⟨hcb, hfd⟩
  · exact fun hne => absurd hstate hne
  · exact fun _ => hstate

section step

variable {c : TcpInput}

/-- The unread part of the stream is as long as the contents of the buffer. -/
theorem InputInv.getSize_eq (h : InputInv c) :
    c.input_.getSize = (received c.log).length - consumed c.log := by
  have hlen := congrArg List.length h.contents
  rw [h.wf.length_contents, ← h.wf.getSize_eq] at hlen
  simpa using hlen

/-- `MakeRoom()` makes room for at least one byte. -/
theorem InputInv.makeRoom (h : InputInv c) {input : Buffer}
    (hroom : c.input_.makeRoomSuggested = .ok input) (hcap : input.cap_ < 2 ^ 63) :
    InputInv { c with input_ := input } ∧ 1 ≤ input.getSpace := by
  have hexp : 0 < c.input_.exp_ := by
    rw [h.exp]
    decide
  obtain ⟨input', hok, hwf, hcont, hsame, -, hspace⟩ := h.wf.makeRoomSuggested hexp h.cap
  rw [hok] at hroom
  cases hroom
  exact ⟨⟨hwf, hsame.trans h.exp, hcap, hcont.trans h.contents, h.bound, h.views, h.spaces,
    h.offered, h.connected, h.closed, h.reading⟩, hspace⟩

/-- A `read` that stores bytes behind the contents, or none at all. -/
theorem InputInv.read (h : InputInv c) (hstate : c.state_ = .kConnected) {space : Nat}
    (hspace : 1 ≤ space) {bytes : Bytes} {input : Buffer} (hwf : input.WF)
    (hexp : input.exp_ = 4096) (hcap : input.cap_ < 2 ^ 63)
    (hcont : input.contents = c.input_.contents ++ bytes.map some) :
    InputInv { c.record (.read space bytes) with input_ := input } := by
  have hbound := h.bound
  constructor
  · exact hwf
  · exact hexp
  · exact hcap
  · -- The new bytes come behind everything received, and nothing is consumed.
    show input.contents = ((received (c.log ++ [.read space bytes])).drop
      (consumed (c.log ++ [.read space bytes]))).map some
    rw [received_read, consumed_read, hcont, h.contents,
      List.drop_append_of_le_length hbound, List.map_append]
  · show consumed (c.log ++ [.read space bytes]) ≤
      (received (c.log ++ [.read space bytes])).length
    rw [received_read, consumed_read, List.length_append]
    omega
  · exact h.views.append nofun
  · intro space' bytes' hmem
    rcases List.mem_append.mp hmem with hold | hlast
    · exact h.spaces space' bytes' hold
    · cases List.mem_singleton.mp hlast
      exact hspace
  · intro i hi
    have hi' : i < consumed (c.log ++ [.read space bytes]) := hi
    rw [consumed_read] at hi'
    exact (h.offered i hi').append _
  · exact h.connected
  · exact fun hne => absurd hstate hne
  · exact h.reading

/-- A `read` that stores nothing. -/
theorem InputInv.record (h : InputInv c) (hstate : c.state_ = .kConnected) {space : Nat}
    (hspace : 1 ≤ space) : InputInv (c.record (.read space [])) := by
  have hcont : c.input_.contents = c.input_.contents ++ ([] : Bytes).map some := by simp
  exact h.read hstate hspace h.wf h.exp h.cap hcont

/-- The callback finds the rest of the stream; afterwards everything received so
    far has been offered. -/
theorem InputInv.offer (h : InputInv c) (hstate : c.state_ = .kConnected) {len : Nat}
    (hlen : len ≤ c.input_.getSize) :
    InputInv (c.offer len) ∧ (c.offer len).state_ = .kConnected ∧
      ∀ i, i < (received (c.offer len).log).length → Offered (c.offer len).log i := by
  have hsize := h.getSize_eq
  have hbound := h.bound
  by_cases hzero : c.input_.getSize = 0
  · -- Everything is consumed, so it was offered before.
    have hsame : c.offer len = c := by
      rw [TcpInput.offer, if_neg (by simp [hzero])]
    rw [hsame]
    exact ⟨h, hstate, fun i hi => h.offered i (by omega)⟩
  · have hcall : c.offer len = c.callback len := by
      rw [TcpInput.offer, if_pos ⟨(h.connected hstate).1, hzero⟩]
    have hlog : (c.callback len).log =
        c.log ++ [.callback c.state_ c.input_.contents len] := rfl
    have hseen : c.input_.contents.length = (received c.log).length - consumed c.log := by
      rw [h.wf.length_contents, ← h.wf.getSize_eq, hsize]
    have hall : ∀ i, i < (received (c.callback len).log).length →
        Offered (c.callback len).log i := by
      intro i hi
      rw [hlog, received_callback] at hi
      rw [hlog]
      -- What was consumed was offered before; the rest is in front of this callback.
      by_cases hold : i < consumed c.log
      · exact (h.offered i hold).append _
      · exact offered_callback (by omega) (by omega)
    have hbound' : consumed (c.callback len).log ≤ (received (c.callback len).log).length := by
      rw [hlog, received_callback, consumed_callback]
      omega
    have hinput : (c.callback len).input_ = c.input_.consume len := rfl
    obtain ⟨hstate', hreadcb', hfd', hreading'⟩ := c.callback_frame len
    obtain ⟨hwf, hcont⟩ := h.wf.consume hlen
    obtain ⟨hexp, hcap⟩ := Buffer.consume_cap c.input_ len
    rw [hcall]
    refine ⟨⟨?_, ?_, ?_, ?_, hbound', ?_, ?_, fun i hi => hall i (lt_of_lt_of_le hi hbound'),
      ?_, fun _ => hall, ?_⟩, hstate'.trans hstate, hall⟩
    · rw [hinput]
      exact hwf
    · rw [hinput, hexp]
      exact h.exp
    · rw [hinput]
      exact lt_of_le_of_lt hcap h.cap
    · rw [hinput, hcont, h.contents, hlog, received_callback, consumed_callback,
        ← List.map_drop, List.drop_drop]
    · rw [hlog]
      apply h.views.append
      intro state seen len' heq
      cases heq
      exact ⟨hstate, h.contents⟩
    · intro space bytes hmem
      rw [hlog] at hmem
      rcases List.mem_append.mp hmem with hold | hlast
      · exact h.spaces space bytes hold
      · cases List.mem_singleton.mp hlast
    · rw [hstate', hreadcb', hfd']
      exact h.connected
    · rw [hstate', hreading']
      exact h.reading

/-- The end of the stream. -/
theorem InputInv.cleanUp (h : InputInv c) (hstate : c.state_ = .kConnected) {len : Nat}
    (hlen : len ≤ c.input_.getSize) :
    InputInv (c.cleanUp len) ∧ (c.cleanUp len).state_ = .kClosed := by
  obtain ⟨hinv, hconn, hall⟩ := h.offer hstate hlen
  have hclosed : (c.cleanUp len).state_ = .kClosed := by
    show (if (c.offer len).state_ = .kHandShakeing then ConnState.kFailed else .kClosed) = _
    rw [hconn]
    rfl
  refine ⟨⟨hinv.wf, hinv.exp, hinv.cap, hinv.contents, hinv.bound, hinv.views, hinv.spaces,
    hinv.offered, ?_, fun _ => hall, nofun⟩, hclosed⟩
  rw [hclosed]
  nofun

/-- The bytes the kernel stores behind `e_`, which `AddSize` counts in. -/
theorem InputInv.stored (h : InputInv c) {bytes : Bytes} (hle : bytes.length ≤ c.input_.getSpace) :
    ∃ mem, store c.input_.buf_ c.input_.e_ (bytes.map some) = .ok mem ∧
      (({ c.input_ with buf_ := mem } : Buffer).addSize bytes.length).WF ∧
      (({ c.input_ with buf_ := mem } : Buffer).addSize bytes.length).contents =
        c.input_.contents ++ bytes.map some := by
  have hecap := h.wf.e_le_cap
  have hcap := h.wf.cap_lt
  rw [Buffer.getSpace, sizeSub_of_le hecap hcap] at hle
  have hlength : (bytes.map (some : UInt8 → Cell)).length = bytes.length := List.length_map _
  obtain ⟨mem, hstore, hwf, hcont⟩ := h.wf.fill (p := bytes.map some) (by rw [hlength]; omega)
  rw [hlength] at hwf hcont
  have hadd : sizeT (c.input_.e_ + bytes.length) = c.input_.e_ + bytes.length :=
    sizeT_of_lt (by omega)
  refine ⟨mem, hstore, ?_, ?_⟩
  · rw [Buffer.addSize, hadd]
    exact hwf
  · rw [Buffer.addSize, hadd]
    exact hcont

/-- Whatever `read` returns, its result is taken up without a fault. -/
theorem InputInv.handleResult_ok (h : InputInv c) {result : ReadResult}
    (hfits : result.Fits c.input_.getSpace) (len : Nat) :
    ∃ c', c.handleResult result len = .ok c' := by
  cases result with
  | data bytes =>
    obtain ⟨mem, hstore, -⟩ := h.stored hfits.2.1
    exact ⟨_, bind_of_ok hstore _⟩
  | eintr => exact ⟨_, rfl⟩
  | eagain => exact ⟨_, rfl⟩
  | eof => exact ⟨_, rfl⟩
  | error errno => exact ⟨_, rfl⟩

/-- Once it is recorded, the `read` has its bytes in the buffer as they are in the log. -/
theorem InputInv.handleResult_data (h : InputInv c) (hstate : c.state_ = .kConnected)
    {space : Nat} (hspace : 1 ≤ space) {bytes : Bytes} (hle : bytes.length ≤ c.input_.getSpace)
    (len : Nat) :
    ∃ c', (c.record (.read space bytes)).handleResult (.data bytes) len = .ok c' ∧ InputInv c' ∧
      c'.reading = c.reading ∧ received c'.log = received c.log ++ bytes ∧
      c'.input_.cap_ = c.input_.cap_ := by
  obtain ⟨mem, hstore, hwf, hcont⟩ := h.stored hle
  exact ⟨_, bind_of_ok hstore _, h.read hstate hspace hwf h.exp h.cap hcont, rfl,
    received_read _ _ _, rfl⟩

theorem InputInv.handleResult (h : InputInv c) (hstate : c.state_ = .kConnected)
    {input : Buffer} (hinput : c.input_ = input) {result : ReadResult}
    (hspace : 1 ≤ input.getSpace) (hfits : result.Fits input.getSpace) {len : Nat}
    (hlen : len ≤ input.getSize) :
    ∃ c', (c.record (.read input.getSpace result.bytes)).handleResult result len = .ok c' ∧
      InputInv c' := by
  subst hinput
  have hrec := h.record hstate hspace
  cases result with
  | data bytes =>
    obtain ⟨c', hdata, hinv, -⟩ := h.handleResult_data hstate hspace hfits.2.1 len
    exact ⟨c', hdata, hinv⟩
  | eintr => exact ⟨_, rfl, hrec⟩
  | eagain =>
    obtain ⟨hoff, _, _⟩ := hrec.offer hstate hlen
    exact ⟨_, rfl, hoff.wf, hoff.exp, hoff.cap, hoff.contents, hoff.bound, hoff.views,
      hoff.spaces, hoff.offered, hoff.connected, hoff.closed, nofun⟩
  | eof => exact ⟨_, rfl, (hrec.cleanUp hstate hlen).1⟩
  | error errno => exact ⟨_, rfl, (hrec.cleanUp hstate hlen).1⟩

/-- What `MakeRoom()` returns in a round of the loop, and what is known of it. -/
theorem InputInv.round (h : InputInv c) (hreading : c.reading = true) {result : ReadResult}
    {len : Nat} (hadmits : c.Admits result len) :
    ∃ input, c.input_.makeRoomSuggested = .ok input ∧ 1 ≤ input.getSpace ∧
      result.Fits input.getSpace ∧ len ≤ input.getSize ∧ c.state_ = .kConnected ∧ 0 ≤ c.fd ∧
      InputInv { c with input_ := input } := by
  have hstate := h.reading hreading
  have hexp : 0 < c.input_.exp_ := by
    rw [h.exp]
    decide
  obtain ⟨input, hroom, -⟩ := h.wf.makeRoomSuggested hexp h.cap
  obtain ⟨hcap, hfits, hlen⟩ := hadmits input hroom
  obtain ⟨hinv, hspace⟩ := h.makeRoom hroom hcap
  exact ⟨input, hroom, hspace, hfits, hlen, hstate, (h.connected hstate).2, hinv⟩

/-- One round of the loop. -/
theorem InputInv.readOnce (h : InputInv c) (hreading : c.reading = true) {result : ReadResult}
    {len : Nat} (hadmits : c.Admits result len) :
    ∃ c', (c.noteRead result).readOnce result len = .ok c' ∧ InputInv c' := by
  obtain ⟨input, hroom, hspace, hfits, hlen, hstate, hfd, hinv⟩ := h.round hreading hadmits
  obtain ⟨c', hok, hinv'⟩ := hinv.handleResult hstate rfl hspace hfits hlen
  exact ⟨c', (TcpInput.noteRead_readOnce hroom hfd result len).trans hok, hinv'⟩

end step

/-- The callback receives nothing. -/
theorem received_offer (c : TcpInput) (len : Nat) :
    received (c.offer len).log = received c.log := by
  by_cases hcall : c.readcb_ = true ∧ c.input_.getSize ≠ 0
  · rw [TcpInput.offer, if_pos hcall]
    exact received_callback _ _ _ _
  · rw [TcpInput.offer, if_neg hcall]

/-- A round of the loop as a step, once `MakeRoom()` has returned. -/
theorem inputSystem_read {c c' : TcpInput} {input : Buffer} {result : ReadResult} {len : Nat}
    (hreading : c.reading = true) (hfd : 0 ≤ c.fd)
    (hroom : c.input_.makeRoomSuggested = .ok input) (hcap : input.cap_ < 2 ^ 63)
    (hfits : result.Fits input.getSpace) (hlen : len ≤ input.getSize)
    (hok : (({ c with input_ := input } : TcpInput).record
      (.read input.getSpace result.bytes)).handleResult result len = .ok c') :
    inputSystem.step c (.read result len) c' := by
  refine ⟨hreading, ?_, ?_⟩
  · intro input' hroom'
    rw [hroom] at hroom'
    rw [← Except.ok.inj hroom']
    exact ⟨hcap, hfits, hlen⟩
  · exact (TcpInput.noteRead_readOnce hroom hfd result len).trans hok

theorem inputInv_preserved (c : TcpInput) (l : InputLabel) (c' : TcpInput) (h : InputInv c)
    (hstep : inputSystem.step c l c') : InputInv c' := by
  simp only [inputSystem] at hstep
  match l with
  | .handleRead =>
    obtain ⟨_, rfl⟩ := hstep
    refine ⟨h.wf, h.exp, h.cap, h.contents, h.bound, h.views, h.spaces, h.offered, h.connected,
      h.closed, ?_⟩
    intro hreading
    simpa using hreading
  | .read result len =>
    obtain ⟨hreading, hadmits, hok⟩ := hstep
    obtain ⟨c₁, hok₁, hinv⟩ := h.readOnce hreading hadmits
    rw [hok₁] at hok
    rw [← Except.ok.inj hok]
    exact hinv

/-- **The input stream**: at every point of every run the buffer is well formed,
    and whatever the kernel answers next is stored inside the allocation; every
    `read` was given room for at least one byte; every callback found exactly the
    bytes received and not consumed until then; and a connection that is not
    connected any more had offered every byte to the callback before. -/
theorem input_stream_reachable (c : TcpInput) (hc : inputSystem.Reachable c) :
    (c.input_.b_ ≤ c.input_.e_ ∧ c.input_.e_ ≤ c.input_.cap_ ∧
      c.input_.buf_.length = c.input_.cap_) ∧
    (∀ result len, c.reading = true → c.Admits result len →
      ∃ c', c.readOnce result len = .ok c') ∧
    (∀ space bytes, .read space bytes ∈ c.log → 1 ≤ space) ∧
    ViewsRight c.log ∧
    (c.state_ ≠ .kConnected → ∀ i, i < (received c.log).length → Offered c.log i) := by
  have h := LTS.System.invariant inputInv_initial inputInv_preserved c hc
  refine ⟨⟨h.wf.b_le_e, h.wf.e_le_cap, h.wf.alloc⟩, ?_, h.spaces, h.views, h.closed⟩
  intro result len hreading hadmits
  obtain ⟨input, hroom, -, hfits, -, -, hfd, hinv⟩ := h.round hreading hadmits
  rw [TcpInput.readOnce_eq hroom hfd]
  exact hinv.handleResult_ok hfits len

/-- One byte and the end of the stream: the callback finds the byte before the
    connection is closed. -/
theorem input_stream_closed :
    ∃ c : TcpInput, c.state_ = .kClosed ∧ received c.log = [7] ∧ Offered c.log 0 := by
  let c₁ : TcpInput :=
    { state_ := .kConnected, input_ := {}, fd := 5, readcb_ := true, reading := true, log := [] }
  have h0 : inputSystem.Reachable { c₁ with reading := false } :=
    .start ⟨rfl, rfl, by decide, rfl, rfl, rfl⟩
  have h1 : inputSystem.Reachable c₁ := h0.next .handleRead (by exact ⟨rfl, rfl⟩)
  have hinv₁ := LTS.System.invariant inputInv_initial inputInv_preserved c₁ h1
  -- The byte, into a fresh allocation.
  obtain ⟨b₁, hroom₁, -, -, -, hgrow₁, hspace₁⟩ :=
    hinv₁.wf.makeRoomSuggested (by show 0 < 4096; norm_num) hinv₁.cap
  have hcap₁ : b₁.cap_ ≤ 4096 := hgrow₁
  obtain ⟨hroomed, -⟩ := hinv₁.makeRoom hroom₁ (by omega)
  have hle : ([7] : Bytes).length ≤ b₁.getSpace := hspace₁
  obtain ⟨c₂, hok₂, hinv₂, hreading₂, hrec₂, hcap₂⟩ :=
    hroomed.handleResult_data rfl hspace₁ hle 0
  have h2 : inputSystem.Reachable c₂ := h1.next (.read (.data [7]) 0)
    (inputSystem_read rfl (by decide) hroom₁ (by omega) ⟨by decide, hle, by decide⟩
      (Nat.zero_le _) hok₂)
  -- The end of the stream; the callback consumes nothing.
  have hstate₂ := hinv₂.reading hreading₂
  obtain ⟨b₂, hroom₂, -, -, -, hgrow₂, hspace₂⟩ :=
    hinv₂.wf.makeRoomSuggested (by rw [hinv₂.exp]; norm_num) hinv₂.cap
  rw [hinv₂.exp, hcap₂] at hgrow₂
  have hcap₃ : b₂.cap_ < 2 ^ 63 := by
    have : b₂.cap_ ≤ max 4096 (2 * b₁.cap_) := hgrow₂
    omega
  obtain ⟨hroomed₂, -⟩ := hinv₂.makeRoom hroom₂ hcap₃
  have hlast := hroomed₂.record hstate₂ hspace₂
  obtain ⟨-, hclosed⟩ := hlast.cleanUp hstate₂ (Nat.zero_le _)
  have hfits₂ : ReadResult.eof.Fits b₂.getSpace := trivial
  have h3 : inputSystem.Reachable (TcpInput.cleanUp
      (({ c₂ with input_ := b₂ } : TcpInput).record (.read b₂.getSpace [])) 0) :=
    h2.next (.read .eof 0)
      (inputSystem_read hreading₂ (hinv₂.connected hstate₂).2 hroom₂ hcap₃ hfits₂
        (Nat.zero_le _) rfl)
  have hrec₃ : received (TcpInput.cleanUp
      (({ c₂ with input_ := b₂ } : TcpInput).record (.read b₂.getSpace [])) 0).log = [7] := by
    show received (TcpInput.offer _ 0).log = [7]
    rw [received_offer]
    show received (c₂.log ++ [_]) = [7]
    rw [received_read, hrec₂]
    rfl
  have hmain := input_stream_reachable _ h3
  refine ⟨_, hclosed, hrec₃, hmain.2.2.2.2 ?_ 0 ?_⟩
  · rw [hclosed]
    nofun
  · rw [hrec₃]
    decide

end JNet
