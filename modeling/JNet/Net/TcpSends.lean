import JNet.Lib.Memory
import JNet.Net.TcpOutput

/-! # The overloads of `Send`

    A byte string can be sent as a `std::string`, as a pointer with a length, on
    the loop thread or on another one, and as a `Buffer`.  A pointer is modelled by
    the array it points to.  The string overload takes the length with `strlen`,
    and the functor of another thread copies the array as a C string when the loop
    gets to it: both lose what stands behind a NUL.
-/

namespace JNet

open Memory

/-! ## The overloads -/

namespace TcpConn

/-- The first `len` bytes of an array. -/
def charsOf (arr : Bytes) (len : Nat) : Except Fault Bytes :=
  if len ≤ arr.length then .ok (arr.take len) else .error .outOfBounds

/-- `SendInLoop(message, len)`, with the array that `message` points to.  There is no
    connection in the result if the answers of the kernel do not fit. -/
def sendInLoopFrom (c : TcpConn) (arr : Bytes) (len : Nat) (results : List WriteResult) :
    Except Fault (Option TcpConn) :=
  if c.channel_.isSome then (charsOf arr len).map fun message => c.sendInLoop message results
  else .ok (some c)

/-- `Send(const char*, size_t)` on the loop thread. -/
def sendChars (c : TcpConn) (arr : Bytes) (len : Nat) (results : List WriteResult) :
    Except Fault (Option TcpConn) :=
  if c.state_ ≠ .kConnected then .ok (some c) else c.sendInLoopFrom arr len results

/-- `Send(const char*)`. -/
def sendCString (c : TcpConn) (arr : Bytes) (results : List WriteResult) :
    Except Fault (Option TcpConn) := do
  let s ← cString (arr.map some)
  c.sendChars arr s.length results

/-- `Send(const std::string&)`: behind the bytes of `c_str()` there is a NUL. -/
def sendString (c : TcpConn) (message : Bytes) (results : List WriteResult) :
    Except Fault (Option TcpConn) :=
  c.sendCString (message ++ [0]) results

/-- `Send(const char*, size_t)` on another thread hands a functor to the loop, or
    gives up. -/
def queuesSend (c : TcpConn) : Bool := c.state_ = .kConnected

/-- That functor, `SendInLoop(std::string(message).c_str(), len)`, with the array that
    `message` points to by then; one that is no longer there has no bytes. -/
def sendQueued (c : TcpConn) (arr : Bytes) (len : Nat) (results : List WriteResult) :
    Except Fault (Option TcpConn) := do
  let copy ← cString (arr.map some)
  c.sendInLoopFrom (copy ++ [0]) len results

/-- The connection is connected; it has a channel then. -/
structure Connected (c : TcpConn) : Prop where
  state : c.state_ = .kConnected
  channel : c.channel_.isSome

/-- The bytes `s` have been added to the outgoing stream, and no others: what was
    written and queued is followed by them, and nothing queued was overtaken. -/
structure Added (c : TcpConn) (s : Bytes) (c' : TcpConn) : Prop where
  stream : c'.wire ++ c'.output_ = c.wire ++ c.output_ ++ s
  written : c.wire <+: c'.wire
  behind : c.output_ ≠ [] → c'.wire = c.wire

end TcpConn

open TcpConn

/-- The ways to send a byte string. -/
inductive SendCall where
  /-- `Send(s)` with a `std::string`. -/
  | string
  /-- `Send(s.data(), s.size())` on the loop thread. -/
  | chars
  /-- The same on another thread. -/
  | queued
  /-- `Send(buffer)` with a buffer that holds `s`. -/
  | buffer
  deriving DecidableEq, Repr

/-- What the call does to `c`.  One from another thread was made when the connection
    was `called`, and finds the array `later` when the loop gets to it. -/
def SendCall.exec (called c : TcpConn) (s later : Bytes) (results : List WriteResult) :
    SendCall → Except Fault (Option TcpConn)
  | .string => c.sendString s results
  | .chars => c.sendChars (s ++ [0]) s.length results
  | .queued => if called.queuesSend then c.sendQueued later s.length results else .ok (some c)
  | .buffer => .ok ((c.sendBuffer (.other s) results).map Prod.fst)

/-- Each of the calls adds the bytes of `s`, whatever the kernel answers. -/
def SendsAgree (called c : TcpConn) (s later : Bytes) : Prop :=
  ∀ (call : SendCall) (results : List WriteResult), settles s.length results →
    ∃ c', call.exec called c s later results = .ok (some c') ∧ Added c s c'

/-- The array is a C string that begins with `s`. -/
def StillHolds (arr s : Bytes) : Prop := 0 ∈ arr ∧ s <+: arr

/-! ## What is handed on -/

section handed

variable {c : TcpConn} {s arr : Bytes} {results : List WriteResult}

theorem charsOf_append (s t : Bytes) : charsOf (s ++ t) s.length = .ok s := by
  rw [charsOf, if_pos (by simp), List.take_left]

/-- Pointer and length give the bytes themselves. -/
theorem sendInLoopFrom_append (hch : c.channel_.isSome) (s t : Bytes)
    (results : List WriteResult) :
    c.sendInLoopFrom (s ++ t) s.length results = .ok (c.sendInLoop s results) := by
  rw [sendInLoopFrom, if_pos hch, charsOf_append]
  rfl

theorem sendChars_append (h : c.Connected) (s t : Bytes) (results : List WriteResult) :
    c.sendChars (s ++ t) s.length results = .ok (c.sendInLoop s results) := by
  rw [sendChars, if_neg (not_not.mpr h.state), sendInLoopFrom_append h.channel]

/-- A string is sent up to its first NUL. -/
theorem sendString_eq (h : c.Connected) (s : Bytes) (results : List WriteResult) :
    ∃ t, (t = s ↔ 0 ∉ s) ∧ c.sendString s results = .ok (c.sendInLoop t results) := by
  unfold sendString sendCString
  by_cases hs : 0 ∈ s
  · obtain ⟨t, u, rfl, ht⟩ := List.eq_append_cons_of_mem hs
    refine ⟨t, ⟨fun heq => ?_, fun hnone => absurd hs hnone⟩, ?_⟩
    · rw [← heq]
      exact ht
    · rw [List.append_assoc, List.cons_append, cString_terminated ht]
      exact sendChars_append h t _ results
  · refine ⟨s, ⟨fun _ => hs, fun _ => rfl⟩, ?_⟩
    rw [cString_terminated hs]
    exact sendChars_append h s [0] results

/-- A prefix without a NUL ends before the first one. -/
theorem prefix_before_nul {s t u : Bytes} (hs : s <+: t ++ 0 :: u) (hnul : 0 ∉ s) : s <+: t := by
  obtain hshort | hlong : s.length ≤ t.length ∨ t.length + 1 ≤ s.length := by omega
  · exact List.prefix_of_prefix_length_le hs (List.prefix_append _ _) hshort
  · have hnext : t ++ [0] <+: t ++ 0 :: u := ⟨u, by simp⟩
    have hinside : t ++ [0] <+: s :=
      List.prefix_of_prefix_length_le hnext hs (by simpa using hlong)
    exact absurd (hinside.subset (by simp)) hnul

/-- The functor sends the bytes that its copy begins with, the NUL behind it included. -/
theorem sendQueued_copied (hch : c.channel_.isSome) {copy : Bytes}
    (hcopy : cString (arr.map some) = .ok copy) (hs : s <+: copy ++ [0])
    (results : List WriteResult) :
    c.sendQueued arr s.length results = .ok (c.sendInLoop s results) := by
  obtain ⟨rest, hrest⟩ := hs
  unfold sendQueued
  rw [hcopy]
  show c.sendInLoopFrom (copy ++ [0]) s.length results = _
  rw [← hrest, sendInLoopFrom_append hch]

theorem sendQueued_eq (hch : c.channel_.isSome) (hnul : 0 ∉ s) (hstill : StillHolds arr s)
    (results : List WriteResult) :
    c.sendQueued arr s.length results = .ok (c.sendInLoop s results) := by
  obtain ⟨t, u, hsplit, ht⟩ := List.eq_append_cons_of_mem hstill.1
  have hbegins : s <+: t := prefix_before_nul (hsplit ▸ hstill.2) hnul
  have hcopy : cString (arr.map some) = .ok t := by rw [hsplit, cString_terminated ht]
  exact sendQueued_copied hch hcopy (hbegins.trans (List.prefix_append _ _)) results

/-- What the functor hands on otherwise. -/
theorem sendQueued_ok (hch : c.channel_.isSome) {len : Nat} {r : Option TcpConn}
    (hok : c.sendQueued arr len results = .ok r) :
    ∃ t u, arr = t ++ 0 :: u ∧ r = c.sendInLoop ((t ++ [0]).take len) results := by
  unfold sendQueued at hok
  obtain ⟨copy, hcopy, hok⟩ := bind_ok hok
  have hmem : 0 ∈ arr := by
    by_contra hnone
    rw [cString_unterminated hnone] at hcopy
    cases hcopy
  obtain ⟨t, u, hsplit, ht⟩ := List.eq_append_cons_of_mem hmem
  rw [hsplit, cString_terminated ht, Except.ok.injEq] at hcopy
  refine ⟨t, u, hsplit, ?_⟩
  rw [← hcopy] at hok
  rw [sendInLoopFrom, if_pos hch, charsOf] at hok
  split at hok
  · exact (Except.ok.inj hok).symm
  · cases hok

theorem sendQueued_steady {len : Nat} {c' : TcpConn}
    (hok : c.sendQueued arr len results = .ok (some c')) : Steady c c' := by
  by_cases hch : c.channel_.isSome
  · obtain ⟨t, u, -, hsend⟩ := sendQueued_ok hch hok
    exact sendInLoop_steady hsend.symm
  · unfold sendQueued at hok
    obtain ⟨copy, -, hok⟩ := bind_ok hok
    rw [sendInLoopFrom, if_neg hch] at hok
    cases hok
    exact .refl c

end handed

/-! ## What is added -/

section added

variable {c c' : TcpConn} {s t : Bytes} {results : List WriteResult}

theorem TcpConn.Added.unique (hs : Added c s c') (ht : Added c t c') : s = t :=
  List.append_cancel_left (hs.stream.symm.trans ht.stream)

/-- `ISend` on a connection with a channel returns if the answers settle it. -/
theorem iSend_settled (hch : c.channel_.isSome) (hrs : settles s.length results) :
    ∃ c₁ n, c.iSend s results = some (c₁, n) := by
  have hsome : (c.iSend s results).isSome = true := by
    rw [iSend, iSendLoop_isSome s results hch 0]
    exact hrs
  obtain ⟨⟨c₁, n⟩, hsend⟩ := Option.isSome_iff_exists.mp hsome
  exact ⟨c₁, n, hsend⟩

theorem sendInLoop_settled (hch : c.channel_.isSome) (hrs : settles s.length results) :
    ∃ c', c.sendInLoop s results = some c' := by
  rw [sendInLoop, if_pos hch]
  split
  · obtain ⟨c₁, n, hsend⟩ := iSend_settled hch hrs
    exact ⟨_, by rw [hsend]; rfl⟩
  · exact ⟨_, rfl⟩

/-- `SendInLoop` adds what it is given. -/
theorem sendInLoop_added (hch : c.channel_.isSome) (h : c.sendInLoop s results = some c') :
    Added c s c' := by
  obtain ⟨hnil, c₁, n, hsend, rfl⟩ | ⟨hne, rfl⟩ := sendInLoop_cases hch h
  · have hs := iSend_wrote hsend
    constructor
    · rw [appendRest_stream hs hnil, hnil, List.append_nil]
    · rw [appendRest_wire, hs.wire]
      exact List.prefix_append _ _
    · intro hne
      exact absurd hnil hne
  · constructor
    · rw [appendRest_wire, appendRest_output, List.append_assoc]
    · rw [appendRest_wire]
    · intro _
      rw [appendRest_wire]

/-- `Send(Buffer&)` adds the bytes of another buffer, unless bytes are queued that
    have no write interest. -/
theorem sendBuffer_added (hch : c.channel_.isSome)
    (hfree : s = [] ∨ c.output_ = [] ∨ c.isWriting) (hrs : settles s.length results) :
    ∃ r, c.sendBuffer (.other s) results = some r ∧ Added c s r.1 := by
  rw [sendBuffer, if_pos hch]
  split
  · exact ⟨_, rfl, by simp [absorb], List.prefix_refl _, fun _ => rfl⟩
  · next hquiet =>
    split
    · next hnone =>
      have hnil : s = [] := by simpa [TcpConn.read] using hnone
      exact ⟨_, rfl, by simp [hnil], List.prefix_refl _, fun _ => rfl⟩
    · next hbytes =>
      have hne : s ≠ [] := by simpa [TcpConn.read] using hbytes
      have hnil : c.output_ = [] := (hfree.resolve_left hne).resolve_right hquiet
      obtain ⟨c₁, n, hsend⟩ := iSend_settled hch hrs
      have hs := iSend_wrote hsend
      refine ⟨c₁.queueRest (.other s) n, ?_, ?_, ?_, ?_⟩
      · show (c.iSend s results).map _ = _
        rw [hsend]
        rfl
      · rw [queueRest_stream hs hnil, hnil, List.append_nil]
      · rw [queueRest_wire, hs.wire]
        exact List.prefix_append _ _
      · intro hqueued
        exact absurd hnil hqueued

/-- Otherwise it writes past them. -/
theorem sendBuffer_overtakes (hch : c.channel_.isSome) (hne : s ≠ []) (hquiet : ¬ c.isWriting)
    (hqueued : c.output_ ≠ []) {r : TcpConn × BufferRef}
    (h : c.sendBuffer (.other s) [.count s.length] = some r) : ¬ Added c s r.1 := by
  intro hadded
  rw [sendBuffer, if_pos hch, if_neg hquiet, if_neg (by simpa [TcpConn.read] using hne)] at h
  obtain ⟨-, c₁, hsend⟩ := iSend_whole hch hne
  have hsent : (c.iSend s [.count s.length]).map (fun r => r.1.queueRest (.other s) r.2) =
      some r := h
  rw [hsend] at hsent
  cases hsent
  have hwire := hadded.behind hqueued
  rw [queueRest_wire, (iSend_wrote hsend).wire, List.take_length] at hwire
  exact hne (List.append_right_eq_self.mp hwire)

end added

/-! ## Main theorem -/

/-- **All overloads send the same bytes** of a string exactly if it has no NUL, the
    array that another thread has pointed to still holds it when the loop gets
    there, and no bytes are queued without write interest. -/
theorem sends_agree_iff (called c : TcpConn) (hcalled : called.Connected) (hc : c.Connected)
    (s later : Bytes) :
    SendsAgree called c s later ↔
      0 ∉ s ∧ StillHolds later s ∧ (s = [] ∨ c.output_ = [] ∨ c.isWriting) := by
  have hqueues : called.queuesSend = true := by
    rw [queuesSend, hcalled.state]
    rfl
  constructor
  · intro hagree
    -- An `EAGAIN` ends every write, so each call returns, with all bytes queued.
    have heagain : settles s.length [.eagain] := rfl
    have hnul : 0 ∉ s := by
      obtain ⟨c', hexec, hadded⟩ := hagree .string [.eagain] heagain
      obtain ⟨t, ht, hsend⟩ := sendString_eq hc s [.eagain]
      have hsame : c.sendString s [.eagain] = .ok (some c') := hexec
      rw [hsend, Except.ok.injEq] at hsame
      exact ht.mp ((sendInLoop_added hc.channel hsame).unique hadded)
    have hstill : StillHolds later s := by
      obtain ⟨c', hexec, hadded⟩ := hagree .queued [.eagain] heagain
      rw [SendCall.exec, if_pos hqueues] at hexec
      obtain ⟨t, u, hsplit, hsend⟩ := sendQueued_ok hc.channel hexec
      have hbytes := (sendInLoop_added hc.channel hsend.symm).unique hadded
      have hcopied : s <+: t ++ [0] := by
        rw [← hbytes]
        exact List.take_prefix _ _
      have hbegins : s <+: t := prefix_before_nul hcopied hnul
      rw [hsplit]
      exact ⟨by simp, hbegins.trans (List.prefix_append _ _)⟩
    refine ⟨hnul, hstill, ?_⟩
    by_contra hstranded
    rw [not_or, not_or] at hstranded
    obtain ⟨hne, hqueued, hquiet⟩ := hstranded
    obtain ⟨hsettles, -⟩ := iSend_whole hc.channel hne
    obtain ⟨c', hexec, hadded⟩ := hagree .buffer [.count s.length] hsettles
    obtain ⟨r, hsend, rfl⟩ := Option.map_eq_some_iff.mp (Except.ok.inj hexec)
    exact sendBuffer_overtakes hc.channel hne hquiet hqueued hsend hadded
  · intro hcond call results hrs
    obtain ⟨hnul, hstill, hfree⟩ := hcond
    obtain ⟨c', hsend⟩ := sendInLoop_settled hc.channel hrs
    have hadded := sendInLoop_added hc.channel hsend
    cases call with
    | string =>
      obtain ⟨t, ht, heq⟩ := sendString_eq hc s results
      rw [ht.mpr hnul, hsend] at heq
      exact ⟨c', heq, hadded⟩
    | chars =>
      refine ⟨c', ?_, hadded⟩
      rw [SendCall.exec, sendChars_append hc, hsend]
    | queued =>
      refine ⟨c', ?_, hadded⟩
      rw [SendCall.exec, if_pos hqueues, sendQueued_eq hc.channel hnul hstill, hsend]
    | buffer =>
      obtain ⟨r, hbuffer, hadded'⟩ := sendBuffer_added hc.channel hfree hrs
      exact ⟨r.1, by rw [SendCall.exec, hbuffer]; rfl, hadded'⟩

/-- A connection on descriptor 5 with nothing queued. -/
def idleConn : TcpConn := ⟨.kConnected, [], some ⟨5, 3#16⟩, []⟩

/-- A text without NUL. -/
theorem sends_agree_text :
    idleConn.Connected ∧ SendsAgree idleConn idleConn [104, 105] [104, 105, 0] := by
  have hconn : idleConn.Connected := ⟨rfl, rfl⟩
  have hstill : StillHolds [104, 105, 0] [104, 105] := ⟨by decide, by decide⟩
  exact ⟨hconn, (sends_agree_iff _ _ hconn hconn _ _).mpr ⟨by decide, hstill, .inr (.inl rfl)⟩⟩

/-- Of `a`, NUL, `b` the string overload sends the `a`, and the functor reads behind
    its copy; on the loop thread and from a buffer all of it is sent. -/
theorem sends_disagree_nul :
    ¬ SendsAgree idleConn idleConn [97, 0, 98] [97, 0, 98, 0] ∧
      SendCall.exec idleConn idleConn [97, 0, 98] [97, 0, 98, 0] [.count 1] .string =
        .ok (some { idleConn with wire := [97] }) ∧
      SendCall.exec idleConn idleConn [97, 0, 98] [97, 0, 98, 0] [.count 3] .queued =
        .error .outOfBounds ∧
      SendCall.exec idleConn idleConn [97, 0, 98] [97, 0, 98, 0] [.count 3] .chars =
        .ok (some { idleConn with wire := [97, 0, 98] }) := by
  refine ⟨?_, rfl, rfl, rfl⟩
  intro hagree
  obtain ⟨c', hexec, -⟩ := hagree .queued [.eagain] rfl
  cases hexec

end JNet
